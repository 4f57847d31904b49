import ShopLens.Filter.Token
import ShopLens.Value

/-!
# ShopLens.Filter.Error

Why an expression is refused or fails, with the wording of each cause.
-/

namespace ShopLens.Filter

/-- What is wrong at some place of a text. -/
inductive SyntaxFault where
  /-- A character that only counts when doubled stands alone. -/
  | expectedPair (c : Char)
  | unexpectedChar (c : Char)
  | unterminatedText
  | integerRange (digits : String)
  | tooDeep
  | expectedMethod
  | expectedArguments
  | expectedCommaOrClose
  | expectedClose
  | unexpectedEnd
  | unexpectedSymbol (s : Symbol)
  /-- The expression ends before the text does. -/
  | trailing
deriving DecidableEq, Repr

/-- The wording of a syntax fault. -/
def SyntaxFault.message : SyntaxFault → String
  | expectedPair c => s!"expected `{c}{c}`"
  | unexpectedChar c => s!"unexpected character `{c}`"
  | unterminatedText => "unterminated string"
  | integerRange digits => s!"integer out of range `{digits}`"
  | tooDeep => "expression nested too deeply"
  | expectedMethod => "expected method name after `.`"
  | expectedArguments => "expected `(` after method name"
  | expectedCommaOrClose => "expected `,` or `)`"
  | expectedClose => "expected `)`"
  | unexpectedEnd => "unexpected end of expression"
  | unexpectedSymbol s => "unexpected token " ++ s.label
  | trailing => "unexpected trailing input"

/-- Why an expression has no value for an item. -/
inductive EvalFault where
  | expectedBool (found : Value.Kind)
  | unordered (kind : Value.Kind)
  | incomparable (left right : Value.Kind)
  | undefinedMethod (method : String) (target : Value.Kind)
  | notBool (found : Value.Kind)
deriving DecidableEq, Repr

/-- The wording of an evaluation fault. -/
def EvalFault.message : EvalFault → String
  | expectedBool found => "expected bool, found " ++ found.name
  | unordered kind => "cannot order " ++ kind.name ++ " values"
  | incomparable left right => "cannot compare " ++ left.name ++ " with " ++ right.name
  | undefinedMethod method target => method ++ " is not defined for " ++ target.name
  | notBool found => "expression produced " ++ found.name ++ ", not bool"

/-- Why an expression is refused or fails. -/
inductive FilterError where
  | empty
  /-- The text is not an expression; the fault lies at an offset in bytes. -/
  | malformed (pos : Nat) (fault : SyntaxFault)
  | unknownFunction (name : String)
  | unknownMethod (name : String)
  | arity (name : String) (expected found : Nat)
  | evaluation (fault : EvalFault)
deriving DecidableEq, Repr

/-- The wording of a filter error. -/
def FilterError.message : FilterError → String
  | empty => "expression is empty"
  | malformed pos fault => s!"syntax error at offset {pos}: {fault.message}"
  | unknownFunction name => s!"unknown function `{name}`"
  | unknownMethod name => s!"unknown method `{name}`"
  | arity name expected found => s!"`{name}` takes {expected} argument(s), found {found}"
  | evaluation fault => "evaluation failed: " ++ fault.message

end ShopLens.Filter
