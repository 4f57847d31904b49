import ShopLens.Filter.Error
import ShopLens.Filter.Expr

/-!
# ShopLens.Filter.Parser

From the tokens of an expression to its tree, by this grammar:

* a disjunction is one or more conjunctions with `||` between them,
* a conjunction is one or more negations with `&&` between them,
* a negation is `!` before a negation, or a comparison,
* a comparison is one operand, or two with a comparison operator between them,
* an operand is an atom and then any number of methods, each a dot, a name and arguments,
* an atom is a constant, a field, a function with arguments, or a disjunction in parentheses.

Chains of `||`, `&&` and methods lean to the left. Each link of a chain, each `!` and each pair of
parentheses counts one level, and more than `maxNesting` levels are refused; the arguments of a
function stand on the level of the function.

Every level of the grammar is a function of the parser for what stands in parentheses and between
commas. `exprWithin` ties the knot with a budget of disjunctions that may be open at one time. A budget
greater than the number of tokens is enough (`ShopLens.Proofs.Filter.Budget`), and `parseTokens` gives
that much.
-/

namespace ShopLens.Filter

/-- The greatest number of levels of an expression. -/
def maxNesting : Nat := 256

/-- Why parsing ends early. -/
inductive Halt where
  | exhausted
  | refused (e : FilterError)
deriving DecidableEq

/-- What was read, with fewer than `bound` tokens left. -/
structure Parsed (α : Type) (bound : Nat) where
  value : α
  rest : List Placed
  length_rest_lt : rest.length < bound

/-- The same with a greater bound. -/
def Parsed.widen {α : Type} {m n : Nat} (p : Parsed α m) (h : m ≤ n) : Parsed α n :=
  ⟨p.value, p.rest, Nat.lt_of_lt_of_le p.length_rest_lt h⟩

/-- A parser reads at least one token; `depth` levels are open where it starts. -/
abbrev Parser (α : Type) : Type :=
  (depth : Nat) → (ts : List Placed) → Except Halt (Parsed α ts.length)

/-- A refusal for a fault at some offset. -/
def fault {α : Type} (pos : Nat) (f : SyntaxFault) : Except Halt α :=
  .error (.refused (.malformed pos f))

/-- The offset of the next token, or of the end of the text. -/
def offset (stop : Nat) : List Placed → Nat
  | [] => stop
  | t :: _ => t.pos

section Grammar

variable (inner : Parser Expr) (stop : Nat)

/-! ## arguments -/

/-- Reads one or more arguments and the parenthesis that closes them. -/
def argumentsFrom (depth : Nat) (ts : List Placed) : Except Halt (Parsed (List Expr) ts.length) :=
  match inner depth ts with
  | .error h => .error h
  | .ok p =>
    match hr : p.rest with
    | ⟨.sym .rparen, _⟩ :: r =>
      .ok ⟨[p.value], r, by have := p.length_rest_lt; grind⟩
    | ⟨.sym .comma, _⟩ :: r =>
      match argumentsFrom depth r with
      | .error h => .error h
      | .ok q =>
        .ok ⟨p.value :: q.value, q.rest, by
          have := p.length_rest_lt; have := q.length_rest_lt; grind⟩
    | r => fault (offset stop r) .expectedCommaOrClose
termination_by ts.length
decreasing_by have := p.length_rest_lt; grind

/-- Reads arguments, possibly none, and the parenthesis that closes them. -/
def arguments (depth : Nat) (ts : List Placed) : Except Halt (Parsed (List Expr) ts.length) :=
  match ts with
  | ⟨.sym .rparen, _⟩ :: r => .ok ⟨[], r, by simp⟩
  | ts => argumentsFrom inner stop depth ts

/-! ## operands -/

/-- Reads what follows a name: a constant stands alone, the arguments of a function follow in
parentheses, and any other name is a field. -/
def named (depth : Nat) (name : String) (ts : List Placed) :
    Except Halt (Parsed Expr (ts.length + 1)) :=
  match keyword? name with
  | some v => .ok ⟨.literal v, ts, by simp⟩
  | none =>
    match ts with
    | ⟨.sym .lparen, _⟩ :: r =>
      match function? name with
      | none => .error (.refused (.unknownFunction name))
      | some kind =>
        match arguments inner stop depth r with
        | .error h => .error h
        | .ok p =>
          if p.value.isEmpty then
            .ok ⟨.openCount kind, p.rest, by have := p.length_rest_lt; simp; omega⟩
          else .error (.refused (.arity name 0 p.value.length))
    | ts => .ok ⟨.field name, ts, by simp⟩

/-- Reads a disjunction and the parenthesis that closes it; the one that opens it is at `pos`. -/
def enclosed (pos depth : Nat) (ts : List Placed) : Except Halt (Parsed Expr ts.length) :=
  if depth < maxNesting then
    match inner (depth + 1) ts with
    | .error h => .error h
    | .ok p =>
      match hr : p.rest with
      | ⟨.sym .rparen, _⟩ :: r => .ok ⟨p.value, r, by have := p.length_rest_lt; grind⟩
      | r => fault (offset stop r) .expectedClose
  else fault pos .tooDeep

/-- Reads an atom. -/
def atom (depth : Nat) (ts : List Placed) : Except Halt (Parsed Expr ts.length) :=
  match ts with
  | [] => fault stop .unexpectedEnd
  | ⟨.int n, _⟩ :: r => .ok ⟨.literal (.int n), r, by simp⟩
  | ⟨.float x, _⟩ :: r => .ok ⟨.literal (.float x), r, by simp⟩
  | ⟨.str s, _⟩ :: r => .ok ⟨.literal (.str s), r, by simp⟩
  | ⟨.ident name, _⟩ :: r => named inner stop depth name r
  | ⟨.sym .lparen, pos⟩ :: r =>
    match enclosed inner stop pos depth r with
    | .error h => .error h
    | .ok p => .ok (p.widen (by simp))
  | ⟨.sym s, pos⟩ :: _ => fault pos (.unexpectedSymbol s)

/-- Reads a method and its arguments, of which the dot has been read. -/
def method (depth : Nat) (target : Expr) (ts : List Placed) :
    Except Halt (Parsed Expr ts.length) :=
  match ts with
  | ⟨.ident name, _⟩ :: r =>
    match Method.ofName? name with
    | none => .error (.refused (.unknownMethod name))
    | some m =>
      match r with
      | ⟨.sym .lparen, _⟩ :: r =>
        match arguments inner stop depth r with
        | .error h => .error h
        | .ok p =>
          match m.call? target p.value with
          | some e => .ok ⟨e, p.rest, by have := p.length_rest_lt; simp; omega⟩
          | none => .error (.refused (.arity name m.arity p.value.length))
      | r => fault (offset stop r) .expectedArguments
  | ts => fault (offset stop ts) .expectedMethod

/-- Reads the methods asked of a target. -/
def methodsFrom (depth : Nat) (target : Expr) (ts : List Placed) :
    Except Halt (Parsed Expr (ts.length + 1)) :=
  match ts with
  | ⟨.sym .dot, _⟩ :: r =>
    if depth < maxNesting then
      match method inner stop (depth + 1) target r with
      | .error h => .error h
      | .ok p =>
        match methodsFrom (depth + 1) p.value p.rest with
        | .error h => .error h
        | .ok q => .ok (q.widen (by have := p.length_rest_lt; simp; omega))
    else fault (offset stop r) .tooDeep
  | ts => .ok ⟨target, ts, by simp⟩
termination_by ts.length
decreasing_by have := p.length_rest_lt; simp; omega

/-- Reads an atom and the methods asked of it. -/
def operand (depth : Nat) (ts : List Placed) : Except Halt (Parsed Expr ts.length) :=
  match atom inner stop depth ts with
  | .error h => .error h
  | .ok p =>
    match methodsFrom inner stop depth p.value p.rest with
    | .error h => .error h
    | .ok q => .ok (q.widen (by have := p.length_rest_lt; omega))

/-! ## operators -/

/-- Reads a comparison. -/
def comparison (depth : Nat) (ts : List Placed) : Except Halt (Parsed Expr ts.length) :=
  match operand inner stop depth ts with
  | .error h => .error h
  | .ok p =>
    match hr : p.rest with
    | ⟨.sym (.cmp op), _⟩ :: r =>
      match operand inner stop depth r with
      | .error h => .error h
      | .ok q =>
        .ok ⟨.compare op p.value q.value, q.rest, by
          have := p.length_rest_lt; have := q.length_rest_lt; grind⟩
    | _ => .ok p

/-- Reads a negation. -/
def negation (depth : Nat) (ts : List Placed) : Except Halt (Parsed Expr ts.length) :=
  match ts with
  | ⟨.sym .not, pos⟩ :: r =>
    if depth < maxNesting then
      match negation (depth + 1) r with
      | .error h => .error h
      | .ok p => .ok ⟨.not p.value, p.rest, by have := p.length_rest_lt; simp; omega⟩
    else fault pos .tooDeep
  | ts => comparison inner stop depth ts

/-- Reads the links of a chain after its first operand. -/
def linksFrom (op : Symbol) (join : Expr → Expr → Expr) (link : Parser Expr) (depth : Nat)
    (left : Expr) (ts : List Placed) : Except Halt (Parsed Expr (ts.length + 1)) :=
  match ts with
  | [] => .ok ⟨left, [], by simp⟩
  | t :: r =>
    if t.token = .sym op then
      if depth < maxNesting then
        match link (depth + 1) r with
        | .error h => .error h
        | .ok p =>
          match linksFrom op join link (depth + 1) (join left p.value) p.rest with
          | .error h => .error h
          | .ok q => .ok (q.widen (by have := p.length_rest_lt; simp; omega))
      else fault (offset stop r) .tooDeep
    else .ok ⟨left, t :: r, by simp⟩
termination_by ts.length
decreasing_by have := p.length_rest_lt; simp; omega

/-- Reads a chain: operands with an operator between them. -/
def chain (op : Symbol) (join : Expr → Expr → Expr) (link : Parser Expr) : Parser Expr :=
  fun depth ts =>
    match link depth ts with
    | .error h => .error h
    | .ok p =>
      match linksFrom stop op join link depth p.value p.rest with
      | .error h => .error h
      | .ok q => .ok (q.widen (by have := p.length_rest_lt; omega))

/-- Reads a conjunction. -/
def conjunction : Parser Expr := chain stop .and .and (negation inner stop)

/-- Reads a disjunction. -/
def disjunction : Parser Expr := chain stop .or .or (conjunction inner stop)

end Grammar

/-! ## whole texts -/

/-- Reads an expression with at most `budget` disjunctions open at one time. -/
def exprWithin (stop : Nat) : (budget : Nat) → Parser Expr
  | 0 => fun _ _ => .error .exhausted
  | budget + 1 => disjunction (exprWithin stop budget) stop

/-- Takes all tokens to have been read. -/
def complete {bound : Nat} (stop : Nat) : Except Halt (Parsed Expr bound) → Except Halt Expr
  | .error h => .error h
  | .ok p => if p.rest.isEmpty then .ok p.value else fault (offset stop p.rest) .trailing

/-- The error that an early end stands for. That the budget runs out does not happen with the one
that `parseTokens` gives. -/
def Halt.error (stop : Nat) : Halt → FilterError
  | exhausted => .malformed stop .tooDeep
  | refused e => e

/-- The expression that the tokens of a text make up; the text ends at the offset `stop`. -/
def parseTokens (stop : Nat) (ts : List Placed) : Except FilterError Expr :=
  if ts.isEmpty then .error .empty
  else (complete stop (exprWithin stop (ts.length + 1) 0 ts)).mapError (Halt.error stop)

end ShopLens.Filter
