/-!
# ShopLens.Document

Structured data as settings files hold it, whatever format it was written in. A record is written as
a table with the names of its parts, or as a list of its parts in order.
-/

namespace ShopLens

/-- Structured data. -/
inductive Document where
  | null
  | bool (b : Bool)
  | int (n : Int)
  | float (x : Float)
  | text (s : String)
  /-- A date or a time, as it was written. It has no named parts. -/
  | date (s : String)
  | list (items : List Document)
  /-- Named parts, each name once. -/
  | table (entries : List (String × Document))
deriving Inhabited

namespace Document

/-! ## records -/

/-- Whether a document may be a record with a number of parts. A list may leave out the last parts;
whether it may also go on after them depends on the format, and `exact` forbids it. -/
def isRecord (exact : Bool) (parts : Nat) : Document → Bool
  | date _ => true
  | list items => !exact || items.length ≤ parts
  | table _ => true
  | _ => false

/-- A part of a record. -/
def part? (name : String) (place : Nat) : Document → Option Document
  | list items => items[place]?
  | table entries => entries.lookup name
  | _ => none

/-- Reads a part of a record; a part that is not there is `default`. -/
def read {α : Type} (d : Document) (name : String) (place : Nat) (default : α)
    (ofDocument? : Document → Option α) : Option α :=
  match d.part? name place with
  | some part => ofDocument? part
  | none => some default

/-! ## values -/

/-- A truth value. -/
def bool? : Document → Option Bool
  | bool b => some b
  | _ => none

/-- A text. -/
def text? : Document → Option String
  | text s => some s
  | _ => none

/-- A natural number below `bound`. -/
def nat? (bound : Nat) : Document → Option Nat
  | int n => if 0 ≤ n ∧ n.toNat < bound then some n.toNat else none
  | _ => none

/-- A number of 8 bits. -/
def uint8? (d : Document) : Option UInt8 := (d.nat? 0x100).map UInt8.ofNat

/-- A number of 32 bits. -/
def uint32? (d : Document) : Option UInt32 := (d.nat? 0x100000000).map UInt32.ofNat

/-- A number of 64 bits. -/
def uint64? (d : Document) : Option UInt64 := (d.nat? 0x10000000000000000).map UInt64.ofNat

/-- A list of things of one sort. -/
def list? {α : Type} (ofDocument? : Document → Option α) : Document → Option (List α)
  | list items => items.mapM ofDocument?
  | _ => none

end Document

end ShopLens
