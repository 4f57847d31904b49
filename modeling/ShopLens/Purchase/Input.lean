/-!
# ShopLens.Purchase.Input

Moving the cursor and pressing keys in the game. What injects the input may fail at any call;
`InputDriver.recorded` keeps a list of the calls that were made.
-/

namespace ShopLens

/-- Input that could not be injected. -/
structure InputError where
  reason : String
deriving DecidableEq, Repr

/-- The wording of an input error. -/
def InputError.message (e : InputError) : String := "input injection failed: " ++ e.reason

/-- The control keys. -/
inductive ControlKey where
  | left
  | right
deriving DecidableEq, Repr

/-- Input to the game. -/
inductive InputAction where
  | move (x y : Float32)
  | keyDown (key : ControlKey)
  | keyUp (key : ControlKey)
  | click
deriving DecidableEq

/-- A call of an input driver. -/
inductive InputCall where
  | act (action : InputAction)
  /-- To wait some milliseconds, so that the game sees what was done. -/
  | settle (milliseconds : Nat)
deriving DecidableEq

/-- What injects input, with a state of its own. -/
structure InputDriver (σ : Type) where
  act : σ → InputAction → σ × Except InputError Unit
  settle : σ → Nat → σ

namespace InputDriver

variable {σ : Type}

/-- Makes one call. -/
def call (d : InputDriver σ) (s : σ) : InputCall → σ × Except InputError Unit
  | .act action => d.act s action
  | .settle milliseconds => (d.settle s milliseconds, .ok ())

/-- Makes calls up to the first one that fails. -/
def callAll (d : InputDriver σ) (s : σ) : List InputCall → σ × Except InputError Unit
  | [] => (s, .ok ())
  | c :: cs =>
    match d.call s c with
    | (s, .ok ()) => d.callAll s cs
    | (s, .error e) => (s, .error e)

/-- The same driver, with a list of the calls that were made. -/
def recorded (d : InputDriver σ) : InputDriver (σ × List InputCall) where
  act := fun (s, calls) action =>
    let (s, answer) := d.act s action
    ((s, calls ++ [.act action]), answer)
  settle := fun (s, calls) milliseconds =>
    (d.settle s milliseconds, calls ++ [.settle milliseconds])

end InputDriver

end ShopLens
