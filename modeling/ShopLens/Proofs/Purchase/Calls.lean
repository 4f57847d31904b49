import ShopLens.Proofs.Purchase.Attempts

/-!
# ShopLens.Proofs.Purchase.Calls

The calls that an attempt to buy makes, with any input driver. An attempt that is idle makes none. Any
other moves the cursor, holds the left control key and clicks, up to the first call that fails; then it
lets go of both control keys, whatever failed, and ends with the first failure (`Planner.purchase_calls`).

A log of calls and answers is tied to a driver by `InputDriver.Answers`, and to the calls that were
planned by `CutAtFailure`.
-/

namespace ShopLens

/-! ## logs -/

/-- A call of an input driver, and the answer to it. -/
structure Reply where
  call : InputCall
  answer : Except InputError Unit

/-- The error of a call that failed. -/
def Reply.error? (r : Reply) : Option InputError :=
  match r.answer with
  | .ok () => none
  | .error e => some e

/-- The result of all calls in a log: the first failure, if there is one. -/
def resultOf (log : List Reply) : Except InputError Unit :=
  (log.findSome? Reply.error?).elim (.ok ()) .error

theorem resultOf_cons (r : Reply) (log : List Reply) :
    resultOf (r :: log) = firstFailure r.answer (resultOf log) := by
  obtain ⟨c, answer⟩ := r
  cases answer <;> rfl

theorem resultOf_append (log more : List Reply) :
    resultOf (log ++ more) = firstFailure (resultOf log) (resultOf more) := by
  induction log with
  | nil => rfl
  | cons r log ih =>
      rw [List.cons_append, resultOf_cons, resultOf_cons, ih]
      cases r.answer <;> rfl

/-- Calls as they were made: in their order, up to the first one that failed. -/
inductive CutAtFailure : List InputCall → List Reply → Prop
  | done : CutAtFailure [] []
  | fails (c : InputCall) (cs : List InputCall) (e : InputError) :
      CutAtFailure (c :: cs) [⟨c, .error e⟩]
  | next (c : InputCall) {cs : List InputCall} {log : List Reply} (h : CutAtFailure cs log) :
      CutAtFailure (c :: cs) (⟨c, .ok ()⟩ :: log)

namespace InputDriver

variable {σ : Type} {d : InputDriver σ}

/-- From one state to another a driver is called and answers as in a log. -/
inductive Answers (d : InputDriver σ) : σ → List Reply → σ → Prop
  | nil (s : σ) : d.Answers s [] s
  | cons {s t u : σ} {c : InputCall} {answer : Except InputError Unit} {log : List Reply}
      (h : d.call s c = (t, answer)) (tail : d.Answers t log u) :
      d.Answers s (⟨c, answer⟩ :: log) u

theorem Answers.append {s t u : σ} {log more : List Reply} (h : d.Answers s log t)
    (h' : d.Answers t more u) : d.Answers s (log ++ more) u := by
  induction h with
  | nil s => exact h'
  | cons hcall _ ih => exact .cons hcall (ih h')

/-! ## what is recorded -/

theorem mirrors_recorded (d : InputDriver σ) : d.recorded.Mirrors Prod.fst d :=
  ⟨fun _ _ => rfl, fun _ _ => rfl⟩

theorem recorded_call (d : InputDriver σ) (s : σ × List InputCall) (c : InputCall) :
    d.recorded.call s c = (((d.call s.1 c).1, s.2 ++ [c]), (d.call s.1 c).2) := by
  cases c <;> rfl

/-- What a driver records are the calls that the driver in it answered. -/
theorem Answers.of_recorded {s t : σ × List InputCall} {log : List Reply}
    (h : d.recorded.Answers s log t) :
    d.Answers s.1 log t.1 ∧ t.2 = s.2 ++ log.map Reply.call := by
  induction h with
  | nil s => exact ⟨.nil s.1, by simp⟩
  | cons hcall _ ih =>
      rw [recorded_call] at hcall
      cases hcall
      obtain ⟨hanswers, hcalls⟩ := ih
      exact ⟨.cons (Prod.eta _).symm hanswers, by rw [hcalls, List.append_assoc]; rfl⟩

/-! ## one click -/

/-- Calls that stop at a failure are logged up to it. -/
theorem exists_log_callAll (d : InputDriver σ) (s : σ) (calls : List InputCall) :
    ∃ log, CutAtFailure calls log ∧ d.Answers s log (d.callAll s calls).1 ∧
      (d.callAll s calls).2 = resultOf log := by
  induction calls generalizing s with
  | nil => exact ⟨[], .done, .nil s, rfl⟩
  | cons c calls ih =>
      rw [callAll]
      cases hcall : d.call s c with
      | mk t answer =>
          cases answer with
          | error e => exact ⟨[⟨c, .error e⟩], .fails c calls e, .cons hcall (.nil t), rfl⟩
          | ok u =>
              obtain ⟨log, hcut, hanswers, hresult⟩ := ih t
              exact ⟨⟨c, .ok ()⟩ :: log, .next c hcut, .cons hcall hanswers, hresult⟩

/-- A click with a control key held lets go of both control keys after what was done of it. -/
theorem exists_log_controlClick (d : InputDriver σ) (s : σ) (x y : Float32) :
    ∃ pressed left right, CutAtFailure (pressCalls x y) pressed ∧
      d.Answers s (pressed ++ [⟨.act (.keyUp .left), left⟩, ⟨.act (.keyUp .right), right⟩])
        (controlClick d s x y).1 ∧
      (controlClick d s x y).2 =
        resultOf (pressed ++ [⟨.act (.keyUp .left), left⟩, ⟨.act (.keyUp .right), right⟩]) := by
  obtain ⟨pressed, hcut, hanswers, hresult⟩ := d.exists_log_callAll s (pressCalls x y)
  refine ⟨pressed, _, _, hcut, hanswers.append (.cons rfl (.cons rfl (.nil _))), ?_⟩
  rw [resultOf_append, ← hresult, resultOf_cons, resultOf_cons]
  simp only [controlClick]
  cases (d.act (d.act (d.callAll s (pressCalls x y)).1 (.keyUp .left)).1 (.keyUp .right)).2 <;> rfl

end InputDriver

/-! ## one attempt -/

namespace Planner

variable {σ : Type} (p : Planner) (key : TabKey) (l : Listing) (window : Rect) (now : Nat)
  (d : InputDriver σ) (s : σ)

theorem outcome_afterAttempt (log : List Reply) :
    (p.afterAttempt key now (resultOf log)).1 =
      (log.findSome? Reply.error?).elim .purchased .failed := by
  unfold resultOf
  cases log.findSome? Reply.error? <;> rfl

/-- **The calls of an attempt.** An attempt that is not allowed, or out of reach, makes no call and changes
nothing. Any other makes the calls of a click at the place of the item up to the first that fails, and
then lets go of the left and of the right control key; it ends as a purchase if no call failed, and
otherwise with the error of the first one that did. -/
theorem purchase_calls :
    ∃ outcome p' s' log, p.purchase key l window now d s = (outcome, p', s') ∧
      p.purchase key l window now d.recorded (s, []) = (outcome, p', s', log.map Reply.call) ∧
      d.Answers s log s' ∧
      ((outcome = .disabled ∨ outcome = .limitReached ∨ outcome = .cooldown ∨
          outcome = .outOfReach) ∧ log = [] ∧ p' = p ∨
        ∃ x y pressed left right, clickTarget? l.rect window = some (x, y) ∧
          CutAtFailure [.act (.move x y), .settle 35, .act (.keyDown .left), .settle 25, .act .click,
            .settle 15] pressed ∧
          log = pressed ++ [⟨.act (.keyUp .left), left⟩, ⟨.act (.keyUp .right), right⟩] ∧
          outcome = (log.findSome? Reply.error?).elim .purchased .failed) := by
  have hplain := purchase_of_mirrors d.mirrors_recorded p key l window now (s, [])
  rcases p.purchase_cases key l window now d.recorded (s, []) with
    ⟨outcome, hidle, heq⟩ | ⟨-, -, -, x, y, hplace, heq⟩
  · rw [heq] at hplain
    exact ⟨outcome, p, s, [], hplain, heq, .nil s, .inl ⟨hidle, rfl, rfl⟩⟩
  · obtain ⟨pressed, left, right, hcut, hanswers, hresult⟩ :=
      d.recorded.exists_log_controlClick (s, []) x y
    obtain ⟨hanswers, hcalls⟩ := hanswers.of_recorded
    rw [heq] at hplain
    refine ⟨_, _, _, _, hplain, ?_, hanswers, .inr ⟨x, y, pressed, left, right, hplace, hcut, rfl, ?_⟩⟩
    · rw [heq]
      exact congrArg (fun calls => (_, _, _, calls)) hcalls
    · rw [hresult]
      exact p.outcome_afterAttempt key now _

end Planner

end ShopLens
