import Mathlib.Algebra.Ring.Parity
import ShopLens.Proofs.Rule.Idempotence
import ShopLens.Proofs.Rule.Tokens

/-!
# ShopLens.Proofs.Rule.Literals

Where text literals end, for the reader of tokens and for the removal of comments. The reader takes a
backslash together with the character behind it, so a literal may end with an escaped backslash and then
its quote. Removing comments looks at the one character before a quote: there it finds a backslash, and
the literal goes on. From then on it takes code for literals and literals for code, up to the next
literal that ends with a backslash.

* `run_literal` — what a scan for comments makes of a literal, whether it takes the inside for a literal
  or for code;
* `stripComments_of_tokens` — a text with tokens keeps all its characters just when no literal that is
  taken for code holds the start of a comment.
-/

namespace ShopLens.Filter

/-- What a token means, if it is a text literal. -/
def Token.text? : Token → Option String
  | str s => some s
  | _ => none

end ShopLens.Filter

namespace ShopLens.Rule

open ShopLens.Text ShopLens.Filter

/-! ## the literals of a text -/

/-- A text literal: what is written between its quotes, and what that means. -/
structure Literal where
  inside : List Char
  meant : String
deriving DecidableEq

/-- Whether the last character between the quotes is a backslash. -/
def Literal.endsInBackslash (x : Literal) : Bool := x.inside.getLast? = some '\\'

/-- The literals of a text, each read from its first quote on, up to one that does not end. -/
def literals (cs : List Char) : List Literal :=
  match cs with
  | [] => []
  | c :: r =>
    if c = '"' then
      match textBody? r with
      | none => []
      | some b => ⟨b.raw.dropLast, String.ofList b.meant⟩ :: literals b.rest
    else literals r
termination_by cs.length
decreasing_by
  · have h := congrArg List.length b.append_rest
    simp only [List.length_append] at h
    simp only [List.length_cons]
    omega
  · simp

theorem literals_append_of_not_mem {w : List Char} (h : '"' ∉ w) (r : List Char) :
    literals (w ++ r) = literals r := by
  induction w with
  | nil => rfl
  | cons c w ih =>
      simp only [List.mem_cons, not_or] at h
      rw [List.cons_append, literals, if_neg (Ne.symm h.1), ih h.2]

theorem literals_append_of_body {inside meant : List Char} (h : Body (inside ++ ['"']) meant)
    (r : List Char) : literals ('"' :: (inside ++ ['"']) ++ r) =
      ⟨inside, String.ofList meant⟩ :: literals r := by
  obtain ⟨b, hb, rfl, hraw, hrest⟩ := textBody?_of_body h r
  rw [List.cons_append, literals, if_pos rfl, hb]
  simp only [hraw, hrest, List.dropLast_concat]

/-- The characters of a token other than a literal are passed over by a scan. -/
theorem isInert_of_lexeme {t : Token} {w : List Char} (h : Lexeme t w) (ht : t.text? = none) :
    ∀ c ∈ w, isInert c = true := by
  have hdigit : ∀ c : Char, c.isDigit = true → isInert c = true := fun c =>
    isInert_of (List.all_iff_forall_prop.mp (by decide))
  cases h with
  | sym s =>
      rcases s with _ | _ | _ | _ | _ | _ | _ | (_ | _ | _ | _ | _ | _) <;>
        exact List.all_iff_forall_prop.mp (by decide)
  | int _ hd _ => exact fun c hc => hdigit c (hd c hc)
  | float _ _ hwd hpd =>
      intro c hc
      rcases List.mem_append.mp hc with hc | hc
      · exact hdigit c (hwd c hc)
      · rcases List.mem_cons.mp hc with rfl | hc
        · decide
        · exact hdigit c (hpd c hc)
  | str => exact absurd ht (Option.some_ne_none _)
  | ident hname =>
      have hpart : ∀ c : Char, isNamePart c = true → isInert c = true := fun c =>
        isInert_of (List.all_iff_forall_prop.mp (by decide +kernel))
      exact fun c hc => hpart c (isNamePart_of_isName hname c hc)

/-! ## the inside of a literal -/

/-- Every quote has a backslash before it; `m` is the mark of the character before the text. -/
def QuotesEscaped (m : Mark) : List Char → Prop
  | [] => True
  | c :: r => (c = '"' → m = .backslash) ∧ QuotesEscaped (.of c) r

/-- Between the quotes of a literal every quote has a backslash before it. -/
theorem exists_inside {raw meant : List Char} (h : Body raw meant) :
    ∃ inside, raw = inside ++ ['"'] ∧ ∀ m, QuotesEscaped m inside := by
  induction h with
  | close => exact ⟨[], rfl, fun m => trivial⟩
  | escape e _ ih =>
      obtain ⟨inside, rfl, hinside⟩ := ih
      exact ⟨'\\' :: e :: inside, rfl, fun m => ⟨fun hq => absurd hq (by decide), fun _ => rfl, hinside _⟩⟩
  | @char c raw meant hq hb _ ih =>
      obtain ⟨inside, rfl, hinside⟩ := ih
      exact ⟨c :: inside, rfl, fun m => ⟨fun hc => absurd hc hq, hinside _⟩⟩

/-- Whether a comment starts among some characters, if they are code. -/
def StartsComment (w : List Char) : Prop := ['/', '/'] <:+: w ∨ ['/', '*'] <:+: w

instance (w : List Char) : Decidable (StartsComment w) := inferInstanceAs (Decidable (_ ∨ _))

theorem startsComment_cons_iff (c : Char) (r : List Char) : StartsComment (c :: r) ↔
    (c = '/' ∧ (r.head? = some '/' ∨ r.head? = some '*')) ∨ StartsComment r := by
  have hfront (d : Char) : ['/', d] <+: c :: r ↔ c = '/' ∧ r.head? = some d := by
    cases r <;> simp [List.cons_prefix_cons, eq_comm]
  rw [StartsComment, StartsComment, List.infix_cons_iff, List.infix_cons_iff, hfront, hfront]
  tauto

/-- A scan of characters whose quotes are escaped stays within a literal or out of it, and stops only
where a comment starts in code. -/
theorem run_of_quotesEscaped (literal : Bool) {m : Mark} {w : List Char} (h : QuotesEscaped m w) :
    Scan.run ⟨literal, m⟩ w =
      if literal = false ∧ (Scan.Opens ⟨literal, m⟩ w ∨ StartsComment w) then none
      else some ⟨literal, (w.getLast?.map Mark.of).getD m⟩ := by
  induction w generalizing m with
  | nil => simp [Scan.Opens, StartsComment]
  | cons c r ih =>
      by_cases hopens : Scan.Opens ⟨literal, m⟩ [c]
      · have hstep : Scan.step ⟨literal, m⟩ c = none := if_pos hopens
        rw [Scan.run_cons, hstep, if_pos ⟨hopens.1, .inl hopens⟩]
        rfl
      · have hstep : Scan.step ⟨literal, m⟩ c = some ⟨literal, .of c⟩ := by
          rw [Scan.step, if_neg hopens, if_neg fun hquote => hquote.2 (h.1 hquote.1)]
        rw [Scan.run_cons, hstep, Option.bind_some, ih h.2]
        refine if_congr (and_congr_right fun hcode => ?_) rfl ?_
        · rw [Scan.opens_iff_of_step hstep, startsComment_cons_iff, Scan.opens_cons_iff,
            Scan.region_eq_code_iff]
          tauto
        · rw [List.getLast?_cons]
          cases r.getLast? <;> rfl

theorem Mark.of_eq_backslash_iff {c : Char} : Mark.of c = .backslash ↔ c = '\\' := by
  unfold Mark.of
  split
  · simpa
  · split <;> simpa

/-- **A scan of a literal.** It stops if it takes the inside for code and a comment starts there;
otherwise it goes on as before the literal, unless a backslash stands before the last quote. -/
theorem run_literal (swapped : Bool) {x : Literal} (h : ∀ m, QuotesEscaped m x.inside) :
    Scan.run ⟨swapped, .other⟩ ('"' :: (x.inside ++ ['"'])) =
      if swapped = true ∧ StartsComment x.inside then none
      else some ⟨swapped ^^ x.endsInBackslash, .other⟩ := by
  have hfirst : Scan.step ⟨swapped, .other⟩ '"' = some ⟨!swapped, .other⟩ := by
    cases swapped <;> rfl
  have hlast (m : Mark) : Scan.run ⟨!swapped, m⟩ ['"'] =
      some ⟨swapped ^^ decide (m = .backslash), .other⟩ := by
    cases swapped <;> cases m <;> rfl
  have hmark : decide ((x.inside.getLast?.map Mark.of).getD .other = .backslash) =
      x.endsInBackslash := by
    rw [Literal.endsInBackslash]
    cases x.inside.getLast? <;> simp [Mark.of_eq_backslash_iff]
  have hopens : ¬Scan.Opens ⟨!swapped, .other⟩ x.inside := fun hslash => Mark.noConfusion hslash.2.1
  rw [Scan.run_cons, hfirst, Option.bind_some, Scan.run_append, run_of_quotesEscaped _ (h _)]
  by_cases hcomment : swapped = true ∧ StartsComment x.inside
  · rw [if_pos hcomment, if_pos ⟨by simp [hcomment.1], .inr hcomment.2⟩]
    rfl
  · rw [if_neg hcomment, if_neg, Option.bind_some, hlast, hmark]
    rintro ⟨hswapped, hcomment'⟩
    exact hcomment ⟨by simpa using hswapped, hcomment'.resolve_left hopens⟩

/-! ## texts with tokens -/

/-- No literal that is taken for code starts a comment. The first one is taken for code if code and
literals are `swapped`, and they are swapped behind every literal that ends in a backslash. -/
def NoCommentStarts : (swapped : Bool) → List Literal → Prop
  | _, [] => True
  | swapped, x :: ls =>
    (swapped = true → ¬StartsComment x.inside) ∧ NoCommentStarts (swapped ^^ x.endsInBackslash) ls

theorem noCommentStarts_iff (swapped : Bool) (ls : List Literal) : NoCommentStarts swapped ls ↔
    ∀ before x after, ls = before ++ x :: after →
      Odd (swapped.toNat + before.countP Literal.endsInBackslash) → ¬StartsComment x.inside := by
  induction ls generalizing swapped with
  | nil => simp [NoCommentStarts]
  | cons x ls ih =>
      have hcount (before : List Literal) :
          Odd ((swapped ^^ x.endsInBackslash).toNat + before.countP Literal.endsInBackslash) ↔
            Odd (swapped.toNat + (x :: before).countP Literal.endsInBackslash) := by
        rw [List.countP_cons]
        cases swapped <;> cases x.endsInBackslash <;> simp [Nat.odd_iff] <;> omega
      rw [NoCommentStarts, ih]
      constructor
      · rintro ⟨hfirst, hrest⟩ before y after hls hodd
        cases before with
        | nil =>
            obtain ⟨rfl, -⟩ := List.cons.inj hls
            exact hfirst (by cases swapped <;> simp at hodd ⊢)
        | cons y' before =>
            obtain ⟨rfl, htail⟩ := List.cons.inj hls
            exact hrest before y after htail ((hcount before).mpr hodd)
      · intro h
        refine ⟨fun hswapped => h [] x ls rfl (by simp [hswapped]), fun before y after hls hodd => ?_⟩
        exact h (x :: before) y after (congrArg (x :: ·) hls) ((hcount before).mp hodd)

/-- The text is made of these literals and of characters around them that a scan passes over. -/
inductive HasLiterals : List Char → List Literal → Prop where
  | nil : HasLiterals [] []
  | pass {w r : List Char} {ls : List Literal} (hne : w ≠ []) (hw : ∀ c ∈ w, isInert c = true)
      (h : HasLiterals r ls) : HasLiterals (w ++ r) ls
  | literal {inside meant r : List Char} {ls : List Literal} (hbody : Body (inside ++ ['"']) meant)
      (hinside : ∀ m, QuotesEscaped m inside) (h : HasLiterals r ls) :
      HasLiterals ('"' :: (inside ++ ['"']) ++ r) (⟨inside, String.ofList meant⟩ :: ls)

theorem literals_of_hasLiterals {cs : List Char} {ls : List Literal} (h : HasLiterals cs ls) :
    literals cs = ls := by
  induction h with
  | nil => simp [literals]
  | pass _ hw _ ih =>
      rw [literals_append_of_not_mem fun hquote => absurd (hw '"' hquote) (by decide), ih]
  | literal hbody _ _ ih => rw [literals_append_of_body hbody, ih]

/-- The tokens of a text cut it into its literals and what is around them. -/
theorem hasLiterals_of_lexesFrom {pos : Nat} {cs : List Char} {ps : List Placed}
    (h : LexesFrom pos cs ps) :
    ∃ ls, HasLiterals cs ls ∧ ls.map Literal.meant = (bare ps).filterMap Token.text? := by
  induction h with
  | nil => exact ⟨[], .nil, rfl⟩
  | @blank pos c r ps hc _ ih =>
      obtain ⟨ls, hls, hmeant⟩ := ih
      have hblank : ∀ d ∈ [c], isInert d = true := by simpa using isInert_of_isBlank hc
      exact ⟨ls, .pass (by simp) hblank hls, hmeant⟩
  | @token pos t w r ps hw _ _ ih =>
      obtain ⟨ls, hls, hmeant⟩ := ih
      cases htext : t.text? with
      | none =>
          refine ⟨ls, .pass hw.ne_nil (isInert_of_lexeme hw htext) hls, ?_⟩
          rw [bare_cons, List.filterMap_cons_none htext, hmeant]
      | some m =>
          cases hw with
          | str hbody =>
              obtain ⟨inside, rfl, hinside⟩ := exists_inside hbody
              refine ⟨_, .literal hbody hinside hls, ?_⟩
              rw [bare_cons, List.filterMap_cons_some htext, List.map_cons, hmeant]
              rw [← Option.some.inj htext]
          | _ => contradiction

/-- A scan of a text reads all of it just when no literal that it takes for code starts a comment. -/
theorem isSome_run_iff {cs : List Char} {ls : List Literal} (h : HasLiterals cs ls)
    (swapped : Bool) : (Scan.run ⟨swapped, .other⟩ cs).isSome = true ↔ NoCommentStarts swapped ls := by
  induction h generalizing swapped with
  | nil => simp [NoCommentStarts]
  | pass hne hw _ ih =>
      rw [Scan.run_append, Scan.run_of_isInert _ hne hw, Option.bind_some]
      exact ih swapped
  | @literal inside meant r ls _ hinside _ ih =>
      have hrun := @run_literal swapped ⟨inside, String.ofList meant⟩ hinside
      rw [Scan.run_append, hrun, NoCommentStarts]
      by_cases hcomment : swapped = true ∧ StartsComment inside
      · simp [hcomment]
      · rw [if_neg hcomment, Option.bind_some]
        exact (ih _).trans (and_iff_right (not_and.mp hcomment)).symm

/-- **Removing comments from a text with tokens** leaves it as it is just when no literal that has an odd
number of literals ending in a backslash before it starts a comment between its quotes. -/
theorem stripComments_of_tokens {cs : List Char} {ps : List Placed} (h : tokens cs = .ok ps) :
    (literals cs).map Literal.meant = (bare ps).filterMap Token.text? ∧
      (stripComments cs = cs ↔ ∀ before x after, literals cs = before ++ x :: after →
        Odd (before.countP Literal.endsInBackslash) → ¬StartsComment x.inside) := by
  obtain ⟨ls, hls, hmeant⟩ := hasLiterals_of_lexesFrom (lexesFrom_iff.mpr h)
  rw [literals_of_hasLiterals hls]
  refine ⟨hmeant, ?_⟩
  rw [stripComments_eq_self_iff]
  refine (isSome_run_iff hls false).trans ?_
  simpa using noCommentStarts_iff false ls

/-- Two literals that end in a backslash: what removing comments takes for code starts behind the first
one and ends with the second one. -/
theorem stripComments_of_two_backslashes :
    let text := "\"\\\\\" != \"\\\\\" || Name == \"//\"".toList
    (∃ ps, tokens text = .ok ps) ∧ stripComments text = text := by
  intro text
  have htokens : tokens text = .ok [⟨.str "\\", 0⟩, ⟨.sym (.cmp .ne), 5⟩, ⟨.str "\\", 8⟩,
      ⟨.sym .or, 13⟩, ⟨.ident "Name", 16⟩, ⟨.sym (.cmp .eq), 21⟩, ⟨.str "//", 24⟩] := by
    decide +kernel
  have hliterals : literals text = [⟨['\\', '\\'], "\\"⟩, ⟨['\\', '\\'], "\\"⟩, ⟨['/', '/'], "//"⟩] := by
    decide +kernel
  refine ⟨⟨_, htokens⟩, (stripComments_of_tokens htokens).2.mpr fun before x after hls hodd => ?_⟩
  rw [hliterals] at hls
  rcases before with _ | ⟨y, _ | ⟨y', _ | ⟨y'', before⟩⟩⟩
  · exact absurd hodd (by decide)
  · obtain ⟨rfl, -⟩ := List.cons.inj (List.cons.inj hls).2
    decide
  · obtain ⟨rfl, htail⟩ := List.cons.inj hls
    obtain ⟨rfl, -⟩ := List.cons.inj htail
    exact absurd hodd (by decide)
  · simp at hls

/-- A literal that is a backslash, and one that holds two slashes, which are removed. -/
theorem stripComments_of_backslash :
    let text := "Name == \"\\\\\" || Path == \"//\"".toList
    (∃ ps, tokens text = .ok ps) ∧ stripComments text = "Name == \"\\\\\" || Path == \"".toList ∧
      stripComments text ≠ text := by
  intro text
  have htokens : tokens text = .ok [⟨.ident "Name", 0⟩, ⟨.sym (.cmp .eq), 5⟩, ⟨.str "\\", 8⟩,
      ⟨.sym .or, 13⟩, ⟨.ident "Path", 16⟩, ⟨.sym (.cmp .eq), 21⟩, ⟨.str "//", 24⟩] := by
    decide +kernel
  have hstrip : stripComments text = "Name == \"\\\\\" || Path == \"".toList := by decide
  refine ⟨⟨_, htokens⟩, hstrip, ?_⟩
  rw [hstrip]
  decide

end ShopLens.Rule
