import Mathlib.Data.List.Basic
import ShopLens.Proofs.Filter.Misreadings

/-!
# ShopLens.Proofs.Filter.Seams

A text can be cut at white space behind a part that has tokens of its own: no token reaches across the
seam, neither to read more nor to fail. The lexer goes on behind such a part as if it started there
(`tokensFrom_append`) and skips blanks (`tokensFrom_blanks_append`). What it makes of the other part does
not depend on where that part stands, but for the offsets: those of the tokens and that of a fault all
move together (`tokensFrom_add`). So the tokens of the whole are read off the two parts
(`tokens_append_blanks`).
-/

namespace ShopLens.Filter

open ShopLens.Text

/-! ## offsets -/

/-- The token `n` bytes further on. -/
def Placed.shift (n : Nat) (p : Placed) : Placed := ⟨p.token, n + p.pos⟩

/-- The error of a text that stands `n` bytes further on. -/
def FilterError.shift (n : Nat) : FilterError → FilterError
  | malformed pos fault => malformed (n + pos) fault
  | e => e

/-- What the lexer makes of a text, `n` bytes further on. -/
def shifted (n : Nat) : Except FilterError (List Placed) → Except FilterError (List Placed)
  | .ok ps => .ok (ps.map (Placed.shift n))
  | .error e => .error (e.shift n)

/-- The offset at which the lexer starts is part of every offset that it gives. -/
theorem tokensFrom_add (n pos : Nat) (cs : List Char) :
    tokensFrom (n + pos) cs = shifted n (tokensFrom pos cs) := by
  fun_induction tokensFrom pos cs with
  | case1 => simp [tokensFrom, shifted]
  | case2 pos c r hc ih => rw [tokensFrom_blank hc, Nat.add_assoc, ih]
  | case3 pos c r hc fault hfault =>
      rw [tokensFrom, if_neg hc, hfault]
      rfl
  | case4 pos c r hc l hl e he ih =>
      rw [he] at ih
      rw [tokensFrom, if_neg hc, hl]
      simp only [Nat.add_assoc, ih]
      rfl
  | case5 pos c r hc l hl ps hps ih =>
      rw [hps] at ih
      rw [tokensFrom, if_neg hc, hl]
      simp only [Nat.add_assoc, ih]
      rfl

/-- What the lexer makes of texts with blanks between them, the first of which has tokens. -/
theorem tokens_append_of_blanks {a w b : List Char} {ps : List Placed} (ha : tokens a = .ok ps)
    (hne : w ≠ []) (hw : ∀ c ∈ w, isBlank c = true) :
    tokens (a ++ w ++ b) = (shifted (byteLength (a ++ w)) (tokens b)).map (ps ++ ·) := by
  have hstart : startsApart (w ++ b) = true := by
    obtain ⟨c, w, rfl⟩ := List.exists_cons_of_ne_nil hne
    simp [startsApart, hw c]
  have hrest : tokensFrom (0 + byteLength a) (w ++ b) =
      shifted (byteLength (a ++ w)) (tokensFrom 0 b) := by
    rw [tokensFrom_blanks_append hw, ← tokensFrom_add, byteLength_append, Nat.zero_add, Nat.add_zero]
  rw [tokens, List.append_assoc, tokensFrom_append (lexesFrom_iff.mpr ha) hstart, hrest, tokens]

/-- **White space separates.** A text with tokens, white space and another text have tokens together
just when the other text has some: those of both, the latter ones moved by the length of what stands in
front. If the other text is at fault, it is so in the same way where it stands now. -/
theorem tokens_append_blanks {a w b : String} {ps : List Placed} (ha : tokens a.toList = .ok ps)
    (hne : w ≠ "") (hw : ∀ c ∈ w.toList, isBlank c = true) :
    ((∃ rs, tokens (a ++ w ++ b).toList = .ok rs) ↔ ∃ qs, tokens b.toList = .ok qs) ∧
      (∀ qs, tokens b.toList = .ok qs →
        tokens (a ++ w ++ b).toList =
          .ok (ps ++ qs.map (Placed.shift (a ++ w).utf8ByteSize))) ∧
      ∀ e, tokens b.toList = .error e →
        ∃ pos f, e = .malformed pos f ∧
          tokens (a ++ w ++ b).toList = .error (.malformed ((a ++ w).utf8ByteSize + pos) f) := by
  have hnil : w.toList ≠ [] := by simpa using hne
  have hwhole := tokens_append_of_blanks (b := b.toList) ha hnil hw
  rw [← String.toList_append, ← String.toList_append, byteLength_toList] at hwhole
  rw [hwhole]
  cases hb : tokens b.toList with
  | ok qs => simp [shifted, Except.map]
  | error e =>
      obtain ⟨_, _, _, f, -, -, -, rfl⟩ := misread_of_tokensFrom hb
      simp [shifted, Except.map, FilterError.shift]

/-- A name of seven bytes, four bytes of white space, and a comparison that is finished or not. -/
theorem tokens_append_blanks_of_name :
    let a := "Größe"
    let w := "\u3000\n"
    tokens a.toList = .ok [⟨.ident "Größe", 0⟩] ∧ w ≠ "" ∧ (∀ c ∈ w.toList, isBlank c = true) ∧
      tokens (a ++ w ++ "> 3").toList =
        .ok [⟨.ident "Größe", 0⟩, ⟨.sym (.cmp .gt), 11⟩, ⟨.int 3, 13⟩] ∧
      tokens (a ++ w ++ "> \"3").toList = .error (.malformed 13 .unterminatedText) := by
  intro a w
  have ha : tokens a.toList = .ok [⟨.ident "Größe", 0⟩] := by decide +kernel
  have hne : w ≠ "" := by decide
  have hw : ∀ c ∈ w.toList, isBlank c = true := List.all_eq_true.mp (by decide +kernel)
  refine ⟨ha, hne, hw, ?_, ?_⟩
  · exact (tokens_append_blanks ha hne hw).2.1 [⟨.sym (.cmp .gt), 0⟩, ⟨.int 3, 2⟩] (by decide +kernel)
  · obtain ⟨pos, f, heq, hfault⟩ := (tokens_append_blanks (b := "> \"3") ha hne hw).2.2
      (.malformed 2 .unterminatedText) (by decide +kernel)
    obtain ⟨rfl, rfl⟩ := FilterError.malformed.inj heq
    exact hfault

end ShopLens.Filter
