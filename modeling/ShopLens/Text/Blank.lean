/-!
# ShopLens.Text.Blank

White space is the Unicode property White_Space, 25 characters. Trimming removes it at both ends.

* `isBlank_iff`: a character is blank iff it is one of the 25;
* `trim_surrounded`: trimming removes the blanks around a text, and nothing of the text.
-/

namespace ShopLens.Text

/-- The characters with the property White_Space. -/
def blanks : List Char :=
  [' ', '\n', '\r', '\t', '\x0b', '\x0c', '\x85', '\u00a0', '\u1680', '\u2000', '\u2001', '\u2002',
   '\u2003', '\u2004', '\u2005', '\u2006', '\u2007', '\u2008', '\u2009', '\u200a', '\u2028',
   '\u2029', '\u202f', '\u205f', '\u3000']

/-- Whether a character is white space. -/
def isBlank (c : Char) : Bool := blanks.contains c

theorem isBlank_iff {c : Char} : isBlank c = true ↔ c ∈ blanks := by
  simp [isBlank]

/-- Removes white space at the start. -/
def trimStart (cs : List Char) : List Char := cs.dropWhile isBlank

/-- Removes white space at the end. -/
def trimEnd (cs : List Char) : List Char := (cs.reverse.dropWhile isBlank).reverse

/-- Removes white space at both ends. -/
def trim (cs : List Char) : List Char := trimEnd (trimStart cs)

/-- Removes white space at both ends of a string. -/
def trimmed (s : String) : String := String.ofList (trim s.toList)

@[simp] theorem trimStart_nil : trimStart [] = [] := rfl

theorem trimStart_cons_of_not_blank {c : Char} {cs : List Char} (h : isBlank c = false) :
    trimStart (c :: cs) = c :: cs := by
  simp [trimStart, h]

theorem trimEnd_concat_of_not_blank {c : Char} {cs : List Char} (h : isBlank c = false) :
    trimEnd (cs ++ [c]) = cs ++ [c] := by
  simp [trimEnd, h]

theorem trimStart_eq_self {cs : List Char} (h : ∀ c ∈ cs.head?, isBlank c = false) :
    trimStart cs = cs := by
  cases cs with
  | nil => rfl
  | cons c r => exact trimStart_cons_of_not_blank (h c rfl)

theorem trimEnd_eq_self {cs : List Char} (h : ∀ c ∈ cs.getLast?, isBlank c = false) :
    trimEnd cs = cs := by
  rcases List.eq_nil_or_concat cs with rfl | ⟨l, c, rfl⟩
  · rfl
  · rw [List.concat_eq_append] at *
    exact trimEnd_concat_of_not_blank (h c (by simp))

/-- Trimming removes the blanks around a text that neither starts nor ends with a blank. -/
theorem trim_surrounded {before cs after : List Char} (hbefore : ∀ c ∈ before, isBlank c = true)
    (hafter : ∀ c ∈ after, isBlank c = true) (hstart : ∀ c ∈ cs.head?, isBlank c = false)
    (hend : ∀ c ∈ cs.getLast?, isBlank c = false) : trim (before ++ (cs ++ after)) = cs := by
  have hreverse : ∀ c ∈ after.reverse, isBlank c = true := by simpa using hafter
  have hdropped : trimStart (before ++ (cs ++ after)) = trimStart (cs ++ after) :=
    List.dropWhile_append_of_pos hbefore
  have hcut : trimEnd (cs ++ after) = trimEnd cs := by
    simp only [trimEnd, List.reverse_append, List.dropWhile_append_of_pos hreverse]
  rw [trim, hdropped]
  cases cs with
  | nil =>
      have hblank : (after ++ []).dropWhile isBlank = [].dropWhile isBlank :=
        List.dropWhile_append_of_pos hafter
      rw [List.append_nil] at hblank
      rw [List.nil_append, trimStart, hblank]
      rfl
  | cons c r => rw [trimStart_eq_self (by simpa using hstart), hcut, trimEnd_eq_self hend]

end ShopLens.Text
