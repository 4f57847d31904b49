import ShopLens.Color
import ShopLens.Text.Case

/-!
# ShopLens.Proofs.Color

The format of colors, and the texts that are read as a color.

Reading follows the text from outside in. White space, a `#` and a `0x` are taken away
(`Color.body`); what is left is read two characters at a time. Two hexadecimal digits write a byte
(`Color.Write`), and a plus sign in the first place of a pair is read as a zero
(`channel?_eq_some_iff`).

* `parse_format_iff` — a text is read by its format, with a zero for each such plus sign; so reading
  accepts more than the format exactly where a plus sign is accepted;
* `parse_respelled` — what is written of a color is read as that color, in every spelling that the
  format has for it.
-/

namespace ShopLens

namespace Color

/-! ## the format -/

/-- The characters of a text without the white space around them and without a `#` and a `0x` before
them. -/
def body (s : String) : List Char := dropRadix (dropHash (Text.trim s.toList))

/-- Some hexadecimal digits write some bytes, two to a byte, the high one first. -/
def Write (digits : List Char) (bytes : List UInt8) : Prop :=
  digits.map hexValue? = bytes.flatMap fun b => [some (b.toNat / 16), some (b.toNat % 16)]

/-- Some hexadecimal digits write a color, with the alpha channel or without it if the color is
opaque. -/
def IsWritten (c : Color) (digits : List Char) : Prop :=
  Write digits c.toList ∨ c.alpha = 255 ∧ Write digits [c.red, c.green, c.blue]

/-- A character with a zero for a plus sign. -/
def unsign (c : Char) : Char := if c = '+' then '0' else c

/-- The characters with a zero for every plus sign in the first place of a pair. -/
def unsigned : List Char → List Char
  | high :: low :: cs => unsign high :: low :: unsigned cs
  | cs => cs

/-- The digits that are written of a color, those of the alpha channel last. -/
def hexDigits (c : Color) : List Char := c.toList.flatMap hexByte

/-- What may stand before the digits of a color. -/
def marks : List (List Char) := [['#'], [], ['0', 'x'], ['0', 'X']]

/-- Another spelling of the text of a color: its digits in any case, without the last two if the color
is opaque, without the `#` or with a `0x` in its place, and with white space around. -/
def Respelled (c : Color) (s : String) : Prop :=
  ∃ before mark digits after : List Char, s.toList = before ++ (mark ++ digits ++ after) ∧
    (∀ x ∈ before, Text.isBlank x = true) ∧ (∀ x ∈ after, Text.isBlank x = true) ∧ mark ∈ marks ∧
    (Text.lower digits = Text.lower c.hexDigits ∨
      c.alpha = 255 ∧ Text.lower digits = Text.lower (c.hexDigits.take 6))

/-! ## digits -/

/-- The value of a digit by its code. -/
theorem hexValue?_eq (c : Char) : hexValue? c =
    if 48 ≤ c.toNat ∧ c.toNat ≤ 57 then some (c.toNat - 48)
    else if 97 ≤ c.toNat ∧ c.toNat ≤ 102 then some (c.toNat - 87)
    else if 65 ≤ c.toNat ∧ c.toNat ≤ 70 then some (c.toNat - 55) else none := by
  simp [hexValue?, Char.le_def, UInt32.le_iff_toNat_le]

theorem hexValue?_lt {c : Char} {n : Nat} (h : hexValue? c = some n) : n < 16 := by
  rw [hexValue?_eq] at h
  grind

theorem hexValue?_hexDigit : ∀ n < 16, hexValue? (hexDigit n) = some n := by
  decide

/-- A capital digit has the value of the small one. -/
theorem hexValue?_toLower (c : Char) : hexValue? c.toLower = hexValue? c := by
  by_cases hc : c.val ≥ 'A'.val ∧ c.val ≤ 'Z'.val
  · have hcode : 65 ≤ c.toNat ∧ c.toNat ≤ 90 := by
      simpa [UInt32.le_iff_toNat_le] using hc
    have hcapitals : ∀ n < 26, hexValue? (Char.ofNat (65 + n)).toLower =
        hexValue? (Char.ofNat (65 + n)) := by decide
    have h := hcapitals (c.toNat - 65) (by omega)
    rwa [show 65 + (c.toNat - 65) = c.toNat by omega, Char.ofNat_toNat] at h
  · have hsame : c.toLower = c := dif_neg hc
    rw [hsame]

theorem map_hexValue?_lower (cs : List Char) :
    (Text.lower cs).map hexValue? = cs.map hexValue? := by
  simp [Text.lower, hexValue?_toLower]

/-! ## bytes -/

section Write

variable {digits : List Char} {bytes : List UInt8}

theorem write_hexBytes (bytes : List UInt8) : Write (bytes.flatMap hexByte) bytes := by
  have hbyte : ∀ b : UInt8, (hexByte b).map hexValue? =
      [some (b.toNat / 16), some (b.toNat % 16)] := by
    intro b
    have hlt : b.toNat < 256 := b.toNat_lt
    simp [hexByte, hexValue?_hexDigit _ (show b.toNat / 16 < 16 by omega),
      hexValue?_hexDigit _ (show b.toNat % 16 < 16 by omega)]
  simp [Write, List.map_flatMap, hbyte]

/-- The case of digits does not count. -/
theorem Write.of_lower {cs : List Char} (h : Write digits bytes)
    (heq : Text.lower cs = Text.lower digits) : Write cs bytes := by
  rw [Write, ← map_hexValue?_lower, heq, map_hexValue?_lower]
  exact h

theorem Write.length_eq (h : Write digits bytes) : digits.length = 2 * bytes.length := by
  have hlength := congrArg List.length h
  simp [List.length_flatMap, List.map_const'] at hlength
  omega

theorem Write.isSome (h : Write digits bytes) : ∀ d ∈ digits, (hexValue? d).isSome = true := by
  intro d hd
  have hmem : hexValue? d ∈ digits.map hexValue? := List.mem_map_of_mem hd
  rw [h] at hmem
  obtain ⟨b, -, hb⟩ := List.mem_flatMap.mp hmem
  simp only [List.mem_cons, List.not_mem_nil, or_false] at hb
  rcases hb with hb | hb <;> rw [hb] <;> rfl

theorem write_nil_iff : Write digits [] ↔ digits = [] := by
  simp [Write]

/-- The first two digits write the first byte. -/
theorem write_cons_cons_iff {high low : Char} {b : UInt8} :
    Write (high :: low :: digits) (b :: bytes) ↔ (hexValue? high = some (b.toNat / 16) ∧
      hexValue? low = some (b.toNat % 16)) ∧ Write digits bytes := by
  simp [Write, and_assoc]

/-- An even number of digits writes half as many bytes. -/
theorem exists_write {n : Nat} (hlength : digits.length = 2 * n)
    (hdigits : ∀ d ∈ digits, (hexValue? d).isSome = true) :
    ∃ bytes : List UInt8, bytes.length = n ∧ Write digits bytes := by
  induction n generalizing digits with
  | zero => exact ⟨[], rfl, write_nil_iff.mpr (List.length_eq_zero_iff.mp hlength)⟩
  | succ n ih =>
      match digits, hlength with
      | high :: low :: rest, hlength =>
          obtain ⟨h, hhigh⟩ := Option.isSome_iff_exists.mp (hdigits high (by simp))
          obtain ⟨l, hlow⟩ := Option.isSome_iff_exists.mp (hdigits low (by simp))
          have hhlt := hexValue?_lt hhigh
          have hllt := hexValue?_lt hlow
          have hbyte : (UInt8.ofNat (16 * h + l)).toNat = 16 * h + l := by
            simp
            omega
          obtain ⟨bytes, hbytes, hrest⟩ := @ih rest (by simp at hlength; omega)
            fun d hd => hdigits d (by simp [hd])
          refine ⟨UInt8.ofNat (16 * h + l) :: bytes, by simp [hbytes], ?_⟩
          refine write_cons_cons_iff.mpr ⟨⟨?_, ?_⟩, hrest⟩
          · rw [hbyte, hhigh, show (16 * h + l) / 16 = h by omega]
          · rw [hbyte, hlow, show (16 * h + l) % 16 = l by omega]

end Write

/-! ## plus signs -/

theorem unsigned_of_not_mem {cs : List Char} (h : '+' ∉ cs) : unsigned cs = cs := by
  fun_induction unsigned cs with
  | case1 high low cs ih =>
      simp only [List.mem_cons, not_or] at h
      rw [unsign, if_neg (Ne.symm h.1), ih h.2.2]
  | case2 cs => rfl

/-- Two characters are read as a byte that they write, with a zero for a plus sign before the digit. -/
theorem channel?_eq_some_iff {high low : Char} {b : UInt8} : channel? high low = some b ↔
    hexValue? (unsign high) = some (b.toNat / 16) ∧ hexValue? low = some (b.toNat % 16) := by
  have hb : b.toNat < 256 := b.toNat_lt
  have hvalue : ∀ h l : Nat, h < 16 → l < 16 →
      (UInt8.ofNat (16 * h + l) = b ↔ h = b.toNat / 16 ∧ l = b.toNat % 16) := by
    intro h l hh hl
    rw [← UInt8.toNat_inj, UInt8.toNat_ofNat']
    omega
  unfold channel? unsign
  split
  · have hzero : hexValue? '0' = some 0 := by decide
    rw [hzero]
    cases hlow : hexValue? low with
    | none => simp
    | some l =>
        have h := hvalue 0 l (by omega) (hexValue?_lt hlow)
        simpa using h
  · cases hhigh : hexValue? high with
    | none => simp
    | some h =>
        cases hlow : hexValue? low with
        | none => simp
        | some l => simpa using hvalue h l (hexValue?_lt hhigh) (hexValue?_lt hlow)

theorem length_unsigned (cs : List Char) : (unsigned cs).length = cs.length := by
  fun_induction unsigned cs with
  | case1 high low cs ih => simp [ih]
  | case2 cs => rfl

theorem write_unsigned_cons_cons_iff {high low : Char} {cs : List Char} {b : UInt8}
    {bytes : List UInt8} : Write (unsigned (high :: low :: cs)) (b :: bytes) ↔
      channel? high low = some b ∧ Write (unsigned cs) bytes := by
  rw [unsigned, write_cons_cons_iff, channel?_eq_some_iff]

/-- Six or eight characters are read as the color that they write, with a zero for each plus sign in
the first place of a pair. -/
theorem channels?_eq_some_iff {cs : List Char} {c : Color} :
    channels? cs = some c ↔ c.IsWritten (unsigned cs) := by
  have hnil : Write (unsigned []) [] := rfl
  constructor
  · intro h
    unfold channels? at h
    split at h
    · split at h
      · next hred hgreen hblue =>
        obtain rfl := Option.some.inj h
        refine .inr ⟨rfl, ?_⟩
        simp only [write_unsigned_cons_cons_iff]
        exact ⟨hred, hgreen, hblue, hnil⟩
      · contradiction
    · split at h
      · next hred hgreen hblue halpha =>
        obtain rfl := Option.some.inj h
        refine .inl ?_
        simp only [toList, write_unsigned_cons_cons_iff]
        exact ⟨hred, hgreen, hblue, halpha, hnil⟩
      · contradiction
    · contradiction
  · rintro (h | ⟨hfull, h⟩)
    · have hlength : cs.length = 8 := by rw [← length_unsigned, h.length_eq]; rfl
      match cs, hlength with
      | [r, r', g, g', b, b', a, a'], _ =>
          simp only [toList, write_unsigned_cons_cons_iff] at h
          obtain ⟨hred, hgreen, hblue, halpha, -⟩ := h
          simp [channels?, hred, hgreen, hblue, halpha]
    · have hlength : cs.length = 6 := by rw [← length_unsigned, h.length_eq]; rfl
      match cs, hlength with
      | [r, r', g, g', b, b'], _ =>
          simp only [write_unsigned_cons_cons_iff] at h
          obtain ⟨hred, hgreen, hblue, -⟩ := h
          simp [channels?, hred, hgreen, hblue, ← hfull]

/-! ## reading -/

theorem parse_eq_ok_iff {s : String} {c : Color} :
    parse s = .ok c ↔ c.IsWritten (unsigned (body s)) := by
  rw [← channels?_eq_some_iff, parse, ofChars?, body]
  cases channels? (dropRadix (dropHash (Text.trim s.toList))) <;> simp

/-- What is not read as a color is reported as a whole. -/
theorem parse_eq_error_iff {s : String} : parse s = .error ⟨s⟩ ↔ ∀ c, parse s ≠ .ok c := by
  rw [parse]
  cases ofChars? s.toList <;> simp

theorem IsWritten.isSome {c : Color} {digits : List Char} (h : c.IsWritten digits) :
    ∀ d ∈ digits, (hexValue? d).isSome = true := by
  rcases h with h | ⟨-, h⟩
  · exact h.isSome
  · exact h.isSome

/-- Six or eight hexadecimal digits write a color. -/
theorem exists_isWritten_iff {digits : List Char} : (∃ c : Color, c.IsWritten digits) ↔
    (digits.length = 6 ∨ digits.length = 8) ∧ ∀ d ∈ digits, (hexValue? d).isSome = true := by
  constructor
  · rintro ⟨c, h⟩
    refine ⟨?_, h.isSome⟩
    rcases h with h | ⟨-, h⟩
    · exact .inr h.length_eq
    · exact .inl h.length_eq
  · rintro ⟨hlength | hlength, hdigits⟩
    · obtain ⟨bytes, hbytes, h⟩ := exists_write (n := 3) hlength hdigits
      match bytes, hbytes with
      | [red, green, blue], _ => exact ⟨⟨red, green, blue, 255⟩, .inr ⟨rfl, h⟩⟩
    · obtain ⟨bytes, hbytes, h⟩ := exists_write (n := 4) hlength hdigits
      match bytes, hbytes with
      | [red, green, blue, alpha], _ => exact ⟨⟨red, green, blue, alpha⟩, .inl h⟩

/-- **The format of colors** is six or eight hexadecimal digits, and a text is read as what its digits
write. But a plus sign in the first place of a pair is read as a zero. So reading keeps to the format
exactly where it accepts no plus sign. -/
theorem parse_format_iff (s : String) :
    ((∃ c : Color, c.IsWritten (body s)) ↔ ((body s).length = 6 ∨ (body s).length = 8) ∧
        ∀ d ∈ body s, (hexValue? d).isSome = true) ∧
      (∀ c, parse s = .ok c ↔ c.IsWritten (unsigned (body s))) ∧
      ((∀ c, parse s = .ok c ↔ c.IsWritten (body s)) ↔ ('+' ∈ body s → parse s = .error ⟨s⟩)) := by
  refine ⟨exists_isWritten_iff, fun c => parse_eq_ok_iff, ?_⟩
  have hplus : '+' ∈ body s → ∀ c : Color, ¬ c.IsWritten (body s) :=
    fun hmem c hc => absurd (hc.isSome '+' hmem) (by decide)
  constructor
  · intro hformat hmem
    exact parse_eq_error_iff.mpr fun c hc => hplus hmem c ((hformat c).mp hc)
  · intro herror c
    by_cases hmem : '+' ∈ body s
    · have hfails := parse_eq_error_iff.mp (herror hmem) c
      exact ⟨fun hc => absurd hc hfails, fun hc => absurd hc (hplus hmem c)⟩
    · rw [parse_eq_ok_iff, unsigned_of_not_mem hmem]

/-- A plus sign in the place of a digit. -/
theorem parse_plus_sign : parse "#+f0000" = .ok ⟨15, 0, 0, 255⟩ ∧
    ¬ (((body "#+f0000").length = 6 ∨ (body "#+f0000").length = 8) ∧
      ∀ d ∈ body "#+f0000", (hexValue? d).isSome = true) := by
  refine ⟨rfl, fun h => absurd (h.2 '+' (by decide)) (by decide)⟩

/-! ## spellings -/

section Spellings

variable {digits : List Char} (hdigits : ∀ d ∈ digits, (hexValue? d).isSome = true)

include hdigits

theorem not_mem_of_digits {c : Char} (h : hexValue? c = none) : c ∉ digits := by
  intro hmem
  have hsome := hdigits c hmem
  rw [h] at hsome
  contradiction

theorem isBlank_of_mem_digits : ∀ d ∈ digits, Text.isBlank d = false := by
  have hblanks : ∀ b ∈ Text.blanks, (hexValue? b).isNone = true := List.all_eq_true.mp rfl
  intro d hd
  rw [← Bool.not_eq_true, Text.isBlank_iff]
  intro hblank
  exact not_mem_of_digits hdigits (Option.isNone_iff_eq_none.mp (hblanks d hblank)) hd

theorem dropHash_of_digits : dropHash digits = digits := by
  unfold dropHash
  split
  · exact absurd List.mem_cons_self (not_mem_of_digits hdigits (c := '#') (by decide))
  · rfl

theorem dropRadix_of_digits : dropRadix digits = digits := by
  unfold dropRadix
  split
  · exact absurd (by simp) (not_mem_of_digits hdigits (c := 'x') (by decide))
  · exact absurd (by simp) (not_mem_of_digits hdigits (c := 'X') (by decide))
  · rfl

/-- Of a text with white space around and one of the marks before its digits, the digits are left. -/
theorem body_of_digits {s : String} {before mark after : List Char}
    (hs : s.toList = before ++ (mark ++ digits ++ after))
    (hbefore : ∀ x ∈ before, Text.isBlank x = true) (hafter : ∀ x ∈ after, Text.isBlank x = true)
    (hmark : mark ∈ marks) : body s = digits := by
  have hmarks : ∀ m ∈ marks, (m.all fun x => !Text.isBlank x) = true := List.all_eq_true.mp rfl
  have hblank : ∀ x ∈ mark ++ digits, Text.isBlank x = false := by
    intro x hx
    rcases List.mem_append.mp hx with hx | hx
    · simpa using List.all_eq_true.mp (hmarks mark hmark) x hx
    · exact isBlank_of_mem_digits hdigits x hx
  have htrim : Text.trim s.toList = mark ++ digits := by
    rw [hs]
    exact Text.trim_surrounded hbefore hafter (fun x hx => hblank x (List.mem_of_mem_head? hx))
      fun x hx => hblank x (List.mem_of_getLast? hx)
  rw [body, htrim]
  simp only [marks, List.mem_cons, List.not_mem_nil, or_false] at hmark
  rcases hmark with rfl | rfl | rfl | rfl
  · exact dropRadix_of_digits hdigits
  · rw [List.nil_append, dropHash_of_digits hdigits, dropRadix_of_digits hdigits]
  · rfl
  · rfl

end Spellings

theorem isWritten_of_lower {c : Color} {digits : List Char}
    (h : Text.lower digits = Text.lower c.hexDigits ∨
      c.alpha = 255 ∧ Text.lower digits = Text.lower (c.hexDigits.take 6)) :
    c.IsWritten digits := by
  rcases h with h | ⟨hfull, h⟩
  · exact .inl ((write_hexBytes c.toList).of_lower h)
  · exact .inr ⟨hfull, (write_hexBytes [c.red, c.green, c.blue]).of_lower h⟩

/-- **What is written of a color is read as the color**, in every spelling. -/
theorem parse_respelled (c : Color) :
    parse c.hex = .ok c ∧ ∀ s, c.Respelled s → parse s = .ok c := by
  have hspelled : ∀ s, c.Respelled s → parse s = .ok c := by
    rintro s ⟨before, mark, digits, after, hs, hbefore, hafter, hmark, hdigits⟩
    have hwritten := isWritten_of_lower hdigits
    have hplus := not_mem_of_digits hwritten.isSome (c := '+') (by decide)
    rw [parse_eq_ok_iff, body_of_digits hwritten.isSome hs hbefore hafter hmark,
      unsigned_of_not_mem hplus]
    exact hwritten
  refine ⟨hspelled c.hex ⟨[], ['#'], c.hexDigits, [], ?_, nofun, nofun, by simp [marks], .inl rfl⟩,
    hspelled⟩
  simp [hex, hexChars, hexDigits]

/-- An opaque color in letters of both cases, behind a `0X`, without its last two digits, and between
blanks. -/
theorem parse_respelled_of_amber :
    (⟨255, 191, 0, 255⟩ : Color).Respelled "\u3000\t0XffBf00\n" ∧
      parse "\u3000\t0XffBf00\n" = .ok ⟨255, 191, 0, 255⟩ := by
  have h : (⟨255, 191, 0, 255⟩ : Color).Respelled "\u3000\t0XffBf00\n" :=
    ⟨['\u3000', '\t'], ['0', 'X'], ['f', 'f', 'B', 'f', '0', '0'], ['\n'], rfl,
      List.all_eq_true.mp rfl, List.all_eq_true.mp rfl, by decide, .inr ⟨rfl, by decide⟩⟩
  exact ⟨h, (parse_respelled _).2 _ h⟩

end Color

end ShopLens
