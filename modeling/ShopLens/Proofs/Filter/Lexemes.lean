import Mathlib.Data.Bool.AllAny
import ShopLens.Proofs.Filter.Spelling

/-!
# ShopLens.Proofs.Filter.Lexemes

What the lexer reads, said without it: `Lexeme t w` tells which characters write a token, and
`Token.goesOn` whether the token would be longer, or another one, with what stands behind it. A token is
read off the front of a text just when its characters stand there and it does not go on
(`lexeme_of_readToken`, `readToken_of_lexeme`).

`LexesFrom` puts this together for whole texts: blanks and lexemes by turns. It is the lexer
(`lexesFrom_iff`) and lends itself to induction, so that texts can be cut and joined:

* `tokensFrom_append` — the lexer on two texts side by side, where the second one starts with a blank or a
  closing parenthesis, and so their tokens (`LexesFrom.append`, `LexesFrom.of_append`);
* `LexesFrom.shift` — the offset of the text makes no difference to its tokens.
-/

namespace ShopLens.Filter

open ShopLens.Text

/-! ## one token -/

/-- The characters `raw`, the last one a closing quote, are the body of a text literal that means
`meant`. -/
inductive Body : (raw meant : List Char) → Prop where
  | close : Body ['"'] []
  | escape (e : Char) {raw meant : List Char} (h : Body raw meant) :
      Body ('\\' :: e :: raw) (unescape e :: meant)
  | char {c : Char} {raw meant : List Char} (hq : c ≠ '"') (hb : c ≠ '\\') (h : Body raw meant) :
      Body (c :: raw) (c :: meant)

/-- The characters write a token. -/
inductive Lexeme : Token → List Char → Prop where
  | sym (s : Symbol) : Lexeme (.sym s) s.chars
  | int {ds : List Char} {n : Int} (hne : ds ≠ []) (hd : ∀ d ∈ ds, d.isDigit)
      (hn : Decimal.within64? (Decimal.ofDigits ds) = some n) : Lexeme (.int n) ds
  | float {whole places : List Char} (hw : whole ≠ []) (hp : places ≠ [])
      (hwd : ∀ d ∈ whole, d.isDigit) (hpd : ∀ d ∈ places, d.isDigit) :
      Lexeme (.float (Decimal.scaled (whole ++ places) (-places.length))) (whole ++ '.' :: places)
  | str {raw meant : List Char} (h : Body raw meant) :
      Lexeme (.str (String.ofList meant)) ('"' :: raw)
  | ident {cs : List Char} (h : isName cs = true) : Lexeme (.ident (String.ofList cs)) cs

theorem isNamePart_of_isNameStart {c : Char} (h : isNameStart c = true) : isNamePart c = true := by
  simp only [isNameStart, isNamePart, isAlphanumeric, Bool.or_eq_true] at *
  exact h.imp_left Or.inl

/-- A name is made of the characters that names go on with. -/
theorem isNamePart_of_isName {cs : List Char} (h : isName cs = true) :
    ∀ c ∈ cs, isNamePart c = true := by
  cases cs with
  | nil => contradiction
  | cons d r =>
      simp only [isName, Bool.and_eq_true, List.all_eq_true] at h
      simpa [isNamePart_of_isNameStart h.1] using h.2

/-- A text literal ends with its closing quote. -/
theorem Body.getLast? {raw meant : List Char} (h : Body raw meant) : raw.getLast? = some '"' := by
  induction h with
  | close => rfl
  | escape e h ih => simp [List.getLast?_cons, ih]
  | char _ _ h ih => simp [List.getLast?_cons, ih]

/-- Whether the text goes on with a dot and a digit. -/
def startsFraction : List Char → Bool
  | '.' :: d :: _ => d.isDigit
  | _ => false

/-- Whether the token would be another one together with what stands behind it. -/
def Token.goesOn : Token → List Char → Bool
  | .sym .not, rest => rest.head? = some '='
  | .sym (.cmp .gt), rest => rest.head? = some '='
  | .sym (.cmp .lt), rest => rest.head? = some '='
  | .int _, rest => rest.head?.any Char.isDigit || startsFraction rest
  | .float _, rest => rest.head?.any Char.isDigit
  | .ident _, rest => rest.head?.any isNamePart
  | _, _ => false

theorem body_of_textBody? {cs : List Char} {b : TextBody cs} (h : textBody? cs = some b) :
    Body b.raw b.meant := by
  fun_induction textBody? cs with
  | case1 => contradiction
  | case2 r =>
      obtain rfl := Option.some.inj h
      exact .close
  | case3 => contradiction
  | case4 e r ih =>
      obtain ⟨b', hb', rfl⟩ := Option.map_eq_some_iff.mp h
      exact .escape e (ih hb')
  | case5 c r hq hb hb' ih =>
      obtain ⟨b', hb', rfl⟩ := Option.map_eq_some_iff.mp h
      refine .char hq ?_ (ih hb')
      rintro rfl
      cases r with
      | nil => exact hb rfl rfl
      | cons e r => exact hb' e r rfl rfl

theorem textBody?_of_body {raw meant : List Char} (h : Body raw meant) (rest : List Char) :
    ∃ b, textBody? (raw ++ rest) = some b ∧ b.meant = meant ∧ b.raw = raw ∧ b.rest = rest := by
  induction h with
  | close => exact ⟨_, rfl, rfl, rfl, rfl⟩
  | escape e _ ih =>
      obtain ⟨b, hb, hmeant, hraw, hrest⟩ := ih
      exact ⟨b.consEscape e, by simp [textBody?, hb], by simp [TextBody.consEscape, hmeant],
        by simp [TextBody.consEscape, hraw], hrest⟩
  | @char c raw meant hq hb' _ ih =>
      obtain ⟨b, hb, hmeant, hraw, hrest⟩ := ih
      refine ⟨b.cons c c, ?_, by simp [TextBody.cons, hmeant], by simp [TextBody.cons, hraw], hrest⟩
      show textBody? (c :: (raw ++ rest)) = _
      simp [textBody?, hb', hb]

theorem head?_dropWhile_any (p : Char → Bool) (cs : List Char) :
    (cs.dropWhile p).head?.any p = false := by
  induction cs with
  | nil => rfl
  | cons c cs ih => by_cases hc : p c = true <;> simp_all

theorem isDigit_of_mem_takeWhile {cs : List Char} {d : Char} (h : d ∈ cs.takeWhile Char.isDigit) :
    d.isDigit = true :=
  List.all_eq_true.mp List.all_takeWhile d h

theorem lexeme_integer {c : Char} {r : List Char} {l : Lexed (c :: r)} (hc : c.isDigit = true)
    (hf : startsFraction (r.dropWhile Char.isDigit) = false)
    (h : readNumber.integer c r = .ok l) :
    Lexeme l.token l.lexeme ∧ l.token.goesOn l.rest = false := by
  unfold readNumber.integer at h
  dsimp only at h
  split at h
  · next n hn =>
      obtain rfl := Except.ok.inj h
      refine ⟨.int (by simp) ?_ hn, ?_⟩
      · simpa [hc] using fun d => isDigit_of_mem_takeWhile
      · simp [Token.goesOn, head?_dropWhile_any, hf]
  · contradiction

theorem lexeme_readNumber {c : Char} {r : List Char} {l : Lexed (c :: r)} (hc : c.isDigit = true)
    (h : readNumber c r = .ok l) : Lexeme l.token l.lexeme ∧ l.token.goesOn l.rest = false := by
  unfold readNumber at h
  dsimp only at h
  split at h
  · next d after hrest =>
      split at h
      · next hd =>
          obtain rfl := Except.ok.inj h
          refine ⟨.float (by simp) (by simp) ?_ ?_, ?_⟩
          · simpa [hc] using fun d => isDigit_of_mem_takeWhile
          · simpa [hd] using fun d => isDigit_of_mem_takeWhile
          · exact head?_dropWhile_any _ _
      · next hd => exact lexeme_integer hc (by simpa [hrest, startsFraction] using hd) h
  · next hne =>
      refine lexeme_integer hc ?_ h
      unfold startsFraction
      split
      · next d after hrest => exact absurd hrest (hne d after)
      · rfl

theorem lexeme_readMaybeEqual {c : Char} {long short : Symbol} {r : List Char}
    (hlong : long.chars = [c, '=']) (hshort : short.chars = [c])
    (hgo : ∀ rest, (Token.sym long).goesOn rest = false)
    (hgo' : ∀ rest, (Token.sym short).goesOn rest = decide (rest.head? = some '=')) :
    Lexeme (readMaybeEqual (c := c) long short r).token (readMaybeEqual (c := c) long short r).lexeme ∧
      (readMaybeEqual (c := c) long short r).token.goesOn
        (readMaybeEqual (c := c) long short r).rest = false := by
  unfold readMaybeEqual
  split
  · next r' =>
      have h := Lexeme.sym long
      rw [hlong] at h
      exact ⟨h, hgo _⟩
  · next hne =>
      have h := Lexeme.sym short
      rw [hshort] at h
      refine ⟨h, (hgo' _).trans ?_⟩
      cases r with
      | nil => rfl
      | cons d r => simpa [Lexed.one] using fun hd => hne r (by rw [hd])

theorem lexeme_readPair {c : Char} {s : Symbol} {r : List Char} {l : Lexed (c :: r)}
    (hs : s.chars = [c, c]) (hgo : ∀ rest, (Token.sym s).goesOn rest = false)
    (h : readPair s r = .ok l) : Lexeme l.token l.lexeme ∧ l.token.goesOn l.rest = false := by
  unfold readPair at h
  split at h
  · contradiction
  · next d r =>
      split at h
      · next hd =>
          subst hd
          obtain rfl := Except.ok.inj h
          have hlex := Lexeme.sym s
          rw [hs] at hlex
          exact ⟨hlex, hgo _⟩
      · contradiction

theorem lexeme_readText {r : List Char} {l : Lexed ('"' :: r)} (h : readText '"' r = .ok l) :
    Lexeme l.token l.lexeme ∧ l.token.goesOn l.rest = false := by
  unfold readText at h
  split at h
  · next b hb =>
      obtain rfl := Except.ok.inj h
      exact ⟨.str (body_of_textBody? hb), rfl⟩
  · contradiction

theorem lexeme_readName {c : Char} {r : List Char} (hc : isNameStart c = true) :
    Lexeme (readName c r).token (readName c r).lexeme ∧
      (readName c r).token.goesOn (readName c r).rest = false := by
  refine ⟨.ident ?_, head?_dropWhile_any _ _⟩
  simp [isName, hc]

theorem lexeme_of_single? {c : Char} {s : Symbol} {r : List Char} (h : single? c = some s) :
    Lexeme (.sym s) [c] ∧ (Token.sym s).goesOn r = false := by
  unfold single? at h
  split at h
  · next hc =>
      obtain rfl := Option.some.inj h
      exact hc ▸ ⟨.sym .lparen, rfl⟩
  · split at h
    · next hc =>
        obtain rfl := Option.some.inj h
        exact hc ▸ ⟨.sym .rparen, rfl⟩
    · split at h
      · next hc =>
          obtain rfl := Option.some.inj h
          exact hc ▸ ⟨.sym .comma, rfl⟩
      · split at h
        · next hc =>
            obtain rfl := Option.some.inj h
            exact hc ▸ ⟨.sym .dot, rfl⟩
        · contradiction

/-- What is read off the front of a text is a lexeme that does not go on. -/
theorem lexeme_of_readToken {c : Char} {r : List Char} {l : Lexed (c :: r)}
    (h : readToken c r = .ok l) : Lexeme l.token l.lexeme ∧ l.token.goesOn l.rest = false := by
  unfold readToken at h
  split at h
  · next s hs =>
      obtain rfl := Except.ok.inj h
      exact lexeme_of_single? hs
  · repeat' split at h
    all_goals try contradiction
    all_goals try subst_vars
    · obtain rfl := Except.ok.inj h
      exact lexeme_readMaybeEqual rfl rfl (fun _ => rfl) (fun _ => rfl)
    · obtain rfl := Except.ok.inj h
      exact lexeme_readMaybeEqual rfl rfl (fun _ => rfl) (fun _ => rfl)
    · obtain rfl := Except.ok.inj h
      exact lexeme_readMaybeEqual rfl rfl (fun _ => rfl) (fun _ => rfl)
    · exact lexeme_readPair rfl (fun _ => rfl) h
    · exact lexeme_readPair rfl (fun _ => rfl) h
    · exact lexeme_readPair rfl (fun _ => rfl) h
    · exact lexeme_readText h
    · next hc => exact lexeme_readNumber hc h
    · next hc =>
        obtain rfl := Except.ok.inj h
        exact lexeme_readName hc

/-! ## reading a lexeme -/

/-- The characters `w` are read as the token `t` where `rest` follows. -/
def ReadsAs (t : Token) (w rest : List Char) : Prop :=
  ∃ c r, w ++ rest = c :: r ∧ isBlank c = false ∧
    ∃ l : Lexed (c :: r), readToken c r = .ok l ∧ l.token = t ∧ l.lexeme = w ∧ l.rest = rest

theorem takeWhile_append_of_stop {p : Char → Bool} {ds rest : List Char} (hd : ∀ d ∈ ds, p d)
    (hr : rest.head?.any p = false) : (ds ++ rest).takeWhile p = ds := by
  rw [List.takeWhile_append_of_pos hd]
  cases rest <;> simp_all

theorem dropWhile_append_of_stop {p : Char → Bool} {ds rest : List Char} (hd : ∀ d ∈ ds, p d)
    (hr : rest.head?.any p = false) : (ds ++ rest).dropWhile p = rest := by
  rw [List.dropWhile_append_of_pos hd]
  cases rest <;> simp_all

theorem readMaybeEqual_of_ne {c : Char} {long short : Symbol} {rest : List Char}
    (h : rest.head? ≠ some '=') :
    readMaybeEqual (c := c) long short rest = .one (.sym short) := by
  unfold readMaybeEqual
  split
  · simp at h
  · rfl

theorem readsAs_sym {s : Symbol} {rest : List Char} (h : (Token.sym s).goesOn rest = false) :
    ReadsAs (.sym s) s.chars rest := by
  rcases s with _ | _ | _ | _ | _ | _ | _ | (_ | _ | _ | _ | _ | _)
  case not =>
    have hne : rest.head? ≠ some '=' := by simpa [Token.goesOn] using h
    exact ⟨'!', rest, rfl, by decide, _, congrArg Except.ok (readMaybeEqual_of_ne hne), rfl, rfl, rfl⟩
  case cmp.gt =>
    have hne : rest.head? ≠ some '=' := by simpa [Token.goesOn] using h
    exact ⟨'>', rest, rfl, by decide, _, congrArg Except.ok (readMaybeEqual_of_ne hne), rfl, rfl, rfl⟩
  case cmp.lt =>
    have hne : rest.head? ≠ some '=' := by simpa [Token.goesOn] using h
    exact ⟨'<', rest, rfl, by decide, _, congrArg Except.ok (readMaybeEqual_of_ne hne), rfl, rfl, rfl⟩
  all_goals exact ⟨_, _, rfl, by decide, _, rfl, rfl, rfl, rfl⟩

theorem readToken_of_isDigit {c : Char} (r : List Char) (h : c.isDigit = true) :
    isBlank c = false ∧ readToken c r = readNumber c r := by
  have hdigits : ((List.range 58).all fun n => !(Char.ofNat n).isDigit ||
      (!isBlank (Char.ofNat n) && (single? (Char.ofNat n)).isNone &&
        ['!', '>', '<', '&', '|', '=', '"'].all (Char.ofNat n ≠ ·))) = true := by decide +kernel
  have hlt : c.toNat < 58 := Nat.lt_succ_of_le (Char.isDigit_iff_toNat.mp h).2
  have hc := List.all_eq_true.mp hdigits c.toNat (List.mem_range.mpr hlt)
  simp [h] at hc
  simp [readToken, h, hc]

theorem readsAs_int {ds rest : List Char} {n : Int} (hne : ds ≠ []) (hd : ∀ d ∈ ds, d.isDigit)
    (hn : Decimal.within64? (Decimal.ofDigits ds) = some n)
    (h : (Token.int n).goesOn rest = false) : ReadsAs (.int n) ds rest := by
  obtain ⟨c, ds, rfl⟩ := List.exists_cons_of_ne_nil hne
  simp only [Token.goesOn, Bool.or_eq_false_iff] at h
  have hc : c.isDigit = true := hd c (by simp)
  have htail : ∀ d ∈ ds, d.isDigit := fun d hmem => hd d (by simp [hmem])
  obtain ⟨hblank, hread⟩ := readToken_of_isDigit (ds ++ rest) hc
  refine ⟨c, ds ++ rest, rfl, hblank, ⟨.int n, c :: ds, rest, rfl, by simp⟩, ?_, rfl, rfl, rfl⟩
  have hinteger : readNumber.integer c (ds ++ rest) = .ok ⟨.int n, c :: ds, rest, rfl, by simp⟩ := by
    simp [readNumber.integer, takeWhile_append_of_stop htail h.1,
      dropWhile_append_of_stop htail h.1, hn]
  rw [hread, ← hinteger]
  unfold readNumber
  dsimp only
  split
  · next d after hrest =>
      rw [dropWhile_append_of_stop htail h.1] at hrest
      have hdigit : d.isDigit = false := by simpa [hrest, startsFraction] using h.2
      simp [hdigit]
  · rfl

theorem readsAs_float {whole places rest : List Char} (hw : whole ≠ []) (hp : places ≠ [])
    (hwd : ∀ d ∈ whole, d.isDigit) (hpd : ∀ d ∈ places, d.isDigit)
    (h : rest.head?.any Char.isDigit = false) :
    ReadsAs (.float (Decimal.scaled (whole ++ places) (-places.length))) (whole ++ '.' :: places)
      rest := by
  obtain ⟨c, whole, rfl⟩ := List.exists_cons_of_ne_nil hw
  obtain ⟨d, places, rfl⟩ := List.exists_cons_of_ne_nil hp
  have hc : c.isDigit = true := hwd c (by simp)
  have hd : d.isDigit = true := hpd d (by simp)
  have hwhole : ∀ x ∈ whole, x.isDigit := fun x hx => hwd x (by simp [hx])
  have hplaces : ∀ x ∈ places, x.isDigit := fun x hx => hpd x (by simp [hx])
  have hdot : ('.' :: d :: (places ++ rest)).head?.any Char.isDigit = false := rfl
  obtain ⟨hblank, hread⟩ := readToken_of_isDigit (whole ++ '.' :: d :: (places ++ rest)) hc
  have htext : (c :: whole ++ '.' :: d :: places) ++ rest =
      c :: (whole ++ '.' :: d :: (places ++ rest)) := by simp
  refine ⟨c, _, htext, hblank, ⟨_, c :: whole ++ '.' :: d :: places, rest, htext, by simp⟩, ?_, rfl,
    rfl, rfl⟩
  rw [hread]
  unfold readNumber
  dsimp only
  split
  · next d' after hrest =>
      rw [dropWhile_append_of_stop hwhole hdot] at hrest
      obtain ⟨rfl, rfl⟩ : d = d' ∧ places ++ rest = after := by simpa using hrest
      simp [hd, takeWhile_append_of_stop hwhole hdot, takeWhile_append_of_stop hplaces h,
        dropWhile_append_of_stop hplaces h]
  · next hne => exact absurd (dropWhile_append_of_stop hwhole hdot) (hne _ _)

theorem readsAs_str {raw meant : List Char} (h : Body raw meant) (rest : List Char) :
    ReadsAs (.str (String.ofList meant)) ('"' :: raw) rest := by
  obtain ⟨b, hb, rfl, hraw, hrest⟩ := textBody?_of_body h rest
  refine ⟨'"', raw ++ rest, rfl, by decide, ?_⟩
  have hread : readToken '"' (raw ++ rest) = readText '"' (raw ++ rest) := rfl
  rw [hread, readText, hb]
  exact ⟨_, rfl, rfl, congrArg _ hraw, hrest⟩

theorem readsAs_ident {cs rest : List Char} (hname : isName cs = true)
    (h : rest.head?.any isNamePart = false) : ReadsAs (.ident (String.ofList cs)) cs rest := by
  cases cs with
  | nil => contradiction
  | cons c r =>
      simp only [isName, Bool.and_eq_true, List.all_eq_true] at hname
      have htake : (r ++ rest).takeWhile isNamePart = r := takeWhile_append_of_stop hname.2 h
      have hdrop : (r ++ rest).dropWhile isNamePart = rest := dropWhile_append_of_stop hname.2 h
      refine ⟨c, r ++ rest, rfl, isBlank_of_isNameStart hname.1, _,
        readToken_of_isNameStart _ hname.1, ?_, ?_, hdrop⟩
      · simp [readName, htake]
      · simp [readName, htake]

/-- A lexeme is read where it does not go on. -/
theorem readToken_of_lexeme {t : Token} {w rest : List Char} (h : Lexeme t w)
    (hgo : t.goesOn rest = false) : ReadsAs t w rest := by
  cases h with
  | sym s => exact readsAs_sym hgo
  | int hne hd hn => exact readsAs_int hne hd hn hgo
  | float hw hp hwd hpd => exact readsAs_float hw hp hwd hpd hgo
  | str h => exact readsAs_str h rest
  | ident h => exact readsAs_ident h hgo

/-! ## whole texts -/

theorem map_eq_ok_iff {ε α β : Type} {g : α → β} {x : Except ε α} {b : β} :
    x.map g = .ok b ↔ ∃ a, x = .ok a ∧ g a = b := by
  cases x <;> simp [Except.map]

theorem tokensFrom_blank {pos : Nat} {c : Char} (hc : isBlank c = true) (r : List Char) :
    tokensFrom pos (c :: r) = tokensFrom (pos + c.utf8Size) r := by
  rw [tokensFrom, if_pos hc]

/-- A lexeme that does not go on is one token, whatever the lexer makes of the rest. -/
theorem tokensFrom_lexeme {pos : Nat} {t : Token} {w r : List Char} (hw : Lexeme t w)
    (hgo : t.goesOn r = false) :
    tokensFrom pos (w ++ r) = (tokensFrom (pos + byteLength w) r).map (⟨t, pos⟩ :: ·) := by
  obtain ⟨c, r', heq, hc, l, hl, rfl, rfl, rfl⟩ := readToken_of_lexeme hw hgo
  rw [heq, tokensFrom, if_neg (by simp [hc]), hl]
  dsimp only
  cases tokensFrom (pos + byteLength l.lexeme) l.rest <;> rfl

/-- The text `cs`, whose first character has the offset `pos`, is made of blanks and of the lexemes of
these tokens. -/
inductive LexesFrom : (pos : Nat) → List Char → List Placed → Prop where
  | nil {pos : Nat} : LexesFrom pos [] []
  | blank {pos : Nat} {c : Char} {r : List Char} {ps : List Placed} (hc : isBlank c = true)
      (h : LexesFrom (pos + c.utf8Size) r ps) : LexesFrom pos (c :: r) ps
  | token {pos : Nat} {t : Token} {w r : List Char} {ps : List Placed} (hw : Lexeme t w)
      (hgo : t.goesOn r = false) (h : LexesFrom (pos + byteLength w) r ps) :
      LexesFrom pos (w ++ r) (⟨t, pos⟩ :: ps)

theorem lexesFrom_of_tokensFrom {pos : Nat} {cs : List Char} {ps : List Placed}
    (h : tokensFrom pos cs = .ok ps) : LexesFrom pos cs ps := by
  fun_induction tokensFrom pos cs generalizing ps with
  | case1 =>
      obtain rfl := Except.ok.inj h
      exact .nil
  | case2 pos c r hc ih => exact .blank hc (ih h)
  | case3 => contradiction
  | case4 => contradiction
  | case5 pos c r hc t ht ts hts ih =>
      obtain rfl := Except.ok.inj h
      obtain ⟨hw, hgo⟩ := lexeme_of_readToken ht
      have htoken := LexesFrom.token hw hgo (ih hts)
      rwa [t.append_rest] at htoken

theorem tokensFrom_of_lexesFrom {pos : Nat} {cs : List Char} {ps : List Placed}
    (h : LexesFrom pos cs ps) : tokensFrom pos cs = .ok ps := by
  induction h with
  | nil => simp [tokensFrom]
  | blank hc _ ih => rw [tokensFrom_blank hc, ih]
  | token hw hgo _ ih =>
      rw [tokensFrom_lexeme hw hgo, ih]
      rfl

/-- **The lexer reads just the texts made of blanks and lexemes.** -/
theorem lexesFrom_iff {pos : Nat} {cs : List Char} {ps : List Placed} :
    LexesFrom pos cs ps ↔ tokensFrom pos cs = .ok ps :=
  ⟨tokensFrom_of_lexesFrom, lexesFrom_of_tokensFrom⟩

namespace LexesFrom

variable {pos : Nat} {cs : List Char} {ps : List Placed}

/-- No token starts before its text. -/
theorem le_pos (h : LexesFrom pos cs ps) : ∀ p ∈ ps, pos ≤ p.pos := by
  induction h with
  | nil => simp
  | blank _ _ ih => exact fun p hp => Nat.le_trans (Nat.le_add_right _ _) (ih p hp)
  | token _ _ _ ih =>
      intro p hp
      rcases List.mem_cons.mp hp with rfl | hp
      · exact Nat.le_refl _
      · exact Nat.le_trans (Nat.le_add_right _ _) (ih p hp)

/-- The offset of a text makes no difference to its tokens. -/
theorem shift (h : LexesFrom pos cs ps) (pos' : Nat) :
    ∃ qs, LexesFrom pos' cs qs ∧ bare qs = bare ps := by
  induction h generalizing pos' with
  | nil => exact ⟨[], .nil, rfl⟩
  | blank hc _ ih =>
      obtain ⟨qs, hqs, hbare⟩ := ih _
      exact ⟨qs, .blank hc hqs, hbare⟩
  | token hw hgo _ ih =>
      obtain ⟨qs, hqs, hbare⟩ := ih _
      exact ⟨_, .token hw hgo hqs, by simp [hbare]⟩

theorem eq_nil (h : LexesFrom pos [] ps) : ps = [] := by
  rw [lexesFrom_iff, tokensFrom] at h
  exact (Except.ok.inj h).symm

/-- What is left of a text behind a blank. -/
theorem of_blank {c : Char} {r : List Char} (hc : isBlank c = true) (h : LexesFrom pos (c :: r) ps) :
    LexesFrom (pos + c.utf8Size) r ps := by
  rw [lexesFrom_iff, tokensFrom_blank hc] at h
  exact lexesFrom_iff.mpr h

/-- What is left of a text behind a token. -/
theorem of_token {t : Token} {w r : List Char} (hw : Lexeme t w) (hgo : t.goesOn r = false)
    (h : LexesFrom pos (w ++ r) ps) :
    ∃ qs, ps = ⟨t, pos⟩ :: qs ∧ LexesFrom (pos + byteLength w) r qs := by
  rw [lexesFrom_iff, tokensFrom_lexeme hw hgo, map_eq_ok_iff] at h
  obtain ⟨qs, hqs, rfl⟩ := h
  exact ⟨qs, rfl, lexesFrom_iff.mpr hqs⟩

end LexesFrom

/-! ## texts side by side -/

/-- Whether the text, if it is not empty, starts with a character that goes on with no token: a blank or
a closing parenthesis. -/
def startsApart (cs : List Char) : Bool := cs.head?.all fun c => isBlank c || c == ')'

theorem not_goes_of_apart {c : Char} (h : (isBlank c || c == ')') = true) :
    c ≠ '=' ∧ c ≠ '.' ∧ c.isDigit = false ∧ isNamePart c = false := by
  have hall : ∀ d ∈ ')' :: blanks, d ≠ '=' ∧ d ≠ '.' ∧ d.isDigit = false ∧ isNamePart d = false :=
    List.all_iff_forall_prop.mp (by decide +kernel)
  refine hall c ?_
  simpa [isBlank_iff, or_comm] using h

theorem startsFraction_cons (c : Char) (r : List Char) :
    startsFraction (c :: r) = (c == '.' && r.head?.any Char.isDigit) := by
  by_cases hc : c = '.'
  · subst hc
    cases r <;> rfl
  · simp [startsFraction, hc]

theorem startsFraction_append {r v : List Char} (hr : startsFraction r = false)
    (hv : startsApart v = true) : startsFraction (r ++ v) = false := by
  cases v with
  | nil => simpa using hr
  | cons c v =>
      obtain ⟨-, hdot, hdigit, -⟩ := not_goes_of_apart (by simpa [startsApart] using hv)
      rcases r with _ | ⟨d, _ | ⟨e, r⟩⟩
      · simp [startsFraction, hdot]
      · by_cases hd : d = '.' <;> simp [startsFraction, hd, hdigit]
      · by_cases hd : d = '.' <;> simp_all [startsFraction]

/-- What starts apart makes no token go on. -/
theorem goesOn_append {t : Token} {r v : List Char} (h : t.goesOn r = false)
    (hv : startsApart v = true) : t.goesOn (r ++ v) = false := by
  have hfraction : startsFraction r = false → startsFraction (r ++ v) = false :=
    fun hr => startsFraction_append hr hv
  cases r with
  | cons d r =>
      unfold Token.goesOn at *
      split <;> simp_all
  | nil =>
      cases v with
      | nil => simpa using h
      | cons c v =>
          obtain ⟨heq, -, hdigit, hname⟩ := not_goes_of_apart (by simpa [startsApart] using hv)
          unfold Token.goesOn at *
          split <;> simp_all [startsFraction]

theorem bare_append (ps qs : List Placed) : bare (ps ++ qs) = bare ps ++ bare qs :=
  List.map_append

/-- Behind a text with tokens the lexer goes on as if it started there. -/
theorem tokensFrom_append {pos : Nat} {cs v : List Char} {ps : List Placed} (h : LexesFrom pos cs ps)
    (hv : startsApart v = true) :
    tokensFrom pos (cs ++ v) = (tokensFrom (pos + byteLength cs) v).map (ps ++ ·) := by
  induction h with
  | @nil pos =>
      rw [List.nil_append, byteLength_nil, Nat.add_zero]
      cases tokensFrom pos v <;> rfl
  | blank hc _ ih =>
      rw [List.cons_append, tokensFrom_blank hc, ih, byteLength_cons, Nat.add_assoc]
  | @token pos t w r ps hw hgo _ ih =>
      rw [List.append_assoc, tokensFrom_lexeme hw (goesOn_append hgo hv), ih, byteLength_append,
        Nat.add_assoc]
      cases tokensFrom (pos + (byteLength w + byteLength r)) v <;> rfl

/-- The tokens of two texts side by side. -/
theorem LexesFrom.append {pos : Nat} {cs v : List Char} {ps qs : List Placed}
    (h : LexesFrom pos cs ps) (h' : LexesFrom (pos + byteLength cs) v qs)
    (hv : startsApart v = true) : LexesFrom pos (cs ++ v) (ps ++ qs) := by
  rw [lexesFrom_iff, tokensFrom_append h hv, lexesFrom_iff.mp h']
  rfl

/-- What is left of a text behind a part that has tokens of its own. -/
theorem LexesFrom.of_append {pos : Nat} {cs v : List Char} {ps qs : List Placed}
    (h : LexesFrom pos cs qs) (hv : startsApart v = true) (h' : LexesFrom pos (cs ++ v) ps) :
    ∃ rs, ps = qs ++ rs ∧ LexesFrom (pos + byteLength cs) v rs := by
  rw [lexesFrom_iff, tokensFrom_append h hv, map_eq_ok_iff] at h'
  obtain ⟨rs, hrs, rfl⟩ := h'
  exact ⟨rs, rfl, lexesFrom_iff.mpr hrs⟩

/-! ## blanks around a text -/

/-- The last character of a lexeme is no blank. -/
theorem isBlank_of_getLast? {t : Token} {w : List Char} {c : Char} (h : Lexeme t w)
    (hlast : w.getLast? = some c) : isBlank c = false := by
  have hblanks : ∀ b ∈ blanks, b.isDigit = false ∧ isNamePart b = false ∧ b ≠ '"' ∧
      b ∉ ['(', ')', ',', '.', '!', '&', '|', '=', '>', '<'] :=
    List.all_iff_forall_prop.mp (by decide +kernel)
  have hmem : c ∈ w := List.mem_of_getLast? hlast
  refine Bool.eq_false_iff.mpr fun hc => ?_
  obtain ⟨hdigit, hname, hquote, hsym⟩ := hblanks c (isBlank_iff.mp hc)
  cases h with
  | sym s =>
      refine hsym ?_
      rcases s with _ | _ | _ | _ | _ | _ | _ | (_ | _ | _ | _ | _ | _) <;>
        simp_all [Symbol.chars]
  | int _ hds _ => simp [hds c hmem] at hdigit
  | float _ _ hwd hpd =>
      rcases List.mem_append.mp hmem with hmem | hmem
      · simp [hwd c hmem] at hdigit
      · rcases List.mem_cons.mp hmem with rfl | hmem
        · exact hsym (by simp)
        · simp [hpd c hmem] at hdigit
  | str hbody =>
      rw [List.getLast?_cons, hbody.getLast?] at hlast
      exact hquote (Option.some.inj hlast).symm
  | ident hcs => simp [isNamePart_of_isName hcs c hmem] at hname

theorem startsFraction_of_append {r v : List Char} (h : startsFraction (r ++ v) = false) :
    startsFraction r = false := by
  rcases r with _ | ⟨c, _ | ⟨d, r⟩⟩
  · rfl
  · simp [startsFraction]
  · rw [List.cons_append, List.cons_append, startsFraction_cons] at h
    rw [startsFraction_cons]
    exact h

theorem goesOn_of_append {t : Token} {r v : List Char} (h : t.goesOn (r ++ v) = false) :
    t.goesOn r = false := by
  have hfraction : startsFraction (r ++ v) = false → startsFraction r = false :=
    startsFraction_of_append
  cases r with
  | nil => unfold Token.goesOn; split <;> rfl
  | cons d r =>
      unfold Token.goesOn at *
      split <;> simp_all

/-- Blanks are skipped. -/
theorem tokensFrom_blanks_append {pos : Nat} {v : List Char} (hv : ∀ c ∈ v, isBlank c = true)
    (cs : List Char) : tokensFrom pos (v ++ cs) = tokensFrom (pos + byteLength v) cs := by
  induction v generalizing pos with
  | nil => rfl
  | cons c v ih =>
      rw [List.cons_append, tokensFrom_blank (hv c (by simp)), ih fun d hd => hv d (by simp [hd]),
        byteLength_cons, Nat.add_assoc]

namespace LexesFrom

variable {pos : Nat} {cs v : List Char} {ps : List Placed}

/-- Blanks in front of a text. -/
theorem of_blanks_append (hv : ∀ c ∈ v, isBlank c = true) (h : LexesFrom pos (v ++ cs) ps) :
    LexesFrom (pos + byteLength v) cs ps := by
  rwa [lexesFrom_iff, tokensFrom_blanks_append hv, ← lexesFrom_iff] at h

/-- Blanks behind a text. -/
theorem of_append_blanks (hv : ∀ c ∈ v, isBlank c = true) (h : LexesFrom pos (cs ++ v) ps) :
    LexesFrom pos cs ps := by
  generalize htext : cs ++ v = text at h
  induction h generalizing cs v with
  | nil =>
      obtain ⟨rfl, -⟩ := List.append_eq_nil_iff.mp htext
      exact .nil
  | @blank pos c r ps hc h ih =>
      cases cs with
      | nil =>
          obtain rfl : v = c :: r := htext
          have hps := (ih (fun d hd => hv d (by simp [hd])) (List.nil_append r)).eq_nil
          exact hps ▸ .nil
      | cons c' cs =>
          obtain ⟨rfl, htail⟩ := List.cons.inj htext
          exact .blank hc (ih hv htail)
  | @token pos t w r ps hw hgo h ih =>
      -- the lexeme cannot reach into the blanks, since it does not end with one
      have hcut : ∃ a, cs = w ++ a ∧ a ++ v = r := by
        rcases List.append_eq_append_iff.mp htext with ⟨b, hwb, hvb⟩ | ⟨a, hcs, hr⟩
        · rcases List.eq_nil_or_concat b with rfl | ⟨b, d, rfl⟩
          · exact ⟨[], by simpa using hwb.symm, by simpa using hvb⟩
          · have hlast : w.getLast? = some d := by simp [hwb]
            have hblank : isBlank d = true := hv d (by simp [hvb])
            simp [isBlank_of_getLast? hw hlast] at hblank
        · exact ⟨a, hcs, hr.symm⟩
      obtain ⟨a, rfl, rfl⟩ := hcut
      exact .token hw (goesOn_of_append hgo) (ih hv rfl)

end LexesFrom

/-- The text has these tokens, whatever their offsets. -/
def Lexes (cs : List Char) (ts : List Token) : Prop := ∃ ps, tokens cs = .ok ps ∧ bare ps = ts

namespace Lexes

variable {cs v : List Char} {ts us : List Token}

theorem lexes_iff : Lexes cs ts ↔ ∃ ps, LexesFrom 0 cs ps ∧ bare ps = ts := by
  simp [Lexes, tokens, lexesFrom_iff]

theorem nil : Lexes [] [] := ⟨[], by simp [tokens, tokensFrom], rfl⟩

theorem blank {c : Char} (hc : isBlank c = true) (h : Lexes cs ts) : Lexes (c :: cs) ts := by
  obtain ⟨ps, hps, rfl⟩ := lexes_iff.mp h
  obtain ⟨qs, hqs, hbare⟩ := hps.shift (0 + c.utf8Size)
  exact lexes_iff.mpr ⟨qs, .blank hc hqs, hbare⟩

theorem token {t : Token} {w : List Char} (hw : Lexeme t w) (hgo : t.goesOn cs = false)
    (h : Lexes cs ts) : Lexes (w ++ cs) (t :: ts) := by
  obtain ⟨ps, hps, rfl⟩ := lexes_iff.mp h
  obtain ⟨qs, hqs, hbare⟩ := hps.shift (0 + byteLength w)
  exact lexes_iff.mpr ⟨_, .token hw hgo hqs, by simp [hbare]⟩

/-- A symbol between blanks. -/
theorem spaced (s : Symbol) (h : Lexes cs ts) :
    Lexes ([' '] ++ s.chars ++ [' '] ++ cs) (.sym s :: ts) := by
  have hgo : (Token.sym s).goesOn (' ' :: cs) = false := by
    rcases s with _ | _ | _ | _ | _ | _ | _ | (_ | _ | _ | _ | _ | _) <;> rfl
  have hsym : Lexes (s.chars ++ ' ' :: cs) (.sym s :: ts) :=
    token (.sym s) hgo (blank (by decide) h)
  simpa using blank (c := ' ') (by decide) hsym

theorem of_blank {c : Char} (hc : isBlank c = true) (h : Lexes (c :: cs) ts) : Lexes cs ts := by
  obtain ⟨ps, hps, hbare⟩ := lexes_iff.mp h
  obtain ⟨qs, hqs, hbare'⟩ := (hps.of_blank hc).shift 0
  exact lexes_iff.mpr ⟨qs, hqs, hbare'.trans hbare⟩

theorem of_token {t : Token} {w : List Char} (hw : Lexeme t w) (hgo : t.goesOn cs = false)
    (h : Lexes (w ++ cs) ts) : ∃ us, ts = t :: us ∧ Lexes cs us := by
  obtain ⟨ps, hps, rfl⟩ := lexes_iff.mp h
  obtain ⟨qs, rfl, hqs⟩ := hps.of_token hw hgo
  obtain ⟨qs', hqs', hbare⟩ := hqs.shift 0
  exact ⟨bare qs, rfl, lexes_iff.mpr ⟨qs', hqs', hbare⟩⟩

theorem append (h : Lexes cs ts) (h' : Lexes v us) (hv : startsApart v = true) :
    Lexes (cs ++ v) (ts ++ us) := by
  obtain ⟨ps, hps, rfl⟩ := lexes_iff.mp h
  obtain ⟨qs, hqs, rfl⟩ := lexes_iff.mp h'
  obtain ⟨qs', hqs', hbare⟩ := hqs.shift (0 + byteLength cs)
  exact lexes_iff.mpr ⟨ps ++ qs', hps.append hqs' hv, by rw [bare_append, hbare]⟩

/-- A text has its tokens only. -/
theorem unique (h : Lexes cs ts) (h' : Lexes cs us) : ts = us := by
  obtain ⟨ps, hps, rfl⟩ := h
  obtain ⟨qs, hqs, rfl⟩ := h'
  rw [Except.ok.inj (hps.symm.trans hqs)]

end Lexes

end ShopLens.Filter
