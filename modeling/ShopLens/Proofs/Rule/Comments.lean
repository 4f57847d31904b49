import ShopLens.Rule.Comments

/-!
# ShopLens.Proofs.Rule.Comments

Texts without comments. A comment is told by what stands before it, a quote by the character before it:
a `Scan` reads a text from left to right and stops where a comment starts.

* `stripFrom_eq_self_iff` — removing comments leaves a text as it is just when the scan reads all of it;
* `stripComments_stripComments` — once removed, the comments stay removed, unless the text has a
  backslash right before `/*`: what stood behind the comment then stands behind the backslash.
-/

namespace ShopLens.Rule

/-! ## removing comments -/

/-- Removing comments leaves some of the characters. -/
theorem stripFrom_sublist (region : Region) (escaped : Bool) (cs : List Char) :
    (stripFrom region escaped cs).Sublist cs := by
  fun_induction stripFrom region escaped cs with
  | case1 => exact .slnil
  | case2 _ r ih => exact ih.cons_cons _
  | case3 _ c r hc ih => exact ih.cons c
  | case4 _ r ih => exact (ih.cons _).cons _
  | case5 _ c r hc ih => exact ih.cons c
  | case6 _ r ih => exact (ih.cons _).cons _
  | case7 _ r ih => exact (ih.cons _).cons _
  | case8 region escaped c r _ _ _ _ _ ih => exact ih.cons_cons c

theorem stripComments_sublist (cs : List Char) : (stripComments cs).Sublist cs :=
  stripFrom_sublist _ _ cs

/-! ## scanning for comments -/

/-- What matters of a character for the next one. -/
inductive Mark where
  | backslash
  | slash
  | other
deriving DecidableEq

/-- The mark of a character. -/
def Mark.of (c : Char) : Mark :=
  if c = '\\' then .backslash else if c = '/' then .slash else .other

/-- What is known behind a text in which no comment starts. -/
structure Scan where
  /-- Whether the text ends within a literal. -/
  literal : Bool
  /-- The mark of its last character. -/
  mark : Mark
deriving DecidableEq

namespace Scan

/-- What is known before any text. -/
def start : Scan := ⟨false, .other⟩

/-- Whether a comment starts between the text that was read and the one that follows. -/
def Opens (s : Scan) (cs : List Char) : Prop :=
  s.literal = false ∧ s.mark = .slash ∧ (cs.head? = some '/' ∨ cs.head? = some '*')

instance (s : Scan) (cs : List Char) : Decidable (s.Opens cs) := by
  unfold Opens
  infer_instance

/-- What is known behind one more character, unless a comment starts with it. -/
def step (s : Scan) (c : Char) : Option Scan :=
  if s.Opens [c] then none
  else some ⟨if c = '"' ∧ s.mark ≠ .backslash then !s.literal else s.literal, .of c⟩

/-- What is known behind a text, unless a comment starts in it. -/
def run (s : Scan) (cs : List Char) : Option Scan := cs.foldlM step s

@[simp] theorem run_nil (s : Scan) : s.run [] = some s := rfl

@[simp] theorem run_cons (s : Scan) (c : Char) (r : List Char) :
    s.run (c :: r) = (s.step c).bind (·.run r) := rfl

theorem run_append (s : Scan) (a b : List Char) : s.run (a ++ b) = (s.run a).bind (·.run b) :=
  List.foldlM_append

/-- The region in which the text goes on. -/
def region (s : Scan) : Region := if s.literal then .literal else .code

/-- Whether a backslash stands before what follows. -/
def escaped (s : Scan) : Bool := s.mark == .backslash

theorem opens_cons_iff (s : Scan) (c : Char) (r : List Char) : s.Opens (c :: r) ↔ s.Opens [c] :=
  Iff.rfl

/-- What is known behind one more character. -/
theorem step_spec {s s' : Scan} {c : Char} (h : s.step c = some s') : ¬s.Opens [c] ∧
    s'.region = s.region.after s.escaped c ∧ s'.escaped = (c == '\\') ∧ s'.mark = .of c := by
  unfold step at h
  split at h
  · contradiction
  · next hopens =>
      obtain rfl := Option.some.inj h
      refine ⟨hopens, ?_, ?_, rfl⟩
      · obtain ⟨literal, mark⟩ := s
        cases literal <;> by_cases hc : c = '"' <;> cases mark <;>
          simp [region, escaped, Region.after, hc]
      · by_cases hc : c = '\\'
        · simp [escaped, Mark.of, hc]
        · by_cases hslash : c = '/'
          · simp [escaped, Mark.of, hslash]
          · rw [beq_false_of_ne hc, escaped, Mark.of, if_neg hc, if_neg hslash]
            rfl

theorem exists_step {s : Scan} {c : Char} (h : ¬s.Opens [c]) : ∃ s', s.step c = some s' :=
  ⟨_, if_neg h⟩

theorem region_eq_code_iff {s : Scan} : s.region = .code ↔ s.literal = false := by
  cases h : s.literal <;> simp [region, h]

theorem region_cases (s : Scan) : s.region = .code ∨ s.region = .literal := by
  cases h : s.literal <;> simp [region, h]

theorem eq_slash_of_mark {c : Char} (h : Mark.of c = .slash) : c = '/' := by
  unfold Mark.of at h
  split at h
  · contradiction
  · split at h
    · assumption
    · contradiction

/-- A comment starts where a slash of code has a slash or a star behind it. -/
theorem opens_iff_of_step {s s' : Scan} {c : Char} (h : s.step c = some s') (r : List Char) :
    s'.Opens r ↔ s.region = .code ∧ c = '/' ∧ (r.head? = some '/' ∨ r.head? = some '*') := by
  obtain ⟨-, hregion, -, hmark⟩ := step_spec h
  rw [Opens, ← region_eq_code_iff, hregion, hmark]
  constructor
  · rintro ⟨hcode, hslash, hhead⟩
    obtain rfl := eq_slash_of_mark hslash
    exact ⟨by simpa [Region.after] using hcode, rfl, hhead⟩
  · rintro ⟨hcode, rfl, hhead⟩
    exact ⟨by simpa [Region.after] using hcode, rfl, hhead⟩

end Scan

/-- A character stays if no comment starts with it. -/
theorem stripFrom_cons {s s' : Scan} {c : Char} {r : List Char} (h : s.step c = some s')
    (hopens : ¬s'.Opens r) :
    stripFrom s.region s.escaped (c :: r) = c :: stripFrom s'.region s'.escaped r := by
  obtain ⟨-, hregion, hescaped, -⟩ := Scan.step_spec h
  rw [Scan.opens_iff_of_step h] at hopens
  rw [stripFrom, hregion, hescaped]
  · rcases s.region_cases with h | h <;> simp [h]
  · rcases s.region_cases with h | h <;> simp [h]
  · rcases s.region_cases with h | h <;> simp [h]
  · rintro r' hcode rfl rfl
    exact hopens ⟨hcode, rfl, .inl rfl⟩
  · rintro r' hcode rfl rfl
    exact hopens ⟨hcode, rfl, .inr rfl⟩

/-- A comment goes away with the slash that it starts with. -/
theorem stripFrom_ne_cons {s s' : Scan} {c : Char} {r : List Char} (h : s.step c = some s')
    (hopens : s'.Opens r) : stripFrom s.region s.escaped (c :: r) ≠ c :: r := by
  obtain ⟨hcode, rfl, hhead⟩ := (Scan.opens_iff_of_step h r).mp hopens
  obtain ⟨d, r', rfl⟩ : ∃ d r', r = d :: r' := by
    cases r with
    | nil => simp at hhead
    | cons d r' => exact ⟨d, r', rfl⟩
  have hlength {region : Region} (heq : stripFrom region false r' = '/' :: d :: r') : False := by
    have hle := (stripFrom_sublist region false r').length_le
    rw [heq] at hle
    simp only [List.length_cons] at hle
    omega
  rw [hcode]
  rcases hhead with hd | hd <;> obtain rfl := Option.some.inj hd
  · rw [stripFrom]
    exact hlength
  · rw [stripFrom]
    exact hlength

/-- **Removing comments leaves a text as it is just when the scan reads all of it.** -/
theorem stripFrom_eq_self_iff (s : Scan) (cs : List Char) :
    stripFrom s.region s.escaped cs = cs ∧ ¬s.Opens cs ↔ (s.run cs).isSome = true := by
  induction cs generalizing s with
  | nil => simp [stripFrom, Scan.Opens]
  | cons c r ih =>
      by_cases hopens : s.Opens [c]
      · have hstep : s.step c = none := if_pos hopens
        simp [hstep, s.opens_cons_iff, hopens]
      · obtain ⟨s', hstep⟩ := Scan.exists_step hopens
        rw [Scan.run_cons, hstep, Option.bind_some, ← ih s', s.opens_cons_iff]
        by_cases hopens' : s'.Opens r
        · simp [stripFrom_ne_cons hstep hopens', hopens']
        · simp [stripFrom_cons hstep hopens', hopens, hopens']

theorem stripComments_eq_self_iff (cs : List Char) :
    stripComments cs = cs ↔ (Scan.start.run cs).isSome = true := by
  have hopens : ¬Scan.start.Opens cs := by simp [Scan.Opens, Scan.start]
  rw [← stripFrom_eq_self_iff, and_iff_left hopens]
  rfl

theorem Scan.isSome_run_of_not_mem {s : Scan} {cs : List Char} (hs : s.mark ≠ .slash)
    (h : '/' ∉ cs) : (s.run cs).isSome = true := by
  induction cs generalizing s with
  | nil => rfl
  | cons c r ih =>
      simp only [List.mem_cons, not_or] at h
      obtain ⟨s', hstep⟩ := exists_step (c := c) fun hopens : s.Opens [c] => hs hopens.2.1
      rw [run_cons, hstep, Option.bind_some]
      refine ih (fun hslash => h.1 ?_) h.2
      rw [(step_spec hstep).2.2.2] at hslash
      exact (eq_slash_of_mark hslash).symm

/-- A text without slashes has no comments. -/
theorem stripComments_of_not_mem {cs : List Char} (h : '/' ∉ cs) : stripComments cs = cs :=
  (stripComments_eq_self_iff cs).mpr (Scan.isSome_run_of_not_mem (by decide) h)

/-! ## removing comments twice -/

/-- No backslash stands right before the start of a block comment; `escaped` says whether one stands
before the text. -/
structure Apart (escaped : Bool) (cs : List Char) : Prop where
  inside : ¬['\\', '/', '*'] <:+: cs
  before : escaped = true → ¬['/', '*'] <+: cs

theorem Apart.tail {escaped : Bool} {c : Char} {r : List Char} (h : Apart escaped (c :: r)) :
    Apart (c == '\\') r where
  inside hr := h.inside (hr.trans (List.suffix_cons c r).isInfix)
  before hc hr := by
    obtain rfl : c = '\\' := by simpa using hc
    exact h.inside (List.prefix_cons_inj '\\' |>.mpr hr).isInfix

theorem Apart.of_suffix {escaped : Bool} {cs r : List Char} (h : Apart escaped cs)
    (hr : r <:+ cs) : Apart false r :=
  ⟨fun hinside => h.inside (hinside.trans hr.isInfix), by simp⟩

/-- What the scan of the text without comments knows where the text goes on in a region. -/
def Scan.Fits (s : Scan) (escaped : Bool) (cs : List Char) : Region → Prop
  | .lineComment => s.literal = false
  | .blockComment => s = .start
  | region => s.region = region ∧ s.escaped = escaped ∧ ¬s.Opens cs

theorem Scan.not_opens_start (cs : List Char) : ¬start.Opens cs := by simp [Opens, start]

/-- The scan reads all that removing comments leaves. -/
theorem isSome_run_stripFrom {region : Region} {escaped : Bool} {cs : List Char} {s : Scan}
    (hfits : s.Fits escaped cs region) (h : Apart escaped cs) :
    (s.run (stripFrom region escaped cs)).isSome = true := by
  fun_induction stripFrom region escaped cs generalizing s with
  | case1 => rfl
  | case2 _ r ih =>
      have hstep : s.step '\n' = some .start := by
        obtain ⟨literal, mark⟩ := s
        obtain rfl : literal = false := hfits
        simp [Scan.step, Scan.Opens, Scan.start, Mark.of]
      rw [Scan.run_cons, hstep, Option.bind_some]
      exact ih ⟨rfl, rfl, Scan.not_opens_start r⟩ (h.of_suffix (List.suffix_cons _ r))
  | case3 _ c r hc ih => exact ih hfits (h.of_suffix (List.suffix_cons c r))
  | case4 _ r ih =>
      obtain rfl : s = .start := hfits
      exact ih ⟨rfl, rfl, Scan.not_opens_start r⟩ (h.of_suffix ⟨['*', '/'], rfl⟩)
  | case5 _ c r hc ih => exact ih hfits (h.of_suffix (List.suffix_cons c r))
  | case6 _ r ih =>
      exact ih (Scan.region_eq_code_iff.mp hfits.1) (h.of_suffix ⟨['/', '/'], rfl⟩)
  | case7 escaped r ih =>
      obtain ⟨hcode, hescaped, hopens⟩ := hfits
      refine ih ?_ (h.of_suffix ⟨['/', '*'], rfl⟩)
      -- the text without the comment goes on behind what stands before it
      have hbackslash : s.escaped = false := by
        rw [hescaped]
        exact Bool.eq_false_iff.mpr fun htrue => h.before htrue ⟨r, rfl⟩
      obtain ⟨literal, mark⟩ := s
      obtain rfl : literal = false := Scan.region_eq_code_iff.mp hcode
      cases mark with
      | backslash => contradiction
      | slash => exact absurd ⟨rfl, rfl, .inl rfl⟩ hopens
      | other => rfl
  | case8 region escaped c r hline _ hblock hslashes hstar ih =>
      have hfits' : s.region = region ∧ s.escaped = escaped ∧ ¬s.Opens (c :: r) := by
        cases region <;> first | contradiction | exact hfits
      obtain ⟨rfl, rfl, hopens⟩ := hfits'
      obtain ⟨s', hstep⟩ := Scan.exists_step hopens
      obtain ⟨-, hregion, hescaped, hmark⟩ := Scan.step_spec hstep
      rw [Scan.run_cons, hstep, Option.bind_some]
      rw [← hregion, ← hescaped] at ih ⊢
      have hopens' : ¬s'.Opens r := by
        rw [Scan.opens_iff_of_step hstep]
        rintro ⟨hcode, rfl, hhead⟩
        cases r with
        | nil => simp at hhead
        | cons d r' =>
            rcases hhead with hd | hd <;> obtain rfl := Option.some.inj hd
            · exact hslashes r' hcode rfl rfl
            · exact hstar r' hcode rfl rfl
      refine ih ?_ ?_
      · rcases s'.region_cases with hr | hr <;> rw [hr] <;> exact ⟨hr, rfl, hopens'⟩
      · rw [hescaped]
        exact h.tail

/-- Once comments are removed, removing them again changes nothing, unless a backslash stands right
before a block comment. -/
theorem stripComments_stripComments {cs : List Char} (h : ¬['\\', '/', '*'] <:+: cs) :
    stripComments (stripComments cs) = stripComments cs :=
  (stripComments_eq_self_iff _).mpr
    (isSome_run_stripFrom ⟨rfl, rfl, Scan.not_opens_start cs⟩ ⟨h, by simp⟩)

end ShopLens.Rule
