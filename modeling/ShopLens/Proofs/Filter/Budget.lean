import ShopLens.Proofs.Filter.Reading

/-!
# ShopLens.Proofs.Filter.Budget

When a budget of disjunctions is enough. A parser settles for another one where both return the same
and the budget has not run out (`Settles`). Every level of the grammar passes this on from the parser
of what it encloses, provided that what is enclosed leaves room for that parser; `Room` says what a
measure of room has to do, and each measure that does it gives an enough budget.

* `exprWithin_settles_length` — a budget greater than the number of tokens, whatever they are.
-/

namespace ShopLens.Filter

/-- One parser returns what the other one returns wherever there is room, and does not run out of its
budget there. -/
def Settles (room : Nat → List Token → Prop) (p p' : Parser Expr) : Prop :=
  ∀ depth ts, room depth (bare ts) → p' depth ts = p depth ts ∧ p depth ts ≠ .error .exhausted

/-- A measure of the room there is: `level` for a parser of the grammar, `inside` for the parser of
what it encloses. -/
structure Room (level inside : Nat → List Token → Prop) : Prop where
  /-- There is no room above the nesting limit. -/
  le : ∀ {depth ts}, level depth ts → depth ≤ maxNesting
  /-- What is enclosed needs more room. -/
  level_of_inside : ∀ {depth ts}, inside depth ts → level depth ts
  /-- Reading on leaves room for a parser. -/
  level_of_append : ∀ {depth} us {ts}, level depth (us ++ ts) → level depth ts
  /-- Reading on leaves room for what is enclosed. -/
  inside_of_append : ∀ {depth} us {ts}, inside depth (us ++ ts) → inside depth ts
  /-- A level deeper there is room for what is enclosed. -/
  deeper : ∀ {depth t ts}, level depth (t :: ts) → depth < maxNesting → inside (depth + 1) ts
  /-- There is room for the arguments of a function. -/
  call : ∀ {depth name kind ts}, level depth (.ident name :: .sym .lparen :: ts) →
    function? name = some kind → ts.head? ≠ some (.sym .rparen) → inside depth ts

/-- Reading on leaves room for a parser. -/
theorem Room.level_of_read {level inside : Nat → List Token → Prop} (room : Room level inside)
    {depth : Nat} {ts rest : List Placed} {read : List Token} (h : level depth (bare ts))
    (hread : bare ts = read ++ bare rest) : level depth (bare rest) :=
  room.level_of_append read (hread ▸ h)

section Levels

variable {level inside : Nat → List Token → Prop} {inner inner' : Parser Expr} {stop : Nat}

/-! ## what is left -/

theorem argumentsFrom_rest (hi : Reads (.chain .or) inner) {depth : Nat} {ts : List Placed}
    {q : Parsed (List Expr) ts.length} (hd : depth ≤ maxNesting)
    (h : argumentsFrom inner stop depth ts = .ok q) : ∃ read, bare ts = read ++ bare q.rest := by
  fun_induction argumentsFrom inner stop depth ts with
  | case1 => contradiction
  | case2 ts p hp pos r hr =>
      obtain rfl := Except.ok.inj h
      obtain ⟨_, _, read, hread, -⟩ := hi _ _ _ hd hp
      exact ⟨read ++ [.sym .rparen], by simp [hread, hr]⟩
  | case3 => contradiction
  | case4 ts p hp pos r hr q' hq' ih =>
      obtain rfl := Except.ok.inj h
      obtain ⟨_, _, read, hread, -⟩ := hi _ _ _ hd hp
      obtain ⟨read', hread'⟩ := ih hq'
      exact ⟨read ++ .sym .comma :: read', by simp [hread, hr, hread']⟩
  | case5 => contradiction

theorem arguments_rest (hi : Reads (.chain .or) inner) {depth : Nat} {ts : List Placed}
    {q : Parsed (List Expr) ts.length} (hd : depth ≤ maxNesting)
    (h : arguments inner stop depth ts = .ok q) : ∃ read, bare ts = read ++ bare q.rest := by
  unfold arguments at h
  split at h
  · obtain rfl := Except.ok.inj h
    exact ⟨[.sym .rparen], rfl⟩
  · exact argumentsFrom_rest hi hd h

theorem method_rest (hi : Reads (.chain .or) inner) {depth : Nat} {target : Expr}
    {ts : List Placed} {q : Parsed Expr ts.length} (hd : depth ≤ maxNesting)
    (h : method inner stop depth target ts = .ok q) : ∃ read, bare ts = read ++ bare q.rest := by
  unfold method at h
  split at h
  · next name _ r =>
      split at h
      · contradiction
      · split at h
        · next r' =>
            split at h
            · contradiction
            · next p hp =>
                obtain ⟨read, hread⟩ := arguments_rest hi hd hp
                split at h
                · obtain rfl := Except.ok.inj h
                  exact ⟨.ident name :: .sym .lparen :: read, by simp [hread]⟩
                · contradiction
        · contradiction
  · contradiction

/-! ## arguments -/

variable (stop)

theorem argumentsFrom_settles (room : Room level inside) (hi : Reads (.chain .or) inner)
    (hs : Settles inside inner inner') {depth : Nat} {ts : List Placed}
    (h : inside depth (bare ts)) :
    argumentsFrom inner' stop depth ts = argumentsFrom inner stop depth ts ∧
      argumentsFrom inner stop depth ts ≠ .error .exhausted := by
  have hd := room.le (room.level_of_inside h)
  obtain ⟨heq, hne⟩ := hs _ _ h
  fun_induction argumentsFrom inner stop depth ts with
  | case1 ts e he =>
      rw [argumentsFrom, heq, he]
      simp_all
  | case2 ts p hp pos r hr =>
      rw [argumentsFrom, heq, hp]
      grind
  | case3 ts p hp pos r hr e he ih =>
      rw [argumentsFrom, heq, hp]
      obtain ⟨_, _, read, hread, -⟩ := hi _ _ _ hd hp
      have hr' : inside depth (bare r) :=
        room.inside_of_append (read ++ [.sym .comma]) (by simpa [hread, hr] using h)
      obtain ⟨heq', hne'⟩ := hs _ _ hr'
      have := ih hr' heq' hne'
      grind
  | case4 ts p hp pos r hr q' hq' ih =>
      rw [argumentsFrom, heq, hp]
      obtain ⟨_, _, read, hread, -⟩ := hi _ _ _ hd hp
      have hr' : inside depth (bare r) :=
        room.inside_of_append (read ++ [.sym .comma]) (by simpa [hread, hr] using h)
      obtain ⟨heq', hne'⟩ := hs _ _ hr'
      have := ih hr' heq' hne'
      grind
  | case5 =>
      rw [argumentsFrom, heq]
      grind [fault]

theorem arguments_settles (room : Room level inside) (hi : Reads (.chain .or) inner)
    (hs : Settles inside inner inner') {depth : Nat} {ts : List Placed}
    (h : (bare ts).head? ≠ some (.sym .rparen) → inside depth (bare ts)) :
    arguments inner' stop depth ts = arguments inner stop depth ts ∧
      arguments inner stop depth ts ≠ .error .exhausted := by
  unfold arguments
  split
  · simp
  · next hne =>
      refine argumentsFrom_settles stop room hi hs (h fun hhead => ?_)
      obtain ⟨us, hus⟩ := List.head?_eq_some_iff.mp hhead
      obtain ⟨⟨t, pos⟩, r, rfl, rfl, -⟩ := List.map_eq_cons_iff.mp hus
      exact hne pos r rfl

/-! ## operands -/

theorem named_settles (room : Room level inside) (hi : Reads (.chain .or) inner)
    (hs : Settles inside inner inner') {depth : Nat} {name : String} {ts : List Placed}
    (h : level depth (.ident name :: bare ts)) :
    named inner' stop depth name ts = named inner stop depth name ts ∧
      named inner stop depth name ts ≠ .error .exhausted := by
  unfold named
  split
  · simp
  · split
    · next pos r =>
        split
        · simp
        · next kind hk =>
            obtain ⟨heq, hne⟩ := arguments_settles stop room hi hs
              (room.call h hk)
            rw [heq]
            grind
    · simp

theorem enclosed_settles (room : Room level inside) (hs : Settles inside inner inner')
    (pos : Nat) {depth : Nat} {ts : List Placed} (h : level depth (.sym .lparen :: bare ts)) :
    enclosed inner' stop pos depth ts = enclosed inner stop pos depth ts ∧
      enclosed inner stop pos depth ts ≠ .error .exhausted := by
  unfold enclosed
  split
  · next hd =>
      obtain ⟨heq, hne⟩ := hs _ _ (room.deeper h hd)
      rw [heq]
      grind [fault]
  · simp [fault]

theorem atom_settles (room : Room level inside) (hi : Reads (.chain .or) inner)
    (hs : Settles inside inner inner') : Settles level (atom inner stop) (atom inner' stop) := by
  intro depth ts h
  unfold atom
  split
  · simp [fault]
  · simp
  · simp
  · simp
  · exact named_settles stop room hi hs h
  · next pos r =>
      obtain ⟨heq, hne⟩ := enclosed_settles stop room hs pos h
      rw [heq]
      grind
  · simp [fault]

theorem method_settles (room : Room level inside) (hi : Reads (.chain .or) inner)
    (hs : Settles inside inner inner') (target : Expr) {depth : Nat} {ts : List Placed}
    (h : inside depth (bare ts)) :
    method inner' stop depth target ts = method inner stop depth target ts ∧
      method inner stop depth target ts ≠ .error .exhausted := by
  unfold method
  split
  · next name pos r =>
      split
      · simp
      · split
        · next pos' r' =>
            obtain ⟨heq, hne⟩ := arguments_settles stop room hi hs
              fun _ => room.inside_of_append [.ident name, .sym .lparen] h
            rw [heq]
            grind
        · simp [fault]
  · simp [fault]

theorem methodsFrom_settles (room : Room level inside) (hi : Reads (.chain .or) inner)
    (hs : Settles inside inner inner') (target : Expr) {depth : Nat} {ts : List Placed}
    (h : level depth (bare ts)) :
    methodsFrom inner' stop depth target ts = methodsFrom inner stop depth target ts ∧
      methodsFrom inner stop depth target ts ≠ .error .exhausted := by
  fun_induction methodsFrom inner stop depth target ts with
  | case1 depth target pos r hd e he =>
      have := method_settles stop room hi hs target (room.deeper h hd)
      grind [methodsFrom]
  | case2 depth target pos r hd p hp e he ih =>
      have hr : inside (depth + 1) (bare r) := room.deeper h hd
      have := method_settles stop room hi hs target hr
      obtain ⟨read, hread⟩ := method_rest hi hd hp
      have := ih (room.level_of_read (room.level_of_inside hr) hread)
      grind [methodsFrom]
  | case3 depth target pos r hd p hp q hq ih =>
      have hr : inside (depth + 1) (bare r) := room.deeper h hd
      have := method_settles stop room hi hs target hr
      obtain ⟨read, hread⟩ := method_rest hi hd hp
      have := ih (room.level_of_read (room.level_of_inside hr) hread)
      grind [methodsFrom]
  | case4 => grind [methodsFrom, fault]
  | case5 => grind [methodsFrom]

theorem operand_settles (room : Room level inside) (hi : Reads (.chain .or) inner)
    (hs : Settles inside inner inner') :
    Settles level (operand inner stop) (operand inner' stop) := by
  intro depth ts h
  obtain ⟨heq, hne⟩ := atom_settles stop room hi hs depth ts h
  unfold operand
  rw [heq]
  cases hp : atom inner stop depth ts with
  | error e => simp_all
  | ok p =>
      obtain ⟨_, _, read, hread, -⟩ := atom_reads hi _ _ _ (room.le h) hp
      obtain ⟨heq', hne'⟩ := methodsFrom_settles stop room hi hs p.value
        (room.level_of_read h hread)
      simp only [heq']
      grind

/-! ## operators -/

theorem comparison_settles (room : Room level inside) (hi : Reads (.chain .or) inner)
    (hs : Settles inside inner inner') :
    Settles level (comparison inner stop) (comparison inner' stop) := by
  intro depth ts h
  obtain ⟨heq, hne⟩ := operand_settles stop room hi hs depth ts h
  unfold comparison
  rw [heq]
  cases hp : operand inner stop depth ts with
  | error e => simp_all
  | ok p =>
      obtain ⟨_, _, read, hread, -⟩ := operand_reads hi _ _ _ (room.le h) hp
      dsimp only
      split
      · next op pos r hr =>
          obtain ⟨heq', hne'⟩ := operand_settles stop room hi hs depth r
            (room.level_of_append (read ++ [.sym (.cmp op)]) (by simpa [hread, hr] using h))
          rw [heq']
          grind
      · simp

theorem negation_settles (room : Room level inside) (hi : Reads (.chain .or) inner)
    (hs : Settles inside inner inner') :
    Settles level (negation inner stop) (negation inner' stop) := by
  intro depth ts h
  fun_induction negation inner stop depth ts with
  | case1 depth pos r hd e he ih =>
      have := ih (room.level_of_inside (room.deeper h hd))
      grind [negation]
  | case2 depth pos r hd p hp ih =>
      have := ih (room.level_of_inside (room.deeper h hd))
      grind [negation]
  | case3 => grind [negation, fault]
  | case4 depth ts hne =>
      have := comparison_settles stop room hi hs depth ts h
      grind [negation]

theorem linksFrom_settles (room : Room level inside) {form : Form} (op : Symbol)
    (join : Expr → Expr → Expr) {link link' : Parser Expr} (hl : Reads form link)
    (hs : Settles level link link') (left : Expr) {depth : Nat} {ts : List Placed}
    (h : level depth (bare ts)) :
    linksFrom stop op join link' depth left ts = linksFrom stop op join link depth left ts ∧
      linksFrom stop op join link depth left ts ≠ .error .exhausted := by
  fun_induction linksFrom stop op join link depth left ts with
  | case1 => grind [linksFrom]
  | case2 depth left t r ht hd e he =>
      have := hs _ _ (room.level_of_inside (room.deeper h hd))
      grind [linksFrom]
  | case3 depth left t r ht hd p hp e he ih =>
      have hr : level (depth + 1) (bare r) := room.level_of_inside (room.deeper h hd)
      have := hs _ _ hr
      obtain ⟨_, _, read, hread, -⟩ := hl _ _ _ hd hp
      have := ih (room.level_of_read hr hread)
      grind [linksFrom]
  | case4 depth left t r ht hd p hp q hq ih =>
      have hr : level (depth + 1) (bare r) := room.level_of_inside (room.deeper h hd)
      have := hs _ _ hr
      obtain ⟨_, _, read, hread, -⟩ := hl _ _ _ hd hp
      have := ih (room.level_of_read hr hread)
      grind [linksFrom]
  | case5 => grind [linksFrom, fault]
  | case6 => grind [linksFrom]

theorem chain_settles (room : Room level inside) {form : Form} {op : Symbol}
    {join : Expr → Expr → Expr} {link link' : Parser Expr} (hl : Reads form link)
    (hs : Settles level link link') :
    Settles level (chain stop op join link) (chain stop op join link') := by
  intro depth ts h
  obtain ⟨heq, hne⟩ := hs depth ts h
  unfold chain
  rw [heq]
  cases hp : link depth ts with
  | error e => simp_all
  | ok p =>
      obtain ⟨_, _, read, hread, -⟩ := hl _ _ _ (room.le h) hp
      obtain ⟨heq', hne'⟩ := linksFrom_settles stop room op join hl hs p.value
        (room.level_of_read h hread)
      simp only [heq']
      grind

end Levels

/-! ## budgets -/

variable (stop : Nat)

/-- A measure of room that a budget goes down with makes the budget enough: any greater one gives the
same. -/
theorem exprWithin_settles {level : Nat → Nat → List Token → Prop}
    (zero : ∀ {depth ts}, ¬ level 0 depth ts)
    (succ : ∀ budget, Room (level (budget + 1)) (level budget)) {budget budget' : Nat}
    (h : budget ≤ budget') :
    Settles (level budget) (exprWithin stop budget) (exprWithin stop budget') := by
  induction budget generalizing budget' with
  | zero => exact fun _ _ hroom => (zero hroom).elim
  | succ budget ih =>
      obtain ⟨budget', rfl⟩ : ∃ b, budget' = b + 1 := ⟨budget' - 1, by omega⟩
      have hs : Settles (level budget) (exprWithin stop budget) (exprWithin stop budget') :=
        ih (by omega)
      have hi : Reads (.chain .or) (exprWithin stop budget) := exprWithin_reads budget
      have room := succ budget
      have hn : Reads .negation (negation (exprWithin stop budget) stop) := negation_reads hi
      have hand : Settles (level (budget + 1)) (conjunction (exprWithin stop budget) stop)
          (conjunction (exprWithin stop budget') stop) :=
        chain_settles stop room hn (negation_settles stop room hi hs)
      exact chain_settles stop room (chain_reads (k := .and) hn) hand

/-- Fewer tokens than some number, at a level that may be counted. -/
def Fewer (bound depth : Nat) (ts : List Token) : Prop := depth ≤ maxNesting ∧ ts.length < bound

/-- A budget greater than the number of tokens is enough: whatever is enclosed is shorter than the
tokens around it. -/
theorem exprWithin_settles_length {budget budget' : Nat} (h : budget ≤ budget') :
    Settles (Fewer budget) (exprWithin stop budget) (exprWithin stop budget') := by
  refine exprWithin_settles stop (by simp [Fewer]) (fun b => ?_) h
  constructor <;> grind [Fewer]

end ShopLens.Filter
