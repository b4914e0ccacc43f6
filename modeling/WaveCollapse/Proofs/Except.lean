import WaveCollapse.Numbers

/-! # Computations that can fail

A computation of several parts succeeds exactly when its parts do.  These lemmas take the
success of a whole apart; the parts are then facts about one definition each.
-/

namespace WaveCollapse
variable {α β ε : Type}

theorem ok_bind {a : α} {f : α → Except ε β} : (Except.ok a >>= f) = f a := rfl

theorem error_bind {e : ε} {f : α → Except ε β} : (Except.error e >>= f) = .error e := rfl

theorem bind_eq_ok_iff {x : Except ε α} {f : α → Except ε β} {b : β} :
    x >>= f = .ok b ↔ ∃ a, x = .ok a ∧ f a = .ok b := by
  cases x with
  | error e =>
    refine iff_of_false (fun h => nomatch h) ?_
    rintro ⟨a, ha, -⟩
    cases ha
  | ok a =>
    constructor
    · intro h
      exact ⟨a, rfl, h⟩
    · rintro ⟨a', ha, h⟩
      cases ha
      exact h

theorem map_eq_ok_iff {x : Except ε α} {f : α → β} {b : β} :
    x.map f = .ok b ↔ ∃ a, x = .ok a ∧ f a = b := by
  cases x with
  | error e =>
    refine iff_of_false (fun h => nomatch h) ?_
    rintro ⟨a, ha, -⟩
    cases ha
  | ok a =>
    constructor
    · intro h
      cases h
      exact ⟨a, rfl, rfl⟩
    · rintro ⟨a', ha, rfl⟩
      cases ha
      rfl

theorem map_eq_error_iff {x : Except ε α} {f : α → β} {e : ε} :
    x.map f = .error e ↔ x = .error e := by
  cases x with
  | error e' =>
    unfold Except.map
    rw [Except.error.injEq, Except.error.injEq]
  | ok a => exact iff_of_false (fun h => nomatch h) (fun h => nomatch h)

theorem mapError_eq_ok_iff {δ : Type} {x : Except ε α} {f : ε → δ} {a : α} :
    x.mapError f = .ok a ↔ x = .ok a := by
  cases x with
  | error e => exact iff_of_false (fun h => nomatch h) (fun h => nomatch h)
  | ok b =>
    unfold Except.mapError
    rw [Except.ok.injEq, Except.ok.injEq]

theorem toOption_eq_some_iff {x : Except ε α} {a : α} : x.toOption = some a ↔ x = .ok a := by
  cases x with
  | error e => exact iff_of_false (fun h => nomatch h) (fun h => nomatch h)
  | ok b =>
    unfold Except.toOption
    rw [Option.some.injEq, Except.ok.injEq]

/-- A list of checks succeeds exactly when each of them does. -/
theorem forM_eq_ok_iff {f : α → Except ε Unit} {xs : List α} :
    xs.forM f = .ok () ↔ ∀ x ∈ xs, f x = .ok () := by
  induction xs with
  | nil => exact ⟨fun _ x hx => (List.not_mem_nil hx).elim, fun _ => rfl⟩
  | cons a xs ih =>
    rw [List.forall_mem_cons, ← ih]
    show (f a >>= fun _ => xs.forM f) = .ok () ↔ _
    rw [bind_eq_ok_iff]
    exact ⟨fun ⟨_, ha, h⟩ => ⟨ha, h⟩, fun ⟨ha, h⟩ => ⟨(), ha, h⟩⟩

/-- A list of checks fails with the error of the first that does. -/
theorem forM_eq_error_iff {f : α → Except ε Unit} {xs : List α} {e : ε} :
    xs.forM f = .error e ↔ ∃ before x after, xs = before ++ x :: after ∧
      (∀ y ∈ before, f y = .ok ()) ∧ f x = .error e := by
  induction xs with
  | nil =>
    refine iff_of_false (fun h => nomatch h) ?_
    rintro ⟨before, x, after, h, -⟩
    cases before <;> cases h
  | cons a xs ih =>
    show (f a >>= fun _ => xs.forM f) = .error e ↔ _
    cases ha : f a with
    | error e' =>
      show Except.error e' = .error e ↔ _
      constructor
      · rintro ⟨⟩
        exact ⟨[], a, xs, rfl, fun y hy => (List.not_mem_nil hy).elim, ha⟩
      · rintro ⟨before, x, after, h, hbefore, hx⟩
        cases before with
        | nil =>
          cases h
          exact ha.symm.trans hx
        | cons b before =>
          -- what stands first would have to pass
          cases h
          cases ha.symm.trans (hbefore a List.mem_cons_self)
    | ok u =>
      show xs.forM f = .error e ↔ _
      rw [ih]
      constructor
      · rintro ⟨before, x, after, rfl, hbefore, hx⟩
        exact ⟨a :: before, x, after, rfl, List.forall_mem_cons.mpr ⟨ha, hbefore⟩, hx⟩
      · rintro ⟨before, x, after, h, hbefore, hx⟩
        cases before with
        | nil =>
          cases h
          cases ha.symm.trans hx
        | cons b before =>
          cases h
          exact ⟨before, x, after, rfl, (List.forall_mem_cons.mp hbefore).2, hx⟩

/-- What every step keeps is kept by the whole fold. -/
theorem foldlM_invariant {P : β → Prop} {f : β → α → Except ε β} {xs : List α}
    (kept : ∀ b, ∀ x ∈ xs, ∀ b', P b → f b x = .ok b' → P b') {b b' : β} (hb : P b)
    (h : xs.foldlM f b = .ok b') : P b' := by
  induction xs generalizing b with
  | nil =>
    cases h
    exact hb
  | cons x xs ih =>
    rw [List.foldlM_cons] at h
    obtain ⟨c, hc, h⟩ := bind_eq_ok_iff.mp h
    exact ih (fun b y hy => kept b y (List.mem_cons_of_mem x hy))
      (kept b x List.mem_cons_self c hb hc) h

/-- A fold reaches a value with `P` exactly when it starts at one and every element passes `Q`,
if that is what one step does. -/
theorem exists_foldlM_ok_iff {P : β → Prop} {Q : α → Prop} {f : β → α → Except ε β} {xs : List α}
    (step : ∀ b, ∀ x ∈ xs, (∃ b', f b x = .ok b' ∧ P b') ↔ P b ∧ Q x) (b : β) :
    (∃ b', xs.foldlM f b = .ok b' ∧ P b') ↔ P b ∧ ∀ x ∈ xs, Q x := by
  induction xs generalizing b with
  | nil =>
    constructor
    · rintro ⟨b', h, hb'⟩
      cases h
      exact ⟨hb', fun x hx => (List.not_mem_nil hx).elim⟩
    · rintro ⟨hb, -⟩
      exact ⟨b, rfl, hb⟩
  | cons x xs ih =>
    have rest := ih fun b y hy => step b y (List.mem_cons_of_mem x hy)
    rw [List.forall_mem_cons, ← and_assoc, ← step b x List.mem_cons_self]
    simp only [List.foldlM_cons, bind_eq_ok_iff]
    constructor
    · rintro ⟨b', ⟨c, hc, h⟩, hb'⟩
      obtain ⟨hPc, hQ⟩ := (rest c).mp ⟨b', h, hb'⟩
      exact ⟨⟨c, hc, hPc⟩, hQ⟩
    · rintro ⟨⟨c, hc, hPc⟩, hQ⟩
      obtain ⟨b', h, hb'⟩ := (rest c).mpr ⟨hPc, hQ⟩
      exact ⟨b', ⟨c, hc, h⟩, hb'⟩

/-- What `mapM` gives when no call fails: one result an element, in order. -/
theorem getElem?_of_mapM_ok {f : α → Except ε β} {xs : List α} {ys : List β}
    (h : xs.mapM f = .ok ys) :
    ys.length = xs.length ∧
      ∀ (i : Nat) (y : β), ys[i]? = some y → ∃ x, xs[i]? = some x ∧ f x = .ok y := by
  induction xs generalizing ys with
  | nil =>
    cases h
    exact ⟨rfl, fun i y hy => by simp at hy⟩
  | cons x xs ih =>
    rw [List.mapM_cons, bind_eq_ok_iff] at h
    obtain ⟨z, hx, h⟩ := h
    obtain ⟨zs, hxs, h⟩ := bind_eq_ok_iff.mp h
    cases h
    obtain ⟨hlen, hget⟩ := ih hxs
    refine ⟨by rw [List.length_cons, List.length_cons, hlen], fun i y hy => ?_⟩
    cases i with
    | zero =>
      rw [List.getElem?_cons_zero] at hy ⊢
      exact ⟨x, rfl, Option.some.inj hy ▸ hx⟩
    | succ i => exact hget i y hy

theorem mapM_eq_ok_of_forall {f : α → Except ε β} {g : α → β} {xs : List α}
    (h : ∀ x ∈ xs, f x = .ok (g x)) : xs.mapM f = .ok (xs.map g) := by
  induction xs with
  | nil => rfl
  | cons x xs ih =>
    rw [List.mapM_cons, h x List.mem_cons_self, ih fun y hy => h y (List.mem_cons_of_mem x hy)]
    rfl

/-- The results of a `mapM` whose calls give, if anything, the values of a plain function. -/
theorem eq_map_of_mapM_ok {f : α → Except ε β} {g : α → β} {xs : List α} {ys : List β}
    (hf : ∀ x ∈ xs, ∀ y, f x = .ok y → g x = y) (h : xs.mapM f = .ok ys) : xs.map g = ys := by
  induction xs generalizing ys with
  | nil =>
    cases h
    rfl
  | cons x xs ih =>
    rw [List.mapM_cons, bind_eq_ok_iff] at h
    obtain ⟨y, hy, h⟩ := h
    obtain ⟨zs, hzs, h⟩ := bind_eq_ok_iff.mp h
    cases h
    rw [List.map_cons, hf x List.mem_cons_self y hy,
      ih (fun z hz => hf z (List.mem_cons_of_mem x hz)) hzs]

theorem tabulate_eq {n : Nat} {f : Nat → Checked α} {g : Nat → α}
    (h : ∀ i < n, f i = .ok (g i)) : Word.tabulate n f = .ok (Array.ofFn fun i : Fin n => g i) := by
  have harray : ((List.range n).map g).toArray = Array.ofFn fun i : Fin n => g i := by
    refine Array.ext (by simp) fun i _ _ => ?_
    simp
  unfold Word.tabulate
  rw [mapM_eq_ok_of_forall fun i hi => h i (List.mem_range.mp hi), ← harray]
  rfl

/-- A `mapM` succeeds exactly when each of its calls does. -/
theorem exists_mapM_ok_iff {f : α → Except ε β} {xs : List α} :
    (∃ ys, xs.mapM f = .ok ys) ↔ ∀ x ∈ xs, ∃ y, f x = .ok y := by
  induction xs with
  | nil => exact ⟨fun _ x hx => (List.not_mem_nil hx).elim, fun _ => ⟨[], rfl⟩⟩
  | cons x xs ih =>
    rw [List.forall_mem_cons, ← ih]
    simp only [List.mapM_cons, bind_eq_ok_iff]
    constructor
    · rintro ⟨ys, y, hx, zs, hxs, -⟩
      exact ⟨⟨y, hx⟩, zs, hxs⟩
    · rintro ⟨⟨y, hx⟩, zs, hxs⟩
      exact ⟨y :: zs, y, hx, zs, hxs, rfl⟩

/-- Each element of a `mapM` that succeeds has its result in the same place. -/
theorem getElem?_mapM_ok {f : α → Except ε β} {xs : List α} {ys : List β}
    (h : xs.mapM f = .ok ys) {i : Nat} {x : α} (hx : xs[i]? = some x) :
    ∃ y, ys[i]? = some y ∧ f x = .ok y := by
  obtain ⟨hlen, hget⟩ := getElem?_of_mapM_ok h
  have hi : i < ys.length := hlen ▸ (List.getElem?_eq_some_iff.mp hx).1
  obtain ⟨x', hx', hfx⟩ := hget i ys[i] (List.getElem?_eq_getElem hi)
  cases hx.symm.trans hx'
  exact ⟨ys[i], List.getElem?_eq_getElem hi, hfx⟩

theorem mem_of_mapM_ok {f : α → Except ε β} {xs : List α} {ys : List β}
    (h : xs.mapM f = .ok ys) {y : β} (hy : y ∈ ys) : ∃ x ∈ xs, f x = .ok y := by
  obtain ⟨i, hi⟩ := List.mem_iff_getElem?.mp hy
  obtain ⟨x, hx, hfx⟩ := (getElem?_of_mapM_ok h).2 i y hi
  exact ⟨x, List.mem_of_getElem? hx, hfx⟩

theorem exists_mem_of_mapM_ok {f : α → Except ε β} {xs : List α} {ys : List β}
    (h : xs.mapM f = .ok ys) {x : α} (hx : x ∈ xs) : ∃ y ∈ ys, f x = .ok y := by
  obtain ⟨i, hi⟩ := List.mem_iff_getElem?.mp hx
  obtain ⟨y, hy, hfx⟩ := getElem?_mapM_ok h hi
  exact ⟨y, List.mem_of_getElem? hy, hfx⟩

/-- A failed `mapM` has the error of one of its calls. -/
theorem exists_of_mapM_error {f : α → Except ε β} {xs : List α} {e : ε}
    (h : xs.mapM f = .error e) : ∃ x ∈ xs, f x = .error e := by
  induction xs with
  | nil => cases h
  | cons x xs ih =>
    rw [List.mapM_cons] at h
    cases hx : f x with
    | error e' =>
      rw [hx] at h
      cases h
      exact ⟨x, List.mem_cons_self, hx⟩
    | ok z =>
      cases hxs : xs.mapM f with
      | error e' =>
        rw [hx, hxs] at h
        cases h
        obtain ⟨y, hy, hfy⟩ := ih hxs
        exact ⟨y, List.mem_cons_of_mem _ hy, hfy⟩
      | ok zs =>
        rw [hx, hxs] at h
        cases h

/-! ## Looking up and reading one by one -/

/-- An element is found by its key where keys do not repeat. -/
theorem find?_key {α κ : Type} [DecidableEq κ] {key : α → κ} {l : List α}
    (h : (l.map key).Nodup) {a : α} (ha : a ∈ l) : l.find? (key · == key a) = some a := by
  induction l with
  | nil => cases ha
  | cons b l ih =>
    rw [List.map_cons, List.nodup_cons] at h
    rcases List.mem_cons.mp ha with rfl | ha
    · exact List.find?_cons_of_pos (beq_self_eq_true _)
    · have hne : key b ≠ key a := fun heq => h.1 (heq ▸ List.mem_map_of_mem ha)
      rw [List.find?_cons_of_neg (by simpa using hne)]
      exact ih h.2 ha

/-- Reading undoes writing for a list when it does so for each element. -/
theorem mapM_map_eq_some {f : β → Option α} {g : α → β} {xs : List α}
    (h : ∀ x ∈ xs, f (g x) = some x) : (xs.map g).mapM f = some xs := by
  induction xs with
  | nil => rfl
  | cons x xs ih =>
    rw [List.map_cons, List.mapM_cons, h x List.mem_cons_self,
      ih fun y hy => h y (List.mem_cons_of_mem x hy)]
    rfl

/-- Every result was read from one of the elements. -/
theorem exists_of_mem_mapM_some {f : α → Option β} {xs : List α} {ys : List β}
    (h : xs.mapM f = some ys) {y : β} (hy : y ∈ ys) : ∃ x ∈ xs, f x = some y := by
  induction xs generalizing ys with
  | nil =>
    cases h
    cases hy
  | cons x xs ih =>
    rw [List.mapM_cons] at h
    obtain ⟨z, hz, h⟩ := Option.bind_eq_some_iff.mp h
    obtain ⟨zs, hzs, h⟩ := Option.bind_eq_some_iff.mp h
    cases h
    rcases List.mem_cons.mp hy with rfl | hy
    · exact ⟨x, List.mem_cons_self, hz⟩
    · obtain ⟨x', hx', hfx⟩ := ih hzs hy
      exact ⟨x', List.mem_cons_of_mem x hx', hfx⟩

end WaveCollapse
