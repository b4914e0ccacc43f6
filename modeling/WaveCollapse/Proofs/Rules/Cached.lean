import WaveCollapse.Proofs.Except
import WaveCollapse.Proofs.Rules.Admitted
import WaveCollapse.Rules.Cache

/-! # Cached answers

A mask that the cache gives out has the template's own layout and exactly the states that its
pure state admits (`MaskCache.mask?_spec`), because masks are only made for classes that have
states, under a stride that every such class fits.  The union over the components of a wave is
then what the wave admits; where one mask is missing, or the wave has no component, the answer
does not come from the masks at all.  So the cache answers every question as the rules would
(`MaskCache.allowed_eq`), whatever the layouts of the question.

In words the number of all states is multiplied out first.  If it is a word, so are the states of
every class, and the masks are those of the plain cache; every class that has a mask then lies
within the words, so what comes from the masks is what the rules compute, and what does not is
computed by the rules (`MaskCache.checkedAllowed_eq`).
-/

namespace WaveCollapse

/-! ## Filling -/

namespace MaskCache
variable {r : Rules} {stride : Nat} {m : MaskCache}

theorem mem_usedClasses {c : Nat} : c ∈ usedClasses r ↔ c < r.classCount ∧ 0 < r.classWidth c := by
  unfold usedClasses
  rw [List.mem_filter, List.mem_range, decide_eq_true_eq]

/-- What a filled cache holds, and what was checked for it. -/
theorem of_fill (h : fill r stride = .ok m) :
    m = { stride
          masks := Array.ofFn fun (t : Fin r.typeCount) =>
            Array.ofFn fun (x : Fin (r.classCount * stride)) =>
              Array.ofFn fun (c : Fin r.classCount) => entry r stride t x c } ∧
      (0 < r.typeCount → ∀ c < r.classCount, 0 < r.classWidth c → (layout r stride c).Valid) := by
  unfold fill at h
  by_cases hzero : r.typeCount = 0
  · rw [if_pos hzero] at h
    cases h
    exact ⟨rfl, fun hpos => absurd hzero (Nat.pos_iff_ne_zero.mp hpos)⟩
  · rw [if_neg hzero] at h
    cases hchecked : (usedClasses r).forM fun c => (layout r stride c).check with
    | error e =>
      rw [hchecked] at h
      cases h
    | ok u =>
      rw [hchecked] at h
      cases h
      refine ⟨rfl, fun _ c hc hwidth => ?_⟩
      have hused := mem_usedClasses.mpr ⟨hc, hwidth⟩
      exact Layout.check_eq_ok_iff.mp (forM_eq_ok_iff.mp hchecked c hused)

/-- A cache can be filled when all classes with states fit. -/
theorem fill_isOk (h : ∀ c < r.classCount, 0 < r.classWidth c → (layout r stride c).Valid) :
    ∃ m, fill r stride = .ok m := by
  have hchecked : ((usedClasses r).forM fun c => (layout r stride c).check) = .ok () := by
    refine forM_eq_ok_iff.mpr fun c hc => ?_
    obtain ⟨hlt, hwidth⟩ := mem_usedClasses.mp hc
    exact Layout.check_eq_ok_iff.mpr (h c hlt hwidth)
  unfold fill
  rw [hchecked]
  by_cases hzero : r.typeCount = 0
  · rw [if_pos hzero]
    exact ⟨_, rfl⟩
  · rw [if_neg hzero]
    exact ⟨_, rfl⟩

/-! ## Single states -/

/-- The mask of a state: a class with states and a state of some class, both of which fit. -/
theorem entry_spec (hvalid : ∀ c < r.classCount, 0 < r.classWidth c → (layout r stride c).Valid)
    {t x c : Nat} (hx : x < r.classCount * stride) (hc : c < r.classCount) {w : Wave}
    (h : entry r stride t x c = some w) :
    w.WellFormed ∧ w.layout = layout r stride c ∧
      ∀ y, y ∈ w ↔ y ∈ (layout r stride c).states ∧ r.allows x t y = true := by
  unfold entry at h
  dsimp only at h
  split at h
  · next hentry =>
    cases h
    obtain ⟨hwidth, hoff⟩ := hentry
    obtain ⟨i, hi⟩ := Option.isSome_iff_exists.mp hoff
    obtain ⟨hlt, hstate⟩ := Layout.offset?_eq_some_iff.mp hi
    have hsource : x / stride < r.classCount := Nat.div_lt_of_lt_mul (Nat.mul_comm _ _ ▸ hx)
    have hpos : 0 < r.classWidth (x / stride) := Nat.lt_of_le_of_lt (Nat.zero_le i) hlt
    have hreadable : (Wave.empty (layout r stride (x / stride))).Readable :=
      (hvalid _ hsource hpos).2.1
    have hmem : ∀ s, s ∈ (Wave.empty (layout r stride (x / stride))).add x ↔ s = x := by
      intro s
      have hstates : x ∈ (layout r stride (x / stride)).states :=
        Layout.mem_states.mpr ⟨by omega, by omega⟩
      rw [Wave.mem_add hreadable hstates]
      exact ⟨fun hs => hs.resolve_right (Wave.not_mem_empty _), .inl⟩
    have htarget : (Wave.empty (layout r stride c)).layout.Valid := hvalid c hc hwidth
    obtain ⟨hwf, hlayout, hspec⟩ := admitted_spec r.allows
      ((Wave.empty (layout r stride (x / stride))).add x) t htarget
    refine ⟨hwf, hlayout, fun y => (hspec y).trans ⟨?_, ?_⟩⟩
    · rintro ⟨hy, s, hs, ha⟩
      rw [(hmem s).mp hs] at ha
      exact ⟨hy, ha⟩
    · rintro ⟨hy, ha⟩
      exact ⟨hy, x, (hmem x).mpr rfl, ha⟩
  · cases h

/-- A mask is given out for a type, a state and a class in range, under the stride and the width
that the cache was made for. -/
theorem mask?_eq_some (hm : fill r stride = .ok m) {x t : Nat} {template w : Wave}
    (h : m.mask? x t template = some w) :
    t < r.typeCount ∧ x < r.classCount * stride ∧ template.layout.classId < r.classCount ∧
      entry r stride t x template.layout.classId = some w ∧
      template.layout.stride = stride ∧ w.layout.width = template.layout.width := by
  obtain ⟨rfl, -⟩ := of_fill hm
  unfold mask? at h
  split at h
  · next hstride =>
    simp only [Option.bind_eq_bind, Option.bind_eq_some_iff] at h
    obtain ⟨row, hrow, column, hcolumn, found, hfound, mask, hmask, hwidth⟩ := h
    obtain ⟨ht, rfl⟩ := Array.getElem?_eq_some_iff.mp hrow
    rw [Array.getElem_ofFn] at hcolumn
    obtain ⟨hx, rfl⟩ := Array.getElem?_eq_some_iff.mp hcolumn
    rw [Array.getElem_ofFn] at hfound
    obtain ⟨hc, rfl⟩ := Array.getElem?_eq_some_iff.mp hfound
    rw [Array.getElem_ofFn] at hmask
    rw [Array.size_ofFn] at ht hx hc
    split at hwidth
    · next hsame =>
      cases hwidth
      exact ⟨ht, hx, hc, hmask, hstride, hsame⟩
    · cases hwidth
  · cases h

/-- A mask has the template's layout, a valid one, and the states of its class that the pure
state allows. -/
theorem mask?_spec (hm : fill r stride = .ok m) {x t : Nat} {template w : Wave}
    (h : m.mask? x t template = some w) :
    template.layout.Valid ∧ w.WellFormed ∧ w.layout = template.layout ∧
      ∀ y, y ∈ w ↔ y ∈ template.layout.states ∧ r.allows x t y = true := by
  obtain ⟨ht, hx, hc, hentry, hstride, hwidth⟩ := mask?_eq_some hm h
  have hvalid := (of_fill hm).2 (Nat.lt_of_le_of_lt (Nat.zero_le t) ht)
  obtain ⟨hwf, hlayout, hmem⟩ := entry_spec hvalid hx hc hentry
  have hsame : layout r stride template.layout.classId = template.layout := by
    have hclass : r.classWidth template.layout.classId = template.layout.width := by
      rw [hlayout] at hwidth
      exact hwidth
    unfold layout
    rw [hclass, ← hstride]
  rw [hsame] at hlayout hmem
  exact ⟨hlayout ▸ hwf.1, hwf, hlayout, hmem⟩

/-! ## Waves -/

/-- The union of the masks of some states. -/
theorem foldl_union_masks (hm : fill r stride = .ok m) {t : Nat} {template : Wave}
    {sources : List Nat} {masks : List Wave}
    (h : sources.mapM (fun s => m.mask? s t template) = some masks) {acc : Wave}
    (hacc : acc.WellFormed) (hl : acc.layout = template.layout) :
    (masks.foldl Wave.union acc).WellFormed ∧
      (masks.foldl Wave.union acc).layout = template.layout ∧
      ∀ y, y ∈ masks.foldl Wave.union acc ↔
        y ∈ acc ∨ y ∈ template.layout.states ∧ ∃ s ∈ sources, r.allows s t y = true := by
  induction sources generalizing masks acc with
  | nil =>
    cases h
    exact ⟨hacc, hl, fun y => by simp⟩
  | cons s sources ih =>
    rw [List.mapM_cons] at h
    obtain ⟨w, hw, h⟩ := Option.bind_eq_some_iff.mp h
    obtain ⟨rest, hrest, h⟩ := Option.bind_eq_some_iff.mp h
    cases h
    obtain ⟨-, hwf, hlayout, hmem⟩ := mask?_spec hm hw
    have hsame : acc.layout = w.layout := hl.trans hlayout.symm
    obtain ⟨hwf', hl', hmem'⟩ := ih hrest (hacc.union hwf) ((Wave.layout_union acc w).trans hl)
    refine ⟨hwf', hl', fun y => ?_⟩
    rw [List.foldl_cons, hmem', Wave.mem_union hsame, hmem]
    simp only [List.mem_cons, exists_eq_or_imp]
    constructor
    · rintro ((hy | ⟨hy, ha⟩) | ⟨hy, hs⟩)
      · exact .inl hy
      · exact .inr ⟨hy, .inl ha⟩
      · exact .inr ⟨hy, .inr hs⟩
    · rintro (hy | ⟨hy, ha | hs⟩)
      · exact .inl (.inl hy)
      · exact .inl (.inr ⟨hy, ha⟩)
      · exact .inr ⟨hy, hs⟩

/-- **A filled cache answers every question as the rules would.** -/
theorem allowed_eq (hm : fill r stride = .ok m) (x : Wave) (t : Nat) (template : Wave) :
    m.allowed r x t template = admitted r.allows x t template := by
  unfold allowed
  cases hmasks : x.components.mapM fun s => m.mask? s t template with
  | none => rfl
  | some masks =>
    cases hx : x.components with
    | nil =>
      rw [hx] at hmasks
      cases hmasks
      exact (admitted_of_components_nil r.allows hx t template).symm
    | cons s sources =>
      -- the first mask already tells that the template's layout is valid
      have hvalid : template.layout.Valid := by
        rw [hx, List.mapM_cons] at hmasks
        obtain ⟨w, hw, -⟩ := Option.bind_eq_some_iff.mp hmasks
        exact (mask?_spec hm hw).1
      have hempty : template.emptied.WellFormed := Wave.wellFormed_empty hvalid
      obtain ⟨hwf, hlayout, hmem⟩ := foldl_union_masks hm hmasks hempty rfl
      obtain ⟨hwf', hlayout', hmem'⟩ := admitted_spec r.allows x t hvalid
      refine hwf.ext hwf' (hlayout.trans hlayout'.symm) fun y => ?_
      rw [hmem, hmem', or_iff_right (show y ∉ template.emptied from Wave.not_mem_empty _)]
      rfl

/-! ## In words -/

section Words
variable (hspace : r.classCount * stride < twoTo 64)
include hspace

theorem checkedEntry_eq
    (hvalid : ∀ c < r.classCount, 0 < r.classWidth c → (layout r stride c).Valid) {t x c : Nat}
    (hx : x < r.classCount * stride) (hc : c < r.classCount) :
    checkedEntry r stride t x c = .ok (entry r stride t x c) := by
  unfold checkedEntry entry
  dsimp only
  split
  · next hentry =>
    obtain ⟨hwidth, hoff⟩ := hentry
    obtain ⟨i, hi⟩ := Option.isSome_iff_exists.mp hoff
    have hsource : x / stride < r.classCount := Nat.div_lt_of_lt_mul (Nat.mul_comm _ _ ▸ hx)
    have hpos : 0 < r.classWidth (x / stride) :=
      Nat.lt_of_le_of_lt (Nat.zero_le i) (Layout.offset?_eq_some_iff.mp hi).1
    have hl := hvalid _ hsource hpos
    have hin := hl.inWord hsource hspace
    let source := Wave.empty (layout r stride (x / stride))
    have hadd : source.checkedAdd x = .ok (source.add x) :=
      Wave.checkedAdd_eq (w := source) hl.2.1 hin x
    have hlayout : (source.add x).layout = layout r stride (x / stride) := Wave.layout_add _ _
    have hreadable : (source.add x).Readable := by
      unfold Wave.Readable
      rw [hlayout]
      exact hl.2.1
    have hcomponents := Wave.checkedComponents_eq hreadable (by rw [hlayout]; exact hin)
    have htarget := hvalid c hc hwidth
    have htemplate : (Wave.empty (layout r stride c)).Readable := htarget.2.1
    rw [hadd, ok_bind, checkedAdmitted_eq r.allows t hcomponents htemplate
      (htarget.inWord hc hspace)]
    rfl
  · rfl

/-- **A cache is filled in words** as soon as the number of all states is one. -/
theorem checkedFill_eq : checkedFill r stride = .ok (fill r stride) := by
  unfold checkedFill
  rw [Word.mul_of_lt hspace, ok_bind]
  cases hfill : fill r stride with
  | error e =>
    dsimp only
    rw [map_eq_error_iff.mp hfill]
    rfl
  | ok m =>
    obtain ⟨u, hfits, -⟩ := map_eq_ok_iff.mp hfill
    obtain ⟨rfl, hvalid⟩ := of_fill hfill
    dsimp only
    rw [hfits]
    dsimp only
    rw [tabulate_eq fun t ht => tabulate_eq fun x hx => tabulate_eq fun c hc =>
      checkedEntry_eq hspace (hvalid (Nat.lt_of_le_of_lt (Nat.zero_le t) ht)) hx hc]
    rfl

end Words

theorem checkedFill_eq_ok_iff {o : Except LayoutError MaskCache} :
    checkedFill r stride = .ok o ↔ r.classCount * stride < twoTo 64 ∧ fill r stride = o := by
  constructor
  · intro h
    obtain ⟨_, hspace, -⟩ := bind_eq_ok_iff.mp h
    have hspace := (Word.check_eq_ok_iff.mp hspace).1
    rw [checkedFill_eq hspace] at h
    exact ⟨hspace, Except.ok.inj h⟩
  · rintro ⟨hspace, rfl⟩
    exact checkedFill_eq hspace

/-- **In words too a filled cache answers as the rules would**, if the template's states can be
listed: with the same wave, or by stopping where they stop. -/
theorem checkedAllowed_eq (hm : checkedFill r stride = .ok (.ok m)) (x : Wave) (t : Nat)
    {template : Wave} {candidates : List Nat}
    (hstates : template.layout.checkedStates = .ok candidates) :
    m.checkedAllowed r x t template = checkedAdmitted r.allows x t template := by
  obtain ⟨hspace, hm⟩ := checkedFill_eq_ok_iff.mp hm
  unfold checkedAllowed
  cases hx : x.checkedComponents with
  | error f =>
    unfold checkedAdmitted
    rw [hstates, ok_bind, hx]
    rfl
  | ok sources =>
    rw [ok_bind]
    obtain ⟨-, -, -, rfl⟩ := Wave.checkedComponents_eq_ok_iff.mp hx
    cases hmasks : x.components.mapM fun s => m.mask? s t template with
    | none => rfl
    | some masks =>
      cases hcomponents : x.components with
      | nil =>
        rw [hcomponents] at hmasks
        cases hmasks
        unfold checkedAdmitted
        rw [hstates, ok_bind, hx, ok_bind, hcomponents]
        rfl
      | cons s sources =>
        -- the first mask tells that the template's class is one of the cache's own
        have hmask : ∃ w, m.mask? s t template = some w := by
          rw [hcomponents, List.mapM_cons] at hmasks
          obtain ⟨w, hw, -⟩ := Option.bind_eq_some_iff.mp hmasks
          exact ⟨w, hw⟩
        obtain ⟨w, hw⟩ := hmask
        obtain ⟨-, -, hc, -, hstride, -⟩ := mask?_eq_some hm hw
        obtain ⟨hvalid, -, -, -⟩ := mask?_spec hm hw
        have hin : template.layout.InWord := hvalid.inWord hc (hstride ▸ hspace)
        have hplain := allowed_eq hm x t template
        unfold allowed at hplain
        rw [hmasks] at hplain
        rw [checkedAdmitted_eq r.allows t hx hvalid.2.1 hin, ← hplain]
        rfl

end MaskCache

/-- Cached rules differ from the rules they were made from in how they answer only. -/
theorem Rules.cached_eq {r q : Rules} {stride : Nat} (h : r.cached stride = .ok q) :
    q = { r with allowed := admitted r.allows } := by
  unfold Rules.cached at h
  cases hm : MaskCache.fill r stride with
  | error e =>
    rw [hm] at h
    cases h
  | ok m =>
    rw [hm] at h
    cases h
    have hanswers : m.allowed r = admitted r.allows := by
      funext x t template
      exact MaskCache.allowed_eq hm x t template
    show { r with allowed := m.allowed r } = _
    rw [hanswers]

end WaveCollapse
