import Mathlib.Data.List.Nodup
import Mathlib.Logic.Relator
import WaveCollapse.Proofs.Except
import WaveCollapse.RuleFile.Basic

/-! # Partners among the connection types

The pairs of a rule file make positions of its list of types partners, each pair in both
directions (`Partners`).  `dualsOf` notes partners in an array and refuses a second one for the
same position.  Against any relation that gives a position one partner at most, a pair is noted
within the relation exactly when the array was within it before and the pair belongs to it
(`Within.pair_iff`).  Taken against what the array holds in the end this makes the notes complete,
taken against the pairs themselves it makes them sound: the duals settle exactly when every
position has one partner (`dualsOf_isOk_iff`), and they are the partners then
(`dualsOf_eq_some_iff`).
-/

namespace WaveCollapse.RuleFile

/-- The pair of names makes the positions `a` and `b` partners; a name stands for its first
position. -/
def Joins (types : List String) (pair : String × String) (a b : Nat) : Prop :=
  (types.idxOf? pair.1 = some a ∧ types.idxOf? pair.2 = some b) ∨
    (types.idxOf? pair.1 = some b ∧ types.idxOf? pair.2 = some a)

/-- Some pair makes `a` and `b` partners. -/
def Partners (types : List String) (pairs : List (String × String)) (a b : Nat) : Prop :=
  ∃ pair ∈ pairs, Joins types pair a b

variable {types : List String} {pairs : List (String × String)}

/-! ## Positions of names -/

theorem typeIndex_eq_ok_iff {name : String} {t : Nat} :
    typeIndex types name = .ok t ↔ types.idxOf? name = some t := by
  show _ ↔ types.findIdx? (· == name) = some t
  unfold typeIndex
  cases types.findIdx? (· == name) with
  | none => exact iff_of_false (fun h => nomatch h) (fun h => nomatch h)
  | some i => rw [Except.ok.injEq, Option.some.injEq]

theorem exists_typeIndex_ok_iff {name : String} :
    (∃ t, typeIndex types name = .ok t) ↔ name ∈ types := by
  simp only [typeIndex_eq_ok_iff]
  rw [← Option.isSome_iff_exists, List.isSome_idxOf?]

theorem getElem?_of_idxOf? {name : String} {t : Nat} (h : types.idxOf? name = some t) :
    types[t]? = some name := by
  obtain ⟨ht, hname, -⟩ := List.idxOf?_eq_some_iff.mp h
  rw [List.getElem?_eq_getElem ht, hname]

theorem typeIndex_eq_ok {name : String} {t : Nat} (h : typeIndex types name = .ok t) :
    types[t]? = some name :=
  getElem?_of_idxOf? (typeIndex_eq_ok_iff.mp h)

theorem idxOf?_of_getElem? (h : types.Nodup) {name : String} {t : Nat}
    (hname : types[t]? = some name) : types.idxOf? name = some t := by
  obtain ⟨ht, hat⟩ := List.getElem?_eq_some_iff.mp hname
  refine List.idxOf?_eq_some_iff.mpr ⟨ht, hat, fun i hit heq => ?_⟩
  exact Nat.ne_of_lt hit (h.getElem_inj_iff.mp (heq.trans hat.symm))

/-! ## Partners -/

theorem Partners.symm {a b : Nat} (h : Partners types pairs a b) : Partners types pairs b a := by
  obtain ⟨pair, hpair, hab | hba⟩ := h
  · exact ⟨pair, hpair, .inr hab⟩
  · exact ⟨pair, hpair, .inl hba⟩

/-- Partners are positions of names that are paired. -/
theorem Partners.names {a b : Nat} (h : Partners types pairs a b) :
    ∃ na nb, types.idxOf? na = some a ∧ types.idxOf? nb = some b ∧
      ((na, nb) ∈ pairs ∨ (nb, na) ∈ pairs) := by
  obtain ⟨⟨n, m⟩, hpair, ⟨ha, hb⟩ | ⟨hb, ha⟩⟩ := h
  · exact ⟨n, m, ha, hb, .inl hpair⟩
  · exact ⟨m, n, ha, hb, .inr hpair⟩

/-- A position that repeats an earlier name has no partner, so the names differ when every
position has one. -/
theorem nodup_of_partners (h : ∀ a < types.length, ∃ b, Partners types pairs a b) :
    types.Nodup := by
  rw [List.nodup_iff_getElem?_ne_getElem?]
  intro i j hij hj heq
  obtain ⟨b, hb⟩ := h j hj
  obtain ⟨name, -, hname, -⟩ := hb.names
  obtain ⟨_, hat, hfirst⟩ := List.idxOf?_eq_some_iff.mp hname
  rw [List.getElem?_eq_getElem hj, List.getElem?_eq_getElem (Nat.lt_trans hij hj),
    Option.some.injEq] at heq
  exact hfirst i hij (heq.trans hat)

/-! ## Noting -/

theorem size_pairOne {noted noted' : Array (Option Nat)} {a b : Nat}
    (h : pairOne types noted a b = .ok noted') : noted'.size = noted.size := by
  unfold pairOne at h
  split at h
  · split at h
    · cases h
      rfl
    · cases h
  · cases h
    exact Array.size_setIfInBounds

theorem size_pair {noted noted' : Array (Option Nat)} {names : String × String}
    (h : pair types noted names = .ok noted') : noted'.size = noted.size := by
  unfold pair at h
  obtain ⟨a, -, h⟩ := bind_eq_ok_iff.mp h
  obtain ⟨b, -, h⟩ := bind_eq_ok_iff.mp h
  obtain ⟨between, hbetween, h⟩ := bind_eq_ok_iff.mp h
  exact (size_pairOne h).trans (size_pairOne hbetween)

/-- The array has a place for each type and notes nothing outside the relation. -/
def Within (types : List String) (S : Nat → Nat → Prop) (noted : Array (Option Nat)) : Prop :=
  noted.size = types.length ∧ ∀ (a b : Nat), noted[a]? = some (some b) → S a b

/-- What the array notes. -/
def Noted (noted : Array (Option Nat)) (a b : Nat) : Prop := noted[a]? = some (some b)

theorem Noted.rightUnique (noted : Array (Option Nat)) : Relator.RightUnique (Noted noted) := by
  intro a b c hb hc
  cases hb.symm.trans hc
  rfl

variable {S : Nat → Nat → Prop}

theorem Within.pairOne_iff (hS : Relator.RightUnique S) {a : Nat} (ha : a < types.length) (b : Nat)
    (noted : Array (Option Nat)) :
    (∃ noted', pairOne types noted a b = .ok noted' ∧ Within types S noted') ↔
      Within types S noted ∧ S a b := by
  unfold pairOne
  cases hat : noted.getD a none with
  | some c =>
    have hnoted : noted[a]? = some (some c) := by
      rw [Array.getD_eq_getD_getElem?] at hat
      cases hget : noted[a]? with
      | none =>
        rw [hget] at hat
        cases hat
      | some o =>
        rw [hget] at hat
        cases hat
        rfl
    dsimp only
    constructor
    · rintro ⟨noted', hok, hwithin⟩
      split at hok
      · next hcb =>
        cases hok
        exact ⟨hwithin, hcb ▸ hwithin.2 a c hnoted⟩
      · cases hok
    · rintro ⟨hwithin, hab⟩
      exact ⟨noted, if_pos (hS (hwithin.2 a c hnoted) hab), hwithin⟩
  | none =>
    dsimp only
    -- the new note is at a place that was free, so it hides none
    have hset : Within types S (noted.setIfInBounds a (some b)) ↔ Within types S noted ∧ S a b := by
      unfold Within
      rw [Array.size_setIfInBounds, and_assoc]
      refine and_congr_right fun hsize => ?_
      simp only [Array.getElem?_setIfInBounds]
      constructor
      · intro h
        refine ⟨fun c d hcd => ?_, h a b (by rw [if_pos rfl, if_pos (hsize ▸ ha)])⟩
        refine h c d ?_
        have hne : a ≠ c := by
          rintro rfl
          rw [Array.getD_eq_getD_getElem?, hcd] at hat
          cases hat
        rwa [if_neg hne]
      · rintro ⟨h, hab⟩ c d hcd
        by_cases hac : a = c
        · subst hac
          rw [if_pos rfl, if_pos (hsize ▸ ha)] at hcd
          cases hcd
          exact hab
        · rw [if_neg hac] at hcd
          exact h c d hcd
    rw [← hset]
    constructor
    · rintro ⟨noted', hok, hwithin⟩
      cases hok
      exact hwithin
    · exact fun hwithin => ⟨_, rfl, hwithin⟩

/-- A pair is noted exactly when its names are known and it belongs to the relation. -/
theorem Within.pair_iff (hS : Relator.RightUnique S) (names : String × String)
    (noted : Array (Option Nat)) :
    (∃ noted', pair types noted names = .ok noted' ∧ Within types S noted') ↔
      Within types S noted ∧ (names.1 ∈ types ∧ names.2 ∈ types) ∧
        ∀ a b, Joins types names a b → S a b := by
  unfold pair
  simp only [bind_eq_ok_iff, typeIndex_eq_ok_iff]
  constructor
  · rintro ⟨noted', ⟨a, ha, b, hb, between, hbetween, hlast⟩, hwithin⟩
    obtain ⟨hta, -⟩ := List.idxOf?_eq_some_iff.mp ha
    obtain ⟨htb, -⟩ := List.idxOf?_eq_some_iff.mp hb
    obtain ⟨hmid, hba⟩ := (Within.pairOne_iff hS htb a between).mp ⟨noted', hlast, hwithin⟩
    obtain ⟨hstart, hab⟩ := (Within.pairOne_iff hS hta b noted).mp ⟨between, hbetween, hmid⟩
    refine ⟨hstart, ⟨List.isSome_idxOf?.mp (ha ▸ rfl), List.isSome_idxOf?.mp (hb ▸ rfl)⟩, ?_⟩
    rintro c d (⟨hc, hd⟩ | ⟨hd, hc⟩)
    · cases ha.symm.trans hc
      cases hb.symm.trans hd
      exact hab
    · cases ha.symm.trans hd
      cases hb.symm.trans hc
      exact hba
  · rintro ⟨hstart, ⟨hknown, hknown'⟩, hjoins⟩
    obtain ⟨a, ha⟩ := Option.isSome_iff_exists.mp (List.isSome_idxOf?.mpr hknown)
    obtain ⟨b, hb⟩ := Option.isSome_iff_exists.mp (List.isSome_idxOf?.mpr hknown')
    obtain ⟨hta, -⟩ := List.idxOf?_eq_some_iff.mp ha
    obtain ⟨htb, -⟩ := List.idxOf?_eq_some_iff.mp hb
    obtain ⟨between, hbetween, hmid⟩ := (Within.pairOne_iff hS hta b noted).mpr
      ⟨hstart, hjoins a b (.inl ⟨ha, hb⟩)⟩
    obtain ⟨noted', hlast, hwithin⟩ := (Within.pairOne_iff hS htb a between).mpr
      ⟨hmid, hjoins b a (.inr ⟨ha, hb⟩)⟩
    exact ⟨noted', ⟨a, ha, b, hb, between, hbetween, hlast⟩, hwithin⟩

theorem Within.start : Within types S (Array.replicate types.length none) := by
  refine ⟨Array.size_replicate, fun a b hab => ?_⟩
  rw [Array.getElem?_replicate] at hab
  split at hab <;> cases hab

/-- All pairs are noted exactly when their names are known and their partners belong to the
relation. -/
theorem Within.pairs_iff (hS : Relator.RightUnique S) :
    (∃ noted, pairs.foldlM (pair types) (Array.replicate types.length none) = .ok noted ∧
        Within types S noted) ↔
      (∀ names ∈ pairs, names.1 ∈ types ∧ names.2 ∈ types) ∧
        ∀ a b, Partners types pairs a b → S a b := by
  rw [exists_foldlM_ok_iff fun noted names _ => Within.pair_iff hS names noted]
  constructor
  · rintro ⟨-, hall⟩
    refine ⟨fun names hnames => (hall names hnames).1, ?_⟩
    rintro a b ⟨names, hnames, hjoins⟩
    exact (hall names hnames).2 a b hjoins
  · rintro ⟨hknown, hpartners⟩
    exact ⟨Within.start, fun names hnames =>
      ⟨hknown names hnames, fun a b hjoins => hpartners a b ⟨names, hnames, hjoins⟩⟩⟩

/-- What is noted in the end, of names that are all known, are the partners. -/
theorem noted_spec {noted : Array (Option Nat)}
    (h : pairs.foldlM (pair types) (Array.replicate types.length none) = .ok noted) :
    noted.size = types.length ∧ (∀ names ∈ pairs, names.1 ∈ types ∧ names.2 ∈ types) ∧
      ∀ a b, noted[a]? = some (some b) ↔ Partners types pairs a b := by
  have hsize : noted.size = types.length :=
    foldlM_invariant (P := fun noted => noted.size = types.length)
      (fun _ _ _ _ hsize hpair => (size_pair hpair).trans hsize) Array.size_replicate h
  -- every partner is noted, so no position has two of them
  obtain ⟨hknown, hpartners⟩ := (Within.pairs_iff (Noted.rightUnique noted)).mp
    ⟨noted, h, hsize, fun a b hab => hab⟩
  have hunique : Relator.RightUnique (Partners types pairs) := fun a b c hb hc =>
    Noted.rightUnique noted (hpartners a b hb) (hpartners a c hc)
  -- so noting the pairs stays within the partners, and it can only end in one way
  obtain ⟨noted', h', hwithin⟩ := (Within.pairs_iff hunique).mpr ⟨hknown, fun _ _ hab => hab⟩
  cases h.symm.trans h'
  exact ⟨hsize, hknown, fun a b => ⟨hwithin.2 a b, hpartners a b⟩⟩

/-! ## Settling -/

theorem settled_getElem? {noted : Array (Option Nat)} (hsize : noted.size = types.length)
    {duals : List Nat} (h : settled types noted = .ok duals) :
    duals.length = types.length ∧ ∀ a b : Nat, duals[a]? = some b ↔ noted[a]? = some (some b) := by
  unfold settled at h
  obtain ⟨hlength, hback⟩ := getElem?_of_mapM_ok h
  have hzip : (types.zip noted.toList).length = types.length := by
    rw [List.length_zip, noted.length_toList, hsize, Nat.min_self]
  refine ⟨hlength.trans hzip, fun a b => ⟨fun hab => ?_, fun hab => ?_⟩⟩
  · obtain ⟨⟨type, dual⟩, hentry, hdual⟩ := hback a b hab
    obtain ⟨-, hnoted⟩ := List.getElem?_zip_eq_some.mp hentry
    rw [Array.getElem?_toList] at hnoted
    cases dual with
    | none => cases hdual
    | some d =>
      cases hdual
      exact hnoted
  · have ha : a < types.length := hsize ▸ (Array.getElem?_eq_some_iff.mp hab).1
    have hentry : (types.zip noted.toList)[a]? = some (types[a], some b) :=
      List.getElem?_zip_eq_some.mpr
        ⟨List.getElem?_eq_getElem ha, Array.getElem?_toList.trans hab⟩
    obtain ⟨d, hd, hdual⟩ := getElem?_mapM_ok h hentry
    cases hdual
    exact hd

theorem settled_isOk {noted : Array (Option Nat)}
    (h : ∀ a < types.length, ∃ b, noted[a]? = some (some b)) :
    ∃ duals, settled types noted = .ok duals := by
  unfold settled
  rw [exists_mapM_ok_iff]
  rintro ⟨type, dual⟩ hmem
  obtain ⟨a, ha⟩ := List.mem_iff_getElem?.mp hmem
  obtain ⟨htype, hdual⟩ := List.getElem?_zip_eq_some.mp ha
  obtain ⟨b, hb⟩ := h a (List.getElem?_eq_some_iff.mp htype).1
  rw [Array.getElem?_toList, hb] at hdual
  cases hdual
  exact ⟨b, rfl⟩

/-! ## Duals -/

/-- **The duals are the partners.** -/
theorem dualsOf_eq_some_iff {duals : List Nat} (h : dualsOf types pairs = .ok duals) :
    duals.length = types.length ∧ ∀ a b : Nat, duals[a]? = some b ↔ Partners types pairs a b := by
  unfold dualsOf at h
  obtain ⟨noted, hnoted, h⟩ := bind_eq_ok_iff.mp h
  obtain ⟨hsize, -, hiff⟩ := noted_spec hnoted
  obtain ⟨hlength, hget⟩ := settled_getElem? hsize h
  exact ⟨hlength, fun a b => (hget a b).trans (hiff a b)⟩

/-- **The duals settle exactly when the names are known and every position has one partner.** -/
theorem dualsOf_isOk_iff : (∃ duals, dualsOf types pairs = .ok duals) ↔
    (∀ names ∈ pairs, names.1 ∈ types ∧ names.2 ∈ types) ∧
      ∀ a < types.length, ∃! b, Partners types pairs a b := by
  constructor
  · rintro ⟨duals, h⟩
    obtain ⟨hlength, hget⟩ := dualsOf_eq_some_iff h
    obtain ⟨noted, hnoted, -⟩ := bind_eq_ok_iff.mp h
    obtain ⟨-, hknown, -⟩ := noted_spec hnoted
    refine ⟨hknown, fun a ha => ?_⟩
    have hdual := List.getElem?_eq_getElem (hlength ▸ ha : a < duals.length)
    refine ⟨duals[a], (hget a _).mp hdual, fun b hb => ?_⟩
    exact Option.some.inj (((hget a b).mpr hb).symm.trans hdual)
  · rintro ⟨hknown, hone⟩
    have hunique : Relator.RightUnique (Partners types pairs) := by
      intro a b c hb hc
      obtain ⟨_, -, hname, -⟩ := hb.names
      obtain ⟨ha, -⟩ := List.idxOf?_eq_some_iff.mp hname
      exact (hone a ha).unique hb hc
    obtain ⟨noted, hnoted, -⟩ := (Within.pairs_iff hunique).mpr ⟨hknown, fun _ _ hab => hab⟩
    obtain ⟨-, -, hiff⟩ := noted_spec hnoted
    obtain ⟨duals, hduals⟩ := settled_isOk fun a ha => by
      obtain ⟨b, hb, -⟩ := hone a ha
      exact ⟨b, (hiff a b).mpr hb⟩
    exact ⟨duals, bind_eq_ok_iff.mpr ⟨noted, hnoted, hduals⟩⟩

end WaveCollapse.RuleFile
