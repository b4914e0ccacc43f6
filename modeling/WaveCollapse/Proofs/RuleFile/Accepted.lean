import WaveCollapse.Proofs.RuleFile.Meaning
import WaveCollapse.Proofs.Rules.Closure

/-! # Which rule files are accepted

Checking is spread over the registry, the duals and the two kinds of rules, and stops at the
first thing that is wrong.  Taken together it asks for what `RuleFile.Valid` says and for nothing
else: the registry can be made exactly when the modules and types of the file are in order
(`exists_registry_ok_iff`), and given a registry the rules can be made exactly when the triples
are over known names, or every module has fitting sockets (`exists_ruleSet_ok_iff`).
-/

namespace WaveCollapse.RuleFile

/-- No module has sockets, and the triples are over modules and types of the file. -/
def NeighborsKnown (file : RuleFile) : Prop :=
  (∀ m ∈ file.modules, m.sockets = none) ∧
    ∀ e ∈ file.neighbors, e.x ∈ file.modules.map (·.name) ∧ e.y ∈ file.modules.map (·.name) ∧
      e.t ∈ file.types

/-- Every module has sockets, for the types of the file and for nothing else, and all vectors
have the same length. -/
def SocketsFit (file : RuleFile) : Prop :=
  (∀ m ∈ file.modules, ∃ given, m.sockets = some given ∧
      ∀ name, name ∈ given.map (·.1) ↔ name ∈ file.types) ∧
    ∃ length, ∀ m ∈ file.modules, ∀ type v, m.socket type = some v → v.length = length

/-- A rule file is in order. -/
structure Valid (file : RuleFile) : Prop where
  modules : file.modules ≠ []
  types : file.types ≠ []
  /-- The pairs are of known types. -/
  known : ∀ pair ∈ file.duals, pair.1 ∈ file.types ∧ pair.2 ∈ file.types
  /-- Read in both directions, the pairs give every position of the types one partner. -/
  partner : ∀ a < file.types.length, ∃! b, Partners file.types file.duals a b
  names : (file.modules.map (·.name)).Nodup
  /-- Every class fits a wave. -/
  room : ∀ c, file.modules.countP (·.classId == c) ≤ maxWidth
  /-- There are rules of one kind; with sockets the triples do not matter. -/
  rules : file.NeighborsKnown ∨ file.SocketsFit

variable {file : RuleFile} {r : Registry}

/-! ## The registry -/

theorem exists_registry_ok_iff : (∃ r, file.registry = .ok r) ↔
    file.modules ≠ [] ∧ file.types ≠ [] ∧
      (∀ pair ∈ file.duals, pair.1 ∈ file.types ∧ pair.2 ∈ file.types) ∧
      (∀ a < file.types.length, ∃! b, Partners file.types file.duals a b) ∧
      (file.modules.map (·.name)).Nodup ∧
      ∀ c, file.modules.countP (·.classId == c) ≤ maxWidth := by
  have hnames : (file.modules.map fun m => (m.name, m.classId)).map (·.1) =
      file.modules.map (·.name) := by
    rw [List.map_map]
    rfl
  have hcount : ∀ c, (file.modules.map fun m => (m.name, m.classId)).countP (·.2 == c) =
      file.modules.countP (·.classId == c) := by
    intro c
    rw [List.countP_map]
    rfl
  simp only [registry_eq_ok_iff, Registry.register_eq_ok_iff, hnames, hcount]
  constructor
  · rintro ⟨r, hmodules, duals, hduals, htypes, -, -, -, hroom, hnodup, -⟩
    obtain ⟨hknown, hpartner⟩ := dualsOf_isOk_iff.mp ⟨duals, hduals⟩
    exact ⟨hmodules, htypes, hknown, hpartner, hnodup, hroom⟩
  · rintro ⟨hmodules, htypes, hknown, hpartner, hnodup, hroom⟩
    obtain ⟨duals, hduals⟩ := dualsOf_isOk_iff.mpr ⟨hknown, hpartner⟩
    obtain ⟨hlength, hget⟩ := dualsOf_eq_some_iff hduals
    refine ⟨_, hmodules, duals, hduals, htypes, ?_, ?_, hlength, hroom, hnodup, rfl⟩
    · rw [Ne, List.map_eq_nil_iff]
      exact hmodules
    · -- the partner of the partner of a type is the type
      intro t ht
      obtain ⟨d, hd, -⟩ := hpartner t ht
      rw [List.getElem?_toArray, (hget t d).mpr hd, Option.bind_some, List.getElem?_toArray,
        (hget d t).mpr hd.symm]

/-! ## Triples -/

theorem exists_neighborTuples_ok_iff (h : file.registry = .ok r) :
    (∃ tuples, neighborTuples file r = .ok tuples) ↔
      ∀ e ∈ file.neighbors, e.x ∈ file.modules.map (·.name) ∧ e.y ∈ file.modules.map (·.name) ∧
        e.t ∈ file.types := by
  unfold neighborTuples
  rw [exists_mapM_ok_iff]
  refine forall₂_congr fun e _ => ?_
  simp only [neighborTuple_eq_ok_iff, ← exists_stateOf_ok_iff h, ← exists_typeIndex_ok_iff]
  constructor
  · rintro ⟨tuple, hx, hy, ht⟩
    exact ⟨⟨_, hx⟩, ⟨_, hy⟩, ⟨_, ht⟩⟩
  · rintro ⟨⟨x, hx⟩, ⟨y, hy⟩, ⟨t, ht⟩⟩
    exact ⟨⟨x, y, t⟩, hx, hy, ht⟩

/-- The numbers that names stand for are in range. -/
theorem check_of_neighborTuples (h : file.registry = .ok r) {tuples : List NeighborTuple}
    (htuples : neighborTuples file r = .ok tuples) :
    ∀ e ∈ tuples, NeighborTuple.check r e = .ok () := by
  intro tuple hmem
  have hr := lawful_of_registry h
  obtain ⟨e, -, he⟩ := mem_of_mapM_ok htuples hmem
  obtain ⟨hx, hy, ht⟩ := neighborTuple_eq_ok_iff.mp he
  obtain ⟨mx, hmx, hsx, -⟩ := hr.stateOf_eq_some_iff.mp (stateOf_eq_ok_iff.mp hx)
  obtain ⟨my, hmy, hsy, -⟩ := hr.stateOf_eq_some_iff.mp (stateOf_eq_ok_iff.mp hy)
  have hlt : tuple.t < r.typeCount := by
    rw [typeCount_of_registry h]
    exact (List.getElem?_eq_some_iff.mp (typeIndex_eq_ok ht)).1
  exact NeighborTuple.check_eq_ok_iff.mpr ⟨⟨mx, hr.moduleOf_eq_some_iff.mpr ⟨hmx, hsx⟩⟩,
    ⟨my, hr.moduleOf_eq_some_iff.mpr ⟨hmy, hsy⟩⟩, hlt⟩

/-! ## Sockets -/

theorem isSome_lookup_iff {given : List (String × List Int)} {type : String} :
    (given.lookup type).isSome ↔ type ∈ given.map (·.1) := by
  rw [List.lookup_isSome_iff, List.mem_map]
  exact exists_congr fun e => and_congr_right fun _ => beq_iff_eq.trans eq_comm

/-- Sockets are for the types of the file when each name is one. -/
theorem forM_typeIndex_eq_ok_iff (types : List String) (given : List (String × List Int)) :
    (given.forM fun (name, _) => discard (typeIndex types name)) = .ok () ↔
      ∀ name ∈ given.map (·.1), name ∈ types := by
  rw [forM_eq_ok_iff, List.forall_mem_map]
  refine forall₂_congr fun e _ => ?_
  show (typeIndex types e.1).map (fun _ => ()) = .ok () ↔ _
  rw [map_eq_ok_iff, ← exists_typeIndex_ok_iff]
  exact exists_congr fun t => and_iff_left rfl

/-- There is a vector for every type when every type has sockets. -/
theorem exists_vectors_ok_iff (types : List String) (name : String)
    (given : List (String × List Int)) :
    (∃ vectors, (types.mapM fun type => match given.lookup type with
      | some vector => Except.ok vector.toArray
      | none => Except.error (RuleFileError.noSocket name type)) = .ok vectors) ↔
    ∀ type ∈ types, type ∈ given.map (·.1) := by
  rw [exists_mapM_ok_iff]
  refine forall₂_congr fun type _ => ?_
  rw [← isSome_lookup_iff]
  cases given.lookup type with
  | none => exact iff_of_false (fun ⟨v, h⟩ => nomatch h) Bool.false_ne_true
  | some v => exact iff_of_true ⟨_, rfl⟩ rfl

/-- The sockets of one module are taken when they are for the types of the file. -/
theorem exists_socketEntry_ok_iff {m : ModuleEntry} : (∃ e, socketEntry file r m = .ok e) ↔
    (∃ p, stateOf r m.name = .ok p) ∧ ∃ given, m.sockets = some given ∧
      ∀ name, name ∈ given.map (·.1) ↔ name ∈ file.types := by
  unfold socketEntry
  cases m.sockets with
  | none =>
    refine iff_of_false (fun ⟨e, h⟩ => nomatch h) ?_
    rintro ⟨-, given, hgiven, -⟩
    cases hgiven
  | some given =>
    have hknown := forM_typeIndex_eq_ok_iff file.types given
    have hgiven := exists_vectors_ok_iff file.types m.name given
    simp only [bind_eq_ok_iff]
    constructor
    · rintro ⟨e, u, hforM, vectors, hvectors, p, hp, -⟩
      exact ⟨⟨p, hp⟩, given, rfl, fun name =>
        ⟨hknown.mp hforM name, hgiven.mp ⟨vectors, hvectors⟩ name⟩⟩
    · rintro ⟨⟨p, hp⟩, given', hsame, hnames⟩
      cases hsame
      obtain ⟨vectors, hvectors⟩ := hgiven.mpr fun name hname => (hnames name).mpr hname
      have hforM := hknown.mpr fun name hname => (hnames name).mp hname
      exact ⟨_, (), hforM, vectors, hvectors, p, hp, rfl⟩

theorem exists_socketEntries_ok_iff (h : file.registry = .ok r) :
    (∃ entries, socketEntries file r = .ok entries) ↔
      ∀ m ∈ file.modules, ∃ given, m.sockets = some given ∧
        ∀ name, name ∈ given.map (·.1) ↔ name ∈ file.types := by
  unfold socketEntries
  rw [exists_mapM_ok_iff]
  refine forall₂_congr fun m hm => ?_
  rw [exists_socketEntry_ok_iff]
  exact and_iff_right ((exists_stateOf_ok_iff h).mpr (List.mem_map_of_mem hm))

/-- The modules of the registry are equipped for a length exactly when the vectors of the file
have it. -/
theorem equipped_iff (h : file.registry = .ok r) {entries : List (Nat × Sockets)}
    (hentries : socketEntries file r = .ok entries) (n : Nat) :
    (∀ x ∈ r.modules, SocketTable.Equipped r (SocketTable.gather entries) n x) ↔
      ∀ m ∈ file.modules, ∀ type v, m.socket type = some v → v.length = n := by
  have hgiven := (exists_socketEntries_ok_iff h).mp ⟨entries, hentries⟩
  constructor
  · intro hequipped m hm type v hv
    obtain ⟨p, hp⟩ := (exists_stateOf_ok_iff h).mpr (List.mem_map_of_mem hm)
    obtain ⟨x, hx, -, hname⟩ :=
      (lawful_of_registry h).stateOf_eq_some_iff.mp (stateOf_eq_ok_iff.mp hp)
    obtain ⟨vectors, hvectors, hentry⟩ := gather_of_entries h hentries hx hm hname.symm
    obtain ⟨vectors', hsame, -, hsizes⟩ := hequipped x hx
    cases hvectors.symm.trans hsame
    -- a type with a vector is one of the file, and its vector is in the table
    have htype : type ∈ file.types := by
      obtain ⟨given, hsockets, hnames⟩ := hgiven m hm
      refine (hnames type).mp (isSome_lookup_iff.mp ?_)
      unfold ModuleEntry.socket at hv
      rw [hsockets, Option.bind_some] at hv
      rw [hv]
      rfl
    obtain ⟨t, ht⟩ := List.mem_iff_getElem?.mp htype
    obtain ⟨v', hv', hvector⟩ := (socketEntry_eq_ok hentry).2.2 t type ht
    cases hv.symm.trans hv'
    exact hsizes _ (Array.mem_toList_iff.mpr (Array.mem_of_getElem? hvector))
  · intro hlengths x hx
    obtain ⟨m, hm, hname⟩ := exists_entry_of_registry h hx
    obtain ⟨vectors, hvectors, hentry⟩ := gather_of_entries h hentries hx hm hname
    obtain ⟨-, hsize, hget⟩ := socketEntry_eq_ok hentry
    refine ⟨vectors, hvectors, hsize.trans (typeCount_of_registry h).symm, fun vector hmem => ?_⟩
    obtain ⟨t, ht⟩ := List.mem_iff_getElem?.mp hmem
    rw [Array.getElem?_toList] at ht
    have hlt : t < file.types.length := hsize ▸ (Array.getElem?_eq_some_iff.mp ht).1
    obtain ⟨v, hv, hvector⟩ := hget t _ (List.getElem?_eq_getElem hlt)
    cases ht.symm.trans hvector
    exact hlengths m hm _ v hv

/-! ## The rules -/

/-- Given a registry, the rules can be made exactly when the file has rules of one kind that are
in order. -/
theorem exists_ruleSet_ok_iff (h : file.registry = .ok r) :
    (∃ set, file.ruleSet r = .ok set) ↔ file.NeighborsKnown ∨ file.SocketsFit := by
  have hmodules : file.modules ≠ [] := (registry_eq_ok_iff.mp h).1
  by_cases hsockets : file.usesSockets = true
  · have hsome : ∃ m ∈ file.modules, m.sockets.isSome := List.any_eq_true.mp hsockets
    have hnot : ¬ file.NeighborsKnown := by
      rintro ⟨hnone, -⟩
      obtain ⟨m, hm, hsome⟩ := hsome
      rw [hnone m hm] at hsome
      cases hsome
    rw [or_iff_right hnot]
    unfold ruleSet
    rw [if_pos hsockets]
    simp only [bind_eq_ok_iff, liftRegistry_eq_ok_iff]
    constructor
    · rintro ⟨set, entries, hentries, table, htable, -⟩
      obtain ⟨n, hn⟩ := SocketTable.ofEntries_isOk_iff.mp ⟨table, htable⟩
      exact ⟨(exists_socketEntries_ok_iff h).mp ⟨entries, hentries⟩, n,
        (equipped_iff h hentries n).mp hn⟩
    · rintro ⟨hgiven, n, hn⟩
      obtain ⟨entries, hentries⟩ := (exists_socketEntries_ok_iff h).mpr hgiven
      obtain ⟨table, htable⟩ := SocketTable.ofEntries_isOk_iff.mpr
        ⟨n, (equipped_iff h hentries n).mpr hn⟩
      exact ⟨_, entries, hentries, table, htable, rfl⟩
  · have hnone : ∀ m ∈ file.modules, m.sockets = none := by
      intro m hm
      refine Option.not_isSome_iff_eq_none.mp fun hsome => ?_
      exact hsockets (List.any_eq_true.mpr ⟨m, hm, hsome⟩)
    have hnot : ¬ file.SocketsFit := by
      rintro ⟨hgiven, -⟩
      obtain ⟨m, hm⟩ := List.exists_mem_of_ne_nil _ hmodules
      obtain ⟨given, hsome, -⟩ := hgiven m hm
      cases (hnone m hm).symm.trans hsome
    rw [or_iff_left hnot]
    unfold ruleSet
    rw [if_neg hsockets]
    simp only [bind_eq_ok_iff, liftRegistry_eq_ok_iff]
    constructor
    · rintro ⟨set, tuples, htuples, -⟩
      exact ⟨hnone, (exists_neighborTuples_ok_iff h).mp ⟨tuples, htuples⟩⟩
    · rintro ⟨-, hknown⟩
      obtain ⟨tuples, htuples⟩ := (exists_neighborTuples_ok_iff h).mpr hknown
      exact ⟨_, tuples, htuples, _, AdjacencyTable.ofTuples_eq_ok_iff.mpr
        ⟨check_of_neighborTuples h htuples, rfl⟩, rfl⟩

theorem exists_build_ok_iff : (∃ loaded, file.build = .ok loaded) ↔ file.Valid := by
  simp only [build_eq_ok_iff]
  constructor
  · rintro ⟨loaded, hregistry, hrules⟩
    obtain ⟨hmodules, htypes, hknown, hpartner, hnames, hroom⟩ :=
      exists_registry_ok_iff.mp ⟨_, hregistry⟩
    exact ⟨hmodules, htypes, hknown, hpartner, hnames, hroom,
      (exists_ruleSet_ok_iff hregistry).mp ⟨_, hrules⟩⟩
  · intro hvalid
    obtain ⟨r, hregistry⟩ := exists_registry_ok_iff.mpr ⟨hvalid.modules, hvalid.types,
      hvalid.known, hvalid.partner, hvalid.names, hvalid.room⟩
    obtain ⟨set, hrules⟩ := (exists_ruleSet_ok_iff hregistry).mpr hvalid.rules
    exact ⟨⟨r, set⟩, hregistry, hrules⟩

/-- A file whose table, if it has one, fits is built in words as it is in numbers of any size. -/
theorem checkedBuild_eq (hregistry : file.registry = .ok r)
    (hfits : file.usesSockets = true ∨ AdjacencyTable.Fits r) :
    file.checkedBuild = .ok file.build := by
  have hr := lawful_of_registry hregistry
  obtain ⟨-, duals, -, hregister⟩ := registry_eq_ok_iff.mp hregistry
  have htypes := Registry.typeCount_pos_of_register hregister
  have hrules : file.checkedRuleSet r = .ok (file.ruleSet r) := by
    unfold checkedRuleSet ruleSet
    by_cases hsockets : file.usesSockets = true
    · rw [if_pos hsockets]
    · rw [if_neg hsockets, if_neg hsockets]
      cases neighborTuples file r with
      | error e => rfl
      | ok tuples =>
        dsimp only
        rw [AdjacencyTable.checkedOfTuples_eq hr htypes (hfits.resolve_left hsockets), ok_bind]
        cases AdjacencyTable.ofTuples r tuples <;> rfl
  unfold checkedBuild build
  rw [hregistry, ok_bind]
  dsimp only
  rw [hrules]
  cases file.ruleSet r <;> rfl

/-- **A rule file is built exactly when it is in order, and the rules mean what it says.**  The
types of a file in order have different names.  Modules and types are found by their names, and
every type has one dual; two modules fit for a type when they have the same vector for it and
for its dual, or, if there are no vectors, when a triple says so from one of the two ends.  Built
from triples, the rules are a table, which in words has to fit. -/
theorem build_accepts_and_allows (file : RuleFile) :
    ((∃ loaded, file.build = .ok loaded) ↔ file.Valid) ∧ (file.Valid → file.types.Nodup) ∧
      (∀ r, file.registry = .ok r → (file.usesSockets = true ∨
          r.typeCount * r.stateSpace * r.stateSpace < twoTo 63) →
        file.checkedBuild = .ok file.build) ∧
      ∀ loaded, file.build = .ok loaded →
        ∀ a ∈ file.modules, ∀ b ∈ file.modules, ∀ type ∈ file.types, ∃ x y t dual,
          loaded.registry.stateOf a.name = some x ∧ loaded.registry.stateOf b.name = some y ∧
          loaded.registry.typeIndex type = some t ∧
          (∀ other, file.Paired type other ↔ other = dual) ∧
          (loaded.ruleSet.rules.allows x t y = true ↔
            if file.usesSockets then ∃ v, a.socket type = some v ∧ b.socket dual = some v
            else ⟨a.name, b.name, type⟩ ∈ file.neighbors ∨
              ⟨b.name, a.name, dual⟩ ∈ file.neighbors) := by
  refine ⟨exists_build_ok_iff, fun hvalid => ?_, fun r => checkedBuild_eq,
    fun loaded h a ha b hb type htype => ?_⟩
  · exact nodup_of_partners fun t ht => (hvalid.partner t ht).exists
  · obtain ⟨hregistry, -⟩ := build_eq_ok_iff.mp h
    have hr := lawful_of_registry hregistry
    obtain ⟨t, ht⟩ := Option.isSome_iff_exists.mp (List.isSome_idxOf?.mpr htype)
    obtain ⟨x, hx⟩ := (exists_stateOf_ok_iff hregistry).mpr (List.mem_map_of_mem ha)
    obtain ⟨y, hy⟩ := (exists_stateOf_ok_iff hregistry).mpr (List.mem_map_of_mem hb)
    rw [stateOf_eq_ok_iff] at hx hy
    obtain ⟨mx, hmx, rfl, hnx⟩ := hr.stateOf_eq_some_iff.mp hx
    obtain ⟨my, hmy, rfl, hny⟩ := hr.stateOf_eq_some_iff.mp hy
    -- the dual of the type is the name at the place that the registry has
    obtain ⟨htlt, -⟩ := List.idxOf?_eq_some_iff.mp ht
    obtain ⟨-, dual, -, hdual, -⟩ := ((partners_iff_of_registry hregistry htlt).mpr rfl).names
    have hpaired : ∀ other, file.Paired type other ↔ other = dual := by
      intro other
      rw [paired_iff_of_registry hregistry ht]
      constructor
      · intro hother
        exact Option.some.inj ((getElem?_of_idxOf? hother).symm.trans (getElem?_of_idxOf? hdual))
      · rintro rfl
        exact hdual
    refine ⟨_, _, t, dual, hx, hy, ?_, hpaired, ?_⟩
    · unfold Registry.typeIndex
      rw [types_of_registry hregistry]
      exact ht
    · rw [← hnx, ← hny]
      exact allows_names_iff h hmx hmy ha hb hnx.symm hny.symm ht ((hpaired dual).mpr rfl)

/-- Two modules with sockets of two gauges; the triple does not count, so its module may be
unknown. -/
def gauges : RuleFile where
  types := ["left", "right"]
  duals := [("left", "right")]
  modules := [⟨"thin", 0, some [("left", [1]), ("right", [2])]⟩,
    ⟨"thick", 1, some [("left", [2]), ("right", [1])]⟩]
  neighbors := [⟨"nobody", "thin", "left"⟩]

/-- The file is in order, and the left of the thin module fits the right of the thick one. -/
theorem build_accepts_gauges : gauges.Valid ∧ ∃ loaded x y t, gauges.build = .ok loaded ∧
    gauges.checkedBuild = .ok (.ok loaded) ∧
    loaded.registry.stateOf "thin" = some x ∧ loaded.registry.stateOf "thick" = some y ∧
    loaded.registry.typeIndex "left" = some t ∧
    loaded.ruleSet.rules.allows x t y = true := by
  obtain ⟨haccepts, -, hwords, hallows⟩ := build_accepts_and_allows gauges
  have hbuilt : gauges.build.toOption.isSome = true := by decide +kernel
  obtain ⟨loaded, hloaded⟩ := Option.isSome_iff_exists.mp hbuilt
  have h := toOption_eq_some_iff.mp hloaded
  obtain ⟨x, y, t, dual, hx, hy, ht, hdual, hiff⟩ := hallows loaded h
    ⟨"thin", 0, some [("left", [1]), ("right", [2])]⟩ (by decide)
    ⟨"thick", 1, some [("left", [2]), ("right", [1])]⟩ (by decide) "left" (by decide)
  have hright : "right" = dual := (hdual "right").mp (.inl (by decide))
  subst hright
  have hchecked := hwords loaded.registry (build_eq_ok_iff.mp h).1 (.inl (by decide))
  rw [h] at hchecked
  exact ⟨haccepts.mp ⟨loaded, h⟩, loaded, x, y, t, h, hchecked, hx, hy, ht,
    hiff.mpr ⟨[1], rfl, rfl⟩⟩

end WaveCollapse.RuleFile
