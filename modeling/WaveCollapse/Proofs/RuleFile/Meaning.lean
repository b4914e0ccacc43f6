import WaveCollapse.Proofs.RuleFile.Duals
import WaveCollapse.Proofs.Rules.Tables

/-! # What a rule file says

A rule file speaks of modules and connection types by their names.  Its relation is read off
its text (`RuleFile.Allows`): the sockets of two modules for a type and its dual are the same
vector, or, when no module has sockets, one of the triples lists the two modules for the type or,
seen from the other end, for the dual.  The rules that are built from the file allow exactly
that (`RuleFile.allows_iff_of_build`).
-/

namespace WaveCollapse

/-- The vector that a module has for the type called `type`. -/
def ModuleEntry.socket (m : ModuleEntry) (type : String) : Option (List Int) :=
  m.sockets.bind (·.lookup type)

namespace RuleFile

/-- Two types are listed as each other's duals. -/
def Paired (file : RuleFile) (type dual : String) : Prop :=
  (type, dual) ∈ file.duals ∨ (dual, type) ∈ file.duals

/-- `y` fits at the far end of a connection of type `t` that leaves `x`, by names. -/
def Allows (file : RuleFile) (x : String) (t : Nat) (y : String) : Prop :=
  ∃ type dual, file.types[t]? = some type ∧ file.Paired type dual ∧
    if file.usesSockets then
      ∃ mx ∈ file.modules, ∃ my ∈ file.modules, mx.name = x ∧ my.name = y ∧
        ∃ v, mx.socket type = some v ∧ my.socket dual = some v
    else ⟨x, y, type⟩ ∈ file.neighbors ∨ ⟨y, x, dual⟩ ∈ file.neighbors

variable {file : RuleFile}

/-! ## Names -/

theorem stateOf_eq_ok_iff {r : Registry} {name : String} {p : Nat} :
    stateOf r name = .ok p ↔ r.stateOf name = some p := by
  unfold stateOf
  cases r.stateOf name with
  | none => exact iff_of_false (fun h => nomatch h) (fun h => nomatch h)
  | some q => rw [Except.ok.injEq, Option.some.injEq]

/-- A name that has the state of a module is that module's. -/
theorem name_of_stateOf {r : Registry} (hr : r.Lawful) {m : Module} (hm : m ∈ r.modules)
    {name : String} (h : stateOf r name = .ok m.state) : name = m.name := by
  have hname := hr.nameOf_eq_some_iff_stateOf.mpr (stateOf_eq_ok_iff.mp h)
  rw [hr.nameOf_eq_some_iff.mpr ⟨m, hm, rfl, rfl⟩] at hname
  exact (Option.some.inj hname).symm

theorem liftRegistry_eq_ok_iff {α : Type} {x : Except RegistryError α} {a : α} :
    liftRegistry x = .ok a ↔ x = .ok a := by
  cases x with
  | error e => exact iff_of_false (fun h => nomatch h) (fun h => nomatch h)
  | ok b =>
    unfold liftRegistry
    rw [Except.ok.injEq, Except.ok.injEq]

/-! ## Building -/

theorem registry_eq_ok_iff {r : Registry} : file.registry = .ok r ↔ file.modules ≠ [] ∧
    ∃ duals, dualsOf file.types file.duals = .ok duals ∧
      Registry.register file.types duals (file.modules.map fun m => (m.name, m.classId)) =
        .ok r := by
  unfold RuleFile.registry
  by_cases hmodules : file.modules = []
  · rw [hmodules]
    exact iff_of_false (fun h => nomatch h) (fun h => h.1 rfl)
  · rw [List.isEmpty_eq_false_iff.mpr hmodules, if_neg Bool.false_ne_true]
    show (dualsOf file.types file.duals >>= _) = .ok r ↔ _
    simp only [bind_eq_ok_iff, liftRegistry_eq_ok_iff]
    exact (and_iff_right hmodules).symm

theorem build_eq_ok_iff {loaded : LoadedRules} : file.build = .ok loaded ↔
    file.registry = .ok loaded.registry ∧ file.ruleSet loaded.registry = .ok loaded.ruleSet := by
  unfold build
  simp only [bind_eq_ok_iff]
  constructor
  · rintro ⟨r, hr, set, hset, hloaded⟩
    cases hloaded
    exact ⟨hr, hset⟩
  · rintro ⟨hr, hset⟩
    exact ⟨_, hr, _, hset, rfl⟩

section Registered
variable {r : Registry} (h : file.registry = .ok r)
include h

theorem lawful_of_registry : r.Lawful := by
  obtain ⟨-, duals, -, hregister⟩ := registry_eq_ok_iff.mp h
  exact Registry.lawful_of_register hregister

theorem types_of_registry : r.types = file.types := by
  obtain ⟨-, duals, -, hregister⟩ := registry_eq_ok_iff.mp h
  obtain ⟨-, -, -, -, -, -, rfl⟩ := Registry.register_eq_ok_iff.mp hregister
  rfl

theorem typeCount_of_registry : r.typeCount = file.types.length :=
  congrArg List.length (types_of_registry h)

theorem names_of_registry : r.modules.map (·.name) = file.modules.map (·.name) := by
  obtain ⟨-, duals, -, hregister⟩ := registry_eq_ok_iff.mp h
  rw [Registry.names_of_register hregister, List.map_map]
  rfl

/-- The modules of the file are those of the registry. -/
theorem exists_stateOf_ok_iff {name : String} :
    (∃ p, stateOf r name = .ok p) ↔ name ∈ file.modules.map (·.name) := by
  simp only [stateOf_eq_ok_iff, (lawful_of_registry h).stateOf_eq_some_iff]
  rw [← names_of_registry h, List.mem_map]
  exact ⟨fun ⟨_, m, hm, _, hname⟩ => ⟨m, hm, hname⟩, fun ⟨m, hm, hname⟩ => ⟨_, m, hm, rfl, hname⟩⟩

theorem exists_entry_of_registry {x : Module} (hx : x ∈ r.modules) :
    ∃ m ∈ file.modules, m.name = x.name := by
  have hname : x.name ∈ r.modules.map (·.name) := List.mem_map_of_mem hx
  rw [names_of_registry h] at hname
  exact List.mem_map.mp hname

theorem eq_of_name_eq {m m' : ModuleEntry} (hm : m ∈ file.modules) (hm' : m' ∈ file.modules)
    (hname : m.name = m'.name) : m = m' := by
  have hnames := (lawful_of_registry h).names
  rw [names_of_registry h] at hnames
  exact List.inj_on_of_nodup_map hnames hm hm' hname

/-- The dual of a type is its partner. -/
theorem partners_iff_of_registry {t d : Nat} (ht : t < file.types.length) :
    Partners file.types file.duals t d ↔ d = r.dual t := by
  obtain ⟨-, duals, hduals, hregister⟩ := registry_eq_ok_iff.mp h
  obtain ⟨-, -, -, hlength, -, -, hr⟩ := Registry.register_eq_ok_iff.mp hregister
  have hdual : duals[t]? = some (r.dual t) := by
    unfold Registry.dual
    rw [hr, Array.getD_eq_getD_getElem?, List.getElem?_toArray,
      List.getElem?_eq_getElem (hlength ▸ ht), Option.getD_some]
  rw [← (dualsOf_eq_some_iff hduals).2 t d, hdual, Option.some.injEq, eq_comm]

theorem types_nodup_of_registry : file.types.Nodup :=
  nodup_of_partners fun t ht => ⟨r.dual t, (partners_iff_of_registry h ht).mpr rfl⟩

/-- Types are listed as duals exactly when the registry has them as duals. -/
theorem paired_iff_of_registry {type dual : String} {t : Nat}
    (htype : file.types.idxOf? type = some t) :
    file.Paired type dual ↔ file.types.idxOf? dual = some (r.dual t) := by
  obtain ⟨ht, -⟩ := List.idxOf?_eq_some_iff.mp htype
  constructor
  · intro hpaired
    obtain ⟨-, duals, hduals, -⟩ := registry_eq_ok_iff.mp h
    have hknown := (dualsOf_isOk_iff.mp ⟨duals, hduals⟩).1
    have hdual : dual ∈ file.types := by
      rcases hpaired with hmem | hmem
      · exact (hknown _ hmem).2
      · exact (hknown _ hmem).1
    obtain ⟨d, hd⟩ := Option.isSome_iff_exists.mp (List.isSome_idxOf?.mpr hdual)
    have hpartners : Partners file.types file.duals t d := by
      rcases hpaired with hmem | hmem
      · exact ⟨_, hmem, .inl ⟨htype, hd⟩⟩
      · exact ⟨_, hmem, .inr ⟨hd, htype⟩⟩
    rw [hd, (partners_iff_of_registry h ht).mp hpartners]
  · intro hdual
    obtain ⟨nt, nd, hnt, hnd, hpaired⟩ := ((partners_iff_of_registry h ht).mpr rfl).names
    cases (getElem?_of_idxOf? htype).symm.trans (getElem?_of_idxOf? hnt)
    cases (getElem?_of_idxOf? hdual).symm.trans (getElem?_of_idxOf? hnd)
    exact hpaired

end Registered

theorem lawful_of_build {loaded : LoadedRules} (h : file.build = .ok loaded) :
    loaded.registry.Lawful :=
  lawful_of_registry (build_eq_ok_iff.mp h).1

/-! ## Triples -/

theorem neighborTuple_eq_ok_iff {r : Registry} {e : NeighborEntry} {tuple : NeighborTuple} :
    neighborTuple file r e = .ok tuple ↔ stateOf r e.x = .ok tuple.x ∧
      stateOf r e.y = .ok tuple.y ∧ typeIndex file.types e.t = .ok tuple.t := by
  unfold neighborTuple
  simp only [bind_eq_ok_iff]
  constructor
  · rintro ⟨x, hx, y, hy, t, ht, htuple⟩
    cases htuple
    exact ⟨hx, hy, ht⟩
  · rintro ⟨hx, hy, ht⟩
    exact ⟨_, hx, _, hy, _, ht, rfl⟩

theorem stateOf_name {r : Registry} (hr : r.Lawful) {m : Module} (hm : m ∈ r.modules) :
    stateOf r m.name = .ok m.state :=
  stateOf_eq_ok_iff.mpr (hr.stateOf_eq_some_iff.mpr ⟨m, hm, rfl, rfl⟩)

/-- The tuples over the states of two modules are the triples over their names. -/
theorem mem_tuples_iff {r : Registry} (hr : r.Lawful) {tuples : List NeighborTuple}
    (h : neighborTuples file r = .ok tuples) {x y : Module} (hx : x ∈ r.modules)
    (hy : y ∈ r.modules) {t : Nat} {type : String} (htype : file.types.idxOf? type = some t) :
    ⟨x.state, y.state, t⟩ ∈ tuples ↔ ⟨x.name, y.name, type⟩ ∈ file.neighbors := by
  constructor
  · intro hmem
    obtain ⟨⟨ex, ey, et⟩, he, htuple⟩ := mem_of_mapM_ok h hmem
    obtain ⟨hex, hey, het⟩ := neighborTuple_eq_ok_iff.mp htuple
    cases name_of_stateOf hr hx hex
    cases name_of_stateOf hr hy hey
    cases (getElem?_of_idxOf? htype).symm.trans (typeIndex_eq_ok het)
    exact he
  · intro he
    obtain ⟨tuple, hmem, htuple⟩ := exists_mem_of_mapM_ok h he
    have hmine : neighborTuple file r ⟨x.name, y.name, type⟩ = .ok ⟨x.state, y.state, t⟩ :=
      neighborTuple_eq_ok_iff.mpr
        ⟨stateOf_name hr hx, stateOf_name hr hy, typeIndex_eq_ok_iff.mpr htype⟩
    cases hmine.symm.trans htuple
    exact hmem

/-! ## Sockets -/

theorem socketEntry_eq_ok {r : Registry} {m : ModuleEntry} {p : Nat} {vectors : Sockets}
    (h : socketEntry file r m = .ok (p, vectors)) :
    stateOf r m.name = .ok p ∧ vectors.size = file.types.length ∧
      ∀ (t : Nat) (type : String), file.types[t]? = some type →
        ∃ v, m.socket type = some v ∧ vectors[t]? = some v.toArray := by
  unfold socketEntry at h
  split at h
  · cases h
  · next given hgiven =>
    obtain ⟨-, -, h⟩ := bind_eq_ok_iff.mp h
    obtain ⟨found, hfound, h⟩ := bind_eq_ok_iff.mp h
    obtain ⟨q, hq, h⟩ := bind_eq_ok_iff.mp h
    cases h
    refine ⟨hq, (getElem?_of_mapM_ok hfound).1, fun t type htype => ?_⟩
    obtain ⟨vector, hvector, hlookup⟩ := getElem?_mapM_ok hfound htype
    split at hlookup
    · next v hv =>
      cases hlookup
      refine ⟨v, ?_, List.getElem?_toArray.trans hvector⟩
      unfold ModuleEntry.socket
      rw [hgiven, Option.bind_some, hv]
    · cases hlookup

/-- The vectors in the table for a module are those that the file gives it. -/
theorem gather_of_entries {r : Registry} (hregistry : file.registry = .ok r)
    {entries : List (Nat × Sockets)} (hentries : socketEntries file r = .ok entries) {x : Module}
    (hx : x ∈ r.modules) {m : ModuleEntry} (hm : m ∈ file.modules) (hname : m.name = x.name) :
    ∃ vectors, (SocketTable.gather entries)[x.state]? = some vectors ∧
      socketEntry file r m = .ok (x.state, vectors) := by
  have hr := lawful_of_registry hregistry
  obtain ⟨⟨p, given⟩, hmem, hentry⟩ := exists_mem_of_mapM_ok hentries hm
  have hp : p = x.state := by
    have hstate := stateOf_name hr hx
    rw [← hname, (socketEntry_eq_ok hentry).1] at hstate
    exact Except.ok.inj hstate
  subst hp
  obtain ⟨vectors, hvectors⟩ := SocketTable.exists_gather hmem
  refine ⟨vectors, hvectors, ?_⟩
  -- what the table has for the state comes from a module of the same name
  obtain ⟨m', hm', hentry'⟩ := mem_of_mapM_ok hentries (SocketTable.mem_of_gather hvectors)
  have hname' : m'.name = m.name :=
    (name_of_stateOf hr hx (socketEntry_eq_ok hentry').1).trans hname.symm
  rwa [eq_of_name_eq hregistry hm' hm hname'] at hentry'

/-- The socket of a module for a type number is its vector for the type's name. -/
theorem socket_of_entries {r : Registry} (hregistry : file.registry = .ok r)
    {entries : List (Nat × Sockets)} (hentries : socketEntries file r = .ok entries)
    {table : SocketTable} (htable : SocketTable.ofEntries r entries = .ok table) {x : Module}
    (hx : x ∈ r.modules) {m : ModuleEntry} (hm : m ∈ file.modules) (hname : m.name = x.name)
    {t : Nat} {type : String} (htype : file.types[t]? = some type) :
    table.socket x.state t = (m.socket type).map List.toArray := by
  obtain ⟨vectors, hvectors, hentry⟩ := gather_of_entries hregistry hentries hx hm hname
  obtain ⟨v, hv, hvector⟩ := (socketEntry_eq_ok hentry).2.2 t type htype
  unfold SocketTable.socket
  rw [(SocketTable.of_ofEntries htable).1, hvectors, Option.bind_some, hvector, hv]
  rfl

/-! ## The relation -/

/-- The two kinds of rules that a file can give. -/
theorem ruleSet_cases {r : Registry} {set : RuleSet} (h : file.ruleSet r = .ok set) :
    (file.usesSockets = true ∧ ∃ entries table, socketEntries file r = .ok entries ∧
      SocketTable.ofEntries r entries = .ok table ∧ set = .sockets table) ∨
    (file.usesSockets = false ∧ ∃ tuples table, neighborTuples file r = .ok tuples ∧
      AdjacencyTable.ofTuples r tuples = .ok table ∧ set = .adjacency table) := by
  unfold ruleSet at h
  by_cases hsockets : file.usesSockets = true
  · rw [if_pos hsockets] at h
    obtain ⟨entries, hentries, h⟩ := bind_eq_ok_iff.mp h
    obtain ⟨table, htable, h⟩ := bind_eq_ok_iff.mp h
    cases h
    exact .inl ⟨hsockets, entries, table, hentries, liftRegistry_eq_ok_iff.mp htable, rfl⟩
  · rw [if_neg hsockets] at h
    obtain ⟨tuples, htuples, h⟩ := bind_eq_ok_iff.mp h
    obtain ⟨table, htable, h⟩ := bind_eq_ok_iff.mp h
    cases h
    exact .inr ⟨Bool.eq_false_iff.mpr hsockets, tuples, table, htuples,
      liftRegistry_eq_ok_iff.mp htable, rfl⟩

/-- Rules that a file gives are a table over its registry. -/
theorem over_of_build {loaded : LoadedRules} (h : file.build = .ok loaded) :
    loaded.ruleSet.Over loaded.registry := by
  obtain ⟨-, hrules⟩ := build_eq_ok_iff.mp h
  rcases ruleSet_cases hrules with
    ⟨-, entries, table, -, htable, hset⟩ | ⟨-, tuples, table, -, htable, hset⟩
  · rw [hset]
    exact ⟨entries, htable⟩
  · rw [hset]
    exact ⟨tuples, htable⟩

/-- What the rules allow between two modules for a type, by what the file says of their names. -/
theorem allows_names_iff {loaded : LoadedRules} (h : file.build = .ok loaded) {x y : Module}
    (hx : x ∈ loaded.registry.modules) (hy : y ∈ loaded.registry.modules) {mx my : ModuleEntry}
    (hmx : mx ∈ file.modules) (hmy : my ∈ file.modules) (hnx : mx.name = x.name)
    (hny : my.name = y.name) {t : Nat} {type dual : String}
    (htype : file.types.idxOf? type = some t) (hpaired : file.Paired type dual) :
    loaded.ruleSet.rules.allows x.state t y.state = true ↔
      if file.usesSockets then ∃ v, mx.socket type = some v ∧ my.socket dual = some v
      else ⟨x.name, y.name, type⟩ ∈ file.neighbors ∨ ⟨y.name, x.name, dual⟩ ∈ file.neighbors := by
  obtain ⟨hregistry, hrules⟩ := build_eq_ok_iff.mp h
  have hr := lawful_of_registry hregistry
  have hdual := (paired_iff_of_registry hregistry htype).mp hpaired
  obtain ⟨ht, -⟩ := List.idxOf?_eq_some_iff.mp htype
  rcases ruleSet_cases hrules with ⟨hsockets, entries, table, hentries, htable, hset⟩ |
    ⟨hsockets, tuples, table, htuples, htable, hset⟩
  · rw [if_pos hsockets, hset]
    show table.allows x.state t y.state = true ↔ _
    -- the table looks the dual up as the registry does
    have hsame : table.dual t = loaded.registry.dual t := by
      unfold SocketTable.dual
      rw [(SocketTable.of_ofEntries htable).2.1]
      rfl
    rw [SocketTable.allows_iff, hsame,
      socket_of_entries hregistry hentries htable hx hmx hnx (getElem?_of_idxOf? htype),
      socket_of_entries hregistry hentries htable hy hmy hny (getElem?_of_idxOf? hdual)]
    simp only [Option.map_eq_some_iff]
    constructor
    · rintro ⟨_, ⟨v, hv, rfl⟩, w, hw, hwv⟩
      have hvw : w = v := congrArg Array.toList hwv
      exact ⟨v, hv, hvw ▸ hw⟩
    · rintro ⟨v, hv, hw⟩
      exact ⟨v.toArray, ⟨v, hv, rfl⟩, v, hw, rfl⟩
  · rw [if_neg (Bool.eq_false_iff.mp hsockets), hset]
    show table.allows x.state t y.state = true ↔ _
    have ht' : t < loaded.registry.typeCount := (typeCount_of_registry hregistry).symm ▸ ht
    rw [AdjacencyTable.allows_iff hr htable, and_iff_right ht',
      mem_tuples_iff hr htuples hx hy htype, mem_tuples_iff hr htuples hy hx hdual]

/-- **The rules of a file allow what the file says.** -/
theorem allows_iff_of_build {loaded : LoadedRules} (h : file.build = .ok loaded) {x y : Module}
    (hx : x ∈ loaded.registry.modules) (hy : y ∈ loaded.registry.modules) {t : Nat}
    (ht : t < loaded.registry.duals.size) :
    loaded.ruleSet.rules.allows x.state t y.state = true ↔ file.Allows x.name t y.name := by
  obtain ⟨hregistry, -⟩ := build_eq_ok_iff.mp h
  have hr := lawful_of_registry hregistry
  have hnodup := types_nodup_of_registry hregistry
  obtain ⟨mx, hmx, hnx⟩ := exists_entry_of_registry hregistry hx
  obtain ⟨my, hmy, hny⟩ := exists_entry_of_registry hregistry hy
  constructor
  · intro hallows
    have ht' : t < loaded.registry.typeCount := hr.duals_size ▸ ht
    have hd := hr.dual_lt ht'
    rw [typeCount_of_registry hregistry] at ht' hd
    have htype := idxOf?_of_getElem? hnodup (List.getElem?_eq_getElem ht')
    have hpaired := (paired_iff_of_registry hregistry htype).mpr
      (idxOf?_of_getElem? hnodup (List.getElem?_eq_getElem hd))
    have hsays := (allows_names_iff h hx hy hmx hmy hnx hny htype hpaired).mp hallows
    refine ⟨_, _, List.getElem?_eq_getElem ht', hpaired, ?_⟩
    by_cases hsockets : file.usesSockets = true
    · rw [if_pos hsockets] at hsays ⊢
      exact ⟨mx, hmx, my, hmy, hnx, hny, hsays⟩
    · rw [if_neg hsockets] at hsays ⊢
      exact hsays
  · rintro ⟨type, dual, htype, hpaired, hsays⟩
    have htype' := idxOf?_of_getElem? hnodup htype
    by_cases hsockets : file.usesSockets = true
    · rw [if_pos hsockets] at hsays
      obtain ⟨mx, hmx, my, hmy, hnx, hny, hfit⟩ := hsays
      rw [allows_names_iff h hx hy hmx hmy hnx hny htype' hpaired, if_pos hsockets]
      exact hfit
    · rw [if_neg hsockets] at hsays
      rw [allows_names_iff h hx hy hmx hmy hnx hny htype' hpaired, if_neg hsockets]
      exact hsays

end RuleFile
end WaveCollapse
