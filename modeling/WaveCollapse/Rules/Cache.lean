import WaveCollapse.Rules.Basic

/-! # Cached rules

For every connection type, every pure state and every class, the cache holds the wave of
that class that the state admits. What a wave admits is then a union of cached waves.
A question that the cache cannot answer, because its template has another layout than the
cache was made for or a component has no entry, is answered from the rules themselves, so
the answers are always the same. -/

namespace WaveCollapse

/-- Admitted waves by type, state and class. -/
structure MaskCache where
  stride : Nat
  masks : Array (Array (Array (Option Wave)))

namespace MaskCache
variable (r : Rules)

/-- The layout of a class under the cache's stride. -/
def layout (stride c : Nat) : Layout := ⟨c, stride, r.classWidth c⟩

/-- The classes that have states. -/
def usedClasses : List Nat := (List.range r.classCount).filter (0 < r.classWidth ·)

/-- The wave of class `c` that state `x` admits across type `t`; a class without states and
a number that no state has under this stride have no entry. -/
def entry (stride t x c : Nat) : Option Wave :=
  let source := layout r stride (x / stride)
  if 0 < r.classWidth c ∧ (source.offset? x).isSome then
    some (admitted r.allows ((Wave.empty source).add x) t (Wave.empty (layout r stride c)))
  else none

/-- Fills a cache. Every class with states has to fit the stride and a wave. -/
def fill (stride : Nat) : Except LayoutError MaskCache :=
  let checked : Except LayoutError Unit :=
    if r.typeCount = 0 then .ok ()
    else (usedClasses r).forM fun c => (layout r stride c).check
  checked.map fun _ => {
    stride
    masks := Array.ofFn fun (t : Fin r.typeCount) =>
      Array.ofFn fun (x : Fin (r.classCount * stride)) =>
        Array.ofFn fun (c : Fin r.classCount) => entry r stride t x c }

/-- `entry` in words. -/
def checkedEntry (stride t x c : Nat) : Checked (Option Wave) :=
  let source := layout r stride (x / stride)
  if 0 < r.classWidth c ∧ (source.offset? x).isSome then do
    let single ← (Wave.empty source).checkedAdd x
    let mask ← checkedAdmitted r.allows single t (Wave.empty (layout r stride c))
    return some mask
  else .ok none

/-- `fill` in words. The number of states is multiplied out before any class is checked. -/
def checkedFill (stride : Nat) : Checked (Except LayoutError MaskCache) := do
  let states ← Word.mul r.classCount stride
  let fits : Except LayoutError Unit :=
    if r.typeCount = 0 then .ok ()
    else (usedClasses r).forM fun c => (layout r stride c).check
  match fits with
  | .error e => return .error e
  | .ok () =>
    let masks ← Word.tabulate r.typeCount fun t =>
      Word.tabulate states fun x => Word.tabulate r.classCount (checkedEntry r stride t x)
    return .ok { stride, masks }

variable (m : MaskCache)

/-- The cached wave for a state, a type and a template of the cache's own layout. -/
def mask? (x t : Nat) (template : Wave) : Option Wave :=
  if template.layout.stride = m.stride then do
    let row ← m.masks[t]?
    let column ← row[x]?
    let mask ← (← column[template.layout.classId]?)
    if mask.layout.width = template.layout.width then some mask else none
  else none

/-- The union of the cached waves of all components, or what the rules admit where one is
missing. -/
def allowed (x : Wave) (t : Nat) (template : Wave) : Wave :=
  match x.components.mapM fun s => m.mask? s t template with
  | some masks => masks.foldl Wave.union template.emptied
  | none => admitted r.allows x t template

/-- `allowed` in words. -/
def checkedAllowed (x : Wave) (t : Nat) (template : Wave) : Checked Wave := do
  let sources ← x.checkedComponents
  match sources.mapM fun s => m.mask? s t template with
  | some masks => return masks.foldl Wave.union template.emptied
  | none => checkedAdmitted r.allows x t template

end MaskCache

namespace Rules

/-- The same rules, answering from a cache made for a stride. -/
def cached (r : Rules) (stride : Nat) : Except LayoutError Rules :=
  (MaskCache.fill r stride).map fun m => { r with allowed := m.allowed r }

/-- A cache was filled. -/
structure CacheNote where
  types : Nat
  classes : Nat
  states : Nat

instance : Narrated CacheNote where
  level _ := .debug
  text n := s!"Cached allowed-state masks for {n.types} connection types, " ++
    s!"{n.classes} classes, {n.states} states"

/-- What `cached` notices when it succeeds. -/
def cachedNote (r : Rules) (stride : Nat) : CacheNote :=
  ⟨r.typeCount, r.classCount, r.classCount * stride⟩

end Rules

end WaveCollapse
