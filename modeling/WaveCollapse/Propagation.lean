import WaveCollapse.Numbers
import WaveCollapse.System.Basic
import WaveCollapse.Wave.Components

/-! # Propagation

A change of a wave is carried along the connections of its variable: each destination keeps
only what its source admits, and a destination that lost states is carried on itself. The
*frontier* holds the work left as a stack of frames, each a variable with the number of its
next connection; `propagateStep` relaxes one connection.

A run of propagation ends: a step that narrows takes away a state that can be seen
(`totalComponents`), and every other step uses up one of the connections that wait on the
frontier (`pending`). -/

namespace WaveCollapse

/-- A variable whose change still has to be carried along its connections from the one
numbered `next`. -/
structure Frame where
  v : Nat
  next : Nat := 0
deriving DecidableEq, Inhabited

/-- The frames of a frontier, the one to go on with first. -/
abbrev Frontier := List Frame

namespace Frontier

/-- Schedules a variable; it comes first. -/
def push (f : Frontier) (v : Nat) : Frontier := { v } :: f

end Frontier

/-- What became of one step of propagation. -/
inductive Relaxation where
  /-- No connection was left. -/
  | idle
  /-- The destination has nothing that the source does not admit. -/
  | unchanged (source destination kind : Nat)
  /-- The destination lost states and was scheduled. -/
  | narrowed (source destination kind : Nat)
  /-- The destination lost all of its states; the frontier was dropped. -/
  | contradiction (source destination kind : Nat)
  /-- One of the ends has a wave that cannot be read. -/
  | unreadable
deriving DecidableEq, Inhabited

/-- A state of a wave was taken away. -/
structure NarrowingNote where
  source : Nat
  destination : Nat
  kind : Nat
  before : Wave
  after : Wave

instance : Narrated NarrowingNote where
  level _ := .trace
  text n :=
    s!"Narrowed {CollapseError.variableText n.destination} via " ++
      s!"{CollapseError.variableText n.source} (type {n.kind}): {n.before.text} -> {n.after.text}"

/-- A step of propagation: what became of it, the system and the frontier after it. -/
structure Propagated (V : Type) where
  relaxation : Relaxation
  system : System V
  frontier : Frontier
  notes : List NarrowingNote := []

namespace System
variable {V : Type} (s : System V)

/-- The first connection waiting on a frontier, with its source and the frontier that is
left. Frames without a waiting connection are dropped. -/
def nextConnection : Frontier → Option (Nat × Connection × Frontier)
  | [] => none
  | f :: rest =>
    match (s.outgoing f.v)[f.next]? with
    | some c => some (f.v, c, { f with next := f.next + 1 } :: rest)
    | none => nextConnection rest

/-- What a connection leaves of its destination's wave. -/
def relaxed (source : Nat) (c : Connection) : Wave :=
  let y := s.wave c.destination
  y.maskBy (s.problem.rules.allowed (s.wave source) c.kind y)

/-- Relaxes the next waiting connection. -/
def propagateStep (frontier : Frontier) : Propagated V :=
  match s.nextConnection frontier with
  | none => ⟨.idle, s, [], []⟩
  | some (source, c, frontier) =>
    let before := s.wave c.destination
    if ¬ ((s.wave source).Readable ∧ before.Readable) then ⟨.unreadable, s, frontier, []⟩
    else
      let after := s.relaxed source c
      if after.agrees before then ⟨.unchanged source c.destination c.kind, s, frontier, []⟩
      else
        let system := { s with waves := s.waves.setIfInBounds c.destination after }
        let notes := [⟨source, c.destination, c.kind, before, after⟩]
        if after.isEmpty then
          ⟨.contradiction source c.destination c.kind, system, [], notes⟩
        else
          ⟨.narrowed source c.destination c.kind, system, frontier.push c.destination, notes⟩

/-! ## The work left -/

/-- How many connections wait on a frontier. -/
def pending (frontier : Frontier) : Nat :=
  total (frontier.map fun f => (s.outgoing f.v).size - f.next)

/-- How many states can be seen in all waves together. -/
def totalComponents : Nat := total (s.waves.toList.map fun w => w.components.length)

/-! ## Every step leaves less work -/

theorem nextConnection_pending {frontier rest : Frontier} {source : Nat} {c : Connection}
    (h : s.nextConnection frontier = some (source, c, rest)) :
    s.pending rest < s.pending frontier := by
  induction frontier with
  | nil => cases h
  | cons f frontier ih =>
    unfold nextConnection at h
    split at h
    · rename_i found
      cases h
      have bound := (Array.getElem?_eq_some_iff.mp found).1
      simp only [pending, List.map_cons, total_cons]
      omega
    · have := ih h
      simp only [pending, List.map_cons, total_cons] at this ⊢
      omega

/-- Replacing an entry of a list changes the sum of its weights by the difference. -/
theorem total_map_set {α : Type} (weight : α → Nat) {l : List α} {i : Nat} (h : i < l.length)
    (a : α) : total ((l.set i a).map weight) + weight l[i] = total (l.map weight) + weight a := by
  induction l generalizing i with
  | nil => cases h
  | cons b l ih =>
    cases i with
    | zero => simp; omega
    | succ i =>
      have := ih (i := i) (by simpa using h)
      simp only [List.set_cons_succ, List.map_cons, total_cons, List.getElem_cons_succ]
      omega

/-- Writing a wave with fewer components leaves fewer components in all. -/
theorem totalComponents_set {v : Nat} {w : Wave}
    (fewer : w.components.length < (s.wave v).components.length) :
    totalComponents { s with waves := s.waves.setIfInBounds v w } < s.totalComponents := by
  unfold wave at fewer
  by_cases h : v < s.waves.size
  · have balance := total_map_set (fun w : Wave => w.components.length)
      (l := s.waves.toList) (i := v) (by simpa using h) w
    rw [Array.getD_eq_getD_getElem?, Array.getElem?_eq_getElem h] at fewer
    simp only [Option.getD_some] at fewer
    simp only [totalComponents, Array.toList_setIfInBounds]
    simp only [Array.getElem_toList] at balance
    omega
  · rw [Array.getD_eq_getD_getElem?, Array.getElem?_eq_none (by omega)] at fewer
    have none_left : (default : Wave).components = [] := rfl
    simp [none_left] at fewer

/-- A step that finds its destination unchanged keeps the system and uses up a waiting
connection. -/
theorem propagateStep_unchanged {frontier : Frontier} {source destination kind : Nat}
    (h : (s.propagateStep frontier).relaxation = .unchanged source destination kind) :
    (s.propagateStep frontier).system = s ∧
      s.pending (s.propagateStep frontier).frontier < s.pending frontier := by
  unfold propagateStep at h ⊢
  split
  · simp_all
  · rename_i found
    simp only [found] at h
    split at h
    · cases h
    · split at h
      · rename_i readable agreed
        simp only [readable, agreed, if_true, if_false]
        exact ⟨trivial, s.nextConnection_pending found⟩
      · split at h <;> cases h

/-- A step that narrows leaves fewer components in all. -/
theorem propagateStep_narrowed {frontier : Frontier} {source destination kind : Nat}
    (h : (s.propagateStep frontier).relaxation = .narrowed source destination kind) :
    (s.propagateStep frontier).system.totalComponents < s.totalComponents := by
  unfold propagateStep at h ⊢
  split
  · simp_all
  · rename_i found
    simp only [found] at h
    split at h
    · cases h
    · split at h
      · cases h
      · split at h
        · cases h
        · rename_i readable changed nonempty
          simp only [readable, changed, nonempty, if_false]
          exact s.totalComponents_set
            (Wave.length_components_maskBy_lt (Bool.not_eq_true _ ▸ changed))

/-! ## Propagating to the end -/

/-- How a propagation ended. -/
inductive PropagationError where
  /-- A variable lost all of its states. -/
  | contradiction (v : Nat)
  /-- A wave could not be read. -/
  | unreadableWave
deriving DecidableEq, Inhabited

/-- The wording of a failed propagation. -/
def PropagationError.message : PropagationError → String
  | contradiction v =>
    s!"Contradiction detected during propagation at variable {CollapseError.variableText v}"
  | unreadableWave => CollapseError.unreadableWave.message

/-- Relaxes connections until none is left or one fails; the journal is carried along. What
was changed before a failure stays changed. -/
def drain (s : System V) (frontier : Frontier) (journal : Journal) :
    Except PropagationError Unit × System V × Journal :=
  let next := s.propagateStep frontier
  match _h : next.relaxation with
  | .idle => (.ok (), next.system, journal)
  | .contradiction _ destination _ =>
    (.error (.contradiction destination), next.system, journal.tellAll next.notes)
  | .unreadable => (.error .unreadableWave, next.system, journal)
  | .unchanged .. => drain next.system next.frontier journal
  | .narrowed .. => drain next.system next.frontier (journal.tellAll next.notes)
termination_by (s.totalComponents, s.pending frontier)
decreasing_by
  · obtain ⟨same, less⟩ := s.propagateStep_unchanged _h
    simp only [same]
    exact Prod.Lex.right _ less
  · exact Prod.Lex.left _ _ (s.propagateStep_narrowed _h)

/-- Carries the wave of one variable through the system. -/
def propagate (s : System V) (origin : Nat) (journal : Journal) :
    Except PropagationError Unit × System V × Journal :=
  s.drain [{ v := origin }] journal

end System

end WaveCollapse
