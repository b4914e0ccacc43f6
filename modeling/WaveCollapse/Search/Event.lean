import WaveCollapse.Duration
import WaveCollapse.Propagation
import WaveCollapse.Search.Config

/-! # Events of a search

One step of a search is told as one event. The notes of a step say more. No time passes in
them, so a journal depends on the problem and the source only. -/

namespace WaveCollapse

/-- What one step of a search did. -/
inductive Event where
  /-- The waves were found non-empty and all variables were scheduled. -/
  | initialized (scheduled : Nat)
  /-- One connection was relaxed. -/
  | propagated (source destination kind : Nat) (narrowed : Bool)
  /-- A variable has no state left. -/
  | contradiction (v : Nat)
  /-- The last decision was undone and its state excluded; `depth` decisions remain. -/
  | backtracked (v excluded depth : Nat)
  /-- Every variable has its starting wave again. -/
  | restarted
  /-- A variable was collapsed to one state. -/
  | observed (v state : Nat)
  /-- Every variable is resolved. -/
  | completed
  /-- The search failed. -/
  | failed
deriving DecidableEq, Inhabited

namespace Event

/-- The event as it is written in a journal. -/
def text : Event → String
  | initialized n => s!"Initialized \x7b scheduled: {n} \x7d"
  | propagated s d t narrowed =>
    s!"Propagated \x7b source: WaveVariable({s}), destination: WaveVariable({d}), " ++
      s!"connection_type: {t}, narrowed: {narrowed} \x7d"
  | contradiction v => s!"Contradiction \x7b variable: WaveVariable({v}) \x7d"
  | backtracked v p depth =>
    s!"Backtracked \x7b variable: WaveVariable({v}), excluded: PureState({p}), " ++
      s!"depth: {depth} \x7d"
  | restarted => "Restarted"
  | observed v p => s!"Observed \x7b variable: WaveVariable({v}), state: PureState({p}) \x7d"
  | completed => "Completed"
  | failed => "Failed"

end Event

/-- The counts of a search that succeeded. -/
structure Stats where
  observations : Nat
  backtracks : Nat
  restarts : Nat
  propagationSteps : Nat
deriving DecidableEq, Inhabited

/-- What a search notes. -/
inductive SearchNote where
  | starting (count limit : Nat) (backtracking : Bool)
  | startingStepwise (count limit : Nat)
  | emptyBeforehand (v : Nat)
  | contradiction (v : Nat)
  | observation (number v state : Nat)
  | emptiedByExclusion (state v : Nat)
  | backtracked (depth state v : Nat)
  | restarted (number observations : Nat)
  | event (e : Event)
  | solved (stats : Stats)
  | failed (cause : CollapseError)
  | narrowing (note : NarrowingNote)
  | wave (note : Wave.Note)
  | problem (note : Problem.Note)
  | record (r : Record)

namespace SearchNote
open CollapseError (variableText)

instance : Narrated SearchNote where
  level
    | starting .. | startingStepwise .. | solved _ => .info
    | emptyBeforehand _ | failed _ => .warn
    | event _ => .trace
    | narrowing n => Narrated.level n
    | wave n => Narrated.level n
    | problem n => Narrated.level n
    | record r => r.level
    | _ => .debug
  text
    | starting n limit backtracking =>
      s!"Starting collapse of {n} variables (max {limit} observations, " ++
        s!"backtracking: {backtracking})"
    | startingStepwise n limit =>
      s!"Starting steppable collapse of {n} variables (max {limit} observations)"
    | emptyBeforehand v => s!"Variable {variableText v} has no possible state before collapse"
    | contradiction v => s!"Contradiction at {variableText v}"
    | observation n v p => s!"Observation {n}: {variableText v} collapsed to {p}"
    | emptiedByExclusion p v =>
      s!"Excluding {p} emptied {variableText v}; backtracking further"
    | backtracked depth p v =>
      s!"Backtracked to depth {depth}: excluded {p} from {variableText v}"
    | restarted n observations => s!"Restart {n} after {observations} observations"
    | event e => e.text
    | solved st =>
      s!"Collapse finished in {Duration.zero.short}: {st.observations} observations, " ++
        s!"{st.backtracks} backtracks, {st.restarts} restarts"
    | failed cause => s!"Collapse failed: {cause.message}"
    | narrowing n => Narrated.text n
    | wave n => Narrated.text n
    | problem n => Narrated.text n
    | record r => r.text

/-- What the end of a search gives to note. A search that met a wave it cannot read breaks
off without a word. -/
def ofOutcome : Except CollapseError Stats → List SearchNote
  | .ok stats => [solved stats]
  | .error .unreadableWave => []
  | .error cause => [failed cause]

end SearchNote

end WaveCollapse
