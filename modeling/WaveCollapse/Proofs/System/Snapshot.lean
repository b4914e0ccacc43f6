import WaveCollapse.Proofs.System.Laid
import WaveCollapse.Proofs.Wave.Document
import WaveCollapse.System.Snapshot

/-! # Snapshots

Reading a snapshot checks that its text spells waves and that there is one for every variable,
nothing else (`readSnapshot_eq_ok_iff`).  So the text of a system gives the system back in any
later state of it (`readSnapshot_writeSnapshot`).

In place, every change of the waves does what it does to a copy, and nothing when it fails
(`Change.Does.unchanged`).
-/

namespace WaveCollapse
variable {V : Type}

/-! ## Later states of a system -/

/-- Another state of the same system: only the waves may differ. -/
structure System.SameNetwork (t s : System V) : Prop where
  problem : t.problem = s.problem
  connections : t.connections = s.connections
  size : t.size = s.size

namespace System
variable {s t : System V}

theorem SameNetwork.symm (h : t.SameNetwork s) : s.SameNetwork t :=
  ⟨h.problem.symm, h.connections.symm, h.size.symm⟩

/-- A system of the same network is given by its waves. -/
theorem SameNetwork.with_waves (h : t.SameNetwork s) : { t with waves := s.waves } = s := by
  cases s
  cases t
  cases h.problem
  cases h.connections
  rfl

/-! ## Reading -/

/-- A vector of as many waves is taken as it is. -/
theorem restore_eq_ok_iff {ws : Array Wave} :
    s.restore ws = .ok t ↔ ws.size = s.size ∧ t = { s with waves := ws } := by
  unfold restore
  split
  · next fits =>
    rw [Except.ok.injEq]
    exact ⟨fun h => ⟨fits, h.symm⟩, fun h => h.2.symm⟩
  · next differs => exact iff_of_false (fun h => nomatch h) (fun h => differs h.1)

/-- What reading asks of a text, and what it leaves. -/
theorem readSnapshot_eq_ok_iff {text : String} :
    s.readSnapshot text = .ok t ↔ ∃ ws, Wave.ofSnapshotText? text = some ws ∧
      ws.length = s.size ∧ t = { s with waves := ws.toArray } := by
  unfold readSnapshot
  cases Wave.ofSnapshotText? text with
  | none => exact iff_of_false (fun h => nomatch h) (fun ⟨_, h, _⟩ => nomatch h)
  | some ws =>
    dsimp only
    rw [restore_eq_ok_iff, List.size_toArray]
    constructor
    · exact fun h => ⟨ws, rfl, h⟩
    · rintro ⟨ws', hws, h⟩
      cases hws
      exact h

/-- Every layout of the system is made of words, as those of well-formed waves are when their class
and their stride are words (`Wave.WellFormed.wordSized`). -/
def WordSized (s : System V) : Prop := ∀ w ∈ s.waves.toList, w.layout.WordSized

/-- **The text of a system gives it back, in whatever state it is by then.** -/
theorem readSnapshot_writeSnapshot (hs : s.WordSized) (ht : t.SameNetwork s) :
    t.readSnapshot s.writeSnapshot = .ok s := by
  refine readSnapshot_eq_ok_iff.mpr ⟨s.waves.toList, ?_, ?_, ?_⟩
  · exact Wave.ofSnapshotText?_snapshotText hs
  · rw [Array.length_toList]
    exact ht.size.symm
  · rw [Array.toArray_toList]
    exact ht.with_waves.symm

end System

/-! ## Changing in place -/

namespace Change

/-- The change does to a system in place what a function does to a copy of it, and leaves the
system alone where the function fails. -/
structure Does (c : Change V Unit) (f : System V → Except CollapseError (System V)) : Prop where
  ok : ∀ {s r : System V}, f s = .ok r → c.run s = .ok () r
  error : ∀ {s : System V} {e : CollapseError}, f s = .error e → c.run s = .error e s

/-- A change that fails has changed nothing. -/
theorem Does.unchanged {c : Change V Unit} {f : System V → Except CollapseError (System V)}
    (h : c.Does f) {s r : System V} {e : CollapseError} (failed : c.run s = .error e r) :
    r = s := by
  cases hf : f s with
  | ok t => cases failed.symm.trans (h.ok hf)
  | error e' =>
    cases failed.symm.trans (h.error hf)
    rfl

theorem setWave_does (v : Nat) (w : Wave) :
    (setWave v w : Change V Unit).Does (System.setWave · v w) := by
  have run (s : System V) : (setWave v w).run s =
      (if v < s.size then modify fun s => { s with waves := s.waves.setIfInBounds v w }
        else throw (.unknownVariable v) : Change V Unit).run s := rfl
  constructor
  · intro s r h
    unfold System.setWave at h
    split at h
    · next inside =>
      cases h
      rw [run, if_pos inside]
      rfl
    · cases h
  · intro s e h
    unfold System.setWave at h
    split at h
    · cases h
    · next outside =>
      cases h
      rw [run, if_neg outside]
      rfl

theorem restore_does (ws : Array Wave) :
    (restore ws : Change V Unit).Does (System.restore · ws) := by
  constructor
  · intro s r h
    obtain ⟨fits, rfl⟩ := System.restore_eq_ok_iff.mp h
    unfold restore
    simp [fits]
  · intro s e h
    unfold System.restore at h
    split at h
    · cases h
    · next differs =>
      cases h
      unfold restore
      simp [differs]

theorem readSnapshot_does (text : String) :
    (readSnapshot text : Change V Unit).Does (System.readSnapshot · text) := by
  unfold readSnapshot System.readSnapshot
  cases Wave.ofSnapshotText? text with
  | some ws => exact restore_does ws.toArray
  | none =>
    refine ⟨fun h => ?_, fun h => ?_⟩
    · cases h
    · cases h
      rfl

/-- Waves are laid aside one by one; the first that cannot be had ends this, and the system is
not touched. -/
theorem run_layAside {α : Type} (f : α → Except CollapseError Wave) (xs : List α)
    (aside : Array Wave) (s : System V) :
    (xs.foldlM (fun waves x => do
      let w ← ofExcept (f x)
      return waves.push w) aside : Change V (Array Wave)).run s =
        match xs.mapM f with
        | .ok ws => .ok (aside ++ ws.toArray) s
        | .error e => .error e s := by
  induction xs generalizing aside with
  | nil =>
    show EStateM.Result.ok aside s = .ok (aside ++ #[]) s
    rw [Array.append_empty]
  | cons x xs ih =>
    rw [List.foldlM_cons, List.mapM_cons]
    cases hx : f x with
    | error e => rfl
    | ok w =>
      show (xs.foldlM _ (aside.push w) : Change V (Array Wave)).run s = _
      rw [ih]
      cases xs.mapM f with
      | error e => rfl
      | ok ws =>
        have joined : aside.push w ++ ws.toArray = aside ++ (w :: ws).toArray := by
          simp
        exact congrArg (EStateM.Result.ok · s) joined

/-- The starting waves are taken over when all of them can be had. -/
theorem run_reset (s : System V) : (reset : Change V Unit).run s =
    match s.problem.startingWaves with
    | .ok waves => .ok () { s with waves }
    | .error e => .error e s := by
  have collected : s.problem.startingWaves = (s.problem.topology.vertices.zipIdx.mapM
      fun entry => s.problem.startingWave entry.2 entry.1).map List.toArray := rfl
  unfold reset
  simp only [EStateM.run_bind, EStateM.run_get]
  rw [run_layAside, collected]
  cases s.problem.topology.vertices.zipIdx.mapM
    fun entry => s.problem.startingWave entry.2 entry.1 with
  | error e => rfl
  | ok ws =>
    dsimp only
    rw [Array.empty_append]
    rfl

theorem reset_does : (reset : Change V Unit).Does System.reset := by
  constructor
  · intro s r h
    obtain ⟨ws, hws, rfl⟩ := map_eq_ok_iff.mp h
    rw [run_reset, hws]
  · intro s e h
    rw [run_reset, map_eq_error_iff.mp h]

end Change
end WaveCollapse
