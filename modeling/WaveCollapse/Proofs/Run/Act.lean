import WaveCollapse.Run.Act

/-! # What acts do

An act, taken by itself, turns a workspace into a result and a workspace (`Act.effect`).  The
lemmas say what the single acts do; a chain of acts goes on where the act before it left the
workspace, and stops at the first error.
-/

namespace WaveCollapse.Act
variable {α β : Type}

/-- The result of an act and the workspace that it leaves. -/
def effect (act : Act Id α) (w : Workspace) : Except RunError α × Workspace :=
  ((ExceptT.run act).run w).run

/-! ## Chains -/

theorem effect_pure (a : α) (w : Workspace) : effect (pure a) w = (.ok a, w) := rfl

theorem effect_bind (act : Act Id α) (next : α → Act Id β) (w : Workspace) :
    effect (act >>= next) w =
      match effect act w with
      | (.ok a, w') => effect (next a) w'
      | (.error e, w') => (.error e, w') := by
  show (ExceptT.bindCont next (effect act w).1).run (effect act w).2 = _
  obtain ⟨result, w'⟩ := effect act w
  cases result <;> rfl

theorem effect_bind_ok {act : Act Id α} {w w' : Workspace} {a : α}
    (h : effect act w = (.ok a, w')) (next : α → Act Id β) :
    effect (act >>= next) w = effect (next a) w' := by
  rw [effect_bind, h]

theorem effect_bind_error {act : Act Id α} {w w' : Workspace} {e : RunError}
    (h : effect act w = (.error e, w')) (next : α → Act Id β) :
    effect (act >>= next) w = (.error e, w') := by
  rw [effect_bind, h]

/-! ## Single acts -/

theorem effect_get (w : Workspace) : effect get w = (.ok w, w) := rfl

theorem effect_ofExcept (r : Except RunError α) (w : Workspace) :
    effect (ofExcept r) w = (r, w) := by
  cases r <;> rfl

theorem effect_tell {ν : Type} [Narrated ν] (notes : List ν) (w : Workspace) :
    effect (tell notes) w = (.ok (), { w with journal := w.journal.tellAll notes }) := rfl

theorem effect_print (text : String) (w : Workspace) :
    effect (print text) w = (.ok (), { w with printed := w.printed ++ text }) := rfl

theorem effect_keepJournal (f : Journal → α × Journal) (w : Workspace) :
    effect (keepJournal f) w = (.ok (f w.journal).1, { w with journal := (f w.journal).2 }) := rfl

theorem effect_save (path text : String) (w : Workspace) :
    effect (save path text) w =
      match w.files.writeText path text with
      | .ok files => (.ok (), { w with files })
      | .error cause => (.error (.file cause), w) := by
  unfold save
  rw [effect_bind_ok (effect_get w)]
  cases h : w.files.writeText path text with
  | ok files => exact effect_bind_ok (effect_ofExcept (.ok files) w) _
  | error cause => exact effect_bind_error (effect_ofExcept (.error (.file cause)) w) _

end WaveCollapse.Act
