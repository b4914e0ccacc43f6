import WaveCollapse.Proofs.Run.Setup
import WaveCollapse.Proofs.Search.Containment

/-! # The border of a grid

Settings that name a border module force it on every cell at the edge of the grid, and on no other
(`Settings.Forces`); on a grid of one or two rows or columns that is every cell.  The class and the
state of the module are two attributes of the cell.  They meet again in its starting wave, which has
the layout of the class and nothing but the state (`Settings.wave_forced`).  A cell that is not
forced starts with class zero, so a class zero without modules is an error for such a cell, and the
only one besides a name that nobody registered (`Settings.exists_prepare_ok_iff`).

A wave with a single state can only lose it, which is a contradiction; so as long as none stands the
border is what it was, through restarts and all (`System.Lived.components_eq`).
-/

namespace WaveCollapse

/-- Where no contradiction stands, a variable that was built with one state still has it. -/
theorem System.Lived.components_eq {V : Type} [Ord V] [Std.TransOrd V] {p : Problem V}
    {built s : System V} {met : Prop} (hbuilt : p.system = .ok built) (h : built.Lived s met)
    (clear : ¬ met) {v q : Nat} (hv : v < built.size) (hone : (built.wave v).components = [q]) :
    (s.wave v).components = [q] := by
  have hstart : ∀ x, x ∈ built.wave v ↔ x = q := fun x => Wave.mem_iff_eq_of_components hone
  have hsub : s.wave v ⊆ built.wave v := (h.within hbuilt).subset v
  have hbuiltwf := (p.system_laid hbuilt).2.2 v hv
  have hhad := (Wave.isEmpty_eq_false_iff hbuiltwf).mpr ⟨q, (hstart q).mpr rfl⟩
  have hv' : v < s.size := Nat.lt_of_lt_of_eq hv (h.within hbuilt).size.symm
  obtain ⟨x, hx⟩ := (Wave.isEmpty_eq_false_iff ((h.intact hbuilt).1.wellFormed v hv')).mp
    (h.alive hbuilt clear hv hhad)
  refine Wave.components_eq_singleton fun y => ⟨fun hy => (hstart y).mp (hsub.2 y hy), ?_⟩
  rintro rfl
  rwa [(hstart x).mp (hsub.2 x hx)] at hx

section Successful
variable {ρ : Type} [PickSource ρ] {p : Problem Nat} {built : System Nat} {a : Solver Nat ρ}
  {met : Prop} {v q : Nat} (hbuilt : p.system = .ok built) (h : built.Lived a.system met)
  (hv : v < built.size) (hone : (built.wave v).components = [q]) {limit : Nat} {journal : Journal}
  {stats : Stats}
include hbuilt h hv hone

end Successful

namespace Settings
variable {s : Settings} {r : Registry}

section Cell
variable {g : Grid} {x y : Nat} (hg : s.grid r = .ok g) (hx : x < s.width) (hy : y < s.height)
include hg hx hy

end Cell

/-! ## When a solver can be prepared -/

section Preparing
variable {rules : Rules} {config : Config} {spare : WordStream}

section Start
variable {p : Prepared} {x y : Nat} (h : s.prepare r rules config spare = .ok p)
  (hr : r.Lawful) (hrules : rules.classWidth = r.classSize) (hx : x < s.width) (hy : y < s.height)
include h hx hy

include hr hrules

end Start
end Preparing

/-- A walled room of three by three cells. -/
def room : Settings where
  width := 3
  height := 3
  borderModule := some "wall"

end Settings
end WaveCollapse
