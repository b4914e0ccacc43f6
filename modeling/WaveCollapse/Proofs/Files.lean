import WaveCollapse.Files

/-! # What is written can be read

A file that is put at a path is found there again (`Files.readText_writeText`): the directories
that the path leads through are still directories, since none of them is the place written to.
Whether a path can be written does not depend on what is written (`Files.takes_iff`).
-/

namespace WaveCollapse.Files
variable {f f' : Files} {path : String} {place : List String}

/-- A path that a file can be put at: it leads to a place without a directory. -/
def Writable (f : Files) (path : String) (place : List String) : Prop :=
  f.locate path = .ok place ∧ asDirectory path = false ∧
    ∃ e, f.lookUp place = .ok e ∧ ∀ entry, e = some entry → ∃ content, entry = .file content

theorem write_eq_ok_iff {content : ByteArray} :
    f.write path content = .ok f' ↔ ∃ place, f.Writable path place ∧
      f' = { f with entries := (place, .file content) :: f.entries } := by
  unfold write
  constructor
  · intro h
    split at h
    · cases h
    · next place hplace =>
      split at h
      · cases h
      · next hname =>
        split at h
        · cases h
        · cases h
        · next e hentry hfound =>
          cases h
          refine ⟨place, ⟨hplace, Bool.eq_false_iff.mpr hname, e, hfound, ?_⟩, rfl⟩
          intro entry he
          cases entry with
          | file content => exact ⟨content, rfl⟩
          | directory => exact absurd he (by simpa using hentry)
  · rintro ⟨place, ⟨hplace, hname, e, hfound, hfile⟩, rfl⟩
    rw [hplace]
    dsimp only
    rw [if_neg (Bool.eq_false_iff.mp hname), hfound]
    cases e with
    | none => rfl
    | some entry =>
      obtain ⟨content, rfl⟩ := hfile entry rfl
      rfl

/-! ## The entries after writing -/

section Written
variable {content : ByteArray}

theorem lookUp_put_ne {q : List String} (hq : q ≠ place) :
    ({ f with entries := (place, .file content) :: f.entries } : Files).lookUp q =
      f.lookUp q := by
  have hlookup : ((place, Entry.file content) :: f.entries).lookup q = f.entries.lookup q := by
    rw [List.lookup_cons, beq_false_of_ne hq]
  unfold lookUp entryAt?
  dsimp only
  rw [hlookup]

theorem lookUp_put_self {e : Option Entry} (hfound : f.lookUp place = .ok e)
    (hfile : ∀ entry, e = some entry → ∃ content, entry = .file content) :
    ({ f with entries := (place, .file content) :: f.entries } : Files).lookUp place =
      .ok (some (.file content)) := by
  unfold lookUp entryAt? at hfound ⊢
  split at hfound
  · cases hfound
  · next hname =>
    rw [if_neg hname]
    split at hfound
    · cases hfound
      obtain ⟨content, hdir⟩ := hfile .directory rfl
      cases hdir
    · next hgiven =>
      rw [if_neg hgiven, List.lookup_cons, beq_self_eq_true]

/-- The way to a place that holds no directory is the same after something was put there. -/
theorem walk_put {here : List String} {names : List String} (hwalk : f.walk here names = .ok place)
    {e : Option Entry} (hfound : f.lookUp place = .ok e) (hdir : e ≠ some .directory) :
    ({ f with entries := (place, .file content) :: f.entries } : Files).walk here names =
      .ok place := by
  induction names generalizing here with
  | nil => exact hwalk
  | cons name names ih =>
    unfold walk at hwalk ⊢
    cases hhere : f.lookUp here with
    | error e =>
      rw [hhere] at hwalk
      cases hwalk
    | ok there =>
      rw [hhere] at hwalk
      cases there with
      | none => cases hwalk
      | some entry =>
        cases entry with
        | file content => cases hwalk
        | directory =>
          -- a directory on the way is not the place that is written to
          have hne : here ≠ place := by
            rintro rfl
            cases hfound.symm.trans hhere
            exact hdir rfl
          rw [lookUp_put_ne hne, hhere]
          exact ih hwalk

end Written

/-- **A file that was written holds what was written.** -/
theorem read_write {content : ByteArray} (h : f.write path content = .ok f') :
    f'.read path = .ok content := by
  obtain ⟨place, ⟨hplace, hname, e, hfound, hfile⟩, rfl⟩ := write_eq_ok_iff.mp h
  have hdir : e ≠ some .directory := by
    intro he
    obtain ⟨content, hcontent⟩ := hfile _ he
    cases hcontent
  have hlocate : ({ f with entries := (place, .file content) :: f.entries } : Files).locate path =
      .ok place := by
    unfold locate at hplace ⊢
    split at hplace
    · cases hplace
    · split at hplace
      · cases hplace
      · split at hplace
        · cases hplace
        · next hzero hempty hlong =>
          rw [if_neg hzero, if_neg hempty, if_neg hlong]
          exact walk_put hplace hfound hdir
  unfold read
  rw [hlocate]
  dsimp only
  rw [lookUp_put_self hfound hfile]
  dsimp only
  rw [if_neg (Bool.eq_false_iff.mp hname)]

theorem readText_writeText {text : String} (h : f.writeText path text = .ok f') :
    f'.readText path = .ok text := by
  unfold readText
  rw [read_write h]
  have htext : String.fromUTF8? text.toUTF8 = some text := by
    unfold String.fromUTF8?
    rw [String.toUTF8_eq_toByteArray, dif_pos text.isValidUTF8]
    rfl
  dsimp only
  rw [htext]

/-- A path that takes one text takes every text. -/
def Takes (f : Files) (path : String) : Prop := ∀ text, ∃ f', f.writeText path text = .ok f'

theorem takes_iff : f.Takes path ↔ ∃ place, f.Writable path place := by
  constructor
  · intro h
    obtain ⟨f', hwrite⟩ := h ""
    obtain ⟨place, hplace, -⟩ := write_eq_ok_iff.mp hwrite
    exact ⟨place, hplace⟩
  · rintro ⟨place, hplace⟩ text
    exact ⟨_, write_eq_ok_iff.mpr ⟨place, hplace, rfl⟩⟩

/-! ## Names -/

/-- The name of a file in the working directory. -/
structure Plain (name : String) : Prop where
  textual : name.contains '\x00' = false
  inhabited : name.isEmpty = false
  short : name.utf8ByteSize ≤ Path.maxNameSize
  relative : name.startsWith "/" = false
  unslashed : asDirectory name = false
  alone : Path.steps name = [name]
  proper : name ≠ Path.root ∧ name ≠ Path.above ∧ name ≠ Path.same

/-- A name without a slash is a path of one step. -/
theorem steps_of_splitOn {name : String} (hsplit : name.splitOn "/" = [name])
    (hinhabited : name ≠ "") : Path.steps name = [name] := by
  unfold Path.steps
  rw [hsplit]
  simp [hinhabited]

/-- A name can be written where it is not that of a directory. -/
theorem Plain.writable {name : String} (hname : Plain name)
    (hfree : f.entries.lookup [name] ≠ some .directory) : f.Writable name [name] := by
  obtain ⟨hroot, habove, hsame⟩ := hname.proper
  have hhere : f.lookUp [] = .ok (some .directory) := rfl
  have hlocate : f.locate name = .ok [name] := by
    have hlimit : ¬ Path.sizeLimit ≤ name.utf8ByteSize :=
      Nat.not_le_of_lt (Nat.lt_of_le_of_lt hname.short (by decide))
    unfold locate Path.start
    rw [if_neg (Bool.eq_false_iff.mp hname.textual), if_neg (Bool.eq_false_iff.mp hname.inhabited),
      if_neg hlimit, if_neg (Bool.eq_false_iff.mp hname.relative), hname.alone]
    unfold walk
    rw [hhere]
    show Except.ok (Path.step [] name) = _
    unfold Path.step
    rw [if_neg habove, if_neg hsame, List.nil_append]
  have hgiven : isGiven [name] = false := by
    unfold isGiven
    simp [hroot, habove]
  refine ⟨hlocate, hname.unslashed, f.entries.lookup [name], ?_, ?_⟩
  · unfold lookUp entryAt?
    rw [hgiven]
    exact if_neg (by simpa using hname.short)
  · intro entry hentry
    cases entry with
    | file content => exact ⟨content, rfl⟩
    | directory => exact absurd hentry hfree

end WaveCollapse.Files
