import Mathlib.Data.Option.Basic
import WaveCollapse.Proofs.Duration
import WaveCollapse.Proofs.Except
import WaveCollapse.Settings.Basic
import WaveCollapse.Settings.CommandLine

/-! # What a command line gives

`Arguments.given` says for every field what a command line gives, in the type that the field has in
the settings.  The value of one option says nothing about another field (`given_of_accept`).

A command line is read argument by argument, and an option is taken only when some argument has
named it.  So what every option keeps that the arguments name is kept by the whole reading
(`parse_keeps`); in particular nothing is given for a field that no argument names
(`given_of_unnamed`).  The other way round, the option of a field leaves a value for the field, or
waits for it at the end of what was read (`Has`), until the value is taken; so a field that some
argument names has a value (`gives_of_named`).
-/

namespace WaveCollapse.Arguments
variable {a b : Arguments} {f : Field} {s : String}

/-! ## What is given -/

/-- A flag that is raised is given as true; one that is not raised is not given. -/
def given (a : Arguments) : (f : Field) → Option f.Value
  | .ruleFile => a.ruleFile.map some
  | .width => a.width
  | .height => a.height
  | .boundary => a.boundary
  | .borderModule => a.borderModule.map some
  | .seed => a.seed.map some
  | .maxSteps => a.maxSteps
  | .noBacktracking => if a.noBacktracking then some true else none
  | .selection => a.selection
  | .stepped => if a.stepped then some true else none
  | .outputPath => a.outputPath
  | .snapshotPath => a.snapshotPath.map some
  | .progressInterval => a.progressInterval.map some
  | .view => a.view
  | .benchmark => if a.benchmark then some true else none
  | .benchmarkRuns => a.benchmarkRuns
  | .benchmarkTable => a.benchmarkTable.map some
  | .logLevel => a.logLevel
  | .progressLevel => a.progressLevel

theorem given_start (f : Field) : given {} f = none := by cases f <;> rfl

/-- A value for one field changes nothing that is given for another. -/
theorem given_of_give {g : Field} (h : a.give g s = .ok b) (hne : f ≠ g) :
    b.given f = a.given f := by
  cases g
  case borderModule =>
    cases h
    cases f <;> first | rfl | exact absurd rfl hne
  case noBacktracking | stepped | benchmark => cases h
  all_goals
    obtain ⟨v, -, rfl⟩ := map_eq_ok_iff.mp h
    cases f <;> first | rfl | exact absurd rfl hne

/-- Nor does a flag. -/
theorem given_of_raise {g : Field} (hne : f ≠ g) : (a.raise g).given f = a.given f := by
  cases g <;> first | rfl | (cases f <;> first | rfl | exact absurd rfl hne)

theorem given_of_accept {o : ValueOption} (h : a.accept o s = .ok b) (hne : o ≠ .field f) :
    b.given f = a.given f := by
  unfold accept at h
  cases o with
  | field g =>
    dsimp only at h
    split at h
    · cases h
    · exact given_of_give h fun heq => hne (congrArg ValueOption.field heq.symm)
  | settings =>
    dsimp only at h
    split at h
    · cases h
    · obtain ⟨v, -, rfl⟩ := map_eq_ok_iff.mp h
      cases f <;> rfl

theorem given_of_acceptFlag {g : Field} (h : a.acceptFlag g = .ok b) (hne : f ≠ g) :
    b.given f = a.given f := by
  unfold acceptFlag at h
  split at h
  · cases h
  · cases h
    exact given_of_raise hne

/-! ## Reading a command line -/

/-- The argument is the option of a field: by its long name, alone or before an equals sign, or by
the letter that a rule file and an output have. -/
def Names (f : Field) (s : String) : Prop :=
  (∃ rest, s.toList = '-' :: '-' :: rest ∧
    String.ofList (rest.takeWhile (· ≠ '=')) = optionName f) ∨
  ∃ c rest, s.toList = '-' :: c :: rest ∧
    (c = 'r' ∧ f = .ruleFile ∨ c = 'o' ∧ f = .outputPath)

/-- A long name that means a field is the name of its option. -/
theorem optionName_of_longName? (h : longName? s = some (.option (.field f)) ∨
    longName? s = some (.flag f)) : s = optionName f := by
  unfold longName? at h
  split at h
  · rcases h with h | h <;> cases h
  · split at h
    · rcases h with h | h <;> cases h
    · split at h
      · rcases h with h | h <;> cases h
      · cases hfound : Field.all.find? (optionName · == s) with
        | none =>
          rw [hfound] at h
          rcases h with h | h <;> cases h
        | some g =>
          rw [hfound, Option.map_some] at h
          have hname := List.find?_some (p := fun g => optionName g == s) hfound
          rw [← eq_of_beq hname]
          split at h
          · rcases h with h | h <;> cases h
            rfl
          · rcases h with h | h <;> cases h
            rfl

section Keeping
variable {P : Arguments → Prop} {Q : Field → Prop} {r t : Reading}

/-- What holds of the arguments is kept by the settings file, by the options of the fields in `Q`
and by their flags. -/
structure Keeps (P : Arguments → Prop) (Q : Field → Prop) : Prop where
  settings : ∀ a s b, P a → a.accept .settings s = .ok b → P b
  field : ∀ a f s b, Q f → P a → a.accept (.field f) s = .ok b → P b
  flag : ∀ a f b, Q f → P a → a.acceptFlag f = .ok b → P b

/-- An option that may be taken. -/
def May (Q : Field → Prop) (o : ValueOption) : Prop := ∀ f, o = .field f → Q f

/-- What was read has `P`, and the option at its end may be taken. -/
structure Kept (P : Arguments → Prop) (Q : Field → Prop) (r : Reading) : Prop where
  arguments : P r.arguments
  pending : ∀ o v, r.pending = some (o, v) → May Q o

namespace Keeps
variable (hkeeps : Keeps P Q)
include hkeeps

theorem accept {o : ValueOption} (ho : May Q o) (ha : P a) (h : a.accept o s = .ok b) : P b := by
  cases o with
  | field f => exact hkeeps.field a f s b (ho f rfl) ha h
  | settings => exact hkeeps.settings a s b ha h

theorem settle (hr : Kept P Q r) (h : r.arguments.settle r.pending = .ok b) : P b := by
  obtain ⟨arguments, pending⟩ := r
  cases pending with
  | none =>
    cases h
    exact hr.arguments
  | some given =>
    obtain ⟨o, value⟩ := given
    cases value with
    | none => cases h
    | some s => exact hkeeps.accept (hr.pending o _ rfl) hr.arguments h

theorem option {o : ValueOption} {attached : Option String} (ho : May Q o) (hr : Kept P Q r)
    (h : r.option o attached = .ok t) : Kept P Q t := by
  obtain ⟨c, hc, h⟩ := bind_eq_ok_iff.mp h
  have hP := hkeeps.settle hr hc
  cases attached with
  | none =>
    cases h
    refine ⟨hP, ?_⟩
    rintro o' v ⟨⟩
    exact ho
  | some s =>
    obtain ⟨d, hd, h⟩ := bind_eq_ok_iff.mp h
    cases h
    refine ⟨hkeeps.accept ho hP hd, ?_⟩
    rintro o' v ⟨⟩

omit hkeeps in
theorem request {e : UsageError} : r.request e ≠ .ok t := by
  intro h
  obtain ⟨u, -, h⟩ := bind_eq_ok_iff.mp h
  cases h

theorem long (hnames : ∀ f, String.ofList (s.toList.takeWhile (· ≠ '=')) = optionName f → Q f)
    (hr : Kept P Q r) (h : r.long s = .ok t) : Kept P Q t := by
  unfold Reading.long at h
  dsimp only at h
  split at h
  · cases h
  · next o attached hname =>
    refine hkeeps.option ?_ hr h
    rintro f rfl
    exact hnames f (optionName_of_longName? (.inl hname))
  · cases h
  · next f hname _ =>
    obtain ⟨c, hc, h⟩ := bind_eq_ok_iff.mp h
    obtain ⟨d, hd, h⟩ := bind_eq_ok_iff.mp h
    cases h
    have hQ := hnames f (optionName_of_longName? (.inr hname))
    refine ⟨hkeeps.flag c f d hQ (hkeeps.settle hr hc) hd, ?_⟩
    rintro o v ⟨⟩
  · exact absurd h request
  · exact absurd h request

theorem short {c : Char} {rest : List Char} (hfile : c = 'r' → Q .ruleFile)
    (houtput : c = 'o' → Q .outputPath) (hr : Kept P Q r) (h : r.short c rest = .ok t) :
    Kept P Q t := by
  unfold Reading.short at h
  dsimp only at h
  split at h
  · refine hkeeps.option ?_ hr h
    rintro f ⟨⟩
    exact hfile rfl
  · refine hkeeps.option ?_ hr h
    rintro f ⟨⟩
    exact houtput rfl
  · exact absurd h request
  · exact absurd h request
  · cases h

omit hkeeps in
theorem word (hr : Kept P Q r) (h : r.word s = .ok t) : Kept P Q t := by
  unfold Reading.word at h
  split at h
  · next o hpending =>
    cases h
    refine ⟨hr.arguments, ?_⟩
    rintro o' v ⟨⟩
    exact hr.pending o none hpending
  · cases h

theorem step (hnames : ∀ f, Names f s → Q f) (hr : Kept P Q r) (h : r.step s = .ok t) :
    Kept P Q t := by
  unfold Reading.step at h
  split at h
  · next rest hs =>
    refine hkeeps.long (fun f hf => hnames f (.inl ⟨rest, hs, ?_⟩)) hr h
    rw [String.toList_ofList] at hf
    exact hf
  · next c rest _ hs =>
    refine hkeeps.short ?_ ?_ hr h
    · rintro rfl
      exact hnames _ (.inr ⟨_, rest, hs, .inl ⟨rfl, rfl⟩⟩)
    · rintro rfl
      exact hnames _ (.inr ⟨_, rest, hs, .inr ⟨rfl, rfl⟩⟩)
  · exact word hr h

theorem steps {line : List String} (hnames : ∀ s ∈ line, ∀ f, Names f s → Q f) (hr : Kept P Q r)
    (h : Reading.steps r line = .ok t) : Kept P Q t := by
  induction line generalizing r with
  | nil =>
    cases h
    exact hr
  | cons s line ih =>
    unfold Reading.steps at h
    split at h
    · next heq => cases heq
    · split at h
      · cases h
        exact hr
      · cases h
    · next w rest _ heq =>
      cases heq
      split at h
      · cases h
      · next u hu =>
        have hu := hkeeps.step (hnames s List.mem_cons_self) hr hu
        exact ih (fun w hw => hnames w (List.mem_cons_of_mem s hw)) hu h

end Keeps

/-- What the options that the arguments name keep is kept by the whole command line. -/
theorem parse_keeps {line : List String} (start : P {})
    (hkeeps : Keeps P fun f => ∃ s ∈ line, Names f s) (h : parse line = .ok a) : P a := by
  obtain ⟨r, hr, h⟩ := bind_eq_ok_iff.mp h
  refine hkeeps.settle (hkeeps.steps (fun s hs f hf => ⟨s, hs, hf⟩) ⟨start, ?_⟩ hr) h
  rintro o v ⟨⟩

end Keeping

/-! ## Intervals -/

section Intervals
variable (ha : ∀ d ∈ a.progressInterval, d.Valid)
include ha

/-- An interval is taken only as it was read from a text. -/
theorem valid_of_accept {o : ValueOption} (h : a.accept o s = .ok b) :
    ∀ d ∈ b.progressInterval, d.Valid := by
  by_cases ho : o = .field .progressInterval
  · subst ho
    unfold accept give durationOf at h
    dsimp only at h
    split at h
    · cases h
    · obtain ⟨d, hd, rfl⟩ := map_eq_ok_iff.mp h
      split at hd
      · next hread =>
        cases hd
        rintro d ⟨⟩
        exact Duration.valid_of_ofText? hread
      · cases hd
  · have hsame : b.progressInterval = a.progressInterval :=
      Option.map_injective (Option.some_injective _) (given_of_accept h ho)
    rwa [hsame]

theorem valid_of_acceptFlag (h : a.acceptFlag f = .ok b) :
    ∀ d ∈ b.progressInterval, d.Valid := by
  unfold acceptFlag at h
  split at h
  · cases h
  · cases h
    have hsame : (a.raise f).progressInterval = a.progressInterval := by cases f <;> rfl
    rwa [hsame]

end Intervals

/-! ## Options that are named -/

/-- The option of a field means the field, as a flag or as an option. -/
theorem longName?_optionName (f : Field) :
    longName? (optionName f) = some (if f.isFlag then .flag f else .option (.field f)) := by
  have hnames : (Field.all.map optionName).Nodup := by decide +kernel
  have hmem : f ∈ Field.all := by cases f <;> decide
  have hfield : optionName f ∉ ["help", "version", "settings"] := by cases f <;> decide +kernel
  simp only [List.mem_cons, List.not_mem_nil, or_false, not_or] at hfield
  obtain ⟨hhelp, hversion, hsettings⟩ := hfield
  unfold longName?
  rw [if_neg hhelp, if_neg hversion, if_neg hsettings, find?_key hnames hmem, Option.map_some]

/-- The field has a value. -/
def Gives (a : Arguments) (f : Field) : Prop := ∃ x, a.given f = some x

/-- A value that is taken for a field is there, and takes away no other. -/
theorem gives_of_accept {o : ValueOption} (h : a.accept o s = .ok b)
    (had : a.Gives f ∨ o = .field f) : b.Gives f := by
  by_cases ho : o = .field f
  · subst ho
    unfold accept at h
    dsimp only at h
    split at h
    · cases h
    · cases f
      case borderModule =>
        cases h
        exact ⟨_, rfl⟩
      case noBacktracking | stepped | benchmark => cases h
      all_goals
        obtain ⟨v, -, rfl⟩ := map_eq_ok_iff.mp h
        exact ⟨_, rfl⟩
  · unfold Gives
    rw [given_of_accept h ho]
    exact had.resolve_right ho

/-- So is a flag that is raised. -/
theorem gives_of_acceptFlag {g : Field} (h : a.acceptFlag g = .ok b)
    (had : a.Gives f ∨ g = f ∧ f.isFlag = true) : b.Gives f := by
  by_cases hg : g = f
  · subst hg
    unfold acceptFlag at h
    split at h
    · cases h
    · next hunset =>
      cases h
      obtain ⟨x, hx⟩ | ⟨-, hflag⟩ := had
      · cases g
        case noBacktracking | stepped | benchmark => exact ⟨true, rfl⟩
        all_goals exact ⟨x, hx⟩
      · cases g
        case noBacktracking | stepped | benchmark => exact ⟨true, rfl⟩
        all_goals cases hflag
  · unfold Gives
    rw [given_of_acceptFlag h (Ne.symm hg)]
    exact had.resolve_right fun h => hg h.1

/-- Two dashes alone name nothing. -/
theorem not_names_dashes (f : Field) : ¬ Names f "--" := by
  rintro (⟨rest, hs, hname⟩ | ⟨c, rest, hs, hletter⟩)
  · cases hs
    revert hname
    cases f <;> decide +kernel
  · cases hs
    rcases hletter with ⟨⟨⟩, -⟩ | ⟨⟨⟩, -⟩

section Naming
variable {r t : Reading}

/-- The field has a value, or its option is at the end of what was read. -/
def Has (f : Field) (r : Reading) : Prop :=
  r.arguments.Gives f ∨ ∃ v, r.pending = some (.field f, v)

namespace Has

theorem settle (hr : Has f r) (h : r.arguments.settle r.pending = .ok b) : b.Gives f := by
  obtain ⟨arguments, pending⟩ := r
  cases pending with
  | none =>
    cases h
    exact hr.resolve_right fun ⟨v, hv⟩ => nomatch hv
  | some given =>
    obtain ⟨o, value⟩ := given
    cases value with
    | none => cases h
    | some s =>
      refine gives_of_accept h (hr.imp_right ?_)
      rintro ⟨v, ⟨⟩⟩
      rfl

theorem option {o : ValueOption} {attached : Option String} (hr : Has f r ∨ o = .field f)
    (h : r.option o attached = .ok t) : Has f t := by
  obtain ⟨c, hc, h⟩ := bind_eq_ok_iff.mp h
  have hc : c.Gives f ∨ o = .field f := hr.imp_left (·.settle hc)
  cases attached with
  | none =>
    cases h
    refine hc.imp_right ?_
    rintro rfl
    exact ⟨none, rfl⟩
  | some s =>
    obtain ⟨d, hd, h⟩ := bind_eq_ok_iff.mp h
    cases h
    exact .inl (gives_of_accept hd hc)

theorem long (hr : Has f r ∨ String.ofList (s.toList.takeWhile (· ≠ '=')) = optionName f)
    (h : r.long s = .ok t) : Has f t := by
  unfold Reading.long at h
  dsimp only at h
  split at h
  · cases h
  · next o attached hname =>
    refine option (hr.imp_right fun hnamed => ?_) h
    rw [hnamed, longName?_optionName] at hname
    split at hname <;> cases hname
    rfl
  · cases h
  · next g hname _ =>
    obtain ⟨c, hc, h⟩ := bind_eq_ok_iff.mp h
    obtain ⟨d, hd, h⟩ := bind_eq_ok_iff.mp h
    cases h
    refine .inl (gives_of_acceptFlag hd (hr.imp (·.settle hc) fun hnamed => ?_))
    rw [hnamed, longName?_optionName] at hname
    split at hname
    · next hflag =>
      cases hname
      exact ⟨rfl, hflag⟩
    · cases hname
  · exact absurd h Keeps.request
  · exact absurd h Keeps.request

theorem short {c : Char} {rest : List Char}
    (hr : Has f r ∨ c = 'r' ∧ f = .ruleFile ∨ c = 'o' ∧ f = .outputPath)
    (h : r.short c rest = .ok t) : Has f t := by
  unfold Reading.short at h
  dsimp only at h
  split at h
  · refine option (hr.imp_right ?_) h
    rintro (⟨-, rfl⟩ | ⟨⟨⟩, -⟩)
    rfl
  · refine option (hr.imp_right ?_) h
    rintro (⟨⟨⟩, -⟩ | ⟨-, rfl⟩)
    rfl
  · exact absurd h Keeps.request
  · exact absurd h Keeps.request
  · cases h

theorem word (hr : Has f r) (h : r.word s = .ok t) : Has f t := by
  unfold Reading.word at h
  split at h
  · next o hpending =>
    cases h
    refine hr.imp_right ?_
    rintro ⟨v, hv⟩
    cases hpending.symm.trans hv
    exact ⟨_, rfl⟩
  · cases h

theorem step (hr : Has f r ∨ Names f s) (h : r.step s = .ok t) : Has f t := by
  unfold Reading.step at h
  split at h
  · next rest hs =>
    refine long (hr.imp_right ?_) h
    rintro (⟨rest', hs', hname⟩ | ⟨c, rest', hs', hletter⟩)
    · cases hs.symm.trans hs'
      rwa [String.toList_ofList]
    · cases hs.symm.trans hs'
      rcases hletter with ⟨⟨⟩, -⟩ | ⟨⟨⟩, -⟩
  · next c rest hdash hs =>
    refine short (hr.imp_right ?_) h
    rintro (⟨rest', hs', -⟩ | ⟨c', rest', hs', hletter⟩)
    · cases hs.symm.trans hs'
      exact (hdash rfl).elim
    · cases hs.symm.trans hs'
      exact hletter
  · next hlong hshort =>
    refine word (hr.resolve_right ?_) h
    rintro (⟨rest, hs, -⟩ | ⟨c, rest, hs, -⟩)
    · exact hlong rest hs
    · exact hshort c rest hs

/-- Of the arguments read so far, those that name the field have left it a value, or will: by
induction on the arguments to come. -/
theorem steps {line : List String} (hr : Has f r ∨ ∃ w ∈ line, Names f w)
    (h : Reading.steps r line = .ok t) : Has f t := by
  induction line generalizing r with
  | nil =>
    cases h
    exact hr.resolve_right fun ⟨w, hw, _⟩ => nomatch hw
  | cons s line ih =>
    have hhead : Has f r ∨ Names f s ∨ ∃ w ∈ line, Names f w := by
      simpa only [List.mem_cons, exists_eq_or_imp] using hr
    unfold Reading.steps at h
    split at h
    · next heq => cases heq
    · next rest heq =>
      cases heq
      split at h
      · next hend =>
        cases h
        refine hhead.resolve_right (not_or.mpr ⟨not_names_dashes f, ?_⟩)
        rw [List.isEmpty_iff.mp hend]
        exact fun ⟨w, hw, _⟩ => nomatch hw
      · cases h
    · next w rest _ heq =>
      cases heq
      split at h
      · cases h
      · next u hu =>
        refine ih ?_ h
        rcases hhead with had | hnamed | hlater
        · exact .inl (step (.inl had) hu)
        · exact .inl (step (.inr hnamed) hu)
        · exact .inr hlater

end Has
end Naming

/-! ## What follows for a command line -/

section Parsed
variable {line : List String} (h : parse line = .ok a)
include h

/-- A field that some argument names has a value. -/
theorem gives_of_named (named : ∃ s ∈ line, Names f s) : a.Gives f := by
  obtain ⟨r, hr, h⟩ := bind_eq_ok_iff.mp h
  exact (Has.steps (.inr named) hr).settle h

/-- Nothing is given for a field that no argument names. -/
theorem given_of_unnamed (unnamed : ∀ s ∈ line, ¬ Names f s) : a.given f = none := by
  have hother : ∀ g, (∃ s ∈ line, Names g s) → f ≠ g := by
    rintro g ⟨s, hs, hnames⟩ rfl
    exact unnamed s hs hnames
  refine parse_keeps (P := fun a => a.given f = none) (given_start f) ⟨?_, ?_, ?_⟩ h
  · intro a s b ha hb
    exact (given_of_accept hb (by simp)).trans ha
  · intro a g s b hg ha hb
    have hne : ValueOption.field g ≠ .field f := fun heq => by
      cases heq
      exact hother f hg rfl
    exact (given_of_accept hb hne).trans ha
  · intro a g b hg ha hb
    exact (given_of_acceptFlag hb (hother g hg)).trans ha

/-- An interval that is given is a duration. -/
theorem valid_of_parse : ∀ d ∈ a.progressInterval, d.Valid := by
  refine parse_keeps (P := fun a => ∀ d ∈ a.progressInterval, d.Valid) ?_ ⟨?_, ?_, ?_⟩ h
  · intro d hd
    cases hd
  · intro a s b ha hb
    exact valid_of_accept ha hb
  · intro a g s b _ ha hb
    exact valid_of_accept ha hb
  · intro a g b _ ha hb
    exact valid_of_acceptFlag ha hb

end Parsed
end WaveCollapse.Arguments
