import WaveCollapse.Proofs.Files
import WaveCollapse.Proofs.Settings.CommandLine
import WaveCollapse.Settings.Resolve

/-! # Settings are decided field by field

The command line reaches the settings through a layer, as a setting for every field that it gives.
A field that is not given is blank there (`Arguments.layer_eq_none_iff`), a flag that is not raised
like any other, so it hides nothing; and what is read from the layer is what was given
(`Arguments.given_of_convert`): choices have their names back, and a duration comes back from its
text.  Stacking layers decides each field on its own, by the first layer that gives it
(`Layer.stack_cases`).
-/

namespace WaveCollapse

/-! ## Choices and their names -/

theorem Boundary.ofName?_name (b : Boundary) : ofName? b.name = some b := by cases b <;> rfl

theorem Selection.ofName?_name (x : Selection) : ofName? x.name = some x := by cases x <;> rfl

theorem View.ofName?_name (v : View) : ofName? v.name = some v := by cases v <;> rfl

theorem Level.ofWord?_word (l : Level) : ofWord? l.word = some l := by cases l <;> rfl

/-- A progress level has its word like any other, except for errors. -/
theorem Field.eq_of_progressLevelOf? {l l' : Level} (h : progressLevelOf? l.word = some l') :
    l = l' := by
  obtain ⟨hword, -⟩ := Option.filter_eq_some_iff.mp h
  exact Option.some.inj ((Level.ofWord?_word l).symm.trans hword)

/-! ## The layer of a command line -/

namespace Arguments
variable {a : Arguments} {f : Field}

theorem layer_eq_none_iff : a.layer f = none ↔ a.given f = none := by
  have hflag : ∀ b : Bool, flag b = none ↔ (if b then some true else none) = none := by
    intro b
    cases b <;> simp [flag]
  cases f
  case noBacktracking | stepped | benchmark => exact hflag _
  all_goals simp only [layer, given, Option.map_eq_none_iff]

section Converting
variable {v : Setting}

theorem eq_of_text {o : Option String} (hv : o.map Setting.text = some v) {x : String}
    (hx : v.toText? = some x) : o = some x := by
  obtain ⟨s, rfl, rfl⟩ := Option.map_eq_some_iff.mp hv
  exact hx

/-- A number that is out of range is not read at all. -/
theorem eq_of_natural {o : Option Nat} (hv : (o.map fun n : Nat => Setting.integer n) = some v) {x : Nat}
    (hx : v.toNatural? = some x) : o = some x := by
  obtain ⟨n, rfl, rfl⟩ := Option.map_eq_some_iff.mp hv
  have hx : (if 0 ≤ (n : Int) ∧ (n : Int) < twoTo 64 then some (n : Int).toNat else none) =
    some x := hx
  split at hx
  · exact hx
  · cases hx

section Choosing
variable {α : Type} {name : α → String} {ofName? : String → Option α}

theorem eq_of_choice {o : Option α} (named : ∀ c x, ofName? (name c) = some x → c = x)
    (hv : (o.map fun c => Setting.text (name c)) = some v) {x : α}
    (hx : v.toChoice? ofName? = some x) : o = some x := by
  obtain ⟨c, rfl, rfl⟩ := Option.map_eq_some_iff.mp hv
  exact congrArg some (named c x hx)

theorem eq_of_named (named : ∀ c, ofName? (name c) = some c) (c x : α)
    (h : ofName? (name c) = some x) : c = x :=
  Option.some.inj ((named c).symm.trans h)

end Choosing

theorem eq_of_flag {b : Bool} (hv : flag b = some v) {x : Bool} (hx : v.toFlag? = some x) :
    (if b then some true else none) = some x := by
  cases b with
  | false => cases hv
  | true =>
    cases hv
    exact hx

theorem eq_of_duration {o : Option Duration} (hd : ∀ d ∈ o, d.Valid)
    (hv : (o.map fun d => Setting.text d.text) = some v) {x : Duration}
    (hx : v.toDuration? = some x) : o = some x := by
  obtain ⟨d, rfl, rfl⟩ := Option.map_eq_some_iff.mp hv
  have hx : Duration.ofText? d.text = some x := hx
  exact (Duration.ofText?_text (hd d rfl)).symm.trans hx

end Converting

/-- What a field reads from the layer of a command line is what this gives. -/
theorem given_of_convert (hd : ∀ d ∈ a.progressInterval, d.Valid) {v : Setting}
    (hv : a.layer f = some v) {x : f.Value} (hx : f.convert v = some x) : a.given f = some x := by
  have hopen : ∀ {α : Type} {o o' : Option α} {x : Option α},
      (∀ y, o' = some y → o = some y) → o'.map some = some x → o.map some = some x := by
    intro α o o' x h hx
    obtain ⟨y, hy, rfl⟩ := Option.map_eq_some_iff.mp hx
    rw [h y hy, Option.map_some]
  cases f
  case ruleFile | borderModule | snapshotPath | benchmarkTable =>
    exact hopen (fun y => eq_of_text hv) hx
  case outputPath => exact eq_of_text hv hx
  case width | height | maxSteps | benchmarkRuns => exact eq_of_natural hv hx
  case seed => exact hopen (fun y => eq_of_natural hv) hx
  case noBacktracking | stepped | benchmark => exact eq_of_flag hv hx
  case progressInterval => exact hopen (fun y => eq_of_duration hd hv) hx
  case boundary => exact eq_of_choice (eq_of_named Boundary.ofName?_name) hv hx
  case selection => exact eq_of_choice (eq_of_named Selection.ofName?_name) hv hx
  case view => exact eq_of_choice (eq_of_named View.ofName?_name) hv hx
  case logLevel => exact eq_of_choice (eq_of_named Level.ofWord?_word) hv hx
  case progressLevel => exact eq_of_choice (fun _ _ => Field.eq_of_progressLevelOf?) hv hx

end Arguments

/-! ## Layers one over another -/

/-- A stack of three layers has the value of the first that gives one. -/
theorem Layer.stack_cases (first second third : Layer) (f : Field) :
    (∃ v, first f = some v ∧ stack [first, second, third] f = some v) ∨
      first f = none ∧
        ((∃ v, second f = some v ∧ stack [first, second, third] f = some v) ∨
          second f = none ∧ stack [first, second, third] f = third f) := by
  unfold stack
  cases hfirst : first f with
  | some v => exact .inl ⟨v, rfl, by rw [List.findSome?_cons, hfirst]⟩
  | none =>
    rw [List.findSome?_cons, hfirst]
    refine .inr ⟨rfl, ?_⟩
    cases hsecond : second f with
    | some v => exact .inl ⟨v, rfl, by rw [List.findSome?_cons, hsecond]⟩
    | none =>
      rw [List.findSome?_cons, hsecond]
      refine .inr ⟨rfl, ?_⟩
      cases hthird : third f with
      | some v => rw [List.findSome?_cons, hthird]
      | none => rw [List.findSome?_cons, hthird, List.findSome?_nil]

namespace Settings
variable {s : Settings}

/-- Every field is read by itself. -/
theorem read_of_ofLayer {layer : Layer} (h : ofLayer layer = some s) (f : Field) :
    read layer f = some (s.value f) := by
  unfold ofLayer at h
  -- one value read for each of the fields
  iterate 19 obtain ⟨_, _, h⟩ := Option.bind_eq_some_iff.mp h
  cases h
  cases f <;> assumption

section Layered
variable {layer : Layer} {f : Field} (h : ofLayer layer = some s)
include h

/-- What a layer gives is what the field is read from. -/
theorem convert_of_ofLayer {v : Setting} (hv : layer f = some v) :
    f.convert v = some (s.value f) := by
  have hf := read_of_ofLayer h f
  unfold read at hf
  rwa [hv] at hf

theorem standard_of_ofLayer (hnone : layer f = none) : s.value f = standard f := by
  have hf := read_of_ofLayer h f
  unfold read at hf
  rw [hnone] at hf
  exact (Option.some.inj hf).symm

end Layered
end Settings

/-- The layer of a settings file is what its text spells. -/
theorem Files.settingsLayer_of_text {files : Files} {path text : String} {layer : Layer}
    (hread : files.readText path = .ok text) (htext : Layer.ofText? text = some layer) :
    files.settingsLayer (some path) = .ok layer := by
  have hfile : files.isFile path = true := by
    unfold readText at hread
    unfold isFile
    split at hread
    · cases hread
    · next bytes hbytes =>
      rw [hbytes]
      rfl
  unfold settingsLayer
  dsimp only
  rw [if_pos hfile, hread]
  dsimp only
  rw [htext]

/-- What settings were resolved from. -/
theorem Arguments.resolve_eq_ok_iff {a : Arguments} {environment : List (String × String)}
    {files : Files} {s : Settings} : a.resolve environment files = .ok s ↔
      ∃ file, files.settingsLayer a.settingsFile = .ok file ∧
        Settings.ofLayer (.stack [a.layer, .ofEnvironment environment, file]) = some s ∧
        s.validate = .ok () := by
  unfold resolve
  rw [bind_eq_ok_iff]
  refine exists_congr fun file => and_congr_right fun _ => ?_
  cases hlayers : Settings.ofLayer (.stack [a.layer, .ofEnvironment environment, file]) with
  | none =>
    refine iff_of_false (fun h => ?_) ?_
    · cases h
    · rintro ⟨h, -⟩
      cases h
  | some t =>
    dsimp only
    constructor
    · intro h
      split at h
      · next hvalid =>
        cases h
        exact ⟨rfl, hvalid⟩
      · cases h
    · rintro ⟨⟨⟩, hvalid⟩
      rw [hvalid]
      rfl

namespace Settings

/-- **Every field of the settings is decided on its own.**  It has what the command line gives, or
else what the environment gives, or else what the settings file gives, and its standard value when
none of them gives it; what the environment or the file gives is read as the field wants it.  A
field is given by the command line if some argument names it; one that no argument names is not, so
it hides nothing of the layers below, whatever its type.  And an interval on the command line is the
same duration in the settings, although it goes there as text. -/
theorem resolve_layered (environment : List (String × String)) (files : Files) :
    (∀ line a, Arguments.parse line = .ok a → (∀ d ∈ a.progressInterval, d.Valid) ∧
      (∀ f, (∃ word ∈ line, Arguments.Names f word) → ∃ x, a.given f = some x) ∧
      ∀ f, (∀ word ∈ line, ¬ Arguments.Names f word) → a.given f = none) ∧
    ∀ (a : Arguments) (s : Settings), (∀ d ∈ a.progressInterval, d.Valid) →
      a.resolve environment files = .ok s →
      ∃ file, files.settingsLayer a.settingsFile = .ok file ∧
        (∀ d, a.progressInterval = some d → s.progressInterval = some d) ∧
        ∀ f, (∀ x, a.given f = some x → s.value f = x) ∧
          (a.given f = none →
            (∀ v, Layer.ofEnvironment environment f = some v →
              f.convert v = some (s.value f)) ∧
            (Layer.ofEnvironment environment f = none →
              (∀ v, file f = some v → f.convert v = some (s.value f)) ∧
              (file f = none → s.value f = standard f))) := by
  refine ⟨fun line a h => ⟨Arguments.valid_of_parse h, fun f => Arguments.gives_of_named h,
    fun f => Arguments.given_of_unnamed h⟩, fun a s hd h => ?_⟩
  obtain ⟨file, hfile, hlayers, -⟩ := Arguments.resolve_eq_ok_iff.mp h
  have hline : ∀ f x, a.given f = some x → s.value f = x := by
    intro f x hx
    obtain ⟨v, hv, hstack⟩ | ⟨hnone, -⟩ :=
      Layer.stack_cases a.layer (.ofEnvironment environment) file f
    · have hsame := Arguments.given_of_convert hd hv (convert_of_ofLayer hlayers hstack)
      exact Option.some.inj (hsame.symm.trans hx)
    · rw [Arguments.layer_eq_none_iff.mp hnone] at hx
      cases hx
  refine ⟨file, hfile, fun d hgive => ?_, fun f => ⟨hline f, fun habsent => ?_⟩⟩
  · exact hline .progressInterval (some d) (congrArg (Option.map some) hgive)
  obtain ⟨v, hv, -⟩ | ⟨-, hlower⟩ :=
    Layer.stack_cases a.layer (.ofEnvironment environment) file f
  · rw [Arguments.layer_eq_none_iff.mpr habsent] at hv
    cases hv
  obtain ⟨v, hv, hstack⟩ | ⟨hnone, hstack⟩ := hlower
  · refine ⟨fun w hw => ?_, fun hnone => ?_⟩
    · obtain rfl := Option.some.inj (hw.symm.trans hv)
      exact convert_of_ofLayer hlayers hstack
    · rw [hnone] at hv
      cases hv
  · refine ⟨fun w hw => ?_, fun _ => ⟨fun w hw => ?_, fun hw => ?_⟩⟩
    · rw [hnone] at hw
      cases hw
    · exact convert_of_ofLayer hlayers (hstack.trans hw)
    · exact standard_of_ofLayer hlayers (hstack.trans hw)

/-! ### All layers at once -/

namespace Layered

/-- A command line with a width and an interval. -/
def line : List String :=
  ["-r", "rules", "--settings", "s", "--width=8", "--report-progress-interval", "1m 30s"]

/-- What the command line gives. -/
def arguments : Arguments where
  ruleFile := some "rules"
  width := some 8
  progressInterval := some ⟨90, 0⟩
  settingsFile := some "s"

/-- An environment with a height. -/
def environment : List (String × String) := [("XWFC_HEIGHT", "14")]

/-- A settings file with a width and a height of its own. -/
def text : String := "width = 30\nheight = 12\nstepped = true\nboundary_mode = \"periodic\"\n"

/-- A directory with the settings file in it. -/
def files : Files where
  entries := [(["s"], .file text.toUTF8)]

/-- What the settings come to. -/
def settings : Settings where
  ruleFile := some "rules"
  width := 8
  height := 14
  boundary := .periodic
  stepped := true
  progressInterval := some ⟨90, 0⟩

theorem splitOn_names : "s".splitOn "/" = ["s"] ∧ "height".splitOn "." = ["height"] := by
  unfold String.splitOn
  rw [if_neg (by decide), if_neg (by decide)]
  simp +decide [String.splitOnAux]

theorem readText_files : files.readText "s" = .ok text := by
  have hplain : Files.Plain "s" :=
    ⟨by simp, by decide, by decide, by decide +kernel, by decide +kernel,
      Files.steps_of_splitOn splitOn_names.1 (by decide), by decide⟩
  have hwrite : ({} : Files).writeText "s" text = .ok files :=
    Files.write_eq_ok_iff.mpr ⟨_, hplain.writable (by simp), rfl⟩
  exact Files.readText_writeText hwrite

theorem ofEnvironment_environment (f : Field) : Layer.ofEnvironment environment f =
    if "height" = f.name then some (.integer 14) else none := by
  have hlower : (String.ofList (Text.trim "XWFC_HEIGHT".toList)).toLower = "xwfc_height" := by
    decide +kernel
  have hprefix : "xwfc_height".startsWith Layer.variablePrefix = true := by decide +kernel
  have hrest : String.ofList (Text.trim ("xwfc_height".toList.drop
      Layer.variablePrefix.length)) = "height" := by decide +kernel
  have hparts : Layer.variableParts? "XWFC_HEIGHT" = some ["height"] := by
    unfold Layer.variableParts?
    dsimp only
    rw [hlower, if_pos hprefix, hrest, splitOn_names.2]
  have hfield : Layer.variableField? "XWFC_HEIGHT" = some ("height", false) := by
    unfold Layer.variableField?
    rw [hparts]
    decide +kernel
  have hvalue : Setting.ofVariable "14" = .integer 14 := by decide +kernel
  simp [Layer.ofEnvironment, environment, hfield, hvalue]

/-- The file has a boundary and no seed. -/
theorem ofText?_text : ∃ file, Layer.ofText? text = some file ∧
    file .boundary = some (.text "periodic") ∧ file .seed = none := by
  have hread : (Layer.ofText? text).map (fun file => (file .boundary, file .seed)) =
      some (some (.text "periodic"), none) := by
    decide +kernel
  obtain ⟨file, htext, hfile⟩ := Option.map_eq_some_iff.mp hread
  exact ⟨file, htext, Prod.mk.inj hfile⟩

theorem resolve_eq : arguments.resolve environment files = .ok settings := by
  obtain ⟨file, htext, -⟩ := ofText?_text
  refine Arguments.resolve_eq_ok_iff.mpr
    ⟨file, Files.settingsLayer_of_text readText_files htext, ?_, by decide +kernel⟩
  have hread : ((Layer.ofText? text).bind fun file => Settings.ofLayer (.stack [arguments.layer,
      fun f => if "height" = f.name then some (.integer 14) else none, file])) =
        some settings := by
    decide +kernel
  rw [htext, Option.bind_some] at hread
  rw [funext ofEnvironment_environment]
  exact hread

end Layered

/-- A width and an interval from the command line, a height from the environment, a boundary from
the file and no seed at all. -/
theorem resolve_layered_all : ∃ a s, Arguments.parse Layered.line = .ok a ∧
    a.resolve Layered.environment Layered.files = .ok s ∧
    s.width = 8 ∧ s.progressInterval = some ⟨90, 0⟩ ∧ s.height = 14 ∧ s.boundary = .periodic ∧
    s.seed = none := by
  have hparse : Arguments.parse Layered.line = .ok Layered.arguments := by decide +kernel
  obtain ⟨hline, hresolve⟩ := resolve_layered Layered.environment Layered.files
  obtain ⟨hvalid, -⟩ := hline _ _ hparse
  obtain ⟨file, hfile, hinterval, hfield⟩ := hresolve _ _ hvalid Layered.resolve_eq
  obtain ⟨layer, htext, hboundary, hseed⟩ := Layered.ofText?_text
  cases hfile.symm.trans (Files.settingsLayer_of_text Layered.readText_files htext)
  have hvariables := Layered.ofEnvironment_environment
  refine ⟨_, _, hparse, Layered.resolve_eq, (hfield .width).1 _ rfl, hinterval _ rfl, ?_, ?_, ?_⟩
  · exact (Option.some.inj (((hfield .height).2 rfl).1 _ (hvariables .height))).symm
  · obtain ⟨-, hlower⟩ := (hfield .boundary).2 rfl
    exact (Option.some.inj ((hlower (hvariables .boundary)).1 _ hboundary)).symm
  · obtain ⟨-, hlower⟩ := (hfield .seed).2 rfl
    exact (hlower (hvariables .seed)).2 hseed

end Settings
end WaveCollapse
