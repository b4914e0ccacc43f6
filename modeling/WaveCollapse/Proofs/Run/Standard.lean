import WaveCollapse.Proofs.Files
import WaveCollapse.Proofs.Rules.Served
import WaveCollapse.Proofs.Run.Act
import WaveCollapse.Proofs.Run.Result
import WaveCollapse.Proofs.Search.Drivers
import WaveCollapse.Run.Standard

/-! # The standard run, from end to end

The rules that a run opens are those of its rule file (`Settings.effect_openRules`), and its
search ends as the eager one does, whichever driver the settings ask for
(`Settings.search_same`).  So if the search ends well and the files can be written, the text at
the output path has the rows that `Settings.Obeys` speaks of (`Settings.collapseGrid_writes`).
-/

namespace WaveCollapse

/-! ## Loading -/

section Loading
variable {f : Files} {path : String} {file : RuleFile} {loaded : LoadedRules}

/-- The rule file at a path, in the format that the path tells. -/
def Files.Holds (f : Files) (path : String) (file : RuleFile) : Prop :=
  ∃ format text, RuleFormat.ofPath path = .ok format ∧ f.readText path = .ok text ∧
    format.read text = .ok file

theorem RuleFormat.parse_eq_ok_iff {format : RuleFormat} {text : String} :
    format.parse text = .ok loaded ↔
      ∃ file, format.read text = .ok file ∧ file.build = .ok loaded := by
  unfold parse
  rw [bind_eq_ok_iff]
  refine exists_congr fun file => and_congr_right fun _ => ?_
  cases file.build with
  | ok loaded' =>
    constructor <;> intro h
    · cases h
      rfl
    · cases h
      rfl
  | error e => exact iff_of_false (fun h => nomatch h) (fun h => nomatch h)

/-- The loader accepts what is a rule file and can be built. -/
theorem Files.loadRules_eq_ok_iff :
    f.loadRules path = .ok loaded ↔ ∃ file, f.Holds path file ∧ file.build = .ok loaded := by
  unfold loadRules Holds
  rw [bind_eq_ok_iff]
  constructor
  · rintro ⟨format, hformat, h⟩
    cases htext : f.readText path with
    | error e =>
      rw [htext] at h
      cases h
    | ok text =>
      rw [htext] at h
      obtain ⟨file, hfile, built⟩ := RuleFormat.parse_eq_ok_iff.mp h
      exact ⟨file, ⟨format, text, hformat, rfl, hfile⟩, built⟩
  · rintro ⟨file, ⟨format, text, hformat, htext, hfile⟩, built⟩
    refine ⟨format, hformat, ?_⟩
    rw [htext]
    exact RuleFormat.parse_eq_ok_iff.mpr ⟨file, hfile, built⟩

end Loading

namespace Settings
open Act
variable {s : Settings} {file : RuleFile} {loaded : LoadedRules}

/-! ## Opening the rules -/

/-- Rules of a file that are rules for a grid are served unchanged. -/
theorem cacheRules_of_build (built : file.build = .ok loaded)
    (compass : loaded.registry.duals.toList = Compass.duals) :
    cacheRules loaded = .ok ⟨loaded.registry, loaded.ruleSet.rules⟩ := by
  have hr := RuleFile.lawful_of_build built
  obtain ⟨q, hq⟩ := (RuleFile.over_of_build built).cached_isOk hr rfl
  have hsame : q = loaded.ruleSet.rules :=
    (Rules.Served.cached (.plain _) hq).eq loaded.ruleSet.faithful
  have hchecked : loaded.registry.checkCompass = .ok () := if_pos compass
  unfold cacheRules
  rw [hchecked, hq, hsame]
  rfl

/-- Opening the rules changes nothing but the journal. -/
theorem effect_openRules {path : String} (hpath : s.ruleFile = some path) {w : Workspace}
    (held : w.files.Holds path file) (built : file.build = .ok loaded)
    (compass : loaded.registry.duals.toList = Compass.duals) :
    ∃ journal, effect s.openRules w =
      (.ok ⟨loaded.registry, loaded.ruleSet.rules⟩, { w with journal }) := by
  have hrequired : s.requiredRuleFile.mapError RunError.config = .ok path := by
    unfold requiredRuleFile
    rw [hpath]
    rfl
  have hload : (w.files.loadRules path).mapError RunError.rules = .ok loaded := by
    rw [Files.loadRules_eq_ok_iff.mpr ⟨file, held, built⟩]
    rfl
  unfold openRules
  rw [hrequired, effect_bind_ok (effect_ofExcept _ w), effect_bind_ok (effect_tell _ _),
    effect_bind_ok (effect_get _), effect_bind_ok (effect_tell _ _), hload,
    effect_bind_ok (effect_ofExcept _ _), effect_bind_ok (effect_tell _ _),
    cacheRules_of_build built compass, effect_bind_ok (effect_ofExcept _ _),
    effect_bind_ok (effect_tell _ _), effect_pure]
  exact ⟨_, rfl⟩

/-! ## Searching -/

/-- **Both drivers end alike.** -/
theorem search_same (s : Settings) (p : Prepared) (watched : Watched) (journal journal' : Journal) :
    (s.search p watched journal).1.1.Same (p.solver.collapse s.maxSteps journal') := by
  unfold search
  by_cases hstepped : s.stepped = true
  · rw [if_pos hstepped]
    have hwatch : ((Stepper.ofSolver p.solver s.maxSteps).watch (Watched.see p.grid) watched
        (journal.tell (Stepper.startNote p.solver s.maxSteps))).2.1 = _ :=
      Stepper.watch_eq_drive rfl _ _ (journal'.tell (SearchNote.starting p.solver.system.size
        s.maxSteps p.solver.config.backtracking))
    dsimp only
    rw [hwatch, Stepper.finish_of_outcome rfl]
    exact ⟨rfl, rfl, rfl⟩
  · rw [if_neg hstepped]
    exact Solver.drive_journal _ _ _ _

/-! ## Saving -/

/-- The files that a run saves can be written, the snapshot before the grid. -/
def CanSave (s : Settings) (f : Files) : Prop :=
  match s.snapshotPath with
  | none => f.Takes s.outputPath
  | some path => f.Takes path ∧ ∀ text f', f.writeText path text = .ok f' → f'.Takes s.outputPath

/-- Saving a text where one can be written. -/
theorem effect_save_of_takes {w : Workspace} {path : String} (takes : w.files.Takes path)
    (text : String) : ∃ files, w.files.writeText path text = .ok files ∧
      effect (save path text) w = (.ok (), { w with files }) := by
  obtain ⟨files, hwrite⟩ := takes text
  refine ⟨files, hwrite, ?_⟩
  rw [effect_save, hwrite]

theorem effect_saveSnapshot {w : Workspace} (can : s.CanSave w.files) (system : System Nat) :
    ∃ after, effect (s.saveSnapshot system) w = (.ok (), after) ∧
      after.files.Takes s.outputPath := by
  unfold CanSave at can
  unfold saveSnapshot
  cases hpath : s.snapshotPath with
  | none =>
    rw [hpath] at can
    exact ⟨w, rfl, can⟩
  | some path =>
    rw [hpath] at can
    obtain ⟨takes, next⟩ := can
    obtain ⟨files, hwrite, hsave⟩ := effect_save_of_takes takes system.writeSnapshot
    exact ⟨_, effect_bind_ok hsave _, next _ _ hwrite⟩

/-- A grid that is written in full is saved and can be read again. -/
theorem effect_saveGrid {w : Workspace} (takes : w.files.Takes s.outputPath) {r : Registry}
    {g : Grid} {system : System Nat} {text : String}
    (written : GridText.write r g system = (text, .ok ())) :
    ∃ after, effect (s.saveGrid r g system) w = (.ok (), after) ∧
      after.files.readText s.outputPath = .ok text := by
  unfold saveGrid
  rw [effect_bind_ok (effect_tell _ w), written]
  dsimp only
  generalize w.journal.tellAll [RunNote.gridReady _, RunNote.savingGrid _] = journal
  obtain ⟨files, hwrite, hsave⟩ := effect_save_of_takes (w := { w with journal }) takes text
  refine ⟨_, (effect_bind_ok hsave _).trans (effect_bind_ok (effect_ofExcept _ _) _), ?_⟩
  exact Files.readText_writeText hwrite

/-! ## The whole run -/

/-- **A standard run whose search ends well saves a grid that obeys its rule file**, whichever words
a run without a seed draws from.  The text at the output path has one line for each row, the
northernmost first: the names of registered modules with one blank between them, and a line feed.
Neighbouring rows and columns are allowed by the relation that the rule file gives, around the
grid as well if it is periodic, and the border has the border module. -/
theorem collapseGrid_writes {path : String} {w : Workspace} {spare : WordStream} {p : Prepared}
    {watched : Watched} {journal : Journal} {stats : Stats}
    (hwidth : 0 < s.width) (hheight : 0 < s.height) (hpath : s.ruleFile = some path)
    (held : w.files.Holds path file) (built : file.build = .ok loaded)
    (compass : loaded.registry.duals.toList = Compass.duals) (can : s.CanSave w.files)
    (prepared : s.prepare loaded.registry loaded.ruleSet.rules s.reportingConfig spare = .ok p)
    (hok : (s.search p watched journal).1.1.result = .ok stats) :
    ∃ after m, effect (s.collapseGrid spare) w = (.ok (), after) ∧
      after.files.readText s.outputPath = .ok (s.textOf m) ∧
      s.Obeys file loaded.registry m := by
  unfold collapseGrid
  rw [effect_bind_ok (effect_tell _ w)]
  obtain ⟨opening, hopen⟩ :=
    effect_openRules (w := { w with journal := w.journal.tellAll [RunNote.searching] }) hpath held
      built compass
  rw [effect_bind_ok hopen]
  dsimp only
  rw [effect_bind_ok (effect_tell _ _), effect_bind_ok (effect_tell _ _), prepared,
    effect_bind_ok (effect_ofExcept _ _), effect_bind_ok (effect_tell _ _),
    effect_bind_ok (effect_get _), effect_bind_ok (effect_keepJournal _ _)]
  dsimp only
  -- the driver, the frames and the journal do not change how the search ends
  obtain ⟨hresult, -, -⟩ := s.search_same p watched journal .silent
  obtain ⟨m, hobeys, hwritten⟩ :=
    write_of_collapse built compass hheight hwidth prepared (hresult.symm.trans hok)
  generalize hsearch : s.search p _ _ = searched
  obtain ⟨hended, hsolver, -⟩ : searched.1.1.Same (p.solver.collapse s.maxSteps .silent) :=
    hsearch ▸ s.search_same p _ _ .silent
  obtain ⟨⟨ending, frames⟩, told⟩ := searched
  rw [hended, ← hresult, hok, hsolver, effect_bind_ok (effect_print _ _)]
  dsimp only
  obtain ⟨saved, hsnapshot, takes⟩ := effect_saveSnapshot
    (w := { w with printed := w.printed ++ frames.shown, journal := told }) can
    (p.solver.collapse s.maxSteps .silent).solver.system
  rw [effect_bind_ok hsnapshot, effect_bind_ok (effect_tell _ _),
    effect_bind_ok (effect_print _ _)]
  dsimp only
  generalize saved.journal.tellAll [RunNote.solved stats] = journal,
    saved.printed ++ _ = printed
  obtain ⟨after, hsave, hread⟩ :=
    effect_saveGrid (w := { saved with printed, journal }) takes hwritten
  exact ⟨after, m, hsave, hread, hobeys⟩

end Settings

/-! ## Stripes -/

/-- Two modules that alternate from west to east. -/
def RuleFile.stripes : RuleFile where
  types := ["n", "s", "e", "w"]
  duals := [("n", "s"), ("e", "w")]
  modules := [⟨"a", 0, none⟩, ⟨"b", 0, none⟩]
  neighbors := [⟨"a", "a", "n"⟩, ⟨"b", "b", "n"⟩, ⟨"a", "b", "e"⟩, ⟨"b", "a", "e"⟩]

/-- The stripes as a text. -/
def RuleFile.stripesText : String :=
  "[[\"n\",\"s\",\"e\",\"w\"],[[\"n\",\"s\"],[\"e\",\"w\"]],[[\"a\"],[\"b\"]]," ++
    "[[\"a\",\"a\",\"n\"],[\"b\",\"b\",\"n\"],[\"a\",\"b\",\"e\"],[\"b\",\"a\",\"e\"]]]"

/-- One periodic row of two stripes. -/
def Settings.stripes : Settings where
  ruleFile := some "a.json"
  width := 2
  height := 1
  boundary := .periodic
  seed := some 7
  stepped := true
  outputPath := "out"

/-- A directory with the stripes in it. -/
def Files.stripes : Files where
  entries := [(["a.json"], .file RuleFile.stripesText.toUTF8)]

theorem Path.splitOn_stripes : "a.json".splitOn "/" = ["a.json"] ∧
    "a.json".splitOn "." = ["a", "json"] ∧ "out".splitOn "/" = ["out"] := by
  unfold String.splitOn
  rw [if_neg (by decide), if_neg (by decide)]
  simp +decide [String.splitOnAux]

theorem Files.plain_stripes : Plain "a.json" ∧ Plain "out" := by
  obtain ⟨hrules, -, hout⟩ := Path.splitOn_stripes
  constructor
  · exact ⟨by simp, by decide, by decide, by decide +kernel, by decide +kernel,
      steps_of_splitOn hrules (by decide), by decide⟩
  · exact ⟨by simp, by decide, by decide, by decide +kernel, by decide +kernel,
      steps_of_splitOn hout (by decide), by decide⟩

theorem Files.holds_stripes : Files.stripes.Holds "a.json" .stripes := by
  refine ⟨.json, RuleFile.stripesText, ?_, ?_, by decide +kernel⟩
  · obtain ⟨-, hdot, -⟩ := Path.splitOn_stripes
    have hname : Path.fileName? "a.json" = some "a.json" := by
      unfold Path.fileName? Path.names
      rw [plain_stripes.1.alone]
      decide +kernel
    unfold RuleFormat.ofPath Path.extension?
    rw [hname, Option.bind_some, hdot]
    decide +kernel
  · -- the directory is what writing the text to an empty one leaves
    have hwrite : ({} : Files).writeText "a.json" RuleFile.stripesText = .ok .stripes :=
      write_eq_ok_iff.mpr ⟨_, plain_stripes.1.writable nofun, rfl⟩
    exact readText_writeText hwrite

namespace Settings

/-- A row of two stripes is written. -/
theorem collapseGrid_writes_stripes :
    ∃ loaded after m, RuleFile.stripes.build = .ok loaded ∧
      Act.effect (stripes.collapseGrid (.ofSeed 0)) { files := .stripes } = (.ok (), after) ∧
      after.files.readText "out" = .ok (stripes.textOf m) ∧
      stripes.Obeys .stripes loaded.registry m := by
  have hends : (RuleFile.stripes.build.toOption.bind fun loaded =>
      if loaded.registry.duals.toList = Compass.duals then
        (stripes.prepare loaded.registry loaded.ruleSet.rules stripes.reportingConfig
          (.ofSeed 0)).toOption.bind fun p =>
            (p.solver.resultWithin { limit := stripes.maxSteps } 20).bind (·.toOption)
      else none).isSome = true := by
    decide +kernel
  obtain ⟨stats, hends⟩ := Option.isSome_iff_exists.mp hends
  obtain ⟨loaded, built, hends⟩ := Option.bind_eq_some_iff.mp hends
  split at hends
  · next compass =>
    obtain ⟨p, prepared, hends⟩ := Option.bind_eq_some_iff.mp hends
    obtain ⟨result, hwithin, hresult⟩ := Option.bind_eq_some_iff.mp hends
    have hok : (p.solver.collapse stripes.maxSteps .silent).result = .ok stats :=
      (Solver.drive_result_of_within hwithin _).trans (toOption_eq_some_iff.mp hresult)
    have hsearch : (stripes.search p { drawing := none } .silent).1.1.result = .ok stats :=
      (stripes.search_same p _ _ .silent).1.trans hok
    have can : stripes.CanSave .stripes :=
      Files.takes_iff.mpr ⟨_, Files.plain_stripes.2.writable nofun⟩
    obtain ⟨after, m, hwrites⟩ := collapseGrid_writes (w := { files := .stripes }) (by decide)
      (by decide) rfl Files.holds_stripes (toOption_eq_some_iff.mp built) compass can
      (toOption_eq_some_iff.mp prepared) hsearch
    exact ⟨loaded, after, m, toOption_eq_some_iff.mp built, hwrites⟩
  · cases hends

end Settings
end WaveCollapse
