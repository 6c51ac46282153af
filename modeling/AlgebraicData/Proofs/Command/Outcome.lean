import AlgebraicData.Command.Run
import AlgebraicData.Proofs.Command.FileTree

/-!
# All or nothing

A run goes through its inputs in order: the configuration, then the sources.  Either one of them is
the first that cannot be used (`Invocation.StopsAt`), or the configuration gives settings
(`Invocation.Configures`) and the sources give texts (`Invocation.Supplies`).  In the first case the
run reports that one problem, whatever a compiler would do with the sources.  In the second case it
writes all bundles if all sources compile, and else writes nothing and reports what is wrong with
each source (`run_all_or_nothing`).

All of this holds on every system and for every way of loading settings.  In particular it holds
where the state is the list of all that was ever written, so a state that stays the same means that
nothing was written anywhere.
-/

namespace AlgebraicData

/-! ## Settings in layers -/

/-- The options that layers choose.  The first layer that sets an option decides, and the default
stands if none does. -/
def Options.ofLayers (layers : List Settings) : Options where
  tagName := (layers.findSome? (·.tagName)).getD "type"
  foldName := (layers.findSome? (·.foldName)).getD "fold"
  matcheeName := (layers.findSome? (·.matcheeName)).getD "fa"
  handlerStyle := (layers.findSome? (·.handlersName)).elim .positional .record
  emitAccessors := (layers.findSome? (·.emitAccessors)).getD true
  emitEquality := (layers.findSome? (·.emitEquality)).getD true

theorem Settings.toOptions_merge (lower upper : Settings) :
    (lower.merge upper).toOptions = Options.ofLayers [upper, lower] := by
  have hfind : ∀ {α : Type} (field : Settings → Option α),
      [upper, lower].findSome? field = (field upper <|> field lower) := by
    intro α field
    cases hupper : field upper with
    | none => cases hlower : field lower <;> simp [hupper, hlower]
    | some value => simp [hupper]
  simp only [Options.ofLayers, hfind, toOptions, merge]
  cases upper.handlersName <;> cases lower.handlersName <;> rfl

/-- What a source has to report: one error if it does not compile, and none if it does. -/
def Source.reports (source : Source) (options : Options) : List String :=
  match source.compile options with
  | .ok _ => []
  | .error failure => [(Command.RunError.source failure).report]

namespace Command

variable {σ : Type} {system : System σ} {state : σ}

/-! ## Texts -/

/-- The input is the text. -/
def System.Holds (system : System σ) (state : σ) (origin : Origin) (text : String) : Prop :=
  system.read origin state = .ok text.toUTF8

/-- The input cannot be read, or it is no text. -/
inductive System.Lacks (system : System σ) (state : σ) (origin : Origin) : FileError → Prop where
  | unreadable {error : FileError} : system.read origin state = .error error →
      Lacks system state origin error
  | notText {bytes : ByteArray} : system.read origin state = .ok bytes →
      (∀ text : String, bytes ≠ text.toUTF8) → Lacks system state origin .notText

theorem decodeText_eq_ok_iff {bytes : ByteArray} {text : String} :
    decodeText bytes = .ok text ↔ bytes = text.toUTF8 := by
  unfold decodeText String.fromUTF8?
  by_cases hvalid : bytes.IsValidUTF8
  · simp only [hvalid, dite_true, Except.ok.injEq]
    exact ⟨fun h => congrArg String.toUTF8 h, fun h => String.toByteArray_inj.mp h⟩
  · simp only [hvalid, dite_false, reduceCtorEq, false_iff]
    rintro rfl
    exact hvalid text.isValidUTF8

theorem decodeText_eq_error_iff {bytes : ByteArray} {error : FileError} :
    decodeText bytes = .error error ↔
      error = .notText ∧ ∀ text : String, bytes ≠ text.toUTF8 := by
  constructor
  · intro h
    refine ⟨?_, fun text hbytes => ?_⟩
    · unfold decodeText at h
      split at h
      · cases h
      · exact (Except.error.inj h).symm
    · rw [decodeText_eq_ok_iff.mpr hbytes] at h
      cases h
  · rintro ⟨rfl, hbytes⟩
    unfold decodeText
    split
    · rename_i text htext
      refine absurd (decodeText_eq_ok_iff.mp ?_) (hbytes text)
      rw [decodeText, htext]
    · rfl

theorem readText_eq_ok_iff {origin : Origin} {text : String} :
    readText (system.read · state) origin = .ok text ↔ system.Holds state origin text := by
  simp only [readText, System.Holds, Except.mapError_eq_ok_iff, Except.bind_eq_ok_iff,
    decodeText_eq_ok_iff, exists_eq_right]

theorem readText_eq_error_iff {origin : Origin} {problem : RunError} :
    readText (system.read · state) origin = .error problem ↔
      ∃ error, system.Lacks state origin error ∧ problem = .file error := by
  rw [readText, Except.mapError_eq_error_iff]
  refine exists_congr fun error => and_congr ?_ eq_comm
  rw [Except.bind_eq_error_iff]
  constructor
  · rintro (hread | ⟨bytes, hread, hdecode⟩)
    · exact .unreadable hread
    · obtain ⟨rfl, hbytes⟩ := decodeText_eq_error_iff.mp hdecode
      exact .notText hread hbytes
  · rintro (hread | ⟨hread, hbytes⟩)
    · exact .inl hread
    · exact .inr ⟨_, hread, decodeText_eq_error_iff.mpr ⟨rfl, hbytes⟩⟩

namespace Invocation

variable {invocation : Invocation} {load : Loader}

/-! ## Inputs in order -/

/-- The configuration gives these settings: those of its document, or none without a document. -/
inductive Configures (invocation : Invocation) (load : Loader) (system : System σ) (state : σ) :
    Settings → Prop where
  | absent : invocation.config = none → Configures invocation load system state {}
  | document {path text : String} {settings : Settings} : invocation.config = some path →
      system.Holds state (.file path) text → load text = .ok settings →
      Configures invocation load system state settings

/-- The configuration cannot be read, or its document sets no options. -/
inductive ConfigurationFails (invocation : Invocation) (load : Loader) (system : System σ)
    (state : σ) : RunError → Prop where
  | unreadable {path : String} {error : FileError} : invocation.config = some path →
      system.Lacks state (.file path) error →
      ConfigurationFails invocation load system state (.file error)
  | unfit {path text description : String} : invocation.config = some path →
      system.Holds state (.file path) text → load text = .error description →
      ConfigurationFails invocation load system state (.settings description)

/-- The sources are the texts of the files in order, or that of the standard input. -/
inductive Supplies (invocation : Invocation) (system : System σ) (state : σ) :
    List Source → Prop where
  | standardInput {text : String} : invocation.files = [] →
      system.Holds state .standardInput text →
      Supplies invocation system state [⟨"<stdin>", text⟩]
  | files {sources : List Source} : invocation.files ≠ [] →
      List.Forall₂ (fun path source =>
        source.name = path ∧ system.Holds state (.file path) source.text)
        invocation.files sources →
      Supplies invocation system state sources

/-- The standard input is no text, or a file cannot be read although all files before it can. -/
inductive SourceFails (invocation : Invocation) (system : System σ) (state : σ) :
    RunError → Prop where
  | standardInput {error : FileError} : invocation.files = [] →
      system.Lacks state .standardInput error → SourceFails invocation system state (.file error)
  | file {before after : List String} {path : String} {error : FileError} :
      invocation.files = before ++ path :: after →
      (∀ b ∈ before, ∃ text, system.Holds state (.file b) text) →
      system.Lacks state (.file path) error → SourceFails invocation system state (.file error)

/-- The first problem that keeps a run from reading its inputs. -/
def StopsAt (invocation : Invocation) (load : Loader) (system : System σ) (state : σ)
    (problem : RunError) : Prop :=
  invocation.ConfigurationFails load system state problem ∨
    (∃ settings, invocation.Configures load system state settings) ∧
      invocation.SourceFails system state problem

theorem readSettings_eq_ok_iff {settings : Settings} :
    invocation.readSettings load (system.read · state) = .ok settings ↔
      invocation.Configures load system state settings := by
  unfold readSettings
  split
  · rename_i hconfig
    constructor
    · intro h
      obtain rfl := Except.ok.inj h
      exact .absent hconfig
    · rintro (_ | ⟨hpath, -, -⟩)
      · rfl
      · rw [hconfig] at hpath
        cases hpath
  · rename_i path hconfig
    simp only [Except.bind_eq_ok_iff, Except.mapError_eq_ok_iff, readText_eq_ok_iff]
    constructor
    · rintro ⟨text, htext, hsettings⟩
      exact .document hconfig htext hsettings
    · rintro (hnone | ⟨hpath, htext, hsettings⟩)
      · rw [hconfig] at hnone
        cases hnone
      · obtain rfl := Option.some.inj (hconfig.symm.trans hpath)
        exact ⟨_, htext, hsettings⟩

theorem readSettings_eq_error_iff {problem : RunError} :
    invocation.readSettings load (system.read · state) = .error problem ↔
      invocation.ConfigurationFails load system state problem := by
  unfold readSettings
  split
  · rename_i hconfig
    constructor
    · intro h
      cases h
    · rintro (⟨hpath, -⟩ | ⟨hpath, -, -⟩) <;> rw [hconfig] at hpath <;> cases hpath
  · rename_i path hconfig
    simp only [Except.bind_eq_error_iff, Except.mapError_eq_error_iff, readText_eq_ok_iff,
      readText_eq_error_iff]
    constructor
    · rintro (⟨error, htext, rfl⟩ | ⟨text, htext, description, hsettings, rfl⟩)
      · exact .unreadable hconfig htext
      · exact .unfit hconfig htext hsettings
    · rintro (⟨hpath, htext⟩ | ⟨hpath, htext, hsettings⟩)
      · obtain rfl := Option.some.inj (hconfig.symm.trans hpath)
        exact .inl ⟨_, htext, rfl⟩
      · obtain rfl := Option.some.inj (hconfig.symm.trans hpath)
        exact .inr ⟨_, htext, _, hsettings, rfl⟩

/-- An input is read as a source under its own name. -/
theorem readSource_eq_ok_iff {name : String} {origin : Origin} {source : Source} :
    (do return ⟨name, ← readText (system.read · state) origin⟩ : Except RunError Source) =
      .ok source ↔ source.name = name ∧ system.Holds state origin source.text := by
  rw [Except.bind_eq_ok_iff]
  constructor
  · rintro ⟨text, htext, hpure⟩
    obtain rfl := Except.ok.inj hpure
    exact ⟨rfl, readText_eq_ok_iff.mp htext⟩
  · rintro ⟨rfl, htext⟩
    exact ⟨source.text, readText_eq_ok_iff.mpr htext, rfl⟩

theorem readSource_eq_error_iff {name : String} {origin : Origin} {problem : RunError} :
    (do return ⟨name, ← readText (system.read · state) origin⟩ : Except RunError Source) =
      .error problem ↔ ∃ error, system.Lacks state origin error ∧ problem = .file error := by
  rw [Except.bind_eq_error_iff, or_iff_left, readText_eq_error_iff]
  rintro ⟨text, -, hpure⟩
  cases hpure

theorem inputs_of_eq_nil (h : invocation.files = []) :
    invocation.inputs = [("<stdin>", .standardInput)] := by
  rw [inputs, h]
  rfl

theorem inputs_of_ne_nil (h : invocation.files ≠ []) :
    invocation.inputs = invocation.files.map fun path => (path, .file path) := by
  rw [inputs, if_neg (by simpa using h)]

theorem readSources_eq_ok_iff {sources : List Source} :
    invocation.readSources (system.read · state) = .ok sources ↔
      invocation.Supplies system state sources := by
  simp only [readSources, Except.mapM_eq_ok_iff, readSource_eq_ok_iff]
  by_cases hfiles : invocation.files = []
  · rw [inputs_of_eq_nil hfiles]
    constructor
    · intro h
      obtain ⟨⟨_, text⟩, _, ⟨rfl, htext⟩, hrest, rfl⟩ := List.forall₂_cons_left_iff.mp h
      obtain rfl := List.forall₂_nil_left_iff.mp hrest
      exact .standardInput hfiles htext
    · rintro (⟨-, htext⟩ | ⟨hne, -⟩)
      · exact .cons ⟨rfl, htext⟩ .nil
      · exact absurd hfiles hne
  · rw [inputs_of_ne_nil hfiles, List.forall₂_map_left_iff]
    constructor
    · exact .files hfiles
    · rintro (⟨hnil, -⟩ | ⟨-, hsources⟩)
      · exact absurd hnil hfiles
      · exact hsources

theorem readSources_eq_error_iff {problem : RunError} :
    invocation.readSources (system.read · state) = .error problem ↔
      invocation.SourceFails system state problem := by
  simp only [readSources, Except.mapM_eq_error_iff, readSource_eq_ok_iff, readSource_eq_error_iff]
  by_cases hfiles : invocation.files = []
  · rw [inputs_of_eq_nil hfiles]
    constructor
    · rintro ⟨before, input, after, happend, -, error, herror, rfl⟩
      have hinput : input ∈ [("<stdin>", Origin.standardInput)] :=
        happend ▸ List.mem_append_right _ List.mem_cons_self
      obtain rfl := List.mem_singleton.mp hinput
      exact .standardInput hfiles herror
    · rintro (⟨-, herror⟩ | ⟨happend, -, -⟩)
      · exact ⟨[], _, [], rfl, List.forall_mem_nil _, _, herror, rfl⟩
      · simp [hfiles] at happend
  · rw [inputs_of_ne_nil hfiles]
    constructor
    · rintro ⟨before, input, after, happend, hbefore, error, herror, rfl⟩
      obtain ⟨before, rest, hsplit, rfl, hrest⟩ := List.map_eq_append_iff.mp happend
      obtain ⟨path, after, rfl, rfl, rfl⟩ := List.map_eq_cons_iff.mp hrest
      refine .file hsplit (fun b hb => ?_) herror
      obtain ⟨source, -, htext⟩ := hbefore _ (List.mem_map_of_mem hb)
      exact ⟨source.text, htext⟩
    · rintro (⟨hnil, -⟩ | ⟨happend, hbefore, herror⟩)
      · exact absurd hnil hfiles
      · rw [happend, List.map_append, List.map_cons]
        refine ⟨_, _, _, rfl, List.forall_mem_map.mpr fun b hb => ?_, _, herror, rfl⟩
        obtain ⟨text, htext⟩ := hbefore b hb
        exact ⟨⟨b, text⟩, rfl, htext⟩

/-- A run reads all its inputs, or there is a first problem. -/
theorem exists_stopsAt_or_supplies (invocation : Invocation) (load : Loader) (system : System σ)
    (state : σ) :
    (∃ problem, invocation.StopsAt load system state problem) ∨
      ∃ settings sources, invocation.Configures load system state settings ∧
        invocation.Supplies system state sources := by
  cases hsettings : invocation.readSettings load (system.read · state) with
  | error problem => exact .inl ⟨problem, .inl (readSettings_eq_error_iff.mp hsettings)⟩
  | ok settings =>
    have hconfigures := readSettings_eq_ok_iff.mp hsettings
    cases hsources : invocation.readSources (system.read · state) with
    | error problem =>
      exact .inl ⟨problem, .inr ⟨⟨settings, hconfigures⟩, readSources_eq_error_iff.mp hsources⟩⟩
    | ok sources => exact .inr ⟨settings, sources, hconfigures, readSources_eq_ok_iff.mp hsources⟩

end Invocation

/-! ## Compiling -/

variable {compile : Compiler} {sources : List Source} {options : Options}

theorem map_compile_of_forall₂ {bundles : List String}
    (h : List.Forall₂ (fun source bundle => compile source options = .ok bundle) sources bundles) :
    sources.map (compile · options) = bundles.map .ok := by
  induction h with
  | nil => rfl
  | cons hfirst _ ih => rw [List.map_cons, List.map_cons, hfirst, ih]

theorem compileAll_of_forall₂ {bundles : List String}
    (h : List.Forall₂ (fun source bundle => compile source options = .ok bundle) sources bundles) :
    compileAll compile sources options = .ok ("\n\n".intercalate bundles ++ "\n") := by
  have herrors : compileErrors (bundles.map .ok) = [] := by
    simp [compileErrors]
  have htexts : compiledTexts (bundles.map .ok) = bundles := by
    simp [compiledTexts]
  simp only [compileAll, map_compile_of_forall₂ h, herrors, htexts]

theorem map_report_compileErrors (sources : List Source) (options : Options) :
    (compileErrors (sources.map (·.compile options))).map (·.report) =
      sources.flatMap (·.reports options) := by
  rw [compileErrors, List.filterMap_map, List.map_filterMap, List.filterMap_eq_flatMap_toList]
  refine List.flatMap_congr fun source _ => ?_
  unfold Source.reports
  rw [Function.comp_apply]
  cases source.compile options <;> rfl

/-- If a source does not compile, there is no text but the errors of all sources. -/
theorem exists_compileAll_eq_error {source : Source} (hmem : source ∈ sources)
    {failure : SourceFailure} (h : source.compile options = .error failure) :
    ∃ errors, compileAll Source.compile sources options = .error errors ∧
      errors.map (·.report) = sources.flatMap (·.reports options) := by
  have herror : .source failure ∈ compileErrors (sources.map (·.compile options)) :=
    List.mem_filterMap.mpr ⟨_, List.mem_map_of_mem hmem, by rw [h]⟩
  refine ⟨_, ?_, map_report_compileErrors sources options⟩
  unfold compileAll
  dsimp only
  split
  · rename_i hnil
    rw [hnil] at herror
    cases herror
  · rfl

/-! ## Runs -/

namespace Invocation

variable {invocation : Invocation} {load : Loader}

/-- The destination is the file that the output names, or the standard output. -/
inductive WritesTo (invocation : Invocation) : Destination → Prop where
  | printed : invocation.output = none → WritesTo invocation .standardOutput
  | saved {path : String} : invocation.output = some path → WritesTo invocation (.file path)

theorem WritesTo.destination_eq {destination : Destination} (h : invocation.WritesTo destination) :
    invocation.destination = destination := by
  unfold Invocation.destination
  cases h with
  | printed houtput => rw [houtput]
  | saved houtput => rw [houtput]

theorem StopsAt.runWith_eq {problem : RunError} (h : invocation.StopsAt load system state problem)
    (compile : Compiler) :
    invocation.runWith compile load system state = ⟨1, [problem.report], state⟩ := by
  unfold runWith produce
  rcases h with hfails | ⟨⟨settings, hsettings⟩, hfails⟩
  · rw [readSettings_eq_error_iff.mpr hfails]
    rfl
  · rw [readSettings_eq_ok_iff.mpr hsettings, readSources_eq_error_iff.mpr hfails]
    rfl

theorem produce_of_supplies (compile : Compiler) {settings : Settings}
    (hsettings : invocation.Configures load system state settings)
    (hsources : invocation.Supplies system state sources) :
    invocation.produce compile load (system.read · state) =
      compileAll compile sources (Options.ofLayers [invocation.settings, settings]) := by
  rw [produce, readSettings_eq_ok_iff.mpr hsettings, readSources_eq_ok_iff.mpr hsources,
    ← Settings.toOptions_merge]
  rfl

/-- A run is all or nothing.

If there is a first problem with the configuration or with reading a source, the run reports it and
nothing else, writes nothing and fails, and another compiler would make no difference.  Otherwise
the configuration gives settings and all sources are read, in the order of the files; what the
command line sets goes before what the configuration sets, and both before the defaults.  Then if
some source does not compile, the run writes nothing and fails, with one report for each source that
does not compile, in order.  And if all compile, it writes the bundles in order, with a blank line
between them and a newline at the end, to the file that the output names or to standard output, and
it succeeds if that does. -/
theorem run_all_or_nothing (invocation : Invocation) (load : Loader) (system : System σ)
    (state : σ) :
    ((∃ problem, invocation.StopsAt load system state problem) ∨
      ∃ settings sources, invocation.Configures load system state settings ∧
        invocation.Supplies system state sources) ∧
    (∀ problem, invocation.StopsAt load system state problem →
      invocation.run load system state = ⟨1, [problem.report], state⟩ ∧
      ∀ compile, invocation.runWith compile load system state =
        invocation.run load system state) ∧
    ∀ settings sources, invocation.Configures load system state settings →
      invocation.Supplies system state sources →
      let options := Options.ofLayers [invocation.settings, settings]
      ((∃ source ∈ sources, ∃ failure, source.compile options = .error failure) →
        invocation.run load system state =
          ⟨1, sources.flatMap (·.reports options), state⟩) ∧
      ∀ bundles destination,
        List.Forall₂ (fun source bundle => source.compile options = .ok bundle) sources bundles →
        invocation.WritesTo destination →
        ∀ result state',
          system.write destination ("\n\n".intercalate bundles ++ "\n") state = (result, state') →
          (result = .ok () → invocation.run load system state = ⟨0, [], state'⟩) ∧
          ∀ error, result = .error error → invocation.run load system state =
            ⟨1, [(RunError.file error).report], state'⟩ := by
  refine ⟨exists_stopsAt_or_supplies invocation load system state, ?_, ?_⟩
  · intro problem h
    have hrun : invocation.run load system state = ⟨1, [problem.report], state⟩ :=
      h.runWith_eq Source.compile
    exact ⟨hrun, fun compile => (h.runWith_eq compile).trans hrun.symm⟩
  · intro settings sources hsettings hsources
    have hproduce := produce_of_supplies Source.compile hsettings hsources
    constructor
    · rintro ⟨source, hmem, failure, hfailure⟩
      obtain ⟨errors, herrors, hreports⟩ := exists_compileAll_eq_error hmem hfailure
      rw [run, runWith, hproduce, herrors, ← hreports]
    · intro bundles destination hbundles hdestination result state' hwrite
      rw [run, runWith, hproduce, compileAll_of_forall₂ hbundles]
      simp only [deliver, hdestination.destination_eq, hwrite]
      constructor
      · rintro rfl
        rfl
      · rintro error rfl
        rfl

/-- A source in a directory, where paths begin. -/
def workSession : Session where
  tree := {
    files := [(["work", "a.adt"], "data A = A".toUTF8)]
    directories := []
    current := ["work"] }
  stdin := "".toUTF8

theorem supplies_workSession (output : Option String) :
    Supplies { files := ["a.adt"], output } Session.system workSession
      [⟨"a.adt", "data A = A"⟩] :=
  .files (List.cons_ne_nil _ _) (.cons ⟨rfl, rfl⟩ .nil)

/-- The bundle is written outside the directory of the source, or printed. -/
theorem run_saves_above_directory_or_prints :
    ∃ bundle, (⟨"a.adt", "data A = A"⟩ : Source).compile (Options.ofLayers [{}, {}]) = .ok bundle ∧
      (∃ tree, Invocation.run { files := ["a.adt"], output := some "../out.ts" } Settings.load
          Session.system workSession = ⟨0, [], { workSession with tree }⟩ ∧
        tree.read "../out.ts" = .ok ("\n\n".intercalate [bundle] ++ "\n").toUTF8 ∧
        tree.read "/out.ts" = tree.read "../out.ts" ∧
        tree.read "a.adt" = .ok "data A = A".toUTF8) ∧
      Invocation.run { files := ["a.adt"] } Settings.load Session.system workSession =
        ⟨0, [], { workSession with stdout := "\n\n".intercalate [bundle] ++ "\n" }⟩ := by
  have hcompile : ((⟨"a.adt", "data A = A"⟩ : Source).compile
      (Options.ofLayers [{}, {}])).isOk = true := by decide +kernel
  cases hbundle : (⟨"a.adt", "data A = A"⟩ : Source).compile (Options.ofLayers [{}, {}]) with
  | error failure =>
    rw [hbundle] at hcompile
    cases hcompile
  | ok bundle =>
    have hruns := fun output => ((run_all_or_nothing { files := ["a.adt"], output } Settings.load
      Session.system workSession).2.2 {} _ (.absent rfl) (supplies_workSession output)).2 [bundle]
    refine ⟨bundle, rfl, ?_, ?_⟩
    · have hrun := hruns (some "../out.ts") (.file "../out.ts") (.cons hbundle .nil) (.saved rfl)
      cases hwrite : workSession.tree.write "../out.ts" ("\n\n".intercalate [bundle] ++ "\n") with
      | error error => cases hwrite
      | ok tree =>
        have hread := FileTree.read_of_write hwrite
        obtain rfl := Except.ok.inj hwrite
        exact ⟨_, (hrun (.ok ()) _ rfl).1 rfl, hread, rfl, rfl⟩
    · have hwrite : ∀ text, Session.system.write .standardOutput text workSession =
          (.ok (), { workSession with stdout := text }) := by
        intro text
        show (_, { workSession with stdout := "" ++ text }) = _
        rw [String.empty_append]
      exact (hruns none .standardOutput (.cons hbundle .nil) (.printed rfl) _ _ (hwrite _)).1 rfl

end Invocation

end Command

end AlgebraicData
