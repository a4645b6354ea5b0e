import TemplateBindings.CommandLine.Run
import TemplateBindings.Proofs.Build.Orders
import TemplateBindings.Proofs.Build.Unhindered
import TemplateBindings.Proofs.Config.Merged

/-!
# How a call of the command ends

Arguments that are read ask for a configuration (`TemplateBindings.CommandLine.Asks`). The exit code
of a call says how the run of this configuration ended: 1 with a source that failed, 0 without one, and
2 if it did not come to its end (`TemplateBindings.CommandLine.code_of_exit`).

A call need not exit at all. Of the errors of a run only those that say that something is missing become
an exit code, and a directory in the place of the log is none of these. Where the file system permits a
call, it does exit, and with 2 just if the configuration is refused or there is no directory of sources
(`TemplateBindings.CommandLine.exits_of_permits`).
-/

namespace TemplateBindings
namespace CommandLine

open Files

variable {surroundings : Surroundings} {line : List Text} {arguments : Arguments} {disk last : Disk}
  {loaded loaded' : Except Config.LoadError Config} {config : Config} {exit : Exit}

/-! ### What a call asks for -/

/-- **What a call asks for**: the configuration of its project, or the error in loading it. The
arguments have to say where the project is, and where their paths lead. -/
def Asks (surroundings : Surroundings) (arguments : Arguments) (files : Entry)
    (loaded : Except Config.LoadError Config) : Prop :=
  ∃ project overrides, arguments.projectRoot = .value project ∧
    overridesOf files surroundings.directory arguments = .ok overrides ∧
    configOf files surroundings project overrides = loaded

theorem Asks.unique {files : Entry} (h : Asks surroundings arguments files loaded)
    (h' : Asks surroundings arguments files loaded') : loaded = loaded' := by
  obtain ⟨project, overrides, hproject, hoverrides, rfl⟩ := h
  obtain ⟨project', overrides', hproject', hoverrides', rfl⟩ := h'
  cases hproject.symm.trans hproject'
  cases hoverrides.symm.trans hoverrides'
  rfl

section

variable {directory : Option Path} {files : Entry} {path : Path} {s : Text}
  (hcwd : ∀ d ∈ directory, d.Spelled)

include hcwd

theorem spelled_of_pathFrom (h : pathFrom directory s = .ok path) : path.Spelled := by
  cases directory with
  | some d =>
    cases h
    exact Config.spelled_under (hcwd d rfl)
  | none =>
    rw [pathFrom] at h
    split at h
    · cases h
      exact Config.spelled_under fun _ hn => absurd hn List.not_mem_nil
    · split at h <;> cases h

theorem spelled_of_pathArgument {given : Option (Given Text)} {chosen : Option Path}
    (h : pathArgument files directory given = .ok chosen) :
    ∀ path ∈ chosen, path.Spelled := by
  intro path hpath
  cases hpath
  match given with
  | none => cases h
  | some .nothing => cases h
  | some (.value s) =>
    rw [pathArgument] at h
    rcases hr : pathFrom directory s >>= resolve files with e | found
    · rw [hr] at h
      cases h
    · rw [hr] at h
      cases h
      obtain ⟨start, hfrom, hresolve⟩ := Build.of_bind_ok hr
      exact (resolve_proper (spelled_of_pathFrom hcwd hfrom) hresolve).spelled

/-- The overrides that arguments say are read from texts. -/
theorem spelled_of_overridesOf {overrides : Config.Overrides}
    (h : overridesOf files directory arguments = .ok overrides) : overrides.Spelled := by
  rw [overridesOf] at h
  obtain ⟨input, hinput, h⟩ := Build.of_bind_ok h
  obtain ⟨output, houtput, h⟩ := Build.of_bind_ok h
  obtain ⟨log, hlog, h⟩ := Build.of_bind_ok h
  cases h
  exact ⟨spelled_of_pathArgument hcwd hinput, spelled_of_pathArgument hcwd houtput,
    spelled_of_pathArgument hcwd hlog⟩

end

/-- **The configuration that a call asks for is resolved.** -/
theorem Asks.resolved {files : Entry} (h : Asks surroundings arguments files (.ok config))
    (hcwd : ∀ d ∈ surroundings.directory, Path.Spelled d) : config.Resolved := by
  obtain ⟨project, overrides, -, hoverrides, hconfig⟩ := h
  rw [configOf] at hconfig
  obtain ⟨root, hroot, hload⟩ := Build.of_bind_ok hconfig
  exact Config.resolved_of_load (spelled_of_pathFrom hcwd (Build.of_mapError_ok hroot))
    (spelled_of_overridesOf hcwd hoverrides) hload

/-! ### What a call does with it -/

/-- **A call builds the configuration** that it asks for, or says why there is none, or crashes. -/
theorem runOn_run (hline : readArguments line = .ok arguments) :
    Asks surroundings arguments disk.root loaded → (run surroundings line).runOn disk =
      match loaded with
      | .ok config => (build config surroundings.occasion).runOn disk
      | .error e => (if e.isRefusal then .ok (refusedExit e) else .error (.load e), disk) := by
  rintro ⟨project, overrides, hproject, hoverrides, hloaded⟩
  rw [run, hline]
  dsimp only
  rw [buildWith, Work.runOn_bind, Work.runOn_ask, hoverrides, hproject]
  dsimp only
  rw [Work.runOn_bind, Work.runOn_ask, hloaded]
  cases loaded with
  | ok config => rfl
  | error e =>
    dsimp only
    split <;> rfl

/-- A call that exits has asked for something. -/
theorem asks_of_exit (hline : readArguments line = .ok arguments)
    (h : (run surroundings line).runOn disk = (.ok exit, last)) :
    ∃ loaded, Asks surroundings arguments disk.root loaded := by
  rw [run, hline] at h
  dsimp only at h
  rw [buildWith] at h
  obtain ⟨overrides, mid, hask, h⟩ := Work.of_runOn_bind h
  rw [Work.runOn_ask] at hask
  obtain ⟨hoverrides, rfl⟩ := Prod.mk.inj hask
  cases hproject : arguments.projectRoot with
  | nothing =>
    rw [hproject] at h
    cases h
  | value project => exact ⟨_, project, overrides, hproject, hoverrides, rfl⟩

/-- **Building** turns the report of a run into an exit, and so an error that says that something is
missing. -/
theorem runOn_build (config : Config) (occasion : Build.Occasion) (disk : Disk) :
    (build config occasion).runOn disk =
      (match ((Build.run config occasion).runOn disk).1 with
        | .ok report => .ok (reportExit report)
        | .error e => if isMissing e then .ok (missingExit e) else .error (.run e),
      ((Build.run config occasion).runOn disk).2) := by
  rw [build, Work.runOn_bind, Work.runOn_lift]
  rcases hrun : (Build.run config occasion).runOn disk with ⟨e | report, last⟩
  · have hrun' : (ExceptT.run (Build.run config occasion)).run disk = (.error e, last) := hrun
    rw [hrun']
    dsimp only
    split <;> rfl
  · have hrun' : (ExceptT.run (Build.run config occasion)).run disk = (.ok report, last) := hrun
    rw [hrun']
    rfl

/-! ### Exit codes -/

/-- **The run that a call asks for ends with a report**, and these are the outcomes of its sources. -/
def Reports (surroundings : Surroundings) (arguments : Arguments) (disk : Disk)
    (outcomes : List (Build.Source × Build.Outcome)) : Prop :=
  ∃ config stages report last, Asks surroundings arguments disk.root (.ok config) ∧
    (Build.run config surroundings.occasion).runOn disk = (.ok report, last) ∧
    Build.Completes (Build.batches config.workers) config surroundings.occasion disk stages report last ∧
    stages.outcomes = outcomes

/-- Whether a source failed. -/
def AnyFailed (outcomes : List (Build.Source × Build.Outcome)) : Prop :=
  ∃ s e, (s, .failed e) ∈ outcomes

/-- A report says whether a source failed. -/
theorem reportOn_ok {outcomes : List (Build.Source × Build.Outcome)} {removed : List Str} :
    (Build.reportOn outcomes removed).ok = true ↔ ¬ AnyFailed outcomes := by
  rw [Build.Report.ok, List.isEmpty_iff, List.eq_nil_iff_forall_not_mem]
  constructor
  · rintro h ⟨s, e, ho⟩
    exact h _ (Text.mem_orderedBy.2 (List.mem_filterMap.2 ⟨_, ho, rfl⟩))
  · intro h failure hf
    obtain ⟨⟨s, outcome⟩, ho, hf⟩ := List.mem_filterMap.1 (Text.mem_orderedBy.1 hf)
    cases outcome with
    | failed e => exact h ⟨s, e, ho⟩
    | written _ => cases hf
    | cached => cases hf

/-- A call whose run ends with a report exits with 1 or 0, as a source failed or none did. -/
theorem Reports.exits {outcomes : List (Build.Source × Build.Outcome)}
    (h : Reports surroundings arguments disk outcomes)
    (hline : readArguments line = .ok arguments) :
    ∃ exit last, (run surroundings line).runOn disk = (.ok exit, last) ∧
      (exit.code = 1 ∧ AnyFailed outcomes ∨ exit.code = 0 ∧ ¬ AnyFailed outcomes) := by
  obtain ⟨config, stages, report, last, hasks, hrun, hstages, rfl⟩ := h
  refine ⟨reportExit report, last, ?_, ?_⟩
  · rw [runOn_run hline hasks]
    dsimp only
    rw [runOn_build, hrun]
  · have hok : report.ok = true ↔ ¬ AnyFailed stages.outcomes := by
      rw [hstages.report_eq]
      exact reportOn_ok
    rw [reportExit]
    split
    · next h => exact .inr ⟨rfl, hok.1 h⟩
    · next h => exact .inl ⟨rfl, not_not.1 (h ∘ hok.2)⟩

/-- A call that exits does so with 2, or its run ends with a report. -/
theorem code_eq_or_reports (hline : readArguments line = .ok arguments)
    (h : (run surroundings line).runOn disk = (.ok exit, last)) :
    exit.code = 2 ∨ ∃ outcomes, Reports surroundings arguments disk outcomes := by
  obtain ⟨loaded, hasks⟩ := asks_of_exit hline h
  rw [runOn_run hline hasks] at h
  cases loaded with
  | error e =>
    dsimp only at h
    split at h
    · cases h
      exact .inl rfl
    · cases h
  | ok config =>
    dsimp only at h
    rw [runOn_build] at h
    rcases hrun : (Build.run config surroundings.occasion).runOn disk with ⟨e | report, final⟩
    · rw [hrun] at h
      dsimp only at h
      split at h
      · cases h
        exact .inl rfl
      · cases h
    · obtain ⟨stages, hstages⟩ := Build.exists_completes hrun
      exact .inr ⟨_, config, stages, report, final, hasks, hrun, hstages, rfl⟩

/-- **What an exit code says**: how the run of a call ended, if it ended with a report. -/
theorem code_of_exit (hline : readArguments line = .ok arguments)
    (h : (run surroundings line).runOn disk = (.ok exit, last)) :
    exit.code ≤ 2 ∧
      (exit.code = 1 ↔ ∃ outcomes, Reports surroundings arguments disk outcomes ∧
        AnyFailed outcomes) ∧
      (exit.code = 0 ↔ ∃ outcomes, Reports surroundings arguments disk outcomes ∧
        ¬ AnyFailed outcomes) := by
  -- what is known of the exit of a run that ends is known of this one
  have hends {outcomes : List (Build.Source × Build.Outcome)}
      (hends : Reports surroundings arguments disk outcomes) :
      exit.code = 1 ∧ AnyFailed outcomes ∨ exit.code = 0 ∧ ¬ AnyFailed outcomes := by
    obtain ⟨exit', last', hrun, hcode⟩ := hends.exits hline
    cases h.symm.trans hrun
    exact hcode
  rcases code_eq_or_reports hline h with htwo | ⟨outcomes, houtcomes⟩
  · have hnone {outcomes : List (Build.Source × Build.Outcome)} :
        ¬ Reports surroundings arguments disk outcomes := fun h => by
      rcases hends h with ⟨hone, -⟩ | ⟨hzero, -⟩ <;> omega
    simp [htwo, hnone]
  · rcases hends houtcomes with ⟨hone, hfailed⟩ | ⟨hzero, hfailed⟩
    · refine ⟨by omega, ⟨fun _ => ⟨_, houtcomes, hfailed⟩, fun _ => hone⟩, by omega, ?_⟩
      rintro ⟨other, hother, hnot⟩
      exact ((hends hother).resolve_left fun h => hnot h.2).1
    · refine ⟨by omega, ⟨by omega, ?_⟩, ⟨fun _ => ⟨_, houtcomes, hfailed⟩, fun _ => hzero⟩⟩
      rintro ⟨other, hother, hany⟩
      exact ((hends hother).resolve_right fun h => h.2 hany).1

/-! ### Calls that exit -/

/-- **Whether there is nothing to build**: the configuration is refused, or there is no directory of
sources. -/
def Unbuildable (files : Entry) : Except Config.LoadError Config → Prop
  | .error _ => True
  | .ok config => isDirectory files config.inputRoot = .ok false

/-- **Whether the file system permits a call to exit**: what is wrong is the configuration and not its
files, and nothing hinders the run. -/
def Permits (disk : Disk) : Except Config.LoadError Config → Prop
  | .error e => e.isRefusal = true
  | .ok config => Build.Startable config disk.root ∧
      (isDirectory disk.root config.inputRoot = .ok true → Build.Unhindered config disk)

/-- **What a call leaves alone** that builds nothing: everything, or everything but the directory of the
log. -/
def Spared (disk last : Disk) : Except Config.LoadError Config → Prop
  | .error _ => last = disk
  | .ok config => Build.LogPrepared config disk.root.see? last.root.see?

/-- **Where the file system permits it, a call exits**, with 2 just if there is nothing to build. -/
theorem exits_of_permits (hline : readArguments line = .ok arguments)
    (hcwd : ∀ d ∈ surroundings.directory, Path.Spelled d)
    (hasks : Asks surroundings arguments disk.root loaded) (hpermits : Permits disk loaded) :
    ∃ exit last, (run surroundings line).runOn disk = (.ok exit, last) ∧
      (exit.code = 2 ↔ Unbuildable disk.root loaded) ∧
      (exit.code = 2 → Spared disk last loaded) := by
  rw [runOn_run hline hasks]
  cases loaded with
  | error e =>
    refine ⟨refusedExit e, disk, ?_, iff_of_true rfl trivial, fun _ => rfl⟩
    dsimp only
    rw [if_pos (show e.isRefusal = true from hpermits)]
  | ok config =>
    obtain ⟨hstart, hunhindered⟩ := hpermits
    have hres := hasks.resolved hcwd
    dsimp only
    rw [runOn_build]
    obtain ⟨there, hthere⟩ := isDirectory_isOk hres.input hstart.input hstart.fits
    cases there with
    | false =>
      obtain ⟨last, hrun, hprepared⟩ := hstart.runOn_run hres hthere surroundings.occasion
      rw [hrun]
      exact ⟨_, last, rfl, iff_of_true rfl hthere, fun _ => hprepared⟩
    | true =>
      obtain ⟨report, last, hrun⟩ :=
        (hunhindered hthere).run_isOk hstart hres hthere surroundings.occasion
      rw [hrun]
      have hcode : (reportExit report).code ≠ 2 := by
        rw [reportExit]
        split <;> simp
      refine ⟨_, last, rfl, iff_of_false hcode ?_, fun h => absurd h hcode⟩
      rw [Unbuildable, hthere]
      nofun

/-- **How a call ends.** In any file system, the code of a call that exits is 1 if its run ended with a
source that failed, 0 if it ended with none, and 2 otherwise. A call that the file system permits does
exit. Its code is 2 just if there is nothing to build, and then nothing is changed but for the directory
of the log. -/
theorem call_ends_well (hline : readArguments line = .ok arguments)
    (hcwd : ∀ d ∈ surroundings.directory, Path.Spelled d) :
    (∀ exit last, (run surroundings line).runOn disk = (.ok exit, last) →
      exit.code ≤ 2 ∧
        (exit.code = 1 ↔ ∃ outcomes, Reports surroundings arguments disk outcomes ∧
          AnyFailed outcomes) ∧
        (exit.code = 0 ↔ ∃ outcomes, Reports surroundings arguments disk outcomes ∧
          ¬ AnyFailed outcomes)) ∧
    ∀ loaded, Asks surroundings arguments disk.root loaded → Permits disk loaded →
      ∃ exit last, (run surroundings line).runOn disk = (.ok exit, last) ∧
        (exit.code = 2 ↔ Unbuildable disk.root loaded) ∧
        (exit.code = 2 → Spared disk last loaded) :=
  ⟨fun _ _ h => code_of_exit hline h, fun _ hasks hpermits =>
    exits_of_permits hline hcwd hasks hpermits⟩

/-- A call with a log. -/
def loggedLine : List Text :=
  ["--input-dir".toList, "src".toList, "--output-dir".toList, "out".toList, "--audit-log".toList,
    "logs/build.jsonl".toList]

/-- Its arguments. -/
def loggedArguments : Arguments where
  inputRoot := some (.value "src".toList)
  outputRoot := some (.value "out".toList)
  auditLog := some (.value "logs/build.jsonl".toList)

/-- Its surroundings. -/
def here : Surroundings := ⟨some [], some 4, Build.plainOccasion⟩

/-- The configuration that it asks for. -/
def askedConfig : Config :=
  ⟨["src".toList], ["out".toList], 4, some ["logs".toList, "build.jsonl".toList]⟩

theorem asks_varied : Asks here loggedArguments Build.varied.root (.ok askedConfig) := by
  have hinput : pathArgument Build.varied.root here.directory loggedArguments.inputRoot =
      .ok (some askedConfig.inputRoot) := by decide +kernel
  have houtput : pathArgument Build.varied.root here.directory loggedArguments.outputRoot =
      .ok (some askedConfig.outputRoot) := by decide +kernel
  have hlog : pathArgument Build.varied.root here.directory loggedArguments.auditLog =
      .ok askedConfig.auditLog := by decide +kernel
  refine ⟨['.'], ⟨some askedConfig.inputRoot, some askedConfig.outputRoot, .nothing,
    askedConfig.auditLog⟩, rfl, ?_, by decide +kernel⟩
  rw [overridesOf, hinput, houtput, hlog]
  rfl

theorem permits_varied : Permits Build.varied (.ok askedConfig) := by
  refine ⟨by decide +kernel, fun _ => ?_⟩
  exact {
    valid := by decide +kernel
    output := by decide +kernel
    fits := by decide +kernel
    shallow := by decide +kernel
    log := by decide +kernel
    apart := by decide +kernel
    view := by decide +kernel
    places := fun sources h => by
      have hfound : Build.foundBy askedConfig Build.varied = .ok Build.variedSources := by
        decide +kernel
      cases hfound.symm.trans h
      decide +kernel }

theorem call_ends_well_varied :
    readArguments loggedLine = .ok loggedArguments ∧
      Asks here loggedArguments Build.varied.root (.ok askedConfig) ∧
      Permits Build.varied (.ok askedConfig) ∧
      ∃ exit last, (run here loggedLine).runOn Build.varied = (.ok exit, last) ∧
        exit.code = 1 ∧
        ∃ outcomes, Reports here loggedArguments Build.varied outcomes ∧ AnyFailed outcomes := by
  have hline : readArguments loggedLine = .ok loggedArguments := by decide +kernel
  obtain ⟨hcodes, hexits⟩ :=
    @call_ends_well here loggedLine loggedArguments Build.varied hline (by decide)
  obtain ⟨exit, last, hrun, -, -⟩ := hexits _ asks_varied permits_varied
  -- one of the sources is no text
  have hcode : ((run here loggedLine).runOn Build.varied).1.map Exit.code = .ok 1 := by
    decide +kernel
  rw [hrun] at hcode
  have hone : exit.code = 1 := Except.ok.inj hcode
  exact ⟨hline, asks_varied, permits_varied, exit, last, hrun, hone,
    (hcodes exit last hrun).2.1.1 hone⟩

/-! ### Calls that do not end well -/

/-- A disk with one source, and a directory. -/
def blocked : Disk where
  root := .directory
    [("src".toList, .directory
        [("a.html".toList, .file (Utf8.encode "<p id='p'></p>".toList) 1700000000000000000)]),
      ("logs".toList, .directory [])]
  now := 1700000000000000000

/-- A call with the directory as its log. -/
def blockedLine : List Text :=
  ["--input-dir".toList, "src".toList, "--output-dir".toList, "out".toList, "--audit-log".toList,
    "logs".toList]

/-- A call without a directory of sources, with a log in a directory that is not there. -/
def lostLine : List Text :=
  ["--input-dir".toList, "missing".toList, "--output-dir".toList, "out".toList,
    "--audit-log".toList, "lost/build.jsonl".toList]

/-- **Calls that do not end well**: one crashes after all is built, since its log is a directory; the
other exits with 2 for want of its sources, but the directory of its log has been made. -/
theorem call_may_end_badly :
    blocked.root.Valid ∧ (readArguments blockedLine).isOk = true ∧
      (∀ exit last, (run here blockedLine).runOn blocked ≠ (.ok exit, last)) ∧
      (readArguments lostLine).isOk = true ∧
      ∃ exit last, (run here lostLine).runOn blocked = (.ok exit, last) ∧ exit.code = 2 ∧
        last.root.see? ["lost".toList] ≠ blocked.root.see? ["lost".toList] := by
  refine ⟨by decide +kernel, by decide +kernel, fun exit last h => ?_, by decide +kernel, ?_⟩
  · have hcrash : ((run here blockedLine).runOn blocked).1.isOk = false := by decide +kernel
    rw [h] at hcrash
    cases hcrash
  · have hexit : ((run here lostLine).runOn blocked).1 =
        .ok (missingExit (.noInput ["missing".toList])) := by decide +kernel
    exact ⟨_, _, Prod.ext hexit rfl, rfl, by decide +kernel⟩

end CommandLine
end TemplateBindings
