import TemplateBindings.Proofs.Audit.Log
import TemplateBindings.Proofs.Build.Removing
import TemplateBindings.Proofs.Build.Through
import TemplateBindings.Proofs.Config.Settled
import TemplateBindings.Proofs.Files.StepsBack

/-!
# The phases of a run

A run opens its roots, discovers the sources, works through them, sweeps, and logs. Each phase works
in its own places: opening makes directories on the paths of the configuration, work and sweep stay
in the directory of the outputs, and logging in that of the log. How far a run comes, and what it
leaves there, is one of the cases of `TemplateBindings.Build.RunEnds`.
-/

namespace TemplateBindings
namespace Build

open Files

variable {plan : List Source → List (List Source)} {config : Config} {occasion : Occasion}
  {disk opened worked swept last : Disk} {sources : List Source}
  {outcomes : List (Source × Outcome)} {paths : List Path} {report : Report}
  {result : Except RunError Report} {roots : Roots} {operations : List Operation} {log q : Path}

/-! ### How far a run comes -/

/-- **A plan covers its sources**: each is in one of the batches, once. -/
def Covers (plan : List Source → List (List Source)) : Prop :=
  ∀ sources, (plan sources).flatten.Perm sources

/-- Batches of any size cover the sources. -/
theorem covers_batches (workers : Int) : Covers (batches workers) := perm_batches workers

/-- The roots that a configuration names. -/
def rootsOf (config : Config) : Roots := ⟨config.inputRoot, config.outputRoot⟩

/-- The disk when a run has tried to open its roots. -/
def afterOpening (config : Config) (disk : Disk) : Disk := ((openRoots config).runOn disk).2

/-- The sources that a run discovers. -/
def foundBy (config : Config) (disk : Disk) : Except FileError (List Source) :=
  discover (afterOpening config disk).root config.inputRoot [config.outputRoot]

/-- What a run keeps. -/
def keepOf (config : Config) (outcomes : List (Source × Outcome)) : List Path :=
  config.auditLog.toList ++ kept config.outputRoot outcomes

/-- What a run with some plan for its batches has done when it comes to the sweep. -/
structure Reaches (plan : List Source → List (List Source)) (config : Config)
    (occasion : Occasion) (disk opened : Disk) (sources : List Source)
    (outcomes : List (Source × Outcome)) (worked : Disk) : Prop where
  /-- The roots are opened. -/
  opens : (openRoots config).runOn disk = (.ok (rootsOf config), opened)
  /-- The sources are discovered. -/
  discovers : discover opened.root config.inputRoot [config.outputRoot] = .ok sources
  /-- They are worked through. -/
  works : (workThrough (rootsOf config) sources occasion.turns (plan (markupOf sources))).run
    opened = (outcomes, worked)

/-- The events that a run logs. -/
def eventsAt (config : Config) (occasion : Occasion) (outcomes : List (Source × Outcome))
    (paths : List Path) : List Audit.Event :=
  eventsOf occasion config.outputRoot outcomes (paths.map (outputLabel config.outputRoot))

/-- The report of a run that comes to its end. -/
def reportAt (config : Config) (outcomes : List (Source × Outcome)) (paths : List Path) : Report :=
  reportOn outcomes (paths.map (outputLabel config.outputRoot))

/-- **How a run ends**: in one of its phases with an error, or with a report. -/
inductive RunEnds (plan : List Source → List (List Source)) (config : Config)
    (occasion : Occasion) (disk : Disk) : Except RunError Report → Disk → Prop
  /-- The roots cannot be opened. -/
  | unopened {e : RunError} {opened : Disk}
      (opens : (openRoots config).runOn disk = (.error e, opened)) :
      RunEnds plan config occasion disk (.error e) opened
  /-- The sources cannot be discovered. -/
  | undiscovered {e : FileError} {opened : Disk}
      (opens : (openRoots config).runOn disk = (.ok (rootsOf config), opened))
      (discovers : discover opened.root config.inputRoot [config.outputRoot] = .error e) :
      RunEnds plan config occasion disk (.error (.file e)) opened
  /-- The sweep stops. -/
  | unswept {e : FileError} {opened worked swept : Disk} {sources : List Source}
      {outcomes : List (Source × Outcome)}
      (reaches : Reaches plan config occasion disk opened sources outcomes worked)
      (sweeps : (removeStale sweepRoom config.outputRoot (keepOf config outcomes)).runOn worked =
        (.error e, swept)) :
      RunEnds plan config occasion disk (.error (.file e)) swept
  /-- The events cannot be logged. -/
  | unlogged {e : RunError} {opened worked swept last : Disk} {sources : List Source}
      {outcomes : List (Source × Outcome)} {paths : List Path}
      (reaches : Reaches plan config occasion disk opened sources outcomes worked)
      (sweeps : (removeStale sweepRoom config.outputRoot (keepOf config outcomes)).runOn worked =
        (.ok paths, swept))
      (logs : (logEvents config (eventsAt config occasion outcomes paths)).runOn swept =
        (.error e, last)) :
      RunEnds plan config occasion disk (.error e) last
  /-- The run comes to its end. -/
  | ended {opened worked swept last : Disk} {sources : List Source}
      {outcomes : List (Source × Outcome)} {paths : List Path}
      (reaches : Reaches plan config occasion disk opened sources outcomes worked)
      (sweeps : (removeStale sweepRoom config.outputRoot (keepOf config outcomes)).runOn worked =
        (.ok paths, swept))
      (logs : (logEvents config (eventsAt config occasion outcomes paths)).runOn swept =
        (.ok (), last)) :
      RunEnds plan config occasion disk (.ok (reportAt config outcomes paths)) last

/-! ### Opening -/

/-- **Opening** makes directories on the paths of the configuration, and if it ends well, the root of
the outputs is there. -/
structure Opens (config : Config) (disk : Disk) (result : Except RunError Roots × Disk)
    (operations : List Operation) : Prop where
  /-- The operations lead to the disk that is left. -/
  undergoes : disk.Undergoes operations result.2
  /-- They make directories on the way to the log or to the outputs. -/
  making : ∀ operation ∈ operations, ∃ way, operation = .makeDirectory way ∧
    (way <+: config.outputRoot ∨ ∃ log ∈ config.auditLog, way <+: log.parent)
  /-- The roots are those of the configuration. -/
  roots_eq : ∀ roots, result.1 = .ok roots → roots = rootsOf config
  /-- The root of the outputs is there in the end. -/
  output : ∀ roots, result.1 = .ok roots → OutputRoot result.2.root config.outputRoot
  /-- So is the directory of the log. -/
  log : ∀ roots, result.1 = .ok roots → ∀ log ∈ config.auditLog,
    result.2.root.see? log.parent = some .directory ∧ log.parent.Fits
  /-- The root of the sources is a directory. -/
  input : ∀ roots, result.1 = .ok roots → isDirectory result.2.root config.inputRoot = .ok true

/-- What comes first: the directory of the log. -/
def preparing (config : Config) : Work RunError Unit :=
  match config.auditLog with
  | some log => (Audit.prepare logRoom log).mapError .file
  | none => pure ()

/-- What comes then: the roots, and the directory of the outputs. -/
def opening (config : Config) : Work RunError Roots := do
  let input ← ask fun files => (resolve files config.inputRoot).mapError .path
  let output ← ask fun files => (resolve files config.outputRoot).mapError .path
  let hasInput ← ask fun files => (isDirectory files input).mapError .file
  if !hasInput then throw (.noInput input)
  (ensureDirectories directoryRoom output).mapError .file
  return ⟨input, output⟩

theorem openRoots_eq (config : Config) :
    openRoots config = (do preparing config; opening config) := by
  rw [openRoots, preparing]
  cases config.auditLog <;> rfl

theorem preparing_makes (hp : ∀ log ∈ config.auditLog, log.Proper)
    (hplain : ∀ log ∈ config.auditLog, log.Plain disk.root) :
    ∃ operations, disk.Undergoes operations ((preparing config).runOn disk).2 ∧
      (∀ operation ∈ operations, ∃ way, operation = .makeDirectory way ∧
        ∃ log ∈ config.auditLog, way <+: log.parent) ∧
      (((preparing config).runOn disk).1 = .ok () → ∀ log ∈ config.auditLog,
        ((preparing config).runOn disk).2.root.see? log.parent = some .directory ∧
          log.parent.Fits) := by
  rw [preparing]
  cases hlog : config.auditLog with
  | none => exact ⟨[], .nil _, by simp, by simp⟩
  | some log =>
    have hlogp := hp log hlog
    obtain ⟨operations, hmakes⟩ := ensureDirectories_makes logRoom
      (Path.parent_proper hlogp) (Path.parent_plain hlogp (hplain log hlog))
    dsimp only
    rw [Work.runOn_mapError, Audit.prepare]
    refine ⟨operations, hmakes.undergoes, fun o ho => ?_, fun hok l hl => ?_⟩
    · obtain ⟨way, hway, he⟩ := hmakes.making o ho
      exact ⟨way, he, log, rfl, hway⟩
    · cases Option.some.inj hl
      rcases hr : (ensureDirectories logRoom log.parent).runOn disk with ⟨e | ⟨⟩, mid⟩
      · rw [hr] at hok
        cases hok
      · rw [hr] at hmakes
        exact ⟨hmakes.made rfl, hmakes.fits rfl⟩

theorem runOn_opening (hin : config.inputRoot.Proper) (hinp : config.inputRoot.Plain disk.root)
    (hout : config.outputRoot.Proper) (houtp : config.outputRoot.Plain disk.root) :
    (opening config).runOn disk =
      match isDirectory disk.root config.inputRoot with
      | .error e => (.error (.file e), disk)
      | .ok false => (.error (.noInput config.inputRoot), disk)
      | .ok true =>
        match (ensureDirectories directoryRoom config.outputRoot).runOn disk with
        | (.error e, mid) => (.error (.file e), mid)
        | (.ok _, mid) => (.ok (rootsOf config), mid) := by
  rw [opening]
  simp only [Work.runOn_bind, Work.runOn_ask, resolve_of_plain hin hinp,
    resolve_of_plain hout houtp, Except.mapError]
  rcases isDirectory disk.root config.inputRoot with e | _ | _
  · rfl
  · rfl
  · dsimp only
    rw [if_neg (by simp), Work.runOn_bind, Work.runOn_mapError]
    rcases (ensureDirectories directoryRoom config.outputRoot).runOn disk with ⟨e | ⟨⟩, mid⟩
    · rfl
    · rfl

/-- Directories that are made bring no link. -/
theorem plain_of_making {mid : Disk} {path : Path} (hu : disk.Undergoes operations mid)
    (hm : ∀ operation ∈ operations, ∃ way, operation = .makeDirectory way)
    (hplain : path.Plain disk.root) : path.Plain mid.root := by
  induction hu with
  | nil => exact hplain
  | cons hd ha _ ih =>
    refine ih (fun o ho => hm o (List.mem_cons_of_mem _ ho)) fun q hq target => ?_
    obtain ⟨way, rfl⟩ := hm _ List.mem_cons_self
    rw [Disk.after, (Operation.of_apply hd ha).2, Operation.effect, Function.update_apply]
    split
    · simp
    · exact hplain q hq target

/-- **Opening the roots** of a settled configuration. -/
theorem openRoots_opens (hset : config.Settled disk.root) :
    ∃ operations, Opens config disk ((openRoots config).runOn disk) operations := by
  obtain ⟨first, hfirst, hmaking, hlog⟩ := preparing_makes hset.log_proper hset.log_plain
  have hmaking' : ∀ operation ∈ first, ∃ way, operation = .makeDirectory way := fun o ho =>
    (hmaking o ho).imp fun _ h => h.1
  have hwithin (operation : Operation) (ho : operation ∈ first) : ∃ way,
      operation = .makeDirectory way ∧
        (way <+: config.outputRoot ∨ ∃ log ∈ config.auditLog, way <+: log.parent) :=
    (hmaking operation ho).imp fun _ h => ⟨h.1, .inr h.2⟩
  rw [openRoots_eq, Work.runOn_bind]
  rcases hr : (preparing config).runOn disk with ⟨e | ⟨⟩, mid⟩
  · rw [hr] at hfirst
    exact ⟨first, hfirst, hwithin, nofun, nofun, nofun, nofun⟩
  · rw [hr] at hfirst hlog
    have hin := plain_of_making hfirst hmaking' hset.input_plain
    have hout := plain_of_making hfirst hmaking' hset.output_plain
    dsimp only
    rw [runOn_opening hset.input_proper hin hset.output_proper hout]
    rcases hinput : isDirectory mid.root config.inputRoot with e | _ | _
    · exact ⟨first, hfirst, hwithin, nofun, nofun, nofun, nofun⟩
    · exact ⟨first, hfirst, hwithin, nofun, nofun, nofun, nofun⟩
    · obtain ⟨second, hmakes⟩ := ensureDirectories_makes directoryRoom hset.output_proper hout
      have hgo := hfirst.append hmakes.undergoes
      have hall (operation : Operation) (ho : operation ∈ first ++ second) : ∃ way,
          operation = .makeDirectory way ∧
            (way <+: config.outputRoot ∨ ∃ log ∈ config.auditLog, way <+: log.parent) := by
        rcases List.mem_append.1 ho with ho | ho
        · exact hwithin operation ho
        · obtain ⟨way, hway, he⟩ := hmakes.making operation ho
          exact ⟨way, he, .inl hway⟩
      have hin' := plain_of_making hmakes.undergoes
        (fun o ho => (hmakes.making o ho).imp fun _ h => h.2) hin
      have hkeeps {q : Path} (hq : mid.root.see? q = some .directory) :
          ((ensureDirectories directoryRoom config.outputRoot).runOn mid).2.root.see? q =
            some .directory := by
        rcases Making.see? hmakes.undergoes hmakes.making q with he | ⟨-, he⟩
        · rw [he, hq]
        · exact he
      dsimp only
      rcases hr' : (ensureDirectories directoryRoom config.outputRoot).runOn mid with
        ⟨e | ⟨⟩, mid'⟩
      · rw [hr'] at hgo
        exact ⟨first ++ second, hgo, hall, nofun, nofun, nofun, nofun⟩
      · rw [hr'] at hgo hmakes hin' hkeeps
        refine ⟨first ++ second, hgo, hall, fun roots hok => ?_, fun _ _ => ?_,
          fun _ _ log hl => ?_, fun _ _ => ?_⟩
        · exact (Except.ok.inj hok).symm
        · exact ⟨hset.output_proper, hmakes.fits rfl, hmakes.made rfl⟩
        · obtain ⟨hdir, hfits⟩ := hlog rfl log hl
          exact ⟨hkeeps hdir, hfits⟩
        · obtain ⟨hdir, hfits⟩ := (isDirectory_eq_true hset.input_proper hin).1 hinput
          exact (isDirectory_eq_true hset.input_proper hin').2 ⟨hkeeps hdir, hfits⟩

theorem Opens.plain {result : Except RunError Roots × Disk}
    (h : Opens config disk result operations) {path : Path} (hplain : path.Plain disk.root) :
    path.Plain result.2.root :=
  plain_of_making h.undergoes (fun o ho => (h.making o ho).imp fun _ h => h.1) hplain

/-! ### All phases -/

theorem runOn_keptLog (hp : ∀ log ∈ config.auditLog, log.Proper)
    (hplain : ∀ log ∈ config.auditLog, log.Plain disk.root) :
    (keptLog config).runOn disk = (.ok config.auditLog.toList, disk) := by
  rw [keptLog]
  cases hlog : config.auditLog with
  | none => rfl
  | some log =>
    dsimp only
    rw [Work.runOn_bind, Work.runOn_ask, resolve_of_plain (hp log hlog) (hplain log hlog)]
    rfl

/-- **A run of a settled configuration ends in one of its phases.** -/
theorem run_ends (hset : config.Settled disk.root) (plan : List Source → List (List Source))
    (occasion : Occasion) :
    RunEnds plan config occasion disk ((runBy plan config occasion).runOn disk).1
      ((runBy plan config occasion).runOn disk).2 := by
  obtain ⟨operations, hopens⟩ := openRoots_opens hset
  rw [runBy, Work.runOn_bind]
  rcases hr : (openRoots config).runOn disk with ⟨e | roots, opened⟩
  · exact .unopened hr
  · rw [hr] at hopens
    cases hopens.roots_eq roots rfl
    dsimp only
    rw [Work.runOn_bind, runOn_keptLog hset.log_proper
      fun log hl => hopens.plain (hset.log_plain log hl)]
    dsimp only
    rw [Work.runOn_bind, Work.runOn_ask]
    rcases hd : discover opened.root (rootsOf config).input [(rootsOf config).output] with
      e | sources
    · exact .undiscovered hr hd
    · rcases hw : (workThrough (rootsOf config) sources occasion.turns
        (plan (markupOf sources))).run opened with ⟨outcomes, worked⟩
      have hreaches : Reaches plan config occasion disk opened sources outcomes worked :=
        ⟨hr, hd, hw⟩
      dsimp only [Except.mapError]
      rw [Work.runOn_bind, Work.runOn_lift, hw]
      dsimp only
      rw [Work.runOn_bind, Work.runOn_mapError]
      have hkeep : config.auditLog.toList ++ kept (rootsOf config).output outcomes =
          keepOf config outcomes := rfl
      rw [hkeep]
      rcases hs : (removeStale sweepRoom (rootsOf config).output (keepOf config outcomes)).runOn
        worked with ⟨e | paths, swept⟩
      · exact .unswept hreaches hs
      · have hevents : eventsOf occasion (rootsOf config).output outcomes
            (paths.map (outputLabel (rootsOf config).output)) =
              eventsAt config occasion outcomes paths := rfl
        dsimp only [Except.mapError]
        rw [Work.runOn_bind, hevents]
        rcases hl : (logEvents config (eventsAt config occasion outcomes paths)).runOn swept with
          ⟨e | ⟨⟩, last⟩
        · exact .unlogged hreaches hs hl
        · exact .ended hreaches hs hl

/-- A run that comes to its end has gone through all its phases. -/
theorem RunEnds.of_ok {last : Disk} (h : RunEnds plan config occasion disk (.ok report) last) :
    ∃ opened worked swept sources outcomes paths,
      Reaches plan config occasion disk opened sources outcomes worked ∧
      (removeStale sweepRoom config.outputRoot (keepOf config outcomes)).runOn worked =
        (.ok paths, swept) ∧
      (logEvents config (eventsAt config occasion outcomes paths)).runOn swept = (.ok (), last) ∧
      report = reportAt config outcomes paths := by
  generalize hresult : (.ok report : Except RunError Report) = result at h
  cases h with
  | ended hreaches hsweeps hlogs =>
    exact ⟨_, _, _, _, _, _, hreaches, hsweeps, hlogs, Except.ok.inj hresult⟩
  | unopened _ => cases hresult
  | undiscovered _ _ => cases hresult
  | unswept _ _ => cases hresult
  | unlogged _ _ _ => cases hresult

/-! ### Logging -/

/-- **Logging works in the places of the log**: on the way to it, and on itself. -/
theorem logEvents_undergoes (hp : ∀ log ∈ config.auditLog, log.Proper)
    (hplain : ∀ log ∈ config.auditLog, log.Plain disk.root) (events : List Audit.Event) :
    ∃ operations, disk.Undergoes operations ((logEvents config events).runOn disk).2 ∧
      ∀ operation ∈ operations, ∃ log ∈ config.auditLog,
        (∃ way, way <+: log.parent ∧ operation = .makeDirectory way) ∨
          ∃ bytes, operation = .append log bytes := by
  rw [logEvents]
  cases hlog : config.auditLog with
  | none => exact ⟨[], .nil _, by simp⟩
  | some log =>
    have hlogp := hp log hlog
    have hlogpl := hplain log hlog
    dsimp only
    rw [Audit.extend]
    split
    · exact ⟨[], .nil _, by simp⟩
    · split
      · exact ⟨[], .nil _, by simp⟩
      · rw [Work.runOn_mapError, Work.runOn_mapError, Audit.addLines, Work.runOn_bind, Audit.prepare]
        obtain ⟨first, hmakes⟩ := ensureDirectories_makes Audit.directoryRoom
          (Path.parent_proper hlogp) (Path.parent_plain hlogp hlogpl)
        have hfirst (operation : Operation) (ho : operation ∈ first) : ∃ l ∈ some log,
            (∃ way, way <+: Path.parent l ∧ operation = .makeDirectory way) ∨
              ∃ bytes, operation = .append l bytes :=
          ⟨log, rfl, .inl (hmakes.making operation ho)⟩
        rcases hr : (ensureDirectories Audit.directoryRoom log.parent).runOn disk with
          ⟨e | ⟨⟩, mid⟩
        · rw [hr] at hmakes
          exact ⟨first, hmakes.undergoes, hfirst⟩
        · have hplain' := hmakes.plain hlogpl
          rw [hr] at hmakes hplain'
          dsimp only
          generalize hbytes : Utf8.encode _ = bytes
          rcases ha : (Operation.append log bytes).apply mid.now mid.root with e | root
          · rw [runOn_perform_error ha]
            exact ⟨first, hmakes.undergoes, hfirst⟩
          · rw [runOn_perform_ok ha]
            have hdirect := Audit.direct_of_append hlogp hplain' (hmakes.made rfl) ha
            refine ⟨first ++ [.append log bytes], hmakes.undergoes.append (.single hdirect ha),
              fun operation ho => ?_⟩
            rcases List.mem_append.1 ho with ho | ho
            · exact hfirst operation ho
            · exact ⟨log, rfl, .inr ⟨bytes, List.mem_singleton.1 ho⟩⟩

/-- **What logging may change**: directories that parts of the path to the log lead to may appear, and
the log becomes a file. -/
def Logged (config : Config) (before after : Seen) : Prop :=
  ∀ q, after q = before q ∨
    (before q = none ∧ after q = some .directory ∧
      ∃ log ∈ config.auditLog, ∃ way, way <+: log.parent ∧ q = Path.normalise way) ∨
    ∃ log ∈ config.auditLog, q = log.normalise ∧ ∃ bytes time, after q = some (.file bytes time)

theorem Logged.refl (config : Config) (seen : Seen) : Logged config seen seen := fun _ => .inl rfl

theorem Logged.trans {before mid after : Seen} (h : Logged config before mid)
    (h' : Logged config mid after) : Logged config before after := by
  intro q
  rcases h' q with he | ⟨hnone, hdir, hlog⟩ | hfile
  · rw [he]
    exact h q
  · rcases h q with he | ⟨-, hdir', -⟩ | ⟨-, -, -, bytes, time, hfile⟩
    · exact .inr (.inl ⟨he.symm.trans hnone, hdir, hlog⟩)
    · rw [hnone] at hdir'
      cases hdir'
    · rw [hnone] at hfile
      cases hfile
  · exact .inr (.inr hfile)

/-- Opening the directory of the log is part of logging. -/
theorem Logged.of_opened {before after : Seen} (hlog : log ∈ config.auditLog)
    (h : log.parent.Opened before after) : Logged config before after := fun q =>
  (h q).imp_right fun ⟨hnone, hdir, way, hway, he⟩ =>
    .inl ⟨hnone, hdir, log, hlog, way, hway, he⟩

/-- **Logging stays in the places of the log.** -/
theorem logEvents_logged (hclean : ∀ log ∈ config.auditLog, log.Clean disk.root)
    (events : List Audit.Event) :
    Logged config disk.root.see? ((logEvents config events).runOn disk).2.root.see? := by
  rw [logEvents]
  rcases hlog : config.auditLog with _ | log
  · exact .refl config _
  · have hclean := hclean log hlog
    have hopened := (hclean.of_isPrefix log.parent_prefix).opened Audit.directoryRoom
    dsimp only
    rw [Audit.extend]
    split
    · exact .refl config _
    · split
      · exact .refl config _
      · rw [Work.runOn_mapError, Work.runOn_mapError, Audit.addLines, Work.runOn_bind,
          Audit.prepare]
        rcases hr : (ensureDirectories Audit.directoryRoom log.parent).runOn disk with
          ⟨e | ⟨⟩, mid⟩
        · rw [hr] at hopened
          exact .of_opened hlog hopened
        · rw [hr] at hopened
          refine (Logged.of_opened hlog hopened).trans ?_
          dsimp only
          generalize Utf8.encode _ = bytes
          rcases ha : (Operation.append log bytes).apply mid.now mid.root with e | root
          · rw [runOn_perform_error ha]
            exact .refl config _
          · rw [runOn_perform_ok ha]
            intro q
            rw [Disk.after, (hclean.of_opened hopened).of_append ha, Operation.effect_append]
            by_cases hq : q = log.normalise
            · subst hq
              exact .inr (.inr ⟨log, hlog, rfl, _, _, Function.update_self ..⟩)
            · exact .inl (Function.update_of_ne hq ..)

/-- What logging may change where the path of the log has no steps back. -/
theorem Logged.of_proper {before after : Seen} (h : Logged config before after)
    (hp : ∀ log ∈ config.auditLog, log.Proper) (q : Path) :
    after q = before q ∨
      (before q = none ∧ after q = some .directory ∧ ∃ log ∈ config.auditLog, q <+: log.parent) ∨
      (q ∈ config.auditLog ∧ ∃ bytes time, after q = some (.file bytes time)) := by
  refine (h q).imp_right (Or.imp ?_ ?_)
  · rintro ⟨hnone, hdir, log, hlog, way, hway, rfl⟩
    have hproper := (Path.parent_proper (hp log hlog)).of_isPrefix hway
    rw [hproper.normal.normalise] at hnone hdir ⊢
    exact ⟨hnone, hdir, log, hlog, hway⟩
  · rintro ⟨log, hlog, rfl, hfile⟩
    rw [(hp log hlog).normal.normalise] at hfile ⊢
    exact ⟨hlog, hfile⟩

/-- The events of a run are known ones. -/
theorem eventsAt_known (config : Config) (occasion : Occasion) (outcomes : List (Source × Outcome))
    (paths : List Path) :
    (eventsAt config occasion outcomes paths).find?
      (fun event => !Audit.actions.contains event.action) = none := by
  rw [List.find?_eq_none]
  intro event hevent
  have haction : event.action ∈ Audit.actions := by
    rw [eventsAt, eventsOf] at hevent
    rcases List.mem_append.1 hevent with h | h
    · obtain ⟨⟨source, outcome⟩, -, rfl⟩ := List.mem_map.1 h
      cases outcome <;> simp [eventOf, Audit.actions]
    · obtain ⟨path, -, rfl⟩ := List.mem_map.1 h
      simp [removalEvent, Audit.actions]
  simpa using haction

theorem runOn_logEvents (config : Config) (occasion : Occasion) (outcomes : List (Source × Outcome))
    (paths : List Path) (disk : Disk) :
    (logEvents config (eventsAt config occasion outcomes paths)).runOn disk =
      match config.auditLog with
      | none => (.ok (), disk)
      | some log =>
        if (eventsAt config occasion outcomes paths).isEmpty then (.ok (), disk)
        else
          (((Audit.addLines log ((eventsAt config occasion outcomes paths).flatMap
            Audit.Event.line)).runOn disk).1.mapError fun e => .log (.file e),
            ((Audit.addLines log ((eventsAt config occasion outcomes paths).flatMap
            Audit.Event.line)).runOn disk).2) := by
  rw [logEvents]
  cases config.auditLog with
  | none => rfl
  | some log =>
    dsimp only
    rw [Audit.extend, eventsAt_known]
    dsimp only
    split
    · rfl
    · rw [Work.runOn_mapError, Work.runOn_mapError]
      rcases (Audit.addLines log _).runOn disk with ⟨e | ⟨⟩, mid⟩ <;> rfl

/-- **Events can be logged** where the log can be added to. -/
theorem logEvents_isOk (hp : ∀ log ∈ config.auditLog, log.Proper)
    (hadd : ∀ log ∈ config.auditLog, Audit.Addable disk.root Audit.directoryRoom log)
    (occasion : Occasion)
    (outcomes : List (Source × Outcome)) (paths : List Path) :
    ((logEvents config (eventsAt config occasion outcomes paths)).runOn disk).1 = .ok () := by
  rw [runOn_logEvents]
  cases hlog : config.auditLog with
  | none => rfl
  | some log =>
    dsimp only
    split
    · rfl
    · rw [Audit.addLines_isOk (hp log hlog) (hadd log hlog)]
      rfl

/-- **A log that a run added to was ready.** -/
theorem logReady_of_logEvents (hp : ∀ log ∈ config.auditLog, log.Proper)
    (hplain : ∀ log ∈ config.auditLog, log.Plain disk.root)
    (hdir : ∀ log ∈ config.auditLog, disk.root.see? log.parent = some .directory)
    (hne : eventsAt config occasion outcomes paths ≠ [])
    (hok : ((logEvents config (eventsAt config occasion outcomes paths)).runOn disk).1 = .ok ()) :
    ∀ log ∈ config.auditLog, Audit.LogReady disk.root log := by
  intro log hlog
  rw [Option.mem_def] at hlog
  rw [runOn_logEvents, hlog] at hok
  dsimp only at hok
  rw [if_neg (by simpa using hne)] at hok
  have hlines : ((Audit.addLines log ((eventsAt config occasion outcomes paths).flatMap
      Audit.Event.line)).runOn disk).1 = .ok () := by
    rcases hr : (Audit.addLines log ((eventsAt config occasion outcomes paths).flatMap
      Audit.Event.line)).runOn disk with ⟨e | ⟨⟩, mid⟩
    · rw [hr] at hok
      cases hok
    · rfl
  exact Audit.logReady_of_addLines (hp log hlog) (hplain log hlog) (hdir log hlog) hlines

/-- **The phases of a run make the run.** -/
theorem run_of_phases (hset : config.Settled disk.root)
    (hreaches : Reaches plan config occasion disk opened sources outcomes worked)
    (hsweeps : (removeStale sweepRoom config.outputRoot (keepOf config outcomes)).runOn worked =
      (.ok paths, swept))
    (hlogs : (logEvents config (eventsAt config occasion outcomes paths)).runOn swept =
      (.ok (), last)) :
    (runBy plan config occasion).runOn disk = (.ok (reportAt config outcomes paths), last) := by
  have hends := run_ends hset plan occasion
  rcases hr : (runBy plan config occasion).runOn disk with ⟨result, last'⟩
  rw [hr] at hends
  have hsame {opened' worked' : Disk} {sources' : List Source} {outcomes' : List (Source × Outcome)}
      (h : Reaches plan config occasion disk opened' sources' outcomes' worked') :
      outcomes' = outcomes ∧ worked' = worked := by
    have ho := hreaches.opens.symm.trans h.opens
    cases ho
    have hd := hreaches.discovers.symm.trans h.discovers
    cases hd
    have hw := h.works.symm.trans hreaches.works
    exact Prod.mk.inj hw
  cases hends with
  | unopened hopens => cases hreaches.opens.symm.trans hopens
  | undiscovered hopens hdiscovers =>
    cases hreaches.opens.symm.trans hopens
    cases hreaches.discovers.symm.trans hdiscovers
  | unswept h hs =>
    obtain ⟨rfl, rfl⟩ := hsame h
    cases hsweeps.symm.trans hs
  | unlogged h hs hl =>
    obtain ⟨rfl, rfl⟩ := hsame h
    cases hsweeps.symm.trans hs
    cases hlogs.symm.trans hl
  | ended h hs hl =>
    obtain ⟨rfl, rfl⟩ := hsame h
    cases hsweeps.symm.trans hs
    cases hlogs.symm.trans hl
    rfl

end Build
end TemplateBindings
