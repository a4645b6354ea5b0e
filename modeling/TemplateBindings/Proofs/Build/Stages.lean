import TemplateBindings.Proofs.Build.Phases
import TemplateBindings.Proofs.Build.Step
import TemplateBindings.Proofs.Config.Merged
import TemplateBindings.Proofs.Files.Keeping

/-!
# The stages of a run

A run may come to an output directory that holds anything: old outputs, drafts of runs that were
stopped, links to somewhere else, empty directories. Nothing is asked of the sources or of what stands
in their places here, so that writing an output may go through a link and end anywhere. All that is
known of the work is that it takes nothing away, whatever strangers do to the disk between two of its
steps (`TemplateBindings.Build.keeping_makeOutputs`), and that each outcome keeps outputs of its own
source. A run that ends with a report has gone through its stages
(`TemplateBindings.Build.exists_completes`).
-/

namespace TemplateBindings
namespace Build

open Files Files.Work

variable {plan : List Source → List (List Source)} {batches : List (List Source)}
  {config : Config} {occasion : Occasion} {disk last : Disk} {roots : Roots}
  {sources batch : List Source} {source s : Source} {outcomes : List (Source × Outcome)}
  {report : Report} {out q : Path} {outcome : Outcome} {shared : Shared}

/-! ### Work takes nothing away -/

theorem outputs_spelled (hout : out.Proper) (h : source.Regular) :
    ∀ path ∈ (source.outputs out).all, path.Spelled ∧ ∀ draft ∈ draftOf? path, draft.Spelled := by
  intro path hm
  obtain ⟨n, hn, rfl⟩ := (Source.mem_outputs h).1 hm
  have hdir := Source.directory_proper hout h
  refine ⟨(hdir.concat (h.isName hn)).spelled, fun draft hdraft => ?_⟩
  rw [draftOf?_append _ (h.isName hn)] at hdraft
  cases Option.some.inj hdraft
  exact (hdir.concat (h.isName hn).draft).spelled

/-- What is written for a source are outputs of it. -/
theorem mem_artifactTexts {outputs : Outputs} {artifacts : GeneratedModule.Artifacts}
    {file : Path × Str} (h : file ∈ artifactTexts outputs artifacts) : file.1 ∈ outputs.all := by
  rw [artifactTexts, List.append_assoc] at h
  rcases List.mem_append.1 h with h | h
  · obtain ⟨text, -, rfl⟩ := Option.map_eq_some_iff.1 (Option.mem_toList.1 h)
    simp [Outputs.all]
  · rcases List.mem_append.1 h with h | h
    · obtain ⟨text, -, rfl⟩ := Option.map_eq_some_iff.1 (Option.mem_toList.1 h)
      simp [Outputs.all]
    · cases List.mem_singleton.1 h
      simp [Outputs.all]

/-- Work that only asks takes nothing away. -/
theorem Quiet.keeping {ε α : Type} {work : Work ε α} (h : Quiet work) :
    Keeping work fun _ => True := fun acts disk =>
  (h .strangers acts disk).mono fun _ _ _ _ => trivial

theorem keeping_writeArtifact {file : Path × Str}
    (h : file.1.Spelled ∧ ∀ draft ∈ draftOf? file.1, draft.Spelled) :
    Keeping (writeArtifact file.1 file.2) fun _ => True := by
  rw [writeArtifact]
  split
  · exact .mapError (keeping_replaceFile h.1 h.2 _)
  · refine .bind (.mapError ((keeping_beginFile h.2).mono ?_))
    rintro (e | _) -
    · trivial
    · exact .throw trivial

theorem keeping_writeArtifacts {files : List (Path × Str)}
    (h : ∀ file ∈ files, file.1.Spelled ∧ ∀ draft ∈ draftOf? file.1, draft.Spelled) :
    Keeping (writeArtifacts files) fun _ => True := by
  induction files with
  | nil => exact .pure trivial
  | cons file files ih =>
    refine .bind ((keeping_writeArtifact (h file List.mem_cons_self)).mono ?_)
    rintro (e | _) -
    · trivial
    · exact ih fun f hf => h f (List.mem_cons_of_mem _ hf)

/-- **Making outputs takes nothing away**, through whatever links it goes, and what it says it wrote
are outputs of the source. -/
theorem keeping_makeOutputs (hout : roots.output.Proper) (h : source.Regular)
    (sheet : Option Source) (marker : Text) (ensure : Bool) :
    Keeping (makeOutputs roots source sheet marker ensure) fun result =>
      ∀ paths, result = .ok paths → ∀ path ∈ paths, path ∈ (source.outputs roots.output).all := by
  have henter : Keeping (enter (roots.output ++ source.place) ensure) fun _ => True := by
    rw [enter]
    split
    · exact .mapError (keeping_ensureDirectories _ (Source.directory_proper hout h).spelled)
    · exact .pure trivial
  refine .bind (henter.mono ?_)
  rintro (e | _) -
  · exact nofun
  refine .bind ((Quiet.keeping (quiet_compileInputs roots.input source sheet marker)).mono ?_)
  rintro (e | artifacts) -
  · exact nofun
  refine .bind ((keeping_writeArtifacts fun file hf =>
    outputs_spelled hout h _ (mem_artifactTexts hf)).mono ?_)
  rintro (e | _) -
  · exact nofun
  refine .pure ?_
  rintro paths he path hp
  cases he
  obtain ⟨file, hf, rfl⟩ := List.mem_map.1 hp
  exact mem_artifactTexts hf

/-- What an outcome keeps are outputs of its source. -/
def Outcome.KeepsOwn (out : Path) (source : Source) (outcome : Outcome) : Prop :=
  ∀ path ∈ outcome.keeps (source.outputs out), path ∈ (source.outputs out).all

/-- **Outcomes of sources**, each keeping outputs of its own source. -/
def KeepsOwn (out : Path) (outcomes : List (Source × Outcome)) : Prop :=
  ∀ o ∈ outcomes, o.2.KeepsOwn out o.1

/-- **Work on one source** takes nothing away, whatever others do, and its outcome keeps outputs of
the source. -/
theorem secures_workOn_keeping (hout : roots.output.Proper) (h : source.Regular)
    (sources : List Source) (shared : Shared) :
    (workOn roots sources source).Secures (fun _ _ => True)
      (fun (_ : List Act) a b => a.1.Keeps b.1)
      (fun outcome _ _ => outcome.KeepsOwn roots.output source) [] shared := by
  have hanswer : (takeStaleMarker roots source (source.stylesheet? sources)).Secures
      Company.strangers.onlooking (fun _ _ _ => True) [] shared.1 :=
    (quiet_takeStaleMarker _ _ _ _ _ _).mono fun _ _ _ _ => trivial
  refine secures_workOn (fun _ => trivial) (fun _ _ => trivial) (fun _ _ _ => trivial)
    (fun a => .refl a.1) hanswer (fun _ _ _ _ _ _ => id) (fun _ _ _ _ _ _ => id)
    fun marker _ mid _ _ => ⟨.refl mid.1, ?_⟩
  have hmake : (makeOutputs roots source (source.stylesheet? sources) marker
      (!mid.2.contains (source.directory roots.output))).Secures .strangers (fun result _ _ =>
        ∀ paths, result = .ok paths → ∀ path ∈ paths, path ∈ (source.outputs roots.output).all) []
      ((mid.1, claimed (source.directory roots.output) mid.2) : Shared).1 :=
    keeping_makeOutputs hout h _ marker _ [] mid.1
  have hbeside : (makeOutputs roots source (source.stylesheet? sources) marker
      (!mid.2.contains (source.directory roots.output))).run.beside.Secures (fun _ _ => True)
      (fun (_ : List Act) a b => a.1.Keeps b.1) (fun result acts _ => ∃ more : List Operation,
        acts = claimOf (source.directory roots.output) mid.2 ++ more.map .perform ∧
          ∀ paths, result = .ok paths → ∀ path ∈ paths, path ∈ (source.outputs roots.output).all)
      (claimOf (source.directory roots.output) mid.2)
      (mid.1, claimed (source.directory roots.output) mid.2) :=
    Thread.Secures.beside hmake (fun _ _ => id) fun _ _ _ _ => id
  refine hbeside.mono (fun _ _ _ => id) ?_
  rintro (e | paths) _ _ ⟨_, -, hpaths⟩
  · exact fun _ => id
  · exact hpaths paths rfl

/-- **A batch** takes nothing away. -/
theorem run_takeTurns_keeps (hout : roots.output.Proper) (hnodup : batch.Nodup)
    (h : ∀ s ∈ batch, s.Regular) (sources : List Source) (turns : List Nat) (shared : Shared) :
    let result := (Thread.takeTurns turns [] (workOnBatch roots sources batch)).run shared
    shared.1.Keeps result.2.1 ∧ (result.1.map Prod.fst).Perm batch ∧
      KeepsOwn roots.output result.1 := by
  have hrely : Thread.Rely batch (fun _ _ _ => True)
      (fun _ (_ : List Act) (a b : Shared) => a.1.Keeps b.1) :=
    { nodup := hnodup
      refl := fun _ _ => trivial
      trans := fun _ => fun _ _ => trivial
      own := fun _ _ _ _ _ => fun _ => trivial }
  have hcrew : Thread.Crew batch (fun _ _ _ => True)
      (fun _ (_ : List Act) (a b : Shared) => a.1.Keeps b.1)
      (fun s outcome _ _ => outcome.KeepsOwn roots.output s) [] shared []
      (workOnBatch roots sources batch) := by
    refine ⟨?_, by simp, fun m hm => ?_⟩
    · rw [workOnBatch, List.map_map]
      exact .of_eq (List.map_id batch)
    · obtain ⟨s, hs, rfl⟩ := List.mem_map.1 hm
      exact secures_workOn_keeping hout (h s hs) sources shared
  have hsecures : (Thread.takeTurns turns [] (workOnBatch roots sources batch)).Secures Eq
      (fun _ a b => a.1.Keeps b.1) _ [] shared :=
    (hcrew.secures_takeTurns hrely turns).mono
      (by rintro _ _ _ ⟨_, _, _, _, hkeeps⟩; exact hkeeps) fun _ _ _ => id
  obtain ⟨_, hkeeps, hperm, hown⟩ := hsecures.run (fun _ => rfl) (fun _ => .refl _) .trans
  exact ⟨hkeeps, hperm, hown⟩

/-- **The work of a run** takes nothing away. -/
theorem workThrough_keeps (hout : roots.output.Proper) (hnodup : batches.flatten.Nodup)
    (h : ∀ s ∈ batches.flatten, s.Regular) (sources : List Source) (turns : List (List Nat))
    (disk : Disk) :
    let result := (workThrough roots sources turns batches).run disk
    disk.Keeps result.2 ∧ (result.1.map Prod.fst).Perm batches.flatten ∧
      KeepsOwn roots.output result.1 := by
  rw [run_workThrough]
  suffices hall : ∀ shared : Shared,
      let result := (Thread.inBatches turns (workOnPlan roots sources batches)).run shared
      shared.1.Keeps result.2.1 ∧ (result.1.map Prod.fst).Perm batches.flatten ∧
        KeepsOwn roots.output result.1 from hall (disk, [])
  induction batches generalizing turns with
  | nil => exact fun shared => ⟨.refl _, .nil, fun _ hm => absurd hm List.not_mem_nil⟩
  | cons batch batches ih =>
    intro shared
    obtain ⟨hbatch, hrest, -⟩ := List.nodup_append.1 hnodup
    obtain ⟨hkeeps, hperm, hown⟩ := run_takeTurns_keeps hout hbatch
      (fun s hs => h s (List.mem_append_left _ hs)) sources (turns.headD []) shared
    obtain ⟨hkeeps', hperm', hown'⟩ := ih hrest (fun s hs => h s (List.mem_append_right _ hs))
      turns.tail _
    rw [workOnPlan, List.map_cons, Thread.run_inBatches_cons]
    refine ⟨hkeeps.trans hkeeps', ?_, fun o ho => ?_⟩
    · rw [List.map_append]
      exact hperm.append hperm'
    · rcases List.mem_append.1 ho with ho | ho
      · exact hown o ho
      · exact hown' o ho

/-! ### The stages of any run -/

/-- **The stages of a run**, whatever its configuration: where it works, and what it finds and leaves
on the way. -/
structure Stages where
  /-- The roots. -/
  roots : Roots
  /-- The path of the log that is kept. -/
  log : List Path
  /-- The disk with the roots opened. -/
  opened : Disk
  /-- The sources. -/
  sources : List Source
  /-- Their outcomes. -/
  outcomes : List (Source × Outcome)
  /-- The disk when the sources are worked through, before anything is removed. -/
  worked : Disk
  /-- What is removed. -/
  removed : List Path
  /-- The disk without it. -/
  swept : Disk

/-- **A run works through its sources**, in the batches of a plan. -/
structure Works (plan : List Source → List (List Source)) (config : Config) (occasion : Occasion)
    (disk : Disk) (stages : Stages) : Prop where
  /-- The roots are opened. -/
  opens : (openRoots config).runOn disk = (.ok stages.roots, stages.opened)
  /-- The path of the log is found out. -/
  keeps : (keptLog config).runOn stages.opened = (.ok stages.log, stages.opened)
  /-- The sources are discovered. -/
  discovers : discover stages.opened.root stages.roots.input [stages.roots.output] =
    .ok stages.sources
  /-- They are worked through. -/
  works : (workThrough stages.roots stages.sources occasion.turns
    (plan (markupOf stages.sources))).run stages.opened = (stages.outcomes, stages.worked)

theorem Works.opened_eq {stages : Stages} (h : Works plan config occasion disk stages) :
    stages.opened = afterOpening config disk := by
  rw [afterOpening, h.opens]

/-- What is found on a disk is what a run works on, if it opens the roots that are configured. -/
theorem Works.of_found {stages : Stages} (h : Works plan config occasion disk stages)
    (hfound : foundBy config disk = .ok sources)
    (hroots : ((openRoots config).runOn disk).1 = .ok (rootsOf config)) :
    stages.roots = rootsOf config ∧ stages.sources = sources := by
  rw [h.opens] at hroots
  have hroots : stages.roots = rootsOf config := Except.ok.inj hroots
  have hsources := h.discovers
  rw [hroots, h.opened_eq] at hsources
  exact ⟨hroots, Except.ok.inj (hsources.symm.trans hfound)⟩

/-- **A run goes through its stages** and ends with a report. -/
structure Completes (plan : List Source → List (List Source)) (config : Config)
    (occasion : Occasion) (disk : Disk) (stages : Stages) (report : Report) (last : Disk) : Prop
    extends Works plan config occasion disk stages where
  /-- What is stale is removed. -/
  sweeps : (removeStale sweepRoom stages.roots.output
    (stages.log ++ kept stages.roots.output stages.outcomes)).runOn stages.worked =
      (.ok stages.removed, stages.swept)
  /-- The events are logged. -/
  logs : (logEvents config (eventsOf occasion stages.roots.output stages.outcomes
    (stages.removed.map (outputLabel stages.roots.output)))).runOn stages.swept = (.ok (), last)
  /-- The report is on these outcomes. -/
  report_eq : report = reportOn stages.outcomes
    (stages.removed.map (outputLabel stages.roots.output))

theorem runOn_keptLog_eq (config : Config) (disk : Disk) :
    ((keptLog config).runOn disk).2 = disk := by
  rw [keptLog]
  cases config.auditLog with
  | none => rfl
  | some log =>
    dsimp only
    rw [runOn_bind, runOn_ask]
    cases (resolve disk.root log).mapError RunError.path <;> rfl

/-- **A run that ends with a report has gone through its stages.** -/
theorem exists_completes (h : (runBy plan config occasion).runOn disk = (.ok report, last)) :
    ∃ stages, Completes plan config occasion disk stages report last := by
  rw [runBy] at h
  obtain ⟨roots, opened, hopens, h⟩ := of_runOn_bind h
  obtain ⟨log, mid, hlog, h⟩ := of_runOn_bind h
  obtain rfl : opened = mid := by rw [← runOn_keptLog_eq config opened, hlog]
  obtain ⟨sources, mid, hdiscover, hrest⟩ := of_runOn_bind h
  rw [runOn_ask] at hdiscover
  obtain ⟨hfound, rfl⟩ := Prod.mk.inj hdiscover
  have hsources := of_mapError_ok hfound
  obtain ⟨outcomes, worked, hworks, hrest⟩ := of_runOn_bind hrest
  rw [runOn_lift] at hworks
  obtain ⟨houtcomes, rfl⟩ := Prod.mk.inj hworks
  cases houtcomes
  obtain ⟨removed, swept, hsweeps, hlogging⟩ := of_runOn_bind hrest
  obtain ⟨_, last', hlogs, hend⟩ := of_runOn_bind hlogging
  cases hend
  exact ⟨⟨roots, log, opened, sources, _, _, removed, swept⟩, ⟨hopens, hlog, hsources, rfl⟩,
    of_runOn_mapError hsweeps, hlogs, rfl⟩

/-! ### Before the sweep -/

variable {stages : Stages}

/-- **What opening the roots does**: it prepares the log, resolves the roots, and makes the directory
of the outputs. -/
theorem of_openRoots {opened : Disk} (h : (openRoots config).runOn disk = (.ok roots, opened)) :
    ∃ prepared, (preparing config).runOn disk = (.ok (), prepared) ∧
      resolve prepared.root config.outputRoot = .ok roots.output ∧
      (ensureDirectories directoryRoom roots.output).runOn prepared = (.ok (), opened) := by
  rw [openRoots_eq] at h
  obtain ⟨_, prepared, hprepare, hopen⟩ := of_runOn_bind h
  rw [opening] at hopen
  obtain ⟨input, mid, hinput, hrest⟩ := of_runOn_bind hopen
  obtain ⟨output, mid', houtput, hrest'⟩ := of_runOn_bind hrest
  rw [runOn_ask] at hinput houtput
  obtain ⟨-, rfl⟩ := Prod.mk.inj hinput
  obtain ⟨hresolve, rfl⟩ := Prod.mk.inj houtput
  obtain ⟨hasInput, mid'', hquestion, hrest''⟩ := of_runOn_bind hrest'
  rw [runOn_ask] at hquestion
  obtain ⟨-, rfl⟩ := Prod.mk.inj hquestion
  have hmake : (do
      (ensureDirectories directoryRoom output).mapError RunError.file
      return ⟨input, output⟩ : Work RunError Roots).runOn prepared = (.ok roots, opened) := by
    cases hasInput
    · cases hrest''
    · exact hrest''
  obtain ⟨_, made, hmade, hend⟩ := of_runOn_bind hmake
  cases hend
  exact ⟨prepared, hprepare, of_mapError_ok hresolve, of_runOn_mapError hmade⟩

/-- Opening the roots takes nothing away, and the root of the outputs is a path of names within the
limits. -/
theorem openRoots_keeps {opened : Disk} (hspelled : config.Spelled)
    (h : (openRoots config).runOn disk = (.ok roots, opened)) :
    disk.Keeps opened ∧ roots.output.Proper ∧ roots.output.Fits := by
  obtain ⟨prepared, hprepare, hresolve, hmake⟩ := of_openRoots h
  have hprepared : disk.Keeps prepared := by
    have hkeeping : Keeping (preparing config) fun _ => True := by
      rw [preparing]
      cases hl : config.auditLog with
      | none => exact .pure trivial
      | some log =>
        exact .mapError (keeping_ensureDirectories _
          ((hspelled.log log hl).of_isPrefix log.parent_prefix))
    have hkeeps := (hkeeping.runOn disk).1
    rwa [hprepare] at hkeeps
  have hproper := resolve_proper hspelled.output hresolve
  have hkeeps := ((keeping_ensureDirectories directoryRoom hproper.spelled).runOn prepared).1
  rw [hmake] at hkeeps
  exact ⟨hprepared.trans hkeeps, hproper,
    fits_of_ensureDirectories hproper (congrArg Prod.fst hmake)⟩

/-- What is known of a disk before the sweep: it is valid, and each outcome keeps outputs of a source
that was discovered. -/
structure Stages.Sound (stages : Stages) : Prop where
  /-- The root of the outputs is made of names. -/
  output : stages.roots.output.Proper
  /-- It is within the limits. -/
  fits : stages.roots.output.Fits
  /-- The sources are regular. -/
  regular : ∀ s ∈ stages.sources, s.Regular
  /-- Each is there once. -/
  nodup : stages.sources.Nodup
  /-- The disk is valid. -/
  valid : stages.worked.root.Valid
  /-- The outcomes are those of the markup. -/
  perm : (stages.outcomes.map Prod.fst).Perm (markupOf stages.sources)
  /-- Each keeps outputs of its source. -/
  own : KeepsOwn stages.roots.output stages.outcomes

theorem mem_markupOf : s ∈ markupOf sources ↔ s ∈ sources ∧ s.kind = .markup := by
  rw [markupOf, List.mem_filter, decide_eq_true_iff]

/-- **A run that works on its sources** takes nothing away until it is done with them. -/
theorem Works.sound_keeps (h : Works plan config occasion disk stages) (hplan : Covers plan)
    (hspelled : config.Spelled) (hv : disk.root.Valid) :
    stages.Sound ∧ stages.opened.Keeps stages.worked := by
  obtain ⟨hkeeps, hout, hfits⟩ := openRoots_keeps hspelled h.opens
  have hvalid := hkeeps.valid hv
  have hregular (s : Source) (hs : s ∈ stages.sources) : s.Regular :=
    (discover_regular hvalid h.discovers hs).1
  have hcovers := hplan (markupOf stages.sources)
  have hnodup := nodup_of_discover hvalid h.discovers
  obtain ⟨hkeeps', hperm, hown⟩ := workThrough_keeps hout
    (hcovers.nodup_iff.2 (hnodup.filter _))
    (fun s hs => hregular s (mem_markupOf.1 (hcovers.mem_iff.1 hs)).1) stages.sources
    occasion.turns stages.opened
  rw [h.works] at hkeeps' hperm hown
  exact ⟨⟨hout, hfits, hregular, hnodup, hkeeps'.valid hvalid, hperm.trans hcovers, hown⟩, hkeeps'⟩

theorem Works.sound (h : Works plan config occasion disk stages) (hplan : Covers plan)
    (hspelled : config.Spelled) (hv : disk.root.Valid) : stages.Sound :=
  (h.sound_keeps hplan hspelled hv).1

/-- The sources with outcomes are the markup. -/
theorem Stages.Sound.mem_iff (h : stages.Sound) :
    s ∈ stages.sources ∧ s.kind = .markup ↔ ∃ outcome, (s, outcome) ∈ stages.outcomes := by
  rw [← mem_markupOf, ← h.perm.mem_iff, List.mem_map]
  constructor
  · rintro ⟨⟨t, outcome⟩, ho, rfl⟩
    exact ⟨outcome, ho⟩
  · rintro ⟨outcome, ho⟩
    exact ⟨_, ho, rfl⟩

/-- A source has one outcome. -/
theorem Stages.Sound.outcome_unique (h : stages.Sound) {outcome' : Outcome}
    (hs : (s, outcome) ∈ stages.outcomes) (hs' : (s, outcome') ∈ stages.outcomes) :
    outcome = outcome' := by
  have hnodup : (stages.outcomes.map Prod.fst).Nodup :=
    h.perm.nodup_iff.2 (h.nodup.filter _)
  exact (Prod.mk.inj (List.inj_on_of_nodup_map hnodup hs hs' rfl)).2

/-! ### Outcomes and reports -/

variable {t : Source} {removed : List Str} {error : Text}

/-- The label of a source tells it apart from every other that has an outcome. -/
theorem Stages.Sound.eq_of_label (h : stages.Sound) (hs : s ∈ stages.sources)
    (hkind : s.kind = .markup) (ht : (t, outcome) ∈ stages.outcomes)
    (hlabel : t.label = s.label) : t = s := by
  obtain ⟨ht, htkind⟩ := h.mem_iff.2 ⟨outcome, ht⟩
  exact Source.eq_of_way (htkind.trans hkind.symm)
    (Source.way_of_label (h.regular t ht) (h.regular s hs) hlabel)

/-- **The sources reported as written.** -/
theorem Stages.Sound.label_mem_written (h : stages.Sound) (hs : s ∈ stages.sources)
    (hkind : s.kind = .markup) :
    s.label ∈ (reportOn stages.outcomes removed).written ↔
      ∃ artifacts, (s, .written artifacts) ∈ stages.outcomes := by
  constructor
  · intro hmem
    obtain ⟨⟨t, outcome⟩, ho, hlabel⟩ := List.mem_map.1 (Text.mem_sorted.1 hmem)
    obtain ⟨ho, hwritten⟩ := List.mem_filter.1 ho
    cases outcome with
    | written artifacts => exact ⟨artifacts, h.eq_of_label hs hkind ho hlabel ▸ ho⟩
    | cached => cases hwritten
    | failed _ => cases hwritten
  · rintro ⟨artifacts, ho⟩
    exact Text.mem_sorted.2 (List.mem_map.2 ⟨_, List.mem_filter.2 ⟨ho, rfl⟩, rfl⟩)

/-- **The sources reported as current.** -/
theorem Stages.Sound.label_mem_cached (h : stages.Sound) (hs : s ∈ stages.sources)
    (hkind : s.kind = .markup) :
    s.label ∈ (reportOn stages.outcomes removed).cached ↔ (s, .cached) ∈ stages.outcomes := by
  constructor
  · intro hmem
    obtain ⟨⟨t, outcome⟩, ho, hlabel⟩ := List.mem_map.1 (Text.mem_sorted.1 hmem)
    obtain ⟨ho, hcached⟩ := List.mem_filter.1 ho
    rw [decide_eq_true_iff] at hcached
    cases hcached
    exact h.eq_of_label hs hkind ho hlabel ▸ ho
  · intro ho
    exact Text.mem_sorted.2 (List.mem_map.2 ⟨_, List.mem_filter.2 ⟨ho, decide_eq_true rfl⟩, rfl⟩)

/-- **The sources reported as failed**, with their errors. -/
theorem Stages.Sound.mem_failures (h : stages.Sound) (hs : s ∈ stages.sources)
    (hkind : s.kind = .markup) :
    ⟨s.label, error⟩ ∈ (reportOn stages.outcomes removed).failures ↔
      ∃ e, (s, .failed e) ∈ stages.outcomes ∧ e.report = error := by
  constructor
  · intro hmem
    obtain ⟨⟨t, outcome⟩, ho, hf⟩ := List.mem_filterMap.1 (Text.mem_orderedBy.1 hmem)
    cases outcome with
    | failed e =>
      obtain ⟨hlabel, herror⟩ := Failure.mk.inj (Option.some.inj hf)
      exact ⟨e, h.eq_of_label hs hkind ho hlabel ▸ ho, herror⟩
    | written _ => cases hf
    | cached => cases hf
  · rintro ⟨e, ho, rfl⟩
    exact Text.mem_orderedBy.2 (List.mem_filterMap.2 ⟨_, ho, rfl⟩)

end Build
end TemplateBindings
