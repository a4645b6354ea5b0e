import TemplateBindings.Proofs.Build.Account

/-!
# The order of work

A run works on its sources in batches, and how many workers there are says which batches. The sources
of a batch take turns, and nobody says who is next. Where no source gets in the way of another
(`TemplateBindings.Build.Fair`, `TemplateBindings.Build.Calm`) the order does not matter: the run
ends with the same report or error, leaves the same files, and logs the same events in another order
(`TemplateBindings.Build.run_order_irrelevant`). It does matter where a source is read through the
outputs, and where a source writes to a directory that another one has set out to make
(`TemplateBindings.Build.run_order_matters`).
-/

namespace TemplateBindings
namespace Build

open Files

variable {config : Config} {occasion occasion' : Occasion}
  {disk disk' opened worked worked' : Disk} {roots : Roots} {sources todo : List Source}
  {plan plan' : List Source → List (List Source)} {first second : List (List Source)}
  {s t : Source} {out path : Path} {keep keep' : List Path} {room : Nat} {files : Entry}
  {removals : List (Except FileError Operation)} {outcomes outcomes' : List (Source × Outcome)}
  {trace : List (Source × Operation)} {order : List Source}

/-! ### Sweeps of file systems that look alike -/

mutual

/-- A sweep asks of what is kept only whether something is among it. -/
theorem sweep_keep_congr (hkeep : ∀ p, p ∈ keep ↔ p ∈ keep') : (entry : Entry) → (room : Nat) →
    (path : Path) → sweep room keep path entry = sweep room keep' path entry
  | .directory members, 0, path => rfl
  | .directory members, room + 1, path =>
    congrArg (Sweep.closeDirectory path) (sweepMembers_keep_congr hkeep members room path)
  | .file bytes time, room, path => by
    have hmem : keep.contains path = keep'.contains path := by
      rw [Bool.eq_iff_iff, List.contains_iff_mem, List.contains_iff_mem]
      exact hkeep path
    rw [sweep, sweep, hmem]
    · exact fun _ h => by cases h
    · exact fun _ h => by cases h
  | .link target, room, path => by
    have hmem : keep.contains path = keep'.contains path := by
      rw [Bool.eq_iff_iff, List.contains_iff_mem, List.contains_iff_mem]
      exact hkeep path
    rw [sweep, sweep, hmem]
    · exact fun _ h => by cases h
    · exact fun _ h => by cases h

theorem sweepMembers_keep_congr (hkeep : ∀ p, p ∈ keep ↔ p ∈ keep') :
    (members : List (Str × Entry)) → (room : Nat) → (path : Path) →
    sweepMembers room keep path members = sweepMembers room keep' path members
  | [], _, _ => rfl
  | (name, entry) :: rest, room, path => by
    rw [sweepMembers, sweepMembers, sweep_keep_congr hkeep entry room (path ++ [name]),
      sweepMembers_keep_congr hkeep rest room path]

end

theorem congruent_removing (removals : List (Except FileError Operation)) :
    Work.Congruent (removing removals) := by
  induction removals with
  | nil => exact .pure ()
  | cons removal removals ih =>
    cases removal with
    | error e =>
      intro disk disk' hd
      rw [runOn_removing_error, runOn_removing_error]
      exact ⟨rfl, hd⟩
    | ok operation =>
      intro disk disk' hd
      rw [runOn_removing_ok, runOn_removing_ok]
      obtain ⟨hresult, hmid⟩ := congruent_perform operation disk disk' hd
      rcases hr : (perform operation).runOn disk with ⟨e | ⟨⟩, mid⟩ <;>
        rcases hr' : (perform operation).runOn disk' with ⟨e' | ⟨⟩, mid'⟩ <;>
        rw [hr, hr'] at hresult hmid
      · exact ⟨congrArg Except.error (Except.error.inj hresult), hmid⟩
      · cases hresult
      · cases hresult
      · exact ih mid mid' hmid

/-- **A sweep ends the same** on disks that look alike, if the same is kept. -/
theorem removeStale_alike (hd : disk.Alike disk') (hv : disk.root.Valid) (hv' : disk'.root.Valid)
    (hkeep : ∀ p, p ∈ keep ↔ p ∈ keep') :
    SameEnds ((removeStale room out keep).runOn disk)
      ((removeStale room out keep').runOn disk') := by
  rw [removeStale, removeStale, Work.runOn_bind, Work.runOn_bind, Work.runOn_ask, Work.runOn_ask, entryAt?, entryAt?]
  rcases hd.root.locate_cases .target out with ⟨cause, hl, hl'⟩ | ⟨way, e, e', hl, hl', he⟩ |
    ⟨way, name, hl, hl'⟩
  · rw [hl, hl']
    exact ⟨rfl, hd⟩
  · rw [hl, hl']
    rcases he.entry_cases with ⟨_, _, rfl, rfl⟩ | ⟨_, rfl, rfl⟩ | ⟨ms, ms', rfl, rfl, -⟩
    · exact ⟨rfl, hd⟩
    · exact ⟨rfl, hd⟩
    · have hsorted : (Entry.directory ms).sorted = (Entry.directory ms').sorted :=
        Entry.sorted_eq_of_alike _ (hv.at? (stands_of_locate hl)) _
          (hv'.at? (stands_of_locate hl')) he
      dsimp only
      rw [sweep_keep_congr hkeep, hsorted]
      exact (congruent_removing _ disk disk' hd).bind fun _ mid mid' _ hmid => ⟨rfl, hmid⟩
  · rw [hl, hl']
    exact ⟨rfl, hd⟩

/-! ### Reports and events in another order -/

/-- An event with the name of a run and the stamp of its events. -/
def eventUnder (occasion : Occasion) (event : Audit.Event) : Audit.Event :=
  { event with timestamp := occasion.stamp, runId := occasion.id }

/-- The events of a run differ with its occasion in nothing but the occasion. -/
theorem eventsAt_under (config : Config) (occasion : Occasion) (outcomes : List (Source × Outcome))
    (paths : List Path) :
    eventsAt config occasion outcomes paths =
      (eventsAt config { id := [], stamp := [] } outcomes paths).map (eventUnder occasion) := by
  rw [eventsAt, eventsAt, eventsOf, eventsOf, List.map_append, List.map_map, List.map_map]
  congr 1
  · refine List.map_congr_left fun o _ => ?_
    obtain ⟨source, outcome⟩ := o
    cases outcome <;> rfl
  · rw [List.map_map, List.map_map]
    rfl

theorem eventsAt_perm (hp : outcomes.Perm outcomes') (paths : List Path) :
    (eventsAt config occasion outcomes paths).Perm (eventsAt config occasion outcomes' paths) :=
  (hp.map _).append_right _

theorem mem_keepOf_perm (hp : outcomes.Perm outcomes') (path : Path) :
    path ∈ keepOf config outcomes ↔ path ∈ keepOf config outcomes' :=
  (List.Perm.append_left _ (hp.flatMap_right _)).mem_iff

/-- **The report does not depend on the order of outcomes** if labels tell the sources apart. -/
theorem reportAt_perm (hp : outcomes.Perm outcomes')
    (hlabels : ∀ o ∈ outcomes, ∀ o' ∈ outcomes, o.1.label = o'.1.label → o = o')
    (paths : List Path) : reportAt config outcomes paths = reportAt config outcomes' paths := by
  have hfailures : Text.orderedBy Failure.path
      (outcomes.filterMap fun o => failure? o.1 o.2) =
      Text.orderedBy Failure.path (outcomes'.filterMap fun o => failure? o.1 o.2) := by
    refine Text.orderedBy_eq_of_perm Failure.path (hp.filterMap _) fun a ha b hb he => ?_
    obtain ⟨⟨s, outcome⟩, ho, hf⟩ := List.mem_filterMap.1 ha
    obtain ⟨⟨s', outcome'⟩, ho', hf'⟩ := List.mem_filterMap.1 hb
    have hpath {s : Source} {outcome : Outcome} {f : Failure}
        (h : failure? s outcome = some f) : f.path = s.label := by
      cases outcome <;> cases h
      rfl
    obtain ⟨rfl, rfl⟩ := Prod.mk.inj
      (hlabels _ ho _ ho' ((hpath hf).symm.trans (he.trans (hpath hf'))))
    exact Option.some.inj (hf.symm.trans hf')
  rw [reportAt, reportAt, reportOn, reportOn, hfailures,
    Text.sorted_eq_of_perm ((hp.filter _).map _),
    Text.sorted_eq_of_perm ((hp.filter fun o => o.2 = .cached).map _)]

/-! ### Two runs that do the same -/

/-- **Two runs do the same**, each under its own occasion: they end with the same report or error, leave
the same everywhere but in the log, and log the same events in some order. -/
structure SameRun (config : Config) (occasion occasion' : Occasion)
    (end₁ end₂ : Except RunError Report × Disk) : Prop where
  /-- The report or error is the same. -/
  result : end₁.1 = end₂.1
  /-- So is what is seen outside the log. -/
  tree : ∀ q, q ∉ config.auditLog → end₁.2.root.see? q = end₂.2.root.see? q
  /-- The log is the same, or the same events were added to it. -/
  log : ∀ log ∈ config.auditLog, end₁.2.root.see? log = end₂.2.root.see? log ∨
    ∃ (before : List UInt8) (now : Int) (events events' : List Audit.Event),
      events.Perm events' ∧
      end₁.2.root.see? log = some (.file (before ++
        Utf8.encode ((events.map (eventUnder occasion)).flatMap Audit.Event.line)) now) ∧
      end₂.2.root.see? log = some (.file (before ++
        Utf8.encode ((events'.map (eventUnder occasion')).flatMap Audit.Event.line)) now)

theorem SameRun.of_alike {end₁ end₂ : Except RunError Report × Disk} (hresult : end₁.1 = end₂.1)
    (halike : end₁.2.root.Alike end₂.2.root) : SameRun config occasion occasion' end₁ end₂ :=
  ⟨hresult, fun q _ => congrFun halike q, fun log _ => .inl (congrFun halike log)⟩

theorem SameRun.refl (end₁ : Except RunError Report × Disk) :
    SameRun config occasion occasion' end₁ end₁ := .of_alike rfl (.refl _)

/-- **The end of a run**: the sweep and the log. -/
def concluding (config : Config) (occasion : Occasion) (outcomes : List (Source × Outcome)) :
    Work RunError Report := do
  let paths ← (removeStale sweepRoom config.outputRoot (keepOf config outcomes)).mapError .file
  logEvents config (eventsAt config occasion outcomes paths)
  return reportAt config outcomes paths

/-- **Events that are the same in another order** are logged the same. -/
theorem logging_same (hset : ∀ log ∈ config.auditLog, log.Proper)
    (hplain : ∀ log ∈ config.auditLog, log.Plain disk.root) (hd : disk.Alike disk')
    (hp : outcomes.Perm outcomes') (paths : List Path) (report : Report) :
    SameRun config occasion occasion'
      ((do
        logEvents config (eventsAt config occasion outcomes paths)
        return report : Work RunError Report).runOn disk)
      ((do
        logEvents config (eventsAt config occasion' outcomes' paths)
        return report : Work RunError Report).runOn disk') := by
  rw [Work.runOn_bind, Work.runOn_bind, runOn_logEvents, runOn_logEvents]
  cases hlog : config.auditLog with
  | none => exact .of_alike rfl hd.root
  | some log =>
    dsimp only
    have hevents := @eventsAt_perm config { id := [], stamp := [] } _ _ hp paths
    rw [eventsAt_under config occasion, eventsAt_under config occasion', List.isEmpty_map,
      List.isEmpty_map, hevents.isEmpty_eq]
    by_cases hempty : (eventsAt config { id := [], stamp := [] } outcomes' paths).isEmpty = true
    · rw [if_pos hempty, if_pos hempty]
      exact .of_alike rfl hd.root
    · rw [if_neg hempty, if_neg hempty]
      generalize hlines : ((eventsAt config { id := [], stamp := [] } outcomes paths).map
        (eventUnder occasion)).flatMap Audit.Event.line = lines
      generalize hlines' : ((eventsAt config { id := [], stamp := [] } outcomes' paths).map
        (eventUnder occasion')).flatMap Audit.Event.line = lines'
      have hadds := Audit.addLines_alike hd (hset log hlog) (hplain log hlog) lines lines'
      generalize (Audit.addLines log lines).runOn disk = end₁ at hadds ⊢
      generalize (Audit.addLines log lines').runOn disk' = end₂ at hadds ⊢
      cases hadds with
      | same h =>
        rw [h.result]
        rcases end₂.1 with e | ⟨⟩
        · exact .of_alike rfl h.disk.root
        · exact .of_alike rfl h.disk.root
      | @added disk disk' seen before now first second =>
        refine ⟨rfl, fun q hq => ?_, fun l hl => .inr ⟨before, now, _, _, hevents, ?_, ?_⟩⟩
        · have hne : q ≠ log := fun he => hq (he ▸ hlog)
          change disk.root.see? q = disk'.root.see? q
          rw [first, second, Function.update_of_ne hne, Function.update_of_ne hne]
        · cases hl.symm.trans hlog
          change disk.root.see? log = _
          rw [first, Function.update_self, hlines]
        · cases hl.symm.trans hlog
          change disk'.root.see? log = _
          rw [second, Function.update_self, hlines']

/-- **The end of a run** does the same on disks that look alike, in whatever order the outcomes
came. -/
theorem concluding_same (hset : ∀ log ∈ config.auditLog, log.Proper)
    (hplain : ∀ log ∈ config.auditLog, log.Plain worked.root) (hd : worked.Alike worked')
    (hv : worked.root.Valid) (hv' : worked'.root.Valid)
    (hp : outcomes.Perm outcomes')
    (hlabels : ∀ o ∈ outcomes, ∀ o' ∈ outcomes,
      o.1.label = o'.1.label → o = o') :
    SameRun config occasion occasion' ((concluding config occasion outcomes).runOn worked)
      ((concluding config occasion' outcomes').runOn worked') := by
  obtain ⟨hresult, hswept⟩ := @removeStale_alike _ _ config.outputRoot _ _ sweepRoom hd hv hv'
    (@mem_keepOf_perm config _ _ hp)
  have hnothing := removeStale_none_or_eq sweepRoom config.outputRoot (keepOf config outcomes) worked
  rw [concluding, concluding, Work.runOn_bind, Work.runOn_bind, Work.runOn_mapError,
    Work.runOn_mapError]
  rcases hr : (removeStale sweepRoom config.outputRoot (keepOf config outcomes)).runOn worked with
    ⟨e | paths, swept⟩ <;>
    rcases hr' : (removeStale sweepRoom config.outputRoot (keepOf config outcomes')).runOn worked'
      with ⟨e' | paths', swept'⟩ <;>
    rw [hr, hr'] at hresult hswept
  · cases hresult
    exact .of_alike rfl hswept.root
  · cases hresult
  · cases hresult
  · cases hresult
    rw [hr] at hnothing
    have hplain' : ∀ log ∈ config.auditLog, log.Plain swept.root := fun log hl =>
      Path.Plain.of_swept hnothing (hplain log hl)
    dsimp only [Except.mapError]
    rw [← reportAt_perm hp hlabels paths]
    exact logging_same hset hplain' hswept hp paths (reportAt config outcomes paths)

/-! ### Sources that do not get in each other's way -/

/-- **Sources that do not get in each other's way**: their places are clear of each other and ready,
there is room for their directories, and they are read without the outputs. -/
structure Fair (files : Entry) (roots : Roots) (sources : List Source) : Prop where
  /-- The places of the markup are clear of each other. -/
  separate : Separate roots.output (markupOf sources)
  /-- They are ready. -/
  ready : ∀ s ∈ markupOf sources, Ready files roots.output s
  /-- There is room for directories. -/
  roomy : ∀ s ∈ markupOf sources, (s.directory roots.output).Roomy files directoryRoom
  /-- All sources are there without the outputs. -/
  view : ∀ s ∈ sources, isFile (files.put none roots.output) (s.path roots.input) = .ok true

instance (files : Entry) (roots : Roots) (sources : List Source) :
    Decidable (Fair files roots sources) :=
  decidable_of_iff
    (Separate roots.output (markupOf sources) ∧
      (∀ s ∈ markupOf sources, Ready files roots.output s) ∧
      (∀ s ∈ markupOf sources, (s.directory roots.output).Roomy files directoryRoom) ∧
      ∀ s ∈ sources, isFile (files.put none roots.output) (s.path roots.input) = .ok true)
    ⟨fun ⟨hseparate, hready, hroomy, hview⟩ => ⟨hseparate, hready, hroomy, hview⟩,
      fun h => ⟨h.separate, h.ready, h.roomy, h.view⟩⟩

/-- **A run that finds fair sources**, in a valid file system and with a settled configuration. -/
structure FindsFair (config : Config) (disk : Disk) : Prop where
  /-- The file system is valid. -/
  valid : disk.root.Valid
  /-- The configuration is settled. -/
  settled : config.Settled disk.root
  /-- The sources that are found are fair. -/
  fair : ∀ sources, foundBy config disk = .ok sources →
    Fair (afterOpening config disk).root (rootsOf config) sources

/-- **A calm plan** for a run: no source is contended in its batch. -/
def Calm (plan : List Source → List (List Source)) (config : Config) (disk : Disk) : Prop :=
  ∀ sources, foundBy config disk = .ok sources → ∀ s ∈ markupOf sources,
    ¬ Contended (afterOpening config disk).root (rootsOf config) sources (plan (markupOf sources)) s

/-- **One source after another**: each is a batch of its own. -/
def oneByOne (order : List Source → List Source) (sources : List Source) : List (List Source) :=
  (order sources).map fun s => [s]

theorem covers_oneByOne {order : List Source → List Source}
    (h : ∀ sources, (order sources).Perm sources) : Covers (oneByOne order) := by
  intro sources
  have hflatten : (oneByOne order sources).flatten = order sources := by
    simp [oneByOne, ← List.flatMap_def]
  rw [hflatten]
  exact h sources

/-- A source that is alone in its batch is not contended. -/
theorem not_contended_of_alone {start : Entry} (h : ∀ batch ∈ first, batch.length ≤ 1) :
    ¬ Contended start roots sources first s := by
  rintro ⟨-, -, earlier, batch, later, hplan, hs, ⟨t, ht, hne, -⟩, -⟩
  have hlength : batch.length ≤ 1 := h batch (by rw [hplan]; simp)
  rcases batch with _ | ⟨u, _ | ⟨_, _⟩⟩
  · cases hs
  · exact hne ((List.mem_singleton.1 ht).trans (List.mem_singleton.1 hs).symm)
  · simp at hlength

/-- **One source after another is calm.** -/
theorem calm_oneByOne (order : List Source → List Source) : Calm (oneByOne order) config disk :=
  fun _ _ _ _ => not_contended_of_alone fun batch hbatch => by
    obtain ⟨s, -, rfl⟩ := List.mem_map.1 hbatch
    exact le_refl 1

theorem length_le_of_mem_blocks {α : Type} {more : Nat} {xs block : List α}
    (h : block ∈ blocks more xs) : block.length ≤ more + 1 := by
  fun_induction blocks more xs with
  | case1 => cases h
  | case2 x rest ih =>
    rcases List.mem_cons.1 h with rfl | h
    · exact Nat.succ_le_succ (List.length_take_le more rest)
    · exact ih h

/-- **So are the batches of a single worker.** -/
theorem calm_of_single {workers : Int} (h : workers ≤ 1) : Calm (batches workers) config disk :=
  fun _ _ _ _ => not_contended_of_alone fun batch hbatch => by
    obtain ⟨block, hblock, rfl⟩ := List.mem_map.1 hbatch
    have hmore : moreWorkers workers = 0 := by
      rw [moreWorkers]
      omega
    rw [List.length_reverse]
    rw [hmore] at hblock
    exact length_le_of_mem_blocks hblock

/-- **Any plan is calm** where no two sources have a directory that is missing. -/
theorem calm_of_directories (h : ∀ sources, foundBy config disk = .ok sources →
    ∀ s ∈ markupOf sources, ∀ t ∈ markupOf sources, t ≠ s →
      t.directory config.outputRoot = s.directory config.outputRoot →
        (afterOpening config disk).root.see? (s.directory config.outputRoot) = some .directory)
    (hplan : Covers plan) : Calm plan config disk := by
  rintro sources hfound s hs ⟨-, hmissing, earlier, batch, later, he, -, ⟨t, ht, hne, hdir, -⟩, -⟩
  have hmem : t ∈ (plan (markupOf sources)).flatten :=
    List.mem_flatten.2 ⟨batch, by rw [he]; simp, ht⟩
  exact hmissing (h sources hfound s hs t ((hplan _).mem_iff.1 hmem) hne hdir)

/-- **Fair sources that were discovered make a steady run**, with any plan that is calm. -/
theorem Fair.steady {excluded : List Path} (h : Fair files roots sources) (hv : files.Valid)
    (hroot : OutputRoot files roots.output) (hne : roots.output ≠ [])
    (hfound : discover files roots.input excluded = .ok sources) (hplan : Covers plan)
    (hcalm : ∀ s ∈ markupOf sources,
      ¬ Contended files roots sources (plan (markupOf sources)) s) :
    Steady roots sources (plan (markupOf sources)) files := by
  have hmem {s : Source} (hs : s ∈ (plan (markupOf sources)).flatten) : s ∈ markupOf sources :=
    (hplan _).mem_iff.1 hs
  exact ⟨⟨orderly_of_discover hplan hv hfound h.separate, hroot, fun s hs => h.ready s (hmem hs)⟩,
    hne, fun s hs _ => h.roomy s (hmem hs), fun s hs => hcalm s (hmem hs),
    fun s hs => inView_of_mem h.view (mem_markupOf.1 (hmem hs)).1⟩

/-! ### Runs in any order -/

/-- A run with some plan, up to the end of the work. -/
theorem runOn_runBy (hset : config.Settled disk.root) {roots : Roots}
    (hopens : (openRoots config).runOn disk = (.ok roots, opened))
    (plan : List Source → List (List Source)) (occasion : Occasion) :
    (runBy plan config occasion).runOn disk =
      match discover opened.root config.inputRoot [config.outputRoot] with
      | .error e => (.error (.file e), opened)
      | .ok sources =>
        (concluding config occasion ((workThrough (rootsOf config) sources occasion.turns
          (plan (markupOf sources))).run opened).1).runOn
            ((workThrough (rootsOf config) sources occasion.turns
              (plan (markupOf sources))).run opened).2 := by
  obtain ⟨operations, hopening⟩ := openRoots_opens hset
  rw [hopens] at hopening
  cases hopening.roots_eq roots rfl
  rw [runBy, Work.runOn_bind_of_ok hopens, Work.runOn_bind_of_ok
    (runOn_keptLog hset.log_proper fun log hl => hopening.plain (hset.log_plain log hl)),
    Work.runOn_bind, Work.runOn_ask, show (rootsOf config).input = config.inputRoot from rfl,
    show (rootsOf config).output = config.outputRoot from rfl]
  rcases discover opened.root config.inputRoot [config.outputRoot] with e | sources
  · rfl
  · dsimp only [Except.mapError]
    rw [Work.runOn_bind, Work.runOn_lift]
    rfl

/-- The outcomes of a steady run are those due, in the order in which work on the sources ended. -/
theorem Done.outcomes_eq (h : Done roots sources order disk disk' outcomes trace) :
    outcomes = (outcomes.map Prod.fst).map fun s =>
      (s, outcomeOf roots.output s (due disk.root roots sources s)) := by
  rw [List.map_map]
  refine (List.map_id outcomes).symm.trans (List.map_congr_left fun o ho => ?_)
  exact Prod.ext rfl (h.settled o ho).outcome_eq

/-- **Work that is steady** ends with the same outcomes, on disks that look alike, whatever the
batches and whoever takes a turn. -/
theorem Done.same {order' : List Source} {trace' : List (Source × Operation)}
    (h : Done roots sources order disk worked outcomes trace)
    (h' : Done roots sources order' disk worked' outcomes' trace')
    (ho : Orderly roots.output order) (ho' : Orderly roots.output order')
    (hperm : order.Perm order') : outcomes.Perm outcomes' ∧ worked.Alike worked' := by
  refine ⟨?_, ?_, ?_⟩
  · rw [h.outcomes_eq, h'.outcomes_eq]
    exact (h.worked.perm.trans (hperm.trans h'.worked.perm.symm)).map _
  · rw [Entry.Alike, h.see?_eq ho, h'.see?_eq ho']
    exact afterJobs_perm hperm fun s hs t ht q sight => ho.agree hs ht
  · rw [h.worked.performs.undergoes.now_eq, h'.worked.performs.undergoes.now_eq]

/-- Labels tell the outcomes of a run apart. -/
theorem Done.labels (h : Done roots sources order disk disk' outcomes trace)
    (ho : Orderly roots.output order) :
    ∀ o ∈ outcomes, ∀ o' ∈ outcomes, o.1.label = o'.1.label → o = o' := by
  intro o hmem o' hmem' he
  have hs := h.worked.perm.subset (List.mem_map_of_mem hmem)
  have hs' := h.worked.perm.subset (List.mem_map_of_mem hmem')
  have hsame := Source.eq_of_way ((ho.markup _ hs).trans (ho.markup _ hs').symm)
    (Source.way_of_label (ho.regular _ hs) (ho.regular _ hs') he)
  refine Prod.ext hsame ?_
  rw [(h.settled o hmem).outcome_eq, (h.settled o' hmem').outcome_eq, hsame]

/-- **Runs with two plans do the same**, if both are calm. -/
theorem runBy_same (h : FindsFair config disk) (hplan : Covers plan) (hplan' : Covers plan')
    (hcalm : Calm plan config disk) (hcalm' : Calm plan' config disk)
    (occasion occasion' : Occasion) :
    SameRun config occasion occasion' ((runBy plan config occasion).runOn disk)
      ((runBy plan' config occasion').runOn disk) := by
  obtain ⟨operations, hopening⟩ := openRoots_opens h.settled
  have hfair := h.fair
  rw [foundBy, afterOpening] at hfair
  rw [Calm, foundBy, afterOpening] at hcalm hcalm'
  rcases hr : (openRoots config).runOn disk with ⟨e | roots, opened⟩
  · rw [runBy, runBy, Work.runOn_bind_of_error hr, Work.runOn_bind_of_error hr]
    exact .refl _
  · rw [hr] at hopening hfair hcalm hcalm'
    rw [runOn_runBy h.settled hr, runOn_runBy h.settled hr]
    rcases hfound : discover opened.root config.inputRoot [config.outputRoot] with e | sources
    · exact .refl _
    · dsimp only
      have hv : opened.root.Valid := hopening.undergoes.valid h.valid
      have hroot := hopening.output roots rfl
      have hsteady := (hfair sources hfound).steady hv hroot h.settled.output_ne_nil hfound hplan
        (hcalm sources hfound)
      have hsteady' := (hfair sources hfound).steady hv hroot h.settled.output_ne_nil hfound hplan'
        (hcalm' sources hfound)
      obtain ⟨trace, hdone⟩ := hsteady.done occasion.turns
      obtain ⟨trace', hdone'⟩ := hsteady'.done occasion'.turns
      obtain ⟨houtcomes, halike⟩ := hdone.same hdone' hsteady.orderly hsteady'.orderly
        ((hplan _).trans (hplan' _).symm)
      exact concluding_same h.settled.log_proper (fun log hl =>
          hdone.worked.performs.plain log (hopening.plain (h.settled.log_plain log hl))) halike
        (hdone.worked.performs.undergoes.valid hv) (hdone'.worked.performs.undergoes.valid hv)
        houtcomes (hdone.labels hsteady.orderly)

/-- **How many workers there are does not matter**, and neither does who takes a turn nor any other
order of work, where no source gets in the way of another: the run ends with the same report or error,
leaves the same files, and logs the same events in some order. Sources of a batch get in each other's
way if they share a directory that is missing; one source after another never do. -/
theorem run_order_irrelevant (h : FindsFair config disk) (occasion occasion' : Occasion) :
    (∀ workers workers' : Int, Calm (batches workers) config disk →
      Calm (batches workers') config disk →
        SameRun config occasion occasion'
          ((run { config with workers := workers } occasion).runOn disk)
          ((run { config with workers := workers' } occasion').runOn disk)) ∧
      ∀ order order' : List Source → List Source, (∀ sources, (order sources).Perm sources) →
        (∀ sources, (order' sources).Perm sources) →
          SameRun config occasion occasion'
            ((runBy (oneByOne order) config occasion).runOn disk)
            ((runBy (oneByOne order') config occasion').runOn disk) := by
  refine ⟨fun workers workers' hcalm hcalm' => ?_, fun order order' horder horder' => ?_⟩
  -- apart from its plan, a run does not look at the number of workers
  · exact runBy_same h (covers_batches workers) (covers_batches workers') hcalm hcalm' occasion
      occasion'
  · exact runBy_same h (covers_oneByOne horder) (covers_oneByOne horder') (calm_oneByOne order)
      (calm_oneByOne order') occasion occasion'

/-- A disk with sources of all kinds: a document, a file that is no text, and a fragment with styles in
a directory of its own; and with outputs from before. -/
def varied : Disk where
  root := .directory
    [("src".toList, .directory
        [("a.html".toList,
            .file (Utf8.encode "<!doctype html><p id='p'>".toList) 1700000000000000000),
          ("b.html".toList, .file [255] 1700000000000000000),
          ("sub".toList, .directory
            [("c.html".toList,
              .file (Utf8.encode "<style>.x{}</style>".toList) 1700000000000000000)])]),
      ("out".toList, .directory
        [("b.ts".toList, .file [] 0), ("old.ts".toList, .file [] 0)])]
  now := 1700000000000000000

/-- What a source without a single character fails with. -/
def undecodableError : Text :=
  "UnicodeDecodeError: 'utf-8' codec can't decode byte 0xff in position 0: invalid start byte".toList

/-- The sources of that disk. -/
def variedSources : List Source :=
  [⟨[], "a".toList, .markup⟩, ⟨[], "b".toList, .markup⟩, ⟨["sub".toList], "c".toList, .markup⟩]

theorem varied_found : foundBy plainConfig varied = .ok variedSources := by decide +kernel

theorem varied_findsFair : FindsFair plainConfig varied where
  valid := by decide +kernel
  settled := by decide +kernel
  fair sources h := by
    cases varied_found.symm.trans h
    decide +kernel

/-- Each of its sources that shares a directory has one that is there. -/
theorem varied_calm (hplan : Covers plan) : Calm plan plainConfig varied := by
  refine calm_of_directories (fun sources h => ?_) hplan
  cases varied_found.symm.trans h
  decide +kernel

/-- An occasion on which the sources of the first batch take turns. -/
def turningOccasion : Occasion := { plainOccasion with turns := [[0, 1, 2, 2, 1, 0, 1, 2, 0, 0, 1]] }

theorem run_order_irrelevant_varied :
    FindsFair plainConfig varied ∧
      SameRun plainConfig plainOccasion turningOccasion
        ((run { plainConfig with workers := 1 } plainOccasion).runOn varied)
        ((run { plainConfig with workers := 3 } turningOccasion).runOn varied) :=
  ⟨varied_findsFair, (run_order_irrelevant varied_findsFair plainOccasion turningOccasion).1 1 3
    (calm_of_single (by decide)) (varied_calm (covers_batches 3))⟩

/-! ### Sources that get in each other's way -/

/-- A disk with a source that is a link to an output of another one. -/
def crossed : Disk where
  root := .directory
    [("src".toList, .directory
        [("a.html".toList, .link "../out/b.ts".toList),
          ("b.html".toList, .file (Utf8.encode "<p id='p'></p>".toList) 1700000000000000000)]),
      ("out".toList, .directory [("b.ts".toList, .file [255] 0)])]
  now := 1700000000000000000

/-- A disk with two pages in a directory, which is missing among the outputs. -/
def raced : Disk where
  root := .directory
    [("src".toList, .directory [("sub".toList, .directory
        [("a.html".toList,
            .file (Utf8.encode "<!doctype html><p id='p'>".toList) 1700000000000000000),
          ("b.html".toList,
            .file (Utf8.encode "<!doctype html><p id='q'>".toList) 1700000000000000000)])]),
      ("out".toList, .directory [])]
  now := 1700000000000000000

/-- An occasion on which the second of two sources takes its turns before the first one has made their
directory. -/
def racingOccasion : Occasion := { plainOccasion with turns := [[0, 0, 0, 1, 1, 1, 1, 1, 1, 1]] }

theorem raced_findsFair : FindsFair plainConfig raced where
  valid := by decide +kernel
  settled := by decide +kernel
  fair sources h := by
    have hfound : foundBy plainConfig raced = .ok
        [⟨["sub".toList], "a".toList, .markup⟩, ⟨["sub".toList], "b".toList, .markup⟩] := by
      decide +kernel
    cases hfound.symm.trans h
    decide +kernel

/-- **The order of work matters** where a source is a link to an output: what is read there is the old
output or the new one. It also matters where two sources of a batch share a directory that is missing:
the second one may write before the first one has made it. -/
theorem run_order_matters :
    (¬ ∀ (config : Config) (occasion : Occasion) (disk : Disk), disk.root.Valid →
      config.Settled disk.root → (∀ log ∈ config.auditLog, ¬ config.outputRoot <+: log) →
      (∀ sources, foundBy config disk = .ok sources →
        Separate config.outputRoot (markupOf sources) ∧
          ∀ s ∈ markupOf sources, Ready (afterOpening config disk).root config.outputRoot s) →
      ∀ workers workers' : Int,
        ((run { config with workers := workers } occasion).runOn disk).1 =
          ((run { config with workers := workers' } occasion).runOn disk).1) ∧
      ¬ ∀ (config : Config) (occasion occasion' : Occasion) (disk : Disk), FindsFair config disk →
        ∀ workers workers' : Int,
          ((run { config with workers := workers } occasion).runOn disk).1 =
            ((run { config with workers := workers' } occasion').runOn disk).1 := by
  refine ⟨fun h => ?_, fun h => ?_⟩
  · have hsame := h plainConfig plainOccasion crossed (by decide +kernel) (by decide +kernel)
      (by simp [plainConfig]) (fun sources hsources => ?_) 1 2
    · exact absurd hsame (by decide +kernel)
    · have hfound : foundBy plainConfig crossed =
          .ok [⟨[], "a".toList, .markup⟩, ⟨[], "b".toList, .markup⟩] := by decide +kernel
      cases hfound.symm.trans hsources
      decide +kernel
  · have hsame := h plainConfig plainOccasion racingOccasion raced raced_findsFair 1 2
    exact absurd hsame (by decide +kernel)

end Build
end TemplateBindings
