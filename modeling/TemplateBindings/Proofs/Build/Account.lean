import TemplateBindings.Proofs.Build.Jobs
import TemplateBindings.Proofs.Build.Reconcile

/-!
# What becomes of each source

A run in good order (`TemplateBindings.Build.InOrder`) accounts for each of its sources: what is
performed for it is its turn (`TemplateBindings.Build.Accounts`), whatever is performed for others in
between, and what is left in the places of its outputs is what its turn left there, if its outcome
keeps it, and nothing otherwise (`TemplateBindings.Build.Completes.left`).
-/

namespace TemplateBindings
namespace Build

open Files

variable {plan : List Source → List (List Source)} {config : Config} {occasion : Occasion}
  {disk last : Disk} {stages : Stages} {sources : List Source} {s t : Source} {report : Report}
  {outcome : Outcome} {q : Path} {trace : List (Source × Operation)} {now now' : Int}
  {seen seen' : Seen} {operations : List Operation}

/-! ### Runs in good order -/

/-- **A run in good order**: it works where its configuration says, the places of its sources are
clear of each other, and they are ready. -/
structure InOrder (plan : List Source → List (List Source)) (config : Config) (stages : Stages) :
    Prop where
  /-- The configuration is settled in the file system with the roots opened. -/
  settled : config.Settled stages.opened.root
  /-- The roots are those of the configuration. -/
  roots : stages.roots = rootsOf config
  /-- What is kept of the log is its path. -/
  log : stages.log = config.auditLog.toList
  /-- The file system is valid. -/
  valid : stages.opened.root.Valid
  /-- The places of the sources are prepared. -/
  prepared : Prepared config.outputRoot (plan (markupOf stages.sources)).flatten stages.opened.root

/-- Opening its roots leaves a configuration settled. -/
theorem Opens.settled {result : Except RunError Roots × Disk} {operations : List Operation}
    (h : Opens config disk result operations) (hset : config.Settled disk.root) :
    config.Settled result.2.root where
  input_proper := hset.input_proper
  input_plain := h.plain hset.input_plain
  output_proper := hset.output_proper
  output_plain := h.plain hset.output_plain
  apart := hset.apart
  log_proper := hset.log_proper
  log_plain log hl := h.plain (hset.log_plain log hl)

/-- Sources that were discovered and keep clear of each other are in order. -/
theorem orderly_of_discover {files : Entry} {roots : Roots} {excluded : List Path}
    (hplan : Covers plan) (hv : files.Valid)
    (hfound : discover files roots.input excluded = .ok sources)
    (hseparate : Separate roots.output (markupOf sources)) :
    Orderly roots.output (plan (markupOf sources)).flatten := by
  have hcovers := hplan (markupOf sources)
  have hmem {s : Source} (hs : s ∈ (plan (markupOf sources)).flatten) : s ∈ markupOf sources :=
    hcovers.mem_iff.1 hs
  exact ⟨hcovers.nodup_iff.2 ((nodup_of_discover hv hfound).filter _),
    fun s hs => (discover_regular hv hfound (mem_markupOf.1 (hmem hs)).1).1,
    fun s hs => (mem_markupOf.1 (hmem hs)).2,
    fun s hs t ht hne => hseparate s (hmem hs) t (hmem ht) hne⟩

/-- **A run of a settled configuration is in good order** if its sources keep clear of each other and
find their places ready. -/
theorem Works.inOrder (h : Works plan config occasion disk stages) (hplan : Covers plan)
    (hv : disk.root.Valid) (hset : config.Settled disk.root)
    (hseparate : Separate config.outputRoot (markupOf stages.sources))
    (hready : ∀ s ∈ markupOf stages.sources, Ready stages.opened.root config.outputRoot s) :
    InOrder plan config stages := by
  obtain ⟨operations, hopens⟩ := openRoots_opens hset
  rw [h.opens] at hopens
  have hroots := hopens.roots_eq _ rfl
  have hvalid := hopens.undergoes.valid hv
  have hkeeps := h.keeps
  rw [runOn_keptLog hset.log_proper fun log hl => hopens.plain (hset.log_plain log hl)] at hkeeps
  have hdiscovers := h.discovers
  rw [hroots] at hdiscovers
  exact ⟨hopens.settled hset, hroots, (Except.ok.inj (Prod.mk.inj hkeeps).1).symm, hvalid,
    @orderly_of_discover _ _ _ (rootsOf config) _ hplan hvalid hdiscovers hseparate,
    hopens.output _ rfl, fun s hs => hready s ((hplan _).mem_iff.1 hs)⟩

theorem InOrder.output_eq (ho : InOrder plan config stages) :
    stages.roots.output = config.outputRoot := by
  rw [ho.roots]
  rfl

/-- A settled configuration has paths of names. -/
theorem spelled_of_settled {files : Entry} (h : config.Settled files) : config.Spelled :=
  ⟨h.input_proper.spelled, h.output_proper.spelled, fun log hl => (h.log_proper log hl).spelled⟩

theorem InOrder.spelled (ho : InOrder plan config stages) : config.Spelled :=
  spelled_of_settled ho.settled

/-! ### The work of a run in good order -/

/-- **The work of a run accounts for each source**: it is a trace of operations, and those for a
source are its turn. -/
structure Accounts (plan : List Source → List (List Source)) (config : Config) (stages : Stages)
    (trace : List (Source × Operation)) : Prop where
  /-- The operations lead to what the work leaves. -/
  worked : Worked config.outputRoot (plan (markupOf stages.sources)).flatten trace stages.opened
    stages.worked stages.outcomes
  /-- Each source that is in view without the outputs has its turn. -/
  comes : ∀ o ∈ stages.outcomes, ComesTo stages.opened.root (rootsOf config) stages.sources
    (plan (markupOf stages.sources)) o.1 o.2 (Thread.actsOf o.1 trace)
  /-- The directories of stale sources are made, where there is room. -/
  entered : ∀ s ∈ (plan (markupOf stages.sources)).flatten,
    Enters stages.opened.root (rootsOf config) stages.sources s →
      stages.worked.root.see? (s.directory config.outputRoot) = some .directory

theorem Works.accounts (h : Works plan config occasion disk stages)
    (ho : InOrder plan config stages) : ∃ trace, Accounts plan config stages trace := by
  have hworks := h.works
  rw [ho.roots] at hworks
  obtain ⟨trace, hworked, hcomes, hentered⟩ :=
    @Prepared.through stages.opened (rootsOf config) (plan (markupOf stages.sources)) ho.prepared
      ho.settled.output_ne_nil stages.sources occasion.turns
  rw [hworks] at hworked hcomes hentered
  exact ⟨trace, hworked, hcomes, hentered⟩

/-- The places of the sources are touched, and nothing else. -/
theorem Accounts.touches (h : Accounts plan config stages trace) (ho : InOrder plan config stages) :
    Touches config.outputRoot (plan (markupOf stages.sources)).flatten stages.opened.root.see?
      stages.worked.root.see? :=
  ho.prepared.touches (fun _ => id) h.worked.performs

/-- Sources with outcomes are worked on. -/
theorem Accounts.mem_order (h : Accounts plan config stages trace)
    (hs : (s, outcome) ∈ stages.outcomes) : s ∈ (plan (markupOf stages.sources)).flatten :=
  h.worked.perm.subset (List.mem_map_of_mem hs)

/-- **What the work leaves in the places of a source** is what the operations for it leave there. -/
theorem Accounts.see?_eq (h : Accounts plan config stages trace) (ho : InOrder plan config stages)
    (hs : s ∈ (plan (markupOf stages.sources)).flatten) (hq : IsPlace config.outputRoot s q) :
    stages.worked.root.see? q = Operation.effects stages.opened.now stages.opened.root.see?
      (Thread.actsOf s trace) q := by
  rw [h.worked.performs.undergoes.see?_eq, ho.prepared.orderly.effects_own hs h.worked.serves hq]

/-- **What comes of a source** that is in view without the outputs: what is due for it, or it fails
because something hinders it, and its places are left alone. -/
inductive Becomes (plan : List Source → List (List Source)) (config : Config) (stages : Stages)
    (source : Source) : Outcome → Prop
  /-- What is due for it is done. -/
  | due (left : ∀ q, IsPlace config.outputRoot source q → stages.worked.root.see? q =
      (jobOf stages.opened.root (rootsOf config) stages.sources source).after stages.opened.now
        (source.directory config.outputRoot) stages.opened.root.see? q) :
    Becomes plan config stages source (outcomeOf config.outputRoot source
      (Build.due stages.opened.root (rootsOf config) stages.sources source))
  /-- It is hindered. -/
  | hindered {e : SourceError}
      (stale : IsStale stages.opened.root (rootsOf config) stages.sources source)
      (hinders : Hindrance stages.opened.root (rootsOf config) stages.sources
        (plan (markupOf stages.sources)) source)
      (left : ∀ q, IsPlace config.outputRoot source q →
        stages.worked.root.see? q = stages.opened.root.see? q) :
    Becomes plan config stages source (.failed e)

theorem Accounts.becomes (h : Accounts plan config stages trace) (ho : InOrder plan config stages)
    (hs : (s, outcome) ∈ stages.outcomes)
    (hview : InPlainView stages.opened.root (rootsOf config) stages.sources s) :
    Becomes plan config stages s outcome := by
  have hmem := h.mem_order hs
  have hr := ho.prepared.orderly.regular s hmem
  have hturn := h.comes _ hs hview
  dsimp only at hturn
  generalize hacts : Thread.actsOf s trace = acts at hturn
  have hsettled (hs' : Settled stages.opened.root (rootsOf config) stages.sources s outcome acts) :
      Becomes plan config stages s outcome := by
    rw [hs'.outcome_eq]
    refine .due fun q hq => ?_
    rw [h.see?_eq ho hmem hq, hacts]
    exact hs'.effects_eq hr hq _ _
  cases hturn with
  | idle hstale =>
    have hfree : Turn stages.opened.root (rootsOf config) stages.sources s False _ _ := .idle hstale
    exact hsettled (hfree.settled_of_free fun _ => id)
  | settled hstale hmaking =>
    have hfree : Turn stages.opened.root (rootsOf config) stages.sources s False _ _ :=
      .settled hstale hmaking
    exact hsettled (hfree.settled_of_free fun _ => id)
  | hindered hstale hhinders hmaking =>
    refine .hindered hstale hhinders fun q hq => ?_
    rw [h.see?_eq ho hmem hq, hacts]
    exact effects_making_own hr hmaking hq

/-- Where nothing hinders it, what is due for a source is done. -/
theorem Becomes.of_free (h : Becomes plan config stages s outcome)
    (hfree : IsStale stages.opened.root (rootsOf config) stages.sources s →
      ¬ Hindrance stages.opened.root (rootsOf config) stages.sources
        (plan (markupOf stages.sources)) s) :
    outcome = outcomeOf config.outputRoot s
        (Build.due stages.opened.root (rootsOf config) stages.sources s) ∧
      ∀ q, IsPlace config.outputRoot s q → stages.worked.root.see? q =
        (jobOf stages.opened.root (rootsOf config) stages.sources s).after stages.opened.now
          (s.directory config.outputRoot) stages.opened.root.see? q := by
  cases h with
  | due hleft => exact ⟨rfl, hleft⟩
  | hindered hstale hhinders => exact absurd hhinders (hfree hstale)

/-! ### After the sweep -/

theorem outputs_below {out : Path} (h : s.Regular) (hq : q ∈ (s.outputs out).all) :
    out <+: q ∧ q ≠ out := by
  obtain ⟨n, -, rfl⟩ := (Source.mem_outputs h).1 hq
  refine ⟨(s.directory_prefix out).trans (List.prefix_append _ _), fun he => ?_⟩
  refine s.not_prefix_directory n out ?_
  rw [he]
  exact s.directory_prefix out

/-- **What is kept in the place of an output** is kept by the outcome of its source. -/
theorem Accounts.mem_keep (h : Accounts plan config stages trace)
    (ho : InOrder plan config stages) (hsound : stages.Sound)
    (hlog : ∀ log ∈ config.auditLog, ¬ config.outputRoot <+: log)
    (hs : (s, outcome) ∈ stages.outcomes) (hq : q ∈ (s.outputs config.outputRoot).all) :
    q ∈ stages.log ++ kept stages.roots.output stages.outcomes ↔
      q ∈ outcome.keeps (s.outputs config.outputRoot) := by
  have hsorder := h.mem_order hs
  have horderly := ho.prepared.orderly
  have hown := hsound.own
  rw [ho.output_eq] at hown ⊢
  constructor
  · intro hmem
    rcases List.mem_append.1 hmem with hl | hk
    · rw [ho.log, Option.mem_toList] at hl
      exact absurd (outputs_below (horderly.regular s hsorder) hq).1 (hlog q hl)
    · obtain ⟨⟨t, outcome'⟩, ht, hkeeps⟩ := List.mem_flatMap.1 hk
      have hown : q ∈ (t.outputs config.outputRoot).all := hown _ ht q hkeeps
      obtain rfl : s = t := by
        by_contra hne
        exact ((horderly.clear hsorder (h.mem_order ht) hne).1.outputs q hq).1 hown
      rwa [hsound.outcome_unique hs ht]
  · exact fun hkeeps => List.mem_append_right _ (List.mem_flatMap.2 ⟨_, hs, hkeeps⟩)

/-- **A run passes through its stages**: its sweep ends well, and then it logs, whether or not that
ends well. -/
structure Passes (plan : List Source → List (List Source)) (config : Config)
    (occasion : Occasion) (disk : Disk) (stages : Stages) (last : Disk) : Prop
    extends Works plan config occasion disk stages where
  /-- What is stale is removed. -/
  sweeps : (removeStale sweepRoom stages.roots.output
    (stages.log ++ kept stages.roots.output stages.outcomes)).runOn stages.worked =
      (.ok stages.removed, stages.swept)
  /-- What is left is what logging leaves. -/
  leaves : ((logEvents config (eventsOf occasion stages.roots.output stages.outcomes
    (stages.removed.map (outputLabel stages.roots.output)))).runOn stages.swept).2 = last

theorem Completes.passes (h : Completes plan config occasion disk stages report last) :
    Passes plan config occasion disk stages last :=
  ⟨h.toWorks, h.sweeps, by rw [h.logs]⟩

/-- Outside the paths of its log, logging leaves an output directory as it is. -/
theorem Passes.last_eq (h : Passes plan config occasion disk stages last)
    (hproper : ∀ log ∈ config.auditLog, log.Proper)
    (hlog : ∀ log ∈ config.auditLog, ¬ config.outputRoot <+: log) (hq : config.outputRoot <+: q)
    (hplain : ∀ log ∈ config.auditLog, log.Plain stages.swept.root) :
    last.root.see? q = stages.swept.root.see? q := by
  have hlogged := logEvents_logged (fun log hl => (hplain log hl).clean (hproper log hl))
    (eventsOf occasion stages.roots.output stages.outcomes
      (stages.removed.map (outputLabel stages.roots.output)))
  rw [h.leaves] at hlogged
  rcases hlogged.of_proper hproper q with he | ⟨-, -, log, hl, hpre⟩ | ⟨hl, -⟩
  · exact he
  · rw [Path.parent_of_proper (hproper log hl)] at hpre
    exact absurd (hq.trans (hpre.trans (List.dropLast_prefix log))) (hlog log hl)
  · exact absurd hq (hlog q hl)

/-- Neither work nor sweep brings a link. -/
theorem Passes.plain_swept (h : Passes plan config occasion disk stages last)
    (haccounts : Accounts plan config stages trace) {path : Path}
    (hplain : path.Plain stages.opened.root) : path.Plain stages.swept.root := by
  have hswept := removeStale_none_or_eq sweepRoom stages.roots.output
    (stages.log ++ kept stages.roots.output stages.outcomes) stages.worked
  rw [h.sweeps] at hswept
  exact Path.Plain.of_swept hswept (haccounts.worked.performs.plain path hplain)

/-- **What is left in the place of an output** is what the work left there, if the outcome of its
source keeps it. -/
theorem Passes.left (h : Passes plan config occasion disk stages last)
    (haccounts : Accounts plan config stages trace) (ho : InOrder plan config stages)
    (hsound : stages.Sound) (hlog : ∀ log ∈ config.auditLog, ¬ config.outputRoot <+: log)
    (hs : (s, outcome) ∈ stages.outcomes) (hq : q ∈ (s.outputs config.outputRoot).all) :
    last.root.see? q =
      if q ∈ outcome.keeps (s.outputs config.outputRoot) then stages.worked.root.see? q
      else none := by
  have hsorder := haccounts.mem_order hs
  have hmem := haccounts.mem_keep ho hsound hlog hs hq
  obtain ⟨hbelow, hne⟩ := outputs_below (ho.prepared.orderly.regular s hsorder) hq
  rw [h.last_eq ho.settled.log_proper hlog hbelow fun log hl =>
    h.plain_swept haccounts (ho.settled.log_plain log hl)]
  have hswept := sweptOut_of_removeStale hsound.valid hsound.output hsound.fits h.sweeps
  rw [← ho.output_eq] at hbelow hne
  have hwritable := (ho.prepared.ready_of_touches (haccounts.touches ho) hsorder).outputs q hq
  have hleaf {sight : Sight} (hsight : stages.worked.root.see? q = some sight) :
      sight ≠ .directory := by
    rintro rfl
    rw [hsight] at hwritable
    exact hwritable
  split
  · next hkeeps =>
    rcases hsight : stages.worked.root.see? q with _ | sight
    · rcases hswept.none_or_eq q with he | he
      · exact he
      · rw [he, hsight]
    · exact hswept.stays q sight ⟨hbelow, hne⟩ (hmem.2 hkeeps) hsight (hleaf hsight)
  · next hkeeps =>
    rcases hswept.none_or_eq q with he | he
    · exact he
    · rcases hsight : stages.worked.root.see? q with _ | sight
      · rw [he, hsight]
      · refine absurd (hmem.1 ?_) hkeeps
        exact hswept.kept q sight hbelow hne (he.trans hsight) (hleaf hsight)

/-! ### Times aside -/

/-- What an operation does, times aside, depends only on what was seen before, times aside. -/
theorem effect_untimed (operation : Operation)
    (h : ∀ q, (seen q).map Sight.untimed = (seen' q).map Sight.untimed) (q : Path) :
    (operation.effect now seen q).map Sight.untimed =
      (operation.effect now' seen' q).map Sight.untimed := by
  have hbytes (path : Path) : Operation.bytesSeen (seen path) = Operation.bytesSeen (seen' path) := by
    have hbare (sight : Option Sight) :
        Operation.bytesSeen sight = Operation.bytesSeen (sight.map Sight.untimed) := by
      rcases sight with _ | _ | _ | _ <;> rfl
    rw [hbare, h, ← hbare]
  cases operation with
  | append path bytes =>
    rw [Operation.effect_append, Operation.effect_append, Function.update_apply,
      Function.update_apply, hbytes]
    split
    · rfl
    · exact h q
  | move source target =>
    simp only [Operation.effect, Function.update_apply]
    split_ifs
    · exact h source
    · rfl
    · exact h q
  | _ =>
    simp only [Operation.effect, Function.update_apply]
    split_ifs
    · rfl
    · exact h q

theorem effects_untimed (operations : List Operation)
    (h : ∀ q, (seen q).map Sight.untimed = (seen' q).map Sight.untimed) (q : Path) :
    (Operation.effects now seen operations q).map Sight.untimed =
      (Operation.effects now' seen' operations q).map Sight.untimed := by
  induction operations generalizing seen seen' with
  | nil => exact h q
  | cons operation operations ih => exact ih (effect_untimed operation h)

/-- What a job leaves in a place that is not on the way to its directory, times aside, depends only on
what was seen there. -/
theorem Job.after_untimed {job : Job} {way : Path}
    (h : (seen q).map Sight.untimed = (seen' q).map Sight.untimed) :
    (job.after now way seen q).map Sight.untimed =
      (job.after now' way seen' q).map Sight.untimed := by
  have hentered : (entered way seen q).map Sight.untimed =
      (entered way seen' q).map Sight.untimed := by
    rw [entered, entered]
    split
    · rfl
    · exact h
  cases job with
  | idle => exact h
  | enter => exact hentered
  | deliver made =>
    by_cases hq : Written way made q
    · rw [Job.after, Job.after, effects_writing_unique now' (entered way seen') (entered way seen) hq]
      exact effects_untimed _ (fun _ => rfl) q
    · rwa [Job.after, Job.after, effects_writing_of_not_written _ _ hq,
        effects_writing_of_not_written _ _ hq]

end Build
end TemplateBindings
