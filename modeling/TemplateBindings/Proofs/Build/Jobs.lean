import TemplateBindings.Proofs.Build.Trace

/-!
# Jobs

Where the places of all sources are ready, there is room for their directories and the inputs are
not reached through the outputs, what a run does for each source is settled before it does anything
(`TemplateBindings.Build.jobOf`): nothing, making its directory, or delivering files that are known.
What is seen in a place afterwards is either what was seen before or settled by the job of one source
(`TemplateBindings.Build.Job.leaves_or_settles`), so that the jobs may be done in any order
(`TemplateBindings.Build.afterJobs_perm`).
-/

namespace TemplateBindings
namespace Build

open Files

variable {disk disk' : Disk} {roots : Roots} {sources order order' todo : List Source}
  {plan : List (List Source)} {s t source : Source} {out way q : Path}
  {start files files' view : Entry} {made : List (Str × Str)} {file : Str × Str} {now : Int}
  {seen : Seen} {sight : Option Sight} {outcomes : List (Source × Outcome)}
  {trace : List (Source × Operation)}

/-! ### One job -/

/-- **The job of a source.** -/
inductive Job where
  /-- It is refused, or its module is current. -/
  | idle
  /-- Its directory is made, and then there is an error. -/
  | enter
  /-- Its files are written in its directory. -/
  | deliver (made : List (Str × Str))
  deriving DecidableEq, Repr

/-- **The job that a source is**, by what is due for it. -/
def jobOf (files : Entry) (roots : Roots) (sources : List Source) (source : Source) : Job :=
  match staleMarker? files roots source (source.stylesheet? sources) with
  | .ok (some _) =>
    match due files roots sources source with
    | .ok (some made) => .deliver made
    | _ => .enter
  | _ => .idle

/-- What is seen once a directory and those above it are made. -/
def entered (way : Path) (seen : Seen) : Seen := fun q =>
  if q <+: way then some .directory else seen q

/-- **What is seen after a job.** -/
def Job.after (now : Int) (way : Path) (seen : Seen) : Job → Seen
  | idle => seen
  | enter => entered way seen
  | deliver made => Operation.effects now (entered way seen) (writing way made)

namespace Job

variable {job other : Job}

/-- A job leaves a place as it was. -/
def Leaves (now : Int) (way : Path) (job : Job) (q : Path) : Prop :=
  ∀ seen, job.after now way seen q = seen q

/-- A job settles what is seen in a place. -/
def Settles (now : Int) (way : Path) (job : Job) (q : Path) (sight : Option Sight) : Prop :=
  ∀ seen, job.after now way seen q = sight

/-- The places that a job may change. -/
def Concerns (way : Path) (job : Job) (q : Path) : Prop :=
  match job with
  | idle => False
  | enter => q <+: way
  | deliver made => q <+: way ∨ Written way made q

theorem not_written_above (h : q <+: way) : ¬ Written way made q := by
  intro hw
  obtain ⟨file, -, rfl | rfl⟩ := hw.of_file
  · exact absurd h.length_le (by simp)
  · exact absurd h.length_le (by simp)

theorem leaves_of_not_concerns (h : ¬ job.Concerns way q) : job.Leaves now way q := by
  intro seen
  cases job with
  | idle => rfl
  | enter => exact if_neg h
  | deliver made =>
    obtain ⟨hway, hwritten⟩ := not_or.1 h
    rw [after, effects_writing_of_not_written now _ hwritten]
    exact if_neg hway

/-- A job that works in a directory has it made, with those above it. -/
theorem settles_directory (hjob : job ≠ idle) (h : q <+: way) :
    job.Settles now way q (some .directory) := by
  intro seen
  cases job with
  | idle => exact absurd rfl hjob
  | enter => exact if_pos h
  | deliver made =>
    rw [after, effects_writing_of_not_written now _ (not_written_above h)]
    exact if_pos h

theorem concerns_way (hjob : job ≠ idle) (h : q <+: way) : job.Concerns way q := by
  cases job with
  | idle => exact absurd rfl hjob
  | enter => exact h
  | deliver made => exact .inl h

theorem Concerns.ne_idle (h : job.Concerns way q) : job ≠ idle := by
  rintro rfl
  exact h

theorem Settles.unique (h : job.Settles now way q sight) {sight' : Option Sight}
    (h' : job.Settles now way q sight') : sight' = sight := by
  rw [← h fun _ => none, h' fun _ => none]

theorem not_leaves_of_settles (h : job.Settles now way q sight) : ¬ job.Leaves now way q := by
  intro hleaves
  have hnone : none = sight := (hleaves fun _ => none).symm.trans (h _)
  have hdir : some .directory = sight := (hleaves fun _ => some .directory).symm.trans (h _)
  rw [← hnone] at hdir
  cases hdir

/-- **What a job does not leave it settles.** -/
theorem settles_of_concerns (now : Int) (h : job.Concerns way q) :
    ∃ sight, job.Settles now way q sight := by
  cases job with
  | idle => exact h.elim
  | enter => exact ⟨_, settles_directory (by simp) h⟩
  | deliver made =>
    rcases h with h | h
    · exact ⟨_, settles_directory (by simp) h⟩
    · exact ⟨_, fun seen => effects_writing_unique now _ (fun _ => none) h⟩

theorem leaves_or_settles (now : Int) (way : Path) (job : Job) (q : Path) :
    job.Leaves now way q ∨ ∃ sight, job.Settles now way q sight := by
  by_cases h : job.Concerns way q
  · exact .inr (settles_of_concerns now h)
  · exact .inl (leaves_of_not_concerns h)

end Job

/-! ### The jobs of sources -/

theorem jobOf_deliver :
    jobOf files roots sources source = .deliver made ↔
      due files roots sources source = .ok (some made) := by
  rw [jobOf]
  constructor
  · intro h
    split at h
    · split at h
      · next hdue => rw [hdue, Job.deliver.inj h]
      · cases h
    · cases h
  · intro h
    obtain ⟨marker, -, hstale, -⟩ := of_due h
    rw [hstale, h]

theorem jobOf_idle :
    jobOf files roots sources source = .idle ↔ ¬ IsStale files roots sources source := by
  rw [jobOf, IsStale]
  split
  · next marker hstale =>
    refine ⟨fun h => ?_, fun h => absurd ⟨marker, hstale⟩ h⟩
    split at h <;> cases h
  · next hno => exact ⟨fun _ ⟨marker, hstale⟩ => hno marker hstale, fun _ => rfl⟩

/-- Sources with the same job are stale alike. -/
theorem isStale_of_jobOf_eq
    (h : jobOf files roots sources source = jobOf files' roots sources source)
    (hstale : IsStale files roots sources source) : IsStale files' roots sources source := by
  by_contra hnot
  exact jobOf_idle.1 (h.trans (jobOf_idle.2 hnot)) hstale

/-- **The job of a source depends on its inputs and on the marker of its module** alone. -/
theorem jobOf_congr (hview : InView view roots.input sources source) (h : view.Holds files)
    (h' : view.Holds files')
    (hmodule : existingMarker files (source.outputs roots.output).module =
      existingMarker files' (source.outputs roots.output).module) :
    jobOf files roots sources source = jobOf files' roots sources source := by
  rw [jobOf, jobOf, staleMarker?_congr hview h h' hmodule, due_congr hview h h' hmodule]

theorem isPlace_of_written {artifacts : GeneratedModule.Artifacts} (h : source.Regular)
    (hq : Written (source.directory out) (artifactFiles source.name artifacts) q) :
    IsPlace out source q := by
  obtain ⟨file, hfile, hq | hq⟩ := hq.of_file
  · exact .inl ((Source.mem_outputs h).2 ⟨_, mem_outputNames_of_artifactFiles hfile, hq⟩)
  · exact .inr ((Source.mem_drafts h).2 ⟨_, mem_outputNames_of_artifactFiles hfile, hq⟩)

/-- The job of a source concerns its places and the way to them. -/
theorem concerns_jobOf (h : source.Regular)
    (hq : (jobOf files roots sources source).Concerns (source.directory out) q) :
    q <+: source.directory out ∨ IsPlace out source q := by
  cases hjob : jobOf files roots sources source with
  | idle =>
    rw [hjob] at hq
    exact hq.elim
  | enter =>
    rw [hjob] at hq
    exact .inl hq
  | deliver made =>
    rw [hjob] at hq
    obtain ⟨marker, artifacts, -, -, rfl, -⟩ := of_due (jobOf_deliver.1 hjob)
    exact hq.imp_right (isPlace_of_written h)

/-- **The places of a source are of no concern to another.** -/
theorem Orderly.not_concerns (ho : Orderly out order) (hs : s ∈ order) (ht : t ∈ order)
    (hne : s ≠ t) (hq : IsPlace out s q) :
    ¬ (jobOf files roots sources t).Concerns (t.directory out) q := by
  intro hconcerns
  obtain ⟨habove, hnot⟩ := ho.not_isPlace hs ht hne hq
  exact (concerns_jobOf (ho.regular t ht) hconcerns).elim habove hnot

/-! ### Jobs one after another -/

/-- **What is seen after the jobs of some sources.** -/
def afterJobs (now : Int) (out : Path) (jobs : Source → Job) (todo : List Source) (seen : Seen) :
    Seen :=
  todo.foldl (fun seen s => (jobs s).after now (s.directory out) seen) seen

variable {jobs : Source → Job}

theorem afterJobs_cons (now : Int) (out : Path) (jobs : Source → Job) (s : Source)
    (todo : List Source) (seen : Seen) :
    afterJobs now out jobs (s :: todo) seen =
      afterJobs now out jobs todo ((jobs s).after now (s.directory out) seen) := rfl

/-- A place that all jobs leave is left. -/
theorem afterJobs_of_leaves (h : ∀ s ∈ todo, (jobs s).Leaves now (s.directory out) q) :
    afterJobs now out jobs todo seen q = seen q := by
  induction todo generalizing seen with
  | nil => rfl
  | cons s todo ih =>
    rw [afterJobs_cons, ih fun t ht => h t (List.mem_cons_of_mem _ ht)]
    exact h s List.mem_cons_self seen

/-- A place stays as it is seen if all jobs leave it or settle it so. -/
theorem afterJobs_of_eq (hseen : seen q = sight)
    (h : ∀ s ∈ todo, (jobs s).Leaves now (s.directory out) q ∨
      (jobs s).Settles now (s.directory out) q sight) :
    afterJobs now out jobs todo seen q = sight := by
  induction todo generalizing seen with
  | nil => exact hseen
  | cons s todo ih =>
    rw [afterJobs_cons]
    refine ih ?_ fun t ht => h t (List.mem_cons_of_mem _ ht)
    rcases h s List.mem_cons_self with hleaves | hsettles
    · rw [hleaves seen, hseen]
    · exact hsettles seen

/-- **A place that a job settles is settled**, if the others leave it or settle it the same. -/
theorem afterJobs_of_settles (hs : s ∈ todo)
    (hsettles : (jobs s).Settles now (s.directory out) q sight)
    (hothers : ∀ t ∈ todo, (jobs t).Leaves now (t.directory out) q ∨
      (jobs t).Settles now (t.directory out) q sight) :
    afterJobs now out jobs todo seen q = sight := by
  induction todo generalizing seen with
  | nil => cases hs
  | cons t todo ih =>
    have hrest := fun u hu => hothers u (List.mem_cons_of_mem _ hu)
    rw [afterJobs_cons]
    rcases List.mem_cons.1 hs with rfl | hs
    · exact afterJobs_of_eq (hsettles seen) hrest
    · exact ih hs hrest

/-- **Jobs that agree may be done in any order.** -/
theorem afterJobs_perm (hperm : order.Perm order')
    (hagree : ∀ s ∈ order, ∀ t ∈ order, ∀ q sight,
      (jobs s).Settles now (s.directory out) q sight →
        (jobs t).Leaves now (t.directory out) q ∨ (jobs t).Settles now (t.directory out) q sight) :
    afterJobs now out jobs order seen = afterJobs now out jobs order' seen := by
  funext q
  by_cases h : ∃ s ∈ order, ∃ sight, (jobs s).Settles now (s.directory out) q sight
  · obtain ⟨s, hs, sight, hsettles⟩ := h
    rw [afterJobs_of_settles hs hsettles fun t ht => hagree s hs t ht q sight hsettles,
      afterJobs_of_settles (hperm.mem_iff.1 hs) hsettles fun t ht =>
        hagree s hs t (hperm.mem_iff.2 ht) q sight hsettles]
  · have hleaves (s : Source) (hs : s ∈ order) : (jobs s).Leaves now (s.directory out) q :=
      (Job.leaves_or_settles now _ _ q).resolve_right fun ⟨sight, hsettles⟩ =>
        h ⟨s, hs, sight, hsettles⟩
    rw [afterJobs_of_leaves hleaves, afterJobs_of_leaves fun s hs => hleaves s (hperm.mem_iff.2 hs)]

/-- **The jobs of sources that keep clear of each other agree.** -/
theorem Orderly.agree (ho : Orderly out order) (hs : s ∈ order) (ht : t ∈ order)
    (hsettles : (jobOf files roots sources s).Settles now (s.directory out) q sight) :
    (jobOf files roots sources t).Leaves now (t.directory out) q ∨
      (jobOf files roots sources t).Settles now (t.directory out) q sight := by
  by_cases hconcerns : (jobOf files roots sources t).Concerns (t.directory out) q
  · right
    by_cases hst : s = t
    · exact hst ▸ hsettles
    have hs' : (jobOf files roots sources s).Concerns (s.directory out) q := by
      by_contra hnot
      exact Job.not_leaves_of_settles hsettles (Job.leaves_of_not_concerns hnot)
    -- both concern the place, so that it is a directory on the way to both
    have hway : q <+: t.directory out :=
      (concerns_jobOf (ho.regular t ht) hconcerns).resolve_right fun h =>
        ho.not_concerns ht hs (Ne.symm hst) h hs'
    have hway' : q <+: s.directory out :=
      (concerns_jobOf (ho.regular s hs) hs').resolve_right fun h =>
        ho.not_concerns hs ht hst h hconcerns
    rw [← hsettles.unique (Job.settles_directory hs'.ne_idle hway')]
    exact Job.settles_directory hconcerns.ne_idle hway
  · exact .inl (Job.leaves_of_not_concerns hconcerns)

/-! ### The jobs of a run -/

/-- **A run whose jobs are settled** before it starts to work: the places of its sources are ready,
there is room for their directories, none of which is contended, and their inputs are in view without
the outputs. -/
structure Steady (roots : Roots) (sources : List Source) (plan : List (List Source))
    (start : Entry) : Prop extends Prepared roots.output plan.flatten start where
  /-- The root of the outputs is not the root directory. -/
  ne_nil : roots.output ≠ []
  /-- There is room for the directories that are to be made. -/
  roomy : ∀ s ∈ plan.flatten, IsStale start roots sources s →
    (s.directory roots.output).Roomy start directoryRoom
  /-- No source is contended. -/
  calm : ∀ s ∈ plan.flatten, ¬ Contended start roots sources plan s
  /-- The inputs are in view without the outputs. -/
  view : ∀ s ∈ plan.flatten, InPlainView start roots sources s

/-- **What comes of a source in a run that is settled**: what is due for it at the start. -/
structure Settled (start : Entry) (roots : Roots) (sources : List Source) (source : Source)
    (outcome : Outcome) (operations : List Operation) : Prop where
  /-- The outcome. -/
  outcome_eq : outcome = outcomeOf roots.output source (due start roots sources source)
  /-- Directories are made, and then what is due is written. -/
  operations_eq : ∃ directories, Making (source.directory roots.output) directories ∧
    (¬ IsStale start roots sources source → directories = []) ∧
    operations =
      directories ++ writesOf (source.directory roots.output) (due start roots sources source)

theorem writesOf_of_not_isStale (h : ¬ IsStale files roots sources s) (way : Path) :
    writesOf way (due files roots sources s) = [] := by
  rw [due]
  rcases hm : staleMarker? files roots s (s.stylesheet? sources) with e | _ | marker
  · rfl
  · rfl
  · exact absurd ⟨marker, hm⟩ h

theorem Turn.settled_of_free {hindrance : Prop} {outcome : Outcome} {operations : List Operation}
    (h : Turn start roots sources s hindrance outcome operations)
    (hfree : IsStale start roots sources s → ¬ hindrance) :
    Settled start roots sources s outcome operations := by
  cases h with
  | idle hstale =>
    refine ⟨rfl, [], Making.nil _, fun _ => rfl, ?_⟩
    rw [writesOf_of_not_isStale hstale, List.append_nil]
  | settled hstale hmaking => exact ⟨rfl, _, hmaking, fun hnot => absurd hstale hnot, rfl⟩
  | hindered hstale hhinders => exact absurd hhinders (hfree hstale)

/-- The operations that are written are those of the job. -/
theorem written_of_jobOf {operation : Operation}
    (h : operation ∈ writesOf way (due files roots sources s)) (hq : q ∈ operation.places) :
    (jobOf files roots sources s).Concerns way q := by
  rcases hdue : due files roots sources s with e | _ | made
  · rw [hdue] at h
    cases h
  · rw [hdue] at h
    cases h
  · rw [hdue] at h
    rw [jobOf_deliver.2 hdue]
    exact .inr ⟨operation, h, hq⟩

/-- The operations for a source are its job's. -/
theorem Settled.concerns {outcome : Outcome} {operations : List Operation} {operation : Operation}
    (h : Settled start roots sources s outcome operations) (ho : operation ∈ operations)
    (hq : q ∈ operation.places) :
    (jobOf start roots sources s).Concerns (s.directory roots.output) q := by
  obtain ⟨directories, hmaking, hidle, rfl⟩ := h.operations_eq
  rcases List.mem_append.1 ho with ho | ho
  · obtain ⟨way, hway, rfl⟩ := hmaking operation ho
    cases List.mem_singleton.1 hq
    have hne : jobOf start roots sources s ≠ .idle := fun he => by
      rw [hidle (jobOf_idle.1 he)] at ho
      cases ho
    exact Job.concerns_way hne hway
  · exact written_of_jobOf ho hq

/-- **In the places of the source** the operations do what the job does. -/
theorem Settled.effects_eq {outcome : Outcome} {operations : List Operation}
    (h : Settled start roots sources s outcome operations) (hs : s.Regular)
    (hq : IsPlace roots.output s q) (now : Int) (seen : Seen) :
    Operation.effects now seen operations q =
      (jobOf start roots sources s).after now (s.directory roots.output) seen q := by
  obtain ⟨directories, hmaking, -, rfl⟩ := h.operations_eq
  have hseen : Operation.effects now seen directories q = seen q :=
    effects_making_own hs hmaking hq
  have hentered : entered (s.directory roots.output) seen q = seen q := if_neg (hq.not_above hs)
  rw [effects_append]
  cases hjob : jobOf start roots sources s with
  | idle =>
    rw [writesOf_of_not_isStale (jobOf_idle.1 hjob)]
    exact hseen
  | enter =>
    have hnone : writesOf (s.directory roots.output) (due start roots sources s) = [] := by
      rcases hdue : due start roots sources s with e | _ | made
      · rfl
      · rfl
      · cases hjob.symm.trans (jobOf_deliver.2 hdue)
    rw [hnone]
    exact hseen.trans hentered.symm
  | deliver made =>
    rw [jobOf_deliver.1 hjob, writesOf, Job.after]
    by_cases hw : Written (s.directory roots.output) made q
    · exact effects_writing_unique now _ _ hw
    · rw [effects_writing_of_not_written now _ hw, effects_writing_of_not_written now _ hw, hseen,
        hentered]

/-- **The work of a run that is settled.** -/
structure Done (roots : Roots) (sources order : List Source) (disk disk' : Disk)
    (outcomes : List (Source × Outcome)) (trace : List (Source × Operation)) : Prop where
  /-- The operations are for the sources, and lead from the one disk to the other. -/
  worked : Worked roots.output order trace disk disk' outcomes
  /-- What is due for each source is done. -/
  settled : ∀ o ∈ outcomes, Settled disk.root roots sources o.1 o.2 (Thread.actsOf o.1 trace)
  /-- The directories of stale sources are there. -/
  entered : ∀ s ∈ order, IsStale disk.root roots sources s →
    disk'.root.see? (s.directory roots.output) = some .directory

theorem Steady.done (h : Steady roots sources plan disk.root) (turns : List (List Nat)) :
    ∃ trace, Done roots sources plan.flatten disk
      ((workThrough roots sources turns plan).run disk).2
      ((workThrough roots sources turns plan).run disk).1 trace := by
  obtain ⟨trace, hworked, hcomes, hentered⟩ := h.toPrepared.through h.ne_nil sources turns
  refine ⟨trace, hworked, fun o ho => ?_, fun s hs hstale =>
    hentered s hs ⟨h.view s hs, hstale, h.roomy s hs hstale⟩⟩
  have hs : o.1 ∈ plan.flatten := hworked.perm.subset (List.mem_map_of_mem ho)
  exact (hcomes o ho (h.view _ hs)).settled_of_free fun hstale hhinders =>
    hhinders.elim (fun hroom => hroom (h.roomy _ hs hstale)) (h.calm _ hs)

/-- Each source has what is due for it done. -/
theorem Done.settled_of_mem (h : Done roots sources order disk disk' outcomes trace)
    (hs : s ∈ order) : ∃ outcome, Settled disk.root roots sources s outcome (Thread.actsOf s trace) := by
  obtain ⟨o, ho, rfl⟩ := List.mem_map.1 (h.worked.perm.symm.subset hs)
  exact ⟨_, h.settled o ho⟩

/-- **What is seen after the work** of a run that is settled is what is seen after the jobs of its
sources. -/
theorem Done.see?_eq (h : Done roots sources order disk disk' outcomes trace)
    (ho : Orderly roots.output order) :
    disk'.root.see? =
      afterJobs disk.now roots.output (jobOf disk.root roots sources) order disk.root.see? := by
  funext q
  by_cases hq : ∃ s ∈ order, (jobOf disk.root roots sources s).Concerns (s.directory roots.output) q
  · obtain ⟨s, hs, hconcerns⟩ := hq
    obtain ⟨sight, hsettles⟩ := Job.settles_of_concerns disk.now hconcerns
    rw [afterJobs_of_settles hs hsettles fun t ht => ho.agree hs ht hsettles]
    rcases concerns_jobOf (ho.regular s hs) hconcerns with hway | hplace
    · have hstale : IsStale disk.root roots sources s := by
        by_contra hnot
        rw [jobOf_idle.2 hnot] at hconcerns
        exact hconcerns
      rw [← hsettles.unique (Job.settles_directory hconcerns.ne_idle hway)]
      exact Entry.see?_directory_of_prefix_directory hway (h.entered s hs hstale)
    · obtain ⟨outcome, hsettled⟩ := h.settled_of_mem hs
      rw [h.worked.performs.undergoes.see?_eq, ho.effects_own hs h.worked.serves hplace,
        hsettled.effects_eq (ho.regular s hs) hplace]
      exact hsettles _
  · rw [afterJobs_of_leaves fun s hs => Job.leaves_of_not_concerns fun hc => hq ⟨s, hs, hc⟩,
      h.worked.performs.undergoes.see?_eq]
    refine effects_of_not_mem _ _ fun operation hop hmem => hq ?_
    obtain ⟨m, hm, rfl⟩ := List.mem_map.1 hop
    obtain ⟨hs, -⟩ := h.worked.serves m hm
    obtain ⟨outcome, hsettled⟩ := h.settled_of_mem hs
    exact ⟨m.1, hs, hsettled.concerns (List.mem_map.2 ⟨m, List.mem_filter.2 ⟨hm, by simp⟩, rfl⟩) hmem⟩

end Build
end TemplateBindings
