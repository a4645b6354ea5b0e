import TemplateBindings.Build.Run
import TemplateBindings.Proofs.Build.Serving

/-!
# Sources that are worked on at the same time

Work on the sources of a batch shares a disk and the list of directories that the run has tried to
make. What work on one of them may rely on is that the others perform operations for their own sources
and put their own directories on the list (`TemplateBindings.Build.reliesOn`). So what each secures
under this is what the batch comes to, whatever turns its sources take
(`TemplateBindings.Build.run_takeTurns`), and what a batch leaves is what the next one finds
(`TemplateBindings.Build.run_inBatches`).
-/

namespace TemplateBindings
namespace Build

open Files

variable {roots : Roots} {sources order batch : List Source} {s t : Source} {out d : Path}
  {opens : Source → Prop} {first second : List (Source × Operation)}

/-! ### Acts -/

/-- A disk, and the directories that a run has tried to make. -/
abbrev Shared := Disk × List Path

/-- **What work on a source does**, besides asking. -/
inductive Act where
  /-- It puts a directory on the list. -/
  | claim (directory : Path)
  /-- It performs an operation. -/
  | perform (operation : Operation)

/-- The operation of an act, if it is one. -/
def Act.operation? : Act → Option Operation
  | claim _ => none
  | perform operation => some operation

/-- The directory that an act puts on the list. -/
def Act.directory? : Act → Option Path
  | claim directory => some directory
  | perform _ => none

/-- The operations among acts. -/
def operationsOf (acts : List Act) : List Operation := acts.filterMap Act.operation?

/-- The directories that acts put on the list. -/
def claimsOf (acts : List Act) : List Path := acts.filterMap Act.directory?

@[simp] theorem operationsOf_perform (operations : List Operation) :
    operationsOf (operations.map .perform) = operations := by
  rw [operationsOf, List.filterMap_map]
  exact List.filterMap_some

@[simp] theorem claimsOf_perform (operations : List Operation) :
    claimsOf (operations.map .perform) = [] := by
  rw [claimsOf, List.filterMap_map, List.filterMap_eq_nil_iff]
  exact fun _ _ => rfl

theorem operationsOf_append (first second : List Act) :
    operationsOf (first ++ second) = operationsOf first ++ operationsOf second :=
  List.filterMap_append ..

theorem claimsOf_append (first second : List Act) :
    claimsOf (first ++ second) = claimsOf first ++ claimsOf second :=
  List.filterMap_append ..

/-! ### Relying on others -/

/-- **What work on a source relies on**: the others perform operations for their sources, and put
their directories on the list if they may. -/
structure ReliesOn (out : Path) (batch : List Source) (opens : Source → Prop) (source : Source)
    (before after : Shared) : Prop where
  /-- The others perform operations. -/
  performs : ∃ operations, Disk.Performs (ServesAny out (batch.filter (· ≠ source))) operations
    before.1 after.1
  /-- The list grows. -/
  grows : ∀ d ∈ before.2, d ∈ after.2
  /-- What is new there is the directory of another source. -/
  claims : ∀ d ∈ after.2, d ∈ before.2 ∨
    ∃ t ∈ batch, t ≠ source ∧ opens t ∧ d = t.directory out

/-- **What work on a source does**: it performs operations for its source, and puts its directory on
the list if it may. -/
structure DoesOwn (out : Path) (opens : Source → Prop) (source : Source) (acts : List Act)
    (before after : Shared) : Prop where
  /-- It performs operations. -/
  performs : Disk.Performs (Serves out source) (operationsOf acts) before.1 after.1
  /-- It puts directories on the list. -/
  mem_iff : ∀ d, d ∈ after.2 ↔ d ∈ before.2 ∨ d ∈ claimsOf acts
  /-- They are its own. -/
  claims : ∀ d ∈ claimsOf acts, opens source ∧ d = source.directory out

theorem DoesOwn.nil (out : Path) (opens : Source → Prop) (source : Source) (shared : Shared) :
    DoesOwn out opens source [] shared shared :=
  ⟨.nil _ _, by simp [claimsOf], by simp [claimsOf]⟩

theorem ReliesOn.refl (out : Path) (batch : List Source) (opens : Source → Prop) (source : Source)
    (shared : Shared) : ReliesOn out batch opens source shared shared :=
  ⟨⟨[], .nil _ _⟩, fun _ => id, fun _ => .inl⟩

theorem ReliesOn.trans {a b c : Shared} (h : ReliesOn out batch opens s a b)
    (h' : ReliesOn out batch opens s b c) : ReliesOn out batch opens s a c := by
  obtain ⟨first, hfirst⟩ := h.performs
  obtain ⟨second, hsecond⟩ := h'.performs
  refine ⟨⟨_, hfirst.append hsecond⟩, fun d hd => h'.grows d (h.grows d hd), fun d hd => ?_⟩
  rcases h'.claims d hd with hd | hd
  · exact h.claims d hd
  · exact .inr hd

/-- **Work on one source is what work on another relies on.** -/
theorem rely_batch (hnodup : batch.Nodup) :
    Thread.Rely batch (ReliesOn out batch opens) (DoesOwn out opens) where
  nodup := hnodup
  refl := .refl out batch opens
  trans _ _ _ _ := .trans
  own s hs t ht hne acts a b h := by
    refine ⟨⟨_, h.performs.mono fun operation ho => ⟨s, ?_, ho⟩⟩,
      fun d hd => (h.mem_iff d).2 (.inl hd), fun d hd => ?_⟩
    · exact List.mem_filter.2 ⟨hs, by simpa using hne⟩
    · rcases (h.mem_iff d).1 hd with hd | hd
      · exact .inl hd
      · obtain ⟨hopens, he⟩ := h.claims d hd
        exact .inr ⟨s, hs, hne, hopens, he⟩

/-! ### What a batch does -/

/-- **What was done for sources**, in the order in which it was done. -/
structure Does (out : Path) (batch : List Source) (opens : Source → Prop)
    (acts : List (Source × Act)) (before after : Shared) : Prop where
  /-- Operations were performed. -/
  performs : Disk.Performs (ServesAny out batch) (operationsOf (acts.map Prod.snd)) before.1 after.1
  /-- Each is for its source. -/
  serves : ∀ act ∈ acts, act.1 ∈ batch ∧ ∀ operation, act.2 = .perform operation →
    Serves out act.1 operation
  /-- Directories were put on the list. -/
  mem_iff : ∀ d, d ∈ after.2 ↔ d ∈ before.2 ∨ ∃ t, (t, Act.claim d) ∈ acts
  /-- They are those of their sources. -/
  claims : ∀ t d, (t, Act.claim d) ∈ acts → opens t ∧ d = t.directory out

namespace Does

variable {more : List (Source × Act)} {acts : List (Source × Act)} {a b c : Shared}

theorem nil (out : Path) (batch : List Source) (opens : Source → Prop) (shared : Shared) :
    Does out batch opens [] shared shared :=
  ⟨.nil _ _, by simp, by simp, by simp⟩

theorem append (h : Does out batch opens acts a b) (h' : Does out batch opens more b c) :
    Does out batch opens (acts ++ more) a c where
  performs := by
    rw [List.map_append, operationsOf_append]
    exact h.performs.append h'.performs
  serves act hact := (List.mem_append.1 hact).elim (h.serves act) (h'.serves act)
  mem_iff d := by
    rw [h'.mem_iff, h.mem_iff, or_assoc, ← exists_or]
    simp only [List.mem_append]
  claims t d hmem := (List.mem_append.1 hmem).elim (h.claims t d) (h'.claims t d)

theorem mono (h : Does out batch opens acts a b) (hsub : ∀ s ∈ batch, s ∈ order) :
    Does out order opens acts a b where
  performs := h.performs.mono fun _ ⟨t, ht, ho⟩ => ⟨t, hsub t ht, ho⟩
  serves act hact := (h.serves act hact).imp_left (hsub _)
  mem_iff := h.mem_iff
  claims := h.claims

/-- What is done in one step of work on one of the sources. -/
theorem of_oneOf (h : Thread.OneOf batch (DoesOwn out opens) acts a b) :
    Does out batch opens acts a b := by
  obtain ⟨s, hs, own, rfl, hown⟩ := h
  have hacts : (own.map fun act => (s, act)).map Prod.snd = own := by
    rw [List.map_map]
    exact List.map_id own
  refine ⟨?_, fun act hact => ?_, fun d => ?_, fun t d hmem => ?_⟩
  · rw [hacts]
    exact hown.performs.mono fun _ ho => ⟨s, hs, ho⟩
  · obtain ⟨act, hmem, rfl⟩ := List.mem_map.1 hact
    refine ⟨hs, fun operation he => hown.performs.allowed operation ?_⟩
    cases he
    exact List.mem_filterMap.2 ⟨_, hmem, rfl⟩
  · rw [hown.mem_iff, claimsOf, List.mem_filterMap]
    refine or_congr_right ⟨?_, ?_⟩
    · rintro ⟨_ | _, hact, he⟩
      · cases he
        exact ⟨s, List.mem_map_of_mem hact⟩
      · cases he
    · rintro ⟨t, hmem⟩
      obtain ⟨act, hact, he⟩ := List.mem_map.1 hmem
      cases he
      exact ⟨_, hact, rfl⟩
  · obtain ⟨act, hact, he⟩ := List.mem_map.1 hmem
    cases he
    exact hown.claims d (List.mem_filterMap.2 ⟨_, hact, rfl⟩)

end Does

/-- The work on the sources of a batch. -/
def workOnBatch (roots : Roots) (sources batch : List Source) :
    List (Source × Thread Shared Outcome) :=
  batch.map fun s => (s, workOn roots sources s)

/-- **A batch comes to what work on each of its sources secures**, whatever turns they take. -/
theorem run_takeTurns (opens : Source → Prop) (sources : List Source)
    {post : Source → Outcome → List Act → Shared → Prop} {shared : Shared} (hnodup : batch.Nodup)
    (h : ∀ s ∈ batch, (workOn roots sources s).Secures (ReliesOn out batch opens s)
      (DoesOwn out opens s) (post s) [] shared) (turns : List Nat) :
    ∃ acts,
      Does out batch opens acts shared
        ((Thread.takeTurns turns [] (workOnBatch roots sources batch)).run shared).2 ∧
      Thread.AllEnded batch post
        ((Thread.takeTurns turns [] (workOnBatch roots sources batch)).run shared).1 acts
        ((Thread.takeTurns turns [] (workOnBatch roots sources batch)).run shared).2 := by
  have hcrew : Thread.Crew batch (ReliesOn out batch opens) (DoesOwn out opens) post [] shared []
      (workOnBatch roots sources batch) := by
    refine ⟨?_, by simp, fun m hm => ?_⟩
    · rw [workOnBatch, List.map_map]
      exact .of_eq (List.map_id batch)
    · obtain ⟨s, hs, rfl⟩ := List.mem_map.1 hm
      exact h s hs
  have hsecures := (hcrew.secures_takeTurns (rely_batch hnodup) turns).mono
    (fun _ _ _ => Does.of_oneOf) fun _ _ _ => id
  exact hsecures.run (fun _ => rfl) (Does.nil out batch opens) Does.append

/-- A batch of a plan that names each source once. -/
theorem batch_of_plan {plan earlier later : List (List Source)} (hnodup : plan.flatten.Nodup)
    (hplan : plan = earlier ++ batch :: later) :
    batch.Nodup ∧ ∀ s ∈ batch, s ∈ plan.flatten ∧ s ∉ earlier.flatten ∧ s ∉ later.flatten := by
  rw [hplan, List.flatten_append, List.flatten_cons] at hnodup
  obtain ⟨-, hrest, hearlier⟩ := List.nodup_append.1 hnodup
  obtain ⟨hbatch, -, hlater⟩ := List.nodup_append.1 hrest
  refine ⟨hbatch, fun s hs => ⟨?_, fun he => ?_, fun hl => hlater s hs s hl rfl⟩⟩
  · rw [hplan, List.flatten_append, List.flatten_cons]
    exact List.mem_append_right _ (List.mem_append_left _ hs)
  · exact hearlier s he s (List.mem_append_left _ hs) rfl

/-- The work on the sources of a plan. -/
def workOnPlan (roots : Roots) (sources : List Source) (plan : List (List Source)) :
    List (List (Source × Thread Shared Outcome)) :=
  plan.map (workOnBatch roots sources)

/-- **What batches come to**, if each of them keeps something, and what it comes to for its own sources
lasts. -/
theorem run_inBatches (opens : Source → Prop) (sources : List Source) {plan : List (List Source)}
    (inv : List Source → Shared → Prop) (post : Source → Outcome → List Act → Shared → Prop)
    (shared : Shared) (hnodup : plan.flatten.Nodup)
    (hpersist : ∀ {s outcome acts more a b}, Does out plan.flatten opens more a b →
      post s outcome acts a → post s outcome acts b)
    (hbatch : ∀ earlier batch later, plan = earlier ++ batch :: later → ∀ turns shared,
      inv earlier.flatten shared →
        ∃ acts,
          Does out batch opens acts shared
            ((Thread.takeTurns turns [] (workOnBatch roots sources batch)).run shared).2 ∧
          Thread.AllEnded batch post
            ((Thread.takeTurns turns [] (workOnBatch roots sources batch)).run shared).1 acts
            ((Thread.takeTurns turns [] (workOnBatch roots sources batch)).run shared).2 ∧
          inv (earlier ++ [batch]).flatten
            ((Thread.takeTurns turns [] (workOnBatch roots sources batch)).run shared).2)
    (hinv : inv [] shared) (turns : List (List Nat)) :
    ∃ acts,
      Does out plan.flatten opens acts shared
        ((Thread.inBatches turns (workOnPlan roots sources plan)).run shared).2 ∧
      Thread.AllEnded plan.flatten post
        ((Thread.inBatches turns (workOnPlan roots sources plan)).run shared).1 acts
        ((Thread.inBatches turns (workOnPlan roots sources plan)).run shared).2 ∧
      inv plan.flatten ((Thread.inBatches turns (workOnPlan roots sources plan)).run shared).2 := by
  suffices h : ∀ later earlier, plan = earlier ++ later → ∀ turns shared,
      inv earlier.flatten shared → ∃ acts,
        Does out later.flatten opens acts shared
          ((Thread.inBatches turns (workOnPlan roots sources later)).run shared).2 ∧
        Thread.AllEnded later.flatten post
          ((Thread.inBatches turns (workOnPlan roots sources later)).run shared).1 acts
          ((Thread.inBatches turns (workOnPlan roots sources later)).run shared).2 ∧
        inv plan.flatten
          ((Thread.inBatches turns (workOnPlan roots sources later)).run shared).2 from
    h plan [] rfl turns shared hinv
  intro later
  induction later with
  | nil =>
    rintro earlier hplan turns shared hinv
    rw [List.append_nil] at hplan
    exact ⟨[], .nil _ _ _ _, ⟨.nil, fun _ hm => absurd hm List.not_mem_nil⟩, hplan ▸ hinv⟩
  | cons batch later ih =>
    intro earlier hplan turns shared hinv
    obtain ⟨first, hdoes, ⟨hperm, hpost⟩, hmid⟩ :=
      hbatch earlier batch later hplan (turns.headD []) shared hinv
    obtain ⟨second, hdoes', ⟨hperm', hpost'⟩, hlast⟩ :=
      ih (earlier ++ [batch]) (by rw [hplan, List.append_assoc]; rfl) turns.tail _ hmid
    have hdisjoint : ∀ s ∈ batch, s ∉ later.flatten := fun s hs =>
      ((batch_of_plan hnodup hplan).2 s hs).2.2
    rw [workOnPlan, List.map_cons, Thread.run_inBatches_cons]
    refine ⟨first ++ second, ?_, ⟨?_, fun m hm => ?_⟩, hlast⟩
    · exact (hdoes.mono fun s hs => List.mem_append_left _ hs).append
        (hdoes'.mono fun s hs => List.mem_append_right _ hs)
    · rw [List.map_append, List.flatten_cons]
      exact hperm.append hperm'
    · have hlater : ∀ s ∈ later.flatten, s ∈ plan.flatten := fun s hs => by
        rw [hplan, List.flatten_append, List.flatten_cons]
        exact List.mem_append_right _ (List.mem_append_right _ hs)
      rw [Thread.actsOf_append]
      rcases List.mem_append.1 hm with hm | hm
      · have hs : m.1 ∈ batch := hperm.subset (List.mem_map_of_mem hm)
        have hnone : Thread.actsOf m.1 second = [] := Thread.actsOf_eq_nil fun act hact he =>
          hdisjoint _ hs (he ▸ (hdoes'.serves act hact).1)
        rw [hnone, List.append_nil]
        exact hpersist (hdoes'.mono hlater) (hpost m hm)
      · have hs : m.1 ∈ later.flatten := hperm'.subset (List.mem_map_of_mem hm)
        have hnone : Thread.actsOf m.1 first = [] := Thread.actsOf_eq_nil fun act hact he =>
          hdisjoint _ (he ▸ (hdoes.serves act hact).1) hs
        rw [hnone, List.nil_append]
        exact hpost' m hm

/-! ### The work of a run -/

/-- The operations among what was done. -/
def traceOf (acts : List (Source × Act)) : List (Source × Operation) :=
  acts.filterMap fun act => act.2.operation?.map fun operation => (act.1, operation)

theorem map_snd_traceOf (acts : List (Source × Act)) :
    (traceOf acts).map Prod.snd = operationsOf (acts.map Prod.snd) := by
  rw [traceOf, List.map_filterMap, operationsOf, List.filterMap_map]
  refine congrArg (List.filterMap · acts) (funext fun act => ?_)
  rcases act with ⟨t, d | operation⟩ <;> rfl

theorem actsOf_traceOf (s : Source) (acts : List (Source × Act)) :
    Thread.actsOf s (traceOf acts) = operationsOf (Thread.actsOf s acts) := by
  induction acts with
  | nil => rfl
  | cons act acts ih =>
    obtain ⟨t, act⟩ := act
    have hcons : (t, act) :: acts = [act].map (fun act => (t, act)) ++ acts := rfl
    rw [hcons, Thread.actsOf_append, operationsOf_append, ← ih, traceOf, List.filterMap_append,
      Thread.actsOf_append, ← traceOf, ← traceOf]
    congr 1
    by_cases hts : t = s
    · subst hts
      rw [Thread.actsOf_self]
      cases act with
      | claim d => rfl
      | perform operation => exact Thread.actsOf_self t [operation]
    · rw [Thread.actsOf_other hts]
      refine Thread.actsOf_eq_nil fun m hm => ?_
      obtain ⟨x, hx, he⟩ := List.mem_filterMap.1 hm
      cases List.mem_singleton.1 hx
      obtain ⟨operation, -, rfl⟩ := Option.map_eq_some_iff.1 he
      exact hts

/-- **The work of a run**: the operations that were performed, each for a source, and an outcome for
each source. -/
structure Worked (out : Path) (order : List Source) (trace : List (Source × Operation))
    (disk disk' : Disk) (outcomes : List (Source × Outcome)) : Prop where
  /-- The operations lead from the one disk to the other. -/
  performs : Disk.Performs (ServesAny out order) (trace.map Prod.snd) disk disk'
  /-- Each is for its source. -/
  serves : ∀ m ∈ trace, m.1 ∈ order ∧ Serves out m.1 m.2
  /-- Each source has an outcome. -/
  perm : (outcomes.map Prod.fst).Perm order

theorem Does.worked {acts : List (Source × Act)} {a b : Shared}
    {outcomes : List (Source × Outcome)} (h : Does out batch opens acts a b)
    (hperm : (outcomes.map Prod.fst).Perm batch) :
    Worked out batch (traceOf acts) a.1 b.1 outcomes where
  performs := map_snd_traceOf acts ▸ h.performs
  serves m hm := by
    obtain ⟨act, hact, he⟩ := List.mem_filterMap.1 hm
    obtain ⟨operation, ho, rfl⟩ := Option.map_eq_some_iff.1 he
    obtain ⟨hmem, hserves⟩ := h.serves act hact
    refine ⟨hmem, hserves operation ?_⟩
    rcases act with ⟨t, _ | _⟩
    · cases ho
    · cases ho
      rfl
  perm := hperm

/-- What a run does with its sources, on a disk with an empty list beside it. -/
theorem run_workThrough (roots : Roots) (sources : List Source) (turns : List (List Nat))
    (plan : List (List Source)) (disk : Disk) :
    (workThrough roots sources turns plan).run disk =
      (((Thread.inBatches turns (workOnPlan roots sources plan)).run (disk, [])).1,
        ((Thread.inBatches turns (workOnPlan roots sources plan)).run (disk, [])).2.1) := by
  rw [workThrough, Thread.run_keeping]
  rfl

end Build
end TemplateBindings
