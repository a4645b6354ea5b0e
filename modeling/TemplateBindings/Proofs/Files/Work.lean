import TemplateBindings.Files.Disk
import TemplateBindings.Proofs.Files.Anywhere
import TemplateBindings.Proofs.Thread.Run

/-!
# Running work

Work on a disk, run step by step: how each way of putting work together runs
(`TemplateBindings.Files.Work.runOn_bind` and its like), and how operations lead from one disk to
another (`TemplateBindings.Files.Disk.Undergoes`). What is known of such a sequence follows from its
operations alone: the disk it leads to, the record that is kept of it, and that it may be stopped
anywhere.
-/

namespace TemplateBindings
namespace Files

/-! ### Putting work together -/

namespace Work

variable {ε δ α β : Type}

@[simp] theorem runOn_pure (a : α) (disk : Disk) : (pure a : Work ε α).runOn disk = (.ok a, disk) :=
  rfl

@[simp] theorem runOn_throw (e : ε) (disk : Disk) :
    (throw e : Work ε α).runOn disk = (.error e, disk) := rfl

@[simp] theorem runOn_bind (work : Work ε α) (next : α → Work ε β) (disk : Disk) :
    (work >>= next).runOn disk =
      match work.runOn disk with
      | (.ok a, disk) => (next a).runOn disk
      | (.error e, disk) => (.error e, disk) := by
  change ((ExceptT.run work).bind (ExceptT.bindCont next)).run disk = _
  rw [Thread.run_bind, runOn]
  rcases (ExceptT.run work).run disk with ⟨_ | a, disk'⟩ <;> rfl

@[simp] theorem runOn_mapError (f : ε → δ) (work : Work ε α) (disk : Disk) :
    (work.mapError f).runOn disk = ((work.runOn disk).1.mapError f, (work.runOn disk).2) :=
  Thread.run_bind ..

@[simp] theorem runOn_tryCatch (work : Work ε α) (handle : ε → Work ε α) (disk : Disk) :
    (tryCatch work handle).runOn disk =
      match work.runOn disk with
      | (.ok a, disk) => (.ok a, disk)
      | (.error e, disk) => (handle e).runOn disk := by
  change ((ExceptT.run work).bind _).run disk = _
  rw [Thread.run_bind, runOn]
  rcases (ExceptT.run work).run disk with ⟨_ | a, disk'⟩ <;> rfl

@[simp] theorem runOn_ask (question : Entry → Except ε α) (disk : Disk) :
    (ask question).runOn disk = (question disk.root, disk) := rfl

/-- A thread in work does not fail. -/
@[simp] theorem runOn_lift (thread : Thread Disk α) (disk : Disk) :
    (liftM thread : Work ε α).runOn disk = (.ok (thread.run disk).1, (thread.run disk).2) :=
  Thread.run_bind ..

/-- Once it is known how work ends, only the disk that it leaves is open. -/
theorem runOn_eq_of_end {work : Work ε α} {disk : Disk} {result : Except ε α}
    (h : (work.runOn disk).1 = result) : work.runOn disk = (result, (work.runOn disk).2) :=
  Prod.ext h rfl

theorem runOn_eq_of_mem {work : Work ε α} {disk : Disk} {a : α}
    (h : a ∈ (work.runOn disk).1.toOption) : work.runOn disk = (.ok a, (work.runOn disk).2) := by
  refine runOn_eq_of_end ?_
  rcases hend : (work.runOn disk).1 with e | b
  · rw [hend] at h
    cases h
  · rw [hend] at h
    cases h
    rfl

/-- Work that ends well has done so in each of its parts. -/
theorem of_runOn_bind {work : Work ε α} {next : α → Work ε β} {b : β} {disk disk' : Disk}
    (h : (work >>= next).runOn disk = (.ok b, disk')) :
    ∃ a mid, work.runOn disk = (.ok a, mid) ∧ (next a).runOn mid = (.ok b, disk') := by
  rw [runOn_bind] at h
  rcases hw : work.runOn disk with ⟨_ | a, mid⟩
  · rw [hw] at h
    cases h
  · rw [hw] at h
    exact ⟨a, mid, rfl, h⟩

/-- Work that ends well has done so however its errors are seen. -/
theorem of_runOn_mapError {f : ε → δ} {work : Work ε α} {a : α} {disk disk' : Disk}
    (h : (work.mapError f).runOn disk = (.ok a, disk')) : work.runOn disk = (.ok a, disk') := by
  rw [runOn_mapError] at h
  rcases hr : work.runOn disk with ⟨e | b, mid⟩
  · rw [hr] at h
    cases h
  · rw [hr] at h
    cases h
    rfl

theorem runOn_bind_of_ok {work : Work ε α} {a : α} {disk mid : Disk}
    (h : work.runOn disk = (.ok a, mid)) (next : α → Work ε β) :
    (work >>= next).runOn disk = (next a).runOn mid := by
  rw [runOn_bind, h]

theorem runOn_bind_of_error {work : Work ε α} {e : ε} {disk mid : Disk}
    (h : work.runOn disk = (.error e, mid)) (next : α → Work ε β) :
    (work >>= next).runOn disk = (.error e, mid) := by
  rw [runOn_bind, h]

end Work

/-! ### One operation -/

/-- The disk after an operation that leaves it with a new root directory. -/
def Disk.after (disk : Disk) (operation : Operation) (root : Entry) : Disk :=
  { disk with root, performed := operation :: disk.performed }

variable {disk disk' : Disk} {root : Entry} {operation : Operation} {e : FileError}

theorem runOn_perform (operation : Operation) (disk : Disk) :
    (perform operation).runOn disk =
      ((operation.apply disk.now disk.root).map fun _ => (), disk.attempt operation) := rfl

theorem runOn_perform_ok {root : Entry} (h : operation.apply disk.now disk.root = .ok root) :
    (perform operation).runOn disk = (.ok (), disk.after operation root) := by
  rw [runOn_perform, h, Disk.attempt, h]
  rfl

theorem runOn_perform_error (h : operation.apply disk.now disk.root = .error e) :
    (perform operation).runOn disk = (.error e, disk) := by
  rw [runOn_perform, h, Disk.attempt, h]
  rfl

/-- An operation that is possible is performed. -/
theorem runOn_perform_of_possible (hd : operation.Direct disk.root)
    (h : operation.Possible disk.root) :
    ∃ root, (perform operation).runOn disk = (.ok (), disk.after operation root) ∧
      root.see? = operation.effect disk.now disk.root.see? := by
  obtain ⟨root, hroot⟩ := Operation.apply_of_possible disk.now hd h
  exact ⟨root, runOn_perform_ok hroot, (Operation.of_apply hd hroot).2⟩

/-! ### Operations one after another -/

/-- What an operation brings up is within the limits. -/
theorem Operation.Possible.fits_of_effect {root : Entry} {now : Int} {q : Path}
    (h : operation.Possible root) (hq : operation.effect now root.see? q ≠ none) :
    root.see? q ≠ none ∨ q.Fits := by
  have hupdate {seen : Seen} {path : Path} {sight : Option Sight} (hf : path.Fits)
      (hq : Function.update seen path sight q ≠ none) : seen q ≠ none ∨ q.Fits := by
    by_cases he : q = path
    · exact .inr (he ▸ hf)
    · exact .inl (by rwa [Function.update_of_ne he] at hq)
  have hremoved {seen : Seen} {path : Path} (hq : Function.update seen path none q ≠ none) :
      seen q ≠ none := by
    by_cases he : q = path
    · rw [he, Function.update_self] at hq
      exact absurd rfl hq
    · rwa [Function.update_of_ne he] at hq
  cases operation with
  | makeDirectory path => exact hupdate h.1.1 hq
  | write path bytes => exact hupdate h.1.1 hq
  | append path bytes => exact hupdate h.1.1 hq
  | move source target => exact (hupdate h.2.1.1 hq).imp_left hremoved
  | removeFile path => exact .inl (hremoved hq)
  | removeDirectory path => exact .inl (hremoved hq)

/-- **The operations that lead from one disk to another**, all of them on direct paths. -/
inductive Disk.Undergoes : Disk → List Operation → Disk → Prop
  /-- Without operations a disk stays. -/
  | nil (disk : Disk) : Undergoes disk [] disk
  /-- An operation that succeeds, and then others. -/
  | cons {disk disk' : Disk} {operation : Operation} {operations : List Operation} {root : Entry}
      (direct : operation.Direct disk.root)
      (applied : operation.apply disk.now disk.root = .ok root)
      (rest : Undergoes (disk.after operation root) operations disk') :
      Undergoes disk (operation :: operations) disk'

/-- What is seen after operations. -/
def Operation.effects (now : Int) (seen : Seen) (operations : List Operation) : Seen :=
  operations.foldl (fun seen operation => operation.effect now seen) seen

namespace Disk.Undergoes

variable {mid : Disk} {operations first second : List Operation}

theorem single {root : Entry} (hd : operation.Direct disk.root)
    (h : operation.apply disk.now disk.root = .ok root) :
    disk.Undergoes [operation] (disk.after operation root) :=
  .cons hd h (.nil _)

theorem append (h : disk.Undergoes first mid) (h' : mid.Undergoes second disk') :
    disk.Undergoes (first ++ second) disk' := by
  induction h with
  | nil disk => exact h'
  | cons hd ha _ ih => exact .cons hd ha (ih h')

/-- Operations may be stopped anywhere. -/
theorem split (h : disk.Undergoes (first ++ second) disk') :
    ∃ mid, disk.Undergoes first mid ∧ mid.Undergoes second disk' := by
  induction first generalizing disk with
  | nil => exact ⟨disk, .nil _, h⟩
  | cons operation first ih =>
    cases h with
    | cons hd ha hrest =>
      obtain ⟨mid, hfirst, hsecond⟩ := ih hrest
      exact ⟨mid, .cons hd ha hfirst, hsecond⟩

theorem now_eq (h : disk.Undergoes operations disk') : disk'.now = disk.now := by
  induction h with
  | nil => rfl
  | cons _ _ _ ih => exact ih

theorem performed_eq (h : disk.Undergoes operations disk') :
    disk'.performed = operations.reverse ++ disk.performed := by
  induction h with
  | nil => rfl
  | cons _ _ _ ih =>
    rw [ih, Disk.after, List.reverse_cons, List.append_assoc, List.singleton_append]

/-- A disk knows how it was reached. -/
theorem operations_unique {operations' : List Operation} (h : disk.Undergoes operations disk')
    (h' : disk.Undergoes operations' disk') : operations = operations' := by
  have hrecord := h.performed_eq
  rw [h'.performed_eq] at hrecord
  exact (List.reverse_injective (List.append_cancel_right hrecord)).symm

theorem see?_eq (h : disk.Undergoes operations disk') :
    disk'.root.see? = Operation.effects disk.now disk.root.see? operations := by
  induction h with
  | nil => rfl
  | cons hd ha _ ih =>
    rw [ih, Operation.effects, Operation.effects, List.foldl_cons, ← (Operation.of_apply hd ha).2]
    rfl

/-- Operations lead to one disk only. -/
theorem unique {disk₁ disk₂ : Disk} (h : disk.Undergoes operations disk₁)
    (h' : disk.Undergoes operations disk₂) : disk₁ = disk₂ := by
  induction h with
  | nil =>
    cases h'
    rfl
  | cons _ happly _ ih =>
    cases h' with
    | cons _ happly' hrest =>
      cases happly.symm.trans happly'
      exact ih hrest

/-- **Each operation that was performed was possible** when its turn came. -/
theorem possible (h : disk.Undergoes operations disk') :
    ∀ operation ∈ operations, ∃ root, operation.Possible root := by
  induction h with
  | nil => exact fun operation ho => absurd ho List.not_mem_nil
  | cons hd happly _ ih =>
    exact List.forall_mem_cons.2 ⟨⟨_, (Operation.of_apply hd happly).1⟩, ih⟩

/-- **What operations bring up is within the limits.** -/
theorem fits_of_new (h : disk.Undergoes operations disk') {q : Path}
    (hq : disk'.root.see? q ≠ none) : disk.root.see? q ≠ none ∨ q.Fits := by
  induction h with
  | nil => exact .inl hq
  | cons hd happly _ ih =>
    rcases ih hq with hmid | hf
    · obtain ⟨hpossible, hsee⟩ := Operation.of_apply hd happly
      rw [Disk.after, hsee] at hmid
      exact hpossible.fits_of_effect hmid
    · exact .inr hf

theorem valid (h : disk.Undergoes operations disk') (hv : disk.root.Valid) : disk'.root.Valid := by
  induction h with
  | nil => exact hv
  | cons hd ha _ ih => exact ih (Operation.valid_of_apply hv
      (fun p hp => (hd.places_proper p hp).spelled) ha)

end Disk.Undergoes

end Files
end TemplateBindings
