import TemplateBindings.Proofs.Files.Alike
import TemplateBindings.Proofs.Files.Work

/-!
# Work on disks that look alike

Work that looks at a file system only through paths does not notice the order of members: on disks
that look alike it ends the same and leaves disks that look alike
(`TemplateBindings.Files.Work.Congruent`). The record of what was performed before does not matter
either.
-/

namespace TemplateBindings
namespace Files

variable {ε δ α β : Type} {disk disk' : Disk} {operation : Operation} {path : Path}

/-- **Two disks look alike**: the same is seen on both, at the same time. -/
structure Disk.Alike (disk disk' : Disk) : Prop where
  /-- The same is seen. -/
  root : disk.root.Alike disk'.root
  /-- It is the same time. -/
  now_eq : disk.now = disk'.now

theorem Disk.Alike.refl (disk : Disk) : disk.Alike disk := ⟨.refl _, rfl⟩

/-- **Two pieces of work end the same**: with the same value or error, on disks that look alike. -/
structure SameEnds (end₁ end₂ : Except ε α × Disk) : Prop where
  /-- The value or error is the same. -/
  result : end₁.1 = end₂.1
  /-- The disks look alike. -/
  disk : end₁.2.Alike end₂.2

/-- What follows the same ends ends the same. -/
theorem SameEnds.bind {work work' : Work ε α} {next next' : α → Work ε β}
    (h : SameEnds (work.runOn disk) (work'.runOn disk'))
    (hnext : ∀ a mid mid', work.runOn disk = (.ok a, mid) → mid.Alike mid' →
      SameEnds ((next a).runOn mid) ((next' a).runOn mid')) :
    SameEnds ((work >>= next).runOn disk) ((work' >>= next').runOn disk') := by
  obtain ⟨hresult, hdisk⟩ := h
  rcases hr : work.runOn disk with ⟨e | a, mid⟩ <;>
    rcases hr' : work'.runOn disk' with ⟨e' | a', mid'⟩ <;> rw [hr, hr'] at hresult hdisk
  · rw [Work.runOn_bind_of_error hr, Work.runOn_bind_of_error hr']
    exact ⟨congrArg Except.error (Except.error.inj hresult), hdisk⟩
  · cases hresult
  · cases hresult
  · cases hresult
    rw [Work.runOn_bind_of_ok hr, Work.runOn_bind_of_ok hr']
    exact hnext a mid mid' hr hdisk

namespace Work

/-- **Work that ends the same on disks that look alike.** -/
def Congruent (work : Work ε α) : Prop :=
  ∀ disk disk' : Disk, disk.Alike disk' → SameEnds (work.runOn disk) (work.runOn disk')

theorem Congruent.pure (a : α) : Congruent (pure a : Work ε α) := fun _ _ h => ⟨rfl, h⟩

theorem Congruent.throw (e : ε) : Congruent (throw e : Work ε α) := fun _ _ h => ⟨rfl, h⟩

theorem Congruent.ask {question : Entry → Except ε α}
    (hq : ∀ root root' : Entry, root.Alike root' → question root = question root') :
    Congruent (ask question) := fun disk disk' h => by
  rw [runOn_ask, runOn_ask]
  exact ⟨hq _ _ h.root, h⟩

theorem Congruent.bind {work : Work ε α} {next : α → Work ε β} (h : Congruent work)
    (hnext : ∀ a, Congruent (next a)) : Congruent (work >>= next) := fun disk disk' hd =>
  (h disk disk' hd).bind fun a mid mid' _ => hnext a mid mid'

theorem Congruent.tryCatch {work : Work ε α} {handle : ε → Work ε α} (h : Congruent work)
    (hhandle : ∀ e, Congruent (handle e)) : Congruent (tryCatch work handle) :=
    fun disk disk' hd => by
  have hends := h disk disk' hd
  rw [runOn_tryCatch, runOn_tryCatch]
  generalize work.runOn disk = first at hends ⊢
  generalize work.runOn disk' = second at hends ⊢
  obtain ⟨e | a, mid⟩ := first <;> obtain ⟨e' | a', mid'⟩ := second <;>
    obtain ⟨hresult, hdisk⟩ := hends <;> cases hresult
  · exact hhandle e mid mid' hdisk
  · exact ⟨rfl, hdisk⟩

end Work

open Work

/-! ### Operations and directories -/

theorem congruent_perform (operation : Operation) : Congruent (perform operation) := by
  intro disk disk' hd
  have hsame : SameEnd (operation.apply disk.now disk.root) (operation.apply disk.now disk'.root) :=
    sameEnd_apply hd.root operation
  rcases ha : operation.apply disk.now disk.root with e | root <;>
    rcases ha' : operation.apply disk'.now disk'.root with e' | root' <;>
    rw [← hd.now_eq] at ha' <;> rw [ha, ha'] at hsame <;> rw [hd.now_eq] at ha'
  · cases hsame
    rw [runOn_perform_error ha, runOn_perform_error ha']
    exact ⟨rfl, hd⟩
  · cases hsame
  · cases hsame
  · cases hsame with
    | ok alike =>
      rw [runOn_perform_ok ha, runOn_perform_ok ha']
      exact ⟨rfl, alike, hd.now_eq⟩

theorem congruent_allowDirectory (path : Path) (e : FileError) :
    Congruent (allowDirectory path e) := by
  rw [allowDirectory]
  split
  · exact .throw e
  · refine Congruent.bind (.ask fun root root' h => isDirectory_alike h path) fun there => ?_
    cases there
    · exact .throw e
    · exact .pure ()

theorem congruent_ensureDirectory (path : Path) : Congruent (ensureDirectory path) :=
  .tryCatch (congruent_perform _) (congruent_allowDirectory path)

theorem congruent_ensureDirectoriesRev (room : Nat) (namesRev : List Str) :
    Congruent (ensureDirectoriesRev room namesRev) := by
  induction namesRev generalizing room with
  | nil =>
    rw [ensureDirectoriesRev]
    exact congruent_ensureDirectory []
  | cons name above ih =>
    rw [ensureDirectoriesRev.eq_def]
    refine .tryCatch (congruent_perform _) fun e => ?_
    split
    · cases room with
      | zero => exact .throw _
      | succ room => exact .bind (ih room) fun _ => congruent_ensureDirectory _
    · exact congruent_allowDirectory _ e

/-- **Making directories** ends the same on disks that look alike. -/
theorem congruent_ensureDirectories (room : Nat) (path : Path) :
    Congruent (ensureDirectories room path) := congruent_ensureDirectoriesRev room _

end Files
end TemplateBindings
