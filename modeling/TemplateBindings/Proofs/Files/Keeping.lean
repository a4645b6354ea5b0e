import TemplateBindings.Proofs.Files.Company

/-!
# Work that takes nothing away

Work that makes directories and files, through whatever links, and moves files, leaves a valid file
system valid and every directory where it is (`TemplateBindings.Files.Work.Keeping`). It does not
matter how the work ends, nor what others do to the disk at the same time.
-/

namespace TemplateBindings
namespace Files

variable {ε δ α β : Type} {disk disk' mid : Disk} {operation : Operation} {path : Path}

/-- **A later disk keeps an earlier one**: it is valid if the earlier one is, and has its
directories. -/
structure Disk.Keeps (disk disk' : Disk) : Prop where
  /-- It stays valid. -/
  valid : disk.root.Valid → disk'.root.Valid
  /-- Directories stay. -/
  directory : ∀ q, disk.root.see? q = some .directory → disk'.root.see? q = some .directory

theorem Disk.Keeps.refl (disk : Disk) : disk.Keeps disk := ⟨id, fun _ => id⟩

theorem Disk.Keeps.trans (h : disk.Keeps mid) (h' : mid.Keeps disk') : disk.Keeps disk' :=
  ⟨fun hv => h'.valid (h.valid hv), fun q hq => h'.directory q (h.directory q hq)⟩

/-- **Others of which nothing is known**, and work that takes nothing away. -/
def Company.strangers : Company where
  rely _ _ := True
  own _ := Disk.Keeps
  refl _ := trivial
  trans _ _ := trivial
  nil := .refl
  append := .trans

namespace Work

/-- **Work that takes nothing away**, however it ends and whoever else is at work; what it ends with
is of a kind. -/
def Keeping (work : Work ε α) (kind : Except ε α → Prop) : Prop :=
  ∀ acts disk, work.Secures .strangers (fun result _ _ => kind result) acts disk

variable {kind kind' : Except ε α → Prop} {work : Work ε α}

theorem Keeping.pure {a : α} (h : kind (.ok a)) : Keeping (pure a) kind :=
  fun _ _ => secures_pure fun _ _ => h

theorem Keeping.throw {e : ε} (h : kind (.error e)) : Keeping (throw e) kind :=
  fun _ _ => secures_throw fun _ _ => h

theorem Keeping.ask {question : Entry → Except ε α} (h : ∀ root, kind (question root)) :
    Keeping (ask question) kind :=
  fun _ _ => secures_ask fun mid _ _ _ => h mid.root

theorem Keeping.mono (h : Keeping work kind) (hkind : ∀ result, kind result → kind' result) :
    Keeping work kind' :=
  fun acts disk => (h acts disk).mono fun result _ _ => hkind result

theorem Keeping.mapError {f : ε → δ} {kind : Except δ α → Prop}
    (h : Keeping work fun result => kind (result.mapError f)) : Keeping (work.mapError f) kind :=
  fun acts disk => (h acts disk).mapError

theorem Keeping.bind {next : α → Work ε β} {kind : Except ε β → Prop}
    (h : Keeping work fun result => match result with
      | .ok a => Keeping (next a) kind
      | .error e => kind (.error e)) : Keeping (work >>= next) kind := fun acts disk => by
  refine .bind ((h acts disk).mono ?_)
  rintro (e | a) acts disk hend
  · exact hend
  · exact hend acts disk

theorem Keeping.tryCatch {handle : ε → Work ε α} 
    (h : Keeping work fun result => match result with
      | .ok a => kind (.ok a)
      | .error e => Keeping (handle e) kind) : Keeping (tryCatch work handle) kind :=
    fun acts disk => by
  refine .tryCatch ((h acts disk).mono ?_)
  rintro (e | a) acts disk hend
  · exact hend acts disk
  · exact hend

/-- **On its own**, such work leaves a disk that keeps the one it found. -/
theorem Keeping.runOn (h : Keeping work kind) (disk : Disk) :
    disk.Keeps (work.runOn disk).2 ∧ kind (work.runOn disk).1 := by
  obtain ⟨_, hkeeps, hkind⟩ := (h [] disk).runOn
  exact ⟨hkeeps, hkind⟩

end Work

open Work

theorem keeping_perform (hr : operation.removes = false)
    (hp : ∀ p ∈ operation.places, p.Spelled) : Keeping (perform operation) fun _ => True :=
  fun _ _ => secures_perform fun mid _ => by
  refine ⟨[], ?_, fun _ _ => trivial⟩
  rw [Disk.attempt]
  split
  · next root ha =>
    exact ⟨fun hv => Operation.valid_of_apply hv hp ha,
      fun q hq => Operation.directory_of_apply hr ha hq⟩
  · exact .refl mid

theorem keeping_makeDirectory (hp : path.Spelled) :
    Keeping (perform (.makeDirectory path)) fun _ => True :=
  keeping_perform rfl fun p hm => by
    cases List.mem_singleton.1 hm
    exact hp

theorem keeping_allowDirectory (path : Path) (e : FileError) :
    Keeping (allowDirectory path e) fun _ => True := by
  rw [allowDirectory]
  split
  · exact .throw trivial
  · refine .bind (.ask fun root => ?_)
    rcases isDirectory root path with err | _ | _
    · trivial
    · exact .throw trivial
    · exact .pure trivial

theorem keeping_ensureDirectory (hp : path.Spelled) :
    Keeping (ensureDirectory path) fun _ => True := by
  refine .tryCatch ((keeping_makeDirectory hp).mono ?_)
  rintro (e | _) -
  · exact keeping_allowDirectory path e
  · trivial

theorem keeping_ensureDirectoriesRev (room : Nat) {namesRev : List Str}
    (hp : Path.Spelled namesRev.reverse) :
    Keeping (ensureDirectoriesRev room namesRev) fun _ => True := by
  induction namesRev generalizing room with
  | nil =>
    rw [ensureDirectoriesRev]
    exact keeping_ensureDirectory hp
  | cons name above ih =>
    have habove : Path.Spelled above.reverse := by
      rw [List.reverse_cons] at hp
      exact hp.of_isPrefix (List.prefix_append _ _)
    rw [ensureDirectoriesRev.eq_def]
    refine .tryCatch ((keeping_makeDirectory hp).mono ?_)
    rintro (e | _) -
    · dsimp only
      split
      · cases room with
        | zero => exact .throw trivial
        | succ room =>
          refine .bind ((ih room habove).mono ?_)
          rintro (err | _) -
          · trivial
          · exact keeping_ensureDirectory hp
      · exact keeping_allowDirectory _ e
    · trivial

/-- **Making directories takes nothing away.** -/
theorem keeping_ensureDirectories (room : Nat) (hp : path.Spelled) :
    Keeping (ensureDirectories room path) fun _ => True := by
  refine keeping_ensureDirectoriesRev room ?_
  rwa [List.reverse_reverse]

theorem keeping_write {draft : Path} (hd : draft.Spelled) (bytes : List UInt8) :
    Keeping (perform (.write draft bytes)) fun _ => True :=
  keeping_perform rfl fun p hm => by
    cases List.mem_singleton.1 hm
    exact hd

/-- **Replacing a file takes nothing away**, even where its draft is a link. -/
theorem keeping_replaceFile (hp : path.Spelled) (hdraft : ∀ draft ∈ draftOf? path, draft.Spelled)
    (bytes : List UInt8) : Keeping (replaceFile path bytes) fun _ => True := by
  rw [replaceFile]
  split
  · next draft he =>
    have hd : draft.Spelled := hdraft draft he
    refine .bind ((keeping_write hd bytes).mono ?_)
    rintro (e | _) -
    · trivial
    · refine keeping_perform rfl fun p hm => ?_
      rcases List.mem_cons.1 hm with rfl | hm
      · exact hd
      · cases List.mem_singleton.1 hm
        exact hp
  · exact .throw trivial

theorem keeping_beginFile (hdraft : ∀ draft ∈ draftOf? path, draft.Spelled) :
    Keeping (beginFile path) fun _ => True := by
  rw [beginFile]
  split
  · next draft he => exact keeping_write (hdraft draft he) []
  · exact .throw trivial

/-! ### Limits -/

theorem fits_of_allowDirectory {e : FileError} (hp : path.Proper)
    (h : ((allowDirectory path e).runOn disk).1 = .ok ()) : path.Fits := by
  rw [allowDirectory] at h
  split at h
  · cases h
  · rw [runOn_bind, runOn_ask] at h
    rcases hq : isDirectory disk.root path with err | _ | _
    · rw [hq] at h
      cases h
    · rw [hq] at h
      cases h
    · rw [isDirectory, satisfies] at hq
      split at hq
      · next hloc => exact fits_of_locate hp hloc
      · cases hq
      · split at hq <;> cases hq

theorem fits_of_makeDirectory {root : Entry} (hp : path.Proper)
    (h : (Operation.makeDirectory path).apply disk.now disk.root = .ok root) : path.Fits := by
  rw [Operation.apply_eq_ok, Operation.change] at h
  split at h
  · next hloc => exact fits_of_locate hp hloc
  · cases h
  · cases h

theorem fits_of_ensureDirectory (hp : path.Proper)
    (h : ((ensureDirectory path).runOn disk).1 = .ok ()) : path.Fits := by
  rw [ensureDirectory, runOn_tryCatch] at h
  rcases ha : (Operation.makeDirectory path).apply disk.now disk.root with e | root
  · rw [runOn_perform_error ha] at h
    exact fits_of_allowDirectory hp h
  · exact fits_of_makeDirectory hp ha

/-- **A directory that was made, or was there, is within the limits**, whatever links lead to it. -/
theorem fits_of_ensureDirectories {room : Nat} (hp : path.Proper)
    (h : ((ensureDirectories room path).runOn disk).1 = .ok ()) : path.Fits := by
  rw [ensureDirectories] at h
  rcases hrev : path.reverse with _ | ⟨name, above⟩
  · cases List.reverse_eq_nil_iff.1 hrev
    decide
  · have hpath : (name :: above).reverse = path := by rw [← hrev, List.reverse_reverse]
    rw [hrev, ensureDirectoriesRev.eq_def] at h
    dsimp only at h
    rw [runOn_tryCatch, hpath] at h
    rcases ha : (Operation.makeDirectory path).apply disk.now disk.root with e | root
    · rw [runOn_perform_error ha] at h
      dsimp only at h
      split at h
      · cases room with
        | zero => cases h
        | succ room =>
          dsimp only at h
          rcases hr : (ensureDirectoriesRev room above).runOn disk with ⟨err | ⟨⟩, mid⟩
          · rw [runOn_bind_of_error hr] at h
            cases h
          · rw [runOn_bind_of_ok hr] at h
            exact fits_of_ensureDirectory hp h
      · exact fits_of_allowDirectory hp h
    · exact fits_of_makeDirectory hp ha

end Files
end TemplateBindings
