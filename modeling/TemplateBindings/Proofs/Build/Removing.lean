import TemplateBindings.Proofs.Build.Due
import TemplateBindings.Proofs.Build.Sweeping

/-!
# Removing what is stale

The removals of a sweep are performed in their order. If all goes well, everything in the directory
of the outputs is gone afterwards but what was kept, and the directories above it
(`TemplateBindings.Build.Sweeps.gone`). All goes well if no directory is too deep and everything that
is not kept is within the limits (`TemplateBindings.Build.removeStale_isOk`).
-/

namespace TemplateBindings
namespace Build

open Files

variable {room : Nat} {keep : List Path} {path q out : Path} {entry : Entry}
  {members : List (Str × Entry)} {rest below : List Str} {name : Str} {operation : Operation}
  {disk disk' : Disk} {removals : List (Except FileError Operation)}
  {operations : List Operation} {root : Entry} {seen : Seen}

/-! ### Performing removals -/

/-- **The paths of the removals** that a sweep finds, in their order. -/
def Sweep.paths (found : Sweep) : List Path :=
  (found.removals.filterMap Except.toOption).filterMap removedPath?

/-- Performs removals in their order, up to the first error. -/
def removing (removals : List (Except FileError Operation)) : Work FileError Unit :=
  removals.forM fun removal => do perform (← MonadExcept.ofExcept removal)

theorem runOn_removing_error (e : FileError) (removals : List (Except FileError Operation))
    (disk : Disk) : (removing (.error e :: removals)).runOn disk = (.error e, disk) := rfl

theorem runOn_removing_ok (operation : Operation) (removals : List (Except FileError Operation))
    (disk : Disk) :
    (removing (.ok operation :: removals)).runOn disk =
      match (perform operation).runOn disk with
      | (.ok _, mid) => (removing removals).runOn mid
      | (.error e, mid) => (.error e, mid) := by
  change (perform operation >>= fun _ => removing removals).runOn disk = _
  rw [Work.runOn_bind]
  rcases (perform operation).runOn disk with ⟨e | ⟨⟩, mid⟩ <;> rfl

theorem runOn_removing_append (first second : List (Except FileError Operation)) {mid : Disk}
    (h : (removing first).runOn disk = (.ok (), mid)) :
    (removing (first ++ second)).runOn disk = (removing second).runOn mid := by
  induction first generalizing disk with
  | nil =>
    cases h
    rfl
  | cons removal first ih =>
    rcases removal with e | operation
    · rw [runOn_removing_error] at h
      cases h
    · rw [runOn_removing_ok] at h
      rw [List.cons_append, runOn_removing_ok]
      rcases hr : (perform operation).runOn disk with ⟨e | ⟨⟩, mid'⟩
      · rw [hr] at h
        cases h
      · rw [hr] at h
        exact ih h

/-- An operation that takes something away, at the end of a path that meets no link on its way. -/
def IsRemoval (root : Entry) (operation : Operation) : Prop :=
  ∃ path, Operation.IsDirect root path ∧
    (operation = .removeFile path ∨ operation = .removeDirectory path)

theorem IsRemoval.direct (h : IsRemoval root operation) : operation.Direct root := by
  obtain ⟨path, hd, rfl | rfl⟩ := h
  · exact hd
  · exact hd

/-- What is seen after something was taken away. -/
theorem effect_of_removedPath? (h : removedPath? operation = some path) (now : Int) (seen : Seen)
    (q : Path) : operation.effect now seen q = if path = q then none else seen q := by
  have hupdate (other : Path) (he : some other = some path) :
      Function.update seen other none q = if path = q then none else seen q := by
    rw [Option.some.inj he, Function.update_apply]
    by_cases hq : q = path
    · rw [if_pos hq, if_pos hq.symm]
    · rw [if_neg hq, if_neg (Ne.symm hq)]
  cases operation with
  | removeFile other => exact hupdate other h
  | removeDirectory other => exact hupdate other h
  | makeDirectory _ | write _ _ | append _ _ | move _ _ => cases h

theorem IsRemoval.removedPath? (h : IsRemoval root operation) :
    ∃ path, Build.removedPath? operation = some path := by
  obtain ⟨path, -, rfl | rfl⟩ := h
  · exact ⟨path, rfl⟩
  · exact ⟨path, rfl⟩

theorem IsRemoval.of_see? {root' : Entry} (h : IsRemoval root operation)
    (hsee : ∀ q, root'.see? q = none ∨ root'.see? q = root.see? q) : IsRemoval root' operation := by
  obtain ⟨path, ⟨hne, hp, hs⟩, he⟩ := h
  refine ⟨path, ⟨hne, hp, fun way hway hneq target hl => ?_⟩, he⟩
  rcases hsee way with hn | hsame
  · rw [hn] at hl
    cases hl
  · exact hs way hway hneq target (hsame ▸ hl)

/-- What is seen after removals. -/
theorem effects_removals (h : ∀ operation ∈ operations, ∃ path, removedPath? operation = some path)
    (now : Int) (seen : Seen) (q : Path) :
    Operation.effects now seen operations q =
      if q ∈ operations.filterMap removedPath? then none else seen q := by
  induction operations generalizing seen with
  | nil => rfl
  | cons operation operations ih =>
    obtain ⟨path, hpath⟩ := h operation List.mem_cons_self
    have hrest := ih (fun o ho => h o (List.mem_cons_of_mem _ ho)) (operation.effect now seen)
    rw [Operation.effects] at hrest ⊢
    rw [List.foldl_cons, hrest, effect_of_removedPath? hpath, List.filterMap_cons_some hpath]
    by_cases hq : q ∈ operations.filterMap removedPath?
    · rw [if_pos hq, if_pos (List.mem_cons_of_mem _ hq)]
    · rw [if_neg hq]
      by_cases hr : path = q
      · rw [if_pos hr, if_pos (hr ▸ List.mem_cons_self)]
      · rw [if_neg hr, if_neg]
        intro hmem
        rcases List.mem_cons.1 hmem with he | hmem
        · exact hr he.symm
        · exact hq hmem

/-- **Removals are performed** in their order, up to their end if it ends well. -/
theorem removing_undergoes
    (h : ∀ operation, .ok operation ∈ removals → IsRemoval disk.root operation) :
    ∃ operations, disk.Undergoes operations ((removing removals).runOn disk).2 ∧
      (∀ operation ∈ operations, .ok operation ∈ removals) ∧
      (((removing removals).runOn disk).1 = .ok () → removals = operations.map .ok) := by
  induction removals generalizing disk with
  | nil => exact ⟨[], .nil _, by simp, fun _ => rfl⟩
  | cons removal removals ih =>
    rcases removal with e | operation
    · rw [runOn_removing_error]
      exact ⟨[], .nil _, by simp, nofun⟩
    · have hremoval := h operation List.mem_cons_self
      rw [runOn_removing_ok]
      rcases ha : operation.apply disk.now disk.root with e | root
      · rw [runOn_perform_error ha]
        exact ⟨[], .nil _, by simp, nofun⟩
      · rw [runOn_perform_ok ha]
        have hgo := Disk.Undergoes.single hremoval.direct ha
        have hsee (q : Path) : root.see? q = none ∨ root.see? q = disk.root.see? q := by
          obtain ⟨path, hpath⟩ := hremoval.removedPath?
          rw [(Operation.of_apply hremoval.direct ha).2, effect_of_removedPath? hpath]
          split
          · exact .inl rfl
          · exact .inr rfl
        have hrest (o : Operation) (ho : .ok o ∈ removals) :
            IsRemoval (disk.after operation root).root o :=
          (h o (List.mem_cons_of_mem _ ho)).of_see? hsee
        obtain ⟨operations, hundergoes, hmem, hall⟩ := ih hrest
        refine ⟨operation :: operations, hgo.append hundergoes, fun o ho => ?_, fun hok => ?_⟩
        · rcases List.mem_cons.1 ho with rfl | ho
          · exact List.mem_cons_self
          · exact List.mem_cons_of_mem _ (hmem o ho)
        · rw [List.map_cons, ← hall hok]

/-- Nothing appears while removals are performed, whatever links their paths go through. -/
theorem removing_none_or_eq
    (h : ∀ operation, .ok operation ∈ removals → operation.removes = true) (q : Path) :
    ((removing removals).runOn disk).2.root.see? q = none ∨
      ((removing removals).runOn disk).2.root.see? q = disk.root.see? q := by
  induction removals generalizing disk with
  | nil => exact .inr rfl
  | cons removal removals ih =>
    rcases removal with e | operation
    · rw [runOn_removing_error]
      exact .inr rfl
    · rw [runOn_removing_ok]
      rcases ha : operation.apply disk.now disk.root with e | root
      · rw [runOn_perform_error ha]
        exact .inr rfl
      · rw [runOn_perform_ok ha]
        have hrest := @ih (disk.after operation root)
          fun o ho => h o (List.mem_cons_of_mem _ ho)
        rcases hrest with he | he
        · exact .inl he
        · dsimp only
          rw [he]
          exact Operation.none_or_eq_of_apply (h _ List.mem_cons_self) ha q

mutual

/-- A sweep only takes away. -/
theorem removes_of_mem_sweep : (entry : Entry) → (room : Nat) → (path : Path) →
    .ok operation ∈ (sweep room keep path entry).removals → operation.removes = true
  | .directory members, 0, path, h => by
    rw [sweep] at h
    cases List.mem_singleton.1 h
  | .directory members, room + 1, path, h => by
    rw [sweep, Sweep.closeDirectory] at h
    split at h
    · exact removes_of_mem_sweepMembers members room path h
    · rcases List.mem_append.1 h with h | h
      · exact removes_of_mem_sweepMembers members room path h
      · cases List.mem_singleton.1 h
        rfl
  | .file bytes modified, room, path, h => by
    rw [sweep] at h
    · split at h
      · cases h
      · cases List.mem_singleton.1 h
        rfl
    · simp
  | .link target, room, path, h => by
    rw [sweep] at h
    · split at h
      · cases h
      · cases List.mem_singleton.1 h
        rfl
    · simp

theorem removes_of_mem_sweepMembers : (members : List (Str × Entry)) → (room : Nat) →
    (path : Path) → .ok operation ∈ (sweepMembers room keep path members).removals →
      operation.removes = true
  | [], room, path, h => by
    rw [sweepMembers] at h
    cases h
  | (name, entry) :: rest, room, path, h => by
    rw [sweepMembers] at h
    rcases List.mem_append.1 h with h | h
    · exact removes_of_mem_sweep entry room _ h
    · exact removes_of_mem_sweepMembers rest room path h

end

/-- **Nothing appears in a sweep**, wherever its directory leads. -/
theorem removeStale_none_or_eq (room : Nat) (out : Path) (keep : List Path) (disk : Disk)
    (q : Path) :
    ((removeStale room out keep).runOn disk).2.root.see? q = none ∨
      ((removeStale room out keep).runOn disk).2.root.see? q = disk.root.see? q := by
  rw [removeStale, Work.runOn_bind, Work.runOn_ask]
  dsimp only
  split
  · next members _ =>
    have hremoves (o : Operation)
        (ho : .ok o ∈ (sweep room keep out (Entry.directory members).sorted).removals) :
        o.removes = true := removes_of_mem_sweep _ room out ho
    have hnone := @removing_none_or_eq disk _ hremoves q
    rw [Work.runOn_bind]
    rw [removing] at hnone
    rcases hr : ((sweep room keep out (Entry.directory members).sorted).removals.forM fun removal => do
      perform (← MonadExcept.ofExcept removal) : Work FileError Unit).runOn disk with ⟨e | ⟨⟩, mid⟩
    · rw [hr] at hnone
      exact hnone
    · rw [hr] at hnone
      exact hnone
  · exact .inr rfl

/-! ### What is stale in a directory -/

/-- **Something kept stands at a place or below it.** -/
def Kept (files : Entry) (keep : List Path) (q : Path) : Prop :=
  ∃ below sight, q <+: below ∧ files.see? below = some sight ∧ sight ≠ .directory ∧ below ∈ keep

/-- A directory that a sweep has no room to enter. -/
def TooDeep (files : Entry) (room : Nat) (out q : Path) : Prop :=
  out <+: q ∧ files.see? q = some .directory ∧ out.length + room ≤ q.length

instance (files : Entry) (room : Nat) (out : Path) : Decidable (∀ q, ¬ TooDeep files room out q) :=
  decidable_of_iff (∀ q, files.see? q ≠ none → out <+: q → files.see? q = some .directory →
      q.length < out.length + room)
    ⟨fun h q ⟨hq, hdir, hlen⟩ => absurd (h q (by simp [hdir]) hq hdir) (by omega),
      fun h q _ hq hdir => by
        by_contra hlen
        exact h q ⟨hq, hdir, by omega⟩⟩

/-- **An operation that a sweep may perform**: it takes away what is there, where nothing at that
place or below it is kept or too deep. -/
def Takes (files : Entry) (room : Nat) (out : Path) (keep : List Path) (operation : Operation) :
    Prop :=
  ∃ q, out <+: q ∧ removedPath? operation = some q ∧
    ((operation = .removeFile q ∧ ∃ sight, files.see? q = some sight ∧ sight ≠ .directory) ∨
      (operation = .removeDirectory q ∧ files.see? q = some .directory)) ∧
    ¬ Kept files keep q ∧ ∀ deep, q <+: deep → ¬ TooDeep files room out deep

/-- **What a sweep leaves.** -/
structure Sweeps (room : Nat) (out : Path) (keep : List Path) (disk : Disk)
    (result : Except FileError (List Path) × Disk) (operations : List Operation) : Prop where
  /-- The operations lead to the disk that is left. -/
  undergoes : disk.Undergoes operations result.2
  /-- Each is one that it may perform. -/
  takes : ∀ operation ∈ operations, Takes disk.root room out keep operation
  /-- If it ends well, it says what it removed. -/
  paths_eq : ∀ paths, result.1 = .ok paths → paths = operations.filterMap removedPath?
  /-- If it ends well, no directory was too deep. -/
  shallow : ∀ paths, result.1 = .ok paths → ∀ q, ¬ TooDeep disk.root room out q
  /-- If it ends well, everything was removed that is not kept. -/
  complete : ∀ paths, result.1 = .ok paths → ∀ q, out <+: q → disk.root.see? q ≠ none →
    ¬ Kept disk.root keep q → q ∈ paths

/-- What blocks below the root of a sweep is kept or too deep. -/
theorem blocks_iff (hsee : ∀ rest, entry.see? rest = root.see? (out ++ rest)) :
    Blocks room keep out entry rest ↔
      (∃ sight, root.see? (out ++ rest) = some sight ∧ sight ≠ .directory ∧ out ++ rest ∈ keep) ∨
        TooDeep root room out (out ++ rest) := by
  rw [Blocks, hsee, TooDeep, List.length_append]
  refine or_congr_right ⟨fun h => ⟨List.prefix_append _ _, h.1, by omega⟩, fun h => ⟨h.2.1, ?_⟩⟩
  have hlen := h.2.2
  omega

/-- Where nothing blocks, nothing is kept and nothing is too deep. -/
theorem not_blocks_iff (hsee : ∀ rest, entry.see? rest = root.see? (out ++ rest)) :
    (∀ below, rest <+: below → ¬ Blocks room keep out entry below) ↔
      ¬ Kept root keep (out ++ rest) ∧
        ∀ deep, out ++ rest <+: deep → ¬ TooDeep root room out deep := by
  constructor
  · intro h
    refine ⟨?_, fun deep hpre htoo => ?_⟩
    · rintro ⟨below, sight, ⟨tail, rfl⟩, hs, hne, hk⟩
      rw [List.append_assoc] at hs hk
      exact h (rest ++ tail) (List.prefix_append _ _)
        ((blocks_iff hsee).2 (.inl ⟨sight, hs, hne, hk⟩))
    · obtain ⟨tail, rfl⟩ := hpre
      rw [List.append_assoc] at htoo
      exact h (rest ++ tail) (List.prefix_append _ _) ((blocks_iff hsee).2 (.inr htoo))
  · rintro ⟨hkept, hdeep⟩ below hbelow hb
    have hpre : out ++ rest <+: out ++ below := (List.prefix_append_right_inj out).2 hbelow
    rcases (blocks_iff hsee).1 hb with ⟨sight, hs, hne, hk⟩ | htoo
    · exact hkept ⟨_, sight, hpre, hs, hne, hk⟩
    · exact hdeep _ hpre htoo

/-- A sweep, run on its own, goes through the listing of its directory in order. -/
theorem runOn_removeStale_of_at? (hout : OutputRoot disk.root out)
    (hat : disk.root.at? out = some (.directory members)) :
    (removeStale room out keep).runOn disk =
      match (removing (sweep room keep out (Entry.directory members).sorted).removals).runOn disk with
      | (.ok _, mid) =>
        (.ok (sweep room keep out (Entry.directory members).sorted).paths, mid)
      | (.error e, mid) => (.error e, mid) := by
  have hentry : entryAt? disk.root out = some (.directory members) := by
    rw [entryAt?, locate_found hout.proper hout.fits hat (by simp)]
  rw [removeStale, Work.runOn_bind, Work.runOn_ask, hentry]
  dsimp only
  rw [Work.runOn_bind]
  rw [removing]
  rcases ((sweep room keep out (Entry.directory members).sorted).removals.forM fun removal => do
    perform (← MonadExcept.ofExcept removal) : Work FileError Unit).runOn disk with ⟨e | ⟨⟩, mid⟩
  · rfl
  · rfl

/-- The sweep of a directory sees what is seen there. -/
theorem runOn_removeStale (hv : disk.root.Valid) (hout : OutputRoot disk.root out) :
    ∃ entry, entry.Valid ∧ (∀ rest, entry.see? rest = disk.root.see? (out ++ rest)) ∧
      (removeStale room out keep).runOn disk =
        match (removing (sweep room keep out entry).removals).runOn disk with
        | (.ok _, mid) => (.ok (sweep room keep out entry).paths, mid)
        | (.error e, mid) => (.error e, mid) := by
  obtain ⟨members, hat⟩ := Entry.see?_eq_some_directory.1 hout.directory
  have hvm := hv.at? hat
  refine ⟨(Entry.directory members).sorted, Entry.Valid.sorted _ hvm, fun rest => ?_,
    runOn_removeStale_of_at? hout hat⟩
  rw [Entry.see?_sorted hvm, Entry.see?_append_of_at? hat]

/-- The root directory is never taken away. -/
theorem apply_removeDirectory_nil (now : Int) (root root' : Entry) :
    (Operation.removeDirectory []).apply now root ≠ .ok root' := by
  intro h
  rw [Operation.apply_eq_ok, Operation.change,
    locate_eq_walk (fun _ hm => absurd hm List.not_mem_nil) (by decide), walk_nil] at h
  cases h

/-- Where removals end well, each of them was performed. -/
theorem exists_apply_of_removing (hok : ((removing removals).runOn disk).1 = .ok ())
    (h : .ok operation ∈ removals) :
    ∃ (mid : Disk) (root : Entry), operation.apply mid.now mid.root = .ok root := by
  induction removals generalizing disk with
  | nil => cases h
  | cons removal removals ih =>
    rcases removal with e | first
    · rw [runOn_removing_error] at hok
      cases hok
    · rw [runOn_removing_ok] at hok
      rcases ha : first.apply disk.now disk.root with e | root
      · rw [runOn_perform_error ha] at hok
        cases hok
      · rw [runOn_perform_ok ha] at hok
        rcases List.mem_cons.1 h with he | h
        · cases he
          exact ⟨disk, root, ha⟩
        · exact ih hok h

/-- What a sweep finds to remove it may take away. -/
theorem SweepSpec.takes {found : Sweep} (h : SweepSpec room keep out entry found)
    (hsee : ∀ rest, entry.see? rest = root.see? (out ++ rest))
    (ho : .ok operation ∈ found.removals) : Takes root room out keep operation := by
  obtain ⟨rest, hremoval, hb⟩ := h.removed operation ho
  obtain ⟨hkept, hdeep⟩ := (not_blocks_iff hsee).1 hb
  refine ⟨out ++ rest, List.prefix_append _ _, hremoval.removedPath?, ?_, hkept, hdeep⟩
  rw [Removal, hsee] at hremoval
  exact hremoval

/-- What may be taken away is at the end of a path that meets no link, if it is not the root
directory. -/
theorem Takes.isRemoval (h : Takes root room out keep operation) (hv : root.Valid)
    (hroot : root.see? [] = some .directory) (hne : operation ≠ .removeDirectory []) :
    IsRemoval root operation := by
  obtain ⟨q, -, -, hkind, -, -⟩ := h
  have hthere : root.see? q ≠ none := by
    rcases hkind with ⟨-, sight, hs, -⟩ | ⟨-, hs⟩ <;> rw [hs] <;> simp
  have hnil : q ≠ [] := by
    rintro rfl
    rcases hkind with ⟨-, sight, hs, hdir⟩ | ⟨rfl, -⟩
    · exact hdir (Option.some.inj (hs.symm.trans hroot))
    · exact hne rfl
  refine ⟨q, ⟨hnil, hv.proper hthere, fun way hway hneq target hl => ?_⟩,
    hkind.imp And.left And.left⟩
  rw [Entry.see?_directory_of_prefix hway hneq hthere] at hl
  cases hl

/-- **A sweep takes away what it may**, and if it ends well, all that is stale. A sweep of the root
directory ends well only if the root directory is not to be taken away itself. -/
theorem removeStale_sweeps (room : Nat) (keep : List Path) (hv : disk.root.Valid)
    (hne : out = [] → ∃ paths, ((removeStale room out keep).runOn disk).1 = .ok paths)
    (hout : OutputRoot disk.root out) :
    ∃ operations, Sweeps room out keep disk ((removeStale room out keep).runOn disk) operations := by
  obtain ⟨entry, hve, hsee, hrun⟩ := runOn_removeStale hv hout
  have hspec : SweepSpec room keep out entry (sweep room keep out entry) := sweep_spec entry hve _ _
  have htakes (operation : Operation)
      (ho : .ok operation ∈ (sweep room keep out entry).removals) :
      Takes disk.root room out keep operation := hspec.takes hsee ho
  have hremovals (operation : Operation)
      (ho : .ok operation ∈ (sweep room keep out entry).removals) :
      IsRemoval disk.root operation := by
    refine (htakes operation ho).isRemoval hv hout.root ?_
    -- a sweep that ends well has performed all its removals, and this one fails
    rintro rfl
    obtain ⟨q, hq, hpath, -⟩ := htakes _ ho
    obtain ⟨paths, hok⟩ := hne (List.prefix_nil.1 (Option.some.inj hpath ▸ hq))
    have hend : ((removing (sweep room keep out entry).removals).runOn disk).1 = .ok () := by
      rw [hrun] at hok
      rcases hr : (removing (sweep room keep out entry).removals).runOn disk with ⟨e | ⟨⟩, mid⟩
      · rw [hr] at hok
        cases hok
      · rfl
    obtain ⟨mid, root, ha⟩ := exists_apply_of_removing hend ho
    exact apply_removeDirectory_nil _ _ _ ha
  obtain ⟨operations, hundergoes, hmem, hall⟩ := removing_undergoes hremovals
  rw [hrun]
  rcases hr : (removing (sweep room keep out entry).removals).runOn disk with ⟨e | ⟨⟩, mid⟩
  · rw [hr] at hundergoes
    exact ⟨operations, hundergoes, fun o ho => htakes o (hmem o ho), nofun, nofun, nofun⟩
  · rw [hr] at hundergoes hall
    have hall := hall rfl
    have hpaths : (sweep room keep out entry).paths = operations.filterMap removedPath? := by
      rw [Sweep.paths, hall, List.filterMap_map]
      congr 1
      exact List.filterMap_some
    have hshallow (rest : List Str) (hd : entry.see? rest = some .directory) :
        rest.length < room := by
      by_contra hlen
      obtain ⟨e, he⟩ := hspec.deep rest hd (by omega)
      rw [hall] at he
      obtain ⟨o, -, ho⟩ := List.mem_map.1 he
      cases ho
    have htoo (q : Path) : ¬ TooDeep disk.root room out q := by
      rintro ⟨⟨rest, rfl⟩, hd, hlen⟩
      have hlt := hshallow rest ((hsee rest).trans hd)
      rw [List.length_append] at hlen
      omega
    refine ⟨operations, hundergoes, fun o ho => htakes o (hmem o ho), fun paths hp => ?_,
      fun _ _ => htoo, fun paths hp q hq hs hk => ?_⟩
    · rw [← Except.ok.inj hp, hpaths]
    · obtain ⟨rest, rfl⟩ := hq
      obtain ⟨o, ho, hpath⟩ := hspec.complete hshallow rest (by rwa [hsee])
        ((not_blocks_iff hsee).2 ⟨hk, fun deep _ => htoo deep⟩)
      rw [← Except.ok.inj hp]
      refine List.mem_filterMap.2 ⟨o, List.mem_filterMap.2 ⟨.ok o, ho, rfl⟩, hpath⟩

/-! ### What is left -/

section Left

variable {result : Except FileError (List Path) × Disk}

theorem Sweeps.effects (h : Sweeps room out keep disk result operations) (q : Path) :
    result.2.root.see? q =
      if q ∈ operations.filterMap removedPath? then none else disk.root.see? q := by
  rw [h.undergoes.see?_eq, effects_removals]
  intro operation ho
  obtain ⟨q, -, hq, -⟩ := h.takes operation ho
  exact ⟨q, hq⟩

/-- **What is kept stays**, and so do the directories above it. -/
theorem Sweeps.stays (h : Sweeps room out keep disk result operations)
    (hk : Kept disk.root keep q) : result.2.root.see? q = disk.root.see? q := by
  rw [h.effects, if_neg]
  intro hmem
  obtain ⟨operation, ho, hq⟩ := List.mem_filterMap.1 hmem
  obtain ⟨q', -, hq', -, hnot, -⟩ := h.takes operation ho
  rw [hq] at hq'
  exact hnot (Option.some.inj hq' ▸ hk)

/-- **Nothing outside is touched.** -/
theorem Sweeps.outside (h : Sweeps room out keep disk result operations) (hq : ¬ out <+: q) :
    result.2.root.see? q = disk.root.see? q := by
  rw [h.effects, if_neg]
  intro hmem
  obtain ⟨operation, ho, hpath⟩ := List.mem_filterMap.1 hmem
  obtain ⟨q', hout, hq', -⟩ := h.takes operation ho
  rw [hpath] at hq'
  exact hq (Option.some.inj hq' ▸ hout)

/-- **What was removed is within the limits.** -/
theorem Sweeps.fits (h : Sweeps room out keep disk result operations)
    (hq : q ∈ operations.filterMap removedPath?) : q.Fits := by
  obtain ⟨operation, ho, hpath⟩ := List.mem_filterMap.1 hq
  obtain ⟨root, hpossible⟩ := h.undergoes.possible operation ho
  obtain ⟨q', -, hq', ⟨rfl, -⟩ | ⟨rfl, -⟩, -⟩ := h.takes operation ho
  · cases hpath.symm.trans hq'
    exact hpossible.1.1
  · cases hpath.symm.trans hq'
    exact hpossible.1.1

/-- Nothing appears. -/
theorem Sweeps.none_or_eq (h : Sweeps room out keep disk result operations) (q : Path) :
    result.2.root.see? q = none ∨ result.2.root.see? q = disk.root.see? q := by
  rw [h.effects]
  split
  · exact .inl rfl
  · exact .inr rfl

/-- **What is too deep stays.** -/
theorem Sweeps.tooDeep (h : Sweeps room out keep disk result operations)
    (hdeep : TooDeep disk.root room out q) : TooDeep result.2.root room out q := by
  refine ⟨hdeep.1, ?_, hdeep.2.2⟩
  rw [h.effects, if_neg]
  · exact hdeep.2.1
  · -- nothing is removed above what is too deep
    intro hmem
    obtain ⟨operation, ho, hpath⟩ := List.mem_filterMap.1 hmem
    obtain ⟨q', -, hq', -, -, hshallow⟩ := h.takes operation ho
    rw [hpath] at hq'
    cases hq'
    exact hshallow q List.prefix_rfl hdeep

/-- **What is not kept is gone** if a sweep ends well. -/
theorem Sweeps.gone {paths : List Path} (h : Sweeps room out keep disk result operations)
    (hok : result.1 = .ok paths) (hq : out <+: q) (hk : ¬ Kept disk.root keep q) :
    result.2.root.see? q = none := by
  rw [h.effects]
  split
  · rfl
  · next hmem =>
    by_contra hs
    rw [← h.paths_eq paths hok] at hmem
    exact hmem (h.complete paths hok q hq hs hk)

end Left

/-! ### Sweeps that end well -/

/-- **An entry that can be removed** with all that is in it, but for what is kept. -/
structure Removable (files : Entry) (room : Nat) (keep : List Path) (path : Path)
    (entry : Entry) : Prop where
  /-- It is valid. -/
  valid : entry.Valid
  /-- It is what is seen at the path. -/
  see : ∀ rest, files.see? (path ++ rest) = entry.see? rest
  /-- The path is made of names. -/
  proper : path.Proper
  /-- It leads into a directory. -/
  above : ∃ way name, path = way ++ [name] ∧ files.see? way = some .directory
  /-- Everything that nothing blocks is within the limits. -/
  fits : ∀ rest, entry.see? rest ≠ none →
    (∀ below, rest <+: below → ¬ Blocks room keep path entry below) → Path.Fits (path ++ rest)
  /-- No directory is too deep. -/
  shallow : ∀ rest, entry.see? rest = some .directory → rest.length < room

theorem see?_nil_ne_none (entry : Entry) : entry.see? [] ≠ none := by
  simp

theorem Removable.isDirect {files : Entry} (h : Removable files room keep path entry)
    (hs : entry.see? rest ≠ none) : Operation.IsDirect files (path ++ rest) := by
  obtain ⟨way, name, rfl, hway⟩ := h.above
  refine ⟨by simp, h.proper.append (h.valid.proper hs), fun q hq hne target hl => ?_⟩
  rw [← h.see] at hs
  rw [Entry.see?_directory_of_prefix hq hne hs] at hl
  cases hl

theorem Removable.isRemoval_of {files : Entry} (h : Removable files room keep path entry)
    (hr : Removal path entry rest operation) : IsRemoval files operation :=
  ⟨_, h.isDirect hr.see?_ne_none, hr.imp And.left And.left⟩

theorem Removable.isRemoval {files : Entry} (h : Removable files room keep path entry) :
    ∀ operation, .ok operation ∈ (sweep room keep path entry).removals →
      IsRemoval files operation := by
  intro operation ho
  have hspec : SweepSpec room keep path entry (sweep room keep path entry) :=
    sweep_spec entry h.valid room path
  obtain ⟨rest, hremoval, -⟩ := hspec.removed operation ho
  exact h.isRemoval_of hremoval

/-- A member of a directory that can be removed can be removed. -/
theorem Removable.member {files : Entry} {m : Str × Entry}
    (h : Removable files (room + 1) keep path (.directory members)) (hm : m ∈ members) :
    Removable files room keep (path ++ [m.1]) m.2 := by
  obtain ⟨hn, hv⟩ := Entry.valid_directory.1 h.valid
  have hcons (rest : List Str) :
      (Entry.directory members).see? (m.1 :: rest) = m.2.see? rest := by
    rw [Entry.see?_directory_cons, Entry.lookup_of_mem hn hm]
    rfl
  have hpath (rest : List Str) : path ++ [m.1] ++ rest = path ++ m.1 :: rest := by simp
  refine ⟨(hv m hm).2, fun rest => ?_, h.proper.concat (hv m hm).1, ⟨path, m.1, rfl, ?_⟩,
    fun rest hs hb => ?_, fun rest hd => ?_⟩
  · rw [hpath, h.see, hcons]
  · rw [← List.append_nil path, h.see]
    rfl
  · rw [hpath]
    exact h.fits (m.1 :: rest) (by rwa [hcons]) (not_blocks_of_member hn hm hb)
  · have hlen := h.shallow (m.1 :: rest) (by rwa [hcons])
    simpa using hlen

/-- Something that is no directory and is not kept blocks nothing. -/
theorem not_blocks_leaf (hleaf : ∀ members, entry ≠ .directory members)
    (hkeep : ¬ keep.contains path = true) :
    ∀ below, [] <+: below → ¬ Blocks room keep path entry below := by
  have hspec : SweepSpec room keep path entry
      (if keep.contains path then ⟨[], true⟩ else ⟨[.ok (.removeFile path)], false⟩) :=
    .leaf hleaf
  rw [if_neg hkeep] at hspec
  exact fun below _ hb => Bool.false_ne_true (hspec.meets.2 ⟨below, hb⟩)

/-- Other entries are not affected by the removals of a sweep. -/
theorem Removable.of_sweep {files files' : Entry} {n : Str} (hne : n ≠ name)
    (h : Removable files room keep (path ++ [n]) entry)
    (hsee : ∀ q, ¬ path ++ [name] <+: q → files'.see? q = files.see? q) :
    Removable files' room keep (path ++ [n]) entry := by
  refine ⟨h.valid, fun rest => ?_, h.proper, ?_, h.fits, h.shallow⟩
  · rw [hsee, h.see]
    intro hpre
    rcases List.prefix_or_prefix_of_prefix hpre (List.prefix_append (path ++ [n]) rest) with hp | hp
    · exact hne (concat_inj (hp.eq_of_length (by simp))).2.symm
    · exact hne (concat_inj (hp.eq_of_length (by simp))).2
  · obtain ⟨way, last, he, hway⟩ := h.above
    obtain ⟨rfl, rfl⟩ := concat_inj he
    refine ⟨path, n, rfl, ?_⟩
    rw [hsee, hway]
    intro hpre
    have hlen := hpre.length_le
    rw [List.length_append, List.length_singleton] at hlen
    omega

/-- A directory that is left empty is removed. -/
theorem perform_removeDirectory_isOk (hd : Operation.IsDirect disk.root path)
    (hf : path.Fits) (habove : ∃ way name, path = way ++ [name] ∧
      disk.root.see? way = some .directory)
    (hdir : disk.root.see? path = some .directory)
    (hempty : ∀ name, disk.root.see? (path ++ [name]) = none) :
    ((perform (.removeDirectory path)).runOn disk).1 = .ok () := by
  obtain ⟨members, hat⟩ := Entry.see?_eq_some_directory.1 hdir
  have hnil : members = [] := by
    rcases members with _ | ⟨m, members⟩
    · rfl
    · have hnone := Entry.see?_eq_none.1 (hempty m.1)
      rw [Entry.at?_concat hat] at hnone
      simp at hnone
  rw [hnil] at hat
  have hdirect : (Operation.removeDirectory path).Direct disk.root := hd
  obtain ⟨root, hrun, -⟩ := runOn_perform_of_possible hdirect ⟨⟨hf, habove⟩, hat⟩
  rw [hrun]

theorem perform_removeFile_isOk {sight : Sight} (hd : Operation.IsDirect disk.root path)
    (hf : path.Fits) (habove : ∃ way name, path = way ++ [name] ∧
      disk.root.see? way = some .directory)
    (hs : disk.root.see? path = some sight) (hne : sight ≠ .directory) :
    ((perform (.removeFile path)).runOn disk).1 = .ok () := by
  have hdirect : (Operation.removeFile path).Direct disk.root := hd
  obtain ⟨root, hrun, -⟩ := runOn_perform_of_possible hdirect
    ⟨⟨hf, habove⟩, by rw [hs]; simp, by rw [hs]; simpa using hne⟩
  rw [hrun]

/-- A single removal. -/
theorem removing_singleton (operation : Operation) (disk : Disk) :
    ((removing [.ok operation]).runOn disk).1 = ((perform operation).runOn disk).1 := by
  rw [runOn_removing_ok]
  rcases (perform operation).runOn disk with ⟨e | ⟨⟩, mid⟩ <;> rfl

/-- **What was removed among members**, where that ends well. -/
theorem removing_see? {found : Sweep} {mid : Disk}
    (hremovals : ∀ operation, .ok operation ∈ found.removals → IsRemoval disk.root operation)
    (hr : (removing found.removals).runOn disk = (.ok (), mid)) (q : Path) :
    ((∃ operation, .ok operation ∈ found.removals ∧ removedPath? operation = some q) →
        mid.root.see? q = none) ∧
      ((¬ ∃ operation, .ok operation ∈ found.removals ∧ removedPath? operation = some q) →
        mid.root.see? q = disk.root.see? q) := by
  obtain ⟨operations, hundergoes, -, hall⟩ := removing_undergoes hremovals
  rw [hr] at hundergoes hall
  have hall := hall rfl
  have hmem (operation : Operation) :
      .ok operation ∈ found.removals ↔ operation ∈ operations := by
    rw [hall]
    simp
  have hsee : mid.root.see? q =
      if q ∈ operations.filterMap removedPath? then none else disk.root.see? q := by
    rw [hundergoes.see?_eq, effects_removals]
    intro operation ho
    exact (hremovals operation ((hmem operation).2 ho)).removedPath?
  simp only [hmem]
  rw [hsee]
  refine ⟨fun h => if_pos (List.mem_filterMap.2 h), fun h => if_neg fun hq => ?_⟩
  exact h (List.mem_filterMap.1 hq)

/-- What is no directory is removed if it is not kept. -/
theorem Removable.removing_leaf_isOk (h : Removable disk.root room keep path entry)
    (hleaf : ∀ members, entry ≠ .directory members) (hkeep : ¬ keep.contains path = true) :
    ((removing [.ok (.removeFile path)]).runOn disk).1 = .ok () := by
  obtain ⟨sight, hsight, hne⟩ : ∃ sight, entry.see? [] = some sight ∧ sight ≠ .directory := by
    cases entry with
    | directory members => exact absurd rfl (hleaf members)
    | file bytes modified => exact ⟨.file bytes modified, rfl, nofun⟩
    | link target => exact ⟨.link target, rfl, nofun⟩
  have hs := (h.see []).trans hsight
  have hd := h.isDirect (see?_nil_ne_none _)
  have hf := h.fits [] (see?_nil_ne_none _) (not_blocks_leaf hleaf hkeep)
  rw [List.append_nil] at hs hd hf
  rw [removing_singleton]
  exact perform_removeFile_isOk hd hf h.above hs hne

/-! A directory that can be removed, and its members have been. -/

section Closing

variable {mid : Disk} (h : Removable disk.root (room + 1) keep path (.directory members))
  (hr : (removing (sweepMembers room keep path members).removals).runOn disk = (.ok (), mid))

include h

theorem Removable.sweepMembers_spec :
    MembersSpec room keep path members (sweepMembers room keep path members) :=
  Build.sweepMembers_spec members (fun m hm => ((Entry.valid_directory.1 h.valid).2 m hm).2) room
    path

theorem Removable.isRemoval_members (operation : Operation)
    (ho : .ok operation ∈ (sweepMembers room keep path members).removals) :
    IsRemoval disk.root operation := by
  obtain ⟨m, hm, rest, hremoval, -⟩ := h.sweepMembers_spec.removed operation ho
  exact (h.member hm).isRemoval_of hremoval

include hr

/-- The directory and what is above it stay. -/
theorem Removable.see?_above (hq : q <+: path) : mid.root.see? q = disk.root.see? q := by
  refine (removing_see? h.isRemoval_members hr q).2 ?_
  rintro ⟨operation, ho, hpath⟩
  obtain ⟨m, -, rest, hremoval, -⟩ := h.sweepMembers_spec.removed operation ho
  rw [hremoval.removedPath?, Option.some.injEq] at hpath
  have hlen := hq.length_le
  rw [← hpath, List.length_append, List.length_append, List.length_singleton] at hlen
  omega

/-- Nothing is left in the directory if nothing of it was kept. -/
theorem Removable.see?_emptied
    (hmeets : ¬ (sweepMembers room keep path members).meetsKept = true) (name : Str) :
    mid.root.see? (path ++ [name]) = none := by
  by_contra hs
  have hsee := removing_see? h.isRemoval_members hr (path ++ [name])
  have hnot := mt hsee.1 hs
  rw [hsee.2 hnot, h.see] at hs
  obtain ⟨sight, hsight⟩ := Option.ne_none_iff_exists'.1 hs
  obtain ⟨m, hm, rfl, hsm⟩ := (see?_cons_iff (Entry.valid_directory.1 h.valid).1).1 hsight
  have hshallow : ∀ m ∈ members, ∀ rest, m.2.see? rest = some .directory → rest.length < room :=
    fun m hm => (h.member hm).shallow
  obtain ⟨operation, ho, hp⟩ := h.sweepMembers_spec.complete hshallow m hm [] (by rw [hsm]; simp)
    fun below _ hb => hmeets (h.sweepMembers_spec.meets.2 ⟨m, hm, below, hb⟩)
  exact hnot ⟨operation, ho, by rw [hp]; simp⟩

/-- The directory itself is removed. -/
theorem Removable.closing_isOk
    (hmeets : ¬ (sweepMembers room keep path members).meetsKept = true) :
    ((perform (.removeDirectory path)).runOn mid).1 = .ok () := by
  have hdir : disk.root.see? path = some .directory := by
    rw [← List.append_nil path, h.see]
    rfl
  obtain ⟨hne, hproper, hstraight⟩ : Operation.IsDirect disk.root path := by
    rw [← List.append_nil path]
    exact h.isDirect (see?_nil_ne_none _)
  have hdirect : Operation.IsDirect mid.root path := by
    refine ⟨hne, hproper, fun way hway hneq target hl => ?_⟩
    rw [h.see?_above hr hway] at hl
    exact hstraight way hway hneq target hl
  have hfits : path.Fits := by
    rw [← List.append_nil path]
    refine h.fits [] (see?_nil_ne_none _) fun below _ hb => ?_
    rcases below with _ | ⟨name, rest⟩
    · exact not_blocks_nil hb
    · obtain ⟨m, hm, -, hb⟩ := (blocks_cons_iff (Entry.valid_directory.1 h.valid).1).1 hb
      exact hmeets (h.sweepMembers_spec.meets.2 ⟨m, hm, rest, hb⟩)
  obtain ⟨way, name, he, hway⟩ := h.above
  refine perform_removeDirectory_isOk hdirect hfits ⟨way, name, he, ?_⟩ ?_
    (h.see?_emptied hr hmeets)
  · rw [h.see?_above hr (he ▸ List.prefix_append _ _), hway]
  · rw [h.see?_above hr List.prefix_rfl, hdir]

end Closing

mutual

/-- **The removals of a sweep end well** where everything can be removed. -/
theorem removing_sweep_isOk : (entry : Entry) → (room : Nat) → (path : Path) → (disk : Disk) →
    Removable disk.root room keep path entry →
    ((removing (sweep room keep path entry).removals).runOn disk).1 = .ok ()
  | .directory members, room + 1, path, disk, h => by
    have hmembers := removing_sweepMembers_isOk members room path disk
      (Entry.valid_directory.1 h.valid).1 fun m hm => h.member hm
    rw [sweep, Sweep.closeDirectory]
    split
    · exact hmembers
    · next hmeets =>
      rcases hr : (removing (sweepMembers room keep path members).removals).runOn disk with
        ⟨e | ⟨⟩, mid⟩
      · rw [hr] at hmembers
        cases hmembers
      · rw [runOn_removing_append _ _ hr, removing_singleton]
        exact h.closing_isOk hr hmeets
  | .directory members, 0, path, disk, h => absurd (h.shallow [] rfl) (by simp)
  | .file bytes modified, room, path, disk, h => by
    rw [sweep]
    · split
      · rfl
      · next hkeep => exact h.removing_leaf_isOk nofun hkeep
    · simp
  | .link target, room, path, disk, h => by
    rw [sweep]
    · split
      · rfl
      · next hkeep => exact h.removing_leaf_isOk nofun hkeep
    · simp

theorem removing_sweepMembers_isOk : (members : List (Str × Entry)) → (room : Nat) →
    (path : Path) → (disk : Disk) → (members.map Prod.fst).Nodup →
    (∀ m ∈ members, Removable disk.root room keep (path ++ [m.1]) m.2) →
    ((removing (sweepMembers room keep path members).removals).runOn disk).1 = .ok ()
  | [], room, path, disk, _, _ => by
    rw [sweepMembers]
    rfl
  | (name, entry) :: members, room, path, disk, hn, h => by
    have hentry := h (name, entry) List.mem_cons_self
    have hok := removing_sweep_isOk entry room (path ++ [name]) disk hentry
    rw [sweepMembers, Sweep.append]
    rcases hr : (removing (sweep room keep (path ++ [name]) entry).removals).runOn disk with
      ⟨e | ⟨⟩, mid⟩
    · rw [hr] at hok
      cases hok
    · rw [List.map_cons, List.nodup_cons] at hn
      have hsee (q : Path) := removing_see? hentry.isRemoval hr q
      have hspec : SweepSpec room keep (path ++ [name]) entry
          (sweep room keep (path ++ [name]) entry) := sweep_spec entry hentry.valid _ _
      dsimp only
      rw [runOn_removing_append _ _ hr]
      refine removing_sweepMembers_isOk members room path mid hn.2 fun m hm => ?_
      refine (h m (List.mem_cons_of_mem _ hm)).of_sweep (fun he : m.1 = name => ?_) fun q hq => ?_
      · exact hn.1 (List.mem_map.2 ⟨m, hm, he⟩)
      · refine (hsee q).2 ?_
        rintro ⟨operation, ho, hpath⟩
        obtain ⟨rest, hremoval, -⟩ := hspec.removed operation ho
        rw [hremoval.removedPath?, Option.some.injEq] at hpath
        exact hq (hpath ▸ List.prefix_append _ _)

end

/-- **A sweep ends well** where no directory is too deep and everything that is not kept is within
the limits. -/
theorem removeStale_isOk (keep : List Path) (hv : disk.root.Valid) (hne : out ≠ [])
    (hout : OutputRoot disk.root out) (hdeep : ∀ q, ¬ TooDeep disk.root room out q)
    (hfits : ∀ q, out <+: q → disk.root.see? q ≠ none → ¬ Kept disk.root keep q → Path.Fits q) :
    ∃ paths, ((removeStale room out keep).runOn disk).1 = .ok paths := by
  obtain ⟨entry, hve, hsee, hrun⟩ := runOn_removeStale hv hout
  obtain ⟨way, name, he⟩ : ∃ way name, out = way ++ [name] :=
    ⟨_, _, (List.dropLast_append_getLast hne).symm⟩
  have hremovable : Removable disk.root room keep out entry := by
    refine ⟨hve, fun rest => (hsee rest).symm, hout.proper, ⟨way, name, he, ?_⟩,
      fun rest hs hb => ?_, fun rest hd => ?_⟩
    · exact Entry.see?_directory_of_prefix_directory (he ▸ List.prefix_append _ _) hout.directory
    · exact hfits _ (List.prefix_append _ _) (by rwa [← hsee]) ((not_blocks_iff hsee).1 hb).1
    · by_contra hlen
      refine hdeep (out ++ rest) ⟨List.prefix_append _ _, by rw [← hsee, hd], ?_⟩
      rw [List.length_append]
      omega
  have hok : ((removing (sweep room keep out entry).removals).runOn disk).1 = .ok () :=
    removing_sweep_isOk entry room out disk hremovable
  rw [hrun]
  rcases hr : (removing (sweep room keep out entry).removals).runOn disk with ⟨e | ⟨⟩, mid⟩
  · rw [hr] at hok
    cases hok
  · exact ⟨_, rfl⟩

end Build
end TemplateBindings
