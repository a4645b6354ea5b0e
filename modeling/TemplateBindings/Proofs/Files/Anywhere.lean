import TemplateBindings.Proofs.Files.Effect
import TemplateBindings.Proofs.Files.Walks

/-!
# Operations on any paths

Where the paths of an operation go through links, what it changes is known only to the file system.
Two things hold all the same: a valid file system stays valid
(`TemplateBindings.Files.Operation.valid_of_apply`), and only operations that take something away
take directories away (`TemplateBindings.Files.Operation.directory_of_apply`).
-/

namespace TemplateBindings
namespace Files
namespace Operation

variable {root root' entry : Entry} {path source target way : Path} {name : Str} {now : Int}

/-! ### Valid file systems -/

/-- The places that the paths of an operation name. -/
def places : Operation → List Path
  | makeDirectory path | write path _ | append path _ | removeFile path | removeDirectory path =>
    [path]
  | move source target => [source, target]

theorem Direct.places_proper {operation : Operation} (hd : operation.Direct root) :
    ∀ path ∈ operation.places, path.Proper := by
  intro p hp
  cases operation with
  | makeDirectory path | removeFile path | removeDirectory path =>
    cases List.mem_singleton.1 hp
    exact hd.2.1
  | write path bytes | append path bytes =>
    cases List.mem_singleton.1 hp
    exact hd.1.2.1
  | move source target =>
    rcases List.mem_cons.1 hp with rfl | hp
    · exact hd.1.2.1
    · cases List.mem_singleton.1 hp
      exact hd.2.2.1

/-- Something put where a path leads keeps a file system valid. -/
theorem valid_put_found (hv : root.Valid) (hat : root.at? way = some entry) {new : Option Entry}
    (hnew : ∀ entry ∈ new, entry.Valid) : (root.put new way).Valid :=
  hv.put (hv.proper (by simp [Entry.see?, hat])) hnew

theorem proper_of_vacant {goal : Goal} (hv : root.Valid) (hp : path.Spelled)
    (h : locate root goal path = .ok (.vacant way name)) : Path.Proper (way ++ [name]) := by
  refine (hv.proper ?_).append fun n hm => ?_
  · rw [(stands_of_locate h).1]
    exact Option.some_ne_none _
  · cases List.mem_singleton.1 hm
    exact isName_of_locate hv hp h

theorem valid_writeWith {change : List UInt8 → List UInt8} (hv : root.Valid) (hp : path.Spelled)
    (h : writeWith now root path change = .ok root') : root'.Valid := by
  have file (bytes : List UInt8) : ∀ e ∈ some (Entry.file bytes now), e.Valid := by
    intro e he
    cases Option.some.inj he
    trivial
  rw [writeWith] at h
  split at h
  · next hloc =>
    cases h
    exact valid_put_found hv (stands_of_locate hloc) (file _)
  · cases h
  · next hloc =>
    cases h
    exact hv.put (proper_of_vacant hv hp hloc) (file _)
  · cases h

theorem valid_moveFile (hv : root.Valid) (ht : target.Spelled)
    (h : moveFile root source target = .ok root') : root'.Valid := by
  rw [moveFile] at h
  split at h
  · cases h
  · cases h
  · next sourceWay entry hloc =>
    have hat : root.at? sourceWay = some entry := stands_of_locate hloc
    have hentry : ∀ e ∈ some entry, e.Valid := by
      intro e he
      cases Option.some.inj he
      exact hv.at? hat
    have hgone : (root.put none sourceWay).Valid := valid_put_found hv hat (by simp)
    split at h
    · cases h
    · next spot hspot =>
      have hstands := stands_of_locate hspot
      split at h
      · cases h
      · split at h
        · cases h
        · cases h
        · next way e _ _ =>
          cases h
          have hat' : root.at? way = some e := hstands
          exact hgone.put (hv.proper (by simp [Entry.see?, hat'])) hentry
        · next way name _ =>
          cases h
          exact hgone.put (proper_of_vacant hv ht hspot) hentry

/-- **An operation keeps a file system valid**, whatever links its paths go through. -/
theorem valid_of_apply {operation : Operation} (hv : root.Valid)
    (hp : ∀ path ∈ operation.places, path.Spelled)
    (h : operation.apply now root = .ok root') : root'.Valid := by
  rw [apply_eq_ok] at h
  cases operation with
  | makeDirectory path =>
    rw [change] at h
    split at h
    · next way name hloc =>
      cases h
      refine hv.put (proper_of_vacant hv (hp path List.mem_cons_self) hloc) fun e he => ?_
      cases Option.some.inj he
      exact Entry.valid_directory.2 ⟨List.nodup_nil, fun _ hm => absurd hm List.not_mem_nil⟩
    · cases h
    · cases h
  | write path bytes => exact valid_writeWith hv (hp path List.mem_cons_self) h
  | append path bytes => exact valid_writeWith hv (hp path List.mem_cons_self) h
  | move source target =>
    exact valid_moveFile hv
      (hp target (List.mem_cons_of_mem _ List.mem_cons_self)) h
  | removeFile path =>
    rw [change] at h
    split at h
    · cases h
    · next hloc =>
      cases h
      exact valid_put_found hv (stands_of_locate hloc) (by simp)
    · cases h
    · cases h
  | removeDirectory path =>
    rw [change] at h
    split at h
    · cases h
    · next hloc =>
      cases h
      exact valid_put_found hv (stands_of_locate hloc) (by simp)
    · cases h
    · cases h
    · cases h
    · cases h

/-! ### Directories -/

/-- Whether an operation takes something away. -/
def removes : Operation → Bool
  | removeFile _ | removeDirectory _ => true
  | _ => false

/-- What is put in the place of something else than a directory leaves the directories. -/
theorem directory_put {q : Path} (hway : root.see? way ≠ some .directory)
    (habove : ∀ w n, way = w ++ [n] → root.see? w = some .directory) (new : Option Entry)
    (hq : root.see? q = some .directory) : (root.put new way).see? q = some .directory := by
  rcases List.eq_nil_or_concat way with rfl | ⟨w, n, rfl⟩
  · have hroot : root.see? [] = some .directory :=
      Entry.see?_directory_of_prefix_directory List.nil_prefix hq
    exact absurd hroot hway
  · rw [List.concat_eq_append] at *
    obtain ⟨members, hat⟩ := Entry.see?_eq_some_directory.1 (habove w n rfl)
    rw [Entry.see?_put hat, if_neg, hq]
    intro hpre
    exact hway (Entry.see?_directory_of_prefix_directory hpre hq)

theorem above_of_at? (hat : root.at? path = some entry) :
    ∀ w n, path = w ++ [n] → root.see? w = some .directory := by
  rintro w n rfl
  have hsee : root.see? (w ++ [n]) ≠ none := by simp [Entry.see?, hat]
  exact Entry.see?_directory_of_below (List.cons_ne_nil n []) hsee

theorem not_directory_of_at? (hat : root.at? path = some entry)
    (hne : ∀ members, entry ≠ .directory members) : root.see? path ≠ some .directory := by
  intro hdir
  obtain ⟨members, hat'⟩ := Entry.see?_eq_some_directory.1 hdir
  exact hne members (Option.some.inj (hat.symm.trans hat'))

theorem directory_put_vacant {q : Path} (hstands : (Spot.vacant way name).Stands root)
    (new : Option Entry) (hq : root.see? q = some .directory) :
    (root.put new (way ++ [name])).see? q = some .directory := by
  refine directory_put (by simp [hstands.2]) (fun w n he => ?_) new hq
  rw [← (List.append_inj' he rfl).1]
  exact hstands.1

theorem directory_writeWith {q : Path} {change : List UInt8 → List UInt8}
    (h : writeWith now root path change = .ok root')
    (hq : root.see? q = some .directory) : root'.see? q = some .directory := by
  rw [writeWith] at h
  split at h
  · next hloc =>
    cases h
    have hat := stands_of_locate hloc
    exact directory_put (not_directory_of_at? hat (by simp)) (above_of_at? hat) _ hq
  · cases h
  · next hloc =>
    cases h
    exact directory_put_vacant (stands_of_locate hloc) _ hq
  · cases h

theorem directory_moveFile {q : Path}
    (h : moveFile root source target = .ok root') (hq : root.see? q = some .directory) :
    root'.see? q = some .directory := by
  rw [moveFile] at h
  split at h
  · cases h
  · cases h
  · next sourceWay entry hloc =>
    have hat : root.at? sourceWay = some entry := stands_of_locate hloc
    split at h
    · cases h
    · next spot hspot =>
      have hstands := stands_of_locate hspot
      split at h
      · cases h
      · -- first the source is taken away, then it is put in the place of the target
        have hgone (hne : ∀ members, entry ≠ .directory members) {p : Path}
            (hp : root.see? p = some .directory) :
            (root.put none sourceWay).see? p = some .directory :=
          directory_put (not_directory_of_at? hat hne) (above_of_at? hat) none hp
        have hstays {p : Path} (hp : root.see? p ≠ some .directory) :
            (root.put none sourceWay).see? p ≠ some .directory := by
          rcases List.eq_nil_or_concat sourceWay with rfl | ⟨w, n, rfl⟩
          · rwa [Entry.put, Option.getD_none]
          · rw [List.concat_eq_append, Entry.see?_put_none]
            split
            · simp
            · exact hp
        split at h
        · cases h
        · cases h
        · next way e he hentry =>
          cases h
          have hat' : root.at? way = some e := hstands
          exact directory_put (hstays (not_directory_of_at? hat' he))
            (fun w n hw => hgone hentry (above_of_at? hat' w n hw)) _ (hgone hentry hq)
        · next way name hdir =>
          cases h
          refine directory_put (hstays (by simp [hstands.2])) (fun w n he => ?_) _
            (hgone hdir hq)
          rw [← (List.append_inj' he rfl).1]
          exact hgone hdir hstands.1

/-- **Directories stay** where nothing is taken away. -/
theorem directory_of_apply {operation : Operation} {q : Path} (hr : operation.removes = false)
    (h : operation.apply now root = .ok root') (hq : root.see? q = some .directory) :
    root'.see? q = some .directory := by
  rw [apply_eq_ok] at h
  cases operation with
  | makeDirectory path =>
    rw [change] at h
    split at h
    · next way name hloc =>
      cases h
      exact directory_put_vacant (stands_of_locate hloc) _ hq
    · cases h
    · cases h
  | write path bytes => exact directory_writeWith h hq
  | append path bytes => exact directory_writeWith h hq
  | move source target => exact directory_moveFile h hq
  | removeFile path => cases hr
  | removeDirectory path => cases hr

/-- **Nothing appears** where something is taken away. -/
theorem none_or_eq_of_apply {operation : Operation} (hr : operation.removes = true)
    (h : operation.apply now root = .ok root') (q : Path) :
    root'.see? q = none ∨ root'.see? q = root.see? q := by
  have hput (way : Path) :
      (root.put none way).see? q = none ∨ (root.put none way).see? q = root.see? q := by
    rcases List.eq_nil_or_concat way with rfl | ⟨w, n, rfl⟩
    · exact .inr rfl
    · rw [List.concat_eq_append, Entry.see?_put_none]
      split
      · exact .inl rfl
      · exact .inr rfl
  rw [apply_eq_ok] at h
  cases operation with
  | makeDirectory _ | write _ _ | append _ _ | move _ _ => cases hr
  | removeFile path =>
    rw [change] at h
    split at h
    · cases h
    · next way _ _ _ =>
      cases h
      exact hput way
    · cases h
    · cases h
  | removeDirectory path =>
    rw [change] at h
    split at h
    · cases h
    · next way _ _ =>
      cases h
      exact hput way
    · cases h
    · cases h
    · cases h
    · cases h

end Operation
end Files
end TemplateBindings
