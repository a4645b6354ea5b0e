import Mathlib.Data.List.Nodup
import TemplateBindings.Proofs.Files.Anywhere
import TemplateBindings.Proofs.Files.Sorted

/-!
# File systems that look alike

Two file systems in which the same is seen everywhere (`TemplateBindings.Files.Entry.Alike`) differ
in the order of members at most, and nothing depends on that: every path leads to the same place in
both (`TemplateBindings.Files.Entry.Alike.locate_eq`), every operation goes well in both or fails in
both for the same cause (`TemplateBindings.Files.sameEnd_apply`), and their listings in order are
equal (`TemplateBindings.Files.Entry.sorted_eq_of_alike`).
-/

namespace TemplateBindings
namespace Files

variable {root root' here here' entry entry' : Entry} {members members' : List (Str × Entry)}
  {goal : Goal} {links : Nat} {wayRev way names : List Str} {path : Path} {name : Str} {now : Int}

namespace Entry

/-- **Two file systems look alike**: the same is seen in both. -/
def Alike (root root' : Entry) : Prop := root.see? = root'.see?

theorem Alike.refl (root : Entry) : root.Alike root := rfl

theorem Alike.symm (h : root.Alike root') : root'.Alike root := Eq.symm h

theorem Alike.sight_eq (h : root.Alike root') : root.sight = root'.sight := by
  have hnil := congrFun h []
  rw [see?_nil, see?_nil] at hnil
  exact Option.some.inj hnil

/-- What is found at the end of a way looks alike. -/
theorem Alike.of_at? (h : root.Alike root') (hat : root.at? way = some entry)
    (hat' : root'.at? way = some entry') : entry.Alike entry' := by
  funext rest
  rw [← see?_append_of_at? hat, ← see?_append_of_at? hat', h]

theorem Alike.exists_at? (h : root.Alike root') (hat : root.at? way = some entry) :
    ∃ entry', root'.at? way = some entry' ∧ entry.Alike entry' := by
  have hsee : root'.see? way = some entry.sight := by
    rw [← h, see?, hat]
    rfl
  obtain ⟨entry', hat', -⟩ := Option.map_eq_some_iff.1 hsee
  exact ⟨entry', hat', h.of_at? hat hat'⟩

theorem Alike.at?_eq_none (h : root.Alike root') (hat : root.at? way = none) :
    root'.at? way = none := by
  rw [← see?_eq_none, ← h, see?_eq_none, hat]

/-- What looks like a directory is one. -/
theorem Alike.exists_directory (h : (directory members).Alike root') :
    ∃ members', root' = directory members' := by
  have hs := h.sight_eq
  cases root' with
  | directory members' => exact ⟨members', rfl⟩
  | file _ _ => cases hs
  | link _ => cases hs

theorem Alike.exists_lookup (h : (directory members).Alike (directory members'))
    (hl : members.lookup name = some entry) :
    ∃ entry', members'.lookup name = some entry' ∧ entry.Alike entry' := by
  have hat : (directory members).at? [name] = some entry := by
    rw [at?_cons, member?, hl]
    rfl
  obtain ⟨entry', hat', halike⟩ := h.exists_at? hat
  rw [at?_cons, member?] at hat'
  obtain ⟨next, hl', he⟩ := Option.bind_eq_some_iff.1 hat'
  rw [at?_nil] at he
  exact ⟨entry', by rw [hl', he], halike⟩

theorem Alike.lookup_eq_none (h : (directory members).Alike (directory members'))
    (hl : members.lookup name = none) : members'.lookup name = none := by
  cases hl' : members'.lookup name with
  | none => rfl
  | some e =>
    obtain ⟨e', he, -⟩ := h.symm.exists_lookup hl'
    rw [hl] at he
    cases he

theorem alike_directory (h : ∀ name, (members.lookup name).map see? =
    (members'.lookup name).map see?) : (directory members).Alike (directory members') := by
  funext way
  cases way with
  | nil => rfl
  | cons name way =>
    rw [see?_directory_cons, see?_directory_cons]
    have hn := h name
    cases hl : members.lookup name with
    | none =>
      rw [hl] at hn
      rw [Option.map_none, eq_comm, Option.map_eq_none_iff] at hn
      rw [hn]
    | some e =>
      rw [hl] at hn
      rw [Option.map_some, eq_comm, Option.map_eq_some_iff] at hn
      obtain ⟨e', hl', he⟩ := hn
      rw [hl', Option.bind_some, Option.bind_some, he]

theorem Alike.lookup_map (h : (directory members).Alike (directory members')) (name : Str) :
    (members.lookup name).map see? = (members'.lookup name).map see? := by
  cases hl : members.lookup name with
  | none => rw [h.lookup_eq_none hl]
  | some e =>
    obtain ⟨e', hl', he⟩ := h.exists_lookup hl
    rw [hl', Option.map_some, Option.map_some, show e.see? = e'.see? from he]

/-- What is empty looks empty. -/
theorem Alike.nil_of_nil (h : (directory []).Alike (directory members)) : members = [] := by
  rcases members with _ | ⟨m, members⟩
  · rfl
  · have hnone : (m :: members).lookup m.1 = none := h.lookup_eq_none rfl
    rw [List.lookup_cons, beq_self_eq_true] at hnone
    cases hnone

/-- What looks alike is a file, a link or a directory alike. -/
theorem Alike.entry_cases (h : entry.Alike entry') :
    (∃ bytes time, entry = .file bytes time ∧ entry' = .file bytes time) ∨
      (∃ target, entry = .link target ∧ entry' = .link target) ∨
      ∃ members members', entry = .directory members ∧ entry' = .directory members' ∧
        (members = [] ↔ members' = []) := by
  have hs := h.sight_eq
  cases entry with
  | file bytes time =>
    cases entry' with
    | file _ _ =>
      cases hs
      exact .inl ⟨bytes, time, rfl, rfl⟩
    | directory _ => cases hs
    | link _ => cases hs
  | link target =>
    cases entry' with
    | link _ =>
      cases hs
      exact .inr (.inl ⟨target, rfl, rfl⟩)
    | directory _ => cases hs
    | file _ _ => cases hs
  | directory members =>
    obtain ⟨members', rfl⟩ := h.exists_directory
    refine .inr (.inr ⟨members, members', rfl, rfl, ?_, ?_⟩)
    · rintro rfl
      exact h.nil_of_nil
    · rintro rfl
      exact h.symm.nil_of_nil

/-! ### Changes -/

/-- **The same change** to file systems that look alike. -/
theorem Alike.put (h : root.Alike root') {new new' : Option Entry}
    (hnew : new.map see? = new'.map see?) (way : List Str) :
    (root.put new way).Alike (root'.put new' way) := by
  induction way generalizing root root' with
  | nil =>
    cases new with
    | none =>
      rw [Option.map_none, eq_comm, Option.map_eq_none_iff] at hnew
      rw [hnew]
      exact h
    | some e =>
      rw [Option.map_some, eq_comm, Option.map_eq_some_iff] at hnew
      obtain ⟨e', rfl, he⟩ := hnew
      exact he.symm
  | cons name way ih =>
    rcases h.entry_cases with ⟨bytes, time, rfl, rfl⟩ | ⟨target, rfl, rfl⟩ |
      ⟨members, members', rfl, rfl, -⟩
    · cases way <;> rfl
    · cases way <;> rfl
    · -- only the member with the first name changes, and what it becomes looks alike
      have hput {new new' : Option Entry} (hnew : new.map see? = new'.map see?) :
          (directory (putMember name new members)).Alike
            (directory (putMember name new' members')) := by
        refine alike_directory fun other => ?_
        by_cases ho : other = name
        · rw [ho, lookup_putMember_self, lookup_putMember_self, hnew]
        · rw [lookup_putMember_of_ne ho, lookup_putMember_of_ne ho, h.lookup_map]
      rcases way with _ | ⟨w, way⟩
      · exact hput hnew
      · rw [put_of_ne_nil (List.cons_ne_nil w way), put_of_ne_nil (List.cons_ne_nil w way)]
        cases hl : members.lookup name with
        | none =>
          rw [h.lookup_eq_none hl]
          exact h
        | some e =>
          obtain ⟨e', hl', he⟩ := h.exists_lookup hl
          rw [hl']
          exact hput (congrArg some (ih he))

/-! ### Listings in order -/

theorem nodup_sortedMembers (hn : (members.map Prod.fst).Nodup) :
    ((sortedMembers members).map Prod.fst).Nodup := by
  rwa [names_sortedMembers]

theorem mem_sortedMembers {m : Str × Entry} :
    m ∈ sortedMembers members ↔ ∃ e, (m.1, e) ∈ members ∧ m.2 = e.sorted := by
  rw [sortedMembers_eq_map, List.mem_map]
  constructor
  · rintro ⟨⟨n, e⟩, hm, rfl⟩
    exact ⟨e, hm, rfl⟩
  · rintro ⟨e, hm, he⟩
    exact ⟨(m.1, e), hm, by rw [← he]⟩

mutual

/-- **Valid file systems that look alike have the same listings in order.** -/
theorem sorted_eq_of_alike : (root : Entry) → root.Valid → (root' : Entry) → root'.Valid →
    root.Alike root' → root.sorted = root'.sorted
  | .file bytes modified, _, root', _, h => by
    rcases h.entry_cases with ⟨_, _, he, rfl⟩ | ⟨_, he, -⟩ | ⟨_, _, he, -⟩
    · rw [he]
    · cases he
    · cases he
  | .link target, _, root', _, h => by
    rcases h.entry_cases with ⟨_, _, he, -⟩ | ⟨_, he, rfl⟩ | ⟨_, _, he, -⟩
    · cases he
    · rw [he]
    · cases he
  | .directory members, hv, root', hv', h => by
    obtain ⟨members', rfl⟩ := h.exists_directory
    obtain ⟨hn, hm⟩ := valid_directory.1 hv
    obtain ⟨hn', hm'⟩ := valid_directory.1 hv'
    have hmember := member_sorted_eq_of_alike members fun m hmem => (hm m hmem).2
    have hnames := nodup_sortedMembers hn
    rw [sorted_directory, sorted_directory]
    -- ordering forgets the order of the members, and names tell them apart
    refine congrArg directory (Text.orderedBy_eq_of_perm Prod.fst ?_ ?_)
    · refine (List.perm_ext_iff_of_nodup hnames.of_map (nodup_sortedMembers hn').of_map).2
        fun m => ?_
      rw [mem_sortedMembers, mem_sortedMembers]
      constructor
      · rintro ⟨e, hmem, he⟩
        obtain ⟨e', hl', halike⟩ := h.exists_lookup (lookup_of_mem hn hmem)
        have hmem' := mem_of_lookup hl'
        exact ⟨e', hmem', he.trans (hmember _ hmem e' (hm' _ hmem').2 halike)⟩
      · rintro ⟨e', hmem', he⟩
        obtain ⟨e, hl, halike⟩ := h.symm.exists_lookup (lookup_of_mem hn' hmem')
        have hmem := mem_of_lookup hl
        exact ⟨e, hmem, he.trans (hmember _ hmem e' (hm' _ hmem').2 halike.symm).symm⟩
    · exact fun a ha b hb he => List.inj_on_of_nodup_map hnames ha hb he

theorem member_sorted_eq_of_alike : (members : List (Str × Entry)) →
    (∀ m ∈ members, m.2.Valid) → ∀ m ∈ members, ∀ e' : Entry, e'.Valid → m.2.Alike e' →
      m.2.sorted = e'.sorted
  | [], _, m, hm, _, _, _ => absurd hm List.not_mem_nil
  | (name, entry) :: rest, hv, m, hm, e', hv', h => by
    rcases List.mem_cons.1 hm with rfl | hm
    · exact sorted_eq_of_alike entry (hv _ List.mem_cons_self) e' hv' h
    · exact member_sorted_eq_of_alike rest (fun m hm => hv m (List.mem_cons_of_mem _ hm)) m hm e'
        hv' h

end

end Entry

/-! ### Walks -/

/-- **What a walk says of its end** without the entry that is there. -/
inductive Outline where
  /-- What is seen at the end of a way. -/
  | found (way : Path) (sight : Sight)
  /-- A directory without the last name of the path. -/
  | vacant (directory : Path) (name : Str)

/-- The outline of the end of a walk. -/
def Spot.outline : Spot → Outline
  | .found way entry => .found way entry.sight
  | .vacant way name => .vacant way name

theorem walkWith_alike {follow follow' : List Str → Entry → List Str → Except Cause Spot}
    (h : root.Alike root')
    (hfollow : ∀ wayRev {here here' names}, root.at? wayRev.reverse = some here →
      root'.at? wayRev.reverse = some here' →
      (follow wayRev here names).map Spot.outline = (follow' wayRev here' names).map Spot.outline)
    (hat : root.at? wayRev.reverse = some here) (hat' : root'.at? wayRev.reverse = some here') :
    (walkWith root goal follow wayRev here names).map Spot.outline =
      (walkWith root' goal follow' wayRev here' names).map Spot.outline := by
  -- by induction on the names: both walks stand at the end of the same way, where the same is seen
  induction names generalizing wayRev here here' with
  | nil =>
    rw [walkWith, walkWith]
    exact congrArg (fun sight => Except.ok (Outline.found wayRev.reverse sight))
      (h.of_at? hat hat').sight_eq
  | cons name rest ih =>
    have halike := h.of_at? hat hat'
    rcases halike.entry_cases with ⟨bytes, time, rfl, rfl⟩ | ⟨target, rfl, rfl⟩ |
      ⟨members, members', rfl, rfl, -⟩
    · rfl
    · rfl
    · rw [walkWith, walkWith]
      split
      · exact ih hat hat'
      · split
        · cases habove : root.at? wayRev.tail.reverse with
          | none =>
            rw [h.at?_eq_none habove]
          | some above =>
            obtain ⟨above', habove', -⟩ := h.exists_at? habove
            rw [habove']
            exact ih habove habove'
        · split
          · rfl
          · split
            · rfl
            · cases hl : members.lookup name with
              | none =>
                rw [halike.lookup_eq_none hl]
              | some next =>
                obtain ⟨next', hl', hnext⟩ := halike.exists_lookup hl
                rw [hl']
                have hstep := (Entry.at?_reverse_cons hat name).trans hl
                have hstep' := (Entry.at?_reverse_cons hat' name).trans hl'
                rcases hnext.entry_cases with ⟨_, _, rfl, rfl⟩ | ⟨target, rfl, rfl⟩ |
                  ⟨_, _, rfl, rfl, -⟩
                · exact ih hstep hstep'
                · -- what a link leads to starts at the root or where the walk stands
                  dsimp only
                  split
                  · rfl
                  · split
                    · exact hfollow [] rfl rfl
                    · exact hfollow wayRev hat hat'
                · exact ih hstep hstep'

theorem walk_alike (h : root.Alike root') (hat : root.at? wayRev.reverse = some here)
    (hat' : root'.at? wayRev.reverse = some here') :
    (walk root goal links wayRev here names).map Spot.outline =
      (walk root' goal links wayRev here' names).map Spot.outline := by
  induction links generalizing wayRev here here' names with
  | zero =>
    rw [walk_zero, walk_zero]
    exact walkWith_alike h (fun _ _ _ _ _ _ => rfl) hat hat'
  | succ links ih =>
    rw [walk_succ, walk_succ]
    exact walkWith_alike h (fun _ _ _ _ hat hat' => ih hat hat') hat hat'

namespace Entry

/-- **A path leads to the same place** in file systems that look alike. -/
theorem Alike.locate_eq (h : root.Alike root') (goal : Goal) (path : Path) :
    (locate root goal path).map Spot.outline = (locate root' goal path).map Spot.outline := by
  rw [locate, locate]
  split
  · rfl
  · split
    · rfl
    · exact walk_alike h rfl rfl

/-- The three ways a path can lead, in both. -/
theorem Alike.locate_cases (h : root.Alike root') (goal : Goal) (path : Path) :
    (∃ cause, locate root goal path = .error cause ∧ locate root' goal path = .error cause) ∨
      (∃ way entry entry', locate root goal path = .ok (.found way entry) ∧
        locate root' goal path = .ok (.found way entry') ∧ entry.Alike entry') ∨
      ∃ way name, locate root goal path = .ok (.vacant way name) ∧
        locate root' goal path = .ok (.vacant way name) := by
  have he := h.locate_eq goal path
  rcases hl : locate root goal path with cause | ⟨way, entry⟩ | ⟨way, name⟩
  · rcases hl' : locate root' goal path with cause' | spot
    · rw [hl, hl'] at he
      cases he
      exact .inl ⟨cause, rfl, rfl⟩
    · rw [hl, hl'] at he
      cases he
  · rcases hl' : locate root' goal path with cause' | ⟨way', entry'⟩ | ⟨way', name'⟩
    · rw [hl, hl'] at he
      cases he
    · rw [hl, hl'] at he
      obtain ⟨rfl, -⟩ := Outline.found.inj (Except.ok.inj he)
      exact .inr (.inl ⟨way, entry, entry', rfl, rfl,
        h.of_at? (stands_of_locate hl) (stands_of_locate hl')⟩)
    · rw [hl, hl'] at he
      cases he
  · rcases hl' : locate root' goal path with cause' | ⟨way', entry'⟩ | ⟨way', name'⟩
    · rw [hl, hl'] at he
      cases he
    · rw [hl, hl'] at he
      cases he
    · rw [hl, hl'] at he
      obtain ⟨rfl, rfl⟩ := Outline.vacant.inj (Except.ok.inj he)
      exact .inr (.inr ⟨way, name, rfl, rfl⟩)

end Entry

/-! ### Operations -/

/-- **The same end** on file systems that look alike: the same error, or file systems that look
alike. -/
inductive SameEnd {ε : Type} : Except ε Entry → Except ε Entry → Prop
  /-- Both end well. -/
  | ok {root root' : Entry} (alike : root.Alike root') : SameEnd (.ok root) (.ok root')
  /-- Both end with an error. -/
  | error (e : ε) : SameEnd (.error e) (.error e)

theorem sameEnd_writeWith (h : root.Alike root') (path : Path)
    (change : List UInt8 → List UInt8) :
    SameEnd (writeWith now root path change) (writeWith now root' path change) := by
  rw [writeWith, writeWith]
  rcases h.locate_cases .file path with ⟨cause, hl, hl'⟩ | ⟨way, e, e', hl, hl', he⟩ |
    ⟨way, name, hl, hl'⟩
  · rw [hl, hl']
    exact .error _
  · rw [hl, hl']
    rcases he.entry_cases with ⟨bytes, time, rfl, rfl⟩ | ⟨target, rfl, rfl⟩ | ⟨ms, ms', rfl, rfl, -⟩
    · exact .ok (h.put rfl way)
    · exact .error _
    · exact .error _
  · rw [hl, hl']
    exact .ok (h.put rfl _)

/-- Whether a file can be written does not depend on what is written. -/
theorem writeWith_error_alike {change change' : List UInt8 → List UInt8} {cause : Cause}
    (h : root.Alike root') (he : writeWith now root path change = .error cause) :
    writeWith now root' path change' = .error cause := by
  rw [writeWith] at he ⊢
  rcases h.locate_cases .file path with ⟨cause', hl, hl'⟩ | ⟨way, e, e', hl, hl', he'⟩ |
    ⟨way, name, hl, hl'⟩
  · rw [hl] at he
    rw [hl']
    exact he
  · rw [hl] at he
    rw [hl']
    rcases he'.entry_cases with ⟨_, _, rfl, rfl⟩ | ⟨_, rfl, rfl⟩ | ⟨_, _, rfl, rfl, -⟩
    · cases he
    · exact he
    · exact he
  · rw [hl] at he
    cases he

theorem sameEnd_moveFile (h : root.Alike root') (source target : Path) :
    SameEnd (moveFile root source target) (moveFile root' source target) := by
  rw [moveFile, moveFile]
  rcases h.locate_cases .entry source with ⟨cause, hl, hl'⟩ | ⟨way, e, e', hl, hl', he⟩ |
    ⟨way, name, hl, hl'⟩
  · rw [hl, hl']
    exact .error _
  · rw [hl, hl']
    dsimp only
    have hmoved (place : Path) :
        ((root.put none way).put (some e) place).Alike
          ((root'.put none way).put (some e') place) :=
      (Entry.Alike.put h rfl way).put
        (show (some e).map Entry.see? = (some e').map Entry.see? from congrArg some he) place
    rcases h.locate_cases .entry target with ⟨cause, ht, ht'⟩ | ⟨place, d, d', ht, ht', hd⟩ |
      ⟨place, name, ht, ht'⟩
    · rw [ht, ht']
      exact .error _
    · rw [ht, ht']
      dsimp only
      split
      · exact .error _
      · rcases he.entry_cases with ⟨_, _, rfl, rfl⟩ | ⟨_, rfl, rfl⟩ | ⟨_, _, rfl, rfl, -⟩
        · rcases hd.entry_cases with ⟨_, _, rfl, rfl⟩ | ⟨_, rfl, rfl⟩ | ⟨_, _, rfl, rfl, -⟩
          · exact .ok (hmoved _)
          · exact .ok (hmoved _)
          · exact .error _
        · rcases hd.entry_cases with ⟨_, _, rfl, rfl⟩ | ⟨_, rfl, rfl⟩ | ⟨_, _, rfl, rfl, -⟩
          · exact .ok (hmoved _)
          · exact .ok (hmoved _)
          · exact .error _
        · exact .error _
    · rw [ht, ht']
      dsimp only
      split
      · exact .error _
      · rcases he.entry_cases with ⟨_, _, rfl, rfl⟩ | ⟨_, rfl, rfl⟩ | ⟨_, _, rfl, rfl, -⟩
        · exact .ok (hmoved _)
        · exact .ok (hmoved _)
        · exact .error _
  · rw [hl, hl']
    exact .error _

theorem sameEnd_change (h : root.Alike root') (operation : Operation) :
    SameEnd (operation.change now root) (operation.change now root') := by
  cases operation with
  | makeDirectory path =>
    rw [Operation.change, Operation.change]
    rcases h.locate_cases .entry path with ⟨cause, hl, hl'⟩ | ⟨way, e, e', hl, hl', he⟩ |
      ⟨way, name, hl, hl'⟩
    · rw [hl, hl']
      exact .error _
    · rw [hl, hl']
      exact .error _
    · rw [hl, hl']
      exact .ok (h.put rfl _)
  | write path bytes => exact sameEnd_writeWith h path _
  | append path bytes => exact sameEnd_writeWith h path _
  | move source target => exact sameEnd_moveFile h source target
  | removeFile path =>
    rw [Operation.change, Operation.change]
    rcases h.locate_cases .entry path with ⟨cause, hl, hl'⟩ | ⟨way, e, e', hl, hl', he⟩ |
      ⟨way, name, hl, hl'⟩
    · rw [hl, hl']
      exact .error _
    · rw [hl, hl']
      rcases he.entry_cases with ⟨_, _, rfl, rfl⟩ | ⟨_, rfl, rfl⟩ | ⟨_, _, rfl, rfl, -⟩
      · exact .ok (h.put rfl way)
      · exact .ok (h.put rfl way)
      · exact .error _
    · rw [hl, hl']
      exact .error _
  | removeDirectory path =>
    rw [Operation.change, Operation.change]
    rcases h.locate_cases .entry path with ⟨cause, hl, hl'⟩ | ⟨way, e, e', hl, hl', he⟩ |
      ⟨way, name, hl, hl'⟩
    · rw [hl, hl']
      exact .error _
    · rw [hl, hl']
      rcases way with _ | ⟨n, way⟩
      · exact .error _
      · rcases he.entry_cases with ⟨_, _, rfl, rfl⟩ | ⟨_, rfl, rfl⟩ | ⟨ms, ms', rfl, rfl, hnil⟩
        · exact .error _
        · exact .error _
        · rcases ms with _ | ⟨m, ms⟩
          · rw [hnil.1 rfl]
            exact .ok (h.put rfl _)
          · rcases ms' with _ | ⟨m', ms'⟩
            · exact absurd (hnil.2 rfl) (List.cons_ne_nil m ms)
            · exact .error _
    · rw [hl, hl']
      exact .error _

/-- **An operation ends the same** on file systems that look alike. -/
theorem sameEnd_apply (h : root.Alike root') (operation : Operation) :
    SameEnd (operation.apply now root) (operation.apply now root') := by
  have hsame : SameEnd (operation.change now root) (operation.change now root') :=
    sameEnd_change h operation
  unfold Operation.apply
  generalize operation.change now root = changed at hsame ⊢
  generalize operation.change now root' = changed' at hsame ⊢
  cases hsame with
  | ok alike => exact .ok alike
  | error e => exact .error _

/-- **Whether a path leads to a directory** is the same in file systems that look alike. -/
theorem isDirectory_alike (h : root.Alike root') (path : Path) :
    isDirectory root path = isDirectory root' path := by
  rw [isDirectory, satisfies, satisfies]
  rcases h.locate_cases .target path with ⟨cause, hl, hl'⟩ | ⟨way, e, e', hl, hl', he⟩ |
    ⟨way, name, hl, hl'⟩
  · rw [hl, hl']
  · rw [hl, hl']
    rcases he.entry_cases with ⟨_, _, rfl, rfl⟩ | ⟨_, rfl, rfl⟩ | ⟨_, _, rfl, rfl, -⟩ <;> rfl
  · rw [hl, hl']

/-- **Whether a path leads to a file** is the same in file systems that look alike. -/
theorem isFile_alike (h : root.Alike root') (path : Path) :
    isFile root path = isFile root' path := by
  rw [isFile, isFile]
  rcases h.locate_cases .target path with ⟨cause, hl, hl'⟩ | ⟨way, e, e', hl, hl', he⟩ |
    ⟨way, name, hl, hl'⟩
  · rw [hl, hl']
  · rw [hl, hl']
    rcases he.entry_cases with ⟨_, _, rfl, rfl⟩ | ⟨_, rfl, rfl⟩ | ⟨_, _, rfl, rfl, -⟩ <;> rfl
  · rw [hl, hl']

end Files
end TemplateBindings
