import TemplateBindings.Build.Stale
import TemplateBindings.Proofs.Files.Sorted

/-!
# What a sweep removes

A sweep takes away everything that nothing blocks: what is kept blocks the removal of everything
above it, and so does a directory that lies too deep to be entered
(`TemplateBindings.Build.Blocks`). What it finds to remove is the rest
(`TemplateBindings.Build.sweep_spec`).
-/

namespace TemplateBindings
namespace Build

open Files

variable {room : Nat} {keep : List Path} {path q : Path} {entry : Entry}
  {members : List (Str × Entry)} {rest below : List Str} {name : Str} {operation : Operation}

/-! ### What blocks a removal -/

/-- **What blocks the removal of everything above it**, by its way down from where a sweep starts:
something kept that is no directory, or a directory too deep to be entered. -/
def Blocks (room : Nat) (keep : List Path) (path : Path) (entry : Entry) (rest : List Str) :
    Prop :=
  (∃ sight, entry.see? rest = some sight ∧ sight ≠ .directory ∧ path ++ rest ∈ keep) ∨
    (entry.see? rest = some .directory ∧ room ≤ rest.length)

/-- The removal of what is seen at the end of a way down. -/
def Removal (path : Path) (entry : Entry) (rest : List Str) (operation : Operation) : Prop :=
  (operation = .removeFile (path ++ rest) ∧
      ∃ sight, entry.see? rest = some sight ∧ sight ≠ .directory) ∨
    (operation = .removeDirectory (path ++ rest) ∧ entry.see? rest = some .directory)

theorem Removal.removedPath? (h : Removal path entry rest operation) :
    Build.removedPath? operation = some (path ++ rest) := by
  rcases h with ⟨rfl, -⟩ | ⟨rfl, -⟩ <;> rfl

theorem Removal.see?_ne_none (h : Removal path entry rest operation) : entry.see? rest ≠ none := by
  rcases h with ⟨-, sight, hs, -⟩ | ⟨-, hs⟩ <;> rw [hs] <;> simp

theorem see?_cons_iff {sight : Sight} (hn : (members.map Prod.fst).Nodup) :
    (Entry.directory members).see? (name :: rest) = some sight ↔
      ∃ m ∈ members, m.1 = name ∧ m.2.see? rest = some sight := by
  rw [Entry.see?_directory_cons]
  constructor
  · intro h
    obtain ⟨next, hl, hs⟩ := Option.bind_eq_some_iff.1 h
    exact ⟨(name, next), Entry.mem_of_lookup hl, rfl, hs⟩
  · rintro ⟨⟨n, next⟩, hm, rfl, hs⟩
    rw [Entry.lookup_of_mem hn hm]
    exact hs

theorem blocks_cons_iff (hn : (members.map Prod.fst).Nodup) :
    Blocks (room + 1) keep path (.directory members) (name :: rest) ↔
      ∃ m ∈ members, m.1 = name ∧ Blocks room keep (path ++ [m.1]) m.2 rest := by
  have hpath : path ++ [name] ++ rest = path ++ name :: rest := by simp
  constructor
  · rintro (⟨sight, hs, hne, hk⟩ | ⟨hs, hlen⟩)
    · obtain ⟨m, hm, rfl, hsee⟩ := (see?_cons_iff hn).1 hs
      exact ⟨m, hm, rfl, .inl ⟨sight, hsee, hne, hpath ▸ hk⟩⟩
    · obtain ⟨m, hm, rfl, hsee⟩ := (see?_cons_iff hn).1 hs
      exact ⟨m, hm, rfl, .inr ⟨hsee, by simpa using hlen⟩⟩
  · rintro ⟨m, hm, rfl, ⟨sight, hs, hne, hk⟩ | ⟨hs, hlen⟩⟩
    · exact .inl ⟨sight, (see?_cons_iff hn).2 ⟨m, hm, rfl, hs⟩, hne, hpath ▸ hk⟩
    · exact .inr ⟨(see?_cons_iff hn).2 ⟨m, hm, rfl, hs⟩, by simpa using hlen⟩

theorem not_blocks_nil : ¬ Blocks (room + 1) keep path (.directory members) [] := by
  rintro (⟨sight, hs, hne, -⟩ | ⟨-, hlen⟩)
  · exact hne (Option.some.inj hs).symm
  · exact absurd hlen (by simp)

/-! ### The sweep of an entry -/

/-- **What a sweep finds** at a path and below it. -/
structure SweepSpec (room : Nat) (keep : List Path) (path : Path) (entry : Entry) (found : Sweep) :
    Prop where
  /-- It says whether something blocks. -/
  meets : found.meetsKept = true ↔ ∃ rest, Blocks room keep path entry rest
  /-- It removes what is there and what nothing blocks. -/
  removed : ∀ operation, .ok operation ∈ found.removals → ∃ rest, Removal path entry rest operation ∧
    ∀ below, rest <+: below → ¬ Blocks room keep path entry below
  /-- It removes all of that, if no directory is too deep. -/
  complete : (∀ rest, entry.see? rest = some .directory → rest.length < room) →
    ∀ rest, entry.see? rest ≠ none → (∀ below, rest <+: below → ¬ Blocks room keep path entry below) →
      ∃ operation, .ok operation ∈ found.removals ∧ removedPath? operation = some (path ++ rest)
  /-- A directory that is too deep is an error. -/
  deep : ∀ rest, entry.see? rest = some .directory → room ≤ rest.length →
    ∃ e, .error e ∈ found.removals

/-- What a sweep finds among members. -/
structure MembersSpec (room : Nat) (keep : List Path) (path : Path) (members : List (Str × Entry))
    (found : Sweep) : Prop where
  /-- It says whether something blocks. -/
  meets : found.meetsKept = true ↔
    ∃ m ∈ members, ∃ rest, Blocks room keep (path ++ [m.1]) m.2 rest
  /-- It removes what is there and what nothing blocks. -/
  removed : ∀ operation, .ok operation ∈ found.removals →
    ∃ m ∈ members, ∃ rest, Removal (path ++ [m.1]) m.2 rest operation ∧
      ∀ below, rest <+: below → ¬ Blocks room keep (path ++ [m.1]) m.2 below
  /-- It removes all of that, if no directory is too deep. -/
  complete : (∀ m ∈ members, ∀ rest, m.2.see? rest = some .directory → rest.length < room) →
    ∀ m ∈ members, ∀ rest, m.2.see? rest ≠ none →
      (∀ below, rest <+: below → ¬ Blocks room keep (path ++ [m.1]) m.2 below) →
        ∃ operation, .ok operation ∈ found.removals ∧
          removedPath? operation = some (path ++ [m.1] ++ rest)
  /-- A directory that is too deep is an error. -/
  deep : ∀ m ∈ members, ∀ rest, m.2.see? rest = some .directory → room ≤ rest.length →
    ∃ e, .error e ∈ found.removals

theorem MembersSpec.nil (room : Nat) (keep : List Path) (path : Path) :
    MembersSpec room keep path [] .empty where
  meets := by simp [Sweep.empty]
  removed := by simp [Sweep.empty]
  complete := by simp
  deep := by simp

theorem MembersSpec.cons {found foundRest : Sweep}
    (h : SweepSpec room keep (path ++ [name]) entry found)
    (h' : MembersSpec room keep path members foundRest) :
    MembersSpec room keep path ((name, entry) :: members) (found.append foundRest) where
  meets := by
    rw [Sweep.append, Bool.or_eq_true, h.meets, h'.meets]
    simp only [List.mem_cons, exists_eq_or_imp]
  removed operation ho := by
    rcases List.mem_append.1 ho with ho | ho
    · exact ⟨_, List.mem_cons_self, h.removed operation ho⟩
    · obtain ⟨m, hm, hr⟩ := h'.removed operation ho
      exact ⟨m, List.mem_cons_of_mem _ hm, hr⟩
  complete hdeep m hm rest hs hb := by
    rcases List.mem_cons.1 hm with rfl | hm
    · obtain ⟨operation, ho, hp⟩ := h.complete (hdeep _ List.mem_cons_self) rest hs hb
      exact ⟨operation, List.mem_append_left _ ho, hp⟩
    · obtain ⟨operation, ho, hp⟩ :=
        h'.complete (fun m hm => hdeep m (List.mem_cons_of_mem _ hm)) m hm rest hs hb
      exact ⟨operation, List.mem_append_right _ ho, hp⟩
  deep m hm rest hs hlen := by
    rcases List.mem_cons.1 hm with rfl | hm
    · obtain ⟨e, he⟩ := h.deep rest hs hlen
      exact ⟨e, List.mem_append_left _ he⟩
    · obtain ⟨e, he⟩ := h'.deep m hm rest hs hlen
      exact ⟨e, List.mem_append_right _ he⟩

/-- Below a name, what blocks in a directory blocks in its member. -/
theorem not_blocks_of_member {m : Str × Entry} (hn : (members.map Prod.fst).Nodup)
    (hm : m ∈ members)
    (h : ∀ below, rest <+: below → ¬ Blocks room keep (path ++ [m.1]) m.2 below) :
    ∀ below, m.1 :: rest <+: below →
      ¬ Blocks (room + 1) keep path (.directory members) below := by
  rintro below ⟨tail, rfl⟩ hb
  rw [List.cons_append] at hb
  obtain ⟨m', hm', he, hb⟩ := (blocks_cons_iff hn).1 hb
  have hsame : m' = m := by
    have hl := Entry.lookup_of_mem hn hm
    have hl' := Entry.lookup_of_mem hn hm'
    rw [he, hl] at hl'
    exact Prod.ext he (Option.some.inj hl').symm
  rw [hsame] at hb
  exact h _ (List.prefix_append _ _) hb

/-- A directory with what a sweep finds among its members. -/
theorem SweepSpec.directory {found : Sweep} (hn : (members.map Prod.fst).Nodup)
    (h : MembersSpec room keep path members found) :
    SweepSpec (room + 1) keep path (.directory members) (found.closeDirectory path) := by
  have hblocks : (∃ rest, Blocks (room + 1) keep path (.directory members) rest) ↔
      found.meetsKept = true := by
    rw [h.meets]
    constructor
    · rintro ⟨_ | ⟨name, rest⟩, hb⟩
      · exact absurd hb not_blocks_nil
      · obtain ⟨m, hm, -, hb⟩ := (blocks_cons_iff hn).1 hb
        exact ⟨m, hm, rest, hb⟩
    · rintro ⟨m, hm, rest, hb⟩
      exact ⟨m.1 :: rest, (blocks_cons_iff hn).2 ⟨m, hm, rfl, hb⟩⟩
  have hmem (x : Except FileError Operation) (hx : x ∈ found.removals) :
      x ∈ (found.closeDirectory path).removals := by
    rw [Sweep.closeDirectory]
    split
    · exact hx
    · exact List.mem_append_left _ hx
  refine ⟨?_, fun operation ho => ?_, fun hdeep rest hs hb => ?_, fun rest hs hlen => ?_⟩
  · rw [hblocks, Sweep.closeDirectory]
    split
    · next hk => simp [hk]
    · next hk => simp [hk]
  · have hcases : .ok operation ∈ found.removals ∨
        found.meetsKept ≠ true ∧ operation = .removeDirectory path := by
      rw [Sweep.closeDirectory] at ho
      split at ho
      · exact .inl ho
      · next hk =>
        rcases List.mem_append.1 ho with ho | ho
        · exact .inl ho
        · exact .inr ⟨hk, Except.ok.inj (List.mem_singleton.1 ho)⟩
    rcases hcases with ho | ⟨hk, rfl⟩
    · obtain ⟨m, hm, rest, hremoval, hb⟩ := h.removed operation ho
      have hpath : path ++ [m.1] ++ rest = path ++ m.1 :: rest := by simp
      refine ⟨m.1 :: rest, ?_, not_blocks_of_member hn hm hb⟩
      rcases hremoval with ⟨he, sight, hs, hne⟩ | ⟨he, hs⟩
      · exact .inl ⟨hpath ▸ he, sight, (see?_cons_iff hn).2 ⟨m, hm, rfl, hs⟩, hne⟩
      · exact .inr ⟨hpath ▸ he, (see?_cons_iff hn).2 ⟨m, hm, rfl, hs⟩⟩
    · refine ⟨[], .inr ⟨by rw [List.append_nil], rfl⟩, fun below _ hb => ?_⟩
      exact hk (hblocks.1 ⟨below, hb⟩)
  · rcases rest with _ | ⟨name, rest⟩
    · have hk : found.meetsKept ≠ true := by
        intro hk
        obtain ⟨below, hbelow⟩ := hblocks.2 hk
        exact hb below List.nil_prefix hbelow
      refine ⟨.removeDirectory path, ?_, by rw [removedPath?, List.append_nil]⟩
      rw [Sweep.closeDirectory, if_neg hk]
      exact List.mem_append_right _ (List.mem_singleton.2 rfl)
    · obtain ⟨sight, hsight⟩ := Option.ne_none_iff_exists'.1 hs
      obtain ⟨m, hm, rfl, hsee⟩ := (see?_cons_iff hn).1 hsight
      have hpath : path ++ [m.1] ++ rest = path ++ m.1 :: rest := by simp
      obtain ⟨operation, ho, hp⟩ := h.complete
        (fun m hm rest hd => by
          have hlen := hdeep (m.1 :: rest) ((see?_cons_iff hn).2 ⟨m, hm, rfl, hd⟩)
          simpa using hlen)
        m hm rest (by rw [hsee]; simp) fun below hbelow hblock =>
          hb (m.1 :: below) (List.cons_prefix_cons.2 ⟨rfl, hbelow⟩)
            ((blocks_cons_iff hn).2 ⟨m, hm, rfl, hblock⟩)
      exact ⟨operation, hmem _ ho, hpath ▸ hp⟩
  · rcases rest with _ | ⟨name, rest⟩
    · exact absurd hlen (by simp)
    · obtain ⟨m, hm, rfl, hsee⟩ := (see?_cons_iff hn).1 hs
      obtain ⟨e, he⟩ := h.deep m hm rest hsee (by simpa using hlen)
      exact ⟨e, hmem _ he⟩

/-- What is no directory is kept or removed. -/
theorem SweepSpec.leaf (hleaf : ∀ members, entry ≠ .directory members) :
    SweepSpec room keep path entry
      (if keep.contains path then ⟨[], true⟩ else ⟨[.ok (.removeFile path)], false⟩) := by
  have hsight : entry.sight ≠ .directory := by
    cases entry with
    | directory members => exact absurd rfl (hleaf members)
    | file bytes modified => simp [Entry.sight]
    | link target => simp [Entry.sight]
  have hsee {rest : List Str} {sight : Sight} (hs : entry.see? rest = some sight) :
      rest = [] ∧ sight = entry.sight := by
    rcases rest with _ | ⟨name, rest⟩
    · exact ⟨rfl, (Option.some.inj hs).symm⟩
    · cases entry with
      | directory members => exact absurd rfl (hleaf members)
      | file bytes modified => cases hs
      | link target => cases hs
  have hdirectory (rest : List Str) : entry.see? rest ≠ some .directory :=
    fun hs => hsight (hsee hs).2.symm
  have hblocks (rest : List Str) :
      Blocks room keep path entry rest ↔ rest = [] ∧ path ∈ keep := by
    constructor
    · rintro (⟨sight, hs, -, hk⟩ | ⟨hs, -⟩)
      · obtain ⟨rfl, -⟩ := hsee hs
        exact ⟨rfl, by simpa using hk⟩
      · exact absurd hs (hdirectory rest)
    · rintro ⟨rfl, hk⟩
      exact .inl ⟨entry.sight, rfl, hsight, by simpa using hk⟩
  by_cases hk : path ∈ keep
  · rw [if_pos (by simpa using hk)]
    refine ⟨by simp [hblocks, hk], by simp, fun _ rest hs hb => ?_, fun rest hs => ?_⟩
    · exact absurd ((hblocks rest).2 ⟨(hsee (Option.ne_none_iff_exists'.1 hs).choose_spec).1, hk⟩)
        (hb rest List.prefix_rfl)
    · exact absurd hs (hdirectory rest)
  · rw [if_neg (by simpa using hk)]
    refine ⟨by simp [hblocks, hk], fun operation ho => ?_, fun _ rest hs hb => ?_, fun rest hs => ?_⟩
    · rw [Except.ok.inj (List.mem_singleton.1 ho)]
      refine ⟨[], .inl ⟨by rw [List.append_nil], entry.sight, rfl, hsight⟩, fun below _ hb => ?_⟩
      exact hk ((hblocks below).1 hb).2
    · obtain ⟨sight, hsight⟩ := Option.ne_none_iff_exists'.1 hs
      obtain ⟨rfl, -⟩ := hsee hsight
      exact ⟨.removeFile path, by simp, by rw [removedPath?, List.append_nil]⟩
    · exact absurd hs (hdirectory rest)

mutual

/-- **What a sweep finds in a valid entry.** -/
theorem sweep_spec : (entry : Entry) → entry.Valid → (room : Nat) → (path : Path) →
    SweepSpec room keep path entry (sweep room keep path entry)
  | .directory members, hv, room + 1, path => by
    obtain ⟨hn, hm⟩ := Entry.valid_directory.1 hv
    rw [sweep]
    exact .directory hn (sweepMembers_spec members (fun m hmem => (hm m hmem).2) room path)
  | .directory members, hv, 0, path => by
    -- without room the directory itself is too deep, and blocks
    rw [sweep]
    have hblocks : Blocks 0 keep path (.directory members) [] := .inr ⟨rfl, Nat.zero_le _⟩
    refine ⟨by simpa using ⟨[], hblocks⟩, by simp, fun hdeep => ?_, fun _ _ _ => ?_⟩
    · exact absurd (hdeep [] rfl) (by simp)
    · exact ⟨⟨.tooDeep, path, none⟩, List.mem_singleton.2 rfl⟩
  | .file bytes modified, _, room, path => by
    rw [sweep]
    · exact .leaf (by simp)
    · simp
  | .link target, _, room, path => by
    rw [sweep]
    · exact .leaf (by simp)
    · simp

theorem sweepMembers_spec : (members : List (Str × Entry)) → (∀ m ∈ members, m.2.Valid) →
    (room : Nat) → (path : Path) →
    MembersSpec room keep path members (sweepMembers room keep path members)
  | [], _, room, path => by
    rw [sweepMembers]
    exact .nil room keep path
  | (name, entry) :: members, hv, room, path => by
    rw [sweepMembers]
    exact .cons (sweep_spec entry (hv _ List.mem_cons_self) room (path ++ [name]))
      (sweepMembers_spec members (fun m hm => hv m (List.mem_cons_of_mem _ hm)) room path)

end

end Build
end TemplateBindings
