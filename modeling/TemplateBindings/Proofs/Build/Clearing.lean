import TemplateBindings.Build.Run
import TemplateBindings.Proofs.Build.Removing

/-!
# What a sweep leaves and says

A directory is swept bottom up: what is in it goes before itself, member after member in the order
of names (`TemplateBindings.Files.Entry.bottomUp`). Where nothing is out of reach, all that is left
are the kept files and links and the directories above them, the removals are told in the order of
the walk, each once, and a second sweep finds nothing (`TemplateBindings.Build.removeStale_clears`).

Out of reach are paths that are longer than paths may be: a file at the end of one stays, and ends
the sweep with an error (`TemplateBindings.Build.removeStale_misses`).
-/

namespace TemplateBindings

open Files

/-! ### Bottom up -/

namespace Files.Entry

variable {members : List (Str × Entry)} {way : List Str}

mutual

/-- **The ways to everything in an entry, bottom up**: those into a directory before the directory,
member after member. -/
def bottomUp : Entry → List (List Str)
  | directory members => bottomUpAmong members ++ [[]]
  | _ => [[]]

/-- Those into some members. -/
def bottomUpAmong : List (Str × Entry) → List (List Str)
  | [] => []
  | (name, entry) :: rest => entry.bottomUp.map (name :: ·) ++ bottomUpAmong rest

end

theorem member_of_mem_bottomUpAmong (h : way ∈ bottomUpAmong members) :
    ∃ m ∈ members, ∃ rest, way = m.1 :: rest := by
  induction members with
  | nil => cases h
  | cons m members ih =>
    rw [bottomUpAmong] at h
    rcases List.mem_append.1 h with h | h
    · obtain ⟨rest, -, rfl⟩ := List.mem_map.1 h
      exact ⟨m, List.mem_cons_self, rest, rfl⟩
    · obtain ⟨m', hm, rest, he⟩ := ih h
      exact ⟨m', List.mem_cons_of_mem _ hm, rest, he⟩

mutual

/-- **Bottom up, nothing comes behind what it is in**, and nothing comes twice. -/
theorem bottomUp_pairwise : (entry : Entry) → entry.Valid →
    entry.bottomUp.Pairwise fun first second => ¬ first <+: second
  | directory members, hv => by
    obtain ⟨hn, hm⟩ := valid_directory.1 hv
    rw [bottomUp, List.pairwise_append]
    refine ⟨bottomUpAmong_pairwise members hn fun m hmem => (hm m hmem).2,
      List.pairwise_singleton _ _, fun way hway root hroot hpre => ?_⟩
    obtain ⟨m, -, rest, rfl⟩ := member_of_mem_bottomUpAmong hway
    rw [List.mem_singleton.1 hroot, List.prefix_nil] at hpre
    cases hpre
  | file bytes modified, _ => by
    rw [bottomUp]
    · exact List.pairwise_singleton _ _
    · simp
  | link target, _ => by
    rw [bottomUp]
    · exact List.pairwise_singleton _ _
    · simp

theorem bottomUpAmong_pairwise : (members : List (Str × Entry)) → (members.map Prod.fst).Nodup →
    (∀ m ∈ members, m.2.Valid) →
    (bottomUpAmong members).Pairwise fun first second => ¬ first <+: second
  | [], _, _ => by
    rw [bottomUpAmong]
    exact .nil
  | (name, entry) :: members, hn, hv => by
    rw [List.map_cons, List.nodup_cons] at hn
    rw [bottomUpAmong, List.pairwise_append]
    refine ⟨?_, bottomUpAmong_pairwise members hn.2 fun m hm => hv m (List.mem_cons_of_mem _ hm),
      fun first hfirst second hsecond hpre => ?_⟩
    · refine (bottomUp_pairwise entry (hv _ List.mem_cons_self)).map _ fun first second h hpre => ?_
      exact h (List.cons_prefix_cons.1 hpre).2
    · -- the names of members tell the ways into them apart
      obtain ⟨rest, -, rfl⟩ := List.mem_map.1 hfirst
      obtain ⟨m, hm, rest', rfl⟩ := member_of_mem_bottomUpAmong hsecond
      exact hn.1 (List.mem_map.2 ⟨m, hm, (List.cons_prefix_cons.1 hpre).1.symm⟩)

end

end Files.Entry

namespace Build

variable {room : Nat} {keep : List Path} {path out : Path} {disk : Disk}
  {members : List (Str × Entry)} {removed : List Path}

/-! ### The order of a sweep -/

theorem Sweep.paths_append (first second : Sweep) :
    (first.append second).paths = first.paths ++ second.paths := by
  rw [paths, append, List.filterMap_append, List.filterMap_append]
  rfl

theorem Sweep.paths_closeDirectory (path : Path) (found : Sweep) :
    (found.closeDirectory path).paths.Sublist (found.paths ++ [path]) := by
  rw [closeDirectory]
  split
  · exact List.sublist_append_left _ _
  · rw [paths, List.filterMap_append, List.filterMap_append]
    exact .refl _

theorem Sweep.paths_leaf_sublist (path : Path) :
    (Sweep.paths (if keep.contains path then ⟨[], true⟩
      else ⟨[.ok (.removeFile path)], false⟩)).Sublist [path] := by
  split
  · exact List.nil_sublist _
  · exact .refl _

theorem map_bottomUpAmong_cons (path : Path) (name : Str) (entry : Entry)
    (members : List (Str × Entry)) :
    (Entry.bottomUpAmong ((name, entry) :: members)).map (path ++ ·) =
      entry.bottomUp.map (path ++ [name] ++ ·) ++
        (Entry.bottomUpAmong members).map (path ++ ·) := by
  rw [Entry.bottomUpAmong, List.map_append, List.map_map]
  simp [Function.comp_def]

mutual

/-- **A sweep goes bottom up.** -/
theorem paths_sweep_sublist : (entry : Entry) → (room : Nat) → (path : Path) →
    (sweep room keep path entry).paths.Sublist (entry.bottomUp.map (path ++ ·))
  | .directory members, room + 1, path => by
    rw [sweep, Entry.bottomUp, List.map_append, List.map_singleton, List.append_nil]
    exact (Sweep.paths_closeDirectory path _).trans
      ((paths_sweepMembers_sublist members room path).append (.refl _))
  | .directory members, 0, path => by
    rw [sweep]
    exact List.nil_sublist _
  | .file bytes modified, room, path => by
    rw [sweep, Entry.bottomUp, List.map_singleton, List.append_nil]
    · exact Sweep.paths_leaf_sublist path
    · simp
    · simp
  | .link target, room, path => by
    rw [sweep, Entry.bottomUp, List.map_singleton, List.append_nil]
    · exact Sweep.paths_leaf_sublist path
    · simp
    · simp

theorem paths_sweepMembers_sublist : (members : List (Str × Entry)) → (room : Nat) →
    (path : Path) → (sweepMembers room keep path members).paths.Sublist
      ((Entry.bottomUpAmong members).map (path ++ ·))
  | [], room, path => by
    rw [sweepMembers]
    exact List.nil_sublist _
  | (name, entry) :: members, room, path => by
    rw [sweepMembers, Sweep.paths_append, map_bottomUpAmong_cons]
    exact (paths_sweep_sublist entry room (path ++ [name])).append
      (paths_sweepMembers_sublist members room path)

end

/-- **What is at a place and below it**, bottom up and in the order of names. -/
def walkOf (files : Entry) (out : Path) : List Path :=
  match files.at? out with
  | some entry => entry.sorted.bottomUp.map (out ++ ·)
  | none => []

theorem walkOf_pairwise {files : Entry} (hv : files.Valid) (out : Path) :
    (walkOf files out).Pairwise fun first second => ¬ first <+: second := by
  rw [walkOf]
  split
  · next entry hat =>
    refine (Entry.bottomUp_pairwise _ (Entry.Valid.sorted _ (hv.at? hat))).map _
      fun first second h hpre => ?_
    exact h ((List.prefix_append_right_inj out).1 hpre)
  · exact .nil

/-- A sweep that ends well tells its removals in the order of the walk. -/
theorem removed_sublist (hout : OutputRoot disk.root out)
    (hok : ((removeStale room out keep).runOn disk).1 = .ok removed) :
    removed.Sublist (walkOf disk.root out) := by
  obtain ⟨members, hat⟩ := Entry.see?_eq_some_directory.1 hout.directory
  have horder : (sweep room keep out (Entry.directory members).sorted).paths.Sublist
      ((Entry.directory members).sorted.bottomUp.map (out ++ ·)) := paths_sweep_sublist _ _ _
  rw [runOn_removeStale_of_at? hout hat] at hok
  rw [walkOf, hat]
  split at hok
  · rw [← Except.ok.inj hok]
    exact horder
  · cases hok

/-! ### What is left -/

/-- **A directory cleared of what is not kept.** -/
structure Cleared (out : Path) (keep : List Path) (before after : Entry) (removed : List Path) :
    Prop where
  /-- Of what is no directory, all that is kept is left as it was. -/
  leaves : ∀ q sight, out <+: q → sight ≠ .directory →
    (after.see? q = some sight ↔ before.see? q = some sight ∧ q ∈ keep)
  /-- Of the directories, those with something kept below them are left. -/
  directories : ∀ q, out <+: q →
    (after.see? q = some .directory ↔
      before.see? q = some .directory ∧ ∃ below sight, q <+: below ∧
        before.see? below = some sight ∧ sight ≠ .directory ∧ below ∈ keep)
  /-- Nothing outside is touched. -/
  outside : ∀ q, ¬ out <+: q → after.see? q = before.see? q
  /-- What was removed is what is missing. -/
  mem_removed : ∀ q, q ∈ removed ↔ before.see? q ≠ none ∧ after.see? q = none
  /-- It is told once. -/
  nodup : removed.Nodup
  /-- Nothing is told before what was in it. -/
  upward : removed.Pairwise fun first second => ¬ first <+: second
  /-- It is told in the order of the walk. -/
  inOrder : removed.Sublist (walkOf before out)

variable {result : Except FileError (List Path) × Disk} {operations : List Operation}

/-- **A sweep that ends well clears its directory.** -/
theorem Sweeps.cleared (h : Sweeps room out keep disk result operations)
    (hv : disk.root.Valid) (hok : result.1 = .ok removed)
    (horder : removed.Sublist (walkOf disk.root out)) :
    Cleared out keep disk.root result.2.root removed := by
  have hupward : removed.Pairwise fun first second => ¬ first <+: second :=
    (walkOf_pairwise hv out).sublist horder
  have hnodup : removed.Pairwise (· ≠ ·) := hupward.imp fun hnot he => hnot (by rw [he])
  have hafter (q : Path) :
      result.2.root.see? q = if q ∈ removed then none else disk.root.see? q := by
    rw [h.paths_eq removed hok]
    exact h.effects q
  -- what was removed is what was there and is not kept
  have hremoved (q : Path) :
      q ∈ removed ↔ out <+: q ∧ disk.root.see? q ≠ none ∧ ¬ Kept disk.root keep q := by
    constructor
    · intro hq
      rw [h.paths_eq removed hok] at hq
      obtain ⟨operation, ho, hpath⟩ := List.mem_filterMap.1 hq
      obtain ⟨q', hbelow, hq', hkind, hkept, -⟩ := h.takes operation ho
      cases hpath.symm.trans hq'
      refine ⟨hbelow, ?_, hkept⟩
      rcases hkind with ⟨-, sight, hs, -⟩ | ⟨-, hs⟩ <;> rw [hs] <;> simp
    · rintro ⟨hbelow, hs, hkept⟩
      exact h.complete removed hok q hbelow hs hkept
  have hleft {q : Path} (hq : out <+: q) (sight : Sight) :
      result.2.root.see? q = some sight ↔
        disk.root.see? q = some sight ∧ Kept disk.root keep q := by
    rw [hafter]
    split
    · next hmem => simp [((hremoved q).1 hmem).2.2]
    · next hmem =>
      refine ⟨fun hs => ⟨hs, ?_⟩, And.left⟩
      by_contra hkept
      exact hmem ((hremoved q).2 ⟨hq, by simp [hs], hkept⟩)
  refine ⟨fun q sight hq hne => ?_, fun q hq => hleft hq .directory, fun q hq => h.outside hq,
    fun q => ?_, hnodup, hupward, horder⟩
  · rw [hleft hq]
    refine and_congr_right fun hs => ⟨?_, fun hk => ⟨q, sight, List.prefix_rfl, hs, hne, hk⟩⟩
    -- below what is no directory there is nothing
    rintro ⟨below, sight', hbelow, hs', -, hk⟩
    have he : q = below := by
      by_contra hneq
      rw [Entry.see?_directory_of_prefix hbelow hneq (by simp [hs'])] at hs
      exact hne (Option.some.inj hs).symm
    exact he ▸ hk
  · rw [hafter]
    constructor
    · intro hmem
      exact ⟨((hremoved q).1 hmem).2.1, if_pos hmem⟩
    · rintro ⟨hs, hnone⟩
      by_contra hmem
      rw [if_neg hmem] at hnone
      exact hs hnone

/-- Where nothing stands in the place of a directory, or something else, a sweep does nothing. -/
theorem runOn_removeStale_of_not_directory (hp : out.Proper) (hplain : out.Plain disk.root)
    (h : disk.root.see? out ≠ some .directory) :
    (removeStale room out keep).runOn disk = (.ok [], disk) := by
  rw [removeStale, Work.runOn_bind, Work.runOn_ask]
  dsimp only
  split
  · next members hentry =>
    rw [entryAt?] at hentry
    split at hentry
    · next way entry hloc =>
      cases hentry
      rcases spot_of_locate hp hplain.straight (.inr hplain) hloc with
        ⟨entry, hat, he⟩ | ⟨_, _, -, -, -, he⟩
      · cases he
        exact absurd (Entry.see?_eq_some_directory.2 ⟨members, hat⟩) h
      · cases he
    · cases hentry
  · rfl

/-- **A cleared directory has nothing stale in it.** -/
theorem Cleared.removeStale_eq {before : Entry} (h : Cleared out keep before disk.root removed)
    (hv : disk.root.Valid) (hne : out ≠ []) (hp : out.Proper) (hf : out.Fits)
    (hplain : out.Plain disk.root) (hdeep : ∀ q, ¬ TooDeep disk.root room out q) :
    (removeStale room out keep).runOn disk = (.ok [], disk) := by
  by_cases hdir : disk.root.see? out = some .directory
  · have hout : OutputRoot disk.root out := ⟨hp, hf, hdir⟩
    obtain ⟨operations, hsweeps⟩ := removeStale_sweeps room keep hv (fun he => absurd he hne) hout
    -- whatever is there is kept
    have hkept (q : Path) (hq : out <+: q) (hs : disk.root.see? q ≠ none) :
        Kept disk.root keep q := by
      obtain ⟨sight, hsight⟩ := Option.ne_none_iff_exists'.1 hs
      by_cases hd : sight = .directory
      · subst hd
        obtain ⟨-, below, sight, hbelow, hsb, hne, hk⟩ := (h.directories q hq).1 hsight
        exact ⟨below, sight, hbelow, (h.leaves below sight (hq.trans hbelow) hne).2 ⟨hsb, hk⟩, hne,
          hk⟩
      · exact ⟨q, sight, List.prefix_rfl, hsight, hd, ((h.leaves q sight hq hd).1 hsight).2⟩
    have hnil : operations = [] := by
      refine List.eq_nil_iff_forall_not_mem.2 fun operation ho => ?_
      obtain ⟨q, hq, -, hkind, hnot, -⟩ := hsweeps.takes operation ho
      refine hnot (hkept q hq ?_)
      rcases hkind with ⟨-, sight, hs, -⟩ | ⟨-, hs⟩ <;> rw [hs] <;> simp
    subst hnil
    obtain ⟨paths, hok⟩ := removeStale_isOk keep hv hne hout hdeep
      fun q hq hs hnot => absurd (hkept q hq hs) hnot
    have hpaths := hsweeps.paths_eq paths hok
    rcases hr : (removeStale room out keep).runOn disk with ⟨result, after⟩
    rw [hr] at hsweeps hok
    cases hsweeps.undergoes
    dsimp only at hok
    rw [hok, hpaths]
    rfl
  · exact runOn_removeStale_of_not_directory hp hplain hdir

/-- **A sweep clears its directory.** For every directory that is reached without links, and is not
the root of the file system, and everything kept in it: if no path below it is longer than paths may
be, and there is room to enter its directories, a sweep ends well, it leaves the kept files and
links and the directories above them, it tells every removal once, bottom up and in the order of
names, and a second sweep removes nothing. -/
theorem removeStale_clears (keep : List Path) (hv : disk.root.Valid) (hne : out ≠ [])
    (hout : OutputRoot disk.root out) (hdeep : ∀ q, ¬ TooDeep disk.root room out q)
    (hfits : ∀ q : Path, disk.root.see? q ≠ none → out <+: q → q.Fits) :
    ∃ removed cleared, (removeStale room out keep).runOn disk = (.ok removed, cleared) ∧
      Cleared out keep disk.root cleared.root removed ∧
      (removeStale room out keep).runOn cleared = (.ok [], cleared) := by
  obtain ⟨removed, hok⟩ := removeStale_isOk keep hv hne hout hdeep fun q hq hs _ => hfits q hs hq
  obtain ⟨operations, hsweeps⟩ := removeStale_sweeps room keep hv (fun he => absurd he hne) hout
  have hcleared := hsweeps.cleared hv hok (removed_sublist hout hok)
  refine ⟨removed, _, Prod.ext hok rfl, hcleared, ?_⟩
  -- nothing has appeared that the first sweep did not see
  have hshallow (q : Path) :
      ¬ TooDeep ((removeStale room out keep).runOn disk).2.root room out q := by
    rintro ⟨hq, hs, hlen⟩
    rcases hsweeps.none_or_eq q with he | he
    · rw [he] at hs
      cases hs
    · exact hdeep q ⟨hq, he.symm.trans hs, hlen⟩
  have hplain : out.Plain ((removeStale room out keep).runOn disk).2.root := by
    intro way hway target hl
    rcases hsweeps.none_or_eq way with he | he
    · rw [he] at hl
      cases hl
    · rw [he, Entry.see?_directory_of_prefix_directory hway hout.directory] at hl
      cases hl
  exact hcleared.removeStale_eq (hsweeps.undergoes.valid hv) hne hout.proper hout.fits hplain
    hshallow

/-- An output directory with kept files, stale ones, a link and directories of each kind. -/
def crowded : Disk where
  root := .directory
    [("out".toList, .directory
        [("b".toList, .directory
            [("y.ts".toList, .file [] 2), ("x".toList, .directory [("z.ts".toList, .file [] 3)])]),
          ("a".toList, .directory [("x".toList, .directory [])]),
          ("a.ts".toList, .link "b".toList), ("a.css".toList, .file [] 1)])]
  now := 0

/-- What is kept of it: a file, and a directory, which is not kept for itself. -/
def crowdedKeep : List Path :=
  [["out".toList, "b".toList, "y.ts".toList], ["out".toList, "a".toList]]

/-- What is removed of it. -/
def crowdedRemoved : List Path :=
  [["out".toList, "a".toList, "x".toList], ["out".toList, "a".toList],
    ["out".toList, "a.css".toList], ["out".toList, "a.ts".toList],
    ["out".toList, "b".toList, "x".toList, "z.ts".toList], ["out".toList, "b".toList, "x".toList]]

theorem removeStale_clears_crowded :
    ∃ cleared, (removeStale sweepRoom ["out".toList] crowdedKeep).runOn crowded =
        (.ok crowdedRemoved, cleared) ∧
      Cleared ["out".toList] crowdedKeep crowded.root cleared.root crowdedRemoved ∧
      (removeStale sweepRoom ["out".toList] crowdedKeep).runOn cleared = (.ok [], cleared) := by
  have hok : ((removeStale sweepRoom ["out".toList] crowdedKeep).runOn crowded).1 =
      .ok crowdedRemoved := by
    decide +kernel
  have hroot : OutputRoot crowded.root ["out".toList] :=
    ⟨by decide, by decide +kernel, by decide +kernel⟩
  have hdeep : ∀ q, ¬ TooDeep crowded.root sweepRoom ["out".toList] q := by decide +kernel
  obtain ⟨removed, cleared, hrun, hcleared, hagain⟩ :=
    removeStale_clears crowdedKeep (by decide +kernel) (by simp) hroot hdeep (by decide +kernel)
  rw [hrun] at hok
  cases hok
  exact ⟨cleared, hrun, hcleared, hagain⟩

/-! ### Out of reach -/

/-- A name as long as names may be. -/
def longName : Str := List.replicate nameLimit (.char 'n')

/-- A file in directories in each other. -/
def buried : (depth : Nat) → Entry
  | 0 => .file [] 0
  | depth + 1 => .directory [(longName, buried depth)]

/-- A disk with a file at the end of a path that is longer than paths may be. -/
def far : Disk where
  root := .directory [("out".toList, buried 16)]
  now := 0

/-- The path of the file. -/
def farPath : Path := "out".toList :: List.replicate 16 longName

/-- **A sweep misses what is too far away**: nothing is kept, and still the file stays. -/
theorem removeStale_misses :
    ((removeStale sweepRoom ["out".toList] []).runOn far).1 = .error ⟨.nameTooLong, farPath, none⟩ ∧
      ((removeStale sweepRoom ["out".toList] []).runOn far).2.root.see? farPath =
        some (.file [] 0) := by
  decide +kernel

/-- **A sweep does not end well where a directory is too deep**, and the directory stays. -/
theorem removeStale_tooDeep (keep : List Path) (hv : disk.root.Valid) (hne : out ≠ [])
    (hout : OutputRoot disk.root out) (h : TooDeep disk.root room out q) :
    (∀ removed, ((removeStale room out keep).runOn disk).1 ≠ .ok removed) ∧
      TooDeep ((removeStale room out keep).runOn disk).2.root room out q := by
  obtain ⟨operations, hsweeps⟩ := removeStale_sweeps room keep hv (fun he => absurd he hne) hout
  exact ⟨fun removed hok => hsweeps.shallow removed hok q h, hsweeps.tooDeep h⟩

/-- Empty directories in each other. -/
def shaft : (depth : Nat) → Entry
  | 0 => .directory []
  | depth + 1 => .directory [("d".toList, shaft depth)]

theorem shaft_valid (depth : Nat) : (shaft depth).Valid := by
  induction depth with
  | zero => exact ⟨List.nodup_nil, trivial⟩
  | succ depth ih => exact ⟨List.nodup_singleton _, by decide, ih, trivial⟩

theorem see?_shaft (depth : Nat) :
    (shaft depth).see? (List.replicate depth "d".toList) = some .directory := by
  induction depth with
  | zero => rfl
  | succ depth ih =>
    rw [List.replicate_succ, shaft, Entry.see?_directory_cons, List.lookup_cons_self]
    exact ih

/-- A disk with a shaft in the place of the outputs. -/
def sunk (depth : Nat) : Disk where
  root := .directory [("out".toList, shaft depth)]
  now := 0

/-- **For every room there is a shaft that a sweep does not clear**, whatever is kept. -/
theorem removeStale_sunk (room : Nat) (keep : List Path) :
    (∀ removed, ((removeStale room ["out".toList] keep).runOn (sunk room)).1 ≠ .ok removed) ∧
      ((removeStale room ["out".toList] keep).runOn (sunk room)).2.root.see?
        ("out".toList :: List.replicate room "d".toList) = some .directory := by
  have hsee (way : List Str) : (sunk room).root.see? ("out".toList :: way) = (shaft room).see? way := by
    rw [sunk, Entry.see?_directory_cons, List.lookup_cons_self]
    rfl
  have hroot : OutputRoot (sunk room).root ["out".toList] := by
    refine ⟨by decide, by decide +kernel, (hsee []).trans ?_⟩
    cases room <;> rfl
  have hdeep : TooDeep (sunk room).root room ["out".toList]
      ("out".toList :: List.replicate room "d".toList) := by
    refine ⟨⟨_, List.singleton_append⟩, (hsee _).trans (see?_shaft room), ?_⟩
    simp [Nat.add_comm]
  have hv : (sunk room).root.Valid :=
    ⟨List.nodup_singleton _, by decide, shaft_valid room, trivial⟩
  obtain ⟨hfails, -, hstays, -⟩ := removeStale_tooDeep keep hv (by simp) hroot hdeep
  exact ⟨hfails, hstays⟩

end Build
end TemplateBindings
