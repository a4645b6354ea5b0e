import TemplateBindings.Proofs.Build.Sources
import TemplateBindings.Proofs.Files.Directories

/-!
# Finding the same sources

What a run discovers depends on what is found at the ends of the ways below the root of its sources
(`TemplateBindings.Build.sourceAt`), the output directory left out. Where nothing has changed there
(`TemplateBindings.Build.Unchanged`), the same sources are discovered again
(`TemplateBindings.Build.Unchanged.discover_eq`), whatever has become of the outputs.
-/

namespace TemplateBindings
namespace Build

open Files

variable {files files' : Entry} {root out way : Path} {excluded ways : List Path}
  {members members' : List (Str × Entry)} {sources found : List Source} {source : Source}

/-! ### What is found -/

/-- **What is found at the end of a way** below a root: a source, or nothing. -/
def sourceAt (files : Entry) (root way : Path) : Except FileError (Option Source) :=
  (isFile files (root ++ way)).map fun there => if there then Source.ofWay? way else none

/-- The ways from a root down to what is no directory. -/
def waysBelow (files : Entry) (root : Path) : List Path :=
  match openDirectory files root with
  | .ok directory => leaves [] root [] directory
  | .error _ => []

theorem sourcesAmong_cons (files : Entry) (root way : Path) (ways : List Path) :
    sourcesAmong files root (way :: ways) =
      match sourceAt files root way with
      | .error e => .error e
      | .ok found => (sourcesAmong files root ways).map (found.toList ++ ·) := by
  rw [sourcesAmong, sourceAt]
  rcases isFile files (root ++ way) with e | _ | _
  · rfl
  · dsimp only [Except.map]
    rcases sourcesAmong files root ways with e | found <;> rfl
  · rfl

/-- Ways can be looked at if something, or nothing, is found at the end of each. -/
theorem sourcesAmong_isOk (h : ∀ way ∈ ways, ∃ found, sourceAt files root way = .ok found) :
    ∃ found, sourcesAmong files root ways = .ok found := by
  induction ways with
  | nil => exact ⟨[], rfl⟩
  | cons way ways ih =>
    obtain ⟨source, hsource⟩ := h way List.mem_cons_self
    obtain ⟨found, hfound⟩ := ih fun way hway => h way (List.mem_cons_of_mem _ hway)
    rw [sourcesAmong_cons, hsource, hfound]
    exact ⟨_, rfl⟩

theorem sourceAt_of_sourcesAmong (h : sourcesAmong files root ways = .ok found) :
    ∀ way ∈ ways, ∃ source, sourceAt files root way = .ok source := by
  induction ways generalizing found with
  | nil => exact fun way hway => absurd hway List.not_mem_nil
  | cons first ways ih =>
    rw [sourcesAmong_cons] at h
    split at h
    · cases h
    · next source hsource =>
      rcases hrest : sourcesAmong files root ways with e | rest
      · rw [hrest] at h
        cases h
      · exact List.forall_mem_cons.2 ⟨⟨source, hsource⟩, ih hrest⟩

/-- **The sources among ways** are those found at their ends. -/
theorem mem_sourcesAmong_iff (h : sourcesAmong files root ways = .ok found) :
    source ∈ found ↔ ∃ way ∈ ways, sourceAt files root way = .ok (some source) := by
  rw [sourcesAmong_eq h, List.mem_filterMap]
  refine exists_congr fun way => and_congr_right fun hway => ?_
  rw [sourceAt]
  rcases isFile files (root ++ way) with e | _ | _
  · simp [Except.map]
  · simp [Except.map]
  · simp [Except.map]

theorem ofWay?_of_sourceAt (h : sourceAt files root way = .ok (some source)) :
    Source.ofWay? way = some source := by
  rw [sourceAt] at h
  rcases hfile : isFile files (root ++ way) with e | _ | _
  · rw [hfile] at h
    cases h
  · rw [hfile] at h
    cases h
  · rw [hfile] at h
    exact Except.ok.inj h

/-! ### The ways below a root -/

/-- A root that leads to a directory can be opened. -/
theorem openDirectory_of_isDirectory (hp : root.Proper) (hplain : root.Plain files)
    (h : isDirectory files root = .ok true) :
    ∃ members, files.at? root = some (.directory members) ∧
      openDirectory files root = .ok (.directory members) := by
  obtain ⟨hdir, hfits⟩ := (isDirectory_eq_true hp hplain).1 h
  obtain ⟨members, hat⟩ := Entry.see?_eq_some_directory.1 hdir
  refine ⟨members, hat, ?_⟩
  rw [openDirectory, locate_found hp hfits hat (by simp)]

theorem isLeaf_append (hat : files.at? root = some (.directory members)) :
    IsLeaf (.directory members) way ↔ IsLeaf files (root ++ way) := by
  rw [IsLeaf, IsLeaf, Entry.see?_append_of_at? hat]

theorem mem_waysBelow (hv : files.Valid) (hat : files.at? root = some (.directory members))
    (hopen : openDirectory files root = .ok (.directory members)) :
    way ∈ waysBelow files root ↔ way ≠ [] ∧ IsLeaf files (root ++ way) := by
  rw [waysBelow, hopen]
  dsimp only
  rw [mem_leaves _ (hv.at? hat), ← isLeaf_append hat]
  constructor
  · rintro ⟨rest, rfl, hne, hleaf, -⟩
    exact ⟨hne, hleaf⟩
  · rintro ⟨hne, hleaf⟩
    exact ⟨way, rfl, hne, hleaf, fun _ _ _ _ => List.not_mem_nil⟩

/-- **Discovery comes to the end of a way** below a root if something is there that is no directory,
and no directory on the way down is left out. -/
structure Met (files : Entry) (root : Path) (excluded : List Path) (way : Path) : Prop where
  /-- The way leads down. -/
  ne_nil : way ≠ []
  /-- What is at its end is no directory, and is reached through real ones. -/
  leaf : IsLeaf files (root ++ way)
  /-- None of them is left out. -/
  entered : Entered excluded root way

/-- The ways that discovery looks at are those that it comes to the end of. -/
theorem mem_leaves_sorted_iff (hv : files.Valid)
    (hat : files.at? root = some (.directory members)) :
    way ∈ leaves excluded root [] (Entry.directory members).sorted ↔
      Met files root excluded way := by
  have hvm := hv.at? hat
  rw [mem_leaves _ (Entry.Valid.sorted _ hvm), List.append_nil]
  have hsorted (rest : Path) :
      IsLeaf (Entry.directory members).sorted rest ↔ IsLeaf files (root ++ rest) := by
    rw [← isLeaf_append hat, IsLeaf, IsLeaf, Entry.see?_sorted hvm]
  constructor
  · rintro ⟨rest, rfl, hne, hleaf, hentered⟩
    exact ⟨hne, (hsorted _).1 hleaf, hentered⟩
  · rintro ⟨hne, hleaf, hentered⟩
    exact ⟨way, rfl, hne, (hsorted _).2 hleaf, hentered⟩

/-- **Discovery looks at all ways but those into the output directory.** -/
theorem mem_leaves_iff (hv : files.Valid) (hat : files.at? root = some (.directory members))
    (hopen : openDirectory files root = .ok (.directory members)) (hapart : ¬ out <+: root)
    (hout : files.see? out = some .directory) :
    way ∈ leaves [out] root [] (Entry.directory members).sorted ↔
      way ∈ waysBelow files root ∧ ¬ out <+: root ++ way := by
  rw [mem_waysBelow hv hat hopen, mem_leaves_sorted_iff hv hat]
  constructor
  · rintro ⟨hne, hleaf, hentered⟩
    refine ⟨⟨hne, hleaf⟩, fun hpre => ?_⟩
    -- the output directory is below the root then, and on the way down
    rcases List.prefix_or_prefix_of_prefix hpre (List.prefix_append root _) with hp | ⟨way, rfl⟩
    · exact hapart hp
    · have hway := (List.prefix_append_right_inj root).1 hpre
      refine hentered way hway ?_ ?_ (List.mem_singleton_self _)
      · rintro rfl
        exact hapart (by simp)
      · rintro rfl
        obtain ⟨sight, hs, hdir⟩ := hleaf
        rw [hout] at hs
        exact hdir (Option.some.inj hs).symm
  · rintro ⟨⟨hne, hleaf⟩, hpre⟩
    refine ⟨hne, hleaf, fun p hp _ _ hmem => ?_⟩
    rw [← List.mem_singleton.1 hmem] at hpre
    exact hpre ((List.prefix_append_right_inj root).2 hp)

/-! ### Unchanged sources -/

/-- **The sources below a root are unchanged** from one file system to another, an output directory
left out: what was found is found, and what is new is no source. -/
structure Unchanged (root out : Path) (files files' : Entry) : Prop where
  /-- What was found is found. -/
  same : ∀ way ∈ waysBelow files root, ¬ out <+: root ++ way →
    sourceAt files' root way = sourceAt files root way
  /-- What is new is no source. -/
  new : ∀ way ∈ waysBelow files' root, ¬ out <+: root ++ way →
    way ∈ waysBelow files root ∨ sourceAt files' root way = .ok none

instance (root out : Path) (files files' : Entry) : Decidable (Unchanged root out files files') :=
  decidable_of_iff
    ((∀ way ∈ waysBelow files root, ¬ out <+: root ++ way →
        sourceAt files' root way = sourceAt files root way) ∧
      ∀ way ∈ waysBelow files' root, ¬ out <+: root ++ way →
        way ∈ waysBelow files root ∨ sourceAt files' root way = .ok none)
    ⟨fun h => ⟨h.1, h.2⟩, fun h => ⟨h.same, h.new⟩⟩

/-- **Unchanged sources are discovered again.** -/
theorem Unchanged.discover_eq (h : Unchanged root out files files') (hv : files.Valid)
    (hv' : files'.Valid) (hp : root.Proper) (hplain : root.Plain files)
    (hplain' : root.Plain files') (hdir : isDirectory files root = .ok true)
    (hdir' : isDirectory files' root = .ok true) (hapart : ¬ out <+: root)
    (hout : files.see? out = some .directory) (hout' : files'.see? out = some .directory)
    (hleaf : ∀ q, ¬ out <+: q → IsLeaf files q → IsLeaf files' q)
    (hfound : discover files root [out] = .ok sources) :
    discover files' root [out] = .ok sources := by
  obtain ⟨members, hat, hopen⟩ := openDirectory_of_isDirectory hp hplain hdir
  obtain ⟨members', hat', hopen'⟩ := openDirectory_of_isDirectory hp hplain' hdir'
  have hmem {way : Path} := @mem_leaves_iff _ _ _ way _ hv hat hopen hapart hout
  have hmem' {way : Path} := @mem_leaves_iff _ _ _ way _ hv' hat' hopen' hapart hout'
  rw [discover, hopen] at hfound
  dsimp only at hfound
  rcases hamong : sourcesAmong files root
    (leaves [out] root [] (Entry.directory members).sorted) with e | found
  · rw [hamong] at hfound
    cases hfound
  · rw [hamong] at hfound
    cases hfound
    obtain ⟨found', hamong'⟩ : ∃ found', sourcesAmong files' root
        (leaves [out] root [] (Entry.directory members').sorted) = .ok found' := by
      refine sourcesAmong_isOk fun way hway => ?_
      obtain ⟨hbelow, hnot⟩ := hmem'.1 hway
      rcases h.new way hbelow hnot with hold | hnone
      · rw [h.same way hold hnot]
        exact sourceAt_of_sourcesAmong hamong way (hmem.2 ⟨hold, hnot⟩)
      · exact ⟨none, hnone⟩
    have hperm : found'.Perm found := by
      refine (List.perm_ext_iff_of_nodup
        (nodup_sourcesAmong (nodup_leaves _ (Entry.Valid.sorted _ (hv'.at? hat')) []) hamong')
        (nodup_sourcesAmong (nodup_leaves _ (Entry.Valid.sorted _ (hv.at? hat)) []) hamong)).2
        fun source => ?_
      rw [mem_sourcesAmong_iff hamong', mem_sourcesAmong_iff hamong]
      constructor
      · rintro ⟨way, hway, hsource⟩
        obtain ⟨hbelow, hnot⟩ := hmem'.1 hway
        rcases h.new way hbelow hnot with hold | hnone
        · exact ⟨way, hmem.2 ⟨hold, hnot⟩, (h.same way hold hnot).symm.trans hsource⟩
        · cases hnone.symm.trans hsource
      · rintro ⟨way, hway, hsource⟩
        obtain ⟨hbelow, hnot⟩ := hmem.1 hway
        obtain ⟨hne, hl⟩ := (mem_waysBelow hv hat hopen).1 hbelow
        refine ⟨way, hmem'.2 ⟨(mem_waysBelow hv' hat' hopen').2 ⟨hne, hleaf _ hnot hl⟩, hnot⟩, ?_⟩
        exact (h.same way hbelow hnot).trans hsource
    have hfound' : discover files' root [out] = .ok (inOrder found') := by
      rw [discover, hopen']
      dsimp only
      rw [hamong']
      rfl
    rw [hfound']
    refine congrArg Except.ok (Text.orderedBy_eq_of_perm _ hperm fun a ha b hb he => ?_)
    have hregular {s : Source} (hs : s ∈ found') : s.Regular :=
      (discover_regular hv' hfound' (Text.mem_orderedBy.2 hs)).1
    obtain ⟨way, -, hway⟩ := (mem_sourcesAmong_iff hamong').1 ha
    obtain ⟨way', -, hway'⟩ := (mem_sourcesAmong_iff hamong').1 hb
    have hofWay := ofWay?_of_sourceAt hway
    have hofWay' := ofWay?_of_sourceAt hway'
    rw [← Source.way_of_ofWay? hofWay, Source.way_of_label (hregular ha) (hregular hb) he,
      Source.way_of_ofWay? hofWay', hofWay'] at hofWay
    exact (Option.some.inj hofWay).symm

end Build
end TemplateBindings
