import Mathlib.Data.List.Nodup
import TemplateBindings.Build.Discovery
import TemplateBindings.Proofs.Files.Sorted
import TemplateBindings.Proofs.Files.Views
import TemplateBindings.Proofs.Text.Pieces

/-!
# The sources of a run

What is known of the sources that are discovered in a valid file system: each is a file in a real
directory, under a name within the limits (`TemplateBindings.Build.Source.Regular`), each is listed
once, and no two are called the same in reports.

* `TemplateBindings.Build.discover_regular` – the sources that are discovered are regular and there.
* `TemplateBindings.Build.nodup_of_discover` – and each is discovered once.
* `TemplateBindings.Build.Source.way_of_label` – their labels tell them apart.
-/

namespace TemplateBindings
namespace Build

open Files

variable {files : Entry} {root way rest place : Path} {excluded : List Path} {entry : Entry}
  {members : List (Str × Entry)} {sources : List Source} {source other : Source}

/-! ### Ways to leaves -/

/-- No directory on a way down is left out, whatever its end is. -/
def Entered (excluded : List Path) (base rest : Path) : Prop :=
  ∀ way, way <+: rest → way ≠ [] → way ≠ rest → base ++ way ∉ excluded

theorem entered_singleton (excluded : List Path) (base : Path) (name : Str) :
    Entered excluded base [name] := by
  intro way hway hne hall
  rcases List.prefix_cons_iff.1 hway with rfl | ⟨rest, rfl, hrest⟩
  · exact absurd rfl hne
  · exact absurd (by rw [List.prefix_nil.1 hrest]) hall

theorem entered_cons {base : Path} {name : Str} (hrest : rest ≠ []) :
    Entered excluded base (name :: rest) ↔
      base ++ [name] ∉ excluded ∧ Entered excluded (base ++ [name]) rest := by
  constructor
  · intro h
    refine ⟨h [name] (by simp) (by simp) fun he => hrest (List.cons.inj he).2.symm,
      fun way hway _ hall => ?_⟩
    rw [List.append_assoc, List.singleton_append]
    exact h (name :: way) (List.cons_prefix_cons.2 ⟨rfl, hway⟩) (by simp)
      fun he => hall (List.cons.inj he).2
  · rintro ⟨hname, h⟩ way hway hne hall
    rcases List.prefix_cons_iff.1 hway with rfl | ⟨below, rfl, hbelow⟩
    · exact absurd rfl hne
    · rcases eq_or_ne below [] with rfl | hb
      · exact hname
      · have hnot := h below hbelow hb fun he => hall (by rw [he])
        rwa [List.append_assoc, List.singleton_append] at hnot

/-- **A leaf** at the end of a way down: something that is no directory. -/
def IsLeaf (entry : Entry) (rest : Path) : Prop :=
  ∃ sight, entry.see? rest = some sight ∧ sight ≠ .directory

theorem isLeaf_cons {name : Str} (hn : (members.map Prod.fst).Nodup) :
    IsLeaf (.directory members) (name :: rest) ↔ ∃ m ∈ members, m.1 = name ∧ IsLeaf m.2 rest := by
  constructor
  · rintro ⟨sight, hs, hdir⟩
    rw [Entry.see?_directory_cons] at hs
    obtain ⟨next, hl, hs⟩ := Option.bind_eq_some_iff.1 hs
    exact ⟨(name, next), Entry.mem_of_lookup hl, rfl, sight, hs, hdir⟩
  · rintro ⟨m, hm, rfl, sight, hs, hdir⟩
    refine ⟨sight, ?_, hdir⟩
    rwa [Entry.see?_directory_cons, Entry.lookup_of_mem hn hm]

theorem isLeaf_nil : IsLeaf entry [] ↔ entry.isDirectory = false := by
  cases entry <;> simp [IsLeaf, Entry.sight, Entry.isDirectory]

mutual

/-- **The leaves below an entry** are what is no directory, below directories that are not left
out. -/
theorem mem_leaves : (entry : Entry) → entry.Valid → (way leaf : Path) →
    (leaf ∈ leaves excluded root way entry ↔
      ∃ rest, leaf = way ++ rest ∧ rest ≠ [] ∧ IsLeaf entry rest ∧
        Entered excluded (root ++ way) rest)
  | .directory members, hv, way, leaf => by
    obtain ⟨hn, hm⟩ := Entry.valid_directory.1 hv
    rw [leaves, List.mem_append, mem_leavesBelow members (fun m hmem => (hm m hmem).2)]
    constructor
    · rintro (h | ⟨m, hmem, rest, rfl, hrest, hleaf, hentered⟩)
      · obtain ⟨m, hmem, rfl⟩ := List.mem_map.1 h
        obtain ⟨hmem, hdir⟩ := List.mem_filter.1 (List.mem_reverse.1 hmem)
        exact ⟨[m.1], rfl, by simp, (isLeaf_cons hn).2 ⟨m, hmem, rfl, isLeaf_nil.2 (by simpa using hdir)⟩,
          entered_singleton _ _ _⟩
      · exact ⟨m.1 :: rest, rfl, by simp, (isLeaf_cons hn).2 ⟨m, hmem, rfl, hleaf⟩, hentered⟩
    · rintro ⟨rest, rfl, hne, hbelow, hentered⟩
      obtain ⟨name, rest, rfl⟩ := List.exists_cons_of_ne_nil hne
      obtain ⟨m, hmem, rfl, hleaf⟩ := (isLeaf_cons hn).1 hbelow
      rcases eq_or_ne rest [] with rfl | hrest
      · refine .inl (List.mem_map.2 ⟨m, List.mem_reverse.2 (List.mem_filter.2 ⟨hmem, ?_⟩), rfl⟩)
        rw [isLeaf_nil.1 hleaf]
        rfl
      · exact .inr ⟨m, hmem, rest, rfl, hrest, hleaf, hentered⟩
  | .file bytes modified, _, way, leaf => by
    rw [leaves]
    · refine iff_of_false List.not_mem_nil ?_
      rintro ⟨rest, -, hne, ⟨sight, hs, -⟩, -⟩
      obtain ⟨name, rest, rfl⟩ := List.exists_cons_of_ne_nil hne
      rw [Entry.see?_file_cons] at hs
      cases hs
    · simp
  | .link target, _, way, leaf => by
    rw [leaves]
    · refine iff_of_false List.not_mem_nil ?_
      rintro ⟨rest, -, hne, ⟨sight, hs, -⟩, -⟩
      obtain ⟨name, rest, rfl⟩ := List.exists_cons_of_ne_nil hne
      rw [Entry.see?_link_cons] at hs
      cases hs
    · simp

theorem mem_leavesBelow : (members : List (Str × Entry)) → (∀ m ∈ members, m.2.Valid) →
    (way leaf : Path) →
    (leaf ∈ leavesBelow excluded root way members ↔
      ∃ m ∈ members, ∃ rest, leaf = way ++ m.1 :: rest ∧ rest ≠ [] ∧ IsLeaf m.2 rest ∧
        Entered excluded (root ++ way) (m.1 :: rest))
  | [], _, way, leaf => by
    rw [leavesBelow]
    simp
  | (name, entry) :: members, hv, way, leaf => by
    rw [leavesBelow, List.mem_append, mem_leavesBelow members
      (fun m hmem => hv m (List.mem_cons_of_mem _ hmem)), List.exists_mem_cons_iff]
    refine or_congr ?_ Iff.rfl
    split
    · next hex =>
      refine iff_of_false List.not_mem_nil ?_
      rintro ⟨rest, -, hrest, -, hentered⟩
      exact ((entered_cons hrest).1 hentered).1 (List.contains_iff_mem.1 hex)
    · next hex =>
      rw [mem_leaves entry (hv _ List.mem_cons_self)]
      have hnot : root ++ way ++ [name] ∉ excluded := fun hm => hex (List.contains_iff_mem.2 hm)
      constructor
      · rintro ⟨rest, rfl, hrest, hleaf, hentered⟩
        refine ⟨rest, by simp, hrest, hleaf, (entered_cons hrest).2 ⟨hnot, ?_⟩⟩
        rwa [← List.append_assoc] at hentered
      · rintro ⟨rest, rfl, hrest, hleaf, hentered⟩
        refine ⟨rest, by simp, hrest, hleaf, ?_⟩
        rw [← List.append_assoc]
        exact ((entered_cons hrest).1 hentered).2

end

mutual

/-- Each leaf is listed once. -/
theorem nodup_leaves : (entry : Entry) → entry.Valid → (way : Path) →
    (leaves excluded root way entry).Nodup
  | .directory members, hv, way => by
    obtain ⟨hn, hm⟩ := Entry.valid_directory.1 hv
    rw [leaves, List.nodup_append]
    refine ⟨?_, nodup_leavesBelow members hn (fun m hmem => (hm m hmem).2) way, ?_⟩
    · have hnames : ((members.filter fun m => !m.2.isDirectory).reverse.map Prod.fst).Nodup := by
        rw [List.map_reverse, List.nodup_reverse]
        exact hn.sublist (List.filter_sublist.map _)
      have hmap : (members.filter fun m => !m.2.isDirectory).reverse.map (fun m => way ++ [m.1]) =
          ((members.filter fun m => !m.2.isDirectory).reverse.map Prod.fst).map
            fun name => way ++ [name] := by
        rw [List.map_map]
        rfl
      rw [hmap]
      refine hnames.map fun a b he => ?_
      simpa using he
    · rintro leaf h _ hbelow rfl
      obtain ⟨m, -, rfl⟩ := List.mem_map.1 h
      obtain ⟨m', -, rest, he, hrest, -⟩ :=
        (mem_leavesBelow members (fun m hmem => (hm m hmem).2) way _).1 hbelow
      have htail := (List.cons.inj (List.append_cancel_left he)).2
      exact hrest htail.symm
  | .file bytes modified, _, way => by
    rw [leaves]
    · exact List.nodup_nil
    · simp
  | .link target, _, way => by
    rw [leaves]
    · exact List.nodup_nil
    · simp

theorem nodup_leavesBelow : (members : List (Str × Entry)) → (members.map Prod.fst).Nodup →
    (∀ m ∈ members, m.2.Valid) → (way : Path) → (leavesBelow excluded root way members).Nodup
  | [], _, _, way => by
    rw [leavesBelow]
    exact List.nodup_nil
  | (name, entry) :: members, hn, hv, way => by
    rw [List.map_cons, List.nodup_cons] at hn
    have hrest : ∀ m ∈ members, m.2.Valid := fun m hmem => hv m (List.mem_cons_of_mem _ hmem)
    rw [leavesBelow, List.nodup_append]
    refine ⟨?_, nodup_leavesBelow members hn.2 hrest way, ?_⟩
    · split
      · exact List.nodup_nil
      · exact nodup_leaves entry (hv _ List.mem_cons_self) _
    · rintro leaf h _ hbelow rfl
      split at h
      · exact absurd h List.not_mem_nil
      · obtain ⟨rest, rfl, -⟩ := (mem_leaves entry (hv _ List.mem_cons_self) _ _).1 h
        obtain ⟨m, hmem, rest', he, -⟩ := (mem_leavesBelow members hrest way _).1 hbelow
        rw [List.append_assoc] at he
        have hname := (List.cons.inj (List.append_cancel_left he)).1
        exact hn.1 (List.mem_map.2 ⟨m, hmem, hname.symm⟩)

end

/-! ### Regular sources -/

/-- **A source as it is found below a root**: the way to it is made of names within the limits. -/
structure Source.Regular (source : Source) : Prop where
  /-- The way is made of names. -/
  proper : Path.Proper source.way
  /-- Each is within the limits. -/
  short : ∀ name ∈ source.way, (Str.bytes name).length ≤ nameLimit

theorem Source.Regular.place_proper (h : source.Regular) : Path.Proper source.place :=
  h.proper.of_isPrefix (List.prefix_append _ _)

theorem Source.Regular.name (h : source.Regular) :
    slash ∉ source.name ∧ null ∉ source.name := by
  obtain ⟨-, -, -, hslash, hnull⟩ := h.proper (source.name ++ source.kind.suffix) (by simp [way])
  exact ⟨fun hm => hslash (List.mem_append_left _ hm), fun hm => hnull (List.mem_append_left _ hm)⟩

/-- A source is known by the way to it. -/
theorem Source.ofWay?_injective {a b : Path} (ha : Source.ofWay? a = some source)
    (hb : Source.ofWay? b = some source) : a = b :=
  (Source.way_of_ofWay? ha).symm.trans (Source.way_of_ofWay? hb)

/-! ### Discovering -/

/-- The sources among ways are those of the ways that lead to files. -/
theorem sourcesAmong_eq {ways : List Path} (h : sourcesAmong files root ways = .ok sources) :
    sources = ways.filterMap fun way =>
      if isFile files (root ++ way) = .ok true then Source.ofWay? way else none := by
  induction ways generalizing sources with
  | nil =>
    cases h
    rfl
  | cons way ways ih =>
    rw [sourcesAmong] at h
    split at h
    · cases h
    · next hfile =>
      rw [List.filterMap_cons, if_neg (by simp [hfile])]
      exact ih h
    · next hfile =>
      rcases hrest : sourcesAmong files root ways with e | found
      · rw [hrest] at h
        cases h
      · rw [hrest] at h
        cases h
        rw [List.filterMap_cons, if_pos hfile, ← ih hrest]
        cases Source.ofWay? way <;> rfl

theorem mem_sourcesAmong {ways : List Path} (h : sourcesAmong files root ways = .ok sources)
    (hs : source ∈ sources) :
    source.way ∈ ways ∧ isFile files (source.path root) = .ok true := by
  rw [sourcesAmong_eq h] at hs
  obtain ⟨way, hway, he⟩ := List.mem_filterMap.1 hs
  split at he
  · next hfile =>
    rw [Source.path, Source.way_of_ofWay? he]
    exact ⟨hway, hfile⟩
  · cases he

theorem nodup_sourcesAmong {ways : List Path} (hn : ways.Nodup)
    (h : sourcesAmong files root ways = .ok sources) : sources.Nodup := by
  rw [sourcesAmong_eq h]
  refine hn.filterMap fun a b source ha hb => ?_
  rw [Option.mem_def] at ha hb
  split at ha
  · split at hb
    · exact Source.ofWay?_injective ha hb
    · cases hb
  · cases ha

/-- What discovery does, once it has found a real directory of sources. -/
theorem of_discover (h : discover files root excluded = .ok sources) :
    ∃ way members found, files.at? way = some (.directory members) ∧
      sourcesAmong files root (leaves excluded root [] (Entry.directory members).sorted) =
        .ok found ∧ sources = inOrder found := by
  rw [discover] at h
  split at h
  · cases h
  · next directory hopen =>
    rw [openDirectory] at hopen
    split at hopen
    · next way members hloc =>
      cases hopen
      rcases hfound : sourcesAmong files root
          (leaves excluded root [] (Entry.directory members).sorted) with e | found
      · rw [hfound] at h
        cases h
      · rw [hfound] at h
        cases h
        exact ⟨way, members, found, stands_of_locate hloc, hfound, rfl⟩
    · cases hopen
    · cases hopen
    · cases hopen

/-- **The sources that are discovered** in a valid file system are regular, and their files are
there. -/
theorem discover_regular (hv : files.Valid) (h : discover files root excluded = .ok sources)
    (hs : source ∈ sources) : source.Regular ∧ isFile files (source.path root) = .ok true := by
  obtain ⟨way, members, found, hat, hfound, rfl⟩ := of_discover h
  have hvm := hv.at? hat
  obtain ⟨hway, hfile⟩ := mem_sourcesAmong hfound (Text.mem_orderedBy.1 hs)
  obtain ⟨rest, he, hne, ⟨sight, hsee, -⟩, -⟩ :=
    (mem_leaves _ (Entry.Valid.sorted _ hvm) [] _).1 hway
  rw [List.nil_append] at he
  subst he
  rw [Entry.see?_sorted hvm] at hsee
  have hproper := hvm.proper (by rw [hsee]; simp)
  obtain ⟨bytes, time, w, hloc⟩ := isFile_eq_true.1 hfile
  exact ⟨⟨hproper, fun name hm =>
    short_of_locate hloc name (List.mem_append_right _ hm) (hproper name hm)⟩, hfile⟩

/-- **Each source is discovered once.** -/
theorem nodup_of_discover (hv : files.Valid) (h : discover files root excluded = .ok sources) :
    sources.Nodup := by
  obtain ⟨way, members, found, hat, hfound, rfl⟩ := of_discover h
  rw [inOrder, (Text.orderedBy_perm _ _).nodup_iff]
  exact nodup_sourcesAmong (nodup_leaves _ (Entry.Valid.sorted _ (hv.at? hat)) []) hfound

/-! ### Labels -/

/-- Two sources of one kind with the same way are one. -/
theorem Source.eq_of_way (hkind : source.kind = other.kind) (h : source.way = other.way) :
    source = other := by
  obtain ⟨place, name, kind⟩ := source
  obtain ⟨place', name', kind'⟩ := other
  cases hkind
  obtain ⟨rfl, hname⟩ := List.append_inj' h rfl
  cases List.append_cancel_right (List.cons.inj hname).1
  rfl

/-- **Labels tell regular sources apart.** -/
theorem Source.way_of_label (h : source.Regular) (h' : other.Regular)
    (he : source.label = other.label) : source.way = other.way := by
  have hne (s : Source) : s.way ≠ [] := by simp [way]
  rw [label, label, Path.renderBelow, Path.renderBelow, if_neg (by simpa using hne source),
    if_neg (by simpa using hne other)] at he
  exact Text.joined_injective (hne source) (hne other) (fun n hm => (h.proper n hm).2.2.2.1)
    (fun n hm => (h'.proper n hm).2.2.2.1) he

end Build
end TemplateBindings
