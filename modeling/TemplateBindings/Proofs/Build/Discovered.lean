import TemplateBindings.Proofs.Build.Discovering
import TemplateBindings.Proofs.Files.Alike

/-!
# What is discovered

Discovery walks over a directory tree and collects. What it collects can be said without a walk
(`TemplateBindings.Build.Discovered`): the sources below the root, each by the way to it, in the
order of their labels and none twice. There is only one list like that, so that the order in which
directories list their members does not matter.

A link among what discovery comes to has to lead somewhere, or nowhere. A link that leads back to
itself does neither, and discovery ends with the error of following it
(`TemplateBindings.Build.discover_refuses`), be it called like a source or not.

* `TemplateBindings.Build.discover_exact` – discovery returns the sources below the root, and
  nothing but a link that cannot be followed keeps it from returning.
-/

namespace TemplateBindings
namespace Build

open Files

variable {files files' : Entry} {root way : Path} {excluded ways : List Path}
  {sources others found : List Source} {source : Source} {e : FileError}

/-! ### Names of sources -/

theorem Kind.ofSuffix?_eq_some {suffix : Str} {kind : Kind} :
    Kind.ofSuffix? suffix = some kind ↔ kind.suffix = suffix := by
  refine ⟨Kind.suffix_of_ofSuffix?, ?_⟩
  rintro rfl
  cases kind <;> rfl

/-- A way leads to a source if its last name is cut before the suffix of a kind. -/
theorem Source.ofWay?_eq_some :
    Source.ofWay? way = some source ↔ source.place = way.dropLast ∧
      Path.splitName (way.getLast?.getD []) = (source.name, source.kind.suffix) := by
  rw [Source.ofWay?, Option.map_eq_some_iff]
  constructor
  · rintro ⟨kind, hkind, rfl⟩
    exact ⟨rfl, Prod.ext rfl (Kind.ofSuffix?_eq_some.1 hkind).symm⟩
  · obtain ⟨place, name, kind⟩ := source
    rintro ⟨rfl, hcut⟩
    refine ⟨kind, Kind.ofSuffix?_eq_some.2 ?_, ?_⟩ <;> rw [hcut]

/-! ### The sources below a root -/

/-- **A source below a root**, by the way to it: a file, or a link that leads to one. -/
structure IsSource (files : Entry) (root : Path) (excluded : List Path) (way : Path)
    (source : Source) : Prop where
  /-- Discovery comes to it. -/
  met : Met files root excluded way
  /-- It is a file, or leads to one. -/
  file : ∃ bytes time, Reads files (root ++ way) bytes time
  /-- It is known by its directory, -/
  place : source.place = way.dropLast
  /-- and by its name, cut before the suffix of a kind. -/
  cut : Path.splitName (way.getLast?.getD []) = (source.name, source.kind.suffix)

/-- **Every link that discovery comes to can be followed**: to something, or to nothing. -/
def Followed (files : Entry) (root : Path) (excluded : List Path) : Prop :=
  ∀ way target, Met files root excluded way → files.see? (root ++ way) = some (.link target) →
    ∃ there, isFile files (root ++ way) = .ok there

/-- **The sources below a root, in order.** -/
structure Discovered (files : Entry) (root : Path) (excluded : List Path)
    (sources : List Source) : Prop where
  /-- Links could be followed. -/
  followed : Followed files root excluded
  /-- Each is a source, and the path that is made of its parts is that of what was found. -/
  sound : ∀ source ∈ sources, IsSource files root excluded source.way source
  /-- None is missing. -/
  complete : ∀ way source, IsSource files root excluded way source → source ∈ sources
  /-- They stand in the order of their labels, which tell them apart. -/
  ordered : sources.Pairwise fun a b => Text.le a.label b.label = true ∧ a.label ≠ b.label

theorem IsSource.way_eq (h : IsSource files root excluded way source) : source.way = way :=
  Source.way_of_ofWay? (Source.ofWay?_eq_some.2 ⟨h.place, h.cut⟩)

/-- A source below a root is what is found there. -/
theorem isSource_iff : IsSource files root excluded way source ↔
    Met files root excluded way ∧ sourceAt files root way = .ok (some source) := by
  constructor
  · rintro ⟨hmet, hfile, hplace, hcut⟩
    refine ⟨hmet, ?_⟩
    rw [sourceAt, isFile_eq_true.2 hfile]
    exact congrArg Except.ok (Source.ofWay?_eq_some.2 ⟨hplace, hcut⟩)
  · rintro ⟨hmet, hfound⟩
    obtain ⟨hplace, hcut⟩ := Source.ofWay?_eq_some.1 (ofWay?_of_sourceAt hfound)
    refine ⟨hmet, ?_, hplace, hcut⟩
    rw [← isFile_eq_true]
    rw [sourceAt] at hfound
    rcases hfile : isFile files (root ++ way) with e | _ | _
    · rw [hfile] at hfound
      cases hfound
    · rw [hfile] at hfound
      cases hfound
    · rfl

/-- **There is one list of the sources below a root.** -/
theorem Discovered.eq (h : Discovered files root excluded sources)
    (h' : Discovered files root excluded others) : sources = others := by
  have hnodup {list : List Source} (h : Discovered files root excluded list) : list.Nodup :=
    h.ordered.imp fun hab he => hab.2 (by rw [he])
  have hsub {list list' : List Source} (h : Discovered files root excluded list)
      (h' : Discovered files root excluded list') {source : Source} (hs : source ∈ list) :
      source ∈ list' :=
    h'.complete _ _ (h.sound source hs)
  have hperm : sources.Perm others :=
    (List.perm_ext_iff_of_nodup (hnodup h) (hnodup h')).2 fun _ => ⟨hsub h h', hsub h' h⟩
  refine hperm.eq_of_pairwise (fun a b _ _ hab hba => ?_) h.ordered h'.ordered
  exact absurd (Text.le_antisymm hab.1 hba.1) hab.2

/-! ### The walk -/

/-- What discovery does below a real directory. -/
theorem discover_eq (excluded : List Path) (hv : files.Valid)
    (hdir : files.see? root = some .directory) (hf : root.Fits) :
    ∃ members, files.at? root = some (.directory members) ∧
      discover files root excluded =
        (sourcesAmong files root (leaves excluded root [] (Entry.directory members).sorted)).map
          inOrder := by
  obtain ⟨members, hat⟩ := Entry.see?_eq_some_directory.1 hdir
  refine ⟨members, hat, ?_⟩
  rw [discover, openDirectory, locate_found (hv.proper (by simp [hdir])) hf hat (by simp)]

theorem isFile_of_sourcesAmong (h : sourcesAmong files root ways = .ok found) :
    ∀ way ∈ ways, ∃ there, isFile files (root ++ way) = .ok there := by
  intro way hway
  obtain ⟨source, hsource⟩ := sourceAt_of_sourcesAmong h way hway
  rw [sourceAt] at hsource
  rcases hfile : isFile files (root ++ way) with e | there
  · rw [hfile] at hsource
    cases hsource
  · exact ⟨there, rfl⟩

/-- Ways are not looked at to the end if one of them cannot be followed. -/
theorem isFile_of_sourcesAmong_error (h : sourcesAmong files root ways = .error e) :
    ∃ way ∈ ways, isFile files (root ++ way) = .error e := by
  induction ways with
  | nil => cases h
  | cons way ways ih =>
    have hlater (hrest : sourcesAmong files root ways = .error e) :
        ∃ w ∈ way :: ways, isFile files (root ++ w) = .error e := by
      obtain ⟨w, hw, hfile⟩ := ih hrest
      exact ⟨w, List.mem_cons_of_mem _ hw, hfile⟩
    rw [sourcesAmong] at h
    split at h
    · next hfile =>
      cases h
      exact ⟨way, List.mem_cons_self, hfile⟩
    · exact hlater h
    · rcases hrest : sourcesAmong files root ways with e' | found
      · rw [hrest] at h
        cases h
        exact hlater hrest
      · rw [hrest] at h
        cases h

/-- Whether a file is there can be told of everything but links. -/
theorem Met.isFile_of_not_link (h : Met files root excluded way) (hv : files.Valid)
    (hfits : ∀ q : Path, files.see? q ≠ none → root <+: q → q.Fits)
    (hlink : ∀ target, files.see? (root ++ way) ≠ some (.link target)) :
    isFile files (root ++ way) = .ok true := by
  obtain ⟨sight, hs, hne⟩ := h.leaf
  have hseen : files.see? (root ++ way) ≠ none := by simp [hs]
  cases sight with
  | directory => exact absurd rfl hne
  | link target => exact absurd hs (hlink target)
  | file bytes time =>
    rw [isFile_eq_true]
    exact ⟨bytes, time, _, locate_found (hv.proper hseen) (hfits _ hseen (List.prefix_append _ _))
      (Entry.see?_eq_some_file.1 hs) (by simp)⟩

/-- **Discovery ends with an error** only if there is a link that cannot be followed. -/
theorem link_of_discover_error (hv : files.Valid) (hdir : files.see? root = some .directory)
    (hfits : ∀ q : Path, files.see? q ≠ none → root <+: q → q.Fits)
    (h : discover files root excluded = .error e) :
    ∃ way target, Met files root excluded way ∧ files.see? (root ++ way) = some (.link target) ∧
      isFile files (root ++ way) = .error e := by
  have hf : root.Fits := hfits _ (by simp [hdir]) List.prefix_rfl
  obtain ⟨members, hat, he⟩ := discover_eq excluded hv hdir hf
  rw [he] at h
  rcases hamong : sourcesAmong files root
    (leaves excluded root [] (Entry.directory members).sorted) with e' | found
  · rw [hamong] at h
    cases h
    obtain ⟨way, hway, hfile⟩ := isFile_of_sourcesAmong_error hamong
    have hmet := (mem_leaves_sorted_iff hv hat).1 hway
    by_cases hlink : ∃ target, files.see? (root ++ way) = some (.link target)
    · obtain ⟨target, hlink⟩ := hlink
      exact ⟨way, target, hmet, hlink, hfile⟩
    · rw [hmet.isFile_of_not_link hv hfits fun target hl => hlink ⟨target, hl⟩] at hfile
      cases hfile
  · rw [hamong] at h
    cases h

/-- **What discovery returns** are the sources below the root, in order. -/
theorem discovered_of_discover (hv : files.Valid) (hdir : files.see? root = some .directory)
    (hf : root.Fits) (h : discover files root excluded = .ok sources) :
    Discovered files root excluded sources := by
  obtain ⟨members, hat, he⟩ := discover_eq excluded hv hdir hf
  rcases hamong : sourcesAmong files root
    (leaves excluded root [] (Entry.directory members).sorted) with e' | found
  · rw [he, hamong] at h
    cases h
  · obtain rfl : inOrder found = sources := by
      rw [he, hamong] at h
      exact Except.ok.inj h
    have hmem (source : Source) :
        source ∈ inOrder found ↔ ∃ way, IsSource files root excluded way source := by
      rw [inOrder, Text.mem_orderedBy, mem_sourcesAmong_iff hamong]
      exact exists_congr fun way => by rw [mem_leaves_sorted_iff hv hat, isSource_iff]
    refine ⟨fun way target hmet _ => ?_, fun source hs => ?_, fun way source hs => ?_, ?_⟩
    · exact isFile_of_sourcesAmong hamong way ((mem_leaves_sorted_iff hv hat).2 hmet)
    · obtain ⟨way, hway⟩ := (hmem source).1 hs
      rw [hway.way_eq]
      exact hway
    · exact (hmem source).2 ⟨way, hs⟩
    · refine (Text.pairwise_orderedBy Source.label found).imp₂ (fun a b hle hne => ⟨hle, hne⟩) ?_
      refine (nodup_of_discover hv h).imp_of_mem fun {a b} ha hb hne hlabel => hne ?_
      -- labels tell regular sources apart
      have hway :=
        Source.way_of_label (discover_regular hv h ha).1 (discover_regular hv h hb).1 hlabel
      obtain ⟨wa, hwa⟩ := (hmem a).1 ha
      obtain ⟨wb, hwb⟩ := (hmem b).1 hb
      have hwab : wa = wb := by rw [← hwa.way_eq, ← hwb.way_eq, hway]
      subst hwab
      have hsame := (isSource_iff.1 hwa).2.symm.trans (isSource_iff.1 hwb).2
      exact Option.some.inj (Except.ok.inj hsame)

/-! ### The order of members -/

theorem sourcesAmong_alike (h : files.Alike files') (root : Path) (ways : List Path) :
    sourcesAmong files root ways = sourcesAmong files' root ways := by
  induction ways with
  | nil => rfl
  | cons way ways ih => rw [sourcesAmong, sourcesAmong, isFile_alike h, ih]

/-- **The order in which directories list their members** does not matter. -/
theorem discover_alike (h : files.Alike files') (hv : files.Valid) (hv' : files'.Valid)
    (root : Path) (excluded : List Path) :
    discover files' root excluded = discover files root excluded := by
  rw [discover, discover, openDirectory, openDirectory]
  rcases h.locate_cases .target root with ⟨cause, hl, hl'⟩ | ⟨way, e, e', hl, hl', he⟩ |
    ⟨way, name, hl, hl'⟩
  · rw [hl, hl']
  · rw [hl, hl']
    rcases he.entry_cases with ⟨_, _, rfl, rfl⟩ | ⟨_, rfl, rfl⟩ | ⟨ms, ms', rfl, rfl, -⟩
    · rfl
    · rfl
    · have hsorted : (Entry.directory ms).sorted = (Entry.directory ms').sorted :=
        Entry.sorted_eq_of_alike _ (hv.at? (stands_of_locate hl)) _
          (hv'.at? (stands_of_locate hl')) he
      dsimp only
      rw [hsorted, sourcesAmong_alike h]
  · rw [hl, hl']

/-! ### Discovery -/

/-- **Discovery is complete, exact and ordered.** Below every real directory in which no path is
longer than paths may be, and whatever is left out: discovery returns a list if and only if that is
the list of the sources there, and it returns one if and only if every link that it comes to can be
followed – else it ends with the error of following one that cannot. Where the same is seen, the
same is discovered. -/
theorem discover_exact (excluded : List Path) (hv : files.Valid)
    (hdir : files.see? root = some .directory)
    (hfits : ∀ q : Path, files.see? q ≠ none → root <+: q → q.Fits) :
    (∀ sources, discover files root excluded = .ok sources ↔
        Discovered files root excluded sources) ∧
      ((∃ sources, discover files root excluded = .ok sources) ↔ Followed files root excluded) ∧
      (∀ e, discover files root excluded = .error e →
        ∃ way target, Met files root excluded way ∧
          files.see? (root ++ way) = some (.link target) ∧ isFile files (root ++ way) = .error e) ∧
      ∀ files' : Entry, files'.Valid → files.Alike files' →
        discover files' root excluded = discover files root excluded := by
  have hsound {sources : List Source} (h : discover files root excluded = .ok sources) :
      Discovered files root excluded sources :=
    discovered_of_discover hv hdir (hfits _ (by simp [hdir]) List.prefix_rfl) h
  have hreturns (h : Followed files root excluded) :
      ∃ sources, discover files root excluded = .ok sources := by
    rcases hd : discover files root excluded with e | sources
    · obtain ⟨way, target, hmet, hlink, hfile⟩ := link_of_discover_error hv hdir hfits hd
      obtain ⟨there, hthere⟩ := h way target hmet hlink
      cases hfile.symm.trans hthere
    · exact ⟨sources, rfl⟩
  refine ⟨fun sources => ⟨hsound, fun h => ?_⟩, ⟨?_, hreturns⟩,
    fun e he => link_of_discover_error hv hdir hfits he,
    fun files' hv' halike => discover_alike halike hv hv' root excluded⟩
  · obtain ⟨others, hd⟩ := hreturns h.followed
    rw [hd, h.eq (hsound hd)]
  · rintro ⟨sources, hd⟩
    exact (hsound hd).followed

/-- A tree of sources with names of each kind: some with several dots or one in front, a directory
called like a source, links to a file, to a directory and to nothing, and a directory to leave out.
-/
def assorted : Entry :=
  .directory [("src".toList, .directory
    [("a.html".toList, .file [] 1), ("a.b.css".toList, .file [] 1), (".html".toList, .file [] 1),
      ("note.txt".toList, .file [] 1), ("l.css".toList, .link "note.txt".toList),
      ("m.css".toList, .link "a".toList), ("n.css".toList, .link "nowhere".toList),
      ("out".toList, .directory [("z.html".toList, .file [] 1)]),
      ("a".toList, .directory [("x".toList, .directory [("..html".toList, .file [] 1)])]),
      ("a-b.html".toList, .directory [("c.html".toList, .file [] 1)])])]

/-- The sources in it: the directories are not in the order in which they are entered. -/
def assortedSources : List Source :=
  [⟨["a-b.html".toList], "c".toList, .markup⟩, ⟨[], "a.b".toList, .stylesheet⟩,
    ⟨[], "a".toList, .markup⟩, ⟨["a".toList, "x".toList], ".".toList, .markup⟩,
    ⟨[], "l".toList, .stylesheet⟩]

theorem discover_exact_assorted :
    discover assorted ["src".toList] [["src".toList, "out".toList]] = .ok assortedSources ∧
      Discovered assorted ["src".toList] [["src".toList, "out".toList]] assortedSources := by
  have hfound : discover assorted ["src".toList] [["src".toList, "out".toList]] =
      .ok assortedSources := by
    decide +kernel
  have hdir : assorted.see? ["src".toList] = some .directory := by decide +kernel
  obtain ⟨hexact, -⟩ := discover_exact [["src".toList, "out".toList]] (by decide +kernel) hdir
    (by decide +kernel)
  exact ⟨hfound, (hexact _).1 hfound⟩

/-- **A link that leads back to itself is not passed over**, whatever else there is. -/
theorem discover_refuses :
    discover (.directory [("src".toList, .directory
        [("a.html".toList, .file [] 1), ("b.html".toList, .link "b.html".toList)])])
      ["src".toList] [] = .error ⟨.tooManyLinks, ["src".toList, "b.html".toList], none⟩ := by
  decide +kernel

end Build
end TemplateBindings
