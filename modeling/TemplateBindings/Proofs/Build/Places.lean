import TemplateBindings.Build.Outputs
import TemplateBindings.Proofs.Build.Discovering
import TemplateBindings.Proofs.Files.Replace

/-!
# The places of a source

A run works for a source in few places: its outputs, their drafts, and the directories on the way to
them. Sources whose places are clear of each other (`TemplateBindings.Build.Clear`) do not get in
each other's way: where places are ready for a source (`TemplateBindings.Build.Ready`), work on
another one leaves them ready (`TemplateBindings.Build.Ready.of_touches`), and its outputs as they
are (`TemplateBindings.Build.Touches.outputs_eq`).
-/

namespace TemplateBindings
namespace Build

open Files

variable {files files' : Entry} {out path q : Path} {source other s t : Source} {name n : Str}
  {before mid after : Seen}

/-! ### Outputs and drafts -/

namespace Source

/-- The directory of the outputs of a source. -/
def directory (out : Path) (source : Source) : Path := out ++ source.place

/-- The names of the outputs of a source. -/
def outputNames (source : Source) : List Str :=
  [source.name ++ moduleSuffix, source.name ++ GeneratedModule.classModuleSuffix,
    source.name ++ stylesheetSuffix]

/-- The drafts of the outputs of a source. -/
def drafts (out : Path) (source : Source) : List Path := (source.outputs out).all.filterMap draftOf?

/-- What is put behind the name of a regular source makes a name. -/
theorem Regular.isName_append (h : source.Regular) {suffix : Str} (hs : slash ∉ suffix)
    (hz : null ∉ suffix) (hlen : 2 < suffix.length) : IsName (source.name ++ suffix) := by
  obtain ⟨hslash, hnull⟩ := h.name
  have hlong : 2 < (source.name ++ suffix).length := by
    rw [List.length_append]
    omega
  refine ⟨fun he => ?_, fun he => ?_, fun he => ?_, by simp [hslash, hs], by simp [hnull, hz]⟩
  · rw [he] at hlong
    exact absurd hlong (by decide)
  · rw [he] at hlong
    exact absurd hlong (by decide)
  · rw [he] at hlong
    exact absurd hlong (by decide)

theorem Regular.isName (h : source.Regular) (hn : n ∈ source.outputNames) : IsName n := by
  rcases List.mem_cons.1 hn with rfl | hn
  · exact h.isName_append (by decide) (by decide) (by decide)
  · rcases List.mem_cons.1 hn with rfl | hn
    · exact h.isName_append (by decide) (by decide) (by decide)
    · cases List.mem_singleton.1 hn
      exact h.isName_append (by decide) (by decide) (by decide)

theorem under_of_isName (base : Path) (h : IsName name) : Path.under base name = base ++ [name] := by
  obtain ⟨hempty, hdot, -, hslash, -⟩ := h
  have habs : Path.isAbsolute name = false := by
    rcases name with _ | ⟨c, cs⟩
    · rfl
    · have hc : ¬ slash = c := fun he => hslash (he ▸ List.mem_cons_self)
      simp [Path.isAbsolute, Text.startsWith, Text.after?, hc]
  rw [Path.under, habs, Path.names, Text.pieces_of_not_mem hslash]
  simp [hempty, hdot]

theorem outputs_eq (h : source.Regular) (out : Path) :
    source.outputs out =
      ⟨source.directory out ++ [source.name ++ moduleSuffix],
        source.directory out ++ [source.name ++ GeneratedModule.classModuleSuffix],
        source.directory out ++ [source.name ++ stylesheetSuffix]⟩ := by
  rw [outputs, Outputs.inDirectory, directory,
    under_of_isName _ (h.isName (n := source.name ++ moduleSuffix) (by simp [outputNames])),
    under_of_isName _
      (h.isName (n := source.name ++ GeneratedModule.classModuleSuffix) (by simp [outputNames])),
    under_of_isName _ (h.isName (n := source.name ++ stylesheetSuffix) (by simp [outputNames]))]

theorem module_eq (h : source.Regular) (out : Path) :
    (source.outputs out).module = source.directory out ++ [source.name ++ moduleSuffix] := by
  rw [outputs_eq h]

theorem all_outputs (h : source.Regular) (out : Path) :
    (source.outputs out).all = source.outputNames.map fun n => source.directory out ++ [n] := by
  rw [outputs_eq h]
  rfl

theorem mem_outputs (h : source.Regular) :
    path ∈ (source.outputs out).all ↔
      ∃ n ∈ source.outputNames, path = source.directory out ++ [n] := by
  rw [all_outputs h, List.mem_map]
  exact exists_congr fun n => and_congr_right fun _ => eq_comm

theorem mem_drafts (h : source.Regular) :
    path ∈ source.drafts out ↔
      ∃ n ∈ source.outputNames, path = source.directory out ++ [draftName n] := by
  rw [drafts, List.mem_filterMap]
  constructor
  · rintro ⟨output, houtput, hdraft⟩
    obtain ⟨n, hn, rfl⟩ := (mem_outputs h).1 houtput
    rw [draftOf?_append _ (h.isName hn)] at hdraft
    exact ⟨n, hn, (Option.some.inj hdraft).symm⟩
  · rintro ⟨n, hn, rfl⟩
    exact ⟨_, (mem_outputs h).2 ⟨n, hn, rfl⟩, draftOf?_append _ (h.isName hn)⟩

theorem directory_prefix (out : Path) (source : Source) : out <+: source.directory out :=
  List.prefix_append _ _

/-- Neither an output nor a draft of a source is on the way to its directory. -/
theorem not_prefix_directory (n : Str) (out : Path) (source : Source) :
    ¬ source.directory out ++ [n] <+: source.directory out := by
  intro h
  have hlen := h.length_le
  rw [List.length_append, List.length_singleton] at hlen
  omega

theorem moduleName_mem (source : Source) :
    source.name ++ moduleSuffix ∈ source.outputNames := by
  simp [outputNames]

/-- The names of outputs end in the letter that their suffixes end in, and drafts do not. -/
theorem getLast?_of_mem_outputNames (hn : n ∈ source.outputNames) : n.getLast? = some (.char 's') := by
  have hlast {suffix : Str} (h : suffix.getLast? = some (.char 's')) :
      (source.name ++ suffix).getLast? = some (.char 's') := by
    rw [List.getLast?_append, h]
    rfl
  rcases List.mem_cons.1 hn with rfl | hn
  · exact hlast (by decide)
  · rcases List.mem_cons.1 hn with rfl | hn
    · exact hlast (by decide)
    · cases List.mem_singleton.1 hn
      exact hlast (by decide)

theorem output_ne_draft (hn : n ∈ source.outputNames) (m : Str) : n ≠ draftName m := by
  intro he
  have hdraft : (draftName m).getLast? = some (.char 'p') := by
    rw [draftName, List.getLast?_append, show (Str.ofText ".tmp".toList).getLast? = some (.char 'p') by decide]
    rfl
  rw [← he, getLast?_of_mem_outputNames hn] at hdraft
  exact absurd hdraft (by decide)

end Source

/-! ### Clear places -/

/-- **The places of one source are clear of another's**: no output or draft of the first is an
output of the second, its directory, or on the way to it. -/
structure Clear (out : Path) (source other : Source) : Prop where
  /-- The outputs are clear. -/
  outputs : ∀ path ∈ (source.outputs out).all,
    path ∉ (other.outputs out).all ∧ ¬ path <+: other.directory out
  /-- The drafts are clear. -/
  drafts : ∀ path ∈ source.drafts out,
    path ∉ (other.outputs out).all ∧ ¬ path <+: other.directory out

instance (out : Path) (source other : Source) : Decidable (Clear out source other) :=
  decidable_of_iff
    ((∀ path ∈ (source.outputs out).all,
        (∀ taken ∈ (other.outputs out).all, taken ≠ path) ∧ ¬ path <+: other.directory out) ∧
      ∀ path ∈ source.drafts out,
        (∀ taken ∈ (other.outputs out).all, taken ≠ path) ∧ ¬ path <+: other.directory out)
    ⟨fun h => ⟨fun path hpath => ⟨fun hm => (h.1 path hpath).1 path hm rfl, (h.1 path hpath).2⟩,
        fun path hpath => ⟨fun hm => (h.2 path hpath).1 path hm rfl, (h.2 path hpath).2⟩⟩,
      fun h => ⟨fun path hpath => ⟨fun _ hm he => (h.outputs path hpath).1 (he ▸ hm),
          (h.outputs path hpath).2⟩,
        fun path hpath => ⟨fun _ hm he => (h.drafts path hpath).1 (he ▸ hm),
          (h.drafts path hpath).2⟩⟩⟩

/-- **The sources keep clear of each other.** -/
def Separate (out : Path) (sources : List Source) : Prop :=
  ∀ source ∈ sources, ∀ other ∈ sources, source ≠ other → Clear out source other

instance (out : Path) (sources : List Source) : Decidable (Separate out sources) :=
  inferInstanceAs (Decidable (∀ _ ∈ _, ∀ _ ∈ _, _))

/-! ### Ready places -/

/-- **The places of a source are ready**: no link, and nothing of the wrong kind, stands in them. -/
structure Ready (files : Entry) (out : Path) (source : Source) : Prop where
  /-- From the root of the outputs on, only directories are on the way to the outputs. -/
  directories : ∀ way, out <+: way → way <+: source.directory out →
    files.see? way = none ∨ files.see? way = some .directory
  /-- The outputs are files, if they are there. -/
  outputs : ∀ path ∈ (source.outputs out).all, Sight.isWritable (files.see? path)
  /-- So are the drafts. -/
  drafts : ∀ path ∈ source.drafts out, Sight.isWritable (files.see? path)

instance (files : Entry) (out : Path) (source : Source) : Decidable (Ready files out source) :=
  decidable_of_iff
    ((∀ way ∈ (source.directory out).inits, out <+: way →
        files.see? way = none ∨ files.see? way = some .directory) ∧
      (∀ path ∈ (source.outputs out).all, Sight.isWritable (files.see? path)) ∧
      ∀ path ∈ source.drafts out, Sight.isWritable (files.see? path))
    ⟨fun h => ⟨fun way ho hw => h.1 way ((List.mem_inits _ _).2 hw) ho, h.2.1, h.2.2⟩,
      fun h => ⟨fun way hw ho => h.directories way ho ((List.mem_inits _ _).1 hw), h.outputs,
        h.drafts⟩⟩

/-- Where the root of the outputs is a directory, the way to ready places is free. -/
theorem Ready.free (h : Ready files out source) (hout : files.see? out = some .directory) :
    Path.Free files (source.directory out) := by
  intro way hway
  rcases List.prefix_or_prefix_of_prefix hway (source.directory_prefix out) with hw | hw
  · exact .inr (Entry.see?_directory_of_prefix_directory hw hout)
  · exact h.directories way hw hway

/-! ### What work touches -/

/-- **What work on some sources may change**: directories may appear on the way to their outputs, and
their outputs and drafts may come and go as files. -/
def Touches (out : Path) (todo : List Source) (before after : Seen) : Prop :=
  ∀ q, after q = before q ∨ ∃ t ∈ todo, (q <+: t.directory out ∧ after q = some .directory) ∨
    (q ∈ (t.outputs out).all ∨ q ∈ t.drafts out) ∧ Sight.isWritable (after q)

namespace Touches

variable {todo order : List Source} {start view : Entry}

theorem refl (out : Path) (todo : List Source) (seen : Seen) : Touches out todo seen seen :=
  fun _ => .inl rfl

theorem trans (h : Touches out todo before mid) (h' : Touches out todo mid after) :
    Touches out todo before after := by
  intro q
  rcases h' q with he | hq
  · rw [he]
    exact h q
  · exact .inr hq

theorem mono (h : Touches out todo before after) (hsub : ∀ t ∈ todo, t ∈ order) :
    Touches out order before after := fun q =>
  (h q).imp_right fun ⟨t, ht, hq⟩ => ⟨t, hsub t ht, hq⟩

/-- Nothing outside the directory of the outputs is touched. -/
theorem outside (h : Touches out todo start.see? files.see?) (hregular : ∀ t ∈ todo, t.Regular)
    (hout : start.see? out = some .directory) (hq : ¬ out <+: q) :
    files.see? q = start.see? q := by
  rcases h q with he | ⟨t, ht, ⟨hp, hdir⟩ | ⟨hplace, -⟩⟩
  · exact he
  · rcases List.prefix_or_prefix_of_prefix hp (t.directory_prefix out) with hp | hp
    · rw [hdir, Entry.see?_directory_of_prefix_directory hp hout]
    · exact absurd hp hq
  · refine absurd ?_ hq
    rcases hplace with hplace | hplace
    · obtain ⟨n, -, rfl⟩ := (Source.mem_outputs (hregular t ht)).1 hplace
      exact (t.directory_prefix out).trans (List.prefix_append _ _)
    · obtain ⟨n, -, rfl⟩ := (Source.mem_drafts (hregular t ht)).1 hplace
      exact (t.directory_prefix out).trans (List.prefix_append _ _)

/-- **What is in view without the outputs stays in view.** -/
theorem holds (h : Touches out todo start.see? files.see?) (hregular : ∀ t ∈ todo, t.Regular)
    (hout : start.see? out = some .directory) (hview : ∀ q, out <+: q → view.see? q = none)
    (hh : view.Holds start) : view.Holds files := by
  intro q sight hq
  rw [h.outside hregular hout fun hp => ?_]
  · exact hh q sight hq
  · rw [hview q hp] at hq
    cases hq

/-- Work brings no link. -/
theorem plain (h : Touches out todo start.see? files.see?) (hplain : path.Plain start) :
    path.Plain files := by
  intro way hway target hlink
  rcases h way with he | ⟨t, -, ⟨-, hdir⟩ | ⟨-, hw⟩⟩
  · exact hplain way hway target (he ▸ hlink)
  · cases hlink.symm.trans hdir
  · rw [hlink] at hw
    exact hw

/-- **The outputs of a source are not touched** by work on sources that it is clear of. -/
theorem outputs_eq (h : Touches out todo before after)
    (hclear : ∀ t ∈ todo, Clear out s t ∧ Clear out t s) (hq : q ∈ (s.outputs out).all) :
    after q = before q := by
  rcases h q with he | ⟨t, ht, ⟨hp, -⟩ | ⟨hq' | hq', -⟩⟩
  · exact he
  · exact absurd hp ((hclear t ht).1.outputs q hq).2
  · exact absurd hq' ((hclear t ht).1.outputs q hq).1
  · exact absurd hq ((hclear t ht).2.drafts q hq').1

/-- Nor are its drafts. -/
theorem drafts_eq (h : Touches out todo before after) (hs : s.Regular)
    (hregular : ∀ t ∈ todo, t.Regular) (hclear : ∀ t ∈ todo, Clear out s t)
    (hq : q ∈ s.drafts out) : after q = before q := by
  rcases h q with he | ⟨t, ht, ⟨hp, -⟩ | ⟨hq' | hq', -⟩⟩
  · exact he
  · exact absurd hp ((hclear t ht).drafts q hq).2
  · exact absurd hq' ((hclear t ht).drafts q hq).1
  · -- sources with a draft in common would have an output in common
    obtain ⟨n, hn, rfl⟩ := (Source.mem_drafts hs).1 hq
    obtain ⟨m, hm, he⟩ := (Source.mem_drafts (hregular t ht)).1 hq'
    obtain ⟨hd, hname⟩ := concat_inj he
    refine absurd ?_ ((hclear t ht).outputs _ ((Source.mem_outputs hs).2 ⟨n, hn, rfl⟩)).1
    exact (Source.mem_outputs (hregular t ht)).2 ⟨m, hm, by rw [hd, draftName_inj hname]⟩

end Touches

/-- **Work on sources leaves ready what was ready.** -/
theorem Ready.of_touches {todo : List Source} (h : Ready files out s) (hs : s.Regular)
    (htouch : Touches out todo files.see? files'.see?)
    (hclear : ∀ t ∈ todo, s ≠ t → Clear out s t ∧ Clear out t s) : Ready files' out s := by
  refine ⟨fun way hout hway => ?_, fun path hpath => ?_, fun path hpath => ?_⟩
  · rcases htouch way with he | ⟨t, ht, ⟨-, hd⟩ | ⟨hq, -⟩⟩
    · rw [he]
      exact h.directories way hout hway
    · exact .inr hd
    · exfalso
      by_cases hst : s = t
      · subst hst
        rcases hq with hq | hq
        · obtain ⟨n, -, rfl⟩ := (Source.mem_outputs hs).1 hq
          exact s.not_prefix_directory n out hway
        · obtain ⟨n, -, rfl⟩ := (Source.mem_drafts hs).1 hq
          exact s.not_prefix_directory _ out hway
      · rcases hq with hq | hq
        · exact ((hclear t ht hst).2.outputs way hq).2 hway
        · exact ((hclear t ht hst).2.drafts way hq).2 hway
  · rcases htouch path with he | ⟨t, ht, ⟨hp, -⟩ | ⟨-, hw⟩⟩
    · rw [he]
      exact h.outputs path hpath
    · exfalso
      by_cases hst : s = t
      · subst hst
        obtain ⟨n, -, rfl⟩ := (Source.mem_outputs hs).1 hpath
        exact s.not_prefix_directory n out hp
      · exact ((hclear t ht hst).1.outputs path hpath).2 hp
    · exact hw
  · rcases htouch path with he | ⟨t, ht, ⟨hp, -⟩ | ⟨-, hw⟩⟩
    · rw [he]
      exact h.drafts path hpath
    · exfalso
      by_cases hst : s = t
      · subst hst
        obtain ⟨n, -, rfl⟩ := (Source.mem_drafts hs).1 hpath
        exact s.not_prefix_directory _ out hp
      · exact ((hclear t ht hst).1.drafts path hpath).2 hp
    · exact hw

end Build
end TemplateBindings
