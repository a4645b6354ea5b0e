import TemplateBindings.Proofs.Build.Places

/-!
# Outputs in common

The outputs of a source are found by its name alone, so two sources in one directory can meet: the
suffix of class constants is that of a stylesheet with that of a module behind it. Markup named
`x.css` has its module where the markup named `x` has its class constants, and that is the only way
for two sources to have an output in common (`TemplateBindings.Build.common_output_iff`).
-/

namespace TemplateBindings
namespace Build

open Files

variable {files : Entry} {root : Path} {excluded : List Path} {sources : List Source}
  {source other a b : Source} {s t : Str}

/-! ### Names in common -/

/-- **One name is the other with the suffix of a stylesheet behind it.** -/
def NamesMeet (s t : Str) : Prop := s = t ++ stylesheetSuffix ∨ t = s ++ stylesheetSuffix

instance (s t : Str) : Decidable (NamesMeet s t) := inferInstanceAs (Decidable (_ ∨ _))

theorem classModuleSuffix_eq :
    GeneratedModule.classModuleSuffix = stylesheetSuffix ++ moduleSuffix := rfl

/-- A module and a stylesheet end in different letters. -/
theorem append_moduleSuffix_ne (s t : Str) : s ++ moduleSuffix ≠ t ++ stylesheetSuffix := by
  intro he
  have h2 := congrArg (fun name : Str => name.reverse.take 2) he
  simp [moduleSuffix, stylesheetSuffix] at h2

/-- The names of the outputs of two sources with different names meet in one way. -/
theorem common_outputName_iff (hne : source.name ≠ other.name) :
    (∃ n, n ∈ source.outputNames ∧ n ∈ other.outputNames) ↔ NamesMeet source.name other.name := by
  have hmod (s t : Str) : s ++ moduleSuffix = t ++ GeneratedModule.classModuleSuffix ↔
      s = t ++ stylesheetSuffix := by
    rw [classModuleSuffix_eq, ← List.append_assoc, List.append_left_inj]
  have hsheet (s t : Str) : s ++ GeneratedModule.classModuleSuffix ≠ t ++ stylesheetSuffix := by
    rw [classModuleSuffix_eq, ← List.append_assoc]
    exact append_moduleSuffix_ne _ _
  constructor
  · rintro ⟨n, hn, hn'⟩
    simp only [Source.outputNames, List.mem_cons, List.not_mem_nil, or_false] at hn hn'
    rcases hn with rfl | rfl | rfl
    · rcases hn' with he | he | he
      · exact absurd (List.append_cancel_right he) hne
      · exact .inl ((hmod _ _).1 he)
      · exact absurd he (append_moduleSuffix_ne _ _)
    · rcases hn' with he | he | he
      · exact .inr ((hmod _ _).1 he.symm)
      · exact absurd (List.append_cancel_right he) hne
      · exact absurd he (hsheet _ _)
    · rcases hn' with he | he | he
      · exact absurd he.symm (append_moduleSuffix_ne _ _)
      · exact absurd he.symm (hsheet _ _)
      · exact absurd (List.append_cancel_right he) hne
  · rintro (he | he)
    · exact ⟨source.name ++ moduleSuffix, by simp [Source.outputNames],
        by simp [Source.outputNames, (hmod _ _).2 he]⟩
    · exact ⟨other.name ++ moduleSuffix, by simp [Source.outputNames, (hmod _ _).2 he],
        by simp [Source.outputNames]⟩

/-! ### Outputs in common -/

/-- **Two sources that are discovered together have an output in common** only if they are in one
directory and their names meet; in all other cases their outputs are disjoint. -/
theorem common_output_iff (hv : files.Valid) (h : discover files root excluded = .ok sources)
    (ha : a ∈ sources) (hb : b ∈ sources) (hak : a.kind = .markup) (hbk : b.kind = .markup)
    (hne : a ≠ b) (out : Path) :
    (∃ path, path ∈ (a.outputs out).all ∧ path ∈ (b.outputs out).all) ↔
      a.place = b.place ∧ NamesMeet a.name b.name := by
  have hra := (discover_regular hv h ha).1
  have hrb := (discover_regular hv h hb).1
  have hname (hplace : a.place = b.place) : a.name ≠ b.name := by
    intro hn
    obtain ⟨place, name, kind⟩ := a
    obtain ⟨place', name', kind'⟩ := b
    cases hak
    cases hbk
    cases hplace
    cases hn
    exact hne rfl
  constructor
  · rintro ⟨path, hpa, hpb⟩
    obtain ⟨n, hn, rfl⟩ := (Source.mem_outputs hra).1 hpa
    obtain ⟨m, hm, he⟩ := (Source.mem_outputs hrb).1 hpb
    obtain ⟨hdir, rfl⟩ := concat_inj he
    have hplace : a.place = b.place := List.append_cancel_left hdir
    exact ⟨hplace, (common_outputName_iff (hname hplace)).1 ⟨n, hn, hm⟩⟩
  · rintro ⟨hplace, hmeet⟩
    obtain ⟨n, hn, hm⟩ := (common_outputName_iff (hname hplace)).2 hmeet
    refine ⟨a.directory out ++ [n], (Source.mem_outputs hra).2 ⟨n, hn, rfl⟩,
      (Source.mem_outputs hrb).2 ⟨n, hm, ?_⟩⟩
    rw [Source.directory, hplace]
    rfl

/-- A file system with two sources whose names meet. -/
def twins : Entry :=
  .directory [("src".toList, .directory
    [("a.html".toList, .file [] 0), ("a.css.html".toList, .file [] 0)])]

/-- The sources in it. -/
def twinSources : List Source :=
  [⟨[], "a.css".toList, .markup⟩, ⟨[], "a".toList, .markup⟩]

/-- The two sources are discovered together, and the outputs of one meet those of the other. -/
theorem twins_have_common_output :
    twins.Valid ∧ discover twins ["src".toList] [["out".toList]] = .ok twinSources ∧
      ∃ path, path ∈ (Source.outputs ["out".toList] ⟨[], "a.css".toList, .markup⟩).all ∧
        path ∈ (Source.outputs ["out".toList] ⟨[], "a".toList, .markup⟩).all :=
  have hv : twins.Valid := by decide +kernel
  have hd : discover twins ["src".toList] [["out".toList]] = .ok twinSources := by decide +kernel
  ⟨hv, hd, (common_output_iff hv hd List.mem_cons_self (List.mem_cons_of_mem _ List.mem_cons_self)
    rfl rfl (by decide) ["out".toList]).2 (by decide)⟩

/-- **Not every two sources that are discovered together have disjoint outputs.** -/
theorem not_outputs_disjoint :
    ¬ ∀ (files : Entry) (root : Path) (excluded : List Path) (sources : List Source),
      files.Valid → discover files root excluded = .ok sources →
      ∀ a ∈ sources, ∀ b ∈ sources, a.kind = .markup → b.kind = .markup → a ≠ b →
        ∀ out path, path ∈ (a.outputs out).all → path ∉ (b.outputs out).all := by
  intro h
  refine h twins ["src".toList] [["out".toList]] twinSources (by decide +kernel)
    (by decide +kernel) ⟨[], "a.css".toList, .markup⟩ List.mem_cons_self
    ⟨[], "a".toList, .markup⟩ (List.mem_cons_of_mem _ List.mem_cons_self) rfl rfl (by decide)
    ["out".toList] ["out".toList, "a.css.ts".toList] ?_ ?_
  · decide +kernel
  · decide +kernel

end Build
end TemplateBindings
