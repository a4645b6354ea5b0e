import TemplateBindings.Files.Path

/-!
# Sources

A source is a file somewhere below the root of the sources, known by its place there, its name and
its suffix. What a source is called in reports is its way down from the root, so that reports are
the same wherever the root stands.
-/

namespace TemplateBindings
namespace Build

open Files

/-! ### Kinds and places -/

/-- What a source is written in. -/
inductive Kind where
  /-- Markup, from which modules are made. -/
  | markup
  /-- A stylesheet, which has a part in the module of the markup beside it. -/
  | stylesheet
  deriving DecidableEq, Repr

/-- The suffix of the files of a kind. -/
def Kind.suffix : Kind → Str
  | .markup => ".html".toList
  | .stylesheet => ".css".toList

/-- The kind of the files with a suffix. -/
def Kind.ofSuffix? (suffix : Str) : Option Kind :=
  if suffix = Kind.suffix .markup then some .markup
  else if suffix = Kind.suffix .stylesheet then some .stylesheet
  else none

/-- **A source**, by its place below the root of the sources. -/
structure Source where
  /-- The way from the root to the directory of the source. -/
  place : List Str
  /-- The name of its file without the suffix. -/
  name : Str
  /-- What it is written in. -/
  kind : Kind
  deriving DecidableEq, Repr

/-- The source at the end of a way below the root, if its file is one by its suffix. -/
def Source.ofWay? (way : List Str) : Option Source :=
  let name := Path.splitName (way.getLast?.getD [])
  (Kind.ofSuffix? name.2).map fun kind => ⟨way.dropLast, name.1, kind⟩

/-- The way from the root to a source. -/
def Source.way (source : Source) : List Str := source.place ++ [source.name ++ source.kind.suffix]

/-- The path of a source below a root. -/
def Source.path (root : Path) (source : Source) : Path := root ++ source.way

/-- What a source is called in reports. -/
def Source.label (source : Source) : Str := Path.renderBelow source.way

/-- The kind of a suffix has that suffix. -/
theorem Kind.suffix_of_ofSuffix? {suffix : Str} {kind : Kind}
    (h : Kind.ofSuffix? suffix = some kind) :
    kind.suffix = suffix := by
  unfold Kind.ofSuffix? at h
  split at h
  · next hs => rw [← Option.some.inj h, hs]
  · split at h
    · next hs => rw [← Option.some.inj h, hs]
    · cases h

/-- A source that is found at the end of a way stands there. -/
theorem Source.way_of_ofWay? {way : List Str} {source : Source}
    (h : Source.ofWay? way = some source) :
    source.way = way := by
  obtain ⟨kind, hk, rfl⟩ := Option.map_eq_some_iff.1 h
  have hs := Kind.suffix_of_ofSuffix? hk
  rcases List.eq_nil_or_concat way with rfl | ⟨place, name, rfl⟩
  · simp [Path.splitName] at hs
    cases kind <;> exact absurd hs (by decide)
  · simp [Source.way, hs, Path.splitName_append]

/-! ### Pairs -/

/-- **The stylesheet beside a source**: in the same directory, with the same name. -/
def Source.stylesheet? (sources : List Source) (source : Source) : Option Source :=
  sources.find? fun other =>
    other.kind = .stylesheet && other.place = source.place && other.name = source.name

/-- The markup among the sources. -/
def markupOf (sources : List Source) : List Source := sources.filter (·.kind = .markup)

/-- The markup among the sources, each with the stylesheet beside it. -/
def pairs (sources : List Source) : List (Source × Source) :=
  (markupOf sources).filterMap fun source =>
    (source.stylesheet? sources).map fun sheet => (source, sheet)

end Build
end TemplateBindings
