import TemplateBindings.Build.Source
import TemplateBindings.Files.Operation

/-!
# Discovery

The sources of a build are the files below its root that have the suffix of a source, links to such
files among them. Directories are entered, links to directories are not, and neither are the
directories that the caller leaves out. The order of the sources is that of their labels, whatever
order directories list their members in.
-/

namespace TemplateBindings
namespace Build

open Files

mutual

/-- The ways to everything below an entry that is no directory: the members of each directory
backwards before those of its subdirectories. -/
def leaves (excluded : List Path) (root : Path) (way : List Str) : Entry → List (List Str)
  | .directory members =>
    (members.filter fun m => !m.2.isDirectory).reverse.map (fun m => way ++ [m.1])
      ++ leavesBelow excluded root way members
  | _ => []

/-- The ways to everything below the subdirectories among some members. -/
def leavesBelow (excluded : List Path) (root : Path) (way : List Str) :
    List (Str × Entry) → List (List Str)
  | [] => []
  | (name, entry) :: rest =>
    (if excluded.contains (root ++ way ++ [name]) then []
      else leaves excluded root (way ++ [name]) entry)
      ++ leavesBelow excluded root way rest

end

/-- The sources among ways below a root; the first way that cannot be followed to its end is an
error. -/
def sourcesAmong (files : Entry) (root : Path) : List (List Str) → Except FileError (List Source)
  | [] => .ok []
  | way :: rest =>
    match isFile files (root ++ way) with
    | .error e => .error e
    | .ok false => sourcesAmong files root rest
    | .ok true => (sourcesAmong files root rest).map ((Source.ofWay? way).toList ++ ·)

/-- The sources in the order of their labels. -/
def inOrder (sources : List Source) : List Source := Text.orderedBy Source.label sources

/-- **The sources below a root**. The paths of the root and of the excluded directories are
resolved. -/
def discover (files : Entry) (root : Path) (excluded : List Path) :
    Except FileError (List Source) :=
  match openDirectory files root with
  | .error e => .error e
  | .ok directory =>
    (sourcesAmong files root (leaves excluded root [] directory.sorted)).map inOrder

end Build
end TemplateBindings
