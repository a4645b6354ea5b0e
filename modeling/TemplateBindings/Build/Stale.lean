import TemplateBindings.Files.Disk

/-!
# Stale outputs

What a run did not keep is removed from the directory of the outputs: every file and link that is
not among the kept ones, and every directory that holds none of them. Links are not followed. Each
directory is handled in the order of names, its members before itself.
-/

namespace TemplateBindings
namespace Build

open Files

/-- **What a sweep finds**. -/
structure Sweep where
  /-- The removals in their order. For a directory that lies too deep there is its failure. -/
  removals : List (Except FileError Operation)
  /-- Whether something kept was met. -/
  meetsKept : Bool

/-- Nothing to remove and nothing kept. -/
def Sweep.empty : Sweep := ⟨[], false⟩

/-- What two sweeps find, one after the other. -/
def Sweep.append (first second : Sweep) : Sweep :=
  ⟨first.removals ++ second.removals, first.meetsKept || second.meetsKept⟩

/-- A directory, after what is in it: it goes too if nothing kept was met. -/
def Sweep.closeDirectory (path : Path) (members : Sweep) : Sweep :=
  if members.meetsKept then members
  else ⟨members.removals ++ [.ok (.removeDirectory path)], false⟩

mutual

/-- **The sweep** at a path and below it. A directory takes room. -/
def sweep (room : Nat) (keep : List Path) (path : Path) : Entry → Sweep
  | .directory members =>
    match room with
    | 0 => ⟨[.error ⟨.tooDeep, path, none⟩], true⟩
    | room + 1 => (sweepMembers room keep path members).closeDirectory path
  | _ => if keep.contains path then ⟨[], true⟩ else ⟨[.ok (.removeFile path)], false⟩

/-- The sweep among members of the directory at a path. -/
def sweepMembers (room : Nat) (keep : List Path) (path : Path) : List (Str × Entry) → Sweep
  | [] => .empty
  | (name, entry) :: rest =>
    (sweep room keep (path ++ [name]) entry).append (sweepMembers room keep path rest)

end

/-- The path that a removal takes away. -/
def removedPath? : Operation → Option Path
  | .removeFile path => some path
  | .removeDirectory path => some path
  | _ => none

/-- **Removes what is stale** in a directory, and says what was removed. Where there is no directory
there is nothing stale. -/
def removeStale (room : Nat) (directory : Path) (keep : List Path) :
    Work FileError (List Path) := do
  match ← ask fun files => .ok (entryAt? files directory) with
  | some (.directory members) =>
    let stale := (sweep room keep directory (Entry.directory members).sorted).removals
    stale.forM fun removal => do perform (← MonadExcept.ofExcept removal)
    return (stale.filterMap Except.toOption).filterMap removedPath?
  | _ => return []

end Build
end TemplateBindings
