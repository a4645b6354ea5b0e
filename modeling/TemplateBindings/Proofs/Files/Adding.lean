import TemplateBindings.Proofs.Files.StepsBack
import TemplateBindings.Proofs.Files.Views

/-!
# Making directories and adding to files, wherever paths lead

Links may lead a path anywhere. But wherever it is that directories are made, what was there before
stays (`TemplateBindings.Files.Widened`), and wherever something is added to a file, no file loses what
it held (`TemplateBindings.Files.Grown`).
-/

namespace TemplateBindings
namespace Files

variable {ε : Type} {root root' : Entry} {path : Path} {now : Int} {disk : Disk}
  {before mid after : Seen} {bytes : List UInt8}

/-! ### Making directories -/

/-- **Directories are made** where nothing was. -/
def Widened (before after : Seen) : Prop :=
  ∀ q, after q = before q ∨ before q = none ∧ after q = some .directory

namespace Widened

theorem refl (seen : Seen) : Widened seen seen := fun _ => .inl rfl

theorem trans (h : Widened before mid) (h' : Widened mid after) : Widened before after := by
  intro q
  rcases h' q with he | ⟨hnone, hdir⟩
  · rw [he]
    exact h q
  · rcases h q with he | ⟨-, hdir'⟩
    · exact .inr ⟨he.symm.trans hnone, hdir⟩
    · rw [hnone] at hdir'
      cases hdir'

/-- What was there is there. -/
theorem holds (h : Widened root.see? root'.see?) : root.Holds root' := by
  intro way sight hway
  rcases h way with he | ⟨hnone, -⟩
  · rwa [he]
  · rw [hnone] at hway
    cases hway

end Widened

/-- A directory is made where nothing was, wherever a path leads. -/
theorem widened_of_makeDirectory (h : (Operation.makeDirectory path).apply now root = .ok root') :
    Widened root.see? root'.see? := by
  rw [Operation.apply_eq_ok, Operation.change] at h
  split at h
  · next way name hl =>
    obtain ⟨hdir, hnone⟩ := stands_of_locate hl
    have hbelow : ∀ entry ∈ some (Entry.directory []), ∀ rest ≠ [], entry.see? rest = none := by
      rintro _ ⟨⟩ (_ | ⟨name, rest⟩) hrest
      · exact absurd rfl hrest
      · rfl
    cases h
    rw [Operation.see?_put_leaf hdir hbelow (.inl (by simp [hnone]))]
    intro q
    rw [Function.update_apply]
    split
    · next hq => exact .inr ⟨by rw [hq, hnone], rfl⟩
    · exact .inl rfl
  · cases h
  · cases h

theorem widened_makeDirectory (path : Path) (disk : Disk) :
    Widened disk.root.see? ((perform (.makeDirectory path)).runOn disk).2.root.see? := by
  rcases ha : (Operation.makeDirectory path).apply disk.now disk.root with e | root
  · rw [runOn_perform_error ha]
    exact .refl _
  · rw [runOn_perform_ok ha]
    exact widened_of_makeDirectory ha

/-- **Making directories** leaves what was there, wherever a path leads. -/
theorem widened_ensureDirectories (room : Nat) (path : Path) (disk : Disk) :
    Widened disk.root.see? ((ensureDirectories room path).runOn disk).2.root.see? :=
  runOn_ensureDirectoriesRev_related (fun a b => Widened a.root.see? b.root.see?) .trans
    (fun way _ => widened_makeDirectory way) room disk

/-! ### Adding to files -/

/-- **Files grow**: none loses what it held, and links stay. -/
structure Grown (before after : Seen) : Prop where
  /-- What files hold comes first. -/
  bytes : ∀ q, ∃ more,
    Operation.bytesSeen (after q) = Operation.bytesSeen (before q) ++ more
  /-- Links stay. -/
  link : ∀ q target, before q = some (.link target) → after q = some (.link target)

theorem Grown.trans (h : Grown before mid) (h' : Grown mid after) : Grown before after where
  bytes q := by
    obtain ⟨first, hfirst⟩ := h.bytes q
    obtain ⟨second, hsecond⟩ := h'.bytes q
    exact ⟨first ++ second, by rw [hsecond, hfirst, List.append_assoc]⟩
  link q target hl := h'.link q target (h.link q target hl)

theorem Widened.bytesSeen_eq (h : Widened before after) (q : Path) :
    Operation.bytesSeen (after q) = Operation.bytesSeen (before q) := by
  rcases h q with he | ⟨hnone, hdir⟩
  · rw [he]
  · rw [hnone, hdir]
    rfl

theorem Widened.eq_of_some (h : Widened before after) {q : Path} {sight : Sight}
    (hs : before q = some sight) : after q = some sight := by
  rcases h q with he | ⟨hnone, -⟩
  · rw [he, hs]
  · rw [hnone] at hs
    cases hs

theorem Widened.grown (h : Widened before after) : Grown before after where
  bytes q := ⟨[], by rw [h.bytesSeen_eq, List.append_nil]⟩
  link _ _ := h.eq_of_some

/-- **What is added to a file** comes behind what it held, wherever a path leads. -/
theorem grown_of_append (h : (Operation.append path bytes).apply now root = .ok root') :
    Grown root.see? root'.see? := by
  rw [Operation.apply_eq_ok, Operation.change, writeWith] at h
  have hput {spot : Spot} {held : List UInt8} (hw : spot.Writable held) (hstands : spot.Stands root) :
      Grown root.see? (root.put (some (.file (held ++ bytes) now)) spot.place).see? := by
    rw [see?_put_file hw hstands]
    refine ⟨fun q => ?_, fun q target hl => ?_⟩
    · by_cases hq : q = spot.place
      · subst hq
        rw [Function.update_self]
        rcases hw.at_place hstands with ⟨time, hat⟩ | ⟨hnone, -⟩
        · rw [hat]
          exact ⟨bytes, rfl⟩
        · rw [hnone]
          exact ⟨held ++ bytes, rfl⟩
      · rw [Function.update_of_ne hq]
        exact ⟨[], (List.append_nil _).symm⟩
    · have hq : q ≠ spot.place := by
        rintro rfl
        rcases hw.at_place hstands with ⟨time, hat⟩ | ⟨hnone, -⟩
        · rw [hat] at hl
          cases hl
        · rw [hnone] at hl
          cases hl
      rwa [Function.update_of_ne hq]
  split at h
  · next way held _ hl =>
    cases h
    exact hput (.file way held _) (stands_of_locate hl)
  · cases h
  · next way name hl =>
    cases h
    exact hput (.vacant way name) (stands_of_locate hl)
  · cases h

theorem grown_append (path : Path) (bytes : List UInt8) (disk : Disk) :
    Grown disk.root.see? ((perform (.append path bytes)).runOn disk).2.root.see? := by
  rcases ha : (Operation.append path bytes).apply disk.now disk.root with e | root
  · rw [runOn_perform_error ha]
    exact (Widened.refl _).grown
  · rw [runOn_perform_ok ha]
    exact grown_of_append ha

end Files
end TemplateBindings
