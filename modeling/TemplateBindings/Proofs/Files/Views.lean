import TemplateBindings.Proofs.Files.Directories
import TemplateBindings.Proofs.Files.Growing

/-!
# What stays in view

Whoever changes one part of a file system does not change what can be read without it. A file that
can be read in a part of a file system (`TemplateBindings.Files.Reads`) is read the same in every
file system that holds this part (`TemplateBindings.Files.Entry.Holds`), whatever links the path
goes through: a walk that ends well has seen only what is there.
-/

namespace TemplateBindings
namespace Files

/-! ### Parts of a file system -/

/-- **Everything that is seen in one file system is seen in another.** -/
def Entry.Holds (small big : Entry) : Prop :=
  ∀ way sight, small.see? way = some sight → big.see? way = some sight

variable {small big root : Entry} {path : Path} {bytes : List UInt8} {time : Int}

namespace Entry

theorem Holds.refl (root : Entry) : root.Holds root := fun _ _ h => h

theorem Holds.trans (h : small.Holds root) (h' : root.Holds big) : small.Holds big :=
  fun way sight hs => h' way sight (h way sight hs)

theorem holds_put_none (root : Entry) (way : List Str) (name : Str) :
    (root.put none (way ++ [name])).Holds root := by
  intro other sight h
  rw [see?_put_none] at h
  split at h
  · cases h
  · exact h

theorem Holds.covers (h : small.Holds big) : big.Covers small :=
  fun way sight hs => ⟨sight, h way sight hs, rfl⟩

end Entry

/-! ### Reading files -/

/-- **A path leads to a file** with these bytes, last changed at this time. -/
def Reads (root : Entry) (path : Path) (bytes : List UInt8) (time : Int) : Prop :=
  ∃ way, locate root .target path = .ok (.found way (.file bytes time))

theorem Reads.contents (h : Reads root path bytes time) : contents root path = .ok bytes := by
  obtain ⟨way, h⟩ := h
  rw [Files.contents, h]

theorem Reads.modified (h : Reads root path bytes time) :
    Files.modified root path = .ok time := by
  obtain ⟨way, h⟩ := h
  rw [Files.modified, h]

theorem reads_iff :
    Reads root path bytes time ↔
      contents root path = .ok bytes ∧ Files.modified root path = .ok time := by
  refine ⟨fun h => ⟨h.contents, h.modified⟩, fun ⟨hcontents, hmodified⟩ => ?_⟩
  rw [Files.contents] at hcontents
  rw [Files.modified] at hmodified
  split at hcontents
  · next way _ _ hl =>
    rw [hl] at hmodified
    cases hcontents
    cases hmodified
    exact ⟨way, hl⟩
  · cases hcontents
  · cases hcontents
  · cases hcontents

instance (root : Entry) (path : Path) (bytes : List UInt8) (time : Int) :
    Decidable (Reads root path bytes time) := decidable_of_iff _ reads_iff.symm

theorem isFile_eq_true :
    isFile root path = .ok true ↔ ∃ bytes time, Reads root path bytes time := by
  constructor
  · intro h
    rw [isFile] at h
    split at h
    · next way bytes time hloc => exact ⟨bytes, time, way, hloc⟩
    · cases h
    · cases h
    · cases h
  · rintro ⟨bytes, time, way, hloc⟩
    rw [isFile, hloc]

/-- **What can be read in a part can be read in the whole.** -/
theorem Reads.of_holds (hr : Reads small path bytes time) (h : small.Holds big) :
    Reads big path bytes time := by
  obtain ⟨way, hr⟩ := hr
  have hsee : big.see? way = some (.file bytes time) :=
    h way _ (Entry.see?_eq_some_file.2 (stands_of_locate hr))
  exact ⟨way, locate_of_covers (by simp) h.covers hr (Entry.see?_eq_some_file.1 hsee) (by simp)⟩

/-! ### Operations out of view -/

theorem Operation.effect_of_not_mem {operation : Operation} (now : Int) (seen : Seen)
    (h : path ∉ operation.places) : operation.effect now seen path = seen path := by
  cases operation with
  | move source target =>
    obtain ⟨hs, ht⟩ : path ≠ source ∧ path ≠ target := by simpa [places] using h
    rw [effect, Function.update_of_ne ht, Function.update_of_ne hs]
  | makeDirectory _ | write _ _ | append _ _ | removeFile _ | removeDirectory _ =>
    exact Function.update_of_ne (by simpa [places] using h) ..

/-- **Operations out of view** leave what is in view: those that make directories, where nothing can
have been, and those that work where nothing was seen. -/
theorem Entry.Holds.undergoes {disk disk' : Disk} {operations : List Operation}
    (hu : disk.Undergoes operations disk') (h : small.Holds disk.root)
    (hout : ∀ operation ∈ operations, ∀ p ∈ operation.places,
      operation = .makeDirectory p ∨ small.see? p = none) : small.Holds disk'.root := by
  induction hu with
  | nil => exact h
  | cons hd ha _ ih =>
    refine ih ?_ fun operation ho => hout operation (List.mem_cons_of_mem _ ho)
    obtain ⟨hpossible, hsee⟩ := Operation.of_apply hd ha
    intro q sight hq
    rw [Disk.after, hsee, Operation.effect_of_not_mem]
    · exact h q sight hq
    · intro hmem
      rcases hout _ List.mem_cons_self q hmem with rfl | hnone
      · have hnew := h q sight hq
        rw [hpossible.2] at hnew
        cases hnew
      · rw [hq] at hnone
        cases hnone

/-- Making directories keeps what is there. -/
theorem Making.holds {disk disk' : Disk} {operations : List Operation}
    (hu : disk.Undergoes operations disk') (hm : Making path operations) :
    disk.root.Holds disk'.root := by
  refine Entry.Holds.undergoes hu (Entry.Holds.refl _) fun operation ho p hp => ?_
  obtain ⟨way, -, rfl⟩ := hm operation ho
  cases List.mem_singleton.1 hp
  exact .inl rfl

end Files
end TemplateBindings
