import TemplateBindings.Proofs.Files.Sight
import TemplateBindings.Proofs.Text.Order

/-!
# Listings in order

A valid file system shows the same with every listing in order
(`TemplateBindings.Files.Entry.see?_sorted`), and stays valid: only the order of members is another
one, and that means nothing.
-/

namespace TemplateBindings
namespace Files
namespace Entry

variable {members other : List (Str × Entry)} {entry : Entry} {name : Str}

theorem sortedMembers_eq_map (members : List (Str × Entry)) :
    sortedMembers members = members.map fun m => (m.1, m.2.sorted) := by
  induction members with
  | nil => rw [sortedMembers, List.map_nil]
  | cons m members ih => rw [sortedMembers, ih, List.map_cons]

/-- Where names are distinct, the order of members means nothing to a lookup. -/
theorem lookup_eq_of_perm (hp : members.Perm other) (hn : (members.map Prod.fst).Nodup)
    (name : Str) : members.lookup name = other.lookup name := by
  have hn' : (other.map Prod.fst).Nodup := (hp.map Prod.fst).nodup_iff.1 hn
  cases hl : members.lookup name with
  | some next => exact (lookup_of_mem hn' (hp.subset (mem_of_lookup hl))).symm
  | none =>
    cases ho : other.lookup name with
    | none => rfl
    | some next =>
      have hmem := lookup_of_mem hn (hp.symm.subset (mem_of_lookup ho))
      cases hl.symm.trans hmem

theorem lookup_sortedMembers (members : List (Str × Entry)) (name : Str) :
    (sortedMembers members).lookup name = (members.lookup name).map sorted := by
  induction members with
  | nil => rw [sortedMembers]; rfl
  | cons m members ih =>
    rw [sortedMembers, List.lookup_cons, List.lookup_cons, ih]
    split <;> rfl

/-- The members of a directory in order. -/
def orderedMembers (members : List (Str × Entry)) : List (Str × Entry) :=
  Text.orderedBy Prod.fst (sortedMembers members)

theorem sorted_directory (members : List (Str × Entry)) :
    (directory members).sorted = directory (orderedMembers members) := by
  rw [sorted, orderedMembers]

theorem orderedMembers_perm (members : List (Str × Entry)) :
    (orderedMembers members).Perm (members.map fun m => (m.1, m.2.sorted)) := by
  rw [← sortedMembers_eq_map]
  exact Text.orderedBy_perm _ _

theorem names_sortedMembers (members : List (Str × Entry)) :
    (sortedMembers members).map Prod.fst = members.map Prod.fst := by
  rw [sortedMembers_eq_map, List.map_map]
  rfl

theorem lookup_orderedMembers (hn : (members.map Prod.fst).Nodup) (name : Str) :
    (orderedMembers members).lookup name = (members.lookup name).map sorted := by
  rw [← lookup_sortedMembers]
  refine (lookup_eq_of_perm (Text.orderedBy_perm _ _).symm ?_ name).symm
  rwa [names_sortedMembers]

/-- **A valid file system with its listings in order** shows what it showed. -/
theorem see?_sorted (hv : entry.Valid) (way : List Str) : entry.sorted.see? way = entry.see? way := by
  induction way generalizing entry with
  | nil =>
    cases entry with
    | directory members => rw [sorted_directory]; rfl
    | file bytes modified => rw [sorted]; intro members h; cases h
    | link target => rw [sorted]; intro members h; cases h
  | cons name way ih =>
    cases entry with
    | file bytes modified => rw [sorted]; intro members h; cases h
    | link target => rw [sorted]; intro members h; cases h
    | directory members =>
      obtain ⟨hn, hm⟩ := valid_directory.1 hv
      rw [sorted_directory, see?_directory_cons, see?_directory_cons, lookup_orderedMembers hn]
      cases hl : members.lookup name with
      | none => rfl
      | some next => exact ih (hm _ (mem_of_lookup hl)).2

mutual

/-- A valid file system stays valid with its listings in order. -/
theorem Valid.sorted : (entry : Entry) → entry.Valid → entry.sorted.Valid
  | .directory members, hv => by
    obtain ⟨hn, hm⟩ := valid_directory.1 hv
    rw [sorted_directory]
    have hperm := orderedMembers_perm members
    refine valid_directory.2 ⟨?_, fun m hmem => ?_⟩
    · rw [(hperm.map Prod.fst).nodup_iff, List.map_map]
      exact hn
    · obtain ⟨m', hm', rfl⟩ := List.mem_map.1 (hperm.subset hmem)
      exact ⟨(hm m' hm').1, Valid.sortedMember members hm m' hm'⟩
  | .file bytes modified, hv => by rw [Entry.sorted]; exact hv; intro members h; cases h
  | .link target, hv => by rw [Entry.sorted]; exact hv; intro members h; cases h

theorem Valid.sortedMember : (members : List (Str × Entry)) →
    (∀ m ∈ members, IsName m.1 ∧ m.2.Valid) → ∀ m ∈ members, m.2.sorted.Valid
  | [], _, _, hm => absurd hm List.not_mem_nil
  | (_, entry) :: rest, h, m, hm => by
    rcases List.mem_cons.1 hm with rfl | hm
    · exact Valid.sorted entry (h _ List.mem_cons_self).2
    · exact Valid.sortedMember rest (fun m hm => h m (List.mem_cons_of_mem _ hm)) m hm

end

end Entry
end Files
end TemplateBindings
