import TemplateBindings.Files.Path

/-!
# Entries

What a file system holds is one entry, its root directory. An entry is reached here by a way that
goes through real directories only: names step down, and neither links nor steps back are followed.
-/

namespace TemplateBindings
namespace Files

/-- **An entry** of a file system. -/
inductive Entry where
  /-- A file: its bytes, and the time of its last change in nanoseconds. -/
  | file (bytes : List UInt8) (modified : Int)
  /-- A symbolic link, with the text of the path that it points at. -/
  | link (target : Str)
  /-- A directory: its members with their names. The order of members means nothing. -/
  | directory (members : List (Str × Entry))
  deriving Repr

namespace Entry

/-! ### Reaching entries -/

/-- A member of a directory. -/
def member? (name : Str) : Entry → Option Entry
  | directory members => members.lookup name
  | _ => none

/-- **The entry at the end of a way** through real directories. -/
def at? : Entry → (way : List Str) → Option Entry
  | entry, [] => some entry
  | entry, name :: way =>
    match entry.member? name with
    | some next => next.at? way
    | none => none

@[simp] theorem at?_nil (entry : Entry) : entry.at? [] = some entry := rfl

theorem at?_cons (entry : Entry) (name : Str) (way : List Str) :
    entry.at? (name :: way) = (entry.member? name).bind (·.at? way) := by
  rw [at?]
  cases entry.member? name <;> rfl

/-- A way may be gone in two parts. -/
theorem at?_append (entry : Entry) (way rest : List Str) :
    entry.at? (way ++ rest) = (entry.at? way).bind (·.at? rest) := by
  induction way generalizing entry with
  | nil => rfl
  | cons name way ih =>
    rw [List.cons_append, at?_cons, at?_cons]
    cases entry.member? name with
    | none => rfl
    | some next => exact ih next

/-- Whether an entry is a directory. -/
def isDirectory : Entry → Bool
  | directory _ => true
  | _ => false

/-! ### Changing entries -/

/-- The members with another entry, or none, under a name. -/
def putMember (name : Str) (new : Option Entry) (members : List (Str × Entry)) :
    List (Str × Entry) :=
  (new.map fun entry => (name, entry)).toList ++ members.filter (·.1 != name)

/-- **An entry with another one, or none, at the end of a way**. Where the way does not lead through
directories, and at the root if it is to be taken away, nothing changes. -/
def put (new : Option Entry) : (way : List Str) → Entry → Entry
  | [], root => new.getD root
  | [name], directory members => directory (putMember name new members)
  | name :: way, directory members =>
    match members.lookup name with
    | some next => directory (putMember name (some (next.put new way)) members)
    | none => directory members
  | _ :: _, entry => entry

/-- Looking up a name among the members with another name left out. -/
theorem lookup_filter_ne (name other : Str) (members : List (Str × Entry)) :
    (members.filter (·.1 != name)).lookup other =
      if other = name then none else members.lookup other := by
  induction members with
  | nil => simp
  | cons m members ih =>
    obtain ⟨key, entry⟩ := m
    by_cases hm : key = name
    · rw [List.filter_cons_of_neg (by simp [hm]), ih]
      split
      · rfl
      · next ho =>
        have hne : (other == key) = false := by simpa [hm] using ho
        simp [List.lookup_cons, hne]
    · rw [List.filter_cons_of_pos (by simpa using hm)]
      by_cases ho : other = key
      · simp [ho, hm]
      · have hne : (other == key) = false := by simpa using ho
        simp [List.lookup_cons, hne, ih]

/-- The name that was put holds what was put there. -/
@[simp] theorem lookup_putMember_self (name : Str) (new : Option Entry)
    (members : List (Str × Entry)) : (putMember name new members).lookup name = new := by
  cases new with
  | none => simp [putMember, lookup_filter_ne]
  | some entry => simp [putMember]

/-- Other names hold what they held. -/
theorem lookup_putMember_of_ne {name other : Str} (h : other ≠ name) (new : Option Entry)
    (members : List (Str × Entry)) :
    (putMember name new members).lookup other = members.lookup other := by
  have hne : (other == name) = false := by simpa using h
  cases new with
  | none => simp [putMember, lookup_filter_ne, h]
  | some entry => simp [putMember, List.lookup_cons, hne, lookup_filter_ne, h]

/-- A directory stays one when something is put below it. -/
theorem put_of_ne_nil {new : Option Entry} {name : Str} {way : List Str}
    {members : List (Str × Entry)} (h : way ≠ []) :
    (directory members).put new (name :: way) =
      match members.lookup name with
      | some next => directory (putMember name (some (next.put new way)) members)
      | none => directory members := by
  cases way with
  | nil => exact absurd rfl h
  | cons w way => rfl

/-! ### Listings in order -/

mutual

/-- **An entry with every listing in the order of names**. -/
def sorted : Entry → Entry
  | directory members => directory (Text.orderedBy Prod.fst (sortedMembers members))
  | entry => entry

/-- Members, each with every listing inside in order. -/
def sortedMembers : List (Str × Entry) → List (Str × Entry)
  | [] => []
  | (name, entry) :: rest => (name, entry.sorted) :: sortedMembers rest

end

mutual

/-- How many links there are in an entry. -/
def linkCount : Entry → Nat
  | file _ _ => 0
  | link _ => 1
  | directory members => linkCountMembers members

/-- How many links there are in some members. -/
def linkCountMembers : List (Str × Entry) → Nat
  | [] => 0
  | (_, entry) :: rest => entry.linkCount + linkCountMembers rest

end

end Entry
end Files
end TemplateBindings
