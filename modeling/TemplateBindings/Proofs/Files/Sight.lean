import Mathlib.Data.List.Infix
import Mathlib.Logic.Function.Basic
import TemplateBindings.Files.Entry

/-!
# What is seen in a file system

The entry at the end of a way holds everything below it, so that no law about changes can speak of
entries and stay short: a change below a directory is a change of the directory. What is *seen* at
the end of a way (`TemplateBindings.Files.Entry.see?`) is only its outermost part. In these terms
every change is a change in one place, and two file systems hold the same if the same is seen in
them everywhere, whatever the order of members.

* `TemplateBindings.Files.Entry.see?_put` – putting an entry somewhere is seen there and below, and
  nowhere else.
* `TemplateBindings.Files.Entry.Valid` – the names in a file system are names, and each stands once
  in its directory.
-/

namespace TemplateBindings
namespace Files

/-- **A name** that a member of a directory can have. -/
def IsName (name : Str) : Prop :=
  name ≠ [] ∧ name ≠ stay ∧ name ≠ back ∧ slash ∉ name ∧ null ∉ name

instance (name : Str) : Decidable (IsName name) := inferInstanceAs (Decidable (_ ∧ _))

/-- A path made of names. -/
def Path.Proper (path : Path) : Prop := ∀ name ∈ path, IsName name

instance (path : Path) : Decidable path.Proper := inferInstanceAs (Decidable (∀ _ ∈ _, _))

/-- **What is seen of an entry** from outside. -/
inductive Sight where
  /-- A file, all of it. -/
  | file (bytes : List UInt8) (modified : Int)
  /-- A link, with its text. -/
  | link (target : Str)
  /-- A directory, whatever is in it. -/
  | directory
  deriving DecidableEq, Repr

namespace Entry

variable {root entry : Entry} {way other rest : List Str} {name : Str}

/-! ### Seeing -/

/-- What is seen of this entry. -/
def sight : Entry → Sight
  | file bytes modified => .file bytes modified
  | link target => .link target
  | directory _ => .directory

/-- **What is seen at the end of a way.** -/
def see? (entry : Entry) (way : List Str) : Option Sight := (entry.at? way).map sight

@[simp] theorem see?_nil (entry : Entry) : entry.see? [] = some entry.sight := rfl

theorem see?_directory_cons (members : List (Str × Entry)) (name : Str) (way : List Str) :
    (directory members).see? (name :: way) = (members.lookup name).bind (·.see? way) := by
  rw [see?, at?_cons, member?]
  cases members.lookup name <;> rfl

theorem see?_file_cons (bytes : List UInt8) (modified : Int) (name : Str) (way : List Str) :
    (file bytes modified).see? (name :: way) = none := rfl

theorem see?_link_cons (target name : Str) (way : List Str) :
    (link target).see? (name :: way) = none := rfl

/-- A way may be looked along in two parts. -/
theorem see?_append (root : Entry) (way rest : List Str) :
    root.see? (way ++ rest) = (root.at? way).bind (·.see? rest) := by
  rw [see?, at?_append]
  cases root.at? way <;> rfl

theorem see?_append_of_at? (h : root.at? way = some entry) (rest : List Str) :
    root.see? (way ++ rest) = entry.see? rest := by
  rw [see?_append, h, Option.bind_some]

theorem at?_concat {members : List (Str × Entry)}
    (hat : root.at? way = some (directory members)) (name : Str) :
    root.at? (way ++ [name]) = members.lookup name := by
  rw [at?_append, hat, Option.bind_some, at?_cons, member?]
  cases members.lookup name <;> rfl

/-- One name further down a way that is given from its end. -/
theorem at?_reverse_cons {wayRev : List Str} {members : List (Str × Entry)}
    (hat : root.at? wayRev.reverse = some (directory members)) (name : Str) :
    root.at? (name :: wayRev).reverse = members.lookup name := by
  rw [List.reverse_cons, at?_concat hat]

theorem see?_eq_some_directory :
    root.see? way = some .directory ↔ ∃ members, root.at? way = some (directory members) := by
  rw [see?]
  constructor
  · intro h
    obtain ⟨entry, hat, hs⟩ := Option.map_eq_some_iff.1 h
    cases entry with
    | directory members => exact ⟨members, hat⟩
    | file bytes modified => cases hs
    | link target => cases hs
  · rintro ⟨members, hat⟩
    rw [hat]
    rfl

theorem see?_eq_some_file {bytes : List UInt8} {modified : Int} :
    root.see? way = some (.file bytes modified) ↔
      root.at? way = some (file bytes modified) := by
  rw [see?]
  constructor
  · intro h
    obtain ⟨entry, hat, hs⟩ := Option.map_eq_some_iff.1 h
    cases entry with
    | file b m =>
      cases hs
      exact hat
    | directory members => cases hs
    | link target => cases hs
  · intro hat
    rw [hat]
    rfl

theorem see?_eq_some_link {target : Str} :
    root.see? way = some (.link target) ↔ root.at? way = some (link target) := by
  rw [see?]
  constructor
  · intro h
    obtain ⟨entry, hat, hs⟩ := Option.map_eq_some_iff.1 h
    cases entry with
    | link t =>
      cases hs
      exact hat
    | file b m => cases hs
    | directory members => cases hs
  · intro hat
    rw [hat]
    rfl

theorem see?_eq_none : root.see? way = none ↔ root.at? way = none := by
  rw [see?, Option.map_eq_none_iff]

/-- **Only directories have something below them.** -/
theorem see?_directory_of_below (hr : rest ≠ []) (h : root.see? (way ++ rest) ≠ none) :
    root.see? way = some .directory := by
  rw [see?_append] at h
  cases hat : root.at? way with
  | none =>
    rw [hat] at h
    exact absurd rfl h
  | some entry =>
    rw [hat, Option.bind_some] at h
    obtain ⟨name, rest, rfl⟩ := List.exists_cons_of_ne_nil hr
    cases entry with
    | directory members => exact see?_eq_some_directory.2 ⟨members, hat⟩
    | file bytes modified => exact absurd (see?_file_cons ..) h
    | link target => exact absurd (see?_link_cons ..) h

theorem see?_directory_of_prefix (hp : way <+: other) (hne : way ≠ other)
    (h : root.see? other ≠ none) : root.see? way = some .directory := by
  obtain ⟨rest, rfl⟩ := hp
  refine see?_directory_of_below (fun hr => hne ?_) h
  rw [hr, List.append_nil]

/-- Below something that is no directory there is nothing. -/
theorem see?_below_none (h : root.see? way ≠ some .directory) (hr : rest ≠ []) :
    root.see? (way ++ rest) = none := by
  by_contra hne
  exact h (see?_directory_of_below hr hne)

/-- Above a directory there are directories. -/
theorem see?_directory_of_prefix_directory (hp : way <+: other)
    (h : root.see? other = some .directory) : root.see? way = some .directory := by
  rcases eq_or_ne way other with rfl | hne
  · exact h
  · exact see?_directory_of_prefix hp hne (by simp [h])

/-! ### Where something is seen -/

mutual

/-- **The ways** at whose ends something is seen. -/
def ways : Entry → List (List Str)
  | directory members => [] :: waysAmong members
  | _ => [[]]

/-- Those into the members of a directory. -/
def waysAmong : List (Str × Entry) → List (List Str)
  | [] => []
  | (name, entry) :: rest => (ways entry).map (name :: ·) ++ waysAmong rest

end

mutual

theorem mem_ways : (entry : Entry) → (way : List Str) → entry.see? way ≠ none →
    way ∈ entry.ways
  | directory members, [], _ => by simp [ways]
  | directory members, name :: way, h => by
    rw [see?_directory_cons] at h
    rw [ways]
    exact List.mem_cons_of_mem _ (mem_waysAmong members name way h)
  | file .., [], _ => by simp [ways]
  | file .., name :: way, h => absurd (see?_file_cons ..) h
  | link .., [], _ => by simp [ways]
  | link .., name :: way, h => absurd (see?_link_cons ..) h

theorem mem_waysAmong : (members : List (Str × Entry)) → (name : Str) → (way : List Str) →
    (members.lookup name).bind (·.see? way) ≠ none → name :: way ∈ waysAmong members
  | [], name, way, h => absurd rfl h
  | (other, entry) :: rest, name, way, h => by
    rw [waysAmong, List.mem_append, List.mem_map]
    rw [List.lookup_cons] at h
    split at h
    · next he =>
      rw [eq_of_beq he]
      exact .inl ⟨way, mem_ways entry way h, rfl⟩
    · exact .inr (mem_waysAmong rest name way h)

end

/-- What holds wherever something is seen can be looked through. -/
theorem forall_seen_iff {p : List Str → Prop} :
    (∀ way, root.see? way ≠ none → p way) ↔ ∀ way ∈ root.ways, root.see? way ≠ none → p way :=
  ⟨fun h way _ => h way, fun h way hs => h way (mem_ways root way hs) hs⟩

instance (root : Entry) (p : List Str → Prop) [DecidablePred p] :
    Decidable (∀ way, root.see? way ≠ none → p way) :=
  decidable_of_iff _ forall_seen_iff.symm

/-! ### Putting -/

/-- **Putting an entry into a directory** is seen where it is put and below, and nowhere else. -/
theorem see?_put {members : List (Str × Entry)} (h : root.at? way = some (directory members))
    (new : Option Entry) (other : List Str) :
    (root.put new (way ++ [name])).see? other =
      if way ++ [name] <+: other then new.bind (·.see? (other.drop (way.length + 1)))
      else root.see? other := by
  induction way generalizing root other with
  | nil =>
    cases Option.some.inj h
    rw [List.nil_append, put]
    rcases other with _ | ⟨step, other⟩
    · simp [sight]
    · rw [see?_directory_cons, see?_directory_cons]
      by_cases hs : step = name
      · subst hs
        simp
      · have hp : ¬ [name] <+: step :: other := fun hp => hs (List.cons_prefix_cons.1 hp).1.symm
        rw [if_neg hp, lookup_putMember_of_ne hs]
  | cons first way ih =>
    cases root with
    | file bytes modified => cases h
    | link target => cases h
    | directory rootMembers =>
      rw [at?_cons, member?] at h
      obtain ⟨next, hnext, hat⟩ := Option.bind_eq_some_iff.1 h
      rw [List.cons_append, put_of_ne_nil (by simp), hnext]
      rcases other with _ | ⟨step, other⟩
      · simp [sight]
      · rw [see?_directory_cons, see?_directory_cons]
        by_cases hs : step = first
        · subst hs
          rw [lookup_putMember_self, Option.bind_some, hnext, Option.bind_some, ih hat]
          simp
        · have hp : ¬ first :: (way ++ [name]) <+: step :: other :=
            fun hp => hs (List.cons_prefix_cons.1 hp).1.symm
          rw [if_neg hp, lookup_putMember_of_ne hs]

/-- **An entry with nothing below it, put where there is nothing below**, changes what is seen in
one place. -/
theorem see?_put_update {members : List (Str × Entry)}
    (h : root.at? way = some (directory members)) (new : Option Entry)
    (hnew : ∀ entry ∈ new, ∀ rest ≠ [], entry.see? rest = none)
    (hold : ∀ rest ≠ [], root.see? (way ++ [name] ++ rest) = none) :
    (root.put new (way ++ [name])).see? =
      Function.update root.see? (way ++ [name]) (new.map sight) := by
  funext other
  rw [see?_put h]
  by_cases he : other = way ++ [name]
  · subst he
    rw [if_pos List.prefix_rfl, Function.update_self,
      List.drop_of_length_le (by simp)]
    cases new <;> rfl
  · rw [Function.update_of_ne he]
    split
    · next hp =>
      obtain ⟨rest, rfl⟩ := hp
      have hr : rest ≠ [] := fun hr => he (by rw [hr, List.append_nil])
      have hdrop : (way ++ [name] ++ rest).drop (way.length + 1) = rest :=
        List.drop_left' (by simp)
      rw [hold rest hr, hdrop]
      cases new with
      | none => rfl
      | some entry => exact hnew entry rfl rest hr
    · rfl

/-- **A file system without one of its entries**: nothing else is missing from it. -/
theorem see?_put_none (root : Entry) (way : List Str) (name : Str) (other : List Str) :
    (root.put none (way ++ [name])).see? other =
      if way ++ [name] <+: other then none else root.see? other := by
  induction way generalizing root other with
  | nil =>
    cases root with
    | file bytes modified =>
      rcases other with _ | ⟨step, other⟩
      · simp [put]
      · simp [put, see?_file_cons]
    | link target =>
      rcases other with _ | ⟨step, other⟩
      · simp [put]
      · simp [put, see?_link_cons]
    | directory members =>
      have hroot : (directory members).at? [] = some (directory members) := rfl
      simpa using see?_put hroot none other
  | cons first way ih =>
    cases root with
    | file bytes modified =>
      rcases other with _ | ⟨step, other⟩
      · simp [put]
      · simp [put, see?_file_cons]
    | link target =>
      rcases other with _ | ⟨step, other⟩
      · simp [put]
      · simp [put, see?_link_cons]
    | directory members =>
      rw [List.cons_append, put_of_ne_nil (by simp)]
      rcases other with _ | ⟨step, other⟩
      · cases members.lookup first <;> simp [sight]
      · cases hl : members.lookup first with
        | none =>
          dsimp only
          split
          · next hp =>
            rw [see?_directory_cons, ← (List.cons_prefix_cons.1 hp).1, hl]
            rfl
          · rfl
        | some next =>
          dsimp only
          rw [see?_directory_cons, see?_directory_cons]
          by_cases hs : step = first
          · subst hs
            rw [lookup_putMember_self, Option.bind_some, hl, Option.bind_some, ih]
            simp
          · have hp : ¬ first :: (way ++ [name]) <+: step :: other :=
              fun hp => hs (List.cons_prefix_cons.1 hp).1.symm
            rw [if_neg hp, lookup_putMember_of_ne hs]

/-! ### Valid file systems -/

mutual

/-- **What a file system promises**: members have names, each its own in its directory, and no link
holds the character that no name may hold. -/
def Valid : Entry → Prop
  | directory members => (members.map Prod.fst).Nodup ∧ ValidMembers members
  | link target => null ∉ target
  | file _ _ => True

/-- The same below each of some members. -/
def ValidMembers : List (Str × Entry) → Prop
  | [] => True
  | (name, entry) :: rest => IsName name ∧ entry.Valid ∧ ValidMembers rest

end

mutual

/-- Whether a file system is valid can be found out. -/
def decidableValid : (entry : Entry) → Decidable entry.Valid
  | directory members =>
    have := decidableValidMembers members
    inferInstanceAs (Decidable (_ ∧ ValidMembers members))
  | link target => inferInstanceAs (Decidable (null ∉ target))
  | file _ _ => .isTrue trivial

/-- The same below each of some members. -/
def decidableValidMembers : (members : List (Str × Entry)) → Decidable (ValidMembers members)
  | [] => .isTrue trivial
  | (name, entry) :: rest =>
    have := decidableValid entry
    have := decidableValidMembers rest
    inferInstanceAs (Decidable (IsName name ∧ entry.Valid ∧ ValidMembers rest))

end

instance (entry : Entry) : Decidable entry.Valid := decidableValid entry

theorem validMembers_iff {members : List (Str × Entry)} :
    ValidMembers members ↔ ∀ m ∈ members, IsName m.1 ∧ m.2.Valid := by
  induction members with
  | nil => simp [ValidMembers]
  | cons m members ih => simp [ValidMembers, ih, and_assoc]

theorem valid_directory {members : List (Str × Entry)} :
    (directory members).Valid ↔
      (members.map Prod.fst).Nodup ∧ ∀ m ∈ members, IsName m.1 ∧ m.2.Valid := by
  rw [Valid, validMembers_iff]

/-- A member that is looked up is a member. -/
theorem mem_of_lookup {members : List (Str × Entry)} {next : Entry}
    (h : members.lookup name = some next) : (name, next) ∈ members := by
  induction members with
  | nil => cases h
  | cons m members ih =>
    rw [List.lookup_cons] at h
    split at h
    · next he =>
      rw [beq_iff_eq] at he
      cases Option.some.inj h
      rw [he]
      exact List.mem_cons_self
    · exact List.mem_cons_of_mem _ (ih h)

/-- Where names are distinct, every member is looked up under its name. -/
theorem lookup_of_mem {members : List (Str × Entry)} {next : Entry}
    (hn : (members.map Prod.fst).Nodup) (h : (name, next) ∈ members) :
    members.lookup name = some next := by
  induction members with
  | nil => cases h
  | cons m members ih =>
    rw [List.map_cons, List.nodup_cons] at hn
    rcases List.mem_cons.1 h with rfl | h
    · simp
    · have hne : name ≠ m.1 := fun he => hn.1 (List.mem_map.2 ⟨_, h, he⟩)
      have hb : (name == m.1) = false := by simpa using hne
      rw [List.lookup_cons, hb]
      exact ih hn.2 h

theorem Valid.at? (hv : root.Valid) (h : root.at? way = some entry) : entry.Valid := by
  induction way generalizing root with
  | nil =>
    cases Option.some.inj h
    exact hv
  | cons name way ih =>
    cases root with
    | file bytes modified => cases h
    | link target => cases h
    | directory members =>
      rw [at?_cons, member?] at h
      obtain ⟨next, hnext, hat⟩ := Option.bind_eq_some_iff.1 h
      exact ih ((valid_directory.1 hv).2 _ (mem_of_lookup hnext)).2 hat

/-- The way to anything in a valid file system is made of names. -/
theorem Valid.proper (hv : root.Valid) (h : root.see? way ≠ none) : Path.Proper way := by
  induction way generalizing root with
  | nil => exact fun _ hm => absurd hm List.not_mem_nil
  | cons name way ih =>
    cases root with
    | file bytes modified => exact absurd (see?_file_cons ..) h
    | link target => exact absurd (see?_link_cons ..) h
    | directory members =>
      rw [see?_directory_cons] at h
      cases hnext : members.lookup name with
      | none =>
        rw [hnext] at h
        exact absurd rfl h
      | some next =>
        rw [hnext, Option.bind_some] at h
        obtain ⟨hname, hnextv⟩ := (valid_directory.1 hv).2 _ (mem_of_lookup hnext)
        intro n hn
        rcases List.mem_cons.1 hn with rfl | hn
        · exact hname
        · exact ih hnextv h n hn

theorem nodup_putMember {members : List (Str × Entry)} (hn : (members.map Prod.fst).Nodup)
    (name : Str) (new : Option Entry) : ((putMember name new members).map Prod.fst).Nodup := by
  have hsub : ((members.filter (·.1 != name)).map Prod.fst).Nodup :=
    hn.sublist (List.filter_sublist.map _)
  cases new with
  | none => simpa [putMember] using hsub
  | some entry =>
    simp only [putMember, Option.map_some, Option.toList_some, List.singleton_append,
      List.map_cons, List.nodup_cons]
    refine ⟨fun hm => ?_, hsub⟩
    obtain ⟨m, hm, he⟩ := List.mem_map.1 hm
    have hne := (List.mem_filter.1 hm).2
    simp [he] at hne

theorem mem_putMember {members : List (Str × Entry)} {new : Option Entry} {m : Str × Entry}
    (h : m ∈ putMember name new members) : m ∈ members ∨ m.1 = name ∧ new = some m.2 := by
  rcases List.mem_append.1 h with h | h
  · cases new with
    | none => cases h
    | some entry =>
      cases List.mem_singleton.1 h
      exact .inr ⟨rfl, rfl⟩
  · exact .inl (List.mem_filter.1 h).1

/-- Putting a valid entry under a name keeps a file system valid. -/
theorem Valid.put (hv : root.Valid) (hp : Path.Proper way) {new : Option Entry}
    (hnew : ∀ entry ∈ new, entry.Valid) : (root.put new way).Valid := by
  induction way generalizing root with
  | nil =>
    cases new with
    | none => exact hv
    | some entry => exact hnew entry rfl
  | cons name way ih =>
    have hname : IsName name := hp name List.mem_cons_self
    have hway : Path.Proper way := fun n hn => hp n (List.mem_cons_of_mem _ hn)
    cases root with
    | file bytes modified => cases way <;> exact hv
    | link target => cases way <;> exact hv
    | directory members =>
      obtain ⟨hnd, hmem⟩ := valid_directory.1 hv
      -- what is put under a name in a directory, be it at the end of the way or on it
      have step (new : Option Entry) (hnew : ∀ entry ∈ new, entry.Valid) :
          (directory (putMember name new members)).Valid := by
        refine valid_directory.2 ⟨nodup_putMember hnd name new, fun m hm => ?_⟩
        rcases mem_putMember hm with hm | ⟨he, hn⟩
        · exact hmem m hm
        · exact ⟨he ▸ hname, hnew _ (by simp [hn])⟩
      rcases way with _ | ⟨w, way⟩
      · exact step new hnew
      · rw [put_of_ne_nil (by simp)]
        cases hl : members.lookup name with
        | none => exact hv
        | some next =>
          refine step _ fun entry he => ?_
          cases Option.some.inj he
          exact ih (hmem _ (mem_of_lookup hl)).2 hway

end Entry
end Files
end TemplateBindings
