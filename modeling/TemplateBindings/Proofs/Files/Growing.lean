import TemplateBindings.Files.Operation
import TemplateBindings.Proofs.Files.Walks
import TemplateBindings.Proofs.Text.Utf8

/-!
# Walks in file systems that grow

A walk asks of a file only that it is one. So a walk that ended well ends at the same place after
files were written, and where it ended at a place for a new file, and one is there now, it ends at
that file (`TemplateBindings.Files.locate_of_covers`), whatever links the path goes through. And where
a path leads anywhere, the path above it leads to a directory
(`TemplateBindings.Files.locate_parent`).
-/

namespace TemplateBindings
namespace Files

variable {small big root here here' entry : Entry} {goal goal' : Goal} {links : Nat}
  {wayRev way names : List Str} {path : Path} {name last : Str} {spot : Spot}
  {bytes : List UInt8} {time : Int}

/-! ### Larger file systems -/

/-- What is seen of an entry without what is in it: of a file, only that it is one. -/
def Sight.shape : Sight → Sight
  | .file _ _ => .file [] 0
  | sight => sight

/-- **One file system covers another**: whatever is seen in the other is seen in it, files with what
they may hold there. -/
def Entry.Covers (big small : Entry) : Prop :=
  ∀ way sight, small.see? way = some sight →
    ∃ sight', big.see? way = some sight' ∧ sight'.shape = sight.shape

/-- The way to the end of a walk, or to the place for a new file there. -/
def Spot.place : Spot → Path
  | .found way _ => way
  | .vacant directory name => directory ++ [name]

namespace Entry

theorem Covers.at? (h : big.Covers small) (hat : small.at? way = some entry) :
    ∃ entry', big.at? way = some entry' ∧ entry'.sight.shape = entry.sight.shape := by
  obtain ⟨sight, hs, hshape⟩ := h way entry.sight (by rw [see?, hat, Option.map_some])
  obtain ⟨entry', hat', rfl⟩ := Option.map_eq_some_iff.1 hs
  exact ⟨entry', hat', hshape⟩

/-- What covers a directory is a directory. -/
theorem exists_directory_of_shape {members : List (Str × Entry)}
    (h : entry.sight.shape = (directory members).sight.shape) :
    ∃ members', entry = directory members' := by
  cases entry with
  | directory members' => exact ⟨members', rfl⟩
  | file _ _ | link _ => cases h

/-- What covers a link is the same link. -/
theorem eq_link_of_shape {target : Str} (h : entry.sight.shape = (link target).sight.shape) :
    entry = link target := by
  cases entry with
  | link text =>
    cases h
    rfl
  | file _ _ | directory _ => cases h

theorem Covers.directory {members : List (Str × Entry)} (h : big.Covers small)
    (hat : small.at? way = some (.directory members)) (hat' : big.at? way = some here') :
    ∃ members', here' = .directory members' := by
  obtain ⟨entry', he, hshape⟩ := h.at? hat
  cases hat'.symm.trans he
  exact exists_directory_of_shape hshape

/-- What a directory has under a name, the same directory has in a larger file system. -/
theorem Covers.lookup {members members' : List (Str × Entry)} (h : big.Covers small)
    (hat : small.at? way = some (.directory members))
    (hat' : big.at? way = some (.directory members')) (hl : members.lookup name = some entry) :
    small.at? (way ++ [name]) = some entry ∧
      ∃ entry', members'.lookup name = some entry' ∧ entry'.sight.shape = entry.sight.shape ∧
        big.at? (way ++ [name]) = some entry' := by
  have hsmall := (at?_concat hat name).trans hl
  obtain ⟨entry', hbig, hs⟩ := h.at? hsmall
  exact ⟨hsmall, entry', (at?_concat hat' name).symm.trans hbig, hs, hbig⟩

end Entry

/-! ### Walking in a larger file system -/

/-- A walk that ends well ends at the same place in a larger file system, if what follows its links
does. Where it ends at a place for a new file, there may be anything but a link now. -/
theorem walkWith_of_covers
    {follow follow' : List Str → Entry → List Str → Except Cause Spot} (hgoal : goal ≠ .entry)
    (h : big.Covers small)
    (hnew : ∀ target, big.see? spot.place = some (.link target) → small.see? spot.place ≠ none)
    (hfollow : ∀ wayRev {here here' names}, small.at? wayRev.reverse = some here →
      big.at? wayRev.reverse = some here' → follow wayRev here names = .ok spot →
      ∃ spot', follow' wayRev here' names = .ok spot' ∧ spot'.place = spot.place)
    (hat : small.at? wayRev.reverse = some here) (hat' : big.at? wayRev.reverse = some here')
    (hw : walkWith small goal follow wayRev here names = .ok spot) :
    ∃ spot', walkWith big goal follow' wayRev here' names = .ok spot' ∧ spot'.place = spot.place := by
  fun_induction walkWith small goal follow wayRev here names generalizing here' with
  | case1 wayRev here =>
    cases hw
    exact ⟨.found wayRev.reverse here', by rw [walkWith], rfl⟩
  | case2 wayRev members name rest hskip ih =>
    obtain ⟨members', rfl⟩ := h.directory hat hat'
    obtain ⟨spot', he, hs⟩ := ih hat hat' hw
    exact ⟨spot', by rw [walkWith, if_pos hskip, he], hs⟩
  | case3 wayRev members rest above hback hskip ih =>
    obtain ⟨members', rfl⟩ := h.directory hat hat'
    obtain ⟨above', habove', -⟩ := h.at? hback
    obtain ⟨spot', he, hs⟩ := ih hback habove' hw
    exact ⟨spot', by rw [walkWith, if_neg hskip, if_pos rfl, habove']; exact he, hs⟩
  | case4 => cases hw
  | case5 => cases hw
  | case6 => cases hw
  | case7 wayRev members name rest hskip hback hfile hlen hl hrest =>
    cases hw
    obtain ⟨members', rfl⟩ := h.directory hat hat'
    have hsmall : small.see? (wayRev.reverse ++ [name]) = none := by
      rw [Entry.see?_eq_none, Entry.at?_concat hat, hl]
    rw [walkWith_name ⟨hskip, hback, hfile⟩, if_neg hlen, List.isEmpty_iff.1 hrest]
    have hreached (e : Entry) : (Spot.found (name :: wayRev).reverse e).place =
        (Spot.vacant wayRev.reverse name).place :=
      List.reverse_cons
    rcases hl' : members'.lookup name with _ | ⟨bytes, time⟩ | target | below
    · exact ⟨_, rfl, rfl⟩
    · exact ⟨_, by dsimp only; rw [walkWith], hreached _⟩
    · refine absurd hsmall (hnew target ?_)
      rw [Spot.place, Entry.see?_eq_some_link, Entry.at?_concat hat', hl']
    · exact ⟨_, by dsimp only; rw [walkWith], hreached _⟩
  | case8 => cases hw
  | case9 _ _ _ _ _ _ _ _ _ _ hentry => simp [hgoal] at hentry
  | case10 wayRev members name rest hskip hback hfile hlen target hl hentry habs =>
    obtain ⟨members', rfl⟩ := h.directory hat hat'
    obtain ⟨-, e, he, hs, -⟩ := h.lookup hat hat' hl
    cases Entry.eq_link_of_shape hs
    obtain ⟨spot', he', hs'⟩ := hfollow [] rfl rfl hw
    refine ⟨spot', ?_, hs'⟩
    rw [walkWith_link ⟨hskip, hback, hfile⟩ hlen he hentry, if_pos habs, he']
  | case11 wayRev members name rest hskip hback hfile hlen target hl hentry habs =>
    obtain ⟨members', rfl⟩ := h.directory hat hat'
    obtain ⟨-, e, he, hs, -⟩ := h.lookup hat hat' hl
    cases Entry.eq_link_of_shape hs
    obtain ⟨spot', he', hs'⟩ := hfollow wayRev hat hat' hw
    refine ⟨spot', ?_, hs'⟩
    rw [walkWith_link ⟨hskip, hback, hfile⟩ hlen he hentry, if_neg habs, he']
  | case12 wayRev members name rest hskip hback hfile hlen next hlink hl ih =>
    obtain ⟨members', rfl⟩ := h.directory hat hat'
    obtain ⟨hsmall, e, he, hs, hbig⟩ := h.lookup hat hat' hl
    have hrev : (name :: wayRev).reverse = wayRev.reverse ++ [name] := List.reverse_cons
    obtain ⟨spot', he', hs'⟩ := ih (hrev ▸ hsmall) (hrev ▸ hbig) hw
    refine ⟨spot', ?_, hs'⟩
    rw [walkWith_member ⟨hskip, hback, hfile⟩ hlen he, he']
    rintro target rfl
    exact hlink target (Entry.eq_link_of_shape hs.symm)
  | case13 => cases hw

/-- **A walk that ends well** ends at the same place in every file system that covers what it saw. -/
theorem walk_of_covers (hgoal : goal ≠ .entry) (h : big.Covers small)
    (hnew : ∀ target, big.see? spot.place = some (.link target) → small.see? spot.place ≠ none)
    (hat : small.at? wayRev.reverse = some here) (hat' : big.at? wayRev.reverse = some here')
    (hw : walk small goal links wayRev here names = .ok spot) :
    ∃ spot', walk big goal links wayRev here' names = .ok spot' ∧ spot'.place = spot.place := by
  induction links generalizing wayRev here here' names with
  | zero =>
    rw [walk_zero] at hw ⊢
    exact walkWith_of_covers hgoal h hnew (fun _ _ _ _ _ _ he => by cases he) hat hat' hw
  | succ links ih =>
    rw [walk_succ] at hw ⊢
    exact walkWith_of_covers hgoal h hnew (fun _ _ _ _ hat hat' he => ih hat hat' he) hat hat' hw

/-- What stands at the place of a walk's end is what it found. -/
theorem Spot.Stands.eq_found (h : spot.Stands root) (hat : root.at? spot.place = some entry) :
    spot = .found spot.place entry := by
  cases spot with
  | found way e =>
    cases hat.symm.trans h
    rfl
  | vacant directory name =>
    have hnone := Entry.see?_eq_none.1 h.2
    cases hnone.symm.trans hat

/-- **A path leads to what stands at its place now**, in every file system that covers the one in
which it led there. -/
theorem locate_of_covers (hgoal : goal ≠ .entry) (h : big.Covers small)
    (hl : locate small goal path = .ok spot) (hat : big.at? spot.place = some entry)
    (hlink : ∀ target, entry ≠ .link target) :
    locate big goal path = .ok (.found spot.place entry) := by
  have hnew (target : Str) (hs : big.see? spot.place = some (.link target)) :
      small.see? spot.place ≠ none := by
    rw [Entry.see?_eq_some_link, hat] at hs
    exact absurd (Option.some.inj hs) (hlink target)
  rw [locate] at hl ⊢
  split at hl
  · cases hl
  · split at hl
    · cases hl
    · next hnull hlen =>
      obtain ⟨spot', he, hs⟩ := walk_of_covers hgoal h hnew rfl rfl hl
      have hfound := (walk_stands rfl he).eq_found (by rw [hs, hat])
      rw [hs] at hfound
      rw [if_neg hnull, if_neg hlen, he, hfound]

/-! ### Written files -/

/-- **A file can be written at the end of a walk**: one that holds these bytes, or a new one. -/
inductive Spot.Writable : Spot → (before : List UInt8) → Prop
  /-- There is a file. -/
  | file (way : Path) (bytes : List UInt8) (time : Int) :
    Writable (.found way (.file bytes time)) bytes
  /-- There is a place for one. -/
  | vacant (directory : Path) (name : Str) : Writable (.vacant directory name) []

theorem writeWith_of_writable {before : List UInt8} {now : Int} (h : spot.Writable before)
    (hl : locate root .file path = .ok spot) (change : List UInt8 → List UInt8) :
    writeWith now root path change =
      .ok (root.put (some (.file (change before) now)) spot.place) := by
  rw [writeWith, hl]
  cases h with
  | file way bytes time | vacant directory name => rfl

/-- Where a file can be written, there is one, or nothing in a directory. -/
theorem Spot.Writable.at_place {before : List UInt8} (h : spot.Writable before)
    (hstands : spot.Stands root) :
    (∃ time, root.see? spot.place = some (.file before time)) ∨
      root.see? spot.place = none ∧ spot.place ≠ [] ∧
        root.see? spot.place.dropLast = some .directory := by
  cases h with
  | file way bytes time => exact .inl ⟨time, Entry.see?_eq_some_file.2 hstands⟩
  | vacant directory name =>
    refine .inr ⟨hstands.2, by simp [place], ?_⟩
    rw [place, List.dropLast_concat]
    exact hstands.1

/-- **A file that was written** is seen where it was written, and nothing else has changed. -/
theorem see?_put_file {before : List UInt8} (h : spot.Writable before) (hstands : spot.Stands root)
    (bytes : List UInt8) (time : Int) :
    (root.put (some (.file bytes time)) spot.place).see? =
      Function.update root.see? spot.place (some (.file bytes time)) := by
  have hplace := h.at_place hstands
  have hbelow : ∀ rest ≠ [], root.see? (spot.place ++ rest) = none := fun rest hrest => by
    refine Entry.see?_below_none ?_ hrest
    rcases hplace with ⟨time, hs⟩ | ⟨hs, -⟩ <;> rw [hs] <;> simp
  have hnew : ∀ entry ∈ some (Entry.file bytes time), ∀ rest ≠ [], entry.see? rest = none := by
    rintro entry he rest hrest
    cases he
    have hfile : (Entry.file bytes time).see? [] ≠ some .directory := by simp [Entry.sight]
    exact Entry.see?_below_none hfile hrest
  obtain ⟨place, hp⟩ : ∃ place, spot.place = place := ⟨_, rfl⟩
  rw [hp] at hplace hbelow ⊢
  rcases List.eq_nil_or_concat place with rfl | ⟨directory, name, rfl⟩
  · funext other
    rcases eq_or_ne other [] with rfl | hne
    · rfl
    · rw [Function.update_of_ne hne]
      exact (hnew _ rfl other hne).trans (hbelow other hne).symm
  · rw [List.concat_eq_append] at hplace hbelow ⊢
    have hdir : root.see? directory = some .directory := by
      rcases hplace with ⟨time, hs⟩ | ⟨-, -, hs⟩
      · exact Entry.see?_directory_of_below (List.cons_ne_nil name []) (by simp [hs])
      · rwa [List.dropLast_concat] at hs
    obtain ⟨members, hat⟩ := Entry.see?_eq_some_directory.1 hdir
    exact Entry.see?_put_update hat _ hnew hbelow

/-- A file system after a file was written covers the one before. -/
theorem covers_put_file {before : List UInt8} (h : spot.Writable before)
    (hstands : spot.Stands root) (bytes : List UInt8) (time : Int) :
    (root.put (some (.file bytes time)) spot.place).Covers root := by
  intro way sight hs
  rw [see?_put_file h hstands]
  rcases eq_or_ne way spot.place with rfl | hne
  · refine ⟨_, Function.update_self .., ?_⟩
    rcases h.at_place hstands with ⟨time, hold⟩ | ⟨hold, -⟩
    · cases hs.symm.trans hold
      rfl
    · cases hs.symm.trans hold
  · exact ⟨sight, by rw [Function.update_of_ne hne, hs], rfl⟩

/-- **A path that leads to a place for a file** leads to the file once it was written. -/
theorem locate_put_file {before : List UInt8} (h : spot.Writable before)
    (hl : locate root .file path = .ok spot) (bytes : List UInt8) (time : Int) :
    locate (root.put (some (.file bytes time)) spot.place) .file path =
      .ok (.found spot.place (.file bytes time)) := by
  have hstands := stands_of_locate hl
  refine locate_of_covers (by simp) (covers_put_file h hstands bytes time) hl ?_ (by simp)
  rw [← Entry.see?_eq_some_file, see?_put_file h hstands, Function.update_self]

/-! ### Where else a path leads -/

/-- What is found for writing is found for reading. -/
theorem walkWith_target_of_file
    {follow follow' : List Str → Entry → List Str → Except Cause Spot}
    (hfollow : ∀ wayRev here names, follow wayRev here names = .ok spot →
      follow' wayRev here names = .ok spot)
    (hw : walkWith root .file follow wayRev here names = .ok spot) :
    walkWith root .target follow' wayRev here names = .ok spot := by
  fun_induction walkWith root .file follow wayRev here names with
  | case1 wayRev here =>
    rw [walkWith]
    exact hw
  | case2 wayRev members name rest hskip ih => rw [walkWith, if_pos hskip, ih hw]
  | case3 wayRev members rest above hback hskip ih =>
    rw [walkWith, if_neg hskip, if_pos rfl, hback]
    exact ih hw
  | case4 => cases hw
  | case5 => cases hw
  | case6 => cases hw
  | case7 wayRev members name rest hskip hback hfile hlen hl hrest =>
    rw [walkWith_name ⟨hskip, hback, by simp⟩, if_neg hlen, hl]
    dsimp only
    rw [if_pos hrest, hw]
  | case8 => cases hw
  | case9 _ _ _ _ _ _ _ _ _ _ hentry => simp at hentry
  | case10 wayRev members name rest hskip hback hfile hlen target hl hentry habs =>
    rw [walkWith_link ⟨hskip, hback, by simp⟩ hlen hl (by simp), if_pos habs, hfollow _ _ _ hw]
  | case11 wayRev members name rest hskip hback hfile hlen target hl hentry habs =>
    rw [walkWith_link ⟨hskip, hback, by simp⟩ hlen hl (by simp), if_neg habs, hfollow _ _ _ hw]
  | case12 wayRev members name rest hskip hback hfile hlen next hlink hl ih =>
    rw [walkWith_member ⟨hskip, hback, by simp⟩ hlen hl hlink, ih hw]
  | case13 => cases hw

theorem walk_target_of_file (hw : walk root .file links wayRev here names = .ok spot) :
    walk root .target links wayRev here names = .ok spot := by
  induction links generalizing wayRev here names with
  | zero =>
    rw [walk_zero] at hw ⊢
    exact walkWith_target_of_file (fun _ _ _ he => by cases he) hw
  | succ links ih =>
    rw [walk_succ] at hw ⊢
    exact walkWith_target_of_file (fun _ _ _ he => ih he) hw

/-- **What is found for writing is found for reading.** -/
theorem locate_target_of_file (hl : locate root .file path = .ok spot) :
    locate root .target path = .ok spot := by
  rw [locate] at hl ⊢
  split at hl
  · cases hl
  · split at hl
    · cases hl
    · next hnull hlen => rw [if_neg hnull, if_neg hlen, walk_target_of_file hl]

/-- The names in front of the last one lead to a directory, or to a link that is to be found as such.
-/
theorem walkWith_parent {follow follow' : List Str → Entry → List Str → Except Cause Spot}
    (hgoal : goal ≠ .file)
    (hfollow : ∀ wayRev here names, follow wayRev here (names ++ [last]) = .ok spot →
      ∃ way entry, follow' wayRev here names = .ok (.found way entry) ∧
        (goal = .target → entry.isDirectory = true))
    (hw : walkWith root .target follow wayRev here (names ++ [last]) = .ok spot) :
    ∃ way entry, walkWith root goal follow' wayRev here names = .ok (.found way entry) ∧
      (goal = .target → entry.isDirectory = true) := by
  obtain ⟨all, hall⟩ : ∃ all, names ++ [last] = all := ⟨_, rfl⟩
  rw [hall] at hw
  have hdown {name : Str} {rest : List Str} (hskip : ¬ (name.isEmpty || name = stay) = true)
      (hback : ¬ name = back) : Descends goal name rest := ⟨hskip, hback, by simp [hgoal]⟩
  -- the last name is only looked at once the walk has come to a directory
  have hempty (wayRev : List Str) (members : List (Str × Entry)) :
      ∃ way entry, walkWith root goal follow' wayRev (.directory members) [] =
        .ok (.found way entry) ∧ (goal = .target → entry.isDirectory = true) :=
    ⟨_, _, by rw [walkWith], fun _ => rfl⟩
  -- a link is only found as such if it is the last name in front of that
  have hentry {wayRev : List Str} {members : List (Str × Entry)} {name target : Str}
      {rest : List Str} (h : Descends goal name rest)
      (hlen : ¬ nameLimit < (Str.bytes name).length)
      (hl : members.lookup name = some (.link target))
      (hlast : (rest.isEmpty && goal = .entry) = true) :
      ∃ way entry, walkWith root goal follow' wayRev (.directory members) (name :: rest) =
        .ok (.found way entry) ∧ (goal = .target → entry.isDirectory = true) := by
    rw [walkWith_name h, if_neg hlen, hl]
    exact ⟨_, _, if_pos hlast, fun ht => by simp [ht] at hlast⟩
  fun_induction walkWith root .target follow wayRev here all generalizing names with
  | case1 => simp at hall
  | case2 wayRev members name rest hskip ih =>
    rcases names with _ | ⟨first, names⟩
    · exact hempty wayRev members
    · rw [List.cons_append, List.cons.injEq] at hall
      obtain ⟨rfl, hrest⟩ := hall
      obtain ⟨way, entry, he, hentry⟩ := ih hw hrest
      exact ⟨way, entry, by rw [walkWith, if_pos hskip, he], hentry⟩
  | case3 wayRev members rest above habove hskip ih =>
    rcases names with _ | ⟨first, names⟩
    · exact hempty wayRev members
    · rw [List.cons_append, List.cons.injEq] at hall
      obtain ⟨rfl, hrest⟩ := hall
      obtain ⟨way, entry, he, hentry⟩ := ih hw hrest
      exact ⟨way, entry, by rw [walkWith, if_neg hskip, if_pos rfl, habove]; exact he, hentry⟩
  | case4 => cases hw
  | case5 => cases hw
  | case6 => cases hw
  | case7 wayRev members name rest hskip hback _ hlen hl hnone =>
    rcases names with _ | ⟨first, names⟩
    · exact hempty wayRev members
    · rw [List.cons_append, List.cons.injEq] at hall
      obtain ⟨rfl, rfl⟩ := hall
      simp at hnone
  | case8 => cases hw
  | case9 _ _ _ _ _ _ _ _ _ _ hentry => simp at hentry
  | case10 wayRev members name rest hskip hback _ hlen target hl _ habs =>
    rcases names with _ | ⟨first, names⟩
    · exact hempty wayRev members
    · rw [List.cons_append, List.cons.injEq] at hall
      obtain ⟨rfl, rfl⟩ := hall
      rw [← List.append_assoc] at hw
      by_cases hlast : (names.isEmpty && goal = .entry) = true
      · exact hentry (hdown hskip hback) hlen hl hlast
      · rw [walkWith_link (hdown hskip hback) hlen hl hlast, if_pos habs]
        exact hfollow _ _ _ hw
  | case11 wayRev members name rest hskip hback _ hlen target hl _ habs =>
    rcases names with _ | ⟨first, names⟩
    · exact hempty wayRev members
    · rw [List.cons_append, List.cons.injEq] at hall
      obtain ⟨rfl, rfl⟩ := hall
      rw [← List.append_assoc] at hw
      by_cases hlast : (names.isEmpty && goal = .entry) = true
      · exact hentry (hdown hskip hback) hlen hl hlast
      · rw [walkWith_link (hdown hskip hback) hlen hl hlast, if_neg habs]
        exact hfollow _ _ _ hw
  | case12 wayRev members name rest hskip hback _ hlen next hlink hl ih =>
    rcases names with _ | ⟨first, names⟩
    · exact hempty wayRev members
    · rw [List.cons_append, List.cons.injEq] at hall
      obtain ⟨rfl, hrest⟩ := hall
      obtain ⟨way, entry, he, hentry⟩ := ih hw hrest
      exact ⟨way, entry, by rw [walkWith_member (hdown hskip hback) hlen hl hlink, he], hentry⟩
  | case13 => cases hw

theorem walk_parent (hgoal : goal ≠ .file)
    (hw : walk root .target links wayRev here (names ++ [last]) = .ok spot) :
    ∃ way entry, walk root goal links wayRev here names = .ok (.found way entry) ∧
      (goal = .target → entry.isDirectory = true) := by
  induction links generalizing wayRev here names with
  | zero =>
    rw [walk_zero] at hw ⊢
    exact walkWith_parent hgoal (fun _ _ _ he => by cases he) hw
  | succ links ih =>
    rw [walk_succ] at hw ⊢
    exact walkWith_parent hgoal (fun _ _ _ he => ih he) hw

/-- The text of a path starts with that of the path above it. -/
theorem Path.render_prefix_concat (names : Path) (h : names ++ [last] ≠ [[]]) :
    Path.render names <+: Path.render (names ++ [last]) := by
  have hrender {path : Path} (hpath : path ≠ [[]]) :
      path.render = slash :: Text.joined [slash] path := by
    rw [Path.render]
    exact hpath
  rw [hrender h]
  by_cases hnames : names = [[]]
  · rw [hnames]
    exact ⟨last, rfl⟩
  · rw [hrender hnames, List.prefix_cons_inj]
    exact Text.prefix_joined_append _ _ _

/-- **Where a path leads anywhere, the path above it leads to a directory**, or to a link if that is
what is to be found. -/
theorem locate_parent (hgoal : goal ≠ .file) (h : names ++ [last] ≠ [[]])
    (hl : locate root .target (names ++ [last]) = .ok spot) :
    ∃ way entry, locate root goal names = .ok (.found way entry) ∧
      (goal = .target → entry.isDirectory = true) := by
  rw [locate] at hl
  split at hl
  · cases hl
  · next hnull =>
    split at hl
    · cases hl
    · next hlen =>
      have hnull' : ¬ Path.hasNull names = true := by
        rw [Path.hasNull, List.any_append, Bool.or_eq_true, not_or] at hnull
        exact hnull.1
      have hlen' : ¬ pathLimit < (Str.bytes (Path.render names)).length := by
        obtain ⟨more, hmore⟩ := Path.render_prefix_concat names h
        rw [← hmore, Str.bytes_append, List.length_append] at hlen
        omega
      rw [locate, if_neg hnull', if_neg hlen']
      exact walk_parent hgoal hl

end Files
end TemplateBindings
