import TemplateBindings.Proofs.Files.Plain
import TemplateBindings.Proofs.Text.Pieces

/-!
# Where any path leads

A path may go through links, and what they lead to is known only to the file system. Still, what a
walk ends at is there (`TemplateBindings.Files.Spot.Stands`): an entry at the end of a real way, or a
real directory with a place for a name. And no walk passes a name that is too long
(`TemplateBindings.Files.short_of_locate`).
-/

namespace TemplateBindings
namespace Files

variable {root here entry : Entry} {goal : Goal} {links : Nat} {wayRev way names : List Str}
  {path : Path} {name target : Str} {spot : Spot}
  {follow : List Str → Entry → List Str → Except Cause Spot}

/-! ### Ends of walks -/

/-- **The end of a walk is there**: an entry at the end of its way, or a directory without a name. -/
def Spot.Stands (root : Entry) : Spot → Prop
  | .found way entry => root.at? way = some entry
  | .vacant way name => root.see? way = some .directory ∧ root.see? (way ++ [name]) = none

/-- A walk that goes on behind links to what is there ends at what is there. -/
theorem walkWith_stands
    (hfollow : ∀ wayRev {here names}, root.at? wayRev.reverse = some here →
      follow wayRev here names = .ok spot → spot.Stands root)
    (hat : root.at? wayRev.reverse = some here)
    (hw : walkWith root goal follow wayRev here names = .ok spot) : spot.Stands root := by
  fun_induction walkWith root goal follow wayRev here names with
  | case1 wayRev here =>
    cases hw
    exact hat
  | case2 wayRev members name rest hskip ih => exact ih hat hw
  | case3 wayRev members rest above hback hskip ih => exact ih hback hw
  | case4 => cases hw
  | case5 => cases hw
  | case6 => cases hw
  | case7 wayRev members name rest hskip hback hfile hlen hl hrest =>
    cases hw
    refine ⟨Entry.see?_eq_some_directory.2 ⟨members, hat⟩, ?_⟩
    rw [Entry.see?_append_of_at? hat, Entry.see?_directory_cons, hl]
    rfl
  | case8 => cases hw
  | case9 wayRev members name rest hskip hback hfile hlen target hl hgoal =>
    cases hw
    exact (Entry.at?_reverse_cons hat name).trans hl
  | case10 wayRev members name rest hskip hback hfile hlen target hl hgoal habs =>
    exact hfollow [] rfl hw
  | case11 wayRev members name rest hskip hback hfile hlen target hl hgoal habs =>
    exact hfollow wayRev hat hw
  | case12 wayRev members name rest hskip hback hfile hlen next hlink hl ih =>
    exact ih ((Entry.at?_reverse_cons hat name).trans hl) hw
  | case13 => cases hw

theorem walk_stands (hat : root.at? wayRev.reverse = some here)
    (hw : walk root goal links wayRev here names = .ok spot) : spot.Stands root := by
  induction links generalizing wayRev here names with
  | zero =>
    rw [walk_zero] at hw
    exact walkWith_stands (fun _ _ _ _ he => by cases he) hat hw
  | succ links ih =>
    rw [walk_succ] at hw
    exact walkWith_stands (fun _ _ _ hat he => ih hat he) hat hw

/-- **A path leads to what is there**, or to a place in a directory that is there. -/
theorem stands_of_locate (h : locate root goal path = .ok spot) : spot.Stands root := by
  rw [locate] at h
  split at h
  · cases h
  · split at h
    · cases h
    · exact walk_stands rfl h

/-! ### Names at the ends of walks -/

/-- **A path as it can be spelled**: no name in it has a slash. -/
def Path.Spelled (path : Path) : Prop := ∀ name ∈ path, slash ∉ name

instance (path : Path) : Decidable path.Spelled := inferInstanceAs (Decidable (∀ _ ∈ _, _))

theorem Path.Proper.spelled (h : path.Proper) : path.Spelled := fun name hm => (h name hm).2.2.2.1

theorem Path.Spelled.of_isPrefix (h : path.Spelled) (hw : way <+: path) : Path.Spelled way :=
  fun name hm => h name (hw.subset hm)

theorem Path.hasNull_eq_false : path.hasNull = false ↔ ∀ n ∈ path, null ∉ n := by
  rw [hasNull, List.any_eq_false]
  simp

/-- Names that a walk may be asked to go along: those of a path, or the pieces of a link. -/
def Walkable (names : List Str) : Prop := ∀ name ∈ names, slash ∉ name ∧ null ∉ name

theorem Path.Proper.walkable (h : path.Proper) : Walkable path := fun name hm =>
  (h name hm).2.2.2

theorem Walkable.tail (h : Walkable (name :: names)) : Walkable names := fun n hm =>
  h n (List.mem_cons_of_mem _ hm)

theorem Walkable.append {others : List Str} (h : Walkable names) (h' : Walkable others) :
    Walkable (names ++ others) := by
  intro n hm
  rcases List.mem_append.1 hm with hm | hm
  · exact h n hm
  · exact h' n hm

/-- The text of a link in a valid file system can be walked along. -/
theorem walkable_linkNames (h : null ∉ target) : Walkable (linkNames target) := by
  intro n hm
  rcases List.mem_append.1 hm with hm | hm
  · have hpiece := (List.mem_filter.1 hm).1
    exact ⟨Text.not_mem_of_mem_pieces hpiece,
      fun hnull => h (Text.mem_of_mem_pieces hpiece hnull)⟩
  · split at hm
    · cases List.mem_singleton.1 hm
      exact ⟨List.not_mem_nil, List.not_mem_nil⟩
    · cases hm

theorem walkWith_isName (hv : root.Valid)
    (hfollow : ∀ wayRev {here names}, root.at? wayRev.reverse = some here → Walkable names →
      follow wayRev here names = .ok (.vacant way name) → IsName name)
    (hat : root.at? wayRev.reverse = some here) (hnames : Walkable names)
    (hw : walkWith root goal follow wayRev here names = .ok (.vacant way name)) : IsName name := by
  fun_induction walkWith root goal follow wayRev here names with
  | case1 wayRev here => cases hw
  | case2 wayRev members name rest hskip ih => exact ih hat hnames.tail hw
  | case3 wayRev members rest above hback hskip ih => exact ih hback hnames.tail hw
  | case4 => cases hw
  | case5 => cases hw
  | case6 => cases hw
  | case7 wayRev members name rest hskip hback hfile hlen hl hrest =>
    cases hw
    simp only [Bool.or_eq_true, List.isEmpty_iff, decide_eq_true_eq, not_or] at hskip
    exact ⟨hskip.1, hskip.2, hback, hnames name List.mem_cons_self⟩
  | case8 => cases hw
  | case9 => cases hw
  | case10 wayRev members name rest hskip hback hfile hlen target hl hgoal habs =>
    have htarget : (Entry.link target).Valid :=
      ((Entry.valid_directory.1 (hv.at? hat)).2 _ (Entry.mem_of_lookup hl)).2
    exact hfollow [] rfl ((walkable_linkNames htarget).append hnames.tail) hw
  | case11 wayRev members name rest hskip hback hfile hlen target hl hgoal habs =>
    have htarget : (Entry.link target).Valid :=
      ((Entry.valid_directory.1 (hv.at? hat)).2 _ (Entry.mem_of_lookup hl)).2
    exact hfollow wayRev hat ((walkable_linkNames htarget).append hnames.tail) hw
  | case12 wayRev members name rest hskip hback hfile hlen next hlink hl ih =>
    exact ih ((Entry.at?_reverse_cons hat name).trans hl) hnames.tail hw
  | case13 => cases hw

theorem walk_isName (hv : root.Valid) (hat : root.at? wayRev.reverse = some here)
    (hnames : Walkable names)
    (hw : walk root goal links wayRev here names = .ok (.vacant way name)) : IsName name := by
  induction links generalizing wayRev here names with
  | zero =>
    rw [walk_zero] at hw
    exact walkWith_isName hv (fun _ _ _ _ _ he => by cases he) hat hnames hw
  | succ links ih =>
    rw [walk_succ] at hw
    exact walkWith_isName hv (fun _ _ _ hat hnames he => ih hat hnames he) hat hnames hw

/-- **A place for something new** is a place for a name, whatever links lead there. -/
theorem isName_of_locate (hv : root.Valid) (hp : path.Spelled)
    (h : locate root goal path = .ok (.vacant way name)) : IsName name := by
  rw [locate] at h
  split at h
  · cases h
  · next hnull =>
    have hnull := Path.hasNull_eq_false.1 (Bool.eq_false_iff.2 hnull)
    split at h
    · cases h
    · exact walk_isName hv rfl (fun n hm => ⟨hp n hm, hnull n hm⟩) h

/-! ### Limits of walks -/

/-- A walk that comes to its end has passed no name that is too long. -/
theorem walkWith_short
    (hfollow : ∀ wayRev {here names}, follow wayRev here names = .ok spot →
      ∀ name ∈ names, IsName name → (Str.bytes name).length ≤ nameLimit)
    (hw : walkWith root goal follow wayRev here names = .ok spot) :
    ∀ name ∈ names, IsName name → (Str.bytes name).length ≤ nameLimit := by
  fun_induction walkWith root goal follow wayRev here names with
  | case1 => exact fun _ hm => absurd hm List.not_mem_nil
  | case2 wayRev members name rest hskip ih =>
    intro n hm hn
    rcases List.mem_cons.1 hm with rfl | hm
    · obtain ⟨hempty, hdot, -⟩ := hn
      simp [hempty, hdot] at hskip
    · exact ih hw n hm hn
  | case3 wayRev members rest above hback hskip ih =>
    intro n hm hn
    rcases List.mem_cons.1 hm with rfl | hm
    · exact absurd rfl hn.2.2.1
    · exact ih hw n hm hn
  | case4 => cases hw
  | case5 => cases hw
  | case6 => cases hw
  | case7 wayRev members name rest hskip hback hfile hlen hl hrest =>
    intro n hm hn
    rw [List.isEmpty_iff.1 hrest] at hm
    cases List.mem_singleton.1 hm
    exact Nat.le_of_not_lt hlen
  | case8 => cases hw
  | case9 wayRev members name rest hskip hback hfile hlen target hl hgoal =>
    intro n hm hn
    rw [Bool.and_eq_true, List.isEmpty_iff] at hgoal
    rw [hgoal.1] at hm
    cases List.mem_singleton.1 hm
    exact Nat.le_of_not_lt hlen
  | case10 wayRev members name rest hskip hback hfile hlen target hl hgoal habs =>
    intro n hm hn
    rcases List.mem_cons.1 hm with rfl | hm
    · exact Nat.le_of_not_lt hlen
    · exact hfollow [] hw n (List.mem_append_right _ hm) hn
  | case11 wayRev members name rest hskip hback hfile hlen target hl hgoal habs =>
    intro n hm hn
    rcases List.mem_cons.1 hm with rfl | hm
    · exact Nat.le_of_not_lt hlen
    · exact hfollow wayRev hw n (List.mem_append_right _ hm) hn
  | case12 wayRev members name rest hskip hback hfile hlen next hlink hl ih =>
    intro n hm hn
    rcases List.mem_cons.1 hm with rfl | hm
    · exact Nat.le_of_not_lt hlen
    · exact ih hw n hm hn
  | case13 => cases hw

theorem walk_short (hw : walk root goal links wayRev here names = .ok spot) :
    ∀ name ∈ names, IsName name → (Str.bytes name).length ≤ nameLimit := by
  induction links generalizing wayRev here names with
  | zero =>
    rw [walk_zero] at hw
    exact walkWith_short (fun _ _ _ he => by cases he) hw
  | succ links ih =>
    rw [walk_succ] at hw
    exact walkWith_short (fun _ _ _ he => ih he) hw

/-- **A path that leads somewhere** has no name that is too long. -/
theorem short_of_locate (h : locate root goal path = .ok spot) :
    ∀ name ∈ path, IsName name → (Str.bytes name).length ≤ nameLimit := by
  rw [locate] at h
  split at h
  · cases h
  · split at h
    · cases h
    · exact walk_short h

theorem fits_of_locate (hp : path.Proper) (h : locate root goal path = .ok spot) : path.Fits := by
  refine ⟨?_, fun name hm => short_of_locate h name hm (hp name hm)⟩
  rw [locate] at h
  split at h
  · cases h
  · split at h
    · cases h
    · next hlen => exact Nat.le_of_not_lt hlen

end Files
end TemplateBindings
