import TemplateBindings.Files.Locate
import TemplateBindings.Proofs.Files.Sight

/-!
# Plain paths

A path that meets no link leads where it says. This file says it of
`TemplateBindings.Files.locate`: whatever such a path is to lead to, it leads to the entry at the
end of its names or, in a directory that does not have its last name, to the place there
(`TemplateBindings.Files.spot_of_locate`). The other direction needs the limits on names and paths
(`TemplateBindings.Files.Path.Fits`), which do not depend on what there is.
-/

namespace TemplateBindings
namespace Files

/-- A path within the limits of names and paths. -/
def Path.Fits (path : Path) : Prop :=
  (Str.bytes path.render).length ≤ pathLimit ∧
    ∀ name ∈ path, (Str.bytes name).length ≤ nameLimit

instance (path : Path) : Decidable path.Fits := inferInstanceAs (Decidable (_ ∧ _))

/-- A path that meets no link on its way to its last name. -/
def Path.Straight (root : Entry) (path : Path) : Prop :=
  ∀ way, way <+: path → way ≠ path → ∀ target, root.see? way ≠ some (.link target)

/-- A path that meets no link. -/
def Path.Plain (root : Entry) (path : Path) : Prop :=
  ∀ way, way <+: path → ∀ target, root.see? way ≠ some (.link target)

/-- Whether a link is seen. -/
def Sight.isLink : Option Sight → Bool
  | some (.link _) => true
  | _ => false

theorem Sight.isLink_eq_false {sight : Option Sight} :
    Sight.isLink sight = false ↔ ∀ target, sight ≠ some (.link target) := by
  rcases sight with _ | _ | _ | _ <;> simp [Sight.isLink]

instance (root : Entry) (path : Path) : Decidable (path.Plain root) :=
  decidable_of_iff (∀ way ∈ path.inits, Sight.isLink (root.see? way) = false) (by
    simp only [List.mem_inits, Sight.isLink_eq_false]
    rfl)

variable {root here entry : Entry} {goal : Goal} {links : Nat} {wayRev way names rest : List Str}
  {path : Path} {name : Str}

theorem Path.Plain.straight (h : path.Plain root) : path.Straight root :=
  fun way hw _ => h way hw

theorem Path.Plain.of_isPrefix (h : path.Plain root) (hw : way <+: path) : Path.Plain root way :=
  fun other ho => h other (ho.trans hw)

/-- A path one name longer than a plain one is plain, if there is no link at its end. -/
theorem Path.Plain.concat (h : Path.Plain root way)
    (hlink : ∀ target, root.see? (way ++ [name]) ≠ some (.link target)) :
    Path.Plain root (way ++ [name]) := by
  intro other ho
  rcases List.prefix_concat_iff.1 ho with rfl | hw
  · exact hlink
  · exact h other hw

/-- A path one name longer than a plain one is straight. -/
theorem Path.Plain.straight_concat (h : Path.Plain root way) (name : Str) :
    Path.Straight root (way ++ [name]) := by
  intro other ho hne
  rcases List.prefix_concat_iff.1 ho with he | hw
  · exact absurd he hne
  · exact h other hw

/-! ### One step -/

/-- **A name that leads down** from a directory: it says something and does not lead back, and where a
file is to be found, it is not followed by slashes only. -/
structure Descends (goal : Goal) (name : Str) (rest : List Str) : Prop where
  /-- It says something. -/
  spoken : ¬ (name.isEmpty || name = stay) = true
  /-- It does not lead back. -/
  down : ¬ name = back
  /-- It is not followed by slashes where a file is to be found. -/
  file : ¬ (goal = .file && !rest.isEmpty && rest.all (·.isEmpty)) = true

theorem IsName.descends (hn : IsName name) (hrest : Path.Proper rest) (goal : Goal) :
    Descends goal name rest := by
  obtain ⟨hempty, hdot, hback, -, -⟩ := hn
  refine ⟨by simp [hempty, hdot], hback, ?_⟩
  rcases rest with _ | ⟨n, rest⟩
  · simp
  · simp [(hrest n List.mem_cons_self).1]

section Step

variable {follow : List Str → Entry → List Str → Except Cause Spot}
  {members : List (Str × Entry)} {target : Str}

/-- **A walk at a name that leads down.** -/
theorem walkWith_name (h : Descends goal name rest) :
    walkWith root goal follow wayRev (.directory members) (name :: rest) =
      if nameLimit < (Str.bytes name).length then .error .nameTooLong
      else
        match members.lookup name with
        | none => if rest.isEmpty then .ok (.vacant wayRev.reverse name) else .error .missing
        | some (.link target) =>
          if rest.isEmpty && goal = .entry then
            .ok (.found (name :: wayRev).reverse (.link target))
          else if Path.isAbsolute target then follow [] root (linkNames target ++ rest)
          else follow wayRev (.directory members) (linkNames target ++ rest)
        | some entry => walkWith root goal follow (name :: wayRev) entry rest := by
  rw [walkWith]
  exact (if_neg h.spoken).trans ((if_neg h.down).trans (if_neg h.file))

/-- A walk goes on behind a link. -/
theorem walkWith_link (h : Descends goal name rest)
    (hlen : ¬ nameLimit < (Str.bytes name).length)
    (hl : members.lookup name = some (.link target))
    (hentry : ¬ (rest.isEmpty && goal = .entry) = true) :
    walkWith root goal follow wayRev (.directory members) (name :: rest) =
      if Path.isAbsolute target then follow [] root (linkNames target ++ rest)
      else follow wayRev (.directory members) (linkNames target ++ rest) := by
  rw [walkWith_name h, if_neg hlen, hl]
  exact if_neg hentry

/-- A walk goes on to what is no link. -/
theorem walkWith_member {next : Entry} (h : Descends goal name rest)
    (hlen : ¬ nameLimit < (Str.bytes name).length) (hl : members.lookup name = some next)
    (hlink : ∀ target, next ≠ .link target) :
    walkWith root goal follow wayRev (.directory members) (name :: rest) =
      walkWith root goal follow (name :: wayRev) next rest := by
  rw [walkWith_name h, if_neg hlen, hl]
  cases next with
  | link target => exact absurd rfl (hlink target)
  | directory _ | file _ _ => rfl

end Step

@[simp] theorem walk_nil (root : Entry) (goal : Goal) (links : Nat) (wayRev : List Str)
    (here : Entry) : walk root goal links wayRev here [] = .ok (.found wayRev.reverse here) := by
  cases links with
  | zero => rw [walk_zero, walkWith]
  | succ links => rw [walk_succ, walkWith]

/-- **A walk at a name**, without the cases of what is no name. -/
theorem walk_name (hn : IsName name) (hrest : Path.Proper rest) (members : List (Str × Entry)) :
    walk root goal links wayRev (.directory members) (name :: rest) =
      if nameLimit < (Str.bytes name).length then .error .nameTooLong
      else
        match members.lookup name with
        | none => if rest.isEmpty then .ok (.vacant wayRev.reverse name) else .error .missing
        | some (.link target) =>
          if rest.isEmpty && goal = .entry then
            .ok (.found (name :: wayRev).reverse (.link target))
          else
            match links with
            | 0 => .error .tooManyLinks
            | links + 1 =>
              if Path.isAbsolute target then walk root goal links [] root (linkNames target ++ rest)
              else
                walk root goal links wayRev (.directory members) (linkNames target ++ rest)
        | some entry => walk root goal links (name :: wayRev) entry rest := by
  cases links with
  | zero =>
    rw [walk_zero, walkWith_name (hn.descends hrest goal)]
    simp only [ite_self]
  | succ links =>
    rw [walk_succ, walkWith_name (hn.descends hrest goal)]

/-- The step of a walk to a member that is no link. -/
theorem walk_step {members : List (Str × Entry)} (hn : IsName name) (hrest : Path.Proper rest)
    (hlen : (Str.bytes name).length ≤ nameLimit) {next : Entry}
    (hl : members.lookup name = some next) (hlink : ∀ target, next ≠ .link target) :
    walk root goal links wayRev (.directory members) (name :: rest) =
      walk root goal links (name :: wayRev) next rest := by
  rw [walk_name hn hrest, if_neg (by omega), hl]
  cases next with
  | link target => exact absurd rfl (hlink target)
  | file bytes modified => rfl
  | directory members => rfl

/-- A walk from something that is no directory goes nowhere. -/
theorem walk_cons_of_not_directory (h : ∀ members, here ≠ .directory members) :
    walk root goal links wayRev here (name :: rest) = .error .notDirectory := by
  cases here with
  | directory members => exact absurd rfl (h members)
  | file bytes modified =>
    cases links with
    | zero => rw [walk_zero]; rfl
    | succ links => rw [walk_succ]; rfl
  | link target =>
    cases links with
    | zero => rw [walk_zero]; rfl
    | succ links => rw [walk_succ]; rfl

/-! ### Whole walks -/

/-- **A walk along what is there**, with the names that are left. -/
theorem walk_along (hat : here.at? names = some entry) (hlink : ∀ target, entry ≠ .link target)
    (hn : Path.Proper names) (hrest : Path.Proper rest)
    (hlen : ∀ n ∈ names, (Str.bytes n).length ≤ nameLimit) :
    walk root goal links wayRev here (names ++ rest) =
      walk root goal links (names.reverse ++ wayRev) entry rest := by
  induction names generalizing here wayRev with
  | nil =>
    cases Option.some.inj hat
    rfl
  | cons name names ih =>
    cases here with
    | file bytes modified => cases hat
    | link target => cases hat
    | directory members =>
      rw [Entry.at?_cons, Entry.member?] at hat
      obtain ⟨next, hnext, hat⟩ := Option.bind_eq_some_iff.1 hat
      have hnames : Path.Proper names := fun n hm => hn n (List.mem_cons_of_mem _ hm)
      have hproper : Path.Proper (names ++ rest) := by
        intro n hm
        rcases List.mem_append.1 hm with hm | hm
        · exact hnames n hm
        · exact hrest n hm
      have hnolink : ∀ target, next ≠ .link target := by
        rintro target rfl
        rcases names with _ | ⟨n, names⟩
        · exact hlink target (Option.some.inj hat).symm
        · cases hat
      rw [List.cons_append,
        walk_step (hn name List.mem_cons_self) hproper (hlen name List.mem_cons_self) hnext hnolink,
        ih hat hnames fun n hm => hlen n (List.mem_cons_of_mem _ hm)]
      simp

/-- Where a path ends that meets no link: at what is there, or at its last name in a directory that
does not have it. -/
theorem spot_of_walk (wayRev : List Str) (hat : root.at? wayRev.reverse = some here)
    (hn : Path.Proper names) {spot : Spot}
    (hs : Path.Straight root (wayRev.reverse ++ names))
    (hl : goal = .entry ∨ Path.Plain root (wayRev.reverse ++ names))
    (h : walk root goal links wayRev here names = .ok spot) :
    (∃ entry, root.at? (wayRev.reverse ++ names) = some entry ∧
        spot = .found (wayRev.reverse ++ names) entry) ∨
      ∃ way name, wayRev.reverse ++ names = way ++ [name] ∧
        root.see? way = some .directory ∧ root.see? (way ++ [name]) = none ∧
        spot = .vacant way name := by
  induction names generalizing here wayRev with
  | nil =>
    rw [walk_nil] at h
    cases h
    exact .inl ⟨here, by simpa using hat, by simp⟩
  | cons name names ih =>
    have hname := hn name List.mem_cons_self
    have hnames : Path.Proper names := fun n hm => hn n (List.mem_cons_of_mem _ hm)
    cases here with
    | file bytes modified =>
      rw [walk_cons_of_not_directory (by simp)] at h
      cases h
    | link target =>
      rw [walk_cons_of_not_directory (by simp)] at h
      cases h
    | directory members =>
      have hdir : root.see? wayRev.reverse = some .directory :=
        Entry.see?_eq_some_directory.2 ⟨members, hat⟩
      have hmember := Entry.at?_concat hat name
      have hway : wayRev.reverse ++ name :: names = (name :: wayRev).reverse ++ names := by simp
      rw [walk_name hname hnames] at h
      split at h
      · cases h
      · cases hlook : members.lookup name with
        | none =>
          rw [hlook] at h
          dsimp only at h
          split at h
          · next he =>
            cases List.isEmpty_iff.1 he
            cases h
            exact .inr ⟨_, name, rfl, hdir, Entry.see?_eq_none.2 (hmember.trans hlook), rfl⟩
          · cases h
        | some next =>
          rw [hlook] at h
          have hsee := hmember.trans hlook
          cases next with
          | link target =>
            have hlink := Entry.see?_eq_some_link.2 hsee
            rcases eq_or_ne names [] with rfl | hne
            · rcases hl with rfl | hl
              · simp only [List.isEmpty_nil, decide_true, Bool.and_self, if_true] at h
                cases h
                exact .inl ⟨_, hsee, by simp⟩
              · exact absurd hlink (hl _ List.prefix_rfl target)
            · refine absurd hlink (hs _ ⟨names, by simp⟩ (fun he => hne ?_) target)
              simpa using he
          | file bytes modified =>
            rw [hway] at hs hl ⊢
            exact ih _ (by simpa using hsee) hnames hs hl h
          | directory members =>
            rw [hway] at hs hl ⊢
            exact ih _ (by simpa using hsee) hnames hs hl h

/-- A name that is too long ends a walk that gets as far as it. -/
theorem walk_too_long (hdir : here.see? names = some .directory)
    (hn : Path.Proper (names ++ [name]))
    (hlong : ∃ n ∈ names ++ [name], nameLimit < (Str.bytes n).length) :
    walk root goal links wayRev here (names ++ [name]) = .error .nameTooLong := by
  induction names generalizing here wayRev with
  | nil =>
    obtain ⟨members, hat⟩ := Entry.see?_eq_some_directory.1 hdir
    cases Option.some.inj hat
    obtain ⟨n, hmem, hlong⟩ := hlong
    cases List.mem_singleton.1 hmem
    rw [List.nil_append, walk_name (hn name hmem) fun _ h => absurd h List.not_mem_nil,
      if_pos hlong]
  | cons first names ih =>
    have hproper : Path.Proper (names ++ [name]) := fun n hm => hn n (List.mem_cons_of_mem _ hm)
    cases here with
    | file bytes modified => cases hdir
    | link target => cases hdir
    | directory members =>
      rw [List.cons_append]
      by_cases hfirst : nameLimit < (Str.bytes first).length
      · rw [walk_name (hn first List.mem_cons_self) hproper, if_pos hfirst]
      · rw [Entry.see?_directory_cons] at hdir
        obtain ⟨next, hnext, hdir⟩ := Option.bind_eq_some_iff.1 hdir
        have hnolink : ∀ target, next ≠ .link target := by
          rintro target rfl
          cases names <;> cases hdir
        rw [walk_step (hn first List.mem_cons_self) hproper (by omega) hnext hnolink]
        refine ih hdir hproper ?_
        obtain ⟨n, hmem, hlong⟩ := hlong
        rcases List.mem_cons.1 hmem with rfl | hmem
        · exact absurd hlong hfirst
        · exact ⟨n, hmem, hlong⟩

/-! ### Locating -/

theorem Path.Proper.not_hasNull (h : path.Proper) : path.hasNull = false := by
  rw [Path.hasNull, List.any_eq_false]
  intro name hm hc
  exact (h name hm).2.2.2.2 (List.contains_iff_mem.1 hc)

theorem Path.Proper.append (hw : Path.Proper way) (hr : Path.Proper rest) :
    Path.Proper (way ++ rest) := by
  intro name hm
  rcases List.mem_append.1 hm with hm | hm
  · exact hw name hm
  · exact hr name hm

theorem Path.Proper.of_isPrefix (h : path.Proper) (hw : way <+: path) : Path.Proper way :=
  fun name hm => h name (hw.subset hm)

theorem locate_eq_walk (hp : path.Proper) (hf : (Str.bytes path.render).length ≤ pathLimit) :
    locate root goal path = walk root goal linkLimit [] root path := by
  rw [locate, hp.not_hasNull, if_neg (by simp), if_neg (by omega)]

/-- A path with too long a text leads nowhere, whatever there is. -/
theorem locate_long_text (hp : path.Proper)
    (hlong : pathLimit < (Str.bytes path.render).length) :
    locate root goal path = .error .nameTooLong := by
  rw [locate, hp.not_hasNull, if_neg (by simp), if_pos hlong]

/-- **Where a path leads that meets no link**: to the entry at its end, or to the place for one. -/
theorem spot_of_locate (hp : path.Proper) (hs : path.Straight root)
    (hl : goal = .entry ∨ path.Plain root) {spot : Spot} (h : locate root goal path = .ok spot) :
    (∃ entry, root.at? path = some entry ∧ spot = .found path entry) ∨
      ∃ way name, path = way ++ [name] ∧ root.see? way = some .directory ∧
        root.see? path = none ∧ spot = .vacant way name := by
  rw [locate, hp.not_hasNull, if_neg (by simp)] at h
  split at h
  · cases h
  · rcases spot_of_walk [] rfl hp hs hl h with h | ⟨way, name, rfl, hdir, hnone, rfl⟩
    · exact .inl h
    · exact .inr ⟨way, name, rfl, hdir, hnone, rfl⟩

/-- A path leads to what is at its end. -/
theorem locate_found (hp : path.Proper) (hf : path.Fits) (hat : root.at? path = some entry)
    (hlink : ∀ target, entry ≠ .link target) :
    locate root goal path = .ok (.found path entry) := by
  have h : walk root goal linkLimit [] root (path ++ []) =
      walk root goal linkLimit (path.reverse ++ []) entry [] :=
    walk_along hat hlink hp (fun _ h => absurd h List.not_mem_nil) hf.2
  rw [List.append_nil, List.append_nil] at h
  rw [locate_eq_walk hp hf.1, h, walk_nil, List.reverse_reverse]

/-- A link at the end of a path is found as such. -/
theorem locate_link {target : Str} (hp : Path.Proper (way ++ [name]))
    (hf : Path.Fits (way ++ [name])) (hat : root.at? (way ++ [name]) = some (.link target)) :
    locate root .entry (way ++ [name]) = .ok (.found (way ++ [name]) (.link target)) := by
  have hdir : root.see? way = some .directory := by
    refine Entry.see?_directory_of_below (List.cons_ne_nil name []) ?_
    rw [Entry.see?_eq_some_link.2 hat]
    simp
  obtain ⟨members, hway⟩ := Entry.see?_eq_some_directory.1 hdir
  rw [locate_eq_walk hp hf.1, walk_along hway (by simp) (hp.of_isPrefix (List.prefix_append _ _))
    (fun n hm => hp n (List.mem_append_right _ hm))
    fun n hm => hf.2 n (List.mem_append_left _ hm)]
  have hname := hf.2 name (by simp)
  rw [Entry.at?_append, hway, Option.bind_some, Entry.at?_cons, Entry.member?] at hat
  obtain ⟨next, hnext, hat⟩ := Option.bind_eq_some_iff.1 hat
  cases Option.some.inj hat
  rw [walk_name (hp name (by simp)) fun _ h => absurd h List.not_mem_nil, if_neg (by omega), hnext]
  simp

/-- A path leads to the place for its last name in a directory that does not have it. -/
theorem locate_vacant (hp : Path.Proper (way ++ [name])) (hf : Path.Fits (way ++ [name]))
    (hdir : root.see? way = some .directory) (hnone : root.see? (way ++ [name]) = none) :
    locate root goal (way ++ [name]) = .ok (.vacant way name) := by
  obtain ⟨members, hway⟩ := Entry.see?_eq_some_directory.1 hdir
  rw [locate_eq_walk hp hf.1, walk_along hway (by simp) (hp.of_isPrefix (List.prefix_append _ _))
    (fun n hm => hp n (List.mem_append_right _ hm))
    fun n hm => hf.2 n (List.mem_append_left _ hm)]
  have hname := hf.2 name (by simp)
  have hl : members.lookup name = none := by
    rw [Entry.see?_append_of_at? hway, Entry.see?_directory_cons] at hnone
    cases hnext : members.lookup name with
    | none => rfl
    | some next =>
      rw [hnext] at hnone
      cases hnone
  rw [walk_name (hp name (by simp)) fun _ h => absurd h List.not_mem_nil, if_neg (by omega), hl]
  simp

/-- A path that goes on behind what is not there leads nowhere. -/
theorem locate_missing (hp : Path.Proper (way ++ name :: rest))
    (hlen : (Str.bytes (Path.render (way ++ name :: rest))).length ≤ pathLimit)
    (hshort : ∀ n ∈ way ++ [name], (Str.bytes n).length ≤ nameLimit) (hrest : rest ≠ [])
    (hdir : root.see? way = some .directory) (hnone : root.see? (way ++ [name]) = none) :
    locate root goal (way ++ name :: rest) = .error .missing := by
  obtain ⟨members, hway⟩ := Entry.see?_eq_some_directory.1 hdir
  rw [locate_eq_walk hp hlen, walk_along hway (by simp) (hp.of_isPrefix (List.prefix_append _ _))
    (fun n hm => hp n (List.mem_append_right _ hm))
    fun n hm => hshort n (List.mem_append_left _ hm)]
  have hname := hshort name (by simp)
  have hl : members.lookup name = none := by
    rw [Entry.see?_append_of_at? hway, Entry.see?_directory_cons] at hnone
    cases hnext : members.lookup name with
    | none => rfl
    | some next =>
      rw [hnext] at hnone
      cases hnone
  rw [walk_name (hp name (by simp))
    fun n hm => hp n (List.mem_append_right _ (List.mem_cons_of_mem _ hm)), if_neg (by omega), hl]
  simp [hrest]

/-- In a real directory, only a path over the limits leads nowhere. -/
theorem locate_too_long (hp : Path.Proper (way ++ [name])) (hf : ¬ Path.Fits (way ++ [name]))
    (hdir : root.see? way = some .directory) :
    locate root goal (way ++ [name]) = .error .nameTooLong := by
  by_cases hr : (Str.bytes (Path.render (way ++ [name]))).length ≤ pathLimit
  · rw [locate_eq_walk hp hr]
    refine walk_too_long hdir hp ?_
    by_contra hno
    refine hf ⟨hr, fun n hm => ?_⟩
    by_contra hlong
    exact hno ⟨n, hm, by omega⟩
  · exact locate_long_text hp (by omega)

end Files
end TemplateBindings
