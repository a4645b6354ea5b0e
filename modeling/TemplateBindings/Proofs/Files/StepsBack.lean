import TemplateBindings.Proofs.Files.Effect
import TemplateBindings.Proofs.Files.Growing
import TemplateBindings.Proofs.Files.Resolve
import TemplateBindings.Proofs.Files.Work

/-!
# Paths with steps back

A path may go into a directory and step back out of it. It is not the path without its steps back,
because the directory has to be there, and may be a link to somewhere else. But where no link stands
in the place of any part of it (`TemplateBindings.Files.Path.Clean`), it leads where the path without
its steps back leads: when it is walked (`TemplateBindings.Files.Path.Clean.place_of_locate`), and
when it is resolved (`TemplateBindings.Files.Path.Clean.eq_of_resolve`). The steps back leave a trace
all the same: making the directories of a path makes those that it steps back from too
(`TemplateBindings.Files.Path.Clean.opened`).
-/

namespace TemplateBindings
namespace Files

variable {root root' here : Entry} {goal : Goal} {links : Nat} {wayRev names : List Str}
  {path way done : Path} {name : Str} {spot : Spot} {now : Int} {disk : Disk}

/-! ### Clean paths -/

/-- **A clean path**: no link stands where any part of it leads. -/
def Path.Clean (root : Entry) (path : Path) : Prop :=
  ∀ way, way <+: path → ∀ target, root.see? (normalise way) ≠ some (.link target)

instance (root : Entry) (path : Path) : Decidable (path.Clean root) :=
  decidable_of_iff (∀ way ∈ path.inits, Sight.isLink (root.see? (Path.normalise way)) = false) (by
    simp only [List.mem_inits, Sight.isLink_eq_false]
    rfl)

theorem Path.Clean.of_isPrefix (h : path.Clean root) (hw : way <+: path) : way.Clean root :=
  fun front hfront => h front (hfront.trans hw)

/-- A path of names is clean if it meets no link. -/
theorem Path.Plain.clean (h : path.Plain root) (hp : path.Proper) : path.Clean root := by
  intro way hway target
  rw [(hp.of_isPrefix hway).normal.normalise]
  exact h way hway target

/-- Every place above the one that a path leads to is where some part of the path leads. -/
theorem Path.exists_prefix_of_normalise {q : Path} (h : q <+: path.normalise) :
    ∃ way, way <+: path ∧ q = normalise way := by
  induction path using List.reverseRecOn with
  | nil => exact ⟨[], List.prefix_rfl, List.prefix_nil.1 h⟩
  | append_singleton path name ih =>
    have hgo : normalise (path ++ [name]) = goOn (normalise path) name := List.foldl_concat ..
    have hback (hq : q <+: normalise path) : ∃ way, way <+: path ++ [name] ∧ q = normalise way := by
      obtain ⟨way, hway, he⟩ := ih hq
      exact ⟨way, hway.trans (List.prefix_append _ _), he⟩
    rw [hgo, goOn] at h
    split at h
    · exact hback h
    · split at h
      · exact hback (h.trans (List.dropLast_prefix _))
      · rcases List.prefix_concat_iff.1 h with rfl | h
        · refine ⟨path ++ [name], List.prefix_rfl, ?_⟩
          rw [hgo, goOn, if_neg ‹_›, if_neg ‹_›]
        · exact hback h

/-- **A path stays clean** where no link appears on paths without one. -/
theorem Path.Clean.of_plain (h : path.Clean root)
    (hplain : ∀ q : Path, q.Plain root → q.Plain root') : path.Clean root' := by
  intro way hway target
  refine hplain (normalise way) (fun q hq => ?_) _ List.prefix_rfl target
  obtain ⟨front, hfront, rfl⟩ := exists_prefix_of_normalise hq
  exact h front (hfront.trans hway)

/-- What a clean path goes through, from a place on. -/
def CleanFrom (root : Entry) (done : Path) (names : List Str) : Prop :=
  ∀ front, front <+: names → ∀ target, root.see? (front.foldl Path.goOn done) ≠ some (.link target)

theorem cleanFrom_cons :
    CleanFrom root done (name :: names) ↔
      (∀ target, root.see? done ≠ some (.link target)) ∧
        CleanFrom root (Path.goOn done name) names := by
  constructor
  · intro h
    exact ⟨h [] List.nil_prefix, fun front hfront =>
      h (name :: front) (List.cons_prefix_cons.2 ⟨rfl, hfront⟩)⟩
  · rintro ⟨hdone, hnames⟩ front hfront
    cases front with
    | nil => exact hdone
    | cons first front =>
      obtain ⟨rfl, hrest⟩ := List.cons_prefix_cons.1 hfront
      exact hnames front hrest

theorem CleanFrom.start (h : CleanFrom root done names) (target : Str) :
    root.see? done ≠ some (.link target) := h [] List.nil_prefix target

theorem goOn_of_isEmpty (h : name.isEmpty = true) : Path.goOn done name = done := by
  rw [Path.goOn, h]
  rfl

/-- Empty names say nothing. -/
theorem CleanFrom.plain (h : CleanFrom root done names) : CleanFrom root done (Path.plain names) := by
  induction names generalizing done with
  | nil => exact h
  | cons name names ih =>
    obtain ⟨hdone, hnames⟩ := cleanFrom_cons.1 h
    rw [Path.plain, List.filter_cons]
    split
    · exact cleanFrom_cons.2 ⟨hdone, ih hnames⟩
    · next hempty =>
      rw [goOn_of_isEmpty (by simpa using hempty)] at hnames
      exact ih hnames

theorem Path.normalise_plain (path : Path) : path.plain.normalise = path.normalise := by
  have hgo (names : List Str) (done : Path) :
      (Path.plain names).foldl goOn done = names.foldl goOn done := by
    induction names generalizing done with
    | nil => rfl
    | cons name names ih =>
      rw [Path.plain, List.filter_cons, List.foldl_cons]
      split
      · exact ih _
      · next hempty =>
        rw [goOn_of_isEmpty (by simpa using hempty)]
        exact ih done
  exact hgo path []

/-! ### Where clean paths lead -/

/-- A walk along a clean path is at each moment where the names before it lead without steps back. -/
theorem walkWith_place {follow : List Str → Entry → List Str → Except Cause Spot}
    (hat : root.at? wayRev.reverse = some here) (hclean : CleanFrom root wayRev.reverse names)
    (hw : walkWith root goal follow wayRev here names = .ok spot) :
    spot.place = names.foldl Path.goOn wayRev.reverse := by
  fun_induction walkWith root goal follow wayRev here names with
  | case1 wayRev here =>
    cases hw
    rfl
  | case2 wayRev members name rest hskip ih =>
    have hgo : Path.goOn wayRev.reverse name = wayRev.reverse := if_pos hskip
    have hrest := (cleanFrom_cons.1 hclean).2
    rw [hgo] at hrest
    rw [List.foldl_cons, hgo]
    exact ih hat hrest hw
  | case3 wayRev members rest above hback hskip ih =>
    have hgo : Path.goOn wayRev.reverse back = wayRev.tail.reverse := by
      rw [Path.goOn, if_neg hskip, if_pos rfl, List.dropLast_reverse]
    have hrest := (cleanFrom_cons.1 hclean).2
    rw [hgo] at hrest
    rw [List.foldl_cons, hgo]
    exact ih hback hrest hw
  | case4 => cases hw
  | case5 => cases hw
  | case6 => cases hw
  | case7 wayRev members name rest hskip hback hfile hlen hl hrest =>
    cases hw
    rw [List.isEmpty_iff.1 hrest, List.foldl_cons, Path.goOn, if_neg hskip, if_neg hback]
    rfl
  | case8 => cases hw
  | case9 wayRev members name rest hskip hback hfile hlen target hl hgoal
  | case10 wayRev members name rest hskip hback hfile hlen target hl hgoal habs
  | case11 wayRev members name rest hskip hback hfile hlen target hl hgoal habs =>
    -- there is no link on the way
    have hlink : root.see? (wayRev.reverse ++ [name]) = some (.link target) := by
      rw [Entry.see?_append_of_at? hat, Entry.see?_directory_cons, hl]
      rfl
    have hrest := (cleanFrom_cons.1 hclean).2.start target
    rw [Path.goOn, if_neg hskip, if_neg hback] at hrest
    exact absurd hlink hrest
  | case12 wayRev members name rest hskip hback hfile hlen next hlink hl ih =>
    have hgo : Path.goOn wayRev.reverse name = (name :: wayRev).reverse := by
      rw [Path.goOn, if_neg hskip, if_neg hback, List.reverse_cons]
    have hrest := (cleanFrom_cons.1 hclean).2
    rw [hgo] at hrest
    rw [List.foldl_cons, hgo]
    exact ih ((Entry.at?_reverse_cons hat name).trans hl) hrest hw
  | case13 => cases hw

/-- **A clean path leads where it leads without its steps back**, if it leads anywhere. -/
theorem Path.Clean.place_of_locate (h : path.Clean root) (hl : locate root goal path = .ok spot) :
    spot.place = path.normalise := by
  rw [locate] at hl
  split at hl
  · cases hl
  · split at hl
    · cases hl
    · rw [linkLimit, walk_succ] at hl
      have hplace : spot.place = path.foldl Path.goOn ([] : Path).reverse := walkWith_place rfl h hl
      exact hplace

/-- Settling a clean path ends at its end, unless a name is no name for a file. -/
theorem settleWith_of_clean {active : List Path} {follow : Path → Path → List Str → Settling}
    (h : CleanFrom root done names) :
    settleWith root active follow done names = .done (names.foldl Path.goOn done) ∨
      settleWith root active follow done names = .invalid := by
  fun_induction settleWith root active follow done names with
  | case1 => exact .inl rfl
  | case2 done name rest hskip ih =>
    have hgo : Path.goOn done name = done := if_pos hskip
    rw [List.foldl_cons, hgo]
    exact ih (hgo ▸ (cleanFrom_cons.1 h).2)
  | case3 done rest hskip ih =>
    have hgo : Path.goOn done back = done.dropLast := by rw [Path.goOn, if_neg hskip, if_pos rfl]
    rw [List.foldl_cons, hgo]
    exact ih (hgo ▸ (cleanFrom_cons.1 h).2)
  | case4 => exact .inr rfl
  | case5 done name rest hskip hback hnull next target hat hactive
  | case6 done name rest hskip hback hnull next target hat hactive
  | case7 done name rest hskip hback hnull next target hat hactive
  | case8 done name rest hskip hback hnull next target hat hactive =>
    have hrest := (cleanFrom_cons.1 h).2.start target
    rw [Path.goOn, if_neg hskip, if_neg hback] at hrest
    exact absurd (by rw [Entry.see?, hat]; rfl) hrest
  | case9 done name rest hskip hback hnull next hother ih =>
    have hgo : Path.goOn done name = next := by rw [Path.goOn, if_neg hskip, if_neg hback]
    rw [List.foldl_cons, hgo]
    exact ih (hgo ▸ (cleanFrom_cons.1 h).2)

/-- **A clean path resolves to what it is without its steps back**, if it resolves. -/
theorem Path.Clean.eq_of_resolve {out : Path} (h : path.Clean root)
    (hr : resolve root path = .ok out) : out = path.normalise := by
  have hsettle : settle root root.linkCount [] [] path.plain = .done path.normalise ∨
      settle root root.linkCount [] [] path.plain = .invalid := by
    rw [← Path.normalise_plain]
    cases root.linkCount with
    | zero =>
      rw [settle_zero]
      exact settleWith_of_clean (CleanFrom.plain h)
    | succ depth =>
      rw [settle_succ]
      exact settleWith_of_clean (CleanFrom.plain h)
  rw [resolve] at hr
  rcases hsettle with hs | hs
  · rw [hs] at hr
    dsimp only at hr
    rw [Path.normalise_normalise, checked] at hr
    split at hr
    · cases hr
    · cases hr
    · exact (Except.ok.inj hr).symm
  · rw [hs] at hr
    cases hr

/-! ### Operations on clean paths -/

/-- **A directory is made** where a clean path leads. -/
theorem Path.Clean.of_makeDirectory (h : path.Clean root)
    (ha : (Operation.makeDirectory path).apply now root = .ok root') :
    root.see? path.normalise = none ∧
      root'.see? = Function.update root.see? path.normalise (some .directory) := by
  rw [Operation.apply_eq_ok, Operation.change] at ha
  split at ha
  · next way name hl =>
    cases ha
    obtain ⟨hdir, hnone⟩ := stands_of_locate hl
    have hplace : way ++ [name] = path.normalise := h.place_of_locate hl
    rw [← hplace]
    refine ⟨hnone, Operation.see?_put_leaf hdir (fun entry he rest hrest => ?_) (.inl ?_)⟩
    · cases he
      obtain ⟨first, rest, rfl⟩ := List.exists_cons_of_ne_nil hrest
      rfl
    · simp [hnone]
  · cases ha
  · cases ha

/-- **Bytes are added** to the file that a clean path leads to. -/
theorem Path.Clean.of_append (h : path.Clean root) {bytes : List UInt8}
    (ha : (Operation.append path bytes).apply now root = .ok root') :
    root'.see? = Operation.effect now root.see? (.append path.normalise bytes) := by
  rw [Operation.effect_append]
  rw [Operation.apply_eq_ok, Operation.change, writeWith] at ha
  split at ha
  · next way before time hl =>
    cases ha
    have hplace : way = path.normalise := h.place_of_locate hl
    have hat : root.at? way = some (.file before time) := stands_of_locate hl
    rw [← hplace, Entry.see?_eq_some_file.2 hat]
    exact see?_put_file (.file way before time) (stands_of_locate hl) _ _
  · cases ha
  · next way name hl =>
    cases ha
    have hplace : way ++ [name] = path.normalise := h.place_of_locate hl
    rw [← hplace, (stands_of_locate hl).2]
    exact see?_put_file (.vacant way name) (stands_of_locate hl) _ _
  · cases ha

/-! ### Making directories -/

/-- **A path is opened**: directories appear where parts of it lead. -/
def Path.Opened (path : Path) (before after : Seen) : Prop :=
  ∀ q, after q = before q ∨
    before q = none ∧ after q = some .directory ∧ ∃ way, way <+: path ∧ q = normalise way

namespace Path.Opened

variable {before mid after : Seen} {other : Path}

theorem refl (path : Path) (seen : Seen) : path.Opened seen seen := fun _ => .inl rfl

theorem trans (h : path.Opened before mid) (h' : path.Opened mid after) :
    path.Opened before after := by
  intro q
  rcases h' q with he | ⟨hnone, hdir, hway⟩
  · rw [he]
    exact h q
  · rcases h q with he | ⟨-, hdir', -⟩
    · exact .inr ⟨he.symm.trans hnone, hdir, hway⟩
    · rw [hnone] at hdir'
      cases hdir'

theorem mono (h : way.Opened before after) (hw : way <+: path) : path.Opened before after :=
  fun q => (h q).imp_right fun ⟨hnone, hdir, front, hfront, he⟩ =>
    ⟨hnone, hdir, front, hfront.trans hw, he⟩

/-- No link appears. -/
theorem not_link (h : path.Opened before after) {q : Path} {target : Str}
    (hq : before q ≠ some (.link target)) : after q ≠ some (.link target) := by
  rcases h q with he | ⟨-, he, -⟩
  · rwa [he]
  · rw [he]
    exact nofun

/-- No bytes appear. -/
theorem bytesSeen_eq (h : path.Opened before after) (q : Path) :
    Operation.bytesSeen (after q) = Operation.bytesSeen (before q) := by
  rcases h q with he | ⟨hnone, hdir, -⟩
  · rw [he]
  · rw [hnone, hdir]
    rfl

end Path.Opened

theorem Path.Clean.of_opened {other : Path} (h : path.Clean root)
    (hopened : other.Opened root.see? root'.see?) : path.Clean root' := fun way hway target =>
  hopened.not_link (h way hway target)

theorem Path.Plain.of_opened {other : Path} (h : path.Plain root)
    (hopened : other.Opened root.see? root'.see?) : path.Plain root' := fun way hway target =>
  hopened.not_link (h way hway target)

theorem runOn_allowDirectory_disk (path : Path) (e : FileError) (disk : Disk) :
    ((allowDirectory path e).runOn disk).2 = disk := by
  rw [allowDirectory]
  split
  · rfl
  · rw [Work.runOn_bind, Work.runOn_ask]
    rcases isDirectory disk.root path with e | _ | _ <;> rfl

theorem Path.Clean.opened_makeDirectory (h : path.Clean disk.root) :
    path.Opened disk.root.see? ((perform (.makeDirectory path)).runOn disk).2.root.see? := by
  rcases ha : (Operation.makeDirectory path).apply disk.now disk.root with e | root
  · rw [runOn_perform_error ha]
    exact .refl path _
  · rw [runOn_perform_ok ha]
    obtain ⟨hnone, hsee⟩ := h.of_makeDirectory ha
    intro q
    rw [Disk.after, hsee]
    by_cases hq : q = path.normalise
    · subst hq
      exact .inr ⟨hnone, Function.update_self .., path, List.prefix_rfl, rfl⟩
    · exact .inl (Function.update_of_ne hq ..)

/-- **What making directories comes to** follows from what making each of them comes to. -/
theorem runOn_ensureDirectoriesRev_related (rel : Disk → Disk → Prop)
    (htrans : ∀ {a b c}, rel a b → rel b c → rel a c) {namesRev : List Str}
    (hmake : ∀ way, way <+: namesRev.reverse → ∀ disk,
      rel disk ((perform (.makeDirectory way)).runOn disk).2) (room : Nat) (disk : Disk) :
    rel disk ((ensureDirectoriesRev room namesRev).runOn disk).2 := by
  have hensure {way : Path} (hway : way <+: namesRev.reverse) (disk : Disk) :
      rel disk ((ensureDirectory way).runOn disk).2 := by
    have hfirst := hmake way hway disk
    rw [ensureDirectory, Work.runOn_tryCatch]
    rcases hr : (perform (.makeDirectory way)).runOn disk with ⟨e | ⟨⟩, mid⟩
    · rw [hr] at hfirst
      dsimp only
      rwa [runOn_allowDirectory_disk]
    · rwa [hr] at hfirst
  induction namesRev generalizing room disk with
  | nil =>
    rw [ensureDirectoriesRev]
    exact hensure List.prefix_rfl disk
  | cons name above ih =>
    have habove : above.reverse <+: (name :: above).reverse := by
      rw [List.reverse_cons]
      exact List.prefix_append _ _
    have hfirst := hmake _ List.prefix_rfl disk
    rw [ensureDirectoriesRev.eq_def]
    dsimp only
    rw [Work.runOn_tryCatch]
    rcases hr : (perform (.makeDirectory (name :: above).reverse)).runOn disk with ⟨e | ⟨⟩, mid⟩
    · rw [hr] at hfirst
      dsimp only at hfirst ⊢
      split
      · cases room with
        | zero => exact hfirst
        | succ room =>
          have hsecond := ih (fun way hway => hmake way (hway.trans habove)) room mid
            fun hway => hensure (hway.trans habove)
          dsimp only
          rw [Work.runOn_bind]
          rcases hr' : (ensureDirectoriesRev room above).runOn mid with ⟨e' | ⟨⟩, mid'⟩
          · rw [hr'] at hsecond
            exact htrans hfirst hsecond
          · rw [hr'] at hsecond
            exact htrans (htrans hfirst hsecond) (hensure List.prefix_rfl mid')
      · rwa [runOn_allowDirectory_disk]
    · rwa [hr] at hfirst

/-- **Making the directories of a clean path opens it**, and does nothing else. -/
theorem Path.Clean.opened (h : path.Clean disk.root) (room : Nat) :
    path.Opened disk.root.see? ((ensureDirectories room path).runOn disk).2.root.see? :=
  runOn_ensureDirectoriesRev_related
    (fun a b => path.Clean a.root → path.Opened a.root.see? b.root.see?)
    (fun h h' hclean => (h hclean).trans (h' (hclean.of_opened (h hclean))))
    (fun way hway mid hclean => by
      rw [List.reverse_reverse] at hway
      exact (hclean.of_isPrefix hway).opened_makeDirectory.mono hway) room disk h

end Files
end TemplateBindings
