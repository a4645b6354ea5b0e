import TemplateBindings.Files.Operation
import TemplateBindings.Proofs.Files.Plain

/-!
# What operations do

On paths that meet no link an operation does what its name says: what is seen afterwards
(`TemplateBindings.Files.Operation.effect`) is what was seen before, with one place changed, or two
for a move. An operation that succeeds was possible and has that effect
(`TemplateBindings.Files.Operation.of_apply`), and one that is possible succeeds
(`TemplateBindings.Files.Operation.apply_of_possible`).
-/

namespace TemplateBindings
namespace Files

/-- What is seen in a file system, place by place. -/
abbrev Seen := Path → Option Sight

/-- Whether a file may be written at a place: nothing is there, or a file. -/
def Sight.isWritable : Option Sight → Prop
  | none => True
  | some (.file _ _) => True
  | _ => False

/-- What is seen without the time of its last change. -/
def Sight.untimed : Sight → Sight
  | .file bytes _ => .file bytes 0
  | sight => sight

instance : DecidablePred Sight.isWritable
  | none => .isTrue trivial
  | some (.file _ _) => .isTrue trivial
  | some (.link _) => .isFalse id
  | some .directory => .isFalse id

namespace Operation

/-- **What is seen after an operation** at the time `now`. -/
def effect (now : Int) (seen : Seen) : Operation → Seen
  | makeDirectory path => Function.update seen path (some .directory)
  | write path bytes => Function.update seen path (some (.file bytes now))
  | append path bytes =>
    Function.update seen path <| some <| match seen path with
      | some (.file before _) => .file (before ++ bytes) now
      | _ => .file bytes now
  | move source target => Function.update (Function.update seen source none) target (seen source)
  | removeFile path => Function.update seen path none
  | removeDirectory path => Function.update seen path none

/-- The bytes of a file that is seen, and no bytes otherwise. -/
def bytesSeen : Option Sight → List UInt8
  | some (.file bytes _) => bytes
  | _ => []

theorem effect_append (now : Int) (seen : Seen) (path : Path) (bytes : List UInt8) :
    effect now seen (append path bytes) =
      Function.update seen path (some (.file (bytesSeen (seen path) ++ bytes) now)) := by
  rw [effect]
  split
  · next before _ hseen => rw [hseen]; rfl
  · next hno =>
    rw [bytesSeen.eq_2 _ hno]
    rfl

/-- A path below the root directory, made of names, that meets no link on its way to the last. -/
def IsDirect (root : Entry) (path : Path) : Prop :=
  path ≠ [] ∧ path.Proper ∧ path.Straight root

/-- An operation whose paths meet no link. Writing goes through a link at the end of a path too. -/
def Direct (root : Entry) : Operation → Prop
  | makeDirectory path | removeFile path | removeDirectory path => IsDirect root path
  | write path _ | append path _ => IsDirect root path ∧ path.Plain root
  | move source target => IsDirect root source ∧ IsDirect root target

/-- A path to a place in a real directory that is within the limits. -/
def Reaches (root : Entry) (path : Path) : Prop :=
  path.Fits ∧ ∃ way name, path = way ++ [name] ∧ root.see? way = some .directory

/-- **Where an operation is possible.** -/
def Possible (root : Entry) : Operation → Prop
  | makeDirectory path => Reaches root path ∧ root.see? path = none
  | write path _ | append path _ => Reaches root path ∧ Sight.isWritable (root.see? path)
  | move source target =>
    (Reaches root source ∧ root.see? source ≠ none ∧ root.see? source ≠ some .directory) ∧
      Reaches root target ∧ root.see? target ≠ some .directory
  | removeFile path =>
    Reaches root path ∧ root.see? path ≠ none ∧ root.see? path ≠ some .directory
  | removeDirectory path => Reaches root path ∧ root.at? path = some (.directory [])

variable {root root' entry : Entry} {path source target way : Path} {name : Str} {now : Int}
  {goal : Goal}

/-! ### Places -/

/-- Putting a leaf where there is nothing below is seen in that place only. -/
theorem see?_put_leaf (hdir : root.see? way = some .directory) {new : Option Entry}
    (hnew : ∀ entry ∈ new, ∀ rest ≠ [], entry.see? rest = none)
    (hold : root.see? (way ++ [name]) ≠ some .directory ∨
      root.at? (way ++ [name]) = some (.directory [])) :
    (root.put new (way ++ [name])).see? =
      Function.update root.see? (way ++ [name]) (new.map Entry.sight) := by
  obtain ⟨members, hat⟩ := Entry.see?_eq_some_directory.1 hdir
  refine Entry.see?_put_update hat new hnew fun rest hr => ?_
  rcases hold with hold | hold
  · exact Entry.see?_below_none hold hr
  · rw [Entry.see?_append_of_at? hold]
    obtain ⟨n, rest, rfl⟩ := List.exists_cons_of_ne_nil hr
    rfl

theorem see?_file_below (bytes : List UInt8) (modified : Int) :
    ∀ entry ∈ some (Entry.file bytes modified), ∀ rest ≠ [], entry.see? rest = none := by
  intro entry he rest hr
  cases Option.some.inj he
  obtain ⟨n, rest, rfl⟩ := List.exists_cons_of_ne_nil hr
  rfl

theorem see?_leaf_below (h : root.see? path ≠ some .directory) (hat : root.at? path = some entry) :
    ∀ e ∈ some entry, ∀ rest ≠ [], e.see? rest = none := by
  intro e he rest hr
  cases Option.some.inj he
  rw [← Entry.see?_append_of_at? hat]
  exact Entry.see?_below_none h hr

theorem reaches_of_locate (hp : IsDirect root path) (hl : goal = .entry ∨ path.Plain root)
    {spot : Spot} (h : locate root goal path = .ok spot) : Reaches root path := by
  obtain ⟨hne, hp, hs⟩ := hp
  have hdir : ∃ way name, path = way ++ [name] ∧ root.see? way = some .directory := by
    rcases spot_of_locate hp hs hl h with ⟨entry, hat, -⟩ | ⟨way, name, he, hdir, -, -⟩
    · obtain ⟨way, name, rfl⟩ : ∃ way name, path = way ++ [name] :=
        ⟨_, _, (List.dropLast_append_getLast hne).symm⟩
      refine ⟨way, name, rfl, Entry.see?_directory_of_below (List.cons_ne_nil name []) ?_⟩
      rw [Ne, Entry.see?_eq_none, hat]
      simp
    · exact ⟨way, name, he, hdir⟩
  refine ⟨?_, hdir⟩
  obtain ⟨way, name, rfl, hdir⟩ := hdir
  by_contra hf
  rw [locate_too_long hp hf hdir] at h
  cases h

theorem apply_eq_ok {operation : Operation} :
    operation.apply now root = .ok root' ↔ operation.change now root = .ok root' := by
  rw [apply]
  cases operation.change now root <;> simp [Except.mapError]

theorem apply_eq_error {operation : Operation} {cause : Cause}
    (h : operation.change now root = .error cause) :
    operation.apply now root = .error (operation.failure cause) := by
  rw [apply, h]
  rfl

/-! ### Operations that succeed -/

/-- What a write that succeeds had to start from, and what it leaves. -/
theorem of_writeWith (hp : IsDirect root path) (hl : path.Plain root)
    {change : List UInt8 → List UInt8} (h : writeWith now root path change = .ok root') :
    Reaches root path ∧ Sight.isWritable (root.see? path) ∧
      root' = root.put (some (.file (change (match root.see? path with
        | some (.file bytes _) => bytes
        | _ => [])) now)) path := by
  rw [writeWith] at h
  split at h
  · next w bytes modified hloc =>
    have hreach := reaches_of_locate hp (.inr hl) hloc
    rcases spot_of_locate hp.2.1 hp.2.2 (.inr hl) hloc with ⟨entry, hat, he⟩ | ⟨w, n, -, -, -, he⟩
    · cases he
      cases h
      rw [Entry.see?_eq_some_file.2 hat]
      exact ⟨hreach, trivial, rfl⟩
    · cases he
  · cases h
  · next w n hloc =>
    have hreach := reaches_of_locate hp (.inr hl) hloc
    rcases spot_of_locate hp.2.1 hp.2.2 (.inr hl) hloc with
      ⟨entry, -, he⟩ | ⟨w, n, rfl, -, hsee, he⟩
    · cases he
    · cases he
      cases h
      rw [hsee]
      exact ⟨hreach, trivial, rfl⟩
  · cases h

theorem see?_put_file (hreach : Reaches root path) (hw : Sight.isWritable (root.see? path))
    (bytes : List UInt8) (modified : Int) :
    (root.put (some (.file bytes modified)) path).see? =
      Function.update root.see? path (some (.file bytes modified)) := by
  obtain ⟨-, way, name, rfl, hdir⟩ := hreach
  refine see?_put_leaf hdir (see?_file_below bytes modified) (.inl fun hd => ?_)
  rw [hd] at hw
  exact hw

/-- What a move that succeeds had to start from, and what it leaves. -/
theorem of_moveFile (hs : IsDirect root source) (ht : IsDirect root target)
    (h : moveFile root source target = .ok root') :
    (Reaches root source ∧ root.see? source ≠ none ∧ root.see? source ≠ some .directory) ∧
      (Reaches root target ∧ root.see? target ≠ some .directory) ∧
      ∃ entry, root.at? source = some entry ∧
        root' = (root.put none source).put (some entry) target := by
  rw [moveFile] at h
  split at h
  · cases h
  · cases h
  · next way entry hloc =>
    have hreach := reaches_of_locate hs (.inl rfl) hloc
    rcases spot_of_locate hs.2.1 hs.2.2 (.inl rfl) hloc with ⟨e, hat, he⟩ | ⟨w, n, -, -, -, he⟩
    · cases he
      have hsome : root.see? source ≠ none := by
        rw [Ne, Entry.see?_eq_none, hat]
        simp
      split at h
      · cases h
      · next spot hspot =>
        have hreacht := reaches_of_locate ht (.inl rfl) hspot
        split at h
        · cases h
        · have hnd : root.see? source ≠ some .directory := by
            intro hd
            obtain ⟨members, hm⟩ := Entry.see?_eq_some_directory.1 hd
            cases hat.symm.trans hm
            cases h
          refine ⟨⟨hreach, hsome, hnd⟩, ?_⟩
          have hfile : ∀ members, entry ≠ .directory members := by
            rintro members rfl
            exact hnd (Entry.see?_eq_some_directory.2 ⟨members, hat⟩)
          rcases spot_of_locate ht.2.1 ht.2.2 (.inl rfl) hspot with
            ⟨old, hold, rfl⟩ | ⟨w, n, rfl, -, hnone, rfl⟩
          · have htnd : root.see? target ≠ some .directory := by
              intro hd
              obtain ⟨members, hm⟩ := Entry.see?_eq_some_directory.1 hd
              cases hold.symm.trans hm
              cases entry <;> cases h
            refine ⟨⟨hreacht, htnd⟩, entry, hat, ?_⟩
            cases entry with
            | directory members => exact absurd rfl (hfile members)
            | file bytes modified => cases old <;> cases h <;> rfl
            | link text => cases old <;> cases h <;> rfl
          · refine ⟨⟨hreacht, by simp [hnone]⟩, entry, hat, ?_⟩
            cases entry with
            | directory members => exact absurd rfl (hfile members)
            | file bytes modified =>
              cases h
              rfl
            | link text =>
              cases h
              rfl
    · cases he

/-- A move of a leaf is seen at its two ends. -/
theorem see?_move (hsource : Reaches root source) (hs : root.see? source ≠ some .directory)
    (htarget : Reaches root target) (ht : root.see? target ≠ some .directory)
    (hat : root.at? source = some entry) :
    ((root.put none source).put (some entry) target).see? =
      Function.update (Function.update root.see? source none) target (root.see? source) := by
  obtain ⟨-, sourceWay, sourceName, rfl, hsdir⟩ := hsource
  obtain ⟨-, targetWay, targetName, rfl, htdir⟩ := htarget
  have hput : (root.put none (sourceWay ++ [sourceName])).see? = _ :=
    see?_put_leaf hsdir (fun _ h => by cases h) (.inl hs)
  have hne : targetWay ≠ sourceWay ++ [sourceName] := by
    rintro rfl
    exact hs htdir
  have hdir : (root.put none (sourceWay ++ [sourceName])).see? targetWay = some .directory := by
    rw [hput, Function.update_of_ne hne, htdir]
  rw [see?_put_leaf hdir (see?_leaf_below hs hat), hput]
  · rw [Entry.see?, hat]
    rfl
  · refine .inl ?_
    rw [hput]
    by_cases he : targetWay ++ [targetName] = sourceWay ++ [sourceName]
    · rw [he, Function.update_self]
      simp
    · rwa [Function.update_of_ne he]

/-- **An operation that succeeds** was possible, and is seen by its effect. -/
theorem of_apply {operation : Operation} (hd : operation.Direct root)
    (h : operation.apply now root = .ok root') :
    operation.Possible root ∧ root'.see? = operation.effect now root.see? := by
  rw [apply_eq_ok] at h
  cases operation with
  | makeDirectory path =>
    rw [change] at h
    split at h
    · next w n hloc =>
      have hreach := reaches_of_locate hd (.inl rfl) hloc
      rcases spot_of_locate hd.2.1 hd.2.2 (.inl rfl) hloc with
        ⟨_, -, he⟩ | ⟨way, name, rfl, hdir, hnone, he⟩
      · cases he
      · cases he
        cases h
        refine ⟨⟨hreach, hnone⟩,
          see?_put_leaf hdir (fun e he rest hr => ?_) (.inl (by simp [hnone]))⟩
        cases Option.some.inj he
        obtain ⟨n, rest, rfl⟩ := List.exists_cons_of_ne_nil hr
        rfl
    · cases h
    · cases h
  | write path bytes =>
    obtain ⟨hreach, hw, rfl⟩ := of_writeWith hd.1 hd.2 h
    exact ⟨⟨hreach, hw⟩, see?_put_file hreach hw _ _⟩
  | append path bytes =>
    obtain ⟨hreach, hw, rfl⟩ := of_writeWith hd.1 hd.2 h
    refine ⟨⟨hreach, hw⟩, (see?_put_file hreach hw _ _).trans ?_⟩
    rw [effect]
    congr 2
    cases hsee : root.see? path with
    | none => rfl
    | some sight => cases sight <;> rfl
  | move source target =>
    obtain ⟨⟨hs, hsome, hsd⟩, ⟨ht, htd⟩, entry, hat, rfl⟩ := of_moveFile hd.1 hd.2 h
    exact ⟨⟨⟨hs, hsome, hsd⟩, ht, htd⟩, see?_move hs hsd ht htd hat⟩
  | removeFile path =>
    rw [change] at h
    split at h
    · cases h
    · next w entry hnd hloc =>
      have hreach := reaches_of_locate hd (.inl rfl) hloc
      rcases spot_of_locate hd.2.1 hd.2.2 (.inl rfl) hloc with
        ⟨e, hat, he⟩ | ⟨way, name, -, -, -, he⟩
      · cases he
        cases h
        have hsee : root.see? path ≠ some .directory := by
          intro hd
          obtain ⟨members, hm⟩ := Entry.see?_eq_some_directory.1 hd
          cases hat.symm.trans hm
          exact hnd _ rfl
        obtain ⟨hfits, way, name, rfl, hdir⟩ := hreach
        refine ⟨⟨⟨hfits, way, name, rfl, hdir⟩, ?_, hsee⟩, see?_put_leaf hdir (by simp) (.inl hsee)⟩
        rw [Ne, Entry.see?_eq_none, hat]
        simp
      · cases he
    · cases h
    · cases h
  | removeDirectory path =>
    rw [change] at h
    split at h
    · cases h
    · next w _ hloc =>
      have hreach := reaches_of_locate hd (.inl rfl) hloc
      rcases spot_of_locate hd.2.1 hd.2.2 (.inl rfl) hloc with
        ⟨e, hat, he⟩ | ⟨way, name, -, -, -, he⟩
      · cases he
        cases h
        obtain ⟨hfits, way, name, rfl, hdir⟩ := hreach
        exact ⟨⟨⟨hfits, way, name, rfl, hdir⟩, hat⟩, see?_put_leaf hdir (by simp) (.inr hat)⟩
      · cases he
    · cases h
    · cases h
    · cases h
    · cases h

/-! ### Operations that are possible -/

theorem locate_of_reaches (goal : Goal) (hp : path.Proper) (hr : Reaches root path) :
    (∃ entry, root.at? path = some entry ∧
        (goal = .entry ∨ (∀ target, entry ≠ .link target) →
          locate root goal path = .ok (.found path entry))) ∨
      ∃ way name, path = way ++ [name] ∧ root.see? path = none ∧
        locate root goal path = .ok (.vacant way name) := by
  obtain ⟨hfits, way, name, rfl, hdir⟩ := hr
  cases hat : root.at? (way ++ [name]) with
  | none =>
    have hnone := Entry.see?_eq_none.2 hat
    exact .inr ⟨way, name, rfl, hnone, locate_vacant hp hfits hdir hnone⟩
  | some entry =>
    refine .inl ⟨entry, rfl, fun hl => ?_⟩
    cases entry with
    | link target =>
      rcases hl with rfl | hl
      · exact locate_link hp hfits hat
      · exact absurd rfl (hl target)
    | file bytes modified => exact locate_found hp hfits hat (by simp)
    | directory members => exact locate_found hp hfits hat (by simp)

theorem writeWith_isOk (hp : path.Proper) (hr : Reaches root path)
    (hw : Sight.isWritable (root.see? path)) (change : List UInt8 → List UInt8) :
    ∃ root', writeWith now root path change = .ok root' := by
  rcases locate_of_reaches .file hp hr with ⟨entry, hat, hloc⟩ | ⟨way, name, -, -, hloc⟩
  · rw [Entry.see?, hat] at hw
    cases entry with
    | file bytes modified =>
      rw [writeWith, hloc (.inr (by simp))]
      exact ⟨_, rfl⟩
    | link target => cases hw
    | directory members => cases hw
  · rw [writeWith, hloc]
    exact ⟨_, rfl⟩

/-- **An operation succeeds where it is possible.** -/
theorem apply_of_possible (now : Int) {operation : Operation} (hd : operation.Direct root)
    (h : operation.Possible root) : ∃ root', operation.apply now root = .ok root' := by
  simp only [apply_eq_ok]
  cases operation with
  | makeDirectory path =>
    rcases locate_of_reaches .entry hd.2.1 h.1 with ⟨entry, hat, -⟩ | ⟨_, _, -, -, hloc⟩
    · have hnone := Entry.see?_eq_none.1 h.2
      cases hat.symm.trans hnone
    · rw [change, hloc]
      exact ⟨_, rfl⟩
  | write path bytes => exact writeWith_isOk hd.1.2.1 h.1 h.2 _
  | append path bytes => exact writeWith_isOk hd.1.2.1 h.1 h.2 _
  | move source target =>
    obtain ⟨⟨hs, hsome, hsd⟩, ht, htd⟩ := h
    rw [change, moveFile]
    rcases locate_of_reaches .entry hd.1.2.1 hs with ⟨entry, hat, hloc⟩ | ⟨_, _, -, hnone, -⟩
    · have hback : ¬ target.getLast? = some back := by
        intro hlast
        exact (hd.2.2.1 back (List.mem_of_getLast? hlast)).2.2.1 rfl
      have hentry : ∀ members, entry ≠ .directory members := by
        rintro members rfl
        exact hsd (Entry.see?_eq_some_directory.2 ⟨members, hat⟩)
      rw [hloc (.inl rfl)]
      rcases locate_of_reaches .entry hd.2.2.1 ht with ⟨old, hold, hspot⟩ | ⟨_, _, -, -, hspot⟩
      · have hdir : ∀ members, old ≠ .directory members := by
          rintro members rfl
          exact htd (Entry.see?_eq_some_directory.2 ⟨members, hold⟩)
        rw [hspot (.inl rfl)]
        dsimp only
        rw [if_neg hback]
        cases entry with
        | directory members => exact absurd rfl (hentry members)
        | file bytes modified =>
          cases old with
          | directory members => exact absurd rfl (hdir members)
          | file b m => exact ⟨_, rfl⟩
          | link text => exact ⟨_, rfl⟩
        | link text =>
          cases old with
          | directory members => exact absurd rfl (hdir members)
          | file b m => exact ⟨_, rfl⟩
          | link t => exact ⟨_, rfl⟩
      · rw [hspot]
        dsimp only
        rw [if_neg hback]
        cases entry with
        | directory members => exact absurd rfl (hentry members)
        | file bytes modified => exact ⟨_, rfl⟩
        | link text => exact ⟨_, rfl⟩
    · exact absurd hnone hsome
  | removeFile path =>
    obtain ⟨hr, hsome, hnd⟩ := h
    rcases locate_of_reaches .entry hd.2.1 hr with ⟨entry, hat, hloc⟩ | ⟨_, _, -, hnone, -⟩
    · rw [change, hloc (.inl rfl)]
      cases entry with
      | directory members => exact absurd (Entry.see?_eq_some_directory.2 ⟨members, hat⟩) hnd
      | file bytes modified => exact ⟨_, rfl⟩
      | link target => exact ⟨_, rfl⟩
    · exact absurd hnone hsome
  | removeDirectory path =>
    obtain ⟨hr, hat⟩ := h
    rw [change, locate_found hd.2.1 hr.1 hat (by simp)]
    obtain ⟨n, path, rfl⟩ := List.exists_cons_of_ne_nil hd.1
    exact ⟨_, rfl⟩

end Operation
end Files
end TemplateBindings
