import TemplateBindings.Proofs.Files.Resolve
import TemplateBindings.Proofs.Files.Company
import TemplateBindings.Proofs.Text.Pieces

/-!
# Making directories and replacing files

The two pieces of work that builds are made of. Both are described by the operations that they
perform, so that they can be followed up to any point, and both by what has to hold for them to go
well: that only directories stand on the way
(`TemplateBindings.Files.Path.Free`) and that paths are within their limits.

* `TemplateBindings.Files.ensureDirectories_makes` – making directories does nothing else.
* `TemplateBindings.Files.ensureDirectories_isOk` – where it goes well.
-/

namespace TemplateBindings
namespace Files

variable {disk disk' : Disk} {root : Entry} {operation : Operation} {path way rest : Path}
  {name : Str} {e : FileError}

/-! ### Free paths -/

/-- A path on which there are only directories, as far as there is anything. -/
def Path.Free (root : Entry) (path : Path) : Prop :=
  ∀ way, way <+: path → root.see? way = none ∨ root.see? way = some .directory

instance (root : Entry) (path : Path) : Decidable (path.Free root) :=
  decidable_of_iff (∀ way ∈ path.inits, root.see? way = none ∨ root.see? way = some .directory)
    (by simp only [List.mem_inits]; rfl)

theorem Path.Free.plain {root : Entry} (h : path.Free root) : path.Plain root := by
  intro way hw target hl
  rcases h way hw with hn | hn <;> rw [hn] at hl <;> cases hl

theorem Path.Free.of_isPrefix {root : Entry} (h : path.Free root) (hw : way <+: path) :
    Path.Free root way :=
  fun other ho => h other (ho.trans hw)

/-- Making directories on a free path keeps it free. -/
theorem Path.Free.effects (now : Int) (seen : Seen) {operations : List Operation}
    (h : ∀ operation ∈ operations, ∃ way, way <+: path ∧ operation = .makeDirectory way)
    (q : Path) :
    Operation.effects now seen operations q = seen q ∨
      q <+: path ∧ Operation.effects now seen operations q = some .directory := by
  induction operations generalizing seen with
  | nil => exact .inl rfl
  | cons operation operations ih =>
    obtain ⟨way, hway, rfl⟩ := h operation List.mem_cons_self
    rcases ih ((Operation.makeDirectory way).effect now seen)
      fun o ho => h o (List.mem_cons_of_mem _ ho) with hq | hq
    · by_cases he : q = way
      · subst he
        exact .inr ⟨hway, hq.trans (by rw [Operation.effect, Function.update_self])⟩
      · exact .inl (hq.trans (by rw [Operation.effect, Function.update_of_ne he]))
    · exact .inr hq

/-- **Operations that make directories on a path.** -/
def Making (path : Path) (operations : List Operation) : Prop :=
  ∀ operation ∈ operations, ∃ way, way <+: path ∧ operation = .makeDirectory way

theorem Making.nil (path : Path) : Making path [] := fun _ ho => absurd ho List.not_mem_nil

/-- What is seen after directories were made on a path. -/
theorem Making.see? {disk' : Disk} {operations : List Operation}
    (hu : disk.Undergoes operations disk') (hm : Making path operations) (q : Path) :
    disk'.root.see? q = disk.root.see? q ∨ q <+: path ∧ disk'.root.see? q = some .directory := by
  rw [hu.see?_eq]
  exact Path.Free.effects _ _ hm q

/-- Making directories changes nothing but the places of the directories. -/
theorem see?_of_making {operations : List Operation} {made : Path → Prop} (hu : disk.Undergoes operations disk')
    (hm : ∀ operation ∈ operations, ∃ way, operation = .makeDirectory way ∧ made way) (q : Path) :
    disk'.root.see? q = disk.root.see? q ∨ made q ∧ disk'.root.see? q = some .directory := by
  induction hu with
  | nil => exact .inl rfl
  | cons hd ha _ ih =>
    obtain ⟨way, rfl, hmade⟩ := hm _ List.mem_cons_self
    have hrest := ih fun o ho => hm o (List.mem_cons_of_mem _ ho)
    rw [Disk.after, (Operation.of_apply hd ha).2, Operation.effect] at hrest
    by_cases hq : q = way
    · subst hq
      rw [Function.update_self] at hrest
      exact .inr ⟨hmade, hrest.elim id fun h => h.2⟩
    · rwa [Function.update_of_ne hq] at hrest

/-- They bring no link. -/
theorem Making.plain {disk' : Disk} {operations : List Operation} {other : Path}
    (hu : disk.Undergoes operations disk') (hm : Making path operations)
    (h : other.Plain disk.root) : other.Plain disk'.root := by
  intro q hq target
  rcases hm.see? hu q with he | ⟨-, he⟩
  · rw [he]
    exact h q hq target
  · rw [he]
    simp

/-- A directory that is there is made without doing anything. -/
theorem Making.nothing {disk' : Disk} {operations : List Operation}
    (hu : disk.Undergoes operations disk') (hm : Making path operations)
    (hdir : disk.root.see? path = some .directory) (q : Path) :
    disk'.root.see? q = disk.root.see? q := by
  rcases hm.see? hu q with he | ⟨hq, he⟩
  · exact he
  · rw [he, Entry.see?_directory_of_prefix_directory hq hdir]

/-- What making directories leads to: only directories on the path are made, and if it ends well
there is a directory at its end. -/
structure MakesDirectories (disk : Disk) (path : Path) (result : Except FileError Unit × Disk)
    (operations : List Operation) : Prop where
  /-- The operations lead to the disk that is left. -/
  undergoes : disk.Undergoes operations result.2
  /-- They make directories on the path. -/
  making : Making path operations
  /-- They have done so if all went well. -/
  made : result.1 = .ok () → result.2.root.see? path = some .directory
  /-- The path is within the limits then. -/
  fits : result.1 = .ok () → path.Fits

theorem MakesDirectories.free {result : Except FileError Unit × Disk}
    {operations : List Operation} (h : MakesDirectories disk path result operations) {other : Path}
    (hfree : other.Free disk.root) : other.Free result.2.root := by
  intro way hway
  rcases h.making.see? h.undergoes way with hq | ⟨-, hq⟩
  · rw [hq]
    exact hfree way hway
  · exact .inr hq

theorem MakesDirectories.plain {result : Except FileError Unit × Disk}
    {operations : List Operation} (h : MakesDirectories disk path result operations) {other : Path}
    (hplain : other.Plain disk.root) : other.Plain result.2.root :=
  h.making.plain h.undergoes hplain

/-- **A path that meets no link leads to a directory** where one is seen, within the limits. -/
theorem isDirectory_eq_true {root : Entry} (hp : path.Proper) (hplain : path.Plain root) :
    isDirectory root path = .ok true ↔ root.see? path = some .directory ∧ path.Fits := by
  constructor
  · intro hq
    rw [isDirectory, satisfies] at hq
    split at hq
    · next w entry hloc =>
      have hfits : path.Fits := by
        by_cases hne : path = []
        · rw [hne]
          decide
        · exact (Operation.reaches_of_locate ⟨hne, hp, hplain.straight⟩ (.inr hplain) hloc).1
      rcases spot_of_locate hp hplain.straight (.inr hplain) hloc with
        ⟨e, hat, he⟩ | ⟨_, _, -, -, -, he⟩
      · cases he
        cases entry with
        | directory members => exact ⟨Entry.see?_eq_some_directory.2 ⟨members, hat⟩, hfits⟩
        | file bytes modified => cases hq
        | link target => cases hq
      · cases he
    · cases hq
    · split at hq <;> cases hq
  · rintro ⟨hdir, hf⟩
    obtain ⟨members, hat⟩ := Entry.see?_eq_some_directory.1 hdir
    rw [isDirectory, satisfies, locate_found hp hf hat (by simp)]
    rfl

/-- **Whether a plain path within the limits leads to a directory** can be told. -/
theorem isDirectory_isOk {root : Entry} (hp : path.Proper) (hplain : path.Plain root) (hf : path.Fits) :
    ∃ there, isDirectory root path = .ok there := by
  rw [isDirectory, satisfies]
  split
  · exact ⟨_, rfl⟩
  · exact ⟨_, rfl⟩
  · next cause h =>
    rcases cause_of_locate hp hplain h with rfl | rfl | ⟨-, hnot⟩
    · exact ⟨_, rfl⟩
    · exact ⟨_, rfl⟩
    · exact absurd hf hnot

/-! ### Making directories among others -/

/-- **An operation that makes a directory on a path.** -/
def Operation.MakesOn (path : Path) (operation : Operation) : Prop :=
  ∃ way, way <+: path ∧ operation = .makeDirectory way

variable {others : Operation → Prop} {acts : List Operation}

/-- There is a directory at the end of a path, and the path is within the limits. -/
def Disk.HasDirectory (path : Path) (disk : Disk) : Prop :=
  disk.root.see? path = some .directory ∧ path.Fits

theorem Disk.HasDirectory.of_rely {mine : Operation → Prop} (h : disk.HasDirectory path)
    (hrely : (Company.among others mine).rely disk disk') : disk'.HasDirectory path := by
  obtain ⟨_, hp⟩ := hrely
  exact ⟨hp.directory path h.1, h.2⟩

theorem Path.Plain.of_rely {mine : Operation → Prop} (h : path.Plain disk.root)
    (hrely : (Company.among others mine).rely disk disk') : path.Plain disk'.root := by
  obtain ⟨_, hp⟩ := hrely
  exact hp.plain path h

/-- A directory that is made brings no link. -/
theorem plain_of_makeDirectory {other : Path}
    (hd : (Operation.makeDirectory path).Direct disk.root)
    (ha : (Operation.makeDirectory path).apply disk.now disk.root = .ok root)
    (hplain : other.Plain disk.root) : other.Plain root :=
  Making.plain (.single hd ha) (fun _ ho => ⟨path, List.prefix_rfl, List.mem_singleton.1 ho⟩) hplain

theorem direct_of_makeDirectory (hp : path.Proper) (hplain : path.Plain disk.root)
    (ha : (Operation.makeDirectory path).apply disk.now disk.root = .ok root) :
    (Operation.makeDirectory path).Direct disk.root := by
  refine ⟨?_, hp, hplain.straight⟩
  rintro rfl
  rw [Operation.apply_eq_ok, Operation.change, locate_eq_walk hp (by decide), walk_nil] at ha
  cases ha

theorem secures_makeDirectory (hp : path.Proper) (hplain : path.Plain disk.root)
    (hway : path <+: way) :
    (perform (.makeDirectory path)).Secures (.among others (Operation.MakesOn way))
      (fun result _ disk => (result = .ok () → disk.HasDirectory path) ∧ path.Plain disk.root)
      acts disk := by
  refine (Work.secures_perform_among ⟨path, hway, rfl⟩ rfl (fun mid root hmid ha => ?_)
    fun mid e _ _ last _ => ?_).and_plain hplain
  · have hd := direct_of_makeDirectory hp (hplain.of_rely hmid) ha
    refine ⟨hd, fun _ => plain_of_makeDirectory hd ha, fun last hlast _ => ?_⟩
    refine Disk.HasDirectory.of_rely ⟨?_, (Operation.of_apply hd ha).1.1.1⟩ hlast
    rw [(Disk.Undergoes.single hd ha).see?_eq]
    exact Function.update_self ..
  · simp

theorem secures_allowDirectory (e : FileError) (hp : path.Proper) (hplain : path.Plain disk.root) :
    (allowDirectory path e).Secures (.among others (Operation.MakesOn way))
      (fun result _ disk => result = .ok () → disk.HasDirectory path) acts disk := by
  rw [allowDirectory]
  split
  · exact Work.secures_throw fun _ _ => by simp
  · refine .ask_bind (fun mid there hmid hthere => ?_) fun _ _ _ _ _ _ => by simp
    cases there
    · exact Work.secures_throw fun _ _ => by simp
    · exact Work.secures_pure fun last hlast _ => Disk.HasDirectory.of_rely
        ((isDirectory_eq_true hp (hplain.of_rely hmid)).1 hthere) hlast

theorem secures_ensureDirectory (hp : path.Proper) (hplain : path.Plain disk.root)
    (hway : path <+: way) :
    (ensureDirectory path).Secures (.among others (Operation.MakesOn way))
      (fun result _ disk => result = .ok () → disk.HasDirectory path) acts disk := by
  refine .tryCatch ((secures_makeDirectory hp hplain hway).mono ?_)
  rintro (e | _) acts mid ⟨hmade, hmid⟩
  · exact secures_allowDirectory e hp hmid
  · exact fun _ => hmade rfl

theorem secures_ensureDirectoriesRev (room : Nat) {namesRev : List Str}
    (hp : Path.Proper namesRev.reverse) (hplain : Path.Plain disk.root namesRev.reverse)
    (hway : namesRev.reverse <+: way) :
    (ensureDirectoriesRev room namesRev).Secures (.among others (Operation.MakesOn way))
      (fun result _ disk => result = .ok () → disk.HasDirectory namesRev.reverse) acts disk := by
  induction namesRev generalizing room disk acts with
  | nil =>
    rw [ensureDirectoriesRev]
    exact secures_ensureDirectory hp hplain hway
  | cons name above ih =>
    have habove : above.reverse <+: (name :: above).reverse := by
      rw [List.reverse_cons]
      exact List.prefix_append _ _
    rw [ensureDirectoriesRev.eq_def]
    refine .tryCatch ((secures_makeDirectory hp hplain hway).mono ?_)
    rintro (e | _) acts mid ⟨hmade, hmid⟩
    · dsimp only
      split
      · cases room with
        | zero => exact Work.secures_throw fun _ _ => by simp
        | succ room =>
          refine .bind (((ih room (hp.of_isPrefix habove) (hmid.of_isPrefix habove)
            (habove.trans hway)).and_plain hmid).mono ?_)
          rintro (err | _) acts last ⟨-, hlast⟩
          · simp
          · exact secures_ensureDirectory hp hlast hway
      · exact secures_allowDirectory e hp hmid
    · exact fun _ => hmade rfl

/-- **Making directories on a path that meets no link** makes directories on it and does nothing
else; if it ends well, the path leads to a directory. -/
theorem secures_ensureDirectories (room : Nat) (hp : path.Proper) (hplain : path.Plain disk.root) :
    (ensureDirectories room path).Secures (.among others (Operation.MakesOn path))
      (fun result _ disk => result = .ok () → disk.HasDirectory path) acts disk := by
  obtain ⟨namesRev, rfl⟩ : ∃ namesRev : List Str, path = namesRev.reverse :=
    ⟨_, (List.reverse_reverse path).symm⟩
  rw [ensureDirectories, List.reverse_reverse]
  exact secures_ensureDirectoriesRev room hp hplain List.prefix_rfl

/-- The same without others. -/
theorem ensureDirectories_makes (room : Nat) (hp : path.Proper) (hplain : path.Plain disk.root) :
    ∃ operations,
      MakesDirectories disk path ((ensureDirectories room path).runOn disk) operations := by
  have halone : (ensureDirectories room path).Secures
      (.among (fun _ => False) (Operation.MakesOn path))
      (fun result _ disk => result = .ok () → disk.HasDirectory path) [] disk :=
    secures_ensureDirectories room hp hplain
  obtain ⟨operations, hown, hpost⟩ := halone.runOn
  exact ⟨operations, hown.undergoes, hown.allowed, fun h => (hpost h).1, fun h => (hpost h).2⟩

/-! ### Room for directories -/

/-- That there is a directory already is no error. -/
theorem runOn_allowDirectory_of_isDirectory {e : FileError} (he : e.cause ≠ .missing)
    (h : isDirectory disk.root path = .ok true) :
    (allowDirectory path e).runOn disk = (.ok (), disk) := by
  rw [allowDirectory, if_neg he]
  simp only [Work.runOn_bind, Work.runOn_ask, h]
  rfl

/-- **Where a path leads to a directory**, through links or not, there is none to be made. -/
theorem runOn_ensureDirectories_of_isDirectory (room : Nat)
    (he : (Operation.makeDirectory path).apply disk.now disk.root = .error ⟨.exists, path, none⟩)
    (h : isDirectory disk.root path = .ok true) :
    (ensureDirectories room path).runOn disk = (.ok (), disk) := by
  have hallow := runOn_allowDirectory_of_isDirectory (e := ⟨.exists, path, none⟩) (by simp) h
  rw [ensureDirectories]
  rcases hr : path.reverse with _ | ⟨name, above⟩
  · cases List.reverse_eq_nil_iff.1 hr
    rw [ensureDirectoriesRev, ensureDirectory, Work.runOn_tryCatch, runOn_perform_error he]
    exact hallow
  · have hpath : path = (name :: above).reverse := by rw [← hr, List.reverse_reverse]
    rw [ensureDirectoriesRev.eq_def]
    dsimp only
    rw [Work.runOn_tryCatch, ← hpath, runOn_perform_error he]
    dsimp only
    rw [if_neg (by simp), hallow]

theorem Path.render_of_proper (hp : path.Proper) :
    path.render = slash :: Text.joined [slash] path := by
  rw [render]
  rintro rfl
  exact (hp [] List.mem_cons_self).1 rfl

/-- The limits that a path keeps are kept by the paths above it. -/
theorem Path.Fits.of_isPrefix (hp : path.Proper) (h : path.Fits) (hw : way <+: path) :
    Path.Fits way := by
  refine ⟨?_, fun name hm => h.2 name (hw.subset hm)⟩
  have hlen := h.1
  rw [Path.render_of_proper hp] at hlen
  rw [Path.render_of_proper (hp.of_isPrefix hw)]
  obtain ⟨rest, rfl⟩ := hw
  obtain ⟨t, ht⟩ := Text.prefix_joined_append [slash] way rest
  rw [← ht, ← List.cons_append, Str.bytes_append, List.length_append] at hlen
  omega

/-- On a free path that ends nowhere there is a first name that is missing. -/
theorem Path.Free.exists_first_missing {base names : Path} (hfree : (base ++ names).Free root)
    (hbase : root.see? base = some .directory) (hnone : root.see? (base ++ names) = none) :
    ∃ way name rest, base ++ names = way ++ name :: rest ∧ root.see? way = some .directory ∧
      root.see? (way ++ [name]) = none := by
  induction names generalizing base with
  | nil =>
    rw [List.append_nil, hbase] at hnone
    cases hnone
  | cons name names ih =>
    have hstep : base ++ name :: names = base ++ [name] ++ names := by simp
    rcases hfree (base ++ [name]) ⟨names, by simp⟩ with h | h
    · exact ⟨base, name, names, rfl, hbase, h⟩
    · rw [hstep] at hfree hnone ⊢
      exact ih hfree h hnone

/-- Below a free path that ends nowhere, a path leads nowhere. -/
theorem locate_below_missing {goal : Goal} (hp : Path.Proper (way ++ [name]))
    (hlen : (Str.bytes (Path.render (way ++ [name]))).length ≤ pathLimit)
    (hshort : ∀ n ∈ way, (Str.bytes n).length ≤ nameLimit) (hfree : Path.Free root way)
    (hroot : root.see? [] = some .directory) (hnone : root.see? way = none) :
    locate root goal (way ++ [name]) = .error .missing := by
  have hfree' : Path.Free root ([] ++ way) := hfree
  obtain ⟨above, n, rest, he, hdir, hmissing⟩ :=
    Path.Free.exists_first_missing hfree' hroot hnone
  rw [List.nil_append] at he
  have hpath : way ++ [name] = above ++ n :: (rest ++ [name]) := by
    rw [he]
    simp
  rw [hpath] at hp hlen ⊢
  refine locate_missing hp hlen (fun m hm => hshort m ?_) (by simp) hdir hmissing
  rw [he]
  rcases List.mem_append.1 hm with hm | hm
  · exact List.mem_append_left _ hm
  · rw [List.mem_singleton.1 hm]
    simp

theorem apply_makeDirectory_missing (now : Int) (hp : Path.Proper (way ++ [name]))
    (hf : Path.Fits (way ++ [name])) (hfree : Path.Free root way)
    (hroot : root.see? [] = some .directory) (hnone : root.see? way = none) :
    (Operation.makeDirectory (way ++ [name])).apply now root =
      .error ⟨.missing, way ++ [name], none⟩ := by
  refine Operation.apply_eq_error ?_
  rw [Operation.change, locate_below_missing hp hf.1 (fun n hm => hf.2 n (by simp [hm])) hfree
    hroot hnone]

/-- Making directories leaves a free path free. -/
theorem Path.Free.of_making {operations : List Operation} (h : path.Free disk.root)
    (hu : disk.Undergoes operations disk')
    (hm : ∀ operation ∈ operations, Operation.MakesOn way operation) : path.Free disk'.root := by
  intro q hq
  rcases Making.see? hu hm q with he | ⟨-, he⟩
  · rw [he]
    exact h q hq
  · exact .inr he

section

variable (hothers : ∀ operations disk disk', Disk.Performs others operations disk disk' →
  way.Free disk.root → way.Free disk'.root)

include hothers

theorem Path.Free.of_rely {mine : Operation → Prop} (h : way.Free disk.root)
    (hrely : (Company.among others mine).rely disk disk') : way.Free disk'.root := by
  obtain ⟨_, hp⟩ := hrely
  exact hothers _ _ _ hp h

/-- **Making a directory on a free path** goes well or finds it there, unless the directory above is
missing. -/
theorem secures_makeDirectory_free (hp : way.Proper) (hf : way.Fits) (hpath : path <+: way)
    (hfree : way.Free disk.root) (hroot : disk.root.see? [] = some .directory) :
    (perform (.makeDirectory path)).Secures (.among others (Operation.MakesOn way))
      (fun result _ mid => (result = .ok () ∨ result = .error ⟨.exists, path, none⟩) ∧
          mid.HasDirectory path ∨
        result = .error ⟨.missing, path, none⟩ ∧
          ∃ above name, path = above ++ [name] ∧ disk.root.see? above ≠ some .directory)
      acts disk := by
  have hpp := hp.of_isPrefix hpath
  have hpf := hf.of_isPrefix hp hpath
  refine Work.secures_perform_among ⟨path, hpath, rfl⟩ rfl (fun mid root hmid ha => ?_)
    fun mid e hmid he last hlast => ?_
  · have hd := direct_of_makeDirectory hpp ((hfree.of_isPrefix hpath).plain.of_rely hmid) ha
    refine ⟨hd, fun _ => plain_of_makeDirectory hd ha, fun last hlast => .inl ⟨.inl rfl, ?_⟩⟩
    refine Disk.HasDirectory.of_rely ⟨?_, hpf⟩ hlast
    rw [(Disk.Undergoes.single hd ha).see?_eq]
    exact Function.update_self ..
  · have hfreemid := (hfree.of_rely hothers hmid).of_isPrefix hpath
    obtain ⟨_, hothersmid⟩ := hmid
    rcases hfreemid path List.prefix_rfl with hnone | hdir
    · rcases List.eq_nil_or_concat path with rfl | ⟨above, name, rfl⟩
      · rw [hothersmid.directory [] hroot] at hnone
        cases hnone
      · rw [List.concat_eq_append] at *
        have habove : mid.root.see? above ≠ some .directory := by
          intro hdir
          have hd : (Operation.makeDirectory (above ++ [name])).Direct mid.root :=
            ⟨by simp, hpp, hfreemid.plain.straight⟩
          obtain ⟨root, ha⟩ :=
            Operation.apply_of_possible mid.now hd ⟨⟨hpf, _, _, rfl, hdir⟩, hnone⟩
          cases he.symm.trans ha
        have hfreeabove := hfreemid.of_isPrefix (List.prefix_append above [name])
        have hmissing := apply_makeDirectory_missing mid.now hpp hpf hfreeabove
          (hothersmid.directory [] hroot)
          ((hfreeabove above List.prefix_rfl).resolve_right habove)
        cases he.symm.trans hmissing
        exact .inr ⟨rfl, above, name, rfl, fun hdir => habove (hothersmid.directory _ hdir)⟩
    · obtain ⟨members, hat⟩ := Entry.see?_eq_some_directory.1 hdir
      have hexists : (Operation.makeDirectory path).apply mid.now mid.root =
          .error ⟨.exists, path, none⟩ := by
        refine Operation.apply_eq_error ?_
        rw [Operation.change, locate_found hpp hpf hat (by simp)]
      cases he.symm.trans hexists
      exact .inl ⟨.inr rfl, Disk.HasDirectory.of_rely ⟨hdir, hpf⟩ hlast⟩

omit hothers in
/-- That there is a directory already is no error. -/
theorem secures_allowDirectory_isOk (hp : path.Proper) (hdir : disk.HasDirectory path) :
    (allowDirectory path ⟨.exists, path, none⟩).Secures
      (.among others (Operation.MakesOn way))
      (fun result _ disk => result = .ok () ∧ disk.HasDirectory path) acts disk := by
  have hthere {mid : Disk} (hmid : mid.HasDirectory path) : isDirectory mid.root path = .ok true := by
    refine (isDirectory_eq_true hp fun q hq target hl => ?_).2 hmid
    rw [Entry.see?_directory_of_prefix_directory hq hmid.1] at hl
    cases hl
  rw [allowDirectory, if_neg (by simp)]
  refine .ask_bind (fun mid there hmid hq => ?_) fun mid e hmid hq => ?_
  · cases hq.symm.trans (hthere (hdir.of_rely hmid))
    exact Work.secures_pure fun last hlast => ⟨rfl, (hdir.of_rely hmid).of_rely hlast⟩
  · cases hq.symm.trans (hthere (hdir.of_rely hmid))

/-- A directory is made where the one above it is there. -/
theorem secures_ensureDirectory_isOk (hp : way.Proper) (hf : way.Fits)
    (hpath : path ++ [name] <+: way) (hfree : way.Free disk.root)
    (hdir : disk.root.see? path = some .directory) :
    (ensureDirectory (path ++ [name])).Secures (.among others (Operation.MakesOn way))
      (fun result _ disk => result = .ok () ∧ disk.HasDirectory (path ++ [name])) acts disk := by
  have hroot := Entry.see?_directory_of_prefix_directory List.nil_prefix hdir
  refine .tryCatch ((secures_makeDirectory_free hothers hp hf hpath hfree hroot).mono ?_)
  rintro (e | _) acts mid (⟨hresult, hmid⟩ | ⟨-, above, n, he, hnot⟩)
  · cases hresult.resolve_left nofun
    exact secures_allowDirectory_isOk (hp.of_isPrefix hpath) hmid
  · exact absurd ((List.append_inj' he rfl).1 ▸ hdir) hnot
  · exact ⟨rfl, hmid⟩
  · exact absurd ((List.append_inj' he rfl).1 ▸ hdir) hnot

theorem secures_ensureDirectoriesRev_isOk {base : Path} {room : Nat} {namesRev : List Str}
    (hp : way.Proper) (hf : way.Fits) (hpath : base ++ namesRev.reverse <+: way)
    (hfree : way.Free disk.root) (hbase : disk.root.see? base = some .directory)
    (hroom : namesRev.length ≤ room + 1) :
    (ensureDirectoriesRev room (namesRev ++ base.reverse)).Secures
      (.among others (Operation.MakesOn way))
      (fun result _ disk => result = .ok () ∧ disk.HasDirectory (base ++ namesRev.reverse))
      acts disk := by
  have hroot := Entry.see?_directory_of_prefix_directory List.nil_prefix hbase
  induction namesRev generalizing room disk acts with
  | nil =>
    rw [List.reverse_nil, List.append_nil] at hpath ⊢
    rw [List.nil_append]
    -- the directory is there
    have hmake : (perform (.makeDirectory base)).Secures (.among others (Operation.MakesOn way))
        (fun result _ mid => (result = .ok () ∨ result = .error ⟨.exists, base, none⟩) ∧
          mid.HasDirectory base) acts disk := by
      refine (secures_makeDirectory_free hothers hp hf hpath hfree hroot).mono ?_
      rintro result acts mid (h | ⟨-, above, name, rfl, hnot⟩)
      · exact h
      · exact absurd (Entry.see?_directory_of_prefix_directory (List.prefix_append _ _) hbase) hnot
    rcases hb : base.reverse with _ | ⟨name, above⟩
    · cases List.reverse_eq_nil_iff.1 hb
      rw [ensureDirectoriesRev]
      refine .tryCatch (hmake.mono ?_)
      rintro (e | _) acts mid ⟨hresult, hmid⟩
      · cases hresult.resolve_left nofun
        exact secures_allowDirectory_isOk (hp.of_isPrefix hpath) hmid
      · exact ⟨rfl, hmid⟩
    · have he : base = (name :: above).reverse := by rw [← hb, List.reverse_reverse]
      rw [ensureDirectoriesRev.eq_def]
      dsimp only
      rw [← he]
      refine .tryCatch (hmake.mono ?_)
      rintro (e | _) acts mid ⟨hresult, hmid⟩
      · cases hresult.resolve_left nofun
        dsimp only
        rw [if_neg (by simp)]
        exact secures_allowDirectory_isOk (hp.of_isPrefix hpath) hmid
      · exact ⟨rfl, hmid⟩
  | cons name above ih =>
    have hrev : (name :: (above ++ base.reverse)).reverse = base ++ above.reverse ++ [name] := by
      simp
    have hpath' : base ++ (name :: above).reverse = base ++ above.reverse ++ [name] := by simp
    rw [hpath'] at hpath ⊢
    have habove : base ++ above.reverse <+: way := (List.prefix_append _ _).trans hpath
    rw [List.cons_append, ensureDirectoriesRev.eq_def]
    dsimp only
    rw [hrev]
    refine .tryCatch (.mono (.and_kept (fun disk => way.Free disk.root ∧
        disk.root.see? base = some .directory ∧ disk.root.see? [] = some .directory)
      (secures_makeDirectory_free hothers hp hf hpath hfree hroot) ⟨hfree, hbase, hroot⟩
      (fun _ _ _ h hk => ⟨hothers _ _ _ h hk.1, h.directory _ hk.2.1, h.directory _ hk.2.2⟩)
      fun _ _ _ h hk => ⟨hk.1.of_making h.undergoes h.allowed, h.directory _ hk.2.1,
        h.directory _ hk.2.2⟩) ?_)
    rintro (e | _) acts mid ⟨⟨hresult, hmid⟩ | ⟨hresult, up, n, he, hnot⟩, hfreemid, hbasemid,
      hrootmid⟩
    · cases hresult.resolve_left nofun
      dsimp only
      rw [if_neg (by simp)]
      exact secures_allowDirectory_isOk (hp.of_isPrefix hpath) hmid
    · -- the directory above is missing, and is made with room for one directory less
      cases hresult
      dsimp only
      rw [if_pos rfl]
      have hne : above ≠ [] := by
        rintro rfl
        rw [List.reverse_nil, List.append_nil] at he
        exact hnot ((List.append_inj' he rfl).1 ▸ hbase)
      obtain ⟨room, rfl⟩ : ∃ r, room = r + 1 := by
        obtain ⟨n, above, rfl⟩ := List.exists_cons_of_ne_nil hne
        exact ⟨room - 1, by simp at hroom; omega⟩
      have hroom : above.length ≤ room + 1 := by simpa using hroom
      refine .bind (.mono (.and_kept (fun disk => way.Free disk.root)
        (ih habove hfreemid hbasemid hroom hrootmid) hfreemid hothers
        fun _ _ _ h hk => hk.of_making h.undergoes h.allowed) ?_)
      rintro _ acts last ⟨⟨rfl, hlast⟩, hfreelast⟩
      exact secures_ensureDirectory_isOk hothers hp hf hpath hfreelast hlast.1
    · exact ⟨rfl, hmid⟩
    · cases hresult

end

/-- **There is room to make a directory**: no more are missing than one more than `room`. -/
def Path.Roomy (root : Entry) (room : Nat) (path : Path) : Prop :=
  ∃ base names, path = base ++ names ∧ root.see? base = some .directory ∧ names.length ≤ room + 1

instance (root : Entry) (room : Nat) (path : Path) : Decidable (path.Roomy root room) :=
  decidable_of_iff (∃ base ∈ path.inits, root.see? base = some .directory ∧
      path.length ≤ base.length + (room + 1)) (by
    constructor
    · rintro ⟨base, hbase, hdir, hroom⟩
      obtain ⟨names, rfl⟩ := List.mem_inits _ _ |>.1 hbase
      refine ⟨base, names, rfl, hdir, ?_⟩
      rw [List.length_append] at hroom
      omega
    · rintro ⟨base, names, rfl, hdir, hroom⟩
      refine ⟨base, (List.mem_inits _ _).2 (List.prefix_append _ _), hdir, ?_⟩
      rw [List.length_append]
      omega)

theorem Path.Roomy.mono {start files : Entry} {room : Nat} (h : way.Roomy start room)
    (hgrown : ∀ q, start.see? q = some .directory → files.see? q = some .directory) :
    way.Roomy files room := by
  obtain ⟨base, names, he, hbase, hlen⟩ := h
  exact ⟨base, names, he, hgrown base hbase, hlen⟩

/-- **A directory that can be made**, if it is not there: only directories stand on its way, it is
within the limits, and there is room. -/
structure Path.Makeable (root : Entry) (room : Nat) (path : Path) : Prop where
  /-- Only directories stand on its way. -/
  free : path.Free root
  /-- It is within the limits. -/
  fits : path.Fits
  /-- There is room for those that are missing. -/
  roomy : path.Roomy root room

instance (root : Entry) (room : Nat) (path : Path) : Decidable (path.Makeable root room) :=
  decidable_of_iff (path.Free root ∧ path.Fits ∧ path.Roomy root room)
    ⟨fun ⟨hfree, hfits, hroomy⟩ => ⟨hfree, hfits, hroomy⟩, fun h => ⟨h.free, h.fits, h.roomy⟩⟩

/-- One that is there need not be made. -/
theorem Path.Makeable.of_directory (room : Nat) (hdir : root.see? path = some .directory)
    (hf : path.Fits) : path.Makeable root room where
  free way hway := .inr (Entry.see?_directory_of_prefix_directory hway hdir)
  fits := hf
  roomy := ⟨path, [], by simp, hdir, by simp⟩

/-- **A directory that can be made is made**, and only directories on its way besides, if the others
leave its way free. -/
theorem Path.Makeable.secures {room : Nat} (h : path.Makeable disk.root room) (hp : path.Proper)
    (hothers : ∀ operations disk disk', Disk.Performs others operations disk disk' →
      path.Free disk.root → path.Free disk'.root) :
    (ensureDirectories room path).Secures (.among others (Operation.MakesOn path))
      (fun result _ disk => result = .ok () ∧ disk.HasDirectory path) acts disk := by
  obtain ⟨base, names, rfl, hbase, hroom⟩ := h.roomy
  obtain ⟨namesRev, rfl⟩ : ∃ namesRev : List Str, names = namesRev.reverse :=
    ⟨_, (List.reverse_reverse names).symm⟩
  rw [ensureDirectories, List.reverse_append, List.reverse_reverse]
  exact secures_ensureDirectoriesRev_isOk hothers hp h.fits List.prefix_rfl h.free hbase
    (by rwa [List.length_reverse] at hroom)

/-- The same without others. -/
theorem Path.Makeable.makes {room : Nat} (h : path.Makeable disk.root room) (hp : path.Proper) :
    ∃ operations mid, (ensureDirectories room path).runOn disk = (.ok (), mid) ∧
      MakesDirectories disk path (.ok (), mid) operations := by
  have hothers : ∀ operations disk disk', Disk.Performs (fun _ => False) operations disk disk' →
      path.Free disk.root → path.Free disk'.root := fun _ _ _ hp =>
    hp.eq_of_none ▸ id
  obtain ⟨operations, hown, hok, hdir⟩ := (h.secures hp hothers).runOn
  refine ⟨operations, _, Work.runOn_eq_of_end hok, ?_⟩
  exact ⟨hown.undergoes, hown.allowed, fun _ => hdir.1, fun _ => hdir.2⟩

/-- Making directories elsewhere does not get in its way. -/
theorem MakesDirectories.makeable {result : Except FileError Unit × Disk} {other : Path}
    {operations : List Operation} {room : Nat} (h : MakesDirectories disk path result operations)
    (hother : other.Makeable disk.root room) : other.Makeable result.2.root room where
  free := h.free hother.free
  fits := hother.fits
  roomy := hother.roomy.mono fun q hq => by
    rcases h.making.see? h.undergoes q with he | ⟨-, he⟩
    · rw [he, hq]
    · exact he

/-- Where the directory above is missing too, room is asked for. -/
theorem runOn_ensureDirectoriesRev_missing {base : Path} {room : Nat} {name last : Str}
    {above : Path} (hp : Path.Proper (base ++ name :: (above ++ [last])))
    (hf : Path.Fits (base ++ name :: (above ++ [last])))
    (hbase : disk.root.see? base = some .directory)
    (hnone : disk.root.see? (base ++ [name]) = none) :
    (ensureDirectoriesRev room (base ++ name :: (above ++ [last])).reverse).runOn disk =
      match room with
      | 0 => (.error ⟨.tooDeep, base ++ name :: (above ++ [last]), none⟩, disk)
      | room + 1 =>
        (do
          ensureDirectoriesRev room (base ++ name :: above).reverse
          ensureDirectory (base ++ name :: (above ++ [last])) : Work FileError Unit).runOn disk := by
  have hmissing : (Operation.makeDirectory (base ++ name :: (above ++ [last]))).apply disk.now
      disk.root = .error ⟨.missing, base ++ name :: (above ++ [last]), none⟩ := by
    refine Operation.apply_eq_error ?_
    rw [Operation.change, locate_missing hp hf.1 (fun n hm => hf.2 n ?_) (by simp) hbase hnone]
    rcases List.mem_append.1 hm with hm | hm
    · exact List.mem_append_left _ hm
    · rw [List.mem_singleton.1 hm]
      simp
  have hrev : (base ++ name :: (above ++ [last])).reverse =
      last :: (base ++ name :: above).reverse := by simp
  have hback : (last :: (base ++ name :: above).reverse).reverse =
      base ++ name :: (above ++ [last]) := by simp
  rw [hrev, ensureDirectoriesRev.eq_def]
  dsimp only
  rw [Work.runOn_tryCatch, hback, runOn_perform_error hmissing]
  dsimp only
  rw [if_pos rfl]
  cases room <;> rfl

/-- With more directories missing than there is room for, none is made. -/
theorem ensureDirectoriesRev_tooDeep {base : Path} {room : Nat} {name : Str} {rest : Path}
    (hp : Path.Proper (base ++ name :: rest)) (hf : Path.Fits (base ++ name :: rest))
    (hbase : disk.root.see? base = some .directory)
    (hnone : disk.root.see? (base ++ [name]) = none) (hroom : room < rest.length) :
    (ensureDirectoriesRev room (base ++ name :: rest).reverse).runOn disk =
      (.error ⟨.tooDeep, (base ++ name :: rest).take ((base ++ name :: rest).length - room), none⟩,
        disk) := by
  induction room generalizing rest with
  | zero =>
    rcases List.eq_nil_or_concat rest with rfl | ⟨above, last, rfl⟩
    · exact absurd hroom (by simp)
    · rw [List.concat_eq_append] at hp hf ⊢
      rw [runOn_ensureDirectoriesRev_missing hp hf hbase hnone]
      simp
  | succ room ih =>
    rcases List.eq_nil_or_concat rest with rfl | ⟨above, last, rfl⟩
    · exact absurd hroom (by simp)
    · rw [List.concat_eq_append] at hp hf hroom ⊢
      rw [List.length_append, List.length_singleton] at hroom
      have hpre : base ++ name :: above <+: base ++ name :: (above ++ [last]) := ⟨[last], by simp⟩
      rw [runOn_ensureDirectoriesRev_missing hp hf hbase hnone]
      dsimp only
      rw [Work.runOn_bind_of_error (ih (hp.of_isPrefix hpre) (hf.of_isPrefix hp hpre) (by omega))]
      have hlen : (base ++ name :: (above ++ [last])).length - (room + 1) =
          (base ++ name :: above).length - room := by
        simp only [List.length_append, List.length_cons, List.length_nil]
        omega
      have htake : (base ++ name :: (above ++ [last])).take
          ((base ++ name :: above).length - room) =
            (base ++ name :: above).take ((base ++ name :: above).length - room) := by
        have hpath : base ++ name :: (above ++ [last]) = base ++ name :: above ++ [last] := by simp
        rw [hpath, List.take_append_of_le_length (Nat.sub_le _ _)]
      rw [hlen, htake]

/-- **Without room** no directory is made. -/
theorem ensureDirectories_tooDeep {room : Nat} (hp : path.Proper) (hf : path.Fits)
    (hfree : path.Free disk.root) (hroot : disk.root.see? [] = some .directory)
    (hroom : ¬ path.Roomy disk.root room) :
    (ensureDirectories room path).runOn disk =
      (.error ⟨.tooDeep, path.take (path.length - room), none⟩, disk) := by
  have hnone : disk.root.see? path = none := by
    rcases hfree path List.prefix_rfl with h | h
    · exact h
    · exact absurd ⟨path, [], by simp, h, by simp⟩ hroom
  have hfree' : Path.Free disk.root ([] ++ path) := hfree
  obtain ⟨base, name, rest, he, hbase, hmissing⟩ :=
    Path.Free.exists_first_missing hfree' hroot hnone
  rw [List.nil_append] at he
  subst he
  rw [ensureDirectories]
  refine ensureDirectoriesRev_tooDeep hp hf hbase hmissing ?_
  by_contra hlen
  exact hroom ⟨base, name :: rest, rfl, hbase, by rw [List.length_cons]; omega⟩

end Files
end TemplateBindings
