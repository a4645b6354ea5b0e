import TemplateBindings.Proofs.Build.Inputs

/-!
# Making outputs

The files that are due for a source are written one after another, the module last
(`TemplateBindings.Build.writing`); one whose text cannot be written ends it. While the places of the
files are reserved for this, either all that is planned is done or nothing is
(`TemplateBindings.Build.secures_writeArtifacts_reserved`): the first file has the longest name, so
that if its draft is within the limits the others are
(`TemplateBindings.Build.secures_writeArtifacts_too_long`).
-/

namespace TemplateBindings
namespace Build

open Files

variable {disk : Disk} {way q : Path} {made rest : List (Str × Str)} {file other : Str × Str}
  {operations acts : List Operation} {seen : Seen} {now : Int} {source : Source}
  {artifacts : GeneratedModule.Artifacts}

/-! ### The operations -/

/-- **The operations that write files** in a directory, one file after another. A file whose text cannot
be written gets no further than its draft, and is the last. -/
def writing (way : Path) : List (Str × Str) → List Operation
  | [] => []
  | file :: made =>
    match file.2.encode with
    | .ok bytes => replacing way file.1 bytes ++ writing way made
    | .error _ => [.write (way ++ [draftName file.1]) []]

theorem writing_cons_of_ok {bytes : List UInt8} (h : file.2.encode = .ok bytes) (way : Path)
    (made : List (Str × Str)) :
    writing way (file :: made) = replacing way file.1 bytes ++ writing way made := by
  rw [writing, h]

theorem writing_cons_of_error {fault : Str.Fault} (h : file.2.encode = .error fault) (way : Path)
    (made : List (Str × Str)) :
    writing way (file :: made) = [.write (way ++ [draftName file.1]) []] := by
  rw [writing, h]

theorem firstFault?_cons_of_ok {bytes : List UInt8} (h : file.2.encode = .ok bytes)
    (made : List (Str × Str)) : firstFault? (file :: made) = firstFault? made := by
  rw [firstFault?, List.findSome?_cons, faultOf?, h]
  rfl

theorem firstFault?_cons_of_error {fault : Str.Fault} (h : file.2.encode = .error fault)
    (made : List (Str × Str)) : firstFault? (file :: made) = some fault := by
  rw [firstFault?, List.findSome?_cons, faultOf?, h]

/-- Each operation concerns one of the files. -/
theorem of_mem_writing {operation : Operation} (h : operation ∈ writing way made) :
    ∃ file ∈ made, (∃ bytes, operation = .write (way ++ [draftName file.1]) bytes) ∨
      operation = .move (way ++ [draftName file.1]) (way ++ [file.1]) := by
  induction made with
  | nil => cases h
  | cons file made ih =>
    rcases hc : file.2.encode with fault | bytes
    · rw [writing_cons_of_error hc, List.mem_singleton] at h
      exact ⟨file, List.mem_cons_self, .inl ⟨_, h⟩⟩
    · rw [writing_cons_of_ok hc] at h
      rcases List.mem_append.1 h with h | h
      · rcases List.mem_cons.1 h with rfl | h
        · exact ⟨file, List.mem_cons_self, .inl ⟨_, rfl⟩⟩
        · exact ⟨file, List.mem_cons_self, .inr (List.mem_singleton.1 h)⟩
      · obtain ⟨other, hother, ho⟩ := ih h
        exact ⟨other, List.mem_cons_of_mem _ hother, ho⟩

/-- A prefix of two lists one after the other ends in the first or in the second. -/
theorem prefix_append_cases {α : Type} {front first second : List α}
    (h : front <+: first ++ second) :
    front <+: first ∨ ∃ tail, front = first ++ tail ∧ tail <+: second := by
  rcases List.prefix_or_prefix_of_prefix h (List.prefix_append first second) with hf | ⟨tail, rfl⟩
  · exact .inl hf
  · exact .inr ⟨tail, rfl, List.prefix_append_right_inj first |>.1 h⟩

theorem effects_append (now : Int) (seen : Seen) (first second : List Operation) :
    Operation.effects now seen (first ++ second) =
      Operation.effects now (Operation.effects now seen first) second :=
  List.foldl_append

/-- The places where writing files changes something. -/
def Written (way : Path) (made : List (Str × Str)) (q : Path) : Prop :=
  ∃ operation ∈ writing way made, q ∈ operation.places

/-- They are outputs and drafts. -/
theorem Written.of_file (h : Written way made q) :
    ∃ file ∈ made, q = way ++ [file.1] ∨ q = way ++ [draftName file.1] := by
  obtain ⟨operation, ho, hq⟩ := h
  obtain ⟨file, hfile, ⟨bytes, rfl⟩ | rfl⟩ := of_mem_writing ho
  · exact ⟨file, hfile, .inr (List.mem_singleton.1 hq)⟩
  · rcases List.mem_cons.1 hq with hq | hq
    · exact ⟨file, hfile, .inr hq⟩
    · exact ⟨file, hfile, .inl (List.mem_singleton.1 hq)⟩

/-- What no operation is about is left as it was. -/
theorem effects_of_not_mem (now : Int) (seen : Seen) (h : ∀ operation ∈ operations, q ∉ operation.places) :
    Operation.effects now seen operations q = seen q := by
  induction operations generalizing seen with
  | nil => rfl
  | cons operation operations ih =>
    obtain ⟨hfirst, hrest⟩ := List.forall_mem_cons.1 h
    exact (ih _ hrest).trans (Operation.effect_of_not_mem now seen hfirst)

theorem effects_writing_of_not_written (now : Int) (seen : Seen) (h : ¬ Written way made q) :
    Operation.effects now seen (writing way made) q = seen q :=
  effects_of_not_mem now seen fun operation ho hq => h ⟨operation, ho, hq⟩

/-- The operations that replace a file, up to any point, leave files or nothing where they change
something. -/
theorem effects_replacing_prefix (now : Int) (seen : Seen) {name : Str} {bytes : List UInt8}
    (h : operations <+: replacing way name bytes) (q : Path) :
    Operation.effects now seen operations q = seen q ∨
      Sight.isWritable (Operation.effects now seen operations q) := by
  rw [replacing] at h
  rcases List.prefix_cons_iff.1 h with rfl | ⟨tail, rfl, htail⟩
  · exact .inl rfl
  · rcases List.prefix_cons_iff.1 htail with rfl | ⟨last, rfl, hlast⟩
    · rw [Operation.effects, List.foldl_cons, List.foldl_nil, Operation.effect,
        Function.update_apply]
      split
      · exact .inr trivial
      · exact .inl rfl
    · cases List.prefix_nil.1 hlast
      change Operation.effects now seen (replacing way name bytes) q = seen q ∨
        Sight.isWritable (Operation.effects now seen (replacing way name bytes) q)
      rw [effects_replacing, Function.update_apply, Function.update_apply]
      split
      · exact .inr trivial
      · split
        · exact .inr trivial
        · exact .inl rfl

/-- **Writing files, up to any point**, leaves files or nothing in their places, and everything else
as it was. -/
theorem effects_writing_prefix (now : Int) (seen : Seen) (h : operations <+: writing way made)
    (q : Path) :
    Operation.effects now seen operations q = seen q ∨
      Written way made q ∧ Sight.isWritable (Operation.effects now seen operations q) := by
  by_cases hq : Written way made q
  · refine (?_ : _ ∨ _).imp_right fun hw => ⟨hq, hw⟩
    clear hq
    induction made generalizing seen operations with
    | nil =>
      cases List.prefix_nil.1 h
      exact .inl rfl
    | cons file made ih =>
      rcases hc : file.2.encode with fault | bytes
      · rw [writing_cons_of_error hc] at h
        rcases List.prefix_cons_iff.1 h with rfl | ⟨tail, rfl, htail⟩
        · exact .inl rfl
        · cases List.prefix_nil.1 htail
          have hdraft : [.write (way ++ [draftName file.1]) []] <+: replacing way file.1 [] :=
            ⟨_, rfl⟩
          exact effects_replacing_prefix now seen hdraft q
      · rw [writing_cons_of_ok hc] at h
        rcases prefix_append_cases h with hfirst | ⟨tail, rfl, htail⟩
        · exact effects_replacing_prefix now seen hfirst q
        · rw [effects_append]
          rcases ih _ htail with he | hw
          · rw [he]
            exact effects_replacing_prefix now seen List.prefix_rfl q
          · exact .inr hw
  · exact .inl (effects_of_not_mem now seen fun operation ho hmem =>
      hq ⟨operation, h.subset ho, hmem⟩)

/-- **What is in the places of written files** depends on them alone. -/
theorem effects_writing_unique (now : Int) (seen seen' : Seen) (h : Written way made q) :
    Operation.effects now seen (writing way made) q =
      Operation.effects now seen' (writing way made) q := by
  induction made generalizing seen seen' with
  | nil =>
    obtain ⟨_, ho, -⟩ := h
    cases ho
  | cons file made ih =>
    rcases hc : file.2.encode with fault | bytes
    · obtain ⟨operation, ho, hq⟩ := h
      rw [writing_cons_of_error hc, List.mem_singleton] at ho
      subst ho
      rw [writing_cons_of_error hc, List.mem_singleton.1 hq]
      simp [Operation.effects, Operation.effect]
    · rw [writing_cons_of_ok hc, effects_append, effects_append]
      by_cases hlater : Written way made q
      · exact ih _ _ hlater
      · rw [effects_writing_of_not_written now _ hlater, effects_writing_of_not_written now _ hlater,
          effects_replacing, effects_replacing, Function.update_apply, Function.update_apply,
          Function.update_apply, Function.update_apply]
        obtain ⟨operation, ho, hq⟩ := h
        rw [writing_cons_of_ok hc] at ho
        have hmine := (List.mem_append.1 ho).resolve_right fun ho => hlater ⟨operation, ho, hq⟩
        have hplace : q = way ++ [file.1] ∨ q = way ++ [draftName file.1] := by
          rcases List.mem_cons.1 hmine with rfl | hmine
          · exact .inr (List.mem_singleton.1 hq)
          · cases List.mem_singleton.1 hmine
            rcases List.mem_cons.1 hq with hq | hq
            · exact .inr hq
            · exact .inl (List.mem_singleton.1 hq)
        rcases hplace with rfl | rfl
        · rw [if_pos rfl, if_pos rfl]
        · simp

/-- **Files with names of their own**: no two have the same, and none has that of a draft. -/
structure Distinct (made : List (Str × Str)) : Prop where
  /-- Names are distinct. -/
  nodup : (made.map Prod.fst).Nodup
  /-- They are no drafts of each other. -/
  drafts : ∀ file ∈ made, ∀ other ∈ made, file.1 ≠ draftName other.1

theorem Distinct.tail (h : Distinct (file :: made)) : Distinct made where
  nodup := (List.nodup_cons.1 h.nodup).2
  drafts f hf g hg := h.drafts f (List.mem_cons_of_mem _ hf) g (List.mem_cons_of_mem _ hg)

theorem Distinct.output_not_written (h : Distinct (file :: made)) (way : Path) :
    ¬ Written way made (way ++ [file.1]) := by
  intro hw
  obtain ⟨other, hother, hq | hq⟩ := hw.of_file
  · refine (List.nodup_cons.1 h.nodup).1 (List.mem_map.2 ⟨other, hother, ?_⟩)
    exact (concat_inj hq).2.symm
  · exact h.drafts _ List.mem_cons_self _ (List.mem_cons_of_mem _ hother) (concat_inj hq).2

theorem Distinct.draft_not_written (h : Distinct (file :: made)) (way : Path) :
    ¬ Written way made (way ++ [draftName file.1]) := by
  intro hw
  obtain ⟨other, hother, hq | hq⟩ := hw.of_file
  · exact h.drafts _ (List.mem_cons_of_mem _ hother) _ List.mem_cons_self (concat_inj hq).2.symm
  · refine (List.nodup_cons.1 h.nodup).1 (List.mem_map.2 ⟨other, hother, ?_⟩)
    exact (draftName_inj (concat_inj hq).2).symm

/-- Where all files can be written, the first can, and the others. -/
theorem of_firstFault?_cons_eq_none (h : firstFault? (file :: made) = none) :
    file.2.encode = .ok file.2.bytes ∧ firstFault? made = none := by
  rw [firstFault?, List.findSome?_eq_none_iff] at h
  refine ⟨faultOf?_eq_none.1 (h file List.mem_cons_self), ?_⟩
  rw [firstFault?, List.findSome?_eq_none_iff]
  exact fun other hother => h other (List.mem_cons_of_mem _ hother)

/-- **Files that were written are there**, if all could be. -/
theorem effects_writing (hd : Distinct made) (hfault : firstFault? made = none)
    (hfile : file ∈ made) :
    Operation.effects now seen (writing way made) (way ++ [file.1]) =
      some (.file file.2.bytes now) := by
  induction made generalizing seen with
  | nil => cases hfile
  | cons first made ih =>
    obtain ⟨hc, hrest⟩ := of_firstFault?_cons_eq_none hfault
    rw [writing_cons_of_ok hc, effects_append]
    rcases List.mem_cons.1 hfile with rfl | hfile
    · rw [effects_writing_of_not_written now _ (hd.output_not_written way), effects_replacing,
        Function.update_self]
    · exact ih hd.tail hrest hfile

/-- Their drafts are not. -/
theorem effects_writing_draft (hd : Distinct made) (hfault : firstFault? made = none)
    (hfile : file ∈ made) :
    Operation.effects now seen (writing way made) (way ++ [draftName file.1]) = none := by
  induction made generalizing seen with
  | nil => cases hfile
  | cons first made ih =>
    obtain ⟨hc, hrest⟩ := of_firstFault?_cons_eq_none hfault
    rw [writing_cons_of_ok hc, effects_append]
    rcases List.mem_cons.1 hfile with rfl | hfile
    · rw [effects_writing_of_not_written now _ (hd.draft_not_written way), effects_replacing,
        Function.update_of_ne, Function.update_self]
      exact fun he => draftName_ne file.1 (concat_inj he).2
    · exact ih hd.tail hrest hfile

theorem writing_append_of_no_fault (way : Path) (hfault : firstFault? made = none) :
    writing way (made ++ rest) = writing way made ++ writing way rest := by
  induction made with
  | nil => rfl
  | cons file made ih =>
    obtain ⟨hc, hmade⟩ := of_firstFault?_cons_eq_none hfault
    rw [List.cons_append, writing_cons_of_ok hc, writing_cons_of_ok hc, ih hmade,
      List.append_assoc]

theorem writing_append_of_fault (way : Path) (hfault : firstFault? made ≠ none) :
    writing way (made ++ rest) = writing way made := by
  induction made with
  | nil => exact absurd rfl hfault
  | cons file made ih =>
    rw [List.cons_append]
    rcases hc : file.2.encode with fault | bytes
    · rw [writing_cons_of_error hc, writing_cons_of_error hc]
    · rw [writing_cons_of_ok hc, writing_cons_of_ok hc, ih]
      rwa [firstFault?_cons_of_ok hc] at hfault

theorem writing_prefix (way : Path) (made rest : List (Str × Str)) :
    writing way made <+: writing way (made ++ rest) := by
  by_cases hfault : firstFault? made = none
  · rw [writing_append_of_no_fault way hfault]
    exact List.prefix_append _ _
  · rw [writing_append_of_fault way hfault]

/-- **The last file is put in place last**: before that, what is in its place is left as it was. -/
theorem effects_writing_last (hd : Distinct (made ++ [file]))
    (h : operations <+: writing way (made ++ [file]))
    (hne : firstFault? (made ++ [file]) = none → operations ≠ writing way (made ++ [file])) :
    Operation.effects now seen operations (way ++ [file.1]) = seen (way ++ [file.1]) := by
  have hnot : ¬ Written way made (way ++ [file.1]) := by
    intro hw
    obtain ⟨other, hother, hq | hq⟩ := hw.of_file
    · have hnodup := hd.nodup
      rw [List.map_append, List.nodup_append] at hnodup
      exact hnodup.2.2 other.1 (List.mem_map.2 ⟨other, hother, rfl⟩) file.1 (by simp)
        (concat_inj hq).2.symm
    · exact hd.drafts file (by simp) other (by simp [hother]) (concat_inj hq).2
  have hdraft : way ++ [file.1] ≠ way ++ [draftName file.1] := fun he =>
    draftName_ne file.1 (concat_inj he).2.symm
  refine effects_of_not_mem now seen fun operation ho hq => ?_
  by_cases hfault : firstFault? made = none
  · rw [writing_append_of_no_fault way hfault] at h hne
    rcases prefix_append_cases h with hfront | ⟨tail, rfl, htail⟩
    · exact hnot ⟨operation, hfront.subset ho, hq⟩
    · rcases List.mem_append.1 ho with ho | ho
      · exact hnot ⟨operation, ho, hq⟩
      -- of the operations for the last file only the draft is written
      have hwrite : tail <+: [.write (way ++ [draftName file.1]) file.2.bytes] ∨
          tail <+: [.write (way ++ [draftName file.1]) []] := by
        rcases hc : file.2.encode with fault | bytes
        · rw [writing_cons_of_error hc] at htail
          exact .inr htail
        · rw [← Str.bytes_of_encode hc] at hc
          have hwhole : writing way [file] = replacing way file.1 file.2.bytes := by
            rw [writing_cons_of_ok hc]
            exact List.append_nil _
          have hnone : firstFault? (made ++ [file]) = none := by
            rw [firstFault?, List.findSome?_append, ← firstFault?, hfault]
            simp [faultOf?_eq_none.2 hc]
          rw [hwhole] at htail hne
          rcases List.prefix_concat_iff.1 (show tail <+: [_] ++ [_] from htail) with he | hfront
          · exact absurd (congrArg _ he) (hne hnone)
          · exact .inl hfront
      have hplace : operation.places = [way ++ [draftName file.1]] := by
        rcases hwrite with hwrite | hwrite
        · rw [List.mem_singleton.1 (hwrite.subset ho)]
          rfl
        · rw [List.mem_singleton.1 (hwrite.subset ho)]
          rfl
      rw [hplace, List.mem_singleton] at hq
      exact hdraft hq
  · rw [writing_append_of_fault way hfault] at h
    exact hnot ⟨operation, h.subset ho, hq⟩

/-! ### The files of a source -/

theorem artifactFiles_eq (name : Str) (artifacts : GeneratedModule.Artifacts) :
    ∃ front, artifactFiles name artifacts = front ++ [(name ++ moduleSuffix, artifacts.module)] ∧
      List.Sublist ((artifactFiles name artifacts).map Prod.fst)
        [name ++ GeneratedModule.classModuleSuffix, name ++ stylesheetSuffix,
          name ++ moduleSuffix] := by
  refine ⟨_, rfl, ?_⟩
  rw [artifactFiles]
  cases artifacts.classModule <;> cases artifacts.stylesheet <;> simp

theorem Source.Regular.files_isName (h : source.Regular) (artifacts : GeneratedModule.Artifacts) :
    ∀ file ∈ artifactFiles source.name artifacts, IsName file.1 :=
  fun _ hfile => h.isName (mem_outputNames_of_artifactFiles hfile)

theorem distinct_artifactFiles (artifacts : GeneratedModule.Artifacts) :
    Distinct (artifactFiles source.name artifacts) := by
  obtain ⟨-, -, hsub⟩ := artifactFiles_eq source.name artifacts
  refine ⟨List.Nodup.sublist hsub ?_, fun file hfile other _ => ?_⟩
  · have hne {a b : Str} (h : a ≠ b) : source.name ++ a ≠ source.name ++ b :=
      fun he => h (List.append_cancel_left he)
    refine List.nodup_cons.2 ⟨?_, List.nodup_cons.2 ⟨?_, List.nodup_singleton _⟩⟩
    · simp only [List.mem_cons, List.not_mem_nil, or_false, not_or]
      exact ⟨hne (by decide), hne (by decide)⟩
    · simp only [List.mem_cons, List.not_mem_nil, or_false]
      exact hne (by decide)
  · exact Source.output_ne_draft (mem_outputNames_of_artifactFiles hfile) other.1

/-- The first file has the longest name. -/
theorem artifactFiles_longest {name : Str} (h : artifactFiles name artifacts = file :: rest) :
    ∀ other ∈ rest, (Str.bytes other.1).length ≤ (Str.bytes file.1).length := by
  have hle {a b : Str} (hab : (Str.bytes a).length ≤ (Str.bytes b).length) :
      (Str.bytes (name ++ a)).length ≤ (Str.bytes (name ++ b)).length := by
    rw [Str.bytes_append, Str.bytes_append, List.length_append, List.length_append]
    omega
  have hmodule : (Str.bytes moduleSuffix).length ≤ (Str.bytes stylesheetSuffix).length := by
    decide
  have hstylesheet : (Str.bytes stylesheetSuffix).length ≤
      (Str.bytes GeneratedModule.classModuleSuffix).length := by
    decide
  rw [artifactFiles] at h
  intro other hother
  cases hclass : artifacts.classModule with
  | none =>
    cases hstyle : artifacts.stylesheet with
    | none =>
      rw [hclass, hstyle] at h
      cases h
      cases hother
    | some style =>
      rw [hclass, hstyle] at h
      cases h
      cases List.mem_singleton.1 hother
      exact hle hmodule
  | some text =>
    cases hstyle : artifacts.stylesheet with
    | none =>
      rw [hclass, hstyle] at h
      cases h
      cases List.mem_singleton.1 hother
      exact hle (hmodule.trans hstylesheet)
    | some style =>
      rw [hclass, hstyle] at h
      cases h
      rcases List.mem_cons.1 hother with rfl | hother
      · exact hle hstylesheet
      · cases List.mem_singleton.1 hother
        exact hle (hmodule.trans hstylesheet)

/-- If a draft is over the limits, that of the first file is. -/
theorem overLimits?_eq_some (hw : way.Proper) (h : source.Regular)
    (hover : overLimits? way (artifactFiles source.name artifacts) = some file) :
    (∃ rest, artifactFiles source.name artifacts = file :: rest) ∧
      ¬ Path.Fits (way ++ [draftName file.1]) := by
  rw [overLimits?] at hover
  have hnot : ¬ Path.Fits (way ++ [draftName file.1]) := by simpa using List.find?_some hover
  refine ⟨?_, hnot⟩
  have hnames := h.files_isName artifacts
  have hmem := List.mem_of_find?_eq_some hover
  rcases he : artifactFiles source.name artifacts with _ | ⟨first, rest⟩
  · rw [he] at hmem
    cases hmem
  · have hlongest := artifactFiles_longest he
    rw [he] at hover hmem hnames
    by_cases hfirst : Path.Fits (way ++ [draftName first.1])
    · rcases List.mem_cons.1 hmem with rfl | hmem
      · exact absurd hfirst hnot
      · refine absurd (hfirst.of_shorter hw (hnames file (by simp [hmem])).draft
          (hnames first List.mem_cons_self).draft ?_) hnot
        rw [draftName, draftName, Str.bytes_append, Str.bytes_append, List.length_append,
          List.length_append]
        have hle := hlongest file hmem
        omega
    · rw [List.find?_cons_of_pos (by simpa using hfirst)] at hover
      cases hover
      exact ⟨rest, rfl⟩

theorem overLimits?_eq_none (hover : overLimits? way made = none) :
    ∀ file ∈ made, Path.Fits (way ++ [draftName file.1]) := by
  intro file hfile
  simpa using List.find?_eq_none.1 hover file hfile

/-! ### Writing -/

section
variable {others mine : Operation → Prop}

/-- The end of writing files, if nothing else goes wrong. -/
def endOf (made : List (Str × Str)) : Except SourceError Unit :=
  match firstFault? made with
  | none => .ok ()
  | some fault => .error (.unencodable fault)

theorem ok_of_mapError {ε δ α : Type} {f : ε → δ} {result : Except ε α}
    (h : ∃ a, result.mapError f = .ok a) : ∃ a, result = .ok a :=
  h.imp fun _ => of_mapError_ok

theorem runs_writeArtifacts_cons (file : Path × Str) (files : List (Path × Str)) :
    writeArtifacts (file :: files) =
      (writeArtifact file.1 file.2 >>= fun _ => writeArtifacts files) := rfl

/-- Writing one file whose draft meets no link. -/
theorem secures_writeArtifact (hw : way.Proper) (hn : IsName file.1)
    (hplain : Path.Plain disk.root (way ++ [draftName file.1]))
    (hmine : ∀ operation ∈ writing way [file], mine operation) :
    (writeArtifact (way ++ [file.1]) file.2).Secures (.among others mine)
      (fun result acts' _ => Follows acts (writing way [file]) result acts' ∧
        ((∃ a, result = .ok a) → faultOf? file.2 = none)) acts disk := by
  rw [writeArtifact]
  rcases hc : file.2.encode with fault | bytes
  · rw [writing_cons_of_error hc] at hmine ⊢
    dsimp only
    rw [beginFile, draftOf?_append way hn]
    refine .bind (.mapError ((secures_write (hw.concat hn.draft) (by simp) hplain
      (hmine _ List.mem_cons_self)).mono ?_))
    rintro (e | _) acts' mid ⟨hfollows, -⟩
    · exact ⟨hfollows.of_result nofun, nofun⟩
    · exact Work.secures_throw fun _ _ => ⟨hfollows.of_result nofun, nofun⟩
  · have hwhole : writing way [file] = replacing way file.1 bytes := by
      rw [writing_cons_of_ok hc]
      exact List.append_nil _
    rw [hwhole] at hmine ⊢
    refine .mapError ((secures_replaceFile hw hn hplain hmine).mono ?_)
    intro result acts' mid hfollows
    refine ⟨hfollows.of_result ok_of_mapError, fun _ => ?_⟩
    rw [faultOf?, hc]

/-- **Writing files whose drafts meet no link** performs its operations, or the first of them. -/
theorem secures_writeArtifacts (hw : way.Proper) (hnames : ∀ file ∈ made, IsName file.1)
    (hplain : ∀ file ∈ made, Path.Plain disk.root (way ++ [draftName file.1]))
    (hmine : ∀ operation ∈ writing way made, mine operation) :
    (writeArtifacts (inDirectory way made)).Secures (.among others mine)
      (fun result acts' _ => Follows acts (writing way made) result acts' ∧
        ((∃ a, result = .ok a) → firstFault? made = none)) acts disk := by
  induction made generalizing disk acts with
  | nil => exact Work.secures_pure fun _ _ => ⟨⟨[], (List.append_nil _).symm, List.prefix_rfl,
      fun _ => rfl⟩, fun _ => rfl⟩
  | cons file made ih =>
    have hfirst : writing way [file] <+: writing way (file :: made) := writing_prefix way [file] made
    rw [inDirectory, List.map_cons, runs_writeArtifacts_cons]
    refine .bind ((Work.Secures.and_kept
      (fun mid => ∀ other ∈ made, Path.Plain mid.root (way ++ [draftName other.1]))
      (secures_writeArtifact hw (hnames file List.mem_cons_self) (hplain file List.mem_cons_self)
        fun operation ho => hmine operation (hfirst.subset ho))
      (fun other hother => hplain other (List.mem_cons_of_mem _ hother))
      (fun _ _ _ hp hk other hother => hp.plain _ (hk other hother))
      fun _ _ _ hp hk other hother => hp.plain _ (hk other hother)).mono ?_)
    rintro (e | _) acts' mid ⟨⟨⟨operations, rfl, hplanned, hdone⟩, hfault⟩, hmid⟩
    · exact ⟨⟨operations, rfl, hplanned.trans hfirst, by simp⟩, by simp⟩
    · cases hdone ⟨_, rfl⟩
      have hnone : firstFault? [file] = none := by simp [firstFault?, hfault ⟨_, rfl⟩]
      have hsplit : writing way (file :: made) = writing way [file] ++ writing way made :=
        writing_append_of_no_fault way hnone
      refine (ih (fun other hother => hnames other (List.mem_cons_of_mem _ hother)) hmid
        fun operation ho => hmine operation (by rw [hsplit]; simp [ho])).mono ?_
      rintro result acts' last ⟨⟨operations, rfl, hplanned, hdone⟩, hrest⟩
      rw [hsplit]
      refine ⟨⟨writing way [file] ++ operations, List.append_assoc .., ?_, fun hok => ?_⟩,
        fun hok => ?_⟩
      · exact (List.prefix_append_right_inj _).2 hplanned
      · rw [hdone hok]
      · rw [firstFault?, List.findSome?_cons, hfault ⟨_, rfl⟩]
        exact hrest hok

variable {kept : Disk → Prop}

/-- A file in a reserved place is written, if its draft is within the limits and its text can be
written, unless its directory was missing. -/
theorem secures_writeArtifact_reserved (hw : way.Proper) (hn : IsName file.1)
    (hr : Reserved others mine way file.1 kept) (hs : kept disk)
    (hf : Path.Fits (way ++ [draftName file.1]))
    (hmine : ∀ operation ∈ writing way [file], mine operation) :
    (writeArtifact (way ++ [file.1]) file.2).Secures (.among others mine)
      (fun result acts' mid =>
        (∃ e, result = .error (.file e) ∧ acts' = acts ∧ disk.root.see? way ≠ some .directory) ∨
        result = endOf [file] ∧ acts' = acts ++ writing way [file] ∧ kept mid ∧
          mid.root.see? way = some .directory) acts disk := by
  rw [writeArtifact]
  rcases hc : file.2.encode with fault | bytes
  · have hend : endOf [file] = .error (.unencodable fault) := by
      rw [endOf, firstFault?_cons_of_error hc]
    rw [writing_cons_of_error hc] at hmine ⊢
    rw [hend]
    dsimp only
    rw [beginFile, draftOf?_append way hn]
    refine .bind (.mapError ((secures_write_reserved hr hw hn hs hf
      (hmine _ List.mem_cons_self)).mono ?_))
    rintro _ acts' mid (⟨e, rfl, rfl, hnot⟩ | ⟨rfl, rfl, hmid, hdir, -⟩)
    · exact .inl ⟨e, rfl, rfl, hnot⟩
    · refine Work.secures_throw fun last ⟨_, hp⟩ => .inr ⟨rfl, rfl, ?_, hp.directory _ hdir⟩
      exact (hr.others _ _ _ hp hmid).1
  · have hwhole : writing way [file] = replacing way file.1 bytes := by
      rw [writing_cons_of_ok hc]
      exact List.append_nil _
    have hend : endOf [file] = .ok () := by
      rw [endOf, firstFault?_cons_of_ok hc]
      rfl
    rw [hwhole] at hmine ⊢
    rw [hend]
    refine .mapError ((secures_replaceFile_reserved hr hw hn hs hf hmine).mono ?_)
    rintro _ acts' mid (⟨e, rfl, rfl, hnot⟩ | ⟨rfl, rfl, hmid⟩)
    · exact .inl ⟨e, rfl, rfl, hnot⟩
    · exact .inr ⟨rfl, rfl, hmid⟩

/-- **Files in reserved places are written**, if their drafts are within the limits, unless their
directory was missing. -/
theorem secures_writeArtifacts_reserved (hw : way.Proper) (hnames : ∀ file ∈ made, IsName file.1)
    (hr : ∀ file ∈ made, Reserved others mine way file.1 kept) (hs : kept disk)
    (hf : ∀ file ∈ made, Path.Fits (way ++ [draftName file.1]))
    (hmine : ∀ operation ∈ writing way made, mine operation) :
    (writeArtifacts (inDirectory way made)).Secures (.among others mine)
      (fun result acts' _ =>
        (∃ e, result = .error (.file e) ∧ acts' = acts ∧ disk.root.see? way ≠ some .directory) ∨
        result = endOf made ∧ acts' = acts ++ writing way made) acts disk := by
  induction made generalizing disk acts with
  | nil => exact Work.secures_pure fun _ _ => .inr ⟨rfl, (List.append_nil _).symm⟩
  | cons file made ih =>
    have hfirst : writing way [file] <+: writing way (file :: made) := writing_prefix way [file] made
    rw [inDirectory, List.map_cons, runs_writeArtifacts_cons]
    refine .bind ((secures_writeArtifact_reserved hw (hnames file List.mem_cons_self)
      (hr file List.mem_cons_self) hs (hf file List.mem_cons_self)
      fun operation ho => hmine operation (hfirst.subset ho)).mono ?_)
    rintro _ acts' mid (⟨e, rfl, rfl, hnot⟩ | ⟨rfl, rfl, hmid, hdir⟩)
    · exact .inl ⟨e, rfl, rfl, hnot⟩
    · rcases hc : file.2.encode with fault | bytes
      · have hone : writing way (file :: made) = writing way [file] := by
          rw [writing_cons_of_error hc, writing_cons_of_error hc]
        have hend (files : List (Str × Str)) :
            endOf (file :: files) = .error (.unencodable fault) := by
          rw [endOf, firstFault?_cons_of_error hc]
        rw [hend, hend, hone]
        exact .inr ⟨rfl, rfl⟩
      · have hnone : firstFault? [file] = none := firstFault?_cons_of_ok hc []
        have hsplit : writing way (file :: made) = writing way [file] ++ writing way made :=
          writing_append_of_no_fault way hnone
        have hend : endOf (file :: made) = endOf made := by
          rw [endOf, endOf, firstFault?_cons_of_ok hc]
        have hok : endOf [file] = .ok () := by rw [endOf, hnone]
        rw [hok, hsplit, hend]
        refine (ih (fun other hother => hnames other (List.mem_cons_of_mem _ hother))
          (fun other hother => hr other (List.mem_cons_of_mem _ hother)) hmid
          (fun other hother => hf other (List.mem_cons_of_mem _ hother))
          fun operation ho => hmine operation (by rw [hsplit]; simp [ho])).mono ?_
        rintro result acts' last (⟨e, -, -, hnot⟩ | ⟨rfl, rfl⟩)
        · exact absurd hdir hnot
        · exact .inr ⟨rfl, List.append_assoc ..⟩

/-- **A draft over the limits** stops everything before anything is done. -/
theorem secures_writeArtifacts_too_long (hw : way.Proper) (hn : IsName file.1)
    (hr : Reserved others mine way file.1 kept) (hs : kept disk)
    (hf : ¬ Path.Fits (way ++ [draftName file.1])) :
    (writeArtifacts (inDirectory way (file :: rest))).Secures (.among others mine)
      (fun result acts' _ => ∃ e, result = .error (.file e) ∧ acts' = acts ∧
        (disk.root.see? way = some .directory → e = ⟨.nameTooLong, way ++ [draftName file.1], none⟩))
      acts disk := by
  rw [inDirectory, List.map_cons, runs_writeArtifacts_cons, writeArtifact]
  -- the text does not matter, since not even the draft can be written
  rcases file.2.encode with fault | bytes
  · dsimp only
    rw [beginFile, draftOf?_append way hn]
    refine .bind (.bind (.mapError ((secures_write_too_long hr hw hn hs hf).mono ?_)))
    rintro _ acts' mid ⟨e, rfl, rfl, he⟩
    exact ⟨e, rfl, rfl, he⟩
  · dsimp only
    rw [replaceFile, draftOf?_append way hn]
    refine .bind (.mapError (.bind ((secures_write_too_long hr hw hn hs hf).mono ?_)))
    rintro _ acts' mid ⟨e, rfl, rfl, he⟩
    exact ⟨e, rfl, rfl, he⟩

end

end Build
end TemplateBindings
