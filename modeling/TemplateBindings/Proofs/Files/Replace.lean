import TemplateBindings.Proofs.Files.Directories

/-!
# Replacing files

A file is replaced by writing its successor under the name of a draft and moving it into place. The
operations of this are known ahead (`TemplateBindings.Files.replacing`): where work stops early, a
first part of them was performed (`TemplateBindings.Files.Performs`), and where drafts are no links
it is plain to see what they do. They all succeed in a directory whose places are not taken by
other directories, if the draft, the longest of the names, is within the limits.
-/

namespace TemplateBindings
namespace Files

variable {disk : Disk} {root : Entry} {path way : Path} {name other addition : Str}
  {bytes : List UInt8} {now : Int} {ε α : Type}

/-! ### Drafts -/

/-- The name of a file while it is being written. -/
def draftName (name : Str) : Str := name ++ ".tmp".toList

/-- A name stays one with letters and dots behind it. -/
theorem IsName.append (h : IsName name) (hs : slash ∉ addition) (hz : null ∉ addition)
    (hlen : 2 < addition.length) : IsName (name ++ addition) := by
  obtain ⟨-, -, -, hslash, hnull⟩ := h
  have hlong : 2 < (name ++ addition).length := by
    rw [List.length_append]
    omega
  refine ⟨fun he => ?_, fun he => ?_, fun he => ?_, ?_, ?_⟩
  · rw [he] at hlong
    exact absurd hlong (by decide)
  · rw [he] at hlong
    exact absurd hlong (by decide)
  · rw [he] at hlong
    exact absurd hlong (by decide)
  · simp [hslash, hs]
  · simp [hnull, hz]

theorem IsName.draft (h : IsName name) : IsName (draftName name) :=
  h.append (by decide) (by decide) (by decide)

theorem draftOf?_append (way : Path) (h : IsName name) :
    draftOf? (way ++ [name]) = some (way ++ [draftName name]) := by
  obtain ⟨c, cs, rfl⟩ := List.exists_cons_of_ne_nil h.1
  simp [draftOf?, Path.extended?, draftName]

theorem draftName_ne (name : Str) : draftName name ≠ name := by
  intro h
  have hlen := congrArg List.length h
  simp [draftName] at hlen

theorem draftName_inj (h : draftName name = draftName other) : name = other :=
  List.append_cancel_right h

theorem concat_inj {a b : Path} {m n : Str} (h : a ++ [m] = b ++ [n]) : a = b ∧ m = n := by
  obtain ⟨ha, hm⟩ := List.append_inj' h rfl
  exact ⟨ha, List.head_eq_of_cons_eq hm⟩

theorem Path.Proper.concat (hw : way.Proper) (hn : IsName name) : Path.Proper (way ++ [name]) := by
  intro n hm
  rcases List.mem_append.1 hm with hm | hm
  · exact hw n hm
  · rwa [List.mem_singleton.1 hm]

/-! ### Limits -/

/-- A path with a shorter last name is within the limits too. -/
theorem Path.Fits.of_shorter (hw : way.Proper) (hn : IsName name) (ho : IsName other)
    (hle : (Str.bytes name).length ≤ (Str.bytes other).length)
    (h : Path.Fits (way ++ [other])) : Path.Fits (way ++ [name]) := by
  refine ⟨?_, fun n hm => ?_⟩
  · obtain ⟨front, hfront⟩ := Text.exists_joined_append [slash] way
    have hlast (name : Str) : Text.joined [slash] (way ++ [name]) = front ++ name :=
      hfront (List.cons_ne_nil name [])
    have hlen := h.1
    rw [Path.render_of_proper (hw.concat ho), hlast, ← List.cons_append, Str.bytes_append,
      List.length_append] at hlen
    rw [Path.render_of_proper (hw.concat hn), hlast, ← List.cons_append, Str.bytes_append,
      List.length_append]
    omega
  · rcases List.mem_append.1 hm with hm | hm
    · exact h.2 n (List.mem_append_left _ hm)
    · have hlen := h.2 other (by simp)
      rw [List.mem_singleton.1 hm]
      omega

theorem Path.Fits.of_draft (hw : way.Proper) (hn : IsName name)
    (h : Path.Fits (way ++ [draftName name])) : Path.Fits (way ++ [name]) :=
  h.of_shorter hw hn hn.draft (by rw [draftName, Str.bytes_append, List.length_append]; omega)

/-! ### Operations planned and performed -/

/-- **The operations that replace a file** in a directory. -/
def replacing (way : Path) (name : Str) (bytes : List UInt8) : List Operation :=
  [.write (way ++ [draftName name]) bytes, .move (way ++ [draftName name]) (way ++ [name])]

/-- What is seen after a file was replaced. -/
theorem effects_replacing (now : Int) (seen : Seen) (way : Path) (name : Str)
    (bytes : List UInt8) :
    Operation.effects now seen (replacing way name bytes) =
      Function.update (Function.update seen (way ++ [draftName name]) none) (way ++ [name])
        (some (.file bytes now)) := by
  rw [replacing, Operation.effects, List.foldl_cons, List.foldl_cons, List.foldl_nil,
    Operation.effect, Operation.effect, Function.update_self, Function.update_idem]

/-- **Operations of a plan are performed** in their order, behind others, and all of them if nothing
goes wrong. -/
def Follows (acts plan : List Operation) (result : Except ε α) (acts' : List Operation) : Prop :=
  ∃ operations, acts' = acts ++ operations ∧ operations <+: plan ∧
    ((∃ a, result = .ok a) → operations = plan)

/-- Nothing was performed yet. -/
theorem Follows.error {acts plan : List Operation} (e : ε) :
    Follows acts plan (.error e : Except ε α) acts :=
  ⟨[], (List.append_nil _).symm, List.nil_prefix, by simp⟩

/-- It is only whether work ends well that matters. -/
theorem Follows.of_result {δ β : Type} {acts plan acts' : List Operation} {result : Except ε α}
    {result' : Except δ β} (h : Follows acts plan result acts')
    (hr : (∃ b, result' = .ok b) → ∃ a, result = .ok a) : Follows acts plan result' acts' := by
  obtain ⟨operations, he, hplanned, hdone⟩ := h
  exact ⟨operations, he, hplanned, fun hok => hdone (hr hok)⟩

variable {others mine : Operation → Prop} {acts : List Operation}

theorem plain_of_write (hd : (Operation.write path bytes).Direct disk.root)
    (ha : (Operation.write path bytes).apply disk.now disk.root = .ok root) {q : Path}
    (hplain : q.Plain disk.root) : q.Plain root := by
  intro w hw target hl
  rw [(Operation.of_apply hd ha).2, Operation.effect, Function.update_apply] at hl
  split at hl
  · cases hl
  · exact hplain w hw target hl

/-- **Writing a draft among others.** -/
theorem secures_write (hp : path.Proper) (hne : path ≠ []) (hplain : path.Plain disk.root)
    (hmine : mine (.write path bytes)) :
    (perform (.write path bytes)).Secures (.among others mine)
      (fun result acts' mid => Follows acts [.write path bytes] result acts' ∧ path.Plain mid.root)
      acts disk := by
  refine (Work.secures_perform_among hmine rfl (fun mid root hmid ha => ?_)
    fun mid e _ _ last _ => .error e).and_plain hplain
  have hplain' := hplain.of_rely hmid
  have hd : (Operation.write path bytes).Direct mid.root :=
    ⟨⟨hne, hp, hplain'.straight⟩, hplain'⟩
  exact ⟨hd, fun q => plain_of_write hd ha, fun last _ => ⟨_, rfl, List.prefix_rfl, fun _ => rfl⟩⟩

theorem plain_of_move {source target : Path}
    (hd : (Operation.move source target).Direct disk.root) (hplain : source.Plain disk.root)
    (ha : (Operation.move source target).apply disk.now disk.root = .ok root) {q : Path}
    (hq : q.Plain disk.root) : q.Plain root := by
  intro w hw link hl
  rw [(Operation.of_apply hd ha).2, Operation.effect, Function.update_apply,
    Function.update_apply] at hl
  split at hl
  · exact hplain source List.prefix_rfl link hl
  · split at hl
    · cases hl
    · exact hq w hw link hl

/-- **Replacing a file whose draft meets no link** performs its operations, or the first of them. -/
theorem secures_replaceFile (hw : way.Proper) (hn : IsName name)
    (hplain : Path.Plain disk.root (way ++ [draftName name]))
    (hmine : ∀ operation ∈ replacing way name bytes, mine operation) :
    (replaceFile (way ++ [name]) bytes).Secures (.among others mine)
      (fun result acts' _ => Follows acts (replacing way name bytes) result acts') acts disk := by
  rw [replaceFile, draftOf?_append way hn]
  refine .bind ((secures_write (hw.concat hn.draft) (by simp) hplain
    (hmine _ (by simp [replacing]))).mono ?_)
  rintro (e | _) acts' mid ⟨⟨operations, rfl, hplanned, hdone⟩, hmid⟩
  · exact ⟨operations, rfl, hplanned.trans ⟨_, rfl⟩, by simp⟩
  · cases hdone ⟨_, rfl⟩
    refine Work.secures_perform_among (hmine _ (by simp [replacing])) rfl
      (fun disk root hdisk ha => ?_) fun _ e _ _ _ _ => ⟨_, rfl, ⟨_, rfl⟩, by simp⟩
    have hdraft := hmid.of_rely hdisk
    have hway : Path.Plain disk.root way := hdraft.of_isPrefix (List.prefix_append _ _)
    have hmove : (Operation.move (way ++ [draftName name]) (way ++ [name])).Direct disk.root :=
      ⟨⟨by simp, hw.concat hn.draft, hdraft.straight⟩, ⟨by simp, hw.concat hn, hway.straight_concat name⟩⟩
    exact ⟨hmove, fun q => plain_of_move hmove hdraft ha, fun last _ =>
      ⟨replacing way name bytes, List.append_assoc .., List.prefix_rfl, fun _ => rfl⟩⟩

/-! ### Room for files -/

/-- **A place for a file and its draft**: only directories are on the way, and neither is taken by
something that is no file. -/
structure Vacancy (files : Entry) (way : Path) (name : Str) : Prop where
  /-- The way is free. -/
  free : way.Free files
  /-- The draft can be written. -/
  draft : Sight.isWritable (files.see? (way ++ [draftName name]))
  /-- The file can be put in place. -/
  output : files.see? (way ++ [name]) ≠ some .directory

theorem Vacancy.plain (h : Vacancy root way name) : Path.Plain root (way ++ [draftName name]) := by
  intro q hq target hl
  rcases List.prefix_concat_iff.1 hq with rfl | hq
  · have hdraft := h.draft
    rw [hl] at hdraft
    exact hdraft
  · exact h.free.plain q hq target hl

theorem direct_of_vacancy (hw : way.Proper) (hn : IsName name) (h : Vacancy root way name)
    (bytes : List UInt8) : (Operation.write (way ++ [draftName name]) bytes).Direct root :=
  ⟨⟨by simp, hw.concat hn.draft, h.plain.straight⟩, h.plain⟩

/-- **A place that is reserved for work**: something holds that everyone keeps, the place is vacant
while it does, and the others leave the draft alone. -/
structure Reserved (others mine : Operation → Prop) (way : Path) (name : Str)
    (kept : Disk → Prop) : Prop where
  /-- The place is vacant. -/
  vacancy : ∀ disk, kept disk → Vacancy disk.root way name
  /-- The others keep it so, and leave the draft alone. -/
  others : ∀ operations disk disk', Disk.Performs others operations disk disk' → kept disk →
    kept disk' ∧
      disk'.root.see? (way ++ [draftName name]) = disk.root.see? (way ++ [draftName name])
  /-- The work itself keeps it so. -/
  mine : ∀ operations disk disk', Disk.Performs mine operations disk disk' → kept disk → kept disk'

section
variable {kept : Disk → Prop} (hr : Reserved others mine way name kept) (hw : way.Proper)
  (hn : IsName name) (hs : kept disk)
include hr hw hn hs

/-- A draft within the limits is written, unless its directory was missing. -/
theorem secures_write_reserved (hf : Path.Fits (way ++ [draftName name]))
    (hmine : mine (.write (way ++ [draftName name]) bytes)) :
    (perform (.write (way ++ [draftName name]) bytes)).Secures (.among others mine)
      (fun result acts' mid =>
        (∃ e, result = .error e ∧ acts' = acts ∧ disk.root.see? way ≠ some .directory) ∨
        result = .ok () ∧ acts' = acts ++ [.write (way ++ [draftName name]) bytes] ∧ kept mid ∧
          mid.root.see? way = some .directory ∧
          ∃ time, mid.root.see? (way ++ [draftName name]) = some (.file bytes time)) acts disk := by
  refine Work.secures_perform_among hmine rfl (fun mid root ⟨_, hp⟩ ha => ?_)
    fun mid e ⟨_, hp⟩ he last _ => .inl ⟨e, rfl, rfl, fun hdir => ?_⟩
  · have hmid := (hr.others _ _ _ hp hs).1
    have hd := direct_of_vacancy hw hn (hr.vacancy mid hmid) bytes
    obtain ⟨⟨⟨-, above, n, hsplit, hdir⟩, -⟩, hsee⟩ := Operation.of_apply hd ha
    obtain ⟨rfl, -⟩ := concat_inj hsplit
    refine ⟨hd, fun q => plain_of_write hd ha, fun last ⟨_, hp'⟩ => .inr ⟨rfl, rfl, ?_⟩⟩
    have hsingle := Disk.Performs.single hmine hd rfl ha fun q => plain_of_write hd ha
    obtain ⟨hlast, hdraft⟩ := hr.others _ _ _ hp' (hr.mine _ _ _ hsingle hmid)
    refine ⟨hlast, hp'.directory _ (hsingle.directory _ hdir), mid.now, hdraft.trans ?_⟩
    change root.see? _ = _
    rw [hsee, Operation.effect, Function.update_self]
  · have hmid := hr.vacancy mid (hr.others _ _ _ hp hs).1
    obtain ⟨root, ha⟩ := Operation.apply_of_possible mid.now (direct_of_vacancy hw hn hmid bytes)
      ⟨⟨hf, way, _, rfl, hp.directory _ hdir⟩, hmid.draft⟩
    cases he.symm.trans ha

/-- **A file is replaced**, if its draft is within the limits, unless its directory was missing. -/
theorem secures_replaceFile_reserved (hf : Path.Fits (way ++ [draftName name]))
    (hmine : ∀ operation ∈ replacing way name bytes, mine operation) :
    (replaceFile (way ++ [name]) bytes).Secures (.among others mine)
      (fun result acts' mid =>
        (∃ e, result = .error e ∧ acts' = acts ∧ disk.root.see? way ≠ some .directory) ∨
        result = .ok () ∧ acts' = acts ++ replacing way name bytes ∧ kept mid ∧
          mid.root.see? way = some .directory) acts disk := by
  rw [replaceFile, draftOf?_append way hn]
  refine .bind ((secures_write_reserved hr hw hn hs hf (hmine _ (by simp [replacing]))).mono ?_)
  rintro _ _ mid (⟨e, rfl, rfl, hnot⟩ | ⟨rfl, rfl, hmid, hdir, time, hfile⟩)
  · exact .inl ⟨e, rfl, rfl, hnot⟩
  have hdirect {disk : Disk} (h : Vacancy disk.root way name) :
      (Operation.move (way ++ [draftName name]) (way ++ [name])).Direct disk.root :=
    ⟨⟨by simp, hw.concat hn.draft, h.plain.straight⟩,
      ⟨by simp, hw.concat hn, Path.Plain.straight_concat h.free.plain name⟩⟩
  refine Work.secures_perform_among (hmine _ (by simp [replacing])) rfl
    (fun last root ⟨_, hp⟩ ha => ?_) fun last e ⟨_, hp⟩ he => ?_
  · have hlast := (hr.others _ _ _ hp hmid).1
    have hd := hdirect (hr.vacancy last hlast)
    have hplain {q : Path} : q.Plain last.root → q.Plain root :=
      plain_of_move hd (hr.vacancy last hlast).plain ha
    have hsingle := Disk.Performs.single (hmine (.move _ _) (by simp [replacing])) hd rfl ha
      fun q => hplain
    refine ⟨hd, fun q => hplain, fun final ⟨_, hp'⟩ => .inr ⟨rfl, List.append_assoc .., ?_, ?_⟩⟩
    · exact (hr.others _ _ _ hp' (hr.mine _ _ _ hsingle hlast)).1
    · exact hp'.directory _ (hsingle.directory _ (hp.directory _ hdir))
  · obtain ⟨hlast, hdraft⟩ := hr.others _ _ _ hp hmid
    rw [hfile] at hdraft
    have hthere := hp.directory _ hdir
    obtain ⟨root, ha⟩ := Operation.apply_of_possible last.now (hdirect (hr.vacancy last hlast))
      ⟨⟨⟨hf, way, _, rfl, hthere⟩, by simp [hdraft], by simp [hdraft]⟩,
        ⟨hf.of_draft hw hn, way, _, rfl, hthere⟩, (hr.vacancy last hlast).output⟩
    cases he.symm.trans ha

/-- **A draft over the limits** is not written. -/
theorem secures_write_too_long (hf : ¬ Path.Fits (way ++ [draftName name])) :
    (perform (.write (way ++ [draftName name]) bytes)).Secures (.among others mine)
      (fun result acts' _ => ∃ e, result = .error e ∧ acts' = acts ∧
        (disk.root.see? way = some .directory → e = ⟨.nameTooLong, way ++ [draftName name], none⟩))
      acts disk := by
  refine Work.secures_perform fun mid ⟨_, hp⟩ => ⟨[], ?_⟩
  have hd := direct_of_vacancy hw hn (hr.vacancy mid (hr.others _ _ _ hp hs).1) bytes
  rcases ha : (Operation.write (way ++ [draftName name]) bytes).apply mid.now mid.root with e | root
  · have hattempt : mid.attempt (.write (way ++ [draftName name]) bytes) = mid := by
      rw [Disk.attempt, ha]
    rw [hattempt]
    refine ⟨.nil mine mid, fun last _ => ⟨e, rfl, List.append_nil _, fun hdir => ?_⟩⟩
    have hlong : (Operation.write (way ++ [draftName name]) bytes).apply mid.now mid.root =
        .error ⟨.nameTooLong, way ++ [draftName name], none⟩ := by
      refine Operation.apply_eq_error ?_
      rw [Operation.change, writeWith,
        locate_too_long (hw.concat hn.draft) hf (hp.directory _ hdir)]
    exact Except.error.inj (ha.symm.trans hlong)
  · exact absurd (Operation.of_apply hd ha).1.1.1 hf

end

end Files
end TemplateBindings
