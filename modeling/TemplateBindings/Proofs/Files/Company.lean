import TemplateBindings.Proofs.Files.Work
import TemplateBindings.Proofs.Thread.Secures

/-!
# Work in company

Work on a disk that others work on too. What they may do, and what the operations of the work itself
do, make up its company (`TemplateBindings.Files.Company`). What the work comes to in it
(`TemplateBindings.Files.Work.Secures`) follows from what its parts come to. Two kinds of company are
met here: others of which nothing is known (`TemplateBindings.Files.Company.strangers`), and others
that perform operations of some kind and bring no links
(`TemplateBindings.Files.Company.among`).
-/

namespace TemplateBindings
namespace Files

variable {ε δ α β : Type} {disk disk' mid : Disk} {operation : Operation}
  {operations first second acts : List Operation} {others mine allowed : Operation → Prop}

/-- **The company of work**: what others may do to the disk between its steps, and what the work does
in them. -/
structure Company where
  /-- What the others may do. -/
  rely : Disk → Disk → Prop
  /-- What the operations of the work do. -/
  own : List Operation → Disk → Disk → Prop
  /-- The others may do nothing. -/
  refl : ∀ disk, rely disk disk
  /-- They may go on. -/
  trans : ∀ {disk mid disk'}, rely disk mid → rely mid disk' → rely disk disk'
  /-- The work may do nothing in a step. -/
  nil : ∀ disk, own [] disk disk
  /-- It may go on. -/
  append : ∀ {first second disk mid disk'}, own first disk mid → own second mid disk' →
    own (first ++ second) disk disk'

/-- The company of work that performs nothing, among the same others. -/
def Company.onlooking (company : Company) : Company where
  rely := company.rely
  own operations disk disk' := operations = [] ∧ disk = disk'
  refl := company.refl
  trans := company.trans
  nil disk := ⟨rfl, rfl⟩
  append h h' := by
    obtain ⟨rfl, rfl⟩ := h
    obtain ⟨rfl, rfl⟩ := h'
    exact ⟨rfl, rfl⟩

namespace Work

variable {company : Company} {post post' : Except ε α → List Operation → Disk → Prop}
  {work : Work ε α}

/-- **Work secures its end** in company, on a disk, with some operations performed before. -/
def Secures (company : Company) (post : Except ε α → List Operation → Disk → Prop) (work : Work ε α)
    (acts : List Operation) (disk : Disk) : Prop :=
  Thread.Secures company.rely company.own post (ExceptT.run work) acts disk

/-! ### Putting work together -/

theorem secures_pure {a : α} (h : ∀ mid, company.rely disk mid → post (.ok a) acts mid) :
    (pure a : Work ε α).Secures company post acts disk := h

theorem secures_throw {e : ε} (h : ∀ mid, company.rely disk mid → post (.error e) acts mid) :
    (throw e : Work ε α).Secures company post acts disk := h

/-- A question is answered at some moment, and the others may go on after it. -/
theorem secures_ask {question : Entry → Except ε α}
    (h : ∀ mid, company.rely disk mid → ∀ last, company.rely mid last →
      post (question mid.root) acts last) :
    (ask question).Secures company post acts disk := fun mid hmid =>
  ⟨[], company.nil mid, by rw [List.append_nil]; exact h mid hmid⟩

theorem secures_perform {post : Except FileError Unit → List Operation → Disk → Prop}
    (h : ∀ mid, company.rely disk mid → ∃ more, company.own more mid (mid.attempt operation) ∧
      ∀ last, company.rely (mid.attempt operation) last →
        post ((operation.apply mid.now mid.root).map fun _ => ()) (acts ++ more) last) :
    (perform operation).Secures company post acts disk := h

namespace Secures

theorem of_rely (h : work.Secures company post acts disk) (hs : company.rely disk mid) :
    work.Secures company post acts mid := Thread.Secures.of_rely company.trans h hs

theorem mono (h : work.Secures company post acts disk)
    (hpost : ∀ result acts disk, post result acts disk → post' result acts disk) :
    work.Secures company post' acts disk := Thread.Secures.mono h (fun _ _ _ => id) hpost

/-- **Work in two parts** secures what its second part secures where the first ends well, and what
the first does where it fails. -/
theorem bind {next : α → Work ε β} {post : Except ε β → List Operation → Disk → Prop}
    (h : work.Secures company (fun result acts disk =>
      match result with
      | .ok a => (next a).Secures company post acts disk
      | .error e => post (.error e) acts disk) acts disk) :
    (work >>= next).Secures company post acts disk := by
  refine Thread.Secures.bind company.refl
    (Thread.Secures.mono (Thread.Secures.lasting company.trans h) (fun _ _ _ => id) ?_)
  rintro (e | a) acts disk hend
  · exact hend
  · exact hend disk (company.refl disk)

theorem tryCatch {handle : ε → Work ε α}
    (h : work.Secures company (fun result acts disk =>
      match result with
      | .ok a => post (.ok a) acts disk
      | .error e => (handle e).Secures company post acts disk) acts disk) :
    (tryCatch work handle).Secures company post acts disk := by
  refine Thread.Secures.bind company.refl
    (Thread.Secures.mono (Thread.Secures.lasting company.trans h) (fun _ _ _ => id) ?_)
  rintro (e | a) acts disk hend
  · exact hend disk (company.refl disk)
  · exact hend

theorem mapError {f : ε → δ} {post : Except δ α → List Operation → Disk → Prop}
    (h : work.Secures company (fun result => post (result.mapError f)) acts disk) :
    (work.mapError f).Secures company post acts disk :=
  Thread.Secures.bind company.refl (Thread.Secures.lasting company.trans h)

/-- Work may start with a question. -/
theorem ask_bind {question : Entry → Except ε α} {next : α → Work ε β}
    {post : Except ε β → List Operation → Disk → Prop}
    (hok : ∀ mid a, company.rely disk mid → question mid.root = .ok a →
      (next a).Secures company post acts mid)
    (herror : ∀ mid e, company.rely disk mid → question mid.root = .error e →
      ∀ last, company.rely mid last → post (.error e) acts last) :
    (ask question >>= next).Secures company post acts disk := by
  refine bind (secures_ask fun mid hmid last hlast => ?_)
  rcases hq : question mid.root with e | a
  · exact herror mid e hmid hq last hlast
  · exact (hok mid a hmid hq).of_rely hlast

/-- **Work without others** comes to what it secures. -/
theorem runOn (h : work.Secures company post [] disk) :
    ∃ operations, company.own operations disk (work.runOn disk).2 ∧
      post (work.runOn disk).1 operations (work.runOn disk).2 := by
  obtain ⟨operations, hown, hpost⟩ := Thread.Secures.run h company.refl company.nil company.append
  exact ⟨operations, hown, hpost⟩

end Secures

/-! ### Work that only asks -/

/-- **Work that performs nothing**, in whatever company. -/
def Quiet (work : Work ε α) : Prop :=
  ∀ company acts disk, work.Secures company (fun _ acts' _ => acts' = acts) acts disk

theorem quiet_pure (a : α) : Quiet (pure a : Work ε α) := fun _ _ _ => secures_pure fun _ _ => rfl

theorem quiet_throw (e : ε) : Quiet (throw e : Work ε α) := fun _ _ _ =>
  secures_throw fun _ _ => rfl

theorem quiet_ofExcept (result : Except ε α) :
    Quiet (MonadExcept.ofExcept result : Work ε α) := by
  cases result with
  | error e => exact quiet_throw e
  | ok a => exact quiet_pure a

theorem quiet_ask (question : Entry → Except ε α) : Quiet (ask question) := fun _ _ _ =>
  secures_ask fun _ _ _ _ => rfl

theorem Quiet.bind {next : α → Work ε β} (h : Quiet work) (hnext : ∀ a, Quiet (next a)) :
    Quiet (work >>= next) := fun company acts disk => by
  refine .bind ((h company acts disk).mono ?_)
  rintro (e | a) acts' mid rfl
  · rfl
  · exact hnext a company acts' mid

/-- **Work that comes to an answer** without performing anything, whenever the others let it begin. -/
def Answers (company : Company) (disk : Disk) (work : Work ε α) (answer : Except ε α) : Prop :=
  ∀ acts mid, company.rely disk mid → work.Secures company
    (fun result acts' last => result = answer ∧ acts' = acts ∧ company.rely disk last) acts mid

theorem answers_pure (a : α) : Answers company disk (pure a : Work ε α) (.ok a) := fun _ _ hmid =>
  secures_pure fun _ hlast => ⟨rfl, rfl, company.trans hmid hlast⟩

theorem answers_throw (e : ε) : Answers company disk (throw e : Work ε α) (.error e) :=
  fun _ _ hmid => secures_throw fun _ hlast => ⟨rfl, rfl, company.trans hmid hlast⟩

theorem answers_ofExcept (answer : Except ε α) :
    Answers company disk (MonadExcept.ofExcept answer : Work ε α) answer := by
  cases answer with
  | error e => exact answers_throw e
  | ok a => exact answers_pure a

/-- A question is answered for certain if the answer is the same all the time. -/
theorem answers_ask {question : Entry → Except ε α} {answer : Except ε α}
    (h : ∀ mid, company.rely disk mid → question mid.root = answer) :
    Answers company disk (ask question) answer := fun _ _ hmid =>
  secures_ask fun mid' hmid' _ hlast =>
    have hnow := company.trans hmid hmid'
    ⟨h mid' hnow, rfl, company.trans hnow hlast⟩

theorem Answers.bind {next : α → Work ε β} {answer : Except ε α} {final : α → Except ε β}
    (h : Answers company disk work answer)
    (hnext : ∀ a, answer = .ok a → Answers company disk (next a) (final a)) :
    Answers company disk (work >>= next) (answer >>= final) := fun acts mid hmid => by
  refine .bind ((h acts mid hmid).mono ?_)
  rintro (e | a) acts' last ⟨rfl, rfl, hlast⟩
  · exact ⟨rfl, rfl, hlast⟩
  · exact hnext a rfl acts' last hlast

end Work

/-! ### Others without links -/

/-- **Operations of a kind lead from one disk to another**; they bring no link, and take no directory
away. -/
structure Disk.Performs (allowed : Operation → Prop) (operations : List Operation)
    (disk disk' : Disk) : Prop where
  /-- They lead there. -/
  undergoes : disk.Undergoes operations disk'
  /-- They are of the kind. -/
  allowed : ∀ operation ∈ operations, allowed operation
  /-- No link appears on a path without one. -/
  plain : ∀ path : Path, path.Plain disk.root → path.Plain disk'.root
  /-- Directories stay. -/
  directory : ∀ q, disk.root.see? q = some .directory → disk'.root.see? q = some .directory

namespace Disk.Performs

theorem nil (allowed : Operation → Prop) (disk : Disk) : Performs allowed [] disk disk :=
  ⟨.nil disk, by simp, fun _ => id, fun _ => id⟩

theorem append (h : Performs allowed first disk mid) (h' : Performs allowed second mid disk') :
    Performs allowed (first ++ second) disk disk' where
  undergoes := h.undergoes.append h'.undergoes
  allowed operation ho := (List.mem_append.1 ho).elim (h.allowed operation) (h'.allowed operation)
  plain path hp := h'.plain path (h.plain path hp)
  directory q hq := h'.directory q (h.directory q hq)

theorem mono (h : Performs allowed operations disk disk')
    (hallowed : ∀ operation, allowed operation → mine operation) :
    Performs mine operations disk disk' :=
  { h with allowed := fun operation ho => hallowed operation (h.allowed operation ho) }

theorem single {root : Entry} (hallowed : allowed operation) (hd : operation.Direct disk.root)
    (hr : operation.removes = false) (ha : operation.apply disk.now disk.root = .ok root)
    (hplain : ∀ path : Path, path.Plain disk.root → path.Plain root) :
    Performs allowed [operation] disk (disk.after operation root) where
  undergoes := .single hd ha
  allowed _ ho := List.mem_singleton.1 ho ▸ hallowed
  plain := hplain
  directory _ hq := Operation.directory_of_apply hr ha hq

end Disk.Performs

/-- **Others that perform operations of a kind**, while the work performs operations of another. -/
def Company.among (others mine : Operation → Prop) : Company where
  rely disk disk' := ∃ operations, Disk.Performs others operations disk disk'
  own := Disk.Performs mine
  refl disk := ⟨[], .nil others disk⟩
  trans h h' := by
    obtain ⟨first, hfirst⟩ := h
    obtain ⟨second, hsecond⟩ := h'
    exact ⟨_, hfirst.append hsecond⟩
  nil := .nil mine
  append := .append

/-- Those who may perform nothing leave what they found. -/
theorem Disk.Performs.eq_of_none (h : Disk.Performs (fun _ => False) operations disk disk') :
    disk = disk' := by
  cases h.undergoes with
  | nil => rfl
  | cons => exact absurd (h.allowed _ List.mem_cons_self) id

namespace Work

variable {post : Except ε α → List Operation → Disk → Prop} {work : Work ε α} {path : Path}

/-- **An operation among others** is performed, or fails. -/
theorem secures_perform_among {post : Except FileError Unit → List Operation → Disk → Prop}
    (hmine : mine operation) (hr : operation.removes = false)
    (hok : ∀ mid root, (Company.among others mine).rely disk mid →
      operation.apply mid.now mid.root = .ok root →
        operation.Direct mid.root ∧ (∀ path : Path, path.Plain mid.root → path.Plain root) ∧
          ∀ last, (Company.among others mine).rely (mid.after operation root) last →
            post (.ok ()) (acts ++ [operation]) last)
    (herror : ∀ mid e, (Company.among others mine).rely disk mid →
      operation.apply mid.now mid.root = .error e →
        ∀ last, (Company.among others mine).rely mid last → post (.error e) acts last) :
    (perform operation).Secures (.among others mine) post acts disk := by
  refine secures_perform fun mid hmid => ?_
  rcases ha : operation.apply mid.now mid.root with e | root
  · refine ⟨[], ?_, fun last hlast => ?_⟩
    · rw [Disk.attempt, ha]
      exact .nil mine mid
    · rw [Disk.attempt, ha] at hlast
      rw [List.append_nil]
      exact herror mid e hmid ha last hlast
  · obtain ⟨hd, hplain, hpost⟩ := hok mid root hmid ha
    refine ⟨[operation], ?_, fun last hlast => hpost last ?_⟩
    · rw [Disk.attempt, ha]
      exact .single hmine hd hr ha hplain
    · rwa [Disk.attempt, ha] at hlast

/-- Operations of a kind are of any wider one. -/
theorem Secures.wider {mine' : Operation → Prop} (h : work.Secures (.among others mine) post acts disk)
    (hmine : ∀ operation, mine operation → mine' operation) :
    work.Secures (.among others mine') post acts disk :=
  Thread.Secures.mono h (fun _ _ _ hp => Disk.Performs.mono hp hmine) fun _ _ _ => id

/-- **What everyone keeps** holds in the end. -/
theorem Secures.and_kept (kept : Disk → Prop) (h : work.Secures (.among others mine) post acts disk)
    (hs : kept disk)
    (hothers : ∀ operations disk disk', Disk.Performs others operations disk disk' →
      kept disk → kept disk')
    (hmine : ∀ operations disk disk', Disk.Performs mine operations disk disk' →
      kept disk → kept disk') :
    work.Secures (.among others mine) (fun result acts disk => post result acts disk ∧ kept disk)
      acts disk :=
  Thread.Secures.and_kept kept h hs (fun _ _ ⟨_, hp⟩ => hothers _ _ _ hp) hmine

/-- No link appears on a path without one. -/
theorem Secures.and_plain (h : work.Secures (.among others mine) post acts disk)
    (hplain : path.Plain disk.root) :
    work.Secures (.among others mine)
      (fun result acts disk => post result acts disk ∧ path.Plain disk.root) acts disk :=
  h.and_kept (fun disk => path.Plain disk.root) hplain (fun _ _ _ hp => hp.plain path)
    fun _ _ _ hp => hp.plain path

/-- The operations at the end are those before and some of the work's own. -/
theorem Secures.and_acts (h : work.Secures (.among others mine) post acts disk) :
    work.Secures (.among others mine) (fun result acts' disk => post result acts' disk ∧
      ∃ more, acts' = acts ++ more ∧ ∀ operation ∈ more, mine operation) acts disk :=
  Thread.Secures.and_acts h fun _ _ _ hp => hp.allowed

end Work
end Files
end TemplateBindings
