import TemplateBindings.Proofs.Build.Deeds
import TemplateBindings.Proofs.Build.Reconcile
import TemplateBindings.Proofs.Config.Merged

/-!
# What a run leaves alone

Where no link stands in the way, every operation of a run has its place: it makes a directory, works
below the output directory, or adds to the log (`TemplateBindings.Build.run_within`). So a file that
is neither in the output directory nor the log stays as it is, its time included, however the run
ends (`TemplateBindings.Build.run_leaves_outside`). That the sources are among these files is what the
containment check of merging is for.
-/

namespace TemplateBindings

open Files

namespace Files

variable {disk disk' : Disk} {root root' : Entry} {now modified : Int} {out q : Path}
  {log : Option Path} {operation : Operation} {operations : List Operation} {bytes : List UInt8}

/-! ### Operations in their places -/

/-- **An operation that stays in its places**: it makes a directory, adds to the log, or works below
the output directory. -/
def Operation.Within (out : Path) (log : Option Path) : Operation → Prop
  | .makeDirectory _ => True
  | .append path _ => path ∈ log
  | .write path _ => out <+: path
  | .move source target => out <+: source ∧ out <+: target
  | .removeFile path => out <+: path
  | .removeDirectory path => out <+: path

/-- **A file elsewhere is left alone** by an operation that stays in its places: a directory is made
only where there is nothing. -/
theorem Operation.Within.file_eq (h : operation.Within out log) (hd : operation.Direct root)
    (happly : operation.apply now root = .ok root') (hout : ¬ out <+: q) (hlog : q ∉ log)
    (hfile : root.see? q = some (.file bytes modified)) :
    root'.see? q = some (.file bytes modified) := by
  obtain ⟨hpossible, hsee⟩ := Operation.of_apply hd happly
  rw [hsee, ← hfile]
  have hne {path : Path} (hpath : out <+: path) : q ≠ path := fun he => hout (he ▸ hpath)
  cases operation with
  | makeDirectory path =>
    refine Function.update_of_ne (fun he => ?_) ..
    have hnone := hpossible.2
    rw [← he, hfile] at hnone
    cases hnone
  | append path bytes =>
    refine Function.update_of_ne (fun he => hlog ?_) ..
    rw [he]
    exact h
  | write path bytes => exact Function.update_of_ne (hne h) ..
  | move source target =>
    rw [Operation.effect, Function.update_of_ne (hne h.2), Function.update_of_ne (hne h.1)]
  | removeFile path => exact Function.update_of_ne (hne h) ..
  | removeDirectory path => exact Function.update_of_ne (hne h) ..

/-- Many operations leave it alone too. -/
theorem Disk.Undergoes.file_eq (hu : disk.Undergoes operations disk')
    (h : ∀ operation ∈ operations, operation.Within out log) (hout : ¬ out <+: q) (hlog : q ∉ log)
    (hfile : disk.root.see? q = some (.file bytes modified)) :
    disk'.root.see? q = some (.file bytes modified) := by
  induction hu with
  | nil => exact hfile
  | cons hd happly _ ih =>
    obtain ⟨hfirst, hrest⟩ := List.forall_mem_cons.1 h
    exact ih hrest (hfirst.file_eq hd happly hout hlog hfile)

theorem within_of_making {path : Path} (h : Making path operations) :
    ∀ operation ∈ operations, operation.Within out log := by
  intro operation ho
  obtain ⟨way, -, rfl⟩ := h operation ho
  trivial

end Files

namespace Build

variable {plan : List Source → List (List Source)} {config : Config} {occasion : Occasion}
  {disk disk' : Disk} {roots : Roots} {sources : List Source} {s : Source} {out q : Path}
  {outcomes : List (Source × Outcome)} {parts : List (List Source)} {log : Option Path}

/-! ### Work without links -/

/-- **No link stands below a directory**, nor on the way to it. -/
def Linkless (out : Path) (files : Entry) : Prop :=
  ∀ path : Path, out <+: path → path.Plain files

instance (out : Path) (files : Entry) : Decidable (Linkless out files) :=
  decidable_of_iff (∀ way, files.see? way ≠ none → way <+: out ∨ out <+: way →
      Sight.isLink (files.see? way) = false) (by
    constructor
    · intro h path hpath way hway target hlink
      have hends := List.prefix_or_prefix_of_prefix hway hpath
      exact Sight.isLink_eq_false.1 (h way (by simp [hlink]) hends) target hlink
    · rintro h way - (hway | hway)
      · exact Sight.isLink_eq_false.2 (h out List.prefix_rfl way hway)
      · exact Sight.isLink_eq_false.2 (h way hway way List.prefix_rfl))

/-- A file system without links has none below a directory. -/
theorem linkless_of_leaves {members : List (Str × Entry)} (hv : (Entry.directory members).Valid)
    (h : ∀ way ∈ leaves [] [] [] (.directory members),
      Sight.isLink ((Entry.directory members).see? way) = false) :
    Linkless out (.directory members) := by
  intro path _ way _ target he
  have hleaf : IsLeaf (.directory members) way := ⟨_, he, nofun⟩
  have hne : way ≠ [] := by
    rintro rfl
    cases he
  have hmem : way ∈ leaves [] [] [] (.directory members) :=
    (mem_leaves _ hv _ _).2 ⟨way, rfl, hne, hleaf, fun _ _ _ _ => List.not_mem_nil⟩
  exact Sight.isLink_eq_false.1 (h way hmem) target he

theorem Linkless.unlinked {files : Entry} (h : Linkless out files) (hs : s.Regular) :
    Unlinked files out s := by
  intro path hpath
  obtain ⟨n, -, rfl⟩ := (Source.mem_drafts hs).1 hpath
  exact h _ ((Source.directory_prefix out s).trans (List.prefix_append _ _))

/-- **What is performed for a source stays in its places.** -/
theorem Serves.within {operation : Operation} (h : Serves out s operation) :
    operation.Within out log := by
  have hbelow (name : Str) : out <+: s.directory out ++ [name] :=
    (Source.directory_prefix out s).trans (List.prefix_append _ _)
  cases h with
  | enter _ => trivial
  | draft _ _ => exact hbelow _
  | deliver _ => exact ⟨hbelow _, hbelow _⟩

/-- **What work leaves that stays in its places.** -/
structure StaysWithin (out : Path) (log : Option Path) (disk disk' : Disk)
    (operations : List Operation) : Prop where
  /-- The operations lead to the disk that is left. -/
  undergoes : disk.Undergoes operations disk'
  /-- They stay in their places. -/
  within : ∀ operation ∈ operations, operation.Within out log
  /-- No link appears on a path without one. -/
  plain : ∀ path : Path, path.Plain disk.root → path.Plain disk'.root

theorem StaysWithin.append {mid : Disk} {first second : List Operation}
    (h : StaysWithin out log disk mid first) (h' : StaysWithin out log mid disk' second) :
    StaysWithin out log disk disk' (first ++ second) where
  undergoes := h.undergoes.append h'.undergoes
  within operation ho := by
    rcases List.mem_append.1 ho with ho | ho
    · exact h.within operation ho
    · exact h'.within operation ho
  plain path hp := h'.plain path (h.plain path hp)

theorem StaysWithin.nil (out : Path) (log : Option Path) (disk : Disk) :
    StaysWithin out log disk disk [] := ⟨.nil _, nofun, fun _ hp => hp⟩

theorem StaysWithin.linkless {operations : List Operation}
    (h : StaysWithin out log disk disk' operations) (hlinks : Linkless out disk.root) :
    Linkless out disk'.root :=
  fun path hpath => h.plain path (hlinks path hpath)

/-- **Work on sources stays in its places**, and touches only those of the sources. -/
theorem workThrough_within (hout : roots.output.Proper) (hnodup : parts.flatten.Nodup)
    (hs : ∀ s ∈ parts.flatten, s.Regular)
    (hlinks : ∀ s ∈ parts.flatten, Unlinked disk.root roots.output s) (sources : List Source)
    (turns : List (List Nat)) (log : Option Path) :
    ∃ operations, StaysWithin roots.output log disk
        ((workThrough roots sources turns parts).run disk).2 operations ∧
      Touches roots.output parts.flatten disk.root.see?
        ((workThrough roots sources turns parts).run disk).2.root.see? := by
  obtain ⟨trace, hworked, -⟩ := workThrough_deeds hout hnodup hs hlinks sources turns disk.root
  have hperforms := hworked.performs
  refine ⟨_, ⟨hperforms.undergoes, fun operation ho => ?_, hperforms.plain⟩,
    .of_undergoes hperforms.undergoes hperforms.allowed hs hlinks⟩
  obtain ⟨t, -, hserves⟩ := hperforms.allowed operation ho
  exact hserves.within

/-! ### The phases of a run -/

theorem Opens.within {result : Except RunError Roots × Disk} {operations : List Operation}
    (h : Opens config disk result operations) (out : Path) (log : Option Path) :
    StaysWithin out log disk result.2 operations := by
  refine ⟨h.undergoes, fun operation ho => ?_, fun path hp => h.plain hp⟩
  obtain ⟨way, rfl, -⟩ := h.making operation ho
  trivial

/-- **A sweep stays below its directory.** -/
theorem removeStale_within (room : Nat) (keep : List Path) (log : Option Path)
    (hv : disk.root.Valid) (hout : OutputRoot disk.root out) (hne : out ≠ []) :
    ∃ operations,
      StaysWithin out log disk ((removeStale room out keep).runOn disk).2 operations := by
  obtain ⟨operations, hsweeps⟩ := removeStale_sweeps room keep hv (fun h => absurd h hne) hout
  refine ⟨operations, hsweeps.undergoes, fun operation ho => ?_, fun path hp => ?_⟩
  · obtain ⟨q, hq, -, ⟨rfl, -⟩ | ⟨rfl, -⟩, -⟩ := hsweeps.takes operation ho
    · exact hq
    · exact hq
  · exact Path.Plain.of_swept hsweeps.none_or_eq hp

/-- **Logging makes directories and adds to the log.** -/
theorem logEvents_within (hp : ∀ log ∈ config.auditLog, log.Proper)
    (hplain : ∀ log ∈ config.auditLog, log.Plain disk.root) (events : List Audit.Event)
    (out : Path) :
    ∃ operations,
      disk.Undergoes operations ((logEvents config events).runOn disk).2 ∧
        ∀ operation ∈ operations, operation.Within out config.auditLog := by
  obtain ⟨operations, hu, hops⟩ := logEvents_undergoes hp hplain events
  refine ⟨operations, hu, fun operation ho => ?_⟩
  obtain ⟨log, hlog, ⟨way, -, rfl⟩ | ⟨bytes, rfl⟩⟩ := hops operation ho
  · trivial
  · exact hlog

/-! ### The run -/

section

variable {opened worked : Disk}
  (h : Reaches plan config occasion disk opened sources outcomes worked)
  (hset : config.Settled disk.root) (hv : disk.root.Valid) (hplan : Covers plan)

include h hset hv hplan

/-- The sources that are worked on have names that lead to their places. -/
theorem Reaches.regular : (plan (markupOf sources)).flatten.Nodup ∧
    ∀ s ∈ (plan (markupOf sources)).flatten, s.Regular := by
  obtain ⟨opening, hopens⟩ := openRoots_opens hset
  rw [h.opens] at hopens
  have hvalid := hopens.undergoes.valid hv
  have hcovers := hplan (markupOf sources)
  exact ⟨hcovers.nodup_iff.2 ((nodup_of_discover hvalid h.discovers).filter _), fun s hs =>
    (discover_regular hvalid h.discovers (mem_markupOf.1 (hcovers.mem_iff.1 hs)).1).1⟩

/-- In an output directory without links, no link stands in the places of the sources. -/
theorem Reaches.unlinked (hlinks : Linkless config.outputRoot disk.root) :
    ∀ s ∈ (plan (markupOf sources)).flatten, Unlinked opened.root config.outputRoot s := by
  obtain ⟨opening, hopens⟩ := openRoots_opens hset
  rw [h.opens] at hopens
  exact fun s hs => ((hopens.within config.outputRoot none).linkless hlinks).unlinked
    ((h.regular hset hv hplan).2 s hs)

variable (hlinks : ∀ s ∈ (plan (markupOf sources)).flatten,
  Unlinked opened.root config.outputRoot s)

include hlinks

/-- What a run has done when its sources are worked through. -/
theorem Reaches.within :
    ∃ operations, StaysWithin config.outputRoot config.auditLog disk worked operations ∧
      (∀ q, opened.root.see? q = some .directory → worked.root.see? q = some .directory) ∧
      Touches config.outputRoot (plan (markupOf sources)).flatten opened.root.see?
        worked.root.see? := by
  obtain ⟨opening, hopens⟩ := openRoots_opens hset
  rw [h.opens] at hopens
  have hfirst := hopens.within config.outputRoot config.auditLog
  obtain ⟨hnodup, hregular⟩ := h.regular hset hv hplan
  obtain ⟨working, hrest, htouches⟩ := @workThrough_within _ (rootsOf config) _ hset.output_proper
    hnodup hregular hlinks sources occasion.turns config.auditLog
  obtain ⟨hkeeps, -⟩ := @workThrough_keeps (plan (markupOf sources)) (rootsOf config)
    hset.output_proper hnodup hregular sources occasion.turns opened
  rw [h.works] at hrest htouches hkeeps
  exact ⟨_, hfirst.append hrest, hkeeps.directory, htouches⟩

/-- The output directory is there when the sources are worked through. -/
theorem Reaches.outputRoot : OutputRoot worked.root config.outputRoot := by
  obtain ⟨opening, hopens⟩ := openRoots_opens hset
  rw [h.opens] at hopens
  have hroot := hopens.output _ rfl
  obtain ⟨-, -, hdirs, -⟩ := h.within hset hv hplan hlinks
  exact ⟨hroot.proper, hroot.fits, hdirs _ hroot.directory⟩

end

/-- **Every operation of a run stays in its places**, however the run ends. -/
theorem run_within (hset : config.Settled disk.root) (hv : disk.root.Valid)
    (hlinks : Linkless config.outputRoot disk.root) (occasion : Occasion) :
    ∃ operations, disk.Undergoes operations ((run config occasion).runOn disk).2 ∧
      ∀ operation ∈ operations, operation.Within config.outputRoot config.auditLog := by
  have hends : RunEnds (batches config.workers) config occasion disk
      ((run config occasion).runOn disk).1 ((run config occasion).runOn disk).2 :=
    run_ends hset _ occasion
  obtain ⟨opening, hopens⟩ := openRoots_opens hset
  have hopening := hopens.within config.outputRoot config.auditLog
  have hsweeping {opened worked swept : Disk} {sources : List Source} {outcomes : List (Source × Outcome)}
      {result : Except FileError (List Path)} (h : Reaches (batches config.workers) config occasion disk opened sources outcomes worked)
      (hs : (removeStale sweepRoom config.outputRoot (keepOf config outcomes)).runOn worked =
        (result, swept)) :
      ∃ operations, StaysWithin config.outputRoot config.auditLog disk swept operations := by
    have hroot := h.outputRoot hset hv (covers_batches _) (h.unlinked hset hv (covers_batches _) hlinks)
    obtain ⟨working, hwork, -⟩ := h.within hset hv (covers_batches _) (h.unlinked hset hv (covers_batches _) hlinks)
    obtain ⟨sweeping, hsweep⟩ := removeStale_within sweepRoom (keepOf config outcomes)
      config.auditLog (hwork.undergoes.valid hv) hroot hset.output_ne_nil
    rw [hs] at hsweep
    exact ⟨_, hwork.append hsweep⟩
  have hlogging {opened worked swept last : Disk} {sources : List Source} {outcomes : List (Source × Outcome)}
      {paths : List Path} {result : Except RunError Unit}
      (h : Reaches (batches config.workers) config occasion disk opened sources outcomes worked)
      (hs : (removeStale sweepRoom config.outputRoot (keepOf config outcomes)).runOn worked =
        (.ok paths, swept))
      (hl : (logEvents config (eventsAt config occasion outcomes paths)).runOn swept =
        (result, last)) :
      ∃ operations, disk.Undergoes operations last ∧
        ∀ operation ∈ operations, operation.Within config.outputRoot config.auditLog := by
    obtain ⟨first, hfirst⟩ := hsweeping h hs
    obtain ⟨second, hu, hsecond⟩ := logEvents_within hset.log_proper
      (fun log hlog => hfirst.plain log (hset.log_plain log hlog))
      (eventsAt config occasion outcomes paths) config.outputRoot
    rw [hl] at hu
    refine ⟨_, hfirst.undergoes.append hu, fun operation ho => ?_⟩
    rcases List.mem_append.1 ho with ho | ho
    · exact hfirst.within operation ho
    · exact hsecond operation ho
  rcases hr : (run config occasion).runOn disk with ⟨result, last⟩
  rw [hr] at hends
  cases hends with
  | unopened hopened =>
    rw [hopened] at hopening
    exact ⟨_, hopening.undergoes, hopening.within⟩
  | undiscovered hopened _ =>
    rw [hopened] at hopening
    exact ⟨_, hopening.undergoes, hopening.within⟩
  | unswept hreaches hsweeps =>
    obtain ⟨operations, hall⟩ := hsweeping hreaches hsweeps
    exact ⟨operations, hall.undergoes, hall.within⟩
  | unlogged hreaches hsweeps hlogs => exact hlogging hreaches hsweeps hlogs
  | ended hreaches hsweeps hlogs => exact hlogging hreaches hsweeps hlogs

/-- **A run leaves alone what is outside its output directory.** For a configuration that merging
returned, in whatever state of the files, and where no link stands on its paths or below its output
directory: a file elsewhere that is not the log keeps its contents and its time, however the run
ends. -/
theorem run_leaves_outside {files : Entry} {base : Config} {overrides : Config.Overrides}
    {settings : Settings.Table} {root : Path} (hbase : base.Spelled) (hover : overrides.Spelled)
    (hroot : Path.Spelled root)
    (hmerge : Config.merge (resolve files) base settings overrides root = .ok config)
    (hv : disk.root.Valid) (hinput : config.inputRoot.Plain disk.root)
    (hlog : ∀ log ∈ config.auditLog, log.Plain disk.root)
    (hlinks : Linkless config.outputRoot disk.root) (occasion : Occasion) :
    ∀ q bytes modified, ¬ config.outputRoot <+: q → q ∉ config.auditLog →
      disk.root.see? q = some (.file bytes modified) →
      ((run config occasion).runOn disk).2.root.see? q = some (.file bytes modified) := by
  intro q bytes modified hout hnot hfile
  have hset := Config.settled_of_merge hbase hover hroot hmerge hinput
    (hlinks config.outputRoot List.prefix_rfl) hlog
  obtain ⟨operations, hu, hwithin⟩ := run_within hset hv hlinks occasion
  exact hu.file_eq hwithin hout hnot hfile

/-- A project whose outputs are below its sources, with a source and an output from before. -/
def nested : Disk where
  root := .directory
    [("p".toList, .directory
      [("a.html".toList, .file (Utf8.encode "<p id='p'></p>".toList) 1600000000000000000),
        ("generated".toList, .directory [("old.ts".toList, .file [] 0)])])]
  now := 1700000000000000000

/-- Its settings. -/
def nestedSettings : Settings.Table :=
  [("build".toList, .table [("audit_log".toList, .text "log.jsonl".toList)])]

/-- What they are merged to. -/
def nestedConfig : Config :=
  ⟨["p".toList], ["p".toList, "generated".toList], 2, some ["p".toList, "log.jsonl".toList]⟩

theorem run_leaves_outside_nested :
    Config.merge (resolve nested.root) (Config.default ["p".toList] (some 2)) nestedSettings {}
        ["p".toList] = .ok nestedConfig ∧
      ((run nestedConfig plainOccasion).runOn nested).2.root.see? ["p".toList, "a.html".toList] =
        some (.file (Utf8.encode "<p id='p'></p>".toList) 1600000000000000000) := by
  have hmerge : Config.merge (resolve nested.root) (Config.default ["p".toList] (some 2))
      nestedSettings {} ["p".toList] = .ok nestedConfig := by decide +kernel
  refine ⟨hmerge, run_leaves_outside ⟨by decide, by decide, by simp [Config.default]⟩
    ⟨by simp, by simp, by simp⟩ (by decide) hmerge (by decide +kernel) (by decide +kernel) (by decide +kernel)
    (linkless_of_leaves (by decide +kernel) (by decide +kernel)) plainOccasion _ _ _ (by decide)
    (by decide) (by decide +kernel)⟩

end Build
end TemplateBindings
