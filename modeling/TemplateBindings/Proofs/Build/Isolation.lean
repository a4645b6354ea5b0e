import TemplateBindings.Proofs.Build.Account
import TemplateBindings.Proofs.Build.Orders

/-!
# Sources on their own

What a run says of a source, and what it leaves in the places of its outputs, depends on nothing but
the inputs of the source and its outputs from before: neither on the other sources nor on what else
is in the output directory (`TemplateBindings.Build.run_isolates`). The exceptions are a source that is
read through the outputs, one that writes to a directory which another source of its batch has set out
to make, and one whose module is no text, which fails when its companions have been written
(`TemplateBindings.Build.run_does_not_isolate`).
-/

namespace TemplateBindings
namespace Build

open Files

variable {plan : List Source → List (List Source)} {config : Config}
  {occasion occasion' : Occasion} {disk disk' last last' : Disk} {stages : Stages}
  {sources sources' : List Source} {s t : Source} {report report' : Report} {outcome : Outcome}
  {q out path : Path} {files files' view view' : Entry} {roots : Roots} {removed : List Str}
  {workers : Int}

/-! ### Verdicts -/

/-- **What a report says of a source.** -/
inductive Verdict where
  /-- It was written. -/
  | written
  /-- It was current. -/
  | cached
  /-- It failed with an error. -/
  | failed (error : Text)
  deriving DecidableEq, Repr

/-- A report gives a source a verdict, by its label. -/
def Report.Gives (report : Report) (label : Str) : Verdict → Prop
  | .written => label ∈ report.written
  | .cached => label ∈ report.cached
  | .failed error => ⟨label, error⟩ ∈ report.failures

instance (report : Report) (label : Str) : (verdict : Verdict) →
    Decidable (report.Gives label verdict)
  | .written => inferInstanceAs (Decidable (label ∈ report.written))
  | .cached => inferInstanceAs (Decidable (label ∈ report.cached))
  | .failed error => inferInstanceAs (Decidable (⟨label, error⟩ ∈ report.failures))

/-- The verdict on an outcome. -/
def Outcome.verdict : Outcome → Verdict
  | .written _ => .written
  | .cached => .cached
  | .failed e => .failed e.report

/-- **A report gives a source the verdict on its outcome**, and no other. -/
theorem Stages.Sound.gives_iff (h : stages.Sound) (hs : (s, outcome) ∈ stages.outcomes)
    {verdict : Verdict} :
    (reportOn stages.outcomes removed).Gives s.label verdict ↔ verdict = outcome.verdict := by
  obtain ⟨hmem, hkind⟩ := h.mem_iff.2 ⟨outcome, hs⟩
  cases verdict with
  | written =>
    rw [Report.Gives, h.label_mem_written hmem hkind]
    constructor
    · rintro ⟨artifacts, ha⟩
      rw [h.outcome_unique hs ha]
      rfl
    · intro he
      cases outcome with
      | written artifacts => exact ⟨artifacts, hs⟩
      | cached => cases he
      | failed _ => cases he
  | cached =>
    rw [Report.Gives, h.label_mem_cached hmem hkind]
    constructor
    · intro hc
      rw [h.outcome_unique hs hc]
      rfl
    · intro he
      cases outcome with
      | written _ => cases he
      | cached => exact hs
      | failed _ => cases he
  | failed error =>
    rw [Report.Gives, h.mem_failures hmem hkind]
    constructor
    · rintro ⟨e, he, rfl⟩
      rw [h.outcome_unique hs he]
      rfl
    · intro he
      cases outcome with
      | written _ => cases he
      | cached => cases he
      | failed e => exact ⟨e, hs, (Verdict.failed.inj he).symm⟩

/-! ### The same inputs -/

/-- **A source has the same inputs** in two file systems, among its sources: the same stylesheet
beside it or none, and the same bytes and times of both. -/
structure SameInputs (view view' : Entry) (root : Path) (sources sources' : List Source)
    (s : Source) : Prop where
  /-- The stylesheet is the same. -/
  stylesheet : s.stylesheet? sources = s.stylesheet? sources'
  /-- What is read is the same. -/
  reads : ∀ input, input = s ∨ input ∈ s.stylesheet? sources → ∃ bytes time,
    Reads view (input.path root) bytes time ∧ Reads view' (input.path root) bytes time

theorem SameInputs.inView (h : SameInputs view view' roots.input sources sources' s) :
    InView view roots.input sources s :=
  ⟨isFile_eq_true.2 (by
      obtain ⟨bytes, time, hr, -⟩ := h.reads s (.inl rfl)
      exact ⟨bytes, time, hr⟩),
    fun sheet hsheet => isFile_eq_true.2 (by
      obtain ⟨bytes, time, hr, -⟩ := h.reads sheet (.inr hsheet)
      exact ⟨bytes, time, hr⟩)⟩

theorem SameInputs.symm (h : SameInputs view view' roots.input sources sources' s) :
    SameInputs view' view roots.input sources' sources s where
  stylesheet := h.stylesheet.symm
  reads input hinput := by
    obtain ⟨bytes, time, hr, hr'⟩ := h.reads input (by rwa [h.stylesheet])
    exact ⟨bytes, time, hr', hr⟩

theorem markerOf_sameInputs (h : SameInputs view view' roots.input sources sources' s)
    (hh : view.Holds files) (hh' : view'.Holds files') :
    markerOf files roots.input s (s.stylesheet? sources) =
      markerOf files' roots.input s (s.stylesheet? sources') := by
  have htime (input : Source) (hinput : input = s ∨ input ∈ s.stylesheet? sources) :
      modified files (input.path roots.input) = modified files' (input.path roots.input) := by
    obtain ⟨bytes, time, hr, hr'⟩ := h.reads input hinput
    rw [(hr.of_holds hh).modified, (hr'.of_holds hh').modified]
  rw [markerOf, markerOf, htime s (.inl rfl), ← h.stylesheet]
  exact congrArg _ (funext fun _ => congrArg (· >>= _) (answerBeside_congr fun sheet hsheet => by
    rw [htime sheet (.inr hsheet)]))

theorem compileSource_sameInputs (h : SameInputs view view' roots.input sources sources' s)
    (hh : view.Holds files) (hh' : view'.Holds files') (marker : Text) :
    compileSource files roots.input s (s.stylesheet? sources) marker =
      compileSource files' roots.input s (s.stylesheet? sources') marker := by
  have htext (input : Source) (hinput : input = s ∨ input ∈ s.stylesheet? sources) :
      readText files (input.path roots.input) = readText files' (input.path roots.input) := by
    obtain ⟨bytes, time, hr, hr'⟩ := h.reads input hinput
    rw [readText, readText, (hr.of_holds hh).contents, (hr'.of_holds hh').contents]
  rw [compileSource, compileSource, htext s (.inl rfl), ← h.stylesheet]
  exact congrArg _ (funext fun _ => congrArg (· >>= _) (answerBeside_congr fun sheet hsheet =>
    htext sheet (.inr hsheet)))

/-- **With the same inputs and the same marker in its module**, the same is due for a source. -/
theorem due_sameInputs (h : SameInputs view view' roots.input sources sources' s)
    (hh : view.Holds files) (hh' : view'.Holds files')
    (hmodule : existingMarker files (s.outputs roots.output).module =
      existingMarker files' (s.outputs roots.output).module) :
    due files roots sources s = due files' roots sources' s ∧
      jobOf files roots sources s = jobOf files' roots sources' s := by
  have hstale : staleMarker? files roots s (s.stylesheet? sources) =
      staleMarker? files' roots s (s.stylesheet? sources') := by
    rw [staleMarker?, staleMarker?, markerOf_sameInputs h hh hh', hmodule]
  have hdue : due files roots sources s = due files' roots sources' s := by
    rw [due, due, hstale]
    split
    · rfl
    · rfl
    · next marker _ => rw [compileSource_sameInputs h hh hh' marker]
  exact ⟨hdue, by rw [jobOf, jobOf, hstale, hdue]⟩

/-- The marker of a module does not depend on its time. -/
theorem markerSeen_congr {sight sight' : Option Sight}
    (h : sight.map Sight.untimed = sight'.map Sight.untimed) :
    markerSeen sight = markerSeen sight' := by
  have huntimed (sight : Option Sight) : markerSeen sight = markerSeen (sight.map Sight.untimed) := by
    rcases sight with _ | _ | _ | _ <;> rfl
  rw [huntimed, h, ← huntimed]

/-! ### One source of a run -/

/-- **A run that finds a source** among others: the places of all of them are clear of each other and
ready. -/
structure Finding (config : Config) (disk : Disk) (sources : List Source) (s : Source) : Prop where
  /-- The file system is valid. -/
  valid : disk.root.Valid
  /-- The configuration is settled. -/
  settled : config.Settled disk.root
  /-- These are the sources. -/
  found : foundBy config disk = .ok sources
  /-- The source is markup among them. -/
  mem : s ∈ markupOf sources
  /-- The places of the markup are clear of each other. -/
  separate : Separate config.outputRoot (markupOf sources)
  /-- They are ready. -/
  ready : ∀ t ∈ markupOf sources, Ready (afterOpening config disk).root config.outputRoot t

instance (config : Config) (disk : Disk) (sources : List Source) (s : Source) :
    Decidable (Finding config disk sources s) :=
  decidable_of_iff
    (disk.root.Valid ∧ config.Settled disk.root ∧ foundBy config disk = .ok sources ∧
      s ∈ markupOf sources ∧ Separate config.outputRoot (markupOf sources) ∧
        ∀ t ∈ markupOf sources, Ready (afterOpening config disk).root config.outputRoot t)
    ⟨fun ⟨hvalid, hsettled, hfound, hmem, hseparate, hready⟩ =>
      ⟨hvalid, hsettled, hfound, hmem, hseparate, hready⟩,
      fun h => ⟨h.valid, h.settled, h.found, h.mem, h.separate, h.ready⟩⟩

/-- **A source that something hinders** in a run: it is stale, and there is no room for its directory,
or it is contended. -/
def Hindered (plan : List Source → List (List Source)) (config : Config) (disk : Disk)
    (sources : List Source) (s : Source) : Prop :=
  IsStale (afterOpening config disk).root (rootsOf config) sources s ∧
    Hindrance (afterOpening config disk).root (rootsOf config) sources (plan (markupOf sources)) s

/-- What is read by a run without its outputs. -/
def inputView (config : Config) (disk : Disk) : Entry :=
  (afterOpening config disk).root.put none config.outputRoot

theorem inputView_holds (hne : config.outputRoot ≠ []) :
    (inputView config disk).Holds (afterOpening config disk).root := by
  obtain ⟨way, name, hout⟩ := List.eq_nil_or_concat config.outputRoot |>.resolve_left hne
  rw [inputView, hout, List.concat_eq_append]
  exact Entry.holds_put_none _ way name

/-- What a run that finds a source does with it. -/
structure Deals (config : Config) (disk last : Disk) (report : Report) (sources : List Source)
    (s : Source) : Prop where
  /-- It gives the verdict on what is due. -/
  gives : ∀ verdict, report.Gives s.label verdict ↔ verdict = (outcomeOf config.outputRoot s
    (due (afterOpening config disk).root (rootsOf config) sources s)).verdict
  /-- It leaves what the job leaves, as far as it is kept. -/
  left : ∀ q ∈ (s.outputs config.outputRoot).all, last.root.see? q =
    if q ∈ (outcomeOf config.outputRoot s
        (due (afterOpening config disk).root (rootsOf config) sources s)).keeps
          (s.outputs config.outputRoot) then
      (jobOf (afterOpening config disk).root (rootsOf config) sources s).after
        (afterOpening config disk).now (s.directory config.outputRoot)
        (afterOpening config disk).root.see? q
    else none

theorem Finding.regular (h : Finding config disk sources s) : s.Regular := by
  obtain ⟨operations, hopens⟩ := openRoots_opens h.settled
  exact (discover_regular (hopens.undergoes.valid h.valid) h.found (mem_markupOf.1 h.mem).1).1

/-- A run with a report has the root of its outputs. -/
theorem Finding.root (h : Finding config disk sources s)
    (hrun : (runBy plan config occasion).runOn disk = (.ok report, last)) :
    OutputRoot (afterOpening config disk).root config.outputRoot := by
  obtain ⟨operations, hopens⟩ := openRoots_opens h.settled
  obtain ⟨stages, hstages⟩ := exists_completes hrun
  rw [afterOpening]
  rw [hstages.opens] at hopens ⊢
  exact hopens.output _ rfl

/-- A run goes through its stages with the roots of its configuration and the sources that it
finds. -/
theorem Works.finds (h : Works plan config occasion disk stages)
    (hset : config.Settled disk.root) (hfound : foundBy config disk = .ok sources) :
    afterOpening config disk = stages.opened ∧ stages.roots = rootsOf config ∧
      stages.sources = sources := by
  obtain ⟨operations, hopens⟩ := openRoots_opens hset
  have hopened := h.opened_eq.symm
  rw [h.opens] at hopens
  have hroots : stages.roots = rootsOf config := hopens.roots_eq _ rfl
  have hdiscovers := h.discovers
  rw [hroots] at hdiscovers
  rw [foundBy, hopened] at hfound
  exact ⟨hopened, hroots, Except.ok.inj (hdiscovers.symm.trans hfound)⟩

/-- **What becomes of a source that a run finds**, if it is in view without the outputs: it has an
outcome, the report gives the verdict on it, and what it keeps is left. -/
theorem Finding.becomes (h : Finding config disk sources s) (hplan : Covers plan)
    (hlog : ∀ log ∈ config.auditLog, ¬ config.outputRoot <+: log)
    (hview : InView (inputView config disk) config.inputRoot sources s)
    (hrun : (runBy plan config occasion).runOn disk = (.ok report, last)) :
    ∃ stages outcome, afterOpening config disk = stages.opened ∧ stages.sources = sources ∧
      Becomes plan config stages s outcome ∧
      (∀ verdict, report.Gives s.label verdict ↔ verdict = outcome.verdict) ∧
      ∀ q ∈ (s.outputs config.outputRoot).all, last.root.see? q =
        if q ∈ outcome.keeps (s.outputs config.outputRoot) then stages.worked.root.see? q
        else none := by
  obtain ⟨stages, hstages⟩ := exists_completes hrun
  obtain ⟨hopened, -, rfl⟩ := hstages.finds h.settled h.found
  have hready := h.ready
  rw [inputView, hopened] at hview
  rw [hopened] at hready
  have ho := hstages.inOrder hplan h.valid h.settled h.separate hready
  have hsound := hstages.sound hplan ho.spelled h.valid
  obtain ⟨trace, haccounts⟩ := hstages.accounts ho
  obtain ⟨outcome, hs⟩ := hsound.mem_iff.1 (mem_markupOf.1 h.mem)
  refine ⟨stages, outcome, hopened, rfl, haccounts.becomes ho hs hview, fun verdict => ?_,
    fun q hq => hstages.passes.left haccounts ho hsound hlog hs hq⟩
  rw [hstages.report_eq]
  exact hsound.gives_iff hs

/-- **What a run does with a source** that it reads without the outputs, and that nothing hinders. -/
theorem Finding.deals (h : Finding config disk sources s) (hplan : Covers plan)
    (hlog : ∀ log ∈ config.auditLog, ¬ config.outputRoot <+: log)
    (hview : InView (inputView config disk) config.inputRoot sources s)
    (hfree : ¬ Hindered plan config disk sources s)
    (hrun : (runBy plan config occasion).runOn disk = (.ok report, last)) :
    Deals config disk last report sources s := by
  obtain ⟨stages, outcome, hopened, rfl, hbecomes, hgives, hleft⟩ :=
    h.becomes hplan hlog hview hrun
  rw [Hindered, hopened] at hfree
  obtain ⟨rfl, hworked⟩ := hbecomes.of_free fun hstale hhinders => hfree ⟨hstale, hhinders⟩
  refine ⟨?_, fun q hq => ?_⟩
  · rwa [hopened]
  · rw [hleft q hq, hworked q (.inl hq), hopened]

/-- Opening the roots makes nothing of what lies below the output directory, where the log lies
elsewhere. -/
theorem afterOpening_below (hset : config.Settled disk.root)
    (hlog : ∀ log ∈ config.auditLog, ¬ config.outputRoot <+: log) (hq : config.outputRoot <+: q) :
    (afterOpening config disk).root.see? q = disk.root.see? q ∨
      q = config.outputRoot ∧ (afterOpening config disk).root.see? q = some .directory := by
  obtain ⟨operations, hopens⟩ := openRoots_opens hset
  refine (see?_of_making hopens.undergoes hopens.making q).imp_right ?_
  rintro ⟨hway | ⟨log, hl, hway⟩, hdir⟩
  · exact ⟨hway.eq_of_length_le hq.length_le, hdir⟩
  · rw [Path.parent_of_proper (hset.log_proper log hl)] at hway
    exact absurd (hq.trans (hway.trans (List.dropLast_prefix log))) (hlog log hl)

/-- It leaves the places of outputs as they are. -/
theorem afterOpening_outputs (hset : config.Settled disk.root)
    (hlog : ∀ log ∈ config.auditLog, ¬ config.outputRoot <+: log) (hs : s.Regular)
    (hq : q ∈ (s.outputs config.outputRoot).all) :
    (afterOpening config disk).root.see? q = disk.root.see? q := by
  obtain ⟨hbelow, hne⟩ := outputs_below hs hq
  exact (afterOpening_below hset hlog hbelow).resolve_right fun h => hne h.1

/-- A source that is not written is left its outputs. -/
theorem jobOf_leaves_outputs {files : Entry} {roots : Roots} {out : Path} (hs : s.Regular)
    (hnot : ∀ made, due files roots sources s ≠ .ok (some made)) (now : Int)
    (hq : q ∈ (s.outputs out).all) :
    (jobOf files roots sources s).Leaves now (s.directory out) q := by
  refine Job.leaves_of_not_concerns fun hconcerns => ?_
  -- nothing is delivered, so that only directories may be made
  have hway : q <+: s.directory out := by
    cases hjob : jobOf files roots sources s with
    | idle =>
      rw [hjob] at hconcerns
      exact hconcerns.elim
    | enter =>
      rw [hjob] at hconcerns
      exact hconcerns
    | deliver made => exact absurd (jobOf_deliver.1 hjob) (hnot made)
  exact not_prefix_above hs hq hway

/-- Neither does the run change them in the end. -/
theorem Deals.unwritten (h : Deals config disk last report sources s) (hs : s.Regular)
    (hnot : ∀ made, due (afterOpening config disk).root (rootsOf config) sources s ≠ .ok (some made))
    (hq : q ∈ (s.outputs config.outputRoot).all) :
    last.root.see? q = (afterOpening config disk).root.see? q := by
  have hkeeps : q ∈ (outcomeOf config.outputRoot s
      (due (afterOpening config disk).root (rootsOf config) sources s)).keeps
        (s.outputs config.outputRoot) := by
    rcases hdue : due (afterOpening config disk).root (rootsOf config) sources s with e | _ | made
    · exact hq
    · exact hq
    · exact absurd hdue (hnot made)
  rw [h.left q hq, if_pos hkeeps]
  exact jobOf_leaves_outputs hs hnot _ hq _

/-- What the text of an error begins with that says that an output is no text. -/
def unencodableKind : Text := "UnicodeEncodeError".toList

theorem unencodableKind_prefixed (fault : Str.Fault) :
    unencodableKind <+: (SourceError.unencodable fault).report :=
  ⟨": ".toList ++ fault.message, (List.append_assoc unencodableKind _ _).symm⟩

/-- **A failed source is left its outputs**, unless what it failed with is that one of them is no
text. -/
theorem Becomes.failed {e : SourceError} (h : Becomes plan config stages s (.failed e))
    (hs : s.Regular) (hkind : ¬ unencodableKind <+: e.report)
    (hq : q ∈ (s.outputs config.outputRoot).all) :
    stages.worked.root.see? q = stages.opened.root.see? q := by
  generalize ho : Outcome.failed e = outcome at h
  cases h with
  | due hleft =>
    rw [hleft q (.inl hq)]
    refine jobOf_leaves_outputs hs (fun made hdue => ?_) _ hq _
    rw [hdue, outcomeOf] at ho
    split at ho
    · cases ho
    · next fault _ =>
      rw [Outcome.failed.inj ho] at hkind
      exact hkind (unencodableKind_prefixed fault)
  | hindered _ _ hleft => exact hleft q (.inl hq)

theorem Finding.failed (h : Finding config disk sources s) (hplan : Covers plan)
    (hlog : ∀ log ∈ config.auditLog, ¬ config.outputRoot <+: log)
    (hview : InView (inputView config disk) config.inputRoot sources s)
    (hrun : (runBy plan config occasion).runOn disk = (.ok report, last)) {error : Text}
    (hfailed : report.Gives s.label (.failed error)) (hkind : ¬ unencodableKind <+: error)
    (hq : q ∈ (s.outputs config.outputRoot).all) :
    last.root.see? q = (afterOpening config disk).root.see? q := by
  obtain ⟨stages, outcome, hopened, -, hbecomes, hgives, hleft⟩ := h.becomes hplan hlog hview hrun
  have hverdict := (hgives _).1 hfailed
  cases outcome with
  | written _ => cases hverdict
  | cached => cases hverdict
  | failed e =>
    rw [Verdict.failed.inj hverdict] at hkind
    rw [hleft q hq, if_pos (show q ∈ (Outcome.failed e).keeps _ from hq),
      hbecomes.failed h.regular hkind hq, hopened]

/-! ### One source in two runs -/

/-- **A source is dealt with on its own.** Two runs that find the same inputs of a source, and the
same in the places of its outputs, give it the same verdict and leave the same in these places, with
whatever other sources and outputs there are, and with however many workers, if nothing hinders the
source. If it fails, its outputs are left as they were, unless one of them was to be written and is no
text. -/
theorem run_isolates (hlog : config.auditLog = none) (h : Finding config disk sources s)
    (h' : Finding { config with workers := workers } disk' sources' s)
    (hinputs : SameInputs (inputView config disk) (inputView config disk') config.inputRoot sources
      sources' s)
    (houtputs : ∀ q ∈ (s.outputs config.outputRoot).all,
      (disk.root.see? q).map Sight.untimed = (disk'.root.see? q).map Sight.untimed)
    (hrun : (run config occasion).runOn disk = (.ok report, last))
    (hrun' : (run { config with workers := workers } occasion').runOn disk' = (.ok report', last')) :
    (¬ Hindered (batches config.workers) config disk sources s →
      ¬ Hindered (batches workers) config disk' sources' s →
        (∃ verdict, ∀ v, (report.Gives s.label v ↔ v = verdict) ∧
          (report'.Gives s.label v ↔ v = verdict)) ∧
        ∀ q ∈ (s.outputs config.outputRoot).all,
          (last.root.see? q).map Sight.untimed = (last'.root.see? q).map Sight.untimed) ∧
      ∀ error, report.Gives s.label (.failed error) → ¬ unencodableKind <+: error →
        ∀ q ∈ (s.outputs config.outputRoot).all, last.root.see? q = disk.root.see? q := by
  have hview := @SameInputs.inView _ _ _ _ _ (rootsOf config) hinputs
  have hview' := @SameInputs.inView _ _ _ _ _ (rootsOf config) hinputs.symm
  have hnolog : ∀ log ∈ config.auditLog, ¬ config.outputRoot <+: log := by simp [hlog]
  have hr := h.regular
  refine ⟨fun hfree hfree' => ?_, fun error hfailed hkind q hq => ?_⟩
  · have hdeals := h.deals (covers_batches _) hnolog hview hfree hrun
    have hdeals' := h'.deals (covers_batches _) hnolog hview' hfree' hrun'
    have hopened {q : Path} (hq : q ∈ (s.outputs config.outputRoot).all) :
        ((afterOpening config disk).root.see? q).map Sight.untimed =
          ((afterOpening config disk').root.see? q).map Sight.untimed := by
      rw [afterOpening_outputs h.settled hnolog hr hq, houtputs q hq,
        ← afterOpening_outputs h'.settled hnolog hr hq]
      rfl
    have hmodule := existingMarker_congr (h.root hrun) (h'.root hrun') hr (mem_markupOf.1 h.mem).2
      (h.ready s h.mem) (h'.ready s h'.mem) (markerSeen_congr (hopened List.mem_cons_self))
    obtain ⟨hdue, hjob⟩ := @due_sameInputs _ _ _ _ _ _ _ (rootsOf config) hinputs
      (inputView_holds h.settled.output_ne_nil) (inputView_holds h'.settled.output_ne_nil) hmodule
    refine ⟨⟨_, fun v => ⟨hdeals.gives v, ?_⟩⟩, fun q hq => ?_⟩
    · rw [hdue]
      exact hdeals'.gives v
    · have hleft := hdeals.left q hq
      have hleft' := hdeals'.left q hq
      rw [hdue, hjob] at hleft
      by_cases hkeeps : q ∈ (outcomeOf config.outputRoot s (due (afterOpening config disk').root
          (rootsOf config) sources' s)).keeps (s.outputs config.outputRoot)
      · rw [hleft, if_pos hkeeps]
        exact (Job.after_untimed (hopened hq)).trans
          (congrArg _ (hleft'.trans (if_pos hkeeps)).symm)
      · rw [hleft, if_neg hkeeps]
        exact congrArg _ (hleft'.trans (if_neg hkeeps)).symm
  · rw [h.failed (covers_batches _) hnolog hview hrun hfailed hkind hq,
      afterOpening_outputs h.settled hnolog hr hq]

/-- Nothing hinders a source of a calm run that has room for its directory. -/
theorem not_hindered (hfound : foundBy config disk = .ok sources) (hs : s ∈ markupOf sources)
    (hroomy : (s.directory config.outputRoot).Roomy (afterOpening config disk).root directoryRoom)
    (hcalm : Calm plan config disk) : ¬ Hindered plan config disk sources s :=
  fun h => h.2.elim (fun hnot => hnot hroomy) (hcalm sources hfound s hs)

/-- The disk `varied` with only one of its sources, and without the outputs of others. -/
def lone : Disk where
  root := .directory
    [("src".toList, .directory [("b.html".toList, .file [255] 1700000000000000000)]),
      ("out".toList, .directory [("b.ts".toList, .file [] 1)])]
  now := 1700000000000000001

/-- The source that both disks have. -/
def brokenSource : Source := ⟨[], "b".toList, .markup⟩

/-- The report on the disk `varied`. -/
def variedReport : Report :=
  ⟨["a.html".toList, "sub/c.html".toList], [], ["old.ts".toList], [⟨"b.html".toList, undecodableError⟩]⟩

/-- The report on the disk `lone`. -/
def loneReport : Report := ⟨[], [], [], [⟨"b.html".toList, undecodableError⟩]⟩

theorem varied_meets : Finding plainConfig varied variedSources brokenSource ∧
    ((run plainConfig turningOccasion).runOn varied).1 = .ok variedReport := by
  decide +kernel

/-- The same inputs of a source without a stylesheet. -/
theorem sameInputs_of_reads {root : Path} (bytes : List UInt8) (time : Int)
    (hnone : s.stylesheet? sources = none) (hnone' : s.stylesheet? sources' = none)
    (h : Reads view (s.path root) bytes time) (h' : Reads view' (s.path root) bytes time) :
    SameInputs view view' root sources sources' s where
  stylesheet := hnone.trans hnone'.symm
  reads input hinput := by
    obtain rfl : input = s := hinput.resolve_right fun hsheet => by
      rw [hnone] at hsheet
      cases hsheet
    exact ⟨bytes, time, h, h'⟩

theorem run_isolates_brokenSource :
    ¬ Hindered (batches 2) plainConfig varied variedSources brokenSource ∧
      ¬ Hindered (batches 1) plainConfig lone [brokenSource] brokenSource ∧
      (∃ verdict, ∀ v, (variedReport.Gives brokenSource.label v ↔ v = verdict) ∧
        (loneReport.Gives brokenSource.label v ↔ v = verdict)) ∧
      (∀ q ∈ (brokenSource.outputs plainConfig.outputRoot).all,
        (((run plainConfig turningOccasion).runOn varied).2.root.see? q).map Sight.untimed =
          (((run { plainConfig with workers := 1 } plainOccasion).runOn lone).2.root.see? q).map
            Sight.untimed) ∧
      ∀ error, variedReport.Gives brokenSource.label (.failed error) →
        ¬ unencodableKind <+: error → ∀ q ∈ (brokenSource.outputs plainConfig.outputRoot).all,
          ((run plainConfig turningOccasion).runOn varied).2.root.see? q = varied.root.see? q := by
  obtain ⟨hfinds, hreport⟩ := varied_meets
  obtain ⟨hfinds', hreport', hsame, hroomy, hroomy', hreads, hreads'⟩ :
      Finding { plainConfig with workers := 1 } lone [brokenSource] brokenSource ∧
      ((run { plainConfig with workers := 1 } plainOccasion).runOn lone).1 = .ok loneReport ∧
      (∀ q ∈ (brokenSource.outputs plainConfig.outputRoot).all,
        (varied.root.see? q).map Sight.untimed = (lone.root.see? q).map Sight.untimed) ∧
      (brokenSource.directory plainConfig.outputRoot).Roomy
        (afterOpening plainConfig varied).root directoryRoom ∧
      (brokenSource.directory plainConfig.outputRoot).Roomy
        (afterOpening { plainConfig with workers := 1 } lone).root directoryRoom ∧
      Reads (inputView plainConfig varied) ["src".toList, "b.html".toList] [255]
        1700000000000000000 ∧
      Reads (inputView plainConfig lone) ["src".toList, "b.html".toList] [255]
        1700000000000000000 := by
    decide +kernel
  have hinputs : SameInputs (inputView plainConfig varied) (inputView plainConfig lone)
      plainConfig.inputRoot variedSources [brokenSource] brokenSource :=
    sameInputs_of_reads [255] 1700000000000000000 (by decide) (by decide) hreads hreads'
  have hfree : ¬ Hindered (batches 2) plainConfig varied variedSources brokenSource :=
    not_hindered hfinds.found hfinds.mem hroomy (varied_calm (covers_batches 2))
  have hfree' : ¬ Hindered (batches 1) plainConfig lone [brokenSource] brokenSource :=
    not_hindered hfinds'.found hfinds'.mem hroomy' (calm_of_single (by decide))
  obtain ⟨halike, hfailed⟩ := run_isolates rfl hfinds hfinds' hinputs hsame
    (Work.runOn_eq_of_end hreport) (Work.runOn_eq_of_end hreport')
  exact ⟨hfree, hfree', (halike hfree hfree').1, (halike hfree hfree').2, hfailed⟩

/-! ### Sources that others get in the way of -/

/-- The disk `crossed` without the source that makes the output which the other one is a link to. -/
def uncrossed : Disk where
  root := .directory
    [("src".toList, .directory [("a.html".toList, .link "../out/b.ts".toList)]),
      ("out".toList, .directory [("b.ts".toList, .file [255] 0)])]
  now := 1700000000000000000

/-- The source that is a link. -/
def linkedSource : Source := ⟨[], "a".toList, .markup⟩

/-- A configuration with one worker, so that the other source comes first. -/
def singleConfig : Config := { plainConfig with workers := 1 }

/-- What the link fails with when it leads to a module. -/
def unnamedError : Text :=
  "TemplateError: <unnamed>: <string,> template root requires a non-empty 'id' attribute.".toList

/-- The disk `raced` with only one of its sources. -/
def unraced : Disk where
  root := .directory
    [("src".toList, .directory [("sub".toList, .directory
        [("b.html".toList,
          .file (Utf8.encode "<!doctype html><p id='q'>".toList) 1700000000000000000)])]),
      ("out".toList, .directory [])]
  now := 1700000000000000000

/-- That source. -/
def racingSource : Source := ⟨["sub".toList], "b".toList, .markup⟩

/-- The sources of the disk `raced`. -/
def racedSources : List Source := [⟨["sub".toList], "a".toList, .markup⟩, racingSource]

/-- What it fails with when its directory is not there. -/
def missingError : Text :=
  "FileNotFoundError: [Errno 2] No such file or directory: '/out/sub/b.ts.tmp'".toList

/-- The second source fails when it takes its turns first. -/
theorem raced_meets : Finding plainConfig raced racedSources racingSource ∧
    ((run plainConfig racingOccasion).runOn raced).1 =
      .ok ⟨["sub/a.html".toList], [], [], [⟨"sub/b.html".toList, missingError⟩]⟩ := by
  decide +kernel

/-- A disk with a source whose name is no text, and an output from before. -/
def misnamed : Disk where
  root := .directory
    [("src".toList, .directory
        [(Point.byte 127 :: ".html".toList,
          .file (Utf8.encode "<style>.a{}</style>".toList) 1700000000000000000)]),
      ("out".toList, .directory [(Point.byte 127 :: ".css.ts".toList, .file [] 0)])]
  now := 1700000000000000000

/-- That source. -/
def misnamedSource : Source := ⟨[], [.byte 127], .markup⟩

/-- What it fails with when its module is written. -/
def misnamedError : Text :=
  ("UnicodeEncodeError: 'utf-8' codec can't encode character '\\udcff' in position 52: ".toList
    ++ "surrogates not allowed".toList)

/-- The draft of its module is removed. -/
theorem misnamed_meets : Finding plainConfig misnamed [misnamedSource] misnamedSource ∧
    ((run plainConfig plainOccasion).runOn misnamed).1 =
      .ok ⟨[], [], [Point.byte 127 :: ".ts.tmp".toList],
        [⟨Point.byte 127 :: ".html".toList, misnamedError⟩]⟩ := by
  decide +kernel

/-- **Other sources matter** to a source that is a link to one of their outputs, and to one whose
directory is missing when another one of its batch has set out to make it. And a source whose module is
no text fails after its companions were replaced. -/
theorem run_does_not_isolate :
    (¬ ∀ (config : Config) (occasion : Occasion) (disk disk' last last' : Disk)
      (sources sources' : List Source) (s : Source) (report report' : Report),
      config.auditLog = none → Finding config disk sources s → Finding config disk' sources' s →
      SameInputs (afterOpening config disk).root (afterOpening config disk').root config.inputRoot
        sources sources' s →
      ¬ Hindered (batches config.workers) config disk sources s →
      ¬ Hindered (batches config.workers) config disk' sources' s →
      (∀ q ∈ (s.outputs config.outputRoot).all,
        (disk.root.see? q).map Sight.untimed = (disk'.root.see? q).map Sight.untimed) →
      (run config occasion).runOn disk = (.ok report, last) →
      (run config occasion).runOn disk' = (.ok report', last') →
      ∀ v, report.Gives s.label v ↔ report'.Gives s.label v) ∧
    (¬ ∀ (config : Config) (occasion : Occasion) (disk disk' last last' : Disk)
      (sources sources' : List Source) (s : Source) (report report' : Report),
      config.auditLog = none → Finding config disk sources s → Finding config disk' sources' s →
      SameInputs (inputView config disk) (inputView config disk') config.inputRoot sources sources'
        s →
      (∀ q ∈ (s.outputs config.outputRoot).all,
        (disk.root.see? q).map Sight.untimed = (disk'.root.see? q).map Sight.untimed) →
      (run config occasion).runOn disk = (.ok report, last) →
      (run config occasion).runOn disk' = (.ok report', last') →
      ∀ v, report.Gives s.label v ↔ report'.Gives s.label v) ∧
    ¬ ∀ (config : Config) (occasion : Occasion) (disk last : Disk) (sources : List Source)
      (s : Source) (report : Report) (error : Text),
      config.auditLog = none → Finding config disk sources s →
      SameInputs (inputView config disk) (inputView config disk) config.inputRoot sources sources s →
      (run config occasion).runOn disk = (.ok report, last) → report.Gives s.label (.failed error) →
      ∀ q ∈ (s.outputs config.outputRoot).all, last.root.see? q = disk.root.see? q := by
  refine ⟨fun h => ?_, fun h => ?_, fun h => ?_⟩
  · obtain ⟨hfinds, hfinds', hreport, hreport', hsame, hroomy, hroomy', hreads, hreads'⟩ :
        Finding singleConfig crossed [linkedSource, brokenSource] linkedSource ∧
        Finding singleConfig uncrossed [linkedSource] linkedSource ∧
        ((run singleConfig plainOccasion).runOn crossed).1 =
          .ok ⟨["b.html".toList], [], [], [⟨"a.html".toList, unnamedError⟩]⟩ ∧
        ((run singleConfig plainOccasion).runOn uncrossed).1 =
          .ok ⟨[], [], ["b.ts".toList, ".".toList], [⟨"a.html".toList, undecodableError⟩]⟩ ∧
        (∀ q ∈ (linkedSource.outputs singleConfig.outputRoot).all,
          (crossed.root.see? q).map Sight.untimed = (uncrossed.root.see? q).map Sight.untimed) ∧
        (linkedSource.directory singleConfig.outputRoot).Roomy
          (afterOpening singleConfig crossed).root directoryRoom ∧
        (linkedSource.directory singleConfig.outputRoot).Roomy
          (afterOpening singleConfig uncrossed).root directoryRoom ∧
        Reads (afterOpening singleConfig crossed).root ["src".toList, "a.html".toList] [255] 0 ∧
        Reads (afterOpening singleConfig uncrossed).root ["src".toList, "a.html".toList] [255] 0 := by
      decide +kernel
    have hinputs : SameInputs (afterOpening singleConfig crossed).root
        (afterOpening singleConfig uncrossed).root singleConfig.inputRoot
        [linkedSource, brokenSource] [linkedSource] linkedSource :=
      sameInputs_of_reads [255] 0 (by decide) (by decide) hreads hreads'
    have hiff := h singleConfig plainOccasion crossed uncrossed _ _ _ _ linkedSource _ _ rfl
      hfinds hfinds' hinputs
      (not_hindered hfinds.found hfinds.mem hroomy (calm_of_single (by decide)))
      (not_hindered hfinds'.found hfinds'.mem hroomy' (calm_of_single (by decide)))
      hsame (Work.runOn_eq_of_end hreport) (Work.runOn_eq_of_end hreport') (.failed unnamedError)
    exact absurd (hiff.1 (by decide)) (by decide)
  · obtain ⟨hfinds', hreport', hsame, hreads, hreads'⟩ :
        Finding plainConfig unraced [racingSource] racingSource ∧
        ((run plainConfig racingOccasion).runOn unraced).1 =
          .ok ⟨["sub/b.html".toList], [], [], []⟩ ∧
        (∀ q ∈ (racingSource.outputs plainConfig.outputRoot).all,
          (raced.root.see? q).map Sight.untimed = (unraced.root.see? q).map Sight.untimed) ∧
        Reads (inputView plainConfig raced) ["src".toList, "sub".toList, "b.html".toList]
          (Utf8.encode "<!doctype html><p id='q'>".toList) 1700000000000000000 ∧
        Reads (inputView plainConfig unraced) ["src".toList, "sub".toList, "b.html".toList]
          (Utf8.encode "<!doctype html><p id='q'>".toList) 1700000000000000000 := by
      decide +kernel
    have hinputs : SameInputs (inputView plainConfig raced) (inputView plainConfig unraced)
        plainConfig.inputRoot racedSources [racingSource] racingSource :=
      sameInputs_of_reads (Utf8.encode "<!doctype html><p id='q'>".toList) 1700000000000000000
        (by decide) (by decide) hreads hreads'
    have hiff := h plainConfig racingOccasion raced unraced _ _ _ _ racingSource _ _ rfl
      raced_meets.1 hfinds' hinputs hsame (Work.runOn_eq_of_end raced_meets.2)
      (Work.runOn_eq_of_end hreport') .written
    exact absurd (hiff.2 (by decide)) (by decide)
  · obtain ⟨hreads, hchanged⟩ :
        Reads (inputView plainConfig misnamed)
          ["src".toList, Point.byte 127 :: ".html".toList]
          (Utf8.encode "<style>.a{}</style>".toList) 1700000000000000000 ∧
        ¬ ∀ q ∈ (misnamedSource.outputs plainConfig.outputRoot).all,
          ((run plainConfig plainOccasion).runOn misnamed).2.root.see? q =
            misnamed.root.see? q := by
      decide +kernel
    have hinputs : SameInputs (inputView plainConfig misnamed) (inputView plainConfig misnamed)
        plainConfig.inputRoot [misnamedSource] [misnamedSource] misnamedSource :=
      sameInputs_of_reads _ 1700000000000000000 (by decide) (by decide) hreads hreads
    exact hchanged (h plainConfig plainOccasion misnamed _ _ misnamedSource _ misnamedError rfl
      misnamed_meets.1 hinputs (Work.runOn_eq_of_end misnamed_meets.2) (by decide))

end Build
end TemplateBindings
