import TemplateBindings.Proofs.Build.Current
import TemplateBindings.Proofs.Build.Passing

/-!
# Builds one after another

Runs alternate with edits, and only runs write in the output directory. Each run has its own number of
workers, its own log and its own way of taking turns, and it may end with an error. What is there after
a run that ends with a report is then what a run from nothing would have left
(`TemplateBindings.Build.history_right`): for a source that was written or is current the files that its
inputs give now, and for a source that failed what was there before.

The invariant is that a module with a marker was written for inputs with this marker, together with the
other files of its source (`TemplateBindings.Build.Vouched`). A run that ends with an error keeps it: it
has left the outputs alone, or it has dealt with all sources, or its sweep has met a directory that is
too deep, which then stands in the way of every later run.
-/

namespace TemplateBindings
namespace Build

open Files

variable {roots : Roots} {rounds rounds' every : List Round} {round other : Round} {disk later : Disk}
  {all : List Source} {s : Source} {files files' : Entry} {out q : Path} {stages : Stages}
  {report : Report}

/-! ### Builds -/

/-- **A build**: the disk that it starts from, its configuration, and its occasion. -/
structure Round where
  /-- The disk. -/
  first : Disk
  /-- The configuration. -/
  config : Config
  /-- The occasion. -/
  occasion : Occasion

namespace Round

/-- How a build ends. -/
def result (round : Round) : Except RunError Report :=
  ((run round.config round.occasion).runOn round.first).1

/-- The disk that it leaves. -/
def last (round : Round) : Disk := ((run round.config round.occasion).runOn round.first).2

/-- The files at a build, with its roots opened. -/
def opened (round : Round) : Entry := (afterOpening round.config round.first).root

/-- The sources that it finds, if it finds any. -/
def sources (round : Round) : List Source :=
  (foundBy round.config round.first).toOption.getD []

/-- The marker of a source at a build. -/
def marker (round : Round) (s : Source) : Except SourceError Text :=
  markerOf round.opened round.config.inputRoot s (s.stylesheet? round.sources)

/-- What a source is compiled to at a build. -/
def compiled (round : Round) (s : Source) (marker : Text) :
    Except SourceError GeneratedModule.Artifacts :=
  compileSource round.opened round.config.inputRoot s (s.stylesheet? round.sources) marker

/-- What the texts of a source and of the stylesheet beside it are read as. -/
def texts (round : Round) (s : Source) :
    Except SourceError Text × Option (Except SourceError Text) :=
  (readText round.opened (s.path round.config.inputRoot), (s.stylesheet? round.sources).map
    fun sheet => readText round.opened (sheet.path round.config.inputRoot))

/-- **A build of given roots** in a valid file system, with a settled configuration and no log among the
outputs. -/
structure Of (roots : Roots) (round : Round) : Prop where
  /-- The file system is valid. -/
  valid : round.first.root.Valid
  /-- The configuration is settled. -/
  settled : round.config.Settled round.first.root
  /-- It has these roots. -/
  roots_eq : rootsOf round.config = roots
  /-- The log lies elsewhere. -/
  apart : ∀ log ∈ round.config.auditLog, ¬ round.config.outputRoot <+: log

instance (roots : Roots) (round : Round) : Decidable (round.Of roots) :=
  decidable_of_iff
    (round.first.root.Valid ∧ round.config.Settled round.first.root ∧
      rootsOf round.config = roots ∧
        ∀ log ∈ round.config.auditLog, ¬ round.config.outputRoot <+: log)
    ⟨fun ⟨hvalid, hsettled, hroots, hapart⟩ => ⟨hvalid, hsettled, hroots, hapart⟩,
      fun h => ⟨h.valid, h.settled, h.roots_eq, h.apart⟩⟩

/-- **What a build leaves of a source is right**: the files that its inputs give, if the source was
written or is current, and what was there, if it failed. -/
structure Right (round : Round) (report : Report) (s : Source) : Prop where
  /-- The files of a source that did not fail. -/
  made : s.label ∈ report.written ∨ s.label ∈ report.cached → ∃ marker artifacts,
    round.marker s = .ok marker ∧ round.compiled s marker = .ok artifacts ∧
      Holding round.config.outputRoot s artifacts round.last.root.see?
  /-- The places of a source that failed. -/
  failed : ∀ error, ⟨s.label, error⟩ ∈ report.failures →
    ∀ q ∈ (s.outputs round.config.outputRoot).all,
      round.last.root.see? q = round.first.root.see? q

/-- **Nothing is left but outputs** of the sources that a build finds, and directories. -/
def LeavesOnlyOutputs (round : Round) : Prop :=
  ∀ q sight, round.config.outputRoot <+: q → q ≠ round.config.outputRoot →
    round.last.root.see? q = some sight → sight ≠ .directory →
      ∃ s ∈ markupOf round.sources, q ∈ (s.outputs round.config.outputRoot).all

theorem Of.sources_eq (h : round.Of roots)
    (hworks : Works (batches round.config.workers) round.config round.occasion round.first stages) :
    round.sources = stages.sources := by
  obtain ⟨operations, hopens⟩ := openRoots_opens h.settled
  have hopened := hworks.opened_eq
  rw [hworks.opens] at hopens
  have hdiscovers := hworks.discovers
  rw [hopens.roots_eq _ rfl, hopened] at hdiscovers
  have hfound : foundBy round.config round.first = .ok stages.sources := hdiscovers
  rw [sources, hfound]
  rfl

/-- The sources of a build have regular places. -/
theorem Of.regular (h : round.Of roots) (hs : s ∈ markupOf round.sources) : s.Regular := by
  obtain ⟨operations, hopens⟩ := openRoots_opens h.settled
  have hvalid : round.opened.Valid := hopens.undergoes.valid h.valid
  have hmem := (mem_markupOf.1 hs).1
  rcases hfound : foundBy round.config round.first with e | found
  · rw [sources, hfound] at hmem
    cases hmem
  · rw [sources, hfound] at hmem
    exact (discover_regular hvalid hfound hmem).1

end Round

/-! ### One build -/

/-- **Outputs that only runs have made**: they are within the limits, and the places of sources are
ready. -/
structure Tended (out : Path) (all : List Source) (files : Entry) : Prop where
  /-- What is there is within the limits. -/
  fits : ∀ q, out <+: q → q ≠ out → files.see? q ≠ none → Path.Fits q
  /-- The places are ready. -/
  ready : ∀ s ∈ all, Ready files out s

/-- They stay so where only their directory may appear. -/
theorem Tended.of_below (h : Tended out all files) (hall : ∀ s ∈ all, s.Regular)
    (hsame : ∀ q, out <+: q → files'.see? q = files.see? q ∨
      q = out ∧ files'.see? q = some .directory) : Tended out all files' where
  fits q hq hne hthere := by
    rw [(hsame q hq).resolve_right fun h => hne h.1] at hthere
    exact h.fits q hq hne hthere
  ready s hs := (h.ready s hs).of_left (hall s hs) fun q hq => .inr (hsame q hq)

/-- **What a build leaves** of outputs that only runs have made. -/
inductive Round.Leaves (all : List Source) (round : Round) : Prop
  /-- It did not come to its sources. -/
  | untouched (result : ∀ report, round.result ≠ .ok report)
    (same : ∀ q, round.config.outputRoot <+: q → round.last.root.see? q = round.first.root.see? q ∨
      q = round.config.outputRoot ∧ round.last.root.see? q = some .directory)
  /-- Its sweep met a directory that is too deep. -/
  | deep {q : Path} (result : ∀ report, round.result ≠ .ok report)
    (tooDeep : TooDeep round.last.root sweepRoom round.config.outputRoot q)
  /-- It dealt with its sources. -/
  | tended (tended : Tended round.config.outputRoot all round.last.root)
    (only : round.LeavesOnlyOutputs)
    (dealt : ∀ s ∈ markupOf round.sources,
      InView (inputView round.config round.first) round.config.inputRoot round.sources s →
      Encodes round.opened (rootsOf round.config) round.sources s → ∃ outcome,
        (∀ report, round.result = .ok report →
          ∀ verdict, report.Gives s.label verdict ↔ verdict = outcome.verdict) ∧
        Dealt round.opened (rootsOf round.config) round.sources s round.first.root.see?
          round.last.root.see? outcome)

/-- A run that has worked on its sources was in good order, and found the outputs tended. -/
theorem Round.Of.inOrder (h : round.Of roots) (hall : ∀ s ∈ all, s.Regular)
    (hseparate : Separate round.config.outputRoot all)
    (hsub : ∀ s ∈ markupOf round.sources, s ∈ all)
    (htended : Tended round.config.outputRoot all round.first.root)
    (hworks : Works (batches round.config.workers) round.config round.occasion round.first stages) :
    InOrder (batches round.config.workers) round.config stages ∧
      Tended round.config.outputRoot all stages.opened.root := by
  rw [h.sources_eq hworks] at hsub
  have hopened : Tended round.config.outputRoot all stages.opened.root := by
    rw [hworks.opened_eq]
    exact htended.of_below hall fun q hq => afterOpening_below h.settled h.apart hq
  exact ⟨hworks.inOrder (covers_batches _) h.valid h.settled
    (fun s hs t ht hne => hseparate s (hsub s hs) t (hsub t ht) hne)
    fun s hs => hopened.ready s (hsub s hs), hopened⟩

/-- **A build leaves its outputs tended**, unless its sweep meets a directory that is too deep. -/
theorem Round.Of.leaves (h : round.Of roots) (hall : ∀ s ∈ all, s.Regular)
    (hseparate : Separate round.config.outputRoot all)
    (hsub : ∀ s ∈ markupOf round.sources, s ∈ all)
    (htended : Tended round.config.outputRoot all round.first.root) : round.Leaves all := by
  have hplan := covers_batches round.config.workers
  have hleaves := run_leaves h.settled (batches round.config.workers) round.occasion
  have hresult : ((runBy (batches round.config.workers) round.config round.occasion).runOn
      round.first).1 = round.result := rfl
  have hlast : ((runBy (batches round.config.workers) round.config round.occasion).runOn
      round.first).2 = round.last := rfl
  rw [hresult, hlast] at hleaves
  generalize hend : round.result = result at hleaves
  generalize hleft : round.last = last at hleaves
  cases hleaves with
  | unopened =>
    refine .untouched (fun report hok => ?_) fun q hq => ?_
    · rw [hend] at hok
      cases hok
    · rw [hleft]
      exact afterOpening_below h.settled h.apart hq
  | @unswept e cause stages swept hworks hstopped =>
    obtain ⟨ho, hopened⟩ := h.inOrder hall hseparate hsub htended hworks
    obtain ⟨trace, haccounts⟩ := hworks.accounts ho
    have hfits (q : Path) (hq : round.config.outputRoot <+: q)
        (hthere : stages.worked.root.see? q ≠ none) : q.Fits := by
      by_cases hne : q = round.config.outputRoot
      · rw [hne]
        exact ho.prepared.root.fits
      · exact (haccounts.worked.performs.undergoes.fits_of_new hthere).elim
          (hopened.fits q hq hne) id
    obtain ⟨q, hdeep⟩ := hworks.tooDeep_of_unswept hplan h.settled h.valid hfits hstopped
    refine .deep (fun report hok => ?_) (hleft ▸ hdeep)
    rw [hend] at hok
    cases hok
  | @passed _ stages _ hpasses hreports =>
    have hsources := h.sources_eq hpasses.toWorks
    obtain ⟨ho, hopened⟩ := h.inOrder hall hseparate hsub htended hpasses.toWorks
    have hsound := hpasses.toWorks.sound hplan (spelled_of_settled h.settled) h.valid
    rw [hsources] at hsub
    have hfiles : stages.opened.root = round.opened := by rw [hpasses.toWorks.opened_eq]; rfl
    subst hleft
    refine .tended ⟨fun q hq hne => hpasses.fits ho h.apart (fun hq => hopened.fits q hq hne) hq,
      fun s hs => hpasses.ready ho h.apart (hall s hs) (fun t ht hne => ?_) (hopened.ready s hs)⟩
      (fun q sight hq hne hsight hleaf => ?_) fun s hs hview hencodes => ?_
    · have ht := hsub t ((hplan _).mem_iff.1 ht)
      exact ⟨hseparate s hs t ht hne, hseparate t ht s hs hne.symm⟩
    · rw [hsources]
      exact hpasses.only ho hsound h.apart hq hne hsight hleaf
    · rw [hsources] at hs hview hencodes ⊢
      rw [inputView, ← hpasses.toWorks.opened_eq] at hview
      rw [← hfiles] at hencodes ⊢
      obtain ⟨outcome, houtcome, hdealt⟩ :=
        hpasses.dealt hplan ho hsound ho.prepared.root h.apart hs hview hencodes
      refine ⟨outcome, fun report hok verdict => ?_, hdealt.congr fun q hq => ?_⟩
      · rw [(hreports report (hend.symm.trans hok)).report_eq]
        exact hsound.gives_iff houtcome
      · rw [hpasses.toWorks.opened_eq]
        exact afterOpening_outputs h.settled h.apart (hall s (hsub s hs)) hq

/-! ### Any number of builds -/

/-- **A history** of builds of given roots: from no outputs on, edits and builds, the last build first.
Edits leave what is below the output directory. Each build may have its own configuration otherwise, and
may end with an error. -/
inductive History (roots : Roots) : List Round → Disk → Prop
  /-- At first there are no outputs. -/
  | start {disk : Disk} (missing : ∀ q, roots.output <+: q → disk.root.see? q = none) :
    History roots [] disk
  /-- Anything else is edited. -/
  | edit {rounds : List Round} {disk later : Disk} (history : History roots rounds disk)
      (same : ∀ q, roots.output <+: q → later.root.see? q = disk.root.see? q ∨
        q = roots.output ∧ later.root.see? q = some .directory) :
    History roots rounds later
  /-- There is a build. -/
  | build {rounds : List Round} {round : Round} (history : History roots rounds round.first)
      (build : round.Of roots) : History roots (round :: rounds) round.last

theorem History.of_mem (h : History roots rounds disk) : ∀ round ∈ rounds, round.Of roots := by
  induction h with
  | start _ => exact nofun
  | edit _ _ ih => exact ih
  | build _ build ih => exact List.forall_mem_cons.2 ⟨build, ih⟩

/-- The markup that any of some builds found. -/
def markupEver (rounds : List Round) : List Source :=
  rounds.flatMap fun round => markupOf round.sources

theorem mem_markupEver : s ∈ markupEver rounds ↔ ∃ round ∈ rounds, s ∈ markupOf round.sources :=
  List.mem_flatMap

/-- **The same marker means the same texts** of a source, in some builds. -/
def MarkersTell (rounds : List Round) (s : Source) : Prop :=
  ∀ round ∈ rounds, ∀ other ∈ rounds, s ∈ markupOf round.sources → s ∈ markupOf other.sources →
    ∀ marker, round.marker s = .ok marker → other.marker s = .ok marker →
      round.texts s = other.texts s

/-- **A source is read without the outputs**, in some builds. -/
def Viewed (rounds : List Round) (s : Source) : Prop :=
  ∀ round ∈ rounds, s ∈ markupOf round.sources →
    InView (inputView round.config round.first) round.config.inputRoot round.sources s

/-- **What is due for a source is text**, in some builds. -/
def Encoded (rounds : List Round) (s : Source) : Prop :=
  ∀ round ∈ rounds, s ∈ markupOf round.sources →
    Encodes round.opened (rootsOf round.config) round.sources s

/-- **Every marker of a module is vouched for** by a build that had this marker for the inputs of the
source, and the files that it made of them are there. -/
def Vouched (out : Path) (rounds : List Round) (s : Source) (files : Entry) : Prop :=
  ∀ marker, markerSeen (files.see? (s.outputs out).module) = some marker → ∃ round ∈ rounds,
    s ∈ markupOf round.sources ∧ ∃ artifacts, round.marker s = .ok marker ∧
      round.compiled s marker = .ok artifacts ∧ Holding out s artifacts files.see?

/-- A source whose places are left is vouched for as before. -/
theorem Vouched.of_left (h : Vouched out rounds s files) (hs : s.Regular)
    (hleft : ∀ q ∈ (s.outputs out).all, files'.see? q = files.see? q) :
    Vouched out rounds s files' := by
  intro marker hmarked
  rw [hleft _ List.mem_cons_self] at hmarked
  obtain ⟨round, hround, hmem, artifacts, hmarker, hc, hholding⟩ := h marker hmarked
  exact ⟨round, hround, hmem, artifacts, hmarker, hc, hholding.congr hs hleft⟩

theorem Vouched.mono (h : Vouched out rounds s files) (hsub : ∀ round ∈ rounds, round ∈ rounds') :
    Vouched out rounds' s files := by
  intro marker hmarked
  obtain ⟨round, hround, hvouched⟩ := h marker hmarked
  exact ⟨round, hsub round hround, hvouched⟩

/-- Where there is no module nothing is to be vouched for. -/
theorem vouched_of_none (h : files.see? (s.outputs out).module = none) :
    Vouched out rounds s files := by
  intro marker hmarked
  rw [h] at hmarked
  cases hmarked

/-- With the same texts the same files are made of a source. -/
theorem Round.compiled_congr (h : round.texts s = other.texts s) (marker : Text) :
    round.compiled s marker = other.compiled s marker := by
  obtain ⟨hhtml, hcss⟩ := Prod.mk.inj h
  have hbeside : answerBeside round.opened (s.stylesheet? round.sources) (fun files sheet =>
        readText files (sheet.path round.config.inputRoot)) =
      answerBeside other.opened (s.stylesheet? other.sources) fun files sheet =>
        readText files (sheet.path other.config.inputRoot) := by
    cases hsheet : s.stylesheet? round.sources <;> cases hsheet' : s.stylesheet? other.sources <;>
      rw [hsheet, hsheet'] at hcss
    · rfl
    · cases hcss
    · cases hcss
    · exact congrArg (Except.map some) (Option.some.inj hcss)
  rw [compiled, compiled, compileSource, compileSource, hhtml, hbeside]

/-- **A build keeps a source vouched for** that it has dealt with. -/
theorem Vouched.of_dealt {outcome : Outcome}
    (h : Vouched round.config.outputRoot rounds s round.first.root) (hs : s.Regular)
    (hmem : s ∈ markupOf round.sources)
    (hdealt : Dealt round.opened (rootsOf round.config) round.sources s round.first.root.see?
      round.last.root.see? outcome) :
    Vouched round.config.outputRoot (round :: rounds) s round.last.root := by
  cases hdealt with
  | failed left | cached _ _ left =>
    exact (h.of_left hs left).mono fun _ => List.mem_cons_of_mem _
  | @written marker artifacts _ hmarker hc hholding =>
    intro marker' hmarked
    -- the only marker that the module bears is that of the build
    cases (hholding.marked hs hmarker hc).symm.trans hmarked
    exact ⟨round, List.mem_cons_self, hmem, artifacts, hmarker, hc, hholding⟩

/-- **What a build leaves of a source is right** where the source is vouched for: if it is current, it
was made from the texts that it has now. -/
theorem Vouched.right {outcome : Outcome}
    (h : Vouched round.config.outputRoot rounds s round.first.root) (hs : s.Regular)
    (hmem : s ∈ markupOf round.sources)
    (hgives : ∀ verdict, report.Gives s.label verdict ↔ verdict = outcome.verdict)
    (hdealt : Dealt round.opened (rootsOf round.config) round.sources s round.first.root.see?
      round.last.root.see? outcome)
    (htell : MarkersTell every s) (hround : round ∈ every) (hrounds : ∀ other ∈ rounds, other ∈ every) :
    round.Right report s where
  made hmade := by
    cases hdealt with
    | failed _ =>
      rcases hmade with hmade | hmade
      · cases (hgives .written).1 hmade
      · cases (hgives .cached).1 hmade
    | @cached marker hmarker hmarked left =>
      obtain ⟨other, hother, hmem', artifacts, hmarker', hc, hholding⟩ := h marker hmarked
      have htexts := htell round hround other (hrounds other hother) hmem hmem' marker hmarker
        hmarker'
      exact ⟨marker, artifacts, hmarker, (Round.compiled_congr htexts marker).trans hc,
        hholding.congr hs left⟩
    | @written marker artifacts _ hmarker hc hholding =>
      exact ⟨marker, artifacts, hmarker, hc, hholding⟩
  failed error herror := by
    cases hdealt with
    | failed left => exact left
    | cached _ _ _ => cases (hgives (.failed error)).1 herror
    | written _ _ _ => cases (hgives (.failed error)).1 herror

/-- Of a source that a build does not find nothing is left. -/
theorem Round.LeavesOnlyOutputs.gone (h : round.LeavesOnlyOutputs)
    (htended : Tended round.config.outputRoot all round.last.root)
    (hseparate : Separate round.config.outputRoot all)
    (hsub : ∀ s ∈ markupOf round.sources, s ∈ all) (hs : s ∈ all) (hr : s.Regular)
    (hnot : s ∉ markupOf round.sources) (hq : q ∈ (s.outputs round.config.outputRoot).all) :
    round.last.root.see? q = none := by
  obtain ⟨hbelow, hne⟩ := outputs_below hr hq
  rcases hsight : round.last.root.see? q with _ | sight
  · rfl
  have hleaf : sight ≠ .directory := by
    rintro rfl
    have hwritable := (htended.ready s hs).outputs q hq
    rw [hsight] at hwritable
    exact hwritable
  obtain ⟨t, ht, hown⟩ := h q sight hbelow hne hsight hleaf
  have hst : s ≠ t := fun he => hnot (he ▸ ht)
  exact absurd hown ((hseparate s hs t (hsub t ht) hst).outputs q hq).1

/-- **What a history keeps** in the output directory. -/
inductive Kempt (roots : Roots) (every rounds : List Round) (files : Entry) : Prop
  /-- A directory there is too deep. -/
  | deep {q : Path} (tooDeep : TooDeep files sweepRoom roots.output q)
  /-- It is tended, and the sources that are followed are vouched for. -/
  | tended (tended : Tended roots.output (markupEver every) files)
    (vouched : ∀ s ∈ markupEver every, Viewed every s → Encoded every s →
      Vouched roots.output rounds s files)

theorem Kempt.start (h : ∀ q, roots.output <+: q → files.see? q = none)
    (hall : ∀ s ∈ markupEver every, s.Regular) : Kempt roots every [] files := by
  have hbelow (s : Source) (n : Str) : files.see? (s.directory roots.output ++ [n]) = none :=
    h _ ((s.directory_prefix _).trans (List.prefix_append _ _))
  refine .tended ⟨fun q hq _ hthere => absurd (h q hq) hthere, fun s hs => ⟨fun way hout _ =>
    .inl (h way hout), fun path hpath => ?_, fun path hpath => ?_⟩⟩ fun s hs _ _ => ?_
  · obtain ⟨n, -, rfl⟩ := (Source.mem_outputs (hall s hs)).1 hpath
    rw [hbelow]
    trivial
  · obtain ⟨n, -, rfl⟩ := (Source.mem_drafts (hall s hs)).1 hpath
    rw [hbelow]
    trivial
  · refine vouched_of_none ?_
    rw [Source.module_eq (hall s hs), hbelow]

/-- What leaves everything below the output directory as it is keeps it so. -/
theorem Kempt.of_below (h : Kempt roots every rounds files)
    (hall : ∀ s ∈ markupEver every, s.Regular)
    (hsame : ∀ q, roots.output <+: q → files'.see? q = files.see? q ∨
      q = roots.output ∧ files'.see? q = some .directory) : Kempt roots every rounds files' := by
  cases h with
  | @deep q hdeep =>
    refine .deep ⟨hdeep.1, ?_, hdeep.2.2⟩
    rcases hsame q hdeep.1 with he | ⟨-, hdir⟩
    · exact he.trans hdeep.2.1
    · exact hdir
  | tended htended hvouched =>
    refine .tended (htended.of_below hall hsame) fun s hs hview hencodes =>
      (hvouched s hs hview hencodes).of_left (hall s hs) fun q hq => ?_
    obtain ⟨hbelow, hne⟩ := outputs_below (hall s hs) hq
    exact (hsame q hbelow).resolve_right fun h => hne h.1

theorem Kempt.mono (h : Kempt roots every rounds files)
    (hsub : ∀ round ∈ rounds, round ∈ rounds') : Kempt roots every rounds' files := by
  cases h with
  | deep hdeep => exact .deep hdeep
  | tended htended hvouched =>
    exact .tended htended fun s hs hview hencodes => (hvouched s hs hview hencodes).mono hsub

section Build

variable (hround : round ∈ every) (hof : round.Of roots)
  (hall : ∀ s ∈ markupEver every, s.Regular) (hseparate : Separate roots.output (markupEver every))
include hround hof hall hseparate

/-- **A build keeps the output directory kempt**, however it ends. -/
theorem Kempt.build (h : Kempt roots every rounds round.first.root) :
    Kempt roots every (round :: rounds) round.last.root := by
  obtain rfl := hof.roots_eq
  have hsub (s : Source) (hs : s ∈ markupOf round.sources) : s ∈ markupEver every :=
    mem_markupEver.2 ⟨round, hround, hs⟩
  cases h with
  | deep hdeep =>
    exact .deep (run_tooDeep (covers_batches _) hof.settled hof.valid hdeep round.occasion).2
  | tended htended hvouched =>
    cases hof.leaves hall hseparate hsub htended with
    | untouched _ hsame =>
      exact ((Kempt.tended htended hvouched).of_below hall hsame).mono fun _ =>
        List.mem_cons_of_mem _
    | deep _ hdeep => exact .deep hdeep
    | tended hleft honly hdealt =>
      refine .tended hleft fun s hs hview hencodes => ?_
      by_cases hmem : s ∈ markupOf round.sources
      · obtain ⟨outcome, -, hdealt⟩ :=
          hdealt s hmem (hview round hround hmem) (hencodes round hround hmem)
        exact (hvouched s hs hview hencodes).of_dealt (hall s hs) hmem hdealt
      · exact vouched_of_none
          (honly.gone hleft hseparate hsub hs (hall s hs) hmem List.mem_cons_self)

/-- **What a build leaves there is right**, if it ends with a report. -/
theorem Kempt.right (h : Kempt roots every rounds round.first.root)
    (hrounds : ∀ other ∈ rounds, other ∈ every) (hok : round.result = .ok report) :
    round.LeavesOnlyOutputs ∧ ∀ s ∈ markupOf round.sources, MarkersTell every s →
      Viewed every s → Encoded every s → round.Right report s := by
  obtain rfl := hof.roots_eq
  have hsub (s : Source) (hs : s ∈ markupOf round.sources) : s ∈ markupEver every :=
    mem_markupEver.2 ⟨round, hround, hs⟩
  cases h with
  | deep hdeep =>
    exact absurd hok
      ((run_tooDeep (covers_batches _) hof.settled hof.valid hdeep round.occasion).1 report)
  | tended htended hvouched =>
    cases hof.leaves hall hseparate hsub htended with
    | untouched hresult _ => exact absurd hok (hresult report)
    | deep hresult _ => exact absurd hok (hresult report)
    | tended _ honly hdealt =>
      refine ⟨honly, fun s hmem htell hview hencodes => ?_⟩
      obtain ⟨outcome, hgives, hdealt⟩ :=
        hdealt s hmem (hview round hround hmem) (hencodes round hround hmem)
      exact (hvouched s (hsub s hmem) hview hencodes).right (hall s (hsub s hmem)) hmem
        (hgives report hok) hdealt htell hround hrounds

end Build

/-- **Through a history the output directory is kempt, and what builds leave is right.** -/
theorem History.kempt (h : History roots rounds disk) (hrounds : ∀ round ∈ rounds, round ∈ every)
    (hall : ∀ s ∈ markupEver every, s.Regular)
    (hseparate : Separate roots.output (markupEver every)) :
    Kempt roots every rounds disk.root ∧ ∀ round ∈ rounds, ∀ report, round.result = .ok report →
      round.LeavesOnlyOutputs ∧ ∀ s ∈ markupOf round.sources, MarkersTell every s →
        Viewed every s → Encoded every s → round.Right report s := by
  induction h with
  | start hmissing => exact ⟨.start hmissing hall, nofun⟩
  | edit history hsame ih =>
    obtain ⟨hkempt, hright⟩ := ih hrounds
    exact ⟨hkempt.of_below hall hsame, hright⟩
  | @build rounds round history hof ih =>
    obtain ⟨hround, hrounds⟩ := List.forall_mem_cons.1 hrounds
    obtain ⟨hkempt, hright⟩ := ih hrounds
    exact ⟨hkempt.build hround hof hall hseparate, List.forall_mem_cons.2
      ⟨fun report hok => hkempt.right hround hof hall hseparate hrounds hok, hright⟩⟩

/-- **Incremental builds leave what builds from nothing would leave.** Whatever is edited between them,
however many workers each of them has and whatever log, and whichever of them end with an error: where
the sources that ever were keep clear of each other, a build that ends with a report leaves nothing but
outputs of its sources. What it leaves of a source is right for the inputs as they are at the build, if
the same marker of the source has always meant the same texts, and the source has always been read
without the outputs and its files have been text. -/
theorem history_right (h : History roots rounds disk)
    (hseparate : Separate roots.output (markupEver rounds)) :
    ∀ round ∈ rounds, ∀ report, round.result = .ok report →
      round.LeavesOnlyOutputs ∧ ∀ s ∈ markupOf round.sources, MarkersTell rounds s →
        Viewed rounds s → Encoded rounds s → round.Right report s := by
  refine (h.kempt (fun _ => id) (fun s hs => ?_) hseparate).2
  obtain ⟨round, hround, hmem⟩ := mem_markupEver.1 hs
  exact (h.of_mem round hround).regular hmem

/-! ### A history with a build that ends with an error -/

/-- **A history starts where there is no output directory.** -/
theorem History.start_of_none (h : disk.root.see? roots.output = none) : History roots [] disk := by
  refine .start fun q hq => ?_
  obtain ⟨rest, rfl⟩ := hq
  rcases rest with _ | ⟨n, rest⟩
  · rw [List.append_nil, h]
  · exact Entry.see?_below_none (by rw [h]; nofun) (List.cons_ne_nil n rest)

/-- An edit of one file elsewhere. -/
theorem History.edited {way : Path} {name : Str} {entry : Option Entry} {now : Int}
    (h : History roots rounds disk) (hdir : disk.root.see? way = some .directory)
    (hbefore : disk.root.see? (way ++ [name]) ≠ some .directory)
    (hafter : (Build.edited disk way name entry now).root.see? (way ++ [name]) ≠ some .directory)
    (hout : ¬ roots.output <+: way ++ [name]) :
    History roots rounds (Build.edited disk way name entry now) := by
  refine .edit h fun q hq => .inl (edited_see? hdir hbefore hafter ?_)
  rintro rfl
  exact hout hq

/-- Markers tell the texts of a source if they are the same only where the texts are. -/
theorem markersTell_of_eq (h : ∀ round ∈ rounds, ∀ other ∈ rounds,
    round.marker s = other.marker s → round.texts s = other.texts s) : MarkersTell rounds s :=
  fun round hround other hother _ _ _ hmarker hmarker' =>
    h round hround other hother (hmarker.trans hmarker'.symm)

instance (view : Entry) (root : Path) (sources : List Source) (s : Source) :
    Decidable (InView view root sources s) :=
  inferInstanceAs (Decidable (_ ∧ ∀ sheet ∈ s.stylesheet? sources, _))

instance (files : Entry) (roots : Roots) (sources : List Source) (s : Source) :
    Decidable (Encodes files roots sources s) :=
  decidable_of_iff (∀ made ∈ (due files roots sources s).toOption.join, firstFault? made = none)
    ⟨fun h made hdue => h made (by rw [hdue]; rfl), fun h made hmade => by
      refine h made ?_
      rcases hdue : due files roots sources s with e | due
      · rw [hdue] at hmade
        cases hmade
      · rw [hdue] at hmade
        rw [show due = some made from hmade]⟩

instance (rounds : List Round) (s : Source) : Decidable (Viewed rounds s) :=
  inferInstanceAs (Decidable (∀ round ∈ rounds, s ∈ markupOf round.sources → InView _ _ _ s))

instance (rounds : List Round) (s : Source) : Decidable (Encoded rounds s) :=
  inferInstanceAs (Decidable (∀ round ∈ rounds, s ∈ markupOf round.sources → Encodes _ _ _ s))

/-- The first build of the disk `paired`, with two workers. -/
def firstRound : Round := ⟨paired, plainConfig, turningOccasion⟩

/-- The build after the stylesheet was changed, with four workers and a directory in the place of its
log. -/
def failingRound : Round where
  first := edited firstRound.last ["src".toList] "a.css".toList
    (some (.file (Utf8.encode ".y{}".toList) 1690000000000000000)) 1700000000000000000
  config := { plainConfig with workers := 4, auditLog := some ["src".toList] }
  occasion := plainOccasion

/-- The build after that, with one worker and a log. -/
def lastRound : Round where
  first := failingRound.last
  config := { plainConfig with workers := 1, auditLog := some ["log".toList] }
  occasion := plainOccasion

/-- Its report: the source is current. -/
def lastReport : Report := ⟨[], ["a.html".toList], [], []⟩

/-- The builds, the last one first. -/
def roundsOfPaired : List Round := [lastRound, failingRound, firstRound]

theorem roundsOfPaired_history :
    History (rootsOf plainConfig) roundsOfPaired lastRound.last := by
  obtain ⟨hmissing, hfirst, hfailing, hlast, hdir, hbefore, hafter⟩ :
      paired.root.see? ["out".toList] = none ∧ firstRound.Of (rootsOf plainConfig) ∧
      failingRound.Of (rootsOf plainConfig) ∧ lastRound.Of (rootsOf plainConfig) ∧
      firstRound.last.root.see? ["src".toList] = some .directory ∧
      firstRound.last.root.see? ["src".toList, "a.css".toList] ≠ some .directory ∧
      failingRound.first.root.see? ["src".toList, "a.css".toList] ≠ some .directory := by
    decide +kernel
  have hstart : History (rootsOf plainConfig) [] firstRound.first := .start_of_none hmissing
  have hedited : History (rootsOf plainConfig) [firstRound] failingRound.first :=
    (hstart.build hfirst).edited hdir hbefore hafter (by decide)
  exact (hedited.build hfailing).build hlast

/-- The build that ends with an error has written the outputs, and the next one finds them current. -/
theorem history_right_restyled :
    (∀ report, failingRound.result ≠ .ok report) ∧ lastRound.result = .ok lastReport ∧
      lastRound.LeavesOnlyOutputs ∧ lastRound.Right lastReport pairedSource := by
  obtain ⟨hfailing, hlast, hseparate, hmem, htell, hview, hencodes⟩ :
      failingRound.result.toOption = none ∧ lastRound.result = .ok lastReport ∧
      Separate ["out".toList] (markupEver roundsOfPaired) ∧
      pairedSource ∈ markupOf lastRound.sources ∧
      (∀ round ∈ roundsOfPaired, ∀ other ∈ roundsOfPaired,
        round.marker pairedSource = other.marker pairedSource →
          round.texts pairedSource = other.texts pairedSource) ∧
      Viewed roundsOfPaired pairedSource ∧ Encoded roundsOfPaired pairedSource := by
    decide +kernel
  obtain ⟨honly, hright⟩ :=
    history_right roundsOfPaired_history hseparate lastRound List.mem_cons_self lastReport hlast
  refine ⟨fun report hok => ?_, hlast, honly,
    hright pairedSource hmem (markersTell_of_eq htell) hview hencodes⟩
  rw [hok] at hfailing
  cases hfailing

/-! ### Builds that leave something else -/

/-- A disk with a source that is a link to an output of another source. -/
def linked : Disk where
  root := .directory
    [("src".toList, .directory
      [("b.html".toList, .file (Utf8.encode "<style>/*<p id='q'></p>*/</style>".toList)
          1600000000000000000),
        ("z.css".toList, .file [] 4000000000000000000),
        ("z.html".toList, .link "../out/b.css".toList)])]
  now := 1700000000000000000

/-- The first build there: the link leads nowhere. -/
def linkedRound : Round := ⟨linked, plainConfig, plainOccasion⟩

/-- The build after the first source was edited. -/
def relinkedRound : Round where
  first := edited linkedRound.last ["src".toList] "b.html".toList
    (some (.file (Utf8.encode "<style>/*<p id='r'></p>*/</style>".toList)
      1650000000000000000)) 1700000000000000000
  config := plainConfig
  occasion := plainOccasion

/-- The source that is a link. -/
def linkSource : Source := ⟨[], "z".toList, .markup⟩

/-- Its marker, which is the time of the stylesheet. -/
def linkMarker : Text := "2096-10-02T07:06:40.000Z".toList

theorem relinkedRound_history :
    History (rootsOf plainConfig) [relinkedRound, linkedRound] relinkedRound.last := by
  obtain ⟨hmissing, hlinked, hrelinked, hdir, hbefore, hafter⟩ :
      linked.root.see? ["out".toList] = none ∧ linkedRound.Of (rootsOf plainConfig) ∧
      relinkedRound.Of (rootsOf plainConfig) ∧
      linkedRound.last.root.see? ["src".toList] = some .directory ∧
      linkedRound.last.root.see? ["src".toList, "b.html".toList] ≠ some .directory ∧
      relinkedRound.first.root.see? ["src".toList, "b.html".toList] ≠ some .directory := by
    decide +kernel
  have hstart : History (rootsOf plainConfig) [] linkedRound.first := .start_of_none hmissing
  exact ((hstart.build hlinked).edited hdir hbefore hafter (by decide)).build hrelinked

/-- A build of a source whose name is no text, where nothing was built before. -/
def misnamedRound : Round where
  first :=
    { root := .directory
        [("src".toList, .directory
          [(misnamedSource.name ++ ".html".toList,
            .file (Utf8.encode "<style>.a{}</style>".toList) 1700000000000000000)])]
      now := 1700000000000000000 }
  config := plainConfig
  occasion := plainOccasion

/-- **What a build leaves is not always right** for a source that is read through the outputs: the
build changes it before it comes to it. Nor is it for a source whose module is no text: the build has
written its companions before it fails. -/
theorem history_reads_outputs :
    (¬ ∀ (roots : Roots) (rounds : List Round) (disk : Disk), History roots rounds disk →
      Separate roots.output (markupEver rounds) →
      ∀ round ∈ rounds, ∀ report, round.result = .ok report → ∀ s ∈ markupOf round.sources,
        MarkersTell rounds s → Encoded rounds s → round.Right report s) ∧
    ¬ ∀ (roots : Roots) (rounds : List Round) (disk : Disk), History roots rounds disk →
      Separate roots.output (markupEver rounds) →
      ∀ round ∈ rounds, ∀ report, round.result = .ok report → ∀ s ∈ markupOf round.sources,
        MarkersTell rounds s → Viewed rounds s → round.Right report s := by
  refine ⟨fun h => ?_, fun h => ?_⟩
  · obtain ⟨hok, hseparate, hmem, htell, hencodes, hmarked, hother⟩ :
        relinkedRound.result = .ok ⟨["b.html".toList, "z.html".toList], [], [], []⟩ ∧
        Separate ["out".toList] (markupEver [relinkedRound, linkedRound]) ∧
        linkSource ∈ markupOf relinkedRound.sources ∧
        (∀ round ∈ [relinkedRound, linkedRound], ∀ other ∈ [relinkedRound, linkedRound],
          round.marker linkSource = other.marker linkSource →
            round.texts linkSource = other.texts linkSource) ∧
        Encoded [relinkedRound, linkedRound] linkSource ∧
        relinkedRound.marker linkSource = .ok linkMarker ∧
        (relinkedRound.last.root.see? ["out".toList, "z.ts".toList]).map Sight.untimed ≠
          (relinkedRound.compiled linkSource linkMarker).toOption.map
            fun artifacts => .file artifacts.module.bytes 0 := by
      decide +kernel
    have hright := h _ _ _ relinkedRound_history hseparate relinkedRound List.mem_cons_self _ hok
      linkSource hmem (markersTell_of_eq htell) hencodes
    obtain ⟨marker, artifacts, hmarker, hc, hholding⟩ := hright.made (.inl (by decide))
    cases hmarked.symm.trans hmarker
    have hfile : (linkSource.name ++ moduleSuffix, artifacts.module) ∈
        artifactFiles linkSource.name artifacts := by simp [artifactFiles]
    obtain ⟨time, hseen⟩ := hholding.files _ hfile
    refine hother ?_
    rw [hc]
    exact congrArg (Option.map Sight.untimed) hseen
  · obtain ⟨hof, hmissing, hok, hseparate, hmem, hview, hchanged⟩ :
        misnamedRound.Of (rootsOf plainConfig) ∧
        misnamedRound.first.root.see? ["out".toList] = none ∧
        misnamedRound.result = .ok ⟨[], [], [Point.byte 127 :: ".ts.tmp".toList],
          [⟨Point.byte 127 :: ".html".toList, misnamedError⟩]⟩ ∧
        Separate ["out".toList] (markupEver [misnamedRound]) ∧
        misnamedSource ∈ markupOf misnamedRound.sources ∧
        Viewed [misnamedRound] misnamedSource ∧
        ¬ ∀ q ∈ (misnamedSource.outputs plainConfig.outputRoot).all,
          misnamedRound.last.root.see? q = misnamedRound.first.root.see? q := by
      decide +kernel
    have hhistory : History (rootsOf plainConfig) [misnamedRound] misnamedRound.last :=
      (History.start_of_none hmissing).build hof
    have htell : MarkersTell [misnamedRound] misnamedSource := by
      refine markersTell_of_eq fun round hround other hother _ => ?_
      rw [List.mem_singleton.1 hround, List.mem_singleton.1 hother]
    exact hchanged ((h _ _ _ hhistory hseparate misnamedRound List.mem_cons_self _ hok misnamedSource
      hmem htell hview).failed misnamedError (by decide))

end Build
end TemplateBindings
