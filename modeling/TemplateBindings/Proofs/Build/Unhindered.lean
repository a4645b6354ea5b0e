import TemplateBindings.Proofs.Build.Discovering
import TemplateBindings.Proofs.Build.Outside

/-!
# Runs that nothing hinders

A failing source does not stop a run, but a failure of the run's own does: a directory that cannot be
made, a link that leads in a circle where sources are looked for, an output that cannot be removed, a
log that cannot be written. Where the file system holds none of these
(`TemplateBindings.Build.Unhindered`), a run with a directory of sources ends with a report
(`TemplateBindings.Build.Unhindered.run_isOk`). Without one it stops for want of its sources, and has
made no more than the directory of its log (`TemplateBindings.Build.Startable.runOn_run`).
-/

namespace TemplateBindings
namespace Build

open Files

variable {config : Config} {occasion : Occasion} {disk opened worked : Disk}
  {sources : List Source} {outcomes : List (Source × Outcome)} {q log : Path}

/-! ### What a run asks of the file system -/

/-- **A run that can start**: the directory of its log can be made, and whether there is one of sources
can be told. -/
structure Startable (config : Config) (files : Entry) : Prop where
  /-- No link stands on the way to the sources. -/
  input : config.inputRoot.Plain files
  /-- The way is within the limits. -/
  fits : config.inputRoot.Fits
  /-- No link stands on the way to the outputs. -/
  output : config.outputRoot.Plain files
  /-- The directory of the log is there or can be made. -/
  log : ∀ log ∈ config.auditLog, log.parent.Makeable files logRoom
  /-- No missing directory of sources comes to be with it. -/
  apart : ∀ log ∈ config.auditLog, config.inputRoot <+: log.parent →
    files.see? config.inputRoot ≠ none

instance (config : Config) (files : Entry) : Decidable (Startable config files) :=
  decidable_of_iff
    (config.inputRoot.Plain files ∧ config.inputRoot.Fits ∧ config.outputRoot.Plain files ∧
      (∀ log ∈ config.auditLog, log.parent.Makeable files logRoom) ∧
      ∀ log ∈ config.auditLog, config.inputRoot <+: log.parent →
        files.see? config.inputRoot ≠ none)
    ⟨fun ⟨hinput, hfits, houtput, hlog, hapart⟩ => ⟨hinput, hfits, houtput, hlog, hapart⟩,
      fun h => ⟨h.input, h.fits, h.output, h.log, h.apart⟩⟩

/-- **A source whose place nothing hinders.** -/
structure Placeable (config : Config) (files : Entry) (s : Source) : Prop where
  /-- No link stands in the places of its outputs. -/
  unlinked : Unlinked files config.outputRoot s
  /-- The directory for them is not too deep. -/
  shallow : s.place.length < sweepRoom
  /-- It is not in the place of the log. -/
  apart : ∀ log ∈ config.auditLog, ¬ log <+: s.directory config.outputRoot

instance (config : Config) (files : Entry) (s : Source) : Decidable (Placeable config files s) :=
  decidable_of_iff
    (Unlinked files config.outputRoot s ∧ s.place.length < sweepRoom ∧
      ∀ log ∈ config.auditLog, ¬ log <+: s.directory config.outputRoot)
    ⟨fun ⟨hunlinked, hshallow, hapart⟩ => ⟨hunlinked, hshallow, hapart⟩,
      fun h => ⟨h.unlinked, h.shallow, h.apart⟩⟩

/-- **A run that nothing hinders** once it has started. -/
structure Unhindered (config : Config) (disk : Disk) : Prop where
  /-- The file system is valid. -/
  valid : disk.root.Valid
  /-- The output directory is there or can be made. -/
  output : config.outputRoot.Makeable disk.root directoryRoom
  /-- What is in it is within the limits. -/
  fits : ∀ q, disk.root.see? q ≠ none → config.outputRoot <+: q → Path.Fits q
  /-- No directory in it is too deep. -/
  shallow : ∀ q, ¬ TooDeep (afterOpening config disk).root sweepRoom config.outputRoot q
  /-- The log is within the limits. It is a file, or there is nothing in its place. -/
  log : ∀ log ∈ config.auditLog, log.Fits ∧ Sight.isWritable (disk.root.see? log)
  /-- No directory of outputs comes to be in its place. -/
  apart : ∀ log ∈ config.auditLog, ¬ log <+: config.outputRoot
  /-- What stands below the root of the sources can be looked at. -/
  view : ∀ way ∈ waysBelow (afterOpening config disk).root config.inputRoot,
    ¬ config.outputRoot <+: config.inputRoot ++ way →
      (isFile (afterOpening config disk).root (config.inputRoot ++ way)).isOk = true
  /-- Nor does anything hinder the places of the sources. -/
  places : ∀ sources, foundBy config disk = .ok sources → ∀ s ∈ sources, s.kind = .markup →
    Placeable config (afterOpening config disk).root s

/-! ### Starting -/

/-- **What starting may change**: directories on the way to the log may appear. -/
def LogPrepared (config : Config) (before after : Seen) : Prop :=
  ∀ q, after q = before q ∨
    before q = none ∧ after q = some .directory ∧ ∃ log ∈ config.auditLog, q <+: log.parent

theorem LogPrepared.directory {before after : Seen} (h : LogPrepared config before after)
    (hdir : before q = some .directory) : after q = some .directory := by
  rcases h q with he | ⟨-, he, -⟩
  · rw [he, hdir]
  · exact he

theorem LogPrepared.makeable {before after : Entry} {path : Path} {room : Nat}
    (h : LogPrepared config before.see? after.see?) (hpath : path.Makeable before room) :
    path.Makeable after room where
  free way hway := by
    rcases h way with he | ⟨-, he, -⟩
    · rw [he]
      exact hpath.free way hway
    · exact .inr he
  fits := hpath.fits
  roomy := hpath.roomy.mono fun _ hdir => h.directory hdir

/-- The directory of the log is made. -/
theorem Startable.prepares (h : Startable config disk.root) (hres : config.Resolved) :
    ∃ operations mid, (preparing config).runOn disk = (.ok (), mid) ∧
      disk.Undergoes operations mid ∧ (∀ o ∈ operations, ∃ way, o = .makeDirectory way) ∧
      LogPrepared config disk.root.see? mid.root.see? := by
  rw [preparing]
  cases hlog : config.auditLog with
  | none =>
    exact ⟨[], disk, rfl, .nil _, fun _ ho => absurd ho List.not_mem_nil, fun q => .inl rfl⟩
  | some log =>
    have hmakeable := h.log log hlog
    obtain ⟨operations, mid, hrun, hmakes⟩ :=
      hmakeable.makes (Path.parent_proper (hres.log log hlog))
    refine ⟨operations, mid, ?_, hmakes.undergoes,
      fun o ho => (hmakes.making o ho).imp fun _ ho => ho.2, fun q => ?_⟩
    · dsimp only
      rw [Work.runOn_mapError, Audit.prepare, hrun]
      rfl
    · rcases hmakes.making.see? hmakes.undergoes q with he | ⟨hq, he⟩
      · exact .inl he
      · rcases hmakeable.free q hq with hnone | hdir
        · exact .inr ⟨hnone, he, log, hlog, hq⟩
        · exact .inl (he.trans hdir.symm)

/-- **Whether there is a directory of sources** is the same once that of the log is made. -/
theorem Startable.isDirectory_eq {mid : Disk} (h : Startable config disk.root)
    (hres : config.Resolved) (hmid : LogPrepared config disk.root.see? mid.root.see?)
    (hinput : config.inputRoot.Plain mid.root) :
    isDirectory mid.root config.inputRoot = isDirectory disk.root config.inputRoot := by
  obtain ⟨before, hbefore⟩ := isDirectory_isOk hres.input h.input h.fits
  obtain ⟨after, hafter⟩ := isDirectory_isOk hres.input hinput h.fits
  have hsame : mid.root.see? config.inputRoot = some .directory ↔
      disk.root.see? config.inputRoot = some .directory := by
    rcases hmid config.inputRoot with he | ⟨hnone, -, log, hlog, hpre⟩
    · rw [he]
    · exact absurd hnone (h.apart log hlog hpre)
  have hiff : after = true ↔ before = true := by
    have hmid' := isDirectory_eq_true hres.input hinput
    have hdisk := isDirectory_eq_true hres.input h.input
    rw [hafter] at hmid'
    rw [hbefore] at hdisk
    simpa [hsame] using hmid'.trans ((and_congr_left' hsame).trans hdisk.symm)
  rw [hafter, hbefore, Bool.eq_iff_iff.2 hiff]

/-- **A run without a directory of sources** stops for want of it, and has made no more than the
directory of its log. -/
theorem Startable.runOn_run (h : Startable config disk.root) (hres : config.Resolved)
    (hmissing : isDirectory disk.root config.inputRoot = .ok false) (occasion : Occasion) :
    ∃ last, (run config occasion).runOn disk = (.error (.noInput config.inputRoot), last) ∧
      LogPrepared config disk.root.see? last.root.see? := by
  obtain ⟨operations, mid, hprepare, hu, hmaking, hmid⟩ := h.prepares hres
  have hin := plain_of_making hu hmaking h.input
  have hopen : (openRoots config).runOn disk = (.error (.noInput config.inputRoot), mid) := by
    rw [openRoots_eq, Work.runOn_bind_of_ok hprepare, runOn_opening hres.input hin hres.output
      (plain_of_making hu hmaking h.output), h.isDirectory_eq hres hmid hin, hmissing]
  exact ⟨mid, by rw [run, runBy, Work.runOn_bind_of_error hopen], hmid⟩

/-! ### Going on -/

section

theorem Reaches.opened_eq (h : Reaches (batches config.workers) config occasion disk opened sources outcomes worked) :
    afterOpening config disk = opened := by
  rw [afterOpening, h.opens]

variable (h : Unhindered config disk) (hstart : Startable config disk.root)

include h hstart

/-- The log can be added to. -/
theorem Unhindered.addable (hlog : log ∈ config.auditLog) : Audit.Addable disk.root logRoom log :=
  ⟨hstart.log log hlog, (h.log log hlog).1, (h.log log hlog).2⟩

variable (hres : config.Resolved)

include hres

/-- The configuration is settled. -/
theorem Unhindered.settled : config.Settled disk.root :=
  hres.settled hstart.input hstart.output
    fun _ hlog => (h.addable hstart hlog).plain (hres.log _ hlog)

variable (hinput : isDirectory disk.root config.inputRoot = .ok true)

include hinput

/-- **The roots are opened.** -/
theorem Unhindered.opens : ∃ opened operations,
    (openRoots config).runOn disk = (.ok (rootsOf config), opened) ∧
      Opens config disk (.ok (rootsOf config), opened) operations := by
  obtain ⟨operations, mid, hprepare, hu, hmaking, hmid⟩ := hstart.prepares hres
  have hin := plain_of_making hu hmaking hstart.input
  obtain ⟨made, opened, hmake, -⟩ := (hmid.makeable h.output).makes hres.output
  have hrun : (openRoots config).runOn disk = (.ok (rootsOf config), opened) := by
    rw [openRoots_eq, Work.runOn_bind_of_ok hprepare, runOn_opening hres.input hin hres.output
      (plain_of_making hu hmaking hstart.output), hstart.isDirectory_eq hres hmid hin, hinput, hmake]
  obtain ⟨operations, hopens⟩ := openRoots_opens (h.settled hstart hres)
  rw [hrun] at hopens
  exact ⟨opened, operations, hrun, hopens⟩

/-- **The sources are discovered and worked through.** -/
theorem Unhindered.reaches (occasion : Occasion) : ∃ opened sources outcomes worked,
    Reaches (batches config.workers) config occasion disk opened sources outcomes worked := by
  obtain ⟨opened, operations, hrun, hopens⟩ := h.opens hstart hres hinput
  have hopened : afterOpening config disk = opened := by rw [afterOpening, hrun]
  have hset := h.settled hstart hres
  have hv : opened.root.Valid := hopens.undergoes.valid h.valid
  obtain ⟨members, hat, hopen⟩ := openDirectory_of_isDirectory hres.input
    (hopens.plain hset.input_plain) (hopens.input _ rfl)
  have hview := h.view
  rw [hopened] at hview
  obtain ⟨found, hfound⟩ : ∃ found, sourcesAmong opened.root config.inputRoot
      (leaves [config.outputRoot] config.inputRoot [] (Entry.directory members).sorted) =
        .ok found := by
    refine sourcesAmong_isOk fun way hway => ?_
    obtain ⟨hbelow, hnot⟩ := (mem_leaves_iff hv hat hopen hres.apart
      (hopens.output _ rfl).directory).1 hway
    have hthere := hview way hbelow hnot
    rw [sourceAt]
    rcases hfile : isFile opened.root (config.inputRoot ++ way) with e | there
    · rw [hfile] at hthere
      cases hthere
    · exact ⟨_, rfl⟩
  have hdiscovers : discover opened.root config.inputRoot [config.outputRoot] =
      .ok (inOrder found) := by
    rw [discover, hopen]
    dsimp only
    rw [hfound]
    rfl
  exact ⟨opened, _, _, _, hrun, hdiscovers, rfl⟩

omit hinput

/-! ### Coming to the end -/

variable (hreaches : Reaches (batches config.workers) config occasion disk opened sources outcomes worked)

include hreaches

omit hstart hres in
/-- Nothing hinders the places of the sources that are worked on. -/
theorem Unhindered.placeable {s : Source} (hs : s ∈ (batches config.workers (markupOf sources)).flatten) :
    Placeable config opened.root s := by
  have hfound : foundBy config disk = .ok sources := by
    rw [foundBy, hreaches.opened_eq, hreaches.discovers]
  rw [← hreaches.opened_eq]
  exact h.places sources hfound s (mem_markupOf.1 ((covers_batches _ _).mem_iff.1 hs)).1 (mem_markupOf.1 ((covers_batches _ _).mem_iff.1 hs)).2

omit hstart hres in
/-- No link stands in them. -/
theorem Unhindered.unlinked :
    ∀ s ∈ (batches config.workers (markupOf sources)).flatten, Unlinked opened.root config.outputRoot s :=
  fun _ hs => (h.placeable hreaches hs).unlinked

/-- No directory is too deep once the sources are worked through. -/
theorem Unhindered.shallow_worked (q : Path) :
    ¬ TooDeep worked.root sweepRoom config.outputRoot q := by
  obtain ⟨-, -, -, htouches⟩ := hreaches.within (h.settled hstart hres) h.valid (covers_batches _)
    (h.unlinked hreaches)
  rintro ⟨hq, hdir, hlen⟩
  rcases htouches q with he | ⟨s, hs, ⟨hpre, -⟩ | ⟨-, hw⟩⟩
  · refine h.shallow q ⟨hq, ?_, hlen⟩
    rw [hreaches.opened_eq, ← he, hdir]
  · have hshort := (h.placeable hreaches hs).shallow
    have hle := hpre.length_le
    rw [Source.directory, List.length_append] at hle
    omega
  · rw [hdir] at hw
    exact hw

/-- What is in the output directory then is within the limits. -/
theorem Unhindered.fits_worked (hq : config.outputRoot <+: q) (hs : worked.root.see? q ≠ none) :
    Path.Fits q := by
  obtain ⟨operations, hstays, -⟩ :=
    hreaches.within (h.settled hstart hres) h.valid (covers_batches _) (h.unlinked hreaches)
  rcases hstays.undergoes.fits_of_new hs with hbefore | hfits
  · exact h.fits q hbefore hq
  · exact hfits

/-- Nothing but a file stands in the place of the log then. -/
theorem Unhindered.writable_worked (hlog : log ∈ config.auditLog) :
    Sight.isWritable (worked.root.see? log) := by
  have hset := h.settled hstart hres
  obtain ⟨-, -, -, htouches⟩ := hreaches.within hset h.valid (covers_batches _) (h.unlinked hreaches)
  obtain ⟨operations, hopens⟩ := openRoots_opens hset
  rw [hreaches.opens] at hopens
  have hopened : opened.root.see? log = disk.root.see? log := by
    refine (see?_of_making hopens.undergoes hopens.making log).resolve_right ?_
    rintro ⟨hout | ⟨other, hother, hpre⟩, -⟩
    · exact h.apart log hlog hout
    · cases Option.some.inj (hlog.symm.trans hother)
      rw [Path.parent_of_proper (hres.log log hlog)] at hpre
      exact Path.not_prefix_dropLast (h.addable hstart hlog).ne_nil hpre
  rcases htouches log with he | ⟨s, hs, ⟨hpre, -⟩ | ⟨-, hw⟩⟩
  · rw [he, hopened]
    exact (h.log log hlog).2
  · exact absurd hpre ((h.placeable hreaches hs).apart log hlog)
  · exact hw

/-- **The sweep leaves a log that can be added to**: its directory may be swept away with everything
else, but there is room to make it again. -/
theorem Unhindered.addable_swept {swept : Disk} {keep paths : List Path}
    {operations : List Operation}
    (hswept : Sweeps sweepRoom config.outputRoot keep worked (.ok paths, swept) operations)
    (hlog : log ∈ config.auditLog) : Audit.Addable swept.root Audit.directoryRoom log := by
  have hset := h.settled hstart hres
  obtain ⟨-, -, hdirs, -⟩ := hreaches.within hset h.valid (covers_batches _) (h.unlinked hreaches)
  obtain ⟨opening, hopens⟩ := openRoots_opens hset
  rw [hreaches.opens] at hopens
  have hroot := hreaches.outputRoot hset h.valid (covers_batches _) (h.unlinked hreaches)
  have hparent : worked.root.see? log.parent = some .directory :=
    hdirs _ (hopens.log _ rfl log hlog).1
  refine ⟨⟨fun way hway => ?_, (hopens.log _ rfl log hlog).2, ?_⟩, (h.log log hlog).1, ?_⟩
  · rcases hswept.none_or_eq way with he | he
    · exact .inl he
    · exact .inr (he.trans (Entry.see?_directory_of_prefix_directory hway hparent))
  · by_cases hout : config.outputRoot <+: log.parent
    · -- above the output directory nothing is swept away
      obtain ⟨rest, hrest⟩ := hout
      have hne := hset.output_ne_nil
      refine ⟨config.outputRoot.dropLast, config.outputRoot.getLast hne :: rest, ?_, ?_, ?_⟩
      · rw [← hrest, List.append_cons, List.dropLast_append_getLast hne]
      · exact (hswept.outside (Path.not_prefix_dropLast hne)).trans
          (Entry.see?_directory_of_prefix_directory (List.dropLast_prefix _) hroot.directory)
      · have hshallow : log.parent.length < config.outputRoot.length + sweepRoom := by
          by_contra hdeep
          exact h.shallow_worked hstart hres hreaches log.parent
            ⟨⟨rest, hrest⟩, hparent, by omega⟩
        rw [← hrest, List.length_append, sweepRoom, roomInside, callLimit] at hshallow
        rw [Audit.directoryRoom, roomInside, callLimit, List.length_cons]
        omega
    · exact ⟨log.parent, [], by simp, (hswept.outside hout).trans hparent, by simp⟩
  · rcases hswept.none_or_eq log with he | he
    · rw [he]
      trivial
    · rw [he]
      exact h.writable_worked hstart hres hreaches hlog

omit hreaches

include hinput

/-- **A run that nothing hinders ends with a report.** -/
theorem Unhindered.run_isOk (occasion : Occasion) :
    ∃ report last, (run config occasion).runOn disk = (.ok report, last) := by
  obtain ⟨opened, sources, outcomes, worked, hreaches⟩ := h.reaches hstart hres hinput occasion
  have hset := h.settled hstart hres
  obtain ⟨operations, hstays, -⟩ := hreaches.within hset h.valid (covers_batches _) (h.unlinked hreaches)
  have hv := hstays.undergoes.valid h.valid
  have hroot := hreaches.outputRoot hset h.valid (covers_batches _) (h.unlinked hreaches)
  obtain ⟨paths, hok⟩ := removeStale_isOk (keepOf config outcomes) hv hset.output_ne_nil hroot
    (h.shallow_worked hstart hres hreaches)
    fun q hq hs _ => h.fits_worked hstart hres hreaches hq hs
  obtain ⟨removals, hswept⟩ := removeStale_sweeps sweepRoom (keepOf config outcomes) hv
    (fun he => absurd he hset.output_ne_nil) hroot
  rcases hsweeps : (removeStale sweepRoom config.outputRoot (keepOf config outcomes)).runOn worked
    with ⟨result, swept⟩
  rw [hsweeps] at hok hswept
  cases hok
  have hlogged := logEvents_isOk hres.log
    (fun log hlog => h.addable_swept hstart hres hreaches hswept hlog) occasion outcomes paths
  rcases hlogs : (logEvents config (eventsAt config occasion outcomes paths)).runOn swept with
    ⟨result, last⟩
  rw [hlogs] at hlogged
  cases hlogged
  exact ⟨_, last, run_of_phases hset hreaches hsweeps hlogs⟩

end

end Build
end TemplateBindings
