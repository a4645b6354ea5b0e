import TemplateBindings.Proofs.Build.Account
import TemplateBindings.Proofs.Build.Orders

/-!
# Runs that end with a report

Where the directories that a configuration names are there, the roots of a run are opened
(`TemplateBindings.Build.openRoots_isOk`). Where nothing is too deep or too long to be removed and the
log can be added to, a run whose work is done ends with a report
(`TemplateBindings.Build.concluding_isOk`), and leaves in its output directory what it keeps and
nothing else (`TemplateBindings.Build.Concludes`).
-/

namespace TemplateBindings
namespace Build

open Files

variable {config : Config} {occasion : Occasion} {disk worked swept last : Disk}
  {outcomes : List (Source × Outcome)} {paths : List Path} {operations : List Operation} {out q : Path}
  {s : Source} {files files' : Entry}

/-! ### Opening -/

/-- **Where the roots of a run can be opened**: only the output directory itself may be missing. -/
structure Openable (config : Config) (files : Entry) : Prop where
  /-- The configuration is settled. -/
  settled : config.Settled files
  /-- The directory of the log is there. -/
  log : ∀ log ∈ config.auditLog, files.see? log.parent = some .directory ∧ log.parent.Fits
  /-- So is that of the sources. -/
  input : isDirectory files config.inputRoot = .ok true
  /-- The output directory is within the limits. -/
  fits : config.outputRoot.Fits
  /-- The directory that it is in is there. -/
  above : files.see? config.outputRoot.dropLast = some .directory
  /-- It is a directory, if there is anything in its place. -/
  output : files.see? config.outputRoot = none ∨ files.see? config.outputRoot = some .directory

theorem prefix_cases_of_dropLast {way path : Path} (hne : path ≠ []) (h : way <+: path) :
    way = path ∨ way <+: path.dropLast := by
  rw [← List.dropLast_append_getLast hne] at h ⊢
  rw [List.dropLast_concat]
  exact List.prefix_concat_iff.1 h

theorem Openable.free (h : Openable config files) : config.outputRoot.Free files := by
  intro way hway
  rcases prefix_cases_of_dropLast h.settled.output_ne_nil hway with rfl | hp
  · exact h.output
  · exact .inr (Entry.see?_directory_of_prefix_directory hp h.above)

/-- The directory of a log that is there is not made again. -/
theorem preparing_isOk (h : Openable config disk.root) :
    ∃ mid, (preparing config).runOn disk = (.ok (), mid) ∧ mid.root.see? = disk.root.see? := by
  rw [preparing]
  cases hlog : config.auditLog with
  | none => exact ⟨disk, rfl, rfl⟩
  | some log =>
    obtain ⟨hdir, hfits⟩ := h.log log hlog
    obtain ⟨operations, mid, hrun, hmakes⟩ := (Path.Makeable.of_directory logRoom hdir hfits).makes
      (Path.parent_proper (h.settled.log_proper log hlog))
    refine ⟨mid, ?_, funext (hmakes.making.nothing hmakes.undergoes hdir)⟩
    dsimp only
    rw [Work.runOn_mapError, Audit.prepare, hrun]
    rfl

/-- **Roots that can be opened are opened**, and nothing but the output directory is made. -/
theorem openRoots_isOk (h : Openable config disk.root) :
    ∃ opened operations, (openRoots config).runOn disk = (.ok (rootsOf config), opened) ∧
      Opens config disk (.ok (rootsOf config), opened) operations ∧
      opened.root.see? =
        Function.update disk.root.see? config.outputRoot (some .directory) := by
  obtain ⟨mid, hprepared, hmid⟩ := preparing_isOk h
  have hplain {path : Path} (hp : path.Plain disk.root) : path.Plain mid.root := by
    rw [Path.Plain, hmid]
    exact hp
  have hset := h.settled
  have hfree : config.outputRoot.Free mid.root := by
    rw [Path.Free, hmid]
    exact h.free
  have habove : mid.root.see? config.outputRoot.dropLast = some .directory := by
    rw [hmid]
    exact h.above
  have hinput : isDirectory mid.root config.inputRoot = .ok true := by
    rw [isDirectory_eq_true hset.input_proper (hplain hset.input_plain), hmid]
    exact (isDirectory_eq_true hset.input_proper hset.input_plain).1 h.input
  have hmakeable : config.outputRoot.Makeable mid.root directoryRoom :=
    ⟨hfree, h.fits, config.outputRoot.dropLast, [config.outputRoot.getLast hset.output_ne_nil],
      (List.dropLast_append_getLast hset.output_ne_nil).symm, habove, by simp⟩
  obtain ⟨made, opened, hmake, hmakes⟩ := hmakeable.makes hset.output_proper
  have hrun : (openRoots config).runOn disk = (.ok (rootsOf config), opened) := by
    rw [openRoots_eq, Work.runOn_bind_of_ok hprepared,
      runOn_opening hset.input_proper (hplain hset.input_plain) hset.output_proper
        (hplain hset.output_plain), hinput, hmake]
  obtain ⟨operations, hopens⟩ := openRoots_opens hset
  rw [hrun] at hopens
  refine ⟨opened, operations, hrun, hopens, funext fun q => ?_⟩
  by_cases hq : q = config.outputRoot
  · rw [hq, Function.update_self]
    exact hmakes.made rfl
  · rw [Function.update_of_ne hq, ← hmid]
    rcases hmakes.making.see? hmakes.undergoes q with he | ⟨hpre, hdir⟩
    · exact he
    · have hp := (prefix_cases_of_dropLast hset.output_ne_nil hpre).resolve_left hq
      rw [Entry.see?_directory_of_prefix_directory hp habove]
      exact hdir

/-! ### Concluding -/

/-- **What the end of a run leaves**: in the output directory what is kept, and elsewhere everything
but its log as it was. -/
structure Concludes (config : Config) (outcomes : List (Source × Outcome)) (worked last : Disk)
    (paths : List Path) (operations : List Operation) : Prop where
  /-- The operations lead to the disk that is left. -/
  undergoes : worked.Undergoes operations last
  /-- They take away what is not kept, or work on the log. -/
  takes : ∀ operation ∈ operations,
    Takes worked.root sweepRoom config.outputRoot (keepOf config outcomes) operation ∨
      (∃ way, operation = .makeDirectory way) ∨ ∃ log ∈ config.auditLog, ∃ bytes,
        operation = .append log bytes
  /-- What was removed was taken away by them. -/
  paths_eq : paths = operations.filterMap removedPath?
  /-- What is kept stays. -/
  stays : ∀ q, config.outputRoot <+: q → Kept worked.root (keepOf config outcomes) q →
    last.root.see? q = worked.root.see? q
  /-- What is not kept is gone. -/
  gone : ∀ q, config.outputRoot <+: q → ¬ Kept worked.root (keepOf config outcomes) q →
    last.root.see? q = none
  /-- Everything else stays, but the log may have become a file. -/
  outside : ∀ q, ¬ config.outputRoot <+: q → last.root.see? q = worked.root.see? q ∨
    q ∈ config.auditLog ∧ ∃ bytes time, last.root.see? q = some (.file bytes time)
  /-- What is gone is what was removed, and was within the limits. -/
  removed : ∀ q, config.outputRoot <+: q → worked.root.see? q ≠ none →
    ¬ Kept worked.root (keepOf config outcomes) q → q ∈ paths ∧ Path.Fits q
  /-- No directory is too deep. -/
  shallow : ∀ q, ¬ TooDeep worked.root sweepRoom config.outputRoot q
  /-- The log could be added to. -/
  log : ∀ log ∈ config.auditLog, Audit.LogReady worked.root log

/-- A run has something to log: a source, or its output directory being taken away. -/
theorem eventsAt_ne_nil {removals : List Operation}
    (hapart : ∀ log ∈ config.auditLog, ¬ config.outputRoot <+: log)
    (hdir : worked.root.see? config.outputRoot = some .directory)
    (h : Sweeps sweepRoom config.outputRoot (keepOf config outcomes) worked (.ok paths, swept)
      removals) : eventsAt config occasion outcomes paths ≠ [] := by
  intro hnil
  obtain ⟨houtcomes, hpaths⟩ := List.append_eq_nil_iff.1 hnil
  have hkept : ¬ Kept worked.root (keepOf config outcomes) config.outputRoot := by
    rintro ⟨below, sight, hp, -, -, hmem⟩
    rw [keepOf, List.map_eq_nil_iff.1 houtcomes] at hmem
    rcases List.mem_append.1 hmem with hlog | hkept
    · exact hapart below (Option.mem_toList.1 hlog) hp
    · exact absurd hkept List.not_mem_nil
  have hmem := h.complete paths rfl config.outputRoot List.prefix_rfl (by rw [hdir]; simp) hkept
  rw [List.map_eq_nil_iff.1 (List.map_eq_nil_iff.1 hpaths)] at hmem
  exact absurd hmem List.not_mem_nil

/-- The end of a run that went well. -/
theorem concludes_of_phases (hset : config.Settled worked.root)
    (hapart : ∀ log ∈ config.auditLog, ¬ config.outputRoot <+: log)
    (hlogs : ∀ log ∈ config.auditLog, worked.root.see? log.parent = some .directory)
    (hv : worked.root.Valid) (hroot : OutputRoot worked.root config.outputRoot)
    (hsweeps : (removeStale sweepRoom config.outputRoot (keepOf config outcomes)).runOn worked =
      (.ok paths, swept))
    (hlogged : (logEvents config (eventsAt config occasion outcomes paths)).runOn swept =
      (.ok (), last)) :
    ∃ operations, Concludes config outcomes worked last paths operations := by
  obtain ⟨removals, hswept⟩ := removeStale_sweeps sweepRoom (keepOf config outcomes) hv
    (fun he => absurd he hset.output_ne_nil) hroot
  rw [hsweeps] at hswept
  have hplain : ∀ log ∈ config.auditLog, log.Plain swept.root := fun log hl =>
    Path.Plain.of_swept hswept.none_or_eq (hset.log_plain log hl)
  have hparent : ∀ log ∈ config.auditLog, swept.root.see? log.parent = some .directory := by
    intro log hl
    refine (hswept.outside fun hp => hapart log hl ?_).trans (hlogs log hl)
    rw [Path.parent_of_proper (hset.log_proper log hl)] at hp
    exact hp.trans (List.dropLast_prefix log)
  have hready := logReady_of_logEvents hset.log_proper hplain hparent
    (eventsAt_ne_nil hapart hroot.directory hswept) (by rw [hlogged])
  obtain ⟨adds, hadds, hlogging⟩ :=
    logEvents_undergoes hset.log_proper hplain (eventsAt config occasion outcomes paths)
  have hchange := (logEvents_logged (fun log hl => (hplain log hl).clean (hset.log_proper log hl))
    (eventsAt config occasion outcomes paths)).of_proper hset.log_proper
  rw [hlogged] at hadds hchange
  -- the directory of the log is there, so that nothing but the log changes any more
  have hsame (q : Path) : last.root.see? q = swept.root.see? q ∨
      q ∈ config.auditLog ∧ ∃ bytes time, last.root.see? q = some (.file bytes time) := by
    rcases hchange q with he | ⟨hnone, -, log, hl, hp⟩ | hfile
    · exact .inl he
    · rw [Entry.see?_directory_of_prefix_directory hp (hparent log hl)] at hnone
      cases hnone
    · exact .inr hfile
  have hout (q : Path) (hq : config.outputRoot <+: q) : last.root.see? q = swept.root.see? q :=
    (hsame q).resolve_right fun hl => hapart q hl.1 hq
  refine ⟨removals ++ adds, hswept.undergoes.append hadds, fun operation ho => ?_, ?_,
    fun q hq hk => (hout q hq).trans (hswept.stays hk),
    fun q hq hk => (hout q hq).trans (hswept.gone rfl hq hk),
    fun q hq => (hsame q).imp_left (·.trans (hswept.outside hq)), fun q hq hs hk => ?_,
    hswept.shallow paths rfl, fun log hl => ⟨hlogs log hl, (hready log hl).fits, ?_⟩⟩
  · rcases List.mem_append.1 ho with ho | ho
    · exact .inl (hswept.takes operation ho)
    · obtain ⟨log, hl, ⟨way, -, rfl⟩ | ⟨bytes, rfl⟩⟩ := hlogging operation ho
      · exact .inr (.inl ⟨way, rfl⟩)
      · exact .inr (.inr ⟨log, hl, bytes, rfl⟩)
  · have hnone : adds.filterMap removedPath? = [] := by
      refine List.filterMap_eq_nil_iff.2 fun operation ho => ?_
      obtain ⟨log, -, ⟨way, -, rfl⟩ | ⟨bytes, rfl⟩⟩ := hlogging operation ho <;> rfl
    rw [List.filterMap_append, hnone, List.append_nil]
    exact hswept.paths_eq paths rfl
  · have hmem := hswept.complete paths rfl q hq hs hk
    refine ⟨hmem, hswept.fits ?_⟩
    rwa [← hswept.paths_eq paths rfl]
  · rw [← hswept.outside (hapart log hl)]
    exact (hready log hl).writable

/-- **A run whose work is done ends with a report**, where nothing is too deep, what is to be removed
is within the limits, and the log can be added to. -/
theorem concluding_isOk (hset : config.Settled worked.root)
    (hapart : ∀ log ∈ config.auditLog, ¬ config.outputRoot <+: log) (hv : worked.root.Valid)
    (hroot : OutputRoot worked.root config.outputRoot)
    (hdeep : ∀ q, ¬ TooDeep worked.root sweepRoom config.outputRoot q)
    (hfits : ∀ q, config.outputRoot <+: q → worked.root.see? q ≠ none →
      ¬ Kept worked.root (keepOf config outcomes) q → Path.Fits q)
    (hlog : ∀ log ∈ config.auditLog, Audit.LogReady worked.root log) (occasion : Occasion) :
    ∃ paths last operations,
      (concluding config occasion outcomes).runOn worked =
        (.ok (reportAt config outcomes paths), last) ∧
      Concludes config outcomes worked last paths operations := by
  obtain ⟨paths, hok⟩ := removeStale_isOk (keepOf config outcomes) hv hset.output_ne_nil hroot hdeep
    hfits
  obtain ⟨removals, hswept⟩ := removeStale_sweeps sweepRoom (keepOf config outcomes) hv
    (fun he => absurd he hset.output_ne_nil) hroot
  rcases hr : (removeStale sweepRoom config.outputRoot (keepOf config outcomes)).runOn worked with
    ⟨e | paths', swept⟩
  · rw [hr] at hok
    cases hok
  · rw [hr] at hok hswept
    cases hok
    have hready : ∀ log ∈ config.auditLog, Audit.LogReady swept.root log := by
      intro log hl
      refine ⟨(hswept.outside fun hp => hapart log hl ?_).trans (hlog log hl).directory,
        (hlog log hl).fits, ?_⟩
      · rw [Path.parent_of_proper (hset.log_proper log hl)] at hp
        exact hp.trans (List.dropLast_prefix log)
      · rw [hswept.outside (hapart log hl)]
        exact (hlog log hl).writable
    have hlogged := logEvents_isOk hset.log_proper
      (fun log hl => (hready log hl).addable (hset.log_proper log hl) _) occasion outcomes paths
    rcases hl : (logEvents config (eventsAt config occasion outcomes paths)).runOn swept with
      ⟨e | ⟨⟩, last⟩
    · rw [hl] at hlogged
      cases hlogged
    · obtain ⟨operations, hconcludes⟩ := concludes_of_phases hset hapart
        (fun log hl => (hlog log hl).directory) hv hroot hr hl
      refine ⟨paths, last, operations, ?_, hconcludes⟩
      rw [concluding, Work.runOn_bind, Work.runOn_mapError, hr]
      dsimp only [Except.mapError]
      rw [Work.runOn_bind, hl]
      rfl

/-! ### After a run -/

section After

variable (h : Concludes config outcomes worked last paths operations)

include h

/-- What is left was there, or is the log. -/
theorem Concludes.see?_cases (q : Path) :
    last.root.see? q = none ∨ last.root.see? q = worked.root.see? q ∨
      q ∈ config.auditLog ∧ ∃ bytes time, last.root.see? q = some (.file bytes time) := by
  by_cases hq : config.outputRoot <+: q
  · by_cases hk : Kept worked.root (keepOf config outcomes) q
    · exact .inr (.inl (h.stays q hq hk))
    · exact .inl (h.gone q hq hk)
  · exact .inr (h.outside q hq)

/-- The end of a run brings no link. -/
theorem Concludes.plain {path : Path} (hplain : path.Plain worked.root) : path.Plain last.root := by
  intro q hq target hlink
  rcases h.see?_cases q with he | he | ⟨-, bytes, time, he⟩
  · cases he.symm.trans hlink
  · exact hplain q hq target (he.symm.trans hlink)
  · cases he.symm.trans hlink

/-- Directories outside that of the outputs stay. -/
theorem Concludes.directory (hq : ¬ config.outputRoot <+: q)
    (hdir : worked.root.see? q = some .directory) : last.root.see? q = some .directory := by
  rcases h.outside q hq with he | ⟨hl, -⟩
  · rw [he, hdir]
  · have hw := (h.log q hl).writable
    rw [hdir] at hw
    exact hw.elim

/-- **After a run its roots can be opened again**, and its log can be added to. -/
theorem Concludes.openable (hset : config.Settled worked.root)
    (hapart : ∀ log ∈ config.auditLog, ¬ config.outputRoot <+: log)
    (hroot : OutputRoot worked.root config.outputRoot)
    (hinput : isDirectory worked.root config.inputRoot = .ok true) :
    Openable config last.root where
  settled :=
    { input_proper := hset.input_proper
      input_plain := h.plain hset.input_plain
      output_proper := hset.output_proper
      output_plain := h.plain hset.output_plain
      apart := hset.apart
      log_proper := hset.log_proper
      log_plain := fun log hl => h.plain (hset.log_plain log hl) }
  log log hl := by
    have hp := hset.log_proper log hl
    have hpre : log.parent <+: log := by
      rw [Path.parent_of_proper hp]
      exact List.dropLast_prefix log
    exact ⟨h.directory (fun hq => hapart log hl (hq.trans hpre)) (h.log log hl).directory,
      (h.log log hl).fits.of_isPrefix hp hpre⟩
  input := by
    rw [isDirectory_eq_true hset.input_proper (h.plain hset.input_plain)]
    obtain ⟨hdir, hfits⟩ := (isDirectory_eq_true hset.input_proper hset.input_plain).1 hinput
    exact ⟨h.directory hset.apart hdir, hfits⟩
  fits := hroot.fits
  above := by
    exact h.directory (Path.not_prefix_dropLast hset.output_ne_nil)
      (Entry.see?_directory_of_prefix_directory (List.dropLast_prefix _) hroot.directory)
  output := by
    by_cases hk : Kept worked.root (keepOf config outcomes) config.outputRoot
    · exact .inr ((h.stays _ List.prefix_rfl hk).trans hroot.directory)
    · exact .inl (h.gone _ List.prefix_rfl hk)

end After

end Build
end TemplateBindings
