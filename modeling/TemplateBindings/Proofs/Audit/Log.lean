import TemplateBindings.Audit.Log
import TemplateBindings.Proofs.Files.Congruence
import TemplateBindings.Proofs.Files.Directories

/-!
# Adding to a log

The log can be added to where its directory is there, its path is within the limits, and nothing but
a file stands in its place (`TemplateBindings.Audit.LogReady`); and where it was added to, that is
how it was.
-/

namespace TemplateBindings

open Files

namespace Files.Path

/-- A path is not on the way to the directory that it is in. -/
theorem not_prefix_dropLast {path : Path} (hne : path ≠ []) : ¬ path <+: path.dropLast := by
  intro h
  have hle := h.length_le
  have hpos := List.length_pos_iff.2 hne
  rw [List.length_dropLast] at hle
  omega

theorem parent_of_proper {path : Path} (hp : path.Proper) : path.parent = path.dropLast := by
  rw [Path.parent]
  rintro rfl
  exact (hp [] List.mem_cons_self).1 rfl

theorem parent_prefix (path : Path) : path.parent <+: path := by
  unfold Path.parent
  split
  · exact List.prefix_rfl
  · exact List.dropLast_prefix path

theorem parent_proper {path : Path} (hp : path.Proper) : path.parent.Proper := by
  rw [parent_of_proper hp]
  exact hp.of_isPrefix (List.dropLast_prefix path)

theorem parent_plain {path : Path} (hp : path.Proper) {files : Entry}
    (hplain : path.Plain files) : path.parent.Plain files := by
  rw [parent_of_proper hp]
  exact hplain.of_isPrefix (List.dropLast_prefix path)

end Files.Path

namespace Audit

variable {disk : Disk} {log : Path}

/-- **A log that can be added to.** -/
structure LogReady (files : Entry) (log : Path) : Prop where
  /-- Its directory is there. -/
  directory : files.see? log.parent = some .directory
  /-- Its path is within the limits. -/
  fits : log.Fits
  /-- It is a file, or there is nothing in its place. -/
  writable : Sight.isWritable (files.see? log)

/-- **A log that can be added to once its directory is made.** -/
structure Addable (files : Entry) (room : Nat) (log : Path) : Prop where
  /-- Its directory is there or can be made. -/
  directory : log.parent.Makeable files room
  /-- Its path is within the limits. -/
  fits : log.Fits
  /-- It is a file, or there is nothing in its place. -/
  writable : Sight.isWritable (files.see? log)

theorem LogReady.addable {files : Entry} (h : LogReady files log) (hp : log.Proper) (room : Nat) :
    Addable files room log := by
  refine ⟨.of_directory room h.directory ?_, h.fits, h.writable⟩
  rw [Path.parent_of_proper hp]
  exact h.fits.of_isPrefix hp (List.dropLast_prefix log)

theorem Addable.ne_nil {files : Entry} {room : Nat} (h : Addable files room log) : log ≠ [] := by
  rintro rfl
  have hw := h.writable
  rcases h.directory.free [] List.prefix_rfl with hnone | hdir
  · cases hnone
  · rw [hdir] at hw
    exact hw

theorem Addable.plain {files : Entry} {room : Nat} (h : Addable files room log)
    (hp : log.Proper) : log.Plain files := by
  obtain ⟨way, name, rfl⟩ : ∃ way name, log = way ++ [name] :=
    ⟨_, _, (List.dropLast_append_getLast h.ne_nil).symm⟩
  have hfree := h.directory.free
  rw [Path.parent_of_proper hp, List.dropLast_concat] at hfree
  intro q hq target hl
  rcases List.prefix_concat_iff.1 hq with rfl | hq
  · have hw := h.writable
    rw [hl] at hw
    exact hw
  · exact hfree.plain q hq target hl

/-- **A log that can be added to once its directory is made is added to.** -/
theorem addLines_isOk (hp : log.Proper) (h : Addable disk.root directoryRoom log) (lines : Text) :
    ((addLines log lines).runOn disk).1 = .ok () := by
  obtain ⟨first, mid, hrun, hmakes⟩ := h.directory.makes (Path.parent_proper hp)
  obtain ⟨way, name, rfl⟩ : ∃ way name, log = way ++ [name] :=
    ⟨_, _, (List.dropLast_append_getLast h.ne_nil).symm⟩
  have hdir := hmakes.made rfl
  have hplain := hmakes.plain (h.plain hp)
  -- what is made is above the log
  have hsame : mid.root.see? (way ++ [name]) = disk.root.see? (way ++ [name]) := by
    refine (hmakes.making.see? hmakes.undergoes _).resolve_right fun hpre => ?_
    have hlen := hpre.1.length_le
    rw [Path.parent_of_proper hp, List.length_dropLast, List.length_append,
      List.length_singleton] at hlen
    omega
  rw [Path.parent_of_proper hp, List.dropLast_concat] at hdir
  have hdirect : (Operation.append (way ++ [name]) (Utf8.encode lines)).Direct mid.root :=
    ⟨⟨h.ne_nil, hp, hplain.straight⟩, hplain⟩
  have hpossible : (Operation.append (way ++ [name]) (Utf8.encode lines)).Possible mid.root :=
    ⟨⟨h.fits, way, name, rfl, hdir⟩, by rw [hsame]; exact h.writable⟩
  obtain ⟨root, happend, -⟩ := runOn_perform_of_possible hdirect hpossible
  rw [addLines, Work.runOn_bind, prepare, hrun]
  dsimp only
  rw [happend]

/-- Where the directory of a log is there, only a log that is not the root directory is added to. -/
theorem direct_of_append {now : Int} {root root' : Entry} {bytes : List UInt8} (hp : log.Proper)
    (hplain : log.Plain root) (hdir : root.see? log.parent = some .directory)
    (h : (Operation.append log bytes).apply now root = .ok root') :
    (Operation.append log bytes).Direct root := by
  refine ⟨⟨?_, hp, hplain.straight⟩, hplain⟩
  rintro rfl
  obtain ⟨members, hat⟩ := Entry.see?_eq_some_directory.1 hdir
  have hroot : root = .directory members := Option.some.inj hat
  rw [Operation.apply_eq_ok, Operation.change, writeWith, locate_eq_walk hp (by decide), walk_nil,
    hroot] at h
  cases h

/-- **A log that was added to was ready**, where its directory was there. -/
theorem logReady_of_addLines {lines : Text} (hp : log.Proper) (hplain : log.Plain disk.root)
    (hdir : disk.root.see? log.parent = some .directory)
    (hok : ((addLines log lines).runOn disk).1 = .ok ()) : LogReady disk.root log := by
  obtain ⟨first, hmakes⟩ := ensureDirectories_makes directoryRoom
    (Path.parent_proper hp) (Path.parent_plain hp hplain)
  rw [addLines, Work.runOn_bind, prepare] at hok
  rcases hr : (ensureDirectories directoryRoom log.parent).runOn disk with ⟨e | ⟨⟩, mid⟩
  · rw [hr] at hok
    cases hok
  · rw [hr] at hmakes hok
    have hsame := hmakes.making.nothing hmakes.undergoes hdir
    dsimp only at hok
    rcases ha : (Operation.append log (Utf8.encode lines)).apply mid.now mid.root with e | root
    · rw [runOn_perform_error ha] at hok
      cases hok
    · have hplain' : log.Plain mid.root := fun q hq target => by
        rw [hsame]
        exact hplain q hq target
      have hdirect := direct_of_append hp hplain' (hmakes.made rfl) ha
      obtain ⟨⟨⟨hfits, -⟩, hwritable⟩, -⟩ := Operation.of_apply hdirect ha
      exact ⟨hdir, hfits, by rwa [← hsame]⟩

/-! ### Logs on disks that look alike -/

/-- **The same is added up to wording**: adding fails in the same way, or lines are added to a log
that was the same. -/
inductive AddsAlike (log : Path) (lines lines' : Text) {ε : Type} :
    Except ε Unit × Disk → Except ε Unit × Disk → Prop
  /-- Adding fails in both. -/
  | same {end₁ end₂ : Except ε Unit × Disk} (same : SameEnds end₁ end₂) :
    AddsAlike log lines lines' end₁ end₂
  /-- Lines are added in both. -/
  | added {disk disk' : Disk} (seen : Seen) (before : List UInt8) (now : Int)
      (first : disk.root.see? =
        Function.update seen log (some (.file (before ++ Utf8.encode lines) now)))
      (second : disk'.root.see? =
        Function.update seen log (some (.file (before ++ Utf8.encode lines') now))) :
    AddsAlike log lines lines' (.ok (), disk) (.ok (), disk')

theorem perform_append_alike {mid mid' : Disk} (hd : mid.Alike mid') (hp : log.Proper)
    (hplain : log.Plain mid.root) (hdir : mid.root.see? log.parent = some .directory)
    (lines lines' : Text) :
    AddsAlike log lines lines' ((perform (.append log (Utf8.encode lines))).runOn mid)
      ((perform (.append log (Utf8.encode lines'))).runOn mid') := by
  rcases hc : (Operation.append log (Utf8.encode lines)).change mid.now mid.root with
    cause | root
  · have hc' : (Operation.append log (Utf8.encode lines')).change mid'.now mid'.root =
        .error cause := by
      rw [← hd.now_eq]
      exact writeWith_error_alike hd.root hc
    rw [runOn_perform_error (Operation.apply_eq_error hc),
      runOn_perform_error (Operation.apply_eq_error hc')]
    exact .same ⟨rfl, hd⟩
  · rcases hc' : (Operation.append log (Utf8.encode lines')).change mid'.now mid'.root with
      cause | root'
    · rw [← hd.now_eq] at hc'
      rw [Operation.change, writeWith_error_alike hd.root.symm hc'] at hc
      cases hc
    · have ha := Operation.apply_eq_ok.2 hc
      have ha' := Operation.apply_eq_ok.2 hc'
      have hplain' : log.Plain mid'.root := fun q hq target => by
        rw [← hd.root]
        exact hplain q hq target
      have hsee := (Operation.of_apply (direct_of_append hp hplain hdir ha) ha).2
      have hdir' : mid'.root.see? log.parent = some .directory := by rw [← hd.root, hdir]
      have hsee' := (Operation.of_apply (direct_of_append hp hplain' hdir' ha') ha').2
      rw [← hd.root, ← hd.now_eq] at hsee'
      rw [runOn_perform_ok ha, runOn_perform_ok ha']
      rw [Operation.effect_append] at hsee hsee'
      exact .added mid.root.see? _ mid.now hsee hsee'

/-- **Adding to the same log** ends the same but for what is added. -/
theorem addLines_alike {disk' : Disk} (hd : disk.Alike disk') (hp : log.Proper)
    (hplain : log.Plain disk.root) (lines lines' : Text) :
    AddsAlike log lines lines' ((addLines log lines).runOn disk)
      ((addLines log lines').runOn disk') := by
  obtain ⟨first, hmakes⟩ := ensureDirectories_makes directoryRoom (Path.parent_proper hp)
    (Path.parent_plain hp hplain)
  obtain ⟨hresult, hmid⟩ := congruent_ensureDirectories directoryRoom log.parent disk disk' hd
  have hplain' := hmakes.plain hplain
  rw [addLines, addLines, prepare, Work.runOn_bind, Work.runOn_bind]
  rcases hr : (ensureDirectories directoryRoom log.parent).runOn disk with ⟨e | ⟨⟩, mid⟩ <;>
    rcases hr' : (ensureDirectories directoryRoom log.parent).runOn disk' with ⟨e' | ⟨⟩, mid'⟩ <;>
    rw [hr] at hmakes hplain' hresult hmid <;> rw [hr'] at hresult hmid
  · exact .same ⟨congrArg Except.error (Except.error.inj hresult), hmid⟩
  · cases hresult
  · cases hresult
  · exact perform_append_alike hmid hp hplain' (hmakes.made rfl) lines lines'

end Audit
end TemplateBindings
