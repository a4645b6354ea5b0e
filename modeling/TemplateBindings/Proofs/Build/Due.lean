import TemplateBindings.Build.Outcome
import TemplateBindings.Proofs.Build.Markers
import TemplateBindings.Proofs.Build.Places
import TemplateBindings.Proofs.Clock.Stamp

/-!
# What is due

What a run has to do for a source can be read off the file system before anything is done
(`TemplateBindings.Build.due`): report an error, leave everything as it is, or write files that are
known. It depends on the inputs of the source and on the marker of its module, and on nothing else
(`TemplateBindings.Build.due_congr`). Once the files are written, nothing is due
(`TemplateBindings.Build.due_of_current`).
-/

namespace TemplateBindings
namespace Build

open Files

variable {files files' view : Entry} {roots : Roots} {sources : List Source}
  {source sheet : Source} {out : Path} {made : List (Str × Str)} {marker : Text}
  {artifacts : GeneratedModule.Artifacts} {sight : Option Sight} {e : SourceError}

/-! ### Files -/

/-- The files that artifacts are written to, by their names, the module last. -/
def artifactFiles (name : Str) (artifacts : GeneratedModule.Artifacts) : List (Str × Str) :=
  (artifacts.classModule.map fun text =>
      (name ++ GeneratedModule.classModuleSuffix, Str.ofText text)).toList
    ++ (artifacts.stylesheet.map fun text => (name ++ stylesheetSuffix, Str.ofText text)).toList
    ++ [(name ++ moduleSuffix, artifacts.module)]

/-- Files in a directory, with their texts. -/
def inDirectory (way : Path) (made : List (Str × Str)) : List (Path × Str) :=
  made.map fun file => (way ++ [file.1], file.2)

theorem artifactTexts_eq (h : source.Regular) (out : Path)
    (artifacts : GeneratedModule.Artifacts) :
    artifactTexts (source.outputs out) artifacts =
      inDirectory (source.directory out) (artifactFiles source.name artifacts) := by
  rw [artifactTexts, Source.outputs_eq h, inDirectory, artifactFiles, List.map_append,
    List.map_append]
  cases artifacts.classModule <;> cases artifacts.stylesheet <;> rfl

theorem mem_outputNames_of_artifactFiles {file : Str × Str}
    (h : file ∈ artifactFiles source.name artifacts) : file.1 ∈ source.outputNames := by
  rw [artifactFiles] at h
  rcases List.mem_append.1 h with h | h
  · rcases List.mem_append.1 h with h | h
    · obtain ⟨text, -, rfl⟩ := Option.map_eq_some_iff.1 (Option.mem_toList.1 h)
      simp [Source.outputNames]
    · obtain ⟨text, -, rfl⟩ := Option.map_eq_some_iff.1 (Option.mem_toList.1 h)
      simp [Source.outputNames]
  · cases List.mem_singleton.1 h
    simp [Source.outputNames]

/-- A file whose draft would be over the limits. -/
def overLimits? (directory : Path) (made : List (Str × Str)) : Option (Str × Str) :=
  made.find? fun file => ¬ Path.Fits (directory ++ [draftName file.1])

/-- Why a string cannot be written, if it cannot. -/
def faultOf? (s : Str) : Option Str.Fault :=
  match s.encode with
  | .ok _ => none
  | .error fault => some fault

theorem faultOf?_eq_none {s : Str} : faultOf? s = none ↔ s.encode = .ok s.bytes := by
  rw [faultOf?]
  rcases h : s.encode with fault | bytes
  · simp
  · simp [Str.bytes_of_encode h]

theorem faultOf?_eq_some {s : Str} {fault : Str.Fault} :
    faultOf? s = some fault ↔ s.encode = .error fault := by
  rw [faultOf?]
  rcases s.encode with e | bytes
  · simp
  · simp

@[simp] theorem faultOf?_ofText (s : Text) : faultOf? (Str.ofText s) = none := by
  rw [faultOf?, Str.encode_ofText]

/-- Why not all files can be written, if not all can. -/
def firstFault? (made : List (Str × Str)) : Option Str.Fault :=
  made.findSome? fun file => faultOf? file.2

theorem of_mapError_ok {ε δ α : Type} {f : ε → δ} {result : Except ε α} {a : α}
    (h : result.mapError f = .ok a) : result = .ok a := by
  cases result with
  | error e => cases h
  | ok b => exact congrArg Except.ok (Except.ok.inj h)

theorem of_bind_ok {ε α β : Type} {result : Except ε α} {f : α → Except ε β} {b : β}
    (h : result >>= f = .ok b) : ∃ a, result = .ok a ∧ f a = .ok b := by
  cases result with
  | error e => cases h
  | ok a => exact ⟨a, rfl, h⟩

/-! ### At one moment -/

/-- The answer about the stylesheet beside a source, if there is one. -/
def answerBeside {α : Type} (files : Entry) (sheet : Option Source)
    (question : Entry → Source → Except SourceError α) : Except SourceError (Option α) :=
  match sheet with
  | some sheet => (question files sheet).map some
  | none => return none

theorem answerBeside_congr {α : Type} {files files' : Entry} {sheet : Option Source}
    {question : Entry → Source → Except SourceError α}
    (h : ∀ input ∈ sheet, question files input = question files' input) :
    answerBeside files sheet question = answerBeside files' sheet question := by
  cases sheet with
  | none => rfl
  | some input => exact congrArg (Except.map some) (h input rfl)

/-- What there is to answer is an answer about the stylesheet. -/
theorem of_answerBeside_eq_ok {α : Type} {files : Entry} {sheet : Option Source}
    {question : Entry → Source → Except SourceError α} {answer : Option α}
    (h : answerBeside files sheet question = .ok answer) :
    sheet = none ∧ answer = none ∨
      ∃ input a, sheet = some input ∧ answer = some a ∧ question files input = .ok a := by
  cases sheet with
  | none =>
    cases h
    exact .inl ⟨rfl, rfl⟩
  | some input =>
    rw [answerBeside] at h
    rcases hq : question files input with e | a
    · rw [hq] at h
      cases h
    · rw [hq] at h
      cases h
      exact .inr ⟨input, a, rfl, rfl, hq⟩

/-- The marker of a source with the stylesheet beside it. -/
def markerOf (files : Entry) (root : Path) (source : Source) (sheet : Option Source) :
    Except SourceError Text := do
  let time ← (modified files (source.path root)).mapError .file
  let sheetTime ← answerBeside files sheet fun files sheet =>
    (modified files (sheet.path root)).mapError .file
  (markerOfTimes time sheetTime).mapError .clock

/-- **The marker for a new module**, or none if there is a module that is current. -/
def staleMarker? (files : Entry) (roots : Roots) (source : Source) (sheet : Option Source) :
    Except SourceError (Option Text) := do
  let marker ← markerOf files roots.input source sheet
  let existing ← (existingMarker files (source.outputs roots.output).module).mapError .file
  return if existing = some marker then none else some marker

/-- What a source is compiled to. -/
def compileSource (files : Entry) (root : Path) (source : Source) (sheet : Option Source)
    (marker : Text) : Except SourceError GeneratedModule.Artifacts := do
  let html ← readText files (source.path root)
  let css ← answerBeside files sheet fun files sheet => readText files (sheet.path root)
  (GeneratedModule.compile html marker source.name css).mapError .markup

/-! ### Due -/

/-- **What is due for a source**, where its directory can be made: its error, nothing if its module
is current, or the files to write. -/
def due (files : Entry) (roots : Roots) (sources : List Source) (source : Source) :
    Except SourceError (Option (List (Str × Str))) :=
  match staleMarker? files roots source (source.stylesheet? sources) with
  | .error e => .error e
  | .ok none => .ok none
  | .ok (some marker) =>
    match compileSource files roots.input source (source.stylesheet? sources) marker with
    | .error e => .error e
    | .ok artifacts =>
      let made := artifactFiles source.name artifacts
      match overLimits? (source.directory roots.output) made with
      | some file =>
        .error (.file ⟨.nameTooLong, source.directory roots.output ++ [draftName file.1], none⟩)
      | none => .ok (some made)

/-- What is due for a source whose module is not current. -/
theorem due_of_staleMarker? 
    (h : staleMarker? files roots source (source.stylesheet? sources) = .ok (some marker)) :
    due files roots sources source =
      (compileSource files roots.input source (source.stylesheet? sources) marker).bind
        fun artifacts =>
          match overLimits? (source.directory roots.output) (artifactFiles source.name artifacts) with
          | some file => .error (.file
              ⟨.nameTooLong, source.directory roots.output ++ [draftName file.1], none⟩)
          | none => .ok (some (artifactFiles source.name artifacts)) := by
  rw [due, h]
  dsimp only
  rcases compileSource files roots.input source (source.stylesheet? sources) marker with e | artifacts
  · rfl
  · rfl

/-- The outcome of doing what is due. -/
def outcomeOf (out : Path) (source : Source) :
    Except SourceError (Option (List (Str × Str))) → Outcome
  | .error e => .failed e
  | .ok none => .cached
  | .ok (some made) =>
    match firstFault? made with
    | none => .written ((inDirectory (source.directory out) made).map Prod.fst)
    | some fault => .failed (.unencodable fault)

/-! ### Inputs in view -/

/-- **The inputs of a source are in view**: its own file, and that of the stylesheet beside it. -/
def InView (view : Entry) (root : Path) (sources : List Source) (source : Source) : Prop :=
  isFile view (source.path root) = .ok true ∧
    ∀ sheet ∈ source.stylesheet? sources, isFile view (sheet.path root) = .ok true

theorem inView_of_mem {root : Path} (h : ∀ s ∈ sources, isFile view (s.path root) = .ok true)
    (hs : source ∈ sources) : InView view root sources source :=
  ⟨h source hs, fun sheet hsheet => h sheet (List.mem_of_find?_eq_some hsheet)⟩

theorem modified_of_holds {path : Path} (hview : isFile view path = .ok true)
    (h : view.Holds files) : modified files path = modified view path := by
  obtain ⟨bytes, time, hr⟩ := isFile_eq_true.1 hview
  rw [(hr.of_holds h).modified, hr.modified]

theorem readText_of_holds {path : Path} (hview : isFile view path = .ok true)
    (h : view.Holds files) : readText files path = readText view path := by
  obtain ⟨bytes, time, hr⟩ := isFile_eq_true.1 hview
  rw [readText, readText, (hr.of_holds h).contents, hr.contents]

theorem markerOf_of_holds (hview : InView view roots.input sources source) (h : view.Holds files) :
    markerOf files roots.input source (source.stylesheet? sources) =
      markerOf view roots.input source (source.stylesheet? sources) := by
  rw [markerOf, markerOf, modified_of_holds hview.1 h]
  exact congrArg _ (funext fun _ => congrArg (· >>= _) (answerBeside_congr fun sheet hsheet => by
    rw [modified_of_holds (hview.2 sheet hsheet) h]))

theorem compileSource_of_holds (hview : InView view roots.input sources source)
    (h : view.Holds files) (marker : Text) :
    compileSource files roots.input source (source.stylesheet? sources) marker =
      compileSource view roots.input source (source.stylesheet? sources) marker := by
  rw [compileSource, compileSource, readText_of_holds hview.1 h]
  exact congrArg _ (funext fun _ => congrArg (· >>= _) (answerBeside_congr fun sheet hsheet =>
    readText_of_holds (hview.2 sheet hsheet) h))

/-! ### The module that is there -/

/-- The marker of what is seen in the place of a module. -/
def markerSeen : Option Sight → Option Text
  | some (.file bytes _) => markerIn? bytes
  | _ => none

/-- What reading the marker of a module gives, by what is seen in its place. -/
def markerAt (path : Path) (sight : Option Sight) : Except FileError (Option Text) :=
  if pathLimit < (Str.bytes path.render).length then .error ⟨.nameTooLong, path, none⟩
  else .ok (markerSeen sight)

/-- **The root of the outputs**: a directory with a path of names, within the limits. -/
structure OutputRoot (files : Entry) (out : Path) : Prop where
  /-- The path is made of names. -/
  proper : out.Proper
  /-- It is within the limits. -/
  fits : out.Fits
  /-- It leads to a directory. -/
  directory : files.see? out = some .directory

theorem OutputRoot.short (h : OutputRoot files out) :
    ∀ name ∈ out, (Str.bytes name).length ≤ nameLimit :=
  h.fits.2

theorem OutputRoot.root (h : OutputRoot files out) : files.see? [] = some .directory :=
  Entry.see?_directory_of_prefix_directory List.nil_prefix h.directory

theorem Source.directory_proper (hout : out.Proper) (h : source.Regular) :
    Path.Proper (source.directory out) :=
  hout.append h.place_proper

theorem Source.directory_short (hout : ∀ name ∈ out, (Str.bytes name).length ≤ nameLimit)
    (h : source.Regular) :
    ∀ name ∈ source.directory out, (Str.bytes name).length ≤ nameLimit := by
  intro name hm
  rcases List.mem_append.1 hm with hm | hm
  · exact hout name hm
  · exact h.short name (List.mem_append_left _ hm)

/-- The name of a module is within the limits, being shorter than that of its source. -/
theorem Source.Regular.module_short (h : source.Regular) (hkind : source.kind = .markup) :
    (Str.bytes (source.name ++ moduleSuffix)).length ≤ nameLimit := by
  have hname := h.short (source.name ++ source.kind.suffix) (by simp [Source.way])
  rw [hkind, Str.bytes_append, List.length_append] at hname
  rw [Str.bytes_append, List.length_append]
  have hle : (Str.bytes moduleSuffix).length ≤ (Str.bytes (Kind.suffix .markup)).length := by
    decide
  omega

/-- **Reading the marker of a module** in a ready place depends only on what is seen there. -/
theorem existingMarker_eq (hout : OutputRoot files out) (h : source.Regular)
    (hkind : source.kind = .markup) (hready : Ready files out source) :
    existingMarker files (source.outputs out).module =
      markerAt (source.outputs out).module (files.see? (source.outputs out).module) := by
  have hfree := hready.free hout.directory
  have hw := Source.directory_proper hout.proper h
  have hshort := Source.directory_short hout.short h
  have hwrite : Sight.isWritable (files.see? (source.outputs out).module) :=
    hready.outputs _ (by simp [Outputs.all])
  rw [Source.module_eq h] at hwrite ⊢
  have hn : IsName (source.name ++ moduleSuffix) :=
    h.isName_append (by decide) (by decide) (by decide)
  generalize hp : source.directory out ++ [source.name ++ moduleSuffix] = path at hwrite ⊢
  have hproper : path.Proper := hp ▸ hw.concat hn
  rw [existingMarker, contents, markerAt]
  by_cases hlong : pathLimit < (Str.bytes path.render).length
  · rw [if_pos hlong, locate_long_text hproper hlong]
    rfl
  · rw [if_neg hlong]
    have hfits : path.Fits := by
      refine ⟨by omega, fun name hm => ?_⟩
      rw [← hp] at hm
      rcases List.mem_append.1 hm with hm | hm
      · exact hshort name hm
      · rw [List.mem_singleton.1 hm]
        exact h.module_short hkind
    cases hat : files.at? path with
    | some entry =>
      have hsee : files.see? path = some entry.sight := by rw [Entry.see?, hat, Option.map_some]
      rw [hsee] at hwrite ⊢
      cases entry with
      | file bytes time =>
        rw [locate_found hproper hfits hat (by simp)]
        rfl
      | directory members => cases hwrite
      | link target => cases hwrite
    | none =>
      have hnone := Entry.see?_eq_none.2 hat
      rw [hnone]
      subst hp
      rcases hfree _ List.prefix_rfl with hmissing | hdir
      · rw [locate_below_missing hproper (by omega) hshort hfree hout.root hmissing]
        rfl
      · rw [locate_vacant hproper hfits hdir hnone]
        rfl

theorem existingMarker_congr (hout : OutputRoot files out) (hout' : OutputRoot files' out)
    (h : source.Regular) (hkind : source.kind = .markup) (hready : Ready files out source)
    (hready' : Ready files' out source)
    (hseen : markerSeen (files.see? (source.outputs out).module) =
      markerSeen (files'.see? (source.outputs out).module)) :
    existingMarker files (source.outputs out).module =
      existingMarker files' (source.outputs out).module := by
  rw [existingMarker_eq hout h hkind hready, existingMarker_eq hout' h hkind hready', markerAt,
    markerAt, hseen]

/-! ### What due depends on -/

/-- A file whose time is known can be read. -/
theorem isFile_of_modified {path : Path} {time : Int} (h : modified files path = .ok time) :
    isFile files path = .ok true := by
  rw [modified] at h
  split at h
  · next way bytes time' hloc => exact isFile_eq_true.2 ⟨bytes, time', way, hloc⟩
  · cases h
  · cases h
  · cases h

/-- **The times that a marker is made of**: that of the source, and that of its stylesheet. -/
theorem of_markerOf {root : Path} {sheet : Option Source}
    (h : markerOf files root source sheet = .ok marker) :
    ∃ time sheetTime, modified files (source.path root) = .ok time ∧
      (sheet = none ∧ sheetTime = none ∨ ∃ input inputTime, sheet = some input ∧
        sheetTime = some inputTime ∧ modified files (input.path root) = .ok inputTime) ∧
      markerOfTimes time sheetTime = .ok marker := by
  rw [markerOf] at h
  obtain ⟨time, htime, h⟩ := of_bind_ok h
  obtain ⟨sheetTime, hsheet, h⟩ := of_bind_ok h
  refine ⟨time, sheetTime, of_mapError_ok htime, ?_, of_mapError_ok h⟩
  rcases of_answerBeside_eq_ok hsheet with hnone | ⟨input, inputTime, hinput, htime, hs⟩
  · exact .inl hnone
  · exact .inr ⟨input, inputTime, hinput, htime, of_mapError_ok hs⟩

/-- **Inputs with a marker are in view.** -/
theorem inView_of_markerOf {root : Path}
    (h : markerOf files root source (source.stylesheet? sources) = .ok marker) :
    InView files root sources source := by
  obtain ⟨time, sheetTime, htime, hsheet, -⟩ := of_markerOf h
  refine ⟨isFile_of_modified htime, fun sheet hmem => ?_⟩
  rcases hsheet with ⟨hnone, -⟩ | ⟨input, inputTime, hsome, -, hinput⟩
  · cases hnone.symm.trans hmem
  · cases hsome.symm.trans hmem
    exact isFile_of_modified hinput

theorem staleMarker?_congr (hview : InView view roots.input sources source)
    (h : view.Holds files) (h' : view.Holds files')
    (hmodule : existingMarker files (source.outputs roots.output).module =
      existingMarker files' (source.outputs roots.output).module) :
    staleMarker? files roots source (source.stylesheet? sources) =
      staleMarker? files' roots source (source.stylesheet? sources) := by
  rw [staleMarker?, staleMarker?, markerOf_of_holds hview h, markerOf_of_holds hview h', hmodule]

/-- **What is due depends on the inputs and on the marker of the module** alone. -/
theorem due_congr (hview : InView view roots.input sources source) (h : view.Holds files)
    (h' : view.Holds files')
    (hmodule : existingMarker files (source.outputs roots.output).module =
      existingMarker files' (source.outputs roots.output).module) :
    due files roots sources source = due files' roots sources source := by
  rw [due, due, staleMarker?_congr hview h h' hmodule]
  rcases staleMarker? files' roots source (source.stylesheet? sources) with e | _ | marker
  · rfl
  · rfl
  · simp only [compileSource_of_holds hview h, compileSource_of_holds hview h']

/-! ### Stale sources -/

/-- The module of a source is not current. -/
def IsStale (files : Entry) (roots : Roots) (sources : List Source) (source : Source) : Prop :=
  ∃ marker, staleMarker? files roots source (source.stylesheet? sources) = .ok (some marker)

/-- It is not current, and its source can be compiled. -/
def Compiles (files : Entry) (roots : Roots) (sources : List Source) (source : Source) : Prop :=
  ∃ marker artifacts,
    staleMarker? files roots source (source.stylesheet? sources) = .ok (some marker) ∧
      compileSource files roots.input source (source.stylesheet? sources) marker = .ok artifacts

theorem Compiles.isStale (h : Compiles files roots sources source) :
    IsStale files roots sources source :=
  h.imp fun _ ⟨_, hmarker, _⟩ => hmarker

/-- A marker that is to be written is that of the inputs, and the module has another one. -/
theorem of_staleMarker?
    (h : staleMarker? files roots source (source.stylesheet? sources) = .ok (some marker)) :
    markerOf files roots.input source (source.stylesheet? sources) = .ok marker ∧
      ∃ existing, existingMarker files (source.outputs roots.output).module = .ok existing ∧
        existing ≠ some marker := by
  rw [staleMarker?] at h
  rcases hm : markerOf files roots.input source (source.stylesheet? sources) with e | m
  · rw [hm] at h
    cases h
  · rcases he : existingMarker files (source.outputs roots.output).module with e | existing
    · rw [hm, he] at h
      cases h
    · rw [hm, he] at h
      have h' : (if existing = some m then none else some m) = some marker := Except.ok.inj h
      split at h'
      · cases h'
      · next hne =>
        cases h'
        exact ⟨rfl, existing, rfl, hne⟩

/-- The directory of a stale source is within the limits, since its module is. -/
theorem fits_of_isStale (hout : OutputRoot files roots.output) (h : source.Regular)
    (hkind : source.kind = .markup) (hready : Ready files roots.output source)
    (hstale : IsStale files roots sources source) :
    Path.Fits (source.directory roots.output) := by
  obtain ⟨marker, hmarker⟩ := hstale
  obtain ⟨-, existing, hexisting, -⟩ := of_staleMarker? hmarker
  have hn : IsName (source.name ++ moduleSuffix) := h.isName source.moduleName_mem
  have hw := Source.directory_proper hout.proper h
  have hshort := Source.directory_short hout.short h
  rw [existingMarker_eq hout h hkind hready, markerAt, Source.module_eq h] at hexisting
  split at hexisting
  · cases hexisting
  · next hlen =>
    have hfits : Path.Fits (source.directory roots.output ++ [source.name ++ moduleSuffix]) := by
      refine ⟨by omega, fun name hm => ?_⟩
      rcases List.mem_append.1 hm with hm | hm
      · exact hshort name hm
      · rw [List.mem_singleton.1 hm]
        exact h.module_short hkind
    exact hfits.of_isPrefix (hw.concat hn) (List.prefix_append _ _)

/-! ### What is made -/

/-- A module is current if it carries the marker of the inputs. -/
theorem staleMarker?_eq_none :
    staleMarker? files roots source (source.stylesheet? sources) = .ok none ↔
      ∃ marker, markerOf files roots.input source (source.stylesheet? sources) = .ok marker ∧
        existingMarker files (source.outputs roots.output).module = .ok (some marker) := by
  rw [staleMarker?]
  rcases hm : markerOf files roots.input source (source.stylesheet? sources) with e | m
  · constructor
    · intro h
      cases h
    · rintro ⟨_, h, -⟩
      cases h
  · rcases he : existingMarker files (source.outputs roots.output).module with e | existing
    · constructor
      · intro h
        cases h
      · rintro ⟨_, -, h⟩
        cases h
    · change Except.ok (if existing = some m then none else some m) = Except.ok none ↔ _
      constructor
      · intro h
        have h' := Except.ok.inj h
        split at h'
        · next heq => exact ⟨m, rfl, by rw [heq]⟩
        · cases h'
      · rintro ⟨marker, h, h'⟩
        cases h
        rw [if_pos (Except.ok.inj h')]

/-- **Files that are due** are what the inputs are compiled to with their marker. -/
theorem of_due (h : due files roots sources source = .ok (some made)) :
    ∃ marker artifacts,
      staleMarker? files roots source (source.stylesheet? sources) = .ok (some marker) ∧
      compileSource files roots.input source (source.stylesheet? sources) marker =
        .ok artifacts ∧
      made = artifactFiles source.name artifacts ∧
      overLimits? (source.directory roots.output) made = none := by
  rw [due] at h
  split at h
  · cases h
  · cases h
  · next marker hmarker =>
    split at h
    · cases h
    · next artifacts hartifacts =>
      dsimp only at h
      split at h
      · cases h
      · next hover =>
        have he := Option.some.inj (Except.ok.inj h)
        exact ⟨marker, artifacts, hmarker, hartifacts, he.symm, he ▸ hover⟩

theorem due_eq_none :
    due files roots sources source = .ok none ↔
      staleMarker? files roots source (source.stylesheet? sources) = .ok none := by
  rw [due]
  constructor
  · intro h
    split at h
    · cases h
    · next hnone => exact hnone
    · split at h
      · cases h
      · dsimp only at h
        split at h <;> cases h
  · intro h
    rw [h]

/-- **A module that was compiled carries its marker.** -/
theorem markerIn?_compile {html : Text} {name : Str} {css : Option Text} {bytes : List UInt8}
    (hn : '\n' ∉ marker) (hr : '\r' ∉ marker)
    (h : GeneratedModule.compile html marker name css = .ok artifacts)
    (hbytes : artifacts.module.encode = .ok bytes) : markerIn? bytes = some marker := by
  rw [GeneratedModule.compile] at h
  split at h
  · cases h
    exact markerIn?_assemble hn hr hbytes
  · rw [GeneratedModule.ofFragment] at h
    split at h
    · cases h
    · rw [← Except.ok.inj h] at hbytes
      exact markerIn?_assemble hn hr hbytes

/-- The marker of inputs stands on one line. -/
theorem line_of_markerOf {root : Path}
    (h : markerOf files root source (source.stylesheet? sources) = .ok marker) :
    '\n' ∉ marker ∧ '\r' ∉ marker := by
  obtain ⟨time, sheetTime, -, -, h⟩ := of_markerOf h
  exact Clock.stamp_line h

theorem of_compileSource {root : Path} {sheet : Option Source}
    (h : compileSource files root source sheet marker = .ok artifacts) :
    ∃ html css, GeneratedModule.compile html marker source.name css = .ok artifacts := by
  rw [compileSource] at h
  obtain ⟨html, -, h⟩ := of_bind_ok h
  obtain ⟨css, -, h⟩ := of_bind_ok h
  exact ⟨html, css, of_mapError_ok h⟩

/-- **A module that was compiled carries the marker of its inputs.** -/
theorem markerSeen_compileSource {root : Path}
    (hmarker : markerOf files root source (source.stylesheet? sources) = .ok marker)
    (hc : compileSource files' root source (source.stylesheet? sources) marker = .ok artifacts)
    (hfault : faultOf? artifacts.module = none) (time : Int) :
    markerSeen (some (.file (Str.bytes artifacts.module) time)) = some marker := by
  obtain ⟨hn, hr⟩ := line_of_markerOf hmarker
  obtain ⟨html, css, hcompile⟩ := of_compileSource hc
  exact markerIn?_compile hn hr hcompile (faultOf?_eq_none.1 hfault)

/-- **Once its module carries the marker of the inputs**, nothing is due for a source. -/
theorem due_of_current
    (hmarker : markerOf files roots.input source (source.stylesheet? sources) = .ok marker)
    (hmodule : existingMarker files (source.outputs roots.output).module = .ok (some marker)) :
    due files roots sources source = .ok none :=
  due_eq_none.2 (staleMarker?_eq_none.2 ⟨marker, hmarker, hmodule⟩)

end Build
end TemplateBindings
