import TemplateBindings.Proofs.Config.Merged
import TemplateBindings.Proofs.Text.Order

/-!
# The layers of a configuration

A configuration is merged from the defaults of a project, its settings and the overrides of a caller.
What comes of it can be said without the order in which the layers are put on each other and checked:
for each field the topmost layer that says something is taken
(`TemplateBindings.Config.layered`), and it is refused if some layer says what a field cannot be, or if
in the end, and only in the end, the outputs are at or above the sources
(`TemplateBindings.Config.Refused`). So a layer below may well put the outputs above the sources, if
one above it moves them away.

Both are shown for paths that are resolved as if nothing existed (`TemplateBindings.Config.merge_layered`).
-/

namespace TemplateBindings
namespace Config

open Files Settings

variable {α β : Type} {root path : Path} {processors : Option Nat} {settings table : Table}
  {overrides : Overrides} {base config : Config} {field : Text} {value : Value} {n : Int}

/-! ### What the layers say -/

/-- **What may stand for a path**: nothing, or a text that is not blank. -/
def IsPath : Value → Prop
  | .nothing => True
  | .text s => ∃ c ∈ s, Text.isBlank c = false
  | _ => False

/-- **What may stand for a number of workers**: nothing, or an integer from 1 to 256. -/
def IsWorkers : Value → Prop
  | .nothing => True
  | .integer n => 1 ≤ n ∧ n ≤ 256
  | _ => False

/-- The path that a setting says, seen from the root of the project. -/
def pathIn (root : Path) : Value → Option Path
  | .text s => some (Path.under root s)
  | _ => none

/-- The number that a setting says, or else the one of the layers below. -/
def numberIn (below : Int) : Value → Int
  | .integer n => n
  | _ => below

/-- The section of the build; it is empty if the settings have no such table. -/
def buildTable (settings : Table) : Table :=
  match settings.lookup buildSection with
  | some (.table table) => table
  | _ => []

/-- The keys that say where something is. -/
def pathKeys : List Text := ["input_dir".toList, "output_dir".toList, "audit_log".toList]

/-- The paths of overrides. -/
def Overrides.paths (overrides : Overrides) : List Path :=
  overrides.inputRoot.toList ++ overrides.outputRoot.toList ++ overrides.auditLog.toList

/-- **What the layers say**: each field is that of the overrides if they have it, else that of the
settings, else that of the defaults. -/
def layered (root : Path) (processors : Option Nat) (settings : Table) (overrides : Overrides) :
    Config :=
  let base := default root.normalise processors
  let said (key : String) := (buildTable settings).get key.toList
  { inputRoot :=
      ((overrides.inputRoot.or (pathIn root (said "input_dir"))).getD base.inputRoot).normalise
    outputRoot :=
      ((overrides.outputRoot.or (pathIn root (said "output_dir"))).getD base.outputRoot).normalise
    workers := numberIn (numberIn base.workers (said "workers")) overrides.workers
    auditLog :=
      ((overrides.auditLog.or (pathIn root (said "audit_log"))).or base.auditLog).map
        Path.normalise }

/-- **Settings that cannot be used.** -/
inductive Unusable (settings : Table) : Prop where
  /-- The section of the build is there and is no table. -/
  | noTable (value : Value) (found : settings.lookup buildSection = some value)
    (not_table : ∀ table, value ≠ .table table)
  /-- It has a key that means nothing. -/
  | unknown (key : Text) (found : key ∈ (buildTable settings).map Prod.fst)
    (not_key : key ∉ "workers".toList :: pathKeys)
  /-- What it says of a path cannot be one. -/
  | path (key : Text) (is_key : key ∈ pathKeys) (not_path : ¬ IsPath ((buildTable settings).get key))
  /-- What it says of the workers cannot be their number. -/
  | workers (not_workers : ¬ IsWorkers ((buildTable settings).get "workers".toList))

/-- **Layers that are refused.** -/
inductive Refused (root : Path) (processors : Option Nat) (settings : Table)
    (overrides : Overrides) : Prop where
  /-- The settings cannot be used. -/
  | settings (unusable : Unusable settings)
  /-- What the overrides say of the workers cannot be their number. -/
  | workers (not_workers : ¬ IsWorkers overrides.workers)
  /-- What the layers say of the outputs is at or above what they say of the sources. -/
  | above (above : (layered root processors settings overrides).outputRoot <+:
      (layered root processors settings overrides).inputRoot)

/-! ### Checks -/

/-- **A refusal**: the fault is reported as one of a value. -/
def Refuses (result : Except Fault α) : Prop :=
  ∃ fault, result = .error fault ∧ fault.kind = "ValueError".toList

/-- **A check** of a statement: where it holds there is a value, and where it does not there is a
refusal. -/
def Checks (p : Prop) (result : Except Fault α) (a : α) : Prop :=
  p ∧ result = .ok a ∨ ¬ p ∧ Refuses result

variable {p q : Prop} {result : Except Fault α} {a : α} {b : β} {f : α → Except Fault β}

theorem Checks.congr (h : Checks p result a) (hpq : p ↔ q) : Checks q result a := by
  rwa [← propext hpq]

/-- One check behind another checks both statements. -/
theorem Checks.bind (h : Checks p result a) (hf : Checks q (f a) b) :
    Checks (p ∧ q) (result >>= f) b := by
  rcases h with ⟨hp, rfl⟩ | ⟨hp, fault, rfl, hkind⟩
  · rcases hf with ⟨hq, hok⟩ | ⟨hq, hrefuses⟩
    · exact .inl ⟨⟨hp, hq⟩, hok⟩
    · exact .inr ⟨fun h => hq h.2, hrefuses⟩
  · exact .inr ⟨fun h => hp h.1, fault, rfl, hkind⟩

/-- What is made of a checked value needs no further check. -/
theorem Checks.map (h : Checks p result a) (g : α → β) :
    Checks p (result >>= fun a => pure (g a)) (g a) := by
  rcases h with ⟨hp, rfl⟩ | ⟨hp, fault, rfl, hkind⟩
  · exact .inl ⟨hp, rfl⟩
  · exact .inr ⟨hp, fault, rfl, hkind⟩

theorem Checks.refuses_iff (h : Checks p result a) : Refuses result ↔ ¬ p := by
  rcases h with ⟨hp, rfl⟩ | ⟨hp, hrefuses⟩
  · exact ⟨fun ⟨_, he, _⟩ => (nomatch he), fun hn => absurd hp hn⟩
  · exact ⟨fun _ => hp, fun _ => hrefuses⟩

theorem Checks.eq_ok (h : Checks p result a) (hp : p) : result = .ok a := by
  rcases h with ⟨-, hok⟩ | ⟨hn, -⟩
  · exact hok
  · exact absurd hp hn

theorem Checks.of_ok (h : Checks p result a) {a' : α} (hok : result = .ok a') : p ∧ a' = a := by
  rcases h with ⟨hp, rfl⟩ | ⟨-, fault, rfl, -⟩
  · exact ⟨hp, (Except.ok.inj hok).symm⟩
  · cases hok

/-! ### Chosen paths -/

/-- A path that is chosen from layers is that of the topmost one that has one. -/
theorem normalise_getD (own said : Option Path) (below : Path) :
    (own.getD ((said.map Path.normalise).getD below)).normalise =
      ((own.or said).getD below).normalise := by
  cases own <;> cases said <;> simp

theorem map_normalise_or (own said below : Option Path) :
    (own.or ((said.map Path.normalise).or below)).map Path.normalise =
      ((own.or said).or below).map Path.normalise := by
  cases own <;> cases said <;> simp

theorem hasNull_getD {own : Option Path} {below : Path} (hown : ∀ p ∈ own, p.hasNull = false)
    (hbelow : below.hasNull = false) : (own.getD below).hasNull = false := by
  cases own with
  | none => exact hbelow
  | some p => exact hown p rfl

theorem hasNull_map_normalise {said : Option Path} (hsaid : ∀ p ∈ said, p.hasNull = false) :
    ∀ p ∈ said.map Path.normalise, p.hasNull = false := by
  intro p hp
  obtain ⟨p, hmem, rfl⟩ := Option.map_eq_some_iff.1 hp
  exact Path.hasNull_normalise (hsaid p hmem)

/-! ### Fields -/

/-- A path without the null character is checked when a setting says it. -/
theorem pathOf_checks (hroot : root.hasNull = false) (hvalue : ∀ s, value = .text s → '\x00' ∉ s) :
    Checks (IsPath value) (pathOf lexical root field value)
      ((pathIn root value).map Path.normalise) := by
  cases value with
  | nothing => exact .inl ⟨trivial, rfl⟩
  | text s =>
    by_cases hblank : Text.isAllBlank s = true
    · refine .inr ⟨?_, .noPath field, by rw [pathOf, if_pos hblank], rfl⟩
      rintro ⟨c, hc, hnot⟩
      rw [List.all_eq_true.1 hblank c hc] at hnot
      cases hnot
    · refine .inl ⟨?_, ?_⟩
      · simpa [Text.isAllBlank, IsPath] using hblank
      · rw [pathOf, if_neg hblank, lexical_of_hasNull (Path.hasNull_under hroot (hvalue s rfl))]
        rfl
  | _ => exact .inr ⟨id, .noPath field, rfl, rfl⟩

theorem hasNull_pathIn (hroot : root.hasNull = false)
    (hvalue : ∀ s, value = .text s → '\x00' ∉ s) : ∀ p ∈ pathIn root value, p.hasNull = false := by
  intro p hp
  cases value with
  | text s =>
    cases hp
    exact Path.hasNull_under hroot (hvalue s rfl)
  | _ => cases hp

/-- A number of workers is checked when a layer says it. -/
theorem workersOf_checks (field : Text) (below : Int) (value : Value) :
    Checks (IsWorkers value) (workersOf field below value) (numberIn below value) := by
  cases value with
  | nothing => exact .inl ⟨trivial, rfl⟩
  | integer n =>
    rw [workersOf, IsWorkers, maxWorkers]
    by_cases hlow : n < 1
    · exact .inr ⟨by omega, .notPositive field, by rw [if_pos hlow], rfl⟩
    · by_cases hhigh : 256 < n
      · exact .inr ⟨by omega, .tooLarge field, by rw [if_neg hlow, if_pos hhigh], rfl⟩
      · exact .inl ⟨by omega, by rw [if_neg hlow, if_neg hhigh]; rfl⟩
  | _ => exact .inr ⟨id, .notPositive field, rfl, rfl⟩

@[simp] theorem numberIn_numberIn (below : Int) (value : Value) :
    numberIn (numberIn below value) value = numberIn below value := by
  cases value <;> rfl

theorem numberIn_bounds (hbelow : 1 ≤ n ∧ n ≤ 256) (hvalue : IsWorkers value) :
    1 ≤ numberIn n value ∧ numberIn n value ≤ 256 := by
  cases value with
  | integer => exact hvalue
  | _ => exact hbelow

theorem default_bounds (root : Path) (processors : Option Nat) :
    1 ≤ (default root processors).workers ∧ (default root processors).workers ≤ 256 := by
  rw [default, maxWorkers]
  dsimp only
  omega

/-! ### Settings -/

theorem unknownKey?_eq_none :
    unknownKey? table = none ↔
      ∀ key ∈ table.map Prod.fst, key ∈ "workers".toList :: pathKeys := by
  have hkeys : ("workers".toList :: pathKeys).Perm keys := by decide
  rw [unknownKey?, List.head?_eq_none_iff, List.eq_nil_iff_forall_not_mem]
  simp only [Text.mem_sorted, List.mem_filter, not_and, Bool.not_eq_true, Bool.not_eq_false',
    List.contains_iff_mem, hkeys.mem_iff]

theorem sectionOf_checks (settings : Table) :
    Checks (∀ value, settings.lookup buildSection = some value → ∃ table, value = .table table)
      (sectionOf settings) (buildTable settings) := by
  rw [sectionOf, buildTable]
  cases hlook : settings.lookup buildSection with
  | none => exact .inl ⟨fun _ h => (nomatch h), rfl⟩
  | some value =>
    cases value with
    | table members => exact .inl ⟨fun _ h => ⟨members, (Option.some.inj h).symm⟩, rfl⟩
    | _ => exact .inr ⟨fun h => (nomatch h _ rfl), .notATable, rfl, rfl⟩

/-- The configuration that settings make of another one. -/
def withTable (base : Config) (table : Table) (root : Path) : Config :=
  let path (key : String) := (pathIn root (table.get key.toList)).map Path.normalise
  { inputRoot := (path "input_dir").getD base.inputRoot
    outputRoot := (path "output_dir").getD base.outputRoot
    workers := numberIn base.workers (table.get "workers".toList)
    auditLog := (path "audit_log").or base.auditLog }

theorem not_unusable_iff :
    (∀ value, settings.lookup buildSection = some value → ∃ table, value = .table table) ∧
        (∀ key ∈ (buildTable settings).map Prod.fst, key ∈ "workers".toList :: pathKeys) ∧
        (IsPath ((buildTable settings).get "input_dir".toList) ∧
          IsPath ((buildTable settings).get "output_dir".toList) ∧
          IsPath ((buildTable settings).get "audit_log".toList) ∧
          IsWorkers ((buildTable settings).get "workers".toList)) ↔
      ¬ Unusable settings := by
  constructor
  · rintro ⟨htable, hknown, hinput, houtput, hlog, hworkers⟩ hbad
    cases hbad with
    | noTable value found not_table =>
      obtain ⟨table, rfl⟩ := htable value found
      exact not_table table rfl
    | unknown key found not_key => exact not_key (hknown key found)
    | path key is_key not_path =>
      simp only [pathKeys, List.mem_cons, List.not_mem_nil, or_false] at is_key
      rcases is_key with rfl | rfl | rfl
      · exact not_path hinput
      · exact not_path houtput
      · exact not_path hlog
    | workers not_workers => exact not_workers hworkers
  · intro h
    have hpath (key : Text) (hkey : key ∈ pathKeys) : IsPath ((buildTable settings).get key) :=
      by_contra fun hno => h (.path key hkey hno)
    refine ⟨fun value hfound => by_contra fun hno => h (.noTable value hfound ?_),
      fun key hfound => by_contra fun hno => h (.unknown key hfound hno),
      hpath _ (by simp [pathKeys]), hpath _ (by simp [pathKeys]), hpath _ (by simp [pathKeys]),
      by_contra fun hno => h (.workers hno)⟩
    exact fun table he => hno ⟨table, he⟩

/-- Settings are checked as a whole. -/
theorem withSettings_checks (base : Config) (hroot : root.hasNull = false)
    (htexts : ∀ key ∈ pathKeys, ∀ s, (buildTable settings).get key = .text s → '\x00' ∉ s) :
    Checks (¬ Unusable settings) (withSettings lexical base settings root)
      (withTable base (buildTable settings) root) := by
  refine Checks.congr ?_ not_unusable_iff
  rw [withSettings]
  refine (sectionOf_checks settings).bind ?_
  rw [← unknownKey?_eq_none]
  cases hkey : unknownKey? (buildTable settings) with
  | some key => exact .inr ⟨fun h => absurd h.1 (Option.some_ne_none key), .unknownKey key, rfl, rfl⟩
  | none =>
    rw [eq_self, true_and]
    refine (pathOf_checks hroot (htexts _ (by simp [pathKeys]))).bind ?_
    refine (pathOf_checks hroot (htexts _ (by simp [pathKeys]))).bind ?_
    refine (pathOf_checks hroot (htexts _ (by simp [pathKeys]))).bind ?_
    exact (workersOf_checks _ _ _).map _

/-! ### Overrides -/

/-- Overrides are checked on what they and the layers below say together. -/
theorem override_checks
    (hinput : (overrides.inputRoot.getD config.inputRoot).hasNull = false)
    (houtput : (overrides.outputRoot.getD config.outputRoot).hasNull = false)
    (hlog : ∀ log ∈ overrides.auditLog.or config.auditLog, log.hasNull = false) :
    Checks
      (IsWorkers overrides.workers ∧ ¬ (overrides.outputRoot.getD config.outputRoot).normalise <+:
        (overrides.inputRoot.getD config.inputRoot).normalise)
      (override lexical config overrides)
      { inputRoot := (overrides.inputRoot.getD config.inputRoot).normalise
        outputRoot := (overrides.outputRoot.getD config.outputRoot).normalise
        workers := numberIn config.workers overrides.workers
        auditLog := (overrides.auditLog.or config.auditLog).map Path.normalise } := by
  rw [override, lexical_of_hasNull hinput, lexical_of_hasNull houtput]
  refine (workersOf_checks _ _ _).bind ?_
  rw [← isWithin_iff (Path.normal_normalise _)]
  by_cases hwithin : Path.isWithin (overrides.outputRoot.getD config.outputRoot).normalise
      (overrides.inputRoot.getD config.inputRoot).normalise = true
  · exact .inr ⟨fun h => h hwithin, .outputsAboveSources, (if_pos hwithin).trans rfl, rfl⟩
  · refine .inl ⟨hwithin, (if_neg hwithin).trans ?_⟩
    cases hl : overrides.auditLog.or config.auditLog with
    | none => rfl
    | some log =>
      rw [hl] at hlog
      dsimp only
      rw [lexical_of_hasNull (hlog log rfl)]
      rfl

/-- **The same overrides again** change nothing. -/
theorem override_again
    (hinput : (overrides.inputRoot.getD base.inputRoot).hasNull = false)
    (houtput : (overrides.outputRoot.getD base.outputRoot).hasNull = false)
    (hlog : ∀ log ∈ overrides.auditLog.or base.auditLog, log.hasNull = false)
    (h : override lexical base overrides = .ok config) :
    override lexical config overrides = .ok config := by
  have hpath (own : Option Path) (below : Path) :
      (own.getD (own.getD below).normalise).normalise = (own.getD below).normalise := by
    cases own <;> simp
  have hnull (own : Option Path) (below : Path) (hchosen : (own.getD below).hasNull = false) :
      (own.getD (own.getD below).normalise).hasNull = false := by
    cases own with
    | none => exact Path.hasNull_normalise hchosen
    | some p => exact hchosen
  obtain ⟨⟨hworkers, hapart⟩, rfl⟩ := (override_checks hinput houtput hlog).of_ok h
  refine ((override_checks (hnull _ _ hinput) (hnull _ _ houtput) ?_).eq_ok
    ⟨hworkers, ?_⟩).trans (congrArg Except.ok ?_)
  · cases hown : overrides.auditLog with
    | none => exact hasNull_map_normalise (by rwa [hown] at hlog)
    | some log => rwa [hown] at hlog
  · rw [hpath, hpath]
    exact hapart
  · rw [Config.mk.injEq]
    refine ⟨hpath _ _, hpath _ _, numberIn_numberIn _ _, ?_⟩
    cases overrides.auditLog <;> cases base.auditLog <;> simp

/-! ### All layers -/

theorem not_refused_iff :
    ¬ Unusable settings ∧ IsWorkers overrides.workers ∧
        ¬ (layered root processors settings overrides).outputRoot <+:
          (layered root processors settings overrides).inputRoot ↔
      ¬ Refused root processors settings overrides := by
  constructor
  · rintro ⟨husable, hworkers, hapart⟩ hrefused
    cases hrefused with
    | settings unusable => exact husable unusable
    | workers not_workers => exact not_workers hworkers
    | above above => exact hapart above
  · intro h
    exact ⟨fun hbad => h (.settings hbad), by_contra fun hno => h (.workers hno),
      fun habove => h (.above habove)⟩

section Lexical

variable (hroot : root.hasNull = false)
  (htexts : ∀ key ∈ pathKeys, ∀ s, (buildTable settings).get key = .text s → '\x00' ∉ s)
  (hover : ∀ path ∈ overrides.paths, path.hasNull = false)

include hroot htexts hover

/-- What is chosen from the overrides and the layers below them has no null character. -/
theorem hasNull_chosen (processors : Option Nat) :
    let below := withTable (default root.normalise processors) (buildTable settings) root
    (overrides.inputRoot.getD below.inputRoot).hasNull = false ∧
      (overrides.outputRoot.getD below.outputRoot).hasNull = false ∧
      ∀ log ∈ overrides.auditLog.or below.auditLog, log.hasNull = false := by
  have hsaid (key : Text) (hkey : key ∈ pathKeys) :=
    hasNull_map_normalise (hasNull_pathIn hroot (htexts key hkey))
  have hinput : root.normalise.hasNull = false := Path.hasNull_normalise hroot
  have houtput : Path.hasNull (root.normalise ++ [(defaultOutputName : Str)]) = false := by
    rw [Path.hasNull, List.any_append, ← Path.hasNull, hinput]
    decide
  simp only [Overrides.paths, List.mem_append, Option.mem_toList, or_imp, forall_and] at hover
  obtain ⟨⟨hown, hown'⟩, hownLog⟩ := hover
  refine ⟨hasNull_getD hown (hasNull_getD (hsaid _ (by simp [pathKeys])) hinput),
    hasNull_getD hown' (hasNull_getD (hsaid _ (by simp [pathKeys])) houtput), fun log hlog => ?_⟩
  rcases Option.or_eq_some_iff.1 hlog with hlog | ⟨-, hlog⟩
  · exact hownLog log hlog
  · refine hsaid "audit_log".toList (by simp [pathKeys]) log ?_
    simpa [withTable, default] using hlog

/-- **What comes of all layers** is what they say, if it is not refused. -/
theorem merge_checks (processors : Option Nat) :
    Checks (¬ Refused root processors settings overrides)
      (merge lexical (default root.normalise processors) settings overrides root)
      (layered root processors settings overrides) := by
  obtain ⟨hinput, houtput, hlog⟩ := hasNull_chosen hroot htexts hover processors
  refine Checks.congr ?_ not_refused_iff
  simp only [layered, ← normalise_getD, ← map_normalise_or]
  exact (withSettings_checks (default root.normalise processors) hroot htexts).bind
    (override_checks hinput houtput hlog)

end Lexical

/-- **Merging is layered and safe.** Let paths be resolved as if nothing existed, let no path have the
null character, and let the defaults be those of the project at a root, with any number of processors or
an unknown one. Then the layers are refused, with a fault of a value, if and only if the section of the
build is no table, or has a key that means nothing, or says what no path or no number of workers can be,
or the overrides say what no number of workers can be, or the outputs that the layers say in the end are
at or above the sources that they say in the end. Otherwise merging gives what the layers say, field by
field.

And what it gives is safe: its paths have no steps back, its outputs are not above its sources, its
workers are from 1 to 256, and the same overrides again change nothing. -/
theorem merge_layered (hroot : root.hasNull = false)
    (htexts : ∀ key ∈ pathKeys, ∀ s, (buildTable settings).get key = .text s → '\x00' ∉ s)
    (hover : ∀ path ∈ overrides.paths, path.hasNull = false) (processors : Option Nat) :
    let merged := merge lexical (default root.normalise processors) settings overrides root
    (Refuses merged ↔ Refused root processors settings overrides) ∧
      (¬ Refused root processors settings overrides →
        merged = .ok (layered root processors settings overrides)) ∧
      ∀ config, merged = .ok config →
        (config.inputRoot.Normal ∧ config.outputRoot.Normal ∧
          ∀ log ∈ config.auditLog, log.Normal) ∧
        ¬ config.outputRoot <+: config.inputRoot ∧
        (1 ≤ config.workers ∧ config.workers ≤ 256) ∧
        override lexical config overrides = .ok config := by
  intro merged
  have hchecks := merge_checks hroot htexts hover processors
  refine ⟨hchecks.refuses_iff.trans not_not, hchecks.eq_ok, fun config hconfig => ?_⟩
  obtain ⟨haccepted, rfl⟩ := hchecks.of_ok hconfig
  have hworkers : IsWorkers ((buildTable settings).get "workers".toList) :=
    by_contra fun hno => haccepted (.settings (.workers hno))
  have hworkers' : IsWorkers overrides.workers :=
    by_contra fun hno => haccepted (.workers hno)
  refine ⟨⟨Path.normal_normalise _, Path.normal_normalise _, fun log hlog => ?_⟩,
    fun habove => haccepted (.above habove),
    numberIn_bounds (numberIn_bounds (default_bounds _ _) hworkers) hworkers', ?_⟩
  · obtain ⟨path, -, rfl⟩ := Option.map_eq_some_iff.1 hlog
    exact Path.normal_normalise path
  · obtain ⟨hinput, houtput, hlog⟩ := hasNull_chosen hroot htexts hover processors
    obtain ⟨below, hbelow, hover⟩ := Build.of_bind_ok hconfig
    obtain ⟨-, rfl⟩ := (withSettings_checks _ hroot htexts).of_ok hbelow
    exact override_again hinput houtput hlog hover

/-- The root of a project. -/
def projectRoot : Path := ["srv".toList, "app".toList]

/-- Settings that put the outputs above the sources. -/
def risingSettings : Table :=
  [("build".toList, .table [("output_dir".toList, .text "..".toList), ("workers".toList, .integer 3),
    ("input_dir".toList, .text "./src/../pages/".toList), ("audit_log".toList, .nothing)])]

/-- Overrides that put them somewhere else. -/
def movingOverrides : Overrides where
  outputRoot := some ["out".toList, "..".toList, "made".toList]
  workers := .integer 256

theorem merge_layered_rising :
    merge lexical (default projectRoot.normalise none) risingSettings movingOverrides projectRoot =
        .ok ⟨["srv".toList, "app".toList, "pages".toList], ["made".toList], 256, none⟩ ∧
      ¬ Refused projectRoot none risingSettings movingOverrides ∧
      Refused projectRoot none risingSettings {} := by
  have htexts : ∀ key ∈ pathKeys, ∀ s,
      (buildTable risingSettings).get key = .text s → '\x00' ∉ s := by
    intro key hkey s hs
    simp only [pathKeys, List.mem_cons, List.not_mem_nil, or_false] at hkey
    rcases hkey with rfl | rfl | rfl
    · obtain rfl : _ = s := Value.text.inj hs
      decide
    · obtain rfl : _ = s := Value.text.inj hs
      decide
    · exact nomatch hs
  have hmerged : merge lexical (default projectRoot.normalise none) risingSettings movingOverrides
      projectRoot =
        .ok ⟨["srv".toList, "app".toList, "pages".toList], ["made".toList], 256, none⟩ := by
    decide +kernel
  obtain ⟨hrefuses, -, -⟩ :=
    merge_layered (show projectRoot.hasNull = false by decide) htexts
      (show ∀ path ∈ movingOverrides.paths, path.hasNull = false by decide) none
  refine ⟨hmerged, fun hrefused => ?_, ?_⟩
  · obtain ⟨fault, hfault, -⟩ := hrefuses.2 hrefused
    rw [hmerged] at hfault
    cases hfault
  · exact (merge_layered (show projectRoot.hasNull = false by decide) htexts
      (show ∀ path ∈ Overrides.paths {}, path.hasNull = false by decide) none).1.1
      ⟨.outputsAboveSources, by decide +kernel, rfl⟩

end Config
end TemplateBindings
