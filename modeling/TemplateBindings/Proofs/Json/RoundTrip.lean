import Mathlib.Data.List.Nodup
import TemplateBindings.Json.Parse
import TemplateBindings.Proofs.Text.Case

/-!
# Reading what was printed

A value without numbers (`TemplateBindings.Json.Numberless`) is read back from its printed form,
whatever characters its strings are made of (`TemplateBindings.Json.parse_print`). The printed form is
made of characters that are shown as they are (`TemplateBindings.Json.Numberless.shown`): an escape
stands for every other one, and the reader makes the character again, from two escapes if it has to.
A surrogate that is the first of a pair could take what follows it for its partner, so that strings
with one are left out.
-/

namespace TemplateBindings

variable {c : Char} {n room steps : Nat} {s rest : Text} {string : Json.Symbols}

namespace Text

/-- **A character that is shown as it is**: an ASCII character that is no control. -/
def IsShown (c : Char) : Prop := 0x20 ≤ c.toNat ∧ c.toNat < 0x7F

instance (c : Char) : Decidable (IsShown c) := inferInstanceAs (Decidable (_ ∧ _))

/-! ### Four digits -/

/-- A number below 0x10000 is written with four digits. -/
theorem ofNatHex_four (h : n < 0x10000) :
    ofNatHex 4 n = [Nat.digitChar (n / 4096), Nat.digitChar (n / 256 % 16),
      Nat.digitChar (n / 16 % 16), Nat.digitChar (n % 16)] := by
  have hlow {m : Nat} (hm : m < 16) : Nat.toDigits 16 m = [Nat.digitChar m] :=
    Nat.toDigits_of_lt_base hm
  have hhigh {m : Nat} (hm : 16 ≤ m) :
      Nat.toDigits 16 m = Nat.toDigits 16 (m / 16) ++ [Nat.digitChar (m % 16)] :=
    Nat.toDigits_of_base_le (by decide) hm
  have hzero {m : Nat} (hm : m = 0) : Nat.digitChar m = '0' := by rw [hm]; rfl
  rw [ofNatHex, padLeft]
  by_cases h1 : n < 16
  · rw [hlow h1, hzero (m := n / 4096) (by omega), hzero (m := n / 256 % 16) (by omega),
      hzero (m := n / 16 % 16) (by omega), Nat.mod_eq_of_lt h1]
    rfl
  · rw [hhigh (by omega)]
    by_cases h2 : n / 16 < 16
    · rw [hlow h2, hzero (m := n / 4096) (by omega), hzero (m := n / 256 % 16) (by omega),
        Nat.mod_eq_of_lt h2]
      rfl
    · rw [hhigh (by omega), Nat.div_div_eq_div_mul]
      by_cases h3 : n / 256 < 16
      · rw [hlow h3, hzero (m := n / 4096) (by omega), Nat.mod_eq_of_lt h3]
        rfl
      · rw [hhigh (by omega), Nat.div_div_eq_div_mul, hlow (by omega)]
        rfl

theorem hexDigit?_digitChar : ∀ d < 16, hexDigit? (Nat.digitChar d) = some d := by decide

theorem isShown_digitChar : ∀ d < 16, IsShown (Nat.digitChar d) := by decide

theorem isShown_of_mem_ofNatHex (h : n < 0x10000) (hc : c ∈ ofNatHex 4 n) : IsShown c := by
  rw [ofNatHex_four h] at hc
  have hdigit {d : Nat} (hd : d < 16) : IsShown (Nat.digitChar d) := isShown_digitChar d hd
  simp only [List.mem_cons, List.not_mem_nil, or_false] at hc
  rcases hc with rfl | rfl | rfl | rfl <;> exact hdigit (by omega)

end Text

namespace Json

/-! ### Characters -/

/-- Four digits are read back. -/
theorem unit?_ofNatHex (h : n < 0x10000) (rest : Text) :
    unit? (Text.ofNatHex 4 n ++ rest) = some (n, rest) := by
  have hdigit {d : Nat} (hd : d < 16) : Text.hexDigit? (Nat.digitChar d) = some d :=
    Text.hexDigit?_digitChar d hd
  rw [Text.ofNatHex_four h]
  simp only [List.cons_append, List.nil_append, unit?]
  rw [hdigit (by omega), hdigit (by omega), hdigit (by omega), hdigit (by omega)]
  have he : n / 4096 * 4096 + n / 256 % 16 * 256 + n / 16 % 16 * 16 + n % 16 = n := by omega
  dsimp only
  rw [he]

theorem escapeUnit_append (n : Nat) (rest : Text) :
    escapeUnit n ++ rest = '\\' :: 'u' :: (Text.ofNatHex 4 n ++ rest) := rfl

/-- The number of a character is none of a surrogate. -/
theorem toNat_not_surrogate (c : Char) : c.toNat < 0xD800 ∨ 0xDFFF < c.toNat ∧ c.toNat < 0x110000 :=
  c.valid

/-- An escape of one number is read back. -/
theorem escapedUnit?_of_small (h : c.toNat < 0x10000) (rest : Text) :
    escapedUnit? (Text.ofNatHex 4 c.toNat ++ rest) = some (.char c, rest) := by
  have hvalid := toNat_not_surrogate c
  rw [escapedUnit?, unit?_ofNatHex h]
  dsimp only
  rw [if_neg (by simp; omega), Symbol.ofNumber, dif_neg (by omega), Char.ofNat_toNat]

/-- An escape of the second surrogate of a pair is read back. -/
theorem escapedUnit?_of_second {place : Fin 0x800} (h : 0x400 ≤ place.val) (rest : Text) :
    escapedUnit? (Text.ofNatHex 4 (0xD800 + place.val) ++ rest) = some (.lone place, rest) := by
  have hplace := place.isLt
  rw [escapedUnit?, unit?_ofNatHex (by omega)]
  dsimp only
  rw [if_neg (by simp; omega), Symbol.ofNumber, dif_pos (by omega)]
  simp

/-- An escape of two surrogates is read back. -/
theorem escapedUnit?_of_large (h : ¬ c.toNat < 0x10000) (rest : Text) :
    escapedUnit? (Text.ofNatHex 4 (0xD800 + (c.toNat - 0x10000) / 0x400) ++
      (escapeUnit (0xDC00 + (c.toNat - 0x10000) % 0x400) ++ rest)) = some (.char c, rest) := by
  have hvalid := toNat_not_surrogate c
  obtain ⟨high, hhigh⟩ : ∃ n, 0xD800 + (c.toNat - 0x10000) / 0x400 = n := ⟨_, rfl⟩
  obtain ⟨low, hlow⟩ : ∃ n, 0xDC00 + (c.toNat - 0x10000) % 0x400 = n := ⟨_, rfl⟩
  have he : 0x10000 + (high - 0xD800) * 0x400 + (low - 0xDC00) = c.toNat := by omega
  rw [hhigh, hlow, escapeUnit_append, escapedUnit?, unit?_ofNatHex (by omega)]
  simp only
  rw [if_pos (by simp; omega), unit?_ofNatHex (by omega)]
  simp only
  rw [if_pos (by simp; omega), he, Char.ofNat_toNat]

theorem escaped?_unit (s : Text) : escaped? ('u' :: s) = escapedUnit? s := rfl

theorem string?_escape {e : Symbol} (h : escaped? s = some (e, rest)) :
    string? (steps + 1) ('\\' :: s) = (string? steps rest).map fun r => (e :: r.1, r.2) := by
  rw [string?, h]

theorem string?_plain (hquote : c ≠ '"') (hback : c ≠ '\\') (h : 0x20 ≤ c.toNat) :
    string? (steps + 1) (c :: rest) = (string? steps rest).map fun r => (.char c :: r.1, r.2) := by
  rw [string?]
  · rw [if_neg (by omega)]
  · exact hquote
  · exact hback

/-- **The ways in which a character is written**: a letter behind a backslash, the character itself,
its number, or the numbers of two surrogates. -/
theorem escapeChar_cases (c : Char) :
    (∃ letter, escapeChar c = ['\\', letter] ∧ Text.IsShown letter ∧
        ∀ rest, escaped? (letter :: rest) = some (.char c, rest)) ∨
      (escapeChar c = [c] ∧ Text.IsShown c ∧ c ≠ '"' ∧ c ≠ '\\') ∨
      (escapeChar c = escapeUnit c.toNat ∧ c.toNat < 0x10000) ∨
      (escapeChar c = escapeUnit (0xD800 + (c.toNat - 0x10000) / 0x400) ++
          escapeUnit (0xDC00 + (c.toNat - 0x10000) % 0x400) ∧ ¬ c.toNat < 0x10000) := by
  by_cases hquote : c = '"'
  · refine .inl ⟨'"', ?_, by decide, fun rest => by rw [hquote]; rfl⟩
    rw [escapeChar, if_pos hquote]
    rfl
  by_cases hback : c = '\\'
  · refine .inl ⟨'\\', ?_, by decide, fun rest => by rw [hback]; rfl⟩
    rw [escapeChar, if_neg hquote, if_pos hback]
    rfl
  by_cases hlf : c = '\n'
  · refine .inl ⟨'n', ?_, by decide, fun rest => by rw [hlf]; rfl⟩
    rw [escapeChar, if_neg hquote, if_neg hback, if_pos hlf]
    rfl
  by_cases hcr : c = '\r'
  · refine .inl ⟨'r', ?_, by decide, fun rest => by rw [hcr]; rfl⟩
    rw [escapeChar, if_neg hquote, if_neg hback, if_neg hlf, if_pos hcr]
    rfl
  by_cases htab : c = '\t'
  · refine .inl ⟨'t', ?_, by decide, fun rest => by rw [htab]; rfl⟩
    rw [escapeChar, if_neg hquote, if_neg hback, if_neg hlf, if_neg hcr, if_pos htab]
    rfl
  by_cases hbs : c = '\x08'
  · refine .inl ⟨'b', ?_, by decide, fun rest => by rw [hbs]; rfl⟩
    rw [escapeChar, if_neg hquote, if_neg hback, if_neg hlf, if_neg hcr, if_neg htab, if_pos hbs]
    rfl
  by_cases hff : c = '\x0c'
  · refine .inl ⟨'f', ?_, by decide, fun rest => by rw [hff]; rfl⟩
    rw [escapeChar, if_neg hquote, if_neg hback, if_neg hlf, if_neg hcr, if_neg htab, if_neg hbs, if_pos hff]
    rfl
  rw [escapeChar, if_neg hquote, if_neg hback, if_neg hlf, if_neg hcr, if_neg htab, if_neg hbs, if_neg hff]
  by_cases hshown : (0x20 ≤ c.toNat && c.toNat < 0x7F) = true
  · rw [if_pos hshown]
    rw [Bool.and_eq_true, decide_eq_true_iff, decide_eq_true_iff] at hshown
    exact .inr (.inl ⟨rfl, hshown, hquote, hback⟩)
  rw [if_neg hshown]
  by_cases hsmall : c.toNat < 0x10000
  · exact .inr (.inr (.inl ⟨if_pos hsmall, hsmall⟩))
  · exact .inr (.inr (.inr ⟨if_neg hsmall, hsmall⟩))

/-- **A character is read back.** -/
theorem string?_escapeChar (steps : Nat) (c : Char) (rest : Text) :
    string? (steps + 1) (escapeChar c ++ rest) =
      (string? steps rest).map fun r => (.char c :: r.1, r.2) := by
  rcases escapeChar_cases c with ⟨letter, he, -, hread⟩ | ⟨he, hshown, hquote, hback⟩ |
    ⟨he, hsmall⟩ | ⟨he, hlarge⟩ <;> rw [he]
  · exact string?_escape (hread rest)
  · exact string?_plain hquote hback hshown.1
  · rw [escapeUnit_append, string?_escape]
    rw [escaped?_unit, escapedUnit?_of_small hsmall]
  · rw [List.append_assoc, escapeUnit_append, string?_escape]
    rw [escaped?_unit, escapedUnit?_of_large hlarge]

theorem escapeChar_ne_nil (c : Char) : escapeChar c ≠ [] := by
  rcases escapeChar_cases c with ⟨letter, he, -⟩ | ⟨he, -⟩ | ⟨he, -⟩ | ⟨he, -⟩ <;> rw [he]
  · exact List.cons_ne_nil _ _
  · exact List.cons_ne_nil _ _
  · rw [← List.append_nil (escapeUnit _), escapeUnit_append]
    exact List.cons_ne_nil _ _
  · rw [escapeUnit_append]
    exact List.cons_ne_nil _ _

/-! ### Strings -/

/-- **A symbol that nothing completes**: a character, or the second surrogate of a pair. -/
def Symbol.IsWhole : Symbol → Prop
  | char _ => True
  | lone place => 0x400 ≤ place.val

/-- Texts are in the same order as their symbols. -/
theorem le_ofText : (s t : Text) → Text.le (ofText s) (ofText t) = Text.le s t
  | [], _ => rfl
  | _ :: _, [] => rfl
  | c :: s, d :: t => by
    change Text.le (Symbol.char c :: ofText s) (Symbol.char d :: ofText t) = _
    rw [Text.le, Text.le, le_ofText s t]
    simp only [Symbol.char.injEq]
    rfl

/-- The symbols of texts and names are such. -/
theorem isWhole_of_mem_ofText {symbol : Symbol} (h : symbol ∈ ofText s) : symbol.IsWhole := by
  obtain ⟨c, -, rfl⟩ := List.mem_map.1 h
  trivial

theorem isWhole_of_mem_ofStr {name : Str} {symbol : Symbol} (h : symbol ∈ ofStr name) :
    symbol.IsWhole := by
  obtain ⟨point, -, rfl⟩ := List.mem_map.1 h
  cases point with
  | char c => trivial
  | byte place => exact Nat.le_trans (by decide : 0x400 ≤ 0x480) (Nat.le_add_right _ _)

/-- **A symbol is read back.** -/
theorem string?_escape_symbol {symbol : Symbol} (h : symbol.IsWhole) (steps : Nat) (rest : Text) :
    string? (steps + 1) (escape symbol ++ rest) =
      (string? steps rest).map fun r => (symbol :: r.1, r.2) := by
  cases symbol with
  | char c => exact string?_escapeChar steps c rest
  | lone place =>
    rw [escape, Symbol.number, escapeUnit_append, string?_escape]
    rw [escaped?_unit, escapedUnit?_of_second h]

theorem escape_ne_nil (symbol : Symbol) : escape symbol ≠ [] := by
  cases symbol with
  | char c => exact escapeChar_ne_nil c
  | lone place => exact List.cons_ne_nil _ _

/-- **A string is read back** from behind its opening quote. -/
theorem string?_print (hwhole : ∀ symbol ∈ string, symbol.IsWhole) (h : string.length < steps)
    (rest : Text) :
    string? steps (string.flatMap escape ++ '"' :: rest) = some (string, rest) := by
  induction string generalizing steps with
  | nil =>
    obtain ⟨steps, rfl⟩ := Nat.exists_eq_add_one_of_ne_zero (Nat.ne_of_gt h)
    rfl
  | cons symbol string ih =>
    obtain ⟨hsymbol, hstring⟩ := List.forall_mem_cons.1 hwhole
    obtain ⟨steps, rfl⟩ := Nat.exists_eq_add_one_of_ne_zero (Nat.ne_of_gt (Nat.zero_lt_of_lt h))
    rw [List.flatMap_cons, List.append_assoc, string?_escape_symbol hsymbol,
      ih hstring (Nat.lt_of_succ_lt_succ h)]
    rfl

/-- There are enough steps for it. -/
theorem length_le_flatMap (string : Symbols) :
    string.length ≤ (string.flatMap escape).length := by
  induction string with
  | nil => exact Nat.le_refl _
  | cons symbol string ih =>
    have hpos := List.length_pos_iff.2 (escape_ne_nil symbol)
    rw [List.flatMap_cons, List.length_append, List.length_cons]
    omega

theorem printString_append (string : Symbols) (rest : Text) :
    printString string ++ rest = '"' :: (string.flatMap escape ++ '"' :: rest) := by
  rw [printString, List.append_assoc]
  rfl

theorem string?_printString (hwhole : ∀ symbol ∈ string, symbol.IsWhole) (rest : Text) :
    string? ((string.flatMap escape ++ '"' :: rest).length + 1)
      (string.flatMap escape ++ '"' :: rest) = some (string, rest) := by
  refine string?_print hwhole ?_ rest
  have hle := length_le_flatMap string
  rw [List.length_append]
  omega

/-! ### What is printed -/

theorem isShown_of_mem_escapeUnit (h : n < 0x10000) (hc : c ∈ escapeUnit n) : Text.IsShown c := by
  rw [← List.append_nil (escapeUnit n), escapeUnit_append, List.append_nil, List.mem_cons,
    List.mem_cons] at hc
  rcases hc with rfl | rfl | hc
  · decide
  · decide
  · exact Text.isShown_of_mem_ofNatHex h hc

theorem isShown_of_mem_escapeChar {d : Char} (hc : c ∈ escapeChar d) : Text.IsShown c := by
  have hvalid := toNat_not_surrogate d
  rcases escapeChar_cases d with ⟨letter, he, hshown, -⟩ | ⟨he, hshown, -⟩ | ⟨he, hsmall⟩ |
    ⟨he, hlarge⟩ <;> rw [he] at hc
  · rw [List.mem_cons, List.mem_singleton] at hc
    rcases hc with rfl | rfl
    · decide
    · exact hshown
  · rw [List.mem_singleton.1 hc]
    exact hshown
  · exact isShown_of_mem_escapeUnit hsmall hc
  · rcases List.mem_append.1 hc with hc | hc
    · exact isShown_of_mem_escapeUnit (by omega) hc
    · exact isShown_of_mem_escapeUnit (by omega) hc

theorem isShown_of_mem_escape {symbol : Symbol} (hc : c ∈ escape symbol) : Text.IsShown c := by
  cases symbol with
  | char d => exact isShown_of_mem_escapeChar hc
  | lone place =>
    have hplace := place.isLt
    exact isShown_of_mem_escapeUnit (show 0xD800 + place.val < 0x10000 by omega) hc

/-- **A string is printed in characters that are shown.** -/
theorem isShown_of_mem_printString (hc : c ∈ printString string) : Text.IsShown c := by
  rw [printString, List.mem_append, List.mem_cons, List.mem_flatMap, List.mem_singleton] at hc
  rcases hc with (rfl | ⟨symbol, -, hc⟩) | rfl
  · decide
  · exact isShown_of_mem_escape hc
  · decide

/-! ### Values -/

variable {value : Json} {items : List Json} {members before : List (Symbols × Json)}

/-- **A value without numbers**, in which at most so many arrays and objects stand in each other, the
keys of every object are distinct, and nothing completes the symbols of strings. -/
inductive Numberless : (room : Nat) → Json → Prop
  /-- The value that says there is none. -/
  | null {room : Nat} : Numberless room .null
  /-- A truth value. -/
  | bool {room : Nat} (value : Bool) : Numberless room (.bool value)
  /-- A string. -/
  | text {room : Nat} (value : Symbols) (whole : ∀ symbol ∈ value, symbol.IsWhole) :
    Numberless room (.text value)
  /-- A list of such values. -/
  | array {room : Nat} {items : List Json} (values : ∀ value ∈ items, Numberless room value) :
    Numberless (room + 1) (.array items)
  /-- Members with such values. -/
  | object {room : Nat} {members : List (Symbols × Json)} (keys : (members.map Prod.fst).Nodup)
    (whole : ∀ m ∈ members, ∀ symbol ∈ m.1, symbol.IsWhole)
    (values : ∀ m ∈ members, Numberless room m.2) : Numberless (room + 1) (.object members)

theorem isShown_of_mem_printItems (h : ∀ value ∈ items, ∀ c ∈ print value, Text.IsShown c) :
    ∀ c ∈ printItems items, Text.IsShown c := by
  induction items with
  | nil => exact fun c hc => absurd hc List.not_mem_nil
  | cons value items ih =>
    obtain ⟨hvalue, hitems⟩ := List.forall_mem_cons.1 h
    cases items with
    | nil => exact hvalue
    | cons next items =>
      intro c hc
      rw [printItems, List.mem_append, List.mem_append] at hc
      · rcases hc with (hc | hc) | hc
        · exact hvalue c hc
        · exact Text.forall_mem_of_all (by decide) c hc
        · exact ih hitems c hc
      · simp

theorem isShown_of_mem_member {key : Symbols} (h : ∀ c ∈ print value, Text.IsShown c) :
    ∀ c ∈ printString key ++ ": ".toList ++ print value, Text.IsShown c := by
  intro c hc
  rw [List.mem_append, List.mem_append] at hc
  rcases hc with (hc | hc) | hc
  · exact isShown_of_mem_printString hc
  · exact Text.forall_mem_of_all (by decide) c hc
  · exact h c hc

theorem isShown_of_mem_printMembers (h : ∀ m ∈ members, ∀ c ∈ print m.2, Text.IsShown c) :
    ∀ c ∈ printMembers members, Text.IsShown c := by
  induction members with
  | nil => exact fun c hc => absurd hc List.not_mem_nil
  | cons m members ih =>
    obtain ⟨hvalue, hmembers⟩ := List.forall_mem_cons.1 h
    cases members with
    | nil => exact isShown_of_mem_member hvalue
    | cons next members =>
      intro c hc
      rw [printMembers, List.mem_append, List.mem_append] at hc
      · rcases hc with (hc | hc) | hc
        · exact isShown_of_mem_member hvalue c hc
        · exact Text.forall_mem_of_all (by decide) c hc
        · exact ih hmembers c hc
      · simp

/-- **A value without numbers is printed in characters that are shown.** -/
theorem Numberless.shown (h : Numberless room value) : ∀ c ∈ print value, Text.IsShown c := by
  induction h with
  | null => exact Text.forall_mem_of_all (by decide)
  | bool value =>
    cases value
    · exact Text.forall_mem_of_all (by decide)
    · exact Text.forall_mem_of_all (by decide)
  | text value _ => exact fun c => isShown_of_mem_printString
  | array _ ih =>
    intro c hc
    rw [print, List.mem_append, List.mem_cons, List.mem_singleton] at hc
    rcases hc with (rfl | hc) | rfl
    · decide
    · exact isShown_of_mem_printItems ih c hc
    · decide
  | object _ _ _ ih =>
    intro c hc
    rw [print, List.mem_append, List.mem_cons, List.mem_singleton] at hc
    rcases hc with (rfl | hc) | rfl
    · decide
    · exact isShown_of_mem_printMembers ih c hc
    · decide

/-! ### Reading values -/

/-- **A text that starts with a value**: neither with a blank nor with the end of an array. -/
def Opens (s : Text) : Prop := ∃ c tail, s = c :: tail ∧ isJsonBlank c = false ∧ c ≠ ']'

theorem Opens.append (h : Opens s) (rest : Text) : Opens (s ++ rest) := by
  obtain ⟨c, tail, rfl, hc⟩ := h
  exact ⟨c, tail ++ rest, rfl, hc⟩

theorem Opens.skipBlanks (h : Opens s) : skipBlanks s = s := by
  obtain ⟨c, tail, rfl, hc, -⟩ := h
  rw [Json.skipBlanks, List.dropWhile_cons_of_neg (by simp [hc])]

theorem Opens.ne (h : Opens s) : ∀ tail, s ≠ ']' :: tail := by
  obtain ⟨c, tail, rfl, -, hc⟩ := h
  rintro _ he
  exact hc (List.cons.inj he).1

theorem Numberless.opens (h : Numberless room value) : Opens (print value) := by
  cases h with
  | null => exact ⟨'n', _, rfl, by decide, by decide⟩
  | bool value => cases value <;> exact ⟨_, _, rfl, by decide, by decide⟩
  | text value _ => exact ⟨'"', _, rfl, by decide, by decide⟩
  | array _ => exact ⟨'[', _, rfl, by decide, by decide⟩
  | object _ _ _ => exact ⟨'{', _, rfl, by decide, by decide⟩

/-- **A value is read back** wherever it stands, if there are enough steps. -/
structure ReadsBack (room : Nat) (value : Json) : Prop where
  /-- It starts like a value. -/
  opens : Opens (print value)
  /-- It is read, and what follows it is left. -/
  read : ∀ steps rest, 2 * (print value).length ≤ steps →
    readValue steps room (print value ++ rest) = .ok (value, rest)

theorem skipBlanks_of_not (h : isJsonBlank c = false) (rest : Text) :
    skipBlanks (c :: rest) = c :: rest := by
  rw [skipBlanks, List.dropWhile_cons_of_neg (by simp [h])]

theorem skipBlanks_blank (rest : Text) : skipBlanks (' ' :: rest) = skipBlanks rest := by
  rw [skipBlanks, List.dropWhile_cons_of_pos (by decide), skipBlanks]

theorem opens_printItems (hne : items ≠ []) (h : ∀ value ∈ items, ReadsBack room value) :
    Opens (printItems items) := by
  obtain ⟨value, items, rfl⟩ := List.exists_cons_of_ne_nil hne
  have hvalue := (h value List.mem_cons_self).opens
  cases items with
  | nil => exact hvalue
  | cons next items =>
    rw [printItems]
    · exact (hvalue.append _).append _
    · simp

/-- **Items are read back.** -/
theorem readItems_print (hne : items ≠ []) (h : ∀ value ∈ items, ReadsBack room value)
    (hsteps : 2 * (printItems items).length + 1 ≤ steps) (rest : Text) :
    readItems steps room (printItems items ++ ']' :: rest) = .ok (items, rest) := by
  induction items generalizing steps with
  | nil => exact absurd rfl hne
  | cons value items ih =>
    obtain ⟨hvalue, hitems⟩ := List.forall_mem_cons.1 h
    obtain ⟨steps, rfl⟩ := Nat.exists_eq_add_one_of_ne_zero (show steps ≠ 0 by omega)
    cases items with
    | nil =>
      rw [printItems] at hsteps ⊢
      rw [readItems, hvalue.read _ _ (by omega)]
      simp only
      rw [skipBlanks_of_not (by decide)]
      rfl
    | cons next items =>
      have hopens := (opens_printItems (List.cons_ne_nil next items) hitems).append (']' :: rest)
      have hprint : printItems (value :: next :: items) =
          print value ++ (',' :: ' ' :: printItems (next :: items)) := by
        rw [printItems, List.append_assoc]
        · rfl
        · simp
      rw [hprint, List.length_append, List.length_cons, List.length_cons] at hsteps
      rw [hprint, List.append_assoc, List.cons_append, List.cons_append, readItems,
        hvalue.read _ _ (by omega)]
      simp only
      rw [skipBlanks_of_not (by decide)]
      simp only
      rw [skipBlanks_blank, hopens.skipBlanks, ih (List.cons_ne_nil _ _) hitems (by omega)]
      rfl

theorem setMember_of_not_mem {key : Symbols} (h : key ∉ before.map Prod.fst) :
    setMember before key value = before ++ [(key, value)] := by
  induction before with
  | nil => rfl
  | cons m before ih =>
    rw [List.map_cons, List.mem_cons, not_or] at h
    rw [setMember, if_neg (Ne.symm h.1), ih h.2]
    rfl

/-- A member is read back; what follows it says whether there are more. -/
theorem readMembers_member {key : Symbols} (hkey : ∀ symbol ∈ key, symbol.IsWhole)
    (hvalue : ReadsBack room value)
    (hsteps : 2 * (print value).length ≤ steps) (behind : Text) :
    readMembers (steps + 1) room before
        (printString key ++ ": ".toList ++ print value ++ behind) =
      match skipBlanks behind with
      | '}' :: rest => .ok (setMember before key value, rest)
      | ',' :: rest => readMembers steps room (setMember before key value) (skipBlanks rest)
      | _ => .error .malformed := by
  have hmember : printString key ++ ": ".toList ++ print value ++ behind =
      '"' :: (key.flatMap escape ++ '"' :: ':' :: ' ' :: (print value ++ behind)) := by
    rw [List.append_assoc, List.append_assoc, printString_append]
    rfl
  rw [hmember, readMembers]
  simp only
  rw [string?_printString hkey]
  simp only
  rw [skipBlanks_of_not (by decide)]
  simp only
  rw [skipBlanks_blank, (hvalue.opens.append _).skipBlanks]
  exact hvalue.read steps behind hsteps ▸ rfl

/-- The first member starts like a value. -/
theorem opens_printMembers (hne : members ≠ []) (rest : Text) :
    ∃ tail, printMembers members ++ rest = '"' :: tail := by
  obtain ⟨⟨key, value⟩, members, rfl⟩ := List.exists_cons_of_ne_nil hne
  cases members with
  | nil => exact ⟨_, rfl⟩
  | cons next members =>
    rw [printMembers]
    · exact ⟨_, rfl⟩
    · simp

/-- **Members are read back**, behind those that were read before. -/
theorem readMembers_print (hne : members ≠ []) (h : ∀ m ∈ members, ReadsBack room m.2)
    (hkeys : ((before ++ members).map Prod.fst).Nodup)
    (hwhole : ∀ m ∈ members, ∀ symbol ∈ m.1, symbol.IsWhole)
    (hsteps : 2 * (printMembers members).length + 1 ≤ steps) (rest : Text) :
    readMembers steps room before (printMembers members ++ '}' :: rest) =
      .ok (before ++ members, rest) := by
  induction members generalizing steps before with
  | nil => exact absurd rfl hne
  | cons m members ih =>
    obtain ⟨key, value⟩ := m
    obtain ⟨hvalue, hmembers⟩ := List.forall_mem_cons.1 h
    obtain ⟨hkey, hwhole⟩ := List.forall_mem_cons.1 hwhole
    dsimp only at hvalue
    obtain ⟨steps, rfl⟩ := Nat.exists_eq_add_one_of_ne_zero (show steps ≠ 0 by omega)
    have hnew : key ∉ before.map Prod.fst := by
      rw [List.map_append, List.map_cons, List.nodup_append] at hkeys
      exact fun hm => hkeys.2.2 _ hm _ List.mem_cons_self rfl
    cases members with
    | nil =>
      rw [printMembers] at hsteps ⊢
      rw [List.length_append] at hsteps
      rw [readMembers_member hkey hvalue (by omega), skipBlanks_of_not (by decide),
        setMember_of_not_mem hnew]
      rfl
    | cons next members =>
      have hprint : printMembers ((key, value) :: next :: members) =
          printString key ++ ": ".toList ++ print value ++
            (',' :: ' ' :: printMembers (next :: members)) := by
        rw [printMembers, List.append_assoc]
        · rfl
        · simp
      obtain ⟨tail, htail⟩ := opens_printMembers (List.cons_ne_nil next members) ('}' :: rest)
      have hmore : before ++ (key, value) :: next :: members =
          before ++ [(key, value)] ++ next :: members := by
        simp
      rw [hprint, List.length_append, List.length_append, List.length_cons, List.length_cons]
        at hsteps
      rw [hmore] at hkeys
      rw [hprint, List.append_assoc, readMembers_member hkey hvalue (by omega), List.cons_append,
        List.cons_append, skipBlanks_of_not (by decide), setMember_of_not_mem hnew]
      simp only
      rw [skipBlanks_blank, htail, skipBlanks_of_not (by decide), ← htail,
        ih (List.cons_ne_nil _ _) hmembers hkeys hwhole (by omega), hmore]

/-- Reading a value takes at least one step. -/
theorem ReadsBack.of_step (hopens : Opens (print value))
    (h : ∀ steps rest, 2 * (print value).length ≤ steps + 1 →
      readValue (steps + 1) room (print value ++ rest) = .ok (value, rest)) :
    ReadsBack room value := by
  refine ⟨hopens, fun steps rest hsteps => ?_⟩
  obtain ⟨c, tail, he, -⟩ := hopens
  have hpos : 0 < (print value).length := by simp [he]
  obtain ⟨steps, rfl⟩ := Nat.exists_eq_add_one_of_ne_zero (show steps ≠ 0 by omega)
  exact h steps rest hsteps

theorem readsBack_array (h : ∀ value ∈ items, ReadsBack room value)
    (hopens : Opens (print (.array items))) : ReadsBack (room + 1) (.array items) := by
  refine .of_step hopens fun steps rest hsteps => ?_
  have hprint : print (.array items) ++ rest = '[' :: (printItems items ++ ']' :: rest) := by
    rw [print, List.append_assoc]
    rfl
  rw [print, List.length_append, List.length_cons, List.length_singleton] at hsteps
  rw [hprint, readValue.eq_def]
  simp only
  rcases eq_or_ne items [] with rfl | hne
  · rfl
  · have hfirst := (opens_printItems hne h).append (']' :: rest)
    rw [hfirst.skipBlanks]
    split
    · next he => exact absurd he (hfirst.ne _)
    · rw [readItems_print hne h (by omega)]
      rfl

theorem readsBack_object (hkeys : (members.map Prod.fst).Nodup)
    (hwhole : ∀ m ∈ members, ∀ symbol ∈ m.1, symbol.IsWhole)
    (h : ∀ m ∈ members, ReadsBack room m.2) (hopens : Opens (print (.object members))) :
    ReadsBack (room + 1) (.object members) := by
  refine .of_step hopens fun steps rest hsteps => ?_
  have hprint : print (.object members) ++ rest = '{' :: (printMembers members ++ '}' :: rest) := by
    rw [print, List.append_assoc]
    rfl
  rw [print, List.length_append, List.length_cons, List.length_singleton] at hsteps
  rw [hprint, readValue.eq_def]
  simp only
  rcases eq_or_ne members [] with rfl | hne
  · rfl
  · obtain ⟨tail, htail⟩ := opens_printMembers hne ('}' :: rest)
    rw [htail, skipBlanks_of_not (by decide), ← htail]
    split
    · next he =>
      rw [htail] at he
      exact absurd (List.cons.inj he).1 (by decide)
    · rw [readMembers_print hne h (by simpa using hkeys) hwhole (by omega)]
      rfl

/-- **A value without numbers is read back.** -/
theorem Numberless.readsBack (h : Numberless room value) : ReadsBack room value := by
  have hopens := h.opens
  induction h with
  | null => exact .of_step hopens fun _ _ _ => rfl
  | bool value => cases value <;> exact .of_step hopens fun _ _ _ => rfl
  | text value whole =>
    refine .of_step hopens fun steps rest _ => ?_
    rw [print, printString_append, readValue.eq_def]
    simp only
    rw [string?_printString whole]
  | array values ih =>
    exact readsBack_array (fun value hv => ih value hv (values value hv).opens) hopens
  | object keys whole values ih =>
    exact readsBack_object keys whole (fun m hm => ih m hm (values m hm).opens) hopens

/-- **A value without numbers is what its printed form holds.** -/
theorem parse_print (h : Numberless room value) : parse room (print value) = .ok value := by
  have hread := h.readsBack.read (2 * (print value).length + 2) [] (Nat.le_add_right _ 2)
  rw [List.append_nil] at hread
  rw [parse, h.opens.skipBlanks, hread]
  rfl

end Json
end TemplateBindings
