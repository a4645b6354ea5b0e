import TemplateBindings.Identifier
import TemplateBindings.Proofs.Text.Pieces

/-!
# String literals of scripts

What a text between double quotes denotes where a generated module is read: a list of code units,
sixteen bits each. A backslash opens an escape sequence, and a line feed or a carriage return may not
stand there at all, so that a text denotes itself just when it has neither
(`TemplateBindings.Script.readString?_eq_units_iff`).
-/

namespace TemplateBindings
namespace Script

variable {c : Char} {s rest following value : Text} {denoted : List Nat}

/-! ### Code units -/

/-- The characters that end a line of a script. -/
def lineTerminators : Text := ['\n', '\r', '\u2028', '\u2029']

/-- The code units of a character by its number: one, or two surrogates. -/
def unitsOfCode (n : Nat) : List Nat :=
  if n < 0x10000 then [n] else [0xD800 + (n - 0x10000) / 0x400, 0xDC00 + (n - 0x10000) % 0x400]

/-- **The code units of a text**. -/
def units (s : Text) : List Nat := s.flatMap fun c => unitsOfCode c.toNat

@[simp] theorem units_nil : units [] = [] := rfl

@[simp] theorem units_cons (c : Char) (s : Text) : units (c :: s) = unitsOfCode c.toNat ++ units s := rfl

@[simp] theorem units_append (s t : Text) : units (s ++ t) = units s ++ units t :=
  List.flatMap_append

theorem length_unitsOfCode_pos (n : Nat) : 0 < (unitsOfCode n).length := by
  rw [unitsOfCode]
  split <;> simp

/-- A text has no more characters than code units. -/
theorem length_le_length_units (s : Text) : s.length ≤ (units s).length := by
  induction s with
  | nil => exact Nat.le_refl 0
  | cons c s ih =>
    have := length_unitsOfCode_pos c.toNat
    rw [units_cons, List.length_append, List.length_cons]
    omega

/-! ### Escape sequences -/

/-- The escapes by one letter and what they denote. -/
def letterEscapes : List (Char × Nat) :=
  [('b', 8), ('t', 9), ('n', 10), ('v', 11), ('f', 12), ('r', 13)]

/-- The number that hexadecimal digits write, if they are some and all are. -/
def hexNumber? (digits : Text) : Option Nat :=
  if digits.isEmpty || !digits.all fun c => (Text.hexDigit? c).isSome then none
  else some (Text.hexValue digits)

/-- An escape by the number of a code unit in a fixed count of hexadecimal digits. -/
def unitEscape? (count : Nat) (s : Text) : Option (List Nat × Text) :=
  if s.length < count then none
  else (hexNumber? (s.take count)).map fun n => ([n], s.drop count)

/-- An escape by the number of a character between braces. -/
def codeEscape? (s : Text) : Option (List Nat × Text) :=
  match Text.cutAt '\x7d' s with
  | none => none
  | some (digits, rest) =>
    match hexNumber? digits with
    | none => none
    | some n => if n ≤ 0x10FFFF then some (unitsOfCode n, rest) else none

/-- An escape by the number of a character, in four digits or between braces. -/
def characterEscape? : Text → Option (List Nat × Text)
  | '\x7b' :: digits => codeEscape? digits
  | digits => unitEscape? 4 digits

/-- **An escape sequence**: what the text behind a backslash denotes at its front, and what follows.
A line end denotes nothing, a digit is allowed only if it is a lonely zero, and a character without a
meaning of its own denotes itself. -/
def escape? : Text → Option (List Nat × Text)
  | [] => none
  | c :: rest =>
    if c = 'x' then unitEscape? 2 rest
    else if c = 'u' then characterEscape? rest
    else if c = '\r' && rest.head? == some '\n' then some ([], rest.tail)
    else if lineTerminators.contains c then some ([], rest)
    else if Text.isAsciiDigit c then
      if c = '0' && !rest.head?.any Text.isAsciiDigit then some ([0], rest) else none
    else
      match letterEscapes.lookup c with
      | some n => some ([n], rest)
      | none => some (unitsOfCode c.toNat, rest)

theorem of_unitEscape? {count : Nat} (hcount : 0 < count)
    (h : unitEscape? count s = some (denoted, following)) :
    ∃ used, s = used ++ following ∧ denoted.length ≤ (units used).length := by
  rw [unitEscape?] at h
  split at h
  · cases h
  · next hlength =>
    obtain ⟨n, -, he⟩ := Option.map_eq_some_iff.1 h
    cases he
    refine ⟨s.take count, (List.take_append_drop count s).symm, ?_⟩
    have := length_le_length_units (s.take count)
    rw [List.length_take] at this
    rw [List.length_singleton]
    omega

theorem of_codeEscape? (h : codeEscape? s = some (denoted, following)) :
    ∃ used, s = used ++ following ∧ denoted.length ≤ (units used).length + 1 := by
  rw [codeEscape?] at h
  split at h
  · cases h
  · next digits rest hcut =>
    split at h
    · cases h
    · next n hn =>
      split at h
      · cases h
        obtain ⟨rfl, -⟩ := Text.of_cutAt hcut
        refine ⟨digits ++ ['\x7d'], by simp, ?_⟩
        have := length_le_length_units (digits ++ ['\x7d'])
        have htwo : (unitsOfCode n).length ≤ 2 := by
          rw [unitsOfCode]
          split <;> simp
        rw [List.length_append, List.length_singleton] at this
        omega
      · cases h

theorem of_characterEscape? (h : characterEscape? s = some (denoted, following)) :
    ∃ used, s = used ++ following ∧ denoted.length ≤ (units used).length := by
  unfold characterEscape? at h
  split at h
  · next digits =>
    obtain ⟨used, rfl, hlength⟩ := of_codeEscape? h
    refine ⟨'\x7b' :: used, rfl, ?_⟩
    have := length_unitsOfCode_pos '\x7b'.toNat
    rw [units_cons, List.length_append]
    omega
  · exact of_unitEscape? (by decide) h

/-- **No escape sequence denotes more than is written behind its backslash.** -/
theorem of_escape? (h : escape? s = some (denoted, following)) :
    ∃ used, s = used ++ following ∧ denoted.length ≤ (units used).length := by
  cases s with
  | nil => cases h
  | cons c rest =>
    have hone : 1 ≤ (units [c]).length := length_le_length_units [c]
    have hbehind (h : ∃ used, rest = used ++ following ∧ denoted.length ≤ (units used).length) :
        ∃ used, c :: rest = used ++ following ∧ denoted.length ≤ (units used).length := by
      obtain ⟨used, rfl, hlength⟩ := h
      refine ⟨c :: used, rfl, ?_⟩
      rw [units_cons, List.length_append]
      omega
    rw [escape?] at h
    split at h
    · exact hbehind (of_unitEscape? (by decide) h)
    split at h
    · exact hbehind (of_characterEscape? h)
    split at h
    · next hreturn =>
      cases h
      rw [Bool.and_eq_true, beq_iff_eq] at hreturn
      cases rest with
      | nil => cases hreturn.2
      | cons d rest => exact ⟨[c, d], rfl, Nat.zero_le _⟩
    split at h
    · cases h
      exact ⟨[c], rfl, Nat.zero_le _⟩
    split at h
    · split at h
      · cases h
        exact ⟨[c], rfl, hone⟩
      · cases h
    split at h
    · cases h
      exact ⟨[c], rfl, hone⟩
    · cases h
      exact ⟨[c], rfl, Nat.le_of_eq (by simp)⟩

/-! ### Literals -/

/-- **Reading a string literal** behind its opening quote: the code units that it denotes, and what
follows its closing quote. -/
def readString? (s : Text) : Option (List Nat × Text) :=
  match s with
  | [] => none
  | c :: rest =>
    if c = '"' then some ([], rest)
    else if c = '\n' || c = '\r' then none
    else if c = '\\' then
      match _h : escape? rest with
      | none => none
      | some (denoted, following) => (readString? following).map fun r => (denoted ++ r.1, r.2)
    else (readString? rest).map fun r => (unitsOfCode c.toNat ++ r.1, r.2)
termination_by s.length
decreasing_by
  · obtain ⟨used, hs, -⟩ := of_escape? _h
    have := congrArg List.length hs
    rw [List.length_append] at this
    rw [List.length_cons]
    omega
  · simp

/-- What a literal denotes is shorter than its text, by its closing quote at least. -/
theorem length_readString? (h : readString? s = some (denoted, following)) :
    denoted.length + (units following).length < (units s).length := by
  fun_induction readString? s generalizing denoted with
  | case1 => cases h
  | case2 rest =>
    cases h
    have := length_unitsOfCode_pos '"'.toNat
    rw [units_cons, List.length_append, List.length_nil]
    omega
  | case3 | case4 => cases h
  | case5 rest escaped behind hescape _ _ ih =>
    obtain ⟨⟨tail, after⟩, htail, he⟩ := Option.map_eq_some_iff.1 h
    cases he
    obtain ⟨used, rfl, hused⟩ := of_escape? hescape
    have hlonger : tail.length + (units after).length < (units behind).length := ih htail
    rw [units_cons, units_append]
    simp only [List.length_append]
    omega
  | case6 c rest _ _ _ ih =>
    obtain ⟨⟨tail, after⟩, htail, he⟩ := Option.map_eq_some_iff.1 h
    cases he
    have hlonger : tail.length + (units after).length < (units rest).length := ih htail
    rw [units_cons]
    simp only [List.length_append]
    omega

/-- A character that neither ends a literal nor opens an escape sequence denotes itself. -/
theorem readString?_cons (hquote : c ≠ '"') (hfeed : c ≠ '\n') (hreturn : c ≠ '\r')
    (hslash : c ≠ '\\') (s : Text) :
    readString? (c :: s) = (readString? s).map fun r => (unitsOfCode c.toNat ++ r.1, r.2) := by
  rw [readString?, if_neg hquote, if_neg (by simp [hfeed, hreturn]), if_neg hslash]

/-- **A text between quotes denotes itself** just when it has no backslash, no line feed and no
carriage return. -/
theorem readString?_eq_units_iff (h : '"' ∉ s) (rest : Text) :
    readString? (s ++ '"' :: rest) = some (units s, rest) ↔ '\\' ∉ s ∧ '\n' ∉ s ∧ '\r' ∉ s := by
  induction s with
  | nil => simp [readString?]
  | cons c s ih =>
    have hquote : c ≠ '"' := fun he => h (he ▸ List.mem_cons_self)
    have ih := ih fun hm => h (List.mem_cons_of_mem c hm)
    by_cases hslash : c = '\\'
    · subst hslash
      refine iff_of_false (fun hread => ?_) fun hnot => hnot.1 List.mem_cons_self
      -- the escape denotes less than its text, and nothing behind it can make up for that
      rw [List.cons_append, readString?, if_neg hquote, if_neg (by decide), if_pos rfl] at hread
      split at hread
      · cases hread
      · next escaped behind hescape =>
        obtain ⟨⟨tail, after⟩, htail, he⟩ := Option.map_eq_some_iff.1 hread
        simp only [Prod.mk.injEq] at he
        obtain ⟨hunits, rfl⟩ := he
        obtain ⟨used, hused, hescaped⟩ := of_escape? hescape
        have hlength := length_readString? htail
        have hboth := congrArg List.length hunits
        have htext := congrArg (fun t => (units t).length) hused
        simp only [units_append, units_cons, List.length_append] at hboth htext
        have hone : (unitsOfCode '"'.toNat).length = 1 := rfl
        have hone' : (unitsOfCode '\\'.toNat).length = 1 := rfl
        omega
    by_cases hend : c = '\n' ∨ c = '\r'
    · refine iff_of_false (fun hread => ?_) fun hnot => ?_
      · rw [List.cons_append, readString?, if_neg hquote,
          if_pos (by simpa using hend)] at hread
        cases hread
      · rcases hend with rfl | rfl
        · exact hnot.2.1 List.mem_cons_self
        · exact hnot.2.2 List.mem_cons_self
    · rw [not_or] at hend
      rw [List.cons_append, readString?_cons hquote hend.1 hend.2 hslash, units_cons]
      have hmap : (readString? (s ++ '"' :: rest)).map
          (fun r => (unitsOfCode c.toNat ++ r.1, r.2)) = some (unitsOfCode c.toNat ++ units s, rest) ↔
          readString? (s ++ '"' :: rest) = some (units s, rest) := by
        cases readString? (s ++ '"' :: rest) <;> simp [Prod.ext_iff]
      rw [hmap, ih]
      simp [Ne.symm hslash, Ne.symm hend.1, Ne.symm hend.2]

end Script
end TemplateBindings
