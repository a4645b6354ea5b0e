import TemplateBindings.Text.Utf8

/-!
# Reading back what was written

Text written as UTF-8 is read back as it was (`TemplateBindings.Utf8.decode_encode`). Where the
bytes end early, a first part of it is read, and all of it that fits
(`TemplateBindings.Utf8.decodeSoFar?_take`): no byte in the middle of a character is taken for a
fault.
-/

namespace TemplateBindings
namespace Utf8

variable {n k : Nat} {a b c d : UInt8} {s t : Text} {rest : List UInt8}

/-! ### Classes of bytes -/

theorem toNat_byte (h : n < 256) : (UInt8.ofNat n).toNat = n := by
  rw [UInt8.toNat_ofNat', Nat.mod_eq_of_lt h]

/-- The numbers of characters: below the surrogates, or above them and in range. -/
theorem valid_char (c : Char) : c.toNat < 0xD800 ∨ 0xDFFF < c.toNat ∧ c.toNat < 0x110000 := c.valid

theorem lt_byte (hn : n < 256) : a < UInt8.ofNat n ↔ a.toNat < n := by
  rw [UInt8.lt_iff_toNat_lt, toNat_byte hn]

theorem not_lt_byte (hn : n < 256) (h : n ≤ a.toNat) : ¬ a < UInt8.ofNat n := by
  rw [lt_byte hn]
  omega

theorem isTail_iff : isTail b = true ↔ 0x80 ≤ b.toNat ∧ b.toNat < 0xC0 := by
  simp [isTail, UInt8.le_iff_toNat_le]
  omega

/-- A second byte that fits to a first byte: no longer form, no surrogate, nothing out of range. -/
theorem isSecond_of (h : 0x80 ≤ b.toNat ∧ b.toNat < 0xC0)
    (hlong : a.toNat = 0xE0 → 0xA0 ≤ b.toNat) (hsurrogate : a.toNat = 0xED → b.toNat < 0xA0)
    (hlong' : a.toNat = 0xF0 → 0x90 ≤ b.toNat) (hrange : a.toNat = 0xF4 → b.toNat < 0x90) :
    isSecond a b = true := by
  rw [isSecond, isTail_iff.2 h, Bool.true_and]
  split
  · next he =>
    rw [he] at hlong
    exact decide_eq_true (UInt8.le_iff_toNat_le.2 (hlong rfl))
  · split
    · next he =>
      rw [he] at hsurrogate
      exact decide_eq_true (UInt8.lt_iff_toNat_lt.2 (hsurrogate rfl))
    · split
      · next he =>
        rw [he] at hlong'
        exact decide_eq_true (UInt8.le_iff_toNat_le.2 (hlong' rfl))
      · split
        · next he =>
          rw [he] at hrange
          exact decide_eq_true (UInt8.lt_iff_toNat_lt.2 (hrange rfl))
        · rfl

/-! ### Scanning one character -/

/-- What is read of a character and what follows it. -/
def following (n : Nat) (rest : Text × Option Fault) : Text × Option Fault :=
  (Char.ofNat n :: rest.1, rest.2)

theorem scan_one (ha : a.toNat < 0x80) (position : Nat) (rest : List UInt8) :
    scan position (a :: rest) = following a.toNat (scan (position + 1) rest) := by
  have h1 : a < 0x80 := (lt_byte (by decide)).2 ha
  rw [scan.eq_def]
  simp only [h1, if_true]
  rfl

theorem scan_two (ha : 0xC2 ≤ a.toNat ∧ a.toNat < 0xE0) (position : Nat) (rest : List UInt8) :
    scan position (a :: rest) =
      match rest with
      | [] => ([], some ⟨.truncated, position, a, 1⟩)
      | b :: rest =>
        if isTail b then
          following (a.toNat % 32 * 64 + tailValue b) (scan (position + 2) rest)
        else ([], some ⟨.badContinuation, position, a, 1⟩) := by
  have h1 : ¬ a < 0x80 := not_lt_byte (n := 0x80) (by decide) (by omega)
  have h2 : ¬ a < 0xC2 := not_lt_byte (n := 0xC2) (by decide) (by omega)
  have h3 : a < 0xE0 := (lt_byte (by decide)).2 ha.2
  rw [scan.eq_def]
  simp only [h1, h2, h3, if_true, if_false]
  rfl

theorem scan_three (ha : 0xE0 ≤ a.toNat ∧ a.toNat < 0xF0) (position : Nat) (rest : List UInt8) :
    scan position (a :: rest) =
      match rest with
      | [] => ([], some ⟨.truncated, position, a, 1⟩)
      | b :: rest =>
        if isSecond a b then
          match rest with
          | [] => ([], some ⟨.truncated, position, a, 2⟩)
          | c :: rest =>
            if isTail c then
              following (a.toNat % 16 * 4096 + tailValue b * 64 + tailValue c)
                (scan (position + 3) rest)
            else ([], some ⟨.badContinuation, position, a, 2⟩)
        else ([], some ⟨.badContinuation, position, a, 1⟩) := by
  have h1 : ¬ a < 0x80 := not_lt_byte (n := 0x80) (by decide) (by omega)
  have h2 : ¬ a < 0xC2 := not_lt_byte (n := 0xC2) (by decide) (by omega)
  have h3 : ¬ a < 0xE0 := not_lt_byte (n := 0xE0) (by decide) (by omega)
  have h4 : a < 0xF0 := (lt_byte (by decide)).2 ha.2
  rw [scan.eq_def]
  simp only [h1, h2, h3, h4, if_true, if_false]
  rfl

theorem scan_four (ha : 0xF0 ≤ a.toNat ∧ a.toNat < 0xF5) (position : Nat) (rest : List UInt8) :
    scan position (a :: rest) =
      match rest with
      | [] => ([], some ⟨.truncated, position, a, 1⟩)
      | b :: rest =>
        if isSecond a b then
          match rest with
          | [] => ([], some ⟨.truncated, position, a, 2⟩)
          | c :: rest =>
            if isTail c then
              match rest with
              | [] => ([], some ⟨.truncated, position, a, 3⟩)
              | d :: rest =>
                if isTail d then
                  following
                    (a.toNat % 8 * 262144 + tailValue b * 4096 + tailValue c * 64 + tailValue d)
                    (scan (position + 4) rest)
                else ([], some ⟨.badContinuation, position, a, 3⟩)
            else ([], some ⟨.badContinuation, position, a, 2⟩)
        else ([], some ⟨.badContinuation, position, a, 1⟩) := by
  have h1 : ¬ a < 0x80 := not_lt_byte (n := 0x80) (by decide) (by omega)
  have h2 : ¬ a < 0xC2 := not_lt_byte (n := 0xC2) (by decide) (by omega)
  have h3 : ¬ a < 0xE0 := not_lt_byte (n := 0xE0) (by decide) (by omega)
  have h4 : ¬ a < 0xF0 := not_lt_byte (n := 0xF0) (by decide) (by omega)
  have h5 : a < 0xF5 := (lt_byte (by decide)).2 ha.2
  rw [scan.eq_def]
  simp only [h1, h2, h3, h4, h5, if_true, if_false]
  rfl

/-! ### The bytes of one character -/

/-- **Bytes that stand for a number**: whole they are read as it, and a first part of them is only
broken off. -/
structure Spells (bytes : List UInt8) (n : Nat) : Prop where
  /-- Whole they are read, and what follows them after them. -/
  whole : ∀ position rest,
    scan position (bytes ++ rest) = following n (scan (position + bytes.length) rest)
  /-- Of some of them nothing is read. -/
  broken : ∀ position k, 0 < k → k < bytes.length →
    ∃ fault, scan position (bytes.take k) = ([], some fault) ∧ fault.reason = .truncated

theorem spells_one (ha : a.toNat < 0x80) : Spells [a] a.toNat where
  whole position rest := scan_one ha position rest
  broken position k hk hlen := by
    rw [List.length_singleton] at hlen
    omega

theorem spells_two (ha : 0xC2 ≤ a.toNat ∧ a.toNat < 0xE0) (hb : isTail b = true) :
    Spells [a, b] (a.toNat % 32 * 64 + tailValue b) where
  whole position rest := by
    rw [List.cons_append, List.singleton_append, scan_two ha]
    exact if_pos hb
  broken position k hk hlen := by
    obtain rfl : k = 1 := by
      simp only [List.length_cons, List.length_nil] at hlen
      omega
    exact ⟨_, scan_two ha position [], rfl⟩

theorem spells_three (ha : 0xE0 ≤ a.toNat ∧ a.toNat < 0xF0) (hb : isSecond a b = true)
    (hc : isTail c = true) :
    Spells [a, b, c] (a.toNat % 16 * 4096 + tailValue b * 64 + tailValue c) where
  whole position rest := by
    rw [List.cons_append, List.cons_append, List.singleton_append, scan_three ha]
    exact (if_pos hb).trans (if_pos hc)
  broken position k hk hlen := by
    obtain rfl | rfl : k = 1 ∨ k = 2 := by
      simp only [List.length_cons, List.length_nil] at hlen
      omega
    · exact ⟨_, scan_three ha position [], rfl⟩
    · exact ⟨_, (scan_three ha position [b]).trans (if_pos hb), rfl⟩

theorem spells_four (ha : 0xF0 ≤ a.toNat ∧ a.toNat < 0xF5) (hb : isSecond a b = true)
    (hc : isTail c = true) (hd : isTail d = true) :
    Spells [a, b, c, d]
      (a.toNat % 8 * 262144 + tailValue b * 4096 + tailValue c * 64 + tailValue d) where
  whole position rest := by
    rw [List.cons_append, List.cons_append, List.cons_append, List.singleton_append, scan_four ha]
    exact (if_pos hb).trans ((if_pos hc).trans (if_pos hd))
  broken position k hk hlen := by
    obtain rfl | rfl | rfl : k = 1 ∨ k = 2 ∨ k = 3 := by
      simp only [List.length_cons, List.length_nil] at hlen
      omega
    · exact ⟨_, scan_four ha position [], rfl⟩
    · exact ⟨_, (scan_four ha position [b]).trans (if_pos hb), rfl⟩
    · exact ⟨_, (scan_four ha position [b, c]).trans ((if_pos hb).trans (if_pos hc)), rfl⟩

/-- A byte that continues a character: six bits of its number. -/
theorem toNat_tail (n : Nat) : (UInt8.ofNat (0x80 + n % 64)).toNat = 0x80 + n % 64 :=
  toNat_byte (by omega)

theorem isTail_tail (n : Nat) : isTail (UInt8.ofNat (0x80 + n % 64)) = true := by
  rw [isTail_iff, toNat_tail]
  omega

theorem tailValue_tail (n : Nat) : tailValue (UInt8.ofNat (0x80 + n % 64)) = n % 64 := by
  rw [tailValue, toNat_tail]
  omega

/-- **The bytes of a character stand for its number**: there are as many as the number needs, and
they are not those of a longer form. -/
theorem spells_encodeChar (c : Char) : Spells (encodeChar c) c.toNat := by
  have hv := valid_char c
  unfold encodeChar
  dsimp only
  split
  · next h =>
    have ha : (UInt8.ofNat c.toNat).toNat = c.toNat := toNat_byte (by omega)
    have hspells := spells_one (a := UInt8.ofNat c.toNat) (by omega)
    rwa [ha] at hspells
  · split
    · next h0 h =>
      have ha : (UInt8.ofNat (0xC0 + c.toNat / 64)).toNat = 0xC0 + c.toNat / 64 :=
        toNat_byte (by omega)
      have hspells := spells_two (a := UInt8.ofNat (0xC0 + c.toNat / 64)) (by omega)
        (isTail_tail c.toNat)
      have hn : (0xC0 + c.toNat / 64) % 32 * 64 + c.toNat % 64 = c.toNat := by omega
      rwa [ha, tailValue_tail, hn] at hspells
    · split
      · next h0 h1 h =>
        have ha : (UInt8.ofNat (0xE0 + c.toNat / 4096)).toNat = 0xE0 + c.toNat / 4096 :=
          toNat_byte (by omega)
        have hb := toNat_tail (c.toNat / 64)
        have hsecond : isSecond (UInt8.ofNat (0xE0 + c.toNat / 4096))
            (UInt8.ofNat (0x80 + c.toNat / 64 % 64)) = true :=
          isSecond_of (by omega) (by omega) (by omega) (by omega) (by omega)
        have hspells := spells_three (by omega) hsecond (isTail_tail c.toNat)
        have hn : (0xE0 + c.toNat / 4096) % 16 * 4096 + c.toNat / 64 % 64 * 64 + c.toNat % 64 =
            c.toNat := by omega
        rwa [ha, tailValue_tail, tailValue_tail, hn] at hspells
      · next h0 h1 h2 =>
        have ha : (UInt8.ofNat (0xF0 + c.toNat / 262144)).toNat = 0xF0 + c.toNat / 262144 :=
          toNat_byte (by omega)
        have hb := toNat_tail (c.toNat / 4096)
        have hsecond : isSecond (UInt8.ofNat (0xF0 + c.toNat / 262144))
            (UInt8.ofNat (0x80 + c.toNat / 4096 % 64)) = true :=
          isSecond_of (by omega) (by omega) (by omega) (by omega) (by omega)
        have hspells := spells_four (by omega) hsecond (isTail_tail (c.toNat / 64))
          (isTail_tail c.toNat)
        have hn : (0xF0 + c.toNat / 262144) % 8 * 262144 + c.toNat / 4096 % 64 * 4096 +
            c.toNat / 64 % 64 * 64 + c.toNat % 64 = c.toNat := by omega
        rwa [ha, tailValue_tail, tailValue_tail, tailValue_tail, hn] at hspells

theorem encodeChar_ne_nil (c : Char) : encodeChar c ≠ [] := by
  unfold encodeChar
  dsimp only
  split
  · simp
  · split
    · simp
    · split <;> simp

/-! ### Scanning a text -/

theorem encode_cons (c : Char) (s : Text) : encode (c :: s) = encodeChar c ++ encode s := by
  rw [encode, List.flatMap_cons]
  rfl

/-- **The first bytes of a text** are read as the part of it that fits into them. -/
theorem scan_take (s : Text) (position n : Nat) :
    ∃ part fault, scan position ((encode s).take n) = (part, fault) ∧
      (∀ f ∈ fault, f.reason = .truncated) ∧ part <+: s ∧
      (∀ front, front <+: s → (encode front).length ≤ n → front <+: part) ∧
      ((encode s).length ≤ n → part = s ∧ fault = none) := by
  induction s generalizing position n with
  | nil =>
    refine ⟨[], none, by rw [encode_nil, List.take_nil, scan], by simp, List.prefix_rfl, ?_, ?_⟩
    · exact fun front hfront _ => hfront
    · exact fun _ => ⟨rfl, rfl⟩
  | cons c s ih =>
    have hpos : 0 < (encodeChar c).length := List.length_pos_iff.2 (encodeChar_ne_nil c)
    rw [encode_cons]
    by_cases hn : (encodeChar c).length ≤ n
    · obtain ⟨part, fault, hscan, hfault, hpart, hmax, hall⟩ :=
        ih (position + (encodeChar c).length) (n - (encodeChar c).length)
      refine ⟨c :: part, fault, ?_, hfault, List.cons_prefix_cons.2 ⟨rfl, hpart⟩, ?_, ?_⟩
      · rw [List.take_append, List.take_of_length_le hn, (spells_encodeChar c).whole, hscan,
          following, Char.ofNat_toNat]
      · intro front hfront hlen
        rcases List.prefix_cons_iff.1 hfront with rfl | ⟨front, rfl, hrest⟩
        · exact List.nil_prefix
        · rw [encode_cons, List.length_append] at hlen
          exact List.cons_prefix_cons.2 ⟨rfl, hmax front hrest (by omega)⟩
      · intro hlen
        rw [List.length_append] at hlen
        obtain ⟨rfl, rfl⟩ := hall (by omega)
        exact ⟨rfl, rfl⟩
    · have hshort : n ≤ (encodeChar c).length := by omega
      have hfront : ∀ front, front <+: c :: s → (encode front).length ≤ n → front <+: [] := by
        intro front hfront hlen
        rcases List.prefix_cons_iff.1 hfront with rfl | ⟨front, rfl, -⟩
        · exact List.nil_prefix
        · rw [encode_cons, List.length_append] at hlen
          omega
      have hlong : ¬ (encodeChar c ++ encode s).length ≤ n := by
        rw [List.length_append]
        omega
      rw [List.take_append_of_le_length hshort]
      rcases Nat.eq_zero_or_pos n with rfl | hn0
      · exact ⟨[], none, by rw [List.take_zero, scan], by simp, List.nil_prefix, hfront,
          fun h => absurd h hlong⟩
      · obtain ⟨fault, hscan, hreason⟩ := (spells_encodeChar c).broken position n hn0 (by omega)
        exact ⟨[], some fault, hscan, by simpa using hreason, List.nil_prefix, hfront,
          fun h => absurd h hlong⟩

/-! ### Scanning more bytes -/

/-- **What bytes begin with**: a number that they stand for, or nothing that can be read. -/
theorem scan_cases (bytes : List UInt8) :
    (∃ front n rest, bytes = front ++ rest ∧ front ≠ [] ∧ Spells front n) ∨
      ∀ position, (scan position bytes).1 = [] := by
  have hspelled {front rest : List UInt8} {n : Nat} (hne : front ≠ []) (h : Spells front n) :
      ∃ first m rest', front ++ rest = first ++ rest' ∧ first ≠ [] ∧ Spells first m :=
    ⟨front, n, rest, rfl, hne, h⟩
  rcases bytes with _ | ⟨a, bytes⟩
  · exact .inr fun _ => rfl
  rcases Nat.lt_or_ge a.toNat 0x80 with h1 | h1
  · exact .inl (hspelled (List.cons_ne_nil _ _) (spells_one h1))
  rcases Nat.lt_or_ge a.toNat 0xC2 with h2 | h2
  · refine .inr fun position => ?_
    have hn1 : ¬ a < 0x80 := not_lt_byte (n := 0x80) (by decide) h1
    have hn2 : a < 0xC2 := (lt_byte (by decide)).2 h2
    rw [scan.eq_def]
    simp only [hn1, hn2, if_true, if_false]
  rcases Nat.lt_or_ge a.toNat 0xE0 with h3 | h3
  · rcases bytes with _ | ⟨b, bytes⟩
    · exact .inr fun position => by rw [scan_two ⟨h2, h3⟩]
    by_cases hb : isTail b = true
    · exact .inl (hspelled (List.cons_ne_nil _ _) (spells_two ⟨h2, h3⟩ hb))
    · exact .inr fun position => by simp only [scan_two ⟨h2, h3⟩, if_neg hb]
  rcases Nat.lt_or_ge a.toNat 0xF0 with h4 | h4
  · rcases bytes with _ | ⟨b, bytes⟩
    · exact .inr fun position => by rw [scan_three ⟨h3, h4⟩]
    by_cases hb : isSecond a b = true
    · rcases bytes with _ | ⟨c, bytes⟩
      · exact .inr fun position => by simp only [scan_three ⟨h3, h4⟩, if_pos hb]
      by_cases hc : isTail c = true
      · exact .inl (hspelled (List.cons_ne_nil _ _) (spells_three ⟨h3, h4⟩ hb hc))
      · exact .inr fun position => by simp only [scan_three ⟨h3, h4⟩, if_pos hb, if_neg hc]
    · exact .inr fun position => by simp only [scan_three ⟨h3, h4⟩, if_neg hb]
  rcases Nat.lt_or_ge a.toNat 0xF5 with h5 | h5
  · rcases bytes with _ | ⟨b, bytes⟩
    · exact .inr fun position => by rw [scan_four ⟨h4, h5⟩]
    by_cases hb : isSecond a b = true
    · rcases bytes with _ | ⟨c, bytes⟩
      · exact .inr fun position => by simp only [scan_four ⟨h4, h5⟩, if_pos hb]
      by_cases hc : isTail c = true
      · rcases bytes with _ | ⟨d, bytes⟩
        · exact .inr fun position => by simp only [scan_four ⟨h4, h5⟩, if_pos hb, if_pos hc]
        by_cases hd : isTail d = true
        · exact .inl (hspelled (List.cons_ne_nil _ _) (spells_four ⟨h4, h5⟩ hb hc hd))
        · exact .inr fun position => by
            simp only [scan_four ⟨h4, h5⟩, if_pos hb, if_pos hc, if_neg hd]
      · exact .inr fun position => by simp only [scan_four ⟨h4, h5⟩, if_pos hb, if_neg hc]
    · exact .inr fun position => by simp only [scan_four ⟨h4, h5⟩, if_neg hb]
  · refine .inr fun position => ?_
    have hn1 : ¬ a < 0x80 := not_lt_byte (n := 0x80) (by decide) h1
    have hn2 : ¬ a < 0xC2 := not_lt_byte (n := 0xC2) (by decide) h2
    have hn3 : ¬ a < 0xE0 := not_lt_byte (n := 0xE0) (by decide) h3
    have hn4 : ¬ a < 0xF0 := not_lt_byte (n := 0xF0) (by decide) h4
    have hn5 : ¬ a < 0xF5 := not_lt_byte (n := 0xF5) (by decide) h5
    rw [scan.eq_def]
    simp only [hn1, hn2, hn3, hn4, hn5, if_false]

/-- **More bytes take nothing back** of what was read of the first ones. -/
theorem scan_append_prefix (position : Nat) (bytes more : List UInt8) :
    (scan position bytes).1 <+: (scan position (bytes ++ more)).1 := by
  induction hlen : bytes.length using Nat.strongRecOn generalizing position bytes with
  | ind len ih =>
    rcases scan_cases bytes with ⟨front, n, rest, rfl, hne, hfront⟩ | hnone
    · have hpos := List.length_pos_iff.2 hne
      rw [List.length_append] at hlen
      rw [List.append_assoc, hfront.whole, hfront.whole, following, following]
      exact List.cons_prefix_cons.2 ⟨rfl, ih rest.length (by omega) _ rest rfl⟩
    · rw [hnone]
      exact List.nil_prefix

/-- **What was written is read back.** -/
theorem decode_encode (s : Text) : decode (encode s) = .ok s := by
  obtain ⟨part, fault, hscan, -, -, -, hall⟩ := scan_take s 0 (encode s).length
  obtain ⟨rfl, rfl⟩ := hall (Nat.le_refl _)
  rw [List.take_length] at hscan
  rw [decode, hscan]

/-- **The first bytes of what was written** hold the part of it that fits into them. -/
theorem decodeSoFar?_take (s : Text) (n : Nat) :
    ∃ part, decodeSoFar? ((encode s).take n) = some part ∧ part <+: s ∧
      (∀ front, front <+: s → (encode front).length ≤ n → front <+: part) := by
  obtain ⟨part, fault, hscan, hfault, hpart, hmax, -⟩ := scan_take s 0 n
  refine ⟨part, ?_, hpart, hmax⟩
  rw [decodeSoFar?, hscan]
  cases fault with
  | none => rfl
  | some f => exact if_pos (hfault f rfl)

end Utf8
end TemplateBindings
