import TemplateBindings.Text.Case

/-!
# What changing case can give

The case mappings leave ASCII in peace, and hardly ever enter it: a character outside it whose whole
image lies inside is one of a few (`TemplateBindings.Text.mem_of_all_mapByTables`). A character that
no image has can only be copied (`TemplateBindings.Text.eq_of_mem_mapByTables`).
-/

namespace TemplateBindings
namespace Text

variable {c d : Char} {p : Char → Bool} {s : Text} {run : CaseRun} {runs : List CaseRun}
  {expansions : List (Nat × List Nat)} {m n : Nat}

/-- A property of characters that those of a text have one by one. -/
theorem forall_mem_of_all {p : Char → Prop} [DecidablePred p]
    (h : s.all (fun c => decide (p c)) = true) : ∀ c ∈ s, p c := fun c hc =>
  of_decide_eq_true (List.all_eq_true.1 h c hc)

/-! ### Tables -/

theorem CaseRun.of_image? (h : run.image? n = some m) :
    run.first ≤ n ∧ n ≤ run.last ∧ m = ((n : Int) + run.shift).toNat := by
  rw [image?] at h
  split at h
  · next hn =>
    simp only [Bool.and_eq_true, decide_eq_true_eq] at hn
    exact ⟨hn.1.1, hn.1.2, (Option.some.inj h).symm⟩
  · cases h

/-- A character stays, has an expansion, or is moved by a run. -/
theorem mapByTables_cases (runs : List CaseRun) (expansions : List (Nat × List Nat)) (c : Char) :
    mapByTables runs expansions c = [c] ∨
      (∃ e ∈ expansions, e.1 = c.toNat ∧ mapByTables runs expansions c = e.2.map Char.ofNat) ∨
      ∃ run ∈ runs, ∃ n, run.image? c.toNat = some n ∧
        mapByTables runs expansions c = [Char.ofNat n] := by
  rw [mapByTables]
  split
  · next images himages =>
    obtain ⟨before, after, rfl, -⟩ := List.lookup_eq_some_iff.1 himages
    exact .inr (.inl ⟨(c.toNat, images), by simp, rfl, rfl⟩)
  · split
    · next n hn =>
      obtain ⟨run, hrun, himage⟩ := List.exists_of_findSome?_eq_some hn
      exact .inr (.inr ⟨run, hrun, n, himage, rfl⟩)
    · exact .inl rfl

/-- The number of a character that is made from a number, unless it is the null character. -/
theorem toNat_ofNat_of_pos (h : 0 < (Char.ofNat n).toNat) : (Char.ofNat n).toNat = n := by
  by_cases hn : n.isValidChar
  · rw [Char.ofNat, dif_pos hn]
    rfl
  · rw [Char.ofNat, dif_neg hn] at h
    cases h

/-- **Few characters outside ASCII have an image inside.** They have an expansion of ASCII characters,
or are a run of their own. -/
theorem mem_of_all_mapByTables {special : Text}
    (hp : ∀ c, p c = true → 0 < c.toNat ∧ c.toNat < 128)
    (hexpansions : ∀ e ∈ expansions, (e.2.map Char.ofNat).all p = true → Char.ofNat e.1 ∈ special)
    (hruns : ∀ run ∈ runs, 128 ≤ (run.first : Int) + run.shift ∨
      run.first = run.last ∧ Char.ofNat run.first ∈ special)
    (hc : 128 ≤ c.toNat) (h : (mapByTables runs expansions c).all p = true) : c ∈ special := by
  rcases mapByTables_cases runs expansions c with he | ⟨e, hmem, hcode, he⟩ |
    ⟨run, hmem, n, himage, he⟩ <;> rw [he] at h
  · have := hp c (by simpa using h)
    omega
  · have := hexpansions e hmem h
    rwa [hcode, Char.ofNat_toNat] at this
  · obtain ⟨hfirst, hlast, rfl⟩ := CaseRun.of_image? himage
    have hin := hp _ (by simpa using h)
    rw [toNat_ofNat_of_pos hin.1] at hin
    rcases hruns run hmem with hhigh | ⟨hone, hspecial⟩
    · omega
    · have hcode : run.first = c.toNat := by omega
      rwa [hcode, Char.ofNat_toNat] at hspecial

/-- **A character that no image has can only be copied.** -/
theorem eq_of_mem_mapByTables {codes : List Nat} (hpos : 0 ∉ codes)
    (hexpansions : ∀ e ∈ expansions, ∀ n ∈ e.2, n ∉ codes)
    (hruns : ∀ run ∈ runs, ∀ n ∈ codes, (n : Int) < run.first + run.shift ∨
      run.last + run.shift < n)
    (hd : d.toNat ∈ codes) (h : d ∈ mapByTables runs expansions c) : d = c := by
  have hd' : 0 < d.toNat := Nat.pos_of_ne_zero fun h0 => hpos (h0 ▸ hd)
  rcases mapByTables_cases runs expansions c with he | ⟨e, hmem, -, he⟩ |
    ⟨run, hmem, n, himage, he⟩ <;> rw [he] at h
  · exact List.mem_singleton.1 h
  · obtain ⟨n, hn, rfl⟩ := List.mem_map.1 h
    rw [toNat_ofNat_of_pos hd'] at hd
    exact absurd hd (hexpansions e hmem n hn)
  · obtain rfl := List.mem_singleton.1 h
    obtain ⟨hfirst, hlast, rfl⟩ := CaseRun.of_image? himage
    rw [toNat_ofNat_of_pos hd'] at hd hd'
    have := hruns run hmem _ hd
    omega

/-! ### Texts in small letters -/

theorem lowerChar_sigma : lowerChar 'Σ' = ['σ'] := by decide +kernel

/-- A property that no sigma has is asked of each character of a text alone. -/
theorem all_lower (hσ : p 'σ' = false) (hς : p 'ς' = false) (s : Text) :
    (lower s).all p = s.all fun c => (lowerChar c).all p := by
  have hfrom (before : Text) : (lowerFrom before s).all p = s.all fun c => (lowerChar c).all p := by
    induction s generalizing before with
    | nil => rfl
    | cons c s ih =>
      rw [lowerFrom, List.all_append, ih, List.all_cons]
      congr 1
      split
      · next hc =>
        rw [hc, lowerChar_sigma]
        split <;> simp [hσ, hς]
      · rfl
  exact hfrom []

/-- Where the characters of a text in small letters come from. -/
theorem of_mem_lower (h : d ∈ lower s) : d = 'σ' ∨ d = 'ς' ∨ ∃ c ∈ s, d ∈ lowerChar c := by
  rw [lower] at h
  generalize ([] : Text) = before at h
  induction s generalizing before with
  | nil => cases h
  | cons c s ih =>
    rw [lowerFrom, List.mem_append] at h
    rcases h with h | h
    · split at h
      · split at h
        · exact .inr (.inl (List.mem_singleton.1 h))
        · exact .inl (List.mem_singleton.1 h)
      · exact .inr (.inr ⟨c, List.mem_cons_self, h⟩)
    · rcases ih (c :: before) h with h | h | ⟨e, he, h⟩
      · exact .inl h
      · exact .inr (.inl h)
      · exact .inr (.inr ⟨e, List.mem_cons_of_mem c he, h⟩)

end Text
end TemplateBindings
