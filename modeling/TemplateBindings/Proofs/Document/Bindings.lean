import Mathlib.Data.List.Nodup
import TemplateBindings.Document.Ids
import TemplateBindings.Proofs.Text.Distinct
import TemplateBindings.Proofs.Text.Pieces

/-!
# Which ids get a constant

The bindings of a document are made while its ids are read, each occurrence replacing, adding or
dropping one. What they come to can be said at once (`TemplateBindings.Document.bindingsOf_eq`): an id
has a constant unless a different id before it has one of that name, the constants stand in the order
of the first occurrences, and the last occurrence of an id decides its type.
-/

namespace TemplateBindings
namespace Document

variable {o : Occurrence} {occurrences : List Occurrence} {ids : List Text} {id other html : Text}
  {b : Binding}

/-! ### Ids and their names -/

/-- The ids of occurrences, each at its first place. -/
def idsOf (occurrences : List Occurrence) : List Text := Text.distinct (occurrences.map Occurrence.id)

/-- Whether no different id stands before an id whose constant has the same name. -/
def keepsName (ids : List Text) (id : Text) : Bool :=
  (ids.takeWhile (· ≠ id)).all fun other => constantName other ≠ constantName id

/-- The tag that the last occurrence of an id stands in. -/
def lastTag (occurrences : List Occurrence) (id : Text) : Text :=
  ((occurrences.reverse.find? (·.id = id)).map Occurrence.tag).getD []

/-- The constant of an id. -/
def constantFor (occurrences : List Occurrence) (id : Text) : Binding :=
  ⟨constantName id, id, ElementType.ofTag (Text.upper (lastTag occurrences id))⟩

/-- **The constants of occurrences**, said at once. -/
def constantsOf (occurrences : List Occurrence) : List Binding :=
  ((idsOf occurrences).filter (keepsName (idsOf occurrences))).map (constantFor occurrences)

/-- An id keeps its name if it is the first to have it. -/
theorem keepsName_iff (h : id ∈ ids) :
    keepsName ids id = true ↔ ids.find? (constantName · = constantName id) = some id := by
  induction ids with
  | nil => cases h
  | cons a ids ih =>
    rw [keepsName]
    by_cases ha : a = id
    · subst ha
      simp
    · have ih := ih ((List.mem_cons.1 h).resolve_left (Ne.symm ha))
      rw [List.takeWhile_cons_of_pos (by simpa using ha), List.all_cons, Bool.and_eq_true,
        ← keepsName, ih]
      by_cases hname : constantName a = constantName id
      · simp [hname, ha]
      · simp [hname]

theorem find?_of_name_eq (h : constantName other = constantName id) :
    ids.find? (constantName · = constantName other) = ids.find? (constantName · = constantName id) := by
  rw [h]

/-- The first id with a name keeps it. -/
theorem keepsName_of_find? (h : ids.find? (constantName · = constantName id) = some other) :
    keepsName ids other = true := by
  have hname : constantName other = constantName id := by simpa using List.find?_some h
  exact (keepsName_iff (List.mem_of_find?_eq_some h)).2 ((find?_of_name_eq hname).trans h)

/-- The ids that keep their names have distinct names. -/
theorem eq_of_keepsName (hid : id ∈ ids) (hother : other ∈ ids) (h : keepsName ids id = true)
    (h' : keepsName ids other = true) (hname : constantName other = constantName id) :
    other = id := by
  rw [keepsName_iff hid] at h
  rw [keepsName_iff hother, find?_of_name_eq hname, h] at h'
  exact (Option.some.inj h').symm

/-- Looking for a name among the ids that keep theirs finds what is found among all. -/
theorem find?_filter_keepsName (ids : List Text) (id : Text) :
    (ids.filter (keepsName ids)).find? (constantName · = constantName id) =
      ids.find? (constantName · = constantName id) := by
  cases h : ids.find? (constantName · = constantName id) with
  | none =>
    rw [List.find?_eq_none] at h ⊢
    exact fun other hother => h other (List.mem_of_mem_filter hother)
  | some other =>
    -- nothing before the first id with the name has it, so filtering leaves that id the first
    have hkeeps := keepsName_of_find? h
    obtain ⟨hname, before, after, hids, hbefore⟩ := List.find?_eq_some_iff_append.1 h
    rw [List.find?_eq_some_iff_append]
    refine ⟨hname, before.filter (keepsName ids), after.filter (keepsName ids), ?_,
      fun a ha => hbefore a (List.mem_of_mem_filter ha)⟩
    conv_lhs => rw [hids]
    rw [List.filter_append, List.filter_cons_of_pos (hids ▸ hkeeps), ← hids]

/-! ### One more occurrence -/

theorem mem_idsOf : id ∈ idsOf occurrences ↔ ∃ o ∈ occurrences, o.id = id := by
  rw [idsOf, Text.mem_distinct, List.mem_map]

theorem idsOf_concat (occurrences : List Occurrence) (o : Occurrence) :
    idsOf (occurrences ++ [o]) =
      if o.id ∈ idsOf occurrences then idsOf occurrences else idsOf occurrences ++ [o.id] := by
  have hmem : o.id ∈ idsOf occurrences ↔ o.id ∈ occurrences.map Occurrence.id := Text.mem_distinct
  rw [idsOf, List.map_append, List.map_singleton, Text.distinct_concat, ← idsOf]
  by_cases h : o.id ∈ occurrences.map Occurrence.id
  · rw [if_pos h, if_pos (hmem.2 h)]
  · rw [if_neg h, if_neg (hmem.not.2 h)]

theorem lastTag_concat (occurrences : List Occurrence) (o : Occurrence) (id : Text) :
    lastTag (occurrences ++ [o]) id = if o.id = id then o.tag else lastTag occurrences id := by
  rw [lastTag, List.reverse_append, List.reverse_singleton, List.singleton_append, List.find?_cons]
  by_cases h : o.id = id
  · simp [h]
  · simp [h, lastTag]

theorem keepsName_append (h : id ∈ ids) (more : List Text) :
    keepsName (ids ++ more) id = keepsName ids id := by
  rw [Bool.eq_iff_iff, keepsName_iff h, keepsName_iff (List.mem_append_left more h),
    List.find?_append]
  cases hfind : ids.find? (constantName · = constantName id) with
  | none => exact absurd (List.find?_eq_none.1 hfind id h) (by simp)
  | some other => rw [Option.some_or]

/-- The ids that keep their names, when one more id is read. -/
theorem filter_keepsName_concat (occurrences : List Occurrence) (o : Occurrence) :
    (idsOf (occurrences ++ [o])).filter (keepsName (idsOf (occurrences ++ [o]))) =
      (idsOf occurrences).filter (keepsName (idsOf occurrences)) ++
        if ((idsOf occurrences).find? (constantName · = constantName o.id)).isSome then []
        else [o.id] := by
  rw [idsOf_concat]
  split
  · next h =>
    have hsome : ((idsOf occurrences).find? (constantName · = constantName o.id)).isSome = true :=
      List.find?_isSome.2 ⟨o.id, h, by simp⟩
    rw [if_pos hsome, List.append_nil]
  · next h =>
    -- the new id comes last and takes no name away from those before it
    have hnew : keepsName (idsOf occurrences ++ [o.id]) o.id =
        !((idsOf occurrences).find? (constantName · = constantName o.id)).isSome := by
      rw [Bool.eq_iff_iff, keepsName_iff (List.mem_append_right _ List.mem_cons_self),
        List.find?_append]
      cases hfind : (idsOf occurrences).find? (constantName · = constantName o.id) with
      | none => simp
      | some other =>
        have hne : other ≠ o.id := fun he => h (he ▸ List.mem_of_find?_eq_some hfind)
        simp [hne]
    rw [List.filter_append, List.filter_congr fun id hid => keepsName_append hid [o.id],
      List.filter_singleton, hnew]
    cases ((idsOf occurrences).find? (constantName · = constantName o.id)).isSome <;> rfl

/-- **One more occurrence** changes the bindings as it changes the constants. -/
theorem addTo_constantsOf (occurrences : List Occurrence) (o : Occurrence) :
    (Binding.ofOccurrence o).addTo (constantsOf occurrences) = constantsOf (occurrences ++ [o]) := by
  have hother {id : Text} (h : id ≠ o.id) :
      constantFor (occurrences ++ [o]) id = constantFor occurrences id := by
    rw [constantFor, lastTag_concat, if_neg (Ne.symm h), constantFor]
  have hself : constantFor (occurrences ++ [o]) o.id = Binding.ofOccurrence o := by
    rw [constantFor, lastTag_concat, if_pos rfl, Binding.ofOccurrence]
  have hfind : (constantsOf occurrences).find? (·.name = (Binding.ofOccurrence o).name) =
      ((idsOf occurrences).find? (constantName · = constantName o.id)).map
        (constantFor occurrences) := by
    rw [← find?_filter_keepsName, constantsOf, List.find?_map]
    rfl
  have hnew : constantsOf (occurrences ++ [o]) =
      ((idsOf occurrences).filter (keepsName (idsOf occurrences)) ++
        if ((idsOf occurrences).find? (constantName · = constantName o.id)).isSome then []
        else [o.id]).map (constantFor (occurrences ++ [o])) := by
    rw [constantsOf, filter_keepsName_concat]
  rw [Binding.addTo, hfind, hnew, List.map_append]
  cases h : (idsOf occurrences).find? (constantName · = constantName o.id) with
  | none =>
    have hnot : o.id ∉ idsOf occurrences := fun hmem => by
      exact absurd (List.find?_eq_none.1 h o.id hmem) (by simp)
    rw [Option.map_none, Option.isSome_none, if_neg Bool.false_ne_true, List.map_singleton, hself,
      constantsOf]
    refine congrArg (· ++ _) (List.map_congr_left fun id hid => (hother ?_).symm)
    exact fun he => hnot (he ▸ List.mem_of_mem_filter hid)
  | some owner =>
    -- the name is taken: by this id, whose type changes, or by another, and nothing does
    rw [Option.map_some, Option.isSome_some, if_pos rfl, List.map_nil, List.append_nil]
    dsimp only
    split
    · next howner =>
      have howner : owner = o.id := howner
      rw [constantsOf, List.map_map]
      refine List.map_congr_left fun id _ => ?_
      by_cases hid : id = o.id
      · rw [hid, hself, Function.comp_apply]
        exact if_pos rfl
      · rw [hother hid, Function.comp_apply]
        exact if_neg hid
    · next howner =>
      have howner : owner ≠ o.id := howner
      rw [constantsOf]
      refine List.map_congr_left fun id hid => (hother fun he => ?_).symm
      obtain ⟨hmem, hkeeps⟩ := List.mem_filter.1 hid
      rw [he] at hmem hkeeps
      rw [keepsName_iff hmem, h] at hkeeps
      exact howner (Option.some.inj hkeeps)

/-- **The bindings of occurrences**, said at once. -/
theorem bindingsOf_eq (occurrences : List Occurrence) :
    bindingsOf occurrences = constantsOf occurrences := by
  have hfrom (before rest : List Occurrence) :
      rest.foldl (fun bindings o => (Binding.ofOccurrence o).addTo bindings) (constantsOf before) =
        constantsOf (before ++ rest) := by
    induction rest generalizing before with
    | nil => rw [List.foldl_nil, List.append_nil]
    | cons o rest ih =>
      rw [List.foldl_cons, addTo_constantsOf, ih, List.append_assoc, List.singleton_append]
  exact hfrom [] occurrences

/-! ### What the bindings of a document are like -/

/-- The constants of occurrences have distinct names. -/
theorem nodup_names_constantsOf (occurrences : List Occurrence) :
    ((constantsOf occurrences).map Binding.name).Nodup := by
  rw [constantsOf, List.map_map]
  have hnodup : (idsOf occurrences).Nodup := Text.nodup_distinct _
  refine List.Nodup.map_on (fun id hid other hother hname => ?_) (hnodup.filter _)
  rw [List.mem_filter] at hid hother
  exact eq_of_keepsName hother.1 hid.1 hother.2 hid.2 hname

/-- **The constants of a document have distinct names.** -/
theorem nodup_names (html : Text) : ((bindings html).map Binding.name).Nodup := by
  rw [bindings, bindingsOf_eq]
  exact nodup_names_constantsOf _

/-- A binding belongs to an id of the document. -/
theorem of_mem_bindings (h : b ∈ bindings html) :
    (∃ o ∈ Document.occurrences html, o.id = b.elementId) ∧ b.name = constantName b.elementId ∧
      ∃ tag, b.type = ElementType.ofTag tag := by
  rw [bindings, bindingsOf_eq] at h
  obtain ⟨id, hid, rfl⟩ := List.mem_map.1 h
  exact ⟨mem_idsOf.1 (List.mem_of_mem_filter hid), rfl, _, rfl⟩

theorem of_mem_occurrencesFrom {before s : Text} (h : o ∈ occurrencesFrom before s) :
    o.id ≠ [] ∧ '"' ∉ o.id := by
  fun_induction occurrencesFrom before s with
  | case1 => cases h
  | case2 _ _ _ _ ih => exact ih h
  | case3 => cases h
  | case4 before c cs rest _ value following hcut ih =>
    rcases List.mem_append.1 h with h | h
    · rw [Option.mem_toList, occurrence?] at h
      split at h
      · cases h
      · next hvalue =>
        obtain ⟨tag, -, rfl⟩ := Option.map_eq_some_iff.1 h
        refine ⟨?_, (Text.of_cutAt hcut).2⟩
        rintro rfl
        exact hvalue rfl
    · exact ih h

/-- **The id of a binding** is not empty and has no quote. -/
theorem elementId_of_mem_bindings (h : b ∈ bindings html) :
    b.elementId ≠ [] ∧ '"' ∉ b.elementId := by
  obtain ⟨⟨o, ho, hid⟩, -⟩ := of_mem_bindings h
  exact hid ▸ of_mem_occurrencesFrom ho

end Document
end TemplateBindings
