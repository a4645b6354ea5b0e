import TemplateBindings.Proofs.Build.Through

/-!
# Operations of several sources

The operations that a run performs for its sources come in an order that nobody chose. But what is
seen in the place of an output or of a draft depends on those for its own source alone
(`TemplateBindings.Build.Orderly.effects_own`): the others do not concern the place. So it does not
matter what came between them, nor where the run was stopped.
-/

namespace TemplateBindings
namespace Build

open Files

variable {order : List Source} {s t : Source} {out q : Path} {operation : Operation}
  {operations first second : List Operation} {trace : List (Source × Operation)} {now : Int}
  {seen seen' : Seen}

/-! ### Effects place by place -/

/-- What an operation does in its places depends on what is seen there. -/
theorem effect_congr (h : ∀ p ∈ operation.places, seen p = seen' p) (hq : q ∈ operation.places) :
    operation.effect now seen q = operation.effect now seen' q := by
  cases operation with
  | append path bytes =>
    cases List.mem_singleton.1 hq
    rw [Operation.effect_append, Operation.effect_append, h _ hq, Function.update_self,
      Function.update_self]
  | move source target =>
    have hsource : seen source = seen' source := h source List.mem_cons_self
    rw [Operation.effect, Operation.effect]
    by_cases htarget : q = target
    · rw [htarget, Function.update_self, Function.update_self, hsource]
    · have hq' : q = source := (List.mem_cons.1 hq).resolve_right fun hq =>
        htarget (List.mem_singleton.1 hq)
      rw [Function.update_of_ne htarget, Function.update_of_ne htarget, hq', Function.update_self,
        Function.update_self]
  | _ =>
    cases List.mem_singleton.1 hq
    simp [Operation.effect]

/-- **What operations do in some places** depends on the operations for one source, if those for others
do not concern these places and its own concern them wholly or not at all. -/
theorem effects_actsOf (here : Path → Prop)
    (hother : ∀ m ∈ trace, m.1 ≠ s → ∀ p ∈ m.2.places, ¬ here p)
    (hown : ∀ m ∈ trace, m.1 = s → (∀ p ∈ m.2.places, here p) ∨ ∀ p ∈ m.2.places, ¬ here p)
    (hseen : ∀ p, here p → seen p = seen' p) (hq : here q) :
    Operation.effects now seen (trace.map Prod.snd) q =
      Operation.effects now seen' (Thread.actsOf s trace) q := by
  induction trace generalizing seen seen' with
  | nil => exact hseen q hq
  | cons m trace ih =>
    obtain ⟨hfirst, hrest⟩ := List.forall_mem_cons.1 hother
    obtain ⟨hfirst', hrest'⟩ := List.forall_mem_cons.1 hown
    by_cases hm : m.1 = s
    · have hacts : Thread.actsOf s (m :: trace) = m.2 :: Thread.actsOf s trace := by
        rw [Thread.actsOf, List.filter_cons_of_pos (by simpa using hm), List.map_cons]
        rfl
      have hstep (p : Path) (hp : here p) : m.2.effect now seen p = m.2.effect now seen' p := by
        by_cases hmem : p ∈ m.2.places
        · have hin := (hfirst' hm).resolve_right fun hout => hout p hmem hp
          exact effect_congr (fun p' hp' => hseen p' (hin p' hp')) hmem
        · rw [Operation.effect_of_not_mem now _ hmem, Operation.effect_of_not_mem now _ hmem,
            hseen p hp]
      rw [hacts]
      exact ih hrest hrest' hstep
    · have hacts : Thread.actsOf s (m :: trace) = Thread.actsOf s trace := by
        rw [Thread.actsOf, List.filter_cons_of_neg (by simpa using hm)]
        rfl
      have hstep (p : Path) (hp : here p) : m.2.effect now seen p = seen' p := by
        have hmem : p ∉ m.2.places := fun hmem => hfirst hm p hmem hp
        exact (Operation.effect_of_not_mem now _ hmem).trans (hseen p hp)
      rw [hacts]
      exact ih hrest hrest' hstep

/-! ### The places of a source -/

/-- The place of an output or of a draft. -/
def IsPlace (out : Path) (source : Source) (q : Path) : Prop :=
  q ∈ (source.outputs out).all ∨ q ∈ source.drafts out

instance (out : Path) (source : Source) (q : Path) : Decidable (IsPlace out source q) :=
  inferInstanceAs (Decidable (_ ∨ _))

theorem IsPlace.not_above (hs : s.Regular) (h : IsPlace out s q) : ¬ q <+: s.directory out := by
  rcases h with h | h
  · obtain ⟨n, -, rfl⟩ := (Source.mem_outputs hs).1 h
    exact s.not_prefix_directory n out
  · obtain ⟨n, -, rfl⟩ := (Source.mem_drafts hs).1 h
    exact s.not_prefix_directory _ out

/-- An operation for a source makes a directory on the way, or works in the places of the source. -/
theorem Serves.places (h : Serves out s operation) (hs : s.Regular) :
    (∀ p ∈ operation.places, p <+: s.directory out) ∨ ∀ p ∈ operation.places, IsPlace out s p := by
  cases h with
  | enter hway => exact .inl fun p hp => List.mem_singleton.1 hp ▸ hway
  | draft hn bytes =>
    exact .inr fun p hp => .inr ((Source.mem_drafts hs).2 ⟨_, hn, List.mem_singleton.1 hp⟩)
  | deliver hn =>
    refine .inr fun p hp => ?_
    rcases List.mem_cons.1 hp with hp | hp
    · exact .inr ((Source.mem_drafts hs).2 ⟨_, hn, hp⟩)
    · exact .inl ((Source.mem_outputs hs).2 ⟨_, hn, List.mem_singleton.1 hp⟩)

/-- **The places of a source are no concern of another.** -/
theorem Orderly.not_isPlace (ho : Orderly out order) (hs : s ∈ order) (ht : t ∈ order)
    (hne : s ≠ t) (h : IsPlace out s q) : ¬ q <+: t.directory out ∧ ¬ IsPlace out t q := by
  obtain ⟨hst, hts⟩ := ho.clear hs ht hne
  have hclear := h.elim (hst.outputs q) (hst.drafts q)
  refine ⟨hclear.2, fun ht' => ?_⟩
  rcases ht' with ht' | ht'
  · exact hclear.1 ht'
  · rcases h with h | h
    · exact (hts.drafts q ht').1 h
    · -- two drafts are the same only if the outputs are
      obtain ⟨n, hn, rfl⟩ := (Source.mem_drafts (ho.regular s hs)).1 h
      obtain ⟨m, hm, he⟩ := (Source.mem_drafts (ho.regular t ht)).1 ht'
      obtain ⟨hdir, hname⟩ := concat_inj he
      refine (hst.outputs _ ((Source.mem_outputs (ho.regular s hs)).2 ⟨n, hn, rfl⟩)).1 ?_
      rw [hdir, draftName_inj hname]
      exact (Source.mem_outputs (ho.regular t ht)).2 ⟨m, hm, rfl⟩

/-- **What is seen in the place of an output** or of a draft depends on the operations for its
source. -/
theorem Orderly.effects_own (ho : Orderly out order) (hs : s ∈ order)
    (htrace : ∀ m ∈ trace, m.1 ∈ order ∧ Serves out m.1 m.2) (hq : IsPlace out s q) :
    Operation.effects now seen (trace.map Prod.snd) q =
      Operation.effects now seen (Thread.actsOf s trace) q := by
  refine effects_actsOf (IsPlace out s) (fun m hm hne p hp hplace => ?_)
    (fun m hm he => ?_) (fun _ _ => rfl) hq
  · obtain ⟨hmem, hserves⟩ := htrace m hm
    obtain ⟨habove, hnot⟩ := ho.not_isPlace hs hmem (Ne.symm hne) hplace
    rcases hserves.places (ho.regular _ hmem) with hway | hin
    · exact habove (hway p hp)
    · exact hnot (hin p hp)
  · obtain ⟨hmem, hserves⟩ := htrace m hm
    rw [he] at hserves
    rcases hserves.places (ho.regular s hs) with hway | hin
    · exact .inr fun p hp hplace => hplace.not_above (ho.regular s hs) (hway p hp)
    · exact .inl hin

/-- Making directories on the way to a source does not concern its places. -/
theorem effects_making_own (hs : s.Regular) (hm : Making (s.directory out) operations)
    (hq : IsPlace out s q) : Operation.effects now seen operations q = seen q := by
  refine effects_of_not_mem now seen fun operation ho hmem => ?_
  obtain ⟨way, hway, rfl⟩ := hm operation ho
  exact hq.not_above hs (List.mem_singleton.1 hmem ▸ hway)

end Build
end TemplateBindings
