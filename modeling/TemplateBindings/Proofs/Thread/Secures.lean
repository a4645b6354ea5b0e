import Mathlib.Data.List.Nodup
import TemplateBindings.Proofs.Thread.Run

/-!
# Threads among others

What a thread comes to when others take steps between its own. The others are known by what they may
do to the state (`rely`), and the thread by the acts that its steps perform (`own`) and by what holds
when it is done (`post`): `TemplateBindings.Thread.Secures`. Where others may rely on the acts of
each thread, threads that take turns come to what each of them secures, whatever order the turns go
in (`TemplateBindings.Thread.Crew.secures_takeTurns`).
-/

namespace TemplateBindings
namespace Thread

variable {σ τ α β κ ω υ : Type} {rely : σ → σ → Prop} {own own' : List ω → σ → σ → Prop}
  {post post' : α → List ω → σ → Prop} {thread : Thread σ α} {acts more : List ω} {s s' : σ}

/-- **A thread secures its end** among others, in a state, with some acts performed before. -/
def Secures (rely : σ → σ → Prop) (own : List ω → σ → σ → Prop) (post : α → List ω → σ → Prop) :
    Thread σ α → (acts : List ω) → σ → Prop
  | done a, acts, s => ∀ s', rely s s' → post a acts s'
  | step change next, acts, s => ∀ s', rely s s' → ∃ more, own more s' (change s') ∧
      (next s').Secures rely own post (acts ++ more) (change s')

namespace Secures

/-- The others may go on before the thread does. -/
theorem of_rely (htrans : ∀ {a b c}, rely a b → rely b c → rely a c)
    (h : thread.Secures rely own post acts s) (hs : rely s s') :
    thread.Secures rely own post acts s' := by
  cases thread with
  | done a => exact fun t ht => h t (htrans hs ht)
  | step change next => exact fun t ht => h t (htrans hs ht)

/-- What a thread secures may be weakened. -/
theorem mono (h : thread.Secures rely own post acts s)
    (hown : ∀ more s s', own more s s' → own' more s s')
    (hpost : ∀ a acts s, post a acts s → post' a acts s) :
    thread.Secures rely own' post' acts s := by
  induction thread generalizing acts s with
  | done a => exact fun s' hs => hpost a acts s' (h s' hs)
  | step change next ih =>
    intro s' hs
    obtain ⟨more, hmore, hnext⟩ := h s' hs
    exact ⟨more, hown _ _ _ hmore, ih s' hnext⟩

/-- What is secured holds on, whatever the others do. -/
theorem lasting (htrans : ∀ {a b c}, rely a b → rely b c → rely a c)
    (h : thread.Secures rely own post acts s) :
    thread.Secures rely own (fun a acts s => ∀ s', rely s s' → post a acts s') acts s := by
  induction thread generalizing acts s with
  | done a => exact fun s' hs t ht => h t (htrans hs ht)
  | step change next ih =>
    intro s' hs
    obtain ⟨more, hmore, hnext⟩ := h s' hs
    exact ⟨more, hmore, ih s' hnext⟩

/-- **What the others and the thread itself keep** holds at the end. -/
theorem and_kept (kept : σ → Prop) (h : thread.Secures rely own post acts s) (hs : kept s)
    (hrely : ∀ s s', rely s s' → kept s → kept s')
    (hown : ∀ more s s', own more s s' → kept s → kept s') :
    thread.Secures rely own (fun a acts s => post a acts s ∧ kept s) acts s := by
  induction thread generalizing acts s with
  | done a => exact fun s' hs' => ⟨h s' hs', hrely s s' hs' hs⟩
  | step change next ih =>
    intro s' hs'
    obtain ⟨more, hmore, hnext⟩ := h s' hs'
    exact ⟨more, hmore, ih s' hnext (hown _ _ _ hmore (hrely s s' hs' hs))⟩

/-- The acts at the end are those before and some of the thread's own. -/
theorem and_acts {p : ω → Prop} (h : thread.Secures rely own post acts s)
    (hown : ∀ more s s', own more s s' → ∀ act ∈ more, p act) :
    thread.Secures rely own
      (fun a acts' s => post a acts' s ∧ ∃ more, acts' = acts ++ more ∧ ∀ act ∈ more, p act)
      acts s := by
  induction thread generalizing acts s with
  | done a => exact fun s' hs => ⟨h s' hs, [], (List.append_nil _).symm, by simp⟩
  | step change next ih =>
    intro s' hs
    obtain ⟨more, hmore, hnext⟩ := h s' hs
    refine ⟨more, hmore, (ih s' hnext).mono (fun _ _ _ => id) ?_⟩
    rintro a _ t ⟨ht, rest, rfl, hrest⟩
    refine ⟨ht, more ++ rest, List.append_assoc .., fun act ha => ?_⟩
    rcases List.mem_append.1 ha with ha | ha
    · exact hown _ _ _ hmore act ha
    · exact hrest act ha

/-- **A thread in two parts** secures what its second part secures wherever the first one ends. -/
theorem bind {next : α → Thread σ β} {post : β → List ω → σ → Prop} (hrefl : ∀ s, rely s s)
    (h : thread.Secures rely own (fun a acts s => (next a).Secures rely own post acts s) acts s) :
    (thread.bind next).Secures rely own post acts s := by
  induction thread generalizing acts s with
  | done a => exact h s (hrefl s)
  | step change rest ih =>
    intro s' hs
    obtain ⟨more, hmore, hrest⟩ := h s' hs
    exact ⟨more, hmore, ih s' hrest⟩

/-- **A thread on one part of the state** does not mind the other part. Its acts may be seen as acts
of another kind. -/
theorem beside {rely' : σ × τ → σ × τ → Prop} {own' : List υ → σ × τ → σ × τ → Prop} {f : ω → υ}
    {before : List υ} {s : σ × τ} (h : thread.Secures rely own post acts s.1)
    (hrely : ∀ a b, rely' a b → rely a.1 b.1)
    (hown : ∀ more a b t, own more a b → own' (more.map f) (a, t) (b, t)) :
    (thread.beside : Thread (σ × τ) α).Secures rely' own' (fun a acts' s =>
      ∃ more, acts' = before ++ more.map f ∧ post a (acts ++ more) s.1) before s := by
  induction thread generalizing acts before s with
  | done a =>
    refine fun s' hs => ⟨[], (List.append_nil _).symm, ?_⟩
    rw [List.append_nil]
    exact h s'.1 (hrely _ _ hs)
  | step change next ih =>
    intro s' hs
    obtain ⟨more, hmore, hnext⟩ := h s'.1 (hrely _ _ hs)
    refine ⟨more.map f, hown _ _ _ s'.2 hmore, (ih s'.1 hnext).mono (fun _ _ _ => id) ?_⟩
    rintro a _ t ⟨rest, rfl, hpost⟩
    refine ⟨more ++ rest, by rw [List.map_append, List.append_assoc], ?_⟩
    rwa [← List.append_assoc]

/-- **A thread on its own** comes to what it secures. -/
theorem run (h : thread.Secures rely own post acts s) (hrefl : ∀ s, rely s s)
    (hnil : ∀ s, own [] s s)
    (happend : ∀ {first second a b c}, own first a b → own second b c → own (first ++ second) a c) :
    ∃ more, own more s (thread.run s).2 ∧
      post (thread.run s).1 (acts ++ more) (thread.run s).2 := by
  induction thread generalizing acts s with
  | done a =>
    refine ⟨[], hnil s, ?_⟩
    rw [List.append_nil]
    exact h s (hrefl s)
  | step change next ih =>
    obtain ⟨more, hmore, hnext⟩ := h s (hrefl s)
    obtain ⟨rest, hrest, hpost⟩ := ih s hnext
    rw [List.append_assoc] at hpost
    exact ⟨more ++ rest, happend hmore hrest, hpost⟩

end Secures

/-! ### Threads that take turns -/

variable [DecidableEq κ]

/-- The acts of one thread among those of all. -/
def actsOf (name : κ) (acts : List (κ × ω)) : List ω :=
  (acts.filter (·.1 = name)).map Prod.snd

@[simp] theorem mem_actsOf {name : κ} {act : ω} {acts : List (κ × ω)} :
    act ∈ actsOf name acts ↔ (name, act) ∈ acts := by
  simp [actsOf]

theorem actsOf_append (name : κ) (first second : List (κ × ω)) :
    actsOf name (first ++ second) = actsOf name first ++ actsOf name second := by
  rw [actsOf, List.filter_append, List.map_append]
  rfl

theorem actsOf_self (name : κ) (acts : List ω) :
    actsOf name (acts.map fun act => (name, act)) = acts := by
  simp [actsOf, List.filter_map, Function.comp_def]

theorem actsOf_eq_nil {name : κ} {acts : List (κ × ω)} (h : ∀ act ∈ acts, act.1 ≠ name) :
    actsOf name acts = [] := by
  rw [actsOf, List.map_eq_nil_iff, List.filter_eq_nil_iff]
  exact fun act hact => by simpa using h act hact

theorem actsOf_other {name other : κ} (h : name ≠ other) (acts : List ω) :
    actsOf other (acts.map fun act => (name, act)) = [] :=
  actsOf_eq_nil (by simp [h])

variable {rely : κ → σ → σ → Prop} {own : κ → List ω → σ → σ → Prop}
  {post : κ → α → List ω → σ → Prop} {names : List κ} {acts : List (κ × ω)}
  {ended : List (κ × α)} {threads front back : List (κ × Thread σ α)} {name : κ}

/-- **Acts of one of some threads.** -/
def OneOf (names : List κ) (own : κ → List ω → σ → σ → Prop) (more : List (κ × ω)) (s s' : σ) :
    Prop :=
  ∃ name ∈ names, ∃ acts, more = acts.map (fun act => (name, act)) ∧ own name acts s s'

/-- **What all threads come to**: each has ended once, and with what it secured. -/
def AllEnded (names : List κ) (post : κ → α → List ω → σ → Prop) (results : List (κ × α))
    (acts : List (κ × ω)) (s : σ) : Prop :=
  (results.map Prod.fst).Perm names ∧ ∀ m ∈ results, post m.1 m.2 (actsOf m.1 acts) s

/-- **Threads with different names may rely on each other.** -/
structure Rely (names : List κ) (rely : κ → σ → σ → Prop) (own : κ → List ω → σ → σ → Prop) :
    Prop where
  /-- The names are different. -/
  nodup : names.Nodup
  /-- The others may do nothing. -/
  refl : ∀ name s, rely name s s
  /-- They may go on. -/
  trans : ∀ name {a b c}, rely name a b → rely name b c → rely name a c
  /-- They may do what each of them does. -/
  own : ∀ name ∈ names, ∀ other ∈ names, name ≠ other → ∀ {more s s'}, own name more s s' →
    rely other s s'

/-- **Threads that share a state**, on their way: those that have ended are where they secured to be,
and the others secure it. The acts are in the order in which they were performed. -/
structure Crew (names : List κ) (rely : κ → σ → σ → Prop) (own : κ → List ω → σ → σ → Prop)
    (post : κ → α → List ω → σ → Prop) (acts : List (κ × ω)) (s : σ) (ended : List (κ × α))
    (threads : List (κ × Thread σ α)) : Prop where
  /-- They are the threads of these names. -/
  perm : (ended.map Prod.fst ++ threads.map Prod.fst).Perm names
  /-- Those that have ended, whatever the others do. -/
  ended : ∀ m ∈ ended, ∀ s', rely m.1 s s' → post m.1 m.2 (actsOf m.1 acts) s'
  /-- The others. -/
  going : ∀ m ∈ threads, m.2.Secures (rely m.1) (own m.1) (post m.1) (actsOf m.1 acts) s

namespace Crew

/-- A thread that is done ends. -/
theorem next_ended {a : α}
    (h : Crew names rely own post acts s ended (front ++ (name, done a) :: back)) :
    Crew names rely own post acts s (ended ++ [(name, a)]) (front ++ back) where
  perm := by
    refine List.Perm.trans ?_ h.perm
    simp only [List.map_append, List.map_cons, List.map_nil, List.append_assoc,
      List.singleton_append]
    exact (List.perm_middle.symm).append_left _
  ended m hm := by
    rcases List.mem_append.1 hm with hm | hm
    · exact h.ended m hm
    · cases List.mem_singleton.1 hm
      exact h.going (name, done a) (by simp)
  going m hm := h.going m ((List.Sublist.append_left (List.sublist_cons_self _ _) _).subset hm)

/-- **A step of one thread** leaves the others where they stand. -/
theorem next_step {change : σ → σ} {next : σ → Thread σ α} (hr : Rely names rely own)
    (h : Crew names rely own post acts s ended (front ++ (name, step change next) :: back)) :
    ∃ more, OneOf names own more s (change s) ∧
      Crew names rely own post (acts ++ more) (change s) ended (front ++ (name, next s) :: back) := by
  obtain ⟨more, hmore, hnext⟩ := h.going (name, step change next) (by simp) s (hr.refl name s)
  have hperm : (name :: (ended.map Prod.fst ++ (front ++ back).map Prod.fst)).Perm names := by
    refine List.Perm.trans ?_ h.perm
    simp only [List.map_append, List.map_cons, ← List.append_assoc]
    exact List.perm_middle.symm
  have hname : name ∈ names := hperm.subset List.mem_cons_self
  -- what another thread has is neither acted on nor taken away
  have hother {other : κ} (ho : other ∈ ended.map Prod.fst ++ (front ++ back).map Prod.fst) :
      rely other s (change s) ∧
        actsOf other (acts ++ more.map fun act => (name, act)) = actsOf other acts := by
    have hne : name ≠ other := fun he =>
      (List.nodup_cons.1 (hperm.nodup_iff.2 hr.nodup)).1 (he ▸ ho)
    refine ⟨hr.own name hname other (hperm.subset (List.mem_cons_of_mem _ ho)) hne hmore, ?_⟩
    rw [actsOf_append, actsOf_other hne, List.append_nil]
  refine ⟨_, ⟨name, hname, more, rfl, hmore⟩, ?_, fun m hm s' hs => ?_, fun m hm => ?_⟩
  · simpa using h.perm
  · obtain ⟨hrely, hacts⟩ := hother (List.mem_append_left _ (List.mem_map_of_mem hm))
    rw [hacts]
    exact h.ended m hm s' (hr.trans _ hrely hs)
  · have hcases : m = (name, next s) ∨ m ∈ front ++ back := by
      rcases List.mem_append.1 hm with hm | hm
      · exact .inr (List.mem_append_left _ hm)
      · exact (List.mem_cons.1 hm).imp_right (List.mem_append_right _)
    rcases hcases with rfl | hm
    · rw [actsOf_append, actsOf_self]
      exact hnext
    · obtain ⟨hrely, hacts⟩ := hother (List.mem_append_right _ (List.mem_map_of_mem hm))
      rw [hacts]
      exact (h.going m ((List.Sublist.append_left (List.sublist_cons_self _ _) _).subset hm)).of_rely
        (hr.trans _) hrely

/-- When none is left, all have ended. -/
theorem allEnded (h : Crew names rely own post acts s ended []) (hr : Rely names rely own) :
    AllEnded names post ended acts s := by
  refine ⟨by simpa using h.perm, fun m hm => h.ended m hm s (hr.refl _ s)⟩

/-- Threads that go on one after another come to what they secure. -/
theorem secures_inTurn (hr : Rely names rely own)
    (h : Crew names rely own post acts s ended threads) :
    (inTurn ended threads).Secures Eq (OneOf names own) (AllEnded names post) acts s := by
  induction threads generalizing ended acts s with
  | nil =>
    rintro s' rfl
    exact h.allEnded hr
  | cons m threads ih =>
    obtain ⟨name, thread⟩ := m
    rw [inTurn]
    induction thread generalizing acts s with
    | done a =>
      replace h : Crew names rely own post acts s ended ([] ++ (name, done a) :: threads) := h
      exact ih h.next_ended
    | step change next ihnext =>
      replace h : Crew names rely own post acts s ended ([] ++ (name, step change next) :: threads) :=
        h
      rintro s' rfl
      obtain ⟨more, hmore, hcrew⟩ := h.next_step hr
      exact ⟨more, hmore, ihnext s hcrew⟩

/-- **Threads that take turns come to what each of them secures**, whatever order the turns go in. -/
theorem secures_takeTurns (hr : Rely names rely own) (turns : List Nat)
    (h : Crew names rely own post acts s ended threads) :
    (takeTurns turns ended threads).Secures Eq (OneOf names own) (AllEnded names post) acts s := by
  induction turns generalizing ended threads acts s with
  | nil => exact h.secures_inTurn hr
  | cons turn turns ih =>
    rw [takeTurns]
    have hsplit := List.take_append_drop (turn % threads.length) threads
    rcases hdrop : threads.drop (turn % threads.length) with _ | ⟨⟨name, _ | ⟨change, next⟩⟩, back⟩
    · -- there is a thread whose turn it is, unless none is left
      have hnil : threads = [] := by
        by_contra hne
        have hlt := Nat.mod_lt turn (List.length_pos_iff.2 hne)
        have hle := List.drop_eq_nil_iff.1 hdrop
        omega
      subst hnil
      rintro s' rfl
      exact h.allEnded hr
    · rw [hdrop] at hsplit
      rw [← hsplit] at h
      exact ih h.next_ended
    · rw [hdrop] at hsplit
      rw [← hsplit] at h
      rintro s' rfl
      obtain ⟨more, hmore, hcrew⟩ := h.next_step hr
      exact ⟨more, hmore, ih hcrew⟩

end Crew

end Thread
end TemplateBindings
