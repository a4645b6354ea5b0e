import TemplateBindings.Proofs.Files.Walks

/-!
# Resolving plain paths

A path made of names that meets no link is the one it resolves to
(`TemplateBindings.Files.resolve_of_plain`): there is nothing in it to follow and nothing to step
back over. What does not exist does not matter. What any path resolves to is at least made of names
(`TemplateBindings.Files.resolve_proper`).
-/

namespace TemplateBindings
namespace Files

variable {root here : Entry} {goal : Goal} {links : Nat} {wayRev names : List Str} {path : Path}
  {name : Str} {cause : Cause}

/-! ### Settling -/

theorem settleWith_of_plain {active : List Path} {follow : Path → Path → List Str → Settling}
    {settled : Path} (hp : Path.Proper names) (hplain : Path.Plain root (settled ++ names)) :
    settleWith root active follow settled names = .done (settled ++ names) := by
  induction names generalizing settled with
  | nil => rw [settleWith, List.append_nil]
  | cons name names ih =>
    obtain ⟨hempty, hdot, hback, -, hnull⟩ := hp name List.mem_cons_self
    have hnames : Path.Proper names := fun n hm => hp n (List.mem_cons_of_mem _ hm)
    have hstep : settled ++ name :: names = settled ++ [name] ++ names := by simp
    rw [hstep] at hplain ⊢
    have hlink := hplain (settled ++ [name]) (List.prefix_append _ _)
    rw [settleWith, if_neg (by simp [hempty, hdot]), if_neg hback, if_neg (by simpa using hnull)]
    dsimp only
    split
    · next target hat => exact absurd (Entry.see?_eq_some_link.2 hat) (hlink target)
    · exact ih hnames hplain

theorem settle_of_plain {depth : Nat} {active : List Path} {settled : Path}
    (hp : Path.Proper names) (hplain : Path.Plain root (settled ++ names)) :
    settle root depth active settled names = .done (settled ++ names) := by
  cases depth with
  | zero => rw [settle_zero, settleWith_of_plain hp hplain]
  | succ depth => rw [settle_succ, settleWith_of_plain hp hplain]

/-! ### Normal paths -/

/-- **A path without steps back**, and without names that say nothing. -/
def Path.Normal (path : Path) : Prop := ∀ n ∈ path, n ≠ [] ∧ n ≠ stay ∧ n ≠ back

instance (path : Path) : Decidable path.Normal := inferInstanceAs (Decidable (∀ _ ∈ _, _))

theorem Path.Proper.normal (hp : path.Proper) : path.Normal := fun n hm =>
  ⟨(hp n hm).1, (hp n hm).2.1, (hp n hm).2.2.1⟩

/-- Such a path is as it is without steps back. -/
theorem Path.Normal.normalise (hp : path.Normal) : path.normalise = path := by
  have hgo (names done : Path) (hn : names.Normal) :
      names.foldl Path.goOn done = done ++ names := by
    induction names generalizing done with
    | nil => rw [List.foldl_nil, List.append_nil]
    | cons name names ih =>
      obtain ⟨hempty, hdot, hback⟩ := hn name List.mem_cons_self
      have hname : Path.goOn done name = done ++ [name] := by
        rw [Path.goOn, if_neg (by simp [hempty, hdot]), if_neg hback]
      rw [List.foldl_cons, hname, ih _ fun n hm => hn n (List.mem_cons_of_mem _ hm)]
      simp
  exact hgo path [] hp

/-- Without steps back, what is left of a path are names of it. -/
theorem mem_normalise :
    ∀ n ∈ path.normalise, n ∈ path ∧ n ≠ [] ∧ n ≠ stay ∧ n ≠ back := by
  have hgo (names done : Path) (hin : ∀ n ∈ names, n ∈ path)
      (hdone : ∀ n ∈ done, n ∈ path ∧ n ≠ [] ∧ n ≠ stay ∧ n ≠ back) :
      ∀ n ∈ names.foldl Path.goOn done, n ∈ path ∧ n ≠ [] ∧ n ≠ stay ∧ n ≠ back := by
    induction names generalizing done with
    | nil => exact hdone
    | cons name names ih =>
      refine ih _ (fun n hm => hin n (List.mem_cons_of_mem _ hm)) ?_
      rw [Path.goOn]
      split
      · exact hdone
      · next hskip =>
        split
        · exact fun n hm => hdone n (List.mem_of_mem_dropLast hm)
        · next hback =>
          simp only [Bool.or_eq_true, List.isEmpty_iff, decide_eq_true_eq, not_or] at hskip
          intro n hm
          rcases List.mem_append.1 hm with hm | hm
          · exact hdone n hm
          · cases List.mem_singleton.1 hm
            exact ⟨hin _ List.mem_cons_self, hskip.1, hskip.2, hback⟩
  exact hgo path [] (fun _ hm => hm) fun _ hm => absurd hm List.not_mem_nil

theorem Path.normal_normalise (path : Path) : path.normalise.Normal := fun n hm =>
  (mem_normalise n hm).2

/-- Without steps back twice is once. -/
@[simp] theorem Path.normalise_normalise (path : Path) :
    path.normalise.normalise = path.normalise :=
  path.normal_normalise.normalise

theorem Path.Proper.plain_eq (hp : path.Proper) : path.plain = path := by
  rw [Path.plain, List.filter_eq_self]
  intro name hm
  simpa using (hp name hm).1

/-! ### What can go wrong on a plain path -/

/-- A walk along names that meets no link fails for want of something, and never for a link. -/
theorem cause_of_walk (wayRev : List Str) (hat : root.at? wayRev.reverse = some here)
    (hp : Path.Proper names) (hplain : Path.Plain root (wayRev.reverse ++ names))
    (h : walk root goal links wayRev here names = .error cause) :
    cause = .missing ∨ cause = .notDirectory ∨
      cause = .nameTooLong ∧ ∃ n ∈ names, nameLimit < (Str.bytes n).length := by
  induction names generalizing here wayRev with
  | nil =>
    rw [walk_nil] at h
    cases h
  | cons name names ih =>
    have hname := hp name List.mem_cons_self
    have hnames : Path.Proper names := fun n hm => hp n (List.mem_cons_of_mem _ hm)
    cases here with
    | file bytes modified =>
      rw [walk_cons_of_not_directory (by simp)] at h
      cases h
      exact .inr (.inl rfl)
    | link target =>
      rw [walk_cons_of_not_directory (by simp)] at h
      cases h
      exact .inr (.inl rfl)
    | directory members =>
      have hway : wayRev.reverse ++ name :: names = (name :: wayRev).reverse ++ names := by simp
      have hmore (hcause : cause = .missing ∨ cause = .notDirectory ∨
          cause = .nameTooLong ∧ ∃ n ∈ names, nameLimit < (Str.bytes n).length) :
          cause = .missing ∨ cause = .notDirectory ∨
            cause = .nameTooLong ∧ ∃ n ∈ name :: names, nameLimit < (Str.bytes n).length :=
        hcause.imp_right (.imp_right (.imp_right fun ⟨n, hn, hlong⟩ =>
          ⟨n, List.mem_cons_of_mem _ hn, hlong⟩))
      have hmember := Entry.at?_reverse_cons hat name
      rw [hway] at hplain
      rw [walk_name hname hnames] at h
      split at h
      · next hlong =>
        cases h
        exact .inr (.inr ⟨rfl, name, List.mem_cons_self, hlong⟩)
      · cases hlook : members.lookup name with
        | none =>
          rw [hlook] at h
          dsimp only at h
          split at h
          · cases h
          · cases h
            exact .inl rfl
        | some next =>
          rw [hlook] at h
          have hsee := hmember.trans hlook
          cases next with
          | link target =>
            exact absurd (Entry.see?_eq_some_link.2 hsee)
              (hplain _ (List.prefix_append _ _) target)
          | file bytes modified => exact hmore (ih _ hsee hnames hplain h)
          | directory members => exact hmore (ih _ hsee hnames hplain h)

/-- On a plain path a location fails for want of something, or because of the limits. -/
theorem cause_of_locate (hp : path.Proper) (hplain : path.Plain root)
    (h : locate root goal path = .error cause) :
    cause = .missing ∨ cause = .notDirectory ∨ cause = .nameTooLong ∧ ¬ path.Fits := by
  rw [locate, hp.not_hasNull, if_neg (by simp)] at h
  split at h
  · next hlong =>
    cases h
    exact .inr (.inr ⟨rfl, fun hf => absurd hf.1 (by omega)⟩)
  · refine (cause_of_walk [] rfl hp hplain h).imp_right (.imp_right (.imp_right ?_))
    rintro ⟨n, hn, hlong⟩ hf
    exact absurd (hf.2 n hn) (by omega)

/-- **A plain path resolves to itself.** -/
theorem resolve_of_plain (hp : path.Proper) (hplain : path.Plain root) :
    resolve root path = .ok path := by
  have hsettle : settle root root.linkCount [] [] path = .done path := settle_of_plain hp hplain
  rw [resolve, hp.plain_eq, hsettle]
  dsimp only
  rw [hp.normal.normalise, checked]
  split
  · next h =>
    rcases cause_of_locate hp hplain h with h | h | ⟨h, -⟩ <;> cases h
  · next h =>
    rcases cause_of_locate hp hplain h with h | h | ⟨h, -⟩ <;> cases h
  · rfl

/-! ### What resolving gives -/

/-- **A settling without slashes in names**: a path of names, or, behind a link that leads back to
itself, of names and steps. -/
def Settling.Named : Settling → Prop
  | .done path => path.Proper
  | .stuck path => ∀ name ∈ path, slash ∉ name
  | .invalid => True

theorem not_mem_withRest {c : Point} (hpath : ∀ n ∈ path, c ∉ n) (hrest : ∀ n ∈ names, c ∉ n) :
    ∀ n ∈ withRest path names, c ∉ n := by
  rw [withRest.eq_def]
  split
  · exact fun n hm => hrest n (List.mem_cons_of_mem _ hm)
  · intro n hm
    rcases List.mem_append.1 hm with hm | hm
    · exact hpath n hm
    · exact hrest n hm

theorem settleWith_named {active : List Path} {follow : Path → Path → List Str → Settling}
    {settled : Path}
    (hfollow : ∀ link start names, link.Proper → start.Proper → (∀ n ∈ names, slash ∉ n) →
      (follow link start names).Named)
    (hs : settled.Proper) (hn : ∀ n ∈ names, slash ∉ n) :
    (settleWith root active follow settled names).Named := by
  induction names generalizing settled with
  | nil => exact hs
  | cons name names ih =>
    have hrest : ∀ n ∈ names, slash ∉ n := fun n hm => hn n (List.mem_cons_of_mem _ hm)
    rw [settleWith]
    split
    · exact ih hs hrest
    · next hskip =>
      split
      · exact ih (hs.of_isPrefix (List.dropLast_prefix _)) hrest
      · next hback =>
        split
        · trivial
        · next hnull =>
          simp only [Bool.or_eq_true, List.isEmpty_iff, decide_eq_true_eq, not_or] at hskip
          have hname : IsName name :=
            ⟨hskip.1, hskip.2, hback, hn name List.mem_cons_self, by simpa using hnull⟩
          have hnext : Path.Proper (settled ++ [name]) := hs.append fun n hm => by
            cases List.mem_singleton.1 hm
            exact hname
          have hslash : ∀ n ∈ settled ++ [name], slash ∉ n := fun n hm => (hnext n hm).2.2.2.1
          dsimp only
          split
          · split
            · exact not_mem_withRest hslash hrest
            · next target hat hactive =>
              have hstart : Path.Proper (if Path.isAbsolute target then [] else settled) := by
                split
                · exact fun _ hm => absurd hm List.not_mem_nil
                · exact hs
              have hlink := hfollow (settled ++ [name])
                (if Path.isAbsolute target then [] else settled) (Text.pieces slash target) hnext hstart
                fun n hm => Text.not_mem_of_mem_pieces hm
              split
              · next path he =>
                rw [he] at hlink
                exact ih hlink hrest
              · next path he =>
                rw [he] at hlink
                exact not_mem_withRest hlink hrest
              · trivial
          · exact ih hnext hrest

theorem settle_named {depth : Nat} {active : List Path} {settled : Path} (hs : settled.Proper)
    (hn : ∀ n ∈ names, slash ∉ n) : (settle root depth active settled names).Named := by
  induction depth generalizing active settled names with
  | zero =>
    rw [settle_zero]
    exact settleWith_named (fun link _ _ hl _ _ n hm => (hl n hm).2.2.2.1) hs hn
  | succ depth ih =>
    rw [settle_succ]
    exact settleWith_named (fun _ _ _ _ hstart hnames => ih hstart hnames) hs hn

theorem checked_proper {out : Path} (hn : path.Spelled)
    (h : checked root path.normalise = .ok out) :
    out = path.normalise ∧ path.normalise.Proper := by
  have hnull : path.normalise.hasNull = false := by
    by_contra hnull
    rw [Bool.not_eq_false] at hnull
    rw [checked, locate, if_pos hnull] at h
    cases h
  have hout : out = path.normalise := by
    rw [checked] at h
    split at h
    · cases h
    · cases h
    · exact (Except.ok.inj h).symm
  refine ⟨hout, fun n hm => ?_⟩
  obtain ⟨hin, hempty, hdot, hback⟩ := mem_normalise n hm
  refine ⟨hempty, hdot, hback, hn n hin, fun hz => ?_⟩
  have hany : path.normalise.hasNull = true := List.any_eq_true.2 ⟨n, hm, by simpa using hz⟩
  rw [hnull] at hany
  cases hany

/-- **What a path resolves to is made of names**, whatever links the path goes through. -/
theorem resolve_proper {out : Path} (hn : path.Spelled)
    (h : resolve root path = .ok out) : out.Proper := by
  have hnames : ∀ n ∈ path.plain, slash ∉ n := fun n hm => hn n (List.mem_filter.1 hm).1
  have hnamed : (settle root root.linkCount [] [] path.plain).Named :=
    settle_named (fun _ hm => absurd hm List.not_mem_nil) hnames
  rw [resolve] at h
  split at h
  · cases h
  · next settled hsettle =>
    rw [hsettle] at hnamed
    obtain ⟨rfl, hp⟩ := checked_proper (fun n hm => (hnamed n hm).2.2.2.1) h
    exact hp
  · next settled hsettle =>
    rw [hsettle] at hnamed
    obtain ⟨rfl, hp⟩ := checked_proper hnamed h
    exact hp

/-! ### Resolving where nothing exists -/

/-- A path without the null character resolves to the one without steps back. -/
theorem lexical_of_hasNull (h : path.hasNull = false) : lexical path = .ok path.normalise := by
  rw [lexical, h]
  rfl

theorem Path.hasNull_normalise (h : path.hasNull = false) : path.normalise.hasNull = false :=
  hasNull_eq_false.2 fun n hn => hasNull_eq_false.1 h n (mem_normalise n hn).1

theorem Path.hasNull_under {base : Path} {s : Text} (hbase : base.hasNull = false)
    (hs : '\x00' ∉ s) : (under base s).hasNull = false := by
  have hnull : null ∉ (s : Str) := fun hc => by
    obtain ⟨c, hmem, he⟩ := List.mem_map.1 hc
    cases he
    exact hs hmem
  have hnames : ∀ n ∈ Path.names s, null ∉ n := fun n hn hc =>
    hnull (Text.mem_of_mem_pieces (List.mem_filter.1 hn).1 hc)
  have hfront : ∀ n ∈ frontOf s, null ∉ n := by
    rw [frontOf.eq_def]
    split <;> simp
  rw [hasNull_eq_false] at hbase ⊢
  rw [under]
  split
  · exact fun n hn => (List.mem_append.1 hn).elim (hfront n) (hnames n)
  · exact fun n hn => (List.mem_append.1 hn).elim (hbase n) (hnames n)

end Files
end TemplateBindings
