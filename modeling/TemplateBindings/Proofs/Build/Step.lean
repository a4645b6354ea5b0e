import TemplateBindings.Proofs.Build.Sharing

/-!
# Work on one source

Work on a source asks for its marker, puts the directory of its outputs on the list of those that were
tried, and makes the outputs. What it comes to among other threads follows from what these parts come
to (`TemplateBindings.Build.secures_workOn`), whatever it relies on. In a batch it relies on this, that
each of the others performs only what serves its own source.
-/

namespace TemplateBindings
namespace Build

open Files

variable {roots : Roots} {sources batch : List Source} {s : Source} {out : Path}
  {opens : Source → Prop} {shared : Shared} {acts : List Act}

/-! ### What work on a source consists of -/

/-- The outcome of making outputs. -/
def madeOutcome : Except SourceError (List Path) → Outcome
  | .ok paths => .written paths
  | .error e => .failed e

/-- The list with a directory on it. -/
def claimed (directory : Path) (tried : List Path) : List Path :=
  if tried.contains directory then tried else directory :: tried

/-- What putting a directory on the list comes to as acts. -/
def claimOf (directory : Path) (tried : List Path) : List Act :=
  if tried.contains directory then [] else [.claim directory]

@[simp] theorem operationsOf_claimOf (directory : Path) (tried : List Path) :
    operationsOf (claimOf directory tried) = [] := by
  rw [claimOf]
  split <;> rfl

section
variable {company : Company} {rely : Shared → Shared → Prop}
  {own : List Act → Shared → Shared → Prop} {post : Outcome → List Act → Shared → Prop}

/-- **What work on a source comes to** follows from what asking for its marker and making its outputs
come to. -/
theorem secures_workOn (hrefl : ∀ a, rely a a) (htrans : ∀ {a b c}, rely a b → rely b c → rely a c)
    (hrely : ∀ a b, rely a b → company.rely a.1 b.1) (hnil : ∀ a, own [] a a)
    {answer : Except SourceError (Option Text) → Disk → Prop}
    (hanswer : (takeStaleMarker roots s (s.stylesheet? sources)).Secures company.onlooking
      (fun result _ asked => answer result asked) [] shared.1)
    (hfailed : ∀ e asked last, answer (.error e) asked → rely shared last →
      post (.failed e) [] last)
    (hcached : ∀ asked last, answer (.ok none) asked.1 → rely shared asked → rely asked last →
      post .cached [] last)
    (hmake : ∀ marker asked mid, answer (.ok (some marker)) asked → rely shared mid →
      own (claimOf (s.directory roots.output) mid.2) mid
          (mid.1, claimed (s.directory roots.output) mid.2) ∧
        (makeOutputs roots s (s.stylesheet? sources) marker
            (!mid.2.contains (s.directory roots.output))).run.beside.Secures rely own
          (fun result acts last => post (madeOutcome result) acts last)
          (claimOf (s.directory roots.output) mid.2)
          (mid.1, claimed (s.directory roots.output) mid.2)) :
    (workOn roots sources s).Secures rely own post [] shared := by
  have hquiet : (takeStaleMarker roots s (s.stylesheet? sources)).run.beside.Secures rely own
      (fun result acts mid => answer result mid.1 ∧ acts = [] ∧ rely shared mid) [] shared := by
    have hbeside : (takeStaleMarker roots s (s.stylesheet? sources)).run.beside.Secures rely
        (fun acts a b => acts = [] ∧ a = b)
        (fun result acts mid => ∃ more : List Operation, acts = [] ++ more.map Act.perform ∧
          answer result mid.1) [] shared :=
      Thread.Secures.beside hanswer hrely fun more a b t ⟨hmore, he⟩ => by subst hmore he; simp
    have hnone (more : List Act) (a b : Shared) (h : more = [] ∧ a = b) : ∀ act ∈ more, False := by
      simp [h.1]
    refine ((hbeside.and_kept _ (hrefl shared) (fun a b h h' => htrans h' h) ?_).and_acts
      hnone).mono ?_ ?_
    · rintro _ a _ ⟨rfl, rfl⟩
      exact id
    · rintro _ a _ ⟨rfl, rfl⟩
      exact hnil a
    · rintro result _ mid ⟨⟨⟨_, -, hanswer⟩, hmid⟩, more, rfl, hmore⟩
      exact ⟨hanswer, List.eq_nil_iff_forall_not_mem.2 hmore, hmid⟩
  refine .bind hrefl (hquiet.mono (fun _ _ _ => id) ?_)
  rintro (e | _ | marker) _ mid ⟨hresult, rfl, hmid⟩
  · exact fun last hlast => hfailed e _ last hresult (htrans hmid hlast)
  · exact fun last hlast => hcached mid last hresult hmid hlast
  · refine .bind hrefl fun next hnext => ?_
    obtain ⟨hown, hsecures⟩ := hmake marker _ next hresult (htrans hmid hnext)
    refine ⟨_, hown, fun last hlast => ?_⟩
    have hlasting := (hsecures.of_rely @htrans hlast).lasting @htrans
    refine .bind hrefl (hlasting.mono (fun _ _ _ => id) ?_)
    rintro (e | paths) acts final hfinal
    · exact hfinal
    · exact hfinal

end

/-! ### In the company of other sources -/

/-- The company of work on a source in a batch. -/
def companyOf (out : Path) (batch : List Source) (source : Source) : Company :=
  .among (ServesAny out (batch.filter (· ≠ source))) (Serves out source)

theorem ReliesOn.company {a b : Shared} (h : ReliesOn out batch opens s a b) :
    (companyOf out batch s).rely a.1 b.1 :=
  h.performs

theorem DoesOwn.of_performs {operations : List Operation} {a b : Disk}
    (h : (companyOf out batch s).own operations a b) (tried : List Path) :
    DoesOwn out opens s (operations.map .perform) (a, tried) (b, tried) := by
  refine ⟨?_, by simp, by simp⟩
  rw [operationsOf_perform]
  exact h

theorem mem_claimed {directory d : Path} {tried : List Path} :
    d ∈ claimed directory tried ↔ d ∈ tried ∨ d ∈ claimsOf (claimOf directory tried) := by
  rw [claimed, claimOf]
  split
  · simp [claimsOf]
  · simp [claimsOf, Act.directory?, or_comm]

theorem mem_claimed_self {directory : Path} {tried : List Path} :
    directory ∈ claimed directory tried := by
  rw [claimed]
  split
  · next h => simpa using h
  · exact List.mem_cons_self

/-- A directory is put on the list if it is not there yet. -/
theorem of_mem_claimsOf_claimOf {directory d : Path} {tried : List Path}
    (h : d ∈ claimsOf (claimOf directory tried)) : directory ∉ tried ∧ d = directory := by
  rw [claimOf] at h
  split at h
  · cases h
  · next hnot => exact ⟨by simpa using hnot, List.mem_singleton.1 h⟩

theorem DoesOwn.of_claim (hopens : opens s) (shared : Shared) :
    DoesOwn out opens s (claimOf (s.directory out) shared.2) shared
      (shared.1, claimed (s.directory out) shared.2) := by
  refine ⟨?_, fun d => mem_claimed, fun d hd => ⟨hopens, ?_⟩⟩
  · rw [operationsOf_claimOf]
    exact .nil _ _
  · rw [claimOf] at hd
    split at hd
    · cases hd
    · exact List.mem_singleton.1 hd

/-! ### Entering the directory -/

variable {others : Operation → Prop} {before : List Operation} {disk : Disk} {way : Path}

/-- Entering a directory makes directories on the way to it. -/
theorem secures_enter (hp : way.Proper) (hplain : way.Plain disk.root) (ensure : Bool) :
    (enter way ensure).Secures (.among others (Operation.MakesOn way))
      (fun result acts' mid => (∃ directories, acts' = before ++ directories ∧
          Making way directories) ∧ (ensure = true → result = .ok () → mid.HasDirectory way))
      before disk := by
  cases ensure with
  | false => exact Work.secures_pure fun _ _ => ⟨⟨[], (List.append_nil _).symm, Making.nil way⟩, nofun⟩
  | true =>
    refine .mapError ((secures_ensureDirectories directoryRoom hp hplain).and_acts.mono ?_)
    rintro result acts' mid ⟨hdir, hacts⟩
    exact ⟨hacts, fun _ hok => hdir (of_mapError_ok hok)⟩

/-- Entering a directory makes directories on the way to it. It ends well if the directory can be
made. -/
theorem secures_enter_makeable (hp : way.Proper) (hplain : way.Plain disk.root)
    (hothers : ∀ operations disk disk', Disk.Performs others operations disk disk' →
      way.Free disk.root → way.Free disk'.root) (ensure : Bool) :
    (enter way ensure).Secures (.among others (Operation.MakesOn way))
      (fun result acts' mid => (∃ directories, acts' = before ++ directories ∧
          Making way directories) ∧ (ensure = true → result = .ok () → mid.HasDirectory way) ∧
        ((ensure = true → way.Makeable disk.root directoryRoom) → result = .ok ()))
      before disk := by
  by_cases hmakeable : ensure = true → way.Makeable disk.root directoryRoom
  · cases ensure with
    | false =>
      exact Work.secures_pure fun _ _ =>
        ⟨⟨[], (List.append_nil _).symm, Making.nil way⟩, nofun, fun _ => rfl⟩
    | true =>
      refine .mapError ((((hmakeable rfl).secures hp hothers).and_acts).mono ?_)
      rintro _ acts' mid ⟨⟨rfl, hdir⟩, hacts⟩
      exact ⟨hacts, fun _ _ => hdir, fun _ => rfl⟩
  · refine (secures_enter hp hplain ensure).mono ?_
    rintro result acts' mid ⟨hacts, hdir⟩
    exact ⟨hacts, hdir, fun h => absurd h hmakeable⟩

end Build
end TemplateBindings
