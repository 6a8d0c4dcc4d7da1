import AccessBroker.Proofs.Engine.Grant
import AccessBroker.Proofs.Store.Feed

/-!
# What the outcome of a pass on a grant says

A grant is due for another pass as long as it is filled in and not being deleted, or is being
deleted and carries the finalizer of the broker (`AccessBroker.Grant.IsDue`). A pass that does not
fail may leave such a grant behind; but then it has written the grant anew, which the feed tells of,
or it asks for another pass right after the end of access (`AccessBroker.Grant.reconcile_judged`).
-/

namespace AccessBroker

open AccessBroker.Time

namespace Program

variable {I : Interface} {α : Type} {ends : List (Deed I) → α → Prop} {past : List (Deed I)}

/-- What holds after whatever else is done, holds at the end. -/
theorem obeys_of_suffix {program : Program I α}
    (h : ∀ later value, past <:+ later → ends later value) :
    program.Obeys (fun _ _ => True) ends past := by
  induction program generalizing past with
  | done value => exact h past value (List.suffix_refl _)
  | ask call next ih =>
    refine ⟨trivial, fun reply => ih reply fun later value hsuffix => ?_⟩
    exact h later value ((List.suffix_cons _ _).trans hsuffix)

end Program

namespace Grant

variable {key : Key} {past deeds : Deeds} {grant : Grant} {outcome : Outcome}

/-- The grant is filled in and not being deleted, or it is being deleted and still to be cleaned
up. -/
def IsDue (grant : Grant) : Prop :=
  grant.body.isPopulated = true ∧ grant.metadata.isDeleting = false ∨
    grant.metadata.isDeleting = true ∧ grant.isHeld = true

instance (grant : Grant) : Decidable grant.IsDue :=
  inferInstanceAs (Decidable (_ ∧ _ ∨ _ ∧ _))

/-- The pass has written the grant with a key anew, or has heard that there is none. -/
def Rewritten (key : Key) (deeds : Deeds) : Prop :=
  ∃ call, MemoryStore.Rewrites .grant key call ∧ Settled call deeds

/-- A pass that leaves a grant that is due has written it anew, or asks for another pass right after
the end of access. -/
def Judged (grant : Grant) (deeds : Deeds) (outcome : Outcome) : Prop :=
  grant.IsDue → Rewritten grant.key deeds ∨ ∃ finish, grant.body.expiresAt = some finish ∧
    outcome = .requeueAt (finish.after expiryBuffer)

theorem Rewritten.mono (h : Rewritten key past) (hsuffix : past <:+ deeds) :
    Rewritten key deeds := by
  obtain ⟨call, hcall, hsettled⟩ := h
  exact ⟨call, hcall, hsettled.mono hsuffix⟩

theorem rewritten_of_ok {call : StoreCall} (hcall : MemoryStore.Rewrites .grant key call)
    (value : call.Result) : Rewritten key (.ofCall call (.ok value) :: past) :=
  ⟨call, hcall, .ok value, List.mem_cons_self, nofun⟩

theorem rewritten_of_tolerated {call : StoreCall} (hcall : MemoryStore.Rewrites .grant key call)
    {reply : call.Reply} {value : Option call.Result}
    (hvalue : Failure.toleratingMissing reply = .ok value) :
    Rewritten key (.ofCall call reply :: past) :=
  ⟨call, hcall, reply, List.mem_cons_self, fun _ => Failure.isNotFound_of_tolerated hvalue⟩

open Pass

/-- A part of a pass after which the grant has been written anew. -/
theorem obeys_of_rewritten {pass : Pass Outcome} (h : Rewritten grant.key past) :
    pass.Obeys (fun _ _ => True) (OnSuccess (Judged grant)) past := by
  refine Program.obeys_of_suffix fun later result hsuffix => ?_
  cases result with
  | ok outcome => exact fun _ => .inl (h.mono hsuffix)
  | error failure => trivial

/-- What a part of a pass does before something else does not matter. -/
theorem obeys_after {α : Type} {first : Pass α} {rest : α → Pass Outcome}
    (h : ∀ later value, (rest value).Obeys (fun _ _ => True) (OnSuccess (Judged grant)) later) :
    (first >>= rest).Obeys (fun _ _ => True) (OnSuccess (Judged grant)) past := by
  have hfirst : first.Obeys (fun _ _ => True) (OnSuccess fun _ _ => True) past :=
    Program.obeys_of_suffix fun _ result _ => onSuccess_true result
  exact hfirst.bind_onSuccess fun later value _ => h later value

/-- Taking the finalizer off writes the grant anew. -/
theorem release_judged {rest : Option Grant → Pass Outcome} :
    (grant.release >>= rest).Obeys (fun _ _ => True) (OnSuccess (Judged grant)) past :=
  obeys_tolerate trivial fun _ _ hvalue =>
    obeys_of_rewritten (rewritten_of_tolerated (.metadata rfl) hvalue)

theorem finalize_judged (hdeleting : grant.metadata.isDeleting = true) :
    grant.finalize.Obeys (fun _ _ => True) (OnSuccess (Judged grant)) past := by
  unfold finalize
  split
  · exact obeys_after fun _ _ => release_judged
  · next hbare =>
    refine obeys_pure fun hdue => ?_
    rcases hdue with ⟨-, hlive⟩ | ⟨-, hheld⟩
    · rw [hdeleting] at hlive
      cases hlive
    · exact absurd hheld hbare

theorem expire_judged (hheld : grant.isHeld = true) :
    grant.expire.Obeys (fun _ _ => True) (OnSuccess (Judged grant)) past := by
  unfold expire
  refine obeys_after fun later _ => ?_
  have hfinalizer : grant.metadata.hasFinalizer cleanupFinalizer = true := hheld
  rw [if_pos hfinalizer]
  exact release_judged

/-- Where the status is not written, the end of access was in it before. -/
theorem persist_settles {time : Instant} {status : GrantStatus} :
    (grant.persist { status with expiresAt := some time }).Obeys (fun _ _ => True)
      (OnSuccess fun later _ => Rewritten grant.key later ∨ grant.body.expiresAt = some time)
      past := by
  unfold persist
  split
  · next hsame =>
    refine Program.obeys_of_suffix fun later result _ => ?_
    cases result with
    | ok stored => exact .inr (congrArg GrantStatus.expiresAt hsame)
    | error failure => trivial
  · refine obeys_bind (obeys_ask trivial fun reply => ?_)
    cases reply with
    | error failure => trivial
    | ok updated =>
      refine Program.obeys_of_suffix fun later result hsuffix => ?_
      cases result with
      | ok stored => exact .inl ((rewritten_of_ok (.status rfl) updated).mono hsuffix)
      | error failure => trivial

theorem advance_judged (hlive : grant.metadata.isDeleting = false) :
    (grant.advance key).Obeys (fun _ _ => True) (OnSuccess (Judged grant)) past := by
  unfold advance
  by_cases hheld : grant.isHeld = true
  · have hensured : grant.ensureFinalizer = pure grant := if_pos hheld
    rw [hensured]
    refine obeys_bind (obeys_pure ?_)
    change Pass.Obeys _ _ (ite _ _ _) _
    split
    · next hblank =>
      refine obeys_pure fun hdue => ?_
      rcases hdue with ⟨hpopulated, -⟩ | ⟨hdeleting, -⟩
      · rw [hpopulated] at hblank
        cases hblank
      · rw [hlive] at hdeleting
        cases hdeleting
    · refine ⟨trivial, fun now => ?_⟩
      change Pass.Obeys _ _ (ite _ _ _) _
      split
      · exact expire_judged hheld
      · refine obeys_after fun later provided => ?_
        obtain ⟨status, provisioned⟩ := provided
        refine obeys_bind (obeys_result ?_)
        cases accessEnd key now status with
        | error failure => trivial
        | ok time =>
          refine persist_settles.bind_onSuccess fun latest _ hsettled => ?_
          refine obeys_bind (obeys_result ?_)
          cases provisioned with
          | error failure => trivial
          | ok _ =>
            refine obeys_pure fun _ => ?_
            exact hsettled.imp id fun hexpires => ⟨time, hexpires, rfl⟩
  · -- The finalizer is put on, which writes the grant anew.
    have hensured : grant.ensureFinalizer =
        Pass.ask (.updateMetadata .grant grant.withFinalizer) := if_neg hheld
    rw [hensured]
    refine ⟨trivial, fun reply => ?_⟩
    cases reply with
    | error failure => trivial
    | ok secured =>
      exact obeys_of_rewritten (rewritten_of_ok (.metadata grant.key_withFinalizer) secured)

/-- **What a pass on a grant leaves behind**: it has looked for the grant, and if there was one that
is due, it has written it anew, or it asks for another pass right after the end of access. -/
theorem reconcile_judged (key : Key) :
    (reconcile key).Obeys (fun _ _ => True) (OnSuccess fun deeds outcome =>
      ∃ found, Deed.ofCall (.find .grant key) (.ok found) ∈ deeds ∧
        ∀ grant ∈ found, Judged grant deeds outcome) [] := by
  refine ⟨trivial, fun reply => ?_⟩
  match reply with
  | .error failure => trivial
  | .ok none =>
    exact ⟨none, List.mem_cons_self, fun grant hgrant => by cases hgrant⟩
  | .ok (some grant) =>
    have hjudged : (if grant.metadata.isDeleting then finalize grant else advance grant key).Obeys
        (fun _ _ => True) (OnSuccess (Judged grant))
        [.ofCall (.find .grant key) (.ok (some grant))] := by
      split
      · next hdeleting => exact finalize_judged hdeleting
      · next hlive => exact advance_judged (Bool.eq_false_iff.2 hlive)
    refine Obeys.mono (Program.Obeys.later hjudged) fun later result hlater => ?_
    cases result with
    | error failure => trivial
    | ok outcome =>
      refine ⟨some grant, hlater.1.mem List.mem_cons_self, fun other hother => ?_⟩
      obtain rfl := Option.some.inj hother
      exact hlater.2

end Grant

end AccessBroker
