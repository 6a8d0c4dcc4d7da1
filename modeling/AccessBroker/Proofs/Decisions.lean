import AccessBroker.Proofs.Answers
import AccessBroker.Proofs.Approvals
import Mathlib.Data.Finset.Card

/-!
# What decides a pending request

The votes on a request come as a list of responses, in some order and with repetitions. What a pass
makes of them is a function of the ballots (`AccessBroker.Ballots.ofResponses`), the set of pairs of
an identity other than the subject and a vote of it: whether the request is decided, how many
approvals are recorded, and who is named in the grant.

Two things are shown. **A tally is a set of ballots**: its two sets of names have as members the
identities with an approving and with a denying ballot, so the state that follows from counting is
the one that the ballots call for (`AccessBroker.RequestStatus.DecidedBy`). And **the pass writes
nothing else**: whatever its calls are answered, as long as it gets to the count, it writes no
status of the request but one with that state, and no status of a grant but one that names those who
approved (`AccessBroker.Effect.Writes`).
-/

namespace AccessBroker

open AccessBroker.Time AccessBroker.Text AccessBroker.Pass

/-! ### Ballots -/

/-- Who voted what. -/
abbrev Ballots := Finset (String × Decision)

namespace Ballots

variable {subject voter : String} {vote : Decision} {responses others : List Response}

/-- The ballots on a request of `subject`, whose own votes are void. -/
def ofResponses (subject : String) (responses : List Response) : Ballots :=
  ((responses.filter fun response => response.body.approver ≠ subject).map fun response =>
    (response.body.approver, response.body.response)).toFinset

/-- The identities that approved. -/
def approvers (ballots : Ballots) : Finset String :=
  (ballots.filter fun ballot => ballot.2 = .approved).image Prod.fst

/-- Somebody denied. -/
def IsDenied (ballots : Ballots) : Prop :=
  ∃ voter, (voter, Decision.denied) ∈ ballots

theorem mem_ofResponses : (voter, vote) ∈ ofResponses subject responses ↔
    voter ≠ subject ∧ ∃ response ∈ responses,
      response.body.approver = voter ∧ response.body.response = vote := by
  simp only [ofResponses, List.mem_toFinset, List.mem_map, List.mem_filter, decide_eq_true_eq,
    Prod.mk.injEq]
  constructor
  · rintro ⟨response, ⟨hresponse, hother⟩, rfl, rfl⟩
    exact ⟨hother, response, hresponse, rfl, rfl⟩
  · rintro ⟨hother, response, hresponse, rfl, rfl⟩
    exact ⟨response, ⟨hresponse, hother⟩, rfl, rfl⟩

@[simp]
theorem mem_approvers {ballots : Ballots} :
    voter ∈ ballots.approvers ↔ (voter, Decision.approved) ∈ ballots := by
  simp [approvers]

/-- **Order, repetitions and the votes of the subject do not matter.** -/
theorem ofResponses_congr (h : ∀ response : Response, response.body.approver ≠ subject →
    (response ∈ others ↔ response ∈ responses)) :
    ofResponses subject others = ofResponses subject responses := by
  ext ⟨voter, vote⟩
  rw [mem_ofResponses, mem_ofResponses]
  refine and_congr_right fun hother => exists_congr fun response => ?_
  constructor
  · rintro ⟨hresponse, rfl, hvote⟩
    exact ⟨(h response hother).1 hresponse, rfl, hvote⟩
  · rintro ⟨hresponse, rfl, hvote⟩
    exact ⟨(h response hother).2 hresponse, rfl, hvote⟩

/-! ### Tallies of ballots -/

theorem isDenied_ofResponses : (Tally.ofResponses subject responses).isDenied = true ↔
    (ofResponses subject responses).IsDenied := by
  have hsome : (Tally.ofResponses subject responses).isDenied = true ↔
      ∃ voter, voter ∈ (Tally.ofResponses subject responses).deniers := by
    rw [Tally.isDenied, NameSet.isEmpty, Bool.not_eq_true', List.isEmpty_eq_false_iff_exists_mem]
    rfl
  rw [hsome]
  exact exists_congr fun voter => Tally.mem_deniers.trans mem_ofResponses.symm

theorem mem_approvers_ofResponses :
    voter ∈ (Tally.ofResponses subject responses).approvers.toList ↔
      voter ∈ (ofResponses subject responses).approvers :=
  Tally.mem_approvers.trans (mem_ofResponses.symm.trans mem_approvers.symm)

theorem card_approvers_ofResponses : (Tally.ofResponses subject responses).approvers.size =
    (ofResponses subject responses).approvers.card := by
  rw [NameSet.size, ← List.toFinset_card_of_nodup (NameSet.nodup_toList _)]
  congr 1
  ext voter
  rw [List.mem_toFinset, mem_approvers_ofResponses]

/-- **The tally is a function of the ballots.** -/
theorem tally_eq (h : ofResponses subject others = ofResponses subject responses) :
    Tally.ofResponses subject others = Tally.ofResponses subject responses := by
  have hmem (voter : String) (vote : Decision) : (voter, vote) ∈ ofResponses subject others ↔
      (voter, vote) ∈ ofResponses subject responses := by
    rw [h]
  refine congrArg₂ Tally.mk (NameSet.ext fun voter => ?_) (NameSet.ext fun voter => ?_)
  · exact Tally.mem_approvers.trans (mem_ofResponses.symm.trans
      ((hmem voter .approved).trans (mem_ofResponses.trans Tally.mem_approvers.symm)))
  · exact Tally.mem_deniers.trans (mem_ofResponses.symm.trans
      ((hmem voter .denied).trans (mem_ofResponses.trans Tally.mem_deniers.symm)))

end Ballots

namespace RequestStatus

variable {status : RequestStatus} {subject : String} {responses : List Response}

/-- A status says what ballots come to where some number of approvals is required. -/
structure DecidedBy (status : RequestStatus) (required : UInt32) (ballots : Ballots) : Prop where
  denied : status.state = .denied ↔ ballots.IsDenied
  approved : status.state = .approved ↔
    ¬ballots.IsDenied ∧ required.toNat ≤ ballots.approvers.card
  pending : status.state = .pending ↔
    ¬ballots.IsDenied ∧ ballots.approvers.card < required.toNat
  received : status.approvalsReceived.toNat = min ballots.approvers.card (UInt32.size - 1)

/-- Nothing else of the status matters. -/
theorem DecidedBy.congr {other : RequestStatus} {required : UInt32} {ballots : Ballots}
    (h : status.DecidedBy required ballots) (hstate : other.state = status.state)
    (hreceived : other.approvalsReceived = status.approvalsReceived) :
    other.DecidedBy required ballots :=
  ⟨hstate ▸ h.denied, hstate ▸ h.approved, hstate ▸ h.pending, hreceived ▸ h.received⟩

/-- **Counting the votes decides by the ballots.** -/
theorem decidedBy_counted (hpending : status.state = .pending) :
    (status.counted (Tally.ofResponses subject responses)).DecidedBy status.approvalsRequired
      (Ballots.ofResponses subject responses) := by
  have hreceived : (status.counted (Tally.ofResponses subject responses)).approvalsReceived.toNat =
      min (Ballots.ofResponses subject responses).approvers.card (UInt32.size - 1) := by
    rw [← Ballots.card_approvers_ofResponses]
    exact Tally.approvals_toNat _
  have hrequired : status.approvalsRequired ≤ (Tally.ofResponses subject responses).approvals ↔
      status.approvalsRequired.toNat ≤ (Ballots.ofResponses subject responses).approvers.card := by
    rw [← Ballots.card_approvers_ofResponses]
    exact Tally.le_approvals_iff _ _
  by_cases hdenied : (Ballots.ofResponses subject responses).IsDenied
  · have hstate : (status.counted (Tally.ofResponses subject responses)).state = .denied :=
      if_pos (Ballots.isDenied_ofResponses.2 hdenied)
    exact ⟨by simp [hstate, hdenied], by simp [hstate, hdenied], by simp [hstate, hdenied],
      hreceived⟩
  · have hundenied : (Tally.ofResponses subject responses).isDenied = false :=
      Bool.eq_false_iff.2 fun h => hdenied (Ballots.isDenied_ofResponses.1 h)
    by_cases henough : status.approvalsRequired.toNat ≤
        (Ballots.ofResponses subject responses).approvers.card
    · have hstate : (status.counted (Tally.ofResponses subject responses)).state = .approved := by
        simp [counted, hundenied, hrequired.2 henough]
      exact ⟨by simp [hstate, hdenied], by simp [hstate, hdenied, henough],
        by simp [hstate, henough], hreceived⟩
    · have hstate : (status.counted (Tally.ofResponses subject responses)).state = .pending := by
        simp [counted, hundenied, hpending, mt hrequired.1 henough]
      exact ⟨by simp [hstate, hdenied], by simp [hstate, henough],
        by simp [hstate, hdenied, Nat.lt_of_not_le henough], hreceived⟩

end RequestStatus

/-! ### Statuses that are written -/

/-- A rule of conduct on the writes of statuses: which are allowed on requests, and which on
grants. -/
def Effect.Writes (onRequest : Request → RequestStatus → Prop) (onGrant : GrantStatus → Prop) :
    Effect → Prop
  | .store (.patchStatus .request base status) => onRequest base status
  | .store (.patchStatus .grant _ status) => onGrant status
  | _ => True

theorem Effect.Writes.mono {onRequest onRequest' : Request → RequestStatus → Prop}
    {onGrant onGrant' : GrantStatus → Prop} {effect : Effect} (h : effect.Writes onRequest onGrant)
    (hrequest : ∀ base status, onRequest base status → onRequest' base status)
    (hgrant : ∀ status, onGrant status → onGrant' status) : effect.Writes onRequest' onGrant' := by
  unfold Writes at h ⊢
  split
  · exact hrequest _ _ h
  · exact hgrant _ h
  · exact trivial

/-- No status has been written. -/
def Unwritten (deeds : Deeds) : Prop :=
  ∀ deed ∈ deeds, Effect.Writes (fun _ _ => False) (fun _ => False) deed.call

theorem Unwritten.cons {past : Deeds} (h : Unwritten past) (deed : Deed passInterface)
    (hdeed : Effect.Writes (fun _ _ => False) (fun _ => False) deed.call) :
    Unwritten (deed :: past) :=
  List.forall_mem_cons.2 ⟨hdeed, h⟩

namespace Request

/-- What a pass on a pending request finds that gets to the count of the votes before the deadline:
the request `start` under its key, which becomes `request` when it is secured, a rule set that
decides on it, and some responses to it. All else is left open. -/
structure Deciding (answers : Answers) (key : Key) (start request : Request) (now : Instant)
    (entry : PolicyEntry) (responses : List Response) : Prop where
  found : answers [] (.store (.find .request key)) = .ok (some start)
  live : start.metadata.isDeleting = false
  pending : start.body.status.state = .pending
  clock (past : Deeds) : answers past .clock = now
  early : ¬start.body.status.expiresAt.getD (now.after decisionWindow) < now
  secured : start.isHeld = true ∧ request = start ∨ start.isHeld = false ∧ ∀ past,
    answers past (.store (.updateMetadata .request start.withFinalizer)) = .ok request
  matched (past : Deeds) : PolicySnapshot.resolve (answers past .policies) request = some entry
  heard (past : Deeds) : answers past
    (.store (.listResponses request.scope request.metadata.name)) = .ok responses

variable {answers : Answers} {key : Key} {start request : Request} {now : Instant}
  {entry : PolicyEntry} {responses : List Response} {past : Deeds} {status : RequestStatus}

/-! ### Up to the count -/

theorem state_begun (hpending : status.state = .pending)
    (hearly : ¬status.expiresAt.getD (now.after decisionWindow) < now) :
    ((status.withDeadline now).atTime now).state = .pending := by
  have hdue : (status.withDeadline now).isOverdue now = false := by
    simpa [RequestStatus.isOverdue, RequestStatus.withDeadline] using hearly
  rw [RequestStatus.atTime, hdue, if_neg (by simp)]
  exact hpending

/-- A pass starts from a status that is pending still. -/
theorem begin_writes (hpending : start.body.status.state = .pending)
    (hearly : ¬start.body.status.expiresAt.getD (now.after decisionWindow) < now) :
    (start.begin now).Obeys (fun _ => Effect.Writes (fun _ _ => False) fun _ => False)
      (fun _ result => ∃ status, result = .ok status ∧ status.state = .pending) past := by
  unfold begin
  dsimp only
  split
  · exact ⟨trivial, fun id => ⟨_, rfl, state_begun rfl hearly⟩⟩
  · exact obeys_pure ⟨_, rfl, state_begun hpending hearly⟩

/-- The call that makes sure that the request stays stored writes no status. -/
theorem ensureFinalizer_run (h : Deciding answers key start request now entry responses)
    (hpast : Unwritten past) :
    ∃ later, start.ensureFinalizer.run.run answers.record past = (.ok request, later) ∧
      Unwritten later := by
  unfold ensureFinalizer
  split
  · next hfinalizer =>
    rcases h.secured with ⟨-, rfl⟩ | ⟨hfree, -⟩
    · exact ⟨past, rfl, hpast⟩
    · exact absurd hfinalizer (Bool.eq_false_iff.1 hfree)
  · next hfinalizer =>
    rcases h.secured with ⟨hheld, -⟩ | ⟨-, hanswer⟩
    · exact absurd hheld hfinalizer
    · exact ⟨_, Prod.ext (hanswer past) rfl, hpast.cons _ trivial⟩

/-- The votes are those of the responses. -/
theorem tally_run (h : Deciding answers key start request now entry responses) (past : Deeds) :
    request.tally.run.run answers.record past =
      (.ok (Tally.ofResponses request.body.spec.subject responses),
        .ofCall (.listResponses request.scope request.metadata.name) (.ok responses) :: past) := by
  have hanswer := h.heard past
  refine run_bind_of_ok (Prod.ext hanswer ?_)
  exact congrArg (fun reply => Deed.ofCall _ reply :: past) hanswer

/-- **Deciding comes to counting**: the status in which the votes are counted is followed. -/
theorem decide_run (h : Deciding answers key start request now entry responses)
    (hpending : status.state = .pending) (hpast : Unwritten past) :
    ∃ later, Unwritten later ∧ (request.decide now status).run answers.record past =
      (let required : RequestStatus :=
        { status with approvalsRequired := entry.policy.requiredApprovals }
       let votes := Tally.ofResponses request.body.spec.subject responses
       request.follow now (required.counted votes) (some votes)).run answers.record later := by
  have hconsulted : Unwritten (⟨.policies, answers past .policies⟩ :: past) := hpast.cons _ trivial
  refine ⟨_, hconsulted.cons (.ofCall (.listResponses request.scope request.metadata.name)
    (.ok responses)) trivial, ?_⟩
  have hpolicies : (Program.call (I := passInterface) .policies).run answers.record past =
      (answers past .policies, ⟨.policies, answers past .policies⟩ :: past) := rfl
  unfold decide
  rw [Program.run_bind_of_eq hpolicies, h.matched past]
  dsimp only
  rw [if_pos hpending, Program.run_bind_of_eq (tally_run h _)]

/-! ### After the count -/

theorem approvedBy_grantStatus (request : Request) (id : String) (approvers : List String) :
    (request.grantStatus id approvers).approvedBy = approvers := by
  unfold grantStatus GrantStatus.withScope
  cases request.scope <;> rfl

theorem createGrant_writes {onGrant : GrantStatus → Prop} (id : String) (approvers : List String)
    (hgrant : onGrant (request.grantStatus id approvers)) :
    (request.createGrant id approvers).Obeys (fun _ => Effect.Writes (fun _ _ => False) onGrant)
      (fun _ _ => True) past := by
  have hopen : request.openGrant.Obeys (fun _ => Effect.Writes (fun _ _ => False) onGrant)
      (fun _ _ => True) past := by
    refine ⟨trivial, fun reply => ?_⟩
    cases reply with
    | ok grant => exact trivial
    | error failure =>
      change Pass.Obeys _ _ (ite _ _ _) _
      split
      · exact obeys_throw trivial
      · refine ⟨trivial, fun reply => ?_⟩
        match reply with
        | .error failure => exact trivial
        | .ok none => exact trivial
        | .ok (some grant) => exact trivial
  refine hopen.bind (fun later grant _ => ?_) fun _ _ _ => trivial
  split
  · exact ⟨hgrant, fun reply => by cases reply <;> trivial⟩
  · exact obeys_pure trivial

theorem follow_writes (votes : Tally) :
    (request.follow now status (some votes)).Obeys
      (fun _ => Effect.Writes (fun _ _ => False) fun granted =>
        status.state = .approved ∧ granted.approvedBy = votes.approvers.toList)
      (fun _ result => result.1.state = status.state ∧
        result.1.approvalsReceived = status.approvalsReceived) past := by
  unfold follow
  split
  · exact ⟨rfl, rfl⟩
  · exact ⟨rfl, rfl⟩
  · exact ⟨rfl, rfl⟩
  · next happroved =>
    split
    · exact ⟨rfl, rfl⟩
    · refine Program.obeys_bind ((createGrant_writes status.requestId _
        ⟨happroved, approvedBy_grantStatus _ _ _⟩).mono fun later result _ => ?_)
      cases result with
      | ok created => exact ⟨rfl, rfl⟩
      | error failure => exact ⟨rfl, rfl⟩

theorem persist_writes (onGrant : GrantStatus → Prop) :
    (request.persist status).Obeys
      (fun _ => Effect.Writes (fun base written => base = request ∧ written = status) onGrant)
      (fun later _ => request.body.status = status ∨
        ∃ reply, Deed.ofCall (.patchStatus .request request status) reply ∈ later) past := by
  have htell (stored : RequestStatus) (later : Deeds) :
      (tellEach (request.transitions stored) >>= fun _ => pure stored).Obeys
        (fun _ => Effect.Writes (fun base written => base = request ∧ written = status) onGrant)
        (fun latest _ => later <:+ latest) later :=
    (obeys_tellEach_any fun _ _ => trivial).bind (fun _ _ h => obeys_pure h.1) fun _ _ h => h.1
  unfold persist
  split
  · next heq => exact (htell status past).mono fun _ _ _ => .inl heq
  · refine ⟨⟨rfl, rfl⟩, fun reply => ?_⟩
    cases reply with
    | ok updated =>
      exact (htell updated.body.status _).mono fun _ _ h => .inr ⟨_, h.mem List.mem_cons_self⟩
    | error failure => exact .inr ⟨_, List.mem_cons_self⟩

theorem persist_bind_writes (onGrant : GrantStatus → Prop) (outcome : Except Failure Outcome) :
    (do
      let _ ← request.persist status
      ExceptT.mk (pure outcome) : Pass Outcome).Obeys
        (fun _ => Effect.Writes (fun base written => base = request ∧ written = status) onGrant)
        (fun later _ => request.body.status = status ∨
          ∃ reply, Deed.ofCall (.patchStatus .request request status) reply ∈ later) past :=
  (persist_writes onGrant).bind (fun _ _ h => obeys_result h) fun _ _ h => h

/-! ### The whole pass -/

/-- **A pass comes to counting**: what it does after the count is to follow the status and to write
what has been reached. -/
theorem reconcile_run (h : Deciding answers key start request now entry responses) :
    ∃ (status : RequestStatus) (past : Deeds), status.state = .pending ∧
      status.approvalsRequired = entry.policy.requiredApprovals ∧ Unwritten past ∧
      (reconcile key).run.run answers.record [] =
        (do
          let votes := Tally.ofResponses request.body.spec.subject responses
          let (status, outcome) ←
            ExceptT.lift (request.follow now (status.counted votes) (some votes))
          let _ ← request.persist status
          ExceptT.mk (pure outcome) : Pass Outcome).run.run answers.record past := by
  have hfind : (Pass.ask (.find .request key)).run.run answers.record [] =
      (.ok (some start), [.ofCall (.find .request key) (.ok (some start))]) :=
    Prod.ext h.found (congrArg (fun reply => [Deed.ofCall _ reply]) h.found)
  have hclock (past : Deeds) :
      Pass.clock.run.run answers.record past = (.ok now, ⟨.clock, now⟩ :: past) :=
    Prod.ext (congrArg Except.ok (h.clock past))
      (congrArg (fun time => (⟨.clock, time⟩ : Deed passInterface) :: past) (h.clock past))
  have hlooked : Unwritten [⟨.clock, now⟩, .ofCall (.find .request key) (.ok (some start))] := by
    intro deed hdeed
    rcases List.mem_pair.1 hdeed with rfl | rfl <;> exact trivial
  obtain ⟨hbegun, status, hbegin, hpending⟩ :=
    (begin_writes h.pending h.early).answered hlooked answers
  obtain ⟨secured, hsecure, hsecured⟩ := ensureFinalizer_run h hbegun
  obtain ⟨later, hlater, hdecide⟩ := decide_run h hpending hsecured
  refine ⟨{ status with approvalsRequired := entry.policy.requiredApprovals }, later, hpending, rfl,
    hlater, ?_⟩
  -- Every part before the count comes to a known value; only the deeds differ.
  unfold reconcile
  rw [run_bind_of_ok hfind]
  dsimp only
  rw [if_neg (by simp [h.live])]
  unfold advance
  rw [run_bind_of_ok (hclock _), run_bind_of_ok (Prod.ext hbegin rfl), run_bind_of_ok hsecure,
    if_neg (by simp [hpending]), run_lift_bind, run_lift_bind, hdecide]

/-- **All that a pass writes** is the status that the ballots call for, and the grant of an approved
request in the name of those who were counted. -/
theorem reconcile_writes (h : Deciding answers key start request now entry responses) :
    ∃ status : RequestStatus,
      status.DecidedBy entry.policy.requiredApprovals
        (Ballots.ofResponses request.body.spec.subject responses) ∧
      (∀ deed ∈ ((reconcile key).run.run answers.record []).2, Effect.Writes
        (fun base written => base = request ∧ written = status)
        (fun granted => status.state = .approved ∧ granted.approvedBy =
          (Tally.ofResponses request.body.spec.subject responses).approvers.toList) deed.call) ∧
      (request.body.status = status ∨ ∃ reply, Deed.ofCall (.patchStatus .request request status)
        reply ∈ ((reconcile key).run.run answers.record []).2) := by
  obtain ⟨status, past, hpending, hrequired, hpast, hrun⟩ := reconcile_run h
  have hdecided : (status.counted
      (Tally.ofResponses request.body.spec.subject responses)).DecidedBy
        entry.policy.requiredApprovals
        (Ballots.ofResponses request.body.spec.subject responses) :=
    hrequired ▸ RequestStatus.decidedBy_counted hpending
  obtain ⟨hfollowed, hstate, hreceived⟩ := (follow_writes _).answered
    (fun deed hdeed => (hpast deed hdeed).mono (fun _ _ h => h) (fun _ h => h.elim)) answers
  refine ⟨_, hdecided.congr hstate hreceived, ?_⟩
  rw [hrun]
  dsimp only
  rw [run_lift_bind]
  -- No status of the request was written so far, so whichever is written now is the only one.
  refine Program.Obeys.answered (persist_bind_writes _ _) ?_ answers
  intro deed hdeed
  exact (hfollowed deed hdeed).mono (fun _ _ h => h.elim) fun _ h => ⟨hstate.trans h.1, h.2⟩

/-- **A decision depends on who else voted what.** A pass on a pending request, before its deadline,
on which some rule set decides, takes the state and the number of approvals from the ballots alone
and writes them unless they are there already; it writes no other status of the request. If it fills
in a grant, the ballots have approved the request, and those named in the grant are the identities
that approved, in ascending order. The ballots in turn, and with them the tally from which the pass
goes on, are the same for responses in another order, with repetitions, and with other votes of the
subject. -/
theorem decided_by_ballots (h : Deciding answers key start request now entry responses) :
    let subject := request.body.spec.subject
    let ballots := Ballots.ofResponses subject responses
    let required := entry.policy.requiredApprovals
    let deeds := ((reconcile key).run.run answers.record []).2
    (∃ status : RequestStatus, status.DecidedBy required ballots ∧
      (request.body.status = status ∨
        ∃ reply, Deed.ofCall (.patchStatus .request request status) reply ∈ deeds) ∧
      ∀ base written reply, Deed.ofCall (.patchStatus .request base written) reply ∈ deeds →
        base = request ∧ written = status) ∧
    (∀ grant granted reply, Deed.ofCall (.patchStatus .grant grant granted) reply ∈ deeds →
      (¬ballots.IsDenied ∧ required.toNat ≤ ballots.approvers.card) ∧
      granted.approvedBy.Pairwise (· < ·) ∧
      ∀ voter, voter ∈ granted.approvedBy ↔ voter ∈ ballots.approvers) ∧
    ∀ others : List Response, (∀ response : Response, response.body.approver ≠ subject →
      (response ∈ others ↔ response ∈ responses)) →
        Ballots.ofResponses subject others = ballots ∧
        Tally.ofResponses subject others = Tally.ofResponses subject responses := by
  intro subject ballots required deeds
  obtain ⟨status, hdecided, hwrites, hwritten⟩ := reconcile_writes h
  refine ⟨⟨status, hdecided, hwritten, fun base written reply hdeed => hwrites _ hdeed⟩,
    fun grant granted reply hdeed => ?_, fun others hothers => ?_⟩
  · obtain ⟨happroved, hnamed⟩ := hwrites _ hdeed
    rw [hnamed]
    exact ⟨hdecided.approved.1 happroved,
      (Tally.ofResponses subject responses).approvers.ascending,
      fun voter => Ballots.mem_approvers_ofResponses⟩
  · have hballots := Ballots.ofResponses_congr hothers
    exact ⟨hballots, Ballots.tally_eq hballots⟩

/-- What a pass on the request of alice is answered when bob has approved it twice and alice has
denied it. No grant can be created. -/
def voted : Answers
  | _, .store (.find .request _) => .ok (some (Cluster.Scenario.request "alice"))
  | _, .store (.updateMetadata .request object) => .ok object
  | _, .store (.listResponses _ _) => .ok
    [Cluster.Scenario.vote "a" "bob" .approved, Cluster.Scenario.vote "b" "alice" .denied,
      Cluster.Scenario.vote "c" "bob" .approved]
  | _, .store _ => .error (.internal "unavailable")
  | _, .tell _ => .ok ()
  | _, .policies => { entries := PolicyEntry.ofPolicy Cluster.Scenario.policy }
  | _, .clock => .epoch
  | _, .freshId => "id"

/-- The pass writes down that the request is approved, by one identity. -/
theorem decided_alice : ∃ status : RequestStatus,
    status.state = .approved ∧ status.approvalsReceived.toNat = 1 ∧
    ∃ base reply, Deed.ofCall (.patchStatus .request base status) reply ∈
      ((reconcile Cluster.Scenario.place).run.run voted.record []).2 := by
  let start := Cluster.Scenario.request "alice"
  let votes := [Cluster.Scenario.vote "a" "bob" .approved,
    Cluster.Scenario.vote "b" "alice" .denied, Cluster.Scenario.vote "c" "bob" .approved]
  let entry : PolicyEntry :=
    ⟨"p", .namespaced "team", 0, Cluster.Scenario.policy.body.policies.head (by decide)⟩
  have hmatched : ({ entries := PolicyEntry.ofPolicy Cluster.Scenario.policy } :
      PolicySnapshot).resolve start.withFinalizer = some entry := by decide
  have h : Deciding voted Cluster.Scenario.place start start.withFinalizer .epoch entry votes :=
    ⟨rfl, rfl, rfl, fun _ => rfl, by decide, .inr ⟨by decide, fun _ => rfl⟩, fun _ => hmatched,
      fun _ => rfl⟩
  obtain ⟨⟨status, hdecided, hwritten, -⟩, -, -⟩ := decided_by_ballots h
  have hundenied : ¬(Ballots.ofResponses "alice" votes).IsDenied := fun hdenied =>
    absurd (Ballots.isDenied_ofResponses.2 hdenied) (by decide)
  have happroved : status.state = .approved := hdecided.approved.2 ⟨hundenied, by decide⟩
  refine ⟨status, happroved, hdecided.received.trans (by decide), ?_⟩
  rcases hwritten with hkept | ⟨reply, hreply⟩
  · rw [← hkept] at happroved
    cases happroved
  · exact ⟨_, reply, hreply⟩

end Request

end AccessBroker
