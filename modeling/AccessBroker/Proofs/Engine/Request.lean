import AccessBroker.Proofs.Engine.Deeds
import AccessBroker.Proofs.Engine.RequestStatus

/-!
# The conduct of a pass on a request

What a pass on a request may do, in view of what it has done
(`AccessBroker.Request.Conduct`): it looks at the clock once and draws at most one
identifier, it fills in a grant only for a request that has been approved and that a
policy admits, and the status that it writes goes on from the one that it found and says
no more than what it has seen. The status that a pass carries
along is *underway* (`AccessBroker.Request.Underway`) from the moment the request is
secured until it is written.

The main result is that every pass keeps to this, whatever it is answered
(`AccessBroker.Request.reconcile_obeys`).
-/

namespace AccessBroker

open AccessBroker.Time

namespace RequestStatus

theorem state_atTime_eq_approved (status : RequestStatus) (now : Instant) :
    (status.atTime now).state = .approved ↔ status.state = .approved := by
  unfold atTime
  split
  · next h => exact iff_of_false nofun h.1
  · rfl

theorem requestId_atTime (status : RequestStatus) (now : Instant) :
    (status.atTime now).requestId = status.requestId := by
  unfold atTime
  split <;> rfl

theorem grantCreated_atTime (status : RequestStatus) (now : Instant) :
    (status.atTime now).grantCreated = status.grantCreated := by
  unfold atTime
  split <;> rfl

end RequestStatus

/-- Does a call look at the clock? -/
def Effect.isClock : Effect → Bool
  | .clock => true
  | _ => false

/-- **A pass that looks at the clock at most once reads one time off it.** -/
theorem clock_unique {allows : Conduct} {deeds : Deeds} (h : Heeds allows deeds)
    (honce : ∀ past, allows past .clock → Without Effect.isClock past) {a b : Instant}
    (ha : (⟨.clock, a⟩ : Deed passInterface) ∈ deeds)
    (hb : (⟨.clock, b⟩ : Deed passInterface) ∈ deeds) : a = b := by
  refine Decidable.byContradiction fun hne => ?_
  have hdeeds : (⟨.clock, a⟩ : Deed passInterface) ≠ ⟨.clock, b⟩ := fun heq => by
    cases heq
    exact hne rfl
  rcases h.ordered ha hb hdeeds with ⟨past, -, hearlier, hallowed⟩ | ⟨past, -, hearlier, hallowed⟩
  · cases honce past hallowed _ hearlier
  · cases honce past hallowed _ hearlier

namespace Request

variable {key : Key} {past deeds : Deeds} {start request : Request} {status : RequestStatus}

/-! ### What a pass has seen -/

/-- The pass was given an identifier. -/
def Drew (id : String) (deeds : Deeds) : Prop :=
  (⟨.freshId, id⟩ : Deed passInterface) ∈ deeds

/-- The pass works under an identifier: that of the request that it found, or a new one
if that had none. -/
def Holds (start : Request) (id : String) (deeds : Deeds) : Prop :=
  (start.body.status.requestId ≠ "" ∧ start.body.status.requestId = id) ∨
    (start.body.status.requestId = "" ∧ Drew id deeds)

/-- The pass works on a request under an identifier. -/
def WorksOn (key : Key) (request : Request) (id : String) (deeds : Deeds) : Prop :=
  ∃ start, Secured key deeds start request ∧ Holds start id deeds

/-- The pass found a rule set that decides the request. -/
def Consulted (request : Request) (entry : PolicyEntry) (deeds : Deeds) : Prop :=
  ∃ snapshot : PolicySnapshot, (⟨.policies, snapshot⟩ : Deed passInterface) ∈ deeds ∧
    snapshot.resolve request = some entry

/-- The pass heard responses to the request. -/
def Heard (request : Request) (responses : List Response) (deeds : Deeds) : Prop :=
  Deed.ofCall (.listResponses request.scope request.metadata.name) (.ok responses) ∈ deeds

/-- The pass saw the request approved: nobody denied, and as many identities approved as
the rule set that decides the request demands. -/
def Tallied (request : Request) (deeds : Deeds) : Prop :=
  ∃ entry responses, Consulted request entry deeds ∧ Heard request responses deeds ∧
    (Tally.ofResponses request.body.spec.subject responses).isDenied = false ∧
    entry.policy.requiredApprovals ≤
      (Tally.ofResponses request.body.spec.subject responses).approvals

/-- The pass was given the grant under the key of the request: a new one, or the one
that was there. -/
def Opened (request : Request) (grant : Grant) (deeds : Deeds) : Prop :=
  Deed.ofCall (.create .grant ⟨.ofKey request.key, {}⟩) (.ok grant) ∈ deeds ∨
    Deed.ofCall (.find .grant request.key) (.ok (some grant)) ∈ deeds

/-- The pass worked on a request under an identifier, and then filled in a grant for it. -/
def Supplied (key : Key) (request : Request) (id : String) (given : Grant) (deeds : Deeds) : Prop :=
  ∃ (past : Deeds) (base : Grant) (approvers : List String), WorksOn key request id past ∧
    .ofCall (.patchStatus .grant base (request.grantStatus id approvers)) (.ok given) :: past <:+
      deeds

/-- The pass knows of a grant for the request: it was given one that is filled in, or it filled
one in. -/
def Granted (key : Key) (request : Request) (id : String) (deeds : Deeds) : Prop :=
  (∃ grant, Opened request grant deeds ∧ grant.body.isPopulated = true) ∨
    ∃ given, Supplied key request id given deeds

/-- **What a grant says is taken from its request**: the identifier and the access that was
asked for. -/
theorem grantStatus_eq (request : Request) (id : String) (approvers : List String) :
    (request.grantStatus id approvers).requestId = id ∧
      (request.grantStatus id approvers).request = request.metadata.name ∧
      (request.grantStatus id approvers).subject = request.body.spec.subject ∧
      (request.grantStatus id approvers).role = request.body.spec.role ∧
      (request.grantStatus id approvers).permissions = request.body.spec.permissions ∧
      (request.grantStatus id approvers).duration = request.body.spec.duration := by
  unfold grantStatus GrantStatus.withScope
  cases request.scope <;> exact ⟨rfl, rfl, rfl, rfl, rfl, rfl⟩

/-- **A grant names the key of its request.** -/
theorem requestKey_grantStatus (request : Request) (id : String) (approvers : List String) :
    (request.grantStatus id approvers).requestKey = request.key := by
  have hkey : request.key = request.scope.key request.metadata.name := by
    rw [Object.scope, Metadata.scope, Object.key, Metadata.key, Key.scope, Scope.key]
    cases request.metadata.space <;> rfl
  rw [hkey, grantStatus]
  cases request.scope <;> rfl

theorem isPopulated_grantStatus (request : Request) {id : String} (approvers : List String)
    (hnamed : id ≠ "") : (request.grantStatus id approvers).isPopulated = true := by
  rw [GrantStatus.isPopulated, (request.grantStatus_eq id approvers).1]
  simpa using hnamed

/-! ### The status that a pass carries along -/

/-- The status has been worked out from the one that was found, at the time that the pass read off
the clock. -/
def WorkedOut (start : Request) (status : RequestStatus) (deeds : Deeds) : Prop :=
  ∃ now : Instant, (⟨.clock, now⟩ : Deed passInterface) ∈ deeds ∧
    (start.body.status.InOrder → RequestStatus.Made now start.body.status status)

theorem WorkedOut.mono (h : WorkedOut start status past) (hsuffix : past <:+ deeds) :
    WorkedOut start status deeds := by
  obtain ⟨now, hclock, hmade⟩ := h
  exact ⟨now, hsuffix.mem hclock, hmade⟩

/-- The work goes on from what has been worked out. -/
theorem WorkedOut.next {later : RequestStatus} (h : WorkedOut start status deeds)
    (hnext : ∀ now, RequestStatus.Made now start.body.status status →
      RequestStatus.Made now start.body.status later) : WorkedOut start later deeds := by
  obtain ⟨now, hclock, hmade⟩ := h
  exact ⟨now, hclock, fun horder => hnext now (hmade horder)⟩

/-- A status that a pass starts from: it has an identifier, and it says no more than the
status that was found. -/
structure Begun (start : Request) (status : RequestStatus) (past : Deeds) : Prop where
  holds : Holds start status.requestId past
  kept : start.body.status.requestId ≠ "" → start.body.status.state = .approved →
    status.state = .approved
  approved : status.state = .approved →
    start.body.status.requestId ≠ "" ∧ start.body.status.state = .approved
  created : status.grantCreated = true → start.body.status.grantCreated = true
  unwritten : Without (Effect.patches .request) past
  unfilled : Without (Effect.patches .grant) past
  workedOut : WorkedOut start status past

/-- A status that a pass has reached and not written yet. An approval was found or has
just been seen, and so was the grant. -/
structure Underway (key : Key) (start request : Request) (status : RequestStatus)
    (past : Deeds) : Prop where
  secured : Secured key past start request
  holds : Holds start status.requestId past
  /-- An approval is not taken back. -/
  kept : start.body.status.requestId ≠ "" → start.body.status.state = .approved →
    status.state = .approved
  approved : status.state = .approved →
    start.body.status.requestId ≠ "" ∧ start.body.status.state = .approved ∨
      Tallied request past
  created : status.grantCreated = true →
    start.body.status.grantCreated = true ∨ Granted key request status.requestId past
  unwritten : Without (Effect.patches .request) past
  /-- Grants are filled in for approved requests alone. -/
  unfilled : status.state = .approved ∨ Without (Effect.patches .grant) past
  /-- What was settled when the pass began still is. -/
  workedOut : WorkedOut start status past

theorem Holds.mono {id : String} (h : Holds start id past) (hsuffix : past <:+ deeds) :
    Holds start id deeds :=
  h.imp_right fun ⟨hunnamed, hdrew⟩ => ⟨hunnamed, hsuffix.mem hdrew⟩

theorem WorksOn.mono {id : String} (h : WorksOn key request id past) (hsuffix : past <:+ deeds) :
    WorksOn key request id deeds := by
  obtain ⟨start, hsecured, hholds⟩ := h
  exact ⟨start, hsecured.mono hsuffix, hholds.mono hsuffix⟩

theorem Supplied.mono {id : String} {given : Grant} (h : Supplied key request id given past)
    (hsuffix : past <:+ deeds) : Supplied key request id given deeds := by
  obtain ⟨earlier, base, approvers, hworks, hfill⟩ := h
  exact ⟨earlier, base, approvers, hworks, hfill.trans hsuffix⟩

theorem Supplied.worksOn {id : String} {given : Grant} (h : Supplied key request id given deeds) :
    WorksOn key request id deeds := by
  obtain ⟨past, base, approvers, hworks, hfill⟩ := h
  exact hworks.mono ((List.suffix_cons _ _).trans hfill)

theorem Consulted.mono {entry : PolicyEntry} (h : Consulted request entry past)
    (hsuffix : past <:+ deeds) : Consulted request entry deeds := by
  obtain ⟨snapshot, hsnapshot, hentry⟩ := h
  exact ⟨snapshot, hsuffix.mem hsnapshot, hentry⟩

theorem Tallied.mono (h : Tallied request past) (hsuffix : past <:+ deeds) :
    Tallied request deeds := by
  obtain ⟨entry, responses, hentry, hresponses, hvotes⟩ := h
  exact ⟨entry, responses, hentry.mono hsuffix, hsuffix.mem hresponses, hvotes⟩

theorem Opened.mono {grant : Grant} (h : Opened request grant past) (hsuffix : past <:+ deeds) :
    Opened request grant deeds :=
  h.imp hsuffix.mem hsuffix.mem

theorem Granted.mono {id : String} (h : Granted key request id past) (hsuffix : past <:+ deeds) :
    Granted key request id deeds := by
  rcases h with ⟨grant, hopened, hpopulated⟩ | ⟨given, hsupplied⟩
  · exact .inl ⟨grant, hopened.mono hsuffix, hpopulated⟩
  · exact .inr ⟨given, hsupplied.mono hsuffix⟩

namespace Begun

theorem cons (h : Begun start status past) (deed : Deed passInterface)
    (hrequest : deed.call.patches .request = false) (hgrant : deed.call.patches .grant = false) :
    Begun start status (deed :: past) where
  holds := h.holds.mono (List.suffix_cons _ _)
  kept := h.kept
  approved := h.approved
  created := h.created
  unwritten := h.unwritten.cons hrequest
  unfilled := h.unfilled.cons hgrant
  workedOut := h.workedOut.mono (List.suffix_cons _ _)

theorem underway (h : Begun start status past) (hsecured : Secured key past start request) :
    Underway key start request status past where
  secured := hsecured
  holds := h.holds
  kept := h.kept
  approved hstate := .inl (h.approved hstate)
  created hcreated := .inl (h.created hcreated)
  unwritten := h.unwritten
  unfilled := .inr h.unfilled
  workedOut := h.workedOut

end Begun

namespace Underway

theorem worksOn (h : Underway key start request status past) :
    WorksOn key request status.requestId past :=
  ⟨start, h.secured, h.holds⟩

theorem cons (h : Underway key start request status past) (deed : Deed passInterface)
    (hrequest : deed.call.patches .request = false)
    (hgrant : status.state = .approved ∨ deed.call.patches .grant = false) :
    Underway key start request status (deed :: past) where
  secured := h.secured.cons _
  holds := h.holds.mono (List.suffix_cons _ _)
  kept := h.kept
  approved hstate := (h.approved hstate).imp_right fun htallied =>
    htallied.mono (List.suffix_cons _ _)
  created hcreated := (h.created hcreated).imp_right fun hgranted =>
    hgranted.mono (List.suffix_cons _ _)
  unwritten := h.unwritten.cons hrequest
  unfilled := by
    rcases hgrant with hstate | hgrant
    · exact .inl hstate
    · exact h.unfilled.imp_right fun hwithout => hwithout.cons hgrant
  workedOut := h.workedOut.mono (List.suffix_cons _ _)

/-- The number of approvals that are demanded may be renewed. -/
theorem required (h : Underway key start request status past) (required : UInt32) :
    Underway key start request { status with approvalsRequired := required } past :=
  ⟨h.secured, h.holds, h.kept, h.approved, h.created, h.unwritten, h.unfilled,
    h.workedOut.next fun _ hmade => hmade.required required⟩

/-- The votes on a pending request may be counted. -/
theorem counted {entry : PolicyEntry} {responses : List Response}
    (h : Underway key start request status past) (hpending : status.state = .pending)
    (hrequired : status.approvalsRequired = entry.policy.requiredApprovals)
    (hentry : Consulted request entry past) (hheard : Heard request responses past) :
    Underway key start request
      (status.counted (Tally.ofResponses request.body.spec.subject responses)) past where
  secured := h.secured
  holds := h.holds
  kept hnamed hstate := by
    have happroved := h.kept hnamed hstate
    rw [hpending] at happroved
    cases happroved
  approved hstate := by
    refine .inr ⟨entry, responses, hentry, hheard, ?_⟩
    simp only [RequestStatus.counted] at hstate
    split at hstate
    · cases hstate
    · next hdenied =>
      split at hstate
      · next henough => exact ⟨Bool.eq_false_iff.2 hdenied, hrequired ▸ henough⟩
      · rw [hpending] at hstate
        cases hstate
  created := h.created
  unwritten := h.unwritten
  unfilled := by
    rcases h.unfilled with hstate | hwithout
    · rw [hpending] at hstate
      cases hstate
    · exact .inr hwithout
  workedOut := h.workedOut.next fun _ hmade => hmade.counted hpending _

/-- The grant of an approved request may be recorded once the pass knows of it. -/
theorem granted (h : Underway key start request status past) (happroved : status.state = .approved)
    (hgranted : Granted key request status.requestId past) :
    Underway key start request { status with grantCreated := true } past :=
  ⟨h.secured, h.holds, h.kept, h.approved, fun _ => .inr hgranted, h.unwritten, h.unfilled,
    h.workedOut.next fun _ hmade => hmade.granted happroved⟩

end Underway

/-! ### The rule of conduct -/

/-- What a pass on a request may do next. -/
inductive Conduct (key : Key) (past : Deeds) : Effect → Prop
  /-- It looks at the request, before anything else. -/
  | look (first : past = []) : Conduct key past (.store (.find .request key))
  /-- It looks at the clock, once. -/
  | clock (untimed : Without Effect.isClock past) : Conduct key past .clock
  /-- It draws an identifier for a request without one. -/
  | draw {start : Request} (found : Found key past start)
    (unnamed : start.body.status.requestId = "") : Conduct key past .freshId
  /-- It asks for the policies. -/
  | consult : Conduct key past .policies
  /-- It tells of an event. -/
  | tell (event : AccessEvent) : Conduct key past (.tell event)
  /-- It gives the request the finalizer. -/
  | secure {start : Request} (found : Found key past start)
    (live : start.metadata.isDeleting = false) (bare : start.isHeld = false) :
    Conduct key past (.store (.updateMetadata .request start.withFinalizer))
  /-- It hears responses. -/
  | hear (scope : Scope) (request : String) :
    Conduct key past (.store (.listResponses scope request))
  /-- It removes a response. -/
  | clear (response : Key) : Conduct key past (.store (.delete .response response))
  /-- It creates the empty grant of an approved request. -/
  | launch {start request : Request} {status : RequestStatus}
    (underway : Underway key start request status past) (approved : status.state = .approved) :
    Conduct key past (.store (.create .grant ⟨.ofKey request.key, {}⟩))
  /-- It looks at the grant of an approved request. -/
  | adopt {start request : Request} {status : RequestStatus}
    (underway : Underway key start request status past) (approved : status.state = .approved) :
    Conduct key past (.store (.find .grant request.key))
  /-- It fills in the grant of an approved request that a rule set admits. -/
  | fill {start request : Request} {status : RequestStatus} {entry : PolicyEntry} {grant : Grant}
    (underway : Underway key start request status past) (approved : status.state = .approved)
    (consulted : Consulted request entry past) (opened : Opened request grant past)
    (blank : grant.body.isPopulated = false) (approvers : List String) :
    Conduct key past (.store (.patchStatus .grant grant
      (request.grantStatus status.requestId approvers)))
  /-- It writes the status of the request. -/
  | write {start request : Request} {status : RequestStatus}
    (underway : Underway key start request status past) :
    Conduct key past (.store (.patchStatus .request request status))
  /-- It removes a request that has expired. -/
  | withdraw {start request : Request} (secured : Secured key past start request) :
    Conduct key past (.store (.delete .request request.key))
  /-- It takes the finalizer off a request that is being deleted. -/
  | release {start : Request} (found : Found key past start)
    (deleting : start.metadata.isDeleting = true) :
    Conduct key past (.store (.updateMetadata .request start.withoutFinalizer))

/-! ### Every pass keeps to it -/

open Pass

theorem begin_obeys {start : Request} (now : Instant) (hfound : Found key past start)
    (hclock : (⟨.clock, now⟩ : Deed passInterface) ∈ past)
    (hrequest : Without (Effect.patches .request) past)
    (hgrant : Without (Effect.patches .grant) past) :
    (start.begin now).Obeys (Conduct key)
      (OnSuccess fun past status => Begun start status past ∧ Found key past start) past := by
  unfold begin
  dsimp only
  split
  · next hempty =>
    have hunnamed : start.body.status.requestId = "" := String.isEmpty_iff.1 hempty
    refine ⟨.draw hfound hunnamed, fun id => ⟨?_, hfound.cons _⟩⟩
    refine ⟨.inr ⟨hunnamed, ?_⟩, fun hnamed => absurd hunnamed hnamed, fun hstate => ?_,
      fun hcreated => ?_, hrequest.cons rfl, hgrant.cons rfl,
      ⟨now, List.mem_cons_of_mem _ hclock, fun horder => ?_⟩⟩
    · rw [RequestStatus.requestId_atTime]
      exact List.mem_cons_self
    · rw [RequestStatus.state_atTime_eq_approved] at hstate
      cases hstate
    · rwa [RequestStatus.grantCreated_atTime] at hcreated
    · obtain ⟨hcontinues, hstate⟩ := horder.registered hunnamed id
      exact .begun hcontinues hstate fun hcreated => hstate.trans (horder.approved hcreated)
  · next hempty =>
    have hnamed : start.body.status.requestId ≠ "" := fun h => hempty (String.isEmpty_iff.2 h)
    refine obeys_pure ⟨⟨.inl ⟨hnamed, ?_⟩, fun _ hstate => ?_, fun hstate => ⟨hnamed, ?_⟩,
      fun hcreated => ?_, hrequest, hgrant, ⟨now, hclock, fun horder => ?_⟩⟩, hfound⟩
    · rw [RequestStatus.requestId_atTime]
      rfl
    · rwa [RequestStatus.state_atTime_eq_approved]
    · rwa [RequestStatus.state_atTime_eq_approved] at hstate
    · rwa [RequestStatus.grantCreated_atTime] at hcreated
    · exact .begun (.refl _) rfl horder.approved

theorem persist_obeys (h : Underway key start request status past) :
    (request.persist status).Obeys (Conduct key) (OnSuccess fun later _ => past <:+ later)
      past := by
  have htell (stored : RequestStatus) {later : Deeds} (hlater : past <:+ later) :
      (tellEach (request.transitions stored) >>= fun _ => pure stored).Obeys (Conduct key)
        (OnSuccess fun later _ => past <:+ later) later :=
    (obeys_tellEach fun _ => .tell).bind_onSuccess fun _ _ hlatest =>
      obeys_pure (hlater.trans hlatest)
  unfold persist
  split
  · exact htell status (List.suffix_refl _)
  · refine ⟨.write h, fun reply => ?_⟩
    cases reply with
    | ok updated => exact htell updated.body.status (List.suffix_cons _ _)
    | error failure => exact trivial

/-- **Removing the responses**: if nothing is reported, each that was heard is settled. -/
theorem removeResponses_sweeps {allows : AccessBroker.Conduct}
    (hhear : allows past (.store (.listResponses request.scope request.metadata.name)))
    (hclear : ∀ later response, allows later (.store (.delete .response response))) :
    request.removeResponses.Obeys allows (OnSuccess fun later _ => ∃ responses,
      .ofCall (.listResponses request.scope request.metadata.name) (.ok responses) :: past <:+
          later ∧
        ∀ response ∈ responses, Settled (.delete .response response.key) later) past := by
  refine ⟨hhear, fun reply => ?_⟩
  cases reply with
  | error failure => exact trivial
  | ok responses =>
    refine (obeys_askEach ?_).mono ?_
    · intro call hcall later _
      obtain ⟨response, -, rfl⟩ := List.mem_map.1 hcall
      exact hclear later response.key
    · intro later result h
      cases result with
      | error failure => exact trivial
      | ok _ =>
        exact ⟨responses, h.1.1, fun response hresponse =>
          h.2 _ (List.mem_map_of_mem hresponse)⟩

theorem removeResponses_obeys (request : Request) :
    request.removeResponses.Obeys (Conduct key) (OnSuccess fun later _ => past <:+ later) past := by
  refine (removeResponses_sweeps (.hear _ _) fun _ response => .clear response).mono ?_
  intro later result h
  cases result with
  | ok _ =>
    obtain ⟨responses, hsuffix, -⟩ := h
    exact (List.suffix_cons _ _).trans hsuffix
  | error failure => exact trivial

theorem finalize_obeys (hfound : Found key past start)
    (hdeleting : start.metadata.isDeleting = true) :
    start.finalize.Obeys (Conduct key) (OnSuccess fun _ _ => True) past := by
  unfold finalize
  split
  · refine (removeResponses_obeys start).bind_onSuccess fun later _ hlater => ?_
    exact obeys_tolerate (.release (hfound.mono hlater) hdeleting) fun _ _ _ => obeys_pure trivial
  · exact obeys_pure trivial

theorem expire_obeys (h : Underway key start request status past) :
    (request.expire status).Obeys (Conduct key) (OnSuccess fun _ _ => True) past := by
  unfold expire
  refine (persist_obeys h).bind_onSuccess fun later _ hlater => ?_
  refine (removeResponses_obeys request).bind_onSuccess fun latest _ hlatest => ?_
  have hsecured := h.secured.mono (hlater.trans hlatest)
  exact obeys_tolerate (.withdraw hsecured) fun _ _ _ => obeys_pure trivial

/-- **Opening the grant**: whatever comes of it, the status is still underway. -/
theorem openGrant_obeys (h : Underway key start request status past)
    (happroved : status.state = .approved) :
    request.openGrant.Obeys (Conduct key) (fun later result =>
      Underway key start request status later ∧ past <:+ later ∧
        ∀ grant, result = .ok grant → Opened request grant later) past := by
  refine ⟨.launch h happroved, fun reply => ?_⟩
  have hlaunched := h.cons (.ofCall (.create .grant ⟨.ofKey request.key, {}⟩) reply) rfl
    (.inl happroved)
  have hlater := List.suffix_cons (Deed.ofCall (.create .grant ⟨.ofKey request.key, {}⟩) reply) past
  cases reply with
  | ok grant =>
    refine ⟨hlaunched, hlater, fun opened hopened => ?_⟩
    obtain rfl := Except.ok.inj hopened
    exact .inl List.mem_cons_self
  | error failure =>
    change Pass.Obeys _ _ (ite _ _ _) _
    split
    · exact obeys_throw ⟨hlaunched, hlater, fun _ hopened => by cases hopened⟩
    · refine ⟨.adopt hlaunched happroved, fun reply => ?_⟩
      have hadopted :=
        hlaunched.cons (.ofCall (.find .grant request.key) reply) rfl (.inl happroved)
      have hlatest := hlater.trans
        (List.suffix_cons (Deed.ofCall (.find .grant request.key) reply) _)
      match reply with
      | .error failure => exact ⟨hadopted, hlatest, fun _ hopened => by cases hopened⟩
      | .ok none => exact ⟨hadopted, hlatest, fun _ hopened => by cases hopened⟩
      | .ok (some grant) =>
        refine ⟨hadopted, hlatest, fun opened hopened => ?_⟩
        obtain rfl := Except.ok.inj hopened
        exact .inr List.mem_cons_self

/-- **Creating the grant**: if it does not fail, the pass knows of a grant then. -/
theorem createGrant_obeys {entry : PolicyEntry} (h : Underway key start request status past)
    (happroved : status.state = .approved) (hentry : Consulted request entry past)
    (approvers : List String) :
    (request.createGrant status.requestId approvers).Obeys (Conduct key) (fun later result =>
      Underway key start request status later ∧
        ∀ created, result = .ok created → Granted key request status.requestId later) past := by
  refine (openGrant_obeys h happroved).bind ?_ fun _ _ h => ⟨h.1, nofun⟩
  rintro later grant ⟨hlater, hsuffix, hopened⟩
  have hopened := hopened grant rfl
  split
  · next hblank =>
    have hblank : grant.body.isPopulated = false := by simpa using hblank
    refine ⟨.fill hlater happroved (hentry.mono hsuffix) hopened hblank approvers, fun reply => ?_⟩
    have hfilled := hlater.cons (.ofCall (.patchStatus .grant grant
      (request.grantStatus status.requestId approvers)) reply) rfl (.inl happroved)
    cases reply with
    | ok filled =>
      refine ⟨hfilled, fun _ _ => .inr ⟨filled, later, grant, approvers, hlater.worksOn, ?_⟩⟩
      exact List.suffix_refl _
    | error failure => exact ⟨hfilled, fun _ hcreated => by cases hcreated⟩
  · next hpopulated =>
    have hpopulated : grant.body.isPopulated = true := by simpa using hpopulated
    exact obeys_pure ⟨hlater, fun _ _ => .inl ⟨grant, hopened, hpopulated⟩⟩

/-- Creating the grant in the name of those who approved, who are heard again if they
have not just been. -/
theorem granting_obeys {entry : PolicyEntry} (votes : Option Tally)
    (h : Underway key start request status past) (happroved : status.state = .approved)
    (hentry : Consulted request entry past) :
    Pass.Obeys (Conduct key) (fun later result => Underway key start request status later ∧
        ∀ created, result = .ok created → Granted key request status.requestId later)
      (do request.createGrant status.requestId
            (← (votes.map pure).getD request.tally).approvers.toList) past := by
  cases votes with
  | some votes => exact createGrant_obeys h happroved hentry _
  | none =>
    refine ⟨.hear _ _, fun reply => ?_⟩
    have hheard := h.cons (.ofCall (.listResponses request.scope request.metadata.name) reply) rfl
      (.inr rfl)
    cases reply with
    | ok responses =>
      exact createGrant_obeys hheard happroved (hentry.mono (List.suffix_cons _ _)) _
    | error failure => exact ⟨hheard, fun _ hcreated => by cases hcreated⟩

/-- **Following the status**: what has been reached is underway, also where something
failed. -/
theorem follow_obeys {entry : PolicyEntry} (now : Instant) (votes : Option Tally)
    (h : Underway key start request status past) (hentry : Consulted request entry past) :
    (request.follow now status votes).Obeys (Conduct key)
      (fun later result => Underway key start request result.1 later) past := by
  unfold follow
  split
  · exact h
  · exact h
  · exact h
  · next happroved =>
    split
    · exact h
    · refine Program.obeys_bind ((granting_obeys votes h happroved hentry).mono ?_)
      rintro later result ⟨hlater, hgranted⟩
      cases result with
      | ok created => exact hlater.granted happroved (hgranted created rfl)
      | error failure => exact hlater

/-- **Deciding**, likewise. -/
theorem decide_obeys (now : Instant) (h : Underway key start request status past) :
    (request.decide now status).Obeys (Conduct key)
      (fun later result => Underway key start request result.1 later) past := by
  have hask : Program.Obeys (Conduct key) (fun later snapshot =>
      Underway key start request status later ∧
        (⟨.policies, snapshot⟩ : Deed passInterface) ∈ later)
      (Program.call (I := passInterface) .policies) past :=
    Program.obeys_call .consult fun snapshot => ⟨h.cons ⟨.policies, snapshot⟩ rfl (.inr rfl),
      List.mem_cons_self⟩
  refine Program.obeys_bind (hask.mono ?_)
  rintro later snapshot ⟨hconsulted, hsnapshot⟩
  split
  · exact hconsulted
  · next entry hresolve =>
    have hentry : Consulted request entry later := ⟨snapshot, hsnapshot, hresolve⟩
    have hrequired := hconsulted.required entry.policy.requiredApprovals
    dsimp only
    split
    · next hpending =>
      refine ⟨.hear _ _, fun reply => ?_⟩
      have hheard := hrequired.cons (.ofCall (.listResponses request.scope request.metadata.name)
        reply) rfl (.inr rfl)
      have hentry := hentry.mono (List.suffix_cons (Deed.ofCall
        (.listResponses request.scope request.metadata.name) reply) _)
      cases reply with
      | error failure => exact hheard
      | ok responses =>
        exact follow_obeys now _ (hheard.counted hpending rfl hentry List.mem_cons_self) hentry
    · exact follow_obeys now none hrequired hentry

theorem advance_obeys (hfirst : past = [.ofCall (.find .request key) (.ok (some start))])
    (hlive : start.metadata.isDeleting = false) :
    start.advance.Obeys (Conduct key) (OnSuccess fun _ _ => True) past := by
  subst hfirst
  refine ⟨.clock ((without_nil _).cons rfl), fun now => ?_⟩
  have hfound : Found key [⟨.clock, now⟩, .ofCall (.find .request key) (.ok (some start))] start :=
    List.mem_cons_of_mem _ List.mem_cons_self
  have hpatches (kind : Kind) : Without (Effect.patches kind)
      [⟨.clock, now⟩, .ofCall (.find .request key) (.ok (some start))] :=
    ((without_nil _).cons rfl).cons rfl
  refine (begin_obeys now hfound List.mem_cons_self (hpatches .request)
    (hpatches .grant)).bind_onSuccess ?_
  rintro past status ⟨hbegun, hfound⟩
  have hsecure : start.ensureFinalizer.Obeys (Conduct key)
      (OnSuccess fun later request => Underway key start request status later) past := by
    refine obeys_secure hfound hlive (.secure hfound hlive) ?_ ?_ fun _ _ => trivial
    · exact fun hsecured => hbegun.underway hsecured
    · exact fun request hsecured => (hbegun.cons _ rfl rfl).underway hsecured
  refine hsecure.bind_onSuccess fun past request hunderway => ?_
  split
  · exact expire_obeys hunderway
  · refine obeys_bind (obeys_lift ((decide_obeys now hunderway).mono fun later result hlater => ?_))
    refine (persist_obeys hlater).bind_onSuccess fun _ _ _ => ?_
    exact obeys_result (onSuccess_true result.2)

/-- **Every pass on a request keeps to the rule of conduct**, whatever it is answered. -/
theorem reconcile_obeys (key : Key) :
    (reconcile key).Obeys (Conduct key) (OnSuccess fun _ _ => True) [] := by
  refine ⟨.look rfl, fun reply => ?_⟩
  match reply with
  | .error failure => exact trivial
  | .ok none => exact trivial
  | .ok (some start) =>
    change Pass.Obeys _ _ (if start.metadata.isDeleting then finalize start else advance start) _
    split
    · next hdeleting => exact finalize_obeys List.mem_cons_self hdeleting
    · next hlive => exact advance_obeys rfl (Bool.eq_false_iff.2 hlive)

end Request

end AccessBroker
