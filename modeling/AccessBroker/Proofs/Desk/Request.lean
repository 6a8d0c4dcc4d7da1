import AccessBroker.Engine.Request
import AccessBroker.Proofs.Desk.Basic
import AccessBroker.Proofs.Engine.Telling

/-!
# Passes on a request left to themselves

What a pass on a request that nobody interferes with comes to. As long as its deadline has not ended
the request, the pass works out a status and an outcome from what lies on the desk
(`AccessBroker.Request.decided`), and works out the same again from that status
(`AccessBroker.Request.decided_decided`): what was decided stays decided, votes that were counted
come to the same number, and a grant that was recorded is not opened again.

So the request comes to rest (`AccessBroker.Request.AtRest`): a pass on a request at rest leaves
everything as it is, and ends as the one before. The one pass that does not bring its request to
rest is the one that expires it, since the request is only marked as deleting then; the next pass
takes it the last steps (`AccessBroker.Request.ends_reconcile`).
-/

namespace AccessBroker

open AccessBroker.Time

/-! ### The status between two passes -/

namespace RequestStatus

variable {now : Instant} {status : RequestStatus}

/-- A pass that starts from the status has nothing to do before it decides: there are an identifier
and a deadline, and the deadline has not ended the request. -/
structure IsRunning (now : Instant) (status : RequestStatus) : Prop where
  named : status.requestId.isEmpty = false
  dated : status.expiresAt.isSome = true
  timely : status.state ≠ .approved → status.isOverdue now = false
  unexpired : status.state ≠ .expired

/-- What a pass begins with is running, unless the deadline has just ended it. -/
theorem isRunning_begun (hnamed : status.requestId.isEmpty = false)
    (hunexpired : ((status.withDeadline now).atTime now).state ≠ .expired) :
    IsRunning now ((status.withDeadline now).atTime now) := by
  unfold atTime at hunexpired ⊢
  split at hunexpired
  · exact absurd rfl hunexpired
  · next hopen =>
    rw [if_neg hopen]
    refine ⟨hnamed, rfl, fun hundecided => ?_, hunexpired⟩
    exact Bool.eq_false_iff.2 fun hoverdue => hopen ⟨hundecided, hoverdue⟩

/-- **A running status is what the next pass begins with.** -/
theorem IsRunning.begun (h : status.IsRunning now) :
    (status.withDeadline now).atTime now = status := by
  obtain ⟨deadline, hdeadline⟩ := Option.isSome_iff_exists.1 h.dated
  have hdated : status.withDeadline now = status := by
    rw [withDeadline, hdeadline, Option.getD_some, ← hdeadline]
  rw [hdated]
  exact if_neg fun hlate => absurd hlate.2 (Bool.eq_false_iff.1 (h.timely hlate.1))

/-- Deciding keeps the status running. -/
theorem IsRunning.decided {renewed : RequestStatus} (h : status.IsRunning now)
    (hid : renewed.requestId = status.requestId)
    (hdeadline : renewed.expiresAt = status.expiresAt)
    (hstate : renewed.state = status.state ∨ status.state = .pending ∧ renewed.state ≠ .expired) :
    renewed.IsRunning now where
  named := hid ▸ h.named
  dated := hdeadline ▸ h.dated
  timely hundecided := by
    rw [isOverdue, hdeadline]
    refine h.timely fun happroved => ?_
    rcases hstate with hsame | ⟨hpending, -⟩
    · exact hundecided (hsame.trans happroved)
    · rw [happroved] at hpending
      cases hpending
  unexpired := by
    rcases hstate with hsame | ⟨-, hunexpired⟩
    · exact hsame ▸ h.unexpired
    · exact hunexpired

/-- The states that counting votes leads to. -/
theorem state_counted_ne_expired (tally : Tally) (h : status.state = .pending) :
    (status.counted tally).state ≠ .expired := by
  unfold counted
  dsimp only
  split
  · decide
  · split
    · decide
    · rw [h]
      decide

/-- The status with the grant recorded. -/
def granted (status : RequestStatus) : RequestStatus :=
  { status with grantCreated := true }

/-- The status once a rule set has said how many approvals it demands: the votes on a pending
request are counted. -/
def weighed (entry : PolicyEntry) (votes : Tally) (status : RequestStatus) : RequestStatus :=
  let status := { status with approvalsRequired := entry.policy.requiredApprovals }
  if status.state = .pending then status.counted votes else status

variable {entry : PolicyEntry} {votes : Tally}

/-- **Votes that did not decide** do not decide when they are counted again. -/
theorem counted_counted (h : (status.counted votes).state = .pending) :
    (status.counted votes).counted votes = status.counted votes := by
  have hopen : votes.isDenied = false ∧ ¬status.approvalsRequired ≤ votes.approvals := by
    unfold counted at h
    dsimp only at h
    split at h
    · cases h
    · next hdenied =>
      split at h
      · cases h
      · next hfew => exact ⟨Bool.eq_false_iff.2 hdenied, hfew⟩
  simp only [counted, hopen.1, if_neg hopen.2]
  rfl

theorem approvalsRequired_weighed (entry : PolicyEntry) (votes : Tally) (status : RequestStatus) :
    (status.weighed entry votes).approvalsRequired = entry.policy.requiredApprovals := by
  unfold weighed
  dsimp only
  split <;> rfl

/-- Weighing changes the number of approvals and the state, the state only by a decision on a
pending request. -/
theorem IsRunning.weighed (h : status.IsRunning now) :
    (status.weighed entry votes).IsRunning now := by
  unfold RequestStatus.weighed
  dsimp only
  split
  · next hpending =>
    have hpending : status.state = .pending := hpending
    exact h.decided rfl rfl (.inr ⟨hpending, state_counted_ne_expired votes hpending⟩)
  · exact h.decided rfl rfl (.inl rfl)

/-- A status is weighed if it says what the rule set demands, and counting the votes leaves it
pending. -/
theorem weighed_eq_self (hrequired : status.approvalsRequired = entry.policy.requiredApprovals)
    (hcounted : status.state = .pending → status.counted votes = status) :
    status.weighed entry votes = status := by
  have hsame : { status with approvalsRequired := entry.policy.requiredApprovals } = status := by
    rw [← hrequired]
  simp only [weighed, hsame]
  split
  · next hpending => exact hcounted hpending
  · rfl

theorem weighed_weighed (entry : PolicyEntry) (votes : Tally) (status : RequestStatus) :
    (status.weighed entry votes).weighed entry votes = status.weighed entry votes := by
  refine weighed_eq_self (status.approvalsRequired_weighed entry votes) ?_
  unfold weighed
  dsimp only
  split
  · exact counted_counted
  · next hdecided => exact fun hpending => absurd hpending hdecided

end RequestStatus

namespace Request

variable {calm : Calm} {desk after : Desk} {key : Key} {request other : Request}
  {status : RequestStatus} {now : Instant} {snapshot : PolicySnapshot} {votes : Tally}

/-! ### What a pass decides -/

/-- What `AccessBroker.Request.follow` comes to: a grant can be opened under every key that is well
formed. -/
def followed (request : Request) (now : Instant) (status : RequestStatus) :
    RequestStatus × Except Failure Outcome :=
  match status.state with
  | .pending | .denied =>
    (status, .ok ((status.expiresAt.map Outcome.requeueAt).getD .done))
  | .expired => (status, .ok .done)
  | .approved =>
    if status.grantCreated then (status, request.recheck now)
    else match request.key.validate with
      | .error failure => (status, .error failure)
      | .ok () => (status.granted, request.recheck now)

/-- What `AccessBroker.Request.decide` comes to. -/
def decided (snapshot : PolicySnapshot) (votes : Tally) (now : Instant) (request : Request)
    (status : RequestStatus) : RequestStatus × Except Failure Outcome :=
  match snapshot.resolve request with
  | none => (status, .error request.unmatched)
  | some entry => request.followed now (status.weighed entry votes)

/-- Following a status only ever records the grant of an approved request. -/
theorem followed_cases (request : Request) (now : Instant) (status : RequestStatus) :
    (request.followed now status).1 = status ∨
      request.followed now status = (status.granted, request.recheck now) ∧
        status.state = .approved ∧ status.grantCreated = false := by
  unfold followed
  split
  · exact .inl rfl
  · exact .inl rfl
  · exact .inl rfl
  · next happroved =>
    split
    · exact .inl rfl
    · next hcreated =>
      split
      · exact .inl rfl
      · exact .inr ⟨rfl, happroved, Bool.eq_false_iff.2 hcreated⟩

theorem followed_followed (request : Request) (now : Instant) (status : RequestStatus) :
    request.followed now (request.followed now status).1 = request.followed now status := by
  rcases request.followed_cases now status with hsame | ⟨hgranted, happroved, -⟩
  · rw [hsame]
  · have hstate : status.granted.state = .approved := happroved
    rw [hgranted, followed, hstate]
    rfl

/-- **What was decided is decided in the same way again.** -/
theorem decided_decided (snapshot : PolicySnapshot) (votes : Tally) (now : Instant)
    (request : Request) (status : RequestStatus) :
    decided snapshot votes now request (decided snapshot votes now request status).1 =
      decided snapshot votes now request status := by
  unfold decided
  cases snapshot.resolve request with
  | none => rfl
  | some entry =>
    dsimp only
    rcases request.followed_cases now (status.weighed entry votes) with
      hsame | ⟨hgranted, happroved, -⟩
    · rw [hsame, RequestStatus.weighed_weighed]
    · have hweighed : (status.weighed entry votes).granted.weighed entry votes =
          (status.weighed entry votes).granted := by
        refine RequestStatus.weighed_eq_self (status.approvalsRequired_weighed entry votes) ?_
        exact fun hpending => absurd (happroved.symm.trans hpending) nofun
      have hagain := request.followed_followed now (status.weighed entry votes)
      rw [hgranted] at hagain ⊢
      rwa [hweighed]

/-- Deciding keeps the status running. -/
theorem isRunning_decided (h : status.IsRunning now) :
    (decided snapshot votes now request status).1.IsRunning now := by
  unfold decided
  cases snapshot.resolve request with
  | none => exact h
  | some entry =>
    dsimp only
    have hweighed : (status.weighed entry votes).IsRunning now := h.weighed
    rcases request.followed_cases now (status.weighed entry votes) with hsame | ⟨hgranted, -⟩
    · rwa [hsame]
    · rw [hgranted]
      exact hweighed.decided rfl rfl (.inl rfl)

/-! ### What a decision depends on -/

/-- The votes on a request that lie on a desk. -/
def poll (request : Request) (desk : Desk) : Tally :=
  Tally.ofResponses request.body.spec.subject
    (desk.store.listResponses request.scope request.metadata.name)

theorem scope_eq_of_key (hkey : other.key = request.key) : other.scope = request.scope :=
  congrArg Key.scope hkey

/-- The votes depend on the key and the subject of the request, and on the responses. -/
theorem poll_congr (hkey : other.key = request.key) (hspec : other.body.spec = request.body.spec)
    (hresponses : after.store.responses = desk.store.responses) :
    other.poll after = request.poll desk := by
  have hname : other.metadata.name = request.metadata.name := congrArg Key.name hkey
  rw [poll, poll, hspec, scope_eq_of_key hkey, hname, MemoryStore.listResponses, hresponses]
  rfl

/-- A decision depends on the key of the request and on what it asks for. -/
theorem decided_congr (hkey : other.key = request.key)
    (hspec : other.body.spec = request.body.spec) :
    decided snapshot votes now other status = decided snapshot votes now request status := by
  simp only [decided, PolicySnapshot.resolve, unmatched, followed, recheck, scope_eq_of_key hkey,
    hkey, hspec]

/-! ### The grant of an approved request -/

open Pass

/-- **A grant is opened** under every key that is well formed. -/
theorem ends_openGrant (h : desk.Holds key request) :
    request.openGrant.Ends calm desk fun result after =>
      after.Holds key request ∧ after.store.responses = desk.store.responses ∧
        match request.key.validate with
        | .error failure => result = .error failure ∧ desk.Still after
        | .ok () => ∃ grant, result = .ok grant ∧
          after.store.find? .grant grant.key = some grant := by
  have hrenewed := h.still desk.still_renewed
  refine ends_bind (ends_lift (ends_create ?_ ?_ ?_))
  · intro failure hkey
    have hkey : request.key.validate = .error failure := hkey
    simp only [Onward, hkey, Key.isAlreadyExists_of_validate hkey]
    exact ⟨hrenewed, rfl, rfl, desk.still_renewed⟩
  · intro grant hkey hfound
    change Pass.Ends calm (ask (.find .grant request.key) >>= _) desk.renewed _
    have hkey : request.key.validate = .ok () := hkey
    have hfound : desk.renewed.store.find? .grant request.key = some grant := hfound
    refine ends_bind (ends_find ?_)
    rw [hfound, hkey]
    exact ⟨hrenewed, rfl, grant, rfl, (hrenewed.keyed _ _ _ hfound).symm ▸ hfound⟩
  · intro drawn created hkey _ _
    have hkey : request.key.validate = .ok () := hkey
    have hholds : (desk.put created).Holds key request := h.put_of_ne (by decide)
    rw [hkey]
    exact ⟨hholds.of_store rfl, desk.responses_put created (by decide), created, rfl,
      desk.find?_put_self created⟩

/-- What opening the grant of a request comes to: only a malformed key is in the way. -/
structure Opens (desk after : Desk) (key : Key) (request : Request) (result : Except Failure Unit) :
    Prop where
  holds : after.Holds key request
  responses : after.store.responses = desk.store.responses
  result_eq : result = request.key.validate
  still (failure : Failure) : request.key.validate = .error failure → desk.Still after

/-- **The grant of a request is opened and filled in.** -/
theorem ends_createGrant {requestId : String} {approvers : List String}
    (h : desk.Holds key request) :
    (request.createGrant requestId approvers).Ends calm desk fun result after =>
      Opens desk after key request result := by
  refine ends_bind ((ends_openGrant h).mono ?_)
  rintro result after ⟨hholds, hresponses, hresult⟩
  cases hkey : request.key.validate with
  | error failure =>
    rw [hkey] at hresult
    obtain ⟨rfl, hstill⟩ := hresult
    exact ⟨hholds, hresponses, hkey.symm, fun _ _ => hstill⟩
  | ok _ =>
    have hwell (failure : Failure) (hfailure : request.key.validate = .error failure) :
        desk.Still after := absurd (hkey.symm.trans hfailure) nofun
    rw [hkey] at hresult
    obtain ⟨grant, rfl, hgrant⟩ := hresult
    change Pass.Ends calm (if _ then _ else _) after _
    split
    · refine ends_bind (ends_patchStatus hgrant ⟨hholds.put_of_ne nofun, ?_, hkey.symm, ?_⟩)
      · exact (after.responses_put _ (by decide)).trans hresponses
      · exact fun failure hfailure => absurd (hkey.symm.trans hfailure) nofun
    · refine ⟨hholds, hresponses, hkey.symm, ?_⟩
      exact fun failure hfailure => absurd (hkey.symm.trans hfailure) nofun

theorem ends_tally {post : Except Failure Tally → Desk → Prop}
    (h : post (.ok (request.poll desk)) desk) : request.tally.Ends calm desk post :=
  h

/-- Whether or not the votes are counted anew, the grant is opened in the same way. -/
theorem ends_granting {requestId : String} {votes : Option Tally} (h : desk.Holds key request) :
    Pass.Ends calm (do
      request.createGrant requestId (← (votes.map pure).getD request.tally).approvers.toList)
      desk fun result after => Opens desk after key request result := by
  refine ends_bind ?_
  cases votes with
  | none => exact ends_tally (ends_createGrant h)
  | some votes => exact ends_pure (ends_createGrant h)

/-! ### Decisions on a desk -/

/-- What a part of a pass that decides on a request leaves: the request and the votes on it, and
unless a grant was recorded, everything. -/
structure Decides (desk after : Desk) (key : Key) (request : Request) (created : Bool)
    (decision : RequestStatus × Except Failure Outcome) : Prop where
  holds : after.Holds key request
  responses : after.store.responses = desk.store.responses
  still : decision.1.grantCreated = created → desk.Still after
  same (outcome : Outcome) : decision.1.grantCreated = created →
    decision.2 = .ok outcome → after = desk

theorem Decides.refl (h : desk.Holds key request) (created : Bool)
    (decision : RequestStatus × Except Failure Outcome) :
    Decides desk desk key request created decision :=
  ⟨h, rfl, fun _ => .refl desk, fun _ _ _ => rfl⟩

theorem ends_follow {votes : Option Tally} (h : desk.Holds key request) :
    (request.follow now status votes).Ends calm desk fun decision after =>
      decision = request.followed now status ∧
        Decides desk after key request status.grantCreated decision := by
  unfold follow followed
  cases hstate : status.state with
  | pending | denied | expired => exact ⟨rfl, .refl h _ _⟩
  | approved =>
    dsimp only
    split
    · exact ⟨rfl, .refl h _ _⟩
    · next hcreated =>
      have hcreated : status.grantCreated = false := Bool.eq_false_iff.2 hcreated
      refine Program.ends_bind (Program.Ends.mono (ends_granting h) ?_)
      rintro result after ⟨hholds, hresponses, rfl, hstill⟩
      cases hkey : request.key.validate with
      | error failure =>
        exact ⟨rfl, hholds, hresponses, fun _ => hstill failure hkey, fun _ _ => nofun⟩
      | ok _ =>
        refine ⟨?_, hholds, hresponses, fun hsame => ?_, fun _ hsame => ?_⟩
        · rw [← hstate]
          rfl
        · exact absurd (hsame.trans hcreated) nofun
        · exact absurd (hsame.trans hcreated) nofun

theorem ends_decide (h : desk.Holds key request) :
    (request.decide calm.now status).Ends calm desk fun decision after =>
      decision = decided calm.snapshot (request.poll desk) calm.now request status ∧
        Decides desk after key request status.grantCreated decision := by
  refine Program.ends_bind (Program.ends_policies ?_)
  unfold decided
  cases calm.snapshot.resolve request with
  | none => exact ⟨rfl, .refl h _ _⟩
  | some entry =>
    dsimp only [RequestStatus.weighed]
    split
    · refine Program.ends_bind (ends_tally ((ends_follow h).mono ?_))
      rintro decision after ⟨rfl, hdecides⟩
      exact ⟨rfl, hdecides⟩
    · refine (ends_follow h).mono ?_
      rintro decision after ⟨rfl, hdecides⟩
      exact ⟨rfl, hdecides⟩

/-! ### A request at rest -/

/-- A pass on the request leaves everything as it is, and ends with a given result. -/
inductive AtRest (calm : Calm) (key : Key) (desk : Desk) : Except Failure Outcome → Prop
  /-- There is nothing left to do. -/
  | cleared (cleared : desk.Cleared .request key) : AtRest calm key desk (.ok .done)
  /-- The request goes on, and what was decided is what would be decided. -/
  | settled {request : Request} {result : Except Failure Outcome} (tended : desk.Tends key request)
    (running : request.body.status.IsRunning calm.now)
    (decided : decided calm.snapshot (request.poll desk) calm.now request request.body.status =
      (request.body.status, result)) : AtRest calm key desk result

/-- The request has been expired, and waits for the last steps. -/
structure Doomed (desk : Desk) (key : Key) (request : Request) : Prop
    extends Desk.Holds desk key request where
  deleting : request.metadata.isDeleting = true
  held : request.isHeld = true

variable {result : Except Failure Outcome}

/-- **A request stays at rest** while nothing happens. -/
theorem AtRest.still (h : AtRest calm key desk result) (hstill : desk.Still after) :
    AtRest calm key after result := by
  cases h with
  | cleared hcleared => exact .cleared (hcleared.still hstill)
  | settled htended hrunning hdecided =>
    have hholds := htended.toHolds.still hstill
    obtain ⟨version, rfl⟩ := hstill
    exact .settled (htended.of_holds hholds) hrunning hdecided

/-! ### The parts of a pass -/

/-- A pass begins with a running status, unless the deadline has just ended the request. -/
theorem ends_begin : (request.begin calm.now).Ends calm desk fun result after =>
    ∃ status, result = .ok status ∧ after.store = desk.store ∧
      (status.state ≠ .expired → status.IsRunning calm.now) := by
  unfold begin
  dsimp only
  split
  · have hnamed : (calm.ids desk.drawn).isEmpty = false := by
      simpa using calm.named desk.drawn
    refine ends_bind (ends_freshId ?_)
    exact ⟨_, rfl, rfl, RequestStatus.isRunning_begun hnamed⟩
  · next hnamed =>
    refine ends_bind ?_
    exact ⟨_, rfl, rfl, RequestStatus.isRunning_begun (Bool.eq_false_iff.2 hnamed)⟩

/-- A pass begins with a running status as it is. -/
theorem ends_begin_of_isRunning {post : Except Failure RequestStatus → Desk → Prop}
    (h : request.body.status.IsRunning calm.now) (hpost : post (.ok request.body.status) desk) :
    (request.begin calm.now).Ends calm desk post := by
  unfold begin
  dsimp only
  rw [h.named]
  refine ends_bind ?_
  change post (.ok ((request.body.status.withDeadline calm.now).atTime calm.now)) desk
  rwa [h.begun]

/-- Nothing is told of a status that was there before. -/
theorem transitions_self (request : Request) : request.transitions request.body.status = [] :=
  List.map_eq_nil_iff.1 <|
    (request.map_action_transitions _).trans (RequestStatus.news_self _)

theorem ends_persist (h : desk.Tends key request) :
    (request.persist status).Ends calm desk fun result after =>
      ∃ object : Request, result = .ok status ∧ after.Tends key object ∧
        object.body = ⟨request.body.spec, status⟩ ∧
        after.store.responses = desk.store.responses := by
  unfold persist
  split
  · next hsame =>
    refine ends_bind (ends_pure (ends_bind (ends_tellEach fun told => ?_)))
    have htended : Desk.Tends { desk with told } key request := h.of_holds (h.toHolds.of_store rfl)
    exact ⟨request, rfl, htended, by rw [← hsame], rfl⟩
  · obtain rfl := h.key_eq
    refine ends_bind (ends_patchStatus h.found ?_)
    refine ends_bind (ends_pure (ends_bind (ends_tellEach fun told => ?_)))
    have htended := h.patched status (desk.store.version + 1)
    refine ⟨_, rfl, htended.of_holds (htended.toHolds.of_store rfl), rfl, ?_⟩
    exact desk.responses_put _ (by decide)

/-- A status that is stored already is not written again. -/
theorem ends_persist_self {post : Except Failure RequestStatus → Desk → Prop}
    (h : post (.ok request.body.status) desk) :
    (request.persist request.body.status).Ends calm desk post := by
  unfold persist
  rw [if_pos rfl]
  refine ends_bind (ends_pure (ends_bind ?_))
  rw [request.transitions_self]
  exact h

/-- Removing the responses to a request keeps what lies elsewhere. -/
theorem ends_removeResponses {object : Request} (h : desk.Holds key object) :
    request.removeResponses.Ends calm desk fun result after =>
      result = .ok () ∧ after.Holds key object := by
  refine ends_bind (ends_listResponses (ends_askEach ?_ h))
  intro call hcall
  obtain ⟨response, -, rfl⟩ := List.mem_map.1 hcall
  have hne : Kind.request = .response → key ≠ response.key := nofun
  exact ⟨.response, response.key, rfl, fun desk hholds => hholds.deleted rfl hne calm.now⟩

/-- **The last steps** bring a request to rest. -/
theorem ends_finalize (h : desk.Holds key request)
    (hdeleting : request.metadata.isDeleting = true) :
    request.finalize.Ends calm desk fun result after =>
      result = .ok .done ∧ AtRest calm key after result := by
  unfold finalize
  split
  · refine ends_bind ((ends_removeResponses h).mono ?_)
    rintro _ after ⟨rfl, hholds⟩
    refine ends_bind ((ends_finish hholds hdeleting).mono ?_)
    rintro _ later ⟨⟨_, rfl⟩, hcleared⟩
    exact ⟨rfl, .cleared hcleared⟩
  · next hbare =>
    exact ⟨rfl, .cleared (.left h.found hdeleting (Bool.eq_false_iff.2 hbare))⟩

/-- **A request that expires** is marked as deleting, and waits for the last steps. -/
theorem ends_expire (h : desk.Tends key request) :
    (request.expire status).Ends calm desk fun result after =>
      result = .ok .done ∧ ∃ object, Doomed after key object := by
  refine ends_bind ((ends_persist h).mono ?_)
  rintro _ persisted ⟨object, rfl, htended, -⟩
  refine ends_bind ((ends_removeResponses htended.toHolds).mono ?_)
  rintro _ cleared ⟨rfl, hholds⟩
  refine ends_bind (ends_delete fun value => ⟨rfl, ?_⟩)
  rw [h.key_eq]
  have hdeleted := cleared.performed_deleted calm.now .request key
  rcases hdeleted.find?_of_delete_self hholds.keyed hholds.found with ⟨hfree, -⟩ | hmarked
  · exact absurd hfree (Object.finalizers_ne_nil htended.held)
  · exact ⟨_, {
      keyed := hdeleted.keyed hholds.keyed
      found := hmarked
      deleting := Object.isDeleting_marked _ _ _
      held := (Object.isHeld_marked _ _ _).trans htended.held }⟩

/-- **A pass on a request that is not being deleted** brings it to rest or expires it. -/
theorem ends_advance (h : desk.Holds key request) (hlive : request.metadata.isDeleting = false) :
    request.advance.Ends calm desk fun result after => AtRest calm key after result ∨
      result = .ok .done ∧ ∃ object, Doomed after key object := by
  refine ends_bind (ends_clock (ends_bind (ends_begin.mono ?_)))
  rintro _ begun ⟨reached, rfl, hstore, hrunning⟩
  refine ends_bind ((ends_secure (h.of_store hstore) hlive).mono ?_)
  rintro _ secured ⟨(object : Request), rfl, htended⟩
  change Pass.Ends calm (if _ then _ else _) secured _
  split
  · exact (ends_expire htended).mono fun _ _ => .inr
  · next hunexpired =>
    refine ends_bind (ends_lift ((ends_decide htended.toHolds).mono ?_))
    rintro ⟨status, outcome⟩ judged ⟨hdecision, hdecides⟩
    refine ends_bind ((ends_persist (htended.of_holds hdecides.holds)).mono ?_)
    rintro _ persisted ⟨left, rfl, hleft, hwritten, hresponses⟩
    change AtRest calm key persisted outcome ∨ _
    left
    have hsame : left.key = object.key := hleft.key_eq.trans htended.key_eq.symm
    have hspec : left.body.spec = object.body.spec := by rw [hwritten]
    have hstatus : left.body.status = status := by rw [hwritten]
    have hpoll : left.poll persisted = object.poll secured :=
      poll_congr hsame hspec (hresponses.trans hdecides.responses)
    have hreached : (decided calm.snapshot (object.poll secured) calm.now object reached).1 =
        status := congrArg Prod.fst hdecision.symm
    refine .settled hleft ?_ ?_
    · rw [hstatus, ← hreached]
      exact isRunning_decided (hrunning hunexpired)
    · rw [hstatus, hpoll, decided_congr hsame hspec, hdecision, ← hreached, decided_decided]

/-! ### A whole pass -/

theorem reconcile_eq_look (key : Key) : reconcile key = look key finalize advance := by
  refine congrArg (ask (.find .request key) >>= ·) (funext fun found => ?_)
  cases found <;> rfl

/-- **A pass on a request that waits for the last steps** brings it to rest. -/
theorem Doomed.ends_reconcile (h : Doomed desk key request) :
    (reconcile key).Ends calm desk fun result after =>
      result = .ok .done ∧ AtRest calm key after result := by
  rw [reconcile_eq_look]
  refine ends_look (fun hgone => ?_) (fun other hfound hdeleting => ?_) fun other hfound hlive => ?_
  · exact absurd (h.found.symm.trans hgone) nofun
  · exact ends_finalize ⟨h.keyed, hfound⟩ hdeleting
  · obtain rfl : request = other := Option.some.inj (h.found.symm.trans hfound)
    exact absurd (hlive.symm.trans h.deleting) nofun

/-- **Every pass brings the request to rest**, or expires it. -/
theorem ends_reconcile (hkeyed : desk.store.Keyed) :
    (reconcile key).Ends calm desk fun result after => AtRest calm key after result ∨
      result = .ok .done ∧ ∃ object, Doomed after key object := by
  rw [reconcile_eq_look]
  refine ends_look (fun hgone => ?_) (fun request hfound hdeleting => ?_)
    fun request hfound hlive => ?_
  · exact .inl (.cleared (.gone hgone))
  · exact (ends_finalize ⟨hkeyed, hfound⟩ hdeleting).mono fun _ _ h => .inl h.2
  · exact ends_advance ⟨hkeyed, hfound⟩ hlive

/-- **A pass on a request at rest** leaves everything as it is, and ends as the one before. -/
theorem AtRest.ends_reconcile (h : AtRest calm key desk result) :
    (reconcile key).Ends calm desk fun outcome after => outcome = result ∧ desk.Still after ∧
      ∀ value, result = .ok value → after = desk := by
  rw [reconcile_eq_look]
  cases h with
  | cleared hcleared =>
    refine (ends_look_of_cleared hcleared fun request hbare => ?_).mono ?_
    · change Pass.Ends calm (if request.isHeld then _ else _) desk _
      rw [hbare]
      exact ⟨rfl, rfl⟩
    · rintro _ after ⟨rfl, rfl⟩
      exact ⟨rfl, .refl after, fun _ _ => rfl⟩
  | @settled request _ htended hrunning hdecided =>
    refine ends_look_of_tends htended ?_
    refine ends_bind (ends_clock (ends_bind (ends_begin_of_isRunning hrunning ?_)))
    refine ends_bind (ends_secure_of_isHeld htended.held ?_)
    change Pass.Ends calm (if _ then _ else _) desk _
    rw [if_neg hrunning.unexpired]
    refine ends_bind (ends_lift ((ends_decide htended.toHolds).mono ?_))
    rintro _ after ⟨rfl, hdecides⟩
    rw [hdecided] at hdecides ⊢
    refine ends_bind (ends_persist_self ?_)
    exact ⟨rfl, hdecides.still rfl, fun value => hdecides.same value rfl⟩

end Request

end AccessBroker
