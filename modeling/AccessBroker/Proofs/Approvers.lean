import AccessBroker.Proofs.Decisions

/-!
# Who is named in a grant

A request is approved by a pass that has counted enough votes, and the grant is filled in by a pass
that names those who approve. Mostly that is one and the same pass, and those named are those
counted. But if the grant cannot be created, what is left is a request that is approved, and a later
pass counts the votes anew, only to learn the names; by then some may have been withdrawn.

So the grant names the identities with an approving ballot at the second count
(`AccessBroker.Request.Names`), and they are as many as the rule set demanded at the first, if
everybody counted there still approves (`AccessBroker.Cluster.Reachable.approvers_of_filled`).
Without that they need not be (`AccessBroker.Cluster.not_approved_by_required`).
-/

namespace AccessBroker

open AccessBroker.Time AccessBroker.Text

namespace Request

open Pass

variable {key : Key} {past later : Deeds} {start request : Request} {entry : PolicyEntry}
  {responses : List Response} {status : RequestStatus}

/-! ### Counting -/

/-- A pass has counted the votes on a request, and they meet what the rule set demands that decides
on it. -/
structure Carried (request : Request) (entry : PolicyEntry) (responses : List Response)
    (deeds : Deeds) : Prop where
  consulted : Consulted request entry deeds
  heard : Heard request responses deeds
  undenied : ¬(Ballots.ofResponses request.body.spec.subject responses).IsDenied
  enough : entry.policy.requiredApprovals.toNat ≤
    (Ballots.ofResponses request.body.spec.subject responses).approvers.card

theorem Carried.mono (h : Carried request entry responses past) (hsuffix : past <:+ later) :
    Carried request entry responses later :=
  ⟨h.consulted.mono hsuffix, hsuffix.mem h.heard, h.undenied, h.enough⟩

/-- If a status says approved, so did the request that the pass has found, or the votes have carried
it, and the status says how many were required. -/
def Justified (start request : Request) (status : RequestStatus) (deeds : Deeds) : Prop :=
  status.state = .approved → start.body.status.state = .approved ∨
    ∃ entry responses, Carried request entry responses deeds ∧
      status.approvalsRequired = entry.policy.requiredApprovals

theorem Justified.mono (h : Justified start request status past) (hsuffix : past <:+ later) :
    Justified start request status later := by
  intro happroved
  exact (h happroved).imp_right fun ⟨entry, responses, hcarried, hrequired⟩ =>
    ⟨entry, responses, hcarried.mono hsuffix, hrequired⟩

/-- A grant names those who approve, among the votes that the pass has heard; and if these have not
carried the request, it was approved before. -/
structure Names (key : Key) (start request : Request) (responses : List Response)
    (granted : GrantStatus) (deeds : Deeds) : Prop where
  secured : Secured key deeds start request
  heard : Heard request responses deeds
  subject : granted.subject = request.body.spec.subject
  approvedBy : granted.approvedBy =
    (Tally.ofResponses request.body.spec.subject responses).approvers.toList
  carried : start.body.status.state = .approved ∨ ∃ entry, Carried request entry responses deeds

/-- What a pass on a request may write: statuses that say no more than it has counted, and grants
in the name of those whom it has counted. -/
def Naming (key : Key) (past : Deeds) : Effect → Prop :=
  Effect.Writes
    (fun request status => ∃ start, Secured key past start request ∧
      Justified start request status past)
    fun granted => ∃ start request responses, Names key start request responses granted past

/-! ### Every pass keeps to it -/

/-- **Creating the grant** in the name of those whom the pass has heard. -/
theorem createGrant_names {id : String} (hsecured : Secured key past start request)
    (hheard : Heard request responses past)
    (hcarried : start.body.status.state = .approved ∨
      ∃ entry, Carried request entry responses past) :
    (request.createGrant id
      (Tally.ofResponses request.body.spec.subject responses).approvers.toList).Obeys (Naming key)
      (fun later _ => past <:+ later) past := by
  let names := (Tally.ofResponses request.body.spec.subject responses).approvers.toList
  have hwrites : (request.createGrant id names).Obeys
      (fun _ => Effect.Writes (fun _ _ => False) fun granted =>
        granted = request.grantStatus id names) (fun _ _ => True) past :=
    createGrant_writes id names rfl
  refine (Program.Obeys.weaken hwrites.later fun later call hsuffix hcall => ?_).mono
    fun _ _ h => h.1
  refine hcall.mono (fun _ _ h => h.elim) ?_
  rintro _ rfl
  refine ⟨start, request, responses, hsecured.mono hsuffix, hsuffix.mem hheard,
    (request.grantStatus_eq id names).2.2.1, approvedBy_grantStatus request id names, ?_⟩
  exact hcarried.imp_right fun ⟨entry, hentry⟩ => ⟨entry, hentry.mono hsuffix⟩

/-- **Following the status**: the votes are those that have carried the request, or are heard anew
for one that was found approved. -/
theorem follow_names {now : Instant} {votes : Option Tally}
    (hsecured : Secured key past start request) (hjustified : Justified start request status past)
    (hcounted : ∀ tally, votes = some tally → ∃ responses, Heard request responses past ∧
      tally = Tally.ofResponses request.body.spec.subject responses ∧
      (status.state = .approved → ∃ entry, Carried request entry responses past))
    (hfound : votes = none → status.state = .approved → start.body.status.state = .approved) :
    (request.follow now status votes).Obeys (Naming key)
      (fun later result => Justified start request result.1 later) past := by
  unfold follow
  split
  · exact hjustified
  · exact hjustified
  · exact hjustified
  · next happroved =>
    split
    · exact hjustified
    · have hgrant : Pass.Obeys (Naming key) (fun later _ => past <:+ later) (do
          request.createGrant status.requestId
            (← (votes.map pure).getD request.tally).approvers.toList) past := by
        cases votes with
        | some votes =>
          obtain ⟨responses, hheard, rfl, hcarried⟩ := hcounted votes rfl
          exact createGrant_names hsecured hheard (.inr (hcarried happroved))
        | none =>
          refine ⟨trivial, fun reply => ?_⟩
          cases reply with
          | error failure => exact List.suffix_cons _ _
          | ok responses =>
            exact (createGrant_names (hsecured.cons _) List.mem_cons_self
              (.inl (hfound rfl happroved))).mono fun _ _ h => (List.suffix_cons _ _).trans h
      refine Program.obeys_bind (hgrant.mono fun later result hsuffix => ?_)
      cases result with
      | ok created => exact hjustified.mono hsuffix
      | error failure => exact hjustified.mono hsuffix

/-- **Deciding**: what a pass has counted is what it goes by. -/
theorem decide_names {now : Instant} (hsecured : Secured key past start request)
    (hfound : status.state = .approved → start.body.status.state = .approved) :
    (request.decide now status).Obeys (Naming key)
      (fun later result => Justified start request result.1 later) past := by
  have hjustified (required : UInt32) (later : Deeds) :
      Justified start request { status with approvalsRequired := required } later :=
    fun happroved => .inl (hfound happroved)
  have hask : Program.Obeys (Naming key) (fun later snapshot =>
      Secured key later start request ∧ (⟨.policies, snapshot⟩ : Deed passInterface) ∈ later)
      (Program.call (I := passInterface) .policies) past :=
    Program.obeys_call trivial fun snapshot => ⟨hsecured.cons _, List.mem_cons_self⟩
  refine Program.obeys_bind (hask.mono ?_)
  rintro later snapshot ⟨hsecured, hsnapshot⟩
  split
  · exact hjustified status.approvalsRequired _
  · next entry hresolve =>
    dsimp only
    split
    · next hpending =>
      refine ⟨trivial, fun reply => ?_⟩
      cases reply with
      | error failure => exact hjustified _ _
      | ok responses =>
        let required : RequestStatus :=
          { status with approvalsRequired := entry.policy.requiredApprovals }
        let deed : Deed passInterface :=
          .ofCall (.listResponses request.scope request.metadata.name) (.ok responses)
        have hdecided : (required.counted
            (Tally.ofResponses request.body.spec.subject responses)).DecidedBy
            entry.policy.requiredApprovals
            (Ballots.ofResponses request.body.spec.subject responses) :=
          RequestStatus.decidedBy_counted hpending
        have hcarried (happroved : (required.counted
            (Tally.ofResponses request.body.spec.subject responses)).state = .approved) :
            Carried request entry responses (deed :: later) := by
          obtain ⟨hundenied, henough⟩ := hdecided.approved.1 happroved
          exact ⟨⟨snapshot, List.mem_cons_of_mem _ hsnapshot, hresolve⟩,
            List.mem_cons_self, hundenied, henough⟩
        refine follow_names (hsecured.cons _) ?_ ?_ nofun
        · exact fun happroved => .inr ⟨entry, responses, hcarried happroved, rfl⟩
        · intro tally htally
          obtain rfl := Option.some.inj htally
          exact ⟨responses, List.mem_cons_self, rfl, fun happroved => ⟨entry, hcarried happroved⟩⟩
    · exact follow_names hsecured (hjustified _ _) nofun fun _ => hfound

/-- **Writing the status** that a pass has come to. -/
theorem persist_names (hsecured : Secured key past start request)
    (hjustified : Justified start request status past) :
    (request.persist status).Obeys (Naming key) (fun later _ => past <:+ later) past := by
  have hwrites : (request.persist status).Obeys
      (fun _ => Effect.Writes (fun base written => base = request ∧ written = status)
        fun _ => False) _ past := persist_writes _
  refine (Program.Obeys.weaken hwrites.later fun later call hsuffix hcall => ?_).mono
    fun _ _ h => h.1
  refine hcall.mono ?_ fun _ h => h.elim
  rintro _ _ ⟨rfl, rfl⟩
  exact ⟨start, hsecured.mono hsuffix, hjustified.mono hsuffix⟩

/-- A pass goes on from what it has found. -/
theorem begin_names {now : Instant} (hfound : Found key past start) :
    (start.begin now).Obeys (Naming key) (OnSuccess fun later status => Found key later start ∧
      (status.state = .approved → start.body.status.state = .approved)) past := by
  unfold begin
  dsimp only
  split
  · refine ⟨trivial, fun id => ⟨hfound.cons _, fun happroved => ?_⟩⟩
    rw [RequestStatus.state_atTime_eq_approved] at happroved
    cases happroved
  · refine obeys_pure ⟨hfound, fun happroved => ?_⟩
    rwa [RequestStatus.state_atTime_eq_approved] at happroved

theorem removeResponses_names (request : Request) :
    request.removeResponses.Obeys (Naming key) (OnSuccess fun _ _ => True) past :=
  (removeResponses_sweeps trivial fun _ _ => trivial).mono fun _ result _ => onSuccess_true result

theorem finalize_names (start : Request) :
    start.finalize.Obeys (Naming key) (OnSuccess fun _ _ => True) past := by
  unfold finalize
  split
  · refine (removeResponses_names start).bind_onSuccess fun later _ _ => ?_
    exact obeys_tolerate trivial fun _ _ _ => obeys_pure trivial
  · exact obeys_pure trivial

theorem expire_names (hsecured : Secured key past start request)
    (hexpired : status.state = .expired) :
    (request.expire status).Obeys (Naming key) (OnSuccess fun _ _ => True) past := by
  have hjustified : Justified start request status past := fun happroved => by
    cases hexpired.symm.trans happroved
  unfold expire
  refine (persist_names hsecured hjustified).bind (fun later _ _ => ?_) fun _ _ _ => trivial
  refine (removeResponses_names request).bind_onSuccess fun latest _ _ => ?_
  exact obeys_tolerate trivial fun _ _ _ => obeys_pure trivial

theorem advance_names (hfound : Found key past start)
    (hlive : start.metadata.isDeleting = false) :
    start.advance.Obeys (Naming key) (OnSuccess fun _ _ => True) past := by
  refine ⟨trivial, fun now => ?_⟩
  refine (begin_names (hfound.cons _)).bind_onSuccess ?_
  rintro later status ⟨hfound, happroved⟩
  have hsecure : start.ensureFinalizer.Obeys (Naming key)
      (OnSuccess fun later request => Secured key later start request) later :=
    obeys_secure hfound hlive (fun _ => trivial) (fun hsecured => hsecured)
      (fun _ hsecured => hsecured) fun _ _ => trivial
  refine hsecure.bind_onSuccess fun later request hsecured => ?_
  split
  · next hexpired => exact expire_names hsecured hexpired
  · refine obeys_bind (obeys_lift ((decide_names hsecured happroved).later.mono ?_))
    rintro latest ⟨status, outcome⟩ ⟨hsuffix, hjustified⟩
    refine (persist_names (hsecured.mono hsuffix) hjustified).bind (fun _ _ _ => ?_)
      fun _ _ _ => trivial
    exact obeys_result (onSuccess_true outcome)

/-- **Every pass on a request keeps to it**, whatever it is answered. -/
theorem reconcile_names (key : Key) :
    (reconcile key).Obeys (Naming key) (OnSuccess fun _ _ => True) [] := by
  refine ⟨trivial, fun reply => ?_⟩
  match reply with
  | .error failure => exact trivial
  | .ok none => exact trivial
  | .ok (some start) =>
    change Pass.Obeys _ _ (if start.metadata.isDeleting then finalize start else advance start) _
    split
    · exact finalize_names start
    · next hlive => exact advance_names List.mem_cons_self (Bool.eq_false_iff.2 hlive)

/-! ### Those who are named -/

theorem Names.mono {granted : GrantStatus} (h : Names key start request responses granted past)
    (hsuffix : past <:+ later) : Names key start request responses granted later where
  secured := h.secured.mono hsuffix
  heard := hsuffix.mem h.heard
  subject := h.subject
  approvedBy := h.approvedBy
  carried := h.carried.imp_right fun ⟨entry, hentry⟩ => ⟨entry, hentry.mono hsuffix⟩

namespace Names

variable {granted : GrantStatus} {votes : List Response}

theorem nodup (h : Names key start request responses granted past) : granted.approvedBy.Nodup := by
  rw [h.approvedBy]
  exact NameSet.nodup_toList _

/-- **Named are the identities with an approving ballot.** -/
theorem toFinset_approvedBy (h : Names key start request responses granted past) :
    granted.approvedBy.toFinset = (Ballots.ofResponses granted.subject responses).approvers := by
  ext voter
  rw [List.mem_toFinset, h.approvedBy, h.subject]
  exact Ballots.mem_approvers_ofResponses

theorem length_approvedBy (h : Names key start request responses granted past) :
    granted.approvedBy.length = (Ballots.ofResponses granted.subject responses).approvers.card := by
  rw [← h.toFinset_approvedBy, List.toFinset_card_of_nodup h.nodup]

/-- The subject is not among them. -/
theorem subject_notMem (h : Names key start request responses granted past) :
    granted.subject ∉ granted.approvedBy := by
  intro hsubject
  rw [← List.mem_toFinset, h.toFinset_approvedBy, Ballots.mem_approvers,
    Ballots.mem_ofResponses] at hsubject
  exact hsubject.1 rfl

end Names

end Request

/-! ### The pass that has approved a request -/

/-- A pass has approved a request that was not approved before: it has read a rule set that admits
the request, and has heard votes that meet what the rule set demands. -/
structure Journal.Approves (journal : Journal) (key : Key) (request : Request) (entry : PolicyEntry)
    (responses : List Response) : Prop where
  target : journal.target = .request key
  undecided : request.body.status.state ≠ .approved
  admitted : Request.Admitted request entry journal.deeds
  carried : Request.Carried request entry responses journal.deeds

/-- A pass has got the approval of a request stored. -/
def Journal.StoresApproval (journal : Journal) (request : Request) (entry : PolicyEntry) : Prop :=
  ∃ status new, Deed.ofCall (.patchStatus .request request status) (.ok new) ∈ journal.deeds ∧
    status.state = .approved ∧ status.approvalsRequired = entry.policy.requiredApprovals

namespace Cluster

variable {rules : Rules} {cluster next : Cluster} {key : Key} {place : Nat} {journal : Journal}
  {start request : Request} {responses : List Response} {granted : GrantStatus}

/-- If a request is approved, some pass has turned it into an approved one. -/
def ApprovalStored (cluster : Cluster) (key : Key) (uid : String) (body : RequestBody) : Prop :=
  body.status.state = .approved →
    ∃ (place : Nat) (journal : Journal) (request : Request) (entry : PolicyEntry)
      (responses : List Response), cluster.journals[place]? = some journal ∧
      journal.Approves key request entry responses ∧ journal.StoresApproval request entry ∧
      request.metadata.uid = uid ∧ request.body.spec = body.spec

theorem ApprovalStored.moved {uid : String} {body : RequestBody}
    (h : cluster.ApprovalStored key uid body) (hmoved : Moved rules cluster next) :
    next.ApprovalStored key uid body := by
  intro happroved
  obtain ⟨place, journal, request, entry, responses, hjournal, hdecided,
    ⟨status, new, hwritten, hstatus⟩, hsame⟩ := h happroved
  obtain ⟨later, hlater, htarget, hsuffix⟩ := hmoved.remains hjournal
  exact ⟨place, later, request, entry, responses, hlater,
    ⟨htarget.trans hdecided.target, hdecided.undecided,
      (hdecided.carried.mono hsuffix).consulted.admitted, hdecided.carried.mono hsuffix⟩,
    ⟨status, new, hsuffix.mem hwritten, hstatus⟩, hsame⟩

/-- A pass on a request writes in the name of those whom it has counted. -/
theorem Acts.naming {past : Deeds} {call : StoreCall} {reply : call.Reply}
    (h : Acts cluster next place (.request key) past call reply)
    (hreachable : Reachable rules cluster) : Request.Naming key past (.store call) := by
  obtain ⟨rest, hcurrent, -⟩ := h
  exact (hreachable.keeps (show (Target.request key).reconcile.run.Obeys _ _ [] from
    Request.reconcile_names key) hcurrent rfl).2.1

/-- **Every approval that is shown was stored by a pass that has counted the votes.** -/
theorem Reachable.approvalStored (h : Reachable rules cluster) (hshown : cluster.Shown request) :
    cluster.ApprovalStored request.key request.metadata.uid request.body := by
  refine h.request_induction_acts (P := ApprovalStored) ?_ ?_ ?_ hshown
  · exact fun hmoved hstored => hstored.moved hmoved
  · exact fun _ _ _ _ happroved => by cases happroved
  · intro cluster next place key past start request new status h hmoved hacts hunderway hstored
      happroved
    obtain ⟨start', hsecured, hjustified⟩ := hacts.naming h
    obtain ⟨rest, hcurrent, hafter⟩ := hacts
    obtain rfl := h.found_unique hcurrent rfl hsecured.found hunderway.secured.found
    have hfaithful := h.faithful_request hcurrent rfl hsecured
    by_cases hbefore : start'.body.status.state = .approved
    · rw [hfaithful.uid, hfaithful.body]
      exact hstored.moved hmoved hbefore
    · rcases hjustified happroved with hfound | ⟨entry, responses, hcarried, hrequired⟩
      · exact absurd hfound hbefore
      · have hcarried := hcarried.mono (List.suffix_cons
          (Deed.ofCall (.patchStatus .request request status) (.ok new)) past)
        rw [← hfaithful.body] at hbefore
        exact ⟨place, _, request, entry, responses, hafter,
          ⟨rfl, hbefore, hcarried.consulted.admitted, hcarried⟩,
          ⟨status, new, List.mem_cons_self, happroved, hrequired⟩, rfl, rfl⟩

/-- **The request of a grant that is filled in was approved**, by the pass that fills it in, or by
one that has got the approval stored. -/
theorem Reachable.approver (h : Reachable rules cluster)
    (hjournal : cluster.journals[place]? = some journal) (htarget : journal.target = .request key)
    (hnames : Request.Names key start request responses granted journal.deeds) :
    ∃ (place' : Nat) (approver : Journal) (approved : Request) (entry : PolicyEntry)
      (votes : List Response), cluster.journals[place']? = some approver ∧
      approver.Approves key approved entry votes ∧
      approved.metadata.uid = request.metadata.uid ∧ approved.body.spec = request.body.spec ∧
      (approver = journal ∧ votes = responses ∨ approver.StoresApproval approved entry) := by
  have hfaithful := h.faithful_request hjournal htarget hnames.secured
  by_cases hbefore : start.body.status.state = .approved
  · have hfound := hnames.secured.found
    obtain ⟨place', approver, approved, entry, votes, happrover, hdecided, hstored, huid, hspec⟩ :=
      h.approvalStored (Cluster.shown_of_found hjournal hfound) hbefore
    rw [h.key_of_found hjournal hfound] at hdecided
    exact ⟨place', approver, approved, entry, votes, happrover, hdecided,
      huid.trans hfaithful.uid.symm, hspec.trans (congrArg RequestBody.spec hfaithful.body.symm),
      .inr hstored⟩
  · rcases hnames.carried with hfound | ⟨entry, hcarried⟩
    · exact absurd hfound hbefore
    · rw [← hfaithful.body] at hbefore
      exact ⟨place, journal, request, entry, responses, hjournal,
        ⟨htarget, hbefore, hcarried.consulted.admitted, hcarried⟩, rfl, rfl, .inl ⟨rfl, rfl⟩⟩

/-- A grant that comes to be filled in is filled in by a pass on its request, in the name of those
whom that has heard. -/
theorem Reachable.names_of_filled (h : Reachable rules cluster) (hmoved : Moved rules cluster next)
    {grant : Grant} (hgrant : next.store.find? .grant key = some grant)
    (hfilled : grant.body.isPopulated = true)
    (hblank : ∀ old : Grant, cluster.store.find? .grant key = some old →
      old.body.isPopulated = false) :
    ∃ (place : Nat) (filler : Journal) (start request : Request) (responses : List Response),
      next.journals[place]? = some filler ∧ filler.target = .request key ∧
      (∃ base past, filler.deeds =
        .ofCall (.patchStatus .grant base grant.body) (.ok grant) :: past) ∧
      Request.Names key start request responses grant.body filler.deeds := by
  -- A grant that was filled in before is none that comes to be.
  have hold {old : Grant} (hfound : cluster.store.find? .grant key = some old)
      (hterms : grant.body.terms = old.body.terms) : False := by
    have hpopulated := (GrantStatus.isPopulated_of_terms hterms).symm.trans hfilled
    cases (hblank old hfound).symm.trans hpopulated
  cases (h.grantTurn hmoved key).becomes hgrant with
  | kept hfound _ hbody => exact (hold hfound (congrArg GrantStatus.terms hbody)).elim
  | launched _ _ hempty =>
    rw [hempty] at hfilled
    cases hfilled
  | recorded _ _ hterms hfound => exact (hold hfound hterms).elim
  | @filled place past _ _ _ base _ _ hacts =>
    obtain ⟨start, request, responses, hnames⟩ := hacts.naming h
    obtain ⟨rest, -, hafter⟩ := hacts
    exact ⟨place, _, start, request, responses, hafter, rfl, ⟨base, past, rfl⟩,
      hnames.mono (List.suffix_cons _ _)⟩

/-- **A grant names those who approved**: whenever a grant comes to be filled in, it names the
identities other than the subject that approve, each once, among the votes that the pass has heard
which fills it in. The request was approved by that pass and by these votes, or by a pass that has
got the approval stored. And whichever pass has approved it, those named are as many as the rule set
demanded by which it did, if everybody with an approving vote then has one still. -/
theorem Reachable.approvers_of_filled (h : Reachable rules cluster) {move : Move}
    (hmove : cluster.move rules move = some next) {grant : Grant}
    (hgrant : next.store.find? .grant key = some grant)
    (hfilled : grant.body.isPopulated = true)
    (hblank : ∀ old : Grant, cluster.store.find? .grant key = some old →
      old.body.isPopulated = false) :
    ∃ (place : Nat) (filler : Journal) (request : Request) (responses : List Response),
      next.journals[place]? = some filler ∧ filler.target = .request key ∧
      (∃ base past, filler.deeds =
        .ofCall (.patchStatus .grant base grant.body) (.ok grant) :: past) ∧
      (∃ start, Secured key filler.deeds start request) ∧
      grant.body.subject = request.body.spec.subject ∧
      Request.Heard request responses filler.deeds ∧
      grant.body.approvedBy.Nodup ∧ grant.body.subject ∉ grant.body.approvedBy ∧
      grant.body.approvedBy.toFinset =
        (Ballots.ofResponses grant.body.subject responses).approvers ∧
      (∃ (place' : Nat) (approver : Journal) (approved : Request) (entry : PolicyEntry)
        (votes : List Response), next.journals[place']? = some approver ∧
        approver.Approves key approved entry votes ∧
        approved.metadata.uid = request.metadata.uid ∧ approved.body.spec = request.body.spec ∧
        (approver = filler ∧ votes = responses ∧
            entry.policy.requiredApprovals.toNat ≤ grant.body.approvedBy.length ∨
          approver.StoresApproval approved entry)) ∧
      ∀ {approver : Journal} {approved : Request} {entry : PolicyEntry} {votes : List Response},
        approver.Approves key approved entry votes →
        (Ballots.ofResponses approved.body.spec.subject votes).approvers ⊆
          (Ballots.ofResponses grant.body.subject responses).approvers →
        entry.policy.requiredApprovals.toNat ≤ grant.body.approvedBy.length := by
  obtain ⟨place, filler, start, request, responses, hfiller, htarget, hfill, hnames⟩ :=
    h.names_of_filled (moved_of_move hmove) hgrant hfilled hblank
  have hnamed {approver : Journal} {approved : Request} {entry : PolicyEntry}
      {votes : List Response} (hdecided : approver.Approves key approved entry votes)
      (hstill : (Ballots.ofResponses approved.body.spec.subject votes).approvers ⊆
        (Ballots.ofResponses grant.body.subject responses).approvers) :
      entry.policy.requiredApprovals.toNat ≤ grant.body.approvedBy.length := by
    rw [hnames.length_approvedBy]
    exact hdecided.carried.enough.trans (Finset.card_le_card hstill)
  obtain ⟨place', approver, approved, entry, votes, happrover, hdecided, huid, hspec, horigin⟩ :=
    (h.step move hmove).approver hfiller htarget hnames
  refine ⟨place, filler, request, responses, hfiller, htarget, hfill, ⟨start, hnames.secured⟩,
    hnames.subject, hnames.heard, hnames.nodup, hnames.subject_notMem, hnames.toFinset_approvedBy,
    ⟨place', approver, approved, entry, votes, happrover, hdecided, huid, hspec,
      horigin.imp_left fun ⟨hsame, hvotes⟩ => ⟨hsame, hvotes, ?_⟩⟩, hnamed⟩
  refine hnamed hdecided ?_
  rw [hvotes, hspec, hnames.subject]

/-! ### A grant that cannot be created at once -/

/-- Bob has approved the request of alice, and the approval is stored, but no grant can be
created. -/
def Scenario.stalled : List Move :=
  approved ++ .start (.request Scenario.place) :: answers 0 6 ++
    [.refuse 0 (.internal "unavailable")] ++ answers 0 3

/-- Another pass has created the grant and is about to fill it in. -/
def Scenario.resumed : List Move :=
  .start (.request Scenario.place) :: answers 1 5

/-- Bob is named by the pass that comes after the one that has counted his vote. -/
theorem approvers_alice : ∃ (cluster next : Cluster) (move : Move) (grant : Grant),
    Reachable .honest cluster ∧ cluster.move .honest move = some next ∧
    next.store.find? .grant Scenario.place = some grant ∧ grant.body.isPopulated = true ∧
    (∀ old : Grant, cluster.store.find? .grant Scenario.place = some old →
      old.body.isPopulated = false) ∧
    grant.body.approvedBy = ["bob"] ∧ grant.body.subject ∉ grant.body.approvedBy ∧
    ∃ (place : Nat) (approver : Journal) (approved : Request) (entry : PolicyEntry)
      (votes : List Response), next.journals[place]? = some approver ∧
      approver.Approves Scenario.place approved entry votes := by
  obtain ⟨cluster, hreachable, next, hmove, grant, hgrant, ⟨hfilled, hnamed⟩, hblank⟩ :=
    exists_reachable
      (P := fun cluster => ∃ next ∈ cluster.move .honest (.answer 1 ""),
        ∃ grant ∈ next.store.find? .grant Scenario.place,
          (grant.body.isPopulated = true ∧ grant.body.approvedBy = ["bob"]) ∧
          ∀ old ∈ cluster.store.find? .grant Scenario.place, old.body.isPopulated = false)
      .honest (Scenario.stalled ++ Scenario.resumed) (by decide +kernel)
  obtain ⟨-, -, -, -, -, -, -, -, -, -, -, hsubject, -, ⟨place, approver, approved, entry, votes,
    happrover, hdecided, -⟩, -⟩ :=
    Reachable.approvers_of_filled hreachable hmove hgrant hfilled hblank
  exact ⟨cluster, next, .answer 1 "", grant, hreachable, hmove, hgrant, hfilled, hblank, hnamed,
    hsubject, place, approver, approved, entry, votes, happrover, hdecided⟩

/-- The policies that a deed has read. -/
def Scenario.policies? : Deed passInterface → Option PolicySnapshot
  | ⟨.policies, snapshot⟩ => some snapshot
  | _ => none

/-- Every rule set that any pass has read demands an approval. -/
def Scenario.Demanding (cluster : Cluster) : Prop :=
  ∀ journal ∈ cluster.journals, ∀ deed ∈ journal.deeds, ∀ snapshot ∈ policies? deed,
    ∀ entry ∈ snapshot.entries, 0 < entry.policy.requiredApprovals.toNat

instance : DecidablePred Scenario.Demanding := fun cluster =>
  inferInstanceAs (Decidable (∀ journal ∈ cluster.journals, ∀ deed ∈ journal.deeds,
    ∀ snapshot ∈ Scenario.policies? deed, ∀ entry ∈ snapshot.entries,
      0 < entry.policy.requiredApprovals.toNat))

/-- **Those who are named need not be enough**: bob withdraws his vote before the grant is filled
in, and nobody is named, although one approval was required. -/
theorem not_approved_by_required : ¬∀ {rules : Rules} {cluster next : Cluster} {key : Key}
    {move : Move} {grant : Grant} {request approved : Request} {place : Nat} {approver : Journal}
    {entry : PolicyEntry} {votes : List Response}, Reachable rules cluster →
    cluster.move rules move = some next → next.store.find? .grant key = some grant →
    grant.body.isPopulated = true →
    (∀ old : Grant, cluster.store.find? .grant key = some old → old.body.isPopulated = false) →
    next.store.find? .request key = some request →
    grant.body.requestId = request.body.status.requestId →
    next.journals[place]? = some approver → approver.Approves key approved entry votes →
    approver.StoresApproval approved entry → approved.metadata.uid = request.metadata.uid →
    entry.policy.requiredApprovals.toNat ≤ grant.body.approvedBy.toFinset.card ∧
      grant.body.subject ∉ grant.body.approvedBy := by
  intro hrequired
  obtain ⟨cluster, hreachable, next, hmove, grant, hgrant, ⟨hfilled, hnamed⟩, hblank, request,
      hrequest, ⟨hid, happroved⟩, hdemands⟩ := exists_reachable
    (P := fun cluster => ∃ next ∈ cluster.move .honest (.answer 1 ""),
      ∃ grant ∈ next.store.find? .grant Scenario.place,
        (grant.body.isPopulated = true ∧ grant.body.approvedBy = []) ∧
        (∀ old ∈ cluster.store.find? .grant Scenario.place, old.body.isPopulated = false) ∧
        ∃ request ∈ next.store.find? .request Scenario.place,
          (grant.body.requestId = request.body.status.requestId ∧
            request.body.status.state = .approved) ∧ Scenario.Demanding next)
    .honest (Scenario.stalled ++ .user (.delete .response ⟨some "team", "b"⟩) "" ::
      Scenario.resumed) (by decide +kernel)
  have hnext := hreachable.step _ hmove
  have hkey := hnext.sound.keyed _ _ _ hrequest
  obtain ⟨place, approver, approved, entry, votes, happrover, hdecided, hstored, huid, -⟩ :=
    hnext.approvalStored (.inl (hnext.sound.stores hrequest)) happroved
  rw [hkey] at hdecided
  have henough := (hrequired hreachable hmove hgrant hfilled hblank hrequest hid happrover hdecided
    hstored huid).1
  obtain ⟨snapshot, hsnapshot, -, hentry, -⟩ := hdecided.admitted
  have hdemand := hdemands approver (List.mem_of_getElem? happrover) _ hsnapshot snapshot rfl entry
    hentry
  rw [hnamed] at henough
  exact absurd henough (Nat.not_le.2 hdemand)

end Cluster

end AccessBroker
