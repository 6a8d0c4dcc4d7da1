import AccessBroker.Proofs.Cluster.Turns

/-!
# No grant without an approval

Whenever a grant is filled in, the pass that does it has found a rule set that admits the
request, and the votes that the request needs were seen: by this pass, or by an earlier one on
the very same request, which wrote the approval down
(`AccessBroker.Cluster.Reachable.approved_of_filled`). In between, policies, votes and even the
request may have changed. What carries over is the status of the request: a status that says
approved was written by a pass that saw the votes, or that found the approval, and the request
that it was found in has the same identifier
(`AccessBroker.Cluster.Reachable.approval_seen`).
-/

namespace AccessBroker

open AccessBroker.Text

/-! ### Votes -/

/-- The responses meet what a rule set demands: nobody but the subject denies, and enough
different identities other than the subject approve. -/
structure PolicyEntry.IsMet (entry : PolicyEntry) (subject : String)
    (responses : List Response) : Prop where
  undenied : ∀ response ∈ responses, response.body.response = .denied →
    response.body.approver = subject
  approved : ∃ voters : List String, voters.Nodup ∧
    entry.policy.requiredApprovals.toNat ≤ voters.length ∧
    ∀ voter ∈ voters, voter ≠ subject ∧ ∃ response ∈ responses,
      response.body.approver = voter ∧ response.body.response = .approved

namespace Tally

variable {subject voter : String} {tally : Tally} {response : Response} {responses : List Response}

theorem mem_approvers_count : voter ∈ (tally.count subject response).approvers ↔
    voter ∈ tally.approvers ∨ response.body.approver = voter ∧ voter ≠ subject ∧
      response.body.response = .approved := by
  unfold count
  dsimp only
  split
  · next h => simp only [h]; grind
  · next h =>
    split
    · next hvote => simp only [NameSet.mem_insert, hvote]; grind
    · next hvote => simp [hvote]

theorem mem_deniers_count : voter ∈ (tally.count subject response).deniers ↔
    voter ∈ tally.deniers ∨ response.body.approver = voter ∧ voter ≠ subject ∧
      response.body.response = .denied := by
  unfold count
  dsimp only
  split
  · next h => simp only [h]; grind
  · next h =>
    split
    · next hvote => simp [hvote]
    · next hvote => simp only [NameSet.mem_insert, hvote]; grind

theorem mem_approvers_foldl : voter ∈ (responses.foldl (count subject) tally).approvers ↔
    voter ∈ tally.approvers ∨ voter ≠ subject ∧ ∃ response ∈ responses,
      response.body.approver = voter ∧ response.body.response = .approved := by
  induction responses generalizing tally with
  | nil => simp
  | cons response rest ih =>
    rw [List.foldl_cons, ih, mem_approvers_count]
    simp only [List.mem_cons, exists_eq_or_imp]
    grind

theorem mem_deniers_foldl : voter ∈ (responses.foldl (count subject) tally).deniers ↔
    voter ∈ tally.deniers ∨ voter ≠ subject ∧ ∃ response ∈ responses,
      response.body.approver = voter ∧ response.body.response = .denied := by
  induction responses generalizing tally with
  | nil => simp
  | cons response rest ih =>
    rw [List.foldl_cons, ih, mem_deniers_count]
    simp only [List.mem_cons, exists_eq_or_imp]
    grind

/-- Nobody is among the voters before the votes are counted. -/
theorem not_mem_empty (name : String) : ¬name ∈ NameSet.empty :=
  List.not_mem_nil

/-- **Those who approve** are the voters other than the subject with an approving vote. -/
theorem mem_approvers : voter ∈ (ofResponses subject responses).approvers ↔
    voter ≠ subject ∧ ∃ response ∈ responses,
      response.body.approver = voter ∧ response.body.response = .approved :=
  mem_approvers_foldl.trans (or_iff_right (not_mem_empty voter))

/-- **Those who deny**, likewise. -/
theorem mem_deniers : voter ∈ (ofResponses subject responses).deniers ↔
    voter ≠ subject ∧ ∃ response ∈ responses,
      response.body.approver = voter ∧ response.body.response = .denied :=
  mem_deniers_foldl.trans (or_iff_right (not_mem_empty voter))

/-- As many approvals are recorded as there are, up to the largest number that can be. -/
theorem approvals_toNat (tally : Tally) :
    tally.approvals.toNat = min tally.approvers.size (UInt32.size - 1) := by
  rw [approvals, UInt32.toNat_ofNat']
  exact Nat.mod_eq_of_lt (by simp only [UInt32.size]; omega)

/-- No more approvals can be required than can be recorded. -/
theorem le_approvals_iff (tally : Tally) (required : UInt32) :
    required ≤ tally.approvals ↔ required.toNat ≤ tally.approvers.size := by
  have hlt : required.toNat < UInt32.size := required.toNat_lt
  rw [UInt32.le_iff_toNat_le, approvals_toNat]
  omega

/-- **A tally without a denial and with enough approvals** meets what a rule set demands. -/
theorem isMet {entry : PolicyEntry}
    (hundenied : (ofResponses subject responses).isDenied = false)
    (hrequired : entry.policy.requiredApprovals ≤ (ofResponses subject responses).approvals) :
    entry.IsMet subject responses where
  undenied response hresponse hdenied := by
    refine Decidable.byContradiction fun hother => ?_
    have hdenier := mem_deniers.2 ⟨hother, response, hresponse, rfl, hdenied⟩
    have hnobody : (ofResponses subject responses).deniers.toList = [] := by
      simpa [isDenied, NameSet.isEmpty] using hundenied
    change _ ∈ (ofResponses subject responses).deniers.toList at hdenier
    rw [hnobody] at hdenier
    cases hdenier
  approved := by
    refine ⟨(ofResponses subject responses).approvers.toList, NameSet.nodup_toList _, ?_,
      fun voter hvoter => ?_⟩
    · exact (le_approvals_iff _ _).1 hrequired
    · exact mem_approvers.1 hvoter

end Tally

/-! ### What a pass has seen -/

/-- What is resolved is a rule set of the scope of the request that admits it. -/
theorem PolicySnapshot.resolve_eq_some {snapshot : PolicySnapshot} {request : Request}
    {entry : PolicyEntry} (h : snapshot.resolve request = some entry) :
    entry ∈ snapshot.entries ∧ entry.scope = request.scope ∧
      entry.policy.admits request.body.spec = true := by
  have hadmits := List.find?_some h
  have happlicable := List.mem_filter.1 (List.mem_of_find?_eq_some h)
  exact ⟨happlicable.1, by simpa using happlicable.2, hadmits⟩

namespace Request

/-- A pass has read, from the policies, a rule set of the scope of the request that admits
it. -/
def Admitted (request : Request) (entry : PolicyEntry) (deeds : Deeds) : Prop :=
  ∃ snapshot : PolicySnapshot, (⟨.policies, snapshot⟩ : Deed passInterface) ∈ deeds ∧
    snapshot.resolve request = some entry ∧ entry ∈ snapshot.entries ∧
    entry.scope = request.scope ∧ entry.policy.admits request.body.spec = true

/-- A pass has seen a request approved: a rule set admits it, and the responses that it read
meet what that rule set demands. -/
def SeenApproved (request : Request) (deeds : Deeds) : Prop :=
  ∃ entry responses, Admitted request entry deeds ∧ Heard request responses deeds ∧
    entry.IsMet request.body.spec.subject responses

variable {key : Key} {request : Request} {deeds : Deeds}

theorem Consulted.admitted {entry : PolicyEntry} (h : Consulted request entry deeds) :
    Admitted request entry deeds := by
  obtain ⟨snapshot, hsnapshot, hresolve⟩ := h
  exact ⟨snapshot, hsnapshot, hresolve, PolicySnapshot.resolve_eq_some hresolve⟩

theorem Tallied.seenApproved (h : Tallied request deeds) : SeenApproved request deeds := by
  obtain ⟨entry, responses, hentry, hheard, hundenied, hrequired⟩ := h
  exact ⟨entry, responses, hentry.admitted, hheard, Tally.isMet hundenied hrequired⟩

end Request

namespace Cluster

variable {rules : Rules} {cluster next : Cluster} {key : Key}

/-! ### Approvals that were seen before -/

/-- A pass on a request object has seen it approved. -/
def SawApproved (cluster : Cluster) (key : Key) (uid : String) (spec : RequestSpec)
    (id : String) : Prop :=
  ∃ (place : Nat) (journal : Journal) (request : Request),
    cluster.journals[place]? = some journal ∧ journal.target = .request key ∧
    Request.WorksOn key request id journal.deeds ∧ request.metadata.uid = uid ∧
    request.body.spec = spec ∧ Request.Tallied request journal.deeds

/-- What was seen was seen for good. -/
theorem SawApproved.moved {uid id : String} {spec : RequestSpec}
    (h : cluster.SawApproved key uid spec id) (hmoved : Moved rules cluster next) :
    next.SawApproved key uid spec id := by
  obtain ⟨place, journal, request, hjournal, htarget, hworks, huid, hspec, htallied⟩ := h
  obtain ⟨later, hlater, hsame, hsuffix⟩ := hmoved.remains hjournal
  exact ⟨place, later, request, hlater, hsame.trans htarget, hworks.mono hsuffix, huid, hspec,
    htallied.mono hsuffix⟩

/-- A pass that has reached an approval has seen it, or found it in a request for which it had
been seen. -/
theorem Reachable.sawApproved (h : Reachable rules cluster) {place : Nat} {journal : Journal}
    {start request : Request} {status : RequestStatus}
    (hjournal : cluster.journals[place]? = some journal) (htarget : journal.target = .request key)
    (hunderway : Request.Underway key start request status journal.deeds)
    (happroved : status.state = .approved)
    (hseen : start.body.status.requestId ≠ "" → start.body.status.state = .approved →
      cluster.SawApproved key start.metadata.uid start.body.spec start.body.status.requestId) :
    cluster.SawApproved key request.metadata.uid request.body.spec status.requestId := by
  rcases hunderway.approved happroved with ⟨hnamed, hstate⟩ | htallied
  · have hfaithful := h.faithful_request hjournal htarget hunderway.secured
    have hid : start.body.status.requestId = status.requestId := by
      rcases hunderway.holds with ⟨-, hid⟩ | ⟨hunnamed, -⟩
      · exact hid
      · exact absurd hunnamed hnamed
    rw [hfaithful.uid, hfaithful.body, ← hid]
    exact hseen hnamed hstate
  · exact ⟨place, journal, request, hjournal, htarget, hunderway.worksOn, rfl, rfl, htallied⟩

/-- **An approval that is stored was seen**, by a pass on the same request object under the same
identifier. -/
theorem Reachable.approval_seen (h : Reachable rules cluster) {request : Request}
    (hshown : cluster.Shown request) (hnamed : request.body.status.requestId ≠ "")
    (happroved : request.body.status.state = .approved) :
    cluster.SawApproved request.key request.metadata.uid request.body.spec
      request.body.status.requestId := by
  revert hnamed happroved
  refine h.request_induction (P := fun cluster key uid body => body.status.requestId ≠ "" →
    body.status.state = .approved →
    cluster.SawApproved key uid body.spec body.status.requestId) ?_ ?_ ?_ hshown
  · exact fun hmoved hseen hnamed happroved => (hseen hnamed happroved).moved hmoved
  · exact fun _ _ _ _ hnamed => absurd rfl hnamed
  · exact fun h hjournal htarget hunderway hseen _ happroved =>
      h.sawApproved hjournal htarget hunderway happroved hseen

/-- **No grant without an approval**: whenever a grant comes to be filled in under an identifier
that the grant under its key did not have before, a pass on the request with that key does it;
that pass has read a rule set of the scope of the request that admits it; and it, or a pass
before it on the same request object under the same identifier and for the same access, has seen
the request approved. -/
theorem Reachable.approved_of_filled (h : Reachable rules cluster) {move : Move}
    (hmove : cluster.move rules move = some next) {grant : Grant}
    (hgrant : next.store.find? .grant key = some grant)
    (hfilled : grant.body.isPopulated = true)
    (hnew : ∀ old : Grant, cluster.store.find? .grant key = some old →
      old.body.requestId ≠ grant.body.requestId) :
    ∃ (place : Nat) (filler : Journal) (request : Request),
      next.journals[place]? = some filler ∧ filler.target = .request key ∧
      (∃ base past, filler.deeds =
        .ofCall (.patchStatus .grant base grant.body) (.ok grant) :: past) ∧
      Request.WorksOn key request grant.body.requestId filler.deeds ∧
      (∃ entry, Request.Admitted request entry filler.deeds) ∧
      ∃ (place' : Nat) (approver : Journal) (approved : Request),
        next.journals[place']? = some approver ∧ approver.target = .request key ∧
        Request.WorksOn key approved grant.body.requestId approver.deeds ∧
        approved.metadata.uid = request.metadata.uid ∧
        approved.body.spec.subject = grant.body.subject ∧
        approved.body.spec.role = grant.body.role ∧
        approved.body.spec.permissions = grant.body.permissions ∧
        approved.body.spec.duration = grant.body.duration ∧
        Request.SeenApproved approved approver.deeds := by
  have hmoved := moved_of_move hmove
  -- A grant that was stored before under the same identifier is none that was filled in now.
  have hold {old : Grant} (hfound : cluster.store.find? .grant key = some old)
      (hid : grant.body.requestId = old.body.requestId) : False :=
    hnew old hfound hid.symm
  cases h.grantTurn hmoved key with
  | kept hsame => exact (hold (hsame.symm.trans hgrant) rfl).elim
  | launched _ hstored _ hblank =>
    obtain rfl := Option.some.inj (hstored.symm.trans hgrant)
    rw [hblank] at hfilled
    cases hfilled
  | recorded _ _ hterms hfound hstored =>
    obtain rfl := Option.some.inj (hstored.symm.trans hgrant)
    exact (hold hfound (GrantStatus.eq_of_terms GrantStatus.requestId hterms fun _ => rfl)).elim
  | secured _ _ _ hfound hstored =>
    obtain rfl := Option.some.inj (hstored.symm.trans hgrant)
    exact (hold hfound rfl).elim
  | released _ _ _ hfound hleft =>
    rcases hleft with ⟨hgone, -⟩ | hstored
    · rw [hgone] at hgrant
      cases hgrant
    · obtain rfl := Option.some.inj (hstored.symm.trans hgrant)
      exact (hold hfound rfl).elim
  | discarded _ _ _ hfound hleft | revoked _ hfound hleft =>
    exact (hold hfound (congrArg GrantStatus.requestId (hleft.left hgrant).2)).elim
  | @filled place past start request status entry base approvers version hacts hunderway happroved
      hconsulted hopened hblank hfound hstored =>
    obtain rfl := Option.some.inj (hstored.symm.trans hgrant)
    obtain ⟨rest, hcurrent, hafter⟩ := hacts
    obtain ⟨hid, -, hsubject, hrole, hpermissions, hduration⟩ :=
      request.grantStatus_eq status.requestId approvers
    have hgrantId : (base.patched (request.grantStatus status.requestId approvers)
        version).body.requestId = status.requestId := hid
    have hstart := hunderway.secured.found
    have hearlier := h.approval_seen (Cluster.shown_of_found hcurrent hstart)
    rw [h.key_of_found hcurrent hstart] at hearlier
    have hseen := h.sawApproved hcurrent rfl hunderway happroved hearlier
    obtain ⟨place', approver, approved, happrover, htarget, hworks, huid, hspec, htallied⟩ :=
      hseen.moved hmoved
    refine ⟨place, _, request, hafter, rfl, ⟨base, past, rfl⟩, ?_, ⟨entry, ?_⟩,
      place', approver, approved, happrover, htarget, ?_, huid, ?_, ?_, ?_, ?_,
      htallied.seenApproved⟩
    · rw [hgrantId]
      exact hunderway.worksOn.mono (List.suffix_cons _ _)
    · exact (hconsulted.mono (List.suffix_cons _ _)).admitted
    · rw [hgrantId]
      exact hworks
    · exact (congrArg RequestSpec.subject hspec).trans hsubject.symm
    · exact (congrArg RequestSpec.role hspec).trans hrole.symm
    · exact (congrArg RequestSpec.permissions hspec).trans hpermissions.symm
    · exact (congrArg RequestSpec.duration hspec).trans hduration.symm

/-- The pass that fills in the grant of alice has seen that bob approved. -/
theorem approved_alice : ∃ (cluster next : Cluster) (move : Move) (grant : Grant),
    Reachable .unrestricted cluster ∧ cluster.move .unrestricted move = some next ∧
    next.store.find? .grant Scenario.place = some grant ∧ grant.body.isPopulated = true ∧
    (∀ old : Grant, cluster.store.find? .grant Scenario.place = some old →
      old.body.requestId ≠ grant.body.requestId) ∧
    ∃ (place : Nat) (approver : Journal) (approved : Request),
      next.journals[place]? = some approver ∧
      approved.body.spec.subject = grant.body.subject ∧
      Request.SeenApproved approved approver.deeds := by
  obtain ⟨cluster, hreachable, next, hmove, grant, hgrant, hfilled, hnew⟩ := exists_reachable
    (P := fun cluster => ∃ next ∈ cluster.move .unrestricted (.answer 0 ""),
      ∃ grant ∈ next.store.find? .grant Scenario.place, grant.body.isPopulated = true ∧
        ∀ old ∈ cluster.store.find? .grant Scenario.place,
          old.body.requestId ≠ grant.body.requestId)
    .unrestricted (Scenario.approved ++ .start (.request Scenario.place) :: Scenario.answers 0 7)
    (by decide +kernel)
  obtain ⟨-, -, -, -, -, -, -, -, place, approver, approved, happrover, -, -, -, hsubject, -, -, -,
    hseen⟩ := Reachable.approved_of_filled hreachable hmove hgrant hfilled hnew
  exact ⟨cluster, next, .answer 0 "", grant, hreachable, hmove, hgrant, hfilled, hnew, place,
    approver, approved, happrover, hsubject, hseen⟩

end Cluster

end AccessBroker
