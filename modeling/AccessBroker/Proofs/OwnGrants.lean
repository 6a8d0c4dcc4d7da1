import AccessBroker.Proofs.Cluster.Removals

/-!
# Whose grant a request has

When a pass on a request records that the grant exists, the grant may be that of another
request: the pass takes whatever grant it finds filled in under the key. The grant is the own
one of the request exactly where a pass on this very request object has filled one in
(`AccessBroker.Cluster.Reachable.ownGrant_iff`): what it has filled in stays
(`AccessBroker.Cluster.Reachable.kept`), and nobody else could have filled it in, because the
identifier was drawn for this object alone.
-/

namespace AccessBroker

/-- A grant is filled in with the identifier of a request and what that asks for. -/
structure Grant.IsFor (grant : Grant) (request : Request) : Prop where
  populated : grant.body.isPopulated = true
  requestId : grant.body.requestId = request.body.status.requestId
  name : grant.body.request = request.metadata.name
  subject : grant.body.subject = request.body.spec.subject
  role : grant.body.role = request.body.spec.role
  permissions : grant.body.permissions = request.body.spec.permissions
  duration : grant.body.duration = request.body.spec.duration

instance (grant : Grant) (request : Request) : Decidable (grant.IsFor request) :=
  decidable_of_iff
    (grant.body.isPopulated = true ∧ grant.body.requestId = request.body.status.requestId ∧
      grant.body.request = request.metadata.name ∧ grant.body.subject = request.body.spec.subject ∧
      grant.body.role = request.body.spec.role ∧
      grant.body.permissions = request.body.spec.permissions ∧
      grant.body.duration = request.body.spec.duration)
    ⟨fun ⟨hpopulated, hid, hname, hsubject, hrole, hpermissions, hduration⟩ =>
      ⟨hpopulated, hid, hname, hsubject, hrole, hpermissions, hduration⟩,
    fun ⟨hpopulated, hid, hname, hsubject, hrole, hpermissions, hduration⟩ =>
      ⟨hpopulated, hid, hname, hsubject, hrole, hpermissions, hduration⟩⟩

namespace Cluster

variable {rules : Rules} {cluster next : Cluster} {key : Key}

/-- The grant under the key of a request is its own. -/
def HasOwnGrant (cluster : Cluster) (request : Request) : Prop :=
  ∃ grant : Grant, cluster.store.find? .grant request.key = some grant ∧ grant.IsFor request

instance (cluster : Cluster) (request : Request) : Decidable (cluster.HasOwnGrant request) :=
  inferInstanceAs (Decidable (∃ grant ∈ cluster.store.find? .grant request.key,
    Grant.IsFor grant request))

/-- A pass on a request object has filled in a grant under its identifier. -/
def WasFilled (cluster : Cluster) (request : Request) (given : Grant) : Prop :=
  ∃ found : Request, cluster.Filled request.key found request.body.status.requestId given ∧
    found.metadata.uid = request.metadata.uid

/-- A pass on a request object was given a grant that is filled in under another identifier. -/
def Adopted (cluster : Cluster) (request : Request) : Prop :=
  ∃ (place : Nat) (journal : Journal) (found : Request) (grant : Grant),
    cluster.journals[place]? = some journal ∧ journal.target = .request request.key ∧
    Request.WorksOn request.key found request.body.status.requestId journal.deeds ∧
    found.metadata.uid = request.metadata.uid ∧ Request.Opened found grant journal.deeds ∧
    grant.body.isPopulated = true ∧ grant.body.requestId ≠ request.body.status.requestId

/-- **What was filled in for a request object is what the stored one asks for.** -/
theorem Reachable.isFor (h : Reachable rules cluster) {request : Request} {given grant : Grant}
    (hrequest : cluster.store.find? .request request.key = some request)
    (hfilled : cluster.WasFilled request given)
    (hgrant : cluster.store.find? .grant request.key = some grant)
    (huid : grant.metadata.uid = given.metadata.uid) : grant.IsFor request := by
  obtain ⟨found, hfilled, hobject⟩ := hfilled
  obtain ⟨hshown, hplace, hpopulated, approvers, hbody⟩ := h.given hfilled
  obtain ⟨pass, journal, hjournal, htarget, hsupplied⟩ := hfilled
  have hterms := h.grant_lineage hshown hpopulated (hplace.symm ▸ hgrant) huid
  obtain ⟨hfound, hkey⟩ := h.shown_of_worksOn hjournal htarget hsupplied.worksOn
  have hspec := (h.request_lineage hfound (hkey.symm ▸ hrequest) hobject.symm).spec
  obtain ⟨hid, hname, hsubject, hrole, hpermissions, hduration⟩ :=
    found.grantStatus_eq request.body.status.requestId approvers
  -- Each part of the terms is the one that was filled in.
  have hpart {α : Type} (part : GrantStatus → α)
      (hpart : ∀ status, part status.terms = part status) :
      part grant.body = part (found.grantStatus request.body.status.requestId approvers) := by
    rw [← hbody]
    exact GrantStatus.eq_of_terms part hterms hpart
  exact {
    populated := (GrantStatus.isPopulated_of_terms hterms).trans hpopulated
    requestId := (hpart GrantStatus.requestId fun _ => rfl).trans hid
    name := ((hpart GrantStatus.request fun _ => rfl).trans hname).trans
      (congrArg Key.name hkey)
    subject := ((hpart GrantStatus.subject fun _ => rfl).trans hsubject).trans
      (congrArg RequestSpec.subject hspec.symm)
    role := ((hpart GrantStatus.role fun _ => rfl).trans hrole).trans
      (congrArg RequestSpec.role hspec.symm)
    permissions := ((hpart GrantStatus.permissions fun _ => rfl).trans hpermissions).trans
      (congrArg RequestSpec.permissions hspec.symm)
    duration := ((hpart GrantStatus.duration fun _ => rfl).trans hduration).trans
      (congrArg RequestSpec.duration hspec.symm) }

/-- **The stored grant is the own one of a stored request** exactly where a pass on this request
object has filled it in. -/
theorem Reachable.hasOwnGrant_iff (h : Reachable rules cluster) {request : Request}
    (hrequest : cluster.store.find? .request request.key = some request) :
    cluster.HasOwnGrant request ↔ ∃ grant given : Grant,
      cluster.store.find? .grant request.key = some grant ∧ cluster.WasFilled request given ∧
        grant.metadata.uid = given.metadata.uid := by
  constructor
  · rintro ⟨grant, hgrant, hfor⟩
    obtain ⟨-, found, given, hfilled, hobject, huid⟩ := h.filled_for (.inl hrequest)
      (.inl (h.sound.stores hgrant)) hfor.populated hfor.requestId
    exact ⟨grant, given, hgrant, ⟨found, hfilled, hobject⟩, huid.symm⟩
  · rintro ⟨grant, given, hgrant, hfilled, huid⟩
    exact ⟨grant, hgrant, h.isFor hrequest hfilled hgrant huid⟩

/-- **Where the rules are honest, it is enough that a pass on the request object has filled in a
grant**: the grant is still stored. -/
theorem Reachable.hasOwnGrant_of_filled (h : Reachable rules cluster) (hrules : rules.AreHonest)
    {request : Request} (hrequest : cluster.store.find? .request request.key = some request)
    (hlive : request.metadata.isDeleting = false) {given : Grant}
    (hfilled : cluster.WasFilled request given) : cluster.HasOwnGrant request := by
  obtain ⟨found, hgiven, hobject⟩ := id hfilled
  rcases h.kept hrules hgiven with ⟨grant, hgrant, huid⟩ | hparted
  · exact ⟨grant, hgrant, h.isFor hrequest hfilled hgrant huid⟩
  · rw [hparted request hrequest hobject.symm] at hlive
    cases hlive

/-- **A grant that is recorded was known**: a pass on the same request object, under its
identifier, was given one that is filled in, or has filled one in. -/
theorem Reachable.grant_known (h : Reachable rules cluster) {request : Request}
    (hshown : cluster.Shown request) (hcreated : request.body.status.grantCreated = true) :
    request.body.status.requestId ≠ "" ∧ ∃ (place : Nat) (journal : Journal) (found : Request),
      cluster.journals[place]? = some journal ∧ journal.target = .request request.key ∧
      Request.WorksOn request.key found request.body.status.requestId journal.deeds ∧
      found.metadata.uid = request.metadata.uid ∧
      Request.Granted request.key found request.body.status.requestId journal.deeds := by
  revert hcreated
  refine h.request_induction (P := fun cluster key uid body => body.status.grantCreated = true →
    body.status.requestId ≠ "" ∧ ∃ (place : Nat) (journal : Journal) (found : Request),
      cluster.journals[place]? = some journal ∧ journal.target = .request key ∧
      Request.WorksOn key found body.status.requestId journal.deeds ∧
      found.metadata.uid = uid ∧
      Request.Granted key found body.status.requestId journal.deeds) ?_ ?_ ?_ hshown
  · intro cluster next key uid body hmoved hknown hcreated
    obtain ⟨hnamed, place, journal, found, hjournal, htarget, hworks, huid, hgranted⟩ :=
      hknown hcreated
    obtain ⟨later, hlater, hsame, hsuffix⟩ := hmoved.remains hjournal
    exact ⟨hnamed, place, later, found, hlater, hsame.trans htarget, hworks.mono hsuffix, huid,
      hgranted.mono hsuffix⟩
  · exact fun _ _ _ _ hcreated => by cases hcreated
  · intro cluster place journal key start request status h hjournal htarget hunderway hknown
      hcreated
    rcases hunderway.created hcreated with hearlier | hgranted
    · obtain ⟨hnamed, hknown⟩ := hknown hearlier
      have hfaithful := h.faithful_request hjournal htarget hunderway.secured
      rcases hunderway.holds with ⟨-, hid⟩ | ⟨hunnamed, -⟩
      · rw [hid] at hnamed hknown
        rw [hfaithful.uid]
        exact ⟨hnamed, hknown⟩
      · exact absurd hunnamed hnamed
    · exact ⟨(h.drawn_of_worksOn hjournal htarget hunderway.worksOn).1, place, journal, request,
        hjournal, htarget, hunderway.worksOn, rfl, hgranted⟩

/-- **A recorded grant was filled in or adopted** by a pass on the same request object. -/
theorem Reachable.filled_or_adopted (h : Reachable rules cluster) {request : Request}
    (hshown : cluster.Shown request) (hcreated : request.body.status.grantCreated = true) :
    (∃ given, cluster.WasFilled request given) ∨ cluster.Adopted request := by
  obtain ⟨-, place, journal, found, hjournal, htarget, hworks, hobject, hgranted⟩ :=
    h.grant_known hshown hcreated
  rcases hgranted with ⟨grant, hopened, hpopulated⟩ | ⟨given, hsupplied⟩
  · by_cases hid : grant.body.requestId = request.body.status.requestId
    · have hgrant := shown_of_opened hjournal hopened
      obtain ⟨-, other, given, hfilled, hsame, -⟩ := h.filled_for hshown hgrant hpopulated hid
      exact .inl ⟨given, other, hfilled, hsame⟩
    · exact .inr ⟨place, journal, found, grant, hjournal, htarget, hworks, hobject, hopened,
        hpopulated, hid⟩
  · exact .inl ⟨given, found, ⟨place, journal, hjournal, htarget, hsupplied⟩, hobject⟩

/-- **A recorded grant is the own one of its request, or an adopted one**: when a pass writes a
status that records the grant, the grant under the key is filled in with the identifier of this very
request object and what that asks for exactly where a pass on the object has filled it in. While
the rules are honest this is so as soon as a pass on the object has filled in any grant; where none
has, a pass on the object was given a grant that had been filled in under another identifier. -/
theorem Reachable.ownGrant_iff (h : Reachable rules cluster) {move : Move}
    (hmove : cluster.move rules move = some next) {place : Nat} {past : Deeds}
    {base request : Request} {status : RequestStatus}
    (hacts : Acts cluster next place (.request key) past (.patchStatus .request base status)
      (.ok request)) (hcreated : request.body.status.grantCreated = true) :
    (next.HasOwnGrant request ↔ ∃ grant given : Grant,
      next.store.find? .grant request.key = some grant ∧ next.WasFilled request given ∧
        grant.metadata.uid = given.metadata.uid) ∧
    (rules.AreHonest → (next.HasOwnGrant request ↔ ∃ given, next.WasFilled request given)) ∧
    ((¬∃ given, next.WasFilled request given) → next.Adopted request) := by
  have hnext := h.step move hmove
  have hserved := hacts.served (moved_of_move hmove)
  obtain ⟨rest, hcurrent, hacted⟩ := hacts
  have hstored := hserved.stores_of_gives h.sound.keyed .patched
  have hlive : request.metadata.isDeleting = false := by
    obtain ⟨version, rfl⟩ := hnext.patched hacted List.mem_cons_self
    cases (h.orderly _ _ hcurrent).allowed with
    | write hunderway =>
      have hlive := (h.faithful_request hcurrent rfl hunderway.secured).live
      exact hlive
  have hown := hnext.hasOwnGrant_iff hstored
  refine ⟨hown, fun hrules => ⟨fun h => ?_, fun ⟨given, hfilled⟩ => ?_⟩, fun hnone => ?_⟩
  · obtain ⟨-, given, -, hfilled, -⟩ := hown.1 h
    exact ⟨given, hfilled⟩
  · exact hnext.hasOwnGrant_of_filled hrules hstored hlive hfilled
  · exact (hnext.filled_or_adopted (.inl hstored) hcreated).resolve_left hnone

/-- What comes of it if the next call of a pass is answered and writes the status of a request. -/
def writing (cluster : Cluster) (pass : Nat) : Option (Request × Cluster) :=
  match cluster.journals[pass]? with
  | some ⟨.request key, past, .ask (.store (.patchStatus .request base status)) rest⟩ =>
    match cluster.perform "" (.patchStatus .request base status) with
    | some (.ok request, after) =>
      some (request, after.advance pass (.request key) past
        (.store (.patchStatus .request base status)) rest (.ok request))
    | _ => none
  | _ => none

theorem acts_of_writing {pass : Nat} {request : Request}
    (h : cluster.writing pass = some (request, next)) :
    cluster.move rules (.answer pass "") = some next ∧ ∃ key past base status,
      Acts cluster next pass (.request key) past (.patchStatus .request base status)
        (.ok request) := by
  unfold writing at h
  split at h
  · next key past base status rest hcurrent =>
    split at h
    · next written after hperform =>
      obtain ⟨rfl, rfl⟩ := Prod.mk.inj (Option.some.inj h)
      obtain ⟨hmove, hacts⟩ := acts_of_answer hcurrent hperform
      exact ⟨hmove, key, past, base, status, hacts⟩
    · cases h
  · cases h

/-- The grant of alice is her own. -/
theorem own_alice : ∃ (cluster next : Cluster) (move : Move) (request : Request),
    Reachable .honest cluster ∧ cluster.move .honest move = some next ∧
    (∃ place key past base status, Acts cluster next place (.request key) past
      (.patchStatus .request base status) (.ok request)) ∧
    request.body.status.grantCreated = true ∧ next.HasOwnGrant request ∧
    ∃ given, next.WasFilled request given := by
  obtain ⟨cluster, hreachable, ⟨request, next⟩, hwriting, hcreated, hown⟩ := exists_reachable
    (P := fun cluster => ∃ written ∈ cluster.writing 0,
      written.1.body.status.grantCreated = true ∧ written.2.HasOwnGrant written.1)
    .honest (Scenario.approved ++ .start (.request Scenario.place) :: Scenario.answers 0 8)
    (by decide +kernel)
  obtain ⟨hmove, key, past, base, status, hacts⟩ := acts_of_writing hwriting
  obtain ⟨-, hhonest, -⟩ := Reachable.ownGrant_iff hreachable hmove hacts hcreated
  exact ⟨cluster, next, .answer 0 "", request, hreachable, hmove,
    ⟨0, key, past, base, status, hacts⟩, hcreated, hown, (hhonest Rules.areHonest_honest).1 hown⟩

/-- The request of alice is approved and gets its grant; alice withdraws it, and mallory files one
under the same name, which bob approves, too. -/
def Scenario.refiled : List Move :=
  approved ++ .start (.request place) :: answers 0 11 ++
    .user (.delete .request place) "" :: .start (.request place) :: answers 1 4 ++
    [.user (.create .request (request "mallory")) "mallory",
      .user (.create .response (vote "b" "bob" .approved)) "bob again"] ++
    .start (.request place) :: answers 2 8

/-- **A recorded grant need not be the own one**: it is not so that whenever a pass writes a status
that records the grant, the grant under the key is that of the request. -/
theorem recorded_not_own : ¬∀ (cluster next : Cluster) (move : Move) (place : Nat) (key : Key)
    (past : Deeds) (base request : Request) (status : RequestStatus),
    Reachable .honest cluster → cluster.move .honest move = some next →
    Acts cluster next place (.request key) past (.patchStatus .request base status)
      (.ok request) → request.body.status.grantCreated = true → next.HasOwnGrant request := by
  intro h
  obtain ⟨cluster, hreachable, ⟨request, next⟩, hwriting, hcreated, hforeign⟩ := exists_reachable
    (P := fun cluster => ∃ written ∈ cluster.writing 2,
      written.1.body.status.grantCreated = true ∧ ¬written.2.HasOwnGrant written.1)
    .honest Scenario.refiled (by decide +kernel)
  obtain ⟨hmove, key, past, base, status, hacts⟩ := acts_of_writing hwriting
  exact hforeign (h cluster next _ 2 key past base request status hreachable hmove hacts hcreated)

end Cluster

end AccessBroker
