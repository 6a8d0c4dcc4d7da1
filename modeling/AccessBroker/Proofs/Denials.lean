import AccessBroker.Proofs.Cluster.Lineage

/-!
# Grants of requests that were denied or have expired

A request that was denied or has expired is not to have a grant. A pass fills in a grant for
approved requests alone, but it does so before it writes the approval down; and a later pass
that finds no approval counts the votes, and looks at the clock, once more. So there is exactly
one way in which a grant is left to such a request: a pass on it has filled in the grant and
has never written a status (`AccessBroker.Cluster.Stranded`). Once the approval is written, it
stays (`AccessBroker.Cluster.Descends`).
-/

namespace AccessBroker

namespace Request

/-- Was the request denied, or has it expired? -/
def IsEnded (request : Request) : Prop :=
  request.body.status.state = .denied ∨ request.body.status.state = .expired

/-- The pass has written the status of a request. -/
def Wrote (deeds : Deeds) : Prop :=
  ∃ base status new, Deed.ofCall (.patchStatus .request base status) (.ok new) ∈ deeds

end Request

/-- A grant is filled in, and bears the identifier of a request. -/
def Grant.Serves (grant : Grant) (request : Request) : Prop :=
  grant.body.isPopulated = true ∧ request.body.status.requestId ≠ "" ∧
    grant.body.requestId = request.body.status.requestId

instance (grant : Grant) (request : Request) : Decidable (grant.Serves request) :=
  inferInstanceAs (Decidable (_ ∧ _ ∧ _))

namespace Cluster

variable {rules : Rules} {cluster : Cluster} {key other : Key}

/-- A pass on a request object has filled in a grant under its identifier, and has not written
the status of the request. -/
def Stranded (cluster : Cluster) (key : Key) (request : Request) (grant : Grant) : Prop :=
  ∃ (pass : Nat) (journal : Journal) (found : Request) (given : Grant),
    cluster.journals[pass]? = some journal ∧ journal.target = .request key ∧
    Request.Supplied key found request.body.status.requestId given journal.deeds ∧
    found.metadata.uid = request.metadata.uid ∧ given.key = grant.key ∧
    given.metadata.uid = grant.metadata.uid ∧ ¬Request.Wrote journal.deeds

/-- **A pass that has filled in a grant writes an approval**, if it writes a status. -/
theorem Reachable.approved_of_wrote (h : Reachable rules cluster) {pass : Nat}
    {journal : Journal} {found : Request} {id : String} {given : Grant}
    (hjournal : cluster.journals[pass]? = some journal) (htarget : journal.target = .request key)
    (hsupplied : Request.Supplied key found id given journal.deeds)
    (hwrote : Request.Wrote journal.deeds) :
    ∃ written : Request, cluster.Shown written ∧ written.key = key ∧
      written.metadata.uid = found.metadata.uid ∧ written.body.status.requestId ≠ "" ∧
      written.body.status.state = .approved := by
  obtain ⟨target, deeds, rest⟩ := journal
  change target = .request key at htarget
  subst htarget
  obtain ⟨start, hsecured, -⟩ := hsupplied.worksOn
  obtain ⟨earlier, base, approvers, -, hsupplied⟩ := hsupplied
  have hfill := hsupplied.mem List.mem_cons_self
  obtain ⟨request, status, new, hwrite⟩ := hwrote
  have hheeds := (h.orderly _ _ hjournal).heeds
  have hne : Deed.ofCall (.patchStatus .grant base (found.grantStatus id approvers)) (.ok given) ≠
      Deed.ofCall (.patchStatus .request request status) (.ok new) := fun heq => by cases heq
  rcases hheeds.ordered hfill hwrite hne with
    ⟨past, -, hpast, hallowed⟩ | ⟨past, hsuffix, hpast, hallowed⟩
  · -- Nothing is filled in once the status is written.
    generalize found.grantStatus id approvers = filling at hallowed
    cases hallowed with
    | fill hunderway =>
      have hunwritten := hunderway.unwritten _ hpast
      cases hunwritten
  · -- What is written then is an approval, of the request that was found.
    obtain ⟨version, rfl⟩ := h.patched hjournal hwrite
    cases hallowed with
    | write hunderway =>
      have hlater := (List.suffix_cons _ _).trans hsuffix
      have hfound := h.faithful_request hjournal rfl hsecured
      have hbase := h.faithful_request hjournal rfl (hunderway.secured.mono hlater)
      have hstart := h.found_unique hjournal rfl hsecured.found
        (hunderway.secured.mono hlater).found
      refine ⟨_, shown_of_gives hjournal hwrite .patched, hbase.key, ?_, ?_, ?_⟩
      · exact hbase.uid.trans ((congrArg (·.metadata.uid) hstart.symm).trans hfound.uid.symm)
      · exact (h.drawn_of_worksOn hjournal rfl (hunderway.worksOn.mono hlater)).1
      · rcases hunderway.unfilled with happroved | hunfilled
        · exact happroved
        · have hnone := hunfilled _ hpast
          cases hnone

/-- **Requests that were denied or have expired have no grant, save where a pass has broken off**:
a grant that is filled in bears the identifier of such a request exactly where a pass on this
very request has filled it in and has never written the status of the request. -/
theorem Reachable.serves_iff_stranded (h : Reachable rules cluster) {request : Request}
    {grant : Grant} (hrequest : cluster.store.find? .request key = some request)
    (hended : request.IsEnded) (hgrant : cluster.store.find? .grant other = some grant) :
    grant.Serves request ↔ cluster.Stranded key request grant := by
  have hkey := h.sound.keyed _ _ _ hrequest
  have hother := h.sound.keyed _ _ _ hgrant
  constructor
  · rintro ⟨hpopulated, -, hid⟩
    obtain ⟨hsame, found, given, hfilled, huid, hgiven⟩ := h.filled_for
      (.inl (h.sound.stores hrequest)) (.inl (h.sound.stores hgrant)) hpopulated hid
    have hlies := (h.given hfilled).2.1
    rw [hkey] at hfilled hsame hlies
    obtain ⟨pass, journal, hjournal, htarget, hsupplied⟩ := hfilled
    refine ⟨pass, journal, found, given, hjournal, htarget, hsupplied, huid,
      hlies.trans hsame.symm, hgiven, fun hwrote => ?_⟩
    obtain ⟨written, hshown, hwritten, hobject, hnamed, happroved⟩ :=
      h.approved_of_wrote hjournal htarget hsupplied hwrote
    rw [← hwritten] at hrequest
    have hstate := (h.request_lineage hshown hrequest (huid.symm.trans hobject.symm)).approved
      hnamed happroved
    rcases hended with hdenied | hexpired
    · rw [hdenied] at hstate
      cases hstate
    · rw [hexpired] at hstate
      cases hstate
  · rintro ⟨pass, journal, found, given, hjournal, htarget, hsupplied, huid, hgiven, hsame, -⟩
    obtain ⟨hshown, -, hpopulated, approvers, hbody⟩ :=
      h.given ⟨pass, journal, hjournal, htarget, hsupplied⟩
    rw [← hother, ← hgiven] at hgrant
    have hterms := h.grant_lineage hshown hpopulated hgrant hsame.symm
    refine ⟨(GrantStatus.isPopulated_of_terms hterms).trans hpopulated,
      (h.drawn_of_worksOn hjournal htarget hsupplied.worksOn).1, ?_⟩
    rw [GrantStatus.eq_of_terms GrantStatus.requestId hterms fun _ => rfl, hbody]
    exact (found.grantStatus_eq _ approvers).1

/-- Bob approves the request of alice, and the pass that fills in the grant is refused when it
writes the approval; then carol denies, and the next pass writes that. -/
def Scenario.deniedLate : List Move :=
  filed ++ .start (.request place) :: answers 0 8 ++
    [.user (.create .response (vote "b" "bob" .approved)) "bob"] ++
    .start (.request place) :: answers 1 6 ++ .refuse 1 (.internal "unavailable") ::
    .user (.create .response (vote "c" "carol" .denied)) "carol" ::
    .start (.request place) :: answers 2 6

/-- A denied request may be left with a grant. -/
theorem exists_denied_served : ∃ (cluster : Cluster) (request : Request) (grant : Grant),
    Reachable .honest cluster ∧ cluster.store.find? .request Scenario.place = some request ∧
    request.body.status.state = .denied ∧
    cluster.store.find? .grant Scenario.place = some grant ∧ grant.Serves request := by
  obtain ⟨cluster, hreachable, request, hrequest, hdenied, grant, hgrant, hserves⟩ :=
    exists_reachable (P := fun cluster => ∃ request ∈ cluster.store.find? .request Scenario.place,
      request.body.status.state = .denied ∧
      ∃ grant ∈ cluster.store.find? .grant Scenario.place, Grant.Serves grant request)
    .honest Scenario.deniedLate (by decide +kernel)
  exact ⟨cluster, request, grant, hreachable, hrequest, hdenied, hgrant, hserves⟩

/-- The pass that was refused has stranded the grant of alice. -/
theorem stranded_alice : ∃ (cluster : Cluster) (request : Request) (grant : Grant),
    Reachable .honest cluster ∧ cluster.store.find? .request Scenario.place = some request ∧
    request.IsEnded ∧ cluster.store.find? .grant Scenario.place = some grant ∧
    grant.Serves request ∧ cluster.Stranded Scenario.place request grant := by
  obtain ⟨cluster, request, grant, hreachable, hrequest, hdenied, hgrant, hserves⟩ :=
    exists_denied_served
  have hstranded :=
    (Reachable.serves_iff_stranded hreachable hrequest (.inl hdenied) hgrant).1 hserves
  exact ⟨cluster, request, grant, hreachable, hrequest, .inl hdenied, hgrant, hserves, hstranded⟩

/-- **Denials are not terminal**: it is not so that a request that was denied, or has expired, never
has a grant. -/
theorem denials_not_terminal :
    ¬∀ (cluster : Cluster) (key other : Key) (request : Request) (grant : Grant),
    Reachable .honest cluster → cluster.store.find? .request key = some request →
    request.IsEnded → cluster.store.find? .grant other = some grant → ¬grant.Serves request := by
  intro h
  obtain ⟨cluster, request, grant, hreachable, hrequest, hdenied, hgrant, hserves⟩ :=
    exists_denied_served
  exact h cluster _ _ request grant hreachable hrequest (.inl hdenied) hgrant hserves

end Cluster

end AccessBroker
