import AccessBroker.Proofs.Cluster.Removals

/-!
# Which request goes with a grant

A grant takes a request with it when it ends. The grant names the request by its key alone, so it
takes whichever request lies there, and that need not be the one that the grant was filled in for:
that one may have gone long ago, and another one may have been filed under its name since. What goes
with a grant is always the request under the key of the grant, and it bears the identifier that the
grant names exactly where the grant was filled in for this very request object and a pass on the
object has managed to write that identifier down (`AccessBroker.Cluster.Reachable.origin_iff`).
-/

namespace AccessBroker

open AccessBroker.Time

/-- A grant that was never filled in takes nothing with it. -/
theorem Grant.removals_eq_nil {grant : Grant} (h : grant.body = ({} : GrantStatus)) :
    grant.removals = [] := by
  rw [Grant.removals, h]
  rfl

namespace Cluster

variable {rules : Rules} {cluster next : Cluster} {key : Key}

/-! ### What a grant names -/

/-- **A grant that has not been filled in is empty.** -/
theorem Reachable.blank (h : Reachable rules cluster) {grant : Grant} (hshown : cluster.Shown grant)
    (hblank : grant.body.isPopulated = false) : grant.body = ({} : GrantStatus) := by
  induction h generalizing grant with
  | start => exact absurd hshown (not_shown_start grant)
  | @step cluster next move hbefore hmoved ih =>
    have hmoved := moved_of_move hmoved
    have hsound := hbefore.sound
    -- What was stored before, with the same body.
    have hkept {old : Grant} (hold : cluster.store.find? .grant grant.key = some old)
        (hbody : grant.body = old.body) : grant.body = ({} : GrantStatus) :=
      hbody.trans (ih (.inl (hsound.stores hold)) (hbody ▸ hblank))
    rcases hmoved.shown hsound.keyed hshown with hearlier | hstores
    · exact ih hearlier hblank
    · cases (hbefore.grantTurn hmoved _).becomes hstores with
      | kept hfound _ hbody => exact hkept hfound hbody
      | launched _ _ hempty => exact hempty
      | @filled _ _ _ request _ _ approvers _ hacts hunderway =>
        obtain ⟨rest, hcurrent, -⟩ := hacts
        have hnamed := (hbefore.drawn_of_worksOn hcurrent rfl hunderway.worksOn).1
        have hpopulated := request.isPopulated_grantStatus approvers hnamed
        exact absurd (hpopulated.symm.trans hblank) nofun
      | recorded _ htended hterms =>
        have hpopulated := (GrantStatus.isPopulated_of_terms hterms).trans htended.populated
        exact absurd (hpopulated.symm.trans hblank) nofun

/-- **A grant that takes a request with it** was filled in, and the request lies under its key. -/
theorem Reachable.withdraws (h : Reachable rules cluster) {grant : Grant}
    (hshown : cluster.Shown grant) {place : Key}
    (hremoval : .delete .request place ∈ grant.removals) :
    grant.body.isPopulated = true ∧ place = grant.key := by
  have hpopulated : grant.body.isPopulated = true := by
    cases hblank : grant.body.isPopulated with
    | true => rfl
    | false =>
      rw [Grant.removals_eq_nil (h.blank hshown hblank)] at hremoval
      cases hremoval
  refine ⟨hpopulated, ?_⟩
  obtain ⟨request, given, hfilled, -, hterms⟩ := h.filled hshown hpopulated
  rcases Grant.mem_removals hremoval with ⟨kind, other, howned, heq⟩ | heq
  · cases heq
    cases howned
  · cases heq
    exact h.requestKey_of_filled hfilled hterms.symm

/-! ### What a request bears -/

/-- A pass on a request object has written an identifier into its status. -/
def Registers (cluster : Cluster) (key : Key) (uid id : String) : Prop :=
  ∃ (place : Nat) (journal : Journal) (base new : Request) (status : RequestStatus),
    cluster.journals[place]? = some journal ∧
    Deed.ofCall (.patchStatus .request base status) (.ok new) ∈ journal.deeds ∧
    new.key = key ∧ new.metadata.uid = uid ∧ new.body.status.requestId = id

theorem Registers.moved {uid id : String} (h : cluster.Registers key uid id)
    (hmoved : Moved rules cluster next) : next.Registers key uid id := by
  obtain ⟨place, journal, base, new, status, hjournal, hdeed, hnew⟩ := h
  obtain ⟨later, hlater, -, hsuffix⟩ := hmoved.remains hjournal
  exact ⟨place, later, base, new, status, hlater, hsuffix.mem hdeed, hnew⟩

/-- The identifier of a request has been written down by a pass. -/
theorem Reachable.registers (h : Reachable rules cluster) {request : Request}
    (hrequest : cluster.store.find? .request key = some request)
    (hnamed : request.body.status.requestId ≠ "") :
    cluster.Registers key request.metadata.uid request.body.status.requestId := by
  induction h generalizing request with
  | start =>
    rw [find?_start] at hrequest
    cases hrequest
  | @step cluster next move hbefore hmoved ih =>
    have hmoved := moved_of_move hmoved
    -- What was stored before, with the same body.
    have hkept {old : Request} (hold : cluster.store.find? .request key = some old)
        (huid : request.metadata.uid = old.metadata.uid) (hbody : request.body = old.body) :
        next.Registers key request.metadata.uid request.body.status.requestId := by
      rw [huid, hbody]
      exact (ih hold (hbody ▸ hnamed)).moved hmoved
    cases hbefore.requestTurn hmoved key with
    | kept hsame => exact hkept (hsame.symm.trans hrequest) rfl rfl
    | filed _ hstored _ hblank =>
      obtain rfl := Option.some.inj (hstored.symm.trans hrequest)
      rw [hblank] at hnamed
      exact absurd rfl hnamed
    | secured hfound hstored huid hbody =>
      obtain rfl := Option.some.inj (hstored.symm.trans hrequest)
      exact hkept hfound huid hbody
    | parted hfound hleft =>
      obtain ⟨huid, hbody, -⟩ := hleft request hrequest
      exact hkept hfound huid hbody
    | @written place past start base new status hacts _ _ hstored =>
      obtain rfl := Option.some.inj (hstored.symm.trans hrequest)
      obtain ⟨rest, -, hafter⟩ := hacts
      have hkeyed := hbefore.sound.moved hmoved |>.keyed _ _ _ hstored
      exact ⟨place, _, base, new, status, hafter, List.mem_cons_self, hkeyed, rfl, rfl⟩

/-- **A request bears an identifier** exactly where a pass on the object has written it down. -/
theorem Reachable.registers_iff (h : Reachable rules cluster) {request : Request}
    (hrequest : cluster.store.find? .request key = some request) {id : String} (hnamed : id ≠ "") :
    cluster.Registers key request.metadata.uid id ↔ request.body.status.requestId = id := by
  constructor
  · rintro ⟨place, journal, base, new, status, hjournal, hdeed, rfl, huid, rfl⟩
    have hshown := shown_of_gives hjournal hdeed .patched
    exact (h.request_lineage hshown hrequest huid.symm).named hnamed
  · rintro rfl
    exact h.registers hrequest hnamed

/-! ### What goes with a grant -/

/-- A grant was filled in for a request object, by a pass on it. -/
def Originates (cluster : Cluster) (request : Request) (grant : Grant) : Prop :=
  ∃ (found : Request) (given : Grant),
    cluster.Filled request.key found grant.body.requestId given ∧
      found.metadata.uid = request.metadata.uid ∧ given.metadata.uid = grant.metadata.uid

/-- **What a pass on a grant does to a request**: it deletes the request that the grant names, and
nothing else. -/
theorem Reachable.withdrawn (h : Reachable rules cluster) (hmoved : Moved rules cluster next)
    {place : Nat} {past : Deeds} {call : StoreCall} {reply : call.Reply}
    (hacts : Acts cluster next place (.grant key) past call reply) {other : Key} {request : Request}
    (hrequest : cluster.store.find? .request other = some request)
    (hchange : next.store.find? .request other ≠ some request) :
    call = .delete .request other ∧ Deleted next other request ∧
      ∃ grant, Grant.Based key grant past ∧ .delete .request other ∈ grant.removals := by
  have hturn := (hacts.served hmoved).turn h.sound.keyed .request other
  obtain ⟨rest, hcurrent, -⟩ := hacts
  have hallowed : Grant.Conduct key past (.store call) := (h.orderly _ _ hcurrent).allowed
  rcases hturn with hsame | ⟨id, hturn⟩
  · exact absurd (hsame.trans hrequest) hchange
  · cases hturn with
    | kept hsame => exact absurd (hsame.trans hrequest) hchange
    | born hvacant => exact absurd (hvacant.symm.trans hrequest) nofun
    | linked | released | patched => cases hallowed
    | @marked _ _ old hfound hheld hstored =>
      obtain rfl := Option.some.inj (hfound.symm.trans hrequest)
      cases hallowed with
      | remove hbased hremoval => exact ⟨rfl, .inr ⟨hheld, _, _, hstored⟩, _, hbased, hremoval⟩
    | @removed _ _ old hfound hfree hgone =>
      obtain rfl := Option.some.inj (hfound.symm.trans hrequest)
      cases hallowed with
      | remove hbased hremoval => exact ⟨rfl, .inl ⟨hfree, hgone⟩, _, hbased, hremoval⟩
    | collected howned => cases howned

/-- **The identifier of a request is that of a grant** exactly where the grant was filled in for
this very object, and a pass on the object has written the identifier down. -/
theorem Reachable.requestId_eq_iff (h : Reachable rules cluster) {request : Request} {grant : Grant}
    (hrequest : cluster.store.find? .request key = some request) (hgrant : cluster.Shown grant)
    (hpopulated : grant.body.isPopulated = true) :
    request.body.status.requestId = grant.body.requestId ↔ cluster.Originates request grant ∧
      cluster.Registers key request.metadata.uid grant.body.requestId := by
  have hnamed : grant.body.requestId ≠ "" := by
    simpa [GrantStatus.isPopulated] using hpopulated
  rw [h.registers_iff hrequest hnamed]
  refine ⟨fun hid => ⟨?_, hid⟩, And.right⟩
  have hshown := h.sound.stores hrequest
  obtain ⟨-, found, given, hfilled, huid, hgiven⟩ :=
    h.filled_for (.inl hshown) hgrant hpopulated hid.symm
  exact ⟨found, given, hid ▸ hfilled, huid, hgiven⟩

/-- A pass on a grant works on one grant. -/
theorem Reachable.based_unique (h : Reachable rules cluster) {place : Nat} {journal : Journal}
    (hjournal : cluster.journals[place]? = some journal) (htarget : journal.target = .grant key)
    {a b : Grant} (ha : Grant.Based key a journal.deeds) (hb : Grant.Based key b journal.deeds) :
    a.body = b.body := by
  obtain ⟨target, deeds, rest⟩ := journal
  subst htarget
  -- What the pass works on says what it has found.
  have hbody {grant : Grant} (hbased : Grant.Based key grant deeds) :
      ∃ start : Grant, Found key deeds start ∧ grant.body = start.body := by
    rcases hbased with ⟨start, hsecured⟩ | ⟨hfound, -⟩
    · exact ⟨start, hsecured.found, (h.faithful_grant hjournal rfl hsecured).body⟩
    · exact ⟨grant, hfound, rfl⟩
  obtain ⟨start, hfound, ha⟩ := hbody ha
  obtain ⟨start', hfound', hb⟩ := hbody hb
  obtain rfl := h.found_unique hjournal rfl hfound hfound'
  exact ha.trans hb.symm

/-- **Which request goes with a grant**: where a pass on a grant changes a stored request, it
deletes the one under the key of the grant that it works on, which is filled in. That request bears
the identifier that the grant names exactly where the grant was filled in for this very request
object, and a pass on the object has written the identifier down. -/
theorem Reachable.origin_iff (h : Reachable rules cluster) {move : Move}
    (hmove : cluster.move rules move = some next) {place : Nat} {past : Deeds} {call : StoreCall}
    {reply : call.Reply} (hacts : Acts cluster next place (.grant key) past call reply)
    {other : Key} {request : Request} (hrequest : cluster.store.find? .request other = some request)
    (hchange : next.store.find? .request other ≠ some request) :
    other = key ∧ call = .delete .request key ∧ Deleted next key request ∧
      (∃ grant, Grant.Based key grant past) ∧ ∀ grant, Grant.Based key grant past →
        grant.body.isPopulated = true ∧
        (request.body.status.requestId = grant.body.requestId ↔ cluster.Originates request grant ∧
          cluster.Registers key request.metadata.uid grant.body.requestId) := by
  obtain ⟨hcall, hdeleted, based, hbased, hremoval⟩ :=
    h.withdrawn (moved_of_move hmove) hacts hrequest hchange
  obtain ⟨hkey, hshown⟩ := hacts.based h hbased
  obtain ⟨hpopulated, hplace⟩ := h.withdraws hshown hremoval
  obtain rfl : other = key := hplace.trans hkey
  refine ⟨rfl, hcall, hdeleted, ⟨based, hbased⟩, fun grant hgrant => ?_⟩
  obtain ⟨rest, hcurrent, -⟩ := id hacts
  have hpopulated : grant.body.isPopulated = true := by
    rw [h.based_unique hcurrent rfl hgrant hbased]
    exact hpopulated
  exact ⟨hpopulated, h.requestId_eq_iff hrequest (hacts.based h hgrant).2 hpopulated⟩

/-! ### A request that was filed later -/

/-- The grant that a pass has found, if that is held and not being deleted. -/
def foundHeld? (key : Key) (deeds : Deeds) : Option Grant :=
  deeds.findSome? fun
    | ⟨.store (.find .grant place), .ok (some grant)⟩ =>
      if place = key ∧ grant.metadata.isDeleting = false ∧ grant.isHeld = true then some grant
      else none
    | _ => none

theorem based_of_foundHeld? {deeds : Deeds} {grant : Grant}
    (h : foundHeld? key deeds = some grant) : Grant.Based key grant deeds := by
  obtain ⟨deed, hdeed, hgrant⟩ := List.exists_of_findSome?_eq_some h
  split at hgrant
  · split at hgrant
    · next hmatch =>
      obtain ⟨rfl, hlive, hheld⟩ := hmatch
      cases hgrant
      exact .inl ⟨grant, .held hdeed hlive hheld⟩
    · cases hgrant
  · cases hgrant

/-- The next call of a pass changes the request of the scenario, and it is said whether that request
bears the identifier of the grant that the pass has found. -/
def Scenario.Withdraws (pass : Nat) (own : Bool) (cluster : Cluster) : Prop :=
  ∃ done ∈ cluster.acting pass, done.1 = .grant place ∧
    ∃ request ∈ cluster.store.find? .request place,
      done.2.2.2.store.find? .request place ≠ some request ∧
      ∃ grant ∈ foundHeld? place done.2.1,
        decide (request.body.status.requestId = grant.body.requestId) = own

instance (pass : Nat) (own : Bool) : DecidablePred (Scenario.Withdraws pass own) := fun cluster =>
  inferInstanceAs (Decidable (∃ done ∈ cluster.acting pass, _))

theorem Scenario.Withdraws.acts {pass : Nat} {own : Bool} (h : Withdraws pass own cluster) :
    ∃ (next : Cluster) (past : Deeds) (call : StoreCall) (reply : call.Reply) (request : Request)
      (grant : Grant), cluster.move rules (.answer pass "") = some next ∧
      Acts cluster next pass (.grant place) past call reply ∧
      cluster.store.find? .request place = some request ∧
      next.store.find? .request place ≠ some request ∧ Grant.Based place grant past ∧
      decide (request.body.status.requestId = grant.body.requestId) = own := by
  obtain ⟨⟨target, past, call, next⟩, hacting, rfl, request, hrequest, hchange, grant, hfound,
    hid⟩ := h
  obtain ⟨hmove, reply, hacts⟩ := acts_of_acting hacting
  exact ⟨next, past, call, reply, request, grant, hmove, hacts, hrequest, hchange,
    based_of_foundHeld? hfound, hid⟩

/-- The access of alice ends, and a pass on her grant is about to remove her request. -/
def Scenario.ended : List Move :=
  furnished ++ .clock (Instant.epoch.after (11 * nanosPerMinute)) ::
    .start (.grant place) :: answers 2 5

/-- The request of alice goes with her grant. -/
theorem origin_alice : ∃ (cluster next : Cluster) (move : Move) (pass : Nat) (key : Key)
    (past : Deeds) (call : StoreCall) (reply : call.Reply) (request : Request) (grant : Grant),
    Reachable .faultless cluster ∧ cluster.move .faultless move = some next ∧
    Acts cluster next pass (.grant key) past call reply ∧
    cluster.store.find? .request key = some request ∧
    next.store.find? .request key ≠ some request ∧ Grant.Based key grant past ∧
    request.body.status.requestId = grant.body.requestId ∧ cluster.Originates request grant := by
  obtain ⟨cluster, hreachable, hwithdraws⟩ := exists_reachable
    (P := Scenario.Withdraws 2 true) .faultless Scenario.ended (by decide +kernel)
  obtain ⟨next, past, call, reply, request, grant, hmove, hacts, hrequest, hchange, hbased, hid⟩ :=
    hwithdraws.acts
  have hid := of_decide_eq_true hid
  obtain ⟨-, -, -, -, horigin⟩ := Reachable.origin_iff hreachable hmove hacts hrequest hchange
  obtain ⟨-, hiff⟩ := horigin grant hbased
  exact ⟨cluster, next, _, 2, _, past, call, reply, request, grant, hreachable, hmove, hacts,
    hrequest, hchange, hbased, hid, (hiff.1 hid).1⟩

/-- Alice withdraws her request while she has access, and mallory files one under the same name;
then the access of alice ends, and a pass on her grant is about to remove the request of mallory. -/
def Scenario.outlived : List Move :=
  furnished ++ .user (.delete .request place) "" :: .start (.request place) :: answers 2 4 ++
    .user (.create .request (request "mallory")) "mallory" ::
      .clock (Instant.epoch.after (11 * nanosPerMinute)) :: .start (.grant place) :: answers 3 5

/-- **A grant need not take its own request with it**: it is not so that whenever a pass on a grant
deletes a request, the request bears the identifier that the grant names. -/
theorem withdrawn_not_own : ¬∀ (cluster next : Cluster) (move : Move) (pass : Nat) (key other : Key)
    (past : Deeds) (call : StoreCall) (reply : call.Reply) (request : Request) (grant : Grant),
    Reachable .faultless cluster → cluster.move .faultless move = some next →
    Acts cluster next pass (.grant key) past call reply →
    cluster.store.find? .request other = some request →
    next.store.find? .request other ≠ some request → Grant.Based key grant past →
    request.body.status.requestId = grant.body.requestId := by
  intro h
  obtain ⟨cluster, hreachable, hwithdraws⟩ := exists_reachable
    (P := Scenario.Withdraws 3 false) .faultless Scenario.outlived (by decide +kernel)
  obtain ⟨next, past, call, reply, request, grant, hmove, hacts, hrequest, hchange, hbased, hid⟩ :=
    hwithdraws.acts
  exact of_decide_eq_false hid (h cluster next _ 3 _ _ past call reply request grant hreachable
    hmove hacts hrequest hchange hbased)

end Cluster

end AccessBroker
