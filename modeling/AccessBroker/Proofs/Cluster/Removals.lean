import AccessBroker.Proofs.Cluster.Lineage

/-!
# How a grant comes to go

A grant that was filled in for a request stays stored until the request is gone or is being
deleted (`AccessBroker.Cluster.Reachable.kept`), where the rules are honest. The pass that
removes a grant removes its request first and goes on only if there is none left
(`AccessBroker.Cluster.Reachable.parted`); a new request may be filed under the name in between,
but that is another one. And the pass removes the very grant that it has worked on, because
between the two calls with which it lets go of a grant nobody else touches the grant
(`AccessBroker.Cluster.Tidy`).
-/

namespace AccessBroker

namespace Cluster

variable {rules : Rules} {cluster next : Cluster} {key : Key}

/-! ### Requests that have been removed -/

/-- No request with an identifier is stored under a key, save one that is being deleted. -/
def Parted (cluster : Cluster) (key : Key) (uid : String) : Prop :=
  ∀ request : Request, cluster.store.find? .request key = some request →
    request.metadata.uid = uid → request.metadata.isDeleting = true

/-- A request that has been removed does not come back. -/
theorem Parted.moved {uid : String} (h : cluster.Parted key uid)
    (hreachable : Reachable rules cluster) (hmoved : Moved rules cluster next)
    (hissued : uid ∈ cluster.issued) : next.Parted key uid := by
  intro new hnew huid
  rcases hreachable.request_descends hmoved hnew with ⟨-, hfresh⟩ | ⟨old, hold, hdescends⟩
  · exact absurd (huid ▸ hissued) hfresh
  · exact hdescends.deleting (h old hold (hdescends.uid.symm.trans huid))

/-- No request is stored without a name. -/
theorem Reachable.named (h : Reachable rules cluster) {request : Request}
    (hrequest : cluster.store.find? .request key = some request) : key.name ≠ "" := by
  induction h generalizing request with
  | start =>
    rw [find?_start] at hrequest
    cases hrequest
  | @step cluster next move hbefore hmoved ih =>
    rcases hbefore.turn (moved_of_move hmoved) .request key with
      hsame | ⟨id, call, reply, -, -, hturn⟩
    · exact ih (hsame.symm.trans hrequest)
    · cases hturn with
      | kept hsame => exact ih (hsame.symm.trans hrequest)
      | @born _ object _ htaken =>
        intro hname
        rw [MemoryStore.takesUid, MemoryStore.checkVacant, Key.validate, hname] at htaken
        cases htaken
      | linked hfound | patched hfound | marked hfound => exact ih hfound
      | released _ _ _ hgone | removed _ _ hgone | collected _ hgone =>
        rw [hgone] at hrequest
        cases hrequest

/-- The request that a pass works on is one that was shown. -/
theorem Reachable.shown_of_worksOn (h : Reachable rules cluster) {place : Nat} {journal : Journal}
    {request : Request} {id : String} (hjournal : cluster.journals[place]? = some journal)
    (htarget : journal.target = .request key)
    (hworks : Request.WorksOn key request id journal.deeds) :
    cluster.Shown request ∧ request.key = key := by
  obtain ⟨target, deeds, rest⟩ := journal
  subst htarget
  obtain ⟨start, hsecured, -⟩ := hworks
  exact ⟨h.shown_of_secured hjournal hsecured, (h.faithful_request hjournal rfl hsecured).key⟩

theorem Reachable.issued_of_filled (h : Reachable rules cluster) {request : Request} {id : String}
    {given : Grant} (hfilled : cluster.Filled key request id given) :
    request.metadata.uid ∈ cluster.issued := by
  obtain ⟨place, journal, hjournal, htarget, hsupplied⟩ := hfilled
  exact h.sound.issued request (h.shown_of_worksOn hjournal htarget hsupplied.worksOn).1

/-- What has been filled in was filled in before, or has just been, and was empty then. -/
theorem Reachable.filled_earlier (h : Reachable rules cluster) (hmoved : Moved rules cluster next)
    {request : Request} {id : String} {given : Grant}
    (hfilled : next.Filled key request id given) :
    cluster.Filled key request id given ∨ next.store.find? .grant key = some given ∧
      ∃ base : Grant, cluster.store.find? .grant key = some base ∧
        base.metadata.uid = given.metadata.uid ∧ base.body.isPopulated = false := by
  obtain ⟨place, journal, hjournal, htarget, past, base, approvers, hworks, hsuffix⟩ := hfilled
  cases hmoved.fate hjournal with
  | kept hcurrent =>
    exact .inl ⟨place, journal, hcurrent, htarget, past, base, approvers, hworks, hsuffix⟩
  | started => cases hsuffix.mem List.mem_cons_self
  | @advanced target deeds effect rest reply hcurrent hserved =>
    rcases List.suffix_cons_iff.1 hsuffix with heq | hsuffix
    · obtain ⟨hdeed, rfl⟩ := List.cons.inj heq
      change target = .request key at htarget
      subst htarget
      cases hdeed
      have hallowed := (h.orderly _ _ hcurrent).allowed
      have hshown := h.shown_of_patchable hcurrent hallowed
      obtain ⟨hkey, hblank⟩ : base.key = key ∧ base.body.isPopulated = false := by
        generalize request.grantStatus id approvers = status at hallowed
        cases hallowed with
        | fill hunderway _ _ hopened hblank =>
          exact ⟨h.key_of_opened hcurrent rfl (List.suffix_refl _) hunderway.secured hopened,
            hblank⟩
      cases hserved with
      | performed hcalls =>
        obtain ⟨old, hold, hversion, rfl, hstored⟩ := hcalls.performed.of_patchStatus
        obtain rfl := h.sound.recent base old hshown hold hversion
        rw [Object.key_patched, hkey] at hstored
        rw [hkey] at hold
        exact .inr ⟨hstored, old, hold, rfl, hblank⟩
    · exact .inl ⟨place, _, hcurrent, htarget, past, base, approvers, hworks, hsuffix⟩

/-- Where the rules are truthful, what a pass believes to be removed is so. -/
theorem Served.isDeleting_of_settled {kind : Kind} {reply : Except Failure Unit}
    {store : MemoryStore} {issued : List String} {left : Object kind}
    (h : Served rules cluster (.store (.delete kind key)) reply store issued)
    (hkeyed : cluster.store.Keyed) (hrules : rules.AreTruthful)
    (hsettled : ∀ failure, reply = .error failure → failure.isNotFound = true)
    (hleft : store.find? kind key = some left) : left.metadata.isDeleting = true := by
  cases h with
  | performed hcalls => exact hcalls.performed.isDeleting_of_delete hkeyed hleft
  | refused _ hrefuses =>
    have hlie := hrules _ hrefuses
    rw [hsettled _ rfl] at hlie
    cases hlie

/-- **A pass that has settled the removal of the request of a grant** leaves nothing of it: the
request that the grant was filled in for is gone or is being deleted, and stays so. -/
theorem Reachable.parted (h : Reachable rules cluster) (hrules : rules.AreHonest) {place : Nat}
    {journal : Journal} {start : Grant} {request : Request} {id : String} {given : Grant}
    (hjournal : cluster.journals[place]? = some journal) (htarget : journal.target = .grant key)
    (hfound : Found key journal.deeds start) (hpopulated : start.body.isPopulated = true)
    (hsettled : Settled (.delete .request key) journal.deeds)
    (hfilled : cluster.Filled key request id given)
    (huid : given.metadata.uid = start.metadata.uid) :
    cluster.Parted key request.metadata.uid := by
  induction h generalizing place journal with
  | start => cases hjournal
  | @step cluster next move hbefore hmoved ih =>
    have hmoved := moved_of_move hmoved
    have hsound := hbefore.sound
    -- The grant had been filled in when the pass found it.
    have hearlier {before : Journal} (hcurrent : cluster.journals[place]? = some before)
        (hfound : Found key before.deeds start) : cluster.Filled key request id given := by
      rcases hbefore.filled_earlier hmoved hfilled with hearlier | ⟨-, base, hbase, hsame, hblank⟩
      · exact hearlier
      · have hkey := hbefore.key_of_found hcurrent hfound
        have hterms := hbefore.grant_lineage (Cluster.shown_of_found hcurrent hfound) hpopulated
          (hkey.symm ▸ hbase) (hsame.trans huid)
        rw [GrantStatus.isPopulated_of_terms hterms, hpopulated] at hblank
        cases hblank
    cases hmoved.fate hjournal with
    | kept hcurrent =>
      have hearlier := hearlier hcurrent hfound
      exact (ih hcurrent htarget hfound hsettled hearlier).moved hbefore hmoved
        (hbefore.issued_of_filled hearlier)
    | started => cases hfound
    | @advanced target past effect rest reply hcurrent hserved =>
      change target = .grant key at htarget
      subst htarget
      obtain ⟨answer, hdeed, hfailure⟩ := hsettled
      have hallowed := (hbefore.orderly _ _ hcurrent).allowed
      rcases Found.earlier hallowed hfound with ⟨rfl, heq⟩ | hfound
      · rw [heq] at hdeed
        cases List.mem_singleton.1 hdeed
      · have hearlier := hearlier hcurrent hfound
        rcases List.mem_cons.1 hdeed with heq | hdeed
        · cases heq
          exact fun left hleft _ =>
            hserved.isDeleting_of_settled hsound.keyed hrules.truthful hfailure hleft
        · exact (ih hcurrent rfl hfound ⟨answer, hdeed, hfailure⟩ hearlier).moved hbefore hmoved
            (hbefore.issued_of_filled hearlier)

/-! ### Letting go of a grant -/

/-- Grants are removed at once, by the pass that has taken their finalizer off: no stored grant is
being deleted or carries a foreign finalizer, and a grant that a pass has taken the finalizer off
waits for the pass to remove it. -/
structure Tidy (cluster : Cluster) : Prop where
  live {key : Key} {grant : Grant} (stored : cluster.store.find? .grant key = some grant) :
    grant.metadata.isDeleting = false
  sole {key : Key} {grant : Grant} (stored : cluster.store.find? .grant key = some grant) :
    ∀ finalizer ∈ grant.metadata.finalizers, finalizer = cleanupFinalizer
  free {key : Key} {place : Nat} {journal : Journal} {grant left : Grant}
    (current : cluster.journals[place]? = some journal) (under : journal.isOver = false)
    (target : journal.target = .grant key) (populated : grant.body.isPopulated = true)
    (released : Deed.ofCall (.updateMetadata .grant grant.withoutFinalizer) (.ok left) ∈
      journal.deeds)
    (undiscarded : Without Effect.discards journal.deeds) :
    ∃ stored : Grant, cluster.store.find? .grant key = some stored ∧
      stored.metadata.uid = grant.metadata.uid ∧ stored.body.isPopulated = true ∧
      stored.metadata.finalizers = []

/-- A pass that is about to remove a grant removes the one that it has worked on, for good. -/
theorem Tidy.discarded (h : cluster.Tidy) (hreachable : Reachable rules cluster) {place : Nat}
    {past : Deeds} {start grant old : Grant}
    (hacts : Acts cluster next place (.grant key) past (.delete .grant key) (.ok ()))
    (hfreed : Grant.Freed key start grant past)
    (hfound : cluster.store.find? .grant key = some old) (hleft : Deleted next key old) :
    old.metadata.uid = grant.metadata.uid ∧ next.store.find? .grant key = none := by
  obtain ⟨rest, hcurrent, -⟩ := hacts
  obtain ⟨left, hreleased⟩ :=
    hfreed.released (hreachable.faithful_grant hcurrent rfl hfreed.secured).held
  obtain ⟨stored, hstored, huid, -, hnone⟩ :=
    h.free hcurrent rfl rfl hfreed.populated hreleased hfreed.undiscarded
  obtain rfl := Option.some.inj (hstored.symm.trans hfound)
  rcases hleft with ⟨-, hgone⟩ | ⟨hheld, -⟩
  · exact ⟨huid, hgone⟩
  · exact absurd hnone hheld

/-- What a move makes of the stored grants. -/
theorem Tidy.stored (h : cluster.Tidy) (hrules : rules.AreHonest)
    (hreachable : Reachable rules cluster) (hmoved : Moved rules cluster next) {new : Grant}
    (hnew : next.store.find? .grant key = some new) :
    new.metadata.isDeleting = false ∧
      ∀ finalizer ∈ new.metadata.finalizers, finalizer = cleanupFinalizer := by
  cases hreachable.grantTurn hmoved key with
  | kept hsame =>
    have hold := hsame.symm.trans hnew
    exact ⟨h.live hold, h.sole hold⟩
  | launched _ hstored _ _ hlive hbare =>
    obtain rfl := Option.some.inj (hstored.symm.trans hnew)
    refine ⟨hlive, ?_⟩
    rw [hbare]
    exact List.forall_mem_nil _
  | filled _ _ _ _ _ _ hfound hstored | recorded _ _ _ hfound hstored =>
    obtain rfl := Option.some.inj (hstored.symm.trans hnew)
    have hlive := h.live hfound
    have hsole := h.sole hfound
    exact ⟨hlive, hsole⟩
  | secured _ _ _ hfound hstored =>
    obtain rfl := Option.some.inj (hstored.symm.trans hnew)
    have hlive := h.live hfound
    refine ⟨hlive, fun finalizer hfinalizer => ?_⟩
    rcases Object.mem_finalizers_withFinalizer hfinalizer with hold | hcleanup
    · exact h.sole hfound finalizer hold
    · exact hcleanup
  | released _ _ _ hfound hleft =>
    rcases hleft with ⟨hgone, -⟩ | hstored
    · rw [hgone] at hnew
      cases hnew
    · obtain rfl := Option.some.inj (hstored.symm.trans hnew)
      have hlive := h.live hfound
      refine ⟨hlive, ?_⟩
      rw [Object.finalizers_withLinksOf, Object.finalizers_withoutFinalizer (h.sole hfound)]
      exact List.forall_mem_nil _
  | discarded hacts hfreed _ hfound hleft =>
    rw [(h.discarded hreachable hacts hfreed hfound hleft).2] at hnew
    cases hnew
  | revoked hallowed =>
    rw [hrules.unrevoked] at hallowed
    cases hallowed

/-- A grant that waits to be removed by a pass still does after a move, unless the pass has removed
it. -/
theorem Tidy.waits (h : cluster.Tidy) (hrules : rules.AreHonest)
    (hreachable : Reachable rules cluster) (hmoved : Moved rules cluster next) {place : Nat}
    {before after : Journal} {grant left : Grant}
    (hcurrent : cluster.journals[place]? = some before) (hunder : before.isOver = false)
    (htarget : before.target = .grant key) (hpopulated : grant.body.isPopulated = true)
    (hreleased : Deed.ofCall (.updateMetadata .grant grant.withoutFinalizer) (.ok left) ∈
      before.deeds)
    (hafter : next.journals[place]? = some after) (hsuffix : before.deeds <:+ after.deeds)
    (hundiscarded : Without Effect.discards after.deeds) :
    ∃ stored : Grant, next.store.find? .grant key = some stored ∧
      stored.metadata.uid = grant.metadata.uid ∧ stored.body.isPopulated = true ∧
      stored.metadata.finalizers = [] := by
  obtain ⟨stored, hstored, huid, hfilled, hfree⟩ := h.free hcurrent hunder htarget hpopulated
    hreleased fun deed hdeed => hundiscarded deed (hsuffix.mem hdeed)
  -- Who lets go of the grant is the pass itself.
  have hactor {other : Nat} {past : Deeds} {call : StoreCall} {reply : call.Reply}
      (hacts : Acts cluster next other (.grant key) past call reply) :
      before.deeds = past ∧ after.deeds = .ofCall call reply :: past := by
    obtain ⟨rest, hactor, hacted⟩ := hacts
    obtain rfl := hreachable.exclusive hrules.exclusive _ _ _ _ hactor hcurrent htarget.symm rfl
      hunder
    rw [hactor] at hcurrent
    rw [hacted] at hafter
    cases hcurrent
    cases hafter
    exact ⟨rfl, rfl⟩
  cases hreachable.grantTurn hmoved key with
  | kept hsame => exact ⟨stored, hsame.trans hstored, huid, hfilled, hfree⟩
  | launched hvacant =>
    rw [hvacant] at hstored
    cases hstored
  | filled _ _ _ _ _ hblank hfound =>
    obtain rfl := Option.some.inj (hfound.symm.trans hstored)
    rw [hfilled] at hblank
    cases hblank
  | recorded _ _ hterms hfound hnew =>
    obtain rfl := Option.some.inj (hfound.symm.trans hstored)
    exact ⟨_, hnew, huid, (GrantStatus.isPopulated_of_terms hterms).trans hfilled, hfree⟩
  | secured hacts hfirst =>
    rw [(hactor hacts).1, hfirst] at hreleased
    cases List.mem_singleton.1 hreleased
  | @released _ _ old _ _ _ _ hfound hleft =>
    obtain rfl := Option.some.inj (hfound.symm.trans hstored)
    rcases hleft with ⟨-, hdeleting⟩ | hnew
    · rw [h.live hfound] at hdeleting
      cases hdeleting
    · exact ⟨_, hnew, huid, hfilled, Object.finalizers_withoutFinalizer (h.sole hfound)⟩
  | discarded hacts =>
    have hkept := hundiscarded _ ((hactor hacts).2 ▸ List.mem_cons_self)
    cases hkept
  | revoked hallowed =>
    rw [hrules.unrevoked] at hallowed
    cases hallowed

/-- A grant that a pass has just taken the finalizer off is stored without finalizers. -/
theorem Tidy.released (h : cluster.Tidy) (hreachable : Reachable rules cluster) {place : Nat}
    {past : Deeds} {grant left : Grant} {store : MemoryStore} {issued : List String}
    {rest : Except Failure Grant → AccessBroker.Steps (Except Failure Outcome)}
    (hcurrent : cluster.journals[place]? =
      some ⟨.grant key, past, .ask (.store (.updateMetadata .grant grant.withoutFinalizer)) rest⟩)
    (hserved : Served rules cluster (.store (.updateMetadata .grant grant.withoutFinalizer))
      (Except.ok left) store issued) :
    ∃ stored : Grant, store.find? .grant key = some stored ∧
      stored.metadata.uid = grant.metadata.uid ∧ stored.body = grant.body ∧
      stored.metadata.finalizers = [] := by
  obtain ⟨based, hbased, -, heq⟩ :=
    Grant.Conduct.of_withoutFinalizer (hreachable.orderly _ _ hcurrent).allowed
  obtain ⟨hkey, hshown⟩ := hreachable.of_based hcurrent rfl hbased
  rw [← heq] at hserved
  have huid : based.metadata.uid = grant.metadata.uid := congrArg (·.metadata.uid) heq
  have hbody : based.body = grant.body := congrArg (·.body) heq
  cases hserved with
  | performed hcalls =>
    obtain ⟨old, hold, hversion, rfl, hstored⟩ := hcalls.performed.of_updateMetadata
    rw [Object.key_withoutFinalizer] at hold
    rw [Object.version_withoutFinalizer] at hversion
    obtain rfl := hreachable.sound.recent based old hshown hold hversion
    have hlive := h.live hold
    have hnew := hstored (by simp [Object.isSpent, hlive])
    rw [Object.key_withLinksOf, hkey] at hnew
    exact ⟨_, hnew, huid, hbody, Object.finalizers_withoutFinalizer (h.sole hold)⟩

/-- **Letting go of a grant goes undisturbed.** -/
theorem Tidy.moved (h : cluster.Tidy) (hrules : rules.AreHonest)
    (hreachable : Reachable rules cluster) (hmoved : Moved rules cluster next) : next.Tidy where
  live hnew := (h.stored hrules hreachable hmoved hnew).1
  sole hnew := (h.stored hrules hreachable hmoved hnew).2
  free := by
    intro key place journal grant left hjournal hunder htarget hpopulated hreleased hundiscarded
    cases hmoved.fate hjournal with
    | kept hcurrent =>
      exact h.waits hrules hreachable hmoved hcurrent hunder htarget hpopulated hreleased hjournal
        (List.suffix_refl _) hundiscarded
    | started => cases hreleased
    | @advanced target past effect rest reply hcurrent hserved =>
      change target = .grant key at htarget
      subst htarget
      rcases List.mem_cons.1 hreleased with heq | hreleased
      · cases heq
        obtain ⟨stored, hstored, huid, hbody, hfree⟩ := h.released hreachable hcurrent hserved
        exact ⟨stored, hstored, huid, hbody ▸ hpopulated, hfree⟩
      · exact h.waits hrules hreachable hmoved hcurrent rfl rfl hpopulated hreleased hjournal
          (List.suffix_cons _ _) hundiscarded

theorem Reachable.tidy (h : Reachable rules cluster) (hrules : rules.AreHonest) :
    cluster.Tidy := by
  induction h with
  | start =>
    constructor
    · intro key grant hstored
      rw [find?_start] at hstored
      cases hstored
    · intro key grant hstored
      rw [find?_start] at hstored
      cases hstored
    · exact fun hjournal => by cases hjournal
  | step move hbefore hmoved ih => exact ih.moved hrules hbefore (moved_of_move hmoved)

/-! ### Grants stay as long as their requests -/

/-- A grant that was filled in for a request names its key. -/
theorem Reachable.requestKey_of_filled (h : Reachable rules cluster) {request : Request}
    {id : String} {given grant : Grant} (hfilled : cluster.Filled key request id given)
    (hterms : grant.body.terms = given.body.terms) : grant.body.requestKey = key := by
  obtain ⟨-, -, -, approvers, hbody⟩ := h.given hfilled
  obtain ⟨place, journal, hjournal, htarget, hsupplied⟩ := hfilled
  rw [GrantStatus.eq_of_terms GrantStatus.requestKey hterms fun _ => rfl, hbody,
    request.requestKey_grantStatus, (h.shown_of_worksOn hjournal htarget hsupplied.worksOn).2]

/-- The removal of the request is among what goes with a grant that was filled in for it. -/
theorem mem_removals_of_filled (h : Reachable rules cluster) {request : Request} {id : String}
    {given grant : Grant} (hfilled : cluster.Filled key request id given)
    (hterms : grant.body.terms = given.body.terms) (hname : key.name ≠ "") :
    .delete .request key ∈ grant.removals := by
  have hplace := h.requestKey_of_filled hfilled hterms
  have hnamed : grant.body.request ≠ "" := fun hempty =>
    hname ((congrArg Key.name hplace).symm.trans hempty)
  exact hplace ▸ grant.request_mem_removals hnamed

/-- **A grant is removed by a pass that has worked on it** and has settled everything that goes with
it. -/
theorem Tidy.gone (h : cluster.Tidy) (hrules : rules.AreHonest)
    (hreachable : Reachable rules cluster) (hmoved : Moved rules cluster next) {old : Grant}
    (hold : cluster.store.find? .grant key = some old)
    (hgone : next.store.find? .grant key = none) :
    ∃ (place : Nat) (journal : Journal) (start grant : Grant),
      cluster.journals[place]? = some journal ∧ journal.target = .grant key ∧
      Grant.Freed key start grant journal.deeds ∧ Grant.Cleaned grant journal.deeds ∧
      old.metadata.uid = grant.metadata.uid := by
  cases hreachable.grantTurn hmoved key with
  | kept hsame =>
    rw [hsame, hold] at hgone
    cases hgone
  | launched _ hstored | filled _ _ _ _ _ _ _ hstored | recorded _ _ _ _ hstored
  | secured _ _ _ _ hstored =>
    rw [hstored] at hgone
    cases hgone
  | released _ _ _ hfound hleft =>
    rcases hleft with ⟨-, hdeleting⟩ | hstored
    · rw [h.live hfound] at hdeleting
      cases hdeleting
    · rw [hstored] at hgone
      cases hgone
  | discarded hacts hfreed hcleaned hfound hleft =>
    obtain rfl := Option.some.inj (hfound.symm.trans hold)
    have huid := (h.discarded hreachable hacts hfreed hfound hleft).1
    obtain ⟨rest, hcurrent, -⟩ := hacts
    exact ⟨_, _, _, _, hcurrent, rfl, hfreed, hcleaned, huid⟩
  | revoked hallowed =>
    rw [hrules.unrevoked] at hallowed
    cases hallowed

/-- Where the grant of a request is removed, the request is gone or is being deleted. -/
theorem Reachable.parted_of_gone (h : Reachable rules cluster) (hrules : rules.AreHonest)
    (hmoved : Moved rules cluster next) {request : Request} {id : String} {given old : Grant}
    (hfilled : cluster.Filled key request id given)
    (hold : cluster.store.find? .grant key = some old)
    (huid : old.metadata.uid = given.metadata.uid)
    (hgone : next.store.find? .grant key = none) : cluster.Parted key request.metadata.uid := by
  obtain ⟨place, journal, start, grant, hjournal, htarget, hfreed, hcleaned, hsame⟩ :=
    (h.tidy hrules).gone hrules h hmoved hold hgone
  have hfaithful := h.faithful_grant hjournal htarget hfreed.secured
  have hpopulated : start.body.isPopulated = true := hfaithful.body ▸ hfreed.populated
  -- The grant that the pass has worked on says what was filled in.
  obtain ⟨hshown, hplace, hgiven, -⟩ := h.given hfilled
  have hterms := h.grant_lineage hshown hgiven (hplace.symm ▸ hold) huid
  have hfound := hfreed.secured.found
  have hstart := h.grant_lineage (Cluster.shown_of_found hjournal hfound) hpopulated
    (hfaithful.start_key.symm ▸ hold) (hsame.trans hfaithful.uid)
  intro left hleft
  have hremoval : .delete .request key ∈ grant.removals := mem_removals_of_filled h hfilled
    (by rw [hfaithful.body, ← hstart, hterms]) (h.named hleft)
  exact h.parted hrules hjournal htarget hfound hpopulated (hcleaned _ hremoval) hfilled
    (huid.symm.trans (hsame.trans hfaithful.uid)) left hleft

/-- **A grant that was filled in for a request stays stored** until the request is gone or is being
deleted. -/
theorem Reachable.kept (h : Reachable rules cluster) (hrules : rules.AreHonest)
    {request : Request} {id : String} {given : Grant}
    (hfilled : cluster.Filled key request id given) :
    (∃ stored : Grant, cluster.store.find? .grant key = some stored ∧
      stored.metadata.uid = given.metadata.uid) ∨ cluster.Parted key request.metadata.uid := by
  induction h with
  | start =>
    obtain ⟨place, journal, hjournal, -⟩ := hfilled
    cases hjournal
  | @step cluster next move hbefore hmoved ih =>
    have hmoved := moved_of_move hmoved
    rcases hbefore.filled_earlier hmoved hfilled with hearlier | ⟨hstored, -⟩
    · have hissued := hbefore.issued_of_filled hearlier
      rcases ih hearlier with ⟨old, hold, huid⟩ | hparted
      · cases hnew : next.store.find? .grant key with
        | none =>
          have hparted := hbefore.parted_of_gone hrules hmoved hearlier hold huid hnew
          exact .inr (hparted.moved hbefore hmoved hissued)
        | some new =>
          refine .inl ⟨new, rfl, ?_⟩
          rcases (hbefore.grantTurn hmoved key).descends hnew with
            ⟨hvacant, -⟩ | ⟨stored, hstored, hsame, -⟩
          · rw [hvacant] at hold
            cases hold
          · obtain rfl := Option.some.inj (hstored.symm.trans hold)
            exact hsame.trans huid
      · exact .inr (hparted.moved hbefore hmoved hissued)
    · exact .inl ⟨given, hstored, rfl⟩

end Cluster

end AccessBroker
