import AccessBroker.Proofs.Cluster.Turns

/-!
# Where objects and identifiers come from

An object that was ever shown and the stored one with its key and identifier are the same
object at two times, so what a move cannot change is the same in both
(`AccessBroker.Cluster.Reachable.request_lineage`,
`AccessBroker.Cluster.Reachable.grant_lineage`). The identifier of a request was drawn by a pass
on that request object, and on no other one
(`AccessBroker.Cluster.Reachable.drawn_of_named`,
`AccessBroker.Cluster.Reachable.drawnFor_unique`); and a grant that is filled in was filled in by
a pass on the request whose identifier it names (`AccessBroker.Cluster.Reachable.filled`).
-/

namespace AccessBroker

namespace Cluster

variable {rules : Rules} {cluster next : Cluster} {key : Key}

/-! ### The same object at two times -/

/-- A property of the object under a key lasts if every move keeps it, as long as it is the same
object that is stored. -/
def Lasts (rules : Rules) (key : Key) {kind : Kind} (P : Object kind → Prop) : Prop :=
  ∀ ⦃cluster next : Cluster⦄ ⦃new : Object kind⦄, Reachable rules cluster →
    Moved rules cluster next → next.store.find? kind key = some new →
    cluster.store.find? kind key = none ∧ new.metadata.uid ∉ cluster.issued ∨
      ∃ old : Object kind, cluster.store.find? kind key = some old ∧
        new.metadata.uid = old.metadata.uid ∧ (P old → P new)

/-- **What lasts**, and was true of an object when it was shown, is true of the stored one. -/
theorem Reachable.keeps_lineage {kind : Kind} {first last : Object kind} {P : Object kind → Prop}
    (hlasts : Lasts rules first.key P) (h : Reachable rules cluster) (hfirst : cluster.Shown first)
    (hlast : cluster.store.find? kind first.key = some last)
    (huid : last.metadata.uid = first.metadata.uid) (hholds : P first) : P last := by
  induction h generalizing last with
  | start => exact absurd hfirst (not_shown_start first)
  | @step cluster next move hbefore hmoved ih =>
    have hmoved := moved_of_move hmoved
    rcases hmoved.shown hbefore.sound.keyed hfirst with hshown | hstores
    · rcases hlasts hbefore hmoved hlast with ⟨-, hfresh⟩ | ⟨old, hold, hsame, hnext⟩
      · exact absurd (huid ▸ hbefore.sound.issued first hshown) hfresh
      · exact hnext (ih hshown hold (hsame.symm.trans huid))
    · obtain rfl := Option.some.inj (hstores.symm.trans hlast)
      exact hholds

theorem lasts_descends (rules : Rules) (key : Key) (first : Request) :
    Lasts rules key (Descends first) := by
  intro cluster next new h hmoved hnew
  exact (h.request_descends hmoved hnew).imp id fun ⟨old, hold, hdescends⟩ =>
    ⟨old, hold, hdescends.uid, fun hearlier => hearlier.trans hdescends⟩

/-- **What was shown of a request still holds of the stored one.** -/
theorem Reachable.request_lineage (h : Reachable rules cluster) {first last : Request}
    (hfirst : cluster.Shown first) (hlast : cluster.store.find? .request first.key = some last)
    (huid : last.metadata.uid = first.metadata.uid) : Descends first last :=
  Reachable.keeps_lineage (lasts_descends rules first.key first) h hfirst hlast huid (.refl first)

/-- The terms of a grant that is filled in last. -/
theorem lasts_terms (rules : Rules) (key : Key) {status : GrantStatus}
    (hpopulated : status.isPopulated = true) :
    Lasts rules key fun grant : Grant => grant.body.terms = status.terms := by
  intro cluster next new h hmoved hnew
  refine ((h.grantTurn hmoved key).descends hnew).imp id
    fun ⟨old, hold, hsame, hterms⟩ => ⟨old, hold, hsame, fun hearlier => ?_⟩
  exact (hterms ((GrantStatus.isPopulated_of_terms hearlier).trans hpopulated)).trans hearlier

/-- **The terms of a grant that was ever seen filled in are those of the stored one.** -/
theorem Reachable.grant_lineage (h : Reachable rules cluster) {first last : Grant}
    (hfirst : cluster.Shown first) (hpopulated : first.body.isPopulated = true)
    (hlast : cluster.store.find? .grant first.key = some last)
    (huid : last.metadata.uid = first.metadata.uid) : last.body.terms = first.body.terms :=
  Reachable.keeps_lineage (lasts_terms rules first.key hpopulated) h hfirst hlast huid rfl

/-- **What lasts of an object, a run keeps of it.** -/
theorem Reachable.keeps_run {kind : Kind} {P : Object kind → Prop} (hlasts : Lasts rules key P)
    (h : Reachable rules cluster) {moves : List Move} {later : Cluster}
    (hrun : cluster.run rules moves = some later) {first last : Object kind}
    (hfirst : cluster.store.find? kind key = some first)
    (hlast : later.store.find? kind key = some last)
    (huid : last.metadata.uid = first.metadata.uid) (hholds : P first) : P last := by
  -- It holds of whatever is stored under the key, if it is the same object.
  suffices ∀ cluster, Reachable rules cluster → cluster.run rules moves = some later →
      first.metadata.uid ∈ cluster.issued →
      (∀ between : Object kind, cluster.store.find? kind key = some between →
        between.metadata.uid = first.metadata.uid → P between) → P last by
    refine this cluster h hrun (h.sound.issued _ (.inl (h.sound.stores hfirst))) ?_
    intro between hbetween _
    exact Option.some.inj (hfirst.symm.trans hbetween) ▸ hholds
  clear h hrun hfirst
  induction moves with
  | nil =>
    intro cluster _ hrun _ hstored
    obtain rfl := Option.some.inj hrun
    exact hstored last hlast huid
  | cons move rest ih =>
    intro cluster h hrun hissued hstored
    obtain ⟨next, hmove, hrest⟩ := Option.bind_eq_some_iff.1 hrun
    have hmoved := moved_of_move hmove
    refine ih next (h.step move hmove) hrest (hmoved.issued_subset hissued) ?_
    intro new hnew hsame
    rcases hlasts h hmoved hnew with ⟨-, hfresh⟩ | ⟨old, hold, heq, hnext⟩
    · exact absurd (hsame ▸ hissued) hfresh
    · exact hnext (hstored old hold (heq.symm.trans hsame))

/-! ### Identifiers of requests -/

/-- **An identifier that a pass has drawn** is none that was given out before. -/
theorem Reachable.drew (h : Reachable rules cluster) {place : Nat} {journal : Journal} {id : String}
    (hjournal : cluster.journals[place]? = some journal) (hdrew : Request.Drew id journal.deeds) :
    id ≠ "" ∧ id ∈ cluster.issued := by
  induction h generalizing place journal with
  | start => cases hjournal
  | @step cluster next move hbefore hmoved ih =>
    have hmoved := moved_of_move hmoved
    have hissued := hmoved.issued_subset
    cases hmoved.fate hjournal with
    | kept hcurrent => exact (ih hcurrent hdrew).imp_right (hissued ·)
    | started => cases hdrew
    | @advanced target past effect rest reply hcurrent hserved =>
      rcases List.mem_cons.1 hdrew with heq | hearlier
      · cases heq
        obtain ⟨⟨hnamed, -⟩, hgiven⟩ := hserved.of_freshId
        exact ⟨hnamed, hgiven ▸ List.mem_cons_self⟩
      · exact (ih hcurrent hearlier).imp_right (hissued ·)

/-- A pass that has drawn an identifier had drawn it before, or it has just been given out. -/
theorem Fate.drew {place : Nat} {journal : Journal} {id : String}
    (h : Fate rules cluster next place journal) (hdrew : Request.Drew id journal.deeds) :
    (∃ before, cluster.journals[place]? = some before ∧ Request.Drew id before.deeds) ∨
      id ∉ cluster.issued ∧
        ∀ other, other ≠ place → next.journals[other]? = cluster.journals[other]? := by
  cases h with
  | kept hcurrent => exact .inl ⟨journal, hcurrent, hdrew⟩
  | started => cases hdrew
  | advanced hcurrent hserved hothers =>
    rcases List.mem_cons.1 hdrew with heq | hearlier
    · cases heq
      exact .inr ⟨hserved.of_freshId.1.2, hothers⟩
    · exact .inl ⟨_, hcurrent, hearlier⟩

/-- **No two passes draw the same identifier.** -/
theorem Reachable.drew_unique (h : Reachable rules cluster) {place place' : Nat}
    {journal journal' : Journal} {id : String}
    (hjournal : cluster.journals[place]? = some journal)
    (hjournal' : cluster.journals[place']? = some journal')
    (hdrew : Request.Drew id journal.deeds) (hdrew' : Request.Drew id journal'.deeds) :
    place = place' := by
  induction h generalizing place place' journal journal' with
  | start => cases hjournal
  | @step cluster next move hbefore hmoved ih =>
    have hmoved := moved_of_move hmoved
    have hfate := (hmoved.fate hjournal).drew hdrew
    have hfate' := (hmoved.fate hjournal').drew hdrew'
    rcases hfate with ⟨before, hbefore', hearlier⟩ | ⟨hfresh, hothers⟩
    · rcases hfate' with ⟨before', hcurrent', hearlier'⟩ | ⟨hfresh', -⟩
      · exact ih hbefore' hcurrent' hearlier hearlier'
      · exact absurd (hbefore.drew hbefore' hearlier).2 hfresh'
    · refine Decidable.byContradiction fun hne => ?_
      rw [hothers place' (Ne.symm hne)] at hjournal'
      exact hfresh (hbefore.drew hjournal' hdrew').2

/-- A pass on a request object has drawn an identifier for it. -/
def DrawnFor (cluster : Cluster) (key : Key) (uid id : String) : Prop :=
  ∃ (place : Nat) (journal : Journal) (start : Request),
    cluster.journals[place]? = some journal ∧ journal.target = .request key ∧
    Found key journal.deeds start ∧ start.metadata.uid = uid ∧ Request.Drew id journal.deeds

theorem DrawnFor.moved {uid id : String} (h : cluster.DrawnFor key uid id)
    (hmoved : Moved rules cluster next) : next.DrawnFor key uid id := by
  obtain ⟨place, journal, start, hjournal, htarget, hfound, huid, hdrew⟩ := h
  obtain ⟨later, hlater, hsame, hsuffix⟩ := hmoved.remains hjournal
  exact ⟨place, later, start, hlater, hsame.trans htarget, hfound.mono hsuffix, huid,
    hsuffix.mem hdrew⟩

/-- **An identifier is drawn for one request object.** -/
theorem Reachable.drawnFor_unique (h : Reachable rules cluster) {key' : Key}
    {uid uid' id : String} (hdrawn : cluster.DrawnFor key uid id)
    (hdrawn' : cluster.DrawnFor key' uid' id) : key = key' ∧ uid = uid' := by
  obtain ⟨place, journal, start, hjournal, htarget, hfound, rfl, hdrew⟩ := hdrawn
  obtain ⟨place', journal', start', hjournal', htarget', hfound', rfl, hdrew'⟩ := hdrawn'
  obtain rfl := h.drew_unique hjournal hjournal' hdrew hdrew'
  obtain rfl := Option.some.inj (hjournal.symm.trans hjournal')
  obtain rfl : key = key' := Target.request.inj (htarget.symm.trans htarget')
  obtain rfl := h.found_unique hjournal htarget hfound hfound'
  exact ⟨rfl, rfl⟩

/-- **The identifier of a request was drawn for it.** -/
theorem Reachable.drawn_of_named (h : Reachable rules cluster) {request : Request}
    (hshown : cluster.Shown request) (hnamed : request.body.status.requestId ≠ "") :
    cluster.DrawnFor request.key request.metadata.uid request.body.status.requestId := by
  revert hnamed
  refine h.request_induction (P := fun cluster key uid body => body.status.requestId ≠ "" →
    cluster.DrawnFor key uid body.status.requestId) ?_ ?_ ?_ hshown
  · exact fun hmoved hdrawn hnamed => (hdrawn hnamed).moved hmoved
  · exact fun _ _ _ _ hnamed => absurd rfl hnamed
  · intro cluster place journal key start request status h hjournal htarget hunderway hdrawn _
    have hfaithful := h.faithful_request hjournal htarget hunderway.secured
    rw [hfaithful.uid]
    rcases hunderway.holds with ⟨hnamed, hid⟩ | ⟨-, hdrew⟩
    · exact hid ▸ hdrawn hnamed
    · exact ⟨place, journal, start, hjournal, htarget, hunderway.secured.found, rfl, hdrew⟩

/-- The identifier under which a pass works was drawn for the request that it works on. -/
theorem Reachable.drawn_of_worksOn (h : Reachable rules cluster) {place : Nat} {journal : Journal}
    {request : Request} {id : String} (hjournal : cluster.journals[place]? = some journal)
    (htarget : journal.target = .request key)
    (hworks : Request.WorksOn key request id journal.deeds) :
    id ≠ "" ∧ cluster.DrawnFor key request.metadata.uid id := by
  obtain ⟨start, hsecured, hholds⟩ := hworks
  have hfaithful := h.faithful_request hjournal htarget hsecured
  rw [hfaithful.uid]
  rcases hholds with ⟨hnamed, rfl⟩ | ⟨-, hdrew⟩
  · refine ⟨hnamed, ?_⟩
    have hdrawn := h.drawn_of_named (Cluster.shown_of_found hjournal hsecured.found) hnamed
    rwa [hfaithful.start_key] at hdrawn
  · exact ⟨(h.drew hjournal hdrew).1, place, journal, start, hjournal, htarget, hsecured.found, rfl,
      hdrew⟩

/-! ### Statuses that were written -/

/-- A pass writes the status of an object that it was given. -/
theorem Reachable.shown_of_patchable (h : Reachable rules cluster) {place : Nat} {journal : Journal}
    {kind : Kind} {base : Object kind} {status : kind.Status}
    (hjournal : cluster.journals[place]? = some journal)
    (hallowed : journal.target.conduct journal.deeds (.store (.patchStatus kind base status))) :
    cluster.Shown base := by
  obtain ⟨target, deeds, rest⟩ := journal
  cases target with
  | request key =>
    cases hallowed with
    | write hunderway => exact h.shown_of_secured hjournal hunderway.secured
    | fill _ _ _ hopened =>
      exact shown_of_opened hjournal hopened
  | grant key =>
    cases hallowed with
    | record htended => exact h.shown_of_secured hjournal htended.secured

/-- **A status is written to the object that it is based on.** -/
theorem Reachable.patched (h : Reachable rules cluster) {place : Nat} {journal : Journal}
    {kind : Kind} {base new : Object kind} {status : kind.Status}
    (hjournal : cluster.journals[place]? = some journal)
    (hdeed : Deed.ofCall (.patchStatus kind base status) (.ok new) ∈ journal.deeds) :
    ∃ version, new = base.patched status version := by
  induction h generalizing place journal with
  | start => cases hjournal
  | @step cluster next move hbefore hmoved ih =>
    cases (moved_of_move hmoved).fate hjournal with
    | kept hcurrent => exact ih hcurrent hdeed
    | started => cases hdeed
    | advanced hcurrent hserved =>
      rcases List.mem_cons.1 hdeed with heq | hearlier
      · cases heq
        have hshown := hbefore.shown_of_patchable hcurrent (hbefore.orderly _ _ hcurrent).allowed
        cases hserved with
        | performed hcalls =>
          obtain ⟨old, hold, hversion, rfl, -⟩ := hcalls.performed.of_patchStatus
          obtain rfl := hbefore.sound.recent base old hshown hold hversion
          exact ⟨_, rfl⟩
      · exact ih hcurrent hearlier

/-! ### Grants that were filled in -/

/-- A pass on a request has filled in a grant for it, under an identifier. -/
def Filled (cluster : Cluster) (key : Key) (request : Request) (id : String) (given : Grant) :
    Prop :=
  ∃ (place : Nat) (journal : Journal), cluster.journals[place]? = some journal ∧
    journal.target = .request key ∧ Request.Supplied key request id given journal.deeds

theorem Filled.moved {request : Request} {id : String} {given : Grant}
    (h : cluster.Filled key request id given) (hmoved : Moved rules cluster next) :
    next.Filled key request id given := by
  obtain ⟨place, journal, hjournal, htarget, hsupplied⟩ := h
  obtain ⟨later, hlater, hsame, hsuffix⟩ := hmoved.remains hjournal
  exact ⟨place, later, hlater, hsame.trans htarget, hsupplied.mono hsuffix⟩

/-- The grant that a pass on a request has opened lies under the key of the pass. -/
theorem Reachable.key_of_opened (h : Reachable rules cluster) {place : Nat} {journal : Journal}
    {start request : Request} {grant : Grant} {past : Deeds}
    (hjournal : cluster.journals[place]? = some journal) (htarget : journal.target = .request key)
    (hsuffix : past <:+ journal.deeds) (hsecured : Secured key past start request)
    (hopened : Request.Opened request grant past) : grant.key = key := by
  have hkey := (h.faithful_request hjournal htarget (hsecured.mono hsuffix)).key
  rcases hopened with hcreated | hfound
  · exact (h.key_of_created hjournal (hsuffix.mem hcreated)).trans hkey
  · exact (h.key_of_found hjournal (hsuffix.mem hfound)).trans hkey

/-- **What a pass has filled in** is a grant under the key of its request, with what the request
asks for. -/
theorem Reachable.given (h : Reachable rules cluster) {request : Request} {id : String}
    {given : Grant} (hfilled : cluster.Filled key request id given) :
    cluster.Shown given ∧ given.key = key ∧ given.body.isPopulated = true ∧
      ∃ approvers, given.body = request.grantStatus id approvers := by
  obtain ⟨place, ⟨target, deeds, rest⟩, hjournal, rfl, hsupplied⟩ := hfilled
  have hworks := hsupplied.worksOn
  obtain ⟨past, base, approvers, -, hfill⟩ := hsupplied
  have hdeed := hfill.mem List.mem_cons_self
  have hshown := shown_of_gives hjournal hdeed .patched
  obtain ⟨version, rfl⟩ := h.patched hjournal hdeed
  obtain ⟨past, hsuffix, hallowed⟩ := (h.orderly _ _ hjournal).heeds.allowed hdeed
  have hnamed := (h.drawn_of_worksOn hjournal rfl hworks).1
  refine ⟨hshown, ?_, request.isPopulated_grantStatus approvers hnamed, approvers, rfl⟩
  generalize request.grantStatus id approvers = status at hallowed
  cases hallowed with
  | fill hunderway _ _ hopened =>
    have hbase : base.key = key := h.key_of_opened hjournal rfl
      ((List.suffix_cons _ _).trans hsuffix) hunderway.secured hopened
    exact hbase

/-- **Every grant that is filled in was filled in by a pass on a request**, and its terms are
still those. -/
theorem Reachable.filled (h : Reachable rules cluster) {grant : Grant}
    (hshown : cluster.Shown grant) (hpopulated : grant.body.isPopulated = true) :
    ∃ request given, cluster.Filled grant.key request grant.body.requestId given ∧
      given.metadata.uid = grant.metadata.uid ∧ given.body.terms = grant.body.terms := by
  induction h generalizing grant with
  | start => exact absurd hshown (not_shown_start grant)
  | @step cluster next move hbefore hmoved ih =>
    have hmoved := moved_of_move hmoved
    have hsound := hbefore.sound
    -- What was filled in before.
    have hkept {old : Grant} (hold : cluster.store.find? .grant grant.key = some old)
        (huid : grant.metadata.uid = old.metadata.uid)
        (hterms : grant.body.terms = old.body.terms) :
        ∃ request given, next.Filled grant.key request grant.body.requestId given ∧
          given.metadata.uid = grant.metadata.uid ∧ given.body.terms = grant.body.terms := by
      obtain ⟨request, given, hfilled, hsame, hgiven⟩ := ih (.inl (hsound.stores hold))
        ((GrantStatus.isPopulated_of_terms hterms).symm.trans hpopulated)
      have hid := GrantStatus.eq_of_terms GrantStatus.requestId hterms fun _ => rfl
      rw [hsound.keyed _ _ _ hold, ← hid] at hfilled
      exact ⟨request, given, hfilled.moved hmoved, hsame.trans huid.symm, hgiven.trans hterms.symm⟩
    rcases hmoved.shown hsound.keyed hshown with hearlier | hstores
    · obtain ⟨request, given, hfilled, hgiven⟩ := ih hearlier hpopulated
      exact ⟨request, given, hfilled.moved hmoved, hgiven⟩
    · unfold Stores at hstores
      generalize hkey : grant.key = key at hstores hkept ⊢
      cases (hbefore.grantTurn hmoved key).becomes hstores with
      | kept hfound huid hbody => exact hkept hfound huid (congrArg GrantStatus.terms hbody)
      | launched _ _ hblank =>
        rw [hblank] at hpopulated
        cases hpopulated
      | recorded _ _ hterms hfound => exact hkept hfound rfl hterms
      | @filled place past start request status base approvers version hacts hunderway =>
        obtain ⟨rest, -, hafter⟩ := hacts
        have hid : (base.patched (request.grantStatus status.requestId approvers)
            version).body.requestId = status.requestId :=
          (request.grantStatus_eq status.requestId approvers).1
        refine ⟨request, _, ⟨place, _, hafter, rfl, past, base, approvers, ?_, ?_⟩, rfl, rfl⟩
        · rw [hid]
          exact hunderway.worksOn
        · rewrite [hid]
          exact List.suffix_refl _

/-- **A grant that bears the identifier of a request was filled in by a pass on it.** -/
theorem Reachable.filled_for (h : Reachable rules cluster) {request : Request} {grant : Grant}
    (hrequest : cluster.Shown request) (hgrant : cluster.Shown grant)
    (hpopulated : grant.body.isPopulated = true)
    (hid : grant.body.requestId = request.body.status.requestId) :
    grant.key = request.key ∧ ∃ found given,
      cluster.Filled request.key found request.body.status.requestId given ∧
        found.metadata.uid = request.metadata.uid ∧ given.metadata.uid = grant.metadata.uid := by
  obtain ⟨found, given, hfilled, hgiven, -⟩ := h.filled hgrant hpopulated
  rw [hid] at hfilled
  obtain ⟨place, journal, hjournal, htarget, hsupplied⟩ := hfilled
  obtain ⟨hnamed, hdrawn⟩ := h.drawn_of_worksOn hjournal htarget hsupplied.worksOn
  obtain ⟨hkey, huid⟩ := h.drawnFor_unique hdrawn (h.drawn_of_named hrequest hnamed)
  rw [hkey] at htarget hsupplied
  exact ⟨hkey, found, given, ⟨place, journal, hjournal, htarget, hsupplied⟩, huid, hgiven⟩

end Cluster

end AccessBroker
