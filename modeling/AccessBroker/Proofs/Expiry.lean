import AccessBroker.Proofs.Artifacts
import AccessBroker.Proofs.Cluster.Removals
import AccessBroker.Proofs.Convergence
import AccessBroker.Proofs.Desk.Expiry

/-!
# The end of access

Once the end of access has passed, one pass on a grant that nobody interferes with revokes all of it
(`AccessBroker.Cluster.Reachable.revokes`), however far earlier passes have come with the grant or
with its removal. What such a pass relies on holds in every cluster that can come about while passes
on one target do not overlap (`AccessBroker.Cluster.Reachable.inOrder`):

* Nobody but the broker keeps a grant stored, since only passes write the finalizers of grants.
* An identifier is given to one object, so what is owned by a grant is owned by nothing else.
* Under the names of a grant lies only what it owns. Another grant would have to bear the identifier
  of the same request, but identifiers are drawn for one request object; or a name made for rules
  would have to be that of another binding, which takes an identifier with letters that identifiers
  do not have (`AccessBroker.IsPlainId`).

The last of these fails where passes on one grant overlap: one that was overtaken can still store a
binding for a grant that is gone, under the name that the next grant of the same request has for its
own (`AccessBroker.Cluster.not_revoked_overlapping`).
-/

namespace AccessBroker

open AccessBroker.Time MemoryStore

/-! ### Names -/

/-- An identifier does not begin as the middle of a name that is made for rules does. -/
def IsPlainId (id : String) : Prop :=
  ¬"adhoc-".toList <+: id.toList

instance : DecidablePred IsPlainId := fun id =>
  inferInstanceAs (Decidable ¬"adhoc-".toList <+: id.toList)

/-- **The two kinds of names do not meet.** -/
theorem IsPlainId.bindingName_ne {id other : String} (h : IsPlainId id) :
    bindingName id ≠ adhocName other := by
  intro heq
  have hsplit : adhocName other = "jit-access-" ++ ("adhoc-" ++ other) :=
    @String.append_assoc "jit-access-" "adhoc-" other
  have hid : id = "adhoc-" ++ other := (String.append_right_inj "jit-access-").1 (heq.trans hsplit)
  refine absurd ?_ h
  rw [hid, String.toList_append]
  exact List.prefix_append _ _

/-! ### Identifiers of objects -/

/-- Where a call stores a new object, if it stores one. -/
def StoreCall.birthplace? : StoreCall → Option (Kind × Key)
  | .create kind object => some (kind, object.key)
  | .savePolicy policy => some (.policy, policy.key)
  | _ => none

/-- A call that gives out an identifier leaves everything as it is but the new object. -/
theorem MemoryStore.Turn.kept_or_born {kind : Kind} {key : Key} {store after : MemoryStore}
    {now : Instant} {uid : String} {call : StoreCall} {reply : call.Reply} {object : Object kind}
    (h : Turn now uid store after call reply kind key) (htaken : store.takesUid call = true)
    (hafter : after.find? kind key = some object) :
    after.find? kind key = store.find? kind key ∨ call.birthplace? = some (kind, key) := by
  cases h with
  | kept hsame => exact .inl hsame
  | born | saved => exact .inr rfl
  | linked | released | patched | marked | removed => cases htaken
  | collected _ hgone => exact absurd (hgone.symm.trans hafter) nofun

namespace Cluster

variable {rules : Rules} {cluster next : Cluster} {kind : Kind} {key : Key}

/-- An object was stored before under the same identifier, or a call has just stored it. -/
theorem Calls.kept_or_born {id : String} {call : StoreCall} {reply : call.Reply}
    (h : cluster.Calls id call reply next.store next.issued) (hkeyed : cluster.store.Keyed)
    {object : Object kind} (hobject : next.store.find? kind key = some object) :
    (∃ old : Object kind, cluster.store.find? kind key = some old ∧
        object.metadata.uid = old.metadata.uid) ∨
      object.metadata.uid ∉ cluster.issued ∧ call.birthplace? = some (kind, key) := by
  have hturn := h.performed.turn hkeyed kind key
  rcases hturn.uid_eq hobject with hold | ⟨rfl, htaken⟩
  · exact .inl hold
  · rcases hturn.kept_or_born htaken hobject with hsame | hborn
    · exact .inl ⟨object, hsame.symm.trans hobject, rfl⟩
    · exact .inr ⟨h.fresh_uid htaken, hborn⟩

/-- **No two objects have the same identifier.** -/
theorem Reachable.uid_unique (h : Reachable rules cluster) {other : Kind} {place : Key}
    {object : Object kind} {second : Object other}
    (hobject : cluster.store.find? kind key = some object)
    (hsecond : cluster.store.find? other place = some second)
    (huid : object.metadata.uid = second.metadata.uid) : kind = other ∧ key = place := by
  induction h generalizing object second with
  | start =>
    rw [find?_start] at hobject
    cases hobject
  | @step cluster next move hbefore hmoved ih =>
    have hsound := hbefore.sound
    rcases (moved_of_move hmoved).calls with ⟨hstore, -⟩ | ⟨id, call, reply, hcalls⟩
    · rw [hstore] at hobject hsecond
      exact ih hobject hsecond huid
    · rcases hcalls.kept_or_born hsound.keyed hobject with ⟨old, hold, hsame⟩ | ⟨hnew, hborn⟩
      · rcases hcalls.kept_or_born hsound.keyed hsecond with ⟨old', hold', hsame'⟩ | ⟨hnew, -⟩
        · exact ih hold hold' (hsame.symm.trans (huid.trans hsame'))
        · exact absurd (hsound.issued old (.inl (hsound.stores hold)))
            (hsame ▸ huid ▸ hnew)
      · rcases hcalls.kept_or_born hsound.keyed hsecond with ⟨old, hold, hsame⟩ | ⟨-, hborn'⟩
        · exact absurd (hsound.issued old (.inl (hsound.stores hold)))
            (hsame ▸ huid ▸ hnew)
        · exact Prod.mk.inj (Option.some.inj (hborn.symm.trans hborn'))

/-! ### What the end of a grant relies on -/

/-- **Nobody but the broker keeps a grant stored.** -/
theorem Reachable.bare (h : Reachable rules cluster) {grant : Grant}
    (hgrant : cluster.store.find? .grant key = some grant) :
    ∀ finalizer ∈ grant.metadata.finalizers, finalizer = cleanupFinalizer := by
  induction h generalizing grant with
  | start =>
    rw [find?_start] at hgrant
    cases hgrant
  | @step cluster next move hbefore hmoved ih =>
    cases hbefore.grantTurn (moved_of_move hmoved) key with
    | kept hsame => exact ih (hsame.symm.trans hgrant)
    | launched _ hstored _ _ _ hbare =>
      obtain rfl := Option.some.inj (hstored.symm.trans hgrant)
      rw [hbare]
      nofun
    | filled _ _ _ _ _ _ hfound hstored | recorded _ _ _ hfound hstored =>
      obtain rfl := Option.some.inj (hstored.symm.trans hgrant)
      have hbefore := ih hfound
      exact hbefore
    | secured _ _ _ hfound hstored =>
      obtain rfl := Option.some.inj (hstored.symm.trans hgrant)
      intro finalizer hfinalizer
      exact (Object.mem_finalizers_withFinalizer hfinalizer).elim (ih hfound finalizer) id
    | released _ _ _ hfound hleft =>
      rcases hleft with ⟨hgone, -⟩ | hstored
      · exact absurd (hgone.symm.trans hgrant) nofun
      · obtain rfl := Option.some.inj (hstored.symm.trans hgrant)
        intro finalizer hfinalizer
        exact ih hfound finalizer (List.mem_filter.1 hfinalizer).1
    | discarded _ _ _ hfound hleft | revoked _ hfound hleft =>
      rcases hleft with ⟨-, hgone⟩ | ⟨-, now, version, hstored⟩
      · exact absurd (hgone.symm.trans hgrant) nofun
      · obtain rfl := Option.some.inj (hstored.symm.trans hgrant)
        rw [Object.finalizers_marked]
        exact ih hfound

/-- The identifier that a grant names was drawn for a request under its key. -/
theorem Reachable.drawn_of_populated (h : Reachable rules cluster) {grant : Grant}
    (hgrant : cluster.store.find? .grant key = some grant)
    (hpopulated : grant.body.isPopulated = true) :
    grant.body.requestId ∈ cluster.issued ∧
      ∃ uid, cluster.DrawnFor key uid grant.body.requestId := by
  obtain ⟨request, given, hfilled, -⟩ := h.filled (.inl (h.sound.stores hgrant)) hpopulated
  rw [h.sound.keyed _ _ _ hgrant] at hfilled
  obtain ⟨place, journal, hjournal, htarget, hsupplied⟩ := hfilled
  obtain ⟨-, hdrawn⟩ := h.drawn_of_worksOn hjournal htarget hsupplied.worksOn
  obtain ⟨_, _, _, hdrew, _, _, _, hid⟩ := id hdrawn
  exact ⟨(h.drew hdrew hid).2, _, hdrawn⟩

/-- No identifier that was given out makes the two kinds of names meet. -/
def PlainlyNamed (cluster : Cluster) : Prop :=
  ∀ id ∈ cluster.issued, IsPlainId id

instance (cluster : Cluster) : Decidable cluster.PlainlyNamed :=
  inferInstanceAs (Decidable (∀ id ∈ cluster.issued, IsPlainId id))

/-- Two grants whose names meet name the same request. -/
theorem PlainlyNamed.requestId_eq (h : cluster.PlainlyNamed) {status other : GrantStatus}
    {artifact : Artifact} (hid : status.requestId ∈ cluster.issued)
    (hother : other.requestId ∈ cluster.issued) (hnames : status.Names (artifact.key other)) :
    status.requestId = other.requestId := by
  rcases hnames with hname | hname
  · have hname := congrArg Key.name hname
    cases artifact with
    | roleBinding => exact ((String.append_right_inj "jit-access-").1 hname).symm
    | adhocRole | adhocBinding =>
      exact absurd hname.symm (h _ hid).bindingName_ne
  · have hname := congrArg Key.name hname
    cases artifact with
    | roleBinding => exact absurd hname (h _ hother).bindingName_ne
    | adhocRole | adhocBinding =>
      exact ((String.append_right_inj "jit-access-adhoc-").1 hname).symm

/-- **What the end of a grant relies on** holds in every cluster that can come about while passes on
one target do not overlap. -/
theorem Reachable.inOrder (h : Reachable rules cluster) (hrules : rules.overlap = false)
    (hplain : cluster.PlainlyNamed) {grant : Grant}
    (hgrant : cluster.store.find? .grant key = some grant)
    (hpopulated : grant.body.isPopulated = true) : grant.InOrder cluster.store key where
  keyed := h.sound.keyed
  found := hgrant
  bare := h.bare hgrant
  granted := by
    intro kind place object uid hkind hobject howned
    obtain ⟨other, owner, howner, -, howns⟩ := h.owned hrules hkind hobject
    refine ⟨other, owner, howner, ?_⟩
    rw [Metadata.isOwnedBy, howns.owners] at howned
    simpa [Grant.ownerReference] using howned
  apart := by
    intro kind place other object owner hkind hobject howner huid
    exact hkind (h.uid_unique howner hobject huid).1.symm
  own := by
    intro kind place object hkind hnames hobject
    obtain ⟨other, owner, howner, hfilled, howns⟩ := h.owned hrules hkind hobject
    have hownedBy := howns.isOwnedBy
    obtain ⟨artifact, created, -, hcreation, hplace, -⟩ := howns
    obtain ⟨hid, uid, hdrawn⟩ := h.drawn_of_populated hgrant hpopulated
    obtain ⟨hother, uid', hdrawn'⟩ := h.drawn_of_populated howner hfilled
    have hkey : place = artifact.key owner.body := by
      obtain ⟨made, heq, hmade⟩ := Grant.exists_of_creation hcreation
      cases heq
      exact (h.sound.keyed _ _ _ hobject).symm.trans (hplace.trans hmade)
    -- The two grants bear the identifier of one request, and so they are one.
    have hsame := hplain.requestId_eq hid hother (hkey ▸ hnames)
    rw [hsame] at hdrawn
    obtain ⟨rfl, -⟩ := h.drawnFor_unique hdrawn hdrawn'
    obtain rfl := Option.some.inj (hgrant.symm.trans howner)
    exact hownedBy
  asked := by
    intro hrequest
    cases hfound : cluster.store.find? .request grant.body.requestKey with
    | none => rfl
    | some request => exact absurd hrequest (h.named hfound)

/-- **The end of access revokes everything.** A pass on a grant that has been filled in, whose end
of access has passed, and that nobody has asked to delete, ends well when nobody interferes; and the
grant and all that it owns are gone then, with everything that bears its names, the request is gone
or being deleted, everything else is as it was, and the listeners have been told once. -/
theorem Reachable.revokes (h : Reachable rules cluster) (hrules : rules.overlap = false)
    (hplain : cluster.PlainlyNamed) {grant : Grant}
    (hgrant : cluster.store.find? .grant key = some grant)
    (hpopulated : grant.body.isPopulated = true) (hlive : grant.metadata.isDeleting = false)
    {calm : Calm} {time : Instant} (hends : grant.body.expiresAt = some time)
    (hpast : time < calm.now) {desk : Desk} (hdesk : desk.store = cluster.store) :
    (calm.pass (.grant key) desk).1 = .ok .done ∧
      Grant.Revoked desk (calm.pass (.grant key) desk).2 key grant := by
  have horder := h.inOrder hrules hplain hgrant hpopulated
  rw [← hdesk] at horder
  have hover : grant.isOver calm.now = true := by
    rw [Grant.isOver, hends]
    exact decide_eq_true hpast
  exact Grant.ends_reconcile_of_isOver horder hlive hpopulated hover

/-- When the access of alice has ended, and nothing changes any more. -/
def Scenario.aftermath : Calm :=
  { Calm.Scenario.surroundings with now := Instant.epoch.after (11 * nanosPerMinute) }

/-- The role of alice goes with her grant. -/
theorem revokes_alice : ∃ (cluster : Cluster) (grant : Grant) (time : Instant),
    Reachable .queued cluster ∧ cluster.PlainlyNamed ∧
    cluster.store.find? .grant Scenario.place = some grant ∧ grant.body.isPopulated = true ∧
    grant.metadata.isDeleting = false ∧ grant.body.expiresAt = some time ∧
    time < Scenario.aftermath.now ∧
    (cluster.store.find? .role ⟨some "team", "jit-access-adhoc-0-2"⟩).isSome = true ∧
    (Scenario.aftermath.pass (.grant Scenario.place) { store := cluster.store }).1 = .ok .done ∧
    (Scenario.aftermath.pass (.grant Scenario.place) { store := cluster.store }).2.store.find?
      .role ⟨some "team", "jit-access-adhoc-0-2"⟩ = none := by
  obtain ⟨cluster, hreachable, hplain, hrole, grant, hgrant, hpopulated, hlive, hname, time, hends,
      hpast⟩ := exists_reachable
    (P := fun cluster => cluster.PlainlyNamed ∧
      (cluster.store.find? .role ⟨some "team", "jit-access-adhoc-0-2"⟩).isSome = true ∧
      ∃ grant ∈ cluster.store.find? .grant Scenario.place, grant.body.isPopulated = true ∧
        grant.metadata.isDeleting = false ∧
        ⟨some "team", "jit-access-adhoc-0-2"⟩ =
          grant.body.scope.key (adhocName grant.body.requestId) ∧
        ∃ time ∈ grant.body.expiresAt, time < Scenario.aftermath.now)
    .queued Scenario.furnished (by decide +kernel)
  have hdesk : ({ store := cluster.store } : Desk).store = cluster.store := rfl
  obtain ⟨hdone, hrevoked⟩ := Reachable.revokes hreachable rfl hplain hgrant hpopulated hlive
    hends hpast hdesk
  exact ⟨cluster, grant, time, hreachable, hplain, hgrant, hpopulated, hlive, hends, hpast, hrole,
    hdone, hrevoked.named rfl (.inr hname)⟩

/-- Two passes on the grant of alice overlap. The first one stops before it makes the role binding;
the second one finishes the grant, which alice has given up, and a pass on the request that has not
seen this puts another grant in its place. Then the first pass makes the binding, for the grant that
is gone, and a pass on the new grant is refused its own. -/
def Scenario.strayed : List Move :=
  filed ++ .start (.request place) :: answers 0 8 ++
    .user (.create .response (vote "b" "bob" .approved)) "bob" ::
    .start (.request place) :: answers 1 6 ++ .refuse 1 (.conflict "stale") ::
    .start (.grant place) :: answers 2 3 ++
    .start (.request place) :: answers 3 4 ++
    .user (.delete .grant place) "" :: .start (.grant place) :: answers 4 3 ++
    answers 3 2 ++ answers 2 1 ++
    .start (.grant place) :: answers 5 3 ++ .refuse 5 (.internal "refused") :: answers 5 1

/-- **One pass at a time is needed**: where passes on one grant overlap, a binding can be stored
under the name of the grant that it does not own, and the end of access leaves it. -/
theorem not_revoked_overlapping : ∃ (cluster : Cluster) (grant : Grant) (time : Instant),
    Reachable .unrestricted cluster ∧ cluster.PlainlyNamed ∧
    cluster.store.find? .grant Scenario.place = some grant ∧ grant.body.isPopulated = true ∧
    grant.metadata.isDeleting = false ∧ grant.body.expiresAt = some time ∧
    time < Scenario.aftermath.now ∧
    (Scenario.aftermath.pass (.grant Scenario.place) { store := cluster.store }).1 = .ok .done ∧
    ((Scenario.aftermath.pass (.grant Scenario.place) { store := cluster.store }).2.store.find?
      .binding (grant.body.scope.key (bindingName grant.body.requestId))).isSome = true := by
  obtain ⟨cluster, hreachable, hplain, grant, hgrant, hpopulated, hlive, ⟨time, hends, hpast⟩,
      hended, hstray⟩ := exists_reachable
    (P := fun cluster => cluster.PlainlyNamed ∧
      ∃ grant ∈ cluster.store.find? .grant Scenario.place, grant.body.isPopulated = true ∧
        grant.metadata.isDeleting = false ∧
        (∃ time ∈ grant.body.expiresAt, time < Scenario.aftermath.now) ∧
        (Scenario.aftermath.pass (.grant Scenario.place)
          { store := cluster.store }).1.toOption = some .done ∧
        ((Scenario.aftermath.pass (.grant Scenario.place)
          { store := cluster.store }).2.store.find? .binding
            (grant.body.scope.key (bindingName grant.body.requestId))).isSome = true)
    .unrestricted Scenario.strayed (by decide +kernel)
  refine ⟨cluster, grant, time, hreachable, hplain, hgrant, hpopulated, hlive, hends, hpast, ?_,
    hstray⟩
  cases houtcome :
    (Scenario.aftermath.pass (.grant Scenario.place) { store := cluster.store }).1 with
  | ok outcome =>
    rw [houtcome] at hended
    exact congrArg Except.ok (Option.some.inj hended)
  | error failure =>
    rw [houtcome] at hended
    cases hended

end Cluster

end AccessBroker
