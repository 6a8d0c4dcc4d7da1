import AccessBroker.Proofs.Desk.Grant

/-!
# What is left when access has ended

A pass that finds the end of access passed, and that nobody interferes with, removes the grant with
all that it provisioned (`AccessBroker.Grant.ends_advance_of_isOver`). Which artifacts the grant has
recorded, and which of them are there, makes no difference: what is recorded is deleted by its name,
and what is not goes with its owner.

Two things have to be arranged for this to spare everything else. Nothing of anybody else's may lie
under a name that the grant deletes, and nothing of anybody else's may be owned by what is deleted
on the way, the request or a role; `AccessBroker.Grant.InOrder` says what is relied on. While the
pass deletes, what the grant does not own stays as it was found, and what it owns stays its own
(`AccessBroker.Grant.Underway`); the last step takes the rest away.
-/

namespace AccessBroker

open AccessBroker.Time

namespace MemoryStore

variable {kind other : Kind} {key place : Key} {store after : MemoryStore} {now : Instant}
  {uid : String} {reply : Except Failure Unit}

/-- What is there is what was there before, apart from its version and a deletion. -/
def Aged (old? new? : Option (Object kind)) : Prop :=
  ∀ new, new? = some new → ∃ old, old? = some old ∧ new.metadata.uid = old.metadata.uid ∧
    new.metadata.owners = old.metadata.owners

theorem Aged.refl (old? : Option (Object kind)) : Aged old? old? :=
  fun new hnew => ⟨new, hnew, rfl, rfl⟩

theorem Aged.trans {first? second? third? : Option (Object kind)} (h : Aged first? second?)
    (h' : Aged second? third?) : Aged first? third? := by
  intro third hthird
  obtain ⟨second, hsecond, huid, howners⟩ := h' third hthird
  obtain ⟨first, hfirst, huid', howners'⟩ := h second hsecond
  exact ⟨first, hfirst, huid.trans huid', howners.trans howners'⟩

/-- Who owns an object owns it when it has aged. -/
theorem isOwnedBy_congr {old new : Object kind} (h : new.metadata.owners = old.metadata.owners)
    (uid : String) : new.metadata.isOwnedBy uid = old.metadata.isOwnedBy uid := by
  rw [Metadata.isOwnedBy, h, Metadata.isOwnedBy]

/-- **Under a deletion everything only ages.** -/
theorem Performed.aged_of_delete (h : Performed now uid store (.delete kind key) reply after)
    (hkeyed : store.Keyed) (other : Kind) (place : Key) :
    Aged (store.find? other place) (after.find? other place) := by
  intro new hnew
  cases h.turn hkeyed other place with
  | kept hsame => exact ⟨new, hsame.symm.trans hnew, rfl, rfl⟩
  | @marked _ _ old hfound _ hstored =>
    obtain rfl := Option.some.inj (hstored.symm.trans hnew)
    exact ⟨old, hfound, old.uid_marked now _, old.owners_marked now _⟩
  | removed _ _ hgone | collected _ hgone => exact absurd (hgone.symm.trans hnew) nofun

/-- **A deletion spares what the deleted object does not own.** -/
theorem Performed.spared_of_delete (h : Performed now uid store (.delete kind key) reply after)
    (hkeyed : store.Keyed) {object : Object other} (hfound : store.find? other place = some object)
    (hne : other = kind → place ≠ key)
    (hfree : ∀ old : Object kind, store.find? kind key = some old →
      object.metadata.isOwnedBy old.metadata.uid = false) :
    after.find? other place = some object := by
  cases h with
  | surveyed _ hsurvey => cases hsurvey
  | failed _ hpurpose => exact absurd rfl (hpurpose kind key)
  | missing => rwa [find?_renewed]
  | @marked _ _ old hstored =>
    by_cases hkind : other = kind
    · subst hkind
      rw [find?_put, Object.key_marked, hkeyed _ _ _ hstored, if_neg (hne rfl), find?_renewed,
        hfound]
    · rw [find?_put_of_ne _ _ hkind, find?_renewed, hfound]
  | @removed _ _ old hstored =>
    have hplace : other = kind → place ≠ old.key := fun hkind =>
      hkeyed _ _ _ hstored ▸ hne hkind
    cases howned : other.isOwned with
    | false => rw [find?_drop_of_ne _ _ howned hplace, find?_renewed, hfound]
    | true =>
      have hspared : object.metadata.isOwnedBy old.metadata.uid = false := hfree old hstored
      rw [find?_drop_of_isOwned _ _ howned]
      by_cases hkind : other = kind
      · subst hkind
        rw [find?_erased, if_neg (hplace rfl), find?_renewed, hfound]
        simp [hspared]
      · rw [find?_erased_of_ne _ _ hkind, find?_renewed, hfound]
        simp [hspared]

/-- An object without finalizers is removed. -/
theorem delete_of_free {stored : Object kind} (hfound : store.find? kind key = some stored)
    (hfree : stored.metadata.finalizers = []) (now : Instant) :
    store.delete now kind key = (.ok (), store.renewed.drop stored) := by
  unfold delete
  dsimp only
  rw [find?_renewed, hfound]
  simp [hfree]

end MemoryStore

/-- A key lies where a grant provisions, under a name made from the identifier of its request. -/
def GrantStatus.Names (status : GrantStatus) (place : Key) : Prop :=
  place = status.scope.key (bindingName status.requestId) ∨
    place = status.scope.key (adhocName status.requestId)

theorem GrantStatus.names_key (status : GrantStatus) (artifact : Artifact) :
    status.Names (artifact.key status) := by
  cases artifact with
  | roleBinding => exact .inl rfl
  | adhocRole | adhocBinding => exact .inr rfl

namespace Grant

open MemoryStore Pass

variable {calm : Calm} {desk after : Desk} {key place : Key} {grant current : Grant}
  {before : MemoryStore} {kind : Kind} {told : List AccessEvent}

/-- **What the end of a grant relies on.** -/
structure InOrder (store : MemoryStore) (key : Key) (grant : Grant) : Prop where
  keyed : store.Keyed
  found : store.find? .grant key = some grant
  /-- The grant waits for nobody but the broker. -/
  bare : ∀ finalizer ∈ grant.metadata.finalizers, finalizer = cleanupFinalizer
  /-- Roles and bindings are owned by grants. -/
  granted {kind : Kind} {place : Key} {object : Object kind} {uid : String} :
    kind.isOwned = true → store.find? kind place = some object →
    object.metadata.isOwnedBy uid = true →
    ∃ (place : Key) (owner : Grant), store.find? .grant place = some owner ∧
      owner.metadata.uid = uid
  /-- No object of another kind has the identifier of a grant. -/
  apart {kind : Kind} {place other : Key} {object : Object kind} {owner : Grant} : kind ≠ .grant →
    store.find? kind place = some object → store.find? .grant other = some owner →
    owner.metadata.uid ≠ object.metadata.uid
  /-- What lies under the names of the grant is its own. -/
  own {kind : Kind} {place : Key} {object : Object kind} : kind.isOwned = true →
    grant.body.Names place → store.find? kind place = some object →
    object.metadata.isOwnedBy grant.metadata.uid = true
  /-- A grant that does not name its request has none. -/
  asked : grant.body.request = "" → store.find? .request grant.body.requestKey = none

/-- How far the end of a grant has come: the grant is still there, what it does not own is as it
was, and everything else has only aged. -/
structure Underway (before : MemoryStore) (told : List AccessEvent) (key : Key)
    (grant current : Grant) (desk : Desk) : Prop where
  holds : desk.Holds key current
  uid : current.metadata.uid = grant.metadata.uid
  body : current.body = grant.body
  live : current.metadata.isDeleting = false
  bare : ∀ finalizer ∈ current.metadata.finalizers, finalizer = cleanupFinalizer
  told : desk.told = told
  aged (kind : Kind) (place : Key) : Aged (before.find? kind place) (desk.store.find? kind place)
  spared {kind : Kind} {place : Key} {object : Object kind} : kind.isOwned = true →
    before.find? kind place = some object → object.metadata.isOwnedBy grant.metadata.uid = false →
    desk.store.find? kind place = some object
  apart {kind : Kind} {place : Key} : kind.isOwned = false →
    (kind = .request → place ≠ grant.body.requestKey) → (kind = .grant → place ≠ key) →
    desk.store.find? kind place = before.find? kind place

/-- At first everything is as it was found. -/
theorem InOrder.underway (h : InOrder desk.store key grant)
    (hlive : grant.metadata.isDeleting = false) :
    Underway desk.store desk.told key grant grant desk where
  holds := ⟨h.keyed, h.found⟩
  uid := rfl
  body := rfl
  live := hlive
  bare := h.bare
  told := rfl
  aged _ _ := .refl _
  spared _ hfound _ := hfound
  apart _ _ _ := rfl

/-- The grant may be given another finalizer or lose it. -/
theorem Underway.put {next : Grant} (h : Underway before told key grant current desk)
    (hnext : next.key = current.key) (huid : next.metadata.uid = current.metadata.uid)
    (howners : next.metadata.owners = current.metadata.owners)
    (hbody : next.body = current.body)
    (hlive : next.metadata.isDeleting = current.metadata.isDeleting)
    (hbare : ∀ finalizer ∈ next.metadata.finalizers, finalizer = cleanupFinalizer) :
    Underway before told key grant next (desk.put next) := by
  have hkey : next.key = key := hnext.trans h.holds.key_eq
  have hself : (desk.put next).store.find? .grant key = some next :=
    hkey ▸ desk.find?_put_self next
  have hothers {kind : Kind} {place : Key} (hne : kind = .grant → place ≠ key) :
      (desk.put next).store.find? kind place = desk.store.find? kind place := by
    rw [Desk.put]
    by_cases hkind : kind = .grant
    · subst hkind
      rw [find?_put, if_neg fun hsame => hne rfl (hsame.trans hkey), find?_renewed]
    · rw [find?_put_of_ne _ _ hkind, find?_renewed]
  exact {
    holds := ⟨h.holds.keyed.renewed.put next, hself⟩
    uid := huid.trans h.uid
    body := hbody.trans h.body
    live := hlive.trans h.live
    bare := hbare
    told := h.told
    aged := fun kind place => by
      by_cases hsame : kind = .grant ∧ place = key
      · obtain ⟨rfl, rfl⟩ := hsame
        refine (h.aged .grant place).trans fun new hnew => ?_
        obtain rfl := Option.some.inj (hself.symm.trans hnew)
        exact ⟨current, h.holds.found, huid, howners⟩
      · rw [hothers fun hkind hplace => hsame ⟨hkind, hplace⟩]
        exact h.aged kind place
    spared := fun {kind place object} howned hfound hfree => by
      rw [hothers fun hkind => by subst hkind; cases howned]
      exact h.spared howned hfound hfree
    apart := fun howned hrequest hgrant => (hothers hgrant).trans (h.apart howned hrequest hgrant) }

/-- **A deletion on the way** spares what is not the grant's. -/
theorem Underway.deleted (h : Underway before told key grant current desk)
    (horder : InOrder before key grant) (now : Instant) {other : Kind} {target : Key}
    (htarget : other.isOwned = true ∧ grant.body.Names target ∨
      other = .request ∧ target = grant.body.requestKey) :
    Underway before told key grant current (desk.deleted now other target) := by
  have hdeleted := desk.performed_deleted now other target
  have hkeyed := h.holds.keyed
  have hgrant : Kind.grant ≠ other := by
    rintro rfl
    rcases htarget with ⟨howned, -⟩ | ⟨heq, -⟩ <;> contradiction
  exact {
    holds := h.holds.deleted rfl (fun heq => absurd heq hgrant) now
    uid := h.uid
    body := h.body
    live := h.live
    bare := h.bare
    told := h.told
    aged := fun kind place => (h.aged kind place).trans (hdeleted.aged_of_delete hkeyed kind place)
    spared := fun {kind place object} howned hfound hfree => by
      refine hdeleted.spared_of_delete hkeyed (h.spared howned hfound hfree) ?_ ?_
      · rintro rfl rfl
        rcases htarget with ⟨-, hnames⟩ | ⟨rfl, -⟩
        · have hown := horder.own howned hnames hfound
          rw [hfree] at hown
          cases hown
        · cases howned
      · -- Whoever owns something is a grant, and no grant is deleted on the way.
        intro old hold
        obtain ⟨first, hfirst, huid, -⟩ := h.aged other target old hold
        refine Bool.eq_false_iff.2 fun hold => ?_
        obtain ⟨place, owner, howner, hsame⟩ := horder.granted howned hfound hold
        exact horder.apart hgrant.symm hfirst howner (hsame.trans huid)
    apart := fun {kind place} howned hrequest hplace => by
      rw [hdeleted.find?_of_delete hkeyed howned, h.apart howned hrequest hplace]
      rintro rfl
      rcases htarget with ⟨howned', -⟩ | ⟨rfl, rfl⟩
      · exact absurd (howned.symm.trans howned') nofun
      · exact hrequest rfl }

/-- There is no request of the grant that is not being deleted. -/
def Asked (grant : Grant) (desk : Desk) : Prop :=
  ∀ request, desk.store.find? .request grant.body.requestKey = some request →
    request.metadata.isDeleting = true

/-- **Cleaning up** deletes the request, and spares what is not the grant's. -/
theorem Underway.ends_cleanup (h : Underway before told key grant current desk)
    (horder : InOrder before key grant) :
    current.cleanup.Ends calm desk fun result after =>
      result = .ok () ∧ Underway before told key grant current after ∧ grant.Asked after := by
  have hdeletion {call : StoreCall} (hcall : call ∈ current.removals) :
      ∃ (kind : Kind) (target : Key), call = .delete kind target ∧
        (kind.isOwned = true ∧ grant.body.Names target ∨
          kind = .request ∧ target = grant.body.requestKey) := by
    rcases deletion_of_mem_removals hcall with ⟨artifact, rfl⟩ | rfl
    · exact ⟨_, _, rfl, .inl ⟨artifact.isOwned_kind, h.body ▸ current.body.names_key artifact⟩⟩
    · exact ⟨_, _, rfl, .inr ⟨rfl, by rw [h.body]⟩⟩
  by_cases hrequest : grant.body.request = ""
  · -- There is no request, and so none comes to be there.
    have hkept : (askEach current.removals).Ends calm desk fun result after =>
        result = .ok () ∧ Underway before told key grant current after := by
      refine ends_askEach (fun call hcall => ?_) h
      obtain ⟨kind, target, rfl, htarget⟩ := hdeletion hcall
      exact ⟨kind, target, rfl, fun desk hdesk => hdesk.deleted horder calm.now htarget⟩
    refine hkept.mono ?_
    rintro _ after ⟨rfl, hafter⟩
    refine ⟨rfl, hafter, fun request hfound => ?_⟩
    obtain ⟨first, hfirst, -⟩ := hafter.aged .request _ request hfound
    exact absurd ((horder.asked hrequest).symm.trans hfirst) nofun
  · have hmem : StoreCall.delete .request grant.body.requestKey ∈ current.removals :=
      h.body ▸ current.request_mem_removals (h.body ▸ hrequest)
    refine ends_askEach_of_mem (fun call hcall => ?_) hmem (fun desk hdesk request hleft => ?_) h
    · obtain ⟨kind, target, rfl, htarget⟩ := hdeletion hcall
      refine ⟨kind, target, rfl, fun desk hdesk =>
        ⟨hdesk.deleted horder calm.now htarget, fun hasked request hleft => ?_⟩⟩
      have hdeleted := desk.performed_deleted calm.now kind target
      have hkeyed := hdesk.holds.keyed
      rcases htarget with ⟨howned, -⟩ | ⟨rfl, rfl⟩
      · rw [hdeleted.find?_of_delete hkeyed rfl (by rintro rfl; cases howned)] at hleft
        exact hasked request hleft
      · exact hdeleted.isDeleting_of_delete hkeyed hleft
    · have hdeleted := desk.performed_deleted calm.now .request grant.body.requestKey
      exact hdeleted.isDeleting_of_delete hdesk.holds.keyed hleft

/-- Apart from what the grant owns, nothing of the roles and bindings has changed. -/
theorem Underway.filter_eq (h : Underway before told key grant current desk)
    (hkind : kind.isOwned = true) (place : Key) :
    ((desk.store.find? kind place).filter fun object =>
        !object.metadata.isOwnedBy grant.metadata.uid) =
      (before.find? kind place).filter fun object =>
        !object.metadata.isOwnedBy grant.metadata.uid := by
  have haged := h.aged kind place
  cases hfirst : before.find? kind place with
  | none =>
    cases hlast : desk.store.find? kind place with
    | none => rfl
    | some new =>
      obtain ⟨old, hold, -⟩ := haged new hlast
      exact absurd (hfirst.symm.trans hold) nofun
  | some old =>
    cases howned : old.metadata.isOwnedBy grant.metadata.uid with
    | false => rw [h.spared hkind hfirst howned]
    | true =>
      rw [Option.filter_some_neg (by simp [howned])]
      refine Option.filter_eq_none_iff.2 fun new hnew => ?_
      obtain ⟨first, hsame, -, howners⟩ := haged new hnew
      obtain rfl := Option.some.inj (hfirst.symm.trans hsame)
      simp [isOwnedBy_congr howners, howned]

/-- What is left of a grant whose access has ended: nothing of its own, and everything else as it
was; and the listeners were told of it. -/
structure Revoked (before after : Desk) (key : Key) (grant : Grant) : Prop where
  gone : after.store.find? .grant key = none
  /-- No role or binding of the grant is left, and the others stay. -/
  owned {kind : Kind} : kind.isOwned = true → ∀ place, after.store.find? kind place =
    (before.store.find? kind place).filter fun object =>
      !object.metadata.isOwnedBy grant.metadata.uid
  /-- Nothing is left under the names of the grant. -/
  named {kind : Kind} {place : Key} : kind.isOwned = true → grant.body.Names place →
    after.store.find? kind place = none
  /-- The request is gone, or is being deleted. -/
  asked : grant.Asked after
  /-- Everything else stays. -/
  apart {kind : Kind} {place : Key} : kind.isOwned = false →
    (kind = .request → place ≠ grant.body.requestKey) → (kind = .grant → place ≠ key) →
    after.store.find? kind place = before.store.find? kind place
  told : after.told = before.told ++
    [grant.event grant.body .grantExpired s!"granted for '{grant.body.duration}'"]

/-- **The last step**: the grant goes, and what is left of its own goes with it. -/
theorem Underway.revoked (h : Underway desk.store desk.told key grant current after)
    (horder : InOrder desk.store key grant) (hasked : grant.Asked after)
    (hfree : current.metadata.finalizers = []) (now : Instant) :
    Revoked desk { after.deleted now .grant key with
      told := after.told ++
        [grant.event grant.body .grantExpired s!"granted for '{grant.body.duration}'"] }
      key grant := by
  have hdeleted := after.performed_deleted now .grant key
  have hkeyed := h.holds.keyed
  have hdropped : (after.deleted now .grant key).store = after.store.renewed.drop current :=
    congrArg Prod.snd (delete_of_free h.holds.found hfree now)
  have howned {kind : Kind} (hkind : kind.isOwned = true) (place : Key) :
      (after.deleted now .grant key).store.find? kind place =
        (desk.store.find? kind place).filter fun object =>
          !object.metadata.isOwnedBy grant.metadata.uid := by
    have hne : kind ≠ .grant := by
      rintro rfl
      cases hkind
    rw [hdropped, find?_drop_of_isOwned _ _ hkind, find?_erased_of_ne _ _ hne, find?_renewed, h.uid]
    exact h.filter_eq hkind place
  exact {
    gone := by
      have hgone := find?_drop_self after.store.renewed current
      rwa [h.holds.key_eq, ← hdropped] at hgone
    owned := howned
    named := fun {kind place} hkind hnames => by
      refine (howned hkind place).trans ?_
      refine Option.filter_eq_none_iff.2 fun object hobject => ?_
      simp [horder.own hkind hnames hobject]
    asked := fun request hleft => by
      have hne : Kind.request = .grant → grant.body.requestKey ≠ key := nofun
      exact hasked request ((hdeleted.find?_of_delete hkeyed rfl hne).symm.trans hleft)
    apart := fun {kind place} hkind hrequest hgrant =>
      (hdeleted.find?_of_delete hkeyed hkind hgrant).trans (h.apart hkind hrequest hgrant)
    told := by rw [h.told] }

/-- **Letting go of a grant that is not being deleted** frees it, but leaves it stored. -/
theorem Underway.ends_release (h : Underway before told key grant current desk) :
    current.release.Ends calm desk fun result after => ∃ released : Grant,
      result = .ok (some released) ∧ released.metadata.finalizers = [] ∧
        Underway before told key grant released after ∧ (grant.Asked desk → grant.Asked after) := by
  obtain ⟨released, hreleased⟩ : ∃ released : Grant, released =
      current.withLinksOf current.withoutFinalizer (desk.store.version + 1) := ⟨_, rfl⟩
  have hfree : released.metadata.finalizers = [] :=
    hreleased ▸ current.finalizers_withoutFinalizer h.bare
  have hunspent : released.isSpent = false := by
    rw [Object.isSpent, hreleased, Object.isDeleting_withLinksOf, h.live, Bool.false_and]
  have hstored : desk.store.find? .grant current.withoutFinalizer.key = some current :=
    (congrArg _ h.holds.key_eq).trans h.holds.found
  obtain ⟨hreply, hafter⟩ := updateMetadata_of_find? hstored rfl
  rw [← hreleased] at hreply hafter
  refine ends_tolerate (ends_ask rfl (Prod.ext hreply (hafter hunspent)) ?_)
  refine ⟨released, rfl, hfree, ?_, fun hasked request hleft => hasked request ?_⟩
  · refine h.put ?_ ?_ ?_ ?_ ?_ fun finalizer hfinalizer => ?_
    iterate 5 rw [hreleased]; rfl
    rw [hfree] at hfinalizer
    cases hfinalizer
  · have hne : Kind.request ≠ .grant := by decide
    exact ((find?_put_of_ne _ _ hne).trans (find?_renewed _)).symm.trans hleft

/-- A grant that carries the finalizer is revoked. -/
theorem Underway.ends_expire (h : Underway desk.store desk.told key grant current after)
    (horder : InOrder desk.store key grant) (hheld : current.isHeld = true) :
    current.expire.Ends calm after fun result last =>
      result = .ok .done ∧ Revoked desk last key grant := by
  refine ends_bind ((h.ends_cleanup horder).mono ?_)
  rintro _ cleaned ⟨rfl, hcleaned, hasked⟩
  have hheld : current.metadata.hasFinalizer cleanupFinalizer = true := hheld
  change Pass.Ends calm (if _ then _ else _) cleaned _
  rw [if_pos hheld]
  refine ends_bind (hcleaned.ends_release.mono ?_)
  rintro _ freed ⟨released, rfl, hfree, hfreed, hkept⟩
  change Pass.Ends calm ((ask (.delete .grant current.key)).toleratingMissing >>= _) freed _
  rw [hcleaned.holds.key_eq]
  refine ends_bind (ends_delete fun _ => ?_)
  have hevent : current.event released.body .grantExpired
      s!"granted for '{released.body.duration}'" =
        grant.event grant.body .grantExpired s!"granted for '{grant.body.duration}'" := by
    rw [hfreed.body, event, event, hcleaned.holds.key_eq, horder.keyed _ _ _ horder.found]
  refine ⟨rfl, ?_⟩
  have hrevoked := hfreed.revoked horder (hkept hasked) hfree calm.now
  rw [← hevent] at hrevoked
  exact hrevoked

/-- Securing the grant changes nothing but its finalizers. -/
theorem InOrder.ends_secure (h : InOrder desk.store key grant)
    (hlive : grant.metadata.isDeleting = false) :
    grant.ensureFinalizer.Ends calm desk fun result after => ∃ current : Grant,
      result = .ok current ∧ current.isHeld = true ∧
        Underway desk.store desk.told key grant current after := by
  have hunderway := h.underway hlive
  unfold ensureFinalizer
  split
  · next hheld => exact ⟨grant, rfl, hheld, hunderway⟩
  · have hfound : desk.store.find? .grant grant.key = some grant :=
      h.keyed _ _ _ h.found ▸ h.found
    refine ends_hold hfound ⟨_, rfl, grant.isHeld_withFinalizer, ?_⟩
    refine hunderway.put rfl rfl ?_ rfl rfl fun finalizer hfinalizer => ?_
    · unfold Object.withLinksOf Object.withFinalizer Metadata.addFinalizer
      split <;> rfl
    · exact (Object.mem_finalizers_withFinalizer hfinalizer).elim (h.bare finalizer) id

/-- **A pass that finds the end of access passed revokes the grant**, and tells of it. -/
theorem ends_advance_of_isOver (horder : InOrder desk.store key grant)
    (hlive : grant.metadata.isDeleting = false) (hpopulated : grant.body.isPopulated = true)
    (hover : grant.isOver calm.now = true) :
    (grant.advance key).Ends calm desk fun result after =>
      result = .ok .done ∧ Revoked desk after key grant := by
  refine ends_bind ((horder.ends_secure hlive).mono ?_)
  rintro _ secured ⟨current, rfl, hheld, hunderway⟩
  have hpopulated : current.body.isPopulated = true := by rwa [hunderway.body]
  have hover : current.isOver calm.now = true := by rwa [isOver, hunderway.body]
  change Pass.Ends calm (if !current.body.isPopulated then _ else _) secured _
  rw [hpopulated]
  refine ends_bind (ends_clock ?_)
  change Pass.Ends calm (if current.isOver calm.now then _ else _) secured _
  rw [if_pos hover]
  exact hunderway.ends_expire horder hheld

/-- The same of a whole pass. -/
theorem ends_reconcile_of_isOver (horder : InOrder desk.store key grant)
    (hlive : grant.metadata.isDeleting = false) (hpopulated : grant.body.isPopulated = true)
    (hover : grant.isOver calm.now = true) :
    (reconcile key).Ends calm desk fun result after =>
      result = .ok .done ∧ Revoked desk after key grant := by
  rw [reconcile_eq_look]
  refine ends_look (fun hgone => ?_) (fun second hfound hdeleting => ?_) fun second hfound _ => ?_
  · exact absurd (horder.found.symm.trans hgone) nofun
  · obtain rfl := Option.some.inj (horder.found.symm.trans hfound)
    exact absurd (hlive.symm.trans hdeleting) nofun
  · obtain rfl := Option.some.inj (horder.found.symm.trans hfound)
    exact ends_advance_of_isOver horder hlive hpopulated hover

end Grant

end AccessBroker
