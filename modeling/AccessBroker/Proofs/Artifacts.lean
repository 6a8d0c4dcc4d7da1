import AccessBroker.Proofs.Cluster.Turns

/-!
# Roles and bindings belong to grants

Every stored role and binding is owned by a stored grant that has been filled in, and says
exactly what that grant entitles to
(`AccessBroker.Cluster.Reachable.provisioned`). Three things have to work together for this.
What a grant owns goes with it, so a role or binding can be left behind only if it is created
after its grant has gone. It is created by a pass that has secured the grant; and from then
on until the pass lets go of it, the finalizer keeps the grant stored
(`AccessBroker.Cluster.Reachable.tended`), because only a pass on the same grant takes the
finalizer off, and passes on one grant do not overlap. The terms of a grant do not change
once it has been filled in.
-/

namespace AccessBroker

open Cluster

variable {kind : Kind} {key : Key}

namespace Grant

/-! ### What a grant owns -/

/-- A role is the one for the rules of a grant, and goes with it. -/
structure OwnsRole (grant : Grant) (role : Role) : Prop where
  owners : role.metadata.owners = [grant.ownerReference]
  wanted : grant.body.permissions ≠ []
  key : role.key = grant.body.scope.key (adhocName grant.body.requestId)
  rules : role.body.rules = grant.body.permissions

/-- A binding is one of the two of a grant, and goes with it: it binds the subject to the role
that was asked for, or to the role for the rules. -/
structure OwnsBinding (grant : Grant) (binding : Binding) : Prop where
  owners : binding.metadata.owners = [grant.ownerReference]
  subjects : binding.body.subjects = [Subject.ofIdentity grant.body.subject]
  role : (∃ role, grant.body.role = some role ∧
      binding.key = grant.body.scope.key (bindingName grant.body.requestId) ∧
      binding.body.roleRef = role.normalized) ∨
    grant.body.permissions ≠ [] ∧
      binding.key = grant.body.scope.key (adhocName grant.body.requestId) ∧
      binding.body.roleRef =
        .qualified (.ofScope grant.body.scope) (adhocName grant.body.requestId)

/-- An object is what a grant calls for, as far as the content, the owners and the key go. -/
def Owns (grant : Grant) (object : Object kind) : Prop :=
  ∃ (artifact : Artifact) (created : Object kind), artifact.isWanted grant.body = true ∧
    grant.creation artifact = .ok (some (.create kind created)) ∧
    object.key = created.key ∧ object.metadata.owners = created.metadata.owners ∧
    object.body = created.body

variable {grant : Grant}

theorem Owns.owners {object : Object kind} (h : grant.Owns object) :
    object.metadata.owners = [grant.ownerReference] := by
  obtain ⟨artifact, created, -, hcreation, -, howners, -⟩ := h
  rw [howners]
  unfold creation at hcreation
  split at hcreation
  · split at hcreation
    · cases hcreation
    · split at hcreation
      · cases hcreation
      · cases hcreation
        rfl
  · cases hcreation
    rfl
  · cases hcreation
    rfl

theorem Owns.isOwnedBy {object : Object kind} (h : grant.Owns object) :
    object.metadata.isOwnedBy grant.metadata.uid = true := by
  rw [Metadata.isOwnedBy, h.owners]
  simp [ownerReference]

theorem Owns.ownsRole {role : Role} (h : grant.Owns role) : grant.OwnsRole role := by
  have howners := h.owners
  obtain ⟨artifact, created, hwanted, hcreation, hkey, -, hbody⟩ := h
  cases artifact with
  | roleBinding =>
    simp only [creation] at hcreation
    split at hcreation
    · cases hcreation
    · split at hcreation <;> cases hcreation
  | adhocBinding => cases hcreation
  | adhocRole =>
    cases hcreation
    exact ⟨howners, by simpa [Artifact.isWanted] using hwanted, hkey, by rw [hbody]⟩

theorem Owns.ownsBinding {binding : Binding} (h : grant.Owns binding) :
    grant.OwnsBinding binding := by
  have howners := h.owners
  obtain ⟨artifact, created, hwanted, hcreation, hkey, -, hbody⟩ := h
  cases artifact with
  | roleBinding =>
    simp only [creation] at hcreation
    split at hcreation
    · cases hcreation
    · next role hrole =>
      split at hcreation
      · cases hcreation
      · cases hcreation
        exact ⟨howners, by rw [hbody]; rfl, .inl ⟨role, hrole, hkey, by rw [hbody]; rfl⟩⟩
  | adhocBinding =>
    cases hcreation
    refine ⟨howners, by rw [hbody]; rfl, .inr ⟨?_, hkey, by rw [hbody]; rfl⟩⟩
    simpa [Artifact.isWanted] using hwanted
  | adhocRole => cases hcreation

/-- What a grant owns depends on its key, its identifier and its terms alone. -/
theorem Owns.congr {other : Grant} {object : Object kind} (h : grant.Owns object)
    (hkey : other.key = grant.key) (huid : other.metadata.uid = grant.metadata.uid)
    (hterms : other.body.terms = grant.body.terms) : other.Owns object := by
  obtain ⟨artifact, created, hwanted, hcreation, hobject⟩ := h
  refine ⟨artifact, created, ?_, ?_, hobject⟩
  · rw [← artifact.isWanted_terms, hterms, artifact.isWanted_terms, hwanted]
  · have hscope := GrantStatus.eq_of_terms GrantStatus.scope hterms fun _ => rfl
    have hid := GrantStatus.eq_of_terms GrantStatus.requestId hterms fun _ => rfl
    have hsubject := GrantStatus.eq_of_terms GrantStatus.subject hterms fun _ => rfl
    have hrole := GrantStatus.eq_of_terms GrantStatus.role hterms fun _ => rfl
    have hrules := GrantStatus.eq_of_terms GrantStatus.permissions hterms fun _ => rfl
    have howner : other.ownerReference = grant.ownerReference := by
      rw [ownerReference, ownerReference, huid]
      exact congrArg (OwnerReference.mk .grant · _) (congrArg Key.name hkey)
    cases artifact with
    | roleBinding =>
      simp only [creation, binding, artifactMetadata, Artifact.key, hrole, hscope, hid, hsubject,
        howner] at hcreation ⊢
      split at hcreation
      · cases hcreation
      · split at hcreation
        · cases hcreation
        · next hbindable => rw [if_neg hbindable, hcreation]
    | adhocRole | adhocBinding =>
      simpa only [creation, binding, artifactMetadata, Artifact.key, hrules, hscope, hid, hsubject,
        howner] using hcreation

end Grant

namespace Cluster

variable {rules : Rules} {cluster next : Cluster}

/-! ### A grant stays while a pass works on it -/

/-- A pass that tends a grant tended it before, or has just been given it. -/
theorem tended_earlier {past : Deeds} {effect : Effect} {reply : passInterface.Reply effect}
    {start grant : Grant} (hallowed : Grant.Conduct key past effect)
    (hlive : grant.metadata.isDeleting = false)
    (h : Grant.Tended key start grant (⟨effect, reply⟩ :: past)) :
    Grant.Tended key start grant past ∨ Deed.Gives ⟨effect, reply⟩ grant := by
  obtain ⟨hsecured, hpopulated, hunreleased⟩ := h
  have hunreleased := (without_cons.1 hunreleased).2
  have htarget : (Target.grant key).conduct past effect := hallowed
  cases hsecured with
  | held hfound hlive hheld =>
    rcases hfound.earlier htarget with ⟨-, heq⟩ | hearlier
    · rw [heq]
      exact .inr .found
    · exact .inl ⟨.held hearlier hlive hheld, hpopulated, hunreleased⟩
  | given hfound hstart hgiven =>
    rcases List.mem_cons.1 hgiven with heq | hgiven
    · rw [← heq]
      exact .inr (.linked (by simp [Object.isSpent, hlive]))
    · rcases hfound.earlier htarget with ⟨rfl, -⟩ | hearlier
      · cases hgiven
      · exact .inl ⟨.given hearlier hstart hgiven, hpopulated, hunreleased⟩

/-- A grant is stored, and it is still the one that a pass has secured. -/
def Keeps (cluster : Cluster) (key : Key) (grant : Grant) : Prop :=
  ∃ stored : Grant, cluster.store.find? .grant key = some stored ∧
    stored.metadata.uid = grant.metadata.uid ∧ stored.body.terms = grant.body.terms ∧
    stored.isHeld = true

/-- **While a pass works on a grant, the grant stays stored**, under the same terms. -/
theorem Reachable.tended (h : Reachable rules cluster) (hrules : rules.overlap = false)
    {place : Nat} {journal : Journal} {start grant : Grant}
    (hjournal : cluster.journals[place]? = some journal) (hover : journal.isOver = false)
    (htarget : journal.target = .grant key)
    (htended : Grant.Tended key start grant journal.deeds) : cluster.Keeps key grant := by
  induction h generalizing place journal start grant with
  | start => cases hjournal
  | @step cluster next move hbefore hmoved ih =>
    have hreachable := hbefore.step move hmoved
    have hmoved := moved_of_move hmoved
    -- What was kept before the move is kept after it.
    have hkeeps {before : Journal} (hcurrent : cluster.journals[place]? = some before)
        (hunder : before.isOver = false) (hsame : before.target = .grant key)
        (hearlier : Grant.Tended key start grant before.deeds) : next.Keeps key grant := by
      obtain ⟨old, hold, huid, hterms, hheld⟩ := ih hcurrent hunder hsame hearlier
      have hturn := hbefore.grantTurn hmoved key
      have hpopulated : old.body.isPopulated = true :=
        (GrantStatus.isPopulated_of_terms hterms).trans hearlier.populated
      rcases hturn.held hold hheld with
        ⟨new, hnew, hheld⟩ | ⟨other, past, call, reply, hacts, hcall⟩
      · rcases hturn.populated hold hpopulated with hgone | ⟨new', hnew', huid', hterms'⟩
        · rw [hgone] at hnew
          cases hnew
        · obtain rfl := Option.some.inj (hnew'.symm.trans hnew)
          exact ⟨_, hnew, huid'.trans huid, hterms'.trans hterms, hheld⟩
      · -- The finalizer can only have been taken off by this very pass.
        obtain ⟨rest, hactor, hafter⟩ := hacts
        obtain rfl := hbefore.exclusive hrules _ _ _ _ hactor hcurrent hsame.symm rfl hunder
        obtain rfl := Option.some.inj (hafter.symm.trans hjournal)
        have hkept := htended.unreleased _ List.mem_cons_self
        rw [hcall] at hkept
        cases hkept
    cases hmoved.fate hjournal with
    | kept hcurrent => exact hkeeps hcurrent hover htarget htended
    | started => cases htended.secured.found
    | @advanced target past effect rest reply hcurrent hserved =>
      change target = .grant key at htarget
      subst htarget
      have hallowed := (hbefore.orderly _ _ hcurrent).allowed
      have hfaithful : Faithful key start grant := hreachable.faithful hjournal htended.secured
      rcases tended_earlier hallowed hfaithful.live htended with hearlier | hgives
      · exact hkeeps hcurrent rfl rfl hearlier
      · have hstored := hserved.stores_of_gives hbefore.sound.keyed hgives
        rw [hfaithful.key] at hstored
        exact ⟨grant, hstored, rfl, rfl, hfaithful.held⟩

/-! ### What is stored is owned -/

/-- A role or binding is owned by a stored grant that has been filled in. -/
def Owned (cluster : Cluster) (object : Object kind) : Prop :=
  ∃ (place : Key) (grant : Grant), cluster.store.find? .grant place = some grant ∧
    grant.body.isPopulated = true ∧ grant.Owns object

/-- What is still stored after a move is still owned, because it would have gone with its
owner. -/
theorem Owned.kept {object stored : Object kind} (h : cluster.Owned object)
    (hreachable : Reachable rules cluster) (hmoved : Moved rules cluster next)
    (hkind : kind.isOwned = true) (hstored : next.store.find? kind key = some stored)
    (hplace : stored.key = object.key) (howners : stored.metadata.owners = object.metadata.owners)
    (hbody : stored.body = object.body) : next.Owned stored := by
  obtain ⟨place, grant, hgrant, hpopulated, howns⟩ := h
  have howns : grant.Owns stored := by
    obtain ⟨artifact, created, hwanted, hcreation, hkey, howners', hbody'⟩ := howns
    exact ⟨artifact, created, hwanted, hcreation, hplace.trans hkey, howners.trans howners',
      hbody.trans hbody'⟩
  rcases (hreachable.grantTurn hmoved place).populated hgrant hpopulated with
    hgone | ⟨new, hnew, huid, hterms⟩
  · rcases hmoved.calls with ⟨hstore, -⟩ | ⟨id, call, reply, hcalls⟩
    · rw [hstore, hgrant] at hgone
      cases hgone
    · have hspared := hcalls.performed.not_isOwnedBy_of_gone hreachable.sound.keyed rfl hkind
        hgrant hgone hstored
      rw [howns.isOwnedBy] at hspared
      cases hspared
  · have hkey : new.key = grant.key :=
      ((hreachable.sound.moved hmoved).keyed _ _ _ hnew).trans
        (hreachable.sound.keyed _ _ _ hgrant).symm
    exact ⟨place, new, hnew, (GrantStatus.isPopulated_of_terms hterms).trans hpopulated,
      howns.congr hkey huid hterms⟩

/-- **Every stored role and binding is owned by a stored grant.** -/
theorem Reachable.owned (h : Reachable rules cluster) (hrules : rules.overlap = false)
    (hkind : kind.isOwned = true) {object : Object kind}
    (hstored : cluster.store.find? kind key = some object) : cluster.Owned object := by
  induction h generalizing key object with
  | start =>
    rw [find?_start] at hstored
    cases hstored
  | @step cluster next move hbefore hmoved ih =>
    have hmoved := moved_of_move hmoved
    cases hbefore.artifactTurn hmoved hkind key with
    | kept hsame =>
      exact (ih (hsame.symm.trans hstored)).kept hbefore hmoved hkind hstored rfl rfl rfl
    | marked hfound hmarked =>
      obtain rfl := Option.some.inj (hmarked.symm.trans hstored)
      exact (ih hfound).kept hbefore hmoved hkind hstored (Object.key_marked _ _ _)
        (Object.owners_marked _ _ _) (Object.body_marked _ _ _)
    | gone hgone =>
      rw [hgone] at hstored
      cases hstored
    | @provided place other past start grant artifact created now uid version hacts htended hwanted
        hcreation hnew hgrants =>
      obtain rfl := Option.some.inj (hnew.symm.trans hstored)
      obtain ⟨rest, hcurrent, -⟩ := hacts
      obtain ⟨kept, hkept, huid, hterms, -⟩ := hbefore.tended hrules hcurrent rfl rfl htended
      have hfaithful : Faithful other start grant := hbefore.faithful hcurrent htended.secured
      have hkey : kept.key = grant.key :=
        (hbefore.sound.keyed _ _ _ hkept).trans hfaithful.key.symm
      have howns : grant.Owns (created.pristine.born now uid version) :=
        ⟨artifact, created, hwanted, hcreation, rfl, rfl, Object.body_pristine hkind created⟩
      exact ⟨other, kept, hgrants.trans hkept,
        (GrantStatus.isPopulated_of_terms hterms).trans htended.populated,
        howns.congr hkey huid hterms⟩

/-- **Roles and bindings belong to grants**: in every state that can come about while passes
on one target do not overlap, every stored role and every stored binding has one owner, which is
a grant that is stored and filled in; it lies where that grant says, under the name made from the
identifier of the request, and says exactly what the grant entitles to. -/
theorem Reachable.provisioned (h : Reachable rules cluster) (hrules : rules.overlap = false) :
    (∀ (key : Key) (role : Role), cluster.store.find? .role key = some role →
      ∃ (place : Key) (grant : Grant), cluster.store.find? .grant place = some grant ∧
        grant.body.isPopulated = true ∧ grant.OwnsRole role) ∧
    ∀ (key : Key) (binding : Binding), cluster.store.find? .binding key = some binding →
      ∃ (place : Key) (grant : Grant), cluster.store.find? .grant place = some grant ∧
        grant.body.isPopulated = true ∧ grant.OwnsBinding binding := by
  constructor
  · intro key role hrole
    obtain ⟨place, grant, hgrant, hpopulated, howns⟩ := h.owned hrules rfl hrole
    exact ⟨place, grant, hgrant, hpopulated, howns.ownsRole⟩
  · intro key binding hbinding
    obtain ⟨place, grant, hgrant, hpopulated, howns⟩ := h.owned hrules rfl hbinding
    exact ⟨place, grant, hgrant, hpopulated, howns.ownsBinding⟩

/-- After the request of alice has been approved and both passes have run, both the role and a
binding are there. -/
theorem provisioned_alice : ∃ (cluster : Cluster) (role : Role) (binding : Binding),
    Reachable .queued cluster ∧
    cluster.store.find? .role ⟨some "team", "jit-access-adhoc-0-2"⟩ = some role ∧
    cluster.store.find? .binding ⟨some "team", "jit-access-0-2"⟩ = some binding ∧
    (∃ (place : Key) (grant : Grant), cluster.store.find? .grant place = some grant ∧
      grant.body.isPopulated = true ∧ grant.OwnsRole role) ∧
    ∃ (place : Key) (grant : Grant), cluster.store.find? .grant place = some grant ∧
      grant.body.isPopulated = true ∧ grant.OwnsBinding binding := by
  obtain ⟨cluster, hreachable, hrole, hbinding⟩ := exists_reachable
    (P := fun cluster =>
      (cluster.store.find? .role ⟨some "team", "jit-access-adhoc-0-2"⟩).isSome = true ∧
        (cluster.store.find? .binding ⟨some "team", "jit-access-0-2"⟩).isSome = true)
    .queued (Scenario.approved ++ .start (.request Scenario.place) :: Scenario.answers 0 11 ++
      .start (.grant Scenario.place) :: Scenario.answers 1 9) (by decide +kernel)
  obtain ⟨role, hrole⟩ := Option.isSome_iff_exists.1 hrole
  obtain ⟨binding, hbinding⟩ := Option.isSome_iff_exists.1 hbinding
  have hprovisioned := Reachable.provisioned hreachable rfl
  exact ⟨cluster, role, binding, hreachable, hrole, hbinding, hprovisioned.1 _ role hrole,
    hprovisioned.2 _ binding hbinding⟩

end Cluster

end AccessBroker
