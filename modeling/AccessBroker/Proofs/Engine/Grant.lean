import AccessBroker.Engine.Grant
import AccessBroker.Proofs.Engine.Deeds
import AccessBroker.Proofs.Store.LookUps

/-!
# The conduct of a pass on a grant

What a pass on a grant may do, in view of what it has done
(`AccessBroker.Grant.Conduct`): it provisions and records only for a grant that it has
secured and not let go of, it never changes the terms of a grant, and it lets go of a
grant only after everything that is to go with it is settled.

The main result is that every pass keeps to this, whatever it is answered
(`AccessBroker.Grant.reconcile_obeys`).
-/

namespace AccessBroker

open AccessBroker.Time

/-! ### The terms of a grant -/

namespace GrantStatus

/-- What a status says of the access itself, apart from how far provisioning has come
and when access ends. -/
def terms (status : GrantStatus) : GrantStatus :=
  { status with
    expiresAt := none
    roleBound := false
    adhocRoleCreated := false
    adhocRoleBound := false }

/-- A part of a status that belongs to the terms. -/
theorem eq_of_terms {α : Type} {a b : GrantStatus} (part : GrantStatus → α)
    (h : a.terms = b.terms) (hpart : ∀ status, part status.terms = part status) :
    part a = part b := by
  rw [← hpart a, h, hpart b]

theorem isPopulated_of_terms {a b : GrantStatus} (h : a.terms = b.terms) :
    a.isPopulated = b.isPopulated :=
  eq_of_terms isPopulated h fun _ => rfl

end GrantStatus

namespace Artifact

/-- Artifacts are of the kinds that grants own. -/
theorem isOwned_kind (artifact : Artifact) : artifact.kind.isOwned = true := by
  cases artifact <;> rfl

theorem isWanted_terms (artifact : Artifact) (status : GrantStatus) :
    artifact.isWanted status.terms = artifact.isWanted status := by
  cases artifact <;> rfl

@[simp]
theorem terms_recorded (artifact : Artifact) (status : GrantStatus) :
    (artifact.recorded status).terms = status.terms := by
  cases artifact <;> rfl

/-- Recording an artifact leaves the record of the others. -/
theorem isRecorded_recorded {artifact other : Artifact} {status : GrantStatus} :
    artifact.isRecorded (other.recorded status) = true ↔
      artifact.isRecorded status = true ∨ artifact = other := by
  cases artifact <;> cases other <;> simp [isRecorded, recorded]

theorem bindingName_ne_adhocName (id : String) : bindingName id ≠ adhocName id := by
  intro heq
  have hlength := congrArg String.length heq
  have hshort : "jit-access-".length = 11 := by decide
  have hlong : "jit-access-adhoc-".length = 17 := by decide
  simp only [bindingName, adhocName, String.length_append, hshort, hlong] at hlength
  omega

/-- **The artifacts of a grant lie apart.** -/
theorem eq_of_key {status : GrantStatus} {first second : Artifact}
    (hkind : first.kind = second.kind) (hkey : first.key status = second.key status) :
    first = second := by
  have hname : bindingName status.requestId ≠ adhocName status.requestId :=
    bindingName_ne_adhocName status.requestId
  cases first <;> cases second <;>
    first
    | rfl
    | exact absurd (congrArg Key.name hkey) hname
    | exact absurd (congrArg Key.name hkey).symm hname
    | cases hkind

end Artifact

/-- Does a call let go of a grant? -/
def Effect.releases : Effect → Bool
  | .store (.updateMetadata .grant grant) => !grant.isHeld
  | .store (.delete .grant _) => true
  | _ => false

/-- Does a call remove a grant? -/
def Effect.discards : Effect → Bool
  | .store (.delete .grant _) => true
  | _ => false

/-- Whoever does not let go of a grant does not remove it. -/
theorem Effect.discards_of_releases {effect : Effect} (h : effect.releases = false) :
    effect.discards = false := by
  unfold discards
  split
  · cases h
  · rfl

namespace Grant

variable {key : Key} {past deeds : Deeds} {start grant : Grant} {status : GrantStatus}

/-- The pass works on a grant: it secured it, or found it being deleted. -/
def Based (key : Key) (grant : Grant) (deeds : Deeds) : Prop :=
  (∃ start, Secured key deeds start grant) ∨
    Found key deeds grant ∧ grant.metadata.isDeleting = true

/-- Everything that is to go with a grant is settled. -/
def Cleaned (grant : Grant) (deeds : Deeds) : Prop :=
  ∀ call ∈ grant.removals, Settled call deeds

/-- The pass has secured a grant that is filled in, and has not let go of it. -/
structure Tended (key : Key) (start grant : Grant) (past : Deeds) : Prop where
  secured : Secured key past start grant
  populated : grant.body.isPopulated = true
  unreleased : Without Effect.releases past

/-- The pass has taken the finalizer off a grant that is filled in, and has not removed it. -/
structure Freed (key : Key) (start grant : Grant) (past : Deeds) : Prop where
  secured : Secured key past start grant
  populated : grant.body.isPopulated = true
  released : grant.isHeld = true → ∃ left,
    Deed.ofCall (.updateMetadata .grant grant.withoutFinalizer) (.ok left) ∈ past
  undiscarded : Without Effect.discards past

theorem Based.mono (h : Based key grant past) (hsuffix : past <:+ deeds) : Based key grant deeds :=
  h.imp (fun ⟨start, hsecured⟩ => ⟨start, hsecured.mono hsuffix⟩)
    fun ⟨hfound, hdeleting⟩ => ⟨hfound.mono hsuffix, hdeleting⟩

theorem Tended.based (h : Tended key start grant past) : Based key grant past :=
  .inl ⟨start, h.secured⟩

theorem Tended.cons (h : Tended key start grant past) (deed : Deed passInterface)
    (hdeed : deed.call.releases = false) : Tended key start grant (deed :: past) where
  secured := h.secured.cons _
  populated := h.populated
  unreleased := h.unreleased.cons hdeed

/-! ### The rule of conduct -/

/-- What a pass on a grant may do next. -/
inductive Conduct (key : Key) (past : Deeds) : Effect → Prop
  /-- It looks at the grant, before anything else. -/
  | look (first : past = []) : Conduct key past (.store (.find .grant key))
  /-- It looks at the clock. -/
  | clock : Conduct key past .clock
  /-- It tells of an event. -/
  | tell (event : AccessEvent) : Conduct key past (.tell event)
  /-- It gives the grant the finalizer. -/
  | secure {start : Grant} (first : past = [.ofCall (.find .grant key) (.ok (some start))])
    (live : start.metadata.isDeleting = false) (bare : start.isHeld = false) :
    Conduct key past (.store (.updateMetadata .grant start.withFinalizer))
  /-- It creates something that the grant calls for. -/
  | provide {start grant : Grant} {artifact : Artifact} {kind : Kind} {object : Object kind}
    (tended : Tended key start grant past) (wanted : artifact.isWanted grant.body = true)
    (creation : grant.creation artifact = .ok (some (.create kind object))) :
    Conduct key past (.store (.create kind object))
  /-- It records how far it has come. -/
  | record {start grant : Grant} {status : GrantStatus} (tended : Tended key start grant past)
    (terms : status.terms = grant.body.terms) :
    Conduct key past (.store (.patchStatus .grant grant status))
  /-- It removes something that is to go with the grant. -/
  | remove {grant : Grant} {kind : Kind} {place : Key} (based : Based key grant past)
    (removal : .delete kind place ∈ grant.removals) : Conduct key past (.store (.delete kind place))
  /-- It takes the finalizer off, when everything is settled. -/
  | release {grant : Grant} (based : Based key grant past) (cleaned : Cleaned grant past) :
    Conduct key past (.store (.updateMetadata .grant grant.withoutFinalizer))
  /-- It removes a grant that it has taken the finalizer off, once. -/
  | discard {start grant : Grant} (freed : Freed key start grant past)
    (cleaned : Cleaned grant past) : Conduct key past (.store (.delete .grant grant.key))

/-- Where the finalizer is taken off, everything is settled. -/
theorem Conduct.of_withoutFinalizer
    (h : Conduct key past (.store (.updateMetadata .grant grant.withoutFinalizer))) :
    ∃ based : Grant, Based key based past ∧ Cleaned based past ∧
      based.withoutFinalizer = grant.withoutFinalizer := by
  generalize hobject : grant.withoutFinalizer = object at h
  cases h with
  | @secure start =>
    have hheld := congrArg Object.isHeld hobject
    rw [Object.isHeld_withoutFinalizer, Object.isHeld_withFinalizer] at hheld
    cases hheld
  | @release based hbased hcleaned => exact ⟨based, hbased, hcleaned, rfl⟩

/-! ### Every pass keeps to it -/

/-- An artifact is created as an object of its kind under its key. -/
theorem exists_of_creation {artifact : Artifact} {call : StoreCall}
    (h : grant.creation artifact = .ok (some call)) :
    ∃ object : Object artifact.kind, call = .create artifact.kind object ∧
      object.key = artifact.key grant.body := by
  cases artifact with
  | roleBinding =>
    unfold creation at h
    dsimp only at h
    split at h
    · cases h
    · split at h <;> cases h
      exact ⟨_, rfl, rfl⟩
  | adhocRole | adhocBinding =>
    cases h
    exact ⟨_, rfl, rfl⟩

/-- What a grant calls for is created: roles and bindings, nothing else. -/
theorem create_of_creation {artifact : Artifact} {call : StoreCall}
    (h : grant.creation artifact = .ok (some call)) :
    ∃ (kind : Kind) (object : Object kind), kind.isOwned = true ∧ call = .create kind object := by
  obtain ⟨object, rfl, -⟩ := exists_of_creation h
  exact ⟨_, object, artifact.isOwned_kind, rfl⟩

/-- Different artifacts are created by different calls. -/
theorem creation_injective {first second : Artifact} {call : StoreCall}
    (h : grant.creation first = .ok (some call)) (h' : grant.creation second = .ok (some call)) :
    first = second := by
  obtain ⟨object, rfl, hkey⟩ := exists_of_creation h
  obtain ⟨object', heq, hkey'⟩ := exists_of_creation h'
  have hplace : object.key = object'.key := Option.some.inj (congrArg StoreCall.key? heq)
  exact Artifact.eq_of_key (StoreCall.create.inj heq).1 (hkey.symm.trans (hplace.trans hkey'))

/-- What is to go with a grant: what it provisioned, and its request. -/
theorem deletion_of_mem_removals {call : StoreCall} (h : call ∈ grant.removals) :
    (∃ artifact : Artifact, call = .delete artifact.kind (artifact.key grant.body)) ∨
      call = .delete .request grant.body.requestKey := by
  rcases List.mem_append.1 h with h | h
  · obtain ⟨artifact, -, rfl⟩ := List.mem_map.1 h
    exact .inl ⟨artifact, rfl⟩
  · split at h
    · cases h
    · exact .inr (List.mem_singleton.1 h)

/-- What is to go with a grant, by its kind: roles and bindings, and the request. -/
theorem mem_removals {call : StoreCall} (h : call ∈ grant.removals) :
    (∃ (kind : Kind) (place : Key), kind.isOwned = true ∧ call = .delete kind place) ∨
      call = .delete .request grant.body.requestKey :=
  (deletion_of_mem_removals h).imp_left fun ⟨artifact, heq⟩ => ⟨_, _, artifact.isOwned_kind, heq⟩

/-- The request is to go with a grant that names it. -/
theorem request_mem_removals (h : grant.body.request ≠ "") :
    .delete .request grant.body.requestKey ∈ grant.removals := by
  refine List.mem_append_right _ ?_
  rw [if_neg (mt String.isEmpty_iff.1 h)]
  exact List.mem_singleton_self _

open Pass

theorem cleanup_obeys (h : Based key grant past) :
    grant.cleanup.Obeys (Conduct key)
      (OnSuccess fun later _ => Pass.Made grant.removals past later ∧ Cleaned grant later)
      past := by
  refine obeys_askEach fun call hcall later hsuffix => ?_
  rcases mem_removals hcall with ⟨kind, place, -, rfl⟩ | rfl
  · exact .remove (h.mono hsuffix) hcall
  · exact .remove (h.mono hsuffix) hcall

theorem finalize_obeys (h : Based key grant past) :
    grant.finalize.Obeys (Conduct key) (OnSuccess fun _ _ => True) past := by
  unfold finalize
  split
  · refine (cleanup_obeys h).bind_onSuccess ?_
    rintro later _ ⟨⟨hsuffix, -⟩, hcleaned⟩
    exact obeys_tolerate (.release (h.mono hsuffix) hcleaned) fun _ _ _ => obeys_pure trivial
  · exact obeys_pure trivial

/-- Cleaning up removes no grant. -/
theorem Tended.without_discards {later : Deeds} (h : Tended key start grant past)
    (hmade : Made grant.removals past later) : Without Effect.discards later := by
  intro deed hdeed
  rcases hmade.2 deed hdeed with hearlier | ⟨call, hcall, heq⟩
  · exact Effect.discards_of_releases (h.unreleased deed hearlier)
  · rw [heq]
    rcases mem_removals hcall with ⟨kind, place, howned, rfl⟩ | rfl
    · cases kind <;> first | rfl | cases howned
    · rfl

theorem expire_obeys (h : Tended key start grant past) :
    grant.expire.Obeys (Conduct key) (OnSuccess fun _ _ => True) past := by
  unfold expire
  refine (cleanup_obeys h.based).bind_onSuccess ?_
  rintro later _ ⟨hmade, hcleaned⟩
  have hsuffix := hmade.1
  have hundiscarded := h.without_discards hmade
  -- What follows once the finalizer is off.
  have hrest {released : Grant} {latest : Deeds} (hlater : later <:+ latest)
      (hfreed : Freed key start grant latest) :
      Pass.Obeys (Conduct key) (OnSuccess fun _ _ => True) (do
        let _ ← (Pass.ask (.delete .grant grant.key)).toleratingMissing
        Pass.tell (grant.event released.body .grantExpired
          s!"granted for '{released.body.duration}'")
        return Outcome.done) latest := by
    refine obeys_tolerate (.discard hfreed fun call hcall => ?_)
      fun _ _ _ => ⟨.tell _, fun _ => trivial⟩
    exact (hcleaned call hcall).mono hlater
  split
  · refine obeys_tolerate (.release (h.based.mono hsuffix) hcleaned)
      fun reply released hreleased => ?_
    cases released with
    | none => exact obeys_pure trivial
    | some released =>
      refine hrest (List.suffix_cons _ _) ⟨(h.secured.mono hsuffix).cons _, h.populated,
        fun _ => ⟨released, ?_⟩, hundiscarded.cons rfl⟩
      rw [Failure.eq_ok_of_tolerated hreleased]
      exact List.mem_cons_self
  · next hbare =>
    exact hrest (List.suffix_refl _) ⟨h.secured.mono hsuffix, h.populated,
      fun hheld => absurd hheld hbare, hundiscarded⟩

/-- **Provisioning**: whatever has been created, the terms of the grant are the same. -/
theorem provisionEach_obeys (artifacts : List Artifact) (h : Tended key start grant past)
    (hterms : status.terms = grant.body.terms) :
    (grant.provisionEach artifacts status).Obeys (Conduct key) (fun later result =>
      Tended key start grant later ∧ result.1.terms = grant.body.terms) past := by
  induction artifacts generalizing past status with
  | nil => exact ⟨h, hterms⟩
  | cons artifact rest ih =>
    unfold provisionEach
    split
    · exact ih h hterms
    · next hwanted =>
      split
      · exact ⟨h, hterms⟩
      · exact ih h hterms
      · next call hcreation =>
        have hwanted : artifact.isWanted grant.body = true := by
          rw [← artifact.isWanted_terms, ← hterms, artifact.isWanted_terms]
          simp only [Bool.or_eq_true, Bool.not_eq_true', not_or] at hwanted
          exact Bool.not_eq_false _ ▸ hwanted.1
        obtain ⟨kind, object, hkind, rfl⟩ := create_of_creation hcreation
        have hask : (Pass.ask (.create kind object)).Obeys (Conduct key)
            (fun later _ => Tended key start grant later) past :=
          obeys_ask (.provide h hwanted hcreation) fun _ => h.cons _ rfl
        refine Program.obeys_bind (Obeys.mono hask fun later reply hlater => ?_)
        split
        · exact ⟨hlater, hterms⟩
        · exact ih hlater ((artifact.terms_recorded status).trans hterms)

theorem persist_obeys (h : Tended key start grant past)
    (hterms : status.terms = grant.body.terms) :
    (grant.persist status).Obeys (Conduct key) (OnSuccess fun _ _ => True) past := by
  have htell (stored : GrantStatus) (later : Deeds) :
      (tellEach (grant.provisionings stored) >>= fun _ => pure stored).Obeys (Conduct key)
        (OnSuccess fun _ _ => True) later :=
    (obeys_tellEach fun _ => .tell).bind_onSuccess fun _ _ _ => obeys_pure trivial
  unfold persist
  split
  · exact htell status past
  · refine ⟨.record h hterms, fun reply => ?_⟩
    cases reply with
    | ok updated => exact htell updated.body _
    | error failure => exact trivial

theorem ensureFinalizer_obeys (hfirst : past = [.ofCall (.find .grant key) (.ok (some start))])
    (hlive : start.metadata.isDeleting = false) :
    start.ensureFinalizer.Obeys (Conduct key) (OnSuccess fun later grant =>
      Secured key later start grant ∧ Without Effect.releases later) past := by
  have hfound : Found key past start := hfirst ▸ List.mem_cons_self
  have hunreleased : Without Effect.releases past := hfirst ▸ (without_nil _).cons rfl
  refine obeys_secure hfound hlive (.secure hfirst hlive) ?_ ?_ fun _ _ => trivial
  · exact fun hsecured => ⟨hsecured, hunreleased⟩
  · exact fun grant hsecured => ⟨hsecured, hunreleased.cons (by simp [Effect.releases])⟩

theorem advance_obeys (hfirst : past = [.ofCall (.find .grant key) (.ok (some start))])
    (hlive : start.metadata.isDeleting = false) :
    (start.advance key).Obeys (Conduct key) (OnSuccess fun _ _ => True) past := by
  unfold advance
  refine (ensureFinalizer_obeys hfirst hlive).bind_onSuccess ?_
  rintro past grant ⟨hsecured, hunreleased⟩
  split
  · exact obeys_pure trivial
  · next hpopulated =>
    have htended : Tended key start grant past :=
      ⟨hsecured, by simpa using hpopulated, hunreleased⟩
    refine ⟨.clock, fun now => ?_⟩
    have htended := htended.cons ⟨.clock, now⟩ rfl
    change Pass.Obeys _ _ (ite _ _ _) _
    split
    · exact expire_obeys htended
    · refine obeys_bind (obeys_lift ((provisionEach_obeys _ htended rfl).mono ?_))
      rintro later ⟨status, provisioned⟩ ⟨hlater, hterms⟩
      refine obeys_bind (obeys_result ?_)
      cases accessEnd key now status with
      | error failure => exact trivial
      | ok time =>
        have hended : { status with expiresAt := some time }.terms = grant.body.terms := hterms
        refine (persist_obeys hlater hended).bind_onSuccess fun latest _ _ => ?_
        exact obeys_bind (obeys_result (by cases provisioned <;> trivial))

/-- **Every pass on a grant keeps to the rule of conduct**, whatever it is answered. -/
theorem reconcile_obeys (key : Key) :
    (reconcile key).Obeys (Conduct key) (OnSuccess fun _ _ => True) [] := by
  refine ⟨.look rfl, fun reply => ?_⟩
  match reply with
  | .error failure => exact trivial
  | .ok none => exact trivial
  | .ok (some start) =>
    change Pass.Obeys _ _
      (if start.metadata.isDeleting then finalize start else advance start key) _
    split
    · next hdeleting => exact finalize_obeys (.inr ⟨List.mem_cons_self, hdeleting⟩)
    · next hlive =>
      exact advance_obeys rfl (Bool.eq_false_iff.2 hlive)

end Grant

end AccessBroker
