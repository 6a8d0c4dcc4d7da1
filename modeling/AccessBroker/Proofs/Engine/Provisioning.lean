import AccessBroker.Proofs.Engine.GrantOutcome
import AccessBroker.Proofs.Engine.Telling
import Mathlib.Data.List.Forall2

/-!
# How far provisioning comes

A pass provides what a grant calls for and does not record yet (`AccessBroker.Grant.missing`), one
artifact after the other, and stops where one cannot be provided. What it has created then are the
first so many of the missing artifacts, and what it writes is the grant with just these recorded
(`AccessBroker.Grant.Checkpoint`); the failure, if there was one, is what the pass ends with
(`AccessBroker.Grant.Concludes`).

Two things make that hold over many passes. The rule of conduct `AccessBroker.Grant.Staged` says
when something may be created, and what may be written, of the calls that are made so far and of
the grant that the pass has secured: nothing depends on what other passes do. And whatever is
written goes on from that grant (`AccessBroker.GrantStatus.Advances`).
-/

namespace AccessBroker

open AccessBroker.Time

/-! ### How a status goes on -/

namespace GrantStatus

variable {old new status : GrantStatus}

/-- One status goes on from another one: the access is the same, nothing that is recorded is
forgotten, and the end of access is fixed once. -/
structure Advances (old new : GrantStatus) : Prop where
  terms : new.terms = old.terms
  recorded : old.RecordsAll new
  ends : ∀ time, old.expiresAt = some time → new.expiresAt = some time

theorem Advances.refl (status : GrantStatus) : status.Advances status :=
  ⟨rfl, .refl status, fun _ => id⟩

theorem Advances.trans {between : GrantStatus} (h : old.Advances between)
    (h' : between.Advances new) : old.Advances new :=
  ⟨h'.terms.trans h.terms,
    fun artifact hartifact => h'.recorded artifact (h.recorded artifact hartifact),
    fun time htime => h'.ends time (h.ends time htime)⟩

/-- Where something is recorded, the end of access is fixed. -/
def IsDated (status : GrantStatus) : Prop :=
  ∀ artifact : Artifact, artifact.isRecorded status = true → ∃ time, status.expiresAt = some time

/-- The status with some artifacts recorded. -/
def recordedAll (status : GrantStatus) (artifacts : List Artifact) : GrantStatus :=
  artifacts.foldl (fun status artifact => artifact.recorded status) status

theorem recordedAll_concat (status : GrantStatus) (artifacts : List Artifact)
    (artifact : Artifact) :
    status.recordedAll (artifacts ++ [artifact]) =
      artifact.recorded (status.recordedAll artifacts) :=
  List.foldl_append ..

theorem isRecorded_recordedAll {artifact : Artifact} {artifacts : List Artifact} :
    artifact.isRecorded (status.recordedAll artifacts) = true ↔
      artifact.isRecorded status = true ∨ artifact ∈ artifacts := by
  induction artifacts generalizing status with
  | nil => simp [recordedAll]
  | cons first rest ih =>
    refine ih.trans ?_
    rw [Artifact.isRecorded_recorded, List.mem_cons, or_assoc]

@[simp]
theorem terms_recordedAll (status : GrantStatus) (artifacts : List Artifact) :
    (status.recordedAll artifacts).terms = status.terms := by
  induction artifacts generalizing status with
  | nil => rfl
  | cons first rest ih => exact (ih _).trans (first.terms_recorded status)

@[simp]
theorem expiresAt_recordedAll (status : GrantStatus) (artifacts : List Artifact) :
    (status.recordedAll artifacts).expiresAt = status.expiresAt := by
  induction artifacts generalizing status with
  | nil => rfl
  | cons first rest ih =>
    refine (ih _).trans ?_
    cases first <;> rfl

end GrantStatus

/-! ### Creations -/

theorem Failure.of_toleratingTaken_error {α : Type} {result : Except Failure α} {failure : Failure}
    (h : Failure.toleratingTaken result = .error failure) :
    result = .error failure ∧ failure.isAlreadyExists = false := by
  unfold Failure.toleratingTaken at h
  split at h
  · cases h
  · split at h
    · cases h
    · next hother =>
      cases h
      exact ⟨rfl, Bool.eq_false_iff.2 hother⟩

theorem Failure.isAlreadyExists_of_taken {α : Type} {result : Except Failure α} {created : Bool}
    {failure : Failure} (h : Failure.toleratingTaken result = .ok created)
    (hfailure : result = .error failure) : failure.isAlreadyExists = true := by
  subst hfailure
  unfold Failure.toleratingTaken at h
  dsimp only at h
  split at h
  · assumption
  · cases h

/-- Is a deed one that creates an object, or tries to? -/
def Deed.isCreation : Deed passInterface → Bool
  | ⟨.store (.create _ _), _⟩ => true
  | _ => false

/-- Does a call neither look at the clock, nor create anything, nor write a status? -/
def Effect.isAside : Effect → Bool
  | .clock | .store (.create _ _) | .store (.patchStatus _ _ _) => false
  | _ => true

/-- The rule of conduct that admits nothing else. -/
abbrev Aside : Conduct :=
  fun _ effect => effect.isAside = true

/-- The creations of a pass, in the order in which they were made. -/
def creations (deeds : Deeds) : Deeds :=
  (deeds.filter Deed.isCreation).reverse

theorem mem_creations {deed : Deed passInterface} {deeds : Deeds} :
    deed ∈ creations deeds ↔ deed ∈ deeds ∧ deed.isCreation = true := by
  rw [creations, List.mem_reverse, List.mem_filter]

theorem creations_cons {deed : Deed passInterface} (past : Deeds) (h : deed.isCreation = true) :
    creations (deed :: past) = creations past ++ [deed] := by
  rw [creations, List.filter_cons_of_pos h, List.reverse_cons, creations]

theorem creations_cons_of_not {deed : Deed passInterface} (past : Deeds)
    (h : deed.isCreation = false) : creations (deed :: past) = creations past := by
  rw [creations, List.filter_cons_of_neg (by simp [h]), creations]

/-- Nothing has been done since but what is aside. -/
def Idle (past later : Deeds) : Prop :=
  ∃ between, later = between ++ past ∧
    ∀ deed ∈ between, Effect.isAside (Deed.call deed) = true

theorem isCreation_of_isAside {deed : Deed passInterface}
    (h : Effect.isAside (Deed.call deed) = true) : deed.isCreation = false := by
  unfold Deed.isCreation
  split
  · cases h
  · rfl

theorem Idle.refl (past : Deeds) : Idle past past :=
  ⟨[], rfl, List.forall_mem_nil _⟩

theorem Idle.creations_eq {past later : Deeds} (h : Idle past later) :
    creations later = creations past := by
  obtain ⟨between, rfl, hbetween⟩ := h
  induction between with
  | nil => rfl
  | cons deed rest ih =>
    obtain ⟨hdeed, hrest⟩ := List.forall_mem_cons.1 hbetween
    rw [List.cons_append, creations_cons_of_not _ (isCreation_of_isAside hdeed), ih hrest]

/-- Nor has the clock been looked at. -/
theorem Idle.without_clock {past later : Deeds} (h : Idle past later)
    (hpast : Without Effect.isClock past) : Without Effect.isClock later := by
  obtain ⟨between, rfl, hbetween⟩ := h
  intro deed hdeed
  rcases List.mem_append.1 hdeed with hlater | hearlier
  · obtain ⟨call, reply⟩ := deed
    have haside := hbetween _ hlater
    cases call with
    | clock => cases haside
    | store | tell | policies | freshId => rfl
  · exact hpast deed hearlier

/-- No status has been written since. -/
theorem Idle.mem_of_patched {past later : Deeds} (h : Idle past later) {kind : Kind}
    {base : Object kind} {status : kind.Status} {reply : Except Failure (Object kind)}
    (hdeed : Deed.ofCall (.patchStatus kind base status) reply ∈ later) :
    Deed.ofCall (.patchStatus kind base status) reply ∈ past := by
  obtain ⟨between, rfl, hbetween⟩ := h
  rcases List.mem_append.1 hdeed with hlater | hearlier
  · exact absurd (hbetween _ hlater) nofun
  · exact hearlier

namespace Grant

variable {key : Key} {past later deeds : Deeds} {start grant : Grant} {now : Instant}
  {status : GrantStatus} {artifact : Artifact}

/-- Is an artifact called for and not recorded? -/
def lacks (grant : Grant) (artifact : Artifact) : Bool :=
  artifact.isWanted grant.body && !artifact.isRecorded grant.body

/-- The artifacts that a grant calls for and does not record, in the order in which they are
created. -/
def missing (grant : Grant) : List Artifact :=
  Artifact.creationOrder.filter grant.lacks

/-- A deed has provided an artifact: it has created it, or it was there already. -/
def Provides (grant : Grant) (artifact : Artifact) (deed : Deed passInterface) : Prop :=
  ∃ (call : StoreCall) (reply : call.Reply), grant.creation artifact = .ok (some call) ∧
    deed = .ofCall call reply ∧ ∀ failure, reply = .error failure → failure.isAlreadyExists = true

/-- A deed has failed to provide an artifact. -/
def Forgoes (grant : Grant) (artifact : Artifact) (failure : Failure) (deed : Deed passInterface) :
    Prop :=
  ∃ call : StoreCall, grant.creation artifact = .ok (some call) ∧
    deed = .ofCall call (.error failure) ∧ failure.isAlreadyExists = false

/-- It is the turn of an artifact: what is missing before it has been provided, and nothing else
has been created. -/
def Awaits (grant : Grant) (artifact : Artifact) (created : Deeds) : Prop :=
  ∃ reached rest, grant.missing = reached ++ artifact :: rest ∧
    List.Forall₂ grant.Provides reached created

/-- How far a pass has come with what is missing, and why no farther. -/
inductive Reaches (grant : Grant) (created : Deeds) :
    List Artifact → Except Failure Unit → Prop
  /-- Everything has been provided. -/
  | complete (provided : List.Forall₂ grant.Provides grant.missing created) :
    Reaches grant created grant.missing (.ok ())
  /-- The creation of the next artifact has failed. -/
  | refused {reached rest : List Artifact} {artifact : Artifact} {failure : Failure}
    {earlier : Deeds} {deed : Deed passInterface}
    (split : grant.missing = reached ++ artifact :: rest)
    (provided : List.Forall₂ grant.Provides reached earlier)
    (forgone : grant.Forgoes artifact failure deed) (last : created = earlier ++ [deed]) :
    Reaches grant created reached (.error failure)
  /-- The next artifact cannot be asked for. -/
  | barred {reached rest : List Artifact} {artifact : Artifact} {failure : Failure}
    (split : grant.missing = reached ++ artifact :: rest)
    (provided : List.Forall₂ grant.Provides reached created)
    (barred : grant.creation artifact = .error failure) :
    Reaches grant created reached (.error failure)

/-- What a pass writes that has looked at the clock at some time: the artifacts that it has come to
are recorded, and the end of access is fixed, from that time on if it was not fixed before. -/
structure Checkpoint (grant : Grant) (now : Instant) (created : Deeds) (reached : List Artifact)
    (provisioned : Except Failure Unit) (time : Instant) (status : GrantStatus) : Prop where
  provisions : grant.Reaches created reached provisioned
  fixed : grant.body.expiresAt = some time ∨
    grant.body.expiresAt = none ∧ now.after? (accessSpan grant.body) = some time
  status : status = { grant.body.recordedAll reached with expiresAt := some time }

/-- A pass has secured a grant that is filled in, and looked at the clock. -/
structure Timed (key : Key) (start grant : Grant) (now : Instant) (past : Deeds) : Prop where
  secured : Secured key past start grant
  populated : grant.body.isPopulated = true
  clock : (⟨.clock, now⟩ : Deed passInterface) ∈ past

/-- No status has been written that was taken. -/
def Unrecorded (deeds : Deeds) : Prop :=
  ∀ grant status updated, Deed.ofCall (.patchStatus .grant grant status) (.ok updated) ∉ deeds

/-- What a pass on a grant may create and write next: it looks at the clock once, and before all
that; it creates an artifact when it is its turn; and it writes how far it has come, and creates
nothing any more then. -/
def Staged (key : Key) : AccessBroker.Conduct
  | past, .clock => Without Effect.isClock past
  | past, .store (.create kind object) => ∃ start grant now artifact,
    Timed key start grant now past ∧ grant.Awaits artifact (creations past) ∧
      grant.creation artifact = .ok (some (.create kind object)) ∧ Unrecorded past
  | past, .store (.patchStatus .grant grant status) => ∃ start now reached provisioned time,
    Timed key start grant now past ∧
      Checkpoint grant now (creations past) reached provisioned time status
  | _, _ => True

/-- A pass that has written how far it has come ends with the failure that it met on the way, or
asks for another pass right after the end of access. -/
def Concludes (deeds : Deeds) (result : Except Failure Outcome) : Prop :=
  ∀ grant status updated, Deed.ofCall (.patchStatus .grant grant status) (.ok updated) ∈ deeds →
    ∃ now reached provisioned time,
      Checkpoint grant now (creations deeds) reached provisioned time status ∧
      result = provisioned.map fun _ => .requeueAt (time.after expiryBuffer)

/-! ### What is missing -/

theorem lacks_iff : grant.lacks artifact = true ↔
    artifact.isWanted grant.body = true ∧ artifact.isRecorded grant.body = false := by
  simp [lacks]

theorem lacks_eq (grant : Grant) (artifact : Artifact) : grant.lacks artifact =
    !(!artifact.isWanted grant.body || artifact.isRecorded grant.body) := by
  simp [lacks]

/-- There is something to create for whatever is called for. -/
theorem creation_ne_none (hwanted : artifact.isWanted grant.body = true) :
    grant.creation artifact ≠ .ok none := by
  intro hnone
  unfold creation at hnone
  split at hnone
  · split at hnone
    · next hrole =>
      rw [Artifact.isWanted, hrole] at hwanted
      cases hwanted
    · split at hnone <;> cases hnone
  · cases hnone
  · cases hnone

/-- What a grant is provided with, it is provided with by a creation. -/
theorem Provides.isCreation {deed : Deed passInterface} (h : grant.Provides artifact deed) :
    deed.isCreation = true := by
  obtain ⟨call, reply, hcreation, rfl, -⟩ := h
  obtain ⟨object, rfl, -⟩ := exists_of_creation hcreation
  rfl

theorem Provides.unique {first second : Artifact} {deed : Deed passInterface}
    (h : grant.Provides first deed) (h' : grant.Provides second deed) : first = second := by
  obtain ⟨call, reply, hcreation, rfl, -⟩ := h
  obtain ⟨call', reply', hcreation', heq, -⟩ := h'
  cases heq
  exact creation_injective hcreation hcreation'

theorem Forgoes.not_provides {failure : Failure} {deed : Deed passInterface}
    (h : grant.Forgoes artifact failure deed) (other : Artifact) : ¬grant.Provides other deed := by
  rintro ⟨call, reply, -, heq, htolerated⟩
  obtain ⟨call', -, rfl, hfailure⟩ := h
  cases heq
  exact absurd (htolerated failure rfl) (by simp [hfailure])

theorem mem_iff_of_provided {reached : List Artifact} {created : Deeds}
    (h : List.Forall₂ grant.Provides reached created) :
    artifact ∈ reached ↔ ∃ deed ∈ created, grant.Provides artifact deed := by
  induction h with
  | nil => simp
  | @cons first deed reached created hfirst _ ih =>
    constructor
    · intro hartifact
      rcases List.mem_cons.1 hartifact with rfl | hlater
      · exact ⟨deed, List.mem_cons_self, hfirst⟩
      · obtain ⟨other, hother, hprovides⟩ := ih.1 hlater
        exact ⟨other, List.mem_cons_of_mem _ hother, hprovides⟩
    · rintro ⟨other, hother, hprovides⟩
      rcases List.mem_cons.1 hother with rfl | hlater
      · exact List.mem_cons.2 (.inl (hprovides.unique hfirst))
      · exact List.mem_cons_of_mem _ (ih.2 ⟨other, hlater, hprovides⟩)

/-- **A pass has come to the artifacts that its creations have provided.** -/
theorem Reaches.mem_iff {created : Deeds} {reached : List Artifact}
    {provisioned : Except Failure Unit} (h : grant.Reaches created reached provisioned) :
    artifact ∈ reached ↔ ∃ deed ∈ created, grant.Provides artifact deed := by
  cases h with
  | complete hprovided | barred _ hprovided => exact mem_iff_of_provided hprovided
  | @refused _ _ _ _ earlier last _ hprovided hforgone hlast =>
    rw [mem_iff_of_provided hprovided, hlast]
    refine exists_congr fun deed => ⟨fun ⟨hdeed, hprovides⟩ =>
      ⟨List.mem_append_left _ hdeed, hprovides⟩, fun ⟨hdeed, hprovides⟩ => ⟨?_, hprovides⟩⟩
    rcases List.mem_append.1 hdeed with hearlier | hdeed
    · exact hearlier
    · rw [List.mem_singleton.1 hdeed] at hprovides
      exact absurd hprovides (hforgone.not_provides artifact)

namespace Checkpoint

variable {created : Deeds} {reached : List Artifact} {provisioned : Except Failure Unit}
  {time : Instant}

/-- **What is written goes on from the grant that it is based on.** -/
theorem advances (h : grant.Checkpoint now created reached provisioned time status) :
    GrantStatus.Advances grant.body status := by
  obtain rfl := h.status
  refine ⟨GrantStatus.terms_recordedAll grant.body reached, fun artifact hartifact =>
    GrantStatus.isRecorded_recordedAll.2 (.inl hartifact), fun fixed hfixed => ?_⟩
  rcases h.fixed with htime | ⟨hnone, -⟩
  · exact htime.symm.trans hfixed
  · cases hnone.symm.trans hfixed

theorem expiresAt_eq (h : grant.Checkpoint now created reached provisioned time status) :
    status.expiresAt = some time := by
  obtain rfl := h.status
  rfl

theorem isDated (h : grant.Checkpoint now created reached provisioned time status) :
    status.IsDated := by
  obtain rfl := h.status
  exact fun _ _ => ⟨time, rfl⟩

/-- **What is recorded** was recorded before, or has been provided by the pass. -/
theorem isRecorded_iff (h : grant.Checkpoint now created reached provisioned time status) :
    artifact.isRecorded status = true ↔ artifact.isRecorded grant.body = true ∨
      ∃ deed ∈ created, grant.Provides artifact deed := by
  obtain rfl := h.status
  rw [← h.provisions.mem_iff]
  exact GrantStatus.isRecorded_recordedAll

end Checkpoint

/-! ### Every pass keeps to it -/

open Pass

theorem Timed.mono (h : Timed key start grant now past) (hsuffix : past <:+ later) :
    Timed key start grant now later :=
  ⟨h.secured.mono hsuffix, h.populated, hsuffix.mem h.clock⟩

theorem Timed.cons (h : Timed key start grant now past) (deed : Deed passInterface) :
    Timed key start grant now (deed :: past) :=
  h.mono (List.suffix_cons _ _)

theorem concludes_of_unrecorded {result : Except Failure Outcome} (h : Unrecorded deeds) :
    Concludes deeds result :=
  fun grant status updated hdeed => absurd hdeed (h grant status updated)

theorem Unrecorded.idle (h : Unrecorded past) (hidle : Idle past later) : Unrecorded later :=
  fun grant status updated hdeed => h grant status updated (hidle.mem_of_patched hdeed)

theorem Unrecorded.cons {effect : Effect} {reply : passInterface.Reply effect} (h : Unrecorded past)
    (heffect : effect.patches .grant = false) : Unrecorded (⟨effect, reply⟩ :: past) := by
  intro grant status updated hdeed
  rcases List.mem_cons.1 hdeed with heq | hearlier
  · cases heq
    cases heffect
  · exact h grant status updated hearlier

theorem staged_of_isAside {effect : Effect} (h : effect.isAside = true) :
    Staged key past effect := by
  cases effect with
  | store call =>
    cases call with
    | create | patchStatus => cases h
    | find | savePolicy | updateMetadata | delete | listPolicies | listResponses | listKeys
      | changesSince | compact => trivial
  | clock => cases h
  | tell | policies | freshId => trivial

/-- **What is aside may always be done**, and changes nothing of what provisioning has come to. -/
theorem obeys_of_isAside {α : Type} {program : Steps α} {ends : Deeds → α → Prop}
    (h : program.Obeys Aside ends past) :
    program.Obeys (Staged key) (fun later value => Idle past later ∧ ends later value) past := by
  induction program generalizing past with
  | done value => exact ⟨.refl past, h⟩
  | ask call next ih =>
    refine ⟨staged_of_isAside h.1, fun reply => (ih reply (h.2 reply)).mono ?_⟩
    rintro _ _ ⟨⟨between, rfl, hbetween⟩, hends⟩
    refine ⟨⟨between ++ [⟨call, reply⟩], by simp, fun deed hdeed => ?_⟩, hends⟩
    rcases List.mem_append.1 hdeed with hlater | hdeed
    · exact hbetween deed hlater
    · cases List.mem_singleton.1 hdeed
      exact h.1

theorem cleanup_isAside (grant : Grant) (past : Deeds) :
    grant.cleanup.Obeys Aside (OnSuccess fun _ _ => True) past := by
  refine (obeys_askEach fun call hcall _ _ => ?_).mono fun _ result _ => onSuccess_true result
  rcases mem_removals hcall with ⟨kind, place, -, rfl⟩ | rfl <;> rfl

theorem finalize_isAside (grant : Grant) (past : Deeds) :
    grant.finalize.Obeys Aside (OnSuccess fun _ _ => True) past := by
  unfold finalize
  split
  · refine (cleanup_isAside grant past).bind_onSuccess fun later _ _ => ?_
    exact obeys_tolerate rfl fun _ _ _ => obeys_pure trivial
  · exact obeys_pure trivial

theorem expire_isAside (grant : Grant) (past : Deeds) :
    grant.expire.Obeys Aside (OnSuccess fun _ _ => True) past := by
  unfold expire
  refine (cleanup_isAside grant past).bind_onSuccess fun later _ _ => ?_
  -- What follows once the finalizer is off.
  have hrest (released : Grant) (later : Deeds) :
      Pass.Obeys Aside (OnSuccess fun _ _ => True) (do
        let _ ← (Pass.ask (.delete .grant grant.key)).toleratingMissing
        Pass.tell (grant.event released.body .grantExpired
          s!"granted for '{released.body.duration}'")
        return Outcome.done) later :=
    obeys_tolerate rfl fun _ _ _ => ⟨rfl, fun _ => trivial⟩
  split
  · refine obeys_tolerate rfl fun _ released _ => ?_
    cases released with
    | none => exact obeys_pure trivial
    | some released => exact hrest released _
  · exact hrest grant later

/-- **Provisioning**: each artifact is created when it is its turn, until one cannot be. -/
theorem provisionEach_staged {done artifacts : List Artifact}
    (hsplit : Artifact.creationOrder = done ++ artifacts) (htimed : Timed key start grant now past)
    (hprovided : List.Forall₂ grant.Provides (done.filter grant.lacks) (creations past))
    (hunrecorded : Unrecorded past) :
    (grant.provisionEach artifacts (grant.body.recordedAll (done.filter grant.lacks))).Obeys
      (Staged key) (fun later result => Timed key start grant now later ∧ Unrecorded later ∧
        ∃ reached, result.1 = grant.body.recordedAll reached ∧
          grant.Reaches (creations later) reached result.2) past := by
  induction artifacts generalizing done past with
  | nil =>
    have hdone : done = Artifact.creationOrder := by rw [hsplit, List.append_nil]
    subst hdone
    exact ⟨htimed, hunrecorded, grant.missing, rfl, .complete hprovided⟩
  | cons artifact rest ih =>
    -- The artifact is the next one: it is not among those that the pass has dealt with.
    have hnext : Artifact.creationOrder = done ++ [artifact] ++ rest := by simp [hsplit]
    have hfresh : artifact ∉ done := by
      have hnodup : (done ++ artifact :: rest).Nodup := hsplit ▸ (by decide)
      intro hdone
      exact (List.nodup_append.1 hnodup).2.2 artifact hdone artifact List.mem_cons_self rfl
    have hwanted : artifact.isWanted (grant.body.recordedAll (done.filter grant.lacks)) =
        artifact.isWanted grant.body := by
      rw [← artifact.isWanted_terms, GrantStatus.terms_recordedAll, artifact.isWanted_terms]
    have hrecorded : artifact.isRecorded (grant.body.recordedAll (done.filter grant.lacks)) =
        artifact.isRecorded grant.body := by
      refine Bool.eq_iff_iff.2 (GrantStatus.isRecorded_recordedAll.trans ?_)
      exact or_iff_left fun hdone => hfresh (List.mem_filter.1 hdone).1
    unfold provisionEach
    rw [hwanted, hrecorded]
    split
    · next hskip =>
      have hlacks : grant.lacks artifact = false := by
        rw [lacks_eq, hskip, Bool.not_true]
      have hsame : (done ++ [artifact]).filter grant.lacks = done.filter grant.lacks := by
        simp [List.filter_append, hlacks]
      rw [← hsame] at hprovided ⊢
      exact ih hnext htimed hprovided hunrecorded
    · next hcreate =>
      have hlacks : grant.lacks artifact = true := by
        rw [lacks_eq, Bool.eq_false_iff.2 hcreate, Bool.not_false]
      have hmissing : grant.missing =
          done.filter grant.lacks ++ artifact :: rest.filter grant.lacks := by
        rw [missing, hsplit, List.filter_append, List.filter_cons_of_pos hlacks]
      split
      · next failure hbarred =>
        exact ⟨htimed, hunrecorded, _, rfl, .barred hmissing hprovided hbarred⟩
      · next hnone => exact absurd hnone (creation_ne_none (lacks_iff.1 hlacks).1)
      · next call hcreation =>
        obtain ⟨object, rfl, -⟩ := exists_of_creation hcreation
        have hask : (Pass.ask (.create artifact.kind object)).Obeys (Staged key)
            (fun later reply => later = .ofCall (.create artifact.kind object) reply :: past)
            past :=
          obeys_ask ⟨start, grant, now, artifact, htimed, ⟨_, _, hmissing, hprovided⟩, hcreation,
            hunrecorded⟩ fun _ => rfl
        refine Program.obeys_bind (Obeys.mono hask ?_)
        rintro _ reply rfl
        let deed : Deed passInterface := .ofCall (.create artifact.kind object) reply
        have hcreated : creations (deed :: past) = creations past ++ [deed] :=
          creations_cons past rfl
        have htimed' : Timed key start grant now (deed :: past) := htimed.cons deed
        have hunrecorded' : Unrecorded (deed :: past) := hunrecorded.cons rfl
        split
        · next failure hrefused =>
          obtain ⟨rfl, hother⟩ := Failure.of_toleratingTaken_error hrefused
          exact ⟨htimed', hunrecorded', _, rfl,
            .refused hmissing hprovided ⟨_, hcreation, rfl, hother⟩ hcreated⟩
        · next taken htaken =>
          have hprovides : grant.Provides artifact deed :=
            ⟨_, reply, hcreation, rfl, fun _ => Failure.isAlreadyExists_of_taken htaken⟩
          have hreached : (done ++ [artifact]).filter grant.lacks =
              done.filter grant.lacks ++ [artifact] := by
            rw [List.filter_append, List.filter_cons_of_pos hlacks, List.filter_nil]
          have hprovided' : List.Forall₂ grant.Provides ((done ++ [artifact]).filter grant.lacks)
              (creations (deed :: past)) := by
            rw [hreached, hcreated]
            exact List.rel_append hprovided (.cons hprovides .nil)
          rw [← GrantStatus.recordedAll_concat, ← hreached]
          exact ih hnext htimed' hprovided' hunrecorded'

/-- **Writing the status**: what the pass ends with is settled by then. -/
theorem persist_staged {reached : List Artifact} {provisioned : Except Failure Unit}
    {time : Instant} (htimed : Timed key start grant now past)
    (hcheckpoint : Checkpoint grant now (creations past) reached provisioned time status)
    (hunrecorded : Unrecorded past) :
    (grant.persist status).Obeys (Staged key) (fun later result =>
      creations later = creations past ∧
        ∀ base written updated,
          Deed.ofCall (.patchStatus .grant base written) (.ok updated) ∈ later →
          (∃ stored, result = .ok stored) ∧ base = grant ∧ written = status) past := by
  have htell (stored : GrantStatus) (later : Deeds) :
      (tellEach (grant.provisionings stored) >>= fun _ => pure stored).Obeys (Staged key)
        (fun latest result => Idle later latest ∧ ∃ stored, result = .ok stored) later := by
    refine obeys_of_isAside ((obeys_tellEach_any fun _ _ => rfl).bind ?_ ?_)
    · exact fun _ _ _ => obeys_pure ⟨stored, rfl⟩
    · rintro latest failure ⟨-, hfailure⟩
      cases hfailure
  unfold persist
  split
  · refine (htell status past).mono fun later result h => ⟨h.1.creations_eq, ?_⟩
    exact fun base written updated hdeed => absurd hdeed (hunrecorded.idle h.1 base written updated)
  · refine ⟨⟨start, now, reached, provisioned, time, htimed, hcheckpoint⟩, fun reply => ?_⟩
    have hcreated : creations (.ofCall (.patchStatus .grant grant status) reply :: past) =
        creations past := creations_cons_of_not past rfl
    cases reply with
    | error failure =>
      refine ⟨hcreated, fun base written updated hdeed => ?_⟩
      rcases List.mem_cons.1 hdeed with heq | hearlier
      · cases heq
      · exact absurd hearlier (hunrecorded base written updated)
    | ok updated =>
      refine (htell updated.body _).mono fun later result h => ⟨h.1.creations_eq.trans hcreated, ?_⟩
      intro base written updated' hdeed
      rcases List.mem_cons.1 (h.1.mem_of_patched hdeed) with heq | hearlier
      · cases heq
        exact ⟨h.2, rfl, rfl⟩
      · exact absurd hearlier (hunrecorded base written updated')

/-- How long access lasts belongs to the terms. -/
theorem accessSpan_of_terms {old new : GrantStatus} (h : new.terms = old.terms) :
    accessSpan new = accessSpan old :=
  GrantStatus.eq_of_terms accessSpan h fun _ => rfl

theorem fixed_of_accessEnd {reached : List Artifact} {time : Instant}
    (h : accessEnd key now (grant.body.recordedAll reached) = .ok time) :
    grant.body.expiresAt = some time ∨
      grant.body.expiresAt = none ∧ now.after? (accessSpan grant.body) = some time := by
  have hspan := accessSpan_of_terms (grant.body.terms_recordedAll reached)
  unfold accessEnd at h
  rw [GrantStatus.expiresAt_recordedAll, hspan] at h
  split at h
  · next time' htime =>
    cases h
    exact .inl htime
  · next hnone =>
    split at h
    · next time' hafter =>
      cases h
      exact .inr ⟨hnone, hafter⟩
    · cases h

theorem provide_staged (htimed : Timed key start grant now past)
    (hblank : creations past = []) (hunrecorded : Unrecorded past) :
    Pass.Obeys (Staged key) Concludes (do
      let (status, provisioned) ← ExceptT.lift grant.provision
      let time ← ExceptT.mk (pure (accessEnd key now status))
      let _ ← grant.persist { status with expiresAt := some time }
      ExceptT.mk (pure provisioned)
      return .requeueAt (time.after expiryBuffer)) past := by
  have hprovided : List.Forall₂ grant.Provides ([].filter grant.lacks) (creations past) := by
    rw [hblank]
    exact .nil
  have hsplit : Artifact.creationOrder = [] ++ Artifact.creationOrder := rfl
  have hprovision := provisionEach_staged hsplit htimed hprovided hunrecorded
  refine obeys_bind (obeys_lift (hprovision.mono ?_))
  rintro later ⟨status, provisioned⟩ ⟨htimed, hunrecorded, reached, hstatus, hprovisions⟩
  dsimp only at hstatus hprovisions
  subst hstatus
  refine obeys_bind (obeys_result ?_)
  cases htime : accessEnd key now (grant.body.recordedAll reached) with
  | error failure => exact concludes_of_unrecorded hunrecorded
  | ok time =>
    have hcheckpoint : Checkpoint grant now (creations later) reached provisioned time
        { grant.body.recordedAll reached with expiresAt := some time } :=
      ⟨hprovisions, fixed_of_accessEnd htime, rfl⟩
    refine (persist_staged htimed hcheckpoint hunrecorded).bind ?_ ?_
    · rintro latest stored ⟨hcreated, hwritten⟩
      refine obeys_bind (obeys_result ?_)
      have hresult : Concludes latest
          (provisioned.map fun _ => .requeueAt (time.after expiryBuffer)) := by
        intro base written updated hdeed
        obtain ⟨-, rfl, rfl⟩ := hwritten base written updated hdeed
        exact ⟨now, reached, provisioned, time, hcreated ▸ hcheckpoint, rfl⟩
      cases provisioned with
      | ok _ => exact obeys_pure hresult
      | error failure => exact hresult
    · rintro latest failure ⟨-, hwritten⟩ base written updated hdeed
      obtain ⟨⟨stored, hstored⟩, -⟩ := hwritten base written updated hdeed
      cases hstored

theorem advance_staged (hfirst : past = [.ofCall (.find .grant key) (.ok (some start))])
    (hlive : start.metadata.isDeleting = false) :
    (start.advance key).Obeys (Staged key) Concludes past := by
  have hfound : Found key past start := hfirst ▸ List.mem_cons_self
  have hensure : start.ensureFinalizer.Obeys (Staged key) (fun later result => Idle past later ∧
      OnSuccess (fun later grant => Secured key later start grant) later result) past :=
    obeys_of_isAside (obeys_secure hfound hlive (fun _ => rfl) (fun hsecured => hsecured)
      (fun _ hsecured => hsecured) fun _ _ => trivial)
  have hunrecorded : Unrecorded past := by
    subst hfirst
    exact fun _ _ _ hdeed => by cases List.mem_singleton.1 hdeed
  unfold advance
  refine hensure.bind ?_ fun later failure h => concludes_of_unrecorded (hunrecorded.idle h.1)
  rintro later grant ⟨hidle, hsecured⟩
  have hunrecorded := hunrecorded.idle hidle
  split
  · exact obeys_pure (concludes_of_unrecorded hunrecorded)
  · next hpopulated =>
    have huntimed : Without Effect.isClock later := by
      subst hfirst
      exact hidle.without_clock ((without_nil _).cons rfl)
    refine ⟨huntimed, fun now => ?_⟩
    have hunrecorded : Unrecorded (⟨.clock, now⟩ :: later) := hunrecorded.cons rfl
    change Pass.Obeys _ _ (ite _ _ _) _
    split
    · refine (obeys_of_isAside (expire_isAside grant _)).mono fun latest result h => ?_
      exact concludes_of_unrecorded (hunrecorded.idle h.1)
    · refine provide_staged ⟨hsecured.cons _, by simpa using hpopulated, List.mem_cons_self⟩ ?_
        hunrecorded
      rw [creations_cons_of_not _ rfl, hidle.creations_eq, hfirst]
      rfl

/-- **Every pass on a grant keeps to it**, whatever it is answered. -/
theorem reconcile_staged (key : Key) : (reconcile key).Obeys (Staged key) Concludes [] := by
  refine ⟨trivial, fun reply => ?_⟩
  have hlook (reply : Except Failure (Option Grant)) :
      Unrecorded [.ofCall (.find .grant key) reply] :=
    fun _ _ _ hdeed => by cases List.mem_singleton.1 hdeed
  match reply with
  | .error failure => exact concludes_of_unrecorded (hlook _)
  | .ok none => exact concludes_of_unrecorded (hlook _)
  | .ok (some start) =>
    change Pass.Obeys _ _
      (if start.metadata.isDeleting then finalize start else advance start key) _
    split
    · refine (obeys_of_isAside (finalize_isAside start _)).mono fun latest result h => ?_
      exact concludes_of_unrecorded ((hlook _).idle h.1)
    · next hlive => exact advance_staged rfl (Bool.eq_false_iff.2 hlive)

end Grant

end AccessBroker
