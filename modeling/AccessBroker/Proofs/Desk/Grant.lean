import AccessBroker.Proofs.Desk.Basic
import AccessBroker.Proofs.Engine.Grant
import AccessBroker.Proofs.Engine.Telling
import AccessBroker.Proofs.Time.Order

/-!
# Passes on a grant left to themselves

What a pass on a grant that nobody interferes with comes to. As long as access has not ended, the
pass provides what the grant calls for (`AccessBroker.Grant.provided`): it gets as far as the first
artifact that cannot be created, and since everything before that one is recorded, the next pass
gets exactly as far (`AccessBroker.Grant.provided_provided`). The end of access is fixed by the
first pass that writes it.

So every pass brings its grant to rest (`AccessBroker.Grant.ends_reconcile`): a pass on a grant at
rest leaves everything as it is, and ends as the one before
(`AccessBroker.Grant.AtRest.ends_reconcile`). A grant whose end of access cannot be represented is
never written, but what it calls for has been created, and is found to be there every time
(`AccessBroker.Grant.Stocked`).
-/

namespace AccessBroker

open AccessBroker.Time

namespace Grant

variable {calm : Calm} {desk after : Desk} {key : Key} {grant other : Grant}
  {status : GrantStatus} {artifacts : List Artifact} {store : MemoryStore}

/-! ### What a grant is provided with -/

/-- What `AccessBroker.Grant.provisionEach` comes to: an artifact can be created, or is there
already, if its key is well formed. -/
def provided (grant : Grant) :
    List Artifact → GrantStatus → GrantStatus × Except Failure Unit
  | [], status => (status, .ok ())
  | artifact :: rest, status =>
    if !artifact.isWanted status || artifact.isRecorded status then grant.provided rest status
    else match grant.creation artifact with
      | .error failure => (status, .error failure)
      | .ok none => grant.provided rest status
      | .ok (some _) =>
        match (artifact.key grant.body).validate with
        | .error failure => (status, .error failure)
        | .ok () => grant.provided rest (artifact.recorded status)

/-- What a pass would create lies in the store already. -/
def Stocked (grant : Grant) (store : MemoryStore) : List Artifact → GrantStatus → Prop
  | [], _ => True
  | artifact :: rest, status =>
    if !artifact.isWanted status || artifact.isRecorded status then grant.Stocked store rest status
    else match grant.creation artifact with
      | .error _ => True
      | .ok none => grant.Stocked store rest status
      | .ok (some _) =>
        match (artifact.key grant.body).validate with
        | .error _ => True
        | .ok () => (store.find? artifact.kind (artifact.key grant.body)).isSome = true ∧
          grant.Stocked store rest (artifact.recorded status)

theorem terms_provided (grant : Grant) (artifacts : List Artifact) (status : GrantStatus) :
    (grant.provided artifacts status).1.terms = status.terms := by
  fun_induction provided grant artifacts status with
  | case1 | case3 | case5 => rfl
  | case2 _ _ _ _ ih | case4 _ _ _ _ _ ih => exact ih
  | case6 artifact _ status _ _ _ _ ih => exact ih.trans (artifact.terms_recorded status)

theorem expiresAt_provided (grant : Grant) (artifacts : List Artifact) (status : GrantStatus) :
    (grant.provided artifacts status).1.expiresAt = status.expiresAt := by
  fun_induction provided grant artifacts status with
  | case1 | case3 | case5 => rfl
  | case2 _ _ _ _ ih | case4 _ _ _ _ _ ih => exact ih
  | case6 artifact _ status _ _ _ _ ih =>
    refine ih.trans ?_
    cases artifact <;> rfl

/-- What is recorded stays recorded. -/
theorem isRecorded_provided {artifact : Artifact} (h : artifact.isRecorded status = true) :
    artifact.isRecorded (grant.provided artifacts status).1 = true := by
  fun_induction provided grant artifacts status with
  | case1 | case3 | case5 => exact h
  | case2 _ _ _ _ ih | case4 _ _ _ _ _ ih => exact ih h
  | case6 _ _ _ _ _ _ _ ih => exact ih (Artifact.isRecorded_recorded.2 (.inl h))

/-- **Provisioning gets as far the second time**, and no further. -/
theorem provided_provided (grant : Grant) (artifacts : List Artifact) (status : GrantStatus) :
    grant.provided artifacts (grant.provided artifacts status).1 =
      grant.provided artifacts status := by
  fun_induction provided grant artifacts status with
  | case1 => rfl
  | case2 artifact rest status hskip ih =>
    have hskip : (!artifact.isWanted (grant.provided rest status).1 ||
        artifact.isRecorded (grant.provided rest status).1) = true := by
      rw [← artifact.isWanted_terms, grant.terms_provided, artifact.isWanted_terms]
      rcases Bool.or_eq_true_iff.1 hskip with hunwanted | hrecorded
      · rw [hunwanted, Bool.true_or]
      · rw [isRecorded_provided hrecorded, Bool.or_true]
    rw [provided, if_pos hskip, ih]
  | case3 artifact rest status hskip failure hcreation =>
    rw [provided, if_neg hskip, hcreation]
  | case4 artifact rest status hskip hcreation ih =>
    rw [provided, hcreation]
    split <;> exact ih
  | case5 artifact rest status hskip call hcreation failure hkey =>
    rw [provided, if_neg hskip, hcreation, hkey]
  | case6 artifact rest status hskip call hcreation hkey ih =>
    have hrecorded : artifact.isRecorded
        (grant.provided rest (artifact.recorded status)).1 = true :=
      isRecorded_provided (Artifact.isRecorded_recorded.2 (.inr rfl))
    rw [provided, hrecorded, Bool.or_true, if_pos rfl, ih]

/-- The end of access has no part in provisioning. -/
theorem provided_expiresAt (grant : Grant) (artifacts : List Artifact) (status : GrantStatus)
    (expiresAt : Option Instant) :
    grant.provided artifacts { status with expiresAt } =
      ({ (grant.provided artifacts status).1 with expiresAt },
        (grant.provided artifacts status).2) := by
  induction artifacts generalizing status with
  | nil => rfl
  | cons artifact rest ih =>
    have hwanted : artifact.isWanted { status with expiresAt } = artifact.isWanted status := by
      cases artifact <;> rfl
    have hrecorded : artifact.isRecorded { status with expiresAt } =
        artifact.isRecorded status := by
      cases artifact <;> rfl
    have hcommutes : artifact.recorded { status with expiresAt } =
        { artifact.recorded status with expiresAt } := by
      cases artifact <;> rfl
    rw [provided, provided, hwanted, hrecorded, hcommutes, ih, ih]
    split
    · rfl
    · cases grant.creation artifact with
      | error failure => rfl
      | ok call =>
        cases call with
        | none => rfl
        | some call => cases (artifact.key grant.body).validate <;> rfl

/-- Where provisioning records nothing new, it creates nothing. -/
theorem stocked_of_provided (h : (grant.provided artifacts status).1 = status) :
    grant.Stocked store artifacts status := by
  fun_induction provided grant artifacts status with
  | case1 => trivial
  | case2 artifact rest status hskip ih =>
    rw [Stocked, if_pos hskip]
    exact ih h
  | case3 artifact rest status hskip failure hcreation =>
    rw [Stocked, if_neg hskip, hcreation]
    trivial
  | case4 artifact rest status hskip hcreation ih =>
    rw [Stocked, if_neg hskip, hcreation]
    exact ih h
  | case5 artifact rest status hskip call hcreation failure hkey =>
    rw [Stocked, if_neg hskip, hcreation, hkey]
    trivial
  | case6 artifact rest status hskip call hcreation hkey ih =>
    have hrecorded : artifact.isRecorded status = true := by
      rw [← h]
      exact isRecorded_provided (Artifact.isRecorded_recorded.2 (.inr rfl))
    rw [hrecorded, Bool.or_true] at hskip
    exact absurd rfl hskip

theorem Stocked.keeps (h : grant.Stocked desk.store artifacts status) (hkept : desk.Keeps after) :
    grant.Stocked after.store artifacts status := by
  fun_induction Stocked grant desk.store artifacts status with
  | case1 => trivial
  | case2 artifact rest status hskip ih =>
    rw [Stocked, if_pos hskip]
    exact ih h
  | case3 artifact rest status hskip failure hcreation =>
    rw [Stocked, if_neg hskip, hcreation]
    trivial
  | case4 artifact rest status hskip hcreation ih =>
    rw [Stocked, if_neg hskip, hcreation]
    exact ih h
  | case5 artifact rest status hskip call hcreation failure hkey =>
    rw [Stocked, if_neg hskip, hcreation, hkey]
    trivial
  | case6 artifact rest status hskip call hcreation hkey ih =>
    rw [Stocked, if_neg hskip, hcreation, hkey]
    exact ⟨hkept _ _ h.1, ih h.2⟩

/-! ### What a pass concludes -/

/-- What a pass on a grant whose access has not ended comes to: the status that it leaves, and its
result. -/
def concluded (grant : Grant) (key : Key) (now : Instant) :
    GrantStatus × Except Failure Outcome :=
  let (status, provisioned) := grant.provided Artifact.creationOrder grant.body
  match accessEnd key now status with
  | .error failure => (grant.body, .error failure)
  | .ok time => ({ status with expiresAt := some time },
      provisioned.map fun _ => .requeueAt (time.after expiryBuffer))

/-- Two states of one grant, which say the same of the access itself. -/
structure Resembles (other grant : Grant) : Prop where
  key_eq : other.key = grant.key
  owner : other.ownerReference = grant.ownerReference
  terms : other.body.terms = grant.body.terms

theorem Resembles.artifactKey (h : other.Resembles grant) (artifact : Artifact) :
    artifact.key other.body = artifact.key grant.body := by
  have hscope : other.body.scope = grant.body.scope :=
    GrantStatus.eq_of_terms GrantStatus.scope h.terms fun _ => rfl
  have hid : other.body.requestId = grant.body.requestId :=
    GrantStatus.eq_of_terms GrantStatus.requestId h.terms fun _ => rfl
  cases artifact <;> simp only [Artifact.key, hscope, hid]

/-- **What is created for a grant depends on its terms.** -/
theorem Resembles.creation (h : other.Resembles grant) (artifact : Artifact) :
    other.creation artifact = grant.creation artifact := by
  have hrole : other.body.role = grant.body.role :=
    GrantStatus.eq_of_terms GrantStatus.role h.terms fun _ => rfl
  have hscope : other.body.scope = grant.body.scope :=
    GrantStatus.eq_of_terms GrantStatus.scope h.terms fun _ => rfl
  have hsubject : other.body.subject = grant.body.subject :=
    GrantStatus.eq_of_terms GrantStatus.subject h.terms fun _ => rfl
  have hpermissions : other.body.permissions = grant.body.permissions :=
    GrantStatus.eq_of_terms GrantStatus.permissions h.terms fun _ => rfl
  have hid : other.body.requestId = grant.body.requestId :=
    GrantStatus.eq_of_terms GrantStatus.requestId h.terms fun _ => rfl
  cases artifact <;> simp only [Grant.creation, binding, artifactMetadata, unbindable,
    h.artifactKey, h.key_eq, h.owner, hrole, hscope, hsubject, hpermissions, hid]

theorem Resembles.provided (h : other.Resembles grant) (artifacts : List Artifact)
    (status : GrantStatus) : other.provided artifacts status = grant.provided artifacts status := by
  induction artifacts generalizing status with
  | nil => rfl
  | cons artifact rest ih =>
    simp only [Grant.provided, h.creation, h.artifactKey, ih]

theorem Resembles.stocked (h : other.Resembles grant) (store : MemoryStore)
    (artifacts : List Artifact) (status : GrantStatus) :
    other.Stocked store artifacts status = grant.Stocked store artifacts status := by
  induction artifacts generalizing status with
  | nil => rfl
  | cons artifact rest ih =>
    simp only [Grant.Stocked, h.creation, h.artifactKey, ih]

/-- The two ways in which a pass can conclude: nothing is written, since the end of access cannot be
represented, or the status says when access ends. -/
theorem concluded_cases (grant : Grant) (key : Key) (now : Instant) :
    (∃ failure,
      accessEnd key now (grant.provided Artifact.creationOrder grant.body).1 = .error failure ∧
      grant.concluded key now = (grant.body, .error failure)) ∨
    ∃ time, accessEnd key now (grant.provided Artifact.creationOrder grant.body).1 = .ok time ∧
      grant.concluded key now =
        ({ (grant.provided Artifact.creationOrder grant.body).1 with expiresAt := some time },
          (grant.provided Artifact.creationOrder grant.body).2.map fun _ =>
            .requeueAt (time.after expiryBuffer)) := by
  unfold concluded
  dsimp only
  cases accessEnd key now (grant.provided Artifact.creationOrder grant.body).1 with
  | error failure => exact .inl ⟨failure, rfl, rfl⟩
  | ok time => exact .inr ⟨time, rfl, rfl⟩

variable {now : Instant}

/-- **What a pass concluded is concluded again** from the status that it left. -/
theorem concluded_concluded (h : other.Resembles grant)
    (hbody : other.body = (grant.concluded key now).1) :
    other.concluded key now = grant.concluded key now := by
  rcases grant.concluded_cases key now with ⟨failure, hend, hconcluded⟩ | ⟨time, -, hconcluded⟩
  · have hbody : other.body = grant.body := hbody.trans (congrArg Prod.fst hconcluded)
    rw [hconcluded, concluded, h.provided, hbody]
    dsimp only
    rw [hend]
  · have hbody : other.body =
        { (grant.provided Artifact.creationOrder grant.body).1 with expiresAt := some time } :=
      hbody.trans (congrArg Prod.fst hconcluded)
    rw [hconcluded, concluded, h.provided, hbody, provided_expiresAt, provided_provided]
    rfl

/-- The end of access that a pass fixes has not passed. -/
theorem isOver_concluded (hbody : other.body = (grant.concluded key now).1)
    (hopen : grant.isOver now = false) : other.isOver now = false := by
  rcases grant.concluded_cases key now with ⟨_, -, hconcluded⟩ | ⟨time, hend, hconcluded⟩
  · rw [isOver, hbody, hconcluded]
    exact hopen
  · rw [isOver, hbody, hconcluded]
    unfold accessEnd at hend
    rw [expiresAt_provided] at hend
    cases hfixed : grant.body.expiresAt with
    | some fixed =>
      rw [hfixed] at hend
      cases hend
      rwa [isOver, hfixed] at hopen
    | none =>
      rw [hfixed] at hend
      dsimp only at hend
      split at hend <;> cases hend
      simpa using Instant.not_lt_of_after? ‹_›

/-- After a pass has concluded, what the next one would create is there. -/
theorem stocked_concluded (h : other.Resembles grant)
    (hbody : other.body = (grant.concluded key now).1)
    (hstocked : grant.Stocked store Artifact.creationOrder grant.body) :
    other.Stocked store Artifact.creationOrder other.body := by
  rcases grant.concluded_cases key now with ⟨_, -, hconcluded⟩ | ⟨time, hend, hconcluded⟩
  · have hbody : other.body = grant.body := hbody.trans (congrArg Prod.fst hconcluded)
    rwa [h.stocked, hbody]
  · have hbody : other.body =
        { (grant.provided Artifact.creationOrder grant.body).1 with expiresAt := some time } :=
      hbody.trans (congrArg Prod.fst hconcluded)
    refine stocked_of_provided ?_
    rw [h.provided, hbody, provided_expiresAt, provided_provided]

/-! ### The parts of a pass -/

open Pass

/-- An artifact whose key is malformed is not created. -/
theorem ends_create_of_malformed {artifact : Artifact} {call : StoreCall} {failure : Failure}
    (hcreation : grant.creation artifact = .ok (some call))
    (hkey : (artifact.key grant.body).validate = .error failure) :
    (ask call).Ends calm desk fun reply after =>
      Failure.toleratingTaken reply = .error failure ∧ after = desk.renewed := by
  obtain ⟨object, rfl, hobject⟩ := exists_of_creation hcreation
  rw [← hobject] at hkey
  refine ends_create (fun other hother => ?_) (fun _ hother => ?_) fun _ _ hother => ?_
  · obtain rfl := Except.error.inj (hkey.symm.trans hother)
    rw [Failure.toleratingTaken, Key.isAlreadyExists_of_validate hkey]
    exact ⟨rfl, rfl⟩
  · exact absurd (hkey.symm.trans hother) nofun
  · exact absurd (hkey.symm.trans hother) nofun

/-- An artifact whose key is well formed lies in the store afterwards: it was there already, or is
created. -/
theorem ends_create_of_wellFormed {artifact : Artifact} {call : StoreCall}
    (hcreation : grant.creation artifact = .ok (some call))
    (hkey : (artifact.key grant.body).validate = .ok ()) :
    (ask call).Ends calm desk fun reply after =>
      (∃ isNew, Failure.toleratingTaken reply = .ok isNew) ∧
        ((desk.store.find? artifact.kind (artifact.key grant.body)).isSome = true ∧
            after = desk.renewed ∨
          desk.store.find? artifact.kind (artifact.key grant.body) = none ∧
            ∃ (created : Object artifact.kind) (drawn : Nat),
              created.key = artifact.key grant.body ∧ after = { desk.put created with drawn }) := by
  obtain ⟨object, rfl, hobject⟩ := exists_of_creation hcreation
  rw [← hobject] at hkey ⊢
  refine ends_create (fun _ hother => ?_) (fun stored _ hfound => ?_) ?_
  · exact absurd (hkey.symm.trans hother) nofun
  · exact ⟨⟨false, rfl⟩, .inl ⟨hfound ▸ rfl, rfl⟩⟩
  · exact fun drawn created _ hvacant hcreated =>
      ⟨⟨true, rfl⟩, .inr ⟨hvacant, created, drawn, hcreated, rfl⟩⟩

/-- Creating an artifact leaves the grant and all that is stored, and the artifact is there
afterwards. -/
structure Placed (desk after : Desk) (key : Key) (object grant : Grant) (artifact : Artifact) :
    Prop where
  holds : after.Holds key object
  placed : (after.store.find? artifact.kind (artifact.key grant.body)).isSome = true
  kept : desk.Keeps after

theorem ends_create_of_holds {object : Grant} {artifact : Artifact} {call : StoreCall}
    (h : desk.Holds key object) (hcreation : grant.creation artifact = .ok (some call))
    (hkey : (artifact.key grant.body).validate = .ok ()) :
    (ask call).Ends calm desk fun reply after =>
      (∃ isNew, Failure.toleratingTaken reply = .ok isNew) ∧
        Placed desk after key object grant artifact := by
  refine Program.Ends.mono (ends_create_of_wellFormed hcreation hkey) ?_
  rintro reply after ⟨hreply, ⟨hfound, rfl⟩ | ⟨-, created, drawn, hcreated, rfl⟩⟩
  · have hkept := desk.still_renewed.keeps
    exact ⟨hreply, h.still desk.still_renewed, hkept _ _ hfound, hkept⟩
  · have hne : Kind.grant ≠ artifact.kind := by cases artifact <;> decide
    have hput : (desk.put created).Holds key object := h.put_of_ne hne
    have hstored := desk.find?_put_self created
    rw [hcreated] at hstored
    exact ⟨hreply, hput.of_store rfl, hstored ▸ rfl, desk.keeps_put created⟩

/-- An artifact that is there already is only found to be there. -/
theorem ends_create_of_placed {artifact : Artifact} {call : StoreCall}
    (hcreation : grant.creation artifact = .ok (some call))
    (hkey : (artifact.key grant.body).validate = .ok ())
    (hplaced : (desk.store.find? artifact.kind (artifact.key grant.body)).isSome = true) :
    (ask call).Ends calm desk fun reply after =>
      (∃ isNew, Failure.toleratingTaken reply = .ok isNew) ∧ after = desk.renewed := by
  refine Program.Ends.mono (ends_create_of_wellFormed hcreation hkey) ?_
  rintro reply after ⟨hreply, ⟨-, hafter⟩ | ⟨hvacant, -⟩⟩
  · exact ⟨hreply, hafter⟩
  · rw [hvacant] at hplaced
    cases hplaced

/-- A pass provisions as far as it can, and what it created lies in the store. -/
structure Provisions (desk after : Desk) (key : Key) (object grant : Grant)
    (artifacts : List Artifact) (status : GrantStatus) : Prop where
  holds : after.Holds key object
  stocked : grant.Stocked after.store artifacts status
  kept : desk.Keeps after

theorem ends_provisionEach {object : Grant} (artifacts : List Artifact) (status : GrantStatus)
    (h : desk.Holds key object) :
    (grant.provisionEach artifacts status).Ends calm desk fun value after =>
      value = grant.provided artifacts status ∧
        Provisions desk after key object grant artifacts status := by
  fun_induction provided grant artifacts status generalizing desk with
  | case1 => exact ⟨rfl, h, trivial, fun _ _ => id⟩
  | case2 artifact rest status hskip ih =>
    rw [provisionEach, if_pos hskip]
    refine (ih h).mono ?_
    rintro value after ⟨hvalue, hholds, hstocked, hkept⟩
    refine ⟨hvalue, hholds, ?_, hkept⟩
    rwa [Stocked, if_pos hskip]
  | case3 artifact rest status hskip failure hcreation =>
    rw [provisionEach, if_neg hskip, hcreation]
    refine ⟨rfl, h, ?_, fun _ _ => id⟩
    rw [Stocked, if_neg hskip, hcreation]
    trivial
  | case4 artifact rest status hskip hcreation ih =>
    rw [provisionEach, if_neg hskip, hcreation]
    refine (ih h).mono ?_
    rintro value after ⟨hvalue, hholds, hstocked, hkept⟩
    refine ⟨hvalue, hholds, ?_, hkept⟩
    rwa [Stocked, if_neg hskip, hcreation]
  | case5 artifact rest status hskip call hcreation failure hkey =>
    rw [provisionEach, if_neg hskip, hcreation]
    refine Program.ends_bind (Program.Ends.mono (ends_create_of_malformed hcreation hkey) ?_)
    rintro reply _ ⟨hreply, rfl⟩
    rw [hreply]
    refine ⟨rfl, h.still desk.still_renewed, ?_, desk.still_renewed.keeps⟩
    rw [Stocked, if_neg hskip, hcreation, hkey]
    trivial
  | case6 artifact rest status hskip call hcreation hkey ih =>
    rw [provisionEach, if_neg hskip, hcreation]
    refine Program.ends_bind (Program.Ends.mono (ends_create_of_holds h hcreation hkey) ?_)
    rintro reply made ⟨⟨isNew, hreply⟩, hholds, hplaced, hbefore⟩
    rw [hreply]
    refine (ih hholds).mono ?_
    rintro value after ⟨hvalue, hlater, hstocked, hkept⟩
    refine ⟨hvalue, hlater, ?_, hbefore.trans hkept⟩
    rw [Stocked, if_neg hskip, hcreation, hkey]
    exact ⟨hkept _ _ hplaced, hstocked⟩

/-- **Where everything is there already**, provisioning leaves it as it is. -/
theorem ends_provisionEach_of_stocked (artifacts : List Artifact) (status : GrantStatus)
    (h : grant.Stocked desk.store artifacts status) :
    (grant.provisionEach artifacts status).Ends calm desk fun value after =>
      value = grant.provided artifacts status ∧ desk.Still after ∧
        (value = (status, .ok ()) → after = desk) := by
  fun_induction provided grant artifacts status generalizing desk with
  | case1 => exact ⟨rfl, .refl desk, fun _ => rfl⟩
  | case2 artifact rest status hskip ih =>
    rw [Stocked, if_pos hskip] at h
    rw [provisionEach, if_pos hskip]
    exact ih h
  | case3 artifact rest status hskip failure hcreation =>
    rw [provisionEach, if_neg hskip, hcreation]
    exact ⟨rfl, .refl desk, fun _ => rfl⟩
  | case4 artifact rest status hskip hcreation ih =>
    rw [Stocked, if_neg hskip, hcreation] at h
    rw [provisionEach, if_neg hskip, hcreation]
    exact ih h
  | case5 artifact rest status hskip call hcreation failure hkey =>
    rw [provisionEach, if_neg hskip, hcreation]
    refine Program.ends_bind (Program.Ends.mono (ends_create_of_malformed hcreation hkey) ?_)
    rintro reply _ ⟨hreply, rfl⟩
    rw [hreply]
    exact ⟨rfl, desk.still_renewed, nofun⟩
  | case6 artifact rest status hskip call hcreation hkey ih =>
    rw [Stocked, if_neg hskip, hcreation, hkey] at h
    obtain ⟨hplaced, hstocked⟩ := h
    rw [provisionEach, if_neg hskip, hcreation]
    refine Program.ends_bind
      (Program.Ends.mono (ends_create_of_placed hcreation hkey hplaced) ?_)
    rintro reply _ ⟨⟨isNew, hreply⟩, rfl⟩
    rw [hreply]
    refine Program.Ends.mono (ih (hstocked.keeps desk.still_renewed.keeps)) ?_
    rintro value after ⟨rfl, hstill, -⟩
    refine ⟨rfl, desk.still_renewed.trans hstill, fun hsame => absurd ?_ hskip⟩
    -- The artifact is recorded only now, so the status cannot be the same.
    have hrecorded : artifact.isRecorded (grant.provided rest (artifact.recorded status)).1 =
        true := isRecorded_provided (Artifact.isRecorded_recorded.2 (.inr rfl))
    rw [hsame] at hrecorded
    rw [hrecorded, Bool.or_true]

/-- Nothing is told of a status that was there before. -/
theorem provisionings_self (grant : Grant) : grant.provisionings grant.body = [] :=
  List.map_eq_nil_iff.1 <| (grant.map_action_provisionings _).trans (GrantStatus.news_self _)

theorem ends_persist (h : desk.Tends key grant) (hterms : status.terms = grant.body.terms) :
    (grant.persist status).Ends calm desk fun result after =>
      ∃ object : Grant, result = .ok status ∧ after.Tends key object ∧ object.body = status ∧
        object.Resembles grant ∧ desk.Keeps after := by
  unfold persist
  split
  · next hsame =>
    refine ends_bind (ends_pure (ends_bind (ends_tellEach fun told => ?_)))
    have htended : Desk.Tends { desk with told } key grant := h.of_holds (h.toHolds.of_store rfl)
    exact ⟨grant, rfl, htended, hsame, ⟨rfl, rfl, rfl⟩, fun _ _ => id⟩
  · obtain rfl := h.key_eq
    refine ends_bind (ends_patchStatus h.found ?_)
    refine ends_bind (ends_pure (ends_bind (ends_tellEach fun told => ?_)))
    have htended := h.patched status (desk.store.version + 1)
    refine ⟨_, rfl, htended.of_holds (htended.toHolds.of_store rfl), rfl, ⟨rfl, rfl, hterms⟩, ?_⟩
    exact desk.keeps_put _

/-- A status that is stored already is not written again. -/
theorem ends_persist_self {post : Except Failure GrantStatus → Desk → Prop}
    (h : post (.ok grant.body) desk) : (grant.persist grant.body).Ends calm desk post := by
  unfold persist
  rw [if_pos rfl]
  refine ends_bind (ends_pure (ends_bind ?_))
  rw [grant.provisionings_self]
  exact h

/-- Cleaning up after a grant leaves the grants. -/
theorem ends_cleanup {object : Grant} (h : desk.Holds key object) :
    grant.cleanup.Ends calm desk fun result after => result = .ok () ∧ after.Holds key object := by
  refine ends_askEach ?_ h
  intro call hcall
  rcases mem_removals hcall with ⟨kind, place, howned, rfl⟩ | rfl
  · refine ⟨kind, place, rfl, fun desk hholds => hholds.deleted rfl ?_ calm.now⟩
    rintro rfl
    cases howned
  · have hne : Kind.grant = .request → key ≠ grant.body.requestKey := nofun
    exact ⟨.request, _, rfl, fun desk hholds => hholds.deleted rfl hne calm.now⟩

/-! ### A grant at rest -/

/-- A pass on the grant leaves everything as it is, and ends with a given result. -/
inductive AtRest (calm : Calm) (key : Key) (desk : Desk) : Except Failure Outcome → Prop
  /-- There is nothing left to do. -/
  | cleared (cleared : desk.Cleared .grant key) : AtRest calm key desk (.ok .done)
  /-- The grant has not been filled in. -/
  | vacant {grant : Grant} (tended : desk.Tends key grant)
    (blank : grant.body.isPopulated = false) : AtRest calm key desk (.ok .done)
  /-- The grant goes on, and what was concluded is what would be concluded. -/
  | settled {grant : Grant} {result : Except Failure Outcome} (tended : desk.Tends key grant)
    (populated : grant.body.isPopulated = true) (timely : grant.isOver calm.now = false)
    (stocked : grant.Stocked desk.store Artifact.creationOrder grant.body)
    (concluded : grant.concluded key calm.now = (grant.body, result)) :
    AtRest calm key desk result

variable {result : Except Failure Outcome}

/-- **A grant stays at rest** while nothing happens. -/
theorem AtRest.still (h : AtRest calm key desk result) (hstill : desk.Still after) :
    AtRest calm key after result := by
  cases h with
  | cleared hcleared => exact .cleared (hcleared.still hstill)
  | vacant htended hblank => exact .vacant (htended.of_holds (htended.toHolds.still hstill)) hblank
  | settled htended hpopulated htimely hstocked hconcluded =>
    exact .settled (htended.of_holds (htended.toHolds.still hstill)) hpopulated htimely
      (hstocked.keeps hstill.keeps) hconcluded

/-- **The last steps** bring a grant to rest. -/
theorem ends_finalize (h : desk.Holds key grant) (hdeleting : grant.metadata.isDeleting = true) :
    grant.finalize.Ends calm desk fun result after => AtRest calm key after result := by
  unfold finalize
  split
  · refine ends_bind ((ends_cleanup h).mono ?_)
    rintro _ cleaned ⟨rfl, hholds⟩
    refine ends_bind ((ends_finish hholds hdeleting).mono ?_)
    rintro _ after ⟨⟨_, rfl⟩, hcleared⟩
    exact .cleared hcleared
  · next hbare => exact .cleared (.left h.found hdeleting (Bool.eq_false_iff.2 hbare))

/-- **A grant that has run out** is gone afterwards, or waits only for others. -/
theorem ends_expire (h : desk.Tends key grant) :
    grant.expire.Ends calm desk fun result after => AtRest calm key after result := by
  refine ends_bind ((ends_cleanup h.toHolds).mono ?_)
  rintro _ cleaned ⟨rfl, hholds⟩
  have hheld : grant.metadata.hasFinalizer cleanupFinalizer = true := h.held
  change Pass.Ends calm (if _ then _ else _) cleaned _
  rw [if_pos hheld]
  refine ends_bind (ends_tolerate ((ends_release hholds).mono ?_))
  rintro _ freed ⟨released, rfl, hbare, -, hleft⟩
  rcases hleft with hleft | ⟨hdeleting, -⟩
  · change Pass.Ends calm ((ask (.delete .grant grant.key)).toleratingMissing >>= _) freed _
    rw [h.key_eq]
    refine ends_bind (ends_delete fun _ => ?_)
    have hdeleted := freed.performed_deleted calm.now .grant key
    rcases hdeleted.find?_of_delete_self hleft.keyed hleft.found with ⟨-, hgone⟩ | hmarked
    · exact .cleared (.gone hgone)
    · exact .cleared (.left hmarked (Object.isDeleting_marked _ _ _)
        ((Object.isHeld_marked _ _ _).trans hbare))
  · rw [h.live] at hdeleting
    cases hdeleting

/-- **A pass on a grant that is not being deleted** brings it to rest. -/
theorem ends_advance (h : desk.Holds key grant) (hlive : grant.metadata.isDeleting = false) :
    (grant.advance key).Ends calm desk fun result after => AtRest calm key after result := by
  refine ends_bind ((ends_secure h hlive).mono ?_)
  rintro _ secured ⟨(object : Grant), rfl, htended⟩
  change Pass.Ends calm (if _ then _ else _) secured _
  split
  · next hblank => exact .vacant htended (by simpa using hblank)
  · next hpopulated =>
    have hpopulated : object.body.isPopulated = true := by simpa using hpopulated
    refine ends_bind (ends_clock ?_)
    change Pass.Ends calm (if _ then _ else _) secured _
    split
    · exact ends_expire htended
    · next hopen =>
      have hopen : object.isOver calm.now = false := Bool.eq_false_iff.2 hopen
      refine ends_bind (ends_lift ((ends_provisionEach _ _ htended.toHolds).mono ?_))
      rintro ⟨status, provisioned⟩ equipped ⟨hvalue, hprovisions⟩
      have htended := htended.of_holds hprovisions.holds
      have hcases := object.concluded_cases key calm.now
      rw [← hvalue] at hcases
      refine ends_bind (ends_result ?_)
      rcases hcases with ⟨failure, hend, hconcluded⟩ | ⟨time, hend, hconcluded⟩
      · dsimp only at hend
        rw [hend]
        exact .settled htended hpopulated hopen hprovisions.stocked hconcluded
      · dsimp only at hend hconcluded
        have hterms : { status with expiresAt := some time }.terms = object.body.terms :=
          (congrArg (fun value => value.1.terms) hvalue).trans (terms_provided _ _ _)
        rw [hend]
        refine ends_bind ((ends_persist htended hterms).mono ?_)
        rintro _ later ⟨left, rfl, hleft, hbody, hresembles, hkept⟩
        have hwritten : left.body = (object.concluded key calm.now).1 := by rw [hbody, hconcluded]
        have hrest : AtRest calm key later
            (provisioned.map fun _ => .requeueAt (time.after expiryBuffer)) := by
          refine .settled hleft ?_ (isOver_concluded hwritten hopen) ?_ ?_
          · rwa [GrantStatus.isPopulated_of_terms hresembles.terms]
          · exact (stocked_concluded hresembles hwritten hprovisions.stocked).keeps hkept
          · rw [concluded_concluded hresembles hwritten, hconcluded, hbody]
        refine ends_bind (ends_result ?_)
        cases provisioned <;> exact hrest

/-- A pass on a grant for which everything is there already, and from which it would conclude what
the grant says already, leaves everything as it is. -/
theorem ends_advance_of_settled (htended : desk.Tends key grant)
    (hpopulated : grant.body.isPopulated = true) (htimely : grant.isOver calm.now = false)
    (hstocked : grant.Stocked desk.store Artifact.creationOrder grant.body)
    (hconcluded : grant.concluded key calm.now = (grant.body, result)) :
    (grant.advance key).Ends calm desk fun outcome after => outcome = result ∧ desk.Still after ∧
      ∀ value, result = .ok value → after = desk := by
  refine ends_bind (ends_secure_of_isHeld htended.held ?_)
  change Pass.Ends calm (if !grant.body.isPopulated then _ else _) desk _
  rw [hpopulated]
  refine ends_bind (ends_clock ?_)
  change Pass.Ends calm (if grant.isOver calm.now then _ else _) desk _
  rw [htimely]
  refine ends_bind (ends_lift ((ends_provisionEach_of_stocked _ _ hstocked).mono ?_))
  rintro ⟨status, provisioned⟩ after ⟨hvalue, hstill, hsame⟩
  have hcases := grant.concluded_cases key calm.now
  rw [← hvalue, hconcluded] at hcases
  refine ends_bind (ends_result ?_)
  rcases hcases with ⟨failure, hend, hfailed⟩ | ⟨time, hend, hended⟩
  · dsimp only at hend
    obtain rfl : result = .error failure := congrArg Prod.snd hfailed
    rw [hend]
    exact ⟨rfl, hstill, fun _ => nofun⟩
  · dsimp only at hend hended
    have hbody : { status with expiresAt := some time } = grant.body :=
      congrArg Prod.fst hended.symm
    obtain rfl : result = provisioned.map fun _ => .requeueAt (time.after expiryBuffer) :=
      congrArg Prod.snd hended
    rw [hend]
    change Pass.Ends calm (grant.persist { status with expiresAt := some time } >>= _) after _
    rw [hbody]
    refine ends_bind (ends_persist_self (ends_bind (ends_result ?_)))
    cases provisioned with
    | error failure => exact ⟨rfl, hstill, fun _ => nofun⟩
    | ok _ =>
      refine ⟨rfl, hstill, fun _ _ => hsame (Prod.ext ?_ rfl)⟩
      -- The end of access was fixed before, so nothing at all has changed.
      have hfixed : status.expiresAt = some time := by
        have hkept := grant.expiresAt_provided Artifact.creationOrder grant.body
        rwa [← hvalue, ← hbody] at hkept
      rw [← hbody, ← hfixed]

/-! ### A whole pass -/

theorem reconcile_eq_look (key : Key) :
    reconcile key = look key finalize fun grant => advance grant key := by
  refine congrArg (ask (.find .grant key) >>= ·) (funext fun found => ?_)
  cases found <;> rfl

/-- **Every pass brings the grant to rest.** -/
theorem ends_reconcile (hkeyed : desk.store.Keyed) :
    (reconcile key).Ends calm desk fun result after => AtRest calm key after result := by
  rw [reconcile_eq_look]
  refine ends_look (fun hgone => ?_) (fun grant hfound hdeleting => ?_) fun grant hfound hlive => ?_
  · exact .cleared (.gone hgone)
  · exact ends_finalize ⟨hkeyed, hfound⟩ hdeleting
  · exact ends_advance ⟨hkeyed, hfound⟩ hlive

/-- **A pass on a grant at rest** leaves everything as it is, and ends as the one before. -/
theorem AtRest.ends_reconcile (h : AtRest calm key desk result) :
    (reconcile key).Ends calm desk fun outcome after => outcome = result ∧ desk.Still after ∧
      ∀ value, result = .ok value → after = desk := by
  rw [reconcile_eq_look]
  cases h with
  | cleared hcleared =>
    refine (ends_look_of_cleared hcleared fun grant hbare => ?_).mono ?_
    · change Pass.Ends calm (if grant.isHeld then _ else _) desk _
      rw [hbare]
      exact ⟨rfl, rfl⟩
    · rintro _ after ⟨rfl, rfl⟩
      exact ⟨rfl, .refl after, fun _ _ => rfl⟩
  | @vacant grant htended hblank =>
    refine ends_look_of_tends htended ?_
    refine ends_bind (ends_secure_of_isHeld htended.held ?_)
    change Pass.Ends calm (if !grant.body.isPopulated then _ else _) desk _
    rw [hblank]
    exact ⟨rfl, .refl desk, fun _ _ => rfl⟩
  | settled htended hpopulated htimely hstocked hconcluded =>
    exact ends_look_of_tends htended
      (ends_advance_of_settled htended hpopulated htimely hstocked hconcluded)

end Grant

end AccessBroker
