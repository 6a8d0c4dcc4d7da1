import AccessBroker.Engine.Request
import AccessBroker.Proofs.Time.Order

/-!
# How the status of a request goes on

A status is *in order* (`AccessBroker.RequestStatus.InOrder`) if nothing has been decided before
the request has an identifier, and a grant is recorded for an approved request alone. One status
*continues* another (`AccessBroker.RequestStatus.Continues`) if it keeps what is settled there once
and for all: the identifier, the deadline and the grant, and the state up to the few steps that a
state can take (`AccessBroker.RequestState.Precedes`).

What a pass makes of a status in order is in order and continues it, and the time at which the pass
looked at the clock decides which steps the state can take (`AccessBroker.RequestStatus.Made`). Each
of the operations from which the passes make up the new status keeps to this.
-/

namespace AccessBroker

open AccessBroker.Time

/-- The steps that the state of a request can take. -/
inductive RequestState.Precedes : RequestState → RequestState → Prop
  /-- Enough approvals have arrived. -/
  | approved : Precedes .pending .approved
  /-- Somebody has said no. -/
  | denied : Precedes .pending .denied
  /-- The deadline has passed without a decision. -/
  | lapsed : Precedes .pending .expired
  /-- The deadline has passed after a denial. -/
  | closed : Precedes .denied .expired

/-- Of two steps in a row the first one is a denial, and the second one its end. -/
theorem RequestState.Precedes.trans {first second third : RequestState}
    (h : first.Precedes second) (h' : second.Precedes third) : first.Precedes third := by
  cases h' with
  | approved | denied | lapsed => cases h
  | closed =>
    cases h
    exact .lapsed

/-- No request becomes pending again. -/
theorem RequestState.Precedes.ne_pending {old new : RequestState} (h : old.Precedes new) :
    new ≠ .pending := by
  rintro rfl
  cases h

namespace RequestStatus

variable {old between new status : RequestStatus} {now : Instant}

/-- Nothing is decided before there is an identifier, and grants are recorded for approved requests
alone. -/
structure InOrder (status : RequestStatus) : Prop where
  undecided : status.requestId = "" → status.state = .pending
  approved : status.grantCreated = true → status.state = .approved

theorem inOrder_blank : InOrder {} :=
  ⟨fun _ => rfl, nofun⟩

/-- What is settled in a status is the same in another one. -/
structure Continues (old new : RequestStatus) : Prop where
  named : old.requestId ≠ "" → new.requestId = old.requestId
  dated (time : Instant) : old.expiresAt = some time → new.expiresAt = some time
  moved : new.state = old.state ∨ old.state.Precedes new.state
  created : old.grantCreated = true → new.grantCreated = true

theorem Continues.refl (status : RequestStatus) : Continues status status :=
  ⟨fun _ => rfl, fun _ => id, .inl rfl, id⟩

/-- **What is settled stays so over any number of steps.** -/
theorem Continues.trans (h : Continues old between) (h' : Continues between new) :
    Continues old new where
  named hnamed := by
    have hid := h.named hnamed
    exact (h'.named (hid ▸ hnamed)).trans hid
  dated time htime := h'.dated time (h.dated time htime)
  moved := by
    rcases h'.moved with hkept' | hstep'
    · rw [hkept']
      exact h.moved
    · rcases h.moved with hkept | hstep
      · exact .inr (hkept ▸ hstep')
      · exact .inr (hstep.trans hstep')
  created hcreated := h'.created (h.created hcreated)

/-- What a pass that looks at the clock at `now` makes of a status: the state is overdue exactly if
the deadline ends it. -/
structure Made (now : Instant) (old new : RequestStatus) : Prop where
  continues : old.Continues new
  approved : new.grantCreated = true → new.state = .approved
  dated : new.expiresAt.isSome = true
  /-- What is still to be decided is not overdue. -/
  timely : new.state = .pending → new.isOverdue now = false
  /-- Decisions are made in time, and the deadline ends what is overdue. -/
  moved : new.state ≠ old.state → (new.state = .expired ↔ new.isOverdue now = true)

theorem Made.inOrder (h : Made now old new) (hnamed : new.requestId ≠ "") : new.InOrder :=
  ⟨fun hunnamed => absurd hunnamed hnamed, h.approved⟩

/-- **A step of the state** is taken on the right side of the deadline. -/
theorem Made.deadline (h : Made now old new) (hmoved : new.state ≠ old.state) :
    ∃ deadline, new.expiresAt = some deadline ∧ (new.state = .expired → deadline < now) ∧
      (new.state ≠ .expired → now ≤ deadline) := by
  obtain ⟨deadline, hdeadline⟩ := Option.isSome_iff_exists.1 h.dated
  have hoverdue : new.isOverdue now = true ↔ deadline < now := by
    simp [isOverdue, hdeadline]
  have hended := h.moved hmoved
  refine ⟨deadline, hdeadline, fun hexpired => ?_, fun hdecided => ?_⟩
  · exact hoverdue.1 (hended.1 hexpired)
  · refine Instant.le_of_not_lt fun hlate => hdecided ?_
    exact hended.2 (hoverdue.2 hlate)

/-! ### What passes do to a status -/

/-- A status in order is continued by its registration: so far nothing has been decided. -/
theorem InOrder.registered (h : status.InOrder) (hunnamed : status.requestId = "") (id : String) :
    status.Continues (status.registered id) ∧ (status.registered id).state = status.state := by
  have hpending := h.undecided hunnamed
  refine ⟨⟨fun hnamed => absurd hunnamed hnamed, fun _ htime => htime, .inl ?_, fun h => h⟩, ?_⟩
  · exact hpending.symm
  · exact hpending.symm

/-- **A pass begins** by setting the deadline, which may have passed. -/
theorem Made.begun {named : RequestStatus} (hcontinues : old.Continues named)
    (hstate : named.state = old.state)
    (happroved : named.grantCreated = true → named.state = .approved) :
    Made now old ((named.withDeadline now).atTime now) := by
  have hdated : old.Continues (named.withDeadline now) :=
    hcontinues.trans ⟨fun _ => rfl, fun time htime => by simp [withDeadline, htime], .inl rfl,
      fun h => h⟩
  unfold atTime
  split
  · next hlate =>
    obtain ⟨hundecided, hoverdue⟩ := hlate
    have hstep : RequestState.expired = named.state ∨ named.state.Precedes .expired := by
      have hundecided : named.state ≠ .approved := hundecided
      cases hnamed : named.state with
      | pending => exact .inr .lapsed
      | denied => exact .inr .closed
      | expired => exact .inl rfl
      | approved => exact absurd hnamed hundecided
    exact {
      continues := hdated.trans ⟨fun _ => rfl, fun _ htime => htime, hstep, fun h => h⟩
      approved := fun hcreated => absurd (happroved hcreated) hundecided
      dated := rfl
      timely := nofun
      moved := fun _ => iff_of_true rfl hoverdue }
  · next hopen =>
    exact {
      continues := hdated
      approved := happroved
      dated := rfl
      timely := fun hpending => by
        refine Bool.eq_false_iff.2 fun hoverdue => hopen ⟨?_, hoverdue⟩
        rw [hpending]
        decide
      moved := fun hmoved => absurd hstate hmoved }

/-- The number of approvals that are demanded may be renewed. -/
theorem Made.required (h : Made now old status) (required : UInt32) :
    Made now old { status with approvalsRequired := required } :=
  ⟨⟨h.continues.named, h.continues.dated, h.continues.moved, h.continues.created⟩, h.approved,
    h.dated, h.timely, h.moved⟩

/-- **Votes are counted** on a pending request, before the deadline. -/
theorem Made.counted (h : Made now old status) (hpending : status.state = .pending)
    (tally : Tally) : Made now old (status.counted tally) := by
  have hold : old.state = .pending := by
    rcases h.continues.moved with hkept | hstep
    · rw [← hkept, hpending]
    · exact absurd hpending hstep.ne_pending
  have hopen := h.timely hpending
  have hstates : (status.counted tally).state = .pending ∨
      (status.counted tally).state = .approved ∨ (status.counted tally).state = .denied := by
    simp only [RequestStatus.counted, hpending]
    split
    · exact .inr (.inr rfl)
    · split
      · exact .inr (.inl rfl)
      · exact .inl rfl
  have hmoved : (status.counted tally).state = old.state ∨
      old.state.Precedes (status.counted tally).state := by
    rw [hold]
    rcases hstates with hstate | hstate | hstate
    · exact .inl hstate
    · exact .inr (hstate ▸ .approved)
    · exact .inr (hstate ▸ .denied)
  have hunexpired : (status.counted tally).state ≠ .expired := by
    rcases hstates with hstate | hstate | hstate <;> rw [hstate] <;> decide
  exact {
    continues := ⟨h.continues.named, h.continues.dated, hmoved, h.continues.created⟩
    approved := fun hcreated => by
      have happroved := h.approved hcreated
      rw [hpending] at happroved
      cases happroved
    dated := h.dated
    timely := fun _ => hopen
    moved := fun _ => iff_of_false hunexpired (Bool.eq_false_iff.1 hopen) }

/-- The grant of an approved request may be recorded. -/
theorem Made.granted (h : Made now old status) (happroved : status.state = .approved) :
    Made now old { status with grantCreated := true } :=
  ⟨⟨h.continues.named, h.continues.dated, h.continues.moved, fun _ => rfl⟩, fun _ => happroved,
    h.dated, h.timely, h.moved⟩

end RequestStatus

end AccessBroker
