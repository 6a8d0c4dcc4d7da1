import AccessBroker.Object.Lifecycle
import AccessBroker.Proofs.Conduct

/-!
# The deeds of a pass

What the two engines have in common: a pass begins by finding its object, and makes
sure that the object carries the finalizer before it does anything that would have to
be cleaned up. The object that it works on from then on is *secured*
(`AccessBroker.Secured`).
-/

namespace AccessBroker

variable {kind : Kind} {key : Key} {past deeds : Deeds} {start object : Object kind}

/-- A call to the store together with its answer. -/
abbrev Deed.ofCall (call : StoreCall) (reply : call.Reply) : Deed passInterface :=
  ⟨.store call, reply⟩

namespace Object

/-- The object with the finalizer of the broker. -/
def withFinalizer (object : Object kind) : Object kind :=
  { object with metadata := object.metadata.addFinalizer cleanupFinalizer }

/-- The object without the finalizer of the broker. -/
def withoutFinalizer (object : Object kind) : Object kind :=
  { object with metadata := object.metadata.removeFinalizer cleanupFinalizer }

/-- Does the object carry the finalizer of the broker? -/
def isHeld (object : Object kind) : Bool :=
  object.metadata.hasFinalizer cleanupFinalizer

@[simp]
theorem isHeld_withFinalizer (object : Object kind) : object.withFinalizer.isHeld = true := by
  unfold withFinalizer isHeld Metadata.addFinalizer
  split
  · assumption
  · simp [Metadata.hasFinalizer]

@[simp]
theorem isHeld_withoutFinalizer (object : Object kind) :
    object.withoutFinalizer.isHeld = false := by
  simp [withoutFinalizer, isHeld, Metadata.removeFinalizer, Metadata.hasFinalizer]

@[simp]
theorem key_withFinalizer (object : Object kind) : object.withFinalizer.key = object.key := by
  unfold withFinalizer Metadata.addFinalizer
  split <;> rfl

@[simp]
theorem version_withFinalizer (object : Object kind) :
    object.withFinalizer.metadata.version = object.metadata.version := by
  unfold withFinalizer Metadata.addFinalizer
  split <;> rfl

@[simp]
theorem key_withoutFinalizer (object : Object kind) : object.withoutFinalizer.key = object.key :=
  rfl

@[simp]
theorem version_withoutFinalizer (object : Object kind) :
    object.withoutFinalizer.metadata.version = object.metadata.version :=
  rfl

theorem mem_finalizers_withFinalizer {finalizer : String}
    (h : finalizer ∈ object.withFinalizer.metadata.finalizers) :
    finalizer ∈ object.metadata.finalizers ∨ finalizer = cleanupFinalizer := by
  rw [withFinalizer, Metadata.addFinalizer] at h
  split at h
  · exact .inl h
  · simpa using h

/-- An object that carries no other finalizer is free without that of the broker. -/
theorem finalizers_withoutFinalizer
    (h : ∀ finalizer ∈ object.metadata.finalizers, finalizer = cleanupFinalizer) :
    object.withoutFinalizer.metadata.finalizers = [] := by
  simpa [withoutFinalizer, Metadata.removeFinalizer] using h

theorem finalizers_ne_nil {object : Object kind} (h : object.isHeld = true) :
    object.metadata.finalizers ≠ [] := by
  intro hnil
  rw [isHeld, Metadata.hasFinalizer, hnil] at h
  cases h

/-- An object that carries a finalizer waits for it. -/
theorem isSpent_withLinksOf_withFinalizer (old object : Object kind) (version : Nat) :
    (old.withLinksOf object.withFinalizer version).isSpent = false := by
  have hheld := finalizers_ne_nil object.isHeld_withFinalizer
  have hempty : (old.withLinksOf object.withFinalizer version).metadata.finalizers.isEmpty =
      false := Bool.eq_false_iff.2 fun h => hheld (List.isEmpty_iff.1 h)
  rw [isSpent, hempty, Bool.and_false]

end Object

/-! ### Finding and securing the object -/

/-- The pass found an object under a key. -/
def Found (key : Key) (deeds : Deeds) (object : Object kind) : Prop :=
  Deed.ofCall (.find kind key) (.ok (some object)) ∈ deeds

/-- The pass found an object that is not being deleted and carries the finalizer, or
gave the finalizer to it. -/
inductive Secured (key : Key) (deeds : Deeds) (start : Object kind) : Object kind → Prop
  /-- The object had the finalizer. -/
  | held (found : Found key deeds start) (live : start.metadata.isDeleting = false)
    (held : start.isHeld = true) : Secured key deeds start start
  /-- The object was given the finalizer. -/
  | given {object : Object kind} (found : Found key deeds start)
    (live : start.metadata.isDeleting = false)
    (given : Deed.ofCall (.updateMetadata kind start.withFinalizer) (.ok object) ∈ deeds) :
    Secured key deeds start object

theorem Found.mono (h : Found key past object) (hsuffix : past <:+ deeds) :
    Found key deeds object :=
  hsuffix.mem h

theorem Found.cons (h : Found key past object) (deed : Deed passInterface) :
    Found key (deed :: past) object :=
  List.mem_cons_of_mem _ h

namespace Secured

theorem mono (h : Secured key past start object) (hsuffix : past <:+ deeds) :
    Secured key deeds start object := by
  cases h with
  | held hfound hlive hheld => exact .held (hfound.mono hsuffix) hlive hheld
  | given hfound hlive hgiven => exact .given (hfound.mono hsuffix) hlive (hsuffix.mem hgiven)

theorem cons (h : Secured key past start object) (deed : Deed passInterface) :
    Secured key (deed :: past) start object :=
  h.mono (List.suffix_cons _ _)

theorem found (h : Secured key past start object) : Found key past start := by
  cases h with
  | held hfound => exact hfound
  | given hfound => exact hfound

end Secured

/-- Both engines secure their object in the same way. -/
theorem Pass.obeys_secure {allows : Conduct} {ends : Deeds → Except Failure (Object kind) → Prop}
    (hfound : Found key past start) (hlive : start.metadata.isDeleting = false)
    (hcall : start.isHeld = false → allows past (.store (.updateMetadata kind start.withFinalizer)))
    (hheld : Secured key past start start → ends past (.ok start))
    (hgiven : ∀ object, Secured key (.ofCall (.updateMetadata kind start.withFinalizer)
      (.ok object) :: past) start object →
      ends (.ofCall (.updateMetadata kind start.withFinalizer) (.ok object) :: past) (.ok object))
    (hrefused : ∀ past failure, ends past (.error failure)) :
    Pass.Obeys allows ends
      (if start.metadata.hasFinalizer cleanupFinalizer then pure start
        else Pass.ask (.updateMetadata kind start.withFinalizer)) past := by
  split
  · next hfinalizer => exact obeys_pure (hheld (.held hfound hlive hfinalizer))
  · next hfinalizer =>
    refine obeys_ask (hcall (Bool.eq_false_iff.2 hfinalizer)) fun reply => ?_
    cases reply with
    | ok object => exact hgiven object (.given (hfound.cons _) hlive List.mem_cons_self)
    | error failure => exact hrefused _ failure

/-! ### Several calls in a row -/

/-- The pass made a call, and what it asked for is the case: the call succeeded, or it
found that something is missing. -/
def Settled (call : StoreCall) (deeds : Deeds) : Prop :=
  ∃ reply : call.Reply, Deed.ofCall call reply ∈ deeds ∧
    ∀ failure, reply = .error failure → failure.isNotFound = true

theorem Settled.mono {call : StoreCall} (h : Settled call past) (hsuffix : past <:+ deeds) :
    Settled call deeds := by
  obtain ⟨reply, hreply, hfailure⟩ := h
  exact ⟨reply, hsuffix.mem hreply, hfailure⟩

theorem Failure.isNotFound_of_tolerated {α : Type} {result : Except Failure α} {value : Option α}
    {failure : Failure} (h : Failure.toleratingMissing result = .ok value)
    (hfailure : result = .error failure) : failure.isNotFound = true := by
  subst hfailure
  unfold Failure.toleratingMissing at h
  dsimp only at h
  split at h
  · assumption
  · cases h

theorem Failure.eq_ok_of_tolerated {α : Type} {result : Except Failure α} {value : α}
    (h : Failure.toleratingMissing result = .ok (some value)) : result = .ok value := by
  unfold Failure.toleratingMissing at h
  split at h
  · cases h
    rfl
  · split at h <;> cases h

theorem Failure.join_eq_ok {failures : List Failure} {passed : Unit}
    (h : Failure.join failures = .ok passed) : failures = [] := by
  unfold Failure.join at h
  split at h
  · rfl
  · cases h
  · cases h

namespace Pass

open Program

variable {allows : Conduct}

/-- The calls have been made, and nothing else. -/
def Made (calls : List StoreCall) (past later : Deeds) : Prop :=
  past <:+ later ∧ ∀ deed ∈ later, deed ∈ past ∨ ∃ call ∈ calls, deed.call = .store call

/-- A first call, and the others after it. -/
theorem Made.cons {call : StoreCall} {reply : call.Reply} {rest : List StoreCall} {later : Deeds}
    (h : Made rest (.ofCall call reply :: past) later) : Made (call :: rest) past later := by
  refine ⟨(List.suffix_cons _ _).trans h.1, fun deed hdeed => ?_⟩
  rcases h.2 deed hdeed with hearlier | ⟨other, hother, heq⟩
  · rcases List.mem_cons.1 hearlier with rfl | hearlier
    · exact .inr ⟨call, List.mem_cons_self, rfl⟩
    · exact .inl hearlier
  · exact .inr ⟨other, List.mem_cons_of_mem _ hother, heq⟩

/-- A call whose object may be missing gives the tolerated answer. -/
theorem obeys_toleratingMissing {call : StoreCall} (hcall : allows past (.store call)) :
    (Pass.ask call).toleratingMissing.Obeys allows (fun later result => ∃ reply : call.Reply,
      later = .ofCall call reply :: past ∧ Failure.toleratingMissing reply = result) past :=
  ⟨hcall, fun reply => ⟨reply, rfl, rfl⟩⟩

theorem obeys_failures {calls : List StoreCall}
    (hcalls : ∀ call ∈ calls, ∀ later, past <:+ later → allows later (.store call)) :
    (askEach.failures calls).Obeys allows (fun later failures => Made calls past later ∧
      (failures = [] → ∀ call ∈ calls, Settled call later)) past := by
  induction calls generalizing past with
  | nil =>
    exact ⟨⟨List.suffix_refl _, fun _ hdeed => .inl hdeed⟩, fun _ => List.forall_mem_nil _⟩
  | cons call rest ih =>
    have hcall := hcalls call List.mem_cons_self past (List.suffix_refl _)
    refine Program.obeys_bind (Obeys.mono (obeys_toleratingMissing hcall) ?_)
    rintro _ result ⟨reply, rfl, hsettled⟩
    have hlater : past <:+ .ofCall call reply :: past := List.suffix_cons _ _
    have hrest := ih fun call hcall later hsuffix =>
      hcalls call (List.mem_cons_of_mem _ hcall) later (hlater.trans hsuffix)
    cases result with
    | ok value =>
      refine hrest.mono fun later failures h => ⟨h.1.cons, fun hnone => ?_⟩
      refine List.forall_mem_cons.2 ⟨⟨reply, h.1.1.mem List.mem_cons_self, ?_⟩, h.2 hnone⟩
      exact fun failure hfailure => Failure.isNotFound_of_tolerated hsettled hfailure
    | error failure =>
      refine Program.obeys_bind (hrest.mono fun later failures h => ?_)
      exact ⟨h.1.cons, nofun⟩

/-- A call whose object may be missing, and what follows it. -/
theorem obeys_tolerate {β : Type} {call : StoreCall} {rest : Option call.Result → Pass β}
    {ends : Deeds → β → Prop} (hcall : allows past (.store call))
    (hrest : ∀ (reply : call.Reply) value, Failure.toleratingMissing reply = .ok value →
      (rest value).Obeys allows (OnSuccess ends) (.ofCall call reply :: past)) :
    ((Pass.ask call).toleratingMissing >>= rest).Obeys allows (OnSuccess ends) past := by
  refine (obeys_toleratingMissing hcall).bind ?_ fun _ _ _ => trivial
  rintro _ value ⟨reply, rfl, hvalue⟩
  exact hrest reply value hvalue

/-- Telling does not fail. -/
theorem obeys_tellEach_any {events : List AccessEvent}
    (hallows : ∀ past event, allows past (.tell event)) :
    (tellEach events).Obeys allows (fun later result => past <:+ later ∧ result = .ok ()) past := by
  induction events generalizing past with
  | nil => exact ⟨List.suffix_refl _, rfl⟩
  | cons event rest ih =>
    exact ⟨hallows past event, fun reply =>
      ih.mono fun _ _ h => ⟨(List.suffix_cons _ _).trans h.1, h.2⟩⟩

theorem obeys_tellEach {events : List AccessEvent}
    (hallows : ∀ past event, allows past (.tell event)) :
    (tellEach events).Obeys allows (OnSuccess fun later _ => past <:+ later) past :=
  (obeys_tellEach_any hallows).mono fun _ result h => by
    cases result with
    | ok _ => exact h.1
    | error _ => exact trivial

/-- **What several calls in a row come to**: if none of them is reported, each of them
is settled. -/
theorem obeys_askEach {calls : List StoreCall}
    (hcalls : ∀ call ∈ calls, ∀ later, past <:+ later → allows later (.store call)) :
    (askEach calls).Obeys allows (OnSuccess fun later _ => Made calls past later ∧
      ∀ call ∈ calls, Settled call later) past := by
  refine Program.obeys_bind ((obeys_failures hcalls).mono fun later failures h => ?_)
  cases hjoin : Failure.join failures with
  | ok passed => exact ⟨h.1, h.2 (Failure.join_eq_ok hjoin)⟩
  | error failure => exact trivial

end Pass

/-! ### What a pass has not done -/

/-- None of the deeds is a call that a test picks. -/
def Without (test : Effect → Bool) (deeds : Deeds) : Prop :=
  ∀ deed ∈ deeds, test deed.call = false

@[simp]
theorem without_nil (test : Effect → Bool) : Without test [] :=
  List.forall_mem_nil _

theorem without_cons {test : Effect → Bool} {deed : Deed passInterface} :
    Without test (deed :: past) ↔ test deed.call = false ∧ Without test past :=
  List.forall_mem_cons

theorem Without.cons {test : Effect → Bool} {deed : Deed passInterface} (h : Without test past)
    (hdeed : test deed.call = false) : Without test (deed :: past) :=
  without_cons.2 ⟨hdeed, h⟩

/-- Does a call write the status of an object of a kind? -/
def Effect.patches (kind : Kind) : Effect → Bool
  | .store (.patchStatus patched _ _) => patched == kind
  | _ => false

end AccessBroker
