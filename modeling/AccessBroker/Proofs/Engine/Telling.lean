import AccessBroker.Proofs.Engine.Grant
import AccessBroker.Proofs.Engine.Request

/-!
# What a pass tells

Listeners are told of what has become of a status, and of a grant that has run out. What there is
to tell of is fixed by the call that brings it about: the news of a written status are read off the
status before and after (`AccessBroker.RequestStatus.news`, `AccessBroker.GrantStatus.news`), and
when the deletion of a grant is settled the news are that it has expired. From then on they are
*due* (`AccessBroker.due`) until the pass has told of them.

A pass is prompt (`AccessBroker.Prompt`): it tells of nothing but what is due, in order, and does
nothing else as long as anything is due. So no news are told twice or forgotten, and none is told
before it has happened. Every pass keeps to this, whatever it is answered
(`AccessBroker.Request.reconcile_prompt`, `AccessBroker.Grant.reconcile_prompt`).
-/

namespace AccessBroker

open AccessBroker.Time

/-! ### News -/

/-- What there is to tell of when a status of a request has become another one. -/
def RequestStatus.news (old new : RequestStatus) : List AccessAction :=
  (if old.requestId.isEmpty && !new.requestId.isEmpty then [.requestCreated] else []) ++
    if old.state = new.state then [] else (Request.transition? new.state).toList

/-- What there is to tell of when a status of a grant has become another one. -/
def GrantStatus.news (old new : GrantStatus) : List AccessAction :=
  (if !old.roleBound && new.roleBound then [.roleGranted] else []) ++
    if !old.adhocRoleBound && new.adhocRoleBound then [.permissionsGranted] else []

theorem Request.map_action_transitions (request : Request) (status : RequestStatus) :
    (request.transitions status).map (·.action) = request.body.status.news status := by
  simp only [transitions, RequestStatus.news, List.map_append]
  congr 1
  · split <;> rfl
  · split
    · rfl
    · cases transition? status.state <;> rfl

theorem Grant.map_action_provisionings (grant : Grant) (status : GrantStatus) :
    (grant.provisionings status).map (·.action) = grant.body.news status := by
  simp only [provisionings, GrantStatus.news, List.map_append]
  congr 1 <;> split <;> rfl

theorem Request.key_of_mem_transitions (request : Request) {status : RequestStatus}
    {event : AccessEvent} (h : event ∈ request.transitions status) : event.key = request.key := by
  rcases List.mem_append.1 h with h | h
  · split at h
    · cases List.mem_singleton.1 h
      rfl
    · cases h
  · split at h
    · cases h
    · obtain ⟨action, -, rfl⟩ := List.mem_map.1 h
      rfl

theorem Grant.key_of_mem_provisionings (grant : Grant) {status : GrantStatus}
    {event : AccessEvent} (h : event ∈ grant.provisionings status) : event.key = grant.key := by
  rcases List.mem_append.1 h with h | h <;> split at h
  · cases List.mem_singleton.1 h
    rfl
  · cases h
  · cases List.mem_singleton.1 h
    rfl
  · cases h

theorem RequestStatus.news_self (status : RequestStatus) : status.news status = [] := by
  simp [news]

theorem GrantStatus.news_self (status : GrantStatus) : status.news status = [] := by
  simp [news]

/-- What a deed gives a pass on a request to tell of. -/
def Request.news : Deed passInterface → List AccessAction
  | ⟨.store (.patchStatus .request base _), .ok updated⟩ =>
    base.body.status.news updated.body.status
  | _ => []

/-- What a deed gives a pass on a grant to tell of. -/
def Grant.news : Deed passInterface → List AccessAction
  | ⟨.store (.patchStatus .grant base _), .ok updated⟩ => base.body.news updated.body
  | ⟨.store (.delete .grant _), .ok _⟩ => [.grantExpired]
  | ⟨.store (.delete .grant _), .error failure⟩ =>
    if failure.isNotFound then [.grantExpired] else []
  | _ => []

/-! ### What is due -/

section Due

variable {kind : Kind} {key : Key} {news : Deed passInterface → List AccessAction}
  {fits : Effect → Prop} {past : Deeds} {effect : Effect}

/-- What a pass has still to tell of. -/
def due (news : Deed passInterface → List AccessAction) : Deeds → List AccessAction
  | [] => []
  | deed :: past =>
    match deed.call with
    | .tell _ => (due news past).tail
    | _ => news deed ++ due news past

/-- What a prompt pass may do next: it tells of the first thing that is due, with the key of the
object that it has secured, and nothing else as long as anything is due. -/
def Prompt (kind : Kind) (key : Key) (news : Deed passInterface → List AccessAction)
    (fits : Effect → Prop) : Conduct
  | past, .tell event => (due news past).head? = some event.action ∧
      ∃ start object : Object kind, Secured key past start object ∧ event.key = object.key
  | past, effect => due news past = [] ∧ fits effect

/-- A call that gives nothing to tell of, and tells nothing. -/
structure Effect.IsPlain (news : Deed passInterface → List AccessAction) (fits : Effect → Prop)
    (effect : Effect) : Prop where
  silent (event : AccessEvent) : effect ≠ .tell event
  plain (reply : passInterface.Reply effect) : news ⟨effect, reply⟩ = []
  fits : fits effect

theorem due_cons (hsilent : ∀ event, effect ≠ .tell event) (reply : passInterface.Reply effect) :
    due news (⟨effect, reply⟩ :: past) = news ⟨effect, reply⟩ ++ due news past := by
  cases effect with
  | tell event => exact absurd rfl (hsilent event)
  | store | policies | clock | freshId => rfl

/-- What a call to the store gives to tell of is due, where nothing else was. -/
theorem due_ofCall {call : StoreCall} {reply : call.Reply} (hdue : due news past = []) :
    due news (.ofCall call reply :: past) = news (.ofCall call reply) := by
  change news (.ofCall call reply) ++ due news past = _
  rw [hdue, List.append_nil]

theorem prompt_iff_of_silent (hsilent : ∀ event, effect ≠ .tell event) :
    Prompt kind key news fits past effect ↔ due news past = [] ∧ fits effect := by
  cases effect with
  | tell event => exact absurd rfl (hsilent event)
  | store | policies | clock | freshId => rfl

/-- A program that gives nothing to tell of, and tells nothing. -/
def IsPlain {α : Type} (news : Deed passInterface → List AccessAction) (fits : Effect → Prop)
    (program : Steps α) : Prop :=
  ∀ past, program.Obeys (fun _ effect => Effect.IsPlain news fits effect) (fun _ _ => True) past

/-- **As long as a pass does only what gives nothing to tell of, nothing is due.** -/
theorem IsPlain.prompt {α : Type} {program : Steps α} (h : IsPlain news fits program)
    (hdue : due news past = []) :
    program.Obeys (Prompt kind key news fits)
      (fun later _ => past <:+ later ∧ due news later = []) past := by
  have hpast := h past
  clear h
  induction program generalizing past with
  | done value => exact ⟨List.suffix_refl _, hdue⟩
  | ask call next ih =>
    obtain ⟨hcall, hnext⟩ := hpast
    refine ⟨(prompt_iff_of_silent hcall.silent).2 ⟨hdue, hcall.fits⟩, fun reply => ?_⟩
    have hlater : due news (⟨call, reply⟩ :: past) = [] := by
      rw [due_cons hcall.silent, hcall.plain, hdue, List.append_nil]
    refine (ih reply hlater (hnext reply)).mono fun later _ hends => ⟨?_, hends.2⟩
    exact (List.suffix_cons _ _).trans hends.1

theorem IsPlain.done {α : Type} (value : α) : IsPlain news fits (.done value) :=
  fun _ => trivial

theorem IsPlain.bind {α β : Type} {program : Steps α} {rest : α → Steps β}
    (h : IsPlain news fits program) (hrest : ∀ value, IsPlain news fits (rest value)) :
    IsPlain news fits (program >>= rest) :=
  fun past => Program.obeys_bind ((h past).mono fun later value _ => hrest value later)

theorem IsPlain.ask {α : Type} {next : passInterface.Reply effect → Steps α}
    (h : Effect.IsPlain news fits effect) (hnext : ∀ reply, IsPlain news fits (next reply)) :
    IsPlain news fits (.ask effect next) :=
  fun _ => ⟨h, fun reply => hnext reply _⟩

/-- A part of a pass that gives nothing to tell of, and what follows it. -/
theorem Pass.isPlain_bind {α β : Type} {pass : Pass α} {rest : α → Pass β}
    (h : IsPlain news fits pass.run) (hrest : ∀ value, IsPlain news fits (rest value).run) :
    IsPlain news fits (pass >>= rest).run := by
  refine h.bind fun result => ?_
  cases result with
  | ok value => exact hrest value
  | error failure => exact IsPlain.done _

theorem Pass.isPlain_ask {call : StoreCall} (h : Effect.IsPlain news fits (.store call)) :
    IsPlain news fits (Pass.ask call).run :=
  IsPlain.ask h fun _ => IsPlain.done _

theorem Pass.isPlain_toleratingMissing {α : Type} {pass : Pass α} (h : IsPlain news fits pass.run) :
    IsPlain news fits pass.toleratingMissing.run :=
  h.bind fun _ => IsPlain.done _

theorem Pass.isPlain_askEach {calls : List StoreCall}
    (h : ∀ call ∈ calls, Effect.IsPlain news fits (.store call)) :
    IsPlain news fits (Pass.askEach calls).run := by
  refine IsPlain.bind ?_ fun _ => IsPlain.done _
  induction calls with
  | nil => exact IsPlain.done _
  | cons call rest ih =>
    have hrest := ih fun other hother => h other (List.mem_cons_of_mem _ hother)
    refine IsPlain.bind
      (isPlain_toleratingMissing (isPlain_ask (h call List.mem_cons_self))) fun result => ?_
    cases result with
    | ok value => exact hrest
    | error failure => exact hrest.bind fun _ => IsPlain.done _

/-- **A pass tells of what is due**, one event after the other. -/
theorem Pass.obeys_tellEach_prompt {events : List AccessEvent} {start object : Object kind}
    (hdue : due news past = events.map (·.action))
    (hkeys : ∀ event ∈ events, event.key = object.key) (hsecured : Secured key past start object) :
    (Pass.tellEach events).Obeys (Prompt kind key news fits)
      (fun later result => past <:+ later ∧ due news later = [] ∧ result = .ok ()) past := by
  induction events generalizing past with
  | nil => exact ⟨List.suffix_refl _, hdue, rfl⟩
  | cons event rest ih =>
    refine ⟨⟨by rw [hdue]; rfl, start, object, hsecured, hkeys event List.mem_cons_self⟩,
      fun reply => ?_⟩
    have hlater : due news (⟨.tell event, reply⟩ :: past) = rest.map (·.action) := by
      change (due news past).tail = _
      rw [hdue]
      rfl
    refine (ih hlater (fun other hother => hkeys other (List.mem_cons_of_mem _ hother))
      (hsecured.cons _)).mono fun later result hends => ⟨?_, hends.2⟩
    exact (List.suffix_cons _ _).trans hends.1

/-- Both engines secure their object without giving anything to tell of. -/
theorem Pass.obeys_secure_prompt {start : Object kind} (hfound : Found key past start)
    (hlive : start.metadata.isDeleting = false) (hdue : due news past = [])
    (hplain : Effect.IsPlain news fits (.store (.updateMetadata kind start.withFinalizer))) :
    Pass.Obeys (Prompt kind key news fits)
      (fun later result => past <:+ later ∧ due news later = [] ∧
        ∀ object, result = .ok object → Secured key later start object)
      (if start.metadata.hasFinalizer cleanupFinalizer then pure start
        else Pass.ask (.updateMetadata kind start.withFinalizer)) past := by
  split
  · next hheld =>
    refine obeys_pure ⟨List.suffix_refl _, hdue, fun object hobject => ?_⟩
    obtain rfl := Except.ok.inj hobject
    exact .held hfound hlive hheld
  · refine obeys_ask ⟨hdue, hplain.fits⟩ fun reply => ⟨List.suffix_cons _ _, ?_, ?_⟩
    · exact (due_ofCall hdue).trans (hplain.plain reply)
    · rintro object rfl
      exact .given (hfound.cons _) hlive List.mem_cons_self

end Due

/-! ### Passes on requests -/

namespace Request

open Pass

variable {key : Key} {past : Deeds} {start request : Request} {status : RequestStatus}

/-- Nothing that a pass on a request does has to fit anything else. -/
abbrev Fits : Effect → Prop :=
  fun _ => True

/-- A pass on a request tells of the status of the request alone. -/
theorem isPlain_store {call : StoreCall} (h : (Effect.store call).patches .request = false) :
    Effect.IsPlain news Fits (.store call) where
  silent := nofun
  plain reply := by
    unfold news
    split
    · next heq =>
      cases heq
      simp [Effect.patches] at h
    · rfl
  fits := trivial

theorem isPlain_removeResponses (request : Request) :
    IsPlain news Fits request.removeResponses.run := by
  unfold removeResponses responses
  refine isPlain_bind (isPlain_ask (isPlain_store rfl)) fun responses => ?_
  refine isPlain_askEach fun call hcall => ?_
  obtain ⟨response, -, rfl⟩ := List.mem_map.1 hcall
  exact isPlain_store rfl

theorem isPlain_tally (request : Request) : IsPlain news Fits request.tally.run := by
  unfold tally responses
  exact isPlain_bind (isPlain_ask (isPlain_store rfl)) fun _ => .done _

theorem isPlain_createGrant (request : Request) (requestId : String) (approvers : List String) :
    IsPlain news Fits (request.createGrant requestId approvers).run := by
  have hopen : IsPlain news Fits request.openGrant.run := by
    refine .ask (isPlain_store rfl) fun reply => ?_
    cases reply with
    | ok grant => exact .done _
    | error failure =>
      change IsPlain _ _ (ite _ _ _ : Pass Grant).run
      split
      · exact .done _
      · refine isPlain_bind (isPlain_ask (isPlain_store rfl)) fun found => ?_
        cases found <;> exact .done _
  unfold createGrant
  refine isPlain_bind hopen fun grant => ?_
  split
  · exact isPlain_bind (isPlain_ask (isPlain_store rfl)) fun _ => .done _
  · exact .done _

theorem isPlain_follow (request : Request) (now : Instant) (status : RequestStatus)
    (votes : Option Tally) : IsPlain news Fits (request.follow now status votes) := by
  unfold follow
  split
  · exact .done _
  · exact .done _
  · exact .done _
  · split
    · exact .done _
    · refine .bind (isPlain_bind ?_ fun votes => isPlain_createGrant _ _ _) fun result => ?_
      · cases votes with
        | some votes => exact .done _
        | none => exact isPlain_tally request
      · cases result <;> exact .done _

/-- **Deciding gives nothing to tell of**, as long as the decision is not written. -/
theorem isPlain_decide (request : Request) (now : Instant) (status : RequestStatus) :
    IsPlain news Fits (request.decide now status) := by
  unfold decide
  refine .bind (.ask ⟨nofun, fun _ => rfl, trivial⟩ fun _ => .done _) fun snapshot => ?_
  split
  · exact .done _
  · dsimp only
    split
    · refine (isPlain_tally request).bind fun result => ?_
      cases result with
      | ok votes => exact isPlain_follow _ _ _ _
      | error failure => exact .done _
    · exact isPlain_follow _ _ _ _

theorem isPlain_begin (request : Request) (now : Instant) :
    IsPlain news Fits (request.begin now).run := by
  unfold begin
  dsimp only
  split
  · exact .ask ⟨nofun, fun _ => rfl, trivial⟩ fun _ => .done _
  · exact .done _

theorem isPlain_finalize (request : Request) : IsPlain news Fits request.finalize.run := by
  unfold finalize
  split
  · refine isPlain_bind (isPlain_removeResponses request) fun _ => ?_
    exact isPlain_bind (isPlain_toleratingMissing (isPlain_ask (isPlain_store rfl)))
      fun _ => .done _
  · exact .done _

/-- **Writing the status**: what it gives to tell of is told. -/
theorem persist_prompt (hsecured : Secured key past start request) (hdue : due news past = []) :
    (request.persist status).Obeys (Prompt .request key news Fits)
      (fun later _ => past <:+ later ∧ due news later = []) past := by
  have htell (stored : RequestStatus) {later : Deeds} (hsuffix : past <:+ later)
      (hlater : due news later = request.body.status.news stored) :
      (tellEach (request.transitions stored) >>= fun _ => pure stored).Obeys
        (Prompt .request key news Fits) (fun latest _ => past <:+ latest ∧ due news latest = [])
        later := by
    refine (obeys_tellEach_prompt (hlater.trans (request.map_action_transitions stored).symm) ?_
      (hsecured.mono hsuffix)).bind ?_ ?_
    · exact fun event => request.key_of_mem_transitions
    · rintro latest _ ⟨hlatest, hnone, -⟩
      exact obeys_pure ⟨hsuffix.trans hlatest, hnone⟩
    · rintro latest failure ⟨-, -, hok⟩
      cases hok
  unfold persist
  split
  · next hsame =>
    refine htell status (List.suffix_refl _) ?_
    rw [hdue, ← hsame, RequestStatus.news_self]
  · refine ⟨⟨hdue, trivial⟩, fun reply => ?_⟩
    cases reply with
    | ok updated => exact htell updated.body.status (List.suffix_cons _ _) (due_ofCall hdue)
    | error failure => exact ⟨List.suffix_cons _ _, due_ofCall hdue⟩

theorem expire_prompt (hsecured : Secured key past start request) (hdue : due news past = []) :
    (request.expire status).Obeys (Prompt .request key news Fits)
      (fun later _ => due news later = []) past := by
  unfold expire
  refine (persist_prompt hsecured hdue).bind ?_ fun _ _ h => h.2
  rintro later stored ⟨-, hlater⟩
  refine Obeys.mono (IsPlain.prompt ?_ hlater) fun _ _ h => h.2
  refine isPlain_bind (isPlain_removeResponses request) fun _ => ?_
  exact isPlain_bind (isPlain_toleratingMissing (isPlain_ask (isPlain_store rfl))) fun _ => .done _

theorem advance_prompt (hfound : Found key past start) (hlive : start.metadata.isDeleting = false)
    (hdue : due news past = []) :
    start.advance.Obeys (Prompt .request key news Fits) (fun later _ => due news later = [])
      past := by
  unfold advance
  refine ⟨⟨hdue, trivial⟩, fun now => ?_⟩
  have hclock : due news (⟨.clock, now⟩ :: past) = [] := hdue
  refine Pass.Obeys.bind ((isPlain_begin start now).prompt hclock) ?_ fun _ _ h => h.2
  rintro later status ⟨hsuffix, hlater⟩
  have hfound := (hfound.cons ⟨.clock, now⟩).mono hsuffix
  refine Pass.Obeys.bind (obeys_secure_prompt hfound hlive hlater (isPlain_store rfl)) ?_
    fun _ _ h => h.2.1
  rintro later request ⟨-, hlater, hsecured⟩
  have hsecured := hsecured request rfl
  split
  · exact expire_prompt hsecured hlater
  · refine obeys_bind (obeys_lift (((isPlain_decide request now status).prompt hlater).mono ?_))
    rintro latest ⟨status, outcome⟩ ⟨hsuffix, hlatest⟩
    refine (persist_prompt (hsecured.mono hsuffix) hlatest).bind ?_ fun _ _ h => h.2
    exact fun _ _ h => obeys_result h.2

/-- **Every pass on a request is prompt**, whatever it is answered. -/
theorem reconcile_prompt (key : Key) :
    (reconcile key).Obeys (Prompt .request key news Fits) (fun later _ => due news later = [])
      [] := by
  refine ⟨⟨rfl, trivial⟩, fun reply => ?_⟩
  have hlook : due news [.ofCall (.find .request key) reply] = [] := rfl
  match reply with
  | .error failure => exact hlook
  | .ok none => exact hlook
  | .ok (some start) =>
    change Pass.Obeys _ _ (if start.metadata.isDeleting then finalize start else advance start) _
    split
    · exact Obeys.mono ((isPlain_finalize start).prompt hlook) fun _ _ h => h.2
    · next hlive =>
      exact advance_prompt List.mem_cons_self (Bool.eq_false_iff.2 hlive) hlook

end Request

/-! ### Passes on grants -/

/-- One status records whatever another one does. -/
def GrantStatus.RecordsAll (old new : GrantStatus) : Prop :=
  ∀ artifact : Artifact, artifact.isRecorded old = true → artifact.isRecorded new = true

theorem GrantStatus.RecordsAll.refl (status : GrantStatus) : status.RecordsAll status :=
  fun _ => id

theorem GrantStatus.RecordsAll.recorded {old new : GrantStatus} (h : old.RecordsAll new)
    (artifact : Artifact) : old.RecordsAll (artifact.recorded new) :=
  fun other hother => Artifact.isRecorded_recorded.2 (.inl (h other hother))

namespace Grant

open Pass

variable {key : Key} {past : Deeds} {start grant : Grant} {status : GrantStatus}

/-- A status that a pass on a grant writes records whatever the one before it does. -/
def Fits : Effect → Prop
  | .store (.patchStatus .grant grant status) => GrantStatus.RecordsAll grant.body status
  | _ => True

/-- A pass on a grant tells of the status of the grant and of its removal. -/
theorem isPlain_store {call : StoreCall} (hpatch : (Effect.store call).patches .grant = false)
    (hdiscard : (Effect.store call).discards = false) :
    Effect.IsPlain news Fits (.store call) where
  silent := nofun
  plain reply := by
    unfold news
    split
    · next heq =>
      cases heq
      simp [Effect.patches] at hpatch
    · next heq =>
      cases heq
      cases hdiscard
    · next heq =>
      cases heq
      cases hdiscard
    · rfl
  fits := by
    unfold Fits
    split
    · next heq =>
      cases heq
      simp [Effect.patches] at hpatch
    · trivial

theorem isPlain_cleanup (grant : Grant) : IsPlain news Fits grant.cleanup.run := by
  refine isPlain_askEach fun call hcall => ?_
  rcases mem_removals hcall with ⟨kind, place, howned, rfl⟩ | rfl
  · refine isPlain_store rfl ?_
    cases kind <;> first | rfl | cases howned
  · exact isPlain_store rfl rfl

theorem isPlain_finalize (grant : Grant) : IsPlain news Fits grant.finalize.run := by
  unfold finalize
  split
  · refine isPlain_bind (isPlain_cleanup grant) fun _ => ?_
    unfold release
    exact isPlain_bind (isPlain_toleratingMissing (isPlain_ask (isPlain_store rfl rfl)))
      fun _ => .done _
  · exact .done _

/-- **Removing a grant that has run out**: once that is settled, it is told. -/
theorem expire_prompt (hsecured : Secured key past start grant) (hdue : due news past = []) :
    grant.expire.Obeys (Prompt .grant key news Fits) (fun later _ => due news later = []) past := by
  -- What follows once the finalizer is off.
  have hrest (released : Grant) {later : Deeds} (hsuffix : past <:+ later)
      (hlater : due news later = []) : Pass.Obeys (Prompt .grant key news Fits)
      (fun latest _ => due news latest = []) (do
        let _ ← (Pass.ask (.delete .grant grant.key)).toleratingMissing
        Pass.tell (grant.event released.body .grantExpired
          s!"granted for '{released.body.duration}'")
        return Outcome.done) later := by
    refine ⟨⟨hlater, trivial⟩, fun reply => ?_⟩
    have hdeleted : due news (.ofCall (.delete .grant grant.key) reply :: later) =
      news (.ofCall (.delete .grant grant.key) reply) := due_ofCall hlater
    -- The event is due, and nothing else.
    have htell (hnews : news (.ofCall (.delete .grant grant.key) reply) = [.grantExpired]) :
        Pass.Obeys (Prompt .grant key news Fits) (fun latest _ => due news latest = []) (do
          Pass.tell (grant.event released.body .grantExpired
            s!"granted for '{released.body.duration}'")
          return Outcome.done) (.ofCall (.delete .grant grant.key) reply :: later) := by
      rw [hnews] at hdeleted
      refine ⟨⟨by rw [hdeleted]; rfl, start, grant, (hsecured.mono hsuffix).cons _, rfl⟩,
        fun answer => ?_⟩
      exact congrArg List.tail hdeleted
    cases reply with
    | ok _ => exact htell rfl
    | error failure =>
      change Pass.Obeys _ _ (ExceptT.mk (pure (Failure.toleratingMissing _)) >>= fun _ => _) _
      refine obeys_bind (obeys_result ?_)
      unfold Failure.toleratingMissing
      dsimp only
      split
      · next hmissing => exact htell (if_pos hmissing)
      · next hother => exact hdeleted.trans (if_neg hother)
  unfold expire
  refine Pass.Obeys.bind ((isPlain_cleanup grant).prompt hdue) ?_ fun _ _ h => h.2
  rintro later _ ⟨hsuffix, hlater⟩
  split
  · have hrelease : IsPlain news Fits grant.release.run :=
      isPlain_toleratingMissing (isPlain_ask (isPlain_store rfl rfl))
    refine Pass.Obeys.bind (hrelease.prompt hlater) ?_ fun _ _ h => h.2
    rintro latest released ⟨hsuffix', hlatest⟩
    cases released with
    | none => exact obeys_pure hlatest
    | some released => exact hrest released (hsuffix.trans hsuffix') hlatest
  · exact hrest grant hsuffix hlater

/-- **Provisioning gives nothing to tell of**, as long as nothing is recorded; and what is to be
recorded goes beyond what was. -/
theorem provisionEach_prompt (artifacts : List Artifact) (hdue : due news past = [])
    (hall : GrantStatus.RecordsAll grant.body status) :
    (grant.provisionEach artifacts status).Obeys (Prompt .grant key news Fits)
      (fun later result => past <:+ later ∧ due news later = [] ∧
        GrantStatus.RecordsAll grant.body result.1) past := by
  induction artifacts generalizing past status with
  | nil => exact ⟨List.suffix_refl _, hdue, hall⟩
  | cons artifact rest ih =>
    unfold provisionEach
    split
    · exact ih hdue hall
    · split
      · exact ⟨List.suffix_refl _, hdue, hall⟩
      · exact ih hdue hall
      · next call hcreation =>
        obtain ⟨kind, object, hkind, rfl⟩ := create_of_creation hcreation
        have hask : (Pass.ask (.create kind object)).Obeys (Prompt .grant key news Fits)
            (fun later _ => past <:+ later ∧ due news later = []) past :=
          obeys_ask ⟨hdue, trivial⟩ fun _ => ⟨List.suffix_cons _ _, due_ofCall hdue⟩
        refine Program.obeys_bind (hask.mono fun later reply hlater => ?_)
        obtain ⟨hsuffix, hlater⟩ := hlater
        split
        · exact ⟨hsuffix, hlater, hall⟩
        · refine (ih hlater (hall.recorded artifact)).mono fun latest _ h => ⟨?_, h.2⟩
          exact hsuffix.trans h.1

/-- **Writing the status**: what it gives to tell of is told. -/
theorem persist_prompt (hsecured : Secured key past start grant) (hdue : due news past = [])
    (hall : GrantStatus.RecordsAll grant.body status) :
    (grant.persist status).Obeys (Prompt .grant key news Fits) (fun later _ => due news later = [])
      past := by
  have htell (stored : GrantStatus) {later : Deeds} (hsuffix : past <:+ later)
      (hlater : due news later = grant.body.news stored) :
      (tellEach (grant.provisionings stored) >>= fun _ => pure stored).Obeys
        (Prompt .grant key news Fits) (fun latest _ => due news latest = []) later := by
    refine (obeys_tellEach_prompt (hlater.trans (grant.map_action_provisionings stored).symm)
      (fun event => grant.key_of_mem_provisionings) (hsecured.mono hsuffix)).bind ?_ ?_
    · rintro latest _ ⟨-, hnone, -⟩
      exact obeys_pure hnone
    · rintro latest failure ⟨-, -, hok⟩
      cases hok
  unfold persist
  split
  · next hsame =>
    refine htell status (List.suffix_refl _) ?_
    rw [hdue, ← hsame, GrantStatus.news_self]
  · refine ⟨⟨hdue, hall⟩, fun reply => ?_⟩
    cases reply with
    | ok updated => exact htell updated.body (List.suffix_cons _ _) (due_ofCall hdue)
    | error failure => exact due_ofCall hdue

theorem advance_prompt (hfound : Found key past start) (hlive : start.metadata.isDeleting = false)
    (hdue : due news past = []) :
    (start.advance key).Obeys (Prompt .grant key news Fits) (fun later _ => due news later = [])
      past := by
  unfold advance
  refine Pass.Obeys.bind (obeys_secure_prompt hfound hlive hdue (isPlain_store rfl rfl)) ?_
    fun _ _ h => h.2.1
  rintro later grant ⟨-, hlater, hsecured⟩
  have hsecured := hsecured grant rfl
  split
  · exact obeys_pure hlater
  · refine ⟨⟨hlater, trivial⟩, fun now => ?_⟩
    have hclock : due news (⟨.clock, now⟩ :: later) = [] := hlater
    have hsecured := hsecured.cons ⟨.clock, now⟩
    change Pass.Obeys _ _ (ite _ _ _) _
    split
    · exact expire_prompt hsecured hclock
    · refine obeys_bind (obeys_lift ((provisionEach_prompt _ hclock (.refl _)).mono ?_))
      rintro latest ⟨status, provisioned⟩ ⟨hsuffix, hlatest, hall⟩
      refine obeys_bind (obeys_result ?_)
      cases accessEnd key now status with
      | error failure => exact hlatest
      | ok time =>
        have hended : GrantStatus.RecordsAll grant.body { status with expiresAt := some time } :=
          hall
        refine (persist_prompt (hsecured.mono hsuffix) hlatest hended).bind ?_ fun _ _ h => h
        intro last _ hlast
        exact obeys_bind (obeys_result (by cases provisioned <;> exact hlast))

/-- **Every pass on a grant is prompt**, whatever it is answered. -/
theorem reconcile_prompt (key : Key) :
    (reconcile key).Obeys (Prompt .grant key news Fits) (fun later _ => due news later = [])
      [] := by
  refine ⟨⟨rfl, trivial⟩, fun reply => ?_⟩
  have hlook : due news [.ofCall (.find .grant key) reply] = [] := rfl
  match reply with
  | .error failure => exact hlook
  | .ok none => exact hlook
  | .ok (some start) =>
    change Pass.Obeys _ _
      (if start.metadata.isDeleting then finalize start else advance start key) _
    split
    · exact Obeys.mono ((isPlain_finalize start).prompt hlook) fun _ _ h => h.2
    · next hlive => exact advance_prompt List.mem_cons_self (Bool.eq_false_iff.2 hlive) hlook

end Grant

end AccessBroker
