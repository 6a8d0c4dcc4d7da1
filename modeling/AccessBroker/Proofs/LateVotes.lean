import AccessBroker.Proofs.Cluster.Removals

/-!
# Votes on a request that is gone

The last pass on a request hears the responses to it, removes them one by one, and only then takes
off the finalizer that has kept the request stored. Nobody is kept from filing a response meanwhile,
so responses may be left when the request goes. What is left is exactly what has been filed since
the pass has heard the responses (`AccessBroker.Cluster.Reachable.left_iff`): whatever was there by
then was heard (`AccessBroker.MemoryStore.mem_listResponses`), and what was heard has been removed
by the pass, which takes the finalizer off only if it has (`AccessBroker.Target.Sweeps`).
-/

namespace AccessBroker

/-- A response names a request. -/
structure Response.Answers (response : Response) (request : Request) : Prop where
  scope : response.scope = request.scope
  name : response.body.requestRef = request.metadata.name

instance (response : Response) (request : Request) : Decidable (response.Answers request) :=
  decidable_of_iff
    (response.scope = request.scope ∧ response.body.requestRef = request.metadata.name)
    ⟨fun ⟨hscope, hname⟩ => ⟨hscope, hname⟩, fun ⟨hscope, hname⟩ => ⟨hscope, hname⟩⟩

/-! ### Sweeping -/

namespace Request

variable {key : Key} {past : Deeds} {start request : Request}

/-- What a pass has done that has found a request and heard the responses to it. -/
def hearing (key : Key) (request : Request) (responses : List Response) : Deeds :=
  [.ofCall (.listResponses request.scope request.metadata.name) (.ok responses),
    .ofCall (.find .request key) (.ok (some request))]

/-- A pass has found a request, heard the responses to it, and settled the removal of each. -/
def Swept (key : Key) (request : Request) (deeds : Deeds) : Prop :=
  ∃ responses, hearing key request responses <:+ deeds ∧
    ∀ response ∈ responses, Settled (.delete .response response.key) deeds

/-- Whoever only hears the responses to a request before a deletion has not deleted anything. -/
theorem not_settled_hearing {responses : List Response} {kind : Kind} {place : Key} :
    ¬Settled (.delete kind place) (hearing key request responses) := by
  rintro ⟨reply, hdeed, -⟩
  rcases List.mem_cons.1 hdeed with heq | hdeed
  · cases heq
  · cases List.mem_singleton.1 hdeed

end Request

/-- A pass on a target takes the finalizer off a request only if it has swept it. -/
def Target.Sweeps (target : Target) (past : Deeds) (effect : Effect) : Prop :=
  ∀ object : Request, effect = .store (.updateMetadata .request object) → object.isHeld = false →
    ∃ start : Request, object = start.withoutFinalizer ∧ Request.Swept target.key start past

namespace Request

open Pass

variable {key : Key} {past : Deeds} {start request : Request}

theorem finalize_sweeps
    (hfirst : past = [.ofCall (.find .request key) (.ok (some start))]) :
    start.finalize.Obeys (Target.request key).Sweeps (OnSuccess fun _ _ => True) past := by
  subst hfirst
  unfold finalize
  split
  · refine (removeResponses_sweeps (fun _ heq => by cases heq)
      fun _ _ _ heq => by cases heq).bind_onSuccess ?_
    rintro later _ ⟨responses, hsuffix, hsettled⟩
    refine obeys_tolerate (fun object heq _ => ?_) fun _ _ _ => obeys_pure trivial
    cases heq
    exact ⟨start, rfl, responses, hsuffix, hsettled⟩
  · exact obeys_pure trivial

/-- A pass that has found a request alive does not take its finalizer off. -/
theorem sweeps_of_live {effect : Effect} (hheeds : Heeds (Conduct key) past)
    (hallowed : Conduct key past effect) (hfound : Found key past start)
    (hlive : start.metadata.isDeleting = false) : (Target.request key).Sweeps past effect := by
  rintro object rfl hbare
  cases hallowed with
  | secure => exact absurd (hbare.symm.trans (Object.isHeld_withFinalizer _)) nofun
  | @release other hother hdeleting =>
    obtain rfl : other = start :=
      @Target.found_unique (.request key) past hheeds _ _ hother hfound
    exact absurd (hdeleting.symm.trans hlive) nofun

/-- **Every pass on a request sweeps it before it takes the finalizer off.** -/
theorem reconcile_sweeps (key : Key) :
    (reconcile key).Obeys (Target.request key).Sweeps (OnSuccess fun _ _ => True) [] := by
  refine ⟨fun _ heq => (by cases heq), fun reply => ?_⟩
  match reply with
  | .error failure => exact trivial
  | .ok none => exact trivial
  | .ok (some start) =>
    change Pass.Obeys _ _ (if start.metadata.isDeleting then finalize start else advance start) _
    split
    · exact finalize_sweeps rfl
    · next hlive =>
      have hlive := Bool.eq_false_iff.2 hlive
      have hobeys := @advance_obeys key _ start rfl hlive
      refine Program.Obeys.restrict hobeys ⟨.look rfl, trivial⟩ ?_
      exact fun later call hsuffix hheeds hallowed =>
        sweeps_of_live hheeds hallowed (hsuffix.mem List.mem_cons_self) hlive

end Request

/-- **Every pass sweeps a request before it takes its finalizer off.** -/
theorem Target.reconcile_sweeps (target : Target) :
    target.reconcile.Obeys target.Sweeps (fun _ _ => True) [] := by
  cases target with
  | request key => exact (Request.reconcile_sweeps key).mono fun _ _ _ => trivial
  | grant key =>
    refine Program.Obeys.restrict ((Grant.reconcile_obeys key).mono fun _ _ _ => trivial) trivial ?_
    rintro later call - - hallowed object rfl
    cases hallowed

namespace Cluster

variable {rules : Rules} {before cluster next : Cluster} {key : Key}

section Gone

variable {place : Key}

/-- **Every pass of a cluster sweeps.** -/
theorem Reachable.sweeps (h : Reachable rules cluster) {pass : Nat} {journal : Journal}
    (hjournal : cluster.journals[pass]? = some journal) :
    journal.rest.Obeys journal.target.Sweeps (fun _ _ => True) journal.deeds :=
  (h.keeps (Target.reconcile_sweeps _) hjournal rfl).2

/-! ### Responses -/

/-- What a move can make of the response under a key. -/
inductive ResponseTurn (cluster next : Cluster) (place : Key) : Prop
  /-- Nothing happens. -/
  | kept (same : next.store.find? .response place = cluster.store.find? .response place)
  /-- It has been filed. -/
  | filed {new : Response} (stored : next.store.find? .response place = some new)
    (fresh : new.metadata.uid ∉ cluster.issued) (live : new.metadata.isDeleting = false)
  /-- It has been marked as deleting. -/
  | marked {old : Response} {now : Time.Instant} {version : Nat}
    (found : cluster.store.find? .response place = some old) (held : old.metadata.finalizers ≠ [])
    (stored : next.store.find? .response place = some (old.marked now version))
  /-- It is gone. -/
  | gone (gone : next.store.find? .response place = none)

/-- **How responses turn**: nobody changes one. -/
theorem Reachable.responseTurn (h : Reachable rules cluster) (hmoved : Moved rules cluster next)
    (place : Key) : ResponseTurn cluster next place := by
  rcases h.turn hmoved .response place with hsame | ⟨id, call, reply, hauthor, hcalls, hturn⟩
  · exact .kept hsame
  · cases hturn with
    | kept hsame => exact .kept hsame
    | born _ htaken hstored => exact .filed hstored (hcalls.fresh_uid htaken) rfl
    | linked =>
      cases hauthor with
      | user hallowed => cases hallowed
      | @pass _ target _ _ hallowed => cases target <;> cases hallowed
    | @patched _ _ _ status => cases status
    | marked hfound hheld hstored => exact .marked hfound hheld hstored
    | released _ _ _ hgone | removed _ _ hgone | collected _ hgone => exact .gone hgone

/-- **A response stays as it was filed**, up to a deletion, which is not taken back. -/
theorem ResponseTurn.descends (h : ResponseTurn cluster next place) {new : Response}
    (hnew : next.store.find? .response place = some new) :
    new.metadata.uid ∉ cluster.issued ∨
      ∃ old : Response, cluster.store.find? .response place = some old ∧
        new.metadata.uid = old.metadata.uid ∧ new.body = old.body ∧
        (old.metadata.isDeleting = true → new.metadata.isDeleting = true) := by
  cases h with
  | kept hsame => exact .inr ⟨new, hsame.symm.trans hnew, rfl, rfl, id⟩
  | filed hstored hfresh =>
    obtain rfl := Option.some.inj (hstored.symm.trans hnew)
    exact .inl hfresh
  | marked hfound _ hstored =>
    obtain rfl := Option.some.inj (hstored.symm.trans hnew)
    exact .inr ⟨_, hfound, Object.uid_marked _ _ _, Object.body_marked _ _ _,
      fun _ => Object.isDeleting_marked _ _ _⟩
  | gone hgone => exact absurd (hgone.symm.trans hnew) nofun

/-- A response that is being deleted waits for a finalizer. -/
theorem Reachable.response_waits (h : Reachable rules cluster) {response : Response}
    (hresponse : cluster.store.find? .response place = some response)
    (hdeleting : response.metadata.isDeleting = true) : response.metadata.finalizers ≠ [] := by
  induction h generalizing response with
  | start =>
    rw [find?_start] at hresponse
    cases hresponse
  | @step cluster next move hbefore hmove ih =>
    cases hbefore.responseTurn (moved_of_move hmove) place with
    | kept hsame => exact ih (hsame.symm.trans hresponse) hdeleting
    | filed hstored _ hlive =>
      obtain rfl := Option.some.inj (hstored.symm.trans hresponse)
      exact absurd (hdeleting.symm.trans hlive) nofun
    | marked _ hheld hstored =>
      obtain rfl := Option.some.inj (hstored.symm.trans hresponse)
      rw [Object.finalizers_marked]
      exact hheld
    | gone hgone => exact absurd (hgone.symm.trans hresponse) nofun

/-! ### What was there when a pass heard the responses -/

/-- What is left of the responses that were stored earlier: each is as it was, and it is being
deleted if a pass has settled its removal since. -/
structure Sifted (before cluster : Cluster) (pass : Nat) : Prop where
  old {place : Key} {response : Response}
    (stored : cluster.store.find? .response place = some response)
    (issued : response.metadata.uid ∈ before.issued) :
    ∃ old : Response, before.store.find? .response place = some old ∧ response.body = old.body
  settled {place : Key} {response : Response} {journal : Journal}
    (stored : cluster.store.find? .response place = some response)
    (issued : response.metadata.uid ∈ before.issued)
    (current : cluster.journals[pass]? = some journal)
    (settled : Settled (.delete .response place) journal.deeds) :
    response.metadata.isDeleting = true

theorem Sifted.moved {pass : Nat} (h : Sifted before cluster pass)
    (hreachable : Reachable rules cluster) (hrules : rules.AreTruthful)
    (hmoved : Moved rules cluster next) (hissued : before.issued ⊆ cluster.issued) :
    Sifted before next pass where
  old hstored hold := by
    rcases (hreachable.responseTurn hmoved _).descends hstored with
      hfresh | ⟨between, hbetween, huid, hbody, -⟩
    · exact absurd (hissued hold) hfresh
    · obtain ⟨old, hfound, hsame⟩ := h.old hbetween (huid ▸ hold)
      exact ⟨old, hfound, hbody.trans hsame⟩
  settled {place response journal} hstored hold hjournal hsettled := by
    -- What was being deleted before still is.
    have hearlier {earlier : Journal} (hcurrent : cluster.journals[pass]? = some earlier)
        (hsettled : Settled (.delete .response place) earlier.deeds) :
        response.metadata.isDeleting = true := by
      rcases (hreachable.responseTurn hmoved place).descends hstored with
        hfresh | ⟨between, hbetween, huid, -, hdeleting⟩
      · exact absurd (hissued hold) hfresh
      · exact hdeleting (h.settled hbetween (huid ▸ hold) hcurrent hsettled)
    cases hmoved.fate hjournal with
    | kept hcurrent => exact hearlier hcurrent hsettled
    | started =>
      obtain ⟨reply, hdeed, -⟩ := hsettled
      cases hdeed
    | advanced hcurrent hserved =>
      obtain ⟨reply, hdeed, hfailure⟩ := hsettled
      rcases List.mem_cons.1 hdeed with heq | hdeed
      · cases heq
        exact hserved.isDeleting_of_settled hreachable.sound.keyed hrules hfailure hstored
      · exact hearlier hcurrent ⟨reply, hdeed, hfailure⟩

/-- **What a pass has heard is sifted** as long as the run goes on. -/
theorem Sifted.run {pass : Nat} {moves : List Move} {between : Cluster}
    (h : Sifted before between pass) (hreachable : Reachable rules between)
    (hrules : rules.AreTruthful) (hissued : before.issued ⊆ between.issued)
    (hrun : between.run rules moves = some cluster) : Sifted before cluster pass := by
  induction moves generalizing between with
  | nil =>
    obtain rfl := Option.some.inj hrun
    exact h
  | cons move rest ih =>
    obtain ⟨after, hmove, hrest⟩ := Option.bind_eq_some_iff.1 hrun
    have hmoved := moved_of_move hmove
    exact ih (h.moved hreachable hrules hmoved hissued) (hreachable.step move hmove)
      (fun _ hold => hmoved.issued_subset (hissued hold)) hrest

theorem Served.of_listResponses {scope : Scope} {request : String} {responses : List Response}
    {store : MemoryStore} {issued : List String}
    (h : Served rules cluster (.store (.listResponses scope request)) (Except.ok responses) store
      issued) :
    responses = cluster.store.listResponses scope request ∧ store = cluster.store := by
  cases h with
  | performed hcalls => exact hcalls.performed.of_listResponses

/-- A pass heard the responses to a request in an earlier cluster, and the run has gone on since. -/
def HeardIn (rules : Rules) (before cluster : Cluster) (pass : Nat) (key : Key)
    (request : Request) : Prop :=
  ∃ (after : Cluster) (move : Move) (moves : List Move) (past : Deeds) (responses : List Response),
    before.move rules move = some after ∧
    Acts before after pass (.request key) past
      (.listResponses request.scope request.metadata.name) (.ok responses) ∧
    after.run rules moves = some cluster

/-- **What a pass has heard is all that was there**, and it is sifted since. -/
theorem Reachable.sifted (h : Reachable rules cluster) (hrules : rules.AreTruthful) {pass : Nat}
    {journal : Journal} (hjournal : cluster.journals[pass]? = some journal)
    (htarget : journal.target = .request key) {request : Request} {responses : List Response}
    (hheard : Request.hearing key request responses <:+ journal.deeds) :
    ∃ before, Reachable rules before ∧ HeardIn rules before cluster pass key request ∧
      responses = before.store.listResponses request.scope request.metadata.name ∧
      Sifted before cluster pass := by
  obtain ⟨before, after, move, moves, hbefore, hmove, hacts, hrun⟩ := h.acted hjournal hheard
  have hmoved := moved_of_move hmove
  rw [htarget] at hacts
  refine ⟨before, hbefore, ⟨after, move, moves, _, responses, hmove, hacts, hrun⟩, ?_⟩
  obtain ⟨hresponses, hstore⟩ := (hacts.served hmoved).of_listResponses
  refine ⟨hresponses, Sifted.run ?_ (hbefore.step move hmove) hrules hmoved.issued_subset hrun⟩
  obtain ⟨rest, -, hacted⟩ := hacts
  constructor
  · intro place response hstored _
    exact ⟨response, hstore ▸ hstored, rfl⟩
  · intro place response journal _ _ hcurrent hsettled
    obtain rfl := Option.some.inj (hacted.symm.trans hcurrent)
    exact absurd hsettled Request.not_settled_hearing

/-- **A held request goes only by the last call of a pass on it that has swept it.** -/
theorem Reachable.swept_of_gone (h : Reachable rules cluster) (hmoved : Moved rules cluster next)
    {pass : Nat} {past : Deeds} {call : StoreCall} {reply : call.Reply}
    (hacts : Acts cluster next pass (.request key) past call reply) {request : Request}
    (hrequest : cluster.store.find? .request place = some request) (hheld : request.isHeld = true)
    (hgone : next.store.find? .request place = none) :
    place = key ∧ Request.Swept key request past ∧
      ∃ object : Request, call = .updateMetadata .request object := by
  have hsound := h.sound
  have hturn := (hacts.served hmoved).turn hsound.keyed .request place
  obtain ⟨rest, hcurrent, -⟩ := hacts
  have hsweeps : (Target.request key).Sweeps past (.store call) := (h.sweeps hcurrent).1
  rcases hturn with hsame | ⟨uid, hturn⟩
  · exact absurd (hrequest.symm.trans (hsame.symm.trans hgone)) nofun
  · cases hturn with
    | kept hsame => exact absurd (hrequest.symm.trans (hsame.symm.trans hgone)) nofun
    | born _ _ hstored | linked _ _ hstored | patched _ _ hstored | marked _ _ hstored =>
      exact absurd (hstored.symm.trans hgone) nofun
    | removed hfound hfree =>
      obtain rfl := Option.some.inj (hfound.symm.trans hrequest)
      exact absurd hfree (Object.finalizers_ne_nil hheld)
    | collected howned => cases howned
    | @released _ object old hfound hversion hspent =>
      obtain rfl := Option.some.inj (hfound.symm.trans hrequest)
      have hbare : object.isHeld = false := by
        have hempty := (Bool.and_eq_true_iff.1 hspent).2
        exact Bool.eq_false_iff.2 fun hheld =>
          Object.finalizers_ne_nil hheld (List.isEmpty_iff.1 hempty)
      obtain ⟨start, rfl, hswept⟩ := hsweeps object rfl hbare
      -- The request that the pass has found is the stored one.
      obtain ⟨responses, hheard, -⟩ := id hswept
      have hstart : Found key past start :=
        hheard.mem (List.mem_cons_of_mem _ (List.mem_singleton_self _))
      obtain rfl := hsound.recent start old (shown_of_found hcurrent hstart) hfound hversion
      have hkey := h.key_of_found hcurrent hstart
      exact ⟨hkey, hswept, _, rfl⟩

/-- **What is left of the votes on a request** that goes: where a pass takes a held request from the
store, it has heard the responses to it earlier in the run, and of the responses that name the
request and carry no finalizer exactly those are left that have been filed since. -/
theorem Reachable.left_iff (h : Reachable rules cluster) (hrules : rules.AreTruthful) {move : Move}
    (hmove : cluster.move rules move = some next) {pass : Nat} {past : Deeds} {call : StoreCall}
    {reply : call.Reply} (hacts : Acts cluster next pass (.request key) past call reply)
    {request : Request} (hrequest : cluster.store.find? .request place = some request)
    (hheld : request.isHeld = true) (hgone : next.store.find? .request place = none) :
    place = key ∧ ∃ before, Reachable rules before ∧
      HeardIn rules before cluster pass key request ∧
      ∀ (other : Key) (response : Response), response.Answers request →
        response.metadata.finalizers = [] →
        (next.store.find? .response other = some response ↔
          cluster.store.find? .response other = some response ∧
            response.metadata.uid ∉ before.issued) := by
  obtain ⟨rfl, ⟨responses, hheard, hsettled⟩, object, rfl⟩ :=
    h.swept_of_gone (moved_of_move hmove) hacts hrequest hheld hgone
  have hserved := hacts.served (moved_of_move hmove)
  obtain ⟨rest, hcurrent, -⟩ := hacts
  obtain ⟨before, hbefore, hearing, hresponses, hsifted⟩ := h.sifted hrules hcurrent rfl hheard
  refine ⟨rfl, before, hbefore, hearing, fun other response hanswers hfree => ?_⟩
  have hsame : next.store.find? .response other = cluster.store.find? .response other := by
    rcases hserved.turn h.sound.keyed .response other with hsame | ⟨id, hturn⟩
    · exact hsame
    · cases hturn with
      | kept hsame => exact hsame
      | collected howned => cases howned
  rw [hsame]
  refine ⟨fun hstored => ⟨hstored, fun hold => ?_⟩, And.left⟩
  obtain ⟨old, hfound, hbody⟩ := hsifted.old hstored hold
  have hplace : old.key = other := hbefore.sound.keyed _ _ _ hfound
  have hscope : old.scope = request.scope := by
    have hkey : old.key = response.key := hplace.trans (h.sound.keyed _ _ _ hstored).symm
    exact (congrArg Key.scope hkey).trans hanswers.scope
  have hname : old.body.requestRef = request.metadata.name := hbody ▸ hanswers.name
  -- What was there was heard, and so it has been removed.
  have hmember : old ∈ responses := by
    rw [hresponses, ← hscope, ← hname]
    exact before.store.mem_listResponses hfound
  have hsettled := hsettled old hmember
  rw [hplace] at hsettled
  exact h.response_waits hstored (hsifted.settled hstored hold hcurrent hsettled) hfree

end Gone

/-! ### A vote that was late -/

/-- Alice withdraws her request. The pass that lets go of it has removed the vote of bob, and is
about to take the finalizer off; meanwhile carol has approved the request, too. -/
def Scenario.late : List Move :=
  approved ++ .start (.request place) :: answers 0 11 ++
    .user (.delete .request place) "" :: .start (.request place) :: answers 1 3 ++
    [.user (.create .response (vote "c" "carol" .approved)) "carol"]

/-- The next call of the second pass takes the request, which is held, and leaves the vote of
carol. -/
def Scenario.LeavesVote (cluster : Cluster) : Prop :=
  ∃ done ∈ cluster.acting 1, done.1 = .request place ∧
    ∃ request ∈ cluster.store.find? .request place, request.isHeld = true ∧
      done.2.2.2.store.find? .request place = none ∧
      ∃ response ∈ done.2.2.2.store.find? .response ⟨some "team", "c"⟩,
        Response.Answers response request ∧ response.metadata.finalizers = []

instance : DecidablePred Scenario.LeavesVote := fun cluster =>
  inferInstanceAs (Decidable (∃ done ∈ cluster.acting 1, _))

theorem Scenario.exists_leavesVote :
    ∃ cluster, Reachable .faultless cluster ∧ LeavesVote cluster :=
  exists_reachable .faultless late (by decide +kernel)

/-- The vote of carol was filed after the pass had heard the votes. -/
theorem left_carol : ∃ (before cluster next : Cluster) (move : Move) (pass : Nat) (key : Key)
    (past : Deeds) (call : StoreCall) (reply : call.Reply) (request : Request)
    (response : Response), Rules.faultless.AreTruthful ∧ Reachable .faultless cluster ∧
    cluster.move .faultless move = some next ∧
    Acts cluster next pass (.request key) past call reply ∧
    cluster.store.find? .request key = some request ∧ request.isHeld = true ∧
    next.store.find? .request key = none ∧ HeardIn .faultless before cluster pass key request ∧
    next.store.find? .response ⟨some "team", "c"⟩ = some response ∧ response.Answers request ∧
    response.metadata.uid ∉ before.issued := by
  obtain ⟨cluster, hreachable, ⟨target, past, call, next⟩, hacting, rfl, request, hrequest, hheld,
    hgone, response, hresponse, hanswers, hfree⟩ := Scenario.exists_leavesVote
  obtain ⟨hmove, reply, hacts⟩ := acts_of_acting hacting
  have hrules : Rules.faultless.AreTruthful := Rules.areTruthful_faultless
  obtain ⟨-, before, -, hheard, hleft⟩ :=
    Reachable.left_iff hreachable hrules hmove hacts hrequest hheld hgone
  have hlate := ((hleft _ response hanswers hfree).1 hresponse).2
  exact ⟨before, cluster, next, _, 1, _, past, call, reply, request, response, hrules, hreachable,
    hmove, hacts, hrequest, hheld, hgone, hheard, hresponse, hanswers, hlate⟩

/-- **Votes may survive their request**: it is not so that whenever a pass takes a held request from
the store, no response is left that names it and carries no finalizer. -/
theorem not_without_votes : ¬∀ (cluster next : Cluster) (move : Move) (pass : Nat) (key : Key)
    (past : Deeds) (call : StoreCall) (reply : call.Reply) (request : Request) (other : Key)
    (response : Response), Reachable .faultless cluster → cluster.move .faultless move = some next →
    Acts cluster next pass (.request key) past call reply →
    cluster.store.find? .request key = some request → request.isHeld = true →
    next.store.find? .request key = none → response.Answers request →
    response.metadata.finalizers = [] → next.store.find? .response other ≠ some response := by
  intro h
  obtain ⟨cluster, hreachable, ⟨target, past, call, next⟩, hacting, rfl, request, hrequest, hheld,
    hgone, response, hresponse, hanswers, hfree⟩ := Scenario.exists_leavesVote
  obtain ⟨hmove, reply, hacts⟩ := acts_of_acting hacting
  exact h cluster next _ 1 _ past call reply request _ response hreachable hmove hacts hrequest
    hheld hgone hanswers hfree hresponse

end Cluster

end AccessBroker
