import AccessBroker.Proofs.Cluster.Secured

/-!
# How the objects of a cluster can turn

What a move can make of a stored object, and who does it. The lists for the kinds
(`AccessBroker.Cluster.RequestTurn`, `AccessBroker.Cluster.GrantTurn`,
`AccessBroker.Cluster.ArtifactTurn`) join what a call does to the store with what the rules
allow to users and the rules of conduct to passes. Every invariant of stored objects is an
induction over these lists. Where it is about what a grant says, and not about its metadata, four
cases are enough (`AccessBroker.Cluster.Becomes`).
-/

namespace AccessBroker

open MemoryStore

namespace Cluster

variable {rules : Rules} {cluster next : Cluster} {key : Key}

/-! ### Who makes a call -/

/-- A pass that was under way makes a call to the store. -/
def Acts (cluster next : Cluster) (place : Nat) (target : Target) (past : Deeds)
    (call : StoreCall) (reply : call.Reply) : Prop :=
  ∃ rest : call.Reply → Steps (Except Failure Outcome),
    cluster.journals[place]? = some ⟨target, past, .ask (.store call) rest⟩ ∧
      next.journals[place]? = some ⟨target, .ofCall call reply :: past, rest reply⟩

theorem Acts.shown_of_found {place : Nat} {target : Target} {past : Deeds} {call : StoreCall}
    {reply : call.Reply} {kind : Kind} {key : Key} {object : Object kind}
    (h : Acts cluster next place target past call reply) (hfound : Found key past object) :
    cluster.Shown object := by
  obtain ⟨rest, hcurrent, -⟩ := h
  exact Cluster.shown_of_found hcurrent hfound

theorem Acts.key_of_found {place : Nat} {target : Target} {past : Deeds} {call : StoreCall}
    {reply : call.Reply} {kind : Kind} {key : Key} {object : Object kind}
    (h : Acts cluster next place target past call reply) (hreachable : Reachable rules cluster)
    (hfound : Found key past object) : object.key = key := by
  obtain ⟨rest, hcurrent, -⟩ := h
  exact hreachable.key_of_found hcurrent hfound

theorem Acts.secured {place : Nat} {target : Target} {past : Deeds} {call : StoreCall}
    {reply : call.Reply} {start object : Object target.kind}
    (h : Acts cluster next place target past call reply) (hreachable : Reachable rules cluster)
    (hsecured : Secured target.key past start object) :
    object.key = target.key ∧ cluster.Shown object := by
  obtain ⟨rest, hcurrent, -⟩ := h
  exact ⟨(hreachable.faithful hcurrent hsecured).key,
    hreachable.shown_of_secured hcurrent hsecured⟩

/-- A pass that acts is served. -/
theorem Acts.served {place : Nat} {target : Target} {past : Deeds} {call : StoreCall}
    {reply : call.Reply} (h : Acts cluster next place target past call reply)
    (hmoved : Moved rules cluster next) :
    Served rules cluster (.store call) reply next.store next.issued := by
  obtain ⟨rest, hcurrent, hacted⟩ := h
  generalize hafter : Journal.mk target (.ofCall call reply :: past) (rest reply) = after at hacted
  cases hmoved.fate hacted with
  | kept hkept =>
    obtain rfl := Option.some.inj (hcurrent.symm.trans hkept)
    have hlength := congrArg (·.deeds.length) hafter
    simp at hlength
  | started => cases hafter
  | advanced _ hserved =>
    cases (List.cons.inj (congrArg Journal.deeds hafter)).1
    exact hserved

/-- What a call of a pass makes of a stored object: nothing, or what the store makes of it. -/
theorem Served.turn {call : StoreCall} {reply : call.Reply} {store : MemoryStore}
    {issued : List String} (h : Served rules cluster (.store call) reply store issued)
    (hkeyed : cluster.store.Keyed) (kind : Kind) (key : Key) :
    store.find? kind key = cluster.store.find? kind key ∨
      ∃ id, Turn cluster.now id cluster.store store call reply kind key := by
  cases h with
  | refused => exact .inl rfl
  | performed hcalls => exact .inr ⟨_, hcalls.performed.turn hkeyed kind key⟩

/-- A pass whose next call is answered acts. -/
theorem acts_of_answer {place : Nat} {target : Target} {past : Deeds} {call : StoreCall}
    {rest : call.Reply → Steps (Except Failure Outcome)} {reply : call.Reply} {id : String}
    {after : Cluster}
    (hcurrent : cluster.journals[place]? = some ⟨target, past, .ask (.store call) rest⟩)
    (hperform : cluster.perform id call = some (reply, after)) :
    cluster.move rules (.answer place id) =
        some (after.advance place target past (.store call) rest reply) ∧
      Acts cluster (after.advance place target past (.store call) rest reply) place target past
        call reply := by
  constructor
  · simp only [move, hcurrent, answer, hperform]
    rfl
  · obtain ⟨store, issued, rfl, -⟩ := calls_of_perform hperform
    refine ⟨rest, hcurrent, ?_⟩
    change (cluster.journals.set place _)[place]? = _
    rw [List.getElem?_set, if_pos rfl, if_pos (List.getElem?_eq_some_iff.1 hcurrent).1]

/-- What comes of it if the next call of a pass to the store is answered: whose pass makes which
call after which deeds, and the cluster then. -/
def acting (cluster : Cluster) (pass : Nat) : Option (Target × Deeds × StoreCall × Cluster) :=
  match cluster.journals[pass]? with
  | some ⟨target, past, .ask (.store call) rest⟩ =>
    (cluster.perform "" call).map fun (reply, after) =>
      (target, past, call, after.advance pass target past (.store call) rest reply)
  | _ => none

theorem acts_of_acting {pass : Nat} {target : Target} {past : Deeds} {call : StoreCall}
    (h : cluster.acting pass = some (target, past, call, next)) :
    cluster.move rules (.answer pass "") = some next ∧
      ∃ reply, Acts cluster next pass target past call reply := by
  unfold acting at h
  split at h
  · next hcurrent =>
    obtain ⟨⟨reply, after⟩, hperform, heq⟩ := Option.map_eq_some_iff.1 h
    cases heq
    obtain ⟨hmove, hacts⟩ := acts_of_answer hcurrent hperform
    exact ⟨hmove, reply, hacts⟩
  · cases h

/-- What a pass has done after a move, it had done before, or it has done with the move. -/
theorem Fate.acted {place : Nat} {journal : Journal} {past : Deeds} {call : StoreCall}
    {reply : call.Reply} (h : Fate rules cluster next place journal)
    (hjournal : next.journals[place]? = some journal)
    (hdeed : .ofCall call reply :: past <:+ journal.deeds) :
    (∃ earlier, cluster.journals[place]? = some earlier ∧ earlier.target = journal.target ∧
        .ofCall call reply :: past <:+ earlier.deeds) ∨
      Acts cluster next place journal.target past call reply := by
  cases h with
  | kept hcurrent => exact .inl ⟨journal, hcurrent, rfl, hdeed⟩
  | started => cases hdeed.mem List.mem_cons_self
  | advanced hcurrent =>
    rcases List.suffix_cons_iff.1 hdeed with heq | hdeed
    · obtain ⟨hlatest, rfl⟩ := List.cons.inj heq
      cases hlatest
      exact .inr ⟨_, hcurrent, hjournal⟩
    · exact .inl ⟨_, hcurrent, rfl, hdeed⟩

/-- **What a pass has done, it has done at some time**: in a cluster that came about then, and that
the run has gone on from. -/
theorem Reachable.acted (h : Reachable rules cluster) {place : Nat} {journal : Journal}
    (hjournal : cluster.journals[place]? = some journal) {past : Deeds} {call : StoreCall}
    {reply : call.Reply} (hdeed : .ofCall call reply :: past <:+ journal.deeds) :
    ∃ (before after : Cluster) (move : Move) (moves : List Move), Reachable rules before ∧
      before.move rules move = some after ∧
      Acts before after place journal.target past call reply ∧
      after.run rules moves = some cluster := by
  induction h generalizing journal with
  | start => cases hjournal
  | @step cluster next move hbefore hmove ih =>
    rcases ((moved_of_move hmove).fate hjournal).acted hjournal hdeed with
      ⟨earlier, hcurrent, htarget, hdeed⟩ | hacts
    · obtain ⟨before, after, first, moves, hreachable, hfirst, hacts, hrun⟩ := ih hcurrent hdeed
      refine ⟨before, after, first, moves ++ [move], hreachable, hfirst, htarget ▸ hacts, ?_⟩
      rw [run_append, hrun, Option.bind_some, run, hmove, Option.bind_some, run]
    · exact ⟨cluster, next, move, [], hbefore, hmove, hacts, rfl⟩

/-- A call is made to the store by a user, or by a pass. -/
inductive Author (rules : Rules) (cluster next : Cluster) (call : StoreCall)
    (reply : call.Reply) : Prop
  /-- A user makes it. -/
  | user (allowed : rules.allows call = true)
  /-- A pass makes it. -/
  | pass {place : Nat} {target : Target} {past : Deeds}
    (acts : Acts cluster next place target past call reply)
    (allowed : target.conduct past (.store call))

/-- **Whatever turns, turns by a call.** -/
theorem Reachable.turn (h : Reachable rules cluster) (hmoved : Moved rules cluster next)
    (kind : Kind) (key : Key) :
    next.store.find? kind key = cluster.store.find? kind key ∨
      ∃ (id : String) (call : StoreCall) (reply : call.Reply),
        Author rules cluster next call reply ∧
        cluster.Calls id call reply next.store next.issued ∧
        Turn cluster.now id cluster.store next.store call reply kind key := by
  have hkeyed := h.sound.keyed
  cases hmoved with
  | aside | started => exact .inl rfl
  | called hallowed hcalls =>
    exact .inr ⟨_, _, _, .user hallowed, hcalls, hcalls.performed.turn hkeyed kind key⟩
  | @advanced place target past effect rest reply store issued hcurrent hserved =>
    cases hserved with
    | refused | told | consulted | timed | drawn => exact .inl rfl
    | performed hcalls =>
      have hallowed := (h.orderly _ _ hcurrent).allowed
      refine .inr ⟨_, _, _, .pass ⟨rest, hcurrent, ?_⟩ hallowed, hcalls,
        hcalls.performed.turn hkeyed kind key⟩
      rw [List.getElem?_set, if_pos rfl, if_pos (List.getElem?_eq_some_iff.1 hcurrent).1]

/-- The store gives a new object an identifier that has never been given out. -/
theorem Calls.fresh_uid {id : String} {call : StoreCall} {reply : call.Reply}
    {store : MemoryStore} {issued : List String} (h : cluster.Calls id call reply store issued)
    (htaken : cluster.store.takesUid call = true) : id ∉ cluster.issued :=
  (isFresh_iff.1 (h.fresh htaken)).2

/-- What the deletion of an object comes to: it is gone, or stays and is deleting. -/
def Deleted {kind : Kind} (next : Cluster) (key : Key) (old : Object kind) : Prop :=
  old.metadata.finalizers = [] ∧ next.store.find? kind key = none ∨
    old.metadata.finalizers ≠ [] ∧ ∃ (now : Time.Instant) (version : Nat),
      next.store.find? kind key = some (old.marked now version)

/-- What is left of a deleted object is the same object. -/
theorem Deleted.left {kind : Kind} {old new : Object kind} (h : Deleted next key old)
    (hnew : next.store.find? kind key = some new) :
    new.metadata.uid = old.metadata.uid ∧ new.body = old.body := by
  rcases h with ⟨-, hgone⟩ | ⟨-, now, version, hstored⟩
  · rw [hgone] at hnew
    cases hnew
  · obtain rfl := Option.some.inj (hstored.symm.trans hnew)
    exact ⟨old.uid_marked now version, old.body_marked now version⟩

/-- What is left of a deleted object is deleting. -/
theorem Deleted.isDeleting {kind : Kind} {old new : Object kind} (h : Deleted next key old)
    (hnew : next.store.find? kind key = some new) : new.metadata.isDeleting = true := by
  rcases h with ⟨-, hgone⟩ | ⟨-, now, version, hstored⟩
  · cases hgone.symm.trans hnew
  · obtain rfl := Option.some.inj (hstored.symm.trans hnew)
    exact old.isDeleting_marked now version

/-! ### Requests -/

/-- What a move can make of the request under a key. -/
inductive RequestTurn (rules : Rules) (cluster next : Cluster) (key : Key) : Prop
  /-- Nothing happens. -/
  | kept (same : next.store.find? .request key = cluster.store.find? .request key)
  /-- A user has filed it. -/
  | filed {new : Request} (vacant : cluster.store.find? .request key = none)
    (stored : next.store.find? .request key = some new)
    (fresh : new.metadata.uid ∉ cluster.issued) (blank : new.body.status = {})
  /-- A pass has given it the finalizer. -/
  | secured {old new : Request} (found : cluster.store.find? .request key = some old)
    (stored : next.store.find? .request key = some new)
    (uid : new.metadata.uid = old.metadata.uid) (body : new.body = old.body)
    (live : old.metadata.isDeleting = false)
  /-- A pass has written its status. -/
  | written {place : Nat} {past : Deeds} {start request new : Request} {status : RequestStatus}
    (acts : Acts cluster next place (.request key) past (.patchStatus .request request status)
      (.ok new))
    (underway : Request.Underway key start request status past)
    (found : cluster.store.find? .request key = some request)
    (stored : next.store.find? .request key = some new)
    (uid : new.metadata.uid = request.metadata.uid)
    (body : new.body = ⟨request.body.spec, status⟩)
  /-- It is gone, or is being deleted. -/
  | parted {old : Request} (found : cluster.store.find? .request key = some old)
    (left : ∀ new, next.store.find? .request key = some new →
      new.metadata.uid = old.metadata.uid ∧ new.body = old.body ∧ new.metadata.isDeleting = true)

/-- **How requests turn.** -/
theorem Reachable.requestTurn (h : Reachable rules cluster) (hmoved : Moved rules cluster next)
    (key : Key) : RequestTurn rules cluster next key := by
  have hsound := h.sound
  rcases h.turn hmoved .request key with hsame | ⟨id, call, reply, hauthor, hcalls, hturn⟩
  · exact .kept hsame
  · cases hturn with
    | kept hsame => exact .kept hsame
    | born hvacant htaken hstored =>
      exact .filed hvacant hstored (hcalls.fresh_uid htaken) rfl
    | @linked _ object old hfound hversion hstored =>
      cases hauthor with
      | user hallowed => cases hallowed
      | @pass place target past hacts hallowed =>
        cases target with
        | grant other => cases hallowed
        | request other =>
          cases hallowed with
          | @secure start hstart hlive =>
            obtain rfl := hsound.recent start old (hacts.shown_of_found hstart)
              (Object.key_withFinalizer start ▸ hfound)
              (Object.version_withFinalizer start ▸ hversion)
            exact .secured hfound hstored rfl rfl hlive
          | @release start hstart hdeleting =>
            obtain rfl := hsound.recent start old (hacts.shown_of_found hstart) hfound hversion
            refine .parted hfound fun new hnew => ?_
            obtain rfl := Option.some.inj (hstored.symm.trans hnew)
            exact ⟨rfl, rfl, hdeleting⟩
    | @released _ object old hfound hversion hspent hgone =>
      refine .parted hfound fun new hnew => ?_
      rw [hgone] at hnew
      cases hnew
    | @patched _ base old status hfound hversion hstored =>
      cases hauthor with
      | user hallowed => cases hallowed
      | @pass place target past hacts hallowed =>
        cases target with
        | grant other => cases hallowed
        | request other =>
          cases hallowed with
          | @write start _ _ hunderway =>
            have hkey : @Object.key .request _ = other := (hacts.secured h hunderway.secured).1
            have hshown := (hacts.secured h hunderway.secured).2
            subst hkey
            obtain rfl := hsound.recent _ old hshown hfound hversion
            exact .written hacts hunderway hfound hstored rfl rfl
    | @marked _ _ old hfound hheld hstored =>
      refine .parted hfound fun new hnew => ?_
      obtain rfl := Option.some.inj (hstored.symm.trans hnew)
      exact ⟨Object.uid_marked _ _ _, Object.body_marked _ _ _, Object.isDeleting_marked _ _ _⟩
    | removed hfound _ hgone =>
      refine .parted hfound fun new hnew => ?_
      rw [hgone] at hnew
      cases hnew
    | collected howned => cases howned

/-- How much of a request stays as it is: what was asked for, the identifier once there is one,
and an approval. Nor is a deletion taken back. -/
structure Descends (old new : Request) : Prop where
  uid : new.metadata.uid = old.metadata.uid
  spec : new.body.spec = old.body.spec
  named : old.body.status.requestId ≠ "" →
    new.body.status.requestId = old.body.status.requestId
  approved : old.body.status.requestId ≠ "" → old.body.status.state = .approved →
    new.body.status.state = .approved
  deleting : old.metadata.isDeleting = true → new.metadata.isDeleting = true

theorem Descends.of_body {old new : Request} (huid : new.metadata.uid = old.metadata.uid)
    (hbody : new.body = old.body)
    (hdeleting : old.metadata.isDeleting = true → new.metadata.isDeleting = true) :
    Descends old new where
  uid := huid
  spec := by rw [hbody]
  named _ := by rw [hbody]
  approved _ happroved := by rwa [hbody]
  deleting := hdeleting

theorem Descends.refl (request : Request) : Descends request request :=
  .of_body rfl rfl id

theorem Descends.trans {first second third : Request} (h : Descends first second)
    (h' : Descends second third) : Descends first third where
  uid := h'.uid.trans h.uid
  spec := h'.spec.trans h.spec
  named hnamed := by
    have hid := h.named hnamed
    exact (h'.named (hid ▸ hnamed)).trans hid
  approved hnamed happroved :=
    h'.approved ((h.named hnamed) ▸ hnamed) (h.approved hnamed happroved)
  deleting hdeleting := h'.deleting (h.deleting hdeleting)

/-- **A request stays the same object, with what was asked for, its identifier and an
approval**, as long as it is stored. -/
theorem Reachable.request_descends (h : Reachable rules cluster) (hmoved : Moved rules cluster next)
    {new : Request} (hnew : next.store.find? .request key = some new) :
    cluster.store.find? .request key = none ∧ new.metadata.uid ∉ cluster.issued ∨
      ∃ old : Request, cluster.store.find? .request key = some old ∧ Descends old new := by
  cases h.requestTurn hmoved key with
  | kept hsame => exact .inr ⟨new, hsame.symm.trans hnew, .refl new⟩
  | filed hvacant hstored hfresh =>
    obtain rfl := Option.some.inj (hstored.symm.trans hnew)
    exact .inl ⟨hvacant, hfresh⟩
  | secured hfound hstored huid hbody hlive =>
    obtain rfl := Option.some.inj (hstored.symm.trans hnew)
    refine .inr ⟨_, hfound, .of_body huid hbody fun hdeleting => ?_⟩
    rw [hlive] at hdeleting
    cases hdeleting
  | parted hfound hleft =>
    obtain ⟨huid, hbody, hdeleting⟩ := hleft new hnew
    exact .inr ⟨_, hfound, .of_body huid hbody fun _ => hdeleting⟩
  | @written place past start request written status hacts hunderway hfound hstored huid hbody =>
    obtain rfl := Option.some.inj (hstored.symm.trans hnew)
    obtain ⟨rest, hcurrent, -⟩ := hacts
    have hfaithful := h.faithful_request hcurrent rfl hunderway.secured
    refine .inr ⟨request, hfound, huid, by rw [hbody], fun hnamed => ?_, fun hnamed hstate => ?_,
      fun hdeleting => ?_⟩
    · rw [hfaithful.body] at hnamed ⊢
      rcases hunderway.holds with ⟨-, hid⟩ | ⟨hunnamed, -⟩
      · rw [hbody, hid]
      · exact absurd hunnamed hnamed
    · rw [hfaithful.body] at hnamed hstate
      rw [hbody]
      exact hunderway.kept hnamed hstate
    · rw [hfaithful.live] at hdeleting
      cases hdeleting

/-- **What is true of new requests, and stays true where a pass writes a status, is true of every
request that is shown.** -/
theorem Reachable.request_induction_acts {P : Cluster → Key → String → RequestBody → Prop}
    (hmoves : ∀ {cluster next : Cluster} {key : Key} {uid : String} {body : RequestBody},
      Moved rules cluster next → P cluster key uid body → P next key uid body)
    (hfiled : ∀ (cluster : Cluster) (key : Key) (uid : String) (spec : RequestSpec),
      P cluster key uid ⟨spec, {}⟩)
    (hwritten : ∀ {cluster next : Cluster} {place : Nat} {key : Key} {past : Deeds}
      {start request new : Request} {status : RequestStatus}, Reachable rules cluster →
      Moved rules cluster next →
      Acts cluster next place (.request key) past (.patchStatus .request request status)
        (.ok new) →
      Request.Underway key start request status past →
      P cluster key start.metadata.uid start.body →
      P next key request.metadata.uid ⟨request.body.spec, status⟩)
    (h : Reachable rules cluster) {request : Request} (hshown : cluster.Shown request) :
    P cluster request.key request.metadata.uid request.body := by
  induction h generalizing request with
  | start => exact absurd hshown (not_shown_start request)
  | @step cluster next move hbefore hmoved ih =>
    have hmoved := moved_of_move hmoved
    have hsound := hbefore.sound
    -- A request that was stored before, up to the finalizer and a deletion.
    have hkept {old : Request} (hold : cluster.store.find? .request request.key = some old)
        (huid : request.metadata.uid = old.metadata.uid) (hbody : request.body = old.body) :
        P next request.key request.metadata.uid request.body := by
      rw [huid, hbody, ← hsound.keyed _ _ _ hold]
      exact hmoves hmoved (ih (.inl (hsound.stores hold)))
    rcases hmoved.shown hsound.keyed hshown with hearlier | hstores
    · exact hmoves hmoved (ih hearlier)
    · cases hbefore.requestTurn hmoved request.key with
      | kept hsame => exact hkept (hsame.symm.trans hstores) rfl rfl
      | @filed new _ hstored _ hblank =>
        obtain rfl := Option.some.inj (hstored.symm.trans hstores)
        have hbody : new.body = ⟨new.body.spec, {}⟩ := by rw [← hblank]
        rw [hbody]
        exact hfiled _ _ _ _
      | secured hfound hstored huid hbody =>
        obtain rfl := Option.some.inj (hstored.symm.trans hstores)
        exact hkept hfound huid hbody
      | parted hfound hleft =>
        obtain ⟨huid, hbody, -⟩ := hleft request hstores
        exact hkept hfound huid hbody
      | @written place past start base new status hacts hunderway hfound hstored huid hbody =>
        obtain rfl := Option.some.inj (hstored.symm.trans hstores)
        have hstart := hunderway.secured.found
        have hseen := ih (hacts.shown_of_found hstart)
        rw [hacts.key_of_found hbefore hstart] at hseen
        rw [huid, hbody]
        exact hwritten hbefore hmoved hacts hunderway hseen

/-- It is enough that the pass makes it true before it writes. -/
theorem Reachable.request_induction {P : Cluster → Key → String → RequestBody → Prop}
    (hmoves : ∀ {cluster next : Cluster} {key : Key} {uid : String} {body : RequestBody},
      Moved rules cluster next → P cluster key uid body → P next key uid body)
    (hfiled : ∀ (cluster : Cluster) (key : Key) (uid : String) (spec : RequestSpec),
      P cluster key uid ⟨spec, {}⟩)
    (hwritten : ∀ {cluster : Cluster} {place : Nat} {journal : Journal} {key : Key}
      {start request : Request} {status : RequestStatus}, Reachable rules cluster →
      cluster.journals[place]? = some journal → journal.target = .request key →
      Request.Underway key start request status journal.deeds →
      P cluster key start.metadata.uid start.body →
      P cluster key request.metadata.uid ⟨request.body.spec, status⟩)
    (h : Reachable rules cluster) {request : Request} (hshown : cluster.Shown request) :
    P cluster request.key request.metadata.uid request.body :=
  h.request_induction_acts (P := P) hmoves hfiled
    (fun h hmoved ⟨_, hcurrent, _⟩ hunderway hstart =>
      hmoves hmoved (hwritten h hcurrent rfl hunderway hstart)) hshown

/-! ### Grants -/

/-- What a move can make of the grant under a key. -/
inductive GrantTurn (rules : Rules) (cluster next : Cluster) (key : Key) : Prop
  /-- Nothing happens. -/
  | kept (same : next.store.find? .grant key = cluster.store.find? .grant key)
  /-- A pass has created it, empty. -/
  | launched {new : Grant} (vacant : cluster.store.find? .grant key = none)
    (stored : next.store.find? .grant key = some new)
    (fresh : new.metadata.uid ∉ cluster.issued) (blank : new.body = ({} : GrantStatus))
    (live : new.metadata.isDeleting = false) (bare : new.metadata.finalizers = [])
  /-- A pass on a request has filled it in. -/
  | filled {place : Nat} {past : Deeds} {start request : Request} {status : RequestStatus}
    {entry : PolicyEntry} {base : Grant} {approvers : List String} {version : Nat}
    (acts : Acts cluster next place (.request key) past
      (.patchStatus .grant base (request.grantStatus status.requestId approvers))
      (.ok (base.patched (request.grantStatus status.requestId approvers) version)))
    (underway : Request.Underway key start request status past)
    (approved : status.state = .approved) (consulted : Request.Consulted request entry past)
    (opened : Request.Opened request base past) (blank : base.body.isPopulated = false)
    (found : cluster.store.find? .grant key = some base)
    (stored : next.store.find? .grant key =
      some (base.patched (request.grantStatus status.requestId approvers) version))
  /-- A pass has recorded how far it has come. -/
  | recorded {place : Nat} {past : Deeds} {start grant : Grant} {status : GrantStatus}
    {version : Nat}
    (acts : Acts cluster next place (.grant key) past (.patchStatus .grant grant status)
      (.ok (grant.patched status version)))
    (tended : Grant.Tended key start grant past) (terms : status.terms = grant.body.terms)
    (found : cluster.store.find? .grant key = some grant)
    (stored : next.store.find? .grant key = some (grant.patched status version))
  /-- A pass has given it the finalizer. -/
  | secured {place : Nat} {past : Deeds} {start : Grant} {version : Nat}
    (acts : Acts cluster next place (.grant key) past (.updateMetadata .grant start.withFinalizer)
      (.ok (start.withLinksOf start.withFinalizer version)))
    (first : past = [.ofCall (.find .grant key) (.ok (some start))])
    (live : start.metadata.isDeleting = false)
    (found : cluster.store.find? .grant key = some start)
    (stored : next.store.find? .grant key =
      some (start.withLinksOf start.withFinalizer version))
  /-- A pass has taken the finalizer off. -/
  | released {place : Nat} {past : Deeds} {grant : Grant} {version : Nat}
    (acts : Acts cluster next place (.grant key) past
      (.updateMetadata .grant grant.withoutFinalizer)
      (.ok (grant.withLinksOf grant.withoutFinalizer version)))
    (based : Grant.Based key grant past) (cleaned : Grant.Cleaned grant past)
    (found : cluster.store.find? .grant key = some grant)
    (left : next.store.find? .grant key = none ∧ grant.metadata.isDeleting = true ∨
      next.store.find? .grant key = some (grant.withLinksOf grant.withoutFinalizer version))
  /-- A pass has removed it, or marked it as deleting. -/
  | discarded {place : Nat} {past : Deeds} {start grant old : Grant}
    (acts : Acts cluster next place (.grant key) past (.delete .grant key) (.ok ()))
    (freed : Grant.Freed key start grant past) (cleaned : Grant.Cleaned grant past)
    (found : cluster.store.find? .grant key = some old)
    (left : Deleted next key old)
  /-- A user has removed it, or marked it as deleting. -/
  | revoked {old : Grant} (allowed : rules.revocations = true)
    (found : cluster.store.find? .grant key = some old) (left : Deleted next key old)

/-- The grant that a pass on a request was given is shown. -/
theorem shown_of_opened {place : Nat} {journal : Journal} {request : Request} {grant : Grant}
    (hjournal : cluster.journals[place]? = some journal)
    (hopened : Request.Opened request grant journal.deeds) : cluster.Shown grant := by
  rcases hopened with hcreated | hfound
  · exact shown_of_gives hjournal hcreated .created
  · exact Cluster.shown_of_found hjournal hfound

/-- The grant that a pass on a request was given lies under the key of the request. -/
theorem Acts.opened {place : Nat} {target : Target} {past : Deeds} {call : StoreCall}
    {reply : call.Reply} {request : Request} {grant : Grant}
    (h : Acts cluster next place target past call reply) (hreachable : Reachable rules cluster)
    (hopened : Request.Opened request grant past) :
    grant.key = request.key ∧ cluster.Shown grant := by
  obtain ⟨rest, hcurrent, -⟩ := h
  refine ⟨?_, shown_of_opened hcurrent hopened⟩
  rcases hopened with hcreated | hfound
  · exact hreachable.key_of_created hcurrent hcreated
  · exact hreachable.key_of_found hcurrent hfound

/-- The grant that a pass works on lies under its key. -/
theorem Reachable.of_based (h : Reachable rules cluster) {place : Nat} {journal : Journal}
    {grant : Grant} (hjournal : cluster.journals[place]? = some journal)
    (htarget : journal.target = .grant key) (hbased : Grant.Based key grant journal.deeds) :
    grant.key = key ∧ cluster.Shown grant := by
  obtain ⟨target, deeds, rest⟩ := journal
  subst htarget
  rcases hbased with ⟨start, hsecured⟩ | ⟨hfound, -⟩
  · exact ⟨(h.faithful_grant hjournal rfl hsecured).key, h.shown_of_secured hjournal hsecured⟩
  · exact ⟨h.key_of_found hjournal hfound, Cluster.shown_of_found hjournal hfound⟩

theorem Acts.based {place : Nat} {key : Key} {past : Deeds} {call : StoreCall}
    {reply : call.Reply} {grant : Grant}
    (h : Acts cluster next place (.grant key) past call reply)
    (hreachable : Reachable rules cluster) (hbased : Grant.Based key grant past) :
    grant.key = key ∧ cluster.Shown grant := by
  obtain ⟨rest, hcurrent, -⟩ := h
  exact hreachable.of_based hcurrent rfl hbased

/-- Grants are created empty. -/
theorem Author.blank_of_created {grant : Grant} {reply : Except Failure Grant}
    (h : Author rules cluster next (.create .grant grant) reply) :
    ∃ place : Key, grant = ⟨.ofKey place, {}⟩ := by
  cases h with
  | user hallowed => cases hallowed
  | @pass place target past hacts hallowed =>
    cases target with
    | grant other =>
      cases hallowed with
      | provide _ _ hcreation =>
        obtain ⟨kind, created, howned, heq⟩ := Grant.create_of_creation hcreation
        cases heq
        cases howned
    | request other =>
      cases hallowed with
      | launch => exact ⟨_, rfl⟩

/-- The finalizers of a grant are changed by passes on it, which secure the grant or let go of
it. -/
theorem Reachable.acts_of_linked (h : Reachable rules cluster) {object : Grant}
    {reply : Except Failure Grant}
    (hauthor : Author rules cluster next (.updateMetadata .grant object) reply) :
    ∃ (place : Nat) (past : Deeds) (grant : Grant), cluster.Shown grant ∧
      Acts cluster next place (.grant grant.key) past (.updateMetadata .grant object) reply ∧
      (object = grant.withFinalizer ∧
          past = [.ofCall (.find .grant grant.key) (.ok (some grant))] ∧
          grant.metadata.isDeleting = false ∨
        object = grant.withoutFinalizer ∧ Grant.Based grant.key grant past ∧
          Grant.Cleaned grant past) := by
  cases hauthor with
  | user hallowed => cases hallowed
  | @pass place target past hacts hallowed =>
    cases target with
    | request other => cases hallowed
    | grant other =>
      cases hallowed with
      | @secure start hfirst hlive =>
        have hstart : Found other past start := hfirst ▸ List.mem_cons_self
        obtain rfl : start.key = other := hacts.key_of_found h hstart
        exact ⟨place, past, start, hacts.shown_of_found hstart, hacts, .inl ⟨rfl, hfirst, hlive⟩⟩
      | @release grant hbased hcleaned =>
        obtain ⟨hkey, hshown⟩ := hacts.based h hbased
        subst hkey
        exact ⟨place, past, grant, hshown, hacts, .inr ⟨rfl, hbased, hcleaned⟩⟩

/-- The status of a grant is written by passes on requests, which fill it in, and by passes on the
grant. -/
theorem Reachable.grantTurn_of_patched (h : Reachable rules cluster) {base old : Grant}
    {status : GrantStatus} {version : Nat}
    (hauthor : Author rules cluster next (.patchStatus .grant base status)
      (.ok (old.patched status version)))
    (hfound : cluster.store.find? .grant base.key = some old)
    (hversion : old.metadata.version = base.metadata.version)
    (hstored : next.store.find? .grant base.key = some (old.patched status version)) :
    GrantTurn rules cluster next base.key := by
  cases hauthor with
  | user hallowed => cases hallowed
  | @pass place target past hacts hallowed =>
    cases target with
    | request other =>
      cases hallowed with
      | @fill start request _ _ _ hunderway happroved hconsulted hopened hblank approvers =>
        obtain rfl : request.key = other := (hacts.secured h hunderway.secured).1
        obtain ⟨hplace, hshown⟩ := hacts.opened h hopened
        obtain rfl := h.sound.recent _ old hshown hfound hversion
        rw [hplace] at hfound hstored ⊢
        exact .filled hacts hunderway happroved hconsulted hopened hblank hfound hstored
    | grant other =>
      cases hallowed with
      | record htended hterms =>
        obtain ⟨hkey, hshown⟩ := hacts.based h htended.based
        subst hkey
        obtain rfl := h.sound.recent _ old hshown hfound hversion
        exact .recorded hacts htended hterms hfound hstored

/-- Grants are deleted by users who may, and by passes that have cleaned up. -/
theorem Reachable.grantTurn_of_deleted (h : Reachable rules cluster) {old : Grant}
    (hauthor : Author rules cluster next (.delete .grant key) (.ok ()))
    (hfound : cluster.store.find? .grant key = some old) (hleft : Deleted next key old) :
    GrantTurn rules cluster next key := by
  cases hauthor with
  | user hallowed => exact .revoked hallowed hfound hleft
  | @pass place target past hacts hallowed =>
    cases target with
    | request other => cases hallowed
    | grant other =>
      cases hallowed with
      | remove _ hremoval =>
        rcases Grant.mem_removals hremoval with ⟨kind, place, howned, heq⟩ | heq
        · cases heq
          cases howned
        · cases heq
      | discard hfreed hcleaned =>
        have hkey : @Object.key .grant _ = other := (hacts.secured h hfreed.secured).1
        subst hkey
        exact .discarded hacts hfreed hcleaned hfound hleft

/-- **How grants turn.** -/
theorem Reachable.grantTurn (h : Reachable rules cluster) (hmoved : Moved rules cluster next)
    (key : Key) : GrantTurn rules cluster next key := by
  have hsound := h.sound
  rcases h.turn hmoved .grant key with hsame | ⟨id, call, reply, hauthor, hcalls, hturn⟩
  · exact .kept hsame
  · cases hturn with
    | kept hsame => exact .kept hsame
    | born hvacant htaken hstored =>
      obtain ⟨place, rfl⟩ := hauthor.blank_of_created
      exact .launched hvacant hstored (hcalls.fresh_uid htaken) rfl rfl rfl
    | @linked _ object old hfound hversion hstored =>
      obtain ⟨place, past, grant, hshown, hacts, hlinks⟩ := h.acts_of_linked hauthor
      rcases hlinks with ⟨rfl, hfirst, hlive⟩ | ⟨rfl, hbased, hcleaned⟩
      · rw [Object.key_withFinalizer] at hfound hstored ⊢
        rw [Object.version_withFinalizer] at hversion
        obtain rfl := hsound.recent grant old hshown hfound hversion
        exact .secured hacts hfirst hlive hfound hstored
      · obtain rfl := hsound.recent grant old hshown hfound hversion
        exact .released hacts hbased hcleaned hfound (.inr hstored)
    | @released _ object old hfound hversion hspent hgone =>
      obtain ⟨place, past, grant, hshown, hacts, hlinks⟩ := h.acts_of_linked hauthor
      rcases hlinks with ⟨rfl, -⟩ | ⟨rfl, hbased, hcleaned⟩
      · rw [Object.isSpent_withLinksOf_withFinalizer] at hspent
        cases hspent
      · obtain rfl := hsound.recent grant old hshown hfound hversion
        have hdeleting := (Bool.and_eq_true_iff.1 hspent).1
        exact .released hacts hbased hcleaned hfound (.inl ⟨hgone, hdeleting⟩)
    | patched hfound hversion hstored =>
      exact h.grantTurn_of_patched hauthor hfound hversion hstored
    | @marked _ _ old hfound hheld hstored =>
      exact h.grantTurn_of_deleted hauthor hfound (.inr ⟨hheld, _, _, hstored⟩)
    | @removed _ _ old hfound hfree hgone =>
      exact h.grantTurn_of_deleted hauthor hfound (.inl ⟨hfree, hgone⟩)
    | collected howned => cases howned

/-- How a grant that is stored after a move has come to say what it says. -/
inductive Becomes (cluster next : Cluster) (key : Key) : Grant → Prop
  /-- It was stored before, up to the finalizer and a deletion. -/
  | kept {old new : Grant} (found : cluster.store.find? .grant key = some old)
    (uid : new.metadata.uid = old.metadata.uid) (body : new.body = old.body)
    (deleting : old.metadata.isDeleting = true → new.metadata.isDeleting = true) :
    Becomes cluster next key new
  /-- A pass has created it, empty. -/
  | launched {new : Grant} (vacant : cluster.store.find? .grant key = none)
    (fresh : new.metadata.uid ∉ cluster.issued) (blank : new.body = ({} : GrantStatus)) :
    Becomes cluster next key new
  /-- A pass on a request has filled it in. -/
  | filled {place : Nat} {past : Deeds} {start request : Request} {status : RequestStatus}
    {base : Grant} {approvers : List String} {version : Nat}
    (acts : Acts cluster next place (.request key) past
      (.patchStatus .grant base (request.grantStatus status.requestId approvers))
      (.ok (base.patched (request.grantStatus status.requestId approvers) version)))
    (underway : Request.Underway key start request status past)
    (blank : base.body.isPopulated = false) (found : cluster.store.find? .grant key = some base) :
    Becomes cluster next key (base.patched (request.grantStatus status.requestId approvers) version)
  /-- A pass has recorded how far it has come. -/
  | recorded {place : Nat} {past : Deeds} {start grant : Grant} {status : GrantStatus}
    {version : Nat}
    (acts : Acts cluster next place (.grant key) past (.patchStatus .grant grant status)
      (.ok (grant.patched status version)))
    (tended : Grant.Tended key start grant past) (terms : status.terms = grant.body.terms)
    (found : cluster.store.find? .grant key = some grant) :
    Becomes cluster next key (grant.patched status version)

/-- Most turns leave what a grant says as it is. -/
theorem GrantTurn.becomes {new : Grant} (h : GrantTurn rules cluster next key)
    (hnew : next.store.find? .grant key = some new) : Becomes cluster next key new := by
  cases h with
  | kept hsame => exact .kept (hsame.symm.trans hnew) rfl rfl id
  | launched hvacant hstored hfresh hblank =>
    obtain rfl := Option.some.inj (hstored.symm.trans hnew)
    exact .launched hvacant hfresh hblank
  | filled hacts hunderway _ _ _ hblank hfound hstored =>
    obtain rfl := Option.some.inj (hstored.symm.trans hnew)
    exact .filled hacts hunderway hblank hfound
  | recorded hacts htended hterms hfound hstored =>
    obtain rfl := Option.some.inj (hstored.symm.trans hnew)
    exact .recorded hacts htended hterms hfound
  | secured _ _ _ hfound hstored =>
    obtain rfl := Option.some.inj (hstored.symm.trans hnew)
    exact .kept hfound rfl rfl id
  | released _ _ _ hfound hleft =>
    rcases hleft with ⟨hgone, -⟩ | hstored
    · cases hgone.symm.trans hnew
    · obtain rfl := Option.some.inj (hstored.symm.trans hnew)
      exact .kept hfound rfl rfl id
  | discarded _ _ _ hfound hleft | revoked _ hfound hleft =>
    obtain ⟨huid, hbody⟩ := hleft.left hnew
    exact .kept hfound huid hbody fun _ => hleft.isDeleting hnew

/-- **A grant stays the same object, and its terms stay as they were filled in**, as long as it
is stored. -/
theorem GrantTurn.descends {new : Grant} (h : GrantTurn rules cluster next key)
    (hnew : next.store.find? .grant key = some new) :
    cluster.store.find? .grant key = none ∧ new.metadata.uid ∉ cluster.issued ∨
      ∃ old : Grant, cluster.store.find? .grant key = some old ∧
        new.metadata.uid = old.metadata.uid ∧
        (old.body.isPopulated = true → new.body.terms = old.body.terms) := by
  cases h.becomes hnew with
  | kept hfound huid hbody => exact .inr ⟨_, hfound, huid, fun _ => congrArg _ hbody⟩
  | launched hvacant hfresh => exact .inl ⟨hvacant, hfresh⟩
  | filled _ _ hblank hfound =>
    refine .inr ⟨_, hfound, rfl, fun hpopulated => ?_⟩
    cases hblank.symm.trans hpopulated
  | recorded _ _ hterms hfound => exact .inr ⟨_, hfound, rfl, fun _ => hterms⟩

/-- **What is true of blank grants and of grants that have just been filled in, and stays true where
a pass records how far it has come, is true of every grant that is shown.** -/
theorem Reachable.grant_induction {P : Cluster → Key → String → GrantStatus → Prop}
    (hmoves : ∀ {cluster next : Cluster} {key : Key} {uid : String} {status : GrantStatus},
      Moved rules cluster next → P cluster key uid status → P next key uid status)
    (hblank : ∀ (cluster : Cluster) (key : Key) (uid : String), P cluster key uid {})
    (hfilled : ∀ (cluster : Cluster) (key : Key) (uid : String) (request : Request) (id : String)
      (approvers : List String), P cluster key uid (request.grantStatus id approvers))
    (hrecorded : ∀ {cluster next : Cluster} {place : Nat} {key : Key} {past : Deeds}
      {grant new : Grant} {status : GrantStatus}, Reachable rules cluster →
      Moved rules cluster next →
      Acts cluster next place (.grant key) past (.patchStatus .grant grant status) (.ok new) →
      new.key = key → new.metadata.uid = grant.metadata.uid → new.body = status →
      P cluster key grant.metadata.uid grant.body → P next key new.metadata.uid new.body)
    (h : Reachable rules cluster) {grant : Grant} (hshown : cluster.Shown grant) :
    P cluster grant.key grant.metadata.uid grant.body := by
  induction h generalizing grant with
  | start => exact absurd hshown (not_shown_start grant)
  | @step cluster next move hbefore hmoved ih =>
    have hmoved := moved_of_move hmoved
    have hsound := hbefore.sound
    have hstored {old : Grant} (hold : cluster.store.find? .grant grant.key = some old) :
        P cluster grant.key old.metadata.uid old.body := by
      rw [← hsound.keyed _ _ _ hold]
      exact ih (.inl (hsound.stores hold))
    rcases hmoved.shown hsound.keyed hshown with hearlier | hstores
    · exact hmoves hmoved (ih hearlier)
    · unfold Stores at hstores
      generalize hkey : grant.key = key at hstores hstored ⊢
      cases (hbefore.grantTurn hmoved key).becomes hstores with
      | kept hfound huid hbody =>
        rw [huid, hbody]
        exact hmoves hmoved (hstored hfound)
      | launched _ _ hbody =>
        rw [hbody]
        exact hblank _ _ _
      | filled => exact hfilled _ _ _ _ _ _
      | recorded hacts _ _ hfound =>
        exact hrecorded hbefore hmoved hacts hkey rfl rfl (hstored hfound)

/-- What a filled-in grant turns into, if it does not go. -/
theorem GrantTurn.populated {old : Grant} (h : GrantTurn rules cluster next key)
    (hold : cluster.store.find? .grant key = some old) (hpopulated : old.body.isPopulated = true) :
    next.store.find? .grant key = none ∨ ∃ new : Grant, next.store.find? .grant key = some new ∧
      new.metadata.uid = old.metadata.uid ∧ new.body.terms = old.body.terms := by
  cases hnew : next.store.find? .grant key with
  | none => exact .inl rfl
  | some new =>
    rcases h.descends hnew with ⟨hvacant, -⟩ | ⟨stored, hstored, huid, hterms⟩
    · rw [hvacant] at hold
      cases hold
    · obtain rfl := Option.some.inj (hstored.symm.trans hold)
      exact .inr ⟨new, rfl, huid, hterms hpopulated⟩

/-- **The finalizer keeps a grant stored**, until a pass on it lets go of it. -/
theorem GrantTurn.held {old : Grant} (h : GrantTurn rules cluster next key)
    (hold : cluster.store.find? .grant key = some old) (hheld : old.isHeld = true) :
    (∃ new : Grant, next.store.find? .grant key = some new ∧ new.isHeld = true) ∨
      ∃ (place : Nat) (past : Deeds) (call : StoreCall) (reply : call.Reply),
        Acts cluster next place (.grant key) past call reply ∧
        (Effect.store call).releases = true := by
  cases h with
  | kept hsame => exact .inl ⟨old, hsame.trans hold, hheld⟩
  | launched hvacant =>
    rw [hvacant] at hold
    cases hold
  | filled _ _ _ _ _ _ hfound hstored | recorded _ _ _ hfound hstored =>
    obtain rfl := Option.some.inj (hfound.symm.trans hold)
    exact .inl ⟨_, hstored, hheld⟩
  | @secured _ _ start _ _ _ _ hfound hstored =>
    exact .inl ⟨_, hstored, start.isHeld_withFinalizer⟩
  | @released _ _ grant _ hacts =>
    exact .inr ⟨_, _, _, _, hacts, by simp [Effect.releases]⟩
  | discarded hacts => exact .inr ⟨_, _, _, _, hacts, rfl⟩
  | revoked _ hfound hleft =>
    obtain rfl := Option.some.inj (hfound.symm.trans hold)
    rcases hleft with ⟨hfree, -⟩ | ⟨-, now, version, hstored⟩
    · exact absurd hfree (Object.finalizers_ne_nil hheld)
    · refine .inl ⟨_, hstored, ?_⟩
      rwa [Object.isHeld, Metadata.hasFinalizer, Object.finalizers_marked]

/-! ### Roles and bindings -/

/-- What a move can make of the role or binding under a key. -/
inductive ArtifactTurn (cluster next : Cluster) (kind : Kind) (key : Key) : Prop
  /-- Nothing happens. -/
  | kept (same : next.store.find? kind key = cluster.store.find? kind key)
  /-- A pass on a grant has created it. -/
  | provided {place : Nat} {other : Key} {past : Deeds} {start grant : Grant}
    {artifact : Artifact} {object : Object kind} {now : Time.Instant} {uid : String}
    {version : Nat}
    (acts : Acts cluster next place (.grant other) past (.create kind object)
      (.ok (object.pristine.born now uid version)))
    (tended : Grant.Tended other start grant past)
    (wanted : artifact.isWanted grant.body = true)
    (creation : grant.creation artifact = .ok (some (.create kind object)))
    (stored : next.store.find? kind key = some (object.pristine.born now uid version))
    (grants : next.store.find? .grant other = cluster.store.find? .grant other)
  /-- It has been marked as deleting. -/
  | marked {old : Object kind} {now : Time.Instant} {version : Nat}
    (found : cluster.store.find? kind key = some old)
    (stored : next.store.find? kind key = some (old.marked now version))
  /-- It is gone. -/
  | gone (gone : next.store.find? kind key = none)

/-- **How roles and bindings turn.** -/
theorem Reachable.artifactTurn (h : Reachable rules cluster) (hmoved : Moved rules cluster next)
    {kind : Kind} (hkind : kind.isOwned = true) (key : Key) :
    ArtifactTurn cluster next kind key := by
  rcases h.turn hmoved kind key with hsame | ⟨id, call, reply, hauthor, hcalls, hturn⟩
  · exact .kept hsame
  · cases hturn with
    | kept hsame => exact .kept hsame
    | @born _ object hvacant htaken hstored =>
      cases hauthor with
      | user hallowed =>
        cases kind with
        | role | binding => cases hallowed
        | request | response | policy | grant => cases hkind
      | @pass place target past hacts hallowed =>
        cases target with
        | request other =>
          cases hallowed with
          | launch => cases hkind
        | grant other =>
          cases hallowed with
          | provide htended hwanted hcreation =>
            refine .provided hacts htended hwanted hcreation hstored ?_
            cases hcalls.performed.turn h.sound.keyed .grant other with
            | kept hsame => exact hsame
            | born => cases hkind
            | collected howned => cases howned
    | saved => cases hkind
    | @linked _ object =>
      cases hauthor with
      | user hallowed => cases kind <;> cases hallowed
      | @pass place target past hacts hallowed =>
        cases target with
        | request other => cases hallowed <;> cases hkind
        | grant other => cases hallowed <;> cases hkind
    | released _ _ _ hgone | removed _ _ hgone | collected _ hgone => exact .gone hgone
    | @patched _ base old status =>
      cases kind with
      | role | binding => cases status
      | request | response | policy | grant => cases hkind
    | marked hfound _ hstored => exact .marked hfound hstored

end Cluster

end AccessBroker
