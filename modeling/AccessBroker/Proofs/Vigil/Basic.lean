import AccessBroker.Controller.Watcher
import AccessBroker.Proofs.Conduct
import AccessBroker.Proofs.Store.Feed
import AccessBroker.Proofs.Store.Turns

/-!
# Vigils

A vigil is a store in memory whose feed a watcher follows, while clients make calls to the store as
they like; they only leave the cutting of the feed to the watcher. It moves
(`AccessBroker.Vigil.move`) when a client makes a call, when the watcher is woken for the next part
of its work, and when the next call of the watcher is answered, or refused. So a client can come in
between any two calls of the watcher, and every call of the watcher to the store may fail.

A vigil remembers every change that was ever made, also those that have been cut off the feed, and
every deed of the watcher, together with the store as it was then (`AccessBroker.Sighting`). Nobody
looks at that, but what the watcher has done can be said of it.
-/

namespace AccessBroker

open AccessBroker.Time

/-! ### The work of the watcher -/

/-- What the watcher does first: it reads the policies, and if it cannot, it does not go to work. -/
def Watch.startUp : Program watchInterface (WatchState × Bool) := do
  match ← Watch.syncPolicies.run with
  | .ok _ => return (.listing, false)
  | .error _ => return (.stopped, false)

/-- What the watcher does next, once it is woken: it ends its wait, or goes on working. -/
def WatchState.round (pace : WatchPace) (now : Nat) (state : WatchState) :
    (waits : Bool) → Program watchInterface (WatchState × Bool)
  | true => do return (← state.resume pace now false, false)
  | false => state.work pace now false

/-- The position that the watcher follows the feed from when a part of its work is over. -/
def WatchState.cursor? : Program watchInterface (WatchState × Bool) → Option Nat
  | .done (.following cursor _, _) => some cursor
  | _ => none

/-- The targets that the watcher is about to add to the queue, before it does anything else. -/
def Watch.pending {α : Type} : Program watchInterface α → List Target
  | .ask (.enqueue target) next => target :: pending (next ())
  | _ => []

/-! ### Vigils -/

/-- A deed of the watcher, and the store as it was then. -/
structure Sighting where
  store : MemoryStore
  deed : Deed watchInterface

namespace Sighting

/-- The target that was added to the queue. -/
def target? (sighting : Sighting) : Option Target :=
  match sighting.deed.call with
  | .enqueue target => some target
  | _ => none

/-- The changes that were read. -/
def changes (sighting : Sighting) : List Change :=
  match sighting.deed with
  | ⟨.store (.changesSince _ _), .ok page⟩ => page.changes
  | _ => []

/-- Were the policies asked for? -/
def isReview (sighting : Sighting) : Bool :=
  match sighting.deed.call with
  | .store .listPolicies => true
  | _ => false

/-- The keys of a kind were listed. -/
def listing (store : MemoryStore) (kind : Kind) : Sighting where
  store := store
  deed := ⟨.store (.listKeys kind), .ok (store.listKeys kind)⟩

/-- The targets that the watcher has added to the queue, in order. -/
def filed : List Sighting → List Target
  | [] => []
  | sighting :: log => filed log ++ sighting.target?.toList

/-- The changes that the watcher has read, in order. -/
def readings : List Sighting → List Change
  | [] => []
  | sighting :: log => readings log ++ sighting.changes

end Sighting

/-- A store, and the watcher that follows its feed. -/
structure Vigil where
  store : MemoryStore := {}
  snapshot : PolicySnapshot := {}
  /-- Every change that was ever made, the oldest first. -/
  history : List Change := []
  /-- What the watcher has done, the latest first. -/
  log : List Sighting := []
  /-- The position that the watcher follows the feed from, once it does. -/
  cursor : Option Nat := none
  /-- What the watcher is still to do in this part of its work. -/
  rest : Program watchInterface (WatchState × Bool) := Watch.startUp

/-- How a vigil is kept. -/
structure Regime where
  pace : WatchPace
  /-- May a call of the watcher be refused with a failure? -/
  refuses : Failure → Bool

/-- Does a call cut the feed? -/
def StoreCall.isCut : StoreCall → Bool
  | .compact _ => true
  | _ => false

namespace Vigil

/-- What can happen next in a vigil. -/
inductive Move where
  /-- A client makes a call, at a time and with an identifier at hand. -/
  | client (call : StoreCall) (now : Instant) (uid : String)
  /-- The watcher is woken. -/
  | wake (now : Nat)
  /-- The next call of the watcher is answered. -/
  | answer
  /-- The next call of the watcher is refused. -/
  | refuse (failure : Failure)

/-- Makes a call to the store, and remembers the changes. -/
def perform (vigil : Vigil) (now : Instant) (uid : String) (call : StoreCall) :
    call.Reply × Vigil :=
  let (reply, store) := vigil.store.perform now uid call
  let news := store.changes.filter fun change => vigil.store.lastSequence < change.sequence
  (reply, { vigil with store, history := vigil.history ++ news })

/-- Answers a call of the watcher. None of its calls needs a time or an identifier. -/
def answer (vigil : Vigil) : (effect : WatchEffect) → watchInterface.Reply effect × Vigil
  | .store call => vigil.perform .epoch "" call
  | .enqueue _ => ((), vigil)
  | .replacePolicies policies =>
    let snapshot := vigil.snapshot.replace policies
    (snapshot.version, { vigil with snapshot })

/-- The vigil after the watcher has done something, seen from the vigil before. -/
def advance (vigil before : Vigil) (deed : Deed watchInterface)
    (rest : Program watchInterface (WatchState × Bool)) : Vigil :=
  { vigil with
    log := ⟨before.store, deed⟩ :: before.log
    cursor := (WatchState.cursor? rest).or before.cursor
    rest }

/-- The vigil after a move, if it can be made. -/
def move (regime : Regime) (vigil : Vigil) : Move → Option Vigil
  | .client call now uid => if call.isCut then none else some (vigil.perform now uid call).2
  | .wake now =>
    match vigil.rest with
    | .done (state, waits) => some { vigil with rest := state.round regime.pace now waits }
    | .ask _ _ => none
  | .answer =>
    match vigil.rest with
    | .ask effect next =>
      let (reply, after) := vigil.answer effect
      some (after.advance vigil ⟨effect, reply⟩ (next reply))
    | .done _ => none
  | .refuse failure =>
    match vigil.rest with
    | .ask (.store call) next =>
      if regime.refuses failure then
        some (vigil.advance vigil ⟨.store call, .error failure⟩ (next (.error failure)))
      else none
    | _ => none

/-- The vigil after some moves in a row. -/
def run (regime : Regime) (vigil : Vigil) : List Move → Option Vigil
  | [] => some vigil
  | first :: rest => (vigil.move regime first).bind fun next => next.run regime rest

/-- A vigil can come about, starting from nothing. -/
inductive Reachable (regime : Regime) : Vigil → Prop
  /-- At the start there is nothing. -/
  | start : Reachable regime {}
  /-- Every move goes on from there. -/
  | step {vigil next : Vigil} (move : Move) (before : Reachable regime vigil)
    (moved : vigil.move regime move = some next) : Reachable regime next

variable {regime : Regime} {vigil next : Vigil}

/-- **What some moves lead to can come about.** -/
theorem reachable_of_run {moves : List Move} (hbefore : Reachable regime vigil)
    (hrun : vigil.run regime moves = some next) : Reachable regime next := by
  induction moves generalizing vigil with
  | nil => exact Option.some.inj hrun ▸ hbefore
  | cons first rest ih =>
    obtain ⟨between, hfirst, hrest⟩ := Option.bind_eq_some_iff.1 hrun
    exact ih (hbefore.step first hfirst) hrest

/-! ### What a move does -/

/-- How a call of the watcher is served: the answer, and the vigil then. -/
inductive Served (regime : Regime) (vigil : Vigil) :
    (effect : WatchEffect) → watchInterface.Reply effect → Vigil → Prop
  /-- The store answers. -/
  | performed (call : StoreCall) :
    Served regime vigil (.store call) (vigil.perform .epoch "" call).1
      (vigil.perform .epoch "" call).2
  /-- The call is refused. -/
  | refused (call : StoreCall) {failure : Failure} (refuses : regime.refuses failure = true) :
    Served regime vigil (.store call) (.error failure) vigil
  /-- The target is added. -/
  | filed (target : Target) : Served regime vigil (.enqueue target) () vigil
  /-- The snapshot is replaced. -/
  | published (policies : List Policy) :
    Served regime vigil (.replacePolicies policies) (vigil.snapshot.replace policies).version
      { vigil with snapshot := vigil.snapshot.replace policies }

theorem served_answer (effect : WatchEffect) :
    Served regime vigil effect (vigil.answer effect).1 (vigil.answer effect).2 := by
  cases effect with
  | store call => exact .performed call
  | enqueue target => exact .filed target
  | replacePolicies policies => exact .published policies

/-- What a move comes to. -/
inductive Moved (regime : Regime) (vigil : Vigil) : Vigil → Prop
  /-- A client has made a call. -/
  | called {call : StoreCall} (now : Instant) (uid : String) (uncut : call.isCut = false) :
    Moved regime vigil (vigil.perform now uid call).2
  /-- The watcher has been woken. -/
  | woken {state : WatchState} {waits : Bool} (now : Nat)
    (idle : vigil.rest = .done (state, waits)) :
    Moved regime vigil { vigil with rest := state.round regime.pace now waits }
  /-- The watcher has been answered. -/
  | advanced {effect : WatchEffect}
    {next : watchInterface.Reply effect → Program watchInterface (WatchState × Bool)}
    {reply : watchInterface.Reply effect} {after : Vigil} (current : vigil.rest = .ask effect next)
    (served : Served regime vigil effect reply after) :
    Moved regime vigil (after.advance vigil ⟨effect, reply⟩ (next reply))

/-- **Every move comes to one of three things.** -/
theorem moved_of_move {move : Move} (h : vigil.move regime move = some next) :
    Moved regime vigil next := by
  cases move with
  | client call now uid =>
    simp only [move] at h
    split at h
    · cases h
    · next huncut =>
      cases h
      exact .called now uid (Bool.eq_false_iff.2 huncut)
  | wake now =>
    simp only [move] at h
    split at h
    · next hidle =>
      cases h
      exact .woken now hidle
    · cases h
  | answer =>
    simp only [move] at h
    split at h
    · next effect rest hcurrent =>
      cases h
      exact .advanced hcurrent (served_answer effect)
    · cases h
  | refuse failure =>
    simp only [move] at h
    split at h
    · next call rest hcurrent =>
      split at h
      · next hrefuses =>
        cases h
        exact .advanced hcurrent (.refused call hrefuses)
      · cases h
    · cases h

/-- **What holds after some moves holds in a vigil that can come about.** -/
theorem exists_reachable {P : Vigil → Prop} [DecidablePred P] (regime : Regime)
    (moves : List Move)
    (h : (({} : Vigil).run regime moves).any (fun vigil => decide (P vigil)) = true) :
    ∃ vigil, Reachable regime vigil ∧ P vigil := by
  obtain ⟨vigil, hrun, hholds⟩ := (Option.any_eq_true _ _).1 h
  exact ⟨vigil, reachable_of_run .start hrun, of_decide_eq_true hholds⟩

end Vigil

/-! ### Where the watcher stands -/

/-- Why the policies are read. -/
inductive Errand where
  /-- The watcher starts. -/
  | start
  /-- A page tells of policies that were written. -/
  | page (page : ChangePage) (cursor due : Nat)
  /-- It is time to. -/
  | pause (cursor due : Nat)

/-- What the watcher is about to do. -/
inductive Post where
  /-- Nothing, until it is woken. -/
  | idle (state : WatchState) (waits : Bool)
  /-- It lists the requests. -/
  | listRequests (now : Nat)
  /-- It lists the grants. -/
  | listGrants (now : Nat) (requests : KeyListing)
  /-- It adds a target that was listed, and others after it. -/
  | file (target : Target) (targets : List Target) (cursor now : Nat)
  /-- It reads a page. -/
  | read (cursor due : Nat)
  /-- It adds a target that the page gives rise to, and others after it. -/
  | route (target : Target) (targets : List Target) (page : ChangePage) (cursor due : Nat)
  /-- It reads the policies. -/
  | review (errand : Errand)
  /-- It publishes the policies. -/
  | publish (policies : List Policy) (errand : Errand)
  /-- It cuts off what it has read. -/
  | cut (page : ChangePage) (cursor due : Nat)

namespace Post

variable (pace : WatchPace)

/-- Where the watcher stands once the targets of a page have been added and the policies have been
read. -/
def closing (page : ChangePage) (cursor due : Nat) : Post :=
  if page.changes.isEmpty then
    .idle (.following page.nextCursor due) (!decide (pace.batchSize ≤ page.changes.length))
  else .cut page cursor due

/-- Where it stands with some targets of a page left to add. -/
def routing (page : ChangePage) (cursor due : Nat) : List Target → Post
  | target :: targets => .route target targets page cursor due
  | [] =>
    if Watch.touchesPolicies page.changes then .review (.page page cursor due)
    else closing pace page cursor due

/-- Where it stands with some listed targets left to add. -/
def filing (cursor now : Nat) : List Target → Post
  | target :: targets => .file target targets cursor now
  | [] => .idle (.following cursor (now + pace.resyncInterval)) false

/-- Where it stands once it has read the policies, or has failed to. -/
def onward (passed : Bool) : Errand → Post
  | .start => .idle (if passed then .listing else .stopped) false
  | .page page cursor due => closing pace page cursor due
  | .pause cursor due => .idle (.following cursor due) false

/-- Where it stands once it is woken. -/
def woken (now : Nat) : WatchState → (waits : Bool) → Post
  | .listing, true => .idle .listing false
  | .listing, false => .listRequests now
  | .following cursor due, true =>
    if now < due then .idle (.following cursor due) false
    else .review (.pause cursor (WatchState.nextResync pace due now))
  | .following cursor due, false => .read cursor due
  | .stopped, _ => .idle .stopped false

/-- What is left of a listing, as a program. -/
def finishListing (now : Nat) (part : Watch Nat) : Program watchInterface (WatchState × Bool) := do
  match ← part.run with
  | .ok cursor => return (.following cursor (now + pace.resyncInterval), false)
  | .error _ => return (.listing, true)

/-- What is left of a poll, as a program. -/
def finishPoll (cursor due : Nat) (part : Watch (Nat × Bool)) :
    Program watchInterface (WatchState × Bool) := do
  let (cursor, isFull) := match ← part.run with
    | .ok (next, isFull) => (next, isFull)
    | .error _ => (cursor, false)
  return (.following cursor due, !isFull)

/-- What is left once the targets of a page have been added and the policies have been read. -/
def closePage (page : ChangePage) : Watch (Nat × Bool) := do
  if !page.changes.isEmpty then
    Watch.toleratingFailure (Watch.ask (.compact page.nextCursor))
  return (page.nextCursor, decide (pace.batchSize ≤ page.changes.length))

/-- What is left of a part of the work once the policies have been read. -/
def finishErrand (errand : Errand) (result : Except Failure Nat) :
    Program watchInterface (WatchState × Bool) :=
  match errand with
  | .start => match result with
    | .ok _ => .done (.listing, false)
    | .error _ => .done (.stopped, false)
  | .page page cursor due => finishPoll cursor due (closePage pace page)
  | .pause cursor due => .done (.following cursor due, false)

/-- What is left to do where the watcher stands. -/
def program : Post → Program watchInterface (WatchState × Bool)
  | .idle state waits => .done (state, waits)
  | .listRequests now => finishListing pace now Watch.listLive
  | .listGrants now requests => finishListing pace now do
      let grants ← Watch.ask (.listKeys .grant)
      Watch.enqueueEach (requests.keys.map Target.request ++ grants.keys.map Target.grant)
      return min requests.cursor grants.cursor
  | .file target targets cursor now => finishListing pace now do
      Watch.enqueueEach (target :: targets)
      return cursor
  | .read cursor due => finishPoll cursor due (Watch.pollOnce pace.batchSize cursor)
  | .route target targets page cursor due => finishPoll cursor due do
      Watch.enqueueEach (target :: targets)
      if Watch.touchesPolicies page.changes then
        Watch.toleratingFailure Watch.syncPolicies
      closePage pace page
  | .review errand => Watch.syncPolicies.run >>= finishErrand pace errand
  | .publish policies errand =>
    .ask (.replacePolicies policies) fun version => finishErrand pace errand (.ok version)
  | .cut page cursor due => finishPoll cursor due do
      Watch.toleratingFailure (Watch.ask (.compact page.nextCursor))
      return (page.nextCursor, decide (pace.batchSize ≤ page.changes.length))

/-- The position that the watcher follows the feed from, where it waits to be woken. -/
def cursor? : Post → Option Nat
  | .idle (.following cursor _) _ => some cursor
  | _ => none

/-- The targets that the watcher is about to add. -/
def pending : Post → List Target
  | .file target targets _ _ | .route target targets _ _ _ => target :: targets
  | _ => []

/-- The position up to which the watcher has read the feed, once it has listed the live objects. -/
def reach : Post → Option Nat
  | .idle (.following cursor _) _ | .file _ _ cursor _ | .read cursor _
  | .review (.pause cursor _) | .publish _ (.pause cursor _) => some cursor
  | .route _ _ page _ _ | .review (.page page _ _) | .publish _ (.page page _ _)
  | .cut page _ _ => some page.nextCursor
  | .idle .listing _ | .idle .stopped _ | .listRequests _ | .listGrants _ _ | .review .start
  | .publish _ .start => none

/-- Where an answer takes the watcher. -/
inductive Step : Post → (effect : WatchEffect) → watchInterface.Reply effect → Post → Prop
  /-- The requests have been listed. -/
  | requests (now : Nat) (listing : KeyListing) :
    Step (.listRequests now) (.store (.listKeys .request)) (.ok listing) (.listGrants now listing)
  /-- The requests could not be listed. -/
  | noRequests (now : Nat) (failure : Failure) :
    Step (.listRequests now) (.store (.listKeys .request)) (.error failure) (.idle .listing true)
  /-- The grants have been listed. -/
  | grants (now : Nat) (requests listing : KeyListing) :
    Step (.listGrants now requests) (.store (.listKeys .grant)) (.ok listing)
      (filing pace (min requests.cursor listing.cursor) now
        (requests.keys.map Target.request ++ listing.keys.map Target.grant))
  /-- The grants could not be listed. -/
  | noGrants (now : Nat) (requests : KeyListing) (failure : Failure) :
    Step (.listGrants now requests) (.store (.listKeys .grant)) (.error failure)
      (.idle .listing true)
  /-- A listed target has been added. -/
  | filed (target : Target) (targets : List Target) (cursor now : Nat) (reply : Unit) :
    Step (.file target targets cursor now) (.enqueue target) reply (filing pace cursor now targets)
  /-- A page has been read. -/
  | page (cursor due : Nat) (page : ChangePage) :
    Step (.read cursor due) (.store (.changesSince cursor pace.batchSize)) (.ok page)
      (routing pace page cursor due (Watch.targetsOf page.changes))
  /-- No page could be read. -/
  | noPage (cursor due : Nat) (failure : Failure) :
    Step (.read cursor due) (.store (.changesSince cursor pace.batchSize)) (.error failure)
      (.idle (.following cursor due) true)
  /-- A target of the page has been added. -/
  | routed (target : Target) (targets : List Target) (page : ChangePage) (cursor due : Nat)
    (reply : Unit) :
    Step (.route target targets page cursor due) (.enqueue target) reply
      (routing pace page cursor due targets)
  /-- The policies have been read. -/
  | policies (errand : Errand) (policies : List Policy) :
    Step (.review errand) (.store .listPolicies) (.ok policies) (.publish policies errand)
  /-- The policies could not be read. -/
  | noPolicies (errand : Errand) (failure : Failure) :
    Step (.review errand) (.store .listPolicies) (.error failure) (onward pace false errand)
  /-- The policies have been published. -/
  | published (policies : List Policy) (errand : Errand) (version : Nat) :
    Step (.publish policies errand) (.replacePolicies policies) version (onward pace true errand)
  /-- What has been read has been cut off, or could not be. -/
  | cut (page : ChangePage) (cursor due : Nat) (reply : Except Failure Nat) :
    Step (.cut page cursor due) (.store (.compact page.nextCursor)) reply
      (.idle (.following page.nextCursor due)
        (!decide (pace.batchSize ≤ page.changes.length)))

variable {pace}

theorem program_closing (page : ChangePage) (cursor due : Nat) :
    (closing pace page cursor due).program pace = finishPoll cursor due (closePage pace page) := by
  unfold closing
  split
  · next hempty =>
    simp only [program, closePage, hempty]
    rfl
  · next hpage =>
    simp only [program, closePage, Bool.not_eq_true _ ▸ hpage]
    rfl

theorem program_onward (passed : Bool) (errand : Errand) (result : Except Failure Nat)
    (hresult : result.isOk = passed) :
    (onward pace passed errand).program pace = finishErrand pace errand result := by
  subst hresult
  cases errand with
  | start => cases result <;> rfl
  | page page cursor due => exact program_closing page cursor due
  | pause cursor due => rfl

theorem program_routing (page : ChangePage) (cursor due : Nat) (targets : List Target) :
    (routing pace page cursor due targets).program pace = finishPoll cursor due (do
      Watch.enqueueEach targets
      if Watch.touchesPolicies page.changes then
        Watch.toleratingFailure Watch.syncPolicies
      closePage pace page) := by
  cases targets with
  | cons target targets => rfl
  | nil =>
    rw [routing]
    split
    · refine congrArg (Program.ask (I := watchInterface) (.store .listPolicies))
        (funext fun reply => ?_)
      cases reply <;> rfl
    · exact program_closing page cursor due

theorem program_filing (cursor now : Nat) (targets : List Target) :
    (filing pace cursor now targets).program pace = finishListing pace now (do
      Watch.enqueueEach targets
      return cursor) := by
  cases targets <;> rfl

theorem program_woken (now : Nat) (state : WatchState) (waits : Bool) :
    (woken pace now state waits).program pace = state.round pace now waits := by
  cases waits with
  | false => cases state <;> rfl
  | true =>
    cases state with
    | listing | stopped => rfl
    | following cursor due =>
      simp only [woken, WatchState.round, WatchState.resume]
      split
      · rfl
      · refine congrArg (Program.ask (I := watchInterface) (.store .listPolicies))
          (funext fun reply => ?_)
        cases reply <;> rfl

theorem program_start : (review .start).program pace = Watch.startUp :=
  rfl

/-- **The watcher stands somewhere after every answer.** -/
theorem step_of_ask (post : Post) {effect : WatchEffect}
    {next : watchInterface.Reply effect → Program watchInterface (WatchState × Bool)}
    (h : post.program pace = .ask effect next) (reply : watchInterface.Reply effect) :
    ∃ after, Step pace post effect reply after ∧ after.program pace = next reply := by
  cases post with
  | idle => cases h
  | listRequests now =>
    cases h
    cases reply with
    | ok listing => exact ⟨_, .requests now listing, rfl⟩
    | error failure => exact ⟨_, .noRequests now failure, rfl⟩
  | listGrants now requests =>
    cases h
    cases reply with
    | ok listing => exact ⟨_, .grants now requests listing, program_filing _ _ _⟩
    | error failure => exact ⟨_, .noGrants now requests failure, rfl⟩
  | file target targets cursor now =>
    cases h
    exact ⟨_, .filed target targets cursor now reply, program_filing _ _ _⟩
  | read cursor due =>
    cases h
    cases reply with
    | ok page => exact ⟨_, .page cursor due page, program_routing _ _ _ _⟩
    | error failure => exact ⟨_, .noPage cursor due failure, rfl⟩
  | route target targets page cursor due =>
    cases h
    exact ⟨_, .routed target targets page cursor due reply, program_routing _ _ _ _⟩
  | review errand =>
    cases h
    cases reply with
    | ok policies => exact ⟨_, .policies errand policies, rfl⟩
    | error failure =>
      exact ⟨_, .noPolicies errand failure, program_onward false errand (.error failure) rfl⟩
  | publish policies errand =>
    cases h
    exact ⟨_, .published policies errand reply, program_onward true errand (.ok reply) rfl⟩
  | cut page cursor due =>
    cases h
    refine ⟨_, .cut page cursor due reply, ?_⟩
    cases reply <;> rfl

theorem cursor?_program (post : Post) : WatchState.cursor? (post.program pace) = post.cursor? := by
  cases post with
  | idle state waits => cases state <;> rfl
  | listRequests | listGrants | file | read | route | review | publish | cut => rfl

/-- The watcher follows the feed from where it has read up to. -/
theorem reach_of_cursor? {post : Post} {position : Nat} (h : post.cursor? = some position) :
    post.reach = some position := by
  cases post with
  | idle state => cases state <;> exact h
  | listRequests | listGrants | file | read | route | review | publish | cut => cases h

theorem pending_closing (page : ChangePage) (cursor due : Nat) :
    (closing pace page cursor due).pending = [] := by
  unfold closing
  split <;> rfl

theorem pending_routing (page : ChangePage) (cursor due : Nat) (targets : List Target) :
    (routing pace page cursor due targets).pending = targets := by
  cases targets with
  | cons target targets => rfl
  | nil =>
    unfold routing
    dsimp only
    split
    · rfl
    · exact pending_closing page cursor due

theorem pending_filing (cursor now : Nat) (targets : List Target) :
    (filing pace cursor now targets).pending = targets := by
  cases targets <;> rfl

theorem pending_onward (passed : Bool) (errand : Errand) :
    (onward pace passed errand).pending = [] := by
  cases errand with
  | start | pause => rfl
  | page page cursor due => exact pending_closing page cursor due

theorem reach_closing (page : ChangePage) (cursor due : Nat) :
    (closing pace page cursor due).reach = some page.nextCursor := by
  unfold closing
  split <;> rfl

theorem reach_routing (page : ChangePage) (cursor due : Nat) (targets : List Target) :
    (routing pace page cursor due targets).reach = some page.nextCursor := by
  cases targets with
  | cons target targets => rfl
  | nil =>
    rw [routing]
    split
    · rfl
    · exact reach_closing page cursor due

theorem reach_filing (cursor now : Nat) (targets : List Target) :
    (filing pace cursor now targets).reach = some cursor := by
  cases targets <;> rfl

/-- Reading the policies leaves the position as it is. -/
theorem reach_onward {passed : Bool} {errand : Errand} :
    (onward pace passed errand).reach = (review errand).reach := by
  cases errand with
  | start => cases passed <;> rfl
  | page page cursor due => exact reach_closing page cursor due
  | pause => rfl

theorem reach_woken (now : Nat) (state : WatchState) (waits : Bool) :
    (woken pace now state waits).reach = (idle state waits).reach := by
  cases state with
  | listing | stopped => cases waits <;> rfl
  | following cursor due =>
    cases waits with
    | false => rfl
    | true =>
      rw [woken]
      split <;> rfl

/-- **The targets that the watcher is about to add**, read off its program. -/
theorem pending_program (post : Post) : Watch.pending (post.program pace) = post.pending := by
  cases post with
  | idle | listRequests | listGrants | read | review | publish | cut => rfl
  | file target targets cursor now =>
    induction targets generalizing target with
    | nil => rfl
    | cons next targets ih => exact congrArg (target :: ·) (ih next)
  | route target targets page cursor due =>
    induction targets generalizing target with
    | nil =>
      have hlast : Watch.pending ((routing pace page cursor due []).program pace) = [] := by
        unfold routing
        dsimp only
        split
        · rfl
        · unfold closing
          split <;> rfl
      rw [program_routing] at hlast
      exact congrArg (target :: ·) hlast
    | cons next targets ih => exact congrArg (target :: ·) (ih next)

/-- The watcher waits to be woken where it is about to do nothing. -/
theorem idle_of_done {post : Post} {state : WatchState} {waits : Bool}
    (h : post.program pace = .done (state, waits)) : post = .idle state waits := by
  cases post with
  | idle => cases h; rfl
  | listRequests | listGrants | file | read | route | review | publish | cut => cases h

end Post

namespace Vigil

/-- A vigil can come about, and the watcher stands somewhere in it. -/
inductive Stands (regime : Regime) : Vigil → Post → Prop
  /-- At the start, the watcher is to read the policies. -/
  | start : Stands regime {} (.review .start)
  /-- A client makes a call. -/
  | called {vigil : Vigil} {post : Post} {call : StoreCall} (now : Instant) (uid : String)
    (before : Stands regime vigil post) (uncut : call.isCut = false) :
    Stands regime (vigil.perform now uid call).2 post
  /-- The watcher is woken. -/
  | woken {vigil : Vigil} {state : WatchState} {waits : Bool} (now : Nat)
    (before : Stands regime vigil (.idle state waits)) :
    Stands regime
      { vigil with rest := (Post.woken regime.pace now state waits).program regime.pace }
      (.woken regime.pace now state waits)
  /-- The watcher is answered. -/
  | advanced {vigil after : Vigil} {post onward : Post} {effect : WatchEffect}
    {reply : watchInterface.Reply effect} (before : Stands regime vigil post)
    (step : Post.Step regime.pace post effect reply onward)
    (served : Served regime vigil effect reply after) :
    Stands regime (after.advance vigil ⟨effect, reply⟩ (onward.program regime.pace)) onward

variable {regime : Regime} {vigil next : Vigil} {post : Post}

/-- **Where the watcher stands says what it is still to do.** -/
theorem Stands.rest (h : Stands regime vigil post) : vigil.rest = post.program regime.pace := by
  induction h with
  | start => exact Post.program_start.symm
  | called _ _ _ _ ih => exact ih
  | woken | advanced => rfl

theorem Stands.moved (h : Stands regime vigil post) (hmoved : Moved regime vigil next) :
    ∃ onward, Stands regime next onward := by
  cases hmoved with
  | called now uid huncut => exact ⟨post, h.called now uid huncut⟩
  | woken now hidle =>
    obtain rfl := Post.idle_of_done (h.rest.symm.trans hidle)
    rw [← Post.program_woken]
    exact ⟨_, h.woken now⟩
  | advanced hcurrent hserved =>
    obtain ⟨onward, hstep, hprogram⟩ := post.step_of_ask (h.rest.symm.trans hcurrent) _
    rw [← hprogram]
    exact ⟨onward, h.advanced hstep hserved⟩

/-- **The watcher always stands somewhere.** -/
theorem Reachable.stands (h : Reachable regime vigil) : ∃ post, Stands regime vigil post := by
  induction h with
  | start => exact ⟨_, .start⟩
  | step move _ hmove ih =>
    obtain ⟨post, hpost⟩ := ih
    exact hpost.moved (moved_of_move hmove)

end Vigil

end AccessBroker
