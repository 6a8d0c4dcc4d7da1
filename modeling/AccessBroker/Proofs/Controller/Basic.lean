import AccessBroker.Proofs.Cluster.Journals
import AccessBroker.Proofs.Engine.GrantOutcome
import AccessBroker.Proofs.Vigil.Basic
import AccessBroker.Proofs.WorkQueue

/-!
# Controllers

A controller is a vigil together with what makes use of it: a work queue, to which the watcher adds
targets, workers, and timers that add targets later. A worker is handed a target, runs a pass on it
call by call, settles what the pass came to, and gives the target back; it is remembered for that
time (`AccessBroker.Handling`), so that there may be any number of workers. Clients make calls to
the store meanwhile, and any call of the watcher and of a pass may be refused.

A controller moves (`AccessBroker.Controller.move`) when one of these does one step, and every order
of moves is a run. It remembers what passes came to (`AccessBroker.Settlement`), which nobody looks
at.
-/

namespace AccessBroker

open AccessBroker.Time

/-- A pass on a target that a worker has been handed, and has not given back. -/
structure Handling where
  journal : Journal
  /-- Has the worker settled what the pass came to? -/
  settled : Bool := false

/-- A target that is to be added later. -/
structure Timer where
  target : Target
  /-- When it is to be added, in nanoseconds from the start of 1970. -/
  due : Int

/-- What a pass came to, and when that was settled. -/
structure Settlement where
  target : Target
  time : Instant
  result : Except Failure Outcome

/-- A store with its watcher, and the workers that keep it in order. -/
structure Controller where
  vigil : Vigil := {}
  now : Instant := .epoch
  queue : WorkQueue Target := {}
  timers : List Timer := []
  handlings : List Handling := []
  /-- What passes came to, the latest first. -/
  settlements : List Settlement := []

/-- How a controller works. -/
structure Charter where
  regime : Regime
  backoff : Backoff
  /-- May a call of a pass be refused with a failure? -/
  refuses : Failure → Bool
  /-- That something is missing is said by the store only. -/
  truthful (failure : Failure) : refuses failure = true → failure.isNotFound = false

/-- The queue after the watcher has done something. -/
def WorkQueue.heard (queue : WorkQueue Target) : WatchEffect → WorkQueue Target
  | .enqueue target => (queue.add target).2
  | .store _ | .replacePolicies _ => queue

namespace Controller

/-- What can happen next in a controller. -/
inductive Move where
  /-- A client makes a call, or the watcher does something. -/
  | watch (move : Vigil.Move)
  /-- The clock is set. -/
  | clock (now : Instant)
  /-- A worker is handed the next target. -/
  | take
  /-- The next call of a pass is answered, with an identifier at hand. -/
  | answer (place : Nat) (uid : String)
  /-- The next call of a pass is refused. -/
  | refuse (place : Nat) (failure : Failure)
  /-- A worker settles what its pass came to. -/
  | settle (place : Nat)
  /-- A worker gives its target back. -/
  | finish (place : Nat)
  /-- A timer fires. -/
  | fire (place : Nat)

/-- The queue after a move of the vigil. -/
def hearing (controller : Controller) : Vigil.Move → WorkQueue Target
  | .answer => match controller.vigil.rest with
    | .ask effect _ => controller.queue.heard effect
    | .done _ => controller.queue
  | _ => controller.queue

/-- Answers a call of a pass. -/
def answer (controller : Controller) (uid : String) :
    (effect : Effect) → passInterface.Reply effect × Vigil
  | .store call => controller.vigil.perform controller.now uid call
  | .tell _ => (.ok (), controller.vigil)
  | .policies => (controller.vigil.snapshot, controller.vigil)
  | .clock => (controller.now, controller.vigil)
  | .freshId => (uid, controller.vigil)

/-- The controller after a pass has been answered. -/
def advance (controller : Controller) (place : Nat) (target : Target) (past : Deeds)
    (deed : Deed passInterface) (rest : Steps (Except Failure Outcome)) : Controller :=
  { controller with
    handlings := controller.handlings.set place ⟨⟨target, deed :: past, rest⟩, false⟩ }

/-- Adds a target when it is time to. -/
def postpone (controller : Controller) (target : Target) : Postponed → Controller
  | .now => { controller with queue := (controller.queue.add target).2 }
  | .later delay =>
    { controller with
      timers := ⟨target, controller.now.sinceEpoch + delay⟩ :: controller.timers }
  | .never => controller

/-- The controller after a pass has been settled, but for the target. -/
def record (controller : Controller) (place : Nat) (journal : Journal)
    (result : Except Failure Outcome) (queue : WorkQueue Target) : Controller :=
  { controller with
    queue
    handlings := controller.handlings.set place ⟨journal, true⟩
    settlements := ⟨journal.target, controller.now, result⟩ :: controller.settlements }

/-- The controller after a move, if it can be made. -/
def move (charter : Charter) (controller : Controller) : Move → Option Controller
  | .watch move => (controller.vigil.move charter.regime move).map fun vigil =>
    { controller with vigil, queue := controller.hearing move }
  | .clock now => some { controller with now }
  | .take =>
    match controller.queue.take with
    | (.target target _, queue) => some
      { controller with queue, handlings := ⟨.opening target, false⟩ :: controller.handlings }
    | _ => none
  | .answer place uid =>
    match controller.handlings[place]? with
    | some ⟨⟨target, past, .ask effect next⟩, false⟩ =>
      let (reply, vigil) := controller.answer uid effect
      some ({ controller with vigil }.advance place target past ⟨effect, reply⟩ (next reply))
    | _ => none
  | .refuse place failure =>
    match controller.handlings[place]? with
    | some ⟨⟨target, past, .ask effect next⟩, false⟩ =>
      if charter.refuses failure then
        (Cluster.refusal failure effect).map fun reply =>
          controller.advance place target past ⟨effect, reply⟩ (next reply)
      else none
    | _ => none
  | .settle place =>
    match controller.handlings[place]? with
    | some ⟨⟨target, past, .done result⟩, false⟩ =>
      let (postponed, queue) :=
        controller.queue.settle charter.backoff controller.now target result
      some ((controller.record place ⟨target, past, .done result⟩ result queue).postpone target
        postponed)
    | _ => none
  | .finish place =>
    match controller.handlings[place]? with
    | some ⟨journal, true⟩ => some
      { controller with
        queue := (controller.queue.done journal.target).2
        handlings := controller.handlings.eraseIdx place }
    | _ => none
  | .fire place =>
    match controller.timers[place]? with
    | some timer => some
      { controller with
        queue := (controller.queue.add timer.target).2
        timers := controller.timers.eraseIdx place }
    | none => none

/-- The controller after some moves in a row. -/
def run (charter : Charter) (controller : Controller) : List Move → Option Controller
  | [] => some controller
  | first :: rest => (controller.move charter first).bind fun next => next.run charter rest

/-- A controller can come about, starting from nothing. -/
inductive Reachable (charter : Charter) : Controller → Prop
  /-- At the start there is nothing. -/
  | start : Reachable charter {}
  /-- Every move goes on from there. -/
  | step {controller next : Controller} (move : Move) (before : Reachable charter controller)
    (moved : controller.move charter move = some next) : Reachable charter next

variable {charter : Charter} {controller next : Controller} {post onward : Post}

section Postpone

variable (controller) (target : Target) (postponed : Postponed)

@[simp]
theorem vigil_postpone : (controller.postpone target postponed).vigil = controller.vigil := by
  cases postponed <;> rfl

@[simp]
theorem handlings_postpone :
    (controller.postpone target postponed).handlings = controller.handlings := by
  cases postponed <;> rfl

@[simp]
theorem settlements_postpone :
    (controller.postpone target postponed).settlements = controller.settlements := by
  cases postponed <;> rfl

theorem mem_dirty_postpone {other : Target} (h : other ∈ controller.queue.dirty) :
    other ∈ (controller.postpone target postponed).queue.dirty := by
  cases postponed with
  | now => exact WorkQueue.mem_dirty_add target h
  | later | never => exact h

theorem mem_timers_postpone {timer : Timer} (h : timer ∈ controller.timers) :
    timer ∈ (controller.postpone target postponed).timers := by
  cases postponed with
  | later => exact List.mem_cons_of_mem _ h
  | now | never => exact h

end Postpone

/-- **What some moves lead to can come about.** -/
theorem reachable_of_run {moves : List Move} (hbefore : Reachable charter controller)
    (hrun : controller.run charter moves = some next) : Reachable charter next := by
  induction moves generalizing controller with
  | nil => exact Option.some.inj hrun ▸ hbefore
  | cons first rest ih =>
    obtain ⟨between, hfirst, hrest⟩ := Option.bind_eq_some_iff.1 hrun
    exact ih (hbefore.step first hfirst) hrest

/-- **What holds after some moves holds in a controller that can come about.** -/
theorem exists_reachable {P : Controller → Prop} [DecidablePred P] (charter : Charter)
    (moves : List Move)
    (h : (({} : Controller).run charter moves).any (fun controller => decide (P controller)) =
      true) :
    ∃ controller, Reachable charter controller ∧ P controller := by
  obtain ⟨controller, hrun, hholds⟩ := (Option.any_eq_true _ _).1 h
  exact ⟨controller, reachable_of_run .start hrun, of_decide_eq_true hholds⟩

/-! ### What a move does -/

/-- How a call of a pass is served: the answer, and the vigil then. -/
inductive Served (charter : Charter) (controller : Controller) :
    (effect : Effect) → passInterface.Reply effect → Vigil → Prop
  /-- The store answers. -/
  | performed (call : StoreCall) (uid : String) :
    Served charter controller (.store call)
      (controller.vigil.perform controller.now uid call).1
      (controller.vigil.perform controller.now uid call).2
  /-- The call is refused. -/
  | refused (call : StoreCall) {failure : Failure} (refuses : charter.refuses failure = true) :
    Served charter controller (.store call) (.error failure) controller.vigil
  /-- It is no call to the store. -/
  | aside {effect : Effect} (reply : passInterface.Reply effect)
    (aside : ∀ call, effect ≠ .store call) :
    Served charter controller effect reply controller.vigil

/-- What a move comes to, and where the watcher stands before and after it. -/
inductive Moved (charter : Charter) (controller : Controller) :
    Post → Controller → Post → Prop
  /-- A client has made a call. -/
  | called {post : Post} {call : StoreCall} (now : Instant) (uid : String)
    (uncut : call.isCut = false) :
    Moved charter controller post
      { controller with vigil := (controller.vigil.perform now uid call).2 } post
  /-- The watcher has been woken. -/
  | woken {state : WatchState} {waits : Bool} (now : Nat) :
    Moved charter controller (.idle state waits)
      { controller with vigil :=
        { controller.vigil with rest :=
          (Post.woken charter.regime.pace now state waits).program charter.regime.pace } }
      (.woken charter.regime.pace now state waits)
  /-- The watcher has been answered. -/
  | watched {post onward : Post} {effect : WatchEffect} {reply : watchInterface.Reply effect}
    {after : Vigil} (step : Post.Step charter.regime.pace post effect reply onward)
    (served : Vigil.Served charter.regime controller.vigil effect reply after) :
    Moved charter controller post
      { controller with
        vigil := after.advance controller.vigil ⟨effect, reply⟩
          (onward.program charter.regime.pace)
        queue := controller.queue.heard effect }
      onward
  /-- The clock has been set. -/
  | timed {post : Post} (now : Instant) : Moved charter controller post { controller with now } post
  /-- A worker has been handed a target. -/
  | taken {post : Post} {target : Target} {more : Bool} {queue : WorkQueue Target}
    (take : controller.queue.take = (.target target more, queue)) :
    Moved charter controller post
      { controller with queue, handlings := ⟨.opening target, false⟩ :: controller.handlings }
      post
  /-- A pass has been answered. -/
  | answered {post : Post} {place : Nat} {target : Target} {past : Deeds} {effect : Effect}
    {next : passInterface.Reply effect → Steps (Except Failure Outcome)}
    {reply : passInterface.Reply effect} {after : Vigil}
    (current : controller.handlings[place]? = some ⟨⟨target, past, .ask effect next⟩, false⟩)
    (served : Served charter controller effect reply after) :
    Moved charter controller post
      ({ controller with vigil := after }.advance place target past ⟨effect, reply⟩ (next reply))
      post
  /-- A pass has been settled. -/
  | settled {post : Post} {place : Nat} {target : Target} {past : Deeds}
    {result : Except Failure Outcome} {postponed : Postponed} {queue : WorkQueue Target}
    (current : controller.handlings[place]? = some ⟨⟨target, past, .done result⟩, false⟩)
    (settle : controller.queue.settle charter.backoff controller.now target result =
      (postponed, queue)) :
    Moved charter controller post
      ((controller.record place ⟨target, past, .done result⟩ result queue).postpone target
        postponed)
      post
  /-- A target has been given back. -/
  | finished {post : Post} {place : Nat} {journal : Journal}
    (current : controller.handlings[place]? = some ⟨journal, true⟩) :
    Moved charter controller post
      { controller with
        queue := (controller.queue.done journal.target).2
        handlings := controller.handlings.eraseIdx place }
      post
  /-- A timer has fired. -/
  | fired {post : Post} {place : Nat} {timer : Timer}
    (current : controller.timers[place]? = some timer) :
    Moved charter controller post
      { controller with
        queue := (controller.queue.add timer.target).2
        timers := controller.timers.eraseIdx place }
      post

theorem served_answer (uid : String) (effect : Effect) :
    Served charter controller effect (controller.answer uid effect).1
      (controller.answer uid effect).2 := by
  cases effect with
  | store call => exact .performed call uid
  | tell | policies | clock | freshId => exact .aside _ fun _ hstore => by cases hstore

theorem served_refusal {failure : Failure} {effect : Effect} {reply : passInterface.Reply effect}
    (hrefuses : charter.refuses failure = true)
    (h : Cluster.refusal failure effect = some reply) :
    Served charter controller effect reply controller.vigil := by
  cases effect with
  | store call =>
    cases h
    exact .refused call hrefuses
  | tell event =>
    cases h
    exact .aside _ fun _ hstore => by cases hstore
  | policies | clock | freshId => cases h

theorem moved_of_watch (hpost : Vigil.Stands charter.regime controller.vigil post)
    {move : Vigil.Move} {vigil : Vigil}
    (h : controller.vigil.move charter.regime move = some vigil) :
    ∃ onward, Moved charter controller post
      { controller with vigil, queue := controller.hearing move } onward := by
  have hadvanced {effect : WatchEffect}
      {rest : watchInterface.Reply effect → Program watchInterface (WatchState × Bool)}
      {reply : watchInterface.Reply effect} {after : Vigil}
      (hcurrent : controller.vigil.rest = .ask effect rest)
      (hserved : Vigil.Served charter.regime controller.vigil effect reply after) :
      ∃ onward, Moved charter controller post
        { controller with
          vigil := after.advance controller.vigil ⟨effect, reply⟩ (rest reply)
          queue := controller.queue.heard effect } onward := by
    obtain ⟨onward, hstep, hprogram⟩ := post.step_of_ask (hpost.rest.symm.trans hcurrent) reply
    rw [← hprogram]
    exact ⟨onward, .watched hstep hserved⟩
  cases move with
  | client call now uid =>
    simp only [Vigil.move] at h
    split at h
    · cases h
    · next huncut =>
      cases h
      exact ⟨post, .called now uid (Bool.eq_false_iff.2 huncut)⟩
  | wake now =>
    simp only [Vigil.move] at h
    split at h
    · next hidle =>
      cases h
      obtain rfl := Post.idle_of_done (hpost.rest.symm.trans hidle)
      rw [← Post.program_woken]
      exact ⟨_, .woken now⟩
    · cases h
  | answer =>
    simp only [Vigil.move] at h
    split at h
    · next effect rest hcurrent =>
      cases h
      have hqueue : controller.hearing .answer = controller.queue.heard effect := by
        simp only [hearing, hcurrent]
      rw [hqueue]
      exact hadvanced hcurrent (Vigil.served_answer effect)
    · cases h
  | refuse failure =>
    simp only [Vigil.move] at h
    split at h
    · next call rest hcurrent =>
      split at h
      · next hrefuses =>
        cases h
        exact hadvanced hcurrent (.refused call hrefuses)
      · cases h
    · cases h

/-- **Every move comes to one of nine things.** -/
theorem moved_of_move (hpost : Vigil.Stands charter.regime controller.vigil post) {move : Move}
    (h : controller.move charter move = some next) :
    ∃ onward, Moved charter controller post next onward := by
  cases move with
  | watch move =>
    obtain ⟨vigil, hmove, rfl⟩ := Option.map_eq_some_iff.1 h
    exact moved_of_watch hpost hmove
  | clock now =>
    cases h
    exact ⟨post, .timed now⟩
  | take =>
    simp only [Controller.move] at h
    split at h
    · next target more queue htake =>
      cases h
      exact ⟨post, .taken htake⟩
    · cases h
  | answer place uid =>
    simp only [Controller.move] at h
    split at h
    · next target past effect rest hcurrent =>
      cases h
      exact ⟨post, .answered hcurrent (served_answer uid effect)⟩
    · cases h
  | refuse place failure =>
    simp only [Controller.move] at h
    split at h
    · next target past effect rest hcurrent =>
      split at h
      · next hrefuses =>
        obtain ⟨reply, hreply, rfl⟩ := Option.map_eq_some_iff.1 h
        exact ⟨post, .answered hcurrent (served_refusal hrefuses hreply)⟩
      · cases h
    · cases h
  | settle place =>
    simp only [Controller.move] at h
    split at h
    · next target past result hcurrent =>
      cases h
      exact ⟨post, .settled hcurrent rfl⟩
    · cases h
  | finish place =>
    simp only [Controller.move] at h
    split at h
    · next journal hcurrent =>
      cases h
      exact ⟨post, .finished hcurrent⟩
    · cases h
  | fire place =>
    simp only [Controller.move] at h
    split at h
    · next timer hcurrent =>
      cases h
      exact ⟨post, .fired hcurrent⟩
    · cases h

end Controller

end AccessBroker
