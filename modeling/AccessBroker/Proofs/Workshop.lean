import AccessBroker.Proofs.WorkQueue

/-!
# Workshops

A workshop is a work queue with the workers who share it. A worker asks for a target until it is
handed one, works on it and gives it back once, and asks again; told that there will be nothing
more, it goes. Meanwhile anybody may add a target, at once or by a timer, may record a failure or
clear the record, and may close the queue. Each of these is one move (`AccessBroker.Workshop.move`),
and every order of moves is a run.

The log of a workshop says what has happened: which targets were accepted, which of them came to
wait and which were handed out. The queue does not look at it, but what the queue owes can be said
of it: a target that was accepted and not handed out since is *promised*
(`AccessBroker.Workshop.Promised`). What every move preserves is `AccessBroker.Workshop.InOrder`:
what is promised is dirty, what waits is what came to wait less what was handed out, and once every
worker has gone nothing waits. That nothing is lost follows
(`AccessBroker.Workshop.Reachable.nothing_lost`).
-/

namespace AccessBroker

namespace Workshop

/-- What a worker is about. -/
inductive Worker (κ : Type) where
  /-- It asks for a target. -/
  | asking
  /-- It has a target. -/
  | busy (key : κ)
  /-- It was told that there will be nothing more. -/
  | gone
  deriving Repr, DecidableEq

/-- What happens to a target. -/
inductive Note (κ : Type) where
  /-- It was added to an open queue. -/
  | accepted (key : κ)
  /-- It came to wait. -/
  | lined (key : κ)
  /-- It was handed out. -/
  | handed (key : κ)
  deriving Repr, DecidableEq

/-- The log after some targets came to wait, in this order. -/
def lineUp {κ : Type} (log : List (Note κ)) (keys : List κ) : List (Note κ) :=
  keys.foldl (fun log key => .lined key :: log) log

/-- The targets in the order in which they came to wait. -/
def lined {κ : Type} : List (Note κ) → List κ
  | [] => []
  | .lined key :: earlier => lined earlier ++ [key]
  | .accepted _ :: earlier | .handed _ :: earlier => lined earlier

/-- The targets in the order in which they were handed out. -/
def handed {κ : Type} : List (Note κ) → List κ
  | [] => []
  | .handed key :: earlier => handed earlier ++ [key]
  | .accepted _ :: earlier | .lined _ :: earlier => handed earlier

/-- A target was accepted, and was not handed out since. -/
def Promised {κ : Type} (key : κ) : List (Note κ) → Prop
  | [] => False
  | .accepted other :: earlier => other = key ∨ Promised key earlier
  | .handed other :: earlier => other ≠ key ∧ Promised key earlier
  | .lined _ :: earlier => Promised key earlier

end Workshop

/-- A work queue and the workers who share it. -/
structure Workshop (κ : Type) where
  queue : WorkQueue κ := {}
  /-- The targets that timers will add. -/
  timers : List κ := []
  workers : List (Workshop.Worker κ)
  /-- What has happened, the latest first. -/
  log : List (Workshop.Note κ) := []
  deriving Repr, DecidableEq

namespace Workshop

variable {κ : Type} [DecidableEq κ]

/-- What can happen next in a workshop. -/
inductive Move (κ : Type) where
  /-- A target is added. -/
  | add (key : κ)
  /-- A worker asks for a target. -/
  | take (place : Nat)
  /-- A worker gives its target back. -/
  | finish (place : Nat)
  /-- The failures of a target are cleared. -/
  | forget (key : κ)
  /-- A target failed once more, and is to be added again after a delay. -/
  | retry (key : κ)
  /-- A target is to be added after a delay. -/
  | postpone (key : κ) (delay : Nat)
  /-- A timer fires. -/
  | fire (place : Nat)
  /-- The queue is closed. -/
  | close

/-- The workshop with another queue, after some notes: what waits now and did not before has come to
wait. -/
def withQueue (workshop : Workshop κ) (notes : List (Note κ)) (queue : WorkQueue κ) : Workshop κ :=
  { workshop with
    queue
    log := lineUp (notes ++ workshop.log) (queue.queue.filter (· ∉ workshop.queue.queue)) }

/-- The workshop with a worker about something else. -/
def withWorker (workshop : Workshop κ) (place : Nat) (worker : Worker κ) : Workshop κ :=
  { workshop with workers := workshop.workers.set place worker }

/-- What there is to note of a target that is added. A closed queue accepts nothing. -/
def acceptance (workshop : Workshop κ) (key : κ) : List (Note κ) :=
  if workshop.queue.closed then [] else [.accepted key]

/-- Adds a target. -/
def add (workshop : Workshop κ) (key : κ) : Workshop κ :=
  workshop.withQueue (workshop.acceptance key) (workshop.queue.add key).2

/-- Adds a target when it is time to. -/
def postpone (workshop : Workshop κ) (key : κ) : Postponed → Workshop κ
  | .now => workshop.add key
  | .later _ => { workshop with timers := key :: workshop.timers }
  | .never => workshop

/-- The workshop after a move, if it can be made. -/
def move (backoff : Backoff) (workshop : Workshop κ) : Move κ → Option (Workshop κ)
  | .add key => some (workshop.add key)
  | .take place =>
    match workshop.workers[place]? with
    | some .asking =>
      match workshop.queue.take with
      | (.target key _, queue) =>
        some ((workshop.withWorker place (.busy key)).withQueue [.handed key] queue)
      | (.nothingYet, _) => some workshop
      | (.nothingMore, _) => some (workshop.withWorker place .gone)
    | _ => none
  | .finish place =>
    match workshop.workers[place]? with
    | some (.busy key) =>
      some ((workshop.withWorker place .asking).withQueue [] (workshop.queue.done key).2)
    | _ => none
  | .forget key => some { workshop with queue := workshop.queue.forget key }
  | .retry key =>
    let (postponed, queue) := workshop.queue.retry backoff key
    some ({ workshop with queue }.postpone key postponed)
  | .postpone key delay => some (workshop.postpone key (workshop.queue.postpone delay))
  | .fire place =>
    match workshop.timers[place]? with
    | some key => some ({ workshop with timers := workshop.timers.eraseIdx place }.add key)
    | none => none
  | .close => some { workshop with queue := workshop.queue.close }

/-- The workshop after some moves in a row. -/
def run (backoff : Backoff) (workshop : Workshop κ) : List (Move κ) → Option (Workshop κ)
  | [] => some workshop
  | first :: rest => (workshop.move backoff first).bind fun next => next.run backoff rest

/-- The workshop in which a number of workers begin. -/
def opening (κ : Type) (crew : Nat) : Workshop κ where
  workers := List.replicate crew .asking

/-- A workshop can come about, starting with a number of workers and no targets. -/
inductive Reachable (backoff : Backoff) (crew : Nat) : Workshop κ → Prop
  /-- At the start everybody asks for a target. -/
  | start : Reachable backoff crew (opening κ crew)
  /-- Every move goes on from there. -/
  | step {workshop next : Workshop κ} (move : Move κ) (before : Reachable backoff crew workshop)
    (moved : workshop.move backoff move = some next) : Reachable backoff crew next

variable {backoff : Backoff} {crew : Nat} {workshop next : Workshop κ} {key : κ} {place : Nat}

/-- **What some moves lead to can come about.** -/
theorem reachable_of_run {moves : List (Move κ)} (hbefore : Reachable backoff crew workshop)
    (hrun : workshop.run backoff moves = some next) : Reachable backoff crew next := by
  induction moves generalizing workshop with
  | nil => exact Option.some.inj hrun ▸ hbefore
  | cons first rest ih =>
    obtain ⟨between, hfirst, hrest⟩ := Option.bind_eq_some_iff.1 hrun
    exact ih (hbefore.step first hfirst) hrest

/-! ### The log -/

section Log

omit [DecidableEq κ]

variable (log : List (Note κ)) (keys : List κ)

theorem lined_lineUp : lined (lineUp log keys) = lined log ++ keys := by
  induction keys generalizing log with
  | nil => exact (List.append_nil _).symm
  | cons key rest ih =>
    calc lined (lineUp (.lined key :: log) rest)
        = (lined log ++ [key]) ++ rest := ih _
      _ = lined log ++ key :: rest := List.append_assoc _ _ _

theorem handed_lineUp : handed (lineUp log keys) = handed log := by
  induction keys generalizing log with
  | nil => rfl
  | cons key rest ih => exact ih _

theorem promised_lineUp : Promised key (lineUp log keys) ↔ Promised key log := by
  induction keys generalizing log with
  | nil => rfl
  | cons other rest ih => exact ih _

/-- **A target that was accepted** was handed out since, or is promised. -/
theorem promised_of_accepted {log later earlier : List (Note κ)}
    (hlog : log = later ++ .accepted key :: earlier) (hlater : .handed key ∉ later) :
    Promised key log := by
  subst hlog
  induction later with
  | nil => exact .inl rfl
  | cons note rest ih =>
    obtain ⟨hnote, hrest⟩ := not_or.1 (mt List.mem_cons.2 hlater)
    cases note with
    | accepted other => exact .inr (ih hrest)
    | lined other => exact ih hrest
    | handed other => exact ⟨fun hsame => hnote (hsame ▸ rfl), ih hrest⟩

end Log

/-! ### Who has which target -/

/-- The targets that are out are those that workers have, each of them one worker. -/
structure Manned (processing : List κ) (workers : List (Worker κ)) : Prop where
  held (key : κ) : key ∈ processing ↔ ∃ place : Nat, workers[place]? = some (.busy key)
  apart {key : κ} {place other : Nat} : workers[place]? = some (.busy key) →
    workers[other]? = some (.busy key) → place = other

section Workers

variable {processing : List κ} {workers : List (Worker κ)} {current new : Worker κ} {other : Nat}

omit [DecidableEq κ] in
/-- One worker is about something else now, and the others go on. -/
theorem getElem?_set_worker (hplace : workers[place]? = some current) (new : Worker κ)
    (other : Nat) : (workers.set place new)[other]? =
      if place = other then some new else workers[other]? := by
  have hlength : place < workers.length := (List.getElem?_eq_some_iff.1 hplace).1
  rw [List.getElem?_set, if_pos hlength]

omit [DecidableEq κ] in
theorem mem_set_worker (hplace : workers[place]? = some current) (new : Worker κ) :
    new ∈ workers.set place new :=
  List.mem_of_getElem? (i := place) (by rw [getElem?_set_worker hplace, if_pos rfl])

omit [DecidableEq κ] in
/-- Whoever has a target that the changed worker is not given had it before. -/
theorem getElem?_of_set_worker (hplace : workers[place]? = some current) (hnew : new ≠ .busy key)
    (hother : (workers.set place new)[other]? = some (.busy key)) :
    place ≠ other ∧ workers[other]? = some (.busy key) := by
  rw [getElem?_set_worker hplace] at hother
  split at hother
  · exact absurd (Option.some.inj hother) hnew
  · next hne => exact ⟨hne, hother⟩

omit [DecidableEq κ] in
/-- Whoever has a target that the changed worker did not have has it still. -/
theorem getElem?_set_worker_of_busy (hplace : workers[place]? = some current)
    (hcurrent : current ≠ .busy key) (new : Worker κ)
    (hother : workers[other]? = some (.busy key)) :
    (workers.set place new)[other]? = some (.busy key) := by
  rw [getElem?_set_worker hplace, if_neg, hother]
  rintro rfl
  exact hcurrent (Option.some.inj (hplace.symm.trans hother))

omit [DecidableEq κ] in
/-- A target that nobody has is handed to a worker. -/
theorem Manned.handOut (h : Manned processing workers) (hplace : workers[place]? = some .asking)
    (hfree : key ∉ processing) :
    Manned (key :: processing) (workers.set place (.busy key)) := by
  have hmine : (workers.set place (.busy key))[place]? = some (.busy key) := by
    rw [getElem?_set_worker hplace, if_pos rfl]
  have hold {taken : κ} {other : Nat} (hne : key ≠ taken)
      (hother : (workers.set place (.busy key))[other]? = some (.busy taken)) :
      workers[other]? = some (.busy taken) :=
    (getElem?_of_set_worker hplace (fun hsame => hne (Worker.busy.inj hsame)) hother).2
  have hfirst {other : Nat} (hother : (workers.set place (.busy key))[other]? = some (.busy key)) :
      place = other := by
    rw [getElem?_set_worker hplace] at hother
    split at hother
    · assumption
    · exact absurd ((h.held key).2 ⟨other, hother⟩) hfree
  refine ⟨fun taken => ?_, fun {taken first second} hfirst' hsecond => ?_⟩
  · rw [List.mem_cons, h.held taken]
    constructor
    · rintro (rfl | ⟨other, hother⟩)
      · exact ⟨place, hmine⟩
      · exact ⟨other, getElem?_set_worker_of_busy hplace (by simp) _ hother⟩
    · rintro ⟨other, hother⟩
      by_cases hsame : key = taken
      · exact .inl hsame.symm
      · exact .inr ⟨other, hold hsame hother⟩
  · by_cases hsame : key = taken
    · subst hsame
      exact (hfirst hfirst').symm.trans (hfirst hsecond)
    · exact h.apart (hold hsame hfirst') (hold hsame hsecond)

/-- A worker gives its target back. -/
theorem Manned.giveBack (h : Manned processing workers)
    (hplace : workers[place]? = some (.busy key)) :
    Manned (processing.filter (· ≠ key)) (workers.set place .asking) := by
  have hold {taken : κ} {other : Nat}
      (hother : (workers.set place .asking)[other]? = some (.busy taken)) :
      place ≠ other ∧ workers[other]? = some (.busy taken) :=
    getElem?_of_set_worker hplace (fun hsame => by cases hsame) hother
  refine ⟨fun taken => ?_, fun hfirst hsecond => h.apart (hold hfirst).2 (hold hsecond).2⟩
  rw [List.mem_filter, h.held taken, decide_eq_true_eq]
  constructor
  · rintro ⟨⟨other, hother⟩, hne⟩
    exact ⟨other, getElem?_set_worker_of_busy hplace
      (fun hsame => hne (Worker.busy.inj hsame).symm) _ hother⟩
  · rintro ⟨other, hother⟩
    obtain ⟨hne, hbefore⟩ := hold hother
    exact ⟨⟨other, hbefore⟩, fun hsame => hne (h.apart (hsame ▸ hplace) hbefore)⟩

omit [DecidableEq κ] in
/-- A worker goes that had no target. -/
theorem Manned.dismiss (h : Manned processing workers) (hplace : workers[place]? = some .asking) :
    Manned processing (workers.set place .gone) := by
  have hold {taken : κ} {other : Nat}
      (hother : (workers.set place .gone)[other]? = some (.busy taken)) :
      workers[other]? = some (.busy taken) :=
    (getElem?_of_set_worker hplace (fun hsame => by cases hsame) hother).2
  refine ⟨fun taken => (h.held taken).trans ?_,
    fun hfirst hsecond => h.apart (hold hfirst) (hold hsecond)⟩
  exact ⟨fun ⟨other, hother⟩ => ⟨other, getElem?_set_worker_of_busy hplace nofun _ hother⟩,
    fun ⟨other, hother⟩ => ⟨other, hold hother⟩⟩

end Workers

/-! ### What a move preserves -/

/-- The workers and the queue agree on who has which target, and what the log tells is what the
queue holds. -/
structure InOrder (workshop : Workshop κ) : Prop where
  tidy : workshop.queue.Tidy
  manned : Manned workshop.queue.processing workshop.workers
  /-- What waits is what came to wait and was not handed out, in this order. -/
  inTurn : lined workshop.log = handed workshop.log ++ workshop.queue.queue
  /-- What is promised is dirty. -/
  promised {key : κ} : Promised key workshop.log → key ∈ workshop.queue.dirty
  /-- Workers go only when the queue is closed. -/
  closed : .gone ∈ workshop.workers → workshop.queue.closed = true
  /-- The last worker goes only when nothing waits. -/
  drained : (∀ worker ∈ workshop.workers, worker = .gone) → workshop.queue.queue = []
  /-- Somebody was there at the start. -/
  staffed : workshop.workers ≠ []

/-! ### Queues after a section -/

section Sections

variable {queue : WorkQueue κ}

/-- Nothing that waits goes, and whatever else comes to wait comes behind it. -/
def Extends (before after : List κ) : Prop :=
  after = before ++ after.filter (· ∉ before)

theorem filter_not_mem_self (keys : List κ) : keys.filter (· ∉ keys) = [] :=
  List.filter_eq_nil_iff.2 fun _ hkey hnew => of_decide_eq_true hnew hkey

theorem extends_self (keys : List κ) : Extends keys keys := by
  rw [Extends, filter_not_mem_self, List.append_nil]

theorem extends_concat {keys : List κ} (hkey : key ∉ keys) : Extends keys (keys ++ [key]) := by
  have hnew : [key].filter (· ∉ keys) = [key] :=
    List.filter_eq_self.2 fun other hother => decide_eq_true (List.mem_singleton.1 hother ▸ hkey)
  rw [Extends, List.filter_append, filter_not_mem_self, List.nil_append, hnew]

theorem extends_add (h : queue.Tidy) (key : κ) :
    Extends queue.queue (queue.add key).2.queue := by
  unfold WorkQueue.add
  split
  · exact extends_self _
  · next hnew =>
    dsimp only
    split
    · exact extends_self _
    · refine extends_concat fun hqueued => hnew ?_
      rw [Bool.or_eq_true, List.contains_iff_mem]
      exact .inr ((h.waiting key).1 hqueued).1

theorem extends_done (h : queue.Tidy) (hkey : key ∈ queue.processing) :
    Extends queue.queue (queue.done key).2.queue := by
  unfold WorkQueue.done
  dsimp only
  split
  · exact extends_concat fun hqueued => ((h.waiting key).1 hqueued).2 hkey
  · exact extends_self _

/-- A closed queue takes nothing. -/
theorem add_of_closed (hclosed : queue.closed = true) (key : κ) : (queue.add key).2 = queue := by
  rw [WorkQueue.add, hclosed, Bool.true_or, if_pos rfl]

end Sections

section Lines

variable {notes : List (Note κ)} {queue : WorkQueue κ}

/-- As long as nothing is handed out, what waits stays in turn. -/
theorem InOrder.inTurn_withQueue (h : InOrder workshop)
    (hlined : lined (notes ++ workshop.log) = lined workshop.log)
    (hhanded : handed (notes ++ workshop.log) = handed workshop.log)
    (hqueue : Extends workshop.queue.queue queue.queue) :
    lined (workshop.withQueue notes queue).log =
      handed (workshop.withQueue notes queue).log ++ queue.queue := by
  rw [withQueue, lined_lineUp, handed_lineUp, hlined, hhanded, h.inTurn, List.append_assoc]
  exact congrArg _ hqueue.symm

theorem promised_withQueue :
    Promised key (workshop.withQueue notes queue).log ↔ Promised key (notes ++ workshop.log) :=
  promised_lineUp _ _

end Lines

omit [DecidableEq κ] in
/-- Where everybody has gone, the queue is closed. -/
theorem InOrder.closed_of_gone (h : InOrder workshop)
    (hgone : ∀ worker ∈ workshop.workers, worker = .gone) : workshop.queue.closed = true := by
  obtain ⟨worker, hworker⟩ := List.exists_mem_of_ne_nil _ h.staffed
  exact h.closed (hgone worker hworker ▸ hworker)

/-! ### Adding a target -/

theorem InOrder.add (h : InOrder workshop) (key : κ) : InOrder (workshop.add key) where
  tidy := h.tidy.add key
  manned := by
    change Manned (workshop.queue.add key).2.processing workshop.workers
    rw [WorkQueue.processing_add]
    exact h.manned
  inTurn := by
    refine h.inTurn_withQueue ?_ ?_ (extends_add h.tidy key)
    · unfold acceptance
      split <;> rfl
    · unfold acceptance
      split <;> rfl
  promised {other} hpromised := by
    have hpromised : Promised other (workshop.acceptance key ++ workshop.log) :=
      promised_withQueue.1 hpromised
    unfold acceptance at hpromised
    split at hpromised
    · exact WorkQueue.mem_dirty_add key (h.promised hpromised)
    · next hopen =>
      rcases hpromised with rfl | hearlier
      · exact WorkQueue.mem_dirty_add_self (Bool.eq_false_iff.2 hopen) _
      · exact WorkQueue.mem_dirty_add key (h.promised hearlier)
  closed hgone := (workshop.queue.closed_add key).trans (h.closed hgone)
  drained hgone := by
    have hclosed := h.closed_of_gone hgone
    change (workshop.queue.add key).2.queue = []
    rw [add_of_closed hclosed]
    exact h.drained hgone
  staffed := h.staffed

theorem InOrder.postpone (h : InOrder workshop) (key : κ) (postponed : Postponed) :
    InOrder (workshop.postpone key postponed) := by
  cases postponed with
  | now => exact h.add key
  | later | never =>
    exact ⟨h.tidy, h.manned, h.inTurn, h.promised, h.closed, h.drained, h.staffed⟩

omit [DecidableEq κ] in
/-- Neither the timers nor the records of failures have a part in this. -/
theorem InOrder.aside (h : InOrder workshop) (timers : List κ) (failures : List (κ × Nat)) :
    InOrder { workshop with timers, queue := { workshop.queue with failures } } :=
  ⟨⟨h.tidy.queued, h.tidy.handed, h.tidy.waiting⟩, h.manned, h.inTurn, h.promised, h.closed,
    h.drained, h.staffed⟩

/-! ### Workers -/

omit [DecidableEq κ] in
/-- As long as a worker is there, not everybody has gone. -/
theorem not_all_gone {workers : List (Worker κ)} {current new : Worker κ}
    (hplace : workers[place]? = some current) (hnew : new ≠ .gone) :
    ¬∀ worker ∈ workers.set place new, worker = .gone :=
  fun hgone => hnew (hgone new (mem_set_worker hplace new))

/-- **A worker is handed a target.** -/
theorem InOrder.handOut (h : InOrder workshop) {queue : WorkQueue κ} {more : Bool}
    (hplace : workshop.workers[place]? = some .asking)
    (htake : workshop.queue.take = (.target key more, queue)) :
    InOrder ((workshop.withWorker place (.busy key)).withQueue [.handed key] queue) := by
  have htidy := h.tidy.take htake
  obtain ⟨rest, hqueue, rfl⟩ := WorkQueue.take_eq_target htake
  have hfree : key ∉ workshop.queue.processing :=
    ((h.tidy.waiting key).1 (hqueue ▸ List.mem_cons_self)).2
  have hnone : rest.filter (· ∉ workshop.queue.queue) = [] := by
    rw [hqueue]
    exact List.filter_eq_nil_iff.2 fun other hother hnew =>
      of_decide_eq_true hnew (List.mem_cons_of_mem _ hother)
  exact {
    tidy := htidy
    manned := h.manned.handOut hplace hfree
    inTurn := by
      have hturn := h.inTurn
      rw [hqueue] at hturn
      change lined (lineUp (.handed key :: workshop.log) (rest.filter (· ∉ workshop.queue.queue))) =
        handed (lineUp (.handed key :: workshop.log) (rest.filter (· ∉ workshop.queue.queue))) ++
          rest
      rw [hnone]
      exact hturn.trans (List.append_assoc _ [key] rest).symm
    promised := fun {other} hpromised => by
      obtain ⟨hne, hearlier⟩ := promised_withQueue.1 hpromised
      exact List.mem_filter.2 ⟨h.promised hearlier, decide_eq_true (Ne.symm hne)⟩
    closed := fun hgone => by
      rcases List.mem_or_eq_of_mem_set hgone with hbefore | hsame
      · exact h.closed hbefore
      · cases hsame
    drained := fun hgone => absurd hgone (not_all_gone hplace nofun)
    staffed := List.ne_nil_of_mem (mem_set_worker hplace _) }

/-- **A worker gives its target back.** -/
theorem InOrder.giveBack (h : InOrder workshop)
    (hplace : workshop.workers[place]? = some (.busy key)) :
    InOrder ((workshop.withWorker place .asking).withQueue [] (workshop.queue.done key).2) where
  tidy := h.tidy.done ((h.manned.held key).2 ⟨place, hplace⟩)
  manned := by
    change Manned (workshop.queue.done key).2.processing (workshop.workers.set place .asking)
    rw [WorkQueue.processing_done]
    exact h.manned.giveBack hplace
  inTurn := by
    have hbusy : key ∈ workshop.queue.processing := (h.manned.held key).2 ⟨place, hplace⟩
    exact h.inTurn_withQueue rfl rfl (extends_done h.tidy hbusy)
  promised {other} hpromised := by
    change other ∈ (workshop.queue.done key).2.dirty
    rw [WorkQueue.dirty_done]
    exact h.promised (promised_withQueue.1 hpromised)
  closed hgone := by
    refine (workshop.queue.closed_done key).trans ?_
    rcases List.mem_or_eq_of_mem_set hgone with hbefore | hsame
    · exact h.closed hbefore
    · cases hsame
  drained hgone := absurd hgone (not_all_gone hplace nofun)
  staffed := List.ne_nil_of_mem (mem_set_worker hplace _)

omit [DecidableEq κ] in
/-- **A worker goes** when nothing waits and nothing more will be accepted. -/
theorem InOrder.dismiss (h : InOrder workshop) (hplace : workshop.workers[place]? = some .asking)
    (hqueue : workshop.queue.queue = []) (hclosed : workshop.queue.closed = true) :
    InOrder (workshop.withWorker place .gone) where
  tidy := h.tidy
  manned := h.manned.dismiss hplace
  inTurn := h.inTurn
  promised := h.promised
  closed _ := hclosed
  drained _ := hqueue
  staffed := List.ne_nil_of_mem (mem_set_worker hplace _)

/-- **Every move keeps a workshop in order.** -/
theorem InOrder.moved (h : InOrder workshop) {move : Move κ}
    (hmove : workshop.move backoff move = some next) : InOrder next := by
  cases move with
  | add key =>
    cases hmove
    exact h.add key
  | take place =>
    simp only [move] at hmove
    split at hmove
    · next hplace =>
      rcases workshop.queue.take_cases with ⟨key, rest, -, htake⟩ | ⟨hqueue, hclosed, htake⟩ |
        ⟨-, -, htake⟩
      · rw [htake] at hmove
        cases hmove
        exact h.handOut hplace htake
      · rw [htake] at hmove
        cases hmove
        exact h.dismiss hplace hqueue hclosed
      · rw [htake] at hmove
        cases hmove
        exact h
    · cases hmove
  | finish place =>
    simp only [move] at hmove
    split at hmove
    · next hplace =>
      cases hmove
      exact h.giveBack hplace
    · cases hmove
  | forget key =>
    cases hmove
    exact h.aside _ _
  | retry key =>
    cases hmove
    exact (h.aside _ _).postpone key _
  | postpone key delay =>
    cases hmove
    exact h.postpone key _
  | fire place =>
    simp only [move] at hmove
    split at hmove
    · cases hmove
      exact (h.aside _ _).add _
    · cases hmove
  | close =>
    cases hmove
    exact ⟨⟨h.tidy.queued, h.tidy.handed, h.tidy.waiting⟩, h.manned, h.inTurn, h.promised,
      fun _ => rfl, h.drained, h.staffed⟩

omit [DecidableEq κ] in
/-- At the start nobody has a target, and nobody has gone. -/
theorem inOrder_opening (hcrew : 0 < crew) : InOrder (opening κ crew) := by
  have hasking {worker : Worker κ} (hworker : worker ∈ (opening κ crew).workers) :
      worker = .asking := List.eq_of_mem_replicate hworker
  have hstaffed : (opening κ crew).workers ≠ [] := by
    rw [opening, ne_eq, List.replicate_eq_nil_iff]
    omega
  have hnobody {key : κ} {place : Nat} :
      (opening κ crew).workers[place]? ≠ some (.busy key) := fun hplace => by
    cases hasking (List.mem_of_getElem? hplace)
  exact {
    tidy := WorkQueue.tidy_empty
    manned := ⟨fun key => ⟨nofun, fun ⟨_, hplace⟩ => absurd hplace hnobody⟩,
      fun hplace => absurd hplace hnobody⟩
    inTurn := rfl
    promised := nofun
    closed := fun hgone => by cases hasking hgone
    drained := fun _ => rfl
    staffed := hstaffed }

/-- **A workshop is always in order.** -/
theorem Reachable.inOrder (h : Reachable backoff crew workshop) (hcrew : 0 < crew) :
    InOrder workshop := by
  induction h with
  | start => exact inOrder_opening hcrew
  | step _ _ hmoved ih => exact ih.moved hmoved

/-! ### Nothing is lost -/

/-- **No target is lost, and none is with two workers**, in whatever order things happen. No target
waits twice, and those that wait are those that are dirty and that no worker has. Targets are handed
out in the order in which they came to wait. A target that was accepted is handed out afterwards,
unless it waits or a worker has it, who has not given it back. And once every worker was told that
there will be nothing more, nothing is left. -/
theorem Reachable.nothing_lost (h : Reachable backoff crew workshop) (hcrew : 0 < crew) :
    workshop.queue.queue.Nodup ∧
    (∀ key, key ∈ workshop.queue.queue ↔
      key ∈ workshop.queue.dirty ∧ key ∉ workshop.queue.processing) ∧
    (∀ key, key ∈ workshop.queue.processing ↔
      ∃ place : Nat, workshop.workers[place]? = some (.busy key)) ∧
    (∀ key, ∀ place other : Nat, workshop.workers[place]? = some (.busy key) →
      workshop.workers[other]? = some (.busy key) → place = other) ∧
    lined workshop.log = handed workshop.log ++ workshop.queue.queue ∧
    (∀ key later earlier, workshop.log = later ++ .accepted key :: earlier →
      .handed key ∈ later ∨ key ∈ workshop.queue.queue ∨
        ∃ place : Nat, workshop.workers[place]? = some (.busy key)) ∧
    ((∀ worker ∈ workshop.workers, worker = .gone) →
      workshop.queue.dirty = [] ∧ workshop.queue.queue = [] ∧
        workshop.queue.processing = []) := by
  have horder := h.inOrder hcrew
  refine ⟨horder.tidy.queued, horder.tidy.waiting, horder.manned.held,
    fun _ _ _ => horder.manned.apart, horder.inTurn, fun key later earlier hlog => ?_,
    fun hgone => ?_⟩
  · by_cases hlater : .handed key ∈ later
    · exact .inl hlater
    · refine .inr ?_
      rw [← horder.manned.held key]
      exact horder.tidy.held (horder.promised (promised_of_accepted hlog hlater))
  · have hqueue := horder.drained hgone
    have hprocessing : workshop.queue.processing = [] := List.eq_nil_iff_forall_not_mem.2
      fun key hkey => by
        obtain ⟨place, hplace⟩ := (horder.manned.held key).1 hkey
        cases hgone _ (List.mem_of_getElem? hplace)
    have hdirty : workshop.queue.dirty = [] := List.eq_nil_iff_forall_not_mem.2 fun key hkey => by
      rcases horder.tidy.held hkey with hqueued | hheld
      · exact List.not_mem_nil (hqueue ▸ hqueued)
      · exact List.not_mem_nil (hprocessing ▸ hheld)
    exact ⟨hdirty, hqueue, hprocessing⟩

/-- Two workers share a queue. The first target is added again while a worker has it, and a third
one by a timer; then the queue is closed, and the workers work off what is left. -/
def Scenario.shift : List (Move Nat) :=
  [.add 1, .add 2, .take 0, .add 1, .take 1, .finish 0, .retry 3, .fire 0, .close, .add 4,
    .take 0, .finish 1, .take 1, .finish 0, .take 0, .finish 1, .take 1]

/-- Each target has been handed out as often as it came to wait, and nothing is left. -/
theorem nothing_lost_shift : ∃ workshop : Workshop Nat, Reachable ⟨5, 1000⟩ 2 workshop ∧ 0 < 2 ∧
    workshop.queue.closed = true ∧ handed workshop.log = [1, 2, 1, 3] ∧
    workshop.queue.dirty = [] ∧ workshop.queue.processing = [] := by
  obtain ⟨workshop, hrun, hclosed, hlined, hworkers⟩ : ∃ workshop,
      (opening Nat 2).run ⟨5, 1000⟩ Scenario.shift = some workshop ∧
      workshop.queue.closed = true ∧ lined workshop.log = [1, 2, 1, 3] ∧
      workshop.workers = [.gone, .gone] := ⟨_, rfl, rfl, rfl, rfl⟩
  have hreachable := reachable_of_run .start hrun
  obtain ⟨-, -, -, -, hinTurn, -, hleft⟩ := Reachable.nothing_lost hreachable (by decide)
  obtain ⟨hdirty, hqueue, hprocessing⟩ := hleft fun worker hworker => by
    rw [hworkers] at hworker
    exact List.eq_of_mem_replicate (n := 2) hworker
  rw [hqueue, List.append_nil, hlined] at hinTurn
  exact ⟨workshop, hreachable, by decide, hclosed, hinTurn.symm, hdirty, hprocessing⟩

end Workshop

end AccessBroker
