import AccessBroker.Lease.Coordinator
import AccessBroker.Proofs.Conduct
import AccessBroker.Proofs.Lease.Commands

/-!
# Who leads

Any number of controllers take, renew and give back leases at one server, each operation going on
command by command between those of the others (`AccessBroker.Contest`). A controller may stop in
the middle, an answer may be lost after its command was carried out, a lease may be renewed or given
back long after it has ended, and no two identifiers need to differ.

The log of a contest holds what commands have done. The tenure of a token on a key
(`AccessBroker.Contest.tenure?`) is drawn from it: it begins with the latest time that the token was
written there, by taking or renewing the lease, and ends when the lease is given back, or with its
time.

**While a tenure lasts, the key holds its token until its end**
(`AccessBroker.Contest.Sound.stored`), since every feat on a key that holds a token is that token's
own. An operation in turn gives a lease, or says that it was renewed, only for what its last command
has done (`AccessBroker.LeaseTask.Earned`).
-/

namespace AccessBroker

open Leasing LeaseServer

/-- An operation on leases. -/
inductive LeaseTask where
  /-- Takes the lease of a scope. -/
  | acquire (scope holder : String) (seconds : Nat)
  /-- Renews a lease. -/
  | renew (lease : Lease) (seconds : Nat)
  /-- Gives a lease back. -/
  | release (lease : Lease)
  deriving DecidableEq

namespace LeaseTask

/-- What an operation gives. -/
abbrev Result : LeaseTask → Type
  | acquire _ _ _ => Option Lease
  | renew _ _ => Bool
  | release _ => Unit

/-- The program of an operation; all keys have the same start. -/
def program (start : String) :
    (task : LeaseTask) → Program leaseInterface (Except Failure task.Result)
  | acquire scope holder seconds => (Leasing.acquire start scope holder seconds).run
  | renew lease seconds => (Leasing.renew start lease seconds).run
  | release lease => (Leasing.release start lease).run

/-- The lease that an operation is given. -/
def lease? : LeaseTask → Option Lease
  | acquire _ _ _ => none
  | renew lease _ | release lease => some lease

end LeaseTask

/-- What a call has done, judged by its answer. -/
def LeaseEffect.feat? (time : Nat) :
    (effect : LeaseEffect) → leaseInterface.Reply effect → Option LeaseFeat
  | .command asked, some value => asked.feat? time value
  | _, _ => none

namespace LeaseTask

/-- The commands of an operation. An operation on a lease runs scripts only, with the token of the
lease. -/
def Allows (start : String) (task : LeaseTask) (_ : List (Deed leaseInterface)) :
    LeaseEffect → Prop
  | .command command => ∀ lease, task.lease? = some lease →
    (∃ script seconds, command = .runScript script (keyOf start lease.scope) lease.token seconds) ∨
      ∃ script, command = .loadScript script
  | _ => True

/-- The latest deed has written a token. -/
def Wrote (key token : String) (seconds : Nat) (past : List (Deed leaseInterface)) : Prop :=
  ∃ deed earlier, past = deed :: earlier ∧
    ∀ time, deed.call.feat? time deed.reply = some (.held key token time seconds)

/-- **An operation says that a lease is held only for what its last command has done.** -/
def Earned (start : String) : (task : LeaseTask) → List (Deed leaseInterface) →
    Except Failure task.Result → Prop
  | acquire scope _ seconds, past, .ok (some lease) =>
    lease.scope = scope ∧ Wrote (keyOf start scope) lease.token seconds past
  | renew lease seconds, past, .ok true =>
    Wrote (keyOf start lease.scope) lease.token seconds past
  | _, _, _ => True

variable {start : String} {task : LeaseTask} {past : List (Deed leaseInterface)}

/-- A condition on the end of an operation that only concerns its success. -/
theorem earned_error {failure : Failure} : task.Earned start past (.error failure) := by
  cases task <;> trivial

theorem acquire_obeys (scope holder : String) (seconds : Nat) :
    (Leasing.acquire start scope holder seconds).run.Obeys
      ((acquire scope holder seconds).Allows start)
      ((acquire scope holder seconds).Earned start) [] := by
  unfold Leasing.acquire
  cases checkArguments scope holder seconds with
  | error failure => exact trivial
  | ok _ =>
    refine ⟨trivial, fun id => ⟨trivial, fun connected => ?_⟩⟩
    cases connected with
    | none => exact trivial
    | some _ =>
      refine ⟨nofun, fun reply => ?_⟩
      match reply with
      | none => exact trivial
      | some false => exact trivial
      | some true => exact ⟨rfl, _, _, rfl, fun time => rfl⟩

/-- A lease without a scope, a holder or a duration is refused. -/
theorem checkArguments_of_blank {scope holder : String} {seconds : Nat}
    (h : Text.isBlankText scope = true ∨ Text.isBlankText holder = true ∨ seconds = 0) :
    ∃ text, checkArguments scope holder seconds = .error (.validation text) := by
  unfold checkArguments
  split
  · exact ⟨_, rfl⟩
  split
  · exact ⟨_, rfl⟩
  · next hscope hholder =>
    rcases h with h | h | rfl
    · exact absurd h hscope
    · exact absurd h hholder
    · exact ⟨_, rfl⟩

/-- A script is run once, or once more after it was given to the server. -/
theorem runScript_obeys {ends : List (Deed leaseInterface) → Except Failure Bool → Prop}
    {lease : Lease} {seconds : Nat} (job : String) (script : LeaseScript)
    (htask : task.lease? = some lease)
    (hran : ∀ past hasActed, ends (⟨.command (.runScript script (keyOf start lease.scope)
      lease.token seconds), some (.ran hasActed)⟩ :: past) (.ok hasActed))
    (herror : ∀ past failure, ends past (.error failure)) :
    (Leasing.runScript job script (keyOf start lease.scope) lease.token seconds).run.Obeys
      (task.Allows start) ends past := by
  have hrun : ∀ past, task.Allows start past
      (.command (.runScript script (keyOf start lease.scope) lease.token seconds)) := by
    intro past other hother
    obtain rfl := Option.some.inj (htask.symm.trans hother)
    exact .inl ⟨script, seconds, rfl⟩
  refine ⟨hrun _, fun reply => ?_⟩
  match reply with
  | none => exact herror _ _
  | some (.ran hasActed) => exact hran _ _
  | some .unknown =>
    refine ⟨fun _ _ => .inr ⟨script, rfl⟩, fun loaded => ?_⟩
    match loaded with
    | none => exact herror _ _
    | some _ =>
      refine ⟨hrun _, fun reply => ?_⟩
      match reply with
      | none => exact herror _ _
      | some (.ran hasActed) => exact hran _ _
      | some .unknown => exact herror _ _

theorem renew_obeys (lease : Lease) (seconds : Nat) :
    (Leasing.renew start lease seconds).run.Obeys ((renew lease seconds).Allows start)
      ((renew lease seconds).Earned start) [] := by
  unfold Leasing.renew
  cases checkSeconds seconds with
  | error failure => exact trivial
  | ok _ =>
    refine ⟨trivial, fun connected => ?_⟩
    cases connected with
    | none => exact trivial
    | some _ =>
      refine runScript_obeys "renew" .renew rfl (fun past hasActed => ?_) fun _ _ => earned_error
      cases hasActed with
      | false => exact trivial
      | true => exact ⟨_, _, rfl, fun time => rfl⟩

theorem release_obeys (lease : Lease) :
    (Leasing.release start lease).run.Obeys ((release lease).Allows start)
      ((release lease).Earned start) [] := by
  refine ⟨trivial, fun connected => ?_⟩
  cases connected with
  | none => exact trivial
  | some _ =>
    have hscript : (Leasing.runScript "release" .release (keyOf start lease.scope) lease.token
        0).run.Obeys ((release lease).Allows start) (fun _ _ => True)
        [⟨.connect, (some () : Option Unit)⟩] :=
      runScript_obeys "release" .release rfl (fun _ _ => trivial) fun _ _ => trivial
    show Program.Obeys _ _ (ExceptT.run (Leasing.runScript "release" .release
      (keyOf start lease.scope) lease.token 0) >>= ExceptT.bindCont fun _ => pure ()) _
    refine Program.obeys_bind (hscript.mono fun past result _ => ?_)
    cases result <;> exact trivial

/-- **Every operation** keeps to its commands, and says only what they have done. -/
theorem program_obeys (start : String) (task : LeaseTask) :
    (task.program start).Obeys (task.Allows start) (task.Earned start) [] := by
  cases task with
  | acquire scope holder seconds => exact acquire_obeys scope holder seconds
  | renew lease seconds => exact renew_obeys lease seconds
  | release lease => exact release_obeys lease

end LeaseTask

/-! ### The contest -/

/-- An operation that is underway: what it has done, the latest first, and what remains to be
done. -/
structure Undertaking where
  task : LeaseTask
  past : List (Deed leaseInterface)
  rest : Program leaseInterface (Except Failure task.Result)

namespace Contest

/-- How a call fares between an operation and the server. -/
inductive Passage where
  /-- The call is carried out, and the answer is heard. -/
  | heard
  /-- The call is carried out, but the answer is lost. -/
  | lost
  /-- The call does not get through. -/
  | refused
  deriving Repr, DecidableEq

/-- The time from which a token holds a key, and for how many seconds. -/
structure Tenure where
  since : Nat
  seconds : Nat
  deriving Repr, DecidableEq

/-- When a tenure ends. -/
def Tenure.until (tenure : Tenure) : Nat :=
  tenure.since + millis tenure.seconds

/-- The tenure of a token on a key: it was written there, and not removed since. -/
def tenure? (key token : String) : List LeaseFeat → Option Tenure
  | [] => none
  | .held other theirs time seconds :: earlier =>
    if other = key ∧ theirs = token then some ⟨time, seconds⟩ else tenure? key token earlier
  | .freed other theirs :: earlier =>
    if other = key ∧ theirs = token then none else tenure? key token earlier

end Contest

/-- A lease server with those who use it. -/
structure Contest where
  server : LeaseServer := {}
  /-- The clock, in milliseconds. -/
  now : Nat := 0
  undertakings : List Undertaking := []
  /-- What commands have done, the latest first. -/
  log : List LeaseFeat := []

namespace Contest

/-- What can happen next in a contest. -/
inductive Move where
  /-- Time passes. -/
  | wait (duration : Nat)
  /-- Somebody begins an operation. -/
  | start (task : LeaseTask)
  /-- The next call of an operation is answered; a fresh identifier is the given one. -/
  | answer (place : Nat) (passage : Passage) (id : String)

/-- What becomes of a call: its answer, the server after it, and what it has done. -/
def serve (contest : Contest) (passage : Passage) (id : String) :
    (effect : LeaseEffect) → leaseInterface.Reply effect × LeaseServer × Option LeaseFeat
  | .connect => (if passage = .heard then some () else none, contest.server, none)
  | .freshId => (id, contest.server, none)
  | .command order =>
    if passage = .refused then (none, contest.server, none)
    else
      let (value, server) := contest.server.execute contest.now order
      (if passage = .heard then some value else none, server, order.feat? contest.now value)

/-- The contest after the next call of an operation, if it makes any more. -/
def answer (contest : Contest) (place : Nat) (passage : Passage) (id : String) :
    Undertaking → Option Contest
  | ⟨_, _, .done _⟩ => none
  | ⟨task, past, .ask effect next⟩ =>
    let (reply, server, feat?) := contest.serve passage id effect
    some { contest with
      server
      undertakings := contest.undertakings.set place ⟨task, ⟨effect, reply⟩ :: past, next reply⟩
      log := feat?.toList ++ contest.log }

/-- The contest after a move, if it can be made. -/
def move (start : String) (contest : Contest) : Move → Option Contest
  | .wait duration => some { contest with now := contest.now + duration }
  | .start task =>
    some { contest with undertakings := contest.undertakings ++ [⟨task, [], task.program start⟩] }
  | .answer place passage id => contest.undertakings[place]?.bind (contest.answer place passage id)

/-- The contest after some moves in a row. -/
def run (start : String) (contest : Contest) : List Move → Option Contest
  | [] => some contest
  | first :: rest => (contest.move start first).bind fun next => next.run start rest

/-- A contest can come about, starting with a server that holds nothing. -/
inductive Reachable (start : String) : Contest → Prop
  /-- At the start nothing has happened. -/
  | start : Reachable start {}
  /-- Every move goes on from there. -/
  | step {contest next : Contest} (move : Move) (before : Reachable start contest)
    (moved : contest.move start move = some next) : Reachable start next

/-- What there is under a key now. -/
def stored? (contest : Contest) (key : String) : Option LeaseEntry :=
  contest.server.stored? contest.now key

variable {start key token : String} {contest next : Contest} {move : Move} {place : Nat}
  {passage : Passage} {id : String} {effect : LeaseEffect} {feat : LeaseFeat}

/-- **What some moves lead to can come about.** -/
theorem reachable_of_run {moves : List Move} (hbefore : Reachable start contest)
    (hrun : contest.run start moves = some next) : Reachable start next := by
  induction moves generalizing contest with
  | nil => exact Option.some.inj hrun ▸ hbefore
  | cons first rest ih =>
    obtain ⟨between, hfirst, hrest⟩ := Option.bind_eq_some_iff.1 hrun
    exact ih (hbefore.step first hfirst) hrest

/-! ### One call -/

theorem stored?_serve : (contest.serve passage id effect).2.1.stored? contest.now key =
    LeaseFeat.leaves contest.now key (contest.stored? key)
      (contest.serve passage id effect).2.2 := by
  cases effect with
  | connect | freshId => rfl
  | command order =>
    cases passage with
    | heard | lost => exact stored?_execute order
    | refused => rfl

/-- A call that has done something was a command, carried out. -/
theorem executed_of_feat (hfeat : (contest.serve passage id effect).2.2 = some feat) :
    ∃ order, effect = .command order ∧
      order.feat? contest.now (contest.server.execute contest.now order).1 = some feat := by
  cases effect with
  | connect | freshId => cases hfeat
  | command order =>
    cases passage with
    | heard | lost => exact ⟨order, rfl, hfeat⟩
    | refused => cases hfeat

/-- **An answer that speaks of a feat** is that of a call which has done it. -/
theorem feat_of_reply
    (hfeat : effect.feat? contest.now (contest.serve passage id effect).1 = some feat) :
    (contest.serve passage id effect).2.2 = some feat := by
  cases effect with
  | connect | freshId => cases hfeat
  | command order =>
    cases passage with
    | heard => exact hfeat
    | lost | refused => cases hfeat

/-- **An answered call**: what it was, and what it did. -/
theorem answered (hmove : contest.move start (.answer place passage id) = some next) :
    ∃ task past, ∃ effect : LeaseEffect, ∃ rest,
      contest.undertakings[place]? = some ⟨task, past, .ask effect rest⟩ ∧
      next = { contest with
        server := (contest.serve passage id effect).2.1
        undertakings := contest.undertakings.set place
          ⟨task, ⟨effect, (contest.serve passage id effect).1⟩ :: past,
            rest (contest.serve passage id effect).1⟩
        log := (contest.serve passage id effect).2.2.toList ++ contest.log } := by
  obtain ⟨⟨task, past, program⟩, hplace, hanswer⟩ := Option.bind_eq_some_iff.1 hmove
  cases program with
  | done result => cases hanswer
  | ask effect rest => exact ⟨task, past, effect, rest, hplace, (Option.some.inj hanswer).symm⟩

/-! ### Tenures -/

/-- **The invariant of a contest.** -/
structure Sound (start : String) (contest : Contest) : Prop where
  /-- While a tenure lasts, the key holds its token until its end. -/
  stored {key token : String} {tenure : Tenure} : tenure? key token contest.log = some tenure →
    contest.now < tenure.until → contest.stored? key = some ⟨token, some tenure.until⟩
  /-- Operations keep to their commands, and say only what these have done. -/
  upright {undertaking : Undertaking} : undertaking ∈ contest.undertakings →
    undertaking.rest.Obeys (undertaking.task.Allows start) (undertaking.task.Earned start)
      undertaking.past

/-- A feat of another key, or another token, leaves a tenure as it is. -/
theorem tenure?_cons_of_ne {log : List LeaseFeat}
    (hfeat : ¬(feat.key = key ∧ feat.token = token)) :
    tenure? key token (feat :: log) = tenure? key token log := by
  cases feat with
  | held | freed => exact if_neg hfeat

/-- After a feat of its own, a token has the entry that its tenure says. -/
theorem left_of_tenure {log : List LeaseFeat} {tenure : Tenure}
    (htenure : tenure? feat.key feat.token (feat :: log) = some tenure) :
    feat.left = some ⟨feat.token, some tenure.until⟩ := by
  cases feat with
  | held key token time seconds =>
    rw [tenure?, if_pos ⟨rfl, rfl⟩] at htenure
    obtain rfl := Option.some.inj htenure
    rfl
  | freed key token =>
    rw [tenure?, if_pos ⟨rfl, rfl⟩] at htenure
    cases htenure

/-- **A feat keeps what tenures say**: it is on another key, or of the token that holds it. -/
theorem Sound.stored_of_feat (h : Sound start contest) {tenure : Tenure}
    (hfeat : (contest.serve passage id effect).2.2 = some feat)
    (htenure : tenure? key token (feat :: contest.log) = some tenure)
    (hlasts : contest.now < tenure.until) :
    (contest.serve passage id effect).2.1.stored? contest.now key =
      some ⟨token, some tenure.until⟩ := by
  obtain ⟨order, rfl, hdone⟩ := executed_of_feat hfeat
  rw [stored?_serve, hfeat, LeaseFeat.leaves]
  by_cases hkey : key = feat.key
  · subst hkey
    rw [if_pos rfl]
    by_cases htoken : feat.token = token
    · subst htoken
      rw [left_of_tenure htenure]
      exact Option.filter_some_pos (decide_eq_true hlasts)
    · rw [tenure?_cons_of_ne fun hboth => htoken hboth.2] at htenure
      exact absurd (token_of_feat hdone (h.stored htenure hlasts)) htoken
  · rw [if_neg hkey]
    rw [tenure?_cons_of_ne fun hboth => hkey hboth.1.symm] at htenure
    exact h.stored htenure hlasts

theorem Sound.step (h : Sound start contest) (hmove : contest.move start move = some next) :
    Sound start next := by
  cases move with
  | wait duration =>
    obtain rfl := Option.some.inj hmove
    refine ⟨fun {key token tenure} htenure hlasts => ?_, h.upright⟩
    have hbefore : contest.now < tenure.until := Nat.lt_of_le_of_lt (Nat.le_add_right _ _) hlasts
    show contest.server.stored? (contest.now + duration) key = _
    rw [stored?_later (Nat.le_add_right contest.now duration)]
    show (contest.stored? key).filter _ = _
    rw [h.stored htenure hbefore]
    exact Option.filter_some_pos (decide_eq_true hlasts)
  | start task =>
    obtain rfl := Option.some.inj hmove
    refine ⟨h.stored, fun {undertaking} hundertaking => ?_⟩
    rcases List.mem_append.1 hundertaking with hbefore | hnew
    · exact h.upright hbefore
    · obtain rfl := List.mem_singleton.1 hnew
      exact task.program_obeys start
  | answer place passage id =>
    obtain ⟨task, past, effect, rest, hplace, rfl⟩ := answered hmove
    refine ⟨fun {key token tenure} htenure hlasts => ?_, fun {undertaking} hundertaking => ?_⟩
    · show (contest.serve passage id effect).2.1.stored? contest.now key = _
      cases hfeat : (contest.serve passage id effect).2.2 with
      | none =>
        rw [stored?_serve, hfeat]
        rw [hfeat] at htenure
        exact h.stored htenure hlasts
      | some feat =>
        rw [hfeat] at htenure
        exact h.stored_of_feat hfeat htenure hlasts
    · rcases List.mem_or_eq_of_mem_set hundertaking with hbefore | rfl
      · exact h.upright hbefore
      · exact (h.upright (List.mem_of_getElem? hplace)).2 _

/-- **The invariant holds in every contest that can come about.** -/
theorem Reachable.sound (h : Reachable start contest) : Sound start contest := by
  induction h with
  | start => exact ⟨nofun, nofun⟩
  | step move before moved ih => exact ih.step moved

/-! ### Results -/

/-- A move ends an operation with a result. -/
def Ends (contest next : Contest) (task : LeaseTask) (result : task.Result) : Prop :=
  ∃ place : Nat, ∃ past, next.undertakings[place]? = some ⟨task, past, .done (.ok result)⟩ ∧
    next.undertakings[place]? ≠ contest.undertakings[place]?

/-- A move answers a call of an operation. -/
def Serves (contest : Contest) (task : LeaseTask) : Move → Prop
  | .answer place _ _ => contest.undertakings[place]?.map (·.task) = some task
  | _ => False

/-- **An operation that says it has a lease** has just written its token, over nothing or over the
same token. -/
theorem Sound.earned (h : Sound start contest) (hmove : contest.move start move = some next)
    {task : LeaseTask} {result : task.Result} (hends : Ends contest next task result) :
    ∃ past, task.Earned start past (.ok result) ∧
      ∀ {key token : String} {seconds : Nat} {entry : LeaseEntry},
        LeaseTask.Wrote key token seconds past → contest.stored? key = some entry →
        token = entry.text := by
  obtain ⟨place, past, hplace, hnew⟩ := hends
  have hearned : task.Earned start past (.ok result) :=
    (h.step hmove).upright (List.mem_of_getElem? hplace)
  refine ⟨past, hearned, fun {key token seconds entry} hwrote hentry => ?_⟩
  obtain ⟨deed, earlier, rfl, hdeed⟩ := hwrote
  cases move with
  | wait duration =>
    obtain rfl := Option.some.inj hmove
    exact absurd rfl hnew
  | start begun =>
    obtain rfl := Option.some.inj hmove
    change (contest.undertakings ++ [_])[place]? = _ at hplace
    rcases Nat.lt_or_ge place contest.undertakings.length with hbefore | hlast
    · exact absurd (List.getElem?_append_left hbefore) hnew
    · rw [List.getElem?_append_right hlast] at hplace
      cases List.mem_singleton.1 (List.mem_of_getElem? hplace)
  | answer other passage id =>
    obtain ⟨task', past', effect, rest, hother, rfl⟩ := answered hmove
    change (contest.undertakings.set other _)[place]? = _ at hplace
    by_cases hsame : other = place
    · subst hsame
      rw [List.getElem?_set, if_pos rfl,
        if_pos (List.getElem?_eq_some_iff.1 hother).1] at hplace
      obtain ⟨-, hpast, -⟩ := Undertaking.mk.inj (Option.some.inj hplace)
      obtain ⟨rfl, -⟩ := List.cons.inj hpast
      obtain ⟨order, -, hdone⟩ := executed_of_feat (feat_of_reply (hdeed contest.now))
      exact token_of_feat hdone hentry
    · exact absurd (List.getElem?_set_ne hsame) hnew

/-- **What a tenure keeps from others**, with a move of somebody. -/
structure Exclusive (start : String) (contest next : Contest) (move : Move) (scope token : String)
    (tenure : Tenure) : Prop where
  /-- The key holds the token until the tenure ends. -/
  stored : contest.stored? (keyOf start scope) = some ⟨token, some tenure.until⟩
  /-- Nobody else takes the lease. -/
  acquired {holder : String} {seconds : Nat} {lease : Lease} :
    Ends contest next (.acquire scope holder seconds) (some lease) → lease.token = token
  /-- Nobody else renews it. -/
  renewed {lease : Lease} {seconds : Nat} : lease.scope = scope →
    Ends contest next (.renew lease seconds) true → lease.token = token
  /-- Nobody else changes the key by giving a lease back. -/
  released {lease : Lease} : lease.scope = scope → lease.token ≠ token →
    Serves contest (.release lease) move →
    next.stored? (keyOf start scope) = contest.stored? (keyOf start scope)

/-- **An operation on a lease whose token is not stored** leaves every key alone. -/
theorem Sound.stale (h : Sound start contest) (hmove : contest.move start move = some next)
    {task : LeaseTask} {lease : Lease} (hlease : task.lease? = some lease)
    (hserves : Serves contest task move)
    (hstale : (contest.stored? (keyOf start lease.scope)).map (·.text) ≠ some lease.token)
    (key : String) : next.stored? key = contest.stored? key := by
  cases move with
  | wait | start => exact hserves.elim
  | answer place passage id =>
    obtain ⟨task', past, effect, rest, hplace, rfl⟩ := answered hmove
    change contest.undertakings[place]?.map (·.task) = some task at hserves
    rw [hplace] at hserves
    obtain rfl := Option.some.inj hserves
    show (contest.serve passage id effect).2.1.stored? contest.now key = _
    cases hfeat : (contest.serve passage id effect).2.2 with
    | none => rw [stored?_serve, hfeat]; rfl
    | some feat =>
      obtain ⟨order, rfl, hdone⟩ := executed_of_feat hfeat
      have hallowed := (h.upright (List.mem_of_getElem? hplace)).1
      rcases hallowed lease hlease with ⟨script, seconds, rfl⟩ | ⟨script, rfl⟩
      · exact absurd (stored_of_script hdone).2.2 hstale
      · cases hdone

/-- **While a tenure lasts, the lease is its holder's alone.** -/
theorem Sound.exclusive (h : Sound start contest) (hmove : contest.move start move = some next)
    {scope token : String} {tenure : Tenure}
    (htenure : tenure? (keyOf start scope) token contest.log = some tenure)
    (hlasts : contest.now < tenure.until) :
    Exclusive start contest next move scope token tenure := by
  have hstored := h.stored htenure hlasts
  refine ⟨hstored, fun hends => ?_, fun hscope hends => ?_, fun hscope hother hserves => ?_⟩
  · obtain ⟨past, ⟨-, hwrote⟩, hown⟩ := h.earned hmove hends
    exact hown hwrote hstored
  · obtain ⟨past, hwrote, hown⟩ := h.earned hmove hends
    exact hown hwrote (hscope ▸ hstored)
  · refine h.stale hmove rfl hserves (fun hsame => ?_) _
    rw [hscope, hstored] at hsame
    exact hother (Option.some.inj hsame).symm

/-- **A lease is exclusive.** While the tenure of a token lasts, nobody else takes or renews the
lease, or changes the key by giving one back; an operation on a lease whose token is not stored
never changes anything; and a lease without a scope, a holder or a duration is refused before
anything is asked of the server. -/
theorem lease_exclusion (start : String) :
    (∀ contest next move, Reachable start contest → contest.move start move = some next →
      (∀ scope token tenure, tenure? (keyOf start scope) token contest.log = some tenure →
        contest.now < tenure.until → Exclusive start contest next move scope token tenure) ∧
      ∀ task lease, task.lease? = some lease → Serves contest task move →
        (contest.stored? (keyOf start lease.scope)).map (·.text) ≠ some lease.token →
        ∀ key, next.stored? key = contest.stored? key) ∧
    (∀ scope holder seconds,
      Text.isBlankText scope = true ∨ Text.isBlankText holder = true ∨ seconds = 0 →
      ∃ text, (LeaseTask.acquire scope holder seconds).program start =
        .done (.error (.validation text))) ∧
    ∀ lease, ∃ text, (LeaseTask.renew lease 0).program start =
      .done (.error (.validation text)) := by
  refine ⟨fun contest next move hreachable hmove => ⟨?_, ?_⟩, fun scope holder seconds hblank => ?_,
    fun lease => ⟨_, rfl⟩⟩
  · intro scope token tenure htenure hlasts
    exact hreachable.sound.exclusive hmove htenure hlasts
  · intro task lease hlease hserves hstale key
    exact hreachable.sound.stale hmove hlease hserves hstale key
  · obtain ⟨text, htext⟩ := LeaseTask.checkArguments_of_blank hblank
    refine ⟨text, ?_⟩
    show (Leasing.acquire start scope holder seconds).run = _
    rw [Leasing.acquire, htext]
    rfl

/-- Alice takes the lease for fifteen seconds; after five of them bob, whose own lease is over, is
about to renew it. -/
def Scenario.overdue : List Move :=
  [.start (.acquire "controller" "alice" 15), .answer 0 .heard "1", .answer 0 .heard "",
    .answer 0 .heard "", .wait 5000, .start (.renew ⟨"controller", "bob:0", "bob"⟩ 15),
    .answer 1 .heard "", .answer 1 .heard "", .answer 1 .heard ""]

/-- Bob neither gets the lease nor shortens that of alice. -/
theorem lease_exclusion_overdue : ∃ contest next : Contest, Reachable "jitgate" contest ∧
    contest.move "jitgate" (.answer 1 .heard "") = some next ∧
    tenure? (keyOf "jitgate" "controller") "alice:1" contest.log = some ⟨0, 15⟩ ∧
    contest.now = 5000 ∧
    Exclusive "jitgate" contest next (.answer 1 .heard "") "controller" "alice:1" ⟨0, 15⟩ ∧
    Serves contest (.renew ⟨"controller", "bob:0", "bob"⟩ 15) (.answer 1 .heard "") ∧
    (∀ key, next.stored? key = contest.stored? key) ∧
    ∃ text, (LeaseTask.acquire "controller" "" 15).program "jitgate" =
      .done (.error (.validation text)) := by
  obtain ⟨contest, hrun, htenure, hnow, hserves, next, hmove⟩ : ∃ contest,
      ({} : Contest).run "jitgate" Scenario.overdue = some contest ∧
      tenure? (keyOf "jitgate" "controller") "alice:1" contest.log = some ⟨0, 15⟩ ∧
      contest.now = 5000 ∧
      Serves contest (.renew ⟨"controller", "bob:0", "bob"⟩ 15) (.answer 1 .heard "") ∧
      ∃ next, contest.move "jitgate" (.answer 1 .heard "") = some next :=
    ⟨_, rfl, rfl, rfl, rfl, _, rfl⟩
  have hreachable := reachable_of_run .start hrun
  obtain ⟨hmoves, hrefused, -⟩ := lease_exclusion "jitgate"
  obtain ⟨hexclusive, hstale⟩ := hmoves contest next _ hreachable hmove
  have halice := hexclusive "controller" "alice:1" ⟨0, 15⟩ htenure (by rw [hnow]; decide)
  refine ⟨contest, next, hreachable, hmove, htenure, hnow, halice, hserves, ?_,
    hrefused "controller" "" 15 (.inr (.inl rfl))⟩
  refine hstale _ _ rfl hserves ?_
  rw [halice.stored]
  decide

end Contest

end AccessBroker
