import AccessBroker.Simulation.Campaign

/-!
# Candidacies

A broker competes for the lease on leadership (`AccessBroker.Candidacy`). It attempts to take the
lease and then to renew it, with a pause before each attempt but the first; the coordinator answers
at once, in whatever way, and somebody may tell the broker to stop at any moment. If that is the
moment at which a pause ends, the broker notices either the one or the other first
(`AccessBroker.Candidacy.Step`).

What a broker has come to is told by its log alone. `AccessBroker.Candidacy.SeekRecord` says which
attempts to take the lease have led to which outcome, and `AccessBroker.Candidacy.HoldRecord` says
the same of the renewals; both are kept by every step. That leadership ends in time rests on how
many pauses fit into a lease: of the renewals that fail in a row, those after which the broker goes
on lie within the length of the lease (`AccessBroker.Candidacy.exists_pauses`), and the one after
them lies at most a third of that length later, also where a sleep is rounded up to whole
milliseconds (`AccessBroker.Candidate.Naps.succ_mul_le`).
-/

namespace AccessBroker

open AccessBroker.Time

/-- A pause lasts a third of the lease, or the whole milliseconds that are enough for that. -/
def Candidate.Naps (candidate : Candidate) (nap : Nat) : Prop :=
  nap = candidate.pause ∨ nap = Agenda.millisUp candidate.pause * nanosPerMilli

/-- A call of a broker to the coordinator, with the answer where that matters. -/
inductive ElectionDeed where
  | acquire (answer : Except Failure (Option Lease))
  | renew (lease : Lease) (answer : Except Failure Bool)
  | release (lease : Lease)

/-- A broker that competes for the lease. Times are in nanoseconds. -/
structure Candidacy where
  state : ElectionState
  /-- When it last began to wait. -/
  since : Nat
  now : Nat
  /-- When it was told to stop. -/
  toldAt : Option Nat
  /-- Its calls and when it made them, the latest first. -/
  log : List (Nat × ElectionDeed)

namespace Candidacy

variable {candidate : Candidate} {nap start : Nat} {lease : Lease} {toldAt : Option Nat}
  {c next : Candidacy}

/-! ### Steps -/

/-- The broker after an attempt to take the lease. -/
def attempted (c : Candidacy) (time : Nat) (answer : Except Failure (Option Lease)) : Candidacy :=
  { c with
    state := .afterAttempt time c.toldAt.isSome answer
    since := time
    now := time
    log := (time, .acquire answer) :: c.log }

/-- The broker after an attempt to renew the lease that it has had since a time. -/
def renewed (candidate : Candidate) (c : Candidacy) (lease : Lease) (renewedAt time : Nat)
    (answer : Except Failure Bool) : Candidacy :=
  { c with
    state := .afterRenewal candidate lease renewedAt time answer
    since := time
    now := time
    log := (time, .renew lease answer) :: c.log }

/-- A broker that makes its first attempt at a time. It may have been told to stop before that. -/
def opening (start : Nat) (toldAt : Option Nat) (answer : Except Failure (Option Lease)) :
    Candidacy :=
  attempted ⟨.seeking, start, start, toldAt, []⟩ start answer

/-- A broker that begins to hold a lease at a time. -/
def held (lease : Lease) (start : Nat) (toldAt : Option Nat) : Candidacy :=
  ⟨.holding lease start, start, start, toldAt, []⟩

/-- The pause can be over: nobody has told the broker to stop, or just as the pause ends. -/
def Due (nap : Nat) (c : Candidacy) : Prop :=
  c.toldAt = none ∨ c.now = c.since + nap

/-- What can happen next to a broker that competes. -/
inductive Step (candidate : Candidate) (nap : Nat) : Candidacy → Candidacy → Prop
  /-- It is told to stop while it waits. -/
  | told {c : Candidacy} (time : Nat) (untold : c.toldAt = none) (going : c.state.isOver = false)
    (after : c.now ≤ time) (before : time ≤ c.since + nap) :
    Step candidate nap c { c with now := time, toldAt := some time }
  /-- It notices that, and has no lease to give back. -/
  | withdraws {c : Candidacy} (told : c.toldAt.isSome = true) (seeks : c.state = .seeking) :
    Step candidate nap c { c with state := .withdrawn }
  /-- It notices that, and gives its lease back. -/
  | releases {c : Candidacy} {lease : Lease} {renewedAt : Nat} (told : c.toldAt.isSome = true)
    (holds : c.state = .holding lease renewedAt) :
    Step candidate nap c
      { c with state := .released lease, log := (c.now, .release lease) :: c.log }
  /-- The pause is over, and it attempts to take the lease. -/
  | attempts {c : Candidacy} (answer : Except Failure (Option Lease)) (seeks : c.state = .seeking)
    (due : c.Due nap) : Step candidate nap c (c.attempted (c.since + nap) answer)
  /-- The pause is over, and it attempts to renew the lease. -/
  | renews {c : Candidacy} {lease : Lease} {renewedAt : Nat} (answer : Except Failure Bool)
    (holds : c.state = .holding lease renewedAt) (due : c.Due nap) :
    Step candidate nap c (c.renewed candidate lease renewedAt (c.since + nap) answer)

/-- What a broker can come to. -/
inductive Course (candidate : Candidate) (nap : Nat) (first : Candidacy) : Candidacy → Prop
  /-- Nothing has happened yet. -/
  | start : Course candidate nap first first
  /-- Every step goes on from there. -/
  | step {c next : Candidacy} (before : Course candidate nap first c)
    (step : Step candidate nap c next) : Course candidate nap first next

/-- **Nothing happens any more once the competition is over.** -/
theorem Step.going (h : Step candidate nap c next) : c.state.isOver = false := by
  cases h with
  | told _ _ hgoing => exact hgoing
  | withdraws _ hseeks | attempts _ hseeks => rw [hseeks]; rfl
  | releases _ hholds | renews _ hholds => rw [hholds]; rfl

/-- A broker can go on: it notices that it was told to stop, or it makes its next attempt when the
pause is over, whatever the answer. -/
def CanGoOn (candidate : Candidate) (nap : Nat) (c : Candidacy) : Prop :=
  (c.toldAt.isSome = true → ∃ next, Step candidate nap c next ∧ next.state.isOver = true) ∧
    (c.state = .seeking → c.toldAt = none → ∀ answer,
      Step candidate nap c (c.attempted (c.since + nap) answer)) ∧
    ∀ lease renewedAt, c.state = .holding lease renewedAt → c.toldAt = none → ∀ answer,
      Step candidate nap c (c.renewed candidate lease renewedAt (c.since + nap) answer)

/-- **A broker that competes is never stuck.** -/
theorem canGoOn (candidate : Candidate) (nap : Nat) (h : c.state.isOver = false) :
    c.CanGoOn candidate nap := by
  refine ⟨fun htold => ?_, fun hseeks huntold answer => .attempts answer hseeks (.inl huntold),
    fun lease renewedAt hholds huntold answer => .renews answer hholds (.inl huntold)⟩
  cases hstate : c.state with
  | seeking => exact ⟨_, .withdraws htold hstate, rfl⟩
  | holding lease renewedAt => exact ⟨_, .releases htold hstate, rfl⟩
  | withdrawn | rejected | lost | released =>
    rw [hstate] at h
    cases h

/-! ### The clock -/

/-- The log lies in the past, and the broker stays at the moment at which it was told to stop. -/
structure Clocked (nap start : Nat) (c : Candidacy) : Prop where
  begun : start ≤ c.now
  since_le : c.since ≤ c.now
  now_le : c.state.isOver = false → c.now ≤ c.since + nap
  logged : ∀ entry ∈ c.log, entry.1 ≤ c.now
  told (time : Nat) : c.toldAt = some time → c.now = max time start
  released (lease : Lease) : c.state = .released lease →
    ∃ earlier, c.log = (c.now, .release lease) :: earlier

theorem afterAttempt_ne_released (time : Nat) (isStopping : Bool)
    (answer : Except Failure (Option Lease)) :
    ElectionState.afterAttempt time isStopping answer ≠ .released lease := by
  unfold ElectionState.afterAttempt
  split
  · nofun
  · nofun
  all_goals split <;> nofun

theorem afterRenewal_ne_released (lease' : Lease) (renewedAt time : Nat)
    (answer : Except Failure Bool) :
    ElectionState.afterRenewal candidate lease' renewedAt time answer ≠ .released lease := by
  unfold ElectionState.afterRenewal
  split
  · nofun
  · nofun
  · split <;> nofun

theorem clocked_opening (htold : ∀ time, toldAt = some time → time ≤ start)
    (answer : Except Failure (Option Lease)) : (opening start toldAt answer).Clocked nap start where
  begun := Nat.le_refl _
  since_le := Nat.le_refl _
  now_le _ := Nat.le_add_right _ _
  logged entry hentry := by
    rw [List.mem_singleton.1 hentry]
    exact Nat.le_refl _
  told time htime := (Nat.max_eq_right (htold time htime)).symm
  released lease hstate := absurd hstate (afterAttempt_ne_released _ _ _)

theorem clocked_held (htold : ∀ time, toldAt = some time → time ≤ start) :
    (held lease start toldAt).Clocked nap start where
  begun := Nat.le_refl _
  since_le := Nat.le_refl _
  now_le _ := Nat.le_add_right _ _
  logged := nofun
  told time htime := (Nat.max_eq_right (htold time htime)).symm
  released := nofun

/-- A call when the pause is over keeps the clock. -/
theorem Clocked.called (h : c.Clocked nap start) (hgoing : c.state.isOver = false)
    (hdue : c.Due nap) {state : ElectionState} (hstate : ∀ lease, state ≠ .released lease)
    (deed : ElectionDeed) :
    Clocked nap start
      ⟨state, c.since + nap, c.since + nap, c.toldAt, (c.since + nap, deed) :: c.log⟩ where
  begun := Nat.le_trans h.begun (h.now_le hgoing)
  since_le := Nat.le_refl _
  now_le _ := Nat.le_add_right _ _
  logged entry hentry := by
    rcases List.mem_cons.1 hentry with rfl | hentry
    · exact Nat.le_refl _
    · exact Nat.le_trans (h.logged entry hentry) (h.now_le hgoing)
  told time htime := by
    rcases hdue with huntold | hnow
    · rw [huntold] at htime
      cases htime
    · exact hnow.symm.trans (h.told time htime)
  released lease hreleased := absurd hreleased (hstate lease)

theorem Clocked.step (h : c.Clocked nap start) (hstep : Step candidate nap c next) :
    next.Clocked nap start := by
  have hgoing := hstep.going
  cases hstep with
  | told time huntold _ hafter hbefore =>
    refine ⟨Nat.le_trans h.begun hafter, Nat.le_trans h.since_le hafter, fun _ => hbefore,
      fun entry hentry => Nat.le_trans (h.logged entry hentry) hafter, fun other hother => ?_,
      fun lease hreleased => ?_⟩
    · obtain rfl := Option.some.inj hother
      exact (Nat.max_eq_left (Nat.le_trans h.begun hafter)).symm
    · change c.state = _ at hreleased
      rw [hreleased] at hgoing
      cases hgoing
  | withdraws => exact ⟨h.begun, h.since_le, nofun, h.logged, h.told, nofun⟩
  | releases _ hholds =>
    refine ⟨h.begun, h.since_le, nofun, fun entry hentry => ?_, h.told, fun lease hreleased => ?_⟩
    · rcases List.mem_cons.1 hentry with rfl | hentry
      · exact Nat.le_refl _
      · exact h.logged entry hentry
    · obtain rfl := ElectionState.released.inj hreleased
      exact ⟨_, rfl⟩
  | attempts answer _ hdue =>
    exact h.called hgoing hdue (fun _ => afterAttempt_ne_released _ _ _) _
  | renews answer _ hdue =>
    exact h.called hgoing hdue (fun _ => afterRenewal_ne_released _ _ _ _) _

theorem Course.clocked {first : Candidacy} (h : Course candidate nap first c)
    (hfirst : first.Clocked nap start) : c.Clocked nap start := by
  induction h with
  | start => exact hfirst
  | step _ hstep ih => exact ih.step hstep

/-! ### Holding the lease -/

/-- When the lease was last renewed, or the broker began to hold it. -/
def renewedAt (start : Nat) : List (Nat × ElectionDeed) → Nat
  | [] => start
  | (time, .renew _ (.ok true)) :: _ => time
  | _ :: earlier => renewedAt start earlier

/-- Renewals, one after each pause, after which the broker goes on: they succeed, or they fail while
the lease has not yet ended. -/
def Renewed (candidate : Candidate) (nap : Nat) (lease : Lease) (start : Nat) :
    List (Nat × ElectionDeed) → Prop
  | [] => True
  | (time, deed) :: earlier =>
    Renewed candidate nap lease start earlier ∧ time = start + (earlier.length + 1) * nap ∧
      (deed = .renew lease (.ok true) ∨ ∃ failure, deed = .renew lease (.error failure) ∧
        time < renewedAt start earlier + candidate.leaseLength)

variable {log : List (Nat × ElectionDeed)}

theorem renewed_nil : Renewed candidate nap lease start [] :=
  trivial

theorem length_succ_mul (log : List (Nat × ElectionDeed)) :
    start + (log.length + 1) * nap = start + log.length * nap + nap := by
  rw [Nat.add_mul, Nat.one_mul, Nat.add_assoc]

/-- **Some pauses have passed since the last success**, and not as many as fill the lease. -/
theorem exists_pauses (h : Renewed candidate nap lease start log) :
    ∃ count, start + log.length * nap = renewedAt start log + count * nap ∧
      (count = 0 ∨ count * nap < candidate.leaseLength) := by
  induction log with
  | nil => exact ⟨0, by simp [renewedAt], .inl rfl⟩
  | cons entry earlier ih =>
    obtain ⟨time, deed⟩ := entry
    obtain ⟨hearlier, rfl, hdeed⟩ := h
    rw [List.length_cons]
    rcases hdeed with rfl | ⟨failure, rfl, hfailed⟩
    · exact ⟨0, by simp [renewedAt], .inl rfl⟩
    · obtain ⟨count, hcount, -⟩ := ih hearlier
      refine ⟨count + 1, ?_, .inr ?_⟩
      · simp only [renewedAt, Nat.add_mul, Nat.one_mul]
        omega
      · rw [length_succ_mul, hcount, Nat.add_assoc] at hfailed
        rw [Nat.add_mul, Nat.one_mul]
        exact Nat.lt_of_add_lt_add_left hfailed

/-- **How the holding of a lease fares**, by the calls that the broker has made. -/
inductive HoldRecord (candidate : Candidate) (nap : Nat) (lease : Lease) (start : Nat)
    (toldAt : Option Nat) : ElectionState → List (Nat × ElectionDeed) → Prop
  /-- It goes on. -/
  | going {log : List (Nat × ElectionDeed)} (renewed : Renewed candidate nap lease start log) :
    HoldRecord candidate nap lease start toldAt (.holding lease (renewedAt start log)) log
  /-- The lease is somebody else's, and the broker stops working without another call. -/
  | refused {log : List (Nat × ElectionDeed)} (renewed : Renewed candidate nap lease start log) :
    HoldRecord candidate nap lease start toldAt (.lost lease)
      ((start + (log.length + 1) * nap, .renew lease (.ok false)) :: log)
  /-- A renewal has failed when the lease had ended, and the broker stops working without another
  call. -/
  | overdue {log : List (Nat × ElectionDeed)} {failure : Failure}
    (renewed : Renewed candidate nap lease start log)
    (ended : renewedAt start log + candidate.leaseLength ≤ start + (log.length + 1) * nap) :
    HoldRecord candidate nap lease start toldAt (.lost lease)
      ((start + (log.length + 1) * nap, .renew lease (.error failure)) :: log)
  /-- The broker was told to stop, and gives the lease back. -/
  | released {log : List (Nat × ElectionDeed)} {time : Nat}
    (renewed : Renewed candidate nap lease start log) (told : toldAt.isSome = true)
    (within : time ≤ start + (log.length + 1) * nap) :
    HoldRecord candidate nap lease start toldAt (.released lease) ((time, .release lease) :: log)

/-- **The record after one more renewal.** -/
theorem HoldRecord.afterRenewal (h : Renewed candidate nap lease start log)
    (answer : Except Failure Bool) :
    HoldRecord candidate nap lease start toldAt
      (.afterRenewal candidate lease (renewedAt start log) (start + (log.length + 1) * nap) answer)
      ((start + (log.length + 1) * nap, .renew lease answer) :: log) := by
  obtain ⟨count, hcount, -⟩ := exists_pauses h
  have hafter : renewedAt start log ≤ start + (log.length + 1) * nap := by
    rw [length_succ_mul, hcount]
    omega
  match answer with
  | .ok true =>
    have hnext : Renewed candidate nap lease start
        ((start + (log.length + 1) * nap, .renew lease (.ok true)) :: log) := ⟨h, rfl, .inl rfl⟩
    exact .going hnext
  | .ok false => exact .refused h
  | .error failure =>
    simp only [ElectionState.afterRenewal]
    split
    · exact .overdue h (by omega)
    · have hnext : Renewed candidate nap lease start
          ((start + (log.length + 1) * nap, .renew lease (.error failure)) :: log) :=
        ⟨h, rfl, .inr ⟨failure, rfl, by omega⟩⟩
      exact .going hnext

/-- The calls since the broker began to hold a lease tell how it fares, and when it has begun to
wait. -/
def Holds (candidate : Candidate) (nap : Nat) (lease : Lease) (start : Nat)
    (earlier : List (Nat × ElectionDeed)) (c : Candidacy) : Prop :=
  ∃ log, c.log = log ++ earlier ∧ HoldRecord candidate nap lease start c.toldAt c.state log ∧
    (c.state.isOver = false → c.since = start + log.length * nap)

/-- **One step keeps the record of the renewals.** -/
theorem Holds.step {earlier : List (Nat × ElectionDeed)} {first : Nat}
    (h : c.Holds candidate nap lease start earlier) (hclock : c.Clocked nap first)
    (hstep : Step candidate nap c next) : next.Holds candidate nap lease start earlier := by
  obtain ⟨log, hlog, hrecord, hsince⟩ := h
  have hgoing := hstep.going
  have hsince := hsince hgoing
  have hnow := hclock.now_le hgoing
  have hnext : c.since + nap = start + (log.length + 1) * nap := by
    rw [length_succ_mul, hsince]
  generalize hstate : c.state = state at hrecord hgoing
  -- Only a record that goes on leaves a step to make, and the state says which steps there are.
  cases hrecord with
  | refused | overdue | released => cases hgoing
  | going hrenewed =>
    cases hstep with
    | told time => exact ⟨log, hlog, hstate ▸ .going hrenewed, fun _ => hsince⟩
    | withdraws _ hseeks => cases hstate.symm.trans hseeks
    | attempts _ hseeks => cases hstate.symm.trans hseeks
    | releases htold hholds =>
      obtain ⟨rfl, -⟩ := ElectionState.holding.inj (hholds.symm.trans hstate)
      refine ⟨_ :: log, congrArg (_ :: ·) hlog, .released hrenewed htold ?_, nofun⟩
      exact hnext ▸ hnow
    | renews answer hholds =>
      obtain ⟨rfl, rfl⟩ := ElectionState.holding.inj (hholds.symm.trans hstate)
      refine ⟨_ :: log, congrArg (_ :: ·) hlog, ?_, fun _ => hnext⟩
      simp only [renewed, hnext]
      exact .afterRenewal hrenewed answer

/-! ### In time -/

/-- Each call of a broker that holds the lease is made in time after the last success before it. -/
def InTime (candidate : Candidate) (start : Nat) (log : List (Nat × ElectionDeed)) : Prop :=
  ∀ later time deed earlier, log = later ++ (time, deed) :: earlier →
    time ≤ renewedAt start earlier + candidate.leaseLength + candidate.pause

end Candidacy

/-- **One more pause than fit into the lease** are over at most one pause after it. -/
theorem Candidate.Naps.succ_mul_le {candidate : Candidate} {nap count : Nat}
    (h : candidate.Naps nap) (hlease : 1 ≤ candidate.leaseSeconds)
    (hcount : count = 0 ∨ count * nap < candidate.leaseLength) :
    (count + 1) * nap ≤ candidate.leaseLength + candidate.pause := by
  rw [Nat.add_mul, Nat.one_mul]
  rcases h with rfl | hnap
  · rcases hcount with rfl | hcount
    · omega
    · omega
  · -- Three rounded pauses fill the lease, so at most two of them fit into it.
    have hthree : candidate.leaseLength ≤ 3 * nap ∧
        3 * nap ≤ candidate.leaseLength + candidate.pause := by
      simp only [pause, leaseLength, nanosPerSecond, Agenda.millisUp, nanosPerMilli] at hnap ⊢
      omega
    have hfew : count * nap ≤ 2 * nap := by
      refine Nat.mul_le_mul_right nap (Nat.le_of_lt_succ (Nat.lt_of_not_le fun hmany => ?_))
      have hfill := Nat.mul_le_mul_right nap hmany
      rcases hcount with rfl | hcount <;> omega
    omega

namespace Candidacy

variable {candidate : Candidate} {nap start : Nat} {lease : Lease} {toldAt : Option Nat}
  {c next : Candidacy} {log : List (Nat × ElectionDeed)} {state : ElectionState}

theorem Renewed.of_append {later earlier : List (Nat × ElectionDeed)}
    (h : Renewed candidate nap lease start (later ++ earlier)) :
    Renewed candidate nap lease start earlier := by
  induction later with
  | nil => exact h
  | cons entry rest ih => exact ih h.1

theorem inTime_cons (hnap : candidate.Naps nap) (hlease : 1 ≤ candidate.leaseSeconds)
    (h : Renewed candidate nap lease start log) {time : Nat}
    (htime : time ≤ start + (log.length + 1) * nap) (deed : ElectionDeed) :
    InTime candidate start ((time, deed) :: log) := by
  have hbound {time : Nat} {log : List (Nat × ElectionDeed)}
      (h : Renewed candidate nap lease start log) (htime : time ≤ start + (log.length + 1) * nap) :
      time ≤ renewedAt start log + candidate.leaseLength + candidate.pause := by
    obtain ⟨count, hcount, hfew⟩ := exists_pauses h
    have hpauses := hnap.succ_mul_le hlease hfew
    rw [length_succ_mul, hcount] at htime
    rw [Nat.add_mul, Nat.one_mul] at hpauses
    omega
  intro later time' deed' earlier hlog
  cases later with
  | nil =>
    obtain ⟨hentry, rfl⟩ := List.cons.inj hlog
    exact hbound h ((Prod.mk.inj hentry).1 ▸ htime)
  | cons entry rest =>
    obtain ⟨-, rfl⟩ := List.cons.inj hlog
    obtain ⟨hearlier, hat, -⟩ := h.of_append
    exact hbound hearlier (Nat.le_of_eq hat)

/-- **Leadership is given up in time**, whatever the record. -/
theorem HoldRecord.inTime (h : HoldRecord candidate nap lease start toldAt state log)
    (hnap : candidate.Naps nap) (hlease : 1 ≤ candidate.leaseSeconds) :
    InTime candidate start log := by
  cases h with
  | refused h | overdue h => exact inTime_cons hnap hlease h (Nat.le_refl _) _
  | released h _ hwithin => exact inTime_cons hnap hlease h hwithin _
  | going h =>
    cases log with
    | nil =>
      intro later time deed earlier hlog
      cases later <;> cases hlog
    | cons entry earlier => exact inTime_cons hnap hlease h.1 (Nat.le_of_eq h.2.1) _

/-! ### Seeking the lease -/

/-- The broker tries again after an answer: the lease is not free, or the attempt has failed for
another reason than its arguments. -/
def Retried : Except Failure (Option Lease) → Prop
  | .ok found => found = none
  | .error failure => ∀ detail, failure ≠ .validation detail

/-- Attempts to take the lease, one after each pause, after which the broker tries again. -/
def Tried (nap start : Nat) : List (Nat × ElectionDeed) → Prop
  | [] => True
  | (time, deed) :: earlier =>
    Tried nap start earlier ∧ time = start + earlier.length * nap ∧
      ∃ answer, deed = .acquire answer ∧ Retried answer

/-- **How the seeking of the lease fares**, by the calls that the broker has made. -/
inductive SeekRecord (candidate : Candidate) (nap start : Nat) (toldAt : Option Nat) :
    ElectionState → List (Nat × ElectionDeed) → Prop
  /-- It goes on. -/
  | going {log : List (Nat × ElectionDeed)} (tried : Tried nap start log) :
    SeekRecord candidate nap start toldAt .seeking log
  /-- The broker was told to stop. -/
  | withdrawn {log : List (Nat × ElectionDeed)} (tried : Tried nap start log)
    (told : toldAt.isSome = true) : SeekRecord candidate nap start toldAt .withdrawn log
  /-- The arguments were refused. -/
  | rejected {log : List (Nat × ElectionDeed)} {detail : String} (tried : Tried nap start log) :
    SeekRecord candidate nap start toldAt (.rejected (.validation detail))
      ((start + log.length * nap, .acquire (.error (.validation detail))) :: log)
  /-- The first successful attempt gave a lease, which the broker has held from then on. -/
  | elected {log renewals : List (Nat × ElectionDeed)} {lease : Lease} {state : ElectionState}
    (tried : Tried nap start log)
    (holds : HoldRecord candidate nap lease (start + log.length * nap) toldAt state renewals) :
    SeekRecord candidate nap start toldAt state
      (renewals ++ (start + log.length * nap, .acquire (.ok (some lease))) :: log)

/-- The calls since the first attempt tell how the broker fares, and when it has begun to wait. -/
inductive Seeks (candidate : Candidate) (nap start : Nat) (c : Candidacy) : Prop
  /-- It seeks the lease. -/
  | going (seeks : c.state = .seeking) (tried : Tried nap start c.log)
    (since : c.since + nap = start + c.log.length * nap)
  /-- It has stopped without a lease. -/
  | ended (stopped : c.state.isOver = true)
    (record : SeekRecord candidate nap start c.toldAt c.state c.log)
  /-- It has got a lease. -/
  | elected {lease : Lease} {log : List (Nat × ElectionDeed)} (tried : Tried nap start log)
    (holds : c.Holds candidate nap lease (start + log.length * nap)
      ((start + log.length * nap, .acquire (.ok (some lease))) :: log))

theorem Seeks.record (h : c.Seeks candidate nap start) :
    SeekRecord candidate nap start c.toldAt c.state c.log := by
  cases h with
  | going hseeks htried => exact hseeks ▸ .going htried
  | ended _ hrecord => exact hrecord
  | elected htried hholds =>
    obtain ⟨renewals, hlog, hrecord, -⟩ := hholds
    exact hlog ▸ .elected htried hrecord

/-- **The record after one more attempt.** -/
theorem seeks_attempted (htried : Tried nap start c.log)
    (answer : Except Failure (Option Lease)) :
    (c.attempted (start + c.log.length * nap) answer).Seeks candidate nap start := by
  have hretried (hanswer : Retried answer)
      (hstate : (c.attempted (start + c.log.length * nap) answer).state =
        if c.toldAt.isSome then .withdrawn else .seeking) :
      (c.attempted (start + c.log.length * nap) answer).Seeks candidate nap start := by
    have hlog : Tried nap start (c.attempted (start + c.log.length * nap) answer).log :=
      ⟨htried, rfl, answer, rfl, hanswer⟩
    cases htold : c.toldAt.isSome with
    | true =>
      have hstate : (c.attempted (start + c.log.length * nap) answer).state = .withdrawn := by
        rw [hstate, htold, if_pos rfl]
      exact .ended (by rw [hstate]; rfl) (hstate ▸ .withdrawn hlog htold)
    | false =>
      refine .going (by rw [hstate, htold]; rfl) hlog ?_
      exact (length_succ_mul c.log).symm
  match answer with
  | .ok (some lease) =>
    exact .elected htried ⟨[], rfl, .going renewed_nil, fun _ => by simp [attempted]⟩
  | .error (.validation detail) => exact .ended rfl (.rejected htried)
  | .ok none => exact hretried rfl rfl
  | .error (.notFound _) | .error (.alreadyExists _) | .error (.conflict _)
  | .error (.policyNotMatched _) | .error (.internal _) | .error (.joined _) =>
    exact hretried nofun rfl

theorem seeks_opening (answer : Except Failure (Option Lease)) :
    (opening start toldAt answer).Seeks candidate nap start := by
  have htried : Tried nap start (⟨.seeking, start, start, toldAt, []⟩ : Candidacy).log := trivial
  have hopening : Seeks candidate nap start _ := seeks_attempted htried answer
  simpa [opening] using hopening

/-- **One step keeps the record.** -/
theorem Seeks.step {first : Nat} (h : c.Seeks candidate nap start) (hclock : c.Clocked nap first)
    (hstep : Step candidate nap c next) : next.Seeks candidate nap start := by
  have hgoing := hstep.going
  cases h with
  | ended hover =>
    rw [hover] at hgoing
    cases hgoing
  | elected htried hholds => exact .elected htried (hholds.step hclock hstep)
  | going hseeks htried hsince =>
    cases hstep with
    | told => exact .going hseeks htried hsince
    | withdraws htold => exact .ended rfl (.withdrawn htried htold)
    | attempts answer =>
      rw [hsince]
      exact seeks_attempted htried answer
    | releases _ hholds | renews _ hholds => cases hseeks.symm.trans hholds

/-- When the broker was told to stop, it has made no call later than that, and it has given its
lease back, if it has, at that moment. -/
def Prompt (start : Nat) (c : Candidacy) : Prop :=
  ∀ time, c.toldAt = some time → (∀ entry ∈ c.log, entry.1 ≤ max time start) ∧
    ∀ lease, c.state = .released lease →
      ∃ earlier, c.log = (max time start, .release lease) :: earlier

theorem Clocked.prompt (h : c.Clocked nap start) : c.Prompt start := fun time htime =>
  h.told time htime ▸ ⟨h.logged, h.released⟩

theorem Course.seeks (htold : ∀ time, toldAt = some time → time ≤ start)
    {answer : Except Failure (Option Lease)}
    (h : Course candidate nap (opening start toldAt answer) c) : c.Seeks candidate nap start := by
  induction h with
  | start => exact seeks_opening answer
  | step hbefore hstep ih => exact ih.step (hbefore.clocked (clocked_opening htold answer)) hstep

theorem Course.holds (htold : ∀ time, toldAt = some time → time ≤ start)
    (h : Course candidate nap (held lease start toldAt) c) :
    c.Holds candidate nap lease start [] := by
  induction h with
  | start => exact ⟨[], rfl, .going renewed_nil, fun _ => by simp [held]⟩
  | step hbefore hstep ih => exact ih.step (hbefore.clocked (clocked_held htold)) hstep

end Candidacy

end AccessBroker
