import AccessBroker.Proofs.Candidacy.Basic

/-!
# Leadership is given up in time

A broker seeks the lease on leadership until it gets it, and then holds it until it is told to stop
or can no longer know that it leads. What it has come to is told by the record of its calls,
whatever the coordinator has answered and whenever the broker was told to stop
(`AccessBroker.Candidacy.leadership_in_time`).

The scripted campaigns are candidacies, too. They are told to stop at one moment and notice that
before they notice that a pause is over, and a campaign and its candidacy go on side by side
(`AccessBroker.Candidacy.Shows`) until the one is over or cut off.
-/

namespace AccessBroker

open AccessBroker.Time

namespace Candidacy

variable {candidate : Candidate} {nap : Nat} {c : Candidacy}

/-! ### Scripted campaigns -/

/-- A call as a campaign notes it, in milliseconds. -/
def noted : Nat × ElectionDeed → CampaignCall
  | (time, .acquire _) => .acquire (time / nanosPerMilli)
  | (time, .renew lease _) => .renew lease.token (time / nanosPerMilli)
  | (time, .release lease) => .release lease.token (time / nanosPerMilli)

/-- A campaign shows a candidacy: the same state and the same calls, and while both go on the same
time. If the broker was told to stop then, it was so from the beginning. -/
structure Shows (campaign : Campaign) (c : Candidacy) : Prop where
  state : campaign.state = c.state
  calls : campaign.calls = (c.log.map noted).reverse
  time : campaign.state.isOver = false → campaign.isCutOff = false →
    c.since = campaign.clock ∧ c.now = campaign.clock ∧
      campaign.isStopping = c.toldAt.isSome ∧
      (c.toldAt.isSome = true → campaign.script.stopAt = some 0)

variable {campaign : Campaign} {first : Candidacy}

theorem clock_div (campaign : Campaign) : campaign.clock / nanosPerMilli = campaign.time :=
  Nat.mul_div_cancel _ (by decide)

theorem calls_append (hcalls : campaign.calls = (c.log.map noted).reverse)
    (entry : Nat × ElectionDeed) :
    campaign.calls ++ [noted entry] = ((entry :: c.log).map noted).reverse := by
  rw [List.map_cons, List.reverse_cons, hcalls]

/-- A call of a campaign, whatever it comes to, is one of the candidacy. -/
theorem shows_moved (script : CampaignScript) (hcalls : campaign.calls = (c.log.map noted).reverse)
    (hstopping : campaign.isStopping = c.toldAt.isSome)
    (htold : c.toldAt.isSome = true → script.stopAt = some 0) (deed : ElectionDeed)
    (state : ElectionState) :
    Shows ({ campaign with script }.moved (noted (campaign.clock, deed)) state)
      ⟨state, campaign.clock, campaign.clock, c.toldAt, (campaign.clock, deed) :: c.log⟩ where
  state := rfl
  calls := calls_append hcalls _
  time hgoing _ := by
    refine ⟨rfl, rfl, ?_, htold⟩
    rw [← hstopping]
    change state.isOver = false at hgoing
    cases state with
    | seeking | holding => exact Bool.or_false _
    | withdrawn | rejected | lost | released => cases hgoing

/-- The attempt that is due, with the next answer of the script. -/
theorem attempt_eq (campaign : Campaign) : ∃ script : CampaignScript,
    script.stopAt = campaign.script.stopAt ∧ script.limit = campaign.script.limit ∧
      (campaign.state = .seeking → ∃ answer, campaign.attempt =
        { campaign with script }.moved (noted (campaign.clock, .acquire answer))
          (.afterAttempt campaign.clock campaign.isStopping answer)) ∧
      ∀ lease renewedAt, campaign.state = .holding lease renewedAt → ∃ answer, campaign.attempt =
        { campaign with script }.moved (noted (campaign.clock, .renew lease answer))
          (.afterRenewal campaign.candidate lease renewedAt campaign.clock answer) := by
  unfold Campaign.attempt
  cases campaign.state with
  | seeking =>
    let answer := (campaign.script.acquire.head?.getD (.ok false)).map fun isGranted =>
      if isGranted then some campaign.lease else none
    refine ⟨{ campaign.script with acquire := campaign.script.acquire.tail }, rfl, rfl,
      fun _ => ⟨answer, ?_⟩, nofun⟩
    simp only [noted, clock_div]
    rfl
  | holding lease renewedAt =>
    refine ⟨{ campaign.script with renew := campaign.script.renew.tail }, rfl, rfl, nofun,
      fun lease renewedAt hholds => ⟨campaign.script.renew.head?.getD (.ok true), ?_⟩⟩
    obtain ⟨rfl, rfl⟩ := ElectionState.holding.inj hholds
    simp only [noted, clock_div]
  | withdrawn | rejected | lost | released => exact ⟨campaign.script, rfl, rfl, nofun, nofun⟩

/-- A campaign in which the broker is told to stop now. -/
theorem shows_stop (campaign : Campaign) (hstate : campaign.state = c.state)
    (hcalls : campaign.calls = (c.log.map noted).reverse) (hgoing : c.state.isOver = false)
    (htold : c.toldAt.isSome = true) (hnow : c.now = campaign.clock) :
    ∃ next, Step candidate nap c next ∧ Shows campaign.stop next ∧
      campaign.stop.state.isOver = true ∧ campaign.stop.candidate = campaign.candidate ∧
      campaign.stop.script = campaign.script := by
  unfold Campaign.stop
  rw [hstate]
  cases hphase : c.state with
  | seeking => exact ⟨_, .withdraws htold hphase, ⟨rfl, hcalls, nofun⟩, rfl, rfl, rfl⟩
  | holding lease renewedAt =>
    have hcall := calls_append hcalls (c.now, .release lease)
    rw [noted, hnow, clock_div, ← hnow] at hcall
    exact ⟨_, .releases htold hphase, ⟨rfl, hcall, nofun⟩, rfl, rfl, rfl⟩
  | withdrawn | rejected | lost | released =>
    rw [hphase] at hgoing
    cases hgoing

/-- A campaign in which the pause is over now. -/
theorem shows_attempt (campaign : Campaign) (hstate : campaign.state = c.state)
    (hcalls : campaign.calls = (c.log.map noted).reverse) (hgoing : c.state.isOver = false)
    (hstopping : campaign.isStopping = c.toldAt.isSome) (huntold : c.toldAt = none)
    (hclock : campaign.clock = c.since + nap) :
    ∃ next, Step campaign.candidate nap c next ∧ Shows campaign.attempt next ∧
      campaign.attempt.candidate = campaign.candidate ∧ campaign.attempt.time = campaign.time ∧
      campaign.attempt.script.limit = campaign.script.limit := by
  obtain ⟨script, -, hlimit, hseeking, hholding⟩ := attempt_eq campaign
  have htold : c.toldAt.isSome = true → script.stopAt = some 0 := by
    rw [huntold]
    nofun
  cases hphase : c.state with
  | seeking =>
    obtain ⟨answer, hattempt⟩ := hseeking (hstate.trans hphase)
    have hshows := shows_moved script hcalls hstopping htold (.acquire answer)
      (.afterAttempt campaign.clock campaign.isStopping answer)
    rw [hattempt]
    refine ⟨_, .attempts answer hphase (.inl huntold), ?_, rfl, rfl, hlimit⟩
    rw [hstopping] at hshows ⊢
    rw [attempted, ← hclock]
    exact hshows
  | holding lease renewedAt =>
    obtain ⟨answer, hattempt⟩ := hholding lease renewedAt (hstate.trans hphase)
    have hshows := shows_moved script hcalls hstopping htold (.renew lease answer)
      (.afterRenewal campaign.candidate lease renewedAt campaign.clock answer)
    rw [hattempt]
    refine ⟨_, .renews answer hphase (.inl huntold), ?_, rfl, rfl, hlimit⟩
    rw [renewed, ← hclock]
    exact hshows
  | withdrawn | rejected | lost | released =>
    rw [hphase] at hgoing
    cases hgoing

/-- A pause takes time, also in whole milliseconds. -/
theorem pause_pos (hlease : 1 ≤ candidate.leaseSeconds) : 0 < Agenda.millisUp candidate.pause := by
  simp only [Agenda.millisUp, Candidate.pause, Candidate.leaseLength, nanosPerSecond, nanosPerMilli]
  omega

/-- The moment at which a broker is to be told to stop lies within its pause: it was told before, or
is told now. -/
theorem Shows.told (h : Shows campaign c) (hgoing : campaign.state.isOver = false)
    (huncut : campaign.isCutOff = false)
    (hcourse : Course campaign.candidate
      (Agenda.millisUp campaign.candidate.pause * nanosPerMilli) first c)
    {time : Nat} (htime : campaign.script.stopAt = some time)
    (hbefore : max time campaign.time ≤
      campaign.time + Agenda.millisUp campaign.candidate.pause) :
    ∃ told, Course campaign.candidate
        (Agenda.millisUp campaign.candidate.pause * nanosPerMilli) first told ∧
      told.state = c.state ∧ told.log = c.log ∧ told.toldAt.isSome = true ∧
      told.now = max time campaign.time * nanosPerMilli := by
  obtain ⟨hsince, hnow, -, htold⟩ := h.time hgoing huncut
  cases huntold : c.toldAt with
  | some at' =>
    rw [huntold] at htold
    obtain rfl := Option.some.inj (htime.symm.trans (htold rfl))
    refine ⟨c, hcourse, rfl, rfl, huntold ▸ rfl, ?_⟩
    rw [hnow, Nat.zero_max]
    rfl
  | none =>
    have hgoing' : c.state.isOver = false := h.state ▸ hgoing
    refine ⟨_, hcourse.step (.told (max time campaign.time * nanosPerMilli) huntold hgoing' ?_ ?_),
      rfl, rfl, rfl, rfl⟩
    · rw [hnow]
      exact Nat.mul_le_mul_right _ (Nat.le_max_right _ _)
    · rw [hsince, Campaign.clock, ← Nat.add_mul]
      exact Nat.mul_le_mul_right _ hbefore

/-- **A wait of a campaign** ends the campaign, or its candidacy goes on and some time passes. -/
theorem Shows.wait (h : Shows campaign c) (hgoing : campaign.state.isOver = false)
    (huncut : campaign.isCutOff = false) (hlease : 1 ≤ campaign.candidate.leaseSeconds)
    (hcourse : Course campaign.candidate
      (Agenda.millisUp campaign.candidate.pause * nanosPerMilli) first c) :
    ∃ next, Shows campaign.wait next ∧ Course campaign.candidate
        (Agenda.millisUp campaign.candidate.pause * nanosPerMilli) first next ∧
      campaign.wait.candidate = campaign.candidate ∧
      campaign.wait.script.limit = campaign.script.limit ∧
      ((campaign.wait.state.isOver || campaign.wait.isCutOff) = true ∨
        campaign.time < campaign.wait.time ∧ campaign.wait.time ≤ campaign.script.limit) := by
  obtain ⟨hsince, hnow, hstopping, htold⟩ := h.time hgoing huncut
  have hgoing' : c.state.isOver = false := h.state ▸ hgoing
  have hcut : Shows (Campaign.wait.cutOff campaign) c := ⟨h.state, h.calls, nofun⟩
  unfold Campaign.wait
  dsimp only
  split
  · next time htime =>
    obtain ⟨htime, hbefore⟩ := Option.filter_eq_some_iff.1 htime
    split
    · exact ⟨c, hcut, hcourse, rfl, rfl, .inl (Bool.or_true _)⟩
    · obtain ⟨told, hreached, hstate, hlog, hsome, hat⟩ :=
        h.told hgoing huncut hcourse htime (of_decide_eq_true hbefore)
      obtain ⟨next, hstep, hshows, hover, hcandidate, hscript⟩ := shows_stop
        { campaign with time := max time campaign.time } (h.state.trans hstate.symm)
        (hlog ▸ h.calls) (hstate ▸ hgoing') hsome hat
      exact ⟨next, hshows, hreached.step hstep, hcandidate, congrArg CampaignScript.limit hscript,
        .inl (by rw [hover]; rfl)⟩
  · next hnone =>
    split
    · exact ⟨c, hcut, hcourse, rfl, rfl, .inl (Bool.or_true _)⟩
    · next hlimit =>
      -- A broker that was told before its first attempt is to stop at once, within this pause.
      have huntold : c.toldAt = none := by
        refine Option.not_isSome_iff_eq_none.1 fun hsome => ?_
        have hnever := Option.filter_eq_none_iff.1 hnone 0 (htold hsome)
        exact hnever (decide_eq_true (by omega))
      obtain ⟨next, hstep, hshows, hcandidate, htime, hscript⟩ := shows_attempt
        { campaign with time := campaign.time + Agenda.millisUp campaign.candidate.pause }
        h.state h.calls hgoing' hstopping huntold (by rw [hsince, Campaign.clock, Nat.add_mul]; rfl)
      refine ⟨next, hshows, hcourse.step hstep, hcandidate, hscript, .inr ?_⟩
      rw [htime]
      exact ⟨Nat.lt_add_of_pos_right (pause_pos hlease), Nat.le_of_not_lt hlimit⟩

/-- **A campaign that runs long enough** ends or is cut off, and its candidacy is one that can come
about. -/
theorem Shows.run (fuel : Nat) (h : Shows campaign c)
    (hlease : 1 ≤ campaign.candidate.leaseSeconds)
    (hcourse : Course campaign.candidate
      (Agenda.millisUp campaign.candidate.pause * nanosPerMilli) first c)
    (hfuel : (campaign.state.isOver || campaign.isCutOff) = true ∨
      campaign.script.limit < fuel + campaign.time ∧ campaign.time ≤ campaign.script.limit) :
    ∃ last, Shows (Campaign.run fuel campaign) last ∧ Course campaign.candidate
        (Agenda.millisUp campaign.candidate.pause * nanosPerMilli) first last ∧
      ((Campaign.run fuel campaign).state.isOver || (Campaign.run fuel campaign).isCutOff) =
        true := by
  induction fuel generalizing campaign c with
  | zero => exact ⟨c, h, hcourse, hfuel.elim id fun hfuel => absurd hfuel (by omega)⟩
  | succ fuel ih =>
    rw [Campaign.run]
    split
    · next hdone => exact ⟨c, h, hcourse, hdone⟩
    · next hgoing =>
      obtain ⟨hgoing, huncut⟩ := Bool.or_eq_false_iff.1 (Bool.eq_false_iff.2 hgoing)
      obtain ⟨next, hshows, hcourse, hcandidate, hlimit, hwait⟩ :=
        h.wait hgoing huncut hlease hcourse
      rw [← hcandidate] at hlease hcourse ⊢
      refine ih hshows hlease hcourse (hwait.imp_right fun htime => ?_)
      rw [hlimit]
      rw [hgoing, huncut] at hfuel
      have hfuel := hfuel.resolve_left nofun
      omega

/-- What a campaign has come to can come about in a candidacy. -/
def IsCandidacy (candidate : Candidate) (campaign : Campaign) : Prop :=
  ∃ toldAt answer c, (∀ time, toldAt = some time → time ≤ 0) ∧
    Course candidate (Agenda.millisUp candidate.pause * nanosPerMilli) (opening 0 toldAt answer) c ∧
    campaign.state = c.state ∧ campaign.calls = (c.log.map noted).reverse

/-- **Every scripted campaign** ends or is cut off, and is one that can come about. -/
theorem shows_course (candidate : Candidate) (hlease : 1 ≤ candidate.leaseSeconds)
    (script : CampaignScript) :
    ((Campaign.course candidate script).state.isOver ||
        (Campaign.course candidate script).isCutOff) = true ∧
      IsCandidacy candidate (Campaign.course candidate script) := by
  let toldAt := script.stopAt.filter fun time => time == 0
  let start : Campaign := {
    candidate, script
    isStopping := (script.stopAt.map fun time => time == 0).getD false }
  let c : Candidacy := ⟨.seeking, 0, 0, toldAt, []⟩
  have hstopping : start.isStopping = c.toldAt.isSome := by
    simp only [start, c, toldAt]
    cases script.stopAt with
    | none => rfl
    | some time => cases time <;> rfl
  have htold : toldAt.isSome = true → script.stopAt = some 0 := by
    intro hsome
    obtain ⟨time, htime⟩ := Option.isSome_iff_exists.1 hsome
    obtain ⟨htime, hzero⟩ := Option.filter_eq_some_iff.1 htime
    rw [htime, eq_of_beq hzero]
  obtain ⟨asked, hstop, hlimit, hseeking, -⟩ := attempt_eq start
  obtain ⟨answer, hattempt⟩ := hseeking rfl
  have hshows : Shows start.attempt (opening 0 toldAt answer) := by
    have hclock : start.clock = 0 := Nat.zero_mul _
    have hmoved := shows_moved asked (rfl : start.calls = (c.log.map noted).reverse) hstopping
      (fun hsome => hstop.trans (htold hsome)) (.acquire answer)
      (.afterAttempt start.clock start.isStopping answer)
    rw [← hattempt, hstopping, hclock] at hmoved
    exact hmoved
  have hcandidate : start.attempt.candidate = candidate := by
    rw [hattempt]
    rfl
  have hbegun : start.attempt.time = 0 ∧ start.attempt.script.limit = script.limit := by
    rw [hattempt]
    exact ⟨rfl, hlimit⟩
  obtain ⟨last, hlast, hcourse, hdone⟩ := hshows.run (script.limit + 1) (hcandidate ▸ hlease) .start
    (.inr (by rw [hbegun.1, hbegun.2]; omega))
  rw [hcandidate] at hcourse
  refine ⟨hdone, toldAt, answer, last, fun time htime => ?_, hcourse, hlast.state, hlast.calls⟩
  have hzero := htold (htime ▸ rfl)
  rw [(Option.filter_eq_some_iff.1 htime).1] at hzero
  exact Nat.le_of_eq (Option.some.inj hzero)

/-- **Leadership is given up in time and released once**, for a lease of a second or longer.

A broker that seeks the lease tries again, after each pause, until an attempt succeeds or its
arguments are refused, or until it was told to stop. A broker that holds a lease renews it after
each pause; it either was told to stop and gives the lease back once, or it stops working because a
renewal was refused or has failed when the lease had ended, and does not give it back. Each call is
made at most a lease and a pause after the last success before it, and none later than the broker
was told to stop. Nothing happens once the competition is over, and until then something can; and
all this holds of the scripted campaigns, which come to an end. -/
theorem leadership_in_time {candidate : Candidate} (hlease : 1 ≤ candidate.leaseSeconds) :
    (∀ nap, candidate.Naps nap →
      (∀ start toldAt answer c, (∀ time, toldAt = some time → time ≤ start) →
        Course candidate nap (opening start toldAt answer) c →
          SeekRecord candidate nap start c.toldAt c.state c.log ∧ c.Prompt start) ∧
      (∀ lease start toldAt c, (∀ time, toldAt = some time → time ≤ start) →
        Course candidate nap (held lease start toldAt) c →
          HoldRecord candidate nap lease start c.toldAt c.state c.log ∧ c.Prompt start) ∧
      (∀ lease start toldAt state log, HoldRecord candidate nap lease start toldAt state log →
        InTime candidate start log) ∧
      (∀ c next, Step candidate nap c next → c.state.isOver = false) ∧
      ∀ c : Candidacy, c.state.isOver = false → c.CanGoOn candidate nap) ∧
    ∀ script, ((Campaign.course candidate script).state.isOver ||
        (Campaign.course candidate script).isCutOff) = true ∧
      IsCandidacy candidate (Campaign.course candidate script) := by
  refine ⟨fun nap hnap => ⟨fun start toldAt answer c htold hcourse => ?_,
    fun lease start toldAt c htold hcourse => ?_,
    fun lease start toldAt state log hrecord => hrecord.inTime hnap hlease,
    fun c next hstep => hstep.going, fun c hgoing => canGoOn candidate nap hgoing⟩,
    shows_course candidate hlease⟩
  · exact ⟨(hcourse.seeks htold).record, (hcourse.clocked (clocked_opening htold answer)).prompt⟩
  · obtain ⟨log, hlog, hrecord, -⟩ := hcourse.holds htold
    rw [List.append_nil] at hlog
    exact ⟨hlog ▸ hrecord, (hcourse.clocked (clocked_held htold)).prompt⟩

namespace Scenario

/-- A broker that competes for leases of fifteen seconds. -/
def broker : Candidate :=
  ⟨"controller-1", 15⟩

/-- The lease that it has got. -/
def leading : Lease :=
  ⟨leaderScope, "controller-1:token", "controller-1"⟩

/-- The coordinator cannot be reached. -/
def down : Except Failure Bool :=
  .error (.internal "redis down")

/-- A renewal fails after the next pause. -/
def missed (c : Candidacy) : Candidacy :=
  c.renewed broker leading 0 (c.since + broker.pause) down

end Scenario

/-- Three renewals fail, the third of them fifteen seconds after the first. -/
theorem leadership_in_time_overdue : 1 ≤ Scenario.broker.leaseSeconds ∧ ∃ c,
    Course Scenario.broker Scenario.broker.pause (held Scenario.leading 0 none) c ∧
      c.state = .lost Scenario.leading ∧ c.now = 15 * nanosPerSecond ∧
      HoldRecord Scenario.broker Scenario.broker.pause Scenario.leading 0 none
        (.lost Scenario.leading) c.log ∧
      InTime Scenario.broker 0 c.log := by
  have hlease : 1 ≤ Scenario.broker.leaseSeconds := by decide
  obtain ⟨-, hholds, hintime, -⟩ := (leadership_in_time hlease).1 Scenario.broker.pause (.inl rfl)
  have hstep (c : Candidacy) (hholds : c.state = .holding Scenario.leading 0)
      (huntold : c.toldAt = none) :
      Step Scenario.broker Scenario.broker.pause c (Scenario.missed c) :=
    .renews Scenario.down hholds (.inl huntold)
  have hfailed (c : Candidacy) : (Scenario.missed c).state =
      if Scenario.broker.leaseLength ≤ c.since + Scenario.broker.pause then
        .lost Scenario.leading
      else .holding Scenario.leading 0 := by
    simp only [Scenario.missed, renewed, Scenario.down, ElectionState.afterRenewal, Nat.sub_zero]
  let start := held Scenario.leading 0 none
  let second := Scenario.missed (Scenario.missed start)
  have hcourse : Course Scenario.broker Scenario.broker.pause start (Scenario.missed second) :=
    ((Course.start.step (hstep start rfl rfl)).step
      (hstep _ ((hfailed start).trans (if_neg (by decide))) rfl)).step
      (hstep second ((hfailed (Scenario.missed start)).trans (if_neg (by decide))) rfl)
  have hlost : (Scenario.missed second).state = .lost Scenario.leading :=
    (hfailed second).trans (if_pos (by decide))
  have huntold (time : Nat) (htold : none = some time) : time ≤ 0 := by cases htold
  obtain ⟨hrecord, -⟩ := hholds Scenario.leading 0 none _ huntold hcourse
  rw [hlost] at hrecord
  exact ⟨hlease, _, hcourse, hlost, by decide, hrecord, hintime _ _ _ _ _ hrecord⟩

end Candidacy

end AccessBroker
