import AccessBroker.Proofs.Doorbell
import AccessBroker.Proofs.WorkQueue
import AccessBroker.WorkQueue.Shared

/-!
# The anteroom of a work queue

Whoever wants a target waits in the anteroom of the queue, where the doorbell is. What somebody does
there takes several moves, and others may move in between: put the name down, look at the queue,
ring for those who remain, take the name off; or wait, notice a ring, and come back. Whoever adds a
target, gives one back or closes the queue looks at the queue first as well and rings only
afterwards. So each section of the queue is one move and each ring is one
(`AccessBroker.Anteroom.move`), and nothing is assumed about their order.

No ring is lost (`AccessBroker.Anteroom.Reachable.no_lost_ring`): as long as somebody waits who was
not woken while there is a target, a ring is kept, or still to come, or somebody else was woken and
has not looked since. This is what every move preserves (`AccessBroker.Anteroom.Watchful`). The
moves at which it could fail are those that end a look: a look that finds a target among others
promises a ring, one that finds nothing leaves nothing to wake anybody for, and one who leaves with
an unanswered ring passes it on.

The operations of `AccessBroker.SharedQueue` are such moves in a row
(`AccessBroker.Anteroom.leads_look`, `AccessBroker.Anteroom.leads_ask`,
`AccessBroker.Anteroom.leads_resume`).
-/

namespace AccessBroker

namespace Anteroom

/-- Where somebody is on the way to a target. -/
inductive Standing where
  /-- Not there. -/
  | away
  /-- The name is down, and the look at the queue comes next. -/
  | entered
  /-- There was nothing yet. -/
  | parked
  /-- A ring was noticed, and the name comes down again. -/
  | returning
  /-- The look was the last one. Is there to be a ring for those who remain, before the name is
  taken off? -/
  | leaving (owes : Bool)
  deriving Repr, DecidableEq

namespace Standing

/-- Is the name down at the bell? -/
def isDown : Standing → Bool
  | .entered | .parked | .leaving _ => true
  | .away | .returning => false

/-- Was the queue looked at since the name was put down? -/
def hasLooked : Standing → Bool
  | .parked | .leaving _ => true
  | .away | .entered | .returning => false

/-- Where a look at the queue leads. -/
def afterLook {κ : Type} : Handout κ → Standing
  | .target _ more => .leaving more
  | .nothingMore => .leaving false
  | .nothingYet => .parked

end Standing

end Anteroom

/-- A work queue, its doorbell, and those who want a target. -/
structure Anteroom (κ : Type) where
  queue : WorkQueue κ := {}
  bell : Doorbell := {}
  standing : Nat → Anteroom.Standing := fun _ => .away
  /-- Who was woken and has not looked at the queue since. -/
  roused : Nat → Bool := fun _ => false
  /-- How many rings are still to come of those who have added a target or given one back. -/
  owed : Nat := 0
  /-- How many rings for all are still to come. -/
  closing : Nat := 0

namespace Anteroom

variable {κ : Type} [DecidableEq κ]

/-- What can happen next in an anteroom. -/
inductive Move (κ : Type) where
  /-- A target is added. -/
  | add (key : κ)
  /-- A target is given back. -/
  | done (key : κ)
  /-- One of those who have done so rings. -/
  | ring
  /-- The queue is closed. -/
  | close
  /-- Who has done so rings for all. -/
  | ringAll
  /-- A waiter puts the name down. -/
  | enrol (waiter : Nat)
  /-- A waiter looks at the queue. -/
  | look (waiter : Nat)
  /-- A waiter who leaves rings for those who remain. -/
  | ringOn (waiter : Nat)
  /-- A waiter who leaves takes the name off. -/
  | leave (waiter : Nat)
  /-- A waiter notices a ring. -/
  | notice (waiter : Nat)
  /-- A waiter does not wait any longer. -/
  | giveUp (waiter : Nat)

/-- The anteroom with somebody somewhere else. -/
def place (room : Anteroom κ) (waiter : Nat) (standing : Standing) : Anteroom κ :=
  { room with standing := fun other => if other = waiter then standing else room.standing other }

/-- The anteroom with somebody not roused any more. -/
def hush (room : Anteroom κ) (waiter : Nat) : Anteroom κ :=
  { room with roused := fun other => other != waiter && room.roused other }

/-- The anteroom after something at the bell. Whoever is woken by it is roused. -/
def withBell (room : Anteroom κ) (bell : Doorbell) : Anteroom κ :=
  { room with
    bell
    roused := fun waiter => room.roused waiter || bell.isWoken waiter && !room.bell.isWoken waiter }

/-- The anteroom after a section of the queue. A ring that it asks for is still to come. -/
def afterSection (room : Anteroom κ) (outcome : Bool × WorkQueue κ) : Anteroom κ :=
  { room with
    queue := outcome.2
    owed := if outcome.1 then room.owed + 1 else room.owed }

/-- A waiter looks at the queue. -/
def look (room : Anteroom κ) (waiter : Nat) : Anteroom κ :=
  ({ room with queue := room.queue.take.2 }.hush waiter).place waiter
    (.afterLook room.queue.take.1)

/-- The anteroom without somebody whose name is taken off. -/
def strike (room : Anteroom κ) (waiter : Nat) : Anteroom κ :=
  ({ room with bell := room.bell.strike waiter }.hush waiter).place waiter .away

/-- A waiter takes the name off. A single ring that was not noticed goes on. -/
def depart (room : Anteroom κ) (waiter : Nat) : Anteroom κ :=
  let left := room.strike waiter
  if room.bell.woken.contains (waiter, .one) then left.withBell left.bell.ring else left

/-- The anteroom after a move, if it can be made. -/
def move (room : Anteroom κ) : Move κ → Option (Anteroom κ)
  | .add key => some (room.afterSection (room.queue.add key))
  | .done key => some (room.afterSection (room.queue.done key))
  | .ring =>
    if 0 < room.owed then some ({ room with owed := room.owed - 1 }.withBell room.bell.ring)
    else none
  | .close => some { room with queue := room.queue.close, closing := room.closing + 1 }
  | .ringAll =>
    if 0 < room.closing then
      some ({ room with closing := room.closing - 1 }.withBell room.bell.ringAll)
    else none
  | .enrol waiter =>
    if (room.standing waiter).isDown then none
    else some ((room.withBell (room.bell.enrol waiter)).place waiter .entered)
  | .look waiter => if room.standing waiter = .entered then some (room.look waiter) else none
  | .ringOn waiter =>
    if room.standing waiter = .leaving true then
      some ((room.place waiter (.leaving false)).withBell room.bell.ring)
    else none
  | .leave waiter =>
    if room.standing waiter = .leaving false then some (room.depart waiter) else none
  | .notice waiter =>
    if room.standing waiter = .parked ∧ room.bell.isWoken waiter then
      some ({ room with bell := room.bell.notice waiter }.place waiter .returning)
    else none
  | .giveUp waiter => if room.standing waiter = .parked then some (room.depart waiter) else none

/-- The anteroom after some moves in a row. -/
def run (room : Anteroom κ) : List (Move κ) → Option (Anteroom κ)
  | [] => some room
  | first :: rest => (room.move first).bind fun next => next.run rest

/-- An anteroom can come about, starting with nobody there. -/
inductive Reachable : Anteroom κ → Prop
  /-- At the start there is nobody, and no target. -/
  | start : Reachable {}
  /-- Every move goes on from there. -/
  | step {room next : Anteroom κ} (move : Move κ) (before : Reachable room)
    (moved : room.move move = some next) : Reachable next

variable {room next : Anteroom κ} {bell : Doorbell} {waiter other : Nat} {standing : Standing}

/-- **What some moves lead to can come about.** -/
theorem reachable_of_run {moves : List (Move κ)} (hbefore : Reachable room)
    (hrun : room.run moves = some next) : Reachable next := by
  induction moves generalizing room with
  | nil => exact Option.some.inj hrun ▸ hbefore
  | cons first rest ih =>
    obtain ⟨between, hfirst, hrest⟩ := Option.bind_eq_some_iff.1 hrun
    exact ih (hbefore.step first hfirst) hrest

/-! ### Who is where -/

omit [DecidableEq κ] in
@[simp]
theorem standing_place_self : (room.place waiter standing).standing waiter = standing :=
  if_pos rfl

omit [DecidableEq κ] in
theorem standing_place_of_ne (h : other ≠ waiter) :
    (room.place waiter standing).standing other = room.standing other :=
  if_neg h

omit [DecidableEq κ] in
/-- Whoever stands where nobody was placed now is somebody else, and stood there before. -/
theorem of_standing_place {place : Standing}
    (h : (room.place waiter standing).standing other = place) (hne : standing ≠ place) :
    other ≠ waiter ∧ room.standing other = place := by
  by_cases hsame : other = waiter
  · subst hsame
    exact absurd (standing_place_self.symm.trans h) hne
  · exact ⟨hsame, (standing_place_of_ne hsame).symm.trans h⟩

omit [DecidableEq κ] in
/-- Whoever is roused was roused before, or was woken just now. -/
theorem roused_withBell : (room.withBell bell).roused waiter = true ↔
    room.roused waiter = true ∨
      bell.isWoken waiter = true ∧ room.bell.isWoken waiter = false := by
  rw [withBell, Bool.or_eq_true, Bool.and_eq_true, Bool.not_eq_true']

omit [DecidableEq κ] in
theorem roused_hush : (room.hush waiter).roused other = true ↔
    other ≠ waiter ∧ room.roused other = true := by
  rw [hush, Bool.and_eq_true, bne_iff_ne]

omit [DecidableEq κ] in
/-- Whoever takes the name off leaves the bell. -/
theorem bell_depart : (room.depart waiter).bell = room.bell.leave waiter := by
  unfold depart
  rw [Doorbell.leave_eq]
  split <;> rfl

omit [DecidableEq κ] in
theorem queue_depart : (room.depart waiter).queue = room.queue := by
  unfold depart
  dsimp only
  split <;> rfl

omit [DecidableEq κ] in
theorem standing_depart_self : (room.depart waiter).standing waiter = .away := by
  unfold depart
  dsimp only
  split <;> exact standing_place_self

/-! ### Names and rings -/

/-- The names at the bell are those of the waiters who are there, and whoever was woken since
looking was woken by somebody. Rings for all come from closing the queue. -/
structure Posted (room : Anteroom κ) : Prop where
  orderly : room.bell.Orderly fun waiter => (room.standing waiter).isDown = true
  /-- Only a newcomer is woken by a ring that was kept. -/
  rung {waiter : Nat} : room.roused waiter = true → (room.standing waiter).hasLooked = true →
    (waiter, .one) ∈ room.bell.woken ∨ (waiter, .all) ∈ room.bell.woken
  all {waiter : Nat} : (waiter, .all) ∈ room.bell.woken → room.queue.closed = true
  closing : 0 < room.closing → room.queue.closed = true
  away {waiter : Nat} : room.standing waiter = .away → room.roused waiter = false

omit [DecidableEq κ] in
/-- Whoever is at the bell and was not woken is not roused. -/
theorem Posted.not_roused (h : Posted room) (hparked : room.standing waiter = .parked)
    (hasleep : room.bell.isWoken waiter = false) : room.roused waiter = false := by
  rw [Bool.eq_false_iff]
  intro hroused
  have hwoken : room.bell.isWoken waiter = true := Doorbell.isWoken_iff.2 <|
    (h.rung hroused (by rw [hparked]; rfl)).elim (fun hone => ⟨_, hone⟩) fun hall => ⟨_, hall⟩
  rw [hasleep] at hwoken
  contradiction

omit [DecidableEq κ] in
/-- A ring wakes those who wait. -/
theorem Posted.withBell (h : Posted room) (hrung : Doorbell.Rung room.bell bell)
    (hall : ∀ {waiter}, (waiter, .all) ∈ bell.woken → room.queue.closed = true) :
    Posted (room.withBell bell) where
  orderly := hrung.orderly h.orderly
  rung {waiter} hroused hlooked := by
    rcases roused_withBell.1 hroused with hbefore | ⟨hwoken, hasleep⟩
    · exact (h.rung hbefore hlooked).imp hrung.still hrung.still
    · obtain ⟨how, hwoken⟩ := Doorbell.isWoken_iff.1 hwoken
      rcases hrung.fresh hwoken with hbefore | ⟨-, -, hnew⟩
      · rw [Doorbell.isWoken_iff.2 ⟨how, hbefore⟩] at hasleep
        contradiction
      · cases how with
        | kept => contradiction
        | one => exact .inl hwoken
        | all => exact .inr hwoken
  all := hall
  closing := h.closing
  away {waiter} haway := by
    have haway : room.standing waiter = .away := haway
    rw [Bool.eq_false_iff]
    intro hroused
    rcases roused_withBell.1 hroused with hbefore | ⟨hwoken, hasleep⟩
    · rw [h.away haway] at hbefore
      contradiction
    · have hdown := ((hrung.orderly h.orderly).down waiter).2
        (.inr (Doorbell.isWoken_iff.1 hwoken))
      rw [haway] at hdown
      contradiction

omit [DecidableEq κ] in
/-- One ring. -/
theorem Posted.ring (h : Posted room) : Posted (room.withBell room.bell.ring) :=
  h.withBell (Doorbell.rung_ring h.orderly.once) fun hwoken =>
    h.all (Doorbell.mem_woken_of_ring hwoken)

omit [DecidableEq κ] in
/-- Nobody but the newcomer is roused. -/
theorem roused_of_enrol (hne : other ≠ waiter)
    (hroused : (room.withBell (room.bell.enrol waiter)).roused other = true) :
    room.roused other = true := by
  refine (roused_withBell.1 hroused).resolve_right fun ⟨hnow, hasleep⟩ => ?_
  obtain ⟨how, hnow⟩ := Doorbell.isWoken_iff.1 hnow
  have hbefore := (Doorbell.mem_woken_of_enrol hnow).resolve_right fun hsame => hne hsame.1
  rw [Doorbell.isWoken_iff.2 ⟨how, hbefore⟩] at hasleep
  contradiction

omit [DecidableEq κ] in
/-- A name is put down. -/
theorem Posted.enrol (h : Posted room) (hnew : (room.standing waiter).isDown = false) :
    Posted ((room.withBell (room.bell.enrol waiter)).place waiter .entered) where
  orderly := (h.orderly.enrol (Bool.eq_false_iff.1 hnew)).congr fun other => by
    by_cases hsame : other = waiter
    · subst hsame
      rw [standing_place_self]
      exact ⟨fun _ => .inl rfl, fun _ => rfl⟩
    · rw [standing_place_of_ne hsame]
      exact ⟨.inr, fun hpresent => hpresent.resolve_left hsame⟩
  rung {other} hroused hlooked := by
    by_cases hsame : other = waiter
    · subst hsame
      rw [standing_place_self] at hlooked
      contradiction
    · rw [standing_place_of_ne hsame] at hlooked
      exact (h.rung (roused_of_enrol hsame hroused) hlooked).imp Doorbell.mem_woken_enrol
        Doorbell.mem_woken_enrol
  all hwoken := h.all ((Doorbell.mem_woken_of_enrol hwoken).resolve_right fun hsame => by
    cases hsame.2)
  closing := h.closing
  away {other} hother := by
    obtain ⟨hne, haway⟩ := of_standing_place hother nofun
    exact Bool.eq_false_iff.2 fun hroused =>
      Bool.eq_false_iff.1 (h.away haway) (roused_of_enrol hne hroused)

omit [DecidableEq κ] in
/-- A name is taken off. -/
theorem Posted.off (h : Posted room) {roused : Nat → Bool} (hdown : standing.isDown = false)
    (hroused : ∀ {other}, roused other = true → room.roused other = true)
    (haway : standing = .away → roused waiter = false) :
    Posted ({ room with bell := room.bell.strike waiter, roused }.place waiter standing) where
  orderly := (h.orderly.strike waiter).congr fun other => by
    by_cases hother : other = waiter
    · subst hother
      rw [standing_place_self, hdown]
      exact ⟨nofun, fun hleft => absurd rfl hleft.2⟩
    · rw [standing_place_of_ne hother]
      exact ⟨fun hpresent => ⟨hpresent, hother⟩, And.left⟩
  rung {other} hbefore hlooked := by
    by_cases hother : other = waiter
    · subst hother
      rw [standing_place_self] at hlooked
      cases standing <;> contradiction
    · rw [standing_place_of_ne hother] at hlooked
      exact (h.rung (hroused hbefore) hlooked).imp
        (fun hone => Doorbell.mem_woken_strike.2 ⟨hone, hother⟩)
        (fun hall => Doorbell.mem_woken_strike.2 ⟨hall, hother⟩)
  all hwoken := h.all (Doorbell.mem_woken_strike.1 hwoken).1
  closing := h.closing
  away {other} hother := by
    by_cases hsame : other = waiter
    · subst hsame
      exact haway (standing_place_self.symm.trans hother)
    · rw [standing_place_of_ne hsame] at hother
      exact Bool.eq_false_iff.2 fun hbefore =>
        Bool.eq_false_iff.1 (h.away hother) (hroused hbefore)

omit [DecidableEq κ] in
theorem Posted.strike (h : Posted room) (waiter : Nat) : Posted (room.strike waiter) :=
  h.off rfl (fun hhushed => (roused_hush.1 hhushed).2) fun _ => by simp

/-! ### No ring is lost -/

/-- A ring is kept or still to come, or somebody was woken who will look. -/
inductive Stirred (room : Anteroom κ) : Prop
  | kept (h : room.bell.kept = true)
  | owed (h : 0 < room.owed)
  | closing (h : 0 < room.closing)
  | leaving (waiter : Nat) (h : room.standing waiter = .leaving true)
  | roused (waiter : Nat) (h : room.roused waiter = true)

omit [DecidableEq κ] in
/-- Rings that are still to come stay so, and the other ones are looked at. -/
theorem Stirred.imp {after : Anteroom κ} (h : Stirred room) (howed : after.owed = room.owed)
    (hclosing : after.closing = room.closing)
    (hleaving : ∀ {waiter}, room.standing waiter = .leaving true →
      after.standing waiter = .leaving true)
    (hkept : room.bell.kept = true → Stirred after)
    (hroused : ∀ {waiter}, room.roused waiter = true → Stirred after) : Stirred after := by
  cases h with
  | kept hbell => exact hkept hbell
  | owed hrings => exact .owed (howed ▸ hrings)
  | closing hrings => exact .closing (hclosing ▸ hrings)
  | leaving waiter hstands => exact .leaving waiter (hleaving hstands)
  | roused waiter hwoken => exact hroused hwoken

omit [DecidableEq κ] in
/-- Nobody else's ring is lost when somebody is placed who owes none. -/
theorem leaving_place (hpaid : room.standing waiter ≠ .leaving true)
    (hleaving : room.standing other = .leaving true) :
    (room.place waiter standing).standing other = .leaving true := by
  have hne : other ≠ waiter := by
    rintro rfl
    exact hpaid hleaving
  exact (standing_place_of_ne hne).trans hleaving

/-- Whoever waits will be woken if there is a target, and if the queue is closed. -/
structure Watchful (room : Anteroom κ) : Prop extends Posted room where
  stirred {waiter : Nat} : room.queue.queue ≠ [] → room.standing waiter = .parked →
    waiter ∈ room.bell.waiting → Stirred room
  heard {waiter : Nat} : room.queue.closed = true → room.standing waiter = .parked →
    waiter ∈ room.bell.waiting → 0 < room.closing

omit [DecidableEq κ] in
theorem watchful_empty : Watchful ({} : Anteroom κ) where
  orderly := Doorbell.orderly_empty.congr fun _ => ⟨nofun, nofun⟩
  rung := nofun
  all := nofun
  closing := nofun
  away _ := rfl
  stirred hqueue := absurd rfl hqueue
  heard := nofun

/-! ### Rings -/

omit [DecidableEq κ] in
/-- **One ring** is kept or wakes somebody, whatever was before. -/
theorem Watchful.ring (h : Posted room) (hheard : ∀ {waiter}, room.queue.closed = true →
      room.standing waiter = .parked → waiter ∈ room.bell.waiting → 0 < room.closing) :
    Watchful (room.withBell room.bell.ring) where
  toPosted := h.ring
  stirred _ _ _ := by
    rcases Doorbell.kept_or_woken_ring h.orderly with hkept | ⟨waiter, hwoken, hasleep⟩
    · exact .kept hkept
    · exact .roused waiter (roused_withBell.2 (.inr ⟨hwoken, hasleep⟩))
  heard hclosed hparked hwaiting := hheard hclosed hparked
    ((Doorbell.rung_ring h.orderly.once).waiting.subset hwaiting)

omit [DecidableEq κ] in
/-- **After a ring for all** nobody waits. -/
theorem Watchful.ringAll (h : Watchful room) (hclosing : 0 < room.closing) :
    Watchful ({ room with closing := room.closing - 1 }.withBell room.bell.ringAll) where
  toPosted := by
    have hposted : Posted { room with closing := room.closing - 1 } :=
      ⟨h.orderly, h.rung, h.all, fun _ => h.closing hclosing, h.away⟩
    exact hposted.withBell (Doorbell.rung_ringAll _) fun _ => h.closing hclosing
  stirred _ _ hwaiting := absurd hwaiting List.not_mem_nil
  heard _ _ hwaiting := absurd hwaiting List.not_mem_nil

/-! ### Sections of the queue -/

section Sections

variable {queue : WorkQueue κ} {key : κ}

/-- Without a ring nothing has come to wait. -/
theorem queue_add_of_quiet (h : (queue.add key).1 = false) :
    (queue.add key).2.queue = queue.queue := by
  unfold WorkQueue.add at h ⊢
  split
  · rfl
  · dsimp only at h ⊢
    split <;> simp_all

theorem queue_done_of_quiet (h : (queue.done key).1 = false) :
    (queue.done key).2.queue = queue.queue := by
  unfold WorkQueue.done at h ⊢
  dsimp only at h ⊢
  split <;> simp_all

omit [DecidableEq κ] in
/-- A section that brings a target to wait asks for a ring. -/
theorem Watchful.afterSection (h : Watchful room) {outcome : Bool × WorkQueue κ}
    (hclosed : outcome.2.closed = room.queue.closed)
    (hquiet : outcome.1 = false → outcome.2.queue = room.queue.queue) :
    Watchful (room.afterSection outcome) where
  orderly := h.orderly
  rung := h.rung
  all hwoken := hclosed.trans (h.all hwoken)
  closing hrings := hclosed.trans (h.closing hrings)
  away := h.away
  stirred {waiter} hqueue hparked hwaiting := by
    obtain ⟨rings, queue⟩ := outcome
    cases rings with
    | true => exact .owed (Nat.succ_pos room.owed)
    | false =>
      have hsame : queue.queue = room.queue.queue := hquiet rfl
      have hbefore := h.stirred (fun hempty => hqueue (hsame.trans hempty)) hparked hwaiting
      exact hbefore.imp rfl rfl id (fun hkept => .kept hkept) fun hroused => .roused _ hroused
  heard hshut := h.heard (hclosed.symm.trans hshut)

end Sections

/-! ### Waiters -/

omit [DecidableEq κ] in
/-- **A newcomer** takes a ring that was kept along to the look. -/
theorem Watchful.enrol (h : Watchful room) (hnew : (room.standing waiter).isDown = false) :
    Watchful ((room.withBell (room.bell.enrol waiter)).place waiter .entered) where
  toPosted := h.toPosted.enrol hnew
  stirred {other} hqueue hother hwaiting := by
    have hpaid : room.standing waiter ≠ .leaving true := by
      intro hleaving
      rw [hleaving] at hnew
      contradiction
    have hasleep : room.bell.isWoken waiter = false := by
      rw [Bool.eq_false_iff]
      exact fun hnow => Bool.eq_false_iff.1 hnew
        ((h.orderly.down waiter).2 (.inr (Doorbell.isWoken_iff.1 hnow)))
    obtain ⟨hne, hparked⟩ := of_standing_place hother nofun
    have hbefore := h.stirred hqueue hparked (Doorbell.mem_waiting_of_enrol hne hwaiting)
    refine hbefore.imp rfl rfl (leaving_place hpaid) (fun hkept => ?_)
      fun hroused => .roused _ (roused_withBell.2 (.inl hroused))
    -- The newcomer has taken the ring that was kept.
    have hwoken : (waiter, .kept) ∈ (room.bell.enrol waiter).woken := by
      rw [Doorbell.enrol, if_pos hkept]
      exact List.mem_append_right _ List.mem_cons_self
    exact .roused waiter
      (roused_withBell.2 (.inr ⟨Doorbell.isWoken_iff.2 ⟨.kept, hwoken⟩, hasleep⟩))
  heard {other} hclosed hother hwaiting := by
    obtain ⟨hne, hparked⟩ := of_standing_place hother nofun
    exact h.heard hclosed hparked (Doorbell.mem_waiting_of_enrol hne hwaiting)

/-- **A look** promises a ring if it leaves targets behind. -/
theorem Watchful.look (h : Watchful room) (hentered : room.standing waiter = .entered) :
    Watchful (room.look waiter) := by
  have hdown (handout : Handout κ) : (Standing.afterLook handout).isDown = true := by
    cases handout <;> rfl
  have hclosed : (room.look waiter).queue.closed = room.queue.closed := by
    change room.queue.take.2.closed = room.queue.closed
    rcases room.queue.take_cases with ⟨_, _, -, htake⟩ | ⟨-, -, htake⟩ | ⟨-, -, htake⟩ <;>
      rw [htake]
  have hself : (room.look waiter).standing waiter = .afterLook room.queue.take.1 :=
    standing_place_self
  have hothers {other : Nat} (hne : other ≠ waiter) :
      (room.look waiter).standing other = room.standing other := standing_place_of_ne hne
  have hroused {other : Nat} (hother : (room.look waiter).roused other = true) :
      other ≠ waiter ∧ room.roused other = true := roused_hush.1 hother
  refine ⟨⟨h.orderly.congr fun other => ?_, fun {other} hother hlooked => ?_,
    fun hall => hclosed.trans (h.all hall), fun hrings => hclosed.trans (h.closing hrings),
    fun {other} haway => ?_⟩, fun {other} hqueue hparked hwaiting => ?_,
    fun {other} hshut hparked hwaiting => ?_⟩
  · by_cases hsame : other = waiter
    · subst hsame
      rw [hself, hentered, hdown]
      rfl
    · rw [hothers hsame]
  · obtain ⟨hne, hbefore⟩ := hroused hother
    rw [hothers hne] at hlooked
    exact h.rung hbefore hlooked
  · rw [Bool.eq_false_iff]
    intro hother
    obtain ⟨hne, hbefore⟩ := hroused hother
    rw [hothers hne] at haway
    exact Bool.eq_false_iff.1 (h.away haway) hbefore
  · change room.queue.take.2.queue ≠ [] at hqueue
    rcases room.queue.take_cases with ⟨key, rest, -, htake⟩ | ⟨hempty, -, htake⟩ |
      ⟨hempty, -, htake⟩
    · rw [htake] at hqueue hself
      cases rest with
      | nil => contradiction
      | cons second rest => exact .leaving waiter hself
    · rw [htake] at hqueue
      contradiction
    · rw [htake] at hqueue
      contradiction
  · rw [hclosed] at hshut
    by_cases hsame : other = waiter
    · subst hsame
      -- Nobody goes on waiting at a closed queue.
      rcases room.queue.take_cases with ⟨_, _, -, htake⟩ | ⟨-, -, htake⟩ | ⟨-, hopen, -⟩
      · rw [hself, htake] at hparked
        contradiction
      · rw [hself, htake] at hparked
        contradiction
      · rw [hopen] at hshut
        contradiction
    · exact h.heard hshut ((hothers hsame).symm.trans hparked) hwaiting

omit [DecidableEq κ] in
/-- **Whoever leaves** passes an unanswered ring on. -/
theorem Watchful.depart (h : Watchful room)
    (hlooked : (room.standing waiter).hasLooked = true)
    (hpaid : room.standing waiter ≠ .leaving true) : Watchful (room.depart waiter) := by
  have hparked {other : Nat} (hother : (room.strike waiter).standing other = .parked) :
      room.standing other = .parked := (of_standing_place hother nofun).2
  have hheard {other : Nat} (hclosed : room.queue.closed = true)
      (hother : (room.strike waiter).standing other = .parked)
      (hwaiting : other ∈ (room.strike waiter).bell.waiting) : 0 < room.closing :=
    h.heard hclosed (hparked hother) (Doorbell.mem_waiting_strike.1 hwaiting).1
  unfold Anteroom.depart
  dsimp only
  split
  · exact .ring (h.strike waiter) hheard
  · next hsingle =>
    refine ⟨h.strike waiter, fun {other} hqueue hother hline => ?_, hheard⟩
    have hwaiting : other ∈ room.bell.waiting := (Doorbell.mem_waiting_strike.1 hline).1
    refine (h.stirred hqueue (hparked hother) hwaiting).imp rfl rfl (leaving_place hpaid)
      (fun hkept => .kept hkept) fun {third} hroused => ?_
    by_cases hsame : third = waiter
    · subst hsame
      -- The ring was one for all, so the queue is closed.
      rcases h.rung hroused hlooked with hone | hall
      · exact absurd (List.contains_iff_mem.2 hone) hsingle
      · exact .closing (h.heard (h.all hall) (hparked hother) hwaiting)
    · exact .roused third (roused_hush.2 ⟨hsame, hroused⟩)

omit [DecidableEq κ] in
/-- **Whoever notices a ring** comes back to look. -/
theorem Watchful.notice (h : Watchful room) (hstands : room.standing waiter = .parked)
    (hwoken : room.bell.isWoken waiter = true) :
    Watchful ({ room with bell := room.bell.notice waiter }.place waiter .returning) := by
  obtain ⟨how, hwoken⟩ := Doorbell.isWoken_iff.1 hwoken
  rw [Doorbell.notice_eq_strike (h.orderly.apart hwoken)]
  have hparked {other : Nat}
      (hother : ({ room with bell := room.bell.strike waiter }.place waiter .returning).standing
        other = .parked) : room.standing other = .parked := by
    obtain ⟨-, hbefore⟩ := of_standing_place hother nofun
    exact hbefore
  refine ⟨h.off rfl id nofun, fun {other} hqueue hother hwaiting => ?_,
    fun hclosed hother hwaiting =>
      h.heard hclosed (hparked hother) (Doorbell.mem_waiting_strike.1 hwaiting).1⟩
  have hbefore := h.stirred hqueue (hparked hother) (Doorbell.mem_waiting_strike.1 hwaiting).1
  exact hbefore.imp rfl rfl (leaving_place (by rw [hstands]; nofun)) (fun hkept => .kept hkept)
    fun hroused => .roused _ hroused

omit [DecidableEq κ] in
/-- **Whoever leaves with a target** rings for those who remain. -/
theorem Watchful.ringOn (h : Watchful room) (hleaving : room.standing waiter = .leaving true) :
    Watchful ((room.place waiter (.leaving false)).withBell room.bell.ring) := by
  have hsame {other : Nat} : ((room.place waiter (.leaving false)).standing other).isDown =
        (room.standing other).isDown ∧
      ((room.place waiter (.leaving false)).standing other).hasLooked =
        (room.standing other).hasLooked := by
    by_cases hother : other = waiter
    · subst hother
      rw [standing_place_self, hleaving]
      exact ⟨rfl, rfl⟩
    · rw [standing_place_of_ne hother]
      exact ⟨rfl, rfl⟩
  have hposted : Posted (room.place waiter (.leaving false)) :=
    ⟨h.orderly.congr fun other => by rw [hsame.1],
      fun hroused hlooked => h.rung hroused (hsame.2.symm.trans hlooked), h.all, h.closing,
      fun haway => h.away (of_standing_place haway nofun).2⟩
  exact .ring hposted fun hclosed hparked =>
    h.heard hclosed (of_standing_place hparked nofun).2

/-! ### Moves -/

/-- **Every move keeps the rings.** -/
theorem Watchful.moved (h : Watchful room) {move : Move κ} (hmove : room.move move = some next) :
    Watchful next := by
  cases move with
  | add key =>
    cases hmove
    exact h.afterSection (room.queue.closed_add key) queue_add_of_quiet
  | done key =>
    cases hmove
    exact h.afterSection (room.queue.closed_done key) queue_done_of_quiet
  | ring =>
    obtain ⟨-, hnext⟩ := Option.ite_none_right_eq_some.1 hmove
    cases hnext
    have hposted : Posted { room with owed := room.owed - 1 } :=
      ⟨h.orderly, h.rung, h.all, h.closing, h.away⟩
    exact .ring hposted h.heard
  | close =>
    cases hmove
    exact ⟨⟨h.orderly, h.rung, fun _ => rfl, fun _ => rfl, h.away⟩,
      fun _ _ _ => .closing (Nat.succ_pos _), fun _ _ _ => Nat.succ_pos _⟩
  | ringAll =>
    obtain ⟨hclosing, hnext⟩ := Option.ite_none_right_eq_some.1 hmove
    cases hnext
    exact h.ringAll hclosing
  | enrol waiter =>
    obtain ⟨hnew, hnext⟩ := Option.ite_none_left_eq_some.1 hmove
    cases hnext
    exact h.enrol (Bool.eq_false_iff.2 hnew)
  | look waiter =>
    obtain ⟨hentered, hnext⟩ := Option.ite_none_right_eq_some.1 hmove
    cases hnext
    exact h.look hentered
  | ringOn waiter =>
    obtain ⟨hleaving, hnext⟩ := Option.ite_none_right_eq_some.1 hmove
    cases hnext
    exact h.ringOn hleaving
  | leave waiter =>
    obtain ⟨hleaving, hnext⟩ := Option.ite_none_right_eq_some.1 hmove
    cases hnext
    exact h.depart (by rw [hleaving]; rfl) (by rw [hleaving]; nofun)
  | notice waiter =>
    obtain ⟨⟨hparked, hwoken⟩, hnext⟩ := Option.ite_none_right_eq_some.1 hmove
    cases hnext
    exact h.notice hparked hwoken
  | giveUp waiter =>
    obtain ⟨hparked, hnext⟩ := Option.ite_none_right_eq_some.1 hmove
    cases hnext
    exact h.depart (by rw [hparked]; rfl) (by rw [hparked]; nofun)

theorem Reachable.watchful (h : Reachable room) : Watchful room := by
  induction h with
  | start => exact watchful_empty
  | step _ _ hmoved ih => exact ih.moved hmoved

/-- Nobody is between a section of the queue and the ring that follows it. -/
structure Quiet (room : Anteroom κ) : Prop where
  owed : room.owed = 0
  closing : room.closing = 0
  leaving (waiter : Nat) : room.standing waiter ≠ .leaving true

/-- **No ring is lost.** While nobody has a ring still to give, and somebody waits who was not woken
although there is a target or the queue is closed, a ring is kept, or somebody else was woken and
has not looked at the queue since: that one will look again, or is leaving and will pass the ring
on. And at a closed queue nobody waits who was not woken. -/
theorem Reachable.no_lost_ring (h : Reachable room) (hquiet : Quiet room) :
    (∀ waiter, room.standing waiter = .parked → room.bell.isWoken waiter = false →
      room.queue.queue ≠ [] ∨ room.queue.closed = true →
      room.bell.kept = true ∨ ∃ other, other ≠ waiter ∧ room.roused other = true ∧
        (room.standing other = .entered ∨ room.standing other = .returning ∨
          (other, .one) ∈ room.bell.woken)) ∧
    (room.queue.closed = true → ∀ waiter, room.standing waiter = .parked →
      room.bell.isWoken waiter = true) := by
  have hwatchful := h.watchful
  have hwaits {waiter : Nat} (hparked : room.standing waiter = .parked)
      (hasleep : room.bell.isWoken waiter = false) : waiter ∈ room.bell.waiting :=
    hwatchful.orderly.waits (by rw [hparked]; rfl) hasleep
  have hopen {waiter : Nat} (hparked : room.standing waiter = .parked)
      (hasleep : room.bell.isWoken waiter = false) : room.queue.closed ≠ true := fun hclosed =>
    Nat.ne_of_gt (hwatchful.heard hclosed hparked (hwaits hparked hasleep)) hquiet.closing
  refine ⟨fun waiter hparked hasleep hwanted => ?_, fun hclosed waiter hparked => ?_⟩
  · have hqueue := hwanted.resolve_right (hopen hparked hasleep)
    cases hwatchful.stirred hqueue hparked (hwaits hparked hasleep) with
    | kept hkept => exact .inl hkept
    | owed howed => exact absurd hquiet.owed (Nat.ne_of_gt howed)
    | closing hclosing => exact absurd hquiet.closing (Nat.ne_of_gt hclosing)
    | leaving other hleaving => exact absurd hleaving (hquiet.leaving other)
    | roused other hroused =>
      refine .inr ⟨other, ?_, hroused, ?_⟩
      · rintro rfl
        exact Bool.eq_false_iff.1 (hwatchful.not_roused hparked hasleep) hroused
      · have hone (hlooked : (room.standing other).hasLooked = true) :
            (other, .one) ∈ room.bell.woken :=
          (hwatchful.rung hroused hlooked).resolve_right fun hall =>
            hopen hparked hasleep (hwatchful.all hall)
        cases hother : room.standing other with
        | away => exact absurd hroused (Bool.eq_false_iff.1 (hwatchful.away hother))
        | entered => exact .inl rfl
        | returning => exact .inr (.inl rfl)
        | parked => exact .inr (.inr (hone (by rw [hother]; rfl)))
        | leaving owes => exact .inr (.inr (hone (by rw [hother]; rfl)))
  · cases hwoken : room.bell.isWoken waiter with
    | true => rfl
    | false => exact absurd hclosed (hopen hparked hwoken)

/-- Two waiters find nothing, and a target is added: the first one is woken. -/
def Scenario.woken : List (Move Nat) := [.enrol 1, .look 1, .enrol 2, .look 2, .add 5, .ring]

/-- The second one waits for the first one, who is to look. -/
theorem no_lost_ring_woken : ∃ room : Anteroom Nat, Reachable room ∧ Quiet room ∧
    room.standing 2 = .parked ∧ room.bell.isWoken 2 = false ∧ room.queue.queue = [5] ∧
    ∃ other, other ≠ 2 ∧ room.roused other = true := by
  obtain ⟨room, hrun, hstanding, howed, hclosing, hasleep, hqueue, hkept⟩ :
      ∃ room, ({} : Anteroom Nat).run Scenario.woken = some room ∧
        room.standing = (fun waiter => if waiter = 2 then .parked else if waiter = 2 then .entered
          else if waiter = 1 then .parked else if waiter = 1 then .entered else .away) ∧
        room.owed = 0 ∧ room.closing = 0 ∧ room.bell.isWoken 2 = false ∧
        room.queue.queue = [5] ∧ room.bell.kept = false := ⟨_, rfl, rfl, rfl, rfl, rfl, rfl, rfl⟩
  have hreachable := reachable_of_run .start hrun
  have hquiet : Quiet room := ⟨howed, hclosing, fun waiter => by
    rw [hstanding]
    dsimp only
    repeat' split
    all_goals nofun⟩
  have hparked : room.standing 2 = .parked := by rw [hstanding]; rfl
  rcases (Reachable.no_lost_ring hreachable hquiet).1 2 hparked hasleep
    (.inl (by rw [hqueue]; nofun)) with hring | ⟨other, hother, hroused, -⟩
  · rw [hkept] at hring
    contradiction
  · exact ⟨room, hreachable, hquiet, hparked, hasleep, hqueue, other, hother, hroused⟩

/-! ### Operations of a shared queue -/

/-- The queue with its bell. -/
def shared (room : Anteroom κ) : SharedQueue κ := ⟨room.queue, room.bell⟩

/-- Some moves in a row lead from here to there. -/
def Leads (room next : Anteroom κ) : Prop := ∃ moves, room.run moves = some next

theorem Leads.refl (room : Anteroom κ) : Leads room room := ⟨[], rfl⟩

theorem Leads.cons {between : Anteroom κ} (move : Move κ) (hmove : room.move move = some between)
    (h : Leads between next) : Leads room next := by
  obtain ⟨moves, hrun⟩ := h
  exact ⟨move :: moves, Option.bind_eq_some_iff.2 ⟨between, hmove, hrun⟩⟩

theorem Leads.trans {between : Anteroom κ} (hfirst : Leads room between)
    (hrest : Leads between next) : Leads room next := by
  obtain ⟨moves, hrun⟩ := hfirst
  induction moves generalizing room with
  | nil => exact Option.some.inj hrun ▸ hrest
  | cons first rest ih =>
    obtain ⟨after, hmove, hrun⟩ := Option.bind_eq_some_iff.1 hrun
    exact .cons first hmove (ih hrun)

theorem move_ring (room : Anteroom κ) (howed : 0 < room.owed) : room.move .ring =
    some ({ room with owed := room.owed - 1 }.withBell room.bell.ring) := if_pos howed

theorem move_ringAll (room : Anteroom κ) (hclosing : 0 < room.closing) : room.move .ringAll =
    some ({ room with closing := room.closing - 1 }.withBell room.bell.ringAll) :=
  if_pos hclosing

/-- **A section and its ring**, one right after the other. -/
theorem leads_afterSection {outcome : Bool × WorkQueue κ} (move : Move κ)
    (hmove : room.move move = some (room.afterSection outcome)) :
    ∃ next, Leads room next ∧ next.shared = room.shared.afterSection outcome ∧
      next.standing = room.standing := by
  obtain ⟨rings, queue⟩ := outcome
  cases rings with
  | false => exact ⟨_, .cons move hmove (.refl _), rfl, rfl⟩
  | true =>
    have hring := move_ring (room.afterSection (true, queue)) (Nat.succ_pos room.owed)
    exact ⟨_, .cons move hmove (.cons .ring hring (.refl _)), rfl, rfl⟩

theorem leads_add (room : Anteroom κ) (key : κ) :
    ∃ next, Leads room next ∧ next.shared = room.shared.add key ∧
      next.standing = room.standing :=
  leads_afterSection (.add key) rfl

theorem leads_done (room : Anteroom κ) (key : κ) :
    ∃ next, Leads room next ∧ next.shared = room.shared.done key ∧
      next.standing = room.standing :=
  leads_afterSection (.done key) rfl

theorem leads_close (room : Anteroom κ) :
    ∃ next, Leads room next ∧ next.shared = room.shared.close ∧
      next.standing = room.standing := by
  have hring := move_ringAll
    { room with queue := room.queue.close, closing := room.closing + 1 }
    (Nat.succ_pos room.closing)
  exact ⟨_, .cons .close rfl (.cons .ringAll hring (.refl _)), rfl, rfl⟩

theorem leads_giveUp (room : Anteroom κ) (hparked : room.standing waiter = .parked) :
    ∃ next, Leads room next ∧ next.shared = room.shared.giveUp waiter ∧
      next.standing waiter = .away := by
  refine ⟨_, .cons (.giveUp waiter) (if_pos hparked) (.refl _), ?_, standing_depart_self⟩
  rw [shared, bell_depart, queue_depart]
  rfl

/-- Whoever leaves rings for those who remain, and takes the name off. -/
theorem leads_leave (room : Anteroom κ) {owes : Bool}
    (hleaving : room.standing waiter = .leaving owes) :
    ∃ next, Leads room next ∧ next.standing waiter = .away ∧
      next.shared = ⟨room.queue, (if owes then room.bell.ring else room.bell).leave waiter⟩ := by
  cases owes with
  | false =>
    refine ⟨_, .cons (.leave waiter) (if_pos hleaving) (.refl _), standing_depart_self, ?_⟩
    rw [shared, bell_depart, queue_depart]
    rfl
  | true =>
    refine ⟨_, .cons (.ringOn waiter) (if_pos hleaving)
      (.cons (.leave waiter) (if_pos standing_place_self) (.refl _)), standing_depart_self, ?_⟩
    rw [shared, bell_depart, queue_depart]
    rfl

/-- Where somebody is who has asked for a target. -/
def Standing.afterAsking : Handout κ → Standing
  | .nothingYet => .parked
  | .target _ _ | .nothingMore => .away

/-- **A look at the queue**, with all that it leads to. -/
theorem leads_look (room : Anteroom κ) (hentered : room.standing waiter = .entered) :
    ∃ next, Leads room next ∧ next.shared = (room.shared.look waiter).2 ∧
      next.standing waiter = .afterAsking (room.shared.look waiter).1 := by
  have hlook : room.move (.look waiter) = some (room.look waiter) := if_pos hentered
  rcases htake : room.queue.take with ⟨handout, queue⟩
  have hself : (room.look waiter).standing waiter = .afterLook handout := by
    rw [look, standing_place_self, htake]
  have hqueue : (room.look waiter).queue = queue := congrArg Prod.snd htake
  rw [SharedQueue.look, shared, htake]
  subst hqueue
  cases handout with
  | target key more =>
    obtain ⟨next, hleads, haway, hnext⟩ := leads_leave _ hself
    exact ⟨next, .cons _ hlook hleads, hnext, haway⟩
  | nothingMore =>
    obtain ⟨next, hleads, haway, hnext⟩ := leads_leave _ hself
    exact ⟨next, .cons _ hlook hleads, hnext, haway⟩
  | nothingYet => exact ⟨_, .cons _ hlook (.refl _), rfl, hself⟩

/-- A newcomer puts the name down and looks. -/
theorem leads_enrol (room : Anteroom κ) (hnew : (room.standing waiter).isDown = false) :
    ∃ next, Leads room next ∧
      next.shared = (SharedQueue.look ⟨room.queue, room.bell.enrol waiter⟩ waiter).2 ∧
      next.standing waiter =
        .afterAsking (SharedQueue.look ⟨room.queue, room.bell.enrol waiter⟩ waiter).1 := by
  obtain ⟨next, hleads, hnext⟩ := leads_look
    ((room.withBell (room.bell.enrol waiter)).place waiter .entered) standing_place_self
  exact ⟨next, .cons (.enrol waiter) (if_neg (Bool.eq_false_iff.1 hnew)) hleads, hnext⟩

/-- Who waits and was woken notices it. -/
theorem leads_notice (room : Anteroom κ) (hparked : room.standing waiter = .parked)
    (hwoken : room.bell.isWoken waiter = true) :
    ∃ next, Leads room next ∧ next.shared = ⟨room.queue, room.bell.notice waiter⟩ ∧
      next.standing waiter = .returning :=
  ⟨_, .cons (.notice waiter) (if_pos ⟨hparked, hwoken⟩) (.refl _), rfl, standing_place_self⟩

/-- **Asking for a target** is putting the name down and looking, again if there was a ring. -/
theorem leads_ask (room : Anteroom κ) (hnew : (room.standing waiter).isDown = false) :
    ∃ next, Leads room next ∧ next.shared = (room.shared.ask waiter).2 ∧
      next.standing waiter = .afterAsking (room.shared.ask waiter).1 := by
  obtain ⟨looked, hlooked, hshared, hstands⟩ := leads_enrol room hnew
  rw [SharedQueue.ask, shared]
  dsimp only
  rcases hlook : SharedQueue.look ⟨room.queue, room.bell.enrol waiter⟩ waiter with ⟨handout, after⟩
  rw [hlook] at hshared hstands
  dsimp only at hshared hstands ⊢
  subst hshared
  split
  · next hagain =>
    obtain ⟨rfl, hwoken⟩ := hagain
    obtain ⟨noticed, hnoticed, hshared, hreturning⟩ := leads_notice looked hstands hwoken
    obtain ⟨next, hnext, hlast⟩ := leads_enrol noticed (by rw [hreturning]; rfl)
    obtain ⟨hqueue, hbell⟩ := SharedQueue.mk.inj hshared
    rw [hqueue, hbell] at hlast
    exact ⟨next, hlooked.trans (hnoticed.trans hnext), hlast⟩
  · exact ⟨looked, hlooked, rfl, hstands⟩

/-- **Who was woken** asks again. -/
theorem leads_resume (room : Anteroom κ) (hparked : room.standing waiter = .parked) :
    ∃ next, Leads room next ∧ next.shared = (room.shared.resume waiter).2 ∧
      next.standing waiter = .afterAsking (room.shared.resume waiter).1 := by
  unfold SharedQueue.resume
  split
  · next hwoken =>
    obtain ⟨next, hleads, hnext⟩ := leads_ask
      ({ room with bell := room.bell.notice waiter }.place waiter .returning)
      (by rw [standing_place_self]; rfl)
    exact ⟨next, .cons (.notice waiter) (if_pos ⟨hparked, hwoken⟩) hleads, hnext⟩
  · exact ⟨room, .refl room, rfl, hparked⟩

end Anteroom

end AccessBroker
