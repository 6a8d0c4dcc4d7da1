import AccessBroker.Proofs.Controller.Workers
import AccessBroker.Proofs.Vigil.Progress

/-!
# Every grant is attended to

Once the watcher has listed the live objects, every stored grant that is due is upcoming or attended
to. It is upcoming while the watcher is about to add it to the queue, or the feed tells of it beyond
what the watcher has read (`AccessBroker.Vigil.Upcoming`). It is attended to while it is dirty, or a
worker has it that has not seen anything but what is stored, or a timer will add it in time
(`AccessBroker.Controller.Attended`).

That this is so is shown for every move in turn. Where the stored grant is written, the feed tells
of it, so only moves that leave it alone need an argument: a target that is added becomes dirty; one
that is handed out is with a worker that has not looked yet; and a pass that has seen the grant as
it is, and has not written it, has failed or asks for another one at the end of access, so that
there is a timer once it is settled (`AccessBroker.Controller.Stands.attended`).
-/

namespace AccessBroker

open AccessBroker.Time

/-- The changes of a grant give rise to it, and nothing else does. -/
theorem Change.reaction_eq_grant {change : Change} {key : Key} :
    change.reaction = .enqueue (.grant key) ↔ change.kind = .grant ∧ change.key = key := by
  obtain ⟨sequence, kind, place, requestRef⟩ := change
  cases kind with
  | grant | request | policy | role | binding => simp [reaction]
  | response =>
    cases requestRef with
    | none => simp [reaction]
    | some request =>
      simp only [reaction]
      split <;> simp

theorem Watch.grant_mem_targetsOf {changes : List Change} {key : Key} :
    .grant key ∈ targetsOf changes ↔
      ∃ change ∈ changes, change.kind = .grant ∧ change.key = key := by
  rw [targetsOf, List.mem_filterMap]
  constructor
  · rintro ⟨change, hchange, htarget⟩
    refine ⟨change, hchange, Change.reaction_eq_grant.1 ?_⟩
    split at htarget
    · next hreaction => rw [hreaction, Option.some.inj htarget]
    · cases htarget
    · cases htarget
  · rintro ⟨change, hchange, hgrant⟩
    refine ⟨change, hchange, ?_⟩
    rw [Change.reaction_eq_grant.2 hgrant]

/-! ### What a worker has seen -/

/-- A pass has seen nothing but the grant that is stored under a key, and has not written it. -/
structure Attentive (key : Key) (grant : Grant) (deeds : Deeds) : Prop where
  sees (found : Option Grant) : Deed.ofCall (.find .grant key) (.ok found) ∈ deeds →
    found = some grant
  unwritten : ¬Grant.Rewritten key deeds

theorem attentive_nil (key : Key) (grant : Grant) : Attentive key grant [] where
  sees _ hdeed := by cases hdeed
  unwritten := fun ⟨_, _, _, hdeed, _⟩ => by cases hdeed

/-- A deed that neither finds something else nor writes the grant. -/
theorem Attentive.cons {key : Key} {grant : Grant} {past : Deeds} {deed : Deed passInterface}
    (h : Attentive key grant past)
    (hsees : ∀ found, Deed.ofCall (.find .grant key) (.ok found) = deed → found = some grant)
    (hunwritten : ∀ call reply, MemoryStore.Rewrites .grant key call →
      Deed.ofCall call reply = deed →
        ∃ failure, reply = .error failure ∧ failure.isNotFound = false) :
    Attentive key grant (deed :: past) where
  sees found hdeed := by
    rcases List.mem_cons.1 hdeed with hlatest | hearlier
    · exact hsees found hlatest
    · exact h.sees found hearlier
  unwritten := by
    rintro ⟨call, hcall, reply, hdeed, hfailure⟩
    rcases List.mem_cons.1 hdeed with hlatest | hearlier
    · obtain ⟨failure, hreply, hfound⟩ := hunwritten call reply hcall hlatest
      rw [hfailure failure hreply] at hfound
      cases hfound
    · exact h.unwritten ⟨call, hcall, reply, hearlier, hfailure⟩

/-- A target that comes back at a time comes back soon enough after a pass on a grant: within a
second of the end of access if the pass succeeded, and within the greatest delay of the pass if it
failed. -/
def Settlement.Allows (backoff : Backoff) (grant : Grant) (settlement : Settlement) (due : Int) :
    Prop :=
  match settlement.result with
  | .ok _ => ∃ finish, grant.body.expiresAt = some finish ∧
    due ≤ finish.sinceEpoch + nanosPerSecond
  | .error _ => due ≤ settlement.time.sinceEpoch + backoff.max

/-- The watcher is still to bring up the grant with a key: it is about to add it, or the feed tells
of it beyond what the watcher has read. -/
inductive Vigil.Upcoming (vigil : Vigil) (post : Post) (reach : Nat) (key : Key) : Prop
  /-- The watcher is about to add it. -/
  | listed (pending : .grant key ∈ post.pending)
  /-- The feed tells of it. -/
  | told {change : Change} (mem : change ∈ vigil.history) (kind : change.kind = .grant)
    (same : change.key = key) (later : reach < change.sequence)

namespace Controller

open Vigil

variable {charter : Charter} {backoff : Backoff} {controller next : Controller} {post onward : Post}
  {reach further : Nat} {key : Key} {grant : Grant}

/-- What the last pass on a target came to. -/
def lastSettlement? (controller : Controller) (target : Target) : Option Settlement :=
  controller.settlements.find? fun settlement => settlement.target = target

/-- A grant is in the queue, with a worker, or waited for by a timer. -/
inductive Attended (backoff : Backoff) (controller : Controller) (key : Key) (grant : Grant) : Prop
  /-- It has been added to the queue. -/
  | queued (dirty : .grant key ∈ controller.queue.dirty)
  /-- A worker has it. -/
  | handled {handling : Handling} (mem : handling ∈ controller.handlings)
    (target : handling.target = .grant key) (unsettled : handling.settled = false)
    (attentive : Attentive key grant handling.journal.deeds)
  /-- A timer will add it in time. -/
  | awaited {settlement : Settlement} {timer : Timer}
    (idle : ∀ handling ∈ controller.handlings, handling.target = .grant key →
      handling.settled = true)
    (last : controller.lastSettlement? (.grant key) = some settlement)
    (mem : timer ∈ controller.timers) (target : timer.target = .grant key)
    (due : settlement.Allows backoff grant timer.due)

/-- Workers, timers and settlements are not concerned. -/
theorem Attended.lift (h : Attended backoff controller key grant)
    (hqueued : .grant key ∈ controller.queue.dirty → .grant key ∈ next.queue.dirty)
    (hhandlings : next.handlings = controller.handlings) (htimers : next.timers = controller.timers)
    (hsettlements : next.settlements = controller.settlements) :
    Attended backoff next key grant := by
  cases h with
  | queued hdirty => exact .queued (hqueued hdirty)
  | handled hhandling htarget hunsettled hattentive =>
    exact .handled (hhandlings ▸ hhandling) htarget hunsettled hattentive
  | awaited hidle hlast htimer htarget hdue =>
    refine .awaited (hhandlings ▸ hidle) ?_ (htimers ▸ htimer) htarget hdue
    rw [lastSettlement?, hsettlements]
    exact hlast

/-! ### Writes to the store -/

/-- A call that does not cut the feed leaves what is stored under a key as it is, or the feed tells
of it. -/
theorem upcoming_of_perform (key : Key) (h : Stands charter controller post)
    (hreach : post.reach = some reach) (now : Instant) (uid : String) {call : StoreCall}
    (huncut : call.isCut = false) :
    (controller.vigil.Upcoming post reach key →
      (controller.vigil.perform now uid call).2.Upcoming post reach key) ∧
    ((controller.vigil.perform now uid call).2.store.find? .grant key =
        controller.vigil.store.find? .grant key ∨
      (controller.vigil.perform now uid call).2.Upcoming post reach key) := by
  obtain ⟨cut, hkept, -, hstance⟩ := h.vigil.watched
  obtain ⟨news, hhistory, htells, -⟩ := hkept.perform now uid huncut
  have hread := hstance.reach_le hreach
  have hlength := hkept.length
  refine ⟨fun hupcoming => ?_, ?_⟩
  · cases hupcoming with
    | listed hpending => exact .listed hpending
    | told hchange hkind hkey hlater =>
      exact .told (hhistory ▸ List.mem_append_left _ hchange) hkind hkey hlater
  · by_cases hsame : (controller.vigil.perform now uid call).2.store.find? .grant key =
        controller.vigil.store.find? .grant key
    · exact .inl hsame
    · obtain ⟨change, hchange, hkind, hkey⟩ := htells.complete .grant key hsame
      have hnew := (htells.numbered.bounds hchange).1
      exact .inr (.told (hhistory ▸ List.mem_append_right _ hchange) hkind hkey (by omega))

/-- The same of a call of a pass, however it is served. -/
theorem upcoming_of_served (key : Key) (h : Stands charter controller post)
    (hreach : post.reach = some reach) {place : Nat} {target : Target} {past : Deeds}
    {effect : Effect} {rest : passInterface.Reply effect → Steps (Except Failure Outcome)}
    {reply : passInterface.Reply effect} {after : Vigil}
    (hcurrent : controller.handlings[place]? = some ⟨⟨target, past, .ask effect rest⟩, false⟩)
    (hserved : Served charter controller effect reply after) :
    (controller.vigil.Upcoming post reach key → after.Upcoming post reach key) ∧
    (after.store.find? .grant key = controller.vigil.store.find? .grant key ∨
      after.Upcoming post reach key) := by
  cases hserved with
  | performed call uid =>
    have hforeseen := h.foreseen (List.mem_of_getElem? hcurrent)
    exact upcoming_of_perform key h hreach controller.now uid hforeseen.uncut
  | refused | aside => exact ⟨id, .inl rfl⟩

/-- A successful write of the grant is told of; whatever else a pass does, it stays attentive. -/
theorem attentive_answered {past : Deeds} (h : Attentive key grant past)
    (hkeyed : controller.vigil.store.Keyed)
    (hgrant : controller.vigil.store.find? .grant key = some grant) {effect : Effect}
    {reply : passInterface.Reply effect} {after : Vigil}
    (hserved : Served charter controller effect reply after) :
    Attentive key grant (⟨effect, reply⟩ :: past) ∨
      ∃ change ∈ after.history, change.kind = .grant ∧ change.key = key ∧
        controller.vigil.store.lastSequence < change.sequence := by
  cases hserved with
  | aside _ haside =>
    refine .inl (h.cons (fun found hdeed => ?_) fun call reply _ hdeed => ?_)
    · cases hdeed
      exact absurd rfl (haside _)
    · cases hdeed
      exact absurd rfl (haside _)
  | refused call hrefuses =>
    refine .inl (h.cons (fun found hdeed => ?_) fun call reply _ hdeed => ?_)
    · cases hdeed
    · cases hdeed
      exact ⟨_, rfl, charter.truthful _ hrefuses⟩
  | performed call uid =>
    have hsees (found : Option Grant) (hdeed : Deed.ofCall (.find .grant key) (.ok found) =
        ⟨.store call, (controller.vigil.perform controller.now uid call).1⟩) :
        found = some grant := by
      obtain ⟨hcall, hreply⟩ := Deed.mk.inj hdeed
      obtain rfl := Effect.store.inj hcall
      exact (Except.ok.inj (eq_of_heq hreply)).trans hgrant
    cases hreply : (controller.vigil.perform controller.now uid call).1 with
    | error failure =>
      rw [hreply] at hsees
      refine .inl (h.cons hsees fun other reply hother hdeed => ?_)
      cases hdeed
      refine ⟨failure, rfl, Bool.eq_false_iff.2 fun hmissing => ?_⟩
      have hnone := MemoryStore.find?_eq_none_of_rewrites hother hreply hmissing
      rw [hgrant] at hnone
      cases hnone
    | ok value =>
      by_cases hwrites : MemoryStore.Rewrites .grant key call
      · obtain ⟨change, hchange, hkind, hkey, hlater⟩ :=
          MemoryStore.told_of_rewrites hkeyed hwrites hreply
        refine .inr ⟨change, List.mem_append_right _ ?_, hkind, hkey, hlater⟩
        exact List.mem_filter.2 ⟨hchange, decide_eq_true hlater⟩
      · rw [hreply] at hsees
        refine .inl (h.cons hsees fun other reply hother hdeed => ?_)
        cases hdeed
        exact absurd hother hwrites

/-! ### Every move keeps grants attended to -/

/-- **The watcher does something**: what it was about to add is dirty, and what it has read it is
about to add. -/
theorem attended_of_watched (hstands : Stands charter controller post) {effect : WatchEffect}
    {reply : watchInterface.Reply effect} {after : Vigil}
    (hstep : Post.Step charter.regime.pace post effect reply onward)
    (hserved : Vigil.Served charter.regime controller.vigil effect reply after)
    (hgrant : controller.vigil.store.find? .grant key = some grant)
    (hbefore : ∀ reach, post.reach = some reach →
      controller.vigil.Upcoming post reach key ∨ Attended backoff controller key grant)
    (hreach : onward.reach = some further) :
    (after.advance controller.vigil ⟨effect, reply⟩
        (onward.program charter.regime.pace)).Upcoming onward further key ∨
      Attended backoff
        { controller with
          vigil := after.advance controller.vigil ⟨effect, reply⟩
            (onward.program charter.regime.pace)
          queue := controller.queue.heard effect } key grant := by
  obtain ⟨cut, hwatched⟩ := hstands.vigil.watched
  have hhistory := (hwatched.advanced hstep hserved).1
  have hheard (hattended : Attended backoff controller key grant) :
      Attended backoff
        { controller with
          vigil := after.advance controller.vigil ⟨effect, reply⟩
            (onward.program charter.regime.pace)
          queue := controller.queue.heard effect } key grant := by
    refine hattended.lift (fun hdirty => ?_) rfl rfl rfl
    cases effect with
    | enqueue target => exact WorkQueue.mem_dirty_add target hdirty
    | store | replacePolicies => exact hdirty
  rcases hstep.headway hreach with ⟨target, rfl, hread, hpending⟩ |
    ⟨cursor, page, hdeed, hread, rfl, hpending, hrouted⟩ | ⟨requests, listing, hdeed, -, hlisted⟩ |
    ⟨hread, hpending⟩
  · rcases hbefore _ hread with (hlisted | ⟨hchange, hkind, hkey, hlater⟩) | hattended
    · rw [hpending] at hlisted
      rcases List.mem_cons.1 hlisted with rfl | hlisted
      · exact .inr (.queued (WorkQueue.mem_dirty_add_self hstands.staffed.opened _))
      · exact .inl (.listed hlisted)
    · exact .inl (.told (hhistory ▸ hchange) hkind hkey hlater)
    · exact .inr (hheard hattended)
  · rcases hbefore _ hread with (hlisted | @⟨change, hchange, hkind, hkey, hlater⟩) | hattended
    · rw [hpending] at hlisted
      cases hlisted
    · have hpage := (hwatched.isNext hstep hserved hdeed).changes
      by_cases hwithin : change.sequence ≤ page.nextCursor
      · have hmem : change ∈ page.changes := by
          rw [hpage]
          exact Change.mem_between.2 ⟨hchange, hlater, hwithin⟩
        have hgiven := Watch.grant_mem_targetsOf.2 ⟨change, hmem, hkind, hkey⟩
        exact .inl (.listed (hrouted ▸ hgiven))
      · exact .inl (.told (hhistory ▸ hchange) hkind hkey (Nat.lt_of_not_le hwithin))
    · exact .inr (hheard hattended)
  · cases hdeed
    obtain ⟨-, hreply⟩ := hserved.of_look hwatched.kept rfl
    obtain rfl : listing = controller.vigil.store.listKeys .grant := Vigil.eq_of_answered hreply
    refine .inl (.listed ?_)
    rw [hlisted]
    exact List.mem_append_right _ (List.mem_map_of_mem (MemoryStore.mem_listKeys _ hgrant))
  · rcases hbefore _ hread with (hlisted | ⟨hchange, hkind, hkey, hlater⟩) | hattended
    · exact .inl (.listed (hpending ▸ hlisted))
    · exact .inl (.told (hhistory ▸ hchange) hkind hkey hlater)
    · exact .inr (hheard hattended)

/-- **A worker is handed a target**: it has not looked yet. -/
theorem Attended.taken (h : Attended backoff controller key grant) {target : Target}
    {more : Bool} {queue : WorkQueue Target}
    (htake : controller.queue.take = (.target target more, queue)) :
    Attended backoff
      { controller with queue, handlings := ⟨.opening target, false⟩ :: controller.handlings }
      key grant := by
  obtain ⟨rest, -, rfl⟩ := WorkQueue.take_eq_target htake
  by_cases htarget : target = .grant key
  · exact .handled List.mem_cons_self htarget rfl (attentive_nil key grant)
  · cases h with
    | queued hdirty =>
      have hkept : Target.grant key ∈ controller.queue.dirty.filter (· ≠ target) :=
        List.mem_filter.2 ⟨hdirty, by simpa using Ne.symm htarget⟩
      exact .queued hkept
    | handled hhandling hsame hunsettled hattentive =>
      exact .handled (List.mem_cons_of_mem _ hhandling) hsame hunsettled hattentive
    | awaited hidle hlast htimer hsame hdue =>
      refine .awaited (List.forall_mem_cons.2 ⟨fun hother => ?_, hidle⟩) hlast htimer hsame hdue
      exact absurd hother htarget

/-- **A pass is answered**: its worker goes on to have the grant, unless the feed tells of it. -/
theorem Attended.answered (h : Attended backoff controller key grant)
    (hstands : Stands charter controller post) (hreach : post.reach = some reach)
    (hgrant : controller.vigil.store.find? .grant key = some grant) {place : Nat} {target : Target}
    {past : Deeds} {effect : Effect}
    {rest : passInterface.Reply effect → Steps (Except Failure Outcome)}
    {reply : passInterface.Reply effect} {after : Vigil}
    (hcurrent : controller.handlings[place]? = some ⟨⟨target, past, .ask effect rest⟩, false⟩)
    (hserved : Served charter controller effect reply after) :
    after.Upcoming post reach key ∨
      Attended backoff
        ({ controller with vigil := after }.advance place target past ⟨effect, reply⟩ (rest reply))
        key grant := by
  cases h with
  | queued hdirty => exact .inr (.queued hdirty)
  | handled hhandling hsame hunsettled hattentive =>
    have hplace := (List.getElem?_eq_some_iff.1 hcurrent).1
    rcases mem_set_of_mem hcurrent hhandling ⟨⟨target, ⟨effect, reply⟩ :: past, rest reply⟩, false⟩
      with rfl | hother
    · obtain ⟨cut, hkept, -, hstance⟩ := hstands.vigil.watched
      have hread := hstance.reach_le hreach
      have hlength := hkept.length
      rcases attentive_answered hattentive hkept.keyed hgrant hserved with hattentive |
        ⟨change, hchange, hkind, hkey, hlater⟩
      · exact .inr (.handled (List.mem_set hplace _) hsame rfl hattentive)
      · exact .inl (.told hchange hkind hkey (by omega))
    · exact .inr (.handled hother hsame hunsettled hattentive)
  | awaited hidle hlast htimer hsame hdue =>
    refine .inr (.awaited (fun handling hhandling htarget => ?_) hlast htimer hsame hdue)
    rcases List.mem_or_eq_of_mem_set hhandling with hbefore | rfl
    · exact hidle handling hbefore htarget
    · have hsettled := hidle _ (List.mem_of_getElem? hcurrent) htarget
      exact hsettled

/-- **What a pass on a grant leaves behind**, if it has been attentive: a target that is dirty, or a
timer in time. -/
theorem attended_of_settled {place : Nat} {past : Deeds} {result : Except Failure Outcome}
    {postponed : Postponed} {queue : WorkQueue Target} (hstaffed : Staffed controller)
    (hafter : Staffed ((controller.record place ⟨.grant key, past, .done result⟩ result
      queue).postpone (.grant key) postponed))
    (hforeseen : Journal.Foreseen ⟨.grant key, past, .done result⟩)
    (hplace : place < controller.handlings.length)
    (hsettle : controller.queue.settle charter.backoff controller.now (.grant key) result =
      (postponed, queue))
    (hattentive : Attentive key grant past) (hkey : grant.key = key) (hdue : grant.IsDue) :
    Attended charter.backoff
      ((controller.record place ⟨.grant key, past, .done result⟩ result queue).postpone (.grant key)
        postponed) key grant := by
  have hpostponed := congrArg Prod.fst hsettle
  -- It comes back at once, or when a timer fires that is in time.
  have hreturns : postponed = .now ∨ ∃ delay : Nat, postponed = .later delay ∧
      (⟨.grant key, controller.now, result⟩ : Settlement).Allows charter.backoff grant
        (controller.now.sinceEpoch + delay) := by
    cases result with
    | error failure =>
      rcases WorkQueue.settle_failed hstaffed.opened failure with hnow | ⟨delay, hlater, hdelay⟩
      · exact .inl (hpostponed.symm.trans hnow)
      · refine .inr ⟨delay, hpostponed.symm.trans hlater, ?_⟩
        exact Int.add_le_add_left (Int.ofNat_le.2 hdelay) _
    | ok outcome =>
      obtain ⟨found, hfound, hjudged⟩ := hforeseen.judged key rfl
      obtain rfl := hattentive.sees found hfound
      rcases hjudged grant rfl hdue with hwritten | ⟨finish, hfinish, rfl⟩
      · exact absurd (hkey ▸ hwritten) hattentive.unwritten
      · rcases WorkQueue.settle_requeued hstaffed.opened with hnow | ⟨delay, hlater, hdelay⟩
        · exact .inl (hpostponed.symm.trans hnow)
        · exact .inr ⟨delay, hpostponed.symm.trans hlater, finish, hfinish, hdelay⟩
  rcases hreturns with rfl | ⟨delay, rfl, hallows⟩
  · have hopened : queue.closed = false :=
      (queue.closed_add (.grant key)).symm.trans hafter.opened
    exact .queued (WorkQueue.mem_dirty_add_self hopened _)
  · have hlast : Handling.mk ⟨.grant key, past, .done result⟩ true ∈
        controller.handlings.set place ⟨⟨.grant key, past, .done result⟩, true⟩ :=
      List.mem_set hplace _
    refine .awaited (fun handling hhandling htarget => ?_) ?_ List.mem_cons_self rfl hallows
    · rw [hafter.unique hhandling hlast htarget]
    · exact List.find?_cons_of_pos (decide_eq_true rfl)

/-- **A worker settles a pass.** -/
theorem Attended.settled (h : Attended charter.backoff controller key grant)
    (hstands : Stands charter controller post) {place : Nat} {target : Target} {past : Deeds}
    {result : Except Failure Outcome} {postponed : Postponed} {queue : WorkQueue Target}
    (hcurrent : controller.handlings[place]? = some ⟨⟨target, past, .done result⟩, false⟩)
    (hsettle : controller.queue.settle charter.backoff controller.now target result =
      (postponed, queue)) (hkey : grant.key = key) (hdue : grant.IsDue) :
    Attended charter.backoff
      ((controller.record place ⟨target, past, .done result⟩ result queue).postpone target
        postponed) key grant := by
  have hafter := (hstands.step (.settled hcurrent hsettle)).staffed
  cases h with
  | queued hdirty =>
    have hkept := controller.queue.dirty_settle charter.backoff controller.now target result
    rw [hsettle] at hkept
    exact .queued (mem_dirty_postpone _ _ _ (hkept ▸ hdirty))
  | handled hhandling hsame hunsettled hattentive =>
    rcases mem_set_of_mem hcurrent hhandling ⟨⟨target, past, .done result⟩, true⟩ with
      rfl | hother
    · obtain rfl : target = .grant key := hsame
      exact attended_of_settled hstands.staffed hafter
        (hstands.foreseen (List.mem_of_getElem? hcurrent)) (List.getElem?_eq_some_iff.1 hcurrent).1
        hsettle hattentive hkey hdue
    · refine .handled ?_ hsame hunsettled hattentive
      rw [handlings_postpone]
      exact hother
  | awaited hidle hlast htimer hsame hallows =>
    -- The target is another one, as no pass on the grant was to be settled.
    have hother : target ≠ .grant key := fun htarget => by
      have hsettled := hidle _ (List.mem_of_getElem? hcurrent) htarget
      cases hsettled
    refine .awaited (fun handling hhandling htarget => ?_) ?_ (mem_timers_postpone _ _ _ htimer)
      hsame hallows
    · rw [handlings_postpone] at hhandling
      rcases List.mem_or_eq_of_mem_set hhandling with hbefore | rfl
      · exact hidle handling hbefore htarget
      · rfl
    · rw [lastSettlement?, settlements_postpone]
      exact (List.find?_cons_of_neg (by simpa using hother)).trans hlast

/-- **A worker gives its target back.** -/
theorem Attended.finished (h : Attended backoff controller key grant) {place : Nat}
    {journal : Journal} (hcurrent : controller.handlings[place]? = some ⟨journal, true⟩) :
    Attended backoff
      { controller with
        queue := (controller.queue.done journal.target).2
        handlings := controller.handlings.eraseIdx place }
      key grant := by
  cases h with
  | queued hdirty =>
    refine .queued ?_
    rw [WorkQueue.dirty_done]
    exact hdirty
  | handled hhandling hsame hunsettled hattentive =>
    rcases mem_eraseIdx_of_mem hcurrent hhandling with rfl | hother
    · cases hunsettled
    · exact .handled hother hsame hunsettled hattentive
  | awaited hidle hlast htimer hsame hdue =>
    exact .awaited (fun handling hhandling => hidle handling (List.mem_of_mem_eraseIdx hhandling))
      hlast htimer hsame hdue

/-- **A timer fires.** -/
theorem Attended.fired (h : Attended backoff controller key grant)
    (hopened : controller.queue.closed = false) {place : Nat} {timer : Timer}
    (hcurrent : controller.timers[place]? = some timer) :
    Attended backoff
      { controller with
        queue := (controller.queue.add timer.target).2
        timers := controller.timers.eraseIdx place }
      key grant := by
  cases h with
  | queued hdirty => exact .queued (WorkQueue.mem_dirty_add _ hdirty)
  | handled hhandling hsame hunsettled hattentive =>
    exact .handled hhandling hsame hunsettled hattentive
  | awaited hidle hlast htimer hsame hdue =>
    rcases mem_eraseIdx_of_mem hcurrent htimer with rfl | hother
    · refine .queued ?_
      rw [hsame]
      exact WorkQueue.mem_dirty_add_self hopened _
    · exact .awaited hidle hlast hother hsame hdue

/-- **Every stored grant that is due is upcoming or attended to**, once the watcher has listed the
live objects. -/
theorem Stands.attended (h : Stands charter controller post) (hreach : post.reach = some reach)
    (hgrant : controller.vigil.store.find? .grant key = some grant) (hdue : grant.IsDue) :
    controller.vigil.Upcoming post reach key ∨ Attended charter.backoff controller key grant := by
  induction h generalizing reach grant with
  | start => cases hreach
  | step before hmoved ih =>
    cases hmoved with
    | called now uid huncut =>
      obtain ⟨hupcoming, hsame | htold⟩ := upcoming_of_perform key before hreach now uid huncut
      · exact (ih hreach (hsame.symm.trans hgrant) hdue).imp hupcoming
          fun hattended => hattended.lift id rfl rfl rfl
      · exact .inl htold
    | woken =>
      rw [Post.reach_woken] at hreach
      rcases ih hreach hgrant hdue with (hlisted | ⟨hchange, hkind, hkey, hlater⟩) | hattended
      · cases hlisted
      · exact .inl (.told hchange hkind hkey hlater)
      · exact .inr (hattended.lift id rfl rfl rfl)
    | watched hstep hserved =>
      obtain ⟨cut, hwatched⟩ := before.vigil.watched
      have hagrees := (hwatched.advanced hstep hserved).2.1
      have hgrant := (hagrees .grant key).symm.trans hgrant
      exact attended_of_watched before hstep hserved hgrant (fun _ hread => ih hread hgrant hdue)
        hreach
    | timed =>
      exact (ih hreach hgrant hdue).imp id fun hattended => hattended.lift id rfl rfl rfl
    | taken htake =>
      exact (ih hreach hgrant hdue).imp id fun hattended => hattended.taken htake
    | answered hcurrent hserved =>
      obtain ⟨hupcoming, hsame | htold⟩ := upcoming_of_served key before hreach hcurrent hserved
      · have hgrant := hsame.symm.trans hgrant
        rcases ih hreach hgrant hdue with hbefore | hattended
        · exact .inl (hupcoming hbefore)
        · exact hattended.answered before hreach hgrant hcurrent hserved
      · exact .inl htold
    | settled hcurrent hsettle =>
      rw [vigil_postpone] at hgrant ⊢
      obtain ⟨cut, hkept, -, -⟩ := before.vigil.watched
      have hkey := hkept.keyed _ _ _ hgrant
      exact (ih hreach hgrant hdue).imp id fun hattended =>
        hattended.settled before hcurrent hsettle hkey hdue
    | finished hcurrent =>
      exact (ih hreach hgrant hdue).imp id fun hattended => hattended.finished hcurrent
    | fired hcurrent =>
      exact (ih hreach hgrant hdue).imp id fun hattended =>
        hattended.fired before.staffed.opened hcurrent

end Controller

end AccessBroker
