import AccessBroker.Proofs.Vigil.Following

/-!
# How a vigil goes on

Every page that the watcher reads goes on from where it is to, and holds as many of the next changes
as fit (`AccessBroker.Vigil.Stands.pages`). So the position that it follows the feed from never
goes back (`AccessBroker.Vigil.Reachable.cursor_run`), and it only has to be left alone for a while
to come to the end of the feed (`AccessBroker.Vigil.Reachable.catches_up`). Having listed the live
objects, it never lists them again (`AccessBroker.Vigil.Stands.once`).
-/

namespace AccessBroker

open AccessBroker.Time

namespace Post

variable {pace : WatchPace} {post onward : Post} {effect : WatchEffect}
  {reply : watchInterface.Reply effect}

/-- Where the watcher is on the way to, with what it has read of the feed so far: the position that
it will follow the feed from, and whether it will wait. -/
def destination (pace : WatchPace) : Post → Option (Nat × Bool)
  | .idle (.following cursor _) waits => some (cursor, waits)
  | .review (.pause cursor _) | .publish _ (.pause cursor _) => some (cursor, false)
  | .route _ _ page _ _ | .review (.page page _ _) | .publish _ (.page page _ _) | .cut page _ _ =>
    some (page.nextCursor, !decide (pace.batchSize ≤ page.changes.length))
  | _ => none

theorem destination_closing (page : ChangePage) (cursor due : Nat) :
    (closing pace page cursor due).destination pace =
      some (page.nextCursor, !decide (pace.batchSize ≤ page.changes.length)) := by
  unfold closing
  split <;> rfl

theorem destination_routing (page : ChangePage) (cursor due : Nat) (targets : List Target) :
    (routing pace page cursor due targets).destination pace =
      some (page.nextCursor, !decide (pace.batchSize ≤ page.changes.length)) := by
  cases targets with
  | cons target targets => rfl
  | nil =>
    rw [routing]
    split
    · rfl
    · exact destination_closing page cursor due

/-- No answer takes the watcher off its way. -/
theorem Step.destination (h : Step pace post effect reply onward) {goal : Nat × Bool}
    (hgoal : post.destination pace = some goal) : onward.destination pace = some goal := by
  cases h with
  | requests | noRequests | grants | noGrants | filed | page | noPage => cases hgoal
  | routed target targets page cursor due =>
    exact hgoal ▸ destination_routing page cursor due targets
  | policies errand => cases errand <;> exact hgoal
  | noPolicies errand | published _ errand =>
    cases errand with
    | start => cases hgoal
    | page page cursor due => exact hgoal ▸ destination_closing page cursor due
    | pause => exact hgoal
  | cut => exact hgoal

/-- **How a step brings the watcher forward**, once it has listed the live objects: it has added a
target, it has read a page whose targets it is to add, it has just listed the grants, whose targets
it is to add, or neither the position nor the targets are concerned. -/
theorem Step.headway (h : Step pace post effect reply onward) {further : Nat}
    (hfurther : onward.reach = some further) :
    (∃ target, effect = .enqueue target ∧ post.reach = some further ∧
      post.pending = target :: onward.pending) ∨
    (∃ cursor page, (⟨effect, reply⟩ : Deed watchInterface) =
        ⟨.store (.changesSince cursor pace.batchSize), .ok page⟩ ∧
      post.reach = some cursor ∧ page.nextCursor = further ∧ post.pending = [] ∧
      onward.pending = Watch.targetsOf page.changes) ∨
    (∃ requests listing, (⟨effect, reply⟩ : Deed watchInterface) =
        ⟨.store (.listKeys .grant), .ok listing⟩ ∧ post.reach = none ∧
      onward.pending = requests ++ listing.keys.map Target.grant) ∨
    post.reach = some further ∧ post.pending = onward.pending := by
  cases h with
  | requests | noRequests | noGrants => cases hfurther
  | grants now requests listing =>
    exact .inr (.inr (.inl ⟨_, listing, rfl, rfl, pending_filing _ _ _⟩))
  | filed target targets cursor now =>
    rw [reach_filing] at hfurther
    exact .inl ⟨target, rfl, hfurther, congrArg _ (pending_filing _ _ _).symm⟩
  | page cursor due page =>
    rw [reach_routing] at hfurther
    exact .inr (.inl ⟨cursor, page, rfl, rfl, Option.some.inj hfurther, rfl,
      pending_routing _ _ _ _⟩)
  | routed target targets page cursor due =>
    rw [reach_routing] at hfurther
    exact .inl ⟨target, rfl, hfurther, congrArg _ (pending_routing _ _ _ _).symm⟩
  | noPage | cut => exact .inr (.inr (.inr ⟨hfurther, rfl⟩))
  | policies errand => exact .inr (.inr (.inr ⟨by cases errand <;> exact hfurther, rfl⟩))
  | noPolicies errand =>
    rw [reach_onward] at hfurther
    exact .inr (.inr (.inr ⟨hfurther, (pending_onward _ _).symm⟩))
  | published policies errand =>
    rw [reach_onward] at hfurther
    exact .inr (.inr (.inr ⟨by cases errand <;> exact hfurther, (pending_onward _ _).symm⟩))

/-- Having listed the live objects, the watcher never comes back to where it has not. -/
theorem Step.reach_eq_none (h : Step pace post effect reply onward)
    (honward : onward.reach = none) :
    post.reach = none := by
  cases h with
  | requests | noRequests | grants | noGrants => rfl
  | filed =>
    rw [reach_filing] at honward
    cases honward
  | page | routed =>
    rw [reach_routing] at honward
    cases honward
  | noPage | cut => cases honward
  | policies errand => cases errand <;> exact honward
  | noPolicies errand | published _ errand =>
    rw [reach_onward] at honward
    cases errand <;> exact honward

/-- It lists the grants where it has not, and has done so then. -/
theorem Step.of_grants (h : Step pace post effect reply onward) {store : MemoryStore}
    (hdeed : (⟨effect, reply⟩ : Deed watchInterface) = (Sighting.listing store .grant).deed) :
    post.reach = none ∧ onward.reach ≠ none := by
  cases h with
  | grants now requests listing =>
    rw [reach_filing]
    exact ⟨rfl, nofun⟩
  | requests | noRequests | noGrants | filed | page | noPage | routed | policies | noPolicies
  | published | cut => cases hdeed

end Post

namespace Vigil

variable {regime : Regime} {vigil next later : Vigil} {cut cursor : Nat}

/-- The page that was read is the next one. -/
structure IsNext (regime : Regime) (vigil : Vigil) (store : MemoryStore) (position limit : Nat)
    (page : ChangePage) : Prop where
  limit : limit = regime.pace.batchSize
  nextCursor : page.nextCursor = min (position + regime.pace.batchSize) store.lastSequence
  changes : page.changes = Change.between position page.nextCursor vigil.history

theorem IsNext.told {after : Vigil} {store : MemoryStore} {position limit : Nat} {page : ChangePage}
    {news : List Change} (h : IsNext regime vigil store position limit page)
    (hstore : store.lastSequence ≤ vigil.history.length)
    (hhistory : after.history = vigil.history ++ news)
    (hnumbered : Change.Numbered 0 after.history) :
    IsNext regime after store position limit page := by
  have hnext := h.nextCursor
  refine ⟨h.limit, hnext, ?_⟩
  rw [hhistory] at hnumbered ⊢
  rw [hnumbered.between_of_append (by omega)]
  exact h.changes

/-- The page that the watcher is given is the next one. -/
theorem Watched.isNext {post onward : Post} (h : Watched vigil cut post) {effect : WatchEffect}
    {reply : watchInterface.Reply effect} {after : Vigil}
    (hstep : Post.Step regime.pace post effect reply onward)
    (hserved : Served regime vigil effect reply after) {position limit : Nat} {page : ChangePage}
    (hdeed : (⟨effect, reply⟩ : Deed watchInterface) =
      ⟨.store (.changesSince position limit), .ok page⟩) :
    IsNext regime vigil vigil.store position limit page := by
  cases hstep with
  | page cursor due page =>
    cases hdeed
    obtain ⟨-, requests, grants, hfollowing⟩ := h.stance
    obtain ⟨-, hreply⟩ := hserved.of_look h.kept rfl
    obtain rfl : page = vigil.store.changesSince position regime.pace.batchSize :=
      eq_of_answered hreply
    obtain ⟨hnext, hchanges⟩ :=
      h.kept.changesSince hfollowing.cut_le hfollowing.reach_le regime.pace.batchSize
    rw [← hnext] at hchanges
    exact ⟨rfl, hnext, hchanges⟩
  | requests | noRequests | grants | noGrants | filed | noPage | routed | policies | noPolicies
  | published | cut => cases hdeed

/-- **Every page goes on from where it is to**, and reads as much as it can. -/
theorem Stands.pages {post : Post} (h : Stands regime vigil post) {sighting : Sighting}
    (hsighting : sighting ∈ vigil.log) {position limit : Nat} {page : ChangePage}
    (hdeed : sighting.deed = ⟨.store (.changesSince position limit), .ok page⟩) :
    IsNext regime vigil sighting.store position limit page := by
  induction h with
  | start => cases hsighting
  | called now uid hbefore huncut ih =>
    obtain ⟨cut, hkept, hlogged, -⟩ := hbefore.watched
    obtain ⟨news, hhistory, -, hkept'⟩ := hkept.perform now uid huncut
    refine (ih hsighting).told ?_ hhistory hkept'.numbered
    rw [hkept.length]
    exact hlogged.last sighting hsighting
  | woken _ _ ih =>
    exact ⟨(ih hsighting).limit, (ih hsighting).nextCursor, (ih hsighting).changes⟩
  | @advanced vigil after post onward effect reply hbefore hstep hserved ih =>
    obtain ⟨cut, hwatched⟩ := hbefore.watched
    have hsame := (hwatched.advanced hstep hserved).1
    have hnext : IsNext regime vigil sighting.store position limit page := by
      rcases List.mem_cons.1 hsighting with rfl | hearlier
      · exact hwatched.isNext hstep hserved hdeed
      · exact ih hearlier
    refine ⟨hnext.limit, hnext.nextCursor, ?_⟩
    change page.changes = Change.between position page.nextCursor after.history
    rw [hsame]
    exact hnext.changes

/-! ### The position never goes back -/

/-- Where a step leaves the watcher idle, it goes on from where it has read up to. -/
theorem Watched.cursor_le {post onward : Post} (h : Watched vigil cut post) {effect : WatchEffect}
    {reply : watchInterface.Reply effect} {after : Vigil}
    (hstep : Post.Step regime.pace post effect reply onward)
    (hserved : Served regime vigil effect reply after) {further : Nat}
    (hcursor : vigil.cursor = some cursor) (hfurther : onward.cursor? = some further) :
    cursor ≤ further := by
  obtain ⟨_, _, reach, reviewed, hreach, -, hle, -, -, hfollowing⟩ := h.stance.following hcursor
  have hreviewed := hfollowing.reviewed_le
  rcases hstep.headway (Post.reach_of_cursor? hfurther) with ⟨_, -, hread, -⟩ |
    ⟨position, page, hdeed, hread, rfl, -⟩ | ⟨_, _, -, hnone, -⟩ | ⟨hread, -⟩
  · obtain rfl := Option.some.inj (hread.symm.trans hreach)
    exact Nat.le_trans hle hreviewed
  · obtain rfl := Option.some.inj (hread.symm.trans hreach)
    have hnext := (h.isNext hstep hserved hdeed).nextCursor
    have hlast := hfollowing.reach_le
    rw [h.kept.length] at hlast
    omega
  · rw [hnone] at hreach
    cases hreach
  · obtain rfl := Option.some.inj (hread.symm.trans hreach)
    exact Nat.le_trans hle hreviewed

/-- **The position never goes back** by a move. -/
theorem Reachable.cursor_move (h : Reachable regime vigil) (hmoved : Moved regime vigil next)
    (hcursor : vigil.cursor = some cursor) :
    ∃ further, next.cursor = some further ∧ cursor ≤ further := by
  cases hmoved with
  | called | woken => exact ⟨cursor, hcursor, Nat.le_refl _⟩
  | @advanced effect rest reply after hcurrent hserved =>
    obtain ⟨post, hpost⟩ := h.stands
    obtain ⟨cut, hwatched⟩ := hpost.watched
    obtain ⟨onward, hstep, hprogram⟩ := post.step_of_ask (hpost.rest.symm.trans hcurrent) reply
    have hposition : (after.advance vigil ⟨effect, reply⟩ (rest reply)).cursor =
        onward.cursor?.or vigil.cursor := by
      rw [← hprogram]
      exact congrArg (Option.or · vigil.cursor) onward.cursor?_program
    rw [hposition]
    cases hfurther : onward.cursor? with
    | none => exact ⟨cursor, hcursor, Nat.le_refl _⟩
    | some further => exact ⟨further, rfl, hwatched.cursor_le hstep hserved hcursor hfurther⟩

/-- **Nor does it go back in a run.** -/
theorem Reachable.cursor_run (h : Reachable regime vigil) {moves : List Move}
    (hrun : vigil.run regime moves = some later) (hcursor : vigil.cursor = some cursor) :
    ∃ further, later.cursor = some further ∧ cursor ≤ further := by
  induction moves generalizing vigil cursor with
  | nil =>
    obtain rfl := Option.some.inj hrun
    exact ⟨cursor, hcursor, Nat.le_refl _⟩
  | cons move rest ih =>
    obtain ⟨next, hmove, hrest⟩ := Option.bind_eq_some_iff.1 hrun
    obtain ⟨between, hbetween, hle⟩ := h.cursor_move (moved_of_move hmove) hcursor
    obtain ⟨further, hfurther, hle'⟩ := ih (h.step move hmove) hrest hbetween
    exact ⟨further, hfurther, Nat.le_trans hle hle'⟩

/-! ### The watcher comes to the end of the feed -/

/-- Is it the watcher that moves, and is it not refused anything? -/
def Move.isOwn : Move → Bool
  | .wake _ | .answer => true
  | .client _ _ _ | .refuse _ => false

/-- One vigil leads to another while no client makes a call and no call is refused. -/
def LeftAlone (regime : Regime) (vigil later : Vigil) : Prop :=
  ∃ moves, (∀ move ∈ moves, move.isOwn = true) ∧ vigil.run regime moves = some later

theorem run_append (first rest : List Move) :
    vigil.run regime (first ++ rest) =
      (vigil.run regime first).bind fun next => next.run regime rest := by
  induction first generalizing vigil with
  | nil => rfl
  | cons move moves ih =>
    change (vigil.move regime move).bind _ = ((vigil.move regime move).bind _).bind _
    rw [Option.bind_assoc]
    exact congrArg _ (funext fun next => ih)

namespace LeftAlone

theorem refl (vigil : Vigil) : LeftAlone regime vigil vigil :=
  ⟨[], List.forall_mem_nil _, rfl⟩

theorem of_move (move : Move) (hmove : vigil.move regime move = some next)
    (hown : move.isOwn = true) : LeftAlone regime vigil next := by
  refine ⟨[move], fun _ hmem => List.mem_singleton.1 hmem ▸ hown, ?_⟩
  change (vigil.move regime move).bind _ = _
  rw [hmove]
  rfl

theorem trans (h : LeftAlone regime vigil next) (hrest : LeftAlone regime next later) :
    LeftAlone regime vigil later := by
  obtain ⟨first, hfirst, hrun⟩ := h
  obtain ⟨rest, hown, hrun'⟩ := hrest
  refine ⟨first ++ rest, fun move hmove => ?_, ?_⟩
  · rcases List.mem_append.1 hmove with hmove | hmove
    · exact hfirst move hmove
    · exact hown move hmove
  · rw [run_append, hrun]
    exact hrun'

theorem reachable (h : LeftAlone regime vigil later) (hreachable : Reachable regime vigil) :
    Reachable regime later := by
  obtain ⟨moves, -, hrun⟩ := h
  exact reachable_of_run hreachable hrun

/-- Nobody makes a change. -/
theorem history (h : LeftAlone regime vigil later) (hreachable : Reachable regime vigil) :
    later.history = vigil.history := by
  obtain ⟨moves, hown, hrun⟩ := h
  induction moves generalizing vigil with
  | nil => exact congrArg Vigil.history (Option.some.inj hrun).symm
  | cons move rest ih =>
    obtain ⟨next, hmove, hrest⟩ := Option.bind_eq_some_iff.1 hrun
    have hsame : next.history = vigil.history := by
      have hfirst := hown move List.mem_cons_self
      cases move with
      | client | refuse => cases hfirst
      | wake now =>
        simp only [move] at hmove
        split at hmove
        · cases hmove
          rfl
        · cases hmove
      | answer =>
        simp only [move] at hmove
        split at hmove
        · next effect rest hcurrent =>
          cases hmove
          obtain ⟨post, hpost⟩ := hreachable.stands
          obtain ⟨cut, hwatched⟩ := hpost.watched
          obtain ⟨onward, hstep, -⟩ := post.step_of_ask (hpost.rest.symm.trans hcurrent) _
          exact (hwatched.advanced hstep (served_answer effect)).1
        · cases hmove
    rw [← hsame]
    exact ih (hreachable.step move hmove)
      (fun move hmove => hown move (List.mem_cons_of_mem _ hmove)) hrest

end LeftAlone

/-- The next call of the watcher can be answered. -/
theorem LeftAlone.answer {effect : WatchEffect}
    {rest : watchInterface.Reply effect → Program watchInterface (WatchState × Bool)}
    (hcurrent : vigil.rest = .ask effect rest) :
    LeftAlone regime vigil
      ((vigil.answer effect).2.advance vigil ⟨effect, (vigil.answer effect).1⟩
        (rest (vigil.answer effect).1)) := by
  refine .of_move .answer ?_ rfl
  simp only [move, hcurrent]

/-- The watcher can be woken. -/
theorem LeftAlone.wake {state : WatchState} {waits : Bool} (now : Nat)
    (hpost : Stands regime vigil (.idle state waits)) :
    LeftAlone regime vigil
      { vigil with rest := (Post.woken regime.pace now state waits).program regime.pace } := by
  refine .of_move (.wake now) ?_ rfl
  have hidle : vigil.rest = .done (state, waits) := hpost.rest
  simp only [move, hidle, Post.program_woken]

/-- **The watcher gets where it is on the way to**, once it is left alone. -/
theorem Reachable.arrives (h : Reachable regime vigil) {post : Post} {goal : Nat × Bool}
    (hrest : vigil.rest = post.program regime.pace)
    (hgoal : post.destination regime.pace = some goal) :
    ∃ later due, LeftAlone regime vigil later ∧
      later.rest = .done (.following goal.1 due, goal.2) := by
  -- By induction on what is left to do.
  generalize hprogram : vigil.rest = program
  induction program generalizing vigil post with
  | done value =>
    obtain ⟨state, waits⟩ := value
    obtain rfl := Post.idle_of_done (hrest.symm.trans hprogram)
    cases state with
    | listing | stopped => cases hgoal
    | following cursor due =>
      obtain rfl := Option.some.inj hgoal
      exact ⟨vigil, due, .refl vigil, hprogram⟩
  | ask effect rest ih =>
    obtain ⟨onward, hstep, honward⟩ :=
      post.step_of_ask (hrest.symm.trans hprogram) (vigil.answer effect).1
    have hanswer : LeftAlone regime vigil _ := .answer hprogram
    obtain ⟨later, due, hlater, hdone⟩ :=
      ih _ (hanswer.reachable h) honward.symm (hstep.destination hgoal) rfl
    exact ⟨later, due, hanswer.trans hlater, hdone⟩

/-- Nobody makes a change, so the feed ends where it did. -/
theorem LeftAlone.lastSequence (h : LeftAlone regime vigil later)
    (hreachable : Reachable regime vigil) :
    later.store.lastSequence = vigil.store.lastSequence := by
  obtain ⟨post, hpost⟩ := hreachable.stands
  obtain ⟨post', hpost'⟩ := (h.reachable hreachable).stands
  obtain ⟨cut, hwatched⟩ := hpost.watched
  obtain ⟨cut', hwatched'⟩ := hpost'.watched
  rw [← hwatched'.kept.length, h.history hreachable, hwatched.kept.length]

/-- Between two polls, the watcher follows the feed from where it says, and not from beyond its
end. -/
theorem Reachable.cursor_of_done (h : Reachable regime vigil) {due : Nat} {waits : Bool}
    (hidle : vigil.rest = .done (.following cursor due, waits)) :
    vigil.cursor = some cursor ∧ cursor ≤ vigil.store.lastSequence := by
  obtain ⟨post, hpost⟩ := h.stands
  obtain ⟨cut, hkept, -, hstance⟩ := hpost.watched
  obtain rfl := Post.idle_of_done (hpost.rest.symm.trans hidle)
  obtain ⟨hcursor, requests, grants, hfollowing⟩ := hstance
  exact ⟨hcursor, hkept.length ▸ hfollowing.reach_le⟩

/-- Reading a page takes the watcher as far as the page goes. -/
theorem Stands.reads {due : Nat} (h : Stands regime vigil (.read cursor due))
    (hreachable : Reachable regime vigil) :
    ∃ later due waits, LeftAlone regime vigil later ∧ later.rest = .done
      (.following (min (cursor + regime.pace.batchSize) vigil.store.lastSequence) due, waits) := by
  obtain ⟨cut, hwatched⟩ := h.watched
  obtain ⟨next, hnext⟩ : ∃ next, (Post.read cursor due).program regime.pace =
      .ask (.store (.changesSince cursor regime.pace.batchSize)) next := ⟨_, rfl⟩
  have hanswer : LeftAlone regime vigil _ := .answer (h.rest.trans hnext)
  obtain ⟨onward, hstep, honward⟩ := Post.step_of_ask _ hnext
    (.ok (vigil.store.changesSince cursor regime.pace.batchSize))
  have hpage := hwatched.isNext hstep (served_answer _) rfl
  cases hstep with
  | page =>
    obtain ⟨later, due', hlater, hdone⟩ := (hanswer.reachable hreachable).arrives honward.symm
      (Post.destination_routing _ _ _ _)
    rw [hpage.nextCursor] at hdone
    exact ⟨later, due', _, hanswer.trans hlater, hdone⟩

/-- Where the watcher waits, it can be woken for a poll. -/
theorem Reachable.rouses (h : Reachable regime vigil) {due : Nat} {waits : Bool}
    (hpost : Stands regime vigil (.idle (.following cursor due) waits)) :
    ∃ later due, LeftAlone regime vigil later ∧
      Stands regime later (.idle (.following cursor due) false) := by
  cases waits with
  | false => exact ⟨vigil, due, .refl vigil, hpost⟩
  | true =>
    have hwake := LeftAlone.wake 0 hpost
    have hgoal : (Post.woken regime.pace 0 (.following cursor due) true).destination regime.pace =
        some (cursor, false) := by
      rw [Post.woken]
      split <;> rfl
    obtain ⟨later, due', hlater, hdone⟩ := (hwake.reachable h).arrives rfl hgoal
    have hboth := hwake.trans hlater
    obtain ⟨post, hpost'⟩ := (hboth.reachable h).stands
    obtain rfl := Post.idle_of_done (hpost'.rest.symm.trans hdone)
    exact ⟨later, due', hboth, hpost'⟩

/-- Left alone between two polls, the watcher comes to the end of the feed. -/
theorem Reachable.catches_up_of_done (h : Reachable regime vigil)
    (hbatch : 0 < regime.pace.batchSize) {due : Nat} {waits : Bool}
    (hidle : vigil.rest = .done (.following cursor due, waits)) :
    ∃ later due waits, LeftAlone regime vigil later ∧
      later.rest = .done (.following vigil.store.lastSequence due, waits) := by
  -- By induction on how far it is to the end.
  induction hleft : vigil.store.lastSequence - cursor using Nat.strongRecOn
    generalizing vigil cursor due waits with
  | _ left ih =>
    rcases Nat.eq_or_lt_of_le (h.cursor_of_done hidle).2 with rfl | hfurther
    · exact ⟨vigil, due, waits, .refl vigil, hidle⟩
    · obtain ⟨post, hpost⟩ := h.stands
      obtain rfl := Post.idle_of_done (hpost.rest.symm.trans hidle)
      obtain ⟨roused, due, hroused, hready⟩ := h.rouses hpost
      have hreading := hroused.trans (.wake 0 hready)
      obtain ⟨polled, due, waits, hpolled, hdone⟩ :=
        Stands.reads (hready.woken 0) (hreading.reachable h)
      have hboth := hreading.trans hpolled
      rw [hreading.lastSequence h] at hdone
      obtain ⟨last, due, waits, hlater, hend⟩ :=
        ih _ (by rw [hboth.lastSequence h]; omega) (hboth.reachable h) hdone rfl
      rw [hboth.lastSequence h] at hend
      exact ⟨last, due, waits, hboth.trans hlater, hend⟩

/-- **Left alone, the watcher comes to the end of the feed.** -/
theorem Reachable.catches_up (h : Reachable regime vigil) (hbatch : 0 < regime.pace.batchSize)
    (hcursor : vigil.cursor = some cursor) :
    ∃ later due waits, LeftAlone regime vigil later ∧
      later.rest = .done (.following vigil.store.lastSequence due, waits) := by
  -- First the watcher comes to the end of this poll.
  have hrests : ∃ later position due waits, LeftAlone regime vigil later ∧
      later.rest = .done (.following position due, waits) := by
    obtain ⟨post, hpost⟩ := h.stands
    obtain ⟨cut, -, -, hstance⟩ := hpost.watched
    have hgoes (goal : Nat × Bool) (hgoal : post.destination regime.pace = some goal) :
        ∃ later position due waits, LeftAlone regime vigil later ∧
          later.rest = .done (.following position due, waits) := by
      obtain ⟨later, due, hlater, hdone⟩ := h.arrives hpost.rest hgoal
      exact ⟨later, _, due, _, hlater, hdone⟩
    have hearly (h : Early vigil cut) {P : Prop} : P := by
      have hnone := h.cursor
      rw [hcursor] at hnone
      cases hnone
    cases post with
    | idle state waits =>
      cases state with
      | listing | stopped => exact hearly hstance
      | following => exact hgoes _ rfl
    | listRequests => exact hearly hstance
    | listGrants => exact hearly hstance.1
    | file =>
      have hnone := hstance.2.1
      rw [hcursor] at hnone
      cases hnone
    | read position due =>
      obtain ⟨later, due, waits, hlater, hdone⟩ := hpost.reads h
      exact ⟨later, _, due, waits, hlater, hdone⟩
    | review errand | publish _ errand =>
      cases errand with
      | start => exact hearly hstance
      | page | pause => exact hgoes _ rfl
    | route | cut => exact hgoes _ rfl
  obtain ⟨between, position, due, waits, hbetween, hidle⟩ := hrests
  obtain ⟨later, due, waits, hlater, hdone⟩ :=
    (hbetween.reachable h).catches_up_of_done hbatch hidle
  rw [hbetween.lastSequence h] at hdone
  exact ⟨later, due, waits, hbetween.trans hlater, hdone⟩

/-! ### The live objects are listed once -/

/-- The live objects have been listed once at most, and not at all while they may still be. -/
structure Once (log : List Sighting) (post : Post) : Prop where
  early (requests grants : MemoryStore) : post.reach = none → ¬ Listed log requests grants
  unique (requests grants requests' grants' : MemoryStore) : Listed log requests grants →
    Listed log requests' grants' → requests = requests' ∧ grants = grants'

theorem Once.step {log : List Sighting} {post onward : Post} {effect : WatchEffect}
    {reply : watchInterface.Reply effect} (h : Once log post)
    (hstep : Post.Step regime.pace post effect reply onward) (store : MemoryStore) :
    Once (⟨store, effect, reply⟩ :: log) onward := by
  refine ⟨fun requests grants hearly hlisted => ?_,
    fun requests grants requests' grants' hlisted hlisted' => ?_⟩
  · rcases hlisted.of_cons with hbefore | ⟨hnow, -⟩
    · exact h.early requests grants (hstep.reach_eq_none hearly) hbefore
    · exact absurd hearly (hstep.of_grants (congrArg Sighting.deed hnow)).2
  · -- Both have been there before, or neither has.
    rcases hlisted.of_cons with hbefore | ⟨hnow, earlier, hlog⟩
    · rcases hlisted'.of_cons with hbefore' | ⟨hnow', -⟩
      · exact h.unique _ _ _ _ hbefore hbefore'
      · exact absurd hbefore (h.early _ _ (hstep.of_grants (congrArg Sighting.deed hnow')).1)
    · rcases hlisted'.of_cons with hbefore' | ⟨hnow', earlier', hlog'⟩
      · exact absurd hbefore' (h.early _ _ (hstep.of_grants (congrArg Sighting.deed hnow)).1)
      · have hrequests := (List.cons.inj (hlog.symm.trans hlog')).1
        exact ⟨congrArg Sighting.store hrequests, congrArg Sighting.store (hnow.symm.trans hnow')⟩

/-- **The watcher lists the live objects once**, and follows the feed from then on. -/
theorem Stands.once {post : Post} (h : Stands regime vigil post) : Once vigil.log post := by
  induction h with
  | start =>
    have hnone (requests grants : MemoryStore) : ¬ Listed [] requests grants := by
      intro hlisted
      cases List.infix_nil.1 hlisted
    exact ⟨fun _ _ _ => hnone _ _, fun _ _ _ _ hlisted => absurd hlisted (hnone _ _)⟩
  | called _ _ _ _ ih => exact ih
  | @woken _ state waits now _ ih =>
    refine ⟨?_, ih.unique⟩
    rw [Post.reach_woken]
    exact ih.early
  | advanced _ hstep _ ih => exact ih.step hstep _

end Vigil

end AccessBroker
