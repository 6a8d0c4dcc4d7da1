import AccessBroker.Proofs.Cluster.Basic
import AccessBroker.Proofs.Vigil.Progress

/-!
# The watcher loses nothing

Once the watcher follows the feed, every request and every grant that was stored when its kind was
listed has been added to the queue, and every change after the position of the listing has been read
and has given rise to what it is to give rise to, once, in its order, up to a position that never
goes back; nothing after the position of the listing has left the feed before that
(`AccessBroker.Vigil.Lossless`). This holds whatever clients write in between, however many of the
calls of the watcher fail, and for every size of a page; and if the watcher is left alone for a
while, that position is the end of the feed (`AccessBroker.Vigil.Reachable.lossless`).

The books that show it are kept in `AccessBroker.Proofs.Vigil.Following`.
-/

namespace AccessBroker

open AccessBroker.Time

namespace Vigil

variable {regime : Regime} {vigil later : Vigil} {cut cursor : Nat}

/-- Nothing has been lost: what became of the listed objects and of the changes after the position
of the listing, while the watcher follows the feed from one position and has read up to another. -/
structure Lossless (regime : Regime) (vigil : Vigil) (cursor : Nat) (requests grants : MemoryStore)
    (reach : Nat) : Prop where
  /-- The requests were listed, and right after them the grants. -/
  listing : Listed vigil.log requests grants
  /-- Every request that was stored when the requests were listed has been added. -/
  ofRequest (key : Key) (request : Request) : requests.find? .request key = some request →
    .request key ∈ Sighting.filed vigil.log
  /-- Every grant that was stored when the grants were listed has been added. -/
  ofGrant (key : Key) (grant : Grant) : grants.find? .grant key = some grant →
    .grant key ∈ Sighting.filed vigil.log
  /-- The changes are numbered from one on, and none is missing. -/
  numbered : Change.Numbered 0 vigil.history
  last : vigil.history.length = vigil.store.lastSequence
  start_le : Sighting.start requests grants ≤ cursor
  cursor_le : cursor ≤ reach
  reach_le : reach ≤ vigil.store.lastSequence
  /-- Between two polls, the watcher has read up to where it follows the feed from. -/
  idle (state : WatchState × Bool) : vigil.rest = .done state → cursor = reach
  /-- Every change after the position of the listing has been read once, in order. -/
  readings : Sighting.readings vigil.log =
    Change.between (Sighting.start requests grants) reach vigil.history
  /-- And once, in order, it has given rise to its target, save for those that are just being
  added. -/
  filed : Sighting.filed vigil.log ++ Watch.pending vigil.rest =
    Sighting.targets requests grants ++ Watch.targetsOf (Sighting.readings vigil.log)
  /-- Those come after the position that the watcher follows the feed from. -/
  pending : Watch.pending vigil.rest <:+
    Watch.targetsOf (Change.between cursor reach vigil.history)
  /-- When a policy was written after the position of the listing, and up to the one that the
  watcher follows the feed from, the policies have been asked for since. -/
  policies (change : Change) : change ∈ vigil.history →
    Sighting.start requests grants < change.sequence → change.sequence ≤ cursor →
      change.reaction = .resyncPolicies → Reviewed vigil.log change.sequence
  /-- A change after the position of the listing that has left the feed has been read, its target
  has been added, and so have all before it; and if it concerns the policies, these have been asked
  for since. -/
  uncut (change : Change) : change ∈ vigil.history →
    Sighting.start requests grants < change.sequence → change ∉ vigil.store.changes →
      change ∈ Sighting.readings vigil.log ∧
      Sighting.targets requests grants ++ Watch.targetsOf
        (Change.between (Sighting.start requests grants) change.sequence vigil.history) <+:
          Sighting.filed vigil.log ∧
      (change.reaction = .resyncPolicies → Reviewed vigil.log change.sequence)
  /-- Every page went on from where it was to, and read as much as it could. -/
  pages (sighting : Sighting) (position limit : Nat) (page : ChangePage) :
    sighting ∈ vigil.log →
    sighting.deed = ⟨.store (.changesSince position limit), .ok page⟩ →
      IsNext regime vigil sighting.store position limit page

theorem mem_targets_of_request {requests grants : MemoryStore} {key : Key} {request : Request}
    (h : requests.find? .request key = some request) :
    .request key ∈ Sighting.targets requests grants := by
  exact List.mem_append_left _ (List.mem_map_of_mem (requests.mem_listKeys h))

theorem mem_targets_of_grant {requests grants : MemoryStore} {key : Key} {grant : Grant}
    (h : grants.find? .grant key = some grant) :
    .grant key ∈ Sighting.targets requests grants := by
  exact List.mem_append_right _ (List.mem_map_of_mem (grants.mem_listKeys h))

/-- **While the watcher follows the feed, nothing has been lost.** -/
theorem Reachable.lossless_of_cursor (h : Reachable regime vigil)
    (hcursor : vigil.cursor = some cursor) :
    ∃ requests grants reach, Lossless regime vigil cursor requests grants reach := by
  obtain ⟨post, hpost⟩ := h.stands
  obtain ⟨cut, hkept, -, hstance⟩ := hpost.watched
  obtain ⟨requests, grants, reach, reviewed, -, hstart, hle, hidle, hpending, hfollowing⟩ :=
    hstance.following hcursor
  have hplanned : Watch.pending vigil.rest = post.pending := by
    rw [hpost.rest, post.pending_program]
  have hreviewed := hfollowing.reviewed_le
  have hcut := hfollowing.cut_le
  have hreach : cursor ≤ reach := Nat.le_trans hle hreviewed
  have hlisted : Sighting.targets requests grants <+: Sighting.filed vigil.log :=
    (List.prefix_append _ _).trans
      (hfollowing.filed_upTo hkept.numbered hstart hreach hpending)
  refine ⟨requests, grants, reach, {
    listing := hfollowing.listing
    ofRequest := fun _ _ hfound => hlisted.subset (mem_targets_of_request hfound)
    ofGrant := fun _ _ hfound => hlisted.subset (mem_targets_of_grant hfound)
    numbered := hkept.numbered
    last := hkept.length
    start_le := hstart
    cursor_le := hreach
    reach_le := hkept.length ▸ hfollowing.reach_le
    idle := fun (state, waits) hdone =>
      hidle state waits (Post.idle_of_done (hpost.rest.symm.trans hdone))
    readings := hfollowing.readings
    filed := hplanned ▸ hfollowing.filed
    pending := hplanned ▸ hpending
    policies := fun change hchange hafter hupto =>
      hfollowing.policies change hchange hafter (Nat.le_trans hupto hle)
    uncut := fun change hchange hafter hgone => ?_
    pages := fun _ _ _ _ hsighting hdeed => hpost.pages hsighting hdeed }⟩
  have hearly := hkept.cut_of_gone hchange hgone
  refine ⟨?_, ?_, hfollowing.policies change hchange hafter (by omega)⟩
  · rw [hfollowing.readings]
    exact Change.mem_between.2 ⟨hchange, hafter, by omega⟩
  · refine List.IsPrefix.trans ?_ (hfollowing.secure (by omega))
    rw [← hkept.numbered.between_append (by omega : _ ≤ change.sequence) hearly,
      Watch.targetsOf_append, ← List.append_assoc]
    exact List.prefix_append _ _

/-- What the watcher has done is not undone. -/
theorem log_suffix_of_run {moves : List Move} (hrun : vigil.run regime moves = some later) :
    vigil.log <:+ later.log := by
  induction moves generalizing vigil with
  | nil =>
    obtain rfl := Option.some.inj hrun
    exact List.suffix_refl _
  | cons move rest ih =>
    obtain ⟨next, hmove, hrest⟩ := Option.bind_eq_some_iff.1 hrun
    have hfirst : vigil.log <:+ next.log := by
      cases moved_of_move hmove with
      | called | woken => exact List.suffix_refl _
      | advanced => exact List.suffix_cons _ _
    exact hfirst.trans (ih hrest)

/-- **The watcher loses nothing.** It has listed the live objects, and whatever happens from then
on, nothing is lost that was stored then or was written since, and the position that it follows the
feed from does not go back; and once it is left alone, it will have read everything and have added
the target of everything. -/
theorem Reachable.lossless (h : Reachable regime vigil) (hbatch : 0 < regime.pace.batchSize)
    (hcursor : vigil.cursor = some cursor) :
    ∃ requests grants,
      (∀ moves later, vigil.run regime moves = some later →
        ∃ further reach, later.cursor = some further ∧ cursor ≤ further ∧
          Lossless regime later further requests grants reach) ∧
      ∃ later, LeftAlone regime vigil later ∧ later.history = vigil.history ∧
        later.cursor = some vigil.store.lastSequence ∧
        Sighting.filed later.log = Sighting.targets requests grants ++ Watch.targetsOf
          (Change.between (Sighting.start requests grants) vigil.store.lastSequence
            vigil.history) := by
  obtain ⟨requests, grants, reach, hlossless⟩ := h.lossless_of_cursor hcursor
  have hkeeps {moves : List Move} {later : Vigil} (hrun : vigil.run regime moves = some later) :
      ∃ further reach, later.cursor = some further ∧ cursor ≤ further ∧
        Lossless regime later further requests grants reach := by
    have hlater := reachable_of_run h hrun
    obtain ⟨further, hfurther, hle⟩ := h.cursor_run hrun hcursor
    obtain ⟨requests', grants', reach', hlossless'⟩ := hlater.lossless_of_cursor hfurther
    -- The live objects have been listed only once.
    obtain ⟨post, hpost⟩ := hlater.stands
    obtain ⟨rfl, rfl⟩ := hpost.once.unique _ _ _ _
      (hlossless.listing.trans (log_suffix_of_run hrun).isInfix) hlossless'.listing
    exact ⟨further, reach', hfurther, hle, hlossless'⟩
  refine ⟨requests, grants, fun _ _ => hkeeps, ?_⟩
  obtain ⟨later, due, waits, halone, hdone⟩ := h.catches_up hbatch hcursor
  have hend := ((halone.reachable h).cursor_of_done hdone).1
  obtain ⟨moves, hown, hrun⟩ := halone
  obtain ⟨further, reach, hfurther, -, hlossless'⟩ := hkeeps hrun
  obtain rfl := Option.some.inj (hfurther.symm.trans hend)
  have hhistory := LeftAlone.history ⟨moves, hown, hrun⟩ h
  have hfiled := hlossless'.filed
  rw [hlossless'.readings, ← hlossless'.idle _ hdone, hdone, hhistory] at hfiled
  exact ⟨later, ⟨moves, hown, hrun⟩, hhistory, hend, (List.append_nil _).symm.trans hfiled⟩

/-- Pages hold one change each, and any call may fail. -/
def Scenario.fallible : Regime where
  pace := ⟨1, 1, 1⟩
  refuses _ := true

/-- Alice files a request, the requests are listed, and a policy is saved before the grants are; the
first poll fails. -/
def Scenario.listed : List Move :=
  [.client (.create .request (Cluster.Scenario.request "alice")) .epoch "alice",
    .answer, .answer, .wake 0, .answer,
    .client (.savePolicy Cluster.Scenario.policy) .epoch "policy",
    .answer, .answer, .wake 0, .refuse (.internal "")]

/-- The request has been added from the listing, and the policy is read from the feed. -/
theorem lossless_alice : ∃ vigil later requests grants, Reachable Scenario.fallible vigil ∧
    0 < Scenario.fallible.pace.batchSize ∧ vigil.cursor = some 1 ∧
    (∃ reach, Lossless Scenario.fallible vigil 1 requests grants reach) ∧
    LeftAlone Scenario.fallible vigil later ∧ later.cursor = some 2 := by
  obtain ⟨vigil, hreachable, hcursor, hlast⟩ := exists_reachable
    (P := fun vigil => vigil.cursor = some 1 ∧ vigil.store.lastSequence = 2)
    Scenario.fallible Scenario.listed (by decide +kernel)
  obtain ⟨requests, grants, hkeeps, later, halone, -, hend, -⟩ :=
    Reachable.lossless hreachable (by decide) hcursor
  obtain ⟨further, reach, hfurther, -, hlossless⟩ := hkeeps [] vigil rfl
  obtain rfl := Option.some.inj (hcursor.symm.trans hfurther)
  exact ⟨vigil, later, requests, grants, hreachable, by decide, hcursor, ⟨reach, hlossless⟩, halone,
    hlast ▸ hend⟩

end Vigil

end AccessBroker
