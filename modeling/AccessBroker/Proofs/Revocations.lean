import AccessBroker.Proofs.Controller.Attended

/-!
# No revocation is forgotten

A grant that is filled in is to be revoked when access ends, and one that is being deleted is to be
cleaned up. Nobody keeps a list of these: the broker relies on the change feed, the work queue and
timers. This is enough. Once the watcher follows the feed, and however the steps of clients,
watcher, workers and timers follow each other, every such grant is told of by a change that the
watcher is still to see, or it is queued or with a worker, or a timer will add it to the queue in
time (`AccessBroker.Controller.Reachable.not_forgotten`).
-/

namespace AccessBroker

open AccessBroker.Time

/-- A change of the grant with a key is in the feed, beyond a position. -/
def Vigil.Announced (vigil : Vigil) (cursor : Nat) (key : Key) : Prop :=
  ∃ change ∈ vigil.store.changes,
    change.kind = .grant ∧ change.key = key ∧ cursor < change.sequence

/-- **What is upcoming is announced**: nothing that the watcher is still to bring up has been cut
off. -/
theorem Vigil.Upcoming.announced {regime : Regime} {vigil : Vigil} {post : Post}
    {cursor reach : Nat} {key : Key} (h : vigil.Upcoming post reach key)
    (hstands : Stands regime vigil post) (hcursor : vigil.cursor = some cursor)
    (hreach : post.reach = some reach) : vigil.Announced cursor key := by
  obtain ⟨cut, hkept, -, hstance⟩ := hstands.watched
  obtain ⟨requests, grants, reach', reviewed, hreach', hstart, hle, -, hpending, hfollowing⟩ :=
    hstance.following hcursor
  obtain rfl : reach = reach' := Option.some.inj (hreach.symm.trans hreach')
  have hreviewed := hfollowing.reviewed_le
  have hcut := hfollowing.cut_le
  have hannounced {change : Change} (hchange : change ∈ vigil.history)
      (hkind : change.kind = .grant) (hkey : change.key = key) (hlater : cursor < change.sequence)
      (huncut : cut < change.sequence) : vigil.Announced cursor key := by
    refine ⟨change, Classical.byContradiction fun hgone => ?_, hkind, hkey, hlater⟩
    have hearly := hkept.cut_of_gone hchange hgone
    omega
  cases h with
  | told hchange hkind hkey hlater =>
    exact hannounced hchange hkind hkey (by omega) (by omega)
  | listed hlisted =>
    -- The position and what has been cut off both lie before the change that it comes from.
    by_cases hbehind : cut ≤ cursor
    · obtain ⟨change, hchange, hkind, hkey⟩ := Watch.grant_mem_targetsOf.1 (hpending.mem hlisted)
      obtain ⟨hhistory, hlater, -⟩ := Change.mem_between.1 hchange
      exact hannounced hhistory hkind hkey hlater (by omega)
    · have huncut := hfollowing.pending_after_cut hkept.numbered (by omega)
      obtain ⟨change, hchange, hkind, hkey⟩ := Watch.grant_mem_targetsOf.1 (huncut.mem hlisted)
      obtain ⟨hhistory, hlater, -⟩ := Change.mem_between.1 hchange
      exact hannounced hhistory hkind hkey (by omega) hlater

namespace Controller

variable {charter : Charter} {controller : Controller} {cursor : Nat} {key : Key} {grant : Grant}

/-- A timer will add the grant with a key, in time after the last pass on it. -/
def Scheduled (backoff : Backoff) (controller : Controller) (key : Key) (grant : Grant) : Prop :=
  ∃ settlement timer, controller.lastSettlement? (.grant key) = some settlement ∧
    timer ∈ controller.timers ∧ timer.target = .grant key ∧
    settlement.Allows backoff grant timer.due

/-- **No revocation is forgotten.** A grant that is due is announced beyond the position that the
watcher follows the feed from, or it is queued or with a worker, or a timer will add it in time. -/
theorem Reachable.not_forgotten (h : Reachable charter controller)
    (hcursor : controller.vigil.cursor = some cursor)
    (hgrant : controller.vigil.store.find? .grant key = some grant) (hdue : grant.IsDue) :
    controller.vigil.Announced cursor key ∨
      (.grant key ∈ controller.queue.queue ∨ .grant key ∈ controller.queue.processing) ∨
      Scheduled charter.backoff controller key grant := by
  obtain ⟨post, hpost⟩ := h.stands
  obtain ⟨cut, -, -, hstance⟩ := hpost.vigil.watched
  obtain ⟨requests, grants, reach, reviewed, hreach, -⟩ := hstance.following hcursor
  rcases hpost.attended hreach hgrant hdue with hupcoming | hattended
  · exact .inl (hupcoming.announced hpost.vigil hcursor hreach)
  · refine .inr ?_
    cases hattended with
    | queued hdirty => exact .inl (hpost.staffed.tidy.held hdirty)
    | handled hhandling htarget =>
      refine .inl (.inr ?_)
      rw [hpost.staffed.handed, ← htarget]
      exact List.mem_map_of_mem hhandling
    | awaited _ hlast htimer htarget hallows =>
      exact .inr ⟨_, _, hlast, htimer, htarget, hallows⟩

namespace Scenario

/-- Every call may fail, as long as nothing is said to be missing. -/
def honest : Charter where
  regime := ⟨⟨1, 1, 1⟩, fun _ => true⟩
  backoff := ⟨1, 1⟩
  refuses failure := !failure.isNotFound
  truthful _ hrefuses := Bool.not_eq_true' _ ▸ hrefuses

/-- A grant with nothing in it, as of a version. -/
def blank (version : Nat) : Grant where
  metadata := { Metadata.ofKey Cluster.Scenario.place with version }
  body := {}

/-- A grant without a role is stored, filled in and secured; the watcher lists it, and a pass on it
is run to its end. -/
def granted : List Move :=
  [.watch (.client (.create .grant (blank 0)) .epoch "grant"),
    .watch (.client (.patchStatus .grant (blank 1)
      { requestId := "r", expiresAt := some .epoch }) .epoch ""),
    .watch (.client (.updateMetadata .grant (blank 2).withFinalizer) .epoch ""),
    .watch .answer, .watch .answer, .watch (.wake 0), .watch .answer, .watch .answer,
    .watch .answer, .take, .answer 0 "", .answer 0 "", .settle 0, .finish 0]

end Scenario

/-- Nothing but a timer is left that will see to the grant. -/
theorem not_forgotten_granted : ∃ (controller : Controller) (grant : Grant),
    Reachable Scenario.honest controller ∧
    controller.vigil.cursor = some 3 ∧
    controller.vigil.store.find? .grant Cluster.Scenario.place = some grant ∧ grant.IsDue ∧
    Scheduled Scenario.honest.backoff controller Cluster.Scenario.place grant := by
  obtain ⟨controller, hreachable, hcursor, hdue, hread, hqueue, hprocessing⟩ := exists_reachable
    (P := fun controller => controller.vigil.cursor = some 3 ∧
      (controller.vigil.store.find? .grant Cluster.Scenario.place).any
        (fun grant => decide (Grant.IsDue grant)) = true ∧
      (∀ change ∈ controller.vigil.store.changes, change.sequence ≤ 3) ∧
      controller.queue.queue = [] ∧ controller.queue.processing = [])
    Scenario.honest Scenario.granted (by decide +kernel)
  obtain ⟨grant, hgrant, hdue⟩ := (Option.any_eq_true _ _).1 hdue
  have hdue : grant.IsDue := of_decide_eq_true hdue
  refine ⟨controller, grant, hreachable, hcursor, hgrant, hdue, ?_⟩
  rcases Reachable.not_forgotten hreachable hcursor hgrant hdue with
    ⟨change, hchange, -, -, hlater⟩ | (hqueued | hprocessed) | hscheduled
  · have hseen := hread change hchange
    omega
  · rw [hqueue] at hqueued
    cases hqueued
  · rw [hprocessing] at hprocessed
    cases hprocessed
  · exact hscheduled

end Controller

end AccessBroker
