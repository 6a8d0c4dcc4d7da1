import AccessBroker.Controller.Worker
import AccessBroker.Proofs.Cluster.Basic
import AccessBroker.Proofs.Desk.Grant
import AccessBroker.Proofs.Desk.Request
import AccessBroker.Proofs.Store.Versions

/-!
# Passes come to rest

In calm surroundings, passes on one target follow one another (`AccessBroker.Calm.desks`), from
whatever the clients of the store have left. After the first pass the target is at rest
(`AccessBroker.Target.AtRest`), unless it is a request that this pass has expired, which the second
pass takes its last steps; from then on it stays at rest. So the third pass and every later one
leave everything as it is, and all of them end as the first one did (`AccessBroker.Calm.converges`):
what a pass writes wakes the broker again, but not for ever.

Nothing is assumed of the clock. Where the end of access cannot be represented, a pass fails, and
fails in the same way every time.
-/

namespace AccessBroker

open AccessBroker.Time

namespace Target

variable {calm : Calm} {desk after : Desk} {target : Target} {result : Except Failure Outcome}

/-- A pass on the target leaves everything as it is, and ends with a given result. -/
def AtRest (calm : Calm) (desk : Desk) : Target → Except Failure Outcome → Prop
  | .request key => Request.AtRest calm key desk
  | .grant key => Grant.AtRest calm key desk

/-- The target is a request that has been expired, and waits for the last steps. -/
def IsDoomed (desk : Desk) : Target → Prop
  | .request key => ∃ request, Request.Doomed desk key request
  | .grant _ => False

/-- Is what lies under the target being deleted? -/
def isLeaving (store : MemoryStore) : Target → Bool
  | .request key => (store.find? .request key).any fun request => request.metadata.isDeleting
  | .grant key => (store.find? .grant key).any fun grant => grant.metadata.isDeleting

theorem AtRest.still (h : target.AtRest calm desk result) (hstill : desk.Still after) :
    target.AtRest calm after result := by
  cases target with
  | request key => exact Request.AtRest.still h hstill
  | grant key => exact Grant.AtRest.still h hstill

theorem isLeaving_of_isDoomed (h : target.IsDoomed desk) : target.isLeaving desk.store = true := by
  cases target with
  | request key =>
    obtain ⟨request, hdoomed⟩ := h
    rw [isLeaving, hdoomed.found]
    exact hdoomed.deleting
  | grant key => exact h.elim

end Target

namespace Calm

variable {calm : Calm} {target : Target} {start : Desk}

/-- One pass on a target: what it ends with, and the desk that it leaves. -/
def pass (calm : Calm) (target : Target) (desk : Desk) : Except Failure Outcome × Desk :=
  target.reconcile.run.run calm.answer desk

/-- The desk that a number of passes on a target leave. -/
def desks (calm : Calm) (target : Target) (start : Desk) : Nat → Desk
  | 0 => start
  | count + 1 => (calm.pass target (calm.desks target start count)).2

/-- What the pass ends with that follows a number of passes. -/
def outcome (calm : Calm) (target : Target) (start : Desk) (count : Nat) :
    Except Failure Outcome :=
  (calm.pass target (calm.desks target start count)).1

/-! ### One pass -/

/-- **Every pass brings its target to rest**, or expires it. -/
theorem atRest_pass {desk : Desk} (hkeyed : desk.store.Keyed) :
    target.AtRest calm (calm.pass target desk).2 (calm.pass target desk).1 ∨
      (calm.pass target desk).1 = .ok .done ∧ target.IsDoomed (calm.pass target desk).2 := by
  cases target with
  | request key => exact Request.ends_reconcile hkeyed
  | grant key => exact .inl (Grant.ends_reconcile hkeyed)

/-- A pass on a request that waits for the last steps brings it to rest. -/
theorem atRest_pass_of_isDoomed {desk : Desk} (h : target.IsDoomed desk) :
    target.AtRest calm (calm.pass target desk).2 (.ok .done) ∧
      (calm.pass target desk).1 = .ok .done := by
  cases target with
  | request key =>
    obtain ⟨request, hdoomed⟩ := h
    obtain ⟨hdone, hrest⟩ : (calm.pass (.request key) desk).1 = .ok .done ∧
        Request.AtRest calm key (calm.pass (.request key) desk).2
          (calm.pass (.request key) desk).1 := hdoomed.ends_reconcile
    exact ⟨hdone ▸ hrest, hdone⟩
  | grant key => exact h.elim

/-- **A pass on a target at rest** leaves everything as it is. -/
theorem pass_of_atRest {desk : Desk} {result : Except Failure Outcome}
    (h : target.AtRest calm desk result) :
    (calm.pass target desk).1 = result ∧ desk.Still (calm.pass target desk).2 ∧
      ∀ outcome, result = .ok outcome → (calm.pass target desk).2 = desk := by
  cases target with
  | request key => exact Request.AtRest.ends_reconcile h
  | grant key => exact Grant.AtRest.ends_reconcile h

/-! ### Any number of passes -/

/-- **After a pass the target is at rest**, except that the first pass may have expired it. -/
theorem atRest_desks (hkeyed : start.store.Keyed) (count : Nat) :
    target.AtRest calm (calm.desks target start (count + 1)) (calm.outcome target start 0) ∨
      count = 0 ∧ calm.outcome target start 0 = .ok .done ∧
        target.IsDoomed (calm.desks target start 1) := by
  induction count with
  | zero => exact (atRest_pass hkeyed).imp_right fun hexpired => ⟨rfl, hexpired⟩
  | succ count ih =>
    left
    rcases ih with hrest | ⟨rfl, hdone, hdoomed⟩
    · exact hrest.still (pass_of_atRest hrest).2.1
    · rw [hdone]
      exact (atRest_pass_of_isDoomed hdoomed).1

/-- **Passes on one target come to rest.** All of them end as the first one does. The third one and
every later one leave everything as it is, apart from the count of versions, and so does already the
second one unless the first one has left the target being deleted; of these, the ones that succeed
leave even that count as it is. -/
theorem converges {log : List MemoryStore.Entry} (hlog : MemoryStore.Log log)
    (hstart : start.store = MemoryStore.afterLog log) (calm : Calm) (target : Target) :
    (∀ count, calm.outcome target start count = calm.outcome target start 0) ∧
      (∀ count, 2 ≤ count →
        (calm.desks target start count).Still (calm.desks target start (count + 1))) ∧
      ∀ count, 1 ≤ count → target.isLeaving (calm.desks target start count).store = false →
        (calm.desks target start count).Still (calm.desks target start (count + 1)) ∧
          ∀ outcome, calm.outcome target start count = .ok outcome →
            calm.desks target start (count + 1) = calm.desks target start count := by
  have hkeyed : start.store.Keyed := hstart ▸ hlog.versioned.keyed
  have hrest (count : Nat) :
      target.AtRest calm (calm.desks target start (count + 1)) (calm.outcome target start 0) ∨
        count = 0 ∧ calm.outcome target start 0 = .ok .done ∧
          target.IsDoomed (calm.desks target start 1) := atRest_desks hkeyed count
  refine ⟨fun count => ?_, fun count hcount => ?_, fun count hcount hstays => ?_⟩
  · cases count with
    | zero => rfl
    | succ count =>
      rcases hrest count with hrest | ⟨rfl, hdone, hdoomed⟩
      · exact (pass_of_atRest hrest).1
      · exact (atRest_pass_of_isDoomed hdoomed).2.trans hdone.symm
  · obtain ⟨count, rfl⟩ := Nat.exists_eq_add_of_le' hcount
    rcases hrest (count + 1) with hrest | ⟨hfirst, -⟩
    · exact (pass_of_atRest hrest).2.1
    · cases hfirst
  · obtain ⟨count, rfl⟩ := Nat.exists_eq_add_of_le' hcount
    rcases hrest count with hrest | ⟨rfl, -, hdoomed⟩
    · obtain ⟨hresult, hstill, hsame⟩ := pass_of_atRest hrest
      exact ⟨hstill, fun outcome houtcome => hsame outcome (hresult.symm.trans houtcome)⟩
    · exact absurd (hstays.symm.trans (Target.isLeaving_of_isDoomed hdoomed)) nofun

/-! ### A request that is approved -/

namespace Scenario

open Cluster.Scenario

/-- There is a policy, alice files a request, and bob approves it. -/
def log : List MemoryStore.Entry :=
  let first := MemoryStore.Entry.made .epoch "policy" {} (.savePolicy policy)
  let second := MemoryStore.Entry.made .epoch "alice" first.after
    (.create .request (request "alice"))
  [.made .epoch "bob" second.after (.create .response (vote "b" "bob" .approved)), second, first]

/-- What the clients have left. -/
def desk : Desk where
  store := MemoryStore.afterLog log

/-- Nothing changes by itself any more. -/
def surroundings : Calm where
  now := .epoch
  snapshot := ({} : PolicySnapshot).replace [policy]
  ids count := "id-" ++ toString count
  named count := by simp

/-- The request of alice. -/
def asked : Target :=
  .request place

/-- When access has ended. -/
def recheck : Instant :=
  Instant.epoch.after (10 * nanosPerMinute + approvedRecheckBuffer)

end Scenario

/-- The first pass on the request of alice writes, and the second one leaves everything as it is.
All passes ask for another one once access has ended. -/
theorem converges_alice :
    (Scenario.surroundings.desks Scenario.asked Scenario.desk 0).store.lastSequence <
      (Scenario.surroundings.desks Scenario.asked Scenario.desk 1).store.lastSequence ∧
    Scenario.surroundings.desks Scenario.asked Scenario.desk 2 =
      Scenario.surroundings.desks Scenario.asked Scenario.desk 1 ∧
    ∀ count, (Scenario.surroundings.outcome Scenario.asked Scenario.desk count).toOption =
      some (.requeueAt Scenario.recheck) := by
  have hlog : MemoryStore.Log Scenario.log := .call (.call (.call .start _ _ _) _ _ _) _ _ _
  have hdesk : Scenario.desk.store = MemoryStore.afterLog Scenario.log := rfl
  obtain ⟨hsame, -, hsettled⟩ := converges hlog hdesk Scenario.surroundings Scenario.asked
  have hfirst : (Scenario.surroundings.outcome Scenario.asked Scenario.desk 0).toOption =
      some (.requeueAt Scenario.recheck) := by decide +kernel
  have hstays : Scenario.asked.isLeaving
      (Scenario.surroundings.desks Scenario.asked Scenario.desk 1).store = false := by
    decide +kernel
  refine ⟨by decide +kernel, ?_, fun count => hsame count ▸ hfirst⟩
  cases houtcome : Scenario.surroundings.outcome Scenario.asked Scenario.desk 1 with
  | ok outcome => exact (hsettled 1 (Nat.le_refl 1) hstays).2 outcome houtcome
  | error failure =>
    rw [← hsame 1, houtcome] at hfirst
    cases hfirst

end Calm

end AccessBroker
