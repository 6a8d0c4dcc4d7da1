import AccessBroker.Proofs.Cluster.Turns
import AccessBroker.Proofs.Time.Order
import Mathlib.Logic.Relation

/-!
# Clusters whose clock never goes back

One cluster follows another one (`AccessBroker.Cluster.Follows`) if moves lead to it none of which
sets the clock back. Then the times that passes have read off the clock have all come
(`AccessBroker.Cluster.Follows.reading_le`), and so had, whenever something was done, those that had
been read before (`AccessBroker.Cluster.Follows.acted`).
-/

namespace AccessBroker

open AccessBroker.Time

namespace Cluster

variable {rules : Rules} {first cluster next later : Cluster} {now : Instant} {place : Nat}
  {journal : Journal}

/-- A move is made that does not set the clock back. -/
def Onward (rules : Rules) (cluster next : Cluster) : Prop :=
  (∃ move, cluster.move rules move = some next) ∧ cluster.now ≤ next.now

/-- Moves lead from one cluster to another one, none of which sets the clock back. -/
abbrev Follows (rules : Rules) : Cluster → Cluster → Prop :=
  Relation.ReflTransGen (Onward rules)

theorem Onward.moved (h : Onward rules cluster next) : Moved rules cluster next := by
  obtain ⟨⟨move, hmove⟩, -⟩ := h
  exact moved_of_move hmove

/-- What follows a cluster that can come about can come about. -/
theorem Follows.reachable_of (hfirst : Reachable rules first) (h : Follows rules first cluster) :
    Reachable rules cluster := by
  induction h with
  | refl => exact hfirst
  | tail _ honward ih =>
    obtain ⟨⟨move, hmove⟩, -⟩ := honward
    exact ih.step move hmove

/-- The clock may begin anywhere. -/
theorem Follows.reachable (h : Follows rules { now } cluster) : Reachable rules cluster :=
  h.reachable_of (Reachable.start.step (.clock now) rfl)

/-- What a pass has done, it has done for good. -/
theorem Follows.remains (h : Follows rules cluster later)
    (hjournal : cluster.journals[place]? = some journal) :
    ∃ after, later.journals[place]? = some after ∧ after.target = journal.target ∧
      journal.deeds <:+ after.deeds := by
  induction h with
  | refl => exact ⟨journal, hjournal, rfl, List.suffix_refl _⟩
  | tail _ honward ih =>
    obtain ⟨between, hbetween, hsame, hsuffix⟩ := ih
    obtain ⟨after, hafter, hsame', hsuffix'⟩ := honward.moved.remains hbetween
    exact ⟨after, hafter, hsame'.trans hsame, hsuffix.trans hsuffix'⟩

/-- A pass that looks at the clock is given the time. -/
theorem Served.of_clock {reading : Instant} {store : MemoryStore} {issued : List String}
    (h : Served rules cluster .clock reading store issued) : reading = cluster.now := by
  cases h with
  | timed => rfl

/-- **What has been read off the clock has come.** -/
theorem Follows.reading_le (h : Follows rules { now } cluster)
    (hjournal : cluster.journals[place]? = some journal) {reading : Instant}
    (hreading : (⟨.clock, reading⟩ : Deed passInterface) ∈ journal.deeds) :
    reading ≤ cluster.now := by
  induction h generalizing journal with
  | refl => cases hjournal
  | @tail cluster next _ honward ih =>
    cases honward.moved.fate hjournal with
    | kept hcurrent => exact Instant.le_trans (ih hcurrent hreading) honward.2
    | started => cases hreading
    | advanced hcurrent hserved =>
      rcases List.mem_cons.1 hreading with heq | hearlier
      · cases heq
        exact hserved.of_clock ▸ honward.2
      · exact Instant.le_trans (ih hcurrent hearlier) honward.2

/-- **What a pass has done, it has done at some time** on the way. -/
theorem Follows.acted (h : Follows rules { now } cluster)
    (hjournal : cluster.journals[place]? = some journal) {past : Deeds} {call : StoreCall}
    {reply : call.Reply} (hdeed : .ofCall call reply :: past <:+ journal.deeds) :
    ∃ before after, Follows rules { now } before ∧ Onward rules before after ∧
      Acts before after place journal.target past call reply := by
  induction h generalizing journal with
  | refl => cases hjournal
  | @tail cluster next hfollows honward ih =>
    rcases (honward.moved.fate hjournal).acted hjournal hdeed with
      ⟨earlier, hcurrent, htarget, hdeed⟩ | hacts
    · exact htarget ▸ ih hcurrent hdeed
    · exact ⟨cluster, next, hfollows, honward, hacts⟩

/-! ### Runs -/

/-- The cluster after some moves in a row, if none of them sets the clock back. -/
def runOnward (rules : Rules) (cluster : Cluster) : List Move → Option Cluster
  | [] => some cluster
  | first :: rest =>
    (cluster.move rules first).bind fun next =>
      if cluster.now ≤ next.now then next.runOnward rules rest else none

theorem follows_of_runOnward {moves : List Move}
    (hrun : cluster.runOnward rules moves = some later) : Follows rules cluster later := by
  induction moves generalizing cluster with
  | nil => exact Option.some.inj hrun ▸ .refl
  | cons first rest ih =>
    obtain ⟨next, hmove, hrest⟩ := Option.bind_eq_some_iff.1 hrun
    split at hrest
    · next hnow => exact .head ⟨⟨first, hmove⟩, hnow⟩ (ih hrest)
    · cases hrest

/-- **What holds after some moves that do not set the clock back** holds in a cluster that follows
nothing. -/
theorem exists_follows {P : Cluster → Prop} [DecidablePred P] (rules : Rules) (now : Instant)
    (moves : List Move)
    (h : (({ now } : Cluster).runOnward rules moves).any (fun cluster => decide (P cluster)) =
      true) : ∃ cluster, Follows rules { now } cluster ∧ P cluster := by
  obtain ⟨cluster, hrun, hholds⟩ := (Option.any_eq_true _ _).1 h
  exact ⟨cluster, follows_of_runOnward hrun, of_decide_eq_true hholds⟩

end Cluster

end AccessBroker
