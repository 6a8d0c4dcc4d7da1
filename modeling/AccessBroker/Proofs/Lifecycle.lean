import AccessBroker.Proofs.Cluster.Lineage

/-!
# The life of a request

A pass works out the status of a request from one that it read some time ago, and the cluster
takes what it writes only if nobody has written the request in between. So what is true of one
pass is true of the request: the stored statuses of one request object continue each other
(`AccessBroker.RequestStatus.Continues`), and each of them is in order
(`AccessBroker.Cluster.Reachable.request_inOrder`). A state other than the stored one is written
by a pass alone, and that pass has read a time off the clock that lies on the right side of the
deadline (`AccessBroker.Cluster.Steps`).

What one move does is `AccessBroker.Cluster.Reachable.request_continues`, and what becomes of a
request in a whole run is `AccessBroker.Cluster.Reachable.request_lifecycle`.
-/

namespace AccessBroker

open AccessBroker.Time

namespace Cluster

variable {rules : Rules} {cluster next : Cluster} {key : Key} {old new : Request}

/-- **The status of a request is in order**, whenever it is shown. -/
theorem Reachable.request_inOrder (h : Reachable rules cluster) {request : Request}
    (hshown : cluster.Shown request) : request.body.status.InOrder := by
  refine h.request_induction (P := fun _ _ _ body => body.status.InOrder) ?_ ?_ ?_ hshown
  · exact fun _ horder => horder
  · exact fun _ _ _ _ => RequestStatus.inOrder_blank
  · intro cluster place journal key start request status h hjournal htarget hunderway horder
    obtain ⟨now, -, hmade⟩ := hunderway.workedOut
    exact (hmade horder).inOrder (h.drawn_of_worksOn hjournal htarget hunderway.worksOn).1

/-- A pass takes a request to another state: it writes the status of the stored request, and the
one time that it has read off the clock is after the deadline if the request expires thereby, and
not after it otherwise. -/
def Steps (cluster next : Cluster) (key : Key) (old new : Request) : Prop :=
  ∃ (place : Nat) (past : Deeds) (now deadline : Instant),
    Acts cluster next place (.request key) past (.patchStatus .request old new.body.status)
      (.ok new) ∧
    (∀ time, (⟨.clock, time⟩ : Deed passInterface) ∈ past ↔ time = now) ∧
    new.body.status.expiresAt = some deadline ∧
    (new.body.status.state = .expired → deadline < now) ∧
    (new.body.status.state ≠ .expired → now ≤ deadline)

/-- A pass that writes a status goes on from what is stored, and takes it to another state only in
due time. -/
theorem Reachable.continues_of_written (h : Reachable rules cluster) {place : Nat} {past : Deeds}
    {start : Request} {status : RequestStatus}
    (hacts : Acts cluster next place (.request key) past (.patchStatus .request old status)
      (.ok new))
    (hunderway : Request.Underway key start old status past)
    (hbody : new.body = ⟨old.body.spec, status⟩) :
    old.body.status.Continues new.body.status ∧
      (new.body.status.state ≠ old.body.status.state → Steps cluster next key old new) := by
  obtain rfl : new.body.status = status := by rw [hbody]
  obtain ⟨rest, hcurrent, hafter⟩ := id hacts
  have hstored := (h.faithful_request hcurrent rfl hunderway.secured).body
  have horder := h.request_inOrder (Cluster.shown_of_found hcurrent hunderway.secured.found)
  obtain ⟨now, hclock, hmade⟩ := hunderway.workedOut
  have hmade := hmade horder
  rw [← hstored] at hmade
  refine ⟨hmade.continues, fun hmoved => ?_⟩
  obtain ⟨deadline, hdeadline, hended, hintime⟩ := hmade.deadline hmoved
  refine ⟨place, past, now, deadline, hacts, fun time => ?_, hdeadline, hended, hintime⟩
  constructor
  · refine fun htime =>
      clock_unique (h.orderly _ _ hcurrent).heeds (fun _ hallowed => ?_) htime hclock
    cases hallowed with
    | clock huntimed => exact huntimed
  · rintro rfl
    exact hclock

/-- **A move lets the status of a request go on**, as long as it is the same object that is
stored. -/
theorem Reachable.request_continues (h : Reachable rules cluster)
    (hmoved : Moved rules cluster next)
    (hnew : next.store.find? .request key = some new) :
    cluster.store.find? .request key = none ∧ new.metadata.uid ∉ cluster.issued ∨
      ∃ old : Request, cluster.store.find? .request key = some old ∧
        new.metadata.uid = old.metadata.uid ∧
        old.body.status.Continues new.body.status ∧
        (new.body.status.state ≠ old.body.status.state → Steps cluster next key old new) := by
  -- Where nothing but the metadata changes.
  have hkept {old : Request} (hold : cluster.store.find? .request key = some old)
      (huid : new.metadata.uid = old.metadata.uid) (hbody : new.body = old.body) :
      ∃ old : Request, cluster.store.find? .request key = some old ∧
        new.metadata.uid = old.metadata.uid ∧
        old.body.status.Continues new.body.status ∧
        (new.body.status.state ≠ old.body.status.state → Steps cluster next key old new) := by
    refine ⟨old, hold, huid, ?_, fun hmoved => absurd ?_ hmoved⟩
    · rw [hbody]
      exact .refl _
    · rw [hbody]
  cases h.requestTurn hmoved key with
  | kept hsame => exact .inr (hkept (hsame.symm.trans hnew) rfl rfl)
  | filed hvacant hstored hfresh =>
    obtain rfl := Option.some.inj (hstored.symm.trans hnew)
    exact .inl ⟨hvacant, hfresh⟩
  | secured hfound hstored huid hbody =>
    obtain rfl := Option.some.inj (hstored.symm.trans hnew)
    exact .inr (hkept hfound huid hbody)
  | parted hfound hleft =>
    obtain ⟨huid, hbody, -⟩ := hleft new hnew
    exact .inr (hkept hfound huid hbody)
  | written hacts hunderway hfound hstored huid hbody =>
    obtain rfl := Option.some.inj (hstored.symm.trans hnew)
    exact .inr ⟨_, hfound, huid, h.continues_of_written hacts hunderway hbody⟩

/-- **A request goes on from what was stored of it**, over any number of moves. -/
theorem Reachable.request_continues_run (h : Reachable rules cluster) {moves : List Move}
    {later : Cluster} (hrun : cluster.run rules moves = some later) {first last : Request}
    (hfirst : cluster.store.find? .request key = some first)
    (hlast : later.store.find? .request key = some last)
    (huid : last.metadata.uid = first.metadata.uid) :
    first.body.status.Continues last.body.status := by
  refine Reachable.keeps_run
    (P := fun between : Request => first.body.status.Continues between.body.status)
    (fun _ _ _ h hmoved hnew => ?_) h hrun hfirst hlast huid (.refl _)
  refine (h.request_continues hmoved hnew).imp id fun ⟨old, hold, hsame, hnext, _⟩ => ?_
  exact ⟨old, hold, hsame, fun hearlier => hearlier.trans hnext⟩

/-- **The life of a request**: whatever passes, users and failing calls do, the status of a request
object keeps its identifier, its deadline and its grant once they are set, and its state only takes
the few steps that it can take. A grant is recorded for an approved request alone; and whichever
move changes the state is the write of a pass that has read the clock on the right side of the
deadline. -/
theorem Reachable.request_lifecycle (h : Reachable rules cluster) {moves : List Move}
    {later : Cluster} (hrun : cluster.run rules moves = some later) {first last : Request}
    (hfirst : cluster.store.find? .request key = some first)
    (hlast : later.store.find? .request key = some last)
    (huid : last.metadata.uid = first.metadata.uid) :
    first.body.status.Continues last.body.status ∧ last.body.status.InOrder ∧
      ∀ (move : Move) (next : Cluster) (new : Request), later.move rules move = some next →
        next.store.find? .request key = some new → new.metadata.uid = last.metadata.uid →
        new.body.status.state ≠ last.body.status.state → Steps later next key last new := by
  have hlater := reachable_of_run h hrun
  have hstored := hlater.sound.stores hlast
  refine ⟨h.request_continues_run hrun hfirst hlast huid, hlater.request_inOrder (.inl hstored), ?_⟩
  intro move next new hmove hnew hsame hstate
  rcases hlater.request_continues (moved_of_move hmove) hnew with
    ⟨hvacant, -⟩ | ⟨old, hold, -, -, hsteps⟩
  · rw [hvacant] at hlast
    cases hlast
  · obtain rfl := Option.some.inj (hold.symm.trans hlast)
    exact hsteps hstate

/-- A pass has stored the request of alice as pending; bob approves it, and another pass is about to
write that. -/
def Scenario.deciding : List Move :=
  .user (.create .response (vote "b" "bob" .approved)) "bob" :: .start (.request place) ::
    answers 1 6

/-- A request was pending, and is approved now. -/
def Scenario.Approves (old new : Request) : Prop :=
  new.metadata.uid = old.metadata.uid ∧ old.body.status.state = .pending ∧
    new.body.status.state = .approved

instance (old new : Request) : Decidable (Scenario.Approves old new) :=
  inferInstanceAs (Decidable (_ ∧ _ ∧ _))

/-- The request of alice is approved in due time. -/
theorem lifecycle_alice : ∃ (cluster later next : Cluster) (first last new : Request),
    Reachable .unrestricted cluster ∧
    cluster.run .unrestricted Scenario.deciding = some later ∧
    cluster.store.find? .request Scenario.place = some first ∧
    later.store.find? .request Scenario.place = some last ∧
    last.metadata.uid = first.metadata.uid ∧ new.body.status.state = .approved ∧
    first.body.status.Continues last.body.status ∧
    Steps later next Scenario.place last new := by
  obtain ⟨cluster, hreachable, later, hrun, first, hfirst, last, hlast, huid, next, hmove, new,
    hnew, hsame, hpending, happroved⟩ := exists_reachable
    (P := fun cluster => ∃ later ∈ cluster.run .unrestricted Scenario.deciding,
      ∃ first ∈ cluster.store.find? .request Scenario.place,
      ∃ last ∈ later.store.find? .request Scenario.place,
      last.metadata.uid = first.metadata.uid ∧
      ∃ next ∈ later.move .unrestricted (.answer 1 ""),
      ∃ new ∈ next.store.find? .request Scenario.place,
      Scenario.Approves last new)
    .unrestricted (Scenario.filed ++ .start (.request Scenario.place) :: Scenario.answers 0 8)
    (by decide +kernel)
  obtain ⟨hcontinues, -, hsteps⟩ := Reachable.request_lifecycle hreachable hrun hfirst hlast huid
  have hmoved : new.body.status.state ≠ last.body.status.state := by
    rw [hpending, happroved]
    decide
  exact ⟨cluster, later, next, first, last, new, hreachable, hrun, hfirst, hlast, huid, happroved,
    hcontinues, hsteps _ next new hmove hnew hsame hmoved⟩

end Cluster

end AccessBroker
