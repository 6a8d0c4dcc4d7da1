import AccessBroker.Proofs.Checkpoints
import AccessBroker.Proofs.Cluster.Onward

/-!
# How long access lasts

The end of access is counted from the time at which a pass begins to provision, and is stored after
that. All that is ever stored of one grant is one and the same end
(`AccessBroker.Cluster.Reachable.end_unique`), and it is the time that some pass on the grant has
read off the clock, and the span of the grant after that
(`AccessBroker.Cluster.Reachable.counted`).

So what a pass has created is used for no longer than the span, if the end was fixed already, or if
the pass gets it stored (`AccessBroker.Cluster.Follows.access_bounded`). A pass that fails to do so
leaves behind what it has created, and access is counted from a later pass
(`AccessBroker.Cluster.not_bounded_by_birth`).
-/

namespace AccessBroker

open AccessBroker.Time AccessBroker.Grant

/-- When the object came about that a deed has created. -/
def Deed.bornAt? : Deed passInterface → Option Instant
  | ⟨.store (.create _ _), .ok object⟩ => object.metadata.createdAt
  | _ => none

theorem Deed.of_bornAt? {deed : Deed passInterface} {born : Instant}
    (h : deed.bornAt? = some born) :
    ∃ (kind : Kind) (submitted object : Object kind),
      deed = .ofCall (.create kind submitted) (.ok object) ∧
      object.metadata.createdAt = some born := by
  unfold bornAt? at h
  split at h
  · exact ⟨_, _, _, rfl, h⟩
  · cases h

/-- The grant that a deed has found under a key. -/
def Deed.sight? (key : Key) : Deed passInterface → Option Grant
  | ⟨.store (.find .grant other), .ok (some grant)⟩ => if other = key then some grant else none
  | _ => none

theorem Deed.sight?_eq_some {key : Key} {deed : Deed passInterface} {start : Grant} :
    deed.sight? key = some start ↔ deed = .ofCall (.find .grant key) (.ok (some start)) := by
  constructor
  · intro h
    unfold sight? at h
    split at h
    · split at h
      · next hkey =>
        cases h
        rw [hkey]
      · cases h
    · cases h
  · rintro rfl
    exact if_pos rfl

namespace Journal

/-- A pass on a grant has created a role or a binding for it. -/
structure Furnishes (journal : Journal) (key : Key) (uid : String) (born : Instant) : Prop where
  target : journal.target = .grant key
  found : ∃ start : Grant, Found key journal.deeds start ∧ start.metadata.uid = uid
  created : ∃ deed ∈ journal.deeds, deed.bornAt? = some born

/-- A pass has found the end of access fixed, or has got it stored. -/
def Settles (journal : Journal) (key : Key) : Prop :=
  (∃ start : Grant, Found key journal.deeds start ∧ start.body.expiresAt ≠ none) ∨
    ∃ base status given,
      Deed.ofCall (.patchStatus .grant base status) (.ok given) ∈ journal.deeds

instance (journal : Journal) (key : Key) (uid : String) (born : Instant) :
    Decidable (journal.Furnishes key uid born) :=
  decidable_of_iff
    (journal.target = .grant key ∧
      (∃ deed ∈ journal.deeds, ∃ start ∈ deed.sight? key, start.metadata.uid = uid) ∧
      ∃ deed ∈ journal.deeds, deed.bornAt? = some born)
    (by
      refine ⟨fun ⟨htarget, ⟨deed, hdeed, start, hsight, huid⟩, hcreated⟩ => ?_, fun h => ?_⟩
      · obtain rfl := Deed.sight?_eq_some.1 hsight
        exact ⟨htarget, ⟨start, hdeed, huid⟩, hcreated⟩
      · obtain ⟨start, hfound, huid⟩ := h.found
        exact ⟨h.target, ⟨_, hfound, start, Deed.sight?_eq_some.2 rfl, huid⟩, h.created⟩)

/-- A pass on a grant has counted the end of access from what it has read off the clock, and has got
it stored. -/
structure Counts (journal : Journal) (key : Key) (given : Grant) (reading time : Instant) :
    Prop where
  target : journal.target = .grant key
  clock : (⟨.clock, reading⟩ : Deed passInterface) ∈ journal.deeds
  taken : ∃ base status, Deed.ofCall (.patchStatus .grant base status) (.ok given) ∈ journal.deeds
  ends : given.body.expiresAt = some time
  span : reading.after? (accessSpan given.body) = some time

theorem Counts.mono {journal later : Journal} {key : Key} {given : Grant} {reading time : Instant}
    (h : journal.Counts key given reading time) (htarget : later.target = journal.target)
    (hsuffix : journal.deeds <:+ later.deeds) : later.Counts key given reading time := by
  obtain ⟨base, status, htaken⟩ := h.taken
  exact ⟨htarget.trans h.target, hsuffix.mem h.clock, ⟨base, status, hsuffix.mem htaken⟩, h.ends,
    h.span⟩

end Journal

/-- What a grant is filled in with fixes no end of access. -/
theorem Request.expiresAt_grantStatus (request : Request) (id : String) (approvers : List String) :
    (request.grantStatus id approvers).expiresAt = none := by
  unfold grantStatus GrantStatus.withScope
  cases request.scope <;> rfl

namespace Cluster

variable {rules : Rules} {cluster before later : Cluster} {key : Key} {place : Nat}
  {journal : Journal} {now born : Instant} {uid : String}

/-! ### The end of access -/

/-- A pass on a grant has counted an end of access that is the same as in a status. -/
def Counted (cluster : Cluster) (key : Key) (uid : String) (status : GrantStatus) : Prop :=
  ∀ time, status.expiresAt = some time → status.isPopulated = true ∧
    ∃ (place : Nat) (journal : Journal) (given : Grant) (reading : Instant),
      cluster.journals[place]? = some journal ∧ journal.Counts key given reading time ∧
      given.key = key ∧ given.metadata.uid = uid ∧ given.body.terms = status.terms

/-- **Whatever end of access is shown, a pass on the grant has counted it.** -/
theorem Reachable.counted (h : Reachable rules cluster) {held : Grant}
    (hshown : cluster.Shown held) : cluster.Counted held.key held.metadata.uid held.body := by
  refine h.grant_induction (P := Counted) ?_ ?_ ?_ ?_ hshown
  · intro cluster next key uid status hmoved hcounted time htime
    obtain ⟨hpopulated, place, journal, given, reading, hjournal, hcounts, hsame⟩ :=
      hcounted time htime
    obtain ⟨later, hlater, htarget, hsuffix⟩ := hmoved.remains hjournal
    exact ⟨hpopulated, place, later, given, reading, hlater, hcounts.mono htarget hsuffix, hsame⟩
  · exact fun _ _ _ _ htime => by cases htime
  · intro _ _ _ request id approvers time htime
    rw [request.expiresAt_grantStatus] at htime
    cases htime
  · intro cluster next place key past grant new status h hmoved hacts hkey huid hbody hcounted time
      htime
    obtain ⟨start, reading, reached, provisioned, fixed, htimed, hcheckpoint⟩ := h.checkpoint hacts
    have hterms := hcheckpoint.advances.terms
    obtain rfl := hbody
    obtain rfl : fixed = time := Option.some.inj (hcheckpoint.expiresAt_eq.symm.trans htime)
    refine ⟨(GrantStatus.isPopulated_of_terms hterms).trans htimed.populated, ?_⟩
    rcases hcheckpoint.fixed with hbase | ⟨-, hspan⟩
    · -- The end was fixed before.
      obtain ⟨-, place, journal, given, reading, hjournal, hcounts, hsame, huid', hgiven⟩ :=
        hcounted _ hbase
      obtain ⟨later, hlater, htarget, hsuffix⟩ := hmoved.remains hjournal
      exact ⟨place, later, given, reading, hlater, hcounts.mono htarget hsuffix, hsame,
        huid'.trans huid.symm, hgiven.trans hterms.symm⟩
    · -- The pass has counted it.
      obtain ⟨rest, -, hafter⟩ := hacts
      refine ⟨place, _, new, reading, hafter, ⟨rfl, List.mem_cons_of_mem _ htimed.clock,
        ⟨grant, _, List.mem_cons_self⟩, htime, ?_⟩, hkey, rfl, rfl⟩
      rw [accessSpan_of_terms hterms]
      exact hspan

/-- **Of two states in which a grant that is filled in was shown, one has gone on from the
other.** -/
theorem Reachable.comparable (h : Reachable rules cluster) {a b : Grant} (ha : cluster.Shown a)
    (hb : cluster.Shown b) (hkey : a.key = b.key) (huid : a.metadata.uid = b.metadata.uid)
    (hpopulated : a.body.isPopulated = true) (hpopulated' : b.body.isPopulated = true) :
    GrantStatus.Advances a.body b.body ∨ GrantStatus.Advances b.body a.body := by
  induction h with
  | start => exact absurd ha (not_shown_start a)
  | @step cluster next move hbefore hmove ih =>
    have hmoved := moved_of_move hmove
    have hnext := hbefore.step move hmove
    rcases hmoved.shown hbefore.sound.keyed ha with hearlier | hstores
    · rcases hmoved.shown hbefore.sound.keyed hb with hearlier' | hstores'
      · exact ih hearlier hearlier'
      · exact .inl (hnext.grant_advances_lineage ha hpopulated (hkey ▸ hstores') huid.symm)
    · exact .inr (hnext.grant_advances_lineage hb hpopulated' (hkey ▸ hstores) huid)

/-- **A grant has one end of access**, and one length of it. -/
theorem Reachable.end_unique (h : Reachable rules cluster) {a b : Grant} (ha : cluster.Shown a)
    (hb : cluster.Shown b) (hkey : a.key = b.key) (huid : a.metadata.uid = b.metadata.uid)
    {time time' : Instant} (htime : a.body.expiresAt = some time)
    (htime' : b.body.expiresAt = some time') :
    time = time' ∧ accessSpan a.body = accessSpan b.body := by
  have hpopulated := (h.counted ha _ htime).1
  have hpopulated' := (h.counted hb _ htime').1
  rcases h.comparable ha hb hkey huid hpopulated hpopulated' with hadvances | hadvances
  · exact ⟨Option.some.inj ((hadvances.ends _ htime).symm.trans htime'),
      (accessSpan_of_terms hadvances.terms).symm⟩
  · exact ⟨Option.some.inj (htime.symm.trans (hadvances.ends _ htime')),
      accessSpan_of_terms hadvances.terms⟩

/-! ### What has been created -/

/-- An object comes about when it is created. -/
theorem Acts.createdAt {next : Cluster} {target : Target} {past : Deeds} {kind : Kind}
    {submitted object : Object kind}
    (h : Acts cluster next place target past (.create kind submitted) (.ok object))
    (hmoved : Moved rules cluster next) : object.metadata.createdAt = some cluster.now := by
  cases h.served hmoved with
  | performed hcalls =>
    rw [hcalls.performed.of_create.2.1]
    rfl

/-- An end of access that is shown has been counted from a time that has come. -/
theorem Follows.counted (h : Follows rules { now } cluster) {held : Grant}
    (hshown : cluster.Shown held) {time : Instant} (htime : held.body.expiresAt = some time) :
    ∃ reading ≤ cluster.now, reading.after? (accessSpan held.body) = some time := by
  obtain ⟨-, place, journal, given, reading, hjournal, hcounts, -, -, hterms⟩ :=
    h.reachable.counted hshown time htime
  refine ⟨reading, h.reading_le hjournal hcounts.clock, ?_⟩
  rw [← accessSpan_of_terms hterms]
  exact hcounts.span

/-- **When something is created for a grant**, the pass has looked at the clock, and the end of
access that it has found was counted before. -/
theorem Follows.furnished (h : Follows rules { now } cluster)
    (hjournal : cluster.journals[place]? = some journal)
    (hfurnishes : journal.Furnishes key uid born) :
    ∃ start grant : Grant, ∃ reading ≤ born, Timed key start grant reading journal.deeds ∧
      start.metadata.uid = uid ∧ ∀ time, start.body.expiresAt = some time →
        ∃ counted ≤ born, counted.after? (accessSpan start.body) = some time := by
  obtain ⟨start, hfound, huid⟩ := hfurnishes.found
  obtain ⟨deed, hdeed, hborn⟩ := hfurnishes.created
  obtain ⟨kind, submitted, object, rfl, hborn⟩ := Deed.of_bornAt? hborn
  have htarget := hfurnishes.target
  obtain ⟨past, hsuffix, start', grant, reading, artifact, htimed, -⟩ :=
    (h.reachable.staged hjournal htarget).1.allowed hdeed
  have htimed' := htimed.mono ((List.suffix_cons _ _).trans hsuffix)
  obtain rfl := h.reachable.found_unique hjournal htarget htimed'.secured.found hfound
  obtain ⟨before, after, hbefore, honward, hacts⟩ := h.acted hjournal hsuffix
  obtain rfl := Option.some.inj (hborn.symm.trans (hacts.createdAt honward.moved))
  refine ⟨_, grant, reading, ?_, htimed', huid, fun time htime => ?_⟩
  · obtain ⟨rest, hcurrent, -⟩ := hacts
    exact hbefore.reading_le hcurrent htimed.clock
  · exact hbefore.counted (hacts.shown_of_found htimed.secured.found) htime

/-- **A pass that gets its status stored** has counted the end of access, unless that was fixed. -/
theorem Reachable.counts_of_taken (h : Reachable rules cluster)
    (hjournal : cluster.journals[place]? = some journal) (htarget : journal.target = .grant key)
    {start grant base given : Grant} {reading : Instant} {status : GrantStatus}
    (htimed : Timed key start grant reading journal.deeds) (hunset : start.body.expiresAt = none)
    (htaken : Deed.ofCall (.patchStatus .grant base status) (.ok given) ∈ journal.deeds) :
    ∃ time, journal.Counts key given reading time ∧ given.key = key ∧
      given.metadata.uid = start.metadata.uid := by
  obtain ⟨version, rfl⟩ := h.patched hjournal htaken
  have hheeds := (h.staged hjournal htarget).1
  obtain ⟨past, hsuffix, start', reading', _, _, time, hearlier, hcheckpoint⟩ :=
    hheeds.allowed htaken
  have hearlier := hearlier.mono ((List.suffix_cons _ _).trans hsuffix)
  obtain rfl := h.found_unique hjournal htarget hearlier.secured.found htimed.secured.found
  obtain rfl := clock_unique hheeds (fun _ huntimed => huntimed) hearlier.clock htimed.clock
  have hfaithful := h.faithful_grant hjournal htarget hearlier.secured
  rcases hcheckpoint.fixed with hfixed | ⟨-, hspan⟩
  · rw [hfaithful.body, hunset] at hfixed
    cases hfixed
  · refine ⟨time, ⟨htarget, htimed.clock, ⟨_, _, htaken⟩, hcheckpoint.expiresAt_eq, ?_⟩,
      hfaithful.key, hfaithful.uid⟩
    exact (congrArg _ (accessSpan_of_terms hcheckpoint.advances.terms)).trans hspan

/-- **A pass that has created something and settles the end of access** has shown an end that was
counted from a time before. -/
theorem Follows.settled (h : Follows rules { now } cluster)
    (hjournal : cluster.journals[place]? = some journal)
    (hfurnishes : journal.Furnishes key uid born) (hsettles : journal.Settles key) :
    ∃ (shown : Grant) (time : Instant), cluster.Shown shown ∧ shown.key = key ∧
      shown.metadata.uid = uid ∧ shown.body.expiresAt = some time ∧
      ∃ counted ≤ born, counted.after? (accessSpan shown.body) = some time := by
  obtain ⟨start, grant, reading, hreading, htimed, hstart, hearlier⟩ :=
    h.furnished hjournal hfurnishes
  have hfound := htimed.secured.found
  cases hfixed : start.body.expiresAt with
  | some time =>
    exact ⟨start, time, shown_of_found hjournal hfound, h.reachable.key_of_found hjournal hfound,
      hstart, hfixed, hearlier _ hfixed⟩
  | none =>
    rcases hsettles with ⟨other, hother, hset⟩ | ⟨base, status, given, htaken⟩
    · obtain rfl := h.reachable.found_unique hjournal hfurnishes.target hfound hother
      exact absurd hfixed hset
    · obtain ⟨time, hcounts, hsame, huid⟩ :=
        h.reachable.counts_of_taken hjournal hfurnishes.target htimed hfixed htaken
      exact ⟨given, time, shown_of_gives hjournal htaken .patched, hsame, huid.trans hstart,
        hcounts.ends, reading, hreading, hcounts.span⟩

/-- **Access ends no later than its span after what has been created**, if the clock never goes
back and the pass that has created it had found the end of access fixed, or gets its status stored.
Whatever end of access is ever stored, a pass on the grant has read a time off the clock, has added
the span of the grant, and has got that stored.

A time within a leap second counts as one in the second before, so what was created there is left
out. -/
theorem Follows.access_bounded (hbefore : Follows rules { now } before)
    (hlater : Follows rules before later) {held : Grant} {time : Instant}
    (hheld : before.store.find? .grant key = some held)
    (htime : held.body.expiresAt = some time) :
    (∃ (place : Nat) (journal : Journal) (given : Grant) (reading : Instant),
      before.journals[place]? = some journal ∧ journal.Counts key given reading time ∧
      given.metadata.uid = held.metadata.uid ∧
      reading.after? (accessSpan held.body) = some time) ∧
    ∀ {place : Nat} {journal : Journal} {born latest : Instant},
      later.journals[place]? = some journal →
      journal.Furnishes key held.metadata.uid born → journal.Settles key →
      born.isLeap = false → born.after? (accessSpan held.body) = some latest → time ≤ latest := by
  have hsound := hbefore.reachable.sound
  have hkey : held.key = key := hsound.keyed _ _ _ hheld
  obtain ⟨-, place, journal, given, reading, hjournal, hcounts, hsame, huid, hterms⟩ :=
    hbefore.reachable.counted (.inl (hsound.stores hheld)) time htime
  rw [hkey] at hcounts hsame
  have hspan := accessSpan_of_terms hterms
  refine ⟨⟨place, journal, given, reading, hjournal, hcounts, huid, hspan ▸ hcounts.span⟩, ?_⟩
  intro place' journal' born latest hjournal' hfurnishes hsettles hplain hlatest
  have hfollows : Follows rules { now } later := hbefore.trans hlater
  -- What was counted is shown for good.
  obtain ⟨after, hafter, -, hsuffix⟩ := hlater.remains hjournal
  obtain ⟨base, status, htaken⟩ := hcounts.taken
  have hgiven : later.Shown given := shown_of_gives hafter (hsuffix.mem htaken) .patched
  obtain ⟨shown, time', hshown, hsame', huid', htime', counted, hcounted, hended⟩ :=
    hfollows.settled hjournal' hfurnishes hsettles
  obtain ⟨rfl, hlength⟩ := hfollows.reachable.end_unique hshown hgiven (hsame'.trans hsame.symm)
    (huid'.trans huid.symm) htime' hcounts.ends
  rw [hlength, hspan] at hended
  exact Instant.le_of_after? hcounted hplain hended hlatest

/-- Alice has her role, and the end of her access is stored. -/
theorem access_bounded_alice : ∃ (cluster : Cluster) (held : Grant) (journal : Journal)
    (born latest time : Instant), Follows .unrestricted { now := .epoch } cluster ∧
    cluster.store.find? .grant Scenario.place = some held ∧ held.body.expiresAt = some time ∧
    cluster.journals[1]? = some journal ∧
    journal.Furnishes Scenario.place held.metadata.uid born ∧ journal.Settles Scenario.place ∧
    born.after? (accessSpan held.body) = some latest ∧ time ≤ latest := by
  obtain ⟨cluster, hfollows, held, hheld, time, htime, journal, hjournal, ⟨deed, hdeed, hwritten⟩,
      born, -, ⟨hfurnishes, hplain⟩, latest, hlatest, -⟩ := exists_follows
    (P := fun cluster => ∃ held ∈ cluster.store.find? .grant Scenario.place,
      ∃ time ∈ held.body.expiresAt, ∃ journal ∈ cluster.journals[1]?,
      (∃ deed ∈ journal.deeds, (Scenario.record? deed).isSome = true) ∧
      ∃ born ∈ journal.deeds.findSome? Deed.bornAt?,
      (journal.Furnishes Scenario.place held.metadata.uid born ∧ born.isLeap = false) ∧
      ∃ latest ∈ born.after? (accessSpan held.body), True)
    .unrestricted .epoch Scenario.furnished (by decide +kernel)
  obtain ⟨⟨base, given⟩, hrecord⟩ := Option.isSome_iff_exists.1 hwritten
  obtain ⟨status, rfl⟩ := Scenario.eq_of_record? hrecord
  have hsettles : journal.Settles Scenario.place := .inr ⟨base, status, given, hdeed⟩
  exact ⟨cluster, held, journal, born, latest, time, hfollows, hheld, htime, hjournal, hfurnishes,
    hsettles, hlatest,
    (Follows.access_bounded hfollows .refl hheld htime).2 hjournal hfurnishes hsettles hplain
      hlatest⟩

/-- A pass makes the role and the bindings of alice, but its status is refused; a minute later
another pass gets the status stored. -/
def Scenario.unsettled : List Move :=
  approved ++ .start (.request Scenario.place) :: answers 0 11 ++
    .start (.grant Scenario.place) :: answers 1 6 ++
    [.refuse 1 (.conflict "stale"), .clock (Instant.epoch.after nanosPerMinute)] ++
    .start (.grant Scenario.place) :: answers 2 6

/-- **The first creation alone does not bound access**: if the pass does not get its status stored,
access ends later than its span after that. -/
theorem not_bounded_by_birth : ¬∀ {rules : Rules} {now : Instant} {before later : Cluster}
    {key : Key} {held : Grant} {time : Instant} {place : Nat} {journal : Journal}
    {born latest : Instant}, Follows rules { now } before → Follows rules before later →
    before.store.find? .grant key = some held → held.body.expiresAt = some time →
    later.journals[place]? = some journal → journal.Furnishes key held.metadata.uid born →
    (∀ (place : Nat) (other : Journal) (born' : Instant), later.journals[place]? = some other →
      other.Furnishes key held.metadata.uid born' → born ≤ born') →
    born.isLeap = false → born.after? (accessSpan held.body) = some latest → time ≤ latest := by
  intro hbounded
  obtain ⟨cluster, hfollows, held, hheld, time, htime, journal, hjournal, born, -,
      ⟨hfurnishes, hplain⟩, hfirst, latest, hlatest, hoverdue⟩ := exists_follows
    (P := fun cluster => ∃ held ∈ cluster.store.find? .grant Scenario.place,
      ∃ time ∈ held.body.expiresAt, ∃ journal ∈ cluster.journals[1]?,
      ∃ born ∈ journal.deeds.findSome? Deed.bornAt?,
      (journal.Furnishes Scenario.place held.metadata.uid born ∧ born.isLeap = false) ∧
      (∀ other ∈ cluster.journals, ∀ deed ∈ other.deeds, ∀ born' ∈ deed.bornAt?, born ≤ born') ∧
      ∃ latest ∈ born.after? (accessSpan held.body), ¬time ≤ latest)
    .honest .epoch Scenario.unsettled (by decide +kernel)
  refine hoverdue (hbounded hfollows .refl hheld htime hjournal hfurnishes ?_ hplain hlatest)
  intro place other born' hother hfurnishes'
  obtain ⟨deed, hdeed, hborn⟩ := hfurnishes'.created
  exact hfirst other (List.mem_of_getElem? hother) deed hdeed born' hborn

end Cluster

end AccessBroker
