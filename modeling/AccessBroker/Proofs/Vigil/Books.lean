import AccessBroker.Proofs.Store.History
import AccessBroker.Proofs.Vigil.Basic

/-!
# The books of a watcher

The feed holds what was not cut off of all the changes that were ever made
(`AccessBroker.Vigil.Kept`), and whatever differs from what the watcher once saw is told by a later
change (`AccessBroker.Vigil.Logged`). With this the watcher's deeds can be compared with what there
was to do, and its books are in order if they agree (`AccessBroker.Following`): what it has added to
the queue, together with what it is about to add, is what it has listed and what the changes up to
some position give rise to; it cuts off nothing beyond what it has added, and nothing of policies
that it has not asked for again.

Here it is shown what becomes of the books when changes are made, when a target is added, when a
page is read and when the feed is cut.
-/

namespace AccessBroker

open AccessBroker.Time

namespace Vigil

variable {regime : Regime} {vigil next : Vigil} {cut : Nat}

/-! ### The feed -/

/-- The changes are numbered, and the feed is what is left of them. -/
structure Kept (vigil : Vigil) (cut : Nat) : Prop where
  keyed : vigil.store.Keyed
  numbered : Change.Numbered 0 vigil.history
  length : vigil.history.length = vigil.store.lastSequence
  cut_le : cut ≤ vigil.history.length
  changes : vigil.store.changes = vigil.history.drop cut

theorem Kept.of_same (h : Kept vigil cut) (hstore : next.store = vigil.store)
    (hhistory : next.history = vigil.history) : Kept next cut where
  keyed := hstore ▸ h.keyed
  numbered := hhistory ▸ h.numbered
  length := hhistory ▸ hstore ▸ h.length
  cut_le := hhistory ▸ h.cut_le
  changes := hhistory ▸ hstore ▸ h.changes

/-- The same, said of the store and the history. -/
theorem kept_iff : Kept vigil cut ↔ vigil.store.Kept vigil.history cut :=
  ⟨fun h => ⟨h.keyed, h.numbered, h.length, h.cut_le, h.changes⟩,
    fun h => ⟨h.keyed, h.numbered, h.length, h.cut_le, h.changes⟩⟩

/-- Nothing in the feed is later than the last change. -/
theorem Kept.le_last (h : Kept vigil cut) {change : Change} (hchange : change ∈ vigil.history) :
    change.sequence ≤ vigil.store.lastSequence :=
  (kept_iff.1 h).le_last hchange

/-- **A call that does not cut the feed** adds to the history what it tells. -/
theorem Kept.perform (h : Kept vigil cut) (now : Instant) (uid : String) {call : StoreCall}
    (huncut : call.isCut = false) :
    ∃ news, (vigil.perform now uid call).2.history = vigil.history ++ news ∧
      vigil.store.Tells (vigil.perform now uid call).2.store news ∧
      Kept (vigil.perform now uid call).2 cut := by
  have hcall (through : Nat) : call ≠ .compact through := by
    rintro rfl
    cases huncut
  obtain ⟨htells, hkept⟩ := (kept_iff.1 h).perform now uid hcall
  exact ⟨_, rfl, htells, kept_iff.2 hkept⟩

/-- A call that only looks leaves everything as it is. -/
theorem Kept.perform_of_same (h : Kept vigil cut) {now : Instant} {uid : String} {call : StoreCall}
    (hsame : (vigil.store.perform now uid call).2 = vigil.store) :
    (vigil.perform now uid call).2 = vigil := by
  have hnone := (kept_iff.1 h).no_news cut
  rw [← h.changes] at hnone
  unfold Vigil.perform
  dsimp only
  rw [hsame, hnone, List.append_nil]

/-- **Cutting the feed** leaves what follows the position. -/
theorem Kept.compact (h : Kept vigil cut) {through : Nat} (hcut : cut ≤ through)
    (hthrough : through ≤ vigil.history.length) (now : Instant) (uid : String) :
    (vigil.perform now uid (.compact through)).2.history = vigil.history ∧
      Kept (vigil.perform now uid (.compact through)).2 through := by
  obtain ⟨hnone, hkept⟩ := (kept_iff.1 h).compact through
  rw [Nat.min_eq_left hthrough, Nat.max_eq_right hcut] at hkept
  have hhistory : (vigil.perform now uid (.compact through)).2.history = vigil.history :=
    (congrArg (vigil.history ++ ·) hnone).trans (List.append_nil _)
  exact ⟨hhistory, kept_iff.2 (hhistory ▸ hkept)⟩

/-- What has left the feed had been cut off. -/
theorem Kept.cut_of_gone (h : Kept vigil cut) {change : Change} (hchange : change ∈ vigil.history)
    (hgone : change ∉ vigil.store.changes) : change.sequence ≤ cut := by
  have hparts := List.take_append_drop cut vigil.history
  rw [h.changes] at hgone
  rw [← hparts] at hchange
  rcases List.mem_append.1 hchange with hearly | hlate
  · have hnumbered := h.numbered
    rw [← hparts] at hnumbered
    have hbounds := (Change.numbered_append.1 hnumbered).1.bounds hearly
    rw [List.length_take] at hbounds
    omega
  · exact absurd hlate hgone

/-- **A page** that is read from a position on. -/
theorem Kept.changesSince (h : Kept vigil cut) {cursor : Nat} (hcut : cut ≤ cursor)
    (hcursor : cursor ≤ vigil.history.length) (limit : Nat) :
    (vigil.store.changesSince cursor limit).nextCursor =
        min (cursor + limit) vigil.store.lastSequence ∧
      (vigil.store.changesSince cursor limit).changes =
        Change.between cursor (min (cursor + limit) vigil.store.lastSequence) vigil.history := by
  have hdrop : (vigil.store.changes.dropWhile fun change => change.sequence ≤ cursor) =
      vigil.history.drop cursor := by
    have hnumbered := h.numbered.drop cut h.cut_le
    rw [Nat.zero_add] at hnumbered
    rw [h.changes, hnumbered.dropWhile, List.drop_drop, Nat.add_sub_cancel' hcut]
  unfold MemoryStore.changesSince
  rw [hdrop, ← h.length]
  exact h.numbered.following_eq hcursor _

/-! ### What the watcher has seen -/

/-- What the watcher has seen can be compared with what is stored now. -/
structure Logged (vigil : Vigil) : Prop where
  /-- The feed goes on from one deed to the next. -/
  ordered : vigil.log.Pairwise fun later earlier =>
    earlier.store.lastSequence ≤ later.store.lastSequence
  last (sighting : Sighting) : sighting ∈ vigil.log →
    sighting.store.lastSequence ≤ vigil.store.lastSequence
  /-- Whatever is different now has been told of since. -/
  told (sighting : Sighting) (kind : Kind) (key : Key) : sighting ∈ vigil.log →
    vigil.store.find? kind key ≠ sighting.store.find? kind key →
      ∃ change ∈ vigil.history, sighting.store.lastSequence < change.sequence ∧
        change.kind = kind ∧ change.key = key

theorem Logged.called (h : Logged vigil) (hkept : Kept vigil cut) (now : Instant) (uid : String)
    {call : StoreCall} (huncut : call.isCut = false) : Logged (vigil.perform now uid call).2 := by
  obtain ⟨news, hhistory, htells, -⟩ := hkept.perform now uid huncut
  refine ⟨h.ordered, fun sighting hsighting => ?_, fun sighting kind key hsighting hdiffers => ?_⟩
  · have hlast := h.last sighting hsighting
    rw [htells.last]
    omega
  · rw [hhistory]
    by_cases hsame :
      (vigil.perform now uid call).2.store.find? kind key = vigil.store.find? kind key
    · obtain ⟨change, hchange, htold⟩ := h.told sighting kind key hsighting (hsame ▸ hdiffers)
      exact ⟨change, List.mem_append_left _ hchange, htold⟩
    · obtain ⟨change, hchange, htold⟩ := htells.complete kind key hsame
      have hnew := (htells.numbered.bounds hchange).1
      have hlast := h.last sighting hsighting
      exact ⟨change, List.mem_append_right _ hchange, by omega, htold⟩

/-- The watcher does something, and leaves the objects alone. -/
theorem Logged.advanced (h : Logged vigil) {after : Vigil} {deed : Deed watchInterface}
    {rest : Program watchInterface (WatchState × Bool)}
    (hagrees : after.store.Agrees vigil.store)
    (hlast : after.store.lastSequence = vigil.store.lastSequence)
    (hhistory : after.history = vigil.history) : Logged (after.advance vigil deed rest) := by
  have hlast' : (after.advance vigil deed rest).store.lastSequence = vigil.store.lastSequence :=
    hlast
  have hfind (kind : Kind) (key : Key) :
      (after.advance vigil deed rest).store.find? kind key = vigil.store.find? kind key :=
    hagrees kind key
  refine ⟨List.pairwise_cons.2 ⟨fun sighting hsighting => h.last sighting hsighting, h.ordered⟩,
    fun sighting hsighting => ?_, fun sighting kind key hsighting hdiffers => ?_⟩
  · rw [hlast']
    rcases List.mem_cons.1 hsighting with rfl | hsighting
    · exact Nat.le_refl _
    · exact h.last sighting hsighting
  · rw [hfind] at hdiffers
    rcases List.mem_cons.1 hsighting with rfl | hsighting
    · exact absurd rfl hdiffers
    · change ∃ change ∈ after.history, _
      rw [hhistory]
      exact h.told sighting kind key hsighting hdiffers

end Vigil

/-! ### The books of the watcher -/

/-- The targets of a listing of requests and one of grants, each at its own time. -/
def Sighting.targets (requests grants : MemoryStore) : List Target :=
  (requests.listKeys .request).keys.map Target.request ++
    (grants.listKeys .grant).keys.map Target.grant

/-- The position of a listing: no write that comes after one of its halves lies before it. -/
def Sighting.start (requests grants : MemoryStore) : Nat :=
  min requests.lastSequence grants.lastSequence

/-- The policies have been asked for, at or after a position. -/
def Reviewed (log : List Sighting) (position : Nat) : Prop :=
  ∃ sighting ∈ log, sighting.isReview = true ∧ position ≤ sighting.store.lastSequence

/-- The requests were listed, and right after them the grants. -/
def Listed (log : List Sighting) (requests grants : MemoryStore) : Prop :=
  [Sighting.listing grants .grant, Sighting.listing requests .request] <:+: log

theorem Listed.of_cons {sighting : Sighting} {log : List Sighting} {requests grants : MemoryStore}
    (h : Listed (sighting :: log) requests grants) :
    Listed log requests grants ∨ sighting = .listing grants .grant ∧
      ∃ earlier, log = .listing requests .request :: earlier := by
  rcases List.infix_cons_iff.1 h with ⟨earlier, hfirst⟩ | hlog
  · obtain ⟨rfl, rfl⟩ := List.cons.inj hfirst
    exact .inr ⟨rfl, earlier, rfl⟩
  · exact .inl hlog

/-- How far the watcher has come with the changes: it has listed the live objects, it has read the
changes up to a position, it is still to add some targets, and it has asked for the policies again
after all changes of policies up to another position. -/
structure Following (log : List Sighting) (history : List Change) (requests grants : MemoryStore)
    (reach reviewed cut : Nat) (pending : List Target) : Prop where
  listing : Listed log requests grants
  start_le : Sighting.start requests grants ≤ reviewed
  reviewed_le : reviewed ≤ reach
  reach_le : reach ≤ history.length
  cut_le : cut ≤ reviewed
  readings : Sighting.readings log = Change.between (Sighting.start requests grants) reach history
  filed : Sighting.filed log ++ pending =
    Sighting.targets requests grants ++ Watch.targetsOf (Sighting.readings log)
  /-- What has been cut off had been added. -/
  secure : Sighting.start requests grants < cut → Sighting.targets requests grants ++
    Watch.targetsOf (Change.between (Sighting.start requests grants) cut history) <+:
      Sighting.filed log
  policies (change : Change) : change ∈ history →
    Sighting.start requests grants < change.sequence → change.sequence ≤ reviewed →
      change.reaction = .resyncPolicies → Reviewed log change.sequence

theorem Watch.targetsOf_append (changes more : List Change) :
    targetsOf (changes ++ more) = targetsOf changes ++ targetsOf more :=
  List.filterMap_append

theorem Reviewed.cons {log : List Sighting} {position : Nat} (h : Reviewed log position)
    (sighting : Sighting) : Reviewed (sighting :: log) position := by
  obtain ⟨earlier, hearlier, hreview⟩ := h
  exact ⟨earlier, List.mem_cons_of_mem _ hearlier, hreview⟩

namespace Following

variable {log : List Sighting} {history : List Change} {requests grants : MemoryStore}
  {reach reviewed cut : Nat} {pending : List Target}

/-- Clients make more changes. -/
theorem told (h : Following log history requests grants reach reviewed cut pending)
    {news : List Change} (hnumbered : Change.Numbered 0 (history ++ news)) :
    Following log (history ++ news) requests grants reach reviewed cut pending := by
  have hreach := h.reach_le
  have hcut := h.cut_le
  have hreviewed := h.reviewed_le
  refine ⟨h.listing, h.start_le, h.reviewed_le, ?_, h.cut_le, ?_, h.filed, ?_, ?_⟩
  · rw [List.length_append]
    omega
  · rw [hnumbered.between_of_append hreach]
    exact h.readings
  · rw [hnumbered.between_of_append (by omega : cut ≤ history.length)]
    exact h.secure
  · intro change hchange hfollows hwithin
    rcases List.mem_append.1 hchange with hold | hnew
    · exact h.policies change hold hfollows hwithin
    · have hbounds := (Change.numbered_append.1 hnumbered).2.bounds hnew
      omega

/-- The watcher does something that concerns neither targets nor changes. -/
theorem heard (h : Following log history requests grants reach reviewed cut pending)
    {sighting : Sighting} (htarget : sighting.target? = none) (hchanges : sighting.changes = []) :
    Following (sighting :: log) history requests grants reach reviewed cut pending := by
  have hfiled : Sighting.filed (sighting :: log) = Sighting.filed log := by
    simp [Sighting.filed, htarget]
  have hreadings : Sighting.readings (sighting :: log) = Sighting.readings log := by
    simp [Sighting.readings, hchanges]
  refine ⟨h.listing.trans (List.suffix_cons _ _).isInfix, h.start_le, h.reviewed_le, h.reach_le,
    h.cut_le, ?_, ?_, ?_, ?_⟩
  · rw [hreadings]
    exact h.readings
  · rw [hfiled, hreadings]
    exact h.filed
  · rw [hfiled]
    exact h.secure
  · exact fun change hchange hfollows hwithin hpolicy =>
      (h.policies change hchange hfollows hwithin hpolicy).cons _

/-- A target has been added. -/
theorem added {target : Target}
    (h : Following log history requests grants reach reviewed cut (target :: pending))
    {sighting : Sighting} (htarget : sighting.target? = some target)
    (hchanges : sighting.changes = []) :
    Following (sighting :: log) history requests grants reach reviewed cut pending := by
  have hfiled : Sighting.filed (sighting :: log) = Sighting.filed log ++ [target] := by
    simp [Sighting.filed, htarget]
  have hreadings : Sighting.readings (sighting :: log) = Sighting.readings log := by
    simp [Sighting.readings, hchanges]
  refine ⟨h.listing.trans (List.suffix_cons _ _).isInfix, h.start_le, h.reviewed_le, h.reach_le,
    h.cut_le, ?_, ?_, ?_, ?_⟩
  · rw [hreadings]
    exact h.readings
  · rw [hfiled, hreadings, List.append_assoc]
    exact h.filed
  · rw [hfiled]
    exact fun hcut => (h.secure hcut).trans (List.prefix_append _ _)
  · exact fun change hchange hfollows hwithin hpolicy =>
      (h.policies change hchange hfollows hwithin hpolicy).cons _

/-- **A page has been read**: what it gives rise to is to be added. -/
theorem paged (h : Following log history requests grants reach reach cut [])
    (hnumbered : Change.Numbered 0 history) {further : Nat} (hfurther : reach ≤ further)
    (hlength : further ≤ history.length) {sighting : Sighting} (htarget : sighting.target? = none)
    (hchanges : sighting.changes = Change.between reach further history) :
    Following (sighting :: log) history requests grants further reach cut
      (Watch.targetsOf sighting.changes) := by
  have hfiled : Sighting.filed (sighting :: log) = Sighting.filed log := by
    simp [Sighting.filed, htarget]
  have hreadings : Sighting.readings (sighting :: log) =
      Sighting.readings log ++ sighting.changes := rfl
  have hbefore := h.filed
  rw [List.append_nil] at hbefore
  refine ⟨h.listing.trans (List.suffix_cons _ _).isInfix, h.start_le, hfurther, hlength,
    h.cut_le, ?_, ?_, ?_, ?_⟩
  · rw [hreadings, h.readings, hchanges, hnumbered.between_append h.start_le hfurther]
  · rw [hfiled, hreadings, Watch.targetsOf_append, ← List.append_assoc, hbefore]
  · rw [hfiled]
    exact h.secure
  · exact fun change hchange hfollows hwithin hpolicy =>
      (h.policies change hchange hfollows hwithin hpolicy).cons _

/-- Once all targets have been added and the policies have been asked for, everything that has been
read may be forgotten. -/
theorem settled (h : Following log history requests grants reach reviewed cut [])
    (hpolicies : ∀ change ∈ history, reviewed < change.sequence → change.sequence ≤ reach →
      change.reaction = .resyncPolicies → Reviewed log change.sequence) :
    Following log history requests grants reach reach cut [] where
  listing := h.listing
  start_le := Nat.le_trans h.start_le h.reviewed_le
  reviewed_le := Nat.le_refl _
  reach_le := h.reach_le
  cut_le := Nat.le_trans h.cut_le h.reviewed_le
  readings := h.readings
  filed := h.filed
  secure := h.secure
  policies change hchange hfollows hwithin hpolicy := by
    by_cases hearlier : change.sequence ≤ reviewed
    · exact h.policies change hchange hfollows hearlier hpolicy
    · exact hpolicies change hchange (Nat.lt_of_not_le hearlier) hwithin hpolicy

/-- **What has been read is cut off.** -/
theorem compacted (h : Following log history requests grants reach reach cut []) :
    Following log history requests grants reach reach reach [] where
  listing := h.listing
  start_le := h.start_le
  reviewed_le := Nat.le_refl _
  reach_le := h.reach_le
  cut_le := Nat.le_refl _
  readings := h.readings
  filed := h.filed
  secure _ := by
    have hfiled := h.filed
    rw [List.append_nil, h.readings] at hfiled
    exact hfiled ▸ List.prefix_rfl
  policies := h.policies

/-- What is still to be added comes from the last changes that were read; what comes before them has
been added. -/
theorem filed_upTo {cursor : Nat}
    (h : Following log history requests grants reach reviewed cut pending)
    (hnumbered : Change.Numbered 0 history) (hstart : Sighting.start requests grants ≤ cursor)
    (hcursor : cursor ≤ reach)
    (hpending : pending <:+ Watch.targetsOf (Change.between cursor reach history)) :
    Sighting.targets requests grants ++
      Watch.targetsOf (Change.between (Sighting.start requests grants) cursor history) <+:
        Sighting.filed log := by
  obtain ⟨earlier, hearlier⟩ := hpending
  have hfiled := h.filed
  rw [h.readings, ← hnumbered.between_append hstart hcursor, Watch.targetsOf_append, ← hearlier,
    ← List.append_assoc, ← List.append_assoc] at hfiled
  exact ⟨earlier, (List.append_cancel_right hfiled).symm⟩

/-- And it comes from changes that have not been cut off. -/
theorem pending_after_cut (h : Following log history requests grants reach reviewed cut pending)
    (hnumbered : Change.Numbered 0 history) (hcut : Sighting.start requests grants < cut) :
    pending <:+ Watch.targetsOf (Change.between cut reach history) := by
  obtain ⟨others, hothers⟩ := h.secure hcut
  have hreach : cut ≤ reach := Nat.le_trans h.cut_le h.reviewed_le
  have hfiled := h.filed
  rw [h.readings, ← hnumbered.between_append (Nat.le_of_lt hcut) hreach, Watch.targetsOf_append,
    ← hothers, ← List.append_assoc, List.append_assoc _ others] at hfiled
  exact ⟨others, List.append_cancel_left hfiled⟩

/-- The live objects have been listed. -/
theorem listed {earlier : List Sighting} (hfiled : Sighting.filed earlier = [])
    (hreadings : Sighting.readings earlier = [])
    (hrequests : requests.lastSequence ≤ history.length) :
    Following (Sighting.listing grants .grant :: Sighting.listing requests .request :: earlier)
      history requests grants (Sighting.start requests grants) (Sighting.start requests grants) 0
      (Sighting.targets requests grants) := by
  have hread : Sighting.readings (Sighting.listing grants .grant ::
      Sighting.listing requests .request :: earlier) = [] := by
    change (Sighting.readings earlier ++ []) ++ [] = []
    rw [hreadings]
    rfl
  have hnone : Change.between (Sighting.start requests grants) (Sighting.start requests grants)
      history = [] := by
    refine List.filter_eq_nil_iff.2 fun change _ => ?_
    simp only [Bool.and_eq_true, decide_eq_true_eq]
    omega
  refine ⟨(List.prefix_append [_, _] earlier).isInfix, Nat.le_refl _, Nat.le_refl _, ?_,
    Nat.zero_le _, ?_, ?_, ?_, ?_⟩
  · exact Nat.le_trans (Nat.min_le_left _ _) hrequests
  · rw [hread, hnone]
  · rw [hread]
    change ((Sighting.filed earlier ++ []) ++ []) ++ _ = _ ++ []
    rw [hfiled]
    simp
  · intro hcut
    omega
  · intro change _ hfollows hwithin
    omega

end Following

/-- The watcher has read a page that follows a position; it is still to add some of its targets, and
it has or has not asked for the policies. -/
structure Paged (log : List Sighting) (history : List Change) (cut cursor : Nat) (page : ChangePage)
    (pending : List Target) (reviewed : Bool) : Prop where
  le : cursor ≤ page.nextCursor
  changes : page.changes = Change.between cursor page.nextCursor history
  pending_le : pending <:+ Watch.targetsOf page.changes
  following : ∃ requests grants, Sighting.start requests grants ≤ cursor ∧
    Following log history requests grants page.nextCursor
      (if reviewed then page.nextCursor else cursor) cut pending

/-- The watcher has read everything up to a position, and it is not in the middle of a page. -/
def UpToDate (log : List Sighting) (history : List Change) (cut cursor : Nat) : Prop :=
  ∃ requests grants, Following log history requests grants cursor cursor cut []

namespace Paged

variable {log : List Sighting} {history : List Change} {cut cursor : Nat} {page : ChangePage}
  {pending : List Target} {reviewed : Bool} {sighting : Sighting}

theorem told (h : Paged log history cut cursor page pending reviewed) {news : List Change}
    (hnumbered : Change.Numbered 0 (history ++ news)) :
    Paged log (history ++ news) cut cursor page pending reviewed := by
  obtain ⟨requests, grants, hstart, hfollowing⟩ := h.following
  refine ⟨h.le, ?_, h.pending_le, requests, grants, hstart, hfollowing.told hnumbered⟩
  rw [hnumbered.between_of_append hfollowing.reach_le]
  exact h.changes

theorem heard (h : Paged log history cut cursor page pending reviewed)
    (htarget : sighting.target? = none) (hchanges : sighting.changes = []) :
    Paged (sighting :: log) history cut cursor page pending reviewed := by
  obtain ⟨requests, grants, hstart, hfollowing⟩ := h.following
  exact ⟨h.le, h.changes, h.pending_le, requests, grants, hstart,
    hfollowing.heard htarget hchanges⟩

theorem added {target : Target}
    (h : Paged log history cut cursor page (target :: pending) reviewed)
    (htarget : sighting.target? = some target) (hchanges : sighting.changes = []) :
    Paged (sighting :: log) history cut cursor page pending reviewed := by
  obtain ⟨requests, grants, hstart, hfollowing⟩ := h.following
  exact ⟨h.le, h.changes, (List.suffix_cons _ _).trans h.pending_le, requests, grants, hstart,
    hfollowing.added htarget hchanges⟩

/-- The policies have been asked for again, if the page tells of any. -/
theorem settled (h : Paged log history cut cursor page [] false)
    (hpolicies : Watch.touchesPolicies page.changes = true → Reviewed log page.nextCursor) :
    Paged log history cut cursor page [] true := by
  obtain ⟨requests, grants, hstart, hfollowing⟩ := h.following
  refine ⟨h.le, h.changes, h.pending_le, requests, grants, hstart, hfollowing.settled ?_⟩
  intro change hchange hfollows hwithin hpolicy
  have hpage : change ∈ page.changes := by
    rw [h.changes]
    exact Change.mem_between.2 ⟨hchange, hfollows, hwithin⟩
  have htouches : Watch.touchesPolicies page.changes = true := by
    refine List.any_eq_true.2 ⟨change, hpage, ?_⟩
    rw [hpolicy]
    rfl
  obtain ⟨sighting, hsighting, hreview, hlast⟩ := hpolicies htouches
  exact ⟨sighting, hsighting, hreview, Nat.le_trans hwithin hlast⟩

end Paged

end AccessBroker
