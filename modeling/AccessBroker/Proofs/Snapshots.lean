import AccessBroker.Proofs.Cluster.Basic
import AccessBroker.Proofs.Vigil.Progress

/-!
# What the snapshot shows

Requests are decided by the snapshot of the policies, and the snapshot shows the policies that were
stored when they were last read (`AccessBroker.Vigil.Shows`). When no call fails and the watcher has
come to the end of the feed, nothing was written since then but what the feed did not tell the
watcher of: a policy that was written after the policies had been read for the first time, and
before the requests were listed. For the position of that listing is where the watcher follows the
feed from. So the snapshot shows what is stored exactly if the policies have been read since the
listing, or if nothing had happened to them until then
(`AccessBroker.Vigil.Reachable.shows_stored_iff`).
-/

namespace AccessBroker

open AccessBroker.Time

/-- No call of the watcher is refused. -/
def Regime.Steady (regime : Regime) : Prop :=
  ∀ failure, regime.refuses failure = false

/-- The entries of a snapshot of some policies. -/
def PolicySnapshot.entriesOf (policies : List Policy) : List PolicyEntry :=
  (({} : PolicySnapshot).replace policies).entries

theorem Change.reaction_eq_resyncPolicies {change : Change} (h : change.kind = .policy) :
    change.reaction = .resyncPolicies := by
  unfold reaction
  rw [h]

/-- Policies that are found in the same places are listed alike. -/
theorem MemoryStore.listPolicies_eq {store other : MemoryStore}
    (h : ∀ key, store.find? .policy key = other.find? .policy key) :
    store.listPolicies = other.listPolicies :=
  congrArg (List.map Prod.snd) (Table.entries_eq_of_find? h)

/-- The position that the watcher stands at once the policies are read. -/
def Errand.position : Errand → Nat
  | .start => 0
  | .page next _ _ => next.nextCursor
  | .pause cursor _ => cursor

/-- The position up to which the snapshot shows what has happened to the policies, once it shows
any. -/
def Post.shown : Post → Option Nat
  | .review .start | .publish _ .start | .idle .stopped _ => none
  | .idle .listing _ | .listRequests _ | .listGrants _ _ => some 0
  | .idle (.following cursor _) _ | .file _ _ cursor _ | .read cursor _ | .route _ _ _ cursor _
  | .review (.page _ cursor _) | .publish _ (.page _ cursor _) | .review (.pause cursor _)
  | .publish _ (.pause cursor _) => some cursor
  | .cut page _ _ => some page.nextCursor

namespace Vigil

variable {regime : Regime} {vigil after : Vigil} {seen requests grants : MemoryStore}
  {cut cursor position : Nat} {post onward : Post}

/-- The policies were read from a store. -/
def Read (log : List Sighting) (seen : MemoryStore) : Prop :=
  ∃ sighting ∈ log, sighting.isReview = true ∧ sighting.store = seen

/-- The snapshot shows the policies that were read from a store; what has happened to policies after
the position of the listing, and up to another one, happened before that. -/
structure Shows (vigil : Vigil) (seen : MemoryStore) (position : Nat) : Prop where
  read : Read vigil.log seen
  entries : vigil.snapshot.entries = PolicySnapshot.entriesOf seen.listPolicies
  le_last : position ≤ vigil.history.length
  policies (requests grants : MemoryStore) (change : Change) :
    Listed vigil.log requests grants → change ∈ vigil.history → change.kind = .policy →
      Sighting.start requests grants < change.sequence → change.sequence ≤ position →
        change.sequence ≤ seen.lastSequence

/-- What is true of the snapshot where the watcher stands. -/
structure Showing (vigil : Vigil) (post : Post) : Prop where
  shows (position : Nat) : post.shown = some position → ∃ seen, Shows vigil seen position
  reading (policies : List Policy) (errand : Errand) : post = .publish policies errand →
    ∃ seen, Read vigil.log seen ∧ policies = seen.listPolicies ∧
      errand.position ≤ seen.lastSequence ∧ seen.lastSequence ≤ vigil.history.length

theorem Read.cons {log : List Sighting} (h : Read log seen) (sighting : Sighting) :
    Read (sighting :: log) seen := by
  obtain ⟨earlier, hearlier, hreview⟩ := h
  exact ⟨earlier, List.mem_cons_of_mem _ hearlier, hreview⟩

/-- Clients make more changes. -/
theorem Shows.told (h : Shows vigil seen position) {news : List Change}
    (hlog : after.log = vigil.log) (hsnapshot : after.snapshot = vigil.snapshot)
    (hhistory : after.history = vigil.history ++ news)
    (hnumbered : Change.Numbered 0 after.history) : Shows after seen position := by
  have hle := h.le_last
  rw [hhistory] at hnumbered
  refine ⟨hlog ▸ h.read, hsnapshot ▸ h.entries, ?_, ?_⟩
  · rw [hhistory, List.length_append]
    omega
  · intro requests grants change hlisted hchange hkind hafter hupto
    rw [hlog] at hlisted
    rw [hhistory] at hchange
    rcases List.mem_append.1 hchange with hold | hnew
    · exact h.policies requests grants change hlisted hold hkind hafter hupto
    · have hbounds := (Change.numbered_append.1 hnumbered).2.bounds hnew
      omega

/-- The watcher does something else than publishing policies and listing grants. -/
theorem Shows.heard (h : Shows vigil seen position) {sighting : Sighting}
    (hlog : after.log = sighting :: vigil.log) (hsnapshot : after.snapshot = vigil.snapshot)
    (hhistory : after.history = vigil.history)
    (hgrants : ∀ store, sighting.deed ≠ (Sighting.listing store .grant).deed) :
    Shows after seen position := by
  refine ⟨?_, hsnapshot ▸ h.entries, hhistory ▸ h.le_last, ?_⟩
  · rw [hlog]
    exact h.read.cons sighting
  · intro requests grants change hlisted hchange
    rw [hlog] at hlisted
    rw [hhistory] at hchange
    rcases hlisted.of_cons with hbefore | ⟨hnow, -⟩
    · exact h.policies requests grants change hbefore hchange
    · exact absurd (congrArg Sighting.deed hnow) (hgrants grants)

/-- What is shown up to a position is shown further on, if nothing happens to policies there. -/
theorem Shows.extend (h : Shows vigil seen cursor) (hposition : position ≤ vigil.history.length)
    (hnone : ∀ change ∈ Change.between cursor position vigil.history, change.kind ≠ .policy) :
    Shows vigil seen position := by
  refine ⟨h.read, h.entries, hposition, ?_⟩
  intro requests grants change hlisted hchange hkind hafter hupto
  by_cases hearlier : change.sequence ≤ cursor
  · exact h.policies requests grants change hlisted hchange hkind hafter hearlier
  · exact absurd hkind
      (hnone change (Change.mem_between.2 ⟨hchange, Nat.lt_of_not_le hearlier, hupto⟩))

/-! ### Every step of the watcher -/

theorem shown_closing {pace : WatchPace} (page : ChangePage) (cursor due : Nat) :
    (Post.closing pace page cursor due).shown = some page.nextCursor := by
  unfold Post.closing
  split <;> rfl

theorem shown_filing {pace : WatchPace} (cursor now : Nat) (targets : List Target) :
    (Post.filing pace cursor now targets).shown = some cursor := by
  cases targets <;> rfl

/-- Where the watcher is not about to publish policies, it is enough to know what the snapshot
shows. -/
theorem Shows.showing (h : Shows vigil seen position) (hshown : post.shown = some position)
    (hbusy : ∀ policies errand, post ≠ .publish policies errand) : Showing vigil post where
  shows _ hfurther := ⟨seen, Option.some.inj (hshown.symm.trans hfurther) ▸ h⟩
  reading policies errand hpost := absurd hpost (hbusy policies errand)

theorem Shows.closing {pace : WatchPace} {page : ChangePage} {due : Nat}
    (h : Shows vigil seen page.nextCursor) : Showing vigil (.closing pace page cursor due) := by
  refine h.showing (shown_closing page cursor due) fun policies errand hpost => ?_
  unfold Post.closing at hpost
  split at hpost <;> cases hpost

theorem Shows.filing {pace : WatchPace} {now : Nat} {targets : List Target}
    (h : Shows vigil seen cursor) : Showing vigil (.filing pace cursor now targets) := by
  refine h.showing (shown_filing cursor now targets) fun policies errand hpost => ?_
  cases targets <;> cases hpost

/-- A page that does not tell of policies need not be followed by reading them. -/
theorem Shows.routing {pace : WatchPace} {page : ChangePage} {due : Nat} {targets : List Target}
    (h : Shows vigil seen cursor)
    (hchanges : page.changes = Change.between cursor page.nextCursor vigil.history)
    (hnext : page.nextCursor ≤ vigil.history.length) :
    Showing vigil (.routing pace page cursor due targets) := by
  cases targets with
  | cons target targets => exact h.showing rfl fun _ _ hpost => by cases hpost
  | nil =>
    rw [Post.routing]
    split
    · exact h.showing rfl fun _ _ hpost => by cases hpost
    · next htouches =>
      refine (h.extend hnext fun change hchange hkind => htouches ?_).closing
      rw [← hchanges] at hchange
      refine List.any_eq_true.2 ⟨change, hchange, ?_⟩
      rw [Change.reaction_eq_resyncPolicies hkind]
      rfl

/-- Only publishing the policies changes the snapshot. -/
theorem Served.snapshot {effect : WatchEffect} {reply : watchInterface.Reply effect}
    (h : Served regime vigil effect reply after)
    (heffect : ∀ policies, effect ≠ .replacePolicies policies) :
    after.snapshot = vigil.snapshot := by
  cases h with
  | performed | refused | filed => rfl
  | published policies => exact absurd rfl (heffect policies)

/-- Listing the grants is where the feed is followed from, so nothing is missing there. -/
theorem Shows.listed (h : Shows vigil seen 0)
    (honce : ∀ requests grants, ¬ Listed vigil.log requests grants)
    {earlier : List Sighting} (hrequests : vigil.log = .listing requests .request :: earlier)
    (hle : requests.lastSequence ≤ vigil.history.length)
    (hlog : after.log = .listing vigil.store .grant :: vigil.log)
    (hsnapshot : after.snapshot = vigil.snapshot) (hhistory : after.history = vigil.history) :
    Shows after seen (Sighting.start requests vigil.store) := by
  refine ⟨hlog ▸ h.read.cons _, hsnapshot ▸ h.entries, ?_, ?_⟩
  · rw [hhistory]
    exact Nat.le_trans (Nat.min_le_left _ _) hle
  · intro requests' grants' change hlisted hchange hkind hafter hupto
    rw [hlog] at hlisted
    rcases hlisted.of_cons with hbefore | ⟨hgrants, _, hrequests'⟩
    · exact absurd hbefore (honce requests' grants')
    · obtain rfl : vigil.store = grants' := congrArg Sighting.store hgrants
      obtain rfl : requests = requests' :=
        congrArg Sighting.store (List.cons.inj (hrequests.symm.trans hrequests')).1
      omega

/-- The policies have been read, and are published now. -/
theorem Shows.of_published {policies : List Policy} (hread : Read vigil.log seen)
    (hpolicies : policies = seen.listPolicies) (hposition : position ≤ seen.lastSequence)
    (hle : seen.lastSequence ≤ vigil.history.length) {sighting : Sighting}
    (hlog : after.log = sighting :: vigil.log)
    (hsnapshot : after.snapshot = vigil.snapshot.replace policies)
    (hhistory : after.history = vigil.history) : Shows after seen position := by
  refine ⟨hlog ▸ hread.cons _, ?_, ?_, ?_⟩
  · rw [hsnapshot, hpolicies]
    rfl
  · rw [hhistory]
    exact Nat.le_trans hposition hle
  · exact fun _ _ _ _ _ _ _ hupto => Nat.le_trans hupto hposition

/-- Where the policies are read, the position that the watcher is to stand at is not beyond the end
of the feed. -/
theorem Watched.position_le {errand : Errand} (h : Watched vigil cut (.review errand)) :
    errand.position ≤ vigil.store.lastSequence := by
  cases errand with
  | start => exact Nat.zero_le _
  | page page cursor due =>
    obtain ⟨requests, grants, -, hfollowing⟩ := h.stance.2.following
    exact h.kept.length ▸ hfollowing.reach_le
  | pause cursor due =>
    obtain ⟨requests, grants, hfollowing⟩ := h.stance.2
    exact h.kept.length ▸ hfollowing.reach_le

/-- **Whatever the watcher does, the snapshot shows what it is to show.** -/
theorem Showing.advanced (h : Showing vigil post) (hsteady : regime.Steady)
    (hwatched : Watched vigil cut post) (honce : Once vigil.log post) {effect : WatchEffect}
    {reply : watchInterface.Reply effect}
    (hstep : Post.Step regime.pace post effect reply onward)
    (hserved : Served regime vigil effect reply after) {latest : Vigil}
    (hlog : latest.log = ⟨vigil.store, effect, reply⟩ :: vigil.log)
    (hsnapshot : latest.snapshot = after.snapshot) (hhistory : latest.history = vigil.history) :
    Showing latest onward := by
  have hlength := hwatched.kept.length
  -- What is shown does not depend on deeds of other kinds.
  have hsame {seen : MemoryStore} {position : Nat} (h : Shows vigil seen position)
      (heffect : ∀ policies, effect ≠ .replacePolicies policies)
      (hgrants : ∀ store, (⟨effect, reply⟩ : Deed watchInterface) ≠
        (Sighting.listing store .grant).deed) :
      Shows latest seen position :=
    h.heard hlog (hsnapshot.trans (hserved.snapshot heffect)) hhistory hgrants
  cases hstep with
  | requests | noRequests | noGrants =>
    obtain ⟨seen, hshows⟩ := h.shows 0 rfl
    exact (hsame hshows nofun nofun).showing rfl nofun
  | grants now listing found =>
    obtain ⟨seen, hshows⟩ := h.shows 0 rfl
    obtain ⟨-, requests, earlier, hlisted, rfl, hle⟩ := hwatched.stance
    obtain ⟨-, hreply⟩ := hserved.of_look hwatched.kept rfl
    obtain rfl : found = vigil.store.listKeys .grant := eq_of_answered hreply
    exact (hshows.listed (fun _ _ => honce.early _ _ rfl) hlisted hle hlog
      (hsnapshot.trans (hserved.snapshot nofun)) hhistory).filing
  | filed target targets cursor now =>
    obtain ⟨seen, hshows⟩ := h.shows cursor rfl
    exact (hsame hshows nofun nofun).filing
  | page cursor due page =>
    obtain ⟨seen, hshows⟩ := h.shows cursor rfl
    have hnext := hwatched.isNext (.page cursor due page) hserved rfl
    refine (hsame hshows nofun nofun).routing (hhistory ▸ hnext.changes) ?_
    rw [hhistory, hlength, hnext.nextCursor]
    exact Nat.min_le_right _ _
  | noPage cursor =>
    obtain ⟨seen, hshows⟩ := h.shows cursor rfl
    exact (hsame hshows nofun nofun).showing rfl nofun
  | routed target targets page cursor due =>
    obtain ⟨seen, hshows⟩ := h.shows cursor rfl
    have hpaged := hwatched.stance.2
    obtain ⟨requests, grants, -, hfollowing⟩ := hpaged.following
    refine (hsame hshows nofun nofun).routing (hhistory ▸ hpaged.changes) ?_
    rw [hhistory]
    exact hfollowing.reach_le
  | policies errand policies =>
    obtain ⟨-, hreply⟩ := hserved.of_look hwatched.kept rfl
    obtain rfl : policies = vigil.store.listPolicies := eq_of_answered hreply
    refine ⟨fun position hshown => ?_, fun policies' errand' hpost => ?_⟩
    · have hbefore : (Post.review errand).shown = some position := by
        cases errand <;> exact hshown
      obtain ⟨seen, hshows⟩ := h.shows position hbefore
      exact ⟨seen, hsame hshows nofun nofun⟩
    · cases hpost
      have hlast : vigil.store.lastSequence = latest.history.length := by rw [hhistory, hlength]
      refine ⟨vigil.store, ?_, rfl, hwatched.position_le, Nat.le_of_eq hlast⟩
      rw [hlog]
      exact ⟨_, List.mem_cons_self, rfl, rfl⟩
  | noPolicies errand failure =>
    obtain ⟨-, hreply⟩ := hserved.of_look hwatched.kept rfl
    rcases hreply with hreply | ⟨failure, hrefuses, -⟩
    · cases hreply
    · rw [hsteady failure] at hrefuses
      cases hrefuses
  | published policies errand version =>
    obtain ⟨seen, hread, hpolicies, hposition, hle⟩ := h.reading policies errand rfl
    have hshows : Shows latest seen errand.position :=
      .of_published hread hpolicies hposition hle hlog
        (hsnapshot.trans (congrArg Vigil.snapshot hserved.of_publish)) hhistory
    cases errand with
    | start | pause => exact hshows.showing rfl nofun
    | page => exact hshows.closing
  | cut page cursor due =>
    obtain ⟨seen, hshows⟩ := h.shows page.nextCursor rfl
    exact (hsame hshows nofun nofun).showing rfl nofun

/-- **In every run without failures, the snapshot shows what it is to show.** -/
theorem Stands.showing (h : Stands regime vigil post) (hsteady : regime.Steady) :
    Showing vigil post := by
  induction h with
  | start => exact ⟨nofun, nofun⟩
  | @called vigil post call now uid hbefore huncut ih =>
    obtain ⟨cut, hkept, -, -⟩ := hbefore.watched
    obtain ⟨news, hhistory, -, hkept'⟩ := hkept.perform now uid huncut
    refine ⟨fun position hshown => ?_, fun policies errand hpost => ?_⟩
    · obtain ⟨seen, hshows⟩ := ih.shows position hshown
      exact ⟨seen, hshows.told rfl rfl hhistory hkept'.numbered⟩
    · obtain ⟨seen, hread, hpolicies, hposition, hle⟩ := ih.reading policies errand hpost
      refine ⟨seen, hread, hpolicies, hposition, ?_⟩
      rw [hhistory, List.length_append]
      omega
  | @woken vigil state waits now _ ih =>
    have hsame {seen : MemoryStore} {position : Nat} (h : Shows vigil seen position) :
        Shows { vigil with rest := (Post.woken regime.pace now state waits).program regime.pace }
          seen position :=
        ⟨h.read, h.entries, h.le_last, h.policies⟩
    cases state with
    | listing =>
      obtain ⟨seen, hshows⟩ := ih.shows 0 rfl
      cases waits <;> exact (hsame hshows).showing rfl nofun
    | stopped => exact ⟨nofun, nofun⟩
    | following cursor due =>
      obtain ⟨seen, hshows⟩ := ih.shows cursor rfl
      cases waits with
      | false => exact (hsame hshows).showing rfl nofun
      | true =>
        have hshown : (Post.woken regime.pace now (.following cursor due) true).shown =
            some cursor := by
          rw [Post.woken]
          split <;> rfl
        refine (hsame hshows).showing hshown fun policies errand hpost => ?_
        rw [Post.woken] at hpost
        split at hpost <;> cases hpost
  | advanced hbefore hstep hserved ih =>
    obtain ⟨cut, hwatched⟩ := hbefore.watched
    exact ih.advanced hsteady hwatched hbefore.once hstep hserved rfl rfl
      (hwatched.advanced hstep hserved).1

/-! ### At the end of the feed -/

/-- While the watcher follows the feed from a position, the snapshot shows what has happened up to
there. -/
theorem Stance.shown (h : Stance vigil cut post) (hcursor : vigil.cursor = some cursor) :
    ∃ position, post.shown = some position ∧ cursor ≤ position := by
  have hearly (h : Early vigil cut) {P : Prop} : P := by
    have hnone := h.cursor
    rw [hcursor] at hnone
    cases hnone
  have hhere {further : Nat} (hfurther : vigil.cursor = some further)
      (hshown : post.shown = some further) :
      ∃ position, post.shown = some position ∧ cursor ≤ position :=
    ⟨further, hshown, Nat.le_of_eq (Option.some.inj (hcursor.symm.trans hfurther))⟩
  cases post with
  | idle state waits =>
    cases state with
    | listing | stopped => exact hearly h
    | following => exact hhere h.1 rfl
  | listRequests => exact hearly h
  | listGrants => exact hearly h.1
  | file =>
    have hnone := h.2.1
    rw [hcursor] at hnone
    cases hnone
  | read | route => exact hhere h.1 rfl
  | review errand | publish _ errand =>
    cases errand with
    | start => exact hearly h
    | page | pause => exact hhere h.1 rfl
  | cut page further due =>
    obtain rfl := Option.some.inj (hcursor.symm.trans h.1)
    exact ⟨page.nextCursor, rfl, h.2.le⟩

/-- Where nothing has happened to the policies since the watcher did something, they are what they
were then. -/
theorem Logged.listPolicies_eq (h : Logged vigil) {sighting : Sighting}
    (hsighting : sighting ∈ vigil.log)
    (hnone : ∀ change ∈ vigil.history, sighting.store.lastSequence < change.sequence →
      change.kind ≠ .policy) : vigil.store.listPolicies = sighting.store.listPolicies := by
  refine MemoryStore.listPolicies_eq fun key => Classical.byContradiction fun hdiffers => ?_
  obtain ⟨change, hchange, hafter, hkind, -⟩ := h.told sighting .policy key hsighting hdiffers
  exact hnone change hchange hafter hkind

/-- **What the snapshot shows at the end of the feed.** No call fails, and the watcher follows the
feed from its end. Then the snapshot shows the policies as they were when they were read at some
time; and that is what is stored now exactly if that was not before the requests were listed, or if
the policies of then were the same as when the requests were listed. -/
theorem Reachable.shows_stored_iff (h : Reachable regime vigil) (hsteady : regime.Steady)
    (hcursor : vigil.cursor = some vigil.store.lastSequence) :
    ∃ seen requests grants, Read vigil.log seen ∧ Listed vigil.log requests grants ∧
      vigil.snapshot.entries = PolicySnapshot.entriesOf seen.listPolicies ∧
      (vigil.snapshot.entries = PolicySnapshot.entriesOf vigil.store.listPolicies ↔
        requests.lastSequence ≤ seen.lastSequence ∨
          PolicySnapshot.entriesOf requests.listPolicies =
            PolicySnapshot.entriesOf seen.listPolicies) := by
  obtain ⟨post, hpost⟩ := h.stands
  obtain ⟨cut, hkept, hlogged, hstance⟩ := hpost.watched
  obtain ⟨position, hshown, hposition⟩ := hstance.shown hcursor
  obtain ⟨seen, hshows⟩ := (hpost.showing hsteady).shows position hshown
  obtain ⟨requests, grants, _, _, -, -, -, -, -, hfollowing⟩ := hstance.following hcursor
  refine ⟨seen, requests, grants, hshows.read, hfollowing.listing, hshows.entries, ?_⟩
  have hlisted : Sighting.listing requests .request ∈ vigil.log :=
    hfollowing.listing.subset (List.mem_cons_of_mem _ List.mem_cons_self)
  -- Whatever happened to policies after the listing, happened before they were read.
  have hread (change : Change) (hchange : change ∈ vigil.history) (hkind : change.kind = .policy)
      (hafter : requests.lastSequence < change.sequence) :
      change.sequence ≤ seen.lastSequence :=
    hshows.policies requests grants change hfollowing.listing hchange hkind
      (Nat.lt_of_le_of_lt (Nat.min_le_left _ _) hafter)
      (Nat.le_trans (hkept.le_last hchange) hposition)
  -- If they were read before the listing, nothing has happened to them since the latter.
  have hunchanged (hbefore : seen.lastSequence < requests.lastSequence) :
      vigil.store.listPolicies = requests.listPolicies := by
    refine hlogged.listPolicies_eq hlisted fun change hchange hafter hkind => ?_
    have hle := hread change hchange hkind hafter
    exact absurd (Nat.lt_of_lt_of_le hafter hle) (Nat.lt_asymm hbefore)
  rw [hshows.entries]
  rcases Nat.lt_or_ge seen.lastSequence requests.lastSequence with hbefore | hle
  · rw [hunchanged hbefore]
    constructor
    · exact fun hsame => .inr hsame.symm
    · rintro (hle | hsame)
      · exact absurd hbefore (Nat.not_lt.2 hle)
      · exact hsame.symm
  · refine iff_of_true ?_ (.inl hle)
    obtain ⟨sighting, hsighting, -, rfl⟩ := hshows.read
    rw [hlogged.listPolicies_eq hsighting fun change hchange hafter hkind => ?_]
    have hread := hread change hchange hkind (Nat.lt_of_le_of_lt hle hafter)
    exact absurd hafter (Nat.not_lt.2 hread)

/-! ### A policy that is not shown -/

/-- A poll has read a page. -/
def Polled (vigil : Vigil) : Prop :=
  vigil.log.any (fun sighting => match sighting.deed with
    | ⟨.store (.changesSince _ _), .ok _⟩ => true
    | _ => false) = true

/-- The watcher waits to be woken. -/
def Idle (vigil : Vigil) : Prop :=
  (match vigil.rest with
    | .done _ => true
    | .ask _ _ => false) = true

/-- The last poll has returned, and the watcher is at the end of the feed. -/
def AtEnd (vigil : Vigil) : Prop :=
  Polled vigil ∧ Idle vigil ∧ vigil.cursor = some vigil.store.lastSequence

instance (vigil : Vigil) : Decidable (AtEnd vigil) :=
  inferInstanceAs (Decidable (_ = true ∧ _ = true ∧ _))

/-- Is it the watcher that moves, or a client that saves or deletes a policy? -/
def Move.keepsToPolicies : Move → Bool
  | .client (.savePolicy _) _ _ | .client (.delete .policy _) _ _ | .wake _ | .answer => true
  | _ => false

/-- No call fails. -/
def Scenario.steady : Regime where
  pace := ⟨1, 1, 1⟩
  refuses _ := false

/-- A policy is saved after the policies have been read, and before the requests are listed; then
the feed is polled. -/
def Scenario.unseen : List Move :=
  [.answer, .answer, .client (.savePolicy Cluster.Scenario.policy) .epoch "policy",
    .wake 0, .answer, .answer, .wake 0, .answer]

/-- The policy is stored then, and the snapshot is empty. -/
theorem exists_unseen : ∃ vigil, ({} : Vigil).run Scenario.steady Scenario.unseen = some vigil ∧
    AtEnd vigil ∧ vigil.snapshot.entries ≠ PolicySnapshot.entriesOf vigil.store.listPolicies := by
  have hrun : (({} : Vigil).run Scenario.steady Scenario.unseen).any (fun vigil => decide
      (AtEnd vigil ∧ vigil.snapshot.entries = [] ∧
        PolicySnapshot.entriesOf vigil.store.listPolicies ≠ [])) = true := by decide +kernel
  obtain ⟨vigil, hrun, hholds⟩ := (Option.any_eq_true _ _).1 hrun
  obtain ⟨hend, hnothing, hsomething⟩ := of_decide_eq_true hholds
  exact ⟨vigil, hrun, hend, fun hsame => hsomething (hsame.symm.trans hnothing)⟩

/-- The policies that the snapshot shows were read before the requests were listed. -/
theorem shows_unseen : ∃ (vigil : Vigil) (seen requests grants : MemoryStore),
    Reachable Scenario.steady vigil ∧ Scenario.steady.Steady ∧
    vigil.cursor = some vigil.store.lastSequence ∧
    Listed vigil.log requests grants ∧
    vigil.snapshot.entries = PolicySnapshot.entriesOf seen.listPolicies ∧
    seen.lastSequence < requests.lastSequence := by
  obtain ⟨vigil, hrun, ⟨-, -, hcursor⟩, hother⟩ := exists_unseen
  have hreachable := reachable_of_run .start hrun
  have hsteady : Scenario.steady.Steady := fun _ => rfl
  obtain ⟨seen, requests, grants, -, hlisted, hentries, hiff⟩ :=
    Reachable.shows_stored_iff hreachable hsteady hcursor
  refine ⟨vigil, seen, requests, grants, hreachable, hsteady, hcursor, hlisted, hentries, ?_⟩
  exact Nat.lt_of_not_le fun hle => hother (hiff.2 (.inl hle))

/-- **The snapshot need not catch up**: it is not so that, whatever becomes of policies, the
snapshot shows those that are stored whenever a poll has come to the end of the feed. -/
theorem snapshot_not_current : ¬∀ (moves : List Move) (vigil : Vigil),
    (∀ move ∈ moves, move.keepsToPolicies = true) →
    ({} : Vigil).run Scenario.steady moves = some vigil → AtEnd vigil →
      vigil.snapshot.entries = PolicySnapshot.entriesOf vigil.store.listPolicies := by
  intro h
  obtain ⟨vigil, hrun, hend, hother⟩ := exists_unseen
  exact hother (h _ vigil (by decide) hrun hend)

end Vigil

end AccessBroker
