import AccessBroker.Proofs.Vigil.Books

/-!
# Following the feed

In every vigil that can come about the watcher keeps its books in order
(`AccessBroker.Vigil.Stands.watched`). How far it has come with the changes, and what it is still to
do about them, depends on where it stands (`AccessBroker.Vigil.Stance`); that the books are kept is
shown for every step that the watcher can take, and then for every run.
-/

namespace AccessBroker

open AccessBroker.Time

/-! ### Where the watcher stands -/

namespace Vigil

variable {regime : Regime} {vigil next : Vigil} {cut cursor : Nat}

/-- The live objects have not been listed yet. -/
structure Early (vigil : Vigil) (cut : Nat) : Prop where
  uncut : cut = 0
  filed : Sighting.filed vigil.log = []
  readings : Sighting.readings vigil.log = []
  cursor : vigil.cursor = none

/-- What is true where the watcher stands. -/
def Stance (vigil : Vigil) (cut : Nat) : Post → Prop
  | .idle .listing _ | .idle .stopped _ | .review .start | .publish _ .start | .listRequests _ =>
    Early vigil cut
  | .listGrants _ listing => Early vigil cut ∧ ∃ requests earlier,
    vigil.log = Sighting.listing requests .request :: earlier ∧
      listing = requests.listKeys .request ∧ requests.lastSequence ≤ vigil.history.length
  | .file target targets cursor _ => cut = 0 ∧ vigil.cursor = none ∧ ∃ requests grants,
    cursor = Sighting.start requests grants ∧
      Following vigil.log vigil.history requests grants cursor cursor cut (target :: targets)
  | .idle (.following cursor _) _ | .read cursor _ | .review (.pause cursor _)
  | .publish _ (.pause cursor _) =>
    vigil.cursor = some cursor ∧ UpToDate vigil.log vigil.history cut cursor
  | .route target targets page cursor _ => vigil.cursor = some cursor ∧
    Paged vigil.log vigil.history cut cursor page (target :: targets) false
  | .review (.page page cursor _) => vigil.cursor = some cursor ∧
    Paged vigil.log vigil.history cut cursor page [] false
  | .publish _ (.page page cursor _) | .cut page cursor _ => vigil.cursor = some cursor ∧
    Paged vigil.log vigil.history cut cursor page [] true

/-- What is true of a vigil when the watcher stands somewhere. -/
structure Watched (vigil : Vigil) (cut : Nat) (post : Post) : Prop where
  kept : Kept vigil cut
  logged : Logged vigil
  stance : Stance vigil cut post

/-- The watcher follows the feed from `cursor` and has read it up to `reach`, which is further only
in the middle of a page; what it is still to add comes from that page. -/
structure Bearings (vigil : Vigil) (cut cursor : Nat) (post : Post) (requests grants : MemoryStore)
    (reach reviewed : Nat) : Prop where
  reach_eq : post.reach = some reach
  start_le : Sighting.start requests grants ≤ cursor
  cursor_le : cursor ≤ reviewed
  eq_of_idle : ∀ state waits, post = .idle state waits → cursor = reach
  pending_le : post.pending <:+ Watch.targetsOf (Change.between cursor reach vigil.history)
  following : Following vigil.log vigil.history requests grants reach reviewed cut post.pending

/-- **While the watcher follows the feed**, it has its bearings. -/
theorem Stance.following {post : Post} (h : Stance vigil cut post)
    (hcursor : vigil.cursor = some cursor) :
    ∃ requests grants reach reviewed,
      Bearings vigil cut cursor post requests grants reach reviewed := by
  have hearly (h : Early vigil cut) {P : Prop} : P := by
    have hnone := h.cursor
    rw [hcursor] at hnone
    cases hnone
  -- The watcher is between two pages, or in the middle of one.
  have hbetween {position : Nat}
      (h : vigil.cursor = some position ∧ UpToDate vigil.log vigil.history cut position)
      (hreach : post.reach = some position) (hpending : post.pending = []) :
      ∃ requests grants reach reviewed,
        Bearings vigil cut cursor post requests grants reach reviewed := by
    obtain ⟨hposition, requests, grants, hfollowing⟩ := h
    obtain rfl := Option.some.inj (hposition.symm.trans hcursor)
    have hnothing {targets : List Target} : post.pending <:+ targets :=
      hpending ▸ List.nil_suffix
    exact ⟨requests, grants, position, position, hreach, hfollowing.start_le, Nat.le_refl _,
      fun _ _ _ => rfl, hnothing, hpending ▸ hfollowing⟩
  have hwithin {position : Nat} {page : ChangePage} {reviewed : Bool}
      (h : vigil.cursor = some position ∧
        Paged vigil.log vigil.history cut position page post.pending reviewed)
      (hreach : post.reach = some page.nextCursor)
      (hbusy : ∀ state waits, post ≠ .idle state waits) :
      ∃ requests grants reach reviewed,
        Bearings vigil cut cursor post requests grants reach reviewed := by
    obtain ⟨hposition, hpaged⟩ := h
    obtain rfl := Option.some.inj (hposition.symm.trans hcursor)
    obtain ⟨requests, grants, hstart, hfollowing⟩ := hpaged.following
    refine ⟨requests, grants, page.nextCursor, _, hreach, hstart, ?_,
      fun state waits hidle => absurd hidle (hbusy state waits),
      hpaged.changes ▸ hpaged.pending_le, hfollowing⟩
    have hle := hpaged.le
    split <;> omega
  cases post with
  | idle state waits =>
    cases state with
    | listing | stopped => exact hearly h
    | following => exact hbetween h rfl rfl
  | listRequests => exact hearly h
  | listGrants => exact hearly h.1
  | file =>
    have hnone := h.2.1
    rw [hcursor] at hnone
    cases hnone
  | read => exact hbetween h rfl rfl
  | route => exact hwithin h rfl nofun
  | review errand | publish _ errand =>
    cases errand with
    | start => exact hearly h
    | page => exact hwithin h rfl nofun
    | pause => exact hbetween h rfl rfl
  | cut => exact hwithin h rfl nofun

/-- The watcher has not read more than there is. -/
theorem Stance.reach_le {post : Post} {reach : Nat} (h : Stance vigil cut post)
    (hreach : post.reach = some reach) : reach ≤ vigil.history.length := by
  have hpaged {position : Nat} {page : ChangePage} {pending : List Target} {reviewed : Bool}
      (h : vigil.cursor = some position ∧
        Paged vigil.log vigil.history cut position page pending reviewed) :
      page.nextCursor ≤ vigil.history.length := by
    obtain ⟨-, hpaged⟩ := h
    obtain ⟨requests, grants, -, hfollowing⟩ := hpaged.following
    exact hfollowing.reach_le
  have huptodate {cursor : Nat}
      (h : vigil.cursor = some cursor ∧ UpToDate vigil.log vigil.history cut cursor) :
      cursor ≤ vigil.history.length := by
    obtain ⟨-, requests, grants, hfollowing⟩ := h
    exact hfollowing.reach_le
  cases post with
  | idle state waits =>
    cases state with
    | listing | stopped => cases hreach
    | following => exact Option.some.inj hreach ▸ huptodate h
  | listRequests | listGrants => cases hreach
  | file =>
    obtain ⟨-, -, requests, grants, -, hfollowing⟩ := h
    exact Option.some.inj hreach ▸ hfollowing.reach_le
  | read => exact Option.some.inj hreach ▸ huptodate h
  | route | cut => exact Option.some.inj hreach ▸ hpaged h
  | review errand | publish _ errand =>
    cases errand with
    | start => cases hreach
    | page => exact Option.some.inj hreach ▸ hpaged h
    | pause => exact Option.some.inj hreach ▸ huptodate h

/-! ### Every step keeps the books -/

section Steps

variable {pace : WatchPace} {post : Post} {after : Vigil} {page : ChangePage}

/-- A call of a client. -/
theorem Stance.told (h : Stance vigil cut post) {news : List Change} (hlog : after.log = vigil.log)
    (hcursor : after.cursor = vigil.cursor) (hhistory : after.history = vigil.history ++ news)
    (hnumbered : Change.Numbered 0 after.history) : Stance after cut post := by
  have hearly (h : Early vigil cut) : Early after cut := by
    refine ⟨h.uncut, ?_, ?_, ?_⟩
    · rw [hlog, h.filed]
    · rw [hlog, h.readings]
    · rw [hcursor, h.cursor]
  have huptodate {cursor : Nat}
      (h : vigil.cursor = some cursor ∧ UpToDate vigil.log vigil.history cut cursor) :
      after.cursor = some cursor ∧ UpToDate after.log after.history cut cursor := by
    obtain ⟨hposition, requests, grants, hfollowing⟩ := h
    rw [hhistory] at hnumbered
    refine ⟨hcursor.trans hposition, requests, grants, ?_⟩
    rw [hlog, hhistory]
    exact hfollowing.told hnumbered
  have hpaged {cursor : Nat} {page : ChangePage} {pending : List Target} {reviewed : Bool}
      (h : vigil.cursor = some cursor ∧
        Paged vigil.log vigil.history cut cursor page pending reviewed) :
      after.cursor = some cursor ∧
        Paged after.log after.history cut cursor page pending reviewed := by
    rw [hhistory] at hnumbered
    refine ⟨hcursor.trans h.1, ?_⟩
    rw [hlog, hhistory]
    exact h.2.told hnumbered
  cases post with
  | idle state waits =>
    cases state with
    | listing | stopped => exact hearly h
    | following => exact huptodate h
  | listRequests => exact hearly h
  | listGrants =>
    obtain ⟨hbefore, requests, earlier, hlisted, hkeys, hlast⟩ := h
    refine ⟨hearly hbefore, requests, earlier, hlog.trans hlisted, hkeys, ?_⟩
    rw [hhistory, List.length_append]
    omega
  | file =>
    obtain ⟨huncut, hposition, requests, grants, hstart, hfollowing⟩ := h
    rw [hhistory] at hnumbered
    refine ⟨huncut, hcursor.trans hposition, requests, grants, hstart, ?_⟩
    rw [hlog, hhistory]
    exact hfollowing.told hnumbered
  | read => exact huptodate h
  | route => exact hpaged h
  | review errand | publish _ errand =>
    cases errand with
    | start => exact hearly h
    | page => exact hpaged h
    | pause => exact huptodate h
  | cut => exact hpaged h

/-- The watcher is woken. -/
theorem Stance.woken {state : WatchState} {waits : Bool} (h : Stance vigil cut (.idle state waits))
    (now : Nat) (hlog : after.log = vigil.log) (hcursor : after.cursor = vigil.cursor)
    (hhistory : after.history = vigil.history) (hnumbered : Change.Numbered 0 vigil.history) :
    Stance after cut (Post.woken pace now state waits) := by
  have hnext : Stance vigil cut (Post.woken pace now state waits) := by
    cases state with
    | listing => cases waits <;> exact h
    | stopped => exact h
    | following cursor due =>
      cases waits with
      | false => exact h
      | true =>
        unfold Post.woken
        dsimp only
        split <;> exact h
  have hhistory : after.history = vigil.history ++ [] := by rw [hhistory, List.append_nil]
  refine hnext.told hlog hcursor hhistory ?_
  rw [hhistory, List.append_nil]
  exact hnumbered

/-- Listed targets are added. -/
theorem stance_filing {requests grants : MemoryStore} {targets : List Target} {now : Nat}
    (hcut : cut = 0) (hfollowing : Following after.log after.history requests grants
      (Sighting.start requests grants) (Sighting.start requests grants) cut targets)
    (hcursor : after.cursor =
      (Post.filing pace (Sighting.start requests grants) now targets).cursor?) :
    Stance after cut (Post.filing pace (Sighting.start requests grants) now targets) := by
  cases targets with
  | nil => exact ⟨hcursor, requests, grants, hfollowing⟩
  | cons target targets => exact ⟨hcut, hcursor, requests, grants, rfl, hfollowing⟩

/-- A page is done with. -/
theorem stance_closing {due : Nat}
    (hpaged : Paged after.log after.history cut cursor page [] true)
    (hcursor : after.cursor = (Post.closing pace page cursor due).cursor?.or (some cursor)) :
    Stance after cut (Post.closing pace page cursor due) := by
  unfold Post.closing at hcursor ⊢
  split
  · next hempty =>
    rw [if_pos hempty] at hcursor
    obtain ⟨requests, grants, -, hfollowing⟩ := hpaged.following
    exact ⟨hcursor, requests, grants, hfollowing⟩
  · next hchanges =>
    rw [if_neg hchanges] at hcursor
    exact ⟨hcursor, hpaged⟩

/-- The targets of a page are added. -/
theorem stance_routing {due : Nat} {targets : List Target}
    (hpaged : Paged after.log after.history cut cursor page targets false)
    (hcursor : after.cursor =
      (Post.routing pace page cursor due targets).cursor?.or (some cursor)) :
    Stance after cut (Post.routing pace page cursor due targets) := by
  cases targets with
  | cons target targets => exact ⟨hcursor, hpaged⟩
  | nil =>
    unfold Post.routing at hcursor ⊢
    dsimp only at hcursor ⊢
    split
    · next htouches =>
      rw [if_pos htouches] at hcursor
      exact ⟨hcursor, hpaged⟩
    · next htouches =>
      rw [if_neg htouches] at hcursor
      exact stance_closing (hpaged.settled fun h => absurd h htouches) hcursor

/-- What the store answers to the watcher. -/
theorem Served.of_store {call : StoreCall} {reply : call.Reply}
    (h : Served regime vigil (.store call) reply after) :
    reply = (vigil.store.perform .epoch "" call).1 ∧ after = (vigil.perform .epoch "" call).2 ∨
      ∃ failure, regime.refuses failure = true ∧ reply = .error failure ∧ after = vigil := by
  cases h with
  | performed => exact .inl ⟨rfl, rfl⟩
  | refused _ hrefuses => exact .inr ⟨_, hrefuses, rfl, rfl⟩

/-- A call that only looks is answered with what is there, or refused, and changes nothing. -/
theorem Served.of_look {call : StoreCall} {reply : call.Reply} (hkept : Kept vigil cut)
    (hlook : (vigil.store.perform .epoch "" call).2 = vigil.store)
    (h : Served regime vigil (.store call) reply after) :
    after = vigil ∧ (reply = (vigil.store.perform .epoch "" call).1 ∨
      ∃ failure, regime.refuses failure = true ∧ reply = .error failure) := by
  rcases h.of_store with ⟨hreply, rfl⟩ | ⟨failure, hrefuses, hreply, rfl⟩
  · exact ⟨hkept.perform_of_same hlook, .inl hreply⟩
  · exact ⟨rfl, .inr ⟨failure, hrefuses, hreply⟩⟩

/-- Adding a target and publishing the policies leave the store alone. -/
theorem Served.of_enqueue {target : Target} {reply : Unit}
    (h : Served regime vigil (.enqueue target) reply after) : after = vigil := by
  cases h with
  | filed => rfl

theorem Served.of_publish {policies : List Policy} {reply : Nat}
    (h : Served regime vigil (.replacePolicies policies) reply after) :
    after = { vigil with snapshot := vigil.snapshot.replace policies } := by
  cases h with
  | published => rfl

/-- A deed that concerns neither targets nor changes. -/
def Quiet (deed : Deed watchInterface) : Prop :=
  ∀ store, (Sighting.mk store deed).target? = none ∧ (Sighting.mk store deed).changes = []

theorem Early.heard (h : Early vigil cut) {deed : Deed watchInterface} (hdeed : Quiet deed)
    (hlog : after.log = ⟨vigil.store, deed⟩ :: vigil.log)
    (hcursor : after.cursor = vigil.cursor) : Early after cut where
  uncut := h.uncut
  filed := by
    rw [hlog]
    change Sighting.filed vigil.log ++ (Sighting.mk vigil.store deed).target?.toList = []
    rw [h.filed, (hdeed _).1]
    rfl
  readings := by
    rw [hlog]
    change Sighting.readings vigil.log ++ (Sighting.mk vigil.store deed).changes = []
    rw [h.readings, (hdeed _).2]
    rfl
  cursor := hcursor.trans h.cursor

theorem UpToDate.heard (h : UpToDate vigil.log vigil.history cut cursor)
    {deed : Deed watchInterface} (hdeed : Quiet deed)
    (hlog : after.log = ⟨vigil.store, deed⟩ :: vigil.log)
    (hhistory : after.history = vigil.history) : UpToDate after.log after.history cut cursor := by
  obtain ⟨requests, grants, hfollowing⟩ := h
  rw [hlog, hhistory]
  exact ⟨requests, grants, hfollowing.heard (hdeed _).1 (hdeed _).2⟩

/-- An answer shows what was there: a refusal answers nothing. -/
theorem eq_of_answered {α : Type} {told there : α}
    (h : (.ok told : Except Failure α) = .ok there ∨
      ∃ failure, regime.refuses failure = true ∧ (.ok told : Except Failure α) = .error failure) :
    told = there := by
  rcases h with h | ⟨failure, -, h⟩
  · exact Except.ok.inj h
  · cases h

/-- The grants have been listed as well: what is to be added is what the two listings hold. -/
theorem Stance.listed {now : Nat} {listing : KeyListing}
    (h : Stance vigil cut (.listGrants now listing))
    (hlog : after.log = Sighting.listing vigil.store .grant :: vigil.log)
    (hhistory : after.history = vigil.history)
    (hcursor : after.cursor = (Post.filing pace
      (min listing.cursor (vigil.store.listKeys .grant).cursor) now
      (listing.keys.map Target.request ++ (vigil.store.listKeys .grant).keys.map Target.grant)
      ).cursor?.or vigil.cursor) :
    Stance after cut (Post.filing pace (min listing.cursor (vigil.store.listKeys .grant).cursor) now
      (listing.keys.map Target.request ++
        (vigil.store.listKeys .grant).keys.map Target.grant)) := by
  obtain ⟨hearly, requests, earlier, hlisted, rfl, hlast⟩ := h
  have hfiled : Sighting.filed vigil.log = Sighting.filed earlier ++ [] := by rw [hlisted]; rfl
  have hreadings : Sighting.readings vigil.log = Sighting.readings earlier ++ [] := by
    rw [hlisted]
    rfl
  rw [hearly.filed, List.append_nil] at hfiled
  rw [hearly.readings, List.append_nil] at hreadings
  have hfollowing : Following after.log after.history requests vigil.store
      (Sighting.start requests vigil.store) (Sighting.start requests vigil.store) cut
      (Sighting.targets requests vigil.store) := by
    rw [hlog, hhistory, hlisted, hearly.uncut]
    exact .listed hfiled.symm hreadings.symm hlast
  refine stance_filing hearly.uncut hfollowing ?_
  rw [hcursor, hearly.cursor]
  exact Option.or_none

/-- A page has been read: what is to be added is what the page tells of. -/
theorem Stance.paged {due limit : Nat} (hkept : Kept vigil cut)
    (h : Stance vigil cut (.read cursor due))
    (hlog : after.log = ⟨vigil.store, .store (.changesSince cursor limit),
      .ok (vigil.store.changesSince cursor limit)⟩ :: vigil.log)
    (hhistory : after.history = vigil.history)
    (hcursor : after.cursor = (Post.routing pace (vigil.store.changesSince cursor limit) cursor due
      (Watch.targetsOf (vigil.store.changesSince cursor limit).changes)).cursor?.or vigil.cursor) :
    Stance after cut (Post.routing pace (vigil.store.changesSince cursor limit) cursor due
      (Watch.targetsOf (vigil.store.changesSince cursor limit).changes)) := by
  obtain ⟨hposition, requests, grants, hfollowing⟩ := h
  have hreach := hfollowing.reach_le
  have hlength := hkept.length
  obtain ⟨hnext, hchanges⟩ := hkept.changesSince hfollowing.cut_le hreach limit
  rw [← hnext] at hchanges
  have hle : cursor ≤ (vigil.store.changesSince cursor limit).nextCursor := by
    rw [hnext]
    omega
  rw [hposition] at hcursor
  refine stance_routing ⟨hle, ?_, List.suffix_refl _, requests, grants, hfollowing.start_le, ?_⟩
    hcursor
  · rw [hhistory]
    exact hchanges
  · rw [hlog, hhistory]
    refine hfollowing.paged hkept.numbered hle ?_ rfl hchanges
    rw [hnext]
    omega

/-- The policies have been asked for: what the page tells of them is settled, whatever the
answer. -/
theorem Stance.reviewed {policies : List Policy} {errand : Errand} (hkept : Kept vigil cut)
    (h : Stance vigil cut (.review errand)) {reply : Except Failure (List Policy)}
    (hlog : after.log = ⟨vigil.store, .store .listPolicies, reply⟩ :: vigil.log)
    (hhistory : after.history = vigil.history) (hcursor : after.cursor = vigil.cursor) :
    Stance after cut (.publish policies errand) := by
  have hquiet : Quiet ⟨.store .listPolicies, reply⟩ := fun _ => ⟨rfl, rfl⟩
  cases errand with
  | start => exact Early.heard h hquiet hlog hcursor
  | page page cursor due =>
    obtain ⟨hposition, hpaged⟩ := h
    obtain ⟨requests, grants, -, hfollowing⟩ := hpaged.following
    have hreach := hfollowing.reach_le
    rw [hkept.length] at hreach
    refine ⟨hcursor.trans hposition, ?_⟩
    rw [hlog, hhistory]
    exact (hpaged.heard (hquiet _).1 (hquiet _).2).settled fun _ =>
      ⟨_, List.mem_cons_self, rfl, hreach⟩
  | pause cursor due =>
    obtain ⟨hposition, huptodate⟩ := h
    exact ⟨hcursor.trans hposition, UpToDate.heard huptodate hquiet hlog hhistory⟩

/-- The policies have been published, which tells nothing of targets and changes. -/
theorem Stance.published {policies : List Policy} {errand : Errand} {version : Nat}
    (h : Stance vigil cut (.publish policies errand))
    (hlog : after.log = ⟨vigil.store, .replacePolicies policies, version⟩ :: vigil.log)
    (hhistory : after.history = vigil.history) (hcursor : after.cursor = vigil.cursor) :
    Stance after cut (.publish policies errand) := by
  have hquiet : Quiet ⟨.replacePolicies policies, version⟩ := fun _ => ⟨rfl, rfl⟩
  cases errand with
  | start => exact Early.heard h hquiet hlog hcursor
  | page page cursor due =>
    obtain ⟨hposition, hpaged⟩ := h
    refine ⟨hcursor.trans hposition, ?_⟩
    rw [hlog, hhistory]
    exact hpaged.heard (hquiet _).1 (hquiet _).2
  | pause cursor due =>
    obtain ⟨hposition, huptodate⟩ := h
    exact ⟨hcursor.trans hposition, UpToDate.heard huptodate hquiet hlog hhistory⟩

/-- The watcher is done with the policies, and goes on with what it read them for. -/
theorem Stance.onward {policies : List Policy} {errand : Errand}
    (h : Stance vigil cut (.publish policies errand)) (passed : Bool)
    (hlog : after.log = vigil.log) (hhistory : after.history = vigil.history)
    (hcursor : after.cursor = (Post.onward pace passed errand).cursor?.or vigil.cursor) :
    Stance after cut (Post.onward pace passed errand) := by
  cases errand with
  | start =>
    have hearly : Early after cut := by
      refine ⟨h.uncut, ?_, ?_, ?_⟩
      · rw [hlog, h.filed]
      · rw [hlog, h.readings]
      · cases passed <;> exact hcursor.trans h.cursor
    cases passed <;> exact hearly
  | page page cursor due =>
    obtain ⟨hposition, hpaged⟩ := h
    rw [hposition] at hcursor
    refine stance_closing ?_ hcursor
    rw [hlog, hhistory]
    exact hpaged
  | pause cursor due =>
    obtain ⟨-, huptodate⟩ := h
    refine ⟨hcursor, ?_⟩
    rw [hlog, hhistory]
    exact huptodate

/-- What has been read is cut off, or could not be. -/
theorem Stance.compacted {latest : Vigil} {due : Nat} {waits : Bool} {reply : Except Failure Nat}
    (hkept : Kept vigil cut) (h : Stance vigil cut (.cut page cursor due))
    (hserved : Served regime vigil (.store (.compact page.nextCursor)) reply after)
    (hlog : latest.log = ⟨vigil.store, .store (.compact page.nextCursor), reply⟩ :: vigil.log)
    (hhistory : latest.history = after.history) (hcursor : latest.cursor = some page.nextCursor) :
    ∃ cut', Kept after cut' ∧ after.store.Agrees vigil.store ∧
      after.store.lastSequence = vigil.store.lastSequence ∧ after.history = vigil.history ∧
      Stance latest cut' (.idle (.following page.nextCursor due) waits) := by
  obtain ⟨-, hpaged⟩ := h
  have hquiet : Quiet ⟨.store (.compact page.nextCursor), reply⟩ := fun _ => ⟨rfl, rfl⟩
  obtain ⟨requests, grants, -, hfollowing⟩ := (hpaged.heard (hquiet vigil.store).1
    (hquiet vigil.store).2).following
  rw [if_pos rfl] at hfollowing
  rcases hserved.of_store with ⟨-, rfl⟩ | ⟨failure, -, -, rfl⟩
  · obtain ⟨hleft, hkept'⟩ := hkept.compact hfollowing.cut_le hfollowing.reach_le .epoch ""
    refine ⟨page.nextCursor, hkept', fun kind _ => by cases kind <;> rfl, rfl, hleft, hcursor,
      requests, grants, ?_⟩
    rw [hlog, hhistory, hleft]
    exact hfollowing.compacted
  · refine ⟨cut, hkept, fun _ _ => rfl, rfl, rfl, hcursor, requests, grants, ?_⟩
    rw [hlog, hhistory]
    exact hfollowing

/-- **What is true where the watcher stands is true after every answer**, save that the feed may
have been cut. -/
theorem Stance.advanced {effect : WatchEffect} {reply : watchInterface.Reply effect}
    {latest : Vigil} {onward : Post} (hkept : Kept vigil cut) (h : Stance vigil cut post)
    (hstep : Post.Step regime.pace post effect reply onward)
    (hserved : Served regime vigil effect reply after)
    (hlog : latest.log = ⟨vigil.store, effect, reply⟩ :: vigil.log)
    (hhistory : latest.history = after.history)
    (hcursor : latest.cursor = onward.cursor?.or vigil.cursor) :
    ∃ cut', Kept after cut' ∧ after.store.Agrees vigil.store ∧
      after.store.lastSequence = vigil.store.lastSequence ∧ after.history = vigil.history ∧
      Stance latest cut' onward := by
  -- Where nothing is cut off.
  have hsame (heq : after = vigil) (hstance : latest.history = vigil.history →
      Stance latest cut onward) : ∃ cut', Kept after cut' ∧ after.store.Agrees vigil.store ∧
        after.store.lastSequence = vigil.store.lastSequence ∧ after.history = vigil.history ∧
        Stance latest cut' onward := by
    subst heq
    exact ⟨cut, hkept, fun _ _ => rfl, rfl, rfl, hstance hhistory⟩
  cases hstep with
  | requests now listing =>
    obtain ⟨hafter, hreply⟩ := hserved.of_look hkept rfl
    refine hsame hafter fun hhistory => ?_
    obtain rfl : listing = vigil.store.listKeys .request := eq_of_answered hreply
    have hlast : vigil.store.lastSequence = latest.history.length := by
      rw [hhistory, hkept.length]
    exact ⟨Early.heard h (fun _ => ⟨rfl, rfl⟩) hlog hcursor, vigil.store, vigil.log, hlog, rfl,
      Nat.le_of_eq hlast⟩
  | noRequests now failure =>
    obtain ⟨hafter, -⟩ := hserved.of_look hkept rfl
    exact hsame hafter fun _ => Early.heard h (fun _ => ⟨rfl, rfl⟩) hlog hcursor
  | grants now listing found =>
    obtain ⟨hafter, hreply⟩ := hserved.of_look hkept rfl
    obtain rfl : found = vigil.store.listKeys .grant := eq_of_answered hreply
    exact hsame hafter fun hhistory => h.listed hlog hhistory hcursor
  | noGrants now requests failure =>
    obtain ⟨hafter, -⟩ := hserved.of_look hkept rfl
    exact hsame hafter fun _ => Early.heard h.1 (fun _ => ⟨rfl, rfl⟩) hlog hcursor
  | filed target targets cursor now =>
    refine hsame hserved.of_enqueue fun hhistory => ?_
    obtain ⟨huncut, hposition, requests, grants, rfl, hfollowing⟩ := h
    refine stance_filing huncut ?_ ?_
    · rw [hlog, hhistory]
      exact hfollowing.added rfl rfl
    · rw [hcursor, hposition]
      exact Option.or_none
  | page cursor due page =>
    obtain ⟨hafter, hreply⟩ := hserved.of_look hkept rfl
    obtain rfl : page = vigil.store.changesSince cursor regime.pace.batchSize :=
      eq_of_answered hreply
    exact hsame hafter fun hhistory => h.paged hkept hlog hhistory hcursor
  | noPage cursor due failure =>
    obtain ⟨hafter, -⟩ := hserved.of_look hkept rfl
    refine hsame hafter fun hhistory => ⟨hcursor, ?_⟩
    obtain ⟨-, huptodate⟩ := h
    exact UpToDate.heard huptodate (fun _ => ⟨rfl, rfl⟩) hlog hhistory
  | routed target targets page cursor due =>
    refine hsame hserved.of_enqueue fun hhistory => ?_
    obtain ⟨hposition, hpaged⟩ := h
    rw [hposition] at hcursor
    refine stance_routing ?_ hcursor
    rw [hlog, hhistory]
    exact hpaged.added rfl rfl
  | policies errand policies =>
    obtain ⟨hafter, -⟩ := hserved.of_look hkept rfl
    exact hsame hafter fun hhistory => h.reviewed hkept hlog hhistory hcursor
  | noPolicies errand failure =>
    obtain ⟨hafter, -⟩ := hserved.of_look hkept rfl
    refine hsame hafter fun hhistory => ?_
    have hreviewed : Stance { latest with cursor := vigil.cursor } cut (.publish [] errand) :=
      h.reviewed hkept hlog hhistory rfl
    exact hreviewed.onward false rfl rfl hcursor
  | published policies errand version =>
    have hafter := hserved.of_publish
    subst hafter
    have hpublished : Stance { latest with cursor := vigil.cursor } cut
        (.publish policies errand) := h.published hlog hhistory rfl
    exact ⟨cut, hkept.of_same rfl rfl, fun _ _ => rfl, rfl, rfl,
      hpublished.onward true rfl rfl hcursor⟩
  | cut page cursor due reply => exact h.compacted hkept hserved hlog hhistory hcursor

end Steps

/-- The watcher does something: it keeps its books, and leaves the objects alone. -/
theorem Watched.advanced {post onward : Post} (h : Watched vigil cut post) {effect : WatchEffect}
    {reply : watchInterface.Reply effect} {after : Vigil}
    (hstep : Post.Step regime.pace post effect reply onward)
    (hserved : Served regime vigil effect reply after) :
    after.history = vigil.history ∧ after.store.Agrees vigil.store ∧
      ∃ cut, Watched (after.advance vigil ⟨effect, reply⟩ (onward.program regime.pace)) cut
        onward := by
  have hcursor : (after.advance vigil ⟨effect, reply⟩ (onward.program regime.pace)).cursor =
      onward.cursor?.or vigil.cursor :=
    congrArg (Option.or · vigil.cursor) onward.cursor?_program
  have hlog : (after.advance vigil ⟨effect, reply⟩ (onward.program regime.pace)).log =
      ⟨vigil.store, effect, reply⟩ :: vigil.log := rfl
  obtain ⟨cut', hkept, hagrees, hlast, hhistory, hstance⟩ :=
    h.stance.advanced h.kept hstep hserved hlog rfl hcursor
  exact ⟨hhistory, hagrees, cut', hkept.of_same rfl rfl, h.logged.advanced hagrees hlast hhistory,
    hstance⟩

/-- **In every run, the watcher keeps its books.** -/
theorem Stands.watched {post : Post} (h : Stands regime vigil post) :
    ∃ cut, Watched vigil cut post := by
  induction h with
  | start =>
    have hnone (kind : Kind) (key : Key) : ({} : MemoryStore).find? kind key = none := by
      cases kind <;> rfl
    refine ⟨0, ⟨?_, rfl, rfl, Nat.le_refl _, rfl⟩, ⟨.nil, ?_, ?_⟩, ⟨rfl, rfl, rfl, rfl⟩⟩
    · intro kind key object hobject
      rw [hnone] at hobject
      cases hobject
    · exact fun sighting hsighting => by cases hsighting
    · exact fun sighting kind key hsighting => by cases hsighting
  | called now uid _ huncut ih =>
    obtain ⟨cut, hkept, hlogged, hstance⟩ := ih
    obtain ⟨news, hhistory, -, hkept'⟩ := hkept.perform now uid huncut
    exact ⟨cut, hkept', hlogged.called hkept now uid huncut,
      hstance.told rfl rfl hhistory hkept'.numbered⟩
  | woken now _ ih =>
    obtain ⟨cut, hkept, hlogged, hstance⟩ := ih
    exact ⟨cut, hkept.of_same rfl rfl, ⟨hlogged.ordered, hlogged.last, hlogged.told⟩,
      hstance.woken now rfl rfl rfl hkept.numbered⟩
  | advanced _ hstep hserved ih =>
    obtain ⟨cut, hwatched⟩ := ih
    exact (hwatched.advanced hstep hserved).2.2

end Vigil

end AccessBroker
