import AccessBroker.Proofs.Store.History
import AccessBroker.Proofs.Store.Versions
import Mathlib.Algebra.BigOperators.Group.List.Basic
import Mathlib.Algebra.Ring.Nat
import Mathlib.Data.List.TakeWhile

/-!
# The feed is a faithful log

Any clients call the store in memory, in any order. What their calls have told, one after the other,
is a chronicle (`AccessBroker.MemoryStore.chronicle`), of which the feed is what was not cut off.

A call that fails leaves the objects and the feed as they are. A call that succeeds tells of the
object that it wrote or removed, and of each role and binding that went with a removed object, once
and of nothing else (`AccessBroker.MemoryStore.Accounted`); which roles and bindings these are is
said by what was stored before, without the cascade (`AccessBroker.MemoryStore.mem_collected`). The
cutting of the feed drops what is not beyond a position, and counts it.

A reader goes on from where its last page has ended, while anybody calls the store
(`AccessBroker.MemoryStore.Reading`). As long as nothing beyond its position is cut off, what it has
read and what it has still to read are what follows the position from which it began.
-/

namespace AccessBroker

namespace MemoryStore

open AccessBroker.Time

variable {kind other : Kind} {key : Key} {store after : MemoryStore} {now : Instant} {uid : String}

/-! ### What goes with an object -/

/-- The objects of a kind that name an owner are those that are found. -/
theorem mem_ownedBy {owner : String} {owned : Object kind} :
    owned ∈ store.ownedBy kind owner ↔
      ∃ key, store.find? kind key = some owned ∧ owned.metadata.isOwnedBy owner = true := by
  rw [ownedBy, List.mem_filter, Table.values, List.mem_map]
  constructor
  · rintro ⟨⟨⟨key, object⟩, hentry, rfl⟩, howned⟩
    exact ⟨key, Table.mem_entries_iff.1 hentry, howned⟩
  · rintro ⟨key, hfound, howned⟩
    exact ⟨⟨(key, owned), Table.mem_entries_iff.2 hfound, rfl⟩, howned⟩

/-- **What is told of the collected objects** is what was stored under other keys and names the
object as an owner. -/
theorem mem_collected {object : Object kind} {mention : Kind × Key × Option String} :
    mention ∈ store.collected object ↔
      ∃ (other : Kind) (key : Key) (owned : Object other), other.isOwned = true ∧
        ¬(other = kind ∧ key = object.key) ∧ store.find? other key = some owned ∧
        owned.metadata.isOwnedBy object.metadata.uid = true ∧ mention = owned.mention := by
  have hkind (other : Kind) : mention ∈ ((store.erased object).ownedBy other
        object.metadata.uid).map Object.mention ↔
      ∃ (key : Key) (owned : Object other), ¬(other = kind ∧ key = object.key) ∧
        store.find? other key = some owned ∧
        owned.metadata.isOwnedBy object.metadata.uid = true ∧ mention = owned.mention := by
    rw [List.mem_map]
    constructor
    · rintro ⟨owned, howned, rfl⟩
      obtain ⟨key, hfound, howned⟩ := mem_ownedBy.1 howned
      rcases find?_erased_or store object other key with ⟨hsame, hplace⟩ | ⟨-, -, hgone⟩
      · refine ⟨key, owned, ?_, hsame.symm.trans hfound, howned, rfl⟩
        rintro ⟨hkind, hkey⟩
        exact hplace.elim (absurd hkind) (absurd hkey)
      · rw [hgone] at hfound
        cases hfound
    · rintro ⟨key, owned, hplace, hfound, howned, rfl⟩
      rcases find?_erased_or store object other key with ⟨hsame, -⟩ | ⟨hkind, hkey, -⟩
      · exact ⟨owned, mem_ownedBy.2 ⟨key, hsame.trans hfound, howned⟩, rfl⟩
      · exact absurd ⟨hkind, hkey⟩ hplace
  rw [collected, List.mem_append, hkind, hkind]
  constructor
  · rintro (⟨key, owned, hmention⟩ | ⟨key, owned, hmention⟩)
    · exact ⟨.role, key, owned, rfl, hmention⟩
    · exact ⟨.binding, key, owned, rfl, hmention⟩
  · rintro ⟨other, key, owned, howned, hmention⟩
    cases other with
    | role => exact .inl ⟨key, owned, hmention⟩
    | binding => exact .inr ⟨key, owned, hmention⟩
    | request | response | policy | grant => cases howned

theorem nodup_ownedBy (hkeyed : store.Keyed) (kind : Kind) (owner : String) :
    ((store.ownedBy kind owner).map Object.mention).Nodup := by
  have hentries : (store.table kind).entries.Pairwise fun first second =>
      first.2.mention ≠ second.2.mention := by
    refine (store.table kind).ascending.imp_of_mem
      fun {first second} hfirst hsecond hless hsame => ?_
    have hkey {entry : Key × Object kind} (hentry : entry ∈ (store.table kind).entries) :
        entry.2.key = entry.1 :=
      hkeyed kind entry.1 entry.2 (Table.mem_entries_iff.1 hentry)
    have hsame : first.2.key = second.2.key := (Prod.mk.inj (Prod.mk.inj hsame).2).1
    rw [hkey hfirst, hkey hsecond] at hsame
    rw [hsame, Std.ReflOrd.compare_self] at hless
    cases hless
  rw [List.Nodup, List.pairwise_map]
  exact List.Pairwise.filter _ (List.pairwise_map.2 hentries : (store.table kind).values.Pairwise _)

/-- **Each collected object is told of once.** -/
theorem nodup_collected (hkeyed : store.Keyed) (object : Object kind) :
    (store.collected object).Nodup := by
  refine List.nodup_append.2 ⟨nodup_ownedBy (hkeyed.erased object) _ _,
    nodup_ownedBy (hkeyed.erased object) _ _, fun first hfirst second hsecond hsame => ?_⟩
  obtain ⟨role, -, rfl⟩ := List.mem_map.1 hfirst
  obtain ⟨binding, -, rfl⟩ := List.mem_map.1 hsecond
  cases hsame

/-- **What is left after a removal**: everything but the object itself and what names it as an
owner. -/
theorem find?_drop (store : MemoryStore) (object : Object kind) (other : Kind) (key : Key) :
    (store.drop object).find? other key =
      if other = kind ∧ key = object.key then none
      else (store.find? other key).filter fun left =>
        !(other.isOwned && left.metadata.isOwnedBy object.metadata.uid) := by
  have herased : (store.drop object).find? other key =
      ((store.erased object).find? other key).filter fun left =>
        !(other.isOwned && left.metadata.isOwnedBy object.metadata.uid) := by
    cases howned : other.isOwned with
    | false =>
      have hfree : (store.drop object).find? other key = (store.erased object).find? other key :=
        find?_drop_of_not_isOwned _ _ howned
      rw [hfree]
      cases (store.erased object).find? other key <;> rfl
    | true => exact find?_drop_of_isOwned _ _ howned
  rw [herased]
  rcases find?_erased_or store object other key with ⟨hsame, hplace⟩ | ⟨hkind, hkey, hgone⟩
  · rw [hsame, if_neg fun hplace' => hplace.elim (absurd hplace'.1) (absurd hplace'.2)]
  · rw [hgone, if_pos ⟨hkind, hkey⟩, Option.filter_none]

/-! ### What a call has done -/

/-- An object was written, everything else has stayed, and just the write is told of. -/
structure Wrote (store after : MemoryStore) (object : Object kind) : Prop where
  stored : after.find? kind object.key = some object
  others (other : Kind) (key : Key) : ¬(other = kind ∧ key = object.key) →
    after.find? other key = store.find? other key
  told : ∃ news, Tells store after news ∧ news.map Change.mention = [object.mention]

/-- An object was removed and with it the roles and bindings that name it as an owner, everything
else has stayed, and the feed tells of the object and of each of them once. -/
structure Removed (store after : MemoryStore) (object : Object kind) : Prop where
  found : ∃ stored, store.find? kind object.key = some stored ∧
    stored.metadata.uid = object.metadata.uid
  left (other : Kind) (key : Key) : after.find? other key =
    if other = kind ∧ key = object.key then none
    else (store.find? other key).filter fun left =>
      !(other.isOwned && left.metadata.isOwnedBy object.metadata.uid)
  told : ∃ news gone, Tells store after news ∧ news.map Change.mention = object.mention :: gone ∧
    gone.Nodup ∧ ∀ mention, mention ∈ gone ↔
      ∃ (other : Kind) (key : Key) (owned : Object other), other.isOwned = true ∧
        ¬(other = kind ∧ key = object.key) ∧ store.find? other key = some owned ∧
        owned.metadata.isOwnedBy object.metadata.uid = true ∧ mention = owned.mention

/-- What a successful call has done. -/
def Done (now : Instant) (store after : MemoryStore) : (call : StoreCall) → call.Result → Prop
  | .find _ _, _ | .listPolicies, _ | .listResponses _ _, _ | .listKeys _, _
  | .changesSince _ _, _ => after = store
  | .create kind object, created =>
    created.key = object.key ∧ store.find? kind object.key = none ∧ Wrote store after created
  | .savePolicy policy, saved => saved.key = policy.key ∧ Wrote store after saved
  | .patchStatus _ base _, patched => patched.key = base.key ∧ Wrote store after patched
  | .updateMetadata _ object, updated => updated.key = object.key ∧
    if updated.isSpent = true then Removed store after updated else Wrote store after updated
  | .delete kind key, _ => ∃ stored, store.find? kind key = some stored ∧ stored.key = key ∧
    if stored.metadata.finalizers = [] then Removed store after stored
    else Wrote store after (stored.marked now (store.version + 1))
  | .compact through, count => ∃ dropped, store.changes = dropped ++ after.changes ∧
    dropped.length = count ∧ (∀ change ∈ dropped, change.sequence ≤ through) ∧
    (∀ change ∈ after.changes, through < change.sequence) ∧ after.Agrees store ∧
    after.lastSequence = store.lastSequence

/-- What a call has done to the objects and to the feed: nothing if it has failed. -/
def Accounted (now : Instant) (store after : MemoryStore) : (call : StoreCall) → call.Reply → Prop
  | _, .error _ => after.Agrees store ∧ after.changes = store.changes ∧
    after.lastSequence = store.lastSequence
  | call, .ok value => Done now store after call value

theorem wrote_put (store : MemoryStore) (object : Object kind) :
    Wrote store (store.renewed.put object) object := by
  refine ⟨by rw [find?_put, if_pos rfl], fun other key hplace => ?_,
    _, (tells_put store.renewed object).of_renewed, rfl⟩
  by_cases hkind : other = kind
  · subst hkind
    rw [find?_put, if_neg fun hkey => hplace ⟨rfl, hkey⟩, find?_renewed]
  · rw [find?_put_of_ne _ _ hkind, find?_renewed]

theorem removed_drop (hkeyed : store.Keyed) {object stored : Object kind}
    (hfound : store.find? kind object.key = some stored)
    (huid : stored.metadata.uid = object.metadata.uid) :
    Removed store (store.renewed.drop object) object := by
  have hkeyed' : store.renewed.Keyed := hkeyed.of_left fun _ _ _ hfound =>
    (find?_renewed store).symm.trans hfound
  obtain ⟨news, htells, htold⟩ := tells_drop hkeyed' object
  refine ⟨⟨stored, hfound, huid⟩, fun other key => ?_, _, store.renewed.collected object,
    htells.of_renewed, congrArg (object.mention :: ·) htold, nodup_collected hkeyed' object,
    fun mention => ?_⟩
  · rw [find?_drop, find?_renewed]
  · simp only [mem_collected, find?_renewed]

/-- A call that fails has at most given out a version. -/
theorem eq_of_perform_error {call : StoreCall} {failure : Failure}
    (h : (store.perform now uid call).1 = .error failure) :
    (store.perform now uid call).2 = store ∨ (store.perform now uid call).2 = store.renewed := by
  cases call with
  | find | listPolicies | listResponses | listKeys | changesSince => exact .inl rfl
  | compact => cases h
  | create =>
    simp only [perform, create] at h ⊢
    split at h
    · exact .inr rfl
    · cases h
  | savePolicy =>
    simp only [perform, savePolicy] at h ⊢
    split at h
    · exact .inl rfl
    · cases h
  | updateMetadata =>
    simp only [perform, updateMetadata] at h ⊢
    split at h
    · exact .inr rfl
    · cases h
  | patchStatus =>
    simp only [perform, patchStatus] at h ⊢
    split at h
    · exact .inr rfl
    · cases h
  | delete =>
    simp only [perform, delete] at h ⊢
    split at h
    · exact .inr rfl
    · split at h <;> cases h

/-- **A successful write** is told of, and so is what it took along. -/
theorem Performed.done {call : StoreCall} {value : call.Result}
    (h : Performed now uid store call (.ok value) after) (hkeyed : store.Keyed)
    (hwrite : call.place?.isSome = true) : Done now store after call value := by
  cases h with
  | found | heard => cases hwrite
  | @surveyed call _ _ hsurvey => cases call <;> cases hsurvey <;> cases hwrite
  | created hvacant => exact ⟨rfl, hvacant, wrote_put _ _⟩
  | declared | replaced => exact ⟨rfl, wrote_put _ _⟩
  | linked hfound _ hunspent =>
    have hplace := hkeyed _ _ _ hfound
    refine ⟨hplace, ?_⟩
    rw [if_neg (by rw [hunspent]; decide)]
    exact wrote_put _ _
  | released hfound _ hspent =>
    have hplace := hkeyed _ _ _ hfound
    refine ⟨hplace, ?_⟩
    rw [if_pos hspent]
    rw [← hplace] at hfound
    exact removed_drop hkeyed hfound rfl
  | patched hfound =>
    have hplace := hkeyed _ _ _ hfound
    exact ⟨hplace, wrote_put _ _⟩
  | marked hfound hheld =>
    refine ⟨_, hfound, hkeyed _ _ _ hfound, ?_⟩
    rw [if_neg hheld]
    exact wrote_put _ _
  | removed hfound hfree =>
    have hplace := hkeyed _ _ _ hfound
    refine ⟨_, hfound, hplace, ?_⟩
    rw [if_pos hfree]
    rw [← hplace] at hfound
    exact removed_drop hkeyed hfound rfl

variable {history : List Change} {cut : Nat}

/-- **The cutting of the feed** drops what is not beyond the position, and counts it. -/
theorem Kept.done_compact (h : Kept store history cut) (now : Instant) (through : Nat) :
    Done now store (store.compact through).2 (.compact through) (store.compact through).1 := by
  refine ⟨_, List.takeWhile_append_dropWhile.symm, rfl, fun change hchange => ?_,
    fun change hchange => ?_, fun kind _ => by cases kind <;> rfl, rfl⟩
  · simpa using List.mem_takeWhile_imp hchange
  · have hleft : change ∈ history.drop (max cut through) := h.dropWhile through ▸ hchange
    rw [← h.numbered.later_eq, Change.later, List.mem_filter, decide_eq_true_eq] at hleft
    omega

/-- **Every call does what it answers**, and the feed tells of it. -/
theorem Kept.accounted (h : Kept store history cut) (now : Instant) (uid : String)
    (call : StoreCall) :
    Accounted now store (store.perform now uid call).2 call (store.perform now uid call).1 := by
  have hwrite {value : call.Result} (hplace : call.place?.isSome = true)
      (hreply : (store.perform now uid call).1 = .ok value) :
      Done now store (store.perform now uid call).2 call value :=
    (hreply ▸ performed_perform now uid store call).done h.keyed hplace
  cases hreply : (store.perform now uid call).1 with
  | error failure =>
    rcases eq_of_perform_error hreply with hafter | hafter
    · rw [hafter]
      exact ⟨fun _ _ => rfl, rfl, rfl⟩
    · rw [hafter]
      exact ⟨store.agrees_renewed, rfl, rfl⟩
  | ok value =>
    cases call with
    | find | listPolicies | listResponses | listKeys | changesSince => exact rfl
    | create | savePolicy | updateMetadata | patchStatus | delete => exact hwrite rfl hreply
    | compact through =>
      obtain rfl := Except.ok.inj hreply
      exact h.done_compact now through

/-! ### The chronicle -/

/-- All changes that the calls of a log have told, oldest first. -/
def chronicle : List Entry → List Change
  | [] => []
  | entry :: before => chronicle before ++ (afterLog before).newsSince entry.after

variable {log : List Entry} {seen : List Change} {start cursor : Nat}

/-- **The feed is what is left of the chronicle.** -/
theorem Log.kept (h : Log log) : ∃ cut, (afterLog log).Kept (chronicle log) cut := by
  induction h with
  | start =>
    exact ⟨0, versioned_empty.keyed, rfl, rfl, Nat.le_refl _, rfl⟩
  | @call log _ now uid call ih =>
    obtain ⟨cut, hkept⟩ := ih
    by_cases hcall : ∃ through, call = .compact through
    · obtain ⟨through, rfl⟩ := hcall
      obtain ⟨hnone, hkept⟩ := hkept.compact through
      have hchronicle : chronicle (.made now uid (afterLog log) (.compact through) :: log) =
          chronicle log := (congrArg (chronicle log ++ ·) hnone).trans (List.append_nil _)
      exact ⟨_, hchronicle.symm ▸ hkept⟩
    · exact ⟨cut, (hkept.perform now uid fun through hthrough => hcall ⟨through, hthrough⟩).2⟩

/-! ### Readers -/

/-- Whatever was cut off from the feed is not beyond a position. -/
def Readable (log : List Entry) (cursor : Nat) : Prop :=
  ∀ change ∈ chronicle log, change ∉ (afterLog log).changes → change.sequence ≤ cursor

/-- What is read in some pages, each going on where the one before has ended. -/
def pages (store : MemoryStore) (cursor : Nat) : List Nat → List Change
  | [] => []
  | limit :: limits =>
    let page := store.changesSince cursor limit
    page.changes ++ store.pages page.nextCursor limits

/-- A reader, beginning at a position, has seen some changes and goes on from another position,
while anybody calls the store. -/
inductive Reading (start : Nat) : List Entry → List Change → Nat → Prop
  /-- The reader begins. -/
  | begin {log : List Entry} (calls : Log log) : Reading start log [] start
  /-- Anybody calls. -/
  | call {log : List Entry} {seen : List Change} {cursor : Nat}
    (before : Reading start log seen cursor) (now : Instant) (uid : String) (call : StoreCall) :
    Reading start (.made now uid (afterLog log) call :: log) seen cursor
  /-- The reader reads a page, from which nothing is missing. -/
  | page {log : List Entry} {seen : List Change} {cursor : Nat}
    (before : Reading start log seen cursor) (readable : Readable log cursor) (limit : Nat) :
    Reading start log (seen ++ ((afterLog log).changesSince cursor limit).changes)
      ((afterLog log).changesSince cursor limit).nextCursor

/-- **Some pages in a row** are the beginning of what follows the position. -/
theorem Kept.pages (h : Kept store history cut) (hcut : cut ≤ cursor) (limits : List Nat) :
    store.pages cursor limits = (Change.later cursor history).take limits.sum := by
  induction limits generalizing cursor with
  | nil => rfl
  | cons limit limits ih =>
    obtain ⟨hpage, hnext, -, hlater⟩ := h.page hcut limit
    rw [MemoryStore.pages, hpage, ih (Nat.le_trans hcut hnext), hlater, List.sum_cons,
      List.take_add]

/-- **A reader misses nothing and sees nothing twice.** -/
theorem Reading.faithful (h : Reading start log seen cursor) :
    Log log ∧ start ≤ cursor ∧ cursor ≤ max start (chronicle log).length ∧
      seen ++ Change.later cursor (chronicle log) = Change.later start (chronicle log) := by
  induction h with
  | begin hlog => exact ⟨hlog, Nat.le_refl _, Nat.le_max_left _ _, rfl⟩
  | @call log seen cursor _ now uid call ih =>
    obtain ⟨hlog, hstart, hbound, hseen⟩ := ih
    have hnext := Log.call hlog now uid call
    obtain ⟨_, hkept⟩ := hnext.kept
    have hnews := (Change.numbered_append.1 hkept.numbered).2
    -- What is new lies beyond both positions, or the reader has not moved.
    have hlater : Change.later cursor ((afterLog log).newsSince
          (Entry.made now uid (afterLog log) call).after) =
        Change.later start ((afterLog log).newsSince
          (Entry.made now uid (afterLog log) call).after) := by
      refine List.filter_congr fun change hchange => ?_
      have hbounds := hnews.bounds hchange
      rw [decide_eq_decide]
      omega
    refine ⟨hnext, hstart, ?_, ?_⟩
    · rw [chronicle, List.length_append]
      omega
    · rw [chronicle, Change.later, Change.later, List.filter_append, List.filter_append]
      change seen ++ (Change.later cursor _ ++ Change.later cursor _) =
        Change.later start _ ++ Change.later start _
      rw [hlater, ← List.append_assoc, hseen]
  | @page log seen cursor _ hreadable limit ih =>
    obtain ⟨hlog, hstart, hbound, hseen⟩ := ih
    obtain ⟨cut, hkept⟩ := hlog.kept
    obtain ⟨hpage, hnext, hlast, hlater⟩ :=
      hkept.page (hkept.cut_le_of_dropped hreadable) limit
    refine ⟨hlog, Nat.le_trans hstart hnext, by omega, ?_⟩
    rw [hpage, hlater, List.append_assoc, List.take_append_drop, hseen]

/-- **The feed is a faithful log**, whatever the calls to the store.

What the calls have told is numbered without a gap up to the last number that was given out, and the
feed is sorted. Whatever call comes next, the objects and the feed account for its answer. From a
position beyond which nothing was cut off, any pages are what follows it, in order, and enough pages
are all of it; the same holds for a reader between whose pages anybody calls the store. -/
theorem Log.feed_faithful (h : Log log) :
    (Change.Numbered 0 (chronicle log) ∧ (chronicle log).length = (afterLog log).lastSequence ∧
      (afterLog log).changes.Pairwise fun first second => first.sequence < second.sequence) ∧
    (∀ (now : Instant) (uid : String) (call : StoreCall),
      Accounted now (afterLog log) ((afterLog log).perform now uid call).2 call
        ((afterLog log).perform now uid call).1) ∧
    (∀ cursor, Readable log cursor → ∀ limits : List Nat,
      (afterLog log).pages cursor limits =
          (Change.later cursor (chronicle log)).take limits.sum ∧
        ((∀ limit ∈ limits, 0 < limit) →
          (Change.later cursor (chronicle log)).length ≤ limits.length →
          (afterLog log).pages cursor limits = Change.later cursor (chronicle log))) ∧
    ∀ start seen cursor, Reading start log seen cursor →
      seen ++ Change.later cursor (chronicle log) = Change.later start (chronicle log) := by
  obtain ⟨cut, hkept⟩ := h.kept
  refine ⟨⟨hkept.numbered, hkept.length, ?_⟩, hkept.accounted, fun cursor hreadable limits => ?_,
    fun start seen cursor hreading => hreading.faithful.2.2.2⟩
  · have hnumbered := hkept.numbered.drop cut hkept.cut_le
    rw [← hkept.changes] at hnumbered
    refine List.pairwise_map.1 (?_ : ((afterLog log).changes.map Change.sequence).Pairwise _)
    rw [hnumbered]
    exact List.pairwise_lt_range'
  · have hpages := hkept.pages (hkept.cut_le_of_dropped hreadable) limits
    refine ⟨hpages, fun hpositive henough => ?_⟩
    have hsum := Nat.le_trans henough (List.length_le_sum_of_one_le _ hpositive)
    rw [hpages, List.take_of_length_le hsum]

namespace Scenario

/-- A policy that owns a role and a binding. -/
def rota : Policy where
  metadata := .ofKey ⟨some "team", "rota"⟩
  body := ⟨[]⟩

/-- What is owned by the policy. -/
def ownedByRota : Metadata :=
  { Metadata.ofKey ⟨some "team", "oncall"⟩ with owners := [⟨.policy, "rota", "u1"⟩] }

/-- The policy, the role and the binding are stored, the policy is deleted, and what came before the
deletion is cut off. -/
def cascade : List Entry :=
  let saved := Entry.made .epoch "u1" {} (.savePolicy rota)
  let ruled := Entry.made .epoch "u2" saved.after (.create .role ⟨ownedByRota, ⟨[]⟩⟩)
  let bound := Entry.made .epoch "u3" ruled.after
    (.create .binding ⟨ownedByRota, ⟨⟨"", .role, "oncall"⟩, []⟩⟩)
  let deleted := Entry.made .epoch "" bound.after (.delete .policy rota.key)
  [.made .epoch "" deleted.after (.compact 3), deleted, bound, ruled, saved]

end Scenario

/-- Three pages of one change each tell of the deleted policy and of what went with it. -/
theorem feed_faithful_cascade : Log Scenario.cascade ∧ Readable Scenario.cascade 3 ∧
    (afterLog Scenario.cascade).pages 3 [1, 1, 1] =
      [⟨4, .policy, ⟨some "team", "rota"⟩, none⟩, ⟨5, .role, ⟨some "team", "oncall"⟩, none⟩,
        ⟨6, .binding, ⟨some "team", "oncall"⟩, none⟩] := by
  have hlog : Log Scenario.cascade :=
    .call (.call (.call (.call (.call .start _ _ _) _ _ _) _ _ _) _ _ _) _ _ _
  have hlater : Change.later 3 (chronicle Scenario.cascade) =
      [⟨4, .policy, ⟨some "team", "rota"⟩, none⟩, ⟨5, .role, ⟨some "team", "oncall"⟩, none⟩,
        ⟨6, .binding, ⟨some "team", "oncall"⟩, none⟩] := by
    rfl
  have hreadable : Readable Scenario.cascade 3 := by
    unfold Readable
    decide
  obtain ⟨-, -, hpages, -⟩ := Log.feed_faithful hlog
  refine ⟨hlog, hreadable, ?_⟩
  rw [((hpages 3 hreadable [1, 1, 1]).2 (by decide) (hlater ▸ Nat.le_refl _)), hlater]

end MemoryStore

end AccessBroker
