import AccessBroker.Proofs.Store.Calls

/-!
# What the feed tells

Whoever follows the change feed instead of looking at the objects has to rely on it. The changes are
numbered one after the other (`AccessBroker.Change.Numbered`), so that what follows a position, and
what lies between two positions, are stretches of the feed; and the feed is complete: a call other
than the cutting of the feed only adds changes at its end, and whatever lies under a key after it
that did not lie there before is among the changes that it adds (`AccessBroker.MemoryStore.Tells`,
`AccessBroker.MemoryStore.tells_perform`).
-/

namespace AccessBroker

/-! ### Numbered changes -/

namespace Change

variable {changes more : List Change} {change : Change} {position low mid high : Nat}

/-- The changes are numbered one after the other, from a position on. -/
def Numbered (position : Nat) (changes : List Change) : Prop :=
  changes.map sequence = List.range' (position + 1) changes.length

@[simp]
theorem numbered_nil (position : Nat) : Numbered position [] :=
  rfl

theorem numbered_cons :
    Numbered position (change :: changes) ↔
      change.sequence = position + 1 ∧ Numbered (position + 1) changes := by
  simp only [Numbered, List.map_cons, List.length_cons, List.range'_succ, List.cons.injEq]

theorem numbered_append :
    Numbered position (changes ++ more) ↔
      Numbered position changes ∧ Numbered (position + changes.length) more := by
  induction changes generalizing position with
  | nil => simp
  | cons first rest ih =>
    have hlength : position + 1 + rest.length = position + (rest.length + 1) := by omega
    simp only [List.cons_append, numbered_cons, ih, List.length_cons, hlength, and_assoc]

/-- The numbers of the changes are those that follow the position. -/
theorem Numbered.bounds (h : Numbered position changes) (hchange : change ∈ changes) :
    position < change.sequence ∧ change.sequence ≤ position + changes.length := by
  have hnumber : change.sequence ∈ List.range' (position + 1) changes.length :=
    h ▸ List.mem_map_of_mem hchange
  rw [List.mem_range'_1] at hnumber
  omega

theorem Numbered.drop (h : Numbered position changes) (count : Nat)
    (hcount : count ≤ changes.length) : Numbered (position + count) (changes.drop count) := by
  have hparts := List.take_append_drop count changes
  rw [← hparts, numbered_append, List.length_take, Nat.min_eq_left hcount] at h
  exact h.2

/-- **What does not follow a position** comes first. -/
theorem Numbered.dropWhile (h : Numbered position changes) (cursor : Nat) :
    changes.dropWhile (fun change => change.sequence ≤ cursor) =
      changes.drop (cursor - position) := by
  induction changes generalizing position with
  | nil => simp
  | cons first rest ih =>
    obtain ⟨hfirst, hrest⟩ := numbered_cons.1 h
    by_cases hseen : first.sequence ≤ cursor
    · have hcount : cursor - position = (cursor - (position + 1)) + 1 := by omega
      rw [List.dropWhile_cons_of_pos (by simpa using hseen), ih hrest, hcount, List.drop_succ_cons]
    · have hcount : cursor - position = 0 := by omega
      rw [List.dropWhile_cons_of_neg (by simpa using hseen), hcount, List.drop_zero]

/-- The changes that follow one position up to another one. -/
def between (low high : Nat) (changes : List Change) : List Change :=
  changes.filter fun change => low < change.sequence && change.sequence ≤ high

theorem mem_between :
    change ∈ between low high changes ↔
      change ∈ changes ∧ low < change.sequence ∧ change.sequence ≤ high := by
  simp [between]

/-- **What lies between two positions** is a stretch of the changes. -/
theorem Numbered.between_eq (h : Numbered position changes) (hlow : position ≤ low) :
    between low high changes = (changes.drop (low - position)).take (high - low) := by
  induction changes generalizing position low with
  | nil => simp [between]
  | cons first rest ih =>
    obtain ⟨hfirst, hrest⟩ := numbered_cons.1 h
    have hkept : between low high (first :: rest) =
        if low < first.sequence ∧ first.sequence ≤ high then first :: between low high rest
          else between low high rest := by
      simp only [between, List.filter_cons, Bool.and_eq_true, decide_eq_true_eq]
    by_cases hfollows : low < first.sequence
    · -- The first change lies right after the lower position.
      have hlater : between low high rest = between (position + 1) high rest := by
        refine List.filter_congr fun change hchange => ?_
        have hbounds := hrest.bounds hchange
        rw [decide_eq_true (by omega : low < change.sequence),
          decide_eq_true (by omega : position + 1 < change.sequence)]
      have hdrop : low - position = 0 := by omega
      rw [hkept, hlater, ih hrest (Nat.le_refl _), hdrop, Nat.sub_self, List.drop_zero,
        List.drop_zero]
      by_cases hwithin : first.sequence ≤ high
      · have hcount : high - low = (high - (position + 1)) + 1 := by omega
        rw [if_pos ⟨hfollows, hwithin⟩, hcount, List.take_succ_cons]
      · have hcount : high - low = 0 := by omega
        have hnone : high - (position + 1) = 0 := by omega
        rw [if_neg (by omega), hcount, hnone, List.take_zero, List.take_zero]
    · have hdrop : low - position = (low - (position + 1)) + 1 := by omega
      rw [hkept, if_neg (by omega), hdrop, List.drop_succ_cons, ih hrest (by omega)]

/-- What follows a position up to another one, and goes on from there. -/
theorem Numbered.between_append (h : Numbered 0 changes) (hlow : low ≤ mid) (hmid : mid ≤ high) :
    between low mid changes ++ between mid high changes = between low high changes := by
  have hsum : high - low = (mid - low) + (high - mid) := by omega
  have hdrop : changes.drop mid = (changes.drop low).drop (mid - low) := by
    rw [List.drop_drop, Nat.add_sub_cancel' hlow]
  simp only [h.between_eq (Nat.zero_le _), Nat.sub_zero]
  rw [hsum, List.take_add, hdrop]

/-- Later changes do not lie between earlier positions. -/
theorem Numbered.between_of_append (h : Numbered 0 (changes ++ more))
    (hhigh : high ≤ changes.length) :
    between low high (changes ++ more) = between low high changes := by
  have hnone : between low high more = [] := by
    refine List.filter_eq_nil_iff.2 fun change hchange => ?_
    have hbounds := (numbered_append.1 h).2.bounds hchange
    simp only [Bool.and_eq_true, decide_eq_true_eq]
    omega
  rw [between, List.filter_append]
  change between low high changes ++ between low high more = _
  rw [hnone, List.append_nil]

/-! ### Pages -/

variable {cursor limit : Nat}

/-- The position after some changes in a row. -/
theorem Numbered.nextCursor_following (h : Numbered position changes) :
    (ChangePage.following position changes).nextCursor = position + changes.length := by
  have hlast : changes.getLast?.map sequence =
      (List.range' (position + 1) changes.length).getLast? := by
    rw [← h, List.getLast?_map]
  change (changes.getLast?.map sequence).getD position = _
  rw [hlast, List.getLast?_range']
  split
  · next hempty =>
    have hnone : changes.length = 0 := by simpa using hempty
    rw [hnone]
    rfl
  · next hsome =>
    simp only [Option.getD_some]
    omega

/-- **A page** is what lies between two positions. -/
theorem Numbered.following_eq (h : Numbered 0 changes) (hcursor : cursor ≤ changes.length)
    (limit : Nat) :
    (ChangePage.following cursor ((changes.drop cursor).take limit)).nextCursor =
        min (cursor + limit) changes.length ∧
      (changes.drop cursor).take limit =
        between cursor (min (cursor + limit) changes.length) changes := by
  have hdrop : Numbered cursor (changes.drop cursor) := by
    have hdrop := h.drop cursor hcursor
    rwa [Nat.zero_add] at hdrop
  have htake : Numbered cursor ((changes.drop cursor).take limit) := by
    have hparts := List.take_append_drop limit (changes.drop cursor)
    rw [← hparts, numbered_append] at hdrop
    exact hdrop.1
  constructor
  · rw [htake.nextCursor_following, List.length_take, List.length_drop]
    omega
  · rw [h.between_eq (Nat.zero_le _), Nat.sub_zero, List.take_eq_take_iff, List.length_drop]
    omega

/-- The changes that follow a position. -/
def later (cursor : Nat) (changes : List Change) : List Change :=
  changes.filter fun change => cursor < change.sequence

/-- **What follows a position** comes last. -/
theorem Numbered.later_eq (h : Numbered 0 changes) (cursor : Nat) :
    later cursor changes = changes.drop cursor := by
  have hbound : later cursor changes = between cursor changes.length changes := by
    refine List.filter_congr fun change hchange => ?_
    have hbounds := h.bounds hchange
    rw [decide_eq_true (by omega : change.sequence ≤ changes.length), Bool.and_true]
  rw [hbound, h.between_eq (Nat.zero_le _), Nat.sub_zero, ← List.length_drop, List.take_length]

/-- **The next page** goes on where a page has ended. -/
theorem Numbered.later_nextCursor (h : Numbered 0 changes) (cursor limit : Nat) :
    let page := ChangePage.following cursor ((changes.drop cursor).take limit)
    cursor ≤ page.nextCursor ∧ page.nextCursor ≤ max cursor changes.length ∧
      later page.nextCursor changes = (later cursor changes).drop limit := by
  intro page
  rw [h.later_eq, h.later_eq, List.drop_drop]
  by_cases hcursor : cursor ≤ changes.length
  · obtain ⟨hnext, -⟩ := h.following_eq hcursor limit
    change page.nextCursor = _ at hnext
    rw [hnext]
    refine ⟨Nat.le_min.2 ⟨Nat.le_add_right _ _, hcursor⟩,
      Nat.le_trans (Nat.min_le_right _ _) (Nat.le_max_right _ _), ?_⟩
    rcases Nat.le_total (cursor + limit) changes.length with hwithin | hbeyond
    · rw [Nat.min_eq_left hwithin]
    · rw [Nat.min_eq_right hbeyond, List.drop_length, List.drop_eq_nil_of_le hbeyond]
  · -- Beyond the end there is nothing to read, and the position stays.
    have hnone : (changes.drop cursor).take limit = [] := by
      rw [List.drop_eq_nil_of_le (by omega), List.take_nil]
    have hnext : page.nextCursor = cursor := by
      simp only [page, hnone]
      rfl
    rw [hnext, List.drop_eq_nil_of_le (by omega), List.drop_eq_nil_of_le (by omega)]
    exact ⟨Nat.le_refl _, Nat.le_max_left _ _, rfl⟩

end Change

/-- What a change tells of: the object, by its kind and key, and the request that it names. -/
def Change.mention (change : Change) : Kind × Key × Option String :=
  (change.kind, change.key, change.requestRef)

/-- What is told of an object. -/
def Object.mention {kind : Kind} (object : Object kind) : Kind × Key × Option String :=
  (kind, object.key, object.requestRef?)

namespace MemoryStore

open AccessBroker.Time

variable {kind other : Kind} {store between after : MemoryStore} {news more : List Change}

/-! ### What a call adds -/

/-- Another store has all that a store has in its feed, and tells besides of what is different
there. -/
structure Tells (store after : MemoryStore) (news : List Change) : Prop where
  changes : after.changes = store.changes ++ news
  numbered : Change.Numbered store.lastSequence news
  last : after.lastSequence = store.lastSequence + news.length
  complete (kind : Kind) (key : Key) : after.find? kind key ≠ store.find? kind key →
    ∃ change ∈ news, change.kind = kind ∧ change.key = key

/-- Where nothing is told, nothing is different. -/
theorem tells_nil (hchanges : after.changes = store.changes)
    (hlast : after.lastSequence = store.lastSequence) (hagrees : after.Agrees store) :
    Tells store after [] where
  changes := by rw [hchanges, List.append_nil]
  numbered := rfl
  last := hlast
  complete kind key hdiffers := absurd (hagrees kind key) hdiffers

theorem Tells.refl (store : MemoryStore) : Tells store store [] :=
  tells_nil rfl rfl fun _ _ => rfl

theorem Tells.trans (h : Tells store between news) (h' : Tells between after more) :
    Tells store after (news ++ more) where
  changes := by rw [h'.changes, h.changes, List.append_assoc]
  numbered := Change.numbered_append.2 ⟨h.numbered, h.last ▸ h'.numbered⟩
  last := by rw [h'.last, h.last, List.length_append, Nat.add_assoc]
  complete kind key hdiffers := by
    by_cases hsame : after.find? kind key = between.find? kind key
    · obtain ⟨change, hchange, htold⟩ := h.complete kind key (hsame ▸ hdiffers)
      exact ⟨change, List.mem_append_left _ hchange, htold⟩
    · obtain ⟨change, hchange, htold⟩ := h'.complete kind key hsame
      exact ⟨change, List.mem_append_right _ hchange, htold⟩

/-- What is told after the next version was given out. -/
theorem Tells.of_renewed (h : Tells store.renewed after news) : Tells store after news :=
  (tells_nil rfl rfl store.agrees_renewed : Tells store store.renewed []).trans h

theorem changes_withTable (store : MemoryStore) (objects : Table Key (Object kind)) :
    (store.withTable objects).changes = store.changes := by
  cases kind <;> rfl

theorem lastSequence_withTable (store : MemoryStore) (objects : Table Key (Object kind)) :
    (store.withTable objects).lastSequence = store.lastSequence := by
  cases kind <;> rfl

/-- The change that tells of an object that is recorded. -/
def nextChange (store : MemoryStore) (object : Object kind) : Change :=
  ⟨store.lastSequence + 1, kind, object.key, object.requestRef?⟩

/-- An object that is recorded is told of, and it may be different. -/
theorem tells_record (objects : Table Key (Object kind)) (object : Object kind)
    (hcomplete : ∀ (kind' : Kind) (key : Key),
      ((store.withTable objects).record object).find? kind' key ≠ store.find? kind' key →
        kind' = kind ∧ key = object.key) :
    Tells store ((store.withTable objects).record object) [store.nextChange object] := by
  refine ⟨?_, rfl, ?_, ?_⟩
  · rw [record, changes_withTable, lastSequence_withTable]
    rfl
  · rw [record, lastSequence_withTable]
    rfl
  · intro kind' key hdiffers
    obtain ⟨rfl, rfl⟩ := hcomplete kind' key hdiffers
    exact ⟨_, List.mem_singleton_self _, rfl, rfl⟩

theorem tells_put (store : MemoryStore) (object : Object kind) :
    Tells store (store.put object) [store.nextChange object] := by
  refine tells_record _ object fun kind' key hdiffers => ?_
  change (store.put object).find? kind' key ≠ _ at hdiffers
  by_cases hkind : kind' = kind
  · subst hkind
    rw [find?_put] at hdiffers
    refine ⟨rfl, Decidable.byContradiction fun hkey => hdiffers ?_⟩
    rw [if_neg hkey]
  · exact absurd (find?_put_of_ne store object hkind) hdiffers

/-- **The objects that are recorded are told of**, one after the other. -/
theorem tells_foldl_record (objects : List (Object kind)) (store : MemoryStore) :
    ∃ news, Tells store (objects.foldl record store) news ∧
      news.map Change.mention = objects.map Object.mention := by
  induction objects generalizing store with
  | nil => exact ⟨[], .refl store, rfl⟩
  | cons object rest ih =>
    obtain ⟨news, htells, htold⟩ := ih (store.record object)
    have hfirst : Tells store (store.record object) [store.nextChange object] :=
      ⟨rfl, rfl, rfl, fun _ _ hdiffers => absurd (find?_record store object) hdiffers⟩
    exact ⟨_, hfirst.trans htells, congrArg (object.mention :: ·) htold⟩

/-- The objects of a kind that name an owner. -/
def ownedBy (store : MemoryStore) (kind : Kind) (owner : String) : List (Object kind) :=
  (store.table kind).values.filter fun object => object.metadata.isOwnedBy owner

/-- **Whatever goes with its owner is told of.** -/
theorem tells_dropOwned (hkeyed : store.Keyed) (kind : Kind) (owner : String) :
    ∃ news, Tells store (store.dropOwned kind owner) news ∧
      news.map Change.mention = (store.ownedBy kind owner).map Object.mention := by
  let isOwned (object : Object kind) : Bool := object.metadata.isOwnedBy owner
  let kept := (store.table kind).retain fun _ object => !isOwned object
  obtain ⟨news, htells, htold⟩ :=
    tells_foldl_record (store.ownedBy kind owner) (store.withTable kept)
  have hchanges := changes_withTable store kept
  have hlast := lastSequence_withTable store kept
  refine ⟨news, ⟨htells.changes.trans (by rw [hchanges]), hlast ▸ htells.numbered,
    htells.last.trans (by rw [hlast]), fun kind' key hdiffers => ?_⟩, htold⟩
  change (store.dropOwned kind owner).find? kind' key ≠ _ at hdiffers
  by_cases hkind : kind' = kind
  · subst hkind
    rw [find?_dropOwned] at hdiffers
    -- What is different was there, and had the owner.
    cases hfound : store.find? kind' key with
    | none =>
      rw [hfound] at hdiffers
      exact absurd rfl hdiffers
    | some object =>
      have howned : isOwned object = true := by
        refine Decidable.byContradiction fun hfree => hdiffers ?_
        rw [hfound, Option.filter_some_eq_some.2]
        simpa [isOwned] using hfree
      have hvalue : object ∈ (store.table kind').values :=
        List.mem_map.2 ⟨(key, object), Table.mem_entries_iff.2 hfound, rfl⟩
      have hmention : object.mention ∈ news.map Change.mention :=
        htold ▸ List.mem_map_of_mem (List.mem_filter.2 ⟨hvalue, howned⟩)
      obtain ⟨change, hchange, hsame⟩ := List.mem_map.1 hmention
      obtain ⟨hkind, hsame⟩ := Prod.mk.inj hsame
      exact ⟨change, hchange, hkind, (Prod.mk.inj hsame).1.trans (hkeyed _ _ _ hfound)⟩
  · exact absurd (find?_dropOwned_of_ne store owner hkind) hdiffers

theorem Keyed.of_left (hkeyed : store.Keyed)
    (hleft : ∀ (kind : Kind) (key : Key) (object : Object kind),
      after.find? kind key = some object → store.find? kind key = some object) : after.Keyed :=
  fun kind key object hobject => hkeyed kind key object (hleft kind key object hobject)

/-- The store without an object, before what the object owns is taken away. -/
def erased (store : MemoryStore) (object : Object kind) : MemoryStore :=
  (store.withTable ((store.table kind).erase object.key)).record object

/-- An object is taken away, and everything else stays. -/
theorem find?_erased_or (store : MemoryStore) (object : Object kind) (other : Kind) (key : Key) :
    (store.erased object).find? other key = store.find? other key ∧
        (other ≠ kind ∨ key ≠ object.key) ∨
      other = kind ∧ key = object.key ∧ (store.erased object).find? other key = none := by
  by_cases hkind : other = kind
  · subst hkind
    have hfind : (store.erased object).find? other key = _ := find?_erased store object
    by_cases hkey : key = object.key
    · exact .inr ⟨rfl, hkey, hfind.trans (if_pos hkey)⟩
    · exact .inl ⟨hfind.trans (if_neg hkey), .inr hkey⟩
  · exact .inl ⟨find?_erased_of_ne store object hkind, .inl hkind⟩

/-- What is told of the roles and bindings that go with an object. -/
def collected (store : MemoryStore) (object : Object kind) : List (Kind × Key × Option String) :=
  ((store.erased object).ownedBy .role object.metadata.uid).map Object.mention ++
    ((store.erased object).ownedBy .binding object.metadata.uid).map Object.mention

theorem Keyed.erased (hkeyed : store.Keyed) (object : Object kind) : (store.erased object).Keyed :=
  hkeyed.of_left fun other key left hleft => by
    rcases find?_erased_or store object other key with ⟨hsame, -⟩ | ⟨-, -, hgone⟩
    · exact hsame.symm.trans hleft
    · rw [hgone] at hleft
      cases hleft

theorem Keyed.dropOwned (hkeyed : store.Keyed) (kind : Kind) (owner : String) :
    (store.dropOwned kind owner).Keyed :=
  hkeyed.of_left fun other key left hleft => by
    by_cases hkind : other = kind
    · subst hkind
      rw [find?_dropOwned] at hleft
      exact (Option.filter_eq_some_iff.1 hleft).1
    · exact (find?_dropOwned_of_ne _ _ hkind).symm.trans hleft

theorem table_dropOwned_of_ne (store : MemoryStore) (owner : String) (h : other ≠ kind) :
    (store.dropOwned kind owner).table other = store.table other := by
  rw [dropOwned, table_foldl_record, table_withTable_of_ne _ _ h]

/-- **A removal is told of**, and so is all that goes with the object. -/
theorem tells_drop (hkeyed : store.Keyed) (object : Object kind) :
    ∃ news, Tells store (store.drop object) (store.nextChange object :: news) ∧
      news.map Change.mention = store.collected object := by
  have htells : Tells store (store.erased object) [store.nextChange object] := by
    refine tells_record _ object fun other key hdiffers => ?_
    rcases find?_erased_or store object other key with ⟨hsame, -⟩ | ⟨hkind, hkey, -⟩
    · exact absurd hsame hdiffers
    · exact ⟨hkind, hkey⟩
  have hkeyed := hkeyed.erased object
  obtain ⟨roles, hroles, hrole⟩ := tells_dropOwned hkeyed .role object.metadata.uid
  obtain ⟨bindings, hbindings, hbinding⟩ :=
    tells_dropOwned (hkeyed.dropOwned .role object.metadata.uid) .binding object.metadata.uid
  refine ⟨roles ++ bindings, (htells.trans hroles).trans hbindings, ?_⟩
  rw [List.map_append, hrole, hbinding, collected, ownedBy, ownedBy, ownedBy,
    table_dropOwned_of_ne _ _ (by decide)]

/-- **The feed is complete**: a call that does not cut the feed only adds to it, and it tells of
whatever it changes. -/
theorem tells_perform (hkeyed : store.Keyed) (now : Instant) (uid : String) {call : StoreCall}
    (hcall : ∀ through, call ≠ .compact through) :
    ∃ news, Tells store (store.perform now uid call).2 news := by
  have hkeyed' : store.renewed.Keyed := hkeyed.of_left fun _ _ _ hfound =>
    (find?_renewed store).symm.trans hfound
  have hnone : ∃ news, Tells store store.renewed news := ⟨[], (Tells.refl _).of_renewed⟩
  have hput {kind : Kind} (object : Object kind) :
      ∃ news, Tells store (store.renewed.put object) news := by
    exact ⟨_, (tells_put store.renewed object).of_renewed⟩
  have hdrop {kind : Kind} (object : Object kind) :
      ∃ news, Tells store (store.renewed.drop object) news := by
    obtain ⟨news, htells, -⟩ := tells_drop hkeyed' object
    exact ⟨_, htells.of_renewed⟩
  cases call with
  | find | listPolicies | listResponses | listKeys | changesSince => exact ⟨[], .refl store⟩
  | compact through => exact absurd rfl (hcall through)
  | create kind object =>
    change ∃ news, Tells store (store.create now uid object).2 news
    unfold create
    dsimp only
    split
    · exact hnone
    · exact hput _
  | savePolicy policy =>
    change ∃ news, Tells store (store.savePolicy now uid policy).2 news
    unfold savePolicy
    split
    · exact ⟨[], .refl store⟩
    · exact hput _
  | updateMetadata kind object =>
    change ∃ news, Tells store (store.updateMetadata object).2 news
    unfold updateMetadata
    dsimp only
    split
    · exact hnone
    · split
      · exact hdrop _
      · exact hput _
  | patchStatus kind base status =>
    change ∃ news, Tells store (store.patchStatus base status).2 news
    unfold patchStatus
    dsimp only
    split
    · exact hnone
    · exact hput _
  | delete kind key =>
    change ∃ news, Tells store (store.delete now kind key).2 news
    unfold delete
    dsimp only
    split
    · exact hnone
    · split
      · exact hdrop _
      · exact hput _

/-! ### Objects that are written anew -/

/-- A call writes the finalizers and owners, or the status, of the object of a kind with a key. -/
inductive Rewrites (kind : Kind) (key : Key) : StoreCall → Prop
  /-- It writes the finalizers and owners. -/
  | metadata {object : Object kind} (same : object.key = key) :
    Rewrites kind key (.updateMetadata kind object)
  /-- It writes the status. -/
  | status {base : Object kind} {status : kind.Status} (same : base.key = key) :
    Rewrites kind key (.patchStatus kind base status)

variable {now : Instant} {uid : String} {key : Key} {call : StoreCall}

/-- **A successful write is told of**, also if it writes what was there. -/
theorem told_of_rewrites (hkeyed : store.Keyed) (h : Rewrites kind key call) {value : call.Result}
    (hreply : (store.perform now uid call).1 = .ok value) :
    ∃ change ∈ (store.perform now uid call).2.changes, change.kind = kind ∧ change.key = key ∧
      store.lastSequence < change.sequence := by
  have hkeyed' : store.renewed.Keyed := hkeyed.of_left fun _ _ _ hfound =>
    (find?_renewed store).symm.trans hfound
  -- What is recorded has the key of what was written.
  have htold {object : Object kind} {after : MemoryStore} {news : List Change}
      (hobject : object.key = key)
      (htells : Tells store.renewed after (store.renewed.nextChange object :: news)) :
      ∃ change ∈ after.changes, change.kind = kind ∧ change.key = key ∧
        store.lastSequence < change.sequence := by
    refine ⟨store.renewed.nextChange object, ?_, rfl, hobject, Nat.lt_succ_self _⟩
    rw [htells.changes]
    exact List.mem_append_right _ List.mem_cons_self
  have hperformed := performed_perform now uid store call
  generalize (store.perform now uid call).1 = reply at hreply hperformed
  generalize (store.perform now uid call).2 = after at hperformed ⊢
  cases h with
  | @metadata object hsame =>
    have hstored {stored : Object kind} (hfound : store.find? kind object.key = some stored) :
        (stored.withLinksOf object (store.version + 1)).key = key := by
      rw [Object.key_withLinksOf, hkeyed _ _ _ hfound, hsame]
    cases hperformed with
    | surveyed _ hsurvey => cases hsurvey
    | failed => cases hreply
    | linked hfound => exact htold (hstored hfound) (tells_put _ _)
    | released hfound =>
      obtain ⟨news, htells, -⟩ := tells_drop hkeyed' _
      exact htold (hstored hfound) htells
  | @status base status hsame =>
    cases hperformed with
    | surveyed _ hsurvey => cases hsurvey
    | failed => cases hreply
    | patched hfound =>
      refine htold ?_ (tells_put _ _)
      rw [Object.key_patched, hkeyed _ _ _ hfound, hsame]

/-- **Only what is missing is reported missing.** -/
theorem find?_eq_none_of_rewrites (h : Rewrites kind key call) {failure : Failure}
    (hreply : (store.perform now uid call).1 = .error failure)
    (hmissing : failure.isNotFound = true) : store.find? kind key = none := by
  have hnone {object : Object kind} (hcurrent : store.renewed.current object = .error failure) :
      store.find? kind object.key = none := by
    rw [current_renewed] at hcurrent
    unfold current at hcurrent
    split at hcurrent
    · assumption
    · split at hcurrent
      · cases hcurrent
      · cases hcurrent
        cases hmissing
  cases h with
  | @metadata object hsame =>
    subst hsame
    refine hnone ?_
    change (store.updateMetadata object).1 = _ at hreply
    unfold updateMetadata at hreply
    dsimp only at hreply
    split at hreply
    · next hcurrent => rw [hcurrent, Except.error.inj hreply]
    · cases hreply
  | @status base status hsame =>
    subst hsame
    refine hnone ?_
    change (store.patchStatus base status).1 = _ at hreply
    unfold patchStatus at hreply
    dsimp only at hreply
    split at hreply
    · next hcurrent => rw [hcurrent, Except.error.inj hreply]
    · cases hreply

end MemoryStore

end AccessBroker
