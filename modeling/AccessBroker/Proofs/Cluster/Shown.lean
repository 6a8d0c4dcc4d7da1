import AccessBroker.Proofs.Cluster.Journals

/-!
# What a cluster shows

An object is shown by a cluster (`AccessBroker.Cluster.Shown`) if it is stored, or was
given to a pass as it was stored then. Passes base their writes on objects that they were
given, and a version tells whether such an object is still the stored one: no two objects
that were ever stored under a key have the same version
(`AccessBroker.Cluster.Sound`). Whatever a move shows for the first time is stored
(`AccessBroker.Cluster.Moved.shown`), so what is to be shown of all such objects has to be
shown of stored ones alone.
-/

namespace AccessBroker

open MemoryStore

variable {kind : Kind}

/-- The answer to a call is an object as it is stored from then on. An object that is gone
with the call is not given. -/
inductive Deed.Gives : Deed passInterface → Object kind → Prop
  /-- It was found. -/
  | found {key : Key} {object : Object kind} :
    Gives (.ofCall (.find kind key) (.ok (some object))) object
  /-- It was created. -/
  | created {submitted object : Object kind} :
    Gives (.ofCall (.create kind submitted) (.ok object)) object
  /-- Its finalizers and owners were written. -/
  | linked {submitted object : Object kind} (lasting : object.isSpent = false) :
    Gives (.ofCall (.updateMetadata kind submitted) (.ok object)) object
  /-- Its status was written. -/
  | patched {base object : Object kind} {status : kind.Status} :
    Gives (.ofCall (.patchStatus kind base status) (.ok object)) object

/-- **What an answer gives is stored.** -/
theorem MemoryStore.Performed.stores_of_gives {now : Time.Instant} {uid : String}
    {store after : MemoryStore} {call : StoreCall} {reply : call.Reply} {object : Object kind}
    (h : Performed now uid store call reply after) (hkeyed : store.Keyed)
    (hgives : (Deed.ofCall call reply).Gives object) :
    after.find? kind object.key = some object := by
  cases hgives with
  | found =>
    obtain ⟨hfound, rfl⟩ := h.of_find
    rw [hkeyed _ _ _ hfound.symm]
    exact hfound.symm
  | created => exact h.of_create.2.2
  | linked hlasting =>
    obtain ⟨old, -, -, -, hstored⟩ := h.of_updateMetadata
    exact hstored hlasting
  | patched =>
    obtain ⟨old, -, -, -, hstored⟩ := h.of_patchStatus
    exact hstored

namespace Cluster

variable {rules : Rules} {cluster next : Cluster}

/-- An object is stored. -/
def Stores (cluster : Cluster) (object : Object kind) : Prop :=
  cluster.store.find? kind object.key = some object

/-- An object is stored, or was given to a pass. -/
def Shown (cluster : Cluster) (object : Object kind) : Prop :=
  cluster.Stores object ∨ ∃ (place : Nat) (journal : Journal),
    cluster.journals[place]? = some journal ∧ ∃ deed ∈ journal.deeds, deed.Gives object

/-- What a move does to the store, it does by a call. -/
theorem Moved.calls (h : Moved rules cluster next) :
    next.store = cluster.store ∧ cluster.issued ⊆ next.issued ∨
      ∃ (id : String) (call : StoreCall) (reply : call.Reply),
        cluster.Calls id call reply next.store next.issued := by
  cases h with
  | aside | started => exact .inl ⟨rfl, fun _ h => h⟩
  | called _ hcalls => exact .inr ⟨_, _, _, hcalls⟩
  | advanced _ hserved =>
    cases hserved with
    | performed hcalls => exact .inr ⟨_, _, _, hcalls⟩
    | refused | told | consulted | timed => exact .inl ⟨rfl, fun _ h => h⟩
    | drawn => exact .inl ⟨rfl, fun _ h => List.mem_cons_of_mem _ h⟩

theorem Calls.issued_subset {id : String} {call : StoreCall} {reply : call.Reply}
    {store : MemoryStore} {issued : List String} (h : cluster.Calls id call reply store issued) :
    cluster.issued ⊆ issued := by
  rw [h.issued, issuedBy]
  split
  · exact fun _ h => List.mem_cons_of_mem _ h
  · exact fun _ h => h

/-- Identifiers are given out for good. -/
theorem Moved.issued_subset (h : Moved rules cluster next) : cluster.issued ⊆ next.issued := by
  rcases h.calls with ⟨-, hissued⟩ | ⟨id, call, reply, hcalls⟩
  · exact hissued
  · exact hcalls.issued_subset

theorem Served.stores_of_gives {effect : Effect} {reply : passInterface.Reply effect}
    {store : MemoryStore} {issued : List String} {object : Object kind}
    (h : Served rules cluster effect reply store issued) (hkeyed : cluster.store.Keyed)
    (hgives : Deed.Gives ⟨effect, reply⟩ object) : store.find? kind object.key = some object := by
  cases h with
  | performed hcalls => exact hcalls.performed.stores_of_gives hkeyed hgives
  | refused | told | consulted | timed | drawn => cases hgives

/-- **Whatever a move shows for the first time is stored.** -/
theorem Moved.shown {object : Object kind} (h : Moved rules cluster next)
    (hkeyed : cluster.store.Keyed) (hshown : next.Shown object) :
    cluster.Shown object ∨ next.Stores object := by
  rcases hshown with hstores | ⟨place, journal, hjournal, deed, hdeed, hgives⟩
  · exact .inr hstores
  · cases h.fate hjournal with
    | kept hbefore => exact .inl (.inr ⟨place, journal, hbefore, deed, hdeed, hgives⟩)
    | started => cases hdeed
    | advanced hbefore hserved =>
      rcases List.mem_cons.1 hdeed with rfl | hdeed
      · exact .inr (hserved.stores_of_gives hkeyed hgives)
      · exact .inl (.inr ⟨place, _, hbefore, deed, hdeed, hgives⟩)

/-- What was given to a pass is shown for good. -/
theorem shown_of_gives {object : Object kind} {journal : Journal} {place : Nat}
    {deed : Deed passInterface} (hjournal : cluster.journals[place]? = some journal)
    (hdeed : deed ∈ journal.deeds) (hgives : deed.Gives object) : cluster.Shown object :=
  .inr ⟨place, journal, hjournal, deed, hdeed, hgives⟩

/-! ### Versions and identifiers -/

/-- Versions and identifiers can be relied on. -/
structure Sound (cluster : Cluster) : Prop where
  keyed : cluster.store.Keyed
  /-- No version is ahead of the counter. -/
  dated {kind : Kind} (object : Object kind) : cluster.Shown object →
    object.metadata.version ≤ cluster.store.version
  /-- An object with the version of the stored one is the stored one. -/
  recent {kind : Kind} (object stored : Object kind) : cluster.Shown object →
    cluster.store.find? kind object.key = some stored →
      stored.metadata.version = object.metadata.version → stored = object
  /-- The identifiers of objects have been given out. -/
  issued {kind : Kind} (object : Object kind) : cluster.Shown object →
    object.metadata.uid ∈ cluster.issued

/-- What is found under a key is stored. -/
theorem Sound.stores (h : cluster.Sound) {key : Key} {object : Object kind}
    (hobject : cluster.store.find? kind key = some object) : cluster.Stores object := by
  rwa [Stores, h.keyed _ _ _ hobject]

theorem Sound.of_called (h : cluster.Sound) (hmoved : Moved rules cluster next) {id : String}
    {call : StoreCall} {reply : call.Reply}
    (hcalls : cluster.Calls id call reply next.store next.issued) : next.Sound where
  keyed := hcalls.performed.keyed h.keyed
  dated object hshown := by
    have hversion := hcalls.performed.version_le
    rcases hmoved.shown h.keyed hshown with hbefore | hstores
    · exact Nat.le_trans (h.dated object hbefore) hversion
    · rcases hcalls.performed.agrees_or_version with hagrees | hrenewed
      · exact Nat.le_trans (h.dated object (.inl ((hagrees _ _).symm.trans hstores))) hversion
      · rcases (hcalls.performed.turn h.keyed _ _).eq_or_version hstores with hbefore | hnew
        · exact Nat.le_trans (h.dated object (.inl hbefore)) hversion
        · omega
  recent object stored hshown hstored heq := by
    rcases hmoved.shown h.keyed hshown with hbefore | hstores
    · rcases (hcalls.performed.turn h.keyed _ _).eq_or_version hstored with hold | hnew
      · exact h.recent object stored hbefore hold heq
      · have hdated := h.dated object hbefore
        omega
    · exact Option.some.inj (hstored.symm.trans hstores)
  issued object hshown := by
    rcases hmoved.shown h.keyed hshown with hbefore | hstores
    · exact hcalls.issued_subset (h.issued object hbefore)
    · rcases (hcalls.performed.turn h.keyed _ _).uid_eq hstores with
        ⟨old, hold, huid⟩ | ⟨huid, htakes⟩
      · rw [huid]
        exact hcalls.issued_subset (h.issued old (.inl (h.stores hold)))
      · rw [hcalls.issued, issuedBy, if_pos htakes, huid]
        exact List.mem_cons_self

theorem Sound.of_unchanged (h : cluster.Sound) (hmoved : Moved rules cluster next)
    (hstore : next.store = cluster.store) : next.Sound := by
  have hshown {kind : Kind} {object : Object kind} (hshown : next.Shown object) :
      cluster.Shown object := by
    rcases hmoved.shown h.keyed hshown with hbefore | hstores
    · exact hbefore
    · rw [Stores, hstore] at hstores
      exact .inl hstores
  constructor
  · rw [hstore]
    exact h.keyed
  · intro kind object hobject
    rw [hstore]
    exact h.dated object (hshown hobject)
  · intro kind object stored hobject
    rw [hstore]
    exact h.recent object stored (hshown hobject)
  · exact fun object hobject => hmoved.issued_subset (h.issued object (hshown hobject))

theorem Sound.moved (h : cluster.Sound) (hmoved : Moved rules cluster next) : next.Sound := by
  rcases hmoved.calls with ⟨hstore, -⟩ | ⟨id, call, reply, hcalls⟩
  · exact h.of_unchanged hmoved hstore
  · exact h.of_called hmoved hcalls

/-- At the start nothing is stored. -/
theorem find?_start (kind : Kind) (key : Key) : ({} : Cluster).store.find? kind key = none := by
  cases kind <;> rfl

/-- At the start nothing is shown. -/
theorem not_shown_start (object : Object kind) : ¬({} : Cluster).Shown object := by
  rintro (hstores | ⟨place, journal, hjournal, -⟩)
  · rw [Stores, find?_start] at hstores
    cases hstores
  · cases hjournal

theorem sound_start : ({} : Cluster).Sound where
  keyed kind key object hstored := by
    rw [find?_start] at hstored
    cases hstored
  dated object hshown := absurd hshown (not_shown_start object)
  recent object _ hshown := absurd hshown (not_shown_start object)
  issued object hshown := absurd hshown (not_shown_start object)

/-- **In every run, versions and identifiers can be relied on.** -/
theorem Reachable.sound (h : Reachable rules cluster) : cluster.Sound := by
  induction h with
  | start => exact sound_start
  | step move _ hmoved ih => exact ih.moved (moved_of_move hmoved)

end Cluster

end AccessBroker
