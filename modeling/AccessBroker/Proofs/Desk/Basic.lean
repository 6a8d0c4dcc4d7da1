import AccessBroker.Proofs.Engine.Deeds
import AccessBroker.Proofs.Store.Turns

/-!
# Passes left to themselves

What a pass comes to when nobody interferes. It works at a desk (`AccessBroker.Desk`): the store in
memory, what listeners have been told, and how many identifiers were drawn. In calm surroundings
(`AccessBroker.Calm`) the clock stands still, the policies stay the same, and no call fails unless
the store itself turns it away, so the answers are a function of the desk
(`AccessBroker.Calm.answer`). Where a pass ends from there is reduced to its parts
(`AccessBroker.Program.Ends`, `AccessBroker.Pass.Ends`), with one rule per call.

The store counts up its version at the start of every write, also of one that it turns away. A desk
on which nothing else has happened is still (`AccessBroker.Desk.Still`): the same objects with the
same versions, the same feed, the same events and the same identifiers drawn.
-/

namespace AccessBroker

open AccessBroker.Time

/-- What a pass works on that nobody interferes with. -/
structure Desk where
  store : MemoryStore := {}
  /-- The events that listeners were told of, oldest first. -/
  told : List AccessEvent := []
  /-- How many identifiers were drawn. -/
  drawn : Nat := 0

/-- Surroundings in which nothing changes by itself. -/
structure Calm where
  now : Instant
  snapshot : PolicySnapshot
  /-- The identifiers, in the order in which they are drawn. -/
  ids : Nat → String
  /-- No identifier is the empty text, which stands for none. -/
  named (count : Nat) : ids count ≠ ""

/-- Answers what a pass asks for, and gives the desk that is left. -/
def Calm.answer (calm : Calm) : (effect : Effect) → Desk → passInterface.Reply effect × Desk
  | .store call, desk =>
    let (reply, store) := desk.store.perform calm.now (calm.ids desk.drawn) call
    (reply, { desk with
      store
      drawn := if desk.store.takesUid call then desk.drawn + 1 else desk.drawn })
  | .tell event, desk => (.ok (), { desk with told := desk.told ++ [event] })
  | .policies, desk => (calm.snapshot, desk)
  | .clock, desk => (calm.now, desk)
  | .freshId, desk => (calm.ids desk.drawn, { desk with drawn := desk.drawn + 1 })

variable {calm : Calm} {kind other : Kind} {key place : Key}

theorem Object.isHeld_marked (stored : Object kind) (now : Instant) (version : Nat) :
    (stored.marked now version).isHeld = stored.isHeld := by
  rw [isHeld, Metadata.hasFinalizer, finalizers_marked]
  rfl

/-- A malformed key is not reported as taken. -/
theorem Key.isAlreadyExists_of_validate {failure : Failure} (h : key.validate = .error failure) :
    failure.isAlreadyExists = false := by
  unfold validate at h
  split at h
  · cases h
    rfl
  · split at h <;> cases h
    rfl

/-! ### The store of a desk -/

namespace MemoryStore

variable {store : MemoryStore}

theorem Keyed.renewed (h : store.Keyed) : store.renewed.Keyed :=
  fun kind key object hfound => h kind key object (by rwa [find?_renewed] at hfound)

theorem Keyed.put (h : store.Keyed) (object : Object kind) : (store.put object).Keyed := by
  intro other key found hfound
  by_cases hkind : other = kind
  · subst hkind
    rw [find?_put] at hfound
    split at hfound
    · next hkey => exact Option.some.inj hfound ▸ hkey.symm
    · exact h _ _ _ hfound
  · rw [find?_put_of_ne _ _ hkind] at hfound
    exact h _ _ _ hfound

theorem table_put_of_ne (store : MemoryStore) (object : Object kind) (h : other ≠ kind) :
    (store.put object).table other = store.table other := by
  rw [put, table_record, table_withTable_of_ne _ _ h]

/-- A write that is based on the stored version finds it. -/
theorem current_of_find? {object stored : Object kind}
    (hfound : store.find? kind object.key = some stored)
    (hversion : stored.metadata.version = object.metadata.version) :
    store.renewed.current object = .ok stored := by
  rw [current_renewed, current, hfound]
  exact if_pos hversion

/-- What was read just now is still current. -/
theorem updateMetadata_of_find? {object stored : Object kind}
    (hfound : store.find? kind object.key = some stored)
    (hversion : stored.metadata.version = object.metadata.version) :
    (store.updateMetadata object).1 = .ok (stored.withLinksOf object (store.version + 1)) ∧
      ((stored.withLinksOf object (store.version + 1)).isSpent = false →
        (store.updateMetadata object).2 =
          store.renewed.put (stored.withLinksOf object (store.version + 1))) := by
  rw [updateMetadata]
  dsimp only
  rw [current_of_find? hfound hversion]
  exact ⟨rfl, fun hunspent => if_neg (Bool.eq_false_iff.1 hunspent)⟩

theorem patchStatus_of_find? {base stored : Object kind} (status : kind.Status)
    (hfound : store.find? kind base.key = some stored)
    (hversion : stored.metadata.version = base.metadata.version) :
    store.patchStatus base status =
      (.ok (stored.patched status (store.version + 1)),
        store.renewed.put (stored.patched status (store.version + 1))) := by
  rw [patchStatus]
  dsimp only
  rw [current_of_find? hfound hversion]
  rfl

/-- A key is refused for being malformed before it is refused for being taken. -/
theorem checkVacant_eq (store : MemoryStore) (kind : Kind) (key : Key) :
    store.checkVacant kind key = match key.validate with
      | .error failure => .error failure
      | .ok () =>
        if (store.find? kind key).isSome then .error (kind.taken key) else .ok () := by
  rw [checkVacant, contains_eq_isSome]
  cases key.validate <;> rfl

theorem create_of_refused {object : Object kind} {now : Instant} {uid : String} {failure : Failure}
    (h : store.checkVacant kind object.key = .error failure) :
    store.create now uid object = (.error failure, store.renewed) := by
  rw [create]
  dsimp only
  rw [checkVacant_renewed, h]

theorem create_of_vacant {object : Object kind} {now : Instant} {uid : String}
    (h : store.checkVacant kind object.key = .ok ()) :
    store.create now uid object =
      (.ok (object.pristine.born now uid (store.version + 1)),
        store.renewed.put (object.pristine.born now uid (store.version + 1))) := by
  rw [create]
  dsimp only
  rw [checkVacant_renewed, h]
  rfl

/-- What is left of an object that the finalizer was taken off. -/
theorem Performed.of_release {object released : Object kind} {now : Instant} {uid : String}
    {after : MemoryStore} (h : Performed now uid store
      (.updateMetadata kind object.withoutFinalizer) (.ok released) after)
    (hfound : store.find? kind object.key = some object) :
    released.isHeld = false ∧ released.metadata.isDeleting = object.metadata.isDeleting ∧
      (after.find? kind object.key = some released ∨
        object.metadata.isDeleting = true ∧ after.find? kind object.key = none) := by
  cases h with
  | surveyed _ hsurvey => cases hsurvey
  | @linked _ _ stored hstored =>
    obtain rfl : stored = object := Option.some.inj (hstored.symm.trans hfound)
    exact ⟨stored.isHeld_withoutFinalizer, rfl, .inl ((find?_put _ _).trans (if_pos rfl))⟩
  | @released _ _ stored hstored _ hspent =>
    obtain rfl : stored = object := Option.some.inj (hstored.symm.trans hfound)
    have hdeleting := (Bool.and_eq_true_iff.1 hspent).1
    exact ⟨stored.isHeld_withoutFinalizer, rfl, .inr ⟨hdeleting, find?_drop_self _ _⟩⟩

/-- **A deletion spares the other objects**, those apart that can be owned. -/
theorem Performed.find?_of_delete {now : Instant} {uid : String} {reply : Except Failure Unit}
    {after : MemoryStore} (h : Performed now uid store (.delete kind key) reply after)
    (hkeyed : store.Keyed) (howned : other.isOwned = false) (hne : other = kind → place ≠ key) :
    after.find? other place = store.find? other place := by
  cases h.turn hkeyed other place with
  | kept hsame => exact hsame
  | marked | removed => exact absurd rfl (hne rfl)
  | collected howned' => exact absurd (howned.symm.trans howned') nofun

/-- What a deletion makes of the object itself. -/
theorem Performed.find?_of_delete_self {stored : Object kind} {now : Instant} {uid : String}
    {reply : Except Failure Unit} {after : MemoryStore}
    (h : Performed now uid store (.delete kind key) reply after) (hkeyed : store.Keyed)
    (hfound : store.find? kind key = some stored) :
    stored.metadata.finalizers = [] ∧ after.find? kind key = none ∨
      after.find? kind key = some (stored.marked now (store.version + 1)) := by
  cases h with
  | surveyed _ hsurvey => cases hsurvey
  | failed _ hpurpose => exact absurd rfl (hpurpose kind key)
  | missing hvacant =>
    rw [hvacant] at hfound
    cases hfound
  | @marked _ _ other hother =>
    obtain rfl : other = stored := Option.some.inj (hother.symm.trans hfound)
    right
    rw [find?_put, Object.key_marked, hkeyed _ _ _ hfound, if_pos rfl]
  | @removed _ _ other hother hfree =>
    obtain rfl : other = stored := Option.some.inj (hother.symm.trans hfound)
    have hgone := find?_drop_self store.renewed other
    rw [hkeyed _ _ _ hfound] at hgone
    exact .inl ⟨hfree, hgone⟩

end MemoryStore

namespace Desk

variable {desk between after : Desk}

/-- The desk with another count of versions. -/
def atVersion (desk : Desk) (version : Nat) : Desk :=
  { desk with store := { desk.store with version } }

/-- Nothing has happened on the desk, except that versions may have been counted up for writes that
were turned away. -/
def Still (desk after : Desk) : Prop :=
  ∃ version, after = desk.atVersion version

theorem Still.refl (desk : Desk) : desk.Still desk :=
  ⟨desk.store.version, rfl⟩

theorem Still.trans (h : desk.Still between) (h' : between.Still after) : desk.Still after := by
  obtain ⟨_, rfl⟩ := h
  obtain ⟨version, rfl⟩ := h'
  exact ⟨version, rfl⟩

@[simp]
theorem find?_atVersion (desk : Desk) (version : Nat) :
    (desk.atVersion version).store.find? kind key = desk.store.find? kind key := by
  cases kind <;> rfl

/-- **On a still desk the same objects are found.** -/
theorem Still.find? (h : desk.Still after) :
    after.store.find? kind key = desk.store.find? kind key := by
  obtain ⟨version, rfl⟩ := h
  exact desk.find?_atVersion version

/-- The desk after a write that was turned away. -/
def renewed (desk : Desk) : Desk :=
  { desk with store := desk.store.renewed }

theorem still_renewed (desk : Desk) : desk.Still desk.renewed :=
  ⟨desk.store.version + 1, rfl⟩

/-- The desk with an object written. -/
def put (desk : Desk) (object : Object kind) : Desk :=
  { desk with store := desk.store.renewed.put object }

theorem find?_put_self (desk : Desk) (object : Object kind) :
    (desk.put object).store.find? kind object.key = some object := by
  rw [put, MemoryStore.find?_put, if_pos rfl]

theorem table_put_of_ne (desk : Desk) (object : Object kind) (h : other ≠ kind) :
    (desk.put object).store.table other = desk.store.table other := by
  rw [put, MemoryStore.table_put_of_ne _ _ h, MemoryStore.table_renewed]

theorem responses_put (desk : Desk) (object : Object kind) (h : Kind.response ≠ kind) :
    (desk.put object).store.responses = desk.store.responses :=
  desk.table_put_of_ne object h

/-- The desk after a deletion. -/
def deleted (desk : Desk) (now : Instant) (kind : Kind) (key : Key) : Desk :=
  { desk with store := (desk.store.delete now kind key).2 }

theorem performed_deleted (desk : Desk) (now : Instant) (kind : Kind) (key : Key) :
    desk.store.Performed now "" (.delete kind key) (desk.store.delete now kind key).1
      (desk.deleted now kind key).store :=
  MemoryStore.performed_delete kind key

/-- Wherever something was stored, something is stored. -/
def Keeps (desk after : Desk) : Prop :=
  ∀ (kind : Kind) (key : Key), (desk.store.find? kind key).isSome = true →
    (after.store.find? kind key).isSome = true

theorem Keeps.trans (h : desk.Keeps between) (h' : between.Keeps after) : desk.Keeps after :=
  fun kind key hfound => h' kind key (h kind key hfound)

theorem Still.keeps (h : desk.Still after) : desk.Keeps after :=
  fun _ _ hfound => h.find?.symm ▸ hfound

theorem keeps_put (desk : Desk) (object : Object kind) : desk.Keeps (desk.put object) := by
  intro other key hfound
  cases hleft : (desk.put object).store.find? other key with
  | some _ => rfl
  | none =>
    have hvacant := MemoryStore.find?_eq_none_of_put hleft
    rw [MemoryStore.find?_renewed] at hvacant
    rw [hvacant] at hfound
    cases hfound

/-- An object lies at its place on the desk. -/
structure Holds (desk : Desk) (key : Key) (object : Object kind) : Prop where
  keyed : desk.store.Keyed
  found : desk.store.find? kind key = some object

/-- An object lies at its place on the desk, is not being deleted, and carries the finalizer. -/
structure Tends (desk : Desk) (key : Key) (object : Object kind) : Prop
    extends Holds desk key object where
  live : object.metadata.isDeleting = false
  held : object.isHeld = true

variable {object : Object kind}

theorem Holds.key_eq (h : desk.Holds key object) : object.key = key :=
  h.keyed _ _ _ h.found

theorem Holds.still (h : desk.Holds key object) (hstill : desk.Still after) :
    after.Holds key object where
  keyed kind key object hfound := h.keyed kind key object (hstill.find? ▸ hfound)
  found := hstill.find?.trans h.found

theorem Holds.of_store (h : desk.Holds key object) (hstore : after.store = desk.store) :
    after.Holds key object where
  keyed := hstore ▸ h.keyed
  found := hstore ▸ h.found

/-- Writing an object of another kind leaves it where it is. -/
theorem Holds.put_of_ne {second : Object other} (h : desk.Holds key object) (hne : kind ≠ other) :
    (desk.put second).Holds key object where
  keyed := h.keyed.renewed.put second
  found := by
    rw [MemoryStore.find?, desk.table_put_of_ne second hne]
    exact h.found

/-- Deleting another object leaves it where it is. -/
theorem Holds.deleted (h : desk.Holds key object) (howned : kind.isOwned = false)
    (hne : kind = other → key ≠ place) (now : Instant) :
    (desk.deleted now other place).Holds key object where
  keyed := (desk.performed_deleted now other place).keyed h.keyed
  found := by
    rw [(desk.performed_deleted now other place).find?_of_delete h.keyed howned hne]
    exact h.found

/-- Under a key of a kind the broker has nothing left to do. -/
inductive Cleared (desk : Desk) (kind : Kind) (key : Key) : Prop
  /-- There is no object. -/
  | gone (absent : desk.store.find? kind key = none)
  /-- The object is being deleted, and waits only for others. -/
  | left {object : Object kind} (found : desk.store.find? kind key = some object)
    (deleting : object.metadata.isDeleting = true) (bare : object.isHeld = false)

theorem Cleared.still (h : desk.Cleared kind key) (hstill : desk.Still after) :
    after.Cleared kind key := by
  cases h with
  | gone habsent => exact .gone (hstill.find?.trans habsent)
  | left hfound hdeleting hbare => exact .left (hstill.find?.trans hfound) hdeleting hbare

/-- A tended object that still lies at its place is still tended. -/
theorem Tends.of_holds (h : desk.Tends key object) (hafter : after.Holds key object) :
    after.Tends key object :=
  { hafter with live := h.live, held := h.held }

/-- A tended object may be given another status. -/
theorem Tends.patched (h : desk.Tends key object) (status : kind.Status) (version : Nat) :
    (desk.put (object.patched status version)).Tends key (object.patched status version) where
  keyed := h.keyed.renewed.put _
  found := h.key_eq ▸ desk.find?_put_self (object.patched status version)
  live := h.live
  held := h.held

end Desk

/-! ### Where a program ends -/

/-- The program ends with a value and a desk that fit. -/
def Program.Ends {α : Type} (calm : Calm) (program : Steps α) (desk : Desk)
    (post : α → Desk → Prop) : Prop :=
  post (program.run calm.answer desk).1 (program.run calm.answer desk).2

namespace Program

variable {α β : Type} {desk : Desk}

theorem Ends.mono {program : Steps α} {post post' : α → Desk → Prop}
    (h : program.Ends calm desk post)
    (himp : ∀ value after, post value after → post' value after) :
    program.Ends calm desk post' :=
  himp _ _ h

/-- **Ends are compositional.** -/
theorem ends_bind {program : Steps α} {rest : α → Steps β} {post : β → Desk → Prop}
    (h : program.Ends calm desk fun value after => (rest value).Ends calm after post) :
    Ends calm (program >>= rest) desk post := by
  induction program generalizing desk with
  | done value => exact h
  | ask call next ih => exact ih _ h

theorem ends_policies {post : PolicySnapshot → Desk → Prop} (h : post calm.snapshot desk) :
    Ends calm (Program.call (I := passInterface) .policies) desk post :=
  h

end Program

namespace Pass

open Program

variable {α β : Type} {desk : Desk}

/-- The part of a pass ends with a result and a desk that fit. -/
def Ends (calm : Calm) (pass : Pass α) (desk : Desk) (post : Except Failure α → Desk → Prop) :
    Prop :=
  Program.Ends calm pass.run desk post

/-- What is to hold where another part follows: after a failure nothing comes any more. -/
def Onward (calm : Calm) (rest : α → Pass β) (post : Except Failure β → Desk → Prop) :
    Except Failure α → Desk → Prop
  | .ok value, after => (rest value).Ends calm after post
  | .error failure, after => post (.error failure) after

theorem Ends.mono {pass : Pass α} {post post' : Except Failure α → Desk → Prop}
    (h : pass.Ends calm desk post)
    (himp : ∀ result after, post result after → post' result after) :
    pass.Ends calm desk post' :=
  himp _ _ h

variable {post : Except Failure β → Desk → Prop}

theorem ends_pure {value : β} (h : post (.ok value) desk) :
    (pure value : Pass β).Ends calm desk post :=
  h

theorem ends_result {result : Except Failure β} (h : post result desk) :
    (ExceptT.mk (pure result) : Pass β).Ends calm desk post :=
  h

theorem ends_bind {pass : Pass α} {rest : α → Pass β}
    (h : pass.Ends calm desk (Onward calm rest post)) : (pass >>= rest).Ends calm desk post := by
  refine Program.ends_bind (Program.Ends.mono h fun result after hresult => ?_)
  cases result with
  | ok value => exact hresult
  | error failure => exact hresult

theorem ends_lift {steps : Steps β} (h : steps.Ends calm desk fun value => post (.ok value)) :
    (ExceptT.lift steps : Pass β).Ends calm desk post :=
  Program.ends_bind h

/-! ### One call -/

theorem ends_clock {post : Except Failure Instant → Desk → Prop} (h : post (.ok calm.now) desk) :
    clock.Ends calm desk post :=
  h

theorem ends_freshId {post : Except Failure String → Desk → Prop}
    (h : post (.ok (calm.ids desk.drawn)) { desk with drawn := desk.drawn + 1 }) :
    freshId.Ends calm desk post :=
  h

/-- A call that draws no identifier. -/
theorem ends_ask {call : StoreCall} {reply : call.Reply} {store : MemoryStore}
    {post : call.Reply → Desk → Prop} (htaken : desk.store.takesUid call = false)
    (hperform : desk.store.perform calm.now (calm.ids desk.drawn) call = (reply, store))
    (h : post reply { desk with store }) : (ask call).Ends calm desk post := by
  change post (calm.answer (.store call) desk).1 (calm.answer (.store call) desk).2
  rw [Calm.answer, hperform, htaken]
  exact h

theorem ends_find {post : Except Failure (Option (Object kind)) → Desk → Prop}
    (h : post (.ok (desk.store.find? kind key)) desk) :
    (ask (.find kind key)).Ends calm desk post :=
  h

theorem ends_listResponses {scope : Scope} {name : String}
    {post : Except Failure (List Response) → Desk → Prop}
    (h : post (.ok (desk.store.listResponses scope name)) desk) :
    (ask (.listResponses scope name)).Ends calm desk post :=
  h

theorem ends_create_of_refused {object : Object kind} {failure : Failure}
    {post : Except Failure (Object kind) → Desk → Prop}
    (hcheck : desk.store.checkVacant kind object.key = .error failure)
    (h : post (.error failure) desk.renewed) : (ask (.create kind object)).Ends calm desk post := by
  refine ends_ask ?_ (MemoryStore.create_of_refused hcheck) h
  rw [MemoryStore.takesUid, hcheck]
  rfl

/-- **A new object is stored**, unless its key is malformed or taken. -/
theorem ends_create {object : Object kind} {post : Except Failure (Object kind) → Desk → Prop}
    (hmalformed : ∀ failure, object.key.validate = .error failure →
      post (.error failure) desk.renewed)
    (htaken : ∀ stored, object.key.validate = .ok () →
      desk.store.find? kind object.key = some stored →
        post (.error (kind.taken object.key)) desk.renewed)
    (hcreated : ∀ (drawn : Nat) (created : Object kind), object.key.validate = .ok () →
      desk.store.find? kind object.key = none → created.key = object.key →
        post (.ok created) { desk.put created with drawn }) :
    (ask (.create kind object)).Ends calm desk post := by
  have hcheck := desk.store.checkVacant_eq kind object.key
  cases hkey : object.key.validate with
  | error failure =>
    rw [hkey] at hcheck
    exact ends_create_of_refused hcheck (hmalformed failure hkey)
  | ok _ =>
    cases hfound : desk.store.find? kind object.key with
    | some stored =>
      rw [hkey, hfound] at hcheck
      exact ends_create_of_refused hcheck (htaken stored hkey hfound)
    | none =>
      rw [hkey, hfound] at hcheck
      change post (calm.answer (.store (.create kind object)) desk).1
        (calm.answer (.store (.create kind object)) desk).2
      rw [Calm.answer, MemoryStore.perform, MemoryStore.create_of_vacant hcheck]
      exact hcreated _ _ hkey hfound rfl

/-- The stored object is given the finalizer. -/
theorem ends_hold {start : Object kind} {post : Except Failure (Object kind) → Desk → Prop}
    (hfound : desk.store.find? kind start.key = some start)
    (h : post (.ok (start.withLinksOf start.withFinalizer (desk.store.version + 1)))
      (desk.put (start.withLinksOf start.withFinalizer (desk.store.version + 1)))) :
    (ask (.updateMetadata kind start.withFinalizer)).Ends calm desk post := by
  have hstored : desk.store.find? kind start.withFinalizer.key = some start := by
    rwa [Object.key_withFinalizer]
  obtain ⟨hreply, hafter⟩ :=
    MemoryStore.updateMetadata_of_find? hstored start.version_withFinalizer.symm
  have hunspent := start.isSpent_withLinksOf_withFinalizer start (desk.store.version + 1)
  exact ends_ask rfl (Prod.ext hreply (hafter hunspent)) h

/-- **The finalizer is taken off** the stored object, which goes if it was waiting for nothing
else. -/
theorem ends_release {object : Object kind} (h : desk.Holds key object) :
    (ask (.updateMetadata kind object.withoutFinalizer)).Ends calm desk fun result after =>
      ∃ released, result = .ok released ∧ released.isHeld = false ∧
        released.metadata.isDeleting = object.metadata.isDeleting ∧
        (after.Holds key released ∨
          object.metadata.isDeleting = true ∧ after.store.find? kind key = none) := by
  obtain rfl := h.key_eq
  have hfound := h.found
  have hstored : desk.store.find? kind object.withoutFinalizer.key = some object := hfound
  obtain ⟨hreply, -⟩ := MemoryStore.updateMetadata_of_find? hstored rfl
  have hperformed : desk.store.Performed calm.now "" (.updateMetadata kind object.withoutFinalizer)
    _ _ := MemoryStore.performed_updateMetadata _
  rw [hreply] at hperformed
  refine ends_ask rfl (Prod.ext hreply rfl) ?_
  obtain ⟨hbare, hsame, hleft⟩ := hperformed.of_release hfound
  exact ⟨_, rfl, hbare, hsame, hleft.imp_left fun hleft => ⟨hperformed.keyed h.keyed, hleft⟩⟩

/-- The status of the stored object is written. -/
theorem ends_patchStatus {base : Object kind} {status : kind.Status}
    {post : Except Failure (Object kind) → Desk → Prop}
    (hfound : desk.store.find? kind base.key = some base)
    (h : post (.ok (base.patched status (desk.store.version + 1)))
      (desk.put (base.patched status (desk.store.version + 1)))) :
    (ask (.patchStatus kind base status)).Ends calm desk post :=
  ends_ask rfl (MemoryStore.patchStatus_of_find? status hfound rfl) h

/-- A missing object is none. -/
theorem ends_tolerate {pass : Pass β} {post : Except Failure (Option β) → Desk → Prop}
    (h : pass.Ends calm desk fun result => post (Failure.toleratingMissing result)) :
    pass.toleratingMissing.Ends calm desk post :=
  Program.ends_bind h

/-- A deletion removes its object, or finds that it is gone already. -/
theorem ends_delete {post : Except Failure (Option Unit) → Desk → Prop}
    (h : ∀ value, post (.ok value) (desk.deleted calm.now kind key)) :
    (ask (.delete kind key)).toleratingMissing.Ends calm desk post := by
  have hreply : ∃ value,
      Failure.toleratingMissing (desk.store.delete calm.now kind key).1 = .ok value := by
    have hperformed := desk.performed_deleted calm.now kind key
    generalize (desk.store.delete calm.now kind key).1 = reply at hperformed ⊢
    generalize (desk.deleted calm.now kind key).store = after at hperformed
    cases hperformed with
    | surveyed _ hsurvey => cases hsurvey
    | failed _ hpurpose => exact absurd rfl (hpurpose kind key)
    | missing => exact ⟨none, rfl⟩
    | marked | removed => exact ⟨some (), rfl⟩
  obtain ⟨value, hvalue⟩ := hreply
  change post (Failure.toleratingMissing (desk.store.delete calm.now kind key).1)
    (desk.deleted calm.now kind key)
  rw [hvalue]
  exact h value

/-- **The last step** of an object that is being deleted: the finalizer is taken off, unless the
object is gone already. -/
theorem ends_finish {object : Object kind} (h : desk.Holds key object)
    (hdeleting : object.metadata.isDeleting = true) :
    (ask (.updateMetadata kind object.withoutFinalizer)).toleratingMissing.Ends calm desk
      fun result after => (∃ released, result = .ok released) ∧ after.Cleared kind key := by
  refine ends_tolerate ((ends_release h).mono ?_)
  rintro _ after ⟨released, rfl, hbare, hsame, hleft⟩
  refine ⟨⟨some released, rfl⟩, ?_⟩
  rcases hleft with hleft | ⟨-, hgone⟩
  · exact .left hleft.found (hsame.trans hdeleting) hbare
  · exact .gone hgone

/-! ### Several calls in a row -/

/-- Several deletions in a row all succeed, and keep what each of them keeps. -/
theorem ends_failures {kept : Desk → Prop} {calls : List StoreCall}
    (hcalls : ∀ call ∈ calls, ∃ (kind : Kind) (key : Key), call = .delete kind key ∧
      ∀ desk : Desk, kept desk → kept (desk.deleted calm.now kind key)) (h : kept desk) :
    (askEach.failures calls).Ends calm desk fun failures after => failures = [] ∧ kept after := by
  induction calls generalizing desk with
  | nil => exact ⟨rfl, h⟩
  | cons call rest ih =>
    obtain ⟨kind, key, rfl, hkept⟩ := hcalls call List.mem_cons_self
    refine Program.ends_bind (ends_delete fun value => ?_)
    exact ih (fun call hcall => hcalls call (List.mem_cons_of_mem _ hcall)) (hkept desk h)

/-- **Several deletions in a row** succeed, and keep what each of them keeps. -/
theorem ends_askEach {kept : Desk → Prop} {calls : List StoreCall}
    (hcalls : ∀ call ∈ calls, ∃ (kind : Kind) (key : Key), call = .delete kind key ∧
      ∀ desk : Desk, kept desk → kept (desk.deleted calm.now kind key)) (h : kept desk) :
    (askEach calls).Ends calm desk fun result after => result = .ok () ∧ kept after := by
  refine Program.ends_bind ((ends_failures hcalls h).mono ?_)
  rintro _ after ⟨rfl, hkept⟩
  exact ⟨rfl, hkept⟩

/-- Several deletions in a row also bring about what one of them does, if the others keep it. -/
theorem ends_askEach_of_mem {kept reached : Desk → Prop} {calls : List StoreCall}
    (hcalls : ∀ call ∈ calls, ∃ (kind : Kind) (key : Key), call = .delete kind key ∧
      ∀ desk : Desk, kept desk → kept (desk.deleted calm.now kind key) ∧
        (reached desk → reached (desk.deleted calm.now kind key)))
    (hmem : .delete kind key ∈ calls)
    (hreached : ∀ desk : Desk, kept desk → reached (desk.deleted calm.now kind key))
    (h : kept desk) : (askEach calls).Ends calm desk fun result after =>
      result = .ok () ∧ kept after ∧ reached after := by
  have hfailures : (askEach.failures calls).Ends calm desk fun failures after =>
      failures = [] ∧ kept after ∧ reached after := by
    induction calls generalizing desk with
    | nil => cases hmem
    | cons call rest ih =>
      have hrest := fun call hcall => hcalls call (List.mem_cons_of_mem _ hcall)
      obtain ⟨other, place, rfl, hkept⟩ := hcalls call List.mem_cons_self
      refine Program.ends_bind (ends_delete fun value => ?_)
      rcases List.mem_cons.1 hmem with hfirst | hlater
      · cases hfirst
        refine ends_failures (fun call hcall => ?_) ⟨(hkept desk h).1, hreached desk h⟩
        obtain ⟨other, place, heq, hkept⟩ := hrest call hcall
        exact ⟨other, place, heq, fun desk hboth =>
          ⟨(hkept desk hboth.1).1, (hkept desk hboth.1).2 hboth.2⟩⟩
      · exact ih hrest hlater (hkept desk h).1
  refine Program.ends_bind (hfailures.mono ?_)
  rintro _ after ⟨rfl, hkept⟩
  exact ⟨rfl, hkept⟩

theorem ends_tellEach {events : List AccessEvent} {post : Except Failure Unit → Desk → Prop}
    (h : ∀ told, post (.ok ()) { desk with told }) : (tellEach events).Ends calm desk post := by
  induction events generalizing desk with
  | nil => exact h desk.told
  | cons event rest ih => exact ih h

/-! ### Securing the object -/

/-- **Both engines secure their object in the same way**: afterwards it is tended. -/
theorem ends_secure {start : Object kind} (h : desk.Holds key start)
    (hlive : start.metadata.isDeleting = false) :
    Pass.Ends calm (if start.metadata.hasFinalizer cleanupFinalizer then pure start
      else ask (.updateMetadata kind start.withFinalizer)) desk fun result after =>
        ∃ object, result = .ok object ∧ after.Tends key object := by
  split
  · next hheld => exact ⟨start, rfl, { h with live := hlive, held := hheld }⟩
  · obtain rfl := h.key_eq
    refine ends_hold h.found ⟨_, rfl, ?_⟩
    exact {
      keyed := h.keyed.renewed.put _
      found := desk.find?_put_self _
      live := hlive
      held := start.isHeld_withFinalizer }

/-- An object that carries the finalizer is left as it is. -/
theorem ends_secure_of_isHeld {start : Object kind}
    {post : Except Failure (Object kind) → Desk → Prop} (h : start.isHeld = true)
    (hpost : post (.ok start) desk) :
    Pass.Ends calm (if start.metadata.hasFinalizer cleanupFinalizer then pure start
      else ask (.updateMetadata kind start.withFinalizer)) desk post := by
  have hheld : start.metadata.hasFinalizer cleanupFinalizer = true := h
  rw [if_pos hheld]
  exact hpost

/-! ### Looking at the object -/

/-- How both engines look at their object: one that is being deleted is taken the last steps, and
any other one is brought forward. -/
def look (key : Key) (finalize advance : Object kind → Pass Outcome) : Pass Outcome := do
  match ← ask (.find kind key) with
  | none => return .done
  | some object => if object.metadata.isDeleting then finalize object else advance object

section Look

variable {finalize advance : Object kind → Pass Outcome}
  {post : Except Failure Outcome → Desk → Prop}

theorem ends_look (hgone : desk.store.find? kind key = none → post (.ok .done) desk)
    (hdeleting : ∀ object : Object kind, desk.store.find? kind key = some object →
      object.metadata.isDeleting = true → (finalize object).Ends calm desk post)
    (hlive : ∀ object : Object kind, desk.store.find? kind key = some object →
      object.metadata.isDeleting = false → (advance object).Ends calm desk post) :
    (look key finalize advance).Ends calm desk post := by
  refine ends_bind (ends_find ?_)
  cases hfound : desk.store.find? kind key with
  | none => exact hgone hfound
  | some object =>
    change Pass.Ends calm (if _ then _ else _) desk post
    split
    · next hmarked => exact hdeleting object hfound hmarked
    · next hunmarked => exact hlive object hfound (Bool.eq_false_iff.2 hunmarked)

/-- A tended object is brought forward. -/
theorem ends_look_of_tends {object : Object kind} (h : desk.Tends key object)
    (hadvance : (advance object).Ends calm desk post) :
    (look key finalize advance).Ends calm desk post := by
  refine ends_look (fun hgone => ?_) (fun second hfound hdeleting => ?_) fun second hfound _ => ?_
  · exact absurd (h.found.symm.trans hgone) nofun
  · obtain rfl : object = second := Option.some.inj (h.found.symm.trans hfound)
    exact absurd (h.live.symm.trans hdeleting) nofun
  · obtain rfl : object = second := Option.some.inj (h.found.symm.trans hfound)
    exact hadvance

/-- Where there is nothing left to do, the pass is done, provided that it leaves an object alone
which waits only for others. -/
theorem ends_look_of_cleared (h : desk.Cleared kind key)
    (hfinalize : ∀ object : Object kind, object.isHeld = false →
      (finalize object).Ends calm desk fun result after => result = .ok .done ∧ after = desk) :
    (look key finalize advance).Ends calm desk
      fun result after => result = .ok .done ∧ after = desk := by
  refine ends_look (fun _ => ⟨rfl, rfl⟩) (fun second hfound _ => ?_) fun second hfound hlive => ?_
  · cases h with
    | gone habsent => exact absurd (habsent.symm.trans hfound) nofun
    | @left object hstored _ hbare =>
      obtain rfl : object = second := Option.some.inj (hstored.symm.trans hfound)
      exact hfinalize object hbare
  · cases h with
    | gone habsent => exact absurd (habsent.symm.trans hfound) nofun
    | @left object hstored hdeleting =>
      obtain rfl : object = second := Option.some.inj (hstored.symm.trans hfound)
      exact absurd (hlive.symm.trans hdeleting) nofun

end Look

end Pass

end AccessBroker
