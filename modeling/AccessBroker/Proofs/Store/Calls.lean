import AccessBroker.Proofs.Store.LookUps

/-!
# What a call comes to

Every call to the store in memory comes to one of a dozen things, which
`AccessBroker.MemoryStore.Performed` lists together with the answer and the store
that is left. The theory never opens the store's own definitions again: what an
answer tells, which versions are given out and what goes with an owner is read
off that list.
-/

namespace AccessBroker

open AccessBroker.Time

namespace MemoryStore

variable {kind other : Kind} {key : Key} {store : MemoryStore} {now : Instant} {uid : String}

/-- Every object lies under its own key. -/
def Keyed (store : MemoryStore) : Prop :=
  ∀ (kind : Kind) (key : Key) (object : Object kind),
    store.find? kind key = some object → object.key = key

/-- Two stores with the same objects. -/
def Agrees (after store : MemoryStore) : Prop :=
  ∀ (kind : Kind) (key : Key), after.find? kind key = store.find? kind key

/-- What a call comes to: its answer, and the store that it leaves. -/
inductive Performed (now : Instant) (uid : String) (store : MemoryStore) :
    (call : StoreCall) → call.Reply → MemoryStore → Prop
  /-- An object is looked up. -/
  | found (kind : Kind) (key : Key) :
    Performed now uid store (.find kind key) (.ok (store.find? kind key)) store
  /-- The responses to a request are looked up. -/
  | heard (scope : Scope) (request : String) :
    Performed now uid store (.listResponses scope request)
      (.ok (store.listResponses scope request)) store
  /-- A listing is made, or the feed is read or cut. -/
  | surveyed {call : StoreCall} (reply : call.Reply) {after : MemoryStore}
    (survey : call.key? = none) (agrees : after.Agrees store)
    (version : after.version = store.version) : Performed now uid store call reply after
  /-- A write other than a deletion is turned away. -/
  | failed {call : StoreCall} (failure : Failure) {after : MemoryStore}
    (purpose : ∀ kind key, call ≠ .delete kind key) (agrees : after.Agrees store)
    (version : store.version ≤ after.version) :
    Performed now uid store call (.error failure) after
  /-- A new object is stored. -/
  | created {kind : Kind} {object : Object kind} (vacant : store.find? kind object.key = none)
    (taken : store.takesUid (.create kind object) = true) :
    Performed now uid store (.create kind object)
      (.ok (object.pristine.born now uid (store.version + 1)))
      (store.renewed.put (object.pristine.born now uid (store.version + 1)))
  /-- A new policy is stored. -/
  | declared {policy : Policy} (taken : store.takesUid (.savePolicy policy) = true) :
    Performed now uid store (.savePolicy policy) (.ok (policy.born now uid (store.version + 1)))
      (store.renewed.put (policy.born now uid (store.version + 1)))
  /-- A policy takes the place of another one. -/
  | replaced {policy stored : Policy} (found : store.find? .policy policy.key = some stored) :
    Performed now uid store (.savePolicy policy)
      (.ok (policy.inPlaceOf stored (store.version + 1)))
      (store.renewed.put (policy.inPlaceOf stored (store.version + 1)))
  /-- The finalizers and owners are written. -/
  | linked {kind : Kind} {object stored : Object kind}
    (found : store.find? kind object.key = some stored)
    (current : stored.metadata.version = object.metadata.version)
    (unspent : (stored.withLinksOf object (store.version + 1)).isSpent = false) :
    Performed now uid store (.updateMetadata kind object)
      (.ok (stored.withLinksOf object (store.version + 1)))
      (store.renewed.put (stored.withLinksOf object (store.version + 1)))
  /-- The last finalizer of a deleted object is taken off. -/
  | released {kind : Kind} {object stored : Object kind}
    (found : store.find? kind object.key = some stored)
    (current : stored.metadata.version = object.metadata.version)
    (spent : (stored.withLinksOf object (store.version + 1)).isSpent = true) :
    Performed now uid store (.updateMetadata kind object)
      (.ok (stored.withLinksOf object (store.version + 1)))
      (store.renewed.drop (stored.withLinksOf object (store.version + 1)))
  /-- The status is written. -/
  | patched {kind : Kind} {base stored : Object kind} {status : kind.Status}
    (found : store.find? kind base.key = some stored)
    (current : stored.metadata.version = base.metadata.version) :
    Performed now uid store (.patchStatus kind base status)
      (.ok (stored.patched status (store.version + 1)))
      (store.renewed.put (stored.patched status (store.version + 1)))
  /-- There is nothing to delete. -/
  | missing {kind : Kind} {key : Key} (vacant : store.find? kind key = none) :
    Performed now uid store (.delete kind key) (.error (kind.missing key)) store.renewed
  /-- An object with finalizers is marked as deleting. -/
  | marked {kind : Kind} {key : Key} {stored : Object kind}
    (found : store.find? kind key = some stored) (held : stored.metadata.finalizers ≠ []) :
    Performed now uid store (.delete kind key) (.ok ())
      (store.renewed.put (stored.marked now (store.version + 1)))
  /-- An object without finalizers is removed. -/
  | removed {kind : Kind} {key : Key} {stored : Object kind}
    (found : store.find? kind key = some stored) (free : stored.metadata.finalizers = []) :
    Performed now uid store (.delete kind key) (.ok ()) (store.renewed.drop stored)

theorem agrees_renewed (store : MemoryStore) : store.renewed.Agrees store :=
  fun _ _ => find?_renewed store

theorem performed_create (object : Object kind) :
    Performed now uid store (.create kind object) (store.create now uid object).1
      (store.create now uid object).2 := by
  unfold create
  dsimp only
  rw [checkVacant_renewed]
  split
  · next failure _ => exact .failed failure nofun store.agrees_renewed (Nat.le_succ _)
  · next hvacant =>
    refine .created (find?_eq_none_of_checkVacant hvacant) ?_
    rw [takesUid, hvacant]
    rfl

theorem performed_savePolicy (policy : Policy) :
    Performed now uid store (.savePolicy policy) (store.savePolicy now uid policy).1
      (store.savePolicy now uid policy).2 := by
  unfold savePolicy
  split
  · next failure _ => exact .failed failure nofun (fun _ _ => rfl) (Nat.le_refl _)
  · next hkey =>
    cases hfound : store.find? .policy policy.key with
    | none =>
      simp only [find?_renewed, hfound]
      exact .declared (isOk_checkVacant hkey hfound)
    | some stored =>
      simp only [find?_renewed, hfound]
      exact .replaced hfound

theorem performed_updateMetadata (object : Object kind) :
    Performed now uid store (.updateMetadata kind object) (store.updateMetadata object).1
      (store.updateMetadata object).2 := by
  unfold updateMetadata
  dsimp only
  rw [current_renewed]
  split
  · next failure _ => exact .failed failure nofun store.agrees_renewed (Nat.le_succ _)
  · next stored hstored =>
    obtain ⟨hfound, hcurrent⟩ := current_eq_ok hstored
    split
    · next hspent => exact .released hfound hcurrent hspent
    · next hspent => exact .linked hfound hcurrent (Bool.eq_false_iff.2 hspent)

theorem performed_patchStatus (base : Object kind) (status : kind.Status) :
    Performed now uid store (.patchStatus kind base status) (store.patchStatus base status).1
      (store.patchStatus base status).2 := by
  unfold patchStatus
  dsimp only
  rw [current_renewed]
  split
  · next failure _ => exact .failed failure nofun store.agrees_renewed (Nat.le_succ _)
  · next stored hstored =>
    obtain ⟨hfound, hcurrent⟩ := current_eq_ok hstored
    exact .patched hfound hcurrent

theorem performed_delete (kind : Kind) (key : Key) :
    Performed now uid store (.delete kind key) (store.delete now kind key).1
      (store.delete now kind key).2 := by
  unfold delete
  dsimp only
  rw [find?_renewed]
  split
  · next hvacant => exact .missing hvacant
  · next stored hfound =>
    split
    · next hfree => exact .removed hfound (List.isEmpty_iff.1 hfree)
    · next hheld => exact .marked hfound fun hfree => hheld (List.isEmpty_iff.2 hfree)

/-- **Every call comes to one of the listed things.** -/
theorem performed_perform (now : Instant) (uid : String) (store : MemoryStore)
    (call : StoreCall) :
    Performed now uid store call (store.perform now uid call).1
      (store.perform now uid call).2 := by
  cases call with
  | find kind key => exact .found kind key
  | listResponses scope request => exact .heard scope request
  | create kind object => exact performed_create object
  | savePolicy policy => exact performed_savePolicy policy
  | updateMetadata kind object => exact performed_updateMetadata object
  | patchStatus kind base status => exact performed_patchStatus base status
  | delete kind key => exact performed_delete kind key
  | listPolicies | listKeys | changesSince => exact .surveyed _ rfl (fun _ _ => rfl) rfl
  | compact through => exact .surveyed _ rfl (fun kind _ => by cases kind <;> rfl) rfl

namespace Performed

variable {call : StoreCall} {reply : call.Reply} {after : MemoryStore}

theorem version_foldl_record (objects : List (Object kind)) (store : MemoryStore) :
    (objects.foldl record store).version = store.version := by
  induction objects generalizing store with
  | nil => rfl
  | cons object rest ih => exact ih _

theorem version_withTable (store : MemoryStore) (objects : Table Key (Object kind)) :
    (store.withTable objects).version = store.version := by
  cases kind <;> rfl

theorem version_put (store : MemoryStore) (object : Object kind) :
    (store.put object).version = store.version :=
  version_withTable store _

theorem version_dropOwned (store : MemoryStore) (owner : String) :
    (store.dropOwned kind owner).version = store.version := by
  rw [dropOwned, version_foldl_record, version_withTable]

theorem version_drop (store : MemoryStore) (object : Object kind) :
    (store.drop object).version = store.version := by
  rw [drop, version_dropOwned, version_dropOwned, record, version_withTable]

/-- The counter of versions never goes back. -/
theorem version_le (h : Performed now uid store call reply after) :
    store.version ≤ after.version := by
  cases h with
  | found | heard => exact Nat.le_refl _
  | surveyed _ _ _ hversion => exact Nat.le_of_eq hversion.symm
  | failed _ _ _ hversion => exact hversion
  | missing => exact Nat.le_succ _
  | created | declared | replaced | linked | patched | marked =>
    exact (version_put store.renewed _).symm ▸ Nat.le_succ _
  | released | removed => exact (version_drop store.renewed _).symm ▸ Nat.le_succ _

/-- A call gives out the next version, or leaves every object alone. -/
theorem agrees_or_version (h : Performed now uid store call reply after) :
    after.Agrees store ∨ after.version = store.version + 1 := by
  cases h with
  | found | heard => exact .inl fun _ _ => rfl
  | surveyed _ _ hagrees | failed _ _ hagrees => exact .inl hagrees
  | missing => exact .inl store.agrees_renewed
  | created | declared | replaced | linked | patched | marked =>
    exact .inr (version_put store.renewed _)
  | released | removed => exact .inr (version_drop store.renewed _)

end Performed

/-! ### What an answer tells -/

namespace Performed

variable {after : MemoryStore}

theorem of_find {found : Option (Object kind)}
    (h : Performed now uid store (.find kind key) (.ok found) after) :
    found = store.find? kind key ∧ after = store := by
  cases h with
  | found => exact ⟨rfl, rfl⟩
  | surveyed _ hsurvey => cases hsurvey

theorem of_listResponses {scope : Scope} {request : String} {responses : List Response}
    (h : Performed now uid store (.listResponses scope request) (.ok responses) after) :
    responses = store.listResponses scope request ∧ after = store := by
  cases h with
  | heard => exact ⟨rfl, rfl⟩
  | surveyed _ hsurvey => cases hsurvey

theorem of_create {object created : Object kind}
    (h : Performed now uid store (.create kind object) (.ok created) after) :
    store.find? kind object.key = none ∧
      created = object.pristine.born now uid (store.version + 1) ∧
      after.find? kind created.key = some created := by
  cases h with
  | created hvacant => exact ⟨hvacant, rfl, by rw [find?_put, if_pos rfl]⟩
  | surveyed _ hsurvey => cases hsurvey

/-- An object whose finalizers and owners were written is stored, unless it was
only waiting for that. -/
theorem of_updateMetadata {object updated : Object kind}
    (h : Performed now uid store (.updateMetadata kind object) (.ok updated) after) :
    ∃ old, store.find? kind object.key = some old ∧
      old.metadata.version = object.metadata.version ∧
      updated = old.withLinksOf object (store.version + 1) ∧
      (updated.isSpent = false → after.find? kind updated.key = some updated) := by
  cases h with
  | linked hfound hcurrent =>
    exact ⟨_, hfound, hcurrent, rfl, fun _ => by rw [find?_put, if_pos rfl]⟩
  | released hfound hcurrent hspent =>
    exact ⟨_, hfound, hcurrent, rfl, fun h => absurd h (by rw [hspent]; decide)⟩
  | surveyed _ hsurvey => cases hsurvey

theorem of_patchStatus {base patched : Object kind} {status : kind.Status}
    (h : Performed now uid store (.patchStatus kind base status) (.ok patched) after) :
    ∃ old, store.find? kind base.key = some old ∧
      old.metadata.version = base.metadata.version ∧
      patched = old.patched status (store.version + 1) ∧
      after.find? kind patched.key = some patched := by
  cases h with
  | patched hfound hcurrent => exact ⟨_, hfound, hcurrent, rfl, by rw [find?_put, if_pos rfl]⟩
  | surveyed _ hsurvey => cases hsurvey

/-- **After a deletion was asked for, nothing is stored under the key that is not
deleting.** -/
theorem isDeleting_of_delete {reply : Except Failure Unit} {left : Object kind}
    (h : Performed now uid store (.delete kind key) reply after) (hkeyed : store.Keyed)
    (hleft : after.find? kind key = some left) : left.metadata.isDeleting = true := by
  cases h with
  | surveyed _ hsurvey => cases hsurvey
  | failed _ hpurpose => exact absurd rfl (hpurpose kind key)
  | missing hvacant =>
    rw [find?_renewed, hvacant] at hleft
    cases hleft
  | marked hfound =>
    rw [find?_put, Object.key_marked, hkeyed _ _ _ hfound, if_pos rfl] at hleft
    obtain rfl := Option.some.inj hleft
    exact Object.isDeleting_marked _ _ _
  | @removed _ _ stored hfound =>
    have hgone := find?_drop_self store.renewed stored
    rw [hkeyed _ _ _ hfound, hleft] at hgone
    cases hgone

/-- **What an object owned is gone once it is.** -/
theorem not_isOwnedBy_of_gone {call : StoreCall} {reply : call.Reply} {old : Object kind}
    {owned : Object other} {place : Key}
    (h : Performed now uid store call reply after) (hkeyed : store.Keyed)
    (hkind : kind.isOwned = false) (hother : other.isOwned = true)
    (hfound : store.find? kind key = some old) (hgone : after.find? kind key = none)
    (howned : after.find? other place = some owned) :
    owned.metadata.isOwnedBy old.metadata.uid = false := by
  have hbefore : store.renewed.find? kind key = some old := by
    rw [find?_renewed]
    exact hfound
  cases h with
  | found | heard | missing => simp [hfound] at hgone
  | surveyed _ _ hagrees | failed _ _ hagrees =>
    rw [hagrees, hfound] at hgone
    cases hgone
  | created | declared | replaced | linked | patched | marked =>
    have hvacant := find?_eq_none_of_put hgone
    rw [find?_renewed, hfound] at hvacant
    cases hvacant
  | @released _ object stored hstored =>
    obtain ⟨rfl, rfl⟩ := eq_of_drop_gone hkind hbefore hgone
    rw [Object.key_withLinksOf, hkeyed _ _ _ hstored, hstored] at hfound
    obtain rfl := Option.some.inj hfound
    have hspared := not_isOwnedBy_of_find?_drop hother howned
    exact hspared
  | @removed _ _ stored hstored =>
    obtain ⟨rfl, rfl⟩ := eq_of_drop_gone hkind hbefore hgone
    rw [hkeyed _ _ _ hstored, hstored] at hfound
    obtain rfl := Option.some.inj hfound
    exact not_isOwnedBy_of_find?_drop hother howned

end Performed

end MemoryStore

end AccessBroker
