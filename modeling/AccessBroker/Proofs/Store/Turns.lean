import AccessBroker.Proofs.Store.Calls

/-!
# How a stored object can turn

A call turns what is stored under a key of a kind into something else, or leaves it
alone, and `AccessBroker.MemoryStore.Turn` lists the ways in which it can. Everything
that is later said of stored objects over a whole run is an induction over this list.
-/

namespace AccessBroker

open AccessBroker.Time

namespace MemoryStore

variable {kind : Kind} {key : Key} {store : MemoryStore} {now : Instant} {uid : String}

/-- What a call can make of what is stored under a key of a kind, and what it is answered
with then. -/
inductive Turn (now : Instant) (uid : String) (store after : MemoryStore) :
    (call : StoreCall) → call.Reply → (kind : Kind) → Key → Prop
  /-- Nothing happens. -/
  | kept {call : StoreCall} {reply : call.Reply} {kind : Kind} {key : Key}
    (same : after.find? kind key = store.find? kind key) :
    Turn now uid store after call reply kind key
  /-- A new object is stored. -/
  | born {kind : Kind} {object : Object kind} (vacant : store.find? kind object.key = none)
    (taken : store.takesUid (.create kind object) = true)
    (stored : after.find? kind object.key =
      some (object.pristine.born now uid (store.version + 1))) :
    Turn now uid store after (.create kind object)
      (.ok (object.pristine.born now uid (store.version + 1))) kind object.key
  /-- A policy is stored, or takes the place of another one. -/
  | saved {policy saved : Policy} (stored : after.find? .policy policy.key = some saved)
    (place : saved.key = policy.key) (version : saved.metadata.version = store.version + 1)
    (identity : saved.metadata.uid = uid ∧ store.takesUid (.savePolicy policy) = true ∨
      ∃ old, store.find? .policy policy.key = some old ∧ saved.metadata.uid = old.metadata.uid) :
    Turn now uid store after (.savePolicy policy) (.ok saved) .policy policy.key
  /-- The finalizers and owners are written. -/
  | linked {kind : Kind} {object old : Object kind}
    (found : store.find? kind object.key = some old)
    (current : old.metadata.version = object.metadata.version)
    (stored : after.find? kind object.key = some (old.withLinksOf object (store.version + 1))) :
    Turn now uid store after (.updateMetadata kind object)
      (.ok (old.withLinksOf object (store.version + 1))) kind object.key
  /-- The last finalizer of a deleted object is taken off. -/
  | released {kind : Kind} {object old : Object kind}
    (found : store.find? kind object.key = some old)
    (current : old.metadata.version = object.metadata.version)
    (spent : (old.withLinksOf object (store.version + 1)).isSpent = true)
    (gone : after.find? kind object.key = none) :
    Turn now uid store after (.updateMetadata kind object)
      (.ok (old.withLinksOf object (store.version + 1))) kind object.key
  /-- The status is written. -/
  | patched {kind : Kind} {base old : Object kind} {status : kind.Status}
    (found : store.find? kind base.key = some old)
    (current : old.metadata.version = base.metadata.version)
    (stored : after.find? kind base.key = some (old.patched status (store.version + 1))) :
    Turn now uid store after (.patchStatus kind base status)
      (.ok (old.patched status (store.version + 1))) kind base.key
  /-- The object is marked as deleting. -/
  | marked {kind : Kind} {key : Key} {old : Object kind}
    (found : store.find? kind key = some old) (held : old.metadata.finalizers ≠ [])
    (stored : after.find? kind key = some (old.marked now (store.version + 1))) :
    Turn now uid store after (.delete kind key) (.ok ()) kind key
  /-- The object is removed. -/
  | removed {kind : Kind} {key : Key} {old : Object kind}
    (found : store.find? kind key = some old) (free : old.metadata.finalizers = [])
    (gone : after.find? kind key = none) :
    Turn now uid store after (.delete kind key) (.ok ()) kind key
  /-- The object goes with its owner. -/
  | collected {call : StoreCall} {reply : call.Reply} {kind : Kind} {key : Key}
    (owned : kind.isOwned = true) (gone : after.find? kind key = none) :
    Turn now uid store after call reply kind key

section Turns

variable {subject : Kind} {call : StoreCall} {reply : call.Reply} {after : MemoryStore}

/-- Where an object is put, other keys keep what they have. -/
theorem turn_put {object : Object subject} (hafter : after = store.renewed.put object)
    (h : after.find? subject object.key = some object →
      Turn now uid store after call reply subject object.key) :
    Turn now uid store after call reply kind key := by
  by_cases hsame : kind = subject ∧ key = object.key
  · obtain ⟨rfl, rfl⟩ := hsame
    exact h (by rw [hafter, find?_put, if_pos rfl])
  · refine .kept ?_
    rw [hafter]
    by_cases hkind : kind = subject
    · subst hkind
      rw [find?_put, if_neg fun hkey => hsame ⟨rfl, hkey⟩, find?_renewed]
    · rw [find?_put_of_ne _ _ hkind, find?_renewed]

/-- Where an object is dropped, other keys keep what they have, or lose what it
owned. -/
theorem turn_drop {object : Object subject} (hafter : after = store.renewed.drop object)
    (h : after.find? subject object.key = none →
      Turn now uid store after call reply subject object.key) :
    Turn now uid store after call reply kind key := by
  by_cases hsame : kind = subject ∧ key = object.key
  · obtain ⟨rfl, rfl⟩ := hsame
    exact h (by rw [hafter, find?_drop_self])
  · cases howned : kind.isOwned with
    | false =>
      refine .kept ?_
      rw [hafter, find?_drop_of_ne _ _ howned fun hkind hkey => hsame ⟨hkind, hkey⟩,
        find?_renewed]
    | true =>
      cases hleft : after.find? kind key with
      | none => exact .collected howned hleft
      | some left =>
        refine .kept ?_
        rw [hleft]
        rw [hafter] at hleft
        rw [← find?_of_find?_drop hleft, find?_renewed]

/-- **Every call turns what is stored in one of the listed ways**, or leaves it
alone. -/
theorem Performed.turn (hkeyed : store.Keyed)
    (h : Performed now uid store call reply after) (kind : Kind) (key : Key) :
    Turn now uid store after call reply kind key := by
  cases h with
  | found | heard => exact .kept rfl
  | surveyed _ _ hagrees | failed _ _ hagrees => exact .kept (hagrees kind key)
  | missing => exact .kept (find?_renewed store)
  | created hvacant htaken => exact turn_put rfl fun hstored => .born hvacant htaken hstored
  | declared htaken => exact turn_put rfl fun hstored => .saved hstored rfl rfl (.inl ⟨rfl, htaken⟩)
  | replaced hfound =>
    exact turn_put rfl fun hstored => .saved hstored rfl rfl (.inr ⟨_, hfound, rfl⟩)
  | linked hfound hcurrent =>
    refine turn_put rfl ?_
    rw [Object.key_withLinksOf, hkeyed _ _ _ hfound]
    exact .linked hfound hcurrent
  | released hfound hcurrent hspent =>
    refine turn_drop rfl ?_
    rw [Object.key_withLinksOf, hkeyed _ _ _ hfound]
    exact .released hfound hcurrent hspent
  | patched hfound hcurrent =>
    refine turn_put rfl ?_
    rw [Object.key_patched, hkeyed _ _ _ hfound]
    exact .patched hfound hcurrent
  | marked hfound hheld =>
    refine turn_put rfl ?_
    rw [Object.key_marked, hkeyed _ _ _ hfound]
    exact .marked hfound hheld
  | removed hfound hfree =>
    refine turn_drop rfl ?_
    rw [hkeyed _ _ _ hfound]
    exact .removed hfound hfree

/-- Whatever is stored after a call was stored before it, or has the next version. -/
theorem Turn.eq_or_version {object : Object kind} (h : Turn now uid store after call reply kind key)
    (hafter : after.find? kind key = some object) :
    store.find? kind key = some object ∨ object.metadata.version = store.version + 1 := by
  cases h with
  | kept hsame => exact .inl (hsame.symm.trans hafter)
  | born _ _ hstored | linked _ _ hstored | patched _ _ hstored =>
    rw [hstored] at hafter
    obtain rfl := Option.some.inj hafter
    exact .inr rfl
  | saved hstored _ hversion =>
    rw [hstored] at hafter
    obtain rfl := Option.some.inj hafter
    exact .inr hversion
  | @marked _ _ old hfound _ hstored =>
    rw [hstored] at hafter
    obtain rfl := Option.some.inj hafter
    unfold Object.marked
    split
    · exact .inl hfound
    · exact .inr rfl
  | released _ _ _ hgone | removed _ _ hgone | collected _ hgone =>
    rw [hgone] at hafter
    cases hafter

/-- An identifier stays with its object, and a new object gets an unused one. -/
theorem Turn.uid_eq {object : Object kind} (h : Turn now uid store after call reply kind key)
    (hafter : after.find? kind key = some object) :
    (∃ old, store.find? kind key = some old ∧ object.metadata.uid = old.metadata.uid) ∨
      object.metadata.uid = uid ∧ store.takesUid call = true := by
  cases h with
  | kept hsame => exact .inl ⟨object, hsame.symm.trans hafter, rfl⟩
  | born _ htaken hstored =>
    rw [hstored] at hafter
    obtain rfl := Option.some.inj hafter
    exact .inr ⟨rfl, htaken⟩
  | saved hstored _ _ hidentity =>
    rw [hstored] at hafter
    obtain rfl := Option.some.inj hafter
    exact hidentity.symm
  | linked hfound _ hstored | patched hfound _ hstored =>
    rw [hstored] at hafter
    obtain rfl := Option.some.inj hafter
    exact .inl ⟨_, hfound, rfl⟩
  | marked hfound _ hstored =>
    rw [hstored] at hafter
    obtain rfl := Option.some.inj hafter
    exact .inl ⟨_, hfound, Object.uid_marked _ _ _⟩
  | released _ _ _ hgone | removed _ _ hgone | collected _ hgone =>
    rw [hgone] at hafter
    cases hafter

/-- Objects stay under their keys. -/
theorem Performed.keyed (h : Performed now uid store call reply after)
    (hkeyed : store.Keyed) : after.Keyed := by
  intro kind key object hafter
  cases h.turn hkeyed kind key with
  | kept hsame => exact hkeyed _ _ _ (hsame.symm.trans hafter)
  | born _ _ hstored =>
    rw [hstored] at hafter
    obtain rfl := Option.some.inj hafter
    rfl
  | saved hstored hplace =>
    rw [hstored] at hafter
    obtain rfl := Option.some.inj hafter
    exact hplace
  | linked hfound _ hstored | patched hfound _ hstored =>
    rw [hstored] at hafter
    obtain rfl := Option.some.inj hafter
    have hplace := hkeyed _ _ _ hfound
    exact hplace
  | marked hfound _ hstored =>
    rw [hstored] at hafter
    obtain rfl := Option.some.inj hafter
    rw [Object.key_marked]
    exact hkeyed _ _ _ hfound
  | released _ _ _ hgone | removed _ _ hgone | collected _ hgone =>
    rw [hgone] at hafter
    cases hafter

end Turns

end MemoryStore

end AccessBroker
