import AccessBroker.Proofs.Store.Turns

/-!
# Versions tell objects apart

Any clients call the store in memory, in any order, and a log keeps their calls with the answers and
with the store that each call left (`AccessBroker.MemoryStore.Log`). A new version is above all that
were given out before and goes to one object only, the one that the call is about
(`AccessBroker.MemoryStore.Turn.fresh`). So an object that is stored with a version from before has
been stored ever since (`AccessBroker.MemoryStore.Log.stored_since`), and it is the very object that
an answer gave under that version (`AccessBroker.MemoryStore.Log.eq_of_version`): its content and
its place could not change without a new version, and an object that comes back under its key gets a
new one, too.
-/

namespace AccessBroker

open AccessBroker.Time

namespace StoreCall

/-- The kind and key of the object that a write is about. -/
def place? : StoreCall → Option (Kind × Key)
  | .create kind object | .updateMetadata kind object | .patchStatus kind object _ =>
    some (kind, object.key)
  | .savePolicy policy => some (.policy, policy.key)
  | .delete kind key => some (kind, key)
  | .find _ _ | .listPolicies | .listResponses _ _ | .listKeys _ | .changesSince _ _ | .compact _ =>
    none

/-- The objects that an answer gives. -/
def given : (call : StoreCall) → call.Reply → List ((kind : Kind) × Object kind)
  | .find kind _, .ok found => found.toList.map fun object => ⟨kind, object⟩
  | .create kind _, .ok object | .updateMetadata kind _, .ok object
  | .patchStatus kind _ _, .ok object => [⟨kind, object⟩]
  | .savePolicy _, .ok policy => [⟨.policy, policy⟩]
  | .listPolicies, .ok policies => policies.map fun policy => ⟨.policy, policy⟩
  | .listResponses _ _, .ok responses => responses.map fun response => ⟨.response, response⟩
  | .delete _ _, .ok _ | .listKeys _, .ok _ | .changesSince _ _, .ok _ | .compact _, .ok _ => []
  | _, .error _ => []

end StoreCall

namespace MemoryStore

variable {kind other : Kind} {key place : Key} {store after : MemoryStore} {now : Instant}
  {uid : String} {call : StoreCall} {reply : call.Reply}

/-! ### New versions -/

/-- **A new version goes to the object that the call is about.** -/
theorem Turn.fresh {object : Object kind} (h : Turn now uid store after call reply kind key)
    (hafter : after.find? kind key = some object) :
    store.find? kind key = some object ∨
      object.metadata.version = store.version + 1 ∧ call.place? = some (kind, key) := by
  rcases h.eq_or_version hafter with hbefore | hversion
  · exact .inl hbefore
  · cases h with
    | kept hsame => exact .inl (hsame.symm.trans hafter)
    | born | saved | linked | patched | marked => exact .inr ⟨hversion, rfl⟩
    | released _ _ _ hgone | removed _ _ hgone | collected _ hgone =>
      rw [hgone] at hafter
      cases hafter

/-- Objects lie under their keys, each with a version of its own that was given out. -/
structure Versioned (store : MemoryStore) : Prop where
  keyed : store.Keyed
  bounded {kind : Kind} {key : Key} {object : Object kind} :
    store.find? kind key = some object → object.metadata.version ≤ store.version
  distinct {kind other : Kind} {key place : Key} {object : Object kind} {second : Object other} :
    store.find? kind key = some object → store.find? other place = some second →
    object.metadata.version = second.metadata.version → kind = other ∧ key = place

theorem find?_empty (kind : Kind) (key : Key) : ({} : MemoryStore).find? kind key = none := by
  cases kind <;> rfl

theorem versioned_empty : Versioned {} where
  keyed kind key object hfound := by
    rw [find?_empty] at hfound
    cases hfound
  bounded hfound := by
    rw [find?_empty] at hfound
    cases hfound
  distinct hfound := by
    rw [find?_empty] at hfound
    cases hfound

/-- **Every call leaves the versions apart.** -/
theorem Versioned.performed (h : store.Versioned)
    (hcall : Performed now uid store call reply after) : after.Versioned := by
  have hfresh {kind : Kind} {key : Key} {object : Object kind}
      (hafter : after.find? kind key = some object) := (hcall.turn h.keyed kind key).fresh hafter
  refine ⟨hcall.keyed h.keyed, fun {kind key object} hafter => ?_,
    fun {kind other key place object second} hfirst hsecond hversion => ?_⟩
  · rcases hfresh hafter with hbefore | ⟨hversion, -⟩
    · exact Nat.le_trans (h.bounded hbefore) hcall.version_le
    · rcases hcall.agrees_or_version with hagrees | hnext
      · rw [hagrees] at hafter
        exact Nat.le_trans (h.bounded hafter) hcall.version_le
      · exact Nat.le_of_eq (hversion.trans hnext.symm)
  · rcases hfresh hfirst with hbefore | ⟨hfirst, hplace⟩
    · have hold := h.bounded hbefore
      rcases hfresh hsecond with hbefore' | ⟨hsecond, -⟩
      · exact h.distinct hbefore hbefore' hversion
      · omega
    · rcases hfresh hsecond with hbefore' | ⟨-, hplace'⟩
      · have hold := h.bounded hbefore'
        omega
      · exact Prod.mk.inj (Option.some.inj (hplace.symm.trans hplace'))

/-! ### Logs -/

/-- A call that was answered. -/
structure Entry where
  call : StoreCall
  reply : call.Reply
  /-- The store that it left. -/
  after : MemoryStore

namespace Entry

/-- A call to a store, answered. -/
def made (now : Instant) (uid : String) (store : MemoryStore) (call : StoreCall) : Entry :=
  ⟨call, (store.perform now uid call).1, (store.perform now uid call).2⟩

/-- The objects that the answer gives. -/
def given (entry : Entry) : List ((kind : Kind) × Object kind) :=
  entry.call.given entry.reply

end Entry

/-- The store that the last call has left. -/
def afterLog : List Entry → MemoryStore
  | [] => {}
  | entry :: _ => entry.after

/-- The calls of any clients to a store that was empty, one after the other, the last one first. -/
inductive Log : List Entry → Prop
  /-- Nobody has called. -/
  | start : Log []
  /-- Anybody calls next, at any time. -/
  | call {log : List Entry} (before : Log log) (now : Instant) (uid : String) (call : StoreCall) :
    Log (.made now uid (afterLog log) call :: log)

variable {log later earlier : List Entry} {entry : Entry}

/-- What the last call has come to. -/
theorem Log.performed (h : Log (entry :: log)) : Log log ∧ ∃ now uid,
    entry = .made now uid (afterLog log) entry.call ∧
    Performed now uid (afterLog log) entry.call entry.reply entry.after := by
  cases h with
  | call hbefore now uid call => exact ⟨hbefore, now, uid, rfl, performed_perform now uid _ call⟩

theorem Log.versioned (h : Log log) : (afterLog log).Versioned := by
  induction h with
  | start => exact versioned_empty
  | call _ now uid call ih => exact ih.performed (performed_perform now uid _ call)

theorem Log.of_append (h : Log (later ++ earlier)) : Log earlier := by
  induction later with
  | nil => exact h
  | cons entry rest ih => exact ih h.performed.1

/-- Versions never go back. -/
theorem Log.version_le (h : Log (later ++ earlier)) :
    (afterLog earlier).version ≤ (afterLog (later ++ earlier)).version := by
  induction later with
  | nil => exact Nat.le_refl _
  | cons entry rest ih =>
    obtain ⟨hrest, _, _, -, hcall⟩ := h.performed
    exact Nat.le_trans (ih hrest) hcall.version_le

/-- **An object with a version from before** has been stored ever since, and nothing else was stored
in its place meanwhile. -/
theorem Log.stored_since {object : Object kind} (h : Log (later ++ earlier))
    (hstored : (afterLog (later ++ earlier)).find? kind key = some object)
    (hversion : object.metadata.version ≤ (afterLog earlier).version) :
    ∀ between, between <:+ later →
      (afterLog (between ++ earlier)).find? kind key = some object := by
  induction later with
  | nil =>
    intro between hbetween
    rw [List.suffix_nil.1 hbetween]
    exact hstored
  | cons entry rest ih =>
    intro between hbetween
    obtain ⟨hrest, _, _, -, hcall⟩ := h.performed
    rcases List.suffix_cons_iff.1 hbetween with rfl | hbetween
    · exact hstored
    · refine ih hrest ?_ between hbetween
      have hle : (afterLog earlier).version ≤ (afterLog (rest ++ earlier)).version :=
        Log.version_le hrest
      rcases (hcall.turn hrest.versioned.keyed kind key).fresh hstored with hbefore | ⟨hnew, -⟩
      · exact hbefore
      · change object.metadata.version = (afterLog (rest ++ earlier)).version + 1 at hnew
        omega

/-! ### What answers give -/

/-- What a listing gives is stored. -/
theorem Versioned.find?_of_mem_values (h : store.Versioned) {object : Object kind}
    (hlisted : object ∈ (store.table kind).values) : store.find? kind object.key = some object := by
  obtain ⟨⟨key, value⟩, hentry, rfl⟩ := List.mem_map.1 hlisted
  have hfound : store.find? kind key = some value := Table.mem_entries_iff.1 hentry
  rw [h.keyed kind key value hfound]
  exact hfound

/-- An object is stored, or was removed just now under the version that it was given. -/
def StoredOrReleased (store after : MemoryStore) (call : StoreCall) (object : Object kind) : Prop :=
  after.find? kind object.key = some object ∨
    object.metadata.version = after.version ∧ after.version = store.version + 1 ∧
      call.place? = some (kind, object.key) ∧ after.find? kind object.key = none

/-- **What a write gives** is stored, unless the write was the removal of it. -/
theorem Performed.given {object : Object kind} (h : Performed now uid store call reply after)
    (hkeyed : store.Keyed) (hwrite : call.place?.isSome = true)
    (hgiven : ⟨kind, object⟩ ∈ call.given reply) : StoredOrReleased store after call object := by
  have hput (kind : Kind) (object : Object kind) :
      (store.renewed.put object).find? kind object.key = some object := by
    rw [find?_put, if_pos rfl]
  cases h with
  | found | heard => cases hwrite
  | @surveyed call reply _ hsurvey => cases call <;> cases hsurvey <;> cases hwrite
  | @failed call => cases call <;> cases hgiven
  | missing | marked | removed => cases hgiven
  | created | declared | replaced | linked | patched =>
    cases List.mem_singleton.1 hgiven
    exact .inl (hput _ _)
  | released hfound =>
    cases List.mem_singleton.1 hgiven
    refine .inr ⟨(version_drop store.renewed _).symm, version_drop store.renewed _, ?_,
      find?_drop_self _ _⟩
    rw [Object.key_withLinksOf, hkeyed _ _ _ hfound]
    rfl

/-- **What an answer gives** is stored, unless the call was the removal of it. -/
theorem Versioned.given (h : store.Versioned) {object : Object kind}
    (hgiven : ⟨kind, object⟩ ∈ (Entry.made now uid store call).given) :
    StoredOrReleased store (Entry.made now uid store call).after call object := by
  have hperformed := performed_perform now uid store call
  cases call with
  | find _ key =>
    obtain ⟨found, hfound, hsame⟩ := List.mem_map.1 hgiven
    cases hsame
    have hfound : store.find? kind key = some object := Option.mem_toList.1 hfound
    refine .inl ?_
    rw [h.keyed kind key object hfound]
    exact hfound
  | listPolicies =>
    obtain ⟨policy, hpolicy, hsame⟩ := List.mem_map.1 hgiven
    cases hsame
    exact .inl (h.find?_of_mem_values hpolicy)
  | listResponses scope request =>
    obtain ⟨response, hresponse, hsame⟩ := List.mem_map.1 hgiven
    cases hsame
    exact .inl (h.find?_of_mem_values (List.mem_filter.1 hresponse).1)
  | create | savePolicy | updateMetadata | patchStatus => exact hperformed.given h.keyed rfl hgiven
  | delete => exact hperformed.given h.keyed rfl hgiven
  | listKeys | changesSince | compact => cases hgiven

/-- **What an answer gave is found under its version**, in whatever place, as long as anything is.
-/
theorem Log.eq_of_version {given : Object other} {stored : Object kind}
    (h : Log (later ++ entry :: earlier)) (hgiven : ⟨other, given⟩ ∈ entry.given)
    (hstored : (afterLog (later ++ entry :: earlier)).find? kind key = some stored)
    (hversion : stored.metadata.version = given.metadata.version) :
    (⟨other, given⟩ : (kind : Kind) × Object kind) = ⟨kind, stored⟩ ∧
      ∀ between, between <:+ later →
        (afterLog (between ++ entry :: earlier)).find? kind key = some stored := by
  have hlog := h.of_append
  obtain ⟨hearlier, now, uid, hentry, hcall⟩ := hlog.performed
  have hplace : StoredOrReleased (afterLog earlier) entry.after entry.call given := by
    rw [hentry] at hgiven ⊢
    exact hearlier.versioned.given hgiven
  have hbound : stored.metadata.version ≤ entry.after.version := by
    rw [hversion]
    rcases hplace with hfound | ⟨hnew, -⟩
    · exact hlog.versioned.bounded hfound
    · exact Nat.le_of_eq hnew
  have hsince := h.stored_since hstored hbound
  have hthen : entry.after.find? kind key = some stored := hsince [] (List.nil_suffix)
  refine ⟨?_, hsince⟩
  rcases hplace with hfound | ⟨hnew, hnext, hplace, hgone⟩
  · obtain ⟨rfl, rfl⟩ := hlog.versioned.distinct hthen hfound hversion
    rw [Option.some.inj (hthen.symm.trans hfound)]
  · -- A removal makes nothing new.
    rcases (hcall.turn hearlier.versioned.keyed kind key).fresh hthen with hbefore | ⟨-, hsame⟩
    · have hold := hearlier.versioned.bounded hbefore
      omega
    · obtain ⟨rfl, rfl⟩ := Prod.mk.inj (Option.some.inj (hplace.symm.trans hsame))
      rw [hgone] at hthen
      cases hthen

end MemoryStore

end AccessBroker
