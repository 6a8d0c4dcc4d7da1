import AccessBroker.Proofs.Store.Orders

/-!
# The two stores agree

The store in memory and the store in a database are two programs with the same rules. Here they are
given the same script, each in surroundings of its own, and they turn out to give the same answers
to every order and to hold the same objects in the end (`AccessBroker.stores_agree`): the same up to
identifiers and times, which come from the surroundings, and up to versions, which come in the same
order.

The argument is a simulation. What one call does to two stores that match is settled call by call
(`AccessBroker.Matches.agrees`), and a script is an induction. The calls differ in when they take a
version. The store in memory takes one at the start of every write, and the database only after the
checks have passed, or not at all for an object that is marked as deleting already. A write that
succeeds takes one on both sides, and these two stand for each other from then on; all the other
ones are given to no object.

A version is read from its document as a number of 64 bits. This is why the script has to have fewer
orders than there are such numbers.
-/

namespace AccessBroker

open AccessBroker.Time Object Relational

/-! ### The store in memory, answer by answer -/

namespace MemoryStore

variable {kind : Kind} {now : Instant} {uid : String} {store : MemoryStore} {failure : Failure}
  {object stored : Object kind} {key : Key} {passed : Unit}

theorem checkVacant_refused (h : key.validate = .error failure) :
    store.checkVacant kind key = .error failure := by
  rw [checkVacant, h]
  rfl

theorem checkVacant_taken (hkey : key.validate = .ok passed)
    (h : store.find? kind key = some stored) :
    store.checkVacant kind key = .error (kind.taken key) := by
  rw [checkVacant, hkey, contains_eq_isSome, h]
  rfl

theorem checkVacant_vacant (hkey : key.validate = .ok passed) (h : store.find? kind key = none) :
    store.checkVacant kind key = .ok () := by
  rw [checkVacant, hkey, contains_eq_isSome, h]
  rfl

theorem create_of_error (h : store.checkVacant kind object.key = .error failure) :
    store.create now uid object = (.error failure, store.renewed) := by
  simp only [create, checkVacant_renewed, h]

theorem create_of_ok (h : store.checkVacant kind object.key = .ok ()) :
    store.create now uid object = (.ok (object.pristine.born now uid (store.version + 1)),
      store.renewed.put (object.pristine.born now uid (store.version + 1))) := by
  simp only [create, checkVacant_renewed, h]
  rfl

theorem savePolicy_of_error {policy : Policy} (h : policy.key.validate = .error failure) :
    store.savePolicy now uid policy = (.error failure, store) := by
  simp only [savePolicy, h]

theorem savePolicy_of_vacant {policy : Policy} (hkey : policy.key.validate = .ok passed)
    (h : store.find? .policy policy.key = none) :
    store.savePolicy now uid policy = (.ok (policy.born now uid (store.version + 1)),
      store.renewed.put (policy.born now uid (store.version + 1))) := by
  simp only [savePolicy, hkey, find?_renewed, h]
  rfl

theorem savePolicy_of_found {policy stored : Policy} (hkey : policy.key.validate = .ok passed)
    (h : store.find? .policy policy.key = some stored) :
    store.savePolicy now uid policy = (.ok (policy.inPlaceOf stored (store.version + 1)),
      store.renewed.put (policy.inPlaceOf stored (store.version + 1))) := by
  simp only [savePolicy, hkey, find?_renewed, h]
  rfl

theorem current_missing (h : store.find? kind object.key = none) :
    store.current object = .error (kind.missing object.key) := by
  rw [current, h]

theorem current_outdated (h : store.find? kind object.key = some stored)
    (hversion : stored.metadata.version ≠ object.metadata.version) :
    store.current object = .error (kind.outdated object.key object.metadata.version
      stored.metadata.version) := by
  rw [current, h]
  exact if_neg hversion

theorem current_upToDate (h : store.find? kind object.key = some stored)
    (hversion : stored.metadata.version = object.metadata.version) :
    store.current object = .ok stored := by
  rw [current, h]
  exact if_pos hversion

theorem updateMetadata_of_error (h : store.current object = .error failure) :
    store.updateMetadata object = (.error failure, store.renewed) := by
  simp only [updateMetadata, current_renewed, h]

theorem updateMetadata_linked (h : store.current object = .ok stored)
    (hspent : (stored.withLinksOf object (store.version + 1)).isSpent = false) :
    store.updateMetadata object = (.ok (stored.withLinksOf object (store.version + 1)),
      store.renewed.put (stored.withLinksOf object (store.version + 1))) := by
  have hspent : (stored.withLinksOf object store.renewed.version).isSpent = false := hspent
  simp only [updateMetadata, current_renewed, h, hspent]
  rfl

theorem updateMetadata_released (h : store.current object = .ok stored)
    (hspent : (stored.withLinksOf object (store.version + 1)).isSpent = true) :
    store.updateMetadata object = (.ok (stored.withLinksOf object (store.version + 1)),
      store.renewed.drop (stored.withLinksOf object (store.version + 1))) := by
  have hspent : (stored.withLinksOf object store.renewed.version).isSpent = true := hspent
  simp only [updateMetadata, current_renewed, h, hspent]
  rfl

theorem patchStatus_of_error {status : kind.Status} (h : store.current object = .error failure) :
    store.patchStatus object status = (.error failure, store.renewed) := by
  simp only [patchStatus, current_renewed, h]

theorem patchStatus_of_ok {status : kind.Status} (h : store.current object = .ok stored) :
    store.patchStatus object status = (.ok (stored.patched status (store.version + 1)),
      store.renewed.put (stored.patched status (store.version + 1))) := by
  simp only [patchStatus, current_renewed, h]
  rfl

theorem delete_missing (h : store.find? kind key = none) :
    store.delete now kind key = (.error (kind.missing key), store.renewed) := by
  simp only [delete, find?_renewed, h]

theorem delete_free (h : store.find? kind key = some stored)
    (hfree : stored.metadata.finalizers.isEmpty = true) :
    store.delete now kind key = (.ok (), store.renewed.drop stored) := by
  simp only [delete, find?_renewed, h, hfree]
  rfl

theorem delete_held (now : Instant) (h : store.find? kind key = some stored)
    (hheld : stored.metadata.finalizers.isEmpty = false) :
    store.delete now kind key =
      (.ok (), store.renewed.put (stored.marked now (store.version + 1))) := by
  simp only [delete, find?_renewed, h, hheld]
  rfl

/-- Putting an object where it is changes no look-up. -/
theorem agrees_put_self (h : store.find? kind stored.key = some stored) :
    (store.renewed.put stored).Agrees store := by
  intro other place
  by_cases hkind : other = kind
  · subst hkind
    rw [find?_put]
    split
    · next hplace => rw [hplace, h]
    · exact find?_renewed store
  · rw [find?_put_of_ne _ _ hkind]
    exact find?_renewed store

theorem renewed_agrees (store : MemoryStore) :
    store.renewed.Agrees store ∧ store.version ≤ store.renewed.version :=
  ⟨store.agrees_renewed, Nat.le_succ _⟩

end MemoryStore

/-- Every failure is like itself. -/
theorem Failure.isLike_self (failure : Failure) : failure.isLike failure = true := by
  cases failure <;> rfl

/-! ### One call -/

variable {inner outer : Surroundings} {names later : Renaming inner outer}
  {store after : MemoryStore} {shelf after' : Shelf} {call call' : StoreCall} {reply : call.Reply}
  {reply' : call'.Reply} {kind : Kind} {step : Nat}

/-- **The two stores answer a call alike**, and match afterwards. -/
def AgreeOn (names : Renaming inner outer) (step : Nat) (store : MemoryStore) (shelf : Shelf)
    (call call' : StoreCall) : Prop :=
  ∀ database : Database, database.Shows none shelf →
    ∃ (later : Renaming inner outer) (after' : Shelf), later.Extends names ∧
      after'.version ≤ shelf.version + 1 ∧ Matches later (inner.memory step call store).2 after' ∧
      (outer.relational step call' database).2.Shows none after' ∧
      PlainlyAlike later ⟨call, (inner.memory step call store).1⟩
        ⟨call', (outer.relational step call' database).1⟩

/-- The answer is an object. -/
structure Answer.Gave (answer : Answer) (object : Object kind) : Prop where
  success : failure? answer.reply = none
  given : answer.given = [⟨kind, object⟩]
  listed : answer.listed = []

theorem Answer.Gave.plainlyAlike {answer answer' : Answer} {object object' : Object kind}
    (h : answer.Gave object) (h' : answer'.Gave object') (hrenamed : Renamed names object object')
    (hplain : object.key.IsPlain) : PlainlyAlike names answer answer' := by
  refine ⟨fun given hgiven => ?_, ?_, ?_, h'.listed.trans h.listed.symm⟩
  · rw [h.given] at hgiven
    cases List.mem_singleton.1 hgiven
    exact hplain
  · rw [h.success, h'.success]
    exact .none
  · rw [h.given, h'.given]
    exact .cons (.intro hrenamed) .nil

namespace AgreeOn

theorem of_gives (hmemory : inner.memory step call store = (reply, after))
    (hgives : Gives (outer.now step) (outer.uid step) none (Relational.perform call') shelf reply'
      after')
    (hlater : later.Extends names) (hversion : after'.version ≤ shelf.version + 1)
    (hmatches : Matches later after after')
    (halike : PlainlyAlike later ⟨call, reply⟩ ⟨call', reply'⟩) :
    AgreeOn names step store shelf call call' := by
  intro database hshows
  obtain ⟨left, hserve, hleft⟩ := hgives database hshows
  have hrelational : outer.relational step call' database = (reply', left) := hserve
  refine ⟨later, after', hlater, hversion, ?_⟩
  rw [hmemory, hrelational]
  exact ⟨hmatches, hleft, halike⟩

theorem given_error (call : StoreCall) (failure : Failure) :
    (⟨call, .error failure⟩ : Answer).given = [] ∧
      (⟨call, .error failure⟩ : Answer).listed = [] := by
  cases call <;> exact ⟨rfl, rfl⟩

/-- **Both stores turn the call away**, and no object changes. -/
theorem failed (h : Matches names store shelf) {failure failure' : Failure}
    (hmemory : inner.memory step call store = (.error failure, after))
    (hagrees : after.Agrees store ∧ store.version ≤ after.version)
    (hgives : Gives (outer.now step) (outer.uid step) none (Relational.perform call') shelf
      (.error failure') after')
    (hlike : failure.isLike failure' = true) (hrows : after'.rows = shelf.rows)
    (hversion : shelf.version ≤ after'.version ∧ after'.version ≤ shelf.version + 1) :
    AgreeOn names step store shelf call call' := by
  obtain ⟨hgiven, hlisted⟩ := given_error call failure
  obtain ⟨hgiven', hlisted'⟩ := given_error call' failure'
  refine of_gives hmemory hgives (.refl names) hversion.2
    (h.agreeing hagrees.1 hrows hagrees.2 hversion.1)
    ⟨fun object hobject => ?_, .some hlike, ?_, ?_⟩
  · rw [hgiven] at hobject
    cases hobject
  · rw [hgiven, hgiven']
    exact .nil
  · rw [hlisted, hlisted']

/-- **Both stores write an object** and answer with it. -/
theorem written (h : Matches names store shelf) {object object' : Object kind}
    (hmemory : inner.memory step call store = (reply, store.renewed.put object))
    (hgives : Gives (outer.now step) (outer.uid step) none (Relational.perform call') shelf reply'
      (shelf.renewed.put object'))
    (hrenamed : Renamed (names.extend h.within) object object') (hplain : object.key.IsPlain)
    (hfree : kind.isOwned = false → object.metadata.owners = [])
    (hreply : (⟨call, reply⟩ : Answer).Gave object)
    (hreply' : (⟨call', reply'⟩ : Answer).Gave object') :
    AgreeOn names step store shelf call call' :=
  of_gives hmemory hgives (Renaming.extends_extend h.within) (Nat.le_refl _)
    (h.renewed.put hrenamed hplain hfree) (hreply.plainlyAlike hreply' hrenamed hplain)

end AgreeOn

namespace Matches

/-- **The creation of an object.** -/
theorem agrees_create (h : Matches names store shelf) (hsize : shelf.version < UInt64.size)
    {object object' : Object kind} (hsame : Submitted inner outer object object')
    (hplain : object.key.IsPlain) (hfree : kind.isOwned = false → object.metadata.owners = [])
    (step : Nat) : AgreeOn names step store shelf (.create kind object) (.create kind object') := by
  cases hkey : object.key.validate with
  | error failure =>
    exact .failed h (MemoryStore.create_of_error (MemoryStore.checkVacant_refused hkey))
      store.renewed_agrees (Gives.create_refused (hsame.key ▸ hkey) shelf) failure.isLike_self rfl
      ⟨Nat.le_refl _, Nat.le_succ _⟩
  | ok passed =>
    have hkey' : object'.key.validate = .ok passed := hsame.key ▸ hkey
    rcases h.found_or_missing hsize hplain kind with
      ⟨hvacant, hholds⟩ | ⟨stored, stored', hstored, hholds, -⟩
    · exact .written h (MemoryStore.create_of_ok (MemoryStore.checkVacant_vacant hkey hvacant))
        (Gives.created hkey' (hsame.key ▸ hholds))
        (hsame.pristine.born (Renaming.version_extend h.within) step) hplain hfree
        ⟨rfl, rfl, rfl⟩ ⟨rfl, rfl, rfl⟩
    · exact .failed h (MemoryStore.create_of_error (MemoryStore.checkVacant_taken hkey hstored))
        store.renewed_agrees (Gives.create_taken hkey' (hsame.key ▸ hholds)) rfl rfl
        ⟨Nat.le_succ _, Nat.le_refl _⟩

/-- **The saving of a policy.** -/
theorem agrees_savePolicy (h : Matches names store shelf) (hsize : shelf.version < UInt64.size)
    {policy policy' : Policy} (hsame : Submitted inner outer policy policy')
    (hplain : policy.key.IsPlain) (hfree : policy.metadata.owners = []) (step : Nat) :
    AgreeOn names step store shelf (.savePolicy policy) (.savePolicy policy') := by
  have hversion := Renaming.version_extend h.within
  cases hkey : policy.key.validate with
  | error failure =>
    exact .failed h (MemoryStore.savePolicy_of_error hkey) ⟨fun _ _ => rfl, Nat.le_refl _⟩
      (Gives.savePolicy_refused (hsame.key ▸ hkey) shelf) failure.isLike_self rfl
      ⟨Nat.le_refl _, Nat.le_succ _⟩
  | ok passed =>
    have hkey' : policy'.key.validate = .ok passed := hsame.key ▸ hkey
    rcases h.found_or_missing hsize hplain .policy with
      ⟨hvacant, hholds⟩ | ⟨stored, stored', hstored, hholds, hrenamed⟩
    · exact .written h (MemoryStore.savePolicy_of_vacant hkey hvacant)
        (Gives.declared hkey' (hsame.key ▸ hholds)) (hsame.born hversion step) hplain
        (fun _ => hfree) ⟨rfl, rfl, rfl⟩ ⟨rfl, rfl, rfl⟩
    · exact .written h (MemoryStore.savePolicy_of_found hkey hstored)
        (Gives.replaced hkey' (hsame.key ▸ hholds))
        (hsame.inPlaceOf (hrenamed.mono (Renaming.extends_extend h.within)) hversion) hplain
        (fun _ => hfree) ⟨rfl, rfl, rfl⟩ ⟨rfl, rfl, rfl⟩

/-- A write that is turned away for the object it is based on takes a version in memory only. -/
theorem agrees_turnedAway (h : Matches names store shelf) {failure failure' : Failure}
    (hmemory : inner.memory step call store = (.error failure, store.renewed))
    (hgives : Gives (outer.now step) (outer.uid step) none (Relational.perform call') shelf
      (.error failure') shelf)
    (hlike : failure.isLike failure' = true) : AgreeOn names step store shelf call call' :=
  .failed h hmemory store.renewed_agrees hgives hlike rfl ⟨Nat.le_refl _, Nat.le_succ _⟩

/-- **A write finds its base alike on both sides**: gone, changed since, or as it was given. -/
theorem missing_outdated_or_current (h : Matches names store shelf)
    (hsize : shelf.version < UInt64.size) {base base' : Object kind}
    (hsame : Submitted inner outer base base')
    (hversion : names.Version base.metadata.version base'.metadata.version)
    (hplain : base.key.IsPlain) :
    (store.current base = .error (kind.missing base.key) ∧ shelf.Holds kind base'.key none) ∨
      (∃ stored stored' : Object kind,
        store.current base = .error (kind.outdated base.key base.metadata.version
          stored.metadata.version) ∧
        shelf.Holds kind base'.key (some stored') ∧
        stored'.metadata.version ≠ base'.metadata.version) ∨
      ∃ stored stored' : Object kind, store.current base = .ok stored ∧ stored.key = base.key ∧
        (kind.isOwned = false → stored.metadata.owners = []) ∧
        shelf.Holds kind base'.key (some stored') ∧ stored'.key = base'.key ∧
        stored'.metadata.version = base'.metadata.version ∧ Renamed names stored stored' := by
  rcases h.found_or_missing hsize hplain kind with
    ⟨hvacant, hholds⟩ | ⟨stored, stored', hstored, hholds, hrenamed⟩
  · exact .inl ⟨MemoryStore.current_missing hvacant, hsame.key.symm ▸ hholds⟩
  · have hholds : shelf.Holds kind base'.key (some stored') := hsame.key.symm ▸ hholds
    have hplace : stored.key = base.key := h.keyed _ _ _ hstored
    have hiff := hrenamed.version.eq_iff hversion
    by_cases hcurrent : stored.metadata.version = base.metadata.version
    · exact .inr (.inr ⟨stored, stored', MemoryStore.current_upToDate hstored hcurrent, hplace,
        h.free hstored, hholds, hrenamed.key.trans (hplace.trans hsame.key.symm),
        hiff.1 hcurrent, hrenamed⟩)
    · exact .inr (.inl ⟨stored, stored', MemoryStore.current_outdated hstored hcurrent, hholds,
        fun hcurrent' => hcurrent (hiff.2 hcurrent')⟩)

/-- **The writing of finalizers and owners.** -/
theorem agrees_updateMetadata (h : Matches names store shelf) (hsize : shelf.version < UInt64.size)
    {object object' : Object kind} (hsame : Submitted inner outer object object')
    (hversion : names.Version object.metadata.version object'.metadata.version)
    (hplain : object.key.IsPlain) (hfree : kind.isOwned = false → object.metadata.owners = [])
    (step : Nat) :
    AgreeOn names step store shelf (.updateMetadata kind object)
      (.updateMetadata kind object') := by
  rcases h.missing_outdated_or_current hsize hsame hversion hplain with
    ⟨hmissing, hholds⟩ | ⟨stored, stored', houtdated, hholds, hcurrent'⟩ |
      ⟨stored, stored', hcurrent, hplace, -, hholds, hplace', hcurrent', hrenamed⟩
  · exact h.agrees_turnedAway (MemoryStore.updateMetadata_of_error hmissing)
      (Gives.missing hholds _) rfl
  · exact h.agrees_turnedAway (MemoryStore.updateMetadata_of_error houtdated)
      (Gives.outdated hholds hcurrent' _) rfl
  · have hplain : stored.key.IsPlain := hplace.symm ▸ hplain
    have hlinked := (hrenamed.mono (Renaming.extends_extend h.within)).withLinksOf hsame
      (Renaming.version_extend h.within)
    cases hspent : (stored.withLinksOf object (store.version + 1)).isSpent with
    | false =>
      exact .written h (MemoryStore.updateMetadata_linked hcurrent hspent)
        (Gives.linked hholds hplace' hcurrent' (hlinked.isSpent.trans hspent)) hlinked hplain hfree
        ⟨rfl, rfl, rfl⟩ ⟨rfl, rfl, rfl⟩
    | true =>
      exact .of_gives (MemoryStore.updateMetadata_released hcurrent hspent)
        (Gives.released hholds hcurrent' (hlinked.isSpent.trans hspent))
        (Renaming.extends_extend h.within) (Nat.le_refl _) (h.renewed.drop hlinked hplain)
        (Answer.Gave.plainlyAlike ⟨rfl, rfl, rfl⟩ ⟨rfl, rfl, rfl⟩ hlinked hplain)

/-- **The writing of a status.** -/
theorem agrees_patchStatus (h : Matches names store shelf) (hsize : shelf.version < UInt64.size)
    {base base' : Object kind} (status : kind.Status) (hsame : Renamed names base base')
    (hplain : base.key.IsPlain) (step : Nat) :
    AgreeOn names step store shelf (.patchStatus kind base status)
      (.patchStatus kind base' status) := by
  rcases h.missing_outdated_or_current hsize hsame.toSubmitted hsame.version hplain with
    ⟨hmissing, hholds⟩ | ⟨stored, stored', houtdated, hholds, hcurrent'⟩ |
      ⟨stored, stored', hcurrent, hplace, hfree, hholds, hplace', hcurrent', hrenamed⟩
  · exact h.agrees_turnedAway (MemoryStore.patchStatus_of_error hmissing)
      (Gives.missing hholds _) rfl
  · exact h.agrees_turnedAway (MemoryStore.patchStatus_of_error houtdated)
      (Gives.outdated hholds hcurrent' _) rfl
  · exact .written h (MemoryStore.patchStatus_of_ok hcurrent)
      (Gives.patched hholds hplace' hcurrent')
      ((hrenamed.mono (Renaming.extends_extend h.within)).patched
        (Renaming.version_extend h.within) status) (hplace.symm ▸ hplain) hfree
      ⟨rfl, rfl, rfl⟩ ⟨rfl, rfl, rfl⟩

/-- **The deletion of an object.** One that is marked already stays as it is on both sides. -/
theorem agrees_delete (h : Matches names store shelf) (hsize : shelf.version < UInt64.size)
    {key : Key} (hplain : key.IsPlain) (kind : Kind) (step : Nat) :
    AgreeOn names step store shelf (.delete kind key) (.delete kind key) := by
  have halike (later : Renaming inner outer) : PlainlyAlike later
      (⟨.delete kind key, .ok ()⟩ : Answer) ⟨.delete kind key, .ok ()⟩ :=
    ⟨fun _ hgiven => absurd hgiven List.not_mem_nil, .none, .nil, rfl⟩
  have hsame : Matches names store.renewed shelf :=
    h.agreeing store.agrees_renewed rfl (Nat.le_succ _) (Nat.le_refl _)
  rcases h.found_or_missing hsize hplain kind with
    ⟨hvacant, hholds⟩ | ⟨stored, stored', hstored, hholds, hrenamed⟩
  · exact h.agrees_turnedAway (MemoryStore.delete_missing hvacant) (Gives.missing hholds _) rfl
  · obtain rfl : stored.key = key := h.keyed _ _ _ hstored
    cases hfree : stored.metadata.finalizers.isEmpty with
    | true =>
      have hfree' : stored'.metadata.finalizers.isEmpty = true := hrenamed.finalizers ▸ hfree
      exact .of_gives (MemoryStore.delete_free hstored hfree) (Gives.removed hholds hfree')
        (.refl names) (Nat.le_succ _) (hsame.drop hrenamed hplain) (halike names)
    | false =>
      have hheld' : stored'.metadata.finalizers.isEmpty = false := hrenamed.finalizers ▸ hfree
      cases hdeleting : stored.metadata.isDeleting with
      | true =>
        have hmarked (now : Instant) (version : Nat) : stored.marked now version = stored := by
          rw [Object.marked, hdeleting, if_pos rfl]
        have hmemory := MemoryStore.delete_held (inner.now step) hstored hfree
        rw [hmarked] at hmemory
        have hversion : store.version ≤ (store.renewed.put stored).version := by
          rw [MemoryStore.Performed.version_put]
          exact Nat.le_succ _
        exact .of_gives hmemory
          (Gives.markedBefore hholds hheld' (hrenamed.isDeleting.trans hdeleting)) (.refl names)
          (Nat.le_succ _) (h.agreeing (MemoryStore.agrees_put_self hstored) rfl hversion
            (Nat.le_refl _)) (halike names)
      | false =>
        have hmarked := (hrenamed.mono (Renaming.extends_extend h.within)).marked
          (Renaming.version_extend h.within) step
        refine .of_gives (MemoryStore.delete_held (inner.now step) hstored hfree)
          (Gives.marked hholds hrenamed.key hheld' (hrenamed.isDeleting.trans hdeleting))
          (Renaming.extends_extend h.within) (Nat.le_refl _)
          (h.renewed.put hmarked ?_ fun hnot => ?_) (halike _)
        · rw [Object.key_marked]
          exact hplain
        · rw [Object.owners_marked]
          exact h.free hstored hnot

/-- **A look-up.** -/
theorem agrees_find (h : Matches names store shelf) (hsize : shelf.version < UInt64.size)
    {key : Key} (hplain : key.IsPlain) (kind : Kind) (step : Nat) :
    AgreeOn names step store shelf (.find kind key) (.find kind key) := by
  rcases h.found_or_missing hsize hplain kind with
    ⟨hvacant, hholds⟩ | ⟨stored, stored', hstored, hholds, hrenamed⟩
  · have hmemory : inner.memory step (.find kind key) store = (.ok none, store) :=
      congrArg (fun found => (Except.ok found, store)) hvacant
    exact .of_gives hmemory (Gives.find hholds) (.refl names) (Nat.le_succ _) h
      ⟨fun _ hgiven => absurd hgiven List.not_mem_nil, .none, .nil, rfl⟩
  · have hmemory : inner.memory step (.find kind key) store = (.ok (some stored), store) :=
      congrArg (fun found => (Except.ok found, store)) hstored
    exact .of_gives hmemory (Gives.find hholds) (.refl names) (Nat.le_succ _) h
      (Answer.Gave.plainlyAlike ⟨rfl, rfl, rfl⟩ ⟨rfl, rfl, rfl⟩ hrenamed
        (h.keyed _ _ _ hstored ▸ hplain))

/-! ### Listings -/

/-- What is listed lies under plain keys. -/
theorem plain_of_mem_values (h : Matches names store shelf) (kind : Kind) :
    ∀ object ∈ (store.table kind).values, object.key.IsPlain := by
  intro object hlisted
  obtain ⟨⟨key, value⟩, hentry, rfl⟩ := List.mem_map.1 hlisted
  have hfound : store.find? kind key = some value := Table.mem_entries_iff.1 hentry
  rw [h.keyed kind key value hfound]
  exact h.plain hfound

/-- Two lists of the same objects are given alike. -/
theorem given_alike {objects objects' : List (Object kind)}
    (h : List.Forall₂ (Renamed names) objects objects') :
    List.Forall₂ (SameObject names) (objects.map fun object => ⟨kind, object⟩)
      (objects'.map fun object => ⟨kind, object⟩) :=
  List.forall₂_map_left_iff.2 <| List.forall₂_map_right_iff.2 <| h.imp fun _ _ hsame => .intro hsame

/-- **The listing of the policies.** -/
theorem agrees_listPolicies (h : Matches names store shelf) (hsize : shelf.version < UInt64.size)
    (step : Nat) : AgreeOn names step store shelf .listPolicies .listPolicies := by
  obtain ⟨policies, hrenamed, -, hlists⟩ := h.lists hsize .policy
  have hmemory :
      inner.memory step .listPolicies store = (.ok (store.table .policy).values, store) :=
    rfl
  refine .of_gives hmemory (Gives.listPolicies hlists) (.refl names) (Nat.le_succ _) h
    ⟨fun object hobject => ?_, .none, given_alike hrenamed, rfl⟩
  obtain ⟨policy, hpolicy, rfl⟩ := List.mem_map.1 hobject
  exact h.plain_of_mem_values .policy policy hpolicy

/-- A response is in a scope exactly if the column of its row says so. -/
theorem scope_eq_iff {response : Response} {scope : Scope} (hplain : response.key.IsPlain)
    (hscope : scope ≠ .namespaced "") :
    response.scope = scope ↔ response.key.space.getD "" = scope.namespace?.getD "" := by
  have hname {name : String} (h : name = "") : Scope.namespaced name = .namespaced "" :=
    congrArg Scope.namespaced h
  unfold Key.IsPlain at hplain
  change Scope.ofNamespace? response.key.space = scope ↔ _
  cases hspace : response.key.space with
  | none =>
    cases scope with
    | cluster => exact ⟨fun _ => rfl, fun _ => rfl⟩
    | namespaced name =>
      exact ⟨fun hsame => (nomatch hsame), fun hsame => absurd (hname hsame.symm) hscope⟩
  | some space =>
    rw [hspace] at hplain
    cases scope with
    | cluster =>
      exact ⟨fun hsame => (nomatch hsame), fun hsame => absurd (congrArg some hsame) hplain⟩
    | namespaced name =>
      exact ⟨fun hsame => Scope.namespaced.inj hsame, fun hsame => congrArg _ hsame⟩

/-- **The listing of the responses to a request.** -/
theorem agrees_listResponses (h : Matches names store shelf) (hsize : shelf.version < UInt64.size)
    {scope : Scope} (hscope : scope ≠ .namespaced "") (request : String) (step : Nat) :
    AgreeOn names step store shelf (.listResponses scope request)
      (.listResponses scope request) := by
  obtain ⟨responses, hrenamed, -, hlists⟩ := h.lists hsize .response
  have hplain := h.plain_of_mem_values .response
  have hmemory : inner.memory step (.listResponses scope request) store =
      (.ok ((store.table .response).values.filter fun response =>
        response.scope == scope && response.body.requestRef == request), store) := rfl
  have hchosen := List.rel_filter (p := fun response : Response =>
      response.scope == scope && response.body.requestRef == request)
    (q := fun response : Response => response.key.space.getD "" ==
        scope.namespace?.getD "" && response.requestRef? == some request)
    (fun response response' (hsame : response.key.IsPlain ∧ Renamed names response response') => by
      have hreference : response'.requestRef? = some response.body.requestRef :=
        congrArg (fun body : ResponseSpec => some body.requestRef) hsame.2.body
      simp only [Bool.and_eq_true, beq_iff_eq, hreference, Option.some.injEq, hsame.2.key,
        scope_eq_iff hsame.1 hscope])
    ((List.forall₂_and_left _ _).2 ⟨hplain, hrenamed⟩)
  refine .of_gives hmemory (Gives.listResponses hlists scope request) (.refl names)
    (Nat.le_succ _) h
    ⟨fun object hobject => ?_, .none, given_alike (hchosen.imp fun _ _ hsame => hsame.2), rfl⟩
  obtain ⟨response, hresponse, rfl⟩ := List.mem_map.1 hobject
  exact hplain response (List.mem_filter.1 hresponse).1

/-- **The listing of the keys of a kind.** -/
theorem agrees_listKeys (h : Matches names store shelf) (hsize : shelf.version < UInt64.size)
    (kind : Kind) (step : Nat) :
    AgreeOn names step store shelf (.listKeys kind) (.listKeys kind) := by
  intro database hshows
  obtain ⟨objects, hrenamed, hkeys, hlists⟩ := h.lists hsize kind
  obtain ⟨cursor, hserve⟩ := serve_listKeys (outer.now step) (outer.uid step) hshows hlists
  have hrelational : outer.relational step (.listKeys kind) database = (_, database) := hserve
  refine ⟨names, shelf, .refl names, Nat.le_succ _, h, ?_⟩
  rw [hrelational]
  refine ⟨hshows, fun _ hgiven => absurd hgiven List.not_mem_nil, .none, .nil, ?_⟩
  change objects.map _ = (store.table kind).keys
  rw [← hkeys]
  refine List.map_congr_left fun object hobject => Key.ofColumns_row ?_
  have hlisted : object.key ∈ (store.table kind).keys := hkeys ▸ List.mem_map_of_mem hobject
  obtain ⟨⟨_, stored⟩, hentry, hsame⟩ := List.mem_map.1 hlisted
  rw [← hsame]
  exact h.plain (Table.mem_entries_iff.1 hentry)

/-- **Any call** finds two stores that match in agreement. -/
theorem agrees (h : Matches names store shelf) (hsize : shelf.version < UInt64.size)
    (hcall : Counterpart names call call') (step : Nat) :
    AgreeOn names step store shelf call call' := by
  cases hcall with
  | find kind hplain => exact h.agrees_find hsize hplain kind step
  | create hsame hplain hfree => exact h.agrees_create hsize hsame hplain hfree step
  | savePolicy hsame hplain hfree => exact h.agrees_savePolicy hsize hsame hplain hfree step
  | updateMetadata hsame hversion hplain hfree =>
    exact h.agrees_updateMetadata hsize hsame hversion hplain hfree step
  | patchStatus status hsame hplain => exact h.agrees_patchStatus hsize status hsame hplain step
  | delete kind hplain => exact h.agrees_delete hsize hplain kind step
  | listPolicies => exact h.agrees_listPolicies hsize step
  | listResponses hscope request => exact h.agrees_listResponses hsize hscope request step
  | listKeys kind => exact h.agrees_listKeys hsize kind step

end Matches

/-! ### Scripts -/

/-- What holds between two stores while a script is carried out. -/
structure Together (names : Renaming inner outer) (answers answers' : List (Option Answer))
    (store : MemoryStore) (shelf : Shelf) (database : Database) : Prop where
  answered : Answered names answers answers'
  matching : Matches names store shelf
  shows : database.Shows none shelf
  /-- Every order takes one version at most. -/
  counted : shelf.version ≤ answers.length

variable {answers answers' : List (Option Answer)} {database : Database}

theorem Answered.mono (h : Answered names answers answers') (hlater : later.Extends names) :
    Answered later answers answers' :=
  h.imp fun _ _ hsame => rel_imp hsame fun _ _ ⟨hplain, halike⟩ => ⟨hplain, halike.mono hlater⟩

theorem Answered.concat (h : Answered names answers answers') {answer answer' : Option Answer}
    (hlast : Option.Rel (PlainlyAlike names) answer answer') :
    Answered names (answers ++ [answer]) (answers' ++ [answer']) :=
  List.rel_append h (.cons hlast .nil)

/-- **A script is carried out alike.** -/
theorem Together.carryOut (script : List Order) (hplain : ∀ order ∈ script, order.IsPlain)
    (h : Together names answers answers' store shelf database)
    (hsize : answers.length + script.length < UInt64.size) :
    ∃ (later : Renaming inner outer) (after : Shelf),
      Together later (carryOut inner.memory script answers store).1
        (carryOut outer.relational script answers' database).1
        (carryOut inner.memory script answers store).2 after
        (carryOut outer.relational script answers' database).2 := by
  induction script generalizing names answers answers' store shelf database with
  | nil => exact ⟨names, shelf, h⟩
  | cons order rest ih =>
    have hrest : ∀ other ∈ rest, other.IsPlain :=
      fun other hother => hplain other (List.mem_cons_of_mem _ hother)
    have hlength : answers'.length = answers.length := h.answered.length_eq.symm
    rw [List.length_cons] at hsize
    have hnext (answer : Option Answer) :
        (answers ++ [answer]).length + rest.length < UInt64.size := by
      rw [List.length_append, List.length_singleton]
      omega
    have hcall := Order.counterpart h.answered (hplain order List.mem_cons_self)
    rw [AccessBroker.carryOut, AccessBroker.carryOut, hlength]
    generalize order.call? answers = call at *
    generalize order.call? answers' = call' at *
    cases hcall with
    | none =>
      refine ih hrest ⟨h.answered.concat .none, h.matching, h.shows, ?_⟩ (hnext none)
      rw [List.length_append]
      exact Nat.le_succ_of_le h.counted
    | @some call call' hcall =>
      have hversion : shelf.version < UInt64.size :=
        Nat.lt_of_le_of_lt h.counted (by omega)
      obtain ⟨later, after, hlater, htaken, hmatching, hshows, halike⟩ :=
        h.matching.agrees hversion hcall answers.length database h.shows
      refine ih hrest ⟨(h.answered.mono hlater).concat (.some halike), hmatching, hshows, ?_⟩
        (hnext _)
      rw [List.length_append]
      exact Nat.le_trans htaken (Nat.succ_le_succ h.counted)

/-- **The two stores hold the same objects**, up to a renaming: the rows of every kind are those of
the same objects in the same order, with all their columns, and there are no others. -/
structure SameHoldings (names : Renaming inner outer) (store : MemoryStore) (database : Database) :
    Prop where
  /-- No transaction was left under way. -/
  settled : database.transaction = none
  same (kind : Kind) : ∃ objects : List (Object kind),
    List.Forall₂ (Renamed names) (store.table kind).values objects ∧
      database.tables.rowsOf kind.label =
        objects.map (fun object => (object.key.row kind, object.toRow)) ∧
      (database.tables.rowsOf kind.label).mapM (fun entry => decode entry.2.document) = some objects
  others : ∀ entry ∈ database.tables.objects.entries, ∃ kind : Kind, entry.1.kind = kind.label

theorem Matches.sameHoldings (h : Matches names store shelf) (hsize : shelf.version < UInt64.size)
    (hshows : database.Shows none shelf) : SameHoldings names store database where
  settled := hshows.under
  same kind := by
    obtain ⟨objects, hrenamed, -, hlists⟩ := h.lists hsize kind
    have hrows := Gives.rowsOf_current hshows hlists
    rw [hshows.current_eq] at hrows
    refine ⟨objects, hrenamed, hrows, ?_⟩
    rw [hrows]
    exact mapM_map_of_read_write fun object hobject =>
      object.decode_encode_object (hlists.2 object hobject)
  others entry hentry := by
    rw [← hshows.current_eq, hshows.rows] at hentry
    obtain ⟨kind, key, -, hplace⟩ := h.only (Table.mem_entries_iff.1 hentry)
    exact ⟨kind, congrArg RowKey.kind hplace⟩

theorem length_carryOut {σ : Type} (serve : Nat → (call : StoreCall) → σ → call.Reply × σ)
    (script : List Order) (answers : List (Option Answer)) (state : σ) :
    (carryOut serve script answers state).1.length = answers.length + script.length := by
  induction script generalizing answers state with
  | nil => rfl
  | cons order rest ih =>
    rw [carryOut]
    split <;>
      rw [ih, List.length_append] <;> simp only [List.length_cons, List.length_nil] <;> omega

/-- **The store in memory and the store in a database agree.** -/
theorem stores_agree (inner outer : Surroundings) (script : List Order)
    (hplain : ∀ order ∈ script, order.IsPlain) (hsize : script.length < UInt64.size) :
    ∃ names : Renaming inner outer,
      List.Forall₂ (Option.Rel (Answer.Alike names)) (carryOut inner.memory script [] {}).1
        (carryOut outer.relational script [] {}).1 ∧
      SameHoldings names (carryOut inner.memory script [] {}).2
        (carryOut outer.relational script [] {}).2 := by
  have hstart : Together (Renaming.none : Renaming inner outer) [] [] {} {} {} :=
    ⟨.nil, .empty, ⟨rfl, rfl, rfl, Int.le_refl 0, fun _ hchange => absurd hchange List.not_mem_nil⟩,
      Nat.le_refl 0⟩
  obtain ⟨names, shelf, h⟩ := hstart.carryOut script hplain (by simpa using hsize)
  have hversion : shelf.version < UInt64.size := by
    have hcounted := h.counted
    rw [length_carryOut] at hcounted
    exact Nat.lt_of_le_of_lt hcounted (by simpa using hsize)
  exact ⟨names, h.answered.imp fun _ _ hsame => rel_imp hsame fun _ _ halike => halike.2,
    h.matching.sameHoldings hversion h.shows⟩

/-! ### A script at work -/

/-- Surroundings in which time stands still and the identifiers are runs of a letter. -/
def Surroundings.still (letter : Char) (now : Instant) : Surroundings where
  now _ := now
  uid step := String.ofList (List.replicate step letter)
  uid_inj {m n} hsame := by
    have hlength := congrArg (fun text : String => text.toList.length) hsame
    simpa using hlength

/-- A role is stored, and a binding that it owns; the role is given a finalizer and deleted, which
marks it. A client that has not seen the mark fails to take the finalizer off. Another one that has
seen it succeeds, and nothing is left. -/
def teardown : List Order :=
  let key : Key := ⟨some "team-a", "edit"⟩
  let role : Role := ⟨.ofKey key, ⟨[]⟩⟩
  let binding : Binding := ⟨.ofKey ⟨some "team-a", "alice"⟩, ⟨.qualified .role "edit", []⟩⟩
  [.create .role role [],
    .create .binding binding [⟨.role, "edit", ⟨0, 0⟩⟩],
    .updateMetadata .role ⟨0, 0⟩ [cleanupFinalizer] [],
    .delete .role key,
    .updateMetadata .role ⟨2, 0⟩ [] [],
    .find .role key,
    .updateMetadata .role ⟨5, 0⟩ [] [],
    .listKeys .binding]

example : (carryOut (Surroundings.still 'm' .epoch).memory teardown [] {}).1.map
    (fun answer => answer.map fun answer => ((failure? answer.reply).isSome, answer.given.length)) =
  [some (false, 1), some (false, 1), some (false, 1), some (false, 0), some (true, 0),
    some (false, 1), some (false, 1), some (false, 0)] := by
  decide

theorem stores_agree_teardown :
    (∀ order ∈ teardown, order.IsPlain) ∧ teardown.length < UInt64.size ∧
      ∃ names : Renaming (.still 'm' .epoch) (.still 'r' .last),
        List.Forall₂ (Option.Rel (Answer.Alike names))
          (carryOut (Surroundings.still 'm' .epoch).memory teardown [] {}).1
          (carryOut (Surroundings.still 'r' .last).relational teardown [] {}).1 ∧
        SameHoldings names (carryOut (Surroundings.still 'm' .epoch).memory teardown [] {}).2
          (carryOut (Surroundings.still 'r' .last).relational teardown [] {}).2 :=
  ⟨by decide, by decide, stores_agree _ _ teardown (by decide) (by decide)⟩

end AccessBroker
