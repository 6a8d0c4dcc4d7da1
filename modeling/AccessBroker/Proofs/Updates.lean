import AccessBroker.Proofs.Store.Versions

/-!
# No update is lost

Who writes the finalizers and owners of an object, or its status, does so on the base of an object
that some call has given before, and the write succeeds only if the stored object has the version of
the base. Since versions tell objects apart over the whole life of a store, that means more than
that the numbers agree: the object that the answer gave is stored, and has been stored all the time
(`AccessBroker.MemoryStore.Log.no_lost_update`). What the write makes of it is that object with the
finalizers and owners of the base, or with another status; everything else stays, unless the object
was waiting for nothing but that write and goes away.
-/

namespace AccessBroker

open AccessBroker.Time

namespace MemoryStore

variable {kind other : Kind} {key place : Key} {store after : MemoryStore} {now : Instant}
  {uid : String}

/-- An object takes the place of another one, or goes away with what it owns, and everything else
stays. -/
structure Overwritten (store after : MemoryStore) (old new : Object kind) : Prop where
  place : new.key = old.key
  before : store.find? kind old.key = some old
  outcome : after.find? kind old.key = some new ∨
    new.isSpent = true ∧ after.find? kind old.key = none
  /-- Roles and bindings go with their owner. -/
  others {other : Kind} {key : Key} : other ≠ kind ∨ key ≠ old.key →
    after.find? other key = store.find? other key ∨
      new.isSpent = true ∧ other.isOwned = true ∧ after.find? other key = none ∧
        ∃ owned, store.find? other key = some owned ∧
          owned.metadata.isOwnedBy old.metadata.uid = true

theorem overwritten_put {old new : Object kind} (hplace : new.key = old.key)
    (hbefore : store.find? kind old.key = some old) :
    Overwritten store (store.renewed.put new) old new where
  place := hplace
  before := hbefore
  outcome := .inl (by rw [find?_put, if_pos hplace.symm])
  others {other key} hother := by
    refine .inl ?_
    by_cases hkind : other = kind
    · subst hkind
      have hkey := hother.resolve_left (absurd rfl)
      rw [find?_put, if_neg (hplace ▸ hkey), find?_renewed]
    · rw [find?_put_of_ne _ _ hkind, find?_renewed]

theorem overwritten_drop {old new : Object kind} (hplace : new.key = old.key)
    (huid : new.metadata.uid = old.metadata.uid) (hspent : new.isSpent = true)
    (hbefore : store.find? kind old.key = some old) :
    Overwritten store (store.renewed.drop new) old new where
  place := hplace
  before := hbefore
  outcome := .inr ⟨hspent, hplace ▸ find?_drop_self _ _⟩
  others {other key} hother := by
    have herased : ((store.renewed.withTable ((store.renewed.table kind).erase new.key)).record
        new).find? other key = store.find? other key := by
      by_cases hkind : other = kind
      · subst hkind
        have hkey := hother.resolve_left (absurd rfl)
        rw [find?_erased, if_neg (hplace ▸ hkey), find?_renewed]
      · rw [find?_erased_of_ne _ _ hkind, find?_renewed]
    cases howned : other.isOwned with
    | false => exact .inl ((find?_drop_of_not_isOwned _ _ howned).trans herased)
    | true =>
      rw [find?_drop_of_isOwned _ _ howned, herased]
      cases hfound : store.find? other key with
      | none => exact .inl rfl
      | some owned =>
        cases hgoes : owned.metadata.isOwnedBy old.metadata.uid with
        | false => exact .inl (by rw [Option.filter_some, huid, hgoes]; rfl)
        | true =>
          exact .inr ⟨hspent, rfl, by rw [Option.filter_some, huid, hgoes]; rfl, owned, rfl, hgoes⟩

/-- **What a write of finalizers and owners does.** -/
theorem Performed.overwritten_of_updateMetadata {base updated : Object kind} (hkeyed : store.Keyed)
    (h : Performed now uid store (.updateMetadata kind base) (.ok updated) after) :
    ∃ stored, store.find? kind base.key = some stored ∧
      stored.metadata.version = base.metadata.version ∧
      updated = stored.withLinksOf base (store.version + 1) ∧
      Overwritten store after stored updated := by
  cases h with
  | surveyed _ hsurvey => cases hsurvey
  | linked hfound hcurrent =>
    have hkey := hkeyed _ _ _ hfound
    exact ⟨_, hfound, hcurrent, rfl, overwritten_put rfl (by rw [hkey]; exact hfound)⟩
  | released hfound hcurrent hspent =>
    have hkey := hkeyed _ _ _ hfound
    exact ⟨_, hfound, hcurrent, rfl, overwritten_drop rfl rfl hspent (by rw [hkey]; exact hfound)⟩

/-- **What a write of the status does.** -/
theorem Performed.overwritten_of_patchStatus {base patched : Object kind} {status : kind.Status}
    (hkeyed : store.Keyed)
    (h : Performed now uid store (.patchStatus kind base status) (.ok patched) after) :
    ∃ stored, store.find? kind base.key = some stored ∧
      stored.metadata.version = base.metadata.version ∧
      patched = stored.patched status (store.version + 1) ∧
      after.find? kind stored.key = some patched ∧ Overwritten store after stored patched := by
  cases h with
  | surveyed _ hsurvey => cases hsurvey
  | patched hfound hcurrent =>
    have hkey := hkeyed _ _ _ hfound
    refine ⟨_, hfound, hcurrent, rfl, ?_, overwritten_put rfl (by rw [hkey]; exact hfound)⟩
    rw [find?_put, Object.key_patched, if_pos rfl]

/-! ### No lost update -/

/-- **No update is lost**, whoever calls the store in whatever order. Take an object that some
answer gave, and a base that has its version. If a write of finalizers and owners on that base
succeeds, then the base has the key of this object, and the object is stored now and was all the
time since the answer. The write gives it the finalizers and owners of the base and a new version,
or removes it. The same goes for a write of the status, which removes nothing. And whatever object
comes to be stored has a version above those of all objects that were ever stored before, and shares
it with no other one. -/
theorem Log.no_lost_update {log : List Entry} (h : Log log) :
    (∀ later entry earlier, log = later ++ entry :: earlier →
      ∀ (other : Kind) (given : Object other), ⟨other, given⟩ ∈ entry.given →
      ∀ (now : Instant) (uid : String) (kind : Kind) (base : Object kind),
        base.metadata.version = given.metadata.version →
      (∀ updated after,
        (afterLog log).perform now uid (.updateMetadata kind base) = (.ok updated, after) →
        ∃ stored : Object kind, (⟨other, given⟩ : (kind : Kind) × Object kind) = ⟨kind, stored⟩ ∧
          stored.key = base.key ∧
          (∀ between, between <:+ later →
            (afterLog (between ++ entry :: earlier)).find? kind base.key = some stored) ∧
          updated = { stored with metadata := { stored.metadata with
            finalizers := base.metadata.finalizers
            owners := base.metadata.owners
            version := updated.metadata.version } } ∧
          Overwritten (afterLog log) after stored updated) ∧
      (∀ status patched after,
        (afterLog log).perform now uid (.patchStatus kind base status) = (.ok patched, after) →
        ∃ stored : Object kind, (⟨other, given⟩ : (kind : Kind) × Object kind) = ⟨kind, stored⟩ ∧
          stored.key = base.key ∧
          (∀ between, between <:+ later →
            (afterLog (between ++ entry :: earlier)).find? kind base.key = some stored) ∧
          patched = { stored.withStatus status with metadata := { stored.metadata with
            version := patched.metadata.version } } ∧
          after.find? kind base.key = some patched ∧
          Overwritten (afterLog log) after stored patched)) ∧
    (∀ entry rest, log = entry :: rest → ∀ (kind : Kind) (key : Key) (object : Object kind),
      entry.after.find? kind key = some object → (afterLog rest).find? kind key ≠ some object →
      ∀ earlier, earlier <:+ rest → ∀ (other : Kind) (place : Key) (old : Object other),
        (afterLog earlier).find? other place = some old →
        old.metadata.version < object.metadata.version) ∧
    (∀ (kind other : Kind) (key place : Key) (object : Object kind) (second : Object other),
      (afterLog log).find? kind key = some object → (afterLog log).find? other place = some second →
      object.metadata.version = second.metadata.version → kind = other ∧ key = place) := by
  refine ⟨fun later entry earlier hlog other given hgiven now uid kind base hversion => ⟨?_, ?_⟩,
    ?_, fun _ _ _ _ _ _ => h.versioned.distinct⟩
  · intro updated after hwrite
    have hperformed := performed_perform now uid (afterLog log) (.updateMetadata kind base)
    rw [hwrite] at hperformed
    obtain ⟨stored, hfound, hcurrent, hupdated, hoverwritten⟩ :=
      hperformed.overwritten_of_updateMetadata h.versioned.keyed
    obtain ⟨hsame, hsince⟩ := (hlog ▸ h : Log (later ++ entry :: earlier)).eq_of_version hgiven
      (hlog ▸ hfound) (hcurrent.trans hversion)
    refine ⟨stored, hsame, h.versioned.keyed _ _ _ hfound, hsince, ?_, hoverwritten⟩
    rw [hupdated]
    rfl
  · intro status patched after hwrite
    have hperformed := performed_perform now uid (afterLog log) (.patchStatus kind base status)
    rw [hwrite] at hperformed
    obtain ⟨stored, hfound, hcurrent, hpatched, hafter, hoverwritten⟩ :=
      hperformed.overwritten_of_patchStatus h.versioned.keyed
    obtain ⟨hsame, hsince⟩ := (hlog ▸ h : Log (later ++ entry :: earlier)).eq_of_version hgiven
      (hlog ▸ hfound) (hcurrent.trans hversion)
    have hkey := h.versioned.keyed _ _ _ hfound
    refine ⟨stored, hsame, hkey, hsince, ?_, hkey ▸ hafter, hoverwritten⟩
    rw [hpatched]
    rfl
  · rintro entry rest rfl kind key object hstored hnew earlier ⟨later, rfl⟩ other place old hold
    obtain ⟨hrest, _, _, -, hcall⟩ := h.performed
    have hbound := hrest.of_append.versioned.bounded hold
    have hle : (afterLog earlier).version ≤ (afterLog (later ++ earlier)).version :=
      hrest.version_le
    rcases (hcall.turn hrest.versioned.keyed kind key).fresh hstored with hbefore | ⟨hnext, -⟩
    · exact absurd hbefore hnew
    · omega

namespace Scenario

/-- A request of alice. -/
def petition : Request where
  metadata := .ofKey ⟨some "team", "r"⟩
  body := { spec := { subject := "alice", duration := "10m" }, status := {} }

/-- The request as it is stored. -/
def filed : Request :=
  petition.born .epoch "uid" 1

/-- The request with the finalizer of the broker. -/
def secured : Request :=
  { filed with metadata := { filed.metadata with finalizers := [cleanupFinalizer] } }

/-- The request is stored, and a deletion of something else fails. -/
def log : List Entry :=
  let first := Entry.made .epoch "uid" {} (.create .request petition)
  [.made .epoch "" first.after (.delete .request ⟨none, "r"⟩), first]

end Scenario

/-- The finalizer of the broker is written on the request that the first call has given. -/
theorem no_lost_update_request : Log Scenario.log ∧ ∃ entry ∈ Scenario.log,
    ⟨.request, Scenario.filed⟩ ∈ entry.given ∧ ∃ updated after,
      (afterLog Scenario.log).perform .epoch "" (.updateMetadata .request Scenario.secured) =
        (.ok updated, after) ∧
      Overwritten (afterLog Scenario.log) after Scenario.filed updated := by
  have hlog : Log Scenario.log := .call (.call .start _ _ _) _ _ _
  have hgiven : ⟨.request, Scenario.filed⟩ ∈
      (Entry.made .epoch "uid" {} (.create .request Scenario.petition)).given :=
    List.mem_singleton.2 rfl
  obtain ⟨updated, after, hwrite⟩ : ∃ updated after,
      (afterLog Scenario.log).perform .epoch "" (.updateMetadata .request Scenario.secured) =
        (.ok updated, after) := ⟨_, _, rfl⟩
  obtain ⟨stored, hsame, -, -, -, hoverwritten⟩ := ((Log.no_lost_update hlog).1 [_] _ [] rfl
    _ _ hgiven .epoch "" .request Scenario.secured rfl).1 updated after hwrite
  cases hsame
  exact ⟨hlog, _, List.mem_cons_of_mem _ List.mem_cons_self, hgiven, updated, after, hwrite,
    hoverwritten⟩

end MemoryStore

end AccessBroker
