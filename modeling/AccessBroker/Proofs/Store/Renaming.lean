import AccessBroker.Proofs.Store.LookUps
import Mathlib.Data.List.Forall2

/-!
# The same objects under other names

Two stores that are asked the same do not give the same answers: each has identifiers and times of
its own, and each counts versions in its own way. What they give is to be the same up to these
names.

Identifiers and times stand for each other when they come from the same step
(`AccessBroker.Surroundings`). For versions this does not say enough, since one store uses up
versions where the other one does not; those that stand for each other are collected in pairs, and
the pairs ascend on both sides (`AccessBroker.Renaming`). So a comparison of two versions comes out
alike on both sides (`AccessBroker.Renaming.Version.lt_iff`), and a write under a new version only
adds a pair at the end (`AccessBroker.Renaming.extend`).

Whatever a store makes of an object, it makes of the renamed one as well: this is the last part of
the file.
-/

namespace AccessBroker

open AccessBroker.Time

/-- What a store takes from its surroundings at each step: the time, and an identifier that it gets
at no other step. -/
structure Surroundings where
  now : Nat → Instant
  uid : Nat → String
  uid_inj : ∀ {m n : Nat}, uid m = uid n → m = n

namespace Surroundings

/-- Two identifiers from the same step. -/
def SameUid (inner outer : Surroundings) (a b : String) : Prop :=
  ∃ step, a = inner.uid step ∧ b = outer.uid step

/-- Two times from the same step. -/
def SameTime (inner outer : Surroundings) (a b : Instant) : Prop :=
  ∃ step, a = inner.now step ∧ b = outer.now step

variable {inner outer : Surroundings} {a a' b b' : String}

/-- **Identifiers are renamed one to one.** -/
theorem SameUid.eq_iff (h : SameUid inner outer a b) (h' : SameUid inner outer a' b') :
    a = a' ↔ b = b' := by
  obtain ⟨step, rfl, rfl⟩ := h
  obtain ⟨step', rfl, rfl⟩ := h'
  exact ⟨fun hsame => inner.uid_inj hsame ▸ rfl, fun hsame => outer.uid_inj hsame ▸ rfl⟩

end Surroundings

open Surroundings

/-- How the versions of two stores stand to each other. -/
structure Renaming (inner outer : Surroundings) where
  /-- The versions that stand for each other, in the order in which they were given out. -/
  versions : List (Nat × Nat)
  ascending : versions.Pairwise fun earlier later => earlier.1 < later.1 ∧ earlier.2 < later.2

namespace Renaming

variable {inner outer : Surroundings} {names later : Renaming inner outer} {a a' b b' : Nat}

/-- Two versions stand for each other. -/
def Version (names : Renaming inner outer) (a b : Nat) : Prop :=
  (a, b) ∈ names.versions

/-- **Versions are renamed in order.** -/
theorem Version.lt_iff (h : names.Version a b) (h' : names.Version a' b') : a < a' ↔ b < b' := by
  have hordered : (a, b) = (a', b') ∨ a < a' ∧ b < b' ∨ a' < a ∧ b' < b := by
    obtain ⟨i, hi, hfirst⟩ := List.getElem_of_mem h
    obtain ⟨j, hj, hsecond⟩ := List.getElem_of_mem h'
    have hpairwise := List.pairwise_iff_getElem.1 names.ascending
    rcases Nat.lt_trichotomy i j with hlt | rfl | hgt
    · have hlt := hpairwise i j hi hj hlt
      rw [hfirst, hsecond] at hlt
      exact .inr (.inl hlt)
    · exact .inl (hfirst.symm.trans hsecond)
    · have hgt := hpairwise j i hj hi hgt
      rw [hfirst, hsecond] at hgt
      exact .inr (.inr hgt)
  rcases hordered with hsame | ⟨hlt, hlt'⟩ | ⟨hgt, hgt'⟩
  · obtain ⟨rfl, rfl⟩ := Prod.mk.inj hsame
    exact ⟨fun h => absurd h (Nat.lt_irrefl a), fun h => absurd h (Nat.lt_irrefl b)⟩
  · exact ⟨fun _ => hlt', fun _ => hlt⟩
  · exact ⟨fun h => absurd h (Nat.lt_asymm hgt), fun h => absurd h (Nat.lt_asymm hgt')⟩

/-- **Versions are renamed one to one.** -/
theorem Version.eq_iff (h : names.Version a b) (h' : names.Version a' b') : a = a' ↔ b = b' := by
  have hlt := h.lt_iff h'
  have hgt := h'.lt_iff h
  omega

/-- No version that stands for another one is above these two. -/
def Within (names : Renaming inner outer) (version version' : Nat) : Prop :=
  ∀ a b, names.Version a b → a ≤ version ∧ b ≤ version'

/-- A later state of the renaming. -/
def Extends (later names : Renaming inner outer) : Prop :=
  ∀ a b, names.Version a b → later.Version a b

theorem Extends.refl (names : Renaming inner outer) : names.Extends names :=
  fun _ _ h => h

/-- Nothing has been renamed yet. -/
def none : Renaming inner outer :=
  ⟨[], List.Pairwise.nil⟩

/-- The renaming with the next version of each store. -/
def extend (names : Renaming inner outer) (h : names.Within a b) : Renaming inner outer where
  versions := names.versions ++ [(a + 1, b + 1)]
  ascending := by
    refine List.pairwise_append.2 ⟨names.ascending, List.pairwise_singleton _ _, ?_⟩
    rintro ⟨v, w⟩ hpair next hnext
    obtain ⟨hv, hw⟩ := h v w hpair
    rw [List.mem_singleton.1 hnext]
    exact ⟨Nat.lt_succ_of_le hv, Nat.lt_succ_of_le hw⟩

theorem extends_extend (h : names.Within a b) : (names.extend h).Extends names :=
  fun _ _ hpair => List.mem_append_left _ hpair

theorem version_extend (h : names.Within a b) : (names.extend h).Version (a + 1) (b + 1) :=
  List.mem_append_right _ List.mem_cons_self

theorem within_extend (h : names.Within a b) : (names.extend h).Within (a + 1) (b + 1) := by
  intro v w hpair
  rcases List.mem_append.1 hpair with hold | hnew
  · obtain ⟨hv, hw⟩ := h v w hold
    exact ⟨Nat.le_succ_of_le hv, Nat.le_succ_of_le hw⟩
  · cases List.mem_singleton.1 hnew
    exact ⟨Nat.le_refl _, Nat.le_refl _⟩

end Renaming

/-! ### Renamed objects -/

/-- The same reference under another name. -/
structure OwnerReference.Renamed (inner outer : Surroundings) (owner owner' : OwnerReference) :
    Prop where
  kind : owner'.kind = owner.kind
  name : owner'.name = owner.name
  uid : SameUid inner outer owner.uid owner'.uid

namespace Object

variable {inner outer : Surroundings} {kind : Kind}

/-- Two objects that say the same, apart from what a store writes in them. -/
structure Submitted (inner outer : Surroundings) (object object' : Object kind) : Prop where
  key : object'.key = object.key
  finalizers : object'.metadata.finalizers = object.metadata.finalizers
  owners : List.Forall₂ (OwnerReference.Renamed inner outer) object.metadata.owners
    object'.metadata.owners
  body : object'.body = object.body

/-- **The same object under other names.** -/
structure Renamed (names : Renaming inner outer) (object object' : Object kind) : Prop
    extends Submitted inner outer object object' where
  uid : SameUid inner outer object.metadata.uid object'.metadata.uid
  version : names.Version object.metadata.version object'.metadata.version
  createdAt : Option.Rel (SameTime inner outer) object.metadata.createdAt object'.metadata.createdAt
  deletedAt : Option.Rel (SameTime inner outer) object.metadata.deletedAt object'.metadata.deletedAt

variable {names later : Renaming inner outer} {object object' stored stored' : Object kind}

theorem Renamed.mono (h : Renamed names object object') (hlater : later.Extends names) :
    Renamed later object object' :=
  ⟨h.toSubmitted, h.uid, hlater _ _ h.version, h.createdAt, h.deletedAt⟩

theorem Renamed.isDeleting (h : Renamed names object object') :
    object'.metadata.isDeleting = object.metadata.isDeleting := by
  have hdeleted := h.deletedAt
  unfold Metadata.isDeleting
  generalize object.metadata.deletedAt = time at *
  generalize object'.metadata.deletedAt = time' at *
  cases hdeleted <;> rfl

/-- **The same owner is among the owners.** -/
theorem Submitted.isOwnedBy (h : Submitted inner outer object object') {owner owner' : String}
    (howner : SameUid inner outer owner owner') :
    object'.metadata.isOwnedBy owner' = object.metadata.isOwnedBy owner := by
  have howners := h.owners
  unfold Metadata.isOwnedBy
  generalize object.metadata.owners = owners at *
  generalize object'.metadata.owners = owners' at *
  induction howners with
  | nil => rfl
  | @cons first first' _ _ hfirst _ ih =>
    have hsame : (first'.uid == owner') = (first.uid == owner) := by
      rw [Bool.eq_iff_iff, beq_iff_eq, beq_iff_eq]
      exact (hfirst.uid.eq_iff howner).symm
    rw [List.any_cons, List.any_cons, hsame, ih]

/-! ### What stores make of objects -/

section Lifecycle

variable {version version' : Nat}

theorem Submitted.pristine (h : Submitted inner outer object object') :
    Submitted inner outer object.pristine object'.pristine :=
  ⟨h.key, h.finalizers, h.owners, congrArg kind.withBlankStatus h.body⟩

/-- **A new object** is named anew. -/
theorem Submitted.born (h : Submitted inner outer object object')
    (hversion : names.Version version version') (step : Nat) :
    Renamed names (object.born (inner.now step) (inner.uid step) version)
      (object'.born (outer.now step) (outer.uid step) version') :=
  ⟨⟨h.key, h.finalizers, h.owners, h.body⟩, ⟨step, rfl, rfl⟩, hversion, .some ⟨step, rfl, rfl⟩,
    .none⟩

theorem Submitted.inPlaceOf (h : Submitted inner outer object object')
    (hstored : Renamed names stored stored') (hversion : names.Version version version') :
    Renamed names (object.inPlaceOf stored version) (object'.inPlaceOf stored' version') :=
  ⟨⟨h.key, h.finalizers, h.owners, h.body⟩, hstored.uid, hversion, hstored.createdAt,
    hstored.deletedAt⟩

theorem Renamed.withLinksOf (hstored : Renamed names stored stored')
    (h : Submitted inner outer object object') (hversion : names.Version version version') :
    Renamed names (stored.withLinksOf object version) (stored'.withLinksOf object' version') :=
  ⟨⟨hstored.key, h.finalizers, h.owners, hstored.body⟩, hstored.uid, hversion, hstored.createdAt,
    hstored.deletedAt⟩

theorem Renamed.patched (hstored : Renamed names stored stored')
    (hversion : names.Version version version') (status : kind.Status) :
    Renamed names (stored.patched status version) (stored'.patched status version') :=
  ⟨⟨hstored.key, hstored.finalizers, hstored.owners,
    congrArg (kind.withStatus · status) hstored.body⟩, hstored.uid, hversion, hstored.createdAt,
    hstored.deletedAt⟩

/-- An object that is marked as deleting gets a new version and a time, unless it is marked already.
-/
theorem Renamed.marked (hstored : Renamed names stored stored')
    (hversion : names.Version version version') (step : Nat) :
    Renamed names (stored.marked (inner.now step) version)
      (stored'.marked (outer.now step) version') := by
  unfold Object.marked
  rw [hstored.isDeleting]
  split
  · exact hstored
  · exact ⟨⟨hstored.key, hstored.finalizers, hstored.owners, hstored.body⟩, hstored.uid, hversion,
      hstored.createdAt, .some ⟨step, rfl, rfl⟩⟩

theorem Renamed.isSpent (h : Renamed names object object') : object'.isSpent = object.isSpent := by
  rw [Object.isSpent, Object.isSpent, h.isDeleting, h.finalizers]

end Lifecycle

end Object

end AccessBroker
