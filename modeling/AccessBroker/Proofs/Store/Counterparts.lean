import AccessBroker.Proofs.Store.Renaming
import AccessBroker.Proofs.Store.Transactions
import AccessBroker.Proofs.Store.Versions

/-!
# Two stores side by side

The store in memory and the shelf of a database match (`AccessBroker.Matches`) when a look-up of any
kind and key comes to the same on both, up to a renaming, and the shelf has no other rows. A row
says where it belongs in three columns, and an object of the whole cluster is in the rows without a
namespace, so the two sides are told apart by keys whose namespace is not the empty text
(`AccessBroker.Key.IsPlain`).

Matching is kept when an object and its renamed counterpart are put into the two stores
(`AccessBroker.Matches.put`), and when they are dropped with all that they own
(`AccessBroker.Matches.drop`). The one store collects the roles and then the bindings of an owner
and the other one all rows that name it: they agree because objects of other kinds have no owners.
Listings agree because rows are ordered as keys are (`AccessBroker.Matches.lists`).
-/

namespace AccessBroker

open AccessBroker.Time Std

/-! ### Rows and keys -/

theorem Kind.label_inj {kind other : Kind} (h : kind.label = other.label) : kind = other := by
  cases kind <;> cases other <;> first | rfl | exact absurd h (by decide)

namespace Key

/-- A key whose namespace is not the empty text, which stands for the whole cluster in a row. -/
def IsPlain (key : Key) : Prop :=
  key.space ≠ some ""

instance (key : Key) : Decidable key.IsPlain :=
  inferInstanceAs (Decidable (_ ≠ _))

variable {key other : Key}

theorem getD_space_inj (h : key.IsPlain) (h' : other.IsPlain)
    (hsame : key.space.getD "" = other.space.getD "") : key.space = other.space := by
  unfold IsPlain at h h'
  cases hspace : key.space <;> cases hother : other.space <;> rw [hspace, hother] at hsame
  · exact absurd (hother.trans (congrArg some hsame.symm)) h'
  · exact absurd (hspace.trans (congrArg some hsame)) h
  · exact congrArg some hsame

/-- **Plain keys are told apart by their rows.** -/
theorem row_inj {kind kind' : Kind} (h : key.IsPlain) (h' : other.IsPlain)
    (hsame : key.row kind = other.row kind') : kind = kind' ∧ key = other := by
  obtain ⟨hkind, hspace, hname⟩ := RowKey.mk.inj hsame
  refine ⟨Kind.label_inj hkind, ?_⟩
  cases key
  cases other
  cases getD_space_inj h h' hspace
  cases hname
  rfl

/-- A plain key is read back from its row. -/
theorem ofColumns_row (h : key.IsPlain) : ofColumns (key.space.getD "") key.name = key := by
  obtain ⟨space, name⟩ := key
  cases space with
  | none => rfl
  | some space =>
    have hspace : space.isEmpty = false := by
      rw [← Bool.not_eq_true, String.isEmpty_iff]
      exact fun hempty => h (congrArg some hempty)
    change Key.mk (if space.isEmpty then none else some space) name = _
    rw [hspace]
    rfl

/-- The empty text comes first. -/
theorem compare_empty {text : String} (h : text ≠ "") : compare "" text = .lt := by
  have hchars : text.toList ≠ [] := fun hnil => h (String.toList_injective hnil)
  obtain ⟨first, rest, hfirst⟩ := List.exists_cons_of_ne_nil hchars
  have hlt : "" < text := by
    rw [String.lt_iff, hfirst]
    exact List.nil_lt_cons first rest
  exact if_pos hlt

/-- **Rows are ordered as their keys are**: the absent namespace comes first, as the empty text
does. -/
theorem row_lt_row (kind : Kind) (h' : other.IsPlain) (hlt : compare key other = .lt) :
    compare (key.row kind) (other.row kind) = .lt := by
  obtain ⟨space, name⟩ := key
  obtain ⟨space', name'⟩ := other
  have hkeys : (compare space space').then (compare name name') = .lt := hlt
  have hrows : compare (Key.row ⟨space, name⟩ kind) (Key.row ⟨space', name'⟩ kind) =
      (compare kind.label kind.label).then
        ((compare (space.getD "") (space'.getD "")).then (compare name name')) := rfl
  rw [hrows, ReflOrd.compare_self, Ordering.eq_then]
  cases space with
  | none =>
    cases space' with
    | none => exact hkeys
    | some space' =>
      have hlt : compare "" space' = .lt := compare_empty fun hempty => h' (congrArg some hempty)
      exact congrArg (Ordering.then · (compare name name')) hlt
  | some space =>
    cases space' with
    | none => cases hkeys
    | some space' => exact hkeys

end Key

/-! ### Matching stores -/

open Object

/-- **The store in memory and the shelf of a database hold the same**, up to a renaming. -/
structure Matches {inner outer : Surroundings} (names : Renaming inner outer) (store : MemoryStore)
    (shelf : Shelf) : Prop where
  keyed : store.Keyed
  plain {kind : Kind} {key : Key} {object : Object kind} :
    store.find? kind key = some object → key.IsPlain
  /-- Only roles and bindings have owners. -/
  free {kind : Kind} {key : Key} {object : Object kind} :
    store.find? kind key = some object → kind.isOwned = false → object.metadata.owners = []
  /-- Both find nothing, or the same object. -/
  row (kind : Kind) {key : Key} : key.IsPlain → ∃ found : Option (Object kind),
    Option.Rel (Renamed names) (store.find? kind key) found ∧
      shelf.rows.find? (key.row kind) = found.map toRow
  /-- There are no other rows. -/
  only {place : RowKey} {row : Row} : shelf.rows.find? place = some row →
    ∃ (kind : Kind) (key : Key), key.IsPlain ∧ place = key.row kind
  within : names.Within store.version shelf.version

namespace Matches

variable {inner outer : Surroundings} {names later : Renaming inner outer}
  {store after : MemoryStore} {shelf after' : Shelf} {kind : Kind} {key : Key}
  {object object' : Object kind}

/-- **Two stores without objects match.** -/
theorem empty : Matches (Renaming.none : Renaming inner outer) {} {} where
  keyed kind key object hfound := by
    rw [MemoryStore.find?_empty] at hfound
    cases hfound
  plain hfound := by
    rw [MemoryStore.find?_empty] at hfound
    cases hfound
  free hfound := by
    rw [MemoryStore.find?_empty] at hfound
    cases hfound
  row kind key _ := by
    rw [MemoryStore.find?_empty]
    exact ⟨none, .none, rfl⟩
  only hfound := by cases hfound
  within a b hpair := by cases hpair

/-- **What is found** in the two stores: nothing, or the same object. -/
theorem found_or_missing (h : Matches names store shelf) (hsize : shelf.version < UInt64.size)
    (hkey : key.IsPlain) (kind : Kind) :
    store.find? kind key = none ∧ shelf.Holds kind key none ∨
      ∃ stored stored' : Object kind, store.find? kind key = some stored ∧
        shelf.Holds kind key (some stored') ∧ Renamed names stored stored' := by
  obtain ⟨found, hfound, hrow⟩ := h.row kind hkey
  cases hstored : store.find? kind key with
  | none =>
    rw [hstored] at hfound
    cases hfound with
    | none => exact .inl ⟨rfl, hrow, fun _ hobject => by cases hobject⟩
  | some stored =>
    rw [hstored] at hfound
    cases hfound with
    | @some _ stored' hrenamed =>
      refine .inr ⟨stored, stored', rfl, ⟨hrow, fun object hobject => ?_⟩, hrenamed⟩
      cases hobject
      exact Nat.lt_of_le_of_lt (h.within _ _ hrenamed.version).2 hsize

/-- A failed write changes at most the versions. -/
theorem agreeing (h : Matches names store shelf) (hagrees : after.Agrees store)
    (hrows : after'.rows = shelf.rows) (hversion : store.version ≤ after.version)
    (hversion' : shelf.version ≤ after'.version) : Matches names after after' where
  keyed kind key object hfound := h.keyed kind key object (hagrees kind key ▸ hfound)
  plain hfound := h.plain (hagrees _ _ ▸ hfound)
  free hfound := h.free (hagrees _ _ ▸ hfound)
  row kind key hkey := by
    rw [hagrees, hrows]
    exact h.row kind hkey
  only hfound := h.only (hrows ▸ hfound)
  within a b hpair :=
    ⟨Nat.le_trans (h.within a b hpair).1 hversion, Nat.le_trans (h.within a b hpair).2 hversion'⟩

/-- The next version of each store stands for that of the other one. -/
theorem renewed (h : Matches names store shelf) :
    Matches (names.extend h.within) store.renewed shelf.renewed := by
  have hsame : Matches names store.renewed shelf.renewed :=
    h.agreeing (fun kind key => MemoryStore.find?_renewed store) rfl (Nat.le_succ _) (Nat.le_succ _)
  refine { hsame with row := fun kind key hkey => ?_, within := Renaming.within_extend h.within }
  obtain ⟨found, hfound, hrow⟩ := hsame.row kind hkey
  refine ⟨found, ?_, hrow⟩
  generalize store.renewed.find? kind key = stored at hfound
  cases hfound with
  | some hrenamed => exact .some (hrenamed.mono (Renaming.extends_extend h.within))
  | none => exact .none

/-- What is found after an object was put is that object, or was found before. -/
theorem find?_put_elim {other : Kind} {found : Object other}
    {P : (kind : Kind) → Key → Object kind → Prop} (hnew : P kind object.key object)
    (hold : store.find? other key = some found → P other key found)
    (hfound : (store.put object).find? other key = some found) : P other key found := by
  by_cases hkind : other = kind
  · subst hkind
    rw [MemoryStore.find?_put] at hfound
    split at hfound
    · next hkey =>
      rw [hkey, ← Option.some.inj hfound]
      exact hnew
    · exact hold hfound
  · rw [MemoryStore.find?_put_of_ne _ _ hkind] at hfound
    exact hold hfound

/-- **An object is put into both stores.** -/
theorem put (h : Matches names store shelf) (hrenamed : Renamed names object object')
    (hplain : object.key.IsPlain) (hfree : kind.isOwned = false → object.metadata.owners = []) :
    Matches names (store.put object) (shelf.put object') where
  keyed other key found hfound :=
    find?_put_elim (P := fun _ key object => object.key = key) rfl (h.keyed other key found) hfound
  plain hfound := find?_put_elim (P := fun _ key _ => key.IsPlain) hplain h.plain hfound
  free hfound := find?_put_elim (P := fun kind _ object => kind.isOwned = false →
    object.metadata.owners = []) hfree h.free hfound
  row other key hkey := by
    rw [Shelf.put]
    dsimp only
    rw [Table.find?_insert, hrenamed.key]
    by_cases hkind : other = kind
    · subst hkind
      rw [MemoryStore.find?_put]
      by_cases hsame : key = object.key
      · rw [if_pos hsame, if_pos (congrArg (Key.row · other) hsame)]
        exact ⟨some object', .some hrenamed, rfl⟩
      · rw [if_neg hsame, if_neg fun hrow => hsame (Key.row_inj hkey hplain hrow).2]
        exact h.row other hkey
    · rw [MemoryStore.find?_put_of_ne _ _ hkind,
        if_neg fun hrow => hkind (Key.row_inj hkey hplain hrow).1]
      exact h.row other hkey
  only {place row} hfound := by
    rw [Shelf.put] at hfound
    dsimp only at hfound
    rw [Table.find?_insert, hrenamed.key] at hfound
    split at hfound
    · next hplace => exact ⟨kind, object.key, hplain, hplace⟩
    · exact h.only hfound
  within a b hpair := by
    rw [MemoryStore.Performed.version_put]
    exact h.within a b hpair

/-- What a look-up finds when an object and all that it owns is dropped. -/
theorem find?_drop (h : Matches names store shelf) (object : Object kind) (other : Kind)
    (key : Key) :
    (store.drop object).find? other key =
      (if other = kind ∧ key = object.key then none else store.find? other key).filter
        fun left => !left.metadata.isOwnedBy object.metadata.uid := by
  have herased : ((store.withTable ((store.table kind).erase object.key)).record object).find?
      other key = if other = kind ∧ key = object.key then none else store.find? other key := by
    by_cases hkind : other = kind
    · subst hkind
      rw [MemoryStore.find?_erased]
      simp only [true_and]
    · rw [MemoryStore.find?_erased_of_ne _ _ hkind, if_neg fun hsame => hkind hsame.1]
  cases howned : other.isOwned with
  | true => rw [MemoryStore.find?_drop_of_isOwned _ _ howned, herased]
  | false =>
    rw [MemoryStore.find?_drop_of_not_isOwned _ _ howned, herased]
    split
    · rfl
    · -- Nothing of such a kind names the object as its owner.
      cases hleft : store.find? other key with
      | none => rfl
      | some left =>
        rw [Option.filter_some, Metadata.isOwnedBy, h.free hleft howned]
        rfl

theorem contains_ownerUids (object : Object kind) (owner : String) :
    object.toRow.ownerUids.contains owner = object.metadata.isOwnedBy owner := by
  change (object.metadata.owners.map (·.uid)).contains owner = _
  rw [List.contains_eq_any_beq, List.any_map, Metadata.isOwnedBy]
  exact congrArg (object.metadata.owners.any ·) (funext fun reference => Bool.beq_comm)

/-- **An object is dropped from both stores**, with what it owns. -/
theorem drop (h : Matches names store shelf) (hrenamed : Renamed names object object')
    (hplain : object.key.IsPlain) : Matches names (store.drop object) (shelf.drop object') where
  keyed other key found hfound := h.keyed other key found (MemoryStore.find?_of_find?_drop hfound)
  plain hfound := h.plain (MemoryStore.find?_of_find?_drop hfound)
  free hfound := h.free (MemoryStore.find?_of_find?_drop hfound)
  row other key hkey := by
    rw [h.find?_drop, Shelf.drop]
    dsimp only
    rw [Table.find?_retain, Table.find?_erase, hrenamed.key]
    by_cases hsame : other = kind ∧ key = object.key
    · rw [if_pos hsame, if_pos (by rw [hsame.1, hsame.2])]
      exact ⟨none, .none, rfl⟩
    · rw [if_neg hsame, if_neg fun hrow => hsame (Key.row_inj hkey hplain hrow)]
      obtain ⟨found, hfound, hrow⟩ := h.row other hkey
      rw [hrow]
      generalize store.find? other key = stored at hfound
      cases hfound with
      | none => exact ⟨none, .none, rfl⟩
      | @some left left' hleft =>
        rw [Option.map_some, Option.filter_some, Option.filter_some, contains_ownerUids,
          hleft.isOwnedBy hrenamed.uid]
        split
        · exact ⟨some left', .some hleft, rfl⟩
        · exact ⟨none, .none, rfl⟩
  only {place row} hfound := by
    rw [Shelf.drop] at hfound
    dsimp only at hfound
    rw [Table.find?_retain, Table.find?_erase] at hfound
    have hleft := (Option.filter_eq_some_iff.1 hfound).1
    split at hleft
    · cases hleft
    · exact h.only hleft
  within a b hpair := by
    rw [MemoryStore.Performed.version_drop]
    exact h.within a b hpair

/-- There is no row without its object. -/
theorem exists_of_row (h : Matches names store shelf) {place : RowKey} {row : Row}
    (hrow : shelf.rows.find? place = some row) :
    ∃ (kind : Kind) (key : Key) (object : Object kind),
      place = key.row kind ∧ store.find? kind key = some object := by
  obtain ⟨kind, key, hkey, rfl⟩ := h.only hrow
  obtain ⟨found, hfound, hplace⟩ := h.row kind hkey
  cases hstored : store.find? kind key with
  | some object => exact ⟨kind, key, object, rfl, hstored⟩
  | none =>
    rw [hstored] at hfound
    cases hfound
    rw [hplace] at hrow
    cases hrow

/-- The objects of the rows that belong to some entries. -/
theorem exists_renamed (h : Matches names store shelf) {entries : List (Key × Object kind)}
    (hentries : ∀ entry ∈ entries, store.find? kind entry.1 = some entry.2) :
    ∃ objects : List (Object kind),
      List.Forall₂ (Renamed names) (entries.map Prod.snd) objects ∧
      objects.map Object.key = entries.map Prod.fst ∧
      ∀ object ∈ objects, shelf.rows.find? (object.key.row kind) = some object.toRow ∧
        object.metadata.version ≤ shelf.version := by
  induction entries with
  | nil => exact ⟨[], .nil, rfl, fun _ hobject => by cases hobject⟩
  | cons entry rest ih =>
    obtain ⟨objects, hrenamed, hkeys, hrows⟩ :=
      ih fun other hother => hentries other (List.mem_cons_of_mem _ hother)
    obtain ⟨key, object⟩ := entry
    have hstored : store.find? kind key = some object := hentries (key, object) List.mem_cons_self
    obtain ⟨found, hfound, hrow⟩ := h.row kind (h.plain hstored)
    rw [hstored] at hfound
    cases hfound with
    | @some _ object' hobject =>
      have hkey : object'.key = key := hobject.key.trans (h.keyed _ _ _ hstored)
      refine ⟨object' :: objects, .cons hobject hrenamed, ?_, ?_⟩
      · rw [List.map_cons, List.map_cons, hkey, hkeys]
      · intro other hother
        rcases List.mem_cons.1 hother with rfl | hother
        · rw [hkey]
          exact ⟨hrow, (h.within _ _ hobject.version).2⟩
        · exact hrows other hother

/-- **What is listed** of a kind: the same objects in the same order. -/
theorem lists (h : Matches names store shelf) (hsize : shelf.version < UInt64.size) (kind : Kind) :
    ∃ objects, List.Forall₂ (Renamed names) (store.table kind).values objects ∧
      objects.map Object.key = (store.table kind).keys ∧ shelf.Lists kind objects := by
  have hentries : ∀ entry ∈ (store.table kind).entries, store.find? kind entry.1 = some entry.2 :=
    fun _ hentry => Table.mem_entries_iff.1 hentry
  obtain ⟨objects, hrenamed, hkeys, hrows⟩ := h.exists_renamed hentries
  have hlisted (key : Key) :
      key ∈ objects.map Object.key ↔ ∃ object, store.find? kind key = some object := by
    rw [hkeys, List.mem_map]
    constructor
    · rintro ⟨entry, hentry, rfl⟩
      exact ⟨entry.2, hentries entry hentry⟩
    · rintro ⟨object, hobject⟩
      exact ⟨(key, object), Table.mem_entries_iff.2 hobject, rfl⟩
  refine ⟨objects, hrenamed, hkeys, Table.eq_of_ascending ?_ ?_ ?_, fun object hobject =>
    Nat.lt_of_le_of_lt (hrows object hobject).2 hsize⟩
  · exact shelf.rows.ascending.filter _
  · have hascending : (objects.map Object.key).Pairwise fun a b => compare a b = .lt := by
      rw [hkeys]
      exact List.pairwise_map.2 (store.table kind).ascending
    refine List.pairwise_map.2
      ((List.pairwise_map.1 hascending).imp_of_mem fun _ hobject' hlt => ?_)
    obtain ⟨object, hobject⟩ := (hlisted _).1 (List.mem_map_of_mem hobject')
    exact Key.row_lt_row kind (h.plain hobject) hlt
  · rintro ⟨place, row⟩
    rw [Shelf.rowsOf, List.mem_filter, Table.mem_entries_iff, List.mem_map, beq_iff_eq]
    constructor
    · rintro ⟨hrow, hkind⟩
      obtain ⟨other, key, stored, rfl, hstored⟩ := h.exists_of_row hrow
      obtain rfl : other = kind := Kind.label_inj hkind
      obtain ⟨object, hobject, rfl⟩ := List.mem_map.1 ((hlisted key).2 ⟨stored, hstored⟩)
      have hsame : object.toRow = row :=
        Option.some.inj ((hrows object hobject).1.symm.trans hrow)
      exact ⟨object, hobject, by rw [hsame]⟩
    · rintro ⟨object, hobject, hplace⟩
      cases hplace
      exact ⟨(hrows object hobject).1, rfl⟩

end Matches

end AccessBroker
