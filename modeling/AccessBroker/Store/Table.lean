/-!
# Tables

A table holds at most one value per key, in the order of the keys. Both the store
in memory and the tables of the database are made of such tables, so every listing
comes out in key order without being sorted.

What a table holds is known by its look-ups: `find?_insert`, `find?_erase` and
`find?_retain` say what the three operations do to them, and `mem_entries_iff`
that the entries are exactly what look-ups find.
-/

namespace AccessBroker

open Std

/-- A finite map from keys to values. -/
structure Table (κ α : Type) [Ord κ] where
  /-- The keys and values, in the order of the keys. -/
  entries : List (κ × α)
  ascending : entries.Pairwise fun a b => compare a.1 b.1 = .lt

namespace Table

section Basic

variable {κ α : Type} [Ord κ]

instance [DecidableEq κ] [DecidableEq α] : DecidableEq (Table κ α) := fun a b =>
  decidable_of_iff (a.entries = b.entries) <| by
    cases a; cases b; simp

instance [Repr κ] [Repr α] : Repr (Table κ α) :=
  ⟨fun table depth => reprPrec table.entries depth⟩

/-- The table without entries. -/
def empty : Table κ α :=
  ⟨[], List.Pairwise.nil⟩

instance : Inhabited (Table κ α) := ⟨empty⟩

instance : EmptyCollection (Table κ α) := ⟨empty⟩

/-- The values, in the order of their keys. -/
def values (table : Table κ α) : List α :=
  table.entries.map Prod.snd

/-- The keys, in order. -/
def keys (table : Table κ α) : List κ :=
  table.entries.map Prod.fst

/-- The value of a key in a list of entries. -/
def lookUp (key : κ) : List (κ × α) → Option α
  | [] => none
  | (other, value) :: rest =>
    if compare key other = .eq then some value else lookUp key rest

/-- The value of a key. -/
def find? (table : Table κ α) (key : κ) : Option α :=
  lookUp key table.entries

@[simp]
theorem find?_empty (key : κ) : (empty : Table κ α).find? key = none :=
  rfl

/-- Has the table a value for a key? -/
def contains (table : Table κ α) (key : κ) : Bool :=
  (table.find? key).isSome

/-- The table with the entries that pass a test. -/
def retain (table : Table κ α) (keep : κ → α → Bool) : Table κ α :=
  ⟨table.entries.filter fun entry => keep entry.1 entry.2, table.ascending.filter _⟩

/-- The table without a key. -/
def erase (table : Table κ α) (key : κ) : Table κ α :=
  table.retain fun other _ => compare key other != .eq

/-- Puts an entry in its place among others. -/
def insertEntry (key : κ) (value : α) : List (κ × α) → List (κ × α)
  | [] => [(key, value)]
  | (other, old) :: rest =>
    match compare key other with
    | .lt => (key, value) :: (other, old) :: rest
    | .eq => (key, value) :: rest
    | .gt => (other, old) :: insertEntry key value rest

theorem mem_insertEntry {key : κ} {value : α} {entry : κ × α} {entries : List (κ × α)}
    (h : entry ∈ insertEntry key value entries) : entry = (key, value) ∨ entry ∈ entries := by
  induction entries with
  | nil => simpa [insertEntry] using h
  | cons first rest ih =>
    obtain ⟨other, old⟩ := first
    unfold insertEntry at h
    split at h
    · simpa using h
    · rcases List.mem_cons.1 h with h | h
      · exact Or.inl h
      · exact Or.inr (List.mem_cons_of_mem _ h)
    · rcases List.mem_cons.1 h with h | h
      · exact Or.inr (h ▸ List.mem_cons_self)
      · exact (ih h).imp_right (List.mem_cons_of_mem _)

end Basic

variable {κ α : Type} [Ord κ] [TransOrd κ]

theorem pairwise_insertEntry {key : κ} {value : α} {entries : List (κ × α)}
    (h : entries.Pairwise fun a b => compare a.1 b.1 = .lt) :
    (insertEntry key value entries).Pairwise fun a b => compare a.1 b.1 = .lt := by
  induction entries with
  | nil => simp [insertEntry]
  | cons first rest ih =>
    obtain ⟨other, old⟩ := first
    obtain ⟨hfirst, hrest⟩ := List.pairwise_cons.1 h
    unfold insertEntry
    split
    · next hlt =>
      refine List.pairwise_cons.2 ⟨fun entry hentry => ?_, h⟩
      rcases List.mem_cons.1 hentry with rfl | hentry
      · exact hlt
      · exact TransCmp.lt_trans hlt (hfirst entry hentry)
    · next heq =>
      refine List.pairwise_cons.2 ⟨fun entry hentry => ?_, hrest⟩
      exact TransCmp.lt_of_eq_of_lt heq (hfirst entry hentry)
    · next hgt =>
      refine List.pairwise_cons.2 ⟨fun entry hentry => ?_, ih hrest⟩
      rcases mem_insertEntry hentry with rfl | hentry
      · exact OrientedCmp.lt_of_gt hgt
      · exact hfirst entry hentry

/-- The table with a value for a key, in place of the one it had. -/
def insert (table : Table κ α) (key : κ) (value : α) : Table κ α :=
  ⟨insertEntry key value table.entries, pairwise_insertEntry table.ascending⟩

/-! ### Look-ups -/

variable [LawfulEqOrd κ]

omit [TransOrd κ] in
theorem lookUp_eq_some_iff {key : κ} {value : α} {entries : List (κ × α)}
    (h : entries.Pairwise fun a b => compare a.1 b.1 = .lt) :
    lookUp key entries = some value ↔ (key, value) ∈ entries := by
  induction entries with
  | nil => simp [lookUp]
  | cons first rest ih =>
    obtain ⟨other, old⟩ := first
    obtain ⟨hfirst, hrest⟩ := List.pairwise_cons.1 h
    unfold lookUp
    by_cases heq : compare key other = .eq
    · obtain rfl := LawfulEqOrd.eq_of_compare heq
      rw [if_pos heq]
      constructor
      · rintro h
        obtain rfl := Option.some.inj h
        exact List.mem_cons_self
      · intro h
        rcases List.mem_cons.1 h with h | h
        · rw [(Prod.mk.inj h).2]
        · have := hfirst _ h
          simp at this
    · rw [if_neg heq, ih hrest]
      refine ⟨List.mem_cons_of_mem _, fun h => ?_⟩
      rcases List.mem_cons.1 h with h | h
      · exact absurd (by simp [(Prod.mk.inj h).1]) heq
      · exact h

omit [TransOrd κ] in
/-- **The entries of a table are what look-ups find.** -/
theorem mem_entries_iff {table : Table κ α} {key : κ} {value : α} :
    (key, value) ∈ table.entries ↔ table.find? key = some value :=
  (lookUp_eq_some_iff table.ascending).symm

omit [TransOrd κ] in
theorem find?_retain (table : Table κ α) (keep : κ → α → Bool) (key : κ) :
    (table.retain keep).find? key = (table.find? key).filter (keep key) := by
  apply Option.ext
  intro value
  simp only [Option.filter_eq_some_iff, ← mem_entries_iff, retain, List.mem_filter]

omit [TransOrd κ] in
theorem find?_erase [DecidableEq κ] (table : Table κ α) (erased key : κ) :
    (table.erase erased).find? key = if key = erased then none else table.find? key := by
  rw [erase, find?_retain]
  by_cases h : key = erased
  · subst h
    simp
  · have : compare erased key ≠ .eq := fun heq => h (LawfulEqOrd.eq_of_compare heq).symm
    cases htable : table.find? key <;> simp [h, this, Option.filter]

theorem find?_insert [DecidableEq κ] (table : Table κ α) (inserted : κ) (value : α) (key : κ) :
    (table.insert inserted value).find? key =
      if key = inserted then some value else table.find? key := by
  have general : ∀ entries : List (κ × α), lookUp key (insertEntry inserted value entries) =
      if key = inserted then some value else lookUp key entries := by
    intro entries
    induction entries with
    | nil =>
      simp only [insertEntry, lookUp]
      by_cases h : key = inserted
      · simp [h]
      · have : compare key inserted ≠ .eq := fun heq => h (LawfulEqOrd.eq_of_compare heq)
        simp [h, this]
    | cons first rest ih =>
      obtain ⟨other, old⟩ := first
      by_cases h : key = inserted
      · subst h
        unfold insertEntry
        split
        · simp [lookUp]
        · simp [lookUp]
        · next hgt => simpa [lookUp, hgt] using ih
      · have hne : compare key inserted ≠ .eq := fun heq => h (LawfulEqOrd.eq_of_compare heq)
        unfold insertEntry
        split
        · simp [lookUp, h, hne]
        · next heq =>
          obtain rfl := LawfulEqOrd.eq_of_compare heq
          simp [lookUp, h, hne]
        · simp only [lookUp, ih, h, if_false]
  exact general table.entries

end Table

end AccessBroker
