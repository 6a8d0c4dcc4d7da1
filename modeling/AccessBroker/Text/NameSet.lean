/-!
# Sets of names

A set of names is its strictly ascending list, by code point. Two sets with the
same members are therefore equal, and the members come out in order without
having to be sorted. Groups of a requester and the voters of a request are such
sets.
-/

namespace AccessBroker.Text

/-- Adds a name to a list of names at the first place where it does not come
after the next one; a name that is already there is not added again. -/
def insertName (name : String) : List String → List String
  | [] => [name]
  | other :: rest =>
    if name < other then name :: other :: rest
    else if name = other then other :: rest
    else other :: insertName name rest

theorem mem_insertName {name x : String} {names : List String} :
    x ∈ insertName name names ↔ x = name ∨ x ∈ names := by
  induction names with
  | nil => simp [insertName]
  | cons other rest ih =>
    unfold insertName
    split
    · simp
    · split
      · next h => subst h; simp
      · simp only [List.mem_cons, ih]
        constructor
        · rintro (h | h | h) <;> simp [h]
        · rintro (h | h | h) <;> simp [h]

theorem pairwise_insertName {name : String} {names : List String}
    (h : names.Pairwise (· < ·)) : (insertName name names).Pairwise (· < ·) := by
  induction names with
  | nil => simp [insertName]
  | cons other rest ih =>
    obtain ⟨hother, hrest⟩ := List.pairwise_cons.1 h
    unfold insertName
    split
    · next hlt =>
      refine List.pairwise_cons.2 ⟨fun x hx => ?_, h⟩
      rcases List.mem_cons.1 hx with rfl | hx
      · exact hlt
      · exact String.lt_trans hlt (hother x hx)
    · split
      · exact h
      · next hnlt hne =>
        refine List.pairwise_cons.2 ⟨fun x hx => ?_, ih hrest⟩
        rcases mem_insertName.1 hx with rfl | hx
        · have hle : other ≤ x := String.not_lt.1 hnlt
          by_cases hlt : other < x
          · exact hlt
          · exact absurd (String.le_antisymm (String.not_lt.1 hlt) hle) hne
        · exact hother x hx

/-- A finite set of names. -/
structure NameSet where
  /-- The members, ascending. -/
  toList : List String
  ascending : toList.Pairwise (· < ·)
  deriving DecidableEq

namespace NameSet

instance : Repr NameSet := ⟨fun names depth => reprPrec names.toList depth⟩

/-- The set without members. -/
def empty : NameSet :=
  ⟨[], List.Pairwise.nil⟩

instance : Inhabited NameSet := ⟨empty⟩

instance : EmptyCollection NameSet := ⟨empty⟩

/-- The set with one more member. -/
def insert (name : String) (names : NameSet) : NameSet :=
  ⟨insertName name names.toList, pairwise_insertName names.ascending⟩

/-- The set of the names in a list. -/
def ofList (names : List String) : NameSet :=
  names.foldl (fun set name => set.insert name) empty

instance : Membership String NameSet := ⟨fun names name => name ∈ names.toList⟩

instance (name : String) (names : NameSet) : Decidable (name ∈ names) :=
  inferInstanceAs (Decidable (name ∈ names.toList))

/-- The number of members. -/
def size (names : NameSet) : Nat :=
  names.toList.length

/-- Has the set no member? -/
def isEmpty (names : NameSet) : Bool :=
  names.toList.isEmpty

@[simp]
theorem mem_insert {name x : String} {names : NameSet} :
    x ∈ names.insert name ↔ x = name ∨ x ∈ names :=
  mem_insertName

/-- **The members of the set of a list are the names in the list.** -/
theorem mem_ofList {x : String} {names : List String} : x ∈ ofList names ↔ x ∈ names := by
  have general : ∀ set : NameSet,
      x ∈ names.foldl (fun set name => set.insert name) set ↔ x ∈ set ∨ x ∈ names := by
    induction names with
    | nil => simp
    | cons name rest ih =>
      intro set
      simp only [List.foldl_cons, ih, mem_insert, List.mem_cons]
      constructor
      · rintro ((h | h) | h) <;> simp [h]
      · rintro (h | h | h) <;> simp [h]
  refine (general empty).trans ⟨fun h => ?_, Or.inr⟩
  rcases h with h | h
  · exact absurd (show x ∈ ([] : List String) from h) List.not_mem_nil
  · exact h

theorem nodup_toList (names : NameSet) : names.toList.Nodup :=
  names.ascending.imp fun {a b} (hlt : a < b) (heq : a = b) => String.lt_irrefl b (heq ▸ hlt)

/-- **A set is known by its members.** -/
theorem ext {names others : NameSet} (h : ∀ name, name ∈ names ↔ name ∈ others) :
    names = others := by
  have hperm := (List.perm_ext_iff_of_nodup names.nodup_toList others.nodup_toList).2 h
  have hlist : names.toList = others.toList :=
    hperm.eq_of_pairwise (fun name _ _ _ hlt hgt => absurd (String.lt_trans hlt hgt)
      (String.lt_irrefl name)) names.ascending others.ascending
  cases names
  cases others
  cases hlist
  rfl

end NameSet

end AccessBroker.Text
