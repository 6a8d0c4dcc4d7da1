import AccessBroker.Text.Blank
import Mathlib.Data.List.TakeWhile

/-!
# What trimming leaves

Trimming a text takes the blanks around it away and nothing else: what is left neither begins nor
ends with a blank, unless nothing is left, and there is only one such text
(`AccessBroker.Text.trimChars_eq_iff`).
-/

namespace AccessBroker.Text

variable {text before core after : List Char}

/-- A text is another one with blanks around it, which itself neither begins nor ends with one. -/
def Trims (text core : List Char) : Prop :=
  ∃ before after, text = before ++ core ++ after ∧ (∀ c ∈ before ++ after, isBlank c = true) ∧
    (∀ c, core.head? = some c → isBlank c = false) ∧
    ∀ c, core.getLast? = some c → isBlank c = false

/-- Leading blanks are dropped, and nothing else. -/
theorem dropBlanks_append (hblank : ∀ c ∈ before, isBlank c = true)
    (hcore : ∀ c, core.head? = some c → isBlank c = false) :
    dropBlanks (before ++ core) = core := by
  rw [dropBlanks, List.dropWhile_append_of_pos hblank]
  cases core with
  | nil => rfl
  | cons c core =>
    have hc : isBlank c = false := hcore c rfl
    simp [hc]

/-- What is left without the leading blanks begins with none. -/
theorem isBlank_head?_dropBlanks (text : List Char) {c : Char}
    (h : (dropBlanks text).head? = some c) : isBlank c = false := by
  have hfirst := List.head?_dropWhile_not isBlank text
  rw [dropBlanks] at h
  rw [h] at hfirst
  simpa using hfirst

/-- **Blanks around a text are dropped** if it neither begins nor ends with one. -/
theorem trimChars_of_blanks (hblank : ∀ c ∈ before ++ after, isBlank c = true)
    (hfirst : ∀ c, core.head? = some c → isBlank c = false)
    (hlast : ∀ c, core.getLast? = some c → isBlank c = false) :
    trimChars (before ++ core ++ after) = core := by
  have hbefore : ∀ c ∈ before, isBlank c = true := fun c hc =>
    hblank c (List.mem_append_left _ hc)
  have hafter : ∀ c ∈ after.reverse, isBlank c = true := fun c hc =>
    hblank c (List.mem_append_right _ (List.mem_reverse.1 hc))
  cases core with
  | nil =>
    have hall := List.dropWhile_eq_nil_iff.2 hblank
    rw [trimChars, List.append_nil, dropBlanks, dropBlanks, hall]
    rfl
  | cons first core =>
    have hfront : dropBlanks (before ++ (first :: core ++ after)) = first :: core ++ after :=
      dropBlanks_append hbefore fun c hc => hfirst c hc
    have hback : dropBlanks (after.reverse ++ (first :: core).reverse) = (first :: core).reverse :=
      dropBlanks_append hafter fun c hc => hlast c (List.head?_reverse ▸ hc)
    rw [trimChars, List.append_assoc, hfront, List.reverse_append, hback, List.reverse_reverse]

/-- **What is dropped around a text is blank.** -/
theorem exists_blanks (text : List Char) : ∃ before after,
    text = before ++ trimChars text ++ after ∧ ∀ c ∈ before ++ after, isBlank c = true := by
  have hparts (text : List Char) : text.takeWhile isBlank ++ dropBlanks text = text :=
    List.takeWhile_append_dropWhile
  refine ⟨text.takeWhile isBlank, ((dropBlanks text).reverse.takeWhile isBlank).reverse, ?_,
    fun c hc => ?_⟩
  · rw [trimChars, List.append_assoc, ← List.reverse_append, hparts, List.reverse_reverse, hparts]
  · rcases List.mem_append.1 hc with hc | hc
    · exact List.mem_takeWhile_imp hc
    · exact List.mem_takeWhile_imp (List.mem_reverse.1 hc)

/-- What trimming leaves is the front of what dropping the leading blanks leaves. -/
theorem trimChars_prefix (text : List Char) : trimChars text <+: dropBlanks text := by
  rw [← List.reverse_suffix, trimChars, List.reverse_reverse]
  exact List.dropWhile_suffix _

/-- **Trimming takes the blanks around a text away**, and nothing else. -/
theorem trimChars_eq_iff : trimChars text = core ↔ Trims text core := by
  constructor
  · rintro rfl
    obtain ⟨before, after, htext, hblank⟩ := exists_blanks text
    refine ⟨before, after, htext, hblank, fun c hc => ?_, fun c hc => ?_⟩
    · refine isBlank_head?_dropBlanks text ?_
      obtain ⟨rest, hrest⟩ := trimChars_prefix text
      rw [← hrest, List.head?_append, hc, Option.some_or]
    · rw [trimChars, List.getLast?_reverse] at hc
      exact isBlank_head?_dropBlanks _ hc
  · rintro ⟨before, after, rfl, hblank, hfirst, hlast⟩
    exact trimChars_of_blanks hblank hfirst hlast

end AccessBroker.Text
