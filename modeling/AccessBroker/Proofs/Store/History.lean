import AccessBroker.Proofs.Store.Feed
import AccessBroker.Proofs.Store.Turns

/-!
# The history behind a feed

The feed of a store may have been cut, so it is a stretch of all the changes that were ever made:
what is left of the history after the earliest of them were dropped
(`AccessBroker.MemoryStore.Kept`). A call adds to the history what it tells, and to the feed the
same; the cutting of the feed leaves the history as it is.
-/

namespace AccessBroker

namespace MemoryStore

open AccessBroker.Time

variable {store : MemoryStore}

/-- The changes that a store has in its feed beyond all that it ever had before. -/
def newsSince (store after : MemoryStore) : List Change :=
  after.changes.filter fun change => store.lastSequence < change.sequence

/-- The feed is what is left of all changes that were ever made, after as many as `cut` of them were
dropped. -/
structure Kept (store : MemoryStore) (history : List Change) (cut : Nat) : Prop where
  keyed : store.Keyed
  numbered : Change.Numbered 0 history
  length : history.length = store.lastSequence
  cut_le : cut ≤ history.length
  changes : store.changes = history.drop cut

namespace Kept

variable {history : List Change} {cut : Nat}

/-- Nothing in the history is later than the last change. -/
theorem le_last (h : Kept store history cut) {change : Change} (hchange : change ∈ history) :
    change.sequence ≤ store.lastSequence := by
  have hbounds := h.numbered.bounds hchange
  have hlength := h.length
  omega

theorem no_news (h : Kept store history cut) (count : Nat) :
    ((history.drop count).filter fun change => store.lastSequence < change.sequence) = [] := by
  refine List.filter_eq_nil_iff.2 fun change hchange => ?_
  have hold := h.le_last (List.mem_of_mem_drop hchange)
  simpa using hold

/-- **A call that does not cut the feed** adds to the history what it tells. -/
theorem perform (h : Kept store history cut) (now : Instant) (uid : String) {call : StoreCall}
    (hcall : ∀ through, call ≠ .compact through) :
    Tells store (store.perform now uid call).2 (store.newsSince (store.perform now uid call).2) ∧
      Kept (store.perform now uid call).2
        (history ++ store.newsSince (store.perform now uid call).2) cut := by
  obtain ⟨news, htells⟩ := tells_perform h.keyed now uid hcall
  have hnews : (news.filter fun change => store.lastSequence < change.sequence) = news := by
    refine List.filter_eq_self.2 fun change hchange => ?_
    have hbounds := htells.numbered.bounds hchange
    simpa using hbounds.1
  have hsince : store.newsSince (store.perform now uid call).2 = news := by
    rw [newsSince, htells.changes, List.filter_append, h.changes, h.no_news, hnews, List.nil_append]
  have hcut := h.cut_le
  rw [hsince]
  refine ⟨htells, (performed_perform now uid store call).keyed h.keyed, ?_, ?_, ?_, ?_⟩
  · rw [Change.numbered_append, Nat.zero_add, h.length]
    exact ⟨h.numbered, htells.numbered⟩
  · rw [List.length_append, h.length]
    exact htells.last.symm
  · rw [List.length_append]
    omega
  · rw [List.drop_append_of_le_length hcut, ← h.changes]
    exact htells.changes

/-- What is left of the feed beyond a position. -/
theorem dropWhile (h : Kept store history cut) (through : Nat) :
    store.changes.dropWhile (fun change => change.sequence ≤ through) =
      history.drop (max cut through) := by
  have hnumbered := h.numbered.drop cut h.cut_le
  rw [Nat.zero_add] at hnumbered
  rw [h.changes, hnumbered.dropWhile, List.drop_drop]
  congr 1
  omega

/-- **Cutting the feed** leaves the history, and in the feed what follows the position. -/
theorem compact (h : Kept store history cut) (through : Nat) :
    store.newsSince (store.compact through).2 = [] ∧
      Kept (store.compact through).2 history (max cut (min through history.length)) := by
  have hleft : (store.compact through).2.changes = history.drop (max cut through) :=
    h.dropWhile through
  have hcut := h.cut_le
  refine ⟨?_, (performed_perform .epoch "" store (.compact through)).keyed h.keyed, h.numbered,
    h.length, by omega, ?_⟩
  · rw [newsSince, hleft]
    exact h.no_news _
  · rw [hleft]
    by_cases hthrough : through ≤ history.length
    · rw [Nat.min_eq_left hthrough]
    · rw [Nat.min_eq_right (by omega), Nat.max_eq_right hcut, List.drop_length,
        List.drop_eq_nil_of_le (by omega)]

/-- What is left in the feed follows the cut, and what was dropped does not. -/
theorem mem_changes_iff (h : Kept store history cut) {change : Change} :
    change ∈ store.changes ↔ change ∈ history ∧ cut < change.sequence := by
  rw [h.changes, ← h.numbered.later_eq, Change.later, List.mem_filter, decide_eq_true_eq]

/-- **A position at which nothing was dropped** is not before the cut. -/
theorem cut_le_of_dropped (h : Kept store history cut) {cursor : Nat}
    (hdropped : ∀ change ∈ history, change ∉ store.changes → change.sequence ≤ cursor) :
    cut ≤ cursor := by
  refine Nat.le_of_not_lt fun hbefore => ?_
  have hlength := h.cut_le
  -- The change that was dropped last has the number of the cut.
  have hnumber : (history.map Change.sequence)[cut - 1]? = some cut := by
    rw [h.numbered, List.getElem?_range' (by omega)]
    congr 1
    omega
  obtain ⟨change, hchange, hsequence⟩ := List.mem_map.1 (List.mem_of_getElem? hnumber)
  have hseen := hdropped change hchange fun hkept =>
    absurd (h.mem_changes_iff.1 hkept).2 (by omega)
  omega

/-- **A page that is read** is the beginning of what follows its position, and the next one begins
where it ends. -/
theorem page (h : Kept store history cut) {cursor : Nat} (hcut : cut ≤ cursor) (limit : Nat) :
    (store.changesSince cursor limit).changes = (Change.later cursor history).take limit ∧
      cursor ≤ (store.changesSince cursor limit).nextCursor ∧
      (store.changesSince cursor limit).nextCursor ≤ max cursor history.length ∧
      Change.later (store.changesSince cursor limit).nextCursor history =
        (Change.later cursor history).drop limit := by
  have hpage : store.changesSince cursor limit =
      .following cursor ((history.drop cursor).take limit) := by
    rw [changesSince, h.dropWhile, Nat.max_eq_right hcut]
  rw [hpage]
  refine ⟨?_, h.numbered.later_nextCursor cursor limit⟩
  rw [h.numbered.later_eq]
  rfl

end Kept

end MemoryStore

end AccessBroker
