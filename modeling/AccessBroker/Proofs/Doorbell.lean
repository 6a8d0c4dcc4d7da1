import AccessBroker.WorkQueue.Doorbell

/-!
# Who is at the doorbell

A name is down at the doorbell from when somebody puts it down until it is taken off, or until that
waiter notices a ring. All that time the waiter either waits or was woken, never both, and waits in
one place of the line only (`AccessBroker.Doorbell.Orderly`).

A ring, alone or for all, takes waiters out of the line and wakes them, and disturbs nobody else
(`AccessBroker.Doorbell.Rung`). Leaving is taking the name off, and ringing once more if a single
ring would be lost otherwise (`AccessBroker.Doorbell.leave_eq`).
-/

namespace AccessBroker

namespace Doorbell

variable {bell : Doorbell} {waiter other : Nat} {how : Ring} {present : Nat → Prop}

theorem isWoken_iff : bell.isWoken waiter = true ↔ ∃ how, (waiter, how) ∈ bell.woken := by
  rw [isWoken, List.any_eq_true]
  constructor
  · rintro ⟨⟨other, how⟩, hwoken, hother⟩
    exact ⟨how, beq_iff_eq.1 hother ▸ hwoken⟩
  · rintro ⟨how, hwoken⟩
    exact ⟨_, hwoken, BEq.rfl⟩

/-! ### Taking a name off -/

/-- The bell without a name. -/
def strike (bell : Doorbell) (waiter : Nat) : Doorbell :=
  { bell with
    waiting := bell.waiting.filter (· != waiter)
    woken := bell.woken.filter fun woken => woken.1 != waiter }

theorem mem_waiting_strike :
    other ∈ (bell.strike waiter).waiting ↔ other ∈ bell.waiting ∧ other ≠ waiter := by
  rw [strike, List.mem_filter, bne_iff_ne]

theorem mem_woken_strike :
    (other, how) ∈ (bell.strike waiter).woken ↔ (other, how) ∈ bell.woken ∧ other ≠ waiter := by
  rw [strike, List.mem_filter, bne_iff_ne]

/-- A single ring that was not noticed goes on. -/
theorem leave_eq (bell : Doorbell) (waiter : Nat) : bell.leave waiter =
    if bell.woken.contains (waiter, .one) then (bell.strike waiter).ring
    else bell.strike waiter := rfl

/-- Who does not wait any more only has to notice the ring. -/
theorem notice_eq_strike (hwaiter : waiter ∉ bell.waiting) :
    bell.notice waiter = bell.strike waiter := by
  have hwaiting : bell.waiting.filter (· != waiter) = bell.waiting :=
    List.filter_eq_self.2 fun other hother =>
      bne_iff_ne.2 fun hsame => hwaiter (hsame ▸ hother)
  rw [notice, strike, hwaiting]

/-! ### Names that are down -/

/-- Everybody whose name is down waits or was woken, and waits once. -/
structure Orderly (bell : Doorbell) (present : Nat → Prop) : Prop where
  once : bell.waiting.Nodup
  apart {waiter : Nat} {how : Ring} : (waiter, how) ∈ bell.woken → waiter ∉ bell.waiting
  down (waiter : Nat) :
    present waiter ↔ waiter ∈ bell.waiting ∨ ∃ how, (waiter, how) ∈ bell.woken

theorem orderly_empty : ({} : Doorbell).Orderly fun _ => False where
  once := .nil
  apart := nofun
  down _ := ⟨nofun, by rintro (hwaiting | ⟨how, hwoken⟩) <;> contradiction⟩

theorem Orderly.congr {after : Nat → Prop} (h : bell.Orderly present)
    (hafter : ∀ waiter, after waiter ↔ present waiter) : bell.Orderly after :=
  ⟨h.once, h.apart, fun waiter => (hafter waiter).trans (h.down waiter)⟩

/-- Who waits was not woken. -/
theorem Orderly.not_isWoken (h : bell.Orderly present) (hwaiting : waiter ∈ bell.waiting) :
    bell.isWoken waiter = false := by
  rw [Bool.eq_false_iff, ne_eq, isWoken_iff]
  exact fun ⟨_, hwoken⟩ => h.apart hwoken hwaiting

/-- Who is at the bell and was not woken waits. -/
theorem Orderly.waits (h : bell.Orderly present) (hpresent : present waiter)
    (hasleep : bell.isWoken waiter = false) : waiter ∈ bell.waiting := by
  refine ((h.down waiter).1 hpresent).resolve_right fun hwoken => ?_
  rw [isWoken_iff.2 hwoken] at hasleep
  contradiction

/-! ### Putting a name down -/

theorem mem_woken_enrol (hwoken : (other, how) ∈ bell.woken) :
    (other, how) ∈ (bell.enrol waiter).woken := by
  unfold Doorbell.enrol
  split
  · exact List.mem_append_left _ hwoken
  · exact hwoken

/-- Only the newcomer is woken, by the ring that was kept. -/
theorem mem_woken_of_enrol (hwoken : (other, how) ∈ (bell.enrol waiter).woken) :
    (other, how) ∈ bell.woken ∨ other = waiter ∧ how = .kept := by
  unfold Doorbell.enrol at hwoken
  split at hwoken
  · refine (List.mem_append.1 hwoken).imp_right fun hlast => ?_
    cases List.mem_singleton.1 hlast
    exact ⟨rfl, rfl⟩
  · exact .inl hwoken

/-- Only the newcomer gets into line. -/
theorem mem_waiting_of_enrol (hne : other ≠ waiter)
    (hwaiting : other ∈ (bell.enrol waiter).waiting) : other ∈ bell.waiting := by
  unfold Doorbell.enrol at hwaiting
  split at hwaiting
  · exact hwaiting
  · exact (List.mem_append.1 hwaiting).resolve_right fun hlast =>
      hne (List.mem_singleton.1 hlast)

/-- **A newcomer** waits, or is woken at once by the ring that was kept. -/
theorem Orderly.enrol (h : bell.Orderly present) (hnew : ¬present waiter) :
    (bell.enrol waiter).Orderly fun other => other = waiter ∨ present other := by
  obtain ⟨hwaiting, hwoken⟩ := not_or.1 (mt (h.down waiter).2 hnew)
  unfold Doorbell.enrol
  split
  · refine ⟨h.once, fun {other how} hother => ?_, fun other => ?_⟩
    · rcases List.mem_append.1 hother with hbefore | hlast
      · exact h.apart hbefore
      · cases List.mem_singleton.1 hlast
        exact hwaiting
    · rw [h.down other]
      constructor
      · rintro (rfl | hother | ⟨how, hother⟩)
        · exact .inr ⟨.kept, List.mem_append_right _ List.mem_cons_self⟩
        · exact .inl hother
        · exact .inr ⟨how, List.mem_append_left _ hother⟩
      · rintro (hother | ⟨how, hother⟩)
        · exact .inr (.inl hother)
        · rcases List.mem_append.1 hother with hbefore | hlast
          · exact .inr (.inr ⟨how, hbefore⟩)
          · cases List.mem_singleton.1 hlast
            exact .inl rfl
  · refine ⟨List.nodup_append.2 ⟨h.once, List.nodup_cons.2 ⟨List.not_mem_nil, .nil⟩, ?_⟩,
      fun {other how} hother hlast => ?_, fun other => ?_⟩
    · rintro first hfirst last hlast rfl
      exact hwaiting (List.mem_singleton.1 hlast ▸ hfirst)
    · rcases List.mem_append.1 hlast with hbefore | hlast
      · exact h.apart hother hbefore
      · cases List.mem_singleton.1 hlast
        exact hwoken ⟨how, hother⟩
    · rw [h.down other, List.mem_append, List.mem_singleton, or_assoc]
      exact or_left_comm

/-- **Nobody else** is concerned when a name is taken off. -/
theorem Orderly.strike (h : bell.Orderly present) (waiter : Nat) :
    (bell.strike waiter).Orderly fun other => present other ∧ other ≠ waiter where
  once := h.once.filter _
  apart hwoken hwaiting :=
    h.apart (mem_woken_strike.1 hwoken).1 (mem_waiting_strike.1 hwaiting).1
  down other := by
    simp only [mem_waiting_strike, mem_woken_strike, exists_and_right, h.down other, or_and_right]

/-! ### Rings -/

/-- Some of those who waited were woken, and nothing else has changed for those whose names are
down. -/
structure Rung (bell after : Doorbell) : Prop where
  waiting : after.waiting.Sublist bell.waiting
  still {waiter : Nat} {how : Ring} : (waiter, how) ∈ bell.woken → (waiter, how) ∈ after.woken
  fresh {waiter : Nat} {how : Ring} : (waiter, how) ∈ after.woken →
    (waiter, how) ∈ bell.woken ∨ waiter ∈ bell.waiting ∧ waiter ∉ after.waiting ∧ how ≠ .kept
  woken {waiter : Nat} : waiter ∈ bell.waiting → waiter ∉ after.waiting →
    ∃ how, (waiter, how) ∈ after.woken

/-- After a ring everybody is at the bell as before. -/
theorem Rung.orderly {after : Doorbell} (h : Rung bell after) (hbell : bell.Orderly present) :
    after.Orderly present where
  once := h.waiting.nodup hbell.once
  apart hwoken hwaiting := by
    rcases h.fresh hwoken with hbefore | ⟨-, hgone, -⟩
    · exact hbell.apart hbefore (h.waiting.subset hwaiting)
    · exact hgone hwaiting
  down waiter := by
    rw [hbell.down waiter]
    constructor
    · rintro (hwaiting | ⟨how, hwoken⟩)
      · by_cases hafter : waiter ∈ after.waiting
        · exact .inl hafter
        · exact .inr (h.woken hwaiting hafter)
      · exact .inr ⟨how, h.still hwoken⟩
    · rintro (hwaiting | ⟨how, hwoken⟩)
      · exact .inl (h.waiting.subset hwaiting)
      · rcases h.fresh hwoken with hbefore | ⟨hbefore, -, -⟩
        · exact .inr ⟨how, hbefore⟩
        · exact .inl hbefore

/-- **One ring** wakes the first in line. -/
theorem rung_ring (h : bell.waiting.Nodup) : Rung bell bell.ring := by
  unfold ring
  split
  · next hnobody =>
    exact ⟨.refl _, id, .inl, fun hwaiting hgone => absurd hwaiting hgone⟩
  · next first rest hline =>
    rw [hline, List.nodup_cons] at h
    refine ⟨hline ▸ List.sublist_cons_self first rest, List.mem_append_left _,
      fun {waiter how} hwoken => ?_, fun {waiter} hwaiting hgone => ?_⟩
    · rcases List.mem_append.1 hwoken with hbefore | hlast
      · exact .inl hbefore
      · cases List.mem_singleton.1 hlast
        exact .inr ⟨hline ▸ List.mem_cons_self, h.1, nofun⟩
    · rw [hline, List.mem_cons] at hwaiting
      obtain rfl := hwaiting.resolve_right hgone
      exact ⟨.one, List.mem_append_right _ List.mem_cons_self⟩

/-- One ring is not a ring for all. -/
theorem mem_woken_of_ring (h : (waiter, .all) ∈ bell.ring.woken) : (waiter, .all) ∈ bell.woken := by
  unfold ring at h
  split at h
  · exact h
  · exact (List.mem_append.1 h).resolve_right fun hlast => by cases List.mem_singleton.1 hlast

/-- **One ring is kept, or wakes somebody** who had not been woken. -/
theorem kept_or_woken_ring (h : bell.Orderly present) : bell.ring.kept = true ∨
    ∃ waiter, bell.ring.isWoken waiter = true ∧ bell.isWoken waiter = false := by
  unfold ring
  split
  · exact .inl rfl
  · next first rest hline =>
    refine .inr ⟨first, isWoken_iff.2 ⟨.one, List.mem_append_right _ List.mem_cons_self⟩, ?_⟩
    exact h.not_isWoken (hline ▸ List.mem_cons_self)

/-- **The ring for all** wakes everybody. -/
theorem rung_ringAll (bell : Doorbell) : Rung bell bell.ringAll where
  waiting := List.nil_sublist _
  still := List.mem_append_left _
  fresh {waiter how} hwoken := by
    rcases List.mem_append.1 hwoken with hbefore | hnew
    · exact .inl hbefore
    · obtain ⟨other, hother, hsame⟩ := List.mem_map.1 hnew
      cases hsame
      exact .inr ⟨hother, List.not_mem_nil, nofun⟩
  woken {waiter} hwaiting _ :=
    ⟨.all, List.mem_append_right _ (List.mem_map.2 ⟨waiter, hwaiting, rfl⟩)⟩

end Doorbell

end AccessBroker
