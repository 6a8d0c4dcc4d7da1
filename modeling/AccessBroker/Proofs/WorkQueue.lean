import AccessBroker.Controller.Worker

/-!
# What the work queue keeps

An open queue loses nothing that was added: it is dirty until it is handed out, and whatever is
dirty either waits in the queue or is with a worker, so that it comes back when that worker is done
(`AccessBroker.WorkQueue.Tidy`). And no target is with two workers at once.

Settling a pass decides when its target comes back. After a failure that is no later than the
greatest delay, and after a pass that asked for another one right after the end of access it is no
later than that (`AccessBroker.WorkQueue.settle_failed`, `AccessBroker.WorkQueue.settle_requeued`).
-/

namespace AccessBroker

open AccessBroker.Time

namespace WorkQueue

section Targets

variable {κ : Type} {queue after : WorkQueue κ} {key other : κ} {more : Bool}

/-- The targets that wait are those that are dirty and that no worker has. None waits twice, and
none is with two workers. -/
structure Tidy (queue : WorkQueue κ) : Prop where
  queued : queue.queue.Nodup
  handed : queue.processing.Nodup
  waiting (key : κ) : key ∈ queue.queue ↔ key ∈ queue.dirty ∧ key ∉ queue.processing

theorem tidy_empty : ({} : WorkQueue κ).Tidy where
  queued := .nil
  handed := .nil
  waiting key := by
    change key ∈ [] ↔ key ∈ [] ∧ key ∉ []
    simp

theorem nodup_concat {keys : List κ} (h : keys.Nodup) (hkey : key ∉ keys) :
    (keys ++ [key]).Nodup := by
  refine List.nodup_append.2 ⟨h, List.nodup_cons.2 ⟨List.not_mem_nil, .nil⟩, ?_⟩
  rintro other hother _ hlast rfl
  exact hkey (List.mem_singleton.1 hlast ▸ hother)

variable [DecidableEq κ]

/-- **What is dirty is not lost.** -/
theorem Tidy.held (h : queue.Tidy) (hdirty : key ∈ queue.dirty) :
    key ∈ queue.queue ∨ key ∈ queue.processing := by
  by_cases hprocessing : key ∈ queue.processing
  · exact .inr hprocessing
  · exact .inl ((h.waiting key).2 ⟨hdirty, hprocessing⟩)

/-! ### Adding a target -/

@[simp]
theorem closed_add (queue : WorkQueue κ) (key : κ) : (queue.add key).2.closed = queue.closed := by
  unfold add
  split
  · rfl
  · dsimp only
    split <;> rfl

@[simp]
theorem processing_add (queue : WorkQueue κ) (key : κ) :
    (queue.add key).2.processing = queue.processing := by
  unfold add
  split
  · rfl
  · dsimp only
    split <;> rfl

/-- What was dirty still is. -/
theorem mem_dirty_add (key : κ) (h : other ∈ queue.dirty) : other ∈ (queue.add key).2.dirty := by
  unfold add
  split
  · exact h
  · dsimp only
    split <;> exact List.mem_cons_of_mem _ h

/-- **What is added is dirty.** -/
theorem mem_dirty_add_self (hopen : queue.closed = false) (key : κ) :
    key ∈ (queue.add key).2.dirty := by
  unfold add
  split
  · next hdirty =>
    rw [hopen, Bool.false_or, List.contains_iff_mem] at hdirty
    exact hdirty
  · dsimp only
    split <;> exact List.mem_cons_self

theorem Tidy.add (h : queue.Tidy) (key : κ) : (queue.add key).2.Tidy := by
  unfold WorkQueue.add
  split
  · exact h
  · next hnew =>
    have hclean : key ∉ queue.dirty := by
      simp only [Bool.or_eq_true, List.contains_iff_mem, not_or] at hnew
      exact hnew.2
    have hidle : key ∉ queue.queue := fun hqueued => hclean ((h.waiting key).1 hqueued).1
    dsimp only
    split
    · next hbusy =>
      rw [List.contains_iff_mem] at hbusy
      refine ⟨h.queued, h.handed, fun other => ?_⟩
      rw [h.waiting other, List.mem_cons]
      refine ⟨fun ⟨hdirty, hfree⟩ => ⟨.inr hdirty, hfree⟩, ?_⟩
      rintro ⟨rfl | hdirty, hfree⟩
      · exact absurd hbusy hfree
      · exact ⟨hdirty, hfree⟩
    · next hfree =>
      rw [List.contains_iff_mem] at hfree
      refine ⟨nodup_concat h.queued hidle, h.handed, fun other => ?_⟩
      rw [List.mem_append, h.waiting other, List.mem_singleton, List.mem_cons]
      refine ⟨?_, ?_⟩
      · rintro (⟨hdirty, hother⟩ | rfl)
        · exact ⟨.inr hdirty, hother⟩
        · exact ⟨.inl rfl, hfree⟩
      · rintro ⟨rfl | hdirty, hother⟩
        · exact .inr rfl
        · exact .inl ⟨hdirty, hother⟩

/-! ### Handing a target out, and taking it back -/

theorem take_eq_target (h : queue.take = (.target key more, after)) :
    ∃ rest, queue.queue = key :: rest ∧ after =
      ⟨rest, queue.dirty.filter (· ≠ key), key :: queue.processing, queue.failures,
        queue.closed⟩ := by
  unfold take at h
  split at h
  · next next rest hqueue =>
    cases h
    exact ⟨rest, hqueue, rfl⟩
  · split at h <;> cases h

/-- **A target that is handed out** was with nobody. -/
theorem Tidy.take (h : queue.Tidy) (htake : queue.take = (.target key more, after)) :
    after.Tidy := by
  obtain ⟨rest, hqueue, rfl⟩ := take_eq_target htake
  have hqueued := h.queued
  rw [hqueue, List.nodup_cons] at hqueued
  have hfree : key ∉ queue.processing :=
    ((h.waiting key).1 (hqueue ▸ List.mem_cons_self)).2
  refine ⟨hqueued.2, List.nodup_cons.2 ⟨hfree, h.handed⟩, fun other => ?_⟩
  have hwaiting := h.waiting other
  simp only [hqueue, List.mem_cons] at hwaiting
  simp only [List.mem_filter, List.mem_cons, decide_eq_true_eq, not_or]
  refine ⟨fun hrest => ?_, fun ⟨⟨hdirty, hne⟩, _, hother⟩ => ?_⟩
  · have hne : other ≠ key := fun hother => hqueued.1 (hother ▸ hrest)
    obtain ⟨hdirty, hother⟩ := hwaiting.1 (.inr hrest)
    exact ⟨⟨hdirty, hne⟩, hne, hother⟩
  · exact (hwaiting.2 ⟨hdirty, hother⟩).resolve_left hne

/-- **What asking for a target gives**, and what it leaves. -/
theorem take_cases (queue : WorkQueue κ) :
    (∃ key rest, queue.queue = key :: rest ∧
      queue.take = (.target key (!rest.isEmpty), ⟨rest, queue.dirty.filter (· ≠ key),
        key :: queue.processing, queue.failures, queue.closed⟩)) ∨
    queue.queue = [] ∧ queue.closed = true ∧ queue.take = (.nothingMore, queue) ∨
    queue.queue = [] ∧ queue.closed = false ∧ queue.take = (.nothingYet, queue) := by
  unfold take
  split
  · next key rest hqueue => exact .inl ⟨key, rest, hqueue, rfl⟩
  · next hqueue =>
    cases hclosed : queue.closed with
    | true => exact .inr (.inl ⟨hqueue, rfl, rfl⟩)
    | false => exact .inr (.inr ⟨hqueue, rfl, rfl⟩)

@[simp]
theorem closed_done (queue : WorkQueue κ) (key : κ) : (queue.done key).2.closed = queue.closed := by
  unfold done
  dsimp only
  split <;> rfl

@[simp]
theorem dirty_done (queue : WorkQueue κ) (key : κ) : (queue.done key).2.dirty = queue.dirty := by
  unfold done
  dsimp only
  split <;> rfl

@[simp]
theorem processing_done (queue : WorkQueue κ) (key : κ) :
    (queue.done key).2.processing = queue.processing.filter (· ≠ key) := by
  unfold done
  dsimp only
  split <;> rfl

/-- **A target that is taken back** waits again if it has become dirty meanwhile. -/
theorem Tidy.done (h : queue.Tidy) (hkey : key ∈ queue.processing) : (queue.done key).2.Tidy := by
  have hidle : key ∉ queue.queue := fun hqueued => ((h.waiting key).1 hqueued).2 hkey
  have hhanded : (queue.processing.filter (· ≠ key)).Nodup := h.handed.filter _
  have hleft (other : κ) :
      other ∉ queue.processing.filter (· ≠ key) ↔ other ∉ queue.processing ∨ other = key := by
    by_cases hother : other = key <;> simp [hother]
  unfold WorkQueue.done
  dsimp only
  split
  · next hdirty =>
    rw [List.contains_iff_mem] at hdirty
    refine ⟨nodup_concat h.queued hidle, hhanded, fun other => ?_⟩
    rw [hleft, List.mem_append, h.waiting other, List.mem_singleton]
    refine ⟨?_, ?_⟩
    · rintro (⟨hother, hfree⟩ | rfl)
      · exact ⟨hother, .inl hfree⟩
      · exact ⟨hdirty, .inr rfl⟩
    · rintro ⟨hother, hfree | rfl⟩
      · exact .inl ⟨hother, hfree⟩
      · exact .inr rfl
  · next hclean =>
    rw [List.contains_iff_mem] at hclean
    refine ⟨h.queued, hhanded, fun other => ?_⟩
    rw [hleft, h.waiting other]
    refine ⟨fun ⟨hother, hfree⟩ => ⟨hother, .inl hfree⟩, ?_⟩
    rintro ⟨hother, hfree | rfl⟩
    · exact ⟨hother, hfree⟩
    · exact absurd hother hclean

end Targets

end WorkQueue

/-! ### Time that is left -/

namespace Time.Instant

/-- The fraction of a second that an instant which is no leap second has. -/
theorem sinceEpoch_of_plain {instant : Instant} (h : instant.isLeap = false) :
    instant.sinceEpoch = instant.second * 1000000000 + instant.nano := by
  have hnano : instant.nano < 1000000000 := by simpa [isLeap] using h
  rw [sinceEpoch, Nat.mod_eq_of_lt hnano]

/-- **A second or more later** no leap second is left, and no more time has passed. -/
theorem after_of_le (instant : Instant) {span : Nat} (hspan : nanosPerSecond ≤ span) :
    (instant.after span).isLeap = false ∧
      (instant.after span).sinceEpoch ≤ instant.sinceEpoch + span := by
  have hspan : 1000000000 ≤ span := hspan
  have hover : ¬(instant.isLeap = true ∧ instant.nano + span < 2000000000) := by
    rintro ⟨hleap, hwithin⟩
    have hleap : 1000000000 ≤ instant.nano := by simpa [isLeap] using hleap
    omega
  have hfirst := instant.first_le
  have hlower : instant.second * 1000000000 ≤ instant.sinceEpoch + span := by
    rw [sinceEpoch]
    omega
  rw [after, after?, if_neg hover, ofSinceEpoch?]
  generalize instant.sinceEpoch + span = nanos at hlower ⊢
  have hnano : (nanos % 1000000000).toNat < 1000000000 := by omega
  unfold ofParts?
  split
  · refine ⟨by simp [isLeap, hnano], ?_⟩
    change nanos / 1000000000 * 1000000000 +
      (((nanos % 1000000000).toNat % 1000000000 : Nat) : Int) ≤ nanos
    omega
  · next hbeyond =>
    -- The calendar ends before that.
    refine ⟨rfl, ?_⟩
    have hlast : lastSecond < nanos / 1000000000 := by
      refine Int.not_le.1 fun hlast => hbeyond ⟨⟨?_, hlast⟩, by omega, by omega⟩
      omega
    change lastSecond * 1000000000 + ((999999999 % 1000000000 : Nat) : Int) ≤ nanos
    omega

end Time.Instant

namespace WorkQueue

/-- **What is left of the time**, added to the present, comes to the time. -/
theorem sinceEpoch_add_timeLeft {now time : Instant} (hplain : time.isLeap = false)
    (hleft : timeLeft now time ≠ 0) : now.sinceEpoch + timeLeft now time = time.sinceEpoch := by
  have hlater : 0 < now.timeTo time := by
    rw [timeLeft] at hleft
    omega
  have hnano : time.nano < 1000000000 := by simpa [Instant.isLeap] using hplain
  have hnow := now.nano_lt
  rw [timeLeft, Int.toNat_of_nonneg (Int.le_of_lt hlater), Instant.sinceEpoch_of_plain hplain,
    Instant.sinceEpoch]
  unfold Instant.timeTo at hlater ⊢
  dsimp only at hlater ⊢
  simp only [Instant.isLeap, decide_eq_true_eq] at hlater ⊢
  -- A leap second lies in between, or the present is none.
  split <;> omega

section Settling

variable {queue : WorkQueue Target} {backoff : Backoff} {now finish : Instant} {target : Target}

/-- Settling a pass concerns the record of failures only. -/
theorem settle_eq (queue : WorkQueue Target) (backoff : Backoff) (now : Instant) (target : Target)
    (result : Except Failure Outcome) :
    ∃ failures, (queue.settle backoff now target result).2 = { queue with failures } := by
  match result with
  | .ok .done => exact ⟨_, rfl⟩
  | .ok (.requeueAt time) => exact ⟨_, rfl⟩
  | .error failure => exact ⟨_, rfl⟩

@[simp]
theorem dirty_settle (queue : WorkQueue Target) (backoff : Backoff) (now : Instant)
    (target : Target) (result : Except Failure Outcome) :
    (queue.settle backoff now target result).2.dirty = queue.dirty := by
  obtain ⟨failures, hqueue⟩ := queue.settle_eq backoff now target result
  rw [hqueue]

/-- An open queue puts a target off by the delay. -/
theorem postpone_of_open (queue : WorkQueue Target) (hopen : queue.closed = false) (delay : Nat) :
    queue.postpone delay = .now ∨ queue.postpone delay = .later delay ∧ delay ≠ 0 := by
  unfold postpone
  rw [hopen]
  split
  · exact .inl rfl
  · next hdelay => exact .inr ⟨rfl, hdelay⟩

/-- **After a failure** the target comes back within the greatest delay. -/
theorem settle_failed (hopen : queue.closed = false) (failure : Failure) :
    (queue.settle backoff now target (.error failure)).1 = .now ∨ ∃ delay,
      (queue.settle backoff now target (.error failure)).1 = .later delay ∧
        delay ≤ backoff.max := by
  rcases (queue.fail target).postpone_of_open hopen
    (backoff.delay ((queue.fail target).requeues target)) with hnow | ⟨hlater, -⟩
  · exact .inl hnow
  · exact .inr ⟨_, hlater, backoff.delay_le_max _⟩

/-- **After a pass that asked for another one at the end of access** the target comes back within a
second of it. -/
theorem settle_requeued (hopen : queue.closed = false) :
    (queue.settle backoff now target (.ok (.requeueAt (finish.after expiryBuffer)))).1 = .now ∨
      ∃ delay : Nat,
        (queue.settle backoff now target (.ok (.requeueAt (finish.after expiryBuffer)))).1 =
          .later delay ∧ now.sinceEpoch + delay ≤ finish.sinceEpoch + nanosPerSecond := by
  obtain ⟨hplain, hend⟩ := finish.after_of_le (Nat.le_refl nanosPerSecond)
  rcases (queue.forget target).postpone_of_open hopen
    (timeLeft now (finish.after expiryBuffer)) with hnow | ⟨hlater, hleft⟩
  · exact .inl hnow
  · exact .inr ⟨_, hlater, Int.le_trans (Int.le_of_eq (sinceEpoch_add_timeLeft hplain hleft)) hend⟩

end Settling

end WorkQueue

end AccessBroker
