import AccessBroker.Proofs.WorkQueue
import Mathlib.Algebra.Group.Nat.Defs
import Mathlib.Data.List.Induction

/-!
# When failed targets come back

A target that fails again and again comes back later and later. The queue counts the failures of
each target until they are forgotten, and the count stops at the greatest one that it can hold
(`AccessBroker.WorkQueue.requeues_after`). The delay doubles with each failure that is counted, in
arithmetic that cannot go wrong: the factor is a power of two that fits, and a product that cannot
be told is beyond every greatest delay (`AccessBroker.Backoff.delay_eq`).

What else happens to the queue has no part in this. A delay depends on the failures of the target
since they were last forgotten, whatever is called in between
(`AccessBroker.WorkQueue.nextDelay_after`).
-/

namespace AccessBroker

namespace Backoff

variable {backoff : Backoff}

/-- The factor is a power of two, which fits. -/
theorem toNat_factor (failures : Nat) :
    (factor failures).toNat = 2 ^ min (failures - 1) mostDoublings := by
  have hmost : min (failures - 1) mostDoublings < 32 :=
    Nat.lt_of_le_of_lt (Nat.min_le_right _ _) (by decide)
  have hshift : (UInt32.ofNat (min (failures - 1) mostDoublings)).toNat =
      min (failures - 1) mostDoublings :=
    UInt32.toNat_ofNat_of_lt (Nat.lt_trans hmost (by decide))
  rw [factor, UInt32.toNat_shiftLeft, hshift, Nat.mod_eq_of_lt hmost, UInt32.toNat_one,
    Nat.one_shiftLeft, Nat.mod_eq_of_lt (Nat.pow_lt_pow_right (by decide) hmost)]

/-- **The delay after some failures** is the exact product, up to the greatest one. -/
theorem delay_eq (h : backoff.max ≤ longest) (failures : Nat) :
    backoff.delay failures =
      min backoff.max (backoff.base * 2 ^ min (failures - 1) mostDoublings) := by
  rw [delay, multiple?, toNat_factor]
  split
  · next heq =>
    split at heq
    · rw [← Option.some.inj heq, Nat.min_comm]
    · cases heq
  · next heq =>
    split at heq
    · cases heq
    · next hbeyond => rw [Nat.min_eq_left (Nat.le_trans h (Nat.le_of_lt (Nat.not_le.1 hbeyond)))]

/-- More failures never shorten the delay. -/
theorem delay_mono (h : backoff.max ≤ longest) {m n : Nat} (hle : m ≤ n) :
    backoff.delay m ≤ backoff.delay n := by
  have hexp : min (m - 1) mostDoublings ≤ min (n - 1) mostDoublings := by omega
  have hproduct : backoff.base * 2 ^ min (m - 1) mostDoublings ≤
      backoff.base * 2 ^ min (n - 1) mostDoublings :=
    Nat.mul_le_mul_left backoff.base (Nat.pow_le_pow_right (by decide) hexp)
  rw [delay_eq h, delay_eq h]
  omega

end Backoff

namespace WorkQueue

variable {κ : Type} [DecidableEq κ] {queue : WorkQueue κ} {key other : κ}

/-! ### The record of failures -/

theorem requeues_forget (queue : WorkQueue κ) (key other : κ) :
    (queue.forget other).requeues key = if other = key then 0 else queue.requeues key := by
  unfold requeues forget
  rw [List.find?_filter]
  split
  · next hsame =>
    subst hsame
    rw [List.find?_eq_none.2 (by simp)]
    rfl
  · next hne =>
    congr 3
    funext failure
    by_cases hkey : failure.1 = key
    · simp [hkey, Ne.symm hne]
    · simp [hkey]

theorem requeues_fail (queue : WorkQueue κ) (key other : κ) :
    (queue.fail other).requeues key =
      if other = key then min (queue.requeues key + 1) mostFailures else queue.requeues key := by
  by_cases hsame : other = key
  · subst hsame
    rw [if_pos rfl, requeues, fail, List.find?_cons_of_pos (by simp)]
    rfl
  · have hforget := requeues_forget queue key other
    rw [if_neg hsame] at hforget ⊢
    rw [← hforget, requeues, fail, List.find?_cons_of_neg (by simpa using hsame)]
    rfl

@[simp]
theorem requeues_add (queue : WorkQueue κ) (key other : κ) :
    (queue.add other).2.requeues key = queue.requeues key := by
  unfold add
  split
  · rfl
  · dsimp only
    split <;> rfl

@[simp]
theorem requeues_take (queue : WorkQueue κ) (key : κ) :
    queue.take.2.requeues key = queue.requeues key := by
  unfold take
  split <;> rfl

@[simp]
theorem requeues_done (queue : WorkQueue κ) (key other : κ) :
    (queue.done other).2.requeues key = queue.requeues key := by
  unfold done
  dsimp only
  split <;> rfl

/-! ### Calls -/

/-- The calls that a queue receives. A timer that fires adds its target. -/
inductive Call (κ : Type) where
  | add (key : κ)
  | addAfter (key : κ) (delay : Nat)
  | retry (key : κ)
  | forget (key : κ)
  | requeues (key : κ)
  | take
  | done (key : κ)
  | close
  deriving DecidableEq

/-- The queue after a target is put off: what need not wait is added at once. -/
def addPostponed (queue : WorkQueue κ) (key : κ) : Postponed → WorkQueue κ
  | .now => (queue.add key).2
  | .later _ | .never => queue

/-- The queue after a call. -/
def call (backoff : Backoff) (queue : WorkQueue κ) : Call κ → WorkQueue κ
  | .add key => (queue.add key).2
  | .addAfter key delay => queue.addPostponed key (queue.postpone delay)
  | .retry key => (queue.retry backoff key).2.addPostponed key (queue.retry backoff key).1
  | .forget key => queue.forget key
  | .requeues _ => queue
  | .take => queue.take.2
  | .done key => (queue.done key).2
  | .close => queue.close

/-- The queue after some calls, the first one first. -/
def after (backoff : Backoff) (calls : List (Call κ)) : WorkQueue κ :=
  calls.foldl (call backoff) {}

/-- How often a target was tried again since its failures were last forgotten. -/
def retries (key : κ) (calls : List (Call κ)) : Nat :=
  (calls.reverse.takeWhile (· ≠ .forget key)).count (.retry key)

/-- The delay for which a target is put off if it is tried again now. -/
def nextDelay (backoff : Backoff) (queue : WorkQueue κ) (key : κ) : Nat :=
  backoff.delay ((queue.fail key).requeues key)

/-- Trying a target again puts it off by that delay. -/
theorem retry_eq (backoff : Backoff) (queue : WorkQueue κ) (key : κ) :
    queue.retry backoff key =
      ((queue.fail key).postpone (queue.nextDelay backoff key), queue.fail key) := rfl

variable {backoff : Backoff} {calls later : List (Call κ)}

@[simp]
theorem requeues_addPostponed (queue : WorkQueue κ) (key other : κ) (postponed : Postponed) :
    (queue.addPostponed other postponed).requeues key = queue.requeues key := by
  cases postponed with
  | now => exact requeues_add queue key other
  | later | never => rfl

/-- **What a call does to the record of a target**: trying the target again counts, forgetting it
clears the count, and nothing else changes it. -/
theorem requeues_call (backoff : Backoff) (queue : WorkQueue κ) (key : κ) (call : Call κ) :
    (queue.call backoff call).requeues key =
      if call = .forget key then 0
      else if call = .retry key then min (queue.requeues key + 1) mostFailures
      else queue.requeues key := by
  cases call with
  | forget other => simpa [WorkQueue.call] using requeues_forget queue key other
  | retry other => simpa [WorkQueue.call, retry_eq] using requeues_fail queue key other
  | add | addAfter | take | done => simp [WorkQueue.call]
  | requeues | close => rfl

theorem after_concat (calls : List (Call κ)) (call : Call κ) :
    after backoff (calls ++ [call]) = (after backoff calls).call backoff call := by
  rw [after, List.foldl_append]
  rfl

theorem retries_concat (key : κ) (calls : List (Call κ)) (call : Call κ) :
    retries key (calls ++ [call]) =
      if call = .forget key then 0
      else if call = .retry key then retries key calls + 1
      else retries key calls := by
  rw [retries, List.reverse_append, List.reverse_singleton, List.singleton_append,
    List.takeWhile_cons]
  by_cases hforget : call = .forget key
  · simp [hforget]
  · rw [if_neg hforget, if_pos (by simpa using hforget), List.count_cons]
    by_cases hretry : call = .retry key
    · simp [hretry, retries]
    · simp [hretry, retries]

/-- **The record of a target** is how often it was tried again since it was last forgotten, as far
as that can be told. -/
theorem requeues_after (backoff : Backoff) (calls : List (Call κ)) (key : κ) :
    (after backoff calls).requeues key = min (retries key calls) mostFailures := by
  induction calls using List.reverseRecOn with
  | nil => rfl
  | append_singleton calls call ih =>
    rw [after_concat, requeues_call, retries_concat, ih]
    split
    · rfl
    · split
      · omega
      · rfl

/-! ### Delays -/

/-- What the next failure counts as, as far as that matters. -/
theorem doublings_after (backoff : Backoff) (calls : List (Call κ)) (key : κ) :
    min (((after backoff calls).fail key).requeues key - 1) Backoff.mostDoublings =
      min (retries key calls + 1) 32 - 1 := by
  have hmany : mostFailures = 4294967295 := rfl
  have hmost : Backoff.mostDoublings = 31 := rfl
  rw [requeues_fail, if_pos rfl, requeues_after]
  omega

/-- The delay depends on how often the target was tried again. -/
theorem nextDelay_after (h : backoff.max ≤ Backoff.longest) (calls : List (Call κ)) (key : κ) :
    (after backoff calls).nextDelay backoff key =
      min backoff.max (backoff.base * 2 ^ (min (retries key calls + 1) 32 - 1)) := by
  rw [nextDelay, Backoff.delay_eq h, doublings_after]

/-- A target that is not forgotten meanwhile has been tried again at least as often. -/
theorem retries_le_append (calls : List (Call κ)) (hkept : .forget key ∉ later) :
    retries key calls ≤ retries key (calls ++ later) := by
  induction later using List.reverseRecOn with
  | nil => exact Nat.le_of_eq (congrArg _ (List.append_nil calls).symm)
  | append_singleton earlier call ih =>
    obtain ⟨hearlier, hcall⟩ := not_or.1 (mt List.mem_append.2 hkept)
    have hcall : call ≠ .forget key := fun hsame => hcall (hsame ▸ List.mem_singleton_self _)
    have hle := ih hearlier
    rw [← List.append_assoc, retries_concat, if_neg hcall]
    split <;> omega

/-- A target that was forgotten and not tried again since has been tried again never. -/
theorem retries_of_forgotten (hquiet : .retry key ∉ later) :
    retries key (calls ++ .forget key :: later) = 0 := by
  induction later using List.reverseRecOn with
  | nil => rw [retries_concat, if_pos rfl]
  | append_singleton earlier call ih =>
    obtain ⟨hearlier, hcall⟩ := not_or.1 (mt List.mem_append.2 hquiet)
    have hcall : call ≠ .retry key := fun hsame => hcall (hsame ▸ List.mem_singleton_self _)
    rw [← List.cons_append, ← List.append_assoc, retries_concat, ih hearlier, if_neg hcall,
      ite_self]

/-- Calls that neither try the target again nor forget it do not count. -/
theorem retries_filter (key : κ) (calls : List (Call κ)) :
    retries key (calls.filter fun call => call = .retry key ∨ call = .forget key) =
      retries key calls := by
  induction calls using List.reverseRecOn with
  | nil => rfl
  | append_singleton earlier call ih =>
    rw [List.filter_append, List.filter_cons, List.filter_nil]
    split
    · rw [retries_concat, retries_concat, ih]
    · next hcall =>
      obtain ⟨hretry, hforget⟩ := not_or.1 (mt decide_eq_true hcall)
      rw [List.append_nil, ih, retries_concat, if_neg hforget, if_neg hretry]

/-- **Each target backs off by itself.** After any calls, trying a target again puts it off by the
base delay, doubled for each time that it was tried again since it was last forgotten, at most
thirty-one times, and cut at the greatest delay: with `n` for the times including this one, by
`min max (base * 2 ^ (min n 32 - 1))`, where neither the count nor the factor nor the product goes
wrong. So the delay does not get shorter until the target is forgotten, is never beyond the greatest
one, is the base delay again after forgetting, and does not depend on what else is called. -/
theorem backs_off (hmax : backoff.max ≤ Backoff.longest) (calls : List (Call κ)) (key : κ) :
    (after backoff calls).requeues key = min (retries key calls) (2 ^ 32 - 1) ∧
    (after backoff calls).retry backoff key =
      (((after backoff calls).fail key).postpone ((after backoff calls).nextDelay backoff key),
        (after backoff calls).fail key) ∧
    (after backoff calls).nextDelay backoff key =
      min backoff.max (backoff.base * 2 ^ (min (retries key calls + 1) 32 - 1)) ∧
    (after backoff calls).nextDelay backoff key ≤ backoff.max ∧
    (Backoff.factor (((after backoff calls).fail key).requeues key)).toNat =
      2 ^ (min (retries key calls + 1) 32 - 1) ∧
    (∀ later, .forget key ∉ later → (after backoff calls).nextDelay backoff key ≤
      (after backoff (calls ++ later)).nextDelay backoff key) ∧
    (∀ later, .retry key ∉ later →
      (after backoff (calls ++ .forget key :: later)).nextDelay backoff key =
        min backoff.base backoff.max) ∧
    (after backoff (calls.filter fun call => call = .retry key ∨ call = .forget key)).nextDelay
      backoff key = (after backoff calls).nextDelay backoff key := by
  have hdelay := nextDelay_after hmax calls key
  refine ⟨requeues_after backoff calls key, retry_eq backoff _ key, hdelay,
    backoff.delay_le_max _, ?_, fun later hkept => ?_, fun later hquiet => ?_, ?_⟩
  · rw [Backoff.toNat_factor, doublings_after]
  · have hmore := retries_le_append calls hkept
    refine Backoff.delay_mono hmax ?_
    rw [requeues_fail, requeues_fail, if_pos rfl, if_pos rfl, requeues_after, requeues_after]
    omega
  · rw [nextDelay_after hmax, retries_of_forgotten hquiet]
    change min backoff.max (backoff.base * 1) = min backoff.base backoff.max
    rw [Nat.mul_one, Nat.min_comm]
  · rw [nextDelay_after hmax, retries_filter, hdelay]

namespace Scenario

/-- Half a second up to five minutes. -/
def halfSecond : Backoff := ⟨500000000, 300000000000⟩

/-- Two targets fail in turn, and one of them is forgotten once. -/
def failing : List (Call Nat) :=
  [.retry 1, .forget 1, .retry 1, .take, .retry 2, .retry 1, .requeues 1, .add 1, .retry 1]

end Scenario

/-- The first target waits for four seconds if it fails again, the fourth time since it was
forgotten; the second one for one second. -/
theorem backs_off_failing : Scenario.halfSecond.max ≤ Backoff.longest ∧
    (after Scenario.halfSecond Scenario.failing).nextDelay Scenario.halfSecond 1 = 4000000000 ∧
    (after Scenario.halfSecond Scenario.failing).nextDelay Scenario.halfSecond 2 = 1000000000 := by
  have hmax : Scenario.halfSecond.max ≤ Backoff.longest := by decide
  obtain ⟨-, -, hfirst, -⟩ := backs_off hmax Scenario.failing 1
  obtain ⟨-, -, hsecond, -⟩ := backs_off hmax Scenario.failing 2
  exact ⟨hmax, hfirst, hsecond⟩

end WorkQueue

end AccessBroker
