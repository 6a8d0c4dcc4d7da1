import AccessBroker.Proofs.Store.Versions

/-!
# Deletions

An object that is deleting stays stored for the sake of its finalizers, and goes with the last of
them. Three of the writes could break that, for each of them makes an object whose time of deletion
comes from the stored one while its finalizers may not:
`AccessBroker.MemoryStore.Made` lists what a call can make, and
`AccessBroker.MemoryStore.Performed.made` says that whatever else is stored was stored before. A
write of finalizers and owners looks whether anything is left to wait for; a write of the status
leaves both alone; saving a policy does neither, and is the one way by which an object that nothing
holds any more stays behind (`AccessBroker.MemoryStore.Log.deletions`). It can be deleted again, and
nobody else takes it away.

The time of deletion itself is set once. What an object was marked with stays as long as the object
does (`AccessBroker.MemoryStore.Log.deletedAt_eq`).
-/

namespace AccessBroker

open AccessBroker.Time

namespace Object

variable {kind : Kind}

theorem isSpent_iff {object : Object kind} : object.isSpent = true ↔
    object.metadata.isDeleting = true ∧ object.metadata.finalizers = [] := by
  rw [isSpent, Bool.and_eq_true, List.isEmpty_iff]

theorem isSpent_patched (stored : Object kind) (status : kind.Status) (version : Nat) :
    (stored.patched status version).isSpent = stored.isSpent :=
  rfl

theorem isSpent_born (object : Object kind) (now : Instant) (uid : String) (version : Nat) :
    (object.born now uid version).isSpent = false :=
  rfl

/-- Marking sets the time of deletion where there is none. -/
theorem deletedAt_marked (stored : Object kind) (now : Instant) (version : Nat) :
    (stored.marked now version).metadata.deletedAt =
      some (stored.metadata.deletedAt.getD now) := by
  unfold marked
  split
  · next hdeleting =>
    obtain ⟨time, htime⟩ := Option.isSome_iff_exists.1 hdeleting
    rw [htime, Option.getD_some]
  · next hlive =>
    have htime : stored.metadata.deletedAt = none := by
      simpa [Metadata.isDeleting] using hlive
    rw [htime, Option.getD_none]

end Object

namespace MemoryStore

variable {kind other : Kind} {key : Key} {store after : MemoryStore} {now : Instant} {uid : String}
  {call : StoreCall} {reply : call.Reply} {log later earlier : List Entry}

/-! ### What a call makes -/

/-- What a call makes of what is stored under a key. -/
inductive Made (now : Instant) (uid : String) (store : MemoryStore) :
    StoreCall → (kind : Kind) → Key → Object kind → Prop
  /-- A new object, as it was submitted. -/
  | created {kind : Kind} {object : Object kind} (vacant : store.find? kind object.key = none) :
    Made now uid store (.create kind object) kind object.key
      (object.pristine.born now uid (store.version + 1))
  /-- A new policy. -/
  | declared {policy : Policy} (vacant : store.find? .policy policy.key = none) :
    Made now uid store (.savePolicy policy) .policy policy.key
      (policy.born now uid (store.version + 1))
  /-- A policy with the identity of the one that it takes the place of. -/
  | replaced {policy stored : Policy} (found : store.find? .policy policy.key = some stored) :
    Made now uid store (.savePolicy policy) .policy policy.key
      (policy.inPlaceOf stored (store.version + 1))
  /-- The stored object with other finalizers and owners. -/
  | linked {kind : Kind} {object stored : Object kind}
    (found : store.find? kind object.key = some stored)
    (unspent : (stored.withLinksOf object (store.version + 1)).isSpent = false) :
    Made now uid store (.updateMetadata kind object) kind object.key
      (stored.withLinksOf object (store.version + 1))
  /-- The stored object with another status. -/
  | patched {kind : Kind} {base stored : Object kind} {status : kind.Status}
    (found : store.find? kind base.key = some stored) :
    Made now uid store (.patchStatus kind base status) kind base.key
      (stored.patched status (store.version + 1))
  /-- The stored object, marked. -/
  | marked {kind : Kind} {key : Key} {stored : Object kind}
    (found : store.find? kind key = some stored) (held : stored.metadata.finalizers ≠ []) :
    Made now uid store (.delete kind key) kind key (stored.marked now (store.version + 1))

/-- What is found after a put is what was put, or was stored before. -/
theorem find?_or_eq_of_put {object : Object kind} {found : Object other}
    {P : (kind : Kind) → Key → Object kind → Prop} (hput : P kind object.key object)
    (h : (store.renewed.put object).find? other key = some found) :
    store.find? other key = some found ∨ P other key found := by
  by_cases hkind : other = kind
  · subst hkind
    rw [find?_put, find?_renewed] at h
    split at h
    · next hkey =>
      obtain rfl := Option.some.inj h
      exact .inr (hkey ▸ hput)
    · exact .inl h
  · rw [find?_put_of_ne _ _ hkind, find?_renewed] at h
    exact .inl h

theorem find?_eq_none_of_takesUid {policy : Policy}
    (h : store.takesUid (.savePolicy policy) = true) : store.find? .policy policy.key = none := by
  unfold takesUid at h
  cases hvacant : store.checkVacant .policy policy.key with
  | error failure => simp [hvacant, Except.isOk, Except.toBool] at h
  | ok _ => exact find?_eq_none_of_checkVacant hvacant

/-- **Whatever is stored after a call** was stored before, or the call has made it. -/
theorem Performed.made {object : Object kind} (hkeyed : store.Keyed)
    (h : Performed now uid store call reply after) (hafter : after.find? kind key = some object) :
    store.find? kind key = some object ∨ Made now uid store call kind key object := by
  cases h with
  | found | heard => exact .inl hafter
  | surveyed _ _ hagrees | failed _ _ hagrees => exact .inl ((hagrees _ _).symm.trans hafter)
  | missing => exact .inl ((store.agrees_renewed _ _).symm.trans hafter)
  | released | removed =>
    refine .inl ?_
    rw [← find?_renewed]
    exact find?_of_find?_drop hafter
  | created hvacant => exact find?_or_eq_of_put (.created hvacant) hafter
  | declared htaken =>
    exact find?_or_eq_of_put (.declared (find?_eq_none_of_takesUid htaken)) hafter
  | replaced hfound => exact find?_or_eq_of_put (.replaced hfound) hafter
  | linked hfound _ hunspent =>
    refine find?_or_eq_of_put ?_ hafter
    rw [Object.key_withLinksOf, hkeyed _ _ _ hfound]
    exact .linked hfound hunspent
  | patched hfound =>
    refine find?_or_eq_of_put ?_ hafter
    rw [Object.key_patched, hkeyed _ _ _ hfound]
    exact .patched hfound
  | marked hfound hheld =>
    refine find?_or_eq_of_put ?_ hafter
    rw [Object.key_marked, hkeyed _ _ _ hfound]
    exact .marked hfound hheld

/-! ### The time of deletion -/

/-- **One call leaves the time of deletion**, unless it is the deletion of an object that was not
deleting and that has finalizers. A new object has none. -/
theorem Made.deletedAt {new : Object kind} (h : Made now uid store call kind key new) :
    store.find? kind key = none ∧ new.metadata.deletedAt = none ∨
      ∃ old, store.find? kind key = some old ∧
        (new.metadata.deletedAt = old.metadata.deletedAt ∨
          call = .delete kind key ∧ old.metadata.finalizers ≠ [] ∧
            old.metadata.deletedAt = none ∧ new.metadata.deletedAt = some now) := by
  cases h with
  | created hvacant | declared hvacant => exact .inl ⟨hvacant, rfl⟩
  | replaced hfound | linked hfound | patched hfound => exact .inr ⟨_, hfound, .inl rfl⟩
  | @marked _ _ stored hfound hheld =>
    refine .inr ⟨stored, hfound, ?_⟩
    rw [Object.deletedAt_marked]
    cases stored.metadata.deletedAt with
    | none => exact .inr ⟨rfl, hheld, rfl, rfl⟩
    | some time => exact .inl rfl

/-- **A time of deletion stays** as long as there is an object under the key. -/
theorem Log.deletedAt_eq {old new : Object kind} {time : Instant} (h : Log (later ++ earlier))
    (hold : (afterLog earlier).find? kind key = some old)
    (htime : old.metadata.deletedAt = some time)
    (hstays : ∀ between, between <:+ later → (afterLog (between ++ earlier)).find? kind key ≠ none)
    (hnew : (afterLog (later ++ earlier)).find? kind key = some new) :
    new.metadata.deletedAt = some time := by
  induction later generalizing new with
  | nil =>
    rw [List.nil_append, hold] at hnew
    obtain rfl := Option.some.inj hnew
    exact htime
  | cons entry rest ih =>
    obtain ⟨hrest, _, _, -, hcall⟩ := h.performed
    obtain ⟨found, hfound⟩ := Option.ne_none_iff_exists'.1 (hstays rest (List.suffix_cons _ _))
    have hkept := ih hrest (fun between hbetween =>
      hstays between (hbetween.trans (List.suffix_cons _ _))) hfound
    rcases hcall.made hrest.versioned.keyed hnew with hbefore | hmade
    · rw [List.append_eq, hfound] at hbefore
      obtain rfl := Option.some.inj hbefore
      exact hkept
    · rcases hmade.deletedAt with ⟨hvacant, -⟩ | ⟨before, hbefore, hdeleted⟩
      · exact absurd hvacant (hstays rest (List.suffix_cons _ _))
      · obtain rfl := Option.some.inj (hfound.symm.trans hbefore)
        rcases hdeleted with hsame | ⟨-, -, hlive, -⟩
        · exact hsame.trans hkept
        · rw [hkept] at hlive
          cases hlive

/-! ### Objects left behind -/

/-- A policy was saved without finalizers in place of one that was deleting, and is still stored as
that call has left it. -/
def LeftBehind (log : List Entry) (key : Key) (policy : Policy) : Prop :=
  ∃ later entry earlier submitted, log = later ++ entry :: earlier ∧
    entry.call = .savePolicy submitted ∧ ⟨.policy, policy⟩ ∈ entry.given ∧
    submitted.key = key ∧ submitted.metadata.finalizers = [] ∧
    (∃ stored, (afterLog earlier).find? .policy key = some stored ∧
      stored.metadata.isDeleting = true) ∧
    ∀ between, between <:+ later →
      (afterLog (between ++ entry :: earlier)).find? .policy key = some policy

/-- **Only by saving a policy** does a call make an object that has nothing to wait for. -/
theorem Made.isSpent {object : Object kind} (h : Made now uid store call kind key object)
    (hstore : kind ≠ .policy → ∀ stored : Object kind, store.find? kind key = some stored →
      stored.isSpent = false)
    (hspent : object.isSpent = true) :
    ∃ submitted stored : Policy, call = .savePolicy submitted ∧ submitted.key = key ∧
      store.find? .policy key = some stored ∧ stored.metadata.isDeleting = true ∧
      submitted.metadata.finalizers = [] ∧
      (⟨kind, object⟩ : (kind : Kind) × Object kind) =
        ⟨.policy, submitted.inPlaceOf stored (store.version + 1)⟩ := by
  cases h with
  | created | declared =>
    rw [Object.isSpent_born] at hspent
    cases hspent
  | @replaced policy stored hfound =>
    obtain ⟨hdeleting, hfree⟩ := Object.isSpent_iff.1 hspent
    exact ⟨policy, stored, rfl, rfl, hfound, hdeleting, hfree, rfl⟩
  | linked _ hunspent =>
    rw [hunspent] at hspent
    cases hspent
  | @patched _ _ stored status hfound =>
    -- Policies have no status.
    have hkind : kind ≠ .policy := by
      rintro rfl
      exact status.elim
    rw [Object.isSpent_patched, hstore hkind stored hfound] at hspent
    cases hspent
  | marked _ hheld =>
    have hfree := (Object.isSpent_iff.1 hspent).2
    rw [Object.finalizers_marked] at hfree
    exact absurd hfree hheld

/-- What waits for nothing is a policy. -/
theorem Log.eq_policy {object : Object kind} (h : Log log)
    (hfound : (afterLog log).find? kind key = some object) (hspent : object.isSpent = true) :
    kind = .policy := by
  refine Decidable.byContradiction fun hkind => ?_
  induction h generalizing key object with
  | start =>
    rw [afterLog, find?_empty] at hfound
    cases hfound
  | @call log hlog now uid call ih =>
    have hcall := performed_perform now uid (afterLog log) call
    rcases hcall.made hlog.versioned.keyed hfound with hbefore | hmade
    · exact ih hbefore hspent
    · obtain ⟨_, _, -, -, -, -, -, hsame⟩ := hmade.isSpent
        (fun _ stored hstored => Bool.eq_false_iff.2 fun hspent => ih hstored hspent) hspent
      exact hkind (Sigma.mk.inj hsame).1

/-- What lies where a policy was saved is what the call gave, or was stored before. -/
theorem Performed.given_of_savePolicy {submitted policy : Policy}
    {reply : (StoreCall.savePolicy submitted).Reply}
    (h : Performed now uid store (.savePolicy submitted) reply after)
    (hafter : after.find? .policy submitted.key = some policy) :
    store.find? .policy submitted.key = some policy ∨
      ⟨.policy, policy⟩ ∈ StoreCall.given _ reply := by
  cases h with
  | surveyed _ hsurvey => cases hsurvey
  | failed _ _ hagrees => exact .inl ((hagrees _ _).symm.trans hafter)
  | declared | replaced =>
    refine .inr (List.mem_singleton.2 ?_)
    rw [find?_put] at hafter
    exact congrArg _ (Option.some.inj ((if_pos rfl).symm.trans hafter)).symm

/-- A policy that waits for nothing was left behind. -/
theorem Log.leftBehind {policy : Policy} (h : Log log)
    (hfound : (afterLog log).find? .policy key = some policy) (hspent : policy.isSpent = true) :
    LeftBehind log key policy := by
  induction h generalizing policy with
  | start =>
    rw [afterLog, find?_empty] at hfound
    cases hfound
  | @call log hlog now uid call ih =>
    have hcall := performed_perform now uid (afterLog log) call
    by_cases hbefore : (afterLog log).find? .policy key = some policy
    · obtain ⟨later, entry, earlier, submitted, rfl, hsave, hgiven, hkey, hfree, hdeleting, hsince⟩
        := ih hbefore hspent
      refine ⟨_ :: later, entry, earlier, submitted, rfl, hsave, hgiven, hkey, hfree, hdeleting,
        fun between hbetween => ?_⟩
      rcases List.suffix_cons_iff.1 hbetween with rfl | hbetween
      · exact hfound
      · exact hsince between hbetween
    · have hmade := (hcall.made hlog.versioned.keyed hfound).resolve_left hbefore
      obtain ⟨submitted, stored, rfl, rfl, hstored, hdeleting, hfree, -⟩ :=
        hmade.isSpent (absurd rfl) hspent
      refine ⟨[], _, log, submitted, rfl, rfl, ?_, rfl, hfree, ⟨stored, hstored, hdeleting⟩, ?_⟩
      · exact (hcall.given_of_savePolicy hfound).resolve_left hbefore
      · intro between hbetween
        rw [List.suffix_nil.1 hbetween]
        exact hfound

/-- A policy keeps the identity of the one that it takes the place of. -/
theorem Performed.eq_inPlaceOf {submitted policy stored : Policy}
    {reply : (StoreCall.savePolicy submitted).Reply}
    (h : Performed now uid store (.savePolicy submitted) reply after)
    (hstored : store.find? .policy submitted.key = some stored)
    (hgiven : ⟨.policy, policy⟩ ∈ StoreCall.given _ reply) :
    policy = submitted.inPlaceOf stored (store.version + 1) := by
  cases h with
  | surveyed _ hsurvey => cases hsurvey
  | failed => cases hgiven
  | declared htaken =>
    rw [find?_eq_none_of_takesUid htaken] at hstored
    cases hstored
  | replaced hfound =>
    rw [hstored] at hfound
    cases Option.some.inj hfound
    cases List.mem_singleton.1 hgiven
    rfl

/-- What was left behind waits for nothing. -/
theorem LeftBehind.isSpent {policy : Policy} (hleft : LeftBehind log key policy) (h : Log log) :
    (afterLog log).find? .policy key = some policy ∧ policy.isSpent = true := by
  obtain ⟨later, ⟨call, reply, store⟩, earlier, submitted, rfl, rfl, hgiven, rfl, hfree,
    ⟨stored, hstored, hdeleting⟩, hsince⟩ := hleft
  obtain ⟨-, _, _, -, hcall⟩ := h.of_append.performed
  refine ⟨hsince later List.suffix_rfl, ?_⟩
  rw [hcall.eq_inPlaceOf hstored hgiven]
  exact Object.isSpent_iff.2 ⟨hdeleting, hfree⟩

/-- **Deletions run their course, but for policies that are left behind.** Whatever any clients have
called, in any order and with any objects: an object that is deleting and has no finalizer is a
policy, and these policies are exactly the ones that were saved without finalizers in place of one
that was deleting and are stored as that call left them. A time of deletion is the same at every
moment as long as there is an object under the key; only the deletion of an object with finalizers
that has none sets it. -/
theorem Log.deletions (h : Log log) :
    (∀ (kind : Kind) (key : Key) (object : Object kind),
      (afterLog log).find? kind key = some object → object.isSpent = true → kind = .policy) ∧
    (∀ (key : Key) (policy : Policy),
      ((afterLog log).find? .policy key = some policy ∧ policy.isSpent = true ↔
        LeftBehind log key policy)) ∧
    (∀ later earlier, log = later ++ earlier → ∀ (kind : Kind) (key : Key) (old new : Object kind)
      (time : Instant), (afterLog earlier).find? kind key = some old →
      old.metadata.deletedAt = some time →
      (∀ between, between <:+ later → (afterLog (between ++ earlier)).find? kind key ≠ none) →
      (afterLog log).find? kind key = some new → new.metadata.deletedAt = some time) ∧
    ∀ entry rest, log = entry :: rest → ∀ (kind : Kind) (key : Key) (new : Object kind)
      (time : Instant), entry.after.find? kind key = some new →
      new.metadata.deletedAt = some time →
      ∃ old, (afterLog rest).find? kind key = some old ∧
        (old.metadata.deletedAt = some time ∨ old.metadata.deletedAt = none ∧
          old.metadata.finalizers ≠ [] ∧
          ∃ uid, entry = .made time uid (afterLog rest) (.delete kind key)) := by
  refine ⟨fun _ _ _ => h.eq_policy, fun key policy => ⟨fun ⟨hfound, hspent⟩ =>
    h.leftBehind hfound hspent, fun hleft => hleft.isSpent h⟩, ?_, ?_⟩
  · rintro later earlier rfl kind key old new time hold htime hstays hnew
    exact h.deletedAt_eq hold htime hstays hnew
  · rintro entry rest rfl kind key new time hnew htime
    obtain ⟨hrest, now, uid, hentry, hcall⟩ := h.performed
    rcases hcall.made hrest.versioned.keyed hnew with hbefore | hmade
    · exact ⟨new, hbefore, .inl htime⟩
    · rcases hmade.deletedAt with ⟨-, hnone⟩ | ⟨old, hold, hsame | ⟨hdelete, hheld, hlive, hnow⟩⟩
      · rw [hnone] at htime
        cases htime
      · exact ⟨old, hold, .inl (hsame.symm.trans htime)⟩
      · obtain rfl := Option.some.inj (hnow.symm.trans htime)
        exact ⟨old, hold, .inr ⟨hlive, hheld, uid, hdelete ▸ hentry⟩⟩

namespace Scenario

/-- A policy without rules and without finalizers. -/
def bare : Policy where
  metadata := .ofKey ⟨some "team", "p"⟩
  body := ⟨[]⟩

/-- The policy with a finalizer. -/
def shielded : Policy :=
  { bare with metadata := { bare.metadata with finalizers := ["hold"] } }

/-- The policy is saved with the finalizer, deleted, and saved without it. -/
def bared : List Entry :=
  let first := Entry.made .epoch "uid" {} (.savePolicy shielded)
  let second := Entry.made .epoch "" first.after (.delete .policy bare.key)
  [.made .epoch "" second.after (.savePolicy bare), second, first]

/-- The policy as the last call leaves it. -/
def leftover : Policy :=
  bare.inPlaceOf ((shielded.born .epoch "uid" 1).marked .epoch 2) 3

end Scenario

/-- The policy that lost its finalizer was left behind, and is deleting since the second call. -/
theorem deletions_leftover : Log Scenario.bared ∧
    LeftBehind Scenario.bared Scenario.bare.key Scenario.leftover ∧
    Scenario.leftover.metadata.deletedAt = some .epoch := by
  have hlog : Log Scenario.bared := .call (.call (.call .start _ _ _) _ _ _) _ _ _
  obtain ⟨-, hspent, hkept, -⟩ := Log.deletions hlog
  refine ⟨hlog, (hspent _ _).1 ⟨rfl, rfl⟩, ?_⟩
  refine hkept [_] [_, _] rfl .policy Scenario.bare.key _ _ .epoch rfl rfl ?_ rfl
  intro between hbetween
  rcases List.suffix_cons_iff.1 hbetween with rfl | hbetween
  · exact Option.some_ne_none Scenario.leftover
  · rw [List.suffix_nil.1 hbetween]
    exact Option.some_ne_none ((Scenario.shielded.born .epoch "uid" 1).marked .epoch 2)

/-- **A policy can be deleting with no finalizer left**, and stay stored. -/
theorem leftover_not_removed : ¬ ∀ log, Log log → ∀ (kind : Kind) (key : Key)
    (object : Object kind), (afterLog log).find? kind key = some object →
      ¬ (object.metadata.deletedAt.isSome = true ∧ object.metadata.finalizers = []) := by
  intro hall
  have hlog : Log Scenario.bared := .call (.call (.call .start _ _ _) _ _ _) _ _ _
  exact hall _ hlog .policy Scenario.bare.key Scenario.leftover rfl ⟨rfl, rfl⟩

end MemoryStore

end AccessBroker
