import AccessBroker.Policy.Snapshot
import Mathlib.Data.List.Nodup

/-!
# Which rule set decides

The snapshot is a list of entries that is made of all policies, sorted, and searched for the first
entry of the scope of a request that admits it. If no two policies have the same key, all this is
said without the list: an entry is in it if some policy declares it
(`AccessBroker.PolicyEntry.Declared`), and the one that is found comes before all others that are
declared in the scope and admit the request (`AccessBroker.PolicyEntry.Precedes`).

Two things have to be arranged. **The sort leaves nothing open**: entries that compare as equal have
the same name, scope and place, so they are the same entry of the same policy
(`AccessBroker.PolicyEntry.Declared.unique`). This is where the keys have to be different, and it
makes the list strictly ascending, hence the same for the policies in any sequence. And **the scope
drops out of the order**: it compares namespaces after names, but a request looks at entries of one
scope, and these are ordered by priority, name and place alone
(`AccessBroker.PolicyEntry.order_eq_lt_iff`).
-/

namespace AccessBroker

open Std

/-- The first element that passes, in a list that ascends strictly, is the least one that does. -/
theorem find?_eq_some_iff_of_pairwise {α : Type} {before : α → α → Prop} {passes : α → Bool}
    {values : List α} {first : α} (hasymm : ∀ a b, before a b → ¬before b a)
    (h : values.Pairwise before) : values.find? passes = some first ↔
      first ∈ values ∧ passes first = true ∧
        ∀ other ∈ values, passes other = true → other ≠ first → before first other := by
  constructor
  · intro hfind
    obtain ⟨hpasses, front, back, rfl, hfront⟩ := List.find?_eq_some_iff_append.1 hfind
    refine ⟨by simp, hpasses, fun other hother hpass hne => ?_⟩
    rcases List.mem_append.1 hother with hfore | hrest
    · exact absurd hpass (by simpa using hfront other hfore)
    · have hback := (List.mem_cons.1 hrest).resolve_left hne
      exact (List.pairwise_cons.1 (List.pairwise_append.1 h).2.1).1 other hback
  · rintro ⟨hmem, hpasses, hleast⟩
    obtain ⟨front, back, rfl⟩ := List.append_of_mem hmem
    refine List.find?_eq_some_iff_append.2 ⟨hpasses, front, back, rfl, fun other hother => ?_⟩
    -- An element in front that passed would come both before and after the least one.
    have hbefore := (List.pairwise_append.1 h).2.2 other hother first List.mem_cons_self
    by_contra hpass
    have hne : other ≠ first := fun heq => hasymm _ _ hbefore (by rwa [heq] at hbefore ⊢)
    have hafter := hleast other (List.mem_append_left _ hother) (by simpa using hpass) hne
    exact hasymm _ _ hbefore hafter

@[simp]
theorem Scope.namespace?_ofNamespace? (space : Option String) :
    (Scope.ofNamespace? space).namespace? = space := by
  cases space <;> rfl

theorem Scope.namespace?_inj {scope other : Scope} :
    scope.namespace? = other.namespace? ↔ scope = other := by
  cases scope <;> cases other <;> simp [Scope.namespace?]

/-- Objects of the same name and scope have the same key. -/
theorem Object.key_eq_of_name_scope {kind : Kind} {object other : Object kind}
    (hname : object.metadata.name = other.metadata.name) (hscope : object.scope = other.scope) :
    object.key = other.key := by
  have hspace : object.metadata.space = other.metadata.space := by
    simpa [Object.scope, Metadata.scope, Metadata.key, Key.scope] using
      congrArg Scope.namespace? hscope
  simp [Object.key, Metadata.key, hname, hspace]

namespace PolicyEntry

variable {policies others : List Policy} {entry other : PolicyEntry}

/-! ### The order of entries -/

instance : TransCmp order := by
  have hpriority : TransCmp fun a b : PolicyEntry => compare b.policy.priority a.policy.priority :=
    inferInstanceAs (TransCmp fun a b =>
      compareOn (fun entry : PolicyEntry => entry.policy.priority) b a)
  unfold order
  infer_instance

theorem order_total (entry other : PolicyEntry) :
    ((order entry other).isLE || (order other entry).isLE) = true := by
  have hswap : order other entry = (order entry other).swap := OrientedCmp.eq_swap
  rw [hswap]
  cases order entry other <;> rfl

theorem order_asymm (h : order entry other = .lt) : ¬order other entry = .lt := by
  simp [OrientedCmp.gt_of_lt h]

/-- An entry comes before another one: by a higher priority, and if there is none by the name of the
policy object, letter by letter, and if it is the same one by the place in it. -/
def Precedes (entry other : PolicyEntry) : Prop :=
  other.policy.priority < entry.policy.priority ∨
    entry.policy.priority = other.policy.priority ∧
      (entry.policyName < other.policyName ∨
        entry.policyName = other.policyName ∧ entry.index < other.index)

/-- Entries compare as equal only if they stand in the same place. -/
theorem eq_of_order_eq (h : order entry other = .eq) :
    entry.policyName = other.policyName ∧ entry.scope.namespace? = other.scope.namespace? ∧
      entry.index = other.index := by
  simp only [order, compareLex, compareOn, Ordering.then_eq_eq, LawfulEqOrd.compare_eq_iff_eq] at h
  exact h.2

/-- **Within a scope, the order is that of priority, name and place.** -/
theorem order_eq_lt_iff (h : entry.scope = other.scope) :
    order entry other = .lt ↔ entry.Precedes other := by
  have hstring (a b : String) : compare a b = .lt ↔ a < b := compareOfLessAndEq_eq_lt
  simp [order, Precedes, compareLex, compareOn, Ordering.then_eq_lt, h, compare_eq_lt, hstring,
    eq_comm (a := other.policy.priority)]

/-! ### What policies declare -/

/-- Some policy declares an entry: the entry has its name and scope, and the rule set that it lists
in that place. -/
def Declared (policies : List Policy) (entry : PolicyEntry) : Prop :=
  ∃ policy ∈ policies, entry.policyName = policy.metadata.name ∧ entry.scope = policy.scope ∧
    policy.body.policies[entry.index]? = some entry.policy

theorem mem_ofPolicy {policy : Policy} : entry ∈ ofPolicy policy ↔
    entry.policyName = policy.metadata.name ∧ entry.scope = policy.scope ∧
      policy.body.policies[entry.index]? = some entry.policy := by
  simp only [ofPolicy, List.mem_mapIdx, List.getElem?_eq_some_iff]
  constructor
  · rintro ⟨index, hindex, rfl⟩
    exact ⟨rfl, rfl, hindex, rfl⟩
  · rintro ⟨hname, hscope, hindex, hrules⟩
    refine ⟨entry.index, hindex, ?_⟩
    rw [← hname, ← hscope, hrules]

theorem mem_flatMap_ofPolicy : entry ∈ policies.flatMap ofPolicy ↔ Declared policies entry := by
  simp only [List.mem_flatMap, mem_ofPolicy, Declared]

/-- **A place has one rule set**: of policies with different keys, only one has a given name in a
given scope. -/
theorem Declared.unique (hdistinct : (policies.map Object.key).Nodup)
    (h : Declared policies entry) (h' : Declared policies other)
    (hname : entry.policyName = other.policyName) (hscope : entry.scope = other.scope)
    (hindex : entry.index = other.index) : entry = other := by
  obtain ⟨policy, hpolicy, hpolicyName, hpolicyScope, hrules⟩ := h
  obtain ⟨second, hsecond, hsecondName, hsecondScope, hrules'⟩ := h'
  have hkey : policy.key = second.key := Object.key_eq_of_name_scope
    (hpolicyName.symm.trans (hname.trans hsecondName))
    (hpolicyScope.symm.trans (hscope.trans hsecondScope))
  obtain rfl : policy = second := List.inj_on_of_nodup_map hdistinct hpolicy hsecond hkey
  have hpolicies : entry.policy = other.policy := by
    rw [hindex] at hrules
    exact Option.some.inj (hrules.symm.trans hrules')
  cases entry
  cases other
  simp_all

theorem nodup_ofPolicy (policy : Policy) : (ofPolicy policy).Nodup := by
  refine List.pairwise_iff_getElem.2 fun first second _ _ hlt heq => ?_
  have hindex := congrArg PolicyEntry.index heq
  simp only [ofPolicy, List.getElem_mapIdx] at hindex
  omega

/-- Policies with different keys declare no entry twice. -/
theorem nodup_flatMap_ofPolicy (hdistinct : (policies.map Object.key).Nodup) :
    (policies.flatMap ofPolicy).Nodup := by
  refine List.nodup_flatMap.2 ⟨fun policy _ => nodup_ofPolicy policy, ?_⟩
  refine (List.pairwise_map.1 hdistinct).imp fun {policy second} hne => ?_
  intro entry hentry hentry'
  obtain ⟨hname, hscope, -⟩ := mem_ofPolicy.1 hentry
  obtain ⟨hname', hscope', -⟩ := mem_ofPolicy.1 hentry'
  exact hne (Object.key_eq_of_name_scope (hname.symm.trans hname') (hscope.symm.trans hscope'))

end PolicyEntry

namespace PolicySnapshot

variable {policies others : List Policy} {request : Request} {entry : PolicyEntry}

theorem perm_entries_replace (snapshot : PolicySnapshot) (policies : List Policy) :
    (snapshot.replace policies).entries.Perm (policies.flatMap PolicyEntry.ofPolicy) :=
  List.mergeSort_perm _ _

theorem mem_entries_replace (snapshot : PolicySnapshot) :
    entry ∈ (snapshot.replace policies).entries ↔ PolicyEntry.Declared policies entry :=
  (snapshot.perm_entries_replace policies).mem_iff.trans PolicyEntry.mem_flatMap_ofPolicy

theorem nodup_entries_replace (snapshot : PolicySnapshot)
    (hdistinct : (policies.map Object.key).Nodup) : (snapshot.replace policies).entries.Nodup :=
  (snapshot.perm_entries_replace policies).nodup_iff.2
    (PolicyEntry.nodup_flatMap_ofPolicy hdistinct)

/-- **The entries ascend strictly**: two that compare as equal would be one entry listed twice. -/
theorem ascending_entries_replace (snapshot : PolicySnapshot)
    (hdistinct : (policies.map Object.key).Nodup) :
    (snapshot.replace policies).entries.Pairwise fun a b => PolicyEntry.order a b = .lt := by
  have hsorted : (snapshot.replace policies).entries.Pairwise fun a b =>
      (PolicyEntry.order a b).isLE = true :=
    List.pairwise_mergeSort (fun _ _ _ => TransCmp.isLE_trans)
      PolicyEntry.order_total _
  refine ((hsorted.and (snapshot.nodup_entries_replace hdistinct)).imp_of_mem ?_)
  rintro a b ha hb ⟨hle, hne⟩
  -- The order also compares namespaces, so that entries of different scopes never tie.
  refine (Ordering.isLE_iff_eq_lt_or_eq_eq.1 hle).resolve_right fun heq => hne ?_
  obtain ⟨hname, hnamespace, hindex⟩ := PolicyEntry.eq_of_order_eq heq
  exact ((snapshot.mem_entries_replace).1 ha).unique hdistinct ((snapshot.mem_entries_replace).1 hb)
    hname (Scope.namespace?_inj.1 hnamespace) hindex

/-- Policies in another sequence make the same entries. -/
theorem entries_replace_eq_of_perm (snapshot before : PolicySnapshot)
    (hdistinct : (policies.map Object.key).Nodup) (h : others.Perm policies) :
    (before.replace others).entries = (snapshot.replace policies).entries := by
  have hperm : (before.replace others).entries.Perm (snapshot.replace policies).entries :=
    (before.perm_entries_replace others).trans
      ((h.flatMap_right _).trans (snapshot.perm_entries_replace policies).symm)
  have hdistinct' : (others.map Object.key).Nodup := (h.map Object.key).nodup_iff.2 hdistinct
  refine hperm.eq_of_pairwise (fun a b _ _ hlt hgt => ?_)
    (before.ascending_entries_replace hdistinct') (snapshot.ascending_entries_replace hdistinct)
  exact absurd hgt (PolicyEntry.order_asymm hlt)

/-! ### What is resolved -/

theorem resolve_eq_find? (snapshot : PolicySnapshot) (request : Request) :
    snapshot.resolve request = snapshot.entries.find? fun entry =>
      decide (entry.scope = request.scope ∧ entry.policy.admits request.body.spec = true) := by
  simp [resolve, PolicyEntry.resolve, applicable]

/-- An entry is the one that decides a request: some policy declares it in the scope of the request,
it admits the request, and it comes before every other such entry. -/
structure Decides (policies : List Policy) (request : Request) (entry : PolicyEntry) : Prop where
  declared : PolicyEntry.Declared policies entry
  scope : entry.scope = request.scope
  admits : entry.policy.admits request.body.spec = true
  precedes (other : PolicyEntry) : PolicyEntry.Declared policies other →
    other.scope = request.scope → other.policy.admits request.body.spec = true →
      other ≠ entry → entry.Precedes other

theorem resolve_replace_eq_none_iff (snapshot : PolicySnapshot) :
    (snapshot.replace policies).resolve request = none ↔
      ∀ policy ∈ policies, policy.scope = request.scope →
        ∀ rules ∈ policy.body.policies, rules.admits request.body.spec = false := by
  simp only [resolve_eq_find?, List.find?_eq_none, mem_entries_replace, decide_eq_true_eq, not_and,
    Bool.not_eq_true]
  constructor
  · intro h policy hpolicy hscope rules hrules
    obtain ⟨index, hindex⟩ := List.mem_iff_getElem?.1 hrules
    exact h ⟨policy.metadata.name, policy.scope, index, rules⟩ ⟨policy, hpolicy, rfl, rfl, hindex⟩
      hscope
  · rintro h entry ⟨policy, hpolicy, -, hscope, hrules⟩ hentry
    exact h policy hpolicy (hscope.symm.trans hentry) _ (List.mem_of_getElem? hrules)

theorem resolve_replace_eq_some_iff (snapshot : PolicySnapshot)
    (hdistinct : (policies.map Object.key).Nodup) :
    (snapshot.replace policies).resolve request = some entry ↔ Decides policies request entry := by
  rw [resolve_eq_find?, find?_eq_some_iff_of_pairwise (fun _ _ => PolicyEntry.order_asymm)
    (snapshot.ascending_entries_replace hdistinct)]
  simp only [mem_entries_replace, decide_eq_true_eq]
  constructor
  · rintro ⟨hdeclared, ⟨hscope, hadmits⟩, hfirst⟩
    refine ⟨hdeclared, hscope, hadmits, fun other hother hscope' hadmits' hne => ?_⟩
    exact (PolicyEntry.order_eq_lt_iff (hscope.trans hscope'.symm)).1
      (hfirst other hother ⟨hscope', hadmits'⟩ hne)
  · rintro ⟨hdeclared, hscope, hadmits, hprecedes⟩
    refine ⟨hdeclared, ⟨hscope, hadmits⟩, fun other hother ⟨hscope', hadmits'⟩ hne => ?_⟩
    exact (PolicyEntry.order_eq_lt_iff (hscope.trans hscope'.symm)).2
      (hprecedes other hother hscope' hadmits' hne)

/-- **What a new list of policies decides.** If the policies have different keys then, whatever the
snapshot was before, its entries are those that they declare, each once; a request is resolved to
none if no rule set of a policy in its scope admits it, and to the first one that does otherwise;
and the sequence in which the policies were listed makes no difference. -/
theorem resolves_by_precedence (snapshot : PolicySnapshot) (policies : List Policy)
    (hdistinct : (policies.map Object.key).Nodup) :
    (snapshot.replace policies).entries.Nodup ∧
    (∀ entry, entry ∈ (snapshot.replace policies).entries ↔ PolicyEntry.Declared policies entry) ∧
    (∀ request, (snapshot.replace policies).resolve request = none ↔
      ∀ policy ∈ policies, policy.scope = request.scope →
        ∀ rules ∈ policy.body.policies, rules.admits request.body.spec = false) ∧
    (∀ request entry, (snapshot.replace policies).resolve request = some entry ↔
      Decides policies request entry) ∧
    ∀ others : List Policy, others.Perm policies → ∀ before : PolicySnapshot,
      (before.replace others).entries = (snapshot.replace policies).entries ∧
      ∀ request, (before.replace others).resolve request =
        (snapshot.replace policies).resolve request := by
  refine ⟨snapshot.nodup_entries_replace hdistinct, fun _ => snapshot.mem_entries_replace,
    fun _ => snapshot.resolve_replace_eq_none_iff,
    fun _ _ => snapshot.resolve_replace_eq_some_iff hdistinct, fun others hperm before => ?_⟩
  have hentries := snapshot.entries_replace_eq_of_perm before hdistinct hperm
  refine ⟨hentries, fun request => ?_⟩
  rw [resolve_eq_find?, resolve_eq_find?, hentries]

/-- A policy of a team by which everybody may ask for less than an hour. -/
def hourly (name : String) (priority : Int32) : Policy :=
  ⟨{ space := some "team-a", name }, ⟨[{ maxDuration := "1h", priority }]⟩⟩

/-- Of two such policies the one of higher priority decides a request, though its name comes last
and the other one was listed in front. -/
theorem resolves_urgent :
    (({} : PolicySnapshot).replace [hourly "any" (-1), hourly "urgent" 0]).resolve
      ⟨{ space := some "team-a", name := "req" }, ⟨{ duration := "10m" }, {}⟩⟩ =
        some ⟨"urgent", .namespaced "team-a", 0, { maxDuration := "1h" }⟩ := by
  refine ((resolves_by_precedence {} _ (by decide)).2.2.2.1 _ _).2 ⟨?_, by decide, by decide, ?_⟩
  · exact ⟨hourly "urgent" 0, by simp, rfl, rfl, rfl⟩
  · rintro ⟨name, scope, index, rules⟩ ⟨policy, hpolicy, hname, hscope, hrules⟩ - - hne
    cases hname
    cases hscope
    rcases List.mem_pair.1 hpolicy with rfl | rfl <;> cases index <;> cases hrules
    · exact .inl (by decide)
    · exact absurd rfl hne

end PolicySnapshot

end AccessBroker
