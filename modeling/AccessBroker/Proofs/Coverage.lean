import AccessBroker.Engine.Grant
import AccessBroker.Policy.Admission
import Mathlib.Logic.Relation

/-!
# What the comparison of rules comes to

Rules are compared list by list: one covers another one if in each of the five places it has the
wildcard or all values of the other (`AccessBroker.PolicyRule.covers_iff`). Here the comparison is
held against two things.

The first is the order that it is meant to be. Covering is a preorder on lists of rules, and asking
for less or allowing more keeps what is asked for covered
(`AccessBroker.PolicyRule.allCovered_preorder`). Two exceptions are in the way: an empty rule needs
no rule that covers it, and a list with the wildcard has values that it does not list. The steps by
which one asks for less, or allows more, are themselves instances of covering
(`AccessBroker.PolicyRule.Reduces`, `AccessBroker.PolicyRule.Widens`), so the second law follows
from the first.

The second is what rules are for, the accesses that they authorize
(`AccessBroker.PolicyRule.Authorizes`). Four of the five lists authorize the more the more values
they have. The names of resources do not: no names at all are as good as every name, and an
authorizer takes the wildcard for a name like any other. So an allowed rule authorizes what the
rules that it covers authorize, but names may slip through in two cases, one for each of these
(`AccessBroker.PolicyRule.WaivesName`).
-/

namespace AccessBroker

variable {allowed between requested : List String} {value : String}

/-! ### One list -/

theorem valuesCover_iff :
    valuesCover allowed requested = true ↔ ruleWildcard ∈ allowed ∨ requested ⊆ allowed := by
  simp [valuesCover, List.subset_def]

/-- A longer list covers a shorter one. -/
theorem valuesCover_of_subset (h : requested ⊆ allowed) : valuesCover allowed requested = true :=
  valuesCover_iff.2 (.inr h)

/-- **Lists that cover one another in turn**: the wildcard in the middle is covered like any other
value. -/
theorem valuesCover_trans (h : valuesCover allowed between = true)
    (h' : valuesCover between requested = true) : valuesCover allowed requested = true := by
  rw [valuesCover_iff] at h h' ⊢
  rcases h with hopen | hsubset
  · exact .inl hopen
  · exact h'.imp (fun hopen => hsubset hopen) fun hsubset' =>
      List.Subset.trans hsubset' hsubset

/-- Is a value listed, by itself or by the wildcard? -/
def IsListed (values : List String) (value : String) : Prop :=
  value ∈ values ∨ ruleWildcard ∈ values

instance (values : List String) (value : String) : Decidable (IsListed values value) :=
  inferInstanceAs (Decidable (_ ∨ _))

/-- What is listed in a list is listed in every list that covers it. -/
theorem IsListed.covered (h : IsListed requested value)
    (hcover : valuesCover allowed requested = true) : IsListed allowed value := by
  rcases valuesCover_iff.1 hcover with hopen | hsubset
  · exact .inr hopen
  · exact h.imp (fun hvalue => hsubset hvalue) fun hopen => hsubset hopen

namespace PolicyRule

/-! ### The five lists of a rule -/

/-- The places of the five lists of a rule. -/
inductive Place where
  | apiGroups
  | resources
  | resourceNames
  | verbs
  | nonResourceUrls

/-- The list in a place. -/
def valuesAt (rule : PolicyRule) : Place → List String
  | .apiGroups => rule.apiGroups
  | .resources => rule.resources
  | .resourceNames => rule.resourceNames
  | .verbs => rule.verbs
  | .nonResourceUrls => rule.nonResourceUrls

/-- The rule with another list in a place. -/
def withValues (rule : PolicyRule) (values : List String) : Place → PolicyRule
  | .apiGroups => { rule with apiGroups := values }
  | .resources => { rule with resources := values }
  | .resourceNames => { rule with resourceNames := values }
  | .verbs => { rule with verbs := values }
  | .nonResourceUrls => { rule with nonResourceUrls := values }

variable {rule other : PolicyRule} {rules : List PolicyRule} {place : Place}

@[simp]
theorem valuesAt_withValues_self (rule : PolicyRule) (values : List String) (place : Place) :
    (rule.withValues values place).valuesAt place = values := by
  cases place <;> rfl

theorem valuesAt_withValues_of_ne {second : Place} (rule : PolicyRule) (values : List String)
    (h : second ≠ place) :
    (rule.withValues values place).valuesAt second = rule.valuesAt second := by
  cases place <;> cases second <;> first | rfl | exact absurd rfl h

theorem forall_place {holds : Place → Prop} : (∀ place, holds place) ↔
    holds .apiGroups ∧ holds .resources ∧ holds .resourceNames ∧ holds .verbs ∧
      holds .nonResourceUrls := by
  constructor
  · exact fun h => ⟨h _, h _, h _, h _, h _⟩
  · rintro ⟨hgroups, hresources, hnames, hverbs, hurls⟩ place
    cases place <;> assumption

/-- **One rule covers another one** if it does so in each place. -/
theorem covers_iff {allowed requested : PolicyRule} : allowed.covers requested = true ↔
    ∀ place, valuesCover (allowed.valuesAt place) (requested.valuesAt place) = true := by
  simp only [covers, lists, List.zip_cons_cons, List.zip_nil_right, List.all_cons, List.all_nil,
    Bool.and_true, Bool.and_eq_true, forall_place, valuesAt]

theorem isEmpty_iff : rule.isEmpty = true ↔ ∀ place, rule.valuesAt place = [] := by
  simp only [isEmpty, lists, List.all_cons, List.all_nil, Bool.and_true, Bool.and_eq_true,
    List.isEmpty_iff, forall_place, valuesAt]

theorem covers_self (rule : PolicyRule) : rule.covers rule = true :=
  covers_iff.2 fun _ => valuesCover_of_subset (List.Subset.refl _)

theorem covers_trans {allowed between requested : PolicyRule}
    (h : allowed.covers between = true) (h' : between.covers requested = true) :
    allowed.covers requested = true :=
  covers_iff.2 fun place => valuesCover_trans (covers_iff.1 h place) (covers_iff.1 h' place)

/-- An empty rule covers empty rules alone. -/
theorem isEmpty_of_covers {allowed requested : PolicyRule} (h : allowed.covers requested = true)
    (hempty : allowed.isEmpty = true) : requested.isEmpty = true := by
  refine isEmpty_iff.2 fun place => ?_
  have hcover := valuesCover_iff.1 (covers_iff.1 h place)
  rw [isEmpty_iff.1 hempty place] at hcover
  exact hcover.elim nofun List.eq_nil_of_subset_nil

/-- Rules that differ in one place cover one another if they do so there. -/
theorem covers_of_differs {allowed requested : PolicyRule}
    (hothers : ∀ second, second ≠ place → allowed.valuesAt second = requested.valuesAt second)
    (h : valuesCover (allowed.valuesAt place) (requested.valuesAt place) = true) :
    allowed.covers requested = true := by
  refine covers_iff.2 fun second => ?_
  by_cases hplace : second = place
  · exact hplace ▸ h
  · rw [hothers second hplace]
    exact valuesCover_of_subset (List.Subset.refl _)

theorem covers_withValues_left {values : List String}
    (h : valuesCover values (rule.valuesAt place) = true) :
    (rule.withValues values place).covers rule = true :=
  covers_of_differs (fun _ hne => valuesAt_withValues_of_ne rule values hne)
    (by rwa [valuesAt_withValues_self])

theorem covers_withValues_right {values : List String}
    (h : valuesCover (rule.valuesAt place) values = true) :
    rule.covers (rule.withValues values place) = true :=
  covers_of_differs (fun _ hne => (valuesAt_withValues_of_ne rule values hne).symm)
    (by rwa [valuesAt_withValues_self])

/-! ### Lists of rules -/

theorem allCovered_iff {requested allowed : List PolicyRule} :
    allCovered requested allowed = true ↔ ∀ rule ∈ requested,
      rule.isEmpty = true ∨ ∃ candidate ∈ allowed, candidate.covers rule = true := by
  simp [allCovered]

theorem allCovered_of_subset {requested allowed : List PolicyRule} (h : requested ⊆ allowed) :
    allCovered requested allowed = true :=
  allCovered_iff.2 fun rule hrule => .inr ⟨rule, h hrule, rule.covers_self⟩

/-- **Covering is transitive**: what an empty rule in the middle covers is empty itself. -/
theorem allCovered_trans {requested between allowed : List PolicyRule}
    (h : allCovered requested between = true) (h' : allCovered between allowed = true) :
    allCovered requested allowed = true := by
  refine allCovered_iff.2 fun rule hrule => ?_
  rcases allCovered_iff.1 h rule hrule with hempty | ⟨middle, hmiddle, hcovers⟩
  · exact .inl hempty
  · rcases allCovered_iff.1 h' middle hmiddle with hempty | ⟨candidate, hcandidate, hcovers'⟩
    · exact .inl (isEmpty_of_covers hcovers hempty)
    · exact .inr ⟨candidate, hcandidate, covers_trans hcovers' hcovers⟩

/-- Replacing a rule by one that covers it. -/
theorem allCovered_replaced {before after : List PolicyRule} (h : other.covers rule = true) :
    allCovered (before ++ rule :: after) (before ++ other :: after) = true := by
  refine allCovered_iff.2 fun candidate hcandidate => .inr ?_
  rcases List.mem_append.1 hcandidate with hbefore | hrest
  · exact ⟨candidate, List.mem_append_left _ hbefore, candidate.covers_self⟩
  · rcases List.mem_cons.1 hrest with rfl | hafter
    · exact ⟨other, List.mem_append_right _ List.mem_cons_self, h⟩
    · exact ⟨candidate, List.mem_append_right _ (List.mem_cons_of_mem _ hafter),
        candidate.covers_self⟩

/-! ### Asking for less, and allowing more -/

/-- A step by which some rules ask for less. -/
inductive Reduces : List PolicyRule → List PolicyRule → Prop
  /-- A rule is left out. -/
  | rule (before after : List PolicyRule) (rule : PolicyRule) :
    Reduces (before ++ rule :: after) (before ++ after)
  /-- A value is left out of a list of a rule. -/
  | value (before after : List PolicyRule) {rule : PolicyRule} {place : Place}
    {front back : List String} {value : String}
    (listed : rule.valuesAt place = front ++ value :: back) :
    Reduces (before ++ rule :: after) (before ++ rule.withValues (front ++ back) place :: after)

/-- A step by which some rules allow more. -/
inductive Widens : List PolicyRule → List PolicyRule → Prop
  /-- A rule is added. -/
  | rule (before after : List PolicyRule) (rule : PolicyRule) :
    Widens (before ++ after) (before ++ rule :: after)
  /-- A value is added to a list of a rule. -/
  | value (before after : List PolicyRule) {rule : PolicyRule} {place : Place}
    {front back : List String} (value : String) (listed : rule.valuesAt place = front ++ back) :
    Widens (before ++ rule :: after)
      (before ++ rule.withValues (front ++ value :: back) place :: after)
  /-- A list of a rule is replaced by the wildcard. -/
  | wildcard (before after : List PolicyRule) (rule : PolicyRule) (place : Place) :
    Widens (before ++ rule :: after) (before ++ rule.withValues [ruleWildcard] place :: after)

theorem subset_of_left_out {α : Type} (front back : List α) (value : α) :
    front ++ back ⊆ front ++ value :: back :=
  ((List.sublist_cons_self value back).append_left front).subset

theorem Reduces.allCovered {less : List PolicyRule} (h : Reduces rules less) :
    allCovered less rules = true := by
  cases h with
  | rule before after rule => exact allCovered_of_subset (subset_of_left_out before after rule)
  | @value before after rule place front back value hlisted =>
    refine allCovered_replaced (covers_withValues_right (valuesCover_of_subset ?_))
    rw [hlisted]
    exact subset_of_left_out front back value

theorem Widens.allCovered {more : List PolicyRule} (h : Widens rules more) :
    allCovered rules more = true := by
  cases h with
  | rule before after rule => exact allCovered_of_subset (subset_of_left_out before after rule)
  | @value before after rule place front back value hlisted =>
    refine allCovered_replaced (covers_withValues_left (valuesCover_of_subset ?_))
    rw [hlisted]
    exact subset_of_left_out front back value
  | wildcard before after rule place =>
    exact allCovered_replaced (covers_withValues_left (valuesCover_iff.2 (.inl List.mem_cons_self)))

/-- Asking for less, in any number of steps, is covered. -/
theorem allCovered_of_reduces {less : List PolicyRule}
    (h : Relation.ReflTransGen Reduces rules less) : allCovered less rules = true := by
  induction h with
  | refl => exact allCovered_of_subset (List.Subset.refl _)
  | tail _ hstep ih => exact allCovered_trans hstep.allCovered ih

/-- Allowing more, in any number of steps, covers. -/
theorem allCovered_of_widens {more : List PolicyRule}
    (h : Relation.ReflTransGen Widens rules more) : allCovered rules more = true := by
  induction h with
  | refl => exact allCovered_of_subset (List.Subset.refl _)
  | tail _ hstep ih => exact allCovered_trans ih hstep.allCovered

/-- **Covering is a preorder, and monotone**: rules cover themselves, covering is transitive, and
what is covered stays so when rules or values are left out of what is asked for, and when rules are
added to what is allowed, values are added to its lists, or lists are replaced by the wildcard, any
number of times. -/
theorem allCovered_preorder :
    (∀ rules, allCovered rules rules = true) ∧
    (∀ requested between allowed, allCovered requested between = true →
      allCovered between allowed = true → allCovered requested allowed = true) ∧
    ∀ requested allowed less more, allCovered requested allowed = true →
      Relation.ReflTransGen Reduces requested less → Relation.ReflTransGen Widens allowed more →
        allCovered less more = true := by
  refine ⟨fun rules => allCovered_of_subset (List.Subset.refl rules),
    fun _ _ _ h h' => allCovered_trans h h', fun requested allowed less more h hless hmore => ?_⟩
  exact allCovered_trans (allCovered_of_reduces hless)
    (allCovered_trans h (allCovered_of_widens hmore))

/-- The rule that lets one get pods of some names. -/
def podsNamed (names : List String) : PolicyRule :=
  { apiGroups := [""], resources := ["pods"], resourceNames := names, verbs := ["get"] }

/-- A rule on two pods is covered by itself and is covered still if it gives up one of them, and if
every pod is allowed after a rule has been put in front. -/
theorem allCovered_pods :
    allCovered [podsNamed ["db", "web"]] [podsNamed ["db", "web"]] = true ∧
    allCovered [podsNamed ["web"]] [{}, podsNamed ["*"]] = true := by
  have hself := allCovered_preorder.1 [podsNamed ["db", "web"]]
  have htwice := allCovered_preorder.2.1 _ _ _ hself hself
  have hless : Reduces [podsNamed ["db", "web"]] [podsNamed ["web"]] :=
    @Reduces.value [] [] _ .resourceNames [] ["web"] "db" rfl
  have hmore : Widens [podsNamed ["db", "web"]] [podsNamed ["*"]] :=
    .wildcard [] [] _ .resourceNames
  have hfront : Widens [podsNamed ["*"]] [{}, podsNamed ["*"]] := .rule [] _ {}
  exact ⟨hself, allCovered_preorder.2.2 _ _ _ _ htwice (.single hless)
    (.tail (.single hmore) hfront)⟩

end PolicyRule

/-! ### What a rule authorizes -/

/-- Something that one may be authorized to do. -/
inductive Access where
  /-- A verb on the resource of a group that has a name. -/
  | resource (group resource name verb : String)
  /-- A verb on an address outside of the groups. -/
  | url (verb url : String)

namespace PolicyRule

/-- An access is authorized by the lists of a rule together. No names of resources stand for every
name; the wildcard does not. -/
def Authorizes (rule : PolicyRule) : Access → Prop
  | .resource group resource name verb =>
    IsListed rule.apiGroups group ∧ IsListed rule.resources resource ∧ IsListed rule.verbs verb ∧
      (rule.resourceNames = [] ∨ name ∈ rule.resourceNames)
  | .url verb url => IsListed rule.verbs verb ∧ IsListed rule.nonResourceUrls url

instance (rule : PolicyRule) : (access : Access) → Decidable (rule.Authorizes access)
  | .resource _ _ _ _ => inferInstanceAs (Decidable (_ ∧ _ ∧ _ ∧ _))
  | .url _ _ => inferInstanceAs (Decidable (_ ∧ _))

/-- An empty rule authorizes nothing: no verb is listed. -/
theorem not_authorizes_of_isEmpty {rule : PolicyRule} {access : Access}
    (h : rule.isEmpty = true) : ¬rule.Authorizes access := by
  have hverbs : rule.verbs = [] := isEmpty_iff.1 h .verbs
  have hunlisted (verb : String) : ¬IsListed rule.verbs verb := by simp [IsListed, hverbs]
  cases access with
  | resource group resource name verb => exact fun haccess => hunlisted verb haccess.2.2.1
  | url verb url => exact fun haccess => hunlisted verb haccess.1

/-- All about an access is authorized but the name, which the comparison of lists has not looked at:
the allowed names have the wildcard, or the requested rule has no names. -/
def WaivesName (allowed requested : PolicyRule) : Access → Prop
  | .resource group resource name verb =>
    IsListed allowed.apiGroups group ∧ IsListed allowed.resources resource ∧
      IsListed allowed.verbs verb ∧ name ∉ allowed.resourceNames ∧
      (ruleWildcard ∈ allowed.resourceNames ∨
        requested.resourceNames = [] ∧ allowed.resourceNames ≠ [])
  | .url _ _ => False

/-- **What a covered rule authorizes is authorized by the rule that covers it**, save where a name
is waived. -/
theorem authorizes_of_covers {allowed requested : PolicyRule} {access : Access}
    (h : allowed.covers requested = true) (haccess : requested.Authorizes access) :
    allowed.Authorizes access ∨ allowed.WaivesName requested access := by
  have hplaces := covers_iff.1 h
  cases access with
  | url verb url =>
    obtain ⟨hverb, hurl⟩ := haccess
    exact .inl ⟨hverb.covered (hplaces .verbs), hurl.covered (hplaces .nonResourceUrls)⟩
  | resource group resource name verb =>
    obtain ⟨hgroup, hresource, hverb, hname⟩ := haccess
    have hgroup := hgroup.covered (hplaces .apiGroups)
    have hresource := hresource.covered (hplaces .resources)
    have hverb := hverb.covered (hplaces .verbs)
    -- The lists so far authorize more when they are longer; a list of names may authorize less.
    by_cases hlisted : allowed.resourceNames = [] ∨ name ∈ allowed.resourceNames
    · exact .inl ⟨hgroup, hresource, hverb, hlisted⟩
    · obtain ⟨hsome, hunlisted⟩ := not_or.1 hlisted
      refine .inr ⟨hgroup, hresource, hverb, hunlisted, ?_⟩
      rcases valuesCover_iff.1 (hplaces .resourceNames) with hopen | hsubset
      · exact .inl hopen
      · exact .inr ⟨hname.resolve_right fun hmem => hunlisted (hsubset hmem), hsome⟩

end PolicyRule

namespace SubjectPolicy

/-- **A rule set bounds what it admits**: whatever a rule authorizes that an allowed rule covers is
authorized by the allowed rule, save where a name is waived; and of a request that the rule set
admits, each rule of the role that is made for it is bounded in this way by one of the allowed
rules. -/
theorem bounds_admitted :
    (∀ allowed requested : PolicyRule, allowed.covers requested = true →
      ∀ access, requested.Authorizes access →
        allowed.Authorizes access ∨ allowed.WaivesName requested access) ∧
    ∀ (policy : SubjectPolicy) (request : Request) (grant : Grant) (role : Role),
      policy.admits request.body.spec = true →
      grant.body.permissions = request.body.spec.permissions →
      grant.creation .adhocRole = .ok (some (.create .role role)) →
      ∀ requested ∈ role.body.rules, ∀ access, requested.Authorizes access →
        ∃ allowed ∈ policy.allowedPermissions, ∀ other, requested.Authorizes other →
          allowed.Authorizes other ∨ allowed.WaivesName requested other := by
  refine ⟨fun _ _ hcovers _ => PolicyRule.authorizes_of_covers hcovers, ?_⟩
  intro policy request grant role hadmits hpermissions hrole requested hrequested access haccess
  have hrules : role.body.rules = request.body.spec.permissions := by
    rw [← hpermissions]
    cases hrole
    rfl
  have hcovered : PolicyRule.allCovered request.body.spec.permissions policy.allowedPermissions :=
    (Bool.and_eq_true_iff.1 hadmits).2
  rcases PolicyRule.allCovered_iff.1 hcovered requested (hrules ▸ hrequested) with
    hempty | ⟨allowed, hallowed, hcovers⟩
  · exact absurd haccess (PolicyRule.not_authorizes_of_isEmpty hempty)
  · exact ⟨allowed, hallowed, fun _ => PolicyRule.authorizes_of_covers hcovers⟩

/-- Getting the pod of some name. -/
def podAccess (name : String) : Access :=
  .resource "" "pods" name "get"

/-- A rule for two pods covers the rule for one of them and lets one get it; and where it is the
allowed one, a request for that pod is admitted and the role made for it is bounded likewise. -/
theorem bounds_pods :
    (PolicyRule.podsNamed ["db", "web"]).Authorizes (podAccess "db") ∧
    ∃ allowed ∈ [PolicyRule.podsNamed ["db", "web"]], allowed.Authorizes (podAccess "db") := by
  let policy : SubjectPolicy :=
    { allowedPermissions := [.podsNamed ["db", "web"]], maxDuration := "1h" }
  let request : Request :=
    ⟨{ name := "req" }, ⟨{ permissions := [.podsNamed ["db"]], duration := "10m" }, {}⟩⟩
  let grant : Grant := ⟨{ name := "req" }, { permissions := [.podsNamed ["db"]] }⟩
  let role : Role := ⟨grant.artifactMetadata .adhocRole, ⟨[.podsNamed ["db"]]⟩⟩
  have haccess : (PolicyRule.podsNamed ["db"]).Authorizes (podAccess "db") := by decide
  have hnamed : ∀ other, ¬(PolicyRule.podsNamed ["db", "web"]).WaivesName other (podAccess "db") :=
    fun _ hwaived => hwaived.2.2.2.1 (by decide)
  refine ⟨(bounds_admitted.1 _ _ (by decide) _ haccess).resolve_right (hnamed _), ?_⟩
  obtain ⟨allowed, hallowed, hbounds⟩ := bounds_admitted.2 policy request grant role
    (by decide) rfl rfl _ List.mem_cons_self _ haccess
  obtain rfl : allowed = .podsNamed ["db", "web"] := List.mem_singleton.1 hallowed
  exact ⟨_, hallowed, (hbounds _ haccess).resolve_right (hnamed _)⟩

/-- **Names slip through**: the wildcard covers a pod of any name without being one, and a rule that
names a pod covers the rule for all of them. -/
theorem names_unbounded :
    (PolicyRule.podsNamed ["*"]).covers (.podsNamed ["db"]) = true ∧
    (PolicyRule.podsNamed ["db"]).Authorizes (podAccess "db") ∧
    ¬(PolicyRule.podsNamed ["*"]).Authorizes (podAccess "db") ∧
    (PolicyRule.podsNamed ["web"]).covers (.podsNamed []) = true ∧
    (PolicyRule.podsNamed []).Authorizes (podAccess "db") ∧
    ¬(PolicyRule.podsNamed ["web"]).Authorizes (podAccess "db") := by
  decide

end SubjectPolicy

end AccessBroker
