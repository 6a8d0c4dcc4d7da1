import AccessBroker.Object.Basic
import AccessBroker.Span

/-!
# Admission

When a rule set admits a request: the requester is among those who may ask, the
span asked for is shorter than the longest one allowed, the role asked for is one
of those allowed, and each rule asked for is covered by one allowed rule. A rule
covers another one if each of its five lists has all the values of the other's, or
the wildcard.
-/

namespace AccessBroker

open AccessBroker.Text

/-- Does a list of allowed values have every requested one? -/
def valuesCover (allowed requested : List String) : Bool :=
  allowed.contains ruleWildcard || requested.all allowed.contains

namespace PolicyRule

/-- Does an allowed rule cover a requested one? -/
def covers (allowed requested : PolicyRule) : Bool :=
  (allowed.lists.zip requested.lists).all fun (allowed, requested) =>
    valuesCover allowed requested

/-- Is every requested rule, unless it is empty, covered by a single allowed one? -/
def allCovered (requested allowed : List PolicyRule) : Bool :=
  requested.all fun rule => rule.isEmpty || allowed.any fun candidate => candidate.covers rule

end PolicyRule

/-- Does a matcher name the subject or one of the groups? -/
def SubjectMatcher.includes (matcher : SubjectMatcher) (subject : String) (groups : NameSet) :
    Bool :=
  match matcher.kind with
  | .user => matcher.name == subject
  | .group => decide (matcher.name ∈ groups)

namespace SubjectPolicy

/-- May the requester ask? Everybody may if nobody is named. -/
def admitsSubject (policy : SubjectPolicy) (spec : RequestSpec) : Bool :=
  policy.requesters.isEmpty ||
    policy.requesters.any fun matcher => matcher.includes spec.subject spec.groups

/-- Is the requested span shorter than the longest one? Neither may be
malformed. -/
def admitsDuration (policy : SubjectPolicy) (requested : String) : Bool :=
  match Span.read requested, Span.read policy.maxDuration with
  | .ok requested, .ok longest => requested < longest
  | _, _ => false

/-- Is the requested role allowed? -/
def admitsRole (policy : SubjectPolicy) (requested : RoleRef) : Bool :=
  policy.allowedRoles.any fun allowed => allowed.isEquivalent requested

/-- Are the requested rules allowed? -/
def admitsPermissions (policy : SubjectPolicy) (requested : List PolicyRule) : Bool :=
  PolicyRule.allCovered requested policy.allowedPermissions

/-- Does the rule set admit what a request asks for? -/
def admits (policy : SubjectPolicy) (spec : RequestSpec) : Bool :=
  policy.admitsSubject spec && policy.admitsDuration spec.duration &&
    (spec.role.map policy.admitsRole).getD true && policy.admitsPermissions spec.permissions

end SubjectPolicy

end AccessBroker
