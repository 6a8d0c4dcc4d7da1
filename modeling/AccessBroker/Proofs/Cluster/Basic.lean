import AccessBroker.Controller.Worker
import AccessBroker.Proofs.Engine.Grant
import AccessBroker.Proofs.Engine.Request
import AccessBroker.Proofs.Store.Turns

/-!
# Clusters

A cluster is a store that passes and users share, call by call. It moves
(`AccessBroker.Cluster.move`) when the clock is set, the policies are published, a user
makes a call, a pass is started, or a pass that is under way makes its next call; that
call is answered, or it is refused and does nothing. Every order of moves is a run, so
every way in which passes, users and failing calls can come in between each other is
one.

What may happen beside that is laid down by rules (`AccessBroker.Rules`): whether passes
on one target may overlap, whether users delete grants, and which failures a call may
be refused with.

A cluster keeps a journal of every pass that was ever started, with all that it has done
(`AccessBroker.Journal`). No pass looks at it, but what led to a state can be said of it.
-/

namespace AccessBroker

open AccessBroker.Time

/-- A pass that was started. -/
structure Journal where
  target : Target
  /-- What it has done, the latest first. -/
  deeds : Deeds := []
  /-- What it is still to do. -/
  rest : Steps (Except Failure Outcome)

namespace Journal

/-- The journal of a pass that is about to begin. -/
def opening (target : Target) : Journal where
  target := target
  rest := target.reconcile.run

/-- Has the pass ended? -/
def isOver (journal : Journal) : Bool :=
  match journal.rest with
  | .done _ => true
  | .ask _ _ => false

end Journal

/-- What may happen in a cluster. -/
structure Rules where
  /-- May a pass be started while another one on its target is under way? -/
  overlap : Bool
  /-- May users delete grants? -/
  revocations : Bool
  /-- May a call be refused with a failure? -/
  refuses : Failure → Bool

namespace Rules

/-- Passes on one target do not overlap; users may delete grants, and every call may be
refused in any way. -/
def queued : Rules where
  overlap := false
  revocations := true
  refuses _ := true

/-- Whatever passes and users do, and however calls are refused. -/
def unrestricted : Rules where
  overlap := true
  revocations := true
  refuses _ := true

/-- Passes on one target do not overlap, users leave grants alone, and no call is refused. -/
def faultless : Rules where
  overlap := false
  revocations := false
  refuses _ := false

/-- What the work queue and a store that tells the truth see to, while users leave grants alone:
passes on one target do not overlap, and no call is refused with the failure that something is
missing. -/
structure AreHonest (rules : Rules) : Prop where
  exclusive : rules.overlap = false
  unrevoked : rules.revocations = false
  truthful : ∀ failure, rules.refuses failure = true → failure.isNotFound = false

/-- No call is refused with the failure that something is missing. -/
def AreTruthful (rules : Rules) : Prop :=
  ∀ failure, rules.refuses failure = true → failure.isNotFound = false

theorem areTruthful_faultless : faultless.AreTruthful :=
  nofun

/-- As much as honest rules admit. -/
def honest : Rules where
  overlap := false
  revocations := false
  refuses failure := !failure.isNotFound

theorem areHonest_honest : honest.AreHonest :=
  ⟨rfl, rfl, fun _ hrefuses => Bool.not_eq_true' _ ▸ hrefuses⟩

/-- The calls that users may make: they file and withdraw requests and responses, they
write and delete policies, and they look at the feed. -/
def allows (rules : Rules) : StoreCall → Bool
  | .create .request _ | .create .response _ | .savePolicy _ => true
  | .delete .request _ | .delete .response _ | .delete .policy _ => true
  | .delete .grant _ => rules.revocations
  | .listPolicies | .listKeys _ | .changesSince _ _ | .compact _ => true
  | _ => false

end Rules

/-- A store with its users and its passes. -/
structure Cluster where
  store : MemoryStore := {}
  snapshot : PolicySnapshot := {}
  now : Instant := .epoch
  /-- The identifiers that have been given out. -/
  issued : List String := []
  /-- The passes, in the order in which they were started. -/
  journals : List Journal := []

/-- What can happen next in a cluster. -/
inductive Move where
  /-- The clock is set. -/
  | clock (now : Instant)
  /-- The policies are published. -/
  | publish (policies : List Policy)
  /-- A user makes a call, with an identifier at hand in case it takes one. -/
  | user (call : StoreCall) (id : String)
  /-- A pass is started. -/
  | start (target : Target)
  /-- The next call of a pass is answered, with an identifier at hand. -/
  | answer (pass : Nat) (id : String)
  /-- The next call of a pass is refused. -/
  | refuse (pass : Nat) (failure : Failure)

namespace Cluster

/-- May an identifier be given out? -/
def isFresh (cluster : Cluster) (id : String) : Bool :=
  !id.isEmpty && !cluster.issued.contains id

/-- Is no pass on a target under way? -/
def isIdle (cluster : Cluster) (target : Target) : Bool :=
  cluster.journals.all fun journal => journal.target != target || journal.isOver

/-- The identifiers that have been given out after a call. -/
def issuedBy (cluster : Cluster) (id : String) (call : StoreCall) : List String :=
  if cluster.store.takesUid call then id :: cluster.issued else cluster.issued

/-- Makes a call to the store. -/
def perform (cluster : Cluster) (id : String) (call : StoreCall) :
    Option (call.Reply × Cluster) :=
  if cluster.store.takesUid call && !cluster.isFresh id then none
  else
    let (reply, store) := cluster.store.perform cluster.now id call
    some (reply, { cluster with store, issued := cluster.issuedBy id call })

/-- Answers a call of a pass. -/
def answer (cluster : Cluster) (id : String) :
    (effect : Effect) → Option (passInterface.Reply effect × Cluster)
  | .store call => cluster.perform id call
  | .tell _ => some (.ok (), cluster)
  | .policies => some (cluster.snapshot, cluster)
  | .clock => some (cluster.now, cluster)
  | .freshId =>
    if cluster.isFresh id then some (id, { cluster with issued := id :: cluster.issued })
    else none

/-- The answer to a call of a pass that is refused, if it can be. -/
def refusal (failure : Failure) : (effect : Effect) → Option (passInterface.Reply effect)
  | .store _ | .tell _ => some (.error failure)
  | .policies | .clock | .freshId => none

/-- The cluster after a pass has been answered. -/
def advance (cluster : Cluster) (pass : Nat) (target : Target) (past : Deeds) (effect : Effect)
    (next : passInterface.Reply effect → Steps (Except Failure Outcome))
    (reply : passInterface.Reply effect) : Cluster :=
  { cluster with
    journals := cluster.journals.set pass ⟨target, ⟨effect, reply⟩ :: past, next reply⟩ }

/-- The cluster after a move, if the rules admit it. -/
def move (rules : Rules) (cluster : Cluster) : Move → Option Cluster
  | .clock now => some { cluster with now }
  | .publish policies => some { cluster with snapshot := cluster.snapshot.replace policies }
  | .user call id =>
    if rules.allows call then (cluster.perform id call).map Prod.snd else none
  | .start target =>
    if rules.overlap || cluster.isIdle target then
      some { cluster with journals := cluster.journals ++ [.opening target] }
    else none
  | .answer pass id =>
    match cluster.journals[pass]? with
    | some ⟨target, past, .ask effect next⟩ =>
      (cluster.answer id effect).map fun (reply, cluster) =>
        cluster.advance pass target past effect next reply
    | _ => none
  | .refuse pass failure =>
    match cluster.journals[pass]? with
    | some ⟨target, past, .ask effect next⟩ =>
      if rules.refuses failure then
        (refusal failure effect).map (cluster.advance pass target past effect next)
      else none
    | _ => none

/-- The cluster after some moves in a row. -/
def run (rules : Rules) (cluster : Cluster) : List Move → Option Cluster
  | [] => some cluster
  | first :: rest => (cluster.move rules first).bind fun next => next.run rules rest

theorem run_append {rules : Rules} {cluster : Cluster} (moves more : List Move) :
    cluster.run rules (moves ++ more) = (cluster.run rules moves).bind (·.run rules more) := by
  induction moves generalizing cluster with
  | nil => rfl
  | cons first rest ih =>
    rw [List.cons_append, run, run, Option.bind_assoc]
    exact congrArg _ (funext fun _ => ih)

/-- A cluster can come about, starting from nothing. -/
inductive Reachable (rules : Rules) : Cluster → Prop
  /-- At the start there is nothing. -/
  | start : Reachable rules {}
  /-- Every move goes on from there. -/
  | step {cluster next : Cluster} (move : Move) (before : Reachable rules cluster)
    (moved : cluster.move rules move = some next) : Reachable rules next

/-- **What some moves lead to can come about.** -/
theorem reachable_of_run {rules : Rules} {cluster next : Cluster} {moves : List Move}
    (hbefore : Reachable rules cluster) (hrun : cluster.run rules moves = some next) :
    Reachable rules next := by
  induction moves generalizing cluster with
  | nil => exact Option.some.inj hrun ▸ hbefore
  | cons first rest ih =>
    obtain ⟨between, hfirst, hrest⟩ := Option.bind_eq_some_iff.1 hrun
    exact ih (hbefore.step first hfirst) hrest

/-! ### What a move does -/

/-- A call is made to the store of a cluster. -/
structure Calls (cluster : Cluster) (id : String) (call : StoreCall) (reply : call.Reply)
    (store : MemoryStore) (issued : List String) : Prop where
  performed : MemoryStore.Performed cluster.now id cluster.store call reply store
  fresh : cluster.store.takesUid call = true → cluster.isFresh id = true
  issued : issued = cluster.issuedBy id call

/-- How a call of a pass is served: the answer, and the store and the identifiers that
have been given out then. -/
inductive Served (rules : Rules) (cluster : Cluster) :
    (effect : Effect) → passInterface.Reply effect → MemoryStore → List String → Prop
  /-- The store answers. -/
  | performed {id : String} {call : StoreCall} {reply : call.Reply} {store : MemoryStore}
    {issued : List String} (calls : cluster.Calls id call reply store issued) :
    Served rules cluster (.store call) reply store issued
  /-- The call is refused. -/
  | refused (call : StoreCall) {failure : Failure} (refuses : rules.refuses failure = true) :
    Served rules cluster (.store call) (.error failure) cluster.store cluster.issued
  /-- The listeners are told, or cannot be. -/
  | told (event : AccessEvent) (reply : Except Failure Unit) :
    Served rules cluster (.tell event) reply cluster.store cluster.issued
  /-- The snapshot is given. -/
  | consulted : Served rules cluster .policies cluster.snapshot cluster.store cluster.issued
  /-- The time is given. -/
  | timed : Served rules cluster .clock cluster.now cluster.store cluster.issued
  /-- An identifier is given out. -/
  | drawn {id : String} (fresh : cluster.isFresh id = true) :
    Served rules cluster .freshId id cluster.store (id :: cluster.issued)

/-- What a move comes to. -/
inductive Moved (rules : Rules) (cluster : Cluster) : Cluster → Prop
  /-- Neither the store nor a pass is concerned. -/
  | aside (now : Instant) (snapshot : PolicySnapshot) :
    Moved rules cluster { cluster with now, snapshot }
  /-- A user has made a call. -/
  | called {id : String} {call : StoreCall} {reply : call.Reply} {store : MemoryStore}
    {issued : List String} (allowed : rules.allows call = true)
    (calls : cluster.Calls id call reply store issued) :
    Moved rules cluster { cluster with store, issued }
  /-- A pass has been started. -/
  | started {target : Target} (idle : rules.overlap = true ∨ cluster.isIdle target = true) :
    Moved rules cluster { cluster with journals := cluster.journals ++ [.opening target] }
  /-- A pass has been answered. -/
  | advanced {pass : Nat} {target : Target} {past : Deeds} {effect : Effect}
    {next : passInterface.Reply effect → Steps (Except Failure Outcome)}
    {reply : passInterface.Reply effect} {store : MemoryStore} {issued : List String}
    (current : cluster.journals[pass]? = some ⟨target, past, .ask effect next⟩)
    (served : Served rules cluster effect reply store issued) :
    Moved rules cluster { cluster with
      store, issued
      journals := cluster.journals.set pass ⟨target, ⟨effect, reply⟩ :: past, next reply⟩ }

variable {rules : Rules} {cluster next : Cluster}

theorem isFresh_iff {id : String} : cluster.isFresh id = true ↔ id ≠ "" ∧ id ∉ cluster.issued := by
  simp [isFresh]

/-- A pass that draws is given an unused identifier. -/
theorem Served.of_freshId {id : String} {store : MemoryStore} {issued : List String}
    (h : Served rules cluster .freshId id store issued) :
    (id ≠ "" ∧ id ∉ cluster.issued) ∧ issued = id :: cluster.issued := by
  cases h with
  | drawn hfresh => exact ⟨isFresh_iff.1 hfresh, rfl⟩

theorem calls_of_perform {id : String} {call : StoreCall} {reply : call.Reply}
    (h : cluster.perform id call = some (reply, next)) :
    ∃ store issued, next = { cluster with store, issued } ∧
      cluster.Calls id call reply store issued := by
  unfold perform at h
  split at h
  · cases h
  · next hfresh =>
    cases h
    refine ⟨_, _, rfl, MemoryStore.performed_perform _ _ _ _, fun htakes => ?_, rfl⟩
    simpa [htakes] using hfresh

theorem served_of_answer {id : String} {effect : Effect} {reply : passInterface.Reply effect}
    (h : cluster.answer id effect = some (reply, next)) :
    ∃ store issued, next = { cluster with store, issued } ∧
      Served rules cluster effect reply store issued := by
  cases effect with
  | store call =>
    obtain ⟨store, issued, hnext, hcalls⟩ := calls_of_perform h
    exact ⟨store, issued, hnext, .performed hcalls⟩
  | tell event =>
    cases h
    exact ⟨_, _, rfl, .told event _⟩
  | policies =>
    cases h
    exact ⟨_, _, rfl, .consulted⟩
  | clock =>
    cases h
    exact ⟨_, _, rfl, .timed⟩
  | freshId =>
    simp only [answer] at h
    split at h
    · next hfresh =>
      cases h
      exact ⟨_, _, rfl, .drawn hfresh⟩
    · cases h

theorem served_of_refusal {failure : Failure} {effect : Effect}
    {reply : passInterface.Reply effect} (hrefuses : rules.refuses failure = true)
    (h : refusal failure effect = some reply) :
    Served rules cluster effect reply cluster.store cluster.issued := by
  cases effect with
  | store call =>
    cases h
    exact .refused call hrefuses
  | tell event =>
    cases h
    exact .told event _
  | policies | clock | freshId => cases h

/-- **Every move comes to one of four things.** -/
theorem moved_of_move {move : Move} (h : cluster.move rules move = some next) :
    Moved rules cluster next := by
  cases move with
  | clock now =>
    cases h
    exact .aside now cluster.snapshot
  | publish policies =>
    cases h
    exact .aside cluster.now (cluster.snapshot.replace policies)
  | user call id =>
    simp only [move] at h
    split at h
    · next hallowed =>
      obtain ⟨⟨reply, after⟩, hperform, rfl⟩ := Option.map_eq_some_iff.1 h
      obtain ⟨store, issued, rfl, hcalls⟩ := calls_of_perform hperform
      exact .called hallowed hcalls
    · cases h
  | start target =>
    simp only [move] at h
    split at h
    · next hidle =>
      cases h
      exact .started (Bool.or_eq_true_iff.1 hidle)
    · cases h
  | answer pass id =>
    simp only [move] at h
    split at h
    · next target past effect rest hcurrent =>
      obtain ⟨⟨reply, after⟩, hanswer, rfl⟩ := Option.map_eq_some_iff.1 h
      obtain ⟨store, issued, rfl, hserved⟩ := served_of_answer hanswer
      exact .advanced hcurrent hserved
    · cases h
  | refuse pass failure =>
    simp only [move] at h
    split at h
    · next target past effect rest hcurrent =>
      split at h
      · next hrefuses =>
        obtain ⟨reply, hreply, rfl⟩ := Option.map_eq_some_iff.1 h
        exact .advanced hcurrent (served_of_refusal hrefuses hreply)
      · cases h
    · cases h

/-! ### A small cluster -/

/-- **What holds after some moves holds in a cluster that can come about.** -/
theorem exists_reachable {P : Cluster → Prop} [DecidablePred P] (rules : Rules)
    (moves : List Move)
    (h : (({} : Cluster).run rules moves).any (fun cluster => decide (P cluster)) = true) :
    ∃ cluster, Reachable rules cluster ∧ P cluster := by
  obtain ⟨cluster, hrun, hholds⟩ := (Option.any_eq_true _ _).1 h
  exact ⟨cluster, reachable_of_run .start hrun, of_decide_eq_true hholds⟩

namespace Scenario

/-- The key of a request, and of its grant. -/
def place : Key :=
  ⟨some "team", "r"⟩

/-- A request for a role and for a rule, under that key. -/
def request (subject : String) : Request where
  metadata := .ofKey place
  body :=
    { spec :=
        { subject
          duration := "10m"
          role := some ⟨"", .clusterRole, "view"⟩
          permissions := [{ apiGroups := [""], resources := ["pods"], verbs := ["get"] }] }
      status := {} }

/-- A policy that admits such requests once somebody has approved them. -/
def policy : Policy where
  metadata := .ofKey ⟨some "team", "p"⟩
  body :=
    ⟨[{ maxDuration := "1h"
        allowedRoles := [⟨"", .clusterRole, "view"⟩]
        allowedPermissions := [{ apiGroups := [""], resources := ["pods"], verbs := ["get"] }] }]⟩

/-- A vote on the request. -/
def vote (name voter : String) (decision : Decision) : Response where
  metadata := .ofKey ⟨some "team", name⟩
  body := ⟨place.name, voter, decision⟩

/-- The next calls of a pass are answered. -/
def answers (pass count : Nat) : List Move :=
  (List.range count).map fun call => .answer pass s!"{pass}-{call}"

/-- There is a policy, and alice files the request. -/
def filed : List Move :=
  [.user (.savePolicy policy) "policy", .publish [policy],
    .user (.create .request (request "alice")) "alice"]

/-- And bob approves it. -/
def approved : List Move :=
  filed ++ [.user (.create .response (vote "b" "bob" .approved)) "bob"]

/-- A pass on the request has filled in its grant, and one on the grant has made the role and the
bindings. -/
def furnished : List Move :=
  approved ++ .start (.request place) :: answers 0 11 ++ .start (.grant place) :: answers 1 9

end Scenario

end Cluster

end AccessBroker
