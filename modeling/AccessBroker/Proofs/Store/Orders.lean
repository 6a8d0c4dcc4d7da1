import AccessBroker.Proofs.Store.Counterparts

/-!
# Orders that two stores can be given alike

A client that speaks to two stores cannot send both the same calls: a write is based on an object
that the store itself gave, and an owner is named by the identifier that the store gave it. So what
the client has in mind is an order (`AccessBroker.Order`), which refers to earlier answers by their
number and to an object in an answer by its place (`AccessBroker.Pick`). Each store turns it into a
call with the help of its own answers (`AccessBroker.Order.call?`). An order that refers to
something that was never given is no call at all, and is passed over.

A script is a list of orders, carried out one after the other (`AccessBroker.carryOut`). What is
shown here is that alike answers make alike calls of an order (`AccessBroker.Order.counterpart`):
the two stores pass over the same orders, and make the same call of any other one, up to a renaming.
-/

namespace AccessBroker

open AccessBroker.Time Surroundings Object

/-! ### Answers -/

/-- Two failures of the same kind, whatever they say. -/
def Failure.isLike : Failure → Failure → Bool
  | .validation _, .validation _ | .notFound _, .notFound _ | .alreadyExists _, .alreadyExists _
  | .conflict _, .conflict _ | .policyNotMatched _, .policyNotMatched _
  | .internal _, .internal _ | .joined _, .joined _ => true
  | _, _ => false

/-- The failure in an outcome. -/
def failure? {α : Type} : Except Failure α → Option Failure
  | .ok _ => none
  | .error failure => some failure

/-- The keys that an answer lists. -/
def StoreCall.listed : (call : StoreCall) → call.Reply → List Key
  | .listKeys _, .ok listing => listing.keys
  | _, _ => []

/-- A call that was answered. -/
structure Answer where
  call : StoreCall
  reply : call.Reply

namespace Answer

/-- The objects that the answer gives. -/
def given (answer : Answer) : List ((kind : Kind) × Object kind) :=
  answer.call.given answer.reply

/-- The keys that the answer lists. -/
def listed (answer : Answer) : List Key :=
  answer.call.listed answer.reply

end Answer

variable {inner outer : Surroundings} {names later : Renaming inner outer} {kind : Kind}

/-- Two objects of one kind that are the same up to a renaming. -/
inductive SameObject (names : Renaming inner outer) :
    ((kind : Kind) × Object kind) → ((kind : Kind) × Object kind) → Prop
  | intro {kind : Kind} {object object' : Object kind} (renamed : Renamed names object object') :
    SameObject names ⟨kind, object⟩ ⟨kind, object'⟩

/-- **The same answer up to a renaming**: a failure of the same kind, the same objects and the same
list of keys. -/
structure Answer.Alike (names : Renaming inner outer) (answer answer' : Answer) : Prop where
  failure : Option.Rel (fun failure failure' => failure.isLike failure' = true)
    (failure? answer.reply) (failure? answer'.reply)
  given : List.Forall₂ (SameObject names) answer.given answer'.given
  listed : answer'.listed = answer.listed

theorem Answer.Alike.mono {answer answer' : Answer} (h : answer.Alike names answer')
    (hlater : later.Extends names) : answer.Alike later answer' := by
  refine ⟨h.failure, h.given.imp fun _ _ hsame => ?_, h.listed⟩
  cases hsame with
  | intro hrenamed => exact .intro (hrenamed.mono hlater)

/-! ### Orders -/

/-- An object in an earlier answer. -/
structure Pick where
  /-- The number of the answer. -/
  answer : Nat
  /-- The place among the objects that the answer gives. -/
  place : Nat
  deriving Repr, DecidableEq

/-- An owner that an earlier answer gave. -/
structure OwnerPick where
  kind : Kind
  name : String
  owner : Pick
  deriving Repr, DecidableEq

/-- What a client wants of a store, with references to what the store has answered before. -/
inductive Order where
  /-- The object with a key. -/
  | find (kind : Kind) (key : Key)
  /-- Stores a new object with some owners. -/
  | create (kind : Kind) (object : Object kind) (owners : List OwnerPick)
  /-- Stores a policy, which has no owners. -/
  | savePolicy (policy : Policy)
  /-- Writes the finalizers and owners of an object that was given before. -/
  | updateMetadata (kind : Kind) (base : Pick) (finalizers : List String) (owners : List OwnerPick)
  /-- Writes the status of an object that was given before. -/
  | patchStatus (kind : Kind) (base : Pick) (status : kind.Status)
  /-- Deletes an object. -/
  | delete (kind : Kind) (key : Key)
  /-- Every policy. -/
  | listPolicies
  /-- The responses to a request. -/
  | listResponses (scope : Scope) (request : String)
  /-- The keys of a kind. -/
  | listKeys (kind : Kind)

/-- The object with other finalizers and owners. -/
def Object.linking (object : Object kind) (finalizers : List String)
    (owners : List OwnerReference) : Object kind :=
  { object with metadata := { object.metadata with finalizers, owners } }

/-- The object that is picked, if it was given. Some orders have no answer. -/
def Pick.object? (pick : Pick) (answers : List (Option Answer)) :
    Option ((kind : Kind) × Object kind) :=
  answers[pick.answer]?.join.bind fun answer => answer.given[pick.place]?

/-- The object that is picked, if it was given and is of a kind. -/
def Pick.ofKind? (pick : Pick) (kind : Kind) (answers : List (Option Answer)) :
    Option (Object kind) :=
  (pick.object? answers).bind fun ⟨other, object⟩ =>
    if h : other = kind then some (h ▸ object) else none

/-- The reference to an owner that was given. -/
def OwnerPick.reference? (answers : List (Option Answer)) (pick : OwnerPick) :
    Option OwnerReference :=
  (pick.owner.object? answers).map fun object => ⟨pick.kind, pick.name, object.2.metadata.uid⟩

namespace Order

/-- The call that an order comes to after some answers. -/
def call? (answers : List (Option Answer)) : Order → Option StoreCall
  | .find kind key => some (.find kind key)
  | .create kind object owners => (owners.mapM (OwnerPick.reference? answers)).map fun owners =>
    .create kind (object.linking object.metadata.finalizers owners)
  | .savePolicy policy => some (.savePolicy (policy.linking policy.metadata.finalizers []))
  | .updateMetadata kind base finalizers owners =>
    (base.ofKind? kind answers).bind fun base =>
      (owners.mapM (OwnerPick.reference? answers)).map fun owners =>
        .updateMetadata kind (base.linking finalizers owners)
  | .patchStatus kind base status => (base.ofKind? kind answers).map fun base =>
    .patchStatus kind base status
  | .delete kind key => some (.delete kind key)
  | .listPolicies => some .listPolicies
  | .listResponses scope request => some (.listResponses scope request)
  | .listKeys kind => some (.listKeys kind)

/-- No namespace is the empty text, and only roles and bindings have owners. -/
def IsPlain : Order → Prop
  | .find _ key | .delete _ key => key.IsPlain
  | .create kind object owners => object.key.IsPlain ∧ (kind.isOwned = true ∨ owners = [])
  | .savePolicy policy => policy.key.IsPlain
  | .updateMetadata kind _ _ owners => kind.isOwned = true ∨ owners = []
  | .listResponses scope _ => scope ≠ .namespaced ""
  | .patchStatus _ _ _ | .listPolicies | .listKeys _ => True

instance : (order : Order) → Decidable order.IsPlain
  | .find _ key | .delete _ key => inferInstanceAs (Decidable key.IsPlain)
  | .create _ _ _ => inferInstanceAs (Decidable (_ ∧ _))
  | .savePolicy policy => inferInstanceAs (Decidable policy.key.IsPlain)
  | .updateMetadata _ _ _ _ => inferInstanceAs (Decidable (_ ∨ _))
  | .listResponses _ _ => inferInstanceAs (Decidable (_ ≠ _))
  | .patchStatus _ _ _ | .listPolicies | .listKeys _ => inferInstanceAs (Decidable True)

end Order

/-- Carries out orders one after the other, where `serve` answers a call at a step. -/
def carryOut {σ : Type} (serve : Nat → (call : StoreCall) → σ → call.Reply × σ) :
    List Order → List (Option Answer) → σ → List (Option Answer) × σ
  | [], answers, state => (answers, state)
  | order :: rest, answers, state =>
    match order.call? answers with
    | none => carryOut serve rest (answers ++ [none]) state
    | some call =>
      carryOut serve rest (answers ++ [some ⟨call, (serve answers.length call state).1⟩])
        (serve answers.length call state).2

/-- The store in memory, in some surroundings. -/
def Surroundings.memory (surroundings : Surroundings) (step : Nat) (call : StoreCall)
    (store : MemoryStore) : call.Reply × MemoryStore :=
  store.perform (surroundings.now step) (surroundings.uid step) call

/-- The store in a database that nobody else uses, in some surroundings. -/
def Surroundings.relational (surroundings : Surroundings) (step : Nat) (call : StoreCall)
    (database : Database) : call.Reply × Database :=
  (Relational.perform call).serve (surroundings.now step) (surroundings.uid step) database

/-! ### Alike calls -/

/-- **The same call up to a renaming**, in the form that an order takes. -/
inductive Counterpart (names : Renaming inner outer) : StoreCall → StoreCall → Prop
  | find (kind : Kind) {key : Key} (plain : key.IsPlain) :
    Counterpart names (.find kind key) (.find kind key)
  | create {kind : Kind} {object object' : Object kind}
    (same : Submitted inner outer object object')
    (plain : object.key.IsPlain) (free : kind.isOwned = false → object.metadata.owners = []) :
    Counterpart names (.create kind object) (.create kind object')
  | savePolicy {policy policy' : Policy} (same : Submitted inner outer policy policy')
    (plain : policy.key.IsPlain) (free : policy.metadata.owners = []) :
    Counterpart names (.savePolicy policy) (.savePolicy policy')
  | updateMetadata {kind : Kind} {object object' : Object kind}
    (same : Submitted inner outer object object')
    (version : names.Version object.metadata.version object'.metadata.version)
    (plain : object.key.IsPlain) (free : kind.isOwned = false → object.metadata.owners = []) :
    Counterpart names (.updateMetadata kind object) (.updateMetadata kind object')
  | patchStatus {kind : Kind} {base base' : Object kind} (status : kind.Status)
    (same : Renamed names base base') (plain : base.key.IsPlain) :
    Counterpart names (.patchStatus kind base status) (.patchStatus kind base' status)
  | delete (kind : Kind) {key : Key} (plain : key.IsPlain) :
    Counterpart names (.delete kind key) (.delete kind key)
  | listPolicies : Counterpart names .listPolicies .listPolicies
  | listResponses {scope : Scope} (plain : scope ≠ .namespaced "") (request : String) :
    Counterpart names (.listResponses scope request) (.listResponses scope request)
  | listKeys (kind : Kind) : Counterpart names (.listKeys kind) (.listKeys kind)

section Rel

variable {α α' β β' : Type} {R : α → β → Prop} {S : α' → β' → Prop}

theorem rel_getElem? {as : List α} {bs : List β} (h : List.Forall₂ R as bs) (i : Nat) :
    Option.Rel R as[i]? bs[i]? := by
  induction h generalizing i with
  | nil => exact .none
  | cons hfirst _ ih =>
    cases i with
    | zero => exact .some hfirst
    | succ i => exact ih i

theorem rel_imp {T : α → β → Prop} {a : Option α} {b : Option β} (h : Option.Rel R a b)
    (himp : ∀ x y, R x y → T x y) : Option.Rel T a b := by
  cases h with
  | none => exact .none
  | some hsame => exact .some (himp _ _ hsame)

theorem rel_bind {a : Option α} {b : Option β} (h : Option.Rel R a b) {f : α → Option α'}
    {g : β → Option β'} (hnext : ∀ x y, R x y → Option.Rel S (f x) (g y)) :
    Option.Rel S (a.bind f) (b.bind g) := by
  cases h with
  | none => exact .none
  | some hsame => exact hnext _ _ hsame

theorem rel_map {a : Option α} {b : Option β} (h : Option.Rel R a b) {f : α → α'} {g : β → β'}
    (hnext : ∀ x y, R x y → S (f x) (g y)) : Option.Rel S (a.map f) (b.map g) := by
  cases h with
  | none => exact .none
  | some hsame => exact .some (hnext _ _ hsame)

theorem rel_join {a : Option (Option α)} {b : Option (Option β)}
    (h : Option.Rel (Option.Rel R) a b) :
    Option.Rel R a.join b.join := by
  cases h with
  | none => exact .none
  | some hsame => exact hsame

theorem rel_mapM {f : α → Option α'} {g : α → Option β'} {as : List α}
    (h : ∀ a ∈ as, Option.Rel S (f a) (g a)) :
    Option.Rel (List.Forall₂ S) (as.mapM f) (as.mapM g) := by
  induction as with
  | nil => exact .some .nil
  | cons a rest ih =>
    rw [List.mapM_cons, List.mapM_cons]
    refine rel_bind (h a List.mem_cons_self) fun x y hfirst => ?_
    refine rel_bind (ih fun other hother => h other (List.mem_cons_of_mem _ hother)) ?_
    exact fun xs ys hothers => .some (.cons hfirst hothers)

end Rel

/-- The same answer up to a renaming, and what it gives lies under plain keys. -/
def PlainlyAlike (names : Renaming inner outer) (answer answer' : Answer) : Prop :=
  (∀ object ∈ answer.given, object.2.key.IsPlain) ∧ answer.Alike names answer'

/-- The answers so far to the same orders. -/
def Answered (names : Renaming inner outer) (answers answers' : List (Option Answer)) : Prop :=
  List.Forall₂ (Option.Rel (PlainlyAlike names)) answers answers'

variable {answers answers' : List (Option Answer)}

/-- **The same object is picked** from alike answers. -/
theorem Answered.object? (h : Answered names answers answers') (pick : Pick) :
    Option.Rel (fun object object' => object.2.key.IsPlain ∧ SameObject names object object')
      (pick.object? answers) (pick.object? answers') :=
  rel_bind (rel_join (rel_getElem? h pick.answer)) fun _ _ ⟨hplain, halike⟩ =>
    rel_getElem? ((List.forall₂_and_left _ _).2 ⟨hplain, halike.given⟩) pick.place

theorem Answered.ofKind? (h : Answered names answers answers') (pick : Pick) (kind : Kind) :
    Option.Rel (fun object object' => object.key.IsPlain ∧ Renamed names object object')
      (pick.ofKind? kind answers) (pick.ofKind? kind answers') := by
  refine rel_bind (h.object? pick) fun _ _ ⟨hplain, hsame⟩ => ?_
  cases hsame with
  | @intro other object object' hrenamed =>
    dsimp only
    by_cases hkind : other = kind
    · subst hkind
      rw [dif_pos rfl, dif_pos rfl]
      exact .some ⟨hplain, hrenamed⟩
    · rw [dif_neg hkind, dif_neg hkind]
      exact .none

/-- **The same owners are named**, and none for a kind that has no owners. -/
theorem Answered.references? (h : Answered names answers answers') {picks : List OwnerPick}
    (hfree : kind.isOwned = true ∨ picks = []) :
    Option.Rel (fun owners owners' => (kind.isOwned = false → owners = []) ∧
        List.Forall₂ (OwnerReference.Renamed inner outer) owners owners')
      (picks.mapM (OwnerPick.reference? answers)) (picks.mapM (OwnerPick.reference? answers')) := by
  rcases hfree with howned | rfl
  · have hreferences : Option.Rel (List.Forall₂ (OwnerReference.Renamed inner outer))
        (picks.mapM (OwnerPick.reference? answers))
        (picks.mapM (OwnerPick.reference? answers')) := by
      refine rel_mapM fun pick _ => rel_map (h.object? pick.owner) fun _ _ ⟨_, hsame⟩ => ?_
      cases hsame with
      | intro hrenamed => exact ⟨rfl, rfl, hrenamed.uid⟩
    refine rel_imp hreferences fun _ _ hsame => ⟨fun hnot => ?_, hsame⟩
    rw [howned] at hnot
    cases hnot
  · exact .some ⟨fun _ => rfl, .nil⟩

/-- **Alike answers make alike calls** of an order. -/
theorem Order.counterpart (h : Answered names answers answers') {order : Order}
    (hplain : order.IsPlain) :
    Option.Rel (Counterpart names) (order.call? answers) (order.call? answers') := by
  cases order with
  | find kind key => exact .some (.find kind hplain)
  | delete kind key => exact .some (.delete kind hplain)
  | listPolicies => exact .some .listPolicies
  | listResponses scope request => exact .some (.listResponses hplain request)
  | listKeys kind => exact .some (.listKeys kind)
  | savePolicy policy => exact .some (.savePolicy ⟨rfl, rfl, .nil, rfl⟩ hplain rfl)
  | patchStatus kind base status =>
    exact rel_map (h.ofKind? base kind) fun _ _ ⟨hkey, hsame⟩ => .patchStatus status hsame hkey
  | create kind object owners =>
    exact rel_map (h.references? hplain.2) fun _ _ ⟨hfree, howners⟩ =>
      .create ⟨rfl, rfl, howners, rfl⟩ hplain.1 hfree
  | updateMetadata kind base finalizers owners =>
    exact rel_bind (h.ofKind? base kind) fun _ _ ⟨hkey, hsame⟩ =>
      rel_map (h.references? hplain) fun _ _ ⟨hfree, howners⟩ =>
        .updateMetadata ⟨hsame.key, rfl, howners, hsame.body⟩ hsame.version hkey hfree

end AccessBroker
