import AccessBroker.Proofs.Cluster.Lineage
import AccessBroker.Proofs.Engine.Telling

/-!
# What is told in a run

Listeners are told by passes, one event in a move (`AccessBroker.Cluster.told`), and a run has its
tellings in order (`AccessBroker.Cluster.tellings`). Each is told of the object that the pass has
found, by whose identifier the tellings are sorted (`AccessBroker.heard`). Invariants of what is
told are inductions over the moves of a run (`AccessBroker.Cluster.run_induction`): a move either
tells something, or makes another call of a pass, or does not concern the passes
(`AccessBroker.Cluster.Fared`).
-/

namespace AccessBroker

/-! ### Tellings -/

namespace Target

/-- What a deed gives a pass on a target to tell of. -/
def news : Target → Deed passInterface → List AccessAction
  | .request _ => Request.news
  | .grant _ => Grant.news

/-- What the calls of a pass on a target have to fit. -/
def fits : Target → Effect → Prop
  | .request _ => Request.Fits
  | .grant _ => Grant.Fits

/-- How prompt a pass on a target is. -/
def Prompt (target : Target) : Conduct :=
  AccessBroker.Prompt target.kind target.key target.news target.fits

end Target

/-- What there is to tell of when an object has become another one. -/
def Object.news : {kind : Kind} → Object kind → Object kind → List AccessAction
  | .request, old, new => old.body.status.news new.body.status
  | .grant, old, new => old.body.news new.body
  | _, _, _ => []

/-- The identifier of the object of a target, where a deed has found it. -/
def Deed.uid? (target : Target) : Deed passInterface → Option String
  | ⟨.store (.find kind place), .ok (some object)⟩ =>
    if kind = target.kind ∧ place = target.key then some object.metadata.uid else none
  | _ => none

/-- The identifier of the object that a pass on a target has found. -/
def foundUid? (target : Target) (deeds : Deeds) : Option String :=
  deeds.findSome? (Deed.uid? target)

theorem foundUid?_cons {target : Target} {deed : Deed passInterface} (h : deed.uid? target = none)
    (past : Deeds) : foundUid? target (deed :: past) = foundUid? target past := by
  rw [foundUid?, List.findSome?_cons, h, foundUid?]

/-- A deed that gives something to tell of has not found anything. -/
theorem Deed.uid?_eq_none {target : Target} {deed : Deed passInterface}
    (h : target.news deed ≠ []) : deed.uid? target = none := by
  unfold Deed.uid?
  split
  · refine absurd ?_ h
    cases target <;> rfl
  · rfl

/-- What a pass has found under the key of its target has the identifier that it goes by. -/
theorem foundUid?_eq_some {target : Target} {deeds : Deeds} {uid : String}
    (h : foundUid? target deeds = some uid) :
    ∃ start : Object target.kind, Found target.key deeds start ∧ start.metadata.uid = uid := by
  obtain ⟨deed, hdeed, huid⟩ := List.exists_of_findSome?_eq_some h
  unfold Deed.uid? at huid
  split at huid
  · next kind place start =>
    split at huid
    · next hmatch =>
      obtain ⟨rfl, rfl⟩ := hmatch
      exact ⟨start, hdeed, Option.some.inj huid⟩
    · cases huid
  · cases huid

/-- An event that listeners were told of, or would have been if they had not failed. -/
structure Telling where
  /-- What the pass works on that tells. -/
  target : Target
  /-- The identifier of the object that it has found. -/
  uid : Option String
  event : AccessEvent

/-- What was told of an object, in order. -/
def heard (tellings : List Telling) (target : Target) (uid : String) : List AccessAction :=
  tellings.filterMap fun telling =>
    if telling.target = target ∧ telling.uid = some uid then some telling.event.action else none

theorem heard_append (first second : List Telling) (target : Target) (uid : String) :
    heard (first ++ second) target uid = heard first target uid ++ heard second target uid :=
  List.filterMap_append ..

namespace Cluster

variable {rules : Rules} {cluster next : Cluster} {target : Target} {move : Move}

/-- What a move tells. -/
def told (cluster : Cluster) : Move → List Telling
  | .answer pass _ | .refuse pass _ =>
    match cluster.journals[pass]? with
    | some ⟨target, past, .ask (.tell event) _⟩ => [⟨target, foundUid? target past, event⟩]
    | _ => []
  | .clock _ | .publish _ | .user _ _ | .start _ => []

/-- What is told in the course of some moves, in order. -/
def tellings (rules : Rules) (cluster : Cluster) : List Move → List Telling
  | [] => []
  | first :: rest =>
    cluster.told first ++
      ((cluster.move rules first).map fun next => next.tellings rules rest).getD []

/-! ### Runs, move by move -/

theorem tellings_append {moves : List Move} (more : List Move)
    (h : cluster.run rules moves = some next) :
    cluster.tellings rules (moves ++ more) =
      cluster.tellings rules moves ++ next.tellings rules more := by
  induction moves generalizing cluster with
  | nil =>
    obtain rfl := Option.some.inj h
    rfl
  | cons first rest ih =>
    obtain ⟨between, hfirst, hrest⟩ := Option.bind_eq_some_iff.1 h
    rw [List.cons_append, tellings, tellings, hfirst, Option.map_some, Option.map_some,
      Option.getD_some, Option.getD_some, ih hrest, List.append_assoc]

/-- **A run goes on by one move.** -/
theorem run_induction {P : List Move → Cluster → Prop} (hstart : P [] {})
    (hstep : ∀ {moves : List Move} {cluster next : Cluster} {move : Move},
      ({} : Cluster).run rules moves = some cluster → cluster.move rules move = some next →
      P moves cluster → P (moves ++ [move]) next)
    {moves : List Move} (hrun : ({} : Cluster).run rules moves = some cluster) :
    P moves cluster := by
  -- What has been done so far grows by the first of the moves that are still to come.
  suffices ∀ done between, ({} : Cluster).run rules done = some between → P done between →
      between.run rules moves = some cluster → P (done ++ moves) cluster from
    this [] {} rfl hstart hrun
  clear hrun hstart
  induction moves with
  | nil =>
    intro done between _ hdone hrun
    obtain rfl := Option.some.inj hrun
    rwa [List.append_nil]
  | cons first rest ih =>
    intro done between hbetween hdone hrun
    obtain ⟨after, hfirst, hrest⟩ := Option.bind_eq_some_iff.1 hrun
    rw [List.append_cons]
    refine ih (done ++ [first]) after ?_ (hstep hbetween hfirst hdone) hrest
    rw [run_append, hbetween, Option.bind_some, run, hfirst, Option.bind_some, run]

theorem tellings_snoc {moves : List Move}
    (hrun : ({} : Cluster).run rules moves = some cluster)
    (hmove : cluster.move rules move = some next) :
    ({} : Cluster).tellings rules (moves ++ [move]) =
      ({} : Cluster).tellings rules moves ++ cluster.told move := by
  rw [tellings_append _ hrun, tellings, hmove, Option.map_some, Option.getD_some, tellings,
    List.append_nil]

/-- What a move tells, and what it makes of the journals. -/
inductive Fared (cluster next : Cluster) : List Telling → Prop
  /-- No pass is concerned. -/
  | aside (journals : next.journals = cluster.journals) : Fared cluster next []
  /-- A pass has been started. -/
  | started (target : Target) (journals : next.journals = cluster.journals ++ [.opening target]) :
    Fared cluster next []
  /-- A pass has told of an event. -/
  | told {place : Nat} {target : Target} {past : Deeds} {event : AccessEvent}
    {rest : Except Failure Unit → Steps (Except Failure Outcome)} (reply : Except Failure Unit)
    (current : cluster.journals[place]? = some ⟨target, past, .ask (.tell event) rest⟩)
    (journals : next.journals =
      cluster.journals.set place ⟨target, ⟨.tell event, reply⟩ :: past, rest reply⟩) :
    Fared cluster next [⟨target, foundUid? target past, event⟩]
  /-- A pass has made another call. -/
  | acted {place : Nat} {target : Target} {past : Deeds} {effect : Effect}
    {rest : passInterface.Reply effect → Steps (Except Failure Outcome)}
    (reply : passInterface.Reply effect) (silent : ∀ event, effect ≠ .tell event)
    (current : cluster.journals[place]? = some ⟨target, past, .ask effect rest⟩)
    (journals : next.journals =
      cluster.journals.set place ⟨target, ⟨effect, reply⟩ :: past, rest reply⟩) :
    Fared cluster next []

/-- A pass that is answered tells of an event, or makes another call. -/
theorem fared_of_current {place : Nat} {target : Target} {past : Deeds} {effect : Effect}
    {rest : passInterface.Reply effect → Steps (Except Failure Outcome)}
    (reply : passInterface.Reply effect)
    (hcurrent : cluster.journals[place]? = some ⟨target, past, .ask effect rest⟩)
    (hjournals : next.journals =
      cluster.journals.set place ⟨target, ⟨effect, reply⟩ :: past, rest reply⟩) :
    Fared cluster next (match cluster.journals[place]? with
      | some ⟨target, past, .ask (.tell event) _⟩ => [⟨target, foundUid? target past, event⟩]
      | _ => []) := by
  rw [hcurrent]
  cases effect with
  | tell event => exact .told reply hcurrent hjournals
  | store call => exact .acted reply nofun hcurrent hjournals
  | policies => exact .acted reply nofun hcurrent hjournals
  | clock => exact .acted reply nofun hcurrent hjournals
  | freshId => exact .acted reply nofun hcurrent hjournals

/-- **What a move tells**, and who tells it. -/
theorem fared_of_move (h : cluster.move rules move = some next) :
    Fared cluster next (cluster.told move) := by
  cases move with
  | clock now =>
    cases h
    exact .aside rfl
  | publish policies =>
    cases h
    exact .aside rfl
  | user call id =>
    simp only [Cluster.move] at h
    split at h
    · obtain ⟨⟨reply, after⟩, hperform, rfl⟩ := Option.map_eq_some_iff.1 h
      obtain ⟨store, issued, rfl, -⟩ := calls_of_perform hperform
      exact .aside rfl
    · cases h
  | start target =>
    simp only [Cluster.move] at h
    split at h
    · cases h
      exact .started target rfl
    · cases h
  | answer pass id =>
    simp only [Cluster.move] at h
    split at h
    · next target past effect rest hcurrent =>
      obtain ⟨⟨reply, after⟩, hanswer, rfl⟩ := Option.map_eq_some_iff.1 h
      obtain ⟨store, issued, rfl, -⟩ := @served_of_answer rules _ _ _ _ _ hanswer
      exact fared_of_current reply hcurrent rfl
    · cases h
  | refuse pass failure =>
    simp only [Cluster.move] at h
    split at h
    · next target past effect rest hcurrent =>
      split at h
      · obtain ⟨reply, -, rfl⟩ := Option.map_eq_some_iff.1 h
        exact fared_of_current reply hcurrent rfl
      · cases h
    · cases h

/-! ### Who acts in a move -/

/-- A pass that acts has not done so before. -/
theorem Acts.journal_ne {place : Nat} {past : Deeds} {call : StoreCall}
    {reply : call.Reply} (h : Acts cluster next place target past call reply) :
    next.journals[place]? ≠ cluster.journals[place]? := by
  obtain ⟨rest, hcurrent, hafter⟩ := h
  intro hsame
  rw [hcurrent, hafter] at hsame
  have hdeeds := congrArg (·.deeds.length) (Option.some.inj hsame)
  simp at hdeeds

theorem Acts.place_lt {place : Nat} {past : Deeds} {call : StoreCall}
    {reply : call.Reply} (h : Acts cluster next place target past call reply) :
    place < cluster.journals.length := by
  obtain ⟨rest, hcurrent, -⟩ := h
  exact (List.getElem?_eq_some_iff.1 hcurrent).1

/-- What makes a difference to the journals is one deed. -/
theorem Acts.eq_of_set {place acted : Nat} {past : Deeds} {call : StoreCall}
    {reply : call.Reply} {later : Journal}
    (h : Acts cluster next place target past call reply)
    (hjournals : next.journals = cluster.journals.set acted later) :
    acted = place ∧ later.deeds = .ofCall call reply :: past := by
  have hsame : acted = place := by
    refine Decidable.byContradiction fun hother => h.journal_ne ?_
    rw [hjournals, List.getElem?_set, if_neg hother]
  subst hsame
  have hacted := h.place_lt
  obtain ⟨rest, -, hafter⟩ := h
  rw [hjournals, List.getElem?_set, if_pos rfl, if_pos hacted] at hafter
  rw [Option.some.inj hafter]
  exact ⟨rfl, rfl⟩

/-- A call of a pass is made, or the move refuses it. -/
theorem Acts.performed_or_refused {place : Nat} {past : Deeds} {call : StoreCall}
    {reply : call.Reply} (h : Acts cluster next place target past call reply)
    (hmove : cluster.move rules move = some next) :
    (∃ id, MemoryStore.Performed cluster.now id cluster.store call reply next.store) ∨
      ∃ failure, move = .refuse place failure ∧ reply = Except.error failure ∧
        next.store = cluster.store := by
  obtain ⟨rest, hcurrent, -⟩ := id h
  cases move with
  | clock | publish =>
    cases hmove
    exact absurd rfl h.journal_ne
  | user other id =>
    simp only [Cluster.move] at hmove
    split at hmove
    · obtain ⟨⟨answer, after⟩, hperform, rfl⟩ := Option.map_eq_some_iff.1 hmove
      obtain ⟨store, issued, rfl, -⟩ := calls_of_perform hperform
      exact absurd rfl h.journal_ne
    · cases hmove
  | start other =>
    simp only [Cluster.move] at hmove
    split at hmove
    · cases hmove
      exact absurd (List.getElem?_append_left h.place_lt) h.journal_ne
    · cases hmove
  | answer pass id =>
    simp only [Cluster.move] at hmove
    split at hmove
    · next acting past' effect rest' hpass =>
      obtain ⟨⟨answer, after⟩, hanswer, rfl⟩ := Option.map_eq_some_iff.1 hmove
      obtain ⟨store, issued, rfl, -⟩ := @served_of_answer rules _ _ _ _ _ hanswer
      obtain ⟨-, hdeeds⟩ := h.eq_of_set rfl
      cases (List.cons.inj hdeeds).1
      obtain ⟨store', issued', hafter, hcalls⟩ := calls_of_perform hanswer
      obtain rfl : store = store' := congrArg Cluster.store hafter
      exact .inl ⟨id, hcalls.performed⟩
    · cases hmove
  | refuse pass failure =>
    simp only [Cluster.move] at hmove
    split at hmove
    · next acting past' effect rest' hpass =>
      split at hmove
      · obtain ⟨answer, hanswer, rfl⟩ := Option.map_eq_some_iff.1 hmove
        obtain ⟨rfl, hdeeds⟩ := h.eq_of_set rfl
        cases (List.cons.inj hdeeds).1
        obtain rfl := Option.some.inj hanswer
        exact .inr ⟨failure, rfl, rfl, rfl⟩
      · cases hmove
    · cases hmove

end Cluster

/-- A pass goes by the identifier of what it has found. -/
theorem Journal.Orderly.foundUid?_eq {journal : Journal} (h : journal.Orderly)
    {start : Object journal.target.kind}
    (hfound : Found journal.target.key journal.deeds start) :
    foundUid? journal.target journal.deeds = some start.metadata.uid := by
  cases hresult : foundUid? journal.target journal.deeds with
  | none =>
    have hnone := List.findSome?_eq_none_iff.1 hresult _ hfound
    simp [Deed.uid?] at hnone
  | some uid =>
    obtain ⟨other, hother, rfl⟩ := foundUid?_eq_some hresult
    rw [h.found_unique hfound hother]

end AccessBroker
