import AccessBroker.Proofs.Cluster.Tellings

/-!
# Ledgers

What has been told of an object, and what the pass that is under way on it has still to tell, make
up its *ledger* (`AccessBroker.Cluster.ledger`). Telling takes an action from the one part to the
other and leaves the ledger as it is. So nothing but the calls of a pass on the object itself adds
to the ledger, and they add their news at the end (`AccessBroker.Cluster.Reachable.ledger_step`):
whatever is to be shown of the tellings has to be shown of these calls alone.

Of these calls, one writes a status, and then the stored object has become another one, which is the
news (`AccessBroker.Cluster.wrote_of_mem_runLedger`); the other one removes a grant.
-/

namespace AccessBroker

/-! ### Passes are prompt -/

namespace Journal

variable {journal : Journal}

/-- The pass goes on to be prompt. -/
def IsPrompt (journal : Journal) : Prop :=
  journal.rest.Obeys journal.target.Prompt (fun later _ => due journal.target.news later = [])
    journal.deeds

theorem isPrompt_opening (target : Target) : (opening target).IsPrompt := by
  cases target with
  | request key => exact Request.reconcile_prompt key
  | grant key => exact Grant.reconcile_prompt key

/-- Nothing is left to tell of when a pass has ended. -/
theorem IsPrompt.due_of_isOver (h : journal.IsPrompt) (hover : journal.isOver = true) :
    due journal.target.news journal.deeds = [] := by
  obtain ⟨target, deeds, rest⟩ := journal
  cases rest with
  | done value => exact h
  | ask effect rest => cases hover

/-- What a pass has still to tell of an object. -/
def owes (journal : Journal) (target : Target) (uid : String) : List AccessAction :=
  if journal.target = target ∧ foundUid? target journal.deeds = some uid then
    due target.news journal.deeds
  else []

theorem owes_eq_nil {target : Target} {uid : String}
    (h : journal.target = target → due target.news journal.deeds = []) :
    journal.owes target uid = [] := by
  unfold owes
  split
  · next hmatch => exact h hmatch.1
  · rfl

end Journal

namespace Cluster

variable {rules : Rules} {cluster next : Cluster} {target : Target} {uid : String}
  {moves : List Move} {move : Move}

/-- **In every run, every pass is prompt.** -/
theorem Reachable.prompt (h : Reachable rules cluster) {place : Nat} {journal : Journal}
    (hjournal : cluster.journals[place]? = some journal) : journal.IsPrompt :=
  (h.keeps (Journal.isPrompt_opening _) hjournal rfl).2

/-! ### Ledgers -/

/-- What passes have still to tell of an object. -/
def owed (cluster : Cluster) (target : Target) (uid : String) : List AccessAction :=
  cluster.journals.flatMap (·.owes target uid)

/-- What was told of an object, and what is still to be told. -/
def ledger (cluster : Cluster) (tellings : List Telling) (target : Target) (uid : String) :
    List AccessAction :=
  heard tellings target uid ++ cluster.owed target uid

/-- Where one journal alone owes anything, that is what is owed. -/
theorem owed_eq {place : Nat} {journal : Journal}
    (hjournal : cluster.journals[place]? = some journal)
    (hothers : ∀ (other : Nat) (journal' : Journal), other ≠ place →
      cluster.journals[other]? = some journal' → journal'.owes target uid = []) :
    cluster.owed target uid = journal.owes target uid := by
  unfold owed
  generalize cluster.journals = journals at hjournal hothers
  induction journals generalizing place with
  | nil => cases hjournal
  | cons first rest ih =>
    rw [List.flatMap_cons]
    cases place with
    | zero =>
      obtain rfl := Option.some.inj hjournal
      have hrest : rest.flatMap (·.owes target uid) = [] := by
        refine List.flatMap_eq_nil_iff.2 fun journal' hmem => ?_
        obtain ⟨other, hother⟩ := List.getElem?_of_mem hmem
        exact hothers (other + 1) journal' (Nat.succ_ne_zero other) hother
      rw [hrest, List.append_nil]
    | succ place =>
      rw [hothers 0 first (Nat.succ_ne_zero place).symm rfl, List.nil_append]
      exact ih hjournal fun other journal' hother =>
        hothers (other + 1) journal' fun heq => hother (Nat.succ.inj heq)

/-- While a pass is under way, no other one on its target has anything to tell. -/
theorem Reachable.owes_eq_nil (h : Reachable rules cluster) (hrules : rules.overlap = false)
    {place other : Nat} {journal journal' : Journal}
    (hjournal : cluster.journals[place]? = some journal) (hover : journal.isOver = false)
    (hother : other ≠ place) (hjournal' : cluster.journals[other]? = some journal') :
    journal'.owes journal.target uid = [] := by
  refine Journal.owes_eq_nil fun htarget => ?_
  rw [← htarget]
  refine (h.prompt hjournal').due_of_isOver (Decidable.byContradiction fun hunder => ?_)
  exact hother (h.exclusive hrules _ _ _ _ hjournal' hjournal htarget
    (Bool.eq_false_iff.2 hunder) hover)

/-- Where a pass owes as much as before, as much is owed as before. -/
theorem owed_of_set {place : Nat} {journal later : Journal}
    (hjournal : cluster.journals[place]? = some journal)
    (hjournals : next.journals = cluster.journals.set place later)
    (hsame : later.owes target uid = journal.owes target uid) :
    next.owed target uid = cluster.owed target uid := by
  obtain ⟨hplace, rfl⟩ := List.getElem?_eq_some_iff.1 hjournal
  have hlength : place < (cluster.journals.map fun journal => journal.owes target uid).length := by
    rwa [List.length_map]
  have howes := List.getElem_map (fun journal : Journal => journal.owes target uid) (h := hlength)
  unfold owed
  rw [hjournals, List.flatMap_def, List.flatMap_def, List.map_set, hsame, ← howes,
    List.set_getElem_self]

/-- While a pass is under way, and after its next deed, it alone has anything to tell. -/
theorem Reachable.owed_of_underWay (h : Reachable rules cluster) (hrules : rules.overlap = false)
    (uid : String) {place : Nat} {journal later : Journal}
    (hjournal : cluster.journals[place]? = some journal)
    (hover : journal.isOver = false)
    (hjournals : next.journals = cluster.journals.set place later) :
    cluster.owed journal.target uid = journal.owes journal.target uid ∧
      next.owed journal.target uid = later.owes journal.target uid := by
  have hplace := (List.getElem?_eq_some_iff.1 hjournal).1
  have hothers (other : Nat) (journal' : Journal) (hother : other ≠ place)
      (hjournal' : cluster.journals[other]? = some journal') :
      journal'.owes journal.target uid = [] :=
    h.owes_eq_nil hrules hjournal hover hother hjournal'
  have hlater : next.journals[place]? = some later := by
    rw [hjournals, List.getElem?_set, if_pos rfl, if_pos hplace]
  refine ⟨owed_eq hjournal hothers, owed_eq hlater fun other journal' hother hjournal' => ?_⟩
  rw [hjournals, List.getElem?_set, if_neg hother.symm] at hjournal'
  exact hothers other journal' hother hjournal'

/-- **Telling leaves the ledger as it is.** -/
theorem Reachable.ledger_of_told (h : Reachable rules cluster) (hrules : rules.overlap = false)
    (tellings : List Telling) {place : Nat} {acting : Target} {past : Deeds} {event : AccessEvent}
    {rest : Except Failure Unit → Steps (Except Failure Outcome)} {reply : Except Failure Unit}
    (hcurrent : cluster.journals[place]? = some ⟨acting, past, .ask (.tell event) rest⟩)
    (hjournals : next.journals =
      cluster.journals.set place ⟨acting, ⟨.tell event, reply⟩ :: past, rest reply⟩) :
    next.ledger (tellings ++ [⟨acting, foundUid? acting past, event⟩]) target uid =
      cluster.ledger tellings target uid := by
  have hfound : foundUid? acting (⟨.tell event, reply⟩ :: past) = foundUid? acting past := rfl
  have hdue : due acting.news (⟨.tell event, reply⟩ :: past) = (due acting.news past).tail := rfl
  unfold ledger
  rw [heard_append, List.append_assoc]
  congr 1
  by_cases hmatch : acting = target ∧ foundUid? acting past = some uid
  · obtain ⟨rfl, huid⟩ := hmatch
    obtain ⟨hbefore, hafter⟩ := h.owed_of_underWay hrules uid hcurrent rfl hjournals
    have hheard : heard [⟨acting, foundUid? acting past, event⟩] acting uid = [event.action] := by
      simp [heard, huid]
    -- What is told is what was due first.
    have hhead : (due acting.news past).head? = some event.action := (h.prompt hcurrent).1.1
    rw [hheard, hbefore, hafter, Journal.owes, Journal.owes, if_pos ⟨rfl, hfound.trans huid⟩,
      if_pos ⟨rfl, huid⟩, hdue]
    obtain ⟨rest, hrest⟩ := List.head?_eq_some_iff.1 hhead
    rw [hrest]
    rfl
  · have hheard : heard [⟨acting, foundUid? acting past, event⟩] target uid = [] := by
      simp [heard, hmatch]
    rw [hheard, List.nil_append]
    refine owed_of_set hcurrent hjournals ?_
    have hmatch' : ¬(acting = target ∧ foundUid? target past = some uid) := by
      rintro ⟨rfl, huid⟩
      exact hmatch ⟨rfl, huid⟩
    rw [Journal.owes, Journal.owes, if_neg hmatch', if_neg]
    rintro ⟨rfl, huid⟩
    exact hmatch ⟨rfl, huid⟩

/-- **Any other deed** adds its news to the ledger of the object that the pass has found. -/
theorem Reachable.ledger_of_acted (h : Reachable rules cluster) (hrules : rules.overlap = false)
    (tellings : List Telling) (target : Target) (uid : String) {place : Nat} {acting : Target}
    {past : Deeds} {effect : Effect}
    {rest : passInterface.Reply effect → Steps (Except Failure Outcome)}
    {reply : passInterface.Reply effect} (hsilent : ∀ event, effect ≠ .tell event)
    (hcurrent : cluster.journals[place]? = some ⟨acting, past, .ask effect rest⟩)
    (hjournals : next.journals =
      cluster.journals.set place ⟨acting, ⟨effect, reply⟩ :: past, rest reply⟩) :
    next.ledger tellings target uid = cluster.ledger tellings target uid ++
      if acting = target ∧ foundUid? target past = some uid then target.news ⟨effect, reply⟩
      else [] := by
  have hdue : due acting.news past = [] :=
    ((prompt_iff_of_silent hsilent).1 (h.prompt hcurrent).1).1
  have hlater : due acting.news (⟨effect, reply⟩ :: past) = acting.news ⟨effect, reply⟩ := by
    rw [due_cons hsilent, hdue, List.append_nil]
  have hbefore : Journal.owes ⟨acting, past, .ask effect rest⟩ target uid = [] := by
    refine Journal.owes_eq_nil ?_
    rintro rfl
    exact hdue
  unfold ledger
  rw [List.append_assoc]
  congr 1
  by_cases htarget : acting = target
  · subst htarget
    obtain ⟨hnone, hafter⟩ := h.owed_of_underWay hrules uid hcurrent rfl hjournals
    rw [hnone, hbefore, hafter, List.nil_append, Journal.owes, hlater]
    by_cases hnews : acting.news ⟨effect, reply⟩ = []
    · rw [hnews, ite_self, ite_self]
    · rw [foundUid?_cons (Deed.uid?_eq_none hnews)]
  · rw [if_neg fun hmatch => htarget hmatch.1, List.append_nil]
    refine owed_of_set hcurrent hjournals ?_
    rw [hbefore]
    exact Journal.owes_eq_nil fun heq => absurd heq htarget

/-- **A call of a pass** adds its news to the ledger of the object that the pass has found. -/
theorem Reachable.ledger_of_acts (h : Reachable rules cluster) (hrules : rules.overlap = false)
    (hmove : cluster.move rules move = some next) (tellings : List Telling)
    {place : Nat} {past : Deeds} {call : StoreCall} {reply : call.Reply}
    (hacts : Acts cluster next place target past call reply)
    (hfound : foundUid? target past = some uid) :
    next.ledger (tellings ++ cluster.told move) target uid =
      cluster.ledger tellings target uid ++ target.news (.ofCall call reply) := by
  have hfared := fared_of_move hmove
  generalize cluster.told move = told at hfared
  cases hfared with
  | aside hjournals => exact absurd (by rw [hjournals]) hacts.journal_ne
  | started _ hjournals =>
    exact absurd (by rw [hjournals, List.getElem?_append_left hacts.place_lt]) hacts.journal_ne
  | told reply hcurrent hjournals =>
    obtain ⟨rfl, hdeeds⟩ := hacts.eq_of_set hjournals
    cases (List.cons.inj hdeeds).1
  | acted answer hsilent hcurrent hjournals =>
    obtain ⟨rfl, hdeeds⟩ := hacts.eq_of_set hjournals
    obtain ⟨rest, hbefore, -⟩ := id hacts
    obtain ⟨rfl, hpast⟩ := Journal.mk.inj (Option.some.inj (hcurrent.symm.trans hbefore))
    obtain ⟨hdeed, rfl⟩ := List.cons.inj hdeeds
    rw [List.append_nil, h.ledger_of_acted hrules tellings _ uid hsilent hcurrent hjournals,
      if_pos ⟨rfl, hfound⟩, hdeed]

/-- **Nothing but the calls of a pass on an object adds to the ledger of the object**, and a call
adds its news at the end. -/
theorem Reachable.ledger_step (h : Reachable rules cluster) (hrules : rules.overlap = false)
    (hmove : cluster.move rules move = some next) (tellings : List Telling)
    (target : Target) (uid : String) :
    next.ledger (tellings ++ cluster.told move) target uid = cluster.ledger tellings target uid ∨
      ∃ (place : Nat) (past : Deeds) (call : StoreCall) (reply : call.Reply),
        Acts cluster next place target past call reply ∧ foundUid? target past = some uid ∧
        target.news (.ofCall call reply) ≠ [] ∧
        next.ledger (tellings ++ cluster.told move) target uid =
          cluster.ledger tellings target uid ++ target.news (.ofCall call reply) := by
  have hfared := fared_of_move hmove
  generalize cluster.told move = told at hfared
  cases hfared with
  | aside hjournals =>
    refine .inl ?_
    rw [ledger, owed, hjournals, List.append_nil]
    rfl
  | started other hjournals =>
    refine .inl ?_
    have hopening : (Journal.opening other).owes target uid = [] := by
      exact Journal.owes_eq_nil fun _ => rfl
    rw [ledger, owed, hjournals, List.append_nil, List.flatMap_append, List.flatMap_cons, hopening]
    simp [ledger, owed]
  | told reply hcurrent hjournals =>
    exact .inl (h.ledger_of_told hrules tellings hcurrent hjournals)
  | @acted place acting past effect rest reply hsilent hcurrent hjournals =>
    have hledger := h.ledger_of_acted hrules tellings target uid hsilent hcurrent hjournals
    rw [List.append_nil]
    split at hledger
    · next hmatch =>
      obtain ⟨rfl, hfound⟩ := hmatch
      by_cases hnews : acting.news ⟨effect, reply⟩ = []
      · rw [hnews, List.append_nil] at hledger
        exact .inl hledger
      · have hplace := (List.getElem?_eq_some_iff.1 hcurrent).1
        have hafter :
            next.journals[place]? = some ⟨acting, ⟨effect, reply⟩ :: past, rest reply⟩ := by
          rw [hjournals, List.getElem?_set, if_pos rfl, if_pos hplace]
        cases effect with
        | store call =>
          exact .inr ⟨place, past, call, reply, ⟨rest, hcurrent, hafter⟩, hfound, hnews, hledger⟩
        | tell event => exact absurd rfl (hsilent event)
        | policies | clock | freshId => exact absurd (by cases acting <;> rfl) hnews
    · rw [List.append_nil] at hledger
      exact .inl hledger

/-! ### What adds to a ledger -/

/-- What gives something to tell of is a status that was written, or the removal of a grant. -/
inductive Newsworthy (target : Target) : (call : StoreCall) → call.Reply → Prop
  /-- The status of the object is another one. -/
  | written {base updated : Object target.kind} {status : target.kind.Status}
    (news : target.news (.ofCall (.patchStatus target.kind base status) (.ok updated)) =
      base.news updated) :
    Newsworthy target (.patchStatus target.kind base status) (.ok updated)
  /-- The grant is removed, or missing. -/
  | discarded {key : Key} {reply : Except Failure Unit} (grant : target.kind = .grant)
    (news : target.news (.ofCall (.delete .grant key) reply) = [.grantExpired])
    (settled : ∀ failure, reply = .error failure → failure.isNotFound = true) :
    Newsworthy target (.delete .grant key) reply

theorem newsworthy_of_news {call : StoreCall} {reply : call.Reply}
    (h : target.news (.ofCall call reply) ≠ []) : Newsworthy target call reply := by
  cases target with
  | request key =>
    change Request.news _ ≠ [] at h
    unfold Request.news at h
    split at h
    · next heq =>
      cases heq
      exact .written rfl
    · exact absurd rfl h
  | grant key =>
    change Grant.news _ ≠ [] at h
    unfold Grant.news at h
    split at h
    · next heq =>
      cases heq
      exact .written rfl
    · next heq =>
      cases heq
      exact .discarded rfl rfl nofun
    · next failure heq =>
      cases heq
      split at h
      · next hmissing =>
        refine .discarded rfl (if_pos hmissing) ?_
        rintro _ ⟨⟩
        exact hmissing
      · exact absurd rfl h
    · exact absurd rfl h

/-- A pass on a target bases what it writes on the object that it has secured. -/
theorem secured_of_allowed {past : Deeds} {base : Object target.kind}
    {status : target.kind.Status}
    (h : target.conduct past (.store (.patchStatus target.kind base status))) :
    ∃ start : Object target.kind, Secured target.key past start base := by
  cases target with
  | request key =>
    cases h with
    | write hunderway => exact ⟨_, hunderway.secured⟩
  | grant key =>
    cases h with
    | record htended => exact ⟨_, htended.secured⟩

/-- What a pass goes by is the identifier of the object that it has secured. -/
theorem Reachable.uid_of_secured (h : Reachable rules cluster) {place : Nat} {past : Deeds}
    {rest : AccessBroker.Steps (Except Failure Outcome)} {start object : Object target.kind}
    (hjournal : cluster.journals[place]? = some ⟨target, past, rest⟩)
    (hsecured : Secured target.key past start object) (hfound : foundUid? target past = some uid) :
    object.metadata.uid = uid := by
  have huid := (h.orderly _ _ hjournal).foundUid?_eq hsecured.found
  rw [(h.faithful hjournal hsecured).uid]
  exact Option.some.inj (huid.symm.trans hfound)

/-- **A status that was written** has become that of the object that the pass has found. -/
theorem Reachable.stored_of_written (h : Reachable rules cluster)
    (hmoved : Moved rules cluster next)
    {place : Nat} {past : Deeds} {base updated : Object target.kind} {status : target.kind.Status}
    (hacts : Acts cluster next place target past (.patchStatus target.kind base status)
      (.ok updated))
    (hfound : foundUid? target past = some uid) :
    cluster.store.find? target.kind target.key = some base ∧
      next.store.find? target.kind target.key = some updated ∧
      base.metadata.uid = uid ∧ ∃ version, updated = base.patched status version := by
  obtain ⟨rest, hcurrent, -⟩ := id hacts
  obtain ⟨start, hsecured⟩ := secured_of_allowed (h.orderly _ _ hcurrent).allowed
  have huid := h.uid_of_secured hcurrent hsecured hfound
  obtain ⟨hkey, hshown⟩ := hacts.secured h hsecured
  have hserved := hacts.served hmoved
  generalize next.issued = issued at hserved
  generalize next.store = store at hserved ⊢
  cases hserved with
  | performed hcalls =>
    obtain ⟨old, hold, hversion, rfl, hstored⟩ := hcalls.performed.of_patchStatus
    obtain rfl := h.sound.recent base old hshown hold hversion
    rw [Object.key_patched, hkey] at hstored
    rw [hkey] at hold
    exact ⟨hold, hstored, huid, _, rfl⟩

/-- What is found has an identifier that was given out. -/
theorem Reachable.issued_of_found (h : Reachable rules cluster) {place : Nat} {journal : Journal}
    (hjournal : cluster.journals[place]? = some journal)
    (hfound : foundUid? journal.target journal.deeds = some uid) : uid ∈ cluster.issued := by
  obtain ⟨start, hstart, rfl⟩ := foundUid?_eq_some hfound
  exact h.sound.issued start (shown_of_found hjournal hstart)

/-- What was told of an object in a run, and what is still to be told. -/
def runLedger (rules : Rules) (moves : List Move) (cluster : Cluster) (target : Target)
    (uid : String) : List AccessAction :=
  cluster.ledger (({} : Cluster).tellings rules moves) target uid

theorem runLedger_snoc (hrun : ({} : Cluster).run rules moves = some cluster)
    (hmove : cluster.move rules move = some next) :
    runLedger rules (moves ++ [move]) next target uid =
      next.ledger (({} : Cluster).tellings rules moves ++ cluster.told move) target uid := by
  rw [runLedger, tellings_snoc hrun hmove]

/-- **How a ledger goes on**: as it is, or with the news of a call of a pass on the object. -/
theorem runLedger_step (hrules : rules.overlap = false)
    (hrun : ({} : Cluster).run rules moves = some cluster)
    (hmove : cluster.move rules move = some next) (target : Target) (uid : String) :
    runLedger rules (moves ++ [move]) next target uid = runLedger rules moves cluster target uid ∨
      ∃ (place : Nat) (past : Deeds) (call : StoreCall) (reply : call.Reply),
        Acts cluster next place target past call reply ∧ foundUid? target past = some uid ∧
        Newsworthy target call reply ∧
        runLedger rules (moves ++ [move]) next target uid =
          runLedger rules moves cluster target uid ++ target.news (.ofCall call reply) := by
  rw [runLedger_snoc hrun hmove]
  rcases (reachable_of_run .start hrun).ledger_step hrules hmove _ target uid with
    hsame | ⟨place, past, call, reply, hacts, hfound, hnews, hadded⟩
  · exact .inl hsame
  · exact .inr ⟨place, past, call, reply, hacts, hfound, newsworthy_of_news hnews, hadded⟩

/-- **Nothing is told of an object that has not been stored.** -/
theorem runLedger_unissued (hrules : rules.overlap = false)
    (hrun : ({} : Cluster).run rules moves = some cluster) (hfresh : uid ∉ cluster.issued) :
    runLedger rules moves cluster target uid = [] := by
  revert hfresh
  refine run_induction (P := fun moves cluster => uid ∉ cluster.issued →
    runLedger rules moves cluster target uid = []) (fun _ => rfl) ?_ hrun
  intro moves cluster next move hrun hmove ih hfresh
  have hreachable := reachable_of_run .start hrun
  have hearlier : uid ∉ cluster.issued :=
    fun hissued => hfresh ((moved_of_move hmove).issued_subset hissued)
  rcases runLedger_step hrules hrun hmove target uid with
    hsame | ⟨place, past, call, reply, ⟨rest, hcurrent, -⟩, hfound, -⟩
  · exact hsame.trans (ih hearlier)
  · exact absurd (hreachable.issued_of_found hcurrent hfound) hearlier

theorem runLedger_fresh (hrules : rules.overlap = false)
    (hrun : ({} : Cluster).run rules moves = some cluster)
    (hmove : cluster.move rules move = some next) (hfresh : uid ∉ cluster.issued) :
    runLedger rules (moves ++ [move]) next target uid = [] := by
  rcases runLedger_step hrules hrun hmove target uid with
    hsame | ⟨place, past, call, reply, ⟨rest, hcurrent, -⟩, hfound, -⟩
  · exact hsame.trans (runLedger_unissued hrules hrun hfresh)
  · exact absurd ((reachable_of_run .start hrun).issued_of_found hcurrent hfound) hfresh

/-! ### News that have been written -/

/-- The stored object of a target has become another one, which is news. -/
def MakesNews (cluster next : Cluster) (target : Target) (uid : String) (action : AccessAction) :
    Prop :=
  ∃ old new : Object target.kind, cluster.store.find? target.kind target.key = some old ∧
    next.store.find? target.kind target.key = some new ∧ old.metadata.uid = uid ∧
    new.metadata.uid = uid ∧ action ∈ old.news new

/-- Some move of a run has made news. -/
def Wrote (rules : Rules) (moves : List Move) (target : Target) (uid : String)
    (action : AccessAction) : Prop :=
  ∃ (earlier later : List Move) (move : Move) (cluster next : Cluster),
    moves = earlier ++ move :: later ∧ ({} : Cluster).run rules earlier = some cluster ∧
    cluster.move rules move = some next ∧ cluster.MakesNews next target uid action

theorem Wrote.snoc {action : AccessAction} (h : Wrote rules moves target uid action) (move : Move) :
    Wrote rules (moves ++ [move]) target uid action := by
  obtain ⟨earlier, later, writing, cluster, next, rfl, hwrites⟩ := h
  exact ⟨earlier, later ++ [move], writing, cluster, next, List.append_assoc .., hwrites⟩

/-- **All there is to tell of has been written**, save that a grant has expired. -/
theorem wrote_of_mem_runLedger (hrules : rules.overlap = false)
    (hrun : ({} : Cluster).run rules moves = some cluster) {action : AccessAction}
    (h : action ∈ runLedger rules moves cluster target uid) (hlast : action ≠ .grantExpired) :
    Wrote rules moves target uid action := by
  revert h
  refine run_induction (P := fun moves cluster =>
    action ∈ runLedger rules moves cluster target uid → Wrote rules moves target uid action)
    (fun h => nomatch h) ?_ hrun
  intro moves cluster next move hrun hmove ih hmem
  have hreachable := reachable_of_run .start hrun
  rcases runLedger_step hrules hrun hmove target uid with
    hsame | ⟨place, past, call, reply, hacts, hfound, hnewsworthy, hadded⟩
  · exact (ih (hsame ▸ hmem)).snoc move
  · rw [hadded] at hmem
    rcases List.mem_append.1 hmem with hearlier | hmem
    · exact (ih hearlier).snoc move
    · cases hnewsworthy with
      | discarded _ hnews =>
        rw [hnews] at hmem
        exact absurd (List.mem_singleton.1 hmem) hlast
      | @written base updated status hnews =>
        rw [hnews] at hmem
        obtain ⟨hold, hnew, huid, version, rfl⟩ :=
          hreachable.stored_of_written (moved_of_move hmove) hacts hfound
        exact ⟨moves, [], move, cluster, next, rfl, hrun, hmove, base, _, hold, hnew, huid, huid,
          hmem⟩

end Cluster

end AccessBroker
