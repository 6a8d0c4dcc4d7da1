import AccessBroker.Proofs.Cluster.Ledgers
import AccessBroker.Proofs.Lifecycle

/-!
# What listeners can rely on

What is told of a request or a grant is the record of what has become of it. The ledger of a request
is the tale of its status (`AccessBroker.RequestStatus.Tale`): it follows from the state which
actions have been told and in which order, up to whether a request was denied before it expired.
The ledger of a grant has each artifact at most once, and only if it is recorded
(`AccessBroker.GrantStatus.Covers`), because no pass that records anything forgets what was
recorded before.

That a grant has expired is told when the pass believes it to be removed. From then on nothing of
it is stored but what is deleting, and no pass that finds it alive is left that could remove it
(`AccessBroker.Cluster.Expired`), so nothing more is told of it. A pass that is told that the grant
is missing believes so too; if this is not true, the pass is misled
(`AccessBroker.Cluster.Misled`), and the next pass removes the grant and tells of it once more. A
store that tells the truth misleads nobody, and with it a grant expires once
(`AccessBroker.Cluster.heard_expired_once`).

The main result is `AccessBroker.Cluster.audit_trail`.
-/

namespace AccessBroker

open AccessBroker.Time

/-! ### Requests -/

namespace RequestStatus

/-- What has been told of a request, or is to be told, when it has a status. -/
inductive Tale (status : RequestStatus) : List AccessAction → Prop
  /-- No pass has been there yet. -/
  | untold (unnamed : status.requestId = "") : Tale status []
  /-- It is still to be decided. -/
  | opened (named : status.requestId ≠ "") (pending : status.state = .pending) :
    Tale status [.requestCreated]
  | approved (named : status.requestId ≠ "") (approved : status.state = .approved) :
    Tale status [.requestCreated, .requestApproved]
  | denied (named : status.requestId ≠ "") (denied : status.state = .denied) :
    Tale status [.requestCreated, .requestDenied]
  /-- It expired without a decision. -/
  | lapsed (named : status.requestId ≠ "") (expired : status.state = .expired) :
    Tale status [.requestCreated, .requestExpired]
  /-- It expired after a denial. -/
  | closed (named : status.requestId ≠ "") (expired : status.state = .expired) :
    Tale status [.requestCreated, .requestDenied, .requestExpired]

variable {old new : RequestStatus} {told : List AccessAction}

theorem news_of_named (hnamed : old.requestId ≠ "") :
    old.news new =
      if old.state = new.state then [] else (Request.transition? new.state).toList := by
  simp [news, hnamed]

theorem news_of_unnamed (hunnamed : old.requestId = "") (hnamed : new.requestId ≠ "") :
    old.news new = .requestCreated ::
      if old.state = new.state then [] else (Request.transition? new.state).toList := by
  simp [news, hunnamed, hnamed]

/-- **A tale goes on with the news** of the status that continues it. -/
theorem Tale.append_news (h : old.Tale told) (hold : old.InOrder) (hnew : new.InOrder)
    (hcontinues : old.Continues new) : new.Tale (told ++ old.news new) := by
  by_cases hunnamed : old.requestId = ""
  · have hpending := hold.undecided hunnamed
    have htold : told = [] := by
      cases h with
      | untold => rfl
      | opened hnamed | approved hnamed | denied hnamed | lapsed hnamed | closed hnamed =>
        exact absurd hunnamed hnamed
    rw [htold, List.nil_append]
    by_cases hnamed : new.requestId = ""
    · have hsame : old.news new = [] := by
        simp [news, hunnamed, hnamed, hpending, hnew.undecided hnamed]
      rw [hsame]
      exact .untold hnamed
    · rw [news_of_unnamed hunnamed hnamed, hpending]
      rcases hcontinues.moved with hkept | hstep
      · rw [hkept, hpending]
        exact .opened hnamed (hkept.trans hpending)
      · rw [hpending] at hstep
        generalize hstate : new.state = state at hstep ⊢
        cases hstep with
        | approved => exact .approved hnamed hstate
        | denied => exact .denied hnamed hstate
        | lapsed => exact .lapsed hnamed hstate
  · have hnamed : new.requestId ≠ "" := by rwa [hcontinues.named hunnamed]
    rw [news_of_named hunnamed]
    rcases hcontinues.moved with hkept | hstep
    · rw [if_pos hkept.symm, List.append_nil]
      cases h with
      | untold hempty => exact absurd hempty hunnamed
      | opened _ hstate => exact .opened hnamed (hkept.trans hstate)
      | approved _ hstate => exact .approved hnamed (hkept.trans hstate)
      | denied _ hstate => exact .denied hnamed (hkept.trans hstate)
      | lapsed _ hstate => exact .lapsed hnamed (hkept.trans hstate)
      | closed _ hstate => exact .closed hnamed (hkept.trans hstate)
    · generalize hstate : new.state = state at hstep ⊢
      generalize hbefore : old.state = before at hstep ⊢
      cases h with
      | untold hempty => exact absurd hempty hunnamed
      | opened _ hpending =>
        obtain rfl := hbefore.symm.trans hpending
        cases hstep with
        | approved => exact .approved hnamed hstate
        | denied => exact .denied hnamed hstate
        | lapsed => exact .lapsed hnamed hstate
      | denied _ hdenied =>
        obtain rfl := hbefore.symm.trans hdenied
        cases hstep with
        | closed => exact .closed hnamed hstate
      | approved _ hended =>
        obtain rfl := hbefore.symm.trans hended
        cases hstep
      | lapsed _ hended | closed _ hended =>
        obtain rfl := hbefore.symm.trans hended
        cases hstep

/-- What is told of a request comes in one of three orders. -/
theorem Tale.isPrefix (h : old.Tale told) :
    told <+: [.requestCreated, .requestApproved] ∨
      told <+: [.requestCreated, .requestDenied, .requestExpired] ∨
      told <+: [.requestCreated, .requestExpired] := by
  cases h <;> decide

end RequestStatus

namespace Cluster

variable {rules : Rules} {cluster next : Cluster} {target : Target} {key : Key} {uid : String}
  {moves : List Move} {move : Move}

/-- **What becomes of a request is told of it.** -/
theorem runLedger_request (hrules : rules.overlap = false)
    (hrun : ({} : Cluster).run rules moves = some cluster)
    (hmove : cluster.move rules move = some next) {new : Request}
    (hnew : next.store.find? .request key = some new) :
    (new.metadata.uid ∉ cluster.issued ∧ new.body.status = {} ∧
        runLedger rules (moves ++ [move]) next (.request key) new.metadata.uid = []) ∨
      ∃ old : Request, cluster.store.find? .request key = some old ∧
        old.metadata.uid = new.metadata.uid ∧ old.body.status.Continues new.body.status ∧
        runLedger rules (moves ++ [move]) next (.request key) new.metadata.uid =
          runLedger rules moves cluster (.request key) new.metadata.uid ++
            old.body.status.news new.body.status := by
  have h := reachable_of_run .start hrun
  have hmoved := moved_of_move hmove
  rcases runLedger_step hrules hrun hmove (.request key) new.metadata.uid with
    hsame | ⟨place, past, call, reply, hacts, hfound, hnewsworthy, hadded⟩
  · -- Where nothing but the metadata changes, there are no news.
    have hkept {old : Request} (hold : cluster.store.find? .request key = some old)
        (huid : new.metadata.uid = old.metadata.uid) (hbody : new.body = old.body) :
        ∃ old : Request, cluster.store.find? .request key = some old ∧
          old.metadata.uid = new.metadata.uid ∧ old.body.status.Continues new.body.status ∧
          runLedger rules (moves ++ [move]) next (.request key) new.metadata.uid =
            runLedger rules moves cluster (.request key) new.metadata.uid ++
              old.body.status.news new.body.status := by
      refine ⟨old, hold, huid.symm, ?_, ?_⟩
      · rw [hbody]
        exact .refl _
      · rw [hsame, hbody, RequestStatus.news_self, List.append_nil]
    cases h.requestTurn hmoved key with
    | kept hstill => exact .inr (hkept (hstill.symm.trans hnew) rfl rfl)
    | filed _ hstored hfresh hblank =>
      obtain rfl := Option.some.inj (hstored.symm.trans hnew)
      exact .inl ⟨hfresh, hblank, hsame.trans (runLedger_unissued hrules hrun hfresh)⟩
    | secured hold hstored huid hbody =>
      obtain rfl := Option.some.inj (hstored.symm.trans hnew)
      exact .inr (hkept hold huid hbody)
    | parted hold hleft =>
      obtain ⟨huid, hbody, -⟩ := hleft new hnew
      exact .inr (hkept hold huid hbody)
    | @written place past start old _ status hacts hunderway hold hstored huid hbody =>
      obtain rfl := Option.some.inj (hnew.symm.trans hstored)
      have hcontinues := (h.continues_of_written hacts hunderway hbody).1
      obtain ⟨rest, hcurrent, -⟩ := id hacts
      have hfound : foundUid? (.request key) past = some new.metadata.uid := by
        rw [(h.orderly _ _ hcurrent).foundUid?_eq hunderway.secured.found, huid,
          (h.faithful_request hcurrent rfl hunderway.secured).uid]
      refine .inr ⟨old, hold, huid.symm, hcontinues, ?_⟩
      rw [runLedger_snoc hrun hmove, h.ledger_of_acts hrules hmove _ hacts hfound]
      rfl
  · cases hnewsworthy with
    | discarded hgrant => cases hgrant
    | @written base updated status hnews =>
      obtain ⟨hold, hstored, huid, -⟩ := h.stored_of_written hmoved hacts hfound
      obtain rfl : new = updated := Option.some.inj (hnew.symm.trans hstored)
      rcases h.request_continues hmoved hnew with ⟨hvacant, -⟩ | ⟨old, hfound', -, hcontinues, -⟩
      · cases hvacant.symm.trans hold
      · obtain rfl : base = old := Option.some.inj (hold.symm.trans hfound')
        exact .inr ⟨base, hold, huid, hcontinues, hadded⟩

/-- **The ledger of a request is the tale of its status**, of the last one if the request is
gone. -/
theorem tale_runLedger (hrules : rules.overlap = false)
    (hrun : ({} : Cluster).run rules moves = some cluster) (key : Key) (uid : String) :
    ∃ status : RequestStatus, status.Tale (runLedger rules moves cluster (.request key) uid) ∧
      ∀ request : Request, cluster.store.find? .request key = some request →
        request.metadata.uid = uid → request.body.status = status := by
  refine run_induction (P := fun moves cluster => ∃ status : RequestStatus,
    status.Tale (runLedger rules moves cluster (.request key) uid) ∧
      ∀ request : Request, cluster.store.find? .request key = some request →
        request.metadata.uid = uid → request.body.status = status) ?_ ?_ hrun
  · refine ⟨{}, .untold rfl, fun request hrequest => ?_⟩
    rw [find?_start] at hrequest
    cases hrequest
  · rintro moves cluster next move hrun hmove ⟨status, htale, hstatus⟩
    have h := reachable_of_run .start hrun
    by_cases hstored : ∃ new : Request, next.store.find? .request key = some new ∧
        new.metadata.uid = uid
    · obtain ⟨new, hnew, rfl⟩ := hstored
      have hlast (request : Request) (hrequest : next.store.find? .request key = some request) :
          request.body.status = new.body.status := by
        rw [Option.some.inj (hrequest.symm.trans hnew)]
      refine ⟨new.body.status, ?_, fun request hrequest _ => hlast request hrequest⟩
      rcases runLedger_request hrules hrun hmove hnew with
        ⟨-, hblank, hnone⟩ | ⟨old, hold, huid, hcontinues, hadded⟩
      · rw [hnone, hblank]
        exact .untold rfl
      · have hbefore := h.request_inOrder (.inl (h.sound.stores hold))
        have hnext := h.step move hmove
        have hafter := hnext.request_inOrder (.inl (hnext.sound.stores hnew))
        obtain rfl := hstatus old hold huid
        rw [hadded]
        exact htale.append_news hbefore hafter hcontinues
    · refine ⟨status, ?_, fun new hnew huid => absurd ⟨new, hnew, huid⟩ hstored⟩
      rcases runLedger_step hrules hrun hmove (.request key) uid with
        hsame | ⟨place, past, call, reply, hacts, hfound, hnewsworthy, -⟩
      · rw [hsame]
        exact htale
      · cases hnewsworthy with
        | discarded hgrant => cases hgrant
        | @written base updated status hnews =>
          obtain ⟨-, hnew, huid, version, rfl⟩ :=
            h.stored_of_written (moved_of_move hmove) hacts hfound
          exact absurd ⟨_, hnew, huid⟩ hstored

end Cluster

/-! ### Grants -/

/-- What is told when an artifact is recorded. -/
def Artifact.news? : Artifact → Option AccessAction
  | .roleBinding => some .roleGranted
  | .adhocRole => none
  | .adhocBinding => some .permissionsGranted

namespace GrantStatus

variable {old new : GrantStatus} {artifact : Artifact} {action : AccessAction}
  {told more : List AccessAction}

/-- **An artifact is news when it is recorded**, and once. -/
theorem count_news (h : artifact.news? = some action) : (old.news new).count action =
    if !artifact.isRecorded old && artifact.isRecorded new then 1 else 0 := by
  unfold news
  cases artifact with
  | roleBinding =>
    cases h
    change _ = if !old.roleBound && new.roleBound then 1 else 0
    split <;> split <;> rfl
  | adhocRole => cases h
  | adhocBinding =>
    cases h
    change _ = if !old.adhocRoleBound && new.adhocRoleBound then 1 else 0
    split <;> split <;> rfl

/-- A status has news of artifacts alone. -/
theorem eq_of_mem_news (h : action ∈ old.news new) :
    action = .roleGranted ∨ action = .permissionsGranted := by
  rcases List.mem_append.1 h with h | h <;> split at h
  · exact .inl (List.mem_singleton.1 h)
  · cases h
  · exact .inr (List.mem_singleton.1 h)
  · cases h

theorem expired_not_mem_news : AccessAction.grantExpired ∉ old.news new := by
  intro hmem
  rcases eq_of_mem_news hmem with heq | heq <;> cases heq

/-- That a grant has expired is news of no artifact. -/
theorem count_expired (h : artifact.news? = some action) :
    [AccessAction.grantExpired].count action = 0 := by
  cases artifact <;> cases h <;> rfl

/-- What has been told of a grant, or is to be told, when it has a status: every artifact at most
once, and only if it is recorded. -/
def Covers (status : GrantStatus) (told : List AccessAction) : Prop :=
  ∀ (artifact : Artifact) (action : AccessAction), artifact.news? = some action →
    told.count action ≤ if status.isPopulated && artifact.isRecorded status then 1 else 0

theorem Covers.nil (status : GrantStatus) : status.Covers [] :=
  fun _ _ _ => Nat.zero_le _

theorem Covers.append_expired (h : old.Covers told) : old.Covers (told ++ [.grantExpired]) := by
  intro artifact action haction
  rw [List.count_append, count_expired haction]
  exact h artifact action haction

/-- **What is recorded is told once**, if nothing that was recorded is forgotten. -/
theorem Covers.append_news (h : old.Covers told) (hpopulated : old.isPopulated = true)
    (hterms : new.terms = old.terms) (hall : old.RecordsAll new) :
    new.Covers (told ++ old.news new) := by
  intro artifact action haction
  have htold := h artifact action haction
  rw [hpopulated] at htold
  rw [List.count_append, count_news haction, isPopulated_of_terms hterms, hpopulated]
  cases hold : artifact.isRecorded old with
  | true =>
    rw [hold] at htold
    rw [hall artifact hold]
    exact htold
  | false =>
    rw [hold] at htold
    cases artifact.isRecorded new <;> simpa using htold

/-- Of a grant that has not been filled in nothing is told. -/
theorem Covers.filled (h : old.Covers told) (hblank : old.isPopulated = false)
    (status : GrantStatus) : status.Covers told := by
  intro artifact action haction
  have htold := h artifact action haction
  rw [hblank] at htold
  exact Nat.le_trans htold (Nat.zero_le _)

end GrantStatus

namespace Cluster

variable {rules : Rules} {cluster next : Cluster} {target : Target} {key : Key} {uid : String}
  {moves : List Move} {move : Move}

/-- A pass that records how far it has come forgets nothing. -/
theorem Reachable.recordsAll (h : Reachable rules cluster) {place : Nat} {past : Deeds}
    {base : Grant} {status : GrantStatus} {reply : Except Failure Grant}
    (hacts : Acts cluster next place (.grant key) past (.patchStatus .grant base status) reply) :
    base.body.isPopulated = true ∧ status.terms = base.body.terms ∧
      GrantStatus.RecordsAll base.body status := by
  obtain ⟨rest, hcurrent, -⟩ := hacts
  have hsilent : ∀ event, Effect.store (.patchStatus .grant base status) ≠ .tell event := nofun
  have hfits := ((prompt_iff_of_silent hsilent).1 (h.prompt hcurrent).1).2
  have hallowed : Grant.Conduct key past (.store (.patchStatus .grant base status)) :=
    (h.orderly _ _ hcurrent).allowed
  cases hallowed with
  | record htended hterms => exact ⟨htended.populated, hterms, hfits⟩

/-- **What a pass records is told once.** -/
theorem covers_of_recorded (hrules : rules.overlap = false)
    (hrun : ({} : Cluster).run rules moves = some cluster)
    (hmove : cluster.move rules move = some next) {place : Nat} {past : Deeds} {base : Grant}
    {status : GrantStatus} {version : Nat}
    (hacts : Acts cluster next place (.grant key) past (.patchStatus .grant base status)
      (.ok (base.patched status version)))
    (hfound : foundUid? (.grant key) past = some uid)
    (hcovers : base.body.Covers (runLedger rules moves cluster (.grant key) uid)) :
    status.Covers (runLedger rules (moves ++ [move]) next (.grant key) uid) := by
  have h := reachable_of_run .start hrun
  obtain ⟨hpopulated, hterms, hall⟩ := h.recordsAll hacts
  rw [runLedger_snoc hrun hmove, h.ledger_of_acts hrules hmove _ hacts hfound]
  exact hcovers.append_news hpopulated hterms hall

/-- What becomes of a grant: no deletion is taken back, and unless a pass on the grant has written
the status, it stays, or the grant had not been filled in. -/
theorem Reachable.grant_goes_on (h : Reachable rules cluster) (hmoved : Moved rules cluster next)
    {new : Grant} (hnew : next.store.find? .grant key = some new) :
    new.metadata.uid ∉ cluster.issued ∨
      ∃ old : Grant, cluster.store.find? .grant key = some old ∧
        old.metadata.uid = new.metadata.uid ∧
        (old.metadata.isDeleting = true → new.metadata.isDeleting = true) ∧
        (new.body = old.body ∨ old.body.isPopulated = false ∨
          ∃ (place : Nat) (past : Deeds) (status : GrantStatus) (version : Nat),
            Acts cluster next place (.grant key) past (.patchStatus .grant old status)
              (.ok (old.patched status version)) ∧
            foundUid? (.grant key) past = some new.metadata.uid ∧
            new = old.patched status version) := by
  cases (h.grantTurn hmoved key).becomes hnew with
  | kept hold huid hbody hdeleting => exact .inr ⟨_, hold, huid.symm, hdeleting, .inl hbody⟩
  | launched _ hfresh => exact .inl hfresh
  | filled _ _ hblank hold => exact .inr ⟨_, hold, rfl, id, .inr (.inl hblank)⟩
  | @recorded place past start grant status version hacts htended _ hold =>
    obtain ⟨rest, hcurrent, -⟩ := id hacts
    refine .inr ⟨grant, hold, rfl, id, .inr (.inr ⟨place, past, status, version, hacts, ?_, rfl⟩)⟩
    rw [(h.orderly _ _ hcurrent).foundUid?_eq htended.secured.found]
    exact congrArg some (h.faithful_grant hcurrent rfl htended.secured).uid.symm

/-- **What becomes of a grant is told of it**, as far as its artifacts are concerned. -/
theorem covers_of_stored (hrules : rules.overlap = false)
    (hrun : ({} : Cluster).run rules moves = some cluster)
    (hmove : cluster.move rules move = some next) {new : Grant}
    (hnew : next.store.find? .grant key = some new)
    (hcovers : ∀ old : Grant, cluster.store.find? .grant key = some old →
      old.metadata.uid = new.metadata.uid →
      old.body.Covers (runLedger rules moves cluster (.grant key) new.metadata.uid)) :
    new.body.Covers (runLedger rules (moves ++ [move]) next (.grant key) new.metadata.uid) := by
  have h := reachable_of_run .start hrun
  have hmoved := moved_of_move hmove
  rcases h.grant_goes_on hmoved hnew with hfresh | ⟨old, hold, huid, -, hbody⟩
  · rw [runLedger_fresh hrules hrun hmove hfresh]
    exact .nil _
  · have hcovers := hcovers old hold huid
    -- Whatever is told of the old status is told of the new one, unless a pass has written it.
    have hstill (hledger : old.body.Covers
        (runLedger rules (moves ++ [move]) next (.grant key) new.metadata.uid)) :
        new.body.Covers
          (runLedger rules (moves ++ [move]) next (.grant key) new.metadata.uid) := by
      rcases hbody with hbody | hblank | ⟨place, past, status, version, hacts, hfound, hpatched⟩
      · rw [hbody]
        exact hledger
      · exact hledger.filled hblank _
      · rw [hpatched] at hfound hcovers ⊢
        exact covers_of_recorded hrules hrun hmove hacts hfound hcovers
    rcases runLedger_step hrules hrun hmove (.grant key) new.metadata.uid with
      hsame | ⟨place, past, call, reply, hacts, hfound, hnewsworthy, hadded⟩
    · exact hstill (hsame ▸ hcovers)
    · cases hnewsworthy with
      | discarded _ hnews =>
        rw [hnews] at hadded
        exact hstill (hadded ▸ hcovers.append_expired)
      | @written base updated status hnews =>
        obtain ⟨hbase, hstored, -, version, rfl⟩ := h.stored_of_written hmoved hacts hfound
        obtain rfl : old = base := Option.some.inj (hold.symm.trans hbase)
        obtain rfl : new = _ := Option.some.inj (hnew.symm.trans hstored)
        exact covers_of_recorded hrules hrun hmove hacts hfound hcovers

/-- **The artifacts of a grant are told as they are recorded**, in the last status if the grant is
gone. -/
theorem covers_runLedger (hrules : rules.overlap = false)
    (hrun : ({} : Cluster).run rules moves = some cluster) (key : Key) (uid : String) :
    ∃ status : GrantStatus, status.Covers (runLedger rules moves cluster (.grant key) uid) ∧
      ∀ grant : Grant, cluster.store.find? .grant key = some grant →
        grant.metadata.uid = uid → grant.body = status := by
  refine run_induction (P := fun moves cluster => ∃ status : GrantStatus,
    status.Covers (runLedger rules moves cluster (.grant key) uid) ∧
      ∀ grant : Grant, cluster.store.find? .grant key = some grant →
        grant.metadata.uid = uid → grant.body = status) ?_ ?_ hrun
  · refine ⟨{}, .nil _, fun grant hgrant => ?_⟩
    rw [find?_start] at hgrant
    cases hgrant
  · rintro moves cluster next move hrun hmove ⟨status, hcovers, hstatus⟩
    by_cases hstored : ∃ new : Grant, next.store.find? .grant key = some new ∧
        new.metadata.uid = uid
    · obtain ⟨new, hnew, rfl⟩ := hstored
      refine ⟨new.body, covers_of_stored hrules hrun hmove hnew fun old hold huid => ?_,
        fun grant hgrant _ => ?_⟩
      · rw [hstatus old hold huid]
        exact hcovers
      · rw [Option.some.inj (hgrant.symm.trans hnew)]
    · refine ⟨status, ?_, fun new hnew huid => absurd ⟨new, hnew, huid⟩ hstored⟩
      rcases runLedger_step hrules hrun hmove (.grant key) uid with
        hsame | ⟨place, past, call, reply, hacts, hfound, hnewsworthy, hadded⟩
      · exact hsame ▸ hcovers
      · cases hnewsworthy with
        | discarded _ hnews =>
          rw [hadded, hnews]
          exact hcovers.append_expired
        | @written base updated new hnews =>
          obtain ⟨-, hnew, huid, version, rfl⟩ :=
            (reachable_of_run .start hrun).stored_of_written (moved_of_move hmove) hacts hfound
          exact absurd ⟨_, hnew, huid⟩ hstored

/-! ### Grants that have expired -/

/-- A pass is told that the grant which it removes is missing, while the grant is stored. -/
def Misled (rules : Rules) (moves : List Move) (key : Key) (uid : String) : Prop :=
  ∃ (earlier later : List Move) (cluster : Cluster) (place : Nat) (failure : Failure)
    (past : Deeds) (rest : Except Failure Unit → AccessBroker.Steps (Except Failure Outcome))
    (grant : Grant), moves = earlier ++ .refuse place failure :: later ∧
    failure.isNotFound = true ∧ ({} : Cluster).run rules earlier = some cluster ∧
    cluster.journals[place]? =
      some ⟨.grant key, past, .ask (.store (.delete .grant key)) rest⟩ ∧
    foundUid? (.grant key) past = some uid ∧
    cluster.store.find? .grant key = some grant ∧ grant.metadata.uid = uid

theorem Misled.snoc (h : Misled rules moves key uid) (move : Move) :
    Misled rules (moves ++ [move]) key uid := by
  obtain ⟨earlier, later, cluster, place, failure, past, rest, grant, rfl, hmisled⟩ := h
  exact ⟨earlier, later ++ [move], cluster, place, failure, past, rest, grant,
    List.append_assoc .., hmisled⟩

/-- A store that tells the truth misleads nobody. -/
theorem not_misled (hrules : rules.AreTruthful)
    (hrun : ({} : Cluster).run rules moves = some cluster) : ¬Misled rules moves key uid := by
  rintro ⟨earlier, later, before, place, failure, past, rest, grant, rfl, hmissing, hearlier,
    hcurrent, -⟩
  rw [run_append, hearlier, Option.bind_some] at hrun
  obtain ⟨next, hmove, -⟩ := Option.bind_eq_some_iff.1 hrun
  have hrefuses : rules.refuses failure = true := by
    refine Decidable.byContradiction fun hrefuses => ?_
    simp [Cluster.move, hcurrent, hrefuses] at hmove
  rw [hrules failure hrefuses] at hmissing
  cases hmissing

/-- A grant that has expired: what is stored of it is deleting, and a pass that found it alive and
is still under way has removed it. -/
structure Expired (cluster : Cluster) (key : Key) (uid : String) : Prop where
  deleting (grant : Grant) : cluster.store.find? .grant key = some grant →
    grant.metadata.uid = uid → grant.metadata.isDeleting = true
  removed {place : Nat} {journal : Journal} {start : Grant} :
    cluster.journals[place]? = some journal → journal.target = .grant key →
    journal.isOver = false → Found key journal.deeds start → start.metadata.uid = uid →
    start.metadata.isDeleting = false → ¬Without Effect.discards journal.deeds

/-- A grant that has expired stays so. -/
theorem Expired.moved (h : cluster.Expired key uid) (hreachable : Reachable rules cluster)
    (hmoved : Moved rules cluster next) (hissued : uid ∈ cluster.issued) :
    next.Expired key uid where
  deleting new hnew huid := by
    subst huid
    rcases hreachable.grant_goes_on hmoved hnew with hfresh | ⟨old, hold, huid, hdeleting, -⟩
    · exact absurd hissued hfresh
    · exact hdeleting (h.deleting old hold huid)
  removed {place journal start} hjournal htarget hover hfound huid hlive := by
    cases hmoved.fate hjournal with
    | kept hcurrent => exact h.removed hcurrent htarget hover hfound huid hlive
    | started => cases hfound
    | @advanced target past effect rest reply hcurrent hserved =>
      rcases List.mem_cons.1 hfound with heq | hearlier
      · cases heq
        cases hserved with
        | performed hcalls =>
          have hdeleting := h.deleting start hcalls.performed.of_find.1.symm huid
          rw [hlive] at hdeleting
          cases hdeleting
      · have hdiscarded := h.removed hcurrent htarget rfl hearlier huid hlive
        exact fun hwithout => hdiscarded (without_cons.1 hwithout).2

/-- What a pass is allowed to remove is the grant that it has found alive, and only once. -/
theorem Reachable.removes (h : Reachable rules cluster) {place : Nat} {past : Deeds}
    {place' : Key} {reply : Except Failure Unit}
    (hacts : Acts cluster next place (.grant key) past (.delete .grant place') reply)
    (hfound : foundUid? (.grant key) past = some uid) :
    place' = key ∧ Without Effect.discards past ∧ ∃ start : Grant, Found key past start ∧
      start.metadata.uid = uid ∧ start.metadata.isDeleting = false := by
  obtain ⟨rest, hcurrent, -⟩ := id hacts
  have hallowed : Grant.Conduct key past (.store (.delete .grant place')) :=
    (h.orderly _ _ hcurrent).allowed
  cases hallowed with
  | remove _ hremoval =>
    rcases Grant.mem_removals hremoval with ⟨kind, other, howned, heq⟩ | heq
    · cases heq
      cases howned
    · cases heq
  | @discard start grant hfreed hcleaned =>
    have hsecured := hfreed.secured
    have huid := (h.orderly _ _ hcurrent).foundUid?_eq hsecured.found
    refine ⟨(h.faithful_grant hcurrent rfl hsecured).key, hfreed.undiscarded, start,
      hsecured.found, Option.some.inj (huid.symm.trans hfound), ?_⟩
    cases hsecured with
    | held _ hlive => exact hlive
    | given _ hlive => exact hlive

/-- **Nothing more is told of a grant that has expired.** -/
theorem runLedger_of_expired (hrules : rules.overlap = false)
    (hrun : ({} : Cluster).run rules moves = some cluster)
    (hmove : cluster.move rules move = some next) (h : cluster.Expired key uid) :
    runLedger rules (moves ++ [move]) next (.grant key) uid =
      runLedger rules moves cluster (.grant key) uid := by
  have hreachable := reachable_of_run .start hrun
  rcases runLedger_step hrules hrun hmove (.grant key) uid with
    hsame | ⟨place, past, call, reply, hacts, hfound, hnewsworthy, -⟩
  · exact hsame
  · obtain ⟨rest, hcurrent, -⟩ := id hacts
    exfalso
    cases hnewsworthy with
    | discarded =>
      obtain ⟨-, hwithout, start, hstart, huid, hlive⟩ := hreachable.removes hacts hfound
      exact h.removed hcurrent rfl rfl hstart huid hlive hwithout
    | @written base updated status =>
      obtain ⟨hbase, -, huid, -⟩ :=
        hreachable.stored_of_written (moved_of_move hmove) hacts hfound
      obtain ⟨start, hsecured⟩ := secured_of_allowed (hreachable.orderly _ _ hcurrent).allowed
      have hlive := (hreachable.faithful hcurrent hsecured).live
      rw [h.deleting base hbase huid] at hlive
      cases hlive

/-- **A grant has expired when its removal is settled**, unless the pass is misled. -/
theorem expired_of_settled (hrules : rules.overlap = false)
    (hrun : ({} : Cluster).run rules moves = some cluster)
    (hmove : cluster.move rules move = some next)
    (hhonest : ¬Misled rules (moves ++ [move]) key uid) {place : Nat} {past : Deeds}
    {place' : Key} {reply : Except Failure Unit}
    (hacts : Acts cluster next place (.grant key) past (.delete .grant place') reply)
    (hfound : foundUid? (.grant key) past = some uid)
    (hsettled : ∀ failure, reply = .error failure → failure.isNotFound = true) :
    next.Expired key uid := by
  have h := reachable_of_run .start hrun
  obtain ⟨rfl, -⟩ := h.removes hacts hfound
  constructor
  · intro grant hgrant hsame
    rcases hacts.performed_or_refused hmove with ⟨id, hperformed⟩ | ⟨failure, rfl, rfl, hstore⟩
    · exact hperformed.isDeleting_of_delete h.sound.keyed hgrant
    · rw [hstore] at hgrant
      obtain ⟨rest, hcurrent, -⟩ := hacts
      exact absurd ⟨moves, [], cluster, place, failure, past, rest, grant, rfl,
        hsettled failure rfl, hrun, hcurrent, hfound, hgrant, hsame⟩ hhonest
  · intro other journal start hjournal htarget hover hstart _ _ hwithout
    obtain ⟨rest, hcurrent, hafter⟩ := id hacts
    -- Whoever else works on the grant would have been under way together with this pass.
    by_cases hplace : other = place
    · subst hplace
      obtain rfl := Option.some.inj (hjournal.symm.trans hafter)
      cases hwithout _ List.mem_cons_self
    · cases (moved_of_move hmove).fate hjournal with
      | kept hbefore =>
        exact hplace (h.exclusive hrules _ _ _ _ hbefore hcurrent htarget hover rfl)
      | started => cases hstart
      | advanced _ _ hothers => exact hacts.journal_ne (hothers place (Ne.symm hplace))

/-- **That a grant has expired is the last of what is told of it**, unless a pass is misled. -/
theorem expired_runLedger (hrules : rules.overlap = false)
    (hrun : ({} : Cluster).run rules moves = some cluster)
    (hhonest : ¬Misled rules moves key uid) :
    .grantExpired ∉ (runLedger rules moves cluster (.grant key) uid).dropLast ∧
      (.grantExpired ∈ runLedger rules moves cluster (.grant key) uid →
        cluster.Expired key uid) := by
  revert hhonest
  refine run_induction (P := fun moves cluster => ¬Misled rules moves key uid →
    .grantExpired ∉ (runLedger rules moves cluster (.grant key) uid).dropLast ∧
      (.grantExpired ∈ runLedger rules moves cluster (.grant key) uid →
        cluster.Expired key uid)) ?_ ?_ hrun
  · exact fun _ => ⟨List.not_mem_nil, fun hmem => absurd hmem List.not_mem_nil⟩
  intro moves cluster next move hrun hmove ih hhonest
  have h := reachable_of_run .start hrun
  have hmoved := moved_of_move hmove
  obtain ⟨hlast, hexpired⟩ := ih fun hmisled => hhonest (hmisled.snoc move)
  by_cases hmem : .grantExpired ∈ runLedger rules moves cluster (.grant key) uid
  · have hissued : uid ∈ cluster.issued := by
      refine Decidable.byContradiction fun hfresh => ?_
      rw [runLedger_unissued hrules hrun hfresh] at hmem
      cases hmem
    rw [runLedger_of_expired hrules hrun hmove (hexpired hmem)]
    exact ⟨hlast, fun _ => (hexpired hmem).moved h hmoved hissued⟩
  · rcases runLedger_step hrules hrun hmove (.grant key) uid with
      hsame | ⟨place, past, call, reply, hacts, hfound, hnewsworthy, hadded⟩
    · rw [hsame]
      exact ⟨hlast, fun h => absurd h hmem⟩
    · cases hnewsworthy with
      | discarded _ hnews hsettled =>
        rw [hnews] at hadded
        rw [hadded, List.dropLast_concat]
        exact ⟨hmem, fun _ =>
          expired_of_settled hrules hrun hmove hhonest hacts hfound hsettled⟩
      | @written base updated status hnews =>
        have hnone : .grantExpired ∉ runLedger rules (moves ++ [move]) next (.grant key) uid := by
          rw [hadded, hnews, List.mem_append]
          exact fun h => h.elim hmem GrantStatus.expired_not_mem_news
        exact ⟨fun h => hnone (List.dropLast_subset _ h), fun h => absurd h hnone⟩

/-! ### Tellings -/

/-- **Who is told of something** is told under the key of an object, of what is still to be told of
it. -/
theorem Reachable.owed_of_told (h : Reachable rules cluster)
    (hmove : cluster.move rules move = some next) {telling : Telling}
    (htelling : telling ∈ cluster.told move) :
    telling.event.key = telling.target.key ∧ ∃ uid, telling.uid = some uid ∧
      telling.event.action ∈ cluster.owed telling.target uid := by
  have hfared := fared_of_move hmove
  generalize cluster.told move = told at hfared htelling
  cases hfared with
  | aside | started | acted => cases htelling
  | @told place target past event rest reply hcurrent hjournals =>
    obtain rfl := List.mem_singleton.1 htelling
    obtain ⟨hhead, start, object, hsecured, hkey⟩ := (h.prompt hcurrent).1
    have huid := (h.orderly _ _ hcurrent).foundUid?_eq hsecured.found
    refine ⟨hkey.trans (h.faithful hcurrent hsecured).key, _, huid, ?_⟩
    refine List.mem_flatMap.2 ⟨_, List.mem_of_getElem? hcurrent, ?_⟩
    rw [Journal.owes, if_pos ⟨rfl, huid⟩]
    exact List.mem_of_mem_head? hhead

/-- What was told comes first in the ledger. -/
theorem heard_isPrefix (rules : Rules) (moves : List Move) (cluster : Cluster) (target : Target)
    (uid : String) :
    heard (({} : Cluster).tellings rules moves) target uid <+:
      runLedger rules moves cluster target uid :=
  List.prefix_append _ _

/-- **What is told of a request** comes in one of three orders. -/
theorem heard_request (hrules : rules.overlap = false)
    (hrun : ({} : Cluster).run rules moves = some cluster) (key : Key) (uid : String) :
    heard (({} : Cluster).tellings rules moves) (.request key) uid <+:
        [.requestCreated, .requestApproved] ∨
      heard (({} : Cluster).tellings rules moves) (.request key) uid <+:
        [.requestCreated, .requestDenied, .requestExpired] ∨
      heard (({} : Cluster).tellings rules moves) (.request key) uid <+:
        [.requestCreated, .requestExpired] := by
  obtain ⟨status, htale, -⟩ := tale_runLedger hrules hrun key uid
  have hheard := heard_isPrefix rules moves cluster (.request key) uid
  exact htale.isPrefix.imp hheard.trans (Or.imp hheard.trans hheard.trans)

/-- What is told of a grant. -/
theorem mem_runLedger_grant (hrules : rules.overlap = false)
    (hrun : ({} : Cluster).run rules moves = some cluster) {action : AccessAction}
    (h : action ∈ runLedger rules moves cluster (.grant key) uid) :
    action = .roleGranted ∨ action = .permissionsGranted ∨ action = .grantExpired := by
  by_cases hlast : action = .grantExpired
  · exact .inr (.inr hlast)
  · obtain ⟨earlier, later, move, before, next, -, -, -, old, new, -, -, -, -, hmem⟩ :=
      wrote_of_mem_runLedger hrules hrun h hlast
    exact (GrantStatus.eq_of_mem_news hmem).imp_right .inl

/-- An artifact of a grant is told at most once. -/
theorem count_heard_le_one (hrules : rules.overlap = false)
    (hrun : ({} : Cluster).run rules moves = some cluster) (key : Key) (uid : String)
    (artifact : Artifact) {action : AccessAction} (haction : artifact.news? = some action) :
    (heard (({} : Cluster).tellings rules moves) (.grant key) uid).count action ≤ 1 := by
  obtain ⟨status, hcovers, -⟩ := covers_runLedger hrules hrun key uid
  have hcount := (heard_isPrefix rules moves cluster (.grant key) uid).sublist.count_le action
  have hledger := hcovers artifact action haction
  split at hledger <;> omega

/-- **Nothing is told of a grant after it has expired**, unless a pass is misled. -/
theorem eq_nil_of_heard_expired (hrules : rules.overlap = false)
    (hrun : ({} : Cluster).run rules moves = some cluster)
    (hhonest : ¬Misled rules moves key uid) {before after : List AccessAction}
    (hheard : heard (({} : Cluster).tellings rules moves) (.grant key) uid =
      before ++ .grantExpired :: after) : after = [] := by
  refine Decidable.byContradiction fun hmore => (expired_runLedger hrules hrun hhonest).1 ?_
  -- What comes before the end of what was told comes before the end of the ledger.
  rw [runLedger, ledger, hheard, List.append_assoc, List.cons_append,
    List.dropLast_append_of_ne_nil (by simp)]
  refine List.mem_append_right _ ?_
  rw [List.dropLast_cons_of_ne_nil (by simp [hmore])]
  exact List.mem_cons_self

/-- **With a store that tells the truth, a grant expires once**: what is told of it either does not
say so, or says so once and ends there. -/
theorem heard_expired_once (hrules : rules.overlap = false) (htruthful : rules.AreTruthful)
    (hrun : ({} : Cluster).run rules moves = some cluster) (key : Key) (uid : String) :
    .grantExpired ∉ heard (({} : Cluster).tellings rules moves) (.grant key) uid ∨
      ∃ before, .grantExpired ∉ before ∧
        heard (({} : Cluster).tellings rules moves) (.grant key) uid =
          before ++ [.grantExpired] := by
  by_cases hmem : .grantExpired ∈ heard (({} : Cluster).tellings rules moves) (.grant key) uid
  · obtain ⟨before, after, hheard, hfirst⟩ := List.eq_append_cons_of_mem hmem
    obtain rfl := eq_nil_of_heard_expired hrules hrun (not_misled htruthful hrun) hheard
    exact .inr ⟨before, hfirst, hheard⟩
  · exact .inl hmem

/-- **Listeners are told nothing twice, and nothing that did not happen**, whatever passes, users
and failing calls do, as long as no two passes on one target overlap. The actions that are told of a
request object begin one of the three tales that a request can have. Of a grant object it is told at
most once that the role was granted, and that the permissions were; and nothing is told after it has
expired, unless the pass that removes it was told that it is missing while it was not. Every event
bears the key of the object that the pass has found, and a move that has made of this object what
the event says comes before it. -/
theorem audit_trail (hrules : rules.overlap = false)
    (hrun : ({} : Cluster).run rules moves = some cluster) :
    (∀ (key : Key) (uid : String),
      heard (({} : Cluster).tellings rules moves) (.request key) uid <+:
          [.requestCreated, .requestApproved] ∨
        heard (({} : Cluster).tellings rules moves) (.request key) uid <+:
          [.requestCreated, .requestDenied, .requestExpired] ∨
        heard (({} : Cluster).tellings rules moves) (.request key) uid <+:
          [.requestCreated, .requestExpired]) ∧
    (∀ (key : Key) (uid : String),
      (∀ action ∈ heard (({} : Cluster).tellings rules moves) (.grant key) uid,
        action = .roleGranted ∨ action = .permissionsGranted ∨ action = .grantExpired) ∧
      (heard (({} : Cluster).tellings rules moves) (.grant key) uid).count .roleGranted ≤ 1 ∧
      (heard (({} : Cluster).tellings rules moves) (.grant key) uid).count .permissionsGranted ≤ 1 ∧
      (¬Misled rules moves key uid → ∀ before after,
        heard (({} : Cluster).tellings rules moves) (.grant key) uid =
          before ++ .grantExpired :: after → after = [])) ∧
    ∀ (earlier later : List Move) (move : Move) (before : Cluster) (telling : Telling),
      moves = earlier ++ move :: later → ({} : Cluster).run rules earlier = some before →
      telling ∈ before.told move → telling.event.key = telling.target.key ∧
        ∃ uid, telling.uid = some uid ∧ (telling.event.action ≠ .grantExpired →
          Wrote rules earlier telling.target uid telling.event.action) := by
  refine ⟨heard_request hrules hrun, fun key uid => ⟨fun action haction => ?_,
    count_heard_le_one hrules hrun key uid .roleBinding rfl,
    count_heard_le_one hrules hrun key uid .adhocBinding rfl, ?_⟩, ?_⟩
  · have hheard := heard_isPrefix rules moves cluster (.grant key) uid
    exact mem_runLedger_grant hrules hrun (hheard.subset haction)
  · exact fun hhonest _ _ => eq_nil_of_heard_expired hrules hrun hhonest
  · rintro earlier later move before telling rfl hearlier htelling
    rw [run_append, hearlier, Option.bind_some] at hrun
    obtain ⟨next, hmove, -⟩ := Option.bind_eq_some_iff.1 hrun
    obtain ⟨hkey, uid, huid, howed⟩ :=
      (reachable_of_run .start hearlier).owed_of_told hmove htelling
    refine ⟨hkey, uid, huid, fun hlast => ?_⟩
    exact wrote_of_mem_runLedger hrules hearlier (List.mem_append_right _ howed) hlast

namespace Scenario

/-- Bob has approved the request of alice; a pass fills in the grant, and a pass on the grant is
about to tell of it. -/
def granting : List Move :=
  approved ++ .start (.request place) :: answers 0 11 ++ .start (.grant place) :: answers 1 7

/-- Access has ended, and the next pass on the grant is told that the grant is missing when it
removes it. Another pass follows. -/
def misled : List Move :=
  granting ++ [.answer 1 "", .answer 1 "", .clock (Instant.epoch.after (11 * nanosPerMinute))] ++
    .start (.grant place) :: answers 2 7 ++ [.refuse 2 (.notFound ""), .answer 2 ""] ++
    .start (.grant place) :: answers 3 10

end Scenario

/-- That alice was granted a role is told, and has been written. -/
theorem audit_trail_alice : ∃ (before cluster : Cluster) (telling : Telling),
    ({} : Cluster).run .queued Scenario.granting = some before ∧
    ({} : Cluster).run .queued (Scenario.granting ++ [.answer 1 ""]) = some cluster ∧
    telling ∈ before.told (.answer 1 "") ∧ telling.event.action = .roleGranted ∧
    telling.event.key = Scenario.place ∧
    Wrote .queued Scenario.granting (.grant Scenario.place) "0-6" .roleGranted := by
  have hrun : (({} : Cluster).run .queued Scenario.granting).any fun before =>
      decide (∃ next ∈ before.move .queued (.answer 1 ""), ∃ telling ∈ before.told (.answer 1 ""),
        telling.target = .grant Scenario.place ∧ telling.uid = some "0-6" ∧
          telling.event.action = .roleGranted) := by decide +kernel
  obtain ⟨before, hbefore, htold⟩ := (Option.any_eq_true _ _).1 hrun
  obtain ⟨next, hmove, telling, htelling, htarget, huid, haction⟩ := of_decide_eq_true htold
  have hmoves : ({} : Cluster).run .queued (Scenario.granting ++ [.answer 1 ""]) = some next := by
    rw [run_append, hbefore, Option.bind_some, run, hmove, Option.bind_some, run]
  obtain ⟨-, -, htellings⟩ := audit_trail rfl hmoves
  obtain ⟨hkey, uid, hsame, hwrote⟩ := htellings _ [] _ before telling rfl hbefore htelling
  obtain rfl : uid = "0-6" := Option.some.inj (hsame.symm.trans huid)
  rw [htarget, haction] at hwrote
  rw [htarget] at hkey
  exact ⟨before, next, telling, hbefore, hmoves, htelling, haction, hkey, hwrote (by decide)⟩

/-- **That a grant has expired can be told twice.** -/
theorem expired_told_twice : ¬∀ (moves : List Move) (cluster : Cluster),
    ({} : Cluster).run .queued moves = some cluster → ∀ (key : Key) (uid : String),
      (heard (({} : Cluster).tellings .queued moves) (.grant key) uid).count .grantExpired ≤ 1 := by
  intro hall
  have hrun : (({} : Cluster).run .queued Scenario.misled).isSome = true := by decide +kernel
  have htwice : (heard (({} : Cluster).tellings .queued Scenario.misled) (.grant Scenario.place)
      "0-6").count .grantExpired = 2 := by decide +kernel
  obtain ⟨cluster, hcluster⟩ := Option.isSome_iff_exists.1 hrun
  have honce := hall _ cluster hcluster Scenario.place "0-6"
  omega

end Cluster

end AccessBroker
