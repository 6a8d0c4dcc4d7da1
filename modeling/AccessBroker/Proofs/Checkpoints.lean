import AccessBroker.Proofs.Cluster.Lineage
import AccessBroker.Proofs.Engine.Provisioning

/-!
# Checkpoints of provisioning

A pass that provisions a grant may be cut short anywhere: a creation fails, or the write of the
status does. What it writes is based on the grant that it has secured, and the cluster takes it only
if nobody has written the grant in between; so what one pass says of its grant, in
`AccessBroker.Grant.Checkpoint`, is true of the stored one. It follows that the stored statuses of
one grant go on from each other (`AccessBroker.Cluster.Reachable.grant_advances`), over any number
of passes and whichever of their calls fail.

What a single pass creates, in which order, and what it records of that, is read off its journal.
-/

namespace AccessBroker

open AccessBroker.Time

/-- What a grant is filled in with records nothing yet. -/
theorem Request.isRecorded_grantStatus (request : Request) (id : String) (approvers : List String)
    (artifact : Artifact) : artifact.isRecorded (request.grantStatus id approvers) = false := by
  unfold grantStatus GrantStatus.withScope
  cases request.scope <;> cases artifact <;> rfl

namespace Cluster

variable {rules : Rules} {cluster next : Cluster} {key : Key} {new : Grant}

/-! ### From one stored status to the next -/

/-- A pass on a grant has provisioned it in stages, and goes on to. -/
theorem Reachable.staged (h : Reachable rules cluster) {place : Nat} {journal : Journal}
    (hjournal : cluster.journals[place]? = some journal) (htarget : journal.target = .grant key) :
    Heeds (Grant.Staged key) journal.deeds ∧
      journal.rest.Obeys (Grant.Staged key) Grant.Concludes journal.deeds :=
  h.keeps (show (Target.grant key).reconcile.run.Obeys _ _ [] from Grant.reconcile_staged key)
    hjournal htarget

/-- What a pass on a grant writes has come from provisioning the grant that it is based on. -/
theorem Reachable.checkpoint (h : Reachable rules cluster) {place : Nat} {past : Deeds}
    {grant : Grant} {status : GrantStatus} {reply : Except Failure Grant}
    (hacts : Acts cluster next place (.grant key) past (.patchStatus .grant grant status) reply) :
    ∃ start now reached provisioned time, Grant.Timed key start grant now past ∧
      Grant.Checkpoint grant now (creations past) reached provisioned time status := by
  obtain ⟨rest, hcurrent, -⟩ := hacts
  exact (h.staged hcurrent rfl).2.1

/-- **A move lets a grant that is filled in go on**, as long as it is the same object that is
stored. -/
theorem Reachable.grant_advances (h : Reachable rules cluster) (hmoved : Moved rules cluster next)
    (hnew : next.store.find? .grant key = some new) :
    cluster.store.find? .grant key = none ∧ new.metadata.uid ∉ cluster.issued ∨
      ∃ old : Grant, cluster.store.find? .grant key = some old ∧
        new.metadata.uid = old.metadata.uid ∧
        (old.body.isPopulated = true → GrantStatus.Advances old.body new.body) := by
  cases (h.grantTurn hmoved key).becomes hnew with
  | kept hfound huid hbody => exact .inr ⟨_, hfound, huid, fun _ => hbody ▸ .refl _⟩
  | launched hvacant hfresh => exact .inl ⟨hvacant, hfresh⟩
  | filled _ _ hblank hfound =>
    refine .inr ⟨_, hfound, rfl, fun hpopulated => ?_⟩
    cases hblank.symm.trans hpopulated
  | recorded hacts _ _ hfound =>
    obtain ⟨_, _, _, _, _, -, hcheckpoint⟩ := h.checkpoint hacts
    exact .inr ⟨_, hfound, rfl, fun _ => hcheckpoint.advances⟩

/-- **Where something is recorded, the end of access is fixed**, whenever the grant is shown. -/
theorem Reachable.isDated (h : Reachable rules cluster) {grant : Grant}
    (hshown : cluster.Shown grant) : GrantStatus.IsDated grant.body := by
  refine h.grant_induction (P := fun _ _ _ status => status.IsDated) ?_ ?_ ?_ ?_ hshown
  · exact fun _ hdated => hdated
  · exact fun _ _ _ artifact hartifact => by cases artifact <;> cases hartifact
  · intro _ _ _ request id approvers artifact hartifact
    rw [request.isRecorded_grantStatus] at hartifact
    cases hartifact
  · intro _ _ _ _ _ _ _ _ h _ hacts _ _ hbody _
    rw [hbody]
    obtain ⟨_, _, _, _, _, -, hcheckpoint⟩ := h.checkpoint hacts
    exact hcheckpoint.isDated

/-- That a grant goes on from a status that is filled in lasts. -/
theorem lasts_advances (rules : Rules) (key : Key) {status : GrantStatus}
    (hpopulated : status.isPopulated = true) :
    Lasts rules key fun grant : Grant => GrantStatus.Advances status grant.body := by
  intro cluster next new h hmoved hnew
  refine (h.grant_advances hmoved hnew).imp id fun ⟨old, hold, hsame, hnext⟩ => ?_
  refine ⟨old, hold, hsame, fun hearlier => hearlier.trans (hnext ?_)⟩
  exact (GrantStatus.isPopulated_of_terms hearlier.terms).trans hpopulated

/-- **What was shown of a grant that is filled in has gone on to what is stored.** -/
theorem Reachable.grant_advances_lineage (h : Reachable rules cluster) {first last : Grant}
    (hfirst : cluster.Shown first) (hpopulated : first.body.isPopulated = true)
    (hlast : cluster.store.find? .grant first.key = some last)
    (huid : last.metadata.uid = first.metadata.uid) :
    GrantStatus.Advances first.body last.body :=
  Reachable.keeps_lineage (lasts_advances rules first.key hpopulated) h hfirst hlast huid (.refl _)

/-- **A grant that is filled in goes on from what was stored of it**, over any number of moves. -/
theorem Reachable.grant_advances_run (h : Reachable rules cluster) {moves : List Move}
    {later : Cluster} (hrun : cluster.run rules moves = some later) {first last : Grant}
    (hfirst : cluster.store.find? .grant key = some first)
    (hlast : later.store.find? .grant key = some last)
    (huid : last.metadata.uid = first.metadata.uid) (hpopulated : first.body.isPopulated = true) :
    GrantStatus.Advances first.body last.body :=
  Reachable.keeps_run (lasts_advances rules key hpopulated) h hrun hfirst hlast huid (.refl _)

/-! ### One pass -/

/-- What a pass has created by the time that it records how far it has come, it has created in
all. -/
theorem mem_of_recorded {deeds past : Deeds} {grant updated : Grant} {status : GrantStatus}
    {deed : Deed passInterface} (h : Heeds (Grant.Staged key) deeds)
    (hrecord : .ofCall (.patchStatus .grant grant status) (.ok updated) :: past <:+ deeds)
    (hdeed : deed ∈ deeds) (hcreation : deed.isCreation = true) : deed ∈ past := by
  obtain ⟨later, rfl⟩ := hrecord
  rcases List.mem_append.1 hdeed with hlater | hearlier
  · -- Nothing may be created after the write.
    obtain ⟨after, before, rfl⟩ := List.append_of_mem hlater
    have hallowed := (h.of_suffix ⟨after, (List.append_assoc after (deed :: before) _).symm⟩).1
    obtain ⟨call, reply⟩ := deed
    unfold Deed.isCreation at hcreation
    split at hcreation
    · next heq =>
      cases heq
      obtain ⟨_, _, _, _, -, -, -, hunrecorded⟩ := hallowed
      exact absurd (List.mem_append_right _ List.mem_cons_self) (hunrecorded grant status updated)
    · cases hcreation
  · rcases List.mem_cons.1 hearlier with rfl | hearlier
    · cases hcreation
    · exact hearlier

/-- **Provisioning goes by checkpoints.** Of a grant that is filled in, nothing changes any more but
what is recorded as existing and the end of access; what is recorded stays recorded, the end of
access is fixed once, and it is fixed where anything is recorded. This holds over any number of
moves, in which passes, users and failing calls come in between each other in any way.

A pass creates an artifact only if the grant that it has secured calls for it and does not record
it, after the artifacts before it have been provided, and after nothing else has been created. When
the status that it writes is taken, an artifact is recorded if and only if it was before, or the
pass has provided it; and the pass ends with the failure for which it has come no farther, or asks
for another pass right after the end of access. -/
theorem Reachable.provisioning_checkpoints (h : Reachable rules cluster) :
    (∀ {key : Key} {moves : List Move} {later : Cluster} {first last : Grant},
      cluster.run rules moves = some later → cluster.store.find? .grant key = some first →
      later.store.find? .grant key = some last → last.metadata.uid = first.metadata.uid →
      first.body.isPopulated = true →
      GrantStatus.Advances first.body last.body ∧ GrantStatus.IsDated last.body) ∧
    ∀ {key : Key} {place : Nat} {journal : Journal}, cluster.journals[place]? = some journal →
      journal.target = .grant key →
      (∀ {kind : Kind} {object : Object kind} {reply : Except Failure (Object kind)} {past : Deeds},
        .ofCall (.create kind object) reply :: past <:+ journal.deeds →
        ∃ (start grant : Grant) (artifact : Artifact), Secured key past start grant ∧
          grant.Awaits artifact (creations past) ∧
          grant.creation artifact = .ok (some (.create kind object))) ∧
      ∀ {grant updated : Grant} {status : GrantStatus},
        Deed.ofCall (.patchStatus .grant grant status) (.ok updated) ∈ journal.deeds →
        (∀ artifact : Artifact, artifact.isRecorded updated.body = true ↔
          artifact.isRecorded grant.body = true ∨
            ∃ deed ∈ journal.deeds, grant.Provides artifact deed) ∧
        ∀ outcome, journal.rest = .done outcome → ∃ reached provisioned time,
          grant.Reaches (creations journal.deeds) reached provisioned ∧
          updated.body.expiresAt = some time ∧
          outcome = provisioned.map fun _ => .requeueAt (time.after expiryBuffer) := by
  refine ⟨fun hrun hfirst hlast huid hpopulated => ?_, fun hjournal htarget => ⟨?_, ?_⟩⟩
  · exact ⟨h.grant_advances_run hrun hfirst hlast huid hpopulated,
      (reachable_of_run h hrun).isDated (.inl ((reachable_of_run h hrun).sound.stores hlast))⟩
  · intro kind object reply past hsuffix
    obtain ⟨start, grant, now, artifact, htimed, hawaits, hcreation, -⟩ :=
      ((h.staged hjournal htarget).1.of_suffix hsuffix).1
    exact ⟨start, grant, artifact, htimed.secured, hawaits, hcreation⟩
  · intro grant updated status hdeed
    obtain ⟨hheeds, hobeys⟩ := h.staged hjournal htarget
    obtain ⟨version, rfl⟩ := h.patched hjournal hdeed
    obtain ⟨past, hsuffix, -, _, _, _, _, -, hcheckpoint⟩ := hheeds.allowed hdeed
    refine ⟨fun artifact => hcheckpoint.isRecorded_iff.trans (or_congr_right ?_), ?_⟩
    · refine exists_congr fun deed =>
        ⟨fun ⟨hcreated, hprovides⟩ => ?_, fun ⟨hdone, hprovides⟩ => ?_⟩
      · exact ⟨hsuffix.mem (List.mem_cons_of_mem _ (mem_creations.1 hcreated).1), hprovides⟩
      · have hearlier := mem_of_recorded hheeds hsuffix hdone hprovides.isCreation
        exact ⟨mem_creations.2 ⟨hearlier, hprovides.isCreation⟩, hprovides⟩
    · intro outcome hover
      rw [hover] at hobeys
      obtain ⟨_, reached, provisioned, time, hconcluded, houtcome⟩ := hobeys _ _ _ hdeed
      refine ⟨reached, provisioned, time, hconcluded.provisions, ?_, houtcome⟩
      have hstatus := congrArg GrantStatus.expiresAt hconcluded.status
      exact hstatus

/-- A pass on the grant of alice binds her role, but no role for her rules can be made. -/
def Scenario.halting : List Move :=
  .start (.grant place) :: answers 1 4 ++
    [.refuse 1 (.internal "unavailable"), .answer 1 "1-5", .answer 1 "1-6"]

/-- The grant before and after a deed that has written its status. -/
def Scenario.record? : Deed passInterface → Option (Grant × Grant)
  | ⟨.store (.patchStatus .grant grant _), .ok updated⟩ => some (grant, updated)
  | _ => none

theorem Scenario.eq_of_record? {deed : Deed passInterface} {grant updated : Grant}
    (h : record? deed = some (grant, updated)) :
    ∃ status, deed = .ofCall (.patchStatus .grant grant status) (.ok updated) := by
  unfold record? at h
  split at h
  · cases h
    exact ⟨_, rfl⟩
  · cases h

/-- A status records the binding of the role, and another one does not. -/
def Scenario.Binds (old new : GrantStatus) : Prop :=
  old.isPopulated = true ∧ old.roleBound = false ∧ new.roleBound = true ∧
    new.adhocRoleCreated = false

instance (old new : GrantStatus) : Decidable (Scenario.Binds old new) :=
  inferInstanceAs (Decidable (_ ∧ _ ∧ _ ∧ _))

/-- The binding is recorded, and nothing else: it is what the pass has provided. -/
theorem checkpoints_alice : ∃ (cluster later : Cluster) (first last : Grant) (journal : Journal)
    (grant updated : Grant), Reachable .unrestricted cluster ∧
    cluster.run .unrestricted Scenario.halting = some later ∧
    cluster.store.find? .grant Scenario.place = some first ∧
    later.store.find? .grant Scenario.place = some last ∧
    last.metadata.uid = first.metadata.uid ∧ Scenario.Binds first.body last.body ∧
    GrantStatus.Advances first.body last.body ∧ GrantStatus.IsDated last.body ∧
    later.journals[1]? = some journal ∧ Scenario.Binds grant.body updated.body ∧
    ∃ deed ∈ journal.deeds, grant.Provides .roleBinding deed := by
  obtain ⟨cluster, hreachable, later, hrun, first, hfirst, last, hlast, huid, hbinds, journal,
    hjournal, htarget, deed, hdeed, ⟨grant, updated⟩, hrecord, hrecorded⟩ := exists_reachable
    (P := fun cluster => ∃ later ∈ cluster.run .unrestricted Scenario.halting,
      ∃ first ∈ cluster.store.find? .grant Scenario.place,
      ∃ last ∈ later.store.find? .grant Scenario.place,
      last.metadata.uid = first.metadata.uid ∧ Scenario.Binds first.body last.body ∧
      ∃ journal ∈ later.journals[1]?, journal.target = .grant Scenario.place ∧
      ∃ deed ∈ journal.deeds, ∃ pair ∈ Scenario.record? deed,
      Scenario.Binds pair.1.body pair.2.body)
    .unrestricted (Scenario.approved ++ .start (.request Scenario.place) :: Scenario.answers 0 11)
    (by decide +kernel)
  obtain ⟨hadvances, hdated⟩ := (Reachable.provisioning_checkpoints hreachable).1 hrun hfirst hlast
    huid hbinds.1
  obtain ⟨status, rfl⟩ := Scenario.eq_of_record? hrecord
  have hlater := reachable_of_run hreachable hrun
  obtain ⟨-, hrecords⟩ := (Reachable.provisioning_checkpoints hlater).2 hjournal htarget
  have hprovided := ((hrecords hdeed).1 .roleBinding).1 hrecorded.2.2.1
  refine ⟨cluster, later, first, last, journal, grant, updated, hreachable, hrun, hfirst, hlast,
    huid, hbinds, hadvances, hdated, hjournal, hrecorded, hprovided.resolve_left ?_⟩
  exact Bool.eq_false_iff.1 hrecorded.2.1

end Cluster

end AccessBroker
