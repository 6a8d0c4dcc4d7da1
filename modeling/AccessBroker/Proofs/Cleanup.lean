import AccessBroker.Proofs.Answers
import AccessBroker.Proofs.Desk.Basic
import AccessBroker.Proofs.Engine.Grant

/-!
# Removals that fail

A grant that is deleted, or has run out, is not let go of before everything that goes with it has
been removed. The removals do not wait for each other: each of them is made, whatever became of
those before it (`AccessBroker.Pass.failures_run`), and the failures are collected on the way, in
the order of the calls.

If there is a failure then the pass ends with it, and it has done nothing but look and remove
(`AccessBroker.Effect.SparesGrants`). So the grant stays as it is, with its finalizer and the record
of what is left to remove, and the next pass tries again.
-/

namespace AccessBroker

open AccessBroker.Time AccessBroker.MemoryStore

/-! ### Calls whose failures are collected -/

/-- The failure of a call to the store, if it failed with anything but that something is missing. -/
def Deed.setback? : Deed passInterface → Option Failure
  | ⟨.store _, .error failure⟩ => if failure.isNotFound then none else some failure
  | _ => none

theorem Failure.join_eq_ok_iff {failures : List Failure} :
    Failure.join failures = .ok () ↔ failures = [] := by
  refine ⟨join_eq_ok, ?_⟩
  rintro rfl
  rfl

/-- Two failures or more are joined. -/
theorem Failure.join_of_two_le {failures : List Failure} (h : 2 ≤ failures.length) :
    Failure.join failures = .error (.joined failures) := by
  match failures, h with
  | _ :: _ :: _, _ => rfl

/-- **No call is left out because of what became of those before it**, and the failures come in the
order of the calls. -/
theorem Pass.failures_run (answers : Answers) (calls : List StoreCall) (past : Deeds) :
    ∃ made : Deeds, made.map (·.call) = calls.map Effect.store ∧
      (askEach.failures calls).run answers.record past =
        (made.filterMap Deed.setback?, made.reverse ++ past) := by
  induction calls generalizing past with
  | nil => exact ⟨[], rfl, rfl⟩
  | cons call rest ih =>
    obtain ⟨reply, hreply⟩ : ∃ reply : call.Reply, answers past (.store call) = reply := ⟨_, rfl⟩
    obtain ⟨made, hcalls, hrun⟩ := ih (.ofCall call reply :: past)
    refine ⟨.ofCall call reply :: made, congrArg _ hcalls, ?_⟩
    have hfirst : (Pass.ask call).toleratingMissing.run.run answers.record past =
        (Failure.toleratingMissing reply, .ofCall call reply :: past) := by
      rw [← hreply]
      rfl
    have hlater : (Deed.ofCall call reply :: made).reverse ++ past =
        made.reverse ++ .ofCall call reply :: past := by simp
    rw [hlater, askEach.failures, Program.run_bind_of_eq hfirst]
    cases reply with
    | ok value => exact hrun
    | error failure =>
      cases hmissing : failure.isNotFound with
      | true =>
        have htolerated : Failure.toleratingMissing (.error failure : call.Reply) = .ok none := by
          rw [Failure.toleratingMissing, hmissing, if_pos rfl]
        have hnone : Deed.setback? (.ofCall call (.error failure)) = none := by
          rw [Deed.setback?, hmissing, if_pos rfl]
        rw [htolerated, List.filterMap_cons_none hnone]
        exact hrun
      | false =>
        have hreported : Failure.toleratingMissing (.error failure : call.Reply) =
            .error failure := by
          rw [Failure.toleratingMissing, hmissing, if_neg nofun]
        have hsome : Deed.setback? (.ofCall call (.error failure)) = some failure := by
          rw [Deed.setback?, hmissing, if_neg nofun]
        rw [hreported, List.filterMap_cons_some hsome]
        exact Program.run_bind_of_eq hrun

namespace Grant

variable {answers : Answers} {key : Key} {grant : Grant} {past : Deeds}

/-! ### What goes with a grant -/

/-- **What goes with a grant**: the artifacts that are recorded, and the request that it names. -/
theorem mem_removals_iff {call : StoreCall} : call ∈ grant.removals ↔
    (∃ artifact : Artifact, artifact.isRecorded grant.body = true ∧
      call = .delete artifact.kind (artifact.key grant.body)) ∨
    grant.body.request ≠ "" ∧ call = .delete .request grant.body.requestKey := by
  have hall (artifact : Artifact) : artifact ∈ Artifact.removalOrder := by
    cases artifact <;> decide
  unfold removals
  dsimp only
  rw [List.mem_append, List.mem_map]
  refine or_congr (exists_congr fun artifact => ?_) ?_
  · rw [List.mem_filter, and_iff_right (hall artifact)]
    exact and_congr_right fun _ => eq_comm
  · by_cases hnamed : grant.body.request = ""
    · simp [hnamed]
    · simp [hnamed]

/-- Different artifacts are removed by different calls. -/
theorem deletion_injective (status : GrantStatus) :
    Function.Injective fun artifact : Artifact =>
      StoreCall.delete artifact.kind (artifact.key status) := by
  intro first second heq
  obtain ⟨hkind, hkey⟩ := StoreCall.delete.inj heq
  exact Artifact.eq_of_key hkind hkey

/-- Nothing is removed twice. -/
theorem nodup_removals (grant : Grant) : grant.removals.Nodup := by
  unfold removals
  dsimp only
  refine List.nodup_append.2 ⟨?_, ?_, ?_⟩
  · refine List.Pairwise.map _ (fun _ _ => (deletion_injective grant.body).ne) ?_
    exact List.Pairwise.filter _ (by decide)
  · split <;> simp
  · rintro call hartifact other hrequest rfl
    obtain ⟨artifact, -, rfl⟩ := List.mem_map.1 hartifact
    split at hrequest
    · cases hrequest
    · cases artifact <;> cases List.mem_singleton.1 hrequest

/-! ### Passes that remove -/

/-- What a pass is answered that has to remove what goes with a grant: it finds the grant with its
finalizer, and the grant is being deleted, or it is filled in and access has ended by the clock. -/
structure Ending (answers : Answers) (key : Key) (grant : Grant) : Prop where
  found : answers [] (.store (.find .grant key)) = .ok (some grant)
  held : grant.isHeld = true
  ended : grant.metadata.isDeleting = true ∨
    grant.metadata.isDeleting = false ∧ grant.body.isPopulated = true ∧
      grant.isOver (answers [.ofCall (.find .grant key) (.ok (some grant))] .clock) = true

/-- What the pass has done when it begins to remove. -/
def looked (answers : Answers) (key : Key) (grant : Grant) : Deeds :=
  let found : Deeds := [.ofCall (.find .grant key) (.ok (some grant))]
  if grant.metadata.isDeleting then found else ⟨.clock, answers found .clock⟩ :: found

/-- What the removals come to that are made after some deeds: the calls in order, each with its
answer, and the result. It is success if no call failed but for a missing object, the failure if
there is one, and all failures joined if there are more. -/
structure Cleans (answers : Answers) (grant : Grant) (past made : Deeds)
    (result : Except Failure Unit) : Prop where
  run : grant.cleanup.run.run answers.record past = (result, made.reverse ++ past)
  calls : made.map (·.call) = grant.removals.map Effect.store
  settled : result = .ok () ↔ ∀ deed ∈ made, deed.setback? = none
  lone : ∀ failure, made.filterMap Deed.setback? = [failure] → result = .error failure
  joined : 2 ≤ (made.filterMap Deed.setback?).length →
    result = .error (.joined (made.filterMap Deed.setback?))

/-- **All removals are made**, and what failed is reported. -/
theorem cleans (answers : Answers) (grant : Grant) (past : Deeds) :
    ∃ made result, grant.Cleans answers past made result := by
  obtain ⟨made, hcalls, hrun⟩ := Pass.failures_run answers grant.removals past
  refine ⟨made, Failure.join (made.filterMap Deed.setback?), Program.run_bind_of_eq hrun, hcalls,
    ?_, ?_, Failure.join_of_two_le⟩
  · rw [Failure.join_eq_ok_iff, List.filterMap_eq_nil_iff]
  · rintro failure hlone
    rw [hlone]
    rfl

/-- A pass that has to remove what goes with a grant does so, after it has looked. -/
theorem reconcile_run (h : Ending answers key grant) : ∃ rest : Unit → Pass Outcome,
    (reconcile key).run.run answers.record [] =
      (grant.cleanup >>= rest).run.run answers.record (looked answers key grant) := by
  have hfind : (Pass.ask (.find .grant key)).run.run answers.record [] =
      (.ok (some grant), [.ofCall (.find .grant key) (.ok (some grant))]) :=
    Prod.ext h.found (congrArg (fun reply => [Deed.ofCall (.find .grant key) reply]) h.found)
  have hfinalizer : grant.metadata.hasFinalizer cleanupFinalizer = true := h.held
  unfold reconcile
  rw [Pass.run_bind_of_ok hfind]
  dsimp only
  rcases h.ended with hdeleting | ⟨hlive, hpopulated, hover⟩
  · rw [if_pos hdeleting, finalize, if_pos hfinalizer, looked, if_pos hdeleting]
    exact ⟨_, rfl⟩
  · let found : Deeds := [.ofCall (.find .grant key) (.ok (some grant))]
    have hensure : grant.ensureFinalizer.run.run answers.record found = (.ok grant, found) := by
      rw [ensureFinalizer, if_pos hfinalizer]
      rfl
    have hclock : Pass.clock.run.run answers.record found =
        (.ok (answers found .clock), ⟨.clock, answers found .clock⟩ :: found) := rfl
    rw [if_neg (by simp [hlive]), looked, if_neg (by simp [hlive]), advance,
      Pass.run_bind_of_ok hensure, if_neg (by simp [hpopulated]), Pass.run_bind_of_ok hclock,
      if_pos hover, expire]
    exact ⟨_, rfl⟩

end Grant

/-! ### The grant stays as it is -/

/-- A call that tells nobody of anything and, if it is made to a store, leaves every grant there as
it is. -/
structure Effect.SparesGrants (effect : Effect) : Prop where
  silent : ∀ event, effect ≠ .tell event
  spares : ∀ call : StoreCall, effect = .store call →
    ∀ (now : Instant) (uid : String) (store after : MemoryStore) (reply : call.Reply),
      store.Keyed → Performed now uid store call reply after →
      ∀ place, after.find? .grant place = store.find? .grant place

namespace Grant

variable {answers : Answers} {key : Key} {grant : Grant} {past : Deeds}

/-- What goes with a grant is no grant. -/
theorem sparesGrants_of_mem_removals {call : StoreCall} (h : call ∈ grant.removals) :
    (Effect.store call).SparesGrants where
  silent := nofun
  spares := by
    rintro _ ⟨⟩ now uid store after reply hkeyed hperformed place
    rcases mem_removals h with ⟨kind, other, howned, rfl⟩ | rfl
    · refine hperformed.find?_of_delete hkeyed rfl ?_
      rintro rfl
      cases howned
    · exact hperformed.find?_of_delete hkeyed rfl nofun

theorem sparesGrants_of_mem_looked {deed : Deed passInterface}
    (h : deed ∈ looked answers key grant) : deed.call.SparesGrants := by
  have hfind : (Effect.store (.find .grant key)).SparesGrants := by
    refine ⟨nofun, ?_⟩
    rintro _ ⟨⟩ now uid store after reply hkeyed hperformed place
    cases hperformed.turn hkeyed .grant place with
    | kept hsame => exact hsame
    | collected howned => cases howned
  have hclock : Effect.clock.SparesGrants := ⟨nofun, fun _ heq => by cases heq⟩
  unfold looked at h
  dsimp only at h
  split at h
  · cases List.mem_singleton.1 h
    exact hfind
  · rcases List.mem_cons.1 h with rfl | h
    · exact hclock
    · cases List.mem_singleton.1 h
      exact hfind

/-- **A revocation that fails is complete, and leaves the grant.** A pass that has to remove what
goes with a grant removes each recorded artifact and the request that the grant names, each of them
once and whatever became of the others; it fails with what went wrong with the removals, a missing
object apart. If nothing went wrong then it goes on from there. If anything did then it ends there:
it has told nobody of anything, and no call that it has made changes a grant. -/
theorem removals_complete (h : Ending answers key grant) :
    (grant.removals.Nodup ∧ ∀ call, call ∈ grant.removals ↔
      (∃ artifact : Artifact, artifact.isRecorded grant.body = true ∧
        call = .delete artifact.kind (artifact.key grant.body)) ∨
      grant.body.request ≠ "" ∧ call = .delete .request grant.body.requestKey) ∧
    ∃ made result, grant.Cleans answers (looked answers key grant) made result ∧
      (result = .ok () → made.reverse ++ looked answers key grant <:+
        ((reconcile key).run.run answers.record []).2) ∧
      ∀ failure, result = .error failure →
        (reconcile key).run.run answers.record [] =
          (.error failure, made.reverse ++ looked answers key grant) ∧
        ∀ deed ∈ made.reverse ++ looked answers key grant, deed.call.SparesGrants := by
  obtain ⟨made, result, hcleans⟩ := cleans answers grant (looked answers key grant)
  obtain ⟨rest, hrun⟩ := reconcile_run h
  refine ⟨⟨nodup_removals grant, fun _ => mem_removals_iff⟩, made, result, hcleans, ?_, ?_⟩
  · rintro rfl
    rw [hrun, Pass.run_bind_of_ok hcleans.run]
    exact Program.suffix_run _ _ _
  · rintro failure rfl
    refine ⟨hrun.trans (Pass.run_bind_of_error hcleans.run), fun deed hdeed => ?_⟩
    rcases List.mem_append.1 hdeed with hmade | hlooked
    · obtain ⟨call, hcall, heq⟩ : ∃ call ∈ grant.removals, Effect.store call = deed.call := by
        refine List.mem_map.1 ?_
        rw [← hcleans.calls]
        exact List.mem_map_of_mem (List.mem_reverse.1 hmade)
      exact heq ▸ sparesGrants_of_mem_removals hcall
    · exact sparesGrants_of_mem_looked hlooked

/-- Where a grant has run out that has provisioned everything. -/
def lapsedPlace : Key :=
  ⟨some "team", "r"⟩

/-- The grant. -/
def lapsed : Grant where
  metadata := { Metadata.ofKey lapsedPlace with finalizers := [cleanupFinalizer] }
  body :=
    { request := "r", requestId := "id", subject := "alice", duration := "10m",
      expiresAt := some .epoch, roleBound := true, adhocRoleCreated := true,
      adhocRoleBound := true, space := "team" }

/-- What the pass on it is answered: no binding can be removed, the role is gone already, and the
request has changed. -/
def refusals : Answers
  | _, .store (.find .grant _) => .ok (some lapsed)
  | _, .store (.delete .binding place) => .error (.internal place.name)
  | _, .store (.delete .role place) => .error (Kind.role.missing place)
  | _, .store (.delete .request place) => .error (.conflict place.name)
  | _, .store _ => .error (.internal "unavailable")
  | _, .tell _ => .ok ()
  | _, .policies => {}
  | _, .clock => .last
  | _, .freshId => "id"

/-- The pass removes all four, and fails with the three failures. -/
theorem removals_complete_lapsed :
    Ending refusals lapsedPlace lapsed ∧ lapsed.removals.length = 4 ∧
      ((reconcile lapsedPlace).run.run refusals.record []).1 = .error (.joined
        [.internal (bindingName "id"), .internal (adhocName "id"), .conflict "r"]) := by
  have h : Ending refusals lapsedPlace lapsed :=
    ⟨rfl, by decide, .inr ⟨rfl, by decide, by decide⟩⟩
  obtain ⟨-, made, result, hcleans, -, hfails⟩ := removals_complete h
  have hresult : result = .error (.joined
      [.internal (bindingName "id"), .internal (adhocName "id"), .conflict "r"]) :=
    (congrArg Prod.fst hcleans.run).symm
  exact ⟨h, by decide, congrArg Prod.fst (hfails _ hresult).1⟩

end Grant

end AccessBroker
