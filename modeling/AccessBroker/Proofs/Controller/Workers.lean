import AccessBroker.Proofs.Controller.Basic

/-!
# The workers of a controller

What is true of every controller that can come about, whatever is stored: the targets that the queue
has handed out are those that workers have, each of them once (`AccessBroker.Controller.Staffed`);
every pass keeps to its rule of conduct, and a pass on a grant will come to what such a pass can
come to (`AccessBroker.Journal.Foreseen`). In particular no pass cuts the feed, so that the vigil in
a controller is one that can come about by itself (`AccessBroker.Controller.Stands.vigil`).
-/

namespace AccessBroker

/-! ### Entries of a list -/

section Entries

variable {α β : Type} {entries : List α} {place : Nat} {entry other : α} {f : α → β}

/-- What is not replaced is left. -/
theorem mem_set_of_mem (hplace : entries[place]? = some entry) (hother : other ∈ entries)
    (new : α) : other = entry ∨ other ∈ entries.set place new := by
  obtain ⟨position, hposition⟩ := List.getElem?_of_mem hother
  by_cases hsame : place = position
  · subst hsame
    exact .inl (Option.some.inj (hposition.symm.trans hplace))
  · refine .inr (List.mem_of_getElem? (i := position) ?_)
    rw [List.getElem?_set, if_neg hsame]
    exact hposition

/-- What is not taken out is left. -/
theorem mem_eraseIdx_of_mem (hplace : entries[place]? = some entry) (hother : other ∈ entries) :
    other = entry ∨ other ∈ entries.eraseIdx place := by
  obtain ⟨position, hposition⟩ := List.getElem?_of_mem hother
  by_cases hsame : position = place
  · subst hsame
    exact .inl (Option.some.inj (hposition.symm.trans hplace))
  · exact .inr (List.mem_eraseIdx_iff_getElem?.2 ⟨position, hsame, hposition⟩)

/-- An entry is replaced by one with the same image. -/
theorem map_set_of_eq (hplace : entries[place]? = some entry) {new : α}
    (hnew : f new = f entry) : (entries.set place new).map f = entries.map f := by
  obtain ⟨hlength, rfl⟩ := List.getElem?_eq_some_iff.1 hplace
  have hmapped : place < (entries.map f).length := by rwa [List.length_map]
  rw [List.map_set, hnew, ← List.getElem_map f (h := hmapped), List.set_getElem_self]

/-- An entry is taken out whose image no other one has. -/
theorem map_eraseIdx_of_nodup [DecidableEq β] (hplace : entries[place]? = some entry)
    (hnodup : (entries.map f).Nodup) :
    (entries.eraseIdx place).map f = (entries.map f).filter (· ≠ f entry) := by
  induction entries generalizing place with
  | nil => cases hplace
  | cons first rest ih =>
    rw [List.map_cons, List.nodup_cons] at hnodup
    cases place with
    | zero =>
      obtain rfl := Option.some.inj hplace
      have hrest : (rest.map f).filter (· ≠ f first) = rest.map f := by
        refine List.filter_eq_self.2 fun value hvalue => decide_eq_true ?_
        rintro rfl
        exact hnodup.1 hvalue
      rw [List.eraseIdx_cons_zero, List.map_cons, List.filter_cons_of_neg (by simp), hrest]
    | succ place =>
      have hentry : f entry ∈ rest.map f :=
        List.mem_map_of_mem (List.mem_of_getElem? hplace)
      have hfirst : f first ≠ f entry := fun hsame => hnodup.1 (hsame ▸ hentry)
      rw [List.eraseIdx_cons_succ, List.map_cons, ih hplace hnodup.2, List.map_cons,
        List.filter_cons_of_pos (by simpa using hfirst)]

end Entries

/-! ### Passes -/

/-- A pass keeps to its rule of conduct, and if it is on a grant it will come to what such a pass
can come to. -/
structure Journal.Foreseen (journal : Journal) : Prop where
  orderly : journal.Orderly
  judged (key : Key) : journal.target = .grant key →
    journal.rest.Obeys (fun _ _ => True) (Pass.OnSuccess fun deeds outcome =>
      ∃ found, Deed.ofCall (.find .grant key) (.ok found) ∈ deeds ∧
        ∀ grant ∈ found, Grant.Judged grant deeds outcome) journal.deeds

namespace Journal.Foreseen

variable {target : Target} {past : Deeds} {effect : Effect}
  {next : passInterface.Reply effect → Steps (Except Failure Outcome)}

theorem opening (target : Target) : (Journal.opening target).Foreseen where
  orderly := orderly_opening target
  judged key htarget := by
    obtain rfl : target = .grant key := htarget
    exact Grant.reconcile_judged key

theorem advanced (h : Foreseen ⟨target, past, .ask effect next⟩)
    (reply : passInterface.Reply effect) :
    Foreseen ⟨target, ⟨effect, reply⟩ :: past, next reply⟩ where
  orderly := h.orderly.advanced reply
  judged key htarget := (h.judged key htarget).2 reply

/-- No pass cuts the feed. -/
theorem uncut {call : StoreCall}
    {next : passInterface.Reply (.store call) → Steps (Except Failure Outcome)}
    (h : Foreseen ⟨target, past, .ask (.store call) next⟩) : call.isCut = false := by
  have hallowed := h.orderly.allowed
  cases target with
  | request key =>
    change Request.Conduct key past (.store call) at hallowed
    cases hallowed <;> rfl
  | grant key =>
    change Grant.Conduct key past (.store call) at hallowed
    cases hallowed <;> rfl

end Journal.Foreseen

/-- The target of the pass. -/
def Handling.target (handling : Handling) : Target :=
  handling.journal.target

namespace Controller

variable {charter : Charter} {controller next : Controller} {post onward : Post}

/-- A controller can come about, and its watcher stands somewhere in it. -/
inductive Stands (charter : Charter) : Controller → Post → Prop
  /-- At the start, the watcher is to read the policies. -/
  | start : Stands charter {} (.review .start)
  /-- Every move goes on from there. -/
  | step {controller next : Controller} {post onward : Post}
    (before : Stands charter controller post)
    (moved : Moved charter controller post next onward) : Stands charter next onward

/-- **Every pass that is under way** will come to what it can come to. -/
theorem Stands.foreseen (h : Stands charter controller post) {handling : Handling}
    (hhandling : handling ∈ controller.handlings) : handling.journal.Foreseen := by
  induction h generalizing handling with
  | start => cases hhandling
  | step _ hmoved ih =>
    cases hmoved with
    | called | woken | watched | timed | fired => exact ih hhandling
    | taken =>
      rcases List.mem_cons.1 hhandling with rfl | hhandling
      · exact .opening _
      · exact ih hhandling
    | answered hcurrent =>
      rcases List.mem_or_eq_of_mem_set hhandling with hhandling | rfl
      · exact ih hhandling
      · exact (ih (List.mem_of_getElem? hcurrent)).advanced _
    | settled hcurrent =>
      rw [handlings_postpone] at hhandling
      rcases List.mem_or_eq_of_mem_set hhandling with hhandling | rfl
      · exact ih hhandling
      · have hforeseen := ih (List.mem_of_getElem? hcurrent)
        exact hforeseen
    | finished => exact ih (List.mem_of_mem_eraseIdx hhandling)

/-- **The vigil in a controller** can come about by itself. -/
theorem Stands.vigil (h : Stands charter controller post) :
    Vigil.Stands charter.regime controller.vigil post := by
  induction h with
  | start => exact .start
  | step before hmoved ih =>
    cases hmoved with
    | called now uid huncut => exact ih.called now uid huncut
    | woken now => exact ih.woken now
    | watched hstep hserved => exact ih.advanced hstep hserved
    | timed | taken | finished | fired => exact ih
    | settled =>
      rw [vigil_postpone]
      exact ih
    | answered hcurrent hserved =>
      cases hserved with
      | performed call uid =>
        exact ih.called _ uid (before.foreseen (List.mem_of_getElem? hcurrent)).uncut
      | refused | aside => exact ih

/-- **The watcher of a controller always stands somewhere.** -/
theorem Reachable.stands (h : Reachable charter controller) :
    ∃ post, Stands charter controller post := by
  induction h with
  | start => exact ⟨_, .start⟩
  | step move _ hmove ih =>
    obtain ⟨post, hpost⟩ := ih
    obtain ⟨onward, hmoved⟩ := moved_of_move hpost.vigil hmove
    exact ⟨onward, hpost.step hmoved⟩

/-! ### Who has which target -/

/-- The queue is open and in order, and the targets that it has handed out are those that workers
have. -/
structure Staffed (controller : Controller) : Prop where
  opened : controller.queue.closed = false
  tidy : controller.queue.Tidy
  handed : controller.queue.processing = controller.handlings.map Handling.target

/-- No two workers have one target. -/
theorem Staffed.unique (h : Staffed controller) {handling other : Handling}
    (hhandling : handling ∈ controller.handlings) (hother : other ∈ controller.handlings)
    (htarget : handling.target = other.target) : handling = other := by
  obtain ⟨place, hplace⟩ := List.getElem?_of_mem hhandling
  obtain ⟨place', hplace'⟩ := List.getElem?_of_mem hother
  have hnodup := h.handed ▸ h.tidy.handed
  have hlength : place < (controller.handlings.map Handling.target).length := by
    rw [List.length_map]
    exact (List.getElem?_eq_some_iff.1 hplace).1
  have hsame : (controller.handlings.map Handling.target)[place]? =
      (controller.handlings.map Handling.target)[place']? := by
    rw [List.getElem?_map, List.getElem?_map, hplace, hplace', Option.map_some, Option.map_some,
      htarget]
  obtain rfl := (List.getElem?_inj hlength hnodup).1 hsame
  exact Option.some.inj (hplace.symm.trans hplace')

theorem Staffed.add (h : Staffed controller) (target : Target) :
    Staffed { controller with queue := (controller.queue.add target).2 } where
  opened := (controller.queue.closed_add target).trans h.opened
  tidy := h.tidy.add target
  handed := (controller.queue.processing_add target).trans h.handed

theorem Staffed.postpone (h : Staffed controller) (target : Target) (postponed : Postponed) :
    Staffed (controller.postpone target postponed) := by
  cases postponed with
  | now => exact h.add target
  | later | never => exact ⟨h.opened, h.tidy, h.handed⟩

theorem Staffed.moved (h : Staffed controller)
    (hmoved : Moved charter controller post next onward) : Staffed next := by
  cases hmoved with
  | called | woken | timed => exact ⟨h.opened, h.tidy, h.handed⟩
  | @watched _ _ effect =>
    cases effect with
    | enqueue target =>
      obtain ⟨hopened, htidy, hhanded⟩ := h.add target
      exact ⟨hopened, htidy, hhanded⟩
    | store | replacePolicies => exact ⟨h.opened, h.tidy, h.handed⟩
  | taken htake =>
    have htidy := h.tidy.take htake
    obtain ⟨rest, -, rfl⟩ := WorkQueue.take_eq_target htake
    exact ⟨h.opened, htidy, congrArg _ h.handed⟩
  | answered hcurrent =>
    refine ⟨h.opened, h.tidy, h.handed.trans (map_set_of_eq hcurrent ?_).symm⟩
    rfl
  | @settled _ place target past result postponed queue hcurrent hsettle =>
    obtain ⟨failures, hfailures⟩ :=
      controller.queue.settle_eq charter.backoff controller.now target result
    rw [hsettle] at hfailures
    subst hfailures
    have hrecorded : Staffed (controller.record place ⟨target, past, .done result⟩ result
        { controller.queue with failures }) := by
      refine ⟨h.opened, ⟨h.tidy.queued, h.tidy.handed, h.tidy.waiting⟩, ?_⟩
      refine h.handed.trans (map_set_of_eq hcurrent ?_).symm
      rfl
    exact hrecorded.postpone target postponed
  | @finished _ place journal hcurrent =>
    have hbusy : journal.target ∈ controller.queue.processing := by
      rw [h.handed]
      exact List.mem_map_of_mem (List.mem_of_getElem? hcurrent)
    refine ⟨(controller.queue.closed_done _).trans h.opened, h.tidy.done hbusy, ?_⟩
    have hnodup := h.handed ▸ h.tidy.handed
    rw [WorkQueue.processing_done, h.handed]
    exact (map_eraseIdx_of_nodup hcurrent hnodup).symm
  | fired =>
    obtain ⟨hopened, htidy, hhanded⟩ := h.add _
    exact ⟨hopened, htidy, hhanded⟩

theorem Stands.staffed (h : Stands charter controller post) : Staffed controller := by
  induction h with
  | start => exact ⟨rfl, WorkQueue.tidy_empty, rfl⟩
  | step _ hmoved ih => exact ih.moved hmoved

end Controller

end AccessBroker
