import AccessBroker.Proofs.Conduct

/-!
# Passes that are answered

A pass says what it asks for, and leaves the answers open. Here they are given, by a function of all
that the pass has done before (`AccessBroker.Answers`): so they may be those of a store with other
passes and users around it, or refuse any call at any time. The pass then has one run, which keeps
account of what was done, and the run of a sequence is cut at the first part
(`AccessBroker.Program.run_bind_of_eq`).
-/

namespace AccessBroker

/-- Answers to a pass, which may depend on all that it has done before. -/
abbrev Answers := Deeds → (effect : Effect) → passInterface.Reply effect

/-- Answers what a pass asks for, and keeps account of it. -/
def Answers.record (answers : Answers) (effect : passInterface.Call) (past : Deeds) :
    passInterface.Reply effect × Deeds :=
  (answers past effect, ⟨effect, answers past effect⟩ :: past)

section Answered

variable {α β σ : Type} {answers : Answers} {past : Deeds} {permits : Effect → Prop}

/-- A rule that a program obeys, whatever the answers are, is obeyed by its run with given ones. -/
theorem Program.Obeys.answered {program : Steps α} {ends : Deeds → α → Prop}
    (h : program.Obeys (fun _ => permits) ends past) (hpast : ∀ deed ∈ past, permits deed.call)
    (answers : Answers) :
    (∀ deed ∈ (program.run answers.record past).2, permits deed.call) ∧
      ends (program.run answers.record past).2 (program.run answers.record past).1 := by
  induction program generalizing past with
  | done value => exact ⟨hpast, h⟩
  | ask call next ih => exact ih _ (h.2 _) (List.forall_mem_cons.2 ⟨h.1, hpast⟩)

/-- What was done before stays on the account. -/
theorem Program.suffix_run (program : Steps α) (answers : Answers) (past : Deeds) :
    past <:+ (program.run answers.record past).2 := by
  induction program generalizing past with
  | done value => exact List.suffix_refl _
  | ask call next ih => exact (List.suffix_cons _ _).trans (ih _ _)

/-- A program goes on with what its first part came to. -/
theorem Program.run_bind_of_eq {answer : (effect : passInterface.Call) → σ →
      passInterface.Reply effect × σ} {program : Steps α} {rest : α → Steps β} {value : α}
    {state next : σ} (h : program.run answer state = (value, next)) :
    (program >>= rest).run answer state = (rest value).run answer next := by
  rw [run_bind, h]

/-- A pass goes on with what its first part came to. -/
theorem Pass.run_bind_of_ok {answer : (effect : passInterface.Call) → σ →
      passInterface.Reply effect × σ} {pass : Pass α} {rest : α → Pass β} {value : α}
    {state next : σ} (h : pass.run.run answer state = (.ok value, next)) :
    (pass >>= rest).run.run answer state = (rest value).run.run answer next :=
  Program.run_bind_of_eq h

/-- A pass ends where its first part fails. -/
theorem Pass.run_bind_of_error {answer : (effect : passInterface.Call) → σ →
      passInterface.Reply effect × σ} {pass : Pass α} {rest : α → Pass β} {failure : Failure}
    {state next : σ} (h : pass.run.run answer state = (.error failure, next)) :
    (pass >>= rest).run.run answer state = (.error failure, next) :=
  Program.run_bind_of_eq h

/-- A part that cannot fail is run as it is. -/
theorem Pass.run_lift_bind (answer : (effect : passInterface.Call) → σ →
      passInterface.Reply effect × σ) (steps : Steps α) (rest : α → Pass β) (state : σ) :
    (ExceptT.lift steps >>= rest).run.run answer state =
      (rest (steps.run answer state).1).run.run answer (steps.run answer state).2 := by
  have hlift : (ExceptT.lift steps : Pass α).run.run answer state =
      (.ok (steps.run answer state).1, (steps.run answer state).2) :=
    Program.run_bind answer steps (fun value => .done (Except.ok value)) state
  exact run_bind_of_ok hlift

end Answered

end AccessBroker
