import AccessBroker.Proofs.Store.Transactions

/-!
# Statements that fail

A store in a database is a program over statements, any of which may fail, the beginning and the
end of a transaction and its rolling back among them. Here such a program is run with a plan that
says of each statement whether it fails (`AccessBroker.Trial`); a statement that fails leaves the
database as it is, and what everybody else could read is noted after each statement.

The part of a write inside of its transaction gives up at the first statement that fails
(`AccessBroker.Relational.IsPart`). So a part that succeeds has done what it does where no statement
fails, and meanwhile nobody has seen any of it (`AccessBroker.Relational.IsPart.attempt`). Hence a
transaction either leaves the tables alone, or its part was run without a failure and committed in
one statement (`AccessBroker.Relational.attempt_inTransaction`).
-/

namespace AccessBroker

open AccessBroker.Time

/-- A database under trial: some of the next statements fail. -/
structure Trial where
  database : Database
  /-- Which of the next statements fail, and why; later ones do not. -/
  faults : List (Option StatementError) := []
  /-- The tables after each statement so far, the latest first, as others can read them. -/
  seen : List Tables := []

namespace Trial

variable {now : Instant} {uid : String}

/-- The trial after a statement that has left a database. -/
def after (trial : Trial) (database : Database) : Trial where
  database
  faults := trial.faults.tail
  seen := database.tables :: trial.seen

/-- Answers what a store in a database asks for: the time is `now`, the identifier that is not used
yet is `uid`, and a statement that fails leaves the database as it is. -/
def answer (now : Instant) (uid : String) : (effect : relationalInterface.Call) → Trial →
    relationalInterface.Reply effect × Trial
  | .execute statement, trial =>
    match trial.faults.head?.join with
    | some cause => (.error cause, trial.after trial.database)
    | none =>
      (.ok (trial.database.execute statement).1, trial.after (trial.database.execute statement).2)
  | .clock, trial => (now, trial)
  | .freshId, trial => (uid, trial)

/-- A program that runs a statement goes on with its answer. -/
theorem run_execute {γ : Type} {statement : Statement}
    (next : Except StatementError statement.Result → Program relationalInterface γ)
    (trial : Trial) :
    Program.run (answer now uid) (.ask (.execute statement) next) trial =
      match trial.faults.head?.join with
      | some cause =>
        Program.run (answer now uid) (next (.error cause)) (trial.after trial.database)
      | none =>
        Program.run (answer now uid) (next (.ok (trial.database.execute statement).1))
          (trial.after (trial.database.execute statement).2) := by
  cases hfault : trial.faults.head?.join <;> simp only [Program.run, answer, hfault]

/-- A trial goes on to another one, and all the while others could read some tables only. -/
def Sees (trial later : Trial) (visible : Tables → Prop) : Prop :=
  ∃ seen, later.seen = seen ++ trial.seen ∧ ∀ tables ∈ seen, visible tables

theorem Sees.refl (trial : Trial) (visible : Tables → Prop) : trial.Sees trial visible :=
  ⟨[], rfl, nofun⟩

theorem Sees.trans {trial later last : Trial} {visible : Tables → Prop}
    (h : trial.Sees later visible) (h' : later.Sees last visible) : trial.Sees last visible := by
  obtain ⟨seen, hseen, hvisible⟩ := h
  obtain ⟨more, hmore, hvisible'⟩ := h'
  refine ⟨more ++ seen, by rw [hmore, hseen, List.append_assoc], fun tables htables => ?_⟩
  exact (List.mem_append.1 htables).elim (hvisible' tables) (hvisible tables)

theorem Sees.mono {trial later : Trial} {visible wider : Tables → Prop}
    (h : trial.Sees later visible) (hwider : ∀ tables, visible tables → wider tables) :
    trial.Sees later wider := by
  obtain ⟨seen, hseen, hvisible⟩ := h
  exact ⟨seen, hseen, fun tables htables => hwider tables (hvisible tables htables)⟩

theorem sees_after (trial : Trial) (database : Database) {visible : Tables → Prop}
    (h : visible database.tables) : trial.Sees (trial.after database) visible :=
  ⟨[database.tables], rfl, fun _ htables => List.mem_singleton.1 htables ▸ h⟩

end Trial

/-- A statement works on the copy of the tables that a transaction has. -/
def Statement.isInner : Statement → Bool
  | .nextVersion | .lock _ | .find _ | .insert _ _ | .upsert _ _ | .delete _ | .collect _
  | .recordChange _ _ => true
  | _ => false

/-- Inside of a transaction the tables stay as they are for others. -/
theorem Database.execute_inner {database : Database} {statement : Statement}
    (hinner : statement.isInner = true) (hunder : database.transaction.isSome = true) :
    (database.execute statement).2.tables = database.tables ∧
      (database.execute statement).2.transaction.isSome = true := by
  have hwith (tables : Tables) : (database.withCurrent tables).tables = database.tables ∧
      (database.withCurrent tables).transaction.isSome = true := by
    unfold withCurrent
    obtain ⟨work, hwork⟩ := Option.isSome_iff_exists.1 hunder
    rw [hwork]
    exact ⟨rfl, rfl⟩
  cases statement with
  | nextVersion | lock | find => exact ⟨rfl, hunder⟩
  | insert key row =>
    unfold execute
    dsimp only
    split
    · exact ⟨rfl, hunder⟩
    · exact hwith _
  | upsert | delete | collect | recordChange => exact hwith _
  | setup | begin | commit | rollback | list | listKeys | listReferencing | head | changes
  | compact | audit => cases hinner

namespace Relational

variable {α β : Type} {kind : Kind} {now : Instant} {uid : String}

/-- Runs a part of an answer on a database some of whose statements fail. -/
def attempt (now : Instant) (uid : String) (part : Relational α) (trial : Trial) :
    Except Failure α × Trial :=
  Program.run (Trial.answer now uid) part.run trial

/-! ### Parts -/

/-- A program inside of a transaction, which gives up at the first statement that fails. -/
inductive IsPartProgram : Program relationalInterface (Except Failure α) → Prop
  /-- It has succeeded or failed. -/
  | done (outcome : Except Failure α) : IsPartProgram (.done outcome)
  /-- It runs a statement. -/
  | execute {statement : Statement}
    {next : Except StatementError statement.Result →
      Program relationalInterface (Except Failure α)}
    (inner : statement.isInner = true)
    (failed : ∀ cause, ∃ failure, next (.error cause) = .done (.error failure))
    (succeeded : ∀ result, IsPartProgram (next (.ok result))) :
    IsPartProgram (.ask (.execute statement) next)
  /-- It asks for the time. -/
  | clock {next : Instant → Program relationalInterface (Except Failure α)}
    (rest : ∀ now, IsPartProgram (next now)) : IsPartProgram (.ask .clock next)
  /-- It asks for an identifier. -/
  | freshId {next : String → Program relationalInterface (Except Failure α)}
    (rest : ∀ uid, IsPartProgram (next uid)) : IsPartProgram (.ask .freshId next)

/-- A part of an answer runs inside of a transaction, and gives up at the first statement that
fails. -/
def IsPart (part : Relational α) : Prop :=
  IsPartProgram part.run

namespace IsPart

theorem pure (value : α) : IsPart (Pure.pure value : Relational α) :=
  .done (.ok value)

theorem throw (failure : Failure) : IsPart (MonadExcept.throw failure : Relational α) :=
  .done (.error failure)

theorem settled (outcome : Except Failure α) : IsPart (Relational.settled outcome) :=
  .done outcome

theorem clock : IsPart Relational.clock :=
  IsPartProgram.clock fun now => .done (.ok now)

theorem freshId : IsPart Relational.freshId :=
  IsPartProgram.freshId fun uid => .done (.ok uid)

theorem execute (task : String) {statement : Statement} (hinner : statement.isInner = true) :
    IsPart (Relational.execute task statement) :=
  IsPartProgram.execute hinner (fun _ => ⟨_, rfl⟩) fun result => .done (.ok result)

/-- **Parts are put together to parts.** -/
theorem bind {part : Relational α} {rest : α → Relational β} (hpart : part.IsPart)
    (hrest : ∀ value, (rest value).IsPart) : (part >>= rest).IsPart := by
  unfold IsPart at hpart ⊢
  rw [ExceptT.run_bind]
  generalize part.run = program at hpart
  induction hpart with
  | done outcome =>
    cases outcome with
    | ok value => exact hrest value
    | error failure => exact .done (.error failure)
  | execute hinner hfailed _ ih =>
    refine .execute hinner (fun cause => ?_) ih
    obtain ⟨failure, hfailure⟩ := hfailed cause
    exact ⟨failure, by rw [hfailure]; rfl⟩
  | clock _ ih => exact .clock ih
  | freshId _ ih => exact .freshId ih

/-- **What a part comes to** where some statements fail: nobody sees any of it, and if it succeeds
it has done what it does where none fails. -/
theorem attempt {part : Relational α} (h : part.IsPart) (trial : Trial)
    (hunder : trial.database.transaction.isSome = true) :
    trial.Sees (part.attempt now uid trial).2 (· = trial.database.tables) ∧
      (part.attempt now uid trial).2.database.tables = trial.database.tables ∧
      ∀ value, (part.attempt now uid trial).1 = .ok value →
        part.serve now uid trial.database =
          (.ok value, (part.attempt now uid trial).2.database) := by
  unfold IsPart at h
  unfold Relational.attempt serve
  generalize part.run = program at h
  induction h generalizing trial with
  | done outcome => exact ⟨.refl _ _, rfl, fun value hvalue => congrArg (·, _) hvalue⟩
  | clock _ ih => exact ih now trial hunder
  | freshId _ ih => exact ih uid trial hunder
  | @execute statement next hinner hfailed _ ih =>
    rw [Trial.run_execute]
    cases trial.faults.head?.join with
    | some cause =>
      obtain ⟨failure, hfailure⟩ := hfailed cause
      dsimp only
      rw [hfailure]
      exact ⟨trial.sees_after _ rfl, rfl, nofun⟩
    | none =>
      obtain ⟨htables, hunder'⟩ := Database.execute_inner hinner hunder
      obtain ⟨hsees, hleft, hserve⟩ := ih (trial.database.execute statement).1
        (trial.after (trial.database.execute statement).2) hunder'
      have hfirst : trial.Sees (trial.after (trial.database.execute statement).2)
          (· = trial.database.tables) := trial.sees_after _ htables
      exact ⟨hfirst.trans (hsees.mono fun tables hsame => hsame.trans htables),
        hleft.trans htables, hserve⟩

end IsPart

/-! ### Transactions -/

theorem attempt_bind (part : Relational α) (rest : α → Relational β) (trial : Trial) :
    (part >>= rest).attempt now uid trial =
      match part.attempt now uid trial with
      | (.ok value, trial) => (rest value).attempt now uid trial
      | (.error failure, trial) => (.error failure, trial) := by
  rw [attempt, ExceptT.run_bind, Program.run_bind]
  unfold attempt
  rcases Program.run (Trial.answer now uid) part.run trial with ⟨_ | value, after⟩ <;> rfl

/-- A statement fails, or the database carries it out. -/
theorem attempt_execute (task : String) (statement : Statement) (trial : Trial) :
    (∃ failure, (execute task statement).attempt now uid trial =
        (.error failure, trial.after trial.database)) ∨
      (execute task statement).attempt now uid trial =
        (.ok (trial.database.execute statement).1,
          trial.after (trial.database.execute statement).2) := by
  let next : Except StatementError statement.Result →
      Program relationalInterface (Except Failure statement.Result)
    | .ok value => .done (.ok value)
    | .error cause => .done (.error (.internal s!"failed to {task}: {cause.message}"))
  have hrun : (execute task statement).attempt now uid trial = _ := Trial.run_execute next trial
  rw [hrun]
  cases trial.faults.head?.join with
  | some cause => exact .inl ⟨_, rfl⟩
  | none => exact .inr rfl

/-- What is done between the beginning and the end of a transaction. -/
theorem attempt_inTransaction_eq (part : Relational α) (trial : Trial) :
    (inTransaction part).attempt now uid trial =
      match (execute "begin transaction" .begin).attempt now uid trial with
      | (.error failure, trial) => (.error failure, trial)
      | (.ok (), trial) =>
        match (do
          let value ← part
          execute "commit transaction" .commit
          return value : Relational α).attempt now uid trial with
        | (.ok value, trial) => (.ok value, trial)
        | (.error failure, trial) =>
          (.error failure,
            ((execute "roll back transaction" .rollback).attempt now uid trial).2) := by
  rw [inTransaction, attempt_bind]
  rcases (execute "begin transaction" .begin).attempt now uid trial with ⟨_ | _, begun⟩
  · rfl
  · dsimp only
    change Program.run (Trial.answer now uid) (_ >>= _) begun = _
    rw [Program.run_bind]
    unfold attempt
    rcases Program.run (Trial.answer now uid) (ExceptT.run _) begun with ⟨_ | value, middle⟩
    · dsimp only
      rw [Program.run_bind]
      rfl
    · rfl

/-- **A transaction is all or nothing.** It has failed, and the tables are as they were; or it has
succeeded, its part has done what it does where no statement fails, and others could read either the
tables as they were or what was committed. -/
theorem attempt_inTransaction (now : Instant) (uid : String) {part : Relational α}
    (h : part.IsPart) (trial : Trial) :
    (∃ failure last, (inTransaction part).attempt now uid trial = (.error failure, last) ∧
        last.database.tables = trial.database.tables ∧
        trial.Sees last (· = trial.database.tables)) ∨
      ∃ value middle last, (inTransaction part).attempt now uid trial = (.ok value, last) ∧
        part.serve now uid (trial.database.execute .begin).2 = (.ok value, middle) ∧
        last.database = (middle.execute .commit).2 ∧
        trial.Sees last fun tables =>
          tables = trial.database.tables ∨ tables = last.database.tables := by
  rw [attempt_inTransaction_eq]
  rcases attempt_execute "begin transaction" .begin trial with ⟨failure, hbegin⟩ | hbegin
  · rw [hbegin]
    exact .inl ⟨failure, _, rfl, rfl, trial.sees_after _ rfl⟩
  · rw [hbegin]
    dsimp only
    let begun := trial.after (trial.database.execute .begin).2
    have hbegun : trial.Sees begun (· = trial.database.tables) := trial.sees_after _ rfl
    obtain ⟨hsees, htables, hserve⟩ := h.attempt begun rfl
    -- Whatever has failed, what comes of rolling it back leaves the tables as they are.
    have hfailed (failure : Failure) {middle : Trial}
        (hleft : middle.database.tables = trial.database.tables)
        (hmiddle : trial.Sees middle (· = trial.database.tables)) :
        ∃ last, (.error failure, ((execute "roll back transaction" .rollback).attempt now uid
            middle).2) = ((.error failure, last) : Except Failure α × Trial) ∧
          last.database.tables = trial.database.tables ∧
          trial.Sees last (· = trial.database.tables) := by
      rcases attempt_execute "roll back transaction" .rollback middle with ⟨_, hback⟩ | hback
      all_goals
        rw [hback]
        exact ⟨_, rfl, hleft, hmiddle.trans (middle.sees_after _ hleft)⟩
    rw [attempt_bind]
    cases hpart : part.attempt now uid begun with
    | mk outcome middle =>
      rw [hpart] at hsees htables hserve
      have hmiddle := hbegun.trans hsees
      cases outcome with
      | error failure => exact .inl ⟨failure, hfailed failure htables hmiddle⟩
      | ok value =>
        dsimp only
        rw [attempt_bind]
        rcases attempt_execute "commit transaction" .commit middle with ⟨failure, hcommit⟩ | hcommit
        · rw [hcommit]
          exact .inl ⟨failure, hfailed failure htables
            (hmiddle.trans (middle.sees_after _ htables))⟩
        · rw [hcommit]
          refine .inr ⟨value, _, _, rfl, hserve value rfl, rfl, ?_⟩
          exact (hmiddle.mono fun _ => .inl).trans (middle.sees_after _ (.inr rfl))

end Relational

end AccessBroker
