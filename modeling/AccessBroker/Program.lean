/-!
# Programs that make calls

What the broker does to the outside world it does by calls: to a store, to a
database, to a clock. A program (`AccessBroker.Program`) is a tree of such calls:
it is done with a value, or it asks one call and goes on with the answer. Nothing
in it says how a call is answered; that is up to the one who runs it
(`AccessBroker.Program.run`, `AccessBroker.Program.interpret`). So the same program
can be run against a store in memory, against one whose calls fail, or one call at
a time with other programs in between.
-/

namespace AccessBroker

/-- The calls that a program may make, and what each of them is answered with. -/
structure Interface where
  Call : Type
  Reply : Call → Type

/-- A program that makes calls and ends with a value. -/
inductive Program (I : Interface) (α : Type) where
  /-- Ends with a value. -/
  | done (value : α)
  /-- Makes a call and goes on with its answer. -/
  | ask (call : I.Call) (next : I.Reply call → Program I α)

namespace Program

variable {I : Interface} {α β σ : Type}

/-- Runs one program and then the one that its value gives. -/
def bind : Program I α → (α → Program I β) → Program I β
  | .done value, rest => rest value
  | .ask call next, rest => .ask call fun reply => (next reply).bind rest

instance : Monad (Program I) where
  pure := .done
  bind := bind

/-- The program that makes one call and ends with its answer. -/
def call (call : I.Call) : Program I (I.Reply call) :=
  .ask call .done

@[simp]
theorem done_bind (value : α) (rest : α → Program I β) :
    (Program.done value : Program I α) >>= rest = rest value :=
  rfl

@[simp]
theorem ask_bind (call : I.Call) (next : I.Reply call → Program I α) (rest : α → Program I β) :
    Program.ask call next >>= rest = .ask call fun reply => next reply >>= rest :=
  rfl

@[simp]
theorem pure_eq_done (value : α) : (pure value : Program I α) = .done value :=
  rfl

/-- Runs a program where a call is answered by a function of the state, which also
gives the next state. -/
def run (answer : (call : I.Call) → σ → I.Reply call × σ) : Program I α → σ → α × σ
  | .done value, state => (value, state)
  | .ask call next, state =>
    let (reply, state) := answer call state
    (next reply).run answer state

/-- Runs a program where a call is answered by an action. -/
def interpret {m : Type → Type} [Monad m] (answer : (call : I.Call) → m (I.Reply call)) :
    Program I α → m α
  | .done value => pure value
  | .ask call next => do
    let reply ← answer call
    (next reply).interpret answer

@[simp]
theorem run_done (answer : (call : I.Call) → σ → I.Reply call × σ) (value : α) (state : σ) :
    (Program.done value).run answer state = (value, state) :=
  rfl

/-- **Running is compositional**: the second program starts in the state that the
first one left. -/
theorem run_bind (answer : (call : I.Call) → σ → I.Reply call × σ) (program : Program I α)
    (rest : α → Program I β) (state : σ) :
    (program >>= rest).run answer state =
      (rest (program.run answer state).1).run answer (program.run answer state).2 := by
  induction program generalizing state with
  | done value => rfl
  | ask call next ih => exact ih _ _

end Program

end AccessBroker
