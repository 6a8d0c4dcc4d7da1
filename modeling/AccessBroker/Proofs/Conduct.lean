import AccessBroker.Engine.Pass

/-!
# What a program does, however it is answered

The calls that a program has made, and their answers, are its deeds
(`AccessBroker.Deed`), the latest first. A rule of conduct says which call may follow
which deeds. A program obeys it (`AccessBroker.Program.Obeys`) if it makes only calls
that the rule allows, whatever the answers are; so what is shown of a program here
holds with other programs, users and failing stores in between. The rules for
sequencing reduce this to the parts of a program, each with a condition on the deeds
and the value that it ends with.
-/

namespace AccessBroker

/-- A call together with its answer. -/
structure Deed (I : Interface) where
  call : I.Call
  reply : I.Reply call

/-- Was every deed allowed after those before it? -/
def Heeds {I : Interface} (allows : List (Deed I) → I.Call → Prop) : List (Deed I) → Prop
  | [] => True
  | deed :: past => allows past deed.call ∧ Heeds allows past

section Heeds

variable {I : Interface} {allows : List (Deed I) → I.Call → Prop} {deeds : List (Deed I)}
  {deed other : Deed I}

/-- A deed was allowed after those before it. -/
theorem Heeds.allowed (h : Heeds allows deeds) (hdeed : deed ∈ deeds) :
    ∃ past, deed :: past <:+ deeds ∧ allows past deed.call := by
  induction deeds with
  | nil => cases hdeed
  | cons latest past ih =>
    rcases List.mem_cons.1 hdeed with rfl | hdeed
    · exact ⟨past, List.suffix_refl _, h.1⟩
    · obtain ⟨earlier, hsuffix, hallowed⟩ := ih h.2 hdeed
      exact ⟨earlier, hsuffix.trans (List.suffix_cons _ _), hallowed⟩

theorem Heeds.of_suffix {past : List (Deed I)} (h : Heeds allows deeds) (hsuffix : past <:+ deeds) :
    Heeds allows past := by
  obtain ⟨later, rfl⟩ := hsuffix
  induction later with
  | nil => exact h
  | cons _ _ ih => exact ih h.2

/-- Of two different deeds, one was allowed after the other. -/
theorem Heeds.ordered (h : Heeds allows deeds) (hdeed : deed ∈ deeds) (hother : other ∈ deeds)
    (hne : deed ≠ other) :
    (∃ past, deed :: past <:+ deeds ∧ other ∈ past ∧ allows past deed.call) ∨
      ∃ past, other :: past <:+ deeds ∧ deed ∈ past ∧ allows past other.call := by
  induction deeds with
  | nil => cases hdeed
  | cons latest past ih =>
    rcases List.mem_cons.1 hdeed with rfl | hearlier
    · rcases List.mem_cons.1 hother with rfl | hother
      · exact absurd rfl hne
      · exact .inl ⟨past, List.suffix_refl _, hother, h.1⟩
    · rcases List.mem_cons.1 hother with rfl | hother
      · exact .inr ⟨past, List.suffix_refl _, hearlier, h.1⟩
      · have hsuffix := List.suffix_cons latest past
        rcases ih h.2 hearlier hother with ⟨first, hfirst, hrest⟩ | ⟨first, hfirst, hrest⟩
        · exact .inl ⟨first, hfirst.trans hsuffix, hrest⟩
        · exact .inr ⟨first, hfirst.trans hsuffix, hrest⟩

end Heeds

namespace Program

variable {I : Interface} {α β : Type} {allows : List (Deed I) → I.Call → Prop}
  {ends ends' : List (Deed I) → α → Prop} {past : List (Deed I)}

/-- The program, started after some deeds, makes only calls that are allowed, and what
it ends with fits the deeds that it has done then. -/
def Obeys (allows : List (Deed I) → I.Call → Prop) (ends : List (Deed I) → α → Prop) :
    Program I α → List (Deed I) → Prop
  | .done value, past => ends past value
  | .ask call next, past =>
    allows past call ∧ ∀ reply, (next reply).Obeys allows ends (⟨call, reply⟩ :: past)

theorem Obeys.mono {program : Program I α} (h : program.Obeys allows ends past)
    (hends : ∀ past value, ends past value → ends' past value) :
    program.Obeys allows ends' past := by
  induction program generalizing past with
  | done value => exact hends past value h
  | ask call next ih => exact ⟨h.1, fun reply => ih reply (h.2 reply)⟩

/-- A program that has heeded one rule of conduct and goes on to obey it obeys another one that
forbids nothing more then. -/
theorem Obeys.restrict {allows' : List (Deed I) → I.Call → Prop} {program : Program I α}
    (h : program.Obeys allows ends past) (hheeds : Heeds allows past)
    (hallows : ∀ later call, past <:+ later → Heeds allows later → allows later call →
      allows' later call) : program.Obeys allows' ends past := by
  induction program generalizing past with
  | done value => exact h
  | ask call next ih =>
    refine ⟨hallows past call (List.suffix_refl _) hheeds h.1, fun reply => ?_⟩
    exact ih reply (h.2 reply) ⟨h.1, hheeds⟩ fun later call hsuffix =>
      hallows later call ((List.suffix_cons _ _).trans hsuffix)

/-- A program that obeys one rule of conduct obeys another one that forbids nothing more from where
it was started. -/
theorem Obeys.weaken {allows' : List (Deed I) → I.Call → Prop} {program : Program I α}
    (h : program.Obeys allows ends past)
    (hallows : ∀ later call, past <:+ later → allows later call → allows' later call) :
    program.Obeys allows' ends past := by
  induction program generalizing past with
  | done value => exact h
  | ask call next ih =>
    refine ⟨hallows past call (List.suffix_refl _) h.1, fun reply => ih reply (h.2 reply) ?_⟩
    exact fun later call hsuffix => hallows later call ((List.suffix_cons _ _).trans hsuffix)

/-- What a program does comes after what was done before. -/
theorem Obeys.later {program : Program I α} (h : program.Obeys allows ends past) :
    program.Obeys allows (fun later value => past <:+ later ∧ ends later value) past := by
  induction program generalizing past with
  | done value => exact ⟨List.suffix_refl _, h⟩
  | ask call next ih =>
    refine ⟨h.1, fun reply => (ih reply (h.2 reply)).mono fun later value hends => ?_⟩
    exact ⟨(List.suffix_cons _ _).trans hends.1, hends.2⟩

/-- **Conduct is compositional**: the second program starts after the deeds of the
first one. -/
theorem obeys_bind {program : Program I α} {rest : α → Program I β}
    {ends : List (Deed I) → β → Prop}
    (h : program.Obeys allows (fun past value => (rest value).Obeys allows ends past) past) :
    (program >>= rest).Obeys allows ends past := by
  induction program generalizing past with
  | done value => exact h
  | ask call next ih => exact ⟨h.1, fun reply => ih reply (h.2 reply)⟩

theorem obeys_call {call : I.Call} {ends : List (Deed I) → I.Reply call → Prop}
    (hcall : allows past call) (hends : ∀ reply, ends (⟨call, reply⟩ :: past) reply) :
    (Program.call call).Obeys allows ends past :=
  ⟨hcall, hends⟩

end Program

/-! ### Passes -/

/-- What a pass has done, the latest first. -/
abbrev Deeds := List (Deed passInterface)

/-- The rules of conduct of passes. -/
abbrev Conduct := Deeds → Effect → Prop

namespace Pass

open Program

variable {α β : Type} {allows : Conduct} {past : Deeds}

/-- A part of a pass obeys a rule of conduct, and its result fits the deeds. -/
def Obeys (allows : Conduct) (ends : Deeds → Except Failure α → Prop)
    (pass : Pass α) (past : Deeds) : Prop :=
  Program.Obeys allows ends pass.run past

/-- What is to hold of a part that another one follows: after a failure nothing comes
any more. -/
def Leads (allows : Conduct) (ends : Deeds → Except Failure β → Prop)
    (rest : α → Pass β) (past : Deeds) : Except Failure α → Prop
  | .ok value => (rest value).Obeys allows ends past
  | .error failure => ends past (.error failure)

theorem Obeys.mono {ends ends' : Deeds → Except Failure α → Prop}
    {pass : Pass α} (h : pass.Obeys allows ends past)
    (hends : ∀ past result, ends past result → ends' past result) :
    pass.Obeys allows ends' past :=
  Program.Obeys.mono h hends

/-- A condition on what a part of a pass ends with if it does not fail. -/
def OnSuccess (ends : Deeds → α → Prop) : Deeds → Except Failure α → Prop
  | past, .ok value => ends past value
  | _, .error _ => True

theorem onSuccess_true (result : Except Failure α) :
    OnSuccess (fun _ _ => True) past result := by
  cases result <;> trivial

variable {ends : Deeds → Except Failure β → Prop}

theorem obeys_pure {value : β} (h : ends past (.ok value)) :
    (pure value : Pass β).Obeys allows ends past :=
  h

theorem obeys_throw {failure : Failure} (h : ends past (.error failure)) :
    (throw failure : Pass β).Obeys allows ends past :=
  h

theorem obeys_result {result : Except Failure β} (h : ends past result) :
    (ExceptT.mk (pure result) : Pass β).Obeys allows ends past :=
  h

theorem obeys_bind {pass : Pass α} {rest : α → Pass β}
    (h : pass.Obeys allows (Leads allows ends rest) past) :
    (pass >>= rest).Obeys allows ends past := by
  refine Program.obeys_bind (h.mono fun past result hresult => ?_)
  cases result with
  | ok value => exact hresult
  | error failure => exact hresult

/-- A part of a pass and what follows it, each with its own condition. -/
theorem Obeys.bind {ends' : Deeds → Except Failure α → Prop} {pass : Pass α}
    {rest : α → Pass β} (h : pass.Obeys allows ends' past)
    (hrest : ∀ past value, ends' past (.ok value) → (rest value).Obeys allows ends past)
    (hfailure : ∀ past failure, ends' past (.error failure) → ends past (.error failure)) :
    (pass >>= rest).Obeys allows ends past := by
  refine obeys_bind (h.mono fun past result hresult => ?_)
  cases result with
  | ok value => exact hrest past value hresult
  | error failure => exact hfailure past failure hresult

theorem Obeys.bind_onSuccess {first : Deeds → α → Prop} {second : Deeds → β → Prop}
    {pass : Pass α} {rest : α → Pass β} (h : pass.Obeys allows (OnSuccess first) past)
    (hrest : ∀ past value, first past value → (rest value).Obeys allows (OnSuccess second) past) :
    (pass >>= rest).Obeys allows (OnSuccess second) past :=
  h.bind hrest fun _ _ _ => trivial

theorem obeys_ask {call : StoreCall} {ends : Deeds → call.Reply → Prop}
    (hcall : allows past (.store call))
    (hends : ∀ reply : call.Reply, ends (⟨.store call, reply⟩ :: past) reply) :
    (Pass.ask call).Obeys allows ends past :=
  ⟨hcall, hends⟩

theorem obeys_lift {steps : Steps β}
    (h : steps.Obeys allows (fun past value => ends past (.ok value)) past) :
    (ExceptT.lift steps : Pass β).Obeys allows ends past :=
  Program.obeys_bind h

end Pass

end AccessBroker
