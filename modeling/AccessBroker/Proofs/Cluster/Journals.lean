import AccessBroker.Proofs.Cluster.Basic

/-!
# Journals

What can be said of the passes of a cluster, whatever is stored. Every journal is
orderly (`AccessBroker.Journal.Orderly`): the pass has kept to its rule of conduct, and it
goes on to keep to it. A move adds at most one deed to one journal, and never takes one
away; so whoever has done something has done it for good
(`AccessBroker.Cluster.Moved.remains`). Where passes on one target do not overlap, there is
at most one under way on each (`AccessBroker.Cluster.Exclusive`).
-/

namespace AccessBroker

/-- The rule of conduct for passes on a target. -/
def Target.conduct : Target → Conduct
  | .request key => Request.Conduct key
  | .grant key => Grant.Conduct key

namespace Journal

/-- The pass has kept to its rule of conduct, and goes on to keep to it. -/
structure Orderly (journal : Journal) : Prop where
  heeds : Heeds journal.target.conduct journal.deeds
  obeys : journal.rest.Obeys journal.target.conduct (fun _ _ => True) journal.deeds

@[simp]
theorem target_opening (target : Target) : (opening target).target = target :=
  rfl

theorem orderly_opening (target : Target) : (opening target).Orderly where
  heeds := trivial
  obeys := by
    cases target with
    | request key => exact (Request.reconcile_obeys key).mono fun _ _ _ => trivial
    | grant key => exact (Grant.reconcile_obeys key).mono fun _ _ _ => trivial

variable {target : Target} {past : Deeds} {effect : Effect}
  {next : passInterface.Reply effect → Steps (Except Failure Outcome)}

/-- The next call is allowed. -/
theorem Orderly.allowed (h : Orderly ⟨target, past, .ask effect next⟩) :
    target.conduct past effect :=
  h.obeys.1

theorem Orderly.advanced (h : Orderly ⟨target, past, .ask effect next⟩)
    (reply : passInterface.Reply effect) :
    Orderly ⟨target, ⟨effect, reply⟩ :: past, next reply⟩ where
  heeds := ⟨h.obeys.1, h.heeds⟩
  obeys := h.obeys.2 reply

end Journal

namespace Cluster

variable {rules : Rules} {cluster next : Cluster} {journal : Journal}

/-- How a journal of the next cluster came about. -/
inductive Fate (rules : Rules) (cluster next : Cluster) (place : Nat) : Journal → Prop
  /-- It is as before. -/
  | kept {journal : Journal} (before : cluster.journals[place]? = some journal) :
    Fate rules cluster next place journal
  /-- The pass has been started. -/
  | started {target : Target} (idle : rules.overlap = true ∨ cluster.isIdle target = true)
    (last : place = cluster.journals.length) : Fate rules cluster next place (.opening target)
  /-- The pass has been answered. -/
  | advanced {target : Target} {past : Deeds} {effect : Effect}
    {rest : passInterface.Reply effect → Steps (Except Failure Outcome)}
    {reply : passInterface.Reply effect}
    (before : cluster.journals[place]? = some ⟨target, past, .ask effect rest⟩)
    (served : Served rules cluster effect reply next.store next.issued)
    (others : ∀ other, other ≠ place → next.journals[other]? = cluster.journals[other]?) :
    Fate rules cluster next place ⟨target, ⟨effect, reply⟩ :: past, rest reply⟩

/-- **A move adds at most one deed to a journal.** -/
theorem Moved.fate (h : Moved rules cluster next) {place : Nat}
    (hjournal : next.journals[place]? = some journal) : Fate rules cluster next place journal := by
  cases h with
  | aside | called => exact .kept hjournal
  | started hidle =>
    rw [List.getElem?_append] at hjournal
    split at hjournal
    · exact .kept hjournal
    · next hplace =>
      obtain ⟨hlast, rfl⟩ : place = cluster.journals.length ∧ _ = journal := by
        rw [List.getElem?_singleton] at hjournal
        split at hjournal
        · exact ⟨by omega, Option.some.inj hjournal⟩
        · cases hjournal
      exact .started hidle hlast
  | @advanced pass target past effect rest reply store issued hcurrent hserved =>
    rw [List.getElem?_set] at hjournal
    split at hjournal
    · next hplace =>
      subst hplace
      split at hjournal
      · obtain rfl := Option.some.inj hjournal
        refine .advanced hcurrent hserved fun other hother => ?_
        rw [List.getElem?_set, if_neg hother.symm]
      · cases hjournal
    · exact .kept hjournal

/-- **What a pass has done, it has done for good.** -/
theorem Moved.remains (h : Moved rules cluster next) {place : Nat}
    (hjournal : cluster.journals[place]? = some journal) :
    ∃ later, next.journals[place]? = some later ∧ later.target = journal.target ∧
      journal.deeds <:+ later.deeds := by
  have hplace : place < cluster.journals.length := (List.getElem?_eq_some_iff.1 hjournal).1
  cases h with
  | aside | called => exact ⟨journal, hjournal, rfl, List.suffix_refl _⟩
  | started =>
    refine ⟨journal, ?_, rfl, List.suffix_refl _⟩
    rw [List.getElem?_append_left hplace]
    exact hjournal
  | @advanced pass target past effect rest reply store issued hcurrent =>
    by_cases hpass : pass = place
    · subst hpass
      obtain rfl := Option.some.inj (hcurrent.symm.trans hjournal)
      refine ⟨⟨target, ⟨effect, reply⟩ :: past, rest reply⟩, ?_, rfl, List.suffix_cons _ _⟩
      rw [List.getElem?_set, if_pos rfl, if_pos hplace]
    · refine ⟨journal, ?_, rfl, List.suffix_refl _⟩
      rw [List.getElem?_set, if_neg hpass]
      exact hjournal

/-- **Whatever all passes on a target keep to**, a pass that was started has kept to, and goes on to
keep to. -/
theorem Reachable.keeps (h : Reachable rules cluster) {target : Target} {allows : Conduct}
    {ends : Deeds → Except Failure Outcome → Prop}
    (hobeys : target.reconcile.run.Obeys allows ends []) {place : Nat}
    (hjournal : cluster.journals[place]? = some journal) (htarget : journal.target = target) :
    Heeds allows journal.deeds ∧ journal.rest.Obeys allows ends journal.deeds := by
  induction h generalizing place journal with
  | start => cases hjournal
  | step move _ hmoved ih =>
    cases (moved_of_move hmoved).fate hjournal with
    | kept hbefore => exact ih hbefore htarget
    | started =>
      subst htarget
      exact ⟨trivial, hobeys⟩
    | advanced hbefore =>
      obtain ⟨hheeds, hallowed, hrest⟩ := ih hbefore htarget
      exact ⟨⟨hallowed, hheeds⟩, hrest _⟩

/-- Every pass keeps to its rule of conduct. -/
def Orderly (cluster : Cluster) : Prop :=
  ∀ (place : Nat) (journal : Journal), cluster.journals[place]? = some journal → journal.Orderly

/-- **In every run, every pass keeps to its rule of conduct.** -/
theorem Reachable.orderly (h : Reachable rules cluster) : cluster.Orderly := by
  intro place journal hjournal
  obtain ⟨hheeds, hobeys⟩ := h.keeps (Journal.orderly_opening _).obeys hjournal rfl
  exact ⟨hheeds, hobeys⟩

/-- At most one pass on each target is under way. -/
def Exclusive (cluster : Cluster) : Prop :=
  ∀ (place place' : Nat) (journal journal' : Journal), cluster.journals[place]? = some journal →
    cluster.journals[place']? = some journal' → journal.target = journal'.target →
    journal.isOver = false → journal'.isOver = false → place = place'

/-- A target is not idle while a pass on it is under way. -/
theorem not_isIdle {place : Nat} (hjournal : cluster.journals[place]? = some journal)
    (hover : journal.isOver = false) : cluster.isIdle journal.target = false := by
  refine Bool.eq_false_iff.2 fun hidle => ?_
  have hpassive := List.all_eq_true.1 hidle journal (List.mem_of_getElem? hjournal)
  simp [hover] at hpassive

/-- A pass that is under way was under way before, or has just been started, and there was
no other one on its target then. -/
theorem Fate.underWay {place : Nat} (h : Fate rules cluster next place journal)
    (hrules : rules.overlap = false) (hover : journal.isOver = false) :
    (∃ before, cluster.journals[place]? = some before ∧ before.target = journal.target ∧
        before.isOver = false) ∨
      place = cluster.journals.length ∧ ∀ (place' : Nat) (other : Journal),
        cluster.journals[place']? = some other → other.isOver = false →
          other.target ≠ journal.target := by
  cases h with
  | kept hbefore => exact .inl ⟨journal, hbefore, rfl, hover⟩
  | advanced hbefore => exact .inl ⟨_, hbefore, rfl, rfl⟩
  | started hidle hlast =>
    refine .inr ⟨hlast, fun place' other hother hunder htarget => ?_⟩
    have hbusy := not_isIdle hother hunder
    rw [htarget, Journal.target_opening] at hbusy
    simp [hrules, hbusy] at hidle

/-- **Passes on one target do not overlap**, where they may not. -/
theorem Reachable.exclusive (h : Reachable rules cluster) (hrules : rules.overlap = false) :
    cluster.Exclusive := by
  induction h with
  | start => exact fun place place' journal journal' hjournal => by cases hjournal
  | step move _ hmoved ih =>
    intro place place' journal journal' hjournal hjournal' htarget hover hover'
    have hfate := ((moved_of_move hmoved).fate hjournal).underWay hrules hover
    have hfate' := ((moved_of_move hmoved).fate hjournal').underWay hrules hover'
    rcases hfate with ⟨before, hbefore, hsame, hunder⟩ | ⟨hlast, hnone⟩
    · rcases hfate' with ⟨before', hbefore', hsame', hunder'⟩ | ⟨_, hnone'⟩
      · exact ih place place' before before' hbefore hbefore'
          (hsame.trans (htarget.trans hsame'.symm)) hunder hunder'
      · exact absurd (hsame.trans htarget) (hnone' place before hbefore hunder)
    · rcases hfate' with ⟨before', hbefore', hsame', hunder'⟩ | ⟨hlast', _⟩
      · exact absurd (hsame'.trans htarget.symm) (hnone place' before' hbefore' hunder')
      · rw [hlast, hlast']

end Cluster

end AccessBroker
