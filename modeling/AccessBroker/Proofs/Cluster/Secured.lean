import AccessBroker.Proofs.Cluster.Shown

/-!
# Secured objects

The object that a pass has secured is the one that it found, up to the finalizer and the
version (`AccessBroker.Faithful`). This is where the versions come in: a pass gives the
finalizer to an object that it read before, and that succeeds only if the object is still
the stored one.
-/

namespace AccessBroker

namespace Target

/-- The kind of the object that is to be looked at. -/
def kind : Target → Kind
  | .request _ => .request
  | .grant _ => .grant

/-- A pass looks for its object before anything else. -/
theorem look_first {target : Target} {past : Deeds} {place : Key}
    (h : target.conduct past (.store (.find target.kind place))) :
    place = target.key ∧ past = [] := by
  cases target with
  | request key =>
    cases h with
    | look hfirst => exact ⟨rfl, hfirst⟩
  | grant key =>
    cases h with
    | look hfirst => exact ⟨rfl, hfirst⟩

/-- A pass finds one object. -/
theorem found_unique {target : Target} {deeds : Deeds} (h : Heeds target.conduct deeds)
    {a b : Object target.kind} (ha : Found target.key deeds a) (hb : Found target.key deeds b) :
    a = b := by
  by_cases hsame : Deed.ofCall (.find target.kind target.key) (.ok (some a)) =
      Deed.ofCall (.find target.kind target.key) (.ok (some b))
  · cases hsame
    rfl
  · rcases h.ordered ha hb hsame with ⟨past, -, hpast, hallowed⟩ | ⟨past, -, hpast, hallowed⟩
    · rw [(Target.look_first hallowed).2] at hpast
      cases hpast
    · rw [(Target.look_first hallowed).2] at hpast
      cases hpast

end Target

theorem Journal.Orderly.found_unique {journal : Journal} (h : journal.Orderly)
    {a b : Object journal.target.kind} (ha : Found journal.target.key journal.deeds a)
    (hb : Found journal.target.key journal.deeds b) : a = b :=
  Target.found_unique h.heeds ha hb

/-- A pass that has found its object has just done so, or had done so before. -/
theorem Found.earlier {target : Target} {effect : Effect} {reply : passInterface.Reply effect}
    {past : Deeds} {start : Object target.kind} (hallowed : target.conduct past effect)
    (h : Found target.key (⟨effect, reply⟩ :: past) start) :
    past = [] ∧ (⟨effect, reply⟩ : Deed passInterface) =
        .ofCall (.find target.kind target.key) (.ok (some start)) ∨
      Found target.key past start := by
  rcases List.mem_cons.1 h with heq | hearlier
  · cases heq
    exact .inl ⟨(Target.look_first hallowed).2, rfl⟩
  · exact .inr hearlier

/-- An object is the one that was found, with the finalizer. -/
structure Faithful {kind : Kind} (key : Key) (start object : Object kind) : Prop where
  start_key : start.key = key
  key : object.key = key
  body : object.body = start.body
  uid : object.metadata.uid = start.metadata.uid
  live : object.metadata.isDeleting = false
  held : object.isHeld = true

namespace Cluster

variable {rules : Rules} {cluster next : Cluster} {journal : Journal} {place : Nat}

theorem shown_of_found {kind : Kind} {key : Key} {object : Object kind}
    (hjournal : cluster.journals[place]? = some journal) (h : Found key journal.deeds object) :
    cluster.Shown object :=
  shown_of_gives hjournal h .found

/-- A pass that has come about finds one object. -/
theorem Reachable.found_unique (h : Reachable rules cluster)
    (hjournal : cluster.journals[place]? = some journal) {target : Target}
    (htarget : journal.target = target) {a b : Object target.kind}
    (ha : Found target.key journal.deeds a) (hb : Found target.key journal.deeds b) : a = b := by
  subst htarget
  exact (h.orderly _ _ hjournal).found_unique ha hb

/-- What is found lies under the key. -/
theorem Reachable.key_of_found (h : Reachable rules cluster) {kind : Kind} {key : Key}
    {object : Object kind} (hjournal : cluster.journals[place]? = some journal)
    (hfound : Found key journal.deeds object) : object.key = key := by
  induction h generalizing place journal with
  | start => cases hjournal
  | @step cluster next move hbefore hmoved ih =>
    cases (moved_of_move hmoved).fate hjournal with
    | kept hkept => exact ih hkept hfound
    | started => cases hfound
    | advanced hcurrent hserved =>
      rcases List.mem_cons.1 hfound with heq | hearlier
      · cases heq
        cases hserved with
        | performed hcalls => exact hbefore.sound.keyed _ _ _ hcalls.performed.of_find.1.symm
      · exact ih hcurrent hearlier

/-- What is created lies under the key that was submitted. -/
theorem Reachable.key_of_created (h : Reachable rules cluster) {kind : Kind}
    {submitted object : Object kind} (hjournal : cluster.journals[place]? = some journal)
    (hcreated : Deed.ofCall (.create kind submitted) (.ok object) ∈ journal.deeds) :
    object.key = submitted.key := by
  induction h generalizing place journal with
  | start => cases hjournal
  | @step cluster next move hbefore hmoved ih =>
    cases (moved_of_move hmoved).fate hjournal with
    | kept hkept => exact ih hkept hcreated
    | started => cases hcreated
    | advanced hcurrent hserved =>
      rcases List.mem_cons.1 hcreated with heq | hearlier
      · cases heq
        cases hserved with
        | performed hcalls =>
          rw [hcalls.performed.of_create.2.1]
          rfl
      · exact ih hcurrent hearlier

/-- **The finalizer is given to the object that was found.** -/
theorem Served.faithful {kind : Kind} {key : Key} {start object : Object kind}
    {store : MemoryStore} {issued : List String}
    (h : Served rules cluster (.store (.updateMetadata kind start.withFinalizer))
      (Except.ok object) store issued) (hsound : cluster.Sound) (hshown : cluster.Shown start)
    (hkey : start.key = key) (hlive : start.metadata.isDeleting = false) :
    Faithful key start object := by
  cases h with
  | performed hcalls =>
    obtain ⟨old, hold, hversion, rfl, -⟩ := hcalls.performed.of_updateMetadata
    rw [Object.key_withFinalizer] at hold
    rw [Object.version_withFinalizer] at hversion
    obtain rfl := hsound.recent start old hshown hold hversion
    exact ⟨hkey, hkey, rfl, rfl, hlive, Object.isHeld_withFinalizer old⟩

theorem Reachable.faithful_of_given (h : Reachable rules cluster)
    (hjournal : cluster.journals[place]? = some journal) :
    ∀ {start object : Object journal.target.kind}, start.metadata.isDeleting = false →
      Found journal.target.key journal.deeds start →
      Deed.ofCall (.updateMetadata journal.target.kind start.withFinalizer) (.ok object) ∈
        journal.deeds →
      Faithful journal.target.key start object := by
  induction h generalizing place journal with
  | start => cases hjournal
  | @step cluster next move hbefore hmoved ih =>
    cases (moved_of_move hmoved).fate hjournal with
    | kept hkept => exact ih hkept
    | started => exact fun _ hfound => by cases hfound
    | @advanced target past effect rest reply hcurrent hserved =>
      intro (start : Object target.kind) (object : Object target.kind) hlive hfound
        (hgiven : Deed.ofCall (.updateMetadata target.kind start.withFinalizer) (.ok object) ∈
          (⟨effect, reply⟩ :: past : Deeds))
      have hallowed := (hbefore.orderly _ _ hcurrent).allowed
      rcases hfound.earlier hallowed with ⟨rfl, heq⟩ | hearlier
      · rw [heq] at hgiven
        cases List.mem_singleton.1 hgiven
      · rcases List.mem_cons.1 hgiven with heq | hgiven
        · cases heq
          exact hserved.faithful hbefore.sound (shown_of_found hcurrent hearlier)
            (hbefore.key_of_found hcurrent hearlier) hlive
        · exact ih hcurrent hlive hearlier hgiven

/-- **A secured object is the one that was found.** -/
theorem Reachable.faithful (h : Reachable rules cluster)
    (hjournal : cluster.journals[place]? = some journal) {start object : Object journal.target.kind}
    (hsecured : Secured journal.target.key journal.deeds start object) :
    Faithful journal.target.key start object := by
  cases hsecured with
  | held hfound hlive hheld =>
    have hkey := h.key_of_found hjournal hfound
    exact ⟨hkey, hkey, rfl, rfl, hlive, hheld⟩
  | given hfound hlive hgiven => exact h.faithful_of_given hjournal hlive hfound hgiven

theorem Reachable.faithful_request (h : Reachable rules cluster) {key : Key}
    {start request : Request} (hjournal : cluster.journals[place]? = some journal)
    (htarget : journal.target = .request key)
    (hsecured : Secured key journal.deeds start request) : Faithful key start request := by
  obtain ⟨target, deeds, rest⟩ := journal
  subst htarget
  exact h.faithful hjournal hsecured

theorem Reachable.faithful_grant (h : Reachable rules cluster) {key : Key}
    {start grant : Grant} (hjournal : cluster.journals[place]? = some journal)
    (htarget : journal.target = .grant key)
    (hsecured : Secured key journal.deeds start grant) : Faithful key start grant := by
  obtain ⟨target, deeds, rest⟩ := journal
  subst htarget
  exact h.faithful hjournal hsecured

/-- What is secured is shown. -/
theorem Reachable.shown_of_secured (h : Reachable rules cluster)
    (hjournal : cluster.journals[place]? = some journal) {start object : Object journal.target.kind}
    (hsecured : Secured journal.target.key journal.deeds start object) : cluster.Shown object := by
  have hlive := (h.faithful hjournal hsecured).live
  cases hsecured with
  | held hfound => exact shown_of_found hjournal hfound
  | given _ _ hgiven =>
    exact shown_of_gives hjournal hgiven (.linked (by simp [Object.isSpent, hlive]))

end Cluster

end AccessBroker
