import AccessBroker.Controller.Settings
import AccessBroker.Proofs.SpanNotation

/-!
# Which environments are accepted

What an environment has to look like is said here without reading it: what it means that a text
spells a number (`AccessBroker.Text.Numeral`), says a word whatever its case
(`AccessBroker.Settings.Says`), or gives a setting or leaves it at its default
(`AccessBroker.Settings.Gives`). An environment is accepted exactly if it is valid in these terms
(`AccessBroker.Settings.Valid`), and the settings that are read are exactly those that it describes
(`AccessBroker.Settings.Describes`).

Each of the readers is one case of this, and reading as a whole is these cases in a row: no reader
looks at what another one has read, but for the two delays, which are compared at the end
(`AccessBroker.Settings.load_exact`).
-/

namespace AccessBroker

open AccessBroker.Text AccessBroker.Time

/-- A computation gives a value if its first part gives one from which the rest goes on to it. -/
theorem bind_eq_ok_iff {ε α β : Type} {first : Except ε α} {rest : α → Except ε β} {value : β} :
    first >>= rest = .ok value ↔ ∃ given, first = .ok given ∧ rest given = .ok value := by
  cases first with
  | error cause => exact ⟨nofun, nofun⟩
  | ok given => exact ⟨fun h => ⟨given, rfl, h⟩, fun ⟨_, hgiven, h⟩ => Except.ok.inj hgiven ▸ h⟩

/-! ### Numbers -/

namespace Text

variable {bound acc n : Nat} {digits : List Char} {text : String}

/-- A text is a number: digits, with or without a plus in front. -/
def Numeral (text : String) (n : Nat) : Prop :=
  ∃ sign digits, text.toList = sign ++ digits ∧ (sign = [] ∨ sign = ['+']) ∧ digits ≠ [] ∧
    (∀ c ∈ digits, isDigit c = true) ∧ n = Span.decimal digits

/-- Reading on does not make a value smaller. -/
theorem le_valueFrom (acc : Nat) (digits : List Char) : acc ≤ valueFrom acc digits := by
  induction digits generalizing acc with
  | nil => exact Nat.le_refl _
  | cons c rest ih =>
    have hmore := ih (10 * acc + digitValue c)
    have hstep : valueFrom acc (c :: rest) = valueFrom (10 * acc + digitValue c) rest := rfl
    omega

/-- **Digits are read below a bound** as what they are worth, if that is below the bound: what is
worth too much on the way stays so. -/
theorem readDigitsBelow_eq_ok_iff (hacc : acc < bound) :
    readDigitsBelow bound acc digits = .ok n ↔
      (∀ c ∈ digits, isDigit c = true) ∧ n = valueFrom acc digits ∧ n < bound := by
  induction digits generalizing acc with
  | nil =>
    rw [readDigitsBelow, Except.ok.injEq]
    constructor
    · rintro rfl
      exact ⟨nofun, rfl, hacc⟩
    · rintro ⟨-, rfl, -⟩
      rfl
  | cons c rest ih =>
    have hstep : valueFrom acc (c :: rest) = valueFrom (10 * acc + digitValue c) rest := rfl
    rw [readDigitsBelow, List.forall_mem_cons, hstep]
    split
    · next hdigit =>
      dsimp only
      split
      · next hbelow => rw [ih hbelow, and_assoc, and_iff_right hdigit]
      · next hbeyond =>
        have hmore := le_valueFrom (10 * acc + digitValue c) rest
        refine ⟨nofun, ?_⟩
        rintro ⟨-, rfl, hbelow⟩
        omega
    · next hother => exact ⟨nofun, fun h => absurd h.1.1 hother⟩

/-- **A text is read as a number below a bound** exactly if it is one. -/
theorem readBelow_eq_ok_iff (hbound : 0 < bound) :
    readBelow bound text = .ok n ↔ Numeral text n ∧ n < bound := by
  have hdigits (digits : List Char) : readDigitsBelow bound 0 digits = .ok n ↔
      (∀ c ∈ digits, isDigit c = true) ∧ n = Span.decimal digits ∧ n < bound := by
    rw [readDigitsBelow_eq_ok_iff hbound, ← Span.valueOf_eq_decimal]
    rfl
  have hplus : isDigit '+' = false := by decide
  unfold readBelow Numeral
  split
  · next hempty =>
    rw [hempty]
    refine ⟨nofun, ?_⟩
    rintro ⟨⟨sign, digits, htext, -, hsome, -⟩, -⟩
    exact absurd (List.append_eq_nil_iff.1 htext.symm).2 hsome
  · next hsign =>
    rw [hsign]
    refine ⟨nofun, ?_⟩
    rintro ⟨⟨sign, digits, htext, rfl | rfl, hsome, hall, -⟩, -⟩
    · rw [List.nil_append] at htext
      rw [hall '+' (htext ▸ List.mem_singleton_self _)] at hplus
      cases hplus
    · exact absurd (List.cons.inj htext).2.symm hsome
  · next digits hne htext =>
    rw [hdigits, htext]
    constructor
    · rintro ⟨hall, hvalue, hbelow⟩
      exact ⟨⟨['+'], digits, rfl, .inr rfl, hne, hall, hvalue⟩, hbelow⟩
    · rintro ⟨⟨sign, others, hsame, rfl | rfl, -, hall, hvalue⟩, hbelow⟩
      · rw [List.nil_append] at hsame
        rw [hall '+' (hsame ▸ List.mem_cons_self)] at hplus
        cases hplus
      · obtain rfl := (List.cons.inj hsame).2
        exact ⟨hall, hvalue, hbelow⟩
  · next hsome _ hunsigned =>
    rw [hdigits]
    constructor
    · rintro ⟨hall, hvalue, hbelow⟩
      exact ⟨⟨[], text.toList, rfl, .inl rfl, hsome, hall, hvalue⟩, hbelow⟩
    · rintro ⟨⟨sign, digits, htext, rfl | rfl, -, hall, hvalue⟩, hbelow⟩
      · rw [htext]
        exact ⟨hall, hvalue, hbelow⟩
      · exact absurd htext (hunsigned digits)

end Text

/-! ### What an environment says -/

namespace Settings

/-- A text says a word: it is the word in some case, with blanks around it. -/
def Says (text word : String) : Prop :=
  ∃ core, Trims text.toList core ∧ core.map Char.toLower = word.toList

/-- The number that is given by a name, which is positive and below a bound, or the default. -/
def Gives (environment : Environment) (name : String) (bound default n : Nat) : Prop :=
  match environment.get? name with
  | none => n = default
  | some text => Numeral text n ∧ 0 < n ∧ n < bound

/-- The truth value that is given by a name, or the default. -/
def Flags (environment : Environment) (name : String) (default flag : Bool) : Prop :=
  match environment.get? name with
  | none => flag = default
  | some text => (flag = true ∧ (Says text "true" ∨ Says text "1")) ∨
      (flag = false ∧ (Says text "false" ∨ Says text "0"))

/-- The name of the store is a word, or it is the default. -/
def Selects (environment : Environment) (word : String) : Prop :=
  match environment.get? "JITGATE_STORE_BACKEND" with
  | none => word = "postgres"
  | some text => Says text word

/-- The store that is given. What concerns the database matters only if that is the store. -/
inductive Stores (environment : Environment) : StoreBackend → Prop
  | postgres {url : String} {maxConnections : Nat} (selected : Selects environment "postgres")
    (address : environment.get? "DATABASE_URL" = some url)
    (connections : Gives environment "DATABASE_MAX_CONNECTIONS" (2 ^ 32) 5 maxConnections) :
    Stores environment (.postgres url maxConnections)
  | memory (selected : Selects environment "memory") : Stores environment .memory

/-- The name of the broker that is given, without the blanks around it, or the default if nothing
else than blanks is given. -/
def Names (environment : Environment) (default name : String) : Prop :=
  match environment.get? "JITGATE_CONTROLLER_ID" with
  | none => name = default
  | some text => Trims text.toList name.toList ∧ name ≠ "" ∨ Trims text.toList [] ∧ name = default

/-- The settings are those that the environment gives, or the defaults. -/
structure Describes (environment : Environment) (default : String) (settings : Settings) :
    Prop where
  backend : Stores environment settings.backend
  controllerId : Names environment default settings.controllerId
  workers : Gives environment "JITGATE_WORKER_CONCURRENCY" (2 ^ 64) 4 settings.workers
  batchSize : Gives environment "JITGATE_WATCH_BATCH_SIZE" (2 ^ 64) 200 settings.batchSize
  leaseSeconds : Gives environment "JITGATE_LEADER_LEASE_SECONDS" (2 ^ 32) 15 settings.leaseSeconds
  keepsAudit : Flags environment "JITGATE_AUDIT_PERSIST" true settings.keepsAudit
  pollInterval : ∃ millis, Gives environment "JITGATE_WATCH_POLL_INTERVAL_MS" (2 ^ 64) 1000 millis ∧
    settings.pollInterval = millis * 10 ^ 6
  resyncInterval : ∃ seconds,
    Gives environment "JITGATE_POLICY_RESYNC_SECONDS" (2 ^ 64) 300 seconds ∧
      settings.resyncInterval = seconds * 10 ^ 9
  backoff : ∃ millis seconds,
    Gives environment "JITGATE_REQUEUE_BASE_DELAY_MS" (2 ^ 64) 500 millis ∧
      Gives environment "JITGATE_REQUEUE_MAX_DELAY_SECONDS" (2 ^ 64) 300 seconds ∧
      millis ≤ 1000 * seconds ∧ settings.backoff = ⟨millis * 10 ^ 6, seconds * 10 ^ 9⟩
  leaseUrl (url : String) : settings.leaseUrl = some url ↔
    environment.get? "REDIS_URL" = some url ∧ ∃ c ∈ url.toList, isBlank c = false

/-- What is asked of an environment. -/
structure Valid (environment : Environment) : Prop where
  /-- The store is the memory, or a database whose address is given. -/
  backend : Selects environment "memory" ∨ Selects environment "postgres" ∧
    environment.get? "DATABASE_URL" ≠ none ∧
    ∃ n, Gives environment "DATABASE_MAX_CONNECTIONS" (2 ^ 32) 5 n
  workers : ∃ n, Gives environment "JITGATE_WORKER_CONCURRENCY" (2 ^ 64) 4 n
  batchSize : ∃ n, Gives environment "JITGATE_WATCH_BATCH_SIZE" (2 ^ 64) 200 n
  leaseSeconds : ∃ n, Gives environment "JITGATE_LEADER_LEASE_SECONDS" (2 ^ 32) 15 n
  pollInterval : ∃ n, Gives environment "JITGATE_WATCH_POLL_INTERVAL_MS" (2 ^ 64) 1000 n
  resyncInterval : ∃ n, Gives environment "JITGATE_POLICY_RESYNC_SECONDS" (2 ^ 64) 300 n
  keepsAudit : ∃ flag, Flags environment "JITGATE_AUDIT_PERSIST" true flag
  /-- The base delay is no greater than the greatest one. -/
  delays : ∃ millis seconds,
    Gives environment "JITGATE_REQUEUE_BASE_DELAY_MS" (2 ^ 64) 500 millis ∧
      Gives environment "JITGATE_REQUEUE_MAX_DELAY_SECONDS" (2 ^ 64) 300 seconds ∧
      millis ≤ 1000 * seconds

variable {environment : Environment} {name : String} {bound default n : Nat}

/-! ### The readers -/

theorem toList_normalize (text : String) :
    (normalize text).toList = (trimChars text.toList).map Char.toLower := by
  rw [normalize, String.toList_map, trim, String.toList_ofList]

theorem normalize_eq_iff {text word : String} : normalize text = word ↔ Says text word := by
  rw [← String.toList_inj, toList_normalize, Says]
  constructor
  · exact fun h => ⟨_, trimChars_eq_iff.1 rfl, h⟩
  · rintro ⟨core, hcore, hword⟩
    rwa [trimChars_eq_iff.2 hcore]

/-- **A number is read as it is given.** -/
theorem readNumber_eq_ok_iff (hbound : 0 < bound) :
    readNumber environment name bound default = .ok n ↔ Gives environment name bound default n := by
  unfold readNumber Gives
  cases environment.get? name with
  | none => exact ⟨fun h => (Except.ok.inj h).symm, fun h => congrArg _ h.symm⟩
  | some text =>
    dsimp only
    split
    · next cause hread =>
      refine ⟨nofun, fun ⟨hnumeral, _, hbelow⟩ => ?_⟩
      rw [(readBelow_eq_ok_iff hbound).2 ⟨hnumeral, hbelow⟩] at hread
      cases hread
    · next hread =>
      refine ⟨nofun, fun ⟨hnumeral, hpositive, hbelow⟩ => ?_⟩
      rw [(readBelow_eq_ok_iff hbound).2 ⟨hnumeral, hbelow⟩] at hread
      obtain rfl := Except.ok.inj hread
      exact absurd hpositive (Nat.lt_irrefl 0)
    · next number hzero hread =>
      have hnumber := hread
      rw [readBelow_eq_ok_iff hbound] at hnumber
      rw [Except.ok.injEq]
      constructor
      · rintro rfl
        exact ⟨hnumber.1, Nat.pos_of_ne_zero hzero, hnumber.2⟩
      · rintro ⟨hnumeral, -, hbelow⟩
        rw [(readBelow_eq_ok_iff hbound).2 ⟨hnumeral, hbelow⟩] at hread
        exact (Except.ok.inj hread).symm

theorem readNumber_32 : readNumber environment name bound32 default = .ok n ↔
    Gives environment name (2 ^ 32) default n := by
  have hbound : bound32 = 2 ^ 32 := by norm_num [bound32, UInt32.size]
  rw [readNumber_eq_ok_iff (by decide), hbound]

theorem readNumber_64 : readNumber environment name bound64 default = .ok n ↔
    Gives environment name (2 ^ 64) default n := by
  have hbound : bound64 = 2 ^ 64 := by norm_num [bound64, UInt64.size]
  rw [readNumber_eq_ok_iff (by decide), hbound]

/-- **A truth value is read as it is given.** -/
theorem readFlag_eq_ok_iff {default flag : Bool} :
    readFlag environment name default = .ok flag ↔ Flags environment name default flag := by
  unfold readFlag Flags
  cases environment.get? name with
  | none => exact ⟨fun h => (Except.ok.inj h).symm, fun h => congrArg _ h.symm⟩
  | some text =>
    dsimp only
    simp only [← normalize_eq_iff]
    have hapart (h : normalize text = "true" ∨ normalize text = "1") :
        ¬(normalize text = "false" ∨ normalize text = "0") := by
      rcases h with h | h <;> rw [h] <;> decide
    split
    · next hyes =>
      rw [Except.ok.injEq]
      constructor
      · exact fun h => .inl ⟨h.symm, hyes⟩
      · rintro (⟨hflag, -⟩ | ⟨-, hno⟩)
        · exact hflag.symm
        · exact absurd hno (hapart hyes)
    · next hother =>
      split
      · next hno =>
        rw [Except.ok.injEq]
        constructor
        · exact fun h => .inr ⟨h.symm, hno⟩
        · rintro (⟨-, hyes⟩ | ⟨hflag, -⟩)
          · exact absurd hyes hother
          · exact hflag.symm
      · next hneither =>
        refine ⟨nofun, ?_⟩
        rintro (⟨-, hyes⟩ | ⟨-, hno⟩)
        · exact absurd hyes hother
        · exact absurd hno hneither

/-- Whether a word is selected can be read off the normal form. -/
theorem normalize_backend_eq_iff {word : String} :
    normalize ((environment.get? "JITGATE_STORE_BACKEND").getD "postgres") = word ↔
      Selects environment word := by
  unfold Selects
  cases environment.get? "JITGATE_STORE_BACKEND" with
  | none =>
    have hnormal : normalize "postgres" = "postgres" := by
      rw [← String.toList_inj, toList_normalize]
      decide
    rw [Option.getD_none, hnormal]
    exact eq_comm
  | some text => exact normalize_eq_iff

/-- **The store is read as it is given.** -/
theorem readBackend_eq_ok_iff {backend : StoreBackend} :
    readBackend environment = .ok backend ↔ Stores environment backend := by
  unfold readBackend
  dsimp only
  have hone {word other : String} (hword : Selects environment word)
      (hother : Selects environment other) : word = other :=
    (normalize_backend_eq_iff.2 hword).symm.trans (normalize_backend_eq_iff.2 hother)
  split
  · next hpostgres =>
    rw [normalize_backend_eq_iff] at hpostgres
    split
    · next hmissing =>
      refine ⟨nofun, ?_⟩
      rintro (⟨-, haddress, -⟩ | hmemory)
      · cases hmissing.symm.trans haddress
      · exact absurd (hone hmemory hpostgres) (by decide)
    · next url haddress =>
      rw [bind_eq_ok_iff]
      constructor
      · rintro ⟨maxConnections, hconnections, hbackend⟩
        cases hbackend
        exact .postgres hpostgres haddress (readNumber_32.1 hconnections)
      · rintro (⟨-, hsame, hconnections⟩ | hmemory)
        · cases haddress.symm.trans hsame
          exact ⟨_, readNumber_32.2 hconnections, rfl⟩
        · exact absurd (hone hmemory hpostgres) (by decide)
  · next hother =>
    rw [normalize_backend_eq_iff] at hother
    split
    · next hmemory =>
      rw [normalize_backend_eq_iff] at hmemory
      constructor
      · intro h
        cases h
        exact .memory hmemory
      · rintro (⟨hpostgres, -, -⟩ | -)
        · exact absurd hpostgres hother
        · rfl
    · next hneither =>
      rw [normalize_backend_eq_iff] at hneither
      refine ⟨nofun, ?_⟩
      rintro (⟨hpostgres, -, -⟩ | hmemory)
      · exact absurd hpostgres hother
      · exact absurd hmemory hneither

/-- **The name of the broker is read as it is given.** -/
theorem readControllerId_eq_iff {default id : String} :
    readControllerId environment default = id ↔ Names environment default id := by
  unfold readControllerId Names
  cases environment.get? "JITGATE_CONTROLLER_ID" with
  | none => exact eq_comm
  | some text =>
    dsimp only [Option.getD_some]
    rw [← trimChars_eq_iff, ← trimChars_eq_iff]
    have hempty : (trim text).isEmpty = true ↔ trimChars text.toList = [] := by
      rw [String.isEmpty_iff, ← String.toList_inj, trim, String.toList_ofList]
      rfl
    have hsome {name : String} (hname : trimChars text.toList = name.toList) : name = trim text :=
      String.toList_inj.1 (hname.symm.trans (String.toList_ofList).symm)
    split
    · next hblank =>
      rw [hempty] at hblank
      constructor
      · exact fun h => .inr ⟨hblank, h.symm⟩
      · rintro (⟨hname, hsomething⟩ | ⟨-, rfl⟩)
        · exact absurd (String.toList_eq_nil_iff.1 (hname.symm.trans hblank)) hsomething
        · rfl
    · next hgiven =>
      rw [hempty] at hgiven
      constructor
      · rintro rfl
        refine .inl ⟨(String.toList_ofList).symm, fun hnothing => hgiven ?_⟩
        exact hempty.1 (String.isEmpty_iff.2 hnothing)
      · rintro (⟨hname, -⟩ | ⟨hblank, -⟩)
        · exact (hsome hname).symm
        · exact absurd hblank hgiven

/-- **A lease is kept where the environment says**, unless that is blank. -/
theorem leaseUrl_eq_some_iff {url : String} :
    ((environment.get? "REDIS_URL").filter fun url => !isBlankText url) = some url ↔
      environment.get? "REDIS_URL" = some url ∧ ∃ c ∈ url.toList, isBlank c = false := by
  rw [Option.filter_eq_some_iff, Bool.not_eq_true', isBlankText, List.all_eq_false]
  simp only [Bool.not_eq_true]

/-! ### Reading as a whole -/

/-- The base delay in milliseconds does not exceed the greatest one in seconds. -/
theorem delays_in_order_iff {millis seconds : Nat} :
    ¬seconds * nanosPerSecond < millis * nanosPerMilli ↔ millis ≤ 1000 * seconds := by
  unfold nanosPerSecond nanosPerMilli
  omega

/-- **The settings that are read** are those that the environment describes. -/
theorem read_eq_ok_iff {default : String} {settings : Settings} :
    read environment default = .ok settings ↔ Describes environment default settings := by
  have hmilli : nanosPerMilli = 10 ^ 6 := by norm_num [nanosPerMilli]
  have hsecond : nanosPerSecond = 10 ^ 9 := by norm_num [nanosPerSecond]
  simp only [read, bind_eq_ok_iff, readBackend_eq_ok_iff, readNumber_64, readNumber_32,
    readFlag_eq_ok_iff]
  constructor
  · rintro ⟨backend, hbackend, workers, hworkers, poll, hpoll, batch, hbatch, resync, hresync,
      base, hbase, greatest, hgreatest, lease, hlease, audit, haudit, h⟩
    split at h
    · cases h
    · next horder =>
      generalize hcontroller : readControllerId environment default = id at h
      cases h
      exact {
        backend := hbackend
        controllerId := readControllerId_eq_iff.1 hcontroller
        workers := hworkers
        batchSize := hbatch
        leaseSeconds := hlease
        keepsAudit := haudit
        pollInterval := ⟨poll, hpoll, by rw [hmilli]⟩
        resyncInterval := ⟨resync, hresync, by rw [hsecond]⟩
        backoff := ⟨base, greatest, hbase, hgreatest, delays_in_order_iff.1 horder,
          by rw [hmilli, hsecond]⟩
        leaseUrl := fun _ => leaseUrl_eq_some_iff }
  · intro h
    obtain ⟨poll, hpoll, hinterval⟩ := h.pollInterval
    obtain ⟨resync, hresync, hpause⟩ := h.resyncInterval
    obtain ⟨base, greatest, hbase, hgreatest, horder, hbackoff⟩ := h.backoff
    refine ⟨_, h.backend, _, h.workers, poll, hpoll, _, h.batchSize, resync, hresync, base, hbase,
      greatest, hgreatest, _, h.leaseSeconds, _, h.keepsAudit, ?_⟩
    have hcontroller := readControllerId_eq_iff.2 h.controllerId
    have hlease : ((environment.get? "REDIS_URL").filter fun url => !isBlankText url) =
        settings.leaseUrl :=
      Option.ext fun url => leaseUrl_eq_some_iff.trans (h.leaseUrl url).symm
    rw [if_neg (delays_in_order_iff.2 horder), hcontroller, hlease, hmilli, hsecond, ← hinterval,
      ← hpause, ← hbackoff]
    rfl

/-- There is a store exactly if the environment selects one and gives what it needs. -/
theorem exists_stores_iff : (∃ backend, Stores environment backend) ↔
    Selects environment "memory" ∨ Selects environment "postgres" ∧
      environment.get? "DATABASE_URL" ≠ none ∧
      ∃ n, Gives environment "DATABASE_MAX_CONNECTIONS" (2 ^ 32) 5 n := by
  constructor
  · rintro ⟨backend, ⟨hselected, haddress, hconnections⟩ | hselected⟩
    · exact .inr ⟨hselected, haddress ▸ nofun, _, hconnections⟩
    · exact .inl hselected
  · rintro (hselected | ⟨hselected, haddress, connections, hconnections⟩)
    · exact ⟨_, .memory hselected⟩
    · obtain ⟨url, hurl⟩ := Option.ne_none_iff_exists'.1 haddress
      exact ⟨_, .postgres hselected hurl hconnections⟩

/-- **The settings are described** by every environment that is valid, and by no other one. -/
theorem exists_describes_iff {default : String} :
    (∃ settings, Describes environment default settings) ↔ Valid environment := by
  constructor
  · rintro ⟨settings, h⟩
    obtain ⟨poll, hpoll, -⟩ := h.pollInterval
    obtain ⟨resync, hresync, -⟩ := h.resyncInterval
    obtain ⟨base, greatest, hbase, hgreatest, horder, -⟩ := h.backoff
    exact {
      backend := exists_stores_iff.1 ⟨_, h.backend⟩
      workers := ⟨_, h.workers⟩
      batchSize := ⟨_, h.batchSize⟩
      leaseSeconds := ⟨_, h.leaseSeconds⟩
      pollInterval := ⟨poll, hpoll⟩
      resyncInterval := ⟨resync, hresync⟩
      keepsAudit := ⟨_, h.keepsAudit⟩
      delays := ⟨base, greatest, hbase, hgreatest, horder⟩ }
  · intro h
    obtain ⟨backend, hbackend⟩ := exists_stores_iff.2 h.backend
    obtain ⟨workers, hworkers⟩ := h.workers
    obtain ⟨batchSize, hbatch⟩ := h.batchSize
    obtain ⟨leaseSeconds, hlease⟩ := h.leaseSeconds
    obtain ⟨poll, hpoll⟩ := h.pollInterval
    obtain ⟨resync, hresync⟩ := h.resyncInterval
    obtain ⟨keepsAudit, haudit⟩ := h.keepsAudit
    obtain ⟨base, greatest, hbase, hgreatest, horder⟩ := h.delays
    obtain ⟨id, hcontroller⟩ : ∃ id, readControllerId environment default = id := ⟨_, rfl⟩
    refine ⟨⟨backend, id, workers, poll * 10 ^ 6, batchSize,
      resync * 10 ^ 9, ⟨base * 10 ^ 6, greatest * 10 ^ 9⟩,
      (environment.get? "REDIS_URL").filter fun url => !isBlankText url, leaseSeconds,
      keepsAudit⟩, ?_⟩
    exact {
      backend := hbackend
      controllerId := readControllerId_eq_iff.1 hcontroller
      workers := hworkers
      batchSize := hbatch
      leaseSeconds := hlease
      keepsAudit := haudit
      pollInterval := ⟨poll, hpoll, rfl⟩
      resyncInterval := ⟨resync, hresync, rfl⟩
      backoff := ⟨base, greatest, hbase, hgreatest, horder, rfl⟩
      leaseUrl := fun _ => leaseUrl_eq_some_iff }

/-- What is loaded is what is read. -/
theorem load_eq_ok_iff {default : String} {settings : Settings} :
    load environment default = .ok settings ↔ read environment default = .ok settings := by
  unfold load
  split
  · next heq => rw [heq, Except.ok.injEq, Except.ok.injEq]
  · next heq =>
    rw [heq]
    exact ⟨nofun, nofun⟩

/-- **An environment is accepted exactly if it is valid**, with exactly the settings that it
describes. Whatever else is given is refused, with a failure that says that something is not
valid. -/
theorem load_exact (environment : Environment) (default : String) :
    ((∃ settings, load environment default = .ok settings) ↔ Valid environment) ∧
    (∀ settings, load environment default = .ok settings ↔
      Describes environment default settings) ∧
    (¬Valid environment ↔ ∃ detail, load environment default = .error (.validation detail)) := by
  have hload (settings : Settings) : load environment default = .ok settings ↔
      Describes environment default settings := load_eq_ok_iff.trans read_eq_ok_iff
  have hvalid : (∃ settings, load environment default = .ok settings) ↔ Valid environment :=
    (exists_congr hload).trans exists_describes_iff
  refine ⟨hvalid, hload, ?_⟩
  rw [← hvalid]
  unfold load
  cases read environment default with
  | ok settings => exact ⟨fun h => absurd ⟨settings, rfl⟩ h, nofun⟩
  | error cause => exact ⟨fun _ => ⟨_, rfl⟩, fun _ => nofun⟩

end Settings

end AccessBroker
