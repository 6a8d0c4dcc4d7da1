import AccessBroker.Lease.KeyValue

/-!
# What commands do to a lease

What there is under a key at a time is `AccessBroker.LeaseServer.stored?`: a text that has reached
its time is gone, even if nobody has purged it. A command that does something is a feat
(`AccessBroker.LeaseFeat`): it writes a token under a key for some time, or removes one.

**A command that does nothing leaves every key alone, and a feat changes its own key only**
(`AccessBroker.LeaseServer.stored?_execute`). A feat also needs the right entry to begin with: a key
is written if it is absent, and a script acts on a key that holds its token
(`AccessBroker.LeaseServer.absent_of_written`, `AccessBroker.LeaseServer.stored_of_script`). So
while a token is there, all feats on its key are its own
(`AccessBroker.LeaseServer.token_of_feat`).
-/

namespace AccessBroker

/-- What a command has done. -/
inductive LeaseFeat where
  /-- A token was written under a key at a time, for a number of seconds. -/
  | held (key token : String) (time seconds : Nat)
  /-- A token was removed from its key. -/
  | freed (key token : String)
  deriving Repr, DecidableEq

namespace LeaseFeat

/-- The key of a feat. -/
def key : LeaseFeat → String
  | held key _ _ _ | freed key _ => key

/-- The token that was written or removed. -/
def token : LeaseFeat → String
  | held _ token _ _ | freed _ token => token

/-- What a feat leaves under its key. -/
def left : LeaseFeat → Option LeaseEntry
  | held _ token time seconds => some ⟨token, some (time + LeaseServer.millis seconds)⟩
  | freed _ _ => none

end LeaseFeat

/-- What a command has done at a time, judged by its answer. -/
def LeaseCommand.feat? (time : Nat) : (command : LeaseCommand) → command.Result → Option LeaseFeat
  | .setIfAbsent key token seconds, true => some (.held key token time seconds)
  | .runScript .renew key token seconds, .ran true => some (.held key token time seconds)
  | .runScript .release key token _, .ran true => some (.freed key token)
  | _, _ => none

namespace LeaseServer

variable {server : LeaseServer} {now later : Nat} {key text : String} {seconds : Nat}
  {command : LeaseCommand} {script : LeaseScript} {feat : LeaseFeat} {entry : LeaseEntry}

/-- What there is under a key at a time. -/
def stored? (server : LeaseServer) (now : Nat) (key : String) : Option LeaseEntry :=
  (server.entries.find? key).filter (isLive now)

/-- What is there later was there before. -/
theorem isLive_of_later (hlater : now ≤ later) (hlive : isLive later entry = true) :
    isLive now entry = true := by
  obtain ⟨text, goneAt⟩ := entry
  cases goneAt with
  | none => rfl
  | some time =>
    have htime : later < time := of_decide_eq_true hlive
    exact decide_eq_true (Nat.lt_of_le_of_lt hlater htime)

/-- **As time passes**, an entry stays as it is until it is gone. -/
theorem stored?_later (hlater : now ≤ later) :
    server.stored? later key = (server.stored? now key).filter (isLive later) := by
  simp only [stored?, Option.filter_filter]
  congr 1
  funext entry
  cases hlive : isLive later entry
  · rw [Bool.and_false]
  · rw [isLive_of_later hlater hlive, Bool.and_true]

theorem find?_purge : (server.purge now).entries.find? key = server.stored? now key :=
  Table.find?_retain _ _ _

theorem stored?_purge : (server.purge now).stored? now key = server.stored? now key := by
  rw [stored?, find?_purge, stored?, Option.filter_filter]
  simp only [Bool.and_self]

/-- The server with a text under one key has the others as before. -/
theorem stored?_put {other : String} {goneAt : Option Nat} :
    ((server.purge now).put other text goneAt).stored? now key =
      if key = other then (some ⟨text, goneAt⟩ : Option LeaseEntry).filter (isLive now)
      else server.stored? now key := by
  rw [stored?, put, Table.find?_insert]
  split
  · rfl
  · exact stored?_purge

/-- The server without one key has the others as before. -/
theorem stored?_erase {other : String} :
    ({ server.purge now with entries := (server.purge now).entries.erase other } :
      LeaseServer).stored? now key = if key = other then none else server.stored? now key := by
  rw [stored?, Table.find?_erase]
  split
  · rfl
  · exact stored?_purge

/-- What a command leaves under a key where it found something. -/
def LeaseFeat.leaves (now : Nat) (key : String) (found : Option LeaseEntry) :
    Option LeaseFeat → Option LeaseEntry
  | none => found
  | some feat => if key = feat.key then feat.left.filter (isLive now) else found

theorem contains_purge :
    (server.purge now).entries.contains key = (server.stored? now key).isSome := by
  rw [Table.contains, find?_purge]

theorem text?_purge : (server.purge now).text? key = (server.stored? now key).map (·.text) := by
  rw [text?, find?_purge]

/-- **What a command does to the keys**, judged by its answer. -/
theorem stored?_execute (command : LeaseCommand) :
    (server.execute now command).2.stored? now key =
      LeaseFeat.leaves now key (server.stored? now key)
        (command.feat? now (server.execute now command).1) := by
  cases command with
  | setIfAbsent other token seconds =>
    rw [execute, contains_purge]
    split
    · exact stored?_purge
    · exact stored?_put
  | runScript script other token seconds =>
    rw [execute, text?_purge]
    split
    · cases script <;> exact stored?_purge
    split
    · cases script
      · exact stored?_erase
      · exact stored?_put
    · cases script <;> exact stored?_purge
  | loadScript script => rfl

/-! ### What a feat needs -/

/-- A key is written only if it is absent. -/
theorem absent_of_written
    (hfeat : (LeaseCommand.setIfAbsent key text seconds).feat? now
      (server.execute now (.setIfAbsent key text seconds)).1 = some feat) :
    feat = .held key text now seconds ∧ server.stored? now key = none := by
  rw [execute, contains_purge] at hfeat
  split at hfeat
  · cases hfeat
  · next habsent =>
    exact ⟨(Option.some.inj hfeat).symm, by simpa using habsent⟩

/-- **A script acts only on a key that holds its token.** -/
theorem stored_of_script
    (hfeat : (LeaseCommand.runScript script key text seconds).feat? now
      (server.execute now (.runScript script key text seconds)).1 = some feat) :
    feat.key = key ∧ feat.token = text ∧ (server.stored? now key).map (·.text) = some text := by
  rw [execute, text?_purge] at hfeat
  split at hfeat
  · cases script <;> cases hfeat
  split at hfeat
  · next hstored =>
    cases script <;> cases hfeat <;> exact ⟨rfl, rfl, hstored⟩
  · cases script <;> cases hfeat

/-- **While a token is there, every feat on its key is its own.** -/
theorem token_of_feat (hfeat : command.feat? now (server.execute now command).1 = some feat)
    (hentry : server.stored? now feat.key = some entry) : feat.token = entry.text := by
  cases command with
  | setIfAbsent key text seconds =>
    obtain ⟨rfl, habsent⟩ := absent_of_written hfeat
    exact absurd (habsent.symm.trans hentry) nofun
  | runScript script key text seconds =>
    obtain ⟨hkey, htoken, hstored⟩ := stored_of_script hfeat
    rw [← hkey, hentry] at hstored
    exact htoken.trans (Option.some.inj hstored).symm
  | loadScript script => cases hfeat

end LeaseServer

end AccessBroker
