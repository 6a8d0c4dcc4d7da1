import AccessBroker.Lease.Election
import AccessBroker.Simulation.Agenda

/-!
# Scripted campaigns

The course of an election against a coordinator that answers from a script: each
attempt to take or renew the lease is answered at once with the next entry, and with a
refusal or a success once the script is used up. The broker is told to stop at a given
time, and nothing is looked at after a limit. Times are in milliseconds.
-/

namespace AccessBroker

open AccessBroker.Time

/-- A script of the answers of a coordinator. -/
structure CampaignScript where
  acquire : List (Except Failure Bool)
  renew : List (Except Failure Bool)
  /-- When the broker is told to stop. -/
  stopAt : Option Nat := none
  /-- When the campaign is cut off. -/
  limit : Nat

/-- What the coordinator was asked, and when. -/
inductive CampaignCall where
  | acquire (time : Nat)
  | renew (token : String) (time : Nat)
  | release (token : String) (time : Nat)
  deriving Repr, DecidableEq

/-- A campaign under way. -/
structure Campaign where
  candidate : Candidate
  script : CampaignScript
  state : ElectionState := .seeking
  time : Nat := 0
  /-- The calls so far, in order. -/
  calls : List CampaignCall := []
  /-- Was the broker told to stop, by others or by itself? -/
  isStopping : Bool := false
  /-- Was the campaign cut off? -/
  isCutOff : Bool := false

namespace Campaign

/-- The lease that the coordinator gives. -/
def lease (campaign : Campaign) : Lease :=
  ⟨leaderScope, campaign.candidate.holder ++ ":token", campaign.candidate.holder⟩

/-- The clock of the broker. -/
def clock (campaign : Campaign) : Nat :=
  campaign.time * nanosPerMilli

/-- The campaign with the outcome of a call: a broker that has lost its lease tells
itself to stop. -/
def moved (campaign : Campaign) (call : CampaignCall) (state : ElectionState) : Campaign :=
  let isLost := match state with
    | .lost _ => true
    | _ => false
  { campaign with
    state
    calls := campaign.calls ++ [call]
    isStopping := campaign.isStopping || isLost }

/-- The attempt that is due. -/
def attempt (campaign : Campaign) : Campaign :=
  match campaign.state with
  | .holding lease renewedAt =>
    let answer := campaign.script.renew.head?.getD (.ok true)
    { campaign with script := { campaign.script with renew := campaign.script.renew.tail } }.moved
      (.renew lease.token campaign.time)
      (.afterRenewal campaign.candidate lease renewedAt campaign.clock answer)
  | .seeking =>
    let answer := campaign.script.acquire.head?.getD (.ok false)
    let granted := answer.map fun isGranted => if isGranted then some campaign.lease else none
    { campaign with
        script := { campaign.script with acquire := campaign.script.acquire.tail } }.moved
      (.acquire campaign.time)
      (.afterAttempt campaign.clock campaign.isStopping granted)
  | _ => campaign

/-- The broker, waiting for its next attempt, is told to stop. -/
def stop (campaign : Campaign) : Campaign :=
  match campaign.state with
  | .seeking => { campaign with state := .withdrawn, isStopping := true }
  | .holding lease _ =>
    { campaign with isStopping := true }.moved (.release lease.token campaign.time)
      (.released lease)
  | _ => { campaign with isStopping := true }

/-- Waits for the next attempt, or until the broker is told to stop, or for the limit,
whichever comes first. A broker that was told before it began to wait notices at
once. -/
def wait (campaign : Campaign) : Campaign :=
  let next := campaign.time + Agenda.millisUp campaign.candidate.pause
  let stopAt := campaign.script.stopAt.filter fun time => max time campaign.time ≤ next
  match stopAt with
  | some time =>
    let time := max time campaign.time
    if campaign.script.limit < time then cutOff campaign else stop { campaign with time }
  | none =>
    if campaign.script.limit < next then cutOff campaign
    else attempt { campaign with time := next }
where
  /-- The campaign as it is when the limit is reached. -/
  cutOff (campaign : Campaign) : Campaign :=
    { campaign with time := campaign.script.limit, isCutOff := true }

/-- Goes on until the campaign is over or cut off. -/
def run : (fuel : Nat) → Campaign → Campaign
  | 0, campaign => campaign
  | fuel + 1, campaign =>
    if campaign.state.isOver || campaign.isCutOff then campaign else run fuel campaign.wait

/-- A campaign from its first attempt on. Every wait takes time unless the lease is
very short, so `limit` waits are enough. -/
def course (candidate : Candidate) (script : CampaignScript) : Campaign :=
  let start : Campaign := {
    candidate, script
    isStopping := (script.stopAt.map fun time => time == 0).getD false }
  run (script.limit + 1) start.attempt

end Campaign

end AccessBroker
