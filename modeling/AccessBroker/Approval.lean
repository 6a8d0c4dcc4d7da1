import AccessBroker.Object.Basic

/-!
# Counting approvals

The votes on a request are counted by identity: it does not matter how often
somebody votes, and votes of the requester do not count. A single denial denies.
-/

namespace AccessBroker

open AccessBroker.Text

/-- The identities that voted on a request. -/
structure Tally where
  approvers : NameSet := .empty
  deniers : NameSet := .empty
  deriving Repr, DecidableEq

namespace Tally

/-- The tally with one more vote, on a request of `subject`. -/
def count (subject : String) (tally : Tally) (response : Response) : Tally :=
  let voter := response.body.approver
  if voter = subject then tally
  else match response.body.response with
    | .approved => { tally with approvers := tally.approvers.insert voter }
    | .denied => { tally with deniers := tally.deniers.insert voter }

/-- The votes on a request of `subject`. -/
def ofResponses (subject : String) (responses : List Response) : Tally :=
  responses.foldl (count subject) {}

/-- The number of identities that approved, as far as it can be recorded. -/
def approvals (tally : Tally) : UInt32 :=
  UInt32.ofNat (min tally.approvers.size (UInt32.size - 1))

/-- Has somebody denied? -/
def isDenied (tally : Tally) : Bool :=
  !tally.deniers.isEmpty

end Tally

end AccessBroker
