/-
ParmeliaLinks/Server/BalanceRefresh.lean

Requests to read the balances of a wallet again.  There is one row for a wallet: a
request that comes while there is one either changes nothing, because the row asks for as
much, or makes the row pending again, with the block that the row then asks for.  A
reconciler claims the rows that are due for the time of a lease, and finishes those that
it still holds.
-/
import ParmeliaLinks.Server.Schema

namespace ParmeliaLinks.Server

/-- Milliseconds. -/
abbrev Time := Nat

inductive RefreshStatus | pending | processing | completed | failed
  deriving DecidableEq

structure BalanceRefreshRow where
  chainId : ChainId
  accountAddress : Address
  uid : Uid
  reason : String
  priority : Fin 5
  status : RefreshStatus
  requiredBlock : Option BlockNumber
  attemptCount : Nat
  requestedAt : Time
  leaseOwner : Option Nat
  leaseExpiresAt : Option Time
  lastErrorCode : Option String
  deriving DecidableEq

instance : Row BalanceRefreshRow where
  clash r r' := r.chainId == r'.chainId && r.accountAddress == r'.accountAddress
  clash_comm r r' := by
    simp only [Bool.beq_comm (a := r.chainId), Bool.beq_comm (a := r.accountAddress)]

structure BalanceRefreshInput where
  uid : Uid
  accountAddress : Address
  chainId : ChainId
  reason : String
  priority : Fin 5
  notBeforeBlock : Option BlockNumber
  deriving DecidableEq

/-! ### A request -/

/-- The row of the first request for a wallet. -/
def BalanceRefreshInput.row (input : BalanceRefreshInput) (now : Time) : BalanceRefreshRow where
  chainId := input.chainId
  accountAddress := input.accountAddress
  uid := input.uid
  reason := input.reason
  priority := input.priority
  status := .pending
  requiredBlock := input.notBeforeBlock
  attemptCount := 0
  requestedAt := now
  leaseOwner := none
  leaseExpiresAt := none
  lastErrorCode := none

/-- The row has ended, well or not. -/
def BalanceRefreshRow.ended (r : BalanceRefreshRow) : Bool :=
  r.status = .completed || r.status = .failed

/-- The lease of the row has run out. -/
def BalanceRefreshRow.expired (r : BalanceRefreshRow) (now : Time) : Bool :=
  r.status = .processing && r.leaseExpiresAt.any (· ≤ now)

/-- The block that a row requires once it is requested again. -/
def mergedBlock (r : BalanceRefreshRow) (input : BalanceRefreshInput) : Option BlockNumber :=
  if r.ended then input.notBeforeBlock
  else if input.priority < r.priority then input.notBeforeBlock
  else if r.priority < input.priority then r.requiredBlock
  else
    match input.notBeforeBlock, r.requiredBlock with
    | none, required => required
    | some block, none => some block
    | some block, some required => some (max required block)

/-- The request asks for more than the row does. -/
def asksForMore (r : BalanceRefreshRow) (input : BalanceRefreshInput) : Bool :=
  input.priority < r.priority ||
    (input.priority == r.priority && input.notBeforeBlock.any fun block =>
      r.requiredBlock.all (· < block))

/-- The condition under which a request changes the row. -/
def BalanceRefreshRow.reopens (r : BalanceRefreshRow) (input : BalanceRefreshInput) (now : Time) :
    Bool :=
  r.ended || r.expired now || asksForMore r input

/-- The row, requested again. -/
def BalanceRefreshRow.reopened (r : BalanceRefreshRow) (input : BalanceRefreshInput) (now : Time) :
    BalanceRefreshRow :=
  { r with
    uid := input.uid
    reason := if r.ended || input.priority ≤ r.priority then input.reason else r.reason
    priority := if input.priority < r.priority then input.priority else r.priority
    status := .pending
    requiredBlock := mergedBlock r input
    attemptCount := if r.ended || input.priority < r.priority then 0 else r.attemptCount
    requestedAt := if r.ended || input.priority ≤ r.priority then now else r.requestedAt
    leaseOwner := none
    leaseExpiresAt := none
    lastErrorCode := none }

/-- The statement of a request. -/
def requestBalanceRefresh (input : BalanceRefreshInput) (now : Time)
    (requests : Table BalanceRefreshRow) : Table BalanceRefreshRow :=
  requests.upsert (input.row now)
    (fun r => if r.reopens input now then r.reopened input now else r)
    (by
      constructor
      intro r r'
      split <;> rfl)

end ParmeliaLinks.Server
