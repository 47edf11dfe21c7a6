/-
ParmeliaLinks/Accounts/Faucet.lean

The faucet: a transfer of test dollars that a user gets once, out of a budget for each day.

A start marks the user as funded, takes one claim from the budget of the day, and submits the
transfer as a durable operation; a reconciler broadcasts operations and finishes them when the
chain has.  The three steps of a start are statements of their own.  What undoes them is two
more: they run when the submission throws and no operation of the user is active, and when an
operation fails.

Each statement may be lost or go unanswered, and a handler may die between two of them.  The
kinds of operation other than the transfer are left out, and so is what the chain does; its
answers come from outside.

History: which handler holds the mark of a user and a claim of a window, that is, has taken it
and neither given it back nor passed it on to an operation; the window of the claim of each
operation; for whom an operation was created; the transfers that were confirmed; how many
claims were granted and refunded in each window.
-/
import Mathlib.Data.List.Sort
import ParmeliaLinks.Lib.Crash
import ParmeliaLinks.Lib.Delivery
import ParmeliaLinks.Lib.Table

namespace ParmeliaLinks.Faucet

/-- Milliseconds since the epoch. -/
abbrev Timestamp := Nat

abbrev Uid := Nat

/-- The first second of a day. -/
abbrev Window := Nat

/-! ### The tables -/

inductive AccountOperationStatus | prepared | submitted | confirmed | failed | needsReview
  deriving DecidableEq

/-- `account_operations`, of the kind `faucet`. -/
structure AccountOperation where
  id : Nat
  uid : Uid
  status : AccountOperationStatus
  txHash : Nat
  nonce : Nat
  attemptCount : Nat
  errorCode : Option String
  createdAt : Timestamp
  updatedAt : Timestamp
  confirmedAt : Option Timestamp
  expiresAt : Timestamp
  -- history: the window of its claim
  startedIn : Window
  deriving DecidableEq

namespace AccountOperation

def active (r : AccountOperation) : Bool :=
  r.status == .prepared || r.status == .submitted || r.status == .needsReview

def pending (r : AccountOperation) : Bool := r.status == .prepared || r.status == .submitted

end AccountOperation

/-- Primary key, `tx_hash`, and one active operation of a user. -/
instance : Row AccountOperation where
  clash r r' := r.id == r'.id || r.txHash == r'.txHash || (r.uid == r'.uid && r.active && r'.active)
  clash_comm r r' := by
    simp only [Bool.beq_comm (a := r.id), Bool.beq_comm (a := r.txHash), Bool.beq_comm (a := r.uid),
      Bool.and_assoc, Bool.and_comm (x := r.active)]

/-- The row of `rate_limits` of the faucet. -/
structure RateLimit where
  count : Nat
  windowStart : Window
  deriving DecidableEq

/-- The row of `cron_leases` of the signer. -/
structure Lease where
  owner : Nat
  expiresAt : Timestamp
  deriving DecidableEq

/-- `funded_at` of the users, the other tables, the clock, and the history. -/
structure World where
  fundedAt : Uid → Option Timestamp
  rateLimit : Option RateLimit
  operations : Table AccountOperation
  lease : Option Lease
  now : Timestamp
  -- who holds the mark of a user, and who a claim
  marks : List (Nat × Uid)
  claims : List (Nat × Window)
  -- the operations, and for whom each was created
  created : List (Nat × Uid)
  confirmed : List (Uid × Window)
  granted : Window → Nat
  refunded : Window → Nat

def World.initial (now : Timestamp) : World where
  fundedAt _ := none
  rateLimit := none
  operations := .empty
  lease := none
  now
  marks := []
  claims := []
  created := []
  confirmed := []
  granted _ := 0
  refunded _ := 0

/-- What `getFaucetPolicy` makes of the configuration. -/
structure FaucetPolicy where
  enabled : Bool
  dailyClaims : Nat

def faucetWindowSeconds : Nat := 24 * 60 * 60

def operationTtlMs : Nat := 24 * 60 * 60000

def signerLeaseTtlMs : Nat := 120000

/-- The window of a point in time. -/
def windowAt (now : Timestamp) : Window := now / 1000 / faucetWindowSeconds * faucetWindowSeconds

namespace World

variable (w : World) (i : Nat)

/-- The window that is open. -/
def window : Window := windowAt w.now

/-! ### Statements -/

/-- `claimFaucet`: the mark, if the user has none. -/
def claimFaucet (uid : Uid) : Bool × World :=
  if w.fundedAt uid = none then
    (true, { w with
      fundedAt := fun u => if u = uid then some w.now else w.fundedAt u
      marks := (i, uid) :: w.marks })
  else (false, w)

def releaseFaucetClaim (uid : Uid) : World :=
  { w with
    fundedAt := fun u => if u = uid then none else w.fundedAt u
    marks := w.marks.filter (·.1 != i) }

/-- The count of the window after one more. -/
def nextCount : Nat :=
  match w.rateLimit with
  | some r => if r.windowStart = w.window then r.count + 1 else 1
  | none => 1

/-- `rateLimitConsume`, and the count that it returns. -/
def consume (limit : Nat) : Nat × World :=
  let counted : World := { w with rateLimit := some ⟨w.nextCount, w.window⟩ }
  (w.nextCount,
    if w.nextCount ≤ limit then
      { counted with
        claims := (i, w.window) :: w.claims
        granted := fun v => if v = w.window then w.granted v + 1 else w.granted v }
    else counted)

/-- `refundRateLimitConsume`, in the window that is open. -/
def refund : World :=
  match w.rateLimit with
  | some r =>
    if r.windowStart = w.window then
      { w with
        rateLimit := some { r with count := r.count - 1 }
        claims := w.claims.filter (·.1 != i)
        refunded := fun v => if v = w.window then w.refunded v + 1 else w.refunded v }
    else { w with claims := w.claims.filter (·.1 != i) }
  | none => { w with claims := w.claims.filter (·.1 != i) }

def selectActive (uid : Uid) : Option AccountOperation :=
  w.operations.find? fun r => r.uid == uid && r.active

def selectOperation (id : Nat) : Option AccountOperation := w.operations.find? (·.id == id)

/-- An operation of the signer that has to be dealt with first. -/
def selectBlocker : Option AccountOperation :=
  w.operations.find? fun r => r.status == .prepared || r.status == .needsReview

/-- The window of the claim of the handler. -/
def claimedIn : Window := ((w.claims.find? (·.1 == i)).map (·.2)).getD w.window

def newOperation (id : Nat) (uid : Uid) (txHash nonce : Nat) : AccountOperation where
  id
  uid
  status := .prepared
  txHash
  nonce
  attemptCount := 0
  errorCode := none
  createdAt := w.now
  updatedAt := w.now
  confirmedAt := none
  expiresAt := w.now + operationTtlMs
  startedIn := w.claimedIn i

/-- `INSERT OR IGNORE`; mark and claim go over to the operation. -/
def insertOperation (id : Nat) (uid : Uid) (txHash nonce : Nat) : Bool × World :=
  if h : w.operations.Fits (w.newOperation i id uid txHash nonce) then
    (true, { w with
      operations := w.operations.push _ h
      marks := w.marks.filter (·.1 != i)
      claims := w.claims.filter (·.1 != i)
      created := (id, uid) :: w.created })
  else (false, w)

end World

/-- One more attempt, of a pending operation. -/
def AccountOperation.attempted (now : Timestamp) (r : AccountOperation) : AccountOperation :=
  { r with attemptCount := r.attemptCount + 1, updatedAt := now }

def AccountOperation.markedSubmitted (now : Timestamp) (r : AccountOperation) : AccountOperation :=
  if r.status = .prepared then { r with status := .submitted, updatedAt := now } else r

def AccountOperation.finished (status : AccountOperationStatus) (errorCode : Option String)
    (now : Timestamp) (r : AccountOperation) : AccountOperation :=
  if r.pending then
    { r with
      status, errorCode, updatedAt := now
      confirmedAt := if status = .confirmed then some now else none }
  else r

theorem keepsKeys_attempted (now : Timestamp) :
    Table.KeepsKeys (AccountOperation.attempted now) := ⟨fun _ _ => rfl⟩

theorem active_markedSubmitted (now : Timestamp) (r : AccountOperation) :
    (r.markedSubmitted now).active = r.active := by
  unfold AccountOperation.markedSubmitted
  split
  · rename_i prepared
    simp [AccountOperation.active, prepared]
  · rfl

theorem keepsKeys_markedSubmitted (now : Timestamp) :
    Table.KeepsKeys (AccountOperation.markedSubmitted now) := by
  refine ⟨fun r r' => ?_⟩
  have same : (r.markedSubmitted now).id = r.id ∧ (r.markedSubmitted now).txHash = r.txHash ∧
      (r.markedSubmitted now).uid = r.uid := by
    unfold AccountOperation.markedSubmitted
    split <;> exact ⟨rfl, rfl, rfl⟩
  simp only [Row.clash, same.1, same.2.1, same.2.2, active_markedSubmitted]

theorem freesKeys_finished (status : AccountOperationStatus) (errorCode : Option String)
    (now : Timestamp) : Table.FreesKeys (AccountOperation.finished status errorCode now) := by
  refine ⟨fun r r' clash => ?_⟩
  unfold AccountOperation.finished at clash
  split at clash
  · rename_i pending
    have active : r.active = true := by
      simp only [AccountOperation.pending, Bool.or_eq_true] at pending
      simp only [AccountOperation.active, Bool.or_eq_true]
      exact .inl pending
    simp only [Row.clash, Bool.or_eq_true, Bool.and_eq_true, active, and_true] at clash ⊢
    rcases clash with key | ⟨⟨user, -⟩, other⟩
    · exact .inl key
    · exact .inr ⟨user, other⟩
  · exact clash

namespace World

variable (w : World) (i : Nat)

def recordAttempt (id : Nat) : World :=
  { w with
    operations := w.operations.modify (fun r => r.id == id && r.pending) (·.attempted w.now)
      (keepsKeys_attempted w.now) }

def markSubmitted (id : Nat) : World :=
  { w with
    operations := w.operations.modify (·.id == id) (·.markedSubmitted w.now)
      (keepsKeys_markedSubmitted w.now) }

/-- An operation that is not over. -/
def selectPending (id : Nat) : Option AccountOperation :=
  w.operations.find? fun r => r.id == id && r.pending

/-- `finishAccountOperation`, and whether it was this call.  A failed operation leaves its mark
and its claim to the handler, a confirmed one keeps them. -/
def finish (id : Nat) (status : AccountOperationStatus) (errorCode : Option String) :
    Bool × World :=
  match w.selectPending id with
  | none => (false, w)
  | some r =>
    let operations := w.operations.release (fun r => r.id == id && r.pending)
      (·.finished status errorCode w.now) (freesKeys_finished status errorCode w.now)
    (true,
      match status with
      | .failed => { w with
          operations
          marks := (i, r.uid) :: w.marks
          claims := (i, r.startedIn) :: w.claims }
      | .confirmed => { w with operations, confirmed := (r.uid, r.startedIn) :: w.confirmed }
      | _ => { w with operations })

/-- The pending operations, those first that have waited longest. -/
def listActive (limit : Nat) : List AccountOperation :=
  ((w.operations.filter (·.pending)).insertionSort fun r r' => r.updatedAt ≤ r'.updatedAt).take limit

/-- Operations that ended a week ago are deleted. -/
def sweep : World :=
  { w with
    operations := w.operations.delete fun r =>
      (r.status == .confirmed || r.status == .failed) &&
        decide (r.updatedAt + 7 * 24 * 60 * 60000 ≤ w.now) }

/-- A lease that has run out is taken over. -/
def updateLease (owner : Nat) : Bool × World :=
  match w.lease with
  | some l =>
    if l.expiresAt ≤ w.now then (true, { w with lease := some ⟨owner, w.now + signerLeaseTtlMs⟩ })
    else (false, w)
  | none => (false, w)

def insertLease (owner : Nat) : Bool × World :=
  if w.lease = none then (true, { w with lease := some ⟨owner, w.now + signerLeaseTtlMs⟩ })
  else (false, w)

def deleteLease (owner : Nat) : World :=
  { w with lease := w.lease.filter (·.owner != owner) }

end World

/-! ### Operations -/

/-- What the outside contributes: what becomes of a statement, a random number, and the answers
of the chain. -/
structure Answer where
  statement : Delivery := .done
  uuid : Nat := 0
  -- the nonce and the hash of a signed transaction
  transaction : Except String (Nat × Nat) := .error "RPC error"
  sent : Except String Nat := .error "RPC error"
  -- whether the transaction was reverted
  receipt : Except String Bool := .error "RPC error"
  nonce : Except String Nat := .error "RPC error"

inductive FaucetOp
  | selectActive (uid : Uid)
  -- the same query, where a submission has thrown
  | selectDurable (uid : Uid)
  | claimFaucet (uid : Uid)
  | releaseFaucetClaim (uid : Uid)
  | consume (limit : Nat)
  | refund
  | randomUUID
  | clock
  | updateLease (owner : Nat)
  | insertLease (owner : Nat)
  | deleteLease (owner : Nat)
  | selectBlocker
  | prepareTransaction (uid : Uid)
  | scheduleReconciler
  | insertOperation (id : Nat) (uid : Uid) (txHash nonce : Nat)
  | selectOperation (id : Nat)
  | sendRawTransaction (operation : AccountOperation)
  | recordAttempt (id : Nat)
  | markSubmitted (id : Nat)
  | getTransactionReceipt (txHash : Nat)
  | getTransactionCount
  -- the ledger entry and the balances of a confirmed transfer
  | finalize (operation : AccountOperation)
  | finish (id : Nat) (status : AccountOperationStatus) (errorCode : Option String)
  | listActive (limit : Nat)
  | sweep

abbrev FaucetOp.Reply : FaucetOp → Type
  | .selectActive _ => Except String (Option AccountOperation)
  | .selectDurable _ => Except String (Option AccountOperation)
  | .claimFaucet _ => Except String Bool
  | .consume _ => Except String Nat
  | .randomUUID => Nat
  | .clock => Timestamp
  | .updateLease _ => Except String Bool
  | .insertLease _ => Except String Bool
  | .selectBlocker => Except String (Option AccountOperation)
  | .prepareTransaction _ => Except String (Nat × Nat)
  | .insertOperation _ _ _ _ => Except String Bool
  | .selectOperation _ => Except String (Option AccountOperation)
  | .sendRawTransaction _ => Except String Nat
  | .getTransactionReceipt _ => Except String Bool
  | .getTransactionCount => Except String Nat
  | .finish _ _ _ => Except String Bool
  | .listActive _ => Except String (List AccountOperation)
  | _ => Except String Unit

def FaucetOp.exec (i : Nat) : (o : FaucetOp) → Answer → World → o.Reply × World
  | .selectActive uid, x, w => x.statement.deliver w (w.selectActive uid, w)
  | .selectDurable uid, x, w => x.statement.deliver w (w.selectActive uid, w)
  | .claimFaucet uid, x, w => x.statement.deliver w (w.claimFaucet i uid)
  | .releaseFaucetClaim uid, x, w => x.statement.deliver w ((), w.releaseFaucetClaim i uid)
  | .consume limit, x, w => x.statement.deliver w (w.consume i limit)
  | .refund, x, w => x.statement.deliver w ((), w.refund i)
  | .randomUUID, x, w => (x.uuid, w)
  | .clock, _, w => (w.now, w)
  | .updateLease owner, x, w => x.statement.deliver w (w.updateLease owner)
  | .insertLease owner, x, w => x.statement.deliver w (w.insertLease owner)
  | .deleteLease owner, x, w => x.statement.deliver w ((), w.deleteLease owner)
  | .selectBlocker, x, w => x.statement.deliver w (w.selectBlocker, w)
  | .prepareTransaction _, x, w => (x.transaction, w)
  | .scheduleReconciler, x, w => x.statement.deliver w ((), w)
  | .insertOperation id uid txHash nonce, x, w =>
    x.statement.deliver w (w.insertOperation i id uid txHash nonce)
  | .selectOperation id, x, w => x.statement.deliver w (w.selectOperation id, w)
  | .sendRawTransaction _, x, w => (x.sent, w)
  | .recordAttempt id, x, w => x.statement.deliver w ((), w.recordAttempt id)
  | .markSubmitted id, x, w => x.statement.deliver w ((), w.markSubmitted id)
  | .getTransactionReceipt _, x, w => (x.receipt, w)
  | .getTransactionCount, x, w => (x.nonce, w)
  | .finalize _, x, w => x.statement.deliver w ((), w)
  | .finish id status errorCode, x, w => x.statement.deliver w (w.finish i id status errorCode)
  | .listActive limit, x, w => x.statement.deliver w (w.listActive limit, w)
  | .sweep, x, w => x.statement.deliver w ((), w.sweep)

/-! ### Handlers -/

abbrev Handler := Prog FaucetOp FaucetOp.Reply

/-- An operation, whose error is thrown. -/
def tryOp {α : Type} (o : FaucetOp) (reply : o.Reply = Except String α) : Handler α :=
  .act o fun r => Prog.ofExcept (cast reply r)

def signerLeaseBusy : String := "The transaction signer is busy. Retry shortly."

def acquireLease : Handler (Option Nat) := do
  let owner ← Prog.perform FaucetOp.randomUUID
  if ← tryOp (.updateLease owner) rfl then return some owner
  if ← tryOp (.insertLease owner) rfl then return some owner
  return none

/-- The action under the lease of the signer, which is given back whatever comes. -/
def withSignerLease {α : Type} (operationId : Option Nat) (action : Handler α) : Handler α := do
  match ← acquireLease with
  | none => throw signerLeaseBusy
  | some owner =>
    let result ← Prog.attempt (do
      let blocker ← tryOp .selectBlocker rfl
      if blocker.any fun r => some r.id != operationId then throw signerLeaseBusy
      action)
    let _ ← Prog.attempt (tryOp (.deleteLease owner) rfl : Handler Unit)
    Prog.ofExcept result

/-- The broadcast of an operation; what goes wrong is written to its row. -/
def sendOperation (operation : AccountOperation) : Handler Unit :=
  Prog.tryCatch (do
    let sentHash ← tryOp (.sendRawTransaction operation) rfl
    if sentHash ≠ operation.txHash then throw "RPC returned a different transaction hash"
    tryOp (.recordAttempt operation.id) rfl
    tryOp (.markSubmitted operation.id) rfl)
    fun _ => tryOp (.recordAttempt operation.id) rfl

def broadcastPersistedOperation (operation : AccountOperation) : Handler AccountOperation := do
  sendOperation operation
  return (← tryOp (.selectOperation operation.id) rfl).getD operation

/-- `createAccountOperation`: the reconciler is woken first. -/
def createAccountOperation (id : Nat) (uid : Uid) (txHash nonce : Nat) : Handler Bool := do
  tryOp .scheduleReconciler rfl
  tryOp (.insertOperation id uid txHash nonce) rfl

/-- `submitAccountOperation`: the operation, and whether it is new. -/
def submitAccountOperation (uid : Uid) : Handler (AccountOperation × Bool) := do
  match ← tryOp (.selectActive uid) rfl with
  | some existing => return (existing, false)
  | none => withSignerLease none do
    match ← tryOp (.selectActive uid) rfl with
    | some raced => return (raced, false)
    | none =>
      let (nonce, txHash) ← tryOp (.prepareTransaction uid) rfl
      let id ← Prog.perform FaucetOp.randomUUID
      if ← createAccountOperation id uid txHash nonce then
        match ← tryOp (.selectOperation id) rfl with
        | none => throw "Persisted account operation is missing"
        | some operation => return (← broadcastPersistedOperation operation, true)
      else
        match ← tryOp (.selectActive uid) rfl with
        | some winner => return (winner, false)
        | none => throw "Could not persist account operation"

/-- `rateLimitConsume` of the faucet; an error counts as no. -/
def claimDailyFaucetBudget (policy : FaucetPolicy) : Handler Bool :=
  if !policy.enabled || policy.dailyClaims < 1 then return false
  else Prog.tryCatch (do return (← tryOp (.consume policy.dailyClaims) rfl) ≤ policy.dailyClaims)
    fun _ => return false

/-- `startFaucetOperation`, for a user who has a row. -/
def startFaucetOperation (policy : FaucetPolicy) (uid : Uid) :
    Handler (Option (AccountOperation × Bool)) := do
  match ← tryOp (.selectActive uid) rfl with
  | some active => return some (active, false)
  | none =>
    if !policy.enabled then return none
    if !(← tryOp (.claimFaucet uid) rfl) then return none
    if !(← claimDailyFaucetBudget policy) then
      let _ ← Prog.attempt (tryOp (.releaseFaucetClaim uid) rfl : Handler Unit)
      throw "The daily faucet budget is exhausted."
    Prog.tryCatch (do return some (← submitAccountOperation uid)) fun error => do
      match ← Prog.attempt (tryOp (.selectDurable uid) rfl) with
      | .error _ => throw error
      | .ok (some durable) => return some (durable, false)
      | .ok none =>
        let _ ← Prog.attempt (tryOp (.releaseFaucetClaim uid) rfl : Handler Unit)
        let _ ← Prog.attempt (tryOp .refund rfl : Handler Unit)
        throw error

def compensateFailedOperation (operation : AccountOperation) : Handler Unit := do
  let _ ← Prog.attempt (tryOp (.releaseFaucetClaim operation.uid) rfl : Handler Unit)
  let _ ← Prog.attempt (tryOp .refund rfl : Handler Unit)

/-- The rest of a reconciliation: the receipt, or its absence. -/
def finishByReceipt (operation : AccountOperation) : Handler (Option AccountOperation) := do
  match ← Prog.attempt (tryOp (.getTransactionReceipt operation.txHash) rfl) with
  | .error _ =>
    tryOp (.recordAttempt operation.id) rfl
    if operation.expiresAt < (← Prog.perform FaucetOp.clock) then
      let latestNonce ← Prog.attempt (tryOp .getTransactionCount rfl)
      let _ ← tryOp (.finish operation.id .needsReview
        (some (if operation.nonce < latestNonce.toOption.getD operation.nonce then "NONCE_CONSUMED"
          else "TX_STUCK"))) rfl
  | .ok true =>
    if ← tryOp (.finish operation.id .failed (some "TX_REVERTED")) rfl then
      compensateFailedOperation operation
  | .ok false =>
    Prog.tryCatch (do
      tryOp (.finalize operation) rfl
      let _ ← tryOp (.finish operation.id .confirmed none) rfl)
      fun _ => tryOp (.recordAttempt operation.id) rfl
  tryOp (.selectOperation operation.id) rfl

def reconcileAccountOperation (operation : AccountOperation) :
    Handler (Option AccountOperation) := do
  if !operation.pending then return some operation
  if operation.status = .prepared then
    match ← Prog.attempt
      (withSignerLease (some operation.id) (broadcastPersistedOperation operation)) with
    | .error m => if m = signerLeaseBusy then return some operation else throw m
    | .ok operation => finishByReceipt operation
  else finishByReceipt operation

/-- The operations one after the other; an error of one is logged. -/
def reconcileAll : List AccountOperation → Handler Unit
  | [] => return ()
  | operation :: operations => do
    let _ ← Prog.attempt (reconcileAccountOperation operation)
    reconcileAll operations

def runAccountOperationReconciler (limit : Nat) : Handler Unit :=
  Prog.tryCatch (do
    let operations ← tryOp (.listActive limit) rfl
    reconcileAll operations
    tryOp .sweep rfl) fun _ => return ()

/-- The calls: a request of a user, a look at one operation, a run of the reconciler. -/
inductive Call
  | start (uid : Uid)
  | reconcile (id : Nat)
  | runReconciler (limit : Nat)

def Call.body (policy : FaucetPolicy) : Call → Handler Unit
  | .start uid => Prog.discard (startFaucetOperation policy uid)
  | .reconcile id => do
    match ← tryOp (.selectOperation id) rfl with
    | none => return ()
    | some operation => Prog.discard (reconcileAccountOperation operation)
  | .runReconciler limit => runAccountOperationReconciler limit

/-- What else happens: time goes by, counters of windows that are long gone are dropped. -/
inductive Surroundings
  | wait (ms : Nat)
  | sweepRateLimits

def Surroundings.apply : Surroundings → World → World
  | .wait ms, w => { w with now := w.now + ms }
  | .sweepRateLimits, w =>
    { w with rateLimit := w.rateLimit.filter fun r => w.now / 1000 ≤ r.windowStart + 24 * 3600 }

def faucet (policy : FaucetPolicy) :
    System FaucetOp FaucetOp.Reply World Answer Surroundings Call Unit where
  exec := FaucetOp.exec
  env := Surroundings.apply
  body := Call.body policy

end ParmeliaLinks.Faucet
