/-
ParmeliaLinks/Pay/Store.lean

The database and the outside that the payment routes and the payment reconciler
work against.  `pending_payments` holds one row a prepared user operation,
`payment_links` one row a link with the claim of the operation that is paying it,
and `payment_reconcile_requests` the work of the reconciler, which triggers on the
other tables keep up.

Each statement is one operation, and so is each call to a bundler, to the relayer's
node or to the journal.  What the outside contributes to an operation is an
`Answer`; a statement may fail before or after it took effect.

The world keeps history variables, which no statement reads: what each request has
done so far, which operations a transport may have accepted and under which link,
what became of them on chain, and what evidence of that the server has seen.
-/
import ParmeliaLinks.Lib.RelyGuarantee
import ParmeliaLinks.Lib.Table
import ParmeliaLinks.Pay.Transport
import Mathlib.Data.List.Sort

namespace ParmeliaLinks.Pay

/-- Milliseconds since the epoch. -/
abbrev Timestamp := Nat
/-- The identity that a request logs under, and that a pass takes a lease with. -/
abbrev RequestId := Nat
abbrev LinkId := String

/-! ### Rows -/

inductive PendingPaymentStatus | prepared | submitting | submitted | confirmed | failed
  deriving DecidableEq

/-- `pending_payments`. -/
structure PendingPayment where
  userOpHash : Hash
  uid : Nat
  chainKey : String
  linkId : Option LinkId
  paymentAttemptId : Option Nat
  senderAddress : Nat
  amount : String
  currency : String
  -- `meta.opId`
  opId : Option Nat
  status : PendingPaymentStatus
  submittedTxHash : Option Hash
  submissionTransport : Mode
  submittedAt : Option Timestamp
  submissionAttemptCount : Nat
  lastSubmissionErrorCode : Option String
  createdAt : Timestamp
  expiresAt : Timestamp
  deriving DecidableEq

instance : Row PendingPayment where
  clash r r' := r.userOpHash == r'.userOpHash
  clash_comm _ _ := Bool.beq_comm

inductive PaymentLinkStatus | pending | paid
  deriving DecidableEq

/-- `payment_links`. -/
structure PaymentLink where
  id : LinkId
  amount : String
  status : PaymentLinkStatus
  txHash : Option Hash
  paidAt : Option Timestamp
  paidBy : Option Nat
  paymentClaim : Option Hash
  paymentClaimExpiresAt : Option Timestamp
  paymentClaimTxHash : Option Hash
  deriving DecidableEq

instance : Row PaymentLink where
  clash r r' := r.id == r'.id
  clash_comm _ _ := Bool.beq_comm

inductive PaymentIntentStatus | awaitingPayment | paid | expired | canceled
  deriving DecidableEq

/-- `payment_intents`. -/
structure PaymentIntent where
  id : Nat
  linkId : Option LinkId
  status : PaymentIntentStatus
  txHash : Option Hash
  expiresAt : Option Timestamp
  deriving DecidableEq

instance : Row PaymentIntent where
  clash r r' := r.id == r'.id
  clash_comm _ _ := Bool.beq_comm

inductive ReconcileStatus | pending | processing | failed | completed | dead
  deriving DecidableEq

/-- `payment_reconcile_requests`. -/
structure ReconcileRequest where
  userOpHash : Hash
  status : ReconcileStatus
  priority : Nat
  attemptCount : Nat
  nextAttemptAt : Timestamp
  leaseOwner : Option RequestId
  leaseExpiresAt : Option Timestamp
  lastErrorCode : Option String
  createdAt : Timestamp
  completedAt : Option Timestamp
  deriving DecidableEq

instance : Row ReconcileRequest where
  clash r r' := r.userOpHash == r'.userOpHash
  clash_comm _ _ := Bool.beq_comm

/-- The canonical receipt of a user operation, as the journal has it. -/
structure CanonicalUserOperation where
  txHash : Hash
  success : Bool
  deriving DecidableEq

/-- The receipt that a transport answers. -/
structure UserOperationReceipt where
  transactionHash : Hash
  blockNumber : Nat
  success : Bool
  deriving DecidableEq

/-! ### The world -/

/-- What becomes of an operation on chain. -/
inductive Fate
  | mineable
  | mined (success : Bool)
  -- its nonce is used or its window is over, so that it cannot be mined any more
  | dropped
  deriving DecidableEq

/-- What a pass has seen of the row that it is reconciling. -/
structure Reading where
  userOpHash : Hash
  confirmations : Nat
  failures : Nat
  deriving DecidableEq

/-- What a request has done so far. -/
structure RequestHistory where
  -- the handler it belongs to
  thread : Option Nat := none
  -- the operation it has claimed, and not given back
  operation : Option Hash := none
  -- the link it has claimed for it
  link : Option LinkId := none
  -- a transport may have accepted the operation from it
  accepted : Bool := false
  reading : Option Reading := none
  deriving DecidableEq

structure World where
  pending : Table PendingPayment
  links : Table PaymentLink
  intents : Table PaymentIntent
  requests : Table ReconcileRequest
  canonical : Hash → Option CanonicalUserOperation
  -- the time of the block that the stream of user operations has come to
  coveredUntil : Option Timestamp
  clock : Timestamp
  begun : Nat
  history : RequestId → RequestHistory
  accepted : Hash → Bool
  handed : List (LinkId × Hash)
  fate : Hash → Fate
  confirmations : Hash → Nat
  failures : Hash → Nat
  -- a successful, or a failed, receipt of the operation has been seen
  proven : Hash → Bool
  refuted : Hash → Bool

namespace World

def initial (clock : Timestamp) : World where
  pending := .empty
  links := .empty
  intents := .empty
  requests := .empty
  canonical _ := none
  coveredUntil := none
  clock := clock
  begun := 0
  history _ := {}
  accepted _ := false
  handed := []
  fate _ := .mineable
  confirmations _ := 0
  failures _ := 0
  proven _ := false
  refuted _ := false

variable (w : World)

/-- The request `q` has got on. -/
def noting (q : RequestId) (f : RequestHistory → RequestHistory) : World :=
  { w with history := fun q' => if q' = q then f (w.history q) else w.history q' }

/-- A transport may have accepted the operation from the request `q`. -/
def accept (q : RequestId) (h : Hash) : World :=
  { w with
    accepted := fun h' => h' == h || w.accepted h'
    handed := match (w.history q).link with
      | some id => (id, h) :: w.handed
      | none => w.handed }.noting q ({ · with accepted := true })

/-- A receipt of the operation has been seen. -/
def witness (h : Hash) (success : Bool) : World :=
  if success then { w with proven := fun h' => h' == h || w.proven h' }
  else { w with refuted := fun h' => h' == h || w.refuted h' }

/-! ### Triggers -/

def newRequest (h : Hash) (priority : Nat) (now : Timestamp) : ReconcileRequest where
  userOpHash := h
  status := .pending
  priority := priority
  attemptCount := 0
  nextAttemptAt := now
  leaseOwner := none
  leaseExpiresAt := none
  lastErrorCode := none
  createdAt := now
  completedAt := none

/-- `trg_payment_reconcile_submitted`. -/
def onSubmitted (h : Hash) (now : Timestamp) (requests : Table ReconcileRequest) :
    Table ReconcileRequest :=
  requests.upsert (newRequest h 1 now)
    (fun r =>
      { r with
        status := if r.status = .completed then .completed else .pending
        priority := min r.priority 1, nextAttemptAt := now, lastErrorCode := none })
    ⟨fun _ _ => rfl⟩

/-- `trg_payment_reconcile_terminal`. -/
def onTerminal (h : Hash) (now : Timestamp) (requests : Table ReconcileRequest) :
    Table ReconcileRequest :=
  requests.modify (·.userOpHash == h)
    (fun r =>
      { r with
        status := .completed, completedAt := some now, leaseOwner := none
        leaseExpiresAt := none, lastErrorCode := none })
    ⟨fun _ _ => rfl⟩

/-- The triggers of an update of the status. -/
def onStatus (h : Hash) (before after : PendingPaymentStatus) (now : Timestamp)
    (requests : Table ReconcileRequest) : Table ReconcileRequest :=
  if after = before then requests
  else match after with
    | .submitted => onSubmitted h now requests
    | .confirmed => onTerminal h now requests
    | .failed => onTerminal h now requests
    | _ => requests

/-- `trg_user_operation_receipt_reconcile_insert` and `…_update`. -/
def onReceipt (h : Hash) (now : Timestamp) : World :=
  if w.pending.any fun r =>
      r.userOpHash == h && (r.status == .submitting || r.status == .submitted) then
    { w with
      requests := w.requests.upsert (newRequest h 0 now)
        (fun r =>
          { r with
            status := .pending, priority := 0, nextAttemptAt := now, leaseOwner := none
            leaseExpiresAt := none, lastErrorCode := none, completedAt := none })
        ⟨fun _ _ => rfl⟩ }
  else w

/-! ### Statements on `pending_payments` -/

/-- The row of the operation. -/
def payment? (h : Hash) : Option PendingPayment := w.pending.find? (·.userOpHash == h)

/-- `UPDATE pending_payments SET f WHERE user_op_hash = ? AND guard`, with its triggers,
and whether it found a row. -/
def updatePending (h : Hash) (guard : PendingPaymentStatus → Bool)
    (f : PendingPayment → PendingPayment) (keys : Table.KeepsKeys f) : Bool × World :=
  match w.payment? h with
  | none => (false, w)
  | some r =>
    if guard r.status then
      (true,
        { w with
          pending := w.pending.modify (·.userOpHash == h) f keys
          requests := onStatus h r.status (f r).status w.clock w.requests })
    else (false, w)

/-- `DELETE FROM pending_payments WHERE p`; the reconcile requests follow. -/
def deletePayments (p : PendingPayment → Bool) : World :=
  { w with
    pending := w.pending.delete p
    requests := w.requests.delete fun r => w.pending.any fun r' =>
      p r' && r'.userOpHash == r.userOpHash }

/-- The upsert of `createPendingPayment`. -/
def upsertPayment (row : PendingPayment) : World :=
  { w with
    pending := w.pending.upsert row (fun r => { row with userOpHash := r.userOpHash })
      ⟨fun _ _ => rfl⟩ }

/-- The request that `claimPendingForSubmit` leaves behind for the reconciler. -/
def requestSubmitting (h : Hash) (now : Timestamp) (requests : Table ReconcileRequest) :
    Table ReconcileRequest :=
  requests.upsert (newRequest h 2 now)
    (fun r =>
      let leased := r.status == .processing && r.leaseExpiresAt.any (now < ·)
      { r with
        priority := min r.priority 2, nextAttemptAt := now, lastErrorCode := none
        status := if leased then .processing else .pending
        leaseOwner := if leased then r.leaseOwner else none
        leaseExpiresAt := if leased then r.leaseExpiresAt else none
        completedAt := if leased then r.completedAt else none })
    ⟨fun _ _ => rfl⟩

/-- The batch of `claimPendingForSubmit`, and whether it claimed the row. -/
def claimPending (q : RequestId) (h : Hash) (now : Timestamp) : Bool × World :=
  let (claimed, w') := w.updatePending h (· == .prepared)
    (fun r =>
      { r with
        status := .submitting, submissionAttemptCount := r.submissionAttemptCount + 1
        lastSubmissionErrorCode := none })
    ⟨fun _ _ => rfl⟩
  let w' := if (w'.payment? h).any (·.status == .submitting) then
    { w' with requests := requestSubmitting h now w'.requests } else w'
  (claimed, if claimed then w'.noting q ({ · with operation := some h }) else w')

/-- The update of `releasePendingClaim`. -/
def releasePending (q : RequestId) (h : Hash) (errorCode : Option String) : World :=
  let (released, w') := w.updatePending h (· == .submitting)
    (fun r => { r with status := .prepared, lastSubmissionErrorCode := errorCode })
    ⟨fun _ _ => rfl⟩
  if released then w'.noting q ({ · with operation := none }) else w'

/-- The update of `setPendingPaymentSubmitted`. -/
def setSubmitted (h : Hash) (transport : Mode) (txHash : Option Hash) (now : Timestamp) : World :=
  (w.updatePending h (fun s => s == .submitting || s == .submitted)
    (fun r =>
      { r with
        status := .submitted, submittedTxHash := txHash, submissionTransport := transport
        submittedAt := some now, lastSubmissionErrorCode := none })
    ⟨fun _ _ => rfl⟩).2

/-- A terminal status has been written. -/
def counting (h : Hash) (status : PendingPaymentStatus) : World :=
  match status with
  | .confirmed =>
    { w with confirmations := fun h' => if h' = h then w.confirmations h + 1
        else w.confirmations h' }
  | .failed =>
    { w with failures := fun h' => if h' = h then w.failures h + 1 else w.failures h' }
  | _ => w

/-- The update of `setPendingPaymentStatus`; `txHash` is `none` where the caller leaves
the column alone. -/
def setStatus (h : Hash) (status : PendingPaymentStatus) (txHash : Option (Option Hash)) : World :=
  ((w.updatePending h (fun _ => true)
    (fun r => { r with status := status, submittedTxHash := txHash.getD r.submittedTxHash })
    ⟨fun _ _ => rfl⟩).2).counting h status

/-- The pass `q` has read the row of the operation, which was still under way. -/
def reading (q : RequestId) (h : Hash) : World :=
  w.noting q ({ · with
    reading := if (w.payment? h).any fun r => r.status != .confirmed && r.status != .failed then
      some ⟨h, w.confirmations h, w.failures h⟩ else none })

/-! ### Statements on `payment_links` -/

/-- An intent behind the link stands in the way of a payment. -/
def intentBlocks (id : LinkId) (now : Timestamp) (i : PaymentIntent) : Bool :=
  i.linkId == some id && (i.status != .awaitingPayment || i.expiresAt.any (· ≤ now))

/-- The condition of `claimPaymentLinkForSubmit`. -/
def claimable (id : LinkId) (owner : Hash) (now : Timestamp) (l : PaymentLink) : Bool :=
  l.id == id && l.status == .pending &&
    (l.paymentClaim == none || l.paymentClaim == some owner ||
      (l.paymentClaimTxHash == none && l.paymentClaimExpiresAt.any (· ≤ now))) &&
    !w.intents.any (intentBlocks id now)

/-- The update of `claimPaymentLinkForSubmit`, and whether it claimed the link. -/
def claimLink (q : RequestId) (id : LinkId) (owner : Hash) (expiresAt now : Timestamp) :
    Bool × World :=
  if 0 < w.links.changes (w.claimable id owner now) then
    (true,
      { w with
        links := w.links.modify (w.claimable id owner now)
          (fun l =>
            { l with
              paymentClaim := some owner, paymentClaimExpiresAt := some expiresAt
              paymentClaimTxHash := none })
          ⟨fun _ _ => rfl⟩ }.noting q ({ · with link := some id }))
  else (false, w)

/-- The update of `markPaymentLinkClaimBroadcast`. -/
def markBroadcast (id : LinkId) (owner txHash : Hash) : World :=
  { w with
    links := w.links.modify
      (fun l => l.id == id && l.status == .pending && l.paymentClaim == some owner)
      (fun l => { l with paymentClaimTxHash := some txHash, paymentClaimExpiresAt := none })
      ⟨fun _ _ => rfl⟩ }

/-- The condition of `releasePaymentLinkClaim`. -/
def releasable (id : LinkId) (owner : Hash) (allowBroadcast : Bool) (l : PaymentLink) : Bool :=
  l.id == id && l.status == .pending && l.paymentClaim == some owner &&
    (allowBroadcast || l.paymentClaimTxHash == none)

/-- The update of `releasePaymentLinkClaim`. -/
def releaseLink (id : LinkId) (owner : Hash) (allowBroadcast : Bool) : World :=
  { w with
    links := w.links.modify (releasable id owner allowBroadcast)
      (fun l =>
        { l with
          paymentClaim := none, paymentClaimExpiresAt := none, paymentClaimTxHash := none })
      ⟨fun _ _ => rfl⟩ }

/-- How a link is settled. -/
structure Settlement where
  id : LinkId
  amount : String
  txHash : Hash
  paidAt : Timestamp
  paidBy : Nat
  claimOwner : Hash
  intentId : Option Nat

/-- The condition of `settlePaymentLinkWithOutbox`. -/
def settleable (s : Settlement) (l : PaymentLink) : Bool :=
  l.id == s.id && l.status == .pending &&
    (l.paymentClaim == none || l.paymentClaim == some s.claimOwner)

def settledLink (s : Settlement) (l : PaymentLink) : PaymentLink :=
  { l with
    status := .paid, amount := s.amount, txHash := some s.txHash, paidAt := some s.paidAt
    paidBy := some s.paidBy, paymentClaim := none, paymentClaimExpiresAt := none
    paymentClaimTxHash := none }

/-- The batch of `settlePaymentLinkWithOutbox`, and whether it settled the link. -/
def settleLink (s : Settlement) : Bool × World :=
  let links := w.links.modify (settleable s) (settledLink s) ⟨fun _ _ => rfl⟩
  let paid := links.any fun l => l.id == s.id && l.status == .paid && l.txHash == some s.txHash
  (0 < w.links.changes (settleable s),
    { w with
      links
      intents := w.intents.modify
        (fun i => s.intentId == some i.id && i.status == .awaitingPayment && paid)
        (fun i => { i with status := .paid, txHash := some s.txHash }) ⟨fun _ _ => rfl⟩ })

/-! ### Statements on `payment_reconcile_requests` -/

/-- `enqueueMissingReconcileRequests`. -/
def enqueueMissing (now : Timestamp) : World :=
  { w with
    requests := (w.pending.filter fun r =>
        r.status == .submitting || r.status == .submitted).foldl
      (fun requests r => requests.insertOrIgnore (newRequest r.userOpHash 1 now)) w.requests }

/-- The request may be taken up. -/
def due (now : Timestamp) (r : ReconcileRequest) : Bool :=
  ((r.status == .pending || r.status == .failed) && r.nextAttemptAt ≤ now) ||
    (r.status == .processing && r.leaseExpiresAt.any (· ≤ now))

/-- `ORDER BY priority ASC, next_attempt_at ASC, created_at ASC`. -/
def Before (r r' : ReconcileRequest) : Prop :=
  r.priority < r'.priority ∨ r.priority = r'.priority ∧
    (r.nextAttemptAt < r'.nextAttemptAt ∨ r.nextAttemptAt = r'.nextAttemptAt ∧
      r.createdAt ≤ r'.createdAt)

instance : DecidableRel Before := fun r r' =>
  inferInstanceAs (Decidable (r.priority < r'.priority ∨ r.priority = r'.priority ∧
    (r.nextAttemptAt < r'.nextAttemptAt ∨ r.nextAttemptAt = r'.nextAttemptAt ∧
      r.createdAt ≤ r'.createdAt)))

/-- The query of `listDuePaymentReconcileRequests`. -/
def listDue (now : Timestamp) (limit : Nat) : List (Hash × Nat) :=
  (((w.requests.filter (due now)).insertionSort Before).take (min 100 (max 1 limit))).map
    fun r => (r.userOpHash, r.attemptCount)

/-- The update of `claimPaymentReconcileRequest`, and whether it found the request due. -/
def claimRequest (q : RequestId) (h : Hash) (leaseExpiresAt now : Timestamp) : Bool × World :=
  (0 < w.requests.changes (fun r => r.userOpHash == h && due now r),
    { w with
      requests := w.requests.modify (fun r => r.userOpHash == h && due now r)
        (fun r =>
          { r with
            status := .processing, attemptCount := r.attemptCount + 1, leaseOwner := some q
            leaseExpiresAt := some leaseExpiresAt, lastErrorCode := none })
        ⟨fun _ _ => rfl⟩ })

/-- The pass still holds the lease. -/
def leasedTo (q : RequestId) (h : Hash) (r : ReconcileRequest) : Bool :=
  r.userOpHash == h && r.status == .processing && r.leaseOwner == some q

/-- The update of `reschedulePaymentReconcileRequest`. -/
def rescheduleRequest (q : RequestId) (h : Hash) (nextAttemptAt : Timestamp)
    (errorCode : Option String) (terminal : Bool) : World :=
  { w with
    requests := w.requests.modify (leasedTo q h)
      (fun r =>
        { r with
          status := if terminal then .dead else if errorCode.isSome then .failed else .pending
          nextAttemptAt := nextAttemptAt, leaseOwner := none, leaseExpiresAt := none
          lastErrorCode := errorCode })
      ⟨fun _ _ => rfl⟩ }

/-- The update of `completePaymentReconcileRequest`. -/
def completeRequest (q : RequestId) (h : Hash) (now : Timestamp) : World :=
  { w with
    requests := w.requests.modify (leasedTo q h)
      (fun r =>
        { r with
          status := .completed, completedAt := some now, leaseOwner := none
          leaseExpiresAt := none, lastErrorCode := none })
      ⟨fun _ _ => rfl⟩ }

end World

/-! ### Operations -/

/-- What becomes of a statement. -/
inductive Outcome
  | done
  | lost (message : String)
  | unacknowledged (message : String)

/-- The user operation that a prepared payment carries, as the chain and the paymaster
make it. -/
structure BuiltUserOperation where
  userOpHash : Hash

/-- What the outside contributes to an operation. -/
structure Answer where
  outcome : Outcome := .done
  -- the error of a remote call
  error : Option RpcError := none
  -- the answer of a remote call to a question
  flag : Bool := true
  -- the operation may have been accepted, whatever the answer
  accepted : Bool := false
  hash : Option Hash := none
  receipt : Option UserOperationReceipt := none
  number : Nat := 0

/-- Why a claim on a link is given back. -/
inductive Release
  -- the submission failed before anything was sent
  | unsent
  -- the receipt of the operation says that it failed
  | failed
  -- the operation has not been seen and its window is over
  | unlanded
  deriving DecidableEq

/-- `allowBroadcast`. -/
def Release.allowBroadcast : Release → Bool
  | .unsent => false
  | .failed => true
  | .unlanded => true

inductive PayOp
  | begin
  | now
  | deleteExpired (now : Timestamp)
  | upsertPayment (row : PendingPayment)
  | selectPayment (q : RequestId) (h : Hash)
  | deletePayment (h : Hash)
  | claimPending (q : RequestId) (h : Hash) (now : Timestamp)
  | releasePending (q : RequestId) (h : Hash) (errorCode : Option String)
  | setSubmitted (h : Hash) (transport : Mode) (txHash : Option Hash) (now : Timestamp)
  | setStatus (q : RequestId) (h : Hash) (status : PendingPaymentStatus)
      (txHash : Option (Option Hash))
  | sweepTerminal (now cutoff : Timestamp)
  | selectLink (id : LinkId)
  | selectIntent (id : LinkId)
  | claimLink (q : RequestId) (id : LinkId) (owner : Hash) (expiresAt now : Timestamp)
  | markBroadcast (id : LinkId) (owner txHash : Hash)
  | releaseLink (q : RequestId) (id : LinkId) (owner : Hash) (release : Release)
  | settleLink (s : World.Settlement)
  | enqueueMissing (now : Timestamp)
  | listDue (now : Timestamp) (limit : Nat)
  | claimRequest (q : RequestId) (h : Hash) (leaseExpiresAt now : Timestamp)
  | rescheduleRequest (q : RequestId) (h : Hash) (nextAttemptAt : Timestamp)
      (errorCode : Option String) (terminal : Bool)
  | completeRequest (q : RequestId) (h : Hash) (now : Timestamp)
  | selectCanonical (h : Hash)
  | selectCovered (past : Timestamp)
  -- a statement or call of the named function on other data, which may throw
  | auxiliary (function : String)
  | buildUserOperation
  | wrapSignature
  | endpointSupports (slot : Nat)
  -- `doubt` tells whether an earlier bundler may have the operation
  | ask (q : RequestId) (h : Hash) (slot : Nat) (doubt : Bool)
  | simulate (h : Hash)
  | acquireSigner
  | signerBlocked
  | write (q : RequestId) (h : Hash)
  | releaseSigner
  -- the error of the submission reaches the handler
  | surface (q : RequestId) (e : SubmissionError)
  | receipt (mode : Mode) (h : Hash) (txHash : Option Hash)
  | safeBlock
  | block (number : Nat)

namespace PayOp

abbrev Reply : PayOp → Type
  | .begin => RequestId
  | .now => Timestamp
  | .selectPayment .. => Except String (Option PendingPayment)
  | .claimPending .. => Except String Bool
  | .selectLink _ => Except String (Option PaymentLink)
  | .selectIntent _ => Except String (Option PaymentIntent)
  | .claimLink .. => Except String Bool
  | .settleLink _ => Except String Bool
  | .listDue .. => Except String (List (Hash × Nat))
  | .claimRequest .. => Except String Bool
  | .selectCanonical _ => Except String (Option CanonicalUserOperation)
  | .selectCovered _ => Except String Bool
  | .buildUserOperation => Except String BuiltUserOperation
  | .wrapSignature => Except String Bool
  | .endpointSupports _ => Except RpcError Bool
  | .ask .. => Except RpcError (Option Hash)
  | .simulate _ => Except RpcError Unit
  | .acquireSigner => Except RpcError Bool
  | .signerBlocked => Except RpcError Bool
  | .write .. => Except RpcError Hash
  | .surface .. => Unit
  | .receipt .. => Except RpcError (Option UserOperationReceipt)
  | .safeBlock => Except RpcError (Option Nat)
  | .block _ => Except RpcError Unit
  | _ => Except String Unit

/-- A statement with its outcome: it has no effect, or one that the caller may not
learn of. -/
def deliver {α : Type} (x : Outcome) (w : World) (r : α × World) : Except String α × World :=
  match x with
  | .done => (.ok r.1, r.2)
  | .lost m => (.error m, w)
  | .unacknowledged m => (.error m, r.2)

/-- The answer of a remote call. -/
def call {α : Type} (x : Answer) (a : α) : Except RpcError α :=
  match x.error with
  | some e => .error e
  | none => .ok a

/-- A request to a transport, which may have taken the operation in. -/
def hand (x : Answer) (w : World) (q : RequestId) (h : Hash) : World :=
  if x.accepted then w.accept q h else w

/-- A receipt that the server has been shown. -/
def shown (x : Answer) (w : World) (h : Hash) : World :=
  match x.error, x.receipt with
  | none, some r => w.witness h r.success
  | _, _ => w

def exec (i : Nat) : (o : PayOp) → Answer → World → Reply o × World
  | .begin, _, w =>
    (w.begun, { w with begun := w.begun + 1 }.noting w.begun fun _ => { thread := some i })
  | .now, _, w => (w.clock, w)
  | .deleteExpired t, x, w =>
    deliver x.outcome w ((), w.deletePayments fun r => r.expiresAt ≤ t && r.status == .prepared)
  | .upsertPayment row, x, w => deliver x.outcome w ((), w.upsertPayment row)
  | .selectPayment q h, x, w => deliver x.outcome w (w.payment? h, w.reading q h)
  | .deletePayment h, x, w => deliver x.outcome w ((), w.deletePayments (·.userOpHash == h))
  | .claimPending q h t, x, w => deliver x.outcome w (w.claimPending q h t)
  | .releasePending q h errorCode, x, w => deliver x.outcome w ((), w.releasePending q h errorCode)
  | .setSubmitted h transport txHash t, x, w =>
    deliver x.outcome w ((), w.setSubmitted h transport txHash t)
  | .setStatus _ h status txHash, x, w => deliver x.outcome w ((), w.setStatus h status txHash)
  | .sweepTerminal t cutoff, x, w =>
    deliver x.outcome w ((), w.deletePayments fun r =>
      (r.status == .prepared && r.expiresAt ≤ t) ||
        ((r.status == .confirmed || r.status == .failed) && r.expiresAt ≤ cutoff))
  | .selectLink id, x, w => deliver x.outcome w (w.links.find? (·.id == id), w)
  | .selectIntent id, x, w => deliver x.outcome w (w.intents.find? (·.linkId == some id), w)
  | .claimLink q id owner expiresAt t, x, w =>
    deliver x.outcome w (w.claimLink q id owner expiresAt t)
  | .markBroadcast id owner txHash, x, w =>
    deliver x.outcome w ((), w.markBroadcast id owner txHash)
  | .releaseLink _ id owner release, x, w =>
    deliver x.outcome w ((), w.releaseLink id owner release.allowBroadcast)
  | .settleLink s, x, w => deliver x.outcome w (w.settleLink s)
  | .enqueueMissing t, x, w => deliver x.outcome w ((), w.enqueueMissing t)
  | .listDue t limit, x, w => deliver x.outcome w (w.listDue t limit, w)
  | .claimRequest q h leaseExpiresAt t, x, w =>
    deliver x.outcome w (w.claimRequest q h leaseExpiresAt t)
  | .rescheduleRequest q h nextAttemptAt errorCode terminal, x, w =>
    deliver x.outcome w ((), w.rescheduleRequest q h nextAttemptAt errorCode terminal)
  | .completeRequest q h t, x, w => deliver x.outcome w ((), w.completeRequest q h t)
  | .selectCanonical h, x, w => deliver x.outcome w (w.canonical h, w)
  | .selectCovered past, x, w => deliver x.outcome w (w.coveredUntil.any (past ≤ ·), w)
  | .auxiliary _, x, w => deliver x.outcome w ((), w)
  | .buildUserOperation, x, w => deliver x.outcome w (⟨x.hash.getD 0⟩, w)
  | .wrapSignature, x, w => deliver x.outcome w (x.flag, w)
  | .endpointSupports _, x, w => (call x x.flag, w)
  | .ask q h _ _, x, w => (call x x.hash, hand x w q h)
  | .simulate _, x, w => (call x (), w)
  | .acquireSigner, x, w => (call x x.flag, w)
  | .signerBlocked, x, w => (call x x.flag, w)
  | .write q h, x, w => (call x (x.hash.getD 0), hand x w q h)
  | .releaseSigner, x, w => deliver x.outcome w ((), w)
  | .surface _ _, _, w => ((), w)
  | .receipt _ h _, x, w => (call x x.receipt, shown x w h)
  | .safeBlock, x, w => (call x (some x.number), w)
  | .block _, x, w => (call x (), w)

end PayOp

end ParmeliaLinks.Pay
