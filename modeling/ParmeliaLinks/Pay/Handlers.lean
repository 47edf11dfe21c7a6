/-
ParmeliaLinks/Pay/Handlers.lean

The payment routes and the payment reconciler.  `/pay/prepare` builds a user
operation and stores it, `/pay/submit` claims it, claims its link and hands it to a
bundler or to the server's own relayer, `/pay/status` reads, and the reconciler
takes up what is under way, settles it or gives it up.

`/pay/submit` never lets an error out.  What it does with one depends on how far it
has come: before the claim it only answers, after a transport has taken the
operation it answers that the payment is under way, and in between it gives its
claims back, unless the error says that the operation may have been submitted.
-/
import ParmeliaLinks.Pay.Store

namespace ParmeliaLinks.Pay

abbrev PayHandler := Prog PayOp PayOp.Reply

def perform (o : PayOp) : PayHandler (PayOp.Reply o) := .perform o

/-- A remote call whose error is thrown. -/
def orThrow {α : Type} : Except RpcError α → PayHandler α
  | .ok a => .ret a
  | .error e => .throw e.message

def auxiliary (function : String) : PayHandler Unit := do
  .ofExcept (← perform (.auxiliary function))

/-- A call whose failure is only logged. -/
def logged (p : PayHandler Unit) : PayHandler Unit := do
  let _ ← p.attempt
  return ()

/-- A call that is made in one case only. -/
def onlyIf (condition : Bool) (p : PayHandler Unit) : PayHandler Unit :=
  if condition then p else return ()

inductive CutoverMode | legacy | frozen | payments
  deriving DecidableEq

/-- The settings of the server. -/
structure Env where
  bundlerUrls : Nat
  bundlerSelfFallback : Bool
  indexerUrls : Nat
  cutoverMode : CutoverMode

/-! ### Transports -/

/-- Why a bundler did not take the operation in, as far as its reply goes. -/
def refusal (h : Hash) : Except RpcError (Option Hash) → Option UserOperationTransportError
  | .error e => some (normalizeBundlerError e)
  | .ok result => if result = some h then none else some differentHashError

/-- The loop of `BundlerTransport.send`. -/
def sendToBundlers (q : RequestId) (h : Hash) : List Nat → BundlerScan →
    PayHandler (Except UserOperationTransportError UserOperationSendResult)
  | [], s => return .error s.conclude
  | slot :: slots, s => do
    match ← perform (.endpointSupports slot) with
    | .error e =>
      match s.fail false (normalizeBundlerError e) with
      | .error e => return .error e
      | .ok s => sendToBundlers q h slots s
    | .ok false => sendToBundlers q h slots s
    | .ok true =>
      match refusal h (← perform (.ask q h slot s.possiblySubmitted)) with
      | none => return .ok { transport := .bundler, userOpHash := h, transactionHash := none }
      | some e =>
        match { s with compatible := true }.fail true e with
        | .error e => return .error e
        | .ok s => sendToBundlers q h slots s

def noBundler : UserOperationTransportError where
  message := "No bundler endpoint is configured"
  errorCode := .bundlerUnavailable
  retryable := true

def bundlerSend (env : Env) (q : RequestId) (h : Hash) :
    PayHandler (Except UserOperationTransportError UserOperationSendResult) :=
  if env.bundlerUrls = 0 then return .error noBundler
  else sendToBundlers q h (List.range env.bundlerUrls) {}

/-- The action of `withSignerLease`, the check before it included. -/
def writeLeased (q : RequestId) (h : Hash) :
    PayHandler (Except SubmissionError UserOperationSendResult) := do
  match ← perform .signerBlocked with
  | .error e => return .error (relayerError e)
  | .ok true => return .error .signerLeaseBusy
  | .ok false =>
    match ← perform (.write q h) with
    | .error e => return .error (relayerError e)
    | .ok transactionHash =>
      return .ok
        { transport := .self, userOpHash := h, transactionHash := some transactionHash }

/-- `SelfHandleOpsTransport.send`.  No needle of `isTransientRpcError` is in the text of
a busy signer. -/
def selfSend (q : RequestId) (h : Hash) :
    PayHandler (Except SubmissionError UserOperationSendResult) := do
  match ← perform (.simulate h) with
  | .error e => return .error (.other e)
  | .ok () =>
    match ← perform .acquireSigner with
    | .error e => return .error (relayerError e)
    | .ok false => return .error .signerLeaseBusy
    | .ok true =>
      let result ← writeLeased q h
      let _ ← perform .releaseSigner
      return result

def sendUserOperation (env : Env) (mode : Mode) (q : RequestId) (h : Hash) :
    PayHandler (Except SubmissionError UserOperationSendResult) :=
  match mode with
  | .self => selfSend q h
  | .bundler => do
    match ← bundlerSend env q h with
    | .ok result => return .ok result
    | .error e =>
      if fallsBack mode env.bundlerSelfFallback (.transport e) then selfSend q h
      else return .error (.transport e)

/-- The `receipt` of a transport: without a transaction the relayer has none. -/
def receiptOf (mode : Mode) (h : Hash) (txHash : Option Hash) :
    PayHandler (Option UserOperationReceipt) := do
  if mode = .self ∧ txHash = none then return none else
  orThrow (← perform (.receipt mode h txHash))

/-! ### Storage -/

def isNonPayment (currency : String) : Bool :=
  ["PASSKEY_ADD", "PASSKEY_REMOVE", "PASSKEY_SYNC", "SWAP", "CROSSCHAIN", "EARN_DEPOSIT",
    "EARN_WITHDRAW"].contains currency

def isStoredPaymentLink (linkId : LinkId) : Bool :=
  linkId != "" && !(["direct", "username", "manual"].contains linkId)

/-- The stored link of a row. -/
def PendingPayment.storedLink (row : PendingPayment) : Option LinkId :=
  row.linkId.filter isStoredPaymentLink

/-- The stored link that a row pays. -/
def PendingPayment.paidLink (row : PendingPayment) : Option LinkId :=
  if isNonPayment row.currency then none else row.storedLink

def createPendingPayment (row : PendingPayment) : PayHandler Unit := do
  let createdAt ← perform .now
  .ofExcept (← perform (.deleteExpired createdAt))
  .ofExcept (← perform (.upsertPayment
    { row with
      status := .prepared, submittedTxHash := none, submittedAt := none
      submissionAttemptCount := 0, lastSubmissionErrorCode := none
      createdAt := createdAt, expiresAt := createdAt + 10 * 60000 }))

def getPendingPaymentAnyState (q : RequestId) (h : Hash) :
    PayHandler (Option PendingPayment) := do
  .ofExcept (← perform (.selectPayment q h))

/-- Only a row that was never signed is collected; the reconciler owns the rest. -/
def collectExpired (row : PendingPayment) : PayHandler Unit := do
  if row.status = .prepared then .ofExcept (← perform (.deletePayment row.userOpHash))
  else return ()

def getPendingPayment (q : RequestId) (h : Hash) : PayHandler (Option PendingPayment) := do
  match ← getPendingPaymentAnyState q h with
  | none => return none
  | some row =>
    let now ← perform .now
    if row.expiresAt ≤ now then
      collectExpired row
      return none
    else return some row

def claimPendingForSubmit (q : RequestId) (h : Hash) : PayHandler Bool := do
  let now ← perform .now
  auxiliary "SELECT sender_address"
  auxiliary "scheduleWalletIndexerPartitions"
  auxiliary "scheduleEventJob"
  .ofExcept (← perform (.claimPending q h now))

def releasePendingClaim (q : RequestId) (h : Hash) (errorCode : Option String) :
    PayHandler Unit := do
  .ofExcept (← perform (.releasePending q h errorCode))

def setPendingPaymentStatus (q : RequestId) (h : Hash) (status : PendingPaymentStatus)
    (txHash : Option (Option Hash)) : PayHandler Unit := do
  .ofExcept (← perform (.setStatus q h status txHash))

def setPendingPaymentSubmitted (h : Hash) (transport : Mode) (txHash : Option Hash) :
    PayHandler Unit := do
  let now ← perform .now
  .ofExcept (← perform (.setSubmitted h transport txHash now))

def claimPaymentLinkForSubmit (q : RequestId) (id : LinkId) (owner : Hash)
    (expiresAt : Timestamp) : PayHandler Bool := do
  let now ← perform .now
  .ofExcept (← perform (.claimLink q id owner expiresAt now))

def markPaymentLinkClaimBroadcast (id : LinkId) (owner txHash : Hash) : PayHandler Unit := do
  .ofExcept (← perform (.markBroadcast id owner txHash))

def releasePaymentLinkClaim (q : RequestId) (id : LinkId) (owner : Hash) (release : Release) :
    PayHandler Unit := do
  .ofExcept (← perform (.releaseLink q id owner release))

/-- The claim on the link, if there is one, is made to last. -/
def markClaimed (h txHash : Hash) : Option LinkId → PayHandler Unit
  | none => return ()
  | some id => markPaymentLinkClaimBroadcast id h txHash

/-- The claim of the operation on its link is given up. -/
def releaseStored (q : RequestId) (h : Hash) (release : Release) :
    Option LinkId → PayHandler Unit
  | none => return ()
  | some id => releasePaymentLinkClaim q id h release

def isIntentPayable (intent : PaymentIntent) (now : Timestamp) : Bool :=
  intent.status == .awaitingPayment && !intent.expiresAt.any (· ≤ now)

/-! ### Responses -/

inductive Body
  | error (text : String) (code : ErrorCode)
  | prepared (userOpHash : Hash) (submissionTransport : Mode) (paymentAttemptId : Option Nat)
  | inProgress (text : String) (status : Option PendingPaymentStatus) (txHash : Option Hash)
  | pending (txHash : Option Hash) (userOpHash : Hash) (transport : Option Mode)
  | unknown
  | state (row : PendingPayment)
  -- `included` or `failed`, from a point receipt
  | sequenced (success : Bool) (txHash : Hash) (row : PendingPayment)

structure Response where
  status : Nat
  body : Body

/-- An error that reaches the `catch` of the route. -/
inductive Failure
  | submission (e : SubmissionError)
  | thrown (message : String)

/-- `extractErrorMessage`. -/
def Failure.text : Failure → String
  | .submission (.transport e) => e.message
  | .submission .signerLeaseBusy => "The transaction signer is busy. Retry shortly."
  | .submission (.other e) => e.detail
  | .thrown message => message

/-- The answer of `/pay/submit` to an error that ends it. -/
def failureResponse (failure : Failure) : Response :=
  let text := failure.text
  if includes text "AA24" then
    ⟨500, .error "Error de firma: esta passkey no coincide con tu wallet." .passkeyMismatch⟩
  else match failure with
    | .submission .signerLeaseBusy =>
      ⟨503, .error "El relayer está ocupado. Intenta nuevamente." .serviceUnavailable⟩
    | .submission (.transport e) =>
      if e.retryable then
        ⟨503, .error "El bundler está temporalmente no disponible. Intenta nuevamente."
          e.errorCode⟩
      else ⟨400, .error "El bundler rechazó la operación." e.errorCode⟩
    | _ =>
      if includes text "AA21" then
        ⟨500, .error "Tu wallet no tiene fondos suficientes para cubrir el gas."
          .insufficientGas⟩
      else if includes text "AA95" then
        ⟨500, .error
          "La transaccion de handleOps no tenia gas suficiente. Revisa el gas limit del relayer."
          .insufficientGas⟩
      else if includes text "InvalidPaymasterSignature" || includes text "AA33" ||
          includes text "AA34" then
        ⟨500, .error ("El proveedor de patrocinio rechazó la operación. Vuelve a prepararla " ++
          "para obtener una autorización vigente.") .paymasterRejected⟩
      else if includes text "AA31" || includes text.toLower "deposit too low" then
        ⟨503, .error ("El proveedor de patrocinio no tiene capacidad disponible. Vuelve a " ++
          "preparar la operación.") .paymasterDepositLow⟩
      else if includes text "FailedOp" then
        ⟨500, .error "La operación fue rechazada por EntryPoint." .paymentFailed⟩
      else ⟨500, .error "Error al procesar el pago. Intenta de nuevo." .paymentFailed⟩

/-! ### `/pay/prepare` -/

/-- What is known of a payment before its user operation is built. -/
structure PrepareRequest where
  uid : Nat
  chainKey : String
  linkId : Option LinkId
  paymentAttemptId : Option Nat
  senderAddress : Nat
  amount : String
  currency : String
  opId : Option Nat
  submissionTransport : Mode

/-- Why a link cannot be paid now. -/
def linkRefusal (id : LinkId) : PayHandler (Option Response) := do
  match ← Prog.ofExcept (← perform (.selectLink id)) with
  | none => return some ⟨404, .error "Link de pago no encontrado" .linkNotFound⟩
  | some link =>
    if link.status = .paid then
      return some ⟨409, .error "Este link ya fue pagado" .linkAlreadyPaid⟩
    else
      let intent ← .ofExcept (← perform (.selectIntent id))
      let now ← perform .now
      if intent.any fun i => !isIntentPayable i now then
        return some ⟨409, .error "Este cobro ya no está disponible" .intentNotPayable⟩
      else return none

/-- The row that `createPendingPayment` is given, up to what it fills in itself. -/
def PrepareRequest.row (r : PrepareRequest) (linkId : Option LinkId) (built : BuiltUserOperation) :
    PendingPayment where
  userOpHash := built.userOpHash
  uid := r.uid
  chainKey := r.chainKey
  linkId := linkId
  paymentAttemptId := r.paymentAttemptId
  senderAddress := r.senderAddress
  amount := r.amount
  currency := r.currency
  opId := r.opId
  status := .prepared
  submittedTxHash := none
  submissionTransport := r.submissionTransport
  submittedAt := none
  submissionAttemptCount := 0
  lastSubmissionErrorCode := none
  createdAt := 0
  expiresAt := 0

/-- The operation is built and stored. -/
def storePrepared (r : PrepareRequest) (linkId : Option LinkId) : PayHandler Response := do
  let built ← .ofExcept (← perform .buildUserOperation)
  createPendingPayment (r.row linkId built)
  return ⟨200, .prepared built.userOpHash r.submissionTransport r.paymentAttemptId⟩

def cutoverUnavailable : Response :=
  ⟨503, .error "Payment writes are temporarily frozen for a controlled migration"
    .serviceUnavailable⟩

/-- `/pay/prepare`, and the routes that prepare other operations, which have no link. -/
def preparePayment (env : Env) (r : PrepareRequest) : PayHandler Response :=
  let body : PayHandler Response :=
    match r.linkId.filter isStoredPaymentLink with
    | none => storePrepared r none
    | some id =>
      match env.cutoverMode with
      | .frozen => return cutoverUnavailable
      | .payments => do
        auxiliary "reserveAppPaymentAttempt"
        storePrepared r none
      | .legacy => do
        match ← linkRefusal id with
        | some response => return response
        | none => storePrepared r (some id)
  body.tryCatch fun message => return ⟨500, .error message .serverError⟩

/-! ### `/pay/submit` -/

structure SubmitRequest where
  uid : Nat
  userOpHash : Hash
  -- the signature is there in all its parts
  complete : Bool
  hasCredential : Bool

def paymentSubmissionBlocked (mode : CutoverMode) (hasLegacyLink hasPaymentAttempt : Bool) :
    Bool :=
  if !hasLegacyLink && !hasPaymentAttempt then false
  else if hasPaymentAttempt then mode != .payments
  else mode != .legacy

/-- The link is checked once more before anything moves. -/
def linkRecheck (id : LinkId) : PayHandler (Option Response) := do
  let link ← .ofExcept (← perform (.selectLink id))
  if link.any (·.status == .paid) then
    return some ⟨409, .error "Este link ya fue pagado" .linkAlreadyPaid⟩
  else
    let intent ← .ofExcept (← perform (.selectIntent id))
    let now ← perform .now
    if intent.any fun i => !isIntentPayable i now then
      return some ⟨409, .error "Este cobro ya no está disponible" .intentNotPayable⟩
    else return none

/-- The check of the link that a row pays, if it pays one. -/
def recheckPaid : Option LinkId → PayHandler (Option Response)
  | none => return none
  | some id => linkRecheck id

/-- What the route does before it claims anything: the row, or the answer that ends the
request. -/
def admitSubmission (env : Env) (q : RequestId) (r : SubmitRequest) :
    PayHandler (Except Response PendingPayment) := do
  if !r.complete then
    return .error ⟨400, .error "Missing signature data" .missingSignatureData⟩
  else match ← getPendingPayment q r.userOpHash with
    | none => return .error ⟨404, .error "No pending payment found" .pendingNotFound⟩
    | some pending =>
      if pending.uid ≠ r.uid then return .error ⟨403, .error "Unauthorized" .wrongAccount⟩
      else if paymentSubmissionBlocked env.cutoverMode pending.storedLink.isSome
          pending.paymentAttemptId.isSome then
        return .error cutoverUnavailable
      else
        match ← recheckPaid pending.paidLink with
        | some response => return .error response
        | none =>
          if ← Prog.ofExcept (← perform .wrapSignature) then return .ok pending
          else return .error ⟨400, .error "No signer found for this wallet." .missingPasskeyData⟩

/-- Claimed but never broadcast: the claims are given back. -/
def giveBack (q : RequestId) (h : Hash) (linkId : Option LinkId) (errorCode : String) :
    PayHandler Unit := do
  logged (releasePendingClaim q h (some errorCode))
  logged (releaseStored q h .unsent linkId)

def submissionErrorCode : SubmissionError → String
  | .transport e => match e.errorCode with
    | .serviceUnavailable => "SERVICE_UNAVAILABLE"
    | .bundlerUnavailable => "BUNDLER_UNAVAILABLE"
    | .bundlerEntrypointUnsupported => "BUNDLER_ENTRYPOINT_UNSUPPORTED"
    | .passkeyMismatch => "PASSKEY_MISMATCH"
    | .paymasterRejected => "PAYMASTER_REJECTED"
    | _ => "PAYMENT_FAILED"
  | .signerLeaseBusy => "SIGNER_BUSY"
  | .other _ => "SUBMISSION_FAILED"

/-- The row belongs to a cross-chain operation. -/
def PendingPayment.isCrosschain (row : PendingPayment) : Bool :=
  row.currency == "CROSSCHAIN" && row.opId.isSome

/-- What follows a hand-over, for as long as nothing fails. -/
def recordSubmission (r : SubmitRequest) (pending : PendingPayment)
    (linkId : Option LinkId) (submission : UserOperationSendResult) : PayHandler Unit := do
  setPendingPaymentSubmitted r.userOpHash submission.transport submission.transactionHash
  onlyIf pending.paymentAttemptId.isSome (logged (auxiliary "wakePaymentsSync"))
  markClaimed r.userOpHash (submission.transactionHash.getD submission.userOpHash) linkId
  onlyIf (pending.isCrosschain && submission.transactionHash.isSome)
    (auxiliary "updateCrosschainOp")
  onlyIf r.hasCredential (logged (auxiliary "saveUser"))

/-- The operation may be out: the claims stay, and are made to last. -/
def recordAmbiguous (h : Hash) (linkId : Option LinkId) (transport : Mode) :
    PayHandler Unit := do
  logged (setPendingPaymentSubmitted h transport none)
  logged (auxiliary "wakePaymentsSync")
  logged (markClaimed h h linkId)

/-- The transport that an ambiguous error names. -/
def SubmissionError.ambiguousTransport : SubmissionError → Mode
  | .transport e => e.transport.getD .bundler
  | _ => .bundler

/-- The hand-over of a claimed operation, and what its outcome calls for. -/
def submitClaimed (env : Env) (q : RequestId) (r : SubmitRequest) (pending : PendingPayment)
    (linkId : Option LinkId) : PayHandler Response := do
  match ← sendUserOperation env pending.submissionTransport q r.userOpHash with
  | .ok submission =>
    match ← (recordSubmission r pending linkId submission).attempt with
    | .ok () =>
      return ⟨202, .pending submission.transactionHash r.userOpHash (some submission.transport)⟩
    | .error _ => return ⟨202, .pending submission.transactionHash r.userOpHash none⟩
  | .error e =>
    let () ← perform (.surface q e)
    if e.possiblySubmitted then
      recordAmbiguous r.userOpHash linkId e.ambiguousTransport
      return ⟨202, .pending none r.userOpHash (some e.ambiguousTransport)⟩
    else
      giveBack q r.userOpHash linkId (submissionErrorCode e)
      return failureResponse (.submission e)

/-- Another operation is paying the link. -/
def linkBusy : Response :=
  ⟨409, .inProgress "Este link ya tiene un pago en proceso." none none⟩

/-- What follows the claim of the row: the claim of the link, then the hand-over. -/
def submitWithLink (env : Env) (q : RequestId) (r : SubmitRequest) (pending : PendingPayment) :
    PayHandler Response :=
  match pending.paidLink with
  | none => submitClaimed env q r pending none
  | some id => do
    let now ← perform .now
    let claimExpiresAt := max pending.expiresAt (now + 15 * 60000)
    match ← (claimPaymentLinkForSubmit q id r.userOpHash claimExpiresAt).attempt with
    | .error message =>
      giveBack q r.userOpHash none "SUBMISSION_FAILED"
      return failureResponse (.thrown message)
    | .ok true => submitClaimed env q r pending (some id)
    | .ok false =>
      match ← (releasePendingClaim q r.userOpHash none).attempt with
      | .ok () => return linkBusy
      | .error message =>
        giveBack q r.userOpHash none "SUBMISSION_FAILED"
        return failureResponse (.thrown message)

/-- The answer to a request that found the row claimed. -/
def duplicateSubmission (q : RequestId) (h : Hash) : PayHandler Response := do
  let current ← getPendingPaymentAnyState q h
  return ⟨409, .inProgress "Este pago ya está en proceso." (current.map (·.status))
    (current.bind (·.submittedTxHash))⟩

def submitPayment (env : Env) (r : SubmitRequest) : PayHandler Response := do
  let q ← perform .begin
  match ← (admitSubmission env q r).attempt with
  | .error message => return failureResponse (.thrown message)
  | .ok (.error response) => return response
  | .ok (.ok pending) =>
    match ← (claimPendingForSubmit q r.userOpHash).attempt with
    | .error message => return failureResponse (.thrown message)
    | .ok true => submitWithLink env q r pending
    | .ok false =>
      match ← (duplicateSubmission q r.userOpHash).attempt with
      | .ok response => return response
      | .error message => return failureResponse (.thrown message)

/-! ### `/pay/status` -/

def paymentStatus (uid : Nat) (h : Hash) : PayHandler Response := do
  let q ← perform .begin
  match ← getPendingPaymentAnyState q h with
  | none => return ⟨200, .unknown⟩
  | some row =>
    if row.uid ≠ uid then return ⟨403, .error "Unauthorized" .wrongAccount⟩
    else if row.status = .submitted then
      match ← (receiptOf row.submissionTransport h row.submittedTxHash).attempt with
      | .ok (some receipt) =>
        return ⟨200, .sequenced receipt.success receipt.transactionHash row⟩
      | _ => return ⟨200, .state row⟩
    else return ⟨200, .state row⟩

/-! ### The reconciler -/

/-- `EXPIRY_MARGIN_MS`, `RECONCILE_BATCH_SIZE`, `RECONCILE_LEASE_MS`,
`RECONCILE_MAX_ERROR_ATTEMPTS`. -/
def expiryMarginMs : Nat := 5 * 60000
def reconcileBatchSize : Nat := 25
def reconcileLeaseMs : Nat := 60000
def reconcileMaxErrorAttempts : Nat := 12

/-- The stored link that a row pays, as it is when the settlement begins. -/
def selectPaidLink : Option LinkId → PayHandler (Option PaymentLink)
  | none => return none
  | some id => do
    .ofExcept (← perform (.selectLink id))

/-- The link is settled, with the intent behind it. -/
def settleStoredLink (row : PendingPayment) (txHash : Hash) :
    Option PaymentLink → PayHandler Unit
  | none => return ()
  | some link => do
    let intent ← .ofExcept (← perform (.selectIntent link.id))
    auxiliary "prepareEventOutbox"
    let paidAt ← perform .now
    let _ ← Prog.ofExcept (← perform (.settleLink
      { id := link.id
        amount := if row.amount = "" then link.amount else row.amount
        txHash := txHash, paidAt := paidAt, paidBy := row.senderAddress
        claimOwner := row.userOpHash, intentId := intent.map (·.id) }))
    return ()

/-- `settlePayment`: the ledger first, then the link with its intent, then the balances,
whose refresh is never let to fail. -/
def settlePayment (row : PendingPayment) (txHash : Hash) : PayHandler Unit := do
  let storedLink ← selectPaidLink row.paidLink
  auxiliary "writeLedgerEntries"
  settleStoredLink row txHash storedLink
  logged (auxiliary "refreshWalletBalancesLatestBatch")

/-- The bundler may know the transaction of an operation that has none. -/
def discoverTransaction (q : RequestId) (row : PendingPayment) (txHash : Option Hash) :
    PayHandler (Option Hash) := do
  if txHash.isNone && row.submissionTransport == .bundler then
    match ← receiptOf .bundler row.userOpHash none with
    | none => return txHash
    | some discovery =>
      setPendingPaymentStatus q row.userOpHash .submitted (some (some discovery.transactionHash))
      onlyIf row.isCrosschain (auxiliary "updateCrosschainOp")
      return some discovery.transactionHash
  else return txHash

/-- The transaction is fetched for its logs. -/
def recoverLogs (row : PendingPayment) (txHash : Option Hash) : PayHandler Unit := do
  let _ ← receiptOf .self row.userOpHash txHash
  return ()

/-- The safe block, or else the finalized one. -/
def safeBlockNumber : PayHandler (Option Nat) := do
  match ← perform .safeBlock with
  | .ok number => return number
  | .error _ => orThrow (← perform .safeBlock)

/-- On a chain without a stream of its own a receipt counts once it is safe. -/
def directEvidence (row : PendingPayment) (txHash : Option Hash) :
    PayHandler (Option UserOperationReceipt) := do
  match ← receiptOf row.submissionTransport row.userOpHash txHash with
  | none => return none
  | some receipt =>
    let safe ← safeBlockNumber
    if safe.any (receipt.blockNumber ≤ ·) then
      orThrow (← perform (.block receipt.blockNumber))
      return some receipt
    else return none

/-- The evidence for an operation that the journal does not have. -/
def evidenceWithout (canonical : Option CanonicalUserOperation) (row : PendingPayment)
    (txHash : Option Hash) : PayHandler (Option UserOperationReceipt) :=
  if canonical.isNone && row.chainKey == "avalanche-fuji" then directEvidence row txHash
  else return none

/-- The operation has failed, or will never land. -/
def closeFailed (q : RequestId) (row : PendingPayment) (txHash : Option (Option Hash))
    (release : Release) : PayHandler Bool := do
  setPendingPaymentStatus q row.userOpHash .failed txHash
  releaseStored q row.userOpHash release row.storedLink
  onlyIf row.isCrosschain (logged (auxiliary "updateCrosschainOp"))
  return true

/-- Never seen on chain: once the window is over the row is closed. -/
def closeUnlanded (q : RequestId) (row : PendingPayment) : PayHandler Bool := do
  let expiryWithMargin := row.expiresAt + expiryMarginMs
  let now ← perform .now
  if expiryWithMargin < now then
    if ← Prog.ofExcept (← perform (.selectCovered expiryWithMargin)) then
      closeFailed q row none .unlanded
    else return false
  else return false

/-- What the evidence calls for. -/
def conclude (q : RequestId) (row : PendingPayment) (success : Option Bool)
    (txHash : Option Hash) : PayHandler Bool :=
  match success, txHash with
  | some true, some tx => do
    settlePayment row tx
    setPendingPaymentStatus q row.userOpHash .confirmed (some (some tx))
    return true
  | some false, _ => closeFailed q row (some txHash) .failed
  | _, _ => closeUnlanded q row

def reconcileOne (q : RequestId) (row : PendingPayment) : PayHandler Bool := do
  let canonical ← .ofExcept (← perform (.selectCanonical row.userOpHash))
  let txHash ← discoverTransaction q row
    (match canonical with
      | some c => some c.txHash
      | none => row.submittedTxHash)
  onlyIf (canonical.isSome && txHash.isSome) (recoverLogs row txHash)
  let direct ← evidenceWithout canonical row txHash
  conclude q row
    (match canonical with
      | some c => some c.success
      | none => direct.map (·.success))
    (match direct with
      | some receipt => some receipt.transactionHash
      | none => txHash)

def completePaymentReconcileRequest (q : RequestId) (h : Hash) : PayHandler Unit := do
  let now ← perform .now
  .ofExcept (← perform (.completeRequest q h now))

def reschedulePaymentReconcileRequest (q : RequestId) (h : Hash) (delayMs : Nat)
    (errorCode : Option String) (terminal : Bool) : PayHandler Unit := do
  let now ← perform .now
  .ofExcept (← perform (.rescheduleRequest q h (now + min (30 * 60000) (max 1000 delayMs))
    errorCode terminal))

/-- What a pass does with a request that it has taken up. -/
def reconcileRequest (q : RequestId) (h : Hash) (attemptCount : Nat) : PayHandler Unit := do
  match ← getPendingPaymentAnyState q h with
  | none => completePaymentReconcileRequest q h
  | some row =>
    if row.status = .confirmed ∨ row.status = .failed then completePaymentReconcileRequest q h
    else if ← reconcileOne q row then completePaymentReconcileRequest q h
    else
      reschedulePaymentReconcileRequest q h
        (min (5 * 60000) (15000 * 2 ^ min (attemptCount - 1) 4)) none false

def claimPaymentReconcileRequest (q : RequestId) (h : Hash) (leaseMs : Nat) :
    PayHandler Bool := do
  let now ← perform .now
  .ofExcept (← perform (.claimRequest q h (now + min (5 * 60000) (max 10000 leaseMs)) now))

/-- The body of the loop over the due requests. -/
def reconcileDue (h : Hash) (attempts : Nat) : PayHandler Unit := do
  let q ← perform .begin
  if ← claimPaymentReconcileRequest q h reconcileLeaseMs then
    let attemptCount := attempts + 1
    match ← (reconcileRequest q h attemptCount).attempt with
    | .ok () => return ()
    | .error _ =>
      let terminal := decide (reconcileMaxErrorAttempts ≤ attemptCount)
      reschedulePaymentReconcileRequest q h
        (min (10 * 60000) (30000 * 2 ^ min (attemptCount - 1) 4))
        (some (if terminal then "TERMINAL_RECONCILE_ERROR" else "RECONCILE_ERROR")) terminal

def reconcileAll : List (Hash × Nat) → PayHandler Unit
  | [] => return ()
  | (h, attempts) :: requests => do
    reconcileDue h attempts
    reconcileAll requests

def sweepTerminalPendingPayments : PayHandler Unit := do
  let now ← perform .now
  .ofExcept (← perform (.sweepTerminal now (now - 50 * 60000)))

def enqueueMissingReconcileRequests : PayHandler Unit := do
  let now ← perform .now
  .ofExcept (← perform (.enqueueMissing now))

def listDuePaymentReconcileRequests (limit : Nat) : PayHandler (List (Hash × Nat)) := do
  let now ← perform .now
  .ofExcept (← perform (.listDue now limit))

/-- The body of the `try` of `runPaymentReconciler`. -/
def reconcilerPass : PayHandler Unit := do
  enqueueMissingReconcileRequests
  let requests ← listDuePaymentReconcileRequests reconcileBatchSize
  reconcileAll requests
  sweepTerminalPendingPayments
  auxiliary "sweepRateLimits"

def runPaymentReconciler (env : Env) : PayHandler Unit :=
  if env.indexerUrls = 0 then return ()
  else reconcilerPass.tryCatch fun _ => return ()

/-! ### The system -/

inductive PayCall
  | prepare (r : PrepareRequest)
  | submit (r : SubmitRequest)
  | status (uid : Nat) (h : Hash)
  | reconcile

/-- What happens around the handlers: time passes, links and intents are made and
change, the chain mines, and the journal follows it. -/
inductive Surroundings
  | tick (milliseconds : Nat)
  | createLink (l : PaymentLink)
  | createIntent (i : PaymentIntent)
  -- `updatePaymentIntentStatus`
  | updateIntent (id : Nat) (status : PaymentIntentStatus)
  | mine (h : Hash) (success : Bool)
  | drop (h : Hash)
  | journal (h : Hash) (c : Option CanonicalUserOperation)
  | cover (t : Timestamp)

/-- A link as it is created. -/
def freshLink (l : PaymentLink) : PaymentLink :=
  { l with
    status := .pending, txHash := none, paidAt := none, paidBy := none, paymentClaim := none
    paymentClaimExpiresAt := none, paymentClaimTxHash := none }

/-- An operation that is still to be decided meets its fate. -/
def World.decideFate (w : World) (h : Hash) (fate : Fate) : World :=
  if w.fate h = .mineable then { w with fate := fun h' => if h' = h then fate else w.fate h' }
  else w

/-- The journal has a new canonical receipt of the operation, or none any more. -/
def World.setCanonical (w : World) (h : Hash) (c : Option CanonicalUserOperation) : World :=
  let w' := { w with canonical := fun h' => if h' = h then c else w.canonical h' }
  match c with
  | none => w'
  | some c => (w'.onReceipt h w.clock).witness h c.success

theorem keepsKeys_status (status : PaymentIntentStatus) :
    Table.KeepsKeys fun i : PaymentIntent => { i with status := status } :=
  ⟨fun _ _ => rfl⟩

def Surroundings.move : Surroundings → World → World
  | .tick milliseconds, w => { w with clock := w.clock + milliseconds }
  | .createLink l, w => { w with links := w.links.insertOrIgnore (freshLink l) }
  | .createIntent i, w => { w with intents := w.intents.insertOrIgnore i }
  | .updateIntent id status, w =>
    { w with
      intents := w.intents.modify
        (fun i => i.id == id && i.status == .awaitingPayment &&
          !w.links.any fun l => i.linkId == some l.id && l.paymentClaim.isSome)
        ({ · with status := status }) (keepsKeys_status status) }
  -- only what a transport has accepted can be mined
  | .mine h success, w => if w.accepted h then w.decideFate h (.mined success) else w
  | .drop h, w => w.decideFate h .dropped
  | .journal h c, w => w.setCanonical h c
  | .cover t, w => { w with coveredUntil := some t }

def paySystem (env : Env) :
    System PayOp PayOp.Reply World Answer Surroundings PayCall (Option Response) where
  exec := PayOp.exec
  env := Surroundings.move
  body
    | .prepare r => do return some (← preparePayment env r)
    | .submit r => do return some (← submitPayment env r)
    | .status uid h => do return some (← paymentStatus uid h)
    | .reconcile => do
      runPaymentReconciler env
      return none

end ParmeliaLinks.Pay
