/-
ParmeliaLinks/Payments/Worker.lean

The handlers of the payments worker that talk to the chains: reconciling the
evidence of an attempt, the attestation and the mint of a CCTP operation, and
the scan of the routers.  They use the repository functions, the statements of
`Payments.Relay`, and remote calls (`OutsideOp`): RPC nodes, the Circle API, the
job queue.  A remote call that fails answers `none`, and the handler throws.

What the worker is configured with is a `Config`: the confirmations each chain
requires, the tables of networks, the relayer's account and the hash function.
-/
import ParmeliaLinks.Lib.Embed
import ParmeliaLinks.Payments.Relay

namespace ParmeliaLinks.Payments

/-! ### What the outside answers -/

structure TransactionReceipt extends SourceReceipt where
  blockNumber : Nat

inductive ReceiptReply
  | found (receipt : TransactionReceipt)
  | notFound
  | failed

structure ChainBlock where
  hash : Hash
  parentHash : Hash
  timestamp : Nat

/-- A log of `getLogs`.  A pending log has no transaction and no index. -/
structure RouterLog extends ReceiptLog where
  blockNumber : Nat
  blockHash : Hash
  transactionHash : Option Hash
  logIndex : Option Nat

/-- A log of `MessageReceived` with the nonce that was asked for. -/
structure ReceivedLog where
  transactionHash : Option Hash
  sourceDomain : Nat

/-- A message of the Circle API.  A message without a decoded part has `none` in
each field of that part; `none` in the first two fields is not hexadecimal. -/
structure CircleCctpMessage where
  message : Option Hex
  attestation : Option Hex
  complete : Bool
  cctpVersion : Nat
  sourceDomain : Option Nat
  destinationDomain : Option Nat
  burnToken : Option Address
  mintRecipient : Option Address
  messageSender : Option Address
  amount : Option Nat

/-- A prepared call of `receiveMessage`. -/
structure TransactionRequest where
  chainId : ChainId
  message : Hex
  attestation : Hex
  nonce : Option Nat
  fees : Nat

/-- The jobs that handlers enqueue for CCTP operations. -/
inductive CctpJob
  | attestation (operation : AttemptId)
  | mint (operation : AttemptId) (messageHash : Hash)

inductive OutsideOp
  | getTransactionReceipt (chainId : ChainId) (hash : Hash)
  | getBlockNumber (chainId : ChainId)
  | getBlock (chainId : ChainId) (blockNumber : Nat)
  | getRouterLogs (chainId : ChainId) (addresses : List Address) (fromBlock toBlock : Nat)
  | getCctpMessages (sourceDomain : Nat) (transactionHash : Hash)
  | usedNonces (chainId : ChainId) (messageTransmitter : Address) (nonce : Hex)
  | getReceivedLogs (chainId : ChainId) (messageTransmitter : Address) (nonce : Hex)
      (toBlock : Nat)
  | sendRawTransaction (chainId : ChainId) (rawTransaction : Hex)
  | getTransaction (chainId : ChainId) (hash : Hash)
  | simulateReceive (chainId : ChainId) (message attestation : Hex)
  | prepareTransactionRequest (chainId : ChainId) (account : Address)
      (message attestation : Hex)
  | signTransaction (request : TransactionRequest)
  | sendJob (job : CctpJob)
  | flushPaymentOutbox

namespace OutsideOp

abbrev Reply : OutsideOp → Type
  | .getTransactionReceipt .. => ReceiptReply
  | .getBlockNumber _ => Option Nat
  | .getBlock .. => Option ChainBlock
  | .getRouterLogs .. => Option (List RouterLog)
  | .getCctpMessages .. => Option (Option (List CircleCctpMessage))
  | .usedNonces .. => Option Bool
  | .getReceivedLogs .. => Option (List ReceivedLog)
  | .sendRawTransaction .. => Option Hash
  | .getTransaction .. => Option Unit
  | .simulateReceive .. => Option Unit
  | .prepareTransactionRequest .. => Option TransactionRequest
  | .signTransaction _ => Option Hex
  | .sendJob _ => Option Unit
  | .flushPaymentOutbox => Option Unit

end OutsideOp

/-! ### Configuration -/

structure NetworkCapabilities where
  cctpDomain : Nat
  usdc : Address

structure Config where
  requiredConfirmations : ChainId → Nat
  getPaymentNetworkCapabilities : ChainId → Option NetworkCapabilities
  /-- The message transmitter of a chain in `CCTP_CHAINS`. -/
  messageTransmitter : ChainId → Option Address
  /-- The account of the relayer's key, or the error that says what is wrong with it. -/
  relayerAccount : Except String Address
  keccak256 : Hex → Hash

/-- The attested message of the operation. -/
def CircleCctpMessage.answers (item : CircleCctpMessage) (attempt : AttemptTerms)
    (intent : IntentTerms) (source destination : NetworkCapabilities) : Bool :=
  item.cctpVersion == 2 && item.complete && item.message.isSome && item.attestation.isSome &&
    item.sourceDomain == some source.cctpDomain &&
    item.destinationDomain == some destination.cctpDomain &&
    item.burnToken == some source.usdc && item.mintRecipient == some intent.settlementWallet &&
    item.messageSender == some attempt.routerAddress &&
    attempt.settlementAmountAtomic ≤ item.amount.getD 0

/-- The event of either router that a log decodes as. -/
def RouterLog.event (log : RouterLog) : Option RouterEventArgs :=
  log.paymentSettled <|> log.cctpPaymentBurned.map (·.toRouterEventArgs)

/-- What the journal records of a log. -/
def RouterLog.row (log : RouterLog) (chainId : ChainId) (txHash : Hash) (logIndex : Nat) :
    RouterEvent where
  chainId := chainId
  txHash := txHash
  logIndex := logIndex
  blockNumber := log.blockNumber
  blockHash := log.blockHash
  settled := log.paymentSettled.isSome
  intentHash := log.event.map (·.intentId)
  attemptHash := log.event.map (·.attemptId)
  canonical := true

/-! ### Handlers -/

abbrev WorkerOp := RepositoryOp ⊕ (RelayOp ⊕ OutsideOp)

abbrev WorkerReply : WorkerOp → Type :=
  Sum.elim RepositoryOp.Reply (Sum.elim RelayOp.Reply OutsideOp.Reply)

/-- A handler of the worker. -/
abbrev Worker := Prog WorkerOp WorkerReply

namespace Worker

variable {α : Type}

/-- A repository function. -/
abbrev repository (p : Repository α) : Worker α := p.inl

/-- A statement of the other tables. -/
abbrev relay (o : RelayOp) : Worker o.Reply := .perform (.inr (.inl o) : WorkerOp)

/-- A remote call. -/
abbrev outside (o : OutsideOp) : Worker o.Reply := .perform (.inr (.inr o) : WorkerOp)

/-- The answer of a remote call, or the error of a failed one. -/
def orFail : Option α → Worker α
  | some a => pure a
  | none => throw "Remote call failed"

variable (config : Config)

/-! ### Repository functions over the other tables -/

def getCrosschainOperation (operation : AttemptId) : Worker CrosschainOperation := do
  let some row ← relay (.selectOperation operation) | throw "Crosschain operation not found"
  return row

def upsertCrosschainOperation (input : BurnEvidence) : Worker AttemptId := do
  let timestamp ← repository nowIso
  let some () ← relay (.upsertCrosschainOperation input timestamp)
    | throw "FOREIGN KEY constraint failed"
  return input.attemptId

def updateCrosschainOperation (operation : AttemptId) (fields : OperationFields) :
    Worker Unit := do
  let now ← repository nowIso
  relay (.updateCrosschainOperation operation fields now)

def recordCrosschainMintPrepared (operation : AttemptId) (mint : PreparedMint) :
    Worker Bool := do
  let timestamp ← repository nowIso
  relay (.recordCrosschainMintPrepared operation mint timestamp)

def recordCrosschainMintBroadcast (operation : AttemptId) (txHash : Hash) : Worker Unit := do
  let timestamp ← repository nowIso
  relay (.recordCrosschainMintBroadcast operation txHash timestamp)

def recordCrosschainMintResult (operation : AttemptId) (txHash : Hash) (status : MintStatus) :
    Worker Unit := do
  let timestamp ← repository nowIso
  relay (.recordCrosschainMintResult operation txHash status timestamp)

def clearRevertedCrosschainMint (operation : AttemptId) (txHash : Hash) : Worker Unit := do
  let now ← repository nowIso
  relay (.clearRevertedCrosschainMint operation txHash now)

/-! ### Source evidence -/

def verifyReportedSourceTransaction (attemptId : AttemptId) (txHash : Hash) : Worker Bool := do
  let some attempt ← repository (getAttempt attemptId) | throw "Payment attempt is missing"
  let some intent ← repository (getPaymentIntent attempt.intentId)
    | throw "Payment intent is missing"
  match ← outside (.getTransactionReceipt attempt.sourceChainId txHash) with
  | .notFound => return false
  | .failed => throw "Remote call failed"
  | .found receipt =>
    let _ ← .ofExcept (validatePaymentSourceReceipt attempt.toAttemptTerms intent.toIntentTerms
      receipt.toSourceReceipt)
    return true

/-- The receipt of a transaction, once it has the confirmations that its chain requires. -/
def confirmedReceipt (chainId : ChainId) (txHash : Hash) :
    Worker (Option TransactionReceipt) := do
  let .found receipt ← outside (.getTransactionReceipt chainId txHash)
    | throw "Remote call failed"
  if receipt.status ≠ .success then throw "Payment source transaction reverted" else
  let current ← orFail (← outside (.getBlockNumber chainId))
  if current + 1 < config.requiredConfirmations chainId + receipt.blockNumber then return none
  else return some receipt

def reconcileLocal (attemptId : AttemptId) (txHash : Hash) : Worker Bool := do
  let some attempt ← repository (getAttempt attemptId) | return true
  if attempt.status.settled then return true else
  let some intent ← repository (getPaymentIntent attempt.intentId)
    | throw "Payment intent missing for attempt"
  let some receipt ← confirmedReceipt config attempt.sourceChainId txHash | return false
  let evidence ← .ofExcept (validatePaymentSourceReceipt attempt.toAttemptTerms
    intent.toIntentTerms receipt.toSourceReceipt)
  let args := evidence.args
  let _ ← repository (settleAttempt
    { attemptId := attempt.id, sourceTxHash := txHash, destinationTxHash := none
      settledAmountAtomic := args.settlementAmount, payerAddress := attempt.payerAddress
      platformFeeAtomic := some args.platformFee, networkFeeAtomic := some 0 })
  orFail (← outside .flushPaymentOutbox)
  return true

def reconcileBurn (attemptId : AttemptId) (txHash : Hash) : Worker Bool := do
  let some attempt ← repository (getAttempt attemptId) | return true
  if attempt.status.settled then return true else
  let some intent ← repository (getPaymentIntent attempt.intentId)
    | throw "Payment intent missing for attempt"
  let some receipt ← confirmedReceipt config attempt.sourceChainId txHash | return false
  let .burned args message ← .ofExcept (validatePaymentSourceReceipt attempt.toAttemptTerms
      intent.toIntentTerms receipt.toSourceReceipt)
    | throw "CCTP MessageSent evidence is missing"
  let opId ← upsertCrosschainOperation
    { attemptId := attempt.id, sourceChainId := attempt.sourceChainId
      destinationChainId := intent.settlementChainId, route := attempt.route
      sourceTxHash := txHash, messageHash := config.keccak256 message, message := some message
      burnAmountAtomic := args.amountBurned, platformFeeAtomic := args.platformFee }
  repository (recordAttemptFeeEvidence attempt.id args.platformFee none txHash)
  repository (markAttemptProcessing attempt.id txHash)
  orFail (← outside (.sendJob (.attestation opId)))
  return true

def reconcileAttempt (attemptId : AttemptId) : Worker Bool := do
  let some attempt ← repository (getAttempt attemptId) | return true
  if attempt.status.settled || attempt.status == .failed then return true else
  let some sourceTxHash := attempt.sourceTxHash | return false
  if attempt.route = .sameChain then reconcileLocal config attempt.id sourceTxHash
  else reconcileBurn config attempt.id sourceTxHash

/-! ### Attestations -/

/-- The CCTP v2 nonce occupies bytes 12 to 43 of a message. -/
def cctpMessageNonce (message : Hex) : Except String Hex :=
  if message.length < 88 then .error "CCTP message is too short"
  else .ok ((message.drop 24).take 64)

/-- The attempt of an operation with its intent. -/
def operationAttempt (operation : CrosschainOperation) :
    Worker (Option (PaymentAttempt × PaymentIntent)) := do
  let some attempt ← repository (getAttempt operation.attemptId) | return none
  let some intent ← repository (getPaymentIntent attempt.intentId) | return none
  return some (attempt, intent)

def advanceCctpAttestation (opId : AttemptId) : Worker Bool := do
  let operation ← getCrosschainOperation opId
  if operation.status = .settled then return true else
  let some sourceTxHash := operation.sourceTxHash | return false
  let found ← operationAttempt operation
  let some (attempt, intent) := found | throw "CCTP operation configuration is incomplete"
  let some source := config.getPaymentNetworkCapabilities operation.sourceChainId
    | throw "CCTP operation configuration is incomplete"
  let some destination := config.getPaymentNetworkCapabilities operation.destinationChainId
    | throw "CCTP operation configuration is incomplete"
  let some messages ← orFail (← outside (.getCctpMessages source.cctpDomain sourceTxHash))
    | return false
  let some candidate := messages.find? fun item =>
      item.answers attempt.toAttemptTerms intent.toIntentTerms source destination
    | return false
  let some message := candidate.message | return false
  if operation.messageHash.any (config.keccak256 message ≠ ·) then
    throw "Circle message does not match the source MessageSent event" else
  let some burnAmount := operation.burnAmountAtomic
    | throw "CCTP burn economic evidence is incomplete"
  let some platformFee := operation.platformFeeAtomic
    | throw "CCTP burn economic evidence is incomplete"
  let some mintedAmount := candidate.amount | throw "Cannot convert undefined to a BigInt"
  if burnAmount < mintedAmount ∨ attempt.cctpFeeAtomic < burnAmount - mintedAmount then
    throw "Circle message fee does not match the signed quote" else
  let networkFee := burnAmount - mintedAmount
  repository (recordAttemptFeeEvidence attempt.id platformFee (some networkFee) sourceTxHash)
  let messageNonce ← .ofExcept (cctpMessageNonce message)
  updateCrosschainOperation operation.attemptId
    { status := .minting, message := some message, attestation := candidate.attestation
      networkFeeAtomic := some networkFee, messageNonce := some messageNonce
      mintedAmountAtomic := some mintedAmount }
  orFail (← outside (.sendJob (.mint operation.attemptId (config.keccak256 message))))
  return true

/-! ### The mint on the destination chain -/

def nonceWasUsed (chainId : ChainId) (messageTransmitter : Address) (nonce : Hex) :
    Worker Bool := do
  orFail (← outside (.usedNonces chainId messageTransmitter nonce))

/-- Where a mint is looked for. -/
structure MintQuery where
  chainId : ChainId
  messageTransmitter : Address
  nonce : Hex
  sourceDomain : Nat

def confirmedMintTransaction (query : MintQuery) (txHash : Hash) : Worker Bool := do
  let .found receipt ← outside (.getTransactionReceipt query.chainId txHash) | return false
  if receipt.status ≠ .success then return false else
  let current ← orFail (← outside (.getBlockNumber query.chainId))
  if current + 1 < config.requiredConfirmations query.chainId + receipt.blockNumber then
    return false
  else return receipt.logs.any fun log => log.address == query.messageTransmitter &&
    log.messageReceived == some { nonce := query.nonce, sourceDomain := query.sourceDomain }

/-- The first of the logs whose transaction is confirmed. -/
def firstConfirmedMint (query : MintQuery) : List ReceivedLog → Worker (Option Hash)
  | [] => return none
  | log :: logs => do
    match log.transactionHash with
    | none => firstConfirmedMint query logs
    | some hash =>
      if log.sourceDomain ≠ query.sourceDomain then firstConfirmedMint query logs else
      if ← confirmedMintTransaction config query hash then return some hash
      else firstConfirmedMint query logs

def recoverMintTransactionHash (query : MintQuery) (storedHash : Option Hash) :
    Worker (Option Hash) := do
  let stored ← match storedHash with
    | some hash => confirmedMintTransaction config query hash
    | none => pure false
  if stored then return storedHash else
  let tip ← orFail (← outside (.getBlockNumber query.chainId))
  let logs ← orFail (← outside
    (.getReceivedLogs query.chainId query.messageTransmitter query.nonce tip))
  firstConfirmedMint config query logs.reverse

def finalizeCctpSettlement (operation : CrosschainOperation) (attempt : AttemptTerms)
    (destinationTxHash : Hash) : Worker Unit := do
  let some sourceTxHash := operation.sourceTxHash
    | throw "CCTP settlement evidence is incomplete"
  let some platformFee := operation.platformFeeAtomic
    | throw "CCTP settlement evidence is incomplete"
  let some networkFee := operation.networkFeeAtomic
    | throw "CCTP settlement evidence is incomplete"
  let some mintedAmount := operation.mintedAmountAtomic
    | throw "CCTP settlement evidence is incomplete"
  let _ ← repository (settleAttempt
    { attemptId := attempt.id, sourceTxHash, destinationTxHash := some destinationTxHash
      settledAmountAtomic := mintedAmount, payerAddress := attempt.payerAddress
      platformFeeAtomic := some platformFee, networkFeeAtomic := some networkFee })
  updateCrosschainOperation operation.attemptId
    { status := .settled, destinationTxHash := some destinationTxHash
      mintedAmountAtomic := some mintedAmount }
  orFail (← outside .flushPaymentOutbox)

def broadcastPreparedMint (opId : AttemptId) (chainId : ChainId) (txHash : Hash)
    (rawTransaction : Hex) : Worker Unit :=
  Prog.tryCatch
    (do
      let sentHash ← orFail (← outside (.sendRawTransaction chainId rawTransaction))
      if sentHash ≠ txHash then throw "CCTP RPC returned a different transaction hash" else
      recordCrosschainMintBroadcast opId txHash)
    fun error => Prog.tryCatch
      (do
        orFail (← outside (.getTransaction chainId txHash))
        recordCrosschainMintBroadcast opId txHash
        recordCrosschainMintResult opId txHash .pending)
      fun _ => throw error

/-! ### The signer's lease -/

/-- `PAYMENT_SIGNER_LEASE_TTL_MS`. -/
def paymentSignerLeaseTtlMs : Nat := 120000

def paymentSignerLeaseBusy : String := "The payment relayer signer is busy. Retry shortly."

def acquirePaymentSignerLease (key : SignerKey) (ttlMs : Nat) : Worker (Option Nat) := do
  let now ← repository nowIso
  let owner ← repository (.perform RepositoryOp.randomUUID)
  if ← relay (.takeExpiredLease key owner (now + ttlMs) now) then return some owner else
  if ← relay (.insertLease key owner (now + ttlMs)) then return some owner
  else return none

def withPaymentSignerLease (chainId : ChainId) (signerAddress : Address)
    (action : Worker Unit) : Worker Unit := do
  if chainId = 0 then throw "Invalid signer chain ID" else
  let key : SignerKey := (chainId, signerAddress)
  let some owner ← acquirePaymentSignerLease key paymentSignerLeaseTtlMs
    | throw paymentSignerLeaseBusy
  Prog.tryCatch action fun error => do
    relay (.releaseLease key owner)
    throw error
  relay (.releaseLease key owner)

/-- Prepare the mint of an operation under the signer's lease, and broadcast it. -/
def prepareMint (opId : AttemptId) (chainId : ChainId) (messageTransmitter account : Address)
    (nonce : Hex) : Worker Unit := do
  let operation ← getCrosschainOperation opId
  if operation.destinationTxHash.isSome then return () else
  if ← nonceWasUsed chainId messageTransmitter nonce then return () else
  let message := operation.message.getD []
  let attestation := operation.attestation.getD []
  orFail (← outside (.simulateReceive chainId message attestation))
  let request ← orFail
    (← outside (.prepareTransactionRequest chainId account message attestation))
  let some requestNonce := request.nonce | throw "Prepared CCTP mint is missing a signer nonce"
  let rawTransaction ← orFail (← outside (.signTransaction request))
  let txHash := config.keccak256 rawTransaction
  let inserted ← recordCrosschainMintPrepared operation.attemptId
    { txHash, rawTransaction, signerAddress := account, nonce := requestNonce }
  if inserted then broadcastPreparedMint operation.attemptId chainId txHash rawTransaction
  else return ()

/-- `MAX_CCTP_MINT_ATTEMPTS`. -/
def maxCctpMintAttempts : Nat := 20

/-- An operation whose message nonce was used: find the mint, and settle. -/
def settleUsedNonce (operation : CrosschainOperation) (attempt : AttemptTerms)
    (query : MintQuery) : Worker Bool := do
  let some recovered ← recoverMintTransactionHash config query operation.destinationTxHash
    | return false
  recordCrosschainMintResult operation.attemptId recovered .success
  finalizeCctpSettlement operation attempt recovered
  return true

/-- An operation with a prepared mint: look for its receipt, or broadcast it again. -/
def advancePreparedMint (operation : CrosschainOperation) (hash : Hash) (rawTransaction : Hex) :
    Worker Bool := do
  Prog.tryCatch
    (do
      let .found receipt ← outside
          (.getTransactionReceipt operation.destinationChainId hash)
        | throw "Remote call failed"
      if receipt.status = .reverted then
        clearRevertedCrosschainMint operation.attemptId hash
      else recordCrosschainMintResult operation.attemptId hash .pending)
    fun _ => broadcastPreparedMint operation.attemptId operation.destinationChainId hash
      rawTransaction
  return false

/-- An operation without a prepared mint: prepare one, unless there were too many. -/
def startMint (operation : CrosschainOperation) (query : MintQuery) : Worker Bool := do
  if maxCctpMintAttempts ≤ operation.attemptCount then
    updateCrosschainOperation operation.attemptId
      { status := .needsSupport, lastErrorCode := some "CCTP_MINT_ATTEMPTS_EXHAUSTED" }
    return true
  else
    let account ← .ofExcept config.relayerAccount
    Prog.tryCatch
      (do
        withPaymentSignerLease query.chainId account
          (prepareMint config operation.attemptId query.chainId query.messageTransmitter account
            query.nonce)
        return false)
      fun error => do
        if error = paymentSignerLeaseBusy then return false else
        if ← nonceWasUsed query.chainId query.messageTransmitter query.nonce then return false
        else throw error

def mintCctpSettlement (opId : AttemptId) : Worker Bool := do
  let operation ← getCrosschainOperation opId
  if operation.status = .settled then return true else
  let some message := operation.message | return false
  let some _ := operation.attestation | return false
  let found ← operationAttempt operation
  let some (attempt, _) := found | throw "CCTP destination configuration is incomplete"
  let some source := config.getPaymentNetworkCapabilities operation.sourceChainId
    | throw "CCTP destination configuration is incomplete"
  let some messageTransmitter := config.messageTransmitter operation.destinationChainId
    | throw "CCTP destination configuration is incomplete"
  if operation.platformFeeAtomic = none ∨ operation.networkFeeAtomic = none ∨
      operation.mintedAmountAtomic = none then
    throw "CCTP fee or minted-amount evidence is incomplete" else
  let nonce ← .ofExcept (cctpMessageNonce message)
  if operation.messageNonce.any (· ≠ nonce) then
    throw "Stored CCTP nonce does not match the attested message" else
  let query : MintQuery :=
    { chainId := operation.destinationChainId, messageTransmitter, nonce
      sourceDomain := source.cctpDomain }
  if ← nonceWasUsed query.chainId messageTransmitter nonce then
    settleUsedNonce config operation attempt.toAttemptTerms query
  else
    match operation.destinationTxHash, operation.mintRawTransaction with
    | some hash, some rawTransaction => advancePreparedMint operation hash rawTransaction
    | _, _ => startMint config operation query

/-! ### Router scans -/

/-- The newest of the blocks that the chain still has. -/
def commonAncestor (chainId : ChainId) : List RouterBlock → Worker (Option RouterCheckpoint)
  | [] => return none
  | candidate :: candidates => do
    let remote ← outside (.getBlock chainId candidate.blockNumber)
    if remote.any (·.hash = candidate.blockHash) then
      return some
        { chainId, blockNumber := candidate.blockNumber, blockHash := candidate.blockHash }
    else commonAncestor chainId candidates

def verifyRouterCheckpoint (chainId : ChainId) :
    Option RouterCheckpoint → Worker (Option RouterCheckpoint)
  | none => return none
  | some checkpoint => do
    let remote ← outside (.getBlock chainId checkpoint.blockNumber)
    if remote.any (·.hash = checkpoint.blockHash) then return some checkpoint else
    let candidates ← relay (.selectBlocksBefore chainId checkpoint.blockNumber)
    let known ← commonAncestor chainId candidates
    let ancestor ← match known with
      | some ancestor => pure ancestor
      | none => do
        let blockNumber := checkpoint.blockNumber - 2000
        let remote ← orFail (← outside (.getBlock chainId blockNumber))
        pure { chainId, blockNumber, blockHash := remote.hash }
    let _ ← relay (.rollbackRouterJournal chainId ancestor)
    return some ancestor

/-- Journal a log. -/
def journalLog (chainId : ChainId) (log : RouterLog) : Worker Unit :=
  match log.transactionHash, log.logIndex with
  | some txHash, some logIndex =>
    relay (.upsertPaymentChainEvent (log.row chainId txHash logIndex))
  | _, _ => return ()

/-- One iteration of the loop of a scan. -/
def scanLog (chainId : ChainId) (log : RouterLog) : Worker Unit := do
  journalLog chainId log
  let attempt ← match log.event with
    | some args => relay (.selectAttemptByHash args.attemptId)
    | none => pure none
  match attempt, log.transactionHash with
  | some attempt, some txHash =>
    repository (markAttemptProcessing attempt.id txHash)
    (reconcileAttempt config attempt.id).discard
  | _, _ => return ()

def scanLogs (chainId : ChainId) : List RouterLog → Worker Unit
  | [] => return ()
  | log :: logs => do
    scanLog config chainId log
    scanLogs chainId logs

def scanPaymentRouters (chainId : ChainId) : Worker Bool := do
  let current ← orFail (← outside (.getBlockNumber chainId))
  let confirmedTip : Int := current - (config.requiredConfirmations chainId - 1)
  let storedCheckpoint ← relay (.selectCheckpoint chainId)
  let checkpoint ← verifyRouterCheckpoint chainId storedCheckpoint
  let activeRouterAddresses ← relay (.selectActiveRouters chainId)
  if activeRouterAddresses = [] then return true else
  let fromBlock : Int := match checkpoint with
    | some checkpoint => checkpoint.blockNumber + 1
    | none => if 2000 < confirmedTip then confirmedTip - 2000 else 0
  if confirmedTip < fromBlock then return false else
  let toBlock := if fromBlock + 1999 < confirmedTip then fromBlock + 1999 else confirmedTip
  let logs ← orFail (← outside
    (.getRouterLogs chainId activeRouterAddresses fromBlock.toNat toBlock.toNat))
  scanLogs config chainId logs
  let block ← orFail (← outside (.getBlock chainId toBlock.toNat))
  relay (.commitRouterCheckpoint
    { chainId, blockNumber := toBlock.toNat, blockHash := block.hash
      parentHash := block.parentHash, timestamp := block.timestamp, canonical := true })
  return confirmedTip ≤ toBlock

end Worker

end ParmeliaLinks.Payments
