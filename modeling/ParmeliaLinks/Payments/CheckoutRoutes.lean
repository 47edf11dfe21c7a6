/-
ParmeliaLinks/Payments/CheckoutRoutes.lean

The attempts of the public checkout.  Whoever makes one shows two things: a
capability, of which the attempt keeps the hash, and a signature of the payer over a
message that names the link, the quote, the payer, the chain and that hash.  Afterwards
the capability alone reads, registers and cancels the attempt.

An attempt is made once for an idempotency key: the routes look for it before they
verify and sign anything, and again when the insertion fails.  A quote's row is kept in
full (`Quoted`); `Db.quotes` has of it what the other tables refer to.  Everything else
that the payments worker does meanwhile is a statement of the repository
(`CheckoutSurroundings`).
-/
import ParmeliaLinks.Lib.Embed
import ParmeliaLinks.Lib.SqlText
import ParmeliaLinks.Payments.Runs

namespace ParmeliaLinks.Payments.Checkout

/-! ### Capabilities and proofs -/

/-- `/^[A-Za-z0-9_-]{43}$/u`. -/
def isCheckoutCapability (value : Text) : Bool :=
  value.length == 43 && value.all fun c => c.isAlphanum || c == '_' || c == '-'

/-- A row of `payment_quotes`. -/
structure Quoted extends PaymentQuote where
  payer : Address
  sourceChainId : ChainId
  route : PaymentRoute
  settlementAmountAtomic : Nat
  platformFeeAtomic : Nat
  cctpFeeAtomic : Nat
  grossPayerAmountAtomic : Nat
  feePolicyId : String
  feePolicyVersion : Nat
  feeRuleId : String
  platformFeeBps : Nat
  platformFeeBearer : FeeBearer
  platformFeeRecipient : Option Address
  routeFeeCapBps : Nat
  feeObservedAt : Timestamp
  expiresAt : Timestamp

instance : Row Quoted where
  clash r r' := r.id == r'.id || r.quoteHash == r'.quoteHash
  clash_comm r r' := by
    simp only [Bool.beq_comm (a := r.id), Bool.beq_comm (a := r.quoteHash)]

/-- How the fields of a message are spelled. -/
structure Spelling where
  link : LinkId → Text
  quote : QuoteId → Text
  address : Address → Text
  hash : Hash → Text
  timestamp : Timestamp → Text

/-- `lines.join("\n")`. -/
def joinLines : List Text → Text
  | [] => []
  | [line] => line
  | line :: lines => line ++ '\n' :: joinLines lines

/-- The lines of the message that a payer signs. -/
def checkoutPayerProofLines (s : Spelling) (linkId : LinkId) (quote : Quoted)
    (capabilityHash : Hash) : List Text :=
  ["GatoPago Checkout Authorization".toList,
    [],
    "This signature authorizes one checkout attempt. It does not move funds.".toList,
    "Version: 1".toList,
    "Link: ".toList ++ s.link linkId,
    "Quote: ".toList ++ s.quote quote.id,
    "Quote hash: ".toList ++ s.hash quote.quoteHash,
    "Payer: ".toList ++ s.address quote.payer,
    "Source chain: ".toList ++ decimal quote.sourceChainId,
    "Capability hash: ".toList ++ s.hash capabilityHash,
    "Expires at: ".toList ++ s.timestamp quote.expiresAt]

def checkoutPayerProofMessage (s : Spelling) (linkId : LinkId) (quote : Quoted)
    (capabilityHash : Hash) : Text :=
  joinLines (checkoutPayerProofLines s linkId quote capabilityHash)

/-- The libraries that the routes use. -/
structure Libraries where
  spelling : Spelling
  /-- SHA-256 of a capability. -/
  sha256 : Text → Hash
  hashMessage : Text → Hash
  recoverMessageAddress : Text → Hash → Option Address
  uuidHash : AttemptId → Hash

section

variable (lib : Libraries)

/-- The hash of a capability, if it has the form of one. -/
def requestCapabilityHash (capability : Option Text) : Option Hash :=
  match capability with
  | some value => if isCheckoutCapability value then some (lib.sha256 value) else none
  | none => none

def verifyCheckoutPayerProof (message : Text) (payer : Address) (signature : Hash) : Bool :=
  lib.recoverMessageAddress message signature == some payer

end

/-! ### The world -/

/-- The payments database, with the rows of the quotes. -/
structure CheckoutWorld where
  payments : World
  quotes : Table Quoted

def CheckoutWorld.initial (clock : Timestamp) : CheckoutWorld where
  payments := .initial clock
  quotes := .empty

/-- What an authorization adds to its quote. -/
structure Authorization where
  routerAddress : Address
  authorizationHash : Hash
  authorizationIntentId : Hash
  signature : Hash
  validAfter : Nat
  validUntil : Nat

/-- What is found about a reported transaction. -/
inductive Evidence
  | verified
  | notAvailable
  | mismatch
  | unreachable
  deriving DecidableEq

inductive CheckoutJob | attemptReconcile | routerWatch
  deriving DecidableEq

inductive CheckoutOp
  | enforceRateLimit
  | selectIntentByLink (linkId : LinkId)
  | selectQuote (id : QuoteId)
  | authorizeAttempt (intent : PaymentIntent) (quote : Quoted) (payerUid : Option Uid)
  | verifyReportedSourceTransaction (attemptId : AttemptId) (txHash : Hash)
  | enqueuePaymentJob (job : CheckoutJob) (attemptId : AttemptId)

abbrev CheckoutOp.Reply : CheckoutOp → Type
  | enforceRateLimit => Bool
  | selectIntentByLink _ => Option PaymentIntent
  | selectQuote _ => Option Quoted
  | authorizeAttempt .. => Option AttemptTerms
  | verifyReportedSourceTransaction .. => Evidence
  | enqueuePaymentJob .. => Bool

/-- What the outside contributes to a step. -/
structure CheckoutOutside where
  limited : Bool
  authorization : Option Authorization
  evidence : Evidence
  enqueued : Bool

/-- The attempt of an authorization. -/
def authorizedAttempt (lib : Libraries) (id : AttemptId) (now : Timestamp) (intent : PaymentIntent)
    (quote : Quoted) (payerUid : Option Uid) (a : Authorization) : AttemptTerms where
  id := id
  attemptHash := lib.uuidHash id
  intentId := intent.id
  quoteId := quote.id
  payerUid := payerUid
  payerAddress := quote.payer
  idempotencyKey := ""
  sourceChainId := quote.sourceChainId
  route := quote.route
  routerAddress := a.routerAddress
  authorizationHash := a.authorizationHash
  authorizationIntentId := a.authorizationIntentId
  signature := a.signature
  checkoutCapabilityHash := none
  payerProofSignature := none
  payerProofMessageHash := none
  validAfter := a.validAfter
  validUntil := a.validUntil
  settlementAmountAtomic := quote.settlementAmountAtomic
  platformFeeAtomic := quote.platformFeeAtomic
  cctpFeeAtomic := quote.cctpFeeAtomic
  grossPayerAmountAtomic := quote.grossPayerAmountAtomic
  feePolicyId := quote.feePolicyId
  feePolicyVersion := quote.feePolicyVersion
  feeRuleId := quote.feeRuleId
  platformFeeBps := quote.platformFeeBps
  platformFeeBearer := quote.platformFeeBearer
  platformFeeRecipient := quote.platformFeeRecipient
  routeFeeCapBps := quote.routeFeeCapBps
  createdAt := now

/-- One operation.  Only `authorizeAttempt` changes anything: it draws an identifier. -/
def CheckoutOp.exec (lib : Libraries) (x : CheckoutOutside) (w : CheckoutWorld) :
    (o : CheckoutOp) → o.Reply × CheckoutWorld
  | .enforceRateLimit => (x.limited, w)
  | .selectIntentByLink linkId => (w.payments.db.intents.find? (·.linkId == some linkId), w)
  | .selectQuote id => (w.quotes.find? (·.id == id), w)
  | .authorizeAttempt intent quote payerUid =>
    (x.authorization.map (authorizedAttempt lib w.payments.uuid w.payments.clock intent quote
      payerUid), { w with payments := { w.payments with uuid := w.payments.uuid + 1 } })
  | .verifyReportedSourceTransaction _ _ => (x.evidence, w)
  | .enqueuePaymentJob .. => (x.enqueued, w)

/-! ### The routes -/

abbrev CheckoutStep := RepositoryOp ⊕ CheckoutOp

abbrev CheckoutStep.Reply : CheckoutStep → Type := Sum.elim RepositoryOp.Reply CheckoutOp.Reply

abbrev Route := Prog CheckoutStep CheckoutStep.Reply

def repository {α : Type} (p : Repository α) : Route α := p.inl

def issue (o : CheckoutOp) : Route o.Reply := .perform (.inr o : CheckoutStep)

inductive CheckoutError
  | rateLimited
  | intentNotFound
  | invalidCalldata
  | authorizationInvalid
  | quoteNotFound
  | quoteStale
  | intentNotPayable
  | attemptNotFound
  | attemptActive
  | invalidTxHash
  | paymentEvidenceInvalid
  | paymentEvidencePending
  | serviceUnavailable
  deriving DecidableEq

/-- An answer; a payload describes the attempt it was made from. -/
inductive CheckoutResponse
  | created (a : PaymentAttempt)
  | replayed (a : PaymentAttempt)
  | attempt (a : PaymentAttempt)
  | canceled (id : AttemptId)
  | refused (error : CheckoutError)

/-- The request for an attempt. -/
structure AttemptInput where
  /-- The header, without the blanks around it. -/
  idempotencyKey : Option String
  capability : Option Text
  payerProofSignature : Option Hash
  quoteId : QuoteId
  /-- The user of the session, if there is one. -/
  payerUid : Option Uid

/-- The key of a request, if it is present and not too long. -/
def requestIdempotencyKey (header : Option String) : Option String :=
  header.filter fun key => key != "" && decide (key.length ≤ 160)

/-- The intent with the amount that is to be settled, or why there can be no attempt. -/
def attemptIntent (intent : PaymentIntent) (settlementAmountAtomic : Nat) :
    Except String PaymentIntent :=
  if intent.amountMode = .fixed then
    if intent.amountAtomic ≠ settlementAmountAtomic then .error "QUOTE_STALE" else .ok intent
  else
    if intent.status ≠ .awaitingPayment ∨ intent.paidAmountAtomic ≠ 0 then
      .error "INTENT_NOT_PAYABLE"
    else .ok { intent with
      amount := formatUnits settlementAmountAtomic 6, amountAtomic := settlementAmountAtomic }

/-- The answer to a request for an attempt that exists. -/
def answerReplay (replay : PaymentAttempt) (capabilityHash : Hash) : CheckoutResponse :=
  if replay.checkoutCapabilityHash = some capabilityHash then .replayed replay
  else .refused .attemptNotFound

/-- Insert an attempt; if that fails, look for the one that was first. -/
def storeAttempt (intent : PaymentIntent) (quote : Quoted) (key : String) (access : CheckoutAccess)
    (attempt : AttemptTerms) : Route CheckoutResponse :=
  Prog.tryCatch
    (do
      let stored ← repository (insertAttempt attempt key (some access))
      return .created stored)
    fun error => do
      let replayAfterRace ← repository
        (getAttemptByIdempotency intent.id quote.payer quote.sourceChainId key)
      match replayAfterRace with
      | some replay => return answerReplay replay access.capabilityHash
      | none =>
        let currentIntent ← repository (getPaymentIntent intent.id)
        if currentIntent.all fun i => decide (i.status ≠ .awaitingPayment) then
          return .refused .intentNotPayable
        else throw error

section

variable (lib : Libraries)

/-- The part of the route after the look for a replay. -/
def authorizeAndStore (linkId : LinkId) (intent : PaymentIntent) (quote : Quoted) (key : String)
    (capabilityHash signature : Hash) (payerUid : Option Uid) : Route CheckoutResponse := do
  let now ← repository nowIso
  if quote.expiresAt ≤ now ∨ 2 * 60000 < now - quote.feeObservedAt then
    return .refused .quoteStale else
  let message := checkoutPayerProofMessage lib.spelling linkId quote capabilityHash
  if verifyCheckoutPayerProof lib message quote.payer signature = false then
    return .refused .authorizationInvalid else
  if ← issue .enforceRateLimit then return .refused .rateLimited else
  let payable ← .ofExcept (attemptIntent intent quote.settlementAmountAtomic)
  let authorized ← issue (.authorizeAttempt payable quote payerUid)
  match authorized with
  | none => throw "Payment authorization failed"
  | some attempt =>
    storeAttempt intent quote key
      { capabilityHash, payerProofSignature := signature
        payerProofMessageHash := lib.hashMessage message } attempt

/-- The part of the route that has the intent. -/
def attemptOfIntent (linkId : LinkId) (intent : PaymentIntent) (input : AttemptInput) :
    Route CheckoutResponse :=
  match requestIdempotencyKey input.idempotencyKey with
  | none => return .refused .invalidCalldata
  | some key =>
    match requestCapabilityHash lib input.capability, input.payerProofSignature with
    | some capabilityHash, some signature => do
      let found ← issue (.selectQuote input.quoteId)
      match found.filter fun quote => quote.intentId == intent.id with
      | none => return .refused .quoteNotFound
      | some quote =>
        let existing ← repository
          (getAttemptByIdempotency intent.id quote.payer quote.sourceChainId key)
        match existing with
        | some replay => return answerReplay replay capabilityHash
        | none =>
          authorizeAndStore lib linkId intent quote key capabilityHash signature input.payerUid
    | _, _ => return .refused .authorizationInvalid

/-- Take back what the intent of a link no longer needs. -/
def releaseOf (current : Option PaymentIntent) : Route Unit :=
  match current with
  | some intent => repository (releaseExpiredPayerDefinedAmount intent.id)
  | none => return ()

/-- `POST /:linkId/attempts`. -/
def createAttempt (linkId : LinkId) (input : AttemptInput) : Route CheckoutResponse := do
  if ← issue .enforceRateLimit then return .refused .rateLimited else
  let current ← issue (.selectIntentByLink linkId)
  releaseOf current
  let found ← issue (.selectIntentByLink linkId)
  match found with
  | none => return .refused .intentNotFound
  | some intent => attemptOfIntent lib linkId intent input

/-- The attempt is one of the link's intent, if a link is named. -/
def ofLink (linkId : Option LinkId) (attempt : PaymentAttempt) : Route Bool :=
  match linkId with
  | none => return true
  | some linkId => do
    let linked ← issue (.selectIntentByLink linkId)
    return linked.any fun intent => intent.id == attempt.intentId

/-- Register a transaction that was verified. -/
def registerVerified (attemptId : AttemptId) (capabilityHash txHash : Hash) :
    Route CheckoutResponse := do
  let registered ← repository (registerSourceTransaction attemptId capabilityHash txHash)
  match registered with
  | none => return .refused .attemptNotFound
  | some attempt =>
    if ← issue (.enqueuePaymentJob .attemptReconcile attempt.id) then
      if ← issue (.enqueuePaymentJob .routerWatch attempt.id) then return .attempt attempt
      else throw "Queue send failed"
    else throw "Queue send failed"

/-- Have the routers watched for a transaction that is not there yet. -/
def watchUnverified (attemptId : AttemptId) (capabilityHash : Hash) :
    Route CheckoutResponse := do
  let current ← repository (getCheckoutAttempt attemptId capabilityHash)
  match current with
  | none => return .refused .attemptNotFound
  | some attempt =>
    if ← issue (.enqueuePaymentJob .routerWatch attempt.id) then
      return .refused .paymentEvidencePending
    else throw "Queue send failed"

/-- Whether the attempt can be seen under the link that was named. -/
def visible (attemptId : AttemptId) (capabilityHash : Hash) (linkId : Option LinkId) :
    Route Bool :=
  match linkId with
  | none => return true
  | some linkId => do
    let linked ← issue (.selectIntentByLink linkId)
    let current ← repository (getCheckoutAttempt attemptId capabilityHash)
    return linked.any fun intent => current.any fun attempt => attempt.intentId == intent.id

def registerAttempt (attemptId : AttemptId) (linkId : Option LinkId) (capability : Option Text)
    (txHash : Option Hash) : Route CheckoutResponse := do
  if ← issue .enforceRateLimit then return .refused .rateLimited else
  match txHash with
  | none => return .refused .invalidTxHash
  | some txHash =>
    match requestCapabilityHash lib capability with
    | none => return .refused .attemptNotFound
    | some capabilityHash =>
      if ← visible attemptId capabilityHash linkId then
        let evidence ← issue (.verifyReportedSourceTransaction attemptId txHash)
        match evidence with
        | .mismatch => return .refused .paymentEvidenceInvalid
        | .unreachable => return .refused .serviceUnavailable
        | .notAvailable => watchUnverified attemptId capabilityHash
        | .verified => registerVerified attemptId capabilityHash txHash
      else return .refused .attemptNotFound

def readAttempt (attemptId : AttemptId) (linkId : Option LinkId) (capability : Option Text) :
    Route CheckoutResponse := do
  if ← issue .enforceRateLimit then return .refused .rateLimited else
  match requestCapabilityHash lib capability with
  | none => return .refused .attemptNotFound
  | some capabilityHash =>
    let found ← repository (getCheckoutAttempt attemptId capabilityHash)
    match found with
    | none => return .refused .attemptNotFound
    | some attempt =>
      if ← ofLink linkId attempt then
        let _ ← repository (getPaymentIntent attempt.intentId)
        return .attempt attempt
      else return .refused .attemptNotFound

/-- `POST /attempts/:attemptId/cancel`. -/
def cancelCheckoutAttempt (attemptId : AttemptId) (capability : Option Text) :
    Route CheckoutResponse :=
  match requestCapabilityHash lib capability with
  | none => return .refused .attemptNotFound
  | some capabilityHash => do
    let current ← repository (getCheckoutAttempt attemptId capabilityHash)
    match current with
    | none => return .refused .attemptNotFound
    | some _ =>
      if ← repository (cancelAttempt attemptId capabilityHash) then return .canceled attemptId
      else return .refused .attemptActive

end

/-! ### The system -/

/-- A request of a client. -/
inductive CheckoutRequest
  | create (linkId : LinkId) (input : AttemptInput)
  | register (attemptId : AttemptId) (linkId : Option LinkId) (capability : Option Text)
      (txHash : Option Hash)
  | read (attemptId : AttemptId) (linkId : Option LinkId) (capability : Option Text)
  | cancel (attemptId : AttemptId) (capability : Option Text)

def CheckoutRequest.capability : CheckoutRequest → Option Text
  | create _ input => input.capability
  | register _ _ capability _ => capability
  | read _ _ capability => capability
  | cancel _ capability => capability

def routes (lib : Libraries) : CheckoutRequest → Route CheckoutResponse
  | .create linkId input => createAttempt lib linkId input
  | .register attemptId linkId capability txHash =>
    registerAttempt lib attemptId linkId capability txHash
  | .read attemptId linkId capability => readAttempt lib attemptId linkId capability
  | .cancel attemptId capability => cancelCheckoutAttempt lib attemptId capability

/-- The attempt that a statement inserts. -/
def inserted : RepositoryOp → Option AttemptTerms
  | .insertAttempt a => some a
  | .insertQuoteAndAttempt _ a => some a
  | _ => none

/-- What happens around the routes: new quotes, and the statements of the other routes and
of the jobs.  The attempts of those have no capability. -/
inductive CheckoutSurroundings
  | quote (q : Quoted)
  | statement (o : RepositoryOp) (unproven : (inserted o).bind (·.checkoutCapabilityHash) = none)
  | tick (clock : Timestamp)

/-- Insert the row of a quote, or nothing of it. -/
def CheckoutWorld.insertQuote (w : CheckoutWorld) (q : Quoted) : CheckoutWorld :=
  match w.payments.db.insertQuote q.toPaymentQuote, w.quotes.insert q with
  | some db, some quotes => { payments := { w.payments with db }, quotes }
  | _, _ => w

def CheckoutSurroundings.move : CheckoutSurroundings → CheckoutWorld → CheckoutWorld
  | .quote q, w => w.insertQuote q
  | .statement o _, w => { w with payments := (o.exec w.payments).2 }
  | .tick clock, w => { w with payments := { w.payments with clock } }

/-- A response, with the request that it answers. -/
structure Answered where
  request : CheckoutRequest
  response : CheckoutResponse

def CheckoutWorld.exec (lib : Libraries) (w : CheckoutWorld) (x : CheckoutOutside) :
    (o : CheckoutStep) → CheckoutStep.Reply o × CheckoutWorld
  | .inl o => ((o.exec w.payments).1, { w with payments := (o.exec w.payments).2 })
  | .inr o => o.exec lib x w

def checkoutSystem (lib : Libraries) : System CheckoutStep CheckoutStep.Reply CheckoutWorld
    CheckoutOutside CheckoutSurroundings CheckoutRequest Answered where
  exec _ o x w := w.exec lib x o
  env := CheckoutSurroundings.move
  body request := (routes lib request).bind fun response => .ret { request, response }

abbrev CheckoutSchedule :=
  List (Label CheckoutOutside CheckoutSurroundings CheckoutRequest)

abbrev CheckoutPool := Pool CheckoutStep CheckoutStep.Reply CheckoutWorld Answered

def checkoutRun (lib : Libraries) (clock : Timestamp) (ls : CheckoutSchedule) : CheckoutPool :=
  (checkoutSystem lib).run (.initial clock) ls

end ParmeliaLinks.Payments.Checkout
