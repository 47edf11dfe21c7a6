/-
ParmeliaLinks/Payments/WriteGate.lean

The four entries of the payments worker while its gates are closed: requests, commands of
the service binding, batches of the queue and the scheduled run.  The gate of the requests
goes by the method, and lets everything pass that is not one of the four methods that
write.

What it lets pass is counted.  Almost every reading route takes note of the request in
`rate_limits` before it reads anything, a key of the interface is marked as used, and two
routes go further: the checkout page gives up amounts that have expired, and the old route
of an integrator signs an authorization.  The import of the legacy data asks for a database
without any row, and a row in `rate_limits` is one.

`Quiet` says which requests leave no trace.
-/
import ParmeliaLinks.Payments.CheckoutRoutes
import ParmeliaLinks.Payments.DataCutover

namespace ParmeliaLinks.Payments.Gate

open Checkout (Quoted Libraries Authorization authorizedAttempt requestCapabilityHash)

/-! ### Rows -/

structure ApiKey where
  id : Nat
  merchantId : MerchantId
  mode : Mode
  keyHash : Hash
  lastUsedAt : Option Timestamp
  revokedAt : Option Timestamp
  deriving DecidableEq

instance : Row ApiKey where
  clash r r' := r.id == r'.id || r.keyHash == r'.keyHash
  clash_comm r r' := by
    simp only [Bool.beq_comm (a := r.id), Bool.beq_comm (a := r.keyHash)]

structure RateLimit where
  scope : String
  keyHash : Hash
  windowStart : Nat
  count : Nat
  updatedAt : Timestamp
  deriving DecidableEq

instance : Row RateLimit where
  clash r r' := r.scope == r'.scope && r.keyHash == r'.keyHash && r.windowStart == r'.windowStart
  clash_comm r r' := by
    simp only [Bool.beq_comm (a := r.scope), Bool.beq_comm (a := r.keyHash),
      Bool.beq_comm (a := r.windowStart)]

structure Merchant where
  id : MerchantId
  ownerUid : Text
  deriving DecidableEq

instance : Row Merchant where
  clash r r' := r.id == r'.id || r.ownerUid == r'.ownerUid
  clash_comm r r' := by
    simp only [Bool.beq_comm (a := r.id), Bool.beq_comm (a := r.ownerUid)]

/-- The tables next to those of the repository.  `others` counts the rows of the tables that
no route below touches. -/
structure Tables where
  apiKeys : Table ApiKey
  rateLimits : Table RateLimit
  merchants : Table Merchant
  control : Option PaymentMigrationControl
  others : Nat

/-- `signed` is history: the attempts whose authorization was signed. -/
structure World where
  payments : Payments.World
  tables : Tables
  signed : List AttemptTerms

namespace World

variable (w : World)

/-- What is in the database. -/
def contents : Db × Tables := (w.payments.db, w.tables)

/-- `incrementRateLimit`: the batch, and the count that is read after it. -/
def incrementRateLimit (scope : String) (keyHash : Hash) (windowStart : Nat)
    (timestamp : Timestamp) : Option Nat × World :=
  let mine (r : RateLimit) : Bool :=
    r.scope == scope && r.keyHash == keyHash && r.windowStart == windowStart
  let rateLimits := (w.tables.rateLimits.insertOrIgnore
      ⟨scope, keyHash, windowStart, 0, timestamp⟩).modify mine
    (fun r => { r with count := r.count + 1, updatedAt := timestamp }) ⟨fun _ _ => rfl⟩
  ((rateLimits.find? mine).map (·.count), { w with tables := { w.tables with rateLimits } })

/-- The two statements of `authenticateApiKey`. -/
def selectApiKey (keyHash : Hash) : Option ApiKey :=
  w.tables.apiKeys.find? fun k => k.keyHash == keyHash && k.revokedAt.isNone

def touchApiKey (id : Nat) (timestamp : Timestamp) : World :=
  { w with
    tables := { w.tables with
      apiKeys := w.tables.apiKeys.modify (·.id == id) ({ · with lastUsedAt := some timestamp })
        ⟨fun _ _ => rfl⟩ } }

end World

/-! ### Operations -/

/-- Queries whose rows are only shown. -/
inductive Listing
  | paymentLinks | paymentIntents | feeBreakdown | events | apiKeys | webhookEndpoints
  | webhookDeliveries | opsCounts

inductive GateOp
  | ping
  | migrationControl
  | selectApiKey (keyHash : Hash)
  | touchApiKey (id : Nat) (timestamp : Timestamp)
  | incrementRateLimit (scope : String) (keyHash : Hash) (windowStart : Nat)
      (timestamp : Timestamp)
  | selectMerchant (ownerUid : Text)
  | selectIntentByLink (linkId : LinkId)
  | list (listing : Listing)
  -- outside the database
  | verifyFirebaseToken (token : Text)
  | checks
  | buildQuote (intent : PaymentIntent) (payer : Address) (sourceChainId : ChainId)
  | authorizeAttempt (intent : PaymentIntent) (quote : Quoted)
  -- any other statement, behind the gate
  | statement (f : Db × Tables → Db × Tables)

abbrev GateOp.Reply : GateOp → Type
  | ping => Bool
  | migrationControl => Option (Option PaymentMigrationControl)
  | selectApiKey _ => Option ApiKey
  | touchApiKey .. => Unit
  | incrementRateLimit .. => Option Nat
  | selectMerchant _ => Option Merchant
  | selectIntentByLink _ => Option PaymentIntent
  | list _ => Unit
  | verifyFirebaseToken _ => Option Text
  | checks => Bool
  | buildQuote .. => Option Quoted
  | authorizeAttempt .. => Option AttemptTerms
  | statement _ => Unit

/-- What the outside contributes to a call. -/
structure Outside where
  now : Timestamp
  /-- The subject of a valid token. -/
  user : Text → Option Text
  quote : PaymentIntent → Address → ChainId → Option Quoted
  authorization : Quoted → Option Authorization
  /-- The checks of `/health` that read no table. -/
  checks : Bool

def GateOp.exec (lib : Libraries) (x : Outside) (w : World) : (o : GateOp) → o.Reply × World
  | .ping => (true, w)
  | .migrationControl => (some w.tables.control, w)
  | .selectApiKey keyHash => (w.selectApiKey keyHash, w)
  | .touchApiKey id timestamp => ((), w.touchApiKey id timestamp)
  | .incrementRateLimit scope keyHash windowStart timestamp =>
    w.incrementRateLimit scope keyHash windowStart timestamp
  | .selectMerchant ownerUid => (w.tables.merchants.find? (·.ownerUid == ownerUid), w)
  | .selectIntentByLink linkId => (w.payments.db.intents.find? (·.linkId == some linkId), w)
  | .list _ => ((), w)
  | .verifyFirebaseToken token => (x.user token, w)
  | .checks => (x.checks, w)
  | .buildQuote intent payer sourceChainId => (x.quote intent payer sourceChainId, w)
  | .authorizeAttempt intent quote =>
    let attempt := (x.authorization quote).map
      (authorizedAttempt lib w.payments.uuid w.payments.clock intent quote none)
    (attempt,
      { w with
        payments := { w.payments with uuid := w.payments.uuid + 1 }
        signed := w.signed ++ attempt.toList })
  | .statement f =>
    ((),
      { w with
        payments := { w.payments with db := (f w.contents).1 }
        tables := (f w.contents).2 })

abbrev Op := RepositoryOp ⊕ GateOp

abbrev Reply : Op → Type := Sum.elim RepositoryOp.Reply GateOp.Reply

def exec (lib : Libraries) (x : Outside) : (o : Op) → World → Reply o × World
  | .inl o, w => ((o.exec w.payments).1, { w with payments := (o.exec w.payments).2 })
  | .inr o, w => o.exec lib x w

abbrev Handler := Prog Op Reply

def repository {α : Type} (p : Repository α) : Handler α := p.inl

def issue (o : GateOp) : Handler o.Reply := .perform (.inr o : Op)

/-! ### Requests -/

structure Request where
  method : Text
  /-- The segments of the path. -/
  path : List Text
  authorization : Option Text
  apiKey : Option Text
  connectingIp : Option Text
  realIp : Option Text
  idempotencyKey : Option Text
  capability : Option Text
  opsToken : Option Text
  payer : Option Text
  sourceChainId : Option Text
  /-- The size of the body, if there is one. -/
  body : Option Nat

def get : Text := ['G', 'E', 'T']

/-- A request without anything but its path. -/
def Request.plain (method : Text) (path : List Text) : Request where
  method := method
  path := path
  authorization := none
  apiKey := none
  connectingIp := none
  realIp := none
  idempotencyKey := none
  capability := none
  opsToken := none
  payer := none
  sourceChainId := none
  body := none

inductive RpcErrorCode | unavailable | other
  deriving DecidableEq

inductive Outcome
  | http (status : Nat)
  | rpc (error : Option RpcErrorCode)
  | retryAll (delaySeconds : Nat)
  | done
  deriving DecidableEq

/-- A call of one of the entries. -/
inductive Entry (Command Message : Type)
  | fetch (r : Request)
  | contractVersion
  | command (c : Command)
  | queue (batch : List Message)
  | scheduled

/-- What is behind the gates. -/
structure Opened (Command Message : Type) where
  fetch : Request → Handler Outcome
  command : Command → Handler Outcome
  queue : List Message → Handler Outcome
  scheduled : Handler Outcome

/-- How the texts of a request are read. -/
structure Names where
  id : Text → Nat
  walletAddress : Text → Option Address
  number : Text → Option Nat

structure Bindings where
  config : GateConfig
  opsHealthToken : Option Text
  lib : Libraries
  names : Names

section

variable (env : Bindings)

def paymentMigrationControl : Handler (Option (Option PaymentMigrationControl)) :=
  issue .migrationControl

/-- `MUTATING_HTTP_METHODS.has(c.req.method.toUpperCase())`. -/
def mutating (method : Text) : Bool :=
  let upper := method.map Char.toUpper
  upper == ['P', 'O', 'S', 'T'] || upper == ['P', 'U', 'T'] ||
    upper == ['P', 'A', 'T', 'C', 'H'] || upper == ['D', 'E', 'L', 'E', 'T', 'E']

/-- The router answers `HEAD` as it answers `GET`. -/
def reads (method : Text) : Bool := method == get || method == ['H', 'E', 'A', 'D']

/-! ### Middleware -/

def bearer (authorization : Option Text) : Option Text :=
  authorization.bind (List.dropPrefix? · ['B', 'e', 'a', 'r', 'e', 'r', ' '])

def skTest : Text := ['s', 'k', '_', 't', 'e', 's', 't', '_']

def skLive : Text := ['s', 'k', '_', 'l', 'i', 'v', 'e', '_']

/-- The token of a session: one that is no key of the interface. -/
def sessionToken (r : Request) : Option Text :=
  (bearer r.authorization).filter fun token =>
    !(skTest.isPrefixOf token || skLive.isPrefixOf token)

/-- `authMiddleware`. -/
def authenticate (r : Request) : Handler (Option Text) :=
  match sessionToken r with
  | none => return none
  | some token => issue (.verifyFirebaseToken token)

def requireAuth (user : Option Text) (next : Text → Handler Outcome) : Handler Outcome :=
  match user with
  | none => return .http 401
  | some user => next user

/-- `/^sk_(?:test|live)_[0-9a-f]{48}$/u`. -/
def isApiKey (raw : Text) : Bool :=
  (skTest.isPrefixOf raw || skLive.isPrefixOf raw) && raw.length == 56 &&
    (raw.drop 8).all fun c => c.isDigit || decide ('a' ≤ c ∧ c ≤ 'f')

def authenticateApiKey (raw : Text) : Handler (Option ApiKey) :=
  if isApiKey raw then do
    match ← issue (.selectApiKey (env.lib.sha256 raw)) with
    | none => return none
    | some row =>
      let timestamp ← repository nowIso
      issue (.touchApiKey row.id timestamp)
      return some row
  else return none

/-- The key that a request shows; an empty one is none. -/
def shownKey (r : Request) : Option Text :=
  (bearer r.authorization <|> r.apiKey).filter (· != [])

def requireApiKey (r : Request) (next : ApiKey → Handler Outcome) : Handler Outcome :=
  match shownKey r with
  | none => return .http 401
  | some raw => do
    match ← authenticateApiKey env raw with
    | none => return .http 401
    | some key => next key

def requestIdentity (r : Request) : Text :=
  (r.connectingIp <|> r.realIp).getD ['u', 'n', 'k', 'n', 'o', 'w', 'n']

/-- Whether the request is one too many in its minute. -/
def enforceRateLimit (scope : String) (key : Text) (limit : Nat) : Handler Bool := do
  let now ← repository nowIso
  let windowStart := now / 1000 / 60 * 60
  let count ← issue (.incrementRateLimit scope (env.lib.sha256 key) windowStart now)
  return decide (limit < count.getD (limit + 1))

/-- A handler behind its limit. -/
def limited (scope : String) (key : Text) (limit : Nat) (next : Handler Outcome) :
    Handler Outcome := do
  if ← enforceRateLimit env scope key limit then return .http 429 else next

/-! ### Routes that read -/

/-- `GET /links`. -/
def listLinks (user : Text) : Handler Outcome :=
  limited env "links_owner_read" user 240 do
    issue (.list .paymentLinks)
    return .http 200

/-- `GET /links/:id`. -/
def readLink (r : Request) (id : Text) : Handler Outcome :=
  limited env "links_public_read" (requestIdentity r ++ ':' :: id) 240 do
    let some _ ← repository (getPaymentLink (env.names.id id)) | return .http 404
    return .http 200

/-- `GET /checkout/:linkId`. -/
def readCheckout (r : Request) (linkId : Text) : Handler Outcome :=
  limited env "checkout_read" (requestIdentity r ++ ':' :: linkId) 240 do
    let some link ← repository (getPaymentLink (env.names.id linkId)) | return .http 404
    repository (releaseExpiredPayerDefinedAmount link.intentId)
    let some _ ← issue (.selectIntentByLink link.id) | return .http 404
    return .http 200

/-- Whether the attempt belongs to the link that was named. -/
def ofLink (linkId : Option Text) (attempt : PaymentAttempt) : Handler Bool :=
  match linkId with
  | none => return true
  | some linkId => do
    let linked ← issue (.selectIntentByLink (env.names.id linkId))
    return linked.any fun intent => intent.id == attempt.intentId

/-- `GET /checkout/attempts/:attemptId`, and the same below a link. -/
def readAttempt (r : Request) (attemptId : Text) (linkId : Option Text) : Handler Outcome :=
  limited env "checkout_attempt_read" (requestIdentity r ++ ':' :: attemptId) 240 do
    match requestCapabilityHash env.lib r.capability with
    | none => return .http 404
    | some capabilityHash =>
      let some attempt ← repository (getCheckoutAttempt (env.names.id attemptId) capabilityHash)
        | return .http 404
      if ← ofLink env linkId attempt then
        let _ ← repository (getPaymentIntent attempt.intentId)
        return .http 200
      else return .http 404

/-- The key of an attempt that the request does not name. -/
def legacyKey (id : Text) (payer : Address) (sourceChainId : ChainId) : Text :=
  "legacy-onchain:".toList ++ id ++ ':' :: env.lib.spelling.address payer ++ ':' ::
    decimal sourceChainId

/-- `GET /v1/payment_intents/:id/onchain`. -/
def onchain (r : Request) (key : ApiKey) (id : Text) : Handler Outcome := do
  let some intent ← repository (getPaymentIntent (env.names.id id)) | return .http 404
  if intent.merchantId ≠ key.merchantId then return .http 404 else
  match r.payer.bind env.names.walletAddress with
  | none => throw "Invalid wallet address"
  | some payer =>
    match (r.sourceChainId.map env.names.number).getD (some intent.settlementChainId) with
    | none => throw "Payment source chain is disabled"
    | some sourceChainId =>
      let idempotencyKey := String.ofList
        (r.idempotencyKey.getD (legacyKey env id payer sourceChainId))
      match ← repository (getAttemptByIdempotency intent.id payer sourceChainId idempotencyKey) with
      | some _ => return .http 200
      | none =>
        let some quote ← issue (.buildQuote intent payer sourceChainId)
          | throw "Quote is unavailable"
        repository (insertQuote quote.toPaymentQuote)
        let some attempt ← issue (.authorizeAttempt intent quote)
          | throw "Authorization is unavailable"
        let _ ← repository (insertAttempt attempt idempotencyKey none)
        return .http 200

/-- The routes of the interface that read. -/
def v1Read (r : Request) (key : ApiKey) (path : List Text) : Handler Outcome :=
  if path = ["payment_intents".toList] then do
    issue (.list .paymentIntents)
    return .http 200
  else if path = ["events".toList] then do
    issue (.list .events)
    return .http 200
  else
    match path with
    | [table, id] =>
      if table = "payment_intents".toList ∧ id ≠ [] then do
        let some intent ← repository (getPaymentIntent (env.names.id id)) | return .http 404
        if intent.merchantId ≠ key.merchantId then return .http 404 else
        issue (.list .feeBreakdown)
        return .http 200
      else if table = "events".toList ∧ id ≠ [] then do
        issue (.list .events)
        return .http 200
      else return .http 404
    | [table, id, action] =>
      if table = "payment_intents".toList ∧ id ≠ [] ∧ action = "onchain".toList then
        onchain env r key id
      else return .http 404
    | _ => return .http 404

/-- Everything under `/v1` that passes the gate. -/
def v1 (r : Request) (path : List Text) : Handler Outcome :=
  requireApiKey env r fun key =>
    limited env "merchant_api" (decimal key.merchantId) 600 <|
      if reads r.method then v1Read env r key path else return .http 404

/-- A page of the dashboard that shows rows of the merchant. -/
def showing (user : Text) (listing : Listing) : Handler Outcome := do
  let _ ← issue (.selectMerchant user)
  issue (.list listing)
  return .http 200

/-- `GET /merchant/payment_intents/:id`. -/
def merchantIntent (user id : Text) : Handler Outcome := do
  let merchant ← issue (.selectMerchant user)
  let intent ← repository (getPaymentIntent (env.names.id id))
  match merchant, intent with
  | some merchant, some intent =>
    if intent.merchantId ≠ merchant.id then return .http 404 else
    issue (.list .feeBreakdown)
    return .http 200
  | _, _ => return .http 404

/-- The routes of the dashboard that read. -/
def merchantRead (user : Text) (path : List Text) : Handler Outcome :=
  match path with
  | [] => do
    let merchant ← issue (.selectMerchant user)
    return .http (if merchant.isSome then 200 else 404)
  | [page] =>
    if page = "capabilities".toList then do
      let _ ← issue (.selectMerchant user)
      return .http 200
    else if page = "keys".toList then showing user .apiKeys
    else if page = "webhooks".toList then showing user .webhookEndpoints
    else if page = "payment_intents".toList then showing user .paymentIntents
    else if page = "events".toList then showing user .events
    else if page = "webhook_deliveries".toList then showing user .webhookDeliveries
    else return .http 404
  | [page, id] =>
    if page = "payment_intents".toList ∧ id ≠ [] then merchantIntent env user id
    else return .http 404
  | _ => return .http 404

/-- Everything under `/merchant` that passes the gate. -/
def merchantRoutes (r : Request) (user : Option Text) (path : List Text) : Handler Outcome :=
  requireAuth user fun user =>
    limited env "dashboard" user 300 <|
      if reads r.method then merchantRead env user path else return .http 404

def health : Handler Outcome := do
  let bootstrap := paymentsBootstrapState env.config.bootstrapMode
  let database ← issue .ping
  let dataCutover ← paymentsDataCutoverState env.config paymentMigrationControl
  let checks ← issue .checks
  let ready := !bootstrap.active && bootstrap.valid && dataCutover.ready && database && checks
  return .http (if ready then 200 else 503)

def validOpsHealthToken (provided : Option Text) : Bool :=
  match provided, env.opsHealthToken with
  | some provided, some expected =>
    provided != [] && decide (32 ≤ expected.length) &&
      env.lib.sha256 provided == env.lib.sha256 expected
  | _, _ => false

def opsHealth (r : Request) : Handler Outcome :=
  if validOpsHealthToken env r.opsToken then do
    let bootstrap := paymentsBootstrapState env.config.bootstrapMode
    issue (.list .opsCounts)
    let checks ← issue .checks
    let dataCutover ← paymentsDataCutoverState env.config paymentMigrationControl
    let ready := !bootstrap.active && bootstrap.valid && dataCutover.ready && checks
    return .http (if ready then 200 else 503)
  else return .http 404

/-- The routes that are not behind a middleware of their own. -/
def openRead (r : Request) (user : Option Text) (path : List Text) : Handler Outcome :=
  match path with
  | [page] =>
    if page = [] then return .http 200
    else if page = "health".toList then health env
    else if page = "links".toList then requireAuth user (listLinks env)
    else return .http 404
  | [page, id] =>
    if page = "health".toList ∧ id = "live".toList then return .http 200
    else if page = "health".toList ∧ id = "ops".toList then opsHealth env r
    else if page = "links".toList ∧ id ≠ [] then readLink env r id
    else if page = "checkout".toList ∧ id ≠ [] then readCheckout env r id
    else return .http 404
  | [page, table, id] =>
    if page = "checkout".toList ∧ table = "attempts".toList ∧ id ≠ [] then
      readAttempt env r id none
    else return .http 404
  | [page, linkId, table, id] =>
    if page = "checkout".toList ∧ linkId ≠ [] ∧ table = "attempts".toList ∧ id ≠ [] then
      readAttempt env r id (some linkId)
    else return .http 404
  | _ => return .http 404

/-- The router, for what passes the gate. -/
def route (r : Request) (user : Option Text) : Handler Outcome :=
  match r.path with
  | page :: path =>
    if page = "v1".toList then v1 env r path
    else if page = "merchant".toList then merchantRoutes env r user path
    else if reads r.method then openRead env r user (page :: path)
    else return .http 404
  | [] => return .http 404

/-! ### The entries -/

variable {Command Message : Type} (opened : Opened Command Message)

def maxBody : Nat := 64 * 1024

def fetch (r : Request) : Handler Outcome :=
  -- the preflight of a browser ends in the middleware for origins
  if r.method = "OPTIONS".toList then return .http 204
  else if r.body.any (maxBody < ·) then return .http 413
  else if mutating r.method then do
    let availability ← paymentsWriteAvailability env.config paymentMigrationControl
    if availability.available then opened.fetch r else return .http 503
  else do
    let user ← authenticate r
    route env r user

def handle : Entry Command Message → Handler Outcome
  | .fetch r => fetch env opened r
  | .contractVersion => return .rpc none
  | .command c => do
    let availability ← paymentsWriteAvailability env.config paymentMigrationControl
    if availability.available then opened.command c else return .rpc (some .unavailable)
  | .queue batch => do
    let availability ← paymentsWriteAvailability env.config paymentMigrationControl
    if availability.available then opened.queue batch else return .retryAll 900
  | .scheduled => do
    let availability ← paymentsWriteAvailability env.config paymentMigrationControl
    if availability.available then opened.scheduled else return .done

/-- A call at its time. -/
def serve (w : World) (call : Entry Command Message × Outside) : World :=
  ((handle env opened call.1).alone (exec env.lib call.2)
    { w with payments := { w.payments with clock := call.2.now } }).2

/-- A sequence of calls. -/
def serveAll (w : World) (calls : List (Entry Command Message × Outside)) : World :=
  calls.foldl (serve env opened) w

/-! ### What is required, and when it holds -/

end

/-- The rows that the import counts: those of all tables but the control. -/
def businessRows (c : Db × Tables) : Nat :=
  c.1.intents.rows.length + c.1.links.rows.length + c.1.quotes.rows.length +
    c.1.attempts.rows.length + c.1.commands.rows.length + c.1.commits.rows.length +
    c.1.feeLedger.rows.length + c.1.events.rows.length + c.1.outbox.rows.length +
    c.1.endpoints.rows.length + c.1.deliveries.rows.length + c.2.apiKeys.rows.length +
    c.2.rateLimits.rows.length + c.2.merchants.rows.length + c.2.others

/-- The two statements of the import that guard it. -/
def acceptsImport (c : Db × Tables) : Bool :=
  businessRows c == 0 &&
    c.2.control.any fun row => row.legacyCopyVersion == 0 && row.legacyCopyCompletedAt.isNone

structure Untouched (w w' : World) : Prop where
  contents : w'.contents = w.contents
  signed : w'.signed = w.signed
  accepts : acceptsImport w.contents = true → acceptsImport w'.contents = true

section

variable (env : Bindings) {Command Message : Type}

/-- The gates are closed. -/
def Closed (w : World) : Prop := writesAvailable env.config w.tables.control = false

def hasSession (x : Outside) (r : Request) : Bool := ((sessionToken r).bind x.user).isSome

def hasKey (w : World) (r : Request) : Bool :=
  (shownKey r).any fun raw => isApiKey raw && (w.selectApiKey (env.lib.sha256 raw)).isSome

/-- A page outside the middleware that counts its requests. -/
def countedPage (x : Outside) (r : Request) (path : List Text) : Bool :=
  match path with
  | [page] => page == "links".toList && hasSession x r
  | [page, id] => (page == "links".toList || page == "checkout".toList) && id != []
  | [page, table, id] => page == "checkout".toList && table == "attempts".toList && id != []
  | [page, linkId, table, id] =>
    page == "checkout".toList && linkId != [] && table == "attempts".toList && id != []
  | _ => false

/-- The router counts the request. -/
def countedRoute (w : World) (x : Outside) (r : Request) : Bool :=
  match r.path with
  | page :: path =>
    if page = "v1".toList then hasKey env w r
    else if page = "merchant".toList then hasSession x r
    else reads r.method && countedPage x r (page :: path)
  | [] => false

def counted (w : World) (x : Outside) (r : Request) : Bool :=
  !(r.method == "OPTIONS".toList || r.body.any (maxBody < ·) || mutating r.method) &&
    countedRoute env w x r

/-- The call is no request that is counted. -/
def Quiet (w : World) (call : Entry Command Message × Outside) : Prop :=
  match call.1 with
  | .fetch r => counted env w call.2 r = false
  | _ => True

end

end ParmeliaLinks.Payments.Gate
