/-
ParmeliaLinks/Split/Migrate.lean

The split of the App database: one transaction that fills the Payments database
from the legacy tables.  Merchants are taken over, and made up for the owners of
links that have none.  Links and intents are joined in pairs, or get a generated
counterpart; keys, endpoints, events and deliveries follow.

Every loop turns a legacy row into the rows that stand for it (`Rows`) and inserts
them.  What a committed run holds is then said once for all loops (`holds_importRows`),
and tables that no loop writes stay as they were.

`sha256`, the ciphertexts and the final checksum come from outside and are
parameters (`Tools`).
-/
import ParmeliaLinks.Lib.Contract
import ParmeliaLinks.Lib.OrderedMap
import ParmeliaLinks.Payments.DataCutover
import ParmeliaLinks.Split.Target

namespace ParmeliaLinks.Split

open Payments (isWhiteSpace trim)

/-! ### Texts -/

/-- `String(value ?? "0").trim() || "0"`. -/
def amountDecimal (value : Option Text) : Text :=
  let text := trim (value.getD ['0'])
  if text = [] then ['0'] else text

/-- `0|[1-9]\d*`. -/
def isWhole (t : Text) : Bool :=
  t == ['0'] || (!t.isEmpty && t.head? != some '0' && t.all Char.isDigit)

/-- The atomic units of a decimal amount with at most six decimals. -/
def atomic (value : Text) : Option Text :=
  let text := amountDecimal (some value)
  let whole := text.takeWhile (· != '.')
  match text.dropWhile (· != '.') with
  | [] => if isWhole whole then some (decimal (decimalValue whole * 1000000)) else none
  | _ :: fraction =>
    if isWhole whole && decide (1 ≤ fraction.length ∧ fraction.length ≤ 6) &&
        fraction.all Char.isDigit then
      some (decimal (decimalValue whole * 1000000 +
        decimalValue ((fraction ++ List.replicate 6 '0').take 6)))
    else none

/-- `/^0x[0-9a-f]{40}$/u`. -/
def isWallet (t : Text) : Bool :=
  t.take 2 == ['0', 'x'] && t.length == 42 &&
    (t.drop 2).all fun c => c.isDigit || decide ('a' ≤ c ∧ c ≤ 'f')

def safeStatus {α : Type} [DecidableEq α] (value : α) (allowed : List α) (fallback : α) : α :=
  if value ∈ allowed then value else fallback

/-- The mode that a text names. -/
def Mode.ofText (t : Text) : Mode := if t = "live".toList then .live else .test

def AppIntentStatus.toIntentStatus : AppIntentStatus → IntentStatus
  | .awaitingPayment => .awaitingPayment
  | .paid => .paid
  | .expired => .expired
  | .canceled => .canceled

def IntentStatus.toLinkStatus : IntentStatus → LinkStatus
  | .paid => .paid
  | .canceled => .canceled
  | .expired => .expired
  | _ => .pending

/-- `ORDER BY id`. -/
def orderById {ρ : Type} (id : ρ → Text) (rows : List ρ) : List ρ :=
  rows.insertionSort fun r r' => ¬ id r' < id r

@[simp] theorem mem_orderById {ρ : Type} {id : ρ → Text} {rows : List ρ} {r : ρ} :
    r ∈ orderById id rows ↔ r ∈ rows :=
  (List.perm_insertionSort _ _).mem_iff

/-! ### What the run depends on -/

structure Tools where
  /-- The digest, in hexadecimal. -/
  sha256 : Text → Text
  /-- The ciphertext drawn for the secret of an endpoint. -/
  encryptLegacySecret : AppEndpoint → Text
  keyId : Text
  contentChecksum : PaymentsDb → Option Text
  now : Text

inductive MigrateError
  | merchantWallet (id : Text)
  | linkWallet (id : Text)
  | merchantMapping (linkId : Text)
  | amount (text : Text)
  | intentMerchant (id : Text)
  | apiKeyMerchant (id : Text)
  | endpointMerchant (id : Text)
  | eventMerchant (id : Text)
  | deliveryReference (id : Text)
  | constraint
  | checksum
  deriving DecidableEq

/-- The messages of the errors that the script raises itself. -/
def MigrateError.message : MigrateError → Text
  | .merchantWallet id =>
    "Legacy merchant ".toList ++ id ++ " has no valid settlement wallet".toList
  | .linkWallet id => "Legacy link ".toList ++ id ++ " has no valid settlement wallet".toList
  | .merchantMapping linkId => "Merchant mapping missing for link ".toList ++ linkId
  | .amount text => "Invalid legacy USDC amount: ".toList ++ text
  | .intentMerchant id =>
    "Legacy intent ".toList ++ id ++ " references an unmigrated merchant".toList
  | .apiKeyMerchant id =>
    "Legacy API key ".toList ++ id ++ " references an unmigrated merchant".toList
  | .endpointMerchant id =>
    "Legacy webhook endpoint ".toList ++ id ++ " references an unmigrated merchant".toList
  | .eventMerchant id => "Legacy event ".toList ++ id ++ " references an unmigrated merchant".toList
  | .deliveryReference id => "Legacy webhook delivery ".toList ++ id ++
      " references an unmigrated event or endpoint".toList
  | .constraint | .checksum => []

variable (tools : Tools) (app : LegacyApp)

def merchantId (uid : Text) : Text := "mrc_".toList ++ (tools.sha256 uid).take 32

/-! ### Merchants -/

/-- The merchants by their id, and the merchant of each owner. -/
structure Directory where
  merchants : OrderedMap Text Merchant
  ownerMerchant : OrderedMap Text Text

namespace Directory

def empty : Directory := ⟨.empty, .empty⟩

/-- `merchants.set(merchant.id, merchant); ownerMerchant.set(merchant.ownerUid, merchant.id)`. -/
def add (d : Directory) (merchant : Merchant) : Directory where
  merchants := d.merchants.set merchant.id merchant
  ownerMerchant := d.ownerMerchant.set merchant.ownerUid merchant.id

/-- `merchants.get(ownerMerchant.get(uid))`. -/
def ofOwner (d : Directory) (uid : Text) : Option Merchant :=
  (d.ownerMerchant.get uid).bind d.merchants.get

end Directory

def legacyLinks : List AppLink := orderById (·.id) app.links.rows

def legacyIntents : List AppIntent := orderById (·.id) app.intents.rows

def userOf (uid : Text) : Option AppUser := app.users.find? fun u => u.uid == uid

def lowerCase (t : Text) : Text := t.map Char.toLower

/-- The merchant that takes the place of a legacy merchant. -/
def legacyMerchant (row : AppMerchant) : Except MigrateError Merchant :=
  let user := userOf app row.ownerUid
  let fallbackLink := (legacyLinks app).find? fun link => link.ownerUid == row.ownerUid
  let wallet := lowerCase (((user.bind (·.walletAddress)).or
    (fallbackLink.map (·.walletAddress))).getD [])
  if isWallet wallet then
    .ok { id := row.id, ownerUid := row.ownerUid,
          displayName := (row.name.or (user.bind (·.username))).getD [],
          settlementWallet := wallet, settlementChainId := 421614, accountVersion := 1,
          createdAt := row.createdAt, updatedAt := row.createdAt }
  else .error (.merchantWallet row.id)

/-- The merchant made up for the owner of a link. -/
def linkMerchant (link : AppLink) : Except MigrateError Merchant :=
  let wallet := lowerCase link.walletAddress
  if isWallet wallet then
    .ok { id := merchantId tools link.ownerUid, ownerUid := link.ownerUid,
          displayName := ((userOf app link.ownerUid).bind (·.username)).getD [],
          settlementWallet := wallet, settlementChainId := 421614, accountVersion := 1,
          createdAt := link.createdAt, updatedAt := link.createdAt }
  else .error (.linkWallet link.id)

def addLegacyMerchant (d : Directory) (row : AppMerchant) : Except MigrateError Directory :=
  (legacyMerchant app row).map d.add

def addLinkOwner (d : Directory) (link : AppLink) : Except MigrateError Directory :=
  if d.ownerMerchant.has link.ownerUid then .ok d else (linkMerchant tools app link).map d.add

/-- Both loops over the merchants. -/
def directory : Except MigrateError Directory := do
  let d ← (orderById (·.id) app.merchants.rows).foldlM (addLegacyMerchant app) .empty
  (legacyLinks app).foldlM (addLinkOwner tools app) d

/-! ### Links and intents -/

/-- `new Map(legacyIntents.filter((row) => row.link_id).map((row) => [row.link_id, row]))`; the
empty text is no `link_id`. -/
def intentByLink : OrderedMap Text AppIntent :=
  .ofList ((legacyIntents app).filterMap fun row =>
    (row.linkId.filter (· != [])).map fun linkId => (linkId, row))

/-- The status of a link and its intent together. -/
def pairStatus (link : AppLink) (legacyIntent : Option AppIntent) : IntentStatus :=
  if link.status = .paid ∨ legacyIntent.map (·.status) = some .paid then .paid
  else if legacyIntent.map (·.status) = some .canceled then .canceled
  else if legacyIntent.map (·.status) = some .expired then .expired
  else .awaitingPayment

def amountMode (amountAtomic : Text) : AmountMode :=
  if amountAtomic = ['0'] then .payerDefined else .fixed

def usdc : Text := ['U', 'S', 'D', 'C']

/-- The id of the intent generated for a link without intent. -/
def legacyIntentId (linkId : Text) : Text := "legacy_pi_".toList ++ linkId

/-- The id of the link generated for an intent without link. -/
def legacyLinkId (intentId : Text) : Text := "legacy_link_".toList ++ intentId

/-- The intent of a legacy link. -/
def pairedIntent (merchant : Merchant) (link : AppLink) (legacyIntent : Option AppIntent)
    (amountAtomic : Text) : PaymentIntent where
  id := (legacyIntent.map (·.id)).getD (legacyIntentId link.id)
  merchantId := merchant.id
  linkId := some link.id
  idempotencyKey := legacyIntent.bind (·.idempotencyKey)
  amount := amountDecimal ((legacyIntent.map (·.amount)).or (some link.amount))
  amountAtomic := amountAtomic
  amountMode := amountMode amountAtomic
  currency := usdc
  reference := (legacyIntent.bind (·.reference)).getD link.reference
  metadata := (legacyIntent.bind (·.metadata)).getD ['{', '}']
  mode := safeStatus ((legacyIntent.map (·.mode)).getD .test) [.test, .live] .test
  status := pairStatus link legacyIntent
  settlementWallet := merchant.settlementWallet
  settlementChainId := merchant.settlementChainId
  settlementAccountVersion := merchant.accountVersion
  paidAmountAtomic := if pairStatus link legacyIntent = .paid then amountAtomic else ['0']
  paidTxHash := (legacyIntent.bind (·.txHash)).or link.txHash
  paidAt := link.paidAt
  expiresAt := legacyIntent.bind (·.expiresAt)
  createdAt := (legacyIntent.map (·.createdAt)).getD link.createdAt
  updatedAt := (legacyIntent.map (·.updatedAt)).getD link.createdAt

/-- A legacy link, with its intent. -/
def pairedLink (merchant : Merchant) (link : AppLink) (legacyIntent : Option AppIntent) :
    PaymentLink where
  id := link.id
  ownerUid := link.ownerUid
  merchantId := merchant.id
  intentId := (legacyIntent.map (·.id)).getD (legacyIntentId link.id)
  walletAddress := merchant.settlementWallet
  amount := amountDecimal ((legacyIntent.map (·.amount)).or (some link.amount))
  currency := usdc
  reference := link.reference
  status := (pairStatus link legacyIntent).toLinkStatus
  txHash := link.txHash
  paidAt := link.paidAt
  paidBy := link.paidBy
  legacyPaymentClaim := link.paymentClaim
  legacyPaymentClaimExpiresAt := link.paymentClaimExpiresAt
  legacyPaymentClaimTxHash := link.paymentClaimTxHash
  createdAt := link.createdAt
  updatedAt := (legacyIntent.map (·.updatedAt)).getD link.createdAt

/-- The rows of a legacy link. -/
def linkRows (d : Directory) (link : AppLink) : Except MigrateError (List Item) :=
  match d.ofOwner link.ownerUid with
  | none => .error (.merchantMapping link.id)
  | some merchant =>
    let legacyIntent := (intentByLink app).get link.id
    let amount := amountDecimal ((legacyIntent.map (·.amount)).or (some link.amount))
    match atomic amount with
    | none => .error (.amount amount)
    | some amountAtomic => .ok
        [.intent (pairedIntent merchant link legacyIntent amountAtomic),
         .link (pairedLink merchant link legacyIntent)]

/-- An intent that no link of the run has taken. -/
def withoutLink (row : AppIntent) : Bool :=
  match row.linkId with
  | none => true
  | some linkId => linkId == [] || !app.links.any fun link => link.id == linkId

def intentStatus (intent : AppIntent) : IntentStatus :=
  (safeStatus intent.status [.awaitingPayment, .paid, .expired, .canceled]
    .awaitingPayment).toIntentStatus

/-- An intent without link, with the link it gets. -/
def loneIntent (merchant : Merchant) (intent : AppIntent) (amountAtomic : Text) :
    PaymentIntent where
  id := intent.id
  merchantId := merchant.id
  linkId := some (legacyLinkId intent.id)
  idempotencyKey := intent.idempotencyKey
  amount := amountDecimal (some intent.amount)
  amountAtomic := amountAtomic
  amountMode := amountMode amountAtomic
  currency := usdc
  reference := intent.reference.getD []
  metadata := intent.metadata.getD ['{', '}']
  mode := safeStatus intent.mode [.test, .live] .test
  status := intentStatus intent
  settlementWallet := merchant.settlementWallet
  settlementChainId := merchant.settlementChainId
  settlementAccountVersion := merchant.accountVersion
  paidAmountAtomic := if intentStatus intent = .paid then amountAtomic else ['0']
  paidTxHash := intent.txHash
  paidAt := if intentStatus intent = .paid then some intent.updatedAt else none
  expiresAt := intent.expiresAt
  createdAt := intent.createdAt
  updatedAt := intent.updatedAt

/-- The deterministic checkout link of an intent without one. -/
def checkoutLink (merchant : Merchant) (intent : AppIntent) : PaymentLink where
  id := legacyLinkId intent.id
  ownerUid := merchant.ownerUid
  merchantId := merchant.id
  intentId := intent.id
  walletAddress := merchant.settlementWallet
  amount := amountDecimal (some intent.amount)
  currency := usdc
  reference := intent.reference.getD []
  status := (intentStatus intent).toLinkStatus
  txHash := intent.txHash
  paidAt := if intentStatus intent = .paid then some intent.updatedAt else none
  paidBy := none
  legacyPaymentClaim := none
  legacyPaymentClaimExpiresAt := none
  legacyPaymentClaimTxHash := none
  createdAt := intent.createdAt
  updatedAt := intent.updatedAt

/-- The rows of an intent without link. -/
def intentRows (d : Directory) (intent : AppIntent) : Except MigrateError (List Item) :=
  match d.merchants.get intent.merchantId with
  | none => .error (.intentMerchant intent.id)
  | some merchant =>
    match atomic (amountDecimal (some intent.amount)) with
    | none => .error (.amount (amountDecimal (some intent.amount)))
    | some amountAtomic => .ok
        [.intent (loneIntent merchant intent amountAtomic), .link (checkoutLink merchant intent)]

/-! ### The remaining tables -/

/-- A row that needs something imported before it. -/
def oneRow (known : Prop) [Decidable known] (x : Item) (e : MigrateError) :
    Except MigrateError (List Item) :=
  if known then .ok [x] else .error e

def apiKeyOf (row : AppApiKey) : ApiKey where
  id := row.id
  merchantId := row.merchantId
  mode := row.mode
  keyPrefix := row.keyPrefix
  keyHash := row.secretHash
  name := row.name.getD []
  lastUsedAt := row.lastUsedAt
  revokedAt := row.revokedAt
  createdAt := row.createdAt

def apiKeyRows (d : Directory) (row : AppApiKey) : Except MigrateError (List Item) :=
  oneRow (d.merchants.has row.merchantId) (.apiKey (apiKeyOf row)) (.apiKeyMerchant row.id)

def endpointOf (row : AppEndpoint) : WebhookEndpoint where
  id := row.id
  merchantId := row.merchantId
  url := row.url
  secretCiphertext := tools.encryptLegacySecret row
  secretKeyId := tools.keyId
  mode := safeStatus row.mode [.test, .live] .test
  enabledEvents := row.enabledEvents
  status := if row.status = .enabled then .active else .disabled
  createdAt := row.createdAt
  updatedAt := row.createdAt

def endpointRows (d : Directory) (row : AppEndpoint) : Except MigrateError (List Item) :=
  oneRow (d.merchants.has row.merchantId) (.endpoint (endpointOf tools row))
    (.endpointMerchant row.id)

def eventOf (row : AppEvent) : Event where
  id := row.id
  merchantId := row.merchantId
  type := row.type
  objectId := row.objectId.getD row.id
  dedupeKey := none
  mode := .ofText (safeStatus row.mode ["test".toList, "live".toList] "test".toList)
  payload := row.payload
  createdAt := row.createdAt

def eventRows (d : Directory) (row : AppEvent) : Except MigrateError (List Item) :=
  oneRow (d.merchants.has row.merchantId) (.event (eventOf row)) (.eventMerchant row.id)

def AppDeliveryStatus.toDeliveryStatus : AppDeliveryStatus → DeliveryStatus
  | .delivered => .delivered
  | .failed => .failed
  | .pending => .pending

def deliveryOf (row : AppDelivery) : WebhookDelivery where
  id := row.id
  eventId := row.eventId
  endpointId := row.endpointId
  status := row.status.toDeliveryStatus
  attemptCount := row.attempt
  nextRetryAt := row.nextRetryAt.getD tools.now
  lastStatusCode := row.responseCode
  deliveredAt := row.deliveredAt
  createdAt := row.createdAt
  updatedAt := row.deliveredAt.getD row.createdAt

/-- The event and the endpoint must be among those imported before. -/
def deliveryRows (row : AppDelivery) : Except MigrateError (List Item) :=
  oneRow ((∃ e ∈ app.events, e.id = row.eventId) ∧ ∃ e ∈ app.endpoints, e.id = row.endpointId)
    (.delivery (deliveryOf tools row)) (.deliveryReference row.id)

/-! ### The transaction -/

/-- One statement of the transaction. -/
def insertItem (db : PaymentsDb) (x : Item) : Except MigrateError PaymentsDb :=
  match db.insert x with
  | some db' => .ok db'
  | none => .error .constraint

/-- The rows of one legacy row. -/
def importRow {α : Type} (rows : α → Except MigrateError (List Item)) (db : PaymentsDb) (x : α) :
    Except MigrateError PaymentsDb := do
  let items ← rows x
  items.foldlM insertItem db

/-- A loop over legacy rows. -/
def importRows {α : Type} (rows : α → Except MigrateError (List Item)) (xs : List α)
    (db : PaymentsDb) : Except MigrateError PaymentsDb :=
  xs.foldlM (importRow rows) db

def merchantRows (merchant : Merchant) : Except MigrateError (List Item) :=
  .ok [.merchant merchant]

/-- Everything between `BEGIN IMMEDIATE` and the checksum. -/
def importAll (d : Directory) (db : PaymentsDb) : Except MigrateError PaymentsDb := do
  let db ← importRows merchantRows d.merchants.values db
  let db ← importRows (linkRows app d) (legacyLinks app) db
  let db ← importRows (intentRows d) ((legacyIntents app).filter (withoutLink app)) db
  let db ← importRows (apiKeyRows d) (orderById (·.id) app.apiKeys.rows) db
  let db ← importRows (endpointRows tools d) (orderById (·.id) app.endpoints.rows) db
  let db ← importRows (eventRows d) (orderById (·.id) app.events.rows) db
  importRows (deliveryRows tools app) (orderById (·.id) app.deliveries.rows) db

/-- The transaction up to its `COMMIT`. -/
def transaction (d : Directory) (db : PaymentsDb) : Except MigrateError (Text × PaymentsDb) := do
  let db ← importAll tools app d db
  match tools.contentChecksum db with
  | none => .error .checksum
  | some checksum =>
    .ok (checksum,
      { db with control := ⟨1, some tools.now, some checksum, some checksum⟩ })

/-- The run over a new database: its answer, and the database it leaves. -/
def migrate : Except MigrateError Text × PaymentsDb :=
  match directory tools app with
  | .error e => (.error e, .migrated)
  | .ok d =>
    match transaction tools app d .migrated with
    -- ROLLBACK
    | .error e => (.error e, .migrated)
    | .ok (checksum, db) => (.ok checksum, db)

/-! ### What a loop leaves -/

/-- The rows of `S` have been added, and the outbox is as it was. -/
structure Wrote (db db' : PaymentsDb) (S : Item → Prop) : Prop where
  holds : ∀ y, db'.Holds y ↔ db.Holds y ∨ S y
  outbox : db'.outbox = db.outbox

theorem Wrote.trans {db db' db'' : PaymentsDb} {S S' : Item → Prop} (h : Wrote db db' S)
    (h' : Wrote db' db'' S') : Wrote db db'' fun y => S y ∨ S' y where
  holds y := by rw [h'.holds, h.holds, or_assoc]
  outbox := h'.outbox.trans h.outbox

theorem Wrote.of_iff {db db' : PaymentsDb} {S S' : Item → Prop} (h : Wrote db db' S)
    (same : ∀ y, S y ↔ S' y) : Wrote db db' S' where
  holds y := by rw [h.holds, same]
  outbox := h.outbox

theorem wrote_insertItem {db db' : PaymentsDb} {x : Item} (h : insertItem db x = .ok db') :
    Wrote db db' (· = x) := by
  unfold insertItem at h
  split at h
  · rename_i inserted
    cases h
    exact ⟨PaymentsDb.holds_insert inserted, PaymentsDb.outbox_insert inserted⟩
  · cases h

theorem wrote_insertItems {db db' : PaymentsDb} {items : List Item}
    (h : items.foldlM insertItem db = .ok db') : Wrote db db' (· ∈ items) := by
  refine foldlM_ok_invariant (I := fun done db' => Wrote db db' (· ∈ done)) ?_ ?_ h
  · intro done x db₁ db₂ before inserted
    refine (before.trans (wrote_insertItem inserted)).of_iff ?_
    intro y
    rw [List.mem_append, List.mem_singleton]
  · exact ⟨fun y => by simp, rfl⟩

/-- The rows that a loop makes of the legacy rows. -/
def Produced {α : Type} (rows : α → Except MigrateError (List Item)) (xs : List α) (y : Item) :
    Prop :=
  ∃ x ∈ xs, ∃ items, rows x = .ok items ∧ y ∈ items

/-- A loop that goes through has made rows of every legacy row, and inserted them. -/
theorem wrote_importRows {α : Type} {rows : α → Except MigrateError (List Item)} {xs : List α}
    {db db' : PaymentsDb} (h : importRows rows xs db = .ok db') :
    Wrote db db' (Produced rows xs) ∧ ∀ x ∈ xs, ∃ items, rows x = .ok items := by
  refine foldlM_ok_invariant
    (I := fun done db' => Wrote db db' (Produced rows done) ∧
      ∀ x ∈ done, ∃ items, rows x = .ok items) ?_ ?_ h
  · rintro done x db₁ db₂ ⟨before, made⟩ step
    obtain ⟨items, of_x, inserted⟩ := bind_eq_ok.1 step
    refine ⟨(before.trans (wrote_insertItems inserted)).of_iff ?_, ?_⟩
    · intro y
      simp only [Produced, List.mem_append, List.mem_singleton, or_and_right, exists_or,
        exists_eq_left, of_x, Except.ok.injEq, exists_eq_left']
    · intro x' hx'
      rcases List.mem_append.1 hx' with old | new
      · exact made x' old
      · rw [List.mem_singleton.1 new]
        exact ⟨items, of_x⟩
  · exact ⟨⟨fun y => by simp [Produced], rfl⟩, fun x hx => absurd hx List.not_mem_nil⟩

end ParmeliaLinks.Split
