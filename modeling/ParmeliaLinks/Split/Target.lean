/-
ParmeliaLinks/Split/Target.lean

The Payments database as the split fills it: the seven tables that it writes, the
row of `payment_migration_control`, and the outbox of the worker, which it does not
write.  An insertion is refused on a collision with a unique key and when a row that
it refers to is missing; the other constraints (statuses, modes, the currency) are in
the types.

`listDuePaymentOutbox` is what the worker looks at to send anything.
-/
import Mathlib.Data.List.Sort
import ParmeliaLinks.Split.LegacyApp

namespace ParmeliaLinks.Split

/-! ### Rows -/

/-- The status column is always `active` here. -/
structure Merchant where
  id : Text
  ownerUid : Text
  displayName : Text
  settlementWallet : Text
  settlementChainId : Nat
  accountVersion : Nat
  createdAt : Text
  updatedAt : Text
  deriving DecidableEq

instance : Row Merchant where
  clash r r' := r.id == r'.id || r.ownerUid == r'.ownerUid
  clash_comm r r' := by
    simp only [Bool.beq_comm (a := r.id), Bool.beq_comm (a := r.ownerUid)]

inductive AmountMode | fixed | payerDefined
  deriving DecidableEq

inductive IntentStatus
  | awaitingPayment | processing | paid | overpaid | canceled | expired | failed
  deriving DecidableEq

structure PaymentIntent where
  id : Text
  merchantId : Text
  linkId : Option Text
  idempotencyKey : Option Text
  amount : Text
  amountAtomic : Text
  amountMode : AmountMode
  currency : Text
  reference : Text
  metadata : Text
  mode : Mode
  status : IntentStatus
  settlementWallet : Text
  settlementChainId : Nat
  settlementAccountVersion : Nat
  paidAmountAtomic : Text
  paidTxHash : Option Text
  paidAt : Option Text
  expiresAt : Option Text
  createdAt : Text
  updatedAt : Text
  deriving DecidableEq

instance : Row PaymentIntent where
  clash r r' := r.id == r'.id || sameValue r.linkId r'.linkId ||
    (r.merchantId == r'.merchantId && sameValue r.idempotencyKey r'.idempotencyKey)
  clash_comm r r' := by
    simp only [Bool.beq_comm (a := r.id), sameValue_comm r.linkId,
      Bool.beq_comm (a := r.merchantId), sameValue_comm r.idempotencyKey]

inductive LinkStatus | pending | paid | canceled | expired
  deriving DecidableEq

structure PaymentLink where
  id : Text
  ownerUid : Text
  merchantId : Text
  intentId : Text
  walletAddress : Text
  amount : Text
  currency : Text
  reference : Text
  status : LinkStatus
  txHash : Option Text
  paidAt : Option Text
  paidBy : Option Text
  legacyPaymentClaim : Option Text
  legacyPaymentClaimExpiresAt : Option Text
  legacyPaymentClaimTxHash : Option Text
  createdAt : Text
  updatedAt : Text
  deriving DecidableEq

instance : Row PaymentLink where
  clash r r' := r.id == r'.id || r.intentId == r'.intentId
  clash_comm r r' := by
    simp only [Bool.beq_comm (a := r.id), Bool.beq_comm (a := r.intentId)]

structure ApiKey where
  id : Text
  merchantId : Text
  mode : Mode
  keyPrefix : Text
  keyHash : Text
  name : Text
  lastUsedAt : Option Text
  revokedAt : Option Text
  createdAt : Text
  deriving DecidableEq

instance : Row ApiKey where
  clash r r' := r.id == r'.id || r.keyHash == r'.keyHash
  clash_comm r r' := by
    simp only [Bool.beq_comm (a := r.id), Bool.beq_comm (a := r.keyHash)]

inductive EndpointStatus | active | disabled
  deriving DecidableEq

structure WebhookEndpoint where
  id : Text
  merchantId : Text
  url : Text
  secretCiphertext : Text
  secretKeyId : Text
  mode : Mode
  enabledEvents : Option Text
  status : EndpointStatus
  createdAt : Text
  updatedAt : Text
  deriving DecidableEq

instance : Row WebhookEndpoint where
  clash r r' := r.id == r'.id
  clash_comm _ _ := Bool.beq_comm

structure Event where
  id : Text
  merchantId : Text
  type : Text
  objectId : Text
  dedupeKey : Option Text
  mode : Mode
  payload : Text
  createdAt : Text
  deriving DecidableEq

instance : Row Event where
  clash r r' := r.id == r'.id ||
    (r.merchantId == r'.merchantId && sameValue r.dedupeKey r'.dedupeKey)
  clash_comm r r' := by
    simp only [Bool.beq_comm (a := r.id), Bool.beq_comm (a := r.merchantId),
      sameValue_comm r.dedupeKey]

inductive DeliveryStatus | pending | processing | delivered | failed | dead
  deriving DecidableEq

structure WebhookDelivery where
  id : Text
  eventId : Text
  endpointId : Text
  status : DeliveryStatus
  attemptCount : Int
  nextRetryAt : Text
  lastStatusCode : Option Int
  deliveredAt : Option Text
  createdAt : Text
  updatedAt : Text
  deriving DecidableEq

instance : Row WebhookDelivery where
  clash r r' := r.id == r'.id || (r.eventId == r'.eventId && r.endpointId == r'.endpointId)
  clash_comm r r' := by
    simp only [Bool.beq_comm (a := r.id), Bool.beq_comm (a := r.eventId),
      Bool.beq_comm (a := r.endpointId)]

inductive OutboxStatus | pending | enqueued | completed | failed
  deriving DecidableEq

structure OutboxRow where
  id : Text
  topic : Text
  resourceId : Text
  status : OutboxStatus
  attemptCount : Nat
  nextAttemptAt : Text
  createdAt : Text
  deriving DecidableEq

instance : Row OutboxRow where
  clash r r' := r.id == r'.id || (r.topic == r'.topic && r.resourceId == r'.resourceId)
  clash_comm r r' := by
    simp only [Bool.beq_comm (a := r.id), Bool.beq_comm (a := r.topic),
      Bool.beq_comm (a := r.resourceId)]

structure MigrationControl where
  legacyCopyVersion : Nat
  legacyCopyCompletedAt : Option Text
  legacySourceChecksum : Option Text
  legacyTargetChecksum : Option Text
  deriving DecidableEq

/-! ### The database -/

structure PaymentsDb where
  merchants : Table Merchant
  intents : Table PaymentIntent
  links : Table PaymentLink
  apiKeys : Table ApiKey
  endpoints : Table WebhookEndpoint
  events : Table Event
  deliveries : Table WebhookDelivery
  outbox : Table OutboxRow
  control : MigrationControl

namespace PaymentsDb

/-- The database that the migrations of the worker leave. -/
def migrated : PaymentsDb where
  merchants := .empty
  intents := .empty
  links := .empty
  apiKeys := .empty
  endpoints := .empty
  events := .empty
  deliveries := .empty
  outbox := .empty
  control := ⟨0, none, none, none⟩

/-- No row of the business. -/
def Blank (db : PaymentsDb) : Prop :=
  db.merchants.rows = [] ∧ db.intents.rows = [] ∧ db.links.rows = [] ∧ db.apiKeys.rows = [] ∧
    db.endpoints.rows = [] ∧ db.events.rows = [] ∧ db.deliveries.rows = [] ∧ db.outbox.rows = []

theorem blank_migrated : migrated.Blank := ⟨rfl, rfl, rfl, rfl, rfl, rfl, rfl, rfl⟩

end PaymentsDb

/-! ### Insertions -/

/-- A row on its way into the database. -/
inductive Item
  | merchant (r : Merchant)
  | intent (r : PaymentIntent)
  | link (r : PaymentLink)
  | apiKey (r : ApiKey)
  | endpoint (r : WebhookEndpoint)
  | event (r : Event)
  | delivery (r : WebhookDelivery)

namespace PaymentsDb

variable (db : PaymentsDb)

def Holds : Item → Prop
  | .merchant r => r ∈ db.merchants
  | .intent r => r ∈ db.intents
  | .link r => r ∈ db.links
  | .apiKey r => r ∈ db.apiKeys
  | .endpoint r => r ∈ db.endpoints
  | .event r => r ∈ db.events
  | .delivery r => r ∈ db.deliveries

/-- `REFERENCES merchants(id)`. -/
def HasMerchant (id : Text) : Prop := ∃ m ∈ db.merchants, m.id = id

instance (id : Text) : Decidable (db.HasMerchant id) :=
  inferInstanceAs (Decidable (∃ m ∈ db.merchants, m.id = id))

/-- The rows that a row refers to are there. -/
def Refers : Item → Prop
  | .merchant _ => True
  | .intent r => db.HasMerchant r.merchantId
  | .link r => db.HasMerchant r.merchantId ∧ ∃ i ∈ db.intents, i.id = r.intentId
  | .apiKey r => db.HasMerchant r.merchantId
  | .endpoint r => db.HasMerchant r.merchantId
  | .event r => db.HasMerchant r.merchantId
  | .delivery r => (∃ e ∈ db.events, e.id = r.eventId) ∧ ∃ e ∈ db.endpoints, e.id = r.endpointId

instance (x : Item) : Decidable (db.Refers x) :=
  match x with
  | .merchant _ => .isTrue trivial
  | .intent r => inferInstanceAs (Decidable (db.HasMerchant r.merchantId))
  | .link r => inferInstanceAs
      (Decidable (db.HasMerchant r.merchantId ∧ ∃ i ∈ db.intents, i.id = r.intentId))
  | .apiKey r => inferInstanceAs (Decidable (db.HasMerchant r.merchantId))
  | .endpoint r => inferInstanceAs (Decidable (db.HasMerchant r.merchantId))
  | .event r => inferInstanceAs (Decidable (db.HasMerchant r.merchantId))
  | .delivery r => inferInstanceAs (Decidable
      ((∃ e ∈ db.events, e.id = r.eventId) ∧ ∃ e ∈ db.endpoints, e.id = r.endpointId))

/-- The row goes into its table unless it collides there. -/
def push : Item → Option PaymentsDb
  | .merchant r => (db.merchants.insert r).map fun t => { db with merchants := t }
  | .intent r => (db.intents.insert r).map fun t => { db with intents := t }
  | .link r => (db.links.insert r).map fun t => { db with links := t }
  | .apiKey r => (db.apiKeys.insert r).map fun t => { db with apiKeys := t }
  | .endpoint r => (db.endpoints.insert r).map fun t => { db with endpoints := t }
  | .event r => (db.events.insert r).map fun t => { db with events := t }
  | .delivery r => (db.deliveries.insert r).map fun t => { db with deliveries := t }

/-- `INSERT INTO`: nothing when a constraint is in the way. -/
def insert (x : Item) : Option PaymentsDb := if db.Refers x then db.push x else none

variable {db} {db' : PaymentsDb}

theorem holds_push {x : Item} (h : db.push x = some db') (y : Item) :
    db'.Holds y ↔ db.Holds y ∨ y = x := by
  cases x <;>
  · obtain ⟨t, inserted, rfl⟩ := Option.map_eq_some_iff.1 h
    have mem := @Table.mem_of_rows_append _ _ _ _ _ (Table.insert_rows inserted).1
    cases y <;> simp [Holds, mem]

theorem outbox_push {x : Item} (h : db.push x = some db') : db'.outbox = db.outbox := by
  cases x <;>
  · obtain ⟨t, _, rfl⟩ := Option.map_eq_some_iff.1 h
    rfl

/-- An insertion adds its row and nothing else. -/
theorem holds_insert {x : Item} (h : db.insert x = some db') (y : Item) :
    db'.Holds y ↔ db.Holds y ∨ y = x := by
  unfold insert at h
  split at h
  · exact holds_push h y
  · cases h

theorem outbox_insert {x : Item} (h : db.insert x = some db') : db'.outbox = db.outbox := by
  unfold insert at h
  split at h
  · exact outbox_push h
  · cases h

/-! ### Keys -/

theorem link_eq {p p' : PaymentLink} (hp : p ∈ db.links) (hp' : p' ∈ db.links)
    (h : p.id = p'.id ∨ p.intentId = p'.intentId) : p = p' := by
  refine Table.eq_of_clash hp hp' ?_
  show (p.id == p'.id || p.intentId == p'.intentId) = true
  rcases h with h | h <;> simp [h]

theorem intent_eq {j j' : PaymentIntent} (hj : j ∈ db.intents) (hj' : j' ∈ db.intents)
    (h : j.id = j'.id ∨ ∃ k, j.linkId = some k ∧ j'.linkId = some k) : j = j' := by
  refine Table.eq_of_clash hj hj' ?_
  show (j.id == j'.id || sameValue j.linkId j'.linkId || _) = true
  rcases h with h | ⟨k, h, h'⟩
  · simp [h]
  · simp [h, h']

theorem merchant_eq {m m' : Merchant} (hm : m ∈ db.merchants) (hm' : m' ∈ db.merchants)
    (h : m.id = m'.id) : m = m' := by
  refine Table.eq_of_clash hm hm' ?_
  show (m.id == m'.id || _) = true
  simp [h]

/-! ### The outbox -/

/-- The rows that the worker takes up at `now`, oldest first. -/
def listDuePaymentOutbox (db : PaymentsDb) (now : Text) (limit : Nat) : List OutboxRow :=
  let due := db.outbox.filter fun r =>
    (r.status == OutboxStatus.pending || r.status == OutboxStatus.failed) &&
      decide (¬ now < r.nextAttemptAt)
  (due.insertionSort fun r r' => ¬ r'.createdAt < r.createdAt).take (max 1 (min limit 100))

theorem listDuePaymentOutbox_nil {db : PaymentsDb} (h : db.outbox = .empty) (now : Text)
    (limit : Nat) : db.listDuePaymentOutbox now limit = [] := by
  unfold listDuePaymentOutbox
  rw [h]
  simp [Table.filter, Table.empty]

end PaymentsDb

end ParmeliaLinks.Split
