/-
ParmeliaLinks/Split/LegacyApp.lean

The App database before the split, as far as the split reads it: users, payment
links, merchants, payment intents, API keys, webhook endpoints, events and
webhook deliveries, each with its unique keys.  `LegacyApp` is a database that
satisfies its schema, foreign keys included.

A link is paid or not; an intent that has a link can be paid as long as both
wait for it (`LegacyApp.payable`).  When a link is settled its amount becomes
the one that was paid, so `LegacyApp.actuallyPaid` looks at the link first.
-/
import ParmeliaLinks.Lib.SqlText
import ParmeliaLinks.Lib.Table

namespace ParmeliaLinks.Split

/-! ### Rows -/

inductive Mode | test | live
  deriving DecidableEq

structure AppUser where
  uid : Text
  username : Option Text
  walletAddress : Option Text
  deriving DecidableEq

instance : Row AppUser where
  clash r r' := r.uid == r'.uid || sameValue r.username r'.username ||
    sameValue r.walletAddress r'.walletAddress
  clash_comm r r' := by
    simp only [Bool.beq_comm (a := r.uid), sameValue_comm r.username,
      sameValue_comm r.walletAddress]

inductive AppLinkStatus | pending | paid
  deriving DecidableEq

structure AppLink where
  id : Text
  ownerUid : Text
  walletAddress : Text
  amount : Text
  currency : Text
  reference : Text
  status : AppLinkStatus
  txHash : Option Text
  paidAt : Option Text
  paidBy : Option Text
  paymentClaim : Option Text
  paymentClaimExpiresAt : Option Text
  paymentClaimTxHash : Option Text
  createdAt : Text
  deriving DecidableEq

instance : Row AppLink where
  clash r r' := r.id == r'.id
  clash_comm _ _ := Bool.beq_comm

structure AppMerchant where
  id : Text
  ownerUid : Text
  name : Option Text
  createdAt : Text
  deriving DecidableEq

instance : Row AppMerchant where
  clash r r' := r.id == r'.id || r.ownerUid == r'.ownerUid
  clash_comm r r' := by
    simp only [Bool.beq_comm (a := r.id), Bool.beq_comm (a := r.ownerUid)]

inductive AppIntentStatus | awaitingPayment | paid | expired | canceled
  deriving DecidableEq

structure AppIntent where
  id : Text
  merchantId : Text
  linkId : Option Text
  amount : Text
  currency : Text
  status : AppIntentStatus
  metadata : Option Text
  reference : Option Text
  txHash : Option Text
  mode : Mode
  idempotencyKey : Option Text
  expiresAt : Option Text
  createdAt : Text
  updatedAt : Text
  deriving DecidableEq

instance : Row AppIntent where
  clash r r' := r.id == r'.id ||
    (r.merchantId == r'.merchantId && sameValue r.idempotencyKey r'.idempotencyKey)
  clash_comm r r' := by
    simp only [Bool.beq_comm (a := r.id), Bool.beq_comm (a := r.merchantId),
      sameValue_comm r.idempotencyKey]

structure AppApiKey where
  id : Text
  merchantId : Text
  keyPrefix : Text
  secretHash : Text
  mode : Mode
  name : Option Text
  lastUsedAt : Option Text
  revokedAt : Option Text
  createdAt : Text
  deriving DecidableEq

instance : Row AppApiKey where
  clash r r' := r.id == r'.id || r.secretHash == r'.secretHash
  clash_comm r r' := by
    simp only [Bool.beq_comm (a := r.id), Bool.beq_comm (a := r.secretHash)]

inductive AppEndpointStatus | enabled | disabled
  deriving DecidableEq

structure AppEndpoint where
  id : Text
  merchantId : Text
  url : Text
  secret : Text
  enabledEvents : Option Text
  status : AppEndpointStatus
  mode : Mode
  createdAt : Text
  deriving DecidableEq

instance : Row AppEndpoint where
  clash r r' := r.id == r'.id
  clash_comm _ _ := Bool.beq_comm

/-- The mode of an event is any text. -/
structure AppEvent where
  id : Text
  merchantId : Text
  type : Text
  objectId : Option Text
  payload : Text
  mode : Text
  createdAt : Text
  deriving DecidableEq

instance : Row AppEvent where
  clash r r' := r.id == r'.id
  clash_comm _ _ := Bool.beq_comm

/-- A delivery is `failed` after its last attempt, and `pending` until then. -/
inductive AppDeliveryStatus | pending | delivered | failed
  deriving DecidableEq

structure AppDelivery where
  id : Text
  eventId : Text
  endpointId : Text
  attempt : Int
  status : AppDeliveryStatus
  responseCode : Option Int
  nextRetryAt : Option Text
  deliveredAt : Option Text
  createdAt : Text
  deriving DecidableEq

instance : Row AppDelivery where
  clash r r' := r.id == r'.id || (r.eventId == r'.eventId && r.endpointId == r'.endpointId)
  clash_comm r r' := by
    simp only [Bool.beq_comm (a := r.id), Bool.beq_comm (a := r.eventId),
      Bool.beq_comm (a := r.endpointId)]

/-! ### The database -/

structure LegacyApp where
  users : Table AppUser
  links : Table AppLink
  merchants : Table AppMerchant
  intents : Table AppIntent
  apiKeys : Table AppApiKey
  endpoints : Table AppEndpoint
  events : Table AppEvent
  deliveries : Table AppDelivery
  link_owner : ∀ l ∈ links, ∃ u ∈ users, u.uid = l.ownerUid
  merchant_owner : ∀ m ∈ merchants, ∃ u ∈ users, u.uid = m.ownerUid
  intent_merchant : ∀ i ∈ intents, ∃ m ∈ merchants, m.id = i.merchantId
  intent_link : ∀ i ∈ intents, ∀ k ∈ i.linkId, ∃ l ∈ links, l.id = k
  apiKey_merchant : ∀ k ∈ apiKeys, ∃ m ∈ merchants, m.id = k.merchantId
  endpoint_merchant : ∀ e ∈ endpoints, ∃ m ∈ merchants, m.id = e.merchantId
  event_merchant : ∀ e ∈ events, ∃ m ∈ merchants, m.id = e.merchantId
  delivery_event : ∀ d ∈ deliveries, ∃ e ∈ events, e.id = d.eventId
  delivery_endpoint : ∀ d ∈ deliveries, ∃ e ∈ endpoints, e.id = d.endpointId

namespace LegacyApp

variable (app : LegacyApp)

/-- `l` is the link behind `i`. -/
def Backs (l : AppLink) (i : AppIntent) : Prop := l ∈ app.links ∧ i ∈ app.intents ∧
  i.linkId = some l.id

/-- An intent has one link at most. -/
theorem link_of_intent {l l' : AppLink} {i : AppIntent} (h : app.Backs l i)
    (h' : app.Backs l' i) : l = l' := by
  refine Table.eq_of_clash h.1 h'.1 ?_
  show (l.id == l'.id) = true
  have same := h.2.2.symm.trans h'.2.2
  simpa using same

/-- Each link backs at most one intent, and one of its owner's. -/
structure Paired : Prop where
  one : ∀ l i i', app.Backs l i → app.Backs l i' → i = i'
  owner : ∀ l i, app.Backs l i → ∀ m ∈ app.merchants, m.id = i.merchantId →
    m.ownerUid = l.ownerUid

/-- A link without intent. -/
def LoneLink (l : AppLink) : Prop := l ∈ app.links ∧ ∀ i ∈ app.intents, i.linkId ≠ some l.id

/-- An intent without link. -/
def LoneIntent (i : AppIntent) : Prop := i ∈ app.intents ∧ ∀ l ∈ app.links, i.linkId ≠ some l.id

/-- An expiry that has come. -/
def expired (dateParse : Text → Option Nat) (expiresAt : Option Text) (now : Nat) : Bool :=
  match expiresAt with
  | none => false
  | some t => t != [] && (dateParse t).any (· ≤ now)

/-- The intent can be paid: it waits for its payment, and so does its link. -/
def Payable (dateParse : Text → Option Nat) (now : Nat) (i : AppIntent) : Prop :=
  i.status = .awaitingPayment ∧ expired dateParse i.expiresAt now = false ∧
    ∀ l, app.Backs l i → l.status = .pending

/-- The intent has been paid, at its link or at the router. -/
def Paid (i : AppIntent) : Prop := i.status = .paid ∨ ∃ l, app.Backs l i ∧ l.status = .paid

/-- The text of the amount that was paid.  A settled link keeps it; the router takes
the amount of the intent. -/
def ActuallyPaid (i : AppIntent) (amount : Text) : Prop :=
  (∃ l, app.Backs l i ∧ l.status = .paid ∧ amount = l.amount) ∨
    (∀ l, app.Backs l i → l.status ≠ .paid) ∧ i.status = .paid ∧ amount = i.amount

end LegacyApp

end ParmeliaLinks.Split
