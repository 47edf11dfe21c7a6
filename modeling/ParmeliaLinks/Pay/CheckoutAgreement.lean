/-
ParmeliaLinks/Pay/CheckoutAgreement.lean

A checkout is two rows: the intent of the merchant and the link behind it.  A payment
through the app claims the link and settles it, which flips the link and then the intent;
a payment in the sandbox, or through the router, flips the intent alone; a cancellation
looks at the claim.  Both payments put a `payment.paid` event into the outbox of the
merchant in the same batch, with a delivery for every endpoint that an earlier reading
found enabled.

The settlement asks whether the link is pending, but not whether the intent can still be
paid.  So the two rows agree in the runs in which no settlement takes a link whose intent
was paid by another transaction, or canceled, in between (`Orderly`).
-/
import ParmeliaLinks.Lib.Machine
import ParmeliaLinks.Pay.Store

namespace ParmeliaLinks.Pay.Agreement

abbrev MerchantId := Nat
abbrev EndpointId := Nat
abbrev EventId := Nat
abbrev DeliveryId := Nat

inductive ApiMode | test | live
  deriving DecidableEq

/-! ### Rows -/

/-- `webhook_endpoints`. -/
structure WebhookEndpoint where
  id : EndpointId
  merchantId : MerchantId
  -- `none` for all types
  enabledEvents : Option (List String)
  enabled : Bool
  mode : ApiMode
  deriving DecidableEq

instance : Row WebhookEndpoint where
  clash r r' := r.id == r'.id
  clash_comm _ _ := Bool.beq_comm

/-- `events`. -/
structure Event where
  id : EventId
  merchantId : MerchantId
  type : String
  objectId : Option Nat
  payload : String
  mode : ApiMode
  createdAt : Timestamp
  deriving DecidableEq

instance : Row Event where
  clash r r' := r.id == r'.id
  clash_comm _ _ := Bool.beq_comm

/-- `webhook_deliveries`, as they are inserted: no attempt made, and due at once. -/
structure WebhookDelivery where
  id : DeliveryId
  eventId : EventId
  endpointId : EndpointId
  createdAt : Timestamp
  deriving DecidableEq

/-- The primary key, and `idx_webhook_deliveries_event_endpoint`. -/
instance : Row WebhookDelivery where
  clash r r' := r.id == r'.id || (r.eventId == r'.eventId && r.endpointId == r'.endpointId)
  clash_comm r r' := by
    rw [Bool.beq_comm, Bool.beq_comm (a := r.eventId), Bool.beq_comm (a := r.endpointId)]

structure Db where
  -- with `payment_links` and `payment_intents`
  store : World
  -- the column `merchant_id` of the intents, which no statement writes
  merchantOf : Nat → MerchantId
  endpoints : Table WebhookEndpoint
  events : Table Event
  deliveries : Table WebhookDelivery

/-! ### The outbox -/

/-- The identifiers that are made from digests. -/
structure Digests where
  event : MerchantId → ApiMode → String → Option Nat → EventId
  delivery : EventId → EndpointId → DeliveryId

structure PlannedDelivery where
  id : DeliveryId
  endpointId : EndpointId
  createdAt : Timestamp

structure EventOutboxPlan where
  event : Event
  deliveries : List PlannedDelivery

/-- `listEnabledEndpoints`. -/
def Db.listEnabledEndpoints (db : Db) (merchantId : MerchantId) (mode : ApiMode) :
    List WebhookEndpoint :=
  db.endpoints.filter fun ep => ep.merchantId == merchantId && ep.mode == mode && ep.enabled

/-- `prepareEventOutbox`, with the endpoints that it has read. -/
def prepareEventOutbox (D : Digests) (merchantId : MerchantId) (mode : ApiMode) (type : String)
    (objectId : Option Nat) (data : String) (endpoints : List WebhookEndpoint)
    (now : Timestamp) : EventOutboxPlan where
  event :=
    { id := D.event merchantId mode type objectId
      merchantId, type, objectId, payload := data, mode, createdAt := now }
  deliveries :=
    (endpoints.filter fun ep => ep.enabledEvents.all (·.contains type)).map fun ep =>
      { id := D.delivery (D.event merchantId mode type objectId) ep.id
        endpointId := ep.id, createdAt := now }

namespace Db

variable (db : Db)

/-- What guards the insertion of an event: the intent is paid by the transaction. -/
def paidBy (intentId : Nat) (txHash : Hash) : Bool :=
  db.store.intents.any fun i => i.id == intentId && i.status == .paid && i.txHash == some txHash

/-- The statement of `eventOutboxStatements` for the event. -/
def insertEvent (e : Event) (guard : Option (Nat × Hash)) : Db :=
  if guard.all fun g => db.paidBy g.1 g.2 then { db with events := db.events.insertOrIgnore e }
  else db

/-- The row that a planned delivery becomes. -/
def deliveryRow (eventId : EventId) (d : PlannedDelivery) : WebhookDelivery where
  id := d.id
  eventId := eventId
  endpointId := d.endpointId
  createdAt := d.createdAt

/-- The statement of `eventOutboxStatements` for a delivery.  A row that is new must have its
endpoint, or the batch is rolled back. -/
def insertDelivery (eventId : EventId) (d : PlannedDelivery) : Option Db :=
  if db.events.any (·.id == eventId) && decide (db.deliveries.Fits (deliveryRow eventId d)) then
    if db.endpoints.any (·.id == d.endpointId) then
      some { db with deliveries := db.deliveries.insertOrIgnore (deliveryRow eventId d) }
    else none
  else some db

def insertDeliveries (eventId : EventId) (ds : List PlannedDelivery) : Option Db :=
  ds.foldlM (fun db d => db.insertDelivery eventId d) db

/-- `eventOutboxStatements`. -/
def eventOutboxStatements (plan : EventOutboxPlan) (guard : Option (Nat × Hash)) : Option Db :=
  (db.insertEvent plan.event guard).insertDeliveries plan.event.id plan.deliveries

/-! ### Statements on the checkout -/

/-- The batch of `createPaymentIntentTransaction`. -/
def createPaymentIntentTransaction (link : PaymentLink) (intent : PaymentIntent)
    (merchantId : MerchantId) (plan : EventOutboxPlan) : Option Db := do
  let links ← db.store.links.insert link
  let intents ← db.store.intents.insert intent
  let db' : Db :=
    { db with
      store := { db.store with links, intents }
      merchantOf := fun id => if id = intent.id then merchantId else db.merchantOf id }
  db'.eventOutboxStatements plan none

/-- The update of `updatePaymentIntentStatus`, and whether it found the intent. -/
def updatePaymentIntentStatus (id : Nat) (merchantId : MerchantId)
    (status : PaymentIntentStatus) : Bool × Db :=
  let found := fun i : PaymentIntent =>
    i.id == id && db.merchantOf i.id == merchantId && i.status == .awaitingPayment &&
      !db.store.links.any fun l => i.linkId == some l.id && l.paymentClaim.isSome
  (0 < db.store.intents.changes found,
    { db with
      store := { db.store with
        intents := db.store.intents.modify found ({ · with status := status })
          ⟨fun _ _ => rfl⟩ } })

/-- The batch of `markPaymentIntentPaidWithOutbox`; `none` when it is rolled back. -/
def markPaymentIntentPaidWithOutbox (id : Nat) (txHash : Hash) (plan : EventOutboxPlan) :
    Option (Bool × Db) :=
  let payable := fun i : PaymentIntent => i.id == id && i.status == .awaitingPayment
  let flipped : Db :=
    { db with
      store := { db.store with
        intents := db.store.intents.modify payable
          (fun i => { i with status := .paid, txHash := some txHash }) ⟨fun _ _ => rfl⟩ } }
  (flipped.eventOutboxStatements plan (some (id, txHash))).map fun db' =>
    (0 < db.store.intents.changes payable, db')

/-- The batch of `settlePaymentLinkWithOutbox`; `none` when it is rolled back. -/
def settlePaymentLinkWithOutbox (s : World.Settlement) (outbox : Option EventOutboxPlan) :
    Option (Bool × Db) :=
  let flipped : Db := { db with store := (db.store.settleLink s).2 }
  match s.intentId, outbox with
  | some intentId, some plan =>
    (flipped.eventOutboxStatements plan (some (intentId, s.txHash))).map fun db' =>
      ((db.store.settleLink s).1, db')
  | _, _ => some ((db.store.settleLink s).1, flipped)

/-- `deleteWebhookEndpoint`; the deliveries follow. -/
def deleteWebhookEndpoint (merchantId : MerchantId) (id : EndpointId) : Db :=
  let gone := fun ep : WebhookEndpoint => ep.id == id && ep.merchantId == merchantId
  { db with
    endpoints := db.endpoints.delete gone
    deliveries := db.deliveries.delete fun d =>
      db.endpoints.any fun ep => gone ep && ep.id == d.endpointId }

end Db

/-! ### Runs -/

/-- An intent and the link behind it, with the columns that never change. -/
structure Checkout where
  linkId : LinkId
  intentId : Nat
  merchantId : MerchantId
  mode : ApiMode

/-- What a caller has prepared before it pays: the data of the event, and the endpoints
that were enabled when it looked. -/
structure Preparation where
  data : String
  endpoints : List WebhookEndpoint
  now : Timestamp

inductive Call
  | claim (q : RequestId) (owner : Hash) (expiresAt now : Timestamp)
  | broadcast (owner txHash : Hash)
  | release (owner : Hash) (allowBroadcast : Bool)
  | cancel (merchantId : MerchantId)
  | markPaid (txHash : Hash) (p : Preparation)
  | settle (amount : String) (txHash : Hash) (paidAt : Timestamp) (paidBy : Nat)
      (claimOwner : Hash) (p : Preparation)
  -- the merchant changes its endpoints
  | createEndpoint (ep : WebhookEndpoint)
  | deleteEndpoint (merchantId : MerchantId) (id : EndpointId)

section Runs

variable (D : Digests) (c : Checkout)

/-- The identifier of the `payment.paid` event of the checkout. -/
def Checkout.paidEvent : EventId := D.event c.merchantId c.mode "payment.paid" (some c.intentId)

/-- The outbox of a payment. -/
def Checkout.plan (p : Preparation) : EventOutboxPlan :=
  prepareEventOutbox D c.merchantId c.mode "payment.paid" (some c.intentId) p.data p.endpoints
    p.now

/-- The parameters of a settlement; the intent is the one behind the link. -/
def Checkout.settlement (amount : String) (txHash : Hash) (paidAt : Timestamp) (paidBy : Nat)
    (claimOwner : Hash) : World.Settlement where
  id := c.linkId
  amount := amount
  txHash := txHash
  paidAt := paidAt
  paidBy := paidBy
  claimOwner := claimOwner
  intentId := some c.intentId

/-- The database after a batch, which is as it was when the batch is rolled back. -/
def afterBatch (db : Db) (result : Option (Bool × Db)) : Option Bool × Db :=
  match result with
  | some (written, db') => (some written, db')
  | none => (none, db)

/-- A call, with its answer where a caller looks at it; `none` for an exception. -/
def perform : Call → Db → Option Bool × Db
  | .claim q owner expiresAt now, db =>
    let (claimed, store) := db.store.claimLink q c.linkId owner expiresAt now
    (some claimed, { db with store })
  | .broadcast owner txHash, db =>
    (some true, { db with store := db.store.markBroadcast c.linkId owner txHash })
  | .release owner allowBroadcast, db =>
    (some true, { db with store := db.store.releaseLink c.linkId owner allowBroadcast })
  | .cancel merchantId, db =>
    let (canceled, db') := db.updatePaymentIntentStatus c.intentId merchantId .canceled
    (some canceled, db')
  | .markPaid txHash p, db =>
    afterBatch db (db.markPaymentIntentPaidWithOutbox c.intentId txHash (c.plan D p))
  | .settle amount txHash paidAt paidBy claimOwner p, db =>
    afterBatch db (db.settlePaymentLinkWithOutbox
      (c.settlement amount txHash paidAt paidBy claimOwner) (some (c.plan D p)))
  | .createEndpoint ep, db => (some true, { db with endpoints := db.endpoints.insertOrIgnore ep })
  | .deleteEndpoint merchantId id, db => (some true, db.deleteWebhookEndpoint merchantId id)

/-- Calls one after the other; each is one batch. -/
def checkouts : Machine Call Db where
  step call db := (perform D c call db).2

/-! ### What is to hold -/

/-- The event is a `payment.paid` of the intent. -/
def Checkout.heardBy (e : Event) : Bool :=
  e.type == "payment.paid" && e.objectId == some c.intentId

/-- A link that a transaction has paid has an intent that it has paid, and one event. -/
def Checkout.Agrees (db : Db) : Prop :=
  ∀ l ∈ db.store.links, l.id = c.linkId → l.status = .paid → l.txHash.isSome →
    (∃ i ∈ db.store.intents, i.id = c.intentId ∧ i.status = .paid ∧ i.txHash = l.txHash) ∧
    (db.events.filter c.heardBy).length = 1

/-- The link of a canceled intent is neither claimed nor paid. -/
def Checkout.Spared (db : Db) : Prop :=
  ∀ i ∈ db.store.intents, i.id = c.intentId → i.status = .canceled →
    ∀ l ∈ db.store.links, l.id = c.linkId → l.paymentClaim = none ∧ l.status ≠ .paid

/-- A settlement that answers `false` leaves the events, deliveries and intents alone. -/
def Silent (call : Call) (db : Db) : Prop :=
  match call with
  | .settle .. =>
    (perform D c call db).1 = some false →
      (perform D c call db).2.events.rows = db.events.rows ∧
      (perform D c call db).2.deliveries.rows = db.deliveries.rows ∧
      (perform D c call db).2.store.intents.rows = db.store.intents.rows
  | _ => True

/-- A new checkout: as it was created, with no `payment.paid` event yet. -/
structure Opened (db : Db) : Prop where
  link : ∃ l ∈ db.store.links, l.id = c.linkId ∧ l.status = .pending ∧ l.paymentClaim = none
  intent : ∃ i ∈ db.store.intents, i.id = c.intentId ∧ i.linkId = some c.linkId ∧
    i.status = .awaitingPayment
  unheard : ∀ e ∈ db.events, e.id ≠ c.paidEvent D ∧ c.heardBy e = false

/-- The settlement takes no link whose intent has been paid by another transaction, or can
no longer be paid; and if it takes none, the endpoints that it has read are those that have
been told of the payment. -/
def Orderly (call : Call) (db : Db) : Prop :=
  match call with
  | .settle amount txHash paidAt paidBy claimOwner p =>
    if ∃ l ∈ db.store.links,
        World.settleable (c.settlement amount txHash paidAt paidBy claimOwner) l = true then
      ∃ i ∈ db.store.intents, i.id = c.intentId ∧
        (i.status = .awaitingPayment ∨ i.status = .paid ∧ i.txHash = some txHash)
    else
      (∃ e ∈ db.events, e.id = c.paidEvent D) → ∀ d ∈ (c.plan D p).deliveries,
        ∃ r ∈ db.deliveries, r.eventId = c.paidEvent D ∧ r.endpointId = d.endpointId
  | _ => True

end Runs

/-! ### The rows of a checkout -/

section Rows

/-- The link and the intent of the checkout, as the tables have them. -/
structure Shows (c : Checkout) (links : Table PaymentLink) (intents : Table PaymentIntent)
    (l : PaymentLink) (i : PaymentIntent) : Prop where
  link : links.find? (·.id == c.linkId) = some l
  intent : intents.find? (·.id == c.intentId) = some i
  backs : i.linkId = some c.linkId

variable {c : Checkout} {links : Table PaymentLink} {intents : Table PaymentIntent}
variable {l : PaymentLink} {i : PaymentIntent}

namespace Shows

theorem link_mem (h : Shows c links intents l i) : l ∈ links ∧ l.id = c.linkId :=
  ⟨Table.mem_of_find? h.link, by simpa using Table.of_find? h.link⟩

theorem intent_mem (h : Shows c links intents l i) : i ∈ intents ∧ i.id = c.intentId :=
  ⟨Table.mem_of_find? h.intent, by simpa using Table.of_find? h.intent⟩

/-- There is no other row of the link. -/
theorem link_eq (h : Shows c links intents l i) {l' : PaymentLink} (hl' : l' ∈ links)
    (id : l'.id = c.linkId) : l' = l := by
  refine Table.eq_of_clash hl' h.link_mem.1 ?_
  show (l'.id == l.id) = true
  rw [id, h.link_mem.2]
  exact beq_self_eq_true _

/-- There is no other row of the intent. -/
theorem intent_eq (h : Shows c links intents l i) {i' : PaymentIntent} (hi' : i' ∈ intents)
    (id : i'.id = c.intentId) : i' = i := by
  refine Table.eq_of_clash hi' h.intent_mem.1 ?_
  show (i'.id == i.id) = true
  rw [id, h.intent_mem.2]
  exact beq_self_eq_true _

/-- An update of links rewrites the link if it matches. -/
theorem modify_links (h : Shows c links intents l i) (p : PaymentLink → Bool)
    {f : PaymentLink → PaymentLink} (keys : Table.KeepsKeys f) (id : ∀ l, (f l).id = l.id) :
    Shows c (links.modify p f keys) intents (if p l then f l else l) i where
  link := by
    rw [Table.find?_modify fun l' => by rw [id], h.link]
    rfl
  intent := h.intent
  backs := h.backs

/-- An update of intents rewrites the intent if it matches. -/
theorem modify_intents (h : Shows c links intents l i) (p : PaymentIntent → Bool)
    (f : PaymentIntent → PaymentIntent) (keys : Table.KeepsKeys f)
    (id : ∀ i, (f i).id = i.id ∧ (f i).linkId = i.linkId) :
    Shows c links (intents.modify p f keys) l (if p i then f i else i) where
  link := h.link
  intent := by
    rw [Table.find?_modify fun i' => by rw [(id i').1], h.intent]
    rfl
  backs := by
    split
    · rw [(id i).2, h.backs]
    · exact h.backs

/-- A question about the link is one about its row. -/
theorem any_link (h : Shows c links intents l i) (p : PaymentLink → Bool) :
    links.any (fun l => l.id == c.linkId && p l) = p l := by
  rw [Bool.eq_iff_iff, Table.any_eq_true]
  constructor
  · rintro ⟨l', hl', found⟩
    rw [Bool.and_eq_true, beq_iff_eq] at found
    rw [← h.link_eq hl' found.1]
    exact found.2
  · intro found
    refine ⟨l, h.link_mem.1, ?_⟩
    rw [found, h.link_mem.2, Bool.and_true]
    exact beq_self_eq_true _

/-- A question about the intent is one about its row. -/
theorem any_intent (h : Shows c links intents l i) (p : PaymentIntent → Bool) :
    intents.any (fun i => i.id == c.intentId && p i) = p i := by
  rw [Bool.eq_iff_iff, Table.any_eq_true]
  constructor
  · rintro ⟨i', hi', found⟩
    rw [Bool.and_eq_true, beq_iff_eq] at found
    rw [← h.intent_eq hi' found.1]
    exact found.2
  · intro found
    refine ⟨i, h.intent_mem.1, ?_⟩
    rw [found, h.intent_mem.2, Bool.and_true]
    exact beq_self_eq_true _

end Shows

end Rows

/-! ### The outbox of a payment -/

section Outbox

variable (D : Digests) (c : Checkout)

/-- No `payment.paid` event yet. -/
def Unheard (events : Table Event) : Prop :=
  ∀ e ∈ events, e.id ≠ c.paidEvent D ∧ c.heardBy e = false

/-- One `payment.paid` event. -/
def Heard (events : Table Event) : Prop :=
  (∃ e ∈ events, e.id = c.paidEvent D) ∧ (events.filter c.heardBy).length = 1

variable {D c} {events : Table Event} {db db' : Db} {e : Event}

theorem Unheard.insert (h : Unheard D c events) (id : e.id = c.paidEvent D)
    (heard : c.heardBy e = true) : Heard D c (events.insertOrIgnore e) := by
  have fits : events.Fits e := by
    intro e' he'
    show (e'.id == e.id) = false
    rw [id]
    exact beq_eq_false_iff_ne.2 (h e' he').1
  have rows := Table.insertOrIgnore_rows_of_fits fits
  refine ⟨⟨e, (Table.mem_of_rows_append rows).2 (.inr rfl), id⟩, ?_⟩
  have before : events.rows.filter c.heardBy = [] := by
    rw [List.filter_eq_nil_iff]
    intro e' he'
    rw [(h e' he').2]
    decide
  rw [Table.filter, rows, List.filter_append, before, List.filter_singleton, heard]
  rfl

theorem Heard.insert (h : Heard D c events) (id : e.id = c.paidEvent D) :
    events.insertOrIgnore e = events := by
  obtain ⟨e', he', id'⟩ := h.1
  refine Table.insertOrIgnore_of_not_fits fun fits => ?_
  have apart : (e'.id == e.id) = false := fits e' he'
  rw [id, id', beq_self_eq_true] at apart
  cases apart

theorem insertDelivery_eq {eventId : EventId} {d : PlannedDelivery}
    (h : db.insertDelivery eventId d = some db') :
    ∃ deliveries, db' = { db with deliveries } := by
  unfold Db.insertDelivery at h
  split at h
  · split at h
    · exact ⟨_, (Option.some.inj h).symm⟩
    · cases h
  · exact ⟨db.deliveries, (Option.some.inj h).symm⟩

theorem insertDeliveries_eq {eventId : EventId} {ds : List PlannedDelivery}
    (h : db.insertDeliveries eventId ds = some db') :
    ∃ deliveries, db' = { db with deliveries } := by
  induction ds generalizing db with
  | nil => exact ⟨db.deliveries, (Option.some.inj h).symm⟩
  | cons d ds ih =>
    obtain ⟨db₁, first, rest⟩ := Option.bind_eq_some_iff.1 h
    obtain ⟨deliveries, rfl⟩ := insertDelivery_eq first
    obtain ⟨deliveries', rfl⟩ := ih rest
    exact ⟨deliveries', rfl⟩

/-- Deliveries that are there already are left. -/
theorem insertDeliveries_of_present {eventId : EventId} {ds : List PlannedDelivery}
    (present : (∃ e ∈ db.events, e.id = eventId) → ∀ d ∈ ds, ∃ r ∈ db.deliveries,
      r.eventId = eventId ∧ r.endpointId = d.endpointId) :
    db.insertDeliveries eventId ds = some db := by
  induction ds with
  | nil => rfl
  | cons d ds ih =>
    have skipped : db.insertDelivery eventId d = some db := by
      unfold Db.insertDelivery
      refine if_neg fun new => ?_
      rw [Bool.and_eq_true, decide_eq_true_eq, Table.any_eq_true] at new
      obtain ⟨⟨e, he, id⟩, fits⟩ := new
      obtain ⟨r, hr, event, endpoint⟩ := present ⟨e, he, beq_iff_eq.1 id⟩ d List.mem_cons_self
      have apart := fits r hr
      simp [Row.clash, Db.deliveryRow, event, endpoint] at apart
    have rest := ih fun he d' hd' => present he d' (List.mem_cons_of_mem _ hd')
    show (db.insertDelivery eventId d).bind (fun db => db.insertDeliveries eventId ds) = _
    rw [skipped]
    exact rest

end Outbox

/-! ### What the two rows say together -/

section Coherence

/-- The rows of a checkout in the runs in which they agree.  The intent goes first: a link is
paid by the transaction that its intent is paid by, and a canceled intent has a free link. -/
structure Coherent (D : Digests) (c : Checkout) (db : Db) (l : PaymentLink)
    (i : PaymentIntent) : Prop where
  shown : Shows c db.store.links db.store.intents l i
  unpaid : i.status ≠ .paid → l.status = .pending ∧ Unheard D c db.events
  paid : i.status = .paid → (l.status = .paid → l.txHash = i.txHash) ∧ Heard D c db.events
  canceled : i.status = .canceled → l.paymentClaim = none

variable {D : Digests} {c : Checkout} {db db' : Db} {l : PaymentLink} {i : PaymentIntent}

theorem coherent_of_opened (h : Opened D c db) : ∃ l i, Coherent D c db l i := by
  obtain ⟨l, hl, lid, pending, free⟩ := h.link
  obtain ⟨i, hi, iid, backs, awaiting⟩ := h.intent
  have foundLink : db.store.links.find? (·.id == c.linkId) = some l := by
    refine Table.find?_of_key hl (beq_iff_eq.2 lid) fun l' hl' => ?_
    show (l'.id == l.id) = true
    rw [lid]
    exact hl'
  have foundIntent : db.store.intents.find? (·.id == c.intentId) = some i := by
    refine Table.find?_of_key hi (beq_iff_eq.2 iid) fun i' hi' => ?_
    show (i'.id == i.id) = true
    rw [iid]
    exact hi'
  refine ⟨l, i, ⟨foundLink, foundIntent, backs⟩, fun _ => ⟨pending, h.unheard⟩, ?_, fun _ => free⟩
  intro paid
  rw [awaiting] at paid
  cases paid

namespace Coherent

theorem agrees (h : Coherent D c db l i) : c.Agrees db := by
  intro l' hl' id paid tx
  obtain rfl := h.shown.link_eq hl' id
  have flipped : i.status = .paid := by
    by_contra unpaid
    rw [(h.unpaid unpaid).1] at paid
    cases paid
  refine ⟨⟨i, h.shown.intent_mem.1, h.shown.intent_mem.2, flipped, ?_⟩, ?_⟩
  · exact ((h.paid flipped).1 paid).symm
  · exact (h.paid flipped).2.2

theorem spared (h : Coherent D c db l i) : c.Spared db := by
  intro i' hi' id canceled l' hl' lid
  obtain rfl := h.shown.intent_eq hi' id
  obtain rfl := h.shown.link_eq hl' lid
  refine ⟨h.canceled canceled, ?_⟩
  have unpaid : i'.status ≠ .paid := by
    rw [canceled]
    decide
  rw [(h.unpaid unpaid).1]
  decide

/-- The claim of a link is no concern of its intent, unless it is canceled. -/
theorem modify_links (h : Coherent D c db l i) (p : PaymentLink → Bool)
    (f : PaymentLink → PaymentLink) (keys : Table.KeepsKeys f)
    (same : ∀ l, (f l).id = l.id ∧ (f l).status = l.status ∧ (f l).txHash = l.txHash)
    (free : p l = true → i.status = .canceled → (f l).paymentClaim = none) {store : World}
    (links : store.links = db.store.links.modify p f keys)
    (intents : store.intents = db.store.intents) :
    Coherent D c { db with store } (if p l then f l else l) i where
  shown := by
    show Shows c store.links store.intents _ _
    rw [links, intents]
    exact h.shown.modify_links p keys fun l => (same l).1
  unpaid unpaid := by
    refine ⟨?_, (h.unpaid unpaid).2⟩
    rw [← (h.unpaid unpaid).1]
    split
    · exact (same l).2.1
    · rfl
  paid paid := by
    refine ⟨?_, (h.paid paid).2⟩
    split
    · rw [(same l).2.1, (same l).2.2]
      exact (h.paid paid).1
    · exact (h.paid paid).1
  canceled canceled := by
    split
    · exact free ‹_› canceled
    · exact h.canceled canceled

/-- What the calls do to the endpoints and the deliveries is no concern of the rows. -/
theorem of_endpoints (h : Coherent D c db l i) (endpoints : Table WebhookEndpoint)
    (deliveries : Table WebhookDelivery) :
    Coherent D c { db with endpoints, deliveries } l i :=
  ⟨h.shown, h.unpaid, h.paid, h.canceled⟩

end Coherent

/-! ### One call after the other -/

theorem coherent_claim (h : Coherent D c db l i) (q : RequestId) (owner : Hash)
    (expiresAt now : Timestamp) :
    ∃ l', Coherent D c { db with store := (db.store.claimLink q c.linkId owner expiresAt now).2 }
      l' i := by
  -- an intent that is canceled stands in the way
  have free : db.store.claimable c.linkId owner now l = true → i.status ≠ .canceled := by
    intro claimable canceled
    unfold World.claimable at claimable
    rw [Bool.and_eq_true, Bool.not_eq_true', Table.any_eq_false] at claimable
    have blocks := claimable.2 i h.shown.intent_mem.1
    simp [World.intentBlocks, h.shown.backs, canceled] at blocks
  unfold World.claimLink
  split
  · exact ⟨_, h.modify_links (db.store.claimable c.linkId owner now)
      (fun l =>
        { l with
          paymentClaim := some owner, paymentClaimExpiresAt := some expiresAt
          paymentClaimTxHash := none })
      ⟨fun _ _ => rfl⟩ (fun _ => ⟨rfl, rfl, rfl⟩)
      (fun claimable canceled => absurd canceled (free claimable)) rfl rfl⟩
  · exact ⟨l, h⟩

theorem coherent_broadcast (h : Coherent D c db l i) (owner txHash : Hash) :
    ∃ l', Coherent D c { db with store := db.store.markBroadcast c.linkId owner txHash } l' i :=
  ⟨_, h.modify_links
    (fun l => l.id == c.linkId && l.status == .pending && l.paymentClaim == some owner)
    (fun l => { l with paymentClaimTxHash := some txHash, paymentClaimExpiresAt := none })
    ⟨fun _ _ => rfl⟩ (fun _ => ⟨rfl, rfl, rfl⟩) (fun _ canceled => h.canceled canceled) rfl rfl⟩

theorem coherent_release (h : Coherent D c db l i) (owner : Hash) (allowBroadcast : Bool) :
    ∃ l', Coherent D c { db with store := db.store.releaseLink c.linkId owner allowBroadcast }
      l' i :=
  ⟨_, h.modify_links (World.releasable c.linkId owner allowBroadcast)
    (fun l =>
      { l with
        paymentClaim := none, paymentClaimExpiresAt := none, paymentClaimTxHash := none })
    ⟨fun _ _ => rfl⟩ (fun _ => ⟨rfl, rfl, rfl⟩) (fun _ _ => rfl) rfl rfl⟩

theorem coherent_cancel (h : Coherent D c db l i) (merchantId : MerchantId) :
    ∃ i', Coherent D c (db.updatePaymentIntentStatus c.intentId merchantId .canceled).2 l i' := by
  refine ⟨_, h.shown.modify_intents _ ({ · with status := .canceled }) ⟨fun _ _ => rfl⟩
    fun _ => ⟨rfl, rfl⟩, ?_, ?_, ?_⟩
  all_goals split
  · rename_i found
    simp only [Bool.and_eq_true, beq_iff_eq] at found
    intro _
    refine h.unpaid ?_
    rw [found.1.2]
    decide
  · exact h.unpaid
  · intro paid
    cases paid
  · exact h.paid
  · -- no claim on the link
    rename_i found
    intro _
    rw [Bool.and_eq_true, Bool.not_eq_true', Table.any_eq_false] at found
    have unclaimed := found.2 l h.shown.link_mem.1
    simpa [h.shown.backs, h.shown.link_mem.2] using unclaimed
  · exact h.canceled

theorem paidBy_eq (h : Shows c db.store.links db.store.intents l i) (t : Hash) :
    db.paidBy c.intentId t = (i.status == .paid && i.txHash == some t) := by
  rw [← h.any_intent fun i => i.status == .paid && i.txHash == some t]
  unfold Db.paidBy
  simp only [Bool.and_assoc]

/-- The outbox of a payment makes an intent heard that the payment has flipped. -/
theorem coherent_outbox {t : Hash} {p : Preparation}
    (ok : db.eventOutboxStatements (c.plan D p) (some (c.intentId, t)) = some db')
    (shown : Shows c db.store.links db.store.intents l i)
    (unpaid : i.status ≠ .paid → l.status = .pending ∧ Unheard D c db.events)
    (paid : i.status = .paid → (l.status = .paid → l.txHash = i.txHash) ∧
      (Heard D c db.events ∨ Unheard D c db.events ∧ i.txHash = some t))
    (canceled : i.status = .canceled → l.paymentClaim = none) :
    Coherent D c db' l i := by
  obtain ⟨deliveries, rfl⟩ := insertDeliveries_eq ok
  have heardBy : c.heardBy (c.plan D p).event = true := by
    show ("payment.paid" == "payment.paid" && some c.intentId == some c.intentId) = true
    rw [beq_self_eq_true, beq_self_eq_true]
    rfl
  have guard : (Option.all (fun g : Nat × Hash => db.paidBy g.1 g.2) (some (c.intentId, t))) =
      (i.status == .paid && i.txHash == some t) := paidBy_eq shown t
  unfold Db.insertEvent
  rw [guard]
  split
  · rename_i mine
    rw [Bool.and_eq_true, beq_iff_eq, beq_iff_eq] at mine
    refine ⟨shown, fun other => absurd mine.1 other, fun _ => ⟨(paid mine.1).1, ?_⟩, canceled⟩
    rcases (paid mine.1).2 with heard | ⟨unheard, -⟩
    · show Heard D c (db.events.insertOrIgnore _)
      rw [heard.insert rfl]
      exact heard
    · exact unheard.insert rfl heardBy
  · rename_i other
    refine ⟨shown, unpaid, fun now => ⟨(paid now).1, ?_⟩, canceled⟩
    rcases (paid now).2 with heard | ⟨-, mine⟩
    · exact heard
    · simp [now, mine] at other

theorem coherent_markPaid (h : Coherent D c db l i) {t : Hash} {p : Preparation}
    {written : Bool}
    (ok : db.markPaymentIntentPaidWithOutbox c.intentId t (c.plan D p) = some (written, db')) :
    ∃ i', Coherent D c db' l i' := by
  obtain ⟨db₁, outbox, same⟩ := Option.map_eq_some_iff.1 ok
  obtain ⟨-, rfl⟩ := Prod.mk.inj same
  refine ⟨_, coherent_outbox outbox (h.shown.modify_intents
    (fun i => i.id == c.intentId && i.status == .awaitingPayment)
    (fun i => { i with status := .paid, txHash := some t }) ⟨fun _ _ => rfl⟩
    fun _ => ⟨rfl, rfl⟩) ?_ ?_ ?_⟩
  all_goals split
  · intro other
    exact absurd rfl other
  · exact h.unpaid
  · rename_i payable
    rw [Bool.and_eq_true, beq_iff_eq, beq_iff_eq] at payable
    have unpaid := h.unpaid (by rw [payable.2]; decide)
    intro _
    refine ⟨fun paid => ?_, .inr ⟨unpaid.2, rfl⟩⟩
    rw [unpaid.1] at paid
    cases paid
  · intro paid
    exact ⟨(h.paid paid).1, .inl (h.paid paid).2⟩
  · intro canceled
    cases canceled
  · exact h.canceled

/-- The rows after the first two statements of a settlement. -/
theorem shown_settled (h : Coherent D c db l i) (amount : String) (t : Hash) (paidAt : Timestamp)
    (payer : Nat) (owner : Hash) :
    let s := c.settlement amount t paidAt payer owner
    Shows c (db.store.settleLink s).2.links (db.store.settleLink s).2.intents
      (if World.settleable s l then World.settledLink s l else l)
      (if World.settleable s l && i.status == .awaitingPayment then
        { i with status := .paid, txHash := some t } else i) := by
  intro s
  have links := h.shown.modify_links (World.settleable s) (f := World.settledLink s)
    ⟨fun _ _ => rfl⟩ fun _ => rfl
  have both := links.modify_intents
    (fun i => s.intentId == some i.id && i.status == .awaitingPayment &&
      (db.store.links.modify (World.settleable s) (World.settledLink s) ⟨fun _ _ => rfl⟩).any
        fun l => l.id == s.id && l.status == .paid && l.txHash == some s.txHash)
    (fun i => { i with status := .paid, txHash := some s.txHash }) ⟨fun _ _ => rfl⟩
    fun _ => ⟨rfl, rfl⟩
  have asked := links.any_link fun l => l.status == .paid && l.txHash == some t
  simp only [← Bool.and_assoc] at asked
  have mine : (s.intentId == some i.id) = true := by
    rw [h.shown.intent_mem.2]
    exact beq_self_eq_true _
  -- the intent is flipped exactly if the link was
  have flips : (s.intentId == some i.id && i.status == .awaitingPayment &&
      (db.store.links.modify (World.settleable s) (World.settledLink s) ⟨fun _ _ => rfl⟩).any
        fun l => l.id == s.id && l.status == .paid && l.txHash == some s.txHash) =
      (World.settleable s l && i.status == .awaitingPayment) := by
    rw [mine, Bool.true_and, Bool.and_comm]
    refine (congrArg (· && i.status == .awaitingPayment) asked).trans ?_
    cases taken : World.settleable s l with
    | true => simp [World.settledLink, s, Checkout.settlement]
    | false =>
      cases awaiting : i.status == .awaitingPayment with
      | false => simp
      | true =>
        have unpaid := h.unpaid (by rw [beq_iff_eq.1 awaiting]; decide)
        simp [unpaid.1]
  rw [flips] at both
  exact both

/-- A link that a settlement takes is the one of the checkout. -/
theorem settleable_iff (h : Coherent D c db l i) {amount : String} {t : Hash}
    {paidAt : Timestamp} {payer : Nat} {owner : Hash} :
    (∃ l ∈ db.store.links,
      World.settleable (c.settlement amount t paidAt payer owner) l = true) ↔
      World.settleable (c.settlement amount t paidAt payer owner) l = true := by
  constructor
  · rintro ⟨l', hl', taken⟩
    have id : l'.id = c.linkId := by
      unfold World.settleable at taken
      rw [Bool.and_eq_true, Bool.and_eq_true, beq_iff_eq] at taken
      exact taken.1.1
    rwa [h.shown.link_eq hl' id] at taken
  · intro taken
    exact ⟨l, h.shown.link_mem.1, taken⟩

theorem coherent_settle (h : Coherent D c db l i) {amount : String} {t : Hash}
    {paidAt : Timestamp} {payer : Nat} {owner : Hash} {p : Preparation} {written : Bool}
    (fair : World.settleable (c.settlement amount t paidAt payer owner) l = true →
      i.status = .awaitingPayment ∨ i.status = .paid ∧ i.txHash = some t)
    (ok : db.settlePaymentLinkWithOutbox (c.settlement amount t paidAt payer owner)
      (some (c.plan D p)) = some (written, db')) :
    ∃ l' i', Coherent D c db' l' i' := by
  obtain ⟨db₁, outbox, same⟩ := Option.map_eq_some_iff.1 ok
  obtain ⟨-, rfl⟩ := Prod.mk.inj same
  have shown := shown_settled h amount t paidAt payer owner
  cases taken : World.settleable (c.settlement amount t paidAt payer owner) l with
  | false =>
    simp only [taken, Bool.false_and, Bool.false_eq_true, if_false] at shown
    exact ⟨l, i, coherent_outbox outbox shown h.unpaid
      (fun paid => ⟨(h.paid paid).1, .inl (h.paid paid).2⟩) h.canceled⟩
  | true =>
    rcases fair taken with awaiting | ⟨paid, mine⟩
    · simp only [taken, awaiting, Bool.true_and, beq_self_eq_true, if_true] at shown
      have unpaid := h.unpaid (by rw [awaiting]; decide)
      refine ⟨_, _, coherent_outbox outbox shown (fun other => absurd rfl other)
        (fun _ => ⟨fun _ => rfl, .inr ⟨unpaid.2, rfl⟩⟩) fun canceled => ?_⟩
      cases canceled
    · -- the transaction is the one that has paid the intent
      have kept : (i.status == PaymentIntentStatus.awaitingPayment) = false := by
        rw [paid]
        rfl
      simp only [taken, kept, Bool.and_false, Bool.false_eq_true, if_true, if_false] at shown
      refine ⟨_, _, coherent_outbox outbox shown (fun other => absurd paid other)
        (fun _ => ⟨fun _ => mine.symm, .inl (h.paid paid).2⟩) fun canceled => ?_⟩
      rw [paid] at canceled
      cases canceled

/-- A settlement that takes no link leaves both rows. -/
theorem settleLink_of_taken (h : Coherent D c db l i) {amount : String} {t : Hash}
    {paidAt : Timestamp} {payer : Nat} {owner : Hash}
    (late : World.settleable (c.settlement amount t paidAt payer owner) l = false) :
    db.store.settleLink (c.settlement amount t paidAt payer owner) = (false, db.store) := by
  have unmatched : db.store.links.changes
      (World.settleable (c.settlement amount t paidAt payer owner)) = 0 := by
    rw [Table.changes_eq_zero]
    intro l' hl'
    rw [← Bool.not_eq_true]
    intro taken
    have mine := (settleable_iff h).1 ⟨l', hl', taken⟩
    rw [late] at mine
    cases mine
  have links : db.store.links.modify
      (World.settleable (c.settlement amount t paidAt payer owner))
      (World.settledLink (c.settlement amount t paidAt payer owner)) ⟨fun _ _ => rfl⟩ =
        db.store.links := Table.modify_of_changes_eq_zero unmatched
  -- the link is not paid while the intent waits
  have intents : db.store.intents.changes (fun i =>
      (c.settlement amount t paidAt payer owner).intentId == some i.id &&
        i.status == .awaitingPayment && db.store.links.any fun l =>
          l.id == c.linkId && l.status == .paid && l.txHash == some t) = 0 := by
    rw [Table.changes_eq_zero]
    intro i' hi'
    rw [← Bool.not_eq_true, Bool.and_eq_true, Bool.and_eq_true]
    rintro ⟨⟨mine, awaiting⟩, paid⟩
    have id : c.intentId = i'.id := by simpa [Checkout.settlement] using mine
    obtain rfl := h.shown.intent_eq hi' id.symm
    have asked := h.shown.any_link fun l => l.status == .paid && l.txHash == some t
    simp only [← Bool.and_assoc] at asked
    rw [asked, (h.unpaid (by rw [beq_iff_eq.1 awaiting]; decide)).1] at paid
    cases paid
  unfold World.settleLink
  rw [unmatched, links]
  exact congrArg (fun intents => (false, { db.store with intents }))
    (Table.modify_of_changes_eq_zero intents)

/-- A settlement that comes too late changes nothing, if no endpoint is new. -/
theorem settle_of_taken (h : Coherent D c db l i) {amount : String} {t : Hash}
    {paidAt : Timestamp} {payer : Nat} {owner : Hash} {p : Preparation}
    (late : World.settleable (c.settlement amount t paidAt payer owner) l = false)
    (told : (∃ e ∈ db.events, e.id = c.paidEvent D) → ∀ d ∈ (c.plan D p).deliveries,
      ∃ r ∈ db.deliveries, r.eventId = c.paidEvent D ∧ r.endpointId = d.endpointId) :
    perform D c (.settle amount t paidAt payer owner p) db = (some false, db) := by
  have quiet : db.insertEvent (c.plan D p).event (some (c.intentId, t)) = db := by
    unfold Db.insertEvent
    split
    · rename_i guard
      have mine : (i.status == .paid && i.txHash == some t) = true := by
        rw [← paidBy_eq h.shown]
        exact guard
      rw [Bool.and_eq_true, beq_iff_eq] at mine
      rw [(h.paid mine.1).2.insert rfl]
    · rfl
  have outbox : db.eventOutboxStatements (c.plan D p) (some (c.intentId, t)) = some db := by
    unfold Db.eventOutboxStatements
    rw [quiet]
    exact insertDeliveries_of_present told
  show afterBatch db (db.settlePaymentLinkWithOutbox _ _) = _
  unfold Db.settlePaymentLinkWithOutbox
  rw [settleLink_of_taken h late]
  show afterBatch db ((db.eventOutboxStatements (c.plan D p) (some (c.intentId, t))).map
    fun db' => (false, db')) = _
  rw [outbox]
  rfl

/-! ### Runs in order -/

/-- One orderly call. -/
theorem coherent_step (call : Call) (h : Coherent D c db l i) (orderly : Orderly D c call db) :
    ∃ l' i', Coherent D c ((checkouts D c).step call db) l' i' := by
  cases call with
  | claim q owner expiresAt now =>
    obtain ⟨l', h'⟩ := coherent_claim h q owner expiresAt now
    exact ⟨l', i, h'⟩
  | broadcast owner txHash =>
    obtain ⟨l', h'⟩ := coherent_broadcast h owner txHash
    exact ⟨l', i, h'⟩
  | release owner allowBroadcast =>
    obtain ⟨l', h'⟩ := coherent_release h owner allowBroadcast
    exact ⟨l', i, h'⟩
  | cancel merchantId =>
    obtain ⟨i', h'⟩ := coherent_cancel h merchantId
    exact ⟨l, i', h'⟩
  | markPaid txHash p =>
    show ∃ l' i', Coherent D c (afterBatch db _).2 l' i'
    cases ok : db.markPaymentIntentPaidWithOutbox c.intentId txHash (c.plan D p) with
    | none => exact ⟨l, i, h⟩
    | some result =>
      obtain ⟨i', h'⟩ := coherent_markPaid h ok
      exact ⟨l, i', h'⟩
  | settle amount txHash paidAt paidBy claimOwner p =>
    show ∃ l' i', Coherent D c (afterBatch db _).2 l' i'
    cases ok : db.settlePaymentLinkWithOutbox
        (c.settlement amount txHash paidAt paidBy claimOwner) (some (c.plan D p)) with
    | none => exact ⟨l, i, h⟩
    | some result =>
      refine coherent_settle h (fun taken => ?_) ok
      dsimp only [Orderly] at orderly
      rw [if_pos ((settleable_iff h).2 taken)] at orderly
      obtain ⟨i', hi', id, payable⟩ := orderly
      rwa [h.shown.intent_eq hi' id] at payable
  | createEndpoint ep => exact ⟨l, i, h.of_endpoints _ _⟩
  | deleteEndpoint merchantId id => exact ⟨l, i, h.of_endpoints _ _⟩

theorem silent_of_coherent (call : Call) (h : Coherent D c db l i)
    (orderly : Orderly D c call db) : Silent D c call db := by
  cases call with
  | settle amount txHash paidAt paidBy claimOwner p =>
    intro answered
    cases taken : World.settleable (c.settlement amount txHash paidAt paidBy claimOwner) l with
    | false =>
      dsimp only [Orderly] at orderly
      have late : ¬∃ l ∈ db.store.links, World.settleable
          (c.settlement amount txHash paidAt paidBy claimOwner) l = true := by
        rw [settleable_iff h, taken]
        decide
      rw [if_neg late] at orderly
      rw [settle_of_taken h taken orderly]
      exact ⟨rfl, rfl, rfl⟩
    | true =>
      -- a settlement that takes the link says so
      exfalso
      have found : 0 < db.store.links.changes
          (World.settleable (c.settlement amount txHash paidAt paidBy claimOwner)) :=
        Table.changes_pos.2 ((settleable_iff h).2 taken)
      change (afterBatch db ((Db.eventOutboxStatements _ _ _).map _)).1 = some false at answered
      revert answered
      cases Db.eventOutboxStatements _ _ _ with
      | none =>
        intro answered
        cases answered
      | some db' =>
        intro answered
        have short : decide (0 < db.store.links.changes
          (World.settleable (c.settlement amount txHash paidAt paidBy claimOwner))) = false :=
            Option.some.inj answered
        rw [decide_eq_true found] at short
        cases short
  | _ => trivial

/-- A checkout is as it was created before the first call, whatever was there before. -/
theorem opened_of_created {link : PaymentLink} {intent : PaymentIntent} {merchantId : MerchantId}
    {plan : EventOutboxPlan}
    (ok : db.createPaymentIntentTransaction link intent merchantId plan = some db')
    (fresh : link.id = c.linkId ∧ link.status = .pending ∧ link.paymentClaim = none)
    (backed : intent.id = c.intentId ∧ intent.linkId = some c.linkId ∧
      intent.status = .awaitingPayment)
    (unheard : Unheard D c db.events)
    (other : plan.event.id ≠ c.paidEvent D ∧ c.heardBy plan.event = false) :
    Opened D c db' := by
  obtain ⟨links, insertedLink, ok⟩ := Option.bind_eq_some_iff.1 ok
  obtain ⟨intents, insertedIntent, ok⟩ := Option.bind_eq_some_iff.1 ok
  obtain ⟨deliveries, rfl⟩ := insertDeliveries_eq ok
  refine ⟨⟨link, ?_, fresh⟩, ⟨intent, ?_, backed⟩, ?_⟩
  · exact (Table.mem_of_rows_append (Table.insert_rows insertedLink).1).2 (.inr rfl)
  · exact (Table.mem_of_rows_append (Table.insert_rows insertedIntent).1).2 (.inr rfl)
  · intro e he
    rcases Table.mem_or_eq_of_mem_insertOrIgnore he with old | rfl
    · exact unheard e old
    · exact other

/-- In an orderly run link and intent agree, the links of canceled intents are spared, and
settlements that take no link are silent. -/
theorem agreement_of_orderly {calls : List Call} (opened : Opened D c db)
    (orderly : (checkouts D c).Along (Orderly D c) db calls) :
    c.Agrees ((checkouts D c).run db calls) ∧ c.Spared ((checkouts D c).run db calls) ∧
      (checkouts D c).Along (Silent D c) db calls := by
  have keeps : ∀ call db, (∃ l i, Coherent D c db l i) → Orderly D c call db →
      ∃ l i, Coherent D c ((checkouts D c).step call db) l i := by
    rintro call db ⟨l, i, h⟩ orderly
    exact coherent_step call h orderly
  obtain ⟨l, i, coherent⟩ := Machine.invariant keeps (coherent_of_opened opened) orderly
  refine ⟨coherent.agrees, coherent.spared, ?_⟩
  refine Machine.along_of_invariant keeps ?_ (coherent_of_opened opened) orderly
  rintro call db ⟨l, i, h⟩ orderly
  exact silent_of_coherent call h orderly

end Coherence

/-! ### Single checkouts -/

section Examples

/-- Digests that tell the texts apart. -/
def plainDigests : Digests where
  event merchantId _ _ objectId := 1000 * merchantId + objectId.getD 0
  delivery eventId endpointId := 1000 * eventId + endpointId

def oneCheckout : Checkout where
  linkId := "L"
  intentId := 1
  merchantId := 7
  mode := .test

def oneLink : PaymentLink where
  id := "L"
  amount := "10"
  status := .pending
  txHash := none
  paidAt := none
  paidBy := none
  paymentClaim := none
  paymentClaimExpiresAt := none
  paymentClaimTxHash := none

def oneIntent : PaymentIntent where
  id := 1
  linkId := some "L"
  status := .awaitingPayment
  txHash := none
  expiresAt := none

/-- The database of a merchant without endpoints, after the creation of the checkout. -/
def oneDb : Db where
  store := { World.initial 0 with
    links := Table.empty.insertOrIgnore oneLink
    intents := Table.empty.insertOrIgnore oneIntent }
  merchantOf _ := 7
  endpoints := .empty
  events := .empty
  deliveries := .empty

def prepared (endpoints : List WebhookEndpoint) : Preparation := ⟨"\x7b\x7d", endpoints, 0⟩

def oneEndpoint : WebhookEndpoint := ⟨3, 7, none, true, .test⟩

def settling (txHash : Hash) (endpoints : List WebhookEndpoint) : Call :=
  .settle "10" txHash 60 5 11 (prepared endpoints)

/-- The link is claimed, the sandbox pays the intent, and the payment is settled. -/
def paidTwice : List Call := [.claim 0 11 90 30, .markPaid 500 (prepared []), settling 600 []]

/-- The intent is canceled, and the payment is settled. -/
def paidAfterAll : List Call := [.cancel 7, settling 600 []]

/-- A settled payment gets an endpoint before it is settled again. -/
def settledBefore : List Call := [settling 600 [], .createEndpoint oneEndpoint]

theorem oneDb_opened : Opened plainDigests oneCheckout oneDb where
  link := ⟨oneLink, by decide, by decide⟩
  intent := ⟨oneIntent, by decide, by decide⟩
  unheard := by decide

/-- A claimed payment that is settled before anything else happens. -/
theorem agreement_of_one_payment :
    oneCheckout.Agrees ((checkouts plainDigests oneCheckout).run oneDb
      [.claim 0 11 90 30, settling 600 []]) ∧
    oneCheckout.Spared ((checkouts plainDigests oneCheckout).run oneDb
      [.claim 0 11 90 30, settling 600 []]) ∧
    (checkouts plainDigests oneCheckout).Along (Silent plainDigests oneCheckout) oneDb
      [.claim 0 11 90 30, settling 600 []] :=
  agreement_of_orderly oneDb_opened
    ⟨trivial, by
      show Orderly plainDigests oneCheckout (settling 600 []) _
      dsimp only [settling, Orderly]
      decide, trivial⟩

/-- The rows disagree after the sandbox has paid a claimed checkout; a payment settles the link
of a canceled intent; and a settlement that answers `false` inserts a delivery. -/
theorem checkout_disagrees :
    Opened plainDigests oneCheckout oneDb ∧
    ¬ oneCheckout.Agrees ((checkouts plainDigests oneCheckout).run oneDb paidTwice) ∧
    ¬ oneCheckout.Spared ((checkouts plainDigests oneCheckout).run oneDb paidAfterAll) ∧
    ¬ Silent plainDigests oneCheckout
      (settling 600 (((checkouts plainDigests oneCheckout).run oneDb
        settledBefore).listEnabledEndpoints 7 .test))
      ((checkouts plainDigests oneCheckout).run oneDb settledBefore) := by
  refine ⟨oneDb_opened, ?_, ?_, ?_⟩
  · unfold Checkout.Agrees
    decide
  · unfold Checkout.Spared
    decide
  · dsimp only [settling, Silent]
    decide

end Examples

end ParmeliaLinks.Pay.Agreement
