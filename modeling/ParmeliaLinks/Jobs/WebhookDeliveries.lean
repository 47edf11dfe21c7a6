/-
ParmeliaLinks/Jobs/WebhookDeliveries.lean

The job `webhook_delivery`.  A run lists the deliveries of an event, and goes through
them: it takes the lease of a row for thirty seconds, sends the event, and records
what became of it.  A record is only written under the lease.

The count that a run records is the one that it listed, and one more.  Another run may
have recorded its outcome between the listing and the claim, and then the count falls
behind (`count_falls_behind`).  And nothing asks for the lease before the request goes
out: a run that is held up after its claim sends what another one has delivered.

`claims`, `sends` and `outcomes` are history variables.  A lease is named by its owner,
which no two claims share.
-/
import ParmeliaLinks.Jobs.JobStore
import ParmeliaLinks.Lib.Delivery
import ParmeliaLinks.Lib.Invariant

namespace ParmeliaLinks.Jobs.Webhooks

abbrev WebhookId := Nat
abbrev EventId := Nat
abbrev EndpointId := Nat
/-- The random name of a lease. -/
abbrev LeaseOwner := Nat

/-! ### Rows -/

inductive DeliveryStatus | pending | processing | delivered | failed | dead
  deriving DecidableEq

/-- `webhook_deliveries`. -/
structure WebhookDelivery where
  id : WebhookId
  eventId : EventId
  endpointId : EndpointId
  status : DeliveryStatus
  attemptCount : Nat
  leaseOwner : Option LeaseOwner
  leaseExpiresAt : Option Timestamp
  deriving DecidableEq

instance : Row WebhookDelivery where
  clash r r' := r.id == r'.id || (r.eventId == r'.eventId && r.endpointId == r'.endpointId)
  clash_comm r r' := by rw [Bool.beq_comm, Bool.beq_comm (a := r.eventId),
    Bool.beq_comm (a := r.endpointId)]

/-- A lease that was taken: by which thread, and the count that it had listed. -/
structure Claim where
  owner : LeaseOwner
  id : WebhookId
  listed : Nat
  thread : Nat

/-- A request that went out, and whether the row was delivered at that time. -/
structure Send where
  owner : LeaseOwner
  id : WebhookId
  delivered : Bool

structure World where
  deliveries : Table WebhookDelivery
  active : EndpointId → Bool
  clock : Timestamp
  drawn : LeaseOwner
  claims : List Claim
  sends : List Send
  outcomes : List (WebhookId × Bool)

namespace World

def initial (clock : Timestamp) : World where
  deliveries := .empty
  active _ := true
  clock := clock
  drawn := 0
  claims := []
  sends := []
  outcomes := []

variable (w : World)

/-- How many outcomes were recorded for a delivery. -/
def outcomesOf (id : WebhookId) : Nat := w.outcomes.countP (·.1 == id)

def failuresOf (id : WebhookId) : Nat := w.outcomes.countP fun o => o.1 == id && !o.2

/-! ### Statements -/

/-- The query of `listWebhookDeliveryJobs`. -/
def listWebhookDeliveryJobs (resourceId : Nat) : List WebhookDelivery :=
  w.deliveries.filter fun d => (d.id == resourceId || d.eventId == resourceId) &&
    (d.status == .pending || d.status == .processing || d.status == .failed) &&
    w.active d.endpointId

/-- The condition of a claim. -/
def claimable (id : WebhookId) (timestamp : Timestamp) (d : WebhookDelivery) : Bool :=
  d.id == id &&
    ((d.status == .pending || d.status == .failed) &&
        (match d.leaseExpiresAt with
          | none => true
          | some t => t ≤ timestamp) ||
      d.status == .processing &&
        (match d.leaseExpiresAt with
          | none => false
          | some t => t ≤ timestamp))

def claimedDelivery (leaseOwner : LeaseOwner) (leaseUntil : Timestamp) (d : WebhookDelivery) :
    WebhookDelivery :=
  { d with status := .processing, leaseOwner := some leaseOwner, leaseExpiresAt := some leaseUntil }

/-- The update of `claimWebhookDelivery`, and the lease, if a row was found. -/
def claim (thread : Nat) (id : WebhookId) (listed : Nat) (leaseUntil timestamp : Timestamp) :
    Option LeaseOwner × World :=
  if 0 < w.deliveries.changes (claimable id timestamp) then
    (some w.drawn,
      { w with
        deliveries := w.deliveries.modify (claimable id timestamp)
          (claimedDelivery w.drawn leaseUntil) ⟨fun _ _ => rfl⟩
        drawn := w.drawn + 1
        claims := w.claims ++ [⟨w.drawn, id, listed, thread⟩] })
  else (none, w)

/-- The row of the lease. -/
def leased (id : WebhookId) (leaseOwner : LeaseOwner) (d : WebhookDelivery) : Bool :=
  d.id == id && d.leaseOwner == some leaseOwner

def recordedDelivery (attempts : Nat) (delivered : Bool) (d : WebhookDelivery) :
    WebhookDelivery :=
  { d with
    status := if delivered then .delivered else if 8 ≤ attempts then .dead else .failed
    attemptCount := attempts, leaseOwner := none, leaseExpiresAt := none }

/-- The update of `recordWebhookNetworkFailure` and `recordWebhookResponse`. -/
def record (id : WebhookId) (leaseOwner : LeaseOwner) (attempts : Nat) (delivered : Bool) :
    World :=
  { w with
    deliveries := w.deliveries.modify (leased id leaseOwner) (recordedDelivery attempts delivered)
      ⟨fun _ _ => rfl⟩
    outcomes := if 0 < w.deliveries.changes (leased id leaseOwner)
      then w.outcomes ++ [(id, delivered)] else w.outcomes }

/-- The request goes out. -/
def send (id : WebhookId) (leaseOwner : LeaseOwner) : World :=
  let delivered := w.deliveries.any fun d => d.id == id && d.status == .delivered
  { w with sends := w.sends ++ [⟨leaseOwner, id, delivered⟩] }

end World

/-! ### Operations -/

inductive WebhookOp
  | list (resourceId : Nat)
  | now
  | claim (id : WebhookId) (listed : Nat) (leaseUntil timestamp : Timestamp)
  -- an await that touches no table: a secret, a signature, the rest of a response
  | prepare
  | send (id : WebhookId) (leaseOwner : LeaseOwner)
  | response (id : WebhookId) (leaseOwner : LeaseOwner)
  | record (id : WebhookId) (leaseOwner : LeaseOwner) (attempts : Nat) (delivered : Bool)

/-- What becomes of a statement, and the status of the response. -/
structure Answer where
  delivery : Delivery := .done
  status : Nat := 200

namespace WebhookOp

abbrev Reply : WebhookOp → Type
  | .list _ => Except String (List WebhookDelivery)
  | .now => Timestamp
  | .claim .. => Except String (Option LeaseOwner)
  | .prepare => Except String Unit
  | .send .. => Unit
  | .response .. => Except String Nat
  | .record .. => Except String Unit

def exec (thread : Nat) : (o : WebhookOp) → Answer → World → Reply o × World
  | .list resourceId, x, w => x.delivery.deliver w (w.listWebhookDeliveryJobs resourceId, w)
  | .now, _, w => (w.clock, w)
  | .claim id listed leaseUntil timestamp, x, w =>
    x.delivery.deliver w (w.claim thread id listed leaseUntil timestamp)
  | .prepare, x, w => x.delivery.deliver w ((), w)
  | .send id leaseOwner, _, w => ((), w.send id leaseOwner)
  | .response _ _, x, w => x.delivery.deliver w (x.status, w)
  | .record id leaseOwner attempts delivered, x, w =>
    x.delivery.deliver w ((), w.record id leaseOwner attempts delivered)

end WebhookOp

/-! ### The job -/

abbrev WebhookHandler := Prog WebhookOp WebhookOp.Reply

def perform (o : WebhookOp) : WebhookHandler (WebhookOp.Reply o) := .perform o

/-- `response.ok`. -/
def responseOk (status : Nat) : Bool := 200 ≤ status && status ≤ 299

/-- The `fetch`, whose arguments include the signature. -/
def fetchWebhook (id : WebhookId) (leaseOwner : LeaseOwner) : WebhookHandler Nat := do
  .ofExcept (← perform .prepare)
  perform (.send id leaseOwner)
  .ofExcept (← perform (.response id leaseOwner))

/-- The delivery under its lease. -/
def deliverClaimed (delivery : WebhookDelivery) (leaseOwner : LeaseOwner) :
    WebhookHandler Bool := do
  let attempts := delivery.attemptCount + 1
  .ofExcept (← perform .prepare)
  let status ← (fetchWebhook delivery.id leaseOwner).tryCatch fun error => do
    .ofExcept (← perform (.record delivery.id leaseOwner attempts false))
    .throw error
  .ofExcept (← perform .prepare)
  .ofExcept (← perform (.record delivery.id leaseOwner attempts (responseOk status)))
  if responseOk status then return true
  else .throw s!"Webhook returned HTTP {status}"

def deliverOne (delivery : WebhookDelivery) : WebhookHandler Bool := do
  let now ← perform .now
  let claimed ← .ofExcept
    (← perform (.claim delivery.id delivery.attemptCount (now + 30000) now))
  match claimed with
  | none => return false
  | some leaseOwner => deliverClaimed delivery leaseOwner

/-- The loop over the deliveries; `leasePending` says that one of them was taken. -/
def deliverAll : List WebhookDelivery → Bool → WebhookHandler Unit
  | [], leasePending =>
    if leasePending then .throw "WEBHOOK_DELIVERY_LEASE_PENDING" else return ()
  | delivery :: deliveries, leasePending => do
    let delivered ← deliverOne delivery
    deliverAll deliveries (leasePending || !delivered)

def runWebhookDelivery (resourceId : Nat) : WebhookHandler Unit := do
  deliverAll (← .ofExcept (← perform (.list resourceId))) false

/-! ### Side by side -/

/-- Time goes by, an event gets a delivery, an endpoint is switched on or off. -/
inductive Surroundings
  | tick (t : Nat)
  | insert (id : WebhookId) (eventId : EventId) (endpointId : EndpointId)
  | setActive (endpointId : EndpointId) (active : Bool)

/-- A delivery that is new. -/
def newDelivery (id : WebhookId) (eventId : EventId) (endpointId : EndpointId) :
    WebhookDelivery where
  id := id
  eventId := eventId
  endpointId := endpointId
  status := .pending
  attemptCount := 0
  leaseOwner := none
  leaseExpiresAt := none

def Surroundings.move : Surroundings → World → World
  | .tick t, w => { w with clock := w.clock + t }
  | .insert id eventId endpointId, w =>
    { w with deliveries := w.deliveries.insertOrIgnore (newDelivery id eventId endpointId) }
  | .setActive endpointId active, w =>
    { w with active := fun e => if e = endpointId then active else w.active e }

def webhookSystem : System WebhookOp WebhookOp.Reply World Answer Surroundings Nat Unit where
  exec := WebhookOp.exec
  env := Surroundings.move
  body := runWebhookDelivery

abbrev WebhookSchedule := List (Label Answer Surroundings Nat)

end ParmeliaLinks.Jobs.Webhooks
