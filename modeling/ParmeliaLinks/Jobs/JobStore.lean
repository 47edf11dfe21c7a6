/-
ParmeliaLinks/Jobs/JobStore.lean

The consumer of the payment job queue.  Each delivery of a message claims the
row of its dedupe key in `payment_job_runs`, runs the handler of the job and
records the outcome.  A claim is a lease of sixteen minutes: a delivery that finds
it expired takes the row over.

Every statement may fail, before or after it took effect (`Outcome`), and so may
the handler, which is modelled by its awaits: it touches none of these tables.

The world keeps three history variables, which no statement reads: deliveries
are numbered, `leases` holds the leases that deliveries have taken and not given
up by recording an outcome, and `owner` says whose claim is the current one.
-/
import ParmeliaLinks.Lib.RelyGuarantee
import ParmeliaLinks.Lib.Table
import Mathlib.Algebra.Group.Nat.Defs

namespace ParmeliaLinks.Jobs

abbrev DeliveryId := Nat
abbrev OutboxId := Nat
/-- Milliseconds since the epoch. -/
abbrev Timestamp := Nat

/-! ### Rows -/

/-- A dedupe key: `outbox:<id>`, or any other text. -/
inductive JobKey
  | outbox (id : OutboxId)
  | other (key : String)
  deriving DecidableEq

inductive PaymentJobName
  | attemptReconcile | cctpAttestation | cctpMint | routerWatch | webhookDelivery
  deriving DecidableEq

structure PaymentJobMessage where
  job : PaymentJobName
  jobId : Nat
  dedupeKey : JobKey
  resourceId : Nat

inductive JobStatus | processing | completed | failed
  deriving DecidableEq

/-- `payment_job_runs`. -/
structure JobRun where
  dedupeKey : JobKey
  jobId : Nat
  job : PaymentJobName
  resourceId : Nat
  status : JobStatus
  leaseExpiresAt : Option Timestamp
  attemptCount : Nat
  lastError : Option String
  createdAt : Timestamp
  completedAt : Option Timestamp

instance : Row JobRun where
  clash r r' := r.dedupeKey == r'.dedupeKey
  clash_comm _ _ := Bool.beq_comm

inductive OutboxStatus | pending | enqueued | completed | failed
  deriving DecidableEq

/-- `payment_outbox`, as far as jobs write it. -/
structure OutboxEntry where
  id : OutboxId
  status : OutboxStatus

instance : Row OutboxEntry where
  clash r r' := r.id == r'.id
  clash_comm _ _ := Bool.beq_comm

/-! ### The world -/

/-- A lease that a delivery has taken. -/
structure Lease where
  delivery : DeliveryId
  key : JobKey
  expiresAt : Timestamp

structure World where
  runs : Table JobRun
  outbox : Table OutboxEntry
  clock : Timestamp
  deliveries : Nat
  leases : List Lease
  owner : JobKey → Option DeliveryId

namespace World

def initial (clock : Timestamp) : World where
  runs := .empty
  outbox := .empty
  clock := clock
  deliveries := 0
  leases := []
  owner _ := none

variable (w : World)

/-- The leases without the one of this delivery for this key. -/
def otherLeases (d : DeliveryId) (key : JobKey) : List Lease :=
  w.leases.filter fun l => !(l.delivery == d && l.key == key)

/-- The delivery has claimed the key. -/
def take (d : DeliveryId) (key : JobKey) (expiresAt : Timestamp) : World :=
  { w with
    leases := w.otherLeases d key ++ [⟨d, key, expiresAt⟩]
    owner := fun k => if k = key then some d else w.owner k }

/-- The delivery has recorded an outcome for the key. -/
def release (d : DeliveryId) (key : JobKey) : World :=
  { w with
    leases := w.otherLeases d key
    owner := fun k => if k = key ∧ w.owner k = some d then none else w.owner k }

/-! ### Statements -/

/-- The row that a first claim inserts. -/
def newRun (message : PaymentJobMessage) (timestamp lease : Timestamp) : JobRun where
  dedupeKey := message.dedupeKey
  jobId := message.jobId
  job := message.job
  resourceId := message.resourceId
  status := .processing
  leaseExpiresAt := some lease
  attemptCount := 1
  lastError := none
  createdAt := timestamp
  completedAt := none

/-- `INSERT OR IGNORE INTO payment_job_runs`, and whether a row went in. -/
def insertRun (d : DeliveryId) (message : PaymentJobMessage) (timestamp lease : Timestamp) :
    Bool × World :=
  if h : w.runs.Fits (newRun message timestamp lease) then
    (true, { w with runs := w.runs.push _ h }.take d message.dedupeKey lease)
  else (false, w)

/-- `dedupe_key = ? AND status != 'completed' AND (status = 'failed' OR
lease_expires_at IS NULL OR lease_expires_at <= ?)`. -/
def reclaimable (key : JobKey) (timestamp : Timestamp) (r : JobRun) : Bool :=
  r.dedupeKey == key && r.status != .completed &&
    (r.status == .failed ||
      match r.leaseExpiresAt with
      | none => true
      | some t => t ≤ timestamp)

/-- The row that a claim takes over. -/
def reclaimedRun (message : PaymentJobMessage) (lease : Timestamp) (r : JobRun) : JobRun :=
  { r with
    jobId := message.jobId, job := message.job, resourceId := message.resourceId
    status := .processing, leaseExpiresAt := some lease
    attemptCount := r.attemptCount + 1, lastError := none }

/-- The update of a claim that takes a row over, and whether it found one. -/
def reclaimRun (d : DeliveryId) (message : PaymentJobMessage) (timestamp lease : Timestamp) :
    Bool × World :=
  let runs := w.runs.modify (reclaimable message.dedupeKey timestamp)
    (reclaimedRun message lease) ⟨fun _ _ => rfl⟩
  if 0 < w.runs.changes (reclaimable message.dedupeKey timestamp) then
    (true, { w with runs }.take d message.dedupeKey lease)
  else (false, { w with runs })

def completedRun (timestamp : Timestamp) (r : JobRun) : JobRun :=
  { r with
    status := .completed, leaseExpiresAt := none, lastError := none
    completedAt := r.completedAt <|> some timestamp }

/-- The batch of `completePaymentJob`. -/
def completeRun (d : DeliveryId) (key : JobKey) (timestamp : Timestamp) : World :=
  let runs := w.runs.modify (·.dedupeKey == key) (completedRun timestamp) ⟨fun _ _ => rfl⟩
  let outbox := match key with
    | .outbox id => w.outbox.modify (fun o => o.id == id && o.status != .completed)
        ({ · with status := .completed }) ⟨fun _ _ => rfl⟩
    | .other _ => w.outbox
  { w with runs, outbox }.release d key

/-- `error.message.slice(0, 500)`. -/
def errorText (message : String) : String := String.ofList (message.toList.take 500)

def failedRun (error : String) (r : JobRun) : JobRun :=
  { r with status := .failed, leaseExpiresAt := none, lastError := some (errorText error) }

/-- The update of `failPaymentJob`. -/
def failRun (d : DeliveryId) (key : JobKey) (error : String) : World :=
  let runs := w.runs.modify (·.dedupeKey == key) (failedRun error) ⟨fun _ _ => rfl⟩
  { w with runs }.release d key

end World

/-! ### Operations -/

inductive JobOp
  | now
  | receive
  | insertRun (d : DeliveryId) (message : PaymentJobMessage) (timestamp lease : Timestamp)
  | selectRun (key : JobKey)
  | reclaimRun (d : DeliveryId) (message : PaymentJobMessage) (timestamp lease : Timestamp)
  | completeRun (d : DeliveryId) (key : JobKey) (timestamp : Timestamp)
  | failRun (d : DeliveryId) (key : JobKey) (error : String)
  -- one await of the handler
  | handle (d : DeliveryId) (key : JobKey)

/-- What becomes of an operation that may fail. -/
inductive Outcome
  | done
  | lost (message : String)
  | unacknowledged (message : String)

namespace JobOp

abbrev Reply : JobOp → Type
  | .now => Timestamp
  | .receive => DeliveryId
  | .insertRun .. => Except String Bool
  | .selectRun _ => Except String (Option JobRun)
  | .reclaimRun .. => Except String Bool
  | .completeRun .. => Except String Unit
  | .failRun .. => Except String Unit
  | .handle .. => Except String Unit

/-- An operation with its outcome: it has no effect, or one that the caller may
not learn of. -/
def deliver {α : Type} (x : Outcome) (w : World) (r : α × World) : Except String α × World :=
  match x with
  | .done => (.ok r.1, r.2)
  | .lost m => (.error m, w)
  | .unacknowledged m => (.error m, r.2)

def exec : (o : JobOp) → Outcome → World → Reply o × World
  | .now, _, w => (w.clock, w)
  | .receive, _, w => (w.deliveries, { w with deliveries := w.deliveries + 1 })
  | .insertRun d message timestamp lease, x, w =>
    deliver x w (w.insertRun d message timestamp lease)
  | .selectRun key, x, w => deliver x w (w.runs.find? (·.dedupeKey == key), w)
  | .reclaimRun d message timestamp lease, x, w =>
    deliver x w (w.reclaimRun d message timestamp lease)
  | .completeRun d key timestamp, x, w => deliver x w ((), w.completeRun d key timestamp)
  | .failRun d key error, x, w => deliver x w ((), w.failRun d key error)
  | .handle _ _, x, w => deliver x w ((), w)

end JobOp

/-! ### The consumer -/

abbrev JobHandler := Prog JobOp JobOp.Reply

def perform (o : JobOp) : JobHandler (JobOp.Reply o) := .perform o

/-- `JOB_LEASE_MS`. -/
def jobLeaseMs : Nat := 16 * 60000

inductive JobClaim
  | claimed
  | completed
  | leased (retryAfterSeconds : Nat)

/-- `Math.max(1, Math.ceil((lease - now) / 1000))`. -/
def retryAfter (lease now : Timestamp) : Nat := max 1 ((lease - now + 999) / 1000)

/-- The claim, from the reading of the clock on. -/
def claimPaymentJobAt (d : DeliveryId) (message : PaymentJobMessage) (now : Timestamp) :
    JobHandler JobClaim := do
  let lease := now + jobLeaseMs
  let inserted ← .ofExcept (← perform (.insertRun d message now lease))
  if inserted then return .claimed else
  let existing ← .ofExcept (← perform (.selectRun message.dedupeKey))
  if existing.any (·.status == .completed) then return .completed else
  let leaseExpiresAt := (existing.bind (·.leaseExpiresAt)).getD 0
  if existing.any (·.status == .processing) && now < leaseExpiresAt then
    return .leased (retryAfter leaseExpiresAt now) else
  let reclaimed ← .ofExcept (← perform (.reclaimRun d message now lease))
  if reclaimed then return .claimed else
  let winner ← .ofExcept (← perform (.selectRun message.dedupeKey))
  if winner.any (·.status == .completed) then return .completed else
  let winnerLease := (winner.bind (·.leaseExpiresAt)).getD (now + 1000)
  return .leased (retryAfter winnerLease now)

def claimPaymentJob (d : DeliveryId) (message : PaymentJobMessage) : JobHandler JobClaim := do
  claimPaymentJobAt d message (← perform .now)

def completePaymentJob (d : DeliveryId) (key : JobKey) : JobHandler Unit := do
  let timestamp ← perform .now
  .ofExcept (← perform (.completeRun d key timestamp))

def failPaymentJob (d : DeliveryId) (key : JobKey) (error : String) : JobHandler Unit := do
  .ofExcept (← perform (.failRun d key error))

/-- The handler of the job, as so many awaits, any of which may throw. -/
def runPaymentJob (d : DeliveryId) (key : JobKey) : Nat → JobHandler Unit
  | 0 => return ()
  | awaits + 1 => do
    .ofExcept (← perform (.handle d key))
    runPaymentJob d key awaits

/-- What the consumer tells the queue about a message. -/
inductive Disposition
  | ack
  | retry (delaySeconds : Nat)

/-- A message of the queue: `none` does not parse.  `awaits` is the length of the
handler that it starts. -/
structure QueueMessage where
  body : Option PaymentJobMessage
  attempts : Nat
  awaits : Nat

/-- What a delivery does with its claim. -/
def processClaim (d : DeliveryId) (message : PaymentJobMessage) (awaits : Nat) :
    JobClaim → JobHandler Disposition
  | .completed => do
    completePaymentJob d message.dedupeKey
    return .ack
  | .leased retryAfterSeconds => return .retry (min 900 retryAfterSeconds)
  | .claimed => do
    runPaymentJob d message.dedupeKey awaits
    completePaymentJob d message.dedupeKey
    return .ack

/-- The body of the loop. -/
def consumeMessage (queueMessage : QueueMessage) : JobHandler Disposition :=
  match queueMessage.body with
  | none => return .ack
  | some parsed => do
    let d ← perform .receive
    let processed : JobHandler Disposition := do
      processClaim d parsed queueMessage.awaits (← claimPaymentJob d parsed)
    processed.tryCatch fun error => do
      failPaymentJob d parsed.dedupeKey error
      return .retry (min 900 (15 * 2 ^ min (queueMessage.attempts - 1) 6))

def consumePaymentQueue : List QueueMessage → JobHandler Unit
  | [] => return ()
  | queueMessage :: messages => do
    let _ ← consumeMessage queueMessage
    consumePaymentQueue messages

end ParmeliaLinks.Jobs
