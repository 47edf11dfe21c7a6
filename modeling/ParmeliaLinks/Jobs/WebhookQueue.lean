/-
ParmeliaLinks/Jobs/WebhookQueue.lean

The webhook deliveries of an event, from its settlement to the end.  The settlement puts
a row into the outbox and a delivery for each endpoint; the producer publishes what it
finds in the outbox, and forgets it then; the consumer runs the job of a message, and
goes on with the deliveries of the event that are not finished.

The queue redelivers a message twenty times, and lets it go then.  A run ends with the
first delivery that fails, so that the redeliveries are shared by all endpoints of the
event, and a delivery needs eight failures to be dead.  A run also counts a delivery as
done whose lease another one has taken in between.  Deliveries are not stranded in the
runs in which neither happens (`World.Orderly`).
-/
import ParmeliaLinks.Jobs.Exclusivity
import ParmeliaLinks.Jobs.WebhookDeliveries
import ParmeliaLinks.Lib.Embed

namespace ParmeliaLinks.Jobs.Queue

open Webhooks (EventId EndpointId WebhookId LeaseOwner WebhookDelivery WebhookHandler
  WebhookOp)

abbrev MessageId := Nat

/-! ### Tables and messages -/

/-- The columns of `payment_outbox` that the producer alone reads and writes; the status is
with the jobs.  The row of an event has its identifier. -/
structure OutboxColumns where
  id : EventId
  attemptCount : Nat
  nextAttemptAt : Timestamp
  createdAt : Timestamp
  deriving DecidableEq

instance : Row OutboxColumns where
  clash r r' := r.id == r'.id
  clash_comm _ _ := Bool.beq_comm

/-- A message of the queue, with the deliveries that it has had; the last one may be under
way. -/
structure QueuedMessage where
  id : MessageId
  event : EventId
  jobId : Nat
  attempts : Nat
  underWay : Bool
  deriving DecidableEq

instance : Row QueuedMessage where
  clash r r' := r.id == r'.id
  clash_comm _ _ := Bool.beq_comm

structure World where
  jobs : Jobs.World
  hooks : Webhooks.World
  columns : Table OutboxColumns
  messages : Table QueuedMessage
  published : Nat

def World.initial (clock : Timestamp) : World where
  jobs := .initial clock
  hooks := .initial clock
  columns := .empty
  messages := .empty
  published := 0

/-- `max_retries`. -/
def maxRetries : Nat := 20

namespace World

variable (w : World)

def unsent (o : OutboxEntry) : Bool := o.status == .pending || o.status == .failed

/-- The query of `listDuePaymentOutbox`. -/
def listDue (limit : Nat) : List OutboxColumns :=
  ((w.columns.filter fun c =>
      (w.jobs.outbox.any fun o => o.id == c.id && unsent o) &&
        decide (c.nextAttemptAt ≤ w.jobs.clock)).mergeSort
    fun c c' => decide (c.createdAt ≤ c'.createdAt)).take (max 1 (min limit 100))

/-- `markPaymentOutboxEnqueued`. -/
def markEnqueued (e : EventId) : World :=
  { w with
    jobs := { w.jobs with
      outbox := w.jobs.outbox.modify (fun o => o.id == e && unsent o)
        ({ · with status := .enqueued }) ⟨fun _ _ => rfl⟩ }
    columns := if w.jobs.outbox.any fun o => o.id == e && unsent o then
        w.columns.modify (·.id == e) (fun c => { c with attemptCount := c.attemptCount + 1 })
          ⟨fun _ _ => rfl⟩
      else w.columns }

/-- `markPaymentOutboxFailed`. -/
def markFailed (e : EventId) (attempt : Nat) : World :=
  { w with
    jobs := { w.jobs with
      outbox := w.jobs.outbox.modify (·.id == e) ({ · with status := .failed })
        ⟨fun _ _ => rfl⟩ }
    columns := w.columns.modify (·.id == e)
      (fun c =>
        { c with
          attemptCount := attempt
          nextAttemptAt := w.jobs.clock + min 300000 (5000 * 2 ^ min attempt 6) })
      ⟨fun _ _ => rfl⟩ }

/-- A message as it is published. -/
def newMessage (e : EventId) : QueuedMessage where
  id := w.published
  event := e
  jobId := w.published
  attempts := 0
  underWay := false

def publish (e : EventId) : World :=
  { w with
    messages := w.messages.insertOrIgnore (w.newMessage e), published := w.published + 1 }

/-- The message is delivered once more. -/
def takenMessage (m : QueuedMessage) : QueuedMessage :=
  { m with attempts := m.attempts + 1, underWay := true }

/-- The queue delivers a message that waits. -/
def takeMessage (id : MessageId) : Option QueuedMessage × World :=
  match w.messages.find? fun m => m.id == id && !m.underWay with
  | none => (none, w)
  | some m =>
    (some (takenMessage m),
      { w with
        messages := w.messages.modify (fun m => m.id == id && !m.underWay) takenMessage
          ⟨fun _ _ => rfl⟩ })

/-- The delivery is acknowledged. -/
def ack (m : QueuedMessage) : World := { w with messages := w.messages.delete (· == m) }

/-- The delivery is over without an acknowledgement: the message waits for the next one, or
it has had them all. -/
def giveBack (m : QueuedMessage) : World :=
  if m.attempts ≤ maxRetries then
    { w with
      messages := w.messages.modify (· == m) ({ · with underWay := false }) ⟨fun _ _ => rfl⟩ }
  else w.ack m

end World

/-! ### Operations -/

inductive QueueOp
  | listDue (limit : Nat)
  | publish (e : EventId)
  | markEnqueued (e : EventId)
  | markFailed (e : EventId) (attempt : Nat)
  | take (id : MessageId)
  | ack (m : QueuedMessage)
  -- the delay only says when the next delivery may come
  | retry (m : QueuedMessage) (delaySeconds : Nat)

abbrev QueueOp.Reply : QueueOp → Type
  | listDue _ => Except String (List OutboxColumns)
  | publish _ => Except String Unit
  | markEnqueued _ => Except String Unit
  | markFailed .. => Except String Unit
  | take _ => Option QueuedMessage
  | ack _ => Unit
  | retry .. => Unit

def QueueOp.exec : (o : QueueOp) → Delivery → World → o.Reply × World
  | listDue limit, x, w => x.deliver w (w.listDue limit, w)
  | publish e, x, w => x.deliver w ((), w.publish e)
  | markEnqueued e, x, w => x.deliver w ((), w.markEnqueued e)
  | markFailed e attempt, x, w => x.deliver w ((), w.markFailed e attempt)
  | take id, _, w => w.takeMessage id
  | ack m, _, w => ((), w.ack m)
  | retry m _, _, w => ((), w.giveBack m)

abbrev Op : Type := JobOp ⊕ (WebhookOp ⊕ QueueOp)

abbrev Reply : Op → Type := Sum.elim JobOp.Reply (Sum.elim WebhookOp.Reply QueueOp.Reply)

/-- What becomes of a statement, and the status of a response. -/
structure Answer where
  delivery : Delivery := .done
  status : Nat := 200

def Answer.outcome (x : Answer) : Outcome :=
  match x.delivery with
  | .done => .done
  | .lost message => .lost message
  | .unacknowledged message => .unacknowledged message

def Answer.hook (x : Answer) : Webhooks.Answer := { delivery := x.delivery, status := x.status }

def exec (i : Nat) : (o : Op) → Answer → World → Reply o × World
  | .inl o, x, w =>
    ((o.exec x.outcome w.jobs).1, { w with jobs := (o.exec x.outcome w.jobs).2 })
  | .inr (.inl o), x, w =>
    ((o.exec i x.hook w.hooks).1, { w with hooks := (o.exec i x.hook w.hooks).2 })
  | .inr (.inr o), x, w => o.exec x.delivery w

abbrev Handler := Prog Op Reply

def issue (o : QueueOp) : Handler o.Reply := .act (.inr (.inr o)) .ret

/-! ### The producer -/

def publishRow (row : OutboxColumns) : Handler Unit := do
  Prog.ofExcept (← issue (.publish row.id))
  Prog.ofExcept (← issue (.markEnqueued row.id))

/-- The body of the loop. -/
def flushRow (row : OutboxColumns) : Handler Unit :=
  (publishRow row).tryCatch fun error => do
    Prog.ofExcept (← issue (.markFailed row.id (row.attemptCount + 1)))
    .throw error

def flushRows : List OutboxColumns → Handler Unit
  | [] => return ()
  | row :: rows => do
    flushRow row
    flushRows rows

def flushPaymentOutbox (limit : Nat) : Handler Unit := do
  flushRows (← Prog.ofExcept (← issue (.listDue limit)))

/-! ### The consumer -/

/-- The message as the job reads it. -/
def QueuedMessage.body (m : QueuedMessage) : PaymentJobMessage where
  job := .webhookDelivery
  jobId := m.jobId
  dedupeKey := .outbox m.event
  resourceId := m.event

/-- What a delivery does with its claim. -/
def processClaim (d : DeliveryId) (m : QueuedMessage) : JobClaim → Handler Disposition
  | .completed => do
    (completePaymentJob d m.body.dedupeKey).inl
    return .ack
  | .leased retryAfterSeconds => return .retry (min 900 retryAfterSeconds)
  | .claimed => do
    (Webhooks.runWebhookDelivery m.event).inl.inr
    (completePaymentJob d m.body.dedupeKey).inl
    return .ack

/-- The body of the `try`. -/
def processMessage (d : DeliveryId) (m : QueuedMessage) : Handler Disposition := do
  processClaim d m (← (claimPaymentJob d m.body).inl)

/-- The body of the loop over the messages. -/
def consumeMessage (d : DeliveryId) (m : QueuedMessage) : Handler Unit := do
  let disposition ← (processMessage d m).tryCatch fun error => do
    (failPaymentJob d m.body.dedupeKey error).inl
    return .retry (min 900 (15 * 2 ^ min (m.attempts - 1) 6))
  match disposition with
  | .ack => issue (.ack m)
  | .retry delaySeconds => issue (.retry m delaySeconds)

/-- One delivery of a message. -/
def consume (id : MessageId) : Handler Unit := do
  match ← issue (.take id) with
  | none => return ()
  | some m => do
    let d ← (perform .receive).inl
    consumeMessage d m

/-! ### The system -/

inductive Call
  | flush (limit : Nat)
  | consume (id : MessageId)

/-- What happens around the handlers. -/
inductive Surroundings
  | tick (milliseconds : Nat)
  /-- A settlement, with its deliveries. -/
  | settle (e : EventId) (deliveries : List (WebhookId × EndpointId))
  | disableEndpoint (endpoint : EndpointId)
  /-- The consumer has crashed, or takes too long. -/
  | expire (m : QueuedMessage)

def insertDeliveries (e : EventId) (deliveries : List (WebhookId × EndpointId))
    (t : Table WebhookDelivery) : Table WebhookDelivery :=
  deliveries.foldl (fun t d => t.insertOrIgnore (Webhooks.newDelivery d.1 e d.2)) t

/-- The batch of a settlement; the event is new, or the batch has no effect. -/
def World.settle (w : World) (e : EventId) (deliveries : List (WebhookId × EndpointId)) : World :=
  if w.jobs.outbox.any (·.id == e) then w
  else
    { w with
      jobs := { w.jobs with outbox := w.jobs.outbox.insertOrIgnore ⟨e, .pending⟩ }
      hooks := { w.hooks with
        deliveries := insertDeliveries e deliveries w.hooks.deliveries }
      columns := w.columns.insertOrIgnore ⟨e, 0, w.jobs.clock, w.jobs.clock⟩ }

def Surroundings.move : Surroundings → World → World
  | tick milliseconds, w =>
    { w with
      jobs := { w.jobs with clock := w.jobs.clock + milliseconds }
      hooks := { w.hooks with clock := w.hooks.clock + milliseconds } }
  | settle e deliveries, w => w.settle e deliveries
  | disableEndpoint endpoint, w =>
    { w with hooks := (Webhooks.Surroundings.setActive endpoint false).move w.hooks }
  | expire m, w => if m.underWay then w.giveBack m else w

def body : Call → Handler Unit
  | .flush limit => flushPaymentOutbox limit
  | .consume id => consume id

/-- Settlements, producers and consumers side by side. -/
def queueSystem : System Op Reply World Answer Surroundings Call Unit where
  exec := exec
  env := Surroundings.move
  body := body

abbrev QueueSchedule := List (Label Answer Surroundings Call)

def start (clock : Timestamp) : Pool Op Reply World Unit := ⟨.initial clock, []⟩

/-! ### What is required, and when it holds -/

namespace World

variable (w : World)

/-- The delivery is finished, or its endpoint is switched off. -/
def Settled (d : WebhookDelivery) : Prop :=
  d.status = .delivered ∨ d.status = .dead ∨ w.hooks.active d.endpointId = false

/-- Nothing is left to do for the event. -/
def Finished (e : EventId) : Prop := ∀ d ∈ w.hooks.deliveries, d.eventId = e → w.Settled d

/-- The producer still has the event. -/
def Unsent (e : EventId) : Prop := ∃ o ∈ w.jobs.outbox, o.id = e ∧ unsent o = true

/-- A message for the event is under way, or has redeliveries left. -/
def Carried (e : EventId) : Prop :=
  ∃ m ∈ w.messages, m.event = e ∧ (m.underWay = true ∨ m.attempts ≤ maxRetries)

/-- The lease of the delivery is live. -/
def Leased (d : WebhookDelivery) : Prop := ∃ t ∈ d.leaseExpiresAt, w.hooks.clock < t

/-- Every delivery that is not finished has work that will visit it. -/
def NoneStranded : Prop :=
  ∀ d ∈ w.hooks.deliveries, ¬ w.Settled d →
    w.Unsent d.eventId ∨ w.Carried d.eventId ∨ w.Leased d

/-- The message has had all its deliveries, but its event is finished, or another message
carries it. -/
def Spare (m : QueuedMessage) : Prop :=
  m ∈ w.messages → maxRetries < m.attempts →
    w.Finished m.event ∨ ∃ m' ∈ w.messages, m' ≠ m ∧ m'.event = m.event

/-- The success that an operation records. -/
def successOf : Op → Delivery → Option (WebhookId × LeaseOwner)
  | .inr (.inl (.record id owner _ true)), .done => some (id, owner)
  | _, _ => none

def givenBack : Op → Option QueuedMessage
  | .inr (.inr (.retry m _)) => some m
  | _ => none

/-- The condition on an operation: no message leaves before its event is finished, and a
success is recorded under the lease of its delivery. -/
def Orderly (o : Op) (x : Answer) : Prop :=
  (∀ s ∈ successOf o x.delivery, ∀ d ∈ w.hooks.deliveries, d.id = s.1 →
      d.leaseOwner = some s.2 ∨ w.Settled d) ∧
    ∀ m ∈ givenBack o, w.Spare m

end World

/-- The condition on a move of the surroundings: the same. -/
def Surroundings.Spares (e : Surroundings) (w : World) : Prop :=
  match e with
  | .expire m => m.underWay = true → w.Spare m
  | _ => True

instance (w : World) (d : WebhookDelivery) : Decidable (w.Settled d) :=
  inferInstanceAs (Decidable (_ ∨ _ ∨ _))

instance (w : World) (e : EventId) : Decidable (w.Finished e) :=
  inferInstanceAs (Decidable (∀ d ∈ w.hooks.deliveries, d.eventId = e → w.Settled d))

instance (w : World) (m : QueuedMessage) : Decidable (w.Spare m) :=
  have : Decidable (m ∈ w.messages) := decidable_of_iff (w.messages.any (· == m) = true) <| by
    simp [Table.any_eq_true]
  have : Decidable (∃ m' ∈ w.messages, m' ≠ m ∧ m'.event = m.event) :=
    decidable_of_iff (w.messages.any (fun m' => m' != m && m'.event == m.event) = true) <| by
      simp [Table.any_eq_true]
  inferInstanceAs (Decidable (_ → _ → _ ∨ _))

instance (w : World) (e : EventId) : Decidable (w.Unsent e) :=
  decidable_of_iff (w.jobs.outbox.any (fun o => o.id == e && World.unsent o) = true) <| by
    simp [Table.any_eq_true, World.Unsent]

instance (w : World) (e : EventId) : Decidable (w.Carried e) :=
  decidable_of_iff (w.messages.any (fun m => m.event == e &&
      (m.underWay || decide (m.attempts ≤ maxRetries))) = true) <| by
    simp [Table.any_eq_true, World.Carried]

instance (w : World) (d : WebhookDelivery) : Decidable (w.Leased d) :=
  inferInstanceAs (Decidable (∃ t ∈ d.leaseExpiresAt, w.hooks.clock < t))

instance (w : World) : Decidable w.NoneStranded :=
  inferInstanceAs (Decidable (∀ d ∈ w.hooks.deliveries, ¬ w.Settled d →
    w.Unsent d.eventId ∨ w.Carried d.eventId ∨ w.Leased d))

instance (w : World) (o : Op) (x : Answer) : Decidable (w.Orderly o x) :=
  inferInstanceAs (Decidable (_ ∧ _))

instance (w : World) : (s : Surroundings) → Decidable (s.Spares w)
  | .tick _ => .isTrue trivial
  | .settle .. => .isTrue trivial
  | .disableEndpoint _ => .isTrue trivial
  | .expire m => inferInstanceAs (Decidable (m.underWay = true → w.Spare m))

def queueConditions : System.Conditions Op World Answer Surroundings Call where
  op _ o x w := w.Orderly o x
  env e w := e.Spares w

/-! ### The invariant -/

section Steps

variable {w w' w'' : World} {e : EventId} {d d' : WebhookDelivery} {m : QueuedMessage}

/-- The outbox has the event. -/
def World.Known (w : World) (e : EventId) : Prop := ∃ o ∈ w.jobs.outbox, o.id = e

/-- A delivery goes on, and is not taken up again once it is finished. -/
structure Goes (d d' : WebhookDelivery) : Prop where
  id : d'.id = d.id
  event : d'.eventId = d.eventId
  endpoint : d'.endpointId = d.endpointId
  final : d.status = .delivered ∨ d.status = .dead → d'.status = d.status

theorem Goes.rfl (d : WebhookDelivery) : Goes d d := ⟨by rfl, by rfl, by rfl, fun _ => by rfl⟩

theorem Goes.trans {d'' : WebhookDelivery} (h : Goes d d') (h' : Goes d' d'') : Goes d d'' where
  id := h'.id.trans h.id
  event := h'.event.trans h.event
  endpoint := h'.endpoint.trans h.endpoint
  final over_ := by
    have same := h.final over_
    rw [h'.final (by rwa [same]), same]

/-- What is enqueued is carried by a message, until its event is finished; so is what is
completed. -/
structure World.Inv (w : World) : Prop where
  leases : ∀ d ∈ w.hooks.deliveries, d.leaseOwner ≠ none → d.status = .processing
  known : ∀ d ∈ w.hooks.deliveries, w.Known d.eventId
  runs : ∀ r ∈ w.jobs.runs, ∀ e, r.dedupeKey = .outbox e →
    w.Known e ∧ (r.status = .completed → w.Finished e)
  handled : ∀ o ∈ w.jobs.outbox, World.unsent o = true ∨ w.Carried o.id ∨ w.Finished o.id
  messages : ∀ m ∈ w.messages, w.Known m.event ∧ (m.underWay = true ∨ m.attempts ≤ maxRetries)
  fresh : ∀ m ∈ w.messages, m.id < w.published

/-- Events stay known, deliveries of a known event go on, and it stays carried or finished. -/
structure World.Evolves (w w' : World) : Prop where
  known : ∀ e, w.Known e → w'.Known e
  rows : Table.Evolves Goes (fun d' => ¬ w.Known d'.eventId) w.hooks.deliveries
    w'.hooks.deliveries
  active : ∀ endpoint, w'.hooks.active endpoint = true → w.hooks.active endpoint = true
  carried : ∀ e, w.Known e → w.Carried e ∨ w.Finished e → w'.Carried e ∨ w'.Finished e

theorem World.Settled.goes (settled : w.Settled d) (goes : Goes d d')
    (active : ∀ endpoint, w'.hooks.active endpoint = true → w.hooks.active endpoint = true) :
    w'.Settled d' := by
  rcases settled with delivered | dead | off
  · exact .inl ((goes.final (.inl delivered)).trans delivered)
  · exact .inr (.inl ((goes.final (.inr dead)).trans dead))
  · refine .inr (.inr (Bool.eq_false_iff.2 fun on => ?_))
    rw [goes.endpoint] at on
    exact Bool.eq_false_iff.1 off (active _ on)

theorem World.Evolves.finished (ev : w.Evolves w') (known : w.Known e) (finished : w.Finished e) :
    w'.Finished e := by
  intro d' hd' event
  rcases ev.rows.backward d' hd' with ⟨d, hd, goes⟩ | new
  · exact (finished d hd (goes.event.symm.trans event)).goes goes ev.active
  · exact absurd known (by rwa [event] at new)

theorem World.Evolves.rfl (w : World) : w.Evolves w where
  known _ h := h
  rows := .rfl Goes.rfl _
  active _ h := h
  carried _ _ h := h

theorem World.Evolves.trans (ev : w.Evolves w') (ev' : w'.Evolves w'') : w.Evolves w'' where
  known e h := ev'.known e (ev.known e h)
  rows := by
    constructor
    · intro d hd
      obtain ⟨d', hd', goes⟩ := ev.rows.forward d hd
      obtain ⟨d'', hd'', goes'⟩ := ev'.rows.forward d' hd'
      exact ⟨d'', hd'', goes.trans goes'⟩
    · intro d'' hd''
      rcases ev'.rows.backward d'' hd'' with ⟨d', hd', goes'⟩ | new
      · rcases ev.rows.backward d' hd' with ⟨d, hd, goes⟩ | new
        · exact .inl ⟨d, hd, goes.trans goes'⟩
        · rw [← goes'.event] at new
          exact .inr new
      · exact .inr fun known => new (ev.known _ known)
  active endpoint h := ev.active endpoint (ev'.active endpoint h)
  carried e known h := ev'.carried e (ev.known e known) (ev.carried e known h)

theorem World.Inv.noneStranded (h : w.Inv) : w.NoneStranded := by
  intro d hd open_
  obtain ⟨o, ho, same⟩ := h.known d hd
  rcases h.handled o ho with unsent | carried | finished
  · exact .inl ⟨o, ho, same, unsent⟩
  · rw [same] at carried
    exact .inr (.inl carried)
  · exact absurd (finished d hd same.symm) open_

/-- The same outbox and runs, with deliveries and messages that have gone on. -/
theorem World.Inv.of_evolves (h : w.Inv) (ev : w.Evolves w')
    (runs : w'.jobs.runs = w.jobs.runs) (outbox : w'.jobs.outbox = w.jobs.outbox)
    (leases : ∀ d ∈ w'.hooks.deliveries, d.leaseOwner ≠ none → d.status = .processing)
    (known : ∀ d ∈ w'.hooks.deliveries, w'.Known d.eventId)
    (messages : ∀ m ∈ w'.messages, w'.Known m.event ∧
      (m.underWay = true ∨ m.attempts ≤ maxRetries))
    (fresh : ∀ m ∈ w'.messages, m.id < w'.published) : w'.Inv where
  leases := leases
  known := known
  runs r hr e key := by
    rw [runs] at hr
    obtain ⟨known, finished⟩ := h.runs r hr e key
    exact ⟨ev.known e known, fun completed => ev.finished known (finished completed)⟩
  handled o ho := by
    rw [outbox] at ho
    exact (h.handled o ho).imp id (ev.carried o.id ⟨o, ho, by rfl⟩)
  messages := messages
  fresh := fresh

/-! Statements of the jobs. -/

/-- What a handler ensures of an operation. -/
def World.Entitles (w : World) (o : Op) : Prop :=
  match o with
  | .inl (.insertRun _ message _ _) => ∀ e, message.dedupeKey = .outbox e → w.Known e
  | .inl (.completeRun _ key _) => ∀ e, key = .outbox e → w.Known e ∧ w.Finished e
  | .inr (.inr (.publish e)) => w.Known e
  | .inr (.inr (.markEnqueued e)) => w.Carried e ∨ w.Finished e
  | .inr (.inr (.ack m)) => w.Finished m.event
  | _ => True

/-- What a statement of the jobs does to its tables. -/
structure JobStep (o : JobOp) (j j' : Jobs.World) : Prop where
  kept : ∀ r ∈ j.outbox, ∃ r' ∈ j'.outbox, r'.id = r.id
  outbox : ∀ r' ∈ j'.outbox, r' ∈ j.outbox ∨
    ∃ d t, o = .completeRun d (.outbox r'.id) t ∧ ∃ r ∈ j.outbox, r.id = r'.id
  runs : ∀ r' ∈ j'.runs,
    (∃ r ∈ j.runs, r.dedupeKey = r'.dedupeKey ∧ (r'.status = .completed → r.status = .completed)) ∨
    (∃ d message t lease, o = .insertRun d message t lease ∧ r'.dedupeKey = message.dedupeKey ∧
      r'.status = .processing) ∨
    ∃ d t, o = .completeRun d r'.dedupeKey t ∧ ∃ r ∈ j.runs, r.dedupeKey = r'.dedupeKey

theorem JobStep.of_runs {o : JobOp} {j j' : Jobs.World} (outbox : j'.outbox = j.outbox)
    (runs : ∀ r' ∈ j'.runs,
      (∃ r ∈ j.runs, r.dedupeKey = r'.dedupeKey ∧
        (r'.status = .completed → r.status = .completed)) ∨
      (∃ d message t lease, o = .insertRun d message t lease ∧ r'.dedupeKey = message.dedupeKey ∧
        r'.status = .processing)) : JobStep o j j' where
  kept r hr := ⟨r, by rwa [outbox], rfl⟩
  outbox r hr := .inl (by rwa [outbox] at hr)
  runs r hr := (runs r hr).imp id .inl

theorem JobStep.same {o : JobOp} {j j' : Jobs.World} (outbox : j'.outbox = j.outbox)
    (runs : j'.runs = j.runs) : JobStep o j j' :=
  .of_runs outbox fun r hr => .inl ⟨r, by rwa [runs] at hr, rfl, id⟩

theorem jobStep_completeRun (j : Jobs.World) (d : DeliveryId) (key : JobKey) (t : Timestamp) :
    JobStep (.completeRun d key t) j (j.completeRun d key t) := by
  have runs : ∀ r' ∈ (j.completeRun d key t).runs, ∃ r ∈ j.runs, (if r.dedupeKey == key then
      Jobs.World.completedRun t r else r) = r' :=
    fun r' hr' => (Table.mem_of_rewritten (by exact rfl)).1 hr'
  constructor
  · intro r hr
    cases key with
    | other key => exact ⟨r, hr, rfl⟩
    | outbox id =>
      refine ⟨_, (Table.mem_of_rewritten (by exact rfl)).2 ⟨r, hr, rfl⟩, ?_⟩
      split <;> rfl
  · intro r' hr'
    cases key with
    | other key => exact .inl hr'
    | outbox id =>
      obtain ⟨r, hr, rfl⟩ := (Table.mem_of_rewritten (by exact rfl)).1 hr'
      split
      · rename_i mine
        simp only [Bool.and_eq_true, beq_iff_eq] at mine
        exact .inr ⟨d, t, by rw [mine.1], r, hr, rfl⟩
      · exact .inl hr
  · intro r' hr'
    obtain ⟨r, hr, rfl⟩ := runs r' hr'
    split
    · rename_i mine
      exact .inr (.inr ⟨d, t, by rw [← beq_iff_eq.1 mine]; rfl, r, hr, rfl⟩)
    · exact .inl ⟨r, hr, rfl, id⟩

theorem jobStep_exec (o : JobOp) (x : Outcome) (j : Jobs.World) : JobStep o j (o.exec x j).2 := by
  have deliver {α : Type} {o : JobOp} {r : α × Jobs.World} (step : JobStep o j r.2) :
      JobStep o j (JobOp.deliver x j r).2 := by
    rcases deliver_world x j r with same | same <;> rw [same]
    · exact .same rfl rfl
    · exact step
  cases o with
  | now => exact .same rfl rfl
  | receive => exact .same rfl rfl
  | selectRun key => exact deliver (.same rfl rfl)
  | handle d key => exact deliver (.same rfl rfl)
  | completeRun d key t => exact deliver (jobStep_completeRun j d key t)
  | insertRun d message t lease =>
    refine deliver ?_
    unfold Jobs.World.insertRun
    split
    · rename_i fits
      refine .of_runs rfl fun r' hr' => ?_
      rcases (Table.mem_of_rows_append (t := j.runs) (by exact rfl)).1 hr' with old | rfl
      · exact .inl ⟨r', old, rfl, id⟩
      · exact .inr ⟨d, message, t, lease, rfl, rfl, rfl⟩
    · exact .same rfl rfl
  | reclaimRun d message t lease =>
    refine deliver ?_
    have rows : ∀ r' ∈ j.runs.modify (Jobs.World.reclaimable message.dedupeKey t)
        (Jobs.World.reclaimedRun message lease) ⟨fun _ _ => rfl⟩, ∃ r ∈ j.runs,
          r.dedupeKey = r'.dedupeKey ∧ (r'.status = .completed → r.status = .completed) := by
      intro r' hr'
      obtain ⟨r, hr, rfl⟩ := Table.mem_modify.1 hr'
      refine ⟨r, hr, ?_⟩
      split
      · exact ⟨rfl, fun completed => by cases completed⟩
      · exact ⟨rfl, id⟩
    unfold Jobs.World.reclaimRun
    dsimp only
    split
    · exact .of_runs rfl fun r' hr' => .inl (rows r' hr')
    · exact .of_runs rfl fun r' hr' => .inl (rows r' hr')
  | failRun d key error =>
    refine deliver (.of_runs rfl fun r' hr' => ?_)
    obtain ⟨r, hr, rfl⟩ := (Table.mem_of_rewritten (t := j.runs) (p := (·.dedupeKey == key))
      (f := Jobs.World.failedRun error) (by exact rfl)).1 hr'
    refine .inl ⟨r, hr, ?_⟩
    split
    · exact ⟨rfl, fun completed => by cases completed⟩
    · exact ⟨rfl, id⟩

/-- A statement of the jobs keeps the invariant. -/
theorem job_keeps (h : w.Inv) {o : JobOp} (entitled : w.Entitles (.inl o)) {j : Jobs.World}
    (step : JobStep o w.jobs j) :
    ({ w with jobs := j } : World).Inv ∧ w.Evolves { w with jobs := j } := by
  have known : ∀ e, w.Known e → ({ w with jobs := j } : World).Known e := by
    rintro e ⟨r, hr, rfl⟩
    exact step.kept r hr
  refine ⟨{ leases := h.leases, known := fun d hd => known _ (h.known d hd), runs := ?_,
            handled := ?_
            messages := fun m hm => ⟨known _ (h.messages m hm).1, (h.messages m hm).2⟩
            fresh := h.fresh },
    { known := known, rows := .rfl Goes.rfl _, active := fun _ h => h, carried := fun _ _ h => h }⟩
  · intro r' hr' e key
    rcases step.runs r' hr' with ⟨r, hr, same, completed⟩ | ⟨d, message, t, lease, rfl, same, status⟩ |
      ⟨d, t, rfl, -⟩
    · obtain ⟨there, finished⟩ := h.runs r hr e (same.trans key)
      exact ⟨known e there, fun done => finished (completed done)⟩
    · refine ⟨known e (entitled e (same.symm.trans key)), fun done => ?_⟩
      rw [status] at done
      cases done
    · obtain ⟨there, finished⟩ := entitled e key
      exact ⟨known e there, fun _ => finished⟩
  · intro r' hr'
    rcases step.outbox r' hr' with old | ⟨d, t, rfl, -⟩
    · exact h.handled r' old
    · exact .inr (.inr (entitled r'.id rfl).2)

/-! Statements of the deliveries. -/

/-- The deliveries go on, and nothing else changes. -/
theorem hooks_keep (h : w.Inv) {v : Webhooks.World}
    (rows : Table.Evolves Goes (fun d' => ¬ w.Known d'.eventId) w.hooks.deliveries v.deliveries)
    (active : ∀ endpoint, v.active endpoint = true → w.hooks.active endpoint = true)
    (leases : ∀ d ∈ v.deliveries, d.leaseOwner ≠ none → d.status = .processing)
    (known : ∀ d ∈ v.deliveries, w.Known d.eventId) :
    ({ w with hooks := v } : World).Inv ∧ w.Evolves { w with hooks := v } := by
  have finished : ∀ e, w.Known e → w.Finished e → ({ w with hooks := v } : World).Finished e := by
    intro e there finished d' hd' event
    rcases rows.backward d' hd' with ⟨d, hd, goes⟩ | new
    · exact (finished d hd (goes.event.symm.trans event)).goes goes active
    · exact absurd there (by rwa [event] at new)
  have ev : w.Evolves { w with hooks := v } :=
    { known := fun _ there => there, rows, active
      carried := fun e there both => both.imp id (finished e there) }
  exact ⟨h.of_evolves ev rfl rfl leases known h.messages h.fresh, ev⟩

/-- The deliveries of the world stay. -/
theorem hooks_stay (h : w.Inv) {v : Webhooks.World} (deliveries : v.deliveries = w.hooks.deliveries)
    (active : v.active = w.hooks.active) :
    ({ w with hooks := v } : World).Inv ∧ w.Evolves { w with hooks := v } := by
  refine hooks_keep h ?_ (fun endpoint on => by rwa [active] at on) ?_ ?_
  · rw [deliveries]
    exact .rfl Goes.rfl _
  · rw [deliveries]
    exact h.leases
  · rw [deliveries]
    exact h.known

theorem claim_keeps (h : w.Inv) (i : Nat) (id : WebhookId) (listed : Nat)
    (leaseUntil t : Timestamp) :
    ({ w with hooks := (w.hooks.claim i id listed leaseUntil t).2 } : World).Inv ∧
      w.Evolves { w with hooks := (w.hooks.claim i id listed leaseUntil t).2 } := by
  unfold Webhooks.World.claim
  split
  · have rows : ∀ d' ∈ w.hooks.deliveries.modify (Webhooks.World.claimable id t)
        (Webhooks.World.claimedDelivery w.hooks.drawn leaseUntil) ⟨fun _ _ => rfl⟩,
        ∃ d ∈ w.hooks.deliveries, (if Webhooks.World.claimable id t d then
          Webhooks.World.claimedDelivery w.hooks.drawn leaseUntil d else d) = d' :=
      fun d' hd' => Table.mem_modify.1 hd'
    refine hooks_keep h (Table.evolves_of_rewritten (by exact rfl) (fun d _ _ => .rfl d)
      fun d _ able => ?_) (fun _ on => on) (fun d' hd' lease => ?_) fun d' hd' => ?_
    · refine ⟨rfl, rfl, rfl, fun final => ?_⟩
      simp only [Webhooks.World.claimable, Bool.and_eq_true, Bool.or_eq_true, beq_iff_eq] at able
      obtain ⟨-, ⟨pending | failed, -⟩ | ⟨processing, -⟩⟩ := able <;> simp_all
    · obtain ⟨d, hd, rfl⟩ := rows d' hd'
      split
      · rfl
      · rename_i other
        rw [if_neg other] at lease
        exact h.leases d hd lease
    · obtain ⟨d, hd, rfl⟩ := rows d' hd'
      split <;> exact h.known d hd
  · exact ⟨h, .rfl w⟩

theorem record_keeps (h : w.Inv) (id : WebhookId) (owner : LeaseOwner) (attempts : Nat)
    (delivered : Bool) :
    ({ w with hooks := w.hooks.record id owner attempts delivered } : World).Inv ∧
      w.Evolves { w with hooks := w.hooks.record id owner attempts delivered } := by
  have rows : ∀ d' ∈ (w.hooks.record id owner attempts delivered).deliveries,
      ∃ d ∈ w.hooks.deliveries, (if Webhooks.World.leased id owner d then
        Webhooks.World.recordedDelivery attempts delivered d else d) = d' :=
    fun d' hd' => (Table.mem_of_rewritten (by exact rfl)).1 hd'
  refine hooks_keep h (Table.evolves_of_rewritten (by exact rfl) (fun d _ _ => .rfl d)
    fun d hd mine => ?_) (fun _ on => on) (fun d' hd' lease => ?_) fun d' hd' => ?_
  · -- what has a lease is not finished
    have lease : d.leaseOwner ≠ none := by
      simp only [Webhooks.World.leased, Bool.and_eq_true, beq_iff_eq] at mine
      rw [mine.2]
      exact nofun
    have processing := h.leases d hd lease
    exact ⟨rfl, rfl, rfl, fun final => by rcases final with s | s <;> rw [processing] at s <;> cases s⟩
  · obtain ⟨d, hd, rfl⟩ := rows d' hd'
    split at lease
    · exact absurd rfl lease
    · rename_i other
      rw [if_neg other]
      exact h.leases d hd lease
  · obtain ⟨d, hd, rfl⟩ := rows d' hd'
    split <;> exact h.known d hd

theorem hook_keeps (h : w.Inv) (i : Nat) (o : WebhookOp) (x : Webhooks.Answer) :
    ({ w with hooks := (o.exec i x w.hooks).2 } : World).Inv ∧
      w.Evolves { w with hooks := (o.exec i x w.hooks).2 } := by
  have deliver {α : Type} {r : α × Webhooks.World}
      (step : ({ w with hooks := r.2 } : World).Inv ∧ w.Evolves { w with hooks := r.2 }) :
      ({ w with hooks := (x.delivery.deliver w.hooks r).2 } : World).Inv ∧
        w.Evolves { w with hooks := (x.delivery.deliver w.hooks r).2 } :=
    x.delivery.deliver_induction (P := fun v =>
      ({ w with hooks := v } : World).Inv ∧ w.Evolves { w with hooks := v }) ⟨h, .rfl w⟩ step
  cases o with
  | list resourceId => exact deliver ⟨h, .rfl w⟩
  | now => exact ⟨h, .rfl w⟩
  | claim id listed leaseUntil t => exact deliver (claim_keeps h i id listed leaseUntil t)
  | prepare => exact deliver ⟨h, .rfl w⟩
  | send id owner => exact hooks_stay h rfl rfl
  | response id owner => exact deliver ⟨h, .rfl w⟩
  | record id owner attempts delivered => exact deliver (record_keeps h id owner attempts delivered)

/-! Statements of the producer, and the queue. -/

/-- The messages change, and everything else stays. -/
theorem messages_keep (h : w.Inv) {messages : Table QueuedMessage} {published : Nat}
    (good : ∀ m ∈ messages, w.Known m.event ∧ (m.underWay = true ∨ m.attempts ≤ maxRetries))
    (fresh : ∀ m ∈ messages, m.id < published)
    (carried : ∀ e, w.Carried e → ({ w with messages, published } : World).Carried e ∨ w.Finished e) :
    ({ w with messages, published } : World).Inv ∧ w.Evolves { w with messages, published } := by
  have ev : w.Evolves { w with messages, published } :=
    { known := fun _ there => there, rows := .rfl Goes.rfl _, active := fun _ on => on
      carried := fun e _ both => both.elim (carried e) .inr }
  exact ⟨h.of_evolves ev rfl rfl h.leases h.known good fresh, ev⟩

theorem publish_keeps (h : w.Inv) (known : w.Known e) :
    (w.publish e).Inv ∧ w.Evolves (w.publish e) := by
  refine messages_keep h (fun m hm => ?_) (fun m hm => ?_) fun e' carried => .inl ?_
  · rcases Table.mem_or_eq_of_mem_insertOrIgnore hm with old | rfl
    · exact h.messages m old
    · exact ⟨known, .inr (Nat.zero_le _)⟩
  · rcases Table.mem_or_eq_of_mem_insertOrIgnore hm with old | rfl
    · exact Nat.lt_succ_of_lt (h.fresh m old)
    · exact Nat.lt_succ_self _
  · obtain ⟨m, hm, rest⟩ := carried
    exact ⟨m, Table.mem_insertOrIgnore_of_mem hm, rest⟩

theorem take_keeps (h : w.Inv) (id : MessageId) :
    (w.takeMessage id).2.Inv ∧ w.Evolves (w.takeMessage id).2 := by
  unfold World.takeMessage
  split
  · exact ⟨h, .rfl w⟩
  · refine messages_keep h (fun m hm => ?_) (fun m hm => ?_) fun e carried => .inl ?_
    · obtain ⟨m₀, hm₀, rfl⟩ := Table.mem_modify.1 hm
      split
      · exact ⟨(h.messages m₀ hm₀).1, .inl rfl⟩
      · exact h.messages m₀ hm₀
    · obtain ⟨m₀, hm₀, rfl⟩ := Table.mem_modify.1 hm
      split <;> exact h.fresh m₀ hm₀
    · obtain ⟨m, hm, event, live⟩ := carried
      refine ⟨_, (Table.mem_of_rewritten (by exact rfl)).2 ⟨m, hm, rfl⟩, ?_⟩
      split
      · exact ⟨event, .inl rfl⟩
      · exact ⟨event, live⟩

theorem ack_keeps (h : w.Inv) (finished : ∀ m' ∈ w.messages, m' = m → w.Finished m.event ∨
      ∃ m' ∈ w.messages, m' ≠ m ∧ m'.event = m.event) :
    (w.ack m).Inv ∧ w.Evolves (w.ack m) := by
  refine messages_keep h (fun m' hm' => h.messages m' (Table.mem_delete.1 hm').1)
    (fun m' hm' => h.fresh m' (Table.mem_delete.1 hm').1) fun e carried => ?_
  obtain ⟨m₀, hm₀, rfl, live⟩ := carried
  by_cases mine : m₀ = m
  · rcases finished m₀ hm₀ mine with finished | ⟨m', hm', other, event⟩
    · rw [mine]
      exact .inr finished
    · refine .inl ⟨m', Table.mem_delete.2 ⟨hm', beq_eq_false_iff_ne.2 other⟩, ?_,
        (h.messages m' hm').2⟩
      rw [mine, event]
  · exact .inl ⟨m₀, Table.mem_delete.2 ⟨hm₀, beq_eq_false_iff_ne.2 mine⟩, rfl, live⟩

theorem giveBack_keeps (h : w.Inv) (spare : w.Spare m) :
    (w.giveBack m).Inv ∧ w.Evolves (w.giveBack m) := by
  unfold World.giveBack
  split
  · rename_i left
    refine messages_keep h (fun m' hm' => ?_) (fun m' hm' => ?_) fun e carried => .inl ?_
    · obtain ⟨m₀, hm₀, rfl⟩ := Table.mem_modify.1 hm'
      split
      · rename_i mine
        rw [beq_iff_eq.1 mine] at hm₀ ⊢
        exact ⟨(h.messages m hm₀).1, .inr left⟩
      · exact h.messages m₀ hm₀
    · obtain ⟨m₀, hm₀, rfl⟩ := Table.mem_modify.1 hm'
      split <;> exact h.fresh m₀ hm₀
    · obtain ⟨m₀, hm₀, event, live⟩ := carried
      refine ⟨_, (Table.mem_of_rewritten (by exact rfl)).2 ⟨m₀, hm₀, rfl⟩, ?_⟩
      split
      · rename_i mine
        rw [beq_iff_eq.1 mine] at event ⊢
        exact ⟨event, .inr left⟩
      · exact ⟨event, live⟩
  · rename_i all
    exact ack_keeps h fun m' hm' same => spare (by rwa [same] at hm') (Nat.lt_of_not_le all)

theorem markEnqueued_keeps (h : w.Inv) (handled : w.Carried e ∨ w.Finished e) :
    (w.markEnqueued e).Inv ∧ w.Evolves (w.markEnqueued e) := by
  have rows : ∀ o' ∈ (w.markEnqueued e).jobs.outbox, ∃ o ∈ w.jobs.outbox,
      (if o.id == e && World.unsent o then { o with status := .enqueued } else o) = o' :=
    fun o' ho' => (Table.mem_of_rewritten (by exact rfl)).1 ho'
  have known : ∀ e', w.Known e' → (w.markEnqueued e).Known e' := by
    rintro e' ⟨o, ho, rfl⟩
    refine ⟨_, (Table.mem_of_rewritten (by exact rfl)).2 ⟨o, ho, rfl⟩, ?_⟩
    split <;> rfl
  refine ⟨{ leases := h.leases, known := fun d hd => known _ (h.known d hd)
            runs := fun r hr e' key => ?_, handled := fun o' ho' => ?_
            messages := fun m hm => ⟨known _ (h.messages m hm).1, (h.messages m hm).2⟩
            fresh := h.fresh },
    { known := known, rows := .rfl Goes.rfl _, active := fun _ on => on
      carried := fun _ _ both => both }⟩
  · exact ⟨known e' (h.runs r hr e' key).1, (h.runs r hr e' key).2⟩
  · obtain ⟨o, ho, rfl⟩ := rows o' ho'
    split
    · rename_i mine
      simp only [Bool.and_eq_true, beq_iff_eq] at mine
      rw [← mine.1] at handled
      exact .inr handled
    · exact h.handled o ho

theorem markFailed_keeps (h : w.Inv) (attempt : Nat) :
    (w.markFailed e attempt).Inv ∧ w.Evolves (w.markFailed e attempt) := by
  have rows : ∀ o' ∈ (w.markFailed e attempt).jobs.outbox, ∃ o ∈ w.jobs.outbox,
      (if o.id == e then { o with status := .failed } else o) = o' :=
    fun o' ho' => (Table.mem_of_rewritten (by exact rfl)).1 ho'
  have known : ∀ e', w.Known e' → (w.markFailed e attempt).Known e' := by
    rintro e' ⟨o, ho, rfl⟩
    refine ⟨_, (Table.mem_of_rewritten (by exact rfl)).2 ⟨o, ho, rfl⟩, ?_⟩
    split <;> rfl
  refine ⟨{ leases := h.leases, known := fun d hd => known _ (h.known d hd)
            runs := fun r hr e' key => ?_, handled := fun o' ho' => ?_
            messages := fun m hm => ⟨known _ (h.messages m hm).1, (h.messages m hm).2⟩
            fresh := h.fresh },
    { known := known, rows := .rfl Goes.rfl _, active := fun _ on => on
      carried := fun _ _ both => both }⟩
  · exact ⟨known e' (h.runs r hr e' key).1, (h.runs r hr e' key).2⟩
  · obtain ⟨o, ho, rfl⟩ := rows o' ho'
    split
    · exact .inl rfl
    · exact h.handled o ho

/-- Every operation keeps the invariant. -/
theorem exec_keeps (h : w.Inv) (i : Nat) (o : Op) (x : Answer) (entitled : w.Entitles o)
    (orderly : w.Orderly o x) : (exec i o x w).2.Inv ∧ w.Evolves (exec i o x w).2 := by
  rcases o with o | o | o
  · exact job_keeps h entitled (jobStep_exec o x.outcome w.jobs)
  · exact hook_keeps h i o x.hook
  · have deliver {α : Type} {r : α × World} (step : r.2.Inv ∧ w.Evolves r.2) :
        (x.delivery.deliver w r).2.Inv ∧ w.Evolves (x.delivery.deliver w r).2 :=
      x.delivery.deliver_induction (P := fun v => v.Inv ∧ w.Evolves v) ⟨h, .rfl w⟩ step
    cases o with
    | listDue limit => exact deliver ⟨h, .rfl w⟩
    | publish e => exact deliver (publish_keeps h entitled)
    | markEnqueued e => exact deliver (markEnqueued_keeps h entitled)
    | markFailed e attempt => exact deliver (markFailed_keeps h attempt)
    | take id => exact take_keeps h id
    | ack m => exact ack_keeps h fun _ _ _ => .inl entitled
    | retry m delaySeconds => exact giveBack_keeps h (orderly.2 m rfl)

/-! The surroundings. -/

theorem mem_insertDeliveries_of_mem {l : List (WebhookId × EndpointId)} {t : Table WebhookDelivery}
    (hd : d ∈ t) : d ∈ insertDeliveries e l t := by
  induction l generalizing t with
  | nil => exact hd
  | cons new l ih => exact ih (Table.mem_insertOrIgnore_of_mem hd)

theorem mem_insertDeliveries {l : List (WebhookId × EndpointId)} {t : Table WebhookDelivery}
    (hd : d ∈ insertDeliveries e l t) : d ∈ t ∨ d.eventId = e ∧ d.leaseOwner = none := by
  induction l generalizing t with
  | nil => exact .inl hd
  | cons new l ih =>
    rcases ih hd with hd | new
    · rcases Table.mem_or_eq_of_mem_insertOrIgnore hd with old | rfl
      · exact .inl old
      · exact .inr ⟨rfl, rfl⟩
    · exact .inr new

/-- The deliveries of a new event come with its row in the outbox. -/
theorem settle_keeps (h : w.Inv) (e : EventId) (deliveries : List (WebhookId × EndpointId)) :
    (w.settle e deliveries).Inv ∧ w.Evolves (w.settle e deliveries) := by
  unfold World.settle
  split
  · exact ⟨h, .rfl w⟩
  rename_i absent
  have absent : ¬ w.Known e := by
    rintro ⟨o, ho, same⟩
    exact absent (Table.any_eq_true.2 ⟨o, ho, beq_iff_eq.2 same⟩)
  have fits : w.jobs.outbox.Fits ⟨e, .pending⟩ := by
    intro o ho
    refine beq_eq_false_iff_ne.2 fun same => absent ⟨o, ho, same⟩
  have mem : ∀ o, o ∈ w.jobs.outbox.insertOrIgnore ⟨e, .pending⟩ ↔
      o ∈ w.jobs.outbox ∨ o = ⟨e, .pending⟩ := fun _ =>
    Table.mem_of_rows_append (Table.insertOrIgnore_rows_of_fits fits)
  generalize hv : ({ w with
      jobs := { w.jobs with outbox := w.jobs.outbox.insertOrIgnore ⟨e, .pending⟩ }
      hooks := { w.hooks with deliveries := insertDeliveries e deliveries w.hooks.deliveries }
      columns := w.columns.insertOrIgnore ⟨e, 0, w.jobs.clock, w.jobs.clock⟩ } : World) = v
  have outbox : ∀ o, o ∈ v.jobs.outbox ↔ o ∈ w.jobs.outbox ∨ o = ⟨e, .pending⟩ := by
    rw [← hv]
    exact mem
  have rows : v.hooks.deliveries = insertDeliveries e deliveries w.hooks.deliveries := by rw [← hv]
  have known : ∀ e', w.Known e' → v.Known e' := by
    rintro e' ⟨o, ho, same⟩
    exact ⟨o, (outbox o).2 (.inl ho), same⟩
  have ev : w.Evolves v := by
    have finished : ∀ e', w.Known e' → w.Finished e' → v.Finished e' := by
      intro e' there finished d hd event
      rw [rows] at hd
      rcases mem_insertDeliveries hd with old | ⟨new, -⟩
      · rw [← hv]
        exact finished d old event
      · rw [← event, new] at there
        exact absurd there absent
    refine ⟨known, ⟨fun d hd => ⟨d, ?_, .rfl d⟩, fun d hd => ?_⟩, fun endpoint on => ?_,
      fun e' there both => ?_⟩
    · rw [rows]
      exact mem_insertDeliveries_of_mem hd
    · rw [rows] at hd
      rcases mem_insertDeliveries hd with old | ⟨new, -⟩
      · exact .inl ⟨d, old, .rfl d⟩
      · rw [new]
        exact .inr absent
    · rw [← hv] at on
      exact on
    · refine both.imp (fun carried => ?_) (finished e' there)
      rw [← hv]
      exact carried
  refine ⟨{ leases := fun d hd lease => ?_, known := fun d hd => ?_, runs := fun r hr e' key => ?_,
            handled := fun o ho => ?_, messages := fun m hm => ?_, fresh := fun m hm => ?_ }, ev⟩
  · rw [rows] at hd
    rcases mem_insertDeliveries hd with old | ⟨-, free⟩
    · exact h.leases d old lease
    · exact absurd free lease
  · rw [rows] at hd
    rcases mem_insertDeliveries hd with old | ⟨new, -⟩
    · exact known _ (h.known d old)
    · exact ⟨⟨e, .pending⟩, (outbox _).2 (.inr rfl), new.symm⟩
  · rw [← hv] at hr
    obtain ⟨there, finished⟩ := h.runs r hr e' key
    exact ⟨known e' there, fun done => ev.finished there (finished done)⟩
  · rcases (outbox o).1 ho with old | rfl
    · exact (h.handled o old).imp id (ev.carried o.id ⟨o, old, rfl⟩)
    · exact .inl rfl
  · rw [← hv] at hm
    exact ⟨known _ (h.messages m hm).1, (h.messages m hm).2⟩
  · rw [← hv] at hm ⊢
    exact h.fresh m hm

theorem move_keeps (h : w.Inv) (s : Surroundings) (spares : s.Spares w) :
    (s.move w).Inv ∧ w.Evolves (s.move w) := by
  cases s with
  | tick milliseconds =>
    refine ⟨{ h with }, { known := fun _ there => there, rows := .rfl Goes.rfl _,
                          active := fun _ on => on, carried := fun _ _ both => both }⟩
  | settle e deliveries => exact settle_keeps h e deliveries
  | disableEndpoint endpoint =>
    refine hooks_keep h (.rfl Goes.rfl _) (fun endpoint' on => ?_) h.leases h.known
    simp only [Webhooks.Surroundings.move] at on
    split at on
    · cases on
    · exact on
  | expire m =>
    simp only [Surroundings.move]
    split
    · rename_i underWay
      exact giveBack_keeps h (spares underWay)
    · exact ⟨h, .rfl w⟩

end Steps

/-! ### The handlers -/

section Handlers

variable {w w' : World} {i : Nat} {e : EventId} {m : QueuedMessage} {d : WebhookDelivery}
  {owner : LeaseOwner} {id : WebhookId}

def queueDiscipline : Discipline Op World Answer Surroundings Call where
  Inv := World.Inv
  Evolves := World.Evolves
  allowed := queueConditions
  refl := .rfl
  trans := .trans

abbrev Handler.wp {α : Type} (p : Handler α) (i : Nat) (Q : Except String α → World → Prop)
    (w : World) : Prop :=
  queueDiscipline.wp queueSystem i p Q w

/-- An operation, and the rest. -/
theorem wp_op {α : Type} {o : Op} {k : Reply o → Handler α} {Q : Except String α → World → Prop}
    (h : w.Inv) (entitled : w.Entitles o)
    (rest : ∀ x w', w.Orderly o x → w'.Inv → (exec i o x w).2.Evolves w' → w.Evolves w' →
      (k (exec i o x w).1).wp i Q w') : Handler.wp (.act o k) i Q w := by
  refine Discipline.wp_act _ _ (fun x orderly => ?_) fun x orderly w' later => ?_
  · obtain ⟨inv, evolves⟩ := exec_keeps h i o x entitled orderly
    exact ⟨⟨inv, evolves⟩, fun _ _ => trivial, trivial⟩
  · have evolves := (exec_keeps h i o x entitled orderly).2
    exact rest x w' orderly later.inv later.evolves (evolves.trans later.evolves)

/-- What a handler leaves behind. -/
def World.After (w : World) {α : Type} (Q : α → World → Prop) (r : Except String α) (w' : World) :
    Prop :=
  w'.Inv ∧ w.Evolves w' ∧ ∀ a, r = .ok a → Q a w'

theorem World.After.error {α : Type} {Q : α → World → Prop} (h : w'.Inv) (ev : w.Evolves w')
    (text : String) : w.After Q (.error text) w' :=
  ⟨h, ev, fun _ same => by cases same⟩

theorem World.After.ok {α : Type} {Q : α → World → Prop} (h : w'.Inv) (ev : w.Evolves w') {a : α}
    (post : Q a w') : w.After Q (.ok a) w' :=
  ⟨h, ev, fun _ same => by cases same; exact post⟩

theorem World.After.since {α : Type} {Q : α → World → Prop} {v : World} {r : Except String α}
    (ev : v.Evolves w) (after : w.After Q r w') : v.After Q r w' :=
  ⟨after.1, ev.trans after.2.1, after.2.2⟩

/-- A run that is read as completed is one of a finished event. -/
theorem selected_finished (h : w.Inv) {x : Answer} {run : Option JobRun}
    (selected : (exec i (.inl (.selectRun (.outbox e))) x w).1 = .ok run)
    (since : (exec i (.inl (.selectRun (.outbox e))) x w).2.Evolves w')
    (done : run.any (·.status == .completed) = true) : w'.Finished e := by
  obtain ⟨found, same⟩ : w.jobs.runs.find? (·.dedupeKey == .outbox e) = run ∧
      (exec i (.inl (.selectRun (.outbox e))) x w).2 = w := by
    simp only [exec, JobOp.exec] at selected ⊢
    cases outcome : x.outcome with
    | done =>
      rw [outcome] at selected
      exact ⟨Except.ok.inj selected, rfl⟩
    | lost text =>
      rw [outcome] at selected
      cases selected
    | unacknowledged text =>
      rw [outcome] at selected
      cases selected
  rw [same] at since
  cases run with
  | none => cases done
  | some r =>
    have key : r.dedupeKey = .outbox e :=
      beq_iff_eq.1 (Table.of_find? (p := fun r : JobRun => r.dedupeKey == .outbox e) found)
    obtain ⟨known, finished⟩ := h.runs r (Table.mem_of_find? found) e key
    exact since.finished known (finished (beq_iff_eq.1 (by simpa using done)))

/-- The queue, and the job, of a claim. -/
theorem wp_claimPaymentJob (h : w.Inv) (delivery : DeliveryId) (known : w.Known m.event) :
    Handler.wp (claimPaymentJob delivery m.body).inl i
      (w.After fun claim w' => claim = .completed → w'.Finished m.event) w := by
  refine wp_op h trivial fun x w₁ _ h₁ _ ev₁ => ?_
  refine wp_op h₁ (fun e same => ?_) fun y w₂ _ h₂ _ ev₂ => ?_
  · cases same
    exact ev₁.known _ known
  generalize (exec i _ y w₁).1 = inserted
  have ev₂ := ev₁.trans ev₂
  cases inserted with
  | error text => exact .error h₂ ev₂ text
  | ok inserted =>
    cases inserted with
    | true => exact .ok h₂ ev₂ fun same => by cases same
    | false =>
      refine wp_op h₂ trivial fun z w₃ _ h₃ since ev₃ => ?_
      have ev₃ := ev₂.trans ev₃
      generalize selected : (exec i _ z w₂).1 = existing
      cases existing with
      | error text => exact .error h₃ ev₃ text
      | ok existing =>
        dsimp only [Prog.ofExcept, Prog.bind_eq, Prog.ret_bind]
        split
        · rename_i done
          exact .ok h₃ ev₃ fun _ => selected_finished h₂ selected since done
        split
        · exact .ok h₃ ev₃ fun same => by cases same
        refine wp_op h₃ trivial fun y w₄ _ h₄ _ ev₄ => ?_
        have ev₄ := ev₃.trans ev₄
        generalize (exec i _ y w₃).1 = reclaimed
        cases reclaimed with
        | error text => exact .error h₄ ev₄ text
        | ok reclaimed =>
          cases reclaimed with
          | true => exact .ok h₄ ev₄ fun same => by cases same
          | false =>
            refine wp_op h₄ trivial fun z w₅ _ h₅ since ev₅ => ?_
            have ev₅ := ev₄.trans ev₅
            generalize selected : (exec i _ z w₄).1 = winner
            cases winner with
            | error text => exact .error h₅ ev₅ text
            | ok winner =>
              dsimp only [Prog.ofExcept, Prog.bind_eq, Prog.ret_bind]
              split
              · rename_i done
                exact .ok h₅ ev₅ fun _ => selected_finished h₄ selected since done
              · exact .ok h₅ ev₅ fun same => by cases same

/-- One handler, and the next. -/
theorem wp_then {α β : Type} {p : Handler α} {f : α → Handler β} {P : α → World → Prop}
    {Q : β → World → Prop} (first : p.wp i (w.After P) w)
    (rest : ∀ a w', w'.Inv → w.Evolves w' → P a w' → (f a).wp i (w'.After Q) w') :
    Handler.wp (p.bind f) i (w.After Q) w := by
  refine queueDiscipline.wp_seq queueSystem first (fun a w' after => ?_) fun text w' after => ?_
  · obtain ⟨inv, ev, post⟩ := after
    exact Discipline.wp_mono _ _ (rest a w' inv ev (post a rfl)) fun r v => .since ev
  · exact .error after.1 after.2.1 text

theorem wp_hook_then {α β : Type} {p : WebhookHandler α} {f : α → WebhookHandler β}
    {P : α → World → Prop} {Q : β → World → Prop}
    (first : Handler.wp p.inl.inr i (w.After P) w)
    (rest : ∀ a w', w'.Inv → w.Evolves w' → P a w' →
      Handler.wp (f a).inl.inr i (w'.After Q) w') :
    Handler.wp (p.bind f).inl.inr i (w.After Q) w := by
  rw [Prog.inl_bind, Prog.inr_bind]
  exact wp_then first rest

/-- Whatever a run of the deliveries does, the invariant stays. -/
theorem wp_hook {α : Type} (p : WebhookHandler α) (h : w.Inv) :
    Handler.wp p.inl.inr i (w.After fun _ _ => True) w := by
  have every : Prog.Uses (fun o => ∀ w : World, w.Entitles o)
      (p.inl.inr : Handler α) :=
    Prog.uses_inr (Prog.uses_inl (Prog.uses_of_forall (fun _ _ => trivial) p))
  refine Discipline.wp_mono _ _ (queueDiscipline.wp_of_uses queueSystem
    (fun o entitled x w' _ inv orderly => ?_) every h) fun r w' kept => ?_
  · obtain ⟨inv, ev⟩ := exec_keeps inv i o x (entitled w') orderly
    exact ⟨⟨inv, ev⟩, fun _ _ => trivial, trivial⟩
  · exact ⟨kept.1, kept.2, fun _ _ => trivial⟩

/-! The deliveries of an event. -/

def World.Has (w : World) (id : WebhookId) : Prop := ∃ d ∈ w.hooks.deliveries, d.id = id

/-- The delivery with this name is settled. -/
def World.RowSettled (w : World) (id : WebhookId) : Prop :=
  ∀ d ∈ w.hooks.deliveries, d.id = id → w.Settled d

theorem World.Has.evolves (there : w.Has id) (ev : w.Evolves w') : w'.Has id := by
  obtain ⟨d, hd, rfl⟩ := there
  obtain ⟨d', hd', goes⟩ := ev.rows.forward d hd
  exact ⟨d', hd', goes.id⟩

theorem World.RowSettled.evolves (h : w.Inv) (there : w.Has id) (settled : w.RowSettled id)
    (ev : w.Evolves w') : w'.RowSettled id := by
  intro d' hd' same
  rcases ev.rows.backward d' hd' with ⟨d, hd, goes⟩ | new
  · exact (settled d hd (goes.id.symm.trans same)).goes goes ev.active
  · -- the row that has the name is of an event that was known
    obtain ⟨d, hd, rfl⟩ := there
    obtain ⟨d₁, hd₁, goes⟩ := ev.rows.forward d hd
    have one : d₁ = d' := by
      refine Table.eq_of_clash hd₁ hd' ?_
      simp [Row.clash, goes.id, same]
    rw [← one, goes.event] at new
    exact absurd (h.known d hd) new

/-- A success settles the row. -/
theorem settled_of_record {x : Answer} {attempts : Nat}
    (orderly : w.Orderly (.inr (.inl (.record id owner attempts true))) x)
    (recorded : (exec i (.inr (.inl (.record id owner attempts true))) x w).1 = .ok ()) :
    (exec i (.inr (.inl (.record id owner attempts true))) x w).2.RowSettled id := by
  have done : x.delivery = .done := by
    simp only [exec, WebhookOp.exec, Answer.hook] at recorded
    cases delivery : x.delivery with
    | done => rfl
    | lost text =>
      rw [delivery] at recorded
      cases recorded
    | unacknowledged text =>
      rw [delivery] at recorded
      cases recorded
  replace orderly := orderly.1 (id, owner) (by rw [done]; rfl)
  intro d' hd' same
  simp only [exec, WebhookOp.exec, Answer.hook, done, Delivery.deliver_done] at hd' ⊢
  obtain ⟨d, hd, rfl⟩ := (Table.mem_of_rewritten (by exact rfl)).1 hd'
  split at same
  · rename_i mine
    rw [if_pos mine]
    exact .inl rfl
  · rename_i other
    rw [if_neg other]
    rcases orderly d hd same with mine | settled
    · refine absurd ?_ other
      simp [Webhooks.World.leased, same, mine]
    · exact settled

theorem wp_deliverClaimed (h : w.Inv) (there : w.Has d.id) :
    Handler.wp (Webhooks.deliverClaimed d owner).inl.inr i
      (w.After fun _ w' => w'.RowSettled d.id) w := by
  refine wp_op h trivial fun x w₁ _ h₁ _ ev₁ => ?_
  generalize (exec i _ x w).1 = reply
  cases reply with
  | error text => exact .error h₁ ev₁ text
  | ok _ =>
  refine Discipline.wp_mono _ _ ?_ fun r v => .since ev₁
  show Handler.wp (Prog.bind (Prog.tryCatch _ _) _).inl.inr i _ w₁
  refine wp_hook_then (wp_hook _ h₁) fun status w₂ h₂ ev₂ _ => ?_
  refine wp_op h₂ trivial fun y w₃ _ h₃ _ ev₃ => ?_
  generalize (exec i _ y w₂).1 = reply
  cases reply with
  | error text => exact .error h₃ ev₃ text
  | ok _ =>
  have there := ((there.evolves ev₁).evolves ev₂).evolves ev₃
  refine wp_op h₃ trivial fun z w₄ orderly h₄ since ev₄ => ?_
  have ev := ev₃.trans ev₄
  generalize recorded : (exec i _ z w₃).1 = reply
  cases reply with
  | error text => exact .error h₄ ev text
  | ok _ =>
    dsimp only [Prog.ofExcept, Prog.bind_eq, Prog.ret_bind]
    split
    · rename_i success
      rw [success] at orderly recorded since
      obtain ⟨inv, kept⟩ := exec_keeps h₃ i (.inr (.inl (.record d.id owner _ true))) z trivial
        orderly
      exact .ok h₄ ev ((settled_of_record orderly recorded).evolves inv (there.evolves kept) since)
    · exact .error h₄ ev _

/-- A delivery that says it is done has settled its row. -/
theorem wp_deliverOne (h : w.Inv) (there : w.Has d.id) :
    Handler.wp (Webhooks.deliverOne d).inl.inr i
      (w.After fun delivered w' => delivered = true → w'.RowSettled d.id) w := by
  refine wp_op h trivial fun x w₁ _ h₁ _ ev₁ => ?_
  refine wp_op h₁ trivial fun y w₂ _ h₂ _ ev₂ => ?_
  have ev₂ := ev₁.trans ev₂
  generalize (exec i _ y w₁).1 = reply
  rcases reply with text | ⟨⟩ | owner
  · exact .error h₂ ev₂ text
  · exact .ok h₂ ev₂ fun same => by cases same
  · refine Discipline.wp_mono _ _ (wp_deliverClaimed h₂ (there.evolves ev₂))
      fun r v after => ?_
    exact ⟨after.1, ev₂.trans after.2.1, fun a same _ => after.2.2 a same⟩

/-- A loop that ends has settled all its rows. -/
theorem wp_deliverAll {l : List WebhookDelivery} {pending : Bool} (h : w.Inv)
    (there : ∀ d ∈ l, w.Has d.id) :
    Handler.wp (Webhooks.deliverAll l pending).inl.inr i
      (w.After fun _ w' => pending = false ∧ ∀ d ∈ l, w'.RowSettled d.id) w := by
  induction l generalizing w pending with
  | nil =>
    cases pending with
    | true => exact .error h (.rfl w) _
    | false => exact .ok h (.rfl w) ⟨rfl, fun d hd => by cases hd⟩
  | cons d l ih =>
    have mine := there d (List.mem_cons_self ..)
    refine wp_hook_then (wp_deliverOne h mine) fun delivered w₁ h₁ ev₁ settled => ?_
    refine Discipline.wp_mono _ _ (ih h₁ fun d' hd' =>
      (there d' (List.mem_cons_of_mem _ hd')).evolves ev₁) fun r v after => ?_
    refine ⟨after.1, after.2.1, fun a same => ?_⟩
    obtain ⟨none, rest⟩ := after.2.2 a same
    simp only [Bool.or_eq_false_iff, Bool.not_eq_false'] at none
    refine ⟨none.1, fun d' hd' => ?_⟩
    rcases List.mem_cons.1 hd' with rfl | hd'
    · exact (settled none.2).evolves h₁ (mine.evolves ev₁) after.2.1
    · exact rest d' hd'

/-- What is not listed is settled. -/
theorem settled_of_not_listed (hd : d ∈ w.hooks.deliveries) (event : d.eventId = e)
    (absent : d ∉ w.hooks.listWebhookDeliveryJobs e) : w.Settled d := by
  have off : ((d.id == e || d.eventId == e) &&
      (d.status == .pending || d.status == .processing || d.status == .failed) &&
        w.hooks.active d.endpointId) = false := by
    refine Bool.eq_false_iff.2 fun on => absent ?_
    exact List.mem_filter.2 ⟨hd, on⟩
  cases active : w.hooks.active d.endpointId with
  | false => exact .inr (.inr active)
  | true =>
    rw [event, active, beq_self_eq_true, Bool.or_true, Bool.true_and, Bool.and_true] at off
    cases status : d.status with
    | delivered => exact .inl status
    | dead => exact .inr (.inl status)
    | pending | processing | failed =>
      rw [status] at off
      cases off

/-- A run that ends has finished the event. -/
theorem wp_runWebhookDelivery (h : w.Inv) (known : w.Known e) :
    Handler.wp (Webhooks.runWebhookDelivery e).inl.inr i
      (w.After fun _ w' => w'.Finished e) w := by
  refine wp_op h trivial fun x w₁ _ h₁ since ev₁ => ?_
  generalize selected : (exec i _ x w).1 = reply
  cases reply with
  | error text => exact .error h₁ ev₁ text
  | ok l =>
    have listed : w.hooks.listWebhookDeliveryJobs e = l :=
      (Delivery.of_deliver_ok (W := Webhooks.World) (x := x.delivery) (w := w.hooks)
        (r := (w.hooks.listWebhookDeliveryJobs e, w.hooks)) selected).1
    have there : ∀ d ∈ l, w.Has d.id := by
      intro d hd
      rw [← listed] at hd
      exact ⟨d, (List.mem_filter.1 hd).1, rfl⟩
    refine Discipline.wp_mono _ _ (wp_deliverAll h₁ fun d hd => (there d hd).evolves ev₁)
      fun r v after => ?_
    obtain ⟨inv, ev₂, post⟩ := after
    have ev := ev₁.trans ev₂
    refine ⟨inv, ev, fun a same d' hd' event => ?_⟩
    rcases ev.rows.backward d' hd' with ⟨d, hd, goes⟩ | new
    · by_cases mem : d ∈ l
      · exact (post a same).2 d mem d' hd' goes.id
      · rw [← listed] at mem
        exact (settled_of_not_listed hd (goes.event.symm.trans event) mem).goes goes ev.active
    · exact absurd known (by rwa [event] at new)

/-! The consumer. -/

theorem wp_completePaymentJob (h : w.Inv) (delivery : DeliveryId) (known : w.Known m.event)
    (finished : w.Finished m.event) :
    Handler.wp (completePaymentJob delivery m.body.dedupeKey).inl i
      (w.After fun _ w' => w'.Finished m.event) w := by
  refine wp_op h trivial fun x w₁ _ h₁ _ ev₁ => ?_
  have finished := ev₁.finished known finished
  refine wp_op h₁ (fun e same => ?_) fun y w₂ _ h₂ _ ev₂ => ?_
  · cases same
    exact ⟨ev₁.known _ known, finished⟩
  · have ev := ev₁.trans ev₂
    generalize (exec i _ y w₁).1 = reply
    cases reply with
    | error text => exact .error h₂ ev text
    | ok _ => exact .ok h₂ ev (ev₂.finished (ev₁.known _ known) finished)

/-- A message that may be acknowledged is one of a finished event. -/
theorem wp_processMessage (h : w.Inv) (delivery : DeliveryId) (known : w.Known m.event) :
    (processMessage delivery m).wp i
      (w.After fun disposition w' => disposition = .ack → w'.Finished m.event) w := by
  refine wp_then (wp_claimPaymentJob h delivery known) fun claim w₁ h₁ ev₁ completed => ?_
  have known := ev₁.known _ known
  cases claim with
  | completed =>
    refine wp_then (wp_completePaymentJob h₁ delivery known (completed rfl))
      fun _ w₂ h₂ _ finished => ?_
    exact .ok h₂ (.rfl w₂) fun _ => finished
  | leased seconds => exact .ok h₁ (.rfl w₁) fun same => by cases same
  | claimed =>
    refine wp_then (wp_runWebhookDelivery h₁ known) fun _ w₂ h₂ ev₂ finished => ?_
    refine wp_then (wp_completePaymentJob h₂ delivery (ev₂.known _ known) finished)
      fun _ w₃ h₃ _ finished => ?_
    exact .ok h₃ (.rfl w₃) fun _ => finished

theorem wp_consumeMessage (h : w.Inv) (delivery : DeliveryId) (known : w.Known m.event) :
    (consumeMessage delivery m).wp i (w.After fun _ _ => True) w := by
  have caught : Handler.wp ((processMessage delivery m).tryCatch fun error => do
      (failPaymentJob delivery m.body.dedupeKey error).inl
      return .retry (min 900 (15 * 2 ^ min (m.attempts - 1) 6))) i
        (w.After fun disposition w' => disposition = .ack → w'.Finished m.event) w := by
    refine (Discipline.wp_tryCatch _ _ _ _ _ _).2
      (Discipline.wp_mono _ _ (wp_processMessage h delivery known) fun r w₁ after => ?_)
    cases r with
    | ok disposition => exact after
    | error text =>
      obtain ⟨h₁, ev₁, -⟩ := after
      show queueDiscipline.wp queueSystem i _ _ w₁
      refine wp_op h₁ trivial fun x w₂ _ h₂ _ ev₂ => ?_
      have ev₂ := ev₁.trans ev₂
      generalize (exec i _ x w₁).1 = reply
      cases reply with
      | error text => exact .error h₂ ev₂ text
      | ok _ => exact .ok h₂ ev₂ fun same => by cases same
  refine wp_then caught fun disposition w₁ h₁ ev₁ finished => ?_
  cases disposition with
  | ack => exact wp_op h₁ (finished rfl) fun _ w₂ _ h₂ _ ev₂ => .ok h₂ ev₂ trivial
  | retry seconds => exact wp_op h₁ trivial fun _ w₂ _ h₂ _ ev₂ => .ok h₂ ev₂ trivial

theorem known_of_take (h : w.Inv) {id : MessageId} (taken : (w.takeMessage id).1 = some m) :
    w.Known m.event := by
  unfold World.takeMessage at taken
  split at taken
  · cases taken
  · rename_i m₀ found
    cases taken
    exact (h.messages m₀ (Table.mem_of_find? found)).1

theorem wp_consume (h : w.Inv) (id : MessageId) :
    (consume id).wp i (w.After fun _ _ => True) w := by
  refine wp_op h trivial fun x w₁ _ h₁ since ev₁ => ?_
  generalize taken : (exec i _ x w).1 = message
  cases message with
  | none => exact .ok h₁ ev₁ trivial
  | some m =>
    have known := ev₁.known _ (known_of_take h taken)
    refine wp_op (o := .inl .receive) h₁ trivial fun y w₂ _ h₂ _ ev₂ => ?_
    exact Discipline.wp_mono _ _ (wp_consumeMessage h₂ _ (ev₂.known _ known))
      fun r v => .since (ev₁.trans ev₂)

/-! The producer. -/

theorem carried_of_publish (h : w.Inv) : (w.publish e).Carried e := by
  refine ⟨w.newMessage e, ?_, rfl, .inr (Nat.zero_le _)⟩
  have fits : w.messages.Fits (w.newMessage e) := fun m hm =>
    beq_eq_false_iff_ne.2 (Nat.ne_of_lt (h.fresh m hm))
  exact (Table.mem_of_rows_append (Table.insertOrIgnore_rows_of_fits fits)).2 (.inr rfl)

/-- What is marked as enqueued has been published. -/
theorem wp_publishRow (h : w.Inv) (row : OutboxColumns) (known : w.Known row.id) :
    (publishRow row).wp i (w.After fun _ _ => True) w := by
  refine wp_op h known fun x w₁ _ h₁ since ev₁ => ?_
  generalize published : (exec i _ x w).1 = reply
  cases reply with
  | error text => exact .error h₁ ev₁ text
  | ok _ =>
    have there : (exec i (.inr (.inr (.publish row.id))) x w).2 = w.publish row.id :=
      (Delivery.of_deliver_ok (W := World) (x := x.delivery) (w := w)
        (r := ((), w.publish row.id)) published).2
    rw [there] at since
    have handled := since.carried _ known (.inl (carried_of_publish h))
    refine wp_op h₁ handled fun y w₂ _ h₂ _ ev₂ => ?_
    have ev := ev₁.trans ev₂
    generalize (exec i _ y w₁).1 = reply
    cases reply with
    | error text => exact .error h₂ ev text
    | ok _ => exact .ok h₂ ev trivial

theorem wp_flushRow (h : w.Inv) (row : OutboxColumns) (known : w.Known row.id) :
    (flushRow row).wp i (w.After fun _ _ => True) w := by
  refine (Discipline.wp_tryCatch _ _ _ _ _ _).2
    (Discipline.wp_mono _ _ (wp_publishRow h row known) fun r w₁ after => ?_)
  cases r with
  | ok _ => exact after
  | error text =>
    obtain ⟨h₁, ev₁, -⟩ := after
    show queueDiscipline.wp queueSystem i _ _ w₁
    refine wp_op h₁ trivial fun x w₂ _ h₂ _ ev₂ => ?_
    generalize (exec i _ x w₁).1 = reply
    cases reply <;> exact .error h₂ (ev₁.trans ev₂) _

theorem wp_flushRows {rows : List OutboxColumns} (h : w.Inv)
    (known : ∀ row ∈ rows, w.Known row.id) :
    (flushRows rows).wp i (w.After fun _ _ => True) w := by
  induction rows generalizing w with
  | nil => exact .ok h (.rfl w) trivial
  | cons row rows ih =>
    refine wp_then (wp_flushRow h row (known row (List.mem_cons_self ..)))
      fun _ w₁ h₁ ev₁ _ => ?_
    exact ih h₁ fun row' hr => ev₁.known _ (known row' (List.mem_cons_of_mem _ hr))

theorem known_of_listed {row : OutboxColumns} {limit : Nat} (hr : row ∈ w.listDue limit) :
    w.Known row.id := by
  have mem := List.mem_mergeSort.1 (List.mem_of_mem_take hr)
  obtain ⟨-, able⟩ := List.mem_filter.1 mem
  obtain ⟨o, ho, both⟩ := Table.any_eq_true.1 (Bool.and_eq_true_iff.1 able).1
  exact ⟨o, ho, beq_iff_eq.1 (Bool.and_eq_true_iff.1 both).1⟩

theorem wp_flushPaymentOutbox (h : w.Inv) (limit : Nat) :
    (flushPaymentOutbox limit).wp i (w.After fun _ _ => True) w := by
  refine wp_op h trivial fun x w₁ _ h₁ _ ev₁ => ?_
  generalize listed : (exec i _ x w).1 = reply
  cases reply with
  | error text => exact .error h₁ ev₁ text
  | ok rows =>
    have known : ∀ row ∈ rows, w₁.Known row.id := by
      intro row hr
      have same : w.listDue limit = rows := (Delivery.of_deliver_ok (W := World) (x := x.delivery)
        (w := w) (r := (w.listDue limit, w)) listed).1
      rw [← same] at hr
      exact ev₁.known _ (known_of_listed hr)
    exact Discipline.wp_mono _ _ (wp_flushRows h₁ known) fun r v => .since ev₁

theorem queue_obeys : queueDiscipline.Obeys queueSystem (fun _ _ => True) where
  env s w h spares := by
    obtain ⟨inv, ev⟩ := move_keeps h s spares
    exact ⟨⟨inv, ev⟩, fun _ => trivial⟩
  call c i w w' _ _ later := by
    cases c with
    | flush limit =>
      exact Discipline.wp_mono _ _ (wp_flushPaymentOutbox later.inv limit) fun _ _ _ => trivial
    | consume id => exact Discipline.wp_mono _ _ (wp_consume later.inv id) fun _ _ _ => trivial

theorem initial_inv (clock : Timestamp) : (World.initial clock).Inv where
  leases _ hd := absurd hd (Table.not_mem_empty _)
  known _ hd := absurd hd (Table.not_mem_empty _)
  runs _ hr := absurd hr (Table.not_mem_empty _)
  handled _ ho := absurd ho (Table.not_mem_empty _)
  messages _ hm := absurd hm (Table.not_mem_empty _)
  fresh _ hm := absurd hm (Table.not_mem_empty _)

end Handlers

/-! ### The result -/

/-- The condition along a run. -/
def AlongOrderly (clock : Timestamp) (ls : QueueSchedule) : Prop :=
  queueSystem.Along queueConditions (start clock) ls

instance (clock : Timestamp) (ls : QueueSchedule) : Decidable (AlongOrderly clock ls) :=
  have (w : World) (i : Nat) (o : Op) (x : Answer) : Decidable (queueConditions.op i o x w) :=
    inferInstanceAs (Decidable (w.Orderly o x))
  have (w : World) (s : Surroundings) : Decidable (queueConditions.env s w) :=
    inferInstanceAs (Decidable (s.Spares w))
  have (c : Call) (w : World) : Decidable (queueConditions.call c w) := .isTrue trivial
  inferInstanceAs (Decidable (queueSystem.Along queueConditions (start clock) ls))

/-- No delivery is stranded in any state of the run. -/
def NoneStrandedAlong (clock : Timestamp) (ls : QueueSchedule) : Prop :=
  ∀ pre post, ls = pre ++ post →
    (queueSystem.runFrom (start clock) pre).world.NoneStranded

/-- In every run that meets the condition, no delivery is stranded. -/
theorem webhooks_not_stranded (clock : Timestamp) (ls : QueueSchedule)
    (h : AlongOrderly clock ls) : NoneStrandedAlong clock ls := by
  rintro pre post rfl
  have sound := Discipline.sound_runFrom queue_obeys
    (Discipline.sound_empty (initial_inv clock)) (System.along_append.1 h).1
  exact sound.inv.noneStranded

/-! Events of one and of three endpoints. -/

/-- The handler takes its steps without a fault. -/
def steps (i n : Nat) : QueueSchedule := List.replicate n (.step i {})

/-- An event is settled, and published. -/
def published (deliveries : List (WebhookId × EndpointId)) : QueueSchedule :=
  ([.env (.settle 7 deliveries), .spawn (.flush 50)] : QueueSchedule) ++ steps 0 3

/-- The endpoint refuses the first delivery, and takes the second. -/
def deliveredLate : QueueSchedule :=
  published [(1, 11)] ++ ([.spawn (.consume 0)] : QueueSchedule) ++
    (List.replicate 15 (.step 1 { status := 500 }) : QueueSchedule) ++
    ([.env (.tick 900000), .spawn (.consume 0)] : QueueSchedule) ++ steps 2 20

theorem webhooks_not_stranded_deliveredLate :
    NoneStrandedAlong 0 deliveredLate ∧
      (queueSystem.runFrom (start 0) deliveredLate).world.Finished 7 ∧
        (queueSystem.runFrom (start 0) deliveredLate).world.messages.rows = [] :=
  ⟨webhooks_not_stranded 0 deliveredLate (by decide +kernel), by decide +kernel,
    by decide +kernel⟩

/-- One delivery of the message, all of whose requests are refused. -/
def refusedRun (i : Nat) : QueueSchedule :=
  ([.env (.tick 900000), .spawn (.consume 0)] : QueueSchedule) ++
    (List.replicate 17 (.step i { status := 500 }) : QueueSchedule)

/-- Three endpoints refuse everything, until the message has had its deliveries. -/
def refusedBy3 : QueueSchedule :=
  published [(1, 11), (2, 12), (3, 13)] ++ (List.range' 1 21).flatMap refusedRun

/-- The first run is held up after its request, and the second one is refused; then the first
one takes its own answer for that of the row, and completes the job. -/
def heldUp : QueueSchedule :=
  published [(1, 11)] ++ ([.spawn (.consume 0)] : QueueSchedule) ++ steps 1 10 ++
    ([.env (.tick 1000000), .env (.expire ⟨0, 7, 0, 1, true⟩),
      .spawn (.consume 0)] : QueueSchedule) ++
    (List.replicate 17 (.step 2 { status := 500 }) : QueueSchedule) ++ steps 1 6 ++
    ([.spawn (.consume 0)] : QueueSchedule) ++ steps 3 8

theorem webhooks_not_stranded_fails :
    ¬ NoneStrandedAlong 0 refusedBy3 ∧ ¬ NoneStrandedAlong 0 heldUp := by
  constructor
  · intro claim
    have none := claim _ [] (List.append_nil _).symm
    revert none
    decide +kernel
  · intro claim
    have none := claim _ [] (List.append_nil _).symm
    revert none
    decide +kernel

end ParmeliaLinks.Jobs.Queue
