/-
ParmeliaLinks/Server/UserEventOutbox.lean

The outbox of user events, and the workers that empty it.  A change of what Home shows
raises the version of the user's Home and adds a `home.invalidate` row in the same
statement, by triggers.  A worker claims a row, reads the version, pushes it to the
devices of the user, and marks all the user's waiting rows delivered: the latest version
stands for every older one.  Workers overlap, and a statement may fail with its effect or
without.

The rows that are marked are the waiting ones at that moment, though, not those that were
there when the version was read.

History: a row knows the version that its change produced and when it was added, a push
when it was sent, and each worker when it last read a version.  `moment` counts changes
and pushes.
-/
import Mathlib.Data.List.Sort
import ParmeliaLinks.Lib.Delivery
import ParmeliaLinks.Lib.RelyGuarantee
import ParmeliaLinks.Server.Schema
import Mathlib.Algebra.Group.Nat.Defs

namespace ParmeliaLinks.Server.UserEvents

/-- Milliseconds since the epoch. -/
abbrev Timestamp := Nat

abbrev LeaseOwner := Nat

/-! ### Rows -/

/-- `NOTIFICATION_EVENT_TYPES`. -/
inductive NotificationEvent
  | recoveryProposed | recoveryExecuted | recoveryCancelled | depositReceived | paymentReceived
  deriving DecidableEq

/-- `SECURITY_EVENT_TYPES`. -/
def NotificationEvent.isSecurity : NotificationEvent → Bool
  | .recoveryProposed | .recoveryExecuted | .recoveryCancelled => true
  | .depositReceived | .paymentReceived => false

inductive EventType
  | homeInvalidate
  | notification (event : NotificationEvent)
  | other (name : String)
  deriving DecidableEq

/-- UTF-16 code units. -/
abbrev Units := List Nat

/-- A member of a JSON object. -/
inductive Member
  | missing
  | text (value : Units)
  | other
  deriving DecidableEq

/-- `payload_json`: what `JSON.parse` makes of it. -/
inductive Payload
  -- no JSON, or `null`
  | nothing
  | object (title body link : Member)
  deriving DecidableEq

structure SecurityNotificationPayload where
  title : Units
  body : Units
  link : Option Units

def parseSecurityNotification : Payload → Option SecurityNotificationPayload
  | .object (.text title) (.text body) link =>
    if 160 < title.length || 500 < body.length then none
    else match link with
      | .missing => some ⟨title, body, none⟩
      | .text link => some ⟨title, body, some link⟩
      | .other => none
  | _ => none

inductive OutboxStatus | pending | processing | delivered | failed | dead
  deriving DecidableEq

/-- The key of a row: `id` and `dedupe_key`, which are the same text. -/
abbrev RowId := Nat

/-- `user_event_outbox`. -/
structure OutboxRow where
  id : RowId
  uid : Uid
  eventType : EventType
  payloadJson : Payload
  priority : Nat
  status : OutboxStatus
  attemptCount : Nat
  nextAttemptAt : Timestamp
  leaseOwner : Option LeaseOwner
  leaseExpiresAt : Option Timestamp
  lastErrorCode : Option String
  createdAt : Timestamp
  deliveredAt : Option Timestamp
  -- history
  produced : Nat
  enqueuedAt : Nat
  deriving DecidableEq

instance : Row OutboxRow where
  clash r r' := r.id == r'.id
  clash_comm _ _ := Bool.beq_comm

/-! ### The world -/

/-- A push to the devices of a user that some of them may not have taken. -/
structure Push where
  uid : Uid
  version : Nat
  failed : Nat
  sentAt : Nat
  deriving DecidableEq

/-- The outbox, `home_state_versions`, the clock, and the history. -/
structure World where
  outbox : Table OutboxRow
  versions : Uid → Option Nat
  now : Timestamp
  pushes : List Push
  moment : Nat
  readAt : Nat → Nat

def World.initial (versions : Uid → Option Nat) (now : Timestamp) : World where
  outbox := .empty
  versions
  now
  pushes := []
  moment := 0
  readAt _ := 0

def leaseMs : Nat := 60000

def maxAttempts : Nat := 12

def retryDelayMs (attempt : Nat) : Nat := min (60 * 60000) (5000 * 2 ^ min 10 attempt)

/-- Due, or under a lease that has run out. -/
def OutboxRow.due (now : Timestamp) (r : OutboxRow) : Bool :=
  ((r.status == .pending || r.status == .failed) && decide (r.nextAttemptAt ≤ now)) ||
    (r.status == .processing && r.leaseExpiresAt.any (· ≤ now))

/-- Under this lease. -/
def OutboxRow.heldBy (id : RowId) (owner : LeaseOwner) (r : OutboxRow) : Bool :=
  r.id == id && r.status == .processing && r.leaseOwner == some owner

/-- `ORDER BY priority ASC, created_at ASC`. -/
def OutboxRow.before (r r' : OutboxRow) : Bool :=
  decide (r.priority < r'.priority) ||
    (r.priority == r'.priority && decide (r.createdAt ≤ r'.createdAt))

/-- A waiting invalidation of the user. -/
def OutboxRow.waiting (uid : Uid) (r : OutboxRow) : Bool :=
  r.uid == uid && r.eventType == .homeInvalidate && (r.status == .pending || r.status == .failed)

def OutboxRow.claimed (owner : LeaseOwner) (now : Timestamp) (r : OutboxRow) : OutboxRow :=
  { r with
    status := .processing, leaseOwner := some owner, leaseExpiresAt := some (now + leaseMs)
    attemptCount := r.attemptCount + 1 }

def OutboxRow.completed (now : Timestamp) (r : OutboxRow) : OutboxRow :=
  { r with
    status := .delivered, deliveredAt := some now, leaseOwner := none, leaseExpiresAt := none
    lastErrorCode := none }

/-- After a failed attempt, of a row that was listed with `attemptCount` attempts. -/
def OutboxRow.failedWith (attemptCount : Nat) (errorCode : String) (now : Timestamp)
    (r : OutboxRow) : OutboxRow :=
  let terminal := decide (maxAttempts ≤ attemptCount + 1)
  { r with
    status := if terminal then .dead else .failed
    nextAttemptAt := now + if terminal then 0 else retryDelayMs attemptCount
    leaseOwner := none, leaseExpiresAt := none
    lastErrorCode := some (if terminal then "TERMINAL_" ++ errorCode else errorCode) }

theorem keepsKeys_of_id {f : OutboxRow → OutboxRow} (h : ∀ r, (f r).id = r.id) :
    Table.KeepsKeys f := by
  refine ⟨fun r r' => ?_⟩
  show ((f r).id == r'.id) = (r.id == r'.id)
  rw [h]

namespace World

variable (w : World)

/-- The rows to work on. -/
def listDue (limit : Nat) : List OutboxRow :=
  ((w.outbox.filter (·.due w.now)).insertionSort fun r r' => r.before r').take limit

/-- The row under a new lease, if it is still due. -/
def claim (id : RowId) (owner : LeaseOwner) : Option LeaseOwner × World :=
  let p (r : OutboxRow) := r.id == id && r.due w.now
  (if 0 < w.outbox.changes p then some owner else none,
    { w with outbox := w.outbox.modify p (·.claimed owner w.now) (keepsKeys_of_id fun _ => rfl) })

def complete (id : RowId) (owner : LeaseOwner) : World :=
  { w with
    outbox := w.outbox.modify (·.heldBy id owner) (·.completed w.now)
      (keepsKeys_of_id fun _ => rfl) }

/-- The two updates of the batch: all waiting invalidations of the user, and the row of the
worker. -/
def completeHomeInvalidations (uid : Uid) (id : RowId) (owner : LeaseOwner) : World :=
  { w with
    outbox := w.outbox.modify (·.waiting uid) (·.completed w.now)
      (keepsKeys_of_id fun _ => rfl) }.complete id owner

def fail (id : RowId) (owner : LeaseOwner) (attemptCount : Nat) (errorCode : String) : World :=
  { w with
    outbox := w.outbox.modify (·.heldBy id owner) (·.failedWith attemptCount errorCode w.now)
      (keepsKeys_of_id fun _ => rfl) }

/-- A push goes out. -/
def pushed (uid : Uid) (version failed : Nat) : World :=
  { w with pushes := ⟨uid, version, failed, w.moment⟩ :: w.pushes, moment := w.moment + 1 }

/-- The row that a statement adds. -/
def newRow (id : RowId) (uid : Uid) (eventType : EventType) (payloadJson : Payload)
    (priority produced : Nat) : OutboxRow where
  id
  uid
  eventType
  payloadJson
  priority
  status := .pending
  attemptCount := 0
  nextAttemptAt := w.now
  leaseOwner := none
  leaseExpiresAt := none
  lastErrorCode := none
  createdAt := w.now
  deliveredAt := none
  produced
  enqueuedAt := w.moment

/-- The version after one more change. -/
def nextVersion (uid : Uid) : Nat := (w.versions uid).getD 0 + 1

/-- A change of what Home shows to the user, with its triggers: the version goes up, and a
row may be added. -/
def change (uid : Uid) (row : Option (RowId × Nat)) : World :=
  { w with
    versions := fun u => if u = uid then some (w.nextVersion uid) else w.versions u
    outbox := match row with
      | some (id, priority) => w.outbox.insertOrIgnore
          (w.newRow id uid .homeInvalidate (.object .missing .missing .missing) priority
            (w.nextVersion uid))
      | none => w.outbox
    moment := w.moment + 1 }

def enqueueUserEvent (id : RowId) (uid : Uid) (event : NotificationEvent) (payload : Payload)
    (priority : Nat) : World :=
  { w with
    outbox := w.outbox.insertOrIgnore (w.newRow id uid (.notification event) payload priority 0) }

end World

/-! ### Operations -/

structure PushDeliveryResult where
  configured : Bool
  failed : Nat
  deriving DecidableEq

/-- What the outside contributes: what becomes of a statement, the `randomUUID` of a claim, and
the answers of push and mail. -/
structure Answer where
  statement : Delivery
  uuid : LeaseOwner
  push : PushDeliveryResult

inductive OutboxOp
  | listDue (limit : Nat)
  | claim (id : RowId)
  | selectVersion (uid : Uid)
  | invalidateUserHome (uid : Uid) (stateVersion : Nat)
  | completeHomeInvalidations (uid : Uid) (id : RowId) (owner : LeaseOwner)
  | sendSecurityAlertEmail (uid : Uid) (event : NotificationEvent) (link : Option Units)
      (id : RowId)
  | notifyUser (uid : Uid) (payload : SecurityNotificationPayload)
  | complete (id : RowId) (owner : LeaseOwner)
  | fail (id : RowId) (owner : LeaseOwner) (attemptCount : Nat) (errorCode : String)

abbrev OutboxOp.Reply : OutboxOp → Type
  | .listDue _ => Except String (List OutboxRow)
  | .claim _ => Except String (Option LeaseOwner)
  | .selectVersion _ => Except String (Option Nat)
  | .invalidateUserHome _ _ => PushDeliveryResult
  | .notifyUser _ _ => PushDeliveryResult
  | _ => Except String Unit

def OutboxOp.exec (i : Nat) : (o : OutboxOp) → Answer → World → o.Reply × World
  | .listDue limit, x, w => x.statement.deliver w (w.listDue limit, w)
  | .claim id, x, w => x.statement.deliver w (w.claim id x.uuid)
  | .selectVersion uid, x, w =>
    x.statement.deliver w (w.versions uid,
      { w with readAt := fun j => if j = i then w.moment else w.readAt j })
  | .invalidateUserHome uid stateVersion, x, w =>
    (x.push, if x.push.configured then w.pushed uid stateVersion x.push.failed else w)
  | .completeHomeInvalidations uid id owner, x, w =>
    x.statement.deliver w ((), w.completeHomeInvalidations uid id owner)
  | .sendSecurityAlertEmail _ _ _ _, x, w => x.statement.deliver w ((), w)
  | .notifyUser _ _, x, w => (x.push, w)
  | .complete id owner, x, w => x.statement.deliver w ((), w.complete id owner)
  | .fail id owner attemptCount errorCode, x, w =>
    x.statement.deliver w ((), w.fail id owner attemptCount errorCode)

/-! ### A worker -/

abbrev Worker := Prog OutboxOp OutboxOp.Reply

/-- An operation, whose error is thrown. -/
def tryOp {α : Type} (o : OutboxOp) (reply : o.Reply = Except String α) : Worker α :=
  .act o fun r => Prog.ofExcept (cast reply r)

/-- A failed attempt. -/
def failAttempt (row : OutboxRow) (owner : LeaseOwner) (errorCode : String) : Worker Bool := do
  tryOp (.fail row.id owner row.attemptCount errorCode) rfl
  return false

/-- One invalidation, and whether it is delivered. -/
def deliverHomeInvalidation (row : OutboxRow) (owner : LeaseOwner) : Worker Bool := do
  let version ← tryOp (.selectVersion row.uid) rfl
  let result ← Prog.perform (OutboxOp.invalidateUserHome row.uid (version.getD 1))
  if !result.configured then
    -- without a transport nothing is to be delivered
    tryOp (.completeHomeInvalidations row.uid row.id owner) rfl
    return true
  else if 0 < result.failed then failAttempt row owner "PUSH_TRANSIENT"
  else
    tryOp (.completeHomeInvalidations row.uid row.id owner) rfl
    return true

/-- Whether a security event has gone out by mail; no error of it counts. -/
def deliverByEmail (row : OutboxRow) (event : NotificationEvent)
    (payload : SecurityNotificationPayload) : Worker Bool :=
  if event.isSecurity then
    Prog.tryCatch (do
      tryOp (.sendSecurityAlertEmail row.uid event payload.link row.id) rfl
      return true) fun _ => return false
  else return false

/-- One notification, and whether it is delivered. -/
def deliverNotification (row : OutboxRow) (owner : LeaseOwner) : Worker Bool :=
  match row.eventType with
  | .notification event =>
    match parseSecurityNotification row.payloadJson with
    | none => failAttempt row owner "INVALID_PAYLOAD"
    | some payload => do
      let deliveredByEmail ← deliverByEmail row event payload
      let result ← Prog.perform (OutboxOp.notifyUser row.uid payload)
      if !deliveredByEmail && (!result.configured || 0 < result.failed) then
        failAttempt row owner
          (if result.configured then "PUSH_TRANSIENT" else "PUSH_NOT_CONFIGURED")
      else
        tryOp (.complete row.id owner) rfl
        return true
  | _ => failAttempt row owner "UNSUPPORTED_EVENT_TYPE"

/-- One claimed row. -/
def deliverRow (row : OutboxRow) (owner : LeaseOwner) : Worker Bool :=
  Prog.tryCatch
    (if row.eventType = .homeInvalidate then deliverHomeInvalidation row owner
      else deliverNotification row owner)
    fun _ => failAttempt row owner "DELIVERY_EXCEPTION"

/-- The rows that were due, and how many were delivered, and failed. -/
def drainRows : List OutboxRow → Nat → Nat → Worker (Nat × Nat)
  | [], delivered, failed => return (delivered, failed)
  | row :: rows, delivered, failed => do
    match ← tryOp (.claim row.id) rfl with
    | none => drainRows rows delivered failed
    | some owner =>
      if ← deliverRow row owner then drainRows rows (delivered + 1) failed
      else drainRows rows delivered (failed + 1)

/-- One run of a worker. -/
def drainUserEventOutbox (limit : Nat) : Worker (Nat × Nat) := do
  let due ← tryOp (.listDue limit) rfl
  drainRows due 0 0

/-- What else happens. -/
inductive Surroundings
  | wait (ms : Nat)
  | change (uid : Uid) (row : Option (RowId × Nat))
  | enqueueUserEvent (id : RowId) (uid : Uid) (event : NotificationEvent) (payload : Payload)
      (priority : Nat)

def Surroundings.apply : Surroundings → World → World
  | .wait ms, w => { w with now := w.now + ms }
  | .change uid row, w => w.change uid row
  | .enqueueUserEvent id uid event payload priority, w =>
    w.enqueueUserEvent id uid event payload priority

/-- Workers side by side, while Home changes. -/
def outbox : System OutboxOp OutboxOp.Reply World Answer Surroundings Nat (Nat × Nat) where
  exec := OutboxOp.exec
  env := Surroundings.apply
  body := drainUserEventOutbox

/-! ### What is required, and when it holds -/

/-- A push to the user without failures, sent after the row was added, of its version or a later
one. -/
def World.Invalidated (w : World) (r : OutboxRow) : Prop :=
  ∃ p ∈ w.pushes, p.uid = r.uid ∧ p.failed = 0 ∧ r.produced ≤ p.version ∧ r.enqueuedAt < p.sentAt

/-- No invalidation is marked delivered without such a push. -/
def World.NoneLost (w : World) : Prop :=
  ∀ r ∈ w.outbox, r.eventType = .homeInvalidate → r.status = .delivered → w.Invalidated r

instance (w : World) (r : OutboxRow) : Decidable (w.Invalidated r) :=
  inferInstanceAs (Decidable (∃ p ∈ w.pushes, _ ∧ _ ∧ _ ∧ _))

instance (w : World) : Decidable w.NoneLost :=
  inferInstanceAs (Decidable (∀ r ∈ w.outbox, _ → _ → _))

/-- The transport is configured, and the waiting invalidations that are about to be marked were
added before the worker read the version. -/
def OutboxOp.SweepsOlder (i : Nat) (o : OutboxOp) (x : Answer) (w : World) : Prop :=
  match o with
  | .invalidateUserHome _ _ => x.push.configured = true
  | .completeHomeInvalidations uid _ _ =>
    ∀ r ∈ w.outbox, r.waiting uid = true → r.enqueuedAt < w.readAt i
  | _ => True

abbrev sweeping : System.Conditions OutboxOp World Answer Surroundings Nat where
  op := OutboxOp.SweepsOlder

instance (i : Nat) (o : OutboxOp) (x : Answer) (w : World) : Decidable (o.SweepsOlder i x w) :=
  match o with
  | .listDue _ => .isTrue trivial
  | .claim _ => .isTrue trivial
  | .selectVersion _ => .isTrue trivial
  | .invalidateUserHome _ _ => inferInstanceAs (Decidable (_ = _))
  | .completeHomeInvalidations _ _ _ => inferInstanceAs (Decidable (∀ r ∈ w.outbox, _ → _))
  | .sendSecurityAlertEmail _ _ _ _ => .isTrue trivial
  | .notifyUser _ _ => .isTrue trivial
  | .complete _ _ => .isTrue trivial
  | .fail _ _ _ _ => .isTrue trivial

/-! ### The discipline -/

namespace World

/-- A row has its version and its moment behind it, and a delivered one its push. -/
structure Sane (w : World) : Prop where
  row : ∀ r ∈ w.outbox, r.eventType = .homeInvalidate → r.enqueuedAt < w.moment ∧
    ∃ version, w.versions r.uid = some version ∧ r.produced ≤ version
  readAt : ∀ i, w.readAt i ≤ w.moment
  noneLost : w.NoneLost

/-- The columns that no statement changes. -/
structure SameRow (r r' : OutboxRow) : Prop where
  id : r.id = r'.id
  uid : r.uid = r'.uid
  eventType : r.eventType = r'.eventType
  produced : r.produced = r'.produced
  enqueuedAt : r.enqueuedAt = r'.enqueuedAt

/-- Rows and pushes stay, versions go up. -/
structure Evolves (w w' : World) : Prop where
  outbox : Table.Evolves SameRow (fun r => w.moment ≤ r.enqueuedAt) w.outbox w'.outbox
  moment : w.moment ≤ w'.moment
  pushes : w.pushes ⊆ w'.pushes
  versions : ∀ uid version, w.versions uid = some version →
    ∃ version', w'.versions uid = some version' ∧ version ≤ version'

variable {w w' w'' : World}

theorem SameRow.rfl (r : OutboxRow) : SameRow r r := ⟨Eq.refl _, Eq.refl _, Eq.refl _, Eq.refl _,
  Eq.refl _⟩

theorem SameRow.trans {r r' r'' : OutboxRow} (h : SameRow r r') (h' : SameRow r' r'') :
    SameRow r r'' :=
  ⟨h.id.trans h'.id, h.uid.trans h'.uid, h.eventType.trans h'.eventType,
    h.produced.trans h'.produced, h.enqueuedAt.trans h'.enqueuedAt⟩

theorem Evolves.rfl (w : World) : w.Evolves w where
  outbox := .rfl SameRow.rfl w.outbox
  moment := Nat.le_refl _
  pushes := List.Subset.refl _
  versions _ version h := ⟨version, h, Nat.le_refl _⟩

theorem Evolves.trans (h : w.Evolves w') (h' : w'.Evolves w'') : w.Evolves w'' where
  outbox := by
    constructor
    · intro r hr
      obtain ⟨r', hr', same⟩ := h.outbox.forward r hr
      obtain ⟨r'', hr'', same'⟩ := h'.outbox.forward r' hr'
      exact ⟨r'', hr'', same.trans same'⟩
    · intro r'' hr''
      rcases h'.outbox.backward r'' hr'' with ⟨r', hr', same'⟩ | new
      · rcases h.outbox.backward r' hr' with ⟨r, hr, same⟩ | new
        · exact .inl ⟨r, hr, same.trans same'⟩
        · refine .inr ?_
          rw [← same'.enqueuedAt]
          exact new
      · exact .inr (Nat.le_trans h.moment new)
  moment := Nat.le_trans h.moment h'.moment
  pushes := List.Subset.trans h.pushes h'.pushes
  versions uid version before := by
    obtain ⟨version', between, le⟩ := h.versions uid version before
    obtain ⟨version'', after, le'⟩ := h'.versions uid version' between
    exact ⟨version'', after, Nat.le_trans le le'⟩

/-- A push for a row is one for the same row later. -/
theorem Invalidated.later {r r' : OutboxRow} (h : w.Invalidated r) (same : SameRow r r')
    (pushes : w.pushes ⊆ w'.pushes) : w'.Invalidated r' := by
  obtain ⟨p, hp, user, complete, version, after⟩ := h
  refine ⟨p, pushes hp, user.trans same.uid, complete, ?_, ?_⟩
  · rw [← same.produced]
    exact version
  · rw [← same.enqueuedAt]
    exact after

/-- An update of the rows that keeps what a row is, and marks as delivered only what a push
stands for. -/
theorem Sane.modify (h : w.Sane) {p : OutboxRow → Bool} (f : OutboxRow → OutboxRow)
    (keys : Table.KeepsKeys f) (same : ∀ r, SameRow r (f r))
    (marked : ∀ r ∈ w.outbox, p r = true → r.eventType = .homeInvalidate →
      (f r).status = .delivered → w.Invalidated r) :
    ({ w with outbox := w.outbox.modify p f keys } : World).Sane ∧
      w.Evolves { w with outbox := w.outbox.modify p f keys } := by
  refine ⟨⟨?_, h.readAt, ?_⟩, ?_, Nat.le_refl _, List.Subset.refl _,
    fun _ version before => ⟨version, before, Nat.le_refl _⟩⟩
  · intro r' hr'
    obtain ⟨r, hr, rfl⟩ := (Table.mem_of_rewritten (by exact rfl)).1 hr'
    split
    · rw [← (same r).enqueuedAt, ← (same r).eventType, ← (same r).uid, ← (same r).produced]
      exact h.row r hr
    · exact h.row r hr
  · intro r' hr' home delivered
    obtain ⟨r, hr, rfl⟩ := (Table.mem_of_rewritten (by exact rfl)).1 hr'
    by_cases matched : p r = true
    · rw [if_pos matched] at home delivered ⊢
      rw [← (same r).eventType] at home
      exact (marked r hr matched home delivered).later (same r) (List.Subset.refl _)
    · rw [if_neg matched] at home delivered ⊢
      exact h.noneLost r hr home delivered
  · exact Table.evolves_of_rewritten (by exact rfl) (fun r _ _ => .rfl r) fun r _ _ => same r

theorem SameRow.claimed (owner : LeaseOwner) (now : Timestamp) (r : OutboxRow) :
    SameRow r (r.claimed owner now) := ⟨Eq.refl _, Eq.refl _, Eq.refl _, Eq.refl _, Eq.refl _⟩

theorem SameRow.completed (now : Timestamp) (r : OutboxRow) : SameRow r (r.completed now) :=
  ⟨Eq.refl _, Eq.refl _, Eq.refl _, Eq.refl _, Eq.refl _⟩

theorem SameRow.failedWith (attemptCount : Nat) (errorCode : String) (now : Timestamp)
    (r : OutboxRow) : SameRow r (r.failedWith attemptCount errorCode now) :=
  ⟨Eq.refl _, Eq.refl _, Eq.refl _, Eq.refl _, Eq.refl _⟩

theorem claim_sane (h : w.Sane) (id : RowId) (owner : LeaseOwner) :
    (w.claim id owner).2.Sane ∧ w.Evolves (w.claim id owner).2 := by
  refine h.modify _ _ (SameRow.claimed owner w.now) fun r _ _ _ delivered => ?_
  cases delivered

theorem fail_sane (h : w.Sane) (id : RowId) (owner : LeaseOwner) (attemptCount : Nat)
    (errorCode : String) :
    (w.fail id owner attemptCount errorCode).Sane ∧
      w.Evolves (w.fail id owner attemptCount errorCode) := by
  refine h.modify _ _ (SameRow.failedWith attemptCount errorCode w.now) fun r _ _ _ delivered => ?_
  -- a failed row is `failed` or `dead`
  rw [OutboxRow.failedWith] at delivered
  dsimp only at delivered
  split at delivered <;> cases delivered

/-- A row is completed when it is no invalidation, or a push stands for it. -/
theorem complete_sane (h : w.Sane) {id : RowId} {owner : LeaseOwner}
    (own : ∀ r ∈ w.outbox, r.id = id → r.eventType = .homeInvalidate → w.Invalidated r) :
    (w.complete id owner).Sane ∧ w.Evolves (w.complete id owner) := by
  refine h.modify _ _ (SameRow.completed w.now) fun r hr held home _ => own r hr ?_ home
  rw [OutboxRow.heldBy, Bool.and_eq_true, Bool.and_eq_true, beq_iff_eq] at held
  exact held.1.1

/-- The batch, when a push stands for the worker's row and for the rows that wait. -/
theorem completeHomeInvalidations_sane (h : w.Sane) {uid : Uid} {id : RowId} {owner : LeaseOwner}
    (waiting : ∀ r ∈ w.outbox, r.waiting uid = true → w.Invalidated r)
    (own : ∀ r ∈ w.outbox, r.id = id → w.Invalidated r) :
    (w.completeHomeInvalidations uid id owner).Sane ∧
      w.Evolves (w.completeHomeInvalidations uid id owner) := by
  obtain ⟨swept, evolves⟩ := h.modify (p := (·.waiting uid)) (·.completed w.now)
    (keepsKeys_of_id fun _ => Eq.refl _) (SameRow.completed w.now)
    fun r hr matched _ _ => waiting r hr matched
  obtain ⟨done, evolves'⟩ : World.Sane (World.complete _ id owner) ∧ _ :=
    complete_sane swept fun r' hr' same _ => by
      obtain ⟨r, hr, rfl⟩ := (Table.mem_of_rewritten (by exact rfl)).1 hr'
      by_cases matched : r.waiting uid = true
      · rw [if_pos matched] at same ⊢
        exact (own r hr same).later (SameRow.completed w.now r) (List.Subset.refl _)
      · rw [if_neg matched] at same ⊢
        exact (own r hr same).later (.rfl r) (List.Subset.refl _)
  exact ⟨done, evolves.trans evolves'⟩

/-- A push more. -/
theorem pushed_sane (h : w.Sane) (uid : Uid) (version failed : Nat) :
    (w.pushed uid version failed).Sane ∧ w.Evolves (w.pushed uid version failed) := by
  have sent : w.pushes ⊆ (w.pushed uid version failed).pushes := List.subset_cons_self _ _
  refine ⟨⟨?_, ?_, ?_⟩, .rfl SameRow.rfl _, Nat.le_succ _, sent,
    fun _ version before => ⟨version, before, Nat.le_refl _⟩⟩
  · intro r hr home
    obtain ⟨before, known⟩ := h.row r hr home
    exact ⟨Nat.lt_succ_of_lt before, known⟩
  · exact fun i => Nat.le_succ_of_le (h.readAt i)
  · exact fun r hr home delivered => (h.noneLost r hr home delivered).later (.rfl r) sent

/-- A row more, of this moment. -/
theorem insertOrIgnore_sane {r : OutboxRow} {versions : Uid → Option Nat} {moment : Nat}
    (h : w.Sane) (new : r.enqueuedAt = w.moment) (waits : r.status = .pending)
    (later : w.moment ≤ moment)
    (known : r.eventType = .homeInvalidate → w.moment < moment ∧
      ∃ version, versions r.uid = some version ∧ r.produced ≤ version)
    (raised : ∀ uid version, w.versions uid = some version →
      ∃ version', versions uid = some version' ∧ version ≤ version') :
    ({ w with outbox := w.outbox.insertOrIgnore r, versions, moment } : World).Sane ∧
      w.Evolves { w with outbox := w.outbox.insertOrIgnore r, versions, moment } := by
  refine ⟨⟨?_, fun i => Nat.le_trans (h.readAt i) later, ?_⟩, ⟨?_, ?_⟩, later,
    List.Subset.refl _, raised⟩
  · intro r' hr' home
    rcases Table.mem_or_eq_of_mem_insertOrIgnore hr' with hr' | rfl
    · obtain ⟨before, version, is, le⟩ := h.row r' hr' home
      obtain ⟨version', is', le'⟩ := raised _ _ is
      exact ⟨Nat.lt_of_lt_of_le before later, version', is', Nat.le_trans le le'⟩
    · rw [new]
      exact known home
  · intro r' hr' home delivered
    rcases Table.mem_or_eq_of_mem_insertOrIgnore hr' with hr' | rfl
    · exact h.noneLost r' hr' home delivered
    · rw [waits] at delivered
      cases delivered
  · exact fun r' hr' => ⟨r', Table.mem_insertOrIgnore_of_mem hr', .rfl r'⟩
  · intro r' hr'
    rcases Table.mem_or_eq_of_mem_insertOrIgnore hr' with hr' | rfl
    · exact .inl ⟨r', hr', .rfl r'⟩
    · exact .inr (Nat.le_of_eq new.symm)

/-- The surroundings keep the invariant. -/
theorem apply_sane (h : w.Sane) (e : Surroundings) :
    (e.apply w).Sane ∧ w.Evolves (e.apply w) := by
  cases e with
  | wait ms => exact ⟨⟨h.row, h.readAt, h.noneLost⟩, ⟨(Evolves.rfl w).outbox, Nat.le_refl _,
      List.Subset.refl _, (Evolves.rfl w).versions⟩⟩
  | change uid row =>
    have raised : ∀ u version, w.versions u = some version → ∃ version',
        (if u = uid then some (w.nextVersion uid) else w.versions u) = some version' ∧
          version ≤ version' := by
      intro u version before
      split
      · rename_i same
        refine ⟨_, Eq.refl _, ?_⟩
        rw [nextVersion, ← same, before]
        exact Nat.le_succ version
      · exact ⟨version, before, Nat.le_refl _⟩
    cases row with
    | none =>
      refine ⟨⟨?_, fun i => Nat.le_succ_of_le (h.readAt i), h.noneLost⟩, (Evolves.rfl w).outbox,
        Nat.le_succ _, List.Subset.refl _, raised⟩
      intro r hr home
      obtain ⟨before, version, is, le⟩ := h.row r hr home
      obtain ⟨version', is', le'⟩ := raised _ _ is
      exact ⟨Nat.lt_succ_of_lt before, version', is', Nat.le_trans le le'⟩
    | some row =>
      refine insertOrIgnore_sane h (Eq.refl _) (Eq.refl _) (Nat.le_succ _) (fun _ => ?_) raised
      exact ⟨Nat.lt_succ_self _, _, if_pos (Eq.refl _), Nat.le_refl _⟩
  | enqueueUserEvent id uid event payload priority =>
    refine insertOrIgnore_sane h (Eq.refl _) (Eq.refl _) (Nat.le_refl _) (fun home => ?_)
      (Evolves.rfl w).versions
    cases home

end World

/-! ### The worker -/

/-- Workers keep the invariant, and do not touch when another last read a version. -/
def discipline : Discipline OutboxOp World Answer Surroundings Nat where
  Inv := World.Sane
  Evolves := World.Evolves
  rely i w w' := w'.readAt i = w.readAt i
  allowed := sweeping
  refl := World.Evolves.rfl
  trans := World.Evolves.trans
  rely_refl _ _ := rfl
  rely_trans h h' := h'.trans h

section Worker

open World

variable {w w' : World} {i : Nat} {row : OutboxRow} {owner : LeaseOwner}

/-- The row is in the outbox. -/
def Listed (row : OutboxRow) (w : World) : Prop := ∃ r ∈ w.outbox, SameRow row r

theorem Listed.later (h : Listed row w) (evolves : w.Evolves w') : Listed row w' := by
  obtain ⟨r, hr, same⟩ := h
  obtain ⟨r', hr', same'⟩ := evolves.outbox.forward r hr
  exact ⟨r', hr', same.trans same'⟩

/-- The row with this key is that one. -/
theorem Listed.own (h : Listed row w) {r : OutboxRow} (hr : r ∈ w.outbox) (id : r.id = row.id) :
    SameRow row r := by
  obtain ⟨r', hr', same⟩ := h
  have one : r = r' := by
    apply Table.eq_of_clash hr hr'
    show (r.id == r'.id) = true
    rw [beq_iff_eq, id, same.id]
  rwa [one]

/-- What was added before the version was read, was there at the time. -/
theorem earlier_row (sane : w.Sane) (later : discipline.Later i w w') {r' : OutboxRow}
    (hr' : r' ∈ w'.outbox) (before : r'.enqueuedAt < w'.readAt i) :
    ∃ r ∈ w.outbox, SameRow r r' ∧ r.enqueuedAt < w.readAt i := by
  rw [show w'.readAt i = w.readAt i from later.relied] at before
  rcases later.evolves.outbox.backward r' hr' with ⟨r, hr, same⟩ | new
  · refine ⟨r, hr, same, ?_⟩
    rwa [same.enqueuedAt]
  · have := sane.readAt i
    omega

/-- The rule of a statement. -/
theorem wp_tryOp {α : Type} {o : OutboxOp} {reply : o.Reply = Except String α}
    {Q : Except String α → World → Prop} (f : Answer → α × World) (sane : w.Sane)
    (is : ∀ x, (cast reply (o.exec i x w).1, (o.exec i x w).2) = x.statement.deliver w (f x))
    (keeps : ∀ x, o.SweepsOlder i x w → (f x).2.Sane ∧ w.Evolves (f x).2)
    (others : ∀ x j, j ≠ i → (f x).2.readAt j = w.readAt j)
    (ok : ∀ x, o.SweepsOlder i x w → ∀ w', discipline.Later i (f x).2 w' → Q (.ok (f x).1) w')
    (error : ∀ m w', w'.Sane → w.Evolves w' → Q (.error m) w') :
    discipline.wp outbox i (tryOp o reply) Q w := by
  refine Discipline.wp_act _ _ (fun x hx => ?_) fun x hx w' later => ?_
  · have world : (o.exec i x w).2 = (x.statement.deliver w (f x)).2 := congrArg Prod.snd (is x)
    show discipline.Performs outbox i o x w
    constructor
    · show discipline.Keeps w (o.exec i x w).2
      rw [world]
      exact x.statement.deliver_induction ⟨sane, .rfl w⟩ ⟨(keeps x hx).1, (keeps x hx).2⟩
    · intro j other
      show (o.exec i x w).2.readAt j = w.readAt j
      rw [world]
      exact x.statement.deliver_induction (P := fun v : World => v.readAt j = w.readAt j) rfl
        (others x j other)
    · trivial
  · have answer : cast reply (o.exec i x w).1 = (x.statement.deliver w (f x)).1 :=
      congrArg Prod.fst (is x)
    have world : (o.exec i x w).2 = (x.statement.deliver w (f x)).2 := congrArg Prod.snd (is x)
    show discipline.wp outbox i (Prog.ofExcept (cast reply (o.exec i x w).1)) Q w'
    change discipline.Later i (o.exec i x w).2 w' at later
    rw [answer]
    rw [world] at later
    refine Discipline.wp_ofExcept _ _ ?_
    cases e : x.statement with
    | done =>
      rw [e] at later
      exact ok x hx w' later
    | lost m =>
      rw [e] at later
      exact error m w' later.inv later.evolves
    | unacknowledged m =>
      rw [e] at later
      exact error m w' later.inv ((keeps x hx).2.trans later.evolves)

/-- A failed attempt leaves nothing to be checked. -/
theorem wp_failAttempt (sane : w.Sane) (errorCode : String) :
    discipline.wp outbox i (failAttempt row owner errorCode) (fun _ w' => w.Evolves w') w := by
  refine Discipline.wp_seq (R := fun _ w' => w.Evolves w') _ _ ?_ (fun _ _ h => h)
    (fun _ _ h => h)
  refine wp_tryOp (fun _ => ((), w.fail row.id owner row.attemptCount errorCode)) sane
    (fun _ => rfl) (fun _ _ => fail_sane sane _ _ _ _) (fun _ _ _ => rfl) ?_ fun _ _ _ h => h
  intro x hx w' later
  exact (fail_sane sane _ _ _ _).2.trans later.evolves

/-- When the worker last read a version, its row was there, and this version or a later one
had been produced for no invalidation of the user. -/
structure ReadUpTo (i : Nat) (row : OutboxRow) (version : Nat) (w : World) : Prop where
  own : row.enqueuedAt < w.readAt i
  produced : ∀ r ∈ w.outbox, r.eventType = .homeInvalidate → r.uid = row.uid →
    r.enqueuedAt < w.readAt i → r.produced ≤ version

/-- A push stands for every invalidation of the user that was there when the worker last read a
version, its own among them. -/
structure SentUpTo (i : Nat) (row : OutboxRow) (w : World) : Prop where
  own : row.enqueuedAt < w.readAt i
  sent : ∀ r ∈ w.outbox, r.eventType = .homeInvalidate → r.uid = row.uid →
    r.enqueuedAt < w.readAt i → w.Invalidated r

/-- The world after the worker has read a version. -/
def readNow (i : Nat) (w : World) : World :=
  { w with readAt := fun j => if j = i then w.moment else w.readAt j }

theorem readNow_sane (sane : w.Sane) (i : Nat) : (readNow i w).Sane ∧ w.Evolves (readNow i w) := by
  refine ⟨⟨sane.row, fun j => ?_, sane.noneLost⟩, ⟨(Evolves.rfl w).outbox, Nat.le_refl _,
    List.Subset.refl _, (Evolves.rfl w).versions⟩⟩
  show (if j = i then w.moment else w.readAt j) ≤ w.moment
  split
  · exact Nat.le_refl _
  · exact sane.readAt j

/-- What is read covers what was added before. -/
theorem readUpTo_of_readNow (sane : w.Sane) (listed : Listed row w)
    (home : row.eventType = .homeInvalidate) (later : discipline.Later i (readNow i w) w') :
    ReadUpTo i row ((w.versions row.uid).getD 1) w' := by
  have now : w'.readAt i = w.moment := (later.relied).trans (if_pos rfl)
  constructor
  · obtain ⟨r, hr, same⟩ := listed
    rw [now, same.enqueuedAt]
    exact (sane.row r hr (same.eventType.symm.trans home)).1
  · intro r' hr' invalidation user before
    obtain ⟨r, hr, same, -⟩ := earlier_row (readNow_sane sane i).1 later hr' before
    obtain ⟨-, version, is, le⟩ := sane.row r hr (same.eventType.trans invalidation)
    rw [same.uid, user] at is
    rw [is, ← same.produced]
    exact le

/-- A version that is pushed without failures stands for what it covers. -/
theorem sentUpTo_of_pushed (sane : w.Sane) {version : Nat} (read : ReadUpTo i row version w)
    (later : discipline.Later i (w.pushed row.uid version 0) w') : SentUpTo i row w' := by
  constructor
  · rw [show w'.readAt i = w.readAt i from later.relied]
    exact read.own
  · intro r' hr' invalidation user before
    obtain ⟨r, hr, same, earlier⟩ := earlier_row (pushed_sane sane _ _ _).1 later hr' before
    have sent : (w.pushed row.uid version 0).Invalidated r := by
      refine ⟨_, List.mem_cons_self, ?_, rfl, ?_, ?_⟩
      · exact (same.uid.trans user).symm
      · exact read.produced r hr (same.eventType.trans invalidation) (same.uid.trans user) earlier
      · exact Nat.lt_of_lt_of_le earlier (sane.readAt i)
    exact sent.later same later.evolves.pushes

/-- The batch marks the worker's row, and what was there when it read the version. -/
theorem wp_completeHomeInvalidations (sane : w.Sane) (listed : Listed row w)
    (home : row.eventType = .homeInvalidate) (sent : SentUpTo i row w) :
    discipline.wp outbox i
      (tryOp (.completeHomeInvalidations row.uid row.id owner) rfl : Worker Unit)
      (fun _ w' => w.Evolves w') w := by
  have swept : ∀ x, (OutboxOp.completeHomeInvalidations row.uid row.id owner).SweepsOlder i x w →
      (w.completeHomeInvalidations row.uid row.id owner).Sane ∧
        w.Evolves (w.completeHomeInvalidations row.uid row.id owner) := by
    intro x older
    refine completeHomeInvalidations_sane sane (fun r hr waits => ?_) fun r hr id => ?_
    · have before := older r hr waits
      rw [OutboxRow.waiting, Bool.and_eq_true, Bool.and_eq_true, beq_iff_eq, beq_iff_eq] at waits
      exact sent.sent r hr waits.1.2 waits.1.1 before
    · have same := listed.own hr id
      refine sent.sent r hr (same.eventType.symm.trans home) same.uid.symm ?_
      rw [← same.enqueuedAt]
      exact sent.own
  refine wp_tryOp (fun _ => ((), w.completeHomeInvalidations row.uid row.id owner)) sane
    (fun _ => rfl) swept (fun _ _ _ => rfl) ?_ fun _ _ _ h => h
  intro x older w' later
  exact (swept x older).2.trans later.evolves

/-- One invalidation. -/
theorem wp_deliverHomeInvalidation (sane : w.Sane) (listed : Listed row w)
    (home : row.eventType = .homeInvalidate) :
    discipline.wp outbox i (deliverHomeInvalidation row owner) (fun _ w' => w.Evolves w') w := by
  refine Discipline.wp_seq (R := fun r w' => w.Evolves w' ∧ ∀ version, r = .ok version →
    w'.Sane ∧ ReadUpTo i row (version.getD 1) w') _ _ ?_ ?_ fun _ _ h => h.1
  · refine wp_tryOp (fun _ => (w.versions row.uid, readNow i w)) sane (fun _ => rfl)
      (fun _ _ => readNow_sane sane i) (fun _ j other => if_neg other) ?_ ?_
    · intro x _ w' later
      refine ⟨(readNow_sane sane i).2.trans later.evolves, ?_⟩
      rintro version ⟨⟩
      exact ⟨later.inv, readUpTo_of_readNow sane listed home later⟩
    · intro m w' _ evolves
      refine ⟨evolves, fun version is => ?_⟩
      cases is
  · rintro version v ⟨evolves, known⟩
    obtain ⟨sane₁, read⟩ := known version rfl
    have pushing : ∀ x : Answer, x.push.configured = true →
        ((OutboxOp.invalidateUserHome row.uid (version.getD 1)).exec i x v).2 =
          v.pushed row.uid (version.getD 1) x.push.failed := fun x configured => if_pos configured
    refine Discipline.wp_act _ _ (fun x configured => ?_) fun x configured v' later => ?_
    · show discipline.Performs outbox i _ x v
      constructor
      · show discipline.Keeps v (OutboxOp.exec i _ x v).2
        rw [pushing x configured]
        exact ⟨(pushed_sane sane₁ _ _ _).1, (pushed_sane sane₁ _ _ _).2⟩
      · intro j _
        show (OutboxOp.exec i _ x v).2.readAt j = v.readAt j
        rw [pushing x configured]
        rfl
      · trivial
    · change discipline.Later i (OutboxOp.exec i _ x v).2 v' at later
      rw [pushing x configured] at later
      have since := evolves.trans ((pushed_sane sane₁ _ _ _).2.trans later.evolves)
      have listed' := listed.later since
      show discipline.wp outbox i (if !x.push.configured then _ else _) _ v'
      rw [configured]
      show discipline.wp outbox i (if 0 < x.push.failed then _ else _) _ v'
      split
      · exact Discipline.wp_mono _ _ (wp_failAttempt later.inv _) fun _ _ h => since.trans h
      · rename_i complete
        rw [Nat.eq_zero_of_not_pos complete] at later
        have sent := sentUpTo_of_pushed sane₁ read later
        refine Discipline.wp_seq (R := fun _ w' => v'.Evolves w') _ _ ?_
          (fun _ _ h => since.trans h) fun _ _ h => since.trans h
        exact wp_completeHomeInvalidations later.inv listed' home sent

/-- The mail, which changes nothing. -/
theorem wp_deliverByEmail (sane : w.Sane) (event : NotificationEvent)
    (payload : SecurityNotificationPayload) :
    discipline.wp outbox i (deliverByEmail row event payload)
      (fun r w' => w'.Sane ∧ w.Evolves w' ∧ ∃ sent, r = .ok sent) w := by
  rw [deliverByEmail]
  split
  · refine (Discipline.wp_tryCatch _ _ _ _ _ _).2 ?_
    refine Discipline.wp_seq (R := fun _ w' => w'.Sane ∧ w.Evolves w') _ _ ?_
      (fun _ _ h => ⟨h.1, h.2, true, rfl⟩) fun _ _ h => ⟨h.1, h.2, false, rfl⟩
    refine wp_tryOp (fun _ => ((), w)) sane (fun _ => rfl) (fun _ _ => ⟨sane, .rfl w⟩)
      (fun _ _ _ => rfl) ?_ fun _ _ sane' evolves => ⟨sane', evolves⟩
    exact fun _ _ w' later => ⟨later.inv, later.evolves⟩
  · exact ⟨sane, .rfl w, false, rfl⟩

/-- One notification; its row is no invalidation. -/
theorem wp_deliverNotification (sane : w.Sane) (listed : Listed row w)
    (other : row.eventType ≠ .homeInvalidate) :
    discipline.wp outbox i (deliverNotification row owner) (fun _ w' => w.Evolves w') w := by
  rw [deliverNotification]
  split
  · rename_i event _
    split
    · exact wp_failAttempt sane _
    · rename_i payload _
      refine Discipline.wp_seq _ _ (wp_deliverByEmail sane event payload) ?_ fun _ _ h => h.2.1
      rintro mailed v ⟨sane₁, evolves, -⟩
      refine Discipline.wp_query _ _ sane₁ (fun _ => rfl) (fun _ => trivial) fun x v' later => ?_
      have since := evolves.trans later.evolves
      show discipline.wp outbox i (if _ then _ else _) _ v'
      split
      · exact Discipline.wp_mono _ _ (wp_failAttempt later.inv _) fun _ _ h => since.trans h
      · have own : ∀ r ∈ v'.outbox, r.id = row.id → r.eventType = .homeInvalidate →
            v'.Invalidated r := by
          intro r hr id home
          have same := (listed.later since).own hr id
          exact absurd (same.eventType.trans home) other
        have done : (v'.complete row.id owner).Sane ∧ _ := complete_sane later.inv own
        refine Discipline.wp_seq (R := fun _ w' => v'.Evolves w') _ _ ?_
          (fun _ _ h => since.trans h) fun _ _ h => since.trans h
        refine wp_tryOp (fun _ => ((), v'.complete row.id owner)) later.inv (fun _ => rfl)
          (fun _ _ => done) (fun _ _ _ => rfl) ?_ fun _ _ _ h => h
        exact fun _ _ w' later' => done.2.trans later'.evolves
  · exact wp_failAttempt sane _

theorem wp_deliverRow (sane : w.Sane) (listed : Listed row w) :
    discipline.wp outbox i (deliverRow row owner) (fun _ w' => w'.Sane ∧ w.Evolves w') w := by
  refine (Discipline.wp_tryCatch _ _ _ _ _ _).2 ?_
  have delivered : discipline.wp outbox i (if row.eventType = .homeInvalidate then
      deliverHomeInvalidation row owner else deliverNotification row owner)
      (fun _ w' => w.Evolves w') w := by
    split
    · exact wp_deliverHomeInvalidation sane listed ‹_›
    · exact wp_deliverNotification sane listed ‹_›
  refine Discipline.wp_mono _ _ (Discipline.wp_evolves _ _ sane delivered) ?_
  rintro (m | r) w' ⟨-, sane', evolves⟩
  · refine Discipline.wp_mono _ _ (Discipline.wp_evolves _ _ sane' (wp_failAttempt sane' _)) ?_
    exact fun _ _ h => ⟨h.2.1, evolves.trans h.1⟩
  · exact ⟨sane', evolves⟩

/-- The rows that were due, one after the other. -/
theorem wp_drainRows {rows : List OutboxRow} {delivered failed : Nat} (sane : w.Sane)
    (listed : ∀ row ∈ rows, Listed row w) :
    discipline.wp outbox i (drainRows rows delivered failed) (fun _ _ => True) w := by
  induction rows generalizing w delivered failed with
  | nil => trivial
  | cons row rows ih =>
    refine Discipline.wp_seq (R := fun r w' => w'.Sane ∧ w.Evolves w') _ _ ?_ ?_
      fun _ _ _ => trivial
    · refine wp_tryOp (fun x => w.claim row.id x.uuid) sane (fun _ => rfl)
        (fun x _ => claim_sane sane _ _) (fun _ _ _ => rfl) ?_ fun _ _ sane' h => ⟨sane', h⟩
      exact fun x _ w' later => ⟨later.inv, (claim_sane sane _ _).2.trans later.evolves⟩
    · rintro owner v ⟨sane₁, evolves⟩
      have listed₁ : ∀ row' ∈ row :: rows, Listed row' v :=
        fun row' mem => (listed row' mem).later evolves
      cases owner with
      | none => exact ih sane₁ fun row' mem => listed₁ row' (List.mem_cons_of_mem _ mem)
      | some owner =>
        refine Discipline.wp_seq _ _ (wp_deliverRow sane₁ (listed₁ row List.mem_cons_self)) ?_
          fun _ _ _ => trivial
        rintro ok v' ⟨sane₂, evolves'⟩
        have rest : ∀ row' ∈ rows, Listed row' v' :=
          fun row' mem => (listed₁ row' (List.mem_cons_of_mem _ mem)).later evolves'
        cases ok with
        | true => exact ih sane₂ rest
        | false => exact ih sane₂ rest

theorem wp_drainUserEventOutbox (sane : w.Sane) (limit : Nat) :
    discipline.wp outbox i (drainUserEventOutbox limit) (fun _ _ => True) w := by
  refine Discipline.wp_seq (R := fun r w' => ∀ rows, r = .ok rows → w'.Sane ∧
    ∀ row ∈ rows, Listed row w') _ _ ?_ ?_ fun _ _ _ => trivial
  · refine wp_tryOp (fun _ => (w.listDue limit, w)) sane (fun _ => rfl)
      (fun _ _ => ⟨sane, .rfl w⟩) (fun _ _ _ => rfl) ?_ ?_
    · rintro x - w' later rows ⟨⟩
      refine ⟨later.inv, fun row mem => ?_⟩
      have due : row ∈ w.outbox.filter (·.due w.now) :=
        (List.mem_insertionSort _).1 (List.mem_of_mem_take mem)
      exact Listed.later ⟨row, (List.mem_filter.1 due).1, .rfl row⟩ later.evolves
    · intro m w' _ _ rows is
      cases is
  · intro rows v listed
    obtain ⟨sane₁, all⟩ := listed rows rfl
    exact wp_drainRows sane₁ all

end Worker

theorem outbox_obeys : discipline.Obeys outbox (fun _ _ => True) where
  env e w sane _ :=
    ⟨⟨(World.apply_sane sane e).1, (World.apply_sane sane e).2⟩, fun i => by cases e <;> rfl⟩
  call limit i w w' _ _ later := wp_drainUserEventOutbox later.inv limit

theorem initial_sane (versions : Uid → Option Nat) (now : Timestamp) :
    (World.initial versions now).Sane where
  row r hr := absurd hr (Table.not_mem_empty r)
  readAt _ := Nat.le_refl _
  noneLost r hr := absurd hr (Table.not_mem_empty r)

/-- Workers that mark only what was there when they read the version lose no invalidation, in
any order of their steps. -/
theorem none_lost {versions : Uid → Option Nat} {now : Timestamp}
    {ls : List (Label Answer Surroundings Nat)}
    (along : outbox.Along sweeping ⟨World.initial versions now, []⟩ ls) :
    (outbox.run (World.initial versions now) ls).world.NoneLost :=
  (Discipline.pool_sound outbox_obeys (initial_sane versions now) along).inv.noneLost

/-! ### A change that no device hears of -/

abbrev UserEventSchedule := List (Label Answer Surroundings Nat)

/-- A statement that is answered, and a push that all devices take. -/
def answered : Answer := ⟨.done, 1, true, 0⟩

/-- A worker pushes the version after the first change; the second change comes before the batch
and is marked with the first. -/
def overtaken : List (Label Answer Surroundings Nat) :=
  [.env (.change 7 (some (1, 1))), .spawn 25, .step 0 answered, .step 0 answered,
    .step 0 answered, .step 0 answered, .env (.change 7 (some (2, 1))), .step 0 answered]

theorem overtaken_lost :
    ¬ (outbox.run (World.initial (fun _ => none) 0) overtaken).world.NoneLost := by
  decide

/-- The second change comes after the batch, and a second worker pushes it. -/
def inTurn : List (Label Answer Surroundings Nat) :=
  ([.env (.change 7 (some (1, 1))), .spawn 25] : UserEventSchedule) ++
    (List.replicate 5 (.step 0 answered) : UserEventSchedule) ++
    ([.env (.change 7 (some (2, 1))), .spawn 25] : UserEventSchedule) ++
    (List.replicate 5 (.step 1 answered) : UserEventSchedule)

theorem none_lost_in_turn :
    (outbox.run (World.initial (fun _ => none) 0) inTurn).world.NoneLost :=
  none_lost (by decide)

end ParmeliaLinks.Server.UserEvents
