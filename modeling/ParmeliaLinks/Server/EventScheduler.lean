/-
ParmeliaLinks/Server/EventScheduler.lean

The scheduler of event jobs.  It keeps one record for each job and partition, into
which `mergeScheduledJob` merges the requests for it, and one alarm.  When the alarm
goes off, the records that are due are marked `dispatching`, their messages are sent
in one batch, and a record that no request has changed meanwhile is deleted, or put
off when the batch has failed.

The object takes no request while it waits for its own storage, so requests come in
between two alarms or while the batch is on its way.  It may fail after any step.
An alarm that fails is run again, and a request that fails after its transaction
leaves the record without having looked at the alarm (`interrupted`).

Three things are history.  `lastAttempt` says when the dispatch of a record last
failed, `sent` what was handed to the queue, and `accepted` which requests were
answered, each with the number of messages sent before.
-/
import Mathlib.Algebra.Group.Nat.Defs
import Mathlib.Data.List.Sort
import ParmeliaLinks.Lib.Delivery
import ParmeliaLinks.Lib.Machine
import ParmeliaLinks.Server.Schema

namespace ParmeliaLinks.Server.EventJobs

/-- Milliseconds since the epoch. -/
abbrev Timestamp := Nat

/-! ### Records -/

/-- `EVENT_JOB_NAMES`. -/
inductive EventJobName
  | indexerWalletRegistry | reorgReplay | indexerSafetySweep | indexer | balanceSafetyRefresh
  | userOperationWatcher | routerWatcher | recoveryWatcher | alchemyAddressSync | balanceRefresh
  | paymentReconciler | accountOperationReconciler | crosschainRelayer | webhookDelivery
  | userEventDelivery | paymentsBoundarySync | webhookKeyRotation
  deriving DecidableEq

/-- What a record is stored under: `job:<job>:<partition>`. -/
structure StorageKey where
  job : EventJobName
  partition : String
  deriving DecidableEq

structure ScheduleRequest where
  key : StorageKey
  runAt : Timestamp
  reason : String
  targetBlock : Option BlockNumber
  deriving DecidableEq

inductive JobState | scheduled | dispatching
  deriving DecidableEq

structure ScheduledEventJob extends ScheduleRequest where
  generation : Nat
  state : JobState
  dispatchAttempts : Nat
  lastAttempt : Option Timestamp
  deriving DecidableEq

instance : Row ScheduledEventJob where
  clash r r' := r.key == r'.key
  clash_comm _ _ := Bool.beq_comm

structure EventJobMessage where
  key : StorageKey
  generation : Nat
  scheduledAt : Timestamp
  reason : String
  targetBlock : Option BlockNumber

def toQueueMessage (record : ScheduledEventJob) : EventJobMessage where
  key := record.key
  generation := record.generation
  scheduledAt := record.runAt
  reason := record.reason
  targetBlock := record.targetBlock

/-- `DISPATCH_RETRY_MS` doubled for each attempt, up to `MAX_DISPATCH_RETRY_MS`. -/
def dispatchRetryMs (attempts : Nat) : Nat :=
  min (15 * 60000) (60000 * 2 ^ min 4 (attempts - 1))

/-! ### Merging -/

/-- The request asks for a later block than the record. -/
def targetAdvanced (existing : ScheduledEventJob) (request : ScheduleRequest) : Bool :=
  match request.targetBlock, existing.targetBlock with
  | some target, some known => known < target
  | some _, none => true
  | none, _ => false

def mergedTarget : Option BlockNumber → Option BlockNumber → Option BlockNumber
  | none, request => request
  | existing, none => existing
  | some existing, some request => if request ≤ existing then some existing else some request

/-- The record for a request, and whether it is to be written. -/
def mergeScheduledJob (existing : Option ScheduledEventJob) (request : ScheduleRequest) :
    ScheduledEventJob × Bool :=
  match existing with
  | none =>
    ({ toScheduleRequest := request, generation := 1, state := .scheduled
       dispatchAttempts := 0, lastAttempt := none }, true)
  | some existing =>
    if existing.state = .scheduled ∧ existing.runAt ≤ request.runAt ∧
        targetAdvanced existing request = false then (existing, false)
    else
      ({ request with
         runAt :=
           if existing.state = .scheduled then min existing.runAt request.runAt
           else request.runAt
         targetBlock := mergedTarget existing.targetBlock request.targetBlock
         generation := existing.generation + 1
         state := .scheduled
         dispatchAttempts := existing.dispatchAttempts
         lastAttempt := existing.lastAttempt }, true)

/-- The target that is had is no less than the one that is asked for. -/
def Reaches : Option BlockNumber → Option BlockNumber → Prop
  | _, none => True
  | some target, some required => required ≤ target
  | none, some _ => False

theorem Reaches.rfl (target : Option BlockNumber) : Reaches target target := by
  cases target with
  | none => trivial
  | some block => exact Nat.le_refl block

theorem Reaches.trans {a b c : Option BlockNumber} (h : Reaches a b) (h' : Reaches b c) :
    Reaches a c := by
  cases c with
  | none => cases a <;> trivial
  | some c =>
    cases b with
    | none => exact h'.elim
    | some b =>
      cases a with
      | none => exact h.elim
      | some a => exact Nat.le_trans h' h

theorem mergedTarget_reaches (existing request : Option BlockNumber) :
    Reaches (mergedTarget existing request) existing ∧
      Reaches (mergedTarget existing request) request := by
  cases existing with
  | none => exact ⟨by cases request <;> trivial, .rfl request⟩
  | some known =>
    cases request with
    | none => exact ⟨.rfl _, trivial⟩
    | some target =>
      simp only [mergedTarget]
      split
      · exact ⟨Nat.le_refl known, ‹_›⟩
      · rename_i later
        exact ⟨Nat.le_of_not_le later, Nat.le_refl target⟩

theorem reaches_of_not_advanced {existing : ScheduledEventJob} {request : ScheduleRequest}
    (h : targetAdvanced existing request = false) :
    Reaches existing.targetBlock request.targetBlock := by
  unfold targetAdvanced at h
  cases ht : request.targetBlock with
  | none => cases existing.targetBlock <;> trivial
  | some target =>
    cases hk : existing.targetBlock with
    | none => simp [ht, hk] at h
    | some known =>
      show target ≤ known
      simpa [ht, hk] using h

theorem dispatchRetryMs_le (attempts : Nat) : dispatchRetryMs attempts ≤ 15 * 60000 :=
  Nat.min_le_left _ _

/-! ### The object -/

/-- An alarm that runs: it marks the records that were due, waits for the batch, and then
goes through the batch once more. -/
inductive Alarm
  | marking (now : Timestamp) (candidates due : List ScheduledEventJob)
  | sending (now : Timestamp) (due : List ScheduledEventJob)
  | settling (now : Timestamp) (sent : Bool) (rest : List ScheduledEventJob)

/-- A request that was answered. -/
structure Accepted where
  request : ScheduleRequest
  sentBefore : Nat

structure World where
  storage : Table ScheduledEventJob
  alarm : Option Timestamp
  retry : Bool
  running : Option Alarm
  sent : List EventJobMessage
  accepted : List Accepted

namespace World

def initial : World where
  storage := .empty
  alarm := none
  retry := false
  running := none
  sent := []
  accepted := []

variable (w : World)

def get (key : StorageKey) : Option ScheduledEventJob := w.storage.find? (·.key == key)

/-- The storage with the record written. -/
def put (record : ScheduledEventJob) : Table ScheduledEventJob :=
  (w.storage.delete (·.key == record.key)).insertOrIgnore record

/-- The object does not wait for its storage. -/
def admits : Bool :=
  match w.running with
  | none => true
  | some (.sending _ _) => true
  | _ => false

/-! ### Requests -/

/-- The transaction of a request. -/
def merge (request : ScheduleRequest) : World :=
  let merged := mergeScheduledJob (w.get request.key) request
  if merged.2 then { w with storage := w.put merged.1 } else w

/-- A request that is answered. -/
def schedule (now : Timestamp) (request : ScheduleRequest) : World :=
  if w.admits then
    let merged := mergeScheduledJob (w.get request.key) request
    { w.merge request with
      alarm := if merged.2 && w.alarm.all (merged.1.runAt < ·) then some (max now merged.1.runAt)
        else w.alarm
      accepted := w.accepted ++ [⟨request, w.sent.length⟩] }
  else w

/-- A request that fails after its transaction. -/
def interrupted (request : ScheduleRequest) : World :=
  if w.admits then w.merge request else w

/-! ### The alarm -/

def dueCandidates (now : Timestamp) : List ScheduledEventJob :=
  (w.storage.filter (·.runAt ≤ now)).insertionSort fun left right => left.runAt ≤ right.runAt

/-- The alarm goes off, or is run again. -/
def fire (now : Timestamp) : World :=
  match w.running with
  | some _ => w
  | none =>
    if w.retry || w.alarm.any (· ≤ now) then
      { w with
        alarm := w.alarm.filter (now < ·), retry := false
        running := some (.marking now (w.dueCandidates now) []) }
    else w

/-- The transaction that marks the next candidate. -/
def mark : World :=
  match w.running with
  | some (.marking now (candidate :: candidates) due) =>
    match w.get candidate.key with
    | some current =>
      if current.generation = candidate.generation then
        let dispatching := { current with state := .dispatching }
        { w with
          storage := w.put dispatching
          running := some (.marking now candidates (due ++ [dispatching])) }
      else { w with running := some (.marking now candidates due) }
    | none => { w with running := some (.marking now candidates due) }
  | _ => w

/-- `sendBatch` is called. -/
def call : World :=
  match w.running with
  | some (.marking now [] due) =>
    if due.isEmpty then w else { w with running := some (.sending now due) }
  | _ => w

/-- There is no queue to call. -/
def queueMissing : World :=
  match w.running with
  | some (.marking now [] due) =>
    if due.isEmpty then w else { w with running := some (.settling now false due) }
  | _ => w

/-- What becomes of the batch. -/
def send (x : Delivery) : World :=
  match w.running with
  | some (.sending now due) =>
    match x with
    | .done =>
      { w with sent := w.sent ++ due.map toQueueMessage, running := some (.settling now true due) }
    | .lost _ => { w with running := some (.settling now false due) }
    | .unacknowledged _ =>
      { w with sent := w.sent ++ due.map toQueueMessage, running := some (.settling now false due) }
  | _ => w

/-- The record of a dispatch that has failed. -/
def putOff (now : Timestamp) (current : ScheduledEventJob) : ScheduledEventJob :=
  { current with
    state := .scheduled
    dispatchAttempts := current.dispatchAttempts + 1
    runAt := now + dispatchRetryMs (current.dispatchAttempts + 1)
    lastAttempt := some now }

/-- The transaction that deletes the next record of the batch, or puts it off. -/
def settle : World :=
  match w.running with
  | some (.settling now sent (job :: rest)) =>
    let running := some (.settling now sent rest)
    match w.get job.key with
    | some current =>
      if current.generation = job.generation then
        { w with
          storage := if sent then w.storage.delete (·.key == job.key) else w.put (putOff now current)
          running }
      else { w with running }
    | none => { w with running }
  | _ => w

/-- The earliest time of a stored record. -/
def earliest : Option Timestamp :=
  w.storage.rows.foldl (fun earliest job =>
    match earliest with
    | none => some job.runAt
    | some time => if job.runAt < time then some job.runAt else some time) none

/-- `armEarliestJob`, the last thing that an alarm does. -/
def armEarliestJob (now : Timestamp) : World :=
  let armed := { w with alarm := w.earliest.map (max now), running := none }
  match w.running with
  | some (.marking _ [] []) => armed
  | some (.settling _ _ []) => armed
  | _ => w

/-- The object fails while its alarm runs. -/
def crash : World :=
  match w.running with
  | some _ => { w with running := none, retry := true }
  | none => w

end World

inductive Event
  | schedule (now : Timestamp) (request : ScheduleRequest)
  | interrupted (request : ScheduleRequest)
  | fire (now : Timestamp)
  | mark
  | call
  | queueMissing
  | send (x : Delivery)
  | settle
  | armEarliestJob (now : Timestamp)
  | crash

def machine : Machine Event World where
  step
    | .schedule now request => (·.schedule now request)
    | .interrupted request => (·.interrupted request)
    | .fire now => (·.fire now)
    | .mark => World.mark
    | .call => World.call
    | .queueMissing => World.queueMissing
    | .send x => (·.send x)
    | .settle => World.settle
    | .armEarliestJob now => (·.armEarliestJob now)
    | .crash => World.crash

/-! ### The storage -/

namespace World

variable {w : World}

theorem eq_of_key {t : Table ScheduledEventJob} {j j' : ScheduledEventJob} (hj : j ∈ t)
    (hj' : j' ∈ t) (same : j.key = j'.key) : j = j' :=
  Table.eq_of_clash hj hj' (beq_iff_eq.2 same)

theorem get_eq_some {key : StorageKey} {j : ScheduledEventJob} (h : w.get key = some j) :
    j ∈ w.storage ∧ j.key = key := by
  have found : (j.key == key) = true := Table.of_find? (t := w.storage) h
  exact ⟨Table.mem_of_find? h, beq_iff_eq.1 found⟩

theorem get_of_mem {j : ScheduledEventJob} (hj : j ∈ w.storage) : w.get j.key = some j := by
  cases found : w.get j.key with
  | none => exact absurd (Table.not_of_find?_none found hj) (by simp)
  | some j' =>
    obtain ⟨hj', same⟩ := get_eq_some found
    rw [eq_of_key hj' hj same]

theorem mem_put {record j : ScheduledEventJob} :
    j ∈ w.put record ↔ (j ∈ w.storage ∧ j.key ≠ record.key) ∨ j = record := by
  have fits : (w.storage.delete (·.key == record.key)).Fits record := by
    intro j hj
    exact (Table.mem_delete.1 (Table.mem_rows.1 hj)).2
  rw [put, Table.mem_of_rows_append (Table.insertOrIgnore_rows_of_fits fits), Table.mem_delete,
    beq_eq_false_iff_ne]

end World

end ParmeliaLinks.Server.EventJobs
