/-
ParmeliaLinks/Jobs/JobScheduler.lean

The scheduler of payment jobs.  It keeps one record for each job, partition and
resource, merges the requests for it, and publishes it when its time has come.  The
messages of a record are told apart by its generation, which each request raises; a
consumer that has completed a dedupe key never runs it again.

The record is deleted once it is published, and its generation with it: the next
request starts from one again, under the key of a message that may be completed
(`scheduled_again`).  `job_keys_distinct` says when this does no harm: when no
request comes to number its record like a message that is out.

The object runs one alarm at a time.  Between two of its steps requests come in; it
may fail after each step, and is then run again.  `request` is a history variable: it
says which request wrote a record, and so which messages are one dispatch.
-/
import ParmeliaLinks.Jobs.JobStore
import ParmeliaLinks.Lib.Delivery
import ParmeliaLinks.Lib.Machine

namespace ParmeliaLinks.Jobs.Scheduler

/-! ### Records -/

/-- What a record is stored under: `job:partition:resourceId`. -/
structure StorageKey where
  job : PaymentJobName
  partition : String
  resourceId : Nat
  deriving DecidableEq

structure ScheduledJob where
  key : StorageKey
  dedupeKey : String
  runAt : Timestamp
  generation : Nat
  request : Nat
  deriving DecidableEq

/-- The arguments of `schedule`. -/
structure ScheduleInput where
  key : StorageKey
  dedupeKey : String
  runAt : Timestamp

/-- A message of the queue.  Its dedupe key is the text `dedupeKey:generation`, and the two
parts can be read off it. -/
structure Published where
  key : StorageKey
  dedupeKey : String × Nat
  request : Nat

/-- The message of a record. -/
def ScheduledJob.message (j : ScheduledJob) : Published where
  key := j.key
  dedupeKey := (j.dedupeKey, j.generation)
  request := j.request

/-- An alarm that runs: the records that it has still to look at, and the one that it has
sent and not removed. -/
structure Alarm where
  now : Timestamp
  sent : Option ScheduledJob
  rest : List ScheduledJob

structure World where
  storage : List ScheduledJob
  alarm : Option Timestamp
  running : Option Alarm
  published : List Published
  completed : List (StorageKey × String × Nat)
  requests : Nat

namespace World

def initial : World where
  storage := []
  alarm := none
  running := none
  published := []
  completed := []
  requests := 0

variable (w : World)

def get (key : StorageKey) : Option ScheduledJob := w.storage.find? (·.key == key)

/-- The generation of the stored record, or zero. -/
def generation (key : StorageKey) : Nat := ((w.get key).map (·.generation)).getD 0

/-! ### Steps -/

/-- The record that a request writes. -/
def merged (input : ScheduleInput) : ScheduledJob where
  key := input.key
  dedupeKey := input.dedupeKey
  runAt := match w.get input.key with
    | some previous => min previous.runAt input.runAt
    | none => input.runAt
  generation := w.generation input.key + 1
  request := w.requests

/-- The transaction of `schedule`. -/
def schedule (now : Timestamp) (input : ScheduleInput) : World :=
  let next := w.merged input
  { w with
    storage := w.storage.filter (·.key != input.key) ++ [next]
    alarm := match w.alarm with
      | none => some (max now next.runAt)
      | some current => if next.runAt < current then some (max now next.runAt) else some current
    requests := w.requests + 1 }

/-- The alarm goes off, or is tried again: the records are listed. -/
def fire (now : Timestamp) : World :=
  match w.running with
  | some _ => w
  | none => { w with alarm := none, running := some ⟨now, none, w.storage⟩ }

/-- The next record: it is passed over until its time has come, and sent otherwise. -/
def send (x : Delivery) : World :=
  match w.running with
  | some ⟨now, none, job :: rest⟩ =>
    if now < job.runAt then { w with running := some ⟨now, none, rest⟩ }
    else match x with
      | .done =>
        { w with published := w.published ++ [job.message], running := some ⟨now, some job, rest⟩ }
      | .lost _ => { w with running := none }
      | .unacknowledged _ =>
        { w with published := w.published ++ [job.message], running := none }
  | _ => w

/-- The record that was sent is deleted, unless a request has raised its generation. -/
def remove : World :=
  match w.running with
  | some ⟨now, some job, rest⟩ =>
    let running := some ⟨now, none, rest⟩
    match w.get job.key with
    | some current =>
      if current.generation = job.generation then
        { w with storage := w.storage.filter (·.key != job.key), running }
      else { w with running }
    | none => { w with running }
  | _ => w

/-- The earliest time of a stored record. -/
def earliest : Option Timestamp :=
  w.storage.foldl (fun earliest job =>
    match earliest with
    | none => some job.runAt
    | some time => some (min time job.runAt)) none

/-- The last transaction of an alarm. -/
def rearm (now : Timestamp) : World :=
  match w.running with
  | some ⟨_, none, []⟩ => { w with alarm := w.earliest.map (max now), running := none }
  | _ => w

/-- The alarm fails. -/
def crash : World := { w with running := none }

/-- A consumer completes the key of a message. -/
def complete (i : Nat) : World :=
  match w.published[i]? with
  | some m => { w with completed := w.completed ++ [(m.key, m.dedupeKey)] }
  | none => w

end World

inductive Event
  | schedule (now : Timestamp) (input : ScheduleInput)
  | fire (now : Timestamp)
  | send (x : Delivery)
  | remove
  | rearm (now : Timestamp)
  | crash
  | complete (i : Nat)

def machine : Machine Event World where
  step
    | .schedule now input => (·.schedule now input)
    | .fire now => (·.fire now)
    | .send x => (·.send x)
    | .remove => World.remove
    | .rearm now => (·.rearm now)
    | .crash => World.crash
    | .complete i => (·.complete i)

/-! ### What is kept -/

namespace World

/-- The records that a running alarm has still to send or to remove. -/
def pending (w : World) : List ScheduledJob :=
  match w.running with
  | some ⟨_, sent, rest⟩ => sent.toList ++ rest
  | none => []

/-- Two records or messages for one key are the same dispatch, or have different keys. -/
def Apart (m m' : Published) : Prop :=
  m.key = m'.key → m.request = m'.request ∨ m.dedupeKey ≠ m'.dedupeKey

theorem Apart.symm {m m' : Published} (h : Apart m m') : Apart m' m := fun same =>
  (h same.symm).imp Eq.symm Ne.symm

theorem Apart.rfl (m : Published) : Apart m m := fun _ => .inl (Eq.refl _)

structure Orderly (w : World) : Prop where
  single : w.storage.Pairwise fun j j' => j.key ≠ j'.key
  distinct : w.pending.Pairwise fun j j' => j.key ≠ j'.key
  stored : ∀ j ∈ w.storage, ∀ m ∈ w.published, Apart j.message m
  listed : ∀ j ∈ w.pending, ∀ m ∈ w.published, Apart j.message m
  published : ∀ m ∈ w.published, ∀ m' ∈ w.published, Apart m m'
  /-- What is under way is stored, or has been overtaken by a request. -/
  current : ∀ j ∈ w.pending, ∃ j' ∈ w.storage, j'.key = j.key ∧
    (j' = j ∨ j.generation < j'.generation)
  completed : ∀ c ∈ w.completed, ∃ m ∈ w.published, c = (m.key, m.dedupeKey)

variable {w : World}

theorem mem_of_get {key : StorageKey} {j : ScheduledJob} (h : w.get key = some j) :
    j ∈ w.storage ∧ j.key = key :=
  ⟨List.mem_of_find?_eq_some h, by simpa using List.find?_some h⟩

theorem Orderly.eq_of_key (hw : w.Orderly) {j j' : ScheduledJob} (hj : j ∈ w.storage)
    (hj' : j' ∈ w.storage) (same : j.key = j'.key) : j = j' := by
  by_contra other
  have symm : Std.Symm fun j j' : ScheduledJob => j.key ≠ j'.key := ⟨fun _ _ h => h.symm⟩
  exact hw.single.forall hj hj' other same

theorem Orderly.get (hw : w.Orderly) {j : ScheduledJob} (hj : j ∈ w.storage) :
    w.get j.key = some j := by
  cases found : w.get j.key with
  | none => exact absurd (List.find?_eq_none.1 found j hj) (by simp)
  | some j' =>
    obtain ⟨hj', same⟩ := mem_of_get found
    rw [hw.eq_of_key hj' hj same]

/-- No message that is out is numbered like the record that the request would write. -/
def Unused (w : World) (input : ScheduleInput) : Prop :=
  ∀ m ∈ w.published, m.key = input.key →
    m.dedupeKey ≠ (input.dedupeKey, w.generation input.key + 1)

instance (input : ScheduleInput) : Decidable (w.Unused input) :=
  inferInstanceAs (Decidable (∀ m ∈ w.published, m.key = input.key →
    m.dedupeKey ≠ (input.dedupeKey, w.generation input.key + 1)))

theorem mem_schedule {now : Timestamp} {input : ScheduleInput} {j : ScheduledJob} :
    j ∈ (w.schedule now input).storage ↔
      (j ∈ w.storage ∧ j.key ≠ input.key) ∨ j = w.merged input := by
  simp [schedule]

/-- A request raises the generation of what is under way. -/
theorem keeps_schedule (hw : w.Orderly) (now : Timestamp) (input : ScheduleInput)
    (unused : w.Unused input) : (w.schedule now input).Orderly where
  single := by
    refine List.pairwise_append.2 ⟨hw.single.filter _, List.pairwise_singleton _ _, ?_⟩
    intro j hj j' hj'
    obtain rfl := List.mem_singleton.1 hj'
    show j.key ≠ input.key
    simpa using (List.mem_filter.1 hj).2
  distinct := hw.distinct
  stored j hj m hm := by
    rcases mem_schedule.1 hj with ⟨hj, -⟩ | rfl
    · exact hw.stored j hj m hm
    · exact fun same => .inr (unused m hm same.symm).symm
  listed := hw.listed
  published := hw.published
  current j hj := by
    obtain ⟨j', hj', same, under⟩ := hw.current j hj
    by_cases overtaken : j'.key = input.key
    · refine ⟨w.merged input, mem_schedule.2 (.inr (Eq.refl _)), overtaken.symm.trans same, .inr ?_⟩
      have found := hw.get hj'
      rw [overtaken] at found
      have next : (w.merged input).generation = j'.generation + 1 := by
        simp [merged, generation, found]
      rw [next]
      rcases under with rfl | under
      · exact Nat.lt_succ_self _
      · exact Nat.lt_succ_of_lt under
    · exact ⟨j', mem_schedule.2 (.inl ⟨hj', overtaken⟩), same, under⟩
  completed := hw.completed

/-- The alarm looks at less than before. -/
theorem Orderly.of_pending (hw : w.Orderly) {running : Option Alarm} {alarm : Option Timestamp}
    (fewer : List.Sublist { w with running, alarm }.pending w.pending) :
    Orderly { w with running, alarm } where
  single := hw.single
  distinct := hw.distinct.sublist fewer
  stored := hw.stored
  listed j hj := hw.listed j (fewer.subset hj)
  published := hw.published
  current j hj := hw.current j (fewer.subset hj)
  completed := hw.completed

theorem keeps_crash (hw : w.Orderly) : w.crash.Orderly :=
  hw.of_pending (List.nil_sublist _)

theorem keeps_fire (hw : w.Orderly) (now : Timestamp) : (w.fire now).Orderly := by
  unfold fire
  split
  · exact hw
  · exact ⟨hw.single, hw.single, hw.stored, hw.stored, hw.published,
      fun j hj => ⟨j, hj, Eq.refl _, .inl (Eq.refl _)⟩, hw.completed⟩

/-- What is sent is numbered like no other dispatch. -/
theorem Orderly.publish (hw : w.Orderly) {j : ScheduledJob} (hj : j ∈ w.pending)
    {running : Option Alarm}
    (fewer : List.Sublist { w with running }.pending w.pending) :
    Orderly { w with published := w.published ++ [j.message], running } := by
  have apart : ∀ m ∈ w.published, Apart j.message m := hw.listed j hj
  have mem : ∀ m ∈ w.published ++ [j.message], m ∈ w.published ∨ m = j.message := by
    intro m hm
    simpa using hm
  have listed : ∀ j' ∈ w.pending, Apart j'.message j.message := by
    intro j' hj'
    by_cases same : j' = j
    · rw [same]
      exact .rfl _
    · have symm : Std.Symm fun j j' : ScheduledJob => j.key ≠ j'.key := ⟨fun _ _ h => h.symm⟩
      exact fun key => absurd key (hw.distinct.forall hj' hj same)
  refine ⟨hw.single, hw.distinct.sublist fewer, fun j' hj' m hm => ?_, fun j' hj' m hm => ?_,
    fun m hm m' hm' => ?_, fun j' hj' => hw.current j' (fewer.subset hj'), fun c hc => ?_⟩
  · rcases mem m hm with hm | rfl
    · exact hw.stored j' hj' m hm
    -- a stored record is the one that is sent, or newer
    · intro key
      obtain ⟨j₀, hj₀, same, under⟩ := hw.current j hj
      obtain rfl : j' = j₀ := hw.eq_of_key hj' hj₀ (key.trans same.symm)
      rcases under with rfl | under
      · exact .inl (Eq.refl _)
      · refine .inr fun pair => ?_
        have number : j'.generation = j.generation := congrArg Prod.snd pair
        exact Nat.lt_irrefl _ (number ▸ under)
  · rcases mem m hm with hm | rfl
    · exact hw.listed j' (fewer.subset hj') m hm
    · exact listed j' (fewer.subset hj')
  · rcases mem m hm with hm | rfl
    · rcases mem m' hm' with hm' | rfl
      · exact hw.published m hm m' hm'
      · exact (apart m hm).symm
    · rcases mem m' hm' with hm' | rfl
      · exact apart m' hm'
      · exact .rfl _
  · obtain ⟨m, hm, same⟩ := hw.completed c hc
    exact ⟨m, List.mem_append_left _ hm, same⟩

theorem keeps_send (hw : w.Orderly) (x : Delivery) : (w.send x).Orderly := by
  unfold send
  split
  · rename_i now job rest running
    have pending : w.pending = job :: rest := by
      rw [World.pending, running]
      rfl
    have head : job ∈ w.pending := by
      rw [pending]
      exact List.mem_cons_self
    split
    · apply hw.of_pending
      rw [pending]
      exact List.sublist_cons_self job rest
    · cases x with
      | done =>
        apply hw.publish head
        rw [pending]
        exact List.Sublist.refl _
      | lost m => exact keeps_crash hw
      | unacknowledged m => exact hw.publish head (List.nil_sublist _)
  · exact hw

theorem keeps_remove (hw : w.Orderly) : w.remove.Orderly := by
  unfold remove
  split
  · rename_i now job rest running
    have pending : w.pending = job :: rest := by
      rw [World.pending, running]
      rfl
    have fewer : List.Sublist rest w.pending := by
      rw [pending]
      exact List.sublist_cons_self job rest
    have others : ∀ j ∈ rest, j.key ≠ job.key := by
      have distinct := hw.distinct
      rw [pending] at distinct
      exact fun j hj => (List.rel_of_pairwise_cons distinct hj).symm
    dsimp only
    split
    · rename_i current found
      split
      · refine ⟨hw.single.filter _, hw.distinct.sublist fewer,
          fun j hj => hw.stored j (List.mem_filter.1 hj).1,
          fun j hj => hw.listed j (fewer.subset hj), hw.published, fun j hj => ?_, hw.completed⟩
        obtain ⟨j', hj', same, under⟩ := hw.current j (fewer.subset hj)
        refine ⟨j', List.mem_filter.2 ⟨hj', ?_⟩, same, under⟩
        have other : j'.key ≠ job.key := by
          rw [same]
          exact others j hj
        simpa using other
      · exact hw.of_pending fewer
    · exact hw.of_pending fewer
  · exact hw

theorem keeps_rearm (hw : w.Orderly) (now : Timestamp) : (w.rearm now).Orderly := by
  unfold rearm
  split
  · exact hw.of_pending (List.nil_sublist _)
  · exact hw

theorem keeps_complete (hw : w.Orderly) (i : Nat) : (w.complete i).Orderly := by
  unfold complete
  split
  · rename_i m found
    refine ⟨hw.single, hw.distinct, hw.stored, hw.listed, hw.published, hw.current, ?_⟩
    intro c hc
    rcases List.mem_append.1 hc with hc | hc
    · exact hw.completed c hc
    · exact ⟨m, List.mem_of_getElem? found, List.mem_singleton.1 hc⟩
  · exact hw

end World

/-! ### Every history -/

/-- A request does not number its record like a message that is out. -/
def Event.Fresh : Event → World → Prop
  | .schedule _ input, w => w.Unused input
  | _, _ => True

instance : (e : Event) → (w : World) → Decidable (e.Fresh w)
  | .schedule _ input, w => inferInstanceAs (Decidable (w.Unused input))
  | .fire _, _ | .send _, _ | .remove, _ | .rearm _, _ | .crash, _ | .complete _, _ =>
    isTrue trivial

theorem machine_orderly (e : Event) (w : World) (hw : w.Orderly) (fresh : e.Fresh w) :
    (machine.step e w).Orderly := by
  cases e with
  | schedule now input => exact World.keeps_schedule hw now input fresh
  | fire now => exact World.keeps_fire hw now
  | send x => exact World.keeps_send hw x
  | remove => exact World.keeps_remove hw
  | rearm now => exact World.keeps_rearm hw now
  | crash => exact World.keeps_crash hw
  | complete i => exact World.keeps_complete hw i

theorem initial_orderly : World.initial.Orderly where
  single := .nil
  distinct := .nil
  stored _ hj := absurd hj List.not_mem_nil
  listed _ hj := absurd hj List.not_mem_nil
  published _ hm := absurd hm List.not_mem_nil
  current _ hj := absurd hj List.not_mem_nil
  completed _ hc := absurd hc List.not_mem_nil

/-- Dispatches have keys of their own, and what was not published yet is published under a
key that is not completed. -/
structure World.Distinct (w : World) : Prop where
  dispatches : ∀ m ∈ w.published, ∀ m' ∈ w.published, m.key = m'.key →
    m.request ≠ m'.request → m.dedupeKey ≠ m'.dedupeKey
  claimable : ∀ j ∈ w.storage ++ w.pending,
    (∀ m ∈ w.published, m.key = j.key → m.request ≠ j.request) →
    (j.key, j.dedupeKey, j.generation) ∉ w.completed

theorem World.Orderly.distinct_keys {w : World} (hw : w.Orderly) : w.Distinct where
  dispatches m hm m' hm' same other := (hw.published m hm m' hm' same).resolve_left other
  claimable j hj unpublished done := by
    obtain ⟨m, hm, same⟩ := hw.completed _ done
    have key : j.key = m.key := congrArg Prod.fst same
    have pair : (j.dedupeKey, j.generation) = m.dedupeKey := congrArg Prod.snd same
    have apart : World.Apart j.message m := by
      rcases List.mem_append.1 hj with hj | hj
      · exact hw.stored j hj m hm
      · exact hw.listed j hj m hm
    rcases apart key with request | other
    · exact unpublished m hm key.symm request.symm
    · exact other pair

/-- In every history whose requests number no record like a message that is out, dispatches
have keys of their own, and none is published under a completed key. -/
theorem job_keys_distinct (es : List Event) (fresh : machine.Along Event.Fresh .initial es) :
    (machine.run .initial es).Distinct :=
  (Machine.invariant machine_orderly initial_orderly fresh).distinct_keys

/-! An attestation is asked for, and asked for again while its message waits. -/

def attestation : StorageKey where
  job := .cctpAttestation
  partition := "84532"
  resourceId := 1

def attestationRequest (runAt : Timestamp) : ScheduleInput where
  key := attestation
  dedupeKey := "cctp-attestation:1"
  runAt := runAt

def askedTwice : List Event :=
  [.schedule 0 (attestationRequest 5000), .fire 5000, .send .done,
    .schedule 5001 (attestationRequest 10001), .remove, .rearm 5002, .complete 0, .fire 10001,
    .send .done, .remove, .rearm 10002]

theorem job_keys_distinct_askedTwice :
    (machine.run .initial askedTwice).published.map (·.dedupeKey) =
      [("cctp-attestation:1", 1), ("cctp-attestation:1", 2)] ∧
    (machine.run .initial askedTwice).Distinct :=
  ⟨by decide, job_keys_distinct askedTwice (by decide)⟩

/-- An attestation is asked for again after its message was published and completed. -/
def askedAgain : List Event :=
  [.schedule 0 (attestationRequest 5000), .fire 5000, .send .done, .remove, .rearm 5001,
    .complete 0, .schedule 6000 (attestationRequest 11000), .fire 11000, .send .done]

/-- The second dispatch has the key of the first, which is completed. -/
theorem scheduled_again :
    (machine.run .initial askedAgain).published.map (fun m => (m.request, m.dedupeKey)) =
      [(0, "cctp-attestation:1", 1), (1, "cctp-attestation:1", 1)] ∧
    (attestation, "cctp-attestation:1", 1) ∈ (machine.run .initial askedAgain).completed ∧
    ¬ (machine.run .initial askedAgain).Distinct := by
  refine ⟨by decide, by decide, fun distinct => ?_⟩
  have apart := distinct.dispatches
  revert apart
  decide

end ParmeliaLinks.Jobs.Scheduler
