/-
ParmeliaLinks/Server/Wakeups.lean

No wakeup is lost.  A request that the scheduler of event jobs has accepted should
lead to a message sent after it, for a block no earlier than its own, or still be
waiting in a record that is due in time: at the time of the request, or within the
retry delay after the last attempt.  And whenever a record is stored, an alarm
should be armed (`NoLostWakeup`).

Two things go wrong.  A request that comes while the record is being dispatched
replaces the time of the record by its own, and counts on the batch: when the batch
fails, nobody puts the older requests back.  And a request that fails between its
transaction and the alarm leaves a record that no alarm is set for, which later
requests then find and are merged into.  `Event.Prompt` says when this does no harm.
-/
import ParmeliaLinks.Server.EventScheduler

namespace ParmeliaLinks.Server.EventJobs

/-! ### The property -/

/-- The end of the retry delay after the last attempt. -/
def ScheduledEventJob.retryAt (j : ScheduledEventJob) : Timestamp :=
  match j.lastAttempt with
  | none => 0
  | some now => now + dispatchRetryMs j.dispatchAttempts

/-- The record is for the request, and due in time. -/
structure Honours (j : ScheduledEventJob) (r : ScheduleRequest) : Prop where
  key : j.key = r.key
  target : Reaches j.targetBlock r.targetBlock
  runAt : j.runAt ≤ max r.runAt j.retryAt

namespace World

variable (w : World)

/-- The records whose messages are on their way. -/
def inFlight : List ScheduledEventJob :=
  match w.running with
  | some (.sending _ due) => due
  | _ => []

/-- A message for the request was sent after it was accepted. -/
def Answered (a : Accepted) : Prop :=
  ∃ m ∈ w.sent.drop a.sentBefore, m.key = a.request.key ∧
    Reaches m.targetBlock a.request.targetBlock

/-- A message for the request was sent or is on its way, or it waits in a record. -/
def Covered (a : Accepted) : Prop :=
  w.Answered a ∨ (∃ j ∈ w.inFlight, Honours j a.request) ∨ ∃ j ∈ w.storage, Honours j a.request

/-- An alarm is set, or runs, or is to be run again. -/
def Armed : Prop := w.alarm.isSome = true ∨ w.running.isSome = true ∨ w.retry = true

/-- Every request is covered, and an alarm is armed when there is a record. -/
structure NoLostWakeup : Prop where
  covered : ∀ a ∈ w.accepted, w.Covered a
  armed : ∀ j ∈ w.storage, w.Armed

/-! ### The conditions -/

/-- The request is merged into no record that is `dispatching`, but for one whose message is
on its way, unless it is due no later. -/
def Leaves (r : ScheduleRequest) : Prop :=
  ∀ j ∈ w.storage, j.key = r.key → j.state = .dispatching →
    (∃ i ∈ w.inFlight, i.key = j.key ∧ i.generation = j.generation) ∨ r.runAt ≤ j.runAt

/-- No request has put off a record whose message is on its way. -/
def InTime : Prop :=
  ∀ i ∈ w.inFlight, ∀ j ∈ w.storage, j.key = i.key → j.runAt ≤ i.runAt

end World

/-- A request puts off no record that is not on its way, a batch that is lost finds no
record put off, and a request fails before it looks at the alarm only while one is armed. -/
def Event.Prompt : Event → World → Prop
  | .schedule _ r, w => w.Leaves r
  | .interrupted r, w => w.Leaves r ∧ w.Armed
  | .send (.lost _), w => w.InTime
  | .crash, w => w.InTime
  | _, _ => True

instance (a b : Option BlockNumber) : Decidable (Reaches a b) :=
  match a, b with
  | none, none | some _, none => isTrue trivial
  | some a, some b => inferInstanceAs (Decidable (b ≤ a))
  | none, some _ => isFalse id

instance (j : ScheduledEventJob) (r : ScheduleRequest) : Decidable (Honours j r) :=
  decidable_of_iff (j.key = r.key ∧ Reaches j.targetBlock r.targetBlock ∧
      j.runAt ≤ max r.runAt j.retryAt)
    ⟨fun ⟨key, target, runAt⟩ => ⟨key, target, runAt⟩, fun h => ⟨h.key, h.target, h.runAt⟩⟩

instance (w : World) (a : Accepted) : Decidable (w.Answered a) :=
  inferInstanceAs (Decidable (∃ m ∈ w.sent.drop a.sentBefore, m.key = a.request.key ∧
    Reaches m.targetBlock a.request.targetBlock))

instance (w : World) (a : Accepted) : Decidable (w.Covered a) :=
  inferInstanceAs (Decidable (w.Answered a ∨ (∃ j ∈ w.inFlight, Honours j a.request) ∨
    ∃ j ∈ w.storage, Honours j a.request))

instance (w : World) : Decidable w.Armed :=
  inferInstanceAs (Decidable (_ ∨ _ ∨ _))

instance (w : World) (r : ScheduleRequest) : Decidable (w.Leaves r) :=
  inferInstanceAs (Decidable (∀ j ∈ w.storage, j.key = r.key → j.state = .dispatching →
    (∃ i ∈ w.inFlight, i.key = j.key ∧ i.generation = j.generation) ∨ r.runAt ≤ j.runAt))

instance (w : World) : Decidable w.InTime :=
  inferInstanceAs (Decidable (∀ i ∈ w.inFlight, ∀ j ∈ w.storage, j.key = i.key →
    j.runAt ≤ i.runAt))

instance : (e : Event) → (w : World) → Decidable (e.Prompt w)
  | .schedule _ r, w => inferInstanceAs (Decidable (w.Leaves r))
  | .interrupted r, w => inferInstanceAs (Decidable (w.Leaves r ∧ w.Armed))
  | .send (.lost _), w => inferInstanceAs (Decidable w.InTime)
  | .crash, w => inferInstanceAs (Decidable w.InTime)
  | .send .done, _ | .send (.unacknowledged _), _ | .fire _, _ | .mark, _ | .call, _
  | .queueMissing, _ | .settle, _ | .armEarliestJob _, _ => isTrue trivial

/-! ### The invariant -/

/-- What became of a record: it stands for the same request, or for more. -/
structure Follows (i j : ScheduledEventJob) : Prop where
  key : j.key = i.key
  target : Reaches j.targetBlock i.targetBlock
  retryAt : j.retryAt = i.retryAt
  grown : i.generation ≤ j.generation
  same : j.generation = i.generation → j.toScheduleRequest = i.toScheduleRequest

theorem Follows.rfl (j : ScheduledEventJob) : Follows j j :=
  ⟨by rfl, .rfl _, by rfl, Nat.le_refl _, fun _ => by rfl⟩

theorem Follows.trans {i j k : ScheduledEventJob} (h : Follows i j) (h' : Follows j k) :
    Follows i k where
  key := h'.key.trans h.key
  target := h'.target.trans h.target
  retryAt := h'.retryAt.trans h.retryAt
  grown := h.grown.trans h'.grown
  same number := by
    have first : j.generation = i.generation := by
      have := h.grown
      have := h'.grown
      omega
    exact (h'.same (number.trans first.symm)).trans (h.same first)

/-- A record that is due no later honours what the one before it did. -/
theorem Follows.honours {i j : ScheduledEventJob} (h : Follows i j) (runAt : j.runAt ≤ i.runAt)
    {r : ScheduleRequest} (hi : Honours i r) : Honours j r where
  key := h.key.trans hi.key
  target := h.target.trans hi.target
  runAt := by
    rw [h.retryAt]
    exact runAt.trans hi.runAt

/-- A record into which nothing was merged honours what it does afterwards. -/
theorem Follows.honours_same {i j : ScheduledEventJob} (h : Follows i j)
    (number : j.generation = i.generation) {r : ScheduleRequest} (hj : Honours j r) :
    Honours i r := by
  have same := h.same number
  refine ⟨?_, ?_, ?_⟩
  · rw [← same]
    exact hj.key
  · rw [← same]
    exact hj.target
  · rw [← same, ← h.retryAt]
    exact hj.runAt

namespace World

/-- What an alarm that runs knows of the storage. -/
def Underway (w : World) : Prop :=
  match w.running with
  | none => True
  | some (.marking _ _ due) => ∀ i ∈ due, ∃ j ∈ w.storage, Follows i j
  | some (.sending _ due) => ∀ i ∈ due, ∃ j ∈ w.storage, Follows i j
  | some (.settling _ false _) => True
  | some (.settling _ true rest) => ∀ i ∈ rest, ∀ j ∈ w.storage, j.key = i.key →
      j.generation = i.generation → ∀ a ∈ w.accepted, a.request.key = i.key → w.Answered a

structure Sound (w : World) : Prop extends w.NoLostWakeup where
  underway : w.Underway
  before : ∀ a ∈ w.accepted, a.sentBefore ≤ w.sent.length

variable {w w' : World} {a : Accepted}

/-- What is sent later leaves answers as they are. -/
theorem Answered.append {sent : List EventJobMessage} (h : w.Answered a)
    (hs : w'.sent = w.sent ++ sent) : w'.Answered a := by
  obtain ⟨m, hm, for_⟩ := h
  refine ⟨m, ?_, for_⟩
  rw [hs, List.drop_append]
  exact List.mem_append_left _ hm

/-- A request whose record is in a batch is answered by it. -/
theorem answered_of_sent {due : List ScheduledEventJob} {i : ScheduledEventJob}
    (hs : w'.sent = w.sent ++ due.map toQueueMessage) (before : a.sentBefore ≤ w.sent.length)
    (hi : i ∈ due) (key : i.key = a.request.key)
    (target : Reaches i.targetBlock a.request.targetBlock) : w'.Answered a := by
  refine ⟨toQueueMessage i, ?_, key, target⟩
  rw [hs, List.drop_append, Nat.sub_eq_zero_of_le before, List.drop_zero]
  exact List.mem_append_right _ (List.mem_map_of_mem hi)

/-- Every record is still there, and due no later. -/
def Persists (w w' : World) : Prop :=
  ∀ j ∈ w.storage, ∃ j' ∈ w'.storage, Follows j j' ∧ j'.runAt ≤ j.runAt

theorem Persists.of_eq (h : w'.storage = w.storage) : w.Persists w' := fun j hj =>
  ⟨j, h ▸ hj, .rfl j, Nat.le_refl _⟩

theorem Covered.persists (h : w.Covered a) (hs : w'.sent = w.sent)
    (hf : ∀ i ∈ w.inFlight, i ∈ w'.inFlight) (hp : w.Persists w') : w'.Covered a := by
  rcases h with answered | ⟨i, hi, honours⟩ | ⟨j, hj, honours⟩
  · exact .inl (answered.append (hs.trans (List.append_nil _).symm))
  · exact .inr (.inl ⟨i, hf i hi, honours⟩)
  · obtain ⟨j', hj', follows, runAt⟩ := hp j hj
    exact .inr (.inr ⟨j', hj', follows.honours runAt honours⟩)

theorem follows_persists {due : List ScheduledEventJob} (hp : w.Persists w')
    (h : ∀ i ∈ due, ∃ j ∈ w.storage, Follows i j) : ∀ i ∈ due, ∃ j ∈ w'.storage, Follows i j := by
  intro i hi
  obtain ⟨j, hj, follows⟩ := h i hi
  obtain ⟨j', hj', follows', -⟩ := hp j hj
  exact ⟨j', hj', follows.trans follows'⟩

theorem Underway.flight (hu : w.Underway) : ∀ i ∈ w.inFlight, ∃ j ∈ w.storage, Follows i j := by
  intro i hi
  unfold inFlight at hi
  split at hi
  · rename_i under
    rw [Underway, under] at hu
    exact hu i hi
  · cases hi

/-! ### Requests -/

/-- The record of a request, when there was one before. -/
theorem mergeScheduledJob_follows (j : ScheduledEventJob) (r : ScheduleRequest)
    (key : j.key = r.key) :
    Follows j (mergeScheduledJob (some j) r).1 ∧
      (j.state = .scheduled ∨ r.runAt ≤ j.runAt →
        (mergeScheduledJob (some j) r).1.runAt ≤ j.runAt) := by
  simp only [mergeScheduledJob]
  split
  · exact ⟨.rfl j, fun _ => Nat.le_refl _⟩
  · refine ⟨⟨key.symm, (mergedTarget_reaches _ _).1, rfl, Nat.le_succ _, fun number => ?_⟩,
      fun early => ?_⟩
    · exact absurd number (Nat.succ_ne_self _)
    · show (if j.state = .scheduled then min j.runAt r.runAt else r.runAt) ≤ j.runAt
      rcases early with scheduled | early
      · rw [if_pos scheduled]
        exact Nat.min_le_left _ _
      · split
        · exact Nat.min_le_left _ _
        · exact early

/-- The record of a request honours it. -/
theorem mergeScheduledJob_honours (existing : Option ScheduledEventJob) (r : ScheduleRequest)
    (key : ∀ j, existing = some j → j.key = r.key) :
    Honours (mergeScheduledJob existing r).1 r := by
  cases existing with
  | none => exact ⟨rfl, .rfl _, Nat.le_max_left _ _⟩
  | some j =>
    simp only [mergeScheduledJob]
    split
    · rename_i kept
      exact ⟨key j rfl, reaches_of_not_advanced kept.2.2, kept.2.1.trans (Nat.le_max_left _ _)⟩
    · refine ⟨rfl, (mergedTarget_reaches _ _).2, le_trans ?_ (Nat.le_max_left _ _)⟩
      show (if j.state = .scheduled then min j.runAt r.runAt else r.runAt) ≤ r.runAt
      split
      · exact Nat.min_le_right _ _
      · exact Nat.le_refl _

theorem mergeScheduledJob_key (existing : Option ScheduledEventJob) (r : ScheduleRequest)
    (key : ∀ j, existing = some j → j.key = r.key) :
    (mergeScheduledJob existing r).1.key = r.key :=
  (mergeScheduledJob_honours existing r key).key

/-- What is stored after the transaction of a request. -/
theorem mem_merge {r : ScheduleRequest} {j : ScheduledEventJob} :
    j ∈ (w.merge r).storage ↔ (j ∈ w.storage ∧ j.key ≠ r.key) ∨
      j = (mergeScheduledJob (w.get r.key) r).1 := by
  have key := mergeScheduledJob_key (w.get r.key) r fun j hj => (get_eq_some hj).2
  simp only [merge]
  split
  · show j ∈ w.put _ ↔ _
    rw [mem_put, key]
  · -- nothing is written: the record is the one that is there
    rename_i unchanged
    cases found : w.get r.key with
    | none =>
      rw [found] at unchanged
      exact absurd rfl unchanged
    | some current =>
      obtain ⟨hcurrent, hkey⟩ := get_eq_some found
      have same : (mergeScheduledJob (some current) r).1 = current := by
        rw [found] at unchanged
        simp only [mergeScheduledJob] at unchanged ⊢
        split
        · rfl
        · rename_i changed
          rw [if_neg changed] at unchanged
          exact absurd rfl unchanged
      rw [same]
      constructor
      · intro hj
        by_cases hk : j.key = r.key
        · exact .inr (eq_of_key hj hcurrent (hk.trans hkey.symm))
        · exact .inl ⟨hj, hk⟩
      · rintro (⟨hj, -⟩ | rfl)
        · exact hj
        · exact hcurrent

theorem merge_running (r : ScheduleRequest) : (w.merge r).running = w.running ∧
    (w.merge r).sent = w.sent ∧ (w.merge r).accepted = w.accepted ∧
    (w.merge r).alarm = w.alarm ∧ (w.merge r).retry = w.retry := by
  simp only [merge]
  split <;> exact ⟨rfl, rfl, rfl, rfl, rfl⟩

/-- Every record is still there after a request, and due no later unless the request has put
it off. -/
theorem merge_follows (r : ScheduleRequest) {j : ScheduledEventJob} (hj : j ∈ w.storage) :
    ∃ j' ∈ (w.merge r).storage, Follows j j' ∧
      (j.key ≠ r.key ∨ j.state = .scheduled ∨ r.runAt ≤ j.runAt → j'.runAt ≤ j.runAt) := by
  by_cases key : j.key = r.key
  · have found : w.get r.key = some j := key ▸ get_of_mem hj
    obtain ⟨follows, runAt⟩ := mergeScheduledJob_follows j r key
    refine ⟨_, mem_merge.2 (.inr rfl), ?_⟩
    rw [found]
    exact ⟨follows, fun early => runAt (early.resolve_left fun other => other key)⟩
  · exact ⟨j, mem_merge.2 (.inl ⟨hj, key⟩), .rfl j, fun _ => Nat.le_refl _⟩

/-- A request leaves every other one covered. -/
theorem Covered.merge (h : w.Covered a) (hu : w.Underway) (r : ScheduleRequest)
    (leaves : w.Leaves r) : (w.merge r).Covered a := by
  obtain ⟨running, sent, -⟩ := w.merge_running r
  have flight : (w.merge r).inFlight = w.inFlight := by
    rw [inFlight, running, inFlight]
  rcases h with answered | ⟨i, hi, honours⟩ | ⟨j, hj, honours⟩
  · exact .inl (answered.append (sent.trans (List.append_nil _).symm))
  · exact .inr (.inl ⟨i, flight.symm ▸ hi, honours⟩)
  · obtain ⟨j', hj', follows, runAt⟩ := merge_follows r hj
    by_cases early : j.key ≠ r.key ∨ j.state = .scheduled ∨ r.runAt ≤ j.runAt
    · exact .inr (.inr ⟨j', hj', follows.honours (runAt early) honours⟩)
    · -- the record was being dispatched, and its message is on its way
      simp only [not_or, not_not] at early
      obtain ⟨key, unscheduled, later⟩ := early
      have dispatching : j.state = .dispatching := by
        cases state : j.state with
        | scheduled => exact absurd state unscheduled
        | dispatching => rfl
      obtain ⟨i, hi, sameKey, number⟩ := (leaves j hj key dispatching).resolve_right later
      obtain ⟨j₀, hj₀, follows₀⟩ := hu.flight i hi
      obtain rfl : j₀ = j := eq_of_key hj₀ hj (follows₀.key.trans sameKey)
      exact .inr (.inl ⟨i, flight.symm ▸ hi, follows₀.honours_same number.symm honours⟩)

/-- A request leaves an alarm that runs what it knows. -/
theorem Underway.merge (hu : w.Underway) (idle : w.admits = true) (r : ScheduleRequest)
    {alarm : Option Timestamp} {accepted : List Accepted} :
    Underway { w.merge r with alarm, accepted } := by
  obtain ⟨running, -⟩ := w.merge_running r
  have kept : ∀ i j : ScheduledEventJob, j ∈ w.storage → Follows i j →
      ∃ j' ∈ (w.merge r).storage, Follows i j' := by
    intro i j hj follows
    obtain ⟨j', hj', follows', -⟩ := merge_follows r hj
    exact ⟨j', hj', follows.trans follows'⟩
  unfold admits at idle
  unfold Underway at hu ⊢
  simp only [running]
  split
  · trivial
  · rename_i under
    rw [under] at idle
    cases idle
  · rename_i under
    rw [under] at hu
    intro i hi
    obtain ⟨j, hj, follows⟩ := hu i hi
    exact kept i j hj follows
  · trivial
  · rename_i under
    rw [under] at idle
    cases idle

theorem armed_merge (hw : w.Sound) {r : ScheduleRequest} {now : Timestamp} :
    let merged := mergeScheduledJob (w.get r.key) r
    (if merged.2 && w.alarm.all (merged.1.runAt < ·) then some (max now merged.1.runAt)
      else w.alarm).isSome = true ∨ w.running.isSome = true ∨ w.retry = true := by
  intro merged
  split
  · exact .inl rfl
  · rename_i kept
    cases alarm : w.alarm with
    | some t => exact .inl rfl
    | none =>
      -- nothing was written, so that a record is there
      cases found : w.get r.key with
      | none =>
        refine absurd ?_ kept
        simp [merged, found, alarm, mergeScheduledJob]
      | some j =>
        have armed := hw.armed j (get_eq_some found).1
        rw [Armed, alarm] at armed
        exact armed

theorem sound_schedule (hw : w.Sound) (now : Timestamp) (r : ScheduleRequest)
    (leaves : w.Leaves r) : (w.schedule now r).Sound := by
  unfold schedule
  split
  · rename_i admits
    obtain ⟨running, sent, accepted, -, retry⟩ := w.merge_running r
    have key := fun j (hj : w.get r.key = some j) => (get_eq_some hj).2
    refine ⟨⟨fun a ha => ?_, fun j _ => ?_⟩, hw.underway.merge admits r, fun a ha => ?_⟩
    · rcases List.mem_append.1 ha with ha | ha
      · exact (hw.covered a ha).merge hw.underway r leaves
      · obtain rfl := List.mem_singleton.1 ha
        exact .inr (.inr ⟨_, mem_merge.2 (.inr rfl), mergeScheduledJob_honours _ r key⟩)
    · rw [Armed, running, retry]
      exact armed_merge hw
    · show a.sentBefore ≤ (w.merge r).sent.length
      rw [sent]
      rcases List.mem_append.1 ha with ha | ha
      · exact hw.before a ha
      · obtain rfl := List.mem_singleton.1 ha
        exact Nat.le_refl _
  · exact hw

theorem sound_interrupted (hw : w.Sound) (r : ScheduleRequest) (leaves : w.Leaves r)
    (armed : w.Armed) : (w.interrupted r).Sound := by
  unfold interrupted
  split
  · rename_i admits
    obtain ⟨running, sent, accepted, alarm, retry⟩ := w.merge_running r
    refine ⟨⟨fun a ha => ?_, fun j _ => ?_⟩, hw.underway.merge admits r, fun a ha => ?_⟩
    · rw [accepted] at ha
      exact (hw.covered a ha).merge hw.underway r leaves
    · rw [Armed, running, retry, alarm]
      exact armed
    · rw [accepted] at ha
      rw [sent]
      exact hw.before a ha
  · exact hw

/-! ### The alarm -/

/-- A step of an alarm that sends nothing and loses no record. -/
theorem Sound.step (hw : w.Sound) (hs : w'.sent = w.sent) (ha : w'.accepted = w.accepted)
    (hf : ∀ i ∈ w.inFlight, i ∈ w'.inFlight) (hp : w.Persists w') (armed : w'.Armed)
    (hu : w'.Underway) : w'.Sound where
  covered a h := (hw.covered a (ha ▸ h)).persists hs hf hp
  armed _ _ := armed
  underway := hu
  before a h := by
    rw [hs]
    exact hw.before a (ha ▸ h)

theorem no_flight (h : ∀ now due, w.running ≠ some (.sending now due)) : w.inFlight = [] := by
  unfold inFlight
  split
  · exact absurd ‹_› (h _ _)
  · rfl

theorem sound_fire (hw : w.Sound) (now : Timestamp) : (w.fire now).Sound := by
  unfold fire
  split
  · exact hw
  · rename_i idle
    split
    · refine hw.step rfl rfl (fun i hi => ?_) (.of_eq rfl) (.inr (.inl rfl)) fun i hi => by cases hi
      rw [no_flight fun _ _ => by rw [idle]; exact fun h => by cases h] at hi
      cases hi
    · exact hw

/-- Marking a record leaves what it stands for. -/
theorem persists_mark {current : ScheduledEventJob} (hc : current ∈ w.storage)
    (running : Option Alarm) :
    w.Persists { w with storage := w.put { current with state := .dispatching }, running } := by
  intro j hj
  by_cases key : j.key = current.key
  · obtain rfl := eq_of_key hj hc key
    refine ⟨{ j with state := .dispatching }, mem_put.2 (.inr rfl), ?_, Nat.le_refl _⟩
    exact ⟨rfl, .rfl _, rfl, Nat.le_refl _, fun _ => rfl⟩
  · exact ⟨j, mem_put.2 (.inl ⟨hj, key⟩), .rfl j, Nat.le_refl _⟩

theorem sound_mark (hw : w.Sound) : w.mark.Sound := by
  unfold mark
  split
  · rename_i now candidate candidates due running
    have hu : ∀ i ∈ due, ∃ j ∈ w.storage, Follows i j := by
      have hu := hw.underway
      rw [Underway, running] at hu
      exact hu
    have flight : ∀ w' : World, ∀ i ∈ w.inFlight, i ∈ w'.inFlight := by
      intro w' i hi
      rw [no_flight fun _ _ => by rw [running]; exact fun h => by cases h] at hi
      cases hi
    have skip : Sound { w with running := some (.marking now candidates due) } :=
      hw.step rfl rfl (flight _) (.of_eq rfl) (.inr (.inl rfl)) hu
    split
    · rename_i current found
      split
      · have persists := persists_mark (get_eq_some found).1
          (some (.marking now candidates (due ++ [{ current with state := .dispatching }])))
        refine hw.step rfl rfl (flight _) persists (.inr (.inl rfl)) fun i hi => ?_
        rcases List.mem_append.1 hi with hi | hi
        · exact follows_persists persists hu i hi
        · obtain rfl := List.mem_singleton.1 hi
          exact ⟨_, mem_put.2 (.inr rfl), .rfl _⟩
      · exact skip
    · exact skip
  · exact hw

theorem sound_call (hw : w.Sound) : w.call.Sound := by
  unfold call
  split
  · rename_i now due running
    split
    · exact hw
    · have hu := hw.underway
      rw [Underway, running] at hu
      refine hw.step rfl rfl (fun i hi => ?_) (.of_eq rfl) (.inr (.inl rfl)) hu
      rw [no_flight fun _ _ => by rw [running]; exact fun h => by cases h] at hi
      cases hi
  · exact hw

theorem sound_queueMissing (hw : w.Sound) : w.queueMissing.Sound := by
  unfold queueMissing
  split
  · rename_i now due running
    split
    · exact hw
    · refine hw.step rfl rfl (fun i hi => ?_) (.of_eq rfl) (.inr (.inl rfl)) trivial
      rw [no_flight fun _ _ => by rw [running]; exact fun h => by cases h] at hi
      cases hi
  · exact hw

/-- A batch that is given up: the records that were in it honour what their messages were
for. -/
theorem Sound.giveUp (hw : w.Sound) (inTime : w.InTime) {running : Option Alarm} {retry : Bool}
    (armed : Armed { w with running, retry }) (hu : Underway { w with running, retry }) :
    Sound { w with running, retry } where
  covered a ha := by
    rcases hw.covered a ha with answered | ⟨i, hi, honours⟩ | stored
    · exact .inl answered
    · obtain ⟨j, hj, follows⟩ := hw.underway.flight i hi
      exact .inr (.inr ⟨j, hj, follows.honours (inTime i hi j hj follows.key) honours⟩)
    · exact .inr (.inr stored)
  armed _ _ := armed
  underway := hu
  before := hw.before

/-- A batch that is sent answers what its records were for. -/
theorem Sound.deliver (hw : w.Sound) {now : Timestamp} {due : List ScheduledEventJob}
    (under : w.running = some (.sending now due)) {running : Option Alarm}
    (armed : running.isSome = true)
    (hu : Underway { w with sent := w.sent ++ due.map toQueueMessage, running }) :
    Sound { w with sent := w.sent ++ due.map toQueueMessage, running } where
  covered a ha := by
    rcases hw.covered a ha with answered | ⟨i, hi, honours⟩ | stored
    · exact .inl (answered.append rfl)
    · rw [inFlight, under] at hi
      exact .inl (answered_of_sent rfl (hw.before a ha) hi honours.key honours.target)
    · exact .inr (.inr stored)
  armed _ _ := .inr (.inl armed)
  underway := hu
  before a ha := by
    rw [List.length_append]
    exact Nat.le_add_right_of_le (hw.before a ha)

/-- What was accepted for a record of the batch that nothing was merged into is answered. -/
theorem answered_of_batch (hw : w.Sound) {now : Timestamp} {due : List ScheduledEventJob}
    (under : w.running = some (.sending now due)) {i j : ScheduledEventJob} (hi : i ∈ due)
    (hj : j ∈ w.storage) (key : j.key = i.key) (number : j.generation = i.generation)
    (ha : a ∈ w.accepted) (hkey : a.request.key = i.key)
    (hs : w'.sent = w.sent ++ due.map toQueueMessage) : w'.Answered a := by
  have before := hw.before a ha
  rcases hw.covered a ha with answered | ⟨i', hi', honours⟩ | ⟨j', hj', honours⟩
  · exact answered.append hs
  · rw [inFlight, under] at hi'
    exact answered_of_sent hs before hi' honours.key honours.target
  · obtain rfl : j' = j := eq_of_key hj' hj (honours.key.trans (hkey.trans key.symm))
    have flight : i ∈ w.inFlight := by
      rw [inFlight, under]
      exact hi
    obtain ⟨j₀, hj₀, follows⟩ := hw.underway.flight i flight
    obtain rfl : j₀ = j' := eq_of_key hj₀ hj (follows.key.trans key.symm)
    have same := follows.honours_same number honours
    exact answered_of_sent hs before hi same.key same.target

theorem sound_send (hw : w.Sound) (x : Delivery) (lost : ∀ m, x = .lost m → w.InTime) :
    (w.send x).Sound := by
  unfold send
  split
  · rename_i now due under
    cases x with
    | done =>
      refine hw.deliver under rfl fun i hi j hj key number a ha hkey => ?_
      exact answered_of_batch hw under hi hj key number ha hkey rfl
    | lost m => exact @Sound.giveUp w hw (lost m rfl) _ w.retry (.inr (.inl rfl)) trivial
    | unacknowledged m => exact hw.deliver under rfl trivial
  · exact hw

theorem sound_crash (hw : w.Sound) (inTime : w.InTime) : w.crash.Sound := by
  unfold crash
  split
  · exact hw.giveUp inTime (.inr (.inr rfl)) trivial
  · exact hw

/-- What is put off is due at the end of the retry delay. -/
theorem honours_putOff {j : ScheduledEventJob} {r : ScheduleRequest} (h : Honours j r)
    (now : Timestamp) : Honours (putOff now j) r :=
  ⟨h.key, h.target, Nat.le_max_right _ _⟩

theorem sound_settle (hw : w.Sound) : w.settle.Sound := by
  unfold settle
  split
  · rename_i now sent job rest under
    have flight : w.inFlight = [] := no_flight fun _ _ => by
      rw [under]
      exact fun h => by cases h
    have known : sent = true → ∀ i ∈ job :: rest, ∀ j ∈ w.storage, j.key = i.key →
        j.generation = i.generation → ∀ a ∈ w.accepted, a.request.key = i.key → w.Answered a := by
      rintro rfl
      have hu := hw.underway
      rw [Underway, under] at hu
      exact hu
    have skip : Sound { w with running := some (.settling now sent rest) } := by
      refine hw.step rfl rfl (fun i hi => ?_) (.of_eq rfl) (.inr (.inl rfl)) ?_
      · rw [flight] at hi
        cases hi
      · cases sent with
        | false => trivial
        | true => exact fun i hi => known rfl i (List.mem_cons_of_mem _ hi)
    dsimp only
    split
    · rename_i current found
      obtain ⟨hcurrent, hkey⟩ := get_eq_some found
      split
      · rename_i number
        cases sent with
        | true =>
          -- the record goes: what it was for has been answered
          refine ⟨⟨fun a ha => ?_, fun _ _ => .inr (.inl rfl)⟩, fun i hi j hj key same a ha ki => ?_,
            hw.before⟩
          · rcases hw.covered a ha with answered | ⟨i, hi, -⟩ | ⟨j, hj, honours⟩
            · exact .inl answered
            · rw [flight] at hi
              cases hi
            · by_cases gone : j.key = job.key
              · obtain rfl := eq_of_key hj hcurrent (gone.trans hkey.symm)
                exact .inl (known rfl job List.mem_cons_self j hj gone number a ha
                  (honours.key.symm.trans gone))
              · refine .inr (.inr ⟨j, ?_, honours⟩)
                exact Table.mem_delete.2 ⟨hj, beq_eq_false_iff_ne.2 gone⟩
          · exact known rfl i (List.mem_cons_of_mem _ hi) j (Table.mem_delete.1 hj).1 key same a ha
              ki
        | false =>
          refine ⟨⟨fun a ha => ?_, fun _ _ => .inr (.inl rfl)⟩, trivial, hw.before⟩
          rcases hw.covered a ha with answered | ⟨i, hi, -⟩ | ⟨j, hj, honours⟩
          · exact .inl answered
          · rw [flight] at hi
            cases hi
          · by_cases put : j.key = current.key
            · obtain rfl := eq_of_key hj hcurrent put
              exact .inr (.inr ⟨_, mem_put.2 (.inr rfl), honours_putOff honours now⟩)
            · exact .inr (.inr ⟨j, mem_put.2 (.inl ⟨hj, put⟩), honours⟩)
      · exact skip
    · exact skip
  · exact hw

/-- The earliest time is there when a record is. -/
theorem earliest_isSome {j : ScheduledEventJob} (hj : j ∈ w.storage) :
    w.earliest.isSome = true := by
  have fold : ∀ (l : List ScheduledEventJob) (known : Option Timestamp),
      known.isSome = true ∨ j ∈ l →
      (l.foldl (fun earliest job =>
        match earliest with
        | none => some job.runAt
        | some time => if job.runAt < time then some job.runAt else some time) known).isSome
        = true := by
    intro l
    induction l with
    | nil => exact fun known h => h.resolve_right List.not_mem_nil
    | cons first l ih =>
      intro known _
      rw [List.foldl_cons]
      apply ih
      left
      cases known with
      | none => rfl
      | some time =>
        dsimp only
        split <;> rfl
  exact fold w.storage.rows none (.inr hj)

theorem sound_armEarliestJob (hw : w.Sound) (now : Timestamp) : (w.armEarliestJob now).Sound := by
  have rearmed : (∀ now due, w.running ≠ some (.sending now due)) →
      Sound { w with alarm := w.earliest.map (max now), running := none } := by
    intro idle
    refine ⟨⟨fun a ha => ?_, fun j hj => ?_⟩, trivial, hw.before⟩
    · refine (hw.covered a ha).persists rfl (fun i hi => ?_) (.of_eq rfl)
      rw [no_flight idle] at hi
      cases hi
    · refine .inl ?_
      rw [Option.isSome_map]
      exact earliest_isSome hj
  unfold armEarliestJob
  dsimp only
  split
  · rename_i under
    exact rearmed fun _ _ => by rw [under]; exact fun h => by cases h
  · rename_i under
    exact rearmed fun _ _ => by rw [under]; exact fun h => by cases h
  · exact hw

end World

/-! ### Every history -/

theorem machine_sound (e : Event) (w : World) (hw : w.Sound) (prompt : e.Prompt w) :
    (machine.step e w).Sound := by
  cases e with
  | schedule now r => exact World.sound_schedule hw now r prompt
  | interrupted r => exact World.sound_interrupted hw r prompt.1 prompt.2
  | fire now => exact World.sound_fire hw now
  | mark => exact World.sound_mark hw
  | call => exact World.sound_call hw
  | queueMissing => exact World.sound_queueMissing hw
  | send x =>
    refine World.sound_send hw x fun m lost => ?_
    subst lost
    exact prompt
  | settle => exact World.sound_settle hw
  | armEarliestJob now => exact World.sound_armEarliestJob hw now
  | crash => exact World.sound_crash hw prompt

theorem initial_sound : World.initial.Sound where
  covered _ ha := absurd ha List.not_mem_nil
  armed j hj := absurd hj (Table.not_mem_empty j)
  underway := trivial
  before _ ha := absurd ha List.not_mem_nil

/-- In every history whose requests, failures and lost batches put off no record that is
owed, no wakeup is lost. -/
theorem no_lost_wakeup (es : List Event) (prompt : machine.Along Event.Prompt .initial es) :
    (machine.run .initial es).NoLostWakeup :=
  (Machine.invariant machine_sound initial_sound prompt).toNoLostWakeup

/-! A refresh is asked for, and again for a later block while its message is on its way; the
first batch is lost. -/

def refresh (runAt : Timestamp) (targetBlock : BlockNumber) : ScheduleRequest where
  key := ⟨.balanceRefresh, "chain:base:shard:0"⟩
  runAt := runAt
  reason := "journal_advanced"
  targetBlock := some targetBlock

def refreshedTwice : List Event :=
  [.schedule 10 (refresh 10 100), .fire 10, .mark, .call, .schedule 11 (refresh 10 101),
    .send (.lost "queue"), .settle, .armEarliestJob 12, .fire 12, .mark, .call, .send .done,
    .settle, .armEarliestJob 13]

theorem no_lost_wakeup_refreshedTwice :
    (machine.run .initial refreshedTwice).sent.map (·.targetBlock) = [some 101] ∧
      (machine.run .initial refreshedTwice).NoLostWakeup :=
  ⟨by decide, no_lost_wakeup refreshedTwice (by decide)⟩

/-! A request for an hour later comes while the message of the first is on its way, which is
then lost; and a request fails before it sets the alarm, and is then made again. -/

def putOffByAnHour : List Event :=
  [.schedule 10 (refresh 10 100), .fire 10, .mark, .call, .schedule 11 (refresh 3600010 100),
    .send (.lost "queue"), .settle, .armEarliestJob 12]

def failedBeforeAlarm : List Event :=
  [.interrupted (refresh 10 100), .schedule 11 (refresh 11 100)]

/-- The first request waits for the hour of the second; the record of an accepted request is
stored, and no alarm is set. -/
theorem wakeups_lost :
    ¬ (machine.run .initial putOffByAnHour).NoLostWakeup ∧
      ¬ (machine.run .initial failedBeforeAlarm).NoLostWakeup := by
  constructor
  · intro kept
    have covered := kept.covered
    revert covered
    decide
  · intro kept
    have armed := kept.armed
    revert armed
    decide

end ParmeliaLinks.Server.EventJobs
