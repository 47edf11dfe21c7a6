/-
ParmeliaLinks/Jobs/Exclusivity.lean

Deliveries of the payment job queue side by side.  What a claim is for:

* a completed job stays completed;
* while the lease of one delivery is live, no other delivery runs the handler;
* a delivery whose claim is not the current one leaves the row alone.

`completePaymentJob` and `failPaymentJob` update the row by its key alone, so
none of this holds of every run (`job_exclusivity_fails`).  It holds of the runs
in which each of the two, and each await of a handler, finds the claim of its
delivery still in force, or the row as it would write it (`job_exclusivity`).
-/
import ParmeliaLinks.Jobs.JobStore

namespace ParmeliaLinks.Jobs

/-! ### The system -/

/-- What happens around the consumer: time passes, the producer publishes. -/
inductive Surroundings
  | tick (milliseconds : Nat)
  | publish (entry : OutboxEntry)

def Surroundings.move : Surroundings → World → World
  | .tick milliseconds, w => { w with clock := w.clock + milliseconds }
  | .publish entry, w => { w with outbox := w.outbox.insertOrIgnore entry }

/-- Batches of messages consumed side by side. -/
def jobSystem : System JobOp JobOp.Reply World Outcome Surroundings (List QueueMessage) Unit where
  exec _ := JobOp.exec
  env := Surroundings.move
  body := consumePaymentQueue

/-! ### What is required, and when it holds -/

/-- The job is recorded as completed. -/
def World.Completed (w : World) (key : JobKey) : Prop :=
  ∃ r ∈ w.runs, r.dedupeKey = key ∧ r.status = .completed

/-- The row of the key keeps its status and its retry time. -/
def World.SameRun (w w' : World) (key : JobKey) : Prop :=
  ∀ r ∈ w.runs, r.dedupeKey = key → ∃ r' ∈ w'.runs,
    r'.dedupeKey = key ∧ r'.status = r.status ∧ r'.leaseExpiresAt = r.leaseExpiresAt

instance (w : World) (key : JobKey) : Decidable (w.Completed key) :=
  inferInstanceAs (Decidable (∃ r ∈ w.runs, _))

instance (w w' : World) (key : JobKey) : Decidable (w.SameRun w' key) :=
  inferInstanceAs (Decidable (∀ r ∈ w.runs, _ → ∃ r' ∈ w'.runs, _))

/-- A handler runs under no lease of another delivery, and only the delivery with
the current claim changes the row. -/
def JobOp.Respects (o : JobOp) (x : Outcome) (w : World) : Prop :=
  match o with
  | .handle d key => ∀ l ∈ w.leases, l.key = key → w.clock < l.expiresAt → l.delivery = d
  | .completeRun d key timestamp =>
    w.owner key ≠ some d → w.SameRun (JobOp.exec (.completeRun d key timestamp) x w).2 key
  | .failRun d key error =>
    w.owner key ≠ some d → w.SameRun (JobOp.exec (.failRun d key error) x w).2 key
  | _ => True

/-- The operation of a delivery finds its claim in force, or would write a row
that is there already. -/
def JobOp.InForce (o : JobOp) (_ : Outcome) (w : World) : Prop :=
  match o with
  | .handle d key => w.owner key = some d
  | .completeRun d key _ =>
    w.owner key = some d ∨ ∀ r ∈ w.runs, r.dedupeKey = key → r.status = .completed
  | .failRun d key _ =>
    w.owner key = some d ∨ ∀ r ∈ w.runs, r.dedupeKey = key → r.status = .failed
  | _ => True

instance (o : JobOp) (x : Outcome) (w : World) : Decidable (o.Respects x w) :=
  match o with
  | .handle d key =>
    inferInstanceAs (Decidable (∀ l ∈ w.leases, l.key = key → w.clock < l.expiresAt →
      l.delivery = d))
  | .completeRun d key timestamp =>
    inferInstanceAs (Decidable (w.owner key ≠ some d →
      w.SameRun (JobOp.exec (.completeRun d key timestamp) x w).2 key))
  | .failRun d key error =>
    inferInstanceAs (Decidable (w.owner key ≠ some d →
      w.SameRun (JobOp.exec (.failRun d key error) x w).2 key))
  | .now => .isTrue trivial
  | .receive => .isTrue trivial
  | .insertRun .. => .isTrue trivial
  | .selectRun _ => .isTrue trivial
  | .reclaimRun .. => .isTrue trivial

instance (o : JobOp) (x : Outcome) (w : World) : Decidable (o.InForce x w) :=
  match o with
  | .handle d key => inferInstanceAs (Decidable (w.owner key = some d))
  | .completeRun d key _ =>
    inferInstanceAs (Decidable (w.owner key = some d ∨
      ∀ r ∈ w.runs, r.dedupeKey = key → r.status = .completed))
  | .failRun d key _ =>
    inferInstanceAs (Decidable (w.owner key = some d ∨
      ∀ r ∈ w.runs, r.dedupeKey = key → r.status = .failed))
  | .now => .isTrue trivial
  | .receive => .isTrue trivial
  | .insertRun .. => .isTrue trivial
  | .selectRun _ => .isTrue trivial
  | .reclaimRun .. => .isTrue trivial

/-! ### The invariant -/

/-- The lease of the current claim is the one on the row, and every other lease
has expired. -/
structure World.Sane (w : World) : Prop where
  leased : ∀ l ∈ w.leases, w.owner l.key = some l.delivery →
    ∃ r ∈ w.runs, r.dedupeKey = l.key ∧ r.leaseExpiresAt = some l.expiresAt
  expired : ∀ l ∈ w.leases, w.owner l.key ≠ some l.delivery → l.expiresAt ≤ w.clock
  running : ∀ r ∈ w.runs, w.owner r.dedupeKey ≠ none → r.status = .processing
  idle : ∀ r ∈ w.runs, r.status ≠ .processing → r.leaseExpiresAt = none

/-- Time goes on, and what is completed stays so. -/
structure World.Evolves (w w' : World) : Prop where
  clock : w.clock ≤ w'.clock
  completed : ∀ key, w.Completed key → w'.Completed key

theorem World.Evolves.rfl (w : World) : w.Evolves w := ⟨Nat.le_refl _, fun _ h => h⟩

theorem World.Evolves.trans {w₁ w₂ w₃ : World} (h : w₁.Evolves w₂) (h' : w₂.Evolves w₃) :
    w₁.Evolves w₃ :=
  ⟨Nat.le_trans h.clock h'.clock, fun key hc => h'.completed key (h.completed key hc)⟩

theorem run_eq {w : World} {r r' : JobRun} (hr : r ∈ w.runs) (hr' : r' ∈ w.runs)
    (h : r.dedupeKey = r'.dedupeKey) : r = r' :=
  Table.eq_of_clash hr hr' (by simp [Row.clash, h])

/-! ### Claims -/

variable {w : World} {d : DeliveryId} {key : JobKey}

theorem mem_otherLeases {l : Lease} :
    l ∈ w.otherLeases d key ↔ l ∈ w.leases ∧ ¬ (l.delivery = d ∧ l.key = key) := by
  simp only [World.otherLeases, List.mem_filter, Bool.not_eq_true', Bool.and_eq_false_iff,
    beq_eq_false_iff_ne, not_and_or, ne_eq]

/-- A claim keeps the world sane when nobody else's lease for the key is live. -/
theorem World.Sane.take (h : w.Sane) {runs : Table JobRun} {expiresAt : Timestamp}
    (free : ∀ l ∈ w.leases, l.key = key → l.delivery ≠ d → l.expiresAt ≤ w.clock)
    (claimed : ∃ r ∈ runs, r.dedupeKey = key ∧ r.leaseExpiresAt = some expiresAt)
    (started : ∀ r ∈ runs, r.dedupeKey = key → r.status = .processing)
    (others : ∀ r, r.dedupeKey ≠ key → (r ∈ runs ↔ r ∈ w.runs)) :
    ({ w with runs }.take d key expiresAt).Sane := by
  refine ⟨?_, ?_, ?_, ?_⟩
  · intro l hl hown
    rcases List.mem_append.1 hl with hl | hl
    · obtain ⟨hl, other⟩ := mem_otherLeases.1 hl
      simp only [World.take] at hown
      split at hown
      · rename_i hkey
        exact absurd ⟨(Option.some.inj hown).symm, hkey⟩ other
      · rename_i hkey
        obtain ⟨r, hr, hrk, hrl⟩ := h.leased l hl hown
        exact ⟨r, (others r (hrk ▸ hkey)).2 hr, hrk, hrl⟩
    · obtain rfl := List.mem_singleton.1 hl
      exact claimed
  · intro l hl hown
    rcases List.mem_append.1 hl with hl | hl
    · obtain ⟨hl, other⟩ := mem_otherLeases.1 hl
      simp only [World.take] at hown
      split at hown
      · rename_i hkey
        exact free l hl hkey fun hd => other ⟨hd, hkey⟩
      · exact h.expired l hl hown
    · -- the new lease belongs to the owner
      obtain rfl := List.mem_singleton.1 hl
      simp [World.take] at hown
  · intro r hr hown
    by_cases hkey : r.dedupeKey = key
    · exact started r hr hkey
    · simp only [World.take, if_neg hkey] at hown
      exact h.running r ((others r hkey).1 hr) hown
  · intro r hr status
    by_cases hkey : r.dedupeKey = key
    · exact absurd (started r hr hkey) status
    · exact h.idle r ((others r hkey).1 hr) status

theorem insertRun_keeps (h : w.Sane) (message : PaymentJobMessage) (timestamp lease : Timestamp) :
    (w.insertRun d message timestamp lease).2.Sane ∧
      w.Evolves (w.insertRun d message timestamp lease).2 := by
  unfold World.insertRun
  split
  · rename_i fits
    have absent : ∀ r ∈ w.runs, r.dedupeKey ≠ message.dedupeKey := by
      intro r hr hkey
      have apart := fits r hr
      simp [Row.clash, World.newRun, hkey] at apart
    have mem : ∀ r, r ∈ w.runs.push _ fits ↔
        r ∈ w.runs ∨ r = World.newRun message timestamp lease :=
      fun r => Table.mem_of_rows_append rfl
    refine ⟨h.take ?_ ⟨_, (mem _).2 (.inr rfl), rfl, rfl⟩ ?_ ?_, Nat.le_refl _, ?_⟩
    · -- the current lease would have a row
      intro l hl hkey _
      by_contra live
      have current : w.owner l.key = some l.delivery := by
        by_contra old
        exact live (h.expired l hl old)
      obtain ⟨r, hr, hrk, -⟩ := h.leased l hl current
      exact absent r hr (hrk.trans hkey)
    · intro r hr hkey
      rcases (mem r).1 hr with hr | rfl
      · exact absurd hkey (absent r hr)
      · rfl
    · intro r hkey
      rw [mem]
      constructor
      · rintro (hr | rfl)
        · exact hr
        · exact absurd rfl hkey
      · exact .inl
    · rintro key ⟨r, hr, hrk, completed⟩
      exact ⟨r, (mem r).2 (.inl hr), hrk, completed⟩
  · exact ⟨h, .rfl w⟩

theorem reclaimable_spec {key : JobKey} {timestamp : Timestamp} {r : JobRun}
    (h : World.reclaimable key timestamp r = true) :
    r.dedupeKey = key ∧ r.status ≠ .completed ∧
      (r.status = .processing → ∀ t, r.leaseExpiresAt = some t → t ≤ timestamp) := by
  simp only [World.reclaimable, Bool.and_eq_true, beq_iff_eq, bne_iff_ne, ne_eq,
    Bool.or_eq_true] at h
  obtain ⟨⟨hkey, active⟩, due⟩ := h
  refine ⟨hkey, active, fun status t ht => ?_⟩
  simpa [status, ht] using due

/-- The rows of a table in which a claim has taken its row over. -/
theorem mem_reclaimed {message : PaymentJobMessage} {timestamp lease : Timestamp} {r₀ r : JobRun}
    (hr₀ : r₀ ∈ w.runs) (able : World.reclaimable message.dedupeKey timestamp r₀ = true) :
    (∃ r₁ ∈ w.runs, (if World.reclaimable message.dedupeKey timestamp r₁ = true then
        World.reclaimedRun message lease r₁ else r₁) = r) ↔
      r = World.reclaimedRun message lease r₀ ∨ (r ∈ w.runs ∧ r.dedupeKey ≠ message.dedupeKey) := by
  have hkey₀ := (reclaimable_spec able).1
  constructor
  · rintro ⟨r₁, hr₁, rfl⟩
    by_cases hkey : r₁.dedupeKey = message.dedupeKey
    · obtain rfl := run_eq hr₁ hr₀ (hkey.trans hkey₀.symm)
      exact .inl (by simp [able])
    · have idle : World.reclaimable message.dedupeKey timestamp r₁ = false := by
        simp [World.reclaimable, hkey]
      exact .inr (by simp [idle, hr₁, hkey])
  · rintro (rfl | ⟨hr, hkey⟩)
    · exact ⟨r₀, hr₀, by simp [able]⟩
    · have idle : World.reclaimable message.dedupeKey timestamp r = false := by
        simp [World.reclaimable, hkey]
      exact ⟨r, hr, by simp [idle]⟩

theorem reclaimRun_keeps (h : w.Sane) (message : PaymentJobMessage)
    {timestamp lease : Timestamp} (past : timestamp ≤ w.clock) :
    (w.reclaimRun d message timestamp lease).2.Sane ∧
      w.Evolves (w.reclaimRun d message timestamp lease).2 := by
  simp only [World.reclaimRun]
  split
  · rename_i changed
    obtain ⟨r₀, hr₀, able⟩ := Table.changes_pos.1 changed
    obtain ⟨hkey₀, active, due⟩ := reclaimable_spec able
    have mem : ∀ r, r ∈ w.runs.modify (World.reclaimable message.dedupeKey timestamp)
        (World.reclaimedRun message lease) ⟨fun _ _ => rfl⟩ ↔
          r = World.reclaimedRun message lease r₀ ∨
            (r ∈ w.runs ∧ r.dedupeKey ≠ message.dedupeKey) :=
      fun r => Table.mem_modify.trans (mem_reclaimed hr₀ able)
    refine ⟨h.take ?_ ⟨_, (mem _).2 (.inl rfl), hkey₀, rfl⟩ ?_ ?_, Nat.le_refl _, ?_⟩
    · intro l hl hkey _
      by_contra live
      have current : w.owner l.key = some l.delivery := by
        by_contra old
        exact live (h.expired l hl old)
      -- the current lease is the one on the row, which was due
      obtain ⟨r, hr, hrk, hrl⟩ := h.leased l hl current
      obtain rfl := run_eq hr hr₀ (hrk.trans (hkey.trans hkey₀.symm))
      have status := h.running r hr (by rw [hrk, current]; simp)
      exact live (Nat.le_trans (due status _ hrl) past)
    · intro r hr hkey
      rcases (mem r).1 hr with rfl | ⟨-, other⟩
      · rfl
      · exact absurd hkey other
    · intro r hkey
      rw [mem]
      constructor
      · rintro (rfl | ⟨hr, -⟩)
        · exact absurd hkey₀ hkey
        · exact hr
      · exact fun hr => .inr ⟨hr, hkey⟩
    · rintro key ⟨r, hr, hrk, completed⟩
      refine ⟨r, (mem r).2 (.inr ⟨hr, fun hkey => ?_⟩), hrk, completed⟩
      obtain rfl := run_eq hr hr₀ (hkey.trans hkey₀.symm)
      exact active completed
  · rename_i unchanged
    rw [Table.modify_of_changes_eq_zero (Nat.eq_zero_of_not_pos unchanged)]
    exact ⟨h, .rfl w⟩

/-! ### Outcomes -/

/-- Recording an outcome keeps the world sane and what is completed, when the
claim is in force or the row is already as it will be. -/
theorem finish_keeps (h : w.Sane) (status : JobStatus) {f : JobRun → JobRun}
    (keys : Table.KeepsKeys f) (outbox : Table OutboxEntry) (done : status ≠ .processing)
    (fkey : ∀ r, (f r).dedupeKey = r.dedupeKey) (fstatus : ∀ r, (f r).status = status)
    (flease : ∀ r, (f r).leaseExpiresAt = none)
    (inForce : w.owner key = some d ∨ ∀ r ∈ w.runs, r.dedupeKey = key → r.status = status) :
    let runs := w.runs.modify (·.dedupeKey == key) f keys
    ({ w with runs, outbox }.release d key).Sane ∧
      w.Evolves ({ w with runs, outbox }.release d key) ∧
      (w.owner key ≠ some d → w.SameRun ({ w with runs, outbox }.release d key) key) := by
  intro runs
  have mem : ∀ r', r' ∈ runs ↔ ∃ r ∈ w.runs, (if (r.dedupeKey == key) = true then f r else r) = r' :=
    fun _ => Table.mem_modify
  -- the row of a current claim is being processed
  have undone : ∀ r ∈ w.runs, r.dedupeKey = key → w.owner key = some d → r.status = .processing :=
    fun r hr hkey own => h.running r hr (by rw [hkey, own]; exact nofun)
  refine ⟨⟨?_, ?_, ?_, ?_⟩, ⟨Nat.le_refl _, ?_⟩, ?_⟩
  · intro l hl own
    obtain ⟨hl, other⟩ := mem_otherLeases.1 hl
    simp only [World.release] at own
    split at own
    · cases own
    · rename_i kept
      obtain ⟨r, hr, hrk, hrl⟩ := h.leased l hl own
      have hkey : r.dedupeKey ≠ key := by
        intro hkey
        rcases inForce with mine | finished
        · exact kept ⟨hrk.symm.trans hkey, by rw [← hrk, hkey]; exact mine⟩
        · have idle := h.idle r hr (by rw [finished r hr hkey]; exact done)
          rw [idle] at hrl
          cases hrl
      exact ⟨r, (mem r).2 ⟨r, hr, by simp [hkey]⟩, hrk, hrl⟩
  · intro l hl own
    obtain ⟨hl, other⟩ := mem_otherLeases.1 hl
    refine h.expired l hl fun current => own ?_
    simp only [World.release]
    split
    · rename_i mine
      exact absurd ⟨(Option.some.inj (current.symm.trans mine.2)), mine.1⟩ other
    · exact current
  · intro r' hr' own
    obtain ⟨r, hr, rfl⟩ := (mem r').1 hr'
    split at own
    · rename_i hkey
      rw [beq_iff_eq] at hkey
      simp only [World.release, fkey, hkey] at own
      split at own
      · exact absurd rfl own
      · rename_i other
        rcases inForce with mine | finished
        · exact absurd ⟨trivial, mine⟩ other
        · have running := h.running r hr (by rw [hkey]; exact own)
          exact absurd ((finished r hr hkey).symm.trans running) done
    · rename_i hkey
      have hkey : r.dedupeKey ≠ key := by simpa using hkey
      simp only [World.release, hkey, false_and, if_false] at own
      simpa [hkey] using h.running r hr own
  · intro r' hr' idle
    obtain ⟨r, hr, rfl⟩ := (mem r').1 hr'
    split
    · exact flease r
    · rename_i hkey
      rw [if_neg hkey] at idle
      exact h.idle r hr idle
  · rintro key' ⟨r, hr, hrk, completed⟩
    refine ⟨_, (mem _).2 ⟨r, hr, rfl⟩, ?_⟩
    split
    · rename_i hkey
      rw [beq_iff_eq] at hkey
      refine ⟨(fkey r).trans hrk, (fstatus r).trans ?_⟩
      rcases inForce with mine | finished
      · rw [undone r hr hkey mine] at completed
        cases completed
      · exact (finished r hr hkey).symm.trans completed
    · exact ⟨hrk, completed⟩
  · intro other r hr hkey
    have finished := inForce.resolve_left other r hr hkey
    refine ⟨f r, (mem _).2 ⟨r, hr, by simp [hkey]⟩, (fkey r).trans hkey,
      (fstatus r).trans finished.symm, (flease r).trans ?_⟩
    exact (h.idle r hr (by rw [finished]; exact done)).symm

/-! ### Every operation -/

def jobDiscipline : Discipline JobOp World Outcome Surroundings (List QueueMessage) where
  Inv := World.Sane
  Evolves := World.Evolves
  allowed := { op := fun _ => JobOp.InForce }
  ensures := JobOp.Respects
  refl := World.Evolves.rfl
  trans := World.Evolves.trans

/-- An operation of a claim does not run ahead of the clock. -/
def JobOp.Past (t : Timestamp) : JobOp → Prop
  | .insertRun _ _ timestamp _ => timestamp ≤ t
  | .reclaimRun _ _ timestamp _ => timestamp ≤ t
  | _ => True

theorem JobOp.Past.mono {o : JobOp} {t t' : Timestamp} (h : o.Past t) (le : t ≤ t') :
    o.Past t' := by
  cases o with
  | insertRun => exact Nat.le_trans h le
  | reclaimRun => exact Nat.le_trans h le
  | _ => trivial

/-- An operation that may fail has its effect or none. -/
theorem deliver_world {α : Type} (x : Outcome) (w : World) (r : α × World) :
    (JobOp.deliver x w r).2 = w ∨ (JobOp.deliver x w r).2 = r.2 := by
  cases x with
  | done => exact .inr rfl
  | lost m => exact .inl rfl
  | unacknowledged m => exact .inr rfl

theorem deliver_keeps {α : Type} (h : w.Sane) (x : Outcome) {r : α × World}
    (keeps : r.2.Sane ∧ w.Evolves r.2) :
    (JobOp.deliver x w r).2.Sane ∧ w.Evolves (JobOp.deliver x w r).2 := by
  rcases deliver_world x w r with same | same <;> rw [same]
  · exact ⟨h, .rfl w⟩
  · exact keeps

theorem World.SameRun.rfl (w : World) (key : JobKey) : w.SameRun w key :=
  fun r hr hkey => ⟨r, hr, hkey, by rfl, by rfl⟩

theorem deliver_sameRun {α : Type} (x : Outcome) {r : α × World} (same : w.SameRun r.2 key) :
    w.SameRun (JobOp.deliver x w r).2 key := by
  rcases deliver_world x w r with h | h <;> rw [h]
  · exact .rfl w key
  · exact same

/-- Every operation follows the discipline. -/
theorem exec_performs {i : Nat} {o : JobOp} {x : Outcome} (h : w.Sane) (past : o.Past w.clock)
    (inForce : o.InForce x w) : jobDiscipline.Performs jobSystem i o x w := by
  have performs : (o.exec x w).2.Sane ∧ w.Evolves (o.exec x w).2 → o.Respects x w →
      jobDiscipline.Performs jobSystem i o x w :=
    fun keeps respects => ⟨⟨keeps.1, keeps.2⟩, fun _ _ => trivial, respects⟩
  cases o with
  | now => exact performs ⟨h, .rfl w⟩ trivial
  | receive =>
    refine performs ⟨⟨h.leased, h.expired, h.running, h.idle⟩, ?_⟩ trivial
    exact ⟨Nat.le_refl _, fun _ hc => hc⟩
  | insertRun d message timestamp lease =>
    exact performs (deliver_keeps h x (insertRun_keeps h message timestamp lease)) trivial
  | selectRun key => exact performs (deliver_keeps h x ⟨h, .rfl w⟩) trivial
  | reclaimRun d message timestamp lease =>
    exact performs (deliver_keeps h x (reclaimRun_keeps h message past)) trivial
  | completeRun d key timestamp =>
    have keys : Table.KeepsKeys (World.completedRun timestamp) := ⟨fun _ _ => rfl⟩
    obtain ⟨sane, evolves, same⟩ := finish_keeps h .completed keys _ nofun (fun _ => rfl)
      (fun _ => rfl) (fun _ => rfl) inForce
    exact performs (deliver_keeps h x ⟨sane, evolves⟩) fun other =>
      deliver_sameRun x (same other)
  | failRun d key error =>
    have keys : Table.KeepsKeys (World.failedRun error) := ⟨fun _ _ => rfl⟩
    obtain ⟨sane, evolves, same⟩ := finish_keeps h .failed keys w.outbox nofun (fun _ => rfl)
      (fun _ => rfl) (fun _ => rfl) inForce
    exact performs (deliver_keeps h x ⟨sane, evolves⟩) fun other =>
      deliver_sameRun x (same other)
  | handle d key =>
    refine performs (deliver_keeps h x ⟨h, .rfl w⟩) fun l hl hkey live => ?_
    -- a live lease is that of the current claim
    have own : w.owner l.key = some l.delivery := by
      by_contra old
      exact Nat.not_lt.2 (h.expired l hl old) live
    rw [hkey] at own
    exact Option.some.inj (own.symm.trans inForce)

/-! ### The consumer -/

open Prog

variable {t : Timestamp}

theorem uses_claimPaymentJobAt (message : PaymentJobMessage) (past : t ≤ w.clock) :
    (claimPaymentJobAt d message t).Uses (JobOp.Past w.clock) := by
  refine uses_bind ((uses_perform _ _).2 past) fun inserted => ?_
  refine uses_bind (uses_ofExcept _ _) fun inserted => ?_
  split
  · trivial
  refine uses_bind ((uses_perform _ _).2 trivial) fun existing => ?_
  refine uses_bind (uses_ofExcept _ _) fun existing => ?_
  split
  · trivial
  dsimp only
  split
  · trivial
  refine uses_bind ((uses_perform _ _).2 past) fun reclaimed => ?_
  refine uses_bind (uses_ofExcept _ _) fun reclaimed => ?_
  split
  · trivial
  refine uses_bind ((uses_perform _ _).2 trivial) fun winner => ?_
  refine uses_bind (uses_ofExcept _ _) fun winner => ?_
  split <;> trivial

theorem uses_completePaymentJob : (completePaymentJob d key).Uses (JobOp.Past t) := by
  refine uses_bind ((uses_perform _ _).2 trivial) fun timestamp => ?_
  exact uses_bind ((uses_perform _ _).2 trivial) fun _ => uses_ofExcept _ _

theorem uses_failPaymentJob (error : String) :
    (failPaymentJob d key error).Uses (JobOp.Past t) :=
  uses_bind ((uses_perform _ _).2 trivial) fun _ => uses_ofExcept _ _

theorem uses_runPaymentJob (awaits : Nat) :
    (runPaymentJob d key awaits).Uses (JobOp.Past t) := by
  induction awaits with
  | zero => trivial
  | succ awaits ih =>
    refine uses_bind ((uses_perform _ _).2 trivial) fun _ => ?_
    exact uses_bind (uses_ofExcept _ _) fun _ => ih

/-- What follows the claim. -/
theorem uses_processClaim (message : PaymentJobMessage) (awaits : Nat) (claim : JobClaim) :
    (processClaim d message awaits claim).Uses (JobOp.Past t) := by
  cases claim with
  | claimed =>
    refine uses_bind (uses_runPaymentJob _) fun _ => ?_
    exact uses_bind uses_completePaymentJob fun _ => trivial
  | completed => exact uses_bind uses_completePaymentJob fun _ => trivial
  | leased seconds => trivial

abbrev JobHandler.wp {α : Type} (p : JobHandler α) (i : Nat)
    (Q : Except String α → World → Prop) (w : World) : Prop :=
  jobDiscipline.wp jobSystem i p Q w

variable {i : Nat}

theorem wp_of_past {α : Type} {p : JobHandler α} (h : p.Uses (JobOp.Past w.clock)) (hw : w.Sane) :
    JobHandler.wp p i (fun _ w' => w'.Sane) w := by
  have rule := Discipline.wp_of_uses jobDiscipline jobSystem (i := i) (w := w)
    (fun o past x w' ev hw' inForce => exec_performs hw' (past.mono ev.clock) inForce) h hw
  exact Discipline.wp_mono _ _ rule fun _ _ outcome => outcome.1

/-- The loop body, from the number of the delivery and the reading of the clock on. -/
theorem wp_consumeMessage (queueMessage : QueueMessage) (hw : w.Sane) :
    JobHandler.wp (consumeMessage queueMessage) i (fun _ w' => w'.Sane) w := by
  obtain ⟨body, attempts, awaits⟩ := queueMessage
  cases body with
  | none => exact hw
  | some message =>
    refine Discipline.wp_act _ _ (fun _ allowed => exec_performs hw trivial allowed) ?_
    intro _ _ w₁ later₁
    have hw₁ := later₁.inv
    refine Discipline.wp_act _ _ (fun _ allowed => exec_performs hw₁ trivial allowed) ?_
    intro _ _ w₂ later₂
    refine wp_of_past (uses_tryCatch ?_ fun error => ?_) later₂.inv
    · exact uses_bind (uses_claimPaymentJobAt message later₂.evolves.clock) fun claim =>
        uses_processClaim message awaits claim
    · exact uses_bind (uses_failPaymentJob error) fun _ => trivial

theorem wp_consumePaymentQueue (messages : List QueueMessage) (hw : w.Sane) :
    JobHandler.wp (consumePaymentQueue messages) i (fun _ _ => True) w := by
  induction messages generalizing w with
  | nil => trivial
  | cons queueMessage messages ih =>
    refine (Discipline.wp_bind _ _ _ _ _ _).2
      (Discipline.wp_mono _ _ (wp_consumeMessage queueMessage hw) fun r w' hw' => ?_)
    cases r with
    | ok _ => exact ih hw'
    | error m => trivial

/-! ### Every run -/

theorem surroundings_move (e : Surroundings) (h : w.Sane) :
    jobDiscipline.Moves w (e.move w) := by
  have moves : (e.move w).Sane → w.Evolves (e.move w) → jobDiscipline.Moves w (e.move w) :=
    fun sane evolves => ⟨⟨sane, evolves⟩, fun _ => trivial⟩
  cases e with
  | tick milliseconds =>
    refine moves ⟨h.leased, fun l hl old => ?_, h.running, h.idle⟩ ⟨Nat.le_add_right _ _, ?_⟩
    · exact Nat.le_trans (h.expired l hl old) (Nat.le_add_right _ _)
    · exact fun _ hc => hc
  | publish entry =>
    exact moves ⟨h.leased, h.expired, h.running, h.idle⟩ ⟨Nat.le_refl _, fun _ hc => hc⟩

theorem jobs_obey : jobDiscipline.Obeys jobSystem (fun _ _ => True) where
  env e _ hw _ := surroundings_move e hw
  call messages _ _ _ _ _ later := wp_consumePaymentQueue messages later.inv

theorem initial_sane (clock : Timestamp) : (World.initial clock).Sane := by
  constructor <;> intro _ h <;> cases h

abbrev JobSchedule := List (Label Outcome Surroundings (List QueueMessage))

/-- Before any delivery. -/
def start (clock : Timestamp) : Pool JobOp JobOp.Reply World Unit := ⟨.initial clock, []⟩

/-- Each operation finds the claim of its delivery in force. -/
def AlongInForce (clock : Timestamp) (ls : JobSchedule) : Prop :=
  jobSystem.Along { op := fun _ => JobOp.InForce } (start clock) ls

instance (clock : Timestamp) (ls : JobSchedule) : Decidable (AlongInForce clock ls) :=
  inferInstanceAs (Decidable (jobSystem.Along { op := fun _ => JobOp.InForce } (start clock) ls))

/-- What is completed stays completed, handlers exclude each other, and only the
delivery with the current claim changes the row. -/
structure Exclusive (clock : Timestamp) (ls : JobSchedule) : Prop where
  completed : ∀ pre post, ls = pre ++ post → ∀ key,
    (jobSystem.runFrom (start clock) pre).world.Completed key →
      (jobSystem.runFrom (start clock) ls).world.Completed key
  respected : jobSystem.Along { op := fun _ => JobOp.Respects } (start clock) ls

/-- The jobs are exclusive in every run in which the claims are in force. -/
theorem job_exclusivity (clock : Timestamp) (ls : JobSchedule) (h : AlongInForce clock ls) :
    Exclusive clock ls := by
  have begin : jobDiscipline.Sound jobSystem (fun _ _ => True) (start clock) :=
    Discipline.sound_empty (initial_sane clock)
  refine ⟨?_, Discipline.along_ensures jobs_obey begin h⟩
  rintro pre post rfl key hc
  obtain ⟨before, after⟩ := System.along_append.1 h
  rw [System.runFrom_append]
  exact (Discipline.evolves_runFrom jobs_obey
    (Discipline.sound_runFrom jobs_obey begin before) after).completed key hc

/-! One message, delivered once or three times. -/

def webhookMessage : QueueMessage where
  body := some { job := .webhookDelivery, jobId := 1, dedupeKey := .outbox 7, resourceId := 2 }
  attempts := 1
  awaits := 2

/-- The delivery takes its steps without a fault. -/
def steps (i n : Nat) : JobSchedule := List.replicate n (.step i .done)

/-- A delivery is processed; a later one finds the job completed. -/
def deliveredTwice : JobSchedule :=
  ([.env (.publish { id := 7, status := .enqueued }), .spawn [webhookMessage]] : JobSchedule) ++
    steps 0 7 ++ ([.spawn [webhookMessage]] : JobSchedule) ++ steps 1 6

theorem job_exclusivity_deliveredTwice :
    (jobSystem.runFrom (start 0) deliveredTwice).world.Completed (.outbox 7) := by
  have inForce : AlongInForce 0 deliveredTwice := by decide
  have half : (jobSystem.runFrom (start 0) (deliveredTwice.take 9)).world.Completed
      (.outbox 7) := by decide
  exact (job_exclusivity 0 deliveredTwice inForce).completed _ (deliveredTwice.drop 9)
    (List.take_append_drop 9 _).symm _ half

/-- The first delivery outlives its lease, the second takes the row over, the
first one fails, and a third one claims the row while the second runs. -/
def overtaken : JobSchedule :=
  ([.spawn [webhookMessage]] : JobSchedule) ++ steps 0 3 ++
    ([.env (.tick jobLeaseMs), .spawn [webhookMessage]] : JobSchedule) ++ steps 1 6 ++
    ([.step 0 (.lost "Webhook network error"), .step 0 .done] : JobSchedule) ++
    ([.spawn [webhookMessage]] : JobSchedule) ++ steps 2 6

/-- The completion takes effect, but its answer is lost: the job is failed again. -/
def completionLost : JobSchedule :=
  ([.spawn [webhookMessage]] : JobSchedule) ++ steps 0 6 ++
    ([.step 0 (.unacknowledged "D1 network error"), .step 0 .done] : JobSchedule)

theorem job_exclusivity_fails :
    ¬ Exclusive 0 overtaken ∧ ¬ Exclusive 0 completionLost := by
  constructor
  · intro claim
    have respected := claim.respected
    revert respected
    decide
  · intro claim
    have completed := claim.completed _ (completionLost.drop 8)
      (List.take_append_drop 8 _).symm (.outbox 7)
    revert completed
    decide

end ParmeliaLinks.Jobs
