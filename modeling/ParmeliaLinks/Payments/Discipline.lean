/-
ParmeliaLinks/Payments/Discipline.lean

The discipline that the repository functions follow (`Lib.RelyGuarantee`).  A
world is `Consistent` when its books balance (`Ledger`), its events and outbox
tell them (`Published`), its amounts, links and statuses agree (`Priced`), and
every intent has a status under which payments are accounted.  A world evolves into another when attempts and intents only go on as
`AttemptEvolves` and `IntentEvolves` allow and commits are only added.

`exec_keeps` is the step lemma: every operation of the repository follows the
discipline, and a settlement does so when it was worked out from rows that the
database has since evolved from.  That condition on one operation is what the
proof of `settleAttempt` establishes, at each of its retries, from what it read.
-/
import ParmeliaLinks.Lib.RelyGuarantee
import ParmeliaLinks.Payments.Agreement

namespace ParmeliaLinks.Payments

structure World.Consistent (w : World) : Prop where
  books : Ledger w
  published : Published w.db
  priced : Priced w.db
  payable : ∀ i ∈ w.db.intents, Db.accountable i.status = true

structure World.Evolves (w w' : World) : Prop where
  attempts : ∀ a ∈ w.db.attempts, ∃ a' ∈ w'.db.attempts, AttemptEvolves a a'
  intents : ∀ i ∈ w.db.intents, ∃ i' ∈ w'.db.intents, IntentEvolves i i'
  commits : w.db.commits.rows <+: w'.db.commits.rows

theorem World.Evolves.rfl (w : World) : w.Evolves w :=
  ⟨fun a ha => ⟨a, ha, .rfl a⟩, fun i hi => ⟨i, hi, .rfl i⟩, List.prefix_rfl⟩

theorem World.Evolves.trans {w₁ w₂ w₃ : World} (h : w₁.Evolves w₂) (h' : w₂.Evolves w₃) :
    w₁.Evolves w₃ := by
  refine ⟨fun a ha => ?_, fun i hi => ?_, h.commits.trans h'.commits⟩
  · obtain ⟨b, hb, hab⟩ := h.attempts a ha
    obtain ⟨c, hc, hbc⟩ := h'.attempts b hb
    exact ⟨c, hc, hab.trans hbc⟩
  · obtain ⟨j, hj, hij⟩ := h.intents i hi
    obtain ⟨k, hk, hjk⟩ := h'.intents j hj
    exact ⟨k, hk, hij.trans hjk⟩

/-- The step from `w` to `w'` keeps the world consistent and is an evolution. -/
structure World.Keeps (w w' : World) : Prop where
  consistent : w'.Consistent
  evolves : w.Evolves w'

/-! ### One lemma for each kind of write -/

variable {w : World} {db' : Db}

theorem World.Consistent.same (h : w.Consistent) : w.Keeps w := ⟨h, .rfl w⟩

/-- A step that leaves the tables of payments alone. -/
theorem keeps_sameTables {w' : World} (h : w.Consistent) (intents : w'.db.intents = w.db.intents)
    (links : w'.db.links = w.db.links) (attempts : w'.db.attempts = w.db.attempts)
    (commits : w'.db.commits = w.db.commits) (events : w'.db.events = w.db.events)
    (outbox : w'.db.outbox = w.db.outbox) (simulations : w'.simulations = w.simulations)
    (uuid : w.uuid ≤ w'.uuid) : w.Keeps w' := by
  have same : Db.AttemptsMove w.db w'.db :=
    .of_attempts_eq intents links commits events outbox attempts
  obtain ⟨fresh, positive, accounted, committed, intended, chain, awaiting, sims, once⟩ :=
    h.books.of_attemptsMove same
  refine ⟨⟨⟨fun c hc => ?_, positive, accounted, committed, intended, ?_, ?_, ?_, ?_⟩,
    h.published.of_same commits events outbox, h.priced.of_attemptsMove same,
    intents ▸ h.payable⟩, ?_⟩
  · exact (fresh c hc).trans_le uuid
  · intro i hi
    simpa only [World.simulated, simulations] using chain i hi
  · intro i hi status
    rw [simulations]
    exact awaiting i hi status
  · rw [simulations]
    exact sims
  · rw [simulations]
    exact once
  · refine ⟨fun a ha => ⟨a, attempts ▸ ha, .rfl a⟩, fun i hi => ⟨i, intents ▸ hi, .rfl i⟩, ?_⟩
    exact commits ▸ List.prefix_rfl

theorem IntentStep.evolves (h : w.Consistent) {i i' : PaymentIntent} (hi : i ∈ w.db.intents)
    (step : IntentStep i i') : IntentEvolves i i' := by
  refine ⟨step.terms, step.paid.ge, fun decided => ?_⟩
  rcases step.amount with amount | ⟨mode, status, -⟩
  · exact amount
  · -- an open amount is taken back only while nothing is paid
    rcases decided with fixed | paid
    · rw [mode] at fixed
      cases fixed
    · have none := (h.books.awaiting i hi status).1
      rw [(h.priced.undecided i hi mode none).2] at paid
      cases paid

theorem keeps_attemptsMove (h : w.Consistent) (m : Db.AttemptsMove w.db db') :
    w.Keeps { w with db := db' } where
  consistent :=
    ⟨h.books.of_attemptsMove m, h.published.of_same m.commits m.events m.outbox,
      h.priced.of_attemptsMove m, m.intents ▸ h.payable⟩
  evolves := by
    refine ⟨fun a ha => ?_, fun i hi => ⟨i, m.intents ▸ hi, .rfl i⟩, ?_⟩
    · obtain ⟨a', ha', step⟩ := m.attempts.forward a ha
      exact ⟨a', ha', step.toAttemptEvolves⟩
    · exact m.commits ▸ List.prefix_rfl

theorem keeps_intentsMove (h : w.Consistent) (m : Db.IntentsMove w.db db') :
    w.Keeps { w with db := db' } where
  consistent :=
    ⟨h.books.of_intentsMove m, h.published.of_same m.commits m.events m.outbox,
      h.priced.of_intentsMove h.books m, fun i' hi' => by
        obtain ⟨i, hi, step⟩ := (m.intents.backward i' hi').resolve_right id
        rcases step.status with status | ⟨-, status⟩
        · rw [status]
          exact h.payable i hi
        · rw [status]
          rfl⟩
  evolves := by
    refine ⟨fun a ha => ?_, fun i hi => ?_, ?_⟩
    · obtain ⟨a', ha', step⟩ := m.attempts.forward a ha
      exact ⟨a', ha', step.toAttemptEvolves⟩
    · obtain ⟨i', hi', step⟩ := m.intents.forward i hi
      exact ⟨i', hi', step.evolves h hi⟩
    · exact m.commits ▸ List.prefix_rfl

theorem keeps_created {input : CreateIntentInput} {id : IntentId} {link : LinkId}
    {timestamp : Timestamp} (h : w.Consistent)
    (m : Db.Created w.db (input.rows id link timestamp) db') :
    w.Keeps { w with db := db' } where
  consistent :=
    ⟨h.books.of_created m, h.published.of_created m, h.priced.of_created h.books m,
      fun i hi => by
        rcases (Table.mem_of_rows_append m.intents).1 hi with hi | rfl
        · exact h.payable i hi
        · rfl⟩
  evolves := by
    refine ⟨fun a ha => ⟨a, m.attempts ▸ ha, .rfl a⟩, fun i hi => ⟨i, ?_, .rfl i⟩, ?_⟩
    · exact (Table.mem_of_rows_append m.intents).2 (.inl hi)
    · exact m.commits ▸ List.prefix_rfl

theorem keeps_simulated {merchantId : MerchantId} {intent : PaymentIntent} (h : w.Consistent)
    (m : Db.Simulated w.db merchantId intent.id db') :
    w.Keeps { w with
      db := db', simulations := RepositoryOp.recordSimulation w intent merchantId } where
  consistent :=
    ⟨h.books.of_simulated m, h.published.of_simulated m, h.priced.of_simulated h.books m,
      fun i' hi' => by
        obtain ⟨i, hi, step⟩ := (m.intents.backward i' hi').resolve_right False.elim
        cases able : Db.simulatable merchantId intent.id i with
        | false =>
          rw [step.keeps able]
          exact h.payable i hi
        | true =>
          rw [(step.pays able).2]
          rfl⟩
  evolves := by
    refine ⟨fun a ha => ⟨a, m.attempts ▸ ha, .rfl a⟩, fun i hi => ?_, ?_⟩
    · obtain ⟨i', hi', step⟩ := m.intents.forward i hi
      refine ⟨i', hi', step.terms, ?_, fun _ => ⟨step.amount, step.amountAtomic⟩⟩
      cases able : Db.simulatable merchantId intent.id i with
      | false => rw [step.keeps able]
      | true =>
        -- nothing was paid on an intent that awaits payment
        have status := (Db.simulatable_spec able).2
        obtain ⟨none, noSimulation⟩ := h.books.awaiting i hi status
        have paid := (h.books.chain i hi).sum
        have start : w.simulated i.id = 0 := by
          have : w.simulations.find? (·.1 == i.id) = Option.none :=
            List.find?_eq_none.2 fun s hs => by simpa using noSimulation s hs
          simp [World.simulated, this]
        rw [none, start] at paid
        simp [paid]
    · exact m.commits ▸ List.prefix_rfl

theorem keeps_settled {s : Settlement} {timestamp : Timestamp} (h : w.Consistent)
    (b : s.Backed w.db) (m : Db.Settled w.db s w.uuid timestamp db') :
    w.Keeps { w with db := db', uuid := w.uuid + 1 } where
  consistent :=
    ⟨h.books.of_settled m b.positive b.paid, h.published.of_settled m,
      h.priced.of_settled h.books b m, fun i' hi' => by
        obtain ⟨i, hi, rfl⟩ := (Table.mem_of_rewritten m.intents).1 hi'
        split
        · simp only [Settlement.settleIntentRow, Settlement.intentStatus]
          split <;> rfl
        · exact h.payable i hi⟩
  evolves := by
    obtain ⟨i₀, hi₀, hid₀, hpaid₀, -⟩ := m.intent
    obtain ⟨a₀, ha₀, haid₀, -, active₀⟩ := m.attempt
    refine ⟨fun a ha => ?_, fun i hi => ?_, ?_⟩
    · refine ⟨_, (Table.mem_of_rewritten m.attempts).2 ⟨a, ha, rfl⟩, ?_⟩
      split
      · rename_i hid
        obtain rfl := attempt_eq ha ha₀ ((beq_iff_eq.1 hid).trans haid₀.symm)
        refine ⟨rfl, fun closed => ?_, fun v hv => Db.orElse_of_some hv⟩
        rw [closed] at active₀
        cases active₀
      · exact .rfl a
    · refine ⟨_, (Table.mem_of_rewritten m.intents).2 ⟨i, hi, rfl⟩, ?_⟩
      split
      · rename_i hid
        obtain rfl := intent_eq hi hi₀ ((beq_iff_eq.1 hid).trans hid₀.symm)
        refine ⟨rfl, ?_, fun decided => ?_⟩
        · show i.paidAmountAtomic ≤ s.paid
          rw [b.paid, hpaid₀]
          exact Nat.le_add_right _ _
        · show s.canonicalAmount = i.amount ∧ s.expected = i.amountAtomic
          rcases Settlement.amounts h.books h.priced b hi hid₀ hpaid₀ with
            ⟨mode, none, -⟩ | ⟨-, expected, canonical⟩
          · rw [mode, (h.priced.undecided i hi mode none).2] at decided
            simp at decided
          · exact ⟨canonical, expected⟩
      · exact .rfl i
    · show _ <+: db'.commits.rows
      rw [m.commits]
      exact List.prefix_append _ _

/-! ### Every operation -/

namespace RepositoryOp

variable {legit : AttemptTerms → Nat → Prop}

/-- What the discipline asks of an operation: nothing, except of a settlement, that
it was worked out from rows of the database, and that the amount is a legitimate one
for the attempt, whatever `legit` means by that. -/
def Safe (legit : AttemptTerms → Nat → Prop) : RepositoryOp → World → Prop
  | .settleAttempt s _ _, w => s.Backed w.db ∧ legit s.attempt.toAttemptTerms s.settledAmount
  | _, _ => True

theorem keeps_commitBatch (h : w.Consistent) {r : Option Db}
    (hr : ∀ db', r = some db' → w.Keeps { w with db := db' }) :
    w.Keeps (commitBatch w r).2 := by
  cases r with
  | none => exact h.same
  | some db' => exact hr db' rfl

theorem keeps_commitReport (h : w.Consistent) {r : Option (Bool × Db)}
    (hr : ∀ b db', r = some (b, db') → w.Keeps { w with db := db' }) :
    w.Keeps (commitReport w r).2 := by
  cases r with
  | none => exact h.same
  | some r => exact hr r.1 r.2 rfl

/-- Drawing an identifier. -/
theorem keeps_uuid (h : w.Consistent) : w.Keeps { w with uuid := w.uuid + 1 } :=
  keeps_sameTables h rfl rfl rfl rfl rfl rfl rfl (Nat.le_succ _)

/-- Every operation follows the discipline. -/
theorem exec_keeps (o : RepositoryOp) (h : w.Consistent) (safe : o.Safe legit w) :
    w.Keeps (o.exec w).2 := by
  cases o with
  | randomUUID => exact keeps_uuid h
  | createIntentAndLink input id link timestamp =>
    exact keeps_commitBatch h fun db' hr => keeps_created h (Db.createIntentAndLink_created hr)
  | cancelPaymentIntent merchantId id =>
    exact keeps_intentsMove h (Db.cancelPaymentIntent_moves merchantId id)
  | insertQuote q =>
    exact keeps_commitBatch h fun db' hr => keeps_attemptsMove h (Db.insertQuote_moves hr)
  | insertAttempt a =>
    exact keeps_commitBatch h fun db' hr => keeps_attemptsMove h (Db.insertAttempt_moves hr)
  | insertQuoteAndAttempt q a =>
    exact keeps_commitBatch h fun db' hr =>
      keeps_attemptsMove h (Db.insertQuoteAndAttempt_moves hr)
  | markAttemptProcessing id tx =>
    exact keeps_commitBatch h fun db' hr =>
      keeps_attemptsMove h (Db.markAttemptProcessing_moves hr)
  | registerAppExecution id command =>
    exact keeps_commitBatch h fun db' hr =>
      keeps_attemptsMove h (Db.registerAppExecution_moves hr)
  | registerSourceTransaction id capabilityHash tx =>
    exact keeps_commitReport h fun b db' hr =>
      keeps_attemptsMove h (Db.registerSourceTransaction_moves hr)
  | cancelAttempt id capabilityHash =>
    exact keeps_attemptsMove h (Db.cancelAttempt_moves id capabilityHash)
  | releaseExpiredPayerDefinedAmount intentId nowSeconds =>
    exact keeps_intentsMove h (Db.releaseExpiredPayerDefinedAmount_moves intentId nowSeconds)
  | recordAttemptFeeEvidence id platform network tx =>
    exact keeps_attemptsMove h (Db.recordAttemptFeeEvidence_moves id platform network tx)
  | simulatePaymentIntent merchantId intent timestamp endpoints =>
    exact keeps_simulated h
      (Db.simulatePaymentIntent_simulated merchantId intent timestamp endpoints)
  | settleAttempt s timestamp endpoints =>
    simp only [exec]
    cases hr : w.db.settleAttempt s w.uuid timestamp endpoints with
    | none => exact keeps_uuid h
    | some r =>
      obtain ⟨changed, db'⟩ := r
      have fresh : ∀ c ∈ w.db.commits, c.commitId ≠ w.uuid :=
        fun c hc => (h.books.fresh c hc).ne
      rcases Db.settleAttempt_cases fresh hr with ⟨-, rfl⟩ | ⟨-, settled⟩
      · exact keeps_uuid h
      · exact keeps_settled h safe.1 settled
  | _ => exact h.same

end RepositoryOp

end ParmeliaLinks.Payments
