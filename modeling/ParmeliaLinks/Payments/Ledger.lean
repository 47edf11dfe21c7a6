/-
ParmeliaLinks/Payments/Ledger.lean

The books of the payments database.  `Ledger` relates the commit rows to the
attempts they account for and to the totals of the intents: each settled
attempt has its commit row and each commit row its settled attempt, and the
commits of an intent, in commit order, form a chain (`Chain`) that leads from
what the sandbox recorded to the amount paid.

Each kind of write (`Effects`) keeps the books.  The interesting one is a
settlement: its commit row goes in only while the total is still the one that
was read, so the new row extends the chain, and only while the attempt is open,
so no attempt is accounted twice.
-/
import ParmeliaLinks.Payments.Effects
import ParmeliaLinks.Payments.Repository
import Mathlib.Data.List.Chain
import Mathlib.Algebra.Order.BigOperators.Group.List

namespace ParmeliaLinks.Payments

/-! ### Chains of commits -/

/-- The commits lead from the total `start` to the total `final`. -/
def Chain : Nat → List SettlementCommit → Nat → Prop
  | start, [], final => start = final
  | start, c :: cs, final =>
    c.previousPaidAmountAtomic = start ∧
      c.resultingPaidAmountAtomic = c.previousPaidAmountAtomic + c.settledAmountAtomic ∧
      Chain c.resultingPaidAmountAtomic cs final

theorem Chain.concat {start final : Nat} {cs : List SettlementCommit} {c : SettlementCommit}
    (h : Chain start cs final) (previous : c.previousPaidAmountAtomic = final)
    (resulting : c.resultingPaidAmountAtomic =
      c.previousPaidAmountAtomic + c.settledAmountAtomic) :
    Chain start (cs ++ [c]) c.resultingPaidAmountAtomic := by
  induction cs generalizing start with
  | nil =>
    obtain rfl : start = final := h
    exact ⟨previous, resulting, rfl⟩
  | cons d cs ih => exact ⟨h.1, h.2.1, ih h.2.2⟩

/-- What is paid is the start and the sum of the commits. -/
theorem Chain.sum {start final : Nat} {cs : List SettlementCommit} (h : Chain start cs final) :
    final = (cs.map (·.settledAmountAtomic)).sum + start := by
  induction cs generalizing start with
  | nil =>
    obtain rfl : start = final := h
    simp
  | cons c cs ih =>
    obtain ⟨previous, resulting, rest⟩ := h
    rw [ih rest, resulting, previous, List.map_cons, List.sum_cons]
    omega

theorem Chain.head {start final : Nat} {cs : List SettlementCommit} (h : Chain start cs final) :
    ∀ c ∈ cs.head?, c.previousPaidAmountAtomic = start := by
  cases cs with
  | nil => simp
  | cons c cs =>
    intro d hd
    obtain rfl : c = d := by simpa using hd
    exact h.1

/-- Each commit starts where the one before it ended. -/
theorem Chain.isChain {start final : Nat} {cs : List SettlementCommit}
    (h : Chain start cs final) :
    cs.IsChain fun c d => d.previousPaidAmountAtomic = c.resultingPaidAmountAtomic := by
  induction cs generalizing start with
  | nil => exact .nil
  | cons c cs ih =>
    refine List.isChain_cons.2 ⟨fun d hd => ?_, ih h.2.2⟩
    exact h.2.2.head d hd

theorem Chain.resulting {start final : Nat} {cs : List SettlementCommit}
    (h : Chain start cs final) : ∀ c ∈ cs,
      c.resultingPaidAmountAtomic = c.previousPaidAmountAtomic + c.settledAmountAtomic := by
  induction cs generalizing start with
  | nil => simp
  | cons c cs ih =>
    intro d hd
    rcases List.mem_cons.1 hd with rfl | hd
    · exact h.2.1
    · exact ih h.2.2 d hd

/-! ### The books -/

/-- The commit rows of an intent, in commit order. -/
def Db.commitsOf (db : Db) (id : IntentId) : List SettlementCommit :=
  db.commits.rows.filter (·.intentId == id)

theorem Db.mem_commitsOf {db : Db} {id : IntentId} {c : SettlementCommit} :
    c ∈ db.commitsOf id ↔ c ∈ db.commits ∧ c.intentId = id := by
  simp [commitsOf, Table.mem_rows]

/-- The amount that a successful simulation recorded for the intent, or zero. -/
def World.simulated (w : World) (id : IntentId) : Nat :=
  match w.simulations.find? (·.1 == id) with
  | some s => s.2
  | none => 0

/-- The attempt that a commit row accounts for. -/
structure Accounts (c : SettlementCommit) (a : PaymentAttempt) : Prop where
  id : a.id = c.attemptId
  intent : a.intentId = c.intentId
  status : a.status = if c.overpaid then .overpaid else .paid
  amount : a.settledAmountAtomic = c.settledAmountAtomic

theorem Accounts.settled {c : SettlementCommit} {a : PaymentAttempt} (h : Accounts c a) :
    a.status.settled = true := by
  rw [h.status]
  split <;> rfl

theorem active_of_settled {s : AttemptStatus} (h : s.settled = true) : s.active = false := by
  cases s <;> first | rfl | cases h

structure Ledger (w : World) : Prop where
  fresh : ∀ c ∈ w.db.commits, c.commitId < w.uuid
  positive : ∀ c ∈ w.db.commits, 0 < c.settledAmountAtomic
  accounted : ∀ c ∈ w.db.commits, ∃ a ∈ w.db.attempts, Accounts c a
  committed : ∀ a ∈ w.db.attempts, a.status.settled = true →
    ∃ c ∈ w.db.commits, c.attemptId = a.id
  intended : ∀ a ∈ w.db.attempts, ∃ i ∈ w.db.intents, i.id = a.intentId
  chain : ∀ i ∈ w.db.intents, Chain (w.simulated i.id) (w.db.commitsOf i.id) i.paidAmountAtomic
  awaiting : ∀ i ∈ w.db.intents, i.status = .awaitingPayment →
    w.db.commitsOf i.id = [] ∧ ∀ s ∈ w.simulations, s.1 ≠ i.id
  simulations : ∀ s ∈ w.simulations, ∃ i ∈ w.db.intents, i.id = s.1
  once : (w.simulations.map (·.1)).Nodup

theorem AttemptEvolves.accounts {a a' : PaymentAttempt} (h : AttemptEvolves a a')
    {c : SettlementCommit} (hc : Accounts c a) : Accounts c a' where
  id := (congrArg (·.id) h.terms).trans hc.id
  intent := (congrArg (·.intentId) h.terms).trans hc.intent
  status := (h.closed (active_of_settled hc.settled)).1.trans hc.status
  amount := (h.closed (active_of_settled hc.settled)).2.trans hc.amount

theorem attempt_eq {db : Db} {a b : PaymentAttempt} (ha : a ∈ db.attempts) (hb : b ∈ db.attempts)
    (h : a.id = b.id) : a = b :=
  Table.eq_of_clash ha hb (by simp [Row.clash, h])

theorem intent_eq {db : Db} {i j : PaymentIntent} (hi : i ∈ db.intents) (hj : j ∈ db.intents)
    (h : i.id = j.id) : i = j :=
  Table.eq_of_clash hi hj (by simp [Row.clash, h])

theorem commit_eq {db : Db} {c d : SettlementCommit} (hc : c ∈ db.commits) (hd : d ∈ db.commits)
    (h : c.attemptId = d.attemptId) : c = d :=
  Table.eq_of_clash hc hd (by simp [Row.clash, h])

/-- An intent that does not exist has no commits. -/
theorem Ledger.commitsOf_eq_nil {w : World} (h : Ledger w) {id : IntentId}
    (new : ∀ j ∈ w.db.intents, j.id ≠ id) : w.db.commitsOf id = [] := by
  refine List.eq_nil_iff_forall_not_mem.2 fun c hc => ?_
  obtain ⟨hc, hid⟩ := Db.mem_commitsOf.1 hc
  obtain ⟨a, ha, acc⟩ := h.accounted c hc
  obtain ⟨i, hi, hia⟩ := h.intended a ha
  exact new i hi (hia.trans (acc.intent.trans hid))

/-- An intent without payments has no commits. -/
theorem Ledger.commitsOf_of_unpaid {w : World} (h : Ledger w) {i : PaymentIntent}
    (hi : i ∈ w.db.intents) (unpaid : i.paidAmountAtomic = 0) : w.db.commitsOf i.id = [] := by
  have total := (h.chain i hi).sum
  refine List.eq_nil_iff_forall_not_mem.2 fun c hc => ?_
  have part : c.settledAmountAtomic ≤ ((w.db.commitsOf i.id).map (·.settledAmountAtomic)).sum :=
    List.single_le_sum (by simp) _ (List.mem_map_of_mem hc)
  have positive := h.positive c (Db.mem_commitsOf.1 hc).1
  omega

/-! ### Writes that pay nothing -/

/-- A write that moves attempts and intents but neither pays nor simulates. -/
theorem Ledger.quiet {w : World} {db' : Db} (h : Ledger w)
    (commits : db'.commits = w.db.commits)
    (attempts : Table.Evolves AttemptStep w.db.NewAttempt w.db.attempts db'.attempts)
    (intents : Table.Evolves IntentStep
      (fun i => i.paidAmountAtomic = 0 ∧ ∀ j ∈ w.db.intents, j.id ≠ i.id)
      w.db.intents db'.intents) : Ledger { w with db := db' } := by
  have commitsOf : ∀ id, db'.commitsOf id = w.db.commitsOf id := by
    intro id
    simp only [Db.commitsOf, commits]
  -- an intent that is new has neither commits nor simulations
  have noSimulation : ∀ id, (∀ j ∈ w.db.intents, j.id ≠ id) → ∀ s ∈ w.simulations, s.1 ≠ id := by
    intro id new s hs hid
    obtain ⟨i, hi, his⟩ := h.simulations s hs
    exact new i hi (his.trans hid)
  refine ⟨?_, ?_, ?_, ?_, ?_, ?_, ?_, ?_, h.once⟩
  · exact fun c hc => h.fresh c (commits ▸ hc)
  · exact fun c hc => h.positive c (commits ▸ hc)
  · intro c hc
    obtain ⟨a, ha, acc⟩ := h.accounted c (commits ▸ hc)
    obtain ⟨a', ha', step⟩ := attempts.forward a ha
    exact ⟨a', ha', step.accounts acc⟩
  · intro a' ha' settled
    rcases attempts.backward a' ha' with ⟨a, ha, step⟩ | ⟨reserved, -⟩
    · obtain ⟨c, hc, hca⟩ := h.committed a ha (step.unsettled settled)
      exact ⟨c, by rwa [commits], hca.trans (congrArg (·.id) step.terms).symm⟩
    · rw [reserved] at settled
      cases settled
  · intro a' ha'
    have before : ∃ i ∈ w.db.intents, i.id = a'.intentId := by
      rcases attempts.backward a' ha' with ⟨a, ha, step⟩ | ⟨-, intent⟩
      · obtain ⟨i, hi, hia⟩ := h.intended a ha
        exact ⟨i, hi, hia.trans (congrArg (·.intentId) step.terms).symm⟩
      · exact intent
    obtain ⟨i, hi, hia⟩ := before
    obtain ⟨i', hi', step⟩ := intents.forward i hi
    exact ⟨i', hi', (congrArg (·.id) step.terms).trans hia⟩
  · intro i' hi'
    show Chain (w.simulated i'.id) (db'.commitsOf i'.id) i'.paidAmountAtomic
    rw [commitsOf]
    rcases intents.backward i' hi' with ⟨i, hi, step⟩ | ⟨paid, new⟩
    · rw [step.paid, congrArg (·.id) step.terms]
      exact h.chain i hi
    · rw [h.commitsOf_eq_nil new, paid]
      have none : w.simulations.find? (·.1 == i'.id) = none :=
        List.find?_eq_none.2 fun s hs => by simpa using noSimulation _ new s hs
      simp [World.simulated, none, Chain]
  · intro i' hi' status
    show db'.commitsOf i'.id = [] ∧ _
    rw [commitsOf]
    rcases intents.backward i' hi' with ⟨i, hi, step⟩ | ⟨paid, new⟩
    · have same : i'.id = i.id := congrArg (·.id) step.terms
      have before : i.status = .awaitingPayment := by
        rcases step.status with st | ⟨st, -⟩
        · exact st.symm.trans status
        · exact st
      rw [same]
      exact h.awaiting i hi before
    · exact ⟨h.commitsOf_eq_nil new, noSimulation _ new⟩
  · intro s hs
    obtain ⟨i, hi, his⟩ := h.simulations s hs
    obtain ⟨i', hi', step⟩ := intents.forward i hi
    exact ⟨i', hi', (congrArg (·.id) step.terms).trans his⟩

theorem Ledger.of_attemptsMove {w : World} {db' : Db} (h : Ledger w)
    (m : Db.AttemptsMove w.db db') : Ledger { w with db := db' } :=
  h.quiet m.commits m.attempts (m.intents ▸ Table.Evolves.rfl IntentStep.rfl _)

theorem Ledger.of_intentsMove {w : World} {db' : Db} (h : Ledger w)
    (m : Db.IntentsMove w.db db') : Ledger { w with db := db' } :=
  h.quiet m.commits m.attempts (m.intents.mono (fun _ _ _ hr => hr) fun _ hnew => hnew.elim)

theorem Ledger.of_created {w : World} {db' : Db} {input : CreateIntentInput} {id : IntentId}
    {link : LinkId} {timestamp : Timestamp} (h : Ledger w)
    (m : Db.Created w.db (input.rows id link timestamp) db') : Ledger { w with db := db' } := by
  refine h.quiet m.commits (m.attempts ▸ Table.Evolves.rfl AttemptStep.rfl _)
    (Table.evolves_of_append m.intents IntentStep.rfl ⟨rfl, fun j hj hid => ?_⟩)
  have apart := m.fresh j hj
  simp [Row.clash, hid] at apart

/-! ### Paying in the sandbox -/

theorem find?_simulatable {db : Db} {merchantId : MerchantId} {id : IntentId} {i : PaymentIntent}
    (hi : i ∈ db.intents) (h : Db.simulatable merchantId id i = true) :
    db.intents.find? (Db.simulatable merchantId id) = some i := by
  cases hf : db.intents.find? (Db.simulatable merchantId id) with
  | none =>
    rw [Table.not_of_find?_none hf hi] at h
    cases h
  | some j =>
    have hj := Table.of_find? hf
    rw [intent_eq (Table.mem_of_find? hf) hi
      ((Db.simulatable_spec hj).1.trans (Db.simulatable_spec h).1.symm)]

/-- A recorded simulation is what its intent reads back from then on. -/
theorem find?_concat_self {l : List (IntentId × Nat)} {id : IntentId} {n : Nat}
    (h : ∀ s ∈ l, s.1 ≠ id) : (l ++ [(id, n)]).find? (·.1 == id) = some (id, n) := by
  have none : l.find? (·.1 == id) = none :=
    List.find?_eq_none.2 fun s hs => by simpa using h s hs
  simp [List.find?_append, none]

theorem find?_concat_ne {l : List (IntentId × Nat)} {id id' : IntentId} {n : Nat}
    (h : id ≠ id') : (l ++ [(id, n)]).find? (·.1 == id') = l.find? (·.1 == id') := by
  simp [List.find?_append, h]

theorem Ledger.of_simulated {w : World} {db' : Db} {merchantId : MerchantId}
    {intent : PaymentIntent} (h : Ledger w) (m : Db.Simulated w.db merchantId intent.id db') :
    Ledger { w with
      db := db', simulations := RepositoryOp.recordSimulation w intent merchantId } := by
  cases hf : w.db.intents.find? (Db.simulatable merchantId intent.id) with
  | none =>
    -- no intent was simulatable, so none has changed
    simp only [RepositoryOp.recordSimulation, hf]
    refine h.quiet m.commits (m.attempts ▸ Table.Evolves.rfl AttemptStep.rfl _)
      (m.intents.mono (fun i hi i' step => ?_) fun _ hnew => hnew.elim)
    rw [step.keeps (Table.not_of_find?_none hf hi)]
    exact .rfl i
  | some i₀ =>
    have hi₀ := Table.mem_of_find? hf
    have able₀ := Table.of_find? hf
    obtain ⟨noCommits, noSimulation⟩ := h.awaiting i₀ hi₀ (Db.simulatable_spec able₀).2
    -- only `i₀` was simulatable
    have cases : ∀ i ∈ w.db.intents, ∀ i', Db.SimulationStep merchantId intent.id i i' →
        (i = i₀ ∧ i'.paidAmountAtomic = i₀.amountAtomic ∧ i'.status = .paid) ∨
          (i.id ≠ i₀.id ∧ i' = i) := by
      intro i hi i' step
      by_cases hid : i.id = i₀.id
      · obtain rfl := intent_eq hi hi₀ hid
        exact .inl ⟨rfl, step.pays able₀⟩
      · refine .inr ⟨hid, step.keeps ?_⟩
        by_contra able
        rw [Bool.not_eq_false] at able
        exact hid ((Db.simulatable_spec able).1.trans (Db.simulatable_spec able₀).1.symm)
    have commitsOf : ∀ id, db'.commitsOf id = w.db.commitsOf id := by
      intro id
      simp only [Db.commitsOf, m.commits]
    simp only [RepositoryOp.recordSimulation, hf]
    refine ⟨?_, ?_, ?_, ?_, ?_, ?_, ?_, ?_, ?_⟩
    · exact fun c hc => h.fresh c (m.commits ▸ hc)
    · exact fun c hc => h.positive c (m.commits ▸ hc)
    · intro c hc
      obtain ⟨a, ha, acc⟩ := h.accounted c (m.commits ▸ hc)
      exact ⟨a, by rwa [m.attempts], acc⟩
    · intro a ha settled
      obtain ⟨c, hc, hca⟩ := h.committed a (m.attempts ▸ ha) settled
      exact ⟨c, by rwa [m.commits], hca⟩
    · intro a ha
      obtain ⟨i, hi, hia⟩ := h.intended a (m.attempts ▸ ha)
      obtain ⟨i', hi', step⟩ := m.intents.forward i hi
      exact ⟨i', hi', (congrArg (·.id) step.terms).trans hia⟩
    · intro i' hi'
      obtain ⟨i, hi, step⟩ | hnew := m.intents.backward i' hi'
      · have same : i'.id = i.id := congrArg (·.id) step.terms
        show Chain (World.simulated _ i'.id) (db'.commitsOf i'.id) i'.paidAmountAtomic
        rw [commitsOf, same]
        rcases cases i hi i' step with ⟨rfl, paid, -⟩ | ⟨hid, rfl⟩
        · rw [noCommits, paid]
          simp [World.simulated, find?_concat_self noSimulation, Chain]
        · have := h.chain i' hi
          simpa [World.simulated, find?_concat_ne (Ne.symm hid)] using this
      · exact hnew.elim
    · intro i' hi' status
      obtain ⟨i, hi, step⟩ | hnew := m.intents.backward i' hi'
      · rcases cases i hi i' step with ⟨rfl, -, paid⟩ | ⟨hid, rfl⟩
        · rw [paid] at status
          cases status
        · obtain ⟨none, others⟩ := h.awaiting i' hi status
          refine ⟨(commitsOf _).trans none, fun s hs => ?_⟩
          rcases List.mem_append.1 hs with hs | hs
          · exact others s hs
          · rw [List.mem_singleton.1 hs]
            exact Ne.symm hid
      · exact hnew.elim
    · intro s hs
      have before : ∃ i ∈ w.db.intents, i.id = s.1 := by
        rcases List.mem_append.1 hs with hs | hs
        · exact h.simulations s hs
        · rw [List.mem_singleton.1 hs]
          exact ⟨i₀, hi₀, rfl⟩
      obtain ⟨i, hi, his⟩ := before
      obtain ⟨i', hi', step⟩ := m.intents.forward i hi
      exact ⟨i', hi', (congrArg (·.id) step.terms).trans his⟩
    · rw [List.map_append]
      refine List.nodup_append.2 ⟨h.once, by simp, fun id hid id' hid' => ?_⟩
      obtain ⟨s, hs, rfl⟩ := List.mem_map.1 hid
      rw [List.map_singleton, List.mem_singleton] at hid'
      exact hid' ▸ noSimulation s hs

/-! ### Settling -/

theorem commitsOf_settled {db db' : Db} {s : Settlement} {commitId : CommitId}
    {timestamp : Timestamp} (m : Db.Settled db s commitId timestamp db') (id : IntentId) :
    db'.commitsOf id =
      if s.intent.id = id then db.commitsOf id ++ [s.commit commitId timestamp]
      else db.commitsOf id := by
  simp only [Db.commitsOf, m.commits, List.filter_append]
  split
  · rename_i hid
    simp [Settlement.commit, hid]
  · rename_i hid
    simp [Settlement.commit, hid]

theorem Ledger.of_settled {w : World} {db' : Db} {s : Settlement} {timestamp : Timestamp}
    (h : Ledger w) (m : Db.Settled w.db s w.uuid timestamp db')
    (positive : 0 < s.settledAmount) (paid : s.paid = s.previousPaid + s.settledAmount) :
    Ledger { w with db := db', uuid := w.uuid + 1 } := by
  obtain ⟨a₀, ha₀, hid₀, hintent₀, active₀⟩ := m.attempt
  obtain ⟨i₀, hi₀, hiid₀, hpaid₀, -⟩ := m.intent
  have mem_commits : ∀ c, c ∈ db'.commits ↔ c ∈ w.db.commits ∨ c = s.commit w.uuid timestamp :=
    fun c => Table.mem_of_rows_append m.commits
  refine ⟨?_, ?_, ?_, ?_, ?_, ?_, ?_, ?_, h.once⟩
  · intro c hc
    rcases (mem_commits c).1 hc with hc | rfl
    · exact (h.fresh c hc).trans (Nat.lt_succ_self _)
    · exact Nat.lt_succ_self _
  · intro c hc
    rcases (mem_commits c).1 hc with hc | rfl
    · exact h.positive c hc
    · exact positive
  · intro c hc
    rcases (mem_commits c).1 hc with hc | rfl
    · -- an attempt that has its commit is closed, so it is not the one being settled
      obtain ⟨a, ha, acc⟩ := h.accounted c hc
      have other : a.id ≠ s.attempt.id := by
        intro hid
        rw [attempt_eq ha ha₀ (hid.trans hid₀.symm)] at acc
        rw [active_of_settled acc.settled] at active₀
        cases active₀
      exact ⟨a, (Table.mem_of_rewritten m.attempts).2 ⟨a, ha, by simp [other]⟩, acc⟩
    · refine ⟨s.settleAttemptRow a₀,
        (Table.mem_of_rewritten m.attempts).2 ⟨a₀, ha₀, by simp [hid₀]⟩, hid₀, hintent₀, ?_, rfl⟩
      rfl
  · intro a' ha' settled
    obtain ⟨a, ha, rfl⟩ := (Table.mem_of_rewritten m.attempts).1 ha'
    split at settled
    · rename_i hid
      refine ⟨s.commit w.uuid timestamp, (mem_commits _).2 (.inr rfl), ?_⟩
      simp only [hid, if_true]
      exact (beq_iff_eq.1 hid).symm
    · rename_i hid
      obtain ⟨c, hc, hca⟩ := h.committed a ha settled
      exact ⟨c, (mem_commits c).2 (.inl hc), by simpa [hid] using hca⟩
  · intro a' ha'
    obtain ⟨a, ha, rfl⟩ := (Table.mem_of_rewritten m.attempts).1 ha'
    obtain ⟨i, hi, hia⟩ := h.intended a ha
    refine ⟨_, (Table.mem_of_rewritten m.intents).2 ⟨i, hi, rfl⟩, ?_⟩
    split <;> split <;> exact hia
  · intro i' hi'
    obtain ⟨i, hi, rfl⟩ := (Table.mem_of_rewritten m.intents).1 hi'
    show Chain (w.simulated _) (db'.commitsOf _) _
    rw [commitsOf_settled m]
    by_cases hid : i.id = s.intent.id
    · obtain rfl := intent_eq hi hi₀ (hid.trans hiid₀.symm)
      have before := h.chain i hi
      simp only [hid, beq_self_eq_true, if_true, Settlement.settleIntentRow]
      rw [hid] at before
      exact before.concat hpaid₀.symm paid
    · have ne : ¬ s.intent.id = i.id := Ne.symm hid
      simpa [hid, ne] using h.chain i hi
  · intro i' hi' status
    obtain ⟨i, hi, rfl⟩ := (Table.mem_of_rewritten m.intents).1 hi'
    show db'.commitsOf _ = [] ∧ _
    rw [commitsOf_settled m]
    by_cases hid : i.id = s.intent.id
    · -- the paid intent awaits no payment
      simp only [hid, beq_self_eq_true, if_true, Settlement.settleIntentRow,
        Settlement.intentStatus] at status
      split at status <;> cases status
    · have ne : ¬ s.intent.id = i.id := Ne.symm hid
      simp only [beq_iff_eq, hid, if_false] at status ⊢
      simpa [ne] using h.awaiting i hi status
  · intro sim hsim
    obtain ⟨i, hi, his⟩ := h.simulations sim hsim
    refine ⟨_, (Table.mem_of_rewritten m.intents).2 ⟨i, hi, rfl⟩, ?_⟩
    split <;> exact his

end ParmeliaLinks.Payments
