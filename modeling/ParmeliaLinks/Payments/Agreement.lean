/-
ParmeliaLinks/Payments/Agreement.lean

What the rest of the database says about a settlement.  `Published` relates the
commit rows to the events and to the outbox: one settlement event and one outbox
row for each commit, telling its figures.  `Priced` relates intents to their
links and amounts: the two show the same amount, an intent with a commit is
`paid` or `overpaid` by comparison with it, and an open amount is that of the
attempt that settled first.

The batch of `settleAttempt` writes amounts that were worked out from rows read
earlier.  They are still right when it runs (`Settlement.amounts`): the total has
not moved since, and once a total is positive the amount of its intent is fixed.
-/
import ParmeliaLinks.Payments.Ledger

namespace ParmeliaLinks.Payments

/-! ### Events and outbox -/

/-- The event tells the figures of the commit. -/
structure Announces (e : EventRow) (c : SettlementCommit) : Prop where
  type : e.type = if c.overpaid then .paymentOverpaid else .paymentPaid
  payload : ∃ p, e.payload = .settlement p ∧ p.id = c.intentId ∧
    p.expectedAmountAtomic = c.expectedAmountAtomic ∧
    p.settledAmountAtomic = c.settledAmountAtomic ∧
    p.paidAmountAtomic = c.resultingPaidAmountAtomic ∧
    p.overpaidAmountAtomic = c.resultingPaidAmountAtomic - c.expectedAmountAtomic

/-- The event claims to be about the settlement of an attempt. -/
def EventRow.aboutSettlement (e : EventRow) (a : AttemptId) : Prop :=
  e.id = .settlement a ∨ e.dedupeKey = some (.settlement a)

structure Published (db : Db) : Prop where
  told : ∀ e ∈ db.events, ∀ a, e.aboutSettlement a →
    e.id = .settlement a ∧ e.dedupeKey = some (.settlement a) ∧
      ∃ c ∈ db.commits, c.attemptId = a ∧ Announces e c
  tells : ∀ c ∈ db.commits, ∃ e ∈ db.events, e.id = .settlement c.attemptId
  queued : ∀ o ∈ db.outbox, ∀ a, o.resourceId = .settlement a →
    ∃ c ∈ db.commits, c.attemptId = a
  queues : ∀ c ∈ db.commits, ∃ o ∈ db.outbox, o.resourceId = .settlement c.attemptId

/-- A write that publishes no settlement. -/
theorem Published.quiet {db db' : Db} (h : Published db) (commits : db'.commits = db.commits)
    (events : Table.Evolves Eq (fun e => ∀ a, ¬ e.aboutSettlement a) db.events db'.events)
    (outbox : Table.Evolves Eq (fun o => ∀ a, o.resourceId ≠ .settlement a)
      db.outbox db'.outbox) : Published db' := by
  refine ⟨?_, ?_, ?_, ?_⟩
  · intro e he a about
    rcases events.backward e he with ⟨e', he', rfl⟩ | new
    · rw [commits]
      exact h.told e' he' a about
    · exact absurd about (new a)
  · intro c hc
    obtain ⟨e, he, hid⟩ := h.tells c (commits ▸ hc)
    obtain ⟨e', he', rfl⟩ := events.forward e he
    exact ⟨e, he', hid⟩
  · intro o ho a hid
    rcases outbox.backward o ho with ⟨o', ho', rfl⟩ | new
    · rw [commits]
      exact h.queued o' ho' a hid
    · exact absurd hid (new a)
  · intro c hc
    obtain ⟨o, ho, hid⟩ := h.queues c (commits ▸ hc)
    obtain ⟨o', ho', rfl⟩ := outbox.forward o ho
    exact ⟨o, ho', hid⟩

theorem Published.of_same {db db' : Db} (h : Published db) (commits : db'.commits = db.commits)
    (events : db'.events = db.events) (outbox : db'.outbox = db.outbox) : Published db' :=
  h.quiet commits (events ▸ Table.Evolves.rfl (fun _ => rfl) _)
    (outbox ▸ Table.Evolves.rfl (fun _ => rfl) _)

theorem Published.of_created {db db' : Db} {input : CreateIntentInput} {id : IntentId}
    {link : LinkId} {timestamp : Timestamp} (h : Published db)
    (m : Db.Created db (input.rows id link timestamp) db') : Published db' := by
  obtain ⟨o, hid, outbox⟩ := m.outbox
  refine h.quiet m.commits (Table.evolves_of_append m.events (fun _ => rfl) fun a => ?_)
    (Table.evolves_of_append outbox (fun _ => rfl) fun a => ?_)
  · rintro (about | about) <;> cases about
  · rw [hid]
    exact nofun

/-- `INSERT OR IGNORE` keeps the rows and adds at most one. -/
theorem evolves_insertOrIgnore {ρ : Type} [Row ρ] {New : ρ → Prop} (t : Table ρ) {r : ρ}
    (hnew : New r) : Table.Evolves Eq New t (t.insertOrIgnore r) where
  forward r' hr' := ⟨r', Table.mem_insertOrIgnore_of_mem hr', rfl⟩
  backward r' hr' := by
    rcases Table.mem_or_eq_of_mem_insertOrIgnore hr' with hr' | rfl
    · exact .inl ⟨r', hr', rfl⟩
    · exact .inr hnew

theorem Published.of_simulated {db db' : Db} {merchantId : MerchantId} {id : IntentId}
    (h : Published db) (m : Db.Simulated db merchantId id db') : Published db' := by
  obtain ⟨e, hid, hkey, events⟩ := m.events
  obtain ⟨o, hres, outbox⟩ := m.outbox
  refine h.quiet m.commits ?_ ?_
  · rw [events]
    refine evolves_insertOrIgnore _ fun a about => ?_
    rcases about with about | about
    · rw [hid] at about
      cases about
    · rw [hkey] at about
      cases about
  · rw [outbox]
    refine evolves_insertOrIgnore _ fun a => ?_
    rw [hres]
    exact nofun

/-- A settlement publishes its event: no event of its attempt is in its way,
because the attempt had no commit. -/
theorem Published.of_settled {db db' : Db} {s : Settlement} {commitId : CommitId}
    {timestamp : Timestamp} (h : Published db) (m : Db.Settled db s commitId timestamp db') :
    Published db' := by
  have mem_commits : ∀ c, c ∈ db'.commits ↔ c ∈ db.commits ∨ c = s.commit commitId timestamp :=
    fun c => Table.mem_of_rows_append m.commits
  have uncommitted : ∀ c ∈ db.commits, c.attemptId ≠ s.attempt.id := by
    intro c hc hid
    have apart := m.fits c hc
    simp [Row.clash, Settlement.commit, hid] at apart
  have eventFits : db.events.Fits (s.event timestamp) := by
    intro e he
    by_contra clash
    have about : e.aboutSettlement s.attempt.id := by
      simp only [Row.clash, Settlement.event, Settlement.eventId, Bool.not_eq_false,
        Bool.or_eq_true, beq_iff_eq, Bool.and_eq_true] at clash
      rcases clash with hid | ⟨-, hkey⟩
      · exact .inl hid
      · cases hk : e.dedupeKey with
        | none => rw [hk] at hkey; cases hkey
        | some k =>
          rw [hk, sameValue_some, beq_iff_eq] at hkey
          exact .inr (by rw [hk, hkey])
    obtain ⟨-, -, c, hc, hid, -⟩ := h.told e he _ about
    exact uncommitted c hc hid
  obtain ⟨o₀, hres, outbox⟩ := m.outbox
  have outboxFits : db.outbox.Fits o₀ := by
    intro o ho
    by_contra clash
    simp only [Row.clash, Bool.not_eq_false, beq_iff_eq] at clash
    obtain ⟨c, hc, hid⟩ := h.queued o ho s.attempt.id (clash.trans hres)
    exact uncommitted c hc hid
  have mem_events : ∀ e, e ∈ db'.events ↔ e ∈ db.events ∨ e = s.event timestamp := by
    rw [m.events]
    exact fun e => Table.mem_of_rows_append (Table.insertOrIgnore_rows_of_fits eventFits)
  have mem_outbox : ∀ o, o ∈ db'.outbox ↔ o ∈ db.outbox ∨ o = o₀ := by
    rw [outbox]
    exact fun o => Table.mem_of_rows_append (Table.insertOrIgnore_rows_of_fits outboxFits)
  refine ⟨?_, ?_, ?_, ?_⟩
  · intro e he a about
    rcases (mem_events e).1 he with he | rfl
    · obtain ⟨hid, hkey, c, hc, hca, tells⟩ := h.told e he a about
      exact ⟨hid, hkey, c, (mem_commits c).2 (.inl hc), hca, tells⟩
    · have hid : a = s.attempt.id := by
        rcases about with about | about
        · exact (EventId.settlement.inj about).symm
        · exact (DedupeKey.settlement.inj (Option.some.inj about)).symm
      subst hid
      exact ⟨rfl, rfl, _, (mem_commits _).2 (.inr rfl), rfl, rfl, _, rfl, rfl, rfl, rfl, rfl, rfl⟩
  · intro c hc
    rcases (mem_commits c).1 hc with hc | rfl
    · obtain ⟨e, he, hid⟩ := h.tells c hc
      exact ⟨e, (mem_events e).2 (.inl he), hid⟩
    · exact ⟨_, (mem_events _).2 (.inr rfl), rfl⟩
  · intro o ho a hid
    rcases (mem_outbox o).1 ho with ho | rfl
    · obtain ⟨c, hc, hca⟩ := h.queued o ho a hid
      exact ⟨c, (mem_commits c).2 (.inl hc), hca⟩
    · rw [hres] at hid
      exact ⟨_, (mem_commits _).2 (.inr rfl), EventId.settlement.inj hid⟩
  · intro c hc
    rcases (mem_commits c).1 hc with hc | rfl
    · obtain ⟨o, ho, hid⟩ := h.queues c hc
      exact ⟨o, (mem_outbox o).2 (.inl ho), hid⟩
    · exact ⟨o₀, (mem_outbox o₀).2 (.inr rfl), hres⟩

/-! ### Amounts, links and statuses -/

structure Priced (db : Db) : Prop where
  parsed : ∀ i ∈ db.intents, parseUnits i.amount 6 = i.amountAtomic
  fixed : ∀ i ∈ db.intents, i.amountMode = .fixed → 0 < i.amountAtomic
  zero : db.OpenAmountsAreZero
  undecided : ∀ i ∈ db.intents, i.amountMode = .payerDefined → db.commitsOf i.id = [] →
    i.amountAtomic = 0 ∧ i.paidAmountAtomic = 0
  shown : db.LinksShowAmount
  linked : ∀ i ∈ db.intents, ∃ l ∈ db.links, l.intentId = i.id
  status : ∀ i ∈ db.intents, db.commitsOf i.id ≠ [] →
    i.status = if i.amountAtomic < i.paidAmountAtomic then .overpaid else .paid
  linkStatus : ∀ i ∈ db.intents, db.commitsOf i.id ≠ [] →
    ∀ l ∈ db.links, l.intentId = i.id → l.status = .paid
  decided : ∀ i ∈ db.intents, i.amountMode = .payerDefined →
    ∀ c ∈ (db.commitsOf i.id).head?, ∃ a ∈ db.attempts, a.id = c.attemptId ∧
      a.settlementAmountAtomic = i.amountAtomic

theorem commitsOf_congr {db db' : Db} (h : db'.commits = db.commits) (id : IntentId) :
    db'.commitsOf id = db.commitsOf id := by
  simp only [Db.commitsOf, h]

theorem Priced.of_attemptsMove {db db' : Db} (h : Priced db) (m : Db.AttemptsMove db db') :
    Priced db' := by
  have commitsOf := commitsOf_congr m.commits
  obtain ⟨parsed, fixed, zero, undecided, shown, linked, status, linkStatus, decided⟩ := h
  refine ⟨?_, ?_, ?_, ?_, ?_, ?_, ?_, ?_, ?_⟩
  · rwa [m.intents]
  · rwa [m.intents]
  · simpa only [Db.OpenAmountsAreZero, m.intents] using zero
  · simpa only [m.intents, commitsOf] using undecided
  · simpa only [Db.LinksShowAmount, m.intents, m.links] using shown
  · rwa [m.intents, m.links]
  · simpa only [m.intents, commitsOf] using status
  · simpa only [m.intents, m.links, commitsOf] using linkStatus
  · intro i hi mode c hc
    rw [commitsOf] at hc
    obtain ⟨a, ha, hid, amount⟩ := decided i (m.intents ▸ hi) mode c hc
    obtain ⟨a', ha', step⟩ := m.attempts.forward a ha
    exact ⟨a', ha', (congrArg (·.id) step.terms).trans hid,
      (congrArg (·.settlementAmountAtomic) step.terms).trans amount⟩

/-- An intent that awaits payment has no commit, so a step that needs it to await
payment leaves a committed intent alone. -/
theorem IntentStep.committed {w : World} (h : Ledger w) {i i' : PaymentIntent}
    (hi : i ∈ w.db.intents) (step : IntentStep i i') (some : w.db.commitsOf i.id ≠ []) :
    i'.status = i.status ∧ i'.amountAtomic = i.amountAtomic := by
  have busy : i.status ≠ .awaitingPayment := fun st => some (h.awaiting i hi st).1
  refine ⟨step.status.resolve_right fun st => busy st.1, ?_⟩
  rcases step.amount with amount | amount
  · exact amount.2
  · exact absurd amount.2.1 busy

theorem Priced.of_intentsMove {w : World} {db' : Db} (h : Priced w.db) (books : Ledger w)
    (m : Db.IntentsMove w.db db') : Priced db' := by
  have commitsOf := commitsOf_congr m.commits
  have back : ∀ i' ∈ db'.intents, ∃ i ∈ w.db.intents, IntentStep i i' :=
    fun i' hi' => (m.intents.backward i' hi').resolve_right id
  refine ⟨?_, ?_, ?_, ?_, m.amounts h.zero h.shown, ?_, ?_, ?_, ?_⟩
  · intro i' hi'
    obtain ⟨i, hi, step⟩ := back i' hi'
    rcases step.amount with ⟨text, atomic⟩ | ⟨-, -, text, atomic⟩
    · rw [text, atomic]
      exact h.parsed i hi
    · rw [text, atomic]
      exact parseUnits_zero 6
  · intro i' hi' mode
    obtain ⟨i, hi, step⟩ := back i' hi'
    rw [congrArg (·.amountMode) step.terms] at mode
    rcases step.amount with ⟨-, atomic⟩ | ⟨openMode, -⟩
    · rw [atomic]
      exact h.fixed i hi mode
    · rw [mode] at openMode
      cases openMode
  · intro i' hi' mode nothing
    obtain ⟨i, hi, step⟩ := back i' hi'
    rw [congrArg (·.amountMode) step.terms] at mode
    rcases step.amount with ⟨text, atomic⟩ | ⟨-, -, text, -⟩
    · rw [text]
      exact h.zero i hi mode (atomic ▸ nothing)
    · exact text
  · intro i' hi' mode none
    obtain ⟨i, hi, step⟩ := back i' hi'
    rw [commitsOf, congrArg (·.id) step.terms] at none
    rw [congrArg (·.amountMode) step.terms] at mode
    obtain ⟨amount, paid⟩ := h.undecided i hi mode none
    refine ⟨?_, step.paid.trans paid⟩
    rcases step.amount with ⟨-, atomic⟩ | ⟨-, -, -, atomic⟩
    · exact atomic.trans amount
    · exact atomic
  · intro i' hi'
    obtain ⟨i, hi, step⟩ := back i' hi'
    obtain ⟨l, hl, hli⟩ := h.linked i hi
    obtain ⟨l', hl', lstep⟩ := m.links.forward l hl
    exact ⟨l', hl', (congrArg (·.intentId) lstep.terms).trans
      (hli.trans (congrArg (·.id) step.terms).symm)⟩
  · intro i' hi' some
    obtain ⟨i, hi, step⟩ := back i' hi'
    rw [commitsOf, congrArg (·.id) step.terms] at some
    obtain ⟨status, amount⟩ := step.committed books hi some
    rw [status, amount, step.paid]
    exact h.status i hi some
  · intro i' hi' some l' hl' hli
    obtain ⟨i, hi, step⟩ := back i' hi'
    have same : i'.id = i.id := congrArg (·.id) step.terms
    rw [commitsOf, same] at some
    obtain ⟨l, hl, lstep⟩ := (m.links.backward l' hl').resolve_right id
    have hli₀ : l.intentId = i.id :=
      (congrArg (·.intentId) lstep.terms).symm.trans (hli.trans same)
    rcases lstep.status with status | ⟨j, hj, hji, canceled⟩
    · exact status.trans (h.linkStatus i hi some l hl hli₀)
    · -- the intent of the link is not canceled, since it has a commit
      obtain rfl := intent_eq hj hi' (hji.trans (hli₀.trans same.symm))
      rw [(step.committed books hi some).1, h.status i hi some] at canceled
      split at canceled <;> cases canceled
  · intro i' hi' mode c hc
    obtain ⟨i, hi, step⟩ := back i' hi'
    rw [commitsOf, congrArg (·.id) step.terms] at hc
    rw [congrArg (·.amountMode) step.terms] at mode
    obtain ⟨a, ha, hid, amount⟩ := h.decided i hi mode c hc
    obtain ⟨a', ha', astep⟩ := m.attempts.forward a ha
    have some : w.db.commitsOf i.id ≠ [] := by
      intro none
      rw [none] at hc
      cases hc
    exact ⟨a', ha', (congrArg (·.id) astep.terms).trans hid,
      (congrArg (·.settlementAmountAtomic) astep.terms).trans
        (amount.trans (step.committed books hi some).2.symm)⟩

theorem Priced.of_created {w : World} {db' : Db} {input : CreateIntentInput} {id : IntentId}
    {link : LinkId} {timestamp : Timestamp} (h : Priced w.db) (books : Ledger w)
    (m : Db.Created w.db (input.rows id link timestamp) db') : Priced db' := by
  have commitsOf := commitsOf_congr m.commits
  have mem_intents : ∀ i, i ∈ db'.intents ↔
      i ∈ w.db.intents ∨ i = (input.rows id link timestamp).intent :=
    fun i => Table.mem_of_rows_append m.intents
  have mem_links : ∀ l, l ∈ db'.links ↔
      l ∈ w.db.links ∨ l = (input.rows id link timestamp).link :=
    fun l => Table.mem_of_rows_append m.links
  have new : ∀ j ∈ w.db.intents, j.id ≠ id := by
    intro j hj hid
    have apart := m.fresh j hj
    simp [Row.clash, CreateIntentInput.rows, hid] at apart
  have newLink : ∀ l ∈ w.db.links, l.intentId ≠ id := by
    intro l hl hid
    have apart := m.freshLink l hl
    simp [Row.clash, CreateIntentInput.rows, hid] at apart
  have none := books.commitsOf_eq_nil new
  refine ⟨?_, ?_, ?_, ?_, ?_, ?_, ?_, ?_, ?_⟩
  · intro i hi
    rcases (mem_intents i).1 hi with hi | rfl
    · exact h.parsed i hi
    · exact input.amount.parsed
  · intro i hi mode
    rcases (mem_intents i).1 hi with hi | rfl
    · exact h.fixed i hi mode
    · exact input.amount.fixed_pos mode
  · intro i hi mode nothing
    rcases (mem_intents i).1 hi with hi | rfl
    · exact h.zero i hi mode nothing
    · exact input.amount.payerDefined_zero mode
  · intro i hi mode nocommit
    rcases (mem_intents i).1 hi with hi | rfl
    · exact h.undecided i hi mode (commitsOf _ ▸ nocommit)
    · refine ⟨?_, rfl⟩
      show input.amount.atomic = 0
      rw [← input.amount.parsed, input.amount.payerDefined_zero mode]
      exact parseUnits_zero 6
  · intro i hi l hl hli
    rcases (mem_intents i).1 hi with hi | rfl
    · rcases (mem_links l).1 hl with hl | rfl
      · exact h.shown i hi l hl hli
      · exact absurd hli.symm (new i hi)
    · rcases (mem_links l).1 hl with hl | rfl
      · exact absurd hli (newLink l hl)
      · rfl
  · intro i hi
    rcases (mem_intents i).1 hi with hi | rfl
    · obtain ⟨l, hl, hli⟩ := h.linked i hi
      exact ⟨l, (mem_links l).2 (.inl hl), hli⟩
    · exact ⟨_, (mem_links _).2 (.inr rfl), rfl⟩
  · intro i hi some
    rw [commitsOf] at some
    rcases (mem_intents i).1 hi with hi | rfl
    · exact h.status i hi some
    · exact absurd none some
  · intro i hi some l hl hli
    rw [commitsOf] at some
    rcases (mem_intents i).1 hi with hi | rfl
    · rcases (mem_links l).1 hl with hl | rfl
      · exact h.linkStatus i hi some l hl hli
      · exact absurd hli.symm (new i hi)
    · exact absurd none some
  · intro i hi mode c hc
    rw [commitsOf] at hc
    rcases (mem_intents i).1 hi with hi | rfl
    · obtain ⟨a, ha, decided⟩ := h.decided i hi mode c hc
      exact ⟨a, by rwa [m.attempts], decided⟩
    · rw [show w.db.commitsOf (input.rows id link timestamp).intent.id = [] from none] at hc
      cases hc

theorem Priced.of_simulated {w : World} {db' : Db} {merchantId : MerchantId} {id : IntentId}
    (h : Priced w.db) (books : Ledger w) (m : Db.Simulated w.db merchantId id db') :
    Priced db' := by
  have commitsOf := commitsOf_congr m.commits
  have back : ∀ i' ∈ db'.intents, ∃ i ∈ w.db.intents, Db.SimulationStep merchantId id i i' :=
    fun i' hi' => (m.intents.backward i' hi').resolve_right False.elim
  -- an intent with a commit does not await payment, so the sandbox leaves it alone
  have committed : ∀ i ∈ w.db.intents, ∀ i', Db.SimulationStep merchantId id i i' →
      w.db.commitsOf i.id ≠ [] → i' = i := by
    intro i hi i' step some
    refine step.keeps (Bool.eq_false_iff.2 fun able => ?_)
    exact some (books.awaiting i hi (Db.simulatable_spec able).2).1
  refine ⟨?_, ?_, ?_, ?_, ?_, ?_, ?_, ?_, ?_⟩
  · intro i' hi'
    obtain ⟨i, hi, step⟩ := back i' hi'
    rw [step.amount, step.amountAtomic]
    exact h.parsed i hi
  · intro i' hi' mode
    obtain ⟨i, hi, step⟩ := back i' hi'
    rw [step.amountAtomic]
    exact h.fixed i hi ((congrArg (·.amountMode) step.terms).symm.trans mode)
  · intro i' hi' mode nothing
    obtain ⟨i, hi, step⟩ := back i' hi'
    rw [step.amount]
    exact h.zero i hi ((congrArg (·.amountMode) step.terms).symm.trans mode)
      (step.amountAtomic ▸ nothing)
  · intro i' hi' mode none
    obtain ⟨i, hi, step⟩ := back i' hi'
    rw [commitsOf, congrArg (·.id) step.terms] at none
    obtain ⟨amount, paid⟩ := h.undecided i hi
      ((congrArg (·.amountMode) step.terms).symm.trans mode) none
    refine ⟨step.amountAtomic.trans amount, ?_⟩
    cases able : Db.simulatable merchantId id i with
    | true => exact (step.pays able).1.trans amount
    | false => rw [step.keeps able]; exact paid
  · intro i' hi' l' hl' hli
    obtain ⟨i, hi, step⟩ := back i' hi'
    obtain ⟨l, hl, terms, amount, -⟩ := (m.links.backward l' hl').resolve_right False.elim
    rw [amount, step.amount]
    exact h.shown i hi l hl ((congrArg (·.intentId) terms).symm.trans
      (hli.trans (congrArg (·.id) step.terms)))
  · intro i' hi'
    obtain ⟨i, hi, step⟩ := back i' hi'
    obtain ⟨l, hl, hli⟩ := h.linked i hi
    obtain ⟨l', hl', terms, -⟩ := m.links.forward l hl
    exact ⟨l', hl', (congrArg (·.intentId) terms).trans
      (hli.trans (congrArg (·.id) step.terms).symm)⟩
  · intro i' hi' some
    obtain ⟨i, hi, step⟩ := back i' hi'
    rw [commitsOf, congrArg (·.id) step.terms] at some
    rw [committed i hi i' step some]
    exact h.status i hi some
  · intro i' hi' some l' hl' hli
    obtain ⟨i, hi, step⟩ := back i' hi'
    rw [commitsOf, congrArg (·.id) step.terms] at some
    obtain ⟨l, hl, terms, -, paid⟩ := (m.links.backward l' hl').resolve_right False.elim
    exact paid (h.linkStatus i hi some l hl ((congrArg (·.intentId) terms).symm.trans
      (hli.trans (congrArg (·.id) step.terms))))
  · intro i' hi' mode c hc
    obtain ⟨i, hi, step⟩ := back i' hi'
    rw [commitsOf, congrArg (·.id) step.terms] at hc
    obtain ⟨a, ha, hid, amount⟩ := h.decided i hi
      ((congrArg (·.amountMode) step.terms).symm.trans mode) c hc
    exact ⟨a, by rwa [m.attempts], hid, amount.trans step.amountAtomic.symm⟩

/-! ### Settling -/

/-- The settlement was worked out from rows that the database has since evolved from. -/
structure Settlement.Backed (s : Settlement) (db : Db) : Prop where
  attempt : ∃ a ∈ db.attempts, AttemptEvolves s.attempt a
  intent : ∃ i ∈ db.intents, IntentEvolves s.intent i
  computed : ∃ input fees, 0 < input.settledAmountAtomic ∧
    s = Settlement.compute input s.attempt s.intent fees

namespace Settlement.Backed

variable {s : Settlement} {db : Db}

theorem previousPaid (b : s.Backed db) : s.previousPaid = s.intent.paidAmountAtomic := by
  obtain ⟨input, fees, -, h⟩ := b.computed
  rw [h]
  rfl

theorem positive (b : s.Backed db) : 0 < s.settledAmount := by
  obtain ⟨input, fees, pos, h⟩ := b.computed
  rw [h]
  exact pos

theorem paid (b : s.Backed db) : s.paid = s.previousPaid + s.settledAmount := by
  obtain ⟨input, fees, -, h⟩ := b.computed
  rw [h]
  rfl

theorem exceeds (b : s.Backed db) : s.exceeds = decide (s.expected < s.paid) := by
  obtain ⟨input, fees, -, h⟩ := b.computed
  rw [h]
  rfl

theorem firstOpen (b : s.Backed db) (mode : s.intent.amountMode = .payerDefined)
    (unpaid : s.intent.paidAmountAtomic = 0) :
    s.expected = s.attempt.settlementAmountAtomic ∧
      s.canonicalAmount = formatUnits s.expected 6 := by
  obtain ⟨input, fees, -, h⟩ := b.computed
  rw [h]
  simp [compute, mode, unpaid]

theorem notFirstOpen (b : s.Backed db)
    (settled : s.intent.amountMode = .fixed ∨ 0 < s.intent.paidAmountAtomic) :
    s.expected = s.intent.amountAtomic ∧ s.canonicalAmount = s.intent.amount := by
  obtain ⟨input, fees, -, h⟩ := b.computed
  rw [h]
  rcases settled with mode | paid
  · simp [compute, mode]
  · simp [compute, paid.ne']

end Settlement.Backed

/-- The amounts that a settlement writes, against the rows it writes them to: it
decides an open amount that nobody has paid yet, or it keeps the amount. -/
theorem Settlement.amounts {w : World} {s : Settlement} (books : Ledger w) (priced : Priced w.db)
    (b : s.Backed w.db) {i : PaymentIntent} (hi : i ∈ w.db.intents) (hid : i.id = s.intent.id)
    (hpaid : i.paidAmountAtomic = s.previousPaid) :
    (i.amountMode = .payerDefined ∧ w.db.commitsOf i.id = [] ∧ i.amount = .zero ∧
      s.expected = s.attempt.settlementAmountAtomic ∧
      s.canonicalAmount = formatUnits s.expected 6) ∨
    ((i.amountMode = .payerDefined → w.db.commitsOf i.id ≠ []) ∧
      s.expected = i.amountAtomic ∧ s.canonicalAmount = i.amount) := by
  obtain ⟨j, hj, ev⟩ := b.intent
  obtain rfl := intent_eq hj hi ((congrArg (·.id) ev.terms).trans hid.symm)
  have mode : j.amountMode = s.intent.amountMode := congrArg (·.amountMode) ev.terms
  have paid : s.intent.paidAmountAtomic = j.paidAmountAtomic :=
    b.previousPaid.symm.trans hpaid.symm
  by_cases first : j.amountMode = .payerDefined ∧ j.paidAmountAtomic = 0
  · obtain ⟨openMode, unpaid⟩ := first
    obtain ⟨expected, canonical⟩ := b.firstOpen (mode.symm.trans openMode) (paid.trans unpaid)
    have none := books.commitsOf_of_unpaid hi unpaid
    exact .inl ⟨openMode, none,
      priced.zero j hi openMode (priced.undecided j hi openMode none).1, expected, canonical⟩
  · have settled : s.intent.amountMode = .fixed ∨ 0 < s.intent.paidAmountAtomic := by
      cases hm : s.intent.amountMode with
      | fixed => exact .inl rfl
      | payerDefined =>
        rw [hm] at mode
        exact .inr (by rw [paid]; exact Nat.pos_of_ne_zero fun h => first ⟨mode, h⟩)
    obtain ⟨expected, canonical⟩ := b.notFirstOpen settled
    obtain ⟨text, atomic⟩ := ev.amount settled
    refine .inr ⟨fun openMode none => ?_, expected.trans atomic.symm, canonical.trans text.symm⟩
    exact first ⟨openMode, (priced.undecided j hi openMode none).2⟩

theorem Priced.of_settled {w : World} {db' : Db} {s : Settlement} {timestamp : Timestamp}
    (h : Priced w.db) (books : Ledger w) (b : s.Backed w.db)
    (m : Db.Settled w.db s w.uuid timestamp db') : Priced db' := by
  obtain ⟨i₀, hi₀, hid₀, hpaid₀, -⟩ := m.intent
  obtain ⟨a₀, ha₀, haid₀, -, -⟩ := m.attempt
  have amounts := Settlement.amounts books h b hi₀ hid₀ hpaid₀
  have commitsOf := commitsOf_settled m
  -- every intent is the paid one or as it was, and so are its commits
  have back : ∀ i' ∈ db'.intents,
      (i' = s.settleIntentRow timestamp i₀ ∧
        db'.commitsOf i'.id = w.db.commitsOf i₀.id ++ [s.commit w.uuid timestamp]) ∨
      (i' ∈ w.db.intents ∧ i'.id ≠ s.intent.id ∧ db'.commitsOf i'.id = w.db.commitsOf i'.id) := by
    intro i' hi'
    obtain ⟨i, hi, rfl⟩ := (Table.mem_of_rewritten m.intents).1 hi'
    by_cases hid : i.id = s.intent.id
    · obtain rfl := intent_eq hi hi₀ (hid.trans hid₀.symm)
      rw [if_pos (by simpa using hid)]
      exact .inl ⟨rfl, (commitsOf i.id).trans (if_pos hid.symm)⟩
    · rw [if_neg (by simpa using hid)]
      exact .inr ⟨hi, hid, (commitsOf i.id).trans (if_neg (Ne.symm hid))⟩
  have backLink : ∀ l' ∈ db'.links, ∃ l ∈ w.db.links,
      (l.intentId = s.intent.id ∧ l' = s.settleLinkRow timestamp l) ∨
        (l.intentId ≠ s.intent.id ∧ l' = l) := by
    intro l' hl'
    obtain ⟨l, hl, rfl⟩ := (Table.mem_of_rewritten m.links).1 hl'
    by_cases hid : l.intentId = s.intent.id
    · exact ⟨l, hl, .inl ⟨hid, by simp [hid]⟩⟩
    · exact ⟨l, hl, .inr ⟨hid, by simp [hid]⟩⟩
  refine ⟨?_, ?_, ?_, ?_, ?_, ?_, ?_, ?_, ?_⟩
  · intro i' hi'
    rcases back i' hi' with ⟨rfl, -⟩ | ⟨hi, -, -⟩
    · show parseUnits s.canonicalAmount 6 = s.expected
      rcases amounts with ⟨-, -, -, -, canonical⟩ | ⟨-, expected, canonical⟩
      · rw [canonical, parseUnits_formatUnits]
      · rw [canonical, expected]
        exact h.parsed i₀ hi₀
    · exact h.parsed i' hi
  · intro i' hi' mode
    rcases back i' hi' with ⟨rfl, -⟩ | ⟨hi, -, -⟩
    · show 0 < s.expected
      rcases amounts with ⟨openMode, -⟩ | ⟨-, expected, -⟩
      · rw [show i₀.amountMode = .fixed from mode] at openMode
        cases openMode
      · rw [expected]
        exact h.fixed i₀ hi₀ mode
    · exact h.fixed i' hi mode
  · intro i' hi' mode nothing
    rcases back i' hi' with ⟨rfl, -⟩ | ⟨hi, -, -⟩
    · show s.canonicalAmount = .zero
      have zero : s.expected = 0 := nothing
      rcases amounts with ⟨-, -, -, -, canonical⟩ | ⟨-, expected, canonical⟩
      · rw [canonical, zero, formatUnits_zero]
      · rw [canonical]
        exact h.zero i₀ hi₀ mode (expected.symm.trans zero)
    · exact h.zero i' hi mode nothing
  · intro i' hi' mode none
    rcases back i' hi' with ⟨-, commits⟩ | ⟨hi, -, commits⟩
    · rw [commits] at none
      simp at none
    · exact h.undecided i' hi mode (commits ▸ none)
  · intro i' hi' l' hl' hli
    obtain ⟨l, hl, hl'⟩ := backLink l' hl'
    rcases back i' hi' with ⟨rfl, -⟩ | ⟨hi, hne, -⟩
    · rcases hl' with ⟨hid, rfl⟩ | ⟨hid, rfl⟩
      · -- the link takes the decided amount, or shows the same amount already
        have shown := h.shown i₀ hi₀ l hl (hid.trans hid₀.symm)
        show (if l.amount = .zero then s.canonicalAmount else l.amount) = s.canonicalAmount
        rcases amounts with ⟨-, -, zero, -, -⟩ | ⟨-, -, canonical⟩
        · rw [if_pos (shown.trans zero)]
        · rw [canonical, shown]
          exact ite_self _
      · exact absurd (hli.trans hid₀) hid
    · rcases hl' with ⟨hid, rfl⟩ | ⟨hid, rfl⟩
      · exact absurd (hid.symm.trans hli).symm hne
      · exact h.shown i' hi l' hl hli
  · intro i' hi'
    have before : ∃ l ∈ w.db.links, l.intentId = i'.id := by
      rcases back i' hi' with ⟨rfl, -⟩ | ⟨hi, -, -⟩
      · exact h.linked i₀ hi₀
      · exact h.linked i' hi
    obtain ⟨l, hl, hli⟩ := before
    refine ⟨_, (Table.mem_of_rewritten m.links).2 ⟨l, hl, rfl⟩, ?_⟩
    split <;> exact hli
  · intro i' hi' some
    rcases back i' hi' with ⟨rfl, -⟩ | ⟨hi, -, commits⟩
    · show (if s.exceeds then IntentStatus.overpaid else .paid) =
        if s.expected < s.paid then .overpaid else .paid
      simp only [b.exceeds, decide_eq_true_eq]
    · exact h.status i' hi (commits ▸ some)
  · intro i' hi' some l' hl' hli
    obtain ⟨l, hl, hl'⟩ := backLink l' hl'
    rcases hl' with ⟨hid, rfl⟩ | ⟨hid, rfl⟩
    · rfl
    · rcases back i' hi' with ⟨rfl, -⟩ | ⟨hi, -, commits⟩
      · exact absurd (hli.trans hid₀) hid
      · exact h.linkStatus i' hi (commits ▸ some) l' hl hli
  · intro i' hi' mode c hc
    have keeps : ∀ a ∈ w.db.attempts, ∃ a' ∈ db'.attempts, a'.id = a.id ∧
        a'.settlementAmountAtomic = a.settlementAmountAtomic := by
      intro a ha
      refine ⟨_, (Table.mem_of_rewritten m.attempts).2 ⟨a, ha, rfl⟩, ?_⟩
      split <;> exact ⟨rfl, rfl⟩
    rcases back i' hi' with ⟨rfl, commits⟩ | ⟨hi, -, commits⟩
    · rw [commits] at hc
      rcases amounts with ⟨-, none, -, expected, -⟩ | ⟨some, expected, -⟩
      · -- the first commit of an open amount: this settlement
        rw [none] at hc
        obtain rfl : s.commit w.uuid timestamp = c := by simpa using hc
        obtain ⟨a, ha, hid, amount⟩ := keeps a₀ ha₀
        obtain ⟨a₁, ha₁, ev⟩ := b.attempt
        obtain rfl := attempt_eq ha₁ ha₀ ((congrArg (·.id) ev.terms).trans haid₀.symm)
        exact ⟨a, ha, hid.trans haid₀, amount.trans
          ((congrArg (·.settlementAmountAtomic) ev.terms).trans expected.symm)⟩
      · have head : c ∈ (w.db.commitsOf i₀.id).head? := by
          rwa [List.head?_append_of_ne_nil _ (some mode)] at hc
        obtain ⟨a, ha, hid, amount⟩ := h.decided i₀ hi₀ mode c head
        obtain ⟨a', ha', hid', amount'⟩ := keeps a ha
        exact ⟨a', ha', hid'.trans hid, amount'.trans (amount.trans expected.symm)⟩
    · obtain ⟨a, ha, hid, amount⟩ := h.decided i' hi mode c (commits ▸ hc)
      obtain ⟨a', ha', hid', amount'⟩ := keeps a ha
      exact ⟨a', ha', hid'.trans hid, amount'.trans amount⟩

end ParmeliaLinks.Payments
