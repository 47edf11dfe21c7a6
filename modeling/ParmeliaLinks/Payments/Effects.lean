/-
ParmeliaLinks/Payments/Effects.lean

What each write of the repository does to the rows, said once.  The writes fall
into four kinds, and every invariant is proved from these descriptions alone:

* a write that only moves attempts (`AttemptsMove`): creating one, reporting a
  transaction, cancelling, marking as processing;
* a write that creates an intent with its link and its event (`Created`);
* a write that changes intents and links without paying (`IntentsMove`):
  cancelling an intent, releasing an open amount;
* a write that pays: the sandbox (`Simulated`) and a settlement (`Settled`).
-/
import ParmeliaLinks.Payments.Settlement

namespace ParmeliaLinks.Payments

/-! ### How rows evolve -/

/-- What a later row of an attempt keeps: its terms, its source transaction, and
everything about it once it is no longer open. -/
structure AttemptEvolves (a a' : PaymentAttempt) : Prop where
  terms : a'.toAttemptTerms = a.toAttemptTerms
  closed : a.status.active = false →
    a'.status = a.status ∧ a'.settledAmountAtomic = a.settledAmountAtomic
  source : ∀ h, a.sourceTxHash = some h → a'.sourceTxHash = some h

theorem AttemptEvolves.rfl (a : PaymentAttempt) : AttemptEvolves a a :=
  ⟨by rfl, fun _ => by constructor <;> rfl, fun _ h => h⟩

theorem AttemptEvolves.trans {a b c : PaymentAttempt} (hab : AttemptEvolves a b)
    (hbc : AttemptEvolves b c) : AttemptEvolves a c where
  terms := hbc.terms.trans hab.terms
  closed h := by
    obtain ⟨status, settled⟩ := hab.closed h
    obtain ⟨status', settled'⟩ := hbc.closed (by rw [status]; exact h)
    exact ⟨status'.trans status, settled'.trans settled⟩
  source h hs := hbc.source h (hab.source h hs)

/-- A change of an attempt that is not a settlement. -/
structure AttemptStep (a a' : PaymentAttempt) : Prop extends AttemptEvolves a a' where
  unsettled : a'.status.settled = true → a.status.settled = true

theorem AttemptStep.rfl (a : PaymentAttempt) : AttemptStep a a :=
  ⟨.rfl a, id⟩

/-- What a later row of an intent keeps: its terms and what was paid, and its
amount once the amount is decided. -/
structure IntentEvolves (i i' : PaymentIntent) : Prop where
  terms : i'.toIntentTerms = i.toIntentTerms
  paid : i.paidAmountAtomic ≤ i'.paidAmountAtomic
  amount : i.amountMode = .fixed ∨ 0 < i.paidAmountAtomic →
    i'.amount = i.amount ∧ i'.amountAtomic = i.amountAtomic

theorem IntentEvolves.rfl (i : PaymentIntent) : IntentEvolves i i :=
  ⟨by rfl, le_rfl, fun _ => by constructor <;> rfl⟩

theorem IntentEvolves.trans {i j k : PaymentIntent} (hij : IntentEvolves i j)
    (hjk : IntentEvolves j k) : IntentEvolves i k where
  terms := hjk.terms.trans hij.terms
  paid := hij.paid.trans hjk.paid
  amount h := by
    have mode : j.amountMode = i.amountMode := congrArg (·.amountMode) hij.terms
    obtain ⟨text, atomic⟩ := hij.amount h
    obtain ⟨text', atomic'⟩ := hjk.amount (by
      rcases h with h | h
      · exact .inl (mode.trans h)
      · exact .inr (h.trans_le hij.paid))
    exact ⟨text'.trans text, atomic'.trans atomic⟩

/-- A change of an intent that pays nothing: it may be canceled, and an open
amount may be taken back, only while it awaits payment. -/
structure IntentStep (i i' : PaymentIntent) : Prop where
  terms : i'.toIntentTerms = i.toIntentTerms
  paid : i'.paidAmountAtomic = i.paidAmountAtomic
  status : i'.status = i.status ∨ i.status = .awaitingPayment ∧ i'.status = .canceled
  amount : (i'.amount = i.amount ∧ i'.amountAtomic = i.amountAtomic) ∨
    (i.amountMode = .payerDefined ∧ i.status = .awaitingPayment ∧
      i'.amount = .zero ∧ i'.amountAtomic = 0)

theorem IntentStep.rfl (i : PaymentIntent) : IntentStep i i :=
  ⟨by rfl, by rfl, .inl (by rfl), .inl (by constructor <;> rfl)⟩

/-! ### Writes that only move attempts -/

namespace Db

variable {db db' : Db}

/-- A row that `insertAttempt` may add. -/
def NewAttempt (db : Db) (a : PaymentAttempt) : Prop :=
  a.status = .reserved ∧ ∃ i ∈ db.intents, i.id = a.intentId

structure AttemptsMove (db db' : Db) : Prop where
  intents : db'.intents = db.intents
  links : db'.links = db.links
  commits : db'.commits = db.commits
  events : db'.events = db.events
  outbox : db'.outbox = db.outbox
  attempts : Table.Evolves AttemptStep db.NewAttempt db.attempts db'.attempts

/-- An update of attempts that relates each row it matches to what it becomes. -/
theorem attemptsMove_of_update {p : PaymentAttempt → Bool} {f : PaymentAttempt → PaymentAttempt}
    {t : Table PaymentAttempt} (h : t.rows = db.attempts.rewritten p f)
    (hf : ∀ a, p a = true → AttemptStep a (f a)) : AttemptsMove db { db with attempts := t } where
  intents := rfl
  links := rfl
  commits := rfl
  events := rfl
  outbox := rfl
  attempts := Table.evolves_of_rewritten h (fun a _ _ => .rfl a) fun a _ => hf a

theorem AttemptsMove.of_attempts_eq (hi : db'.intents = db.intents) (hl : db'.links = db.links)
    (hc : db'.commits = db.commits) (he : db'.events = db.events) (ho : db'.outbox = db.outbox)
    (ha : db'.attempts = db.attempts) : AttemptsMove db db' where
  intents := hi
  links := hl
  commits := hc
  events := he
  outbox := ho
  attempts := ha ▸ Table.Evolves.rfl AttemptStep.rfl _

theorem insertQuote_moves {q : PaymentQuote} (h : db.insertQuote q = some db') :
    AttemptsMove db db' := by
  simp only [insertQuote, Option.bind_eq_bind, Option.bind_eq_some_iff] at h
  obtain ⟨_, _, quotes, _, h⟩ := h
  obtain rfl := Option.some.inj h
  exact .of_attempts_eq rfl rfl rfl rfl rfl rfl

theorem matchesPayableIntent_intent {a : AttemptTerms} (h : db.matchesPayableIntent a = true) :
    ∃ i ∈ db.intents, i.id = a.intentId := by
  obtain ⟨i, hi, hp⟩ := Table.any_eq_true.1 h
  simp only [Bool.and_eq_true, beq_iff_eq] at hp
  exact ⟨i, hi, hp.1.1⟩

theorem insertAttempt_moves {a : AttemptTerms} (h : db.insertAttempt a = some db') :
    AttemptsMove db db' := by
  simp only [insertAttempt, Option.bind_eq_bind, Option.bind_eq_some_iff, Option.guard_eq_some']
    at h
  obtain ⟨_, payable, _, _, attempts, hins, h⟩ := h
  obtain rfl := Option.some.inj h
  refine ⟨rfl, rfl, rfl, rfl, rfl, ?_⟩
  exact Table.evolves_of_append (Table.insert_rows hins).1 AttemptStep.rfl
    ⟨rfl, matchesPayableIntent_intent payable⟩

theorem insertQuoteAndAttempt_moves {q : PaymentQuote} {a : AttemptTerms}
    (h : db.insertQuoteAndAttempt q a = some db') : AttemptsMove db db' := by
  simp only [insertQuoteAndAttempt, Option.bind_eq_bind, Option.bind_eq_some_iff] at h
  obtain ⟨mid, hq, ha⟩ := h
  simp only [insertQuote, Option.bind_eq_bind, Option.bind_eq_some_iff] at hq
  obtain ⟨_, _, quotes, _, hq⟩ := hq
  obtain rfl := Option.some.inj hq
  have moved := insertAttempt_moves ha
  exact ⟨moved.intents, moved.links, moved.commits, moved.events, moved.outbox, moved.attempts⟩

/-- Neither step towards processing closes an attempt or pays it. -/
theorem attemptStep_of_open {a a' : PaymentAttempt} (terms : a'.toAttemptTerms = a.toAttemptTerms)
    (source : ∀ h, a.sourceTxHash = some h → a'.sourceTxHash = some h)
    (settled : a'.settledAmountAtomic = a.settledAmountAtomic)
    (status : a'.status = a.status ∨ (a.status.active = true ∧ a'.status.settled = false)) :
    AttemptStep a a' where
  terms := terms
  source := source
  closed h := by
    rcases status with status | ⟨open_, _⟩
    · exact ⟨status, settled⟩
    · rw [h] at open_
      cases open_
  unsettled h := by
    rcases status with status | ⟨_, unsettled⟩
    · rwa [status] at h
    · rw [h] at unsettled
      cases unsettled

theorem orElse_of_some {α : Type} {x y : Option α} {v : α} (h : x = some v) :
    (x <|> y) = some v := by
  rw [h]
  rfl

theorem markAttemptProcessing_moves {id : AttemptId} {tx : Hash}
    (h : db.markAttemptProcessing id tx = some db') : AttemptsMove db db' := by
  simp only [markAttemptProcessing, Option.bind_eq_bind, Option.bind_eq_some_iff] at h
  obtain ⟨attempts, hupd, h⟩ := h
  obtain rfl := Option.some.inj h
  refine attemptsMove_of_update (Table.update_rows hupd) fun a _ => ?_
  refine attemptStep_of_open rfl (fun v hv => orElse_of_some hv) rfl ?_
  cases hs : a.status <;> simp [AttemptStatus.active, AttemptStatus.settled]

theorem registerAppExecution_moves {id : AttemptId} {command : ExecutionCommand}
    (h : db.registerAppExecution id command = some db') : AttemptsMove db db' := by
  simp only [registerAppExecution, Option.bind_eq_bind, Option.bind_eq_some_iff] at h
  obtain ⟨attempts, hupd, commands, _, h⟩ := h
  obtain rfl := Option.some.inj h
  have moved : AttemptsMove db { db with attempts := attempts } := by
    refine attemptsMove_of_update (Table.update_rows hupd) fun a _ => ?_
    refine attemptStep_of_open rfl (fun v hv => hv) rfl ?_
    cases hs : a.status <;> simp [AttemptStatus.active, AttemptStatus.settled]
  exact ⟨rfl, rfl, rfl, rfl, rfl, moved.attempts⟩

theorem registerSourceTransaction_moves {id : AttemptId} {capabilityHash tx : Hash}
    {changed : Bool} (h : db.registerSourceTransaction id capabilityHash tx = some (changed, db')) :
    AttemptsMove db db' := by
  simp only [registerSourceTransaction, Option.bind_eq_bind, Option.bind_eq_some_iff] at h
  obtain ⟨attempts, hupd, h⟩ := h
  obtain ⟨-, rfl⟩ := Prod.mk.inj (Option.some.inj h)
  refine attemptsMove_of_update (Table.update_rows hupd) fun a _ => ?_
  refine attemptStep_of_open rfl (fun v hv => orElse_of_some hv) rfl ?_
  cases hs : a.status <;> simp [AttemptStatus.active, AttemptStatus.settled]

theorem cancelAttempt_moves (id : AttemptId) (capabilityHash : Hash) :
    AttemptsMove db (db.cancelAttempt id capabilityHash).2 := by
  refine attemptsMove_of_update (Table.modify_rows _ _ _ _) fun a ha => ?_
  refine attemptStep_of_open rfl (fun v hv => hv) rfl (.inr ?_)
  simp only [cancelable, Bool.and_eq_true, beq_iff_eq] at ha
  simp [ha.1.1.2, AttemptStatus.active, AttemptStatus.settled]

theorem recordAttemptFeeEvidence_moves (id : AttemptId) (platform : Nat) (network : Option Nat)
    (tx : Hash) : AttemptsMove db (db.recordAttemptFeeEvidence id platform network tx) :=
  .of_attempts_eq rfl rfl rfl rfl rfl rfl

/-! ### Creating an intent -/

/-- An intent with its link and its event has been added. -/
structure Created (db : Db) (n : NewIntent) (db' : Db) : Prop where
  attempts : db'.attempts = db.attempts
  commits : db'.commits = db.commits
  intents : db'.intents.rows = db.intents.rows ++ [n.intent]
  links : db'.links.rows = db.links.rows ++ [n.link]
  events : db'.events.rows = db.events.rows ++ [n.event]
  outbox : ∃ o : OutboxRow, o.resourceId = n.event.id ∧ db'.outbox.rows = db.outbox.rows ++ [o]
  fresh : db.intents.Fits n.intent
  freshLink : db.links.Fits n.link

theorem createIntentAndLink_created {n : NewIntent} (h : db.createIntentAndLink n = some db') :
    Created db n db' := by
  simp only [createIntentAndLink, Option.bind_eq_bind, Option.bind_eq_some_iff] at h
  obtain ⟨intents, hi, links, hl, events, he, outbox, ho, h⟩ := h
  obtain rfl := Option.some.inj h
  obtain ⟨hi, fresh⟩ := Table.insert_rows hi
  obtain ⟨hl, freshLink⟩ := Table.insert_rows hl
  exact ⟨rfl, rfl, hi, hl, (Table.insert_rows he).1, ⟨_, rfl, (Table.insert_rows ho).1⟩,
    fresh, freshLink⟩

/-! ### Changing intents and links without paying -/

/-- Every link shows the amount of its intent. -/
def LinksShowAmount (db : Db) : Prop :=
  ∀ i ∈ db.intents, ∀ l ∈ db.links, l.intentId = i.id → l.amount = i.amount

/-- An open amount that is not decided is written `0`. -/
def OpenAmountsAreZero (db : Db) : Prop :=
  ∀ i ∈ db.intents, i.amountMode = .payerDefined → i.amountAtomic = 0 → i.amount = .zero

/-- A link changes its status only with an intent that is canceled. -/
structure LinkStep (db' : Db) (l l' : PaymentLink) : Prop where
  terms : l'.toLinkTerms = l.toLinkTerms
  status : l'.status = l.status ∨ ∃ i ∈ db'.intents, i.id = l.intentId ∧ i.status = .canceled

theorem LinkStep.rfl (db' : Db) (l : PaymentLink) : LinkStep db' l l :=
  ⟨by rfl, .inl (by rfl)⟩

structure IntentsMove (db db' : Db) : Prop where
  commits : db'.commits = db.commits
  events : db'.events = db.events
  outbox : db'.outbox = db.outbox
  attempts : Table.Evolves AttemptStep db.NewAttempt db.attempts db'.attempts
  intents : Table.Evolves IntentStep (fun _ => False) db.intents db'.intents
  links : Table.Evolves (LinkStep db') (fun _ => False) db.links db'.links
  amounts : OpenAmountsAreZero db → LinksShowAmount db → LinksShowAmount db'

theorem cancelPaymentIntent_moves (merchantId : MerchantId) (id : IntentId) :
    IntentsMove db (db.cancelPaymentIntent merchantId id).2 where
  commits := rfl
  events := rfl
  outbox := rfl
  attempts := .rfl AttemptStep.rfl _
  intents := by
    refine Table.evolves_of_rewritten (by exact rfl) (fun i _ _ => .rfl i) fun i _ hp => ?_
    simp only [Bool.and_eq_true, beq_iff_eq] at hp
    exact ⟨rfl, rfl, .inr ⟨hp.2, rfl⟩, .inl ⟨rfl, rfl⟩⟩
  links := by
    refine Table.evolves_of_rewritten (by exact rfl) (fun l _ _ => .rfl _ l) fun l _ hp => ?_
    refine ⟨rfl, .inr ?_⟩
    simp only [Bool.and_eq_true, beq_iff_eq] at hp
    obtain ⟨hl, canceled⟩ := hp
    obtain ⟨i, hi, hp⟩ := Table.any_eq_true.1 canceled
    simp only [Bool.and_eq_true, beq_iff_eq] at hp
    exact ⟨i, hi, hp.1.trans hl.symm, hp.2⟩
  amounts _ show_ i' hi' l' hl' h := by
    obtain ⟨i, hi, rfl⟩ := (Table.mem_of_rewritten (by exact rfl)).1 hi'
    obtain ⟨l, hl, rfl⟩ := (Table.mem_of_rewritten (by exact rfl)).1 hl'
    have key : l.intentId = i.id := by split at h <;> split at h <;> exact h
    have same := show_ i hi l hl key
    split <;> split <;> exact same

theorem releaseExpiredPayerDefinedAmount_moves (id : IntentId) (nowSeconds : Nat) :
    IntentsMove db (db.releaseExpiredPayerDefinedAmount id nowSeconds) where
  commits := rfl
  events := rfl
  outbox := rfl
  attempts := by
    refine Table.evolves_of_rewritten (by exact rfl) (fun a _ _ => .rfl a) fun a _ hp => ?_
    refine attemptStep_of_open rfl (fun v hv => hv) rfl (.inr ?_)
    simp only [timedOut, Bool.and_eq_true, Bool.or_eq_true, beq_iff_eq] at hp
    rcases hp.1.2 with hs | hs <;> simp [hs, AttemptStatus.active, AttemptStatus.settled]
  intents := by
    refine Table.evolves_of_rewritten (by exact rfl) (fun i _ _ => .rfl i) fun i _ hp => ?_
    simp only [Bool.and_eq_true, beq_iff_eq] at hp
    exact ⟨rfl, rfl, .inl rfl, .inr ⟨hp.1.1.2, hp.1.2, rfl, rfl⟩⟩
  links := by
    refine Table.evolves_of_rewritten (by exact rfl) (fun l _ _ => .rfl _ l) fun l _ _ => ?_
    exact ⟨rfl, .inl rfl⟩
  amounts zero show_ i' hi' l' hl' h := by
    have hi₀ := hi'
    obtain ⟨i, hi, rfl⟩ := (Table.mem_of_rewritten (by exact rfl)).1 hi'
    obtain ⟨l, hl, rfl⟩ := (Table.mem_of_rewritten (by exact rfl)).1 hl'
    have key : l.intentId = i.id := by split at h <;> split at h <;> exact h
    have same := show_ i hi l hl key
    split <;> rename_i hunset <;> split <;> rename_i hreleased
    · rfl
    · -- the link was reset because the row of its intent says `0`
      simp only [Bool.and_eq_true, beq_iff_eq] at hunset
      obtain ⟨j, hj, hp⟩ := Table.any_eq_true.1 hunset.2
      simp only [Bool.and_eq_true, beq_iff_eq] at hp
      rw [if_neg hreleased] at hi₀
      have hij : j = i := Table.eq_of_clash hj hi₀ (by
        simp [Row.clash, hp.1.1, ← hunset.1, key])
      subst hij
      exact (zero j hi hp.1.2 hp.2).symm
    · -- the intent was reset, so the link is as well
      refine absurd ?_ hunset
      rw [if_pos hreleased] at hi₀
      simp only [Bool.and_eq_true, beq_iff_eq] at hreleased ⊢
      refine ⟨key.trans hreleased.1.1.1, Table.any_eq_true.2 ⟨_, hi₀, ?_⟩⟩
      simp [hreleased.1.1.1, hreleased.1.1.2]
    · exact same

/-! ### Paying in the sandbox -/

/-- The row of an intent before and after a simulation: paid in full, or as it was. -/
structure SimulationStep (merchantId : MerchantId) (id : IntentId) (i i' : PaymentIntent) :
    Prop where
  terms : i'.toIntentTerms = i.toIntentTerms
  amount : i'.amount = i.amount
  amountAtomic : i'.amountAtomic = i.amountAtomic
  pays : simulatable merchantId id i = true →
    i'.paidAmountAtomic = i.amountAtomic ∧ i'.status = .paid
  keeps : simulatable merchantId id i = false → i' = i

structure Simulated (db : Db) (merchantId : MerchantId) (id : IntentId) (db' : Db) : Prop where
  attempts : db'.attempts = db.attempts
  commits : db'.commits = db.commits
  intents : Table.Evolves (SimulationStep merchantId id) (fun _ => False) db.intents db'.intents
  links : Table.Evolves
    (fun l l' => l'.toLinkTerms = l.toLinkTerms ∧ l'.amount = l.amount ∧
      (l.status = .paid → l'.status = .paid))
    (fun _ => False) db.links db'.links
  events : ∃ e : EventRow, e.id = .sandbox id ∧ e.dedupeKey = some (.sandboxPaid id) ∧
    db'.events = db.events.insertOrIgnore e
  outbox : ∃ o : OutboxRow, o.resourceId = .sandbox id ∧ db'.outbox = db.outbox.insertOrIgnore o

theorem simulatable_spec {merchantId : MerchantId} {id : IntentId} {i : PaymentIntent}
    (h : simulatable merchantId id i = true) : i.id = id ∧ i.status = .awaitingPayment := by
  simp only [simulatable, Bool.and_eq_true, beq_iff_eq] at h
  exact ⟨h.1.1.1, h.2⟩

theorem simulatePaymentIntent_simulated (merchantId : MerchantId) (intent : PaymentIntent)
    (timestamp : Timestamp) (endpoints : List EndpointId) :
    Simulated db merchantId intent.id
      (db.simulatePaymentIntent merchantId intent timestamp endpoints).2 where
  attempts := rfl
  commits := rfl
  intents := by
    refine Table.evolves_of_rewritten (by exact rfl) (fun i _ hp => ?_) fun i _ hp => ?_
    · exact ⟨rfl, rfl, rfl, fun h => absurd h (by simp [hp]), fun _ => rfl⟩
    · exact ⟨rfl, rfl, rfl, fun _ => ⟨rfl, rfl⟩, fun h => absurd h (by simp [hp])⟩
  links := by
    refine Table.evolves_of_rewritten (by exact rfl) (fun l _ _ => ⟨rfl, rfl, id⟩)
      fun l _ _ => ?_
    exact ⟨rfl, rfl, fun _ => rfl⟩
  events := ⟨_, rfl, rfl, rfl⟩
  outbox := ⟨_, rfl, rfl⟩

/-! ### Settling -/

/-- What the batch of `settleAttempt` found and did when its commit row went in. -/
structure Settled (db : Db) (s : Settlement) (commitId : CommitId) (timestamp : Timestamp)
    (db' : Db) : Prop where
  intent : ∃ i ∈ db.intents, i.id = s.intent.id ∧ i.paidAmountAtomic = s.previousPaid ∧
    accountable i.status = true
  attempt : ∃ a ∈ db.attempts, a.id = s.attempt.id ∧ a.intentId = s.intent.id ∧
    a.status.active = true
  fits : db.commits.Fits (s.commit commitId timestamp)
  commits : db'.commits.rows = db.commits.rows ++ [s.commit commitId timestamp]
  attempts : db'.attempts.rows = db.attempts.rewritten (·.id == s.attempt.id) s.settleAttemptRow
  intents : db'.intents.rows =
    db.intents.rewritten (·.id == s.intent.id) (s.settleIntentRow timestamp)
  links : db'.links.rows =
    db.links.rewritten (·.intentId == s.intent.id) (s.settleLinkRow timestamp)
  events : db'.events = db.events.insertOrIgnore (s.event timestamp)
  outbox : ∃ o : OutboxRow, o.resourceId = s.eventId ∧ db'.outbox = db.outbox.insertOrIgnore o

theorem settleable_spec {s : Settlement} (h : db.settleable s = true) :
    (∃ i ∈ db.intents, i.id = s.intent.id ∧ i.paidAmountAtomic = s.previousPaid ∧
      accountable i.status = true) ∧
    (∃ a ∈ db.attempts, a.id = s.attempt.id ∧ a.intentId = s.intent.id ∧
      a.status.active = true) := by
  simp only [settleable, Bool.and_eq_true] at h
  obtain ⟨i, hi, hip⟩ := Table.any_eq_true.1 h.1
  obtain ⟨a, ha, hap⟩ := Table.any_eq_true.1 h.2
  simp only [Bool.and_eq_true, beq_iff_eq] at hip hap
  exact ⟨⟨i, hi, hip.1.1, hip.1.2, hip.2⟩, ⟨a, ha, hap.1.1, hap.1.2, hap.2⟩⟩

theorem rewritten_and_true {ρ : Type} [Row ρ] (t : Table ρ) (p : ρ → Bool) (f : ρ → ρ) :
    t.rewritten (fun r => p r && true) f = t.rewritten p f := by
  simp [Table.rewritten]

theorem rewritten_and_false {ρ : Type} [Row ρ] (t : Table ρ) (p : ρ → Bool) (f : ρ → ρ) :
    t.rewritten (fun r => p r && false) f = t.rows := by
  simp [Table.rewritten]

theorem modify_and_false {ρ : Type} [Row ρ] (t : Table ρ) (p : ρ → Bool) (f : ρ → ρ)
    (keys : Table.KeepsKeys f) : t.modify (fun r => p r && false) f keys = t :=
  Table.ext_rows (rewritten_and_false t p f)

/-- The commit row went in, or nothing of the batch had an effect.  A fresh
identifier makes the marker mean this very insertion. -/
theorem settleAttempt_cases {s : Settlement} {commitId : CommitId} {timestamp : Timestamp}
    {endpoints : List EndpointId} {changed : Bool}
    (fresh : ∀ c ∈ db.commits, c.commitId ≠ commitId)
    (h : db.settleAttempt s commitId timestamp endpoints = some (changed, db')) :
    (changed = false ∧ db' = db) ∨ (changed = true ∧ Settled db s commitId timestamp db') := by
  simp only [settleAttempt, Option.bind_eq_bind, Option.bind_eq_some_iff] at h
  obtain ⟨attempts, hupd, h⟩ := h
  obtain ⟨hchanged, rfl⟩ := Prod.mk.inj (Option.some.inj h)
  have hattempts := Table.update_rows hupd
  by_cases inserted : db.settleable s = true ∧ (s.commit commitId timestamp).checked = true ∧
      db.commits.Fits (s.commit commitId timestamp)
  · -- the marker exists: every statement runs
    obtain ⟨able, checked, fits⟩ := inserted
    have commits : (db.insertCommit s commitId timestamp).rows =
        db.commits.rows ++ [s.commit commitId timestamp] := by
      simp only [insertCommit, able, checked, Bool.and_self, if_true]
      exact Table.insertOrIgnore_rows_of_fits fits
    have marker : (db.insertCommit s commitId timestamp).any (·.commitId == commitId) = true :=
      Table.any_eq_true.2
        ⟨_, (Table.mem_of_rows_append commits).2 (.inr rfl), beq_self_eq_true commitId⟩
    obtain ⟨intent, attempt⟩ := settleable_spec able
    simp only [marker, rewritten_and_true] at hattempts
    refine .inr ⟨?_, ?_⟩
    · rw [← hchanged, commits]
      simp
    · refine ⟨intent, attempt, fits, commits, hattempts, ?_, ?_, ?_,
        ⟨s.eventId, timestamp, timestamp⟩, rfl, ?_⟩
      · show db.intents.rewritten _ _ = _
        simp only [marker, rewritten_and_true]
      · show db.links.rewritten _ _ = _
        simp only [marker, rewritten_and_true]
      · simp only [marker, if_true]
      · simp only [marker, if_true]
  · -- the marker does not exist: no statement finds a row
    have commits : db.insertCommit s commitId timestamp = db.commits := by
      unfold insertCommit
      split
      · rename_i able
        rw [Bool.and_eq_true] at able
        exact Table.insertOrIgnore_of_not_fits fun fits => inserted ⟨able.1, able.2, fits⟩
      · rfl
    have marker : (db.insertCommit s commitId timestamp).any (·.commitId == commitId) = false := by
      rw [commits, Table.any_eq_false]
      intro c hc
      simpa using fresh c hc
    refine .inl ⟨?_, ?_⟩
    · rw [← hchanged, commits]
      simp
    · simp only [marker, rewritten_and_false] at hattempts
      obtain rfl : attempts = db.attempts := Table.ext_rows hattempts
      rw [commits] at marker
      simp only [commits, marker, modify_and_false, Bool.false_eq_true, if_false]

end Db

end ParmeliaLinks.Payments
