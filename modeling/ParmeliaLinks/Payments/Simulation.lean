/-
ParmeliaLinks/Payments/Simulation.lean

The sandbox pays.  A simulation reads the intent and the endpoints and then writes its batch, of
which only the first statement asks whether the intent still awaits payment: the event, the
outbox row and the deliveries are inserted in any case, and a link that is pending is paid.
A simulation that another request overtakes therefore answers `null` and has written all the same.

Where each batch finds its intent awaiting payment, or nothing left to write
(`Db.takesSimulation`), what the sandbox wrote belongs to a simulation that paid, and one that
answers `null` has changed nothing.
-/
import ParmeliaLinks.Lib.Watched
import ParmeliaLinks.Payments.Runs

namespace ParmeliaLinks.Payments

/-- A row that was inserted, or the one in its way. -/
theorem mem_insertOrIgnore_self {ρ : Type} [Row ρ] (t : Table ρ) (r : ρ) :
    ∃ r' ∈ t.insertOrIgnore r, r' = r ∨ Row.clash r' r = true := by
  by_cases fits : t.Fits r
  · exact ⟨r, (Table.mem_of_rows_append (Table.insertOrIgnore_rows_of_fits fits)).2 (.inr rfl),
      .inl rfl⟩
  · rw [Table.insertOrIgnore_of_not_fits fits]
    simp only [Table.Fits, not_forall, Bool.not_eq_false] at fits
    obtain ⟨r', hr', clash⟩ := fits
    exact ⟨r', hr', .inr clash⟩

/-- A row that an insertion leaves out has another one in its way. -/
theorem exists_clash_of_insertOrIgnore_eq {ρ : Type} [Row ρ] {t : Table ρ} {r : ρ}
    (h : t.insertOrIgnore r = t) : ∃ r' ∈ t, Row.clash r' r = true := by
  by_contra none
  have fits : t.Fits r := by
    intro r' hr'
    rw [← Bool.not_eq_true]
    exact fun clash => none ⟨r', hr', clash⟩
  have rows := Table.insertOrIgnore_rows_of_fits fits
  rw [h] at rows
  simp at rows

/-- An update that leaves the table as it was leaves each row as it was. -/
theorem apply_eq_of_rewritten_eq {ρ : Type} [Row ρ] {t : Table ρ} {p : ρ → Bool} {f : ρ → ρ}
    (h : t.rewritten p f = t.rows) {r : ρ} (hr : r ∈ t) (hp : p r = true) : f r = r := by
  have each := List.map_inj_left.1 (h.trans (List.map_id t.rows).symm) r hr
  rwa [if_pos hp] at each

/-! ### What a simulation writes -/

namespace Db

variable {db db' : Db}

/-- The sandbox has written something for the intent. -/
def SandboxWrote (db : Db) (id : IntentId) : Prop :=
  (∃ e ∈ db.events, e.id = .sandbox id) ∨ (∃ o ∈ db.outbox, o.resourceId = .sandbox id) ∨
    (∃ d ∈ db.deliveries, d.eventId = .sandbox id) ∨
    ∃ l ∈ db.links, l.intentId = id ∧ l.paidBy = some .sandbox

/-- The statements of a simulation after the first one find nothing to do. -/
def simulationWritten (db : Db) (merchantId : MerchantId) (id : IntentId)
    (endpoints : List EndpointId) : Bool :=
  !(db.links.any fun l => l.intentId == id && l.status == .pending) &&
    (db.events.any fun e => e.id == .sandbox id ||
      (e.merchantId == merchantId && e.dedupeKey == some (.sandboxPaid id))) &&
    (db.outbox.any fun o => o.resourceId == .sandbox id) &&
    endpoints.all fun endpoint => db.deliveries.any fun d =>
      d.eventId == .sandbox id && d.endpointId == endpoint

/-- The batch finds the intent awaiting payment, or finds nothing to do. -/
def takesSimulation (db : Db) (merchantId : MerchantId) (id : IntentId)
    (endpoints : List EndpointId) : Bool :=
  db.intents.any (simulatable merchantId id) || db.simulationWritten merchantId id endpoints

/-! ### Deliveries of an event -/

variable {event : EventId} {timestamp : Timestamp} {endpoints : List EndpointId}

theorem mem_deliver_of_mem {t : Table DeliveryRow} {d : DeliveryRow} (h : d ∈ t) :
    d ∈ deliver t event timestamp endpoints := by
  unfold deliver
  induction endpoints generalizing t with
  | nil => exact h
  | cons e endpoints ih => exact ih (Table.mem_insertOrIgnore_of_mem h)

/-- A delivery that is new is one of the event. -/
theorem of_mem_deliver {t : Table DeliveryRow} {d : DeliveryRow}
    (h : d ∈ deliver t event timestamp endpoints) : d ∈ t ∨ d.eventId = event := by
  unfold deliver at h
  induction endpoints generalizing t with
  | nil => exact .inl h
  | cons e endpoints ih =>
    rcases ih h with h | h
    · rcases Table.mem_or_eq_of_mem_insertOrIgnore h with h | rfl
      · exact .inl h
      · exact .inr rfl
    · exact .inr h

/-- Every endpoint has its delivery afterwards. -/
theorem deliver_complete {t : Table DeliveryRow} {e : EndpointId} (he : e ∈ endpoints) :
    ∃ d ∈ deliver t event timestamp endpoints, d.eventId = event ∧ d.endpointId = e := by
  induction endpoints generalizing t with
  | nil => cases he
  | cons e' endpoints ih =>
    rcases List.mem_cons.1 he with rfl | he
    · -- inserted now, or there before
      have there : ∃ d ∈ t.insertOrIgnore ⟨event, e, timestamp, timestamp⟩,
          d.eventId = event ∧ d.endpointId = e := by
        obtain ⟨d, hd, rfl | clash⟩ := mem_insertOrIgnore_self t ⟨event, e, timestamp, timestamp⟩
        · exact ⟨_, hd, rfl, rfl⟩
        · simp only [Row.clash, Bool.and_eq_true, beq_iff_eq] at clash
          exact ⟨d, hd, clash⟩
      obtain ⟨d, hd, same⟩ := there
      refine ⟨d, ?_, same⟩
      rw [deliver, List.foldl_cons]
      exact mem_deliver_of_mem hd
    · exact ih he

theorem deliver_of_present {t : Table DeliveryRow}
    (h : ∀ e ∈ endpoints, ∃ d ∈ t, d.eventId = event ∧ d.endpointId = e) :
    deliver t event timestamp endpoints = t := by
  unfold deliver
  induction endpoints with
  | nil => rfl
  | cons e endpoints ih =>
    obtain ⟨d, hd, own, goes⟩ := h e List.mem_cons_self
    rw [List.foldl_cons, Table.insertOrIgnore_of_not_fits, ih]
    · exact fun e he => h e (List.mem_cons_of_mem _ he)
    · intro fits
      have apart := fits d hd
      simp [Row.clash, own, goes] at apart

/-! ### When a batch changes nothing -/

variable {merchantId : MerchantId} {intent : PaymentIntent}

/-- Without the intent the first statement changes nothing, and nor do the others when there is
nothing left to write. -/
theorem simulatePaymentIntent_of_written (unpayable : db.intents.any
      (simulatable merchantId intent.id) = false)
    (written : db.simulationWritten merchantId intent.id endpoints = true) :
    (db.simulatePaymentIntent merchantId intent timestamp endpoints).2 = db := by
  simp only [simulationWritten, Bool.and_eq_true, Bool.not_eq_true', Table.any_eq_false,
    Table.any_eq_true, List.all_eq_true, Bool.or_eq_true, beq_iff_eq] at written
  obtain ⟨⟨⟨link, event⟩, queued⟩, delivered⟩ := written
  have intents : db.intents.changes (simulatable merchantId intent.id) = 0 :=
    Table.changes_eq_zero.2 (Table.any_eq_false.1 unpayable)
  have links : db.links.changes
      (fun l => l.intentId == intent.id && l.status == .pending) = 0 :=
    Table.changes_eq_zero.2 link
  have told {e : EventRow} (id : e.id = .sandbox intent.id) (own : e.merchantId = merchantId)
      (key : e.dedupeKey = some (.sandboxPaid intent.id)) : ¬ db.events.Fits e := by
    intro fits
    obtain ⟨e', he', same⟩ := event
    have apart := fits e' he'
    rcases same with same | ⟨merchant, same⟩
    · simp [Row.clash, id, same] at apart
    · simp [Row.clash, own, key, merchant, same] at apart
  have waits {o : OutboxRow} (id : o.resourceId = .sandbox intent.id) : ¬ db.outbox.Fits o := by
    intro fits
    obtain ⟨o', ho', same⟩ := queued
    have apart := fits o' ho'
    simp [Row.clash, id, same] at apart
  unfold simulatePaymentIntent
  dsimp only
  rw [Table.modify_of_changes_eq_zero intents, Table.modify_of_changes_eq_zero links,
    Table.insertOrIgnore_of_not_fits (told rfl rfl rfl),
    Table.insertOrIgnore_of_not_fits (waits rfl), deliver_of_present delivered]

/-- A batch whose first statement finds no intent, and that changes nothing, had nothing to write. -/
theorem simulationWritten_of_same
    (same : (db.simulatePaymentIntent merchantId intent timestamp endpoints).2 = db) :
    db.simulationWritten merchantId intent.id endpoints = true := by
  have links : db.links.rewritten _ _ = db.links.rows :=
    congrArg (fun db => db.links.rows) same
  have events : db.events.insertOrIgnore _ = db.events := congrArg Db.events same
  have outbox : db.outbox.insertOrIgnore _ = db.outbox := congrArg Db.outbox same
  have deliveries : deliver db.deliveries (.sandbox intent.id) timestamp endpoints =
    db.deliveries := congrArg Db.deliveries same
  simp only [simulationWritten, Bool.and_eq_true, Bool.not_eq_true', Table.any_eq_false,
    Table.any_eq_true, List.all_eq_true, Bool.or_eq_true, beq_iff_eq]
  refine ⟨⟨⟨fun l hl => ?_, ?_⟩, ?_⟩, fun e he => ?_⟩
  · rw [← Bool.not_eq_true]
    intro matched
    have kept := congrArg PaymentLink.status (apply_eq_of_rewritten_eq links hl matched)
    simp only [Bool.and_eq_true, beq_iff_eq] at matched
    rw [matched.2] at kept
    cases kept
  · obtain ⟨e, he, clash⟩ := exists_clash_of_insertOrIgnore_eq events
    refine ⟨e, he, ?_⟩
    simp only [Row.clash, Bool.or_eq_true, Bool.and_eq_true, beq_iff_eq] at clash
    rcases clash with id | ⟨merchant, key⟩
    · exact .inl id
    · refine .inr ⟨merchant, ?_⟩
      cases own : e.dedupeKey with
      | none => simp [own, sameValue] at key
      | some k => simpa [own] using key
  · obtain ⟨o, ho, clash⟩ := exists_clash_of_insertOrIgnore_eq outbox
    exact ⟨o, ho, beq_iff_eq.1 clash⟩
  · rw [← deliveries]
    exact deliver_complete he

/-! ### What the other operations write -/

/-- A step of another function: intents stay, and the sandbox has written nothing more. -/
structure KeepsSandbox (db db' : Db) : Prop where
  intents : ∀ i ∈ db.intents, ∃ i' ∈ db'.intents, i'.id = i.id
  wrote : ∀ id, db'.SandboxWrote id → db.SandboxWrote id

theorem KeepsSandbox.rfl (db : Db) : KeepsSandbox db db :=
  ⟨fun i hi => ⟨i, hi, by rfl⟩, fun _ h => h⟩

/-- A step that leaves these tables alone. -/
theorem KeepsSandbox.of_same (intents : db'.intents = db.intents) (links : db'.links = db.links)
    (events : db'.events = db.events) (outbox : db'.outbox = db.outbox)
    (deliveries : db'.deliveries = db.deliveries) : KeepsSandbox db db' := by
  refine ⟨fun i hi => ⟨i, intents ▸ hi, by rfl⟩, fun id h => ?_⟩
  simpa only [SandboxWrote, links, events, outbox, deliveries] using h

/-- A step that writes none of the sandbox's rows and leaves links with who paid them. -/
theorem KeepsSandbox.of_tables
    (intents : ∀ i ∈ db.intents, ∃ i' ∈ db'.intents, i'.id = i.id)
    (links : ∀ l' ∈ db'.links, l'.paidBy = some .sandbox →
      ∃ l ∈ db.links, l.intentId = l'.intentId ∧ l.paidBy = some .sandbox)
    (events : ∀ e ∈ db'.events, ∀ id, e.id = .sandbox id → e ∈ db.events)
    (outbox : ∀ o ∈ db'.outbox, ∀ id, o.resourceId = .sandbox id → o ∈ db.outbox)
    (deliveries : ∀ d ∈ db'.deliveries, ∀ id, d.eventId = .sandbox id → d ∈ db.deliveries) :
    KeepsSandbox db db' := by
  refine ⟨intents, fun id h => ?_⟩
  rcases h with ⟨e, he, own⟩ | ⟨o, ho, own⟩ | ⟨d, hd, own⟩ | ⟨l', hl', own, paid⟩
  · exact .inl ⟨e, events e he id own, own⟩
  · exact .inr (.inl ⟨o, outbox o ho id own, own⟩)
  · exact .inr (.inr (.inl ⟨d, deliveries d hd id own, own⟩))
  · obtain ⟨l, hl, same, paid⟩ := links l' hl' paid
    exact .inr (.inr (.inr ⟨l, hl, same.trans own, paid⟩))

theorem keepsSandbox_created {n : NewIntent} (h : db.createIntentAndLink n = some db')
    (event : ∀ id, n.event.id ≠ .sandbox id) (unpaid : n.link.paidBy = none) :
    KeepsSandbox db db' := by
  simp only [createIntentAndLink, Option.bind_eq_bind, Option.bind_eq_some_iff] at h
  obtain ⟨intents, hi, links, hl, events, he, outbox, ho, h⟩ := h
  obtain rfl := Option.some.inj h
  refine .of_tables (fun i hi' => ?_) (fun l' hl' paid => ?_) (fun e he' id own => ?_)
    (fun o ho' id own => ?_) fun d hd id own => ?_
  · exact ⟨i, (Table.mem_of_rows_append (Table.insert_rows hi).1).2 (.inl hi'), rfl⟩
  · rcases (Table.mem_of_rows_append (Table.insert_rows hl).1).1 hl' with hl' | rfl
    · exact ⟨l', hl', rfl, paid⟩
    · rw [unpaid] at paid
      cases paid
  · rcases (Table.mem_of_rows_append (Table.insert_rows he).1).1 he' with he' | rfl
    · exact he'
    · exact (event id own).elim
  · rcases (Table.mem_of_rows_append (Table.insert_rows ho).1).1 ho' with ho' | rfl
    · exact ho'
    · exact (event id own).elim
  · rcases of_mem_deliver hd with hd | same
    · exact hd
    · exact (event id (same.symm.trans own)).elim

/-- Statements that update intents and links and leave alone who paid. -/
theorem keepsSandbox_rewritten {p : PaymentIntent → Bool} {f : PaymentIntent → PaymentIntent}
    {q : PaymentLink → Bool} {g : PaymentLink → PaymentLink}
    (intents : db'.intents.rows = db.intents.rewritten p f)
    (links : db'.links.rows = db.links.rewritten q g)
    (hf : ∀ i, (f i).id = i.id)
    (hg : ∀ l, (g l).intentId = l.intentId ∧
      ((g l).paidBy = some .sandbox → l.paidBy = some .sandbox))
    (events : ∀ e ∈ db'.events, ∀ id, e.id = .sandbox id → e ∈ db.events)
    (outbox : ∀ o ∈ db'.outbox, ∀ id, o.resourceId = .sandbox id → o ∈ db.outbox)
    (deliveries : ∀ d ∈ db'.deliveries, ∀ id, d.eventId = .sandbox id → d ∈ db.deliveries) :
    KeepsSandbox db db' := by
  refine .of_tables (fun i hi => ?_) (fun l' hl' paid => ?_) events outbox deliveries
  · refine ⟨_, (Table.mem_of_rewritten intents).2 ⟨i, hi, rfl⟩, ?_⟩
    split
    · exact hf i
    · rfl
  · obtain ⟨l, hl, rfl⟩ := (Table.mem_of_rewritten links).1 hl'
    refine ⟨l, hl, ?_⟩
    split at paid
    · rename_i matched
      rw [if_pos matched]
      exact ⟨(hg l).1.symm, (hg l).2 paid⟩
    · rename_i other
      rw [if_neg other]
      exact ⟨rfl, paid⟩

theorem keepsSandbox_settled {s : Settlement} {commitId : CommitId} {changed : Bool}
    (h : db.settleAttempt s commitId timestamp endpoints = some (changed, db')) :
    KeepsSandbox db db' := by
  simp only [settleAttempt, Option.bind_eq_bind, Option.bind_eq_some_iff] at h
  obtain ⟨attempts, -, h⟩ := h
  obtain ⟨-, rfl⟩ := Prod.mk.inj (Option.some.inj h)
  refine keepsSandbox_rewritten (f := s.settleIntentRow timestamp) (g := s.settleLinkRow timestamp)
    rfl rfl (fun _ => rfl) (fun l => ⟨rfl, fun paid => ?_⟩) (fun e he id own => ?_)
    (fun o ho id own => ?_) fun d hd id own => ?_
  · -- who has paid a link first stays
    simp only [Settlement.settleLinkRow] at paid
    cases h : l.paidBy with
    | none => rw [h] at paid; cases paid
    | some payer => rw [h] at paid; exact paid
  · dsimp only at he
    split at he
    · rcases Table.mem_or_eq_of_mem_insertOrIgnore he with he | rfl
      · exact he
      · cases own
    · exact he
  · dsimp only at ho
    split at ho
    · rcases Table.mem_or_eq_of_mem_insertOrIgnore ho with ho | rfl
      · exact ho
      · cases own
    · exact ho
  · dsimp only at hd
    split at hd
    · rcases of_mem_deliver hd with hd | same
      · exact hd
      · rw [same] at own
        cases own
    · exact hd

theorem keepsSandbox_insertQuote {q : PaymentQuote} (h : db.insertQuote q = some db') :
    KeepsSandbox db db' := by
  simp only [insertQuote, Option.bind_eq_bind, Option.bind_eq_some_iff] at h
  obtain ⟨_, _, quotes, _, h⟩ := h
  obtain rfl := Option.some.inj h
  exact .of_same rfl rfl rfl rfl rfl

theorem keepsSandbox_insertAttempt {a : AttemptTerms} (h : db.insertAttempt a = some db') :
    KeepsSandbox db db' := by
  simp only [insertAttempt, Option.bind_eq_bind, Option.bind_eq_some_iff] at h
  obtain ⟨_, _, _, _, attempts, _, h⟩ := h
  obtain rfl := Option.some.inj h
  exact .of_same rfl rfl rfl rfl rfl

theorem KeepsSandbox.trans {db'' : Db} (h : KeepsSandbox db db') (h' : KeepsSandbox db' db'') :
    KeepsSandbox db db'' := by
  refine ⟨fun i hi => ?_, fun id written => h.wrote id (h'.wrote id written)⟩
  obtain ⟨i', hi', same⟩ := h.intents i hi
  obtain ⟨i'', hi'', same'⟩ := h'.intents i' hi'
  exact ⟨i'', hi'', same'.trans same⟩

end Db

/-- The operation is the batch of a simulation. -/
def RepositoryOp.simulates : RepositoryOp → Bool
  | .simulatePaymentIntent .. => true
  | _ => false

/-- What an operation other than a simulation does for the sandbox. -/
structure World.KeepsSandbox (w w' : World) : Prop extends Db.KeepsSandbox w.db w'.db where
  simulations : w'.simulations = w.simulations

variable {w : World}

theorem keepsSandbox_commitBatch {r : Option Db}
    (h : ∀ db', r = some db' → Db.KeepsSandbox w.db db') :
    w.KeepsSandbox (RepositoryOp.commitBatch w r).2 := by
  cases r with
  | none => exact ⟨.rfl w.db, rfl⟩
  | some db' => exact ⟨h db' rfl, rfl⟩

theorem keepsSandbox_commitReport {r : Option (Bool × Db)}
    (h : ∀ changed db', r = some (changed, db') → Db.KeepsSandbox w.db db') :
    w.KeepsSandbox (RepositoryOp.commitReport w r).2 := by
  cases r with
  | none => exact ⟨.rfl w.db, rfl⟩
  | some r => exact ⟨h r.1 r.2 rfl, rfl⟩

theorem RepositoryOp.keepsSandbox {o : RepositoryOp} (other : o.simulates = false) :
    w.KeepsSandbox (o.exec w).2 := by
  cases o with
  | createIntentAndLink input id link timestamp =>
    refine keepsSandbox_commitBatch fun db' h => Db.keepsSandbox_created h (fun id => ?_) rfl
    intro same
    cases same
  | cancelPaymentIntent merchantId id =>
    refine ⟨Db.keepsSandbox_rewritten (f := fun i => { i with status := .canceled })
      (g := fun l => { l with status := .canceled }) rfl rfl (fun _ => rfl)
      (fun _ => ⟨rfl, fun paid => paid⟩) (fun e he _ _ => he) (fun o ho _ _ => ho)
      fun d hd _ _ => hd, rfl⟩
  | insertQuote q => exact keepsSandbox_commitBatch fun db' h => Db.keepsSandbox_insertQuote h
  | insertAttempt a => exact keepsSandbox_commitBatch fun db' h => Db.keepsSandbox_insertAttempt h
  | insertQuoteAndAttempt q a =>
    refine keepsSandbox_commitBatch fun db' h => ?_
    simp only [Db.insertQuoteAndAttempt, Option.bind_eq_bind, Option.bind_eq_some_iff] at h
    obtain ⟨db₁, quoted, h⟩ := h
    exact (Db.keepsSandbox_insertQuote quoted).trans (Db.keepsSandbox_insertAttempt h)
  | markAttemptProcessing id tx =>
    refine keepsSandbox_commitBatch fun db' h => ?_
    simp only [Db.markAttemptProcessing, Option.bind_eq_bind, Option.bind_eq_some_iff] at h
    obtain ⟨attempts, -, h⟩ := h
    obtain rfl := Option.some.inj h
    exact .of_same rfl rfl rfl rfl rfl
  | registerAppExecution id command =>
    refine keepsSandbox_commitBatch fun db' h => ?_
    simp only [Db.registerAppExecution, Option.bind_eq_bind, Option.bind_eq_some_iff] at h
    obtain ⟨attempts, -, commands, -, h⟩ := h
    obtain rfl := Option.some.inj h
    exact .of_same rfl rfl rfl rfl rfl
  | registerSourceTransaction id capabilityHash tx =>
    refine keepsSandbox_commitReport fun changed db' h => ?_
    simp only [Db.registerSourceTransaction, Option.bind_eq_bind, Option.bind_eq_some_iff] at h
    obtain ⟨attempts, -, h⟩ := h
    obtain ⟨-, rfl⟩ := Prod.mk.inj (Option.some.inj h)
    exact .of_same rfl rfl rfl rfl rfl
  | cancelAttempt id capabilityHash => exact ⟨.of_same rfl rfl rfl rfl rfl, rfl⟩
  | releaseExpiredPayerDefinedAmount intentId nowSeconds =>
    exact ⟨Db.keepsSandbox_rewritten (f := fun i => { i with amount := .zero, amountAtomic := 0 })
      (g := fun l => { l with amount := .zero }) rfl rfl (fun _ => rfl)
      (fun _ => ⟨rfl, fun paid => paid⟩) (fun e he _ _ => he) (fun o ho _ _ => ho)
      fun d hd _ _ => hd, rfl⟩
  | recordAttemptFeeEvidence id platform network tx =>
    exact ⟨.of_same rfl rfl rfl rfl rfl, rfl⟩
  | settleAttempt s timestamp endpoints =>
    simp only [exec]
    cases h : w.db.settleAttempt s w.uuid timestamp endpoints with
    | none => exact ⟨.rfl w.db, rfl⟩
    | some r => exact ⟨Db.keepsSandbox_settled h, rfl⟩
  | simulatePaymentIntent merchantId intent timestamp endpoints => cases other
  | _ => exact ⟨.rfl w.db, rfl⟩

/-! ### The batch of a simulation -/

section batch

variable {merchantId : MerchantId} {intent : PaymentIntent} {timestamp : Timestamp}
  {endpoints : List EndpointId}

theorem simulatePaymentIntent_intents {i : PaymentIntent} (hi : i ∈ w.db.intents) :
    ∃ i' ∈ (w.db.simulatePaymentIntent merchantId intent timestamp endpoints).2.intents,
      i'.id = i.id := by
  obtain ⟨i', hi', step⟩ :=
    (Db.simulatePaymentIntent_simulated merchantId intent timestamp endpoints).intents.forward i hi
  exact ⟨i', hi', congrArg (·.id) step.terms⟩

/-- What the sandbox writes in addition is for this intent. -/
theorem simulatePaymentIntent_wrote {id : IntentId}
    (h : (w.db.simulatePaymentIntent merchantId intent timestamp endpoints).2.SandboxWrote id) :
    w.db.SandboxWrote id ∨ id = intent.id := by
  rcases h with ⟨e, he, own⟩ | ⟨o, ho, own⟩ | ⟨d, hd, own⟩ | ⟨l', hl', own, paid⟩
  · rcases Table.mem_or_eq_of_mem_insertOrIgnore he with he | rfl
    · exact .inl (.inl ⟨e, he, own⟩)
    · exact .inr (EventId.sandbox.inj own).symm
  · rcases Table.mem_or_eq_of_mem_insertOrIgnore ho with ho | rfl
    · exact .inl (.inr (.inl ⟨o, ho, own⟩))
    · exact .inr (EventId.sandbox.inj own).symm
  · rcases Db.of_mem_deliver hd with hd | same
    · exact .inl (.inr (.inr (.inl ⟨d, hd, own⟩)))
    · exact .inr (EventId.sandbox.inj (same.symm.trans own)).symm
  · obtain ⟨l, hl, rfl⟩ := (Table.mem_of_rewritten (by exact rfl)).1 hl'
    split at own
    · rename_i matched
      simp only [Bool.and_eq_true, beq_iff_eq] at matched
      exact .inr (own.symm.trans matched.1)
    · rename_i other
      rw [if_neg other] at paid
      exact .inl (.inr (.inr (.inr ⟨l, hl, own, paid⟩)))

/-- A batch that finds its intent goes down in the history. -/
theorem recordSimulation_of_found
    (found : w.db.intents.any (Db.simulatable merchantId intent.id) = true) :
    ∃ amount, RepositoryOp.recordSimulation w intent merchantId =
      w.simulations ++ [(intent.id, amount)] := by
  unfold RepositoryOp.recordSimulation
  cases h : w.db.intents.find? (Db.simulatable merchantId intent.id) with
  | none =>
    obtain ⟨i, hi, able⟩ := Table.any_eq_true.1 found
    rw [Table.not_of_find?_none h hi] at able
    cases able
  | some i =>
    have id := (Db.simulatable_spec (Table.of_find? h)).1
    exact ⟨i.amountAtomic, by rw [← id]⟩

theorem mem_recordSimulation {r : IntentId × Nat} (h : r ∈ w.simulations) :
    r ∈ RepositoryOp.recordSimulation w intent merchantId := by
  unfold RepositoryOp.recordSimulation
  split
  · exact List.mem_append_left _ h
  · exact h

/-- A batch that does not find its intent, and has nothing to write, leaves the database. -/
theorem simulatePaymentIntent_unchanged
    (taken : w.db.takesSimulation merchantId intent.id endpoints = true)
    (missed : (w.db.simulatePaymentIntent merchantId intent timestamp endpoints).1 = false) :
    (w.db.simulatePaymentIntent merchantId intent timestamp endpoints).2 = w.db := by
  have unpayable : w.db.intents.any (Db.simulatable merchantId intent.id) = false := by
    have none : ¬ 0 < w.db.intents.changes (Db.simulatable merchantId intent.id) := by
      simpa [Db.simulatePaymentIntent] using missed
    exact Table.any_eq_false.2 (Table.changes_eq_zero.1 (Nat.eq_zero_of_not_pos none))
  rw [Db.takesSimulation, unpayable, Bool.false_or] at taken
  exact Db.simulatePaymentIntent_of_written unpayable taken

/-- The condition leaves out exactly the batches that miss their intent and write all the same. -/
theorem takesSimulation_iff :
    w.db.takesSimulation merchantId intent.id endpoints = true ↔
      ((w.db.simulatePaymentIntent merchantId intent timestamp endpoints).1 = false →
        (w.db.simulatePaymentIntent merchantId intent timestamp endpoints).2 = w.db) := by
  refine ⟨simulatePaymentIntent_unchanged, fun unchanged => ?_⟩
  rw [Db.takesSimulation, Bool.or_eq_true]
  cases found : w.db.intents.any (Db.simulatable merchantId intent.id) with
  | true => exact .inl rfl
  | false =>
    have missed : (w.db.simulatePaymentIntent merchantId intent timestamp endpoints).1 = false := by
      have none := Table.changes_eq_zero.2 (Table.any_eq_false.1 found)
      simp [Db.simulatePaymentIntent, none]
    exact .inr (Db.simulationWritten_of_same (unchanged missed))

/-- A batch that reports a change found its intent. -/
theorem hasIntent_of_changed
    (changed : (w.db.simulatePaymentIntent merchantId intent timestamp endpoints).1 = true) :
    ∃ i ∈ w.db.intents, i.id = intent.id := by
  have some : 0 < w.db.intents.changes (Db.simulatable merchantId intent.id) := by
    simpa [Db.simulatePaymentIntent] using changed
  obtain ⟨i, hi, able⟩ := Table.changes_pos.1 some
  exact ⟨i, hi, (Db.simulatable_spec able).1⟩

end batch

/-! ### The system -/

/-- A call and its result, for a simulation. -/
def simulationBody : RepositoryCall → Repository (Option PaymentIntent)
  | .simulatePaymentIntent merchantId id => simulatePaymentIntent merchantId id
  | c => (repositoryBody c).bind fun _ => .ret none

/-- Repository calls side by side; a simulation keeps its result. -/
def simulationSystem : System RepositoryOp RepositoryOp.Reply World Unit Surroundings
    RepositoryCall (Option PaymentIntent) where
  exec _ o _ w := o.exec w
  env := Surroundings.move
  body := simulationBody

/-- Somebody looks on what each handler does to the database. -/
abbrev watchedSimulations := simulationSystem.watched World.db

/-- A batch of a simulation finds its intent awaiting payment, or nothing left to write. -/
def RepositoryOp.takesSimulation : RepositoryOp → World → Bool
  | .simulatePaymentIntent merchantId intent _ endpoints, w =>
    w.db.takesSimulation merchantId intent.id endpoints
  | _, _ => true

abbrev simulationConditions :
    System.Conditions RepositoryOp World Unit Surroundings RepositoryCall where
  op _ o _ w := o.takesSimulation w = true

/-- What the sandbox wrote belongs to a simulation that paid. -/
def World.SandboxPaid (w : World) : Prop :=
  ∀ id, w.db.SandboxWrote id → ∃ s ∈ w.simulations, s.1 = id

def World.HasIntent (w : World) (id : IntentId) : Prop := ∃ i ∈ w.db.intents, i.id = id

def simulationDiscipline :
    Discipline RepositoryOp (Watched World Db) Unit Surroundings RepositoryCall where
  Inv v := v.world.SandboxPaid
  Evolves v v' := ∀ id, v.world.HasIntent id → v'.world.HasIntent id
  rely i v v' := v.Idle i → v'.Idle i
  allowed := simulationConditions.watched
  refl _ _ h := h
  trans h h' id has := h' id (h id has)
  rely_refl _ _ idle := idle
  rely_trans h h' idle := h' (h idle)

theorem World.KeepsSandbox.keeps {v : Watched World Db} {w' : World}
    {changes : List (Nat × Db × Db)} (h : v.world.KeepsSandbox w') (paid : v.world.SandboxPaid) :
    simulationDiscipline.Keeps v ⟨w', changes⟩ := by
  refine ⟨fun id wrote => ?_, fun id has => ?_⟩
  · obtain ⟨s, hs, own⟩ := paid id (h.wrote id wrote)
    exact ⟨s, by rw [h.simulations]; exact hs, own⟩
  · obtain ⟨i, hi, rfl⟩ := has
    exact h.intents i hi

/-- Every operation follows the discipline, a simulation under its condition. -/
theorem simulation_performs {v : Watched World Db} (paid : v.world.SandboxPaid) {me : Nat}
    {o : RepositoryOp} (taken : o.takesSimulation v.world = true) :
    simulationDiscipline.Performs watchedSimulations me o () v := by
  refine ⟨?_, fun j other idle => idle.other rfl (Ne.symm other), trivial⟩
  by_cases other : o.simulates = false
  · exact (RepositoryOp.keepsSandbox other).keeps paid
  · cases o with
    | simulatePaymentIntent merchantId intent timestamp endpoints =>
      refine ⟨fun id wrote => ?_, fun id has => ?_⟩
      · have before : v.world.db.SandboxWrote id → ∃ s ∈
            RepositoryOp.recordSimulation v.world intent merchantId, s.1 = id := by
          intro wrote
          obtain ⟨s, hs, own⟩ := paid id wrote
          exact ⟨s, mem_recordSimulation hs, own⟩
        cases found : v.world.db.intents.any (Db.simulatable merchantId intent.id) with
        | true =>
          rcases simulatePaymentIntent_wrote wrote with wrote | rfl
          · exact before wrote
          · obtain ⟨amount, recorded⟩ := recordSimulation_of_found found
            refine ⟨(intent.id, amount), ?_, rfl⟩
            show _ ∈ RepositoryOp.recordSimulation v.world intent merchantId
            rw [recorded]
            exact List.mem_append_right _ (List.mem_singleton_self _)
        | false =>
          apply before
          have written : v.world.db.simulationWritten merchantId intent.id endpoints = true := by
            have taken : v.world.db.takesSimulation merchantId intent.id endpoints = true := taken
            rwa [Db.takesSimulation, found, Bool.false_or] at taken
          have same : (v.world.db.simulatePaymentIntent merchantId intent timestamp endpoints).2 =
              v.world.db := Db.simulatePaymentIntent_of_written found written
          exact same ▸ wrote
      · obtain ⟨i, hi, rfl⟩ := has
        exact simulatePaymentIntent_intents hi
    | _ => exact (other rfl).elim

/-! ### One simulation -/

section call

variable {v : Watched World Db} {me : Nat}

/-- An operation of a simulation that changes nothing: the rest goes on idle. -/
theorem wp_idle {o : RepositoryOp} {k : RepositoryOp.Reply o → Repository (Option PaymentIntent)}
    {R : Except String (Option PaymentIntent) → Watched World Db → Prop}
    (paid : v.world.SandboxPaid) (idle : v.Idle me)
    (same : (o.exec v.world).2.db = v.world.db)
    (rest : ∀ v', v'.world.SandboxPaid → v'.Idle me →
      simulationDiscipline.wp watchedSimulations me (k (o.exec v.world).1) R v') :
    simulationDiscipline.wp watchedSimulations me (.act o k) R v := by
  refine Discipline.wp_act _ _ (fun _ taken => simulation_performs paid taken)
    fun _ _ v' later => rest v' later.inv (later.relied ?_)
  exact idle.same rfl same

/-- The batch, and the intent read again if it was found. -/
theorem wp_simulationBatch (merchantId : MerchantId) (intent : PaymentIntent)
    (timestamp : Timestamp) (endpoints : List EndpointId) (paid : v.world.SandboxPaid)
    (idle : v.Idle me) :
    simulationDiscipline.wp watchedSimulations me
      (.act (.simulatePaymentIntent merchantId intent timestamp endpoints) fun changed =>
        if changed = true then getPaymentIntent intent.id else .ret none)
      (fun r v' => r = .ok none → v'.Idle me) v := by
  refine Discipline.wp_act _ _ (fun _ taken => simulation_performs paid taken)
    fun _ taken v' later => ?_
  show simulationDiscipline.wp _ _
    (if (v.world.db.simulatePaymentIntent merchantId intent timestamp endpoints).1 = true then _
      else _) _ _
  split
  · rename_i changed
    -- the intent is there when it is read again
    have has : v'.world.HasIntent intent.id := by
      obtain ⟨i, hi, own⟩ := hasIntent_of_changed changed
      obtain ⟨i', hi', own'⟩ := simulatePaymentIntent_intents hi
      exact later.evolves intent.id ⟨i', hi', own'.trans own⟩
    refine Discipline.wp_perform _ _ (fun _ taken => simulation_performs later.inv taken)
      fun _ _ v'' _ missing => ?_
    obtain ⟨i, hi, own⟩ := has
    have unread := Table.not_of_find?_none (Except.ok.inj missing) hi
    simp [own] at unread
  · rename_i missed
    have same := simulatePaymentIntent_unchanged taken (Bool.not_eq_true _ ▸ missed)
    exact fun _ => later.relied (idle.same rfl same)

/-- A simulation that answers `null` has changed nothing. -/
theorem wp_simulatePaymentIntent (merchantId : MerchantId) (id : IntentId)
    (paid : v.world.SandboxPaid) (idle : v.Idle me) :
    simulationDiscipline.wp watchedSimulations me (simulatePaymentIntent merchantId id)
      (fun r v' => r = .ok none → v'.Idle me) v := by
  refine wp_idle paid idle rfl fun v₁ paid idle => ?_
  simp only [Prog.ret_bind, RepositoryOp.exec]
  cases v.world.db.intents.find? (·.id == id) with
  | none => exact fun _ => idle
  | some intent =>
    dsimp only
    split
    · exact fun _ => idle
    · refine wp_idle paid idle rfl fun v₂ paid idle => ?_
      refine wp_idle paid idle rfl fun v₃ paid idle => ?_
      exact wp_simulationBatch merchantId intent _ _ paid idle

end call

/-! ### Every run -/

/-- A handler may perform any operation. -/
theorem uses_any {α : Type} (p : Repository α) : p.Uses fun _ => True := by
  induction p with
  | ret a => trivial
  | throw m => trivial
  | act o k ih => exact ⟨trivial, ih⟩

theorem surroundings_keepSandbox (e : Surroundings) : w.KeepsSandbox (e.move w) := by
  cases e <;> exact ⟨.of_same rfl rfl rfl rfl rfl, rfl⟩

theorem simulations_obey : simulationDiscipline.Obeys watchedSimulations fun _ _ => True where
  env e v paid _ := by
    refine ⟨?_, fun _ idle => idle⟩
    exact (surroundings_keepSandbox e).keeps paid
  call c me v₀ v _ _ later := by
    refine Discipline.wp_mono _ _ (Discipline.wp_of_uses _ _ (fun o _ _ v' _ paid taken => ?_)
      (uses_any (simulationBody c)) later.inv) fun _ _ _ => trivial
    exact simulation_performs paid taken

/-- The pool that a schedule leads to, with the history of what each handler changed. -/
def simulationRun (clock : Timestamp) (ls : RepositorySchedule) :
    Pool RepositoryOp RepositoryOp.Reply (Watched World Db) (Option PaymentIntent) :=
  watchedSimulations.run ⟨World.initial clock, []⟩ ls

/-- In a run whose simulations find their intents awaiting payment, or nothing left to write: what
the sandbox wrote for an intent belongs to a simulation that paid it, and a simulation that answers
`null` has left every table as it was. -/
theorem simulation_atomic (clock : Timestamp) (ls : RepositorySchedule)
    (taken : simulationSystem.Along simulationConditions ⟨World.initial clock, []⟩ ls) :
    (simulationSystem.run (World.initial clock) ls).world.SandboxPaid ∧
      ∀ i merchantId id, (System.calls ls)[i]? = some (.simulatePaymentIntent merchantId id) →
        (simulationRun clock ls).threads[i]? = some (.ret none) →
        (simulationRun clock ls).world.Idle i := by
  have allowed : watchedSimulations.Along simulationDiscipline.allowed
      ⟨⟨World.initial clock, []⟩, []⟩ ls := System.along_watched.2 taken
  have start : simulationDiscipline.Inv ⟨World.initial clock, []⟩ := by
    rintro id (⟨e, he, -⟩ | ⟨o, ho, -⟩ | ⟨d, hd, -⟩ | ⟨l, hl, -⟩)
    · cases he
    · cases ho
    · cases hd
    · cases hl
  constructor
  · have sound := Discipline.pool_sound simulations_obey start allowed
    have same : System.unwatched (simulationRun clock ls) = simulationSystem.runFrom _ ls :=
      System.watched_runFrom ⟨⟨World.initial clock, []⟩, []⟩ ls
    have world : (simulationRun clock ls).world.world =
        (simulationSystem.run (World.initial clock) ls).world := congrArg Pool.world same
    exact world ▸ sound.inv
  · intro i merchantId id call ended
    exact Discipline.outcome_of_watched simulations_obey start allowed call
      (fun v v' relied => relied)
      (fun v paid idle => wp_simulatePaymentIntent merchantId id paid idle) ended rfl

/-! A sandbox intent, simulated twice; and one that is canceled between the read and the batch. -/

def sandboxIntent : CreateIntentInput :=
  { merchant := shop
    amount := { decimal := ⟨5, []⟩, atomic := 5000000, mode := .fixed, parsed := by decide
                fixed_pos := fun _ => by decide, payerDefined_zero := fun open_ => by cases open_ }
    reference := "", metadata := "", expiresAt := 9, idempotencyKey := none, mode := .test
    intentId := some 10, linkId := some 11 }

def sandboxEndpoint : WebhookEndpoint :=
  { id := 5, merchantId := 1, mode := .test, enabledEvents := none, status := .active }

/-- The intent is there, and the handler `1` has read it, the clock and the endpoints. -/
def sandboxRead : RepositorySchedule :=
  ([.env (.registerEndpoint sandboxEndpoint),
      .spawn (.createIntentAndLink sandboxIntent)] : RepositorySchedule) ++
    (List.replicate 4 (.step 0 ()) : RepositorySchedule) ++
    ([.spawn (.simulatePaymentIntent 1 10)] : RepositorySchedule) ++
    (List.replicate 3 (.step 1 ()) : RepositorySchedule)

/-- Two simulations of one intent, both after the read. -/
def simulatedTwice : RepositorySchedule :=
  sandboxRead ++ ([.spawn (.simulatePaymentIntent 1 10)] : RepositorySchedule) ++
    (List.replicate 3 (.step 2 ()) : RepositorySchedule) ++
    (List.replicate 2 (.step 1 ()) : RepositorySchedule) ++
    (List.replicate 1 (.step 2 ()) : RepositorySchedule)

theorem simulatedTwice_atomic :
    (simulationSystem.run (World.initial 0) simulatedTwice).world.SandboxPaid ∧
      (simulationRun 0 simulatedTwice).world.Idle 2 := by
  have atomic := simulation_atomic 0 simulatedTwice (by decide)
  exact ⟨atomic.1, atomic.2 2 1 10 rfl rfl⟩

def canceledBetween : RepositorySchedule :=
  sandboxRead ++ ([.spawn (.cancelPaymentIntent 1 10), .step 2 (), .step 1 ()] : RepositorySchedule)

/-- The event is there, though no simulation has paid; the simulation answers `null` and has
written. -/
theorem canceledBetween_not_atomic :
    (∃ e ∈ (simulationSystem.run (World.initial 0) canceledBetween).world.db.events,
      e.id = .sandbox 10) ∧
    (simulationSystem.run (World.initial 0) canceledBetween).world.simulations = [] ∧
    (simulationRun 0 canceledBetween).threads[1]? = some (.ret none) ∧
    ¬ (simulationRun 0 canceledBetween).world.Idle 1 := by
  have wrote : ∃ c ∈ (simulationRun 0 canceledBetween).world.changes, c.1 = 1 ∧
      c.2.2.events.rows.length ≠ c.2.1.events.rows.length := by
    decide
  refine ⟨by decide, rfl, rfl, fun idle => ?_⟩
  obtain ⟨c, hc, own, more⟩ := wrote
  exact more (by rw [idle c hc own])

end ParmeliaLinks.Payments
