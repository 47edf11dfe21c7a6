/-
ParmeliaLinks/Payments/Handlers.lean

The payments worker as a system: requests of the public interface, jobs of the
queue and router scans side by side, interleaved at every await.  The answers of
the remote calls are whatever the schedule says.  The world keeps one history
variable, `executions`: the payments that routers have executed on chain.

`worker_obeys` says that every handler follows `workerDiscipline`.  Most
operations are harmless; three sites are not, and each has its own rule: a
settlement needs an amount that belongs to the attempt, a new CCTP operation an
attempt that is paid from another chain, and the last write of a CCTP operation
an attempt that is closed.
-/
import ParmeliaLinks.Payments.Runs
import ParmeliaLinks.Payments.Worker

namespace ParmeliaLinks.Payments

/-! ### The system -/

/-- The answers of the outside to one step. -/
abbrev Outside := (o : OutsideOp) → o.Reply

/-- A payment that a router has executed. -/
structure Execution where
  attemptId : AttemptId
  txHash : Hash
  /-- Seconds, as on chain. -/
  blockTime : Nat
  receipt : TransactionReceipt

structure Site where
  worker : WorkerWorld
  executions : List Execution

namespace Site

abbrev payments (w : Site) : World := w.worker.payments

abbrev operations (w : Site) : Table CrosschainOperation := w.worker.operations

def initial (clock : Timestamp) : Site := { worker := .initial clock, executions := [] }

/-- One operation. -/
def exec (w : Site) : (o : WorkerOp) → Outside → WorkerReply o × Site
  | .inl o, _ =>
    ((o.exec w.payments).1, { w with worker := { w.worker with payments := (o.exec w.payments).2 } })
  | .inr (.inl o), _ => ((o.exec w.worker).1, { w with worker := (o.exec w.worker).2 })
  | .inr (.inr o), x => (x o, w)

end Site

/-- A request of the public interface. -/
abbrev Request := { c : RepositoryCall // c.settles = false }

inductive WorkerCall
  | request (c : Request)
  | verifyReportedSourceTransaction (attemptId : AttemptId) (txHash : Hash)
  | reconcileAttempt (attemptId : AttemptId)
  | advanceCctpAttestation (operation : AttemptId)
  | mintCctpSettlement (operation : AttemptId)
  | scanPaymentRouters (chainId : ChainId)

def workerBody (config : Config) : WorkerCall → Worker Bool
  | .request c => do
    Worker.repository (repositoryBody c.1)
    return true
  | .verifyReportedSourceTransaction attemptId txHash =>
    Worker.verifyReportedSourceTransaction attemptId txHash
  | .reconcileAttempt attemptId => Worker.reconcileAttempt config attemptId
  | .advanceCctpAttestation operation => Worker.advanceCctpAttestation config operation
  | .mintCctpSettlement operation => Worker.mintCctpSettlement config operation
  | .scanPaymentRouters chainId => Worker.scanPaymentRouters config chainId

/-- What happens around the worker. -/
inductive WorkerSurroundings
  | payments (e : Surroundings)
  | execute (e : Execution)

def WorkerSurroundings.move : WorkerSurroundings → Site → Site
  | .payments e, w => { w with worker := { w.worker with payments := e.move w.payments } }
  | .execute e, w => { w with executions := w.executions ++ [e] }

def workerSystem (config : Config) :
    System WorkerOp WorkerReply Site Outside WorkerSurroundings WorkerCall Bool where
  exec _ o x w := w.exec o x
  env := WorkerSurroundings.move
  body := workerBody config

/-! ### The discipline -/

/-- The amount of a payment on the chain of its intent is the signed one. -/
def legitimate (a : AttemptTerms) (amount : Nat) : Prop :=
  a.route = .sameChain → amount = a.settlementAmountAtomic

/-- The attempt exists, and is paid from another chain. -/
def World.CrossChain (w : World) (id : AttemptId) : Prop :=
  ∃ a ∈ w.db.attempts, a.id = id ∧ a.route ≠ .sameChain

/-- Every accounted amount is legitimate, and every CCTP operation is one of an
attempt that is paid from another chain. -/
structure Site.Consistent (w : Site) : Prop where
  payments : w.payments.Consistent
  amounts : ∀ c ∈ w.payments.db.commits, ∀ a ∈ w.payments.db.attempts, a.id = c.attemptId →
    legitimate a.toAttemptTerms c.settledAmountAtomic
  routed : ∀ r ∈ w.operations, w.payments.CrossChain r.attemptId

structure Site.Evolves (w w' : Site) : Prop where
  payments : w.payments.Evolves w'.payments
  operations : ∀ r ∈ w.operations, ∃ r' ∈ w'.operations, OperationEvolves r r'

theorem Site.Evolves.rfl (w : Site) : w.Evolves w :=
  ⟨.rfl _, fun r hr => ⟨r, hr, .rfl r⟩⟩

theorem Site.Evolves.trans {w₁ w₂ w₃ : Site} (h : w₁.Evolves w₂) (h' : w₂.Evolves w₃) :
    w₁.Evolves w₃ := by
  refine ⟨h.payments.trans h'.payments, fun r hr => ?_⟩
  obtain ⟨r', hr', ev⟩ := h.operations r hr
  obtain ⟨r'', hr'', ev'⟩ := h'.operations r' hr'
  exact ⟨r'', hr'', ev.trans ev'⟩

/-- An operation of the attempt has a message. -/
def Site.HasMessage (w : Site) (id : AttemptId) : Prop :=
  ∃ r ∈ w.operations, r.attemptId = id ∧ r.message.isSome = true

/-- The last write of an operation: its attempt is closed, and of the columns that
make up the message nothing is written. -/
structure Finalizes (w : Site) (operation : AttemptId) (fields : OperationFields) : Prop where
  closed : w.payments.HasClosed operation
  attested : w.HasMessage operation
  fields : ∃ destination minted, fields =
    { status := .settled, destinationTxHash := some destination, mintedAmountAtomic := some minted }

/-- What the discipline asks of an operation. -/
def WorkerOp.Safe : WorkerOp → Site → Prop
  | .inl o, w => o.Safe legitimate w.payments
  | .inr (.inl (.upsertCrosschainOperation input _)), w => w.payments.CrossChain input.attemptId
  | .inr (.inl (.updateCrosschainOperation operation fields _)), w =>
    fields.status = .settled → Finalizes w operation fields
  | _, _ => True

def workerDiscipline : Discipline WorkerOp Site Outside WorkerSurroundings WorkerCall where
  Inv := Site.Consistent
  Evolves := Site.Evolves
  ensures o _ w := WorkerOp.Safe o w
  refl := Site.Evolves.rfl
  trans := Site.Evolves.trans

variable {w : Site} {config : Config} {me : Nat} {α : Type}

theorem World.Evolves.crossChain {v v' : World} (h : v.Evolves v') {id : AttemptId}
    (hid : v.CrossChain id) : v'.CrossChain id := by
  obtain ⟨a, ha, rfl, route⟩ := hid
  obtain ⟨a', ha', ev⟩ := h.attempts a ha
  refine ⟨a', ha', congrArg (·.id) ev.terms, ?_⟩
  rwa [congrArg (·.route) ev.terms]

theorem Site.Evolves.hasMessage {w' : Site} (h : w.Evolves w') {id : AttemptId}
    (hid : w.HasMessage id) : w'.HasMessage id := by
  obtain ⟨r, hr, rfl, message⟩ := hid
  obtain ⟨r', hr', ev⟩ := h.operations r hr
  exact ⟨r', hr', ev.attemptId, ev.message message⟩

/-! ### Every operation follows the discipline -/

/-- The commits after an operation of the repository: those before it, and that of
its settlement. -/
theorem RepositoryOp.exec_commits (o : RepositoryOp) {v : World} (hv : v.Consistent)
    {c : SettlementCommit} (hc : c ∈ (o.exec v).2.db.commits) :
    c ∈ v.db.commits ∨ ∃ s timestamp endpoints, o = .settleAttempt s timestamp endpoints ∧
      c.attemptId = s.attempt.id ∧ c.settledAmountAtomic = s.settledAmount := by
  have batch : ∀ r : Option Db, (∀ db', r = some db' → db'.commits = v.db.commits) →
      c ∈ (commitBatch v r).2.db.commits → c ∈ v.db.commits := by
    intro r hr hc
    cases r with
    | none => exact hc
    | some db' => exact hr db' rfl ▸ hc
  have report : ∀ r : Option (Bool × Db), (∀ b db', r = some (b, db') →
      db'.commits = v.db.commits) → c ∈ (commitReport v r).2.db.commits → c ∈ v.db.commits := by
    intro r hr hc
    cases r with
    | none => exact hc
    | some r => exact hr r.1 r.2 rfl ▸ hc
  cases o with
  | createIntentAndLink input id link timestamp =>
    exact .inl (batch _ (fun db' hr => (Db.createIntentAndLink_created hr).commits) hc)
  | insertQuote q => exact .inl (batch _ (fun db' hr => (Db.insertQuote_moves hr).commits) hc)
  | insertAttempt a => exact .inl (batch _ (fun db' hr => (Db.insertAttempt_moves hr).commits) hc)
  | insertQuoteAndAttempt q a =>
    exact .inl (batch _ (fun db' hr => (Db.insertQuoteAndAttempt_moves hr).commits) hc)
  | markAttemptProcessing id tx =>
    exact .inl (batch _ (fun db' hr => (Db.markAttemptProcessing_moves hr).commits) hc)
  | registerAppExecution id command =>
    exact .inl (batch _ (fun db' hr => (Db.registerAppExecution_moves hr).commits) hc)
  | registerSourceTransaction id capabilityHash tx =>
    exact .inl (report _ (fun b db' hr => (Db.registerSourceTransaction_moves hr).commits) hc)
  | settleAttempt s timestamp endpoints =>
    simp only [exec] at hc
    cases hr : v.db.settleAttempt s v.uuid timestamp endpoints with
    | none =>
      rw [hr] at hc
      exact .inl hc
    | some r =>
      obtain ⟨changed, db'⟩ := r
      rw [hr] at hc
      have fresh : ∀ c ∈ v.db.commits, c.commitId ≠ v.uuid := fun c hc => (hv.books.fresh c hc).ne
      rcases Db.settleAttempt_cases fresh hr with ⟨-, rfl⟩ | ⟨-, m⟩
      · exact .inl hc
      · rcases (Table.mem_of_rows_append m.commits).1 hc with hc | rfl
        · exact .inl hc
        · exact .inr ⟨s, timestamp, endpoints, rfl, rfl, rfl⟩
  | _ => exact .inl hc

/-- The step from `w` to `w'` keeps the site consistent and is an evolution. -/
abbrev Site.Keeps (w w' : Site) : Prop := w'.Consistent ∧ w.Evolves w'

/-- A step of the payments alone. -/
theorem keeps_payments {v : World} (h : w.Consistent) (keeps : w.payments.Keeps v)
    (amounts : ∀ c ∈ v.db.commits, c ∈ w.payments.db.commits ∨ ∃ a ∈ w.payments.db.attempts,
      a.id = c.attemptId ∧ legitimate a.toAttemptTerms c.settledAmountAtomic) :
    w.Keeps { w with worker := { w.worker with payments := v } } := by
  refine ⟨⟨keeps.consistent, fun c hc a' ha' hid => ?_, fun r hr => ?_⟩, keeps.evolves, ?_⟩
  · -- the attempt of a commit has the terms it had before the step
    have before : ∃ a ∈ w.payments.db.attempts, a.id = c.attemptId ∧
        legitimate a.toAttemptTerms c.settledAmountAtomic := by
      rcases amounts c hc with hc | known
      · obtain ⟨a, ha, accounts⟩ := h.payments.books.accounted c hc
        exact ⟨a, ha, accounts.id, h.amounts c hc a ha accounts.id⟩
      · exact known
    obtain ⟨a, ha, haid, legit⟩ := before
    rw [keeps.evolves.terms ha ha' (hid.trans haid.symm)]
    exact legit
  · exact keeps.evolves.crossChain (h.routed r hr)
  · exact fun r hr => ⟨r, hr, .rfl r⟩

theorem repositoryOp_keeps (o : RepositoryOp) (h : w.Consistent)
    (safe : o.Safe legitimate w.payments) :
    w.Keeps { w with worker := { w.worker with payments := (o.exec w.payments).2 } } := by
  refine keeps_payments h (o.exec_keeps h.payments safe) fun c hc => ?_
  rcases o.exec_commits h.payments hc with hc | ⟨s, timestamp, endpoints, rfl, hid, amount⟩
  · exact .inl hc
  · obtain ⟨⟨⟨a, ha, ev⟩, -, -⟩, legit⟩ := safe
    refine .inr ⟨a, ha, (congrArg (·.id) ev.terms).trans hid.symm, ?_⟩
    rw [ev.terms, amount]
    exact legit

theorem relayOp_keeps (o : RelayOp) (h : w.Consistent)
    (safe : WorkerOp.Safe (.inr (.inl o)) w) :
    w.Keeps { w with worker := (o.exec w.worker).2 } := by
  have same := o.exec_payments w.worker
  have moved := o.exec_operations w.worker
  refine ⟨⟨?_, ?_, fun r' hr' => ?_⟩, ?_, fun r hr => ?_⟩
  · show World.Consistent (o.exec w.worker).2.payments
    rw [same]
    exact h.payments
  · show ∀ c ∈ (o.exec w.worker).2.payments.db.commits,
      ∀ a ∈ (o.exec w.worker).2.payments.db.attempts, a.id = c.attemptId →
        legitimate a.toAttemptTerms c.settledAmountAtomic
    rw [same]
    exact h.amounts
  · show World.CrossChain (o.exec w.worker).2.payments r'.attemptId
    rw [same]
    rcases moved.backward r' hr' with ⟨r, hr, step⟩ | added
    · rw [step.evolves.attemptId]
      exact h.routed r hr
    · cases o with
      | upsertCrosschainOperation input timestamp =>
        obtain ⟨rfl, -⟩ := added
        exact safe
      | _ => exact added.elim
  · show w.payments.Evolves (o.exec w.worker).2.payments
    rw [same]
    exact .rfl _
  · obtain ⟨r', hr', step⟩ := moved.forward r hr
    exact ⟨r', hr', step.evolves⟩

theorem exec_performs {o : WorkerOp} {x : Outside} (h : w.Consistent)
    (safe : WorkerOp.Safe o w) :
    workerDiscipline.Performs (workerSystem config) me o x w := by
  have keeps : w.Keeps (w.exec o x).2 := by
    rcases o with o | o | o
    · exact repositoryOp_keeps o h safe
    · exact relayOp_keeps o h safe
    · exact ⟨h, .rfl w⟩
  exact ⟨⟨keeps.1, keeps.2⟩, fun _ _ => trivial, safe⟩

/-! ### Rules -/

/-- The weakest precondition of a handler. -/
abbrev Worker.wp (p : Worker α) (config : Config) (i : Nat)
    (Q : Except String α → Site → Prop) (w : Site) : Prop :=
  workerDiscipline.wp (workerSystem config) i p Q w

/-- The world is consistent, and has evolved from `w`. -/
def Since (w : Site) {β : Type} : Except String β → Site → Prop :=
  fun _ w' => w'.Consistent ∧ w.Evolves w'

/-- The operations that the discipline asks nothing of. -/
def WorkerOp.Harmless : WorkerOp → Prop
  | .inl o => o.Harmless
  | .inr (.inl (.upsertCrosschainOperation _ _)) => False
  | .inr (.inl (.updateCrosschainOperation _ fields _)) => fields.status ≠ .settled
  | _ => True

theorem WorkerOp.Harmless.safe {o : WorkerOp} (h : WorkerOp.Harmless o) (w : Site) :
    WorkerOp.Safe o w := by
  rcases o with o | o | o
  · exact RepositoryOp.Harmless.safe h _
  · cases o with
    | upsertCrosschainOperation => exact h.elim
    | updateCrosschainOperation operation fields now => exact fun settled => absurd settled h
    | _ => trivial
  · trivial

theorem wp_uses {p : Worker α} (h : p.Uses WorkerOp.Harmless) (hw : w.Consistent) :
    p.wp config me (Since w) w :=
  workerDiscipline.wp_of_uses (workerSystem config)
    (fun _ ho _ w _ hw _ => exec_performs hw (WorkerOp.Harmless.safe ho w)) h hw

theorem wp_op {o : WorkerOp} {Q : Except String (WorkerReply o) → Site → Prop}
    (hw : w.Consistent) (safe : WorkerOp.Safe o w)
    (post : ∀ x w', (w.exec o x).2.Evolves w' → w'.Consistent → Q (.ok (w.exec o x).1) w') :
    Worker.wp (.perform o) config me Q w := by
  refine Discipline.wp_perform _ _ (fun x _ => exec_performs hw safe) fun x _ w' later => ?_
  exact post x w' later.evolves later.inv

/-- A remote call may answer anything. -/
theorem wp_outside {o : OutsideOp} {Q : Except String o.Reply → Site → Prop} (hw : w.Consistent)
    (post : ∀ r w', w.Evolves w' → w'.Consistent → Q (.ok r) w') :
    (Worker.outside o).wp config me Q w :=
  wp_op (o := .inr (.inr o)) hw trivial fun x w' hev hw' => post (x o) w' hev hw'

theorem wp_orFail {r : Option α} {Q : Except String α → Site → Prop}
    (some : ∀ a, r = some a → Q (.ok a) w) (none : Q (.error "Remote call failed") w) :
    (Worker.orFail r).wp config me Q w := by
  cases r with
  | none => exact none
  | some a => exact some a rfl

theorem workerEmbeds : (repositoryDiscipline legitimate).Embeds repositorySystem workerDiscipline
    (workerSystem config) Site.payments (fun _ => ()) where
  reply _ _ _ _ := rfl
  world _ _ _ _ := rfl
  allowed _ _ _ _ _ := trivial
  later _ _ _ later := ⟨later.inv.payments, later.evolves.payments, trivial⟩
  performs _ _ _ _ hw _ h := exec_performs hw h.ensured

/-- A repository function does in the worker what it does alone. -/
theorem wp_repository {p : Repository α} {Q : Except String α → World → Prop}
    (hw : w.Consistent) (h : p.wp legitimate me Q w.payments) :
    (Worker.repository p).wp config me (fun r w' => Q r w'.payments ∧ Since w r w') w :=
  Discipline.wp_evolves _ _ hw (workerEmbeds.wp_inl hw h)

/-- A sequence. -/
theorem wp_seq {β : Type} {p : Worker α} {f : α → Worker β} {Q : Except String β → Site → Prop}
    (h : p.wp config me (workerDiscipline.Then (workerSystem config) me f Q) w) :
    Worker.wp (p.bind f) config me Q w :=
  (Discipline.wp_bind _ _ _ _ _ _).2 h

theorem wp_ite {c : Prop} [Decidable c] {p q : Worker α} {Q : Except String α → Site → Prop}
    (pos : c → p.wp config me Q w) (neg : ¬ c → q.wp config me Q w) :
    Worker.wp (if c then p else q) config me Q w := by
  split
  · exact pos ‹_›
  · exact neg ‹_›

/-- A sequence that starts with harmless operations. -/
theorem wp_seq_uses {β : Type} {p : Worker α} {f : α → Worker β}
    {Q : Except String β → Site → Prop} (h : p.Uses WorkerOp.Harmless) (hw : w.Consistent)
    (thrown : ∀ m w', Q (.error m) w')
    (rest : ∀ a w', w.Evolves w' → w'.Consistent → (f a).wp config me Q w') :
    Worker.wp (p.bind f) config me Q w := by
  apply wp_seq
  refine Discipline.wp_mono _ _ (wp_uses h hw) fun r w' since => ?_
  cases r with
  | ok a => exact rest a w' since.2 since.1
  | error m => exact thrown m w'

theorem wp_readAttempt {id : AttemptId} {Q : Except String (Option PaymentAttempt) → Site → Prop}
    (hw : w.Consistent)
    (found : ∀ a ∈ w.payments.db.attempts, a.id = id → ∀ w', w.Evolves w' → w'.Consistent →
      Q (.ok (some a)) w')
    (missing : ¬ w.payments.HasAttempt id → ∀ w', w.Evolves w' → w'.Consistent →
      Q (.ok none) w') :
    (Worker.repository (getAttempt id)).wp config me Q w := by
  refine wp_op (o := .inl (.selectAttempt id)) hw trivial fun x w' hev hw' => ?_
  cases hread : w.payments.db.attempts.find? (·.id == id) with
  | none =>
    simp only [Site.exec, RepositoryOp.exec, hread]
    exact missing (find?_attempt_none hread) w' hev hw'
  | some a =>
    obtain ⟨ha, hid⟩ := find?_attempt hread
    simp only [Site.exec, RepositoryOp.exec, hread]
    exact found a ha hid w' hev hw'

theorem wp_readOperation {operation : AttemptId}
    {Q : Except String CrosschainOperation → Site → Prop} (hw : w.Consistent)
    (thrown : ∀ m w', Q (.error m) w')
    (found : ∀ r ∈ w.operations, r.attemptId = operation → ∀ w', w.Evolves w' →
      w'.Consistent → Q (.ok r) w') :
    (Worker.getCrosschainOperation operation).wp config me Q w := by
  apply wp_seq
  refine wp_op (o := .inr (.inl (.selectOperation operation))) hw trivial fun x w' hev hw' => ?_
  cases hread : w.operations.find? (·.attemptId == operation) with
  | none =>
    simp only [Site.exec, RelayOp.exec, hread]
    exact thrown _ w'
  | some r =>
    simp only [Site.exec, RelayOp.exec, hread]
    exact found r (Table.mem_of_find? hread) (by simpa using Table.of_find? hread) w' hev hw'

end ParmeliaLinks.Payments
