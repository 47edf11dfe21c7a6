/-
ParmeliaLinks/Pay/ExecutionSync.lean

Payments that are handed over to the payments worker.  A trigger on the status of a
pending payment puts its attempt and its operation into an outbox, with a row for each
attempt, and the drain of the outbox sends what it reads there and deletes what the
worker has accepted.

The trigger only fires when the status becomes `submitted`, ignores a row that clashes
with one in the outbox, and the drain deletes by the attempt alone.  So a payment is
handed over in the runs in which it is confirmed only after it was submitted, the
trigger finds no other operation of the attempt in the outbox, and neither does the
drain (`HandoverWorld.Orderly`).
-/
import ParmeliaLinks.Lib.Delivery
import ParmeliaLinks.Lib.Embed
import ParmeliaLinks.Lib.SqlText
import ParmeliaLinks.Pay.Lifecycle

namespace ParmeliaLinks.Pay

/-! ### Tables and messages -/

inductive SyncStatus | pending | processing | failed
  deriving DecidableEq

/-- `payment_execution_sync_outbox`. -/
structure ExecutionSyncRow where
  paymentAttemptId : Nat
  uid : Nat
  userOpHash : Hash
  status : SyncStatus
  attemptCount : Nat
  nextAttemptAt : Timestamp
  updatedAt : Timestamp
  deriving DecidableEq

-- an attempt has one row, and so has an operation
instance : Row ExecutionSyncRow where
  clash r r' := r.paymentAttemptId == r'.paymentAttemptId || r.userOpHash == r'.userOpHash
  clash_comm r r' := by
    rw [Bool.beq_comm (a := r.paymentAttemptId), Bool.beq_comm (a := r.userOpHash)]

/-- What `registerAppPaymentExecution` is called with. -/
structure ExecutionCommand where
  commandId : Text
  uid : Nat
  attemptId : Nat
  userOpHash : Hash
  sourceChainId : Nat
  deriving DecidableEq

/-- The database of the application, and what is under way to the payments worker;
`announced` are the pairs for which the trigger has fired, and `deleted` the rows that
have been in the outbox. -/
structure HandoverWorld where
  pay : World
  outbox : Table ExecutionSyncRow
  sent : List ExecutionCommand
  accepted : List ExecutionCommand
  announced : List (Nat × Hash)
  deleted : List ExecutionSyncRow

def HandoverWorld.initial (clock : Timestamp) : HandoverWorld where
  pay := .initial clock
  outbox := .empty
  sent := []
  accepted := []
  announced := []
  deleted := []

/-! ### The trigger -/

/-- The row that the trigger writes for a payment. -/
def executionSyncRow (attempt : Nat) (r : PendingPayment) (now : Timestamp) : ExecutionSyncRow where
  paymentAttemptId := attempt
  uid := r.uid
  userOpHash := r.userOpHash
  status := .pending
  attemptCount := 0
  nextAttemptAt := now
  updatedAt := now

/-- `NEW.status = 'submitted' AND OLD.status != 'submitted'`, for the rows of a statement. -/
def newlySubmitted (before after : Table PendingPayment) : List PendingPayment :=
  after.filter fun r => r.status == .submitted &&
    before.any fun r' => r'.userOpHash == r.userOpHash && r'.status != .submitted

namespace HandoverWorld

/-- `trg_payment_execution_sync_submitted`, for one row. -/
def announce (now : Timestamp) (w : HandoverWorld) (r : PendingPayment) : HandoverWorld :=
  match r.paymentAttemptId with
  | none => w
  | some attempt =>
    { w with
      outbox := w.outbox.insertOrIgnore (executionSyncRow attempt r now)
      announced := (attempt, r.userOpHash) :: w.announced }

/-- A statement on the payments has left the world `v`; its trigger fires. -/
def proceed (w : HandoverWorld) (v : World) : HandoverWorld :=
  (newlySubmitted w.pay.pending v.pending).foldl (announce w.pay.clock) { w with pay := v }

/-- `status IN ('pending','failed') AND next_attempt_at <= ? ORDER BY updated_at LIMIT ?`. -/
def selectDueExecutions (w : HandoverWorld) (limit : Nat) : List ExecutionSyncRow :=
  ((w.outbox.filter fun r =>
      r.status != .processing && decide (r.nextAttemptAt ≤ w.pay.clock)).mergeSort
    fun r r' => decide (r.updatedAt ≤ r'.updatedAt)).take limit

/-- `DELETE … WHERE payment_attempt_id = ?`. -/
def deleteExecution (w : HandoverWorld) (attempt : Nat) : HandoverWorld :=
  { w with
    outbox := w.outbox.delete fun r => r.paymentAttemptId == attempt
    deleted := (w.outbox.filter fun r => r.paymentAttemptId == attempt) ++ w.deleted }

end HandoverWorld

def failedExecution (attemptCount : Nat) (now : Timestamp) (r : ExecutionSyncRow) :
    ExecutionSyncRow :=
  { r with
    status := .failed
    attemptCount := attemptCount
    nextAttemptAt := now + min 3600000 (15000 * 2 ^ min attemptCount 7)
    updatedAt := now }

/-- `UPDATE … WHERE payment_attempt_id = ?`. -/
def HandoverWorld.failExecution (w : HandoverWorld) (attempt attemptCount : Nat) :
    HandoverWorld :=
  { w with
    outbox := w.outbox.modify (fun r => r.paymentAttemptId == attempt)
      (failedExecution attemptCount w.pay.clock) ⟨fun _ _ => rfl⟩ }

/-! ### Statements and messages -/

inductive HandoverOp
  | selectDueExecutions (limit : Nat)
  /-- The request of a remote call. -/
  | send (command : ExecutionCommand)
  /-- Its outcome, for the caller. -/
  | result (command : ExecutionCommand)
  /-- `sent` is the operation that the drain has sent; the statement does not look at it. -/
  | deleteExecution (sent : Hash) (attempt : Nat)
  | failExecution (attempt attemptCount : Nat)

abbrev HandoverOp.Reply : HandoverOp → Type
  | selectDueExecutions _ => Except String (List ExecutionSyncRow)
  | send _ => Unit
  | result _ => Except RpcError Bool
  | deleteExecution .. => Except String Unit
  | failExecution .. => Except String Unit

def Outcome.delivery : Outcome → Delivery
  | done => .done
  | lost message => .lost message
  | unacknowledged message => .unacknowledged message

def HandoverOp.exec : (o : HandoverOp) → Answer → HandoverWorld → o.Reply × HandoverWorld
  | selectDueExecutions limit, x, w =>
    x.outcome.delivery.deliver w (w.selectDueExecutions limit, w)
  | send command, _, w => ((), { w with sent := command :: w.sent })
  -- a reply tells that the worker has accepted the command, and may be lost
  | result command, x, w => (PayOp.call x (x.flag && decide (command ∈ w.accepted)), w)
  | deleteExecution _ attempt, x, w => x.outcome.delivery.deliver w ((), w.deleteExecution attempt)
  | failExecution attempt attemptCount, x, w =>
    x.outcome.delivery.deliver w ((), w.failExecution attempt attemptCount)

abbrev HandoverHandler :=
  Prog (PayOp ⊕ HandoverOp) (Sum.elim PayOp.Reply HandoverOp.Reply)

def issue (o : HandoverOp) : HandoverHandler o.Reply := .act (.inr o) .ret

/-! ### The drain -/

/-- `execution:<attempt>:<operation>`. -/
def executionCommandId (attempt : Nat) (h : Hash) : Text :=
  ['e', 'x', 'e', 'c', 'u', 't', 'i', 'o', 'n', ':'] ++ (decimal attempt ++ ':' :: decimal h)

section

variable (env : Env) (sourceChainId : Nat)

def executionCommand (row : ExecutionSyncRow) : ExecutionCommand where
  commandId := executionCommandId row.paymentAttemptId row.userOpHash
  uid := row.uid
  attemptId := row.paymentAttemptId
  userOpHash := row.userOpHash
  sourceChainId := sourceChainId

def sendExecution (row : ExecutionSyncRow) : HandoverHandler Bool := do
  issue (.send (executionCommand sourceChainId row))
  match ← issue (.result (executionCommand sourceChainId row)) with
  | .ok ok => return ok
  | .error e => throw e.message

/-- One row of the outbox. -/
def drainExecution (row : ExecutionSyncRow) : HandoverHandler Unit :=
  Prog.tryCatch
    (do
      if ← sendExecution sourceChainId row then
        Prog.ofExcept (← issue (.deleteExecution row.userOpHash row.paymentAttemptId))
      else throw "Payments rejected execution command")
    fun _ => do
      Prog.ofExcept (← issue (.failExecution row.paymentAttemptId (row.attemptCount + 1)))

def drainExecutions : List ExecutionSyncRow → HandoverHandler Unit
  | [] => return ()
  | row :: rows => do
    drainExecution sourceChainId row
    drainExecutions rows

/-- `drainPaymentsBoundaryOutbox`: the accounts come first. -/
def drainPaymentsBoundaryOutbox (limit : Nat) : HandoverHandler Unit := do
  (auxiliary "payment_account_sync_outbox").inl
  let rows ← Prog.ofExcept (← issue (.selectDueExecutions limit))
  drainExecutions sourceChainId rows

/-! ### The system -/

inductive HandoverCall
  | pay (c : PayCall)
  | drain (limit : Nat)

inductive HandoverMove
  | pay (e : Surroundings)
  /-- The payments worker takes up a command, and accepts it. -/
  | accept (command : ExecutionCommand)

def HandoverMove.move : HandoverMove → HandoverWorld → HandoverWorld
  | pay e, w => { w with pay := e.move w.pay }
  | accept command, w =>
    if command ∈ w.sent then { w with accepted := command :: w.accepted } else w

def handoverExec (i : Nat) : (o : PayOp ⊕ HandoverOp) → Answer → HandoverWorld →
    Sum.elim PayOp.Reply HandoverOp.Reply o × HandoverWorld
  | .inl o, x, w => ((o.exec i x w.pay).1, w.proceed (o.exec i x w.pay).2)
  | .inr o, x, w => o.exec x w

def handoverBody : HandoverCall → HandoverHandler (Option Response)
  | .pay c => ((paySystem env).body c).inl
  | .drain limit => do
    drainPaymentsBoundaryOutbox sourceChainId limit
    return none

/-- Payments, passes of the reconciler and drains side by side. -/
def handoverSystem : System (PayOp ⊕ HandoverOp) (Sum.elim PayOp.Reply HandoverOp.Reply)
    HandoverWorld Answer HandoverMove HandoverCall (Option Response) where
  exec := handoverExec
  env := HandoverMove.move
  body := handoverBody env sourceChainId

end

abbrev HandoverSchedule := List (Label Answer HandoverMove HandoverCall)

/-- Before any payment. -/
def handoverStart (clock : Timestamp) :
    Pool (PayOp ⊕ HandoverOp) (Sum.elim PayOp.Reply HandoverOp.Reply) HandoverWorld
      (Option Response) :=
  ⟨.initial clock, []⟩

theorem executionCommandId_injective {attempt attempt' : Nat} {h h' : Hash}
    (same : executionCommandId attempt h = executionCommandId attempt' h') :
    attempt = attempt' ∧ h = h' := by
  have colon (n : Nat) : ':' ∉ decimal n := fun mem => absurd (isDigit_of_mem_decimal mem) (by decide)
  obtain ⟨front, back⟩ := append_separator_inj (colon attempt) (colon attempt')
    (List.append_cancel_left same)
  exact ⟨decimal_injective front, decimal_injective back⟩

/-! ### What is required, and when it holds -/

namespace HandoverWorld

variable (w : HandoverWorld)

/-- The worker has accepted the operation for the attempt. -/
def Accepted (attempt : Nat) (h : Hash) : Prop :=
  ∃ c ∈ w.accepted, c.attemptId = attempt ∧ c.userOpHash = h

/-- The operation is on its way to the worker, or there. -/
def Covered (attempt : Nat) (h : Hash) : Prop :=
  (∃ o ∈ w.outbox, o.paymentAttemptId = attempt ∧ o.userOpHash = h) ∨ w.Accepted attempt h

/-- Payments are handed over completely. -/
structure HandedOver : Prop where
  payments : ∀ r ∈ w.pay.pending, r.status = .submitted ∨ r.status = .confirmed →
    ∀ attempt ∈ r.paymentAttemptId, w.Covered attempt r.userOpHash
  deletions : ∀ o ∈ w.deleted, w.Accepted o.paymentAttemptId o.userOpHash

/-- No other operation of its attempt, and no other attempt of its operation, is in the
outbox, or the payment is handed over already. -/
def Free (r : PendingPayment) : Prop :=
  ∀ attempt ∈ r.paymentAttemptId, w.Accepted attempt r.userOpHash ∨
    ∀ o ∈ w.outbox, o.paymentAttemptId = attempt ∨ o.userOpHash = r.userOpHash →
      o.paymentAttemptId = attempt ∧ o.userOpHash = r.userOpHash

/-- The payment has been submitted before. -/
def Announced (r : PendingPayment) : Prop :=
  ∀ attempt ∈ r.paymentAttemptId, (attempt, r.userOpHash) ∈ w.announced

end HandoverWorld

/-- The statement takes effect. -/
def Answer.lands (x : Answer) : Bool :=
  match x.outcome with
  | .lost _ => false
  | _ => true

/-- The condition on an operation: a payment that becomes `submitted` finds the outbox
free, one that becomes `confirmed` has been submitted before, and the drain deletes what
it has sent. -/
def HandoverWorld.Orderly (w : HandoverWorld) (o : PayOp ⊕ HandoverOp) (x : Answer) : Prop :=
  match o with
  | .inl (.setSubmitted h _ _ _) => x.lands = true →
    ∀ r ∈ w.pay.pending, r.userOpHash = h → r.status = .submitting → w.Free r
  | .inl (.setStatus _ h .submitted _) => x.lands = true →
    ∀ r ∈ w.pay.pending, r.userOpHash = h → r.status ≠ .submitted → w.Free r
  | .inl (.setStatus _ h .confirmed _) => x.lands = true →
    ∀ r ∈ w.pay.pending, r.userOpHash = h → w.Announced r
  | .inr (.deleteExecution sent attempt) => x.lands = true →
    ∀ o ∈ w.outbox, o.paymentAttemptId = attempt →
      o.userOpHash = sent ∨ w.Accepted attempt o.userOpHash
  | _ => True

def handoverConditions :
    System.Conditions (PayOp ⊕ HandoverOp) HandoverWorld Answer HandoverMove HandoverCall where
  op _ o x w := w.Orderly o x

/-- Each operation of the run meets the condition. -/
def AlongOrderly (env : Env) (sourceChainId : Nat) (clock : Timestamp) (ls : HandoverSchedule) :
    Prop :=
  (handoverSystem env sourceChainId).Along handoverConditions (handoverStart clock) ls

/-! The conditions can be computed. -/

instance (w : HandoverWorld) (attempt : Nat) (h : Hash) : Decidable (w.Accepted attempt h) :=
  inferInstanceAs (Decidable (∃ c ∈ w.accepted, c.attemptId = attempt ∧ c.userOpHash = h))

instance (w : HandoverWorld) (attempt : Nat) (h : Hash) : Decidable (w.Covered attempt h) :=
  inferInstanceAs (Decidable ((∃ o ∈ w.outbox, o.paymentAttemptId = attempt ∧ o.userOpHash = h) ∨
    w.Accepted attempt h))

instance (w : HandoverWorld) (r : PendingPayment) : Decidable (w.Free r) :=
  inferInstanceAs (Decidable (∀ attempt ∈ r.paymentAttemptId, w.Accepted attempt r.userOpHash ∨
    ∀ o ∈ w.outbox, o.paymentAttemptId = attempt ∨ o.userOpHash = r.userOpHash →
      o.paymentAttemptId = attempt ∧ o.userOpHash = r.userOpHash))

instance (w : HandoverWorld) (r : PendingPayment) : Decidable (w.Announced r) :=
  inferInstanceAs (Decidable (∀ attempt ∈ r.paymentAttemptId, (attempt, r.userOpHash) ∈ w.announced))

instance (w : HandoverWorld) (o : PayOp ⊕ HandoverOp) (x : Answer) : Decidable (w.Orderly o x) := by
  unfold HandoverWorld.Orderly
  split <;> infer_instance

instance (i : Nat) (o : PayOp ⊕ HandoverOp) (x : Answer) (w : HandoverWorld) :
    Decidable (handoverConditions.op i o x w) :=
  inferInstanceAs (Decidable (w.Orderly o x))

instance (e : HandoverMove) (w : HandoverWorld) : Decidable (handoverConditions.env e w) :=
  .isTrue trivial

instance (c : HandoverCall) (w : HandoverWorld) : Decidable (handoverConditions.call c w) :=
  .isTrue trivial

instance (env : Env) (sourceChainId : Nat) (clock : Timestamp) (ls : HandoverSchedule) :
    Decidable (AlongOrderly env sourceChainId clock ls) :=
  inferInstanceAs (Decidable
    ((handoverSystem env sourceChainId).Along handoverConditions (handoverStart clock) ls))

/-! ### What an operation does to the payments -/

section Rows

variable {i : Nat} {o : PayOp} {x : Answer} {w w' : World} {q : RequestId} {h : Hash}

/-- Each later row is one of those before, with the same operation and attempt. -/
def World.KeepsAttempts (w w' : World) : Prop :=
  ∀ r ∈ w'.pending, ∃ r' ∈ w.pending, r'.userOpHash = r.userOpHash ∧
    r'.paymentAttemptId = r.paymentAttemptId

theorem World.KeepsAttempts.of_subset (rows : ∀ r ∈ w'.pending, r ∈ w.pending) :
    w.KeepsAttempts w' :=
  fun r hr => ⟨r, rows r hr, rfl, rfl⟩

theorem World.KeepsAttempts.of_pending {v : World} (k : w.KeepsAttempts w')
    (same : v.pending = w'.pending) : w.KeepsAttempts v := by
  intro r hr
  rw [same] at hr
  exact k r hr

theorem World.KeepsAttempts.deliver {α : Type} (y : Outcome) {r : α × World}
    (k : w.KeepsAttempts r.2) : w.KeepsAttempts (PayOp.deliver y w r).2 := by
  rcases deliver_world y w r with same | same <;> rw [same]
  · exact .of_subset fun _ hr => hr
  · exact k

theorem updatePending_keepsAttempts (w : World) (h : Hash) (guard : PendingPaymentStatus → Bool)
    (f : PendingPayment → PendingPayment) (keys : Table.KeepsKeys f)
    (hash : ∀ r, (f r).userOpHash = r.userOpHash)
    (attempt : ∀ r, (f r).paymentAttemptId = r.paymentAttemptId) :
    w.KeepsAttempts (w.updatePending h guard f keys).2 := by
  rcases updatePending_cases w h guard f keys with same | ⟨r₀, -, -, updated⟩
  · rw [same]
    exact .of_subset fun _ hr => hr
  · rw [updated]
    intro r hr
    have hr : r ∈ w.pending.modify (·.userOpHash == h) f keys := hr
    obtain ⟨r', hr', rfl⟩ := Table.mem_modify.1 hr
    refine ⟨r', hr', ?_⟩
    split
    · exact ⟨(hash r').symm, (attempt r').symm⟩
    · exact ⟨rfl, rfl⟩

/-- Only a row that is stored anew changes its attempt. -/
theorem exec_keepsAttempts (i : Nat) (o : PayOp) (x : Answer) (w : World) :
    w.KeepsAttempts (o.exec i x w).2 ∨ ∃ row, o = .upsertPayment row := by
  cases o with
  | upsertPayment row => exact .inr ⟨row, rfl⟩
  | claimPending q h t =>
    refine .inl (World.KeepsAttempts.deliver x.outcome ?_)
    refine (updatePending_keepsAttempts w h (· == .prepared)
      (fun r =>
        { r with
          status := .submitting, submissionAttemptCount := r.submissionAttemptCount + 1
          lastSubmissionErrorCode := none })
      ⟨fun _ _ => rfl⟩ (fun _ => rfl) fun _ => rfl).of_pending ?_
    simp only [World.claimPending]
    split <;> split <;> rfl
  | releasePending q h errorCode =>
    refine .inl (World.KeepsAttempts.deliver x.outcome ?_)
    refine (updatePending_keepsAttempts w h (· == .submitting)
      (fun r => { r with status := .prepared, lastSubmissionErrorCode := errorCode })
      ⟨fun _ _ => rfl⟩ (fun _ => rfl) fun _ => rfl).of_pending ?_
    simp only [World.releasePending]
    split <;> rfl
  | setSubmitted h transport txHash t =>
    refine .inl (World.KeepsAttempts.deliver x.outcome ?_)
    exact updatePending_keepsAttempts w h _ _ _ (fun _ => rfl) fun _ => rfl
  | setStatus q h status txHash =>
    refine .inl (World.KeepsAttempts.deliver x.outcome ?_)
    refine (updatePending_keepsAttempts w h (fun _ => true)
      (fun r => { r with status := status, submittedTxHash := txHash.getD r.submittedTxHash })
      ⟨fun _ _ => rfl⟩ (fun _ => rfl) fun _ => rfl).of_pending ?_
    exact counting_pending _ _ _
  | _ => exact .inl (.of_subset ((exec_leaves i _ x w).pending rfl))

/-- A row comes from one with the same operation and attempt, whose status the operation
may have turned, or it has just been stored. -/
theorem exec_rows (i : Nat) (o : PayOp) (x : Answer) (w : World) {r : PendingPayment}
    (hr : r ∈ (o.exec i x w).2.pending) :
    r ∈ w.pending ∨
      (∃ r' ∈ w.pending, r'.userOpHash = r.userOpHash ∧ r'.paymentAttemptId = r.paymentAttemptId ∧
        o.Turns r.userOpHash r'.status r.status) ∨
      ∃ row, o = .upsertPayment row ∧ r.status = row.status := by
  rcases pending_step i o x w with kept | ⟨h, s, s', turns, turned⟩ | ⟨row, rfl, stored⟩
  · exact .inl (kept r hr)
  · by_cases mine : r.userOpHash = h
    · subst mine
      obtain ⟨r', hr', hash, rfl⟩ := turned.before
      rcases exec_keepsAttempts i o x w with keeps | ⟨row, rfl⟩
      · obtain ⟨r₀, hr₀, hash₀, attempt⟩ := keeps r hr
        obtain rfl := row_unique hr' hr₀ (hash.trans hash₀.symm)
        refine .inr (.inl ⟨r', hr', hash, attempt, ?_⟩)
        rw [turned.after r hr rfl]
        exact turns
      · exact absurd turns (by simp [PayOp.Turns])
    · exact .inl (turned.others r hr mine)
  · rcases stored r hr with old | ⟨-, status⟩
    · exact .inl old
    · exact .inr (.inr ⟨row, rfl, status⟩)

end Rows

/-! ### What the handlers store -/

section Stores

open Prog

variable {env : Env} {q : RequestId} {h : Hash}

/-- A row that is stored is prepared. -/
def PayOp.Tidy (o : PayOp) : Prop :=
  match o with
  | .upsertPayment row => row.status = .prepared
  | _ => True

theorem PayOp.Tidy.prepared {o : PayOp} (tidy : o.Tidy) {row : PendingPayment}
    (stores : o = .upsertPayment row) : row.status = .prepared := by
  subst stores
  exact tidy

theorem PayOp.Calm.tidy {o : PayOp} (calm : o.Calm) : o.Tidy := by
  cases o with
  | upsertPayment row => exact calm.2.2 {} (.initial 0)
  | _ => trivial

theorem PayOp.Reads.tidy {o : PayOp} (reads : o.Reads q) : o.Tidy := by
  rcases reads with calm | ⟨h, rfl⟩
  · exact calm.tidy
  · trivial

theorem tidy_of_calm {α : Type} {p : PayHandler α} (hp : p.Uses PayOp.Calm) :
    p.Uses PayOp.Tidy :=
  uses_mono hp fun _ => PayOp.Calm.tidy

theorem tidy_of_reads {α : Type} {p : PayHandler α} (hp : p.Uses (PayOp.Reads q)) :
    p.Uses PayOp.Tidy :=
  uses_mono hp fun _ => PayOp.Reads.tidy

theorem tidy_sendToBundlers (slots : List Nat) (s : BundlerScan) :
    (sendToBundlers q h slots s).Uses PayOp.Tidy := by
  induction slots generalizing s with
  | nil => trivial
  | cons slot slots ih =>
    refine uses_op trivial fun supported => ?_
    split
    · split
      · trivial
      · exact ih _
    · exact ih _
    · refine uses_op trivial fun answer => ?_
      split
      · trivial
      · split
        · trivial
        · exact ih _

theorem tidy_writeLeased : (writeLeased q h).Uses PayOp.Tidy := by
  refine uses_op trivial fun blocked => ?_
  split
  · trivial
  · trivial
  · refine uses_op trivial fun written => ?_
    split <;> trivial

theorem tidy_selfSend : (selfSend q h).Uses PayOp.Tidy := by
  refine uses_op trivial fun simulated => ?_
  split
  · trivial
  · refine uses_op trivial fun acquired => ?_
    split
    · trivial
    · trivial
    · exact uses_bind tidy_writeLeased fun _ => uses_op trivial fun _ => trivial

theorem tidy_sendUserOperation (mode : Mode) :
    (sendUserOperation env mode q h).Uses PayOp.Tidy := by
  cases mode with
  | self => exact tidy_selfSend
  | bundler =>
    have first : (bundlerSend env q h).Uses PayOp.Tidy := by
      unfold bundlerSend
      split
      · trivial
      · exact tidy_sendToBundlers _ _
    refine uses_bind first fun sent => ?_
    split
    · trivial
    · split
      · exact tidy_selfSend
      · trivial

theorem tidy_releasePendingClaim (errorCode : Option String) :
    (releasePendingClaim q h errorCode).Uses PayOp.Tidy :=
  uses_statement trivial

theorem tidy_releaseStored (release : Release) (linkId : Option LinkId) :
    (releaseStored q h release linkId).Uses PayOp.Tidy := by
  cases linkId with
  | none => trivial
  | some id => exact uses_statement trivial

theorem tidy_giveBack (linkId : Option LinkId) (errorCode : String) :
    (giveBack q h linkId errorCode).Uses PayOp.Tidy :=
  uses_bind (uses_logged (tidy_releasePendingClaim _)) fun _ =>
    uses_logged (tidy_releaseStored _ _)

theorem tidy_submitClaimed (r : SubmitRequest) (pending : PendingPayment)
    (linkId : Option LinkId) : (submitClaimed env q r pending linkId).Uses PayOp.Tidy := by
  refine uses_bind (tidy_sendUserOperation _) fun sent => ?_
  cases sent with
  | ok submission =>
    refine uses_bind (uses_attempt (tidy_of_calm (uses_recordSubmission _ _ _ _))) fun recorded => ?_
    split <;> trivial
  | error e =>
    refine uses_op trivial fun _ => ?_
    split
    · exact uses_bind (tidy_of_calm (uses_recordAmbiguous _ _)) fun _ => trivial
    · exact uses_bind (tidy_giveBack _ _) fun _ => trivial

theorem tidy_submitWithLink (r : SubmitRequest) (pending : PendingPayment) :
    (submitWithLink env q r pending).Uses PayOp.Tidy := by
  unfold submitWithLink
  split
  · exact tidy_submitClaimed r pending none
  · refine uses_op trivial fun now => ?_
    have claim : (claimPaymentLinkForSubmit q ‹_› r.userOpHash
        (max pending.expiresAt (now + 15 * 60000))).Uses PayOp.Tidy :=
      uses_op trivial fun _ => uses_statement trivial
    refine uses_bind (uses_attempt claim) fun claimed => ?_
    split
    · exact uses_bind (tidy_giveBack _ _) fun _ => trivial
    · exact tidy_submitClaimed r pending _
    · refine uses_bind (uses_attempt (tidy_releasePendingClaim _)) fun released => ?_
      split
      · trivial
      · exact uses_bind (tidy_giveBack _ _) fun _ => trivial

theorem tidy_claimPendingForSubmit : (claimPendingForSubmit q h).Uses PayOp.Tidy := by
  refine uses_op trivial fun now => ?_
  refine uses_bind (tidy_of_calm (uses_auxiliary _)) fun _ => ?_
  refine uses_bind (tidy_of_calm (uses_auxiliary _)) fun _ => ?_
  refine uses_bind (tidy_of_calm (uses_auxiliary _)) fun _ => ?_
  exact uses_statement trivial

theorem tidy_submitPayment (r : SubmitRequest) : (submitPayment env r).Uses PayOp.Tidy := by
  refine uses_op trivial fun q => ?_
  refine uses_bind (uses_attempt (tidy_of_reads (uses_admitSubmission r))) fun admitted => ?_
  split
  · trivial
  · trivial
  · refine uses_bind (uses_attempt tidy_claimPendingForSubmit) fun claimed => ?_
    split
    · trivial
    · exact tidy_submitWithLink r _
    · refine uses_bind (uses_attempt (tidy_of_reads uses_duplicateSubmission)) fun current => ?_
      split <;> trivial

theorem tidy_paymentStatus (uid : Nat) : (paymentStatus uid h).Uses PayOp.Tidy := by
  refine uses_op trivial fun q => ?_
  exact tidy_of_reads (q := q) (uses_bind uses_getPendingPaymentAnyState fun row =>
    uses_reads (uses_paymentStatus (h := h) uid row))

theorem tidy_setPendingPaymentStatus (status : PendingPaymentStatus)
    (txHash : Option (Option Hash)) :
    (setPendingPaymentStatus q h status txHash).Uses PayOp.Tidy :=
  uses_statement trivial

theorem tidy_discoverTransaction (row : PendingPayment) (txHash : Option Hash) :
    (discoverTransaction q row txHash).Uses PayOp.Tidy := by
  unfold discoverTransaction
  split
  · refine uses_bind (tidy_of_calm (uses_receiptOf _ _)) fun discovery => ?_
    split
    · trivial
    · refine uses_bind (tidy_setPendingPaymentStatus _ _) fun _ => ?_
      exact uses_bind (uses_onlyIf _ (tidy_of_calm (uses_auxiliary _))) fun _ => trivial
  · trivial

theorem tidy_evidenceWithout (canonical : Option CanonicalUserOperation) (row : PendingPayment)
    (txHash : Option Hash) : (evidenceWithout canonical row txHash).Uses PayOp.Tidy := by
  unfold evidenceWithout
  split
  · refine uses_bind (tidy_of_calm (uses_receiptOf _ _)) fun receipt => ?_
    split
    · trivial
    · refine uses_bind (tidy_of_calm uses_safeBlockNumber) fun safe => ?_
      split
      · exact uses_op trivial fun _ => uses_bind (uses_orThrow _) fun _ => trivial
      · trivial
  · trivial

theorem tidy_closeFailed (row : PendingPayment) (txHash : Option (Option Hash))
    (release : Release) : (closeFailed q row txHash release).Uses PayOp.Tidy := by
  refine uses_bind (tidy_setPendingPaymentStatus _ _) fun _ => ?_
  refine uses_bind (tidy_releaseStored _ _) fun _ => ?_
  exact uses_bind (uses_onlyIf _ (uses_logged (tidy_of_calm (uses_auxiliary _)))) fun _ => trivial

theorem tidy_closeUnlanded (row : PendingPayment) : (closeUnlanded q row).Uses PayOp.Tidy := by
  refine uses_op trivial fun now => ?_
  split
  · refine uses_op trivial fun covered => uses_bind (uses_ofExcept _ _) fun covered => ?_
    split
    · exact tidy_closeFailed row none .unlanded
    · trivial
  · trivial

theorem tidy_conclude (row : PendingPayment) (success : Option Bool) (txHash : Option Hash) :
    (conclude q row success txHash).Uses PayOp.Tidy := by
  unfold conclude
  split
  · refine uses_bind (tidy_of_calm (uses_settlePayment _ _)) fun _ => ?_
    exact uses_bind (tidy_setPendingPaymentStatus _ _) fun _ => trivial
  · exact tidy_closeFailed row _ .failed
  · exact tidy_closeUnlanded row

theorem tidy_reconcileOne (row : PendingPayment) : (reconcileOne q row).Uses PayOp.Tidy := by
  refine uses_op trivial fun read => uses_bind (uses_ofExcept _ _) fun canonical => ?_
  refine uses_bind (tidy_discoverTransaction _ _) fun txHash => ?_
  refine uses_bind (uses_onlyIf _ (tidy_of_calm (uses_recoverLogs _ _))) fun _ => ?_
  exact uses_bind (tidy_evidenceWithout _ _ _) fun direct => tidy_conclude _ _ _

theorem tidy_reconcileRequest (attemptCount : Nat) :
    (reconcileRequest q h attemptCount).Uses PayOp.Tidy := by
  refine uses_bind (tidy_of_reads (q := q) uses_getPendingPaymentAnyState) fun row => ?_
  split
  · exact tidy_of_calm uses_completePaymentReconcileRequest
  · split
    · exact tidy_of_calm uses_completePaymentReconcileRequest
    · refine uses_bind (tidy_reconcileOne _) fun settled => ?_
      split
      · exact tidy_of_calm uses_completePaymentReconcileRequest
      · exact tidy_of_calm (uses_reschedulePaymentReconcileRequest _ _ _)

theorem tidy_reconcileDue (attempts : Nat) : (reconcileDue h attempts).Uses PayOp.Tidy := by
  refine uses_op trivial fun q => ?_
  refine uses_bind (tidy_of_calm (uses_claimPaymentReconcileRequest _)) fun claimed => ?_
  split
  · refine uses_bind (uses_attempt (tidy_reconcileRequest _)) fun outcome => ?_
    split
    · trivial
    · exact tidy_of_calm (uses_reschedulePaymentReconcileRequest _ _ _)
  · trivial

theorem tidy_reconcileAll (requests : List (Hash × Nat)) :
    (reconcileAll requests).Uses PayOp.Tidy := by
  induction requests with
  | nil => trivial
  | cons request requests ih => exact uses_bind (tidy_reconcileDue _) fun _ => ih

theorem tidy_runPaymentReconciler : (runPaymentReconciler env).Uses PayOp.Tidy := by
  unfold runPaymentReconciler
  split
  · trivial
  · refine uses_tryCatch ?_ fun _ => trivial
    refine uses_bind (uses_op trivial fun _ => uses_statement trivial) fun _ => ?_
    refine uses_bind (uses_op trivial fun _ => uses_statement trivial) fun requests => ?_
    refine uses_bind (tidy_reconcileAll requests) fun _ => ?_
    refine uses_bind (tidy_of_calm uses_sweepTerminalPendingPayments) fun _ => ?_
    exact tidy_of_calm (uses_auxiliary _)

/-- Every handler stores prepared rows only. -/
theorem tidy_body (env : Env) (c : PayCall) : ((paySystem env).body c).Uses PayOp.Tidy := by
  cases c with
  | prepare r => exact uses_bind (tidy_of_calm (uses_preparePayment r)) fun _ => trivial
  | submit r => exact uses_bind (tidy_submitPayment r) fun _ => trivial
  | status uid h => exact uses_bind (tidy_paymentStatus uid) fun _ => trivial
  | reconcile => exact uses_bind tidy_runPaymentReconciler fun _ => trivial

end Stores

/-! ### The invariant -/

section Steps

variable {i : Nat} {o : PayOp} {x : Answer} {w w' : HandoverWorld} {r r' : PendingPayment} {h : Hash}
  {s s' : PendingPaymentStatus}

/-- What has been submitted has been announced, and what has been announced is on its way
or there. -/
structure HandoverWorld.Kept (w : HandoverWorld) : Prop where
  announced : ∀ r ∈ w.pay.pending, r.status = .submitted ∨ r.status = .confirmed → w.Announced r
  covered : ∀ p ∈ w.announced, w.Covered p.1 p.2
  deleted : ∀ o ∈ w.deleted, w.Accepted o.paymentAttemptId o.userOpHash

theorem HandoverWorld.Kept.handedOver (k : w.Kept) : w.HandedOver where
  payments r hr status attempt ha := k.covered _ (k.announced r hr status attempt ha)
  deletions := k.deleted

/-- What the worker has accepted stays so. -/
def HandoverWorld.Grows (w w' : HandoverWorld) : Prop := ∀ c ∈ w.accepted, c ∈ w'.accepted

theorem HandoverWorld.Grows.accepted (g : w.Grows w') {attempt : Nat}
    (accepted : w.Accepted attempt h) : w'.Accepted attempt h := by
  obtain ⟨c, hc, same⟩ := accepted
  exact ⟨c, g c hc, same⟩

theorem HandoverWorld.Announced.congr (announced : w.Announced r')
    (hash : r'.userOpHash = r.userOpHash) (attempt : r'.paymentAttemptId = r.paymentAttemptId) :
    w.Announced r := by
  intro a ha
  rw [← hash]
  exact announced a (by rwa [attempt])

theorem HandoverWorld.Free.congr (free : w.Free r') (hash : r'.userOpHash = r.userOpHash)
    (attempt : r'.paymentAttemptId = r.paymentAttemptId) : w.Free r := by
  intro a ha
  rw [← hash]
  exact free a (by rwa [attempt])

/-! The trigger. -/

@[simp] theorem announce_pay (now : Timestamp) (w : HandoverWorld) (r : PendingPayment) :
    (w.announce now r).pay = w.pay := by
  unfold HandoverWorld.announce
  split <;> rfl

@[simp] theorem announce_accepted (now : Timestamp) (w : HandoverWorld) (r : PendingPayment) :
    (w.announce now r).accepted = w.accepted := by
  unfold HandoverWorld.announce
  split <;> rfl

@[simp] theorem announce_deleted (now : Timestamp) (w : HandoverWorld) (r : PendingPayment) :
    (w.announce now r).deleted = w.deleted := by
  unfold HandoverWorld.announce
  split <;> rfl

theorem mem_announce (now : Timestamp) {p : Nat × Hash} (hp : p ∈ w.announced) :
    p ∈ (w.announce now r).announced := by
  unfold HandoverWorld.announce
  split
  · exact hp
  · exact List.mem_cons_of_mem _ hp

theorem announce_announced (now : Timestamp) : (w.announce now r).Announced r := by
  intro attempt ha
  unfold HandoverWorld.announce
  split
  · rename_i none
    rw [none] at ha
    cases ha
  · rename_i a some
    rw [some] at ha
    cases ha
    exact List.mem_cons_self

/-- The trigger leaves the payment covered, if it finds the outbox free. -/
theorem announce_covered (now : Timestamp) (covered : ∀ p ∈ w.announced, w.Covered p.1 p.2)
    (free : w.Free r) :
    ∀ p ∈ (w.announce now r).announced, (w.announce now r).Covered p.1 p.2 := by
  intro p hp
  unfold HandoverWorld.announce at hp ⊢
  split at hp
  · exact covered p hp
  · rename_i attempt some
    rcases List.mem_cons.1 hp with rfl | old
    · rcases free attempt some with accepted | alone
      · exact .inr accepted
      · by_cases fits : w.outbox.Fits (executionSyncRow attempt r now)
        · refine .inl ⟨executionSyncRow attempt r now, ?_, rfl, rfl⟩
          have rows := Table.insertOrIgnore_rows_of_fits fits
          rw [← Table.mem_rows, rows]
          exact List.mem_append_right _ List.mem_cons_self
        -- the row that is in the way is that of the payment
        · simp only [Table.Fits, not_forall, Bool.not_eq_false] at fits
          obtain ⟨o, ho, clash⟩ := fits
          have same := alone o ho (by simpa [Row.clash, executionSyncRow] using clash)
          exact .inl ⟨o, Table.mem_insertOrIgnore_of_mem ho, same⟩
    · rcases covered p old with ⟨o, ho, same⟩ | accepted
      · exact .inl ⟨o, Table.mem_insertOrIgnore_of_mem ho, same⟩
      · exact .inr accepted

/-! Statements on the payments. -/

theorem unchanged_of_lost {w : World} (turns : o.Turns h s s') (lost : x.lands = false) :
    (o.exec i x w).2 = w := by
  have lost : ∃ m, x.outcome = .lost m := by
    unfold Answer.lands at lost
    split at lost
    · exact ⟨_, ‹_›⟩
    · cases lost
  obtain ⟨m, lost⟩ := lost
  cases o with
  | claimPending q h t => simp [PayOp.exec, lost, PayOp.deliver]
  | releasePending q h errorCode => simp [PayOp.exec, lost, PayOp.deliver]
  | setSubmitted h transport txHash t => simp [PayOp.exec, lost, PayOp.deliver]
  | setStatus q h status txHash => simp [PayOp.exec, lost, PayOp.deliver]
  | _ => exact absurd turns (by simp [PayOp.Turns])

/-- A row that becomes `submitted` finds the outbox free. -/
theorem free_of_orderly (orderly : w.Orderly (.inl o) x) (lands : x.lands = true)
    (hr : r ∈ w.pay.pending) (turns : o.Turns r.userOpHash r.status .submitted)
    (new : r.status ≠ .submitted) : w.Free r := by
  cases o with
  | setSubmitted h transport txHash t =>
    obtain ⟨rfl, from_, -⟩ := turns
    rcases from_ with submitting | submitted
    · exact orderly lands r hr rfl submitting
    · exact absurd submitted new
  | setStatus q h status txHash =>
    obtain ⟨rfl, rfl⟩ := turns
    exact orderly lands r hr rfl new
  | claimPending q h t => exact absurd turns.2.2 nofun
  | releasePending q h errorCode => exact absurd turns.2.2 nofun
  | _ => exact absurd turns (by simp [PayOp.Turns])

/-- A row that becomes `confirmed` has been submitted. -/
theorem announced_of_orderly (orderly : w.Orderly (.inl o) x) (lands : x.lands = true)
    (hr : r ∈ w.pay.pending) (turns : o.Turns r.userOpHash r.status .confirmed) :
    w.Announced r := by
  cases o with
  | setStatus q h status txHash =>
    obtain ⟨rfl, rfl⟩ := turns
    exact orderly lands r hr rfl
  | claimPending q h t => exact absurd turns.2.2 nofun
  | releasePending q h errorCode => exact absurd turns.2.2 nofun
  | setSubmitted h transport txHash t => exact absurd turns.2.2 nofun
  | _ => exact absurd turns (by simp [PayOp.Turns])

/-- The rows for which the trigger fires are those that the operation turns. -/
theorem mem_newlySubmitted {w : World} (tidy : o.Tidy)
    (hr : r ∈ newlySubmitted w.pending (o.exec i x w).2.pending) :
    r ∈ (o.exec i x w).2.pending ∧ ∃ r' ∈ w.pending, r'.userOpHash = r.userOpHash ∧
      r'.paymentAttemptId = r.paymentAttemptId ∧ r'.status ≠ .submitted ∧
      o.Turns r'.userOpHash r'.status .submitted := by
  obtain ⟨after, fires⟩ := List.mem_filter.1 hr
  simp only [Bool.and_eq_true, beq_iff_eq, Table.any_eq_true, bne_iff_ne] at fires
  obtain ⟨status, r₁, hr₁, hash₁, before⟩ := fires
  refine ⟨after, ?_⟩
  rcases exec_rows i o x w after with kept | ⟨r', hr', hash, attempt, turns⟩ | ⟨row, stores, stored⟩
  · obtain rfl := row_unique hr₁ kept hash₁
    exact absurd status before
  · obtain rfl := row_unique hr₁ hr' (hash₁.trans hash.symm)
    rw [status, ← hash] at turns
    exact ⟨r₁, hr₁, hash, attempt, before, turns⟩
  · rw [stored, tidy.prepared stores] at status
    cases status

theorem turns_hash {h' : Hash} {t : PendingPaymentStatus} (turns : o.Turns h s .submitted)
    (turns' : o.Turns h' t .submitted) : h = h' := by
  cases o with
  | setSubmitted h₀ transport txHash now => exact turns.1.symm.trans turns'.1
  | setStatus q h₀ status txHash => exact turns.1.symm.trans turns'.1
  | claimPending q h₀ now => exact absurd turns.2.2 nofun
  | releasePending q h₀ errorCode => exact absurd turns.2.2 nofun
  | _ => exact absurd turns (by simp [PayOp.Turns])

/-- The trigger fires for one row at most. -/
theorem newlySubmitted_cases {w : World} (tidy : o.Tidy) :
    newlySubmitted w.pending (o.exec i x w).2.pending = [] ∨
      ∃ r, newlySubmitted w.pending (o.exec i x w).2.pending = [r] := by
  have one : (newlySubmitted w.pending (o.exec i x w).2.pending).length ≤ 1 := by
    refine Table.length_filter_le_one fun r hr r' hr' fires fires' => ?_
    obtain ⟨-, r₁, -, hash, -, -, turns⟩ :=
      mem_newlySubmitted tidy (List.mem_filter.2 ⟨hr, fires⟩)
    obtain ⟨-, r₂, -, hash', -, -, turns'⟩ :=
      mem_newlySubmitted tidy (List.mem_filter.2 ⟨hr', fires'⟩)
    rw [hash] at turns
    rw [hash'] at turns'
    exact beq_iff_eq.2 (turns_hash turns turns')
  cases rows : newlySubmitted w.pending (o.exec i x w).2.pending with
  | nil => exact .inl rfl
  | cons r rest =>
    rw [rows] at one
    obtain rfl : rest = [] := List.eq_nil_of_length_eq_zero (by simpa using one)
    exact .inr ⟨r, rfl⟩

/-- A row that is submitted or confirmed after a statement has been announced before, or
the trigger fires for it. -/
theorem announced_or_new (k : w.Kept) (tidy : o.Tidy) (orderly : w.Orderly (.inl o) x)
    (hr : r ∈ (o.exec i x w.pay).2.pending) (status : r.status = .submitted ∨ r.status = .confirmed) :
    w.Announced r ∨ r ∈ newlySubmitted w.pay.pending (o.exec i x w.pay).2.pending := by
  rcases exec_rows i o x w.pay hr with kept | ⟨r', hr', hash, attempt, turns⟩ | ⟨row, stores, stored⟩
  · exact .inl (k.announced r kept status)
  · by_cases lands : x.lands = true
    · rcases status with submitted | confirmed
      · by_cases before : r'.status = .submitted
        · exact .inl ((k.announced r' hr' (.inl before)).congr hash attempt)
        · refine .inr (List.mem_filter.2 ⟨hr, ?_⟩)
          simp only [Bool.and_eq_true, beq_iff_eq, Table.any_eq_true, bne_iff_ne]
          exact ⟨submitted, r', hr', hash, before⟩
      · rw [confirmed, ← hash] at turns
        exact .inl ((announced_of_orderly orderly lands hr' turns).congr hash attempt)
    · have same := unchanged_of_lost (i := i) (w := w.pay) turns (by simpa using lands)
      rw [same] at hr
      exact .inl (k.announced r hr status)
  · rw [stored, tidy.prepared stores] at status
    rcases status with status | status <;> cases status

/-- A statement on the payments, with its trigger, keeps the hand-over. -/
theorem kept_proceed (k : w.Kept) (tidy : o.Tidy) (orderly : w.Orderly (.inl o) x) :
    (w.proceed (o.exec i x w.pay).2).Kept ∧ w.Grows (w.proceed (o.exec i x w.pay).2) := by
  have rows := fun r hr => announced_or_new (i := i) (r := r) k tidy orderly hr
  rcases newlySubmitted_cases (i := i) (x := x) (w := w.pay) tidy with none | ⟨new, one⟩
  · rw [none] at rows
    have same : w.proceed (o.exec i x w.pay).2 = { w with pay := (o.exec i x w.pay).2 } := by
      rw [HandoverWorld.proceed, none, List.foldl_nil]
    rw [same]
    refine ⟨{ announced := fun r hr status => ?_, covered := k.covered, deleted := k.deleted },
      fun _ hc => hc⟩
    rcases rows r hr status with announced | new
    · exact announced
    · cases new
  · have hnew : new ∈ newlySubmitted w.pay.pending (o.exec i x w.pay).2.pending := by
      rw [one]
      exact List.mem_cons_self
    obtain ⟨-, r', hr', hash, attempt, before, turns⟩ := mem_newlySubmitted tidy hnew
    have lands : x.lands = true := by
      by_contra lost
      have same := unchanged_of_lost (i := i) (w := w.pay) turns (by simpa using lost)
      obtain ⟨after, fires⟩ := List.mem_filter.1 hnew
      rw [same] at after
      obtain rfl := row_unique hr' after hash
      exact before (by simpa using (Bool.and_eq_true_iff.1 fires).1)
    have free : w.Free new := (free_of_orderly orderly lands hr' turns before).congr hash attempt
    rw [one] at rows
    have same : w.proceed (o.exec i x w.pay).2 =
        { w with pay := (o.exec i x w.pay).2 }.announce w.pay.clock new := by
      rw [HandoverWorld.proceed, one, List.foldl_cons, List.foldl_nil]
    rw [same]
    refine ⟨{ announced := fun r hr status => ?_, covered := ?_, deleted := fun o ho => ?_ },
      fun c hc => ?_⟩
    · rw [announce_pay] at hr
      rcases rows r hr status with announced | mine
      · exact fun a ha => mem_announce _ (announced a ha)
      · obtain rfl := List.mem_singleton.1 mine
        exact announce_announced _
    · exact announce_covered _ k.covered free
    · rw [announce_deleted] at ho
      obtain ⟨c, hc, pair⟩ := k.deleted o ho
      exact ⟨c, by rwa [announce_accepted], pair⟩
    · rwa [announce_accepted]

/-! Statements of the drain. -/

/-- What a statement of the drain needs: what it deletes has been accepted. -/
def HandoverOp.Entitled (o : HandoverOp) (w : HandoverWorld) : Prop :=
  match o with
  | .deleteExecution sent attempt => w.Accepted attempt sent
  | _ => True

theorem kept_deleteExecution (k : w.Kept) {sent : Hash} {attempt : Nat}
    (accepted : w.Accepted attempt sent)
    (orderly : ∀ o ∈ w.outbox, o.paymentAttemptId = attempt →
      o.userOpHash = sent ∨ w.Accepted attempt o.userOpHash) :
    (w.deleteExecution attempt).Kept := by
  have gone : ∀ o ∈ w.outbox, o.paymentAttemptId = attempt →
      w.Accepted o.paymentAttemptId o.userOpHash := by
    rintro o ho rfl
    rcases orderly o ho rfl with rfl | other
    · exact accepted
    · exact other
  refine { announced := k.announced, covered := fun p hp => ?_, deleted := fun o ho => ?_ }
  · rcases k.covered p hp with ⟨o, ho, pair⟩ | there
    · by_cases mine : o.paymentAttemptId = attempt
      · have there := gone o ho mine
        rw [pair.1, pair.2] at there
        exact .inr there
      · exact .inl ⟨o, Table.mem_delete.2 ⟨ho, by simpa using mine⟩, pair⟩
    · exact .inr there
  · rcases List.mem_append.1 ho with ho | ho
    · obtain ⟨ho, mine⟩ := List.mem_filter.1 ho
      exact gone o ho (beq_iff_eq.1 mine)
    · exact k.deleted o ho

theorem kept_failExecution (k : w.Kept) (attempt attemptCount : Nat) :
    (w.failExecution attempt attemptCount).Kept := by
  refine { announced := k.announced, covered := fun p hp => ?_, deleted := k.deleted }
  rcases k.covered p hp with ⟨o, ho, pair⟩ | there
  · have mem : (if o.paymentAttemptId == attempt then
        failedExecution attemptCount w.pay.clock o else o) ∈
          w.outbox.modify (fun r => r.paymentAttemptId == attempt)
            (failedExecution attemptCount w.pay.clock) ⟨fun _ _ => rfl⟩ :=
      Table.mem_modify.2 ⟨o, ho, rfl⟩
    refine .inl ⟨_, mem, ?_⟩
    split <;> exact pair
  · exact .inr there

theorem HandoverOp.exec_keeps (k : w.Kept) (o : HandoverOp) (x : Answer) (entitled : o.Entitled w)
    (orderly : w.Orderly (.inr o) x) : (o.exec x w).2.Kept ∧ w.Grows (o.exec x w).2 := by
  cases o with
  | selectDueExecutions limit =>
    rw [HandoverOp.exec, Delivery.deliver_query]
    exact ⟨k, fun _ hc => hc⟩
  | send command =>
    exact ⟨{ announced := k.announced, covered := k.covered, deleted := k.deleted }, fun _ hc => hc⟩
  | result command => exact ⟨k, fun _ hc => hc⟩
  | deleteExecution sent attempt =>
    have deleted (lands : x.lands = true) : (w.deleteExecution attempt).Kept :=
      kept_deleteExecution k entitled (orderly lands)
    unfold Answer.lands at deleted
    simp only [HandoverOp.exec]
    cases outcome : x.outcome with
    | done => exact ⟨deleted (by rw [outcome]), fun _ hc => hc⟩
    | lost m => exact ⟨k, fun _ hc => hc⟩
    | unacknowledged m => exact ⟨deleted (by rw [outcome]), fun _ hc => hc⟩
  | failExecution attempt attemptCount =>
    unfold HandoverOp.exec
    apply Delivery.deliver_induction (P := fun w' => w'.Kept ∧ w.Grows w')
    · exact ⟨k, fun _ hc => hc⟩
    · exact ⟨kept_failExecution k attempt attemptCount, fun _ hc => hc⟩

theorem kept_move (k : w.Kept) (e : HandoverMove) : (e.move w).Kept ∧ w.Grows (e.move w) := by
  cases e with
  | pay e =>
    refine ⟨{ announced := fun r hr => ?_, covered := k.covered, deleted := k.deleted },
      fun _ hc => hc⟩
    have hr : r ∈ (e.move w.pay).pending := hr
    rw [move_pending] at hr
    exact k.announced r hr
  | accept command =>
    simp only [HandoverMove.move]
    split
    · have grows : w.Grows { w with accepted := command :: w.accepted } :=
        fun _ hc => List.mem_cons_of_mem _ hc
      refine ⟨{ announced := k.announced, covered := fun p hp => ?_, deleted := fun o ho => ?_ },
        grows⟩
      · exact (k.covered p hp).imp id grows.accepted
      · exact grows.accepted (k.deleted o ho)
    · exact ⟨k, fun _ hc => hc⟩

end Steps

/-! ### The handlers -/

section Handlers

variable {env : Env} {sourceChainId i : Nat} {w : HandoverWorld}

def handoverDiscipline :
    Discipline (PayOp ⊕ HandoverOp) HandoverWorld Answer HandoverMove HandoverCall where
  Inv := HandoverWorld.Kept
  Evolves := HandoverWorld.Grows
  allowed := handoverConditions
  refl _ _ hc := hc
  trans h h' c hc := h' c (h c hc)

/-- The weakest precondition of a handler. -/
abbrev HandoverHandler.wp {α : Type} (p : HandoverHandler α) (env : Env) (sourceChainId i : Nat)
    (Q : Except String α → HandoverWorld → Prop) (w : HandoverWorld) : Prop :=
  handoverDiscipline.wp (handoverSystem env sourceChainId) i p Q w

/-- A handler of the payments keeps the hand-over. -/
theorem wp_payments {α : Type} {p : PayHandler α} (env : Env) (sourceChainId i : Nat)
    (tidy : p.Uses PayOp.Tidy) (k : w.Kept) :
    HandoverHandler.wp p.inl env sourceChainId i (fun _ w' => w'.Kept ∧ w.Grows w') w := by
  refine Discipline.wp_of_uses _ _ (P := fun o => ∃ o', o = .inl o' ∧ o'.Tidy) ?_
    (Prog.uses_inl (Prog.uses_mono tidy fun o h => ⟨o, rfl, h⟩)) k
  rintro o ⟨o, rfl, tidy⟩ x w' - k' orderly
  obtain ⟨kept, grows⟩ := kept_proceed (i := i) k' tidy orderly
  exact ⟨⟨kept, grows⟩, fun _ _ => trivial, trivial⟩

/-- A statement of the drain, and the rest. -/
theorem wp_issue {α : Type} {o : HandoverOp} {f : o.Reply → HandoverHandler α}
    {Q : Except String α → HandoverWorld → Prop} (k : w.Kept) (entitled : o.Entitled w)
    (rest : ∀ x w', w'.Kept → (o.exec x w).2.Grows w' →
      (f (o.exec x w).1).wp env sourceChainId i Q w') :
    HandoverHandler.wp ((issue o).bind f) env sourceChainId i Q w := by
  refine Discipline.wp_act _ _ (fun x orderly => ?_) fun x _ w' later => ?_
  · obtain ⟨kept, grows⟩ := o.exec_keeps k x entitled orderly
    exact ⟨⟨kept, grows⟩, fun _ _ => trivial, trivial⟩
  · exact rest x w' later.inv later.evolves

/-- A row is deleted only when a reply has come. -/
theorem wp_drainExecution (row : ExecutionSyncRow) (k : w.Kept) :
    (drainExecution sourceChainId row).wp env sourceChainId i (fun _ w' => w'.Kept) w := by
  have failed : ∀ w' : HandoverWorld, w'.Kept →
      HandoverHandler.wp ((issue (.failExecution row.paymentAttemptId (row.attemptCount + 1))).bind
        fun r => Prog.ofExcept r) env sourceChainId i (fun _ w' => w'.Kept) w' :=
    fun w' k' => wp_issue k' trivial fun x w'' k'' _ => Discipline.wp_ofExcept _ _ k''
  refine (Discipline.wp_tryCatch _ _ _ _ _ _).2 ?_
  refine wp_issue k trivial fun _ w₁ k₁ _ => ?_
  refine wp_issue k₁ trivial fun x w₂ k₂ grows₂ => ?_
  cases error : x.error with
  | some e =>
    simp only [HandoverOp.exec, PayOp.call, error]
    exact failed w₂ k₂
  | none =>
    simp only [HandoverOp.exec, PayOp.call, error]
    cases replied : x.flag && decide (executionCommand sourceChainId row ∈ w₁.accepted) with
    | false => exact failed w₂ k₂
    | true =>
      -- the worker has accepted what is deleted
      have mem : executionCommand sourceChainId row ∈ w₁.accepted := by
        simp only [Bool.and_eq_true, decide_eq_true_eq] at replied
        exact replied.2
      have accepted : w₂.Accepted row.paymentAttemptId row.userOpHash :=
        grows₂.accepted ⟨_, mem, rfl, rfl⟩
      refine wp_issue k₂ accepted fun x' w₃ k₃ _ => ?_
      cases (HandoverOp.exec (.deleteExecution row.userOpHash row.paymentAttemptId) x' w₂).1 with
      | ok _ => exact k₃
      | error m => exact failed w₃ k₃

theorem wp_drainExecutions (rows : List ExecutionSyncRow) (k : w.Kept) :
    (drainExecutions sourceChainId rows).wp env sourceChainId i (fun _ w' => w'.Kept) w := by
  induction rows generalizing w with
  | nil => exact k
  | cons row rows ih =>
    exact Discipline.wp_seq _ _ (wp_drainExecution row k) (fun _ _ k' => ih k') fun _ _ k' => k'

theorem wp_drainPaymentsBoundaryOutbox (limit : Nat) (k : w.Kept) :
    (drainPaymentsBoundaryOutbox sourceChainId limit).wp env sourceChainId i
      (fun _ w' => w'.Kept) w := by
  have accounts := wp_payments env sourceChainId i
    (tidy_of_calm (uses_auxiliary "payment_account_sync_outbox")) k
  refine Discipline.wp_seq _ _ accounts (fun _ w₁ done => ?_) fun _ _ done => done.1
  refine wp_issue done.1 trivial fun x w₂ k₂ _ => ?_
  cases (HandoverOp.exec (.selectDueExecutions limit) x w₁).1 with
  | ok rows => exact wp_drainExecutions rows k₂
  | error m => exact k₂

theorem handover_obeys (env : Env) (sourceChainId : Nat) :
    handoverDiscipline.Obeys (handoverSystem env sourceChainId) (fun _ w => w.Kept) where
  env e w k _ := by
    obtain ⟨kept, grows⟩ := kept_move k e
    exact ⟨⟨kept, grows⟩, fun _ => trivial⟩
  call c i w w' _ _ later := by
    cases c with
    | pay c =>
      exact Discipline.wp_mono _ _ (wp_payments env sourceChainId i (tidy_body env c) later.inv) fun _ _ done => done.1
    | drain limit =>
      exact Discipline.wp_seq _ _ (wp_drainPaymentsBoundaryOutbox limit later.inv)
        (fun _ _ k => k) fun _ _ k => k

theorem initial_kept_handover (clock : Timestamp) : (HandoverWorld.initial clock).Kept where
  announced _ hr := absurd hr (Table.not_mem_empty _)
  covered _ hp := absurd hp List.not_mem_nil
  deleted _ ho := absurd ho List.not_mem_nil

end Handlers

/-! ### The result -/

/-- Payments are handed over completely in every state of the run. -/
def HandedOverAlong (env : Env) (sourceChainId : Nat) (clock : Timestamp)
    (ls : HandoverSchedule) : Prop :=
  ∀ pre post, ls = pre ++ post →
    ((handoverSystem env sourceChainId).runFrom (handoverStart clock) pre).world.HandedOver

/-- In every run that meets the condition, payments are handed over completely. -/
theorem executions_handed_over (env : Env) (sourceChainId : Nat) (clock : Timestamp)
    (ls : HandoverSchedule) (h : AlongOrderly env sourceChainId clock ls) :
    HandedOverAlong env sourceChainId clock ls := by
  rintro pre post rfl
  have sound := Discipline.sound_runFrom (handover_obeys env sourceChainId)
    (Discipline.sound_empty (initial_kept_handover clock)) (System.along_append.1 h).1
  exact sound.inv.handedOver

/-! Payments for an attempt of the payments worker. -/

def onPayments : Label Answer Surroundings PayCall → Label Answer HandoverMove HandoverCall
  | .spawn c => .spawn (.pay c)
  | .step i x => .step i x
  | .env e => .env (.pay e)

def payments (ls : PaySchedule) : HandoverSchedule := ls.map onPayments

def boundaryEnv : Env := { plainEnv with cutoverMode := .payments }

def attemptPayment : PrepareRequest :=
  { directPayment with linkId := some "4f2a", paymentAttemptId := some 3 }

/-- The handlers `i` and `i + 1` prepare the operation and hand it to a bundler. -/
def broadcast (i : Nat) (h : Hash) : HandoverSchedule :=
  payments (([.spawn (.prepare attemptPayment)] : PaySchedule) ++ steps i 1 ++
    ([.step i { hash := some h }] : PaySchedule) ++ steps i 3 ++
    ([.spawn (.submit (signed h))] : PaySchedule) ++ steps (i + 1) 10 ++
    ([.step (i + 1) { hash := some h, accepted := true }] : PaySchedule))

def submittedAttempt : HandoverSchedule := broadcast 0 7 ++ payments (steps 1 2)

/-- The worker accepts the operation 7 for the attempt. -/
def acceptance : HandoverSchedule :=
  [.env (.accept
    (executionCommand 421614 (executionSyncRow 3 (attemptPayment.row none ⟨7⟩) 0)))]

/-- The operation lands, and the handler `i` is a pass of the reconciler. -/
def reconciled (i : Nat) : HandoverSchedule :=
  payments (landed 7 ++ [.spawn .reconcile] ++ steps i 18)

def drained : HandoverSchedule :=
  submittedAttempt ++ ([.spawn (.drain 20)] : HandoverSchedule) ++ payments (steps 2 3) ++
    acceptance ++ payments (steps 2 2) ++ reconciled 3

theorem executions_handed_over_drained :
    HandedOverAlong boundaryEnv 421614 0 drained ∧
      ((handoverSystem boundaryEnv 421614).runFrom (handoverStart 0) drained).world.deleted.length
        = 1 :=
  ⟨executions_handed_over boundaryEnv 421614 0 drained (by decide +kernel), by decide +kernel⟩

/-- The handler stops once a bundler has the operation, and the reconciler confirms it. -/
def confirmedUnsubmitted : HandoverSchedule := broadcast 0 7 ++ reconciled 2

/-- A second operation of the attempt is submitted before the drain. -/
def submittedTwice : HandoverSchedule :=
  submittedAttempt ++ broadcast 2 8 ++ payments (steps 3 2)

/-- Two drains send the first operation; one deletes its row, and the other one that of the
second operation. -/
def drainedTwice : HandoverSchedule :=
  submittedAttempt ++ ([.spawn (.drain 20), .spawn (.drain 20)] : HandoverSchedule) ++
    payments (steps 2 3 ++ steps 3 3) ++ acceptance ++ payments (steps 2 2) ++ broadcast 4 8 ++
    payments (steps 5 2 ++ steps 3 2)

theorem executions_handed_over_fails :
    ¬ HandedOverAlong boundaryEnv 421614 0 confirmedUnsubmitted ∧
      ¬ HandedOverAlong boundaryEnv 421614 0 submittedTwice ∧
        ¬ HandedOverAlong boundaryEnv 421614 0 drainedTwice := by
  refine ⟨fun claim => ?_, fun claim => ?_, fun claim => ?_⟩
  · have payments := (claim _ [] (List.append_nil _).symm).payments
    revert payments
    decide +kernel
  · have payments := (claim _ [] (List.append_nil _).symm).payments
    revert payments
    decide +kernel
  · have deletions := (claim _ [] (List.append_nil _).symm).deletions
    revert deletions
    decide +kernel

end ParmeliaLinks.Pay
