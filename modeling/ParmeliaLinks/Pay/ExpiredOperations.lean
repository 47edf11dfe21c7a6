/-
ParmeliaLinks/Pay/ExpiredOperations.lean

The end of a payment whose operation never landed.  The reconciler closes it when its
window is over and the journal of user operations has come past that time, which it
reads off a checkpoint.

The watchers keep one checkpoint for each shard, under `userops:<chain>:shard:<shard>`.
The reconciler asks for `userops:<chain>`, which is the name under which wallets are
assigned to shards and under which nothing is ever journaled (`not_reader`).  So the
coverage is never found: `reconcileOne` waits, whatever the shards have covered
(`closes_when_covered_iff`).
-/
import ParmeliaLinks.Lib.Alone
import ParmeliaLinks.Pay.Handlers
import ParmeliaLinks.Server.IndexerWindow

namespace ParmeliaLinks.Pay

open Server (ChainId BlockHash BlockNumber StreamFamily JournalAction Db)

/-! ### The streams of the journal -/

/-- Who journals blocks, each under a stream of its own. -/
inductive JournalWriter
  | indexer (partition : Server.TransferIndexerPartition)
  | routerWatcher
  | recoveryWatcher (shardId : Nat)
  | userOperationWatcher (shardId : Nat)

/-- `shard:<shard>`. -/
def shardPartitionKey (shardId : Nat) : Text :=
  ['s', 'h', 'a', 'r', 'd', ':'] ++ decimal shardId

/-- The stream under which a writer journals. -/
def JournalWriter.stream (chainId : ChainId) : JournalWriter → Text
  | .indexer partition => Server.transferJournalStream chainId partition
  | .routerWatcher => Server.routerKey chainId
  | .recoveryWatcher shardId => StreamFamily.recovery.stem chainId ++ shardPartitionKey shardId
  | .userOperationWatcher shardId => StreamFamily.userops.stem chainId ++ shardPartitionKey shardId

/-- `userOperationAssignmentStream`, which is also what the reconciler looks up. -/
def userOperationAssignmentStream (chainId : ChainId) : Text :=
  StreamFamily.userops.name ++ ':' :: decimal chainId

/-- The journal is written by the indexer and the watchers, and taken back by recoveries. -/
def Written : JournalAction → Prop
  | .journal input => ∃ writer : JournalWriter, input.stream = writer.stream input.block.chainId
  | .rollback .. => True

/-! ### Coverage -/

section Coverage

-- the time in the header of a block
variable (timestampOf : ChainId → BlockHash → Option Timestamp)

/-- A canonical block of the journal with the number and hash of a checkpoint. -/
def canonicalBlockOf (db : Db) (cp : Server.StreamCheckpoint) : Bool :=
  db.chainBlocks.any fun b => b.chainId == cp.chainId && b.blockNumber == cp.blockNumber &&
    b.blockHash == cp.blockHash && b.canonical

/-- The time to which a stream has been journaled. -/
def streamTime (db : Db) (chainId : ChainId) (stream : Text) : Option Timestamp :=
  match db.checkpoints.find? fun cp => cp.chainId == chainId && cp.stream == stream with
  | none => none
  | some cp => if canonicalBlockOf db cp then timestampOf cp.chainId cp.blockHash else none

def userOperationStreamCoveredPast (db : Db) (chainId : ChainId) (timestampMs : Timestamp) : Bool :=
  (streamTime timestampOf db chainId (userOperationAssignmentStream chainId)).any (timestampMs ≤ ·)

/-- `getCanonicalUserOperation`. -/
def getCanonicalUserOperation (db : Db) (userOpHash : Hash) : Option CanonicalUserOperation :=
  (db.receipts.find? fun r => r.userOpHash == userOpHash && r.canonical &&
    db.chainBlocks.any fun b => b.chainId == r.chainId && b.blockNumber == r.blockNumber &&
      b.blockHash == r.blockHash && b.canonical).map fun r => ⟨r.txHash, r.success⟩

/-- The world of the payments sees the journal of its chain. -/
structure World.Sees (w : World) (db : Db) (chainId : ChainId) : Prop where
  canonical : w.canonical = getCanonicalUserOperation db
  covered : ∀ past : Timestamp,
    w.coveredUntil.any (past ≤ ·) = userOperationStreamCoveredPast timestampOf db chainId past

/-- Every watcher shard that is responsible has journaled past a time. -/
def CoveredByShards (db : Db) (chainId : ChainId) (shards : List Nat) (time : Timestamp) : Prop :=
  ∀ shardId ∈ shards, ∃ t,
    streamTime timestampOf db chainId ((JournalWriter.userOperationWatcher shardId).stream chainId) =
        some t ∧ time ≤ t

end Coverage

/-! ### What closing a payment is -/

/-- The payment is failed and its link, if it pays a stored one, is free of its claim. -/
def World.GivenUp (w : World) (row : PendingPayment) : Prop :=
  (∀ r, w.payment? row.userOpHash = some r → r.status = .failed) ∧
    ∀ id, row.storedLink = some id → ∀ l ∈ w.links, l.id = id →
      l.paymentClaim ≠ some row.userOpHash

/-- A pass closes the payment when every responsible shard is past its expiry, and leaves it
alone while one is not. -/
structure ClosesWhenCovered (covered : Prop) (before after : World) (row : PendingPayment) :
    Prop where
  closes : covered → after.GivenUp row
  waits : ¬ covered → after.pending = before.pending ∧ after.links = before.links

/-! ### The name that is looked up -/

theorem head_userOperationAssignmentStream (chainId : ChainId) :
    (userOperationAssignmentStream chainId).head? = some 'u' := rfl

theorem count_decimal (n : Nat) : (decimal n).count ':' = 0 :=
  List.count_eq_zero.2 (Server.colon_notMem_decimal n)

/-- The name that is looked up has one colon, the names of the shards have more. -/
theorem count_userOperationAssignmentStream (chainId : ChainId) :
    (userOperationAssignmentStream chainId).count ':' = 1 := by
  rw [userOperationAssignmentStream, List.count_append, List.count_cons_self, count_decimal]
  rfl

theorem count_stem (family : StreamFamily) (chainId : ChainId) (rest : Text) :
    2 ≤ (family.stem chainId ++ rest).count ':' := by
  rw [StreamFamily.stem, List.count_append, List.count_append, List.count_cons_self,
    List.count_append, List.count_cons_self]
  omega

/-- Nobody journals under the name that the reconciler looks up. -/
theorem not_reader (writer : JournalWriter) (chainId chainId' : ChainId) :
    writer.stream chainId ≠ userOperationAssignmentStream chainId' := by
  intro same
  have heads := congrArg List.head? same
  have colons := congrArg (List.count ':') same
  rw [head_userOperationAssignmentStream] at heads
  rw [count_userOperationAssignmentStream] at colons
  cases writer with
  | indexer partition => exact absurd heads (by decide : some 'e' ≠ some 'u')
  | routerWatcher => exact absurd heads (by decide : some 'r' ≠ some 'u')
  | recoveryWatcher shardId =>
    have := count_stem .recovery chainId (shardPartitionKey shardId)
    rw [JournalWriter.stream] at colons
    omega
  | userOperationWatcher shardId =>
    have := count_stem .userops chainId (shardPartitionKey shardId)
    rw [JournalWriter.stream] at colons
    omega

/-- Every checkpoint belongs to a writer. -/
def CheckpointsOfWriters (db : Db) : Prop :=
  ∀ cp ∈ db.checkpoints, ∃ writer : JournalWriter, ∃ chainId, cp.stream = writer.stream chainId

theorem checkpointsOfWriters_step (action : JournalAction) (db db' : Db) (written : Written action)
    (own : CheckpointsOfWriters db) (h : Server.journal.exec action db = .ok db') :
    CheckpointsOfWriters db' := by
  cases action with
  | journal input =>
    obtain ⟨writer, stream⟩ := written
    obtain ⟨moved, -⟩ := Server.journalBlockEvents_checkpoints h
    intro cp hcp
    rw [moved] at hcp
    rcases Server.mem_advanceCheckpoint hcp with old | ⟨-, same, -, -⟩
    · exact own cp old
    · exact ⟨writer, input.block.chainId, same.trans stream⟩
  | rollback chainId ancestor ancestorHash =>
    cases h
    intro cp hcp
    -- a recovery moves checkpoints, and renames none
    obtain ⟨cp₀, hcp₀, rfl⟩ := (Table.mem_of_rewritten (by exact rfl)).1 hcp
    obtain ⟨writer, chainId', stream⟩ := own cp₀ hcp₀
    refine ⟨writer, chainId', ?_⟩
    split
    · exact stream
    · exact stream

theorem checkpointsOfWriters_run {history : List JournalAction}
    (written : ∀ action ∈ history, Written action) :
    CheckpointsOfWriters (Server.journal.run Db.initial history) := by
  have along : ∀ db, Server.journal.Along (fun action _ => Written action) db history := by
    induction history with
    | nil => exact fun _ => trivial
    | cons action history ih =>
      exact fun db => ⟨written action List.mem_cons_self,
        ih (fun a ha => written a (List.mem_cons_of_mem _ ha)) _⟩
  refine Contract.run_invariant_along checkpointsOfWriters_step (along _) ?_
  exact fun cp hcp => absurd hcp (Table.not_mem_empty cp)

/-- The coverage that the reconciler looks for is never there. -/
theorem not_coveredPast (timestampOf : ChainId → BlockHash → Option Timestamp) {db : Db}
    (own : CheckpointsOfWriters db) (chainId : ChainId) (past : Timestamp) :
    userOperationStreamCoveredPast timestampOf db chainId past = false := by
  unfold userOperationStreamCoveredPast streamTime
  cases found : db.checkpoints.find? fun cp => cp.chainId == chainId &&
      cp.stream == userOperationAssignmentStream chainId with
  | none => rfl
  | some cp =>
    obtain ⟨writer, chainId', stream⟩ := own cp (Table.mem_of_find? found)
    have matched := Table.of_find? found
    simp only [Bool.and_eq_true, beq_iff_eq] at matched
    exact absurd (stream.symm.trans matched.2) (not_reader writer chainId' chainId)

/-! ### A pass over a payment that was never seen -/

section Pass

variable {exec : (o : PayOp) → World → PayOp.Reply o × World} {w : World}

/-- The outside answers statements and calls, and has no receipt of the operation. -/
structure Unseen (exec : (o : PayOp) → World → PayOp.Reply o × World) (w : World) (h : Hash) :
    Prop where
  now : exec .now w = (w.clock, w)
  canonical : (exec (.selectCanonical h) w).2 = w ∧
    ∀ c, (exec (.selectCanonical h) w).1 = .ok c → c = none
  covered : ∀ past, (exec (.selectCovered past) w).2 = w ∧
    ∀ c, (exec (.selectCovered past) w).1 = .ok c → c = false
  receipt : ∀ mode txHash, (exec (.receipt mode h txHash) w).2 = w ∧
    ∀ r, (exec (.receipt mode h txHash) w).1 = .ok r → r = none

theorem leaves_orThrow {α : Type} {R : α → Prop} {r : Except RpcError α}
    (h : ∀ a, r = .ok a → R a) : (orThrow r).Leaves exec w R := by
  cases r with
  | ok a => exact Prog.leaves_ret (h a rfl)
  | error e => exact Prog.leaves_throw R e.message

variable {row : PendingPayment} (unseen : Unseen exec w row.userOpHash)

include unseen

theorem leaves_receiptOf (mode : Mode) (txHash : Option Hash) :
    (receiptOf mode row.userOpHash txHash).Leaves exec w fun r => r = none := by
  unfold receiptOf
  split
  · exact Prog.leaves_ret rfl
  · obtain ⟨reads, answers⟩ := unseen.receipt mode txHash
    exact Prog.leaves_bind (Prog.leaves_perform reads answers) fun r found => leaves_orThrow found

theorem leaves_discoverTransaction (q : RequestId) (txHash : Option Hash) :
    (discoverTransaction q row txHash).Leaves exec w fun _ => True := by
  unfold discoverTransaction
  split
  · refine Prog.leaves_bind (leaves_receiptOf unseen .bundler none) fun r absent => ?_
    rw [absent]
    exact Prog.leaves_ret trivial
  · exact Prog.leaves_ret trivial

theorem leaves_evidenceWithout (txHash : Option Hash) :
    (evidenceWithout none row txHash).Leaves exec w fun r => r = none := by
  unfold evidenceWithout
  split
  · refine Prog.leaves_bind (leaves_receiptOf unseen row.submissionTransport txHash) fun r absent => ?_
    rw [absent]
    exact Prog.leaves_ret rfl
  · exact Prog.leaves_ret rfl

/-- The branch of the expired payments waits. -/
theorem leaves_closeUnlanded (q : RequestId) :
    (closeUnlanded q row).Leaves exec w fun closed => closed = false := by
  unfold closeUnlanded
  refine Prog.leaves_bind (Prog.leaves_perform (R := fun _ => True) ?_ trivial) fun now _ => ?_
  · rw [unseen.now]
  split
  · obtain ⟨reads, answers⟩ := unseen.covered (row.expiresAt + expiryMarginMs)
    refine Prog.leaves_bind (R := fun reply : Except String Bool => ∀ c, reply = .ok c → c = false)
      (Prog.leaves_perform reads answers) fun reply found => ?_
    refine Prog.leaves_bind (Prog.leaves_ofExcept found) fun covered waiting => ?_
    rw [waiting]
    exact Prog.leaves_ret rfl
  · exact Prog.leaves_ret rfl

/-- A pass over a payment that was never seen leaves everything as it is. -/
theorem leaves_reconcileOne (q : RequestId) :
    (reconcileOne q row).Leaves exec w fun closed => closed = false := by
  unfold reconcileOne
  obtain ⟨reads, answers⟩ := unseen.canonical
  refine Prog.leaves_bind
    (R := fun reply : Except String (Option CanonicalUserOperation) => ∀ c, reply = .ok c → c = none)
    (Prog.leaves_perform reads answers) fun reply found => ?_
  refine Prog.leaves_bind (Prog.leaves_ofExcept found) fun canonical absent => ?_
  rw [absent]
  refine Prog.leaves_bind (leaves_discoverTransaction unseen q _) fun txHash _ => ?_
  -- without canonical evidence no logs are fetched
  refine Prog.leaves_bind (R := fun _ => True) (Prog.leaves_ret trivial) fun _ _ => ?_
  refine Prog.leaves_bind (leaves_evidenceWithout unseen txHash) fun direct none => ?_
  rw [none]
  exact leaves_closeUnlanded unseen q

end Pass

/-! ### The reconciler and the journal -/

theorem deliver_reads {α : Type} (x : Outcome) (w : World) (a : α) :
    (PayOp.deliver x w (a, w)).2 = w ∧ ∀ c, (PayOp.deliver x w (a, w)).1 = .ok c → c = a := by
  cases x with
  | done =>
    refine ⟨rfl, fun c same => ?_⟩
    cases same
    rfl
  | lost m => exact ⟨rfl, fun c same => by cases same⟩
  | unacknowledged m => exact ⟨rfl, fun c same => by cases same⟩

/-- A payment without an event, in a world that sees a journal of the writers, is one that
was never seen. -/
theorem unseen_of_sees {timestampOf : ChainId → BlockHash → Option Timestamp} {db : Db}
    {chainId : ChainId} {w : World} {h : Hash} (own : CheckpointsOfWriters db)
    (sees : w.Sees timestampOf db chainId) (unseen : getCanonicalUserOperation db h = none)
    (i : Nat) (answer : PayOp → World → Answer) (silent : ∀ o w, (answer o w).receipt = none) :
    Unseen (fun o w => PayOp.exec i o (answer o w) w) w h where
  now := rfl
  canonical := by
    obtain ⟨stays, answers⟩ := deliver_reads (answer (.selectCanonical h) w).outcome w (w.canonical h)
    refine ⟨stays, fun c same => (answers c same).trans ?_⟩
    rw [sees.canonical, unseen]
  covered past := by
    obtain ⟨stays, answers⟩ :=
      deliver_reads (answer (.selectCovered past) w).outcome w (w.coveredUntil.any (past ≤ ·))
    refine ⟨stays, fun c same => (answers c same).trans ?_⟩
    rw [sees.covered, not_coveredPast timestampOf own]
  receipt mode txHash := by
    have none := silent (.receipt mode h txHash) w
    constructor
    · show PayOp.shown (answer (.receipt mode h txHash) w) w h = w
      unfold PayOp.shown
      rw [none]
      split
      · rename_i absurd'
        cases absurd'
      · rfl
    · intro r same
      have same : PayOp.call (answer (.receipt mode h txHash) w)
        (answer (.receipt mode h txHash) w).receipt = .ok r := same
      unfold PayOp.call at same
      rw [none] at same
      split at same
      · cases same
      · cases same
        rfl

/-- What the reconciler does to a world, alone. -/
def afterReconcileOne (i : Nat) (answer : PayOp → World → Answer) (q : RequestId) (row : PendingPayment)
    (w : World) : World :=
  ((reconcileOne q row).alone (fun o w => PayOp.exec i o (answer o w) w) w).2

theorem not_closed {w : World} {row : PendingPayment} (pending : w.payment? row.userOpHash = some row)
    (open_ : row.status = .submitting ∨ row.status = .submitted) : ¬ w.GivenUp row := by
  intro closed
  have failed := closed.1 row pending
  rcases open_ with status | status
  · rw [status] at failed
    cases failed
  · rw [status] at failed
    cases failed

/-- A pending payment whose operation was never seen is closed when its shards are past a
time, and left alone while they are not, exactly if they are not: it is never closed. -/
theorem closes_when_covered_iff (timestampOf : ChainId → BlockHash → Option Timestamp)
    (history : List JournalAction) (written : ∀ action ∈ history, Written action)
    (chainId : ChainId) (shards : List Nat) (time : Timestamp) (w : World) (row : PendingPayment)
    (sees : w.Sees timestampOf (Server.journal.run Db.initial history) chainId)
    (pending : w.payment? row.userOpHash = some row)
    (open_ : row.status = .submitting ∨ row.status = .submitted)
    (unseen : getCanonicalUserOperation (Server.journal.run Db.initial history) row.userOpHash = none)
    (q i : Nat) (answer : PayOp → World → Answer) (silent : ∀ o w, (answer o w).receipt = none) :
    ClosesWhenCovered
        (CoveredByShards timestampOf (Server.journal.run Db.initial history) chainId shards time)
        w (afterReconcileOne i answer q row w) row ↔
      ∃ shardId ∈ shards, ∀ t,
        streamTime timestampOf (Server.journal.run Db.initial history) chainId
            ((JournalWriter.userOperationWatcher shardId).stream chainId) = some t →
          t < time := by
  have own := checkpointsOfWriters_run written
  have stays : afterReconcileOne i answer q row w = w :=
    (leaves_reconcileOne (unseen_of_sees own sees unseen i answer silent) q).1
  have uncovered : (∃ shardId ∈ shards, ∀ t,
      streamTime timestampOf (Server.journal.run Db.initial history) chainId
          ((JournalWriter.userOperationWatcher shardId).stream chainId) = some t → t < time) ↔
      ¬ CoveredByShards timestampOf (Server.journal.run Db.initial history) chainId shards time := by
    simp only [CoveredByShards, not_forall, not_exists, not_and, Nat.not_le, exists_prop]
  rw [uncovered, stays]
  constructor
  · exact fun closing covered => not_closed pending open_ (closing.closes covered)
  · exact fun waiting => ⟨fun covered => absurd covered waiting, fun _ => ⟨rfl, rfl⟩⟩

/-! ### A covered shard -/

/-- The watcher of shard 0 has come to a block. -/
def shardZero : List JournalAction :=
  [.journal
    { stream := (JournalWriter.userOperationWatcher 0).stream 421614, expectedReorgEpoch := 0
      block := { chainId := 421614, blockNumber := 10, blockHash := 5 }
      events := [], userOperationReceipts := [] }]

theorem written_shardZero : ∀ action ∈ shardZero, Written action := by
  intro action ha
  obtain rfl := List.mem_singleton.1 ha
  exact ⟨.userOperationWatcher 0, rfl⟩

/-- A payment that expired at 1000. -/
def expiredRow : PendingPayment where
  userOpHash := 7
  uid := 1
  chainKey := "arbitrum-sepolia"
  linkId := none
  paymentAttemptId := none
  senderAddress := 3
  amount := "1"
  currency := "USDC"
  opId := none
  status := .submitted
  submittedTxHash := none
  submissionTransport := .self
  submittedAt := none
  submissionAttemptCount := 1
  lastSubmissionErrorCode := none
  createdAt := 0
  expiresAt := 1000

/-- The world in which it waits, with the journal of shard 0. -/
def waiting : World :=
  { World.initial 900000 with
    pending := Table.empty.insertOrIgnore expiredRow
    canonical := getCanonicalUserOperation (Server.journal.run Db.initial shardZero) }

theorem sees_waiting (timestampOf : ChainId → BlockHash → Option Timestamp) :
    waiting.Sees timestampOf (Server.journal.run Db.initial shardZero) 421614 where
  canonical := rfl
  covered _ := (not_coveredPast timestampOf (checkpointsOfWriters_run written_shardZero) _ _).symm

theorem unseen_shardZero :
    getCanonicalUserOperation (Server.journal.run Db.initial shardZero) expiredRow.userOpHash = none :=
  rfl

theorem pending_waiting : waiting.payment? expiredRow.userOpHash = some expiredRow := rfl

/-- While shard 1 has covered nothing, the payment rightly waits. -/
theorem closes_when_covered_waiting :
    ClosesWhenCovered
      (CoveredByShards (fun _ _ => some 800000) (Server.journal.run Db.initial shardZero) 421614
        [0, 1] 301000)
      waiting (afterReconcileOne 0 (fun _ _ => {}) 0 expiredRow waiting) expiredRow := by
  refine (closes_when_covered_iff (fun _ _ => some 800000) shardZero written_shardZero 421614 [0, 1]
    301000 waiting expiredRow (sees_waiting _) pending_waiting (.inr rfl) unseen_shardZero 0 0
    (fun _ _ => {}) fun _ _ => rfl).2 ⟨1, by decide, fun t found => ?_⟩
  have absent : streamTime (fun _ _ => some 800000) (Server.journal.run Db.initial shardZero) 421614
      ((JournalWriter.userOperationWatcher 1).stream 421614) = none := by decide +kernel
  rw [absent] at found
  cases found

/-- Every responsible shard is past the expiry, and the payment is not closed. -/
theorem covered_not_closed :
    CoveredByShards (fun _ _ => some 800000) (Server.journal.run Db.initial shardZero) 421614 [0]
        (expiredRow.expiresAt + expiryMarginMs) ∧
      waiting.Sees (fun _ _ => some 800000) (Server.journal.run Db.initial shardZero) 421614 ∧
      expiredRow.expiresAt + expiryMarginMs < waiting.clock ∧
      getCanonicalUserOperation (Server.journal.run Db.initial shardZero) 7 = none ∧
      ¬ (afterReconcileOne 0 (fun _ _ => {}) 0 expiredRow waiting).GivenUp expiredRow := by
  refine ⟨?_, sees_waiting _, by decide, unseen_shardZero, ?_⟩
  · intro shardId hshard
    obtain rfl := List.mem_singleton.1 hshard
    exact ⟨800000, by decide +kernel, by decide⟩
  · have stays : afterReconcileOne 0 (fun _ _ => {}) 0 expiredRow waiting = waiting :=
      (leaves_reconcileOne (unseen_of_sees (checkpointsOfWriters_run written_shardZero)
        (sees_waiting fun _ _ => none) unseen_shardZero 0 (fun _ _ => {}) fun _ _ => rfl) 0).1
    rw [stays]
    exact not_closed pending_waiting (.inr rfl)

end ParmeliaLinks.Pay
