/-
ParmeliaLinks/Server/ChainJournal.lean

The journal of a chain.  One batch writes a block, its events, the receipts of
user operations in it and the checkpoint of the stream; it goes through as a
whole or not at all, and not at all once the chain has had a recovery that the
writer does not know of.

The partial unique indexes never make a batch fail: each statement first takes out
of the index what would stand in its way (`journalBlock_ok`, `journalEvent_ok`,
`of_journalReceipt_error`).  What the batch does not take back are the events and
receipts of a block that loses its height to another one: they stay canonical
unless they occur again.
-/
import ParmeliaLinks.Lib.Contract
import ParmeliaLinks.Server.Reorg

namespace ParmeliaLinks.Server

/-! ### What is journaled -/

/-- The part of an event that concerns the balance of one user. -/
structure JournalEventAccount where
  uid : Uid
  accountAddress : Address
  asset : Asset
  deltaRaw : Option Int

structure JournalEvent where
  txHash : TxHash
  logIndex : Nat
  eventKind : EventKind
  blockNumber : BlockNumber
  blockHash : BlockHash
  canonical : Bool
  accounts : List JournalEventAccount

structure JournalUserOperationReceipt where
  userOpHash : UserOpHash
  txHash : TxHash
  logIndex : Nat
  blockNumber : BlockNumber
  blockHash : BlockHash
  success : Bool

structure JournalBlock where
  chainId : ChainId
  blockNumber : BlockNumber
  blockHash : BlockHash

structure JournalInput where
  stream : Text
  block : JournalBlock
  events : List JournalEvent
  userOperationReceipts : List JournalUserOperationReceipt
  expectedReorgEpoch : Nat

/-- `chainEventId`. -/
def JournalEvent.id (event : JournalEvent) (chainId : ChainId) : EventId :=
  { chainId, txHash := event.txHash, logIndex := event.logIndex, eventKind := event.eventKind }

def JournalUserOperationReceipt.id (receipt : JournalUserOperationReceipt) (chainId : ChainId) :
    EventId :=
  { chainId, txHash := receipt.txHash, logIndex := receipt.logIndex, eventKind := .userOperation }

/-- What makes a batch fail: its input, the epoch guard, a foreign key, or a unique index. -/
inductive JournalError
  | eventsFromDifferentBlock
  | evidenceFromDifferentBlock
  | chainEpochGuardInvalid
  | chainReorgEpochStale
  | foreignKey
  | chainBlocksCanonicalHeight
  | chainEventsCanonicalIdentity
  | receiptsCanonicalHash
  | receiptsOccurrence
  deriving DecidableEq

/-! ### The guard of the epoch -/

/-- `Number.MAX_SAFE_INTEGER`. -/
def maxSafeInteger : Nat := 2 ^ 53 - 1

/-- A batch carries a guard that fails it once the chain is in another epoch. -/
def chainEpochGuard (chainId : ChainId) (expectedEpoch : Nat) (db : Db) :
    Except JournalError Unit := do
  revertIf (¬ (1 ≤ chainId ∧ chainId ≤ maxSafeInteger ∧ expectedEpoch ≤ maxSafeInteger))
    .chainEpochGuardInvalid
  revertIf (db.getChainReorgEpoch chainId ≠ expectedEpoch) .chainReorgEpochStale

theorem epoch_of_chainEpochGuard {chainId : ChainId} {expectedEpoch : Nat} {db : Db} {u : Unit}
    (h : chainEpochGuard chainId expectedEpoch db = .ok u) :
    db.getChainReorgEpoch chainId = expectedEpoch := by
  obtain ⟨-, h⟩ := revertIf_bind_eq_ok.1 h
  exact not_not.1 (revertIf_eq_ok.1 h)

/-! ### The statements of the batch -/

/-- Take another block off the height. -/
def demoteBlocks (block : JournalBlock) (blocks : Table ChainBlock) : Table ChainBlock :=
  blocks.release
    (fun r => r.chainId == block.chainId && r.blockNumber == block.blockNumber &&
      r.blockHash != block.blockHash && r.canonical)
    (fun r => { r with canonical := false }) freesKeys_chainBlock

/-- The row of a block. -/
def JournalBlock.row (block : JournalBlock) : ChainBlock :=
  { chainId := block.chainId, blockNumber := block.blockNumber, blockHash := block.blockHash
    canonical := true }

/-- Put a block on its height. -/
def journalBlock (block : JournalBlock) (blocks : Table ChainBlock) :
    Except JournalError (Table ChainBlock) :=
  let inserted := (demoteBlocks block blocks).insertOrIgnore block.row
  orRevert .chainBlocksCanonicalHeight (inserted.update
    (fun r => r.chainId == block.chainId && r.blockNumber == block.blockNumber &&
      r.blockHash == block.blockHash)
    (fun r => { r with canonical := true }))

/-- A canonical occurrence of an event takes the place of those in other blocks. -/
def demoteEvents (block : JournalBlock) (event : JournalEvent) (events : Table ChainEvent) :
    Table ChainEvent :=
  events.release
    (fun r => event.canonical && r.eventId == event.id block.chainId &&
      r.blockHash != event.blockHash && r.canonical)
    (fun r => { r with canonical := false }) freesKeys_chainEvent

/-- The row of an event. -/
def JournalEvent.row (event : JournalEvent) (chainId : ChainId) : ChainEvent :=
  { eventId := event.id chainId, blockNumber := event.blockNumber, blockHash := event.blockHash
    canonical := event.canonical }

/-- Journal an occurrence of an event. -/
def journalEvent (block : JournalBlock) (events : Table ChainEvent) (event : JournalEvent) :
    Except JournalError (Table ChainEvent) :=
  let inserted := (demoteEvents block event events).insertOrIgnore (event.row block.chainId)
  orRevert .chainEventsCanonicalIdentity (inserted.update
    (fun r => r.eventId == event.id block.chainId && r.blockHash == event.blockHash)
    (fun r => { r with canonical := event.canonical }))

/-- The row of a receipt. -/
def JournalUserOperationReceipt.row (receipt : JournalUserOperationReceipt) (chainId : ChainId) :
    UserOperationReceipt :=
  { chainId, userOpHash := receipt.userOpHash, txHash := receipt.txHash
    logIndex := receipt.logIndex, blockNumber := receipt.blockNumber
    blockHash := receipt.blockHash, success := receipt.success, canonical := true }

/-- The rows with the primary key of a receipt. -/
def JournalUserOperationReceipt.hasKey (receipt : JournalUserOperationReceipt) (chainId : ChainId)
    (r : UserOperationReceipt) : Bool :=
  r.chainId == chainId && r.userOpHash == receipt.userOpHash && r.blockHash == receipt.blockHash

/-- The index that a receipt collides on, next to the row that it replaces. -/
def receiptCollision (receipt : JournalUserOperationReceipt) (chainId : ChainId)
    (receipts : Table UserOperationReceipt) : JournalError :=
  if receipts.any fun r => !receipt.hasKey chainId r && r.sameOperation (receipt.row chainId) then
    .receiptsCanonicalHash
  else .receiptsOccurrence

/-- An occurrence of a user operation takes the place of those in other blocks. -/
def demoteReceipts (block : JournalBlock) (receipt : JournalUserOperationReceipt)
    (receipts : Table UserOperationReceipt) : Table UserOperationReceipt :=
  receipts.release
    (fun r => r.chainId == block.chainId && r.userOpHash == receipt.userOpHash &&
      r.blockHash != receipt.blockHash && r.canonical)
    (fun r => { r with canonical := false }) freesKeys_receipt

/-- Journal an occurrence of a user operation. -/
def journalReceipt (block : JournalBlock) (events : Table ChainEvent)
    (receipts : Table UserOperationReceipt) (receipt : JournalUserOperationReceipt) :
    Except JournalError (Table UserOperationReceipt) := do
  let demoted := demoteReceipts block receipt receipts
  revertIf (events.any (fun e => e.eventId == receipt.id block.chainId &&
    e.blockHash == receipt.blockHash) = false) .foreignKey
  orRevert (receiptCollision receipt block.chainId demoted)
    (if demoted.any (receipt.hasKey block.chainId) then
      demoted.update (receipt.hasKey block.chainId) (fun _ => receipt.row block.chainId)
    else demoted.insert (receipt.row block.chainId))

/-- Move the checkpoint of a stream, never back. -/
def advanceCheckpoint (input : JournalInput) (checkpoints : Table StreamCheckpoint) :
    Table StreamCheckpoint :=
  let block := input.block
  checkpoints.upsert
    { chainId := block.chainId, stream := input.stream, blockNumber := block.blockNumber
      blockHash := block.blockHash, reorgEpoch := input.expectedReorgEpoch }
    (fun r =>
      if r.blockNumber < block.blockNumber ∨
          (r.blockNumber = block.blockNumber ∧ r.blockHash = block.blockHash) then
        { r with blockNumber := block.blockNumber, blockHash := block.blockHash
                 reorgEpoch := input.expectedReorgEpoch }
      else r)
    (by
      constructor
      intro r r'
      split <;> rfl)

/-- The batch. -/
def journalBlockEvents (input : JournalInput) (db : Db) : Except JournalError Db := do
  let block := input.block
  revertIf (input.events.any (fun event => event.blockNumber != block.blockNumber ||
    event.blockHash != block.blockHash) = true) .eventsFromDifferentBlock
  revertIf (input.userOperationReceipts.any (fun receipt =>
    receipt.blockNumber != block.blockNumber || receipt.blockHash != block.blockHash) = true)
    .evidenceFromDifferentBlock
  chainEpochGuard block.chainId input.expectedReorgEpoch db
  let chainBlocks ← journalBlock block db.chainBlocks
  let chainEvents ← input.events.foldlM (journalEvent block) db.chainEvents
  let receipts ← input.userOperationReceipts.foldlM (journalReceipt block chainEvents) db.receipts
  return { db with chainBlocks, chainEvents, receipts
                   checkpoints := advanceCheckpoint input db.checkpoints }

/-! ### Histories -/

/-- What happens to the journal: batches of any stream, and recoveries. -/
inductive JournalAction
  | journal (input : JournalInput)
  | rollback (chainId : ChainId) (ancestor : BlockNumber) (ancestorHash : BlockHash)

def journal : Contract Db JournalAction JournalError where
  exec
    | .journal input, db => journalBlockEvents input db
    | .rollback chainId ancestor ancestorHash, db => .ok (rollback chainId ancestor ancestorHash db)

/-! ### A block on its height -/

section Block

variable {block : JournalBlock} {blocks blocks' : Table ChainBlock}

theorem mem_demoteBlocks {r : ChainBlock} (h : r ∈ demoteBlocks block blocks)
    (canonical : r.canonical = true) :
    r ∈ blocks ∧ (r.chainId = block.chainId → r.blockNumber = block.blockNumber →
      r.blockHash = block.blockHash) := by
  obtain ⟨⟨hr, -⟩, kept⟩ :=
    (Table.mem_and_flag ChainBlock.canonical rfl fun _ => rfl).1 ⟨h, canonical⟩
  refine ⟨hr, fun chain number => ?_⟩
  simpa [chain, number, canonical] using kept

/-- Putting a block on its height never fails. -/
theorem journalBlock_ok (block : JournalBlock) (blocks : Table ChainBlock) :
    ∃ blocks', journalBlock block blocks = .ok blocks' := by
  have := Table.update_eq_some_of_key
    (t := (demoteBlocks block blocks).insertOrIgnore block.row)
    (p := fun r => r.chainId == block.chainId && r.blockNumber == block.blockNumber &&
      r.blockHash == block.blockHash)
    (f := fun r => { r with canonical := true }) ?_ ?_
  · obtain ⟨blocks', h⟩ := this
    exact ⟨blocks', orRevert_eq_ok.2 h⟩
  · intro r _ r' _ hp hp'
    simp only [Bool.and_eq_true, beq_iff_eq] at hp hp'
    simp [Row.clash, hp, hp']
  · intro r _ r' hr' hp hp'
    simp only [Bool.and_eq_true, beq_iff_eq] at hp
    -- a canonical row of the height is the block's own
    rcases Table.mem_or_eq_of_mem_insertOrIgnore hr' with hr' | rfl
    · rw [← Bool.not_eq_true]
      intro clash
      simp only [Row.clash, hp, Bool.and_eq_true, Bool.or_eq_true, beq_iff_eq] at clash
      obtain ⟨⟨chain, number⟩, hash | ⟨-, canonical⟩⟩ := clash
      · simp [← chain, ← number, ← hash] at hp'
      · have hash := (mem_demoteBlocks hr' canonical).2 chain.symm number.symm
        simp [← chain, ← number, hash] at hp'
    · simp [JournalBlock.row] at hp'

/-- The block is on its height. -/
theorem row_mem_journalBlock (h : journalBlock block blocks = .ok blocks') :
    block.row ∈ blocks' := by
  have rows := Table.update_rows (orRevert_eq_ok.1 h)
  -- the row that was there, or the one that was inserted
  obtain ⟨r, hr, chain, number, hash⟩ : ∃ r ∈ (demoteBlocks block blocks).insertOrIgnore block.row,
      r.chainId = block.chainId ∧ r.blockNumber = block.blockNumber ∧
        r.blockHash = block.blockHash := by
    by_cases fits : (demoteBlocks block blocks).Fits block.row
    · refine ⟨block.row, ?_, rfl, rfl, rfl⟩
      exact (Table.mem_of_rows_append (Table.insertOrIgnore_rows_of_fits fits)).2 (.inr rfl)
    · rw [Table.insertOrIgnore_of_not_fits fits]
      simp only [Table.Fits, not_forall] at fits
      obtain ⟨r, hr, clash⟩ := fits
      simp only [Row.clash, JournalBlock.row, Bool.not_eq_false, Bool.and_eq_true,
        Bool.or_eq_true, beq_iff_eq] at clash
      obtain ⟨⟨chain, number⟩, hash | ⟨canonical, -⟩⟩ := clash
      · exact ⟨r, hr, chain, number, hash⟩
      · exact ⟨r, hr, chain, number, (mem_demoteBlocks hr canonical).2 chain number⟩
  refine (Table.mem_of_rewritten rows).2 ⟨r, hr, ?_⟩
  rw [if_pos (by simp [chain, number, hash]), JournalBlock.row, ← chain, ← number, ← hash]

/-- Blocks of other heights stay where they are. -/
theorem mem_journalBlock_of_mem (h : journalBlock block blocks = .ok blocks') {r : ChainBlock}
    (hr : r ∈ blocks) (other : ¬ (r.chainId = block.chainId ∧ r.blockNumber = block.blockNumber)) :
    r ∈ blocks' := by
  have rows := Table.update_rows (orRevert_eq_ok.1 h)
  refine (Table.mem_of_rewritten rows).2 ⟨r, ?_, ?_⟩
  · apply Table.mem_insertOrIgnore_of_mem
    refine Table.mem_release.2 ⟨r, hr, if_neg fun found => other ?_⟩
    simp only [Bool.and_eq_true, beq_iff_eq] at found
    exact found.1.1
  · refine if_neg fun found => other ?_
    simp only [Bool.and_eq_true, beq_iff_eq] at found
    exact found.1

end Block

/-! ### Occurrences of an event -/

section Event

variable {block : JournalBlock} {event : JournalEvent} {events events' : Table ChainEvent}
  {r : ChainEvent}

theorem mem_demoteEvents (h : r ∈ demoteEvents block event events)
    (canonical : r.canonical = true) :
    r ∈ events ∧ (event.canonical = true → r.eventId = event.id block.chainId →
      r.blockHash = event.blockHash) := by
  obtain ⟨⟨hr, -⟩, kept⟩ :=
    (Table.mem_and_flag ChainEvent.canonical rfl fun _ => rfl).1 ⟨h, canonical⟩
  refine ⟨hr, fun taken id => ?_⟩
  simpa [taken, id, canonical] using kept

/-- Journaling an event never fails. -/
theorem journalEvent_ok (block : JournalBlock) (events : Table ChainEvent)
    (event : JournalEvent) : ∃ events', journalEvent block events event = .ok events' := by
  have := Table.update_eq_some_of_key
    (t := (demoteEvents block event events).insertOrIgnore (event.row block.chainId))
    (p := fun r => r.eventId == event.id block.chainId && r.blockHash == event.blockHash)
    (f := fun r => { r with canonical := event.canonical }) ?_ ?_
  · obtain ⟨events', h⟩ := this
    exact ⟨events', orRevert_eq_ok.2 h⟩
  · intro r _ r' _ hp hp'
    simp only [Bool.and_eq_true, beq_iff_eq] at hp hp'
    simp [Row.clash, hp, hp']
  · intro r _ r' hr' hp hp'
    simp only [Bool.and_eq_true, beq_iff_eq] at hp
    rcases Table.mem_or_eq_of_mem_insertOrIgnore hr' with hr' | rfl
    · rw [← Bool.not_eq_true]
      intro clash
      simp only [Row.clash, hp, Bool.and_eq_true, Bool.or_eq_true, beq_iff_eq] at clash
      obtain ⟨id, hash | ⟨taken, canonical⟩⟩ := clash
      · simp [← id, ← hash] at hp'
      · have hash := (mem_demoteEvents hr' canonical).2 taken id.symm
        simp [← id, hash] at hp'
    · simp [JournalEvent.row] at hp'

/-- Every row was there before, or is the occurrence. -/
theorem of_mem_journalEvent (h : journalEvent block events event = .ok events')
    (hr : r ∈ events') :
    (∃ r₀ ∈ events, r₀.eventId = r.eventId ∧ r₀.blockNumber = r.blockNumber ∧
        r₀.blockHash = r.blockHash) ∨
      (r.eventId = event.id block.chainId ∧ r.blockNumber = event.blockNumber ∧
        r.blockHash = event.blockHash) := by
  have rows := Table.update_rows (orRevert_eq_ok.1 h)
  obtain ⟨r₁, hr₁, rfl⟩ := (Table.mem_of_rewritten rows).1 hr
  rcases Table.mem_or_eq_of_mem_insertOrIgnore hr₁ with hr₁ | rfl
  · obtain ⟨r₀, hr₀, rfl⟩ := Table.mem_release.1 hr₁
    refine .inl ⟨r₀, hr₀, ?_⟩
    split <;> split <;> exact ⟨rfl, rfl, rfl⟩
  · right
    split <;> exact ⟨rfl, rfl, rfl⟩

/-- Every row that was there is, and in its block. -/
theorem exists_mem_journalEvent (h : journalEvent block events event = .ok events')
    (hr : r ∈ events) :
    ∃ r' ∈ events', r'.eventId = r.eventId ∧ r'.blockHash = r.blockHash ∧
      r'.blockNumber = r.blockNumber := by
  have rows := Table.update_rows (orRevert_eq_ok.1 h)
  have demoted : _ ∈ demoteEvents block event events :=
    (Table.mem_of_rewritten rfl).2 ⟨r, hr, rfl⟩
  refine ⟨_, (Table.mem_of_rewritten rows).2 ⟨_, Table.mem_insertOrIgnore_of_mem demoted, rfl⟩, ?_⟩
  split <;> split <;> exact ⟨rfl, rfl, rfl⟩

/-- A row that is canonical was so before, and is no other occurrence of a canonical event,
or it is the occurrence. -/
theorem canonical_of_mem_journalEvent (h : journalEvent block events event = .ok events')
    (hr : r ∈ events') (canonical : r.canonical = true) :
    (r ∈ events ∧ (event.canonical = true → r.eventId = event.id block.chainId →
        r.blockHash = event.blockHash)) ∨
      (r.eventId = event.id block.chainId ∧ r.blockHash = event.blockHash) := by
  have rows := Table.update_rows (orRevert_eq_ok.1 h)
  obtain ⟨r₁, hr₁, rfl⟩ := (Table.mem_of_rewritten rows).1 hr
  split
  · rename_i own
    simp only [Bool.and_eq_true, beq_iff_eq] at own
    exact .inr own
  · rename_i other
    rw [if_neg other] at canonical
    rcases Table.mem_or_eq_of_mem_insertOrIgnore hr₁ with hr₁ | rfl
    · exact .inl (mem_demoteEvents hr₁ canonical)
    · simp [JournalEvent.row] at other

end Event

/-! ### Occurrences of a user operation -/

section Receipt

variable {block : JournalBlock} {events : Table ChainEvent}
  {receipt : JournalUserOperationReceipt} {receipts receipts' : Table UserOperationReceipt}
  {r : UserOperationReceipt}

theorem mem_demoteReceipts (h : r ∈ demoteReceipts block receipt receipts)
    (canonical : r.canonical = true) :
    r ∈ receipts ∧ (r.chainId = block.chainId → r.userOpHash = receipt.userOpHash →
      r.blockHash = receipt.blockHash) := by
  obtain ⟨⟨hr, -⟩, kept⟩ :=
    (Table.mem_and_flag UserOperationReceipt.canonical rfl fun _ => rfl).1 ⟨h, canonical⟩
  refine ⟨hr, fun chain operation => ?_⟩
  simpa [chain, operation, canonical] using kept

/-- No other receipt of the operation stands in the way of the one that is journaled. -/
theorem receiptCollision_demoteReceipts (block : JournalBlock)
    (receipt : JournalUserOperationReceipt) (receipts : Table UserOperationReceipt) :
    receiptCollision receipt block.chainId (demoteReceipts block receipt receipts) =
      .receiptsOccurrence := by
  refine if_neg fun found => ?_
  obtain ⟨r, hr, same⟩ := Table.any_eq_true.1 found
  simp only [UserOperationReceipt.sameOperation, JournalUserOperationReceipt.row,
    JournalUserOperationReceipt.hasKey, Bool.and_eq_true, Bool.or_eq_true, beq_iff_eq,
    Bool.not_eq_true', Bool.and_true] at same
  obtain ⟨noKey, ⟨chain, operation⟩, hash | canonical⟩ := same
  · simp [chain, operation, hash] at noKey
  · have hash := (mem_demoteReceipts hr canonical).2 chain operation
    simp [chain, operation, hash] at noKey

/-- A receipt fails on the foreign key or because two receipts are of one log. -/
theorem of_journalReceipt_error {e : JournalError}
    (h : journalReceipt block events receipts receipt = .error e) :
    e = .foreignKey ∨ e = .receiptsOccurrence := by
  rcases bind_eq_error.1 h with h | ⟨_, -, h⟩
  · exact .inl (revertIf_eq_error.1 h).2.symm
  · right
    rw [← (orRevert_eq_error.1 h).2, receiptCollision_demoteReceipts]

/-- A canonical receipt was so before, and is of no other occurrence of the operation, or it
is the one that was journaled. -/
theorem canonical_of_mem_journalReceipt
    (h : journalReceipt block events receipts receipt = .ok receipts') (hr : r ∈ receipts')
    (canonical : r.canonical = true) :
    (r ∈ receipts ∧ (r.chainId = block.chainId → r.userOpHash = receipt.userOpHash →
        r.blockHash = receipt.blockHash)) ∨
      r = receipt.row block.chainId := by
  obtain ⟨-, h⟩ := revertIf_bind_eq_ok.1 h
  have written := orRevert_eq_ok.1 h
  split at written
  · obtain ⟨r₀, hr₀, rfl⟩ := (Table.mem_of_rewritten (Table.update_rows written)).1 hr
    split
    · exact .inr rfl
    · rename_i other
      rw [if_neg other] at canonical
      exact .inl (mem_demoteReceipts hr₀ canonical)
  · rcases (Table.mem_of_rows_append (Table.insert_rows written).1).1 hr with hr | rfl
    · exact .inl (mem_demoteReceipts hr canonical)
    · exact .inr rfl

end Receipt

end ParmeliaLinks.Server
