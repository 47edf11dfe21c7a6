/-
ParmeliaLinks/Server/JournalCanonicality.lean

The journal over its histories.  The unique indexes hold and no batch fails on one
of them, whatever is observed.  That a canonical event lies in a canonical block is
another matter: the block that takes a height over demotes the other block, and
only those of its events and receipts that it has itself.  A history in which
they all occur again (`Reoccurs`) keeps the three tables in agreement.
-/
import ParmeliaLinks.Server.ChainJournal

namespace ParmeliaLinks.Server

/-! ### Histories -/

/-- One canonical block a height, one occurrence an event, one receipt a user operation. -/
structure CanonicalOnce (db : Db) : Prop where
  block : ∀ r ∈ db.chainBlocks, ∀ r' ∈ db.chainBlocks, r.canonical = true → r'.canonical = true →
    r.chainId = r'.chainId → r.blockNumber = r'.blockNumber → r = r'
  event : ∀ r ∈ db.chainEvents, ∀ r' ∈ db.chainEvents, r.canonical = true → r'.canonical = true →
    r.eventId = r'.eventId → r = r'
  receipt : ∀ r ∈ db.receipts, ∀ r' ∈ db.receipts, r.canonical = true → r'.canonical = true →
    r.chainId = r'.chainId → r.userOpHash = r'.userOpHash → r = r'

/-- The block is journaled, and canonical. -/
def Db.CanonicalBlock (db : Db) (chainId : ChainId) (number : BlockNumber) (hash : BlockHash) :
    Prop :=
  { chainId, blockNumber := number, blockHash := hash, canonical := true } ∈ db.chainBlocks

/-- What is canonical lies in a canonical block. -/
structure Consistent (db : Db) : Prop where
  event : ∀ r ∈ db.chainEvents, r.canonical = true →
    db.CanonicalBlock r.eventId.chainId r.blockNumber r.blockHash
  receipt : ∀ r ∈ db.receipts, r.canonical = true →
    db.CanonicalBlock r.chainId r.blockNumber r.blockHash

/-- What is canonical at the height of a batch, in another block, occurs in the batch again;
and the block has been journaled at no other height. -/
structure ReoccursAt (input : JournalInput) (db : Db) : Prop where
  event : ∀ r ∈ db.chainEvents, r.canonical = true → r.eventId.chainId = input.block.chainId →
    r.blockNumber = input.block.blockNumber → r.blockHash ≠ input.block.blockHash →
    ∃ event ∈ input.events, event.canonical = true ∧ event.id input.block.chainId = r.eventId
  receipt : ∀ r ∈ db.receipts, r.canonical = true → r.chainId = input.block.chainId →
    r.blockNumber = input.block.blockNumber → r.blockHash ≠ input.block.blockHash →
    ∃ receipt ∈ input.userOperationReceipts, receipt.userOpHash = r.userOpHash
  height : ∀ r ∈ db.chainEvents, r.eventId.chainId = input.block.chainId →
    r.blockHash = input.block.blockHash → r.blockNumber = input.block.blockNumber

/-- The condition on a step: a batch that knows of every recovery replaces no event or receipt
that it does not have. -/
def Reoccurs : JournalAction → Db → Prop
  | .journal input, db =>
    db.getChainReorgEpoch input.block.chainId = input.expectedReorgEpoch → ReoccursAt input db
  | .rollback _ _ _, _ => True

/-! ### Uniqueness -/

theorem canonicalOnce (db : Db) : CanonicalOnce db where
  block r hr r' hr' canonical canonical' chain number := by
    apply Table.eq_of_clash hr hr'
    simp [Row.clash, chain, number, canonical, canonical']
  event r hr r' hr' canonical canonical' id := by
    apply Table.eq_of_clash hr hr'
    simp [Row.clash, id, canonical, canonical']
  receipt r hr r' hr' canonical canonical' chain operation := by
    apply Table.eq_of_clash hr hr'
    simp [Row.clash, UserOperationReceipt.sameOperation, chain, operation, canonical, canonical']

variable {input : JournalInput} {db db' : Db}

/-- What a batch can fail on. -/
theorem of_journalBlockEvents_error {e : JournalError}
    (h : journalBlockEvents input db = .error e) :
    e = .eventsFromDifferentBlock ∨ e = .evidenceFromDifferentBlock ∨
      e = .chainEpochGuardInvalid ∨ e = .chainReorgEpochStale ∨ e = .foreignKey ∨
      e = .receiptsOccurrence := by
  rcases bind_eq_error.1 h with h | ⟨_, -, h⟩
  · exact .inl (revertIf_eq_error.1 h).2.symm
  rcases bind_eq_error.1 h with h | ⟨_, -, h⟩
  · exact .inr (.inl (revertIf_eq_error.1 h).2.symm)
  rcases bind_eq_error.1 h with h | ⟨_, -, h⟩
  · rcases bind_eq_error.1 h with h | ⟨_, -, h⟩
    · exact .inr (.inr (.inl (revertIf_eq_error.1 h).2.symm))
    · exact .inr (.inr (.inr (.inl (revertIf_eq_error.1 h).2.symm)))
  rcases bind_eq_error.1 h with h | ⟨_, -, h⟩
  · obtain ⟨blocks', ok⟩ := journalBlock_ok input.block db.chainBlocks
    rw [ok] at h
    cases h
  rcases bind_eq_error.1 h with h | ⟨_, -, h⟩
  · obtain ⟨event, -, events, h⟩ := of_foldlM_error h
    obtain ⟨events', ok⟩ := journalEvent_ok input.block events event
    rw [ok] at h
    cases h
  rcases bind_eq_error.1 h with h | ⟨_, -, h⟩
  · obtain ⟨receipt, -, receipts, h⟩ := of_foldlM_error h
    exact .inr (.inr (.inr (.inr (of_journalReceipt_error h))))
  · cases h

/-! ### The loops of a batch -/

section Loops

variable {block : JournalBlock} {events events' : Table ChainEvent}
  {receipts receipts' : Table UserOperationReceipt}

/-- Every row was there before, or is one of the occurrences. -/
theorem of_mem_foldlM_journalEvent {occurrences : List JournalEvent}
    (h : occurrences.foldlM (journalEvent block) events = .ok events') :
    ∀ r ∈ events', (∃ r₀ ∈ events, r₀.eventId = r.eventId ∧ r₀.blockNumber = r.blockNumber ∧
        r₀.blockHash = r.blockHash) ∨
      ∃ event ∈ occurrences, r.eventId = event.id block.chainId ∧
        r.blockNumber = event.blockNumber ∧ r.blockHash = event.blockHash := by
  refine foldlM_ok_invariant (I := fun done t => ∀ r ∈ t, (∃ r₀ ∈ events,
      r₀.eventId = r.eventId ∧ r₀.blockNumber = r.blockNumber ∧ r₀.blockHash = r.blockHash) ∨
    ∃ event ∈ done, r.eventId = event.id block.chainId ∧ r.blockNumber = event.blockNumber ∧
      r.blockHash = event.blockHash) ?_ ?_ h
  · intro done event t t' ih step r hr
    rcases of_mem_journalEvent step hr with ⟨r₁, hr₁, id, number, hash⟩ | new
    · rw [← id, ← number, ← hash]
      rcases ih r₁ hr₁ with old | ⟨event', mem, same⟩
      · exact .inl old
      · exact .inr ⟨event', List.mem_append_left _ mem, same⟩
    · exact .inr ⟨event, by simp, new⟩
  · intro r hr
    exact .inl ⟨r, hr, rfl, rfl, rfl⟩

/-- Every row that was there is, and in its block. -/
theorem exists_mem_foldlM_journalEvent {occurrences : List JournalEvent}
    (h : occurrences.foldlM (journalEvent block) events = .ok events') :
    ∀ r ∈ events, ∃ r' ∈ events', r'.eventId = r.eventId ∧ r'.blockHash = r.blockHash ∧
      r'.blockNumber = r.blockNumber := by
  refine foldlM_ok_invariant (I := fun _ t => ∀ r ∈ events, ∃ r' ∈ t, r'.eventId = r.eventId ∧
    r'.blockHash = r.blockHash ∧ r'.blockNumber = r.blockNumber) ?_ ?_ h
  · intro _ event t t' ih step r hr
    obtain ⟨r₁, hr₁, id, hash, number⟩ := ih r hr
    obtain ⟨r₂, hr₂, id', hash', number'⟩ := exists_mem_journalEvent step hr₁
    exact ⟨r₂, hr₂, id'.trans id, hash'.trans hash, number'.trans number⟩
  · intro r hr
    exact ⟨r, hr, rfl, rfl, rfl⟩

/-- What is canonical after the loop was so before, and is no other occurrence of what is
canonical in the loop, or it is one of the occurrences. -/
theorem canonical_of_mem_foldlM_journalEvent {occurrences : List JournalEvent}
    (h : occurrences.foldlM (journalEvent block) events = .ok events') :
    ∀ r ∈ events', r.canonical = true →
      (r ∈ events ∧ ∀ event ∈ occurrences, event.canonical = true →
          event.id block.chainId = r.eventId → r.blockHash = event.blockHash) ∨
        ∃ event ∈ occurrences, r.eventId = event.id block.chainId ∧
          r.blockHash = event.blockHash := by
  refine foldlM_ok_invariant (I := fun done t => ∀ r ∈ t, r.canonical = true →
    (r ∈ events ∧ ∀ event ∈ done, event.canonical = true →
        event.id block.chainId = r.eventId → r.blockHash = event.blockHash) ∨
      ∃ event ∈ done, r.eventId = event.id block.chainId ∧ r.blockHash = event.blockHash) ?_ ?_ h
  · intro done event t t' ih step r hr canonical
    rcases canonical_of_mem_journalEvent step hr canonical with ⟨hr₁, kept⟩ | new
    · rcases ih r hr₁ canonical with ⟨old, others⟩ | ⟨event', mem, same⟩
      · refine .inl ⟨old, fun event' mem canonical' id => ?_⟩
        rcases List.mem_append.1 mem with mem | last
        · exact others event' mem canonical' id
        · obtain rfl := List.mem_singleton.1 last
          exact kept canonical' id.symm
      · exact .inr ⟨event', List.mem_append_left _ mem, same⟩
    · exact .inr ⟨event, by simp, new⟩
  · intro r hr _
    exact .inl ⟨hr, by simp⟩

theorem canonical_of_mem_foldlM_journalReceipt {occurrences : List JournalUserOperationReceipt}
    (h : occurrences.foldlM (journalReceipt block events) receipts = .ok receipts') :
    ∀ r ∈ receipts', r.canonical = true →
      (r ∈ receipts ∧ ∀ receipt ∈ occurrences, r.chainId = block.chainId →
          receipt.userOpHash = r.userOpHash → r.blockHash = receipt.blockHash) ∨
        ∃ receipt ∈ occurrences, r = receipt.row block.chainId := by
  refine foldlM_ok_invariant (I := fun done t => ∀ r ∈ t, r.canonical = true →
    (r ∈ receipts ∧ ∀ receipt ∈ done, r.chainId = block.chainId →
        receipt.userOpHash = r.userOpHash → r.blockHash = receipt.blockHash) ∨
      ∃ receipt ∈ done, r = receipt.row block.chainId) ?_ ?_ h
  · intro done receipt t t' ih step r hr canonical
    rcases canonical_of_mem_journalReceipt step hr canonical with ⟨hr₁, kept⟩ | new
    · rcases ih r hr₁ canonical with ⟨old, others⟩ | ⟨receipt', mem, same⟩
      · refine .inl ⟨old, fun receipt' mem chain operation => ?_⟩
        rcases List.mem_append.1 mem with mem | last
        · exact others receipt' mem chain operation
        · obtain rfl := List.mem_singleton.1 last
          exact kept chain operation.symm
      · exact .inr ⟨receipt', List.mem_append_left _ mem, same⟩
    · exact .inr ⟨receipt, by simp, new⟩
  · intro r hr _
    exact .inl ⟨hr, by simp⟩

end Loops

/-! ### Agreement of the tables -/

/-- A batch that went through, statement by statement. -/
structure Journaled (input : JournalInput) (db db' : Db) : Prop where
  events_block : ∀ event ∈ input.events, event.blockNumber = input.block.blockNumber ∧
    event.blockHash = input.block.blockHash
  receipts_block : ∀ receipt ∈ input.userOperationReceipts,
    receipt.blockNumber = input.block.blockNumber ∧ receipt.blockHash = input.block.blockHash
  epoch : db.getChainReorgEpoch input.block.chainId = input.expectedReorgEpoch
  blocks : journalBlock input.block db.chainBlocks = .ok db'.chainBlocks
  events : input.events.foldlM (journalEvent input.block) db.chainEvents = .ok db'.chainEvents
  receipts : input.userOperationReceipts.foldlM (journalReceipt input.block db'.chainEvents)
    db.receipts = .ok db'.receipts

theorem journaled (h : journalBlockEvents input db = .ok db') : Journaled input db db' := by
  obtain ⟨events_block, h⟩ := revertIf_bind_eq_ok.1 h
  obtain ⟨receipts_block, h⟩ := revertIf_bind_eq_ok.1 h
  obtain ⟨_, guarded, h⟩ := bind_eq_ok.1 h
  obtain ⟨blocks, hblocks, h⟩ := bind_eq_ok.1 h
  obtain ⟨events, hevents, h⟩ := bind_eq_ok.1 h
  obtain ⟨receipts, hreceipts, h⟩ := bind_eq_ok.1 h
  cases h
  refine ⟨?_, ?_, epoch_of_chainEpochGuard guarded, hblocks, hevents, hreceipts⟩
  · intro event mem
    simpa using fun other => events_block (List.any_eq_true.2 ⟨event, mem, other⟩)
  · intro receipt mem
    simpa using fun other => receipts_block (List.any_eq_true.2 ⟨receipt, mem, other⟩)

/-- A batch leaves the read models alone. -/
theorem journalBlockEvents_frame (h : journalBlockEvents input db = .ok db') :
    db'.deltas = db.deltas ∧ db'.snapshots = db.snapshots ∧ db'.baselines = db.baselines ∧
      db'.reorgState = db.reorgState := by
  obtain ⟨-, h⟩ := revertIf_bind_eq_ok.1 h
  obtain ⟨-, h⟩ := revertIf_bind_eq_ok.1 h
  obtain ⟨_, -, h⟩ := bind_eq_ok.1 h
  obtain ⟨blocks, -, h⟩ := bind_eq_ok.1 h
  obtain ⟨events, -, h⟩ := bind_eq_ok.1 h
  obtain ⟨receipts, -, h⟩ := bind_eq_ok.1 h
  cases h
  exact ⟨rfl, rfl, rfl, rfl⟩

/-- The canonical block of a row that stays is still canonical, unless the batch put another
block in its place. -/
theorem Journaled.canonicalBlock (h : Journaled input db db') {chainId : ChainId}
    {number : BlockNumber} {hash : BlockHash} (before : db.CanonicalBlock chainId number hash)
    (own : chainId = input.block.chainId → number = input.block.blockNumber →
      hash = input.block.blockHash) : db'.CanonicalBlock chainId number hash := by
  by_cases height : chainId = input.block.chainId ∧ number = input.block.blockNumber
  · obtain ⟨rfl, rfl⟩ := height
    rw [own rfl rfl]
    exact row_mem_journalBlock h.blocks
  · exact mem_journalBlock_of_mem h.blocks before height

theorem Journaled.consistent (h : Journaled input db db') (reoccurs : ReoccursAt input db)
    (consistent : Consistent db) : Consistent db' := by
  constructor
  · intro r hr canonical
    rcases canonical_of_mem_foldlM_journalEvent h.events r hr canonical with
      ⟨old, others⟩ | ⟨event, mem, id, hash⟩
    · apply h.canonicalBlock (consistent.event r old canonical)
      intro chain number
      by_contra other
      obtain ⟨event, mem, canonical', id⟩ := reoccurs.event r old canonical chain number other
      have hash := others event mem canonical' id
      exact other (hash.trans (h.events_block event mem).2)
    · -- the block of the batch, at the height at which it was journaled before
      have chain : r.eventId.chainId = input.block.chainId := by rw [id]; rfl
      have hash : r.blockHash = input.block.blockHash := hash.trans (h.events_block event mem).2
      have number : r.blockNumber = input.block.blockNumber := by
        rcases of_mem_foldlM_journalEvent h.events r hr with
          ⟨r₀, hr₀, id₀, number₀, hash₀⟩ | ⟨event', mem', -, number, -⟩
        · rw [← number₀]
          exact reoccurs.height r₀ hr₀ (by rw [id₀, chain]) (hash₀.trans hash)
        · exact number.trans (h.events_block event' mem').1
      rw [chain, hash, number]
      exact row_mem_journalBlock h.blocks
  · intro r hr canonical
    rcases canonical_of_mem_foldlM_journalReceipt h.receipts r hr canonical with
      ⟨old, others⟩ | ⟨receipt, mem, rfl⟩
    · apply h.canonicalBlock (consistent.receipt r old canonical)
      intro chain number
      by_contra other
      obtain ⟨receipt, mem, operation⟩ := reoccurs.receipt r old canonical chain number other
      have hash := others receipt mem chain operation
      exact other (hash.trans (h.receipts_block receipt mem).2)
    · obtain ⟨number, hash⟩ := h.receipts_block receipt mem
      show db'.CanonicalBlock input.block.chainId receipt.blockNumber receipt.blockHash
      rw [number, hash]
      exact row_mem_journalBlock h.blocks

/-- A recovery takes blocks, events and receipts back by their height. -/
theorem rollback_consistent (chainId : ChainId) (ancestor : BlockNumber)
    (ancestorHash : BlockHash) (consistent : Consistent db) :
    Consistent (rollback chainId ancestor ancestorHash db) := by
  constructor
  · intro r hr canonical
    obtain ⟨⟨hr, -⟩, stays⟩ := mem_rollback_chainEvents.1 ⟨hr, canonical⟩
    exact (mem_rollback_chainBlocks.2 ⟨⟨consistent.event r hr canonical, rfl⟩, stays⟩).1
  · intro r hr canonical
    obtain ⟨⟨hr, -⟩, stays⟩ := mem_rollback_receipts.1 ⟨hr, canonical⟩
    exact (mem_rollback_chainBlocks.2 ⟨⟨consistent.receipt r hr canonical, rfl⟩, stays⟩).1

theorem journal_step (action : JournalAction) (db db' : Db) (reoccurs : Reoccurs action db)
    (consistent : Consistent db) (h : journal.exec action db = .ok db') : Consistent db' := by
  cases action with
  | journal input =>
    have went := journaled h
    exact went.consistent (reoccurs went.epoch) consistent
  | rollback chainId ancestor ancestorHash =>
    cases h
    exact rollback_consistent chainId ancestor ancestorHash consistent

theorem consistent_initial : Consistent Db.initial where
  event r hr := absurd hr (Table.not_mem_empty r)
  receipt r hr := absurd hr (Table.not_mem_empty r)

/-- The unique indexes hold in every history and no batch fails on one of them; and what is
canonical lies in a canonical block, as long as every batch has again what it replaces. -/
theorem journal_canonicality (history : List JournalAction) :
    CanonicalOnce (journal.run Db.initial history) ∧
    (∀ input e, journalBlockEvents input (journal.run Db.initial history) = .error e →
      e ≠ .chainBlocksCanonicalHeight ∧ e ≠ .chainEventsCanonicalIdentity ∧
        e ≠ .receiptsCanonicalHash) ∧
    (journal.Along Reoccurs Db.initial history → Consistent (journal.run Db.initial history)) := by
  refine ⟨canonicalOnce _, ?_, ?_⟩
  · intro input e failed
    rcases of_journalBlockEvents_error failed with rfl | rfl | rfl | rfl | rfl | rfl <;> simp
  · intro along
    exact Contract.run_invariant_along journal_step along consistent_initial

/-! ### One height, two blocks -/

/-- An occurrence of a user operation in a block, as the watcher journals it. -/
def observed (number : BlockNumber) (hash : BlockHash) (epoch : Nat) : JournalAction :=
  .journal
    { stream := ['u', 's', 'e', 'r', 'o', 'p', 's'], expectedReorgEpoch := epoch
      block := { chainId := 421614, blockNumber := number, blockHash := hash }
      events := [{ txHash := 5, logIndex := 0, eventKind := .userOperation
                   blockNumber := number, blockHash := hash, canonical := true, accounts := [] }]
      userOperationReceipts := [{ userOpHash := 9, txHash := 5, logIndex := 0
                                  blockNumber := number, blockHash := hash, success := true }] }

/-- A block without events, as the indexer journals it. -/
def observedEmpty (number : BlockNumber) (hash : BlockHash) (epoch : Nat) : JournalAction :=
  .journal
    { stream := ['r', 'o', 'u', 't', 'e', 'r'], expectedReorgEpoch := epoch
      block := { chainId := 421614, blockNumber := number, blockHash := hash }
      events := [], userOperationReceipts := [] }

/-- The user operation moves to the block that takes the height over, and after a recovery
to a later one. -/
theorem journal_canonicality_moved :
    Consistent (journal.run Db.initial
      [observedEmpty 99 99 0, observed 100 1 0, observed 100 2 0, .rollback 421614 99 99,
        observedEmpty 100 3 1, observed 101 4 1]) := by
  refine (journal_canonicality _).2.2 ?_
  refine ⟨?_, ?_, ?_, trivial, ?_, ?_, trivial⟩ <;>
  · intro _
    constructor <;> decide +kernel

/-- A block takes the height of another over without its events, which stay canonical. -/
theorem journal_not_consistent :
    ¬ Consistent (journal.run Db.initial [observed 100 1 0, observedEmpty 100 2 0]) := by
  intro consistent
  have block : _ ∈ _ := consistent.event
    { eventId := { chainId := 421614, txHash := 5, logIndex := 0, eventKind := .userOperation }
      blockNumber := 100, blockHash := 1, canonical := true } (by decide +kernel) rfl
  revert block
  decide +kernel

end ParmeliaLinks.Server
