/-
ParmeliaLinks/Server/IndexerProgress.lean

What a run of the indexer gets done.  A provider that answers every range of the smallest
span may refuse all larger ones, and a run asks for the largest first: the calls that it
takes to come down to the smallest span, and to go through the window at that span, have
to fit into the budget of the run.  The window is sized for ranges of the largest span,
so they need not (`Sufficient`), and then every run fails at the same cursor.
-/
import ParmeliaLinks.Server.IndexerWindow

namespace ParmeliaLinks.Server

/-! ### One run against a provider -/

/-- What a provider answers: how far the chain has got, and which ranges of logs it refuses,
which may depend on the calls before. -/
structure Provider where
  latest : BlockNumber
  safe : Option BlockNumber
  now : Time
  refuses : Nat → BlockNumber → BlockNumber → Option RpcError

namespace Provider

variable (provider : Provider)

def answer (o : ProjectorOp ⊕ IndexerOp) (w : IndexerWorld) : IndexerAnswer where
  latest := provider.latest
  safe := provider.safe
  now := provider.now
  refusal :=
    match o with
    | .inr (.getLogs _ _ _ fromBlock toBlock) => provider.refuses w.logCalls fromBlock toBlock
    | _ => none

def exec (o : ProjectorOp ⊕ IndexerOp) (w : IndexerWorld) :
    Sum.elim ProjectorOp.Reply IndexerOp.Reply o × IndexerWorld :=
  indexerExec 0 o (provider.answer o w) w

def scanHead : BlockNumber := indexerScanHead provider.latest provider.safe

/-- The provider answers every range of at most so many blocks, and refuses the others as too
large, if at all. -/
def Serves (blocks : Nat) : Prop :=
  ∀ calls fromBlock toBlock e, provider.refuses calls fromBlock toBlock = some e →
    blocks < toBlock + 1 - fromBlock ∧ isRangeCapacityError e = true

/-- A run with nothing in between. -/
def run (env : IndexerEnv) (call : IndexerCall) (w : IndexerWorld) :
    Except String (Option ChainIndexRunResult) × IndexerWorld :=
  (runIndexer env call.partition call.targetBlock).alone provider.exec w

/-- Runs one after the other. -/
def runs (env : IndexerEnv) (call : IndexerCall) : Nat → IndexerWorld → IndexerWorld
  | 0, w => w
  | n + 1, w => runs env call n (provider.run env call w).2

/-- A run with nothing in between is a run of the system. -/
theorem run_eq (env : IndexerEnv) (call : IndexerCall) (w : IndexerWorld) :
    ∃ xs : List IndexerAnswer,
      ((indexerSystem env).run w (.spawn call :: xs.map fun x => .step 0 x)).world =
        (provider.run env call w).2 := by
  obtain ⟨xs, run⟩ := (indexerSystem env).runFrom_alone_answered 0 provider.answer
    (runIndexer env call.partition call.targetBlock)
    (p := ⟨w, [runIndexer env call.partition call.targetBlock]⟩) rfl
  exact ⟨xs, congrArg Pool.world run⟩

end Provider

/-! ### What is required, and when it holds -/

/-- The cursor of a partition. -/
def IndexerWorld.cursor (w : IndexerWorld) (env : IndexerEnv)
    (partition : TransferIndexerPartition) : Option BlockNumber :=
  getSyncCursor w.db.syncState (transferSyncCursorKey env.chainId partition)

/-- A run finds wallets to look after, a chain that the guards take, and checkpoints that are
on the chain. -/
structure IndexerWorld.Ready (env : IndexerEnv) (partition : TransferIndexerPartition)
    (w : IndexerWorld) : Prop where
  token : ∃ token, env.tokens.find? (fun token => token.address == partition.token) = some token
  rpcUrls : env.rpcUrls ≠ 0
  wallets : w.registry.listWalletsForIndexerShard env.chainId
    (transferAssignmentStream env.chainId) partition.shardId ≠ []
  chainId : 1 ≤ env.chainId ∧ env.chainId ≤ maxSafeInteger
  epoch : w.db.getChainReorgEpoch env.chainId ≤ maxSafeInteger
  checkpoints : ∀ r ∈ w.db.checkpoints, r.chainId = env.chainId →
    r.blockHash = w.chain.hash r.blockNumber

/-- The run completes, and the cursor moves on. -/
def Provider.Advances (provider : Provider) (env : IndexerEnv) (call : IndexerCall)
    (w : IndexerWorld) : Prop :=
  ∃ result w', provider.run env call w = (.ok (some result), w') ∧
    scanStart (w.cursor env call.partition) provider.scanHead ≤ result.cursor ∧
    w'.cursor env call.partition = some result.cursor

/-- Runs one after the other bring the cursor to every block up to the head. -/
def Provider.Reaches (provider : Provider) (env : IndexerEnv) (call : IndexerCall)
    (w : IndexerWorld) : Prop :=
  ∀ n ≤ provider.scanHead, ∃ k cursor,
    (provider.runs env call k w).cursor env call.partition = some cursor ∧ n ≤ cursor

/-- A run has calls enough for a window: for one range, where the window is of the smallest
span; for ranges that cannot be refused; or for `k` refusals on the way down to the smallest
span and then two calls for each of `m` ranges, but for the first and the last. -/
def Sufficient (env : IndexerEnv) (blocks : Nat) : Prop :=
  blocks ≤ env.minRange ∨ env.minRange = env.maxRange ∨
    ∃ k m, env.maxRange ≤ env.minRange * 2 ^ k ∧ blocks ≤ env.minRange * m ∧
      k + 2 * m ≤ env.maxLogCallsPerJob + 2

theorem Sufficient.mono {env : IndexerEnv} {blocks blocks' : Nat} (h : Sufficient env blocks)
    (le : blocks' ≤ blocks) : Sufficient env blocks' := by
  rcases h with h | h | ⟨k, m, span, ranges, calls⟩
  · exact .inl (Nat.le_trans le h)
  · exact .inr (.inl h)
  · exact .inr (.inr ⟨k, m, span, Nat.le_trans le ranges, calls⟩)

/-! ### What a run keeps -/

/-- The world is as it was, as far as the run is concerned, and its checkpoints are on the
chain. -/
structure Steady (env : IndexerEnv) (w₀ w : IndexerWorld) : Prop where
  chain : w.chain = w₀.chain
  registry : w.registry = w₀.registry
  epoch : w.db.getChainReorgEpoch env.chainId = w₀.db.getChainReorgEpoch env.chainId
  syncState : w.db.syncState = w₀.db.syncState
  checkpoints : ∀ r ∈ w.db.checkpoints, r.chainId = env.chainId →
    r.blockHash = w.chain.hash r.blockNumber

section Steps

variable {env : IndexerEnv} {w₀ w : IndexerWorld}

theorem Steady.rfl (checkpoints : ∀ r ∈ w.db.checkpoints, r.chainId = env.chainId →
    r.blockHash = w.chain.hash r.blockNumber) : Steady env w w :=
  ⟨Eq.refl _, Eq.refl _, Eq.refl _, Eq.refl _, checkpoints⟩

theorem getChainReorgEpoch_congr {db db' : Db} (same : db'.reorgState = db.reorgState)
    (chainId : ChainId) : db'.getChainReorgEpoch chainId = db.getChainReorgEpoch chainId := by
  rw [Db.getChainReorgEpoch, same]
  rfl

/-- A step of the projector. -/
theorem Steady.projector (h : Steady env w₀ w) (provider : Provider) (o : ProjectorOp) :
    Steady env w₀ (provider.exec (.inl o) w).2 := by
  obtain ⟨reorgState, syncState, checkpoints, -⟩ := projector_frame 0 o w.projector
  refine ⟨h.chain, h.registry, ?_, ?_, ?_⟩
  · exact (getChainReorgEpoch_congr reorgState _).trans h.epoch
  · exact syncState.trans h.syncState
  · intro r hr
    exact h.checkpoints r (checkpoints ▸ hr)

/-- The database as a batch leaves it, which writes no cursor and no epoch. -/
theorem Steady.withDb (h : Steady env w₀ w) {db : Db} (reorgState : db.reorgState = w.db.reorgState)
    (syncState : db.syncState = w.db.syncState)
    (checkpoints : ∀ r ∈ db.checkpoints, r.chainId = env.chainId →
      r.blockHash = w.chain.hash r.blockNumber) : Steady env w₀ (w.withDb db) :=
  ⟨h.chain, h.registry, (getChainReorgEpoch_congr reorgState _).trans h.epoch,
    syncState.trans h.syncState, checkpoints⟩

/-- The batch of a block of the chain. -/
theorem Steady.journal (h : Steady env w₀ w) {input : JournalInput} {db : Db}
    (ok : journalBlockEvents input w.db = .ok db)
    (onChain : input.block.blockHash = w.chain.hash input.block.blockNumber) :
    Steady env w₀ (w.withDb db) := by
  obtain ⟨-, -, -, reorgState⟩ := journalBlockEvents_frame ok
  obtain ⟨checkpoints, syncState⟩ := journalBlockEvents_checkpoints ok
  refine h.withDb reorgState syncState fun r hr ofChain => ?_
  rw [checkpoints] at hr
  rcases mem_advanceCheckpoint hr with hr | ⟨-, -, number, hash⟩
  · exact h.checkpoints r hr ofChain
  · rw [hash, number, onChain]

end Steps

/-! ### The parts of a run -/

section Parts

variable {provider : Provider} {env : IndexerEnv} {partition : TransferIndexerPartition}
  {token : Token} {w₀ w : IndexerWorld} {epoch : Nat}

/-- The guard of the run's epoch lets a batch through. -/
structure Guarded (env : IndexerEnv) (epoch : Nat) (w₀ : IndexerWorld) : Prop where
  chainId : 1 ≤ env.chainId ∧ env.chainId ≤ maxSafeInteger
  small : epoch ≤ maxSafeInteger
  current : w₀.db.getChainReorgEpoch env.chainId = epoch

theorem Guarded.ok (g : Guarded env epoch w₀) {db : Db}
    (same : db.getChainReorgEpoch env.chainId = w₀.db.getChainReorgEpoch env.chainId) :
    chainEpochGuard env.chainId epoch db = .ok () :=
  chainEpochGuard_ok g.chainId g.small (same.trans g.current)

/-- A statement of the run, and the rest. -/
theorem ends_issue {o : IndexerOp} {α : Type} {f : o.Reply → Indexer α}
    {Q : α → IndexerWorld → Prop}
    (h : (f (o.exec 0 (provider.answer (.inr o) w) w).1).Ends provider.exec
      (o.exec 0 (provider.answer (.inr o) w) w).2 Q) :
    (issue o >>= f).Ends provider.exec w Q :=
  h

/-- A batch that has gone through, and the rest. -/
theorem ends_orThrow {α : Type} {f : Unit → Indexer α} {Q : α → IndexerWorld → Prop}
    (h : (f ()).Ends provider.exec w Q) : (orThrow (.ok ()) >>= f).Ends provider.exec w Q :=
  h

/-- A checkpoint that is on the chain is left alone. -/
theorem verifyAndRecover_ends (provider : Provider) (h : Steady env w₀ w) (stream : Text) :
    (verifyAndRecover env.chainId stream).Ends provider.exec w fun _ w' => Steady env w₀ w' := by
  apply ends_issue
  cases found : w.db.checkpoints.find? fun r => r.chainId == env.chainId && r.stream == stream with
  | none =>
    simp only [IndexerOp.exec, found, Option.map_none]
    exact Prog.ends_ret h
  | some r =>
    have own := Table.of_find? found
    simp only [Bool.and_eq_true, beq_iff_eq] at own
    have onChain := h.checkpoints r (Table.mem_of_find? found) own.1
    simp only [IndexerOp.exec, found, Option.map_some]
    apply ends_issue
    simp only [IndexerOp.exec, onChain, if_true]
    exact Prog.ends_ret h

theorem selectUsersOf_ends (h : Steady env w₀ w) (chunks : List (List Address)) :
    (selectUsersOf chunks).Ends provider.exec w fun _ w' => Steady env w₀ w' := by
  induction chunks with
  | nil => exact Prog.ends_ret h
  | cons chunk chunks ih =>
    apply ends_issue
    exact Prog.ends_bind ih fun _ _ h' => Prog.ends_ret h'

theorem writeLedgerEntries_ends (h : Steady env w₀ w) (g : Guarded env epoch w₀)
    {entries : List LedgerRow} (ofChain : ∀ e ∈ entries, e.chainId = some env.chainId) :
    (writeLedgerEntries entries epoch).Ends provider.exec w fun _ w' => Steady env w₀ w' := by
  unfold writeLedgerEntries
  cases entries with
  | nil => exact Prog.ends_ret h
  | cons e entries =>
    have one : ((e :: entries).filterMap (·.chainId)).eraseDups = [env.chainId] := by
      apply eraseDups_of_forall_eq
      · rw [List.filterMap_cons, ofChain e List.mem_cons_self]
        exact List.cons_ne_nil _ _
      · intro c hc
        obtain ⟨e', he', hc'⟩ := List.mem_filterMap.1 hc
        rw [ofChain e' he'] at hc'
        exact (Option.some.inj hc').symm
    rw [List.isEmpty_cons, if_neg Bool.false_ne_true]
    simp only [one]
    have ok : writeLedgerBatch env.chainId (e :: entries) epoch w.db =
        .ok { w.db with ledger := (e :: entries).foldl writeLedgerEntry w.db.ledger } := by
      rw [writeLedgerBatch, g.ok h.epoch]
      rfl
    apply ends_issue
    simp only [IndexerOp.exec, ok, IndexerWorld.batch]
    exact Prog.ends_ret (h.withDb rfl rfl h.checkpoints)

theorem requestRefreshes_ends (h : Steady env w₀ w) (blockNumber : BlockNumber)
    (satisfied : List (Uid × Address)) (wallets : List IndexerWallet) :
    (requestRefreshes env blockNumber satisfied wallets).Ends provider.exec w
      fun _ w' => Steady env w₀ w' := by
  induction wallets generalizing w with
  | nil => exact Prog.ends_ret h
  | cons wallet wallets ih =>
    unfold requestRefreshes
    dsimp only
    split
    · apply ends_issue
      exact ih ⟨h.chain, h.registry, h.epoch, h.syncState, h.checkpoints⟩
    · exact ih h

/-! The refresh of the snapshots throws nothing. -/

theorem ensureBaseline_returns (key : AccountAsset) (state : ProjectionSnapshotState) :
    (ensureBaseline key state).Returns := by
  unfold ensureBaseline
  split
  · trivial
  · exact fun _ => trivial

theorem advanceSnapshot_returns (block : JournalBlock) (result : SnapshotResult)
    (account : AffectedAccount) (state : ProjectionSnapshotState) (baseline : BalanceAt) :
    (advanceSnapshot block result account state baseline).Returns := by
  unfold advanceSnapshot
  dsimp only
  split
  · trivial
  · intro deltas
    show Prog.Returns (if _ then _ else _)
    split
    · trivial
    · intro changes
      show Prog.Returns (if _ then _ else _)
      split <;> trivial

theorem refreshAccount_returns (block : JournalBlock) (result : SnapshotResult)
    (account : AffectedAccount) : (refreshAccount block result account).Returns := by
  intro state
  cases state with
  | none => trivial
  | some state =>
    show Prog.Returns (if _ then _ else _)
    split
    · exact Prog.returns_bind (ensureBaseline_returns _ _) fun _ => advanceSnapshot_returns _ _ _ _ _
    · trivial

theorem refreshAccounts_returns (block : JournalBlock) (result : SnapshotResult)
    (accounts : List AffectedAccount) : (refreshAccounts block result accounts).Returns := by
  induction accounts generalizing result with
  | nil => trivial
  | cons account accounts ih =>
    exact Prog.returns_bind (refreshAccount_returns _ _ _) fun result => ih result

theorem returns_inl {α : Type} {p : Projector α} (h : p.Returns) :
    (p.inl : Indexer α).Returns := by
  induction p with
  | ret a => trivial
  | throw m => exact h
  | act o k ih => exact fun r => ih r (h r)

/-- The operations of the projector. -/
def OfProjector : ProjectorOp ⊕ IndexerOp → Prop
  | .inl _ => True
  | .inr _ => False

theorem uses_ofProjector {α : Type} (p : Projector α) : (p.inl : Indexer α).Uses OfProjector :=
  Prog.uses_inl (Prog.uses_of_forall (fun _ => trivial) p)

/-- Events that are in the journal are projected. -/
theorem projectBalanceDeltas_ends (h : Steady env w₀ w) (g : Guarded env epoch w₀)
    {block : JournalBlock} (ofChain : block.chainId = env.chainId) {events : List JournalEvent}
    (journaled : ∀ event ∈ events, ∃ r ∈ w.db.chainEvents,
      r.eventId = event.id block.chainId ∧ r.blockHash = event.blockHash) :
    (projectBalanceDeltas { block, events, expectedReorgEpoch := some epoch }).inl.Ends
      provider.exec w fun _ w' => Steady env w₀ w' := by
  have guarded : chainEpochGuard block.chainId epoch w.db = .ok () := by
    rw [ofChain]
    exact g.ok h.epoch
  obtain ⟨db', ok⟩ := exists_applyDeltas { block, events, expectedReorgEpoch := some epoch } guarded
    journaled
  have applied := h.projector provider
    (.applyDeltas { block, events, expectedReorgEpoch := some epoch } epoch)
  apply Prog.ends_act
  have reply : (provider.exec (.inl (.applyDeltas
      { block, events, expectedReorgEpoch := some epoch } epoch)) w).1 = .ok () := by
    show ((ProjectorOp.applyDeltas _ epoch).exec 0 w.projector).1 = _
    simp only [ProjectorOp.exec, ok]
  rw [reply]
  refine (returns_inl (refreshAccounts_returns _ _ _)).ends (uses_ofProjector _) ?_ applied
  intro o w' projector h'
  cases o with
  | inl o => exact h'.projector provider o
  | inr o => exact projector.elim

/-- What a block of the chain has is journaled, projected and entered. -/
theorem ingestEvents_ends (h : Steady env w₀ w) (g : Guarded env epoch w₀)
    {users : List IndexerWallet} {b : BlockLogs} (onChain : b.blockHash = w.chain.hash b.blockNumber)
    {events : List JournalEvent}
    (ofBlock : ∀ e ∈ events, e.blockNumber = b.blockNumber ∧ e.blockHash = b.blockHash) :
    (ingestEvents env partition token epoch users b events).Ends provider.exec w
      fun _ w' => Steady env w₀ w' := by
  let input := journalInputOf env partition epoch b.blockNumber b.blockHash events
  obtain ⟨db, ok⟩ := journalBlockEvents_ok w.db input ofBlock rfl (g.ok h.epoch)
  have present : ∀ event ∈ events, ∃ r ∈ db.chainEvents,
      r.eventId = event.id env.chainId ∧ r.blockHash = event.blockHash :=
    mem_foldlM_journalEvent_self (journaled ok).events
  have ok' : journalBlockEvents (journalInputOf env partition epoch b.blockNumber b.blockHash events)
      w.db = .ok db := ok
  apply ends_issue
  simp only [IndexerOp.exec, ok', IndexerWorld.batch]
  apply ends_orThrow
  refine Prog.ends_bind (projectBalanceDeltas_ends (h.journal ok onChain) g rfl present) ?_
  intro projection w' h'
  refine Prog.ends_bind (writeLedgerEntries_ends h' g ?_) fun _ w'' h'' =>
    requestRefreshes_ends h'' _ _ _
  intro entry mem
  obtain ⟨log, -, some⟩ := List.mem_filterMap.1 mem
  exact ledgerEntryOf_chainId some

theorem ingestBlock_ends (h : Steady env w₀ w) (g : Guarded env epoch w₀)
    {users : List IndexerWallet} {b : BlockLogs}
    (onChain : b.blockHash = w.chain.hash b.blockNumber) :
    (ingestBlock env partition token epoch users b).Ends provider.exec w
      fun _ w' => Steady env w₀ w' := by
  apply ends_issue
  have evidence : (some b.blockHash, w.chain.height b.blockHash) =
      (some b.blockHash, some b.blockNumber) := by
    rw [onChain, w.chain.height_hash]
  simp only [IndexerOp.exec, evidence, if_true]
  split
  · exact Prog.ends_ret h
  · refine ingestEvents_ends h g onChain fun event mem => ?_
    obtain ⟨log, -, some⟩ := List.mem_filterMap.1 mem
    obtain ⟨number, hash, -⟩ := journalEventOf_block some
    exact ⟨number, hash⟩

theorem ingestBlocks_ends (h : Steady env w₀ w) (g : Guarded env epoch w₀)
    {users : List IndexerWallet} {blocks : List BlockLogs}
    (onChain : ∀ b ∈ blocks, b.blockHash = w₀.chain.hash b.blockNumber) :
    (ingestBlocks env partition token epoch users blocks).Ends provider.exec w
      fun _ w' => Steady env w₀ w' := by
  induction blocks generalizing w with
  | nil => exact Prog.ends_ret h
  | cons b blocks ih =>
    have first : b.blockHash = w.chain.hash b.blockNumber := by
      rw [h.chain]
      exact onChain b List.mem_cons_self
    exact Prog.ends_bind (ingestBlock_ends h g first) fun _ w' h' =>
      ih h' fun b hb => onChain b (List.mem_cons_of_mem _ hb)

/-- The run has moved the cursor, and kept everything else that it goes by. -/
structure Moved (env : IndexerEnv) (partition : TransferIndexerPartition) (w₀ : IndexerWorld)
    (cursor : BlockNumber) (w : IndexerWorld) : Prop where
  chain : w.chain = w₀.chain
  registry : w.registry = w₀.registry
  epoch : w.db.getChainReorgEpoch env.chainId = w₀.db.getChainReorgEpoch env.chainId
  checkpoints : ∀ r ∈ w.db.checkpoints, r.chainId = env.chainId →
    r.blockHash = w.chain.hash r.blockNumber
  cursor : w.cursor env partition = some cursor

theorem commitWindow_ends (h : Steady env w₀ w) (g : Guarded env epoch w₀)
    (cursor : Option BlockNumber) (fromBlock committed : BlockNumber) :
    (commitWindow env partition epoch cursor fromBlock committed).Ends provider.exec w
      fun _ w' => Moved env partition w₀ committed w' := by
  apply ends_issue
  simp only [IndexerOp.exec]
  obtain ⟨db, ok⟩ := journalBlockEvents_ok w.db
    (journalInputOf env partition epoch committed (w.chain.hash committed) [])
    (fun _ mem => absurd mem List.not_mem_nil) rfl (g.ok h.epoch)
  apply ends_issue
  simp only [IndexerOp.exec, ok, IndexerWorld.batch]
  have h' := h.journal ok rfl
  have set : setGuardedCursor (transferSyncCursorKey env.chainId partition) committed env.chainId
      epoch (w.withDb db).db = .ok
        { db with
          syncState := setSyncCursor db.syncState (transferSyncCursorKey env.chainId partition)
            committed } := by
    rw [setGuardedCursor, g.ok h'.epoch]
    rfl
  apply ends_orThrow
  apply ends_issue
  simp only [IndexerOp.exec, set]
  refine Prog.ends_ret ⟨h'.chain, h'.registry, h'.epoch, h'.checkpoints, ?_⟩
  exact (getSyncCursor_setSyncCursor _ _ _ _).trans (if_pos rfl)

end Parts

/-! ### The scan -/

section Scan

variable {provider : Provider} {env : IndexerEnv} {w₀ w : IndexerWorld}
  {fromBlock scanEnd : BlockNumber} {blocks : Nat}

/-- A scan starts with the largest span. -/
theorem start_span (env : IndexerEnv) (fromBlock scanEnd : BlockNumber) :
    ((scanOptions env fromBlock scanEnd).start ([] : List TransferLog)).span = env.maxRange := by
  show clamp env.maxRange env.minRange env.maxRange = env.maxRange
  rw [clamp, if_neg (Nat.not_lt.2 env.minRange_mem.2), if_neg (Nat.lt_irrefl _)]

/-- The calls that a window of the job's size needs are enough for the scan, and no others. -/
theorem enough_iff_sufficient (fromBlock scanEnd : BlockNumber) (pos : 1 ≤ blocks)
    (fits : blocks ≤ env.maxRange * env.maxLogCallsPerJob) :
    Enough (scanOptions env fromBlock scanEnd) env.maxRange blocks env.maxLogCallsPerJob ↔
      Sufficient env blocks := by
  have calls := env.maxLogCallsPerJob_pos
  constructor
  · rintro (zero | ⟨small, -⟩ | ⟨same, -⟩ | ⟨-, k, m, span, ranges, budget⟩)
    · omega
    · exact .inl small
    · exact .inr (.inl same)
    · exact .inr (.inr ⟨k, m, span, ranges, budget⟩)
  · intro h
    by_cases small : blocks ≤ env.minRange
    · exact .inr (.inl ⟨small, calls⟩)
    rcases h with h | same | ⟨k, m, span, ranges, budget⟩
    · exact absurd h small
    · refine .inr (.inr (.inl ⟨same, env.maxLogCallsPerJob, ?_, Nat.le_refl _⟩))
      show blocks ≤ env.minRange * env.maxLogCallsPerJob
      rwa [same]
    · exact .inr (.inr (.inr ⟨Nat.lt_of_not_le small, k, m, span, ranges, budget⟩))

theorem scanOptions_valid (env : IndexerEnv) (window : fromBlock ≤ scanEnd) :
    (scanOptions env fromBlock scanEnd).Valid :=
  ⟨window, env.minRange_mem.1, env.minRange_mem.2, env.maxLogCallsPerJob_pos⟩

/-- The logs are of transfers in these blocks. -/
def FoundIn (chain : Chain) (fromBlock scanEnd : BlockNumber) (logs : List TransferLog) : Prop :=
  ∀ l ∈ logs, ∃ n t, fromBlock ≤ n ∧ n ≤ scanEnd ∧ t ∈ chain.transfers n ∧ l = chain.log n t

/-- One range. -/
theorem getLogs_fetched (h : Steady env w₀ w) (serves : provider.Serves env.minRange)
    {token : Address} {direction : TransferDirection} {addresses : List Address} {a b : Nat}
    (below : fromBlock ≤ a) (le : a ≤ b) (above : b ≤ scanEnd) {collected : List TransferLog}
    (found : FoundIn w₀.chain fromBlock scanEnd collected) :
    ∃ r w', (issue (.getLogs token direction addresses a b)).alone provider.exec w = (.ok r, w') ∧
      Fetched (scanOptions env fromBlock scanEnd) collectRange
        (fun c logs w' => Steady env w₀ w' ∧ FoundIn w₀.chain fromBlock scanEnd logs ∧
          fromBlock ≤ c) a b collected r w' := by
  refine ⟨_, _, rfl, ?_⟩
  have h' : Steady env w₀ { w with logCalls := w.logCalls + 1 } :=
    ⟨h.chain, h.registry, h.epoch, h.syncState, h.checkpoints⟩
  show Fetched _ _ _ a b collected (answerRange (provider.refuses w.logCalls a b)
    (w.chain.getLogs token direction addresses a b)) _
  cases refused : provider.refuses w.logCalls a b with
  | some e =>
    obtain ⟨large, capacity⟩ := serves _ _ _ _ refused
    exact ⟨capacity, large, h', found, below⟩
  | none =>
    refine ⟨h', fun l hl => ?_, ?_⟩
    · rcases mem_collectRange hl with hl | hl
      · exact found l hl
      · obtain ⟨n, t, low, high, ht, -, -, rfl⟩ := mem_getLogs.1 hl
        rw [h.chain] at ht ⊢
        exact ⟨n, t, Nat.le_trans below low, Nat.le_trans high above, ht, rfl⟩
    · exact Nat.le_succ_of_le (Nat.le_trans below le)

/-- A scan with enough calls completes, whatever the provider refuses. -/
theorem scan_ends (h : Steady env w₀ w) (serves : provider.Serves env.minRange)
    (window : fromBlock ≤ scanEnd) (token : Address) (direction : TransferDirection)
    (addresses : List Address)
    (enough : Enough (scanOptions env fromBlock scanEnd) env.maxRange (scanEnd + 1 - fromBlock)
      env.maxLogCallsPerJob) :
    (scanLogsAdaptive (scanOptions env fromBlock scanEnd)
      (fun rangeFrom rangeTo => issue (.getLogs token direction addresses rangeFrom rangeTo))
      collectRange []).Ends provider.exec w
      fun logs w' => Steady env w₀ w' ∧ FoundIn w₀.chain fromBlock scanEnd logs := by
  have valid := scanOptions_valid env window
  rw [scanLogsAdaptive_of_valid valid]
  have span := start_span env fromBlock scanEnd
  have start : Steady env w₀ w ∧ FoundIn w₀.chain fromBlock scanEnd [] ∧ fromBlock ≤ fromBlock :=
    ⟨h, fun _ mem => absurd mem List.not_mem_nil, Nat.le_refl _⟩
  obtain ⟨logs, w', run, h', found, -⟩ := scanRanges_completes
    provider.exec (o := scanOptions env fromBlock scanEnd)
    (fun a b collected w le above h' =>
      getLogs_fetched h'.1 serves h'.2.2 le above h'.2.1)
    (valid.spans _) env.minRange_mem.1 (Nat.le_succ_of_le window)
    (s := (scanOptions env fromBlock scanEnd).start []) (by rw [span]; exact enough) start
  exact ⟨logs, w', run, h', found⟩

/-- A provider of a chain without transfers that refuses every range above the smallest. -/
def Refusing (provider : Provider) (blocks : Nat) (e : RpcError) : Prop :=
  ∀ calls fromBlock toBlock,
    provider.refuses calls fromBlock toBlock =
      if blocks < toBlock + 1 - fromBlock then some e else none

theorem Refusing.serves {e : RpcError} (h : Refusing provider blocks e)
    (capacity : isRangeCapacityError e = true) : provider.Serves blocks := by
  intro calls a b e' refused
  rw [h calls a b] at refused
  split at refused
  · cases refused
    exact ⟨‹_›, capacity⟩
  · cases refused

/-- Against such a provider only a scan with enough calls completes. -/
theorem enough_of_scan {e : RpcError} (refusing : Refusing provider env.minRange e)
    (capacity : isRangeCapacityError e = true) (empty : ∀ n, w.chain.transfers n = [])
    (window : fromBlock ≤ scanEnd) {token : Address} {direction : TransferDirection}
    {addresses : List Address} {logs : List TransferLog} {w' : IndexerWorld}
    (run : (scanLogsAdaptive (scanOptions env fromBlock scanEnd)
      (fun rangeFrom rangeTo => issue (.getLogs token direction addresses rangeFrom rangeTo))
      collectRange []).alone provider.exec w = (.ok logs, w')) :
    Enough (scanOptions env fromBlock scanEnd) env.maxRange (scanEnd + 1 - fromBlock)
      env.maxLogCallsPerJob := by
  have valid := scanOptions_valid env window
  rw [scanLogsAdaptive_of_valid valid] at run
  have enough := enough_of_scanRanges (I := fun w => ∀ n, w.chain.transfers n = []) ?_
    (valid.spans _) env.minRange_mem.1 empty run
  · rwa [start_span] at enough
  intro a b w empty
  refine ⟨_, _, rfl, empty, ?_⟩
  have refused : provider.refuses w.logCalls a b = _ := refusing w.logCalls a b
  split
  · rename_i large
    have large : env.minRange < b + 1 - a := large
    refine ⟨e, ?_, capacity⟩
    show answerRange (provider.refuses w.logCalls a b) _ = _
    rw [refused, if_pos large]
    rfl
  · rename_i small
    have small : ¬ env.minRange < b + 1 - a := small
    show answerRange (provider.refuses w.logCalls a b) _ = _
    rw [refused, if_neg small]
    simp [answerRange, Chain.getLogs, empty]

end Scan

/-! ### A whole run -/

section Run

variable {provider : Provider} {env : IndexerEnv} {call : IndexerCall} {token : Token}
  {w₀ w : IndexerWorld} {epoch : Nat} {fromBlock scanEnd : BlockNumber}

/-- A block that has logs of the chain is one of its blocks. -/
theorem FoundIn.onChain {chain : Chain} {logs : List TransferLog}
    (found : FoundIn chain fromBlock scanEnd logs) {b : BlockLogs} (hb : b ∈ orderedBlocks logs) :
    b.blockHash = chain.hash b.blockNumber := by
  have madeOf := orderedBlocks_madeOf logs
  obtain ⟨log, hlog⟩ := madeOf.nonempty b hb
  obtain ⟨mem, block⟩ := madeOf.logs b hb log hlog
  obtain ⟨n, t, -, -, -, rfl⟩ := found log mem
  rw [← Option.some.inj block.blockNumber, ← Option.some.inj block.blockHash]

/-- What was found is ingested, and the cursor set to a block of the window. -/
theorem ingestWindow_ends (h : Steady env w₀ w) (g : Guarded env epoch w₀)
    (window : fromBlock ≤ scanEnd) {logs : List TransferLog}
    (found : FoundIn w₀.chain fromBlock scanEnd logs) (cursor : Option BlockNumber) :
    (ingestWindow env call.partition token epoch cursor fromBlock scanEnd logs).Ends provider.exec w
      fun committed w' => fromBlock ≤ committed ∧ Moved env call.partition w₀ committed w' := by
  obtain ⟨committed, ok, place⟩ := boundedEvidenceWindowEnd_ok scanEnd logs
    env.maxEventBlocksPerJob_pos
  have behind : fromBlock ≤ committed := by
    rcases place with rfl | ⟨log, mem, number⟩
    · exact window
    · obtain ⟨n, t, low, -, -, rfl⟩ := found log mem
      rwa [← Option.some.inj number]
  unfold ingestWindow
  rw [ok]
  apply Prog.ends_ofExcept
  refine Prog.ends_bind (selectUsersOf_ends h _) fun users w₁ h₁ => ?_
  refine Prog.ends_bind (ingestBlocks_ends h₁ g fun b hb => ?_) fun _ w₂ h₂ => ?_
  · have committedOnly : FoundIn w₀.chain fromBlock scanEnd
        (logs.filter fun log => log.blockNumber.any (· ≤ committed)) :=
      fun l hl => found l (List.mem_of_mem_filter hl)
    exact committedOnly.onChain hb
  · exact Prog.ends_bind (commitWindow_ends h₂ g cursor fromBlock committed) fun _ w₃ moved =>
      Prog.ends_ret ⟨behind, moved⟩

/-- A run comes to its window with nothing changed. -/
theorem run_eq_scanWindow (ready : w.Ready env call.partition)
    (behind : scanStart (w.cursor env call.partition) provider.scanHead ≤ provider.scanHead) :
    ∃ token addresses w₁, ∃ finish : BlockNumber → ChainIndexRunResult, Steady env w w₁ ∧
      (∀ c, (finish c).cursor = c) ∧ provider.run env call w =
        ((scanWindow env call.partition token (w.db.getChainReorgEpoch env.chainId) addresses
          (w.cursor env call.partition)
          (scanStart (w.cursor env call.partition) provider.scanHead) provider.scanHead).bind
            fun c => .ret (some (finish c))).alone provider.exec w₁ := by
  obtain ⟨token, found⟩ := ready.token
  let listed : IndexerWorld :=
    { w with listedAt := fun j => if j = 0 then w.past.length else w.listedAt j }
  have steady : Steady env w listed := ⟨rfl, rfl, rfl, rfl, ready.checkpoints⟩
  obtain ⟨u, w₁, verified, h₁⟩ := verifyAndRecover_ends provider steady
    (transferJournalStream env.chainId call.partition)
  let addresses := (w.registry.listWalletsForIndexerShard env.chainId
    (transferAssignmentStream env.chainId) call.partition.shardId).map (·.walletAddress)
  refine ⟨token, addresses, w₁, fun committed =>
    { cursor := committed
      targetBlock := max (call.targetBlock.getD provider.scanHead) provider.scanHead
      scanHead := provider.scanHead
      caughtUp := decide (max (call.targetBlock.getD provider.scanHead) provider.scanHead ≤
        committed) }, h₁, fun _ => rfl, ?_⟩
  have wallets : ¬ (w.registry.listWalletsForIndexerShard env.chainId
      (transferAssignmentStream env.chainId) call.partition.shardId).isEmpty = true := by
    rw [List.isEmpty_iff]
    exact ready.wallets
  have cursor : w₁.cursor env call.partition = w.cursor env call.partition := by
    rw [IndexerWorld.cursor, h₁.syncState]
    rfl
  unfold Provider.run runIndexer
  simp only [found, if_neg ready.rpcUrls]
  show Prog.alone _ (if (w.registry.listWalletsForIndexerShard env.chainId
    (transferAssignmentStream env.chainId) call.partition.shardId).isEmpty = true then _ else _)
      listed = _
  rw [if_neg wallets]
  show Prog.alone _ ((indexFrom env call.partition token addresses call.targetBlock
    provider.scanHead).bind fun result => .ret (some result)) listed = _
  unfold indexFrom
  rw [Prog.bind_eq, Prog.bind_assoc, Prog.alone_bind verified]
  show Prog.alone _ (Prog.bind (if provider.scanHead <
    scanStart (w₁.cursor env call.partition) provider.scanHead then _ else _) _) w₁ = _
  rw [if_neg (by rw [cursor]; exact Nat.not_lt.2 behind), Prog.bind_eq, Prog.bind_assoc,
    ← h₁.epoch, ← cursor]
  rfl

/-- The window of a run, bounded by its budgets. -/
abbrev IndexerWorld.start (w : IndexerWorld) (env : IndexerEnv) (call : IndexerCall)
    (scanHead : BlockNumber) : BlockNumber :=
  scanStart (w.cursor env call.partition) scanHead

theorem windowBlocks_le (env : IndexerEnv) (fromBlock scanHead : BlockNumber) :
    env.windowBlocks fromBlock scanHead ≤ env.maxRange * env.maxLogCallsPerJob :=
  Nat.le_trans (Nat.min_le_left _ _) (Nat.min_le_left _ _)

/-- What is left of a window is as long as the window. -/
theorem window_length (fromBlock : Nat) {blocks : Nat} (pos : 1 ≤ blocks) :
    fromBlock + blocks - 1 + 1 - fromBlock = blocks := by
  omega

theorem window_nonempty (fromBlock : Nat) {blocks : Nat} (pos : 1 ≤ blocks) :
    fromBlock ≤ fromBlock + blocks - 1 := by
  omega

theorem guarded_of_ready (ready : w.Ready env call.partition) :
    Guarded env (w.db.getChainReorgEpoch env.chainId) w :=
  ⟨ready.chainId, ready.epoch, rfl⟩

/-- A run whose calls are enough for its window completes, and moves the cursor. -/
theorem run_moves (ready : w.Ready env call.partition)
    (behind : w.start env call provider.scanHead ≤ provider.scanHead)
    (serves : provider.Serves env.minRange)
    (sufficient : Sufficient env
      (env.windowBlocks (w.start env call provider.scanHead) provider.scanHead)) :
    ∃ result w', provider.run env call w = (.ok (some result), w') ∧
      w.start env call provider.scanHead ≤ result.cursor ∧
      Moved env call.partition w result.cursor w' := by
  obtain ⟨token, addresses, w₁, finish, h₁, cursor_finish, run⟩ := run_eq_scanWindow ready behind
  obtain ⟨window, pos, -⟩ := boundedScanWindowEnd_eq env behind
  have nonempty := window_nonempty (w.start env call provider.scanHead) pos
  have enough := (enough_iff_sufficient (w.start env call provider.scanHead)
    (w.start env call provider.scanHead +
      env.windowBlocks (w.start env call provider.scanHead) provider.scanHead - 1) pos
    (windowBlocks_le _ _ _)).2 sufficient
  rw [← window_length (w.start env call provider.scanHead) pos] at enough
  have ends : (scanWindow env call.partition token (w.db.getChainReorgEpoch env.chainId) addresses
      (w.cursor env call.partition) (w.start env call provider.scanHead) provider.scanHead).Ends
        provider.exec w₁ fun committed w' =>
          w.start env call provider.scanHead ≤ committed ∧
            Moved env call.partition w committed w' := by
    unfold scanWindow
    rw [window]
    apply Prog.ends_ofExcept
    refine Prog.ends_bind (scan_ends h₁ serves nonempty _ _ _ enough) fun logs w₂ h₂ => ?_
    exact ingestWindow_ends h₂.1 (guarded_of_ready ready) nonempty h₂.2 _
  obtain ⟨committed, w', scanned, low, moved⟩ := ends
  refine ⟨finish committed, w', ?_, ?_, ?_⟩
  · rw [run, Prog.alone_bind scanned]
    rfl
  · rwa [cursor_finish]
  · rwa [cursor_finish]

/-- A run that completes against a provider that refuses whatever it may had calls enough. -/
theorem sufficient_of_run (ready : w.Ready env call.partition)
    (behind : w.start env call provider.scanHead ≤ provider.scanHead) {e : RpcError}
    (refusing : Refusing provider env.minRange e) (capacity : isRangeCapacityError e = true)
    (empty : ∀ n, w.chain.transfers n = []) {result : Option ChainIndexRunResult}
    {w' : IndexerWorld} (completes : provider.run env call w = (.ok result, w')) :
    Sufficient env (env.windowBlocks (w.start env call provider.scanHead) provider.scanHead) := by
  obtain ⟨token, addresses, w₁, finish, h₁, -, run⟩ := run_eq_scanWindow ready behind
  obtain ⟨window, pos, -⟩ := boundedScanWindowEnd_eq env behind
  have nonempty := window_nonempty (w.start env call provider.scanHead) pos
  rw [run] at completes
  unfold scanWindow at completes
  rw [window, Prog.bind_eq, Prog.bind_assoc] at completes
  have rest : Prog.alone provider.exec (Prog.bind (Prog.bind (scanLogsAdaptive _ _ _ _) _) _) w₁ =
    (.ok result, w') := completes
  rw [Prog.bind_assoc] at rest
  cases scanned : (scanLogsAdaptive (scanOptions env (w.start env call provider.scanHead)
      (w.start env call provider.scanHead +
        env.windowBlocks (w.start env call provider.scanHead) provider.scanHead - 1))
      (fun rangeFrom rangeTo => issue (.getLogs token.address call.partition.direction addresses
        rangeFrom rangeTo)) collectRange []).alone provider.exec w₁ with
  | mk outcome w₂ =>
    cases outcome with
    | error m =>
      rw [Prog.alone_bind_error scanned] at rest
      cases rest
    | ok logs =>
      have enough := enough_of_scan refusing capacity
        (by rw [h₁.chain]; exact empty) nonempty scanned
      rw [window_length _ pos] at enough
      exact (enough_iff_sufficient _ _ pos (windowBlocks_le _ _ _)).1 enough

end Run

/-! ### Runs one after the other -/

section Runs

variable {provider : Provider} {env : IndexerEnv} {call : IndexerCall} {w w' : IndexerWorld}
  {cursor : BlockNumber}

/-- A run that has moved leaves the next one what it found itself. -/
theorem Moved.ready (moved : Moved env call.partition w cursor w')
    (ready : w.Ready env call.partition) : w'.Ready env call.partition where
  token := ready.token
  rpcUrls := ready.rpcUrls
  wallets := by
    rw [moved.registry]
    exact ready.wallets
  chainId := ready.chainId
  epoch := by
    rw [moved.epoch]
    exact ready.epoch
  checkpoints := moved.checkpoints

/-- A window that starts later is no longer. -/
theorem windowBlocks_mono (env : IndexerEnv) {fromBlock fromBlock' : Nat} (scanHead : BlockNumber)
    (le : fromBlock ≤ fromBlock') :
    env.windowBlocks fromBlock' scanHead ≤ env.windowBlocks fromBlock scanHead := by
  apply Nat.le_min.2
  constructor
  · exact Nat.min_le_left _ _
  · exact Nat.le_trans (Nat.min_le_right _ _) (Nat.sub_le_sub_left le _)

/-- Where there is nothing to scan, the cursor is at the head. -/
theorem cursor_of_start {scanHead : BlockNumber} (done : scanHead < w.start env call scanHead) :
    ∃ cursor, w.cursor env call.partition = some cursor ∧ scanHead ≤ cursor := by
  change scanHead < scanStart (w.cursor env call.partition) scanHead at done
  cases found : w.cursor env call.partition with
  | none =>
    rw [found] at done
    exact absurd (Nat.sub_le scanHead backfillBlocks) (Nat.not_le.2 done)
  | some cursor =>
    rw [found] at done
    exact ⟨cursor, rfl, Nat.le_of_lt_succ done⟩

theorem advances_of_sufficient (ready : w.Ready env call.partition)
    (behind : w.start env call provider.scanHead ≤ provider.scanHead)
    (serves : provider.Serves env.minRange)
    (sufficient : Sufficient env
      (env.windowBlocks (w.start env call provider.scanHead) provider.scanHead)) :
    provider.Advances env call w := by
  obtain ⟨result, w', run, low, moved⟩ := run_moves ready behind serves sufficient
  exact ⟨result, w', run, low, moved.cursor⟩

theorem distance_lt {head start committed distance : Nat} (behind : start ≤ head)
    (low : start ≤ committed) (near : head + 1 - start ≤ distance + 1) :
    head + 1 - (committed + 1) ≤ distance := by
  omega

/-- With calls enough for its window, a run comes nearer to the head; the next window is no
longer, and so the calls are enough for it too. -/
theorem reaches_head (serves : provider.Serves env.minRange) {distance : Nat}
    (ready : w.Ready env call.partition)
    (near : provider.scanHead + 1 - w.start env call provider.scanHead ≤ distance)
    (sufficient : Sufficient env
      (env.windowBlocks (w.start env call provider.scanHead) provider.scanHead)) :
    ∃ k cursor, (provider.runs env call k w).cursor env call.partition = some cursor ∧
      provider.scanHead ≤ cursor := by
  induction distance generalizing w with
  | zero =>
    obtain ⟨cursor, found, high⟩ := cursor_of_start (Nat.le_of_sub_eq_zero (Nat.le_zero.1 near))
    exact ⟨0, cursor, found, high⟩
  | succ distance ih =>
    by_cases done : provider.scanHead < w.start env call provider.scanHead
    · obtain ⟨cursor, found, high⟩ := cursor_of_start done
      exact ⟨0, cursor, found, high⟩
    have behind := Nat.not_lt.1 done
    obtain ⟨result, w', run, low, moved⟩ := run_moves ready behind serves sufficient
    have start : w'.start env call provider.scanHead = result.cursor + 1 := by
      rw [IndexerWorld.start, moved.cursor]
      rfl
    have later : w.start env call provider.scanHead ≤ w'.start env call provider.scanHead := by
      rw [start]
      exact Nat.le_succ_of_le low
    have nearer : provider.scanHead + 1 - w'.start env call provider.scanHead ≤ distance := by
      rw [start]
      exact distance_lt behind low near
    obtain ⟨k, cursor, found, high⟩ := ih (moved.ready ready) nearer
      (sufficient.mono (windowBlocks_mono env _ later))
    refine ⟨k + 1, cursor, ?_, high⟩
    rw [Provider.runs, run]
    exact found

end Runs

/-! ### When runs get on -/

/-- A chain with the same blocks and no transfers. -/
def Chain.withoutTransfers (chain : Chain) : Chain :=
  { chain with
    transfers := fun _ => []
    located := fun mem => absurd mem List.not_mem_nil }

theorem IndexerWorld.Ready.withChain {env : IndexerEnv} {partition : TransferIndexerPartition}
    {w : IndexerWorld} (ready : w.Ready env partition) (chain : Chain)
    (same : chain.hash = w.chain.hash) : IndexerWorld.Ready env partition { w with chain } where
  token := ready.token
  rpcUrls := ready.rpcUrls
  wallets := ready.wallets
  chainId := ready.chainId
  epoch := ready.epoch
  checkpoints := by
    intro r hr ofChain
    rw [show ({ w with chain } : IndexerWorld).chain.hash = w.chain.hash from same]
    exact ready.checkpoints r hr ofChain

/-- The error of a provider that finds a range too large. -/
def blockRangeError : RpcError :=
  ⟨"block range".toList⟩

theorem blockRangeError_capacity : isRangeCapacityError blockRangeError = true := by
  refine List.any_eq_true.2 ⟨"block range", List.mem_cons_self, decide_eq_true ?_⟩
  exact List.infix_rfl

/-- A provider that has come to a block and refuses all that it may. -/
def Provider.refusing (scanHead : BlockNumber) (blocks : Nat) : Provider where
  latest := scanHead
  safe := some scanHead
  now := 0
  refuses _ fromBlock toBlock :=
    if blocks < toBlock + 1 - fromBlock then some blockRangeError else none

theorem scanHead_refusing (scanHead : BlockNumber) (blocks : Nat) :
    (Provider.refusing scanHead blocks).scanHead = scanHead := by
  have lag : scanHead ≤ scanHead ∧ scanHead - scanHead ≤ maxSafeHeadLagBlocks := by
    rw [Nat.sub_self]
    exact ⟨Nat.le_refl _, Nat.zero_le _⟩
  exact if_pos lag

theorem refusing_refusing (scanHead : BlockNumber) (blocks : Nat) :
    Refusing (Provider.refusing scanHead blocks) blocks blockRangeError := by
  intro calls fromBlock toBlock
  rfl

/-- Whatever transfers there are, and whatever the provider refuses above the smallest
span: every run completes and moves the cursor, and runs one after the other reach every
block up to the head, exactly when the calls are enough for the window. -/
theorem indexer_progresses_iff (env : IndexerEnv) (call : IndexerCall) (w : IndexerWorld)
    (scanHead : BlockNumber) (ready : w.Ready env call.partition)
    (behind : w.start env call scanHead ≤ scanHead) :
    (∀ chain : Chain, chain.hash = w.chain.hash → ∀ provider : Provider,
      provider.scanHead = scanHead → provider.Serves env.minRange →
        provider.Advances env call { w with chain } ∧ provider.Reaches env call { w with chain }) ↔
      Sufficient env (env.windowBlocks (w.start env call scanHead) scanHead) := by
  constructor
  · intro progress
    have head := scanHead_refusing scanHead env.minRange
    have refusing := refusing_refusing scanHead env.minRange
    obtain ⟨⟨result, w', run, -⟩, -⟩ := progress w.chain.withoutTransfers rfl
      (.refusing scanHead env.minRange) head (refusing.serves blockRangeError_capacity)
    have enough := sufficient_of_run (ready.withChain w.chain.withoutTransfers rfl)
      (by rwa [head]) refusing blockRangeError_capacity (fun _ => rfl) run
    rwa [head] at enough
  · rintro sufficient chain same provider rfl serves
    have ready' := ready.withChain chain same
    refine ⟨advances_of_sufficient ready' behind serves sufficient, fun n le => ?_⟩
    obtain ⟨k, cursor, found, high⟩ := reaches_head serves ready' (Nat.le_refl _) sufficient
    exact ⟨k, cursor, found, Nat.le_trans le high⟩

/-! Defaults, ranges of up to 2000 blocks, and a cursor at block 0. -/

def defaultEnv : IndexerEnv where
  chainId := 421614
  tokens := [{ address := 7, symbol := 1 }]
  rpcUrls := 1
  maxLogRange := 2000
  rpcIndexerMinBlockRange := none
  indexerMaxRpcCallsPerJob := none
  indexerMaxBlocksPerJob := none
  indexerMaxEventBlocksPerJob := none
  internalSenders := []

def shardZero : TransferIndexerPartition where
  token := 7
  token_lt := by decide
  direction := .to
  shardId := 0

def quietWorld : IndexerWorld where
  projector :=
    { ProjectorWorld.initial (fun _ n => n) with
      db := { Db.initial with
        syncState := setSyncCursor .empty (transferSyncCursorKey 421614 shardZero) 0 } }
  chain :=
    { hash := fun n => n
      height := some
      transfers := fun _ => []
      height_hash := fun _ => rfl
      located := fun mem => absurd mem List.not_mem_nil }
  registry :=
    { users := [{ uid := 1, walletAddress := some 9 }]
      assignments := [{ chainId := 421614, stream := transferAssignmentStream 421614
                        accountAddress := 9, uid := 1, shardId := 0, active := true }] }
  refreshRequests := .empty
  past := []
  windows := []
  listedAt _ := 0
  logCalls := 0

theorem quietWorld_ready : quietWorld.Ready defaultEnv shardZero where
  token := ⟨_, rfl⟩
  rpcUrls := by decide
  wallets := by
    simp [Registry.listWalletsForIndexerShard, quietWorld, defaultEnv, shardZero]
  chainId := by decide
  epoch := Nat.zero_le _
  checkpoints := fun _ mem => absurd mem List.not_mem_nil

theorem quietWorld_start (scanHead : BlockNumber) :
    quietWorld.start defaultEnv ⟨shardZero, none⟩ scanHead = 1 := by
  have cursor : quietWorld.cursor defaultEnv shardZero = some 0 :=
    (getSyncCursor_setSyncCursor _ _ _ _).trans (if_pos rfl)
  rw [IndexerWorld.start, cursor]
  rfl

/-- Ten blocks are one range of the smallest span. -/
theorem indexer_progresses_iff_ten_blocks :
    quietWorld.start defaultEnv ⟨shardZero, none⟩ 10 ≤ 10 ∧
      ∀ chain : Chain, chain.hash = quietWorld.chain.hash → ∀ provider : Provider,
        provider.scanHead = 10 → provider.Serves defaultEnv.minRange →
          provider.Advances defaultEnv ⟨shardZero, none⟩ { quietWorld with chain } ∧
            provider.Reaches defaultEnv ⟨shardZero, none⟩ { quietWorld with chain } := by
  have start := quietWorld_start 10
  have behind : quietWorld.start defaultEnv ⟨shardZero, none⟩ 10 ≤ 10 := by
    rw [start]
    decide
  refine ⟨behind, (indexer_progresses_iff defaultEnv ⟨shardZero, none⟩ quietWorld 10 quietWorld_ready
    behind).2 (.inl ?_)⟩
  rw [start]
  decide

/-- A hundred blocks are too many: each of the ten smallest ranges but the last is followed by
a range that is refused, and sixteen calls are not enough for that. -/
theorem hundred_blocks_stall :
    ¬ ∀ provider : Provider, provider.Serves defaultEnv.minRange →
      quietWorld.start defaultEnv ⟨shardZero, none⟩ provider.scanHead ≤ provider.scanHead →
        provider.Advances defaultEnv ⟨shardZero, none⟩ quietWorld := by
  intro progress
  have head := scanHead_refusing 100 defaultEnv.minRange
  have refusing := refusing_refusing 100 defaultEnv.minRange
  have start := quietWorld_start 100
  have behind : quietWorld.start defaultEnv ⟨shardZero, none⟩
      (Provider.refusing 100 defaultEnv.minRange).scanHead ≤
        (Provider.refusing 100 defaultEnv.minRange).scanHead := by
    rw [head, start]
    decide
  obtain ⟨result, w', run, -⟩ := progress _ (refusing.serves blockRangeError_capacity) behind
  have enough := sufficient_of_run quietWorld_ready behind refusing blockRangeError_capacity
    (fun _ => rfl) run
  rw [head, start] at enough
  have blocks : defaultEnv.windowBlocks 1 100 = 100 := by decide
  have min : defaultEnv.minRange = 10 := by decide
  have max : defaultEnv.maxRange = 2000 := by decide
  have calls : defaultEnv.maxLogCallsPerJob = 16 := by decide
  rw [blocks, Sufficient, min, max, calls] at enough
  rcases enough with enough | enough | ⟨k, m, -, ranges, budget⟩
  · omega
  · omega
  · -- ten ranges, and a refusal after each but the last
    have ten : 10 ≤ m := by omega
    omega

end ParmeliaLinks.Server
