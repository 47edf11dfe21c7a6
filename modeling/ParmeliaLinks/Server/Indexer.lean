/-
ParmeliaLinks/Server/Indexer.lean

The indexer of transfers.  A run looks after one partition: a token, a direction, and the
wallets of a shard.  It checks the checkpoint of its stream against the provider, scans a
window of blocks from its cursor on for transfers from or to the wallets, journals and
projects them block by block, writes deposits to the ledger, and only then moves the
cursor to the end of the window.  Windows are bounded: by the calls of one run, by a
number of blocks, and by the number of blocks that have transfers.

The chain is a parameter: each block has one hash, and a transfer is in one block.  The
providers answer from it, or not at all.  What a provider answers to a range of logs that
it refuses, and how far it says the chain has got, is part of the answer of each step.
-/
import Mathlib.Data.List.Basic
import ParmeliaLinks.Lib.Embed
import ParmeliaLinks.Server.AdaptiveLogs
import ParmeliaLinks.Server.BalanceProjector
import ParmeliaLinks.Server.BalanceRefresh

namespace ParmeliaLinks.Server

/-! ### Configuration -/

structure Token where
  address : Address
  symbol : Asset

/-- The network and the variables of the environment, as numbers where they are numbers. -/
structure IndexerEnv where
  chainId : ChainId
  tokens : List Token
  rpcUrls : Nat
  maxLogRange : Nat
  rpcIndexerMinBlockRange : Option Int
  indexerMaxRpcCallsPerJob : Option Int
  indexerMaxBlocksPerJob : Option Int
  indexerMaxEventBlocksPerJob : Option Int
  internalSenders : List Address

def boundedConfigInteger (raw : Option Int) (fallbackValue min max : Nat) : Nat :=
  match raw with
  | none => fallbackValue
  | some value => clamp value.toNat min max

namespace IndexerEnv

variable (env : IndexerEnv)

/-- The largest range, of the provider that serves most. -/
def maxRange : Nat := if 0 < env.maxLogRange then env.maxLogRange else 1

/-- The smallest range that a scan comes down to. -/
def minRange : Nat :=
  let min := boundedConfigInteger env.rpcIndexerMinBlockRange 10 1 10000000
  if env.maxRange < min then env.maxRange else min

def maxLogCallsPerJob : Nat := boundedConfigInteger env.indexerMaxRpcCallsPerJob 16 1 1000

def maxBlocksPerJob : Nat := boundedConfigInteger env.indexerMaxBlocksPerJob 20000 1 10000000

def maxEventBlocksPerJob : Nat := boundedConfigInteger env.indexerMaxEventBlocksPerJob 8 1 100

end IndexerEnv

/-! ### Partitions -/

inductive TransferDirection | «from» | «to»
  deriving DecidableEq

/-- A token, a direction and a shard of wallets. -/
structure TransferIndexerPartition where
  token : Address
  token_lt : token < 2 ^ 160
  direction : TransferDirection
  shardId : Nat
  deriving DecidableEq

def hexDigit (d : Nat) : Char := if d < 10 then Char.ofNat (48 + d) else Char.ofNat (87 + d)

/-- The last digits of a number, in hexadecimal. -/
def hexDigits : Nat → Nat → Text
  | 0, _ => []
  | width + 1, n => hexDigits width (n / 16) ++ [hexDigit (n % 16)]

def TransferDirection.name : TransferDirection → Text
  | .from => ['f', 'r', 'o', 'm']
  | .to => ['t', 'o']

/-- `<token>:<direction>:shard:<shard>`. -/
def TransferIndexerPartition.text (partition : TransferIndexerPartition) : Text :=
  '0' :: 'x' :: (hexDigits 40 partition.token ++ ':' :: (partition.direction.name ++
    ':' :: (['s', 'h', 'a', 'r', 'd'] ++ ':' :: decimal partition.shardId)))

def erc20Transfers : Text :=
  ['e', 'r', 'c', '2', '0', '_', 't', 'r', 'a', 'n', 's', 'f', 'e', 'r', 's']

def transferAssignmentStream (chainId : ChainId) : Text := erc20Transfers ++ ':' :: decimal chainId

def transferJournalStream (chainId : ChainId) (partition : TransferIndexerPartition) : Text :=
  transferAssignmentStream chainId ++ ':' :: partition.text

def transferSyncCursorKey (chainId : ChainId) (partition : TransferIndexerPartition) : CursorKey :=
  .stream .transfers chainId partition.text

/-! ### Users and shards -/

structure UserRow where
  uid : Uid
  walletAddress : Option Address

structure WalletAssignment where
  chainId : ChainId
  stream : Text
  accountAddress : Address
  uid : Uid
  shardId : Nat
  active : Bool

/-- Who the wallets belong to, and which shards they are assigned to. -/
structure Registry where
  users : List UserRow
  assignments : List WalletAssignment

structure IndexerWallet where
  uid : Uid
  walletAddress : Address
  deriving DecidableEq

def Registry.listWalletsForIndexerShard (registry : Registry) (chainId : ChainId) (stream : Text)
    (shardId : Nat) : List IndexerWallet :=
  ((registry.assignments.filter fun a => a.chainId == chainId && a.stream == stream &&
      a.shardId == shardId && a.active).mergeSort
    fun a b => decide (a.accountAddress ≤ b.accountAddress)).map
      fun a => { uid := a.uid, walletAddress := a.accountAddress }

/-- `SELECT uid, wallet_address FROM users WHERE wallet_address IN (…)`. -/
def Registry.selectUsers (registry : Registry) (addresses : List Address) : List IndexerWallet :=
  registry.users.filterMap fun user => user.walletAddress.bind fun walletAddress =>
    if walletAddress ∈ addresses then some { uid := user.uid, walletAddress } else none

/-! ### The chain -/

structure Transfer where
  address : Address
  fromAddress : Address
  toAddress : Address
  value : Nat
  transactionHash : TxHash
  logIndex : Nat

structure Chain where
  hash : BlockNumber → BlockHash
  height : BlockHash → Option BlockNumber
  transfers : BlockNumber → List Transfer
  height_hash : ∀ n, height (hash n) = some n
  /-- An index in a transaction is that of one log, in one block. -/
  located : ∀ {m n t t'}, t ∈ transfers m → t' ∈ transfers n →
    t.transactionHash = t'.transactionHash → t.logIndex = t'.logIndex → m = n ∧ t = t'

/-- A log as a provider returns it. -/
structure TransferLog where
  address : Address
  fromAddress : Option Address
  toAddress : Option Address
  value : Option Int
  blockHash : Option BlockHash
  blockNumber : Option BlockNumber
  logIndex : Option Nat
  transactionHash : Option TxHash
  removed : Bool
  deriving DecidableEq

/-- The log of a transfer in a block. -/
def Chain.log (chain : Chain) (n : BlockNumber) (t : Transfer) : TransferLog where
  address := t.address
  fromAddress := some t.fromAddress
  toAddress := some t.toAddress
  value := some t.value
  blockHash := some (chain.hash n)
  blockNumber := some n
  logIndex := some t.logIndex
  transactionHash := some t.transactionHash
  removed := false

/-- The wallet of a transfer that a direction is about. -/
def Transfer.party (t : Transfer) : TransferDirection → Address
  | .from => t.fromAddress
  | .to => t.toAddress

/-- The logs of a range that a filter finds. -/
def Chain.getLogs (chain : Chain) (token : Address) (direction : TransferDirection)
    (addresses : List Address) (fromBlock toBlock : BlockNumber) : List TransferLog :=
  (List.range' fromBlock (toBlock + 1 - fromBlock)).flatMap fun n =>
    ((chain.transfers n).filter fun t =>
      t.address == token && decide (t.party direction ∈ addresses)).map (chain.log n)

/-! ### The window -/

def boundedScanWindowEnd (fromBlock latest : BlockNumber) (maxBlockSpan filterCount maxCalls
    maxBlocks : Nat) : Except String BlockNumber :=
  if filterCount < 1 then .error "Indexer filter count must be a positive safe integer"
  else if maxCalls < filterCount then
    .error ("Indexer requires " ++ toString filterCount ++
      " filters; split the stream across Queue jobs")
  else
    let rangesPerFilter := max 1 (maxCalls / filterCount)
    let windowBlocks := min (maxBlockSpan * rangesPerFilter) maxBlocks
    .ok (min (fromBlock + windowBlocks - 1) latest)

def boundedEvidenceWindowEnd (requestedEnd : BlockNumber) (logs : List TransferLog)
    (maximumEventBlocks : Nat) : Except String BlockNumber :=
  if maximumEventBlocks < 1 then
    .error "Indexer event-block budget must be a positive safe integer"
  else
    let blocks := (logs.filterMap (·.blockNumber)).eraseDups.mergeSort fun m n => decide (m ≤ n)
    if maximumEventBlocks < blocks.length then .ok (blocks.getD (maximumEventBlocks - 1) requestedEnd)
    else .ok requestedEnd

def backfillBlocks : Nat := 5000

def safeHeadFallbackBlocks : Nat := 64

def maxSafeHeadLagBlocks : Nat := 512

/-- The head that a scan goes up to: the safe block where the provider has a recent one. -/
def indexerScanHead (latest : BlockNumber) (safe : Option BlockNumber) : BlockNumber :=
  match safe with
  | some number =>
    if number ≤ latest ∧ latest - number ≤ maxSafeHeadLagBlocks then number
    else latest - safeHeadFallbackBlocks
  | none => latest - safeHeadFallbackBlocks

/-- Where a run starts: behind its cursor, or a little below the head. -/
def scanStart (cursor : Option BlockNumber) (scanHead : BlockNumber) : BlockNumber :=
  match cursor with
  | some cursor => cursor + 1
  | none => scanHead - backfillBlocks

/-! ### Logs, events and entries -/

/-- `transferLogKey`: a log that is not in a block has none. -/
def transferLogKey (log : TransferLog) : Option (TxHash × Nat × BlockHash) := do
  let transactionHash ← log.transactionHash
  let logIndex ← log.logIndex
  let blockHash ← log.blockHash
  return (transactionHash, logIndex, blockHash)

/-- Put a log in the map of logs by their keys. -/
def setByIdentity (logs : List TransferLog) (log : TransferLog) : List TransferLog :=
  match transferLogKey log with
  | none => logs
  | some key =>
    if logs.any fun l => transferLogKey l == some key then
      logs.map fun l => if transferLogKey l == some key then log else l
    else logs ++ [log]

/-- `onRange`. -/
def collectRange (logs found : List TransferLog) : List TransferLog := found.foldl setByIdentity logs

/-- The logs of one block. -/
structure BlockLogs where
  blockNumber : BlockNumber
  blockHash : BlockHash
  logs : List TransferLog

/-- Put a log with those of its block. -/
def addToBlock (blocks : List BlockLogs) (log : TransferLog) : List BlockLogs :=
  match log.removed, log.blockNumber, log.blockHash, log.transactionHash, log.logIndex with
  | false, some blockNumber, some blockHash, some _, some _ =>
    if blocks.any fun b => b.blockNumber == blockNumber && b.blockHash == blockHash then
      blocks.map fun b =>
        if b.blockNumber == blockNumber && b.blockHash == blockHash then
          { b with logs := b.logs ++ [log] }
        else b
    else blocks ++ [{ blockNumber, blockHash, logs := [log] }]
  | _, _, _, _, _ => blocks

def orderedBlocks (logs : List TransferLog) : List BlockLogs :=
  (logs.foldl addToBlock []).mergeSort fun a b => decide (a.blockNumber ≤ b.blockNumber)

/-- The users by their wallets. -/
def uidOf (users : List IndexerWallet) (address : Option Address) : Option Uid :=
  address.bind fun a => (users.find? fun user => user.walletAddress == a).map (·.uid)

/-- One side of a transfer, if it is a user's. -/
def accountOf (users : List IndexerWallet) (token : Token) (address : Option Address)
    (deltaRaw : Int) : List JournalEventAccount :=
  match address, uidOf users address with
  | some accountAddress, some uid => [{ uid, accountAddress, asset := token.symbol
                                        deltaRaw := some deltaRaw }]
  | _, _ => []

def accountsOf (users : List IndexerWallet) (token : Token) (log : TransferLog) :
    List JournalEventAccount :=
  accountOf users token log.fromAddress (-(log.value.getD 0)) ++
    accountOf users token log.toAddress (log.value.getD 0)

/-- The log is one of the token, and of a user. -/
def relevant (users : List IndexerWallet) (token : Token) (log : TransferLog) : Bool :=
  log.address == token.address && decide (0 ≤ log.value.getD 0) &&
    !(accountsOf users token log).isEmpty

def journalEventOf (users : List IndexerWallet) (token : Token) (b : BlockLogs)
    (log : TransferLog) : Option JournalEvent := do
  let txHash ← log.transactionHash
  let logIndex ← log.logIndex
  if relevant users token log then
    return { txHash, logIndex, eventKind := .erc20Transfer, blockNumber := b.blockNumber
             blockHash := b.blockHash, canonical := true
             accounts := accountsOf users token log }
  else none

/-- A deposit from outside: the settlement path has written the others. -/
def ledgerEntryOf (env : IndexerEnv) (users : List IndexerWallet) (token : Token) (b : BlockLogs)
    (log : TransferLog) : Option LedgerRow := do
  let txHash ← log.transactionHash
  let logIndex ← log.logIndex
  let uid ← uidOf users log.toAddress
  if relevant users token log ∧ uidOf users log.fromAddress = none ∧
      (log.fromAddress.all fun a => a ∉ env.internalSenders) then
    return { uid, direction := .into, kind := .external, txHash, logIndex := some logIndex
             token := token.symbol, chainId := some env.chainId
             blockNumber := some b.blockNumber, blockHash := some b.blockHash, canonical := true }
  else none

/-- The wallets that a block touches, by user. -/
def setAffectedUser (affected : List IndexerWallet) (account : JournalEventAccount) :
    List IndexerWallet :=
  let wallet : IndexerWallet := { uid := account.uid, walletAddress := account.accountAddress }
  if affected.any fun a => a.uid == wallet.uid then
    affected.map fun a => if a.uid == wallet.uid then wallet else a
  else affected ++ [wallet]

def affectedUsers (events : List JournalEvent) : List IndexerWallet :=
  (events.flatMap (·.accounts)).foldl setAffectedUser []

/-! ### The ledger and the cursor -/

/-- One entry: a row that a recovery has taken back becomes canonical again. -/
def writeLedgerEntry (ledger : Table LedgerRow) (entry : LedgerRow) : Table LedgerRow :=
  ledger.upsert { entry with canonical := true }
    (fun r =>
      if r.canonical = false ∧ entry.blockHash.isSome then
        { r with chainId := entry.chainId, blockNumber := entry.blockNumber
                 blockHash := entry.blockHash, canonical := true }
      else r)
    (by
      constructor
      intro r r'
      split <;> rfl)

/-- The batch of entries, in the epoch of their chain. -/
def writeLedgerBatch (chainId : ChainId) (entries : List LedgerRow) (expectedReorgEpoch : Nat)
    (db : Db) : Except JournalError Db := do
  chainEpochGuard chainId expectedReorgEpoch db
  return { db with ledger := entries.foldl writeLedgerEntry db.ledger }

/-- The batch of a cursor. -/
def setGuardedCursor (key : CursorKey) (lastBlock : BlockNumber) (chainId : ChainId)
    (expectedReorgEpoch : Nat) (db : Db) : Except JournalError Db := do
  chainEpochGuard chainId expectedReorgEpoch db
  return { db with syncState := setSyncCursor db.syncState key lastBlock }

/-! ### The world -/

/-- A window that a run has come to the end of: where it began, whether that was behind a
cursor, and how many registries there had been when the run listed its wallets. -/
structure Window where
  partition : TransferIndexerPartition
  cursor : Option BlockNumber
  fromBlock : BlockNumber
  toBlock : BlockNumber
  listedAt : Nat

/-- The database with the chain and the registry; `past` are the registries that there have
been before, `windows` the windows whose cursor was set, `listedAt` is what a run holds of the
registry that it read, and `logCalls` counts the ranges of logs that were asked for. -/
structure IndexerWorld where
  projector : ProjectorWorld
  chain : Chain
  registry : Registry
  refreshRequests : Table BalanceRefreshRow
  past : List Registry
  windows : List Window
  listedAt : Nat → Nat
  logCalls : Nat

abbrev IndexerWorld.db (w : IndexerWorld) : Db := w.projector.db

/-- The world with another database. -/
def IndexerWorld.withDb (w : IndexerWorld) (db : Db) : IndexerWorld :=
  { w with projector := { w.projector with db } }

/-! ### The statements of a run -/

/-- Reads and writes of a run, other than those of the projector.  What `setSyncCursor` says
of the window is for the history alone. -/
inductive IndexerOp
  | listWalletsForIndexerShard (chainId : ChainId) (stream : Text) (shardId : Nat)
  | getIndexerScanHead
  | selectCheckpoint (chainId : ChainId) (stream : Text)
  | getBlock (number : BlockNumber)
  | selectKnownBlocks (chainId : ChainId) (checkpoint floor : BlockNumber)
  | recover (chainId : ChainId) (ancestor : BlockNumber) (ancestorHash : BlockHash)
  | getChainReorgEpoch (chainId : ChainId)
  | getSyncCursor (key : CursorKey)
  | getLogs (token : Address) (direction : TransferDirection) (addresses : List Address)
      (fromBlock toBlock : BlockNumber)
  | selectUsers (addresses : List Address)
  | getBlockByHash (hash : BlockHash)
  | journalBlockEvents (input : JournalInput)
  | writeLedgerBatch (chainId : ChainId) (entries : List LedgerRow) (expectedReorgEpoch : Nat)
  | requestBalanceRefresh (input : BalanceRefreshInput)
  | setSyncCursor (key : CursorKey) (lastBlock : BlockNumber) (chainId : ChainId)
      (expectedReorgEpoch : Nat) (partition : TransferIndexerPartition)
      (cursor : Option BlockNumber) (fromBlock : BlockNumber)

abbrev IndexerOp.Reply : IndexerOp → Type
  | .listWalletsForIndexerShard .. => List IndexerWallet
  | .getIndexerScanHead => BlockNumber × Option BlockNumber
  | .selectCheckpoint .. => Option (BlockNumber × BlockHash)
  | .getBlock _ => Option BlockHash
  | .selectKnownBlocks .. => List (BlockNumber × BlockHash)
  | .recover .. => Unit
  | .getChainReorgEpoch _ => Nat
  | .getSyncCursor _ => Option BlockNumber
  | .getLogs .. => Except RpcError (List TransferLog)
  | .selectUsers _ => List IndexerWallet
  | .getBlockByHash _ => Option BlockHash × Option BlockNumber
  | .journalBlockEvents _ => Except JournalError Unit
  | .writeLedgerBatch .. => Except JournalError Unit
  | .requestBalanceRefresh _ => Unit
  | .setSyncCursor .. => Except JournalError Unit

/-- What the outside contributes to a step: how far a provider says that the chain has got,
an error for a range of logs, the clock. -/
structure IndexerAnswer where
  latest : BlockNumber := 0
  safe : Option BlockNumber := none
  refusal : Option RpcError := none
  now : Time := 0

/-- The answer to a range of logs. -/
def answerRange (refusal : Option RpcError) (logs : List TransferLog) :
    Except RpcError (List TransferLog) :=
  match refusal with
  | some e => .error e
  | none => .ok logs

/-- A batch that goes through as a whole, or leaves the database as it was. -/
def IndexerWorld.batch (w : IndexerWorld) :
    Except JournalError Db → Except JournalError Unit × IndexerWorld
  | .error e => (.error e, w)
  | .ok db => (.ok (), w.withDb db)

/-- The newest journaled blocks below a checkpoint, within a window. -/
def Db.selectKnownBlocks (db : Db) (chainId : ChainId) (checkpoint floor : BlockNumber) :
    List (BlockNumber × BlockHash) :=
  (((db.chainBlocks.filter fun b => b.chainId == chainId && b.canonical &&
      decide (b.blockNumber < checkpoint) && decide (floor ≤ b.blockNumber)).mergeSort
    fun b b' => decide (b'.blockNumber ≤ b.blockNumber)).take 128).map
      fun b => (b.blockNumber, b.blockHash)

/-- One statement of the run `i`. -/
def IndexerOp.exec (i : Nat) : (o : IndexerOp) → IndexerAnswer → IndexerWorld →
    o.Reply × IndexerWorld
  | .listWalletsForIndexerShard chainId stream shardId, _, w =>
    (w.registry.listWalletsForIndexerShard chainId stream shardId,
      { w with listedAt := fun j => if j = i then w.past.length else w.listedAt j })
  | .getIndexerScanHead, x, w => ((x.latest, x.safe), w)
  | .selectCheckpoint chainId stream, _, w =>
    ((w.db.checkpoints.find? fun r => r.chainId == chainId && r.stream == stream).map
      fun r => (r.blockNumber, r.blockHash), w)
  | .getBlock number, _, w => (some (w.chain.hash number), w)
  | .selectKnownBlocks chainId checkpoint floor, _, w =>
    (w.db.selectKnownBlocks chainId checkpoint floor, w)
  | .recover chainId ancestor ancestorHash, _, w =>
    ((), { w with projector :=
      (ProjectorSurroundings.recover chainId ancestor ancestorHash w.chain.hash).move w.projector })
  | .getChainReorgEpoch chainId, _, w => (w.db.getChainReorgEpoch chainId, w)
  | .getSyncCursor key, _, w => (Server.getSyncCursor w.db.syncState key, w)
  | .getLogs token direction addresses fromBlock toBlock, x, w =>
    (answerRange x.refusal (w.chain.getLogs token direction addresses fromBlock toBlock),
      { w with logCalls := w.logCalls + 1 })
  | .selectUsers addresses, _, w => (w.registry.selectUsers addresses, w)
  | .getBlockByHash hash, _, w => ((some hash, w.chain.height hash), w)
  | .journalBlockEvents input, _, w => w.batch (Server.journalBlockEvents input w.db)
  | .writeLedgerBatch chainId entries epoch, _, w =>
    w.batch (Server.writeLedgerBatch chainId entries epoch w.db)
  | .requestBalanceRefresh input, x, w =>
    ((), { w with refreshRequests := Server.requestBalanceRefresh input x.now w.refreshRequests })
  | .setSyncCursor key lastBlock chainId epoch partition cursor fromBlock, _, w =>
    match setGuardedCursor key lastBlock chainId epoch w.db with
    | .error e => (.error e, w)
    | .ok db =>
      (.ok (), { w.withDb db with
        windows := w.windows ++ [{ partition, cursor, fromBlock, toBlock := lastBlock
                                   listedAt := w.listedAt i }] })

/-! ### A run -/

abbrev Indexer :=
  Prog (ProjectorOp ⊕ IndexerOp) (Sum.elim ProjectorOp.Reply IndexerOp.Reply)

def issue (o : IndexerOp) : Indexer o.Reply := .act (.inr o) .ret

/-- A batch that fails is thrown. -/
def orThrow : Except JournalError Unit → Indexer Unit
  | .ok () => .ret ()
  | .error e => .throw e.message

/-- The first of some blocks that the provider still has. -/
def findAncestor : List (BlockNumber × BlockHash) → Indexer (Option (BlockNumber × BlockHash))
  | [] => return none
  | (blockNumber, blockHash) :: known => do
    if (← issue (.getBlock blockNumber)) = some blockHash then
      return some (blockNumber, blockHash)
    else findAncestor known

/-- `verifyAndRecoverStream`, statement by statement. -/
def verifyAndRecover (chainId : ChainId) (stream : Text) : Indexer Unit := do
  match ← issue (.selectCheckpoint chainId stream) with
  | none => return ()
  | some (number, hash) =>
    if (← issue (.getBlock number)) = some hash then return ()
    else
      let known ← issue (.selectKnownBlocks chainId number (number - 4096))
      match ← findAncestor known with
      | none => throw "No canonical ancestor found"
      | some (ancestor, ancestorHash) => issue (.recover chainId ancestor ancestorHash)

/-- The parts of a list, of a given size. -/
def chunksOf {α : Type} (size : Nat) : Nat → List α → List (List α)
  | 0, _ => []
  | _, [] => []
  | parts + 1, xs => xs.take size :: chunksOf size parts (xs.drop size)

def selectUsersOf : List (List Address) → Indexer (List IndexerWallet)
  | [] => return []
  | chunk :: chunks => do
    let users ← issue (.selectUsers chunk)
    let rest ← selectUsersOf chunks
    return users ++ rest

def listUsersByWalletAddresses (walletAddresses : List Address) : Indexer (List IndexerWallet) :=
  let normalized := walletAddresses.eraseDups
  selectUsersOf (chunksOf 100 normalized.length normalized)

/-- The ledger entries of a block, which are of one chain. -/
def writeLedgerEntries (entries : List LedgerRow) (expectedReorgEpoch : Nat) : Indexer Unit :=
  if entries.isEmpty then return ()
  else
    match (entries.filterMap (·.chainId)).eraseDups with
    | [chainId] => do orThrow (← issue (.writeLedgerBatch chainId entries expectedReorgEpoch))
    | _ => throw "Epoch-guarded ledger writes must belong to exactly one chain"

local instance lawfulPair : LawfulBEq (Uid × Address) := inferInstance

local instance priorities : NeZero 5 := ⟨by decide⟩

/-- Ask for the balances that events alone do not give. -/
def requestRefreshes (env : IndexerEnv) (blockNumber : BlockNumber)
    (satisfied : List (Uid × Address)) : List IndexerWallet → Indexer Unit
  | [] => return ()
  | wallet :: wallets => do
    if (wallet.uid, wallet.walletAddress) ∉ satisfied then
      issue (.requestBalanceRefresh
        { uid := wallet.uid, accountAddress := wallet.walletAddress, chainId := env.chainId
          reason := "canonical_transfer_event", priority := 1
          notBeforeBlock := some blockNumber })
    requestRefreshes env blockNumber satisfied wallets

section Run

variable (env : IndexerEnv) (partition : TransferIndexerPartition) (token : Token)
  (expectedReorgEpoch : Nat)

/-- The batch of one block of the stream. -/
def journalInputOf (blockNumber : BlockNumber) (blockHash : BlockHash)
    (events : List JournalEvent) : JournalInput where
  stream := transferJournalStream env.chainId partition
  block := { chainId := env.chainId, blockNumber, blockHash }
  events := events
  userOperationReceipts := []
  expectedReorgEpoch := expectedReorgEpoch

/-- Journal, project and enter what a block has. -/
def ingestEvents (users : List IndexerWallet) (b : BlockLogs) (events : List JournalEvent) :
    Indexer Unit := do
  let input := journalInputOf env partition expectedReorgEpoch b.blockNumber b.blockHash events
  orThrow (← issue (.journalBlockEvents input))
  let projection ← (projectBalanceDeltas
    { block := input.block, events, expectedReorgEpoch := some expectedReorgEpoch }).inl
  writeLedgerEntries (b.logs.filterMap (ledgerEntryOf env users token b)) expectedReorgEpoch
  requestRefreshes env b.blockNumber projection.eventOnlySatisfiedAccounts (affectedUsers events)

/-- The body of the loop over the blocks. -/
def ingestBlock (users : List IndexerWallet) (b : BlockLogs) : Indexer Unit := do
  let block ← issue (.getBlockByHash b.blockHash)
  if block = (some b.blockHash, some b.blockNumber) then
    let events := b.logs.filterMap (journalEventOf users token b)
    if events.isEmpty then return ()
    else ingestEvents env partition token expectedReorgEpoch users b events
  else throw "RPC log block evidence did not match its block header"

def ingestBlocks (users : List IndexerWallet) : List BlockLogs → Indexer Unit
  | [] => return ()
  | b :: bs => do
    ingestBlock env partition token expectedReorgEpoch users b
    ingestBlocks users bs

/-- The checkpoint and the cursor at the end of the window. -/
def commitWindow (cursor : Option BlockNumber) (fromBlock committedScanEnd : BlockNumber) :
    Indexer Unit := do
  match ← issue (.getBlock committedScanEnd) with
  | none => throw "RPC returned scan checkpoint block without hash"
  | some hash =>
    orThrow (← issue (.journalBlockEvents
      (journalInputOf env partition expectedReorgEpoch committedScanEnd hash [])))
    orThrow (← issue (.setSyncCursor (transferSyncCursorKey env.chainId partition) committedScanEnd
      env.chainId expectedReorgEpoch partition cursor fromBlock))

/-- What was found in the window, up to where it is bounded. -/
def ingestWindow (cursor : Option BlockNumber) (fromBlock scanEnd : BlockNumber)
    (fetchedLogs : List TransferLog) : Indexer BlockNumber := do
  let committedScanEnd ←
    Prog.ofExcept (boundedEvidenceWindowEnd scanEnd fetchedLogs env.maxEventBlocksPerJob)
  let committedLogs := fetchedLogs.filter fun log => log.blockNumber.any (· ≤ committedScanEnd)
  let users ← listUsersByWalletAddresses
    (committedLogs.flatMap fun log => log.fromAddress.toList ++ log.toAddress.toList)
  ingestBlocks env partition token expectedReorgEpoch users (orderedBlocks committedLogs)
  commitWindow env partition expectedReorgEpoch cursor fromBlock committedScanEnd
  return committedScanEnd

/-- How a window is scanned. -/
def scanOptions (fromBlock scanEnd : BlockNumber) : AdaptiveLogScanOptions where
  fromBlock := fromBlock
  toBlock := scanEnd
  minBlockSpan := env.minRange
  maxBlockSpan := env.maxRange
  maxCalls := env.maxLogCallsPerJob

/-- Scan a window, and ingest what it has. -/
def scanWindow (addresses : List Address) (cursor : Option BlockNumber)
    (fromBlock scanHead : BlockNumber) : Indexer BlockNumber := do
  let scanEnd ← Prog.ofExcept (boundedScanWindowEnd fromBlock scanHead env.maxRange 1
    env.maxLogCallsPerJob env.maxBlocksPerJob)
  let fetchedLogs ← scanLogsAdaptive (scanOptions env fromBlock scanEnd)
    (fun rangeFrom rangeTo =>
      issue (.getLogs token.address partition.direction addresses rangeFrom rangeTo))
    collectRange []
  ingestWindow env partition token expectedReorgEpoch cursor fromBlock scanEnd fetchedLogs

end Run

structure ChainIndexRunResult where
  cursor : BlockNumber
  targetBlock : BlockNumber
  scanHead : BlockNumber
  caughtUp : Bool
  deriving DecidableEq

/-- A run from the head on. -/
def indexFrom (env : IndexerEnv) (partition : TransferIndexerPartition) (token : Token)
    (addresses : List Address) (targetBlock : Option BlockNumber) (scanHead : BlockNumber) :
    Indexer ChainIndexRunResult := do
  verifyAndRecover env.chainId (transferJournalStream env.chainId partition)
  let expectedReorgEpoch ← issue (.getChainReorgEpoch env.chainId)
  let cursor ← issue (.getSyncCursor (transferSyncCursorKey env.chainId partition))
  let fromBlock := scanStart cursor scanHead
  let desiredTarget := max (targetBlock.getD scanHead) scanHead
  if scanHead < fromBlock then
    return { cursor := cursor.getD scanHead, targetBlock := desiredTarget, scanHead
             caughtUp := decide (desiredTarget ≤ cursor.getD scanHead) }
  else
    let committed ← scanWindow env partition token expectedReorgEpoch addresses cursor fromBlock
      scanHead
    return { cursor := committed, targetBlock := desiredTarget, scanHead
             caughtUp := decide (desiredTarget ≤ committed) }

def runIndexer (env : IndexerEnv) (partition : TransferIndexerPartition)
    (targetBlock : Option BlockNumber) : Indexer (Option ChainIndexRunResult) := do
  match env.tokens.find? fun token => token.address == partition.token with
  | none => throw "Transfer indexer partition references an unsupported token"
  | some token =>
    if env.rpcUrls = 0 then return none
    else
      let wallets ← issue (.listWalletsForIndexerShard env.chainId
        (transferAssignmentStream env.chainId) partition.shardId)
      if wallets.isEmpty then return none
      else
        let (latest, safe) ← issue .getIndexerScanHead
        let result ← indexFrom env partition token (wallets.map (·.walletAddress)) targetBlock
          (indexerScanHead latest safe)
        return some result

/-! ### Runs side by side -/

inductive IndexerSurroundings
  /-- Users and assignments change. -/
  | register (registry : Registry)
  /-- The chain has other blocks from now on. -/
  | reorganize (chain : Chain)
  | readBalance (snapshot : BalanceSnapshot)
  | setPolicies (policies : ChainId → Asset → Option AssetIndexingPolicy)

def IndexerSurroundings.move : IndexerSurroundings → IndexerWorld → IndexerWorld
  | .register registry, w => { w with registry, past := w.past ++ [w.registry] }
  | .reorganize chain, w => { w with chain }
  | .readBalance snapshot, w =>
    { w with projector := (ProjectorSurroundings.readBalance snapshot).move w.projector }
  | .setPolicies policies, w =>
    { w with projector := (ProjectorSurroundings.setPolicies policies).move w.projector }

structure IndexerCall where
  partition : TransferIndexerPartition
  targetBlock : Option BlockNumber

/-- One statement, of the projector or of the run itself. -/
def indexerExec (i : Nat) : (o : ProjectorOp ⊕ IndexerOp) → IndexerAnswer → IndexerWorld →
    Sum.elim ProjectorOp.Reply IndexerOp.Reply o × IndexerWorld
  | .inl o, _, w =>
    ((o.exec i w.projector).1, { w with projector := (o.exec i w.projector).2 })
  | .inr o, x, w => o.exec i x w

/-- Runs of the indexer of one chain, side by side. -/
def indexerSystem (env : IndexerEnv) : System (ProjectorOp ⊕ IndexerOp)
    (Sum.elim ProjectorOp.Reply IndexerOp.Reply) IndexerWorld IndexerAnswer IndexerSurroundings
    IndexerCall (Option ChainIndexRunResult) where
  exec := indexerExec
  env := IndexerSurroundings.move
  body call := runIndexer env call.partition call.targetBlock

end ParmeliaLinks.Server
