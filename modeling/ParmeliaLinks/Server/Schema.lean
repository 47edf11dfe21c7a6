/-
ParmeliaLinks/Server/Schema.lean

The tables of the server that follow the chain: the journal of blocks, events and
receipts, the read models that are made from it, and the cursors of the streams
that feed it.  A row that a reorganization has overtaken is kept, with `canonical`
off, and the partial unique indexes only look at the canonical rows: one block a
height, one occurrence an event, one receipt a user operation.

Hashes, addresses and users are numbers; the server only compares them, after
lowering their case.  A cursor is kept as text, key and block number alike.
-/
import ParmeliaLinks.Lib.SqlText
import ParmeliaLinks.Lib.Table

namespace ParmeliaLinks.Server

abbrev ChainId := Nat
abbrev BlockNumber := Nat
abbrev BlockHash := Nat
abbrev TxHash := Nat
abbrev UserOpHash := Nat
abbrev Uid := Nat
abbrev Address := Nat
abbrev Asset := Nat

inductive EventKind
  | erc20Transfer
  | userOperation
  | other (name : String)
  deriving DecidableEq

/-! ### The journal -/

/-- `<chain>:<tx>:<log>:<kind>`. -/
structure EventId where
  chainId : ChainId
  txHash : TxHash
  logIndex : Nat
  eventKind : EventKind
  deriving DecidableEq

structure ChainBlock where
  chainId : ChainId
  blockNumber : BlockNumber
  blockHash : BlockHash
  canonical : Bool
  deriving DecidableEq

/-- Primary key and `idx_chain_blocks_canonical_height`. -/
instance : Row ChainBlock where
  clash r r' := r.chainId == r'.chainId && r.blockNumber == r'.blockNumber &&
    (r.blockHash == r'.blockHash || (r.canonical && r'.canonical))
  clash_comm r r' := by
    simp only [Bool.beq_comm (a := r.chainId), Bool.beq_comm (a := r.blockNumber),
      Bool.beq_comm (a := r.blockHash), Bool.and_comm (x := r.canonical)]

structure ChainEvent where
  eventId : EventId
  blockNumber : BlockNumber
  blockHash : BlockHash
  canonical : Bool
  deriving DecidableEq

/-- Primary key and `idx_chain_events_canonical_identity`. -/
instance : Row ChainEvent where
  clash r r' := r.eventId == r'.eventId &&
    (r.blockHash == r'.blockHash || (r.canonical && r'.canonical))
  clash_comm r r' := by
    simp only [Bool.beq_comm (a := r.eventId), Bool.beq_comm (a := r.blockHash),
      Bool.and_comm (x := r.canonical)]

structure UserOperationReceipt where
  chainId : ChainId
  userOpHash : UserOpHash
  txHash : TxHash
  logIndex : Nat
  blockNumber : BlockNumber
  blockHash : BlockHash
  success : Bool
  canonical : Bool
  deriving DecidableEq

/-- Two receipts of one user operation, in one block or both canonical. -/
def UserOperationReceipt.sameOperation (r r' : UserOperationReceipt) : Bool :=
  r.chainId == r'.chainId && r.userOpHash == r'.userOpHash &&
    (r.blockHash == r'.blockHash || (r.canonical && r'.canonical))

/-- Two receipts of one log in one block. -/
def UserOperationReceipt.sameOccurrence (r r' : UserOperationReceipt) : Bool :=
  r.chainId == r'.chainId && r.txHash == r'.txHash && r.logIndex == r'.logIndex &&
    r.blockHash == r'.blockHash

/-- Primary key, `idx_user_operation_receipts_canonical_hash` and
`idx_user_operation_receipts_occurrence`. -/
instance : Row UserOperationReceipt where
  clash r r' := r.sameOperation r' || r.sameOccurrence r'
  clash_comm r r' := by
    simp only [UserOperationReceipt.sameOperation, UserOperationReceipt.sameOccurrence,
      Bool.beq_comm (a := r.chainId), Bool.beq_comm (a := r.userOpHash),
      Bool.beq_comm (a := r.blockHash), Bool.and_comm (x := r.canonical),
      Bool.beq_comm (a := r.txHash), Bool.beq_comm (a := r.logIndex)]

structure StreamCheckpoint where
  chainId : ChainId
  stream : Text
  blockNumber : BlockNumber
  blockHash : BlockHash
  reorgEpoch : Nat

instance : Row StreamCheckpoint where
  clash r r' := r.chainId == r'.chainId && r.stream == r'.stream
  clash_comm r r' := by
    simp only [Bool.beq_comm (a := r.chainId), Bool.beq_comm (a := r.stream)]

/-- `chain_reorg_state`: how many recoveries a chain has had, and the last ancestor. -/
structure ReorgState where
  chainId : ChainId
  epoch : Nat
  commonAncestorNumber : BlockNumber
  commonAncestorHash : BlockHash

instance : Row ReorgState where
  clash r r' := r.chainId == r'.chainId
  clash_comm _ _ := Bool.beq_comm

/-! ### Balances -/

/-- What an event changes in the balance of a user; the projector and its version are
the same in every row. -/
structure BalanceDelta where
  eventId : EventId
  blockHash : BlockHash
  uid : Uid
  accountAddress : Address
  asset : Asset
  deltaRaw : Int
  canonical : Bool
  deriving DecidableEq

instance : Row BalanceDelta where
  clash r r' := r.eventId == r'.eventId && r.blockHash == r'.blockHash && r.uid == r'.uid &&
    r.asset == r'.asset
  clash_comm r r' := by
    simp only [Bool.beq_comm (a := r.eventId), Bool.beq_comm (a := r.blockHash),
      Bool.beq_comm (a := r.uid), Bool.beq_comm (a := r.asset)]

inductive SnapshotSource | eventProjection | rpc
  deriving DecidableEq

structure BalanceSnapshot where
  uid : Uid
  accountAddress : Address
  chainId : ChainId
  asset : Asset
  balanceRaw : Int
  blockNumber : BlockNumber
  blockHash : BlockHash
  source : SnapshotSource
  canonical : Bool
  deriving DecidableEq

instance : Row BalanceSnapshot where
  clash r r' := r.chainId == r'.chainId && r.accountAddress == r'.accountAddress &&
    r.asset == r'.asset
  clash_comm r r' := by
    simp only [Bool.beq_comm (a := r.chainId), Bool.beq_comm (a := r.accountAddress),
      Bool.beq_comm (a := r.asset)]

structure ProjectionBaseline where
  chainId : ChainId
  accountAddress : Address
  asset : Asset
  balanceRaw : Int
  blockNumber : BlockNumber
  blockHash : BlockHash
  deriving DecidableEq

instance : Row ProjectionBaseline where
  clash r r' := r.chainId == r'.chainId && r.accountAddress == r'.accountAddress &&
    r.asset == r'.asset
  clash_comm r r' := by
    simp only [Bool.beq_comm (a := r.chainId), Bool.beq_comm (a := r.accountAddress),
      Bool.beq_comm (a := r.asset)]

/-! ### The ledger -/

inductive Direction | out | into
  deriving DecidableEq

inductive LedgerKind | payment | link | external | earn | swap | crosschain
  deriving DecidableEq

structure LedgerRow where
  uid : Uid
  direction : Direction
  kind : LedgerKind
  txHash : TxHash
  logIndex : Option Nat
  token : Asset
  chainId : Option ChainId
  blockNumber : Option BlockNumber
  blockHash : Option BlockHash
  canonical : Bool
  deriving DecidableEq

/-- `idx_ledger_dedup`: a row without a log index is one more of them. -/
instance : Row LedgerRow where
  clash r r' := r.uid == r'.uid && r.txHash == r'.txHash && r.direction == r'.direction &&
    r.token == r'.token && r.logIndex == r'.logIndex
  clash_comm r r' := by
    simp only [Bool.beq_comm (a := r.uid), Bool.beq_comm (a := r.txHash),
      Bool.beq_comm (a := r.direction), Bool.beq_comm (a := r.token),
      Bool.beq_comm (a := r.logIndex)]

/-! ### Cursors -/

structure SyncState where
  key : Text
  lastBlock : Text
  deriving DecidableEq

instance : Row SyncState where
  clash r r' := r.key == r'.key
  clash_comm _ _ := Bool.beq_comm

/-! ### The database -/

structure Db where
  reorgState : Table ReorgState
  chainBlocks : Table ChainBlock
  chainEvents : Table ChainEvent
  receipts : Table UserOperationReceipt
  deltas : Table BalanceDelta
  snapshots : Table BalanceSnapshot
  baselines : Table ProjectionBaseline
  ledger : Table LedgerRow
  checkpoints : Table StreamCheckpoint
  syncState : Table SyncState

/-- The database before anything was indexed. -/
def Db.initial : Db where
  reorgState := .empty
  chainBlocks := .empty
  chainEvents := .empty
  receipts := .empty
  deltas := .empty
  snapshots := .empty
  baselines := .empty
  ledger := .empty
  checkpoints := .empty
  syncState := .empty

/-- How many recoveries a chain has had. -/
def Db.getChainReorgEpoch (db : Db) (chainId : ChainId) : Nat :=
  ((db.reorgState.find? (·.chainId == chainId)).map (·.epoch)).getD 0

end ParmeliaLinks.Server
