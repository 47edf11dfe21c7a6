/-
ParmeliaLinks/Server/BalanceReconciler.lean

One pass of the balance reconciler over the refresh rows that it has claimed on a chain.

The pass reads every wallet as of one block, the head that is scanned.  A wallet for which a
contract call fails is rescheduled, and the others are completed.  Three things are asked of
the batch as a whole: that no row waits for a later block, that every native balance can be
read where there is no multicall contract, and that the block is still there at the end.

`recorded` is what a pass records for one wallet.  A pass is `Isolated` when that is what a pass
over this wallet alone would have recorded.
-/
import ParmeliaLinks.Lib.Contract
import ParmeliaLinks.Server.BalanceRefresh
import Mathlib.Data.List.Nodup

namespace ParmeliaLinks.Server.Reconciler

/-! ### The chain -/

structure TokenConfig where
  symbol : Asset
  address : Option Address

structure NetworkConfig where
  chainId : ChainId
  nativeTokenSymbol : Asset
  tokens : List TokenConfig
  /-- The address of aUSDC, and the asset it is recorded under. -/
  aave : Option (Address × Asset)

inductive ContractCall
  | getEthBalance (account : Address)
  | balanceOf (token account : Address)
  deriving DecidableEq

inductive ReconcileError
  | wrongChain
  | headNotReached
  | rpcFailed
  | missingHash
  | blockChanged
  deriving DecidableEq

/-- What the provider answers during a pass, if it does: the head, the hash of the block at the
head before and after the reads, and the reads as of that block.  In a multicall a call may fail
by itself. -/
structure Rpc where
  scanHead : Option BlockNumber
  targetBlock : Option (Option BlockHash)
  verifiedBlock : Option (Option BlockHash)
  multicall3 : Option Address
  multicall : Option (ContractCall → Option Nat)
  getBalance : Address → Option Nat

/-! ### Rows -/

structure RequestKey where
  chainId : ChainId
  accountAddress : Address
  deriving DecidableEq

structure ClaimedBalanceRefresh where
  request : BalanceRefreshInput
  owner : Nat
  deriving DecidableEq

def ClaimedBalanceRefresh.key (c : ClaimedBalanceRefresh) : RequestKey :=
  { chainId := c.request.chainId, accountAddress := c.request.accountAddress }

structure CallDescriptor where
  requestKey : RequestKey
  uid : Uid
  accountAddress : Address
  asset : Asset
  call : ContractCall

/-- The reads of one wallet: the assets, and how each is read. -/
def reads (network : NetworkConfig) (rpc : Rpc) : List (Asset × (Address → ContractCall)) :=
  (if rpc.multicall3.isSome then
    [(network.nativeTokenSymbol, ContractCall.getEthBalance)] else []) ++
  (network.tokens.filterMap fun token => token.address.map fun address =>
    (token.symbol, .balanceOf address)) ++
  (network.aave.map fun aave => (aave.2, ContractCall.balanceOf aave.1)).toList

def ClaimedBalanceRefresh.descriptors (network : NetworkConfig) (rpc : Rpc)
    (c : ClaimedBalanceRefresh) : List CallDescriptor :=
  (reads network rpc).map fun read =>
    { requestKey := c.key
      uid := c.request.uid
      accountAddress := c.request.accountAddress
      asset := read.1
      call := read.2 c.request.accountAddress }

/-! ### A pass -/

structure Reconciled where
  completed : List RequestKey
  snapshots : List BalanceSnapshot

def snapshotAt (network : NetworkConfig) (block : BlockNumber) (hash : BlockHash) (uid : Uid)
    (accountAddress : Address) (asset : Asset) (balance : Nat) : BalanceSnapshot where
  uid
  accountAddress
  chainId := network.chainId
  asset
  balanceRaw := balance
  blockNumber := block
  blockHash := hash
  source := .rpc
  canonical := true

def snapshotKey (s : BalanceSnapshot) : RequestKey :=
  { chainId := s.chainId, accountAddress := s.accountAddress }

/-- A request that waits for a block after the head. -/
def ClaimedBalanceRefresh.waits (c : ClaimedBalanceRefresh) (scanHead : BlockNumber) : Bool :=
  c.request.notBeforeBlock.any (scanHead < ·)

def CallDescriptor.snapshot? (network : NetworkConfig) (block : BlockNumber) (hash : BlockHash)
    (answers : ContractCall → Option Nat) (d : CallDescriptor) : Option BalanceSnapshot :=
  (answers d.call).map (snapshotAt network block hash d.uid d.accountAddress d.asset)

def nativeSnapshot (network : NetworkConfig) (block : BlockNumber) (hash : BlockHash)
    (b : ClaimedBalanceRefresh × Nat) : BalanceSnapshot :=
  snapshotAt network block hash b.1.request.uid b.1.request.accountAddress
    network.nativeTokenSymbol b.2

/-- The calls of all wallets in one multicall, unless there are none. -/
def multicallResults (rpc : Rpc) (descriptors : List CallDescriptor) :
    Except ReconcileError (ContractCall → Option Nat) :=
  if descriptors.isEmpty then .ok fun _ => none else orRevert .rpcFailed rpc.multicall

/-- The native balances where there is no multicall contract, all of them or none. -/
def nativeFallback (rpc : Rpc) (claimed : List ClaimedBalanceRefresh) :
    Except ReconcileError (List (ClaimedBalanceRefresh × Nat)) :=
  if rpc.multicall3.isSome then .ok []
  else claimed.mapM fun c => do
    let value ← orRevert .rpcFailed (rpc.getBalance c.request.accountAddress)
    return (c, value)

def failedRequestKeys (answers : ContractCall → Option Nat) (descriptors : List CallDescriptor) :
    List RequestKey :=
  (descriptors.filter fun d => (answers d.call).isNone).map (·.requestKey)

def reconcileClaimed (network : NetworkConfig) (rpc : Rpc)
    (claimed : List ClaimedBalanceRefresh) : Except ReconcileError Reconciled := do
  revertIf (∃ c ∈ claimed, c.request.chainId ≠ network.chainId) .wrongChain
  let scanHead ← orRevert .rpcFailed rpc.scanHead
  revertIf (∃ c ∈ claimed, c.waits scanHead = true) .headNotReached
  let targetBlock ← orRevert .rpcFailed rpc.targetBlock
  let hash ← orRevert .missingHash targetBlock
  let descriptors := claimed.flatMap (·.descriptors network rpc)
  let answers ← multicallResults rpc descriptors
  let balances ← nativeFallback rpc claimed
  let snapshots :=
    descriptors.filterMap (·.snapshot? network scanHead hash answers) ++
    balances.map (nativeSnapshot network scanHead hash)
  let failed := failedRequestKeys answers descriptors
  let verifiedBlock ← orRevert .rpcFailed rpc.verifiedBlock
  revertIf (verifiedBlock ≠ some hash) .blockChanged
  return {
    completed := (claimed.map (·.key)).filter (· ∉ failed)
    snapshots := snapshots.filter fun s => snapshotKey s ∉ failed }

def ReconcileError.code : ReconcileError → String
  | .headNotReached => "HEAD_NOT_READY"
  | _ => "RPC_RECONCILE_FAILED"

/-- How a claimed row is finished, with the snapshots that are written for its wallet. -/
structure Recorded where
  completed : Bool
  errorCode : Option String
  snapshots : List BalanceSnapshot
  deriving DecidableEq

/-- What `processClaimedBatch` records for one of the claimed rows. -/
def recorded (network : NetworkConfig) (rpc : Rpc) (claimed : List ClaimedBalanceRefresh)
    (c : ClaimedBalanceRefresh) : Recorded :=
  match reconcileClaimed network rpc claimed with
  | .error e => { completed := false, errorCode := some e.code, snapshots := [] }
  | .ok result =>
    let written := result.snapshots.filter fun s => snapshotKey s = c.key
    if c.key ∈ result.completed then
      { completed := true, errorCode := none, snapshots := written }
    else
      { completed := false, errorCode := some "RPC_PARTIAL_RESULT", snapshots := written }

/-! ### One wallet of a batch -/

variable {network : NetworkConfig} {rpc : Rpc} {c : ClaimedBalanceRefresh}

/-- The native balances are all there. -/
def NativesAnswer (rpc : Rpc) (claimed : List ClaimedBalanceRefresh) : Prop :=
  rpc.multicall3 = none →
    ∀ c ∈ claimed, (rpc.getBalance c.request.accountAddress).isSome

/-- The row of the wallet can be read at the head. -/
def ClaimedBalanceRefresh.Reached (c : ClaimedBalanceRefresh) (rpc : Rpc) : Prop :=
  ∀ block, rpc.scanHead = some block → c.waits block = false

/-- The provider answers what a pass over the one wallet asks of it. -/
structure Answers (network : NetworkConfig) (rpc : Rpc) (c : ClaimedBalanceRefresh) : Prop where
  head : rpc.scanHead.isSome
  block : ∃ hash, rpc.targetBlock = some (some hash) ∧ rpc.verifiedBlock = some (some hash)
  multicall : reads network rpc ≠ [] → rpc.multicall.isSome
  native : rpc.multicall3 = none → (rpc.getBalance c.request.accountAddress).isSome

variable {block : BlockNumber} {hash : BlockHash} {answers : ContractCall → Option Nat}
  {claimed : List ClaimedBalanceRefresh}

/-- No row waits, and the native balances that are read one by one are all there. -/
structure Settled (rpc : Rpc) (claimed : List ClaimedBalanceRefresh) : Prop where
  reached : ∀ c ∈ claimed, c.Reached rpc
  natives : NativesAnswer rpc claimed

end ParmeliaLinks.Server.Reconciler
