/-
ParmeliaLinks/Server/BalanceProjector.lean

The projector of balances.  A run applies the deltas of a block's events in one
batch, under the guard of the reorg epoch, and then refreshes the snapshots of
the accounts that the events touch, account by account and outside of the batch:
it reads the snapshot with its policy and its baseline, writes the baseline if
there is none, reads the deltas since the baseline, and writes the sum.  Each of
these is a statement of its own, and so a point where others may run.

The world keeps history variables beside the database.  `chain` is the chain as
of the last recovery and `orphaned` the blocks that recoveries have taken off it;
`recoveries` lists them.  `inSnapshot` and `inBaseline` say of which deltas a
balance was made, and `held` what a run has read so far.
-/
import ParmeliaLinks.Lib.RelyGuarantee
import ParmeliaLinks.Server.ChainJournal

namespace ParmeliaLinks.Server

/-! ### Deltas of an event -/

/-- What an event changes for one user and asset. -/
structure AccountDelta where
  uid : Uid
  accountAddress : Address
  asset : Asset
  deltaRaw : Int
  deriving DecidableEq

/-- Add an entry to the one of its user and asset. -/
def addDelta (aggregated : List AccountDelta) (account : JournalEventAccount) :
    List AccountDelta :=
  match account.deltaRaw with
  | none => aggregated
  | some deltaRaw =>
    if aggregated.any fun entry => entry.uid == account.uid && entry.asset == account.asset then
      aggregated.map fun entry =>
        if entry.uid == account.uid && entry.asset == account.asset then
          { entry with deltaRaw := entry.deltaRaw + deltaRaw }
        else entry
    else
      aggregated ++ [{ uid := account.uid, accountAddress := account.accountAddress
                       asset := account.asset, deltaRaw }]

/-- One entry for each user and asset; transfers to oneself drop out. -/
def aggregateEventDeltas (accounts : List JournalEventAccount) : List AccountDelta :=
  (accounts.foldl addDelta []).filter fun entry => entry.deltaRaw != 0

structure AffectedAccount where
  uid : Uid
  accountAddress : Address
  asset : Asset
  deriving DecidableEq

/-- Put an account in its place in the map. -/
def setAffected (affected : List AffectedAccount) (delta : AccountDelta) : List AffectedAccount :=
  let account : AffectedAccount :=
    { uid := delta.uid, accountAddress := delta.accountAddress, asset := delta.asset }
  if affected.any fun entry => entry.accountAddress == account.accountAddress &&
      entry.asset == account.asset then
    affected.map fun entry =>
      if entry.accountAddress == account.accountAddress && entry.asset == account.asset then account
      else entry
  else affected ++ [account]

/-- The accounts that events touch, each once. -/
def affectedEventAccounts (events : List JournalEvent) : List AffectedAccount :=
  (events.flatMap fun event => aggregateEventDeltas event.accounts).foldl setAffected []

/-! ### The batch of deltas -/

structure ProjectionInput where
  block : JournalBlock
  events : List JournalEvent
  expectedReorgEpoch : Option Nat

/-- The row of a delta. -/
def AccountDelta.row (delta : AccountDelta) (event : JournalEvent) (chainId : ChainId) :
    BalanceDelta :=
  { eventId := event.id chainId, blockHash := event.blockHash, uid := delta.uid
    accountAddress := delta.accountAddress, asset := delta.asset, deltaRaw := delta.deltaRaw
    canonical := event.canonical }

/-- Apply one event, which has to be in the journal. -/
def projectEvent (chainId : ChainId) (events : Table ChainEvent) (deltas : Table BalanceDelta)
    (event : JournalEvent) : Except JournalError (Table BalanceDelta) := do
  revertIf (events.any (fun e => e.eventId == event.id chainId && e.blockHash == event.blockHash) =
    false) .foreignKey
  return (aggregateEventDeltas event.accounts).foldl
    (fun t delta => t.insertOrIgnore (delta.row event chainId)) deltas

/-- The batch. -/
def applyDeltas (input : ProjectionInput) (expectedReorgEpoch : Nat) (db : Db) :
    Except JournalError Db := do
  chainEpochGuard input.block.chainId expectedReorgEpoch db
  let deltas ← input.events.foldlM (projectEvent input.block.chainId db.chainEvents) db.deltas
  return { db with deltas }

/-! ### Snapshots -/

inductive BalanceProjectionStrategy | events | eventsPlusRpc | rpcOnly | knownOperations
  deriving DecidableEq

/-- `asset_indexing_policies`. -/
structure AssetIndexingPolicy where
  strategy : BalanceProjectionStrategy
  projectionVersion : Nat
  enabled : Bool

def balanceProjectorVersion : Nat := 1

/-- A balance as of a block. -/
structure BalanceAt where
  balanceRaw : Int
  blockNumber : BlockNumber
  blockHash : BlockHash

structure ProjectionSnapshotState where
  snapshot : BalanceAt
  strategy : BalanceProjectionStrategy
  policyVersion : Nat
  enabled : Bool
  baseline : Option BalanceAt

/-- The key of snapshots and of baselines. -/
structure AccountAsset where
  chainId : ChainId
  accountAddress : Address
  asset : Asset
  deriving DecidableEq

def AffectedAccount.key (account : AffectedAccount) (chainId : ChainId) : AccountAsset :=
  { chainId, accountAddress := account.accountAddress, asset := account.asset }

def BalanceSnapshot.key (r : BalanceSnapshot) : AccountAsset :=
  { chainId := r.chainId, accountAddress := r.accountAddress, asset := r.asset }

def ProjectionBaseline.key (r : ProjectionBaseline) : AccountAsset :=
  { chainId := r.chainId, accountAddress := r.accountAddress, asset := r.asset }

/-- The primary key of a delta. -/
structure DeltaKey where
  eventId : EventId
  blockHash : BlockHash
  uid : Uid
  asset : Asset
  deriving DecidableEq

def BalanceDelta.key (r : BalanceDelta) : DeltaKey :=
  { eventId := r.eventId, blockHash := r.blockHash, uid := r.uid, asset := r.asset }

/-- The snapshot that is canonical, with its policy and its baseline. -/
def selectState (key : AccountAsset) (policies : ChainId → Asset → Option AssetIndexingPolicy)
    (db : Db) : Option ProjectionSnapshotState := do
  let snapshot ← db.snapshots.find? fun r => r.key == key && r.canonical
  let policy ← policies key.chainId key.asset
  let baseline := (db.baselines.find? fun r => r.key == key).map fun r =>
    { balanceRaw := r.balanceRaw, blockNumber := r.blockNumber, blockHash := r.blockHash }
  return { snapshot := { balanceRaw := snapshot.balanceRaw, blockNumber := snapshot.blockNumber
                         blockHash := snapshot.blockHash }
           strategy := policy.strategy, policyVersion := policy.projectionVersion
           enabled := policy.enabled, baseline }

/-- The deltas of an account that are canonical, as are their events, in a range of blocks. -/
def selectDeltas (key : AccountAsset) (above upTo : BlockNumber) (db : Db) : List BalanceDelta :=
  db.deltas.filter fun r => r.eventId.chainId == key.chainId &&
    r.accountAddress == key.accountAddress && r.asset == key.asset && r.canonical &&
    db.chainEvents.any fun e => e.eventId == r.eventId && e.blockHash == r.blockHash &&
      e.canonical && decide (above < e.blockNumber) && decide (e.blockNumber ≤ upTo)

/-- The row that a projection may take further. -/
def advances (key : AccountAsset) (block : JournalBlock) (r : BalanceSnapshot) : Bool :=
  r.key == key && r.canonical && (decide (r.blockNumber < block.blockNumber) ||
    (r.blockNumber == block.blockNumber && r.blockHash == block.blockHash &&
      decide (r.source = .eventProjection)))

/-- What a projection writes. -/
def projected (balanceRaw : Int) (block : JournalBlock) (r : BalanceSnapshot) : BalanceSnapshot :=
  { r with balanceRaw, blockNumber := block.blockNumber, blockHash := block.blockHash
           source := .eventProjection, canonical := true }

theorem keepsKeys_projected (balanceRaw : Int) (block : JournalBlock) :
    Table.KeepsKeys (projected balanceRaw block) :=
  ⟨fun _ _ => rfl⟩

/-! ### The world -/

/-- What a run has read: how many recoveries there had been at its batch, how many when it
last read a snapshot, and of which deltas the balance that it computes is made. -/
structure Held where
  batchAt : Nat
  readAt : Nat
  included : List DeltaKey

structure ProjectorWorld where
  db : Db
  policies : ChainId → Asset → Option AssetIndexingPolicy
  chain : ChainId → BlockNumber → BlockHash
  orphaned : ChainId → BlockNumber → BlockHash → Bool
  recoveries : List (ChainId × BlockNumber)
  inSnapshot : AccountAsset → List DeltaKey
  inBaseline : AccountAsset → List DeltaKey
  held : Nat → Held

/-- The world before anything was indexed. -/
def ProjectorWorld.initial (chain : ChainId → BlockNumber → BlockHash) : ProjectorWorld where
  db := .initial
  policies _ _ := none
  chain := chain
  orphaned _ _ _ := false
  recoveries := []
  inSnapshot _ := []
  inBaseline _ := []
  held _ := { batchAt := 0, readAt := 0, included := [] }

/-! ### The statements of a run -/

inductive ProjectorOp
  | getChainReorgEpoch (chainId : ChainId)
  | applyDeltas (input : ProjectionInput) (expectedReorgEpoch : Nat)
  | selectState (key : AccountAsset)
  | insertBaseline (row : ProjectionBaseline)
  | selectDeltas (key : AccountAsset) (above upTo : BlockNumber)
  | updateSnapshot (key : AccountAsset) (balanceRaw : Int) (block : JournalBlock)

abbrev ProjectorOp.Reply : ProjectorOp → Type
  | .getChainReorgEpoch _ => Nat
  | .applyDeltas .. => Except JournalError Unit
  | .selectState _ => Option ProjectionSnapshotState
  | .insertBaseline _ => Unit
  | .selectDeltas .. => List Int
  | .updateSnapshot .. => Nat

/-- The history variable of a run. -/
def ProjectorWorld.hold (w : ProjectorWorld) (i : Nat) (held : Held) : ProjectorWorld :=
  { w with held := fun j => if j = i then held else w.held j }

/-- One statement of the run `i`. -/
def ProjectorOp.exec (i : Nat) : (o : ProjectorOp) → ProjectorWorld → o.Reply × ProjectorWorld
  | .getChainReorgEpoch chainId, w => (w.db.getChainReorgEpoch chainId, w)
  | .applyDeltas input expectedReorgEpoch, w =>
    match Server.applyDeltas input expectedReorgEpoch w.db with
    | .error e => (.error e, w)
    | .ok db =>
      (.ok (), { w with db }.hold i { w.held i with batchAt := w.recoveries.length })
  | .selectState key, w =>
    match Server.selectState key w.policies w.db with
    | none => (none, w)
    | some state =>
      (some state, w.hold i
        { w.held i with
          readAt := w.recoveries.length
          included := if state.baseline.isSome then w.inBaseline key else w.inSnapshot key })
  | .insertBaseline row, w =>
    ((), if w.db.baselines.Fits row then
        { w with
          db := { w.db with baselines := w.db.baselines.insertOrIgnore row }
          inBaseline := fun key => if key = row.key then (w.held i).included else w.inBaseline key }
      else w)
  | .selectDeltas key above upTo, w =>
    let rows := Server.selectDeltas key above upTo w.db
    (rows.map (·.deltaRaw), w.hold i
      { w.held i with included := (w.held i).included ++ rows.map BalanceDelta.key })
  | .updateSnapshot key balanceRaw block, w =>
    (w.db.snapshots.changes (advances key block),
      if w.db.snapshots.any (advances key block) then
        { w with
          db := { w.db with snapshots := w.db.snapshots.modify (advances key block)
                              (projected balanceRaw block) (keepsKeys_projected _ _) }
          inSnapshot := fun key' => if key' = key then (w.held i).included else w.inSnapshot key' }
      else w)

/-- A statement of one run leaves what the others hold. -/
theorem exec_held {i j : Nat} (hj : j ≠ i) (o : ProjectorOp) (w : ProjectorWorld) :
    (o.exec i w).2.held j = w.held j := by
  cases o with
  | getChainReorgEpoch chainId => rfl
  | applyDeltas input epoch =>
    simp only [ProjectorOp.exec]
    split
    · rfl
    · exact if_neg hj
  | selectState key =>
    simp only [ProjectorOp.exec]
    split
    · rfl
    · exact if_neg hj
  | insertBaseline row =>
    simp only [ProjectorOp.exec]
    split <;> rfl
  | selectDeltas key above upTo => exact if_neg hj
  | updateSnapshot key balanceRaw block =>
    simp only [ProjectorOp.exec]
    split <;> rfl

/-! ### A run -/

abbrev Projector := Prog ProjectorOp ProjectorOp.Reply

def perform (o : ProjectorOp) : Projector o.Reply := Prog.perform o

structure SnapshotResult where
  updated : Nat
  eventOnlySatisfiedAccounts : List (Uid × Address)

/-- Mark an account as served by events alone. -/
def SnapshotResult.satisfy (result : SnapshotResult) (state : ProjectionSnapshotState)
    (account : AffectedAccount) : SnapshotResult :=
  if state.strategy = .events then
    { result with eventOnlySatisfiedAccounts :=
        result.eventOnlySatisfiedAccounts ++ [(account.uid, account.accountAddress)] }
  else result

/-- The asset is projected from events. -/
def ProjectionSnapshotState.Projectable (state : ProjectionSnapshotState) : Prop :=
  state.enabled = true ∧ state.strategy ∈ [.events, .eventsPlusRpc] ∧
    state.policyVersion = balanceProjectorVersion

instance (state : ProjectionSnapshotState) : Decidable state.Projectable := by
  unfold ProjectionSnapshotState.Projectable
  infer_instance

/-- The baseline of an account: the one that there is, or its snapshot. -/
def ensureBaseline (key : AccountAsset) (state : ProjectionSnapshotState) : Projector BalanceAt :=
  match state.baseline with
  | some baseline => return baseline
  | none => do
    perform (.insertBaseline
      { chainId := key.chainId, accountAddress := key.accountAddress, asset := key.asset
        balanceRaw := state.snapshot.balanceRaw, blockNumber := state.snapshot.blockNumber
        blockHash := state.snapshot.blockHash })
    return state.snapshot

/-- Take the snapshot of an account from its baseline on to the block. -/
def advanceSnapshot (block : JournalBlock) (result : SnapshotResult) (account : AffectedAccount)
    (state : ProjectionSnapshotState) (baseline : BalanceAt) : Projector SnapshotResult := do
  let key := account.key block.chainId
  if block.blockNumber ≤ baseline.blockNumber then
    return result.satisfy state account
  let deltas ← perform (.selectDeltas key baseline.blockNumber block.blockNumber)
  let projectedRaw := deltas.foldl (· + ·) baseline.balanceRaw
  if projectedRaw < 0 then
    return result
  let changes ← perform (.updateSnapshot key projectedRaw block)
  if 0 < changes then
    return { result with updated := result.updated + 1 }.satisfy state account
  else return result

/-- The body of the loop over the accounts. -/
def refreshAccount (block : JournalBlock) (result : SnapshotResult) (account : AffectedAccount) :
    Projector SnapshotResult := do
  match ← perform (.selectState (account.key block.chainId)) with
  | none => return result
  | some state =>
    if state.Projectable then
      let baseline ← ensureBaseline (account.key block.chainId) state
      advanceSnapshot block result account state baseline
    else return result

def refreshAccounts (block : JournalBlock) :
    SnapshotResult → List AffectedAccount → Projector SnapshotResult
  | result, [] => return result
  | result, account :: accounts => do
    let result ← refreshAccount block result account
    refreshAccounts block result accounts

def refreshProjectedSnapshots (block : JournalBlock) (events : List JournalEvent) :
    Projector SnapshotResult :=
  refreshAccounts block { updated := 0, eventOnlySatisfiedAccounts := [] }
    (affectedEventAccounts events)

def JournalError.message : JournalError → String
  | .eventsFromDifferentBlock => "Journal batch contains events from a different block"
  | .evidenceFromDifferentBlock =>
    "Journal batch contains UserOperation evidence from a different block"
  | .chainEpochGuardInvalid => "Chain epoch guard is invalid"
  | .chainReorgEpochStale => "chain_reorg_epoch_stale"
  | .foreignKey => "FOREIGN KEY constraint failed"
  | _ => "UNIQUE constraint failed"

/-- A run, from the epoch on. -/
def applyAndRefresh (input : ProjectionInput) (expectedReorgEpoch : Nat) :
    Projector SnapshotResult := do
  match ← perform (.applyDeltas input expectedReorgEpoch) with
  | .error e => throw e.message
  | .ok () => refreshProjectedSnapshots input.block input.events

def projectBalanceDeltas (input : ProjectionInput) : Projector SnapshotResult := do
  match input.expectedReorgEpoch with
  | some epoch => applyAndRefresh input epoch
  | none => applyAndRefresh input (← perform (.getChainReorgEpoch input.block.chainId))

/-! ### What happens around the runs -/

/-- A snapshot that was read over RPC takes the place of this one. -/
def takesOver (snapshot r : BalanceSnapshot) : Bool :=
  !r.canonical || decide (r.blockNumber < snapshot.blockNumber) ||
    (r.blockNumber == snapshot.blockNumber && r.blockHash == snapshot.blockHash)

/-- Write a snapshot that was read over RPC. -/
def upsertBalanceSnapshot (snapshot : BalanceSnapshot) (snapshots : Table BalanceSnapshot) :
    Table BalanceSnapshot :=
  snapshots.upsert { snapshot with canonical := true }
    (fun r =>
      if takesOver snapshot r then
        { r with uid := snapshot.uid, balanceRaw := snapshot.balanceRaw
                 blockNumber := snapshot.blockNumber, blockHash := snapshot.blockHash
                 source := snapshot.source, canonical := true }
      else r)
    (by
      constructor
      intro r r'
      split <;> rfl)

inductive ProjectorSurroundings
  /-- A recovery to an ancestor, above which the chain now has `blocks`. -/
  | recover (chainId : ChainId) (ancestor : BlockNumber) (ancestorHash : BlockHash)
      (blocks : BlockNumber → BlockHash)
  | journalBlockEvents (input : JournalInput)
  | readBalance (snapshot : BalanceSnapshot)
  | setPolicies (policies : ChainId → Asset → Option AssetIndexingPolicy)

def ProjectorSurroundings.move : ProjectorSurroundings → ProjectorWorld → ProjectorWorld
  | .recover chainId ancestor ancestorHash blocks, w =>
    { w with
      db := rollback chainId ancestor ancestorHash w.db
      chain := fun c n => if c = chainId ∧ ancestor < n then blocks n else w.chain c n
      orphaned := fun c n hash =>
        if c = chainId ∧ ancestor < n then
          (w.orphaned c n hash || w.chain c n == hash) && blocks n != hash
        else w.orphaned c n hash
      recoveries := w.recoveries ++ [(chainId, ancestor)] }
  | .journalBlockEvents input, w => { w with db := journal.transact (.journal input) w.db }
  | .readBalance snapshot, w =>
    { w with
      db := { w.db with snapshots := upsertBalanceSnapshot snapshot w.db.snapshots }
      -- no delta is part of a balance that was read
      inSnapshot := fun key =>
        if key = snapshot.key ∧ ∀ r ∈ w.db.snapshots, r.key = key → takesOver snapshot r then []
        else w.inSnapshot key }
  | .setPolicies policies, w => { w with policies }

/-- Runs of the projector side by side. -/
def projectorSystem : System ProjectorOp ProjectorOp.Reply ProjectorWorld Unit
    ProjectorSurroundings ProjectionInput SnapshotResult where
  exec i o _ w := o.exec i w
  env := ProjectorSurroundings.move
  body := projectBalanceDeltas

end ParmeliaLinks.Server
