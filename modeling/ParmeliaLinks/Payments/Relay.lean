/-
ParmeliaLinks/Payments/Relay.lean

The tables of the worker that are not the payments themselves: the router
journal with its checkpoints, the CCTP operations with their mint transactions,
and the leases of the relayer's signer.  Each statement or batch of
`chainJournalStore`, `signerLeaseStore` and of the CCTP part of the payments
repository is one function, named after the repository function it belongs to.

A CCTP operation is `cctp_<attempt>`, so it is found by its attempt.
-/
import ParmeliaLinks.Payments.Repository
import ParmeliaLinks.Payments.Evidence

namespace ParmeliaLinks.Payments

/-! ### The router journal -/

/-- `payment_stream_checkpoints`, stream `routers`. -/
structure RouterCheckpoint where
  chainId : ChainId
  blockNumber : Nat
  blockHash : Hash

instance : Row RouterCheckpoint where
  clash r r' := r.chainId == r'.chainId
  clash_comm _ _ := Bool.beq_comm

/-- `payment_chain_blocks`. -/
structure RouterBlock where
  chainId : ChainId
  blockNumber : Nat
  blockHash : Hash
  parentHash : Hash
  timestamp : Nat
  canonical : Bool

instance : Row RouterBlock where
  clash r r' := r.chainId == r'.chainId && r.blockNumber == r'.blockNumber &&
    r.blockHash == r'.blockHash
  clash_comm r r' := by
    simp only [Bool.beq_comm (a := r.chainId), Bool.beq_comm (a := r.blockNumber),
      Bool.beq_comm (a := r.blockHash)]

/-- `payment_chain_events`. -/
structure RouterEvent where
  chainId : ChainId
  txHash : Hash
  logIndex : Nat
  blockNumber : Nat
  blockHash : Hash
  /-- `PaymentSettled` when it holds, `CctpPaymentBurned` otherwise. -/
  settled : Bool
  intentHash : Option Hash
  attemptHash : Option Hash
  canonical : Bool

instance : Row RouterEvent where
  clash r r' := r.chainId == r'.chainId && r.txHash == r'.txHash && r.logIndex == r'.logIndex
  clash_comm r r' := by
    simp only [Bool.beq_comm (a := r.chainId), Bool.beq_comm (a := r.txHash),
      Bool.beq_comm (a := r.logIndex)]

/-! ### CCTP operations -/

inductive CctpStatus
  | awaitingBurn | burned | attesting | minting | settled | failed | needsSupport
  deriving DecidableEq

structure CrosschainOperation where
  attemptId : AttemptId
  sourceChainId : ChainId
  destinationChainId : ChainId
  route : PaymentRoute
  status : CctpStatus
  sourceTxHash : Option Hash
  messageHash : Option Hash
  message : Option Hex
  attestation : Option Hex
  burnAmountAtomic : Option Nat
  platformFeeAtomic : Option Nat
  networkFeeAtomic : Option Nat
  destinationTxHash : Option Hash
  messageNonce : Option Hex
  mintedAmountAtomic : Option Nat
  mintRawTransaction : Option Hex
  mintSignerAddress : Option Address
  mintNonce : Option Nat
  mintBroadcastAt : Option Timestamp
  attemptCount : Nat
  lastErrorCode : Option String
  nextAttemptAt : Timestamp
  createdAt : Timestamp

instance : Row CrosschainOperation where
  clash r r' := r.attemptId == r'.attemptId
  clash_comm _ _ := Bool.beq_comm

inductive MintStatus | prepared | broadcast | pending | success | reverted | unknown
  deriving DecidableEq

/-- `crosschain_mint_attempts`. -/
structure MintAttempt where
  operation : AttemptId
  txHash : Hash
  status : MintStatus
  createdAt : Timestamp

instance : Row MintAttempt where
  clash r r' := r.txHash == r'.txHash
  clash_comm _ _ := Bool.beq_comm

/-- The key of a signer lease: `cctp-mint:<chain>:<signer>`. -/
abbrev SignerKey := ChainId × Address

/-- `payment_signer_leases`. -/
structure SignerLease where
  key : SignerKey
  owner : Nat
  expiresAt : Timestamp

instance : Row SignerLease where
  clash r r' := r.key == r'.key
  clash_comm _ _ := Bool.beq_comm

/-! ### The world of the worker -/

structure WorkerWorld where
  payments : World
  checkpoints : Table RouterCheckpoint
  blocks : Table RouterBlock
  events : Table RouterEvent
  operations : Table CrosschainOperation
  mintAttempts : Table MintAttempt
  leases : Table SignerLease

def WorkerWorld.initial (clock : Timestamp) : WorkerWorld where
  payments := { db := .initial, clock := clock, uuid := 0, simulations := [] }
  checkpoints := .empty
  blocks := .empty
  events := .empty
  operations := .empty
  mintAttempts := .empty
  leases := .empty

/-! ### Statements of the journal -/

/-- The last blocks of the journal below a height, the newest first. -/
def WorkerWorld.listCanonicalRouterBlocksBefore (w : WorkerWorld) (chainId : ChainId)
    (blockNumber : Nat) : List RouterBlock :=
  ((w.blocks.filter fun b => b.chainId == chainId && b.canonical && b.blockNumber < blockNumber)
    |>.mergeSort fun b b' => b'.blockNumber ≤ b.blockNumber).take 128

/-- The batch of `rollbackRouterJournal`, and how many events it orphans. -/
def WorkerWorld.rollbackRouterJournal (w : WorkerWorld) (chainId : ChainId)
    (ancestor : RouterCheckpoint) : Nat × WorkerWorld :=
  let orphaned (e : RouterEvent) :=
    e.chainId == chainId && ancestor.blockNumber < e.blockNumber && e.canonical
  let events := w.events.modify orphaned ({ · with canonical := false }) ⟨fun _ _ => rfl⟩
  let blocks := w.blocks.modify
    (fun b => b.chainId == chainId && ancestor.blockNumber < b.blockNumber && b.canonical)
    ({ · with canonical := false }) ⟨fun _ _ => rfl⟩
  let checkpoints := w.checkpoints.modify (·.chainId == chainId)
    (fun c => { c with blockNumber := ancestor.blockNumber, blockHash := ancestor.blockHash })
    ⟨fun _ _ => rfl⟩
  (w.events.changes orphaned, { w with events, blocks, checkpoints })

/-- `INSERT … ON CONFLICT(chain_id, tx_hash, log_index) DO UPDATE`. -/
def WorkerWorld.upsertPaymentChainEvent (w : WorkerWorld) (e : RouterEvent) : WorkerWorld :=
  { w with
    events := w.events.upsert e
      (fun r => { r with
        blockNumber := e.blockNumber, blockHash := e.blockHash, settled := e.settled
        intentHash := e.intentHash, attemptHash := e.attemptHash, canonical := true })
      ⟨fun _ _ => rfl⟩ }

/-- The batch of `commitRouterCheckpoint`. -/
def WorkerWorld.commitRouterCheckpoint (w : WorkerWorld) (b : RouterBlock) : WorkerWorld :=
  let blocks := w.blocks.modify
    (fun r => r.chainId == b.chainId && r.blockNumber == b.blockNumber &&
      r.blockHash != b.blockHash && r.canonical)
    ({ · with canonical := false }) ⟨fun _ _ => rfl⟩
  { w with
    blocks := blocks.upsert b ({ · with canonical := true }) ⟨fun _ _ => rfl⟩
    checkpoints := w.checkpoints.upsert
      { chainId := b.chainId, blockNumber := b.blockNumber, blockHash := b.blockHash }
      (fun c => { c with blockNumber := b.blockNumber, blockHash := b.blockHash })
      ⟨fun _ _ => rfl⟩ }

/-! ### Statements on CCTP operations -/

structure BurnEvidence where
  attemptId : AttemptId
  sourceChainId : ChainId
  destinationChainId : ChainId
  route : PaymentRoute
  sourceTxHash : Hash
  messageHash : Hash
  message : Option Hex
  burnAmountAtomic : Nat
  platformFeeAtomic : Nat

/-- The row of an operation that is first seen. -/
def BurnEvidence.row (input : BurnEvidence) (timestamp : Timestamp) : CrosschainOperation where
  attemptId := input.attemptId
  sourceChainId := input.sourceChainId
  destinationChainId := input.destinationChainId
  route := input.route
  status := .burned
  sourceTxHash := some input.sourceTxHash
  messageHash := some input.messageHash
  message := input.message
  attestation := none
  burnAmountAtomic := some input.burnAmountAtomic
  platformFeeAtomic := some input.platformFeeAtomic
  networkFeeAtomic := none
  destinationTxHash := none
  messageNonce := none
  mintedAmountAtomic := none
  mintRawTransaction := none
  mintSignerAddress := none
  mintNonce := none
  mintBroadcastAt := none
  attemptCount := 0
  lastErrorCode := none
  nextAttemptAt := timestamp
  createdAt := timestamp

/-- What an operation that is seen again takes from the evidence: what it lacks. -/
def BurnEvidence.complete (input : BurnEvidence) (r : CrosschainOperation) : CrosschainOperation :=
  { r with
    sourceTxHash := r.sourceTxHash <|> some input.sourceTxHash
    messageHash := r.messageHash <|> some input.messageHash
    message := r.message <|> input.message
    burnAmountAtomic := r.burnAmountAtomic <|> some input.burnAmountAtomic
    platformFeeAtomic := r.platformFeeAtomic <|> some input.platformFeeAtomic
    status := if r.status = .awaitingBurn then .burned else r.status }

/-- `INSERT … ON CONFLICT(attempt_id) DO UPDATE`; the attempt must exist. -/
def WorkerWorld.upsertCrosschainOperation (w : WorkerWorld) (input : BurnEvidence)
    (timestamp : Timestamp) : Option WorkerWorld := do
  guard (w.payments.db.attempts.any (·.id == input.attemptId))
  return { w with
    operations := w.operations.upsert (input.row timestamp) input.complete ⟨fun _ _ => rfl⟩ }

/-- The columns that `updateCrosschainOperation` is given: `none` keeps a column. -/
structure OperationFields where
  status : CctpStatus
  message : Option Hex := none
  attestation : Option Hex := none
  destinationTxHash : Option Hash := none
  networkFeeAtomic : Option Nat := none
  messageNonce : Option Hex := none
  mintedAmountAtomic : Option Nat := none
  lastErrorCode : Option String := none

def OperationFields.apply (fields : OperationFields) (now : Timestamp) (r : CrosschainOperation) :
    CrosschainOperation :=
  { r with
    status := fields.status
    message := fields.message <|> r.message
    attestation := fields.attestation <|> r.attestation
    destinationTxHash := fields.destinationTxHash <|> r.destinationTxHash
    networkFeeAtomic := fields.networkFeeAtomic <|> r.networkFeeAtomic
    messageNonce := fields.messageNonce <|> r.messageNonce
    mintedAmountAtomic := fields.mintedAmountAtomic <|> r.mintedAmountAtomic
    lastErrorCode := fields.lastErrorCode
    nextAttemptAt := now + 30000 }

/-- `UPDATE crosschain_operations SET … WHERE op_id = ?`. -/
def WorkerWorld.updateCrosschainOperation (w : WorkerWorld) (operation : AttemptId)
    (fields : OperationFields) (now : Timestamp) : WorkerWorld :=
  { w with
    operations := w.operations.modify (·.attemptId == operation) (fields.apply now)
      ⟨fun _ _ => rfl⟩ }

structure PreparedMint where
  txHash : Hash
  rawTransaction : Hex
  signerAddress : Address
  nonce : Nat

/-- An operation that a mint transaction can be prepared for. -/
def preparable (operation : AttemptId) (r : CrosschainOperation) : Bool :=
  r.attemptId == operation && r.status == .minting && r.destinationTxHash == none

def PreparedMint.apply (mint : PreparedMint) (r : CrosschainOperation) : CrosschainOperation :=
  { r with
    destinationTxHash := some mint.txHash
    mintRawTransaction := some mint.rawTransaction
    mintSignerAddress := some mint.signerAddress
    mintNonce := some mint.nonce
    attemptCount := r.attemptCount + 1
    lastErrorCode := none }

/-- The batch of `recordCrosschainMintPrepared`, and whether its first statement
found the operation. -/
def WorkerWorld.recordCrosschainMintPrepared (w : WorkerWorld) (operation : AttemptId)
    (mint : PreparedMint) (timestamp : Timestamp) : Bool × WorkerWorld :=
  let operations := w.operations.modify (preparable operation) mint.apply ⟨fun _ _ => rfl⟩
  let holds := operations.any fun r =>
    r.attemptId == operation && r.destinationTxHash == some mint.txHash
  let mintAttempts := if holds then
      w.mintAttempts.insertOrIgnore
        { operation, txHash := mint.txHash, status := .prepared, createdAt := timestamp }
    else w.mintAttempts
  (0 < w.operations.changes (preparable operation), { w with operations, mintAttempts })

/-- The operation is minting with this transaction. -/
def mintingWith (operation : AttemptId) (txHash : Hash) (r : CrosschainOperation) : Bool :=
  r.attemptId == operation && r.destinationTxHash == some txHash && r.status == .minting

/-- `UPDATE crosschain_mint_attempts SET status = ? WHERE op_id = ? AND tx_hash = ?`. -/
def WorkerWorld.setMintStatus (w : WorkerWorld) (operation : AttemptId) (txHash : Hash)
    (status : MintStatus) : Table MintAttempt :=
  w.mintAttempts.modify (fun m => m.operation == operation && m.txHash == txHash)
    ({ · with status }) ⟨fun _ _ => rfl⟩

/-- The operation with the time of its first broadcast. -/
def broadcastMint (timestamp : Timestamp) (r : CrosschainOperation) : CrosschainOperation :=
  { r with mintBroadcastAt := r.mintBroadcastAt <|> some timestamp }

/-- The batch of `recordCrosschainMintBroadcast`. -/
def WorkerWorld.recordCrosschainMintBroadcast (w : WorkerWorld) (operation : AttemptId)
    (txHash : Hash) (timestamp : Timestamp) : WorkerWorld :=
  { w with
    operations := w.operations.modify (mintingWith operation txHash) (broadcastMint timestamp)
      ⟨fun _ _ => rfl⟩
    mintAttempts := w.setMintStatus operation txHash .broadcast }

/-- `INSERT … ON CONFLICT(tx_hash) DO UPDATE`. -/
def WorkerWorld.recordCrosschainMintResult (w : WorkerWorld) (operation : AttemptId)
    (txHash : Hash) (status : MintStatus) (timestamp : Timestamp) : WorkerWorld :=
  { w with
    mintAttempts := w.mintAttempts.upsert { operation, txHash, status, createdAt := timestamp }
      ({ · with status }) ⟨fun _ _ => rfl⟩ }

/-- The operation without its mint transaction. -/
def clearedMint (now : Timestamp) (r : CrosschainOperation) : CrosschainOperation :=
  { r with
    destinationTxHash := none, mintRawTransaction := none, mintSignerAddress := none
    mintNonce := none, mintBroadcastAt := none, lastErrorCode := some "CCTP_MINT_REVERTED"
    nextAttemptAt := now + 30000 }

/-- The batch of `clearRevertedCrosschainMint`. -/
def WorkerWorld.clearRevertedCrosschainMint (w : WorkerWorld) (operation : AttemptId)
    (txHash : Hash) (now : Timestamp) : WorkerWorld :=
  { w with
    mintAttempts := w.setMintStatus operation txHash .reverted
    operations := w.operations.modify (mintingWith operation txHash) (clearedMint now)
      ⟨fun _ _ => rfl⟩ }

/-! ### Statements on signer leases -/

/-- `UPDATE payment_signer_leases … WHERE lease_key = ? AND expires_at <= ?`, and
whether it found a lease. -/
def WorkerWorld.takeExpiredLease (w : WorkerWorld) (key : SignerKey) (owner : Nat)
    (expiresAt now : Timestamp) : Bool × WorkerWorld :=
  let expired (l : SignerLease) := l.key == key && l.expiresAt ≤ now
  (0 < w.leases.changes expired,
    { w with leases := w.leases.modify expired ({ · with owner, expiresAt }) ⟨fun _ _ => rfl⟩ })

/-- `INSERT OR IGNORE INTO payment_signer_leases`, and whether a row went in. -/
def WorkerWorld.insertLease (w : WorkerWorld) (key : SignerKey) (owner : Nat)
    (expiresAt : Timestamp) : Bool × WorkerWorld :=
  let leases := w.leases.insertOrIgnore { key, owner, expiresAt }
  (w.leases.rows.length < leases.rows.length, { w with leases })

/-- `DELETE FROM payment_signer_leases WHERE lease_key = ? AND owner = ?`. -/
def WorkerWorld.releaseLease (w : WorkerWorld) (key : SignerKey) (owner : Nat) : WorkerWorld :=
  { w with leases := w.leases.delete fun l => l.key == key && l.owner == owner }

/-! ### Operations -/

inductive RelayOp
  -- queries on the payments
  | selectAttemptByHash (attemptHash : Hash)
  | selectActiveRouters (chainId : ChainId)
  -- the router journal
  | selectCheckpoint (chainId : ChainId)
  | selectBlocksBefore (chainId : ChainId) (blockNumber : Nat)
  | rollbackRouterJournal (chainId : ChainId) (ancestor : RouterCheckpoint)
  | upsertPaymentChainEvent (e : RouterEvent)
  | commitRouterCheckpoint (b : RouterBlock)
  -- CCTP operations
  | selectOperation (operation : AttemptId)
  | upsertCrosschainOperation (input : BurnEvidence) (timestamp : Timestamp)
  | updateCrosschainOperation (operation : AttemptId) (fields : OperationFields) (now : Timestamp)
  | recordCrosschainMintPrepared (operation : AttemptId) (mint : PreparedMint)
      (timestamp : Timestamp)
  | recordCrosschainMintBroadcast (operation : AttemptId) (txHash : Hash) (timestamp : Timestamp)
  | recordCrosschainMintResult (operation : AttemptId) (txHash : Hash) (status : MintStatus)
      (timestamp : Timestamp)
  | clearRevertedCrosschainMint (operation : AttemptId) (txHash : Hash) (now : Timestamp)
  -- signer leases
  | takeExpiredLease (key : SignerKey) (owner : Nat) (expiresAt now : Timestamp)
  | insertLease (key : SignerKey) (owner : Nat) (expiresAt : Timestamp)
  | releaseLease (key : SignerKey) (owner : Nat)

namespace RelayOp

abbrev Reply : RelayOp → Type
  | .selectAttemptByHash _ => Option PaymentAttempt
  | .selectActiveRouters _ => List Address
  | .selectCheckpoint _ => Option RouterCheckpoint
  | .selectBlocksBefore .. => List RouterBlock
  | .rollbackRouterJournal .. => Nat
  | .upsertPaymentChainEvent _ => Unit
  | .commitRouterCheckpoint _ => Unit
  | .selectOperation _ => Option CrosschainOperation
  | .upsertCrosschainOperation .. => Option Unit
  | .updateCrosschainOperation .. => Unit
  | .recordCrosschainMintPrepared .. => Bool
  | .recordCrosschainMintBroadcast .. => Unit
  | .recordCrosschainMintResult .. => Unit
  | .clearRevertedCrosschainMint .. => Unit
  | .takeExpiredLease .. => Bool
  | .insertLease .. => Bool
  | .releaseLease .. => Unit

/-- One operation. -/
def exec (w : WorkerWorld) : (o : RelayOp) → Reply o × WorkerWorld
  | .selectAttemptByHash h => (w.payments.db.attempts.find? (·.attemptHash == h), w)
  | .selectActiveRouters chainId =>
    let active := w.payments.db.attempts.filter fun a =>
      a.sourceChainId == chainId && a.status.active
    ((active.map (·.routerAddress)).dedup, w)
  | .selectCheckpoint chainId => (w.checkpoints.find? (·.chainId == chainId), w)
  | .selectBlocksBefore chainId blockNumber =>
    (w.listCanonicalRouterBlocksBefore chainId blockNumber, w)
  | .rollbackRouterJournal chainId ancestor => w.rollbackRouterJournal chainId ancestor
  | .upsertPaymentChainEvent e => ((), w.upsertPaymentChainEvent e)
  | .commitRouterCheckpoint b => ((), w.commitRouterCheckpoint b)
  | .selectOperation operation => (w.operations.find? (·.attemptId == operation), w)
  | .upsertCrosschainOperation input timestamp =>
    match w.upsertCrosschainOperation input timestamp with
    | some w' => (some (), w')
    | none => (none, w)
  | .updateCrosschainOperation operation fields now =>
    ((), w.updateCrosschainOperation operation fields now)
  | .recordCrosschainMintPrepared operation mint timestamp =>
    w.recordCrosschainMintPrepared operation mint timestamp
  | .recordCrosschainMintBroadcast operation txHash timestamp =>
    ((), w.recordCrosschainMintBroadcast operation txHash timestamp)
  | .recordCrosschainMintResult operation txHash status timestamp =>
    ((), w.recordCrosschainMintResult operation txHash status timestamp)
  | .clearRevertedCrosschainMint operation txHash now =>
    ((), w.clearRevertedCrosschainMint operation txHash now)
  | .takeExpiredLease key owner expiresAt now => w.takeExpiredLease key owner expiresAt now
  | .insertLease key owner expiresAt => w.insertLease key owner expiresAt
  | .releaseLease key owner => ((), w.releaseLease key owner)

/-! ### What an operation leaves behind -/

/-- The write does this to a row of `crosschain_operations` that it finds. -/
def Writes : RelayOp → CrosschainOperation → CrosschainOperation → Prop
  | .upsertCrosschainOperation input _, r, r' =>
    r.attemptId = input.attemptId ∧ r' = input.complete r
  | .updateCrosschainOperation operation fields now, r, r' =>
    r.attemptId = operation ∧ r' = fields.apply now r
  | .recordCrosschainMintPrepared operation mint _, r, r' =>
    preparable operation r = true ∧ r' = mint.apply r
  | .recordCrosschainMintBroadcast operation txHash timestamp, r, r' =>
    mintingWith operation txHash r = true ∧ r' = broadcastMint timestamp r
  | .clearRevertedCrosschainMint operation txHash now, r, r' =>
    mintingWith operation txHash r = true ∧ r' = clearedMint now r
  | _, _, _ => False

/-- The row is as it was, or as the write made it. -/
def Step (o : RelayOp) (r r' : CrosschainOperation) : Prop := r' = r ∨ o.Writes r r'

/-- The write adds this row. -/
def Adds : RelayOp → WorkerWorld → CrosschainOperation → Prop
  | .upsertCrosschainOperation input timestamp, w, r =>
    r = input.row timestamp ∧ ∃ a ∈ w.payments.db.attempts, a.id = input.attemptId
  | _, _, _ => False

theorem evolves_modify (o : RelayOp) {w : WorkerWorld} {p : CrosschainOperation → Bool}
    {f : CrosschainOperation → CrosschainOperation} (hf : Table.KeepsKeys f)
    (h : ∀ r, p r = true → o.Writes r (f r)) :
    Table.Evolves o.Step (o.Adds w) w.operations (w.operations.modify p f hf) := by
  refine Table.evolves_of_rewritten (Table.modify_rows _ _ _ _) ?_ ?_
  · exact fun r _ _ => .inl rfl
  · exact fun r _ hp => .inr (h r hp)

/-- Every write of the operations, as what it does to the rows. -/
theorem exec_operations (o : RelayOp) (w : WorkerWorld) :
    Table.Evolves o.Step (o.Adds w) w.operations (o.exec w).2.operations := by
  have same : Table.Evolves o.Step (o.Adds w) w.operations w.operations :=
    Table.Evolves.rfl (fun r => .inl rfl) _
  cases o with
  | upsertCrosschainOperation input timestamp =>
    simp only [exec, WorkerWorld.upsertCrosschainOperation]
    by_cases known : w.payments.db.attempts.any (·.id == input.attemptId) = true
    · unfold guard
      rw [if_pos known]
      obtain ⟨a, ha, hid⟩ := Table.any_eq_true.1 known
      show Table.Evolves _ _ w.operations (w.operations.upsert _ _ _)
      unfold Table.upsert
      split
      · refine Table.evolves_of_append (by exact rfl) (fun r => .inl rfl) ⟨rfl, a, ha, ?_⟩
        exact beq_iff_eq.1 hid
      · have keys : Table.KeepsKeys input.complete := ⟨fun _ _ => rfl⟩
        exact evolves_modify _ keys fun r hr => ⟨beq_iff_eq.1 hr, rfl⟩
    · unfold guard
      rw [if_neg known]
      exact same
  | updateCrosschainOperation operation fields now =>
    have keys : Table.KeepsKeys (fields.apply now) := ⟨fun _ _ => rfl⟩
    exact evolves_modify _ keys fun r hr => ⟨beq_iff_eq.1 hr, rfl⟩
  | recordCrosschainMintPrepared operation mint timestamp =>
    have keys : Table.KeepsKeys mint.apply := ⟨fun _ _ => rfl⟩
    exact evolves_modify _ keys fun r hr => ⟨hr, rfl⟩
  | recordCrosschainMintBroadcast operation txHash timestamp =>
    have keys : Table.KeepsKeys (broadcastMint timestamp) := ⟨fun _ _ => rfl⟩
    exact evolves_modify _ keys fun r hr => ⟨hr, rfl⟩
  | clearRevertedCrosschainMint operation txHash now =>
    have keys : Table.KeepsKeys (clearedMint now) := ⟨fun _ _ => rfl⟩
    exact evolves_modify _ keys fun r hr => ⟨hr, rfl⟩
  | _ => exact same

/-- No statement of these tables touches the payments. -/
theorem exec_payments (o : RelayOp) (w : WorkerWorld) : (o.exec w).2.payments = w.payments := by
  cases o with
  | upsertCrosschainOperation input timestamp =>
    simp only [exec, WorkerWorld.upsertCrosschainOperation]
    by_cases known : w.payments.db.attempts.any (·.id == input.attemptId) = true
    · unfold guard
      rw [if_pos known]
      rfl
    · unfold guard
      rw [if_neg known]
      rfl
  | _ => rfl

end RelayOp

/-- A later row of an operation is of the same attempt, and keeps having a message. -/
structure OperationEvolves (r r' : CrosschainOperation) : Prop where
  attemptId : r'.attemptId = r.attemptId
  message : r.message.isSome = true → r'.message.isSome = true

theorem OperationEvolves.rfl (r : CrosschainOperation) : OperationEvolves r r := ⟨by rfl, id⟩

theorem OperationEvolves.trans {r₁ r₂ r₃ : CrosschainOperation} (h : OperationEvolves r₁ r₂)
    (h' : OperationEvolves r₂ r₃) : OperationEvolves r₁ r₃ :=
  ⟨h'.attemptId.trans h.attemptId, fun m => h'.message (h.message m)⟩

theorem RelayOp.Step.evolves {o : RelayOp} {r r' : CrosschainOperation} (h : o.Step r r') :
    OperationEvolves r r' := by
  rcases h with rfl | h
  · exact .rfl r'
  · cases o with
    | upsertCrosschainOperation input timestamp =>
      obtain ⟨-, rfl⟩ := h
      refine ⟨rfl, fun m => ?_⟩
      obtain ⟨v, hv⟩ := Option.isSome_iff_exists.1 m
      simp [BurnEvidence.complete, hv]
    | updateCrosschainOperation operation fields now =>
      obtain ⟨-, rfl⟩ := h
      refine ⟨rfl, fun m => ?_⟩
      cases hm : fields.message <;> simp [OperationFields.apply, hm, m]
    | recordCrosschainMintPrepared operation mint timestamp =>
      obtain ⟨-, rfl⟩ := h
      exact ⟨rfl, id⟩
    | recordCrosschainMintBroadcast operation txHash timestamp =>
      obtain ⟨-, rfl⟩ := h
      exact ⟨rfl, id⟩
    | clearRevertedCrosschainMint operation txHash now =>
      obtain ⟨-, rfl⟩ := h
      exact ⟨rfl, id⟩
    | _ => exact h.elim

/-- Two rows of one operation are one row. -/
theorem operation_eq {t : Table CrosschainOperation} {r r' : CrosschainOperation} (hr : r ∈ t)
    (hr' : r' ∈ t) (h : r.attemptId = r'.attemptId) : r = r' :=
  Table.eq_of_clash hr hr' (beq_iff_eq.2 h)

end ParmeliaLinks.Payments
