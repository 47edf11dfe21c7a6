/-
ParmeliaLinks/Server/HomeState.lean

What the home screen of a user is made of, and the version of it.  The screen is read from six
tables at once; triggers on the tables raise the version of a user when one of the rows changes,
and a client that holds the version of its screen is not sent the screen again.

The writes are the statements of the modules that write these tables, each with the triggers
that it fires.
-/
import ParmeliaLinks.Lib.Keyset
import ParmeliaLinks.Server.BalanceRefresh

namespace ParmeliaLinks.Server.Home

/-! ### The tables -/

/-- A row of `users`, as far as the screen shows it or a key asks for it. -/
structure UserRow where
  uid : Uid
  walletAddress : Option Address
  username : Option Text
  displayName : Option Text
  socialUrl : Option Text
  credentialId : Option Text
  deriving DecidableEq

inductive Direction | incoming | outgoing
  deriving DecidableEq

structure LedgerRow where
  id : Text
  uid : Uid
  direction : Direction
  kind : Text
  txHash : TxHash
  logIndex : Option Nat
  token : Text
  amount : Text
  amountSource : Text
  chainId : Option ChainId
  blockNumber : Option BlockNumber
  blockHash : Option BlockHash
  counterparty : Option Address
  counterpartyUid : Option Uid
  reference : Option Text
  createdAt : Time
  canonical : Bool
  deriving DecidableEq

inductive PaymentStatus | prepared | submitting | submitted | confirmed | failed
  deriving DecidableEq

structure PendingPayment where
  userOpHash : UserOpHash
  uid : Uid
  status : PaymentStatus
  currency : Text
  amount : Text
  createdAt : Time
  expiresAt : Time
  deriving DecidableEq

inductive OperationStatus | prepared | submitted | confirmed | failed | needsReview
  deriving DecidableEq

structure AccountOperation where
  id : Text
  uid : Uid
  chainId : ChainId
  kind : Text
  status : OperationStatus
  txHash : TxHash
  createdAt : Time
  updatedAt : Time
  deriving DecidableEq

structure Snapshot where
  uid : Uid
  accountAddress : Address
  chainId : ChainId
  asset : Asset
  balanceRaw : Nat
  decimals : Nat
  blockNumber : BlockNumber
  blockHash : BlockHash
  consistencyLevel : Text
  projectionVersion : Nat
  projected : Bool
  canonical : Bool
  deriving DecidableEq

/-- A request to read balances again, and when it was last written. -/
structure RefreshRow where
  request : BalanceRefreshRow
  updatedAt : Time
  deriving DecidableEq

instance : Row UserRow where
  clash r r' := r.uid == r'.uid
  clash_comm _ _ := Bool.beq_comm

/-- The columns of `idx_ledger_dedup`. -/
def LedgerRow.dedup (r : LedgerRow) : Uid × TxHash × Direction × Text × Option Nat :=
  (r.uid, r.txHash, r.direction, r.token, r.logIndex)

instance : Row LedgerRow where
  clash r r' := r.id == r'.id || r.dedup == r'.dedup
  clash_comm _ _ := congrArg₂ _ Bool.beq_comm Bool.beq_comm

instance : Row PendingPayment where
  clash r r' := r.userOpHash == r'.userOpHash
  clash_comm _ _ := Bool.beq_comm

/-- The operation is on the screen. -/
def AccountOperation.active (r : AccountOperation) : Bool :=
  r.status == .prepared || r.status == .submitted || r.status == .needsReview

/-- The columns of the index of active operations. -/
def AccountOperation.slot (r : AccountOperation) : Uid × Text × ChainId :=
  (r.uid, r.kind, r.chainId)

instance : Row AccountOperation where
  clash r r' := r.id == r'.id || r.txHash == r'.txHash ||
    (r.slot == r'.slot && (r.active && r'.active))
  clash_comm r r' :=
    congrArg₂ _ (congrArg₂ _ Bool.beq_comm Bool.beq_comm)
      (congrArg₂ _ Bool.beq_comm (Bool.and_comm r.active r'.active))

/-- The primary key. -/
def Snapshot.key (r : Snapshot) : ChainId × Address × Asset :=
  (r.chainId, r.accountAddress, r.asset)

instance : Row Snapshot where
  clash r r' := r.key == r'.key
  clash_comm _ _ := Bool.beq_comm

instance : Row RefreshRow where
  clash r r' := Row.clash r.request r'.request
  clash_comm r r' := Row.clash_comm r.request r'.request

/-- The database, with the time of the clock. -/
structure Db where
  now : Time
  users : Table UserRow
  ledger : Table LedgerRow
  pending : Table PendingPayment
  operations : Table AccountOperation
  snapshots : Table Snapshot
  refresh : Table RefreshRow
  versions : Uid → Option Nat

def Db.empty : Db where
  now := 0
  users := .empty
  ledger := .empty
  pending := .empty
  operations := .empty
  snapshots := .empty
  refresh := .empty
  versions := fun _ => none

def Db.user (db : Db) (uid : Uid) : Option UserRow := db.users.find? (·.uid == uid)

/-- What a foreign key asks for. -/
def Db.hasUser (db : Db) (uid : Uid) : Bool := db.users.any (·.uid == uid)

/-! ### The screen -/

/-- The chain of the screen, and the assets that it lists. -/
structure Network where
  chainId : ChainId
  assets : List Asset

structure ShownBalance where
  raw : Nat
  decimals : Nat
  blockNumber : BlockNumber
  blockHash : BlockHash
  consistencyLevel : Text
  projectionVersion : Nat
  deriving DecidableEq

structure ActivityEntry where
  id : Text
  direction : Direction
  kind : Text
  txHash : TxHash
  currency : Text
  amount : Text
  amountSource : Text
  chainId : Option ChainId
  counterparty : Option Address
  counterpartyUsername : Option Text
  counterpartyDisplayName : Option Text
  reference : Option Text
  createdAt : Time
  deriving DecidableEq

structure ShownPayment where
  userOpHash : UserOpHash
  status : PaymentStatus
  currency : Text
  amount : Text
  createdAt : Time
  deriving DecidableEq

structure ShownOperation where
  id : Text
  kind : Text
  status : OperationStatus
  txHash : TxHash
  createdAt : Time
  updatedAt : Time
  deriving DecidableEq

/-- `HomeReadModel` without what depends on the age of a row or on the checkpoints of the streams:
freshness, the times of observation, the blocks that the streams have reached. -/
structure HomeModel where
  username : Option Text
  displayName : Option Text
  socialUrl : Option Text
  walletAddress : Option Address
  hasRegisteredPasskey : Bool
  balances : List (Asset × Option ShownBalance)
  refreshing : Bool
  sent : List ActivityEntry
  received : List ActivityEntry
  payments : List ShownPayment
  account : List ShownOperation
  deriving DecidableEq

def Snapshot.shown (r : Snapshot) : ShownBalance where
  raw := r.balanceRaw
  decimals := r.decimals
  blockNumber := r.blockNumber
  blockHash := r.blockHash
  consistencyLevel := r.consistencyLevel
  projectionVersion := r.projectionVersion

def PendingPayment.shown (r : PendingPayment) : ShownPayment where
  userOpHash := r.userOpHash
  status := r.status
  currency := r.currency
  amount := r.amount
  createdAt := r.createdAt

def AccountOperation.shown (r : AccountOperation) : ShownOperation where
  id := r.id
  kind := r.kind
  status := r.status
  txHash := r.txHash
  createdAt := r.createdAt
  updatedAt := r.updatedAt

/-- A row of the activity, with the names of the user on the other side. -/
def LedgerRow.entry (r : LedgerRow) (counterpartyUser : Option UserRow) : ActivityEntry where
  id := r.id
  direction := r.direction
  kind := r.kind
  txHash := r.txHash
  currency := r.token
  amount := r.amount
  amountSource := r.amountSource
  chainId := r.chainId
  counterparty := r.counterparty
  counterpartyUsername := counterpartyUser.bind (·.username)
  counterpartyDisplayName := counterpartyUser.bind (·.displayName)
  reference := r.reference
  createdAt := r.createdAt

/-- The payment is open: it was sent, or it can still be signed at the time. -/
def PendingPayment.live (r : PendingPayment) (t : Time) : Bool :=
  r.status == .submitting || r.status == .submitted || (r.status == .prepared && t < r.expiresAt)

/-- The request is waiting or being served. -/
def RefreshRow.inFlight (r : RefreshRow) : Bool :=
  r.request.status == .pending || r.request.status == .processing

section

variable (network : Network) (uid : Uid) (db : Db)

/-- The canonical balances of the user on the chain of the screen. -/
def snapshotRows : List Snapshot :=
  db.snapshots.filter fun r => r.uid == uid && r.chainId == network.chainId && r.canonical

/-- The ten newest canonical movements of the user. -/
def activityRows : List LedgerRow :=
  (Keyset.ordered (·.createdAt) (db.ledger.filter fun r => r.uid == uid && r.canonical)).take 10

def activityEntries : List ActivityEntry :=
  (activityRows uid db).map fun r => r.entry (r.counterpartyUid.bind db.user)

/-- The requests of the user on the chain of the screen. -/
def refreshRows : List RefreshRow :=
  db.refresh.filter fun r => r.request.uid == uid && r.request.chainId == network.chainId

/-- `readHomeModel` at a time of the clock. -/
def readHomeModel (t : Time) : HomeModel where
  username := (db.user uid).bind (·.username)
  displayName := (db.user uid).bind (·.displayName)
  socialUrl := (db.user uid).bind (·.socialUrl)
  walletAddress := (db.user uid).bind (·.walletAddress)
  hasRegisteredPasskey := ((db.user uid).bind (·.credentialId)).any (· ≠ [])
  balances := network.assets.map fun asset => (asset,
    (((snapshotRows network uid db).filter (·.asset == asset)).getLast?).map (·.shown))
  refreshing := (Keyset.ordered (·.updatedAt) (refreshRows network uid db)).head?.any (·.inFlight)
  sent := (activityEntries uid db).filter (·.direction == .outgoing)
  received := (activityEntries uid db).filter (·.direction == .incoming)
  payments := ((Keyset.ordered (·.createdAt)
    (db.pending.filter fun r => r.uid == uid && r.live t)).take 10).map (·.shown)
  account := ((Keyset.ordered (·.updatedAt)
    (db.operations.filter fun r => r.uid == uid && r.active)).take 10).map (·.shown)

/-- The version of the screen; a user without a row of `home_state_versions` has the first. -/
def homeVersion : Nat := (db.versions uid).getD 1

end

/-- The opaque text that is made of the first sixteen bytes of a SHA-256: no two texts of versions
have the same. -/
structure Digest where
  digest : Text → Text
  injective : ∀ t u, digest t = digest u → t = u

/-- The statement of the triggers: the version goes up, or the first one is stored. -/
def raised (versions : Uid → Option Nat) (uid : Uid) : Uid → Option Nat := fun u =>
  if u = uid then some ((versions u).elim 1 (· + 1)) else versions u

/-- The triggers of a statement, one for each row that it wrote. -/
def Db.fire (db : Db) (uids : List Uid) : Db := { db with versions := uids.foldl raised db.versions }

/-- The users of the rows that an update leaves, where a trigger watches the change. -/
def firedBy {ρ : Type} [Row ρ] (t : Table ρ) (owner : ρ → Uid) (p : ρ → Bool) (f : ρ → ρ)
    (watched : ρ → ρ → Bool) : List Uid :=
  (t.rows.filter fun r => p r && watched r (f r)).map fun r => owner (f r)

/-- `trg_home_state_ledger_update`. -/
def LedgerRow.watched (old new : LedgerRow) : Bool :=
  old.canonical != new.canonical || old.blockHash != new.blockHash ||
    old.blockNumber != new.blockNumber || old.amount != new.amount

/-- `trg_home_state_balance_update`. -/
def Snapshot.watched (old new : Snapshot) : Bool :=
  old.balanceRaw != new.balanceRaw || old.blockNumber != new.blockNumber ||
    old.blockHash != new.blockHash || old.consistencyLevel != new.consistencyLevel ||
    old.projectionVersion != new.projectionVersion || old.canonical != new.canonical

/-! ### The statements -/

section

variable (db : Db)

/-! #### Users -/

/-- An update of the row of one user; `trg_home_state_user_update` watches every column. -/
def Db.updateUser (uid : Uid) (p : UserRow → Bool) (f : UserRow → UserRow)
    (hf : Table.KeepsKeys f) : Db :=
  { db with users := db.users.modify (fun r => r.uid == uid && p r) f hf }.fire
    (firedBy db.users UserRow.uid (fun r => r.uid == uid && p r) f fun _ _ => true)

/-- Another user has the name or the wallet. -/
def Db.taken (uid : Uid) (walletAddress : Option Address) (username : Option Text) : Bool :=
  db.users.any fun r => r.uid != uid &&
    (sameValue r.walletAddress walletAddress || sameValue r.username username)

/-- `saveUser`: what is not given stays. -/
def Db.saveUser (uid : Uid) (walletAddress : Option Address)
    (username credentialId : Option Text) : Db :=
  if db.taken uid walletAddress username then db
  else if db.hasUser uid then
    db.updateUser uid (fun _ => true) (fun r => { r with
      walletAddress := walletAddress.or r.walletAddress
      username := username.or r.username, credentialId := credentialId.or r.credentialId })
      ⟨fun _ _ => rfl⟩
  else
    { db with
      users := db.users.insertOrIgnore ⟨uid, walletAddress, username, none, none, credentialId⟩
      versions := fun u => if u = uid then (db.versions u).or (some 1) else db.versions u }

def Db.updateProfileFields (uid : Uid) (displayName socialUrl : Option Text) : Db :=
  db.updateUser uid (fun _ => true) (fun r => { r with displayName, socialUrl }) ⟨fun _ _ => rfl⟩

/-- The passkey that was used last. -/
def Db.markPasskeyVerified (uid : Uid) (credentialId : Text) : Db :=
  db.updateUser uid (fun _ => true) (fun r => { r with credentialId := some credentialId })
    ⟨fun _ _ => rfl⟩

/-- A passkey that is left, in the place of the removed one. -/
def Db.repairPasskeyHintAfterRemoval (uid : Uid) (removed : Text) (remaining : Option Text) : Db :=
  db.updateUser uid (·.credentialId == some removed)
    (fun r => { r with credentialId := remaining }) ⟨fun _ _ => rfl⟩

/-- The updates of other columns: the faucet, the referral code, the inviter. -/
def Db.touchUser (uid : Uid) : Db := db.updateUser uid (fun _ => true) id ⟨fun _ _ => rfl⟩

/-! #### The ledger -/

/-- What an entry of a block sets on a row that a reorganisation took out. -/
def LedgerRow.restored (e r : LedgerRow) : LedgerRow :=
  { r with
    amount := e.amount, amountSource := e.amountSource, chainId := e.chainId
    blockNumber := e.blockNumber, blockHash := e.blockHash, counterparty := e.counterparty
    counterpartyUid := e.counterpartyUid, reference := e.reference, createdAt := e.createdAt
    canonical := true }

def Db.updateLedger (p : LedgerRow → Bool) (f : LedgerRow → LedgerRow) (hf : Table.KeepsKeys f) :
    Db :=
  { db with ledger := db.ledger.modify p f hf }.fire
    (firedBy db.ledger LedgerRow.uid p f LedgerRow.watched)

/-- A statement of `writeLedgerEntries`. -/
def Db.writeLedgerEntry (e : LedgerRow) : Db :=
  if db.hasUser e.uid then
    match db.ledger.find? (Row.clash · e) with
    | none =>
      { db with ledger := db.ledger.insertOrIgnore { e with canonical := true } }.fire [e.uid]
    | some row =>
      db.updateLedger (fun r => r.id == row.id && !r.canonical && e.blockHash.isSome) e.restored
        ⟨fun _ _ => rfl⟩
  else db

/-- The blocks behind the common ancestor are not canonical any more. -/
def Db.revertLedger (chainId : ChainId) (ancestor : BlockNumber) : Db :=
  db.updateLedger
    (fun r => r.chainId == some chainId && r.canonical && r.blockNumber.any (ancestor < ·))
    (fun r => { r with canonical := false }) ⟨fun _ _ => rfl⟩

/-! #### Payments -/

/-- An update of one payment; `trg_home_state_pending_update` watches every column. -/
def Db.updatePayment (userOpHash : UserOpHash) (p : PendingPayment → Bool)
    (f : PendingPayment → PendingPayment) (hf : Table.KeepsKeys f) : Db :=
  { db with pending := db.pending.modify (fun r => r.userOpHash == userOpHash && p r) f hf }.fire
    (firedBy db.pending PendingPayment.uid (fun r => r.userOpHash == userOpHash && p r) f
      fun _ _ => true)

/-- The upsert of `createPendingPayment`. -/
def Db.createPendingPayment (payment : PendingPayment) : Db :=
  if db.hasUser payment.uid then
    if db.pending.any (·.userOpHash == payment.userOpHash) then
      db.updatePayment payment.userOpHash (fun _ => true)
        (fun r => { payment with userOpHash := r.userOpHash, status := .prepared })
        ⟨fun _ _ => rfl⟩
    else
      { db with pending := db.pending.insertOrIgnore { payment with status := .prepared } }.fire
        [payment.uid]
  else db

def Db.claimPendingForSubmit (userOpHash : UserOpHash) : Db :=
  db.updatePayment userOpHash (·.status == .prepared)
    (fun r => { r with status := .submitting }) ⟨fun _ _ => rfl⟩

def Db.releasePendingClaim (userOpHash : UserOpHash) : Db :=
  db.updatePayment userOpHash (·.status == .submitting)
    (fun r => { r with status := .prepared }) ⟨fun _ _ => rfl⟩

def Db.setPendingPaymentStatus (userOpHash : UserOpHash) (status : PaymentStatus) : Db :=
  db.updatePayment userOpHash (fun _ => true) (fun r => { r with status }) ⟨fun _ _ => rfl⟩

def Db.setPendingPaymentSubmitted (userOpHash : UserOpHash) : Db :=
  db.updatePayment userOpHash (fun r => r.status == .submitting || r.status == .submitted)
    (fun r => { r with status := .submitted }) ⟨fun _ _ => rfl⟩

/-- The payments that were never signed in time. -/
def Db.sweepExpiredPayments : Db :=
  { db with pending := db.pending.delete fun r => r.status == .prepared && r.expiresAt ≤ db.now }

/-- And with them those that ended long enough ago. -/
def Db.sweepTerminalPendingPayments : Db :=
  { db with
    pending := db.pending.delete fun r => (r.status == .prepared && r.expiresAt ≤ db.now) ||
      ((r.status == .confirmed || r.status == .failed) && r.expiresAt + 3000000 ≤ db.now) }

def Db.deletePendingPayment (userOpHash : UserOpHash) : Db :=
  { db with pending := db.pending.delete (·.userOpHash == userOpHash) }

/-! #### Operations of the server -/

/-- The triggers on `account_operations` look whether the user has a row. -/
def Db.fireOperations (uids : List Uid) : Db := db.fire (uids.filter db.hasUser)

/-- The operation is under way. -/
def AccountOperation.underWay (r : AccountOperation) : Bool :=
  r.status == .prepared || r.status == .submitted

def AccountOperation.moved (status : OperationStatus → OperationStatus) (now : Time)
    (r : AccountOperation) : AccountOperation :=
  if r.underWay then { r with status := status r.status, updatedAt := now } else r

/-- An operation that goes on gives up its slot or keeps it. -/
theorem freesKeys_moved (status : OperationStatus → OperationStatus) (now : Time) :
    Table.FreesKeys (AccountOperation.moved status now) := by
  constructor
  intro r r' clash
  unfold AccountOperation.moved at clash
  split at clash
  · rename_i underWay
    have active : r.active = true := by
      simp only [AccountOperation.underWay, Bool.or_eq_true, beq_iff_eq] at underWay
      rcases underWay with h | h
      · rw [AccountOperation.active, h]
        rfl
      · rw [AccountOperation.active, h]
        rfl
    simp only [Row.clash, AccountOperation.slot, Bool.or_eq_true, Bool.and_eq_true] at clash ⊢
    rcases clash with keys | slot
    · exact .inl keys
    · exact .inr ⟨slot.1, active, slot.2.2⟩
  · exact clash

/-- An update of one operation that is under way. -/
def Db.moveOperation (id : Text) (p : AccountOperation → Bool)
    (status : OperationStatus → OperationStatus) : Db :=
  { db with
    operations := db.operations.release (fun r => r.id == id && (r.underWay && p r))
      (AccountOperation.moved status db.now) (freesKeys_moved status db.now) }.fireOperations
    (firedBy db.operations AccountOperation.uid (fun r => r.id == id && (r.underWay && p r))
      (AccountOperation.moved status db.now) fun _ _ => true)

/-- The row of a new operation. -/
def AccountOperation.prepared (operation : AccountOperation) : AccountOperation :=
  { operation with status := .prepared, updatedAt := operation.createdAt }

def Db.createAccountOperation (operation : AccountOperation) : Db :=
  if db.operations.Fits operation.prepared then
    { db with operations := db.operations.insertOrIgnore operation.prepared }.fireOperations
      [operation.uid]
  else db

def Db.markAccountOperationSubmitted (id : Text) : Db :=
  db.moveOperation id (·.status == .prepared) fun _ => .submitted

def Db.recordAccountOperationAttempt (id : Text) : Db :=
  db.moveOperation id (fun _ => true) fun status => status

def Db.finishAccountOperation (id : Text) (status : OperationStatus) : Db :=
  db.moveOperation id (fun _ => true) fun _ => status

def Db.sweepAccountOperations : Db :=
  { db with
    operations := db.operations.delete fun r =>
      (r.status == .confirmed || r.status == .failed) && r.updatedAt + 604800000 ≤ db.now }

/-! #### Balances -/

def Db.updateSnapshots (p : Snapshot → Bool) (f : Snapshot → Snapshot) (hf : Table.KeepsKeys f) :
    Db :=
  { db with snapshots := db.snapshots.modify p f hf }.fire
    (firedBy db.snapshots Snapshot.uid p f Snapshot.watched)

/-- What a reading over RPC puts in the place of the row. -/
def Snapshot.replacing (s r : Snapshot) : Snapshot :=
  { s with
    chainId := r.chainId, accountAddress := r.accountAddress, asset := r.asset
    canonical := true }

/-- The reading is of a later block, or the row is not canonical. -/
def Snapshot.overtakes (s r : Snapshot) : Bool :=
  !r.canonical || r.blockNumber < s.blockNumber ||
    (s.blockNumber == r.blockNumber && s.blockHash == r.blockHash)

/-- A statement of `upsertBalanceSnapshots`. -/
def Db.upsertBalanceSnapshot (s : Snapshot) : Db :=
  if db.hasUser s.uid then
    if db.snapshots.any (·.key == s.key) then
      db.updateSnapshots (fun r => r.key == s.key && s.overtakes r) s.replacing ⟨fun _ _ => rfl⟩
    else
      { db with snapshots := db.snapshots.insertOrIgnore { s with canonical := true } }.fire [s.uid]
  else db

/-- The refresh of the projector; `s` holds the projected balance and the evidence of its block. -/
def Db.projectSnapshot (s : Snapshot) : Db :=
  db.updateSnapshots
    (fun r => r.key == s.key && r.canonical && (r.blockNumber < s.blockNumber ||
      (r.blockNumber == s.blockNumber && r.blockHash == s.blockHash && r.projected)))
    (fun r => { r with
      balanceRaw := s.balanceRaw, blockNumber := s.blockNumber, blockHash := s.blockHash
      consistencyLevel := s.consistencyLevel, projectionVersion := s.projectionVersion
      projected := true, canonical := true })
    ⟨fun _ _ => rfl⟩

def Db.revertSnapshots (chainId : ChainId) (ancestor : BlockNumber) : Db :=
  db.updateSnapshots
    (fun r => r.chainId == chainId && r.canonical && ancestor < r.blockNumber)
    (fun r => { r with canonical := false }) ⟨fun _ _ => rfl⟩

/-! #### Requests to read balances again; no trigger watches them -/

/-- What a request makes of the row that there is for the wallet. -/
def reopenedRow (input : BalanceRefreshInput) (now : Time) (r : RefreshRow) : RefreshRow :=
  if r.request.reopens input now then ⟨r.request.reopened input now, now⟩ else r

theorem keepsKeys_reopenedRow (input : BalanceRefreshInput) (now : Time) :
    Table.KeepsKeys (reopenedRow input now) := by
  constructor
  intro r r'
  unfold reopenedRow
  split <;> rfl

def Db.requestRefresh (input : BalanceRefreshInput) : Db :=
  if db.hasUser input.uid then
    { db with
      refresh := db.refresh.upsert ⟨input.row db.now, db.now⟩ (reopenedRow input db.now)
        (keepsKeys_reopenedRow input db.now) }
  else db

/-- An update of the row of one wallet. -/
def Db.updateRefresh (chainId : ChainId) (account : Address) (p : RefreshRow → Bool)
    (f : RefreshRow → RefreshRow) (hf : Table.KeepsKeys f) : Db :=
  { db with
    refresh := db.refresh.modify (fun r => r.request.chainId == chainId &&
      r.request.accountAddress == account && p r) f hf }

/-- The request waits to be served, again, or its lease has run out. -/
def RefreshRow.claimable (r : RefreshRow) (now : Time) : Bool :=
  r.request.status == .pending || r.request.status == .failed || r.request.expired now

def RefreshRow.heldBy (r : RefreshRow) (owner : Nat) : Bool :=
  r.request.status == .processing && r.request.leaseOwner == some owner

def Db.claimRefresh (chainId : ChainId) (account : Address) (owner leaseMs : Nat) : Db :=
  db.updateRefresh chainId account (·.claimable db.now)
    (fun r =>
      ⟨{ r.request with
          status := .processing, leaseOwner := some owner
          leaseExpiresAt := some (db.now + leaseMs)
          attemptCount := r.request.attemptCount + 1 }, db.now⟩)
    ⟨fun _ _ => rfl⟩

def Db.finishRefresh (chainId : ChainId) (account : Address) (owner : Nat)
    (errorCode : Option String) : Db :=
  db.updateRefresh chainId account (·.heldBy owner)
    (fun r =>
      ⟨{ r.request with
          status := if errorCode.isSome then .failed else .completed
          leaseOwner := none, leaseExpiresAt := none, lastErrorCode := errorCode }, db.now⟩)
    ⟨fun _ _ => rfl⟩

/-! #### Accounts on other chains -/

/-- A row of `user_chain_accounts` is written; the screen does not read the table. -/
def Db.writeChainAccount (uid : Uid) : Db := if db.hasUser uid then db.fire [uid] else db

end

/-! ### Writes -/

inductive Write
  | saveUser (uid : Uid) (walletAddress : Option Address) (username credentialId : Option Text)
  | updateProfileFields (uid : Uid) (displayName socialUrl : Option Text)
  | markPasskeyVerified (uid : Uid) (credentialId : Text)
  | repairPasskeyHintAfterRemoval (uid : Uid) (removed : Text) (remaining : Option Text)
  | touchUser (uid : Uid)
  | writeLedgerEntry (e : LedgerRow)
  | revertLedger (chainId : ChainId) (ancestor : BlockNumber)
  | createPendingPayment (payment : PendingPayment)
  | claimPendingForSubmit (userOpHash : UserOpHash)
  | releasePendingClaim (userOpHash : UserOpHash)
  | setPendingPaymentStatus (userOpHash : UserOpHash) (status : PaymentStatus)
  | setPendingPaymentSubmitted (userOpHash : UserOpHash)
  | sweepExpiredPayments
  | sweepTerminalPendingPayments
  | deletePendingPayment (userOpHash : UserOpHash)
  | createAccountOperation (operation : AccountOperation)
  | markAccountOperationSubmitted (id : Text)
  | recordAccountOperationAttempt (id : Text)
  | finishAccountOperation (id : Text) (status : OperationStatus)
  | sweepAccountOperations
  | upsertBalanceSnapshot (s : Snapshot)
  | projectSnapshot (s : Snapshot)
  | revertSnapshots (chainId : ChainId) (ancestor : BlockNumber)
  | requestRefresh (input : BalanceRefreshInput)
  | claimRefresh (chainId : ChainId) (account : Address) (owner leaseMs : Nat)
  | finishRefresh (chainId : ChainId) (account : Address) (owner : Nat)
      (errorCode : Option String)
  | writeChainAccount (uid : Uid)
  | wait (d : Nat)

def Db.write (db : Db) : Write → Db
  | .saveUser uid walletAddress username credentialId =>
    db.saveUser uid walletAddress username credentialId
  | .updateProfileFields uid displayName socialUrl =>
    db.updateProfileFields uid displayName socialUrl
  | .markPasskeyVerified uid credentialId => db.markPasskeyVerified uid credentialId
  | .repairPasskeyHintAfterRemoval uid removed remaining =>
    db.repairPasskeyHintAfterRemoval uid removed remaining
  | .touchUser uid => db.touchUser uid
  | .writeLedgerEntry e => db.writeLedgerEntry e
  | .revertLedger chainId ancestor => db.revertLedger chainId ancestor
  | .createPendingPayment payment => db.createPendingPayment payment
  | .claimPendingForSubmit userOpHash => db.claimPendingForSubmit userOpHash
  | .releasePendingClaim userOpHash => db.releasePendingClaim userOpHash
  | .setPendingPaymentStatus userOpHash status => db.setPendingPaymentStatus userOpHash status
  | .setPendingPaymentSubmitted userOpHash => db.setPendingPaymentSubmitted userOpHash
  | .sweepExpiredPayments => db.sweepExpiredPayments
  | .sweepTerminalPendingPayments => db.sweepTerminalPendingPayments
  | .deletePendingPayment userOpHash => db.deletePendingPayment userOpHash
  | .createAccountOperation operation => db.createAccountOperation operation
  | .markAccountOperationSubmitted id => db.markAccountOperationSubmitted id
  | .recordAccountOperationAttempt id => db.recordAccountOperationAttempt id
  | .finishAccountOperation id status => db.finishAccountOperation id status
  | .sweepAccountOperations => db.sweepAccountOperations
  | .upsertBalanceSnapshot s => db.upsertBalanceSnapshot s
  | .projectSnapshot s => db.projectSnapshot s
  | .revertSnapshots chainId ancestor => db.revertSnapshots chainId ancestor
  | .requestRefresh input => db.requestRefresh input
  | .claimRefresh chainId account owner leaseMs => db.claimRefresh chainId account owner leaseMs
  | .finishRefresh chainId account owner errorCode =>
    db.finishRefresh chainId account owner errorCode
  | .writeChainAccount uid => db.writeChainAccount uid
  | .wait d => { db with now := db.now + d }

def Db.run (db : Db) (writes : List Write) : Db := writes.foldl Db.write db

/-- A database that the writes have made. -/
inductive Reachable : Db → Prop
  | empty : Reachable .empty
  | write {db : Db} (h : Reachable db) (w : Write) : Reachable (db.write w)

end ParmeliaLinks.Server.Home
