/-
ParmeliaLinks/Server/HomeVersion.lean

When the version of a home screen goes up with the screen.  The triggers raise the version of the
user whose row is written; they do not look at the requests to read balances again, nor at rows
that leave a user or disappear, nor at the screens that show a name of the user.

`Watched` says of a write that it is none of these.  After writes that are watched, a screen that
has changed has a higher version, and an equal tag stands for an equal screen
(`homeVersion_complete`).  Others change a screen under its version, among them a request to read
balances again and a new name of the other side (`screen_changes_under_version`).
-/
import ParmeliaLinks.Server.HomeState

namespace ParmeliaLinks.Server.Home

/-! ### Versions -/

section

variable {db db' : Db} {uid : Uid}

theorem raised_isSome {versions : Uid → Option Nat} (h : (versions uid).isSome = true) (u : Uid) :
    (raised versions u uid).isSome = true := by
  unfold raised
  split
  · rfl
  · exact h

theorem foldl_raised_isSome {versions : Uid → Option Nat} (h : (versions uid).isSome = true)
    (uids : List Uid) : (uids.foldl raised versions uid).isSome = true := by
  induction uids generalizing versions with
  | nil => exact h
  | cons u uids ih => exact ih (raised_isSome h u)

end

/-- A step from one database to another leaves no screen behind its version: the version does not
go down, and where it stays the screen does. -/
structure Covered (network : Network) (uid : Uid) (db db' : Db) : Prop where
  le : homeVersion uid db ≤ homeVersion uid db'
  same : homeVersion uid db = homeVersion uid db' → ∀ t, db.now ≤ t →
    readHomeModel network uid db' t = readHomeModel network uid db t

section

variable {network : Network} {uid : Uid} {db db₁ : Db}

theorem Covered.rfl : Covered network uid db db := ⟨le_refl _, fun _ _ _ => Eq.refl _⟩

end

/-! ### What a screen depends on -/

/-- Whether balances are being read again, by the newest request. -/
def refreshing (network : Network) (uid : Uid) (db : Db) : Bool :=
  (Keyset.ordered (·.updatedAt) (refreshRows network uid db)).head?.any (·.inFlight)

section

variable {network : Network} {uid : Uid} {db db' : Db}

end

/-! ### The statements with triggers -/

section

variable {ρ : Type} [Row ρ] {t : Table ρ} {owner : ρ → Uid} {p : ρ → Bool} {f : ρ → ρ}
  {watched : ρ → ρ → Bool} {uid : Uid}

end

/-- The row of a user after an update of one user. -/
theorem user_updateUser {db : Db} {u : Uid} {p : UserRow → Bool} {f : UserRow → UserRow}
    {hf : Table.KeepsKeys f} (keeps : ∀ r, (f r).uid = r.uid) (v : Uid) :
    (db.updateUser u p f hf).user v =
      (db.user v).map fun r => if r.uid == u && p r then f r else r := by
  refine @Table.find?_modify UserRow _ db.users _ _ f hf fun r => ?_
  rw [keeps]

section

variable {network : Network} {uid : Uid} {db : Db} (known : (db.versions uid).isSome = true)

include known

end

/-! ### Writes that are watched -/

section

variable (network : Network) (uid : Uid) (db : Db)

/-- The user is on the other side of one of the movements on the screen. -/
def Counterparty (u : Uid) : Prop := ∃ r ∈ activityRows uid db, r.counterpartyUid = some u

instance (u : Uid) : Decidable (Counterparty uid db u) :=
  inferInstanceAs (Decidable (∃ r ∈ activityRows uid db, r.counterpartyUid = some u))

/-- No open payment of the user has the hash. -/
def NotOpen (userOpHash : UserOpHash) : Prop :=
  ∀ r ∈ db.pending, r.userOpHash = userOpHash → r.uid = uid → r.live db.now = false

instance (userOpHash : UserOpHash) : Decidable (NotOpen uid db userOpHash) :=
  inferInstanceAs (Decidable (∀ r ∈ db.pending, r.userOpHash = userOpHash → r.uid = uid →
    r.live db.now = false))

/-- A balance of the user stays with the user, and its decimals stay or the trigger sees the
reading; and it sees a reading that brings the user another's balance. -/
def KeepsOwner (s : Snapshot) : Prop :=
  ∀ r ∈ db.snapshots, (r.key == s.key && s.overtakes r) = true →
    (r.canonical = true → r.uid = uid →
      s.uid = uid ∧ (s.decimals = r.decimals ∨ Snapshot.watched r (s.replacing r) = true)) ∧
    (r.uid ≠ uid → s.uid = uid → Snapshot.watched r (s.replacing r) = true)

instance (s : Snapshot) : Decidable (KeepsOwner uid db s) :=
  inferInstanceAs (Decidable (∀ r ∈ db.snapshots, (r.key == s.key && s.overtakes r) = true →
    (r.canonical = true → r.uid = uid →
      s.uid = uid ∧ (s.decimals = r.decimals ∨ Snapshot.watched r (s.replacing r) = true)) ∧
    (r.uid ≠ uid → s.uid = uid → Snapshot.watched r (s.replacing r) = true)))

/-- The requests of the user for the chain of the screen: all in flight, and at least one. -/
def AllInFlight : Prop :=
  refreshRows network uid db ≠ [] ∧ ∀ r ∈ refreshRows network uid db, r.inFlight = true

instance : Decidable (AllInFlight network uid db) :=
  inferInstanceAs (Decidable (refreshRows network uid db ≠ [] ∧
    ∀ r ∈ refreshRows network uid db, r.inFlight = true))

def NoneInFlight : Prop := ∀ r ∈ refreshRows network uid db, r.inFlight = false

instance : Decidable (NoneInFlight network uid db) :=
  inferInstanceAs (Decidable (∀ r ∈ refreshRows network uid db, r.inFlight = false))

/-- A request for a wallet of the chain of the screen opens a row that there is, or a new one: the
user has only open ones if it becomes the user's, and none if it was. -/
def RequestKept (input : BalanceRefreshInput) : Prop :=
  (∃ r ∈ db.refresh, Row.clash r ⟨input.row db.now, db.now⟩ = true ∧
    r.request.reopens input db.now = false) ∨
  (input.uid = uid ∧ AllInFlight network uid db) ∨
  (input.uid ≠ uid ∧ (NoneInFlight network uid db ∨
    ∀ r ∈ db.refresh, Row.clash r ⟨input.row db.now, db.now⟩ = true → r.request.uid ≠ uid))

instance (input : BalanceRefreshInput) : Decidable (RequestKept network uid db input) :=
  inferInstanceAs (Decidable (_ ∨ _ ∨ _))

/-- The request for the wallet is not the user's, if it is one that the statement changes. -/
def NotOwn (chainId : ChainId) (account : Address) (p : RefreshRow → Bool) : Prop :=
  ∀ r ∈ db.refresh, r.request.chainId = chainId → r.request.accountAddress = account →
    p r = true → r.request.uid ≠ uid

instance (chainId : ChainId) (account : Address) (p : RefreshRow → Bool) :
    Decidable (NotOwn uid db chainId account p) :=
  inferInstanceAs (Decidable (∀ r ∈ db.refresh, r.request.chainId = chainId →
    r.request.accountAddress = account → p r = true → r.request.uid ≠ uid))

/-- The write is not one of those that the triggers do not see. -/
def Watched : Write → Prop
  | .saveUser u walletAddress username _ =>
    u = uid ∨ db.taken u walletAddress username = true ∨ username = none ∨
      (db.user u).bind (·.username) = username ∨ ¬ Counterparty uid db u
  | .updateProfileFields u displayName _ =>
    u = uid ∨ db.hasUser u = false ∨ (db.user u).bind (·.displayName) = displayName ∨
      ¬ Counterparty uid db u
  | .createPendingPayment payment =>
    payment.uid = uid ∨ db.hasUser payment.uid = false ∨ NotOpen uid db payment.userOpHash
  | .deletePendingPayment userOpHash => NotOpen uid db userOpHash
  | .upsertBalanceSnapshot s =>
    db.hasUser s.uid = false ∨ s.chainId ≠ network.chainId ∨ s.asset ∉ network.assets ∨
      KeepsOwner uid db s
  | .requestRefresh input =>
    db.hasUser input.uid = false ∨ input.chainId ≠ network.chainId ∨
      RequestKept network uid db input
  | .claimRefresh chainId account _ _ =>
    chainId ≠ network.chainId ∨ NotOwn uid db chainId account (·.claimable db.now) ∨
      AllInFlight network uid db
  | .finishRefresh chainId account owner _ =>
    chainId ≠ network.chainId ∨ NotOwn uid db chainId account (·.heldBy owner)
  | _ => True

end

/-! #### Insertions and deletions -/

section

variable {network : Network} {uid : Uid} {db : Db}

theorem hasUser_iff {u : Uid} : db.hasUser u = true ↔ ∃ r, db.user u = some r := by
  rw [Db.hasUser, Table.any, List.any_eq_true, ← List.find?_isSome, Option.isSome_iff_exists]
  exact Iff.rfl

variable (known : (db.versions uid).isSome = true)

include known

end

/-! #### Requests to read balances again -/

section

variable {network : Network} {uid : Uid} {db : Db}

end

/-! ### Every write -/

section

variable {network : Network} {uid : Uid} {db : Db}

variable (known : (db.versions uid).isSome = true) (own : db.hasUser uid = true)

include known own

end

/-! ### Runs -/

/-- The clock goes on, users and versions stay, and every new user has a version. -/
structure Grows (db db' : Db) : Prop where
  now : db.now ≤ db'.now
  versions : ∀ u, (db.versions u).isSome = true → (db'.versions u).isSome = true
  users : ∀ u, db.hasUser u = true → db'.hasUser u = true
  known : ∀ u, db'.hasUser u = true → db.hasUser u = true ∨ (db'.versions u).isSome = true

section

variable {db db₁ : Db}

theorem Grows.rfl : Grows db db := ⟨le_refl _, fun _ h => h, fun _ h => h, fun _ h => .inl h⟩

theorem grows_of_same (now : db.now ≤ db₁.now) (users : db₁.users = db.users)
    (versions : db₁.versions = db.versions) : Grows db db₁ := by
  refine ⟨now, fun u h => versions ▸ h, fun u h => ?_, fun u h => .inl ?_⟩
  · rw [Db.hasUser, users]
    exact h
  · rw [Db.hasUser, users] at h
    exact h

theorem Grows.fire (h : Grows db db₁) (uids : List Uid) : Grows db (db₁.fire uids) where
  now := h.now
  versions u known := foldl_raised_isSome (h.versions u known) uids
  users := h.users
  known u user := by
    rcases h.known u user with old | known
    · exact .inl old
    · exact .inr (foldl_raised_isSome known uids)

theorem grows_fire {uids : List Uid} (now : db₁.now = db.now) (users : db₁.users = db.users)
    (versions : db₁.versions = db.versions) : Grows db (db₁.fire uids) :=
  (grows_of_same (le_of_eq now.symm) users versions).fire uids

theorem grows_updateUser (u : Uid) (p : UserRow → Bool) (f : UserRow → UserRow)
    (hf : Table.KeepsKeys f) (keeps : ∀ r, (f r).uid = r.uid) :
    Grows db (db.updateUser u p f hf) := by
  have same (v : Uid) : (db.updateUser u p f hf).hasUser v = db.hasUser v := by
    rw [Bool.eq_iff_iff, hasUser_iff, hasUser_iff, user_updateUser keeps]
    cases db.user v with
    | none => simp
    | some r => simp
  refine ⟨le_refl _, fun v known => foldl_raised_isSome known _, fun v h => ?_,
    fun v h => .inl ?_⟩
  · rwa [same]
  · rwa [same] at h

theorem grows_saveUser (u : Uid) (walletAddress : Option Address)
    (username credentialId : Option Text) :
    Grows db (db.saveUser u walletAddress username credentialId) := by
  unfold Db.saveUser
  split
  · exact Grows.rfl
  · split
    · exact grows_updateUser u _ _ _ fun _ => Eq.refl _
    · refine ⟨le_refl _, fun v known => ?_, fun v h => ?_, fun v h => ?_⟩
      · dsimp only
        split
        · rw [Option.isSome_or, known]
          exact Bool.true_or _
        · exact known
      · obtain ⟨r, hr, same⟩ := Table.any_eq_true.1 h
        exact Table.any_eq_true.2 ⟨r, Table.mem_insertOrIgnore_of_mem hr, same⟩
      · obtain ⟨r, hr, same⟩ := Table.any_eq_true.1 h
        rcases Table.mem_or_eq_of_mem_insertOrIgnore hr with old | rfl
        · exact .inl (Table.any_eq_true.2 ⟨r, old, same⟩)
        · refine .inr ?_
          dsimp only
          rw [if_pos (beq_iff_eq.1 same).symm, Option.isSome_or]
          exact Bool.or_true _

theorem write_grows (w : Write) : Grows db (db.write w) := by
  cases w with
  | saveUser u walletAddress username credentialId => exact grows_saveUser _ _ _ _
  | updateProfileFields => exact grows_updateUser _ _ _ _ fun _ => Eq.refl _
  | markPasskeyVerified => exact grows_updateUser _ _ _ _ fun _ => Eq.refl _
  | repairPasskeyHintAfterRemoval => exact grows_updateUser _ _ _ _ fun _ => Eq.refl _
  | touchUser => exact grows_updateUser _ _ _ _ fun _ => Eq.refl _
  | writeLedgerEntry e =>
    show Grows db (db.writeLedgerEntry e)
    unfold Db.writeLedgerEntry
    split
    · split
      · exact grows_fire (Eq.refl _) (Eq.refl _) (Eq.refl _)
      · exact grows_fire (Eq.refl _) (Eq.refl _) (Eq.refl _)
    · exact Grows.rfl
  | revertLedger => exact grows_fire (Eq.refl _) (Eq.refl _) (Eq.refl _)
  | createPendingPayment payment =>
    show Grows db (db.createPendingPayment payment)
    unfold Db.createPendingPayment
    split
    · split
      · exact grows_fire (Eq.refl _) (Eq.refl _) (Eq.refl _)
      · exact grows_fire (Eq.refl _) (Eq.refl _) (Eq.refl _)
    · exact Grows.rfl
  | claimPendingForSubmit => exact grows_fire (Eq.refl _) (Eq.refl _) (Eq.refl _)
  | releasePendingClaim => exact grows_fire (Eq.refl _) (Eq.refl _) (Eq.refl _)
  | setPendingPaymentStatus => exact grows_fire (Eq.refl _) (Eq.refl _) (Eq.refl _)
  | setPendingPaymentSubmitted => exact grows_fire (Eq.refl _) (Eq.refl _) (Eq.refl _)
  | sweepExpiredPayments => exact grows_of_same (le_refl _) (Eq.refl _) (Eq.refl _)
  | sweepTerminalPendingPayments => exact grows_of_same (le_refl _) (Eq.refl _) (Eq.refl _)
  | deletePendingPayment => exact grows_of_same (le_refl _) (Eq.refl _) (Eq.refl _)
  | createAccountOperation operation =>
    show Grows db (db.createAccountOperation operation)
    unfold Db.createAccountOperation
    split
    · exact grows_fire (Eq.refl _) (Eq.refl _) (Eq.refl _)
    · exact Grows.rfl
  | markAccountOperationSubmitted => exact grows_fire (Eq.refl _) (Eq.refl _) (Eq.refl _)
  | recordAccountOperationAttempt => exact grows_fire (Eq.refl _) (Eq.refl _) (Eq.refl _)
  | finishAccountOperation => exact grows_fire (Eq.refl _) (Eq.refl _) (Eq.refl _)
  | sweepAccountOperations => exact grows_of_same (le_refl _) (Eq.refl _) (Eq.refl _)
  | upsertBalanceSnapshot s =>
    show Grows db (db.upsertBalanceSnapshot s)
    unfold Db.upsertBalanceSnapshot
    split
    · split
      · exact grows_fire (Eq.refl _) (Eq.refl _) (Eq.refl _)
      · exact grows_fire (Eq.refl _) (Eq.refl _) (Eq.refl _)
    · exact Grows.rfl
  | projectSnapshot => exact grows_fire (Eq.refl _) (Eq.refl _) (Eq.refl _)
  | revertSnapshots => exact grows_fire (Eq.refl _) (Eq.refl _) (Eq.refl _)
  | requestRefresh input =>
    show Grows db (db.requestRefresh input)
    unfold Db.requestRefresh
    split
    · exact grows_of_same (le_refl _) (Eq.refl _) (Eq.refl _)
    · exact Grows.rfl
  | claimRefresh => exact grows_of_same (le_refl _) (Eq.refl _) (Eq.refl _)
  | finishRefresh => exact grows_of_same (le_refl _) (Eq.refl _) (Eq.refl _)
  | writeChainAccount u =>
    show Grows db (if db.hasUser u then db.fire [u] else db)
    split
    · exact Grows.rfl.fire _
    · exact Grows.rfl
  | wait d => exact grows_of_same (Nat.le_add_right db.now d) (Eq.refl _) (Eq.refl _)

/-- In a database that the writes have made, every user has a version. -/
theorem Reachable.known {db : Db} (h : Reachable db) :
    ∀ u, db.hasUser u = true → (db.versions u).isSome = true := by
  induction h with
  | empty =>
    intro u user
    cases user
  | write h w ih =>
    intro u user
    rcases (write_grows w).known u user with old | known
    · exact (write_grows w).versions u (ih u old)
    · exact known

end

theorem Reachable.run {db : Db} (h : Reachable db) (writes : List Write) :
    Reachable (db.run writes) := by
  induction writes generalizing db with
  | nil => exact h
  | cons w writes ih => exact ih (h.write w)

def paid : LedgerRow where
  id := ['a']
  uid := 1
  direction := .incoming
  kind := []
  txHash := 0
  logIndex := none
  token := []
  amount := []
  amountSource := []
  chainId := some 421614
  blockNumber := none
  blockHash := none
  counterparty := none
  counterpartyUid := some 2
  reference := none
  createdAt := 0
  canonical := true

local instance fivePriorities : NeZero 5 := ⟨by decide⟩

def request : BalanceRefreshInput where
  uid := 1
  accountAddress := 10
  chainId := 421614
  reason := ""
  priority := 0
  notBeforeBlock := none

end ParmeliaLinks.Server.Home
