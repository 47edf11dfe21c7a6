/-
ParmeliaLinks/Accounts/AccountSync.lean

The settlement accounts of the application and of the payments worker.  `saveUser` writes
the wallet of a user, with a version that counts the wallets; a trigger puts the account
into an outbox, one row for each user.  The drain of the outbox sends what it read to the
payments worker, and deletes the rows up to the version that it sent.

A remote call is a message: the drain sends a command, any number of deliveries take it up
at any time (`receive`), and the call returns an error, or the reply of one of them.  Drains
and deliveries run side by side, with anything in between.

The trigger keeps the row of the outbox at the current account (`Synced.outbox`), so what is
deleted has reached the worker (`accounts_agree`).
-/
import ParmeliaLinks.Accounts.SettlementAccounts
import ParmeliaLinks.Lib.Delivery
import ParmeliaLinks.Lib.Embed

namespace ParmeliaLinks.Accounts

abbrev Timestamp := Nat

/-! ### Tables -/

structure UserRow where
  uid : Uid
  walletAddress : Option Address
  settlementAccountVersion : Nat
  deriving DecidableEq

instance : Row UserRow where
  clash r r' := r.uid == r'.uid
  clash_comm _ _ := Bool.beq_comm

inductive SyncStatus | pending | processing | failed
  deriving DecidableEq

structure AccountSyncRow where
  uid : Uid
  walletAddress : Address
  accountVersion : Nat
  status : SyncStatus
  attemptCount : Nat
  nextAttemptAt : Timestamp
  updatedAt : Timestamp
  deriving DecidableEq

instance : Row AccountSyncRow where
  clash r r' := r.uid == r'.uid
  clash_comm _ _ := Bool.beq_comm

/-- A wallet that a user has had, and under which version. -/
structure Account where
  uid : Uid
  version : Nat
  wallet : Address
  deriving DecidableEq

/-- Both databases, and what is under way between them; `history` is what the rows of the
users have been. -/
structure SyncWorld where
  register : Register
  users : Table UserRow
  outbox : Table AccountSyncRow
  sent : List SettlementAccountCommand
  acknowledged : List SettlementAccountCommand
  history : List Account

/-- Before the first user. -/
def SyncWorld.initial : SyncWorld where
  register := .initial
  users := .empty
  outbox := .empty
  sent := []
  acknowledged := []
  history := []

/-! ### Saving a user -/

def insertedUser (uid : Uid) (wallet : Option Address) : UserRow where
  uid := uid
  walletAddress := wallet
  settlementAccountVersion := if wallet.isNone then 0 else 1

/-- `ON CONFLICT(uid) DO UPDATE`: a wallet that is not given stays, and another wallet counts. -/
def savedUser (wallet : Option Address) (u : UserRow) : UserRow :=
  { u with
    settlementAccountVersion :=
      if wallet.isSome ∧ u.walletAddress ≠ wallet then u.settlementAccountVersion + 1
      else u.settlementAccountVersion
    walletAddress := wallet <|> u.walletAddress }

theorem savedUser_keepsKeys (wallet : Option Address) : Table.KeepsKeys (savedUser wallet) :=
  ⟨fun _ _ => rfl⟩

/-- When the trigger on an update of a user fires. -/
def accountChanged (old new : UserRow) : Bool :=
  new.walletAddress.isSome && (old.walletAddress != new.walletAddress ||
    decide (old.settlementAccountVersion < new.settlementAccountVersion))

/-- The row of the outbox that the triggers write for a user. -/
def syncRow (u : UserRow) (wallet : Address) (now : Timestamp) : AccountSyncRow where
  uid := u.uid
  walletAddress := wallet
  accountVersion := max 1 u.settlementAccountVersion
  status := .pending
  attemptCount := 0
  nextAttemptAt := now
  updatedAt := now

def refreshedRow (row : AccountSyncRow) (now : Timestamp) (r : AccountSyncRow) : AccountSyncRow :=
  { r with
    walletAddress := row.walletAddress
    accountVersion := max r.accountVersion row.accountVersion
    status := .pending
    nextAttemptAt := now
    updatedAt := now }

/-- The statement of both triggers, for a user who has a wallet. -/
def syncAccount (u : UserRow) (now : Timestamp) (outbox : Table AccountSyncRow) :
    Table AccountSyncRow :=
  match u.walletAddress with
  | none => outbox
  | some wallet =>
    outbox.upsert (syncRow u wallet now) (refreshedRow (syncRow u wallet now) now) ⟨fun _ _ => rfl⟩

/-- What the user has from now on. -/
def accountOf (u : UserRow) : List Account :=
  match u.walletAddress with
  | none => []
  | some wallet => [{ uid := u.uid, version := u.settlementAccountVersion, wallet }]

namespace SyncWorld

variable (w : SyncWorld)

/-- The row of the user after the statement. -/
def savedRow (uid : Uid) (wallet : Option Address) : UserRow :=
  match w.users.find? fun u => u.uid == uid with
  | none => insertedUser uid wallet
  | some old => savedUser wallet old

/-- A trigger of the statement fires. -/
def fires (uid : Uid) (wallet : Option Address) : Bool :=
  match w.users.find? fun u => u.uid == uid with
  | none => wallet.isSome
  | some old => accountChanged old (savedUser wallet old)

/-- `INSERT INTO users … ON CONFLICT(uid) DO UPDATE …`, with its triggers. -/
def upsertUser (uid : Uid) (wallet : Option Address) (now : Timestamp) : SyncWorld :=
  { w with
    users := w.users.upsert (insertedUser uid wallet) (savedUser wallet) (savedUser_keepsKeys wallet)
    outbox :=
      if w.fires uid wallet then syncAccount (w.savedRow uid wallet) now w.outbox else w.outbox
    history := w.history ++ accountOf (w.savedRow uid wallet) }

/-- `status IN ('pending','failed') AND next_attempt_at <= ? ORDER BY updated_at LIMIT ?`. -/
def selectDueAccounts (now : Timestamp) (limit : Nat) : List AccountSyncRow :=
  ((w.outbox.filter fun r => r.status != .processing && decide (r.nextAttemptAt ≤ now)).mergeSort
    fun r r' => decide (r.updatedAt ≤ r'.updatedAt)).take limit

end SyncWorld

def failedRow (attempt : Nat) (now : Timestamp) (r : AccountSyncRow) : AccountSyncRow :=
  { r with
    status := .failed
    attemptCount := attempt
    nextAttemptAt := now + min 3600000 (15000 * 2 ^ min attempt 7)
    updatedAt := now }

/-- `UPDATE … WHERE uid = ?`. -/
def failAccounts (uid : Uid) (attempt : Nat) (now : Timestamp) (outbox : Table AccountSyncRow) :
    Table AccountSyncRow :=
  outbox.modify (fun r => r.uid == uid) (failedRow attempt now) ⟨fun _ _ => rfl⟩

/-- `DELETE … WHERE uid = ? AND account_version <= ?`. -/
def deleteAccounts (uid : Uid) (accountVersion : Nat) (outbox : Table AccountSyncRow) :
    Table AccountSyncRow :=
  outbox.delete fun r => r.uid == uid && decide (r.accountVersion ≤ accountVersion)

/-! ### Statements and messages -/

inductive SyncOp
  | scheduleEventJob
  | upsertUser (uid : Uid) (wallet : Option Address)
  | wakePaymentsSync
  | selectDueAccounts (limit : Nat)
  | deleteAccount (uid : Uid) (accountVersion : Nat)
  | failAccount (uid : Uid) (attempt : Nat)
  /-- The request of a remote call. -/
  | send (command : SettlementAccountCommand)
  /-- Its outcome, for the caller. -/
  | result (command : SettlementAccountCommand)
  /-- The worker takes a request up. -/
  | receive (command : SettlementAccountCommand)
  | paymentsWriteAvailability
  /-- The worker replies that the command was accepted. -/
  | reply (command : SettlementAccountCommand)

abbrev SyncOp.Reply : SyncOp → Type
  | scheduleEventJob => Unit
  | upsertUser .. => Unit
  | wakePaymentsSync => Unit
  | selectDueAccounts _ => List AccountSyncRow
  | deleteAccount .. => Except String Unit
  | failAccount .. => Unit
  | send _ => Unit
  | result _ => Bool
  | receive _ => Bool
  | paymentsWriteAvailability => Bool
  | reply _ => Unit

/-- What the outside contributes: the clock, whether a reply arrives or the worker accepts
writes, and what becomes of a statement. -/
structure SyncAnswer where
  now : Timestamp := 0
  ok : Bool := true
  delivery : Delivery := .done

def SyncOp.exec : (o : SyncOp) → SyncAnswer → SyncWorld → o.Reply × SyncWorld
  | scheduleEventJob, _, w => ((), w)
  | upsertUser uid wallet, x, w => ((), w.upsertUser uid wallet x.now)
  | wakePaymentsSync, _, w => ((), w)
  | selectDueAccounts limit, x, w => (w.selectDueAccounts x.now limit, w)
  | deleteAccount uid accountVersion, x, w =>
    x.delivery.deliver w ((), { w with outbox := deleteAccounts uid accountVersion w.outbox })
  | failAccount uid attempt, x, w =>
    ((), { w with outbox := failAccounts uid attempt x.now w.outbox })
  | send command, _, w => ((), { w with sent := w.sent ++ [command] })
  | result command, x, w => (x.ok && decide (command ∈ w.acknowledged), w)
  | receive command, _, w => (decide (command ∈ w.sent), w)
  | paymentsWriteAvailability, x, w => (x.ok, w)
  | reply command, _, w => ((), { w with acknowledged := w.acknowledged ++ [command] })

abbrev SyncHandler := Prog (RegisterOp ⊕ SyncOp) (Sum.elim RegisterOp.Reply SyncOp.Reply)

def issue (o : SyncOp) : SyncHandler o.Reply := .act (.inr o) .ret

/-! ### Handlers -/

def saveUser (uid : Uid) (wallet : Option Address) : SyncHandler Unit := do
  if wallet.isSome then issue .scheduleEventJob
  issue (.upsertUser uid wallet)
  if wallet.isSome then issue .wakePaymentsSync

/-- `account:<uid>:<version>`. -/
def accountCommandId (uid : Uid) (accountVersion : Nat) : CommandId :=
  ['a', 'c', 'c', 'o', 'u', 'n', 't', ':'] ++ (uid ++ ':' :: decimal accountVersion)

section

variable (merchantIdForUid : Uid → MerchantId) (chainId : ChainId)

def commandOf (row : AccountSyncRow) : SettlementAccountCommand where
  commandId := accountCommandId row.uid row.accountVersion
  ownerUid := row.uid
  accountVersion := row.accountVersion
  walletAddress := row.walletAddress
  chainId := chainId

def sendSettlementAccount (row : AccountSyncRow) : SyncHandler Bool := do
  issue (.send (commandOf chainId row))
  issue (.result (commandOf chainId row))

/-- One row of the outbox. -/
def drainAccount (row : AccountSyncRow) : SyncHandler Unit :=
  Prog.tryCatch
    (do
      if ← sendSettlementAccount chainId row then
        let deleted ← issue (.deleteAccount row.uid row.accountVersion)
        Prog.ofExcept deleted
      else throw "Payments rejected settlement account command")
    fun _ => issue (.failAccount row.uid (row.attemptCount + 1))

def drainRows : List AccountSyncRow → SyncHandler Unit
  | [] => return ()
  | row :: rows => do
    drainAccount chainId row
    drainRows rows

/-- The accounts of `drainPaymentsBoundaryOutbox`. -/
def drainAccounts (limit : Nat) : SyncHandler Unit := do
  let rows ← issue (.selectDueAccounts limit)
  drainRows chainId rows

/-- The entry point of the worker, for a command that has been sent. -/
def deliverCommand (command : SettlementAccountCommand) : SyncHandler Unit := do
  if ← issue (.receive command) then
    if ← issue .paymentsWriteAvailability then
      if 1 ≤ command.accountVersion then
        let _ ← (upsertSettlementAccount merchantIdForUid command).inl
        issue (.reply command)

inductive SyncCall
  | saveUser (uid : Uid) (wallet : Option Address)
  | drain (limit : Nat)
  | deliver (command : SettlementAccountCommand)

def syncBody : SyncCall → SyncHandler Unit
  | .saveUser uid wallet => saveUser uid wallet
  | .drain limit => drainAccounts chainId limit
  | .deliver command => deliverCommand merchantIdForUid command

/-- One statement, of the register or of the synchronisation. -/
def syncExec : (o : RegisterOp ⊕ SyncOp) → SyncAnswer → SyncWorld →
    Sum.elim RegisterOp.Reply SyncOp.Reply o × SyncWorld
  | .inl o, _, w => ((o.exec w.register).1, { w with register := (o.exec w.register).2 })
  | .inr o, x, w => o.exec x w

/-- Saves, drains and deliveries side by side. -/
def syncSystem : System (RegisterOp ⊕ SyncOp) (Sum.elim RegisterOp.Reply SyncOp.Reply) SyncWorld
    SyncAnswer Empty SyncCall Unit where
  exec _ := syncExec
  env := Empty.elim
  body := syncBody merchantIdForUid chainId

end

abbrev SyncSchedule := List (Label SyncAnswer Empty SyncCall)

/-! ### Identifiers of commands -/

/-- What comes behind the last separator. -/
theorem append_separator_inj_right {s : Char} {t u r r' : Text} (hr : s ∉ r) (hr' : s ∉ r')
    (h : t ++ s :: r = u ++ s :: r') : t = u ∧ r = r' := by
  have reversed : r.reverse ++ s :: t.reverse = r'.reverse ++ s :: u.reverse := by
    simpa using congrArg List.reverse h
  obtain ⟨back, front⟩ := append_separator_inj (by rwa [List.mem_reverse])
    (by rwa [List.mem_reverse]) reversed
  exact ⟨List.reverse_injective front, List.reverse_injective back⟩

theorem colon_notMem_decimal (n : Nat) : ':' ∉ decimal n := by
  intro h
  exact absurd (isDigit_of_mem_decimal h) (by decide)

/-- An identifier is that of one user and one version, whatever the user's identifier is. -/
theorem accountCommandId_injective {uid uid' : Uid} {v v' : Nat}
    (h : accountCommandId uid v = accountCommandId uid' v') : uid = uid' ∧ v = v' := by
  have rest := List.append_cancel_left h
  obtain ⟨same, digits⟩ := append_separator_inj_right (colon_notMem_decimal v)
    (colon_notMem_decimal v') rest
  exact ⟨same, decimal_injective digits⟩

/-! ### The invariant -/

/-- What the users, the outbox, the messages and the register have to do with each other. -/
structure Synced (chainId : ChainId) (w : SyncWorld) : Prop where
  register : w.register.Recorded
  /-- The account of a user is in the history. -/
  current : ∀ u ∈ w.users, ∀ a ∈ accountOf u, a ∈ w.history ∧ 1 ≤ a.version
  /-- No account in the history is newer than its user. -/
  past : ∀ a ∈ w.history, ∃ u ∈ w.users, u.uid = a.uid ∧ a.version ≤ u.settlementAccountVersion
  once : ∀ a ∈ w.history, ∀ b ∈ w.history, a.uid = b.uid → a.version = b.version → a = b
  /-- The outbox has the current account. -/
  outbox : ∀ r ∈ w.outbox, ∃ u ∈ w.users, u.uid = r.uid ∧ u.walletAddress = some r.walletAddress ∧
    u.settlementAccountVersion = r.accountVersion
  sent : ∀ c ∈ w.sent, ⟨c.ownerUid, c.accountVersion, c.walletAddress⟩ ∈ w.history ∧
    c.commandId = accountCommandId c.ownerUid c.accountVersion ∧ c.chainId = chainId
  batches : ∀ b ∈ w.register.batches, b.command ∈ w.sent
  /-- What was accepted is behind the register. -/
  acknowledged : ∀ c ∈ w.acknowledged, ∃ m ∈ w.register.merchants, m.ownerUid = c.ownerUid ∧
    c.accountVersion ≤ m.accountVersion
  /-- What is not in the outbox is in the register. -/
  handed : ∀ u ∈ w.users, u.walletAddress.isSome → (∃ r ∈ w.outbox, r.uid = u.uid) ∨
    ∃ m ∈ w.register.merchants, m.ownerUid = u.uid ∧ u.settlementAccountVersion ≤ m.accountVersion

structure SyncWorld.Grows (w w' : SyncWorld) : Prop where
  register : w.register.Grows w'.register
  history : ∀ a ∈ w.history, a ∈ w'.history
  sent : ∀ c ∈ w.sent, c ∈ w'.sent
  acknowledged : ∀ c ∈ w.acknowledged, c ∈ w'.acknowledged

theorem SyncWorld.Grows.rfl (w : SyncWorld) : w.Grows w :=
  ⟨.rfl _, fun _ h => h, fun _ h => h, fun _ h => h⟩

theorem SyncWorld.Grows.trans {w₁ w₂ w₃ : SyncWorld} (h : w₁.Grows w₂) (h' : w₂.Grows w₃) :
    w₁.Grows w₃ where
  register := h.register.trans h'.register
  history a ha := h'.history a (h.history a ha)
  sent c hc := h'.sent c (h.sent c hc)
  acknowledged c hc := h'.acknowledged c (h.acknowledged c hc)

/-! ### Saving a user -/

section Save

variable {chainId : ChainId} {w : SyncWorld} {uid : Uid} {wallet : Option Address}
  {now : Timestamp} {u : UserRow}

theorem mem_accountOf {a : Account} :
    a ∈ accountOf u ↔ ∃ wallet, u.walletAddress = some wallet ∧
      a = ⟨u.uid, u.settlementAccountVersion, wallet⟩ := by
  unfold accountOf
  cases u.walletAddress with
  | none => simp
  | some wallet => simp

theorem user_eq {u u' : UserRow} (hu : u ∈ w.users) (hu' : u' ∈ w.users) (same : u.uid = u'.uid) :
    u = u' :=
  Table.eq_of_clash hu hu' (beq_iff_eq.2 same)

/-- How the statement finds the row of the user. -/
theorem savedRow_cases (w : SyncWorld) (uid : Uid) (wallet : Option Address) :
    ((∀ u ∈ w.users, u.uid ≠ uid) ∧ w.savedRow uid wallet = insertedUser uid wallet ∧
      w.fires uid wallet = wallet.isSome) ∨
    ∃ old ∈ w.users, old.uid = uid ∧ w.savedRow uid wallet = savedUser wallet old ∧
      w.fires uid wallet = accountChanged old (savedUser wallet old) := by
  unfold SyncWorld.savedRow SyncWorld.fires
  cases found : w.users.find? fun u => u.uid == uid with
  | none =>
    refine .inl ⟨fun u hu same => ?_, rfl, rfl⟩
    have := Table.not_of_find?_none found hu
    simp [same] at this
  | some old =>
    have own : old.uid = uid :=
      beq_iff_eq.1 (Table.of_find? (p := fun u : UserRow => u.uid == uid) found)
    exact .inr ⟨old, Table.mem_of_find? found, own, rfl, rfl⟩

theorem savedRow_uid (w : SyncWorld) (uid : Uid) (wallet : Option Address) :
    (w.savedRow uid wallet).uid = uid := by
  rcases savedRow_cases w uid wallet with ⟨-, row, -⟩ | ⟨old, -, own, row, -⟩
  · rw [row]
    rfl
  · rw [row]
    exact own

/-- The users after the statement. -/
theorem mem_users_upsertUser :
    u ∈ (w.upsertUser uid wallet now).users ↔
      u = w.savedRow uid wallet ∨ (u ∈ w.users ∧ u.uid ≠ uid) := by
  show u ∈ w.users.upsert (insertedUser uid wallet) (savedUser wallet) _ ↔ _
  rcases savedRow_cases w uid wallet with ⟨unknown, row, -⟩ | ⟨old, hold, own, row, -⟩
  · have fits : w.users.Fits (insertedUser uid wallet) := by
      intro r hr
      simpa [Row.clash, insertedUser] using unknown r hr
    rw [Table.upsert, dif_pos fits, row, Table.mem_of_rows_append (by exact rfl)]
    constructor
    · rintro (hu | rfl)
      · exact .inr ⟨hu, unknown u hu⟩
      · exact .inl rfl
    · rintro (rfl | ⟨hu, -⟩)
      · exact .inr rfl
      · exact .inl hu
  · have taken : ¬ w.users.Fits (insertedUser uid wallet) := by
      intro fits
      have apart := fits old hold
      simp [Row.clash, insertedUser, own] at apart
    rw [Table.upsert, dif_neg taken, row, Table.mem_modify]
    constructor
    · rintro ⟨u₀, hu₀, rfl⟩
      by_cases same : u₀.uid = uid
      · obtain rfl := user_eq hu₀ hold (same.trans own.symm)
        exact .inl (if_pos (by simp [Row.clash, insertedUser, same]))
      · rw [if_neg (by simp [Row.clash, insertedUser, same])]
        exact .inr ⟨hu₀, same⟩
    · rintro (rfl | ⟨hu, other⟩)
      · exact ⟨old, hold, if_pos (by simp [Row.clash, insertedUser, own])⟩
      · exact ⟨u, hu, if_neg (by simp [Row.clash, insertedUser, other])⟩

/-- A wallet that is not another one leaves the row as it is; another one counts. -/
theorem savedUser_cases (wallet : Option Address) (old : UserRow) :
    (savedUser wallet old = old ∧ accountChanged old (savedUser wallet old) = false) ∨
    ∃ a, (savedUser wallet old).walletAddress = some a ∧
      (savedUser wallet old).settlementAccountVersion = old.settlementAccountVersion + 1 ∧
      accountChanged old (savedUser wallet old) = true := by
  by_cases other : wallet.isSome ∧ old.walletAddress ≠ wallet
  · obtain ⟨some, apart⟩ := other
    obtain ⟨a, rfl⟩ := Option.isSome_iff_exists.1 some
    refine .inr ⟨a, rfl, if_pos ⟨rfl, apart⟩, ?_⟩
    simp [accountChanged, savedUser, apart]
  · have same : savedUser wallet old = old := by
      unfold savedUser
      rw [if_neg other]
      cases wallet with
      | none => rfl
      | some a =>
        have taken : old.walletAddress = some a := not_not.1 fun apart => other ⟨rfl, apart⟩
        cases old
        cases taken
        rfl
    refine .inl ⟨same, ?_⟩
    rw [same]
    simp [accountChanged]

/-- What the statement makes of the user: nothing new, a user without a wallet, or an account
that is newer than all before. -/
theorem savedRow_spec (w : SyncWorld) (uid : Uid) (wallet : Option Address) :
    (w.savedRow uid wallet ∈ w.users ∧ w.fires uid wallet = false) ∨
    ((∀ u ∈ w.users, u.uid ≠ uid) ∧ (w.savedRow uid wallet).walletAddress = none ∧
      w.fires uid wallet = false) ∨
    ∃ a, (w.savedRow uid wallet).walletAddress = some a ∧
      1 ≤ (w.savedRow uid wallet).settlementAccountVersion ∧
      (∀ u ∈ w.users, u.uid = uid →
        u.settlementAccountVersion < (w.savedRow uid wallet).settlementAccountVersion) ∧
      w.fires uid wallet = true := by
  rcases savedRow_cases w uid wallet with ⟨unknown, row, fires⟩ | ⟨old, hold, own, row, fires⟩
  · cases wallet with
    | none => exact .inr (.inl ⟨unknown, by rw [row]; rfl, fires⟩)
    | some a =>
      refine .inr (.inr ⟨a, by rw [row]; rfl, by rw [row]; exact Nat.le_refl _, ?_, fires⟩)
      exact fun u hu same => absurd same (unknown u hu)
  · rw [row, fires]
    rcases savedUser_cases wallet old with ⟨same, quiet⟩ | ⟨a, taken, version, fires⟩
    · left
      rw [same] at quiet ⊢
      exact ⟨hold, quiet⟩
    · refine .inr (.inr ⟨a, taken, ?_, fun u hu same => ?_, fires⟩)
      · rw [version]
        exact Nat.le_add_left 1 _
      · obtain rfl := user_eq hu hold (same.trans own.symm)
        rw [version]
        exact Nat.lt_succ_self _

/-- The outbox after a trigger. -/
theorem mem_syncAccount {outbox : Table AccountSyncRow} {a : Address}
    (taken : u.walletAddress = some a) {r : AccountSyncRow} (h : r ∈ syncAccount u now outbox) :
    (r ∈ outbox ∧ r.uid ≠ u.uid) ∨ (r.uid = u.uid ∧ r.walletAddress = a ∧
      (r.accountVersion = max 1 u.settlementAccountVersion ∨ ∃ r₀ ∈ outbox, r₀.uid = u.uid ∧
        r.accountVersion = max r₀.accountVersion (max 1 u.settlementAccountVersion))) := by
  simp only [syncAccount, taken] at h
  rcases Table.mem_upsert h with ⟨rfl, -⟩ | ⟨r₀, hr₀, rfl⟩
  · exact .inr ⟨rfl, rfl, .inl rfl⟩
  · by_cases own : r₀.uid = u.uid
    · rw [if_pos (by simp [Row.clash, syncRow, own])]
      exact .inr ⟨own, rfl, .inr ⟨r₀, hr₀, own, rfl⟩⟩
    · rw [if_neg (by simp [Row.clash, syncRow, own])]
      exact .inl ⟨hr₀, own⟩

/-- The row of the user is in the outbox then, and the others stay. -/
theorem exists_mem_syncAccount {outbox : Table AccountSyncRow} {a : Address}
    (taken : u.walletAddress = some a) : ∃ r ∈ syncAccount u now outbox, r.uid = u.uid := by
  simp only [syncAccount, taken]
  have row : syncRow u a now ∈ outbox.upsert (syncRow u a now)
        (refreshedRow (syncRow u a now) now) ⟨fun _ _ => rfl⟩ ∨
      ∃ r ∈ outbox, Row.clash r (syncRow u a now) = true ∧
        refreshedRow (syncRow u a now) now r ∈ outbox.upsert (syncRow u a now)
          (refreshedRow (syncRow u a now) now) ⟨fun _ _ => rfl⟩ :=
    Table.mem_upsert_self
  rcases row with mem | ⟨r, -, clash, mem⟩
  · exact ⟨_, mem, rfl⟩
  · exact ⟨_, mem, beq_iff_eq.1 clash⟩

theorem mem_syncAccount_of_mem {outbox : Table AccountSyncRow} {r : AccountSyncRow}
    (hr : r ∈ outbox) (other : r.uid ≠ u.uid) : r ∈ syncAccount u now outbox := by
  unfold syncAccount
  cases u.walletAddress with
  | none => exact hr
  | some a =>
    have mem : (if Row.clash r (syncRow u a now) then _ else r) ∈
        outbox.upsert (syncRow u a now) (refreshedRow (syncRow u a now) now) ⟨fun _ _ => rfl⟩ :=
      Table.mem_upsert_of_mem hr
    rwa [if_neg (by simp [Row.clash, syncRow, other])] at mem

/-- A user who stays as he is. -/
theorem synced_saved_same (h : Synced chainId w) (known : w.savedRow uid wallet ∈ w.users)
    (quiet : w.fires uid wallet = false) : Synced chainId (w.upsertUser uid wallet now) := by
  have users : ∀ u, u ∈ (w.upsertUser uid wallet now).users ↔ u ∈ w.users := by
    intro u
    rw [mem_users_upsertUser]
    constructor
    · rintro (rfl | ⟨hu, -⟩)
      · exact known
      · exact hu
    · intro hu
      by_cases own : u.uid = uid
      · exact .inl (user_eq hu known (own.trans (savedRow_uid w uid wallet).symm))
      · exact .inr ⟨hu, own⟩
  have outbox : (w.upsertUser uid wallet now).outbox = w.outbox := by
    show (if w.fires uid wallet then _ else _) = _
    rw [quiet]
    rfl
  have history : ∀ a, a ∈ (w.upsertUser uid wallet now).history ↔ a ∈ w.history := by
    intro a
    show a ∈ w.history ++ accountOf _ ↔ _
    rw [List.mem_append]
    exact ⟨fun ha => ha.elim (fun ha => ha) fun ha => (h.current _ known a ha).1, .inl⟩
  constructor
  · exact h.register
  · intro u hu a ha
    obtain ⟨mem, pos⟩ := h.current u ((users u).1 hu) a ha
    exact ⟨(history a).2 mem, pos⟩
  · intro a ha
    obtain ⟨u, hu, own⟩ := h.past a ((history a).1 ha)
    exact ⟨u, (users u).2 hu, own⟩
  · exact fun a ha b hb => h.once a ((history a).1 ha) b ((history b).1 hb)
  · intro r hr
    rw [outbox] at hr
    obtain ⟨u, hu, own⟩ := h.outbox r hr
    exact ⟨u, (users u).2 hu, own⟩
  · intro c hc
    obtain ⟨mem, id⟩ := h.sent c hc
    exact ⟨(history _).2 mem, id⟩
  · exact h.batches
  · exact h.acknowledged
  · intro u hu some
    rw [outbox]
    exact h.handed u ((users u).1 hu) some

/-- A new user without a wallet. -/
theorem synced_saved_none (h : Synced chainId w) (unknown : ∀ u ∈ w.users, u.uid ≠ uid)
    (none : (w.savedRow uid wallet).walletAddress = none) (quiet : w.fires uid wallet = false) :
    Synced chainId (w.upsertUser uid wallet now) := by
  have users : ∀ u ∈ w.users, u ∈ (w.upsertUser uid wallet now).users := fun u hu =>
    mem_users_upsertUser.2 (.inr ⟨hu, unknown u hu⟩)
  have outbox : (w.upsertUser uid wallet now).outbox = w.outbox := by
    show (if w.fires uid wallet then _ else _) = _
    rw [quiet]
    rfl
  have empty : accountOf (w.savedRow uid wallet) = [] := by
    rw [accountOf, none]
  have history : (w.upsertUser uid wallet now).history = w.history := by
    show w.history ++ accountOf _ = _
    rw [empty, List.append_nil]
  constructor
  · exact h.register
  · intro u hu a ha
    rw [history]
    rcases mem_users_upsertUser.1 hu with rfl | ⟨hu, -⟩
    · rw [empty] at ha
      exact absurd ha List.not_mem_nil
    · exact h.current u hu a ha
  · intro a ha
    rw [history] at ha
    obtain ⟨u, hu, own⟩ := h.past a ha
    exact ⟨u, users u hu, own⟩
  · rw [history]
    exact h.once
  · intro r hr
    rw [outbox] at hr
    obtain ⟨u, hu, own⟩ := h.outbox r hr
    exact ⟨u, users u hu, own⟩
  · rw [history]
    exact h.sent
  · exact h.batches
  · exact h.acknowledged
  · intro u hu some
    rw [outbox]
    rcases mem_users_upsertUser.1 hu with rfl | ⟨hu, -⟩
    · rw [none] at some
      cases some
    · exact h.handed u hu some

/-- An account that is newer than all before goes into the outbox. -/
theorem synced_saved_new (h : Synced chainId w) {a : Address}
    (taken : (w.savedRow uid wallet).walletAddress = some a)
    (pos : 1 ≤ (w.savedRow uid wallet).settlementAccountVersion)
    (newer : ∀ u ∈ w.users, u.uid = uid →
      u.settlementAccountVersion < (w.savedRow uid wallet).settlementAccountVersion)
    (fires : w.fires uid wallet = true) : Synced chainId (w.upsertUser uid wallet now) := by
  have own := savedRow_uid w uid wallet
  have outbox : (w.upsertUser uid wallet now).outbox =
      syncAccount (w.savedRow uid wallet) now w.outbox := by
    show (if w.fires uid wallet then _ else _) = _
    rw [fires]
    rfl
  have account : accountOf (w.savedRow uid wallet) =
      [⟨uid, (w.savedRow uid wallet).settlementAccountVersion, a⟩] := by
    rw [accountOf, taken, own]
  have history : ∀ b, b ∈ (w.upsertUser uid wallet now).history ↔
      b ∈ w.history ∨ b = ⟨uid, (w.savedRow uid wallet).settlementAccountVersion, a⟩ := by
    intro b
    show b ∈ w.history ++ accountOf _ ↔ _
    rw [account, List.mem_append, List.mem_singleton]
  have self : w.savedRow uid wallet ∈ (w.upsertUser uid wallet now).users :=
    mem_users_upsertUser.2 (.inl rfl)
  -- what was in the history is older
  have older : ∀ b ∈ w.history, b.uid = uid →
      b.version < (w.savedRow uid wallet).settlementAccountVersion := by
    intro b hb same
    obtain ⟨u, hu, owner, le⟩ := h.past b hb
    exact Nat.lt_of_le_of_lt le (newer u hu (owner.trans same))
  constructor
  · exact h.register
  · intro u hu b hb
    rcases mem_users_upsertUser.1 hu with rfl | ⟨hu, -⟩
    · rw [account, List.mem_singleton] at hb
      subst hb
      exact ⟨(history _).2 (.inr rfl), pos⟩
    · obtain ⟨mem, positive⟩ := h.current u hu b hb
      exact ⟨(history b).2 (.inl mem), positive⟩
  · intro b hb
    rcases (history b).1 hb with hb | rfl
    · by_cases same : b.uid = uid
      · exact ⟨_, self, own.trans same.symm, Nat.le_of_lt (older b hb same)⟩
      · obtain ⟨u, hu, owner, le⟩ := h.past b hb
        exact ⟨u, mem_users_upsertUser.2 (.inr ⟨hu, fun eq => same (owner.symm.trans eq)⟩), owner, le⟩
    · exact ⟨_, self, own, Nat.le_refl _⟩
  · intro b hb c hc same version
    rcases (history b).1 hb with hb | rfl
    · rcases (history c).1 hc with hc | rfl
      · exact h.once b hb c hc same version
      · exact absurd version (Nat.ne_of_lt (older b hb same))
    · rcases (history c).1 hc with hc | rfl
      · exact absurd version.symm (Nat.ne_of_lt (older c hc same.symm))
      · rfl
  · intro r hr
    rw [outbox] at hr
    rcases mem_syncAccount taken hr with ⟨hr, other⟩ | ⟨owner, wallet', version⟩
    · obtain ⟨u, hu, same, rest⟩ := h.outbox r hr
      rw [own] at other
      exact ⟨u, mem_users_upsertUser.2 (.inr ⟨hu, fun eq => other (same.symm.trans eq)⟩), same, rest⟩
    · refine ⟨_, self, owner.symm, ?_, ?_⟩
      · rw [taken, wallet']
      · rcases version with version | ⟨r₀, hr₀, owner₀, version⟩
        · rw [version, Nat.max_eq_right pos]
        · obtain ⟨u, hu, same, -, current⟩ := h.outbox r₀ hr₀
          have behind := newer u hu (same.trans (owner₀.trans own))
          rw [version, Nat.max_eq_right pos, Nat.max_eq_right]
          rw [← current]
          exact Nat.le_of_lt behind
  · intro c hc
    obtain ⟨mem, id⟩ := h.sent c hc
    exact ⟨(history _).2 (.inl mem), id⟩
  · exact h.batches
  · exact h.acknowledged
  · intro u hu some
    rw [outbox]
    rcases mem_users_upsertUser.1 hu with rfl | ⟨hu, other⟩
    · exact .inl (exists_mem_syncAccount taken)
    · rcases h.handed u hu some with ⟨r, hr, same⟩ | handed
      · refine .inl ⟨r, mem_syncAccount_of_mem hr ?_, same⟩
        rw [same, own]
        exact other
      · exact .inr handed

theorem synced_upsertUser (h : Synced chainId w) :
    Synced chainId (w.upsertUser uid wallet now) ∧ w.Grows (w.upsertUser uid wallet now) := by
  refine ⟨?_, .rfl _, fun a ha => List.mem_append_left _ ha, fun _ h => h, fun _ h => h⟩
  rcases savedRow_spec w uid wallet with ⟨known, quiet⟩ | ⟨unknown, none, quiet⟩ |
    ⟨a, taken, pos, newer, fires⟩
  · exact synced_saved_same h known quiet
  · exact synced_saved_none h unknown none quiet
  · exact synced_saved_new h taken pos newer fires

end Save

/-! ### The discipline -/

def syncDiscipline (chainId : ChainId) :
    Discipline (RegisterOp ⊕ SyncOp) SyncWorld SyncAnswer Empty SyncCall where
  Inv := Synced chainId
  Evolves := SyncWorld.Grows
  refl := SyncWorld.Grows.rfl
  trans := SyncWorld.Grows.trans

/-- The worker has the account, or a newer one. -/
def SyncWorld.Accepted (w : SyncWorld) (uid : Uid) (version : Nat) : Prop :=
  ∃ m ∈ w.register.merchants, m.ownerUid = uid ∧ version ≤ m.accountVersion

theorem SyncWorld.Accepted.grows {w w' : SyncWorld} {uid : Uid} {version : Nat}
    (h : w.Accepted uid version) (grows : w.Grows w') : w'.Accepted uid version := by
  obtain ⟨m, hm, owner, le⟩ := h
  obtain ⟨m', hm', -, owner', le'⟩ := grows.register.merchants m hm
  exact ⟨m', hm', owner'.trans owner, Nat.le_trans le le'⟩

/-- A command that tells an account of the history. -/
def SyncWorld.Tells (chainId : ChainId) (w : SyncWorld) (c : SettlementAccountCommand) : Prop :=
  ⟨c.ownerUid, c.accountVersion, c.walletAddress⟩ ∈ w.history ∧
    c.commandId = accountCommandId c.ownerUid c.accountVersion ∧ c.chainId = chainId

/-- What a statement has to find. -/
def SyncOp.Suits (chainId : ChainId) (o : SyncOp) (w : SyncWorld) : Prop :=
  match o with
  | .deleteAccount uid version => w.Accepted uid version
  | .send command => w.Tells chainId command
  | .reply command => w.Accepted command.ownerUid command.accountVersion
  | _ => True

section Steps

variable {merchantIdForUid : Uid → MerchantId} {chainId : ChainId} {w w' : SyncWorld} {i : Nat}

theorem synced_deleteAccounts (h : Synced chainId w) {uid : Uid} {version : Nat}
    (accepted : w.Accepted uid version) :
    Synced chainId { w with outbox := deleteAccounts uid version w.outbox } where
  register := h.register
  current := h.current
  past := h.past
  once := h.once
  outbox r hr := h.outbox r (Table.mem_delete.1 hr).1
  sent := h.sent
  batches := h.batches
  acknowledged := h.acknowledged
  handed u hu some := by
    rcases h.handed u hu some with ⟨r, hr, own⟩ | handed
    · by_cases gone : (r.uid == uid && decide (r.accountVersion ≤ version)) = true
      · -- the row was up to what the worker has accepted
        right
        simp only [Bool.and_eq_true, beq_iff_eq, decide_eq_true_eq] at gone
        obtain ⟨m, hm, owner, le⟩ := accepted
        obtain ⟨u', hu', same, -, current⟩ := h.outbox r hr
        obtain rfl := user_eq hu hu' (own.symm.trans same.symm)
        refine ⟨m, hm, ?_, ?_⟩
        · rw [owner, ← gone.1, own]
        · rw [current]
          exact Nat.le_trans gone.2 le
      · exact .inl ⟨r, Table.mem_delete.2 ⟨hr, Bool.not_eq_true _ ▸ gone⟩, own⟩
    · exact .inr handed

theorem mem_failAccounts {uid : Uid} {attempt : Nat} {now : Timestamp}
    {outbox : Table AccountSyncRow} {r : AccountSyncRow} (h : r ∈ failAccounts uid attempt now outbox) :
    ∃ r₀ ∈ outbox, r₀.uid = r.uid ∧ r₀.walletAddress = r.walletAddress ∧
      r₀.accountVersion = r.accountVersion := by
  obtain ⟨r₀, hr₀, rfl⟩ := Table.mem_modify.1 h
  refine ⟨r₀, hr₀, ?_⟩
  split <;> exact ⟨rfl, rfl, rfl⟩

theorem exists_mem_failAccounts (uid : Uid) (attempt : Nat) (now : Timestamp)
    {outbox : Table AccountSyncRow} {r : AccountSyncRow} (h : r ∈ outbox) :
    ∃ r' ∈ failAccounts uid attempt now outbox, r'.uid = r.uid := by
  have mem : (if r.uid == uid then failedRow attempt now r else r) ∈
      failAccounts uid attempt now outbox :=
    Table.mem_modify.2 ⟨r, h, rfl⟩
  refine ⟨_, mem, ?_⟩
  split <;> rfl

theorem synced_failAccounts (h : Synced chainId w) (uid : Uid) (attempt : Nat) (now : Timestamp) :
    Synced chainId { w with outbox := failAccounts uid attempt now w.outbox } where
  register := h.register
  current := h.current
  past := h.past
  once := h.once
  outbox r hr := by
    obtain ⟨r₀, hr₀, own, wallet, version⟩ := mem_failAccounts hr
    rw [← own, ← wallet, ← version]
    exact h.outbox r₀ hr₀
  sent := h.sent
  batches := h.batches
  acknowledged := h.acknowledged
  handed u hu some := by
    rcases h.handed u hu some with ⟨r, hr, own⟩ | handed
    · obtain ⟨r', hr', same⟩ := exists_mem_failAccounts uid attempt now hr
      exact .inl ⟨r', hr', same.trans own⟩
    · exact .inr handed

/-- Every statement and every message keeps the two sides together. -/
theorem SyncOp.exec_keeps (h : Synced chainId w) (o : SyncOp) (x : SyncAnswer)
    (suits : o.Suits chainId w) : Synced chainId (o.exec x w).2 ∧ w.Grows (o.exec x w).2 := by
  cases o with
  | upsertUser uid wallet => exact synced_upsertUser h
  | deleteAccount uid version =>
    apply x.delivery.deliver_induction (P := fun w' => Synced chainId w' ∧ w.Grows w')
    · exact ⟨h, .rfl w⟩
    · exact ⟨synced_deleteAccounts h suits, .rfl _, fun _ h => h, fun _ h => h, fun _ h => h⟩
  | failAccount uid attempt =>
    exact ⟨synced_failAccounts h uid attempt x.now, .rfl _, fun _ h => h, fun _ h => h, fun _ h => h⟩
  | send command =>
    refine ⟨{ h with sent := fun c hc => ?_, batches := fun b hb => ?_ }, .rfl _, fun _ h => h,
      fun c hc => List.mem_append_left _ hc, fun _ h => h⟩
    · rcases List.mem_append.1 hc with hc | hc
      · exact h.sent c hc
      · obtain rfl := List.mem_singleton.1 hc
        exact suits
    · exact List.mem_append_left _ (h.batches b hb)
  | reply command =>
    refine ⟨{ h with acknowledged := fun c hc => ?_ }, .rfl _, fun _ h => h, fun _ h => h,
      fun c hc => List.mem_append_left _ hc⟩
    rcases List.mem_append.1 hc with hc | hc
    · exact h.acknowledged c hc
    · obtain rfl := List.mem_singleton.1 hc
      exact suits
  | _ => exact ⟨h, .rfl w⟩

theorem issue_performs (h : Synced chainId w) (o : SyncOp) (x : SyncAnswer)
    (suits : o.Suits chainId w) :
    (syncDiscipline chainId).Performs (syncSystem merchantIdForUid chainId) i (.inr o) x w := by
  obtain ⟨synced, grows⟩ := o.exec_keeps h x suits
  exact ⟨⟨synced, grows⟩, fun _ _ => trivial, trivial⟩

/-- A batch of the register is of a command that was sent. -/
def OfSent (o : RegisterOp) (w : SyncWorld) : Prop :=
  match o with
  | .batch _ input _ => input ∈ w.sent
  | _ => True

theorem mem_batches_exec {o : RegisterOp} {r : Register} {b : Batch}
    (hb : b ∈ (o.exec r).2.batches) :
    b ∈ r.batches ∨ ∃ s applied, o = .batch s b.command applied := by
  cases o with
  | selectCommand commandId => exact .inl hb
  | getMerchantByOwner ownerUid => exact .inl hb
  | batch s input applied =>
    simp only [RegisterOp.exec] at hb
    split at hb
    · rename_i r' ok
      obtain ⟨-, changed, -, -, batches, -⟩ := Register.runBatch_ok ok
      rw [batches] at hb
      rcases List.mem_append.1 hb with hb | hb
      · exact .inl hb
      · obtain rfl := List.mem_singleton.1 hb
        exact .inr ⟨s, applied, rfl⟩
    · exact .inl hb

/-- What the register does alone it does here. -/
theorem register_embeds :
    Discipline.EmbedsUnder OfSent registerDiscipline (registerSystem merchantIdForUid)
      (syncDiscipline chainId) (syncSystem merchantIdForUid chainId) SyncWorld.register
      (fun _ => ()) where
  reply _ _ _ _ := rfl
  world _ _ _ _ := rfl
  allowed _ _ _ _ _ := trivial
  later _ _ _ later := ⟨later.inv.register, later.evolves.register, trivial⟩
  stable o w w' grows sent := by
    cases o with
    | batch s input applied => exact grows.sent _ sent
    | _ => trivial
  performs i o x w h sent _ performs := by
    have grows : w.Grows (syncExec (.inl o) x w).2 :=
      ⟨performs.evolves, fun _ h => h, fun _ h => h, fun _ h => h⟩
    refine ⟨⟨?_, grows⟩, fun _ _ => trivial, trivial⟩
    refine { h with register := performs.inv, batches := fun b hb => ?_,
                    acknowledged := fun c hc => ?_, handed := fun u hu some => ?_ }
    · rcases mem_batches_exec hb with hb | ⟨s, applied, rfl⟩
      · exact h.batches b hb
      · exact sent
    · exact SyncWorld.Accepted.grows (h.acknowledged c hc) grows
    · rcases h.handed u hu some with row | handed
      · exact .inl row
      · exact .inr (SyncWorld.Accepted.grows handed grows)

end Steps

/-! ### The handlers -/

section Handlers

variable {merchantIdForUid : Uid → MerchantId} {chainId : ChainId} {w w' : SyncWorld} {i : Nat}

/-- The weakest precondition of a handler. -/
abbrev SyncHandler.wp {α : Type} (merchantIdForUid : Uid → MerchantId) (chainId : ChainId)
    (p : SyncHandler α) (i : Nat) (Q : Except String α → SyncWorld → Prop) (w : SyncWorld) : Prop :=
  (syncDiscipline chainId).wp (syncSystem merchantIdForUid chainId) i p Q w

/-- A statement, and the rest. -/
theorem wp_issue {α : Type} {o : SyncOp} {f : o.Reply → SyncHandler α}
    {Q : Except String α → SyncWorld → Prop} (h : Synced chainId w) (suits : o.Suits chainId w)
    (rest : ∀ x w', Synced chainId w' → (o.exec x w).2.Grows w' →
      (f (o.exec x w).1).wp merchantIdForUid chainId i Q w') :
    (issue o >>= f).wp merchantIdForUid chainId i Q w := by
  refine Discipline.wp_act _ _ (fun x _ => issue_performs h o x suits) fun x _ w' later => ?_
  exact rest x w' later.inv later.evolves

/-- The last statement. -/
theorem wp_issue_last {o : SyncOp} (h : Synced chainId w) (suits : o.Suits chainId w) :
    (issue o).wp merchantIdForUid chainId i (fun _ _ => True) w :=
  Discipline.wp_act _ _ (fun x _ => issue_performs h o x suits) fun _ _ _ _ => trivial

theorem wp_saveUser (h : Synced chainId w) (uid : Uid) (wallet : Option Address) :
    (saveUser uid wallet).wp merchantIdForUid chainId i (fun _ _ => True) w := by
  refine Discipline.wp_mono _ _ (Discipline.wp_of_uses _ _ (P := fun o =>
    o = .inr .scheduleEventJob ∨ o = .inr (.upsertUser uid wallet) ∨ o = .inr .wakePaymentsSync)
    ?_ ?_ h) fun _ _ _ => trivial
  · rintro o (rfl | rfl | rfl) x w' - hw' -
    · exact issue_performs hw' _ x trivial
    · exact issue_performs hw' _ x trivial
    · exact issue_performs hw' _ x trivial
  · unfold saveUser
    cases wallet with
    | none => exact ⟨.inr (.inl rfl), fun _ => trivial⟩
    | some a => exact ⟨.inl rfl, fun _ => ⟨.inr (.inl rfl), fun _ => ⟨.inr (.inr rfl), fun _ => trivial⟩⟩⟩

/-- The rows that are drained are accounts of the history. -/
theorem mem_selectDueAccounts (h : Synced chainId w) {now : Timestamp} {limit : Nat}
    {row : AccountSyncRow} (hrow : row ∈ w.selectDueAccounts now limit) :
    ⟨row.uid, row.accountVersion, row.walletAddress⟩ ∈ w.history := by
  have mem : row ∈ w.outbox :=
    (List.mem_filter.1 (List.mem_mergeSort.1 (List.mem_of_mem_take hrow))).1
  obtain ⟨u, hu, own, wallet, version⟩ := h.outbox row mem
  have current := h.current u hu _ (mem_accountOf.2 ⟨_, wallet, rfl⟩)
  rw [← own, ← version]
  exact current.1

/-- A row is deleted only when a reply has come. -/
theorem wp_drainAccount (h : Synced chainId w) {row : AccountSyncRow}
    (account : ⟨row.uid, row.accountVersion, row.walletAddress⟩ ∈ w.history) :
    (drainAccount chainId row).wp merchantIdForUid chainId i (fun _ _ => True) w := by
  have tells : w.Tells chainId (commandOf chainId row) := ⟨account, rfl, rfl⟩
  have failed : ∀ w' : SyncWorld, Synced chainId w' →
      (issue (.failAccount row.uid (row.attemptCount + 1))).wp merchantIdForUid chainId i
        (fun _ _ => True) w' :=
    fun _ h' => wp_issue_last h' trivial
  refine (Discipline.wp_tryCatch _ _ _ _ _ _).2 ?_
  refine wp_issue h tells fun _ w₁ h₁ _ => ?_
  refine wp_issue h₁ trivial fun x w₂ h₂ grows₂ => ?_
  split
  · rename_i replied
    -- the worker has accepted what is deleted
    have mem : commandOf chainId row ∈ w₁.acknowledged := by
      have both : (x.ok && decide (commandOf chainId row ∈ w₁.acknowledged)) = true := replied
      simp only [Bool.and_eq_true, decide_eq_true_eq] at both
      exact both.2
    have accepted : w₂.Accepted row.uid row.accountVersion :=
      SyncWorld.Accepted.grows (h₁.acknowledged _ mem) grows₂
    refine wp_issue h₂ accepted fun x' w₃ h₃ _ => ?_
    cases (SyncOp.exec (.deleteAccount row.uid row.accountVersion) x' w₂).1 with
    | ok _ => trivial
    | error m => exact failed w₃ h₃
  · exact failed w₂ h₂

theorem wp_drainRows (h : Synced chainId w) {rows : List AccountSyncRow}
    (accounts : ∀ row ∈ rows, ⟨row.uid, row.accountVersion, row.walletAddress⟩ ∈ w.history) :
    (drainRows chainId rows).wp merchantIdForUid chainId i (fun _ _ => True) w := by
  induction rows generalizing w with
  | nil => trivial
  | cons row rows ih =>
    have first : (drainAccount chainId row).wp merchantIdForUid chainId i (fun _ _ => True) w :=
      wp_drainAccount h (accounts row List.mem_cons_self)
    refine Discipline.wp_seq _ _ (Discipline.wp_evolves _ _ h first) (fun _ w' rest => ?_)
      fun _ _ _ => trivial
    obtain ⟨-, h', grows⟩ := rest
    exact ih h' fun r hr => grows.history _ (accounts r (List.mem_cons_of_mem _ hr))

theorem wp_drainAccounts (h : Synced chainId w) (limit : Nat) :
    (drainAccounts chainId limit).wp merchantIdForUid chainId i (fun _ _ => True) w := by
  refine wp_issue h trivial fun x w₁ h₁ grows => ?_
  exact wp_drainRows h₁ fun row hrow => grows.history _ (mem_selectDueAccounts h hrow)

theorem uses_upsertSettlementAccount {c : SettlementAccountCommand} (sent : c ∈ w.sent) :
    (upsertSettlementAccount merchantIdForUid c).Uses fun o => OfSent o w := by
  refine ⟨trivial, fun replay => ?_⟩
  cases (replay : Option Bool) with
  | some applied => trivial
  | none =>
    refine ⟨trivial, fun existing => ⟨sent, fun committed => ?_⟩⟩
    cases (committed : Bool) with
    | true => trivial
    | false => trivial

/-- A command on record is behind the row of its owner. -/
theorem accepted_of_onRecord (h : Synced chainId w) {c : SettlementAccountCommand}
    (sent : c ∈ w.sent) {applied : Bool} (record : OnRecord c.commandId applied w.register) :
    w.Accepted c.ownerUid c.accountVersion := by
  obtain ⟨r, hr, id, -⟩ := record
  obtain ⟨b, hb, same⟩ := h.register.batches r hr
  -- the batch is one of the same account
  obtain ⟨owner, version⟩ : b.command.ownerUid = c.ownerUid ∧
      b.command.accountVersion = c.accountVersion := by
    apply accountCommandId_injective
    rw [← (h.sent c sent).2.1, ← (h.sent _ (h.batches b hb)).2.1, same, id]
  obtain ⟨m, hm, own, le⟩ := h.register.latest.greatest b hb
  exact ⟨m, hm, own.trans owner, version ▸ le⟩

theorem wp_deliverCommand (h : Synced chainId w) (c : SettlementAccountCommand) :
    (deliverCommand merchantIdForUid c).wp merchantIdForUid chainId i (fun _ _ => True) w := by
  refine wp_issue h trivial fun x w₁ h₁ grows₁ => ?_
  split
  · rename_i received
    have sent : c ∈ w.sent := of_decide_eq_true received
    refine wp_issue h₁ trivial fun x' w₂ h₂ grows₂ => ?_
    split
    · split
      · have sent₂ := grows₂.sent c (grows₁.sent c sent)
        have alone : registerDiscipline.wp (registerSystem merchantIdForUid) i
            (upsertSettlementAccount merchantIdForUid c) (AnswersRecord c.commandId) w₂.register :=
          wp_upsertSettlementAccount h₂.register
        have run := Discipline.wp_evolves _ _ h₂ (register_embeds.wp_inl h₂
          (uses_upsertSettlementAccount sent₂) alone)
        refine Discipline.wp_seq _ _ run (fun result w₃ done => ?_) fun _ _ _ => trivial
        obtain ⟨record, h₃, grows₃⟩ := done
        exact wp_issue_last h₃ (accepted_of_onRecord h₃ (grows₃.sent c sent₂) record)
      · trivial
    · trivial
  · trivial

theorem sync_obeys (merchantIdForUid : Uid → MerchantId) (chainId : ChainId) :
    (syncDiscipline chainId).Obeys (syncSystem merchantIdForUid chainId) (fun _ _ => True) where
  env e := e.elim
  call c i w w' _ _ later := by
    cases c with
    | saveUser uid wallet => exact wp_saveUser later.inv uid wallet
    | drain limit => exact wp_drainAccounts later.inv limit
    | deliver command => exact wp_deliverCommand later.inv command

theorem initial_synced : Synced chainId .initial where
  register := initial_recorded
  current _ h := absurd h (Table.not_mem_empty _)
  past _ h := absurd h List.not_mem_nil
  once _ h := absurd h List.not_mem_nil
  outbox _ h := absurd h (Table.not_mem_empty _)
  sent _ h := absurd h List.not_mem_nil
  batches _ h := absurd h List.not_mem_nil
  acknowledged _ h := absurd h List.not_mem_nil
  handed _ h := absurd h (Table.not_mem_empty _)

end Handlers

/-! ### The result -/

/-- The application and the worker agree on the accounts. -/
structure SyncWorld.Agrees (chainId : ChainId) (w : SyncWorld) : Prop where
  /-- The worker is not ahead of the application. -/
  behind : ∀ m ∈ w.register.merchants, ∃ u ∈ w.users, u.uid = m.ownerUid ∧
    m.accountVersion ≤ u.settlementAccountVersion
  /-- What it has is the wallet that the application had at that version, and that is one. -/
  had : ∀ m ∈ w.register.merchants, ∀ wallet,
    ⟨m.ownerUid, m.accountVersion, wallet⟩ ∈ w.history ↔ wallet = m.settlementWallet
  /-- A user who is not in the outbox has the same account on both sides. -/
  current : ∀ u ∈ w.users, ∀ wallet, u.walletAddress = some wallet →
    (∀ r ∈ w.outbox, r.uid ≠ u.uid) → ∃ m ∈ w.register.merchants, m.ownerUid = u.uid ∧
      m.settlementWallet = wallet ∧ m.accountVersion = u.settlementAccountVersion ∧
      m.settlementChainId = chainId

theorem Synced.agrees {chainId : ChainId} {w : SyncWorld} (h : Synced chainId w) :
    w.Agrees chainId := by
  have stored : ∀ m ∈ w.register.merchants,
      ⟨m.ownerUid, m.accountVersion, m.settlementWallet⟩ ∈ w.history ∧
        m.settlementChainId = chainId := by
    intro m hm
    obtain ⟨b, hb, owner, wallet, chain, version⟩ := h.register.latest.taken m hm
    obtain ⟨account, -, onChain⟩ := h.sent _ (h.batches b hb)
    rw [owner, wallet, version] at account
    exact ⟨account, chain.symm.trans onChain⟩
  have behind : ∀ m ∈ w.register.merchants, ∃ u ∈ w.users, u.uid = m.ownerUid ∧
      m.accountVersion ≤ u.settlementAccountVersion :=
    fun m hm => h.past _ (stored m hm).1
  refine ⟨behind, fun m hm wallet => ⟨fun had => ?_, ?_⟩, fun u hu wallet taken free => ?_⟩
  · have same := h.once _ had _ (stored m hm).1 rfl rfl
    cases same
    rfl
  · rintro rfl
    exact (stored m hm).1
  · have some : u.walletAddress.isSome = true := by
      rw [taken]
      rfl
    rcases h.handed u hu some with ⟨r, hr, own⟩ | ⟨m, hm, owner, le⟩
    · exact absurd own (free r hr)
    · obtain ⟨u', hu', own, ge⟩ := behind m hm
      obtain rfl := user_eq hu hu' (owner.symm.trans own.symm)
      have version := Nat.le_antisymm ge le
      have account := (h.current u hu _ (mem_accountOf.2 ⟨wallet, taken, rfl⟩)).1
      have same := h.once _ account _ (stored m hm).1 owner.symm version.symm
      refine ⟨m, hm, owner, ?_, version, (stored m hm).2⟩
      exact (congrArg Account.wallet same).symm

/-- In every run of saves, drains and deliveries, in any order and with any losses,
duplicates and delays of messages, the two sides agree. -/
theorem accounts_agree (merchantIdForUid : Uid → MerchantId) (chainId : ChainId)
    (ls : SyncSchedule) :
    ((syncSystem merchantIdForUid chainId).run .initial ls).world.Agrees chainId := by
  have sound := Discipline.pool_sound (sync_obeys merchantIdForUid chainId) initial_synced
    (System.along_any _ _ ls)
  exact sound.inv.agrees

end ParmeliaLinks.Accounts
