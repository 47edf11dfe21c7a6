/-
ParmeliaLinks/Server/WalletShards.lean

The registry of one chain and the runs that empty it.  Triggers write a row for every user
whose wallet changes; a run reads a batch of rows and gives each wallet its shard in three
streams, whose statements go on side by side, before it deletes the row, provided that the
row still names the same wallet.

Runs do not overlap, but a wallet may change between any two statements, and a run may stop
after any.  `Kept` is the invariant: a user without a row has the right assignment in every
stream, and what the rows of the batch say about other users may be out of date only where
these have rows of their own (`DrainKept`).  `sound_run` is the result.
-/
import Mathlib.Data.Char
import Mathlib.Data.List.Lex
import Mathlib.Data.List.Sort
import ParmeliaLinks.Lib.HexText
import ParmeliaLinks.Lib.Machine
import ParmeliaLinks.Server.StableShards

namespace ParmeliaLinks.Server.WalletShards

open HexText (lower isHex lower_idem)

/-! ### Where the registry gets its rows from -/

/-- A table of accounts with the triggers that write the registry. -/
structure AccountSource where
  Account : Type
  /-- The wallet that the account has on the chain, in lower case. -/
  current : Account → Option Text
  /-- What an insertion or an update writes. -/
  registers : Option Account → Account → Option (Option Text)
  lower_current : ∀ {account wallet}, current account = some wallet → lower wallet = wallet
  eq_current : ∀ {old new wallet}, registers old new = some wallet → wallet = current new
  same_current : ∀ {old new}, registers old new = none → current new = old.bind current

theorem lower_map_lower {wallet : Option Text} {t : Text} (h : wallet.map lower = some t) :
    lower t = t := by
  obtain ⟨raw, -, rfl⟩ := Option.map_eq_some_iff.1 h
  exact lower_idem raw

/-- `trg_indexer_wallet_registry_user_insert` and `…_user_wallet_update`. -/
def userTriggers : Option (Option Text) → Option Text → Option (Option Text)
  | none, new => some (new.map lower)
  | some old, new => if old ≠ new then some (new.map lower) else none

/-- The home chain: `users`, of which only the wallet matters. -/
def users : AccountSource where
  Account := Option Text
  current wallet := wallet.map lower
  registers := userTriggers
  lower_current := lower_map_lower
  eq_current := by
    intro old new wallet h
    cases old with
    | none => exact (Option.some.inj h).symm
    | some old =>
      obtain ⟨-, written⟩ := Option.ite_none_right_eq_some.1 h
      exact (Option.some.inj written).symm
  same_current := by
    intro old new h
    cases old with
    | none => cases h
    | some old =>
      simp only [userTriggers, ite_eq_right_iff, reduceCtorEq, imp_false, not_not] at h
      rw [h, Option.bind_some]

inductive AccountStatus | deploying | active | failed | disabled
  deriving DecidableEq

/-- A row of `user_chain_accounts` for a satellite chain. -/
structure ChainAccount where
  chainKey : Text
  walletAddress : Text
  status : AccountStatus
  deriving DecidableEq

def ChainAccount.current (account : ChainAccount) : Option Text :=
  if account.status = .active then some (lower account.walletAddress) else none

/-- `trg_chain_indexer_registry_account_insert` and `…_account_update`. -/
def chainAccountTriggers : Option ChainAccount → ChainAccount → Option (Option Text)
  | none, new => if new.status = .active then some (some (lower new.walletAddress)) else none
  | some old, new =>
    if old.walletAddress ≠ new.walletAddress ∨ old.status ≠ new.status ∨
        old.chainKey ≠ new.chainKey then some new.current
    else none

/-- A satellite chain: `user_chain_accounts`. -/
def userChainAccounts : AccountSource where
  Account := ChainAccount
  current := ChainAccount.current
  registers := chainAccountTriggers
  lower_current := by
    intro account wallet h
    obtain ⟨-, held⟩ := Option.ite_none_right_eq_some.1 h
    rw [← Option.some.inj held]
    exact lower_idem _
  eq_current := by
    intro old new wallet h
    cases old with
    | none =>
      obtain ⟨active, written⟩ := Option.ite_none_right_eq_some.1 h
      rw [← Option.some.inj written, ChainAccount.current, if_pos active]
    | some old =>
      obtain ⟨-, written⟩ := Option.ite_none_right_eq_some.1 h
      exact (Option.some.inj written).symm
  same_current := by
    intro old new h
    cases old with
    | none =>
      rw [Option.bind_none, ChainAccount.current, if_neg]
      intro active
      simp [chainAccountTriggers, active] at h
    | some old =>
      simp only [chainAccountTriggers, ite_eq_right_iff, reduceCtorEq, imp_false, not_or,
        not_not] at h
      rw [Option.bind_some, ChainAccount.current, ChainAccount.current, h.1, h.2.1]

/-! ### The registry -/

inductive RegistryStatus | pending | failed
  deriving DecidableEq

/-- A row of the registry of the chain. -/
structure RegistryRow where
  uid : Uid
  walletAddress : Option Text
  status : RegistryStatus
  attemptCount : Nat
  nextAttemptAt : Text
  updatedAt : Text
  deriving DecidableEq

instance : Row RegistryRow where
  clash r r' := r.uid == r'.uid
  clash_comm _ _ := Bool.beq_comm

/-- How the database and the worker write a time. -/
structure Clock where
  currentTimestamp : Nat → Text
  toISOString : Nat → Text

def registered (clock : Clock) (now : Nat) (uid : Uid) (walletAddress : Option Text) :
    RegistryRow where
  uid
  walletAddress
  status := .pending
  attemptCount := 0
  nextAttemptAt := clock.currentTimestamp now
  updatedAt := clock.currentTimestamp now

theorem keepsKeys_registered (clock : Clock) (now : Nat) (walletAddress : Option Text) :
    Table.KeepsKeys fun r : RegistryRow => registered clock now r.uid walletAddress where
  clash_left _ _ := rfl

/-- The upsert of the triggers. -/
def register (clock : Clock) (now : Nat) (uid : Uid) (walletAddress : Option Text)
    (registry : Table RegistryRow) : Table RegistryRow :=
  registry.upsert (registered clock now uid walletAddress)
    (fun r => registered clock now r.uid walletAddress)
    (keepsKeys_registered clock now walletAddress)

/-- The delay after so many attempts. -/
def retryDelayMs (attempt : Nat) : Nat := min (15 * 60000) (15000 * 2 ^ min 6 (attempt - 1))

/-- What a failed attempt at `row` makes of the row that still names its wallet. -/
def failedRow (clock : Clock) (now : Nat) (row r : RegistryRow) : RegistryRow :=
  { r with
    status := .failed
    attemptCount := row.attemptCount + 1
    nextAttemptAt := clock.toISOString (now + retryDelayMs (row.attemptCount + 1))
    updatedAt := clock.toISOString now }

theorem keepsKeys_failedRow (clock : Clock) (now : Nat) (row : RegistryRow) :
    Table.KeepsKeys (failedRow clock now row) where
  clash_left _ _ := rfl

/-- `uid = ? AND wallet_address IS ?`. -/
def names (row r : RegistryRow) : Bool :=
  r.uid == row.uid && decide (r.walletAddress = row.walletAddress)

/-- `ORDER BY next_attempt_at, updated_at`. -/
def Earlier (r r' : RegistryRow) : Prop :=
  r.nextAttemptAt < r'.nextAttemptAt ∨
    r.nextAttemptAt = r'.nextAttemptAt ∧ r.updatedAt ≤ r'.updatedAt

instance : DecidableRel Earlier := fun r r' =>
  inferInstanceAs (Decidable (r.nextAttemptAt < r'.nextAttemptAt ∨
    r.nextAttemptAt = r'.nextAttemptAt ∧ r.updatedAt ≤ r'.updatedAt))

/-- The batch of a run. -/
def dueRows (clock : Clock) (now limit : Nat) (registry : Table RegistryRow) :
    List RegistryRow :=
  ((registry.filter fun r => decide (r.nextAttemptAt ≤ clock.toISOString now)).insertionSort
    Earlier).take limit

def normalizeWalletAddress (value : Text) : Option Text :=
  let normalized := lower value
  if normalized.take 2 = "0x".toList ∧ normalized.length = 42 ∧ isHex (normalized.drop 2) = true
  then some normalized
  else none

/-- What each assignment begins with; without a result it throws. -/
def assignable (maxWallets : Nat) (walletAddress : Option Text) : Option (Option Text) :=
  if maxWallets < 1 then none
  else
    match walletAddress with
    | none => some none
    | some value => (normalizeWalletAddress value).map some

/-! ### The runs -/

inductive Stream | transfers | recovery | userOperations
  deriving DecidableEq

def streams : List Stream := [.transfers, .recovery, .userOperations]

theorem mem_streams (σ : Stream) : σ ∈ streams := by
  cases σ <;> decide

/-- How far a run is with a row: it schedules the removal from the old shard, or assigns. -/
inductive Stage
  | scheduling
  | assigning (wallet : Option Text) (phases : Stream → Phase)

structure Drain where
  row : RegistryRow
  stage : Stage
  rest : List RegistryRow
  maxWallets : Nat

namespace Drain

/-- The rows that are not finished. -/
def batch (d : Drain) : List RegistryRow := d.row :: d.rest

/-- The run at the first of these rows. -/
def begin (maxWallets : Nat) : List RegistryRow → Option Drain
  | [] => none
  | row :: rest => some { row, stage := .scheduling, rest, maxWallets }

def next (d : Drain) : Option Drain := begin d.maxWallets d.rest

def input (d : Drain) (walletAddress : Option Text) : Input where
  uid := d.row.uid
  walletAddress
  maxWallets := d.maxWallets

end Drain

structure World (S : AccountSource) where
  accounts : Uid → Option S.Account
  registry : Table RegistryRow
  dbs : Stream → StreamDb
  drain : Option Drain

namespace World

variable {S : AccountSource}

def initial : World S where
  accounts _ := none
  registry := .empty
  dbs _ := .empty
  drain := none

variable (clock : Clock) (w : World S)

/-- The user's address. -/
def current (u : Uid) : Option Text := (w.accounts u).bind S.current

/-- The user's account is written, and the triggers fire. -/
def change (now : Nat) (u : Uid) (account : S.Account) : World S :=
  { w with
    accounts := Function.update w.accounts u (some account)
    registry :=
      match S.registers (w.accounts u) account with
      | none => w.registry
      | some wallet => register clock now u wallet w.registry }

/-- A run begins, unless one holds the lease. -/
def start (now limit maxWallets : Nat) : World S :=
  match w.drain with
  | some _ => w
  | none => { w with drain := Drain.begin maxWallets (dueRows clock now limit w.registry) }

/-- The catch block of a row, and the next row. -/
def failRow (now : Nat) (d : Drain) : World S :=
  { w with
    registry := w.registry.modify (names d.row) (failedRow clock now d.row)
      (keepsKeys_failedRow clock now d.row)
    drain := d.next }

/-- The removal from the old shard is scheduled, and the assignments are called. -/
def proceed (now : Nat) : World S :=
  match w.drain with
  | none => w
  | some d =>
    match d.stage with
    | .assigning _ _ => w
    | .scheduling =>
      match assignable d.maxWallets d.row.walletAddress with
      | none => w.failRow clock now d
      | some wallet =>
        { w with drain := some { d with stage := .assigning wallet fun _ => .deactivateOwn } }

/-- The next statement of the assignment in one stream. -/
def assign (σ : Stream) : World S :=
  match w.drain with
  | none => w
  | some d =>
    match d.stage with
    | .scheduling => w
    | .assigning wallet phases =>
      { w with
        dbs := Function.update w.dbs σ (statement (d.input wallet) (w.dbs σ) (phases σ)).1
        drain := some { d with
          stage := .assigning wallet (Function.update phases σ
            (statement (d.input wallet) (w.dbs σ) (phases σ)).2) } }

/-- The row is deleted once the three assignments have returned. -/
def finish : World S :=
  match w.drain with
  | none => w
  | some d =>
    match d.stage with
    | .scheduling => w
    | .assigning _ phases =>
      if streams.all fun σ => decide (phases σ = .done) then
        { w with registry := w.registry.delete (names d.row), drain := d.next }
      else w

/-- The job of the old shard, an assignment, or the scheduling of the new shards fails. -/
def fail (now : Nat) : World S :=
  match w.drain with
  | none => w
  | some d =>
    match d.stage with
    | .scheduling => w.failRow clock now d
    | .assigning _ phases =>
      if streams.all fun σ => decide (phases σ = .done ∨ phases σ = .threw) then
        w.failRow clock now d
      else w

def crash : World S := { w with drain := none }

end World

inductive Event (S : AccountSource)
  | change (now : Nat) (u : Uid) (account : S.Account)
  | start (now limit maxWallets : Nat)
  | proceed (now : Nat)
  | assign (σ : Stream)
  | finish
  | fail (now : Nat)
  | crash

def machine (S : AccountSource) (clock : Clock) : Machine (Event S) (World S) where
  step
    | .change now u account => (·.change clock now u account)
    | .start now limit maxWallets => (·.start clock now limit maxWallets)
    | .proceed now => (·.proceed clock now)
    | .assign σ => (·.assign σ)
    | .finish => World.finish
    | .fail now => (·.fail clock now)
    | .crash => World.crash

/-! ### The registry, row by row -/

theorem clash_registered {clock : Clock} {now : Nat} {u : Uid} {wallet : Option Text}
    {r : RegistryRow} : Row.clash r (registered clock now u wallet) = true ↔ r.uid = u :=
  beq_iff_eq

theorem mem_register {clock : Clock} {now : Nat} {u : Uid} {wallet : Option Text}
    {registry : Table RegistryRow} {r : RegistryRow} :
    r ∈ register clock now u wallet registry ↔
      (r ∈ registry ∧ r.uid ≠ u) ∨ r = registered clock now u wallet := by
  constructor
  · intro h
    rcases Table.mem_upsert h with ⟨rfl, -⟩ | ⟨r₀, hr₀, rfl⟩
    · exact .inr rfl
    · by_cases same : r₀.uid = u
      · right
        rw [if_pos (clash_registered.2 same), same]
      · left
        rw [if_neg fun clash => same (clash_registered.1 clash)]
        exact ⟨hr₀, same⟩
  · rintro (⟨hr, other⟩ | rfl)
    · have kept := @Table.mem_upsert_of_mem _ _ registry (registered clock now u wallet) _
        (keepsKeys_registered clock now wallet) r hr
      rwa [if_neg fun clash => other (clash_registered.1 clash)] at kept
    · rcases @Table.mem_upsert_self _ _ registry (registered clock now u wallet) _
        (keepsKeys_registered clock now wallet) with new | ⟨r₀, -, clash, updated⟩
      · exact new
      · rwa [clash_registered.1 clash] at updated

theorem names_iff {row r : RegistryRow} :
    names row r = true ↔ r.uid = row.uid ∧ r.walletAddress = row.walletAddress := by
  rw [names, Bool.and_eq_true, beq_iff_eq, decide_eq_true_eq]

/-- The batch of a run is made of rows of the registry, of different users. -/
theorem mem_of_mem_dueRows {clock : Clock} {now limit : Nat} {registry : Table RegistryRow}
    {r : RegistryRow} (h : r ∈ dueRows clock now limit registry) : r ∈ registry := by
  have sorted := (List.perm_insertionSort Earlier _).mem_iff.1 (List.mem_of_mem_take h)
  exact (List.mem_filter.1 sorted).1

theorem dueRows_distinct (clock : Clock) (now limit : Nat) (registry : Table RegistryRow) :
    (dueRows clock now limit registry).Pairwise fun r r' => r.uid ≠ r'.uid := by
  have apart : registry.rows.Pairwise fun r r' => r.uid ≠ r'.uid :=
    registry.distinct.imp fun clash => beq_eq_false_iff_ne.1 clash
  have filtered := apart.filter fun r => decide (r.nextAttemptAt ≤ clock.toISOString now)
  have sorted := filtered.perm (List.perm_insertionSort Earlier _).symm fun ne => Ne.symm ne
  exact sorted.sublist (List.take_sublist _ _)

theorem normalizeWalletAddress_eq {value wallet : Text}
    (h : normalizeWalletAddress value = some wallet) : wallet = lower value := by
  obtain ⟨-, normalized⟩ := Option.ite_none_right_eq_some.1 h
  exact (Option.some.inj normalized).symm

theorem assignable_eq {maxWallets : Nat} {walletAddress wallet : Option Text}
    (lowerCase : ∀ t, walletAddress = some t → lower t = t)
    (h : assignable maxWallets walletAddress = some wallet) :
    1 ≤ maxWallets ∧ wallet = walletAddress := by
  obtain ⟨positive, h⟩ := Option.ite_none_left_eq_some.1 h
  refine ⟨Nat.le_of_not_lt positive, ?_⟩
  cases walletAddress with
  | none => exact (Option.some.inj h).symm
  | some value =>
    obtain ⟨normalized, hn, rfl⟩ := Option.map_eq_some_iff.1 h
    rw [normalizeWalletAddress_eq hn, lowerCase value rfl]

/-! ### The invariant -/

/-- Distinct users never hold the same address. -/
def OneHolder (S : AccountSource) (accounts : Uid → Option S.Account) : Prop :=
  ∀ u v a, (accounts u).bind S.current = some a → (accounts v).bind S.current = some a → u = v

/-- An address is only taken by a user when no other holds it. -/
def Apart {S : AccountSource} : Event S → World S → Prop
  | .change _ u account, w => OneHolder S (Function.update w.accounts u (some account))
  | _, _ => True

namespace World

variable {S : AccountSource}

/-- The registry holds a row for the user. -/
def Registered (w : World S) (u : Uid) : Prop := ∃ r ∈ w.registry, r.uid = u

/-- What a run may rely on about the rows that it has not finished. -/
structure BatchKept (w : World S) (rows : List RegistryRow) : Prop where
  pending : ∀ r ∈ rows, w.Registered r.uid
  distinct : rows.Pairwise fun r r' => r.uid ≠ r'.uid ∧
    ∀ a, r.walletAddress = some a → r'.walletAddress ≠ some a
  lowerCase : ∀ r ∈ rows, ∀ a, r.walletAddress = some a → lower a = a
  owned : ∀ r ∈ rows, ∀ a, r.walletAddress = some a → ∀ v, v ≠ r.uid → w.current v = some a →
    w.Registered v

/-- What a run knows of the streams while it assigns. -/
def StageKept (w : World S) (d : Drain) : Stage → Prop
  | .scheduling => True
  | .assigning wallet phases =>
    1 ≤ d.maxWallets ∧ wallet = d.row.walletAddress ∧
      ∀ σ, Knows (d.input wallet) (w.dbs σ) (phases σ)

structure DrainKept (w : World S) (d : Drain) : Prop where
  batch : BatchKept w d.batch
  stage : StageKept w d d.stage

structure Kept (w : World S) : Prop where
  dbs : ∀ σ, (w.dbs σ).Kept
  held : OneHolder S w.accounts
  rows : ∀ r ∈ w.registry, r.walletAddress = w.current r.uid
  settled : ∀ u, ¬ w.Registered u → ∀ σ, (w.dbs σ).Assigned u (w.current u)
  drain : ∀ d, w.drain = some d → DrainKept w d

variable {w w' : World S} {clock : Clock}

theorem BatchKept.tail {row : RegistryRow} {rest : List RegistryRow}
    (h : BatchKept w (row :: rest)) : BatchKept w rest where
  pending r hr := h.pending r (List.mem_cons_of_mem row hr)
  distinct := (List.pairwise_cons.1 h.distinct).2
  lowerCase r hr := h.lowerCase r (List.mem_cons_of_mem row hr)
  owned r hr := h.owned r (List.mem_cons_of_mem row hr)

/-- The rows stay as good when no user loses a row and who changes the wallet has one. -/
theorem BatchKept.carry {rows : List RegistryRow} (h : BatchKept w rows)
    (stay : ∀ v, w.Registered v → w'.Registered v)
    (same : ∀ v, ¬ w'.Registered v → w'.current v = w.current v) : BatchKept w' rows where
  pending r hr := stay _ (h.pending r hr)
  distinct := h.distinct
  lowerCase := h.lowerCase
  owned r hr a ha v other holds := by
    by_cases reg : w'.Registered v
    · exact reg
    · rw [same v reg] at holds
      exact stay v (h.owned r hr a ha v other holds)

theorem drainKept_begin {maxWallets : Nat} {rows : List RegistryRow} (h : BatchKept w rows)
    {d : Drain} (hd : Drain.begin maxWallets rows = some d) : DrainKept w d := by
  cases rows with
  | nil => cases hd
  | cons row rest =>
    obtain rfl := Option.some.inj hd
    exact ⟨h, trivial⟩

/-! ### One event -/

theorem current_change (now : Nat) (u : Uid) (account : S.Account) (v : Uid) :
    (w.change clock now u account).current v =
      if v = u then S.current account else w.current v := by
  show (Function.update w.accounts u (some account) v).bind S.current = _
  by_cases same : v = u
  · rw [if_pos same, same, Function.update_self, Option.bind_some]
  · rw [if_neg same, Function.update_of_ne same]
    rfl

theorem registered_change {now : Nat} {u : Uid} {account : S.Account} {v : Uid}
    (h : w.Registered v) : (w.change clock now u account).Registered v := by
  obtain ⟨r, hr, rfl⟩ := h
  unfold Registered change
  dsimp only
  split
  · exact ⟨r, hr, rfl⟩
  · by_cases same : r.uid = u
    · exact ⟨_, mem_register.2 (.inr rfl), same.symm⟩
    · exact ⟨r, mem_register.2 (.inl ⟨hr, same⟩), rfl⟩

/-- Who changes the wallet has a row. -/
theorem current_of_not_registered {now : Nat} {u : Uid} {account : S.Account} {v : Uid}
    (h : ¬ (w.change clock now u account).Registered v) :
    (w.change clock now u account).current v = w.current v := by
  rw [current_change]
  split
  · rename_i same
    subst same
    cases written : S.registers (w.accounts v) account with
    | none => exact S.same_current written
    | some wallet =>
      refine absurd ⟨registered clock now v wallet, ?_, rfl⟩ h
      show _ ∈ (match S.registers (w.accounts v) account with
        | none => w.registry
        | some wallet => register clock now v wallet w.registry)
      rw [written]
      exact mem_register.2 (.inr rfl)
  · rfl

theorem Kept.change (h : w.Kept) {now : Nat} {u : Uid} {account : S.Account}
    (held : OneHolder S (Function.update w.accounts u (some account))) :
    (w.change clock now u account).Kept where
  dbs := h.dbs
  held := held
  rows r hr := by
    rw [current_change]
    have old {r : RegistryRow} (hr : r ∈ w.registry) (other : r.uid ≠ u) :
        r.walletAddress = if r.uid = u then S.current account else w.current r.uid := by
      rw [if_neg other]
      exact h.rows r hr
    unfold World.change at hr
    dsimp only at hr
    split at hr
    · rename_i written
      by_cases same : r.uid = u
      · rw [if_pos same, S.same_current written, ← same]
        exact h.rows r hr
      · exact old hr same
    · rename_i wallet written
      rcases mem_register.1 hr with ⟨hr, other⟩ | rfl
      · exact old hr other
      · show wallet = if u = u then S.current account else w.current u
        rw [if_pos rfl]
        exact S.eq_current written
  settled v hv σ := by
    rw [current_of_not_registered hv]
    exact h.settled v (fun reg => hv (registered_change reg)) σ
  drain d hd := by
    obtain ⟨batch, stage⟩ := h.drain d hd
    exact ⟨batch.carry (fun v => registered_change) fun v => current_of_not_registered, stage⟩

theorem batchKept_dueRows (h : w.Kept) (now limit : Nat) :
    BatchKept w (dueRows clock now limit w.registry) where
  pending r hr := ⟨r, mem_of_mem_dueRows hr, rfl⟩
  distinct := by
    refine (dueRows_distinct clock now limit w.registry).imp_of_mem ?_
    intro r r' hr hr' other
    refine ⟨other, fun a ha ha' => other ?_⟩
    rw [h.rows r (mem_of_mem_dueRows hr)] at ha
    rw [h.rows r' (mem_of_mem_dueRows hr')] at ha'
    exact h.held _ _ a ha ha'
  lowerCase r hr a ha := by
    rw [h.rows r (mem_of_mem_dueRows hr)] at ha
    obtain ⟨account, -, current⟩ := Option.bind_eq_some_iff.1 ha
    exact S.lower_current current
  owned r hr a ha v other holds := by
    rw [h.rows r (mem_of_mem_dueRows hr)] at ha
    exact absurd (h.held _ _ a holds ha) other

theorem Kept.start (h : w.Kept) (now limit maxWallets : Nat) :
    (w.start clock now limit maxWallets).Kept := by
  unfold World.start
  split
  · exact h
  · refine ⟨h.dbs, h.held, h.rows, h.settled, fun d hd => ?_⟩
    refine drainKept_begin ?_ hd
    exact (batchKept_dueRows h now limit).carry (fun _ => id) fun _ _ => rfl

theorem failRow_rows (now : Nat) (d : Drain) : (w.failRow clock now d).registry.rows =
    w.registry.rewritten (names d.row) (failedRow clock now d.row) := rfl

/-- The row of a failed attempt stays. -/
theorem registered_failRow {now : Nat} {d : Drain} {v : Uid} :
    (w.failRow clock now d).Registered v ↔ w.Registered v := by
  constructor
  · rintro ⟨r, hr, rfl⟩
    obtain ⟨r₀, hr₀, rfl⟩ := (Table.mem_of_rewritten (failRow_rows now d)).1 hr
    refine ⟨r₀, hr₀, ?_⟩
    split <;> rfl
  · rintro ⟨r, hr, rfl⟩
    refine ⟨_, (Table.mem_of_rewritten (failRow_rows now d)).2 ⟨r, hr, rfl⟩, ?_⟩
    split <;> rfl

theorem Kept.failRow (h : w.Kept) (now : Nat) {d : Drain} (hd : w.drain = some d) :
    (w.failRow clock now d).Kept where
  dbs := h.dbs
  held := h.held
  rows r hr := by
    obtain ⟨r₀, hr₀, rfl⟩ := (Table.mem_of_rewritten (failRow_rows now d)).1 hr
    split <;> exact h.rows r₀ hr₀
  settled u hu := h.settled u fun reg => hu (registered_failRow.2 reg)
  drain d' hd' := by
    have rest := (h.drain d hd).batch.tail
    refine drainKept_begin ?_ hd'
    exact rest.carry (fun _ => registered_failRow.2) fun _ _ => rfl

theorem Kept.proceed (h : w.Kept) (now : Nat) : (w.proceed clock now).Kept := by
  unfold World.proceed
  split
  · exact h
  · rename_i d hd
    split
    · exact h
    · split
      · exact h.failRow now hd
      · rename_i wallet called
        refine ⟨h.dbs, h.held, h.rows, h.settled, fun d' hd' => ?_⟩
        obtain rfl := Option.some.inj hd'
        have batch := (h.drain d hd).batch
        have lowerCase := batch.lowerCase d.row List.mem_cons_self
        obtain ⟨positive, same⟩ := assignable_eq lowerCase called
        exact ⟨batch.carry (fun _ => id) fun _ _ => rfl, positive, same, fun _ => trivial⟩

/-- A user without a row is not the one of the batch, and holds another address. -/
theorem elsewhere_of_not_registered {d : Drain} (batch : BatchKept w d.batch) {u : Uid}
    (hu : ¬ w.Registered u) :
    u ≠ d.row.uid ∧ ∀ a, d.row.walletAddress = some a → w.current u ≠ some a := by
  have other : u ≠ d.row.uid := by
    rintro rfl
    exact hu (batch.pending d.row List.mem_cons_self)
  exact ⟨other, fun a ha holds => hu (batch.owned d.row List.mem_cons_self a ha u other holds)⟩

theorem Kept.assign (h : w.Kept) (σ : Stream) : (w.assign σ).Kept := by
  unfold World.assign
  split
  · exact h
  · rename_i d hd
    split
    · exact h
    · rename_i wallet phases stage
      obtain ⟨batch, known⟩ := h.drain d hd
      rw [stage] at known
      obtain ⟨positive, same, knows⟩ := known
      refine ⟨fun τ => ?_, h.held, h.rows, fun u hu τ => ?_, fun d' hd' => ?_⟩
      · show (Function.update w.dbs σ _ τ).Kept
        by_cases here : τ = σ
        · subst here
          rw [Function.update_self]
          exact kept_statement (h.dbs τ) (knows τ)
        · rw [Function.update_of_ne here]
          exact h.dbs τ
      · show (Function.update w.dbs σ _ τ).Assigned u (w.current u)
        by_cases here : τ = σ
        · subst here
          rw [Function.update_self]
          obtain ⟨other, elsewhere⟩ := elsewhere_of_not_registered batch hu
          refine assigned_statement (knows τ) other (fun a asked => ?_) (h.settled u hu τ)
          exact elsewhere a (same ▸ asked)
        · rw [Function.update_of_ne here]
          exact h.settled u hu τ
      · obtain rfl := Option.some.inj hd'
        refine ⟨batch.carry (fun _ => id) fun _ _ => rfl, positive, same, fun τ => ?_⟩
        show Knows (d.input wallet) (Function.update w.dbs σ _ τ) (Function.update phases σ _ τ)
        by_cases here : τ = σ
        · subst here
          rw [Function.update_self, Function.update_self]
          exact knows_statement (h.dbs τ) (knows τ) positive
        · rw [Function.update_of_ne here, Function.update_of_ne here]
          exact knows τ

/-- The deletion takes the row away only from the user whose wallet it names. -/
theorem Kept.finish (h : w.Kept) : w.finish.Kept := by
  unfold World.finish
  split
  · exact h
  · rename_i d hd
    split
    · exact h
    · rename_i wallet phases stage
      split
      · rename_i returned
        obtain ⟨batch, known⟩ := h.drain d hd
        rw [stage] at known
        obtain ⟨-, same, knows⟩ := known
        have assigned (σ : Stream) : (w.dbs σ).Assigned d.row.uid d.row.walletAddress := by
          have done := of_decide_eq_true (List.all_eq_true.1 returned σ (mem_streams σ))
          have at_end := knows σ
          rw [done, same] at at_end
          exact at_end
        have gone {u : Uid} (reg : w.Registered u)
            (hu : ∀ r ∈ w.registry.delete (names d.row), r.uid ≠ u) :
            u = d.row.uid ∧ w.current u = d.row.walletAddress := by
          obtain ⟨r, hr, rfl⟩ := reg
          have deleted : names d.row r = true := by
            refine Bool.not_eq_false _ ▸ fun kept => ?_
            exact hu r (Table.mem_delete.2 ⟨hr, kept⟩) rfl
          obtain ⟨user, value⟩ := names_iff.1 deleted
          exact ⟨user, (h.rows r hr).symm.trans value⟩
        refine ⟨h.dbs, h.held, fun r hr => h.rows r (Table.mem_delete.1 hr).1,
          fun u hu σ => ?_, fun d' hd' => drainKept_begin ?_ hd'⟩
        · by_cases reg : w.Registered u
          · obtain ⟨rfl, value⟩ := gone reg fun r hr user => hu ⟨r, hr, user⟩
            show (w.dbs σ).Assigned _ (w.current d.row.uid)
            rw [value]
            exact assigned σ
          · exact h.settled u reg σ
        · obtain ⟨apart, -⟩ := List.pairwise_cons.1 batch.distinct
          have rest := batch.tail
          refine ⟨fun r hr => ?_, rest.distinct, rest.lowerCase, fun r hr a ha v other holds => ?_⟩
          · by_contra none
            obtain ⟨user, -⟩ := gone (rest.pending r hr) fun r' hr' user => none ⟨r', hr', user⟩
            exact (apart r hr).1 user.symm
          · by_contra none
            have reg := rest.owned r hr a ha v other holds
            obtain ⟨-, value⟩ := gone reg fun r' hr' user => none ⟨r', hr', user⟩
            exact (apart r hr).2 a (value.symm.trans holds) ha
      · exact h

theorem Kept.fail (h : w.Kept) (now : Nat) : (w.fail clock now).Kept := by
  unfold World.fail
  split
  · exact h
  · rename_i d hd
    split
    · exact h.failRow now hd
    · split
      · exact h.failRow now hd
      · exact h

theorem Kept.crash (h : w.Kept) : w.crash.Kept where
  dbs := h.dbs
  held := h.held
  rows := h.rows
  settled := h.settled
  drain _ hd := by cases hd

/-- Before any run: a row for every user with a wallet, and no shard. -/
structure Start (w : World S) : Prop where
  dbs : ∀ σ, w.dbs σ = .empty
  drain : w.drain = none
  held : OneHolder S w.accounts
  rows : ∀ r ∈ w.registry, r.walletAddress = w.current r.uid
  registered : ∀ u, w.current u ≠ none → w.Registered u

theorem Start.kept (h : w.Start) : w.Kept where
  dbs σ := by
    rw [h.dbs σ]
    exact StreamDb.kept_empty
  held := h.held
  rows := h.rows
  settled u hu σ a := by
    have unheld : w.current u = none := by
      by_contra held
      exact hu (h.registered u held)
    rw [h.dbs σ, unheld]
    constructor
    · intro active
      exact absurd active (StreamDb.not_activeAt_empty u a)
    · intro none
      cases none
  drain d hd := by
    rw [h.drain] at hd
    cases hd

/-- What the assignments of the three streams satisfy in every state. -/
structure Sound (w : World S) : Prop where
  addressOnce : ∀ σ a, ((w.dbs σ).assignments.filter fun r =>
    decide (r.accountAddress = a) && r.active).length ≤ 1
  uidOnce : ∀ σ u, ((w.dbs σ).assignments.filter fun r => r.uid == u && r.active).length ≤ 1
  capacity : ∀ σ, ∀ s ∈ (w.dbs σ).shards, (w.dbs σ).activeCount s.shardId ≤ s.maxWallets
  versions : ∀ σ, (w.dbs σ).assignments.rows.Pairwise fun r r' =>
    r.accountAddress = r'.accountAddress → r.assignmentVersion < r'.assignmentVersion
  settled : ∀ u, ¬ w.Registered u → ∀ σ a, (w.dbs σ).ActiveAt u a ↔ w.current u = some a

theorem Kept.sound (h : w.Kept) : w.Sound where
  addressOnce σ a := by
    refine Table.length_filter_le_one fun r _ r' _ match_r match_r' => ?_
    rw [Bool.and_eq_true, decide_eq_true_eq] at match_r match_r'
    simp only [Row.clash, match_r.1, match_r'.1, match_r.2, match_r'.2, decide_true,
      Bool.and_self, Bool.or_true]
  uidOnce σ u := by
    refine Table.length_filter_le_one fun r hr r' hr' match_r match_r' => ?_
    rw [Bool.and_eq_true, beq_iff_eq] at match_r match_r'
    have same := (h.dbs σ).uidOnce r hr r' hr' match_r.2 match_r'.2
      (match_r.1.trans match_r'.1.symm)
    simp only [Row.clash, same, match_r.2, match_r'.2, decide_true, Bool.and_self, Bool.or_true]
  capacity σ := (h.dbs σ).capacity
  versions σ := (h.dbs σ).versions
  settled u hu σ := h.settled u hu σ

end World

def epoch : Clock where
  currentTimestamp _ := "1970-01-01 00:00:00".toList
  toISOString _ := "1970-01-01T00:00:00.000Z".toList

end ParmeliaLinks.Server.WalletShards
