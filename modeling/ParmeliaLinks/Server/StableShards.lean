/-
ParmeliaLinks/Server/StableShards.lean

The wallets of one stream of one chain, spread over shards of bounded size.
`assignWalletToStableShard` assigns one wallet by up to seven statements, each of which
is committed by itself; `Phase` says which one is next and what the ones before it have
read, and `statement` is one of them.

`Kept` is what holds between any two statements: a user has one active wallet, no shard
is over its bound, every assignment is in a shard that exists, and the versions of an
address rise.  `Knows` is what a call can rely on in each phase, since nobody else writes
these tables while it is under way.  `kept_statement` and `knows_statement` are about one
statement; what it does to the other users is `active_statement`.
-/
import Mathlib.Data.List.Basic
import ParmeliaLinks.Lib.SqlText
import ParmeliaLinks.Lib.Table
import ParmeliaLinks.Server.Schema

namespace ParmeliaLinks.Server.WalletShards

/-! ### The tables -/

inductive ShardStatus | active | draining | retired
  deriving DecidableEq

/-- A row of `indexer_shards` of the stream. -/
structure ShardRow where
  shardId : Nat
  maxWallets : Nat
  status : ShardStatus
  deriving DecidableEq

instance : Row ShardRow where
  clash r r' := r.shardId == r'.shardId
  clash_comm _ _ := Bool.beq_comm

/-- A row of `indexer_wallet_assignments` of the stream. -/
structure AssignmentRow where
  accountAddress : Text
  uid : Uid
  shardId : Nat
  assignmentVersion : Nat
  active : Bool
  deriving DecidableEq

/-- Primary key and `idx_indexer_wallet_assignment_active`. -/
instance : Row AssignmentRow where
  clash r r' := decide (r.accountAddress = r'.accountAddress) &&
    (r.assignmentVersion == r'.assignmentVersion || (r.active && r'.active))
  clash_comm r r' := by
    simp only [eq_comm (a := r.accountAddress), Bool.beq_comm (a := r.assignmentVersion),
      Bool.and_comm (x := r.active)]

/-- The tables, as far as they are about one stream. -/
structure StreamDb where
  shards : Table ShardRow
  assignments : Table AssignmentRow

namespace StreamDb

def empty : StreamDb := ⟨.empty, .empty⟩

/-- `COUNT(a.account_address)` of a shard. -/
def activeCount (db : StreamDb) (shardId : Nat) : Nat :=
  db.assignments.rows.countP fun r => r.shardId == shardId && r.active

def deactivated (r : AssignmentRow) : AssignmentRow := { r with active := false }

theorem deactivated_freesKeys : Table.FreesKeys deactivated where
  clash_left r r' h := by
    simp only [Row.clash, deactivated, Bool.false_and, Bool.or_false, Bool.and_eq_true] at h ⊢
    exact ⟨h.1, by rw [h.2, Bool.true_or]⟩

/-- `UPDATE indexer_wallet_assignments SET active = 0` for the rows that match. -/
def deactivate (db : StreamDb) (p : AssignmentRow → Bool) : StreamDb :=
  { db with
    assignments := db.assignments.release (fun r => p r && r.active) deactivated
      deactivated_freesKeys }

/-- The shard of the wallet's active assignment to the user. -/
def currentShard (db : StreamDb) (uid : Uid) (wallet : Text) : Option Nat :=
  (db.assignments.find? fun r =>
    decide (r.accountAddress = wallet) && r.uid == uid && r.active).map (·.shardId)

/-- The lowest active shard with room. -/
def shardWithRoom (db : StreamDb) : Option Nat :=
  ((db.shards.filter fun s =>
    decide (s.status = .active) && decide (db.activeCount s.shardId < s.maxWallets)).map
      (·.shardId)).min?

/-- `COALESCE(MAX(shard_id), -1) + 1`. -/
def nextShardId (db : StreamDb) : Nat :=
  match (db.shards.rows.map (·.shardId)).max? with
  | none => 0
  | some shardId => shardId + 1

/-- `COALESCE(MAX(assignment_version), 0)` of an address. -/
def latestVersion (db : StreamDb) (wallet : Text) : Nat :=
  ((db.assignments.filter fun r => decide (r.accountAddress = wallet)).map
    (·.assignmentVersion)).max?.getD 0

end StreamDb

/-! ### One assignment -/

/-- What `assignWalletToStableShard` is called with, the address in lower case. -/
structure Input where
  uid : Uid
  walletAddress : Option Text
  maxWallets : Nat
  deriving DecidableEq

/-- The statement that a call performs next, or how it has ended. -/
inductive Phase
  | deactivateOwn
  | readCurrent (wallet : Text)
  | takeOver (wallet : Text)
  | selectShard (wallet : Text)
  | readMaxShard (wallet : Text)
  | insertShard (wallet : Text) (shardId : Nat)
  | readVersion (wallet : Text) (shardId : Nat)
  | insertAssignment (wallet : Text) (shardId latestVersion : Nat)
  | done
  | threw
  deriving DecidableEq

def insertedShard (input : Input) (shardId : Nat) : ShardRow where
  shardId
  maxWallets := input.maxWallets
  status := .active

def insertedAssignment (input : Input) (wallet : Text) (shardId latestVersion : Nat) :
    AssignmentRow where
  accountAddress := wallet
  uid := input.uid
  shardId
  assignmentVersion := latestVersion + 1
  active := true

/-- One statement of a call.  An insertion that breaks a key makes the call throw. -/
def statement (input : Input) (db : StreamDb) : Phase → StreamDb × Phase
  | .deactivateOwn =>
    (db.deactivate fun r => r.uid == input.uid &&
        input.walletAddress.all fun wallet => decide (r.accountAddress ≠ wallet),
      match input.walletAddress with
      | none => .done
      | some wallet => .readCurrent wallet)
  | .readCurrent wallet =>
    (db,
      match db.currentShard input.uid wallet with
      | some _ => .done
      | none => .takeOver wallet)
  | .takeOver wallet =>
    (db.deactivate fun r => decide (r.accountAddress = wallet), .selectShard wallet)
  | .selectShard wallet =>
    (db,
      match db.shardWithRoom with
      | some shardId => .readVersion wallet shardId
      | none => .readMaxShard wallet)
  | .readMaxShard wallet => (db, .insertShard wallet db.nextShardId)
  | .insertShard wallet shardId =>
    match db.shards.insert (insertedShard input shardId) with
    | some shards => ({ db with shards }, .readVersion wallet shardId)
    | none => (db, .threw)
  | .readVersion wallet shardId =>
    (db, .insertAssignment wallet shardId (db.latestVersion wallet))
  | .insertAssignment wallet shardId latestVersion =>
    match db.assignments.insert (insertedAssignment input wallet shardId latestVersion) with
    | some assignments => ({ db with assignments }, .done)
    | none => (db, .threw)
  | .done => (db, .done)
  | .threw => (db, .threw)

/-! ### What holds between two statements -/

namespace StreamDb

/-- The user has an active assignment of the address. -/
def ActiveAt (db : StreamDb) (uid : Uid) (wallet : Text) : Prop :=
  ∃ r ∈ db.assignments, r.uid = uid ∧ r.accountAddress = wallet ∧ r.active = true

/-- The user's active assignment is exactly this address, or none. -/
def Assigned (db : StreamDb) (uid : Uid) (wallet : Option Text) : Prop :=
  ∀ a, db.ActiveAt uid a ↔ wallet = some a

/-- A shard that has room for one more wallet. -/
def Room (db : StreamDb) (shardId : Nat) : Prop :=
  ∃ s ∈ db.shards, s.shardId = shardId ∧ db.activeCount shardId < s.maxWallets

structure Kept (db : StreamDb) : Prop where
  uidOnce : ∀ r ∈ db.assignments, ∀ r' ∈ db.assignments, r.active = true → r'.active = true →
    r.uid = r'.uid → r.accountAddress = r'.accountAddress
  capacity : ∀ s ∈ db.shards, db.activeCount s.shardId ≤ s.maxWallets
  placed : ∀ r ∈ db.assignments, ∃ s ∈ db.shards, s.shardId = r.shardId
  versions : db.assignments.rows.Pairwise fun r r' =>
    r.accountAddress = r'.accountAddress → r.assignmentVersion < r'.assignmentVersion

theorem kept_empty : empty.Kept where
  uidOnce r hr := absurd hr (Table.not_mem_empty r)
  capacity s hs := absurd hs (Table.not_mem_empty s)
  placed r hr := absurd hr (Table.not_mem_empty r)
  versions := .nil

/-- Nobody has an active assignment in the empty tables. -/
theorem not_activeAt_empty (uid : Uid) (wallet : Text) : ¬ empty.ActiveAt uid wallet := by
  rintro ⟨r, hr, -⟩
  exact Table.not_mem_empty r hr

variable {db : StreamDb}

/-- One address has one active row. -/
theorem eq_of_active {r r' : AssignmentRow} (hr : r ∈ db.assignments) (hr' : r' ∈ db.assignments)
    (on : r.active = true) (on' : r'.active = true)
    (same : r.accountAddress = r'.accountAddress) : r = r' := by
  refine Table.eq_of_clash hr hr' ?_
  simp only [Row.clash, same, on, on', decide_true, Bool.and_self, Bool.or_true]

/-! ### Deactivation -/

section Deactivate

variable {p : AssignmentRow → Bool}

theorem deactivate_rows : (db.deactivate p).assignments.rows =
    db.assignments.rewritten (fun r => p r && r.active) deactivated := rfl

theorem mem_deactivate {r : AssignmentRow} (h : r ∈ (db.deactivate p).assignments) :
    ∃ r₀ ∈ db.assignments, r₀.accountAddress = r.accountAddress ∧ r₀.shardId = r.shardId ∧
      r₀.assignmentVersion = r.assignmentVersion := by
  obtain ⟨r₀, hr₀, rfl⟩ := (Table.mem_of_rewritten deactivate_rows).1 h
  refine ⟨r₀, hr₀, ?_⟩
  split <;> exact ⟨rfl, rfl, rfl⟩

/-- The active rows afterwards are those before that were not matched. -/
theorem active_deactivate {r : AssignmentRow} :
    r ∈ (db.deactivate p).assignments ∧ r.active = true ↔
      (r ∈ db.assignments ∧ r.active = true) ∧ p r = false := by
  rw [Table.mem_and_flag (·.active) deactivate_rows fun _ => rfl]
  refine and_congr_right fun h => ?_
  rw [h.2, Bool.and_true]

theorem activeAt_deactivate {uid : Uid} {wallet : Text} :
    (db.deactivate p).ActiveAt uid wallet ↔
      ∃ r ∈ db.assignments, r.uid = uid ∧ r.accountAddress = wallet ∧ r.active = true ∧
        p r = false := by
  constructor
  · rintro ⟨r, hr, hu, ha, on⟩
    obtain ⟨⟨hr, on⟩, unmatched⟩ := active_deactivate.1 ⟨hr, on⟩
    exact ⟨r, hr, hu, ha, on, unmatched⟩
  · rintro ⟨r, hr, hu, ha, on, unmatched⟩
    obtain ⟨hr, on⟩ := active_deactivate.2 ⟨⟨hr, on⟩, unmatched⟩
    exact ⟨r, hr, hu, ha, on⟩

theorem activeCount_deactivate_le (shardId : Nat) :
    (db.deactivate p).activeCount shardId ≤ db.activeCount shardId := by
  show (db.assignments.rows.map _).countP _ ≤ _
  rw [List.countP_map]
  refine List.countP_mono_left fun r _ counted => ?_
  simp only [Function.comp_apply] at counted
  split at counted
  · simp [deactivated] at counted
  · exact counted

theorem Kept.deactivate (h : db.Kept) : (db.deactivate p).Kept where
  uidOnce r hr r' hr' on on' same := by
    obtain ⟨⟨hr, -⟩, -⟩ := active_deactivate.1 ⟨hr, on⟩
    obtain ⟨⟨hr', -⟩, -⟩ := active_deactivate.1 ⟨hr', on'⟩
    exact h.uidOnce r hr r' hr' on on' same
  capacity s hs := Nat.le_trans (activeCount_deactivate_le s.shardId) (h.capacity s hs)
  placed r hr := by
    obtain ⟨r₀, hr₀, -, shard, -⟩ := mem_deactivate hr
    rw [← shard]
    exact h.placed r₀ hr₀
  versions := by
    refine List.pairwise_map.2 (h.versions.imp fun {r r'} lt => ?_)
    -- a row keeps its address and its version
    split <;> split <;> exact lt

end Deactivate

/-! ### A new shard -/

/-- A shard that does not exist has no active wallet. -/
theorem activeCount_eq_zero (h : db.Kept) {shardId : Nat}
    (fresh : ∀ s ∈ db.shards, s.shardId ≠ shardId) : db.activeCount shardId = 0 := by
  refine List.countP_eq_zero.2 fun r hr counted => ?_
  obtain ⟨s, hs, same⟩ := h.placed r hr
  simp only [Bool.and_eq_true, beq_iff_eq] at counted
  exact fresh s hs (same.trans counted.1)

theorem lt_nextShardId {s : ShardRow} (hs : s ∈ db.shards) : s.shardId < db.nextShardId := by
  have mem : s.shardId ∈ db.shards.rows.map (·.shardId) := List.mem_map_of_mem hs
  unfold nextShardId
  split
  · rename_i none
    rw [List.max?_eq_none_iff.1 none] at mem
    cases mem
  · rename_i shardId largest
    exact Nat.lt_succ_of_le ((List.max?_eq_some_iff.1 largest).2 _ mem)

theorem Kept.insertShard (h : db.Kept) {new : ShardRow} {shards : Table ShardRow}
    (inserted : db.shards.insert new = some shards) : Kept { db with shards } := by
  obtain ⟨rows, fits⟩ := Table.insert_rows inserted
  have fresh : ∀ s ∈ db.shards, s.shardId ≠ new.shardId := fun s hs =>
    beq_eq_false_iff_ne.1 (fits s hs)
  refine ⟨h.uidOnce, fun s hs => ?_, fun r hr => ?_, h.versions⟩
  · rcases (Table.mem_of_rows_append rows).1 hs with old | rfl
    · exact h.capacity s old
    · show db.activeCount s.shardId ≤ s.maxWallets
      rw [activeCount_eq_zero h fresh]
      exact Nat.zero_le _
  · obtain ⟨s, hs, same⟩ := h.placed r hr
    exact ⟨s, (Table.mem_of_rows_append rows).2 (.inl hs), same⟩

/-! ### A new assignment -/

theorem le_latestVersion {r : AssignmentRow} (hr : r ∈ db.assignments) :
    r.assignmentVersion ≤ db.latestVersion r.accountAddress := by
  have mem : r.assignmentVersion ∈
      (db.assignments.filter fun r' => decide (r'.accountAddress = r.accountAddress)).map
        (·.assignmentVersion) :=
    List.mem_map_of_mem (List.mem_filter.2 ⟨hr, decide_eq_true rfl⟩)
  unfold latestVersion
  cases largest : ((db.assignments.filter fun r' =>
      decide (r'.accountAddress = r.accountAddress)).map (·.assignmentVersion)).max? with
  | none =>
    rw [List.max?_eq_none_iff.1 largest] at mem
    cases mem
  | some version => exact (List.max?_eq_some_iff.1 largest).2 _ mem

theorem room_of_shardWithRoom {shardId : Nat} (h : db.shardWithRoom = some shardId) :
    db.Room shardId := by
  obtain ⟨s, hs, rfl⟩ := List.mem_map.1 (List.min?_mem h)
  obtain ⟨hs, room⟩ := List.mem_filter.1 hs
  rw [Bool.and_eq_true, decide_eq_true_eq, decide_eq_true_eq] at room
  exact ⟨s, hs, rfl, room.2⟩

theorem Kept.insertAssignment (h : db.Kept) {new : AssignmentRow}
    {assignments : Table AssignmentRow}
    (inserted : db.assignments.insert new = some assignments)
    (own : ∀ a, ¬ db.ActiveAt new.uid a) (room : db.Room new.shardId)
    (later : ∀ r ∈ db.assignments, r.accountAddress = new.accountAddress →
      r.assignmentVersion < new.assignmentVersion) : Kept { db with assignments } := by
  obtain ⟨rows, -⟩ := Table.insert_rows inserted
  have mem {r : AssignmentRow} : r ∈ assignments ↔ r ∈ db.assignments ∨ r = new :=
    Table.mem_of_rows_append rows
  have count (shardId : Nat) : StreamDb.activeCount { db with assignments } shardId ≤
      db.activeCount shardId + if new.shardId = shardId then 1 else 0 := by
    show assignments.rows.countP _ ≤ _
    rw [rows, List.countP_append, List.countP_singleton]
    refine Nat.add_le_add_left ?_ _
    by_cases here : new.shardId = shardId
    · rw [if_pos here]
      split <;> omega
    · simp [here]
  refine ⟨fun r hr r' hr' on on' same => ?_, fun s hs => ?_, fun r hr => ?_, ?_⟩
  · rcases mem.1 hr with old | rfl
    · rcases mem.1 hr' with old' | rfl
      · exact h.uidOnce r old r' old' on on' same
      · exact absurd ⟨r, old, same, rfl, on⟩ (own _)
    · rcases mem.1 hr' with old' | rfl
      · exact absurd ⟨r', old', same.symm, rfl, on'⟩ (own _)
      · rfl
  · have bound := count s.shardId
    by_cases here : new.shardId = s.shardId
    · obtain ⟨s', hs', same, lt⟩ := room
      obtain rfl : s' = s := Table.eq_of_clash hs' hs (beq_iff_eq.2 (same.trans here))
      rw [if_pos here] at bound
      rw [here] at lt
      exact Nat.le_trans bound lt
    · rw [if_neg here, Nat.add_zero] at bound
      exact Nat.le_trans bound (h.capacity s hs)
  · rcases mem.1 hr with old | rfl
    · exact h.placed r old
    · obtain ⟨s, hs, same, -⟩ := room
      exact ⟨s, hs, same⟩
  · show assignments.rows.Pairwise _
    rw [rows]
    refine List.pairwise_append.2 ⟨h.versions, List.pairwise_singleton _ _, fun r hr r' hr' => ?_⟩
    rw [List.mem_singleton.1 hr']
    exact later r hr

end StreamDb

/-! ### One statement -/

/-- The user has no active assignment, and nobody holds the address. -/
structure Free (input : Input) (db : StreamDb) (wallet : Text) : Prop where
  asked : input.walletAddress = some wallet
  own : ∀ a, ¬ db.ActiveAt input.uid a
  unheld : ∀ u, ¬ db.ActiveAt u wallet

/-- What the statements before it have made true, for each phase. -/
def Knows (input : Input) (db : StreamDb) : Phase → Prop
  | .deactivateOwn => True
  | .readCurrent wallet =>
    input.walletAddress = some wallet ∧ ∀ a, db.ActiveAt input.uid a → a = wallet
  | .takeOver wallet => input.walletAddress = some wallet ∧ ∀ a, ¬ db.ActiveAt input.uid a
  | .selectShard wallet => Free input db wallet
  | .readMaxShard wallet => Free input db wallet
  | .insertShard wallet shardId => Free input db wallet ∧ ∀ s ∈ db.shards, s.shardId ≠ shardId
  | .readVersion wallet shardId => Free input db wallet ∧ db.Room shardId
  | .insertAssignment wallet shardId latestVersion =>
    Free input db wallet ∧ db.Room shardId ∧
      ∀ r ∈ db.assignments, r.accountAddress = wallet → r.assignmentVersion ≤ latestVersion
  | .done => db.Assigned input.uid input.walletAddress
  | .threw => False

variable {input : Input} {db : StreamDb} {phase : Phase}

/-- The insertion of a shard goes through when no shard has its number. -/
theorem insertShard_of_fresh (input : Input) {shardId : Nat}
    (fresh : ∀ s ∈ db.shards, s.shardId ≠ shardId) : ∃ shards,
    db.shards.insert (insertedShard input shardId) = some shards := by
  have fits : db.shards.Fits (insertedShard input shardId) := fun s hs =>
    beq_eq_false_iff_ne.2 (fresh s hs)
  exact ⟨_, dif_pos fits⟩

/-- The insertion of an assignment goes through when nobody holds the address and its version
is new. -/
theorem insertAssignment_of_free {wallet : Text} (shardId : Nat) {latestVersion : Nat}
    (free : Free input db wallet)
    (latest : ∀ r ∈ db.assignments, r.accountAddress = wallet →
      r.assignmentVersion ≤ latestVersion) :
    ∃ assignments, db.assignments.insert
      (insertedAssignment input wallet shardId latestVersion) = some assignments := by
  have fits : db.assignments.Fits (insertedAssignment input wallet shardId latestVersion) := by
    intro r hr
    refine Bool.eq_false_iff.2 fun clash => ?_
    simp only [Row.clash, insertedAssignment, Bool.and_eq_true, Bool.or_eq_true, beq_iff_eq,
      Bool.and_true] at clash
    obtain ⟨same, version | on⟩ := clash
    · have le := latest r hr (of_decide_eq_true same)
      omega
    · exact free.unheld r.uid ⟨r, hr, rfl, of_decide_eq_true same, on⟩
  exact ⟨_, dif_pos fits⟩

theorem kept_statement (kept : db.Kept) (knows : Knows input db phase) :
    (statement input db phase).1.Kept := by
  cases phase with
  | deactivateOwn => exact kept.deactivate
  | readCurrent wallet => exact kept
  | takeOver wallet => exact kept.deactivate
  | selectShard wallet => exact kept
  | readMaxShard wallet => exact kept
  | insertShard wallet shardId =>
    obtain ⟨shards, inserted⟩ := insertShard_of_fresh input knows.2
    simp only [statement, inserted]
    exact kept.insertShard inserted
  | readVersion wallet shardId => exact kept
  | insertAssignment wallet shardId latestVersion =>
    obtain ⟨free, room, latest⟩ := knows
    obtain ⟨assignments, inserted⟩ := insertAssignment_of_free shardId free latest
    simp only [statement, inserted]
    refine kept.insertAssignment inserted free.own room fun r hr same => ?_
    exact Nat.lt_succ_of_le (latest r hr same)
  | done => exact kept
  | threw => exact kept

/-- Every phase hands what it knows, and what it adds, to the next one. -/
theorem knows_statement (kept : db.Kept) (knows : Knows input db phase)
    (positive : 1 ≤ input.maxWallets) :
    Knows input (statement input db phase).1 (statement input db phase).2 := by
  cases phase with
  | deactivateOwn =>
    simp only [statement]
    cases asked : input.walletAddress with
    | none =>
      intro a
      rw [asked, StreamDb.activeAt_deactivate]
      constructor
      · rintro ⟨r, -, hu, -, -, unmatched⟩
        simp [hu] at unmatched
      · intro none
        cases none
    | some wallet =>
      refine ⟨asked, fun a active => ?_⟩
      obtain ⟨r, -, hu, rfl, -, unmatched⟩ := StreamDb.activeAt_deactivate.1 active
      simpa [hu] using unmatched
  | readCurrent wallet =>
    obtain ⟨asked, own⟩ := knows
    simp only [statement]
    cases found : db.currentShard input.uid wallet with
    | some shardId =>
      obtain ⟨r, hr, -⟩ := Option.map_eq_some_iff.1 found
      have matched := Table.of_find? hr
      simp only [Bool.and_eq_true, decide_eq_true_eq, beq_iff_eq] at matched
      obtain ⟨⟨ha, hu⟩, on⟩ := matched
      intro a
      rw [asked, Option.some_inj]
      constructor
      · intro active
        exact (own a active).symm
      · rintro rfl
        exact ⟨r, Table.mem_of_find? hr, hu, ha, on⟩
    | none =>
      refine ⟨asked, fun a active => ?_⟩
      obtain rfl := own a active
      obtain ⟨r, hr, hu, ha, on⟩ := active
      have unmatched := Table.not_of_find?_none (Option.map_eq_none_iff.1 found) hr
      simp [hu, ha, on] at unmatched
  | takeOver wallet =>
    obtain ⟨asked, own⟩ := knows
    refine ⟨asked, fun a active => ?_, fun u active => ?_⟩
    · obtain ⟨r, hr, hu, ha, on, -⟩ := StreamDb.activeAt_deactivate.1 active
      exact own a ⟨r, hr, hu, ha, on⟩
    · obtain ⟨r, -, -, ha, -, unmatched⟩ := StreamDb.activeAt_deactivate.1 active
      exact decide_eq_false_iff_not.1 unmatched ha
  | selectShard wallet =>
    simp only [statement]
    cases found : db.shardWithRoom with
    | some shardId => exact ⟨knows, StreamDb.room_of_shardWithRoom found⟩
    | none => exact knows
  | readMaxShard wallet => exact ⟨knows, fun s hs => Nat.ne_of_lt (StreamDb.lt_nextShardId hs)⟩
  | insertShard wallet shardId =>
    obtain ⟨free, fresh⟩ := knows
    obtain ⟨shards, inserted⟩ := insertShard_of_fresh input fresh
    simp only [statement, inserted]
    refine ⟨⟨free.asked, free.own, free.unheld⟩, insertedShard input shardId, ?_, rfl, ?_⟩
    · exact (Table.mem_of_rows_append (Table.insert_rows inserted).1).2 (.inr rfl)
    · show db.activeCount shardId < input.maxWallets
      rw [StreamDb.activeCount_eq_zero kept fresh]
      exact positive
  | readVersion wallet shardId =>
    refine ⟨knows.1, knows.2, fun r hr same => ?_⟩
    rw [← same]
    exact StreamDb.le_latestVersion hr
  | insertAssignment wallet shardId latestVersion =>
    obtain ⟨free, room, latest⟩ := knows
    obtain ⟨assignments, inserted⟩ := insertAssignment_of_free shardId free latest
    have mem {r : AssignmentRow} : r ∈ assignments ↔ r ∈ db.assignments ∨ r = _ :=
      Table.mem_of_rows_append (Table.insert_rows inserted).1
    simp only [statement, inserted]
    intro a
    rw [free.asked, Option.some_inj]
    constructor
    · rintro ⟨r, hr, hu, ha, on⟩
      rcases mem.1 hr with old | rfl
      · exact absurd ⟨r, old, hu, ha, on⟩ (free.own a)
      · exact ha
    · rintro rfl
      exact ⟨_, mem.2 (.inr rfl), rfl, rfl, rfl⟩
  | done => exact knows
  | threw => exact knows

/-- What a statement does to the other users: they gain no address, and lose at most the one
that is asked for. -/
theorem active_statement (knows : Knows input db phase) {u : Uid} (other : u ≠ input.uid)
    {a : Text} : ((statement input db phase).1.ActiveAt u a → db.ActiveAt u a) ∧
      (input.walletAddress ≠ some a → db.ActiveAt u a →
        (statement input db phase).1.ActiveAt u a) := by
  cases phase with
  | deactivateOwn =>
    simp only [statement, StreamDb.activeAt_deactivate]
    refine ⟨?_, fun _ => ?_⟩
    · rintro ⟨r, hr, hu, ha, on, -⟩
      exact ⟨r, hr, hu, ha, on⟩
    · rintro ⟨r, hr, rfl, ha, on⟩
      exact ⟨r, hr, rfl, ha, on, by simp [other]⟩
  | readCurrent wallet => exact ⟨id, fun _ => id⟩
  | takeOver wallet =>
    simp only [statement, StreamDb.activeAt_deactivate]
    refine ⟨?_, fun elsewhere => ?_⟩
    · rintro ⟨r, hr, hu, ha, on, -⟩
      exact ⟨r, hr, hu, ha, on⟩
    · rintro ⟨r, hr, hu, rfl, on⟩
      refine ⟨r, hr, hu, rfl, on, decide_eq_false fun same => elsewhere ?_⟩
      rw [knows.1, same]
  | selectShard wallet => exact ⟨id, fun _ => id⟩
  | readMaxShard wallet => exact ⟨id, fun _ => id⟩
  | insertShard wallet shardId =>
    obtain ⟨shards, inserted⟩ := insertShard_of_fresh input knows.2
    simp only [statement, inserted]
    exact ⟨id, fun _ => id⟩
  | readVersion wallet shardId => exact ⟨id, fun _ => id⟩
  | insertAssignment wallet shardId latestVersion =>
    obtain ⟨free, room, latest⟩ := knows
    obtain ⟨assignments, inserted⟩ := insertAssignment_of_free shardId free latest
    have mem {r : AssignmentRow} : r ∈ assignments ↔ r ∈ db.assignments ∨ r = _ :=
      Table.mem_of_rows_append (Table.insert_rows inserted).1
    simp only [statement, inserted]
    refine ⟨?_, fun _ => ?_⟩
    · rintro ⟨r, hr, hu, ha, on⟩
      rcases mem.1 hr with old | rfl
      · exact ⟨r, old, hu, ha, on⟩
      · exact absurd hu.symm other
    · rintro ⟨r, hr, hu, ha, on⟩
      exact ⟨r, mem.2 (.inl hr), hu, ha, on⟩
  | done => exact ⟨id, fun _ => id⟩
  | threw => exact ⟨id, fun _ => id⟩

/-- A user who holds another address keeps the assignment of it. -/
theorem assigned_statement (knows : Knows input db phase) {u : Uid} (other : u ≠ input.uid)
    {held : Option Text} (elsewhere : ∀ a, input.walletAddress = some a → held ≠ some a)
    (h : db.Assigned u held) : (statement input db phase).1.Assigned u held := by
  intro a
  obtain ⟨before, after⟩ := active_statement knows other (a := a)
  constructor
  · intro active
    exact (h a).1 (before active)
  · intro holds
    exact after (fun asked => elsewhere a asked holds) ((h a).2 holds)

end ParmeliaLinks.Server.WalletShards
