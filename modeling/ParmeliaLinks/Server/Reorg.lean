/-
ParmeliaLinks/Server/Reorg.lean

Recovery from a reorganization.  When the provider no longer has the block of a
stream's checkpoint, the newest journaled block that it still has is the common
ancestor, and one batch takes everything above the ancestor back: rows of the
journal and of the read models lose `canonical`, baselines go, checkpoints and
cursors return to the ancestor, and the epoch of the chain moves on.

Every column but one is compared as a number.  The cursors in `sync_state` are
text, and are compared as text; where that agrees with the order of the numbers
(`ComparesAsNumber`) the batch does to them what it does to the checkpoints.
-/
import ParmeliaLinks.Server.Schema

namespace ParmeliaLinks.Server

/-! ### Cursors -/

/-- The families of streams with a key of their own for each partition. -/
inductive StreamFamily | transfers | recovery | userops
  deriving DecidableEq

def StreamFamily.name : StreamFamily → Text
  | .transfers => ['t', 'r', 'a', 'n', 's', 'f', 'e', 'r', 's']
  | .recovery => ['r', 'e', 'c', 'o', 'v', 'e', 'r', 'y']
  | .userops => ['u', 's', 'e', 'r', 'o', 'p', 's']

/-- What the keys of a family on a chain begin with. -/
def StreamFamily.stem (family : StreamFamily) (chainId : ChainId) : Text :=
  family.name ++ ':' :: (decimal chainId ++ [':'])

/-- The key of the router's stream on a chain. -/
def routerKey (chainId : ChainId) : Text :=
  ['r', 'o', 'u', 't', 'e', 'r', ':'] ++ decimal chainId

/-- The keys that the indexer and the watchers write. -/
inductive CursorKey
  | router (chainId : ChainId)
  | stream (family : StreamFamily) (chainId : ChainId) (partition : Text)

def CursorKey.text : CursorKey → Text
  | .router chainId => routerKey chainId
  | .stream family chainId partition => family.stem chainId ++ partition

def CursorKey.chainId : CursorKey → ChainId
  | .router chainId => chainId
  | .stream _ chainId _ => chainId

def getSyncCursor (syncState : Table SyncState) (key : CursorKey) : Option BlockNumber :=
  (syncState.find? (·.key == key.text)).map fun row => decimalValue row.lastBlock

theorem keepsKeys_lastBlock (lastBlock : Text) :
    Table.KeepsKeys fun r : SyncState => { r with lastBlock } :=
  ⟨fun _ _ => rfl⟩

def setSyncCursor (syncState : Table SyncState) (key : CursorKey) (lastBlock : BlockNumber) :
    Table SyncState :=
  syncState.upsert { key := key.text, lastBlock := decimal lastBlock }
    (fun r => { r with lastBlock := decimal lastBlock }) (keepsKeys_lastBlock _)

/-- `key = ? OR key LIKE ? OR key LIKE ? OR key LIKE ?`. -/
def cursorOfChain (chainId : ChainId) (key : Text) : Bool :=
  key == routerKey chainId ||
    like (StreamFamily.transfers.stem chainId ++ ['%']) key ||
    like (StreamFamily.recovery.stem chainId ++ ['%']) key ||
    like (StreamFamily.userops.stem chainId ++ ['%']) key

/-- The statement of the batch about `sync_state`: `last_block > ?` compares texts. -/
def rewindSyncState (chainId : ChainId) (ancestor : BlockNumber) (syncState : Table SyncState) :
    Table SyncState :=
  syncState.modify
    (fun r => decide (decimal ancestor < r.lastBlock) && cursorOfChain chainId r.key)
    (fun r => { r with lastBlock := decimal ancestor }) (keepsKeys_lastBlock _)

/-! ### The batch -/

theorem freesKeys_chainBlock : Table.FreesKeys fun r : ChainBlock => { r with canonical := false } := by
  constructor
  intro r r' h
  simp only [Row.clash, Bool.false_and, Bool.or_false, Bool.and_eq_true] at h ⊢
  exact ⟨h.1, by rw [h.2]; rfl⟩

theorem freesKeys_chainEvent : Table.FreesKeys fun r : ChainEvent => { r with canonical := false } := by
  constructor
  intro r r' h
  simp only [Row.clash, Bool.false_and, Bool.or_false, Bool.and_eq_true] at h ⊢
  exact ⟨h.1, by rw [h.2]; rfl⟩

theorem freesKeys_receipt :
    Table.FreesKeys fun r : UserOperationReceipt => { r with canonical := false } := by
  constructor
  intro r r' h
  simp only [Row.clash, UserOperationReceipt.sameOperation, UserOperationReceipt.sameOccurrence,
    Bool.false_and, Bool.or_false, Bool.or_eq_true, Bool.and_eq_true] at h ⊢
  rcases h with ⟨operation, hash⟩ | occurrence
  · exact .inl ⟨operation, .inl hash⟩
  · exact .inr occurrence

/-- The events above a block that are canonical. -/
def Db.orphanedEvent (db : Db) (chainId : ChainId) (ancestor : BlockNumber) (eventId : EventId)
    (blockHash : BlockHash) : Bool :=
  db.chainEvents.any fun e => e.eventId.chainId == chainId && e.canonical &&
    decide (ancestor < e.blockNumber) && e.eventId == eventId && e.blockHash == blockHash

/-- The batch that takes a chain back to a common ancestor. -/
def rollback (chainId : ChainId) (ancestor : BlockNumber) (ancestorHash : BlockHash) (db : Db) :
    Db :=
  let reorgState := db.reorgState.upsert
    { chainId, epoch := 1, commonAncestorNumber := ancestor, commonAncestorHash := ancestorHash }
    (fun r => { r with epoch := r.epoch + 1, commonAncestorNumber := ancestor
                       commonAncestorHash := ancestorHash }) ⟨fun _ _ => rfl⟩
  { reorgState
    deltas := db.deltas.modify
      (fun r => r.eventId.chainId == chainId && r.canonical &&
        db.orphanedEvent chainId ancestor r.eventId r.blockHash)
      (fun r => { r with canonical := false }) ⟨fun _ _ => rfl⟩
    chainEvents := db.chainEvents.release
      (fun r => r.eventId.chainId == chainId && r.canonical && decide (ancestor < r.blockNumber))
      (fun r => { r with canonical := false }) freesKeys_chainEvent
    chainBlocks := db.chainBlocks.release
      (fun r => r.chainId == chainId && r.canonical && decide (ancestor < r.blockNumber))
      (fun r => { r with canonical := false }) freesKeys_chainBlock
    ledger := db.ledger.modify
      (fun r => r.chainId == some chainId && r.canonical && r.blockNumber.any (ancestor < ·))
      (fun r => { r with canonical := false }) ⟨fun _ _ => rfl⟩
    receipts := db.receipts.release
      (fun r => r.chainId == chainId && r.canonical && decide (ancestor < r.blockNumber))
      (fun r => { r with canonical := false }) freesKeys_receipt
    snapshots := db.snapshots.modify
      (fun r => r.chainId == chainId && r.canonical && decide (ancestor < r.blockNumber))
      (fun r => { r with canonical := false }) ⟨fun _ _ => rfl⟩
    baselines := db.baselines.delete
      (fun r => r.chainId == chainId && decide (ancestor < r.blockNumber))
    checkpoints := db.checkpoints.modify
      (fun r => r.chainId == chainId && decide (ancestor < r.blockNumber))
      (fun r => { r with blockNumber := ancestor, blockHash := ancestorHash
                         reorgEpoch := ((reorgState.find? (·.chainId == chainId)).map
                           (·.epoch)).getD 0 }) ⟨fun _ _ => rfl⟩
    syncState := rewindSyncState chainId ancestor db.syncState }

section Rollback

variable {db : Db} {chainId : ChainId} {ancestor : BlockNumber} {ancestorHash : BlockHash}

/-- The blocks that are canonical after the batch. -/
theorem mem_rollback_chainBlocks {r : ChainBlock} :
    r ∈ (rollback chainId ancestor ancestorHash db).chainBlocks ∧ r.canonical = true ↔
      (r ∈ db.chainBlocks ∧ r.canonical = true) ∧ ¬ (r.chainId = chainId ∧ ancestor < r.blockNumber) := by
  rw [Table.mem_and_flag ChainBlock.canonical rfl fun _ => rfl]
  apply and_congr_right
  intro on
  simp [on.2]

/-- The events that are. -/
theorem mem_rollback_chainEvents {r : ChainEvent} :
    r ∈ (rollback chainId ancestor ancestorHash db).chainEvents ∧ r.canonical = true ↔
      (r ∈ db.chainEvents ∧ r.canonical = true) ∧
        ¬ (r.eventId.chainId = chainId ∧ ancestor < r.blockNumber) := by
  rw [Table.mem_and_flag ChainEvent.canonical rfl fun _ => rfl]
  apply and_congr_right
  intro on
  simp [on.2]

/-- The receipts that are. -/
theorem mem_rollback_receipts {r : UserOperationReceipt} :
    r ∈ (rollback chainId ancestor ancestorHash db).receipts ∧ r.canonical = true ↔
      (r ∈ db.receipts ∧ r.canonical = true) ∧ ¬ (r.chainId = chainId ∧ ancestor < r.blockNumber) := by
  rw [Table.mem_and_flag UserOperationReceipt.canonical rfl fun _ => rfl]
  apply and_congr_right
  intro on
  simp [on.2]

/-- The deltas that are. -/
theorem mem_rollback_deltas {r : BalanceDelta} :
    r ∈ (rollback chainId ancestor ancestorHash db).deltas ∧ r.canonical = true ↔
      (r ∈ db.deltas ∧ r.canonical = true) ∧
        ¬ (r.eventId.chainId = chainId ∧
          db.orphanedEvent chainId ancestor r.eventId r.blockHash = true) := by
  rw [Table.mem_and_flag BalanceDelta.canonical rfl fun _ => rfl]
  apply and_congr_right
  intro on
  simp [on.2]

/-- The snapshots that are. -/
theorem mem_rollback_snapshots {r : BalanceSnapshot} :
    r ∈ (rollback chainId ancestor ancestorHash db).snapshots ∧ r.canonical = true ↔
      (r ∈ db.snapshots ∧ r.canonical = true) ∧
        ¬ (r.chainId = chainId ∧ ancestor < r.blockNumber) := by
  rw [Table.mem_and_flag BalanceSnapshot.canonical rfl fun _ => rfl]
  apply and_congr_right
  intro on
  simp [on.2]

/-- The baselines that are left. -/
theorem mem_rollback_baselines {r : ProjectionBaseline} :
    r ∈ (rollback chainId ancestor ancestorHash db).baselines ↔
      r ∈ db.baselines ∧ ¬ (r.chainId = chainId ∧ ancestor < r.blockNumber) := by
  refine Table.mem_delete.trans ?_
  simp

/-- The batch keeps every occurrence of an event, and its block. -/
theorem exists_mem_rollback_chainEvents {e : ChainEvent} (he : e ∈ db.chainEvents) :
    ∃ e' ∈ (rollback chainId ancestor ancestorHash db).chainEvents, e'.eventId = e.eventId ∧
      e'.blockHash = e.blockHash ∧ e'.blockNumber = e.blockNumber := by
  refine ⟨_, (Table.mem_of_rewritten rfl).2 ⟨e, he, rfl⟩, ?_⟩
  split <;> exact ⟨rfl, rfl, rfl⟩

end Rollback

/-! ### Recovery -/

inductive ReorgCheckResult
  | empty
  | canonical (checkpoint : BlockNumber)
  | outsideWindow
  | recovered (ancestor : BlockNumber) (depth : Nat)
  deriving DecidableEq

/-- The newest journaled block below the checkpoint, within the window, that the provider
still has. -/
def commonAncestor (db : Db) (getBlock : BlockNumber → Option BlockHash) (chainId : ChainId)
    (checkpoint floor : BlockNumber) : Option ChainBlock :=
  let known := (db.chainBlocks.filter fun b => b.chainId == chainId && b.canonical &&
    decide (b.blockNumber < checkpoint) && decide (floor ≤ b.blockNumber)).mergeSort
    fun b b' => decide (b'.blockNumber ≤ b.blockNumber)
  (known.take 128).find? fun b => getBlock b.blockNumber == some b.blockHash

/-- Check a stream against the provider, and take the chain back if its checkpoint is
gone. -/
def verifyAndRecoverStream (getBlock : BlockNumber → Option BlockHash) (chainId : ChainId)
    (stream : Text) (maxWindow : Nat) (db : Db) : ReorgCheckResult × Db :=
  match db.checkpoints.find? fun r => r.chainId == chainId && r.stream == stream with
  | none => (.empty, db)
  | some checkpoint =>
    if getBlock checkpoint.blockNumber = some checkpoint.blockHash then
      (.canonical checkpoint.blockNumber, db)
    else
      match commonAncestor db getBlock chainId checkpoint.blockNumber
          (checkpoint.blockNumber - maxWindow) with
      | none => (.outsideWindow, db)
      | some ancestor =>
        (.recovered ancestor.blockNumber (checkpoint.blockNumber - ancestor.blockNumber),
          rollback chainId ancestor.blockNumber ancestor.blockHash db)

/-- A recovery is the batch, with the ancestor that it answers. -/
theorem verifyAndRecoverStream_recovered {getBlock : BlockNumber → Option BlockHash}
    {chainId : ChainId} {stream : Text} {maxWindow : Nat} {db db' : Db} {a : BlockNumber}
    {depth : Nat}
    (h : verifyAndRecoverStream getBlock chainId stream maxWindow db =
      (.recovered a depth, db')) :
    ∃ ancestorHash, getBlock a = some ancestorHash ∧
      db' = rollback chainId a ancestorHash db := by
  unfold verifyAndRecoverStream at h
  split at h
  · cases h
  · split at h
    · cases h
    · split at h
      · cases h
      · rename_i ancestor found
        cases h
        refine ⟨ancestor.blockHash, ?_, rfl⟩
        have := List.find?_some found
        exact beq_iff_eq.1 this

/-! ### The keys of a chain -/

theorem isDigit_ne_colon {c : Char} (h : c.isDigit = true) : c ≠ ':' := by
  rintro rfl
  revert h
  decide

theorem colon_notMem_decimal (n : Nat) : ':' ∉ decimal n :=
  fun h => isDigit_ne_colon (isDigit_of_mem_decimal h) rfl

theorem colon_notMem_name (family : StreamFamily) : ':' ∉ family.name := by
  cases family <;> decide

theorem isPlain_of_isDigit {c : Char} (h : c.isDigit = true) : isPlain c = true := by
  simp only [isPlain, Bool.and_eq_true, bne_iff_ne, ne_eq]
  constructor
  · rintro rfl
    revert h
    decide
  · rintro rfl
    revert h
    decide

theorem toLower_of_isDigit {c : Char} (h : c.isDigit = true) : c.toLower = c := by
  simp only [Char.isDigit, Bool.and_eq_true, decide_eq_true_eq] at h
  delta Char.toLower
  rw [dif_neg]
  rintro ⟨upper, -⟩
  have := UInt32.le_trans upper h.2
  revert this
  decide

/-- A stem has no wildcard and no capital. -/
theorem stem_chars (family : StreamFamily) (chainId : ChainId) {c : Char}
    (h : c ∈ family.stem chainId) : isPlain c = true ∧ c.toLower = c := by
  simp only [StreamFamily.stem, List.mem_append, List.mem_cons, List.not_mem_nil, or_false] at h
  rcases h with h | rfl | h | rfl
  · have name : family.name.all (fun c => isPlain c && c.toLower == c) = true := by
      cases family <;> decide
    simpa using List.all_eq_true.1 name c h
  · decide
  · have := isDigit_of_mem_decimal h
    exact ⟨isPlain_of_isDigit this, toLower_of_isDigit this⟩
  · decide

theorem map_toLower_stem (family : StreamFamily) (chainId : ChainId) :
    (family.stem chainId).map Char.toLower = family.stem chainId :=
  (List.map_congr_left fun _ h => (stem_chars family chainId h).2).trans (List.map_id _)

/-- A key matches the pattern of a family when it begins with the stem, in either case. -/
theorem like_stem {family : StreamFamily} {chainId : ChainId} {key : Text}
    (h : like (family.stem chainId ++ ['%']) key = true) :
    ∃ rest, key.map Char.toLower = family.stem chainId ++ rest := by
  obtain ⟨q, rest, rfl, lower⟩ :=
    (like_stemmed fun c hc => (stem_chars family chainId hc).1).1 h
  refine ⟨rest.map Char.toLower, ?_⟩
  rw [List.map_append, lower, map_toLower_stem]

theorem name_injective {family family' : StreamFamily} (h : family.name = family'.name) :
    family = family' := by
  cases family <;> cases family' <;> first | rfl | (revert h; decide)

/-- Keys that begin with two stems, the second in either case, are of one chain. -/
theorem stem_chainId {family family' : StreamFamily} {chainId chainId' : ChainId}
    {rest rest' : Text}
    (h : family.stem chainId ++ rest = family'.stem chainId' ++ rest') :
    family = family' ∧ chainId = chainId' := by
  simp only [StreamFamily.stem, List.append_assoc, List.cons_append, List.nil_append] at h
  obtain ⟨names, tails⟩ := append_separator_inj (colon_notMem_name _) (colon_notMem_name _) h
  obtain ⟨chains, -⟩ := append_separator_inj (colon_notMem_decimal _) (colon_notMem_decimal _) tails
  exact ⟨name_injective names, decimal_injective chains⟩

/-- The router's key begins with no stem. -/
theorem routerKey_ne_stem {family : StreamFamily} {chainId chainId' : ChainId} {rest : Text} :
    routerKey chainId ≠ family.stem chainId' ++ rest := by
  intro h
  simp only [routerKey, StreamFamily.stem, List.append_assoc, List.cons_append,
    List.nil_append] at h
  have names : ['r', 'o', 'u', 't', 'e', 'r'] = family.name := by
    have := append_separator_inj (s := ':') (t := ['r', 'o', 'u', 't', 'e', 'r'])
      (by decide) (colon_notMem_name family) h
    exact this.1
  cases family <;> exact absurd names (by decide)

theorem map_toLower_routerKey (chainId : ChainId) :
    (routerKey chainId).map Char.toLower = routerKey chainId := by
  rw [routerKey, List.map_append, List.map_congr_left (f := Char.toLower) (g := id)
    fun c h => toLower_of_isDigit (isDigit_of_mem_decimal h), List.map_id]
  rfl

/-- The pattern of a family finds the keys of the family on the chain. -/
theorem like_stem_iff {family : StreamFamily} {chainId : ChainId} {key : CursorKey} :
    like (family.stem chainId ++ ['%']) key.text = true ↔
      ∃ partition, key = .stream family chainId partition := by
  constructor
  · intro h
    obtain ⟨rest, lower⟩ := like_stem h
    cases key with
    | router chainId' =>
      rw [CursorKey.text, map_toLower_routerKey] at lower
      exact absurd lower routerKey_ne_stem
    | stream family' chainId' partition =>
      rw [CursorKey.text, List.map_append, map_toLower_stem] at lower
      obtain ⟨rfl, rfl⟩ := stem_chainId lower
      exact ⟨partition, rfl⟩
  · rintro ⟨partition, rfl⟩
    refine (like_stemmed fun c hc => (stem_chars family chainId hc).1).2 ?_
    exact ⟨family.stem chainId, partition, rfl, rfl⟩

/-- The condition on the key finds the keys of the chain, and of no other. -/
theorem cursorOfChain_iff {chainId : ChainId} {key : CursorKey} :
    cursorOfChain chainId key.text = true ↔ key.chainId = chainId := by
  simp only [cursorOfChain, Bool.or_eq_true, like_stem_iff, beq_iff_eq]
  constructor
  · rintro (((h | ⟨partition, rfl⟩) | ⟨partition, rfl⟩) | ⟨partition, rfl⟩)
    · cases key with
      | router chainId' => exact decimal_injective (List.append_cancel_left h)
      | stream family chainId' partition => exact absurd h.symm routerKey_ne_stem
    · rfl
    · rfl
    · rfl
  · intro h
    cases key with
    | router chainId' =>
      left; left; left
      exact congrArg routerKey h
    | stream family chainId' partition =>
      obtain rfl : chainId' = chainId := h
      cases family with
      | transfers => exact .inl (.inl (.inr ⟨partition, rfl⟩))
      | recovery => exact .inl (.inr ⟨partition, rfl⟩)
      | userops => exact .inr ⟨partition, rfl⟩

/-! ### What the batch does to the cursors -/

/-- The contents of `sync_state` after a sequence of cursors was set. -/
def cursors (writes : List (CursorKey × BlockNumber)) : Table SyncState :=
  writes.foldl (fun t w => setSyncCursor t w.1 w.2) .empty

theorem cursors_decimal (writes : List (CursorKey × BlockNumber)) :
    ∀ r ∈ cursors writes, ∃ n, r.lastBlock = decimal n := by
  unfold cursors
  induction writes using List.reverseRecOn with
  | nil =>
    intro r hr
    exact absurd hr (Table.not_mem_empty r)
  | append_singleton writes w ih =>
    intro r hr
    rw [List.foldl_append] at hr
    rcases Table.mem_upsert hr with ⟨rfl, -⟩ | ⟨r₀, hr₀, rfl⟩
    · exact ⟨w.2, rfl⟩
    · split
      · exact ⟨w.2, rfl⟩
      · exact ih r₀ hr₀

variable {chainId : ChainId} {a n : BlockNumber} {key : CursorKey}

/-- The cursor that the batch leaves. -/
theorem getSyncCursor_rewind (writes : List (CursorKey × BlockNumber)) :
    getSyncCursor (rewindSyncState chainId a (cursors writes)) key =
      (getSyncCursor (cursors writes) key).map fun n =>
        if decimal a < decimal n ∧ key.chainId = chainId then a else n := by
  rw [getSyncCursor, rewindSyncState, Table.find?_modify, getSyncCursor]
  swap
  · intro r
    rfl
  cases found : (cursors writes).find? (·.key == key.text) with
  | none => rfl
  | some r =>
    obtain ⟨n, hn⟩ := cursors_decimal writes r (Table.mem_of_find? found)
    have hkey : r.key = key.text :=
      beq_iff_eq.1 (Table.of_find? (p := fun r : SyncState => r.key == key.text) found)
    simp only [Option.map_some, hn, hkey, decimalValue_decimal, Bool.and_eq_true,
      decide_eq_true_eq, cursorOfChain_iff]
    split
    · rw [decimalValue_decimal]
    · rw [hn, decimalValue_decimal]

/-- The cursors of the chain are back at the ancestor, the others where they were. -/
structure Rewound (chainId : ChainId) (a : BlockNumber) (before after : Table SyncState) :
    Prop where
  atMost : ∀ key : CursorKey, key.chainId = chainId → ∀ n,
    getSyncCursor after key = some n → n ≤ a
  kept : ∀ key : CursorKey, key.chainId = chainId → ∀ n,
    getSyncCursor before key = some n → n ≤ a → getSyncCursor after key = some n
  others : ∀ key : CursorKey, key.chainId ≠ chainId →
    getSyncCursor after key = getSyncCursor before key

/-- Where two numbers differ in length, the longer one has the greater text. -/
def ComparesAsNumber (a n : BlockNumber) : Prop :=
  ((decimal a).length < (decimal n).length → decimal a < decimal n) ∧
    ((decimal n).length < (decimal a).length → ¬ decimal a < decimal n)

theorem comparesAsNumber_iff : ComparesAsNumber a n ↔ (decimal a < decimal n ↔ a < n) := by
  constructor
  · rintro ⟨longer, shorter⟩
    rcases Nat.lt_trichotomy (decimal a).length (decimal n).length with lt | eq | gt
    · exact iff_of_true (longer lt) (lt_of_length_decimal_lt lt)
    · exact decimal_lt_decimal eq
    · exact iff_of_false (shorter gt) (Nat.lt_asymm (lt_of_length_decimal_lt gt))
  · intro same
    refine ⟨fun lt => same.2 (lt_of_length_decimal_lt lt), fun gt lt => ?_⟩
    exact Nat.lt_asymm (lt_of_length_decimal_lt gt) (same.1 lt)

/-- The batch takes the cursors of a chain back, all of them and only them, exactly when
the text of every one of them is beside the text of the ancestor where its number is
beside the number. -/
theorem sync_state_rewound_iff (db : Db) (writes : List (CursorKey × BlockNumber))
    (chainId : ChainId) (a : BlockNumber) (ancestorHash : BlockHash) :
    Rewound chainId a (cursors writes)
        (rollback chainId a ancestorHash { db with syncState := cursors writes }).syncState ↔
      ∀ key n, key.chainId = chainId → getSyncCursor (cursors writes) key = some n →
        ComparesAsNumber a n := by
  show Rewound chainId a (cursors writes) (rewindSyncState chainId a (cursors writes)) ↔ _
  constructor
  · intro rewound key n ofChain cursor
    rw [comparesAsNumber_iff]
    have after : getSyncCursor (rewindSyncState chainId a (cursors writes)) key = _ :=
      getSyncCursor_rewind writes
    rw [cursor, Option.map_some] at after
    constructor
    · intro lt
      rw [if_pos ⟨lt, ofChain⟩] at after
      -- a cursor at or below the ancestor would have moved up to it
      by_contra notAbove
      have same := rewound.kept key ofChain n cursor (Nat.not_lt.1 notAbove)
      rw [after] at same
      cases same
      exact absurd lt (List.lt_irrefl _)
    · intro above
      by_contra notLt
      rw [if_neg fun h => notLt h.1] at after
      exact absurd (rewound.atMost key ofChain n after) (Nat.not_le.2 above)
  · intro compares
    constructor
    · intro key ofChain m after
      rw [getSyncCursor_rewind] at after
      obtain ⟨n, cursor, rfl⟩ := Option.map_eq_some_iff.1 after
      have same := comparesAsNumber_iff.1 (compares key n ofChain cursor)
      split
      · exact Nat.le_refl a
      · rename_i notLt
        exact Nat.not_lt.1 fun above => notLt ⟨same.2 above, ofChain⟩
    · intro key ofChain n cursor le
      rw [getSyncCursor_rewind, cursor, Option.map_some, if_neg]
      rintro ⟨lt, -⟩
      have above := (comparesAsNumber_iff.1 (compares key n ofChain cursor)).1 lt
      exact absurd le (Nat.not_le.2 above)
    · intro key otherChain
      rw [getSyncCursor_rewind]
      cases getSyncCursor (cursors writes) key with
      | none => rfl
      | some n => rw [Option.map_some, if_neg fun h => otherChain h.2]

/-- A cursor at `1000` stays where it is when the chain goes back to `999`, and one at
`99` moves up to `100`. -/
theorem sync_state_not_rewound :
    getSyncCursor (rollback 421614 999 7 { Db.initial with
        syncState := cursors [(.router 421614, 1000)] }).syncState (.router 421614) = some 1000 ∧
      getSyncCursor (rollback 421614 100 7 { Db.initial with
        syncState := cursors [(.router 421614, 99)] }).syncState (.router 421614) = some 100 := by
  decide +kernel

end ParmeliaLinks.Server
