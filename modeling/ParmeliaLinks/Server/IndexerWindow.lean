/-
ParmeliaLinks/Server/IndexerWindow.lean

What a window of the indexer is made of: where it ends, which logs the scan collects from
it, how they are put in order, and what its two batches write.  The runs are about these
facts only, in whatever order things happen.
-/
import Mathlib.Algebra.Order.Group.Nat
import ParmeliaLinks.Server.BalanceFence
import ParmeliaLinks.Server.Indexer

namespace ParmeliaLinks.Server

/-! ### Ends -/

theorem boundedConfigInteger_mem (raw : Option Int) {fallbackValue min max : Nat}
    (fallback : min ≤ fallbackValue ∧ fallbackValue ≤ max) :
    min ≤ boundedConfigInteger raw fallbackValue min max ∧
      boundedConfigInteger raw fallbackValue min max ≤ max := by
  cases raw with
  | none => exact fallback
  | some value => exact clamp_mem (Nat.le_trans fallback.1 fallback.2)

namespace IndexerEnv

variable (env : IndexerEnv)

theorem maxLogCallsPerJob_pos : 1 ≤ env.maxLogCallsPerJob :=
  (boundedConfigInteger_mem _ (by decide)).1

theorem maxBlocksPerJob_pos : 1 ≤ env.maxBlocksPerJob := (boundedConfigInteger_mem _ (by decide)).1

theorem maxEventBlocksPerJob_pos : 1 ≤ env.maxEventBlocksPerJob :=
  (boundedConfigInteger_mem _ (by decide)).1

theorem maxRange_pos : 1 ≤ env.maxRange := by
  unfold maxRange
  split <;> omega

theorem minRange_mem : 1 ≤ env.minRange ∧ env.minRange ≤ env.maxRange := by
  have max := env.maxRange_pos
  have raw : 1 ≤ boundedConfigInteger env.rpcIndexerMinBlockRange 10 1 10000000 :=
    (boundedConfigInteger_mem _ (by decide)).1
  unfold minRange
  dsimp only
  split
  · exact ⟨max, Nat.le_refl _⟩
  · exact ⟨raw, by omega⟩

/-- The blocks of a window that starts at a block. -/
def windowBlocks (fromBlock scanHead : BlockNumber) : Nat :=
  min (min (env.maxRange * env.maxLogCallsPerJob) env.maxBlocksPerJob) (scanHead + 1 - fromBlock)

end IndexerEnv

/-- The last block of the window. -/
theorem boundedScanWindowEnd_eq (env : IndexerEnv) {fromBlock scanHead : BlockNumber}
    (behind : fromBlock ≤ scanHead) :
    boundedScanWindowEnd fromBlock scanHead env.maxRange 1 env.maxLogCallsPerJob
        env.maxBlocksPerJob = .ok (fromBlock + env.windowBlocks fromBlock scanHead - 1) ∧
      1 ≤ env.windowBlocks fromBlock scanHead ∧
      fromBlock + env.windowBlocks fromBlock scanHead - 1 ≤ scanHead := by
  have calls := env.maxLogCallsPerJob_pos
  have blocks := env.maxBlocksPerJob_pos
  have ranges : 1 ≤ env.maxRange * env.maxLogCallsPerJob :=
    Nat.mul_le_mul env.maxRange_pos calls
  have remaining : 1 ≤ scanHead + 1 - fromBlock := by
    have : fromBlock < scanHead + 1 := Nat.lt_succ_of_le behind
    exact Nat.le_sub_of_add_le (by rw [Nat.add_comm]; exact this)
  have full : 1 ≤ min (env.maxRange * env.maxLogCallsPerJob) env.maxBlocksPerJob :=
    Nat.le_min.2 ⟨ranges, blocks⟩
  rw [boundedScanWindowEnd, if_neg (by decide), if_neg (by omega)]
  simp only [Nat.div_one, Nat.max_eq_right calls, IndexerEnv.windowBlocks]
  generalize min (env.maxRange * env.maxLogCallsPerJob) env.maxBlocksPerJob = window at full ⊢
  change fromBlock ≤ (scanHead : Nat) at behind
  refine ⟨congrArg Except.ok ?_, Nat.le_min.2 ⟨full, remaining⟩, ?_⟩
  · show min (fromBlock + window - 1) scanHead = fromBlock + min window (scanHead + 1 - fromBlock) - 1
    have inside : fromBlock + (scanHead + 1 - fromBlock) - 1 = scanHead := by
      rw [Nat.add_sub_cancel' (Nat.le_succ_of_le behind)]
      rfl
    rcases Nat.le_total window (scanHead + 1 - fromBlock) with le | le
    · rw [Nat.min_eq_left le, Nat.min_eq_left]
      rw [← inside]
      exact Nat.sub_le_sub_right (Nat.add_le_add_left le _) 1
    · rw [Nat.min_eq_right le, Nat.min_eq_right, inside]
      rw [← inside]
      exact Nat.sub_le_sub_right (Nat.add_le_add_left le _) 1
  · have le : min window (scanHead + 1 - fromBlock) ≤ scanHead + 1 - fromBlock := Nat.min_le_right _ _
    calc fromBlock + min window (scanHead + 1 - fromBlock) - 1
        ≤ fromBlock + (scanHead + 1 - fromBlock) - 1 :=
          Nat.sub_le_sub_right (Nat.add_le_add_left le _) 1
      _ = scanHead := by
          rw [Nat.add_sub_cancel' (Nat.le_succ_of_le behind)]
          rfl

/-- The window is cut at a block that has logs, or not at all. -/
theorem boundedEvidenceWindowEnd_ok (requestedEnd : BlockNumber) (logs : List TransferLog)
    {maximumEventBlocks : Nat} (pos : 1 ≤ maximumEventBlocks) :
    ∃ committed, boundedEvidenceWindowEnd requestedEnd logs maximumEventBlocks = .ok committed ∧
      (committed = requestedEnd ∨ ∃ log ∈ logs, log.blockNumber = some committed) := by
  rw [boundedEvidenceWindowEnd, if_neg (by omega)]
  dsimp only
  split
  · rename_i many
    refine ⟨_, rfl, .inr ?_⟩
    generalize sorted : (logs.filterMap (·.blockNumber)).eraseDups.mergeSort
      (fun m n => decide (m ≤ n)) = blocks at many ⊢
    have inside : maximumEventBlocks - 1 < blocks.length := by omega
    have mem : blocks.getD (maximumEventBlocks - 1) requestedEnd ∈ blocks := by
      rw [List.getD, List.getElem?_eq_getElem inside]
      exact List.getElem_mem inside
    rw [← sorted, List.mem_mergeSort, List.mem_eraseDups, List.mem_filterMap, sorted] at mem
    exact mem
  · exact ⟨requestedEnd, rfl, .inl rfl⟩

/-! ### Logs -/

section Logs

variable {chain : Chain} {token : Address} {direction : TransferDirection}
  {addresses : List Address} {fromBlock toBlock : BlockNumber} {l : TransferLog}

/-- What a provider finds in a range. -/
theorem mem_getLogs :
    l ∈ chain.getLogs token direction addresses fromBlock toBlock ↔
      ∃ n t, fromBlock ≤ n ∧ n ≤ toBlock ∧ t ∈ chain.transfers n ∧ t.address = token ∧
        t.party direction ∈ addresses ∧ l = chain.log n t := by
  simp only [Chain.getLogs, List.mem_flatMap, List.mem_range'_1, List.mem_map, List.mem_filter,
    Bool.and_eq_true, beq_iff_eq, decide_eq_true_eq]
  constructor
  · rintro ⟨n, ⟨low, high⟩, t, ⟨ht, address, party⟩, rfl⟩
    change (n : Nat) < fromBlock + (toBlock + 1 - fromBlock) at high
    refine ⟨n, t, low, ?_, ht, address, party, rfl⟩
    change (fromBlock : Nat) ≤ n at low
    have : (n : Nat) < toBlock + 1 := by
      rcases Nat.le_total fromBlock (toBlock + 1) with le | le
      · rwa [Nat.add_sub_cancel' le] at high
      · rw [Nat.sub_eq_zero_of_le le, Nat.add_zero] at high
        exact absurd high (Nat.not_lt.2 low)
    exact Nat.le_of_lt_succ this
  · rintro ⟨n, t, low, high, ht, address, party, rfl⟩
    refine ⟨n, ⟨low, ?_⟩, t, ⟨ht, address, party⟩, rfl⟩
    change (n : Nat) < fromBlock + (toBlock + 1 - fromBlock)
    rw [Nat.add_sub_cancel' (Nat.le_succ_of_le (Nat.le_trans low high))]
    exact Nat.lt_succ_of_le high

theorem mem_setByIdentity {logs : List TransferLog} {log : TransferLog}
    (h : l ∈ setByIdentity logs log) : l ∈ logs ∨ l = log := by
  unfold setByIdentity at h
  split at h
  · exact .inl h
  · split at h
    · obtain ⟨l₀, hl₀, rfl⟩ := List.mem_map.1 h
      split
      · exact .inr rfl
      · exact .inl hl₀
    · rcases List.mem_append.1 h with h | h
      · exact .inl h
      · exact .inr (List.mem_singleton.1 h)

theorem exists_mem_setByIdentity (logs : List TransferLog) (log : TransferLog)
    {key : TxHash × Nat × BlockHash} (hkey : transferLogKey l = some key)
    (h : l ∈ logs ∨ l = log) : ∃ l' ∈ setByIdentity logs log, transferLogKey l' = some key := by
  unfold setByIdentity
  split
  · rename_i none
    rcases h with h | rfl
    · exact ⟨l, h, hkey⟩
    · rw [none] at hkey
      cases hkey
  · rename_i key' some
    split
    · rename_i found
      by_cases same : key' = key
      · subst same
        obtain ⟨l₀, hl₀, has⟩ := List.any_eq_true.1 found
        exact ⟨log, List.mem_map.2 ⟨l₀, hl₀, if_pos has⟩, some⟩
      · rcases h with h | rfl
        · refine ⟨l, List.mem_map.2 ⟨l, h, if_neg ?_⟩, hkey⟩
          rw [hkey]
          simpa using fun eq => same eq.symm
        · rw [hkey] at some
          exact absurd (Option.some.inj some).symm same
    · rcases h with h | rfl
      · exact ⟨l, List.mem_append_left _ h, hkey⟩
      · exact ⟨l, List.mem_append_right _ (List.mem_singleton_self l), hkey⟩

/-- Nothing is collected but what was found. -/
theorem mem_collectRange {logs found : List TransferLog} (h : l ∈ collectRange logs found) :
    l ∈ logs ∨ l ∈ found := by
  induction found generalizing logs with
  | nil => exact .inl h
  | cons log found ih =>
    rcases ih h with h | h
    · rcases mem_setByIdentity h with h | rfl
      · exact .inl h
      · exact .inr List.mem_cons_self
    · exact .inr (List.mem_cons_of_mem _ h)

/-- Of what was found, something with the same key is collected. -/
theorem exists_mem_collectRange {logs found : List TransferLog} {key : TxHash × Nat × BlockHash}
    (hkey : transferLogKey l = some key) (h : l ∈ logs ∨ l ∈ found) :
    ∃ l' ∈ collectRange logs found, transferLogKey l' = some key := by
  induction found generalizing logs l with
  | nil =>
    rcases h with h | h
    · exact ⟨l, h, hkey⟩
    · cases h
  | cons log found ih =>
    rcases h with h | h
    · obtain ⟨l', hl', hkey'⟩ := exists_mem_setByIdentity logs log hkey (.inl h)
      exact ih hkey' (.inl hl')
    · rcases List.mem_cons.1 h with rfl | h
      · obtain ⟨l', hl', hkey'⟩ := exists_mem_setByIdentity logs l hkey (.inr rfl)
        exact ih hkey' (.inl hl')
      · exact ih hkey (.inr h)

@[simp] theorem transferLogKey_log (n : BlockNumber) (t : Transfer) :
    transferLogKey (chain.log n t) = some (t.transactionHash, t.logIndex, chain.hash n) := rfl

/-- The key of a transfer is that of no other. -/
theorem log_eq_of_key {m n : BlockNumber} {t t' : Transfer} (ht : t ∈ chain.transfers m)
    (ht' : t' ∈ chain.transfers n)
    (same : transferLogKey (chain.log m t) = transferLogKey (chain.log n t')) :
    chain.log m t = chain.log n t' := by
  simp only [transferLogKey_log, Option.some.injEq, Prod.mk.injEq] at same
  obtain ⟨rfl, rfl⟩ := chain.located ht ht' same.1 same.2.1
  rfl

end Logs

/-! ### Blocks -/

section Blocks

variable {logs : List TransferLog} {log : TransferLog} {b : BlockLogs}

/-- The log is in a block, at a place in a transaction. -/
structure TransferLog.InBlock (log : TransferLog) (b : BlockLogs) : Prop where
  blockNumber : log.blockNumber = some b.blockNumber
  blockHash : log.blockHash = some b.blockHash

/-- The blocks are made of these logs. -/
structure MadeOfLogs (logs : List TransferLog) (blocks : List BlockLogs) : Prop where
  nonempty : ∀ b ∈ blocks, ∃ log, log ∈ b.logs
  logs : ∀ b ∈ blocks, ∀ log ∈ b.logs, log ∈ logs ∧ log.InBlock b

theorem addToBlock_madeOf {done : List TransferLog} {blocks : List BlockLogs}
    (h : MadeOfLogs done blocks) : MadeOfLogs (done ++ [log]) (addToBlock blocks log) := by
  have grown : MadeOfLogs (done ++ [log]) blocks :=
    ⟨h.nonempty, fun b hb l hl => ⟨List.mem_append_left _ (h.logs b hb l hl).1, (h.logs b hb l hl).2⟩⟩
  have self : log ∈ done ++ [log] := List.mem_append_right _ (List.mem_singleton_self log)
  unfold addToBlock
  split
  · rename_i number hash _ _ _ hnumber hhash _ _
    split
    · constructor
      · intro b hb
        obtain ⟨b₀, hb₀, rfl⟩ := List.mem_map.1 hb
        obtain ⟨l, hl⟩ := h.nonempty b₀ hb₀
        refine ⟨l, ?_⟩
        split
        · exact List.mem_append_left _ hl
        · exact hl
      · intro b hb l hl
        obtain ⟨b₀, hb₀, rfl⟩ := List.mem_map.1 hb
        by_cases own : (b₀.blockNumber == number && b₀.blockHash == hash) = true
        · rw [if_pos own] at hl ⊢
          simp only [Bool.and_eq_true, beq_iff_eq] at own
          rcases List.mem_append.1 hl with hl | hl
          · obtain ⟨mem, block⟩ := grown.logs b₀ hb₀ l hl
            exact ⟨mem, ⟨block.blockNumber, block.blockHash⟩⟩
          · obtain rfl := List.mem_singleton.1 hl
            refine ⟨self, ⟨?_, ?_⟩⟩
            · rw [hnumber, own.1]
            · rw [hhash, own.2]
        · rw [if_neg own] at hl ⊢
          exact grown.logs b₀ hb₀ l hl
    · constructor
      · intro b hb
        rcases List.mem_append.1 hb with hb | hb
        · exact h.nonempty b hb
        · obtain rfl := List.mem_singleton.1 hb
          exact ⟨log, List.mem_singleton_self log⟩
      · intro b hb l hl
        rcases List.mem_append.1 hb with hb | hb
        · exact grown.logs b hb l hl
        · obtain rfl := List.mem_singleton.1 hb
          obtain rfl := List.mem_singleton.1 hl
          exact ⟨self, ⟨hnumber, hhash⟩⟩
  · exact grown

/-- The blocks are made of the logs that they are made from. -/
theorem orderedBlocks_madeOf (logs : List TransferLog) : MadeOfLogs logs (orderedBlocks logs) := by
  have loop : ∀ (rest done : List TransferLog) (blocks : List BlockLogs), MadeOfLogs done blocks →
      MadeOfLogs (done ++ rest) (rest.foldl addToBlock blocks) := by
    intro rest
    induction rest with
    | nil =>
      intro done blocks h
      rwa [List.append_nil]
    | cons log rest ih =>
      intro done blocks h
      have := ih (done ++ [log]) _ (addToBlock_madeOf h)
      rwa [List.append_assoc] at this
  have all := loop logs [] [] ⟨fun _ h => (List.not_mem_nil h).elim, fun _ h => (List.not_mem_nil h).elim⟩
  constructor
  · intro b hb
    exact all.nonempty b (List.mem_mergeSort.1 hb)
  · intro b hb
    exact all.logs b (List.mem_mergeSort.1 hb)

/-- A log that is in a block. -/
def TransferLog.complete (log : TransferLog) : Prop :=
  log.removed = false ∧ log.blockNumber.isSome ∧ log.blockHash.isSome ∧
    log.transactionHash.isSome ∧ log.logIndex.isSome

theorem complete_log (chain : Chain) (n : BlockNumber) (t : Transfer) :
    (chain.log n t).complete :=
  ⟨rfl, rfl, rfl, rfl, rfl⟩

theorem mem_addToBlock_of_mem {blocks : List BlockLogs} {l : TransferLog} (hb : b ∈ blocks)
    (hl : l ∈ b.logs) : ∃ b' ∈ addToBlock blocks log, l ∈ b'.logs := by
  unfold addToBlock
  split
  · split
    · refine ⟨_, List.mem_map.2 ⟨b, hb, rfl⟩, ?_⟩
      split
      · exact List.mem_append_left _ hl
      · exact hl
    · exact ⟨b, List.mem_append_left _ hb, hl⟩
  · exact ⟨b, hb, hl⟩

theorem mem_addToBlock_self {blocks : List BlockLogs} (complete : log.complete) :
    ∃ b ∈ addToBlock blocks log, log ∈ b.logs := by
  obtain ⟨removed, number, hash, tx, index⟩ := complete
  obtain ⟨number, hnumber⟩ := Option.isSome_iff_exists.1 number
  obtain ⟨hash, hhash⟩ := Option.isSome_iff_exists.1 hash
  obtain ⟨tx, htx⟩ := Option.isSome_iff_exists.1 tx
  obtain ⟨index, hindex⟩ := Option.isSome_iff_exists.1 index
  unfold addToBlock
  simp only [removed, hnumber, hhash, htx, hindex]
  split
  · rename_i found
    obtain ⟨b, hb, own⟩ := List.any_eq_true.1 found
    refine ⟨_, List.mem_map.2 ⟨b, hb, rfl⟩, ?_⟩
    rw [if_pos own]
    exact List.mem_append_right _ (List.mem_singleton_self log)
  · exact ⟨_, List.mem_append_right _ (List.mem_singleton_self _), List.mem_singleton_self log⟩

/-- Every log that is in a block is among those of its block. -/
theorem mem_orderedBlocks (h : log ∈ logs) (complete : log.complete) :
    ∃ b ∈ orderedBlocks logs, log ∈ b.logs := by
  have stays : ∀ (rest : List TransferLog) (blocks : List BlockLogs), (∃ b ∈ blocks, log ∈ b.logs) →
      ∃ b ∈ rest.foldl addToBlock blocks, log ∈ b.logs := by
    intro rest
    induction rest with
    | nil => exact fun _ h => h
    | cons _ rest ih =>
      rintro blocks ⟨b, hb, hl⟩
      exact ih _ (mem_addToBlock_of_mem hb hl)
  have loop : ∀ (rest : List TransferLog) (blocks : List BlockLogs), log ∈ rest →
      ∃ b ∈ rest.foldl addToBlock blocks, log ∈ b.logs := by
    intro rest
    induction rest with
    | nil => exact fun _ h => (List.not_mem_nil h).elim
    | cons first rest ih =>
      intro blocks h
      rcases List.mem_cons.1 h with rfl | h
      · exact stays rest _ (mem_addToBlock_self complete)
      · exact ih _ h
  obtain ⟨b, hb, hl⟩ := loop logs [] h
  exact ⟨b, List.mem_mergeSort.2 hb, hl⟩

end Blocks

/-! ### Keys of partitions -/

theorem hexDigit_injective : ∀ d d' : Fin 16, hexDigit d = hexDigit d' → d = d' := by decide

theorem colon_ne_hexDigit : ∀ d : Fin 16, ':' ≠ hexDigit d := by decide

theorem hexDigits_injective (width : Nat) {m n : Nat} (hm : m < 16 ^ width) (hn : n < 16 ^ width)
    (h : hexDigits width m = hexDigits width n) : m = n := by
  induction width generalizing m n with
  | zero =>
    rw [pow_zero] at hm hn
    omega
  | succ width ih =>
    rw [pow_succ] at hm hn
    obtain ⟨front, last⟩ := List.append_inj' h rfl
    have high := ih (by omega) (by omega) front
    have low := hexDigit_injective ⟨m % 16, Nat.mod_lt _ (by decide)⟩ ⟨n % 16, Nat.mod_lt _ (by decide)⟩
      (List.cons.inj last).1
    have low : m % 16 = n % 16 := Fin.mk.inj low
    omega

theorem colon_notMem_hexDigits (width n : Nat) : ':' ∉ hexDigits width n := by
  induction width generalizing n with
  | zero => exact List.not_mem_nil
  | succ width ih =>
    intro h
    rcases List.mem_append.1 h with h | h
    · exact ih _ h
    · exact colon_ne_hexDigit ⟨n % 16, Nat.mod_lt _ (by decide)⟩ (List.mem_singleton.1 h)

theorem direction_name_injective {d d' : TransferDirection} (h : d.name = d'.name) : d = d' := by
  cases d <;> cases d' <;> first | rfl | exact absurd h (by decide)

theorem colon_notMem_direction (d : TransferDirection) : ':' ∉ d.name := by
  cases d <;> decide

/-- Two partitions have two texts. -/
theorem partition_text_injective {p p' : TransferIndexerPartition} (h : p.text = p'.text) :
    p = p' := by
  simp only [TransferIndexerPartition.text, List.cons.injEq, true_and] at h
  obtain ⟨token, h⟩ := append_separator_inj (colon_notMem_hexDigits _ _)
    (colon_notMem_hexDigits _ _) h
  obtain ⟨direction, h⟩ := append_separator_inj (colon_notMem_direction _)
    (colon_notMem_direction _) h
  have shard := List.append_cancel_left h
  have same_token := hexDigits_injective 40
    (Nat.lt_of_lt_of_le p.token_lt (by decide)) (Nat.lt_of_lt_of_le p'.token_lt (by decide)) token
  have same_shard := decimal_injective (List.cons.inj shard).2
  cases p
  cases p'
  cases same_token
  cases direction_name_injective direction
  cases same_shard
  rfl

theorem transferSyncCursorKey_injective {chainId : ChainId} {p p' : TransferIndexerPartition}
    (h : (transferSyncCursorKey chainId p).text = (transferSyncCursorKey chainId p').text) :
    p = p' :=
  partition_text_injective (List.append_cancel_left h)

/-! ### The cursor -/

/-- A cursor is set, and the others stay. -/
theorem getSyncCursor_setSyncCursor (t : Table SyncState) (key key' : CursorKey)
    (n : BlockNumber) :
    getSyncCursor (setSyncCursor t key n) key' =
      if key'.text = key.text then some n else getSyncCursor t key' := by
  unfold getSyncCursor setSyncCursor
  by_cases fits : t.Fits { key := key.text, lastBlock := decimal n }
  · rw [Table.upsert, dif_pos fits]
    show Option.map _ (List.find? _ (t.rows ++ [_])) = _
    rw [List.find?_append]
    by_cases own : key'.text = key.text
    · have none : t.rows.find? (fun r => r.key == key'.text) = none := by
        rw [List.find?_eq_none]
        intro r hr same
        have apart := fits r hr
        simp only [Row.clash, beq_eq_false_iff_ne] at apart
        exact apart ((beq_iff_eq.1 same).trans own)
      rw [none, if_pos own]
      simp [own]
    · rw [if_neg own]
      have other : List.find? (fun r : SyncState => r.key == key'.text)
          [{ key := key.text, lastBlock := decimal n }] = none := by
        simp [Ne.symm own]
      rw [other, Option.or_none]
      rfl
  · rw [Table.upsert, dif_neg fits, Table.find?_modify]
    swap
    · intro r
      rfl
    cases found : t.find? (fun r => r.key == key'.text) with
    | none =>
      rw [if_neg]
      · rfl
      · intro own
        apply fits
        intro r hr
        have apart := Table.not_of_find?_none found hr
        simpa [Row.clash, own] using apart
    | some r =>
      have hkey : r.key = key'.text :=
        beq_iff_eq.1 (Table.of_find? (p := fun r : SyncState => r.key == key'.text) found)
      by_cases own : key'.text = key.text
      · rw [if_pos own, Option.map_some, Option.map_some, if_pos (by simp [Row.clash, hkey, own])]
        exact congrArg some (decimalValue_decimal n)
      · rw [if_neg own, Option.map_some, Option.map_some, if_neg (by simp [Row.clash, hkey, own])]
        rfl

/-! ### The batches -/

section Batches

variable {db db' : Db}

theorem chainEpochGuard_ok {chainId : ChainId} {epoch : Nat}
    (chain : 1 ≤ chainId ∧ chainId ≤ maxSafeInteger) (small : epoch ≤ maxSafeInteger)
    (current : db.getChainReorgEpoch chainId = epoch) : chainEpochGuard chainId epoch db = .ok () := by
  unfold chainEpochGuard
  rw [revertIf_bind_of_not (not_not.2 ⟨chain.1, chain.2, small⟩)]
  exact revertIf_eq_ok.2 (not_not.2 current)

/-- A batch of events of its block goes through in the epoch that it expects. -/
theorem journalBlockEvents_ok (db : Db) (input : JournalInput)
    (block : ∀ event ∈ input.events, event.blockNumber = input.block.blockNumber ∧
      event.blockHash = input.block.blockHash)
    (none : input.userOperationReceipts = [])
    (guarded : chainEpochGuard input.block.chainId input.expectedReorgEpoch db = .ok ()) :
    ∃ db', journalBlockEvents input db = .ok db' := by
  cases h : journalBlockEvents input db with
  | ok db' => exact ⟨db', rfl⟩
  | error e =>
    exfalso
    rcases bind_eq_error.1 h with h | ⟨_, -, h⟩
    · obtain ⟨other, -⟩ := revertIf_eq_error.1 h
      obtain ⟨event, mem, apart⟩ := List.any_eq_true.1 other
      simp [block event mem] at apart
    rcases bind_eq_error.1 h with h | ⟨_, -, h⟩
    · obtain ⟨other, -⟩ := revertIf_eq_error.1 h
      rw [none] at other
      cases other
    rcases bind_eq_error.1 h with h | ⟨_, -, h⟩
    · rw [guarded] at h
      cases h
    rcases bind_eq_error.1 h with h | ⟨_, -, h⟩
    · obtain ⟨blocks', ok⟩ := journalBlock_ok input.block db.chainBlocks
      rw [ok] at h
      cases h
    rcases bind_eq_error.1 h with h | ⟨_, -, h⟩
    · obtain ⟨event, -, events, h⟩ := of_foldlM_error h
      obtain ⟨events', ok⟩ := journalEvent_ok input.block events event
      rw [ok] at h
      cases h
    rcases bind_eq_error.1 h with h | ⟨_, -, h⟩
    · rw [none] at h
      cases h
    · cases h

/-- A batch moves its checkpoint, and no cursor. -/
theorem journalBlockEvents_checkpoints {input : JournalInput}
    (h : journalBlockEvents input db = .ok db') :
    db'.checkpoints = advanceCheckpoint input db.checkpoints ∧ db'.syncState = db.syncState := by
  obtain ⟨-, h⟩ := revertIf_bind_eq_ok.1 h
  obtain ⟨-, h⟩ := revertIf_bind_eq_ok.1 h
  obtain ⟨_, -, h⟩ := bind_eq_ok.1 h
  obtain ⟨blocks, -, h⟩ := bind_eq_ok.1 h
  obtain ⟨events, -, h⟩ := bind_eq_ok.1 h
  obtain ⟨receipts, -, h⟩ := bind_eq_ok.1 h
  cases h
  exact ⟨rfl, rfl⟩

/-- A checkpoint was there, or is at the block of the batch. -/
theorem mem_advanceCheckpoint {input : JournalInput} {t : Table StreamCheckpoint}
    {r : StreamCheckpoint} (h : r ∈ advanceCheckpoint input t) :
    r ∈ t ∨ (r.chainId = input.block.chainId ∧ r.stream = input.stream ∧
      r.blockNumber = input.block.blockNumber ∧ r.blockHash = input.block.blockHash) := by
  rcases Table.mem_upsert h with ⟨rfl, -⟩ | ⟨r₀, hr₀, rfl⟩
  · exact .inr ⟨rfl, rfl, rfl, rfl⟩
  · split
    · rename_i clash
      simp only [Row.clash, Bool.and_eq_true, beq_iff_eq] at clash
      split
      · exact .inr ⟨clash.1, clash.2, rfl, rfl⟩
      · exact .inl hr₀
    · exact .inl hr₀

/-- The occurrence that is journaled is in the table. -/
theorem mem_journalEvent_self {block : JournalBlock} {event : JournalEvent}
    {events events' : Table ChainEvent} (h : journalEvent block events event = .ok events') :
    ∃ r ∈ events', r.eventId = event.id block.chainId ∧ r.blockHash = event.blockHash ∧
      r.canonical = event.canonical := by
  have rows := Table.update_rows (orRevert_eq_ok.1 h)
  -- the row that was there, or the one that was inserted
  obtain ⟨r, hr, id, hash⟩ : ∃ r ∈ (demoteEvents block event events).insertOrIgnore
      (event.row block.chainId), r.eventId = event.id block.chainId ∧
        r.blockHash = event.blockHash := by
    by_cases fits : (demoteEvents block event events).Fits (event.row block.chainId)
    · refine ⟨event.row block.chainId, ?_, rfl, rfl⟩
      exact (Table.mem_of_rows_append (Table.insertOrIgnore_rows_of_fits fits)).2 (.inr rfl)
    · rw [Table.insertOrIgnore_of_not_fits fits]
      simp only [Table.Fits, not_forall] at fits
      obtain ⟨r, hr, clash⟩ := fits
      simp only [Row.clash, JournalEvent.row, Bool.not_eq_false, Bool.and_eq_true,
        Bool.or_eq_true, beq_iff_eq] at clash
      obtain ⟨id, hash | ⟨canonical, taken⟩⟩ := clash
      · exact ⟨r, hr, id, hash⟩
      · exact ⟨r, hr, id, (mem_demoteEvents hr canonical).2 taken id⟩
  refine ⟨_, (Table.mem_of_rewritten rows).2 ⟨r, hr, rfl⟩, ?_⟩
  rw [if_pos (by simp [id, hash])]
  exact ⟨id, hash, rfl⟩

/-- Every occurrence of a batch is in the table. -/
theorem mem_foldlM_journalEvent_self {block : JournalBlock} {occurrences : List JournalEvent}
    {events events' : Table ChainEvent}
    (h : occurrences.foldlM (journalEvent block) events = .ok events') :
    ∀ event ∈ occurrences, ∃ r ∈ events', r.eventId = event.id block.chainId ∧
      r.blockHash = event.blockHash := by
  refine foldlM_ok_invariant (I := fun done t => ∀ event ∈ done, ∃ r ∈ t,
    r.eventId = event.id block.chainId ∧ r.blockHash = event.blockHash) ?_ ?_ h
  · intro done event t t' ih step event' mem
    rcases List.mem_append.1 mem with mem | mem
    · obtain ⟨r, hr, id, hash⟩ := ih event' mem
      obtain ⟨r', hr', id', hash', -⟩ := exists_mem_journalEvent step hr
      exact ⟨r', hr', id'.trans id, hash'.trans hash⟩
    · obtain rfl := List.mem_singleton.1 mem
      obtain ⟨r, hr, id, hash, -⟩ := mem_journalEvent_self step
      exact ⟨r, hr, id, hash⟩
  · intro event mem
    cases mem

/-- The deltas of events that are in the journal are applied. -/
theorem exists_applyDeltas (input : ProjectionInput) {epoch : Nat}
    (guarded : chainEpochGuard input.block.chainId epoch db = .ok ())
    (journaled : ∀ event ∈ input.events, ∃ r ∈ db.chainEvents,
      r.eventId = event.id input.block.chainId ∧ r.blockHash = event.blockHash) :
    ∃ db', applyDeltas input epoch db = .ok db' := by
  cases h : applyDeltas input epoch db with
  | ok db' => exact ⟨db', rfl⟩
  | error e =>
    exfalso
    rcases bind_eq_error.1 h with h | ⟨_, -, h⟩
    · rw [guarded] at h
      cases h
    rcases bind_eq_error.1 h with h | ⟨_, -, h⟩
    · obtain ⟨event, mem, deltas, h⟩ := of_foldlM_error h
      obtain ⟨r, hr, id, hash⟩ := journaled event mem
      rcases bind_eq_error.1 h with h | ⟨_, -, h⟩
      · obtain ⟨missing, -⟩ := revertIf_eq_error.1 h
        have := Table.any_eq_false.1 missing r hr
        simp [id, hash] at this
      · cases h
    · cases h

/-- The projector writes none of the tables that the indexer reads. -/
theorem projector_frame (i : Nat) (o : ProjectorOp) (w : ProjectorWorld) :
    (o.exec i w).2.db.reorgState = w.db.reorgState ∧
      (o.exec i w).2.db.syncState = w.db.syncState ∧
      (o.exec i w).2.db.checkpoints = w.db.checkpoints ∧
      (o.exec i w).2.db.chainEvents = w.db.chainEvents := by
  cases o with
  | getChainReorgEpoch chainId => exact ⟨rfl, rfl, rfl, rfl⟩
  | applyDeltas input epoch =>
    simp only [ProjectorOp.exec]
    split
    · exact ⟨rfl, rfl, rfl, rfl⟩
    · rename_i db' ok
      obtain ⟨-, -, frame⟩ := applyDeltas_ok ok
      rw [frame]
      exact ⟨rfl, rfl, rfl, rfl⟩
  | selectState key =>
    simp only [ProjectorOp.exec]
    split <;> exact ⟨rfl, rfl, rfl, rfl⟩
  | insertBaseline row =>
    simp only [ProjectorOp.exec]
    split <;> exact ⟨rfl, rfl, rfl, rfl⟩
  | selectDeltas key above upTo => exact ⟨rfl, rfl, rfl, rfl⟩
  | updateSnapshot key balanceRaw block =>
    simp only [ProjectorOp.exec]
    split <;> exact ⟨rfl, rfl, rfl, rfl⟩

end Batches

/-! ### The events of a block -/

section Events

variable {users : List IndexerWallet} {token : Token} {b : BlockLogs} {log : TransferLog}

/-- An event is of the block that its log is in. -/
theorem journalEventOf_block {event : JournalEvent}
    (h : journalEventOf users token b log = some event) :
    event.blockNumber = b.blockNumber ∧ event.blockHash = b.blockHash ∧
      event.canonical = true ∧ event.eventKind = .erc20Transfer ∧
      log.transactionHash = some event.txHash ∧ log.logIndex = some event.logIndex := by
  obtain ⟨tx, htx, h⟩ := Option.bind_eq_some_iff.1 h
  obtain ⟨index, hindex, h⟩ := Option.bind_eq_some_iff.1 h
  split at h
  · cases h
    exact ⟨rfl, rfl, rfl, rfl, htx, hindex⟩
  · cases h

/-- An entry is of the chain. -/
theorem ledgerEntryOf_chainId {env : IndexerEnv} {entry : LedgerRow}
    (h : ledgerEntryOf env users token b log = some entry) :
    entry.chainId = some env.chainId := by
  obtain ⟨tx, -, h⟩ := Option.bind_eq_some_iff.1 h
  obtain ⟨index, -, h⟩ := Option.bind_eq_some_iff.1 h
  obtain ⟨uid, -, h⟩ := Option.bind_eq_some_iff.1 h
  split at h
  · cases h
    rfl
  · cases h

/-- Values that are all the same are one value. -/
theorem eraseDups_of_forall_eq {α : Type} [DecidableEq α] {c : α} {l : List α} (pos : l ≠ [])
    (same : ∀ x ∈ l, x = c) : l.eraseDups = [c] := by
  cases l with
  | nil => exact absurd rfl pos
  | cons a l =>
    have none : (l.filter fun b => !b == a) = [] := by
      rw [List.filter_eq_nil_iff]
      intro x hx
      rw [same x (List.mem_cons_of_mem _ hx), same a List.mem_cons_self]
      simp
    rw [List.eraseDups_cons, none, same a List.mem_cons_self]
    rfl

end Events

end ParmeliaLinks.Server
