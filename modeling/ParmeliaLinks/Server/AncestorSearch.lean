/-
ParmeliaLinks/Server/AncestorSearch.lean

When a recovery finds its way back.  The search for a common ancestor goes down the
blocks that are in the journal: those of the window below the checkpoint, and of these
the newest 128.  A run of the indexer journals the last block of its window and the
blocks with transfers, and a window may be longer than the one of the search.  So it is
not the depth of a reorganization alone that decides whether an ancestor is found, but
where the journal has its blocks (`Anchor`).
-/
import ParmeliaLinks.Server.IndexerProgress

namespace ParmeliaLinks.Server

/-! ### The first elements of a sorted list -/

section Sorted

variable {α : Type} {R : α → α → Prop} [DecidableRel R]

/-- How many elements of a sorted list come before one of them. -/
theorem length_filter_before (irrefl : ∀ x, ¬ R x x) (asymm : ∀ x y, R x y → ¬ R y x)
    {before after : List α} {x : α} (sorted : (before ++ x :: after).Pairwise R) :
    ((before ++ x :: after).filter fun y => decide (R y x)).length = before.length := by
  obtain ⟨-, tail, across⟩ := List.pairwise_append.1 sorted
  have all : before.filter (fun y => decide (R y x)) = before := by
    refine List.filter_eq_self.2 fun y hy => decide_eq_true ?_
    exact across y hy x List.mem_cons_self
  have none : (x :: after).filter (fun y => decide (R y x)) = [] := by
    refine List.filter_eq_nil_iff.2 fun y hy => ?_
    rw [decide_eq_true_eq]
    rcases List.mem_cons.1 hy with rfl | hy
    · exact irrefl y
    · exact asymm x y (List.rel_of_pairwise_cons tail hy)
  rw [List.filter_append, all, none, List.append_nil]

/-- An element is among the first ones if there are not so many before it. -/
theorem mem_take_iff_of_sorted (irrefl : ∀ x, ¬ R x x) (asymm : ∀ x y, R x y → ¬ R y x)
    {l : List α} (sorted : l.Pairwise R) {k : Nat} {x : α} :
    x ∈ l.take k ↔ x ∈ l ∧ (l.filter fun y => decide (R y x)).length < k := by
  constructor
  · intro hx
    have mem := List.mem_of_mem_take hx
    obtain ⟨before, after, split⟩ := List.append_of_mem hx
    have whole : l = before ++ x :: (after ++ l.drop k) := by
      rw [← List.cons_append, ← List.append_assoc, ← split, List.take_append_drop]
    refine ⟨mem, ?_⟩
    rw [whole] at sorted ⊢
    rw [length_filter_before irrefl asymm sorted]
    have short := congrArg List.length split
    rw [List.length_append, List.length_cons] at short
    have le := List.length_take_le k l
    omega
  · rintro ⟨hx, few⟩
    obtain ⟨before, after, rfl⟩ := List.append_of_mem hx
    rw [length_filter_before irrefl asymm sorted] at few
    rw [List.take_append, List.take_of_length_le (by omega)]
    obtain ⟨rest, e⟩ : ∃ rest, k - before.length = rest + 1 := ⟨k - before.length - 1, by omega⟩
    rw [e, List.take_succ_cons]
    exact List.mem_append_right _ List.mem_cons_self

end Sorted

/-! ### The blocks that the search looks at -/

section Search

/-- The block is one that the journal holds for canonical, below a checkpoint. -/
def journaledBelow (chainId : ChainId) (checkpoint : BlockNumber) (b : ChainBlock) : Bool :=
  b.chainId == chainId && b.canonical && decide (b.blockNumber < checkpoint)

/-- Where a search can end: at a block that the old chain and the new one share, in the
window, with fewer than 128 blocks of the journal between it and the checkpoint. -/
structure Anchor (db : Db) (chainId : ChainId) (chain : Chain) (fork checkpoint : BlockNumber)
    (b : ChainBlock) : Prop where
  mem : b ∈ db.chainBlocks
  journaled : journaledBelow chainId checkpoint b = true
  onChain : b.blockHash = chain.hash b.blockNumber
  shared : b.blockNumber ≤ fork
  inWindow : checkpoint ≤ b.blockNumber + 4096
  few : (db.chainBlocks.filter fun b' => journaledBelow chainId checkpoint b' &&
    decide (b.blockNumber < b'.blockNumber)).length < 128

/-- The chain is replaced above a block: below it stays, and no block that was journaled
above is a block of the new chain. -/
structure Forks (db : Db) (chainId : ChainId) (old new : Chain) (fork : BlockNumber) : Prop where
  kept : ∀ n ≤ fork, new.hash n = old.hash n
  replaced : ∀ b ∈ db.chainBlocks, b.chainId = chainId → fork < b.blockNumber →
    b.blockHash ≠ new.hash b.blockNumber

variable {db : Db} {chainId : ChainId} {checkpoint floor : BlockNumber}

/-- The journal in the window, newest first. -/
def newestFirst (db : Db) (chainId : ChainId) (checkpoint floor : BlockNumber) : List ChainBlock :=
  (db.chainBlocks.filter fun b => b.chainId == chainId && b.canonical &&
    decide (b.blockNumber < checkpoint) && decide (floor ≤ b.blockNumber)).mergeSort
      fun b b' => decide (b'.blockNumber ≤ b.blockNumber)

theorem mem_newestFirst {b : ChainBlock} :
    b ∈ newestFirst db chainId checkpoint floor ↔
      b ∈ db.chainBlocks ∧ journaledBelow chainId checkpoint b = true ∧
        floor ≤ b.blockNumber := by
  unfold newestFirst
  rw [List.mem_mergeSort, Table.filter, List.mem_filter, Table.mem_rows, Bool.and_eq_true,
    decide_eq_true_eq]
  rfl

/-- There is one canonical block a height. -/
theorem newestFirst_sorted :
    (newestFirst db chainId checkpoint floor).Pairwise
      fun b b' => b'.blockNumber < b.blockNumber := by
  have apart : (newestFirst db chainId checkpoint floor).Pairwise
      fun b b' => Row.clash b b' = false := by
    have filtered := db.chainBlocks.distinct.filter fun b => b.chainId == chainId && b.canonical &&
      decide (b.blockNumber < checkpoint) && decide (floor ≤ b.blockNumber)
    refine (List.Perm.pairwise_iff ?_ (List.mergeSort_perm _ _)).2 filtered
    intro b b' h
    rw [Row.clash_comm]
    exact h
  have ordered : (newestFirst db chainId checkpoint floor).Pairwise
      fun b b' => b'.blockNumber ≤ b.blockNumber := by
    refine (List.pairwise_mergeSort ?_ ?_ _).imp fun h => of_decide_eq_true h
    · intro a b c hab hbc
      rw [decide_eq_true_eq] at hab hbc ⊢
      exact Nat.le_trans hbc hab
    · intro a b
      rw [Bool.or_eq_true, decide_eq_true_eq, decide_eq_true_eq]
      exact Nat.le_total b.blockNumber a.blockNumber
  refine (ordered.and apart).imp_of_mem fun {b b'} hb hb' h => ?_
  refine Nat.lt_of_le_of_ne h.1 fun same => ?_
  have mine := (mem_newestFirst.1 hb).2.1
  have mine' := (mem_newestFirst.1 hb').2.1
  simp only [journaledBelow, Bool.and_eq_true, beq_iff_eq] at mine mine'
  have clash := h.2
  simp [Row.clash, mine.1.1, mine'.1.1, mine.1.2, mine'.1.2, same] at clash

/-- The blocks of the window above one of them are those of the journal above it. -/
theorem length_above {b : ChainBlock} (inside : floor ≤ b.blockNumber) :
    ((newestFirst db chainId checkpoint floor).filter fun b' =>
        decide (b.blockNumber < b'.blockNumber)).length =
      (db.chainBlocks.filter fun b' => journaledBelow chainId checkpoint b' &&
        decide (b.blockNumber < b'.blockNumber)).length := by
  have perm := (List.mergeSort_perm (db.chainBlocks.filter fun b => b.chainId == chainId &&
    b.canonical && decide (b.blockNumber < checkpoint) && decide (floor ≤ b.blockNumber))
      fun b b' => decide (b'.blockNumber ≤ b.blockNumber)).filter fun b' =>
        decide (b.blockNumber < b'.blockNumber)
  refine perm.length_eq.trans ?_
  rw [Table.filter, Table.filter, List.filter_filter]
  refine congrArg List.length (List.filter_congr fun b' _ => ?_)
  rw [Bool.and_comm]
  cases above : decide (b.blockNumber < b'.blockNumber) with
  | false => rw [Bool.and_false, Bool.and_false]
  | true =>
    have low : decide (floor ≤ b'.blockNumber) = true :=
      decide_eq_true (Nat.le_trans inside (Nat.le_of_lt (of_decide_eq_true above)))
    rw [low, Bool.and_true]
    rfl

/-- The newest 128 blocks of the window. -/
theorem mem_take_newestFirst {b : ChainBlock} {k : Nat} :
    b ∈ (newestFirst db chainId checkpoint floor).take k ↔
      (b ∈ db.chainBlocks ∧ journaledBelow chainId checkpoint b = true ∧
        floor ≤ b.blockNumber) ∧
      (db.chainBlocks.filter fun b' => journaledBelow chainId checkpoint b' &&
        decide (b.blockNumber < b'.blockNumber)).length < k := by
  rw [mem_take_iff_of_sorted (fun b => Nat.lt_irrefl b.blockNumber)
    (fun b b' h => Nat.lt_asymm h) newestFirst_sorted, mem_newestFirst]
  refine and_congr_right fun h => ?_
  rw [length_above h.2.2]

end Search

/-! ### The search as it runs -/

section Recovery

variable {provider : Provider} {w : IndexerWorld} {chainId : ChainId} {stream : Text}

/-- A statement, and what comes after it. -/
theorem alone_issue {o : IndexerOp} {α : Type} {f : o.Reply → Indexer α} :
    (issue o >>= f).alone provider.exec w =
      (f (provider.exec (.inr o) w).1).alone provider.exec (provider.exec (.inr o) w).2 := rfl

/-- The chain has the block. -/
def Chain.has (chain : Chain) (b : BlockNumber × BlockHash) : Bool :=
  some (chain.hash b.1) == some b.2

/-- The search reads until it finds a block of the chain. -/
theorem alone_findAncestor (known : List (BlockNumber × BlockHash)) :
    (findAncestor known).alone provider.exec w = (.ok (known.find? w.chain.has), w) := by
  induction known with
  | nil => rfl
  | cons b known ih =>
    obtain ⟨number, hash⟩ := b
    show (if some (w.chain.hash number) = some hash then _ else findAncestor known).alone
      provider.exec w = _
    by_cases same : some (w.chain.hash number) = some hash
    · have has : w.chain.has (number, hash) = true := beq_iff_eq.2 same
      rw [if_pos same, List.find?_cons_of_pos has]
      rfl
    · have misses : ¬ w.chain.has (number, hash) = true := fun h => same (beq_iff_eq.1 h)
      rw [if_neg same, List.find?_cons_of_neg misses]
      exact ih

/-- The world after a recovery. -/
def IndexerWorld.recoveredTo (w : IndexerWorld) (chainId : ChainId) (b : ChainBlock) :
    IndexerWorld :=
  { w with
    projector := (ProjectorSurroundings.recover chainId b.blockNumber b.blockHash
      w.chain.hash).move w.projector }

/-- The check of a stream ends with the chain taken back to a block that it has. -/
def Recovers (provider : Provider) (w : IndexerWorld) (chainId : ChainId) (stream : Text) : Prop :=
  ∃ b ∈ w.db.chainBlocks, b.canonical = true ∧ b.blockHash = w.chain.hash b.blockNumber ∧
    (verifyAndRecover chainId stream).alone provider.exec w =
      (.ok (), w.recoveredTo chainId b)

/-- The check ends with the error, and with everything as it was. -/
def Stuck (provider : Provider) (w : IndexerWorld) (chainId : ChainId) (stream : Text) : Prop :=
  (verifyAndRecover chainId stream).alone provider.exec w =
    (.error "No canonical ancestor found", w)

/-- The first block of the search that the chain has. -/
def searched (w : IndexerWorld) (chainId : ChainId) (checkpoint : BlockNumber) :
    Option ChainBlock :=
  ((newestFirst w.db chainId checkpoint (checkpoint - 4096)).take 128).find? fun b =>
    w.chain.has (b.blockNumber, b.blockHash)

/-- The check of a stream whose checkpoint is gone. -/
theorem alone_verifyAndRecover {checkpoint : StreamCheckpoint}
    (found : (w.db.checkpoints.find? fun r => r.chainId == chainId && r.stream == stream) =
      some checkpoint)
    (gone : w.chain.hash checkpoint.blockNumber ≠ checkpoint.blockHash) :
    (verifyAndRecover chainId stream).alone provider.exec w =
      match searched w chainId checkpoint.blockNumber with
      | none => (.error "No canonical ancestor found", w)
      | some b => (.ok (), w.recoveredTo chainId b) := by
  have known : (w.db.selectKnownBlocks chainId checkpoint.blockNumber
      (checkpoint.blockNumber - 4096)).find? w.chain.has =
        (searched w chainId checkpoint.blockNumber).map fun b => (b.blockNumber, b.blockHash) := by
    unfold Db.selectKnownBlocks
    exact List.find?_map ..
  unfold verifyAndRecover
  rw [alone_issue]
  simp only [Provider.exec, indexerExec, IndexerOp.exec, found, Option.map_some]
  rw [alone_issue]
  simp only [Provider.exec, indexerExec, IndexerOp.exec, Option.some.injEq]
  rw [if_neg gone, alone_issue]
  simp only [Provider.exec, indexerExec, IndexerOp.exec]
  refine (Prog.alone_bind (alone_findAncestor _)).trans ?_
  rw [known]
  cases searched w chainId checkpoint.blockNumber with
  | none => rfl
  | some b => rfl

/-- The search finds a block if the newest 128 of the window have one. -/
theorem searched_isSome {checkpoint : BlockNumber} :
    (searched w chainId checkpoint).isSome ↔
      ∃ b ∈ (newestFirst w.db chainId checkpoint (checkpoint - 4096)).take 128,
        b.blockHash = w.chain.hash b.blockNumber := by
  unfold searched
  rw [List.find?_isSome]
  refine exists_congr fun b => and_congr_right fun _ => ?_
  rw [Chain.has, beq_iff_eq, Option.some.injEq]
  exact eq_comm

/-- After a fork the blocks that the old chain and the new one share are left. -/
theorem searched_iff_anchor {chain : Chain} {fork checkpoint : BlockNumber}
    (forks : Forks w.db chainId w.chain chain fork) :
    (searched { w with chain } chainId checkpoint).isSome ↔
      ∃ b, Anchor w.db chainId w.chain fork checkpoint b := by
  rw [searched_isSome]
  constructor
  · rintro ⟨b, hb, onNew⟩
    obtain ⟨⟨mem, journaled, low⟩, few⟩ := mem_take_newestFirst.1 hb
    have mine : b.chainId = chainId := by
      unfold journaledBelow at journaled
      rw [Bool.and_eq_true, Bool.and_eq_true, beq_iff_eq] at journaled
      exact journaled.1.1
    have shared : b.blockNumber ≤ fork := by
      by_contra above
      exact forks.replaced b mem mine (Nat.lt_of_not_le above) onNew
    refine ⟨b, mem, journaled, ?_, shared, Nat.sub_le_iff_le_add.1 low, few⟩
    rw [onNew]
    exact forks.kept _ shared
  · rintro ⟨b, anchor⟩
    refine ⟨b, mem_take_newestFirst.2 ⟨⟨anchor.mem, anchor.journaled, ?_⟩, anchor.few⟩, ?_⟩
    · exact Nat.sub_le_iff_le_add.2 anchor.inWindow
    · rw [anchor.onChain]
      exact (forks.kept _ anchor.shared).symm

/-- A reorganization above a block is recovered from exactly if the journal has an anchor.
Otherwise the check fails and changes nothing, and so the next one fails again. -/
theorem recovers_iff_anchor {checkpoint : StreamCheckpoint} {chain : Chain}
    {fork : BlockNumber}
    (found : (w.db.checkpoints.find? fun r => r.chainId == chainId && r.stream == stream) =
      some checkpoint)
    (forks : Forks w.db chainId w.chain chain fork)
    (gone : chain.hash checkpoint.blockNumber ≠ checkpoint.blockHash) :
    (Recovers provider { w with chain } chainId stream ↔
      ∃ b, Anchor w.db chainId w.chain fork checkpoint.blockNumber b) ∧
    ((¬ ∃ b, Anchor w.db chainId w.chain fork checkpoint.blockNumber b) →
      Stuck provider { w with chain } chainId stream) := by
  have check : (verifyAndRecover chainId stream).alone provider.exec { w with chain } = _ :=
    alone_verifyAndRecover found gone
  rw [← searched_iff_anchor forks]
  cases search : searched { w with chain } chainId checkpoint.blockNumber with
  | none =>
    rw [search] at check
    refine ⟨⟨?_, fun h => by cases h⟩, fun _ => check⟩
    rintro ⟨b, -, -, -, recovered⟩
    rw [check] at recovered
    cases recovered
  | some b =>
    rw [search] at check
    refine ⟨⟨fun _ => rfl, fun _ => ?_⟩, fun h => absurd rfl h⟩
    have taken := List.mem_of_find?_eq_some search
    obtain ⟨⟨mem, journaled, -⟩, -⟩ := mem_take_newestFirst.1 taken
    unfold journaledBelow at journaled
    rw [Bool.and_eq_true, Bool.and_eq_true] at journaled
    have has := List.find?_some search
    rw [Chain.has, beq_iff_eq, Option.some.injEq] at has
    exact ⟨b, mem, journaled.1.2, has.symm, check⟩

/-- No statement of a run changes the chain. -/
theorem exec_chain (o : ProjectorOp ⊕ IndexerOp) (w : IndexerWorld) :
    (provider.exec o w).2.chain = w.chain := by
  rcases o with o | o
  · rfl
  · cases o with
    | journalBlockEvents input =>
      show (w.batch _).2.chain = _
      cases Server.journalBlockEvents input w.db <;> rfl
    | writeLedgerBatch chainId entries epoch =>
      show (w.batch _).2.chain = _
      cases Server.writeLedgerBatch chainId entries epoch w.db <;> rfl
    | setSyncCursor key lastBlock chainId epoch partition cursor fromBlock =>
      simp only [Provider.exec, indexerExec, IndexerOp.exec]
      split <;> rfl
    | _ => rfl

theorem run_chain (env : IndexerEnv) (call : IndexerCall) (w : IndexerWorld) :
    (provider.run env call w).2.chain = w.chain := by
  have keeps : ∀ {α : Type} (p : Indexer α) (w : IndexerWorld),
      (p.alone provider.exec w).2.chain = w.chain := by
    intro α p
    induction p with
    | ret a => exact fun w => rfl
    | throw m => exact fun w => rfl
    | act o k ih => exact fun w => (ih _ _).trans (exec_chain o w)
  exact keeps _ w

end Recovery

/-! Two windows of a stream, the second of which is longer than the window of the search. -/

theorem half_even (n : Nat) : 2 * n / 2 = n := by omega

theorem half_odd (n : Nat) : (2 * n + 1) / 2 = n := by omega

theorem located_empty {m n : BlockNumber} {t t' : Transfer} (mem : t ∈ ([] : List Transfer))
    (_ : t' ∈ ([] : List Transfer)) (_ : t.transactionHash = t'.transactionHash)
    (_ : t.logIndex = t'.logIndex) : m = n ∧ t = t' :=
  absurd mem List.not_mem_nil

/-- A chain without transfers; a fork gives the blocks above it other hashes. -/
def plainChain (fork : BlockNumber) : Chain where
  hash n := if n ≤ fork then 2 * n else 2 * n + 1
  height h := some (h / 2)
  transfers _ := []
  height_hash n := by
    split
    · exact congrArg some (half_even n)
    · exact congrArg some (half_odd n)
  located := @located_empty

theorem plainChain_forks {db : Db} {top fork : BlockNumber} (below : fork ≤ top)
    (journal : ∀ b ∈ db.chainBlocks, b.blockHash = 2 * b.blockNumber) :
    Forks db 421614 (plainChain top) (plainChain fork) fork where
  kept n le := by
    show (if n ≤ fork then 2 * n else 2 * n + 1) = if n ≤ top then 2 * n else 2 * n + 1
    rw [if_pos le, if_pos (Nat.le_trans le below)]
  replaced b mem _ above := by
    show b.blockHash ≠ if b.blockNumber ≤ fork then 2 * b.blockNumber else 2 * b.blockNumber + 1
    rw [if_neg (Nat.not_le_of_lt above), journal b mem]
    exact Nat.ne_of_lt (Nat.lt_succ_self _)

def newWorld : IndexerWorld :=
  { quietWorld with
    projector := ProjectorWorld.initial fun _ n => 2 * n
    chain := plainChain 6000 }

/-- A provider that refuses nothing. -/
def quietProvider (head : BlockNumber) : Provider where
  latest := head
  safe := some head
  now := 0
  refuses _ _ _ := none

/-- The world after a run up to block 100 and one up to another head. -/
def twoWindows (head : BlockNumber) : IndexerWorld :=
  ((quietProvider head).run defaultEnv ⟨shardZero, none⟩
    ((quietProvider 100).run defaultEnv ⟨shardZero, none⟩ newWorld).2).2

theorem twoWindows_chain (head : BlockNumber) : (twoWindows head).chain = plainChain 6000 :=
  (run_chain _ _ _).trans (run_chain _ _ _)

/-- The stream of the two windows. -/
def quietStream : Text := transferJournalStream 421614 shardZero

/-- A reorganization below which a journaled block is near. -/
theorem recovers_iff_anchor_near : ∃ checkpoint,
    ((twoWindows 200).db.checkpoints.find? fun r =>
      r.chainId == 421614 && r.stream == quietStream) = some checkpoint ∧
    (Recovers (quietProvider 200) { twoWindows 200 with chain := plainChain 150 } 421614
        quietStream ↔
      ∃ b, Anchor (twoWindows 200).db 421614 (twoWindows 200).chain 150 checkpoint.blockNumber b) ∧
    ((¬ ∃ b, Anchor (twoWindows 200).db 421614 (twoWindows 200).chain 150
        checkpoint.blockNumber b) →
      Stuck (quietProvider 200) { twoWindows 200 with chain := plainChain 150 } 421614
        quietStream) := by
  have journal : ∀ b ∈ (twoWindows 200).db.chainBlocks, b.blockHash = 2 * b.blockNumber := by
    decide +kernel
  have at200 : ((twoWindows 200).db.checkpoints.find? fun r =>
      r.chainId == 421614 && r.stream == quietStream).map
        (fun r => (r.blockNumber, r.blockHash)) = some (200, 400) := by
    decide +kernel
  obtain ⟨checkpoint, found, is⟩ := Option.map_eq_some_iff.1 at200
  obtain ⟨number, hash⟩ := Prod.mk.inj is
  have forks : Forks (twoWindows 200).db 421614 (twoWindows 200).chain (plainChain 150) 150 := by
    rw [twoWindows_chain]
    exact plainChain_forks (by decide) journal
  refine ⟨checkpoint, found, recovers_iff_anchor found forks ?_⟩
  rw [number, hash]
  decide

/-- The journal has blocks 100 and 6000.  When block 6000 alone is replaced, the search looks
at none of them, and the stream is stuck. -/
theorem one_block_reorg_is_stuck :
    (twoWindows 6000).db.chainBlocks.rows.map (fun b => (b.blockNumber, b.canonical)) =
      [(100, true), (6000, true)] ∧
    Forks (twoWindows 6000).db 421614 (twoWindows 6000).chain (plainChain 5999) 5999 ∧
    ¬ Recovers (quietProvider 6000) { twoWindows 6000 with chain := plainChain 5999 } 421614
      quietStream ∧
    Stuck (quietProvider 6000) { twoWindows 6000 with chain := plainChain 5999 } 421614
      quietStream := by
  have journal : ∀ b ∈ (twoWindows 6000).db.chainBlocks, b.blockHash = 2 * b.blockNumber ∧
      (b.blockNumber = 100 ∨ b.blockNumber = 6000) := by
    decide +kernel
  have at6000 : ((twoWindows 6000).db.checkpoints.find? fun r =>
      r.chainId == 421614 && r.stream == quietStream).map
        (fun r => (r.blockNumber, r.blockHash)) = some (6000, 12000) := by
    decide +kernel
  obtain ⟨checkpoint, found, is⟩ := Option.map_eq_some_iff.1 at6000
  obtain ⟨number, hash⟩ := Prod.mk.inj is
  have forks : Forks (twoWindows 6000).db 421614 (twoWindows 6000).chain (plainChain 5999)
      5999 := by
    rw [twoWindows_chain]
    exact plainChain_forks (by decide) fun b mem => (journal b mem).1
  have gone : (plainChain 5999).hash checkpoint.blockNumber ≠ checkpoint.blockHash := by
    rw [number, hash]
    decide
  -- neither block is in the window and shared
  have nowhere : ¬ ∃ b, Anchor (twoWindows 6000).db 421614 (twoWindows 6000).chain 5999
      checkpoint.blockNumber b := by
    rintro ⟨b, anchor⟩
    have shared := anchor.shared
    have inWindow := anchor.inWindow
    rw [number] at inWindow
    rcases (journal b anchor.mem).2 with low | high
    · rw [low] at inWindow
      exact absurd inWindow (by decide)
    · rw [high] at shared
      exact absurd shared (by decide)
  obtain ⟨iff, stuck⟩ := recovers_iff_anchor found forks gone
  exact ⟨by decide +kernel, forks, fun recovers => nowhere (iff.1 recovers), stuck nowhere⟩

end ParmeliaLinks.Server
