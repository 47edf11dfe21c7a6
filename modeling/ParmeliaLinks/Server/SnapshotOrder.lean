/-
ParmeliaLinks/Server/SnapshotOrder.lean

Two writers share the snapshot of a balance: the projector, and the readers over
RPC.  Both only go forward.  A snapshot is replaced by one of a later block, and at
the same block and hash an RPC value replaces what is there, while a projected value
replaces only a projected one; a row that a recovery has taken back is free for any
block.

So the block of a canonical snapshot never decreases but by a recovery
(`snapshots_ordered`), and where the two writers meet in one block the RPC value is
the one that stays, whichever was written first.  The epoch plays no part: a value
that was read before a recovery and is written after it takes the place of one that
was projected since.
-/
import ParmeliaLinks.Server.BalanceFence

namespace ParmeliaLinks.Server

/-! ### The order of snapshots -/

/-- A canonical snapshot of the same balance that is no older, and is from RPC if it is of the
same block and the other one is. -/
structure Succeeds (r r' : BalanceSnapshot) : Prop where
  key : r'.key = r.key
  canonical : r'.canonical = true
  block : r.blockNumber ≤ r'.blockNumber
  hash : r'.blockNumber = r.blockNumber → r'.blockHash = r.blockHash
  source : r'.blockNumber = r.blockNumber → r.source = .rpc → r'.source = .rpc

theorem Succeeds.rfl {r : BalanceSnapshot} (canonical : r.canonical = true) : Succeeds r r where
  key := by rfl
  canonical := canonical
  block := Nat.le_refl _
  hash _ := by rfl
  source _ rpc := rpc

theorem Succeeds.trans {r₁ r₂ r₃ : BalanceSnapshot} (h : Succeeds r₁ r₂) (h' : Succeeds r₂ r₃) :
    Succeeds r₁ r₃ := by
  have both : r₃.blockNumber = r₁.blockNumber →
      r₂.blockNumber = r₁.blockNumber ∧ r₃.blockNumber = r₂.blockNumber := by
    intro same
    have first : r₂.blockNumber = r₁.blockNumber := Nat.le_antisymm (same ▸ h'.block) h.block
    exact ⟨first, same.trans first.symm⟩
  refine ⟨h'.key.trans h.key, h'.canonical, h.block.trans h'.block, fun same => ?_,
    fun same rpc => ?_⟩
  · exact (h'.hash (both same).2).trans (h.hash (both same).1)
  · exact h'.source (both same).2 (h.source (both same).1 rpc)

/-- Every canonical snapshot of the chain has a successor. -/
def ProjectorWorld.Forward (chainId : ChainId) (w w' : ProjectorWorld) : Prop :=
  ∀ r ∈ w.db.snapshots, r.chainId = chainId → r.canonical = true →
    ∃ r' ∈ w'.db.snapshots, Succeeds r r'

theorem ProjectorWorld.Forward.of_eq {chainId : ChainId} {w w' : ProjectorWorld}
    (h : w'.db.snapshots = w.db.snapshots) : w.Forward chainId w' :=
  fun r hr _ canonical => ⟨r, h ▸ hr, .rfl canonical⟩

theorem ProjectorWorld.Forward.trans {chainId : ChainId} {w w' w'' : ProjectorWorld}
    (h : w.Forward chainId w') (h' : w'.Forward chainId w'') : w.Forward chainId w'' := by
  intro r hr chain canonical
  obtain ⟨r', hr', s⟩ := h r hr chain canonical
  have chain' : r'.chainId = chainId := (congrArg AccountAsset.chainId s.key).trans chain
  obtain ⟨r'', hr'', s'⟩ := h' r' hr' chain' s.canonical
  exact ⟨r'', hr'', s.trans s'⟩

/-- No recovery of the chain, and what is read over RPC is written as such. -/
def ordering (chainId : ChainId) : System.Conditions ProjectorOp ProjectorWorld Unit
    ProjectorSurroundings ProjectionInput where
  env e _ :=
    match e with
    | .recover c _ _ _ => c ≠ chainId
    | .readBalance snapshot => snapshot.source = .rpc
    | _ => True

instance (chainId : ChainId) (i : Nat) (o : ProjectorOp) (x : Unit) (w : ProjectorWorld) :
    Decidable ((ordering chainId).op i o x w) :=
  inferInstanceAs (Decidable True)

instance (chainId : ChainId) (e : ProjectorSurroundings) (w : ProjectorWorld) :
    Decidable ((ordering chainId).env e w) :=
  match e with
  | .recover c _ _ _ => inferInstanceAs (Decidable (c ≠ chainId))
  | .readBalance snapshot => inferInstanceAs (Decidable (snapshot.source = .rpc))
  | .journalBlockEvents _ | .setPolicies _ => inferInstanceAs (Decidable True)

instance (chainId : ChainId) (c : ProjectionInput) (w : ProjectorWorld) :
    Decidable ((ordering chainId).call c w) :=
  inferInstanceAs (Decidable True)

/-! ### The two writers -/

variable {w : ProjectorWorld} {chainId : ChainId}

/-- A projection goes to a later block, or stays among projected values. -/
theorem succeeds_projected {key : AccountAsset} {block : JournalBlock} {r : BalanceSnapshot}
    (h : advances key block r = true) (balanceRaw : Int) :
    Succeeds r (projected balanceRaw block r) := by
  simp only [advances, Bool.and_eq_true, Bool.or_eq_true, decide_eq_true_eq, beq_iff_eq] at h
  obtain ⟨-, later | ⟨⟨number, hash⟩, source⟩⟩ := h
  · refine ⟨rfl, rfl, later.le, fun same => ?_, fun same => ?_⟩
    · exact absurd same later.ne'
    · exact absurd same later.ne'
  · refine ⟨rfl, rfl, number.le, fun _ => hash.symm, fun _ rpc => ?_⟩
    rw [rpc] at source
    cases source

theorem forward_exec (i : Nat) (o : ProjectorOp) : w.Forward chainId (o.exec i w).2 := by
  cases o with
  | getChainReorgEpoch c => exact .of_eq rfl
  | applyDeltas input epoch =>
    simp only [ProjectorOp.exec]
    split
    · exact .of_eq rfl
    · rename_i db applied
      obtain ⟨-, -, frame⟩ := applyDeltas_ok applied
      have same : db.snapshots = w.db.snapshots := by rw [frame]
      exact .of_eq same
  | selectState key =>
    simp only [ProjectorOp.exec]
    split <;> exact .of_eq rfl
  | insertBaseline row =>
    simp only [ProjectorOp.exec]
    split <;> exact .of_eq rfl
  | selectDeltas key above upTo => exact .of_eq rfl
  | updateSnapshot key balanceRaw block =>
    simp only [ProjectorOp.exec]
    split
    · intro r hr _ canonical
      refine ⟨_, (Table.mem_of_rewritten rfl).2 ⟨r, hr, rfl⟩, ?_⟩
      split
      · exact succeeds_projected ‹_› balanceRaw
      · exact .rfl canonical
    · exact .of_eq rfl

theorem clash_iff_key {r r' : BalanceSnapshot} : Row.clash r r' = true ↔ r.key = r'.key := by
  simp [Row.clash, BalanceSnapshot.key, and_assoc]

/-- What becomes of a row when a value that was read is written. -/
theorem mem_upsertBalanceSnapshot {snapshots : Table BalanceSnapshot} {r : BalanceSnapshot}
    (hr : r ∈ snapshots) (snapshot : BalanceSnapshot) :
    (if r.key = snapshot.key ∧ takesOver snapshot r = true then { snapshot with canonical := true }
      else r) ∈ upsertBalanceSnapshot snapshot snapshots := by
  have mem : _ ∈ upsertBalanceSnapshot snapshot snapshots := Table.mem_upsert_of_mem
    (r := { snapshot with canonical := true }) (f := fun r => if takesOver snapshot r then
      { r with uid := snapshot.uid, balanceRaw := snapshot.balanceRaw
               blockNumber := snapshot.blockNumber, blockHash := snapshot.blockHash
               source := snapshot.source, canonical := true }
      else r) hr
  have image : (if r.key = snapshot.key ∧ takesOver snapshot r = true then
      { snapshot with canonical := true } else r) =
      if Row.clash r { snapshot with canonical := true } = true then
        (if takesOver snapshot r then
          { r with uid := snapshot.uid, balanceRaw := snapshot.balanceRaw
                   blockNumber := snapshot.blockNumber, blockHash := snapshot.blockHash
                   source := snapshot.source, canonical := true }
        else r)
      else r := by
    have same : Row.clash r { snapshot with canonical := true } = true ↔ r.key = snapshot.key :=
      clash_iff_key
    by_cases own : r.key = snapshot.key
    · rw [if_pos (same.2 own)]
      by_cases takes : takesOver snapshot r = true
      · rw [if_pos ⟨own, takes⟩, if_pos takes]
        simp only [BalanceSnapshot.key, AccountAsset.mk.injEq] at own
        obtain ⟨chain, account, asset⟩ := own
        rw [chain, account, asset]
      · rw [if_neg fun both => takes both.2, if_neg takes]
    · rw [if_neg fun both => own both.1, if_neg fun clash => own (same.1 clash)]
  rw [image]
  exact mem

theorem forward_readBalance (snapshot : BalanceSnapshot) (rpc : snapshot.source = .rpc) :
    w.Forward chainId ((ProjectorSurroundings.readBalance snapshot).move w) := by
  intro r hr _ canonical
  refine ⟨_, mem_upsertBalanceSnapshot hr snapshot, ?_⟩
  split
  · rename_i both
    obtain ⟨own, takes⟩ := both
    simp only [takesOver, canonical, Bool.not_true, Bool.false_or, Bool.or_eq_true,
      decide_eq_true_eq, Bool.and_eq_true, beq_iff_eq] at takes
    refine ⟨own.symm, rfl, ?_, fun same => ?_, fun _ _ => rpc⟩
    · rcases takes with later | ⟨number, -⟩
      · exact later.le
      · exact number.le
    · rcases takes with later | ⟨-, hash⟩
      · exact absurd same later.ne'
      · exact hash.symm
  · exact .rfl canonical

theorem forward_move {e : ProjectorSurroundings} (h : (ordering chainId).env e w) :
    w.Forward chainId (e.move w) := by
  cases e with
  | recover c ancestor ancestorHash blocks =>
    intro r hr chain canonical
    have other : ¬ (r.chainId = c ∧ ancestor < r.blockNumber) :=
      fun both => h (both.1.symm.trans chain)
    have kept : r ∈ (rollback c ancestor ancestorHash w.db).snapshots ∧ r.canonical = true :=
      mem_rollback_snapshots.2 ⟨⟨hr, canonical⟩, other⟩
    exact ⟨r, kept.1, .rfl canonical⟩
  | journalBlockEvents input =>
    simp only [ProjectorSurroundings.move]
    cases ok : journalBlockEvents input w.db with
    | error e =>
      rw [Contract.transact_of_error (C := journal) (c := .journal input) ok]
      exact .of_eq rfl
    | ok db' =>
      rw [Contract.transact_of_ok (C := journal) (c := .journal input) ok]
      obtain ⟨-, snapshots, -, -⟩ := journalBlockEvents_frame ok
      exact .of_eq snapshots
  | readBalance snapshot => exact forward_readBalance snapshot h
  | setPolicies policies => exact .of_eq rfl

/-! ### Every run -/

/-- What a schedule leaves in the snapshots. -/
def snapshotsAfter (chain : ChainId → BlockNumber → BlockHash) (ls : ProjectorSchedule) :
    Table BalanceSnapshot :=
  (projectorSystem.runFrom (projectorStart chain) ls).world.db.snapshots

/-- From any point of any run, as long as its chain has no recovery, a canonical snapshot goes
on to later blocks, and from RPC to RPC in one block; a value that is read over RPC for its
block takes its place. -/
theorem snapshots_ordered (chain : ChainId → BlockNumber → BlockHash) (ls ms : ProjectorSchedule)
    {r : BalanceSnapshot} (hr : r ∈ snapshotsAfter chain ls) (canonical : r.canonical = true)
    (h : projectorSystem.Along (ordering r.chainId)
      (projectorSystem.runFrom (projectorStart chain) ls) ms) :
    ∃ r' ∈ snapshotsAfter chain (ls ++ ms), Succeeds r r' ∧
      ∀ snapshot : BalanceSnapshot, snapshot.key = r'.key →
        snapshot.blockNumber = r'.blockNumber → snapshot.blockHash = r'.blockHash →
        { snapshot with canonical := true } ∈
          snapshotsAfter chain (ls ++ ms ++ [.env (.readBalance snapshot)]) := by
  have forward := System.related (R := ProjectorWorld.Forward r.chainId) (fun w => .of_eq rfl)
    (fun h h' => h.trans h') (fun i o _ w _ => forward_exec i o)
    (fun e w allowed => forward_move allowed) h
  obtain ⟨r', hr', succeeds⟩ := forward r hr rfl canonical
  rw [← System.runFrom_append] at hr'
  refine ⟨r', hr', succeeds, fun snapshot key number hash => ?_⟩
  have taken := mem_upsertBalanceSnapshot hr' snapshot
  rw [if_pos ⟨key.symm, by simp [takesOver, number, hash]⟩] at taken
  rw [snapshotsAfter, System.runFrom_append]
  exact taken

/-! The deposit of 25 is projected on top of a balance of 10 that was read. -/

def readThenProjected : ProjectorSchedule :=
  [journaledDeposit 100 10000 0, projectedDeposit 100 10000 0] ++ statements 0 5

theorem snapshots_ordered_projected :
    ∃ r' ∈ snapshotsAfter (fun _ n => 100 * n)
        ([projectFromEvents, readBalanceAt 90 9000] ++ readThenProjected),
      Succeeds { uid := 1, accountAddress := 7, chainId := 421614, asset := 1, balanceRaw := 10
                 blockNumber := 90, blockHash := 9000, source := .rpc, canonical := true } r' := by
  obtain ⟨r', hr', succeeds, -⟩ := snapshots_ordered (fun _ n => 100 * n)
    [projectFromEvents, readBalanceAt 90 9000] readThenProjected
    (r := { uid := 1, accountAddress := 7, chainId := 421614, asset := 1, balanceRaw := 10
            blockNumber := 90, blockHash := 9000, source := .rpc, canonical := true })
    (by decide +kernel) rfl (by decide +kernel)
  exact ⟨r', hr', succeeds⟩

/-! The balance of block 94 is read; then the chain recovers to block 95, which leaves block 94
as it is, and a deposit in block 94 is projected; and then what was read is written. -/

def readBeforeRecovery : ProjectorSchedule :=
  [projectFromEvents, readBalanceAt 90 9000]

def projectedSince : ProjectorSchedule :=
  readBeforeRecovery ++
    [recoverTo95, journaledDeposit 94 9400 1, projectedDeposit 94 9400 1] ++ statements 0 5

/-- The value of epoch 0 takes the place of the one of epoch 1, of the same block and hash. -/
theorem older_epoch_in_place :
    let after := fun ls => (projectorSystem.runFrom (projectorStart fun _ n => 100 * n) ls).world.db
    (after readBeforeRecovery).getChainReorgEpoch 421614 = 0 ∧
      (after projectedSince).getChainReorgEpoch 421614 = 1 ∧
      { uid := 1, accountAddress := 7, chainId := 421614, asset := 1, balanceRaw := 35
        blockNumber := 94, blockHash := 9400, source := .eventProjection, canonical := true } ∈
        (after projectedSince).snapshots ∧
      { uid := 1, accountAddress := 7, chainId := 421614, asset := 1, balanceRaw := 10
        blockNumber := 94, blockHash := 9400, source := .rpc, canonical := true } ∈
        (after (projectedSince ++ [readBalanceAt 94 9400])).snapshots := by
  decide +kernel

end ParmeliaLinks.Server
