/-
ParmeliaLinks/Server/BalanceFence.lean

Runs of the balance projector and recoveries, interleaved.  The batch of deltas
carries the guard of the reorg epoch, the statements of the refresh that follows
do not: a recovery that lands between them has just cleaned what they then write.

What a run has read stands until a recovery goes below it (`Stands`); that is
what every later step of the run relies on.  If every write of a refresh finds
that no recovery did (`ProjectorOp.InEpoch`), the read models are fenced.
-/
import ParmeliaLinks.Server.BalanceProjector
import ParmeliaLinks.Server.JournalCanonicality

namespace ParmeliaLinks.Server

/-! ### What is required, and when it holds -/

/-- The delta is in the table, and canonical. -/
def Db.CanonicalDelta (db : Db) (key : DeltaKey) : Prop :=
  ∃ r ∈ db.deltas, r.key = key ∧ r.canonical = true

/-- No canonical snapshot and no baseline is of a block that a recovery took off the chain, and
no canonical snapshot includes a delta that is not canonical. -/
structure ProjectorWorld.Fenced (w : ProjectorWorld) : Prop where
  snapshot : ∀ r ∈ w.db.snapshots, r.canonical = true →
    w.orphaned r.chainId r.blockNumber r.blockHash = false
  baseline : ∀ r ∈ w.db.baselines, w.orphaned r.chainId r.blockNumber r.blockHash = false
  included : ∀ r ∈ w.db.snapshots, r.canonical = true → ∀ key ∈ w.inSnapshot r.key,
    w.db.CanonicalDelta key

/-- After the first `k` recoveries, none of the chain has gone below the block. -/
def ProjectorWorld.Since (w : ProjectorWorld) (k : Nat) (chainId : ChainId) (n : BlockNumber) :
    Prop :=
  ∀ recovery ∈ w.recoveries.drop k, recovery.1 = chainId → n ≤ recovery.2

/-- A batch in the current epoch is of a block that no recovery has taken off the chain, and a
write of a refresh that goes through comes before any recovery below the block that it writes:
since the snapshot was read, for a baseline, and since the batch, for a snapshot. -/
def ProjectorOp.InEpoch (i : Nat) (o : ProjectorOp) (w : ProjectorWorld) : Prop :=
  match o with
  | .applyDeltas input expectedReorgEpoch =>
    w.db.getChainReorgEpoch input.block.chainId = expectedReorgEpoch →
      w.orphaned input.block.chainId input.block.blockNumber input.block.blockHash = false
  | .insertBaseline row =>
    w.db.baselines.Fits row → w.Since (w.held i).readAt row.chainId row.blockNumber
  | .updateSnapshot key _ block =>
    w.db.snapshots.any (advances key block) = true →
      w.Since (w.held i).batchAt block.chainId block.blockNumber
  | _ => True

/-- What is read over RPC is of a block that no recovery has taken off the chain. -/
def ProjectorSurroundings.OnChain (e : ProjectorSurroundings) (w : ProjectorWorld) : Prop :=
  match e with
  | .readBalance snapshot =>
    w.orphaned snapshot.chainId snapshot.blockNumber snapshot.blockHash = false
  | _ => True

abbrev fencing : System.Conditions ProjectorOp ProjectorWorld Unit ProjectorSurroundings
    ProjectionInput where
  op i o _ w := o.InEpoch i w
  env := ProjectorSurroundings.OnChain

instance (w : ProjectorWorld) (k : Nat) (chainId : ChainId) (n : BlockNumber) :
    Decidable (w.Since k chainId n) :=
  inferInstanceAs (Decidable (∀ recovery ∈ w.recoveries.drop k, _ → _))

instance (i : Nat) (o : ProjectorOp) (w : ProjectorWorld) : Decidable (o.InEpoch i w) :=
  match o with
  | .getChainReorgEpoch _ => .isTrue trivial
  | .applyDeltas .. => inferInstanceAs (Decidable (_ → _))
  | .selectState _ => .isTrue trivial
  | .insertBaseline _ => inferInstanceAs (Decidable (_ → _))
  | .selectDeltas .. => .isTrue trivial
  | .updateSnapshot .. => inferInstanceAs (Decidable (_ → _))

instance (e : ProjectorSurroundings) (w : ProjectorWorld) : Decidable (e.OnChain w) :=
  match e with
  | .recover .. => .isTrue trivial
  | .journalBlockEvents _ => .isTrue trivial
  | .readBalance _ => inferInstanceAs (Decidable (_ = _))
  | .setPolicies _ => .isTrue trivial

/-! ### The invariant -/

/-- The delta is canonical, and its event not above the block. -/
def Db.CanonicalUpTo (db : Db) (key : DeltaKey) (n : BlockNumber) : Prop :=
  db.CanonicalDelta key ∧ ∃ e ∈ db.chainEvents, e.eventId = key.eventId ∧
    e.blockHash = key.blockHash ∧ e.blockNumber ≤ n

/-- The deltas are of the chain, canonical, and not above the block. -/
def Db.MadeOf (db : Db) (included : List DeltaKey) (chainId : ChainId) (n : BlockNumber) : Prop :=
  ∀ key ∈ included, key.eventId.chainId = chainId ∧ db.CanonicalUpTo key n

theorem Db.CanonicalUpTo.mono {db : Db} {key : DeltaKey} {m n : BlockNumber}
    (h : db.CanonicalUpTo key m) (le : m ≤ n) : db.CanonicalUpTo key n := by
  obtain ⟨delta, e, he, id, hash, number⟩ := h
  exact ⟨delta, e, he, id, hash, Nat.le_trans number le⟩

theorem madeOf_of_eq_nil {db : Db} {included : List DeltaKey} {c : ChainId} {n : BlockNumber}
    (h : included = []) : db.MadeOf included c n := by
  rw [h]
  intro key mem
  cases mem

theorem Db.MadeOf.mono {db : Db} {included : List DeltaKey} {c : ChainId} {m n : BlockNumber}
    (h : db.MadeOf included c m) (le : m ≤ n) : db.MadeOf included c n :=
  fun key mem => ⟨(h key mem).1, (h key mem).2.mono le⟩

namespace ProjectorWorld

structure Sane (w : ProjectorWorld) : Prop where
  snapshot : ∀ r ∈ w.db.snapshots, r.canonical = true →
    w.orphaned r.chainId r.blockNumber r.blockHash = false ∧
      w.db.MadeOf (w.inSnapshot r.key) r.chainId r.blockNumber
  baseline : ∀ r ∈ w.db.baselines, w.orphaned r.chainId r.blockNumber r.blockHash = false ∧
    w.db.MadeOf (w.inBaseline r.key) r.chainId r.blockNumber

/-- Recoveries are only added, and they leave alone what is not above their ancestor. -/
structure Evolves (w w' : ProjectorWorld) : Prop where
  recoveries : w.recoveries <+: w'.recoveries
  orphaned : ∀ c n hash, w.orphaned c n hash = false → w'.Since w.recoveries.length c n →
    w'.orphaned c n hash = false
  deltas : ∀ key n, w.db.CanonicalUpTo key n → w'.Since w.recoveries.length key.eventId.chainId n →
    w'.db.CanonicalUpTo key n

theorem Sane.fenced {w : ProjectorWorld} (h : w.Sane) : w.Fenced where
  snapshot r hr canonical := (h.snapshot r hr canonical).1
  baseline r hr := (h.baseline r hr).1
  included r hr canonical key mem := ((h.snapshot r hr canonical).2 key mem).2.1

variable {w w' w'' : ProjectorWorld}

theorem Since.earlier {k l : Nat} {c : ChainId} {n : BlockNumber} (h : w.Since k c n)
    (le : k ≤ l) : w.Since l c n :=
  fun recovery mem => h recovery (List.drop_subset_drop_left _ le mem)

theorem Since.of_prefix {k : Nat} {c : ChainId} {n : BlockNumber} (h : w'.Since k c n)
    (grown : w.recoveries <+: w'.recoveries) : w.Since k c n :=
  fun recovery mem => h recovery ((grown.drop k).subset mem)

theorem Evolves.rfl (w : ProjectorWorld) : w.Evolves w where
  recoveries := List.prefix_rfl
  orphaned _ _ _ h _ := h
  deltas _ _ h _ := h

theorem Evolves.trans (h : w.Evolves w') (h' : w'.Evolves w'') : w.Evolves w'' where
  recoveries := h.recoveries.trans h'.recoveries
  orphaned c n hash before since := by
    have between := h.orphaned c n hash before (since.of_prefix h'.recoveries)
    exact h'.orphaned c n hash between (since.earlier h.recoveries.length_le)
  deltas key n before since := by
    have between := h.deltas key n before (since.of_prefix h'.recoveries)
    exact h'.deltas key n between (since.earlier h.recoveries.length_le)

/-- What was read after `k` recoveries stands: until one goes below the block, the block is on
the chain and the deltas are canonical. -/
def Stands (w : ProjectorWorld) (k : Nat) (c : ChainId) (n : BlockNumber) (hash : BlockHash)
    (included : List DeltaKey) : Prop :=
  k ≤ w.recoveries.length ∧
    (w.Since k c n → w.orphaned c n hash = false ∧ w.db.MadeOf included c n)

theorem Stands.later {k : Nat} {c : ChainId} {n : BlockNumber} {hash : BlockHash}
    {included : List DeltaKey} (h : w.Stands k c n hash included) (evolves : w.Evolves w') :
    w'.Stands k c n hash included := by
  refine ⟨Nat.le_trans h.1 evolves.recoveries.length_le, fun since => ?_⟩
  obtain ⟨block, deltas⟩ := h.2 (since.of_prefix evolves.recoveries)
  have after := since.earlier h.1
  refine ⟨evolves.orphaned c n hash block after, fun key mem => ?_⟩
  obtain ⟨chain, before⟩ := deltas key mem
  exact ⟨chain, evolves.deltas key n before (by rwa [chain])⟩

end ProjectorWorld

/-! ### The statements of a run -/

section Statements

variable {w w' : ProjectorWorld} {i : Nat}

/-- A step that only adds deltas, and rows of the journal. -/
theorem ProjectorWorld.Sane.of_grown (h : w.Sane)
    (deltas : ∀ key n, w.db.CanonicalUpTo key n → w'.db.CanonicalUpTo key n)
    (snapshots : w'.db.snapshots = w.db.snapshots) (baselines : w'.db.baselines = w.db.baselines)
    (orphaned : w'.orphaned = w.orphaned) (inSnapshot : w'.inSnapshot = w.inSnapshot)
    (inBaseline : w'.inBaseline = w.inBaseline) : w'.Sane := by
  have madeOf : ∀ included c n, w.db.MadeOf included c n → w'.db.MadeOf included c n := by
    intro included c n before key mem
    exact ⟨(before key mem).1, deltas key n (before key mem).2⟩
  constructor
  · intro r hr canonical
    rw [snapshots] at hr
    rw [orphaned, inSnapshot]
    obtain ⟨block, made⟩ := h.snapshot r hr canonical
    exact ⟨block, madeOf _ _ _ made⟩
  · intro r hr
    rw [baselines] at hr
    rw [orphaned, inBaseline]
    obtain ⟨block, made⟩ := h.baseline r hr
    exact ⟨block, madeOf _ _ _ made⟩

theorem ProjectorWorld.Evolves.of_grown
    (deltas : ∀ key n, w.db.CanonicalUpTo key n → w'.db.CanonicalUpTo key n)
    (orphaned : w'.orphaned = w.orphaned) (recoveries : w'.recoveries = w.recoveries) :
    w.Evolves w' where
  recoveries := by rw [recoveries]
  orphaned c n hash before _ := by rw [orphaned, before]
  deltas key n before _ := deltas key n before

theorem hold_sane (h : w.Sane) (held : Held) : (w.hold i held).Sane := ⟨h.snapshot, h.baseline⟩

theorem hold_evolves (w : ProjectorWorld) (held : Held) : w.Evolves (w.hold i held) :=
  .of_grown (fun _ _ before => before) rfl rfl

@[simp] theorem hold_held (held : Held) : (w.hold i held).held i = held := if_pos rfl

theorem projectEvent_mono {chainId : ChainId} {events : Table ChainEvent}
    {deltas deltas' : Table BalanceDelta} {event : JournalEvent}
    (h : projectEvent chainId events deltas event = .ok deltas') :
    ∀ r ∈ deltas, r ∈ deltas' := by
  obtain ⟨-, added⟩ := revertIf_bind_eq_ok.1 h
  cases added
  clear h
  intro r hr
  generalize aggregateEventDeltas event.accounts = changed
  induction changed generalizing deltas with
  | nil => exact hr
  | cons delta rest ih => exact ih (Table.mem_insertOrIgnore_of_mem hr)

/-- The batch adds deltas, in the epoch that it expects. -/
theorem applyDeltas_ok {input : ProjectionInput} {epoch : Nat} {db db' : Db}
    (h : applyDeltas input epoch db = .ok db') :
    db.getChainReorgEpoch input.block.chainId = epoch ∧ (∀ r ∈ db.deltas, r ∈ db'.deltas) ∧
      db' = { db with deltas := db'.deltas } := by
  obtain ⟨_, guarded, h⟩ := bind_eq_ok.1 h
  obtain ⟨deltas, loop, h⟩ := bind_eq_ok.1 h
  cases h
  refine ⟨epoch_of_chainEpochGuard guarded, ?_, rfl⟩
  refine foldlM_ok_invariant (I := fun _ t => ∀ r ∈ db.deltas, r ∈ t) ?_ (fun _ hr => hr) loop
  intro _ event t t' ih step r hr
  exact projectEvent_mono step r (ih r hr)

theorem applyDeltas_canonicalUpTo {input : ProjectionInput} {epoch : Nat} {db' : Db}
    (h : applyDeltas input epoch w.db = .ok db') {key : DeltaKey} {n : BlockNumber}
    (before : w.db.CanonicalUpTo key n) : db'.CanonicalUpTo key n := by
  obtain ⟨-, kept, frame⟩ := applyDeltas_ok h
  obtain ⟨⟨r, hr, canonical⟩, event⟩ := before
  refine ⟨⟨r, kept r hr, canonical⟩, ?_⟩
  rw [frame]
  exact event

/-- A statement that writes no snapshot and no baseline. -/
theorem exec_of_reads (h : w.Sane) {o : ProjectorOp} (baseline : ∀ row, o ≠ .insertBaseline row)
    (snapshot : ∀ key balanceRaw block, o ≠ .updateSnapshot key balanceRaw block) :
    (o.exec i w).2.Sane ∧ w.Evolves (o.exec i w).2 := by
  cases o with
  | getChainReorgEpoch chainId => exact ⟨h, .rfl w⟩
  | applyDeltas input epoch =>
    simp only [ProjectorOp.exec]
    split
    · exact ⟨h, .rfl w⟩
    · rename_i db' ok
      have grown : ∀ key n, w.db.CanonicalUpTo key n → db'.CanonicalUpTo key n :=
        fun _ _ => applyDeltas_canonicalUpTo ok
      obtain ⟨-, -, frame⟩ := applyDeltas_ok ok
      have sane : ProjectorWorld.Sane { w with db := db' } :=
        h.of_grown grown (by rw [frame]) (by rw [frame]) rfl rfl rfl
      have evolves : w.Evolves { w with db := db' } := .of_grown grown rfl rfl
      exact ⟨hold_sane sane _, evolves.trans (hold_evolves _ _)⟩
  | selectState key =>
    simp only [ProjectorOp.exec]
    split
    · exact ⟨h, .rfl w⟩
    · exact ⟨hold_sane h _, hold_evolves w _⟩
  | insertBaseline row => exact absurd rfl (baseline row)
  | selectDeltas key above upTo => exact ⟨hold_sane h _, hold_evolves w _⟩
  | updateSnapshot key balanceRaw block => exact absurd rfl (snapshot key balanceRaw block)

/-- A baseline of what the run has read. -/
theorem exec_insertBaseline (h : w.Sane) {row : ProjectionBaseline}
    (stands : w.Stands (w.held i).readAt row.chainId row.blockNumber row.blockHash
      (w.held i).included)
    (inEpoch : (ProjectorOp.insertBaseline row).InEpoch i w) :
    ((ProjectorOp.insertBaseline row).exec i w).2.Sane ∧
      w.Evolves ((ProjectorOp.insertBaseline row).exec i w).2 := by
  simp only [ProjectorOp.exec]
  split
  · rename_i fits
    refine ⟨⟨h.snapshot, ?_⟩, .of_grown (fun _ _ before => before) rfl rfl⟩
    intro r hr
    rcases Table.mem_or_eq_of_mem_insertOrIgnore hr with hr | rfl
    · -- the row is of another key, because the new one fits
      have other : r.key ≠ row.key := by
        intro same
        have apart := fits r hr
        simp only [ProjectionBaseline.key, AccountAsset.mk.injEq] at same
        simp [Row.clash, same] at apart
      simp only [if_neg other]
      exact h.baseline r hr
    · simp only [if_pos]
      exact stands.2 (inEpoch fits)
  · exact ⟨h, .rfl w⟩

theorem snapshot_eq_of_key {r r' : BalanceSnapshot} (hr : r ∈ w.db.snapshots)
    (hr' : r' ∈ w.db.snapshots) (same : r.key = r'.key) : r = r' := by
  apply Table.eq_of_clash hr hr'
  simp only [BalanceSnapshot.key, AccountAsset.mk.injEq] at same
  simp [Row.clash, same]

/-- A snapshot of what the run has read. -/
theorem exec_updateSnapshot (h : w.Sane) {key : AccountAsset} {balanceRaw : Int}
    {block : JournalBlock} (chain : key.chainId = block.chainId)
    (stands : w.Stands (w.held i).batchAt block.chainId block.blockNumber block.blockHash
      (w.held i).included)
    (inEpoch : (ProjectorOp.updateSnapshot key balanceRaw block).InEpoch i w) :
    ((ProjectorOp.updateSnapshot key balanceRaw block).exec i w).2.Sane ∧
      w.Evolves ((ProjectorOp.updateSnapshot key balanceRaw block).exec i w).2 := by
  simp only [ProjectorOp.exec]
  split
  · rename_i found
    refine ⟨⟨?_, h.baseline⟩, .of_grown (fun _ _ before => before) rfl rfl⟩
    intro r hr canonical
    obtain ⟨r₀, hr₀, rfl⟩ := (Table.mem_of_rewritten rfl).1 hr
    split
    · rename_i advanced
      simp only [advances, Bool.and_eq_true, beq_iff_eq] at advanced
      obtain ⟨⟨own, -⟩, -⟩ := advanced
      have ofChain : r₀.chainId = block.chainId := by rw [← chain, ← own]; rfl
      show w.orphaned r₀.chainId block.blockNumber block.blockHash = false ∧
        w.db.MadeOf (if r₀.key = key then (w.held i).included else w.inSnapshot r₀.key)
          r₀.chainId block.blockNumber
      rw [if_pos own, ofChain]
      exact stands.2 (inEpoch found)
    · rename_i stays
      rw [if_neg stays] at canonical
      -- the row of the key is the one that is advanced
      have other : r₀.key ≠ key := by
        intro own
        obtain ⟨r₁, hr₁, advanced⟩ := Table.any_eq_true.1 found
        have own₁ := advanced
        simp only [advances, Bool.and_eq_true, beq_iff_eq] at own₁
        obtain rfl := snapshot_eq_of_key hr₀ hr₁ (own.trans own₁.1.1.symm)
        exact stays advanced
      show w.orphaned r₀.chainId r₀.blockNumber r₀.blockHash = false ∧
        w.db.MadeOf (if r₀.key = key then (w.held i).included else w.inSnapshot r₀.key)
          r₀.chainId r₀.blockNumber
      rw [if_neg other]
      exact h.snapshot r₀ hr₀ canonical
  · exact ⟨h, .rfl w⟩

end Statements

/-! ### The discipline -/

def projectorDiscipline : Discipline ProjectorOp ProjectorWorld Unit ProjectorSurroundings
    ProjectionInput where
  Inv := ProjectorWorld.Sane
  Evolves := ProjectorWorld.Evolves
  rely i w w' := w'.held i = w.held i
  allowed := fencing
  refl := .rfl
  trans := .trans
  rely_refl _ _ := rfl
  rely_trans h h' := h'.trans h

variable {w w' : ProjectorWorld} {i : Nat} {block : JournalBlock}

theorem performs_of {o : ProjectorOp} {x : Unit}
    (h : (o.exec i w).2.Sane ∧ w.Evolves (o.exec i w).2) :
    projectorDiscipline.Performs projectorSystem i o x w where
  inv := h.1
  evolves := h.2
  relied _ hj := exec_held hj o w
  ensured := trivial

/-- The batch of the run stands. -/
def Batched (i : Nat) (block : JournalBlock) (w : ProjectorWorld) : Prop :=
  w.Stands (w.held i).batchAt block.chainId block.blockNumber block.blockHash []

/-- What the run has read stands, as far as the block. -/
def Ready (i : Nat) (block : JournalBlock) (w : ProjectorWorld) : Prop :=
  w.Stands (w.held i).batchAt block.chainId block.blockNumber block.blockHash (w.held i).included

/-- The run may take a balance at a block further. -/
def Prepared (i : Nat) (block : JournalBlock) (n : BlockNumber) (w : ProjectorWorld) : Prop :=
  Batched i block w ∧ (n < block.blockNumber → Ready i block w)

theorem Batched.later (h : Batched i block w) (later : projectorDiscipline.Later i w w') :
    Batched i block w' := by
  have same : w'.held i = w.held i := later.relied
  rw [Batched, same]
  exact ProjectorWorld.Stands.later h later.evolves

theorem Ready.later (h : Ready i block w) (later : projectorDiscipline.Later i w w') :
    Ready i block w' := by
  have same : w'.held i = w.held i := later.relied
  rw [Ready, same]
  exact ProjectorWorld.Stands.later h later.evolves

theorem Prepared.later {n : BlockNumber} (h : Prepared i block n w)
    (later : projectorDiscipline.Later i w w') : Prepared i block n w' :=
  ⟨h.1.later later, fun below => (h.2 below).later later⟩

theorem Ready.batched (h : Ready i block w) : Batched i block w :=
  ⟨h.1, fun since => ⟨(h.2 since).1, madeOf_of_eq_nil rfl⟩⟩

/-- A write of the run leaves what it holds. -/
theorem later_of_write {o : ProjectorOp}
    (write : (∃ row, o = .insertBaseline row) ∨
      ∃ key balanceRaw block, o = .updateSnapshot key balanceRaw block)
    (evolves : w.Evolves (o.exec i w).2) (later : projectorDiscipline.Later i (o.exec i w).2 w') :
    projectorDiscipline.Later i w w' := by
  refine ⟨later.inv, evolves.trans later.evolves, Eq.trans later.relied ?_⟩
  rcases write with ⟨row, rfl⟩ | ⟨key, balanceRaw, block, rfl⟩
  · simp only [ProjectorOp.exec]
    split <;> rfl
  · simp only [ProjectorOp.exec]
    split <;> rfl

/-- The balance that a projection starts from. -/
def ProjectionSnapshotState.start (state : ProjectionSnapshotState) : BalanceAt :=
  state.baseline.getD state.snapshot

theorem exec_selectState (key : AccountAsset) :
    ((ProjectorOp.selectState key).exec i w).1 = selectState key w.policies w.db := by
  simp only [ProjectorOp.exec]
  split
  · rename_i found
    exact found.symm
  · rename_i found
    exact found.symm

/-- Deltas that the run has read now stand from its batch on. -/
theorem prepared_hold {held : Held} {n : BlockNumber} (batchAt : held.batchAt = (w.held i).batchAt)
    (batched : Batched i block w) (made : w.db.MadeOf held.included block.chainId n) :
    Prepared i block n (w.hold i held) := by
  constructor
  · rw [Batched, hold_held, batchAt]
    exact batched
  · intro below
    rw [Ready, hold_held, batchAt]
    refine ⟨batched.1, fun since => ?_⟩
    exact ⟨(batched.2 since).1, made.mono (Nat.le_of_lt below)⟩

/-- What a run has read of an account. -/
theorem exec_selectState_some {key : AccountAsset} {state : ProjectionSnapshotState}
    (hw : w.Sane) (batched : Batched i block w) (chain : key.chainId = block.chainId)
    (found : selectState key w.policies w.db = some state) :
    Prepared i block state.start.blockNumber ((ProjectorOp.selectState key).exec i w).2 ∧
      (state.baseline = none →
        ((ProjectorOp.selectState key).exec i w).2.Stands
          (((ProjectorOp.selectState key).exec i w).2.held i).readAt key.chainId
          state.snapshot.blockNumber state.snapshot.blockHash
          (((ProjectorOp.selectState key).exec i w).2.held i).included) := by
  simp only [ProjectorOp.exec, found]
  obtain ⟨snapshot, hsnapshot, h⟩ := Option.bind_eq_some_iff.1 found
  obtain ⟨policy, -, h⟩ := Option.bind_eq_some_iff.1 h
  obtain rfl := Option.some.inj h
  have matched := Table.of_find? (p := fun r : BalanceSnapshot => r.key == key && r.canonical)
    hsnapshot
  rw [Bool.and_eq_true, beq_iff_eq] at matched
  have ofKey : snapshot.chainId = key.chainId := by rw [← matched.1]; rfl
  have read := hw.snapshot snapshot (Table.mem_of_find? hsnapshot) matched.2
  rw [matched.1, ofKey] at read
  cases hbaseline : w.db.baselines.find? fun r => r.key == key with
  | none =>
    refine ⟨prepared_hold rfl batched ?_, fun _ => ?_⟩
    · rw [← chain]
      exact read.2
    · rw [hold_held]
      exact ⟨Nat.le_refl _, fun _ => read⟩
  | some baseline =>
    refine ⟨prepared_hold rfl batched ?_, fun none => by cases none⟩
    have own : baseline.key = key :=
      beq_iff_eq.1 (Table.of_find? (p := fun r : ProjectionBaseline => r.key == key) hbaseline)
    have ofKey : baseline.chainId = block.chainId := by rw [← chain, ← own]; rfl
    have read := (hw.baseline baseline (Table.mem_of_find? hbaseline)).2
    rw [own, ofKey] at read
    exact read

/-- The deltas that a run reads are not above its block. -/
theorem exec_selectDeltas {key : AccountAsset} {above : BlockNumber} (ready : Ready i block w)
    (chain : key.chainId = block.chainId) :
    Ready i block ((ProjectorOp.selectDeltas key above block.blockNumber).exec i w).2 := by
  simp only [ProjectorOp.exec]
  rw [Ready, hold_held]
  refine ⟨ready.1, fun since => ⟨(ready.2 since).1, fun dkey mem => ?_⟩⟩
  rcases List.mem_append.1 mem with mem | mem
  · exact (ready.2 since).2 dkey mem
  · obtain ⟨r, hr, rfl⟩ := List.mem_map.1 mem
    obtain ⟨hr, matched⟩ := List.mem_filter.1 hr
    simp only [Bool.and_eq_true, beq_iff_eq] at matched
    obtain ⟨⟨⟨⟨ofChain, -⟩, -⟩, canonical⟩, event⟩ := matched
    obtain ⟨e, he, own⟩ := Table.any_eq_true.1 event
    simp only [Bool.and_eq_true, beq_iff_eq, decide_eq_true_eq] at own
    exact ⟨ofChain.trans chain, ⟨r, hr, rfl, canonical⟩, e, he, own.1.1.1.1, own.1.1.1.2, own.2⟩

/-! ### A run -/

abbrev Projector.wp {α : Type} (p : Projector α) (i : Nat)
    (Q : Except String α → ProjectorWorld → Prop) (w : ProjectorWorld) : Prop :=
  projectorDiscipline.wp projectorSystem i p Q w

theorem wp_ensureBaseline {key : AccountAsset} {state : ProjectionSnapshotState} (hw : w.Sane)
    (prepared : Prepared i block state.start.blockNumber w)
    (read : state.baseline = none → w.Stands (w.held i).readAt key.chainId
      state.snapshot.blockNumber state.snapshot.blockHash (w.held i).included) :
    Projector.wp (ensureBaseline key state) i
      (fun r w' => ∃ baseline, r = .ok baseline ∧ w'.Sane ∧
        Prepared i block baseline.blockNumber w') w := by
  unfold ensureBaseline
  rw [ProjectionSnapshotState.start] at prepared
  split
  · rename_i baseline found
    rw [found] at prepared
    exact ⟨baseline, rfl, hw, prepared⟩
  · rename_i absent
    rw [absent] at prepared
    refine Discipline.wp_act _ _ (fun _ inEpoch => ?_) fun _ inEpoch w' later => ?_
    · exact performs_of (exec_insertBaseline hw (read absent) inEpoch)
    · have wrote := later_of_write (.inl ⟨_, rfl⟩)
        (exec_insertBaseline hw (read absent) inEpoch).2 later
      exact ⟨state.snapshot, rfl, later.inv, prepared.later wrote⟩

/-- What the loop over the accounts keeps. -/
def Kept (i : Nat) (block : JournalBlock) {α : Type} (_ : Except String α) (w : ProjectorWorld) :
    Prop :=
  w.Sane ∧ Batched i block w

theorem wp_advanceSnapshot (result : SnapshotResult) (account : AffectedAccount)
    (state : ProjectionSnapshotState) {baseline : BalanceAt} (hw : w.Sane)
    (prepared : Prepared i block baseline.blockNumber w) :
    Projector.wp (advanceSnapshot block result account state baseline) i (Kept i block) w := by
  unfold advanceSnapshot
  dsimp only
  split
  · exact ⟨hw, prepared.1⟩
  rename_i above
  have ready := prepared.2 (Nat.not_le.1 above)
  refine Discipline.wp_act _ _ (fun _ _ => ?_) fun _ _ w₁ later₁ => ?_
  · exact performs_of (exec_of_reads hw (fun _ => by simp) fun _ _ _ => by simp)
  have ready₁ := (exec_selectDeltas ready rfl).later later₁
  rw [Prog.ret_bind]
  split
  · exact ⟨later₁.inv, ready₁.batched⟩
  refine Discipline.wp_act _ _ (fun _ inEpoch => ?_) fun _ inEpoch w₂ later₂ => ?_
  · exact performs_of (exec_updateSnapshot later₁.inv rfl ready₁ inEpoch)
  have wrote := later_of_write (.inr ⟨_, _, _, rfl⟩)
    (exec_updateSnapshot later₁.inv rfl ready₁ inEpoch).2 later₂
  have batched₂ := ready₁.batched.later wrote
  rw [Prog.ret_bind]
  split
  · exact ⟨later₂.inv, batched₂⟩
  · exact ⟨later₂.inv, batched₂⟩

theorem wp_refreshAccount (result : SnapshotResult) (account : AffectedAccount) (hw : w.Sane)
    (batched : Batched i block w) :
    Projector.wp (refreshAccount block result account) i (Kept i block) w := by
  unfold refreshAccount
  refine Discipline.wp_act _ _ (fun _ _ => ?_) fun x _ w₁ later₁ => ?_
  · exact performs_of (exec_of_reads hw (fun _ => by simp) fun _ _ _ => by simp)
  rw [show (projectorSystem.exec i (.selectState _) _ w).1 = _ from exec_selectState _,
    Prog.ret_bind]
  split
  · rename_i absent
    have still : (projectorSystem.exec i (.selectState (account.key block.chainId)) x w).2 = w := by
      show ((ProjectorOp.selectState _).exec i w).2 = w
      simp only [ProjectorOp.exec, absent]
    rw [still] at later₁
    exact ⟨later₁.inv, batched.later later₁⟩
  · rename_i state found
    obtain ⟨prepared, read⟩ := exec_selectState_some hw batched rfl found
    have prepared₁ := prepared.later later₁
    have held₁ : w₁.held i = _ := later₁.relied
    split
    · refine (Discipline.wp_bind _ _ _ _ _ _).2 (Discipline.wp_mono _ _
        (wp_ensureBaseline later₁.inv prepared₁ fun absent => ?_) ?_)
      · rw [held₁]
        exact (read absent).later later₁.evolves
      · rintro _ w₂ ⟨baseline, rfl, hw₂, prepared₂⟩
        exact wp_advanceSnapshot result account state hw₂ prepared₂
    · exact ⟨later₁.inv, prepared₁.1⟩

theorem wp_refreshAccounts (result : SnapshotResult) (accounts : List AffectedAccount)
    (hw : w.Sane) (batched : Batched i block w) :
    Projector.wp (refreshAccounts block result accounts) i (Kept i block) w := by
  induction accounts generalizing result w with
  | nil => exact ⟨hw, batched⟩
  | cons account accounts ih =>
    refine (Discipline.wp_bind _ _ _ _ _ _).2
      (Discipline.wp_mono _ _ (wp_refreshAccount result account hw batched) ?_)
    rintro (m | result') w' ⟨hw', batched'⟩
    · exact ⟨hw', batched'⟩
    · exact ih result' hw' batched'

/-- From the batch on. -/
theorem wp_applyDeltas (input : ProjectionInput) (epoch : Nat) (hw : w.Sane) :
    Projector.wp (applyAndRefresh input epoch) i (fun _ _ => True) w := by
  unfold applyAndRefresh
  refine Discipline.wp_act _ _ (fun _ _ => ?_) fun x inEpoch w₁ later₁ => ?_
  · exact performs_of (exec_of_reads hw (fun _ => by simp) fun _ _ _ => by simp)
  cases h : applyDeltas input epoch w.db with
  | error e =>
    have failed : (projectorSystem.exec i (.applyDeltas input epoch) x w).1 = .error e := by
      show ((ProjectorOp.applyDeltas input epoch).exec i w).1 = _
      simp only [ProjectorOp.exec, h]
    rw [failed]
    trivial
  | ok db' =>
    have applied : projectorSystem.exec i (.applyDeltas input epoch) x w =
        (.ok (), ProjectorWorld.hold { w with db := db' } i
          { w.held i with batchAt := w.recoveries.length }) := by
      show (ProjectorOp.applyDeltas input epoch).exec i w = _
      simp only [ProjectorOp.exec, h]
    rw [applied] at later₁ ⊢
    have batched : Batched i input.block w₁ := by
      refine Batched.later ?_ later₁
      rw [Batched, hold_held]
      refine ⟨Nat.le_refl _, fun _ => ⟨inEpoch (applyDeltas_ok h).1, madeOf_of_eq_nil rfl⟩⟩
    exact Discipline.wp_mono _ _ (wp_refreshAccounts _ _ later₁.inv batched) fun _ _ _ => trivial

theorem wp_projectBalanceDeltas (input : ProjectionInput) (hw : w.Sane) :
    Projector.wp (projectBalanceDeltas input) i (fun _ _ => True) w := by
  unfold projectBalanceDeltas
  split
  · exact wp_applyDeltas input _ hw
  · refine Discipline.wp_act _ _ (fun _ _ => ?_) fun _ _ w₁ later₁ => ?_
    · exact performs_of (exec_of_reads hw (fun _ => by simp) fun _ _ _ => by simp)
    · exact wp_applyDeltas input _ later₁.inv

/-! ### Around the runs -/

theorem event_eq {db : Db} {e e' : ChainEvent} (he : e ∈ db.chainEvents) (he' : e' ∈ db.chainEvents)
    (id : e.eventId = e'.eventId) (hash : e.blockHash = e'.blockHash) : e = e' := by
  apply Table.eq_of_clash he he'
  simp [Row.clash, id, hash]

/-- A recovery leaves the deltas of events that are not above its ancestor. -/
theorem rollback_canonicalUpTo {db : Db} {chainId : ChainId} {ancestor n : BlockNumber}
    {ancestorHash : BlockHash} {key : DeltaKey} (h : db.CanonicalUpTo key n)
    (below : key.eventId.chainId = chainId → n ≤ ancestor) :
    (rollback chainId ancestor ancestorHash db).CanonicalUpTo key n := by
  obtain ⟨⟨r, hr, rfl, canonical⟩, e, he, id, hash, number⟩ := h
  constructor
  · have kept : ¬ (r.eventId.chainId = chainId ∧
        db.orphanedEvent chainId ancestor r.eventId r.blockHash = true) := by
      rintro ⟨ofChain, orphaned⟩
      obtain ⟨e', he', matched⟩ := Table.any_eq_true.1 orphaned
      simp only [Bool.and_eq_true, beq_iff_eq, decide_eq_true_eq] at matched
      obtain ⟨⟨⟨-, above⟩, id'⟩, hash'⟩ := matched
      obtain rfl := event_eq he he' (id.trans id'.symm) (hash.trans hash'.symm)
      exact absurd (Nat.le_trans number (below ofChain)) (Nat.not_le.2 above)
    have after : r ∈ (rollback chainId ancestor ancestorHash db).deltas ∧ r.canonical = true :=
      mem_rollback_deltas.2 ⟨⟨hr, canonical⟩, kept⟩
    exact ⟨r, after.1, rfl, after.2⟩
  · have kept : ∃ e' ∈ (rollback chainId ancestor ancestorHash db).chainEvents,
        e'.eventId = e.eventId ∧ e'.blockHash = e.blockHash ∧ e'.blockNumber = e.blockNumber :=
      exists_mem_rollback_chainEvents he
    obtain ⟨e', he', id', hash', number'⟩ := kept
    exact ⟨e', he', id'.trans id, hash'.trans hash, number'.symm ▸ number⟩

theorem recover_moves (h : w.Sane) (chainId : ChainId) (ancestor : BlockNumber)
    (ancestorHash : BlockHash) (blocks : BlockNumber → BlockHash) :
    ((ProjectorSurroundings.recover chainId ancestor ancestorHash blocks).move w).Sane ∧
      w.Evolves ((ProjectorSurroundings.recover chainId ancestor ancestorHash blocks).move w) := by
  generalize hw' : (ProjectorSurroundings.recover chainId ancestor ancestorHash blocks).move w = w'
  have since : ∀ c n, w'.Since w.recoveries.length c n ↔ (c = chainId → n ≤ ancestor) := by
    intro c n
    subst hw'
    simp [ProjectorWorld.Since, ProjectorSurroundings.move, eq_comm]
  have evolves : w.Evolves w' := by
    constructor
    · subst hw'
      exact List.prefix_append _ _
    · intro c n hash before after
      rw [since] at after
      subst hw'
      refine (if_neg ?_).trans before
      rintro ⟨own, above⟩
      exact absurd (after own) (Nat.not_le.2 above)
    · intro key n before after
      rw [since] at after
      subst hw'
      exact rollback_canonicalUpTo before after
  have stays : ∀ {c n hash included}, w.orphaned c n hash = false → w.db.MadeOf included c n →
      ¬ (c = chainId ∧ ancestor < n) → w'.orphaned c n hash = false ∧ w'.db.MadeOf included c n := by
    intro c n hash included block made below
    have after := (since c n).2 fun own => Nat.not_lt.1 fun above => below ⟨own, above⟩
    refine ⟨evolves.orphaned c n hash block after, fun key mem => ?_⟩
    obtain ⟨ofChain, before⟩ := made key mem
    exact ⟨ofChain, evolves.deltas key n before (by rwa [ofChain])⟩
  refine ⟨⟨?_, ?_⟩, evolves⟩
  · intro r hr canonical
    subst hw'
    obtain ⟨⟨hr, -⟩, below⟩ := mem_rollback_snapshots.1 ⟨hr, canonical⟩
    obtain ⟨block, made⟩ := h.snapshot r hr canonical
    exact stays block made below
  · intro r hr
    subst hw'
    obtain ⟨hr, below⟩ := mem_rollback_baselines.1 hr
    obtain ⟨block, made⟩ := h.baseline r hr
    exact stays block made below

theorem journal_moves (h : w.Sane) (input : JournalInput) :
    ((ProjectorSurroundings.journalBlockEvents input).move w).Sane ∧
      w.Evolves ((ProjectorSurroundings.journalBlockEvents input).move w) := by
  simp only [ProjectorSurroundings.move]
  cases ok : journalBlockEvents input w.db with
  | error e =>
    rw [Contract.transact_of_error (C := journal) (c := .journal input) ok]
    exact ⟨h, .rfl w⟩
  | ok db' =>
    rw [Contract.transact_of_ok (C := journal) (c := .journal input) ok]
    obtain ⟨deltas, snapshots, baselines, -⟩ := journalBlockEvents_frame ok
    have grown : ∀ key n, w.db.CanonicalUpTo key n → db'.CanonicalUpTo key n := by
      rintro key n ⟨delta, e, he, id, hash, number⟩
      obtain ⟨e', he', id', hash', number'⟩ :=
        exists_mem_foldlM_journalEvent (journaled ok).events e he
      refine ⟨?_, e', he', id'.trans id, hash'.trans hash, number'.symm ▸ number⟩
      rw [Db.CanonicalDelta, deltas]
      exact delta
    exact ⟨h.of_grown grown snapshots baselines rfl rfl rfl, .of_grown grown rfl rfl⟩

/-- The balance that was read includes no delta. -/
theorem inSnapshot_taken {snapshot : BalanceSnapshot} {key : AccountAsset} (own : key = snapshot.key)
    (behind : ∀ r ∈ w.db.snapshots, r.key = key → takesOver snapshot r = true) :
    ((ProjectorSurroundings.readBalance snapshot).move w).inSnapshot key = [] :=
  if_pos ⟨own, behind⟩

theorem inSnapshot_left {snapshot : BalanceSnapshot} {key : AccountAsset}
    (stays : ¬ (key = snapshot.key ∧
      ∀ r ∈ w.db.snapshots, r.key = key → takesOver snapshot r = true)) :
    ((ProjectorSurroundings.readBalance snapshot).move w).inSnapshot key = w.inSnapshot key :=
  if_neg stays

theorem readBalance_moves (h : w.Sane) (snapshot : BalanceSnapshot)
    (onChain : w.orphaned snapshot.chainId snapshot.blockNumber snapshot.blockHash = false) :
    ((ProjectorSurroundings.readBalance snapshot).move w).Sane ∧
      w.Evolves ((ProjectorSurroundings.readBalance snapshot).move w) := by
  refine ⟨⟨?_, h.baseline⟩, .of_grown (fun _ _ before => before) rfl rfl⟩
  intro r hr canonical
  have ofClash : ∀ r ∈ w.db.snapshots, ∀ r' : BalanceSnapshot,
      Row.clash r r' = true ↔ r.key = r'.key := by
    intro r _ r'
    simp [Row.clash, BalanceSnapshot.key, and_assoc]
  rcases Table.mem_upsert hr with ⟨rfl, fits⟩ | ⟨r₀, hr₀, rfl⟩
  · refine ⟨onChain, ?_⟩
    have alone : ∀ r ∈ w.db.snapshots, r.key = snapshot.key → takesOver snapshot r = true := by
      intro r hr same
      have apart := fits r hr
      rw [(ofClash r hr { snapshot with canonical := true }).2 same] at apart
      cases apart
    have none := inSnapshot_taken rfl alone
    exact madeOf_of_eq_nil none
  · by_cases own : r₀.key = snapshot.key
    · have clash := (ofClash r₀ hr₀ { snapshot with canonical := true }).2 own
      have ofChain : r₀.chainId = snapshot.chainId := congrArg AccountAsset.chainId own
      rw [if_pos clash] at canonical ⊢
      by_cases behind : takesOver snapshot r₀ = true
      · rw [if_pos behind]
        refine ⟨by rw [← ofChain] at onChain; exact onChain, ?_⟩
        have alone : ∀ r ∈ w.db.snapshots, r.key = r₀.key → takesOver snapshot r = true := by
          intro r hr same
          rw [snapshot_eq_of_key hr hr₀ same]
          exact behind
        have none := inSnapshot_taken own alone
        exact madeOf_of_eq_nil none
      · rw [if_neg behind] at canonical ⊢
        have others : ¬ (r₀.key = snapshot.key ∧
            ∀ r ∈ w.db.snapshots, r.key = r₀.key → takesOver snapshot r = true) :=
          fun all => behind (all.2 r₀ hr₀ rfl)
        rw [inSnapshot_left others]
        exact h.snapshot r₀ hr₀ canonical
    · have apart : ¬ Row.clash r₀ { snapshot with canonical := true } = true :=
        fun clash => own ((ofClash r₀ hr₀ _).1 clash)
      rw [if_neg apart] at canonical ⊢
      rw [inSnapshot_left fun all => own all.1]
      exact h.snapshot r₀ hr₀ canonical

/-- What happens around the runs follows the discipline. -/
theorem surroundings_moves (e : ProjectorSurroundings) (h : w.Sane) (onChain : e.OnChain w) :
    projectorDiscipline.Moves w (e.move w) := by
  have moves : (e.move w).Sane ∧ w.Evolves (e.move w) := by
    cases e with
    | recover chainId ancestor ancestorHash blocks => exact recover_moves h _ _ _ _
    | journalBlockEvents input => exact journal_moves h input
    | readBalance snapshot => exact readBalance_moves h snapshot onChain
    | setPolicies policies => exact ⟨⟨h.snapshot, h.baseline⟩, .of_grown (fun _ _ b => b) rfl rfl⟩
  refine ⟨⟨moves.1, moves.2⟩, fun j => ?_⟩
  cases e <;> rfl

theorem projector_obeys : projectorDiscipline.Obeys projectorSystem fun _ _ => True where
  env e _ hw onChain := surroundings_moves e hw onChain
  call input _ _ _ _ _ later := wp_projectBalanceDeltas input later.inv

/-! ### Every run -/

abbrev ProjectorSchedule := List (Label Unit ProjectorSurroundings ProjectionInput)

/-- Before anything was indexed. -/
def projectorStart (chain : ChainId → BlockNumber → BlockHash) :
    Pool ProjectorOp ProjectorOp.Reply ProjectorWorld SnapshotResult :=
  ⟨.initial chain, []⟩

/-- The read models are fenced in every run in which the writes of a refresh come before a
recovery that goes below them. -/
theorem balances_fenced (chain : ChainId → BlockNumber → BlockHash) (ls : ProjectorSchedule)
    (h : projectorSystem.Along fencing (projectorStart chain) ls) :
    (projectorSystem.runFrom (projectorStart chain) ls).world.Fenced := by
  have sane : (ProjectorWorld.initial chain).Sane := by
    constructor
    · intro r hr
      exact absurd hr (Table.not_mem_empty r)
    · intro r hr
      exact absurd hr (Table.not_mem_empty r)
  have sound := Discipline.sound_runFrom projector_obeys (Discipline.sound_empty sane) h
  exact sound.inv.fenced

/-! A deposit of 25 in block 100, on a chain on which block `n` has the hash `100 * n`, and
`100 * n + 1` after a recovery to block 95. -/

def deposit (number : BlockNumber) (hash : BlockHash) : JournalEvent where
  txHash := 5
  logIndex := 0
  eventKind := .erc20Transfer
  blockNumber := number
  blockHash := hash
  canonical := true
  accounts := [{ uid := 1, accountAddress := 7, asset := 1, deltaRaw := some 25 }]

/-- The deposit is journaled. -/
def journaledDeposit (number : BlockNumber) (hash : BlockHash) (epoch : Nat) :
    Label Unit ProjectorSurroundings ProjectionInput :=
  .env (.journalBlockEvents
    { stream := ['t'], block := { chainId := 421614, blockNumber := number, blockHash := hash }
      events := [deposit number hash], userOperationReceipts := [], expectedReorgEpoch := epoch })

/-- A run for the deposit starts. -/
def projectedDeposit (number : BlockNumber) (hash : BlockHash) (epoch : Nat) :
    Label Unit ProjectorSurroundings ProjectionInput :=
  .spawn { block := { chainId := 421614, blockNumber := number, blockHash := hash }
           events := [deposit number hash], expectedReorgEpoch := some epoch }

/-- The balance is read over RPC. -/
def readBalanceAt (number : BlockNumber) (hash : BlockHash) :
    Label Unit ProjectorSurroundings ProjectionInput :=
  .env (.readBalance
    { uid := 1, accountAddress := 7, chainId := 421614, asset := 1, balanceRaw := 10
      blockNumber := number, blockHash := hash, source := .rpc, canonical := true })

def projectFromEvents : Label Unit ProjectorSurroundings ProjectionInput :=
  .env (.setPolicies fun _ _ =>
    some { strategy := .events, projectionVersion := 1, enabled := true })

def recoverTo95 : Label Unit ProjectorSurroundings ProjectionInput :=
  .env (.recover 421614 95 9500 fun n => 100 * n + 1)

/-- The statements of a run, one after the other. -/
def statements (i n : Nat) : ProjectorSchedule := List.replicate n (.step i ())

/-- The run ends before the recovery, and another one projects the deposit where it has
moved to. -/
def fencedRun : ProjectorSchedule :=
  [projectFromEvents, readBalanceAt 90 9000, journaledDeposit 100 10000 0,
    projectedDeposit 100 10000 0] ++ statements 0 5 ++
  [recoverTo95, readBalanceAt 96 9601, journaledDeposit 101 10101 1,
    projectedDeposit 101 10101 1] ++ statements 1 5

theorem balances_fenced_moved :
    (projectorSystem.runFrom (projectorStart fun _ n => 100 * n) fencedRun).world.Fenced :=
  balances_fenced _ fencedRun (by decide +kernel)

/-- The recovery comes after the deltas were read. -/
def snapshotOvertaken : ProjectorSchedule :=
  [projectFromEvents, readBalanceAt 90 9000, journaledDeposit 100 10000 0,
    projectedDeposit 100 10000 0] ++ statements 0 4 ++ [recoverTo95] ++ statements 0 1

/-- The recovery comes after the snapshot was read, of which the baseline is made. -/
def baselineOvertaken : ProjectorSchedule :=
  [projectFromEvents, readBalanceAt 97 9700, journaledDeposit 100 10000 0,
    projectedDeposit 100 10000 0] ++ statements 0 2 ++ [recoverTo95] ++ statements 0 1

/-- The snapshot is of the block that the recovery took off the chain, with a delta that it
took back; and so is the baseline. -/
theorem balances_not_fenced :
    ¬ (projectorSystem.runFrom (projectorStart fun _ n => 100 * n) snapshotOvertaken).world.Fenced ∧
    ¬ (projectorSystem.runFrom (projectorStart fun _ n => 100 * n)
      baselineOvertaken).world.Fenced := by
  constructor
  · intro fenced
    have block := fenced.snapshot
      { uid := 1, accountAddress := 7, chainId := 421614, asset := 1, balanceRaw := 35
        blockNumber := 100, blockHash := 10000, source := .eventProjection, canonical := true }
      (by decide +kernel) rfl
    revert block
    decide +kernel
  · intro fenced
    have block := fenced.baseline
      { chainId := 421614, accountAddress := 7, asset := 1, balanceRaw := 10
        blockNumber := 97, blockHash := 9700 }
      (by decide +kernel)
    revert block
    decide +kernel

end ParmeliaLinks.Server
