/-
ParmeliaLinks/Server/ProjectedDelivery.lean

What one delivery of events does to the balances that are projected from them.  The
batch adds the deltas of the events that have none yet, and with them what the deltas
in any range of blocks add up to.  The loop then refreshes each account that the events
touch once, and leaves the others alone.
-/
import Mathlib.Algebra.Order.Ring.Int
import Mathlib.Algebra.BigOperators.Group.List.Basic
import ParmeliaLinks.Lib.Alone
import ParmeliaLinks.Server.BalanceFence

namespace ParmeliaLinks.Server

/-! ### What a delivery brings -/

/-- What an event changes in the balance of an account. -/
def deltaFor (key : AccountAsset) (accounts : List JournalEventAccount) : Int :=
  (accounts.map fun a =>
    if a.accountAddress = key.accountAddress ∧ a.asset = key.asset then a.deltaRaw.getD 0
    else 0).sum

/-- One more event, unless it is there. -/
def addDistinct (chainId : ChainId) (seen : List JournalEvent) (event : JournalEvent) :
    List JournalEvent :=
  if seen.any fun e => e.id chainId == event.id chainId then seen else seen ++ [event]

/-- A delivery that refreshes the snapshot of an account. -/
def ProjectionInput.Touches (d : ProjectionInput) (key : AccountAsset) : Prop :=
  ∃ account ∈ affectedEventAccounts d.events, account.key d.block.chainId = key

/-- The projector runs over the deliveries, one by one. -/
def ProjectorWorld.deliver (w : ProjectorWorld) (deliveries : List ProjectionInput) :
    ProjectorWorld :=
  deliveries.foldl (fun w d => ((projectBalanceDeltas d).alone (ProjectorOp.exec 0) w).2) w

/-- A delivery is a run of the system in which nothing comes in between. -/
theorem deliver_run (w : ProjectorWorld) (d : ProjectionInput) :
    ∃ n, (projectorSystem.run w (.spawn d :: List.replicate n (.step 0 ()))).world =
      w.deliver [d] := by
  obtain ⟨n, run⟩ := projectorSystem.runFrom_alone 0 () (projectBalanceDeltas d)
    (p := ⟨w, [projectBalanceDeltas d]⟩) rfl
  refine ⟨n, ?_⟩
  show (projectorSystem.runFrom ⟨w, [projectBalanceDeltas d]⟩ _).world = _
  rw [run]
  rfl

def ProjectorWorld.snapshotOf (w : ProjectorWorld) (key : AccountAsset) :
    Option BalanceSnapshot :=
  w.db.snapshots.find? fun r => r.key == key && r.canonical

def ProjectorWorld.baselineOf (w : ProjectorWorld) (key : AccountAsset) :
    Option ProjectionBaseline :=
  w.db.baselines.find? fun r => r.key == key

/-! ### The deltas of one event -/

section Aggregation

variable {wallet : Uid → Address}

/-- What entries add up to, for an account. -/
def entriesFor (key : AccountAsset) (entries : List AccountDelta) : Int :=
  (entries.map fun entry =>
    if entry.accountAddress = key.accountAddress ∧ entry.asset = key.asset then entry.deltaRaw
    else 0).sum

/-- An entry for each user and asset, at the wallet of the user. -/
structure Aggregated (wallet : Uid → Address) (entries : List AccountDelta) : Prop where
  wallets : ∀ entry ∈ entries, entry.accountAddress = wallet entry.uid
  distinct : entries.Pairwise fun a b => ¬ (a.uid = b.uid ∧ a.asset = b.asset)

theorem entriesFor_append (key : AccountAsset) (entries more : List AccountDelta) :
    entriesFor key (entries ++ more) = entriesFor key entries + entriesFor key more := by
  rw [entriesFor, List.map_append, List.sum_append]
  rfl

/-- Adding to the entry of a user and asset, of which there is one. -/
theorem entriesFor_addTo {entries : List AccountDelta} (h : Aggregated wallet entries)
    {uid : Uid} {asset : Asset} (deltaRaw : Int) (key : AccountAsset)
    (found : ∃ entry ∈ entries, entry.uid = uid ∧ entry.asset = asset) :
    entriesFor key (entries.map fun entry =>
      if entry.uid == uid && entry.asset == asset then
        { entry with deltaRaw := entry.deltaRaw + deltaRaw }
      else entry) =
    entriesFor key entries +
      if wallet uid = key.accountAddress ∧ asset = key.asset then deltaRaw else 0 := by
  induction entries with
  | nil =>
    obtain ⟨entry, hentry, -⟩ := found
    cases hentry
  | cons entry rest ih =>
    obtain ⟨apart, distinct⟩ := List.pairwise_cons.1 h.distinct
    have wallets := h.wallets entry List.mem_cons_self
    simp only [entriesFor, List.map_cons, List.sum_cons, Bool.and_eq_true, beq_iff_eq] at ih ⊢
    by_cases own : entry.uid = uid ∧ entry.asset = asset
    · -- the others are of another user or asset
      have same : rest.map (fun entry => if entry.uid = uid ∧ entry.asset = asset then
          { entry with deltaRaw := entry.deltaRaw + deltaRaw } else entry) = rest := by
        rw [List.map_congr_left (g := id), List.map_id]
        intro other hother
        apply if_neg
        intro both
        exact apart other hother ⟨own.1.trans both.1.symm, own.2.trans both.2.symm⟩
      rw [same, if_pos own]
      obtain ⟨rfl, rfl⟩ := own
      rw [wallets]
      by_cases hit : wallet entry.uid = key.accountAddress ∧ entry.asset = key.asset
      · rw [if_pos hit, if_pos hit, if_pos hit]
        show entry.deltaRaw + deltaRaw + _ = _
        omega
      · rw [if_neg hit, if_neg hit, if_neg hit]
        omega
    · have ih := ih ⟨fun e he => h.wallets e (List.mem_cons_of_mem _ he), distinct⟩ (by
        obtain ⟨e, he, both⟩ := found
        rcases List.mem_cons.1 he with rfl | he
        · exact absurd both own
        · exact ⟨e, he, both⟩)
      rw [if_neg own, ih]
      omega

/-- One more account of an event. -/
theorem addDelta_spec {entries : List AccountDelta} (h : Aggregated wallet entries)
    {account : JournalEventAccount} (home : account.accountAddress = wallet account.uid)
    (key : AccountAsset) :
    Aggregated wallet (addDelta entries account) ∧
      entriesFor key (addDelta entries account) = entriesFor key entries +
        if account.accountAddress = key.accountAddress ∧ account.asset = key.asset then
          account.deltaRaw.getD 0
        else 0 := by
  unfold addDelta
  split
  · rename_i none
    refine ⟨h, ?_⟩
    rw [none, Option.getD_none, ite_self, Int.add_zero]
  · rename_i deltaRaw some
    rw [some, Option.getD_some]
    split
    · rename_i found
      refine ⟨⟨?_, ?_⟩, ?_⟩
      · intro entry hentry
        obtain ⟨entry, h₀, rfl⟩ := List.mem_map.1 hentry
        split
        · exact h.wallets entry h₀
        · exact h.wallets entry h₀
      · refine List.pairwise_map.2 (h.distinct.imp fun {a b} apart => ?_)
        intro both
        apply apart
        split at both <;> split at both <;> exact both
      · rw [home]
        refine entriesFor_addTo h deltaRaw key ?_
        simpa [and_assoc] using found
    · rename_i missing
      refine ⟨⟨?_, ?_⟩, ?_⟩
      · intro entry hentry
        rcases List.mem_append.1 hentry with h₀ | h₀
        · exact h.wallets entry h₀
        · cases List.mem_singleton.1 h₀
          exact home
      · refine List.pairwise_append.2 ⟨h.distinct, List.pairwise_singleton _ _, ?_⟩
        intro a ha b hb both
        cases List.mem_singleton.1 hb
        apply missing
        rw [List.any_eq_true]
        exact ⟨a, ha, by simp [both]⟩
      · rw [entriesFor_append]
        simp [entriesFor]

/-- The entries of an event add up to what the event changes. -/
theorem aggregateEventDeltas_spec {accounts : List JournalEventAccount}
    (home : ∀ a ∈ accounts, a.accountAddress = wallet a.uid) (key : AccountAsset) :
    Aggregated wallet (aggregateEventDeltas accounts) ∧
      entriesFor key (aggregateEventDeltas accounts) = deltaFor key accounts := by
  have loop : ∀ entries, Aggregated wallet entries →
      Aggregated wallet (accounts.foldl addDelta entries) ∧
        entriesFor key (accounts.foldl addDelta entries) =
          entriesFor key entries + deltaFor key accounts := by
    induction accounts with
    | nil => exact fun entries h => ⟨h, (Int.add_zero _).symm⟩
    | cons account rest ih =>
      intro entries h
      obtain ⟨added, sum⟩ := addDelta_spec h (home account List.mem_cons_self) key
      obtain ⟨all, sum'⟩ := ih (fun a ha => home a (List.mem_cons_of_mem _ ha)) _ added
      refine ⟨all, ?_⟩
      rw [List.foldl_cons, sum', sum, deltaFor, deltaFor, List.map_cons, List.sum_cons]
      omega
  obtain ⟨all, sum⟩ := loop [] ⟨fun _ h => absurd h List.not_mem_nil, .nil⟩
  refine ⟨⟨fun entry h => all.wallets entry (List.mem_of_mem_filter h), all.distinct.filter _⟩, ?_⟩
  -- an entry of zero that drops out adds nothing
  have filtered : ∀ entries : List AccountDelta,
      entriesFor key (entries.filter fun entry => entry.deltaRaw != 0) =
        entriesFor key entries := by
    intro entries
    induction entries with
    | nil => rfl
    | cons entry rest ih =>
      by_cases zero : entry.deltaRaw = 0
      · rw [List.filter_cons_of_neg (by simp [zero]), ih]
        simp [entriesFor, zero]
      · rw [List.filter_cons_of_pos (by simp [zero])]
        simp only [entriesFor, List.map_cons, List.sum_cons] at ih ⊢
        rw [ih]
  rw [aggregateEventDeltas, filtered, sum]
  exact Int.zero_add _

end Aggregation

/-! ### The table of deltas -/

section Deltas

variable {wallet : Uid → Address} {c : ChainId} {db₀ db : Db} {e : JournalEvent}

/-- What events in a range of blocks add up to, for an account. -/
def sumWithin (key : AccountAsset) (above upTo : BlockNumber) (events : List JournalEvent) : Int :=
  (events.map fun e =>
    if above < e.blockNumber ∧ e.blockNumber ≤ upTo then deltaFor key e.accounts else 0).sum

/-- What the projector reads, summed up. -/
def readSum (key : AccountAsset) (above upTo : BlockNumber) (db : Db) : Int :=
  ((selectDeltas key above upTo db).map (·.deltaRaw)).sum

/-- The deltas are those that there were, and those of these events. -/
structure Holds (c : ChainId) (db₀ db : Db) (seen : List JournalEvent) : Prop where
  present : ∀ e ∈ seen, ∀ entry ∈ aggregateEventDeltas e.accounts, entry.row e c ∈ db.deltas
  only : ∀ r ∈ db.deltas, r ∈ db₀.deltas ∨ ∃ e ∈ seen, r.eventId = e.id c
  sum : ∀ key above upTo, key.chainId = c →
    readSum key above upTo db = readSum key above upTo db₀ + sumWithin key above upTo seen

/-- The journal has one row for an occurrence of an event. -/
theorem any_chainEvents (journaled : e.row c ∈ db.chainEvents) (canonical : e.canonical = true)
    (above upTo : BlockNumber) :
    (db.chainEvents.any fun r => r.eventId == e.id c && r.blockHash == e.blockHash &&
      r.canonical && decide (above < r.blockNumber) && decide (r.blockNumber ≤ upTo)) = true ↔
      above < e.blockNumber ∧ e.blockNumber ≤ upTo := by
  rw [Table.any_eq_true]
  constructor
  · rintro ⟨r, hr, selected⟩
    simp only [Bool.and_eq_true, beq_iff_eq, decide_eq_true_eq] at selected
    obtain ⟨⟨⟨⟨id, hash⟩, -⟩, low⟩, high⟩ := selected
    obtain rfl : r = e.row c := by
      refine Table.eq_of_clash hr journaled ?_
      simp [Row.clash, JournalEvent.row, id, hash]
    exact ⟨low, high⟩
  · rintro ⟨low, high⟩
    refine ⟨e.row c, journaled, ?_⟩
    simp [JournalEvent.row, canonical, low, high]

/-- One more row in the table. -/
theorem readSum_push {t : Table BalanceDelta} {r : BalanceDelta} (fits : t.Fits r)
    (key : AccountAsset) (above upTo : BlockNumber) :
    readSum key above upTo { db with deltas := t.insertOrIgnore r } =
      readSum key above upTo { db with deltas := t } +
        if r.eventId.chainId == key.chainId && r.accountAddress == key.accountAddress &&
            r.asset == key.asset && r.canonical &&
            db.chainEvents.any fun e => e.eventId == r.eventId && e.blockHash == r.blockHash &&
              e.canonical && decide (above < e.blockNumber) && decide (e.blockNumber ≤ upTo) then
          r.deltaRaw
        else 0 := by
  simp only [readSum, selectDeltas, Table.filter, Table.insertOrIgnore_rows_of_fits fits,
    List.filter_append, List.map_append, List.sum_append, List.filter_cons, List.filter_nil]
  split
  · rw [List.map_singleton, List.sum_singleton]
  · rw [List.map_nil, List.sum_nil]

/-- The deltas of an event that has none yet. -/
theorem insert_entries (journaled : e.row c ∈ db.chainEvents) (canonical : e.canonical = true)
    {entries : List AccountDelta} (h : Aggregated wallet entries) (t : Table BalanceDelta)
    (new : ∀ r ∈ t, r.eventId = e.id c → ∀ entry ∈ entries,
      ¬ (r.uid = entry.uid ∧ r.asset = entry.asset)) :
    (∀ r, r ∈ entries.foldl (fun t entry => t.insertOrIgnore (entry.row e c)) t ↔
      r ∈ t ∨ ∃ entry ∈ entries, r = entry.row e c) ∧
    ∀ key above upTo, key.chainId = c →
      readSum key above upTo
        { db with deltas := entries.foldl (fun t entry => t.insertOrIgnore (entry.row e c)) t } =
      readSum key above upTo { db with deltas := t } +
        if above < e.blockNumber ∧ e.blockNumber ≤ upTo then entriesFor key entries else 0 := by
  induction entries generalizing t with
  | nil =>
    refine ⟨fun r => by simp, fun key above upTo _ => ?_⟩
    rw [entriesFor, List.map_nil, List.sum_nil, ite_self, Int.add_zero]
    rfl
  | cons entry rest ih =>
    obtain ⟨apart, distinct⟩ := List.pairwise_cons.1 h.distinct
    have fits : t.Fits (entry.row e c) := by
      intro r hr
      by_contra clash
      simp only [Row.clash, AccountDelta.row, Bool.not_eq_false, Bool.and_eq_true, beq_iff_eq]
        at clash
      exact new r hr clash.1.1.1 entry List.mem_cons_self ⟨clash.1.2, clash.2⟩
    have rows : ∀ r, r ∈ t.insertOrIgnore (entry.row e c) ↔ r ∈ t ∨ r = entry.row e c := fun r =>
      Table.mem_of_rows_append (Table.insertOrIgnore_rows_of_fits fits)
    obtain ⟨mem, sum⟩ := ih ⟨fun e he => h.wallets e (List.mem_cons_of_mem _ he), distinct⟩
      (t.insertOrIgnore (entry.row e c)) (by
        intro r hr id other hother both
        rcases (rows r).1 hr with hr | rfl
        · exact new r hr id other (List.mem_cons_of_mem _ hother) both
        · exact apart other hother both)
    refine ⟨fun r => ?_, fun key above upTo chain => ?_⟩
    · rw [List.foldl_cons, mem, rows]
      simp [or_assoc]
    · rw [List.foldl_cons, sum key above upTo chain, readSum_push fits]
      have selected := any_chainEvents journaled canonical above upTo
      simp only [entriesFor, List.map_cons, List.sum_cons, AccountDelta.row, canonical, chain,
        JournalEvent.id, beq_self_eq_true, Bool.true_and, Bool.and_true, Bool.and_eq_true,
        beq_iff_eq] at selected ⊢
      by_cases within : above < e.blockNumber ∧ e.blockNumber ≤ upTo
      · simp only [selected, within, and_true, if_true]
        omega
      · simp only [selected, within, and_false, if_false]
        omega

/-- Deltas that are there are left alone. -/
theorem insert_entries_again {entries : List AccountDelta} {t : Table BalanceDelta}
    (present : ∀ entry ∈ entries, entry.row e c ∈ t) :
    entries.foldl (fun t entry => t.insertOrIgnore (entry.row e c)) t = t := by
  induction entries with
  | nil => rfl
  | cons entry rest ih =>
    have again : t.insertOrIgnore (entry.row e c) = t := by
      apply Table.insertOrIgnore_of_not_fits
      intro fits
      have clash := fits _ (present entry List.mem_cons_self)
      simp [Row.clash] at clash
    rw [List.foldl_cons, again]
    exact ih fun other hother => present other (List.mem_cons_of_mem _ hother)

/-- One event of a batch. -/
theorem Holds.projectEvent {t : Table BalanceDelta} {seen : List JournalEvent}
    (h : Holds c db₀ { db with deltas := t } seen) (journaled : e.row c ∈ db.chainEvents)
    (canonical : e.canonical = true) (home : ∀ a ∈ e.accounts, a.accountAddress = wallet a.uid)
    (fresh : ∀ r ∈ db₀.deltas, r.eventId ≠ e.id c)
    (same : ∀ s ∈ seen, s.id c = e.id c → s = e) :
    ∃ t', Server.projectEvent c db.chainEvents t e = .ok t' ∧
      Holds c db₀ { db with deltas := t' } (addDistinct c seen e) := by
  refine ⟨_, revertIf_bind_of_not (c := db.chainEvents.any
    (fun r => r.eventId == e.id c && r.blockHash == e.blockHash) = false) ?_, ?_⟩
  · rw [Bool.not_eq_false, Table.any_eq_true]
    exact ⟨e.row c, journaled, by simp [JournalEvent.row]⟩
  unfold addDistinct
  split
  · rename_i known
    obtain ⟨s, hs, id⟩ := List.any_eq_true.1 known
    obtain rfl := same s hs (beq_iff_eq.1 id)
    rw [insert_entries_again (h.present s hs)]
    exact h
  · rename_i unknown
    have noRow : ∀ r ∈ t, r.eventId ≠ e.id c := by
      intro r hr id
      rcases h.only r hr with hr₀ | ⟨s, hs, own⟩
      · exact fresh r hr₀ id
      · apply unknown
        rw [List.any_eq_true]
        exact ⟨s, hs, beq_iff_eq.2 (own.symm.trans id)⟩
    obtain ⟨mem, sum⟩ := insert_entries journaled canonical
      (aggregateEventDeltas_spec home ⟨c, 0, 0⟩).1 t fun r hr id => absurd id (noRow r hr)
    refine ⟨?_, ?_, ?_⟩
    · intro s hs entry hentry
      rcases List.mem_append.1 hs with hs | hs
      · exact (mem _).2 (.inl (h.present s hs entry hentry))
      · cases List.mem_singleton.1 hs
        exact (mem _).2 (.inr ⟨entry, hentry, rfl⟩)
    · intro r hr
      rcases (mem r).1 hr with hr | ⟨entry, -, rfl⟩
      · rcases h.only r hr with hr₀ | ⟨s, hs, own⟩
        · exact .inl hr₀
        · exact .inr ⟨s, List.mem_append_left _ hs, own⟩
      · exact .inr ⟨e, List.mem_append_right _ (List.mem_singleton_self e), rfl⟩
    · intro key above upTo chain
      refine (sum key above upTo chain).trans ?_
      rw [h.sum key above upTo chain, (aggregateEventDeltas_spec home key).2, sumWithin, sumWithin,
        List.map_append, List.sum_append, List.map_singleton, List.sum_singleton, Int.add_assoc]

end Deltas

/-! ### The refresh of one account -/

section Refresh

variable {w w' : ProjectorWorld} {i : Nat} {block : JournalBlock} {key : AccountAsset}

/-- The row of a baseline that a snapshot becomes. -/
def BalanceSnapshot.toBaseline (s : BalanceSnapshot) (key : AccountAsset) : ProjectionBaseline :=
  { chainId := key.chainId, accountAddress := key.accountAddress, asset := key.asset
    balanceRaw := s.balanceRaw, blockNumber := s.blockNumber, blockHash := s.blockHash }

/-- The snapshot of an account after its refresh. -/
def refreshed (key : AccountAsset) (block : JournalBlock) (baseline : BalanceAt) (db : Db)
    (s : BalanceSnapshot) : BalanceSnapshot :=
  let balance := baseline.balanceRaw + readSum key baseline.blockNumber block.blockNumber db
  if baseline.blockNumber < block.blockNumber ∧ 0 ≤ balance ∧ advances key block s = true then
    projected balance block s
  else s

/-- What a refresh leaves as it is. -/
structure ProjectorWorld.SameJournal (w w' : ProjectorWorld) : Prop where
  deltas : w'.db.deltas = w.db.deltas
  chainEvents : w'.db.chainEvents = w.db.chainEvents
  reorgState : w'.db.reorgState = w.db.reorgState
  policies : w'.policies = w.policies

/-- The balances of an account are as they were. -/
def ProjectorWorld.SameBalance (w w' : ProjectorWorld) (key : AccountAsset) : Prop :=
  w'.snapshotOf key = w.snapshotOf key ∧ w'.baselineOf key = w.baselineOf key

theorem ProjectorWorld.SameJournal.rfl (w : ProjectorWorld) : w.SameJournal w :=
  ⟨Eq.refl _, Eq.refl _, Eq.refl _, Eq.refl _⟩

theorem ProjectorWorld.SameJournal.trans {w'' : ProjectorWorld} (h : w.SameJournal w')
    (h' : w'.SameJournal w'') : w.SameJournal w'' :=
  ⟨h'.deltas.trans h.deltas, h'.chainEvents.trans h.chainEvents,
    h'.reorgState.trans h.reorgState, h'.policies.trans h.policies⟩

theorem readSum_congr {db db' : Db} (deltas : db'.deltas = db.deltas)
    (events : db'.chainEvents = db.chainEvents) (key : AccountAsset) (above upTo : BlockNumber) :
    readSum key above upTo db' = readSum key above upTo db := by
  rw [readSum, readSum, selectDeltas, selectDeltas, deltas, events]

theorem ProjectorWorld.SameJournal.refreshed (h : w.SameJournal w') (baseline : BalanceAt) :
    refreshed key block baseline w'.db = refreshed key block baseline w.db := by
  funext s
  rw [Server.refreshed, Server.refreshed, readSum_congr h.deltas h.chainEvents]

theorem foldl_add_eq_sum (b : Int) (l : List Int) : l.foldl (· + ·) b = b + l.sum := by
  induction l generalizing b with
  | nil => exact (Int.add_zero b).symm
  | cons a l ih => rw [List.foldl_cons, ih, List.sum_cons, Int.add_assoc]

/-- The baseline is the one that there is, or else the snapshot that was read. -/
theorem ensureBaseline_alone (key : AccountAsset) (state : ProjectionSnapshotState)
    (w : ProjectorWorld)
    (absent : state.baseline = none → w.baselineOf key = none) :
    ∃ w', (ensureBaseline key state).alone (ProjectorOp.exec i) w = (.ok state.start, w') ∧
      w.SameJournal w' ∧ (∀ key', w'.snapshotOf key' = w.snapshotOf key') ∧
      (∀ key' ≠ key, w'.baselineOf key' = w.baselineOf key') ∧
      w'.baselineOf key = (w.baselineOf key).or
        (if state.baseline.isSome then none else
          some { chainId := key.chainId, accountAddress := key.accountAddress, asset := key.asset
                 balanceRaw := state.snapshot.balanceRaw
                 blockNumber := state.snapshot.blockNumber
                 blockHash := state.snapshot.blockHash }) := by
  unfold ensureBaseline ProjectionSnapshotState.start
  split
  · rename_i baseline found
    rw [found]
    refine ⟨w, rfl, .rfl w, fun _ => rfl, fun _ _ => rfl, ?_⟩
    simp
  · rename_i none
    have fits : w.db.baselines.Fits
        { chainId := key.chainId, accountAddress := key.accountAddress, asset := key.asset
          balanceRaw := state.snapshot.balanceRaw, blockNumber := state.snapshot.blockNumber
          blockHash := state.snapshot.blockHash } := by
      intro r hr
      have other := Table.not_of_find?_none (absent none) hr
      by_contra clash
      simp only [Row.clash, Bool.not_eq_false, Bool.and_eq_true, beq_iff_eq] at clash
      rw [beq_eq_false_iff_ne, ProjectionBaseline.key, clash.1.1, clash.1.2, clash.2] at other
      exact other rfl
    refine ⟨_, by rw [none]; rfl, ?_, ?_, ?_, ?_⟩
    · simp only [ProjectorOp.exec, if_pos fits]
      exact ⟨rfl, rfl, rfl, rfl⟩
    · intro key'
      simp only [ProjectorOp.exec, if_pos fits]
      rfl
    · intro key' other
      simp only [ProjectorOp.exec, if_pos fits, ProjectorWorld.baselineOf,
        Table.find?_insertOrIgnore fits]
      rw [if_neg, Option.or_none]
      intro own
      exact other (beq_iff_eq.1 own).symm
    · simp only [ProjectorOp.exec, if_pos fits, ProjectorWorld.baselineOf,
        Table.find?_insertOrIgnore fits]
      congr 1
      rw [none]
      exact if_pos (beq_iff_eq.2 rfl)

/-- A snapshot that is written is found under its key. -/
theorem find?_projected (snapshots : Table BalanceSnapshot) (balance : Int) (key' : AccountAsset) :
    (snapshots.modify (advances key block) (projected balance block)
      (keepsKeys_projected _ _)).find? (fun r => r.key == key' && r.canonical) =
    (snapshots.find? fun r => r.key == key' && r.canonical).map fun s =>
      if advances key block s then projected balance block s else s := by
  refine Table.find?_modify_of fun r advanced => ?_
  rw [advances, Bool.and_eq_true, Bool.and_eq_true] at advanced
  rw [advanced.1.2]
  rfl

theorem not_advances_of_key {s : BalanceSnapshot} (other : s.key ≠ key) :
    advances key block s = false := by
  rw [advances, beq_false_of_ne other, Bool.false_and, Bool.false_and]

theorem ProjectorWorld.key_of_snapshotOf {s : BalanceSnapshot} (h : w.snapshotOf key = some s) :
    s.key = key := by
  have found := Table.of_find? h
  rw [Bool.and_eq_true, beq_iff_eq] at found
  exact found.1

/-- The statement that writes a snapshot. -/
theorem exec_updateSnapshot_snapshotOf (key : AccountAsset) (block : JournalBlock) (balance : Int)
    (w : ProjectorWorld) :
    w.SameJournal ((ProjectorOp.updateSnapshot key balance block).exec i w).2 ∧
      (∀ key', ((ProjectorOp.updateSnapshot key balance block).exec i w).2.baselineOf key' =
        w.baselineOf key') ∧
      ∀ key', ((ProjectorOp.updateSnapshot key balance block).exec i w).2.snapshotOf key' =
        (w.snapshotOf key').map fun s =>
          if advances key block s then projected balance block s else s := by
  simp only [ProjectorOp.exec]
  split
  · exact ⟨⟨rfl, rfl, rfl, rfl⟩, fun _ => rfl, fun key' => find?_projected _ balance key'⟩
  · rename_i none
    refine ⟨.rfl w, fun _ => rfl, fun key' => ?_⟩
    cases found : w.snapshotOf key' with
    | none => rfl
    | some s =>
      have stays : ¬ advances key block s = true := by
        intro advanced
        apply none
        exact Table.any_eq_true.2 ⟨s, Table.mem_of_find? found, advanced⟩
      rw [Option.map_some, if_neg stays]

/-- The snapshot goes to the block, if nothing is in the way. -/
theorem advanceSnapshot_alone (result : SnapshotResult) (account : AffectedAccount)
    (state : ProjectionSnapshotState) (baseline : BalanceAt) (w : ProjectorWorld)
    (own : account.key block.chainId = key) :
    ∃ result' w', (advanceSnapshot block result account state baseline).alone
        (ProjectorOp.exec i) w = (.ok result', w') ∧
      w.SameJournal w' ∧ (∀ key', w'.baselineOf key' = w.baselineOf key') ∧
      (∀ key' ≠ key, w'.snapshotOf key' = w.snapshotOf key') ∧
      w'.snapshotOf key = (w.snapshotOf key).map (refreshed key block baseline w.db) := by
  subst own
  generalize hkey : account.key block.chainId = key
  have stays (off : ¬ (baseline.blockNumber < block.blockNumber ∧ 0 ≤ baseline.balanceRaw +
      readSum key baseline.blockNumber block.blockNumber w.db)) :
      w.snapshotOf key = (w.snapshotOf key).map (refreshed key block baseline w.db) := by
    have same : refreshed key block baseline w.db = id := by
      funext s
      exact if_neg fun on => off ⟨on.1, on.2.1⟩
    rw [same, Option.map_id_fun, id]
  unfold advanceSnapshot
  rw [hkey]
  by_cases below : block.blockNumber ≤ baseline.blockNumber
  · rw [if_pos below]
    exact ⟨_, w, rfl, .rfl w, fun _ => rfl, fun _ _ => rfl,
      stays fun on => absurd on.1 (Nat.not_lt.2 below)⟩
  rw [if_neg below]
  simp only [perform, Prog.perform, Prog.bind_eq, Prog.act_bind, Prog.ret_bind, Prog.alone_act]
  generalize read :
    (ProjectorOp.selectDeltas key baseline.blockNumber block.blockNumber).exec i w = reply
  obtain ⟨deltas, w₁⟩ := reply
  obtain ⟨db, policies⟩ : w₁.db = w.db ∧ w₁.policies = w.policies := by
    cases read
    exact ⟨rfl, rfl⟩
  have same : w.SameJournal w₁ := ⟨by rw [db], by rw [db], by rw [db], policies⟩
  have snapshots : ∀ key', w₁.snapshotOf key' = w.snapshotOf key' := fun key' => by
    rw [ProjectorWorld.snapshotOf, db]
    rfl
  have baselines : ∀ key', w₁.baselineOf key' = w.baselineOf key' := fun key' => by
    rw [ProjectorWorld.baselineOf, db]
    rfl
  generalize total : List.foldl (· + ·) baseline.balanceRaw deltas = balance
  have total : baseline.balanceRaw + readSum key baseline.blockNumber block.blockNumber w.db =
      balance := by
    cases read
    rw [← total, foldl_add_eq_sum]
    rfl
  by_cases negative : balance < 0
  · rw [if_pos negative]
    refine ⟨_, w₁, rfl, same, baselines, fun key' _ => snapshots key', ?_⟩
    rw [snapshots]
    refine stays fun on => ?_
    rw [total] at on
    exact absurd on.2 (Int.not_le.2 negative)
  · rw [if_neg negative, Prog.alone_act]
    obtain ⟨same₂, baselines₂, snapshots₂⟩ :=
      exec_updateSnapshot_snapshotOf (i := i) key block balance w₁
    have moved : ∀ key', ((ProjectorOp.updateSnapshot key balance block).exec i w₁).2.snapshotOf
        key' = (w.snapshotOf key').map fun s =>
          if advances key block s then projected balance block s else s := fun key' => by
      rw [snapshots₂, snapshots]
    have writes : refreshed key block baseline w.db = fun s =>
        if advances key block s then projected balance block s else s := by
      funext s
      simp only [refreshed, total, Nat.not_le.1 below, Int.not_lt.1 negative, true_and]
    have same₃ := same.trans same₂
    have others : ∀ key' ≠ key,
        ((ProjectorOp.updateSnapshot key balance block).exec i w₁).2.snapshotOf key' =
          w.snapshotOf key' := by
      intro key' other
      rw [moved]
      cases found : w.snapshotOf key' with
      | none => rfl
      | some s =>
        rw [Option.map_some, if_neg]
        rw [not_advances_of_key fun own => other ((w.key_of_snapshotOf found).symm.trans own)]
        exact Bool.false_ne_true
    rw [writes]
    split
    · exact ⟨_, _, rfl, same₃, fun key' => (baselines₂ key').trans (baselines key'), others,
        moved key⟩
    · exact ⟨_, _, rfl, same₃, fun key' => (baselines₂ key').trans (baselines key'), others,
        moved key⟩

/-- The policy of an asset has its balances projected. -/
def AssetIndexingPolicy.Projects (policy : AssetIndexingPolicy) : Prop :=
  policy.enabled = true ∧ policy.strategy ∈ [.events, .eventsPlusRpc] ∧
    policy.projectionVersion = balanceProjectorVersion

def ProjectionBaseline.at (r : ProjectionBaseline) : BalanceAt :=
  { balanceRaw := r.balanceRaw, blockNumber := r.blockNumber, blockHash := r.blockHash }

/-- What a run reads of an account. -/
theorem selectState_eq_some {state : ProjectionSnapshotState}
    (h : selectState key w.policies w.db = some state) :
    ∃ s policy, w.snapshotOf key = some s ∧ w.policies key.chainId key.asset = some policy ∧
      state =
        { snapshot := { balanceRaw := s.balanceRaw, blockNumber := s.blockNumber
                        blockHash := s.blockHash }
          strategy := policy.strategy, policyVersion := policy.projectionVersion
          enabled := policy.enabled, baseline := (w.baselineOf key).map ProjectionBaseline.at } := by
  obtain ⟨s, hs, h⟩ := Option.bind_eq_some_iff.1 h
  obtain ⟨policy, hpolicy, h⟩ := Option.bind_eq_some_iff.1 h
  exact ⟨s, policy, hs, hpolicy, (Option.some.inj h).symm⟩

theorem selectState_eq_none {s : BalanceSnapshot} {policy : AssetIndexingPolicy}
    (h : selectState key w.policies w.db = none) (hs : w.snapshotOf key = some s) :
    w.policies key.chainId key.asset ≠ some policy := by
  intro hpolicy
  rw [ProjectorWorld.snapshotOf] at hs
  simp [selectState, hs, hpolicy] at h

theorem exec_selectState_db (key : AccountAsset) (w : ProjectorWorld) :
    ((ProjectorOp.selectState key).exec i w).2.db = w.db ∧
      ((ProjectorOp.selectState key).exec i w).2.policies = w.policies := by
  simp only [ProjectorOp.exec]
  split <;> exact ⟨rfl, rfl⟩

/-- One account of the loop. -/
theorem refreshAccount_alone (result : SnapshotResult) (account : AffectedAccount)
    (w : ProjectorWorld) (own : account.key block.chainId = key) :
    ∃ result' w', (refreshAccount block result account).alone (ProjectorOp.exec i) w =
        (.ok result', w') ∧
      w.SameJournal w' ∧ (∀ key' ≠ key, w.SameBalance w' key') ∧
      ∀ s policy, w.snapshotOf key = some s → w.policies key.chainId key.asset = some policy →
        policy.Projects →
        w'.baselineOf key = some ((w.baselineOf key).getD (s.toBaseline key)) ∧
          w'.snapshotOf key = some (refreshed key block
            ((w.baselineOf key).getD (s.toBaseline key)).at w.db s) := by
  subst own
  generalize hkey : account.key block.chainId = key
  unfold refreshAccount
  rw [hkey]
  simp only [perform, Prog.perform, Prog.bind_eq, Prog.act_bind, Prog.ret_bind, Prog.alone_act]
  have reply := exec_selectState (i := i) (w := w) key
  obtain ⟨db, policies⟩ := exec_selectState_db (i := i) key w
  generalize (ProjectorOp.selectState key).exec i w = read at reply db policies
  obtain ⟨found, w₁⟩ := read
  change found = _ at reply
  change w₁.db = _ at db
  change w₁.policies = _ at policies
  have same : w.SameJournal w₁ := ⟨by rw [db], by rw [db], by rw [db], policies⟩
  have balances : ∀ key', w.SameBalance w₁ key' := fun key' =>
    ⟨by rw [ProjectorWorld.snapshotOf, db]; rfl, by rw [ProjectorWorld.baselineOf, db]; rfl⟩
  cases found with
  | none =>
    refine ⟨result, w₁, rfl, same, fun key' _ => balances key', ?_⟩
    intro s policy hs hpolicy
    exact absurd hpolicy (selectState_eq_none reply.symm hs)
  | some state =>
    obtain ⟨s₀, policy₀, hs₀, hpolicy₀, rfl⟩ := selectState_eq_some reply.symm
    dsimp only
    split
    · obtain ⟨w₂, ensured, same₂, snapshots₂, baselines₂, baseline₂⟩ :=
        ensureBaseline_alone (i := i) key
          { snapshot := { balanceRaw := s₀.balanceRaw, blockNumber := s₀.blockNumber
                          blockHash := s₀.blockHash }
            strategy := policy₀.strategy, policyVersion := policy₀.projectionVersion
            enabled := policy₀.enabled, baseline := (w.baselineOf key).map ProjectionBaseline.at }
          w₁ fun none => (balances key).2.trans (Option.map_eq_none_iff.1 none)
      obtain ⟨result', w₃, advanced, same₃, baselines₃, snapshots₃, snapshot₃⟩ :=
        advanceSnapshot_alone (i := i) result account _ _ w₂ hkey
      refine ⟨result', w₃, (Prog.alone_bind ensured).trans advanced, same.trans (same₂.trans same₃),
        ?_, ?_⟩
      · intro key' other
        exact ⟨((snapshots₃ key' other).trans (snapshots₂ key')).trans (balances key').1,
          ((baselines₃ key').trans (baselines₂ key' other)).trans (balances key').2⟩
      · intro s policy hs _ _
        obtain rfl : s₀ = s := Option.some.inj (hs₀.symm.trans hs)
        rw [baselines₃, snapshot₃, baseline₂, snapshots₂, (balances key).1, (balances key).2, hs,
          Option.map_some, (same.trans same₂).refreshed]
        cases w.baselineOf key with
        | none => exact ⟨rfl, rfl⟩
        | some baseline => exact ⟨rfl, rfl⟩
    · rename_i off
      refine ⟨result, w₁, rfl, same, fun key' _ => balances key', ?_⟩
      intro s policy _ hpolicy projects
      obtain rfl : policy₀ = policy := Option.some.inj (hpolicy₀.symm.trans hpolicy)
      exact absurd projects off

/-- The loop over accounts that are distinct. -/
theorem refreshAccounts_alone (result : SnapshotResult) (accounts : List AffectedAccount)
    (w : ProjectorWorld) (distinct : (accounts.map (·.key block.chainId)).Nodup) :
    ∃ result' w', (refreshAccounts block result accounts).alone (ProjectorOp.exec i) w =
        (.ok result', w') ∧
      w.SameJournal w' ∧
      (∀ key, (∀ account ∈ accounts, account.key block.chainId ≠ key) → w.SameBalance w' key) ∧
      ∀ account ∈ accounts, ∀ s policy, w.snapshotOf (account.key block.chainId) = some s →
        w.policies block.chainId account.asset = some policy → policy.Projects →
        w'.baselineOf (account.key block.chainId) =
            some ((w.baselineOf (account.key block.chainId)).getD
              (s.toBaseline (account.key block.chainId))) ∧
          w'.snapshotOf (account.key block.chainId) =
            some (refreshed (account.key block.chainId) block
              ((w.baselineOf (account.key block.chainId)).getD
                (s.toBaseline (account.key block.chainId))).at w.db s) := by
  induction accounts generalizing result w with
  | nil =>
    exact ⟨result, w, rfl, .rfl w, fun _ _ => ⟨rfl, rfl⟩, fun _ h => absurd h List.not_mem_nil⟩
  | cons account accounts ih =>
    obtain ⟨apart, distinct⟩ := List.nodup_cons.1 distinct
    obtain ⟨result₁, w₁, first, same₁, others₁, own₁⟩ :=
      refreshAccount_alone (i := i) result account w (Eq.refl (account.key block.chainId))
    obtain ⟨result₂, w₂, rest, same₂, others₂, own₂⟩ := ih result₁ w₁ distinct
    have later : w₁.SameBalance w₂ (account.key block.chainId) := by
      exact others₂ _ fun other hother same => apart (List.mem_map.2 ⟨other, hother, same⟩)
    refine ⟨result₂, w₂, (Prog.alone_bind first).trans rest, same₁.trans same₂, ?_, ?_⟩
    · intro key untouched
      have before := others₁ key fun own => untouched account List.mem_cons_self own.symm
      have after := others₂ key fun other hother =>
        untouched other (List.mem_cons_of_mem _ hother)
      exact ⟨after.1.trans before.1, after.2.trans before.2⟩
    · intro other hother s policy hs hpolicy projects
      rcases List.mem_cons.1 hother with rfl | hother
      · rw [later.1, later.2]
        exact own₁ s policy hs hpolicy projects
      · -- the account before it has left this one alone
        have before := others₁ (other.key block.chainId) fun same =>
          apart (List.mem_map.2 ⟨other, hother, same⟩)
        rw [← before.1] at hs
        rw [← same₁.policies] at hpolicy
        rw [← before.2, ← same₁.refreshed]
        exact own₂ other hother s policy hs hpolicy projects

/-- No two of the accounts that events touch are the same. -/
theorem affectedEventAccounts_distinct (c : ChainId) (events : List JournalEvent) :
    ((affectedEventAccounts events).map (·.key c)).Nodup := by
  have step : ∀ (affected : List AffectedAccount) (delta : AccountDelta),
      (affected.map (·.key c)).Nodup → ((setAffected affected delta).map (·.key c)).Nodup := by
    intro affected delta distinct
    unfold setAffected
    dsimp only
    split
    · -- the account in its place has the same key
      rw [List.map_map]
      refine (List.map_congr_left fun entry _ => ?_).symm ▸ distinct
      show AffectedAccount.key (if _ then _ else entry) c = entry.key c
      split
      · rename_i same
        simp only [Bool.and_eq_true, beq_iff_eq] at same
        rw [AffectedAccount.key, AffectedAccount.key, same.1, same.2]
      · rfl
    · rename_i missing
      rw [List.map_append, List.nodup_append]
      refine ⟨distinct, List.pairwise_singleton _ _, ?_⟩
      intro a ha b hb
      obtain ⟨entry, hentry, rfl⟩ := List.mem_map.1 ha
      cases List.mem_singleton.1 hb
      intro same
      apply missing
      rw [List.any_eq_true]
      refine ⟨entry, hentry, ?_⟩
      simp only [AffectedAccount.key, AccountAsset.mk.injEq] at same
      simp [same]
  rw [affectedEventAccounts]
  generalize events.flatMap _ = deltas
  have loop : ∀ affected : List AffectedAccount, (affected.map (·.key c)).Nodup →
      ((deltas.foldl setAffected affected).map (·.key c)).Nodup := by
    induction deltas with
    | nil => exact fun _ distinct => distinct
    | cons delta rest ih => exact fun affected distinct => ih _ (step affected delta distinct)
  exact loop [] .nil

/-- Where the entry of an event belongs. -/
def AccountDelta.account (delta : AccountDelta) (chainId : ChainId) : AccountAsset :=
  { chainId, accountAddress := delta.accountAddress, asset := delta.asset }

/-- An account keeps its place, and a new one gets its own. -/
theorem exists_mem_setAffected {c : ChainId} {affected : List AffectedAccount}
    {delta : AccountDelta} (h : (∃ x ∈ affected, x.key c = key) ∨ delta.account c = key) :
    ∃ y ∈ setAffected affected delta, y.key c = key := by
  unfold setAffected
  dsimp only
  split
  · rename_i found
    rcases h with ⟨x, hx, rfl⟩ | rfl
    · refine ⟨_, List.mem_map_of_mem hx, ?_⟩
      split
      · rename_i same
        simp only [Bool.and_eq_true, beq_iff_eq] at same
        rw [AffectedAccount.key, AffectedAccount.key, same.1, same.2]
      · rfl
    · obtain ⟨x, hx, same⟩ := List.any_eq_true.1 found
      refine ⟨_, List.mem_map_of_mem hx, ?_⟩
      rw [if_pos same]
      rfl
  · rcases h with ⟨x, hx, rfl⟩ | rfl
    · exact ⟨x, List.mem_append_left _ hx, rfl⟩
    · exact ⟨_, List.mem_append_right _ (List.mem_singleton_self _), rfl⟩

theorem exists_mem_foldl_setAffected {c : ChainId} {deltas : List AccountDelta}
    {affected : List AffectedAccount}
    (h : (∃ x ∈ affected, x.key c = key) ∨ ∃ delta ∈ deltas, delta.account c = key) :
    ∃ y ∈ deltas.foldl setAffected affected, y.key c = key := by
  induction deltas generalizing affected with
  | nil =>
    rcases h with found | ⟨delta, hdelta, -⟩
    · exact found
    · cases hdelta
  | cons delta rest ih =>
    apply ih
    rcases h with found | ⟨other, hother, own⟩
    · exact .inl (exists_mem_setAffected (.inl found))
    · rcases List.mem_cons.1 hother with rfl | hother
      · exact .inl (exists_mem_setAffected (.inr own))
      · exact .inr ⟨other, hother, own⟩

/-- An account that no event touches is changed by none. -/
theorem deltaFor_of_untouched {wallet : Uid → Address} {events : List JournalEvent}
    {e : JournalEvent} (he : e ∈ events) (home : ∀ a ∈ e.accounts, a.accountAddress = wallet a.uid)
    (untouched : ∀ account ∈ affectedEventAccounts events, account.key key.chainId ≠ key) :
    deltaFor key e.accounts = 0 := by
  rw [← (aggregateEventDeltas_spec home key).2, entriesFor]
  apply List.sum_eq_zero
  intro x hx
  obtain ⟨entry, hentry, rfl⟩ := List.mem_map.1 hx
  apply if_neg
  rintro ⟨address, asset⟩
  have own : entry.account key.chainId = key := by
    rw [AccountDelta.account, address, asset]
  have hentries : entry ∈ events.flatMap fun e => aggregateEventDeltas e.accounts :=
    List.mem_flatMap.2 ⟨e, he, hentry⟩
  have found : ∃ y ∈ affectedEventAccounts events, y.key key.chainId = key :=
    exists_mem_foldl_setAffected (.inr ⟨entry, hentries, own⟩)
  obtain ⟨y, hy, own⟩ := found
  exact untouched y hy own

end Refresh

/-! ### One delivery -/

section Delivery

variable {w : ProjectorWorld} {c : ChainId} {wallet : Uid → Address} {seen : List JournalEvent}
  {d : ProjectionInput}

theorem mem_foldl_addDistinct {events : List JournalEvent} {e : JournalEvent}
    (h : e ∈ events.foldl (addDistinct c) seen) : e ∈ seen ∨ e ∈ events := by
  induction events generalizing seen with
  | nil => exact .inl h
  | cons event rest ih =>
    rcases ih h with before | after
    · unfold addDistinct at before
      split at before
      · exact .inl before
      · rcases List.mem_append.1 before with before | own
        · exact .inl before
        · exact .inr (List.mem_cons.2 (.inl (List.mem_singleton.1 own)))
    · exact .inr (List.mem_cons_of_mem _ after)

/-- The events are in the journal, had no delta at first, and concern the wallets of users. -/
structure OnJournal (db₀ db : Db) (c : ChainId) (wallet : Uid → Address)
    (events : List JournalEvent) : Prop where
  row : ∀ e ∈ events, e.row c ∈ db.chainEvents
  fresh : ∀ e ∈ events, ∀ r ∈ db₀.deltas, r.eventId ≠ e.id c
  canonical : ∀ e ∈ events, e.canonical = true
  wallets : ∀ e ∈ events, ∀ a ∈ e.accounts, a.accountAddress = wallet a.uid

/-- The loop over the events of a batch. -/
theorem foldlM_projectEvent {events : List JournalEvent} {db₀ db : Db} {t : Table BalanceDelta}
    (h : Holds c db₀ { db with deltas := t } seen) (journaled : OnJournal db₀ db c wallet events)
    (same : ∀ e ∈ seen ++ events, ∀ e' ∈ seen ++ events, e.id c = e'.id c → e = e') :
    ∃ t', events.foldlM (projectEvent c db.chainEvents) t = .ok t' ∧
      Holds c db₀ { db with deltas := t' } (events.foldl (addDistinct c) seen) := by
  induction events generalizing t seen with
  | nil => exact ⟨t, rfl, h⟩
  | cons event rest ih =>
    obtain ⟨t₁, first, h₁⟩ := h.projectEvent (journaled.row event List.mem_cons_self)
      (journaled.canonical event List.mem_cons_self) (journaled.wallets event List.mem_cons_self)
      (journaled.fresh event List.mem_cons_self)
      fun s hs id => same s (List.mem_append_left _ hs) event
        (List.mem_append_right _ List.mem_cons_self) id
    have sub : ∀ e ∈ addDistinct c seen event ++ rest, e ∈ seen ++ event :: rest := by
      intro e he
      rcases List.mem_append.1 he with he | he
      · have he : e ∈ [event].foldl (addDistinct c) seen := he
        rcases mem_foldl_addDistinct he with he | he
        · exact List.mem_append_left _ he
        · cases List.mem_singleton.1 he
          exact List.mem_append_right _ List.mem_cons_self
      · exact List.mem_append_right _ (List.mem_cons_of_mem _ he)
    obtain ⟨t', run, h'⟩ := ih h₁
      ⟨fun e he => journaled.row e (List.mem_cons_of_mem _ he),
        fun e he => journaled.fresh e (List.mem_cons_of_mem _ he),
        fun e he => journaled.canonical e (List.mem_cons_of_mem _ he),
        fun e he => journaled.wallets e (List.mem_cons_of_mem _ he)⟩
      fun e he e' he' id => same e (sub e he) e' (sub e' he') id
    refine ⟨t', ?_, h'⟩
    rw [List.foldlM_cons, first]
    exact run

/-- The batch of a delivery. -/
theorem applyDeltas_holds {db₀ : Db} (h : Holds c db₀ w.db seen) (chain : d.block.chainId = c)
    (valid : 1 ≤ c ∧ c ≤ maxSafeInteger) (epoch : w.db.getChainReorgEpoch c ≤ maxSafeInteger)
    (journaled : OnJournal db₀ w.db c wallet d.events)
    (same : ∀ e ∈ seen ++ d.events, ∀ e' ∈ seen ++ d.events, e.id c = e'.id c → e = e') :
    ∃ t', applyDeltas d (w.db.getChainReorgEpoch c) w.db = .ok { w.db with deltas := t' } ∧
      Holds c db₀ { w.db with deltas := t' } (d.events.foldl (addDistinct c) seen) := by
  obtain ⟨t', run, h'⟩ := foldlM_projectEvent h journaled same
  refine ⟨t', ?_, h'⟩
  have guard : chainEpochGuard c (w.db.getChainReorgEpoch c) w.db = .ok () := by
    rw [chainEpochGuard, revertIf_bind_of_not (not_not.2 ⟨valid.1, valid.2, epoch⟩)]
    exact revertIf_eq_ok.2 (not_not.2 rfl)
  rw [applyDeltas, chain, guard]
  exact bind_eq_ok.2 ⟨(), rfl, bind_eq_ok.2 ⟨t', run, rfl⟩⟩

/-- What a delivery does. -/
theorem deliver_spec {db₀ : Db} (h : Holds c db₀ w.db seen) (chain : d.block.chainId = c)
    (valid : 1 ≤ c ∧ c ≤ maxSafeInteger) (epoch : w.db.getChainReorgEpoch c ≤ maxSafeInteger)
    (expected : ∀ epoch, d.expectedReorgEpoch = some epoch → w.db.getChainReorgEpoch c = epoch)
    (journaled : OnJournal db₀ w.db c wallet d.events)
    (same : ∀ e ∈ seen ++ d.events, ∀ e' ∈ seen ++ d.events, e.id c = e'.id c → e = e') :
    ∃ w', w.deliver [d] = w' ∧ Holds c db₀ w'.db (d.events.foldl (addDistinct c) seen) ∧
      w'.db.chainEvents = w.db.chainEvents ∧ w'.db.reorgState = w.db.reorgState ∧
      w'.policies = w.policies ∧ (∀ key, ¬ d.Touches key → w.SameBalance w' key) ∧
      ∀ key, d.Touches key → ∀ s policy, w.snapshotOf key = some s →
        w.policies c key.asset = some policy → policy.Projects →
        w'.baselineOf key = some ((w.baselineOf key).getD (s.toBaseline key)) ∧
          w'.snapshotOf key = some (refreshed key d.block
            ((w.baselineOf key).getD (s.toBaseline key)).at w'.db s) := by
  obtain ⟨t', applied, holds⟩ := applyDeltas_holds h chain valid epoch journaled same
  -- the world after the batch
  obtain ⟨w₁, exec, db₁, policies₁⟩ : ∃ w₁,
      (ProjectorOp.applyDeltas d (w.db.getChainReorgEpoch c)).exec 0 w = (.ok (), w₁) ∧
      w₁.db = { w.db with deltas := t' } ∧ w₁.policies = w.policies := by
    simp only [ProjectorOp.exec, applied]
    exact ⟨_, rfl, rfl, rfl⟩
  have balances : ∀ key, w.SameBalance w₁ key := fun key =>
    ⟨by rw [ProjectorWorld.snapshotOf, db₁]; rfl, by rw [ProjectorWorld.baselineOf, db₁]; rfl⟩
  obtain ⟨result, w', refreshes, journal, others, own⟩ :=
    refreshAccounts_alone (i := 0)
      { updated := 0, eventOnlySatisfiedAccounts := [] } (affectedEventAccounts d.events) w₁
      (affectedEventAccounts_distinct d.block.chainId d.events)
  have run : ((projectBalanceDeltas d).alone (ProjectorOp.exec 0) w) = (.ok result, w') := by
    have rest : (applyAndRefresh d (w.db.getChainReorgEpoch c)).alone (ProjectorOp.exec 0) w =
        (.ok result, w') := by
      unfold applyAndRefresh
      simp only [perform, Prog.perform, Prog.bind_eq, Prog.act_bind, Prog.ret_bind,
        Prog.alone_act]
      generalize (ProjectorOp.applyDeltas d (w.db.getChainReorgEpoch c)).exec 0 w = reply at exec
      cases exec
      exact refreshes
    unfold projectBalanceDeltas
    split
    · rename_i epoch' found
      rw [← expected epoch' found]
      exact rest
    · rw [chain]
      exact rest
  refine ⟨w', by rw [ProjectorWorld.deliver, List.foldl_cons, run]; rfl, ?_, ?_, ?_, ?_, ?_, ?_⟩
  · rw [← db₁] at holds
    refine ⟨?_, ?_, ?_⟩
    · rw [journal.deltas]
      exact holds.present
    · rw [journal.deltas]
      exact holds.only
    · intro key above upTo ofChain
      rw [readSum_congr journal.deltas journal.chainEvents]
      exact holds.sum key above upTo ofChain
  · rw [journal.chainEvents, db₁]
  · rw [journal.reorgState, db₁]
  · rw [journal.policies, policies₁]
  · intro key untouched
    have kept := others key fun account haccount own => untouched ⟨account, haccount, own⟩
    exact ⟨kept.1.trans (balances key).1, kept.2.trans (balances key).2⟩
  · rintro key ⟨account, haccount, rfl⟩ s policy hs hpolicy projects
    rw [journal.refreshed, ← (balances _).2]
    refine own account haccount s policy ((balances _).1.trans hs) ?_ projects
    rw [policies₁, chain]
    exact hpolicy

end Delivery

end ParmeliaLinks.Server
