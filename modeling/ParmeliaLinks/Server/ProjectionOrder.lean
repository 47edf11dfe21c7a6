/-
ParmeliaLinks/Server/ProjectionOrder.lean

Balances that are projected from events, and the order in which the events arrive.
The two streams of a token deliver blocks of events one after the other, each at its
own pace.  A delta is journaled once however often its event is delivered; but a
snapshot only moves on to a later block, or is computed once more for its own.

Main result: the snapshot of an account is its baseline with all that was delivered
above it, after every delivery, if and only if each delivery that changes the account
comes at a block that is not below an earlier one of that account and leaves no
negative balance.
-/
import ParmeliaLinks.Server.ProjectedDelivery

namespace ParmeliaLinks.Server

/-! ### What was delivered, and what it should come to -/

/-- The events of deliveries, each once. -/
def delivered (chainId : ChainId) (deliveries : List ProjectionInput) : List JournalEvent :=
  (deliveries.flatMap (·.events)).foldl (addDistinct chainId) []

/-- What events above a block add up to, for an account. -/
def sumAbove (key : AccountAsset) (baseline : BlockNumber) (events : List JournalEvent) : Int :=
  (events.map fun e => if baseline < e.blockNumber then deltaFor key e.accounts else 0).sum

/-- The events of the deliveries are canonical events of the chain that were not projected
before: each of them is in the journal and has one block, and the accounts in it are the
wallets of their users. -/
structure Deliverable (w : ProjectorWorld) (chainId : ChainId) (chain : BlockNumber → BlockHash)
    (wallet : Uid → Address) (deliveries : List ProjectionInput) : Prop where
  block : ∀ d ∈ deliveries, d.block.chainId = chainId ∧ d.block.blockHash = chain d.block.blockNumber
  events : ∀ d ∈ deliveries, ∀ e ∈ d.events,
    e.blockNumber = d.block.blockNumber ∧ e.blockHash = d.block.blockHash ∧ e.canonical = true
  fresh : ∀ d ∈ deliveries, ∀ e ∈ d.events, ∀ r ∈ w.db.deltas, r.eventId ≠ e.id chainId
  same : ∀ d ∈ deliveries, ∀ e ∈ d.events, ∀ d' ∈ deliveries, ∀ e' ∈ d'.events,
    e.id chainId = e'.id chainId → e = e'
  journaled : ∀ d ∈ deliveries, ∀ e ∈ d.events, e.row chainId ∈ w.db.chainEvents
  wallets : ∀ d ∈ deliveries, ∀ e ∈ d.events, ∀ a ∈ e.accounts, a.accountAddress = wallet a.uid
  validChain : 1 ≤ chainId ∧ chainId ≤ maxSafeInteger
  epoch : w.db.getChainReorgEpoch chainId ≤ maxSafeInteger
  expected : ∀ d ∈ deliveries, ∀ epoch, d.expectedReorgEpoch = some epoch →
    w.db.getChainReorgEpoch chainId = epoch

/-- An account whose snapshot is projected from events, with no delta above it so far: its
snapshot is what its baseline will be. -/
structure ProjectedFrom (w : ProjectorWorld) (key : AccountAsset) (baseline : BalanceSnapshot) :
    Prop where
  snapshot : w.snapshotOf key = some baseline
  positive : 0 ≤ baseline.balanceRaw
  policy : ∃ policy, w.policies key.chainId key.asset = some policy ∧ policy.enabled = true ∧
    policy.strategy ∈ [.events, .eventsPlusRpc] ∧ policy.projectionVersion = balanceProjectorVersion
  noBaseline : w.baselineOf key = none
  noDelta : ∀ n, selectDeltas key baseline.blockNumber n w.db = []

/-- The snapshot of the account is its baseline with all that was delivered above it. -/
def ProjectorWorld.Projected (w : ProjectorWorld) (key : AccountAsset)
    (baseline : BalanceSnapshot) (deliveries : List ProjectionInput) : Prop :=
  ∃ s, w.snapshotOf key = some s ∧
    s.balanceRaw = baseline.balanceRaw +
      sumAbove key baseline.blockNumber (delivered key.chainId deliveries)

/-- The delivery adds nothing to the account above its baseline; or else it comes at no
block below that of an earlier delivery that touched the account, and the balance is not
negative. -/
def InOrder (key : AccountAsset) (baseline : BalanceSnapshot) (before : List ProjectionInput)
    (d : ProjectionInput) : Prop :=
  d.block.blockNumber ≤ baseline.blockNumber ∨
  sumAbove key baseline.blockNumber (delivered key.chainId (before ++ [d])) =
    sumAbove key baseline.blockNumber (delivered key.chainId before) ∨
  (∀ d' ∈ before, d'.Touches key → d'.block.blockNumber ≤ d.block.blockNumber) ∧
    0 ≤ baseline.balanceRaw +
      sumAbove key baseline.blockNumber (delivered key.chainId (before ++ [d]))

/-! ### Deliveries one after the other -/

section Order

variable {w : ProjectorWorld} {key : AccountAsset} {c : ChainId} {chain : BlockNumber → BlockHash}
  {wallet : Uid → Address} {baseline : BalanceSnapshot} {deliveries before after : List ProjectionInput}
  {d : ProjectionInput}

theorem deliver_append (w : ProjectorWorld) (before after : List ProjectionInput) :
    w.deliver (before ++ after) = (w.deliver before).deliver after :=
  List.foldl_append

theorem delivered_append (c : ChainId) (before : List ProjectionInput) (d : ProjectionInput) :
    delivered c (before ++ [d]) = d.events.foldl (addDistinct c) (delivered c before) := by
  rw [delivered, List.flatMap_append, List.foldl_append, List.flatMap_singleton]
  rfl

theorem mem_delivered {e : JournalEvent} (h : e ∈ delivered c deliveries) :
    ∃ d ∈ deliveries, e ∈ d.events := by
  rcases mem_foldl_addDistinct h with h | h
  · cases h
  · exact List.mem_flatMap.1 h

/-- Events that add nothing. -/
theorem sum_foldl_addDistinct (f : JournalEvent → Int) {events seen : List JournalEvent}
    (zero : ∀ e ∈ events, f e = 0) :
    ((events.foldl (addDistinct c) seen).map f).sum = (seen.map f).sum := by
  induction events generalizing seen with
  | nil => rfl
  | cons event rest ih =>
    rw [List.foldl_cons, ih fun e he => zero e (List.mem_cons_of_mem _ he)]
    unfold addDistinct
    split
    · rfl
    · rw [List.map_append, List.sum_append, List.map_singleton, List.sum_singleton,
        zero event List.mem_cons_self, Int.add_zero]

/-- All that counts is within the range. -/
theorem sumWithin_eq_sumAbove {above upTo : BlockNumber} {events : List JournalEvent}
    (zero : ∀ e ∈ events, upTo < e.blockNumber → deltaFor key e.accounts = 0) :
    sumWithin key above upTo events = sumAbove key above events := by
  rw [sumWithin, sumAbove]
  congr 1
  apply List.map_congr_left
  intro e he
  by_cases within : e.blockNumber ≤ upTo
  · simp only [within, and_true]
  · rw [if_neg fun both => within both.2, zero e he (Nat.not_le.1 within), ite_self]

/-- What every delivery keeps. -/
structure Tracked (w : ProjectorWorld) (c : ChainId) (before : List ProjectionInput)
    (w' : ProjectorWorld) : Prop where
  holds : Holds c w.db w'.db (delivered c before)
  chainEvents : w'.db.chainEvents = w.db.chainEvents
  reorgState : w'.db.reorgState = w.db.reorgState
  policies : w'.policies = w.policies

/-- What becomes of the account in one delivery. -/
structure Delivers (c : ChainId) (d : ProjectionInput) (key : AccountAsset) (w w' : ProjectorWorld) :
    Prop where
  untouched : ¬ d.Touches key → w.SameBalance w' key
  touched : d.Touches key → ∀ s policy, w.snapshotOf key = some s →
    w.policies c key.asset = some policy → policy.Projects →
    w'.baselineOf key = some ((w.baselineOf key).getD (s.toBaseline key)) ∧
      w'.snapshotOf key = some (refreshed key d.block
        ((w.baselineOf key).getD (s.toBaseline key)).at w'.db s)

theorem Tracked.next (h : Deliverable w c chain wallet deliveries)
    (split : deliveries = before ++ d :: after) (tracked : Tracked w c before (w.deliver before)) :
    Tracked w c (before ++ [d]) (w.deliver (before ++ [d])) ∧
      ∀ key, Delivers c d key (w.deliver before) (w.deliver (before ++ [d])) := by
  have hd : d ∈ deliveries := by rw [split]; exact List.mem_append_right _ List.mem_cons_self
  have epoch : (w.deliver before).db.getChainReorgEpoch c = w.db.getChainReorgEpoch c := by
    rw [Db.getChainReorgEpoch, tracked.reorgState]
    rfl
  have origin : ∀ e ∈ delivered c before ++ d.events, ∃ d' ∈ deliveries, e ∈ d'.events := by
    intro e he
    rcases List.mem_append.1 he with he | he
    · obtain ⟨d', hd', he⟩ := mem_delivered he
      exact ⟨d', by rw [split]; exact List.mem_append_left _ hd', he⟩
    · exact ⟨d, hd, he⟩
  obtain ⟨w', run, holds, chainEvents, reorgState, policies, untouched, touched⟩ :=
    deliver_spec tracked.holds (h.block d hd).1 h.validChain (epoch ▸ h.epoch)
      (fun e found => epoch.trans (h.expected d hd e found))
      { row := fun e he => tracked.chainEvents ▸ h.journaled d hd e he
        fresh := h.fresh d hd
        canonical := fun e he => (h.events d hd e he).2.2
        wallets := h.wallets d hd }
      fun e he e' he' id => by
        obtain ⟨d₁, hd₁, he⟩ := origin e he
        obtain ⟨d₂, hd₂, he'⟩ := origin e' he'
        exact h.same d₁ hd₁ e he d₂ hd₂ e' he' id
  rw [deliver_append, run]
  exact ⟨⟨delivered_append c before d ▸ holds, chainEvents.trans tracked.chainEvents,
    reorgState.trans tracked.reorgState, policies.trans tracked.policies⟩,
    fun key => ⟨untouched key, touched key⟩⟩

theorem tracked_nil (w : ProjectorWorld) (c : ChainId) : Tracked w c [] (w.deliver []) where
  holds :=
    { present := fun _ he => absurd he List.not_mem_nil
      only := fun _ hr => .inl hr
      sum := fun _ _ _ _ => (Int.add_zero _).symm }
  chainEvents := rfl
  reorgState := rfl
  policies := rfl

/-- The snapshot of an account that counts all that was delivered: it is the baseline, or it
was projected at the highest block that touched the account. -/
structure Counted (w : ProjectorWorld) (key : AccountAsset) (chain : BlockNumber → BlockHash)
    (baseline : BalanceSnapshot) (before : List ProjectionInput) (s : BalanceSnapshot) : Prop where
  snapshot : w.snapshotOf key = some s
  start : w.baselineOf key = some (baseline.toBaseline key) ∨
    w.baselineOf key = none ∧ s = baseline
  origin : s = baseline ∨
    s.source = .eventProjection ∧ s.blockHash = chain s.blockNumber ∧
      baseline.blockNumber < s.blockNumber ∧
      ∃ d ∈ before, d.Touches key ∧ d.block.blockNumber = s.blockNumber
  highest : ∀ d ∈ before, d.Touches key → baseline.blockNumber < d.block.blockNumber →
    d.block.blockNumber ≤ s.blockNumber
  positive : 0 ≤ s.balanceRaw
  balance : s.balanceRaw = baseline.balanceRaw +
    sumAbove key baseline.blockNumber (delivered key.chainId before)

theorem Counted.projected {w' : ProjectorWorld} {s : BalanceSnapshot}
    (h : Counted w' key chain baseline before s) : w'.Projected key baseline before :=
  ⟨s, h.snapshot, h.balance⟩

theorem projected_iff {w' : ProjectorWorld} {s : BalanceSnapshot}
    (snapshot : w'.snapshotOf key = some s) :
    w'.Projected key baseline before ↔ s.balanceRaw = baseline.balanceRaw +
      sumAbove key baseline.blockNumber (delivered key.chainId before) := by
  constructor
  · rintro ⟨s', found, balance⟩
    obtain rfl := Option.some.inj (snapshot.symm.trans found)
    exact balance
  · exact fun balance => ⟨s, snapshot, balance⟩

/-- The delivery adds nothing above the baseline. -/
def AddsNothing (key : AccountAsset) (baseline : BalanceSnapshot) (before : List ProjectionInput)
    (d : ProjectionInput) : Prop :=
  sumAbove key baseline.blockNumber (delivered key.chainId (before ++ [d])) =
    sumAbove key baseline.blockNumber (delivered key.chainId before)

/-- The delivery is counted if and only if it is in order, and then the next one starts from
what was counted. -/
def Steps (w : ProjectorWorld) (key : AccountAsset) (chain : BlockNumber → BlockHash)
    (baseline : BalanceSnapshot) (before : List ProjectionInput) (d : ProjectionInput) : Prop :=
  (w.Projected key baseline (before ++ [d]) ↔ InOrder key baseline before d) ∧
    (InOrder key baseline before d → ∃ s, Counted w key chain baseline (before ++ [d]) s)

/-- Where the snapshot stays, the delivery has to add nothing. -/
theorem Counted.stays {w₁ w₂ : ProjectorWorld} {s : BalanceSnapshot}
    (h : Counted w₁ key chain baseline before s) (snapshot : w₂.snapshotOf key = some s)
    (start : w₂.baselineOf key = some (baseline.toBaseline key) ∨
      w₂.baselineOf key = none ∧ s = baseline)
    (highest : d.Touches key → baseline.blockNumber < d.block.blockNumber →
      AddsNothing key baseline before d → d.block.blockNumber ≤ s.blockNumber)
    (adds : InOrder key baseline before d → AddsNothing key baseline before d) :
    Steps w₂ key chain baseline before d := by
  refine ⟨⟨fun projected => .inr (.inl ?_), fun inOrder => ?_⟩, fun inOrder => ⟨s, ?_⟩⟩
  · have balance := (projected_iff snapshot).1 projected
    rw [h.balance] at balance
    exact (Int.add_left_cancel balance).symm
  · rw [projected_iff snapshot, adds inOrder]
    exact h.balance
  · refine ⟨snapshot, start, ?_, ?_, h.positive, (adds inOrder).symm ▸ h.balance⟩
    · rcases h.origin with rfl | ⟨source, hash, above, d', hd', touched, block⟩
      · exact .inl rfl
      · exact .inr ⟨source, hash, above, d', List.mem_append_left _ hd', touched, block⟩
    · intro d' hd' touched above
      rcases List.mem_append.1 hd' with hd' | hd'
      · exact h.highest d' hd' touched above
      · cases List.mem_singleton.1 hd'
        exact highest touched above (adds inOrder)

/-- The events that count are those up to the block of a delivery that no earlier one of the
account is above. -/
theorem Counted.readSum_eq {w₁ w₂ : ProjectorWorld} {s : BalanceSnapshot}
    (h : Deliverable w key.chainId chain wallet deliveries)
    (source : ProjectedFrom w key baseline) (split : deliveries = before ++ d :: after)
    (counted : Counted w₁ key chain baseline before s)
    (holds : Holds key.chainId w.db w₂.db (delivered key.chainId (before ++ [d])))
    (above : baseline.blockNumber < d.block.blockNumber)
    (reach : s.blockNumber ≤ d.block.blockNumber) :
    readSum key baseline.blockNumber d.block.blockNumber w₂.db =
      sumAbove key baseline.blockNumber (delivered key.chainId (before ++ [d])) := by
  rw [holds.sum key _ _ rfl, readSum, source.noDelta, List.map_nil, List.sum_nil, Int.zero_add]
  apply sumWithin_eq_sumAbove
  intro e he beyond
  obtain ⟨d', hd', he⟩ := mem_delivered he
  have member : d' ∈ deliveries := by
    rw [split]
    rcases List.mem_append.1 hd' with hd' | hd'
    · exact List.mem_append_left _ hd'
    · cases List.mem_singleton.1 hd'
      exact List.mem_append_right _ List.mem_cons_self
  have block := (h.events d' member e he).1
  refine deltaFor_of_untouched he (h.wallets d' member e he) fun account haccount own => ?_
  have touched : d'.Touches key := ⟨account, haccount, by rw [(h.block d' member).1, own]⟩
  rw [block] at beyond
  rcases List.mem_append.1 hd' with hd' | hd'
  · have highest := counted.highest d' hd' touched (Nat.lt_trans above beyond)
    exact Nat.not_lt.2 (Nat.le_trans highest reach) beyond
  · cases List.mem_singleton.1 hd'
    exact Nat.lt_irrefl _ beyond

/-- A delivery that adds nothing: it does not touch the account, or comes at its baseline. -/
theorem addsNothing (h : Deliverable w key.chainId chain wallet deliveries)
    (hd : d ∈ deliveries)
    (off : ¬ d.Touches key ∨ d.block.blockNumber ≤ baseline.blockNumber) :
    AddsNothing key baseline before d := by
  rw [AddsNothing, delivered_append]
  refine sum_foldl_addDistinct _ fun e he => ?_
  rcases off with untouched | below
  · rw [deltaFor_of_untouched he (h.wallets d hd e he), ite_self]
    intro account haccount own
    exact untouched ⟨account, haccount, by rw [(h.block d hd).1, own]⟩
  · rw [if_neg]
    rw [(h.events d hd e he).1]
    exact Nat.not_lt.2 below

/-- The snapshot of an account may go to the block of a delivery, unless it is above it. -/
theorem Counted.advances {w₁ : ProjectorWorld} {s : BalanceSnapshot}
    (counted : Counted w₁ key chain baseline before s)
    (hash : d.block.blockHash = chain d.block.blockNumber)
    (above : baseline.blockNumber < d.block.blockNumber) :
    Server.advances key d.block s = true ↔ s.blockNumber ≤ d.block.blockNumber := by
  have canonical := Table.of_find? counted.snapshot
  rw [Bool.and_eq_true] at canonical
  rw [Server.advances, canonical.1, canonical.2, Bool.true_and, Bool.true_and, Bool.or_eq_true,
    decide_eq_true_eq, Bool.and_eq_true, Bool.and_eq_true, beq_iff_eq, beq_iff_eq,
    decide_eq_true_eq]
  constructor
  · rintro (lower | level)
    · exact Nat.le_of_lt lower
    · exact Nat.le_of_eq level.1.1
  · intro reach
    rcases Nat.lt_or_eq_of_le reach with lower | level
    · exact .inl lower
    · rcases counted.origin with rfl | ⟨source, ofChain, -, -⟩
      · exact absurd above (Nat.not_lt.2 (Nat.le_of_eq level.symm))
      · exact .inr ⟨⟨level, by rw [ofChain, level, hash]⟩, source⟩

/-- A delivery that takes the snapshot to its block counts all there is. -/
theorem Counted.moves {w₁ w₂ : ProjectorWorld} {s : BalanceSnapshot}
    (counted : Counted w₁ key chain baseline before s)
    (hash : d.block.blockHash = chain d.block.blockNumber) (touched : d.Touches key)
    (above : baseline.blockNumber < d.block.blockNumber)
    (reach : s.blockNumber ≤ d.block.blockNumber)
    (positive : 0 ≤ baseline.balanceRaw +
      sumAbove key baseline.blockNumber (delivered key.chainId (before ++ [d])))
    (start : w₂.baselineOf key = some (baseline.toBaseline key))
    (snapshot : w₂.snapshotOf key = some (Server.projected (baseline.balanceRaw +
      sumAbove key baseline.blockNumber (delivered key.chainId (before ++ [d]))) d.block s)) :
    Steps w₂ key chain baseline before d := by
  have inOrder : InOrder key baseline before d := by
    refine .inr (.inr ⟨fun d' hd' touched' => ?_, positive⟩)
    rcases Nat.lt_or_ge baseline.blockNumber d'.block.blockNumber with above' | below'
    · exact Nat.le_trans (counted.highest d' hd' touched' above') reach
    · exact Nat.le_of_lt (Nat.lt_of_le_of_lt below' above)
  refine ⟨⟨fun _ => inOrder, fun _ => (projected_iff snapshot).2 rfl⟩, fun _ => ⟨_, snapshot,
    .inl start, ?_, ?_, positive, rfl⟩⟩
  · exact .inr ⟨rfl, hash, above, d, List.mem_append_right _ (List.mem_singleton_self d), touched,
      rfl⟩
  · intro d' hd' touched' above'
    rcases List.mem_append.1 hd' with hd' | hd'
    · exact Nat.le_trans (counted.highest d' hd' touched' above') reach
    · cases List.mem_singleton.1 hd'
      exact Nat.le_refl _

/-- The delivery after those that were counted. -/
theorem Counted.next {s : BalanceSnapshot}
    (h : Deliverable w key.chainId chain wallet deliveries) (source : ProjectedFrom w key baseline)
    (split : deliveries = before ++ d :: after)
    (tracked : Tracked w key.chainId before (w.deliver before))
    (counted : Counted (w.deliver before) key chain baseline before s) :
    Steps (w.deliver (before ++ [d])) key chain baseline before d := by
  have hd : d ∈ deliveries := by rw [split]; exact List.mem_append_right _ List.mem_cons_self
  have hash := (h.block d hd).2
  obtain ⟨tracked', delivers⟩ := tracked.next h split
  by_cases touched : d.Touches key
  case neg =>
    have kept := (delivers key).untouched touched
    exact counted.stays (kept.1.trans counted.snapshot) (by rw [kept.2]; exact counted.start)
      (fun t => absurd t touched) fun _ => addsNothing h hd (.inl touched)
  obtain ⟨policy, found, projects⟩ := source.policy
  obtain ⟨start, snapshot⟩ := (delivers key).touched touched s policy counted.snapshot
    (tracked.policies ▸ found) projects
  have base : ((w.deliver before).baselineOf key).getD (s.toBaseline key) =
      baseline.toBaseline key := by
    rcases counted.start with found | ⟨none, rfl⟩
    · rw [found, Option.getD_some]
    · rw [none, Option.getD_none]
  rw [base] at start snapshot
  by_cases above : baseline.blockNumber < d.block.blockNumber
  case neg =>
    -- what comes at the baseline or below it is part of the baseline
    rw [refreshed, if_neg fun on => above on.1] at snapshot
    exact counted.stays snapshot (.inl start) (fun _ above' => absurd above' above)
      fun _ => addsNothing h hd (.inr (Nat.not_lt.1 above))
  have moves := counted.advances hash above
  by_cases reach : s.blockNumber ≤ d.block.blockNumber
  case neg =>
    -- the snapshot is of a higher block, and stays
    have late := Nat.not_le.1 reach
    rw [refreshed, if_neg fun on => reach (moves.1 on.2.2)] at snapshot
    refine counted.stays snapshot (.inl start) (fun _ _ _ => Nat.le_of_lt late) ?_
    rintro (below | same | ⟨ordered, -⟩)
    · exact absurd above (Nat.not_lt.2 below)
    · exact same
    · rcases counted.origin with rfl | ⟨-, -, -, d', hd', touched', block⟩
      · exact absurd above (Nat.lt_asymm late)
      · exact absurd late (Nat.not_lt.2 (block ▸ ordered d' hd' touched'))
  have sum := counted.readSum_eq h source split tracked'.holds above reach
  rw [refreshed, ProjectionBaseline.at, BalanceSnapshot.toBaseline, sum] at snapshot
  by_cases positive : 0 ≤ baseline.balanceRaw +
      sumAbove key baseline.blockNumber (delivered key.chainId (before ++ [d]))
  · rw [if_pos ⟨above, positive, moves.2 reach⟩] at snapshot
    exact counted.moves hash touched above reach positive start snapshot
  · -- the balance is refused, and the snapshot stays as it was
    rw [if_neg fun on => positive on.2.1] at snapshot
    have adds : ¬ AddsNothing key baseline before d := by
      intro same
      rw [same, ← counted.balance] at positive
      exact positive counted.positive
    refine counted.stays snapshot (.inl start) (fun _ _ same => absurd same adds) ?_
    rintro (below | same | ⟨-, positive'⟩)
    · exact absurd above (Nat.not_lt.2 below)
    · exact same
    · exact absurd positive' positive

theorem tracked_of_split (h : Deliverable w key.chainId chain wallet deliveries)
    (split : deliveries = before ++ after) :
    Tracked w key.chainId before (w.deliver before) := by
  induction before using List.reverseRecOn generalizing after with
  | nil => exact tracked_nil w _
  | append_singleton before d ih =>
    rw [List.append_assoc] at split
    exact ((ih split).next h split).1

/-- What is counted delivery by delivery is counted throughout. -/
theorem counted_of_split (source : ProjectedFrom w key baseline)
    (go : ∀ before d after s, deliveries = before ++ d :: after →
      Counted (w.deliver before) key chain baseline before s →
      ∃ s', Counted (w.deliver (before ++ [d])) key chain baseline (before ++ [d]) s')
    (split : deliveries = before ++ after) :
    ∃ s, Counted (w.deliver before) key chain baseline before s := by
  induction before using List.reverseRecOn generalizing after with
  | nil =>
    refine ⟨baseline, source.snapshot, .inr ⟨source.noBaseline, rfl⟩, .inl rfl, ?_,
      source.positive, (Int.add_zero _).symm⟩
    exact fun d hd => absurd hd List.not_mem_nil
  | append_singleton before d ih =>
    rw [List.append_assoc] at split
    obtain ⟨s, counted⟩ := ih split
    exact go before d after s split counted

/-- The snapshot counts all that was delivered, after every delivery, if and only if every
delivery is in order. -/
theorem projected_iff_inOrder (h : Deliverable w key.chainId chain wallet deliveries)
    (source : ProjectedFrom w key baseline) :
    (∀ before after, deliveries = before ++ after →
      (w.deliver before).Projected key baseline before) ↔
    ∀ before d after, deliveries = before ++ d :: after → InOrder key baseline before d := by
  have next : ∀ before d after s, deliveries = before ++ d :: after →
      Counted (w.deliver before) key chain baseline before s →
      Steps (w.deliver (before ++ [d])) key chain baseline before d :=
    fun before d after s split counted =>
      counted.next h source split (tracked_of_split h split)
  constructor
  · intro projected before d after split
    have split' : deliveries = (before ++ [d]) ++ after := by
      rw [split, List.append_assoc]
      rfl
    obtain ⟨s, counted⟩ := counted_of_split source (fun before d after s split counted => by
      have steps := next before d after s split counted
      refine steps.2 (steps.1.1 (projected (before ++ [d]) after ?_))
      rw [split, List.append_assoc]
      rfl) split
    exact (next before d after s split counted).1.1 (projected _ after split')
  · intro inOrder before after split
    obtain ⟨s, counted⟩ := counted_of_split source (fun before d after s split counted =>
      (next before d after s split counted).2 (inOrder before d after split)) split
    exact counted.projected

end Order

/-! Two deposits of 25, in the blocks 95 and 100, to a wallet that had 10 at block 90. -/

def depositAt (txHash : TxHash) (number : BlockNumber) : JournalEvent :=
  { deposit number (100 * number) with txHash }

/-- The projector is given the deposit. -/
def depositDelivered (txHash : TxHash) (number : BlockNumber) : ProjectionInput where
  block := { chainId := 421614, blockNumber := number, blockHash := 100 * number }
  events := [depositAt txHash number]
  expectedReorgEpoch := some 0

def depositAccount : AccountAsset where
  chainId := 421614
  accountAddress := 7
  asset := 1

def snapshotAt90 : BalanceSnapshot where
  uid := 1
  accountAddress := 7
  chainId := 421614
  asset := 1
  balanceRaw := 10
  blockNumber := 90
  blockHash := 9000
  source := .rpc
  canonical := true

/-- The balance was read, and both deposits are in the journal. -/
def depositsJournaled : ProjectorWorld :=
  [ProjectorSurroundings.setPolicies fun _ _ =>
      some { strategy := .events, projectionVersion := 1, enabled := true },
    .readBalance snapshotAt90,
    .journalBlockEvents { stream := ['t'], block := (depositDelivered 5 95).block
                          events := [depositAt 5 95], userOperationReceipts := []
                          expectedReorgEpoch := 0 },
    .journalBlockEvents { stream := ['f'], block := (depositDelivered 6 100).block
                          events := [depositAt 6 100], userOperationReceipts := []
                          expectedReorgEpoch := 0 }].foldl
    (fun w e => e.move w) (.initial fun _ n => 100 * n)

theorem deposits_deliverable {deliveries : List ProjectionInput}
    (h : ∀ d ∈ deliveries, d = depositDelivered 5 95 ∨ d = depositDelivered 6 100) :
    Deliverable depositsJournaled 421614 (fun n => 100 * n) (fun _ => 7) deliveries where
  block d hd := by rcases h d hd with rfl | rfl <;> exact ⟨rfl, rfl⟩
  events d hd e he := by
    rcases h d hd with rfl | rfl <;> cases List.mem_singleton.1 he <;> exact ⟨rfl, rfl, rfl⟩
  fresh d hd e he r hr := absurd hr (by
    have none : depositsJournaled.db.deltas.rows = [] := by decide +kernel
    rw [← Table.mem_rows, none]
    exact List.not_mem_nil)
  same d hd e he d' hd' e' he' id := by
    rcases h d hd with rfl | rfl <;> rcases h d' hd' with rfl | rfl <;>
      cases List.mem_singleton.1 he <;> cases List.mem_singleton.1 he' <;>
      first | rfl | exact absurd (congrArg EventId.txHash id) (by decide)
  journaled d hd e he := by
    rcases h d hd with rfl | rfl <;> cases List.mem_singleton.1 he <;> decide +kernel
  wallets d hd e he a ha := by
    rcases h d hd with rfl | rfl <;> cases List.mem_singleton.1 he <;>
      cases List.mem_singleton.1 ha <;> rfl
  validChain := by decide
  epoch := by decide +kernel
  expected d hd epoch found := by
    rcases h d hd with rfl | rfl <;> cases found <;> decide +kernel

theorem deposits_projectedFrom : ProjectedFrom depositsJournaled depositAccount snapshotAt90 where
  snapshot := by decide +kernel
  positive := by decide
  policy := ⟨_, rfl, rfl, List.mem_cons_self, rfl⟩
  noBaseline := by decide +kernel
  noDelta n := by
    have none : depositsJournaled.db.deltas.rows = [] := by decide +kernel
    rw [selectDeltas, Table.filter, none, List.filter_nil]

/-- Both deposits are counted when the lower one comes first. -/
theorem projected_iff_inOrder_deposits :
    (depositsJournaled.deliver [depositDelivered 5 95, depositDelivered 6 100]).Projected
      depositAccount snapshotAt90 [depositDelivered 5 95, depositDelivered 6 100] := by
  have deliverable : Deliverable depositsJournaled depositAccount.chainId (fun n => 100 * n)
      (fun _ => 7) [depositDelivered 5 95, depositDelivered 6 100] :=
    deposits_deliverable (by simp)
  refine (projected_iff_inOrder deliverable deposits_projectedFrom).2 ?_ _ [] rfl
  intro before d after split
  rcases before with - | ⟨first, - | ⟨second, rest⟩⟩
  · cases split
    exact .inr (.inr ⟨fun d' hd' => absurd hd' List.not_mem_nil, by decide +kernel⟩)
  · cases split
    refine .inr (.inr ⟨fun d' hd' _ => ?_, by decide +kernel⟩)
    cases List.mem_singleton.1 hd'
    decide
  · simp at split

/-- The lower one is missing when it comes last. -/
theorem late_deposit_missing :
    Deliverable depositsJournaled 421614 (fun n => 100 * n) (fun _ => 7)
      [depositDelivered 6 100, depositDelivered 5 95] ∧
    ProjectedFrom depositsJournaled depositAccount snapshotAt90 ∧
    ¬ (depositsJournaled.deliver [depositDelivered 6 100, depositDelivered 5 95]).Projected
      depositAccount snapshotAt90 [depositDelivered 6 100, depositDelivered 5 95] := by
  refine ⟨deposits_deliverable (by simp), deposits_projectedFrom, fun projected => ?_⟩
  have snapshot : (depositsJournaled.deliver
      [depositDelivered 6 100, depositDelivered 5 95]).snapshotOf depositAccount =
      some { snapshotAt90 with balanceRaw := 35, blockNumber := 100, blockHash := 10000
                               source := .eventProjection } := by
    decide +kernel
  have balance := (projected_iff snapshot).1 projected
  revert balance
  decide +kernel

end ParmeliaLinks.Server
