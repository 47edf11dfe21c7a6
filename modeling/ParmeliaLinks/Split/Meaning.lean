/-
ParmeliaLinks/Split/Meaning.lean

What the split is to preserve (`Preserved`), and when it does.  Every legacy link,
intent, key, endpoint, event and delivery is to appear once, under its id and its
owner; money, references and creation times stay; an intent can be paid afterwards as
before, and a paid one keeps what was paid; and deliveries that are still pending are to
be within the reach of the worker's outbox.

The run never writes to the outbox, so no pending delivery is.  It also stamps every
amount as USDC, and takes the amount of a link that has an intent from the intent, even
when the link holds what was actually paid.  `Carried` is what a database must be like
for none of this to matter.
-/
import ParmeliaLinks.Split.Committed

namespace ParmeliaLinks.Split

/-! ### What is to be preserved -/

/-- The merchant belongs to the user. -/
def Owned (new : PaymentsDb) (merchantId ownerUid : Text) : Prop :=
  ∃ m ∈ new.merchants, m.id = merchantId ∧ m.ownerUid = ownerUid

/-- One row of the table has the key, and it satisfies `P`. -/
def One {ρ : Type} [Row ρ] (t : Table ρ) (key P : ρ → Prop) : Prop :=
  ∃ r ∈ t, key r ∧ P r ∧ ∀ r' ∈ t, key r' → r' = r

/-- As much of the same currency. -/
def SameMoney (amount currency amount' currency' : Text) : Prop :=
  atomic amount' = atomic amount ∧ currency' = currency

/-- A quote can be had for the intent. -/
def PaymentIntent.Payable (dateParse : Text → Option Nat) (now : Nat) (j : PaymentIntent) : Prop :=
  j.status = .awaitingPayment ∧ LegacyApp.expired dateParse j.expiresAt now = false

/-- The worker finds the delivery in its outbox, at some time. -/
def Reachable (new : PaymentsDb) (deliveryId : Text) : Prop :=
  ∃ now limit, ∃ r ∈ new.listDuePaymentOutbox now limit,
    r.topic = "webhook_delivery".toList ∧ r.resourceId = deliveryId

/-- What a legacy link becomes. -/
structure KeptLink (new : PaymentsDb) (l : AppLink) (p : PaymentLink) : Prop where
  owner : Owned new p.merchantId l.ownerUid
  money : SameMoney l.amount l.currency p.amount p.currency
  reference : p.reference = l.reference
  createdAt : p.createdAt = l.createdAt

/-- What a legacy intent becomes. -/
structure KeptIntent (app : LegacyApp) (new : PaymentsDb) (i : AppIntent) (j : PaymentIntent) :
    Prop where
  owner : ∀ m ∈ app.merchants, m.id = i.merchantId → Owned new j.merchantId m.ownerUid
  money : SameMoney i.amount i.currency j.amount j.currency
  atomic : atomic i.amount = some j.amountAtomic
  reference : ∀ r, i.reference = some r → j.reference = r
  createdAt : j.createdAt = i.createdAt
  payable : ∀ dateParse now, j.Payable dateParse now ↔ app.Payable dateParse now i
  paid : app.Paid i → j.status = .paid ∧
    ∀ amount, app.ActuallyPaid i amount → Split.atomic amount = some j.paidAmountAtomic

/-- The intent generated for a link. -/
structure GeneratedIntent (app : LegacyApp) (new : PaymentsDb) (l : AppLink) (j : PaymentIntent) :
    Prop where
  fresh : ∀ i ∈ app.intents, j.id ≠ i.id
  owner : Owned new j.merchantId l.ownerUid
  money : SameMoney l.amount l.currency j.amount j.currency
  reference : j.reference = l.reference
  payable : ∀ dateParse now, j.Payable dateParse now ↔ l.status = .pending
  paid : l.status = .paid → j.status = .paid ∧ atomic l.amount = some j.paidAmountAtomic

/-- The link generated for an intent. -/
structure GeneratedLink (app : LegacyApp) (new : PaymentsDb) (i : AppIntent) (p : PaymentLink) :
    Prop where
  fresh : ∀ l ∈ app.links, p.id ≠ l.id
  owner : ∀ m ∈ app.merchants, m.id = i.merchantId → Owned new p.merchantId m.ownerUid
  money : SameMoney i.amount i.currency p.amount p.currency
  reference : p.reference = i.reference.getD []

structure Preserved (app : LegacyApp) (new : PaymentsDb) : Prop where
  links : ∀ l ∈ app.links, One new.links (·.id = l.id) (KeptLink new l)
  intents : ∀ i ∈ app.intents, One new.intents (·.id = i.id) (KeptIntent app new i)
  pairs : ∀ l i, app.Backs l i → ∀ p ∈ new.links, ∀ j ∈ new.intents, p.id = l.id → j.id = i.id →
    p.intentId = j.id ∧ j.linkId = some p.id
  loneLinks : ∀ l, app.LoneLink l →
    One new.intents (·.linkId = some l.id) (GeneratedIntent app new l)
  loneIntents : ∀ i, app.LoneIntent i →
    One new.links (·.intentId = i.id) (GeneratedLink app new i)
  noMoreLinks : ∀ p ∈ new.links, (∃ l ∈ app.links, p.id = l.id) ∨
    ∃ i, app.LoneIntent i ∧ p.intentId = i.id
  noMoreIntents : ∀ j ∈ new.intents, (∃ i ∈ app.intents, j.id = i.id) ∨
    ∃ l, app.LoneLink l ∧ j.linkId = some l.id
  apiKeys : ∀ k ∈ app.apiKeys, One new.apiKeys (·.id = k.id) fun k' =>
    k'.createdAt = k.createdAt ∧ ∀ m ∈ app.merchants, m.id = k.merchantId →
      Owned new k'.merchantId m.ownerUid
  noMoreApiKeys : ∀ k' ∈ new.apiKeys, ∃ k ∈ app.apiKeys, k'.id = k.id
  endpoints : ∀ e ∈ app.endpoints, One new.endpoints (·.id = e.id) fun e' =>
    e'.createdAt = e.createdAt ∧ ∀ m ∈ app.merchants, m.id = e.merchantId →
      Owned new e'.merchantId m.ownerUid
  noMoreEndpoints : ∀ e' ∈ new.endpoints, ∃ e ∈ app.endpoints, e'.id = e.id
  events : ∀ e ∈ app.events, One new.events (·.id = e.id) fun e' =>
    e'.createdAt = e.createdAt ∧ ∀ m ∈ app.merchants, m.id = e.merchantId →
      Owned new e'.merchantId m.ownerUid
  noMoreEvents : ∀ e' ∈ new.events, ∃ e ∈ app.events, e'.id = e.id
  deliveries : ∀ d ∈ app.deliveries, One new.deliveries (·.id = d.id) fun d' =>
    d'.eventId = d.eventId ∧ d'.endpointId = d.endpointId ∧ d'.createdAt = d.createdAt
  noMoreDeliveries : ∀ d' ∈ new.deliveries, ∃ d ∈ app.deliveries, d'.id = d.id
  pending : ∀ d ∈ app.deliveries, d.status = .pending → Reachable new d.id
  finished : ∀ d ∈ app.deliveries, d.status ≠ .pending → ¬ Reachable new d.id

/-! ### When it is -/

/-- The merchant has something to its name. -/
def InUse (app : LegacyApp) (m : AppMerchant) : Prop :=
  (∃ l ∈ app.links, l.ownerUid = m.ownerUid) ∨ (∃ i ∈ app.intents, i.merchantId = m.id) ∨
    (∃ k ∈ app.apiKeys, k.merchantId = m.id) ∨ (∃ e ∈ app.endpoints, e.merchantId = m.id) ∨
      ∃ e ∈ app.events, e.merchantId = m.id

/-- The ids made up for the owners of links stand in nobody's way. -/
def MerchantsApart (tools : Tools) (app : LegacyApp) : Prop :=
  ∀ l ∈ app.links, WithoutMerchant app l.ownerUid →
    (∀ l' ∈ app.links, WithoutMerchant app l'.ownerUid →
      merchantId tools l'.ownerUid = merchantId tools l.ownerUid → l'.ownerUid = l.ownerUid) ∧
    ∀ m ∈ app.merchants, m.id = merchantId tools l.ownerUid → ¬ InUse app m

structure Carried (tools : Tools) (app : LegacyApp) : Prop where
  noPending : ∀ d ∈ app.deliveries, d.status ≠ .pending
  linkCurrency : ∀ l ∈ app.links, l.currency = usdc
  intentCurrency : ∀ i ∈ app.intents, i.currency = usdc
  amounts : ∀ l i, app.Backs l i → atomic l.amount = atomic i.amount
  linkIds : ∀ i ∈ app.intents, i.linkId ≠ some []
  apart : MerchantsApart tools app

/-! ### Owners -/

section Proofs

variable {tools : Tools} {app : LegacyApp} {d : Directory} {db : PaymentsDb}
  (F : Filled tools app d db) (H : Housed tools app (legacyLinks app) d)

include H in
theorem ofOwner_legacy {m : AppMerchant} (hm : m ∈ app.merchants) :
    d.ofOwner m.ownerUid = d.merchants.get m.id := by
  have found := (H.owners m.ownerUid m.id).2 (.inl ⟨m, hm, rfl, rfl⟩)
  rw [Directory.ofOwner, found, Option.bind_some]

include H in
theorem ofOwner_link {l : AppLink} (hl : l ∈ app.links) (without : WithoutMerchant app l.ownerUid) :
    d.ofOwner l.ownerUid = d.merchants.get (merchantId tools l.ownerUid) := by
  have found := (H.owners l.ownerUid _).2 (.inr ⟨without, ⟨l, mem_orderById.2 hl, rfl⟩, rfl⟩)
  rw [Directory.ofOwner, found, Option.bind_some]

include F H in
theorem owned_of_get {k u : Text} {x : Merchant} (found : d.merchants.get k = some x)
    (owner : x.ownerUid = u) : x.id = k ∧ Owned db x.id u := by
  refine ⟨H.named k x found, x, ?_, rfl, owner⟩
  exact (F.merchants x).2 (OrderedMap.mem_values_iff.2 ⟨k, found⟩)

include F H in
/-- A merchant that is in use keeps its owner. -/
theorem owned_merchant (apart : MerchantsApart tools app) {m : AppMerchant}
    (hm : m ∈ app.merchants) (use : InUse app m) {x : Merchant}
    (found : d.merchants.get m.id = some x) : x.id = m.id ∧ Owned db x.id m.ownerUid := by
  obtain ⟨x', found', owner⟩ := H.legacy m hm fun l hl without same =>
    (apart l (mem_orderById.1 hl) without).2 m hm same.symm use
  rw [found] at found'
  cases found'
  exact owned_of_get F H found owner

include F H in
/-- The merchant of a link belongs to the owner of the link. -/
theorem owned_link (apart : MerchantsApart tools app) {l : AppLink} (hl : l ∈ app.links)
    {x : Merchant} (found : d.ofOwner l.ownerUid = some x) : Owned db x.id l.ownerUid := by
  by_cases without : WithoutMerchant app l.ownerUid
  · rw [ofOwner_link H hl without] at found
    obtain ⟨x', found', l', hl', without', same, owner⟩ :=
      H.made l (mem_orderById.2 hl) without
    rw [found] at found'
    cases found'
    refine (owned_of_get F H found ?_).2
    rw [owner]
    exact (apart l hl without).1 l' (mem_orderById.1 hl') without' same
  · simp only [WithoutMerchant, not_forall, not_not] at without
    obtain ⟨m, hm, owner⟩ := without
    rw [← owner, ofOwner_legacy H hm] at found
    rw [← owner]
    exact (owned_merchant F H apart hm (.inl ⟨l, hl, owner.symm⟩) found).2

include H in
/-- The merchant of a link with an intent is the merchant of the intent. -/
theorem ofOwner_backs (paired : app.Paired) {l : AppLink} {i : AppIntent} (backs : app.Backs l i)
    {m : AppMerchant} (hm : m ∈ app.merchants) (id : m.id = i.merchantId) :
    d.ofOwner l.ownerUid = d.merchants.get m.id := by
  rw [← paired.owner l i backs m hm id]
  exact ofOwner_legacy H hm

/-! ### A database that is carried over -/

/-- The intent found under a link, or that there is none. -/
theorem intentByLink_cases (C : Carried tools app) (paired : app.Paired) {l : AppLink}
    (hl : l ∈ app.links) :
    (∃ i, app.Backs l i ∧ (intentByLink app).get l.id = some i) ∨
      app.LoneLink l ∧ (intentByLink app).get l.id = none := by
  by_cases lone : app.LoneLink l
  · refine .inr ⟨lone, ?_⟩
    cases found : (intentByLink app).get l.id with
    | none => rfl
    | some i =>
      obtain ⟨hi, linkId, -⟩ := of_get_intentByLink found
      exact absurd linkId (lone.2 i hi)
  · simp only [LegacyApp.LoneLink, not_and, not_forall, not_not] at lone
    obtain ⟨i, hi, linkId⟩ := lone hl
    refine .inl ⟨i, ⟨hl, hi, linkId⟩, get_intentByLink paired ⟨hl, hi, linkId⟩ ?_⟩
    intro empty
    rw [empty] at linkId
    exact C.linkIds i hi linkId

theorem loneIntent_iff (C : Carried tools app) {i : AppIntent} (hi : i ∈ app.intents) :
    app.LoneIntent i ↔ withoutLink app i = true := by
  constructor
  · intro lone
    by_contra has
    obtain ⟨l, backs, -⟩ := backs_of_withoutLink hi has
    exact lone.2 l backs.1 backs.2.2
  · intro without
    refine ⟨hi, fun l hl linkId => C.linkIds i hi ?_⟩
    rw [linkId, not_backs_of_withoutLink without ⟨hl, hi, linkId⟩]

/-- The amount of a link is the amount that its row is made with. -/
theorem atomic_pair (C : Carried tools app) (paired : app.Paired) {l : AppLink}
    (hl : l ∈ app.links) :
    atomic (amountDecimal ((((intentByLink app).get l.id).map (·.amount)).or (some l.amount)))
      = atomic l.amount := by
  rcases intentByLink_cases C paired hl with ⟨i, backs, found⟩ | ⟨-, found⟩
  · rw [found, C.amounts l i backs]
    exact atomic_amountDecimal i.amount
  · rw [found]
    exact atomic_amountDecimal l.amount

include F H in
theorem keptLink (C : Carried tools app) (paired : app.Paired) {l : AppLink} (hl : l ∈ app.links) :
    One db.links (·.id = l.id) (KeptLink db l) := by
  obtain ⟨merchant, a, owner, amount, -, hp⟩ := F.linkRow hl
  refine ⟨_, hp, rfl, ⟨?_, ⟨?_, ?_⟩, rfl, rfl⟩, fun p hp' id => PaymentsDb.link_eq hp' hp (.inl id)⟩
  · exact owned_link F H C.apart hl owner
  · show atomic (amountDecimal _) = _
    exact atomic_pair C paired hl
  · exact (C.linkCurrency l hl).symm

/-- The intent of a link that has one, after the split. -/
theorem payable_pairedIntent {l : AppLink} {i : AppIntent} (backs : app.Backs l i)
    {merchant : Merchant} {a : Text} (dateParse : Text → Option Nat) (now : Nat) :
    (pairedIntent merchant l (some i) a).Payable dateParse now ↔ app.Payable dateParse now i := by
  have only : ∀ l', app.Backs l' i → l' = l := fun l' backs' => app.link_of_intent backs' backs
  have status : pairStatus l (some i) = .awaitingPayment ↔
      i.status = .awaitingPayment ∧ l.status = .pending := by
    cases hl : l.status <;> cases hi : i.status <;> simp [pairStatus, hl, hi]
  show pairStatus l (some i) = _ ∧ _ ↔ _
  rw [status]
  constructor
  · rintro ⟨⟨waits, pending⟩, fresh⟩
    exact ⟨waits, fresh, fun l' backs' => only l' backs' ▸ pending⟩
  · rintro ⟨waits, fresh, pending⟩
    exact ⟨⟨waits, pending l backs⟩, fresh⟩

theorem pairStatus_paid {l : AppLink} {i : Option AppIntent} :
    pairStatus l i = .paid ↔ l.status = .paid ∨ i.map (·.status) = some .paid := by
  unfold pairStatus
  split
  · rename_i h
    exact iff_of_true rfl h
  · rename_i h
    refine iff_of_false ?_ h
    split
    · exact nofun
    · split <;> exact nofun

/-- What was paid for an intent with a link is in the row of the intent. -/
theorem paid_pairedIntent (C : Carried tools app) {l : AppLink} {i : AppIntent}
    (backs : app.Backs l i) {merchant : Merchant} {a : Text} (amount : atomic i.amount = some a)
    (paid : app.Paid i) :
    (pairedIntent merchant l (some i) a).status = .paid ∧ ∀ text, app.ActuallyPaid i text →
      atomic text = some (pairedIntent merchant l (some i) a).paidAmountAtomic := by
  have only : ∀ l', app.Backs l' i → l' = l := fun l' backs' => app.link_of_intent backs' backs
  have status : pairStatus l (some i) = .paid := by
    rw [pairStatus_paid]
    rcases paid with paid | ⟨l', backs', paid⟩
    · exact .inr (congrArg some paid)
    · rw [only l' backs'] at paid
      exact .inl paid
  refine ⟨status, ?_⟩
  intro text actually
  show atomic text = some (if pairStatus l (some i) = .paid then a else ['0'])
  rw [if_pos status]
  rcases actually with ⟨l', backs', -, rfl⟩ | ⟨-, -, rfl⟩
  · rw [C.amounts l' i backs', amount]
  · exact amount

theorem payable_loneIntent {i : AppIntent} (lone : app.LoneIntent i) {merchant : Merchant}
    {a : Text} (dateParse : Text → Option Nat) (now : Nat) :
    (loneIntent merchant i a).Payable dateParse now ↔ app.Payable dateParse now i := by
  have status : intentStatus i = .awaitingPayment ↔ i.status = .awaitingPayment := by
    unfold intentStatus
    cases i.status <;> decide
  show intentStatus i = _ ∧ _ ↔ _
  rw [status]
  constructor
  · rintro ⟨waits, fresh⟩
    exact ⟨waits, fresh, fun l backs => absurd backs.2.2 (lone.2 l backs.1)⟩
  · rintro ⟨waits, fresh, -⟩
    exact ⟨waits, fresh⟩

theorem paid_loneIntent {i : AppIntent} (lone : app.LoneIntent i) {merchant : Merchant} {a : Text}
    (amount : atomic i.amount = some a) (paid : app.Paid i) :
    (loneIntent merchant i a).status = .paid ∧ ∀ text, app.ActuallyPaid i text →
      atomic text = some (loneIntent merchant i a).paidAmountAtomic := by
  have none : ∀ l, ¬ app.Backs l i := fun l backs => lone.2 l backs.1 backs.2.2
  have status : intentStatus i = .paid := by
    rcases paid with paid | ⟨l, backs, -⟩
    · unfold intentStatus
      rw [paid]
      rfl
    · exact absurd backs (none l)
  refine ⟨status, ?_⟩
  intro text actually
  show atomic text = some (if intentStatus i = .paid then a else ['0'])
  rw [if_pos status]
  rcases actually with ⟨l, backs, -⟩ | ⟨-, -, rfl⟩
  · exact absurd backs (none l)
  · exact amount

include F H in
theorem keptIntent (C : Carried tools app) (paired : app.Paired) {i : AppIntent}
    (hi : i ∈ app.intents) : One db.intents (·.id = i.id) (KeptIntent app db i) := by
  by_cases without : withoutLink app i = true
  · -- the intent comes with the second loop
    have lone := (loneIntent_iff C hi).2 without
    obtain ⟨merchant, a, owner, amount, hj, -⟩ := F.intentRow hi without
    refine ⟨_, hj, rfl, ?_, fun j hj' id => PaymentsDb.intent_eq hj' hj (.inl id)⟩
    constructor
    case owner =>
      intro m hm id
      rw [← id] at owner
      exact (owned_merchant F H C.apart hm (.inr (.inl ⟨i, hi, id.symm⟩)) owner).2
    case money => exact ⟨atomic_amountDecimal i.amount, (C.intentCurrency i hi).symm⟩
    case atomic => exact amount
    case reference => exact fun r reference => by rw [loneIntent, reference]; rfl
    case createdAt => rfl
    case payable => exact payable_loneIntent lone
    case paid => exact paid_loneIntent lone amount
  · -- the intent comes with its link
    obtain ⟨l, backs, named⟩ := backs_of_withoutLink hi without
    obtain ⟨merchant, a, owner, amount, hj, -⟩ := F.linkRow backs.1
    rw [get_intentByLink paired backs named] at amount hj
    have amount : Split.atomic i.amount = some a := (atomic_amountDecimal i.amount) ▸ amount
    refine ⟨_, hj, rfl, ?_, fun j hj' id => PaymentsDb.intent_eq hj' hj (.inl id)⟩
    constructor
    case owner =>
      intro m hm id
      rw [paired.owner l i backs m hm id]
      exact owned_link F H C.apart backs.1 owner
    case money => exact ⟨atomic_amountDecimal i.amount, (C.intentCurrency i hi).symm⟩
    case atomic => exact amount
    case reference =>
      intro r reference
      show i.reference.getD l.reference = r
      rw [reference, Option.getD_some]
    case createdAt => rfl
    case payable => exact payable_pairedIntent backs
    case paid => exact paid_pairedIntent C backs amount

theorem append_ne_self {a b k : Text} (h : a ≠ []) : a ++ (b ++ k) ≠ k := by
  intro same
  have longer := congrArg List.length same
  have pos := List.length_pos_of_ne_nil h
  rw [List.length_append, List.length_append] at longer
  omega

/-- No generated id is made of one that was made of it. -/
theorem legacy_ids {k k' : Text} (h : legacyIntentId k = k') (h' : legacyLinkId k' = k) : False := by
  rw [← h] at h'
  exact append_ne_self (by decide) h'

include F H in
theorem generatedIntent (C : Carried tools app) (paired : app.Paired) {l : AppLink}
    (lone : app.LoneLink l) :
    One db.intents (·.linkId = some l.id) (GeneratedIntent app db l) := by
  have none : (intentByLink app).get l.id = none := by
    rcases intentByLink_cases C paired lone.1 with ⟨i, backs, -⟩ | ⟨-, found⟩
    · exact absurd backs.2.2 (lone.2 i backs.2.1)
    · exact found
  obtain ⟨merchant, a, owner, amount, hj, -⟩ := F.linkRow lone.1
  rw [none] at amount hj
  have amount : atomic l.amount = some a := (atomic_amountDecimal l.amount) ▸ amount
  refine ⟨_, hj, rfl, ?_, ?_⟩
  swap
  · intro j hj' linkId
    exact PaymentsDb.intent_eq hj' hj (.inr ⟨l.id, linkId, rfl⟩)
  constructor
  case fresh =>
    intro i hi id
    have id : legacyIntentId l.id = i.id := id
    by_cases without : withoutLink app i = true
    · obtain ⟨merchant', a', -, -, hi', -⟩ := F.intentRow hi without
      have same := PaymentsDb.intent_eq hj hi' (.inl id)
      have linkId : some l.id = some (legacyLinkId i.id) := congrArg PaymentIntent.linkId same
      exact legacy_ids id (Option.some.inj linkId).symm
    · obtain ⟨l', backs, named⟩ := backs_of_withoutLink hi without
      obtain ⟨merchant', a', -, -, hi', -⟩ := F.linkRow backs.1
      rw [get_intentByLink paired backs named] at hi'
      have same := PaymentsDb.intent_eq hj hi' (.inl id)
      have linkId : some l.id = some l'.id := congrArg PaymentIntent.linkId same
      exact lone.2 i hi (backs.2.2.trans linkId.symm)
  case owner => exact owned_link F H C.apart lone.1 owner
  case money => exact ⟨atomic_amountDecimal l.amount, (C.linkCurrency l lone.1).symm⟩
  case reference => rfl
  case payable =>
    intro dateParse now
    show pairStatus l Option.none = _ ∧ LegacyApp.expired dateParse Option.none now = false ↔ _
    cases status : l.status <;> simp [pairStatus, status, LegacyApp.expired]
  case paid =>
    intro status
    have paid : pairStatus l Option.none = .paid := pairStatus_paid.2 (.inl status)
    refine ⟨paid, ?_⟩
    show atomic l.amount = some (if pairStatus l Option.none = .paid then a else ['0'])
    rw [if_pos paid, amount]

include F H in
theorem generatedLink (C : Carried tools app) {i : AppIntent} (lone : app.LoneIntent i) :
    One db.links (·.intentId = i.id) (GeneratedLink app db i) := by
  obtain ⟨merchant, a, owner, amount, -, hp⟩ :=
    F.intentRow lone.1 ((loneIntent_iff C lone.1).1 lone)
  refine ⟨_, hp, rfl, ?_, fun p hp' id => PaymentsDb.link_eq hp' hp (.inr id)⟩
  constructor
  case fresh =>
    intro l hl id
    obtain ⟨merchant', a', -, -, -, hl'⟩ := F.linkRow hl
    have same := congrArg PaymentLink.intentId (PaymentsDb.link_eq hp hl' (.inl id))
    have same : i.id = (((intentByLink app).get l.id).map (·.id)).getD (legacyIntentId l.id) :=
      same
    cases found : (intentByLink app).get l.id with
    | none =>
      rw [found] at same
      exact legacy_ids same.symm id
    | some i' =>
      obtain ⟨hi', linkId, -⟩ := of_get_intentByLink found
      rw [found] at same
      have : i = i' := by
        refine Table.eq_of_clash lone.1 hi' ?_
        show (i.id == i'.id || _) = true
        have same : i.id = i'.id := same
        simp [same]
      exact lone.2 l hl (this ▸ linkId)
  case owner =>
    intro m hm id
    rw [← id] at owner
    exact (owned_merchant F H C.apart hm (.inr (.inl ⟨i, lone.1, id.symm⟩)) owner).2
  case money => exact ⟨atomic_amountDecimal i.amount, (C.intentCurrency i lone.1).symm⟩
  case reference => rfl

include F in
/-- The rows of a link and its intent name each other. -/
theorem pair_named (C : Carried tools app) (paired : app.Paired) {l : AppLink} {i : AppIntent}
    (backs : app.Backs l i) {p : PaymentLink} (hp : p ∈ db.links) {j : PaymentIntent}
    (hj : j ∈ db.intents) (idp : p.id = l.id) (idj : j.id = i.id) :
    p.intentId = j.id ∧ j.linkId = some p.id := by
  have named : l.id ≠ [] := by
    intro empty
    refine C.linkIds i backs.2.1 ?_
    rw [backs.2.2, empty]
  obtain ⟨merchant, a, -, -, hj', hp'⟩ := F.linkRow backs.1
  rw [get_intentByLink paired backs named] at hj' hp'
  rw [PaymentsDb.link_eq hp hp' (.inl idp), PaymentsDb.intent_eq hj hj' (.inl idj)]
  exact ⟨rfl, rfl⟩

/-- Nothing is in the outbox. -/
theorem not_reachable (empty : db.outbox = .empty) (k : Text) : ¬ Reachable db k := by
  rintro ⟨now, limit, r, hr, -⟩
  rw [PaymentsDb.listDuePaymentOutbox_nil empty] at hr
  cases hr

include F H in
theorem owned_of_has (C : Carried tools app) {m : AppMerchant} (hm : m ∈ app.merchants)
    (use : InUse app m) {k : Text} (id : m.id = k) (has : d.merchants.has k = true) :
    Owned db k m.ownerUid := by
  rw [← id] at has ⊢
  obtain ⟨x, found⟩ := OrderedMap.has_iff.1 has
  obtain ⟨same, owned⟩ := owned_merchant F H C.apart hm use found
  exact same ▸ owned

include F H in
theorem preserved_of_carried (C : Carried tools app) (paired : app.Paired) : Preserved app db := by
  constructor
  case links => exact fun l hl => keptLink F H C paired hl
  case intents => exact fun i hi => keptIntent F H C paired hi
  case pairs =>
    exact fun l i backs p hp j hj idp idj => pair_named F C paired backs hp hj idp idj
  case loneLinks => exact fun l lone => generatedIntent F H C paired lone
  case loneIntents => exact fun i lone => generatedLink F H C lone
  case noMoreLinks =>
    intro p hp
    rcases (F.links p).1 hp with ⟨l, hl, j, _, _, -, -, -, rfl⟩ | ⟨i, hi, without, j, _, _, -, -, -, rfl⟩
    · exact .inl ⟨l, hl, rfl⟩
    · exact .inr ⟨i, (loneIntent_iff C hi).2 without, rfl⟩
  case noMoreIntents =>
    intro j hj
    rcases (F.intents j).1 hj with ⟨l, hl, p, _, _, -, -, rfl, -⟩ | ⟨i, hi, -, p, _, _, -, -, rfl, -⟩
    · rcases intentByLink_cases C paired hl with ⟨i, backs, found⟩ | ⟨lone, -⟩
      · refine .inl ⟨i, backs.2.1, ?_⟩
        rw [found]
        rfl
      · exact .inr ⟨l, lone, rfl⟩
    · exact .inl ⟨i, hi, rfl⟩
  case apiKeys =>
    intro k hk
    refine ⟨apiKeyOf k, (F.apiKeys _).2 ⟨k, hk, rfl⟩, rfl, ⟨rfl, ?_⟩, ?_⟩
    · exact fun m hm id => owned_of_has F H C hm (.inr (.inr (.inl ⟨k, hk, id.symm⟩))) id
        (F.apiKey_known k hk)
    · intro k' hk' id
      refine Table.eq_of_clash hk' ((F.apiKeys _).2 ⟨k, hk, rfl⟩) ?_
      show (k'.id == k.id || _) = true
      simp [id]
  case noMoreApiKeys =>
    intro k' hk'
    obtain ⟨k, hk, rfl⟩ := (F.apiKeys k').1 hk'
    exact ⟨k, hk, rfl⟩
  case endpoints =>
    intro e he
    refine ⟨endpointOf tools e, (F.endpoints _).2 ⟨e, he, rfl⟩, rfl, ⟨rfl, ?_⟩, ?_⟩
    · exact fun m hm id => owned_of_has F H C hm (.inr (.inr (.inr (.inl ⟨e, he, id.symm⟩)))) id
        (F.endpoint_known e he)
    · intro e' he' id
      refine Table.eq_of_clash he' ((F.endpoints _).2 ⟨e, he, rfl⟩) ?_
      show (e'.id == e.id) = true
      simp [id]
  case noMoreEndpoints =>
    intro e' he'
    obtain ⟨e, he, rfl⟩ := (F.endpoints e').1 he'
    exact ⟨e, he, rfl⟩
  case events =>
    intro e he
    refine ⟨eventOf e, (F.events _).2 ⟨e, he, rfl⟩, rfl, ⟨rfl, ?_⟩, ?_⟩
    · exact fun m hm id => owned_of_has F H C hm (.inr (.inr (.inr (.inr ⟨e, he, id.symm⟩)))) id
        (F.event_known e he)
    · intro e' he' id
      refine Table.eq_of_clash he' ((F.events _).2 ⟨e, he, rfl⟩) ?_
      show (e'.id == e.id || _) = true
      simp [id]
  case noMoreEvents =>
    intro e' he'
    obtain ⟨e, he, rfl⟩ := (F.events e').1 he'
    exact ⟨e, he, rfl⟩
  case deliveries =>
    intro r hr
    refine ⟨deliveryOf tools r, (F.deliveries _).2 ⟨r, hr, rfl⟩, rfl, ⟨rfl, rfl, rfl⟩, ?_⟩
    intro r' hr' id
    refine Table.eq_of_clash hr' ((F.deliveries _).2 ⟨r, hr, rfl⟩) ?_
    show (r'.id == r.id || _) = true
    simp [id]
  case noMoreDeliveries =>
    intro r' hr'
    obtain ⟨r, hr, rfl⟩ := (F.deliveries r').1 hr'
    exact ⟨r, hr, rfl⟩
  case pending => exact fun r hr status => absurd status (C.noPending r hr)
  case finished => exact fun r _ _ => not_reachable F.outbox r.id

/-! ### A meaning that is preserved -/

theorem Owned.unique {k u u' : Text} (h : Owned db k u) (h' : Owned db k u') : u = u' := by
  obtain ⟨m, hm, id, owner⟩ := h
  obtain ⟨m', hm', id', owner'⟩ := h'
  rw [← owner, ← owner', PaymentsDb.merchant_eq hm hm' (id.trans id'.symm)]

include F in
theorem currency_link {p : PaymentLink} (hp : p ∈ db.links) : p.currency = usdc := by
  rcases (F.links p).1 hp with ⟨l, -, j, _, _, -, -, -, rfl⟩ | ⟨i, -, -, j, _, _, -, -, -, rfl⟩
  · rfl
  · rfl

include F in
theorem currency_intent {j : PaymentIntent} (hj : j ∈ db.intents) : j.currency = usdc := by
  rcases (F.intents j).1 hj with ⟨l, -, p, _, _, -, -, rfl, -⟩ | ⟨i, -, -, p, _, _, -, -, rfl, -⟩
  · rfl
  · rfl

theorem legacyLinkId_ne_nil (k : Text) : legacyLinkId k ≠ [] := by
  apply List.append_ne_nil_of_left_ne_nil
  decide

include F in
/-- An intent whose link has an empty id comes apart from it. -/
theorem linkIds_of_preserved (P : Preserved app db) {i : AppIntent} (hi : i ∈ app.intents) :
    i.linkId ≠ some [] := by
  intro linkId
  obtain ⟨l, hl, id⟩ := app.intent_link i hi [] linkId
  obtain ⟨p, hp, idp, -⟩ := P.links l hl
  have without : withoutLink app i = true := by
    unfold withoutLink
    rw [linkId]
    rfl
  obtain ⟨merchant, a, -, -, hj, -⟩ := F.intentRow hi without
  have named := (P.pairs l i ⟨hl, hi, by rw [linkId, id]⟩ p hp _ hj idp rfl).2
  have same : legacyLinkId i.id = p.id := Option.some.inj named
  rw [idp, id] at same
  exact legacyLinkId_ne_nil i.id same

include F in
theorem amounts_of_preserved (P : Preserved app db) (paired : app.Paired) {l : AppLink}
    {i : AppIntent} (backs : app.Backs l i) : atomic l.amount = atomic i.amount := by
  have named : l.id ≠ [] := by
    intro empty
    refine linkIds_of_preserved F P backs.2.1 ?_
    rw [backs.2.2, empty]
  obtain ⟨merchant, a, -, -, -, hp⟩ := F.linkRow backs.1
  rw [get_intentByLink paired backs named] at hp
  obtain ⟨p, hp', idp, kept, -⟩ := P.links l backs.1
  rw [PaymentsDb.link_eq hp' hp (.inl idp)] at kept
  have money : atomic (amountDecimal (some i.amount)) = atomic l.amount := kept.money.1
  rw [← money, atomic_amountDecimal]

include F H in
/-- Whatever is to a merchant's name shows who owns it afterwards. -/
theorem owned_of_use (P : Preserved app db) (paired : app.Paired) {m : AppMerchant}
    (hm : m ∈ app.merchants) (use : InUse app m) : Owned db m.id m.ownerUid := by
  rcases use with ⟨l, hl, owner⟩ | ⟨i, hi, id⟩ | ⟨k, hk, id⟩ | ⟨e, he, id⟩ | ⟨e, he, id⟩
  · obtain ⟨merchant, a, found, -, -, hp⟩ := F.linkRow hl
    obtain ⟨p, hp', idp, kept, -⟩ := P.links l hl
    rw [PaymentsDb.link_eq hp' hp (.inl idp)] at kept
    rw [owner, ofOwner_legacy H hm] at found
    have owned : Owned db merchant.id l.ownerUid := kept.owner
    rwa [H.named _ _ found, owner] at owned
  · obtain ⟨j, hj, idj, kept, -⟩ := P.intents i hi
    have owned := kept.owner m hm id.symm
    by_cases without : withoutLink app i = true
    · obtain ⟨merchant, a, found, -, hj', -⟩ := F.intentRow hi without
      rw [PaymentsDb.intent_eq hj hj' (.inl idj)] at owned
      have owned : Owned db merchant.id m.ownerUid := owned
      rwa [H.named _ _ found, id] at owned
    · obtain ⟨l, backs, named⟩ := backs_of_withoutLink hi without
      obtain ⟨merchant, a, found, -, hj', -⟩ := F.linkRow backs.1
      rw [get_intentByLink paired backs named] at hj'
      rw [PaymentsDb.intent_eq hj hj' (.inl idj)] at owned
      rw [ofOwner_backs H paired backs hm id.symm] at found
      have owned : Owned db merchant.id m.ownerUid := owned
      rwa [H.named _ _ found] at owned
  · obtain ⟨k', -, -, ⟨-, owner⟩, only⟩ := P.apiKeys k hk
    have same := only _ ((F.apiKeys _).2 ⟨k, hk, rfl⟩) rfl
    have owned := owner m hm id.symm
    rw [← same] at owned
    exact id ▸ owned
  · obtain ⟨e', -, -, ⟨-, owner⟩, only⟩ := P.endpoints e he
    have same := only _ ((F.endpoints _).2 ⟨e, he, rfl⟩) rfl
    have owned := owner m hm id.symm
    rw [← same] at owned
    exact id ▸ owned
  · obtain ⟨e', -, -, ⟨-, owner⟩, only⟩ := P.events e he
    have same := only _ ((F.events _).2 ⟨e, he, rfl⟩) rfl
    have owned := owner m hm id.symm
    rw [← same] at owned
    exact id ▸ owned

include F H in
theorem owned_of_link (P : Preserved app db) {l : AppLink} (hl : l ∈ app.links)
    (without : WithoutMerchant app l.ownerUid) :
    Owned db (merchantId tools l.ownerUid) l.ownerUid := by
  obtain ⟨merchant, a, found, -, -, hp⟩ := F.linkRow hl
  obtain ⟨p, hp', idp, kept, -⟩ := P.links l hl
  rw [PaymentsDb.link_eq hp' hp (.inl idp)] at kept
  rw [ofOwner_link H hl without] at found
  have owned : Owned db merchant.id l.ownerUid := kept.owner
  rwa [H.named _ _ found] at owned

include F H in
theorem carried_of_preserved (P : Preserved app db) (paired : app.Paired) : Carried tools app := by
  constructor
  case noPending =>
    exact fun r hr status => not_reachable F.outbox r.id (P.pending r hr status)
  case linkCurrency =>
    intro l hl
    obtain ⟨p, hp, -, kept, -⟩ := P.links l hl
    rw [← kept.money.2, currency_link F hp]
  case intentCurrency =>
    intro i hi
    obtain ⟨j, hj, -, kept, -⟩ := P.intents i hi
    rw [← kept.money.2, currency_intent F hj]
  case amounts => exact fun l i backs => amounts_of_preserved F P paired backs
  case linkIds => exact fun i hi => linkIds_of_preserved F P hi
  case apart =>
    intro l hl without
    have mine := owned_of_link F H P hl without
    constructor
    · intro l' hl' without' same
      have theirs := owned_of_link F H P hl' without'
      rw [same] at theirs
      exact theirs.unique mine
    · intro m hm id use
      have theirs := owned_of_use F H P paired hm use
      rw [id] at theirs
      exact without m hm (theirs.unique mine)

end Proofs

/-! ### The run -/

section Run

variable {tools : Tools} {app : LegacyApp}

theorem migrate_error {e : MigrateError} {new : PaymentsDb}
    (h : migrate tools app = (.error e, new)) : new = .migrated := by
  unfold migrate at h
  split at h
  · exact (Prod.mk.inj h).2.symm
  · split at h
    · exact (Prod.mk.inj h).2.symm
    · cases (Prod.mk.inj h).1

theorem filled_of_migrate {checksum : Text} {new : PaymentsDb}
    (h : migrate tools app = (.ok checksum, new)) :
    ∃ d, Housed tools app (legacyLinks app) d ∧ Filled tools app d new := by
  unfold migrate at h
  split at h
  · cases (Prod.mk.inj h).1
  · rename_i d merchants
    split at h
    · cases (Prod.mk.inj h).1
    · rename_i checksum' new' committed
      obtain ⟨db, imported, done⟩ := bind_eq_ok.1 committed
      refine ⟨d, housed_directory merchants, ?_⟩
      have F := filled_of_importAll imported
      split at done
      · cases done
      · cases done
        rw [← (Prod.mk.inj h).2]
        exact ⟨F.pair, F.lone, F.apiKey_known, F.endpoint_known, F.event_known, F.merchants,
          F.intents, F.links, F.apiKeys, F.endpoints, F.events, F.deliveries, F.outbox⟩

end Run

/-- A run that fails leaves no row, and one that commits preserves the meaning of the App
database exactly when that database is one that is carried over. -/
theorem split_preserves (tools : Tools) (app : LegacyApp) (paired : app.Paired) :
    (∀ e new, migrate tools app = (.error e, new) → new.Blank) ∧
      ∀ checksum new, migrate tools app = (.ok checksum, new) →
        (Preserved app new ↔ Carried tools app) := by
  constructor
  · intro e new failed
    rw [migrate_error failed]
    exact PaymentsDb.blank_migrated
  · intro checksum new committed
    obtain ⟨d, H, F⟩ := filled_of_migrate committed
    exact ⟨fun P => carried_of_preserved F H P paired, fun C => preserved_of_carried F H C paired⟩

/-! ### Two databases -/

namespace Sample

def wallet : Text := '0' :: 'x' :: List.replicate 38 '0' ++ ['a', '1']

def tools : Tools where
  sha256 _ := List.replicate 64 '0'
  encryptLegacySecret e := "enc:v2:".toList ++ e.id
  keyId := ['k']
  contentChecksum _ := some (List.replicate 64 '0')
  now := ['9']

def merchant : AppMerchant := ⟨['m', '1'], ['u', '1'], none, ['1']⟩

def link : AppLink where
  id := ['l', '1']
  ownerUid := ['u', '1']
  walletAddress := wallet
  amount := ['1', '0']
  currency := usdc
  reference := ['o', '1']
  status := .pending
  txHash := none
  paidAt := none
  paidBy := none
  paymentClaim := none
  paymentClaimExpiresAt := none
  paymentClaimTxHash := none
  createdAt := ['2']

def intent : AppIntent where
  id := ['i', '1']
  merchantId := ['m', '1']
  linkId := some ['l', '1']
  amount := ['1', '0']
  currency := usdc
  status := .awaitingPayment
  metadata := none
  reference := some ['o', '1']
  txHash := none
  mode := .test
  idempotencyKey := none
  expiresAt := none
  createdAt := ['2']
  updatedAt := ['2']

def endpoint : AppEndpoint :=
  ⟨['w', '1'], ['m', '1'], ['h'], ['s'], none, .enabled, .test, ['1']⟩

def event : AppEvent :=
  ⟨['e', '1'], ['m', '1'], ['p'], some ['i', '1'], ['{', '}'], ['t', 'e', 's', 't'], ['3']⟩

def delivery (status : AppDeliveryStatus) : AppDelivery :=
  ⟨['d', '1'], ['e', '1'], ['w', '1'], 0, status, none, some ['4'], none, ['3']⟩

/-- One merchant with a link, its intent, and one delivery. -/
def app (status : AppDeliveryStatus) : LegacyApp where
  users := ⟨[⟨['u', '1'], some ['c', 'a', 't'], some wallet⟩], by decide⟩
  links := ⟨[link], by decide⟩
  merchants := ⟨[merchant], by decide⟩
  intents := ⟨[intent], by decide⟩
  apiKeys := .empty
  endpoints := ⟨[endpoint], by decide⟩
  events := ⟨[event], by decide⟩
  deliveries := ⟨[delivery status], List.pairwise_singleton _ _⟩
  link_owner := by decide
  merchant_owner := by decide
  intent_merchant := by decide
  intent_link := by
    intro i hi k hk
    rw [List.mem_singleton.1 hi] at hk
    exact ⟨link, List.mem_singleton_self _, Option.some.inj hk⟩
  apiKey_merchant := by decide
  endpoint_merchant := by decide
  event_merchant := by decide
  delivery_event := by
    intro r hr
    rw [List.mem_singleton.1 hr]
    exact ⟨event, List.mem_singleton_self _, rfl⟩
  delivery_endpoint := by
    intro r hr
    rw [List.mem_singleton.1 hr]
    exact ⟨endpoint, List.mem_singleton_self _, rfl⟩

theorem eq_of_backs {status : AppDeliveryStatus} {l : AppLink} {i : AppIntent}
    (h : (app status).Backs l i) : l = link ∧ i = intent :=
  ⟨List.mem_singleton.1 h.1, List.mem_singleton.1 h.2.1⟩

theorem paired (status : AppDeliveryStatus) : (app status).Paired where
  one l i i' h h' := by rw [(eq_of_backs h).2, (eq_of_backs h').2]
  owner l i h m hm _ := by
    rw [(eq_of_backs h).1, List.mem_singleton.1 hm]
    rfl

theorem committed (status : AppDeliveryStatus) :
    ∃ checksum new, migrate tools (app status) = (.ok checksum, new) := by
  have ok : (migrate tools (app status)).1 = .ok (List.replicate 64 '0') := by
    cases status <;> decide +kernel
  exact ⟨_, (migrate tools (app status)).2, by rw [← ok, Prod.mk.eta]⟩

theorem carried : Carried tools (app .delivered) where
  noPending := by decide
  linkCurrency := by decide
  intentCurrency := by decide
  amounts l i h := by rw [(eq_of_backs h).1, (eq_of_backs h).2]; rfl
  linkIds := by decide
  apart l hl without := by
    rw [List.mem_singleton.1 hl] at without
    exact absurd rfl (without merchant (List.mem_singleton_self _))

end Sample

/-- With the delivery made, the run commits and preserves everything. -/
theorem split_preserves_delivered : ∃ checksum new,
    migrate Sample.tools (Sample.app .delivered) = (.ok checksum, new) ∧
      Preserved (Sample.app .delivered) new := by
  obtain ⟨checksum, new, committed⟩ := Sample.committed .delivered
  exact ⟨checksum, new, committed,
    ((split_preserves _ _ (Sample.paired _)).2 checksum new committed).2 Sample.carried⟩

/-- With the delivery still pending it commits as well, and nothing will send it. -/
theorem split_preserves_fails : ∃ app : LegacyApp, app.Paired ∧ ∃ checksum new,
    migrate Sample.tools app = (.ok checksum, new) ∧ ¬ Preserved app new := by
  obtain ⟨checksum, new, committed⟩ := Sample.committed .pending
  refine ⟨Sample.app .pending, Sample.paired _, checksum, new, committed, ?_⟩
  intro preserved
  obtain ⟨d, -, F⟩ := filled_of_migrate committed
  exact not_reachable F.outbox _
    (preserved.pending (Sample.delivery .pending) (List.mem_singleton_self _) rfl)

end ParmeliaLinks.Split
