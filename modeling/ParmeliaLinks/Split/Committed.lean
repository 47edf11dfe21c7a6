/-
ParmeliaLinks/Split/Committed.lean

What a committed split leaves in the target, table by table (`Filled`): every row is
made of a legacy row, and every legacy row has been made into its rows.  Who owns the
merchants of the target is a matter of the two loops over the merchants
(`Directory`): an id that is made up for the owner of a link can take the place of
another merchant, and where it does not, owners are kept (`owner_legacyMerchant`,
`owner_linkMerchant`).
-/
import Mathlib.Data.List.DropRight
import Mathlib.Data.List.TakeWhile
import ParmeliaLinks.Split.Migrate

namespace ParmeliaLinks.Split

variable {tools : Tools} {app : LegacyApp}

/-! ### Amounts -/

/-- Taking the end off uncovers nothing at the front. -/
theorem dropWhile_rdropWhile {α : Type} (p : α → Bool) {t : List α} (front : t.dropWhile p = t) :
    (t.rdropWhile p).dropWhile p = t.rdropWhile p := by
  cases t with
  | nil => rfl
  | cons c rest =>
    have keeps : ¬ p c = true := List.dropWhile_eq_self_iff.1 front (by simp)
    cases kept : (c :: rest).rdropWhile p with
    | nil => rfl
    | cons c' rest' =>
      have first := List.rdropWhile_prefix p (c :: rest)
      rw [kept, List.cons_prefix_cons] at first
      rw [first.1, List.dropWhile_cons_of_neg keeps]

theorem trim_trim (t : Text) : Payments.trim (Payments.trim t) = Payments.trim t := by
  show ((((t.dropWhile _).rdropWhile _).dropWhile Payments.isWhiteSpace).rdropWhile
    Payments.isWhiteSpace) = (t.dropWhile Payments.isWhiteSpace).rdropWhile Payments.isWhiteSpace
  rw [dropWhile_rdropWhile _ (List.dropWhile_idempotent _ t), List.rdropWhile_idempotent]

theorem amountDecimal_amountDecimal (t : Text) :
    amountDecimal (some (amountDecimal (some t))) = amountDecimal (some t) := by
  unfold amountDecimal
  dsimp only [Option.getD_some]
  by_cases blank : Payments.trim t = []
  · rw [if_pos blank]
    decide
  · rw [if_neg blank, trim_trim, if_neg blank]

@[simp] theorem atomic_amountDecimal (t : Text) :
    atomic (amountDecimal (some t)) = atomic t := by
  unfold atomic
  rw [amountDecimal_amountDecimal]

/-! ### Rows of the loops -/

section Rows

variable (app)

/-- The two rows made of a legacy link. -/
def PairOf (d : Directory) (l : AppLink) (j : PaymentIntent) (p : PaymentLink) : Prop :=
  ∃ merchant amountAtomic, d.ofOwner l.ownerUid = some merchant ∧
    atomic (amountDecimal ((((intentByLink app).get l.id).map (·.amount)).or (some l.amount)))
      = some amountAtomic ∧
    j = pairedIntent merchant l ((intentByLink app).get l.id) amountAtomic ∧
    p = pairedLink merchant l ((intentByLink app).get l.id)

/-- The two rows made of an intent without link. -/
def LoneOf (d : Directory) (i : AppIntent) (j : PaymentIntent) (p : PaymentLink) : Prop :=
  ∃ merchant amountAtomic, d.merchants.get i.merchantId = some merchant ∧
    atomic (amountDecimal (some i.amount)) = some amountAtomic ∧
    j = loneIntent merchant i amountAtomic ∧ p = checkoutLink merchant i

theorem linkRows_eq_ok {d : Directory} {l : AppLink} {items : List Item} :
    linkRows app d l = .ok items ↔ ∃ j p, PairOf app d l j p ∧ items = [.intent j, .link p] := by
  unfold linkRows PairOf
  split
  · rename_i missing
    simp [missing]
  · rename_i merchant found
    dsimp only
    split
    · rename_i bad
      rw [bad]
      simp
    · rename_i amountAtomic good
      simp only [found, good, Option.some.injEq, Except.ok.injEq]
      constructor
      · rintro rfl
        exact ⟨_, _, ⟨_, _, rfl, rfl, rfl, rfl⟩, rfl⟩
      · rintro ⟨j, p, ⟨_, _, rfl, rfl, rfl, rfl⟩, rfl⟩
        rfl

end Rows

theorem intentRows_eq_ok {d : Directory} {i : AppIntent} {items : List Item} :
    intentRows d i = .ok items ↔ ∃ j p, LoneOf d i j p ∧ items = [.intent j, .link p] := by
  unfold intentRows LoneOf
  split
  · rename_i missing
    simp [missing]
  · rename_i merchant found
    split
    · rename_i bad
      rw [bad]
      simp
    · rename_i amountAtomic good
      simp only [found, good, Option.some.injEq, Except.ok.injEq]
      constructor
      · rintro rfl
        exact ⟨_, _, ⟨_, _, rfl, rfl, rfl, rfl⟩, rfl⟩
      · rintro ⟨j, p, ⟨_, _, rfl, rfl, rfl, rfl⟩, rfl⟩
        rfl

theorem oneRow_eq_ok {known : Prop} [Decidable known] {x : Item} {e : MigrateError}
    {items : List Item} : oneRow known x e = .ok items ↔ known ∧ items = [x] := by
  unfold oneRow
  split
  · rename_i h
    rw [Except.ok.injEq]
    exact ⟨fun same => ⟨h, same.symm⟩, fun both => both.2.symm⟩
  · rename_i h
    simp [h]

theorem produced_oneRow {α : Type} {known : α → Prop} [∀ x, Decidable (known x)] {item : α → Item}
    {error : α → MigrateError} {xs : List α} {y : Item} :
    Produced (fun x => oneRow (known x) (item x) (error x)) xs y ↔
      ∃ x ∈ xs, known x ∧ y = item x := by
  unfold Produced
  simp only [oneRow_eq_ok]
  constructor
  · rintro ⟨x, hx, items, ⟨h, rfl⟩, mem⟩
    exact ⟨x, hx, h, List.mem_singleton.1 mem⟩
  · rintro ⟨x, hx, h, rfl⟩
    exact ⟨x, hx, [item x], ⟨h, rfl⟩, List.mem_singleton_self _⟩

theorem produced_merchantRows {ms : List Merchant} {y : Item} :
    Produced merchantRows ms y ↔ ∃ m ∈ ms, y = .merchant m := by
  simp [Produced, merchantRows]

theorem produced_linkRows {d : Directory} {y : Item} :
    Produced (linkRows app d) (legacyLinks app) y ↔
      ∃ l ∈ app.links, ∃ j p, PairOf app d l j p ∧ (y = .intent j ∨ y = .link p) := by
  simp only [Produced, linkRows_eq_ok, legacyLinks, mem_orderById, Table.mem_rows]
  constructor
  · rintro ⟨l, hl, _, ⟨j, p, pair, rfl⟩, mem⟩
    exact ⟨l, hl, j, p, pair, by simpa using mem⟩
  · rintro ⟨l, hl, j, p, pair, mem⟩
    exact ⟨l, hl, _, ⟨j, p, pair, rfl⟩, by simpa using mem⟩

theorem produced_intentRows {d : Directory} {y : Item} :
    Produced (intentRows d) ((legacyIntents app).filter (withoutLink app)) y ↔
      ∃ i ∈ app.intents, withoutLink app i = true ∧
        ∃ j p, LoneOf d i j p ∧ (y = .intent j ∨ y = .link p) := by
  simp only [Produced, intentRows_eq_ok, legacyIntents, List.mem_filter, mem_orderById,
    Table.mem_rows]
  constructor
  · rintro ⟨i, ⟨hi, without⟩, _, ⟨j, p, lone, rfl⟩, mem⟩
    exact ⟨i, hi, without, j, p, lone, by simpa using mem⟩
  · rintro ⟨i, hi, without, j, p, lone, mem⟩
    exact ⟨i, ⟨hi, without⟩, _, ⟨j, p, lone, rfl⟩, by simpa using mem⟩

/-- A loop that goes through knows what each of its rows needs. -/
theorem known_of_made {α : Type} {known : α → Prop} [∀ x, Decidable (known x)] {item : α → Item}
    {error : α → MigrateError} {xs : List α}
    (made : ∀ x ∈ xs, ∃ items, oneRow (known x) (item x) (error x) = .ok items) {x : α}
    (hx : x ∈ xs) : known x := by
  obtain ⟨items, ok⟩ := made x hx
  exact (oneRow_eq_ok.1 ok).1

/-- It has made a row of each. -/
theorem produced_of_made {ρ : Type} [Row ρ] {known : ρ → Prop} [∀ x, Decidable (known x)]
    {item : ρ → Item} {error : ρ → MigrateError} {id : ρ → Text} {t : Table ρ}
    (made : ∀ x ∈ orderById id t.rows, ∃ items, oneRow (known x) (item x) (error x) = .ok items)
    {y : Item} :
    Produced (fun x => oneRow (known x) (item x) (error x)) (orderById id t.rows) y ↔
      ∃ x ∈ t, y = item x := by
  refine produced_oneRow.trans (exists_congr fun x => ?_)
  rw [mem_orderById]
  exact and_congr_right fun hx => and_iff_right (known_of_made made (mem_orderById.2 hx))

theorem exists_left {α β : Type} {P : α → β → Prop} {a : α} :
    (∃ a' b, P a' b ∧ a = a') ↔ ∃ b, P a b := by
  constructor
  · rintro ⟨_, b, h, rfl⟩
    exact ⟨b, h⟩
  · rintro ⟨b, h⟩
    exact ⟨a, b, h, rfl⟩

theorem exists_right {α β : Type} {P : α → β → Prop} {b : β} :
    (∃ a b', P a b' ∧ b = b') ↔ ∃ a, P a b := by
  constructor
  · rintro ⟨a, _, h, rfl⟩
    exact ⟨a, h⟩
  · rintro ⟨a, h⟩
    exact ⟨a, b, h, rfl⟩

/-! ### The tables of the target -/

/-- The target after a run that committed. -/
structure Filled (tools : Tools) (app : LegacyApp) (d : Directory) (db : PaymentsDb) : Prop where
  pair : ∀ l ∈ app.links, ∃ j p, PairOf app d l j p
  lone : ∀ i ∈ app.intents, withoutLink app i = true → ∃ j p, LoneOf d i j p
  apiKey_known : ∀ row ∈ app.apiKeys, d.merchants.has row.merchantId = true
  endpoint_known : ∀ row ∈ app.endpoints, d.merchants.has row.merchantId = true
  event_known : ∀ row ∈ app.events, d.merchants.has row.merchantId = true
  merchants : ∀ m, m ∈ db.merchants ↔ m ∈ d.merchants.values
  intents : ∀ j, j ∈ db.intents ↔ (∃ l ∈ app.links, ∃ p, PairOf app d l j p) ∨
    ∃ i ∈ app.intents, withoutLink app i = true ∧ ∃ p, LoneOf d i j p
  links : ∀ p, p ∈ db.links ↔ (∃ l ∈ app.links, ∃ j, PairOf app d l j p) ∨
    ∃ i ∈ app.intents, withoutLink app i = true ∧ ∃ j, LoneOf d i j p
  apiKeys : ∀ k, k ∈ db.apiKeys ↔ ∃ row ∈ app.apiKeys, k = apiKeyOf row
  endpoints : ∀ e, e ∈ db.endpoints ↔ ∃ row ∈ app.endpoints, e = endpointOf tools row
  events : ∀ e, e ∈ db.events ↔ ∃ row ∈ app.events, e = eventOf row
  deliveries : ∀ r, r ∈ db.deliveries ↔ ∃ row ∈ app.deliveries, r = deliveryOf tools row
  outbox : db.outbox = .empty

theorem not_holds_migrated (y : Item) : ¬ PaymentsDb.migrated.Holds y := by
  cases y <;> exact Table.not_mem_empty _

theorem filled_of_importAll {d : Directory} {db : PaymentsDb}
    (h : importAll tools app d .migrated = .ok db) : Filled tools app d db := by
  obtain ⟨db₁, h₁, h⟩ := bind_eq_ok.1 h
  obtain ⟨db₂, h₂, h⟩ := bind_eq_ok.1 h
  obtain ⟨db₃, h₃, h⟩ := bind_eq_ok.1 h
  obtain ⟨db₄, h₄, h⟩ := bind_eq_ok.1 h
  obtain ⟨db₅, h₅, h⟩ := bind_eq_ok.1 h
  obtain ⟨db₆, h₆, h₇⟩ := bind_eq_ok.1 h
  obtain ⟨w₁, -⟩ := wrote_importRows h₁
  obtain ⟨w₂, made₂⟩ := wrote_importRows h₂
  obtain ⟨w₃, made₃⟩ := wrote_importRows h₃
  obtain ⟨w₄, made₄⟩ := wrote_importRows h₄
  obtain ⟨w₅, made₅⟩ := wrote_importRows h₅
  obtain ⟨w₆, made₆⟩ := wrote_importRows h₆
  obtain ⟨w₇, made₇⟩ := wrote_importRows h₇
  have all := (((((w₁.trans w₂).trans w₃).trans w₄).trans w₅).trans w₆).trans w₇
  have holds : ∀ y, db.Holds y ↔
      ((((((∃ m ∈ d.merchants.values, y = .merchant m) ∨
        ∃ l ∈ app.links, ∃ j p, PairOf app d l j p ∧ (y = .intent j ∨ y = .link p)) ∨
        ∃ i ∈ app.intents, withoutLink app i = true ∧
          ∃ j p, LoneOf d i j p ∧ (y = .intent j ∨ y = .link p)) ∨
        ∃ row ∈ app.apiKeys, y = .apiKey (apiKeyOf row)) ∨
        ∃ row ∈ app.endpoints, y = .endpoint (endpointOf tools row)) ∨
        ∃ row ∈ app.events, y = .event (eventOf row)) ∨
        ∃ row ∈ app.deliveries, y = .delivery (deliveryOf tools row) := by
    intro y
    rw [all.holds y, or_iff_right (not_holds_migrated y), produced_merchantRows,
      produced_linkRows, produced_intentRows]
    exact or_congr (or_congr (or_congr (or_congr_right (produced_of_made made₄))
      (produced_of_made made₅)) (produced_of_made made₆)) (produced_of_made made₇)
  constructor
  case pair =>
    intro l hl
    obtain ⟨items, ok⟩ := made₂ l (mem_orderById.2 hl)
    obtain ⟨j, p, pair, -⟩ := (linkRows_eq_ok app).1 ok
    exact ⟨j, p, pair⟩
  case lone =>
    intro i hi without
    obtain ⟨items, ok⟩ := made₃ i (List.mem_filter.2 ⟨mem_orderById.2 hi, without⟩)
    obtain ⟨j, p, lone, -⟩ := intentRows_eq_ok.1 ok
    exact ⟨j, p, lone⟩
  case apiKey_known => exact fun row hrow => known_of_made made₄ (mem_orderById.2 hrow)
  case endpoint_known => exact fun row hrow => known_of_made made₅ (mem_orderById.2 hrow)
  case event_known => exact fun row hrow => known_of_made made₆ (mem_orderById.2 hrow)
  case merchants =>
    intro m
    refine (holds (.merchant m)).trans ?_
    simp
  case intents =>
    intro j
    refine (holds (.intent j)).trans ?_
    simp only [reduceCtorEq, Item.intent.injEq, and_false, exists_false, false_or, or_false,
      exists_left]
  case links =>
    intro p
    refine (holds (.link p)).trans ?_
    simp only [reduceCtorEq, Item.link.injEq, and_false, exists_false, false_or, or_false,
      exists_right]
  case apiKeys =>
    intro k
    refine (holds (.apiKey k)).trans ?_
    simp
  case endpoints =>
    intro e
    refine (holds (.endpoint e)).trans ?_
    simp
  case events =>
    intro e
    refine (holds (.event e)).trans ?_
    simp
  case deliveries =>
    intro r
    refine (holds (.delivery r)).trans ?_
    simp
  case outbox => exact all.outbox

/-! ### Merchants and their owners -/

section Owners

variable (app)

/-- The user has no merchant in the App. -/
def WithoutMerchant (uid : Text) : Prop := ∀ m ∈ app.merchants, m.ownerUid ≠ uid

/-- What the first loop has taken over. -/
structure Taken (done : List AppMerchant) (d : Directory) : Prop where
  named : ∀ k x, d.merchants.get k = some x → x.id = k
  owners : ∀ u k, d.ownerMerchant.get u = some k ↔ ∃ m ∈ done, m.ownerUid = u ∧ m.id = k
  kept : ∀ m ∈ done, ∃ x, d.merchants.get m.id = some x ∧ x.ownerUid = m.ownerUid

variable (tools)

/-- What both loops have, once the second has gone through the links in `done`. -/
structure Housed (done : List AppLink) (d : Directory) : Prop where
  named : ∀ k x, d.merchants.get k = some x → x.id = k
  owners : ∀ u k, d.ownerMerchant.get u = some k ↔
    (∃ m ∈ app.merchants, m.ownerUid = u ∧ m.id = k) ∨
      WithoutMerchant app u ∧ (∃ l ∈ done, l.ownerUid = u) ∧ k = merchantId tools u
  legacy : ∀ m ∈ app.merchants,
    (∀ l ∈ done, WithoutMerchant app l.ownerUid → merchantId tools l.ownerUid ≠ m.id) →
      ∃ x, d.merchants.get m.id = some x ∧ x.ownerUid = m.ownerUid
  made : ∀ l ∈ done, WithoutMerchant app l.ownerUid →
    ∃ x, d.merchants.get (merchantId tools l.ownerUid) = some x ∧
      ∃ l' ∈ done, WithoutMerchant app l'.ownerUid ∧
        merchantId tools l'.ownerUid = merchantId tools l.ownerUid ∧ x.ownerUid = l'.ownerUid

end Owners

theorem get_add {d : Directory} {merchant : Merchant} {k : Text} :
    (d.add merchant).merchants.get k =
      if k = merchant.id then some merchant else d.merchants.get k :=
  OrderedMap.get_set _ _ _ _

theorem ownerMerchant_add {d : Directory} {merchant : Merchant} {u : Text} :
    (d.add merchant).ownerMerchant.get u =
      if u = merchant.ownerUid then some merchant.id else d.ownerMerchant.get u :=
  OrderedMap.get_set _ _ _ _

theorem named_add {d : Directory} {merchant : Merchant}
    (named : ∀ k x, d.merchants.get k = some x → x.id = k) (k : Text) (x : Merchant)
    (found : (d.add merchant).merchants.get k = some x) : x.id = k := by
  rw [get_add] at found
  split at found
  · rename_i same
    rw [← Option.some.inj found, same]
  · exact named k x found

theorem legacyMerchant_eq_ok {row : AppMerchant} {merchant : Merchant}
    (h : legacyMerchant app row = .ok merchant) :
    merchant.id = row.id ∧ merchant.ownerUid = row.ownerUid := by
  unfold legacyMerchant at h
  dsimp only at h
  split at h
  · cases h
    exact ⟨rfl, rfl⟩
  · cases h

theorem linkMerchant_eq_ok {link : AppLink} {merchant : Merchant}
    (h : linkMerchant tools app link = .ok merchant) :
    merchant.id = merchantId tools link.ownerUid ∧ merchant.ownerUid = link.ownerUid := by
  unfold linkMerchant at h
  dsimp only at h
  split at h
  · cases h
    exact ⟨rfl, rfl⟩
  · cases h

theorem map_eq_ok {ε α β : Type} {f : α → β} {x : Except ε α} {b : β} (h : x.map f = .ok b) :
    ∃ a, x = .ok a ∧ f a = b := by
  cases x with
  | error e => cases h
  | ok a => exact ⟨a, rfl, Except.ok.inj h⟩

theorem taken_addLegacyMerchant {done : List AppMerchant} {row : AppMerchant} {d d' : Directory}
    (known : ∀ m ∈ done ++ [row], m ∈ app.merchants) (before : Taken done d)
    (h : addLegacyMerchant app d row = .ok d') : Taken (done ++ [row]) d' := by
  obtain ⟨merchant, ok, rfl⟩ := map_eq_ok h
  obtain ⟨id, ownerUid⟩ := legacyMerchant_eq_ok ok
  have one : ∀ m ∈ done, m.ownerUid = row.ownerUid ∨ m.id = row.id → m = row := by
    intro m hm same
    refine Table.eq_of_clash (known m (List.mem_append_left _ hm))
      (known row (List.mem_append_right _ (List.mem_singleton_self _))) ?_
    show (m.id == row.id || m.ownerUid == row.ownerUid) = true
    rcases same with same | same <;> simp [same]
  constructor
  · exact named_add before.named
  · intro u k
    rw [ownerMerchant_add, ownerUid, id]
    simp only [List.mem_append, List.mem_singleton, or_and_right, exists_or, exists_eq_left]
    split
    · rename_i same
      rw [Option.some.injEq]
      constructor
      · exact fun equal => .inr ⟨same.symm, equal⟩
      · rintro (⟨m, hm, owner, rfl⟩ | ⟨-, equal⟩)
        · rw [one m hm (.inl (owner.trans same))]
        · exact equal
    · rename_i other
      rw [before.owners]
      exact ⟨.inl, fun mem => mem.resolve_right fun new => other new.1.symm⟩
  · intro m hm
    rw [get_add, id]
    by_cases same : m.id = row.id
    · rw [if_pos same]
      rcases List.mem_append.1 hm with old | new
      · rw [one m old (.inr same)]
        exact ⟨merchant, rfl, ownerUid⟩
      · rw [List.mem_singleton.1 new]
        exact ⟨merchant, rfl, ownerUid⟩
    · rw [if_neg same]
      rcases List.mem_append.1 hm with old | new
      · exact before.kept m old
      · exact absurd (congrArg _ (List.mem_singleton.1 new)) same

theorem housed_addLinkOwner {done : List AppLink} {link : AppLink} {d d' : Directory}
    (before : Housed tools app done d) (h : addLinkOwner tools app d link = .ok d') :
    Housed tools app (done ++ [link]) d' := by
  unfold addLinkOwner at h
  split at h
  · -- the owner has a merchant already
    rename_i has
    cases h
    obtain ⟨k, found⟩ := OrderedMap.has_iff.1 has
    have seen : WithoutMerchant app link.ownerUid → ∃ l ∈ done, l.ownerUid = link.ownerUid := by
      intro without
      rcases (before.owners _ _).1 found with ⟨m, hm, owner, -⟩ | ⟨-, seen, -⟩
      · exact absurd owner (without m hm)
      · exact seen
    constructor
    · exact before.named
    · intro u k
      rw [before.owners]
      refine or_congr_right (and_congr_right fun without => and_congr_left fun _ => ?_)
      simp only [List.mem_append, List.mem_singleton, or_and_right, exists_or, exists_eq_left]
      refine ⟨.inl, ?_⟩
      rintro (old | rfl)
      · exact old
      · exact seen without
    · exact fun m hm apart =>
        before.legacy m hm fun l hl => apart l (List.mem_append_left _ hl)
    · intro l hl without
      have : ∃ l₀ ∈ done, l₀.ownerUid = l.ownerUid := by
        rcases List.mem_append.1 hl with old | new
        · exact ⟨l, old, rfl⟩
        · rw [List.mem_singleton.1 new] at without ⊢
          exact seen without
      obtain ⟨l₀, hl₀, owner⟩ := this
      obtain ⟨x, found, l', hl', rest⟩ := before.made l₀ hl₀ (owner ▸ without)
      rw [owner] at found rest
      exact ⟨x, found, l', List.mem_append_left _ hl', rest⟩
  · -- a merchant is made up for the owner
    rename_i hasNot
    obtain ⟨merchant, ok, rfl⟩ := map_eq_ok h
    obtain ⟨id, ownerUid⟩ := linkMerchant_eq_ok ok
    have none : ∀ k, d.ownerMerchant.get link.ownerUid ≠ some k :=
      fun k found => hasNot (OrderedMap.has_iff.2 ⟨k, found⟩)
    have without : WithoutMerchant app link.ownerUid := fun m hm owner =>
      none m.id ((before.owners _ _).2 (.inl ⟨m, hm, owner, rfl⟩))
    constructor
    · exact named_add before.named
    · intro u k
      rw [ownerMerchant_add, ownerUid, id]
      split
      · rename_i same
        rw [same, Option.some.injEq]
        constructor
        · exact fun equal => .inr ⟨without, ⟨link, by simp, rfl⟩, equal.symm⟩
        · rintro (⟨m, hm, owner, -⟩ | ⟨-, -, equal⟩)
          · exact absurd owner (without m hm)
          · exact equal.symm
      · rename_i other
        rw [before.owners]
        refine or_congr_right (and_congr_right fun _ => and_congr_left fun _ => ?_)
        simp only [List.mem_append, List.mem_singleton, or_and_right, exists_or, exists_eq_left]
        exact ⟨.inl, fun mem => mem.resolve_right fun new => other new.symm⟩
    · intro m hm apart
      rw [get_add, id, if_neg (apart link (by simp) without).symm]
      exact before.legacy m hm fun l hl => apart l (List.mem_append_left _ hl)
    · intro l hl unhoused
      rw [get_add, id]
      by_cases same : merchantId tools l.ownerUid = merchantId tools link.ownerUid
      · rw [if_pos same]
        exact ⟨merchant, rfl, link, by simp, without, same.symm, ownerUid⟩
      · rw [if_neg same]
        rcases List.mem_append.1 hl with old | new
        · obtain ⟨x, found, l', hl', rest⟩ := before.made l old unhoused
          exact ⟨x, found, l', List.mem_append_left _ hl', rest⟩
        · exact absurd (by rw [List.mem_singleton.1 new]) same

/-- What both loops over the merchants leave. -/
theorem housed_directory {d : Directory} (h : directory tools app = .ok d) :
    Housed tools app (legacyLinks app) d := by
  obtain ⟨d₁, first, second⟩ := bind_eq_ok.1 h
  have taken : Taken (orderById (·.id) app.merchants.rows) d₁ := by
    refine foldlM_ok_invariant
      (I := fun done d => (∀ m ∈ done, m ∈ app.merchants) → Taken done d) ?_ ?_ first
      fun m hm => mem_orderById.1 hm
    · intro done row d d' before step known
      exact taken_addLegacyMerchant known
        (before fun m hm => known m (List.mem_append_left _ hm)) step
    · intro _
      exact ⟨fun k x found => by simp [Directory.empty] at found,
        fun u k => by simp [Directory.empty], fun m hm => absurd hm List.not_mem_nil⟩
  refine foldlM_ok_invariant (I := Housed tools app) ?_ ?_ second
  · intro done link d d' before step
    exact housed_addLinkOwner before step
  · constructor
    · exact taken.named
    · intro u k
      rw [taken.owners]
      simp [Table.mem_rows]
    · intro m hm _
      exact taken.kept m (mem_orderById.2 hm)
    · exact fun l hl => absurd hl List.not_mem_nil

/-! ### The intent of a link -/

theorem of_get_intentByLink {k : Text} {i : AppIntent} (h : (intentByLink app).get k = some i) :
    i ∈ app.intents ∧ i.linkId = some k ∧ k ≠ [] := by
  have entry := OrderedMap.mem_of_get_ofList h
  obtain ⟨row, mem, equal⟩ := List.mem_filterMap.1 entry
  obtain ⟨k', named, same⟩ := Option.map_eq_some_iff.1 equal
  obtain ⟨linkId, nonempty⟩ := Option.filter_eq_some_iff.1 named
  cases same
  exact ⟨mem_orderById.1 mem, linkId, by simpa using nonempty⟩

/-- The intent that a link backs is found under it, unless the id of the link is empty. -/
theorem get_intentByLink (paired : app.Paired) {l : AppLink} {i : AppIntent}
    (backs : app.Backs l i) (named : l.id ≠ []) : (intentByLink app).get l.id = some i := by
  have entry : (l.id, i) ∈ (legacyIntents app).filterMap fun row =>
      (row.linkId.filter (· != [])).map fun linkId => (linkId, row) := by
    refine List.mem_filterMap.2 ⟨i, mem_orderById.2 backs.2.1, ?_⟩
    rw [backs.2.2]
    simp [Option.filter, named]
  obtain ⟨i', found⟩ := OrderedMap.exists_get_ofList entry
  have taken : i' ∈ app.intents ∧ i'.linkId = some l.id ∧ l.id ≠ [] := of_get_intentByLink found
  obtain ⟨hi', linkId, -⟩ := taken
  rw [paired.one l i i' backs ⟨backs.1, hi', linkId⟩]
  exact found

/-- An intent that the second loop leaves out has its link among the links. -/
theorem backs_of_withoutLink {i : AppIntent} (hi : i ∈ app.intents)
    (h : ¬ withoutLink app i = true) : ∃ l, app.Backs l i ∧ l.id ≠ [] := by
  unfold withoutLink at h
  split at h
  · simp at h
  · rename_i k linkId
    simp only [Bool.or_eq_true, beq_iff_eq, Bool.not_eq_true', not_or, Bool.not_eq_false] at h
    obtain ⟨l, hl, id⟩ := Table.any_eq_true.1 h.2
    have id : l.id = k := by simpa using id
    exact ⟨l, ⟨hl, hi, by rw [linkId, id]⟩, by rw [id]; exact h.1⟩

theorem not_backs_of_withoutLink {i : AppIntent} (h : withoutLink app i = true) {l : AppLink}
    (backs : app.Backs l i) : l.id = [] := by
  unfold withoutLink at h
  rw [backs.2.2] at h
  simp only [Bool.or_eq_true, beq_iff_eq, Bool.not_eq_true'] at h
  refine h.resolve_right fun none => ?_
  have := Table.any_eq_false.1 none l backs.1
  simp at this

/-! ### Rows of a filled target -/

namespace Filled

variable {d : Directory} {db : PaymentsDb}

/-- A legacy link has become two rows. -/
theorem linkRow (F : Filled tools app d db) {l : AppLink} (hl : l ∈ app.links) :
    ∃ merchant a, d.ofOwner l.ownerUid = some merchant ∧
      atomic (amountDecimal ((((intentByLink app).get l.id).map (·.amount)).or (some l.amount)))
        = some a ∧
      pairedIntent merchant l ((intentByLink app).get l.id) a ∈ db.intents ∧
      pairedLink merchant l ((intentByLink app).get l.id) ∈ db.links := by
  obtain ⟨j, p, pair⟩ := F.pair l hl
  have hj := (F.intents j).2 (.inl ⟨l, hl, p, pair⟩)
  have hp := (F.links p).2 (.inl ⟨l, hl, j, pair⟩)
  obtain ⟨merchant, a, owner, amount, rfl, rfl⟩ := pair
  exact ⟨merchant, a, owner, amount, hj, hp⟩

/-- An intent without link has, too. -/
theorem intentRow (F : Filled tools app d db) {i : AppIntent} (hi : i ∈ app.intents)
    (without : withoutLink app i = true) :
    ∃ merchant a, d.merchants.get i.merchantId = some merchant ∧ atomic i.amount = some a ∧
      loneIntent merchant i a ∈ db.intents ∧ checkoutLink merchant i ∈ db.links := by
  obtain ⟨j, p, lone⟩ := F.lone i hi without
  have hj := (F.intents j).2 (.inr ⟨i, hi, without, p, lone⟩)
  have hp := (F.links p).2 (.inr ⟨i, hi, without, j, lone⟩)
  obtain ⟨merchant, a, owner, amount, rfl, rfl⟩ := lone
  rw [atomic_amountDecimal] at amount
  exact ⟨merchant, a, owner, amount, hj, hp⟩

end Filled

end ParmeliaLinks.Split
