/-
ParmeliaLinks/Pay/BundledPayments.lean

The ledger rows of payments that one transaction carries.  `settlePayment` writes a row for
the payer, and if the recipient is another user a row and an event for the recipient, in one
batch.  A row that is there already is kept: rows are told apart by user, transaction,
direction and token, and events by transaction and user, but not by operation.

Settling twice therefore adds nothing, and neither does a second payment of the same bundle
with the key of the first.  `bundle_complete_iff` says when each payment of a bundle gets its
own rows and its own event.
-/
import Mathlib.Data.List.Nodup
import Mathlib.Data.List.Perm.Basic
import ParmeliaLinks.Lib.HexText
import ParmeliaLinks.Lib.Table

namespace ParmeliaLinks.Pay.Bundled

open HexText (lower)

/-! ### The tables -/

inductive Direction | out | incoming
  deriving DecidableEq

inductive LedgerKind | payment | link | swap | fund | external | earn
  deriving DecidableEq

structure ChainEvidence where
  chainId : Nat
  blockNumber : Nat
  blockHash : Text
  transactionIndex : Option Nat
  consistencyLevel : Text
  blockTimestamp : Option Text
  deriving DecidableEq

structure LedgerEntry where
  uid : Text
  direction : Direction
  kind : LedgerKind
  txHash : Text
  logIndex : Option Nat
  token : Text
  amount : Text
  counterparty : Option Text
  counterpartyUid : Option Text
  reference : Option Text
  linkId : Option Text
  createdAt : Text
  evidence : Option ChainEvidence
  deriving DecidableEq

/-- A row of `ledger`; its random id is left out. -/
structure LedgerRow extends LedgerEntry where
  canonical : Bool
  deriving DecidableEq

/-- `IFNULL(log_index, -1)`. -/
def LedgerEntry.dedupIndex (e : LedgerEntry) : Int :=
  match e.logIndex with
  | none => -1
  | some i => i

/-- `idx_ledger_dedup`. -/
def LedgerEntry.collides (e e' : LedgerEntry) : Bool :=
  decide (e.uid = e'.uid) && decide (e.txHash = e'.txHash) &&
    decide (e.direction = e'.direction) && decide (e.token = e'.token) &&
    decide (e.dedupIndex = e'.dedupIndex)

theorem collides_iff {e e' : LedgerEntry} : e.collides e' = true ↔
    e.uid = e'.uid ∧ e.txHash = e'.txHash ∧ e.direction = e'.direction ∧ e.token = e'.token ∧
      e.dedupIndex = e'.dedupIndex := by
  simp only [LedgerEntry.collides, Bool.and_eq_true, decide_eq_true_eq, and_assoc]

instance : Row LedgerRow where
  clash r r' := r.collides r'.toLedgerEntry
  clash_comm r r' := by
    simp only [LedgerEntry.collides, eq_comm (a := r.uid), eq_comm (a := r.txHash),
      eq_comm (a := r.direction), eq_comm (a := r.token), eq_comm (a := r.dedupIndex)]

structure UserEvent where
  dedupeKey : Text
  uid : Text
  eventType : Text
  title : Text
  body : Text
  link : Text
  priority : Nat
  deriving DecidableEq

instance : Row UserEvent where
  clash r r' := decide (r.dedupeKey = r'.dedupeKey)
  clash_comm r r' := by simp only [eq_comm (a := r.dedupeKey)]

structure Db where
  ledger : Table LedgerRow
  userEvents : Table UserEvent

/-! ### Writing -/

def newRow (e : LedgerEntry) : LedgerRow :=
  { e with
    counterparty := e.counterparty.map lower
    evidence := e.evidence.map fun c => { c with blockHash := lower c.blockHash }
    canonical := true }

/-- `ON CONFLICT DO UPDATE`, which touches a row that a recovery has taken back. -/
def revived (e : LedgerEntry) (r : LedgerRow) : LedgerRow :=
  if r.canonical = false ∧ e.evidence.isSome then
    { newRow e with
      uid := r.uid, direction := r.direction, kind := r.kind, txHash := r.txHash
      logIndex := r.logIndex, token := r.token }
  else r

theorem keepsKeys_revived (e : LedgerEntry) : Table.KeepsKeys (revived e) where
  clash_left r r' := by
    unfold revived
    split <;> rfl

def writeEntry (ledger : Table LedgerRow) (e : LedgerEntry) : Table LedgerRow :=
  ledger.upsert (newRow e) (revived e) (keepsKeys_revived e)

/-- The batch. -/
def writeLedgerEntries (db : Db) (entries : List LedgerEntry) (userEvents : List UserEvent) :
    Db where
  ledger := entries.foldl writeEntry db.ledger
  userEvents := userEvents.foldl (·.insertOrIgnore ·) db.userEvents

/-! ### Settling a payment -/

def nonPaymentCurrencies : List Text :=
  ["PASSKEY_ADD".toList, "PASSKEY_REMOVE".toList, "PASSKEY_SYNC".toList, "SWAP".toList,
    "CROSSCHAIN".toList, "EARN_DEPOSIT".toList, "EARN_WITHDRAW".toList]

/-- A pending payment that is a payment: no account action, swap or saving. -/
structure Payment where
  userOpHash : Text
  uid : Text
  senderAddress : Text
  wallet : Text
  currency : Text
  amount : Text
  linkId : Option Text
  chainId : Nat
  chainKey : Text
  isPayment : currency ∉ nonPaymentCurrencies
  deriving DecidableEq

/-- What is looked up while a payment is settled. -/
structure Directory where
  getActiveChainAccountOwner : Nat → Text → Option Text
  getUserByWallet : Text → Option Text
  linkReference : Text → Option Text

/-- How a settlement is called: the evidence of the receipt, and the clock. -/
structure SettleOpts where
  chainEvidence : Option ChainEvidence
  now : Text
  deriving DecidableEq

def defaultChainKey : Text := "arbitrum-sepolia".toList

def clientSidePaymentIds : List Text := ["direct".toList, "username".toList, "manual".toList]

/-- `value || null`. -/
def orNull (value : Text) : Option Text := if value = [] then none else some value

/-- `value || fallback`. -/
def orElse (value fallback : Text) : Text := if value = [] then fallback else value

namespace Payment

variable (d : Directory) (p : Payment)

/-- The link, if it is a stored one. -/
def storedLinkId : Option Text :=
  p.linkId.filter fun linkId => linkId != [] && !clientSidePaymentIds.contains linkId

def linkReference : Option Text := (p.storedLinkId.bind d.linkReference).bind orNull

def recipient : Option Text :=
  (d.getActiveChainAccountOwner p.chainId p.wallet).or
    (if p.chainKey = defaultChainKey then d.getUserByWallet p.wallet else none)

/-- The recipient who is notified. -/
def otherRecipient : Option Text :=
  (p.recipient d).filter fun recipient => decide (recipient ≠ p.uid)

def token : Text := orElse p.currency "USDC".toList

variable (txHash : Text) (opts : SettleOpts)

def createdAt : Text := (opts.chainEvidence.bind (·.blockTimestamp)).getD opts.now

def outgoing : LedgerEntry where
  uid := p.uid
  direction := .out
  kind := .payment
  txHash
  logIndex := none
  token := p.token
  amount := orElse p.amount "0".toList
  counterparty := orNull p.wallet
  counterpartyUid := p.recipient d
  reference := p.linkReference d
  linkId := p.storedLinkId
  createdAt := createdAt opts
  evidence := opts.chainEvidence

def incoming (recipient : Text) : LedgerEntry where
  uid := recipient
  direction := .incoming
  kind := if p.storedLinkId.isSome then .link else .payment
  txHash
  logIndex := none
  token := p.token
  amount := orElse p.amount "0".toList
  counterparty := orNull p.senderAddress
  counterpartyUid := some p.uid
  reference := p.linkReference d
  linkId := p.storedLinkId
  createdAt := createdAt opts
  evidence := opts.chainEvidence

def entries : List LedgerEntry :=
  p.outgoing d txHash opts :: ((p.otherRecipient d).map (p.incoming d txHash opts)).toList

end Payment

/-- `payment-received:<tx>:`. -/
def receivedPrefix (txHash : Text) : Text :=
  "payment-received:".toList ++ (lower txHash ++ ":".toList)

def received (txHash recipient : Text) : UserEvent where
  dedupeKey := receivedPrefix txHash ++ recipient
  uid := recipient
  eventType := "activity.payment_received".toList
  title := "Te pagaron".toList
  body := "Recibiste un pago en GatoPago.".toList
  link := "/".toList
  priority := 1

/-- The part of `settlePayment` that writes the ledger and the events. -/
def settlePayment (d : Directory) (txHash : Text) (db : Db) (call : Payment × SettleOpts) : Db :=
  writeLedgerEntries db (call.1.entries d txHash call.2)
    ((call.1.otherRecipient d).map (received txHash)).toList

/-- Settlements of the payments of one transaction, one after the other. -/
def settleAll (d : Directory) (txHash : Text) (db : Db) (calls : List (Payment × SettleOpts)) :
    Db :=
  calls.foldl (settlePayment d txHash) db

/-! ### What a bundle should leave -/

/-- What a row says, whenever it was written. -/
structure Movement where
  uid : Text
  direction : Direction
  kind : LedgerKind
  token : Text
  amount : Text
  counterparty : Option Text
  counterpartyUid : Option Text
  reference : Option Text
  linkId : Option Text
  deriving DecidableEq

def LedgerRow.movement (r : LedgerRow) : Movement where
  uid := r.uid
  direction := r.direction
  kind := r.kind
  token := r.token
  amount := r.amount
  counterparty := r.counterparty
  counterpartyUid := r.counterpartyUid
  reference := r.reference
  linkId := r.linkId

def Movement.key (m : Movement) : Text × Direction × Text := (m.uid, m.direction, m.token)

/-- The row is of the transaction, and not one that the indexer has made of a log. -/
def Settled (txHash : Text) (e : LedgerEntry) : Prop := e.txHash = txHash ∧ e.logIndex = none

instance (txHash : Text) (e : LedgerEntry) : Decidable (Settled txHash e) :=
  inferInstanceAs (Decidable (e.txHash = txHash ∧ e.logIndex = none))

def Db.settled (db : Db) (txHash : Text) : List LedgerRow :=
  db.ledger.filter fun r => decide (Settled txHash r.toLedgerEntry)

def Db.notified (db : Db) (txHash : Text) : List UserEvent :=
  db.userEvents.filter fun r => (receivedPrefix txHash).isPrefixOf r.dedupeKey

def Payment.outgoingMovement (d : Directory) (p : Payment) : Movement :=
  (newRow (p.outgoing d [] ⟨none, []⟩)).movement

def Payment.incomingMovement (d : Directory) (p : Payment) (recipient : Text) : Movement :=
  (newRow (p.incoming d [] ⟨none, []⟩ recipient)).movement

/-- What a payment is to be seen by. -/
def Payment.movements (d : Directory) (p : Payment) : List Movement :=
  p.outgoingMovement d :: ((p.otherRecipient d).map (p.incomingMovement d)).toList

/-- Each payment has its outgoing row, and with another recipient an incoming row and an event,
of its own; there is nothing else. -/
structure Complete (d : Directory) (txHash : Text) (bundle : List Payment) (db : Db) : Prop where
  rows : ((db.settled txHash).map (·.movement)).Perm (bundle.flatMap (·.movements d))
  events : ((db.notified txHash).map (·.uid)).Perm (bundle.filterMap (·.otherRecipient d))

/-- No two payments of one payer are in the same token, and no two are to the same user. -/
structure Apart (d : Directory) (bundle : List Payment) : Prop where
  payers : (bundle.map fun p => (p.uid, p.token)).Nodup
  recipients : (bundle.filterMap (·.otherRecipient d)).Nodup

/-- Nothing of the transaction has been settled. -/
structure Fresh (txHash : Text) (db : Db) : Prop where
  ledger : ∀ r ∈ db.ledger, ¬ Settled txHash r.toLedgerEntry
  userEvents : ∀ r ∈ db.userEvents, (receivedPrefix txHash).isPrefixOf r.dedupeKey = false

variable {d : Directory} {txHash : Text}

theorem movement_entries (txHash : Text) (p : Payment) (opts : SettleOpts) :
    (p.entries d txHash opts).map (fun e => (newRow e).movement) = p.movements d := by
  unfold Payment.entries Payment.movements
  cases p.otherRecipient d <;> rfl

theorem settled_entries {p : Payment} {opts : SettleOpts} {e : LedgerEntry}
    (he : e ∈ p.entries d txHash opts) : Settled txHash e := by
  unfold Payment.entries at he
  rcases List.mem_cons.1 he with rfl | he
  · exact ⟨rfl, rfl⟩
  · obtain ⟨recipient, -, rfl⟩ := Option.map_eq_some_iff.1 (Option.mem_toList.1 he)
    exact ⟨rfl, rfl⟩

/-- Among the rows of a transaction, user, direction and token make the key. -/
theorem clash_iff_key {r r' : LedgerRow} (hr : Settled txHash r.toLedgerEntry)
    (hr' : Settled txHash r'.toLedgerEntry) :
    Row.clash r r' = true ↔ r.movement.key = r'.movement.key := by
  have index : r.dedupIndex = r'.dedupIndex := by
    rw [LedgerEntry.dedupIndex, LedgerEntry.dedupIndex, hr.2, hr'.2]
  refine collides_iff.trans ?_
  simp only [Movement.key, LedgerRow.movement, Prod.mk.injEq, hr.1, hr'.1, index, true_and,
    and_true]

/-- What collides with a settled row is one. -/
theorem settled_of_clash {r r' : LedgerRow} (hr' : Settled txHash r'.toLedgerEntry)
    (clash : Row.clash r r' = true) : Settled txHash r.toLedgerEntry := by
  obtain ⟨-, tx, -, -, index⟩ := collides_iff.1 clash
  refine ⟨tx.trans hr'.1, ?_⟩
  simp only [LedgerEntry.dedupIndex, hr'.2] at index
  split at index
  · assumption
  · omega

/-! ### The ledger -/

/-- The settled rows are canonical and say what is allowed, and what is done has a row. -/
structure LedgerKept (txHash : Text) (allowed done : List Movement) (ledger : Table LedgerRow) :
    Prop where
  rows : ∀ r ∈ ledger, Settled txHash r.toLedgerEntry → r.canonical = true ∧ r.movement ∈ allowed
  present : ∀ m ∈ done, ∃ r ∈ ledger, Settled txHash r.toLedgerEntry ∧ r.movement.key = m.key

variable {allowed done : List Movement} {ledger : Table LedgerRow}

theorem LedgerKept.mono {done' : List Movement} (h : LedgerKept txHash allowed done ledger)
    (fewer : ∀ m ∈ done', m ∈ done) : LedgerKept txHash allowed done' ledger where
  rows := h.rows
  present m hm := h.present m (fewer m hm)

/-- A canonical row stays as it is. -/
theorem LedgerKept.write (h : LedgerKept txHash allowed done ledger) {e : LedgerEntry}
    (he : Settled txHash e) (mem : (newRow e).movement ∈ allowed) :
    LedgerKept txHash allowed ((newRow e).movement :: done) (writeEntry ledger e) := by
  have new : Settled txHash (newRow e).toLedgerEntry := he
  have same {r : LedgerRow} (hr : r ∈ ledger) :
      (if Row.clash r (newRow e) then revived e r else r) = r := by
    split
    · rename_i clash
      have canonical := (h.rows r hr (settled_of_clash new clash)).1
      rw [revived, if_neg]
      rintro ⟨taken, -⟩
      rw [canonical] at taken
      cases taken
    · rfl
  have kept {r : LedgerRow} (hr : r ∈ ledger) : r ∈ writeEntry ledger e := by
    have mem := @Table.mem_upsert_of_mem _ _ ledger (newRow e) _ (keepsKeys_revived e) r hr
    rwa [same hr] at mem
  constructor
  · intro r hr settled
    rcases Table.mem_upsert hr with ⟨rfl, -⟩ | ⟨r₀, hr₀, updated⟩
    · exact ⟨rfl, mem⟩
    · rw [same hr₀] at updated
      subst updated
      exact h.rows r₀ hr₀ settled
  · intro m hm
    rcases List.mem_cons.1 hm with rfl | hm
    · rcases @Table.mem_upsert_self _ _ ledger (newRow e) _ (keepsKeys_revived e) with
        mem | ⟨r₀, hr₀, clash, -⟩
      · exact ⟨newRow e, mem, new, rfl⟩
      · have old := settled_of_clash new clash
        exact ⟨r₀, kept hr₀, old, (clash_iff_key old new).1 clash⟩
    · obtain ⟨r, hr, settled, key⟩ := h.present m hm
      exact ⟨r, kept hr, settled, key⟩

theorem LedgerKept.writeAll {entries : List LedgerEntry}
    (h : LedgerKept txHash allowed done ledger) (settled : ∀ e ∈ entries, Settled txHash e)
    (mem : ∀ e ∈ entries, (newRow e).movement ∈ allowed) :
    LedgerKept txHash allowed (entries.map (fun e => (newRow e).movement) ++ done)
      (entries.foldl writeEntry ledger) := by
  induction entries generalizing done ledger with
  | nil => exact h
  | cons e entries ih =>
    have first := h.write (settled e List.mem_cons_self) (mem e List.mem_cons_self)
    refine (ih first (fun e' he' => settled e' (List.mem_cons_of_mem e he'))
      (fun e' he' => mem e' (List.mem_cons_of_mem e he'))).mono fun m hm => ?_
    simpa [or_left_comm, or_assoc] using hm

/-- The settled rows have different keys. -/
theorem nodup_keys (txHash : Text) (db : Db) :
    ((db.settled txHash).map (·.movement.key)).Nodup := by
  have apart := db.ledger.distinct.filter fun r => decide (Settled txHash r.toLedgerEntry)
  refine List.pairwise_map.2 (apart.imp_of_mem fun {r r'} hr hr' free same => ?_)
  have settled := of_decide_eq_true (List.mem_filter.1 hr).2
  have settled' := of_decide_eq_true (List.mem_filter.1 hr').2
  rw [(clash_iff_key settled settled').2 same] at free
  cases free

/-! ### The events -/

/-- The events of the transaction are for allowed users, and who is done has one. -/
structure EventsKept (txHash : Text) (allowed done : List Text) (userEvents : Table UserEvent) :
    Prop where
  rows : ∀ r ∈ userEvents, (receivedPrefix txHash).isPrefixOf r.dedupeKey = true →
    r.dedupeKey = receivedPrefix txHash ++ r.uid ∧ r.uid ∈ allowed
  present : ∀ u ∈ done, ∃ r ∈ userEvents, r.dedupeKey = receivedPrefix txHash ++ u

theorem isPrefixOf_append (t u : Text) : t.isPrefixOf (t ++ u) = true :=
  List.isPrefixOf_iff_prefix.2 (List.prefix_append t u)

theorem EventsKept.notify {allowed done : List Text} {userEvents : Table UserEvent}
    (h : EventsKept txHash allowed done userEvents) {recipient : Text} (mem : recipient ∈ allowed) :
    EventsKept txHash allowed (recipient :: done)
      (userEvents.insertOrIgnore (received txHash recipient)) := by
  constructor
  · intro r hr ours
    rcases Table.mem_or_eq_of_mem_insertOrIgnore hr with old | rfl
    · exact h.rows r old ours
    · exact ⟨rfl, mem⟩
  · intro u hu
    rcases List.mem_cons.1 hu with rfl | hu
    · by_cases fits : userEvents.Fits (received txHash u)
      · exact ⟨_, (Table.mem_of_rows_append (Table.insertOrIgnore_rows_of_fits fits)).2 (.inr rfl),
          rfl⟩
      · rw [Table.insertOrIgnore_of_not_fits fits]
        simp only [Table.Fits, not_forall, Bool.not_eq_false] at fits
        obtain ⟨r, hr, clash⟩ := fits
        exact ⟨r, hr, of_decide_eq_true clash⟩
    · obtain ⟨r, hr, key⟩ := h.present u hu
      exact ⟨r, Table.mem_insertOrIgnore_of_mem hr, key⟩

/-- The users that are told are different, as the keys of the events are. -/
theorem nodup_notified {allowed done : List Text} {db : Db}
    (h : EventsKept txHash allowed done db.userEvents) :
    ((db.notified txHash).map (·.uid)).Nodup := by
  have apart := db.userEvents.distinct.filter fun r =>
    (receivedPrefix txHash).isPrefixOf r.dedupeKey
  refine List.pairwise_map.2 (apart.imp_of_mem fun {r r'} hr hr' free same => ?_)
  obtain ⟨hr, ours⟩ := List.mem_filter.1 hr
  obtain ⟨hr', ours'⟩ := List.mem_filter.1 hr'
  have key := (h.rows r hr ours).1
  rw [same, ← (h.rows r' hr' ours').1] at key
  simp [Row.clash, key] at free

/-! ### All settlements of a bundle -/

variable {bundle : List Payment} {calls : List (Payment × SettleOpts)} {db : Db}

theorem ledgerKept_settleAll (done : List Movement) (only : ∀ c ∈ calls, c.1 ∈ bundle)
    (h : LedgerKept txHash (bundle.flatMap (·.movements d)) done db.ledger) :
    LedgerKept txHash (bundle.flatMap (·.movements d))
      (calls.flatMap (·.1.movements d) ++ done) (settleAll d txHash db calls).ledger := by
  induction calls generalizing done db with
  | nil => exact h
  | cons c calls ih =>
    have written : LedgerKept txHash (bundle.flatMap (·.movements d)) (c.1.movements d ++ done)
        (settlePayment d txHash db c).ledger := by
      rw [← movement_entries txHash c.1 c.2]
      refine h.writeAll (fun e he => settled_entries he) fun e he => ?_
      refine List.mem_flatMap.2 ⟨c.1, only c List.mem_cons_self, ?_⟩
      rw [← movement_entries txHash c.1 c.2]
      exact List.mem_map_of_mem he
    refine (ih _ (fun c' hc' => only c' (List.mem_cons_of_mem c hc')) written).mono fun m hm => ?_
    simpa [or_left_comm, or_assoc] using hm

theorem eventsKept_settleAll (told : List Text) (only : ∀ c ∈ calls, c.1 ∈ bundle)
    (h : EventsKept txHash (bundle.filterMap (·.otherRecipient d)) told db.userEvents) :
    EventsKept txHash (bundle.filterMap (·.otherRecipient d))
      (calls.filterMap (·.1.otherRecipient d) ++ told)
      (settleAll d txHash db calls).userEvents := by
  induction calls generalizing told db with
  | nil => exact h
  | cons c calls ih =>
    have rest := fun c' hc' => only c' (List.mem_cons_of_mem c hc')
    cases other : c.1.otherRecipient d with
    | none =>
      have skipped : (c :: calls).filterMap (·.1.otherRecipient d) =
          calls.filterMap (·.1.otherRecipient d) := List.filterMap_cons_none other
      rw [skipped]
      refine ih told rest ?_
      show EventsKept _ _ _ (((c.1.otherRecipient d).map _).toList.foldl _ _)
      rw [other]
      exact h
    | some recipient =>
      have mem : recipient ∈ bundle.filterMap (·.otherRecipient d) :=
        List.mem_filterMap.2 ⟨c.1, only c List.mem_cons_self, other⟩
      have notified : EventsKept txHash (bundle.filterMap (·.otherRecipient d)) (recipient :: told)
          (settlePayment d txHash db c).userEvents := by
        show EventsKept _ _ _ (((c.1.otherRecipient d).map _).toList.foldl _ _)
        rw [other]
        exact h.notify mem
      have first : (c :: calls).filterMap (·.1.otherRecipient d) =
          recipient :: calls.filterMap (·.1.otherRecipient d) := List.filterMap_cons_some other
      have after := ih _ rest notified
      refine ⟨after.rows, fun u hu => after.present u ?_⟩
      rw [first] at hu
      simpa [or_left_comm, or_assoc] using hu

/-- The keys of what the payments are to be seen by, when the payments are apart. -/
theorem nodup_keys_of_apart (apart : Apart d bundle) :
    ((bundle.flatMap (·.movements d)).map Movement.key).Nodup := by
  rw [List.map_flatMap, List.nodup_flatMap]
  refine ⟨fun p _ => ?_, ?_⟩
  · unfold Payment.movements
    cases p.otherRecipient d with
    | none => exact List.nodup_singleton _
    | some recipient =>
      refine List.nodup_cons.2 ⟨fun mem => ?_, List.nodup_singleton _⟩
      -- the two rows of a payment go in different directions
      have same := List.mem_singleton.1 mem
      cases congrArg (·.2.1) same
  · have payers := List.pairwise_map.1 apart.payers
    have recipients := List.pairwise_filterMap.1 apart.recipients
    refine (payers.and recipients).imp fun {p p'} ⟨payer, recipient⟩ key hk hk' => ?_
    obtain ⟨m, hm, rfl⟩ := List.mem_map.1 hk
    obtain ⟨m', hm', same⟩ := List.mem_map.1 hk'
    rcases List.mem_cons.1 hm with rfl | hm
    · rcases List.mem_cons.1 hm' with rfl | hm'
      · refine payer (Prod.ext (congrArg (·.1) same).symm (congrArg (·.2.2) same).symm)
      · obtain ⟨r', -, rfl⟩ := Option.map_eq_some_iff.1 (Option.mem_toList.1 hm')
        cases congrArg (·.2.1) same
    · obtain ⟨r, hr, rfl⟩ := Option.map_eq_some_iff.1 (Option.mem_toList.1 hm)
      rcases List.mem_cons.1 hm' with rfl | hm'
      · cases congrArg (·.2.1) same
      · obtain ⟨r', hr', rfl⟩ := Option.map_eq_some_iff.1 (Option.mem_toList.1 hm')
        exact recipient r hr r' hr' (congrArg (·.1) same).symm

theorem payers_of_keys (h : ((bundle.flatMap (·.movements d)).map Movement.key).Nodup) :
    (bundle.map fun p => (p.uid, p.token)).Nodup := by
  have heads (l : List Payment) :
      (l.map (·.outgoingMovement d)).Sublist (l.flatMap (·.movements d)) := by
    induction l with
    | nil => exact .slnil
    | cons p l ih =>
      rw [List.map_cons, List.flatMap_cons]
      exact (ih.trans (List.sublist_append_right _ _)).cons_cons _
  have keys := h.sublist ((heads bundle).map Movement.key)
  rw [List.map_map] at keys
  refine List.Nodup.of_map (fun k : Text × Text => (k.1, Direction.out, k.2)) ?_
  rwa [List.map_map]

theorem bundle_complete_iff (d : Directory) (txHash : Text) (bundle : List Payment)
    (calls : List (Payment × SettleOpts)) (db : Db) (fresh : Fresh txHash db)
    (each : ∀ p ∈ bundle, ∃ c ∈ calls, c.1 = p) (only : ∀ c ∈ calls, c.1 ∈ bundle) :
    Complete d txHash bundle (settleAll d txHash db calls) ↔ Apart d bundle := by
  have ledger := ledgerKept_settleAll (d := d) [] only
    ⟨fun r hr settled => absurd settled (fresh.ledger r hr),
      fun m hm => absurd hm List.not_mem_nil⟩
  have untold (r : UserEvent) (hr : r ∈ db.userEvents)
      (ours : (receivedPrefix txHash).isPrefixOf r.dedupeKey = true) :
      r.dedupeKey = receivedPrefix txHash ++ r.uid ∧
        r.uid ∈ bundle.filterMap (·.otherRecipient d) := by
    rw [fresh.userEvents r hr] at ours
    cases ours
  have events := eventsKept_settleAll (d := d) [] only
    ⟨untold, fun u hu => absurd hu List.not_mem_nil⟩
  rw [List.append_nil] at ledger events
  have keys := nodup_keys txHash (settleAll d txHash db calls)
  have told := nodup_notified events
  constructor
  · intro complete
    refine ⟨payers_of_keys (d := d) ?_, complete.events.nodup_iff.1 told⟩
    rw [← (complete.rows.map Movement.key).nodup_iff, List.map_map]
    exact keys
  · intro apart
    have distinct := nodup_keys_of_apart apart
    constructor
    · refine (List.perm_ext_iff_of_nodup ?_ (distinct.of_map _)).2 fun m => ?_
      · refine List.Nodup.of_map Movement.key ?_
        rwa [List.map_map]
      · rw [List.mem_map]
        constructor
        · rintro ⟨r, hr, rfl⟩
          obtain ⟨hr, settled⟩ := List.mem_filter.1 hr
          exact (ledger.rows r hr (of_decide_eq_true settled)).2
        · intro hm
          obtain ⟨p, hp, mem⟩ := List.mem_flatMap.1 hm
          obtain ⟨c, hc, rfl⟩ := each p hp
          obtain ⟨r, hr, settled, key⟩ := ledger.present m (List.mem_flatMap.2 ⟨c, hc, mem⟩)
          refine ⟨r, List.mem_filter.2 ⟨hr, decide_eq_true settled⟩, ?_⟩
          exact List.inj_on_of_nodup_map distinct (ledger.rows r hr settled).2 hm key
    · refine (List.perm_ext_iff_of_nodup told apart.recipients).2 fun u => ?_
      rw [List.mem_map]
      constructor
      · rintro ⟨r, hr, rfl⟩
        obtain ⟨hr, ours⟩ := List.mem_filter.1 hr
        exact (events.rows r hr ours).2
      · intro hu
        obtain ⟨p, hp, other⟩ := List.mem_filterMap.1 hu
        obtain ⟨c, hc, rfl⟩ := each p hp
        obtain ⟨r, hr, key⟩ := events.present u (List.mem_filterMap.2 ⟨c, hc, other⟩)
        have ours : (receivedPrefix txHash).isPrefixOf r.dedupeKey = true := by
          rw [key]
          exact isPrefixOf_append _ _
        refine ⟨r, List.mem_filter.2 ⟨hr, ours⟩, ?_⟩
        exact List.append_cancel_left ((events.rows r hr ours).1.symm.trans key)

section Example

theorem usdc_isPayment : "USDC".toList ∉ nonPaymentCurrencies := by decide

theorem eth_isPayment : "ETH".toList ∉ nonPaymentCurrencies := by decide

def usdcPayment : Payment where
  userOpHash := "0x01".toList
  uid := "ana".toList
  senderAddress := "0xa".toList
  wallet := "0xb".toList
  currency := "USDC".toList
  amount := "5".toList
  linkId := some "direct".toList
  chainId := 421614
  chainKey := defaultChainKey
  isPayment := usdc_isPayment

/-- A payment in the other direction, in the same transaction. -/
def ethPayment : Payment where
  userOpHash := "0x02".toList
  uid := "beto".toList
  senderAddress := "0xb".toList
  wallet := "0xa".toList
  currency := "ETH".toList
  amount := "5".toList
  linkId := none
  chainId := 421614
  chainKey := defaultChainKey
  isPayment := eth_isPayment

def twoUsers : Directory where
  getActiveChainAccountOwner _ wallet := if wallet = "0xb".toList then some "beto".toList else none
  getUserByWallet wallet := if wallet = "0xa".toList then some "ana".toList else none
  linkReference _ := none

def settled : SettleOpts := ⟨none, "2026-01-01".toList⟩

theorem apart_example : Apart twoUsers [usdcPayment, ethPayment] where
  payers := by decide
  recipients := by decide

theorem fresh_empty (txHash : Text) : Fresh txHash ⟨Table.empty, Table.empty⟩ where
  ledger _ hr := absurd hr List.not_mem_nil
  userEvents _ hr := absurd hr List.not_mem_nil

theorem only_example (c : Payment × SettleOpts)
    (hc : c ∈ [(ethPayment, settled), (usdcPayment, settled), (ethPayment, settled)]) :
    c.1 ∈ [usdcPayment, ethPayment] := by
  simp only [List.mem_cons, List.not_mem_nil, or_false] at hc ⊢
  rcases hc with rfl | rfl | rfl
  · exact .inr rfl
  · exact .inl rfl
  · exact .inr rfl

theorem each_example (p : Payment) (hp : p ∈ [usdcPayment, ethPayment]) :
    ∃ c ∈ [(ethPayment, settled), (usdcPayment, settled), (ethPayment, settled)], c.1 = p := by
  simp only [List.mem_cons, List.not_mem_nil, or_false] at hp
  rcases hp with rfl | rfl
  · exact ⟨_, List.mem_cons_of_mem _ List.mem_cons_self, rfl⟩
  · exact ⟨_, List.mem_cons_self, rfl⟩

/-- Two payments, one of which is settled twice. -/
theorem bundle_complete_example :
    Complete twoUsers "0xt".toList [usdcPayment, ethPayment]
      (settleAll twoUsers "0xt".toList ⟨Table.empty, Table.empty⟩
        [(ethPayment, settled), (usdcPayment, settled), (ethPayment, settled)]) :=
  (bundle_complete_iff _ _ _ _ _ (fresh_empty _) each_example only_example).2 apart_example

end Example

end ParmeliaLinks.Pay.Bundled
