/-
ParmeliaLinks/Payments/Evidence.lean

What a transaction on the source chain proves.  The validator looks at the
receipt of a transaction and either rejects it or returns the arguments of the
event that the router emitted for the attempt.

A log is given by what decoding it answers for each of the events that the
worker asks for; the validator asks for the first three.  It takes the first
event of the router in the receipt, and it wants the payer as the sender and the
router as the recipient of the transaction itself.  So it is sound, but complete only for transactions that
the payer sends to the router directly and that hold no other payment before
(`evidence_completeness`): a router call inside a transaction of a bundler is
always rejected.
-/
import ParmeliaLinks.Payments.Schema

namespace ParmeliaLinks.Payments

/-! ### Receipts -/

/-- The arguments that the events of both routers have. -/
structure RouterEventArgs where
  attemptId : Hash
  intentId : Hash
  payer : Address
  merchant : Address
  settlementAmount : Nat
  platformFee : Nat
  deriving DecidableEq

/-- The arguments of `CctpPaymentBurned`. -/
structure BurnedArgs extends RouterEventArgs where
  grossPayerAmount : Nat
  maxCctpFee : Nat
  amountBurned : Nat
  deriving DecidableEq

/-- The bytes of a transaction or a message, as hex digits. -/
abbrev Hex := List (Fin 16)

/-- The arguments of `MessageReceived` that are looked at. -/
structure MessageReceivedArgs where
  nonce : Hex
  sourceDomain : Nat
  deriving DecidableEq

structure ReceiptLog where
  address : Address
  paymentSettled : Option RouterEventArgs
  cctpPaymentBurned : Option BurnedArgs
  messageSent : Option Hex
  messageReceived : Option MessageReceivedArgs := none

inductive ReceiptStatus | success | reverted
  deriving DecidableEq

structure SourceReceipt where
  status : ReceiptStatus
  sender : Address
  recipient : Option Address
  logs : List ReceiptLog

/-! ### The validator -/

/-- The evidence that a receipt gives. -/
inductive SourceEvidence
  | settled (args : RouterEventArgs)
  | burned (args : BurnedArgs) (message : Hex)
  deriving DecidableEq

/-- The arguments that both kinds of evidence have. -/
def SourceEvidence.args : SourceEvidence → RouterEventArgs
  | .settled args => args
  | .burned args _ => args.toRouterEventArgs

/-- The event carries other values than the signed attempt. -/
def commonMismatch (attempt : AttemptTerms) (intent : IntentTerms) (args : RouterEventArgs) : Bool :=
  args.attemptId != attempt.attemptHash || args.intentId != attempt.authorizationIntentId ||
    args.payer != attempt.payerAddress || args.merchant != intent.settlementWallet ||
    args.settlementAmount != attempt.settlementAmountAtomic ||
    args.platformFee != attempt.platformFeeAtomic

/-- The first log of the router that decodes as the event. -/
def firstRouterEvent {α : Type} (router : Address) (decode : ReceiptLog → Option α)
    (logs : List ReceiptLog) : Option α :=
  logs.findSome? fun log => if log.address = router then decode log else none

def validatePaymentSourceReceipt (attempt : AttemptTerms) (intent : IntentTerms)
    (receipt : SourceReceipt) : Except String SourceEvidence :=
  if receipt.status ≠ .success then .error "Payment source transaction reverted"
  else if receipt.sender ≠ attempt.payerAddress ∨ receipt.recipient ≠ some attempt.routerAddress then
    .error "Payment source transaction sender or router does not match the signed attempt"
  else if attempt.route = .sameChain then
    match firstRouterEvent attempt.routerAddress (·.paymentSettled) receipt.logs with
    | none => .error "PaymentSettled evidence is missing"
    | some args =>
      if commonMismatch attempt intent args then
        .error "PaymentSettled evidence does not match the signed attempt"
      else .ok (.settled args)
  else
    match firstRouterEvent attempt.routerAddress (·.cctpPaymentBurned) receipt.logs with
    | none => .error "CctpPaymentBurned evidence is missing"
    | some args =>
      if commonMismatch attempt intent args.toRouterEventArgs then
        .error "CctpPaymentBurned evidence does not match the signed attempt"
      else if args.grossPayerAmount ≠ attempt.grossPayerAmountAtomic ∨
          args.maxCctpFee ≠ attempt.cctpFeeAtomic then
        .error "CCTP burn economics do not match the signed attempt"
      else
        match receipt.logs.findSome? (·.messageSent) with
        | none => .error "CCTP MessageSent evidence is missing"
        | some message => .ok (.burned args message)

/-! ### Soundness -/

/-- The event carries the values of the signed attempt. -/
structure RouterEventArgs.Matches (args : RouterEventArgs) (attempt : AttemptTerms)
    (intent : IntentTerms) : Prop where
  attemptId : args.attemptId = attempt.attemptHash
  intentId : args.intentId = attempt.authorizationIntentId
  payer : args.payer = attempt.payerAddress
  merchant : args.merchant = intent.settlementWallet
  settlementAmount : args.settlementAmount = attempt.settlementAmountAtomic
  platformFee : args.platformFee = attempt.platformFeeAtomic

theorem commonMismatch_eq_false {attempt : AttemptTerms} {intent : IntentTerms}
    {args : RouterEventArgs} :
    commonMismatch attempt intent args = false ↔ args.Matches attempt intent := by
  simp only [commonMismatch, Bool.or_eq_false_iff, bne_eq_false_iff_eq]
  constructor
  · rintro ⟨⟨⟨⟨⟨attemptId, intentId⟩, payer⟩, merchant⟩, amount⟩, fee⟩
    exact ⟨attemptId, intentId, payer, merchant, amount, fee⟩
  · rintro ⟨attemptId, intentId, payer, merchant, amount, fee⟩
    exact ⟨⟨⟨⟨⟨attemptId, intentId⟩, payer⟩, merchant⟩, amount⟩, fee⟩

/-- The event of either router that the log decodes as. -/
def ReceiptLog.eventFor (log : ReceiptLog) (route : PaymentRoute) : Option RouterEventArgs :=
  if route = .sameChain then log.paymentSettled
  else log.cctpPaymentBurned.map (·.toRouterEventArgs)

theorem of_firstRouterEvent {α : Type} {router : Address} {decode : ReceiptLog → Option α}
    {logs : List ReceiptLog} {args : α} (h : firstRouterEvent router decode logs = some args) :
    ∃ log ∈ logs, log.address = router ∧ decode log = some args := by
  obtain ⟨log, hlog, hdecode⟩ := List.exists_of_findSome?_eq_some h
  split at hdecode
  · exact ⟨log, hlog, ‹_›, hdecode⟩
  · cases hdecode

/-- An accepted receipt is a successful transaction of the payer to the router, in
which the router emitted an event with the values of the attempt. -/
theorem validatePaymentSourceReceipt_sound {attempt : AttemptTerms} {intent : IntentTerms}
    {receipt : SourceReceipt} {evidence : SourceEvidence}
    (h : validatePaymentSourceReceipt attempt intent receipt = .ok evidence) :
    receipt.sender = attempt.payerAddress ∧ receipt.recipient = some attempt.routerAddress ∧
      ∃ log ∈ receipt.logs, log.address = attempt.routerAddress ∧
        ∃ args, log.eventFor attempt.route = some args ∧ args.Matches attempt intent := by
  unfold validatePaymentSourceReceipt at h
  split at h
  · cases h
  split at h
  · cases h
  rename_i direct
  rw [not_or, not_not, not_not] at direct
  refine ⟨direct.1, direct.2, ?_⟩
  split at h
  · rename_i sameChain
    split at h
    · cases h
    · rename_i args first
      obtain ⟨log, hlog, haddress, hargs⟩ := of_firstRouterEvent first
      split at h
      · cases h
      · rename_i agrees
        refine ⟨log, hlog, haddress, args, ?_, commonMismatch_eq_false.1 (by simpa using agrees)⟩
        simp [ReceiptLog.eventFor, sameChain, hargs]
  · rename_i crossChain
    split at h
    · cases h
    · rename_i args first
      obtain ⟨log, hlog, haddress, hargs⟩ := of_firstRouterEvent first
      split at h
      · cases h
      · rename_i agrees
        refine ⟨log, hlog, haddress, args.toRouterEventArgs, ?_,
          commonMismatch_eq_false.1 (by simpa using agrees)⟩
        simp [ReceiptLog.eventFor, crossChain, hargs]

/-- So do the arguments that the validator returns. -/
theorem validatePaymentSourceReceipt_matches {attempt : AttemptTerms} {intent : IntentTerms}
    {receipt : SourceReceipt} {evidence : SourceEvidence}
    (h : validatePaymentSourceReceipt attempt intent receipt = .ok evidence) :
    evidence.args.Matches attempt intent := by
  unfold validatePaymentSourceReceipt at h
  split at h
  · cases h
  split at h
  · cases h
  split at h
  · split at h
    · cases h
    split at h
    · cases h
    rename_i agrees
    obtain rfl := Except.ok.inj h
    exact commonMismatch_eq_false.1 (by simpa [SourceEvidence.args] using agrees)
  · split at h
    · cases h
    split at h
    · cases h
    rename_i agrees
    split at h
    · cases h
    split at h
    · cases h
    obtain rfl := Except.ok.inj h
    exact commonMismatch_eq_false.1 (by simpa [SourceEvidence.args] using agrees)

/-- Evidence of a burn is for an attempt of another chain. -/
theorem validatePaymentSourceReceipt_burned {attempt : AttemptTerms} {intent : IntentTerms}
    {receipt : SourceReceipt} {args : BurnedArgs} {message : Hex}
    (h : validatePaymentSourceReceipt attempt intent receipt = .ok (.burned args message)) :
    attempt.route ≠ .sameChain := by
  intro sameChain
  simp only [validatePaymentSourceReceipt, sameChain, if_true] at h
  split at h
  · cases h
  split at h
  · cases h
  split at h
  · cases h
  split at h <;> cases h

/-! ### Completeness -/

/-- The router has settled a payment in this log. -/
def ReceiptLog.Settles (log : ReceiptLog) (router : Address) (args : RouterEventArgs) : Prop :=
  log.address = router ∧ log.paymentSettled = some args

/-- The authorized router call was executed in the transaction: the log after
`before` is the one with the attempt's hash. -/
structure Executed (attempt : AttemptTerms) (intent : IntentTerms) (receipt : SourceReceipt)
    (before : List ReceiptLog) (args : RouterEventArgs) : Prop where
  sameChain : attempt.route = .sameChain
  success : receipt.status = .success
  logs : ∃ log after, receipt.logs = before ++ log :: after ∧ log.Settles attempt.routerAddress args
  agrees : args.Matches attempt intent
  single : ∀ log ∈ before, ∀ args', log.Settles attempt.routerAddress args' →
    args'.attemptId ≠ attempt.attemptHash

/-- The payer sent the transaction to the router itself, and the router settled no
other payment in it before. -/
structure Direct (attempt : AttemptTerms) (receipt : SourceReceipt) (before : List ReceiptLog) :
    Prop where
  sender : receipt.sender = attempt.payerAddress
  recipient : receipt.recipient = some attempt.routerAddress
  first : ∀ log ∈ before, ∀ args, ¬ log.Settles attempt.routerAddress args

theorem firstRouterEvent_append {router : Address} {before : List ReceiptLog}
    {log : ReceiptLog} {args : RouterEventArgs} (after : List ReceiptLog)
    (emitted : log.Settles router args) (first : ∀ l ∈ before, ∀ args', ¬ l.Settles router args') :
    firstRouterEvent router (·.paymentSettled) (before ++ log :: after) = some args := by
  have none : before.findSome?
      (fun l => if l.address = router then l.paymentSettled else none) = none := by
    rw [List.findSome?_eq_none_iff]
    intro l hl
    split
    · rename_i haddress
      cases hargs : l.paymentSettled with
      | none => rfl
      | some args' => exact absurd ⟨haddress, hargs⟩ (first l hl args')
    · rfl
  rw [firstRouterEvent, List.findSome?_append, none, Option.none_or, List.findSome?_cons,
    if_pos emitted.1, emitted.2]

/-- The earliest event of the router is what the validator looks at. -/
theorem firstRouterEvent_before {router : Address} {before : List ReceiptLog}
    {args : RouterEventArgs} {rest : List ReceiptLog}
    (h : ∃ log ∈ before, ∃ args', log.Settles router args')
    (first : firstRouterEvent router (·.paymentSettled) (before ++ rest) = some args) :
    ∃ log ∈ before, log.Settles router args := by
  cases hb : firstRouterEvent router (·.paymentSettled) before with
  | none =>
    obtain ⟨log, hlog, args', haddress, hargs⟩ := h
    have none := List.findSome?_eq_none_iff.1 hb log hlog
    rw [if_pos haddress] at none
    exact absurd (none.symm.trans hargs) nofun
  | some args' =>
    rw [firstRouterEvent] at hb
    rw [firstRouterEvent, List.findSome?_append, hb, Option.some_or] at first
    obtain rfl := Option.some.inj first
    exact of_firstRouterEvent hb

/-- The event of an executed attempt is accepted exactly when the transaction is
direct; and what is accepted was emitted by the router for the attempt. -/
theorem evidence_completeness (attempt : AttemptTerms) (intent : IntentTerms)
    (receipt : SourceReceipt) :
    (∀ before args, Executed attempt intent receipt before args →
      (validatePaymentSourceReceipt attempt intent receipt = .ok (.settled args) ↔
        Direct attempt receipt before)) ∧
    ∀ evidence, validatePaymentSourceReceipt attempt intent receipt = .ok evidence →
      ∃ log ∈ receipt.logs, log.address = attempt.routerAddress ∧
        ∃ args, log.eventFor attempt.route = some args ∧ args.Matches attempt intent := by
  refine ⟨fun before args executed => ⟨fun accepted => ?_, fun direct => ?_⟩, fun evidence h => ?_⟩
  · obtain ⟨sameChain, success, ⟨log, after, logs, emitted⟩, agrees, single⟩ := executed
    obtain ⟨sender, recipient, -⟩ := validatePaymentSourceReceipt_sound accepted
    refine ⟨sender, recipient, fun l hl args' hargs' => ?_⟩
    -- an earlier event would have been looked at, and it has another hash
    simp only [validatePaymentSourceReceipt, success, sender, recipient, sameChain, ne_eq,
      not_true_eq_false, if_false, or_self, if_true] at accepted
    split at accepted
    · cases accepted
    · rename_i args₀ first
      split at accepted
      · cases accepted
      · obtain rfl : args₀ = args := by
          simpa using accepted
        rw [logs] at first
        obtain ⟨l₀, hl₀, hsettles⟩ := firstRouterEvent_before ⟨l, hl, args', hargs'⟩ first
        exact single l₀ hl₀ args₀ hsettles agrees.attemptId
  · obtain ⟨sameChain, success, ⟨log, after, logs, emitted⟩, agrees, -⟩ := executed
    have first := firstRouterEvent_append after emitted direct.first
    rw [← logs] at first
    simp only [validatePaymentSourceReceipt, success, direct.sender, direct.recipient, sameChain,
      ne_eq, not_true_eq_false, if_false, or_self, if_true, first,
      commonMismatch_eq_false.2 agrees, Bool.false_eq_true]
  · exact (validatePaymentSourceReceipt_sound h).2.2

/-! A payment of a smart account, in a transaction of its own and of a bundler. -/

def appAttempt : AttemptTerms :=
  { id := 20, attemptHash := 21, intentId := 10, quoteId := 22, payerUid := some 5
    payerAddress := 23, idempotencyKey := "command", sourceChainId := 4, route := .sameChain
    routerAddress := 24, authorizationHash := 25, authorizationIntentId := 26, signature := 27
    checkoutCapabilityHash := none, payerProofSignature := none, payerProofMessageHash := none
    validAfter := 0, validUntil := 100, settlementAmountAtomic := 700, platformFeeAtomic := 0
    cctpFeeAtomic := 0, grossPayerAmountAtomic := 700, feePolicyId := "", feePolicyVersion := 1
    feeRuleId := "", platformFeeBps := 0, platformFeeBearer := .none
    platformFeeRecipient := none, routeFeeCapBps := 0, createdAt := 0 }

def appIntent : IntentTerms :=
  { id := 10, merchantId := 1, linkId := some 11, idempotencyKey := none, amountMode := .fixed
    reference := "", metadata := "", mode := .live, settlementWallet := 3, settlementChainId := 4
    settlementAccountVersion := 1, expiresAt := none, createdAt := 0 }

def settledEvent (attemptHash : Hash) : RouterEventArgs :=
  { attemptId := attemptHash, intentId := 26, payer := 23, merchant := 3, settlementAmount := 700
    platformFee := 0 }

def settledLog (attemptHash : Hash) : ReceiptLog :=
  { address := 24, paymentSettled := some (settledEvent attemptHash), cctpPaymentBurned := none
    messageSent := none }

/-- A successful transaction with these logs. -/
def receiptOf (sender recipient : Address) (logs : List ReceiptLog) : SourceReceipt :=
  { status := .success, sender, recipient := some recipient, logs }

theorem appAttempt_executed {sender recipient : Address} (before : List ReceiptLog)
    (single : ∀ log ∈ before, ∀ args', log.Settles 24 args' → args'.attemptId ≠ 21) :
    Executed appAttempt appIntent (receiptOf sender recipient (before ++ [settledLog 21])) before
      (settledEvent 21) where
  sameChain := rfl
  success := rfl
  logs := ⟨settledLog 21, [], rfl, rfl, rfl⟩
  agrees := ⟨rfl, rfl, rfl, rfl, rfl, rfl⟩
  single := single

theorem evidence_completeness_direct :
    validatePaymentSourceReceipt appAttempt appIntent (receiptOf 23 24 [settledLog 21]) =
      .ok (.settled (settledEvent 21)) := by
  have executed : Executed appAttempt appIntent (receiptOf 23 24 [settledLog 21]) []
      (settledEvent 21) :=
    appAttempt_executed [] nofun
  exact ((evidence_completeness appAttempt appIntent _).1 _ _ executed).2 ⟨rfl, rfl, nofun⟩

/-- The bundler `90` sends `handleOps` to the entry point `91`; and a transaction of
the payer in which the router settles another attempt first. -/
theorem evidence_completeness_fails :
    (Executed appAttempt appIntent (receiptOf 90 91 [settledLog 21]) [] (settledEvent 21) ∧
      validatePaymentSourceReceipt appAttempt appIntent (receiptOf 90 91 [settledLog 21]) =
        .error "Payment source transaction sender or router does not match the signed attempt") ∧
    (Executed appAttempt appIntent (receiptOf 23 24 [settledLog 99, settledLog 21])
        [settledLog 99] (settledEvent 21) ∧
      validatePaymentSourceReceipt appAttempt appIntent
          (receiptOf 23 24 [settledLog 99, settledLog 21]) =
        .error "PaymentSettled evidence does not match the signed attempt") := by
  refine ⟨⟨appAttempt_executed [] nofun, by rfl⟩, ⟨appAttempt_executed [settledLog 99] ?_, by rfl⟩⟩
  intro log hlog args' hargs'
  obtain rfl := List.mem_singleton.1 hlog
  obtain rfl : settledEvent 99 = args' := Option.some.inj hargs'.2
  decide

end ParmeliaLinks.Payments
