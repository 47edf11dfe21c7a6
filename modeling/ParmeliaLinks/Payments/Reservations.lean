/-
ParmeliaLinks/Payments/Reservations.lean

The reservations of the App.  A command names a link, a payer, a chain and an amount, and its
identifier is the idempotency key of the attempt.  If the payer has an attempt under that key on
the intent, the reply is that attempt, whatever has become of it; otherwise a new one is quoted,
signed and stored.

So a new attempt can be executed (`newAttempt_executable`), and an old one as far as its row says
so: it is still reserved, its window is open, and its amount is the one that is asked for
(`Current`).

Nothing else happens during the call.
-/
import ParmeliaLinks.Lib.Alone
import ParmeliaLinks.Lib.Embed
import ParmeliaLinks.Payments.QuoteAgreement
import ParmeliaLinks.Payments.Runs

namespace ParmeliaLinks.Payments.Reservations

open QuoteEngine (EngineError QuoteRequest SignedAuthorization)

/-! ### Commands and replies -/

/-- `ReserveAppPaymentAttemptCommand` and its first version, which has neither an identifier nor
a chain of its own. -/
structure ReserveCommand where
  contractVersion : Nat
  /-- The user of the service claim, if there is one. -/
  claim : Option Uid
  commandId : String
  linkId : LinkId
  /-- `none` is a text that is no address. -/
  payerAddress : Option Address
  /-- `none` is an amount that is missing or no numeral. -/
  amount : Option DecimalText
  sourceChainId : ChainId

inductive RpcErrorCode | invalidContract | invalidCommand | notFound | conflict | unavailable
  deriving DecidableEq

structure ReservedAppPaymentAttempt where
  attemptId : AttemptId
  intentId : IntentId
  linkId : LinkId
  merchant : Address
  amount : DecimalText
  sourceChainId : ChainId
  router : Address
  authorizationHash : Hash
  signature : Hash
  expiresAt : Timestamp

inductive RpcResult
  | reserved (value : ReservedAppPaymentAttempt)
  | refused (error : RpcErrorCode) (message : String)

/-- The reply that an attempt makes. -/
def reservedOf (attempt : PaymentAttempt) (intent : PaymentIntent) (linkId : LinkId) :
    ReservedAppPaymentAttempt where
  attemptId := attempt.id
  intentId := intent.id
  linkId := linkId
  merchant := intent.settlementWallet
  amount := formatUnits attempt.settlementAmountAtomic 6
  sourceChainId := attempt.sourceChainId
  router := attempt.routerAddress
  authorizationHash := attempt.authorizationHash
  signature := attempt.signature
  expiresAt := attempt.validUntil * 1000

/-- The reply that an error of the quote engine makes. -/
def refusal : EngineError → RpcResult
  | .quoteError .signerUnavailable message => .refused .unavailable message
  | .quoteError _ message => .refused .conflict message
  | .integerOutOfRange => .refused .invalidCommand "IntegerOutOfRangeError"

/-- A quote with its identifier and its hash. -/
structure IssuedQuote extends QuoteEngine.PaymentQuote where
  id : QuoteId
  quoteHash : Hash

/-- What does not change during a call: the configuration and the libraries. -/
structure Outside where
  available : Bool
  settlementChainId : ChainId
  bindings : QuoteEngine.Bindings
  circle : QuoteEngine.CircleReply
  engine : QuoteEngine.Outside Hash
  hashQuote : QuoteId → QuoteEngine.PaymentQuote → Hash
  hashTypedData : SignedAuthorization → Hash
  hashUuid : String × Nat → Hash
  /-- The identifier of a command of the first version. -/
  legacyCommandId : ReserveCommand → String

def normalizeReserveCommand (x : Outside) (command : ReserveCommand) :
    Option (Uid × ReserveCommand) :=
  match command.claim with
  | none => none
  | some uid =>
    if command.contractVersion = 2 then some (uid, command)
    else if command.contractVersion = 1 then
      some (uid, { command with
        contractVersion := 2, commandId := x.legacyCommandId command
        sourceChainId := x.settlementChainId })
    else none

/-! ### Operations -/

inductive ReservationOp
  | paymentsWriteAvailability
  | selectIntentByLink (linkId : LinkId)
  | buildQuote (request : QuoteRequest)
  | authorizeAttempt (intent : PaymentIntent) (quote : IssuedQuote) (payerUid : Uid)

abbrev ReservationOp.Reply : ReservationOp → Type
  | .paymentsWriteAvailability => Bool
  | .selectIntentByLink _ => Option PaymentIntent
  | .buildQuote _ => Except EngineError IssuedQuote
  | .authorizeAttempt .. => Except EngineError AttemptTerms

/-- The columns of an attempt that was signed. -/
def authorizedAttempt (x : Outside) (id : AttemptId) (now : Timestamp) (quote : IssuedQuote)
    (payerUid : Uid) (signed : QuoteEngine.PaymentAttempt Hash) : AttemptTerms where
  id := id
  attemptHash := x.hashUuid ("pa_", id)
  intentId := signed.intentId
  quoteId := quote.id
  payerUid := some payerUid
  payerAddress := signed.payerAddress
  idempotencyKey := ""
  sourceChainId := signed.sourceChainId
  route := signed.route
  routerAddress := signed.routerAddress
  authorizationHash := x.hashTypedData signed.authorization
  authorizationIntentId := x.hashUuid ("pi_", signed.intentId)
  signature := signed.signature
  checkoutCapabilityHash := none
  payerProofSignature := none
  payerProofMessageHash := none
  validAfter := signed.validAfter
  validUntil := signed.validUntil
  settlementAmountAtomic := signed.settlementAmountAtomic
  platformFeeAtomic := signed.platformFeeAtomic
  cctpFeeAtomic := signed.cctpFeeAtomic
  grossPayerAmountAtomic := signed.grossPayerAmountAtomic
  feePolicyId := quote.feePolicyId
  feePolicyVersion := quote.feePolicyVersion
  feeRuleId := quote.feeRuleId
  platformFeeBps := quote.platformFeeBps
  platformFeeBearer := quote.platformFeeBearer
  platformFeeRecipient := quote.platformFeeRecipient
  routeFeeCapBps := quote.routeFeeCapBps
  createdAt := now

/-- One operation.  A quote and an attempt draw their identifiers. -/
def ReservationOp.exec (x : Outside) (w : World) : (o : ReservationOp) → o.Reply × World
  | .paymentsWriteAvailability => (x.available, w)
  | .selectIntentByLink linkId => (w.db.intents.find? (·.linkId == some linkId), w)
  | .buildQuote request =>
    ((QuoteEngine.buildQuote x.bindings w.clock x.circle request).map fun quote =>
      { quote with id := w.uuid, quoteHash := x.hashQuote w.uuid quote },
      { w with uuid := w.uuid + 1 })
  | .authorizeAttempt intent quote payerUid =>
    ((QuoteEngine.authorizeAttempt x.bindings x.engine w.clock w.uuid intent
        quote.toPaymentQuote).map (authorizedAttempt x w.uuid w.clock quote payerUid),
      { w with uuid := w.uuid + 1 })

abbrev ReservationStep := RepositoryOp ⊕ ReservationOp

abbrev ReservationStep.Reply : ReservationStep → Type :=
  Sum.elim RepositoryOp.Reply ReservationOp.Reply

abbrev Reservation := Prog ReservationStep ReservationStep.Reply

def repository {α : Type} (p : Repository α) : Reservation α := p.inl

def issue (o : ReservationOp) : Reservation o.Reply := .perform (.inr o : ReservationStep)

/-! ### The call -/

/-- The intent with the amount that is to be settled. -/
def effectiveIntent (intent : PaymentIntent) (requested : Option DecimalText) :
    Except String PaymentIntent :=
  if intent.amountMode = .payerDefined then
    match requested with
    | none => .error "Amount must be a positive USDC value"
    | some decimal => (amount decimal).map fun selected =>
      { intent with amount := selected.decimal, amountAtomic := selected.atomic }
  else .ok intent

/-- Sign an attempt from a quote and store both. -/
def authorizeAndStore (uid : Uid) (command : ReserveCommand) (intent effective : PaymentIntent)
    (quote : IssuedQuote) : Reservation RpcResult := do
  let authorized ← issue (.authorizeAttempt effective quote uid)
  match authorized with
  | .error e => return refusal e
  | .ok attempt =>
    let stored ← repository (insertQuoteAndAttempt
      { id := quote.id, intentId := quote.intentId, quoteHash := quote.quoteHash } attempt
      command.commandId)
    return .reserved (reservedOf stored intent command.linkId)

/-- A new attempt. -/
def newAttempt (uid : Uid) (command : ReserveCommand) (intent : PaymentIntent) (payer : Address) :
    Reservation RpcResult := do
  let effective ← .ofExcept (effectiveIntent intent command.amount)
  let quoted ← issue (.buildQuote { intent := effective, payer := payer
                                    sourceChainId := command.sourceChainId
                                    requestedRoute := .auto })
  match quoted with
  | .error e => return refusal e
  | .ok quote =>
    if quote.route ≠ .sameChain then
      return .refused .conflict "GatoPago balance execution must use the local router" else
    authorizeAndStore uid command intent effective quote

/-- Take back what the intent no longer needs, unless there is an attempt to reply with. -/
def releaseUnless (replay : Option PaymentAttempt) (intentId : IntentId) : Reservation Unit :=
  match replay with
  | some _ => return ()
  | none => repository (releaseExpiredPayerDefinedAmount intentId)

/-- The part of the call that has the intent and the payer. -/
def reserveOf (uid : Uid) (command : ReserveCommand) (initialIntent : PaymentIntent)
    (payer : Address) : Reservation RpcResult := do
  let replay ← repository
    (getAttemptByIdempotency initialIntent.id payer command.sourceChainId command.commandId)
  releaseUnless replay initialIntent.id
  let found ← issue (.selectIntentByLink command.linkId)
  match found with
  | none => return .refused .notFound "Payment intent not found"
  | some intent =>
    match replay with
    | some attempt => return .reserved (reservedOf attempt intent command.linkId)
    | none => newAttempt uid command intent payer

def reserve (uid : Uid) (command : ReserveCommand) : Reservation RpcResult := do
  let link ← repository (getPaymentLink command.linkId)
  match link with
  | none => return .refused .notFound "Payment link not found"
  | some _ =>
    let found ← issue (.selectIntentByLink command.linkId)
    match found with
    | none => return .refused .notFound "Payment link not found"
    | some initialIntent =>
      match command.payerAddress with
      | none => throw "Invalid wallet address"
      | some payer => reserveOf uid command initialIntent payer

def reserveAppPaymentAttempt (x : Outside) (command : ReserveCommand) : Reservation RpcResult := do
  if ← issue .paymentsWriteAvailability then
    match normalizeReserveCommand x command with
    | none =>
      return .refused .invalidContract "Unsupported or malformed attempt command"
    | some (uid, normalized) =>
      Prog.tryCatch (reserve uid normalized) fun message =>
        return .refused .invalidCommand message
  else return .refused .unavailable "Payments writes have not been activated"

/-- An operation, when nothing else happens. -/
def execAlone (x : Outside) (o : ReservationStep) (w : World) : o.Reply × World :=
  match o with
  | .inl o => o.exec w
  | .inr o => o.exec x w

/-- A call, when nothing else happens: its reply, and the world that it leaves. -/
def reply (x : Outside) (command : ReserveCommand) (w : World) : Except String RpcResult × World :=
  (reserveAppPaymentAttempt x command).alone (execAlone x) w

/-! ### What a reply has to name -/

/-- The amount that a command asks for: its own where the payer chooses, that of the intent
otherwise. -/
def commandAmount (intent : PaymentIntent) (command : ReserveCommand) : Option Nat :=
  (effectiveIntent intent command.amount).toOption.map (·.amountAtomic)

/-- The attempt is still reserved, its window is open, and it settles what the command asks for. -/
structure Current (w : World) (command : ReserveCommand) (intent : PaymentIntent)
    (a : PaymentAttempt) : Prop where
  status : a.status = .reserved
  active : a.validAfter ≤ w.clock / 1000
  alive : w.clock / 1000 ≤ a.validUntil
  amount : commandAmount intent command = some a.settlementAmountAtomic

/-- An attempt that the command can execute: a current one of its payer on its chain, for the
intent of its link. -/
structure Executable (w : World) (command : ReserveCommand) (intent : PaymentIntent)
    (a : PaymentAttempt) : Prop extends Current w command intent a where
  intentOf : w.db.intents.find? (·.linkId == some command.linkId) = some intent
  payer : command.payerAddress = some a.payerAddress
  chain : a.sourceChainId = command.sourceChainId
  paysIntent : a.intentId = intent.id

/-- The attempt that a reply names can be executed. -/
def Names (w : World) (command : ReserveCommand) (value : ReservedAppPaymentAttempt) : Prop :=
  ∃ intent, ∃ a ∈ w.db.attempts, a.id = value.attemptId ∧ Executable w command intent a

/-- The attempt under the key of a command. -/
def underKey (intentId : IntentId) (payer : Address) (command : ReserveCommand)
    (a : PaymentAttempt) : Bool :=
  a.intentId == intentId && a.payerAddress == payer &&
    a.sourceChainId == command.sourceChainId && a.idempotencyKey == command.commandId

/-- The intent of the link and the attempt that a command finds, if there are such. -/
def replayOf (w : World) (command : ReserveCommand) : Option (PaymentIntent × PaymentAttempt) := do
  let _ ← w.db.links.find? (·.id == command.linkId)
  let intent ← w.db.intents.find? (·.linkId == some command.linkId)
  let payer ← command.payerAddress
  let attempt ← w.db.attempts.find? (underKey intent.id payer command)
  return (intent, attempt)

/-! ### A new attempt -/

section new

variable {x : Outside} {w w' : World} {uid : Uid} {command : ReserveCommand}
  {intent : PaymentIntent} {payer : Address} {value : ReservedAppPaymentAttempt}

/-- A repository function does in a reservation what it does alone. -/
theorem alone_repository {α : Type} (p : Repository α) :
    (repository p).alone (execAlone x) w = p.alone (fun o w => o.exec w) w := by
  unfold repository
  induction p generalizing w with
  | ret a => rfl
  | throw m => rfl
  | act o k ih => exact ih (o.exec w).1

theorem insertQuoteAndAttempt_rows {db db' : Db} {q : PaymentQuote} {t : AttemptTerms}
    (h : db.insertQuoteAndAttempt q t = some db') :
    db'.intents = db.intents ∧ ∃ a : PaymentAttempt, a.toAttemptTerms = t ∧ a.status = .reserved ∧
      db'.attempts.rows = db.attempts.rows ++ [a] := by
  simp only [Db.insertQuoteAndAttempt, Db.insertQuote, Db.insertAttempt, Option.bind_eq_bind,
    Option.bind_eq_some_iff] at h
  obtain ⟨db₁, ⟨_, _, quotes, _, quoted⟩, _, _, _, _, attempts, inserted, stored⟩ := h
  obtain rfl := Option.some.inj quoted
  obtain rfl := Option.some.inj stored
  exact ⟨rfl, _, rfl, rfl, (Table.insert_rows inserted).1⟩

/-- An attempt that was stored is the one that was to be stored, if there was none under its key. -/
theorem insertQuoteAndAttempt_stored {q : PaymentQuote} {t : AttemptTerms} {key : String}
    {stored : PaymentAttempt}
    (free : w.db.attempts.find? (fun a => a.intentId == t.intentId &&
      a.payerAddress == t.payerAddress && a.sourceChainId == t.sourceChainId &&
      a.idempotencyKey == key) = none)
    (h : (insertQuoteAndAttempt q t key).alone (fun o w => o.exec w) w = (.ok stored, w')) :
    stored ∈ w'.db.attempts ∧ stored.toAttemptTerms = t.requested key none ∧
      stored.status = .reserved ∧ w'.db.intents = w.db.intents ∧ w'.clock = w.clock := by
  unfold insertQuoteAndAttempt at h
  simp only [Prog.perform, bind, Prog.bind, Prog.alone, RepositoryOp.exec] at h
  cases inserted : w.db.insertQuoteAndAttempt q (t.requested key none) with
  | none =>
    simp only [inserted, RepositoryOp.commitBatch, getAttemptByIdempotency, Prog.perform, Prog.bind,
      Prog.alone, free] at h
    cases h
  | some db' =>
    obtain ⟨intents, a, terms, reserved, rows⟩ := insertQuoteAndAttempt_rows inserted
    simp only [inserted, RepositoryOp.commitBatch, getAttempt, Prog.perform, Prog.bind,
      Prog.alone] at h
    cases found : db'.attempts.find? (·.id == t.id) with
    | none =>
      rw [found] at h
      cases h
    | some b =>
      rw [found] at h
      cases h
      have matched := Table.of_find? found
      have id : stored.id = t.id := beq_iff_eq.1 matched
      have ha : a ∈ db'.attempts := (Table.mem_of_rows_append rows).2 (.inr rfl)
      have own : a.id = t.id := congrArg (·.id) terms
      obtain rfl : stored = a := attempt_eq (Table.mem_of_find? found) ha (id.trans own.symm)
      exact ⟨ha, terms, reserved, intents, rfl⟩

/-- What a quote repeats of its request. -/
theorem buildQuote_repeats {env : QuoteEngine.Bindings} {now : Timestamp}
    {circle : QuoteEngine.CircleReply} {request : QuoteRequest} {quote : QuoteEngine.PaymentQuote}
    (h : QuoteEngine.buildQuote env now circle request = .ok quote) :
    quote.payer = request.payer ∧ quote.sourceChainId = request.sourceChainId ∧
      quote.settlementAmountAtomic = request.intent.amountAtomic := by
  unfold QuoteEngine.buildQuote at h
  obtain ⟨-, h⟩ := revertIf_bind_eq_ok.1 h
  obtain ⟨source, -, h⟩ := bind_eq_ok.1 h
  obtain ⟨settlement, -, h⟩ := bind_eq_ok.1 h
  obtain ⟨-, h⟩ := revertIf_bind_eq_ok.1 h
  obtain ⟨-, h⟩ := revertIf_bind_eq_ok.1 h
  obtain ⟨-, h⟩ := revertIf_bind_eq_ok.1 h
  obtain ⟨-, h⟩ := revertIf_bind_eq_ok.1 h
  obtain ⟨route, -, h⟩ := bind_eq_ok.1 h
  obtain ⟨cap, -, h⟩ := bind_eq_ok.1 h
  obtain ⟨fee, -, h⟩ := bind_eq_ok.1 h
  obtain ⟨cctpFee, -, h⟩ := bind_eq_ok.1 h
  cases h
  exact ⟨rfl, rfl, rfl⟩

/-- The window of an authorization contains the time of its signature. -/
theorem authorizationWindow_open {env : QuoteEngine.Bindings} {now quoteExpiresAt : Timestamp}
    {window : Nat × Nat}
    (h : QuoteEngine.authorizationWindow env now intent quoteExpiresAt = .ok window) :
    window.1 ≤ now / 1000 ∧ now / 1000 ≤ window.2 := by
  unfold QuoteEngine.authorizationWindow at h
  obtain ⟨ttl, -, h⟩ := bind_eq_ok.1 h
  obtain ⟨-, h⟩ := revertIf_bind_eq_ok.1 h
  obtain ⟨later, h⟩ := revertIf_bind_eq_ok.1 h
  cases h
  refine ⟨Nat.sub_le _ _, ?_⟩
  simp only [Nat.not_le] at later
  exact (Nat.le_add_right _ 15).trans later.le

/-- What an attempt repeats of its intent and its quote. -/
theorem authorizeAttempt_repeats {env : QuoteEngine.Bindings} {outside : QuoteEngine.Outside Hash}
    {now : Timestamp} {id : AttemptId} {quote : QuoteEngine.PaymentQuote}
    {a : QuoteEngine.PaymentAttempt Hash}
    (h : QuoteEngine.authorizeAttempt env outside now id intent quote = .ok a) :
    a.intentId = intent.id ∧ a.payerAddress = quote.payer ∧
      a.sourceChainId = quote.sourceChainId ∧
      a.settlementAmountAtomic = quote.settlementAmountAtomic ∧
      a.validAfter ≤ now / 1000 ∧ now / 1000 ≤ a.validUntil := by
  unfold QuoteEngine.authorizeAttempt at h
  obtain ⟨-, h⟩ := revertIf_bind_eq_ok.1 h
  obtain ⟨source, found, h⟩ := bind_eq_ok.1 h
  obtain ⟨window, windowed, h⟩ := bind_eq_ok.1 h
  obtain ⟨account, -, h⟩ := bind_eq_ok.1 h
  obtain ⟨-, h⟩ := revertIf_bind_eq_ok.1 h
  obtain ⟨signed, -, h⟩ := bind_eq_ok.1 h
  cases h
  have network := (Option.filter_eq_some_iff.1 (orRevert_eq_ok.1 found)).1
  exact ⟨rfl, rfl, QuoteEngine.getPaymentNetworkCapabilities_chainId network, rfl,
    authorizationWindow_open windowed⟩

/-- The amount apart, the intent is the one that was read. -/
theorem effectiveIntent_ok {effective : PaymentIntent}
    (h : effectiveIntent intent command.amount = .ok effective) :
    effective.id = intent.id ∧ commandAmount intent command = some effective.amountAtomic := by
  refine ⟨?_, by rw [commandAmount, h]; rfl⟩
  unfold effectiveIntent at h
  split at h
  · split at h
    · cases h
    · rename_i decimal _
      cases selected : amount decimal with
      | error m => rw [selected] at h; cases h
      | ok s => rw [selected] at h; cases h; rfl
  · cases h
    rfl

/-- An error of the quote engine reserves nothing. -/
theorem alone_refusal_ne (e : EngineError) :
    (pure (refusal e) : Reservation RpcResult).alone (execAlone x) w ≠
      (.ok (.reserved value), w') := by
  intro h
  have reply : refusal e = .reserved value := Except.ok.inj (congrArg Prod.fst h)
  unfold refusal at reply
  split at reply <;> cases reply

/-- An attempt that is signed from a quote for the payer, on the chain and with the amount of the
command. -/
theorem authorizeAndStore_executable {effective : PaymentIntent} {quote : IssuedQuote}
    (linked : w.db.intents.find? (·.linkId == some command.linkId) = some intent)
    (payerOf : command.payerAddress = some payer)
    (free : w.db.attempts.find? (underKey intent.id payer command) = none)
    (same : effective.id = intent.id) (quotePayer : quote.payer = payer)
    (quoteChain : quote.sourceChainId = command.sourceChainId)
    (quoteAmount : commandAmount intent command = some quote.settlementAmountAtomic)
    (h : (authorizeAndStore uid command intent effective quote).alone (execAlone x) w =
      (.ok (.reserved value), w')) : Names w' command value := by
  unfold authorizeAndStore at h
  simp only [issue, Prog.perform, bind, Prog.bind, Prog.alone, execAlone,
    ReservationOp.exec] at h
  cases signed : QuoteEngine.authorizeAttempt x.bindings x.engine w.clock w.uuid effective
      quote.toPaymentQuote with
  | error e =>
    rw [signed] at h
    exact (alone_refusal_ne e h).elim
  | ok a =>
    rw [signed] at h
    obtain ⟨pays, attemptPayer, attemptChain, settles, begun, lasts⟩ :=
      authorizeAttempt_repeats signed
    simp only [Except.map] at h
    rcases run : (repository (insertQuoteAndAttempt _ _ command.commandId)).alone
      (execAlone x) _ with ⟨m | stored, v⟩
    · rw [Prog.alone_bind_error run] at h
      cases h
    · rw [Prog.alone_bind run] at h
      cases h
      rw [alone_repository] at run
      have key : (fun b : PaymentAttempt => b.intentId == a.intentId &&
          b.payerAddress == a.payerAddress && b.sourceChainId == a.sourceChainId &&
          b.idempotencyKey == command.commandId) = underKey intent.id payer command := by
        rw [pays, attemptPayer, attemptChain, same, quotePayer, quoteChain]
        rfl
      obtain ⟨there, terms, reserved, intents, clock⟩ :=
        insertQuoteAndAttempt_stored ((congrArg w.db.attempts.find? key).trans free) run
      refine ⟨intent, stored, there, rfl, ⟨⟨reserved, ?_, ?_, ?_⟩, ?_, ?_, ?_, ?_⟩⟩
      · rw [terms, clock]
        exact begun
      · rw [terms, clock]
        exact lasts
      · rw [terms, quoteAmount, ← settles]
        rfl
      · rw [intents]
        exact linked
      · rw [terms, payerOf]
        exact congrArg some (attemptPayer.trans quotePayer).symm
      · rw [terms]
        exact attemptChain.trans quoteChain
      · rw [terms]
        exact pays.trans same

/-- A new attempt can be executed. -/
theorem newAttempt_executable
    (linked : w.db.intents.find? (·.linkId == some command.linkId) = some intent)
    (payerOf : command.payerAddress = some payer)
    (free : w.db.attempts.find? (underKey intent.id payer command) = none)
    (h : (newAttempt uid command intent payer).alone (execAlone x) w =
      (.ok (.reserved value), w')) :
    Names w' command value := by
  unfold newAttempt at h
  cases chosen : effectiveIntent intent command.amount with
  | error m =>
    rw [chosen] at h
    cases h
  | ok effective =>
    obtain ⟨same, asked⟩ := effectiveIntent_ok chosen
    rw [chosen] at h
    simp only [issue, Prog.perform, bind, Prog.bind, Prog.alone, Prog.ofExcept, execAlone,
      ReservationOp.exec] at h
    cases built : QuoteEngine.buildQuote x.bindings w.clock x.circle
      { intent := effective, payer := payer, sourceChainId := command.sourceChainId
        requestedRoute := .auto } with
    | error e =>
      rw [built] at h
      exact (alone_refusal_ne e h).elim
    | ok quote =>
      rw [built] at h
      obtain ⟨quotePayer, quoteChain, quoteAmount⟩ := buildQuote_repeats built
      simp only [Except.map] at h
      split at h
      · cases h
      · exact authorizeAndStore_executable (w := { w with uuid := w.uuid + 1 }) linked payerOf free
          same quotePayer quoteChain (asked.trans (congrArg some quoteAmount.symm)) h

/-! ### A reply -/

/-- An attempt under the key is the reply, and nothing changes. -/
theorem reserveOf_replayed {replay : PaymentAttempt}
    (linked : w.db.intents.find? (·.linkId == some command.linkId) = some intent)
    (under : w.db.attempts.find? (underKey intent.id payer command) = some replay) :
    (reserveOf uid command intent payer).alone (execAlone x) w =
      (.ok (.reserved (reservedOf replay intent command.linkId)), w) := by
  have read : (repository (getAttemptByIdempotency intent.id payer command.sourceChainId
      command.commandId)).alone (execAlone x) w = (.ok (some replay), w) :=
    congrArg (fun found => (Except.ok found, w)) under
  unfold reserveOf
  refine (Prog.alone_bind read).trans ?_
  simp only [releaseUnless, issue, Prog.perform, bind, Prog.bind, pure, Prog.alone, execAlone,
    ReservationOp.exec, linked]

/-- The release of what an intent no longer needs touches no key of an attempt. -/
theorem find?_released {p : PaymentAttempt → Bool}
    (keyed : ∀ a a' : PaymentAttempt, a'.toAttemptTerms = a.toAttemptTerms → p a' = p a)
    (intentId : IntentId) (nowSeconds : Nat) (free : w.db.attempts.find? p = none) :
    (w.db.releaseExpiredPayerDefinedAmount intentId nowSeconds).attempts.find? p = none := by
  cases found : (w.db.releaseExpiredPayerDefinedAmount intentId nowSeconds).attempts.find? p with
  | none => rfl
  | some a' =>
    have matched := Table.of_find? found
    obtain ⟨a, ha, rfl⟩ := (Table.mem_of_rewritten (by exact rfl)).1 (Table.mem_of_find? found)
    rw [keyed a _ (by split <;> rfl), Table.not_of_find?_none free ha] at matched
    cases matched

/-- The intent of a link stays what it is created with. -/
theorem linked_released {intentId : IntentId} {nowSeconds : Nat} {linkId : LinkId}
    (linked : w.db.intents.find? (·.linkId == some linkId) = some intent) :
    ∃ intent', (w.db.releaseExpiredPayerDefinedAmount intentId nowSeconds).intents.find?
      (·.linkId == some linkId) = some intent' ∧ intent'.id = intent.id := by
  have matched := Table.of_find? linked
  have link : intent.linkId = some linkId := beq_iff_eq.1 matched
  have rows : (w.db.releaseExpiredPayerDefinedAmount intentId nowSeconds).intents.rows =
      w.db.intents.rewritten _ _ := rfl
  have there := (Table.mem_of_rewritten rows).2 ⟨intent, Table.mem_of_find? linked, rfl⟩
  refine ⟨_, Table.find?_of_key there ?_ fun r' same => ?_, ?_⟩
  · rw [beq_iff_eq]
    split <;> exact link
  · have linked' : r'.linkId = some linkId := beq_iff_eq.1 same
    have kept : sameValue r'.linkId (some linkId) = true := by
      rw [linked']
      exact beq_self_eq_true linkId
    split <;> simp [Row.clash, link, kept]
  · split <;> rfl

/-- Without one the reply is a new attempt. -/
theorem reserveOf_executable
    (linked : w.db.intents.find? (·.linkId == some command.linkId) = some intent)
    (payerOf : command.payerAddress = some payer)
    (free : w.db.attempts.find? (underKey intent.id payer command) = none)
    (h : (reserveOf uid command intent payer).alone (execAlone x) w = (.ok (.reserved value), w')) :
    Names w' command value := by
  have read : (repository (getAttemptByIdempotency intent.id payer command.sourceChainId
      command.commandId)).alone (execAlone x) w = (.ok none, w) :=
    congrArg (fun found => (Except.ok found, w)) free
  obtain ⟨intent', linked', same⟩ := @linked_released w intent intent.id
    (w.clock / 1000) command.linkId linked
  have free' : (w.db.releaseExpiredPayerDefinedAmount intent.id (w.clock / 1000)).attempts.find?
      (underKey intent'.id payer command) = none := by
    rw [same]
    refine find?_released (fun a a' terms => ?_) _ _ free
    simp only [underKey, terms]
  unfold reserveOf at h
  replace h := (Prog.alone_bind read).symm.trans h
  simp only [releaseUnless, repository, issue, releaseExpiredPayerDefinedAmount, nowIso,
    Prog.perform, Prog.inl, bind, Prog.bind, Prog.alone, execAlone, RepositoryOp.exec,
    ReservationOp.exec, linked'] at h
  exact newAttempt_executable linked' payerOf free' h

/-- What the call does before it has an intent and a payer. -/
theorem reserve_cases :
    (replayOf w command = none ∧
        ∀ value w', (reserve uid command).alone (execAlone x) w ≠ (.ok (.reserved value), w')) ∨
      ∃ intent payer, w.db.intents.find? (·.linkId == some command.linkId) = some intent ∧
        command.payerAddress = some payer ∧
        replayOf w command = (w.db.attempts.find? (underKey intent.id payer command)).map
          (intent, ·) ∧
        (reserve uid command).alone (execAlone x) w =
          (reserveOf uid command intent payer).alone (execAlone x) w := by
  unfold replayOf reserve
  simp only [repository, issue, getPaymentLink, Prog.perform, Prog.inl, bind, Prog.bind, Prog.alone,
    execAlone, RepositoryOp.exec]
  cases linkFound : w.db.links.find? (·.id == command.linkId) with
  | none => exact .inl ⟨rfl, fun _ _ h => by cases h⟩
  | some link =>
    simp only [Prog.alone, execAlone, ReservationOp.exec]
    cases linked : w.db.intents.find? (·.linkId == some command.linkId) with
    | none => exact .inl ⟨rfl, fun _ _ h => by cases h⟩
    | some intent =>
      cases payerOf : command.payerAddress with
      | none => exact .inl ⟨rfl, fun _ _ h => by cases h⟩
      | some payer =>
        refine .inr ⟨intent, payer, rfl, rfl, ?_, rfl⟩
        show (w.db.attempts.find? (underKey intent.id payer command)).bind _ = _
        cases w.db.attempts.find? (underKey intent.id payer command) <;> rfl

/-- The replies of the part of the call inside the `try`: an attempt under the key if there is
one, and otherwise only an attempt that can be executed. -/
theorem reserve_replayed {replay : PaymentAttempt}
    (found : replayOf w command = some (intent, replay)) :
    (reserve uid command).alone (execAlone x) w =
      (.ok (.reserved (reservedOf replay intent command.linkId)), w) := by
  rcases @reserve_cases x w uid command with
    ⟨none, -⟩ | ⟨i, payer, linked, payerOf, replays, run⟩
  · rw [none] at found
    cases found
  · rw [replays] at found
    obtain ⟨a, under, same⟩ := Option.map_eq_some_iff.1 found
    cases same
    exact run.trans (reserveOf_replayed linked under)

theorem reserve_executable (none : replayOf w command = none)
    (h : (reserve uid command).alone (execAlone x) w = (.ok (.reserved value), w')) :
    Names w' command value := by
  rcases @reserve_cases x w uid command with
    ⟨-, refused⟩ | ⟨i, payer, linked, payerOf, replays, run⟩
  · exact (refused value w' h).elim
  · rw [replays, Option.map_eq_none_iff] at none
    exact reserveOf_executable linked payerOf none (run.symm.trans h)

/-- The attempt that a replay names is the one under the key. -/
theorem names_replay {replay : PaymentAttempt}
    (found : replayOf w command = some (intent, replay)) :
    Names w command (reservedOf replay intent command.linkId) ↔
      Current w command intent replay := by
  unfold replayOf at found
  simp only [Option.bind_eq_bind, Option.bind_eq_some_iff] at found
  obtain ⟨link, -, i, linked, payer, payerOf, a, under, same⟩ := found
  cases same
  have stored : replay ∈ w.db.attempts := Table.mem_of_find? under
  have key := Table.of_find? under
  simp only [underKey, Bool.and_eq_true, beq_iff_eq] at key
  obtain ⟨⟨⟨pays, payerIs⟩, chain⟩, -⟩ := key
  constructor
  · rintro ⟨i', a, ha, id, executable⟩
    obtain rfl : a = replay := attempt_eq ha stored id
    obtain rfl : i' = intent := Option.some.inj (executable.intentOf.symm.trans linked)
    exact executable.toCurrent
  · intro current
    exact ⟨intent, replay, stored, rfl, current, linked, payerOf.trans (congrArg some payerIs.symm),
      chain, pays⟩

/-- A call that replies with an attempt: it is for a command that is well formed, and the part
inside the `try` ends with that attempt. -/
theorem reply_reserved (h : reply x command w = (.ok (.reserved value), w')) :
    x.available = true ∧ ∃ uid normalized,
      normalizeReserveCommand x command = some (uid, normalized) ∧
      (reserve uid normalized).alone (execAlone x) w = (.ok (.reserved value), w') := by
  unfold reply reserveAppPaymentAttempt at h
  simp only [issue, Prog.perform, bind, Prog.bind, Prog.alone, execAlone, ReservationOp.exec] at h
  by_cases opened : x.available = true
  · simp only [opened, if_true] at h
    cases well : normalizeReserveCommand x command with
    | none =>
      rw [well] at h
      cases h
    | some claimed =>
      obtain ⟨uid, normalized⟩ := claimed
      rw [well] at h
      refine ⟨opened, uid, normalized, rfl, ?_⟩
      rcases run : (reserve uid normalized).alone (execAlone x) w with ⟨m | result, w''⟩
      · cases (Prog.alone_tryCatch_error run).symm.trans h
      · exact (Prog.alone_tryCatch run).symm.trans h
  · simp only [Bool.eq_false_of_not_eq_true opened, Bool.false_eq_true, if_false] at h
    cases h

/-- The reply of a command that is well formed. -/
theorem reply_of_reserve {normalized : ReserveCommand} (opened : x.available = true)
    (well : normalizeReserveCommand x command = some (uid, normalized))
    (run : (reserve uid normalized).alone (execAlone x) w = (.ok (.reserved value), w')) :
    reply x command w = (.ok (.reserved value), w') := by
  unfold reply reserveAppPaymentAttempt
  simp only [issue, Prog.perform, bind, Prog.bind, Prog.alone, execAlone, ReservationOp.exec,
    opened, if_true, well]
  exact Prog.alone_tryCatch run

/-- The attempt of a reply can be executed exactly if the one that the command finds under its
key, when there is one, is still current. -/
theorem reply_executable_iff (x : Outside) (command : ReserveCommand) (w : World) :
    (∀ value, (reply x command w).1 = .ok (.reserved value) → ∃ uid normalized,
        normalizeReserveCommand x command = some (uid, normalized) ∧
          Names (reply x command w).2 normalized value) ↔
      ∀ uid normalized intent replay, x.available = true →
        normalizeReserveCommand x command = some (uid, normalized) →
        replayOf w normalized = some (intent, replay) → Current w normalized intent replay := by
  constructor
  · intro executable uid normalized intent replay opened well found
    have replies := reply_of_reserve opened well (reserve_replayed found)
    obtain ⟨uid', normalized', well', names⟩ := executable _ (congrArg Prod.fst replies)
    cases well.symm.trans well'
    rw [replies] at names
    exact (names_replay found).1 names
  · intro current value h
    rcases replied : reply x command w with ⟨result, w'⟩
    rw [replied] at h
    cases h
    obtain ⟨opened, uid, normalized, well, run⟩ := reply_reserved replied
    refine ⟨uid, normalized, well, ?_⟩
    cases found : replayOf w normalized with
    | none => exact reserve_executable found run
    | some both =>
      obtain ⟨intent, replay⟩ := both
      -- the reply is the attempt under the key, in the world as it was
      obtain ⟨named, same⟩ := Prod.mk.inj (run.symm.trans (reserve_replayed found))
      subst same
      cases named
      exact (names_replay found).2 (current uid normalized intent replay opened well found)

end new

/-! ### A window that is closed -/

/-- The configuration of the tests of the quote engine, with a router that takes the cap that is
declared. -/
def appOutside : Outside where
  available := true
  settlementChainId := 421614
  bindings := QuoteEngine.sepoliaBindings
  circle := .unreachable
  engine := { QuoteEngine.testOutside with
    observe target := (QuoteEngine.testOutside.observe target).map
      ({ · with maxPlatformFeeBps := some target.declaredMaxPlatformFeeBps }) }
  hashQuote id _ := id
  hashTypedData
    | .onchain a => a.attemptId
    | .cctp a => a.attemptId
  hashUuid id := id.2
  legacyCommandId _ := ""

/-- A fixed intent of ten dollars with a link. -/
def linkedIntent : CreateIntentInput where
  merchant := { id := 1, ownerUid := 2, settlementWallet := 3, settlementChainId := 421614
                accountVersion := 1 }
  amount := QuoteEngine.tenDollars
  reference := ""
  metadata := ""
  expiresAt := 90000000
  idempotencyKey := none
  mode := .test
  intentId := some 10
  linkId := some 11

/-- What the App sends for user 7 and link 11 without a key of its own. -/
def prepareCommand : ReserveCommand where
  contractVersion := 2
  claim := some 7
  commandId := "prepare:7:11:active"
  linkId := 11
  payerAddress := some 23
  amount := none
  sourceChainId := 421614

/-- The intent is created. -/
def createdWorld : World :=
  ((createIntentAndLink linkedIntent).alone (fun o w => o.exec w) (World.initial 100000)).2

/-- The command has been answered, and a quarter of an hour has passed. -/
def laterWorld : World := { (reply appOutside prepareCommand createdWorld).2 with clock := 1000000 }

set_option maxRecDepth 4000 in
/-- The command is answered once more with the attempt that it was answered with, whose window
is closed. -/
theorem closedWindow_replayed :
    ∃ value, (reply appOutside prepareCommand laterWorld).1 = .ok (.reserved value) ∧
      ¬ ∃ uid normalized, normalizeReserveCommand appOutside prepareCommand =
        some (uid, normalized) ∧ Names (reply appOutside prepareCommand laterWorld).2 normalized
          value := by
  have window : (replayOf laterWorld prepareCommand).map (·.2.validUntil) = some 220 := by
    decide +kernel
  obtain ⟨⟨intent, replay⟩, found, closed⟩ := Option.map_eq_some_iff.1 window
  have asked : normalizeReserveCommand appOutside prepareCommand = some (7, prepareCommand) := rfl
  have replies := reply_of_reserve rfl asked (reserve_replayed found)
  refine ⟨_, congrArg Prod.fst replies, ?_⟩
  rintro ⟨uid, normalized, well, names⟩
  cases well
  rw [replies] at names
  have alive : 1000 ≤ replay.validUntil := ((names_replay found).1 names).alive
  rw [show replay.validUntil = 220 from closed] at alive
  omega

end ParmeliaLinks.Payments.Reservations
