/-
ParmeliaLinks/Payments/Attestation.lean

The attestation of a burn.  The source chain emits a message in which four fields are
left empty for the attester: the nonce, the finality at which it attests, the fee it
takes and the block at which the message expires.  Circle's API then answers with the
message as it is attested, and with its decoding.

The worker stores the hash of the message that was emitted, and compares it with the
hash of the attested message, whole.  So it takes no message in which the attester has
filled in anything; and the fee that it records is what the burned amount exceeds the
amount of the message by, which is nothing, since a message keeps the burned amount.
An attested message is handled as it should be exactly if it is the one that was
emitted (`attestation_handled_iff`).
-/
import ParmeliaLinks.Lib.Abi
import ParmeliaLinks.Lib.Alone
import ParmeliaLinks.Payments.Handlers

namespace ParmeliaLinks.Payments

/-! ### Texts in pieces -/

/-- Two sequences of pieces with the same lengths are equal when their texts are. -/
theorem flatten_inj_of_lengths {α : Type} {xs ys : List (List α)}
    (lengths : xs.map List.length = ys.map List.length) (same : xs.flatten = ys.flatten) :
    xs = ys := by
  induction xs generalizing ys with
  | nil =>
    cases ys with
    | nil => rfl
    | cons y ys => cases lengths
  | cons x xs ih =>
    cases ys with
    | nil => cases lengths
    | cons y ys =>
      rw [List.map_cons, List.map_cons, List.cons.injEq] at lengths
      obtain ⟨first, rest⟩ := List.append_inj same lengths.1
      rw [first, ih lengths.2 rest]

local instance hexDigits : NeZero 16 := ⟨by decide⟩

/-- The digits of a byte string. -/
def hexOf : Bytes → Hex
  | [] => []
  | b :: bytes => Fin.ofNat 16 (b.toNat / 16) :: Fin.ofNat 16 (b.toNat % 16) :: hexOf bytes

theorem length_hexOf (bytes : Bytes) : (hexOf bytes).length = 2 * bytes.length := by
  induction bytes with
  | nil => rfl
  | cons b bytes ih =>
    rw [hexOf, List.length_cons, List.length_cons, ih, List.length_cons]
    omega

theorem hexOf_inj {xs ys : Bytes} (same : hexOf xs = hexOf ys) : xs = ys := by
  induction xs generalizing ys with
  | nil =>
    cases ys with
    | nil => rfl
    | cons y ys => cases same
  | cons x xs ih =>
    cases ys with
    | nil => cases same
    | cons y ys =>
      rw [hexOf, hexOf, List.cons.injEq, List.cons.injEq] at same
      obtain ⟨high, low, rest⟩ := same
      have hx := x.toNat_lt
      have hy := y.toNat_lt
      have high := congrArg Fin.val high
      have low := congrArg Fin.val low
      simp only [Fin.val_ofNat] at high low
      have bytes : x = y := by
        apply UInt8.toNat_inj.1
        omega
      rw [bytes, ih rest]

/-! ### Messages -/

/-- MessageV2 around BurnMessageV2. -/
structure CctpMessage where
  version : BitVec 32
  sourceDomain : BitVec 32
  destinationDomain : BitVec 32
  nonce : BitVec 256
  sender : BitVec 256
  recipient : BitVec 256
  destinationCaller : BitVec 256
  minFinalityThreshold : BitVec 32
  finalityThresholdExecuted : BitVec 32
  bodyVersion : BitVec 32
  burnToken : BitVec 256
  mintRecipient : BitVec 256
  amount : BitVec 256
  messageSender : BitVec 256
  maxFee : BitVec 256
  feeExecuted : BitVec 256
  expirationBlock : BitVec 256
  hookData : Bytes
  deriving DecidableEq

namespace CctpMessage

variable (m : CctpMessage)

/-- The fields of fixed length, in their order. -/
def pieces : List Bytes :=
  [tight m.version, tight m.sourceDomain, tight m.destinationDomain, tight m.nonce,
    tight m.sender, tight m.recipient, tight m.destinationCaller, tight m.minFinalityThreshold,
    tight m.finalityThresholdExecuted, tight m.bodyVersion, tight m.burnToken,
    tight m.mintRecipient, tight m.amount, tight m.messageSender, tight m.maxFee,
    tight m.feeExecuted, tight m.expirationBlock]

/-- The bytes of the message, as the API and the event write them. -/
def hex : Hex := hexOf (m.pieces.flatten ++ m.hookData)

/-- The message as the source chain emits it: nothing is attested yet. -/
def Unattested : Prop :=
  m.nonce = 0 ∧ m.finalityThresholdExecuted = 0 ∧ m.feeExecuted = 0 ∧ m.expirationBlock = 0

/-- The other message says the same in every field that is not the attester's. -/
def AgreesOutside (m' : CctpMessage) : Prop :=
  m' = { m with
    nonce := m'.nonce, finalityThresholdExecuted := m'.finalityThresholdExecuted
    feeExecuted := m'.feeExecuted, expirationBlock := m'.expirationBlock }

/-- What the API answers for a message, once it is attested. -/
def item (attestation : Hex) : CircleCctpMessage where
  message := some m.hex
  attestation := some attestation
  complete := true
  cctpVersion := 2
  sourceDomain := some m.sourceDomain.toNat
  destinationDomain := some m.destinationDomain.toNat
  burnToken := some m.burnToken.toNat
  mintRecipient := some m.mintRecipient.toNat
  messageSender := some m.messageSender.toNat
  amount := some m.amount.toNat

variable {m}

theorem length_tight {w : Nat} (x : BitVec w) : (tight x).length = w / 8 := length_bigEndian _ _

theorem lengths_pieces (m m' : CctpMessage) :
    m.pieces.map List.length = m'.pieces.map List.length := by
  simp only [pieces, List.map_cons, List.map_nil, length_tight]

theorem hex_inj {m' : CctpMessage} (same : m.hex = m'.hex) : m = m' := by
  have bytes := hexOf_inj same
  have total : m.pieces.flatten.length = m'.pieces.flatten.length := by
    rw [List.length_flatten, List.length_flatten, lengths_pieces m m']
  obtain ⟨front, hooks⟩ := List.append_inj bytes total
  have fields := flatten_inj_of_lengths (lengths_pieces m m') front
  simp only [pieces, List.cons.injEq, and_true] at fields
  obtain ⟨h₁, h₂, h₃, h₄, h₅, h₆, h₇, h₈, h₉, h₁₀, h₁₁, h₁₂, h₁₃, h₁₄, h₁₅, h₁₆, h₁₇⟩ := fields
  have narrow : 8 ∣ 32 := by decide
  have wide : 8 ∣ 256 := by decide
  cases m
  cases m'
  rw [CctpMessage.mk.injEq]
  exact ⟨tight_inj narrow h₁, tight_inj narrow h₂, tight_inj narrow h₃, tight_inj wide h₄,
    tight_inj wide h₅, tight_inj wide h₆, tight_inj wide h₇, tight_inj narrow h₈,
    tight_inj narrow h₉, tight_inj narrow h₁₀, tight_inj wide h₁₁, tight_inj wide h₁₂,
    tight_inj wide h₁₃, tight_inj wide h₁₄, tight_inj wide h₁₅, tight_inj wide h₁₆,
    tight_inj wide h₁₇, hooks⟩

/-- The nonce of a message can be read from it. -/
theorem length_hex (m : CctpMessage) : 88 ≤ m.hex.length := by
  rw [hex, length_hexOf, List.length_append, List.length_flatten]
  simp only [pieces, List.map_cons, List.map_nil, length_tight, List.sum_cons, List.sum_nil]
  omega

end CctpMessage

/-! ### Burns -/

/-- What is known about a burn whose message was emitted: the rows of its operation, attempt
and intent, the networks, and that the message is the one of the attempt. -/
structure Burned (config : Config) (w : Site) (operation : CrosschainOperation)
    (attempt : PaymentAttempt) (intent : PaymentIntent) (source destination : NetworkCapabilities)
    (sourceTxHash : Hash) (m : CctpMessage) : Prop where
  operationRow : w.operations.find? (·.attemptId == operation.attemptId) = some operation
  open_ : operation.status ≠ .settled
  sourceTx : operation.sourceTxHash = some sourceTxHash
  messageHash : operation.messageHash = some (config.keccak256 m.hex)
  burnAmount : operation.burnAmountAtomic = some m.amount.toNat
  platformFee : operation.platformFeeAtomic = some attempt.platformFeeAtomic
  attemptRow : w.payments.db.attempts.find? (·.id == operation.attemptId) = some attempt
  intentRow : w.payments.db.intents.find? (·.id == attempt.intentId) = some intent
  sourceNetwork : config.getPaymentNetworkCapabilities operation.sourceChainId = some source
  destinationNetwork : config.getPaymentNetworkCapabilities operation.destinationChainId = some destination
  unattested : m.Unattested
  sourceDomain : m.sourceDomain.toNat = source.cctpDomain
  destinationDomain : m.destinationDomain.toNat = destination.cctpDomain
  burnToken : m.burnToken.toNat = source.usdc
  mintRecipient : m.mintRecipient.toNat = intent.settlementWallet
  messageSender : m.messageSender.toNat = attempt.routerAddress
  amount : attempt.settlementAmountAtomic ≤ m.amount.toNat
  maxFee : m.maxFee.toNat = attempt.cctpFeeAtomic

/-- The API lists the message, and no other that answers the operation; the queue takes jobs. -/
structure Answers (x : Outside) (attempt : PaymentAttempt) (intent : PaymentIntent)
    (source destination : NetworkCapabilities) (sourceTxHash : Hash) (item : CircleCctpMessage) :
    Prop where
  listed : ∃ messages, x (.getCctpMessages source.cctpDomain sourceTxHash) = some (some messages) ∧
    item ∈ messages ∧ ∀ other ∈ messages,
      other.answers attempt.toAttemptTerms intent.toIntentTerms source destination = true →
        other = item
  enqueued : ∀ job, x (.sendJob job) = some ()

/-- What a run of `advanceCctpAttestation` ends with, alone. -/
def attested (config : Config) (x : Outside) (opId : AttemptId) (w : Site) : Except String Bool × Site :=
  (Worker.advanceCctpAttestation config opId).alone (fun o w => w.exec o x) w

/-- The operation mints the attested message, less its fee, which is the fee on record. -/
structure Accepted (m : CctpMessage) (operation : CrosschainOperation) (ended : Except String Bool × Site) :
    Prop where
  done : ended.1 = .ok true
  minting : ∃ r ∈ ended.2.operations, r.attemptId = operation.attemptId ∧ r.status = .minting ∧
    r.message = some m.hex ∧ r.networkFeeAtomic = some m.feeExecuted.toNat ∧
    r.mintedAmountAtomic = some (m.amount.toNat - m.feeExecuted.toNat)
  charged : ∀ r ∈ ended.2.payments.db.feeLedger, r.attemptId = operation.attemptId →
    r.type = .network → r.actualAmountAtomic = some m.feeExecuted.toNat

/-- The message is not taken, and nothing is written. -/
structure Rejected (w : Site) (ended : Except String Bool × Site) : Prop where
  refused : ended.1 ≠ .ok true
  unchanged : ended.2 = w

/-- An attested message is handled as it should be: taken with its fee if it agrees with the
emitted one outside the attester's fields, and refused if it does not. -/
structure Handled (m m' : CctpMessage) (operation : CrosschainOperation) (w : Site)
    (ended : Except String Bool × Site) : Prop where
  accepts : m.AgreesOutside m' → m'.feeExecuted.toNat ≤ m'.maxFee.toNat → Accepted m' operation ended
  rejects : ¬ m.AgreesOutside m' → Rejected w ended

/-! ### The run -/

section Run

variable {config : Config} {w : Site} {operation : CrosschainOperation} {attempt : PaymentAttempt}
  {intent : PaymentIntent} {source destination : NetworkCapabilities} {sourceTxHash : Hash}
  {m m' : CctpMessage} {x : Outside} {attestation : Hex}

/-- The part of the handler behind its reads. -/
def takeMessages (config : Config) (operation : CrosschainOperation) (attempt : PaymentAttempt)
    (intent : PaymentIntent) (source destination : NetworkCapabilities) (sourceTxHash : Hash)
    (messages : List CircleCctpMessage) : Worker Bool := do
  let some candidate := messages.find? fun item =>
      item.answers attempt.toAttemptTerms intent.toIntentTerms source destination
    | return false
  let some message := candidate.message | return false
  if operation.messageHash.any (config.keccak256 message ≠ ·) then
    throw "Circle message does not match the source MessageSent event" else
  let some burnAmount := operation.burnAmountAtomic
    | throw "CCTP burn economic evidence is incomplete"
  let some platformFee := operation.platformFeeAtomic
    | throw "CCTP burn economic evidence is incomplete"
  let some mintedAmount := candidate.amount | throw "Cannot convert undefined to a BigInt"
  if burnAmount < mintedAmount ∨ attempt.cctpFeeAtomic < burnAmount - mintedAmount then
    throw "Circle message fee does not match the signed quote" else
  let networkFee := burnAmount - mintedAmount
  Worker.repository (recordAttemptFeeEvidence attempt.id platformFee (some networkFee) sourceTxHash)
  let messageNonce ← .ofExcept (Worker.cctpMessageNonce message)
  Worker.updateCrosschainOperation operation.attemptId
    { status := .minting, message := some message, attestation := candidate.attestation
      networkFeeAtomic := some networkFee, messageNonce := some messageNonce
      mintedAmountAtomic := some mintedAmount }
  Worker.orFail (← Worker.outside (.sendJob (.mint operation.attemptId (config.keccak256 message))))
  return true

theorem alone_outside (x : Outside) {o : OutsideOp} {reply : o.Reply} (answer : x o = reply) :
    (Worker.outside o).alone (fun o w => w.exec o x) w = (.ok reply, w) := by
  rw [← answer]
  rfl

theorem alone_getCrosschainOperation {opId : AttemptId}
    (row : w.operations.find? (·.attemptId == opId) = some operation) :
    (Worker.getCrosschainOperation opId).alone (fun o w => w.exec o x) w = (.ok operation, w) := by
  have read : (Worker.relay (.selectOperation opId)).alone (fun o w => w.exec o x) w =
      (.ok (some operation), w) := by
    show ((.ok (w.operations.find? (·.attemptId == opId)), w) : Except String _ × Site) = _
    rw [row]
  unfold Worker.getCrosschainOperation
  rw [Prog.bind_eq, Prog.alone_bind read]
  rfl

theorem alone_getAttempt {id : AttemptId}
    (row : w.payments.db.attempts.find? (·.id == id) = some attempt) :
    (Worker.repository (getAttempt id)).alone (fun o w => w.exec o x) w = (.ok (some attempt), w) := by
  show ((.ok (w.payments.db.attempts.find? (·.id == id)), w) : Except String _ × Site) = _
  rw [row]

theorem alone_getPaymentIntent {id : IntentId}
    (row : w.payments.db.intents.find? (·.id == id) = some intent) :
    (Worker.repository (getPaymentIntent id)).alone (fun o w => w.exec o x) w =
      (.ok (some intent), w) := by
  show ((.ok (w.payments.db.intents.find? (·.id == id)), w) : Except String _ × Site) = _
  rw [row]

theorem alone_operationAttempt
    (attemptRow : w.payments.db.attempts.find? (·.id == operation.attemptId) = some attempt)
    (intentRow : w.payments.db.intents.find? (·.id == attempt.intentId) = some intent) :
    (Worker.operationAttempt operation).alone (fun o w => w.exec o x) w =
      (.ok (some (attempt, intent)), w) := by
  unfold Worker.operationAttempt
  rw [Prog.bind_eq, Prog.alone_bind (alone_getAttempt attemptRow)]
  show Prog.alone _ (Prog.bind _ _) w = _
  rw [Prog.alone_bind (alone_getPaymentIntent intentRow)]
  rfl

theorem attested_eq
    (burned : Burned config w operation attempt intent source destination sourceTxHash m)
    {messages : List CircleCctpMessage}
    (listed : x (.getCctpMessages source.cctpDomain sourceTxHash) = some (some messages)) :
    attested config x operation.attemptId w =
      (takeMessages config operation attempt intent source destination sourceTxHash
        messages).alone (fun o w => w.exec o x) w := by
  unfold attested Worker.advanceCctpAttestation
  rw [Prog.bind_eq, Prog.alone_bind (alone_getCrosschainOperation burned.operationRow),
    if_neg burned.open_, burned.sourceTx]
  show Prog.alone _ (Prog.bind _ _) w = _
  rw [Prog.alone_bind (alone_operationAttempt burned.attemptRow burned.intentRow),
    burned.sourceNetwork, burned.destinationNetwork]
  exact Prog.alone_bind (alone_outside x listed)

/-- An item that answers is the one that is taken. -/
theorem find?_of_only {messages : List CircleCctpMessage} {item : CircleCctpMessage}
    {p : CircleCctpMessage → Bool} (member : item ∈ messages)
    (only : ∀ other ∈ messages, p other = true → other = item) :
    messages.find? p = if p item then some item else none := by
  cases found : messages.find? p with
  | none =>
    have absent := List.find?_eq_none.1 found item member
    rw [if_neg absent]
  | some other =>
    have matched := List.find?_some found
    obtain rfl := only other (List.mem_of_find?_eq_some found) matched
    rw [if_pos matched]

theorem rejected_error (w : Site) (e : String) : Rejected w (.error e, w) where
  refused := by rintro ⟨⟩
  unchanged := rfl

theorem rejected_false (w : Site) : Rejected w (.ok false, w) where
  refused := by rintro ⟨⟩
  unchanged := rfl

/-- Whatever does not have the hash of the emitted message is refused. -/
theorem rejected_of_hash
    (burned : Burned config w operation attempt intent source destination sourceTxHash m)
    (answers : Answers x attempt intent source destination sourceTxHash (m'.item attestation))
    (other : config.keccak256 m'.hex ≠ config.keccak256 m.hex) :
    Rejected w (attested config x operation.attemptId w) := by
  obtain ⟨messages, listed, member, only⟩ := answers.listed
  rw [attested_eq burned listed]
  unfold takeMessages
  rw [find?_of_only member only]
  split
  · -- the item answers, and its hash is another one
    rename_i candidate found
    split at found
    · obtain rfl := Option.some.inj found
      have differs : operation.messageHash.any (config.keccak256 m'.hex ≠ ·) = true := by
        rw [burned.messageHash, Option.any_some]
        exact decide_eq_true other
      show Rejected w (Prog.alone _ (if _ then _ else _) w)
      rw [if_pos differs]
      exact rejected_error w _
    · cases found
  · exact rejected_false w

/-- The emitted message itself answers. -/
theorem answers_emitted
    (burned : Burned config w operation attempt intent source destination sourceTxHash m) :
    (m.item attestation).answers attempt.toAttemptTerms intent.toIntentTerms source destination =
      true := by
  simp only [CircleCctpMessage.answers, CctpMessage.item, burned.sourceDomain,
    burned.destinationDomain, burned.burnToken, burned.mintRecipient, burned.messageSender,
    Option.isSome_some, Option.getD_some, beq_self_eq_true, Bool.and_self, Bool.true_and]
  exact decide_eq_true burned.amount

/-- The world with the fee evidence of an attempt whose attester took nothing. -/
def charged (attempt : PaymentAttempt) (sourceTxHash : Hash) (w : Site) : Site :=
  { w with worker := { w.worker with payments := { w.worker.payments with
      db := w.worker.payments.db.recordAttemptFeeEvidence attempt.id attempt.platformFeeAtomic
        (some 0) sourceTxHash } } }

/-- What the operation is given when the emitted message is taken. -/
def taken (m : CctpMessage) (attestation nonce : Hex) : OperationFields where
  status := .minting
  message := some m.hex
  attestation := some attestation
  networkFeeAtomic := some 0
  messageNonce := some nonce
  mintedAmountAtomic := some m.amount.toNat

theorem alone_recordFee
    (attemptRow : w.payments.db.attempts.find? (·.id == attempt.id) = some attempt) :
    (Worker.repository (recordAttemptFeeEvidence attempt.id attempt.platformFeeAtomic (some 0)
        sourceTxHash)).alone (fun o w => w.exec o x) w =
      (.ok (), charged attempt sourceTxHash w) := by
  unfold recordAttemptFeeEvidence
  rw [Prog.bind_eq]
  show Prog.alone _ (Prog.inl (Prog.bind _ _)) w = _
  rw [Prog.inl_bind, Prog.alone_bind (alone_getAttempt attemptRow)]
  have within : ¬ ((some 0 : Option Nat).any (attempt.cctpFeeAtomic < ·) = true) := by
    rw [Option.any_some]
    simp
  show Prog.alone _ (Prog.inl (if _ then _ else if _ then _ else _)) w = _
  rw [if_neg (fun differs => differs rfl), if_neg within]
  rfl

theorem alone_updateOperation (opId : AttemptId) (fields : OperationFields) :
    (Worker.updateCrosschainOperation opId fields).alone (fun o w => w.exec o x) w =
      (.ok (), { w with
        worker := w.worker.updateCrosschainOperation opId fields w.payments.clock }) := rfl

/-- The emitted message is taken, and nothing is charged for it. -/
theorem takeMessages_emitted
    (burned : Burned config w operation attempt intent source destination sourceTxHash m)
    {messages : List CircleCctpMessage}
    (found : messages.find? (fun item => item.answers attempt.toAttemptTerms intent.toIntentTerms
      source destination) = some (m.item attestation))
    (enqueued : ∀ job, x (.sendJob job) = some ()) :
    ∃ nonce, (takeMessages config operation attempt intent source destination sourceTxHash
        messages).alone (fun o w => w.exec o x) w =
      (.ok true, { charged attempt sourceTxHash w with
        worker := (charged attempt sourceTxHash w).worker.updateCrosschainOperation
          operation.attemptId (taken m attestation nonce) w.payments.clock }) := by
  have matched := Table.of_find? burned.attemptRow
  have same : attempt.id = operation.attemptId := beq_iff_eq.1 matched
  have readable : Worker.cctpMessageNonce m.hex = .ok ((m.hex.drop 24).take 64) :=
    if_neg (Nat.not_lt.2 m.length_hex)
  have agrees : ¬ operation.messageHash.any (config.keccak256 m.hex ≠ ·) = true := by
    rw [burned.messageHash, Option.any_some]
    simp
  have nothing : ¬ (m.amount.toNat < m.amount.toNat ∨
      attempt.cctpFeeAtomic < m.amount.toNat - m.amount.toNat) := by omega
  refine ⟨(m.hex.drop 24).take 64, ?_⟩
  unfold takeMessages
  rw [found]
  show Prog.alone _ (if _ then _ else _) w = _
  rw [if_neg agrees, burned.burnAmount, burned.platformFee]
  show Prog.alone _ (if _ then _ else _) w = _
  rw [if_neg nothing, Nat.sub_self]
  have row : w.payments.db.attempts.find? (·.id == attempt.id) = some attempt := by
    rw [same]
    exact burned.attemptRow
  refine (Prog.alone_bind (alone_recordFee row)).trans ?_
  show Prog.alone _ (Prog.bind (.ofExcept (Worker.cctpMessageNonce m.hex)) _) _ = _
  rw [readable]
  refine (Prog.alone_bind (alone_updateOperation operation.attemptId _)).trans ?_
  refine (Prog.alone_bind (alone_outside x (enqueued _))).trans ?_
  rfl

/-- So it is accepted, with the fee that it carries, which is none. -/
theorem accepted_emitted
    (burned : Burned config w operation attempt intent source destination sourceTxHash m)
    (answers : Answers x attempt intent source destination sourceTxHash (m.item attestation)) :
    Accepted m operation (attested config x operation.attemptId w) := by
  obtain ⟨messages, listed, member, only⟩ := answers.listed
  obtain ⟨nonce, run⟩ := takeMessages_emitted burned
    ((find?_of_only member only).trans (if_pos (answers_emitted burned))) answers.enqueued
  have free : m.feeExecuted.toNat = 0 := by
    rw [burned.unattested.2.2.1]
    rfl
  have matched := Table.of_find? burned.attemptRow
  have same : attempt.id = operation.attemptId := beq_iff_eq.1 matched
  rw [attested_eq burned listed, run]
  refine ⟨rfl, ?_, ?_⟩
  · have member := Table.mem_of_find? burned.operationRow
    refine ⟨_, (Table.mem_of_rewritten (by exact rfl)).2 ⟨operation, member, rfl⟩, ?_⟩
    rw [if_pos (beq_self_eq_true operation.attemptId), free]
    exact ⟨rfl, rfl, rfl, rfl, rfl⟩
  · intro r hr owner network
    obtain ⟨r₀, hr₀, rfl⟩ := (Table.mem_of_rewritten (by exact rfl)).1 hr
    rw [free]
    -- the row of the network fee is the one that was written
    split at owner
    · rename_i written
      rw [if_pos written]
    · rename_i kept
      rw [if_neg kept] at network
      refine absurd ?_ kept
      rw [Bool.and_eq_true, beq_iff_eq, beq_iff_eq]
      exact ⟨owner.trans same.symm, network⟩

end Run

/-- An attested message is handled as it should be exactly if it is the emitted one, or
differs from it outside the attester's fields, or takes more than the agreed fee. -/
theorem attestation_handled_iff (config : Config) (w : Site) (operation : CrosschainOperation)
    (attempt : PaymentAttempt) (intent : PaymentIntent) (source destination : NetworkCapabilities)
    (sourceTxHash : Hash) (m m' : CctpMessage) (attestation : Hex) (x : Outside)
    (burned : Burned config w operation attempt intent source destination sourceTxHash m)
    (answers : Answers x attempt intent source destination sourceTxHash (m'.item attestation))
    (noCollision : config.keccak256 m'.hex = config.keccak256 m.hex → m'.hex = m.hex) :
    Handled m m' operation w (attested config x operation.attemptId w) ↔
      (m.AgreesOutside m' → m'.feeExecuted.toNat ≤ m'.maxFee.toNat → m' = m) := by
  have other (differs : m' ≠ m) : Rejected w (attested config x operation.attemptId w) :=
    rejected_of_hash burned answers fun same =>
      differs (CctpMessage.hex_inj (noCollision same))
  constructor
  · intro handled agrees within
    by_contra differs
    exact (other differs).refused (handled.accepts agrees within).done
  · intro emitted
    refine ⟨fun agrees within => ?_, fun disagrees => ?_⟩
    · obtain rfl := emitted agrees within
      exact accepted_emitted burned answers
    · refine other fun same => disagrees ?_
      rw [same]
      rfl

/-! ### A fast transfer -/

/-- The message of a burn of 705 from the chain 8, as it is emitted. -/
def emittedMessage : CctpMessage where
  version := 1
  sourceDomain := 8
  destinationDomain := 4
  nonce := 0
  sender := 50
  recipient := 51
  destinationCaller := 0
  minFinalityThreshold := 1000
  finalityThresholdExecuted := 0
  bodyVersion := 1
  burnToken := 40
  mintRecipient := 3
  amount := 705
  messageSender := 24
  maxFee := 5
  feeExecuted := 0
  expirationBlock := 0
  hookData := []

/-- The message as it is attested, for a fee of 2. -/
def attestedMessage : CctpMessage :=
  { emittedMessage with
    nonce := 7, finalityThresholdExecuted := 1000, feeExecuted := 2, expirationBlock := 900 }

def fastConfig : Config where
  requiredConfirmations _ := 1
  getPaymentNetworkCapabilities chainId := some { cctpDomain := chainId, usdc := 40 }
  messageTransmitter _ := some 41
  relayerAccount := .ok 42
  keccak256 message := message.foldl (fun n d => 16 * n + d.val) 1

/-- The attempt whose burn is transaction 30. -/
def fastAttempt : PaymentAttempt :=
  { localAttempt with
    sourceChainId := 8, route := .cctpFast, cctpFeeAtomic := 5, grossPayerAmountAtomic := 705
    status := .processing, userOpHash := none, sourceTxHash := some 30
    destinationTxHash := none, settledAmountAtomic := 0, lastErrorCode := none }

def fastIntent : PaymentIntent where
  id := 10
  merchantId := 1
  linkId := none
  idempotencyKey := none
  amountMode := .fixed
  reference := ""
  metadata := ""
  mode := .live
  settlementWallet := 3
  settlementChainId := 4
  settlementAccountVersion := 1
  expiresAt := none
  createdAt := 0
  amount := formatUnits 700 6
  amountAtomic := 700
  status := .processing
  paidAmountAtomic := 0
  paidTxHash := none
  paidAt := none

/-- The operation as the reconciliation of the burn writes it. -/
def fastOperation : CrosschainOperation :=
  BurnEvidence.row
    { attemptId := 20, sourceChainId := 8, destinationChainId := 4, route := .cctpFast
      sourceTxHash := 30, messageHash := fastConfig.keccak256 emittedMessage.hex
      message := some emittedMessage.hex, burnAmountAtomic := 705, platformFeeAtomic := 0 } 0

/-- The rows of the burn, with the fee ledger of the attempt. -/
def fastSite : Site :=
  let w := WorkerWorld.initial 0
  { worker := { w with
      payments := { w.payments with db := { w.payments.db with
        attempts := Table.empty.insertOrIgnore fastAttempt
        intents := Table.empty.insertOrIgnore fastIntent } }
      operations := Table.empty.insertOrIgnore fastOperation }
    executions := [] }

def fastOutside (m : CctpMessage) : Outside
  | .getTransactionReceipt .. => .failed
  | .getBlockNumber _ => none
  | .getBlock .. => none
  | .getRouterLogs .. => none
  | .getCctpMessages .. => some (some [m.item []])
  | .usedNonces .. => none
  | .getReceivedLogs .. => none
  | .sendRawTransaction .. => none
  | .getTransaction .. => none
  | .simulateReceive .. => none
  | .prepareTransactionRequest .. => none
  | .signTransaction _ => none
  | .sendJob _ => some ()
  | .flushPaymentOutbox => none

theorem foldDigits_inj {xs ys : Hex}
    (same : xs.foldl (fun n d => 16 * n + d.val) 1 = ys.foldl (fun n d => 16 * n + d.val) 1) :
    xs = ys := by
  have positive (zs : Hex) : 0 < zs.foldl (fun n d => 16 * n + d.val) 1 := by
    induction zs using List.reverseRecOn with
    | nil => decide
    | append_singleton zs z ih =>
      rw [List.foldl_append]
      exact Nat.lt_of_lt_of_le (Nat.mul_pos (by decide) ih) (Nat.le_add_right _ _)
  induction xs using List.reverseRecOn generalizing ys with
  | nil =>
    induction ys using List.reverseRecOn with
    | nil => rfl
    | append_singleton ys y _ =>
      rw [List.foldl_append, List.foldl_cons, List.foldl_nil, List.foldl_nil] at same
      have := positive ys
      omega
  | append_singleton xs x ih =>
    induction ys using List.reverseRecOn with
    | nil =>
      rw [List.foldl_append, List.foldl_cons, List.foldl_nil, List.foldl_nil] at same
      have := positive xs
      omega
    | append_singleton ys y _ =>
      rw [List.foldl_append, List.foldl_append, List.foldl_cons, List.foldl_cons, List.foldl_nil,
        List.foldl_nil] at same
      have hx := x.isLt
      have hy := y.isLt
      have last : x = y := Fin.ext (by omega)
      have front : xs = ys := ih (by omega)
      rw [last, front]

theorem fastConfig_inj {xs ys : Hex} (same : fastConfig.keccak256 xs = fastConfig.keccak256 ys) :
    xs = ys :=
  foldDigits_inj same

theorem burned_fastSite :
    Burned fastConfig fastSite fastOperation fastAttempt fastIntent ⟨8, 40⟩ ⟨4, 40⟩ 30
      emittedMessage where
  operationRow := rfl
  open_ := by decide
  sourceTx := rfl
  messageHash := by rw [fastOperation, BurnEvidence.row]
  burnAmount := by decide
  platformFee := rfl
  attemptRow := rfl
  intentRow := rfl
  sourceNetwork := rfl
  destinationNetwork := rfl
  unattested := ⟨rfl, rfl, rfl, rfl⟩
  sourceDomain := by decide
  destinationDomain := by decide
  burnToken := by decide
  mintRecipient := by decide
  messageSender := by decide
  amount := by decide
  maxFee := by decide

theorem answers_fastOutside (m : CctpMessage) :
    Answers (fastOutside m) fastAttempt fastIntent ⟨8, 40⟩ ⟨4, 40⟩ 30 (m.item []) where
  listed := ⟨[m.item []], rfl, List.mem_singleton_self _,
    fun _ member _ => List.mem_singleton.1 member⟩
  enqueued _ := rfl

/-- A message that the attester left as it was is taken. -/
theorem attestation_handled_emitted :
    Handled emittedMessage emittedMessage fastOperation fastSite
      (attested fastConfig (fastOutside emittedMessage) fastOperation.attemptId fastSite) :=
  (attestation_handled_iff fastConfig fastSite fastOperation fastAttempt fastIntent ⟨8, 40⟩ ⟨4, 40⟩ 30
    emittedMessage emittedMessage [] (fastOutside emittedMessage) burned_fastSite
    (answers_fastOutside _) fun _ => rfl).2 fun _ _ => rfl

/-- A message with a nonce and an allowed fee is refused. -/
theorem attestation_refused :
    Burned fastConfig fastSite fastOperation fastAttempt fastIntent ⟨8, 40⟩ ⟨4, 40⟩ 30
        emittedMessage ∧
      emittedMessage.AgreesOutside attestedMessage ∧
      attestedMessage.feeExecuted.toNat ≤ attestedMessage.maxFee.toNat ∧
      ¬ Accepted attestedMessage fastOperation
        (attested fastConfig (fastOutside attestedMessage) fastOperation.attemptId fastSite) := by
  have other : fastConfig.keccak256 attestedMessage.hex ≠ fastConfig.keccak256 emittedMessage.hex := by
    intro same
    have messages := CctpMessage.hex_inj (fastConfig_inj same)
    exact absurd (congrArg CctpMessage.nonce messages) (by decide)
  have rejected := rejected_of_hash burned_fastSite (answers_fastOutside attestedMessage) other
  refine ⟨burned_fastSite, rfl, by decide, fun accepted => ?_⟩
  exact absurd accepted.done rejected.refused

end ParmeliaLinks.Payments
