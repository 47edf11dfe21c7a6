/-
ParmeliaLinks/Payments/Lifecycle.lean

The end of a CCTP operation.  A settled operation should be final, and settled
only when its attempt is paid.  Of the writes of an operation all but one are
guarded by the status or keep what is there; `updateCrosschainOperation` writes
the status it is given, whatever the row says by then.

So the property holds in the runs in which that write finds no settled row, or
settles it again with the mint that the row has, and settles no operation whose
attempt was closed without payment (`LifecycleConditions`).  The two conditions
fail: an attestation pass that read the operation before another pass settled it
writes `minting` afterwards, and the evidence of a canceled attempt goes all the
way to a settled operation.
-/
import ParmeliaLinks.Lib.Invariant
import ParmeliaLinks.Payments.Passes

namespace ParmeliaLinks.Payments

/-! ### The property -/

/-- The columns that are final once an operation is settled. -/
structure CrosschainOperation.Keeps (r r' : CrosschainOperation) : Prop where
  attemptId : r'.attemptId = r.attemptId
  status : r'.status = r.status
  message : r'.message = r.message
  networkFee : r'.networkFeeAtomic = r.networkFeeAtomic
  minted : r'.mintedAmountAtomic = r.mintedAmountAtomic
  destination : r'.destinationTxHash = r.destinationTxHash

/-- The attempt is paid or overpaid. -/
def World.HasPaid (w : World) (id : AttemptId) : Prop :=
  ∃ a ∈ w.db.attempts, a.id = id ∧ a.status.settled = true

/-- Every settled operation is still there, as it was. -/
def Site.SettledFinal (w w' : Site) : Prop :=
  ∀ r ∈ w.operations, r.status = .settled → ∃ r' ∈ w'.operations, r.Keeps r'

/-- The attempt of a settled operation is paid. -/
def Site.SettledPaid (w : Site) : Prop :=
  ∀ r ∈ w.operations, r.status = .settled → w.payments.HasPaid r.attemptId

/-! ### The conditions -/

/-- The write settles the operation with the mint that the row already has. -/
def OperationFields.Repeats (fields : OperationFields) (r : CrosschainOperation) : Prop :=
  fields.status = .settled ∧ fields.destinationTxHash = r.destinationTxHash ∧
    fields.mintedAmountAtomic = r.mintedAmountAtomic

/-- The attempt was canceled, or expired, or failed. -/
def World.ClosedUnpaid (w : World) (id : AttemptId) : Prop :=
  ∃ a ∈ w.db.attempts, a.id = id ∧ a.status.active = false ∧ a.status.settled = false

/-- The write finds no settled operation, unless it repeats it, and settles none whose
attempt was closed without payment. -/
structure UpdateConditions (w : Site) (operation : AttemptId) (fields : OperationFields) :
    Prop where
  repeats : ∀ r ∈ w.operations, r.attemptId = operation → r.status = .settled → fields.Repeats r
  payable : fields.status = .settled → ¬ w.payments.ClosedUnpaid operation

/-- What the lifecycle needs of the steps of a run. -/
def LifecycleConditions :
    System.Conditions WorkerOp Site Outside WorkerSurroundings WorkerCall where
  op _ o _ w :=
    match o with
    | .inr (.inl (.updateCrosschainOperation operation fields _)) =>
      UpdateConditions w operation fields
    | _ => True

/-! The property and the conditions can be computed. -/

instance (r r' : CrosschainOperation) : Decidable (r.Keeps r') :=
  decidable_of_iff (r'.attemptId = r.attemptId ∧ r'.status = r.status ∧
      r'.message = r.message ∧ r'.networkFeeAtomic = r.networkFeeAtomic ∧
      r'.mintedAmountAtomic = r.mintedAmountAtomic ∧
      r'.destinationTxHash = r.destinationTxHash)
    ⟨fun ⟨a, b, c, d, e, f⟩ => ⟨a, b, c, d, e, f⟩, fun ⟨a, b, c, d, e, f⟩ => ⟨a, b, c, d, e, f⟩⟩

instance (w : World) (id : AttemptId) : Decidable (w.HasPaid id) := by
  unfold World.HasPaid
  infer_instance

instance (w : World) (id : AttemptId) : Decidable (w.ClosedUnpaid id) := by
  unfold World.ClosedUnpaid
  infer_instance

instance (w w' : Site) : Decidable (w.SettledFinal w') := by
  unfold Site.SettledFinal
  infer_instance

instance (w : Site) : Decidable w.SettledPaid := by
  unfold Site.SettledPaid
  infer_instance

instance (fields : OperationFields) (r : CrosschainOperation) : Decidable (fields.Repeats r) := by
  unfold OperationFields.Repeats
  infer_instance

instance (w : Site) (operation : AttemptId) (fields : OperationFields) :
    Decidable (UpdateConditions w operation fields) :=
  decidable_of_iff
    ((∀ r ∈ w.operations, r.attemptId = operation → r.status = .settled → fields.Repeats r) ∧
      (fields.status = .settled → ¬ w.payments.ClosedUnpaid operation))
    ⟨fun ⟨repeats, payable⟩ => ⟨repeats, payable⟩, fun h => ⟨h.repeats, h.payable⟩⟩

instance (i : Nat) (o : WorkerOp) (x : Outside) (w : Site) :
    Decidable (LifecycleConditions.op i o x w) := by
  unfold LifecycleConditions
  dsimp only
  split <;> infer_instance

instance (e : WorkerSurroundings) (w : Site) : Decidable (LifecycleConditions.env e w) :=
  inferInstanceAs (Decidable True)

instance (c : WorkerCall) (w : Site) : Decidable (LifecycleConditions.call c w) :=
  inferInstanceAs (Decidable True)

/-! ### What one write does -/

variable {w : Site} {config : Config} {me : Nat} {x : Outside}
variable {o : RelayOp} {r r' : CrosschainOperation}

theorem CrosschainOperation.Keeps.rfl (r : CrosschainOperation) : r.Keeps r := by
  constructor <;> rfl

theorem CrosschainOperation.Keeps.trans {r₁ r₂ r₃ : CrosschainOperation} (h : r₁.Keeps r₂)
    (h' : r₂.Keeps r₃) : r₁.Keeps r₃ where
  attemptId := h'.attemptId.trans h.attemptId
  status := h'.status.trans h.status
  message := h'.message.trans h.message
  networkFee := h'.networkFee.trans h.networkFee
  minted := h'.minted.trans h.minted
  destination := h'.destination.trans h.destination

/-- A write leaves a settled operation as it is. -/
theorem RelayOp.Step.keeps (step : o.Step r r') (hr : r ∈ w.operations)
    (settled : r.status = .settled) (message : r.message.isSome = true)
    (safe : WorkerOp.Safe (.inr (.inl o)) w)
    (conditions : LifecycleConditions.op me (.inr (.inl o)) x w) : r.Keeps r' := by
  rcases step with rfl | write
  · exact .rfl r'
  cases o with
  | upsertCrosschainOperation input timestamp =>
    obtain ⟨-, rfl⟩ := write
    obtain ⟨m, hm⟩ := Option.isSome_iff_exists.1 message
    refine ⟨by rfl, ?_, ?_, by rfl, by rfl, by rfl⟩
    · simp [BurnEvidence.complete, settled]
    · simp [BurnEvidence.complete, hm]
  | updateCrosschainOperation operation fields now =>
    obtain ⟨hid, rfl⟩ := write
    obtain ⟨status, destination, minted⟩ := conditions.repeats r hr hid settled
    obtain ⟨tx, amount, rfl⟩ := (safe status).fields
    refine ⟨by rfl, settled.symm, by rfl, by rfl, ?_, ?_⟩
    · exact minted
    · exact destination
  | recordCrosschainMintPrepared operation mint timestamp =>
    obtain ⟨able, -⟩ := write
    simp [preparable, settled] at able
  | recordCrosschainMintBroadcast operation txHash timestamp =>
    obtain ⟨able, -⟩ := write
    simp [mintingWith, settled] at able
  | clearRevertedCrosschainMint operation txHash now =>
    obtain ⟨able, -⟩ := write
    simp [mintingWith, settled] at able
  | _ => exact write.elim

/-- A write that settles an operation is the last one of a settlement. -/
theorem RelayOp.Step.finalizes (step : o.Step r r') (settled : r'.status = .settled) :
    r.status = .settled ∨ ∃ fields now, o = .updateCrosschainOperation r.attemptId fields now ∧
      fields.status = .settled := by
  rcases step with rfl | write
  · exact .inl settled
  cases o with
  | upsertCrosschainOperation input timestamp =>
    obtain ⟨-, rfl⟩ := write
    refine .inl ?_
    simp only [BurnEvidence.complete] at settled
    split at settled
    · cases settled
    · exact settled
  | updateCrosschainOperation operation fields now =>
    obtain ⟨rfl, rfl⟩ := write
    exact .inr ⟨fields, now, rfl, settled⟩
  | recordCrosschainMintPrepared operation mint timestamp =>
    obtain ⟨-, rfl⟩ := write
    exact .inl settled
  | recordCrosschainMintBroadcast operation txHash timestamp =>
    obtain ⟨-, rfl⟩ := write
    exact .inl settled
  | clearRevertedCrosschainMint operation txHash now =>
    obtain ⟨-, rfl⟩ := write
    exact .inl settled
  | _ => exact write.elim

/-! ### The invariant -/

/-- A settled operation has a message, and its attempt is paid. -/
def Site.Concluded (w : Site) : Prop :=
  ∀ r ∈ w.operations, r.status = .settled →
    r.message.isSome = true ∧ w.payments.HasPaid r.attemptId

theorem World.Evolves.hasPaid {v v' : World} (h : v.Evolves v') {id : AttemptId}
    (paid : v.HasPaid id) : v'.HasPaid id := by
  obtain ⟨a, ha, rfl, settled⟩ := paid
  obtain ⟨a', ha', ev⟩ := h.attempts a ha
  refine ⟨a', ha', congrArg (·.id) ev.terms, ?_⟩
  rw [(ev.closed (active_of_settled settled)).1]
  exact settled

/-- A closed attempt that was not closed without payment is paid. -/
theorem World.HasClosed.hasPaid {v : World} {id : AttemptId} (closed : v.HasClosed id)
    (payable : ¬ v.ClosedUnpaid id) : v.HasPaid id := by
  obtain ⟨a, ha, rfl, inactive⟩ := closed
  refine ⟨a, ha, rfl, ?_⟩
  by_contra unsettled
  exact payable ⟨a, ha, rfl, inactive, by simpa using unsettled⟩

theorem Site.Concluded.relay (h : w.Concluded) (safe : WorkerOp.Safe (.inr (.inl o)) w)
    (conditions : LifecycleConditions.op me (.inr (.inl o)) x w) :
    Site.Concluded { w with worker := (o.exec w.worker).2 } := by
  intro r' hr' settled
  have same : (o.exec w.worker).2.payments = w.payments := o.exec_payments w.worker
  show r'.message.isSome = true ∧ World.HasPaid (o.exec w.worker).2.payments r'.attemptId
  rw [same]
  rcases (o.exec_operations w.worker).backward r' hr' with ⟨r, hr, step⟩ | added
  · rw [step.evolves.attemptId]
    rcases step.finalizes settled with before | ⟨fields, now, rfl, final⟩
    · have known := h r hr before
      exact ⟨step.evolves.message known.1, known.2⟩
    · have finalizes := safe final
      obtain ⟨s, hs, hid, message⟩ := finalizes.attested
      obtain rfl := operation_eq hs hr hid
      exact ⟨step.evolves.message message, finalizes.closed.hasPaid (conditions.payable final)⟩
  · -- a new operation is not settled
    cases o with
    | upsertCrosschainOperation input timestamp =>
      obtain ⟨rfl, -⟩ := added
      cases settled
    | _ => exact added.elim

theorem Site.SettledFinal.relay {w₀ : Site} (h : w₀.SettledFinal w) (concluded : w.Concluded)
    (safe : WorkerOp.Safe (.inr (.inl o)) w)
    (conditions : LifecycleConditions.op me (.inr (.inl o)) x w) :
    w₀.SettledFinal { w with worker := (o.exec w.worker).2 } := by
  intro r₀ hr₀ settled
  obtain ⟨r, hr, keeps⟩ := h r₀ hr₀ settled
  have settled' := keeps.status.trans settled
  obtain ⟨r', hr', step⟩ := (o.exec_operations w.worker).forward r hr
  have message := (concluded r hr settled').1
  exact ⟨r', hr', keeps.trans (step.keeps hr settled' message safe conditions)⟩

/-- A step of the payments alone. -/
theorem Site.Concluded.payments {v : World} (h : w.Concluded) (hev : w.payments.Evolves v) :
    Site.Concluded { w with worker := { w.worker with payments := v } } := by
  intro r hr settled
  exact ⟨(h r hr settled).1, hev.hasPaid (h r hr settled).2⟩

/-- Concluded operations stay concluded, and those of `w₀` as they were. -/
theorem lifecycle_invariant (config : Config) (w₀ : Site) :
    workerDiscipline.Invariant (workerSystem config)
      (fun w => w.Concluded ∧ w₀.SettledFinal w) LifecycleConditions where
  op i o x w _ h conditions performs := by
    obtain ⟨concluded, final⟩ := h
    rcases o with o | o | o
    · exact ⟨concluded.payments performs.evolves.payments, final⟩
    · have safe := performs.ensured
      exact ⟨concluded.relay safe conditions, final.relay concluded safe conditions⟩
    · exact ⟨concluded, final⟩
  env e w _ h _ moves := by
    obtain ⟨concluded, final⟩ := h
    cases e with
    | payments e => exact ⟨concluded.payments moves.evolves.payments, final⟩
    | execute e => exact ⟨concluded, final⟩

/-! ### Every run -/

/-- A schedule of the worker. -/
abbrev WorkerSchedule := List (Label Outside WorkerSurroundings WorkerCall)

/-- The site that a schedule reaches. -/
def siteReached (config : Config) (clock : Timestamp) (ls : WorkerSchedule) : Site :=
  ((workerSystem config).run (Site.initial clock) ls).world

/-- Every step of the schedule meets the conditions. -/
abbrev AlongLifecycle (config : Config) (clock : Timestamp) (ls : WorkerSchedule) : Prop :=
  (workerSystem config).Along LifecycleConditions ⟨Site.initial clock, []⟩ ls

theorem sound_worker (config : Config) (clock : Timestamp) (ls : WorkerSchedule) :
    workerDiscipline.Sound (workerSystem config) (fun _ _ => True)
      ((workerSystem config).run (Site.initial clock) ls) :=
  Discipline.pool_sound (worker_obeys config) (initial_site_consistent clock)
    (System.along_any _ _ _)

/-- In a run that meets the conditions, a settled operation is final and its attempt is
paid. -/
theorem operation_lifecycle (config : Config) (clock : Timestamp) (ls ms : WorkerSchedule)
    (h : AlongLifecycle config clock (ls ++ ms)) :
    (siteReached config clock ls).SettledFinal (siteReached config clock (ls ++ ms)) ∧
      (siteReached config clock (ls ++ ms)).SettledPaid := by
  obtain ⟨before, after⟩ := System.along_append.1 h
  have any := System.along_any (workerSystem config)
  have start : (Site.initial clock).Concluded ∧
      (Site.initial clock).SettledFinal (Site.initial clock) := by
    constructor <;> intro r hr <;> cases hr
  -- the first part concludes operations, the second one keeps those
  have concluded := (lifecycle_invariant config (Site.initial clock)).holds (worker_obeys config)
    (Discipline.sound_empty (initial_site_consistent clock)) start (any _ ls) before
  have kept := (lifecycle_invariant config (siteReached config clock ls)).holds
    (worker_obeys config) (sound_worker config clock ls)
    ⟨concluded.1, fun r hr _ => ⟨r, hr, .rfl r⟩⟩ (any _ ms) after
  have reached : siteReached config clock (ls ++ ms) =
      ((workerSystem config).runFrom ((workerSystem config).run (Site.initial clock) ls) ms).world :=
    congrArg Pool.world (System.runFrom_append _ _ ls ms)
  rw [reached]
  exact ⟨kept.2, fun r hr settled => (kept.1 r hr settled).2⟩

/-! Payments from the chain `8`, with the attempt canceled in time or not. -/

def burnAttempt : AttemptTerms :=
  { localAttempt with
    sourceChainId := 8, route := .cctpFast, cctpFeeAtomic := 5, grossPayerAmountAtomic := 705 }

local instance sixteenDigits : NeZero 16 := ⟨by decide⟩

def burnMessage : Hex := List.replicate 88 0

def burnConfig : Config where
  requiredConfirmations _ := 1
  getPaymentNetworkCapabilities chainId := some { cctpDomain := chainId, usdc := 40 }
  messageTransmitter _ := some 41
  relayerAccount := .ok 42
  keccak256 _ := 43

def burnLogs : List ReceiptLog :=
  [{ address := 24, paymentSettled := none, messageSent := some burnMessage
     cctpPaymentBurned := some
      { attemptId := 21, intentId := 26, payer := 23, merchant := 3, settlementAmount := 700
        platformFee := 0, grossPayerAmount := 705, maxCctpFee := 5, amountBurned := 705 } }]

def mintLogs : List ReceiptLog :=
  [{ address := 41, paymentSettled := none, cctpPaymentBurned := none, messageSent := none
     messageReceived := some { nonce := List.replicate 64 0, sourceDomain := 8 } }]

/-- The burn is transaction `30`, the mint transaction `31`. -/
def burnOutside : Outside
  | .getTransactionReceipt _ hash => .found
      { status := .success, sender := 23, recipient := some 24, blockNumber := 50
        logs := if hash = 30 then burnLogs else mintLogs }
  | .getBlockNumber _ => some 60
  | .getBlock .. => none
  | .getRouterLogs .. => none
  | .getCctpMessages .. => some (some
      [{ message := some burnMessage, attestation := some [], complete := true, cctpVersion := 2
         sourceDomain := some 8, destinationDomain := some 4, burnToken := some 40
         mintRecipient := some 3, messageSender := some 24, amount := some 702 }])
  | .usedNonces .. => some true
  | .getReceivedLogs .. => some [{ transactionHash := some 31, sourceDomain := 8 }]
  | .sendRawTransaction .. => none
  | .getTransaction .. => none
  | .simulateReceive .. => none
  | .prepareTransactionRequest .. => none
  | .signTransaction _ => none
  | .sendJob _ => some ()
  | .flushPaymentOutbox => some ()

/-- A call, started as the handler `i`, with the steps of that handler. -/
def called (i : Nat) (c : WorkerCall) (steps : Nat) : WorkerSchedule :=
  .spawn c :: List.replicate steps (.step i burnOutside)

/-- The burn of the attempt is reported. -/
def burnReported : WorkerSchedule :=
  called 0 (.request ⟨.createIntentAndLink openIntent, rfl⟩) 4 ++
  called 1 (.request ⟨.insertQuote { id := 22, intentId := 10, quoteHash := 28 }, rfl⟩) 1 ++
  called 2 (.request ⟨.insertAttempt burnAttempt "k"
    (some { capabilityHash := 29, payerProofSignature := 0, payerProofMessageHash := 0 }), rfl⟩) 2 ++
  called 3 (.request ⟨.registerSourceTransaction 20 29 30, rfl⟩) 2

/-- The operation is settled, one pass after the other. -/
def burnSettled : WorkerSchedule :=
  burnReported ++ called 4 (.reconcileAttempt 20) 11 ++
  called 5 (.advanceCctpAttestation 20) 9 ++ called 6 (.mintCctpSettlement 20) 23

theorem operation_lifecycle_burnSettled :
    (∃ r ∈ (siteReached burnConfig 0 burnSettled).operations, r.status = .settled) ∧
      (siteReached burnConfig 0 burnSettled).SettledFinal
        (siteReached burnConfig 0 (burnSettled ++ called 7 (.mintCctpSettlement 20) 1)) := by
  have along : AlongLifecycle burnConfig 0
      (burnSettled ++ called 7 (.mintCctpSettlement 20) 1) := by
    decide +kernel
  exact ⟨by decide +kernel, (operation_lifecycle burnConfig 0 _ _ along).1⟩

/-- The first attestation pass stops before its write, and another one and a mint pass
settle the operation. -/
def burnRaced : WorkerSchedule :=
  burnReported ++ called 4 (.reconcileAttempt 20) 11 ++
  called 5 (.advanceCctpAttestation 20) 7 ++
  called 6 (.advanceCctpAttestation 20) 9 ++ called 7 (.mintCctpSettlement 20) 23

/-- The attempt expires before its burn is reconciled. -/
def burnExpired : WorkerSchedule :=
  burnReported ++ ([.env (.payments (.tick 1100000))] : WorkerSchedule) ++
    called 4 (.request ⟨.releaseExpiredPayerDefinedAmount 10, rfl⟩) 2 ++
    called 5 (.reconcileAttempt 20) 11 ++ called 6 (.advanceCctpAttestation 20) 9 ++
    called 7 (.mintCctpSettlement 20) 19

/-- A settled operation is minting again, and the attempt of one is expired. -/
theorem operation_lifecycle_fails :
    ¬ (siteReached burnConfig 0 burnRaced).SettledFinal
        (siteReached burnConfig 0 (burnRaced ++ [.step 5 burnOutside])) ∧
      ¬ (siteReached burnConfig 0 burnExpired).SettledPaid := by
  decide +kernel

end ParmeliaLinks.Payments
