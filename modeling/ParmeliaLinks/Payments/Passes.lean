/-
ParmeliaLinks/Payments/Passes.lean

Every handler of the worker follows the discipline of `Payments.Handlers`.  Most
of them use harmless operations only.  The others are the ones that settle: a
local reconciliation takes the amount from evidence that matches the attempt, a
burn opens an operation for an attempt of another chain, and the last write of
an operation comes after its attempt is closed.

`Reconciles` is what a pass of `reconcileAttempt` achieves when it answers
`true`.
-/
import ParmeliaLinks.Payments.Handlers

namespace ParmeliaLinks.Payments

variable {w : Site} {config : Config} {me : Nat} {α : Type}

/-! ### Handlers that use harmless operations only -/

section Harmless

open Prog

theorem uses_repository {p : Repository α} (h : p.Uses RepositoryOp.Harmless) :
    (Worker.repository p).Uses WorkerOp.Harmless :=
  uses_inl h

theorem uses_relay {o : RelayOp} (h : WorkerOp.Harmless (.inr (.inl o))) :
    (Worker.relay o).Uses WorkerOp.Harmless :=
  (uses_perform _ _).2 h

theorem uses_outside (o : OutsideOp) : (Worker.outside o).Uses WorkerOp.Harmless :=
  (uses_perform _ _).2 trivial

theorem uses_orFail (P : WorkerOp → Prop) (r : Option α) : (Worker.orFail r).Uses P := by
  cases r <;> trivial

/-- A remote call whose failure is thrown. -/
theorem uses_request {o : OutsideOp} {f : o.Reply → Option α} :
    ((Worker.outside o).bind fun r => Worker.orFail (f r)).Uses WorkerOp.Harmless :=
  uses_bind (uses_outside o) fun _ => uses_orFail _ _

theorem uses_read {o : RepositoryOp} (h : o.Harmless) :
    (Worker.repository (perform o)).Uses WorkerOp.Harmless :=
  uses_repository (uses_perform_harmless h)

theorem uses_getCrosschainOperation (operation : AttemptId) :
    (Worker.getCrosschainOperation operation).Uses WorkerOp.Harmless := by
  refine uses_bind (uses_relay trivial) fun row => ?_
  cases row <;> trivial

theorem uses_updateCrosschainOperation (operation : AttemptId) {fields : OperationFields}
    (h : fields.status ≠ .settled) :
    (Worker.updateCrosschainOperation operation fields).Uses WorkerOp.Harmless := by
  refine uses_bind (uses_read trivial) fun now => ?_
  exact uses_relay h

theorem uses_recordCrosschainMintPrepared (operation : AttemptId) (mint : PreparedMint) :
    (Worker.recordCrosschainMintPrepared operation mint).Uses WorkerOp.Harmless := by
  refine uses_bind (uses_read trivial) fun timestamp => ?_
  exact uses_relay trivial

theorem uses_recordCrosschainMintBroadcast (operation : AttemptId) (txHash : Hash) :
    (Worker.recordCrosschainMintBroadcast operation txHash).Uses WorkerOp.Harmless := by
  refine uses_bind (uses_read trivial) fun timestamp => ?_
  exact uses_relay trivial

theorem uses_recordCrosschainMintResult (operation : AttemptId) (txHash : Hash)
    (status : MintStatus) :
    (Worker.recordCrosschainMintResult operation txHash status).Uses WorkerOp.Harmless := by
  refine uses_bind (uses_read trivial) fun timestamp => ?_
  exact uses_relay trivial

theorem uses_clearRevertedCrosschainMint (operation : AttemptId) (txHash : Hash) :
    (Worker.clearRevertedCrosschainMint operation txHash).Uses WorkerOp.Harmless := by
  refine uses_bind (uses_read trivial) fun now => ?_
  exact uses_relay trivial

theorem uses_verifyReportedSourceTransaction (attemptId : AttemptId) (txHash : Hash) :
    (Worker.verifyReportedSourceTransaction attemptId txHash).Uses WorkerOp.Harmless := by
  refine uses_bind (uses_read trivial) fun attempt => ?_
  cases attempt with
  | none => trivial
  | some attempt =>
    refine uses_bind (uses_read trivial) fun intent => ?_
    cases intent with
    | none => trivial
    | some intent =>
      refine uses_bind (uses_outside _) fun reply => ?_
      cases reply with
      | notFound => trivial
      | failed => trivial
      | found receipt => exact uses_bind (uses_ofExcept _ _) fun _ => trivial

theorem uses_confirmedReceipt (config : Config) (chainId : ChainId) (txHash : Hash) :
    (Worker.confirmedReceipt config chainId txHash).Uses WorkerOp.Harmless := by
  refine uses_bind (uses_outside _) fun reply => ?_
  cases reply with
  | notFound => trivial
  | failed => trivial
  | found receipt =>
    dsimp only
    split
    · trivial
    · refine uses_bind (uses_outside _) fun current => ?_
      refine uses_bind (uses_orFail _ _) fun current => ?_
      split <;> trivial

theorem uses_operationAttempt (operation : CrosschainOperation) :
    (Worker.operationAttempt operation).Uses WorkerOp.Harmless := by
  refine uses_bind (uses_read trivial) fun attempt => ?_
  cases attempt with
  | none => trivial
  | some attempt =>
    refine uses_bind (uses_read trivial) fun intent => ?_
    cases intent <;> trivial

theorem uses_advanceCctpAttestation (config : Config) (opId : AttemptId) :
    (Worker.advanceCctpAttestation config opId).Uses WorkerOp.Harmless := by
  refine uses_bind (uses_getCrosschainOperation opId) fun operation => ?_
  split
  · trivial
  split
  swap
  · trivial
  refine uses_bind (uses_operationAttempt operation) fun found => ?_
  split
  swap
  · trivial
  split
  swap
  · trivial
  split
  swap
  · trivial
  refine uses_bind (uses_outside _) fun messages => ?_
  refine uses_bind (uses_orFail _ _) fun messages => ?_
  split
  swap
  · trivial
  split
  swap
  · trivial
  split
  swap
  · trivial
  split
  · trivial
  split
  swap
  · trivial
  split
  swap
  · trivial
  split
  swap
  · trivial
  split
  · trivial
  refine uses_bind (uses_repository (uses_recordAttemptFeeEvidence _ _ _ _)) fun _ => ?_
  refine uses_bind (uses_ofExcept _ _) fun messageNonce => ?_
  refine uses_bind (uses_updateCrosschainOperation _ (by exact nofun)) fun _ => ?_
  refine uses_bind (uses_outside _) fun sent => ?_
  exact uses_bind (uses_orFail _ _) fun _ => trivial

theorem uses_nonceWasUsed (chainId : ChainId) (messageTransmitter : Address) (nonce : Hex) :
    (Worker.nonceWasUsed chainId messageTransmitter nonce).Uses WorkerOp.Harmless :=
  uses_bind (uses_outside _) fun _ => uses_orFail _ _

theorem uses_confirmedMintTransaction (config : Config) (query : Worker.MintQuery)
    (txHash : Hash) :
    (Worker.confirmedMintTransaction config query txHash).Uses WorkerOp.Harmless := by
  refine uses_bind (uses_outside _) fun reply => ?_
  cases reply with
  | notFound => trivial
  | failed => trivial
  | found receipt =>
    dsimp only
    split
    · trivial
    · refine uses_bind (uses_outside _) fun current => ?_
      refine uses_bind (uses_orFail _ _) fun current => ?_
      split <;> trivial

theorem uses_firstConfirmedMint (config : Config) (query : Worker.MintQuery)
    (logs : List ReceivedLog) :
    (Worker.firstConfirmedMint config query logs).Uses WorkerOp.Harmless := by
  induction logs with
  | nil => trivial
  | cons log logs ih =>
    unfold Worker.firstConfirmedMint
    split
    · exact ih
    · split
      · exact ih
      · refine uses_bind (uses_confirmedMintTransaction config query _) fun confirmed => ?_
        split
        · trivial
        · exact ih

theorem uses_recoverMintTransactionHash (config : Config) (query : Worker.MintQuery)
    (storedHash : Option Hash) :
    (Worker.recoverMintTransactionHash config query storedHash).Uses WorkerOp.Harmless := by
  have search : (do
      let tip ← Worker.orFail (← Worker.outside (.getBlockNumber query.chainId))
      let logs ← Worker.orFail (← Worker.outside
        (.getReceivedLogs query.chainId query.messageTransmitter query.nonce tip))
      Worker.firstConfirmedMint config query logs.reverse).Uses WorkerOp.Harmless := by
    refine uses_bind (uses_outside _) fun tip => ?_
    refine uses_bind (uses_orFail _ _) fun tip => ?_
    refine uses_bind (uses_outside _) fun logs => ?_
    refine uses_bind (uses_orFail _ _) fun logs => ?_
    exact uses_firstConfirmedMint config query _
  cases storedHash with
  | none => exact search
  | some hash =>
    refine uses_bind (uses_confirmedMintTransaction config query hash) fun stored => ?_
    dsimp only
    split
    · trivial
    · exact search

theorem uses_broadcastPreparedMint (opId : AttemptId) (chainId : ChainId) (txHash : Hash)
    (rawTransaction : Hex) :
    (Worker.broadcastPreparedMint opId chainId txHash rawTransaction).Uses
      WorkerOp.Harmless := by
  refine uses_tryCatch ?_ fun error => uses_tryCatch ?_ fun _ => trivial
  · refine uses_bind (uses_outside _) fun sent => ?_
    refine uses_bind (uses_orFail _ _) fun sent => ?_
    split
    · trivial
    · exact uses_recordCrosschainMintBroadcast opId txHash
  · refine uses_bind (uses_outside _) fun known => ?_
    refine uses_bind (uses_orFail _ _) fun _ => ?_
    refine uses_bind (uses_recordCrosschainMintBroadcast opId txHash) fun _ => ?_
    exact uses_recordCrosschainMintResult opId txHash .pending

theorem uses_acquirePaymentSignerLease (key : SignerKey) (ttlMs : Nat) :
    (Worker.acquirePaymentSignerLease key ttlMs).Uses WorkerOp.Harmless := by
  refine uses_bind (uses_read trivial) fun now => ?_
  refine uses_bind (uses_read trivial) fun owner => ?_
  refine uses_bind (uses_relay trivial) fun taken => ?_
  split
  · trivial
  · refine uses_bind (uses_relay trivial) fun inserted => ?_
    split <;> trivial

theorem uses_withPaymentSignerLease (chainId : ChainId) (signerAddress : Address)
    {action : Worker Unit} (h : action.Uses WorkerOp.Harmless) :
    (Worker.withPaymentSignerLease chainId signerAddress action).Uses WorkerOp.Harmless := by
  unfold Worker.withPaymentSignerLease
  split
  · trivial
  · refine uses_bind (uses_acquirePaymentSignerLease _ _) fun owner => ?_
    cases owner with
    | none => trivial
    | some owner =>
      refine uses_bind (uses_tryCatch h fun error => ?_) fun _ => uses_relay trivial
      exact uses_bind (uses_relay trivial) fun _ => trivial

theorem uses_prepareMint (config : Config) (opId : AttemptId) (chainId : ChainId)
    (messageTransmitter account : Address) (nonce : Hex) :
    (Worker.prepareMint config opId chainId messageTransmitter account nonce).Uses
      WorkerOp.Harmless := by
  refine uses_bind (uses_getCrosschainOperation opId) fun operation => ?_
  split
  · trivial
  refine uses_bind (uses_nonceWasUsed _ _ _) fun used => ?_
  split
  · trivial
  refine uses_bind (uses_outside _) fun simulated => ?_
  refine uses_bind (uses_orFail _ _) fun _ => ?_
  refine uses_bind (uses_outside _) fun request => ?_
  refine uses_bind (uses_orFail _ _) fun request => ?_
  split
  swap
  · trivial
  refine uses_bind (uses_outside _) fun rawTransaction => ?_
  refine uses_bind (uses_orFail _ _) fun rawTransaction => ?_
  refine uses_bind (uses_recordCrosschainMintPrepared _ _) fun inserted => ?_
  split
  · exact uses_broadcastPreparedMint _ _ _ _
  · trivial

theorem uses_advancePreparedMint (operation : CrosschainOperation) (hash : Hash)
    (rawTransaction : Hex) :
    (Worker.advancePreparedMint operation hash rawTransaction).Uses WorkerOp.Harmless := by
  refine uses_bind (uses_tryCatch ?_ fun _ => uses_broadcastPreparedMint _ _ _ _) fun _ => trivial
  refine uses_bind (uses_outside _) fun reply => ?_
  cases reply with
  | notFound => trivial
  | failed => trivial
  | found receipt =>
    dsimp only
    split
    · exact uses_clearRevertedCrosschainMint _ _
    · exact uses_recordCrosschainMintResult _ _ _

theorem uses_startMint (config : Config) (operation : CrosschainOperation)
    (query : Worker.MintQuery) :
    (Worker.startMint config operation query).Uses WorkerOp.Harmless := by
  unfold Worker.startMint
  split
  · refine uses_bind (uses_updateCrosschainOperation _ (by exact nofun)) fun _ => ?_
    exact trivial
  · refine uses_bind (uses_ofExcept _ _) fun account => ?_
    refine uses_tryCatch ?_ fun error => ?_
    · refine uses_bind (uses_withPaymentSignerLease _ _ (uses_prepareMint _ _ _ _ _ _)) fun _ => ?_
      exact trivial
    · split
      · trivial
      · refine uses_bind (uses_nonceWasUsed _ _ _) fun used => ?_
        split <;> trivial

theorem uses_commonAncestor (chainId : ChainId) (candidates : List RouterBlock) :
    (Worker.commonAncestor chainId candidates).Uses WorkerOp.Harmless := by
  induction candidates with
  | nil => trivial
  | cons candidate candidates ih =>
    refine uses_bind (uses_outside _) fun remote => ?_
    split
    · trivial
    · exact ih

theorem uses_verifyRouterCheckpoint (chainId : ChainId) (checkpoint : Option RouterCheckpoint) :
    (Worker.verifyRouterCheckpoint chainId checkpoint).Uses WorkerOp.Harmless := by
  cases checkpoint with
  | none => trivial
  | some checkpoint =>
    refine uses_bind (uses_outside _) fun remote => ?_
    split
    · trivial
    refine uses_bind (uses_relay trivial) fun candidates => ?_
    refine uses_bind (uses_commonAncestor chainId _) fun known => ?_
    cases known with
    | some ancestor =>
      refine uses_bind (p := .ret ancestor) trivial fun ancestor => ?_
      exact uses_bind (uses_relay trivial) fun _ => trivial
    | none =>
      refine uses_bind (uses_outside _) fun remote => ?_
      refine uses_bind (uses_orFail _ _) fun remote => ?_
      refine uses_bind (p := .ret _) trivial fun ancestor => ?_
      exact uses_bind (uses_relay trivial) fun _ => trivial

theorem uses_journalLog (chainId : ChainId) (log : RouterLog) :
    (Worker.journalLog chainId log).Uses WorkerOp.Harmless := by
  unfold Worker.journalLog
  split
  · exact uses_relay trivial
  · trivial

end Harmless

/-! ### Reconciling -/

/-- What a pass over an attempt achieves since `v`: if the attempt is paid on the chain
of its intent and the pass answers `true`, then the attempt is closed. -/
def Reconciles (v : Site) (id : AttemptId) : Except String Bool → Site → Prop
  | .ok b, w => b = true → v.payments.HasAttempt id → ¬ v.payments.CrossChain id →
      w.payments.HasClosed id
  | .error _, _ => True

theorem hasClosed_of_settled {a : PaymentAttempt} (ha : a ∈ w.payments.db.attempts)
    (settled : a.status.settled = true) : w.payments.HasClosed a.id :=
  ⟨a, ha, rfl, active_of_settled settled⟩

theorem wp_reconcileLocal {v : Site} (attemptId : AttemptId) (txHash : Hash)
    (hw : w.Consistent) (hv : v.Evolves w) :
    (Worker.reconcileLocal config attemptId txHash).wp config me (Reconciles v attemptId) w := by
  apply wp_seq
  refine wp_readAttempt hw (fun a ha hid w₁ hev₁ hw₁ => ?_) fun none w₁ _ _ => ?_
  swap
  · intro _ had
    exact absurd (hv.payments.hasAttempt had) none
  simp only [Discipline.then_ok]
  split
  · rename_i settled
    intro _ _ _
    exact hev₁.payments.hasClosed (hid ▸ hasClosed_of_settled ha settled)
  refine wp_seq_uses (uses_read trivial) hw₁ (fun _ _ => trivial) fun intent w₂ hev₂ hw₂ => ?_
  cases intent with
  | none => trivial
  | some intent =>
    refine wp_seq_uses (uses_confirmedReceipt _ _ _) hw₂ (fun _ _ => trivial)
      fun receipt w₃ hev₃ hw₃ => ?_
    cases receipt with
    | none =>
      intro ended
      cases ended
    | some receipt =>
      apply wp_seq
      cases valid : validatePaymentSourceReceipt a.toAttemptTerms intent.toIntentTerms
          receipt.toSourceReceipt with
      | error m => trivial
      | ok evidence =>
        have since := (hev₁.trans (hev₂.trans hev₃)).payments
        -- the amount in the evidence is the signed one
        have amount : ∀ a' ∈ w₃.payments.db.attempts, a'.id = a.id →
            legitimate a'.toAttemptTerms evidence.args.settlementAmount := by
          intro a' ha' hid' _
          rw [since.terms ha ha' hid']
          exact (validatePaymentSourceReceipt_matches valid).settlementAmount
        apply wp_seq
        refine Discipline.wp_mono _ _ (wp_repository hw₃ (wp_settleAttempt _ hw₃.payments amount))
          fun r w₄ settled => ?_
        obtain ⟨closes, hw₄, hev₄⟩ := settled
        cases r with
        | error m => trivial
        | ok result =>
          refine wp_seq_uses (uses_outside _) hw₄ (fun _ _ => trivial) fun sent w₅ hev₅ hw₅ => ?_
          refine wp_seq_uses (uses_orFail _ _) hw₅ (fun _ _ => trivial) fun _ w₆ hev₆ _ => ?_
          intro _ _ _
          have closed := closes (since.hasAttempt ⟨a, ha, rfl⟩)
          rw [hid] at closed
          exact (hev₅.trans hev₆).payments.hasClosed closed

/-- Evidence of a burn opens an operation of an attempt that is paid from another
chain. -/
theorem wp_reconcileBurn (attemptId : AttemptId) (txHash : Hash) (hw : w.Consistent) :
    (Worker.reconcileBurn config attemptId txHash).wp config me (fun _ _ => True) w := by
  apply wp_seq
  refine wp_readAttempt hw (fun a ha hid w₁ hev₁ hw₁ => ?_) fun _ _ _ _ => trivial
  simp only [Discipline.then_ok]
  split
  · trivial
  refine wp_seq_uses (uses_read trivial) hw₁ (fun _ _ => trivial) fun intent w₂ hev₂ hw₂ => ?_
  cases intent with
  | none => trivial
  | some intent =>
    refine wp_seq_uses (uses_confirmedReceipt _ _ _) hw₂ (fun _ _ => trivial)
      fun receipt w₃ hev₃ hw₃ => ?_
    cases receipt with
    | none => trivial
    | some receipt =>
      apply wp_seq
      cases valid : validatePaymentSourceReceipt a.toAttemptTerms intent.toIntentTerms
          receipt.toSourceReceipt with
      | error m => trivial
      | ok evidence =>
        cases evidence with
        | settled args => trivial
        | burned args message =>
          have since := (hev₁.trans (hev₂.trans hev₃)).payments
          have crossChain : w₃.payments.CrossChain a.id :=
            since.crossChain ⟨a, ha, rfl, validatePaymentSourceReceipt_burned valid⟩
          apply wp_seq
          refine wp_seq_uses (uses_read trivial) hw₃ (fun _ _ => trivial)
            fun timestamp w₄ hev₄ hw₄ => ?_
          apply wp_seq
          refine wp_op (o := .inr (.inl (.upsertCrosschainOperation _ _))) hw₄
            (hev₄.payments.crossChain crossChain) fun x w₅ _ hw₅ => ?_
          generalize (w₄.exec _ x).1 = known
          change Option Unit at known
          cases known with
          | none => trivial
          | some known =>
            refine wp_seq_uses (uses_repository (uses_recordAttemptFeeEvidence _ _ _ _)) hw₅
              (fun _ _ => trivial) fun _ w₆ _ hw₆ => ?_
            refine wp_seq_uses (uses_repository (uses_markAttemptProcessing _ _)) hw₆
              (fun _ _ => trivial) fun _ w₇ _ hw₇ => ?_
            refine wp_seq_uses (uses_outside _) hw₇ (fun _ _ => trivial) fun sent w₈ _ hw₈ => ?_
            exact wp_seq_uses (uses_orFail _ _) hw₈ (fun _ _ => trivial) fun _ _ _ _ => trivial

theorem reconciles_crossChain {v : Site} {id : AttemptId} (h : v.payments.CrossChain id)
    (r : Except String Bool) : Reconciles v id r w := by
  cases r with
  | error m => trivial
  | ok b => exact fun _ _ local_ => absurd h local_

theorem wp_reconcileAttempt (attemptId : AttemptId) (hw : w.Consistent) :
    (Worker.reconcileAttempt config attemptId).wp config me (Reconciles w attemptId) w := by
  apply wp_seq
  refine wp_readAttempt hw (fun a ha hid w₁ hev₁ hw₁ => ?_) fun none w₁ _ _ => ?_
  swap
  · exact fun _ had => absurd had none
  subst hid
  simp only [Discipline.then_ok]
  split
  · rename_i closed
    intro _ _ _
    refine hev₁.payments.hasClosed ⟨a, ha, rfl, ?_⟩
    rw [Bool.or_eq_true, beq_iff_eq] at closed
    rcases closed with settled | failed
    · exact active_of_settled settled
    · rw [failed]
      rfl
  split
  · split
    · exact wp_reconcileLocal _ _ hw₁ hev₁
    · rename_i crossChain
      refine Discipline.wp_mono _ _ (wp_reconcileBurn _ _ hw₁) fun r w' _ => ?_
      exact reconciles_crossChain ⟨a, ha, rfl, crossChain⟩ r
  · intro ended
    cases ended

/-! ### Settling a CCTP operation -/

/-- The attempt of the operation is paid from another chain, and the operation has a
message. -/
structure Settleable (w : Site) (operation : CrosschainOperation) : Prop where
  crossChain : w.payments.CrossChain operation.attemptId
  message : w.HasMessage operation.attemptId

theorem Settleable.evolves {w' : Site} {operation : CrosschainOperation}
    (h : Settleable w operation) (hev : w.Evolves w') : Settleable w' operation :=
  ⟨hev.payments.crossChain h.crossChain, hev.hasMessage h.message⟩

theorem wp_finalizeCctpSettlement {operation : CrosschainOperation} (attempt : AttemptTerms)
    (hid : attempt.id = operation.attemptId) (destinationTxHash : Hash) (hw : w.Consistent)
    (able : Settleable w operation) :
    (Worker.finalizeCctpSettlement operation attempt destinationTxHash).wp config me
      (fun _ _ => True) w := by
  unfold Worker.finalizeCctpSettlement
  split
  swap
  · trivial
  split
  swap
  · trivial
  split
  swap
  · trivial
  split
  swap
  · trivial
  rename_i minted _
  -- an amount of another chain is whatever was minted
  have amount : ∀ a ∈ w.payments.db.attempts, a.id = attempt.id →
      legitimate a.toAttemptTerms minted := by
    intro a ha haid sameChain
    obtain ⟨b, hb, hbid, route⟩ := able.crossChain
    rw [attempt_eq ha hb (haid.trans (hid.trans hbid.symm))] at sameChain
    exact absurd sameChain route
  apply wp_seq
  refine Discipline.wp_mono _ _ (wp_repository hw (wp_settleAttempt _ hw.payments amount))
    fun r w₁ ⟨closes, hw₁, hev₁⟩ => ?_
  cases r with
  | error m => trivial
  | ok result =>
    have closed : w₁.payments.HasClosed operation.attemptId := by
      obtain ⟨b, hb, hbid, -⟩ := able.crossChain
      have := closes ⟨b, hb, hbid.trans hid.symm⟩
      rwa [hid] at this
    apply wp_seq
    refine wp_seq_uses (uses_read trivial) hw₁ (fun _ _ => trivial) fun now w₂ hev₂ hw₂ => ?_
    have finalizes : Finalizes w₂ operation.attemptId
        { status := .settled, destinationTxHash := some destinationTxHash
          mintedAmountAtomic := some minted } :=
      ⟨hev₂.payments.hasClosed closed, hev₂.hasMessage (hev₁.hasMessage able.message),
        ⟨destinationTxHash, minted, rfl⟩⟩
    refine wp_op (o := .inr (.inl (.updateCrosschainOperation _ _ _))) hw₂ (fun _ => finalizes)
      fun x w₃ _ hw₃ => ?_
    refine wp_seq_uses (uses_outside _) hw₃ (fun _ _ => trivial) fun sent w₄ _ hw₄ => ?_
    exact Discipline.wp_mono _ _ (wp_uses (uses_orFail _ _) hw₄) fun _ _ _ => trivial

theorem wp_operationAttempt {operation : CrosschainOperation}
    {Q : Except String (Option (PaymentAttempt × PaymentIntent)) → Site → Prop} (hw : w.Consistent)
    (thrown : ∀ m w', Q (.error m) w') (missing : ∀ w', Q (.ok none) w')
    (found : ∀ a intent w', a.id = operation.attemptId → w.Evolves w' → w'.Consistent →
      Q (.ok (some (a, intent))) w') :
    (Worker.operationAttempt operation).wp config me Q w := by
  apply wp_seq
  refine wp_readAttempt hw (fun a _ hid w₁ hev₁ hw₁ => ?_) fun _ w₁ _ _ => missing w₁
  refine wp_seq_uses (uses_read trivial) hw₁ thrown fun intent w₂ hev₂ hw₂ => ?_
  cases intent with
  | none => exact missing w₂
  | some intent => exact found a intent w₂ hid (hev₁.trans hev₂) hw₂

theorem wp_settleUsedNonce {operation : CrosschainOperation} (attempt : AttemptTerms)
    (hid : attempt.id = operation.attemptId) (query : Worker.MintQuery) (hw : w.Consistent)
    (able : Settleable w operation) :
    (Worker.settleUsedNonce config operation attempt query).wp config me (fun _ _ => True) w := by
  refine wp_seq_uses (uses_recoverMintTransactionHash _ _ _) hw (fun _ _ => trivial)
    fun recovered w₁ hev₁ hw₁ => ?_
  cases recovered with
  | none => trivial
  | some recovered =>
    refine wp_seq_uses (uses_recordCrosschainMintResult _ _ _) hw₁ (fun _ _ => trivial)
      fun _ w₂ hev₂ hw₂ => ?_
    apply wp_seq
    have able := able.evolves (hev₁.trans hev₂)
    refine Discipline.wp_mono _ _ (wp_finalizeCctpSettlement attempt hid _ hw₂ able)
      fun r w₃ _ => ?_
    cases r <;> trivial

theorem wp_mintCctpSettlement (opId : AttemptId) (hw : w.Consistent) :
    (Worker.mintCctpSettlement config opId).wp config me (fun _ _ => True) w := by
  apply wp_seq
  refine wp_readOperation hw (fun _ _ => trivial) fun operation hr hid w₁ hev₁ hw₁ => ?_
  simp only [Discipline.then_ok]
  split
  · trivial
  split
  swap
  · trivial
  rename_i message hmessage
  split
  swap
  · trivial
  have able : Settleable w₁ operation := by
    have before : Settleable w operation :=
      ⟨hw.routed operation hr, operation, hr, rfl, by rw [hmessage]; rfl⟩
    exact before.evolves hev₁
  apply wp_seq
  refine wp_operationAttempt hw₁ (fun _ _ => trivial) (fun _ => trivial)
    fun attempt intent w₂ hid₂ hev₂ hw₂ => ?_
  simp only [Discipline.then_ok]
  split
  swap
  · trivial
  split
  swap
  · trivial
  split
  · trivial
  refine wp_seq_uses (Prog.uses_ofExcept _ _) hw₂ (fun _ _ => trivial) fun nonce w₃ hev₃ hw₃ => ?_
  split
  · trivial
  refine wp_seq_uses (uses_nonceWasUsed _ _ _) hw₃ (fun _ _ => trivial) fun used w₄ hev₄ hw₄ => ?_
  split
  · exact wp_settleUsedNonce _ hid₂ _ hw₄ (able.evolves (hev₂.trans (hev₃.trans hev₄)))
  · split
    · exact Discipline.wp_mono _ _ (wp_uses (uses_advancePreparedMint _ _ _) hw₄)
        fun _ _ _ => trivial
    · exact Discipline.wp_mono _ _ (wp_uses (uses_startMint _ _ _) hw₄) fun _ _ _ => trivial

/-! ### Scanning the routers -/

theorem wp_scanLog (chainId : ChainId) (log : RouterLog) (hw : w.Consistent) :
    (Worker.scanLog config chainId log).wp config me (fun _ _ => True) w := by
  refine wp_seq_uses (uses_journalLog _ _) hw (fun _ _ => trivial) fun _ w₁ _ hw₁ => ?_
  -- what is done with the attempt that was found, if any
  have handle : ∀ (attempt : PaymentAttempt) (txHash : Hash) (w₂ : Site), w₂.Consistent →
      Worker.wp (do
        Worker.repository (markAttemptProcessing attempt.id txHash)
        (Worker.reconcileAttempt config attempt.id).discard) config me (fun _ _ => True) w₂ := by
    intro attempt txHash w₂ hw₂
    refine wp_seq_uses (uses_repository (uses_markAttemptProcessing _ _)) hw₂
      (fun _ _ => trivial) fun _ w₃ _ hw₃ => ?_
    apply wp_seq
    refine Discipline.wp_mono _ _ (wp_reconcileAttempt _ hw₃) fun r w₄ _ => ?_
    cases r <;> trivial
  dsimp only
  split
  · exact wp_seq_uses (uses_relay trivial) hw₁ (fun _ _ => trivial)
      fun attempt w₂ _ hw₂ => by
        split
        · exact handle _ _ w₂ hw₂
        · trivial
  · trivial

theorem wp_scanLogs (chainId : ChainId) (logs : List RouterLog) (hw : w.Consistent) :
    (Worker.scanLogs config chainId logs).wp config me (fun _ w' => w'.Consistent) w := by
  induction logs generalizing w with
  | nil => exact hw
  | cons log logs ih =>
    apply wp_seq
    have first := Discipline.wp_evolves workerDiscipline (workerSystem config) hw
      (show (Worker.scanLog config chainId log).wp config me (fun _ _ => True) w from
        wp_scanLog chainId log hw)
    refine Discipline.wp_mono _ _ first fun r w₁ ⟨_, hw₁, _⟩ => ?_
    cases r with
    | error m => exact hw₁
    | ok _ => exact ih hw₁

theorem wp_scanPaymentRouters (chainId : ChainId) (hw : w.Consistent) :
    (Worker.scanPaymentRouters config chainId).wp config me (fun _ _ => True) w := by
  refine wp_seq_uses (uses_outside _) hw (fun _ _ => trivial) fun reply w₁ _ hw₁ => ?_
  refine wp_seq_uses (uses_orFail _ _) hw₁ (fun _ _ => trivial) fun current w₂ _ hw₂ => ?_
  refine wp_seq_uses (uses_relay trivial) hw₂ (fun _ _ => trivial) fun stored w₃ _ hw₃ => ?_
  refine wp_seq_uses (uses_verifyRouterCheckpoint _ _) hw₃ (fun _ _ => trivial)
    fun checkpoint w₄ _ hw₄ => ?_
  refine wp_seq_uses (uses_relay trivial) hw₄ (fun _ _ => trivial) fun routers w₅ _ hw₅ => ?_
  refine wp_ite (fun _ => trivial) fun _ => wp_ite (fun _ => trivial) fun _ => ?_
  refine wp_seq_uses (uses_outside _) hw₅ (fun _ _ => trivial) fun reply w₆ _ hw₆ => ?_
  refine wp_seq_uses (uses_orFail _ _) hw₆ (fun _ _ => trivial) fun logs w₇ _ hw₇ => ?_
  apply wp_seq
  refine Discipline.wp_mono _ _ (wp_scanLogs _ _ hw₇) fun r w₈ hw₈ => ?_
  cases r with
  | error m => trivial
  | ok _ =>
    refine wp_seq_uses (uses_outside _) hw₈ (fun _ _ => trivial) fun reply w₉ _ hw₉ => ?_
    refine wp_seq_uses (uses_orFail _ _) hw₉ (fun _ _ => trivial) fun block w₁₀ _ hw₁₀ => ?_
    exact wp_seq_uses (uses_relay trivial) hw₁₀ (fun _ _ => trivial) fun _ _ _ _ => trivial

/-! ### The worker -/

theorem initial_site_consistent (clock : Timestamp) : (Site.initial clock).Consistent where
  payments := initial_consistent clock
  amounts _ hc := by cases hc
  routed _ hr := by cases hr

/-- Every handler of the worker follows the discipline. -/
theorem worker_obeys (config : Config) :
    workerDiscipline.Obeys (workerSystem config) (fun _ _ => True) where
  env e w hw _ := by
    cases e with
    | payments e =>
      have keeps : w.Keeps (WorkerSurroundings.move (.payments e) w) := by
        refine keeps_payments hw (surroundings_keep e hw.payments) fun c hc => .inl ?_
        cases e <;> exact hc
      exact ⟨⟨keeps.1, keeps.2⟩, fun _ => trivial⟩
    | execute e => exact ⟨⟨⟨hw.payments, hw.amounts, hw.routed⟩, .rfl _, fun r hr => ⟨r, hr, .rfl r⟩⟩,
        fun _ => trivial⟩
  call c me w₀ w _ _ later := by
    have hw := later.inv
    have harmless : ∀ {p : Worker Bool}, p.Uses WorkerOp.Harmless →
        p.wp config me (fun _ _ => True) w := by
      intro p hp
      exact Discipline.wp_mono _ _ (wp_uses hp hw) fun _ _ _ => trivial
    cases c with
    | request c =>
      refine harmless (Prog.uses_bind (uses_repository ?_) fun _ => trivial)
      exact uses_repositoryBody c.2
    | verifyReportedSourceTransaction attemptId txHash =>
      exact harmless (uses_verifyReportedSourceTransaction attemptId txHash)
    | reconcileAttempt attemptId =>
      exact Discipline.wp_mono _ _ (wp_reconcileAttempt attemptId hw) fun _ _ _ => trivial
    | advanceCctpAttestation operation =>
      exact harmless (uses_advanceCctpAttestation config operation)
    | mintCctpSettlement operation => exact wp_mintCctpSettlement operation hw
    | scanPaymentRouters chainId => exact wp_scanPaymentRouters chainId hw

end ParmeliaLinks.Payments
