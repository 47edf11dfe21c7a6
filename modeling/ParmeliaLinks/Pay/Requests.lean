/-
ParmeliaLinks/Pay/Requests.lean

Every payment route and the reconciler keep to the discipline of
`Pay.Submission`, under any interleaving.  So each step of each run meets what the
handlers are expected to ensure of it (`along_expected`).
-/
import ParmeliaLinks.Pay.Submission

namespace ParmeliaLinks.Pay

open Prog

variable {env : Env} {i : Nat} {w w' : World} {q : RequestId} {h : Hash}

/-! ### Handlers that leave the claims alone -/

/-- An operation, and the rest. -/
theorem uses_op {α : Type} {P : PayOp → Prop} {o : PayOp} {f : PayOp.Reply o → PayHandler α}
    (ho : P o) (hf : ∀ r, (f r).Uses P) : Uses P ((perform o).bind f) :=
  ⟨ho, hf⟩

/-- A statement whose failure is thrown. -/
theorem uses_statement {α : Type} {P : PayOp → Prop} {o : PayOp}
    {f : PayOp.Reply o → Except String α} (ho : P o) :
    Uses P ((perform o).bind fun r => Prog.ofExcept (f r)) :=
  uses_op ho fun _ => uses_ofExcept _ _

/-- A statement that needs nothing. -/
theorem uses_calm {α : Type} {o : PayOp} {f : PayOp.Reply o → Except String α}
    (calm : o.Calm) : Uses PayOp.Calm ((perform o).bind fun r => Prog.ofExcept (f r)) :=
  uses_statement calm

/-- A statement that needs nothing, and the rest. -/
theorem uses_then {α β : Type} {o : PayOp} {g : PayOp.Reply o → Except String α}
    {f : α → PayHandler β} (calm : o.Calm) (hf : ∀ a, (f a).Uses PayOp.Calm) :
    Uses PayOp.Calm ((perform o).bind fun r => (Prog.ofExcept (g r)).bind f) :=
  uses_op calm fun _ => uses_bind (uses_ofExcept _ _) hf

theorem uses_orThrow {α : Type} {P : PayOp → Prop} (r : Except RpcError α) :
    (orThrow r).Uses P := by
  cases r <;> trivial

theorem uses_auxiliary (function : String) : (auxiliary function).Uses PayOp.Calm :=
  uses_calm ⟨nofun, rfl, fun _ _ => trivial⟩

theorem uses_receiptOf (mode : Mode) (txHash : Option Hash) :
    (receiptOf mode h txHash).Uses PayOp.Calm := by
  unfold receiptOf
  split
  · trivial
  · exact uses_op ⟨nofun, rfl, fun _ _ => trivial⟩ fun _ => uses_orThrow _

theorem uses_onlyIf {P : PayOp → Prop} {p : PayHandler Unit} (condition : Bool)
    (hp : p.Uses P) : (onlyIf condition p).Uses P := by
  unfold onlyIf
  split
  · exact hp
  · trivial

theorem uses_logged {P : PayOp → Prop} {p : PayHandler Unit} (hp : p.Uses P) :
    (logged p).Uses P :=
  uses_bind (uses_attempt hp) fun _ => trivial

theorem uses_now {α : Type} {f : Timestamp → PayHandler α} (hf : ∀ t, (f t).Uses PayOp.Calm) :
    Uses PayOp.Calm ((perform .now).bind f) :=
  uses_op ⟨nofun, rfl, fun _ _ => trivial⟩ hf

theorem uses_createPendingPayment (row : PendingPayment) :
    (createPendingPayment row).Uses PayOp.Calm := by
  refine uses_now fun createdAt => ?_
  refine uses_then ⟨nofun, rfl, fun _ _ => trivial⟩ fun _ => ?_
  exact uses_calm ⟨nofun, rfl, fun _ _ => rfl⟩

theorem uses_storePrepared (r : PrepareRequest) (linkId : Option LinkId) :
    (storePrepared r linkId).Uses PayOp.Calm := by
  refine uses_then ⟨nofun, rfl, fun _ _ => trivial⟩ fun built => ?_
  exact uses_bind (uses_createPendingPayment _) fun _ => trivial

theorem uses_linkRefusal (id : LinkId) : (linkRefusal id).Uses PayOp.Calm := by
  refine uses_then ⟨nofun, rfl, fun _ _ => trivial⟩ fun link => ?_
  cases link with
  | none => trivial
  | some link =>
    dsimp only
    split
    · trivial
    refine uses_then ⟨nofun, rfl, fun _ _ => trivial⟩ fun intent => ?_
    refine uses_now fun now => ?_
    split <;> trivial

theorem uses_preparePayment (r : PrepareRequest) :
    (preparePayment env r).Uses PayOp.Calm := by
  refine uses_tryCatch ?_ fun _ => trivial
  split
  · exact uses_storePrepared r none
  · split
    · trivial
    · exact uses_bind (uses_auxiliary _) fun _ => uses_storePrepared r none
    · refine uses_bind (uses_linkRefusal _) fun refused => ?_
      cases refused with
      | none => exact uses_storePrepared r _
      | some response => trivial

theorem uses_linkRecheck (id : LinkId) : (linkRecheck id).Uses PayOp.Calm := by
  refine uses_then ⟨nofun, rfl, fun _ _ => trivial⟩ fun link => ?_
  split
  · trivial
  refine uses_then ⟨nofun, rfl, fun _ _ => trivial⟩ fun intent => ?_
  refine uses_now fun now => ?_
  split <;> trivial

theorem uses_setPendingPaymentSubmitted (transport : Mode) (txHash : Option Hash) :
    (setPendingPaymentSubmitted h transport txHash).Uses PayOp.Calm :=
  uses_now fun _ => uses_calm ⟨nofun, rfl, fun _ _ => trivial⟩

theorem uses_markClaimed (txHash : Hash) (linkId : Option LinkId) :
    (markClaimed h txHash linkId).Uses PayOp.Calm := by
  cases linkId with
  | none => trivial
  | some id => exact uses_calm ⟨nofun, rfl, fun _ _ => trivial⟩

theorem uses_recordSubmission (r : SubmitRequest) (pending : PendingPayment)
    (linkId : Option LinkId) (submission : UserOperationSendResult) :
    (recordSubmission r pending linkId submission).Uses PayOp.Calm := by
  refine uses_bind (uses_setPendingPaymentSubmitted _ _) fun _ => ?_
  refine uses_bind (uses_onlyIf _ (uses_logged (uses_auxiliary _))) fun _ => ?_
  refine uses_bind (uses_markClaimed _ _) fun _ => ?_
  refine uses_bind (uses_onlyIf _ (uses_auxiliary _)) fun _ => ?_
  exact uses_onlyIf _ (uses_logged (uses_auxiliary _))

theorem uses_recordAmbiguous (linkId : Option LinkId) (transport : Mode) :
    (recordAmbiguous h linkId transport).Uses PayOp.Calm := by
  refine uses_bind (uses_logged (uses_setPendingPaymentSubmitted _ _)) fun _ => ?_
  refine uses_bind (uses_logged (uses_auxiliary _)) fun _ => ?_
  exact uses_logged (uses_markClaimed _ _)

theorem uses_settlePayment (row : PendingPayment) (txHash : Hash) :
    (settlePayment row txHash).Uses PayOp.Calm := by
  have select : (selectPaidLink row.paidLink).Uses PayOp.Calm := by
    cases row.paidLink with
    | none => trivial
    | some id => exact uses_calm ⟨nofun, rfl, fun _ _ => trivial⟩
  refine uses_bind select fun storedLink => ?_
  refine uses_bind (uses_auxiliary _) fun _ => ?_
  refine uses_bind ?_ fun _ => uses_logged (uses_auxiliary _)
  cases storedLink with
  | none => trivial
  | some link =>
    refine uses_then ⟨nofun, rfl, fun _ _ => trivial⟩ fun intent => ?_
    refine uses_bind (uses_auxiliary _) fun _ => ?_
    refine uses_now fun paidAt => ?_
    exact uses_then ⟨nofun, rfl, fun _ _ => trivial⟩ fun _ => trivial

theorem uses_recoverLogs (row : PendingPayment) (txHash : Option Hash) :
    (recoverLogs row txHash).Uses PayOp.Calm :=
  uses_bind (uses_receiptOf _ _) fun _ => trivial

theorem uses_safeBlockNumber : safeBlockNumber.Uses PayOp.Calm := by
  refine uses_op ⟨nofun, rfl, fun _ _ => trivial⟩ fun safe => ?_
  cases safe with
  | ok number => trivial
  | error e => exact uses_op ⟨nofun, rfl, fun _ _ => trivial⟩ fun _ => uses_orThrow _

theorem uses_completePaymentReconcileRequest :
    (completePaymentReconcileRequest q h).Uses PayOp.Calm :=
  uses_now fun _ => uses_calm ⟨nofun, rfl, fun _ _ => trivial⟩

theorem uses_reschedulePaymentReconcileRequest (delayMs : Nat) (errorCode : Option String)
    (terminal : Bool) :
    (reschedulePaymentReconcileRequest q h delayMs errorCode terminal).Uses PayOp.Calm :=
  uses_now fun _ => uses_calm ⟨nofun, rfl, fun _ _ => trivial⟩

theorem uses_claimPaymentReconcileRequest (leaseMs : Nat) :
    (claimPaymentReconcileRequest q h leaseMs).Uses PayOp.Calm :=
  uses_now fun _ => uses_calm ⟨nofun, rfl, fun _ _ => trivial⟩

theorem uses_sweepTerminalPendingPayments :
    sweepTerminalPendingPayments.Uses PayOp.Calm :=
  uses_now fun _ => uses_calm ⟨nofun, rfl, fun _ _ => trivial⟩

/-! ### Handlers that read a row -/

theorem uses_reads {α : Type} {p : PayHandler α} (hp : p.Uses PayOp.Calm) :
    p.Uses (PayOp.Reads q) :=
  uses_mono hp fun _ => .inl

theorem uses_getPendingPaymentAnyState :
    (getPendingPaymentAnyState q h).Uses (PayOp.Reads q) :=
  uses_statement (.inr ⟨h, rfl⟩)

theorem uses_getPendingPayment : (getPendingPayment q h).Uses (PayOp.Reads q) := by
  refine uses_bind uses_getPendingPaymentAnyState fun row => ?_
  cases row with
  | none => trivial
  | some row =>
    refine uses_reads (uses_now fun now => ?_)
    split
    · refine uses_bind ?_ fun _ => trivial
      unfold collectExpired
      split
      · exact uses_calm ⟨nofun, rfl, fun _ _ => trivial⟩
      · trivial
    · trivial

theorem uses_admitSubmission (r : SubmitRequest) :
    (admitSubmission env q r).Uses (PayOp.Reads q) := by
  unfold admitSubmission
  split
  · trivial
  refine uses_bind uses_getPendingPayment fun pending => ?_
  cases pending with
  | none => trivial
  | some pending =>
    dsimp only
    split
    · trivial
    split
    · trivial
    have recheck : (recheckPaid pending.paidLink).Uses PayOp.Calm := by
      cases pending.paidLink with
      | none => trivial
      | some id => exact uses_linkRecheck id
    refine uses_reads (uses_bind recheck fun refused => ?_)
    cases refused with
    | some response => trivial
    | none =>
      refine uses_then ⟨nofun, rfl, fun _ _ => trivial⟩ fun wrapped => ?_
      split <;> trivial

theorem uses_duplicateSubmission : (duplicateSubmission q h).Uses (PayOp.Reads q) :=
  uses_bind uses_getPendingPaymentAnyState fun _ => trivial

/-! ### Single operations -/

variable {x : Answer}

/-- A request begins with nothing claimed. -/
theorem wp_begin {α : Type} {f : RequestId → PayHandler α} {Q : Except String α → World → Prop}
    (hw : w.Sane) (rest : ∀ q w', w'.Sane → w'.Idle q i → (f q).wp env i Q w') :
    PayHandler.wp ((perform .begin).bind f) env i Q w := by
  refine wp_op (fun _ => performs_begin hw) fun x _ w' later => rest w.begun w' later.inv ?_
  have started : (PayOp.exec i .begin x w).2.history w.begun = { thread := some i } := by
    simp [PayOp.exec, World.noting]
  have history : w'.history w.begun = { thread := some i } := by
    rw [later.relied w.begun (by rw [started]), started]
  constructor <;> rw [history]

/-- An operation that leaves the histories alone, and the rest. -/
theorem wp_quiet_op {α : Type} {o : PayOp} {f : PayOp.Reply o → PayHandler α}
    {Q : Except String α → World → Prop} (hw : w.Sane) (begun : o ≠ .begin)
    (quiet : o.request? = none) (expected : ∀ x, o.Expected x w)
    (rest : ∀ x w', LaterFor i w w' → (f (o.exec i x w).1).wp env i Q w') :
    PayHandler.wp ((perform o).bind f) env i Q w := by
  refine wp_op (fun x => performs_of hw begun (fun q mine => ?_) (expected x)) fun x _ w' later =>
    rest x w' (payDiscipline.later_trans (later_exec hw begun quiet) later)
  rw [quiet] at mine
  cases mine

/-- The clock is read, and goes on. -/
theorem wp_now {α : Type} {f : Timestamp → PayHandler α} {Q : Except String α → World → Prop}
    (hw : w.Sane)
    (rest : ∀ t w', LaterFor i w w' → t ≤ w'.clock → (f t).wp env i Q w') :
    PayHandler.wp ((perform .now).bind f) env i Q w :=
  wp_calm_op ⟨nofun, rfl, fun _ _ => trivial⟩ hw fun _ w' later =>
    rest w.clock w' later later.evolves.clock

theorem wp_ofExcept {α : Type} {r : Except String α} {Q : Except String α → World → Prop}
    (h : Q r w) : PayHandler.wp (Prog.ofExcept r) env i Q w := by
  cases r <;> exact h

/-- A statement of the request that owns it, whose failure is thrown. -/
theorem wp_own {α : Type} {o : PayOp} {g : PayOp.Reply o → Except String α}
    {Q : Except String α → World → Prop} (hw : w.Sane) (begun : o ≠ .begin)
    (mine : o.request? = some q) (own : (w.history q).thread = some i)
    (expected : ∀ x, o.Expected x w)
    (post : ∀ x w', LaterFor i (o.exec i x w).2 w' → Q (g (o.exec i x w).1) w') :
    PayHandler.wp ((perform o).bind fun r => Prog.ofExcept (g r)) env i Q w := by
  refine wp_op (fun x => performs_of hw begun (fun q' hq' => ?_) (expected x))
    fun x _ w' later => wp_ofExcept (post x w' later)
  rw [mine] at hq'
  rw [← Option.some.inj hq']
  exact own

/-! ### Claims -/

theorem deliver_world {α : Type} (x : Outcome) (w : World) (r : α × World) :
    (PayOp.deliver x w r).2 = w ∨ (PayOp.deliver x w r).2 = r.2 := by
  cases x with
  | done => exact .inr rfl
  | lost m => exact .inl rfl
  | unacknowledged m => exact .inr rfl

theorem of_deliver_ok {α : Type} {x : Outcome} {r : α × World} {a : α}
    (h : (PayOp.deliver x w r).1 = .ok a) : r.1 = a ∧ (PayOp.deliver x w r).2 = r.2 := by
  cases x with
  | done => exact ⟨Except.ok.inj h, rfl⟩
  | lost m => cases h
  | unacknowledged m => cases h

/-- A claim that succeeds is noted. -/
theorem claimPending_claimed {t : Timestamp} (claimed : (w.claimPending q h t).1 = true) :
    ((w.claimPending q h t).2.history q).operation = some h ∧
      ((w.claimPending q h t).2.history q).accepted = (w.history q).accepted := by
  have step := frame_updatePending none w h (· == .prepared)
    (fun r =>
      { r with
        status := .submitting, submissionAttemptCount := r.submissionAttemptCount + 1
        lastSubmissionErrorCode := none })
    ⟨fun _ _ => rfl⟩
  have history := step.history q nofun
  simp only [World.claimPending] at claimed ⊢
  rw [if_pos claimed]
  split <;> simp [World.noting, history]

/-- Giving the row back takes the operation from the request at most. -/
theorem releasePending_history {errorCode : Option String} :
    (w.releasePending q h errorCode).history q = w.history q ∨
      (w.releasePending q h errorCode).history q = { w.history q with operation := none } := by
  have step := frame_updatePending none w h (· == .submitting)
    (fun r => { r with status := .prepared, lastSubmissionErrorCode := errorCode })
    ⟨fun _ _ => rfl⟩
  have history := step.history q nofun
  simp only [World.releasePending]
  split
  · exact .inr (by simp [World.noting, history])
  · exact .inl history

theorem bears_claimLink {id : LinkId} {owner : Hash} {expiresAt t : Timestamp} :
    w.Bears q (PayOp.exec i (.claimLink q id owner expiresAt t) x w).2 := by
  have claimed : w.Bears q (w.claimLink q id owner expiresAt t).2 := by
    unfold World.claimLink
    split
    · constructor <;> simp [World.noting]
    · exact .rfl
  rcases deliver_world x.outcome w (w.claimLink q id owner expiresAt t) with same | same
  · have same : (PayOp.exec i (.claimLink q id owner expiresAt t) x w).2 = w := same
    rw [same]
    exact .rfl
  · have same : (PayOp.exec i (.claimLink q id owner expiresAt t) x w).2 = _ := same
    rw [same]
    exact claimed

/-- The request is giving its claims back. -/
structure World.Returning (w : World) (q : RequestId) (i : Nat) (h : Hash) : Prop where
  thread : (w.history q).thread = some i
  accepted : (w.history q).accepted = false
  operation : (w.history q).operation = some h ∨ (w.history q).operation = none

theorem World.Returning.bears (r : w.Returning q i h) (b : w.Bears q w') :
    w'.Returning q i h := by
  refine ⟨b.thread.trans r.thread, b.accepted.trans r.accepted, ?_⟩
  rw [b.operation]
  exact r.operation

theorem wp_releasePendingClaim {errorCode : Option String} (hw : w.Sane)
    (returning : w.Returning q i h) :
    (releasePendingClaim q h errorCode).wp env i
      (fun _ w' => w'.Sane ∧ w'.Returning q i h) w := by
  refine wp_own hw nofun rfl returning.thread
    (fun _ => ⟨returning.accepted, returning.operation⟩) fun x w' later => ?_
  have released : (PayOp.exec i (.releasePending q h errorCode) x w).2.Returning q i h := by
    have given : (w.releasePending q h errorCode).Returning q i h := by
      rcases releasePending_history (w := w) (q := q) (h := h) with kept | gone
      · exact returning.bears (.of_eq kept)
      · constructor <;> rw [gone]
        · exact returning.thread
        · exact returning.accepted
        · exact .inr rfl
    rcases deliver_world x.outcome w ((), w.releasePending q h errorCode) with same | same
    · rwa [show (PayOp.exec i (.releasePending q h errorCode) x w).2 = w from same]
    · rwa [show (PayOp.exec i (.releasePending q h errorCode) x w).2 =
        w.releasePending q h errorCode from same]
  exact ⟨later.inv, released.bears (.of_later later released.thread)⟩

theorem wp_logged {p : PayHandler Unit} {Q R : Except String Unit → World → Prop}
    (first : p.wp env i R w) (post : ∀ r w', R r w' → Q (.ok ()) w') :
    (logged p).wp env i Q w :=
  wp_attempted first post

theorem wp_releaseStored (release : Release) (linkId : Option LinkId) (hw : w.Sane)
    (expected : ∀ x id, PayOp.Expected (.releaseLink q id h release) x w) :
    (releaseStored q h release linkId).wp env i (fun _ w' => LaterFor i w w') w := by
  cases linkId with
  | none => exact payDiscipline.later_refl hw
  | some id =>
    exact wp_quiet_op hw nofun rfl (fun x => expected x id) fun x w' later => wp_ofExcept later

theorem wp_giveBack (linkId : Option LinkId) (errorCode : String) (hw : w.Sane)
    (returning : w.Returning q i h) :
    (giveBack q h linkId errorCode).wp env i (fun _ w' => w'.Sane) w := by
  have released : (logged (releasePendingClaim q h (some errorCode))).wp env i
      (fun _ w' => w'.Sane ∧ w'.Returning q i h) w :=
    wp_logged (wp_releasePendingClaim hw returning) fun _ _ outcome => outcome
  refine wp_seq released (fun _ w₁ outcome => ?_) fun _ w₁ outcome => outcome.1
  have release : (releaseStored q h .unsent linkId).wp env i (fun _ w' => LaterFor i w₁ w') w₁ :=
    wp_releaseStored .unsent linkId outcome.1 fun x id => outcome.2.accepted
  exact wp_logged release fun r w' later => later.inv

/-! ### `/pay/submit` -/

theorem returning_of_holds (holds : w.Holds q i h) (unsent : (w.history q).accepted = false) :
    w.Returning q i h :=
  ⟨holds.thread, unsent, .inl holds.operation⟩

theorem wp_submitClaimed (r : SubmitRequest) (pending : PendingPayment) (linkId : Option LinkId)
    (hw : w.Sane) (holds : w.Holds q i r.userOpHash) (unsent : (w.history q).accepted = false) :
    (submitClaimed env q r pending linkId).wp env i (fun _ w' => w'.Sane) w := by
  refine wp_seq (wp_sendUserOperation _ hw holds unsent) (fun result w₁ tried => ?_)
    fun m w₁ tried => tried.1
  cases result with
  | ok submission =>
    refine wp_attempted (wp_calm (uses_recordSubmission r pending linkId submission) tried.1)
      fun recorded w₂ later => ?_
    cases recorded <;> exact later.inv
  | error e =>
    obtain ⟨sane, holds₁, doubt⟩ := tried
    refine wp_quiet_op sane nofun rfl (fun _ => doubt) fun x w₂ later => ?_
    have holds₂ := holds₁.later later
    split
    · refine wp_seq (wp_calm (uses_recordAmbiguous linkId e.ambiguousTransport) later.inv)
        (fun _ w₃ later₃ => later₃.inv) fun _ w₃ later₃ => later₃.inv
    · rename_i certain
      have unsent₂ : (w₂.history q).accepted = false := by
        rw [accepted_later later holds₁.thread, ← Bool.not_eq_true]
        exact fun accepted => certain (doubt accepted)
      exact wp_seq (wp_giveBack linkId _ later.inv (returning_of_holds holds₂ unsent₂))
        (fun _ w₃ sane₃ => sane₃) fun _ w₃ sane₃ => sane₃

theorem wp_claimPaymentLinkForSubmit (id : LinkId) (expiresAt : Timestamp) (hw : w.Sane)
    (holds : w.Holds q i h) (unsent : (w.history q).accepted = false) :
    (claimPaymentLinkForSubmit q id h expiresAt).wp env i
      (fun _ w' => w'.Sane ∧ w'.Holds q i h ∧ (w'.history q).accepted = false) w := by
  refine wp_now hw fun t w₁ later past => ?_
  have holds₁ := holds.later later
  have unsent₁ := (accepted_later later holds.thread).trans unsent
  refine wp_own later.inv nofun rfl holds₁.thread
    (fun _ => ⟨holds₁.operation, unsent₁, past⟩) fun x w₂ later₂ => ?_
  have bears : w₁.Bears q (PayOp.exec i (.claimLink q id h expiresAt t) x w₁).2 :=
    bears_claimLink
  have bears₂ := bears.trans (.of_later later₂ (bears.thread.trans holds₁.thread))
  exact ⟨later₂.inv, holds₁.bears bears₂, bears₂.accepted.trans unsent₁⟩

theorem wp_submitWithLink (r : SubmitRequest) (pending : PendingPayment) (hw : w.Sane)
    (holds : w.Holds q i r.userOpHash) (unsent : (w.history q).accepted = false) :
    (submitWithLink env q r pending).wp env i (fun _ w' => w'.Sane) w := by
  unfold submitWithLink
  cases pending.paidLink with
  | none => exact wp_submitClaimed r pending none hw holds unsent
  | some id =>
    refine wp_now hw fun t w₁ later _ => ?_
    have unsent₁ := (accepted_later later holds.thread).trans unsent
    have claim : (claimPaymentLinkForSubmit q id r.userOpHash
        (max pending.expiresAt (t + 15 * 60000))).wp env i (fun _ w' =>
          w'.Sane ∧ w'.Holds q i r.userOpHash ∧ (w'.history q).accepted = false) w₁ :=
      wp_claimPaymentLinkForSubmit id _ later.inv (holds.later later) unsent₁
    refine wp_attempted claim fun claimed w₂ ⟨sane, holds₂, unsent₂⟩ => ?_
    have returning := returning_of_holds holds₂ unsent₂
    cases claimed with
    | error message =>
      exact wp_seq (wp_giveBack none _ sane returning) (fun _ w₃ sane₃ => sane₃)
        fun _ w₃ sane₃ => sane₃
    | ok claimed =>
      cases claimed with
      | true => exact wp_submitClaimed r pending (some id) sane holds₂ unsent₂
      | false =>
        refine wp_attempted (wp_releasePendingClaim sane returning)
          fun released w₃ ⟨sane₃, returning₃⟩ => ?_
        cases released with
        | ok _ => exact sane₃
        | error message =>
          exact wp_seq (wp_giveBack none _ sane₃ returning₃) (fun _ w₄ sane₄ => sane₄)
            fun _ w₄ sane₄ => sane₄

/-- What the request finds when it has tried to claim the row. -/
def World.Attempted (q : RequestId) (i : Nat) (h : Hash) (r : Except String Bool) (w : World) :
    Prop :=
  w.Sane ∧ (w.history q).thread = some i ∧
    (r = .ok true → (w.history q).operation = some h ∧ (w.history q).accepted = false)

theorem wp_claimPendingForSubmit (hw : w.Sane) (idle : w.Idle q i) :
    (claimPendingForSubmit q h).wp env i (World.Attempted q i h) w := by
  refine wp_now hw fun t w₁ later _ => ?_
  have idle₁ : w₁.Idle q i := idle.bears (.of_later later idle.thread)
  have wake : ∀ {w : World} (function : String), w.Sane →
      (auxiliary function).wp env i (fun _ w' => LaterFor i w w') w :=
    fun function hw => wp_calm (uses_auxiliary function) hw
  have failed : ∀ {v : World} {m : String}, v.Sane → v.Idle q i →
      World.Attempted q i h (.error m) v := fun sane idle => ⟨sane, idle.thread, nofun⟩
  refine wp_seq (wake _ later.inv) (fun _ w₂ later₂ => ?_) fun m w₂ later₂ =>
    failed later₂.inv (idle₁.bears (.of_later later₂ idle₁.thread))
  have idle₂ : w₂.Idle q i := idle₁.bears (.of_later later₂ idle₁.thread)
  refine wp_seq (wake _ later₂.inv) (fun _ w₃ later₃ => ?_) fun m w₃ later₃ =>
    failed later₃.inv (idle₂.bears (.of_later later₃ idle₂.thread))
  have idle₃ : w₃.Idle q i := idle₂.bears (.of_later later₃ idle₂.thread)
  refine wp_seq (wake _ later₃.inv) (fun _ w₄ later₄ => ?_) fun m w₄ later₄ =>
    failed later₄.inv (idle₃.bears (.of_later later₄ idle₃.thread))
  have idle₄ : w₄.Idle q i := idle₃.bears (.of_later later₄ idle₃.thread)
  refine wp_own later₄.inv nofun rfl idle₄.thread
    (fun _ => ⟨by rw [idle₄.thread]; exact nofun, idle₄.operation, idle₄.accepted⟩)
    fun x w₅ later₅ => ?_
  have frame : w₄.Frame (some q) (PayOp.exec i (.claimPending q h t) x w₄).2 :=
    exec_frame (o := .claimPending q h t) i x w₄ nofun
  have thread := (frame.thread q).trans idle₄.thread
  have same := later₅.relied q thread
  refine ⟨later₅.inv, by rw [same]; exact thread, fun ok => ?_⟩
  obtain ⟨claimed, world⟩ := of_deliver_ok ok
  have world : (PayOp.exec i (.claimPending q h t) x w₄).2 = (w₄.claimPending q h t).2 := world
  have noted := claimPending_claimed claimed
  rw [same, world]
  exact ⟨noted.1, noted.2.trans idle₄.accepted⟩

theorem wp_submitPayment (r : SubmitRequest) (hw : w.Sane) :
    (submitPayment env r).wp env i (fun _ w' => w'.Sane) w := by
  refine wp_begin hw fun q w₁ sane idle => ?_
  refine wp_attempted (wp_reads (uses_admitSubmission r) sane idle.thread)
    fun admitted w₂ ⟨sane₂, bears⟩ => ?_
  have idle₂ := idle.bears bears
  match admitted with
  | .error message => exact sane₂
  | .ok (.error response) => exact sane₂
  | .ok (.ok pending) =>
    refine wp_attempted (wp_claimPendingForSubmit sane₂ idle₂)
      fun claimed w₃ ⟨sane₃, thread, noted⟩ => ?_
    match claimed with
    | .error message => exact sane₃
    | .ok true =>
      obtain ⟨operation, unsent⟩ := noted rfl
      exact wp_submitWithLink r pending sane₃ ⟨thread, operation⟩ unsent
    | .ok false =>
      refine wp_attempted (wp_reads uses_duplicateSubmission sane₃ thread)
        fun answered w₄ ⟨sane₄, _⟩ => ?_
      cases answered <;> exact sane₄

/-! ### `/pay/status` -/

theorem uses_paymentStatus (uid : Nat) (row : Option PendingPayment) :
    Uses PayOp.Calm (match row with
      | none => (return ⟨200, .unknown⟩ : PayHandler Response)
      | some row =>
        if row.uid ≠ uid then return ⟨403, .error "Unauthorized" .wrongAccount⟩
        else if row.status = .submitted then do
          match ← (receiptOf row.submissionTransport h row.submittedTxHash).attempt with
          | .ok (some receipt) =>
            return ⟨200, .sequenced receipt.success receipt.transactionHash row⟩
          | _ => return ⟨200, .state row⟩
        else return ⟨200, .state row⟩) := by
  cases row with
  | none => trivial
  | some row =>
    dsimp only
    split
    · trivial
    split
    · refine uses_bind (uses_attempt (uses_receiptOf _ _)) fun receipt => ?_
      split <;> trivial
    · trivial

theorem wp_paymentStatus (uid : Nat) (hw : w.Sane) :
    (paymentStatus uid h).wp env i (fun _ w' => w'.Sane) w := by
  refine wp_begin hw fun q w₁ sane idle => ?_
  have reads := uses_bind (uses_getPendingPaymentAnyState (q := q) (h := h))
    fun row => uses_reads (uses_paymentStatus (h := h) uid row)
  exact Discipline.wp_mono _ _ (wp_reads reads sane idle.thread) fun _ _ outcome => outcome.1

/-! ### The reconciler -/

/-- The pass has read the row while it was under way. -/
structure World.Watching (w : World) (q : RequestId) (i : Nat) (h : Hash) : Prop where
  thread : (w.history q).thread = some i
  read : w.HasRead q h

theorem World.Watching.later (watching : w.Watching q i h) (later : LaterFor i w w') :
    w'.Watching q i h := by
  have same := later.relied q watching.thread
  constructor
  · rw [same]
    exact watching.thread
  · obtain ⟨r, reading, hash⟩ := watching.read
    exact ⟨r, by rw [same]; exact reading, hash⟩

theorem wp_setPendingPaymentStatus (status : PendingPaymentStatus)
    (txHash : Option (Option Hash)) (hw : w.Sane)
    (expected : ∀ x, PayOp.Expected (.setStatus q h status txHash) x w) :
    (setPendingPaymentStatus q h status txHash).wp env i (fun _ w' => LaterFor i w w') w :=
  wp_quiet_op hw nofun rfl expected fun _ _ later => wp_ofExcept later

/-- A receipt that a transport shows is evidence. -/
theorem wp_receiptOf (mode : Mode) (txHash : Option Hash) (hw : w.Sane) :
    (receiptOf mode h txHash).wp env i
      (fun r w' => LaterFor i w w' ∧ ∀ receipt, r = .ok (some receipt) →
        w'.Evidence h receipt.success) w := by
  unfold receiptOf
  split
  · exact ⟨payDiscipline.later_refl hw, nofun⟩
  refine wp_op (fun x => PayOp.Calm.performs ⟨nofun, rfl, fun _ _ => trivial⟩ hw)
    fun x _ w' later => ?_
  have step : LaterFor i w (PayOp.exec i (.receipt mode h txHash) x w).2 :=
    later_exec hw nofun rfl
  have since := payDiscipline.later_trans step later
  cases reply : (PayOp.exec i (.receipt mode h txHash) x w).1 with
  | error e => exact ⟨since, nofun⟩
  | ok answer =>
    refine ⟨since, fun receipt same => ?_⟩
    obtain rfl : answer = some receipt := Except.ok.inj same
    refine later.evolves.evidence ?_
    have reply : PayOp.call x x.receipt = .ok (some receipt) := reply
    show (PayOp.shown x w h).Evidence h receipt.success
    unfold PayOp.call at reply
    split at reply
    · cases reply
    · rename_i none
      have shown : x.receipt = some receipt := Except.ok.inj reply
      unfold PayOp.shown
      rw [none, shown]
      exact evidence_witness w h receipt.success

theorem wp_discoverTransaction (row : PendingPayment) (txHash : Option Hash) (hw : w.Sane)
    (watching : w.Watching q i row.userOpHash) :
    (discoverTransaction q row txHash).wp env i (fun _ w' => LaterFor i w w') w := by
  unfold discoverTransaction
  split
  · refine wp_seq (wp_receiptOf .bundler none hw) (fun receipt w₁ ⟨later, _⟩ => ?_)
      fun _ w₁ ⟨later, _⟩ => later
    cases receipt with
    | none => exact later
    | some discovery =>
      have watching₁ := watching.later later
      refine wp_seq (wp_setPendingPaymentStatus .submitted _ later.inv fun _ => watching₁.read)
        (fun _ w₂ later₂ => ?_) fun _ w₂ later₂ => payDiscipline.later_trans later later₂
      have since := payDiscipline.later_trans later later₂
      exact wp_seq (wp_calm (uses_onlyIf _ (uses_auxiliary _)) since.inv)
        (fun _ w₃ later₃ => payDiscipline.later_trans since later₃)
        fun _ w₃ later₃ => payDiscipline.later_trans since later₃
  · exact payDiscipline.later_refl hw

theorem wp_directEvidence (row : PendingPayment) (txHash : Option Hash) (hw : w.Sane) :
    (directEvidence row txHash).wp env i
      (fun r w' => LaterFor i w w' ∧ ∀ receipt, r = .ok (some receipt) →
        w'.Evidence row.userOpHash receipt.success) w := by
  refine wp_seq (wp_receiptOf _ _ hw) (fun receipt w₁ ⟨later, shown⟩ => ?_)
    fun _ w₁ ⟨later, _⟩ => ⟨later, nofun⟩
  cases receipt with
  | none => exact ⟨later, nofun⟩
  | some receipt =>
    have evidence := shown receipt rfl
    refine wp_seq (wp_calm uses_safeBlockNumber later.inv) (fun safe w₂ later₂ => ?_)
      fun _ w₂ later₂ => ⟨payDiscipline.later_trans later later₂, nofun⟩
    have since := payDiscipline.later_trans later later₂
    split
    · refine wp_calm_op ⟨nofun, rfl, fun _ _ => trivial⟩ since.inv fun x w₃ later₃ => ?_
      have since₃ := payDiscipline.later_trans since later₃
      cases (PayOp.exec i (.block receipt.blockNumber) x w₂).1 with
      | error e => exact ⟨since₃, nofun⟩
      | ok _ =>
        refine ⟨since₃, fun receipt' same => ?_⟩
        obtain rfl : receipt = receipt' := Option.some.inj (Except.ok.inj same)
        exact later₃.evolves.evidence (later₂.evolves.evidence evidence)
    · exact ⟨since, nofun⟩

theorem wp_closeFailed (row : PendingPayment) (txHash : Option (Option Hash)) (release : Release)
    (hw : w.Sane) (watching : w.Watching q i row.userOpHash) (sent : release ≠ .unsent)
    (refuted : release = .failed → w.refuted row.userOpHash = true) :
    (closeFailed q row txHash release).wp env i (fun _ w' => w'.Sane) w := by
  refine wp_seq (wp_setPendingPaymentStatus .failed txHash hw fun _ => watching.read)
    (fun _ w₁ later => ?_) fun _ w₁ later => later.inv
  have expected : ∀ x id, PayOp.Expected (.releaseLink q id row.userOpHash release) x w₁ := by
    intro x id
    cases release with
    | unsent => exact absurd rfl sent
    | failed => exact later.evolves.refuted _ (refuted rfl)
    | unlanded => trivial
  refine wp_seq (wp_releaseStored release row.storedLink later.inv expected)
    (fun _ w₂ later₂ => ?_) fun _ w₂ later₂ => later₂.inv
  exact wp_seq (wp_calm (uses_onlyIf _ (uses_logged (uses_auxiliary _))) later₂.inv)
    (fun _ w₃ later₃ => later₃.inv) fun _ w₃ later₃ => later₃.inv

theorem wp_closeUnlanded (row : PendingPayment) (hw : w.Sane)
    (watching : w.Watching q i row.userOpHash) :
    (closeUnlanded q row).wp env i (fun _ w' => w'.Sane) w := by
  refine wp_now hw fun t w₁ later _ => ?_
  split
  · refine wp_calm_op ⟨nofun, rfl, fun _ _ => trivial⟩ later.inv fun x w₂ later₂ => ?_
    have watching₂ := (watching.later later).later later₂
    cases (PayOp.exec i (.selectCovered (row.expiresAt + expiryMarginMs)) x w₁).1 with
    | error m => exact later₂.inv
    | ok covered =>
      cases covered with
      | false => exact later₂.inv
      | true => exact wp_closeFailed row none .unlanded later₂.inv watching₂ nofun nofun
  · exact later.inv

theorem wp_conclude (row : PendingPayment) (success : Option Bool) (txHash : Option Hash)
    (hw : w.Sane) (watching : w.Watching q i row.userOpHash)
    (evidence : ∀ b, success = some b → w.Evidence row.userOpHash b) :
    (conclude q row success txHash).wp env i (fun _ w' => w'.Sane) w := by
  unfold conclude
  split
  · refine wp_seq (wp_calm (uses_settlePayment _ _) hw) (fun _ w₁ later => ?_)
      fun _ w₁ later => later.inv
    have proven := later.evolves.evidence (evidence true rfl)
    exact wp_seq (wp_setPendingPaymentStatus .confirmed _ later.inv fun _ => proven)
      (fun _ w₂ later₂ => later₂.inv) fun _ w₂ later₂ => later₂.inv
  · exact wp_closeFailed row _ .failed hw watching nofun fun _ => evidence false rfl
  · exact wp_closeUnlanded row hw watching

theorem wp_reconcileOne (row : PendingPayment) (hw : w.Sane)
    (watching : w.Watching q i row.userOpHash) :
    (reconcileOne q row).wp env i (fun _ w' => w'.Sane) w := by
  refine wp_op (fun x => PayOp.Calm.performs ⟨nofun, rfl, fun _ _ => trivial⟩ hw)
    fun x _ w₁ later => ?_
  have step : LaterFor i w (PayOp.exec i (.selectCanonical row.userOpHash) x w).2 :=
    later_exec hw nofun rfl
  have since := payDiscipline.later_trans step later
  cases reply : (PayOp.exec i (.selectCanonical row.userOpHash) x w).1 with
  | error m => exact later.inv
  | ok canonical =>
    have journal : ∀ c, canonical = some c → w₁.Evidence row.userOpHash c.success := by
      intro c some
      have found : w.canonical row.userOpHash = canonical := (of_deliver_ok reply).1
      exact since.evolves.evidence (hw.shown _ c (found.trans some))
    have watching₁ := watching.later since
    show PayHandler.wp (Prog.bind (discoverTransaction q row _) _) env i _ w₁
    refine wp_seq (wp_discoverTransaction row _ later.inv watching₁) (fun txHash w₂ later₂ => ?_)
      fun _ w₂ later₂ => later₂.inv
    refine wp_seq (wp_calm (uses_onlyIf _ (uses_recoverLogs row txHash)) later₂.inv)
      (fun _ w₃ later₃ => ?_) fun _ w₃ later₃ => later₃.inv
    have direct : (evidenceWithout canonical row txHash).wp env i
        (fun r w' => LaterFor i w₃ w' ∧ ∀ receipt, r = .ok (some receipt) →
          w'.Evidence row.userOpHash receipt.success) w₃ := by
      unfold evidenceWithout
      split
      · exact wp_directEvidence row txHash later₃.inv
      · exact ⟨payDiscipline.later_refl later₃.inv, nofun⟩
    refine wp_seq direct (fun receipt w₄ ⟨later₄, shown⟩ => ?_) fun _ w₄ outcome => outcome.1.inv
    have since₄ := payDiscipline.later_trans later₂ (payDiscipline.later_trans later₃ later₄)
    refine wp_conclude row _ _ later₄.inv (watching₁.later since₄) fun b decided => ?_
    cases canonical with
    | some c =>
      obtain rfl := Option.some.inj decided
      exact since₄.evolves.evidence (journal c rfl)
    | none =>
      cases receipt with
      | none => cases decided
      | some receipt =>
        obtain rfl := Option.some.inj decided
        exact shown receipt rfl

/-- What the pass finds when it has read the row. -/
theorem hasRead_of_select {row : PendingPayment}
    (reply : (PayOp.exec i (.selectPayment q h) x w).1 = .ok (some row))
    (open_ : ¬ (row.status = .confirmed ∨ row.status = .failed)) :
    row.userOpHash = h ∧ (PayOp.exec i (.selectPayment q h) x w).2.HasRead q h := by
  obtain ⟨found, world⟩ := of_deliver_ok reply
  have world : (PayOp.exec i (.selectPayment q h) x w).2 = w.reading q h := world
  have hash : row.userOpHash = h := by simpa using Table.of_find? found
  refine ⟨hash, ?_⟩
  rw [world]
  have found : w.payment? h = some row := found
  refine ⟨⟨h, w.confirmations h, w.failures h⟩, ?_, rfl⟩
  simp [World.reading, World.noting, found, not_or.1 open_]

theorem wp_reconcileRequest (attemptCount : Nat) (hw : w.Sane)
    (own : (w.history q).thread = some i) :
    (reconcileRequest q h attemptCount).wp env i (fun _ w' => w'.Sane) w := by
  have complete : ∀ {w : World}, w.Sane →
      (completePaymentReconcileRequest q h).wp env i (fun _ w' => w'.Sane) w := fun hw =>
    Discipline.wp_mono _ _ (wp_calm uses_completePaymentReconcileRequest hw)
      fun _ _ later => later.inv
  refine wp_op (fun x => performs_of hw nofun (fun q' hq' => ?_) trivial) fun x _ w₁ later => ?_
  · obtain rfl := Option.some.inj hq'
    exact own
  have frame : w.Frame (some q) (PayOp.exec i (.selectPayment q h) x w).2 :=
    exec_frame (o := .selectPayment q h) i x w nofun
  have thread := (frame.thread q).trans own
  cases reply : (PayOp.exec i (.selectPayment q h) x w).1 with
  | error m => exact later.inv
  | ok found =>
    cases found with
    | none => exact complete later.inv
    | some row =>
      show PayHandler.wp (if row.status = .confirmed ∨ row.status = .failed then _ else _) env i _ w₁
      split
      · exact complete later.inv
      · rename_i under
        obtain ⟨rfl, read⟩ := hasRead_of_select reply under
        have watching : (PayOp.exec i (.selectPayment q row.userOpHash) x w).2.Watching q i
            row.userOpHash := ⟨thread, read⟩
        refine wp_seq (wp_reconcileOne row later.inv (watching.later later))
          (fun terminal w₂ sane => ?_) fun _ w₂ sane => sane
        cases terminal with
        | true => exact complete sane
        | false =>
          exact Discipline.wp_mono _ _
            (wp_calm (uses_reschedulePaymentReconcileRequest _ _ _) sane)
            fun _ _ later₃ => later₃.inv

theorem wp_reconcileDue (attempts : Nat) (hw : w.Sane) :
    (reconcileDue h attempts).wp env i (fun _ w' => w'.Sane) w := by
  refine wp_begin hw fun q w₁ sane idle => ?_
  refine wp_seq (wp_calm (uses_claimPaymentReconcileRequest _) sane) (fun claimed w₂ later => ?_)
    fun _ w₂ later => later.inv
  have own : (w₂.history q).thread = some i := (idle.bears (.of_later later idle.thread)).thread
  cases claimed with
  | false => exact later.inv
  | true =>
    refine wp_attempted (wp_reconcileRequest _ later.inv own) fun outcome w₃ sane₃ => ?_
    cases outcome with
    | ok _ => exact sane₃
    | error m =>
      exact Discipline.wp_mono _ _
        (wp_calm (uses_reschedulePaymentReconcileRequest _ _ _) sane₃) fun _ _ later₄ => later₄.inv

theorem wp_reconcileAll (requests : List (Hash × Nat)) (hw : w.Sane) :
    (reconcileAll requests).wp env i (fun _ w' => w'.Sane) w := by
  induction requests generalizing w with
  | nil => exact hw
  | cons request requests ih =>
    exact wp_seq (wp_reconcileDue request.2 hw) (fun _ w₁ sane => ih sane) fun _ w₁ sane => sane

theorem wp_reconcilerPass (hw : w.Sane) :
    reconcilerPass.wp env i (fun _ w' => w'.Sane) w := by
  have enqueue : enqueueMissingReconcileRequests.Uses PayOp.Calm :=
    uses_now fun _ => uses_calm ⟨nofun, rfl, fun _ _ => trivial⟩
  have list : (listDuePaymentReconcileRequests reconcileBatchSize).Uses PayOp.Calm :=
    uses_now fun _ => uses_calm ⟨nofun, rfl, fun _ _ => trivial⟩
  refine wp_seq (wp_calm enqueue hw) (fun _ w₁ later => ?_) fun _ w₁ later => later.inv
  refine wp_seq (wp_calm list later.inv) (fun requests w₂ later₂ => ?_) fun _ w₂ later₂ => later₂.inv
  refine wp_seq (wp_reconcileAll requests later₂.inv) (fun _ w₃ sane => ?_) fun _ w₃ sane => sane
  have swept := uses_bind uses_sweepTerminalPendingPayments
    fun _ => uses_auxiliary "sweepRateLimits"
  exact Discipline.wp_mono _ _ (wp_calm swept sane) fun _ _ later₃ => later₃.inv

theorem wp_runPaymentReconciler (hw : w.Sane) :
    (runPaymentReconciler env).wp env i (fun _ w' => w'.Sane) w := by
  unfold runPaymentReconciler
  split
  · exact hw
  refine (Discipline.wp_tryCatch _ _ _ _ _ _).2 ?_
  refine Discipline.wp_mono _ _ (wp_reconcilerPass hw) fun r w' sane => ?_
  cases r <;> exact sane

/-! ### Every run -/

/-- The journal follows the chain, and what it had shown stays shown. -/
theorem journal_move (h : Hash) (c : Option CanonicalUserOperation) (hw : w.Sane) :
    payDiscipline.Moves w (w.setCanonical h c) := by
  let w₁ : World := { w with canonical := fun h' => if h' = h then c else w.canonical h' }
  have followed : ∀ {v : World}, w₁.Frame none v → (∀ r, c = some r → v.Evidence h r.success) →
      payDiscipline.Moves w v := by
    intro v frame shown
    have grows : w.Grows v := ⟨Nat.le_of_eq frame.clock.symm, frame.proven, frame.refuted⟩
    refine ⟨⟨⟨fun q hq => ?_, fun o r hr => ?_⟩, grows⟩, fun j q _ => frame.history q nofun⟩
    · rw [frame.thread] at hq
      rw [frame.begun]
      exact hw.begun q hq
    · rw [frame.canonical] at hr
      simp only [w₁] at hr
      split at hr
      · rename_i same
        rw [same]
        exact shown r hr
      · exact grows.evidence (hw.shown o r hr)
  cases c with
  | none => exact followed .rfl nofun
  | some r =>
    have trigger : w₁.Frame none (w₁.onReceipt h w.clock) := by
      unfold World.onReceipt
      split
      · exact .of_eq rfl rfl rfl rfl rfl rfl
      · exact .rfl
    refine followed (trigger.trans (frame_witness _ h r.success)) fun r' same => ?_
    obtain rfl := Option.some.inj same
    exact evidence_witness _ h r.success

theorem surroundings_move (e : Surroundings) (hw : w.Sane) :
    payDiscipline.Moves w (e.move w) := by
  have moves : (e.move w).Sane → w.Grows (e.move w) → (e.move w).history = w.history →
      payDiscipline.Moves w (e.move w) :=
    fun sane grows same => ⟨⟨sane, grows⟩, fun j q _ => by rw [same]⟩
  have quiet {w' : World} (frame : w.Frame none w') : payDiscipline.Moves w w' :=
    ⟨⟨frame.sane hw, frame.grows⟩, fun j q _ => frame.history q nofun⟩
  have decided (h : Hash) (fate : Fate) : w.Frame none (w.decideFate h fate) := by
    unfold World.decideFate
    split
    · exact .of_eq rfl rfl rfl rfl rfl rfl
    · exact .rfl
  cases e with
  | tick milliseconds =>
    exact moves ⟨hw.begun, hw.shown⟩ ⟨Nat.le_add_right _ _, fun _ h => h, fun _ h => h⟩ rfl
  | createLink l => exact quiet (.of_eq rfl rfl rfl rfl rfl rfl)
  | createIntent i => exact quiet (.of_eq rfl rfl rfl rfl rfl rfl)
  | updateIntent id status => exact quiet (.of_eq rfl rfl rfl rfl rfl rfl)
  | mine h success =>
    simp only [Surroundings.move]
    split
    · exact quiet (decided h _)
    · exact quiet .rfl
  | drop h => exact quiet (decided h _)
  | journal h c => exact journal_move h c hw
  | cover t => exact quiet (.of_eq rfl rfl rfl rfl rfl rfl)

theorem requests_obey (env : Env) : payDiscipline.Obeys (paySystem env) (fun _ w => w.Sane) where
  env e _ hw _ := surroundings_move e hw
  call c i _ w' _ _ later := by
    have some_ : ∀ {p : PayHandler Response}, p.wp env i (fun _ w => w.Sane) w' →
        PayHandler.wp (p.bind fun r => return some r) env i (fun _ w => w.Sane) w' :=
      fun h => wp_seq h (fun _ _ sane => sane) fun _ _ sane => sane
    cases c with
    | prepare r =>
      exact some_ (Discipline.wp_mono _ _ (wp_calm (uses_preparePayment r) later.inv)
        fun _ _ later₂ => later₂.inv)
    | submit r => exact some_ (wp_submitPayment r later.inv)
    | status uid h => exact some_ (wp_paymentStatus uid later.inv)
    | reconcile =>
      exact wp_seq (wp_runPaymentReconciler later.inv) (fun _ _ sane => sane) fun _ _ sane => sane

abbrev PaySchedule := List (Label Answer Surroundings PayCall)

/-- Before any request. -/
def start (clock : Timestamp) : Pool PayOp PayOp.Reply World (Option Response) :=
  ⟨.initial clock, []⟩

theorem initial_sane (clock : Timestamp) : (World.initial clock).Sane where
  begun _ h := absurd rfl h
  shown _ _ h := nomatch h

/-- Every step of a run is one that its handler is entitled to. -/
theorem along_expected {env : Env} {clock : Timestamp} {ls : PaySchedule}
    (candid : (paySystem env).Along { op := fun _ => PayOp.Candid } (start clock) ls) :
    (paySystem env).Along { op := fun _ => PayOp.Expected } (start clock) ls :=
  Discipline.along_ensures (requests_obey env) (Discipline.sound_empty (initial_sane clock)) candid

end ParmeliaLinks.Pay
