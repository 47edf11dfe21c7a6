/-
ParmeliaLinks/Pay/Submission.lean

What each request does with its claims, whatever the others do.  A request gives
the row and the link back only while no transport may have accepted the operation
from it, and the error of a submission that may have been accepted says so.

The text of an error decides whether a transport is taken to have rejected the
operation.  So this holds of the runs in which no transport that may have accepted
the operation answers with a rejection, unless an earlier one has left a doubt
already (`PayOp.Candid`).

`PayOp.Expected` collects what the handlers ensure of each single operation; the
invariants of the rows and of the links are made of that alone.
-/
import ParmeliaLinks.Pay.Handlers

namespace ParmeliaLinks.Pay

/-! ### What is required, and when it holds -/

/-- The reply of a bundler counts as a rejection. -/
def Answer.refuses (x : Answer) (h : Hash) : Bool :=
  match x.error with
  | some e => !e.isTransient
  | none => x.hash != some h

/-- The reply of the relayer's node counts as a rejection. -/
def Answer.rejects (x : Answer) : Bool := x.error.any fun e => !e.isTransient

/-- No transport that may have accepted the operation answers with a rejection, unless
an earlier one has left a doubt. -/
def PayOp.Candid (o : PayOp) (x : Answer) (_ : World) : Prop :=
  match o with
  | .ask _ h _ doubt => x.accepted = true → doubt = false → x.refuses h = false
  | .write _ _ => x.accepted = true → x.rejects = false
  | _ => True

instance (o : PayOp) (x : Answer) (w : World) : Decidable (o.Candid x w) := by
  unfold PayOp.Candid
  split <;> infer_instance

/-- The server has been shown a receipt with this outcome. -/
def World.Evidence (w : World) (h : Hash) (success : Bool) : Prop :=
  if success then w.proven h = true else w.refuted h = true

/-- A receipt that is shown is evidence. -/
theorem evidence_witness (w : World) (h : Hash) (success : Bool) :
    (w.witness h success).Evidence h success := by
  cases success <;> simp [World.witness, World.Evidence]

/-- The request has read the row of the operation while it was under way. -/
def World.HasRead (w : World) (q : RequestId) (h : Hash) : Prop :=
  ∃ r, (w.history q).reading = some r ∧ r.userOpHash = h

/-- What the handlers ensure of the operations that they perform. -/
def PayOp.Expected (o : PayOp) (_ : Answer) (w : World) : Prop :=
  match o with
  | .upsertPayment row => row.status = .prepared
  | .claimPending q _ _ =>
    (w.history q).thread ≠ none ∧ (w.history q).operation = none ∧ (w.history q).accepted = false
  | .releasePending q h _ =>
    (w.history q).accepted = false ∧
      ((w.history q).operation = some h ∨ (w.history q).operation = none)
  | .claimLink q _ owner _ t =>
    (w.history q).operation = some owner ∧ (w.history q).accepted = false ∧ t ≤ w.clock
  | .ask q h _ doubt =>
    (w.history q).operation = some h ∧ ((w.history q).accepted = true → doubt = true)
  | .write q h => (w.history q).operation = some h ∧ (w.history q).accepted = false
  | .releaseLink q _ _ .unsent => (w.history q).accepted = false
  | .releaseLink _ _ h .failed => w.refuted h = true
  | .setStatus _ h .confirmed _ => w.proven h = true
  | .setStatus q h .submitted _ => w.HasRead q h
  | .setStatus q h .failed _ => w.HasRead q h
  | .setStatus _ _ .prepared _ => False
  | .setStatus _ _ .submitting _ => False
  | .surface q e => (w.history q).accepted = true → e.possiblySubmitted = true
  | _ => True

/-! ### The discipline -/

/-- Requests are numbered in order, and the journal only holds what has been shown. -/
structure World.Sane (w : World) : Prop where
  begun : ∀ q, (w.history q).thread ≠ none → q < w.begun
  shown : ∀ h c, w.canonical h = some c → w.Evidence h c.success

/-- Time goes on, and what has been shown stays so. -/
structure World.Grows (w w' : World) : Prop where
  clock : w.clock ≤ w'.clock
  proven : ∀ h, w.proven h = true → w'.proven h = true
  refuted : ∀ h, w.refuted h = true → w'.refuted h = true

theorem World.Grows.rfl (w : World) : w.Grows w :=
  ⟨Nat.le_refl _, fun _ h => h, fun _ h => h⟩

theorem World.Grows.trans {w₁ w₂ w₃ : World} (h : w₁.Grows w₂) (h' : w₂.Grows w₃) :
    w₁.Grows w₃ where
  clock := Nat.le_trans h.clock h'.clock
  proven o ho := h'.proven o (h.proven o ho)
  refuted o ho := h'.refuted o (h.refuted o ho)

theorem World.Grows.evidence {w w' : World} (g : w.Grows w') {h : Hash} {success : Bool}
    (shown : w.Evidence h success) : w'.Evidence h success := by
  cases success with
  | true => exact g.proven h shown
  | false => exact g.refuted h shown

def payDiscipline : Discipline PayOp World Answer Surroundings PayCall where
  Inv := World.Sane
  Evolves := World.Grows
  rely i w w' := ∀ q, (w.history q).thread = some i → w'.history q = w.history q
  allowed := { op := fun _ => PayOp.Candid }
  ensures := PayOp.Expected
  refl := World.Grows.rfl
  trans := World.Grows.trans
  rely_refl _ _ _ _ := rfl
  rely_trans h h' q own := by
    have same := h q own
    rw [h' q (by rw [same]; exact own), same]

/-! ### What an operation changes -/

/-- The request whose history an operation may change. -/
def PayOp.request? : PayOp → Option RequestId
  | .selectPayment q _ => some q
  | .claimPending q _ _ => some q
  | .releasePending q _ _ => some q
  | .claimLink q _ _ _ _ => some q
  | .ask q _ _ _ => some q
  | .write q _ => some q
  | _ => none

/-- A step that changes the history of one request at most. -/
structure World.Frame (q? : Option RequestId) (w w' : World) : Prop where
  clock : w'.clock = w.clock
  begun : w'.begun = w.begun
  canonical : w'.canonical = w.canonical
  proven : ∀ h, w.proven h = true → w'.proven h = true
  refuted : ∀ h, w.refuted h = true → w'.refuted h = true
  thread : ∀ q, (w'.history q).thread = (w.history q).thread
  history : ∀ q, some q ≠ q? → w'.history q = w.history q

namespace World.Frame

variable {q? : Option RequestId} {w w' w'' : World}

theorem rfl : w.Frame q? w where
  clock := by rfl
  begun := by rfl
  canonical := by rfl
  proven _ h := h
  refuted _ h := h
  thread _ := by rfl
  history _ _ := by rfl

theorem trans (h : w.Frame q? w') (h' : w'.Frame q? w'') : w.Frame q? w'' where
  clock := h'.clock.trans h.clock
  begun := h'.begun.trans h.begun
  canonical := h'.canonical.trans h.canonical
  proven o ho := h'.proven o (h.proven o ho)
  refuted o ho := h'.refuted o (h.refuted o ho)
  thread q := (h'.thread q).trans (h.thread q)
  history q other := (h'.history q other).trans (h.history q other)

/-- The tables, and the records of the transports and the chain, are free. -/
theorem of_eq (clock : w'.clock = w.clock) (begun : w'.begun = w.begun)
    (canonical : w'.canonical = w.canonical) (proven : w'.proven = w.proven)
    (refuted : w'.refuted = w.refuted) (history : w'.history = w.history) : w.Frame q? w' where
  clock := clock
  begun := begun
  canonical := canonical
  proven _ h := by rwa [proven]
  refuted _ h := by rwa [refuted]
  thread _ := by rw [history]
  history _ _ := by rw [history]

/-- A request notes something, and stays with its handler. -/
theorem noting {q : RequestId} {f : RequestHistory → RequestHistory}
    (thread : (f (w.history q)).thread = (w.history q).thread) :
    w.Frame (some q) (w.noting q f) where
  clock := by rfl
  begun := by rfl
  canonical := by rfl
  proven _ h := h
  refuted _ h := h
  thread q' := by
    simp only [World.noting]
    split
    · rename_i same
      rw [same, thread]
    · rfl
  history q' other := by
    simp only [World.noting]
    rw [if_neg fun same => other (congrArg some same)]

theorem sane (h : w.Frame q? w') (hw : w.Sane) : w'.Sane := by
  constructor
  · intro q hq
    rw [h.thread] at hq
    rw [h.begun]
    exact hw.begun q hq
  · intro o c hc
    rw [h.canonical] at hc
    have shown := hw.shown o c hc
    cases success : c.success with
    | true =>
      rw [success] at shown
      exact h.proven o shown
    | false =>
      rw [success] at shown
      exact h.refuted o shown

theorem grows (h : w.Frame q? w') : w.Grows w' :=
  ⟨Nat.le_of_eq h.clock.symm, h.proven, h.refuted⟩

end World.Frame

open World (Frame)

/-- An update of a row changes the tables only. -/
theorem updatePending_cases (w : World) (h : Hash) (guard : PendingPaymentStatus → Bool)
    (f : PendingPayment → PendingPayment) (keys : Table.KeepsKeys f) :
    (w.updatePending h guard f keys = (false, w)) ∨
      ∃ r, w.payment? h = some r ∧ guard r.status = true ∧
        w.updatePending h guard f keys = (true,
          { w with
            pending := w.pending.modify (·.userOpHash == h) f keys
            requests := World.onStatus h r.status (f r).status w.clock w.requests }) := by
  unfold World.updatePending
  split
  · exact .inl rfl
  · rename_i r found
    split
    · rename_i fits
      exact .inr ⟨r, found, fits, rfl⟩
    · exact .inl rfl

theorem frame_updatePending (q? : Option RequestId) (w : World) (h : Hash)
    (guard : PendingPaymentStatus → Bool) (f : PendingPayment → PendingPayment)
    (keys : Table.KeepsKeys f) : w.Frame q? (w.updatePending h guard f keys).2 := by
  rcases updatePending_cases w h guard f keys with same | ⟨r, -, -, updated⟩
  · rw [same]
    exact .rfl
  · rw [updated]
    exact .of_eq rfl rfl rfl rfl rfl rfl

theorem frame_counting {q? : Option RequestId} (w : World) (h : Hash)
    (status : PendingPaymentStatus) : w.Frame q? (w.counting h status) := by
  cases status <;> exact .of_eq rfl rfl rfl rfl rfl rfl

theorem frame_witness {q? : Option RequestId} (w : World) (h : Hash) (success : Bool) :
    w.Frame q? (w.witness h success) := by
  have shown : ∀ (p : Hash → Bool) o, p o = true → (o == h || p o) = true := by
    intro p o ho
    rw [ho, Bool.or_true]
  cases success with
  | true => exact ⟨rfl, rfl, rfl, shown _, fun _ h => h, fun _ => rfl, fun _ _ => rfl⟩
  | false => exact ⟨rfl, rfl, rfl, fun _ h => h, shown _, fun _ => rfl, fun _ _ => rfl⟩

theorem frame_deliver {α : Type} {q? : Option RequestId} (x : Outcome) {w : World}
    {r : α × World} (h : w.Frame q? r.2) : w.Frame q? (PayOp.deliver x w r).2 := by
  cases x with
  | done => exact h
  | lost m => exact .rfl
  | unacknowledged m => exact h

theorem frame_accept (w : World) (q : RequestId) (h : Hash) :
    w.Frame (some q) (w.accept q h) := by
  refine Frame.trans ?_ (Frame.noting rfl)
  exact .of_eq rfl rfl rfl rfl rfl rfl

theorem frame_hand (x : Answer) (w : World) (q : RequestId) (h : Hash) :
    w.Frame (some q) (PayOp.hand x w q h) := by
  unfold PayOp.hand
  split
  · exact frame_accept w q h
  · exact .rfl

theorem frame_claimPending (w : World) (q : RequestId) (h : Hash) (now : Timestamp) :
    w.Frame (some q) (w.claimPending q h now).2 := by
  have step := frame_updatePending (some q) w h (· == .prepared)
    (fun r =>
      { r with
        status := .submitting, submissionAttemptCount := r.submissionAttemptCount + 1
        lastSubmissionErrorCode := none })
    ⟨fun _ _ => rfl⟩
  simp only [World.claimPending]
  split <;> split
  · refine step.trans (Frame.trans ?_ (Frame.noting rfl))
    exact .of_eq rfl rfl rfl rfl rfl rfl
  · exact step.trans (.noting rfl)
  · exact step.trans (.of_eq rfl rfl rfl rfl rfl rfl)
  · exact step

theorem frame_releasePending (w : World) (q : RequestId) (h : Hash)
    (errorCode : Option String) : w.Frame (some q) (w.releasePending q h errorCode) := by
  have step := frame_updatePending (some q) w h (· == .submitting)
    (fun r => { r with status := .prepared, lastSubmissionErrorCode := errorCode })
    ⟨fun _ _ => rfl⟩
  simp only [World.releasePending]
  split
  · exact step.trans (.noting rfl)
  · exact step

theorem frame_claimLink (w : World) (q : RequestId) (id : LinkId) (owner : Hash)
    (expiresAt now : Timestamp) : w.Frame (some q) (w.claimLink q id owner expiresAt now).2 := by
  unfold World.claimLink
  split
  · dsimp only
    refine Frame.trans ?_ (Frame.noting rfl)
    exact .of_eq rfl rfl rfl rfl rfl rfl
  · exact .rfl

theorem frame_reading (w : World) (q : RequestId) (h : Hash) :
    w.Frame (some q) (w.reading q h) :=
  .noting rfl

/-- Every operation but the beginning of a request. -/
theorem exec_frame (i : Nat) {o : PayOp} (x : Answer) (w : World) (begun : o ≠ .begin) :
    w.Frame o.request? (o.exec i x w).2 := by
  have tables {q? : Option RequestId} {w' : World} (clock : w'.clock = w.clock)
      (begun : w'.begun = w.begun) (canonical : w'.canonical = w.canonical)
      (proven : w'.proven = w.proven) (refuted : w'.refuted = w.refuted)
      (history : w'.history = w.history) : w.Frame q? w' :=
    .of_eq clock begun canonical proven refuted history
  cases o with
  | begin => exact absurd rfl begun
  | now => exact .rfl
  | deleteExpired t => exact frame_deliver _ (tables rfl rfl rfl rfl rfl rfl)
  | upsertPayment row => exact frame_deliver _ (tables rfl rfl rfl rfl rfl rfl)
  | selectPayment q h => exact frame_deliver _ (frame_reading w q h)
  | deletePayment h => exact frame_deliver _ (tables rfl rfl rfl rfl rfl rfl)
  | claimPending q h t => exact frame_deliver _ (frame_claimPending w q h t)
  | releasePending q h errorCode => exact frame_deliver _ (frame_releasePending w q h errorCode)
  | setSubmitted h transport txHash t => exact frame_deliver _ (frame_updatePending _ _ _ _ _ _)
  | setStatus q h status txHash =>
    exact frame_deliver _ ((frame_updatePending _ _ _ _ _ _).trans (frame_counting _ _ _))
  | sweepTerminal t cutoff => exact frame_deliver _ (tables rfl rfl rfl rfl rfl rfl)
  | selectLink id => exact frame_deliver _ .rfl
  | selectIntent id => exact frame_deliver _ .rfl
  | claimLink q id owner expiresAt t =>
    exact frame_deliver _ (frame_claimLink w q id owner expiresAt t)
  | markBroadcast id owner txHash => exact frame_deliver _ (tables rfl rfl rfl rfl rfl rfl)
  | releaseLink q id owner release => exact frame_deliver _ (tables rfl rfl rfl rfl rfl rfl)
  | settleLink s => exact frame_deliver _ (tables rfl rfl rfl rfl rfl rfl)
  | enqueueMissing t => exact frame_deliver _ (tables rfl rfl rfl rfl rfl rfl)
  | listDue t limit => exact frame_deliver _ .rfl
  | claimRequest q h leaseExpiresAt t => exact frame_deliver _ (tables rfl rfl rfl rfl rfl rfl)
  | rescheduleRequest q h nextAttemptAt errorCode terminal =>
    exact frame_deliver _ (tables rfl rfl rfl rfl rfl rfl)
  | completeRequest q h t => exact frame_deliver _ (tables rfl rfl rfl rfl rfl rfl)
  | selectCanonical h => exact frame_deliver _ .rfl
  | selectCovered past => exact frame_deliver _ .rfl
  | auxiliary function => exact frame_deliver _ .rfl
  | buildUserOperation => exact frame_deliver _ .rfl
  | wrapSignature => exact frame_deliver _ .rfl
  | endpointSupports slot => exact .rfl
  | ask q h slot doubt => exact frame_hand x w q h
  | simulate h => exact .rfl
  | acquireSigner => exact .rfl
  | signerBlocked => exact .rfl
  | write q h => exact frame_hand x w q h
  | releaseSigner => exact frame_deliver _ .rfl
  | surface q e => exact .rfl
  | receipt mode h txHash =>
    show w.Frame none (PayOp.shown x w h)
    unfold PayOp.shown
    split
    · exact frame_witness w h _
    · exact .rfl
  | safeBlock => exact .rfl
  | block number => exact .rfl

/-! ### Every operation -/

variable {env : Env} {i : Nat} {o : PayOp} {x : Answer} {w w' : World} {q : RequestId}

/-- An operation that its handler is entitled to follows the discipline. -/
theorem performs_of (hw : w.Sane) (begun : o ≠ .begin)
    (own : ∀ q, o.request? = some q → (w.history q).thread = some i)
    (expected : o.Expected x w) : payDiscipline.Performs (paySystem env) i o x w := by
  have frame := exec_frame i x w begun
  refine ⟨⟨frame.sane hw, frame.grows⟩, fun j other q theirs => ?_, expected⟩
  refine frame.history q fun mine => other ?_
  exact Option.some.inj (theirs.symm.trans (own q mine.symm))

/-- What the handler `i` finds later of what it has found before. -/
abbrev LaterFor (i : Nat) (w w' : World) : Prop := payDiscipline.Later i w w'

/-- An operation that leaves the histories alone is like one of the others. -/
theorem later_exec (hw : w.Sane) (begun : o ≠ .begin) (quiet : o.request? = none) :
    LaterFor i w (o.exec i x w).2 := by
  have frame := exec_frame i x w begun
  refine ⟨frame.sane hw, frame.grows, fun q _ => frame.history q ?_⟩
  rw [quiet]
  exact nofun

theorem performs_begin (hw : w.Sane) : payDiscipline.Performs (paySystem env) i .begin x w := by
  have old : ∀ q, (w.history q).thread ≠ none → q ≠ w.begun :=
    fun q hq => Nat.ne_of_lt (hw.begun q hq)
  have grows : w.Grows (PayOp.exec i .begin x w).2 :=
    ⟨Nat.le_refl _, fun _ h => h, fun _ h => h⟩
  refine ⟨⟨⟨fun q hq => ?_, hw.shown⟩, grows⟩, fun j _ q theirs => ?_, trivial⟩
  · by_cases new : q = w.begun
    · rw [new]
      exact Nat.lt_succ_self _
    · have kept : (w.history q).thread ≠ none := by
        simpa [paySystem, PayOp.exec, World.noting, new] using hq
      exact Nat.lt_succ_of_lt (hw.begun q kept)
  · have new := old q (by rw [theirs]; exact nofun)
    simp [paySystem, PayOp.exec, World.noting, new]

/-! ### Handlers that leave the claims alone -/

/-- The operation needs nothing, and changes the history of no request. -/
def PayOp.Calm (o : PayOp) : Prop :=
  o ≠ .begin ∧ o.request? = none ∧ ∀ x w, o.Expected x w

abbrev PayHandler.wp {α : Type} (p : PayHandler α) (env : Env) (i : Nat)
    (Q : Except String α → World → Prop) (w : World) : Prop :=
  payDiscipline.wp (paySystem env) i p Q w

theorem PayOp.Calm.performs (h : o.Calm) (hw : w.Sane) :
    payDiscipline.Performs (paySystem env) i o x w := by
  refine performs_of hw h.1 (fun q mine => ?_) (h.2.2 x w)
  rw [h.2.1] at mine
  cases mine

/-- Whatever such a handler does, the histories of its requests stay. -/
theorem wp_calm {α : Type} {p : PayHandler α} (hp : p.Uses PayOp.Calm) (hw : w.Sane) :
    p.wp env i (fun _ w' => LaterFor i w w') w := by
  have run : ∀ v, LaterFor i w v → p.wp env i (fun _ w' => LaterFor i w w') v := by
    induction p with
    | ret a => exact fun v hv => hv
    | throw m => exact fun v hv => hv
    | act o k ih =>
      intro v hv
      refine Discipline.wp_act _ _ (fun x _ => hp.1.performs hv.inv) fun x _ v' later => ?_
      have step : LaterFor i v (o.exec i x v).2 := later_exec hv.inv hp.1.1 hp.1.2.1
      exact ih _ (hp.2 _) v' (payDiscipline.later_trans hv (payDiscipline.later_trans step later))
  exact run w (payDiscipline.later_refl hw)

/-- A part of a handler, and the rest. -/
theorem wp_seq {α β : Type} {p : PayHandler α} {f : α → PayHandler β}
    {Q : Except String β → World → Prop} {R : Except String α → World → Prop}
    (first : p.wp env i R w) (ok : ∀ a w', R (.ok a) w' → (f a).wp env i Q w')
    (error : ∀ m w', R (.error m) w' → Q (.error m) w') : PayHandler.wp (p.bind f) env i Q w := by
  refine (Discipline.wp_bind _ _ _ _ _ _).2 (Discipline.wp_mono _ _ first fun r w' hr => ?_)
  cases r with
  | ok a => exact ok a w' hr
  | error m => exact error m w' hr

/-- A part of a handler whose error is caught, and the rest. -/
theorem wp_attempted {α β : Type} {p : PayHandler α} {f : Except String α → PayHandler β}
    {Q : Except String β → World → Prop} {R : Except String α → World → Prop}
    (first : p.wp env i R w) (rest : ∀ r w', R r w' → (f r).wp env i Q w') :
    PayHandler.wp (p.attempt.bind f) env i Q w := by
  refine (Discipline.wp_bind _ _ _ _ _ _).2 ((Discipline.wp_attempt _ _ _ _ _).2 ?_)
  exact Discipline.wp_mono _ _ first rest

/-- An operation, and the rest. -/
theorem wp_op {α : Type} {f : PayOp.Reply o → PayHandler α} {Q : Except String α → World → Prop}
    (performs : ∀ x, payDiscipline.Performs (paySystem env) i o x w)
    (rest : ∀ x, o.Candid x w → ∀ w', LaterFor i (o.exec i x w).2 w' →
      (f (o.exec i x w).1).wp env i Q w') :
    PayHandler.wp ((perform o).bind f) env i Q w :=
  Discipline.wp_act _ _ (fun x _ => performs x) rest

/-- A calm operation, and the rest. -/
theorem wp_calm_op {α : Type} {f : PayOp.Reply o → PayHandler α}
    {Q : Except String α → World → Prop} (calm : o.Calm) (hw : w.Sane)
    (rest : ∀ x w', LaterFor i w w' → (f (o.exec i x w).1).wp env i Q w') :
    PayHandler.wp ((perform o).bind f) env i Q w :=
  wp_op (fun _ => calm.performs hw) fun x _ w' later =>
    rest x w' (payDiscipline.later_trans (later_exec hw calm.1 calm.2.1) later)

/-! ### Where a submission stands -/

/-- The request has claimed nothing. -/
structure World.Idle (w : World) (q : RequestId) (i : Nat) : Prop where
  thread : (w.history q).thread = some i
  operation : (w.history q).operation = none
  accepted : (w.history q).accepted = false

/-- The request has claimed the operation. -/
structure World.Holds (w : World) (q : RequestId) (i : Nat) (h : Hash) : Prop where
  thread : (w.history q).thread = some i
  operation : (w.history q).operation = some h

/-- The request has got no further, but for what it has read. -/
structure World.Bears (w : World) (q : RequestId) (w' : World) : Prop where
  thread : (w'.history q).thread = (w.history q).thread
  operation : (w'.history q).operation = (w.history q).operation
  accepted : (w'.history q).accepted = (w.history q).accepted

variable {h : Hash}

theorem World.Bears.rfl : w.Bears q w := ⟨by rfl, by rfl, by rfl⟩

theorem World.Bears.trans {w'' : World} (b : w.Bears q w') (b' : w'.Bears q w'') :
    w.Bears q w'' :=
  ⟨b'.thread.trans b.thread, b'.operation.trans b.operation, b'.accepted.trans b.accepted⟩

theorem World.Bears.of_eq (same : w'.history q = w.history q) : w.Bears q w' := by
  constructor <;> rw [same]

theorem World.Bears.of_later (later : LaterFor i w w') (own : (w.history q).thread = some i) :
    w.Bears q w' :=
  .of_eq (later.relied q own)

theorem World.Idle.bears (idle : w.Idle q i) (b : w.Bears q w') : w'.Idle q i :=
  ⟨b.thread.trans idle.thread, b.operation.trans idle.operation, b.accepted.trans idle.accepted⟩

theorem World.Holds.bears (holds : w.Holds q i h) (b : w.Bears q w') : w'.Holds q i h :=
  ⟨b.thread.trans holds.thread, b.operation.trans holds.operation⟩

/-- Nothing of this is lost while the others go on. -/
theorem World.Holds.later (holds : w.Holds q i h) (later : LaterFor i w w') : w'.Holds q i h :=
  holds.bears (.of_later later holds.thread)

theorem accepted_later (later : LaterFor i w w') (own : (w.history q).thread = some i) :
    (w'.history q).accepted = (w.history q).accepted :=
  (World.Bears.of_later later own).accepted

/-- The operation is calm, or reads a row for the request. -/
def PayOp.Reads (q : RequestId) (o : PayOp) : Prop := o.Calm ∨ ∃ h, o = .selectPayment q h

/-- Such a handler leaves the request where it stands. -/
theorem wp_reads {α : Type} {p : PayHandler α} (hp : p.Uses (PayOp.Reads q)) (hw : w.Sane)
    (own : (w.history q).thread = some i) :
    p.wp env i (fun _ w' => w'.Sane ∧ w.Bears q w') w := by
  have run : ∀ v, v.Sane → w.Bears q v → p.wp env i (fun _ w' => w'.Sane ∧ w.Bears q w') v := by
    induction p with
    | ret a => exact fun v hv b => ⟨hv, b⟩
    | throw m => exact fun v hv b => ⟨hv, b⟩
    | act o k ih =>
      intro v hv b
      have mine : (v.history q).thread = some i := b.thread.trans own
      have step : ∀ x, payDiscipline.Performs (paySystem env) i o x v ∧
          v.Bears q (o.exec i x v).2 := by
        intro x
        rcases hp.1 with calm | ⟨h, rfl⟩
        · have later : LaterFor i v (o.exec i x v).2 := later_exec hv calm.1 calm.2.1
          exact ⟨calm.performs hv, .of_later later mine⟩
        · refine ⟨performs_of hv nofun (fun q' hq' => ?_) trivial, ?_⟩
          · obtain rfl := Option.some.inj hq'
            exact mine
          · have read : v.Bears q (v.reading q h) := by
              constructor <;> simp [World.reading, World.noting]
            cases hx : x.outcome with
            | done => simpa only [PayOp.exec, hx, PayOp.deliver] using read
            | lost m => simpa only [PayOp.exec, hx, PayOp.deliver] using .rfl
            | unacknowledged m => simpa only [PayOp.exec, hx, PayOp.deliver] using read
      refine Discipline.wp_act _ _ (fun x _ => (step x).1) fun x _ v' later => ?_
      have stays := (step x).2.thread.trans mine
      exact ih _ (hp.2 _) v' later.inv ((b.trans (step x).2).trans (.of_later later stays))
  exact run w hw .rfl

/-! ### The bundlers -/

/-- A request to a transport notes whether it may have been accepted. -/
theorem hand_history (x : Answer) (w : World) (q : RequestId) (h : Hash) :
    (PayOp.hand x w q h).history q =
      { w.history q with accepted := x.accepted || (w.history q).accepted } := by
  unfold PayOp.hand
  cases accepted : x.accepted with
  | true => simp [World.accept, World.noting]
  | false => simp

/-- What the request finds after it has asked a transport. -/
theorem later_hand (holds : w.Holds q i h) (later : LaterFor i (PayOp.hand x w q h) w') :
    w'.Holds q i h ∧ (w'.history q).accepted = (x.accepted || (w.history q).accepted) := by
  have asked : ((PayOp.hand x w q h).history q).thread = some i := by
    rw [hand_history]
    exact holds.thread
  have history := (later.relied q asked).trans (hand_history x w q h)
  refine ⟨⟨?_, ?_⟩, ?_⟩ <;> rw [history]
  · exact holds.thread
  · exact holds.operation

/-- A reply that ends the loop is a rejection. -/
theorem refuses_of_refusal {e : UserOperationTransportError}
    (refused : refusal h (PayOp.call x x.hash) = some e) (definitive : e.retryable = false) :
    x.refuses h = true := by
  unfold PayOp.call at refused
  unfold Answer.refuses
  cases error : x.error with
  | some e' =>
    rw [error] at refused
    obtain rfl := Option.some.inj refused
    rw [normalizeBundlerError_retryable] at definitive
    simp [definitive]
  | none =>
    rw [error] at refused
    simp only [refusal] at refused
    split at refused
    · cases refused
    · rename_i different
      simpa using different

/-- Where a request stands once a transport has been tried. -/
def World.Tried {α : Type} (q : RequestId) (i : Nat) (h : Hash) (doubts : α → Bool) :
    Except String (Except α UserOperationSendResult) → World → Prop
  | .ok (.error e), w =>
    w.Sane ∧ w.Holds q i h ∧ ((w.history q).accepted = true → doubts e = true)
  | _, w => w.Sane ∧ w.Holds q i h

theorem wp_sendToBundlers (slots : List Nat) (s : BundlerScan) (hw : w.Sane)
    (holds : w.Holds q i h) (consistent : s.Consistent)
    (doubt : (w.history q).accepted = true → s.possiblySubmitted = true) :
    (sendToBundlers q h slots s).wp env i
      (World.Tried q i h UserOperationTransportError.possiblySubmitted) w := by
  induction slots generalizing s w with
  | nil =>
    exact ⟨hw, holds, fun accepted => BundlerScan.conclude_possiblySubmitted consistent
      (doubt accepted)⟩
  | cons slot slots ih =>
    refine wp_calm_op ⟨nofun, rfl, fun _ _ => trivial⟩ hw fun x w₁ later => ?_
    have holds₁ := holds.later later
    have doubt₁ : (w₁.history q).accepted = true → s.possiblySubmitted = true := by
      rw [accepted_later later holds.thread]
      exact doubt
    cases (PayOp.exec i (.endpointSupports slot) x w).1 with
    | error e =>
      -- nothing has been sent to this bundler
      dsimp only
      cases failed : s.fail false (normalizeBundlerError e) with
      | error e' =>
        refine ⟨later.inv, holds₁, fun accepted => ?_⟩
        rcases (BundlerScan.fail_error failed).2 with ⟨-, rfl⟩ | ⟨certain, -⟩
        · rfl
        · rw [doubt₁ accepted] at certain
          cases certain
      | ok s' =>
        obtain ⟨consistent', same, -⟩ := BundlerScan.fail_ok failed
        refine ih s' later.inv holds₁ consistent' fun accepted => ?_
        rw [same, doubt₁ accepted]
        rfl
    | ok supports =>
      cases supports with
      | false => exact ih s later.inv holds₁ consistent doubt₁
      | true =>
        refine wp_op (fun y => ?_) fun y candid w₂ later₂ => ?_
        · refine performs_of later.inv nofun (fun q' hq' => ?_) ⟨holds₁.operation, doubt₁⟩
          obtain rfl := Option.some.inj hq'
          exact holds₁.thread
        obtain ⟨holds₂, noted⟩ := later_hand holds₁ later₂
        dsimp only [PayOp.exec]
        cases refused : refusal h (PayOp.call y y.hash) with
        | none => exact ⟨later₂.inv, holds₂⟩
        | some e =>
          dsimp only
          cases failed : { s with compatible := true : BundlerScan }.fail true e with
          | error e' =>
            refine ⟨later₂.inv, holds₂, fun accepted => ?_⟩
            obtain ⟨definitive, ended⟩ := BundlerScan.fail_error failed
            rcases ended with ⟨-, rfl⟩ | ⟨certain, -⟩
            · rfl
            · -- a first rejection: the bundler cannot have accepted the operation
              have refuses := refuses_of_refusal refused definitive
              rw [noted, Bool.or_eq_true] at accepted
              rcases accepted with accepted | accepted
              · rw [candid accepted certain] at refuses
                cases refuses
              · rw [doubt₁ accepted] at certain
                cases certain
          | ok s' =>
            obtain ⟨consistent', doubtful, -⟩ := BundlerScan.fail_ok failed
            refine ih s' later₂.inv holds₂ consistent' fun _ => ?_
            rw [doubtful, Bool.or_true]

/-! ### The relayer -/

theorem error_of_call {α : Type} {a : α} {e : RpcError} (h : PayOp.call x a = .error e) :
    x.error = some e := by
  unfold PayOp.call at h
  split at h
  · rename_i e' error
    rw [error, Except.error.inj h]
  · cases h

/-- The error of the relayer speaks of a doubt, unless its node has rejected the
operation. -/
theorem relayerError_of_not_rejects {e : RpcError} (error : x.error = some e)
    (rejects : x.rejects = false) : (relayerError e).possiblySubmitted = true := by
  apply relayerError_possiblySubmitted
  simpa [Answer.rejects, error] using rejects

theorem wp_writeLeased (hw : w.Sane) (holds : w.Holds q i h)
    (unsent : (w.history q).accepted = false) :
    (writeLeased q h).wp env i (World.Tried q i h SubmissionError.possiblySubmitted) w := by
  have sure {e : SubmissionError} {v : World} (unsent : (v.history q).accepted = false) :
      (v.history q).accepted = true → e.possiblySubmitted = true := by
    rw [unsent]
    exact nofun
  refine wp_calm_op ⟨nofun, rfl, fun _ _ => trivial⟩ hw fun x w₁ later => ?_
  have holds₁ := holds.later later
  have unsent₁ := (accepted_later later holds.thread).trans unsent
  cases (PayOp.exec i .signerBlocked x w).1 with
  | error e => exact ⟨later.inv, holds₁, sure unsent₁⟩
  | ok blocked =>
    cases blocked with
    | true => exact ⟨later.inv, holds₁, sure unsent₁⟩
    | false =>
      refine wp_op (fun y => ?_) fun y candid w₂ later₂ => ?_
      · refine performs_of later.inv nofun (fun q' hq' => ?_) ⟨holds₁.operation, unsent₁⟩
        obtain rfl := Option.some.inj hq'
        exact holds₁.thread
      obtain ⟨holds₂, noted⟩ := later_hand holds₁ later₂
      rw [unsent₁, Bool.or_false] at noted
      cases reply : (PayOp.exec i (.write q h) y w₁).1 with
      | ok _ => exact ⟨later₂.inv, holds₂⟩
      | error e =>
        have error : y.error = some e := error_of_call reply
        refine ⟨later₂.inv, holds₂, fun accepted => ?_⟩
        exact relayerError_of_not_rejects error (candid (noted.symm.trans accepted))

theorem wp_selfSend (hw : w.Sane) (holds : w.Holds q i h)
    (unsent : (w.history q).accepted = false) :
    (selfSend q h).wp env i (World.Tried q i h SubmissionError.possiblySubmitted) w := by
  have sure {e : SubmissionError} {v : World} (unsent : (v.history q).accepted = false) :
      (v.history q).accepted = true → e.possiblySubmitted = true := by
    rw [unsent]
    exact nofun
  refine wp_calm_op ⟨nofun, rfl, fun _ _ => trivial⟩ hw fun x w₁ later => ?_
  have holds₁ := holds.later later
  have unsent₁ := (accepted_later later holds.thread).trans unsent
  cases (PayOp.exec i (.simulate h) x w).1 with
  | error e => exact ⟨later.inv, holds₁, sure unsent₁⟩
  | ok _ =>
    refine wp_calm_op ⟨nofun, rfl, fun _ _ => trivial⟩ later.inv fun y w₂ later₂ => ?_
    have holds₂ := holds₁.later later₂
    have unsent₂ := (accepted_later later₂ holds₁.thread).trans unsent₁
    cases (PayOp.exec i .acquireSigner y w₁).1 with
    | error e => exact ⟨later₂.inv, holds₂, sure unsent₂⟩
    | ok free =>
      cases free with
      | false => exact ⟨later₂.inv, holds₂, sure unsent₂⟩
      | true =>
        refine wp_seq (wp_writeLeased later₂.inv holds₂ unsent₂) (fun result w₃ tried => ?_)
          fun m w₃ tried => tried
        have sane : w₃.Sane := by
          cases result <;> exact tried.1
        refine wp_calm_op ⟨nofun, rfl, fun _ _ => trivial⟩ sane fun z w₄ later₄ => ?_
        cases result with
        | ok result => exact ⟨later₄.inv, tried.2.later later₄⟩
        | error e =>
          obtain ⟨-, holds₃, doubt⟩ := tried
          refine ⟨later₄.inv, holds₃.later later₄, fun accepted => doubt ?_⟩
          rw [← accepted_later later₄ holds₃.thread]
          exact accepted

/-- Whatever the transports do, an error of an operation that one of them may have
accepted says so. -/
theorem wp_sendUserOperation (mode : Mode) (hw : w.Sane) (holds : w.Holds q i h)
    (unsent : (w.history q).accepted = false) :
    (sendUserOperation env mode q h).wp env i
      (World.Tried q i h SubmissionError.possiblySubmitted) w := by
  cases mode with
  | self => exact wp_selfSend hw holds unsent
  | bundler =>
    have bundler : (bundlerSend env q h).wp env i
        (World.Tried q i h UserOperationTransportError.possiblySubmitted) w := by
      unfold bundlerSend
      split
      · refine ⟨hw, holds, ?_⟩
        rw [unsent]
        exact nofun
      · refine wp_sendToBundlers _ _ hw holds BundlerScan.consistent_init ?_
        rw [unsent]
        exact nofun
    refine wp_seq bundler (fun result w₁ tried => ?_) fun m w₁ tried => tried
    cases result with
    | ok result => exact tried
    | error e =>
      obtain ⟨sane, holds₁, doubt⟩ := tried
      dsimp only
      split
      · -- the relayer is asked only when no bundler can have the operation
        rename_i falls
        refine wp_selfSend sane holds₁ ?_
        have certain : e.possiblySubmitted = false := not_possiblySubmitted_of_fallsBack falls
        rw [← Bool.not_eq_true] at certain ⊢
        exact fun accepted => certain (doubt accepted)
      · exact ⟨sane, holds₁, doubt⟩

end ParmeliaLinks.Pay
