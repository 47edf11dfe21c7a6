/-
ParmeliaLinks/Pay/Effects.lean

What each operation changes, said once: which rows of `pending_payments` it turns
from one status to another (`pending_step`), and what it leaves alone
(`exec_leaves`).  From that, one request at most holds an operation, and what a
transport may have is held (`World.Claimed`), in the runs in which no row is stored
anew, or given back, over the claim of another request (`PayOp.Sole`).
-/
import ParmeliaLinks.Lib.Invariant
import ParmeliaLinks.Pay.Requests

namespace ParmeliaLinks.Pay

variable {env : Env} {i : Nat} {o : PayOp} {x : Answer} {w w' : World} {q : RequestId} {h : Hash}

/-! ### The kinds of operations -/

/-- The operation hands something to a transport. -/
def PayOp.hands : PayOp → Bool
  | .ask .. => true
  | .write .. => true
  | _ => false

/-- The operation writes the status of a row. -/
def PayOp.writesStatus : PayOp → Bool
  | .upsertPayment _ => true
  | .claimPending .. => true
  | .releasePending .. => true
  | .setSubmitted .. => true
  | .setStatus .. => true
  | _ => false

/-- The operation writes a status whatever the row says. -/
def PayOp.overwrites : PayOp → Bool
  | .setStatus .. => true
  | _ => false

/-- The operation writes to a link. -/
def PayOp.writesLink : PayOp → Bool
  | .claimLink .. => true
  | .markBroadcast .. => true
  | .releaseLink .. => true
  | .settleLink _ => true
  | _ => false

/-- The operation changes which operation a request has claimed. -/
def PayOp.claims : PayOp → Bool
  | .begin => true
  | .claimPending .. => true
  | .releasePending .. => true
  | _ => false

/-- The operation reads a row. -/
def PayOp.reads : PayOp → Bool
  | .begin => true
  | .selectPayment .. => true
  | _ => false

/-- The operation begins a request, or changes what transports may have accepted. -/
def PayOp.sends : PayOp → Bool
  | .begin => true
  | .ask .. => true
  | .write .. => true
  | _ => false

/-- The operation shows a receipt. -/
def PayOp.shows : PayOp → Bool
  | .receipt .. => true
  | _ => false

/-! ### What an operation leaves alone -/

/-- What the operation `o` leaves as it is. -/
structure PayOp.Leaves (o : PayOp) (w w' : World) : Prop where
  clock : w'.clock = w.clock
  fate : w'.fate = w.fate
  refuted : o.shows = false → w'.refuted = w.refuted
  accepted : o.hands = false → w'.accepted = w.accepted ∧ w'.handed = w.handed
  counts : o.overwrites = false →
    w'.confirmations = w.confirmations ∧ w'.failures = w.failures
  links : o.writesLink = false → w'.links = w.links
  pending : o.writesStatus = false → ∀ r ∈ w'.pending, r ∈ w.pending
  operation : o.claims = false → ∀ q, (w'.history q).operation = (w.history q).operation
  sent : o.sends = false → ∀ q, (w'.history q).accepted = (w.history q).accepted
  reading : o.reads = false → ∀ q, (w'.history q).reading = (w.history q).reading

namespace PayOp.Leaves

theorem rfl : o.Leaves w w where
  clock := by rfl
  fate := by rfl
  refuted _ := by rfl
  accepted _ := ⟨by rfl, by rfl⟩
  counts _ := ⟨by rfl, by rfl⟩
  links _ := by rfl
  pending _ _ hr := hr
  operation _ _ := by rfl
  sent _ _ := by rfl
  reading _ _ := by rfl

/-- A statement that removes rows at most, beside the tables that no payment reads. -/
theorem of_eq (clock : w'.clock = w.clock) (fate : w'.fate = w.fate)
    (accepted : w'.accepted = w.accepted) (handed : w'.handed = w.handed)
    (confirmations : w'.confirmations = w.confirmations) (failures : w'.failures = w.failures)
    (history : w'.history = w.history)
    (refuted : o.shows = false → w'.refuted = w.refuted)
    (links : o.writesLink = false → w'.links = w.links)
    (pending : o.writesStatus = false → ∀ r ∈ w'.pending, r ∈ w.pending) : o.Leaves w w' where
  clock := clock
  fate := fate
  refuted := refuted
  accepted _ := ⟨accepted, handed⟩
  counts _ := ⟨confirmations, failures⟩
  links := links
  pending := pending
  operation _ _ := by rw [history]
  sent _ _ := by rw [history]
  reading _ _ := by rw [history]

theorem trans {w'' : World} (l : o.Leaves w w') (l' : o.Leaves w' w'') : o.Leaves w w'' where
  clock := l'.clock.trans l.clock
  fate := l'.fate.trans l.fate
  refuted k := (l'.refuted k).trans (l.refuted k)
  accepted k := ⟨(l'.accepted k).1.trans (l.accepted k).1, (l'.accepted k).2.trans (l.accepted k).2⟩
  counts k := ⟨(l'.counts k).1.trans (l.counts k).1, (l'.counts k).2.trans (l.counts k).2⟩
  links k := (l'.links k).trans (l.links k)
  pending k r hr := l.pending k r (l'.pending k r hr)
  operation k q := (l'.operation k q).trans (l.operation k q)
  sent k q := (l'.sent k q).trans (l.sent k q)
  reading k q := (l'.reading k q).trans (l.reading k q)

/-- A request notes something that the operation may change. -/
theorem noting {f : RequestHistory → RequestHistory}
    (operation : o.claims = false → (f (w.history q)).operation = (w.history q).operation)
    (sent : o.sends = false → (f (w.history q)).accepted = (w.history q).accepted)
    (reading : o.reads = false → (f (w.history q)).reading = (w.history q).reading) :
    o.Leaves w (w.noting q f) := by
  have keeps {β : Type} (g : RequestHistory → β) (same : g (f (w.history q)) = g (w.history q)) :
      ∀ q', g ((w.noting q f).history q') = g (w.history q') := by
    intro q'
    simp only [World.noting]
    split
    · rename_i mine
      rw [same, mine]
    · rfl
  exact
    { clock := by rfl
      fate := by rfl
      refuted := fun _ => by rfl
      accepted := fun _ => ⟨by rfl, by rfl⟩
      counts := fun _ => ⟨by rfl, by rfl⟩
      links := fun _ => by rfl
      pending := fun _ _ hr => hr
      operation := fun k => keeps (·.operation) (operation k)
      sent := fun k => keeps (·.accepted) (sent k)
      reading := fun k => keeps (·.reading) (reading k) }

theorem deliver {α : Type} (y : Outcome) {r : α × World} (l : o.Leaves w r.2) :
    o.Leaves w (PayOp.deliver y w r).2 := by
  rcases deliver_world y w r with same | same <;> rw [same]
  · exact rfl
  · exact l

end PayOp.Leaves

open PayOp (Leaves)

theorem leaves_updatePending (writes : o.writesStatus = true) (w : World) (h : Hash)
    (guard : PendingPaymentStatus → Bool) (f : PendingPayment → PendingPayment)
    (keys : Table.KeepsKeys f) : o.Leaves w (w.updatePending h guard f keys).2 := by
  have free : ∀ {p : Prop}, o.writesStatus = false → p := by
    intro p k
    rw [writes] at k
    cases k
  rcases updatePending_cases w h guard f keys with same | ⟨r, -, -, updated⟩
  · rw [same]
    exact .rfl
  · rw [updated]
    exact .of_eq rfl rfl rfl rfl rfl rfl rfl (fun _ => rfl) (fun _ => rfl) free

theorem leaves_hand (hands : o.hands = true) (sends : o.sends = true) (x : Answer) (w : World)
    (q : RequestId) (h : Hash) : o.Leaves w (PayOp.hand x w q h) := by
  have free : ∀ {p : Prop} {b : Bool}, b = true → b = false → p := by
    rintro p b rfl k
    cases k
  unfold PayOp.hand
  split
  · refine Leaves.trans ?_ (.noting (fun _ => rfl) (free sends) (fun _ => rfl))
    exact
      { clock := rfl
        fate := rfl
        refuted := fun _ => rfl
        accepted := free hands
        counts := fun _ => ⟨rfl, rfl⟩
        links := fun _ => rfl
        pending := fun _ _ hr => hr
        operation := fun _ _ => rfl
        sent := fun _ _ => rfl
        reading := fun _ _ => rfl }
  · exact .rfl

theorem leaves_deletePayments (w : World) (p : PendingPayment → Bool) :
    o.Leaves w (w.deletePayments p) :=
  .of_eq rfl rfl rfl rfl rfl rfl rfl (fun _ => rfl) (fun _ => rfl) fun _ _ hr =>
    (Table.mem_delete.1 hr).1

theorem leaves_claimPending (w : World) (q : RequestId) (h : Hash) (t : Timestamp) :
    (PayOp.claimPending q h t).Leaves w (w.claimPending q h t).2 := by
  have step := leaves_updatePending (o := .claimPending q h t) rfl w h (· == .prepared)
    (fun r =>
      { r with
        status := .submitting, submissionAttemptCount := r.submissionAttemptCount + 1
        lastSubmissionErrorCode := none })
    ⟨fun _ _ => rfl⟩
  have noted {v : World} : (PayOp.claimPending q h t).Leaves v
      (v.noting q ({ · with operation := some h })) :=
    .noting (nofun) (fun _ => rfl) fun _ => rfl
  have enqueued {v : World} {requests : Table ReconcileRequest} :
      (PayOp.claimPending q h t).Leaves v { v with requests } :=
    .of_eq rfl rfl rfl rfl rfl rfl rfl (fun _ => rfl) (fun _ => rfl) fun _ _ hr => hr
  simp only [World.claimPending]
  split <;> split
  · exact (step.trans enqueued).trans noted
  · exact step.trans noted
  · exact step.trans enqueued
  · exact step

theorem leaves_releasePending (w : World) (q : RequestId) (h : Hash) (errorCode : Option String) :
    (PayOp.releasePending q h errorCode).Leaves w (w.releasePending q h errorCode) := by
  have step := leaves_updatePending (o := .releasePending q h errorCode) rfl w h (· == .submitting)
    (fun r => { r with status := .prepared, lastSubmissionErrorCode := errorCode })
    ⟨fun _ _ => rfl⟩
  simp only [World.releasePending]
  split
  · exact step.trans (.noting (fun h => by cases h) (fun _ => rfl) fun _ => rfl)
  · exact step

theorem leaves_counting (overwrites : o.overwrites = true) (w : World) (h : Hash)
    (status : PendingPaymentStatus) : o.Leaves w (w.counting h status) := by
  have counted {confirmations failures : Hash → Nat} :
      o.Leaves w { w with confirmations, failures } :=
    { clock := rfl
      fate := rfl
      refuted := fun _ => rfl
      accepted := fun _ => ⟨rfl, rfl⟩
      counts := fun k => by
        rw [overwrites] at k
        cases k
      links := fun _ => rfl
      pending := fun _ _ hr => hr
      operation := fun _ _ => rfl
      sent := fun _ _ => rfl
      reading := fun _ _ => rfl }
  cases status with
  | confirmed => exact counted
  | failed => exact counted
  | _ => exact .rfl

theorem leaves_setStatus (w : World) (q : RequestId) (h : Hash) (status : PendingPaymentStatus)
    (txHash : Option (Option Hash)) :
    (PayOp.setStatus q h status txHash).Leaves w (w.setStatus h status txHash) :=
  (leaves_updatePending rfl _ _ _ _ _).trans (leaves_counting rfl _ _ _)

theorem leaves_claimLink (w : World) (q : RequestId) (id : LinkId) (owner : Hash)
    (expiresAt t : Timestamp) :
    (PayOp.claimLink q id owner expiresAt t).Leaves w (w.claimLink q id owner expiresAt t).2 := by
  unfold World.claimLink
  split
  · dsimp only
    refine Leaves.trans ?_ (.noting (fun _ => rfl) (fun _ => rfl) fun _ => rfl)
    exact .of_eq rfl rfl rfl rfl rfl rfl rfl (fun _ => rfl) (fun h => by cases h) fun _ _ hr => hr
  · exact .rfl

theorem leaves_reading (w : World) (q : RequestId) (h : Hash) :
    (PayOp.selectPayment q h).Leaves w (w.reading q h) :=
  .noting (fun _ => rfl) (fun _ => rfl) nofun

theorem leaves_shown (shows : o.shows = true) (w : World) (h : Hash) :
    o.Leaves w (PayOp.shown x w h) := by
  have free : ∀ {p : Prop}, o.shows = false → p := by
    intro p k
    rw [shows] at k
    cases k
  unfold PayOp.shown
  split
  · unfold World.witness
    split <;> exact .of_eq rfl rfl rfl rfl rfl rfl rfl free (fun _ => rfl) fun _ _ hr => hr
  · exact .rfl

/-- An operation leaves everything alone that it is not about. -/
theorem exec_leaves (i : Nat) (o : PayOp) (x : Answer) (w : World) :
    o.Leaves w (o.exec i x w).2 := by
  have tables {v : World} {o : PayOp} (clock : v.clock = w.clock) (fate : v.fate = w.fate)
      (accepted : v.accepted = w.accepted) (handed : v.handed = w.handed)
      (confirmations : v.confirmations = w.confirmations) (failures : v.failures = w.failures)
      (history : v.history = w.history) (refuted : v.refuted = w.refuted)
      (links : v.links = w.links) (pending : v.pending = w.pending) : o.Leaves w v :=
    .of_eq clock fate accepted handed confirmations failures history (fun _ => refuted)
      (fun _ => links) fun _ _ hr => by rwa [pending] at hr
  cases o with
  | begin =>
    refine Leaves.trans (tables (v := { w with begun := w.begun + 1 })
      rfl rfl rfl rfl rfl rfl rfl rfl rfl rfl) ?_
    show PayOp.begin.Leaves _
      (World.noting { w with begun := w.begun + 1 } w.begun fun _ => { thread := some i })
    exact .noting nofun nofun nofun
  | now => exact .rfl
  | deleteExpired t => exact .deliver _ (leaves_deletePayments w _)
  | upsertPayment row =>
    exact .deliver _ (.of_eq rfl rfl rfl rfl rfl rfl rfl (fun _ => rfl) (fun _ => rfl) nofun)
  | selectPayment q h =>
    exact .deliver _ (leaves_reading w q h)
  | deletePayment h => exact .deliver _ (leaves_deletePayments w _)
  | claimPending q h t => exact .deliver _ (leaves_claimPending w q h t)
  | releasePending q h errorCode => exact .deliver _ (leaves_releasePending w q h errorCode)
  | setSubmitted h transport txHash t => exact .deliver _ (leaves_updatePending rfl w h _ _ _)
  | setStatus q h status txHash => exact .deliver _ (leaves_setStatus w q h status txHash)
  | sweepTerminal t cutoff => exact .deliver _ (leaves_deletePayments w _)
  | selectLink id => exact .deliver _ .rfl
  | selectIntent id => exact .deliver _ .rfl
  | claimLink q id owner expiresAt t =>
    exact .deliver _ (leaves_claimLink w q id owner expiresAt t)
  | markBroadcast id owner txHash =>
    exact .deliver _ (.of_eq rfl rfl rfl rfl rfl rfl rfl (fun _ => rfl) nofun fun _ _ hr => hr)
  | releaseLink q id owner release =>
    exact .deliver _ (.of_eq rfl rfl rfl rfl rfl rfl rfl (fun _ => rfl) nofun fun _ _ hr => hr)
  | settleLink s =>
    exact .deliver _ (.of_eq rfl rfl rfl rfl rfl rfl rfl (fun _ => rfl) nofun fun _ _ hr => hr)
  | enqueueMissing t => exact .deliver _ (tables rfl rfl rfl rfl rfl rfl rfl rfl rfl rfl)
  | listDue t limit => exact .deliver _ .rfl
  | claimRequest q h leaseExpiresAt t =>
    exact .deliver _ (tables rfl rfl rfl rfl rfl rfl rfl rfl rfl rfl)
  | rescheduleRequest q h nextAttemptAt errorCode terminal =>
    exact .deliver _ (tables rfl rfl rfl rfl rfl rfl rfl rfl rfl rfl)
  | completeRequest q h t => exact .deliver _ (tables rfl rfl rfl rfl rfl rfl rfl rfl rfl rfl)
  | selectCanonical h => exact .deliver _ .rfl
  | selectCovered past => exact .deliver _ .rfl
  | auxiliary function => exact .deliver _ .rfl
  | buildUserOperation => exact .deliver _ .rfl
  | wrapSignature => exact .deliver _ .rfl
  | endpointSupports slot => exact .rfl
  | ask q h slot doubt => exact leaves_hand rfl rfl x w q h
  | simulate h => exact .rfl
  | acquireSigner => exact .rfl
  | signerBlocked => exact .rfl
  | write q h => exact leaves_hand rfl rfl x w q h
  | releaseSigner => exact .deliver _ .rfl
  | surface q e => exact .rfl
  | receipt mode h txHash => exact leaves_shown rfl w h
  | safeBlock => exact .rfl
  | block number => exact .rfl

/-! ### The status of a row -/

/-- The row of `h` has gone from the status `s` to `s'`, and the others have stayed. -/
structure World.Turned (w w' : World) (h : Hash) (s s' : PendingPaymentStatus) : Prop where
  before : ∃ r ∈ w.pending, r.userOpHash = h ∧ r.status = s
  after : ∀ r ∈ w'.pending, r.userOpHash = h → r.status = s'
  others : ∀ r ∈ w'.pending, r.userOpHash ≠ h → r ∈ w.pending

theorem World.Turned.of_pending {s s' : PendingPaymentStatus} {v : World} (t : w.Turned w' h s s')
    (same : v.pending = w'.pending) : w.Turned v h s s' where
  before := t.before
  after r hr := by
    rw [same] at hr
    exact t.after r hr
  others r hr := by
    rw [same] at hr
    exact t.others r hr

/-- There is one row of an operation. -/
theorem row_unique {r r' : PendingPayment} (hr : r ∈ w.pending) (hr' : r' ∈ w.pending)
    (same : r.userOpHash = r'.userOpHash) : r = r' :=
  Table.eq_of_clash hr hr' (beq_iff_eq.2 same)

/-- An update finds no row, or turns the one it finds. -/
theorem updatePending_turned (w : World) (h : Hash) (guard : PendingPaymentStatus → Bool)
    (f : PendingPayment → PendingPayment) (keys : Table.KeepsKeys f)
    (s' : PendingPaymentStatus) (status : ∀ r, (f r).status = s')
    (hash : ∀ r, (f r).userOpHash = r.userOpHash) :
    w.updatePending h guard f keys = (false, w) ∨
      ∃ s, guard s = true ∧ (w.updatePending h guard f keys).1 = true ∧
        w.Turned (w.updatePending h guard f keys).2 h s s' := by
  rcases updatePending_cases w h guard f keys with same | ⟨r, found, fits, updated⟩
  · exact .inl same
  refine .inr ⟨r.status, fits, by rw [updated], ?_⟩
  have hash_r : r.userOpHash = h := by simpa using Table.of_find? found
  have rows : ∀ r' ∈ (w.updatePending h guard f keys).2.pending, ∃ r₀ ∈ w.pending,
      (if r₀.userOpHash == h then f r₀ else r₀) = r' := by
    intro r' hr'
    rw [updated] at hr'
    have hr' : r' ∈ w.pending.modify (·.userOpHash == h) f keys := hr'
    exact Table.mem_modify.1 hr'
  refine ⟨⟨r, Table.mem_of_find? found, hash_r, rfl⟩, fun r' hr' hash' => ?_,
    fun r' hr' hash' => ?_⟩
  · obtain ⟨r₀, -, rfl⟩ := rows r' hr'
    split
    · exact status r₀
    · rename_i other
      rw [if_neg other] at hash'
      exact absurd (beq_iff_eq.2 hash') other
  · obtain ⟨r₀, hr₀, rfl⟩ := rows r' hr'
    split
    · rename_i mine
      rw [if_pos mine, hash] at hash'
      exact absurd (beq_iff_eq.1 mine) hash'
    · exact hr₀

/-- What an operation makes of the status of the row of `h`. -/
def PayOp.Turns (o : PayOp) (h : Hash) (s s' : PendingPaymentStatus) : Prop :=
  match o with
  | .claimPending _ h' _ => h' = h ∧ s = .prepared ∧ s' = .submitting
  | .releasePending _ h' _ => h' = h ∧ s = .submitting ∧ s' = .prepared
  | .setSubmitted h' _ _ _ => h' = h ∧ (s = .submitting ∨ s = .submitted) ∧ s' = .submitted
  | .setStatus _ h' status _ => h' = h ∧ s' = status
  | _ => False

/-- A claim finds no row that is prepared, or turns it and is noted. -/
theorem claimPending_cases (w : World) (q : RequestId) (h : Hash) (t : Timestamp) :
    (w.claimPending q h t).2.pending = w.pending ∧ (w.claimPending q h t).2.history = w.history ∨
      w.Turned (w.claimPending q h t).2 h .prepared .submitting ∧
        ∀ q', ((w.claimPending q h t).2.history q').operation =
          if q' = q then some h else (w.history q').operation := by
  have turned := updatePending_turned w h (· == .prepared)
    (fun r =>
      { r with
        status := .submitting, submissionAttemptCount := r.submissionAttemptCount + 1
        lastSubmissionErrorCode := none })
    ⟨fun _ _ => rfl⟩ .submitting (fun _ => rfl) fun _ => rfl
  have frame := frame_updatePending none w h (· == .prepared)
    (fun r =>
      { r with
        status := .submitting, submissionAttemptCount := r.submissionAttemptCount + 1
        lastSubmissionErrorCode := none })
    ⟨fun _ _ => rfl⟩
  simp only [World.claimPending]
  rcases turned with same | ⟨s, fits, claimed, turned⟩
  · rw [same]
    refine .inl ?_
    simp only [Bool.false_eq_true, if_false]
    split <;> exact ⟨rfl, rfl⟩
  · obtain rfl : s = .prepared := beq_iff_eq.1 fits
    rw [if_pos claimed]
    refine .inr ⟨turned.of_pending ?_, fun q' => ?_⟩
    · split <;> rfl
    · have history := frame.history q' fun same => by cases same
      split <;> simp only [World.noting] <;> split <;> simp_all

/-- Giving a row back finds none that is being submitted, or turns it and is noted. -/
theorem releasePending_cases (w : World) (q : RequestId) (h : Hash) (errorCode : Option String) :
    w.releasePending q h errorCode = w ∨
      w.Turned (w.releasePending q h errorCode) h .submitting .prepared ∧
        ∀ q', ((w.releasePending q h errorCode).history q').operation =
          if q' = q then none else (w.history q').operation := by
  have turned := updatePending_turned w h (· == .submitting)
    (fun r => { r with status := .prepared, lastSubmissionErrorCode := errorCode })
    ⟨fun _ _ => rfl⟩ .prepared (fun _ => rfl) fun _ => rfl
  have frame := frame_updatePending none w h (· == .submitting)
    (fun r => { r with status := .prepared, lastSubmissionErrorCode := errorCode })
    ⟨fun _ _ => rfl⟩
  simp only [World.releasePending]
  rcases turned with same | ⟨s, fits, released, turned⟩
  · rw [same]
    exact .inl rfl
  · obtain rfl : s = .submitting := beq_iff_eq.1 fits
    rw [if_pos released]
    refine .inr ⟨turned.of_pending rfl, fun q' => ?_⟩
    have history := frame.history q' fun same => by cases same
    simp only [World.noting]
    split <;> simp_all

theorem setSubmitted_turned (w : World) (h : Hash) (transport : Mode) (txHash : Option Hash)
    (t : Timestamp) :
    w.setSubmitted h transport txHash t = w ∨
      ∃ s, (s = .submitting ∨ s = .submitted) ∧
        w.Turned (w.setSubmitted h transport txHash t) h s .submitted := by
  have turned := updatePending_turned w h (fun s => s == .submitting || s == .submitted)
    (fun r =>
      { r with
        status := .submitted, submittedTxHash := txHash, submissionTransport := transport
        submittedAt := some t, lastSubmissionErrorCode := none })
    ⟨fun _ _ => rfl⟩ .submitted (fun _ => rfl) fun _ => rfl
  rcases turned with same | ⟨s, fits, -, turned⟩
  · exact .inl (congrArg Prod.snd same)
  · exact .inr ⟨s, by simpa using fits, turned⟩

theorem counting_pending (w : World) (h : Hash) (status : PendingPaymentStatus) :
    (w.counting h status).pending = w.pending := by
  cases status <;> rfl

theorem setStatus_turned (w : World) (h : Hash) (status : PendingPaymentStatus)
    (txHash : Option (Option Hash)) :
    (w.setStatus h status txHash).pending = w.pending ∨
      ∃ s, w.Turned (w.setStatus h status txHash) h s status := by
  have turned := updatePending_turned w h (fun _ => true)
    (fun r => { r with status := status, submittedTxHash := txHash.getD r.submittedTxHash })
    ⟨fun _ _ => rfl⟩ status (fun _ => rfl) fun _ => rfl
  rcases turned with same | ⟨s, -, -, turned⟩
  · refine .inl ((counting_pending _ _ _).trans ?_)
    rw [same]
  · exact .inr ⟨s, turned.of_pending (counting_pending _ _ _)⟩

/-- Every operation removes rows, turns one, or stores one. -/
theorem pending_step (i : Nat) (o : PayOp) (x : Answer) (w : World) :
    (∀ r ∈ (o.exec i x w).2.pending, r ∈ w.pending) ∨
      (∃ h s s', o.Turns h s s' ∧ w.Turned (o.exec i x w).2 h s s') ∨
      ∃ row, o = .upsertPayment row ∧ ∀ r ∈ (o.exec i x w).2.pending,
        r ∈ w.pending ∨ r.userOpHash = row.userOpHash ∧ r.status = row.status := by
  have kept {v : World} (same : v.pending = w.pending) : ∀ r ∈ v.pending, r ∈ w.pending := by
    intro r hr
    rwa [same] at hr
  -- a statement that turns a row, whether its answer arrives or not
  have turns {α : Type} {o : PayOp} {r : α × World}
      (step : r.2.pending = w.pending ∨ ∃ h s s', o.Turns h s s' ∧ w.Turned r.2 h s s') :
      (∀ p ∈ (PayOp.deliver x.outcome w r).2.pending, p ∈ w.pending) ∨
        ∃ h s s', o.Turns h s s' ∧ w.Turned (PayOp.deliver x.outcome w r).2 h s s' := by
    rcases deliver_world x.outcome w r with same | same <;> rw [same]
    · exact .inl fun _ hr => hr
    · exact step.imp kept id
  cases o with
  | upsertPayment row =>
    refine .inr (.inr ⟨row, rfl, fun r hr => ?_⟩)
    rcases deliver_world x.outcome w ((), w.upsertPayment row) with same | same
    · exact .inl (by rwa [show (PayOp.exec i (.upsertPayment row) x w).2 = w from same] at hr)
    · rw [show (PayOp.exec i (.upsertPayment row) x w).2 = w.upsertPayment row from same] at hr
      rcases Table.mem_upsert hr with ⟨rfl, -⟩ | ⟨r₀, hr₀, rfl⟩
      · exact .inr ⟨rfl, rfl⟩
      · split
        · rename_i clash
          exact .inr ⟨beq_iff_eq.1 clash, rfl⟩
        · exact .inl hr₀
  | claimPending q h t =>
    refine (turns (o := .claimPending q h t) (r := w.claimPending q h t) ?_).imp id .inl
    rcases claimPending_cases w q h t with ⟨same, -⟩ | ⟨turned, -⟩
    · exact .inl same
    · exact .inr ⟨h, _, _, ⟨rfl, rfl, rfl⟩, turned⟩
  | releasePending q h errorCode =>
    refine (turns (o := .releasePending q h errorCode) (r := ((), w.releasePending q h errorCode))
      ?_).imp id .inl
    rcases releasePending_cases w q h errorCode with same | ⟨turned, -⟩
    · exact .inl (congrArg World.pending same)
    · exact .inr ⟨h, _, _, ⟨rfl, rfl, rfl⟩, turned⟩
  | setSubmitted h transport txHash t =>
    refine (turns (o := .setSubmitted h transport txHash t)
      (r := ((), w.setSubmitted h transport txHash t)) ?_).imp id .inl
    rcases setSubmitted_turned w h transport txHash t with same | ⟨s, under, turned⟩
    · exact .inl (congrArg World.pending same)
    · exact .inr ⟨h, _, _, ⟨rfl, under, rfl⟩, turned⟩
  | setStatus q h status txHash =>
    refine (turns (o := .setStatus q h status txHash) (r := ((), w.setStatus h status txHash))
      ?_).imp id .inl
    rcases setStatus_turned w h status txHash with same | ⟨s, turned⟩
    · exact .inl same
    · exact .inr ⟨h, _, _, ⟨rfl, rfl⟩, turned⟩
  | _ => exact .inl ((exec_leaves i _ x w).pending rfl)

/-! ### One request holds an operation -/

/-- A row is stored anew only while it is unclaimed, and given back only by the one
request that claims its operation. -/
def PayOp.Sole (o : PayOp) (_ : Answer) (w : World) : Prop :=
  match o with
  | .upsertPayment row =>
    (∀ r ∈ w.pending, r.userOpHash = row.userOpHash → r.status = .prepared) ∧
      ∀ q < w.begun, (w.history q).operation ≠ some row.userOpHash
  | .releasePending q h _ => ∀ q' < w.begun, (w.history q').operation = some h → q' = q
  | _ => True

instance (o : PayOp) (x : Answer) (w : World) : Decidable (o.Sole x w) := by
  unfold PayOp.Sole
  split <;> infer_instance

/-- One request at most holds an operation, whose row it has taken up; and what a
transport may have accepted, a request holds that has handed it over. -/
structure World.Claimed (w : World) : Prop where
  begun : ∀ q h, (w.history q).operation = some h → q < w.begun
  holder : ∀ q q' h, (w.history q).operation = some h → (w.history q').operation = some h → q = q'
  kept : ∀ q h, (w.history q).operation = some h →
    ∀ r ∈ w.pending, r.userOpHash = h → r.status ≠ .prepared
  sent : ∀ h, w.accepted h = true →
    ∃ q, (w.history q).operation = some h ∧ (w.history q).accepted = true

/-- What may have been accepted is not `prepared`. -/
theorem World.Claimed.not_prepared (hw : w.Claimed) {r : PendingPayment} (hr : r ∈ w.pending)
    (accepted : w.accepted r.userOpHash = true) : r.status ≠ .prepared := by
  obtain ⟨q, held, -⟩ := hw.sent r.userOpHash accepted
  exact hw.kept q r.userOpHash held r hr rfl

/-- A request that holds the operation and has not handed it over is the only one there is. -/
theorem World.Claimed.not_accepted (hw : w.Claimed) (unsent : (w.history q).accepted = false)
    (sole : ∀ q' < w.begun, (w.history q').operation = some h → q' = q) :
    w.accepted h = false := by
  rw [← Bool.not_eq_true]
  intro accepted
  obtain ⟨q', held, sent⟩ := hw.sent h accepted
  rw [sole q' (hw.begun q' h held) held, unsent] at sent
  cases sent

/-- The claims stay as they are, and no row of theirs becomes `prepared`. -/
theorem World.Claimed.of_quiet (hw : w.Claimed) (begun : w'.begun = w.begun)
    (operation : ∀ q, (w'.history q).operation = (w.history q).operation)
    (sent : ∀ q, (w'.history q).accepted = (w.history q).accepted)
    (accepted : w'.accepted = w.accepted)
    (rows : ∀ r ∈ w'.pending, r.status = .prepared →
      r ∈ w.pending ∨ ∀ q, (w.history q).operation ≠ some r.userOpHash) : w'.Claimed where
  begun q h held := by
    rw [begun]
    exact hw.begun q h (operation q ▸ held)
  holder q q' h held held' := hw.holder q q' h (operation q ▸ held) (operation q' ▸ held')
  kept q h held r hr hash prepared := by
    rw [operation] at held
    rcases rows r hr prepared with old | free
    · exact hw.kept q h held r old hash prepared
    · exact free q (by rw [hash, held])
  sent h ha := by
    rw [accepted] at ha
    obtain ⟨q, held, handed⟩ := hw.sent h ha
    exact ⟨q, (operation q).trans held, (sent q).trans handed⟩

/-- Only giving a row back makes it `prepared`. -/
theorem turns_prepared {s : PendingPaymentStatus} (turns : o.Turns h s .prepared)
    (expected : o.Expected x w) : ∃ q errorCode, o = .releasePending q h errorCode := by
  cases o with
  | claimPending => cases turns.2.2
  | releasePending q h' errorCode =>
    obtain ⟨rfl, -, -⟩ := turns
    exact ⟨q, errorCode, rfl⟩
  | setSubmitted => cases turns.2.2
  | setStatus q h' status txHash =>
    obtain ⟨-, rfl⟩ := turns
    cases expected
  | _ => cases turns

/-- A claim of a row that is `prepared`: nobody has held the operation before. -/
theorem claimed_claimPending (hw : w.Claimed) (t : Timestamp) (begun : q < w.begun)
    (idle : (w.history q).operation = none) : (w.claimPending q h t).2.Claimed := by
  have frame := frame_claimPending w q h t
  have leaves := leaves_claimPending w q h t
  rcases claimPending_cases w q h t with ⟨pending, history⟩ | ⟨turned, operation⟩
  · refine hw.of_quiet frame.begun (fun _ => by rw [history]) (leaves.sent rfl)
      (leaves.accepted rfl).1 fun r hr _ => ?_
    rw [pending] at hr
    exact .inl hr
  obtain ⟨r₀, hr₀, rfl, prepared⟩ := turned.before
  have free : ∀ q', (w.history q').operation ≠ some r₀.userOpHash :=
    fun q' held => hw.kept q' _ held r₀ hr₀ rfl prepared
  -- a claim is the new one or an old one, of another operation
  have held {q' : RequestId} {h' : Hash}
      (k : ((w.claimPending q r₀.userOpHash t).2.history q').operation = some h') :
      q' = q ∧ h' = r₀.userOpHash ∨ (w.history q').operation = some h' := by
    rw [operation] at k
    split at k
    · exact .inl ⟨‹_›, (Option.some.inj k).symm⟩
    · exact .inr k
  refine ⟨fun q' h' k => ?_, fun q' q'' h' k k' => ?_, fun q' h' k r hr hash => ?_, fun h' ha => ?_⟩
  · rw [frame.begun]
    rcases held k with ⟨rfl, -⟩ | old
    · exact begun
    · exact hw.begun q' h' old
  · rcases held k with ⟨rfl, rfl⟩ | old <;> rcases held k' with ⟨same, hash⟩ | old'
    · exact same.symm
    · exact absurd old' (free q'')
    · rw [hash] at old
      exact absurd old (free q')
    · exact hw.holder q' q'' h' old old'
  · by_cases mine : r.userOpHash = r₀.userOpHash
    · rw [turned.after r hr mine]
      exact nofun
    · rcases held k with ⟨-, same⟩ | old
      · exact absurd (hash.trans same) mine
      · exact hw.kept q' h' old r (turned.others r hr mine) hash
  · rw [(leaves.accepted rfl).1] at ha
    obtain ⟨q', old, sent⟩ := hw.sent h' ha
    have other : q' ≠ q := by
      rintro rfl
      rw [idle] at old
      cases old
    refine ⟨q', ?_, (leaves.sent rfl q').trans sent⟩
    rw [operation, if_neg other, old]

/-- Giving a row back: nobody else holds the operation. -/
theorem claimed_releasePending (hw : w.Claimed) (errorCode : Option String)
    (unsent : (w.history q).accepted = false)
    (sole : ∀ q' < w.begun, (w.history q').operation = some h → q' = q) :
    (w.releasePending q h errorCode).Claimed := by
  have frame := frame_releasePending w q h errorCode
  have leaves := leaves_releasePending w q h errorCode
  rcases releasePending_cases w q h errorCode with same | ⟨turned, operation⟩
  · rwa [same]
  -- the claims left are old ones, of other requests and operations
  have held {q' : RequestId} {h' : Hash}
      (k : ((w.releasePending q h errorCode).history q').operation = some h') :
      q' ≠ q ∧ (w.history q').operation = some h' := by
    rw [operation] at k
    split at k
    · cases k
    · exact ⟨‹_›, k⟩
  refine ⟨fun q' h' k => ?_, fun q' q'' h' k k' => ?_, fun q' h' k r hr hash => ?_, fun h' ha => ?_⟩
  · rw [frame.begun]
    exact hw.begun q' h' (held k).2
  · exact hw.holder q' q'' h' (held k).2 (held k').2
  · obtain ⟨other, old⟩ := held k
    refine hw.kept q' h' old r (turned.others r hr fun mine => other ?_) hash
    rw [hash.symm.trans mine] at old
    exact sole q' (hw.begun q' h old) old
  · rw [(leaves.accepted rfl).1] at ha
    obtain ⟨q', old, sent⟩ := hw.sent h' ha
    have other : q' ≠ q := by
      rintro rfl
      rw [unsent] at sent
      cases sent
    refine ⟨q', ?_, (leaves.sent rfl q').trans sent⟩
    rw [operation, if_neg other, old]

/-- Handing an operation over: the request holds it. -/
theorem claimed_hand (hw : w.Claimed) (held : (w.history q).operation = some h) :
    (PayOp.hand x w q h).Claimed := by
  unfold PayOp.hand
  split
  · have operation : ∀ q', ((w.accept q h).history q').operation = (w.history q').operation := by
      intro q'
      simp only [World.accept, World.noting]
      split
      · rename_i mine
        rw [mine]
      · rfl
    refine ⟨fun q' h' k => ?_, fun q' q'' h' k k' => ?_, fun q' h' k => ?_, fun h' ha => ?_⟩
    · exact hw.begun q' h' (operation q' ▸ k)
    · exact hw.holder q' q'' h' (operation q' ▸ k) (operation q'' ▸ k')
    · exact hw.kept q' h' (operation q' ▸ k)
    · have ha : h' = h ∨ w.accepted h' = true := by
        simpa [World.accept, World.noting] using ha
      have mine : ((w.accept q h).history q).accepted = true := by
        simp [World.accept, World.noting]
      rcases ha with rfl | old
      · exact ⟨q, (operation q).trans held, mine⟩
      · obtain ⟨q', heldBy, sent⟩ := hw.sent h' old
        refine ⟨q', (operation q').trans heldBy, ?_⟩
        by_cases same : q' = q
        · rw [same]
          exact mine
        · simpa [World.accept, World.noting, same] using sent
  · exact hw

/-- An operation that neither claims nor hands over, nor gives back. -/
theorem claimed_quiet (hw : w.Claimed) (sole : o.Sole x w) (expected : o.Expected x w)
    (claims : o.claims = false) (sends : o.sends = false) (hands : o.hands = false) :
    (o.exec i x w).2.Claimed := by
  have leaves := exec_leaves i o x w
  have begun : o ≠ .begin := by
    rintro rfl
    cases claims
  refine hw.of_quiet (exec_frame i x w begun).begun (leaves.operation claims) (leaves.sent sends)
    (leaves.accepted hands).1 fun r hr prepared => ?_
  rcases pending_step i o x w with old | ⟨h, s, s', turns, turned⟩ | ⟨row, rfl, rows⟩
  · exact .inl (old r hr)
  · by_cases mine : r.userOpHash = h
    · obtain rfl := (turned.after r hr mine).symm.trans prepared
      obtain ⟨q, errorCode, rfl⟩ := turns_prepared turns expected
      cases claims
    · exact .inl (turned.others r hr mine)
  · rcases rows r hr with old | ⟨hash, -⟩
    · exact .inl old
    · refine .inr fun q held => ?_
      rw [hash] at held
      exact sole.2 q (hw.begun q _ held) held

/-- A request begins without a claim. -/
theorem claimed_begin (hw : w.Claimed) : (PayOp.exec i .begin x w).2.Claimed := by
  have old : ∀ q' h', ((PayOp.exec i .begin x w).2.history q').operation = some h' →
      (w.history q').operation = some h' := by
    intro q' h' k
    simp only [PayOp.exec, World.noting] at k
    split at k
    · cases k
    · exact k
  have same : ∀ q', q' ≠ w.begun → (PayOp.exec i .begin x w).2.history q' = w.history q' := by
    intro q' other
    simp only [PayOp.exec, World.noting, if_neg other]
  refine ⟨fun q' h' k => ?_, fun q' q'' h' k k' => ?_, fun q' h' k => ?_, fun h' ha => ?_⟩
  · exact Nat.lt_succ_of_lt (hw.begun q' h' (old q' h' k))
  · exact hw.holder q' q'' h' (old q' h' k) (old q'' h' k')
  · exact hw.kept q' h' (old q' h' k)
  · obtain ⟨q', held, sent⟩ := hw.sent h' ha
    have other := Nat.ne_of_lt (hw.begun q' h' held)
    exact ⟨q', by rw [same q' other, held], by rw [same q' other, sent]⟩

/-- Every operation that is expected, and finds the claims as required, keeps them. -/
theorem claimed_step (hs : w.Sane) (hw : w.Claimed) (sole : o.Sole x w)
    (expected : o.Expected x w) : (o.exec i x w).2.Claimed := by
  have delivered {α : Type} {r : α × World} (hr : r.2.Claimed) :
      (PayOp.deliver x.outcome w r).2.Claimed := by
    rcases deliver_world x.outcome w r with same | same <;> rw [same]
    · exact hw
    · exact hr
  cases o with
  | begin => exact claimed_begin hw
  | claimPending q h t =>
    exact delivered (claimed_claimPending hw t (hs.begun q expected.1) expected.2.1)
  | releasePending q h errorCode =>
    exact delivered (r := ((), w.releasePending q h errorCode))
      (claimed_releasePending hw errorCode expected.1 sole)
  | ask q h slot doubt => exact claimed_hand hw expected.1
  | write q h => exact claimed_hand hw expected.1
  | _ => exact claimed_quiet hw sole expected rfl rfl rfl

theorem initial_claimed (clock : Timestamp) : (World.initial clock).Claimed where
  begun _ _ k := nomatch k
  holder _ _ _ k := nomatch k
  kept _ _ k := nomatch k
  sent _ k := nomatch k

/-- The surroundings touch neither rows nor claims. -/
theorem claimed_move (e : Surroundings) (hw : w.Claimed) : (e.move w).Claimed := by
  have decided (h : Hash) (fate : Fate) : (w.decideFate h fate).Claimed := by
    unfold World.decideFate
    split
    · exact ⟨hw.begun, hw.holder, hw.kept, hw.sent⟩
    · exact hw
  cases e with
  | mine h success =>
    simp only [Surroundings.move]
    split
    · exact decided h _
    · exact hw
  | drop h => exact decided h _
  | journal h c =>
    simp only [Surroundings.move, World.setCanonical]
    split
    · exact ⟨hw.begun, hw.holder, hw.kept, hw.sent⟩
    · unfold World.witness World.onReceipt
      split <;> split <;> exact ⟨hw.begun, hw.holder, hw.kept, hw.sent⟩
  | _ => exact ⟨hw.begun, hw.holder, hw.kept, hw.sent⟩

/-- The claims are kept along every run that meets `PayOp.Sole`. -/
theorem claimed_invariant :
    payDiscipline.Invariant (paySystem env) World.Claimed { op := fun _ => PayOp.Sole } where
  op _ _ _ _ hs hw sole performs := claimed_step hs hw sole performs.ensured
  env e _ _ hw _ _ := claimed_move e hw

end ParmeliaLinks.Pay
