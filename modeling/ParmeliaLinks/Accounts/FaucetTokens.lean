/-
ParmeliaLinks/Accounts/FaucetTokens.lean

The mark of a user is one token: a handler has it, or an operation that is active, or a
transfer that was confirmed, and nobody if the user is not funded.  A claim of a window is one
token, too, until it is refunded.  `Sane` says that none is lost and none is had twice.

A statement keeps this if the handler has the token that it gives back or passes on, and if
the window of a claim is still open when it is refunded.
-/
import ParmeliaLinks.Accounts.Faucet

namespace ParmeliaLinks.Faucet

/-- Operations of a window that did not fail. -/
def World.notFailed (w : World) (v : Window) : Nat :=
  w.operations.rows.countP (fun r => r.active && r.startedIn == v) +
    w.confirmed.countP fun c => c.2 == v

namespace World

/-- The tokens of the mark of a user. -/
def tokens (w : World) (u : Uid) : Nat :=
  w.marks.countP (fun m => m.2 == u) +
    w.operations.rows.countP (fun r => r.active && r.uid == u) +
    w.confirmed.countP fun c => c.1 == u

/-- The count of a window. -/
def countIn : Option RateLimit → Window → Nat
  | some r, v => if r.windowStart = v then r.count else 0
  | none, _ => 0

/-- The count of the window that is open. -/
def openCount (w : World) : Nat := countIn w.rateLimit w.window

/-- Each operation was created, an id once. -/
structure Listed (operations : Table AccountOperation) (created : List (Nat × Uid)) : Prop where
  listed : ∀ r ∈ operations, (r.id, r.uid) ∈ created
  unique : ∀ c ∈ created, ∀ c' ∈ created, c.1 = c'.1 → c.2 = c'.2

structure Sane (limit : Nat) (w : World) : Prop where
  listed : Listed w.operations w.created
  token : ∀ u, w.tokens u = (w.fundedAt u).elim 0 fun _ => 1
  balance : ∀ v, w.granted v =
    w.refunded v + (w.claims.countP (fun c => c.2 == v) + w.notFailed v)
  past : ∀ v, w.window < v → w.granted v = 0
  counted : w.granted w.window ≤ w.refunded w.window + w.openCount
  within : ∀ v, w.granted v ≤ w.refunded v + limit

/-- What the handler holds is the same, and the operations that it knows of were created. -/
structure SameHeld (i : Nat) (w w' : World) : Prop where
  marks : w'.marks.filter (·.1 == i) = w.marks.filter (·.1 == i)
  claims : w'.claims.filter (·.1 == i) = w.claims.filter (·.1 == i)
  created : w.created ⊆ w'.created

variable {w w' w'' : World} {i : Nat} {limit : Nat}

theorem SameHeld.rfl (i : Nat) (w : World) : SameHeld i w w :=
  ⟨Eq.refl _, Eq.refl _, List.Subset.refl _⟩

theorem SameHeld.trans (h : SameHeld i w w') (h' : SameHeld i w' w'') : SameHeld i w w'' :=
  ⟨h'.marks.trans h.marks, h'.claims.trans h.claims, List.Subset.trans h.created h'.created⟩

/-- What a handler holds, and what the others do. -/
theorem countP_own {α : Type} (l : List (Nat × α)) (i : Nat) (p : Nat × α → Bool) :
    (l.filter (·.1 != i)).countP p + (l.filter (·.1 == i)).countP p = l.countP p := by
  rw [List.countP_eq_countP_filter_add l p (·.1 == i), Nat.add_comm]
  congr 2

theorem filter_own_of_other {α : Type} {l : List (Nat × α)} {i j : Nat} (other : j ≠ i) :
    (l.filter (·.1 != i)).filter (·.1 == j) = l.filter (·.1 == j) := by
  rw [List.filter_filter]
  refine List.filter_congr fun a _ => ?_
  by_cases h : a.1 = j
  · simp [h, other]
  · simp [h]

theorem filter_own_self {α : Type} (l : List (Nat × α)) (i : Nat) :
    (l.filter (·.1 != i)).filter (·.1 == i) = [] := by
  rw [List.filter_filter, List.filter_eq_nil_iff]
  intro a _
  simp

/-! ### Statements -/

/-- The handler has the mark of the user. -/
def HasMark (i : Nat) (u : Uid) (w : World) : Prop := w.marks.filter (·.1 == i) = [(i, u)]

/-- The handler has a claim of the window. -/
def HasClaim (i : Nat) (v : Window) (w : World) : Prop := w.claims.filter (·.1 == i) = [(i, v)]

theorem HasMark.mem {u : Uid} (h : HasMark i u w) : (i, u) ∈ w.marks := by
  have mem : (i, u) ∈ w.marks.filter (·.1 == i) := by
    rw [h]
    exact List.mem_cons_self
  exact (List.mem_filter.1 mem).1

/-- A user whose mark a handler has, has no active operation. -/
theorem Sane.none_active (h : w.Sane limit) {u : Uid} (mark : HasMark i u w) :
    w.selectActive u = none := by
  have one := h.token u
  have own := countP_own w.marks i fun m => m.2 == u
  rw [show w.marks.filter (·.1 == i) = _ from mark, List.countP_singleton, if_pos (beq_self_eq_true u)]
    at own
  have none : w.operations.rows.countP (fun r => r.active && r.uid == u) = 0 := by
    unfold tokens at one
    cases e : w.fundedAt u with
    | none =>
      rw [e, Option.elim_none] at one
      omega
    | some since =>
      rw [e, Option.elim_some] at one
      omega
  rw [List.countP_eq_zero] at none
  refine List.find?_eq_none.2 fun r hr found => none r hr ?_
  rwa [Bool.and_comm]

section Listed

variable {operations : Table AccountOperation} {created : List (Nat × Uid)}

theorem Listed.of_rewritten {t : Table AccountOperation} (h : Listed operations created)
    {p : AccountOperation → Bool} {f : AccountOperation → AccountOperation}
    (is : t.rows = operations.rewritten p f) (id : ∀ r, (f r).id = r.id)
    (uid : ∀ r, (f r).uid = r.uid) : Listed t created := by
  refine ⟨fun r hr => ?_, h.unique⟩
  obtain ⟨r₀, h₀, rfl⟩ := (Table.mem_of_rewritten is).1 hr
  split
  · rw [id, uid]
    exact h.listed r₀ h₀
  · exact h.listed r₀ h₀

theorem Listed.delete (h : Listed operations created) (p : AccountOperation → Bool) :
    Listed (operations.delete p) created :=
  ⟨fun r hr => h.listed r (Table.mem_delete.1 hr).1, h.unique⟩

/-- An operation with a new id. -/
theorem Listed.push (h : Listed operations created) {r : AccountOperation}
    (fits : operations.Fits r) (new : ∀ c ∈ created, c.1 ≠ r.id) :
    Listed (operations.push r fits) ((r.id, r.uid) :: created) := by
  refine ⟨fun r' hr' => ?_, fun c hc c' hc' same => ?_⟩
  · rcases (Table.mem_of_rows_append (by exact Eq.refl _)).1 hr' with old | rfl
    · exact List.mem_cons_of_mem _ (h.listed r' old)
    · exact List.mem_cons_self
  · rcases List.mem_cons.1 hc with rfl | old
    · rcases List.mem_cons.1 hc' with rfl | old'
      · rfl
      · exact absurd same.symm (new c' old')
    · rcases List.mem_cons.1 hc' with rfl | old'
      · exact absurd same (new c old)
      · exact h.unique c old c' old' same

end Listed

theorem claimFaucet_sane (h : w.Sane limit) (i : Nat) (u : Uid) :
    (w.claimFaucet i u).2.Sane limit := by
  unfold claimFaucet
  split
  · rename_i unmarked
    refine ⟨h.listed, fun u' => ?_, h.balance, h.past, h.counted, h.within⟩
    have before := h.token u'
    unfold tokens at before ⊢
    dsimp only
    rw [List.countP_cons]
    by_cases same : u' = u
    · subst same
      rw [unmarked, Option.elim_none] at before
      rw [if_pos (beq_self_eq_true u'), if_pos rfl, Option.elim_some]
      omega
    · rw [if_neg same, ← before, if_neg]
      · rfl
      · rw [beq_iff_eq]
        exact fun eq => same eq.symm
  · exact h

theorem releaseFaucetClaim_sane (h : w.Sane limit) {u : Uid} (mark : HasMark i u w) :
    (w.releaseFaucetClaim i u).Sane limit := by
  refine ⟨h.listed, fun u' => ?_, h.balance, h.past, h.counted, h.within⟩
  have before := h.token u'
  have own := countP_own w.marks i fun m => m.2 == u'
  rw [show w.marks.filter (·.1 == i) = _ from mark, List.countP_singleton] at own
  unfold tokens at before ⊢
  unfold releaseFaucetClaim
  dsimp only
  by_cases same : u' = u
  · subst same
    rw [if_pos (beq_self_eq_true u')] at own
    rw [if_pos rfl, Option.elim_none]
    cases e : w.fundedAt u' with
    | none =>
      rw [e, Option.elim_none] at before
      omega
    | some since =>
      rw [e, Option.elim_some] at before
      omega
  · rw [if_neg same]
    have other : ¬ ((i, u).2 == u') = true := by
      rw [beq_iff_eq]
      exact fun eq => same eq.symm
    rw [if_neg other] at own
    rw [← before]
    omega

theorem nextCount_eq (w : World) : w.nextCount = w.openCount + 1 := by
  rw [nextCount, openCount]
  cases w.rateLimit with
  | none => rfl
  | some r =>
    show (if _ then _ else _) = (if _ then _ else _) + 1
    split <;> rfl

theorem consume_sane (h : w.Sane limit) (i : Nat) : (w.consume i limit).2.Sane limit := by
  have counted := h.counted
  have next := w.nextCount_eq
  unfold consume
  dsimp only
  split
  · rename_i free
    refine ⟨h.listed, h.token, fun v => ?_, fun v later => ?_, ?_, fun v => ?_⟩
    · have before := h.balance v
      show (if v = w.window then w.granted v + 1 else w.granted v) = w.refunded v +
        (((i, w.window) :: w.claims).countP (fun c => c.2 == v) + w.notFailed v)
      rw [List.countP_cons]
      by_cases same : v = w.window
      · rw [if_pos same, same, if_pos (beq_self_eq_true w.window)]
        rw [same] at before
        omega
      · rw [if_neg same, if_neg]
        · omega
        · rw [beq_iff_eq]
          exact fun eq => same eq.symm
    · show (if v = w.window then w.granted v + 1 else w.granted v) = 0
      change w.window < v at later
      rw [if_neg (Nat.ne_of_gt later)]
      exact h.past v later
    · show (if w.window = w.window then w.granted w.window + 1 else _) ≤
        w.refunded w.window + if w.window = w.window then w.nextCount else 0
      rw [if_pos rfl, if_pos rfl]
      omega
    · show (if v = w.window then w.granted v + 1 else w.granted v) ≤ w.refunded v + limit
      have before := h.within v
      split
      · rename_i same
        rw [same]
        omega
      · exact before
  · refine ⟨h.listed, h.token, h.balance, h.past, ?_, h.within⟩
    show w.granted w.window ≤ w.refunded w.window + if w.window = w.window then w.nextCount else 0
    rw [if_pos rfl]
    omega

/-- A claim that is refunded in its window; the count of that window is above zero. -/
theorem refund_sane (h : w.Sane limit) (claim : HasClaim i w.window w) :
    (w.refund i).Sane limit := by
  have own (v : Window) := countP_own w.claims i fun c => c.2 == v
  rw [show w.claims.filter (·.1 == i) = _ from claim] at own
  have now := h.balance w.window
  have counted := h.counted
  have mine := own w.window
  rw [List.countP_singleton, if_pos (beq_self_eq_true w.window)] at mine
  rw [refund]
  rw [openCount] at counted
  cases e : w.rateLimit with
  | none =>
    rw [e, show countIn none w.window = 0 from rfl] at counted
    omega
  | some r =>
    rw [e] at counted
    dsimp only
    by_cases is : r.windowStart = w.window
    · rw [show countIn (some r) w.window = r.count from if_pos is] at counted
      rw [if_pos is]
      refine ⟨h.listed, h.token, fun v => ?_, h.past, ?_, fun v => ?_⟩
      · show w.granted v = (if v = w.window then w.refunded v + 1 else w.refunded v) +
          ((w.claims.filter (·.1 != i)).countP (fun c => c.2 == v) + w.notFailed v)
        have before := h.balance v
        have split := own v
        rw [List.countP_singleton] at split
        by_cases same : v = w.window
        · rw [if_pos same, same]
          rw [same] at before
          omega
        · have other : ¬ ((i, w.window).2 == v) = true := by
            rw [beq_iff_eq]
            exact fun eq => same eq.symm
          rw [if_neg same]
          rw [if_neg other] at split
          omega
      · show w.granted w.window ≤
          (if w.window = w.window then w.refunded w.window + 1 else w.refunded w.window) +
            if r.windowStart = w.window then r.count - 1 else 0
        rw [if_pos rfl, if_pos is]
        omega
      · show w.granted v ≤ (if v = w.window then w.refunded v + 1 else w.refunded v) + limit
        have before := h.within v
        split <;> omega
    · rw [show countIn (some r) w.window = 0 from if_neg is] at counted
      omega

theorem claimedIn_of_hasClaim {v : Window} (claim : HasClaim i v w) : w.claimedIn i = v := by
  rw [claimedIn, ← List.head?_filter, show w.claims.filter (·.1 == i) = _ from claim]
  rfl

/-- Mark and claim go over to the operation. -/
theorem insertOperation_sane (h : w.Sane limit) {u : Uid} {v : Window} (mark : HasMark i u w)
    (claim : HasClaim i v w) {id : Nat} (new : ∀ c ∈ w.created, c.1 ≠ id) (txHash nonce : Nat) :
    (w.insertOperation i id u txHash nonce).2.Sane limit := by
  rw [insertOperation]
  split
  · rename_i fits
    refine ⟨h.listed.push fits new, fun u' => ?_, fun v' => ?_, h.past, h.counted, h.within⟩
    · have before := h.token u'
      have own := countP_own w.marks i fun m => m.2 == u'
      rw [show w.marks.filter (·.1 == i) = _ from mark, List.countP_singleton] at own
      show (w.marks.filter (·.1 != i)).countP (fun m => m.2 == u') +
        (w.operations.rows ++ [w.newOperation i id u txHash nonce]).countP _ + _ = _
      rw [List.countP_append, List.countP_singleton]
      change _ + (_ + if (u == u') = true then 1 else 0) + w.confirmed.countP _ = _
      change _ + (if (u == u') = true then 1 else 0) = _ at own
      unfold tokens at before
      rw [← before]
      omega
    · have before := h.balance v'
      have own := countP_own w.claims i fun c => c.2 == v'
      rw [show w.claims.filter (·.1 == i) = _ from claim, List.countP_singleton] at own
      show w.granted v' = w.refunded v' + ((w.claims.filter (·.1 != i)).countP _ +
        ((w.operations.rows ++ [w.newOperation i id u txHash nonce]).countP _ + _))
      rw [List.countP_append, List.countP_singleton]
      change _ = _ + (_ + (_ + (if (w.claimedIn i == v') = true then 1 else 0) +
        w.confirmed.countP _))
      rw [claimedIn_of_hasClaim claim]
      change _ + (if (v == v') = true then 1 else 0) = _ at own
      unfold notFailed at before
      omega
  · exact h

/-- A statement that changes no operation's user, window or state. -/
theorem Sane.of_operations (h : w.Sane limit) {operations : Table AccountOperation}
    (listed : Listed operations w.created)
    (same : ∀ q : AccountOperation → Bool, (∀ r r' : AccountOperation, r.active = r'.active →
      r.uid = r'.uid → r.startedIn = r'.startedIn → q r = q r') → (∀ r, q r = true → r.active = true) →
      operations.rows.countP q = w.operations.rows.countP q) :
    ({ w with operations } : World).Sane limit := by
  refine ⟨listed, fun u => ?_, fun v => ?_, h.past, h.counted, h.within⟩
  · rw [← h.token u]
    unfold tokens
    dsimp only
    rw [same]
    · intro r r' active user _
      rw [active, user]
    · intro r both
      exact (Bool.and_eq_true _ _ ▸ both).1
  · rw [h.balance v]
    unfold notFailed
    dsimp only
    rw [same]
    · intro r r' active _ window
      rw [active, window]
    · intro r both
      exact (Bool.and_eq_true _ _ ▸ both).1

theorem countP_rewritten_of_same {t : Table AccountOperation} {p : AccountOperation → Bool}
    {f : AccountOperation → AccountOperation} {q : AccountOperation → Bool}
    (same : ∀ r, q (f r) = q r) : (t.rewritten p f).countP q = t.rows.countP q := by
  rw [Table.rewritten, List.countP_map]
  refine List.countP_congr fun r _ => ?_
  show q (if p r then f r else r) = true ↔ q r = true
  split
  · rw [same]
  · rfl

theorem recordAttempt_sane (h : w.Sane limit) (id : Nat) : (w.recordAttempt id).Sane limit :=
  h.of_operations (h.listed.of_rewritten (Table.modify_rows _ _ _ _) (fun _ => rfl) fun _ => rfl)
    fun _ reads _ => countP_rewritten_of_same fun r => reads (r.attempted w.now) r rfl rfl rfl

theorem of_markSubmitted (now : Timestamp) (r : AccountOperation) :
    (r.markedSubmitted now).id = r.id ∧ (r.markedSubmitted now).uid = r.uid ∧
      (r.markedSubmitted now).startedIn = r.startedIn := by
  unfold AccountOperation.markedSubmitted
  split <;> exact ⟨rfl, rfl, rfl⟩

theorem markSubmitted_sane (h : w.Sane limit) (id : Nat) : (w.markSubmitted id).Sane limit := by
  have same := of_markSubmitted w.now
  refine h.of_operations (h.listed.of_rewritten (Table.modify_rows _ _ _ _)
    (fun r => (same r).1) fun r => (same r).2.1) fun _ reads _ => ?_
  refine countP_rewritten_of_same fun r => ?_
  exact reads _ r (active_markedSubmitted w.now r) (same r).2.1 (same r).2.2

theorem not_ended_of_active {r : AccountOperation} (active : r.active = true) :
    (r.status == .confirmed || r.status == .failed) = false := by
  unfold AccountOperation.active at active
  cases status : r.status <;> rw [status] at active <;> first | rfl | cases active

theorem sweep_sane (h : w.Sane limit) : w.sweep.Sane limit := by
  refine h.of_operations (h.listed.delete _) fun q _ active => ?_
  show (w.operations.rows.filter _).countP q = _
  rw [List.countP_filter]
  refine List.countP_congr fun r _ => ?_
  rw [Bool.and_eq_true]
  refine ⟨fun both => both.1, fun counts => ⟨counts, ?_⟩⟩
  dsimp only
  rw [not_ended_of_active (active r counts), Bool.false_and, Bool.not_false]

theorem active_of_pending {r : AccountOperation} (pending : r.pending = true) : r.active = true := by
  unfold AccountOperation.pending at pending
  unfold AccountOperation.active
  rw [pending, Bool.true_or]

/-- How the update of a pending operation changes a count. -/
theorem countP_finished {id : Nat} (status : AccountOperationStatus) (errorCode : Option String)
    (now : Timestamp) {r : AccountOperation}
    (found : w.operations.find? (fun r => r.id == id && r.pending) = some r)
    (q : AccountOperation → Bool) :
    (w.operations.release (fun r => r.id == id && r.pending) (·.finished status errorCode now)
      (freesKeys_finished status errorCode now)).rows.countP q + (if q r then 1 else 0) =
      w.operations.rows.countP q + if q (r.finished status errorCode now) then 1 else 0 := by
  have matched := Table.of_find? found
  refine Table.countP_rewritten_of_key q (Table.mem_of_find? found) matched fun r' matched' => ?_
  rw [Bool.and_eq_true, beq_iff_eq] at matched matched'
  rw [Row.clash, instRowAccountOperation, Bool.or_eq_true, Bool.or_eq_true]
  refine .inl (.inl ?_)
  rw [beq_iff_eq, matched.1, matched'.1]

/-- The operation stays active. -/
theorem Sane.of_stays (h : w.Sane limit) {operations : Table AccountOperation} {r : AccountOperation}
    (listed : Listed operations w.created)
    (user : ∀ u, operations.rows.countP (fun r => r.active && r.uid == u) +
      (if (r.uid == u) = true then 1 else 0) =
        w.operations.rows.countP (fun r => r.active && r.uid == u) +
          if (r.uid == u) = true then 1 else 0)
    (window : ∀ v, operations.rows.countP (fun r => r.active && r.startedIn == v) +
      (if (r.startedIn == v) = true then 1 else 0) =
        w.operations.rows.countP (fun r => r.active && r.startedIn == v) +
          if (r.startedIn == v) = true then 1 else 0) :
    ({ w with operations } : World).Sane limit := by
  refine ⟨listed, fun u => ?_, fun v => ?_, h.past, h.counted, h.within⟩
  · rw [← h.token u]
    unfold tokens
    dsimp only
    rw [Nat.add_right_cancel (user u)]
  · rw [h.balance v]
    unfold notFailed
    dsimp only
    rw [Nat.add_right_cancel (window v)]

theorem of_finished (status : AccountOperationStatus) (errorCode : Option String) (now : Timestamp)
    (r : AccountOperation) :
    (r.finished status errorCode now).id = r.id ∧ (r.finished status errorCode now).uid = r.uid := by
  unfold AccountOperation.finished
  split <;> exact ⟨rfl, rfl⟩

theorem finish_sane (h : w.Sane limit) (i id : Nat) (status : AccountOperationStatus)
    (errorCode : Option String) : (w.finish i id status errorCode).2.Sane limit := by
  rw [finish]
  cases found : w.selectPending id with
  | none => exact h
  | some r =>
    have pending : r.pending = true := (Bool.and_eq_true _ _ ▸ Table.of_find? found).2
    have on := active_of_pending pending
    have counts (q : AccountOperation → Bool) :=
      countP_finished status errorCode w.now found q
    have is : r.finished status errorCode w.now = { r with
        status, errorCode, updatedAt := w.now
        confirmedAt := if status = .confirmed then some w.now else none } := if_pos pending
    have user (u : Uid) := counts fun r => r.active && r.uid == u
    have window (v : Window) := counts fun r => r.active && r.startedIn == v
    simp only [on, is, Bool.true_and] at user window
    have listed : Listed (w.operations.release (fun r => r.id == id && r.pending)
        (·.finished status errorCode w.now) (freesKeys_finished status errorCode w.now)) w.created :=
      h.listed.of_rewritten (Eq.refl _) (fun r => (of_finished status errorCode w.now r).1)
        fun r => (of_finished status errorCode w.now r).2
    -- the operation stays active, or hands its mark and its claim on
    cases status with
    | failed =>
      refine ⟨listed, fun u => ?_, fun v => ?_, h.past, h.counted, h.within⟩
      · have before := h.token u
        have swap := user u
        unfold tokens at before ⊢
        dsimp only
        rw [List.countP_cons, ← before]
        change _ + (if (r.uid == u) = true then 1 else 0) + _ + _ = _
        change _ = _ + 0 at swap
        omega
      · have before := h.balance v
        have swap := window v
        unfold notFailed at before ⊢
        dsimp only
        rw [List.countP_cons]
        change _ = _ + (_ + (if (r.startedIn == v) = true then 1 else 0) + (_ + _))
        change _ = _ + 0 at swap
        omega
    | confirmed =>
      refine ⟨listed, fun u => ?_, fun v => ?_, h.past, h.counted, h.within⟩
      · have before := h.token u
        have swap := user u
        unfold tokens at before ⊢
        dsimp only
        rw [List.countP_cons, ← before]
        change _ + _ + (_ + if (r.uid == u) = true then 1 else 0) = _
        change _ = _ + 0 at swap
        omega
      · have before := h.balance v
        have swap := window v
        unfold notFailed at before ⊢
        dsimp only
        rw [List.countP_cons]
        change _ = _ + (_ + (_ + (_ + if (r.startedIn == v) = true then 1 else 0)))
        change _ = _ + 0 at swap
        omega
    | prepared => exact h.of_stays listed user window
    | submitted => exact h.of_stays listed user window
    | needsReview => exact h.of_stays listed user window

theorem windowAt_mono {t t' : Timestamp} (h : t ≤ t') : windowAt t ≤ windowAt t' :=
  Nat.mul_le_mul_right _ (Nat.div_le_div_right (Nat.div_le_div_right h))

/-- The counter of the window that is open is not dropped. -/
theorem recent_window (t : Nat) : t / 1000 ≤ windowAt t + 24 * 3600 := by
  have below : ∀ n : Nat, n ≤ n / 86400 * 86400 + 86400 := fun n => by omega
  exact below (t / 1000)

theorem apply_sane (h : w.Sane limit) (e : Surroundings) : (e.apply w).Sane limit := by
  cases e with
  | wait ms =>
    have later : w.window ≤ windowAt (w.now + ms) := windowAt_mono (Nat.le_add_right _ _)
    refine ⟨h.listed, h.token, h.balance, fun v after => ?_, ?_, h.within⟩
    · change windowAt (w.now + ms) < v at after
      exact h.past v (Nat.lt_of_le_of_lt later after)
    · rcases Nat.lt_or_eq_of_le later with after | same
      · have nothing : w.granted (windowAt (w.now + ms)) = 0 := h.past _ after
        show w.granted (windowAt (w.now + ms)) ≤ _
        rw [nothing]
        exact Nat.zero_le _
      · show w.granted (windowAt (w.now + ms)) ≤ w.refunded (windowAt (w.now + ms)) +
          countIn w.rateLimit (windowAt (w.now + ms))
        rw [← same]
        exact h.counted
  | sweepRateLimits =>
    refine ⟨h.listed, h.token, h.balance, h.past, ?_, h.within⟩
    have kept : countIn (Surroundings.sweepRateLimits.apply w).rateLimit w.window =
        countIn w.rateLimit w.window := by
      show countIn (w.rateLimit.filter _) _ = _
      cases w.rateLimit with
      | none => rfl
      | some r =>
        by_cases recent : w.now / 1000 ≤ r.windowStart + 24 * 3600
        · rw [Option.filter_some, if_pos (decide_eq_true recent)]
        · rw [Option.filter_some, if_neg (by rwa [decide_eq_true_eq])]
          -- a counter that is dropped is not that of the open window
          refine (if_neg fun is => recent ?_).symm
          rw [is]
          exact recent_window w.now
    show w.granted w.window ≤ w.refunded w.window + countIn _ w.window
    rw [kept]
    exact h.counted

theorem SameHeld.of_eq (i : Nat) (marks : w'.marks = w.marks) (claims : w'.claims = w.claims)
    (created : w'.created = w.created) : SameHeld i w w' := by
  constructor
  · rw [marks]
  · rw [claims]
  · rw [created]
    exact List.Subset.refl _

theorem SameHeld.hasMark {u : Uid} (same : SameHeld i w w') (h : HasMark i u w) : HasMark i u w' :=
  same.marks.trans h

theorem SameHeld.hasClaim {v : Window} (same : SameHeld i w w') (h : HasClaim i v w) :
    HasClaim i v w' := same.claims.trans h

end World

end ParmeliaLinks.Faucet
