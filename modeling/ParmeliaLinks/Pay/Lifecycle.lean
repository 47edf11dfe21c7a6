/-
ParmeliaLinks/Pay/Lifecycle.lean

The status of a pending payment goes one way, from `prepared` over `submitting` and
`submitted` to `confirmed` or `failed`, under any interleaving of preparations,
submissions, status queries and passes of the reconciler.

Two writers do not look at the status that they write over.  Storing a row anew
resets it, and `setPendingPaymentStatus` decides from what the pass has read several
awaits ago.  So this holds of the runs in which a row is stored anew only while
nobody has claimed it (`PayOp.Sole`), and in which no other pass has written a final
status since the one that writes has read the row (`PayOp.Fresh`).
-/
import ParmeliaLinks.Pay.Effects

namespace ParmeliaLinks.Pay

variable {env : Env} {i : Nat} {o : PayOp} {x : Answer} {w w' : World} {q : RequestId} {h : Hash}

/-! ### What is required, and when it holds -/

def PendingPaymentStatus.rank : PendingPaymentStatus → Nat
  | .prepared => 0
  | .submitting => 1
  | .submitted => 2
  | .confirmed => 3
  | .failed => 3

/-- The status of the row of `h` may go from `s` to `s'`. -/
def World.MayTurn (w : World) (h : Hash) (s s' : PendingPaymentStatus) : Prop :=
  s' = s ∨ s.rank < s'.rank ∨
    -- a receipt overrules a failure
    (s = .failed ∧ s' = .confirmed ∧ w.proven h = true) ∨
    -- a claim is given back
    (s = .submitting ∧ s' = .prepared ∧ w.accepted h = false)

instance (w : World) (h : Hash) (s s' : PendingPaymentStatus) : Decidable (w.MayTurn h s s') :=
  inferInstanceAs (Decidable (_ ∨ _))

/-- Every row has gone on as it may. -/
def World.Forward (w w' : World) : Prop :=
  ∀ r ∈ w.pending, ∀ r' ∈ w'.pending, r'.userOpHash = r.userOpHash →
    w.MayTurn r.userOpHash r.status r'.status

instance (w w' : World) : Decidable (w.Forward w') :=
  inferInstanceAs (Decidable (∀ r ∈ w.pending, ∀ r' ∈ w'.pending, _ → _))

/-- No row is `prepared` whose operation a transport may have accepted. -/
def World.Committed (w : World) : Prop :=
  ∀ r ∈ w.pending, w.accepted r.userOpHash = true → r.status ≠ .prepared

/-- Each step of the run takes the rows forward, and what may have been accepted is
never `prepared` again. -/
structure OneWay (env : Env) (clock : Timestamp) (ls : PaySchedule) : Prop where
  forward : ∀ pre l post, ls = pre ++ l :: post →
    ((paySystem env).runFrom (start clock) pre).world.Forward
      ((paySystem env).runFrom (start clock) (pre ++ [l])).world
  committed : ∀ pre post, ls = pre ++ post →
    ((paySystem env).runFrom (start clock) pre).world.Committed

/-- No other pass has written a final status since the pass has read the row; a failure
may be written over a failure. -/
def PayOp.Fresh (o : PayOp) (_ : Answer) (w : World) : Prop :=
  match o with
  | .setStatus q h .submitted _ =>
    (w.history q).reading.map (fun r => (r.confirmations, r.failures)) =
      some (w.confirmations h, w.failures h)
  | .setStatus q h .failed _ =>
    (w.history q).reading.map (·.confirmations) = some (w.confirmations h)
  | _ => True

instance (o : PayOp) (x : Answer) (w : World) : Decidable (o.Fresh x w) := by
  unfold PayOp.Fresh
  split <;> infer_instance

/-! ### What a pass has seen -/

/-- A pass that has read the row of an operation found it under way; it is, as long as no
final status has been written. -/
structure World.Seen (w : World) : Prop where
  bounded : ∀ q r, (w.history q).reading = some r →
    r.confirmations ≤ w.confirmations r.userOpHash ∧ r.failures ≤ w.failures r.userOpHash
  confirmed : ∀ q r, (w.history q).reading = some r →
    r.confirmations = w.confirmations r.userOpHash →
      ∀ p ∈ w.pending, p.userOpHash = r.userOpHash → p.status ≠ .confirmed
  failed : ∀ q r, (w.history q).reading = some r → r.failures = w.failures r.userOpHash →
    ∀ p ∈ w.pending, p.userOpHash = r.userOpHash → p.status ≠ .failed

/-- Nothing new is read, and each final status is counted. -/
theorem World.Seen.of_counted (hw : w.Seen)
    (reading : ∀ q r, (w'.history q).reading = some r → (w.history q).reading = some r)
    (confirmations : ∀ h, w.confirmations h ≤ w'.confirmations h)
    (failures : ∀ h, w.failures h ≤ w'.failures h)
    (rows : ∀ p ∈ w'.pending, p ∈ w.pending ∨
      (p.status = .confirmed → w.confirmations p.userOpHash < w'.confirmations p.userOpHash) ∧
        (p.status = .failed → w.failures p.userOpHash < w'.failures p.userOpHash)) : w'.Seen where
  bounded q r read := by
    obtain ⟨c, f⟩ := hw.bounded q r (reading q r read)
    exact ⟨Nat.le_trans c (confirmations _), Nat.le_trans f (failures _)⟩
  confirmed q r read same p hp hash confirmed := by
    have read := reading q r read
    have bound := (hw.bounded q r read).1
    have grown := confirmations r.userOpHash
    rcases rows p hp with old | ⟨counted, -⟩
    · exact hw.confirmed q r read (by omega) p old hash confirmed
    · have counted := counted confirmed
      rw [hash] at counted
      omega
  failed q r read same p hp hash failed := by
    have read := reading q r read
    have bound := (hw.bounded q r read).2
    have grown := failures r.userOpHash
    rcases rows p hp with old | ⟨-, counted⟩
    · exact hw.failed q r read (by omega) p old hash failed
    · have counted := counted failed
      rw [hash] at counted
      omega

/-- Only `setPendingPaymentStatus` ends a payment. -/
theorem turns_final {s s' : PendingPaymentStatus} (turns : o.Turns h s s')
    (final : s' = .confirmed ∨ s' = .failed) : o.overwrites = true := by
  cases o with
  | setStatus => rfl
  | claimPending =>
    rw [turns.2.2] at final
    rcases final with final | final <;> cases final
  | releasePending =>
    rw [turns.2.2] at final
    rcases final with final | final <;> cases final
  | setSubmitted =>
    rw [turns.2.2] at final
    rcases final with final | final <;> cases final
  | _ => cases turns

/-- An operation that reads no row and ends no payment. -/
theorem seen_quiet (hw : w.Seen) (expected : o.Expected x w) (reads : o.reads = false)
    (overwrites : o.overwrites = false) : (o.exec i x w).2.Seen := by
  have leaves := exec_leaves i o x w
  obtain ⟨confirmations, failures⟩ := leaves.counts overwrites
  refine hw.of_counted (fun q r read => by rwa [leaves.reading reads] at read)
    (fun _ => by rw [confirmations]) (fun _ => by rw [failures]) fun p hp => ?_
  rcases pending_step i o x w with old | ⟨h, s, s', turns, turned⟩ | ⟨row, rfl, rows⟩
  · exact .inl (old p hp)
  · by_cases mine : p.userOpHash = h
    · have open_ : ¬ (p.status = .confirmed ∨ p.status = .failed) := by
        rw [turned.after p hp mine]
        intro final
        rw [turns_final turns final] at overwrites
        cases overwrites
      exact .inr ⟨fun final => absurd (.inl final) open_, fun final => absurd (.inr final) open_⟩
    · exact .inl (turned.others p hp mine)
  · rcases rows p hp with old | ⟨-, status⟩
    · exact .inl old
    · have prepared : p.status = .prepared := status.trans expected
      refine .inr ⟨fun final => ?_, fun final => ?_⟩ <;>
      · rw [prepared] at final
        cases final

/-- The counters go up, and each final status moves its own. -/
theorem counting_counts (w : World) (h : Hash) (status : PendingPaymentStatus) :
    (∀ h', w.confirmations h' ≤ (w.counting h status).confirmations h') ∧
      (∀ h', w.failures h' ≤ (w.counting h status).failures h') ∧
      (status = .confirmed → w.confirmations h < (w.counting h status).confirmations h) ∧
      (status = .failed → w.failures h < (w.counting h status).failures h) := by
  have up (f : Hash → Nat) (h' : Hash) : f h' ≤ if h' = h then f h + 1 else f h' := by
    split
    · rename_i same
      rw [same]
      exact Nat.le_succ _
    · exact Nat.le_refl _
  cases status with
  | confirmed => exact ⟨up _, fun _ => Nat.le_refl _, fun _ => by simp [World.counting], nofun⟩
  | failed => exact ⟨fun _ => Nat.le_refl _, up _, nofun, fun _ => by simp [World.counting]⟩
  | _ => exact ⟨fun _ => Nat.le_refl _, fun _ => Nat.le_refl _, nofun, nofun⟩

/-- A status is written, and counted if it is a final one. -/
theorem seen_setStatus (hw : w.Seen) (h : Hash) (status : PendingPaymentStatus)
    (txHash : Option (Option Hash)) : (w.setStatus h status txHash).Seen := by
  have update := updatePending_cases w h (fun _ => true)
    (fun r => { r with status := status, submittedTxHash := txHash.getD r.submittedTxHash })
    ⟨fun _ _ => rfl⟩
  have frame := (frame_updatePending none w h (fun _ => true)
    (fun r => { r with status := status, submittedTxHash := txHash.getD r.submittedTxHash })
    ⟨fun _ _ => rfl⟩).trans (frame_counting _ h status)
  -- the update itself counts nothing
  obtain ⟨v, counted, confirmations, failures⟩ : ∃ v : World,
      w.setStatus h status txHash = v.counting h status ∧
        v.confirmations = w.confirmations ∧ v.failures = w.failures := by
    refine ⟨_, rfl, ?_⟩
    rcases update with kept | ⟨r, -, -, updated⟩
    · rw [kept]
      exact ⟨rfl, rfl⟩
    · rw [updated]
      exact ⟨rfl, rfl⟩
  have counts := counting_counts v h status
  rw [← counted, confirmations, failures] at counts
  obtain ⟨up, up', confirmed, failed⟩ := counts
  refine hw.of_counted (fun q r read => ?_) up up' fun p hp => ?_
  · have history : (w.setStatus h status txHash).history q = w.history q := frame.history q nofun
    rwa [history] at read
  · rcases setStatus_turned w h status txHash with same | ⟨s, turned⟩
    · rw [same] at hp
      exact .inl hp
    · by_cases mine : p.userOpHash = h
      · have status' := turned.after p hp mine
        rw [mine]
        exact .inr ⟨fun final => confirmed (status'.symm.trans final),
          fun final => failed (status'.symm.trans final)⟩
      · exact .inl (turned.others p hp mine)

/-- A pass notes the row that it has read, if it is under way. -/
theorem seen_reading (hw : w.Seen) (q : RequestId) (h : Hash) : (w.reading q h).Seen := by
  -- a reading is an old one, or the new one of a row that is under way
  have fresh : ∀ q' r, ((w.reading q h).history q').reading = some r →
      (w.history q').reading = some r ∨ r = ⟨h, w.confirmations h, w.failures h⟩ ∧
        ∀ p ∈ w.pending, p.userOpHash = h → p.status ≠ .confirmed ∧ p.status ≠ .failed := by
    intro q' r read
    simp only [World.reading, World.noting] at read
    split at read
    · dsimp only at read
      split at read
      · rename_i under
        refine .inr ⟨(Option.some.inj read).symm, fun p hp hash => ?_⟩
        cases found : w.payment? h with
        | none =>
          have missing := Table.not_of_find?_none found hp
          rw [hash] at missing
          simp at missing
        | some r₀ =>
          have hash₀ : r₀.userOpHash = h := by simpa using Table.of_find? found
          obtain rfl := row_unique hp (Table.mem_of_find? found) (hash.trans hash₀.symm)
          simpa [found] using under
      · cases read
    · exact .inl read
  refine ⟨fun q' r read => ?_, fun q' r read same p hp hash => ?_, fun q' r read same p hp hash => ?_⟩
  · rcases fresh q' r read with old | ⟨rfl, -⟩
    · exact hw.bounded q' r old
    · exact ⟨Nat.le_refl _, Nat.le_refl _⟩
  · rcases fresh q' r read with old | ⟨rfl, under⟩
    · exact hw.confirmed q' r old same p hp hash
    · exact (under p hp hash).1
  · rcases fresh q' r read with old | ⟨rfl, under⟩
    · exact hw.failed q' r old same p hp hash
    · exact (under p hp hash).2

/-- Every operation that is expected keeps what the passes have seen. -/
theorem seen_step (hw : w.Seen) (expected : o.Expected x w) : (o.exec i x w).2.Seen := by
  have delivered {α : Type} {r : α × World} (hr : r.2.Seen) :
      (PayOp.deliver x.outcome w r).2.Seen := by
    rcases deliver_world x.outcome w r with same | same <;> rw [same]
    · exact hw
    · exact hr
  cases o with
  | begin =>
    have old : ∀ q r, ((PayOp.exec i .begin x w).2.history q).reading = some r →
        (w.history q).reading = some r := by
      intro q r read
      simp only [PayOp.exec, World.noting] at read
      split at read
      · cases read
      · exact read
    exact hw.of_counted old (fun _ => Nat.le_refl _) (fun _ => Nat.le_refl _) fun p hp => .inl hp
  | selectPayment q h => exact delivered (r := (w.payment? h, w.reading q h)) (seen_reading hw q h)
  | setStatus q h status txHash =>
    exact delivered (r := ((), w.setStatus h status txHash)) (seen_setStatus hw h status txHash)
  | _ => exact seen_quiet hw expected rfl rfl

/-- The surroundings leave the rows alone. -/
theorem move_pending (e : Surroundings) (w : World) : (e.move w).pending = w.pending := by
  have decided (h : Hash) (fate : Fate) : (w.decideFate h fate).pending = w.pending := by
    unfold World.decideFate
    split <;> rfl
  cases e with
  | mine h success =>
    simp only [Surroundings.move]
    split
    · exact decided h _
    · rfl
  | drop h => exact decided h _
  | journal h c =>
    simp only [Surroundings.move, World.setCanonical]
    split
    · rfl
    · unfold World.witness World.onReceipt
      split <;> split <;> rfl
  | _ => rfl

theorem initial_seen (clock : Timestamp) : (World.initial clock).Seen where
  bounded _ _ read := nomatch read
  confirmed _ _ read := nomatch read
  failed _ _ read := nomatch read

theorem seen_move (e : Surroundings) (hw : w.Seen) : (e.move w).Seen := by
  have decided (h : Hash) (fate : Fate) : (w.decideFate h fate).Seen := by
    unfold World.decideFate
    split
    · exact ⟨hw.bounded, hw.confirmed, hw.failed⟩
    · exact hw
  cases e with
  | mine h success =>
    simp only [Surroundings.move]
    split
    · exact decided h _
    · exact hw
  | drop h => exact decided h _
  | journal h c =>
    simp only [Surroundings.move, World.setCanonical]
    split
    · exact ⟨hw.bounded, hw.confirmed, hw.failed⟩
    · unfold World.witness World.onReceipt
      split <;> split <;> exact ⟨hw.bounded, hw.confirmed, hw.failed⟩
  | _ => exact ⟨hw.bounded, hw.confirmed, hw.failed⟩

/-! ### One step -/

theorem World.Forward.of_subset (rows : ∀ r ∈ w'.pending, r ∈ w.pending) : w.Forward w' := by
  intro r hr r' hr' same
  obtain rfl := row_unique hr (rows r' hr') same.symm
  exact .inl rfl

/-- A row that is turned as it may be. -/
theorem World.Forward.of_turned {s s' : PendingPaymentStatus} (turned : w.Turned w' h s s')
    (may : w.MayTurn h s s') : w.Forward w' := by
  intro r hr r' hr' same
  obtain ⟨r₀, hr₀, rfl, rfl⟩ := turned.before
  by_cases mine : r'.userOpHash = r₀.userOpHash
  · obtain rfl := row_unique hr hr₀ (same.symm.trans mine)
    rw [turned.after r' hr' mine]
    exact may
  · obtain rfl := row_unique hr (turned.others r' hr' mine) same.symm
    exact .inl rfl

/-- What a pass writes over, when no other one has written a final status. -/
theorem may_setStatus {s status : PendingPaymentStatus} {txHash : Option (Option Hash)}
    (hw : w.Seen) (row : ∃ r ∈ w.pending, r.userOpHash = h ∧ r.status = s)
    (expected : PayOp.Expected (.setStatus q h status txHash) x w)
    (fresh : PayOp.Fresh (.setStatus q h status txHash) x w) : w.MayTurn h s status := by
  obtain ⟨p, hp, rfl, rfl⟩ := row
  cases status with
  | prepared => cases expected
  | submitting => cases expected
  | submitted =>
    obtain ⟨r, read, hash⟩ := expected
    simp only [PayOp.Fresh, read, Option.map_some, Option.some.injEq, Prod.mk.injEq] at fresh
    have confirmed := hw.confirmed q r read (by rw [hash, fresh.1]) p hp hash.symm
    have failed := hw.failed q r read (by rw [hash, fresh.2]) p hp hash.symm
    unfold World.MayTurn
    cases status : p.status <;> simp_all [PendingPaymentStatus.rank]
  | confirmed =>
    have proven : w.proven p.userOpHash = true := expected
    unfold World.MayTurn
    cases p.status <;> simp [PendingPaymentStatus.rank, proven]
  | failed =>
    obtain ⟨r, read, hash⟩ := expected
    simp only [PayOp.Fresh, read, Option.map_some, Option.some.injEq] at fresh
    have confirmed := hw.confirmed q r read (by rw [hash, fresh]) p hp hash.symm
    unfold World.MayTurn
    cases status : p.status <;> simp_all [PendingPaymentStatus.rank]

/-- Every operation that is expected, and meets the conditions, takes the rows forward. -/
theorem forward_exec (hw : w.Claimed) (seen : w.Seen) (sole : o.Sole x w) (fresh : o.Fresh x w)
    (expected : o.Expected x w) : w.Forward (o.exec i x w).2 := by
  rcases pending_step i o x w with old | ⟨h, s, s', turns, turned⟩ | ⟨row, rfl, rows⟩
  · exact .of_subset old
  · refine .of_turned turned ?_
    cases o with
    | claimPending =>
      obtain ⟨-, rfl, rfl⟩ := turns
      exact .inr (.inl (by decide))
    | releasePending q h' errorCode =>
      obtain ⟨rfl, rfl, rfl⟩ := turns
      exact .inr (.inr (.inr ⟨rfl, rfl, hw.not_accepted expected.1 sole⟩))
    | setSubmitted =>
      obtain ⟨-, rfl | rfl, rfl⟩ := turns
      · exact .inr (.inl (by decide))
      · exact .inl rfl
    | setStatus q h' status txHash =>
      obtain ⟨rfl, rfl⟩ := turns
      exact may_setStatus seen turned.before expected fresh
    | _ => cases turns
  · -- a row that is stored anew was still `prepared`
    intro r hr r' hr' same
    rcases rows r' hr' with old | ⟨hash, status⟩
    · obtain rfl := row_unique hr old same.symm
      exact .inl rfl
    · have prepared : row.status = .prepared := expected
      rw [sole.1 r hr (same.symm.trans hash), status, prepared]
      exact .inl rfl

/-! ### Every run -/

/-- Transports are candid, and every writer finds the row as it has to. -/
def oneWayConditions : System.Conditions PayOp World Answer Surroundings PayCall where
  op _ o x w := o.Candid x w ∧ o.Sole x w ∧ o.Fresh x w

/-- Each operation of the run meets the conditions. -/
def AlongOneWay (env : Env) (clock : Timestamp) (ls : PaySchedule) : Prop :=
  (paySystem env).Along oneWayConditions (start clock) ls

instance (i : Nat) (o : PayOp) (x : Answer) (w : World) : Decidable (oneWayConditions.op i o x w) :=
  inferInstanceAs (Decidable (o.Candid x w ∧ o.Sole x w ∧ o.Fresh x w))

instance (e : Surroundings) (w : World) : Decidable (oneWayConditions.env e w) := .isTrue trivial

instance (c : PayCall) (w : World) : Decidable (oneWayConditions.call c w) := .isTrue trivial

instance (env : Env) (clock : Timestamp) (ls : PaySchedule) : Decidable (AlongOneWay env clock ls) :=
  inferInstanceAs (Decidable ((paySystem env).Along oneWayConditions (start clock) ls))

/-- What is known in every state of such a run. -/
structure World.Kept (w : World) : Prop where
  claimed : w.Claimed
  seen : w.Seen

theorem kept_invariant (env : Env) :
    payDiscipline.Invariant (paySystem env) World.Kept oneWayConditions where
  op _ _ _ _ hs hw required performs :=
    ⟨claimed_step hs hw.claimed required.2.1 performs.ensured, seen_step hw.seen performs.ensured⟩
  env e _ _ hw _ _ := ⟨claimed_move e hw.claimed, seen_move e hw.seen⟩

theorem initial_kept (clock : Timestamp) : (World.initial clock).Kept :=
  ⟨initial_claimed clock, initial_seen clock⟩

theorem along_candid {clock : Timestamp} {ls : PaySchedule} (h : AlongOneWay env clock ls) :
    (paySystem env).Along payDiscipline.allowed (start clock) ls :=
  System.along_mono (fun _ _ _ _ (required : oneWayConditions.op _ _ _ _) => required.1)
    (fun _ _ _ => trivial) (fun _ _ _ => trivial) h

theorem kept_runFrom {clock : Timestamp} {ls : PaySchedule} (h : AlongOneWay env clock ls) :
    ((paySystem env).runFrom (start clock) ls).world.Kept :=
  (kept_invariant env).holds (requests_obey env) (Discipline.sound_empty (initial_sane clock))
    (initial_kept clock) (along_candid h) h

/-- One label takes the rows forward. -/
theorem forward_next {p : Pool PayOp PayOp.Reply World (Option Response)}
    {l : Label Answer Surroundings PayCall} (hw : p.world.Kept)
    (required : System.Meets oneWayConditions p l)
    (expected : System.Meets { op := fun _ => PayOp.Expected } p l) :
    p.world.Forward ((paySystem env).next p l).world := by
  cases l with
  | spawn c => exact .of_subset fun _ hr => hr
  | env e =>
    refine .of_subset fun r hr => ?_
    have same : ((paySystem env).next p (.env e)).world.pending = p.world.pending :=
      move_pending e p.world
    rwa [same] at hr
  | step i x =>
    simp only [System.next]
    split
    · rename_i o k hi
      obtain ⟨-, sole, fresh⟩ := required o k hi
      exact forward_exec hw.claimed hw.seen sole fresh (expected o k hi)
    · exact .of_subset fun _ hr => hr

/-- Pending payments move one way in every run that meets the conditions. -/
theorem pending_payments_one_way (env : Env) (clock : Timestamp) (ls : PaySchedule)
    (h : AlongOneWay env clock ls) : OneWay env clock ls := by
  constructor
  · rintro pre l post rfl
    have expected := along_expected (along_candid h)
    obtain ⟨before, here⟩ := System.along_append.1 h
    obtain ⟨-, due⟩ := System.along_append.1 expected
    rw [System.runFrom_append]
    exact forward_next (kept_runFrom before) here.1 due.1
  · rintro pre post rfl r hr accepted
    have kept := kept_runFrom (System.along_append.1 h).1
    exact kept.claimed.not_prepared hr accepted

/-! A payment without a link: prepared, submitted to one bundler, mined and reconciled. -/

/-- One bundler and one indexer. -/
def plainEnv : Env where
  bundlerUrls := 1
  bundlerSelfFallback := false
  indexerUrls := 1
  cutoverMode := .legacy

def directPayment : PrepareRequest where
  uid := 1
  chainKey := "arbitrum-sepolia"
  linkId := none
  paymentAttemptId := none
  senderAddress := 5
  amount := "10"
  currency := "USDC"
  opId := none
  submissionTransport := .bundler

def signed (h : Hash) : SubmitRequest where
  uid := 1
  userOpHash := h
  complete := true
  hasCredential := false

/-- The handler takes its steps, and nothing fails. -/
def steps (i n : Nat) : PaySchedule := List.replicate n (.step i {})

def preparing (i : Nat) (r : PrepareRequest) (h : Hash) : PaySchedule :=
  ([.spawn (.prepare r), .step i { hash := some h }] : PaySchedule) ++ steps i 3

def submittedDirectly : PaySchedule :=
  preparing 0 directPayment 7 ++ ([.spawn (.submit (signed 7))] : PaySchedule) ++ steps 1 10 ++
    ([.step 1 { hash := some 7, accepted := true }] : PaySchedule) ++ steps 1 2

/-- The operation is mined, and the journal has its receipt. -/
def landed (h : Hash) : PaySchedule :=
  [.env (.mine h true), .env (.journal h (some ⟨h + 100, true⟩))]

def settledDirectly : PaySchedule :=
  submittedDirectly ++ landed 7 ++ ([.spawn .reconcile] : PaySchedule) ++ steps 2 18

theorem pending_payments_one_way_settled :
    OneWay plainEnv 0 settledDirectly ∧
      ∃ r ∈ ((paySystem plainEnv).runFrom (start 0) settledDirectly).world.pending,
        r.status = .confirmed :=
  ⟨pending_payments_one_way plainEnv 0 settledDirectly (by decide +kernel), by decide +kernel⟩

/-- A pass has asked a bundler for the transaction; another one settles the payment before
the answer arrives, and the first one writes that it is submitted. -/
def confirmationOverwritten : PaySchedule :=
  submittedDirectly ++ ([.spawn .reconcile] : PaySchedule) ++ steps 2 9 ++ landed 7 ++
    ([.spawn .reconcile] : PaySchedule) ++ steps 3 18 ++
    ([.step 2 { receipt := some ⟨107, 3, true⟩ }] : PaySchedule)

/-- The operation is prepared once more while a bundler has it. -/
def preparedAgain : PaySchedule :=
  submittedDirectly ++
    ([.spawn (.prepare directPayment), .step 2 { hash := some 7 }] : PaySchedule) ++ steps 2 2

theorem pending_payments_one_way_fails :
    ¬ OneWay plainEnv 0 (confirmationOverwritten ++ [.step 2 {}]) ∧
      ¬ OneWay plainEnv 0 (preparedAgain ++ [.step 2 {}]) := by
  constructor
  · intro claim
    have forward := claim.forward confirmationOverwritten _ [] rfl
    revert forward
    decide +kernel
  · intro claim
    have forward := claim.forward preparedAgain _ [] rfl
    revert forward
    decide +kernel

end ParmeliaLinks.Pay
