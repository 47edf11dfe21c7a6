/-
ParmeliaLinks/Payments/GateTraffic.lean

What closed gates keep out.  A call that is not counted leaves the world as it is, but for
the clock (`serve_of_quiet`); one that is counted raises the sum of the counts, which no
call takes down again (`requests_lt_serve`).  So the database is what it was after a
sequence of calls exactly if none of them was counted.
-/
import Mathlib.Algebra.Order.BigOperators.Group.List
import ParmeliaLinks.Payments.WriteGate

namespace ParmeliaLinks.Payments.Gate

open Checkout (Quoted Libraries Authorization)

/-! ### Operations -/

section Operations

variable {lib : Libraries} {x : Outside} {w w' : World} {α β : Type}

/-- All requests that were ever counted. -/
def World.requests (w : World) : Nat := (w.tables.rateLimits.rows.map (·.count)).sum

/-- Counts go up, and the control row stays. -/
structure Grows (w w' : World) : Prop where
  requests : w.requests ≤ w'.requests
  control : w'.tables.control = w.tables.control

theorem Grows.rfl (w : World) : Grows w w := ⟨Nat.le_refl _, by rfl⟩

theorem Grows.trans {w'' : World} (h : Grows w w') (h' : Grows w' w'') : Grows w w'' :=
  ⟨Nat.le_trans h.requests h'.requests, h'.control.trans h.control⟩

theorem Grows.of_tables (h : w'.tables = w.tables) : Grows w w' := by
  refine ⟨?_, by rw [h]⟩
  rw [World.requests, World.requests, h]

/-- A statement that a route may use while the gates are closed. -/
def Plain : Op → Prop
  | .inr (.statement _) => False
  | _ => True

/-- The row of a limit is there when its count is raised. -/
theorem exists_row (w : World) (scope : String) (keyHash : Hash) (windowStart : Nat)
    (timestamp : Timestamp) :
    ∃ r ∈ w.tables.rateLimits.insertOrIgnore ⟨scope, keyHash, windowStart, 0, timestamp⟩,
      (r.scope == scope && r.keyHash == keyHash && r.windowStart == windowStart) = true := by
  by_cases fits : w.tables.rateLimits.Fits ⟨scope, keyHash, windowStart, 0, timestamp⟩
  · refine ⟨_, (Table.mem_of_rows_append (Table.insertOrIgnore_rows_of_fits fits)).2 (.inr rfl), ?_⟩
    simp
  · rw [Table.insertOrIgnore_of_not_fits fits]
    unfold Table.Fits at fits
    push Not at fits
    obtain ⟨r, hr, mine⟩ := fits
    exact ⟨r, hr, by simpa [Row.clash, and_assoc] using mine⟩

theorem requests_lt_incrementRateLimit (scope : String) (keyHash : Hash) (windowStart : Nat)
    (timestamp : Timestamp) :
    w.requests < (w.incrementRateLimit scope keyHash windowStart timestamp).2.requests := by
  have fresh : w.requests ≤ ((w.tables.rateLimits.insertOrIgnore
      ⟨scope, keyHash, windowStart, 0, timestamp⟩).rows.map (·.count)).sum := by
    by_cases fits : w.tables.rateLimits.Fits ⟨scope, keyHash, windowStart, 0, timestamp⟩
    · rw [Table.insertOrIgnore_rows_of_fits fits, List.map_append, List.sum_append]
      exact Nat.le_add_right _ _
    · rw [Table.insertOrIgnore_of_not_fits fits]
      exact Nat.le_refl _
  refine Nat.lt_of_le_of_lt fresh ?_
  show _ < (List.map RateLimit.count (List.map _ _)).sum
  rw [List.map_map]
  refine List.sum_lt_sum _ _ (fun r _ => ?_) ?_
  · show r.count ≤ RateLimit.count (if _ then _ else r)
    split
    · exact Nat.le_succ _
    · exact Nat.le_refl _
  · obtain ⟨r, hr, mine⟩ := exists_row w scope keyHash windowStart timestamp
    refine ⟨r, hr, ?_⟩
    show r.count < RateLimit.count (if _ then _ else r)
    rw [if_pos mine]
    exact Nat.lt_succ_self _

theorem exec_grows (o : Op) (plain : Plain o) (w : World) : Grows w (exec lib x o w).2 := by
  cases o with
  | inl o => exact .of_tables rfl
  | inr o =>
    cases o with
    | incrementRateLimit scope keyHash windowStart timestamp =>
      exact ⟨Nat.le_of_lt (requests_lt_incrementRateLimit ..), rfl⟩
    | touchApiKey id timestamp => exact ⟨Nat.le_refl _, rfl⟩
    | statement f => exact plain.elim
    | ping | migrationControl | selectApiKey | selectMerchant | selectIntentByLink | list
    | verifyFirebaseToken | checks | buildQuote | authorizeAttempt => exact .of_tables rfl

theorem alone_grows {p : Handler α} (plain : p.Uses Plain) (w : World) :
    Grows w (p.alone (exec lib x) w).2 := by
  induction p generalizing w with
  | ret a => exact .rfl w
  | throw m => exact .rfl w
  | act o k ih => exact (exec_grows o plain.1 w).trans (ih _ (plain.2 _) _)

/-- An operation that changes nothing. -/
def Reads (o : Op) : Prop := ∀ (lib : Libraries) (x : Outside) (w : World), (exec lib x o w).2 = w

theorem alone_of_reads {p : Handler α} (reads : p.Uses Reads) (w : World) :
    (p.alone (exec lib x) w).2 = w := by
  induction p generalizing w with
  | ret a => rfl
  | throw m => rfl
  | act o k ih =>
    show ((k _).alone (exec lib x) (exec lib x o w).2).2 = w
    rw [ih _ (reads.2 _), reads.1 lib x w]

end Operations

/-! ### Routes -/

section Routes

variable {env : Bindings} {x : Outside} {w : World} {r : Request}

theorem uses_repository {α : Type} (p : Repository α) : (repository p).Uses Plain :=
  Prog.uses_inl (Prog.uses_of_forall (fun _ => trivial) p)

theorem uses_issue (o : GateOp) (plain : Plain (.inr o)) : (issue o).Uses Plain :=
  (Prog.uses_perform _ _).2 plain

/-! What the routes use. -/

theorem uses_showing (user : Text) (listing : Listing) : (showing user listing).Uses Plain :=
  Prog.uses_bind (uses_issue _ trivial) fun _ => Prog.uses_bind (uses_issue _ trivial) fun _ =>
    trivial

theorem uses_merchantIntent (user id : Text) : (merchantIntent env user id).Uses Plain := by
  refine Prog.uses_bind (uses_issue _ trivial) fun merchant => ?_
  refine Prog.uses_bind (uses_repository _) fun intent => ?_
  split
  · split
    · trivial
    · exact Prog.uses_bind (uses_issue _ trivial) fun _ => trivial
  · trivial

theorem uses_merchantRead (user : Text) (path : List Text) :
    (merchantRead env user path).Uses Plain := by
  unfold merchantRead
  split
  · exact Prog.uses_bind (uses_issue _ trivial) fun _ => trivial
  · split
    · exact Prog.uses_bind (uses_issue _ trivial) fun _ => trivial
    · repeat (split; exact uses_showing user _)
      trivial
  · split
    · exact uses_merchantIntent user _
    · trivial
  · trivial

theorem uses_onchain (key : ApiKey) (id : Text) : (onchain env r key id).Uses Plain := by
  refine Prog.uses_bind (uses_repository _) fun intent => ?_
  split
  · split
    · trivial
    split
    · trivial
    split
    · trivial
    refine Prog.uses_bind (uses_repository _) fun replay => ?_
    split
    · trivial
    refine Prog.uses_bind (uses_issue _ trivial) fun quote => ?_
    split
    · refine Prog.uses_bind (uses_repository _) fun _ => ?_
      refine Prog.uses_bind (uses_issue _ trivial) fun attempt => ?_
      split
      · exact Prog.uses_bind (uses_repository _) fun _ => trivial
      · trivial
    · trivial
  · trivial

theorem uses_list (listing : Listing) (status : Nat) :
    Prog.Uses Plain (do issue (.list listing); return .http status : Handler Outcome) :=
  Prog.uses_bind (uses_issue _ trivial) fun _ => trivial

theorem uses_v1Read (key : ApiKey) (path : List Text) : (v1Read env r key path).Uses Plain := by
  unfold v1Read
  split
  · exact uses_list _ _
  split
  · exact uses_list _ _
  split
  · split
    · refine Prog.uses_bind (uses_repository _) fun intent => ?_
      split
      · split
        · trivial
        · exact uses_list _ _
      · trivial
    · split
      · exact uses_list _ _
      · trivial
  · split
    · exact uses_onchain key _
    · trivial
  · trivial

theorem uses_limited {scope : String} {key : Text} {limit : Nat} {next : Handler Outcome}
    (plain : next.Uses Plain) : (limited env scope key limit next).Uses Plain := by
  refine Prog.uses_bind (Prog.uses_bind (uses_repository _) fun now => ?_) fun over_ => ?_
  · exact Prog.uses_bind (uses_issue _ trivial) fun _ => trivial
  · split
    · trivial
    · exact plain

theorem uses_listLinks (user : Text) : (listLinks env user).Uses Plain :=
  uses_limited (uses_list _ _)

theorem uses_readLink (id : Text) : (readLink env r id).Uses Plain := by
  refine uses_limited (Prog.uses_bind (uses_repository _) fun link => ?_)
  split <;> trivial

theorem uses_readCheckout (linkId : Text) : (readCheckout env r linkId).Uses Plain := by
  refine uses_limited (Prog.uses_bind (uses_repository _) fun link => ?_)
  split
  · refine Prog.uses_bind (uses_repository _) fun _ => ?_
    refine Prog.uses_bind (uses_issue _ trivial) fun intent => ?_
    split <;> trivial
  · trivial

theorem uses_ofLink (linkId : Option Text) (attempt : PaymentAttempt) :
    (ofLink env linkId attempt).Uses Plain := by
  cases linkId with
  | none => trivial
  | some linkId => exact Prog.uses_bind (uses_issue _ trivial) fun _ => trivial

theorem uses_readAttempt (attemptId : Text) (linkId : Option Text) :
    (readAttempt env r attemptId linkId).Uses Plain := by
  refine uses_limited ?_
  split
  · trivial
  refine Prog.uses_bind (uses_repository _) fun attempt => ?_
  split
  · refine Prog.uses_bind (uses_ofLink linkId _) fun mine => ?_
    split
    · exact Prog.uses_bind (uses_repository _) fun _ => trivial
    · trivial
  · trivial

theorem uses_paymentsDataCutoverState (config : GateConfig) :
    (paymentsDataCutoverState config paymentMigrationControl).Uses Plain := by
  unfold paymentsDataCutoverState
  dsimp only
  split
  · trivial
  · refine Prog.uses_bind (uses_issue _ trivial) fun row => ?_
    split <;> trivial

theorem uses_health : (health env).Uses Plain := by
  refine Prog.uses_bind (uses_issue _ trivial) fun _ => ?_
  refine Prog.uses_bind (uses_paymentsDataCutoverState _) fun _ => ?_
  exact Prog.uses_bind (uses_issue _ trivial) fun _ => trivial

theorem uses_opsHealth : (opsHealth env r).Uses Plain := by
  unfold opsHealth
  split
  · refine Prog.uses_bind (uses_issue _ trivial) fun _ => ?_
    refine Prog.uses_bind (uses_issue _ trivial) fun _ => ?_
    exact Prog.uses_bind (uses_paymentsDataCutoverState _) fun _ => trivial
  · trivial

theorem uses_requireAuth {user : Option Text} {next : Text → Handler Outcome}
    (plain : ∀ user, (next user).Uses Plain) : (requireAuth user next).Uses Plain := by
  cases user with
  | none => trivial
  | some user => exact plain user

theorem uses_openRead (user : Option Text) (path : List Text) :
    (openRead env r user path).Uses Plain := by
  unfold openRead
  split
  · split
    · trivial
    split
    · exact uses_health
    split
    · exact uses_requireAuth uses_listLinks
    · trivial
  · split
    · trivial
    split
    · exact uses_opsHealth
    split
    · exact uses_readLink _
    split
    · exact uses_readCheckout _
    · trivial
  · split
    · exact uses_readAttempt _ _
    · trivial
  · split
    · exact uses_readAttempt _ _
    · trivial
  · trivial

theorem uses_v1 (path : List Text) : (v1 env r path).Uses Plain := by
  unfold v1 requireApiKey
  split
  · trivial
  rename_i raw
  refine Prog.uses_bind ?_ fun key => ?_
  · unfold authenticateApiKey
    split
    · refine Prog.uses_bind (uses_issue _ trivial) fun row => ?_
      split
      · trivial
      · exact Prog.uses_bind (uses_repository _) fun _ =>
          Prog.uses_bind (uses_issue _ trivial) fun _ => trivial
    · trivial
  · split
    · trivial
    · refine uses_limited ?_
      split
      · exact uses_v1Read _ path
      · trivial

theorem uses_merchantRoutes (user : Option Text) (path : List Text) :
    (merchantRoutes env r user path).Uses Plain := by
  refine uses_requireAuth fun user => uses_limited ?_
  split
  · exact uses_merchantRead user path
  · trivial

theorem uses_route (user : Option Text) : (route env r user).Uses Plain := by
  unfold route
  split
  · split
    · exact uses_v1 _
    split
    · exact uses_merchantRoutes user _
    split
    · exact uses_openRead user _
    · trivial
  · trivial

/-! What is counted. -/

/-- A counted request leaves a higher count. -/
theorem requests_lt_limited {scope : String} {key : Text} {limit : Nat} {next : Handler Outcome}
    (plain : (limited env scope key limit next).Uses Plain) :
    w.requests < ((limited env scope key limit next).alone (exec env.lib x) w).2.requests :=
  Nat.lt_of_lt_of_le (requests_lt_incrementRateLimit ..)
    (alone_grows ((plain.2 _).2 _) _).requests

theorem not_page {page name : Text} {P : Prop} (other : page ≠ name) : ¬ (page = name ∧ P) :=
  fun both => other both.1

theorem requests_lt_openRead {user : Option Text} (path : List Text)
    (hu : user = (sessionToken r).bind x.user) (h : countedPage x r path = true) :
    w.requests < ((openRead env r user path).alone (exec env.lib x) w).2.requests := by
  unfold countedPage at h
  unfold openRead
  split at h
  · simp only [Bool.and_eq_true, beq_iff_eq] at h
    obtain ⟨rfl, session⟩ := h
    obtain ⟨subject, found⟩ := Option.isSome_iff_exists.1 session
    rw [hu, found, if_neg (by decide), if_neg (by decide), if_pos rfl]
    exact requests_lt_limited (uses_listLinks subject)
  · simp only [Bool.and_eq_true, Bool.or_eq_true, beq_iff_eq, bne_iff_ne] at h
    obtain ⟨rfl | rfl, named⟩ := h
    · rw [if_neg (not_page (by decide)), if_neg (not_page (by decide)), if_pos ⟨rfl, named⟩]
      exact requests_lt_limited (uses_readLink _)
    · rw [if_neg (not_page (by decide)), if_neg (not_page (by decide)),
        if_neg (not_page (by decide)), if_pos ⟨rfl, named⟩]
      exact requests_lt_limited (uses_readCheckout _)
  · simp only [Bool.and_eq_true, beq_iff_eq, bne_iff_ne, and_assoc] at h
    rw [if_pos h]
    exact requests_lt_limited (uses_readAttempt _ _)
  · simp only [Bool.and_eq_true, beq_iff_eq, bne_iff_ne, and_assoc] at h
    rw [if_pos h]
    exact requests_lt_limited (uses_readAttempt _ _)
  · cases h

/-- The key is looked up, and marked as used. -/
theorem requests_lt_requireApiKey {next : ApiKey → Handler Outcome} (h : hasKey env w r = true)
    (counts : ∀ key w, w.requests < ((next key).alone (exec env.lib x) w).2.requests) :
    w.requests < ((requireApiKey env r next).alone (exec env.lib x) w).2.requests := by
  unfold hasKey at h
  unfold requireApiKey
  cases shown : shownKey r with
  | none =>
    rw [shown] at h
    cases h
  | some raw =>
    rw [shown, Option.any_some, Bool.and_eq_true] at h
    obtain ⟨isKey, known⟩ := h
    obtain ⟨row, found⟩ := Option.isSome_iff_exists.1 known
    have authenticated : (authenticateApiKey env raw).alone (exec env.lib x) w =
        (.ok (some row), w.touchApiKey row.id w.payments.clock) := by
      unfold authenticateApiKey
      rw [if_pos isKey]
      have looked : (issue (.selectApiKey (env.lib.sha256 raw))).alone (exec env.lib x) w =
          (.ok (some row), w) := by
        show (Except.ok (w.selectApiKey (env.lib.sha256 raw)), w) = _
        rw [found]
      rw [Prog.bind_eq, Prog.alone_bind looked]
      rfl
    show (w.touchApiKey row.id w.payments.clock).requests <
      (((authenticateApiKey env raw).bind _).alone _ w).2.requests
    rw [Prog.alone_bind authenticated]
    exact counts row _

/-- A request that the router counts raises the counts. -/
theorem requests_lt_route (h : countedRoute env w x r = true) :
    w.requests < ((route env r ((sessionToken r).bind x.user)).alone (exec env.lib x) w).2.requests := by
  unfold countedRoute at h
  unfold route
  split at h
  · split at h
    · rename_i page path _ v1
      rw [if_pos v1]
      refine requests_lt_requireApiKey h fun key w => requests_lt_limited (uses_limited ?_)
      split
      · exact uses_v1Read key path
      · trivial
    · rename_i page path _ other
      rw [if_neg other]
      split at h
      · rename_i merchant
        obtain ⟨subject, found⟩ := Option.isSome_iff_exists.1 h
        rw [if_pos merchant, found]
        refine requests_lt_limited (uses_limited ?_)
        split
        · exact uses_merchantRead subject path
        · trivial
      · rename_i open_
        simp only [Bool.and_eq_true] at h
        rw [if_neg open_, if_pos h.1]
        exact requests_lt_openRead _ rfl h.2
  · cases h

/-! What leaves no trace. -/

theorem reads_issue {o : GateOp} (h : Reads (.inr o)) : (issue o).Uses Reads :=
  (Prog.uses_perform _ _).2 h

theorem reads_control : paymentMigrationControl.Uses Reads := reads_issue fun _ _ _ => rfl

theorem reads_paymentsDataCutoverState (config : GateConfig) :
    (paymentsDataCutoverState config paymentMigrationControl).Uses Reads := by
  unfold paymentsDataCutoverState
  dsimp only
  split
  · trivial
  · refine Prog.uses_bind reads_control fun row => ?_
    split <;> trivial

theorem reads_health : (health env).Uses Reads := by
  refine Prog.uses_bind (reads_issue fun _ _ _ => rfl) fun _ => ?_
  refine Prog.uses_bind (reads_paymentsDataCutoverState _) fun _ => ?_
  exact Prog.uses_bind (reads_issue fun _ _ _ => rfl) fun _ => trivial

theorem reads_opsHealth : (opsHealth env r).Uses Reads := by
  unfold opsHealth
  split
  · refine Prog.uses_bind (reads_issue fun _ _ _ => rfl) fun _ => ?_
    refine Prog.uses_bind (reads_issue fun _ _ _ => rfl) fun _ => ?_
    exact Prog.uses_bind (reads_paymentsDataCutoverState _) fun _ => trivial
  · trivial

theorem openRead_of_not_counted {user : Option Text} (path : List Text)
    (hu : user = (sessionToken r).bind x.user) (h : countedPage x r path = false) :
    ((openRead env r user path).alone (exec env.lib x) w).2 = w := by
  unfold countedPage at h
  unfold openRead
  split at h
  · split
    · rfl
    split
    · exact alone_of_reads reads_health w
    split
    · rename_i links
      rw [links, beq_self_eq_true, Bool.true_and] at h
      have none : user = none := by
        rw [hu]
        exact Option.isSome_eq_false_iff.1 h |> Option.isNone_iff_eq_none.1
      rw [none]
      rfl
    · rfl
  · split
    · rfl
    split
    · exact alone_of_reads reads_opsHealth w
    split
    · rename_i page
      simp [page.1, page.2] at h
    split
    · rename_i page
      simp [page.1, page.2] at h
    · rfl
  · split
    · rename_i page
      simp [page] at h
    · rfl
  · split
    · rename_i page
      simp [page] at h
    · rfl
  · rfl

theorem requireApiKey_of_no_key {next : ApiKey → Handler Outcome} (h : hasKey env w r = false) :
    ((requireApiKey env r next).alone (exec env.lib x) w).2 = w := by
  unfold hasKey at h
  unfold requireApiKey
  cases shown : shownKey r with
  | none => rfl
  | some raw =>
    rw [shown, Option.any_some] at h
    have refused : (authenticateApiKey env raw).alone (exec env.lib x) w = (.ok none, w) := by
      unfold authenticateApiKey
      split
      · rename_i isKey
        rw [isKey, Bool.true_and, Option.isSome_eq_false_iff, Option.isNone_iff_eq_none] at h
        have looked : (issue (.selectApiKey (env.lib.sha256 raw))).alone (exec env.lib x) w =
            (.ok none, w) := by
          show (Except.ok (w.selectApiKey (env.lib.sha256 raw)), w) = _
          rw [h]
        rw [Prog.bind_eq, Prog.alone_bind looked]
        rfl
      · rfl
    show (((authenticateApiKey env raw).bind _).alone _ w).2 = w
    rw [Prog.alone_bind refused]
    rfl

theorem route_of_not_counted (h : countedRoute env w x r = false) :
    ((route env r ((sessionToken r).bind x.user)).alone (exec env.lib x) w).2 = w := by
  unfold countedRoute at h
  unfold route
  split at h
  · split at h
    · rename_i v1
      rw [if_pos v1]
      exact requireApiKey_of_no_key h
    · rename_i other
      rw [if_neg other]
      split at h
      · rename_i merchant
        rw [hasSession, Option.isSome_eq_false_iff, Option.isNone_iff_eq_none] at h
        rw [if_pos merchant, h]
        rfl
      · rename_i open_
        rw [if_neg open_]
        split
        · rename_i reads
          rw [reads, Bool.true_and] at h
          exact openRead_of_not_counted _ rfl h
        · rfl
  · rfl

end Routes

/-! ### Calls -/

section Calls

variable {env : Bindings} {Command Message : Type} {opened : Opened Command Message}
  {x : Outside} {w w' : World} {r : Request}

theorem authenticate_alone :
    (authenticate r).alone (exec env.lib x) w = (.ok ((sessionToken r).bind x.user), w) := by
  unfold authenticate
  cases sessionToken r <;> rfl

/-- What is behind closed gates is not reached. -/
theorem gate_alone (closed : Closed env w) (behind otherwise : Handler Outcome) :
    ((paymentsWriteAvailability env.config paymentMigrationControl).bind fun availability =>
      if availability.available then behind else otherwise).alone (exec env.lib x) w =
        otherwise.alone (exec env.lib x) w := by
  have read : paymentMigrationControl.alone (exec env.lib x) w =
      (.ok (some w.tables.control), w) := rfl
  have gate : (paymentsWriteAvailability env.config paymentMigrationControl).Ends
      (exec env.lib x) w fun availability w' =>
        availability.available = writesAvailable env.config w.tables.control ∧ w' = w :=
    ends_paymentsWriteAvailability read
  obtain ⟨availability, w', run, same, rfl⟩ := gate
  rw [Prog.alone_bind run, same, closed]
  rfl

theorem fetch_alone (closed : Closed env w) :
    (fetch env opened r).alone (exec env.lib x) w =
      if r.method = "OPTIONS".toList then (.ok (.http 204), w)
      else if r.body.any (maxBody < ·) then (.ok (.http 413), w)
      else if mutating r.method then (.ok (.http 503), w)
      else (route env r ((sessionToken r).bind x.user)).alone (exec env.lib x) w := by
  unfold fetch
  split
  · rfl
  split
  · rfl
  split
  · exact gate_alone closed _ _
  · exact Prog.alone_bind authenticate_alone

/-- The world at the time of a call. -/
def World.at_ (w : World) (now : Timestamp) : World :=
  { w with payments := { w.payments with clock := now } }

/-- A call that is not counted leaves the world as it is. -/
theorem serve_of_quiet (closed : Closed env w) {call : Entry Command Message × Outside}
    (quiet : Quiet env w call) : serve env opened w call = w.at_ call.2.now := by
  have shut : Closed env (w.at_ call.2.now) := closed
  obtain ⟨entry, x⟩ := call
  cases entry with
  | fetch r =>
    show ((fetch env opened r).alone (exec env.lib x) (w.at_ x.now)).2 = w.at_ x.now
    have quiet : counted env (w.at_ x.now) x r = false := quiet
    rw [fetch_alone shut]
    unfold counted at quiet
    split
    · rfl
    split
    · rfl
    split
    · rfl
    · rename_i options body mutating
      rw [beq_eq_false_iff_ne.2 options, Bool.eq_false_iff.2 body,
        Bool.eq_false_iff.2 mutating] at quiet
      exact route_of_not_counted quiet
  | contractVersion => rfl
  | command c => exact congrArg Prod.snd (gate_alone shut (opened.command c) _)
  | queue batch => exact congrArg Prod.snd (gate_alone shut (opened.queue batch) _)
  | scheduled => exact congrArg Prod.snd (gate_alone shut opened.scheduled _)

/-- A call that is counted raises the counts. -/
theorem requests_lt_serve (closed : Closed env w) {call : Entry Command Message × Outside}
    (loud : ¬ Quiet env w call) : w.requests < (serve env opened w call).requests := by
  have shut : Closed env (w.at_ call.2.now) := closed
  obtain ⟨entry, x⟩ := call
  cases entry with
  | fetch r =>
    show (w.at_ x.now).requests <
      ((fetch env opened r).alone (exec env.lib x) (w.at_ x.now)).2.requests
    have loud : counted env (w.at_ x.now) x r = true := by
      rw [← Bool.not_eq_false]
      exact loud
    simp only [counted, Bool.and_eq_true, Bool.not_eq_true', Bool.or_eq_false_iff,
      beq_eq_false_iff_ne] at loud
    obtain ⟨⟨⟨options, body⟩, reads⟩, route⟩ := loud
    rw [fetch_alone shut, if_neg options, if_neg (by rw [body]; exact Bool.false_ne_true),
      if_neg (by rw [reads]; exact Bool.false_ne_true)]
    exact requests_lt_route route
  | contractVersion => exact absurd trivial loud
  | command c => exact absurd trivial loud
  | queue batch => exact absurd trivial loud
  | scheduled => exact absurd trivial loud

theorem serve_grows (opened : Opened Command Message) (closed : Closed env w)
    (call : Entry Command Message × Outside) :
    Grows w (serve env opened w call) := by
  by_cases quiet : Quiet env w call
  · rw [serve_of_quiet closed quiet]
    exact .of_tables rfl
  · have shut : Closed env (w.at_ call.2.now) := closed
    obtain ⟨entry, x⟩ := call
    cases entry with
    | fetch r =>
      have begin : Grows w (w.at_ x.now) := .of_tables rfl
      refine begin.trans ?_
      show Grows (w.at_ x.now) ((fetch env opened r).alone (exec env.lib x) (w.at_ x.now)).2
      rw [fetch_alone shut]
      split
      · exact .rfl _
      split
      · exact .rfl _
      split
      · exact .rfl _
      · exact alone_grows (uses_route _) _
    | contractVersion => exact absurd trivial quiet
    | command c => exact absurd trivial quiet
    | queue batch => exact absurd trivial quiet
    | scheduled => exact absurd trivial quiet

theorem serveAll_grows (closed : Closed env w) (calls : List (Entry Command Message × Outside)) :
    Grows w (serveAll env opened w calls) := by
  induction calls generalizing w with
  | nil => exact .rfl w
  | cons call calls ih =>
    have first := serve_grows opened closed call
    refine first.trans (ih ?_)
    rw [Closed, first.control]
    exact closed

/-- Either nothing was counted and the world is as it was, or the counts are higher. -/
theorem serveAll_cases (opened : Opened Command Message) (closed : Closed env w)
    (calls : List (Entry Command Message × Outside)) :
    ((∀ call ∈ calls, Quiet env w call) ∧
        ∃ now, serveAll env opened w calls = w.at_ now) ∨
      ((¬ ∀ call ∈ calls, Quiet env w call) ∧
        w.requests < (serveAll env opened w calls).requests) := by
  induction calls generalizing w with
  | nil => exact .inl ⟨fun _ h => absurd h List.not_mem_nil, w.payments.clock, rfl⟩
  | cons call calls ih =>
    have rest : serveAll env opened w (call :: calls) =
      serveAll env opened (serve env opened w call) calls := rfl
    rw [rest, List.forall_mem_cons]
    by_cases quiet : Quiet env w call
    · rw [serve_of_quiet closed quiet]
      have same : (∀ call' ∈ calls, Quiet env (w.at_ call.2.now) call') ↔
          ∀ call' ∈ calls, Quiet env w call' := Iff.rfl
      rcases ih (w := w.at_ call.2.now) closed with ⟨all, now, ends⟩ | ⟨some_, more⟩
      · refine .inl ⟨⟨quiet, same.1 all⟩, now, ?_⟩
        rw [ends]
        rfl
      · exact .inr ⟨fun all => some_ (same.2 all.2), more⟩
    · refine .inr ⟨fun all => quiet all.1, ?_⟩
      have first := serve_grows opened closed call
      have shut : Closed env (serve env opened w call) := by
        rw [Closed, first.control]
        exact closed
      exact Nat.lt_of_lt_of_le (requests_lt_serve closed quiet) (serveAll_grows shut calls).requests

/-- Behind closed gates the database is untouched, and nothing signed, exactly when no call of
the sequence is counted. -/
theorem write_gate (opened : Opened Command Message) (closed : Closed env w)
    (calls : List (Entry Command Message × Outside)) :
    Untouched w (serveAll env opened w calls) ↔ ∀ call ∈ calls, Quiet env w call := by
  rcases serveAll_cases opened closed calls with ⟨all, now, ends⟩ | ⟨some_, more⟩
  · rw [ends]
    exact ⟨fun _ => all, fun _ => ⟨rfl, rfl, id⟩⟩
  · refine ⟨fun untouched => ?_, fun all => absurd all some_⟩
    have same : (serveAll env opened w calls).tables = w.tables :=
      congrArg Prod.snd untouched.contents
    rw [World.requests, World.requests, same] at more
    exact absurd more (Nat.lt_irrefl _)

end Calls

/-! Traffic on a database that waits for the import, and on one with a merchant. -/

instance (env : Bindings) (w : World) : Decidable (Closed env w) :=
  inferInstanceAs (Decidable (_ = false))

instance {Command Message : Type} (env : Bindings) (w : World) :
    (call : Entry Command Message × Outside) → Decidable (Quiet env w call)
  | (.fetch r, x) => inferInstanceAs (Decidable (counted env w x r = false))
  | (.contractVersion, _) => .isTrue trivial
  | (.command _, _) => .isTrue trivial
  | (.queue _, _) => .isTrue trivial
  | (.scheduled, _) => .isTrue trivial

def bootstrapping : Bindings where
  config := { bootstrapMode := some ['t', 'r', 'u', 'e'], dataCutoverChecksum := none }
  opsHealthToken := none
  lib := { spelling := ⟨fun _ => [], fun _ => [], decimal, fun _ => [], fun _ => []⟩
           sha256 := List.foldl (fun h c => h * 1114112 + c.toNat + 1) 0
           hashMessage := List.length
           recoverMessageAddress := fun _ _ => none
           uuidHash := id }
  names := { id := decimalValue, walletAddress := fun t => some (decimalValue t)
             number := fun t => some (decimalValue t) }

/-- The migrations have run. -/
def prepared : World where
  payments := .initial 0
  tables := { apiKeys := .empty, rateLimits := .empty, merchants := .empty
              control := some ⟨0, none, none, none⟩, others := 0 }
  signed := []

def shut : Opened Unit Unit where
  fetch _ := return .done
  command _ := return .done
  queue _ := return .done
  scheduled := return .done

def noon : Outside where
  now := 43200000
  user _ := none
  quote intent payer sourceChainId := some
    { id := 10, intentId := intent.id, quoteHash := 10, payer, sourceChainId, route := .sameChain
      settlementAmountAtomic := 0, platformFeeAtomic := 0, cctpFeeAtomic := 0
      grossPayerAmountAtomic := 0, feePolicyId := "free-default", feePolicyVersion := 1
      feeRuleId := "free-default", platformFeeBps := 0, platformFeeBearer := .none
      platformFeeRecipient := none, routeFeeCapBps := 100, feeObservedAt := 43200000
      expiresAt := 43320000 }
  authorization _ := some ⟨6, 7, 8, 9, 0, 100⟩
  checks := true

def apiKeyText : Text := skTest ++ List.replicate 48 '0'

/-- Everything at once, but nothing that is counted. -/
def quietTraffic : List (Entry Unit Unit × Outside) :=
  [.fetch (.plain get ["health".toList]), .fetch (.plain get ["health".toList, "live".toList]),
    .fetch (.plain "POST".toList ["checkout".toList, ['2'], "attempts".toList]),
    .fetch { Request.plain get ["v1".toList, "events".toList] with apiKey := some apiKeyText },
    .contractVersion, .command (), .queue [()], .scheduled].map (·, noon)

set_option maxRecDepth 4000 in
theorem write_gate_quietTraffic :
    Untouched prepared (serveAll bootstrapping shut prepared quietTraffic) :=
  (write_gate shut (by decide) quietTraffic).2 (by decide)

/-- Somebody opens a checkout page. -/
def visit : List (Entry Unit Unit × Outside) :=
  [(.fetch (.plain get ["checkout".toList, ['2']]), noon)]

/-- The database of a merchant with one intent and a key. -/
def withMerchant : World :=
  let input : CreateIntentInput :=
    { merchant := { id := 1, ownerUid := 1, settlementWallet := 3, settlementChainId := 421614
                    accountVersion := 1 }
      amount := .payerChosen, reference := "", metadata := "", expiresAt := 50000000
      idempotencyKey := none, mode := .test, intentId := none, linkId := none }
  { prepared with
    payments := ((RepositoryOp.createIntentAndLink input 4 2 0).exec (.initial 0)).2
    tables := { prepared.tables with
      apiKeys := Table.empty.insertOrIgnore
        ⟨1, 1, .test, bootstrapping.lib.sha256 apiKeyText, none, none⟩ } }

/-- The merchant asks for an authorization by the old route. -/
def oldRoute : List (Entry Unit Unit × Outside) :=
  [(.fetch { Request.plain get ["v1".toList, "payment_intents".toList, ['4'], "onchain".toList] with
      apiKey := some apiKeyText, payer := some ['5'] }, noon)]

set_option maxRecDepth 4000 in
/-- The page view makes the import impossible, and the old route signs. -/
theorem write_gate_fails :
    (Closed bootstrapping prepared ∧
        ¬ Untouched prepared (serveAll bootstrapping shut prepared visit) ∧
        acceptsImport (serveAll bootstrapping shut prepared visit).contents = false) ∧
      Closed bootstrapping withMerchant ∧
        ¬ Untouched withMerchant (serveAll bootstrapping shut withMerchant oldRoute) ∧
        (serveAll bootstrapping shut withMerchant oldRoute).signed.length = 1 := by
  refine ⟨⟨by decide, fun claim => ?_, by decide⟩, by decide, fun claim => ?_, by decide +kernel⟩
  · have accepts := claim.accepts (by decide)
    revert accepts
    decide
  · have signed := congrArg List.length claim.signed
    revert signed
    decide +kernel

end ParmeliaLinks.Payments.Gate
