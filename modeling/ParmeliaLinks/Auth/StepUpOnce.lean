/-
ParmeliaLinks/Auth/StepUpOnce.lean

What holds of e-mail codes, recovery links and step-up sessions in every history.  A code is
compared five times at most, and one request succeeds with it at most (`email_codes_once`).
A session is opened for a code that was guessed or for a link, never for the same one twice,
and it is spent once at most (`step_up_sessions_once`).
-/
import Mathlib.Data.List.Perm.Subperm
import ParmeliaLinks.Auth.StepUpKeeps

namespace ParmeliaLinks.Auth.StepUp

variable {env : Env} {i : Nat} {w w' : World}

/-! ### Handlers -/

abbrev StepUpHandler.wp {α : Type} (p : StepUpHandler α) (env : Env) (i : Nat)
    (Q : Except String α → World → Prop) (w : World) : Prop :=
  (stepUpDiscipline env).wp (stepUpSystem env) i p Q w

abbrev LaterFor (env : Env) (i : Nat) (w w' : World) : Prop :=
  (stepUpDiscipline env).Later i w w'

/-- A handler ends in a sane world, and if it returns, `P` holds. -/
def Returns {α : Type} (env : Env) (P : α → World → Prop) : Except String α → World → Prop
  | .ok a, w => w.Sane env ∧ P a w
  | .error _, w => w.Sane env

section Rules

variable {α β : Type} {Q : Except String α → World → Prop} {P : α → World → Prop}

theorem wp_op {o : StepUpOp} {k : StepUpOp.Reply o → StepUpHandler α}
    (keeps : ∀ x, w.Keeps env i (o.exec env i x w).2)
    (rest : ∀ x w', LaterFor env i (o.exec env i x w).2 w' →
      (k (o.exec env i x w).1).wp env i Q w') :
    StepUpHandler.wp ((perform o).bind k) env i Q w :=
  Discipline.wp_act _ _ (fun x _ => performs_of_keeps (keeps x)) fun x _ => rest x

theorem wp_query {o : StepUpOp} {k : StepUpOp.Reply o → StepUpHandler α} (hw : w.Sane env)
    (same : ∀ x, (o.exec env i x w).2 = w)
    (rest : ∀ x w', LaterFor env i w w' → (k (o.exec env i x w).1).wp env i Q w') :
    StepUpHandler.wp ((perform o).bind k) env i Q w :=
  Discipline.wp_query _ _ hw same (fun _ => trivial) rest

/-- A value that does not depend on the world, or its error. -/
theorem wp_value {v : Except String β} {k : β → StepUpHandler α} (hw : w.Sane env)
    (ok : ∀ b, v = .ok b → (k b).wp env i (Returns env P) w) :
    StepUpHandler.wp ((Prog.ofExcept v).bind k) env i (Returns env P) w := by
  cases v with
  | ok b => exact ok b rfl
  | error m => exact hw

/-- A statement that must not fail, and the rest. -/
theorem wp_require {o : StepUpOp} {f : StepUpOp.Reply o → Except String β}
    {k : β → StepUpHandler α} (keeps : ∀ x, w.Keeps env i (o.exec env i x w).2)
    (ok : ∀ x w' b, LaterFor env i (o.exec env i x w).2 w' → f (o.exec env i x w).1 = .ok b →
      (k b).wp env i (Returns env P) w') :
    StepUpHandler.wp (((perform o).bind fun r => Prog.ofExcept (f r)).bind k) env i
      (Returns env P) w := by
  refine wp_op (k := fun r => (Prog.ofExcept (f r)).bind k) keeps fun x w' later => ?_
  exact wp_value later.inv fun b hb => ok x w' b later hb

/-- A statement that must not fail, at the end. -/
theorem wp_last {o : StepUpOp} {f : StepUpOp.Reply o → Except String α}
    (keeps : ∀ x, w.Keeps env i (o.exec env i x w).2)
    (ok : ∀ x w' a, LaterFor env i (o.exec env i x w).2 w' → f (o.exec env i x w).1 = .ok a →
      P a w') :
    StepUpHandler.wp ((perform o).bind fun r => Prog.ofExcept (f r)) env i (Returns env P) w := by
  refine wp_op (k := fun r => Prog.ofExcept (f r)) keeps fun x w' later => ?_
  refine Discipline.wp_ofExcept _ _ ?_
  cases done : f (o.exec env i x w).1 with
  | ok a => exact ⟨later.inv, ok x w' a later done⟩
  | error m => exact later.inv

/-- A query that must not fail, and the rest. -/
theorem wp_find {o : StepUpOp} {f : StepUpOp.Reply o → Except String β}
    {k : β → StepUpHandler α} (hw : w.Sane env) (same : ∀ x, (o.exec env i x w).2 = w)
    (ok : ∀ x w' b, LaterFor env i w w' → f (o.exec env i x w).1 = .ok b →
      (k b).wp env i (Returns env P) w') :
    StepUpHandler.wp (((perform o).bind fun r => Prog.ofExcept (f r)).bind k) env i
      (Returns env P) w := by
  refine wp_query (k := fun r => (Prog.ofExcept (f r)).bind k) hw same fun x w' later => ?_
  exact wp_value later.inv fun b hb => ok x w' b later hb

/-- A part of a handler, and the rest. -/
theorem wp_part {R : β → World → Prop} {p : StepUpHandler β} {k : β → StepUpHandler α}
    (first : p.wp env i (Returns env R) w)
    (ok : ∀ b w', w'.Sane env → R b w' → (k b).wp env i (Returns env P) w') :
    StepUpHandler.wp (p.bind k) env i (Returns env P) w :=
  Discipline.wp_seq _ _ first (fun b w' done => ok b w' done.1 done.2) fun _ _ done => done

/-- A message is sent; if that fails, a statement takes back what was issued. -/
theorem wp_send {o : StepUpOp} (hw : w.Sane env)
    (keeps : ∀ w : World, w.Sane env → ∀ x, w.Keeps env i (o.exec env i x w).2) :
    StepUpHandler.wp ((require (perform .send)).tryCatch fun error =>
      (perform o).bind fun _ => Prog.throw error) env i (Returns env fun _ _ => True) w := by
  refine (Discipline.wp_tryCatch _ _ _ _ _ _).2 ?_
  refine wp_query hw (fun x => Delivery.deliver_query _ _ _) fun x w₁ later => ?_
  refine Discipline.wp_ofExcept _ _ ?_
  cases (StepUpOp.send.exec env i x w).1 with
  | ok u => exact ⟨later.inv, True.intro⟩
  | error m =>
    refine wp_op (fun y => keeps w₁ later.inv y) fun y w₂ later₂ => ?_
    exact later₂.inv

end Rules

theorem wp_issueEmailCode (hw : w.Sane env) (email : Text) (purpose : EmailCodePurpose)
    (subjectUid : Option Text) :
    (issueEmailCode env email purpose subjectUid).wp env i (Returns env fun _ _ => True) w := by
  unfold issueEmailCode
  split
  · exact hw
  refine wp_query hw (fun _ => rfl) fun x w₁ later₁ => ?_
  refine wp_value later₁.inv fun hash _ => wp_value later₁.inv fun secret _ => ?_
  refine wp_query later₁.inv (fun _ => rfl) fun x w₂ later₂ => ?_
  refine wp_require (fun y => keeps_deliver _ later₂.inv
    (keeps_insertCode later₂.inv (fun _ => rfl) fun _ => ⟨rfl, rfl, rfl⟩))
    fun y w₃ inserted later₃ _ => ?_
  cases inserted with
  | none => exact later₃.inv
  | some row =>
    refine wp_part (wp_send later₃.inv fun w sane z =>
      keeps_deliver _ sane (keeps_deleteCode sane row.id)) fun _ w₄ sane _ => ?_
    refine wp_require (fun z => keeps_deliver _ sane (keeps_retireCodes sane row))
      fun z w₅ _ later₅ _ => ?_
    exact ⟨later₅.inv, True.intro⟩

/-- The code was sent to the address, and the text has its digest. -/
def Codes.Matches (c : Codes) (env : Env) (id : Nat) (email code : Text)
    (purpose : EmailCodePurpose) (subjectUid : Option Text) : Prop :=
  ∃ r ∈ c.issued, r.id = id ∧ r.purpose = purpose ∧ r.subjectUid = subjectUid ∧
    emailHash env email = .ok r.emailHash ∧ codeHash env r.id r.emailHash code = .ok r.codeHash

theorem Codes.Matches.later {c c' : Codes} {id : Nat} {email code : Text}
    {purpose : EmailCodePurpose} {subjectUid : Option Text}
    (h : c.Matches env id email code purpose subjectUid) (issued : c.issued ⊆ c'.issued) :
    c'.Matches env id email code purpose subjectUid := by
  obtain ⟨r, hr, rest⟩ := h
  exact ⟨r, issued hr, rest⟩

/-- What a claim establishes for the thread. -/
structure World.Claimed (env : Env) (i : Nat) (email code : Text) (purpose : EmailCodePurpose)
    (subjectUid : Option Text) (claim : ClaimedCode) (w : World) : Prop where
  holding : w.Holding i claim.claimId claim.row.id
  matched : w.codes.Matches env claim.row.id email code purpose subjectUid

theorem World.Claimed.later {email code : Text} {purpose : EmailCodePurpose}
    {subjectUid : Option Text} {claim : ClaimedCode}
    (h : w.Claimed env i email code purpose subjectUid claim) (later : LaterFor env i w w') :
    w'.Claimed env i email code purpose subjectUid claim :=
  ⟨h.holding.later later.relied, h.matched.later later.evolves.codes⟩

theorem of_selectCode {emailHash : Text} {purpose : EmailCodePurpose} {subjectUid : Option Text}
    {pick : Nat} {row : CodeRow}
    (found : w.selectCode emailHash purpose subjectUid pick = some row) :
    row ∈ w.codes.rows ∧ openCode emailHash purpose subjectUid row = true := by
  have mem := List.mem_of_getElem? found
  exact List.mem_filter.1 (List.mem_filter.1 mem).1

/-- The row that was read is one that was issued. -/
theorem selected {hash email : Text} {purpose : EmailCodePurpose} {subjectUid : Option Text}
    {pick : Nat} {row : CodeRow} (hw : w.Sane env) (hashed : emailHash env email = .ok hash)
    (found : w.selectCode hash purpose subjectUid pick = some row) :
    ∃ r ∈ w.codes.issued, r.Same row ∧ r.purpose = purpose ∧ r.subjectUid = subjectUid ∧
      emailHash env email = .ok r.emailHash := by
  obtain ⟨mem, open_⟩ := of_selectCode found
  simp only [openCode, Bool.and_eq_true, beq_iff_eq] at open_
  obtain ⟨r, hr, same⟩ := (hw.codes.rows row mem).issued
  refine ⟨r, hr, same, same.purpose.trans open_.1.1.2, same.subjectUid.trans open_.1.2, ?_⟩
  rw [same.emailHash, open_.1.1.1]
  exact hashed

theorem wp_claimEmailCode (hw : w.Sane env) (email code : Text) (purpose : EmailCodePurpose)
    (subjectUid : Option Text) :
    (claimEmailCode env email code purpose subjectUid).wp env i
      (Returns env (World.Claimed env i email code purpose subjectUid)) w := by
  unfold claimEmailCode
  split
  · exact hw
  refine wp_value hw fun hash hashed => ?_
  refine wp_query hw (fun _ => rfl) fun _ w₁ later₁ => ?_
  have clock : w.clock ≤ w₁.clock := later₁.evolves.clock
  refine wp_find later₁.inv (fun x => Delivery.deliver_query _ _ _) fun x w₂ found later₂ read => ?_
  obtain ⟨read, -⟩ := Delivery.of_deliver_ok read
  split
  · exact later₂.inv
  rename_i row admitted
  obtain ⟨rfl, -⟩ := Option.filter_eq_some_iff.1 admitted
  obtain ⟨r, hr, same, purposed, subject, address⟩ := selected later₁.inv hashed read
  have hr₂ := later₂.evolves.codes hr
  -- an attempt is reserved
  have reserving := keeps_reserve (i := i) later₂.inv row.id w.clock
  refine wp_require (fun y => keeps_deliver _ later₂.inv reserving)
    fun y w₃ reserved later₃ done => ?_
  cases reserved with
  | none => exact later₃.inv
  | some ticket =>
  obtain ⟨done, world⟩ := Delivery.of_deliver_ok done
  have ticketed := reserved_reserve later₂.inv done
  rw [← world] at ticketed
  have ticketed := ticketed.later later₃.relied
  have hr₃ := later₃.evolves.codes
    ((keeps_deliver (i := i) y.delivery later₂.inv reserving).grows.codes hr₂)
  -- the text is compared
  have presenting := keeps_present later₃.inv code ticketed
  refine wp_require (fun _ => presenting) fun z w₄ presentedHash later₄ hash' => ?_
  split
  · exact later₄.inv
  rename_i equal
  have equal : presentedHash = row.codeHash := Classical.not_not.1 equal
  have digest : codeHash env r.id r.emailHash code = .ok r.codeHash := by
    rw [same.id, same.emailHash, same.codeHash, ← equal]
    exact hash'
  have hr₄ := later₄.evolves.codes (presenting.grows.codes hr₃)
  have guess : (⟨ticket, row.id, code⟩ : Guess) ∈ w₄.codes.guesses :=
    later₄.evolves.guesses (List.mem_append_right _ (List.mem_singleton_self _))
  have known : w₄.codes.Known env row.id :=
    ⟨r, hr₄, same.id, _, guess, same.id.symm, digest⟩
  have past : w.clock ≤ w₄.clock := by
    refine Nat.le_trans clock (Nat.le_trans later₂.evolves.clock (Nat.le_trans ?_
      (Nat.le_trans later₃.evolves.clock (Nat.le_trans presenting.grows.clock
        later₄.evolves.clock))))
    exact (keeps_deliver (i := i) y.delivery later₂.inv reserving).grows.clock
  have claiming := keeps_claim (i := i) later₄.inv past known
  refine wp_require (fun v => keeps_deliver _ later₄.inv claiming)
    fun v w₅ claimed later₅ made => ?_
  cases claimed with
  | none => exact later₅.inv
  | some k =>
    obtain ⟨made, world⟩ := Delivery.of_deliver_ok made
    have holding := holding_claim later₄.inv made
    rw [← world] at holding
    have issued := later₅.evolves.codes
      ((keeps_deliver (i := i) v.delivery later₄.inv claiming).grows.codes hr₄)
    exact ⟨later₅.inv, holding.later later₅.relied, r, issued, same.id, purposed, subject, address,
      digest⟩

/-- A body that fails gives the claim back. -/
theorem wp_orRelease {α : Type} {P : α → World → Prop} {claim : ClaimedCode}
    {body : StepUpHandler α} (hw : w.Sane env) (own : w.codes.Owns i claim.claimId)
    (h : body.wp env i (Returns env P) w) :
    (orRelease claim body).wp env i (Returns env P) w := by
  refine (Discipline.wp_tryCatch _ _ _ _ _ _).2 ?_
  refine Discipline.wp_mono _ _ (Discipline.wp_evolves _ _ hw h) fun r w₁ ⟨done, sane, grows⟩ => ?_
  cases r with
  | ok a => exact done
  | error m =>
    obtain ⟨n, hn, rest⟩ := own
    have own₁ : w₁.codes.Owns i claim.claimId := ⟨n, grows.claims hn, rest⟩
    refine wp_op (fun x => keeps_deliver _ sane (keeps_releaseClaim sane own₁ _))
      fun x w₂ later₂ => ?_
    exact later₂.inv

/-- The thread has consumed a code that was sent to the address for the purpose. -/
def World.Consumed (env : Env) (i : Nat) (email code : Text) (purpose : EmailCodePurpose)
    (subjectUid : Option Text) (w : World) : Prop :=
  ∃ p ∈ w.codes.proofs, p.thread = i ∧
    w.codes.Matches env p.code email code purpose subjectUid

theorem wp_completeSignIn (hw : w.Sane env) {email code : Text} {claim : ClaimedCode}
    (matched : w.codes.Matches env claim.row.id email code .signin none) :
    (completeSignIn claim).wp env i
      (Returns env fun _ w' => w'.Consumed env i email code .signin none) w := by
  refine wp_find hw (fun x => Delivery.deliver_query _ _ _) fun x w₁ _ later₁ _ => ?_
  refine wp_find later₁.inv (fun x => Delivery.deliver_query _ _ _) fun y w₂ _ later₂ _ => ?_
  refine wp_query later₂.inv (fun _ => rfl) fun _ w₃ later₃ => ?_
  have consuming := keeps_consumeCode (i := i) later₃.inv claim.row.id claim.claimId w₂.clock
  refine wp_require (fun z => keeps_deliver _ later₃.inv consuming)
    fun z w₄ consumed later₄ done => ?_
  obtain ⟨done, world⟩ := Delivery.of_deliver_ok done
  split
  · exact later₄.inv
  rename_i ok
  have ok : consumed = true := Classical.not_not.1 ok
  rw [ok] at done
  have proof := proof_consumeCode done
  rw [← world] at proof
  refine ⟨later₄.inv, _, later₄.evolves.proofs proof, rfl, ?_⟩
  refine matched.later fun r hr => later₄.evolves.codes ?_
  exact (keeps_deliver (i := i) z.delivery later₃.inv consuming).grows.codes
    (later₃.evolves.codes (later₂.evolves.codes (later₁.evolves.codes hr)))

theorem wp_verifyEmailSignInCode (hw : w.Sane env) (email code : Text) :
    (verifyEmailSignInCode env email code).wp env i
      (Returns env fun _ w' => w'.Consumed env i email code .signin none) w := by
  refine wp_part (wp_claimEmailCode hw email code .signin none) fun claim w₁ sane claimed => ?_
  exact wp_orRelease sane claimed.holding.owns (wp_completeSignIn sane claimed.matched)

/-- The thread has opened a session of the user, with the token. -/
def World.Opened (env : Env) (i : Nat) (uid stepUpToken : Text) (source : Source) (w : World) :
    Prop :=
  ∃ o ∈ w.sessions.opened, o.thread = i ∧ o.source = source ∧ o.session.uid = uid ∧
    stepUpTokenHash env stepUpToken = .ok o.session.tokenHash

/-- What a step-up code was exchanged for. -/
def World.SteppedUp (env : Env) (i : Nat) (email code uid stepUpToken : Text) (w : World) : Prop :=
  ∃ p ∈ w.codes.proofs, p.thread = i ∧
    w.codes.Matches env p.code email code .stepUp (some uid) ∧
    w.Opened env i uid stepUpToken (.code p.code)

/-- A batch that has opened the session and consumed the code. -/
theorem opened_openSession {id session : Nat} {k : ClaimId} {row : Nat → SessionRow}
    {now : Timestamp} (done : (w.openSession i id k row now).1 = some (true, session)) :
    ⟨id, k, i⟩ ∈ (w.openSession i id k row now).2.codes.proofs ∧
      ⟨row w.drawn, .code id, i, now, w.clock⟩ ∈
        (w.openSession i id k row now).2.sessions.opened := by
  unfold World.openSession World.insertSession at done ⊢
  dsimp only at done ⊢
  cases inserted : w.sessions.rows.insert (row w.drawn) with
  | none =>
    rw [inserted] at done
    cases done
  | some rows =>
    rw [inserted, Option.map_some] at done
    rw [Option.map_some]
    dsimp only at done ⊢
    have consumed := (Prod.mk.inj (Option.some.inj done)).1
    refine ⟨proof_consumeCode consumed, ?_⟩
    rw [consumeCode_frame]
    exact List.mem_append_right _ (List.mem_singleton_self _)

theorem wp_completeStepUp (hw : w.Sane env) {email code uid stepUpToken tokenHash : Text}
    {claim : ClaimedCode} {now : Timestamp}
    (claimed : w.Claimed env i email code .stepUp (some uid) claim)
    (hashed : stepUpTokenHash env stepUpToken = .ok tokenHash) :
    (completeStepUp claim uid stepUpToken tokenHash now).wp env i
      (Returns env fun token w' => token = stepUpToken ∧
        w'.SteppedUp env i email code uid stepUpToken) w := by
  obtain ⟨r, hr, hid, purpose, subject, rest⟩ := claimed.matched
  have opening := keeps_openSession (i := i) hw
    (fun id => {
      id, uid, tokenHash, expiresAt := now + stepUpTtlMs, createdAt := now })
    now (fun _ => rfl) claimed.holding ⟨r, hr, hid, purpose, subject⟩
  refine wp_require (fun x => keeps_deliver _ hw opening) fun x w₁ opened later₁ done => ?_
  obtain ⟨done, world⟩ := Delivery.of_deliver_ok done
  match opened with
  | none => exact later₁.inv
  | some (false, session) =>
    refine wp_op (fun y => keeps_deliver _ later₁.inv (keeps_deleteSessions later₁.inv _))
      fun y w₂ later₂ => ?_
    exact later₂.inv
  | some (true, session) =>
    obtain ⟨proof, opened⟩ := opened_openSession done
    rw [← world] at proof opened
    refine ⟨later₁.inv, rfl, _, later₁.evolves.proofs proof, rfl, ?_,
      _, later₁.evolves.opened opened, rfl, rfl, rfl, hashed⟩
    refine claimed.matched.later fun r hr => later₁.evolves.codes ?_
    exact (keeps_deliver (i := i) x.delivery hw opening).grows.codes hr

theorem wp_verifyEmailStepUpCode (hw : w.Sane env) (email code uid : Text) :
    (verifyEmailStepUpCode env email code uid).wp env i
      (Returns env fun token w' => w'.SteppedUp env i email code uid token) w := by
  refine wp_part (wp_claimEmailCode hw email code .stepUp (some uid))
    fun claim w₁ sane claimed => ?_
  refine wp_query sane (fun _ => rfl) fun x w₂ later₂ => ?_
  have claimed₂ := World.Claimed.later claimed later₂
  refine wp_value later₂.inv fun tokenHash hashed => ?_
  refine wp_query later₂.inv (fun _ => rfl) fun y w₃ later₃ => ?_
  have claimed₃ := World.Claimed.later claimed₂ later₃
  refine wp_orRelease later₃.inv claimed₃.holding.owns (Discipline.wp_mono _ _
    (wp_completeStepUp later₃.inv claimed₃ hashed) fun r w₄ done => ?_)
  cases r with
  | ok token => exact ⟨done.1, done.2.1 ▸ done.2.2⟩
  | error m => exact done

/-- The thread has spent a session of the user to which the token belongs. -/
def World.Spent (env : Env) (i : Nat) (uid : Text) (token : Option Text) (w : World) : Prop :=
  ∃ x ∈ w.sessions.spent, x.thread = i ∧ x.uid = uid ∧
    stepUpTokenHash env (presentedToken token) = .ok x.tokenHash

theorem wp_consumeRecoveryStepUp (hw : w.Sane env) (uid : Text) (token : Option Text) :
    (consumeRecoveryStepUp env uid token).wp env i
      (Returns env fun ok w' => ok = true → w'.Spent env i uid token) w := by
  unfold consumeRecoveryStepUp
  split
  · exact ⟨hw, fun ok => by cases ok⟩
  refine wp_value hw fun hash hashed => ?_
  refine wp_query hw (fun _ => rfl) fun _ w₁ later₁ => ?_
  have spending := keeps_spend (i := i) later₁.inv uid hash
    later₁.evolves.clock
  refine wp_last (fun x => keeps_deliver _ later₁.inv spending) fun x w₂ ok later₂ done same => ?_
  obtain ⟨done, world⟩ := Delivery.of_deliver_ok done
  rw [same] at done
  obtain ⟨s, hs, thread, user, digest⟩ := spent_spend done
  rw [← world] at hs
  exact ⟨s, later₂.evolves.spent hs, thread, user, by rw [digest]; exact hashed⟩

theorem wp_validateRecoveryStepUp (hw : w.Sane env) (uid : Text) (token : Option Text) :
    (validateRecoveryStepUp env uid token).wp env i (Returns env fun _ _ => True) w := by
  unfold validateRecoveryStepUp
  split
  · exact ⟨hw, True.intro⟩
  refine wp_value hw fun hash _ => ?_
  refine wp_query hw (fun _ => rfl) fun _ w₁ later₁ => ?_
  refine wp_last (fun x => ?_) fun _ _ _ _ _ => True.intro
  exact keeps_deliver x.delivery later₁.inv (.rfl later₁.inv)

theorem wp_issueRecoveryEmailLink (hw : w.Sane env) (uid : Text)
    (action : RecoveryEmailLinkAction) :
    (issueRecoveryEmailLink env uid action).wp env i (Returns env fun _ _ => True) w := by
  refine wp_query hw (fun _ => rfl) fun x w₁ later₁ => ?_
  refine wp_value later₁.inv fun hash _ => ?_
  refine wp_query later₁.inv (fun _ => rfl) fun y w₂ later₂ => ?_
  refine wp_require (fun z => keeps_deliver _ later₂.inv
    (keeps_insertLink later₂.inv (fun _ => rfl) fun _ => rfl)) fun z w₃ inserted later₃ _ => ?_
  cases inserted with
  | none => exact later₃.inv
  | some row =>
    refine wp_part (wp_send later₃.inv fun w sane v =>
      keeps_deliver _ sane (keeps_deleteLinks sane _)) fun _ w₄ sane _ => ?_
    refine wp_require (fun v => keeps_deliver _ sane (keeps_retireLinks sane row))
      fun v w₅ _ later₅ _ => ?_
    exact ⟨later₅.inv, True.intro⟩

/-- What a link was exchanged for. -/
def World.LinkExchanged (env : Env) (i : Nat) (uid challenge : Text) (r : Exchanged)
    (w : World) : Prop :=
  ∃ l ∈ w.links.issued, l.uid = uid ∧ l.action = r.action ∧
    challengeTokenHash env challenge = .ok l.tokenHash ∧
    w.Opened env i uid r.stepUpToken (.link l.id)

/-- A batch that has exchanged the link. -/
theorem opened_exchange {id : Nat} {uid tokenHash : Text} {row : Nat → SessionRow}
    {now : Timestamp} {updated : Bool}
    (done : (w.exchange i id uid tokenHash row now).1 = some (updated, true)) :
    ⟨row w.drawn, .link id, i, now, w.clock⟩ ∈
      (w.exchange i id uid tokenHash row now).2.sessions.opened := by
  unfold World.exchange World.insertSession at done ⊢
  dsimp only at done ⊢
  split at done
  · cases done
  rename_i rows update
  split at done
  swap
  · cases (Prod.mk.inj (Option.some.inj done)).2
  rename_i any
  rw [if_pos any]
  cases inserted : w.sessions.rows.insert (row w.drawn) with
  | none =>
    rw [inserted] at done
    cases done
  | some sessions => exact List.mem_append_right _ (List.mem_singleton_self _)

theorem wp_exchangeRecoveryEmailLink (hw : w.Sane env) (uid challenge : Text)
    (authTime : Option Int) :
    (exchangeRecoveryEmailLink env uid challenge authTime).wp env i
      (Returns env fun r w' => w'.LinkExchanged env i uid challenge r) w := by
  unfold exchangeRecoveryEmailLink
  split
  · exact hw
  refine wp_value hw fun hash hashed => ?_
  refine wp_query hw (fun _ => rfl) fun _ w₁ later₁ => ?_
  refine wp_find later₁.inv (fun x => Delivery.deliver_query _ _ _) fun x w₂ found later₂ read => ?_
  obtain ⟨read, -⟩ := Delivery.of_deliver_ok read
  cases found with
  | none => exact later₂.inv
  | some row =>
  have selectable := Table.of_find? read
  simp only [World.selectable, Bool.and_eq_true, beq_iff_eq] at selectable
  obtain ⟨l, hl, same⟩ := later₁.inv.links.rows row (Table.mem_of_find? read)
  refine wp_query later₂.inv (fun _ => rfl) fun _ w₃ later₃ => ?_
  split
  · exact later₃.inv
  refine wp_query later₃.inv (fun _ => rfl) fun v w₄ later₄ => ?_
  refine wp_value later₄.inv fun stepUpHash stepUpHashed => ?_
  have past : w.clock ≤ w₄.clock := Nat.le_trans later₁.evolves.clock
    (Nat.le_trans later₂.evolves.clock
      (Nat.le_trans later₃.evolves.clock later₄.evolves.clock))
  have exchanging := keeps_exchange (i := i) later₄.inv row.id hash
    (fun id => {
      id, uid, tokenHash := stepUpHash, expiresAt := w.clock + stepUpTtlMs, createdAt := w.clock })
    past (fun _ => rfl) rfl
  refine wp_require (fun y => keeps_deliver _ later₄.inv exchanging)
    fun y w₅ exchanged later₅ done => ?_
  obtain ⟨done, world⟩ := Delivery.of_deliver_ok done
  match exchanged with
  | none => exact later₅.inv
  | some (false, _) => exact later₅.inv
  | some (true, false) => exact later₅.inv
  | some (true, true) =>
    have opened := opened_exchange done
    rw [← world] at opened
    have links := later₅.evolves.links
      ((keeps_deliver (i := i) y.delivery later₄.inv exchanging).grows.links
        (later₄.evolves.links (later₃.evolves.links (later₂.evolves.links hl))))
    refine ⟨later₅.inv, l, links, same.uid.trans selectable.1.1.2, same.action, ?_,
      _, later₅.evolves.opened opened, rfl, congrArg Source.link same.id.symm, rfl, stepUpHashed⟩
    rw [same.tokenHash, selectable.1.1.1]
    exact hashed

theorem wp_deleteExpiredEmailCodes (hw : w.Sane env) :
    deleteExpiredEmailCodes.wp env i (Returns env fun _ _ => True) w := by
  refine wp_query hw (fun _ => rfl) fun _ w₁ later₁ => ?_
  exact wp_last (fun x => keeps_deliver _ later₁.inv (keeps_deleteExpired later₁.inv _))
    fun _ _ _ _ _ => True.intro

/-! ### Every history -/

/-- What the response of a thread says of the histories. -/
def Response.Truthful (env : Env) (i : Nat) : Response → World → Prop
  | .signedIn email code _, w => w.Consumed env i email code .signin none
  | .steppedUp email code uid token, w => w.SteppedUp env i email code uid token
  | .consumed uid token true, w => w.Spent env i uid token
  | .exchanged uid challenge r, w => w.LinkExchanged env i uid challenge r
  | _, _ => True

theorem wp_body (hw : w.Sane env) (c : StepUpCall) :
    (c.body env).wp env i (Returns env (Response.Truthful env i)) w := by
  cases c with
  | signInCode email =>
    exact wp_part (wp_issueEmailCode hw email .signin none) fun _ _ sane _ => ⟨sane, True.intro⟩
  | stepUpCode email uid =>
    exact wp_part (wp_issueEmailCode hw email .stepUp (some uid)) fun _ _ sane _ =>
      ⟨sane, True.intro⟩
  | signIn email code =>
    exact wp_part (wp_verifyEmailSignInCode hw email code) fun _ _ sane done => ⟨sane, done⟩
  | stepUp email code uid =>
    exact wp_part (wp_verifyEmailStepUpCode hw email code uid) fun _ _ sane done => ⟨sane, done⟩
  | consume uid token =>
    refine wp_part (wp_consumeRecoveryStepUp hw uid token) fun ok _ sane done => ⟨sane, ?_⟩
    cases ok with
    | true => exact done rfl
    | false => exact True.intro
  | validate uid token =>
    exact wp_part (wp_validateRecoveryStepUp hw uid token) fun _ _ sane _ => ⟨sane, True.intro⟩
  | recoveryLink uid action =>
    exact wp_part (wp_issueRecoveryEmailLink hw uid action) fun _ _ sane _ => ⟨sane, True.intro⟩
  | exchange uid challenge authTime =>
    exact wp_part (wp_exchangeRecoveryEmailLink hw uid challenge authTime) fun _ _ sane done =>
      ⟨sane, done⟩
  | cleanUp =>
    exact wp_part (wp_deleteExpiredEmailCodes hw) fun _ _ sane _ => ⟨sane, True.intro⟩

/-- Whatever the others do and whichever handlers die. -/
theorem stepUp_lives (env : Env) :
    (stepUpDiscipline env).Lives (stepUpSystem env) (fun _ _ => True) (fun _ _ => True)
      fun i => Returns env (Response.Truthful env i) where
  env t w hw _ := by
    refine ⟨⟨⟨hw.codes, hw.links, hw.sessions, hw.linked.sources, fun o ho => ?_, hw.linked.codes,
      hw.linked.links⟩, ⟨Nat.le_add_right _ _, List.Subset.refl _, List.Subset.refl _,
        List.Subset.refl _, List.Subset.refl _, List.Subset.refl _, List.Subset.refl _,
        List.Subset.refl _⟩⟩, fun j => ⟨List.Subset.refl _, List.Subset.refl _, fun _ hg _ => hg,
          fun _ _ held _ => ⟨held, fun _ ho _ => ho⟩⟩⟩
    have earned := hw.linked.earned o ho
    cases source : o.source with
    | code id =>
      rw [source] at earned
      exact earned
    | link id =>
      rw [source] at earned
      exact earned
  call c i w _ _ _ := fun _ later => wp_body later.inv c
  crash _ _ _ _ _ _ later := later.inv
  fresh _ _ _ _ _ := True.intro

/-- Everything may happen. -/
theorem bears_any (env : Env) (p : Pool StepUpOp StepUpOp.Reply World Response)
    (es : StepUpHistory) :
    (stepUpSystem env).mortal.Along
      (System.Bears (stepUpDiscipline env).allowed fun _ _ => True) p es := by
  induction es generalizing p with
  | nil => exact True.intro
  | cons e es ih =>
    refine ⟨?_, ih _⟩
    cases e with
    | crash i => exact True.intro
    | label l =>
      cases l with
      | spawn c => exact True.intro
      | env t => exact True.intro
      | step i x => exact fun _ _ _ => True.intro

theorem initial_sane (env : Env) (clock : Timestamp) : (World.initial clock).Sane env where
  codes :=
    { rows := fun _ hr => absurd hr (Table.not_mem_empty _)
      issued := fun _ hr => absurd hr List.not_mem_nil
      issuedOnce := .nil
      reserved := fun _ ha => absurd ha List.not_mem_nil
      reservedOnce := .nil
      bounded := fun _ => Nat.zero_le _
      guesses := fun _ hg => absurd hg List.not_mem_nil
      guessesOnce := .nil
      claims := fun _ hn => absurd hn List.not_mem_nil
      claimsOnce := .nil
      holder := fun _ _ held => by cases held
      proofs := fun _ hp => absurd hp List.not_mem_nil
      proofsOnce := .nil }
  links :=
    { rows := fun _ hr => absurd hr (Table.not_mem_empty _)
      consumption := fun _ hr => absurd hr (Table.not_mem_empty _)
      issued := fun _ hr => absurd hr List.not_mem_nil }
  sessions :=
    { rows := fun _ hr => absurd hr (Table.not_mem_empty _)
      opened := fun _ ho => absurd ho List.not_mem_nil
      openedOnce := .nil
      spent := fun _ hx => absurd hx List.not_mem_nil
      spentOnce := .nil }
  linked :=
    { sources := .nil
      earned := fun _ ho => absurd ho List.not_mem_nil
      codes := fun _ ho => absurd ho List.not_mem_nil
      links := fun _ ho => absurd ho List.not_mem_nil }

theorem upright_stepUpRun (env : Env) (clock : Timestamp) (es : StepUpHistory) :
    (stepUpDiscipline env).Upright (stepUpSystem env) (fun _ _ => True)
      (fun i => Returns env (Response.Truthful env i)) (stepUpRun env clock es) :=
  Discipline.upright_run (stepUp_lives env)
    (Discipline.upright_empty (initial_sane env clock) fun _ => True.intro) (bears_any env _ es)

/-- What a request that has ended says is so. -/
theorem truthful_stepUpRun (env : Env) (clock : Timestamp) (es : StepUpHistory) {j : Nat}
    {response : Response}
    (ended : (stepUpRun env clock es).threads[j]? = some (.ret response)) :
    response.Truthful env j (stepUpRun env clock es).world := by
  have upright := upright_stepUpRun env clock es
  exact (upright.threads j _ ended _ (Discipline.later_refl _ upright.inv)).2

/-- Each comparison is of an attempt of its own. -/
theorem Codes.Sane.compared_le {c : Codes} {d : Nat} (h : c.Sane env d) (id : Nat) :
    c.compared id ≤ c.attempts id := by
  have tickets : ((c.guesses.filter (·.code == id)).map (·.ticket)).Nodup :=
    List.pairwise_map.2 (h.guessesOnce.filter _)
  have reserved : (c.guesses.filter (·.code == id)).map (·.ticket) ⊆
      (c.reserved.filter (·.code == id)).map (·.ticket) := by
    intro t ht
    obtain ⟨g, hg, rfl⟩ := List.mem_map.1 ht
    obtain ⟨hg, code⟩ := List.mem_filter.1 hg
    obtain ⟨a, ha, ticket, same⟩ := h.guesses g hg
    refine List.mem_map.2 ⟨a, List.mem_filter.2 ⟨ha, ?_⟩, ticket⟩
    rw [same]
    exact code
  have fewer := (List.subperm_of_subset tickets reserved).length_le
  rw [List.length_map, List.length_map] at fewer
  rw [Codes.compared, Codes.attempts, List.countP_eq_length_filter, List.countP_eq_length_filter]
  exact fewer

/-- A code is compared five times at most; it is consumed once at most, by a request that had
guessed it and read a clock that showed less than the expiry. -/
structure World.CodesOnce (env : Env) (w : World) : Prop where
  compared : ∀ id, w.codes.compared id ≤ 5
  guessed : ∀ p ∈ w.codes.proofs, ∃ r ∈ w.codes.issued, r.id = p.code ∧ w.codes.Guessed env r ∧
    ∃ n ∈ w.codes.claims, n.claim = p.claim ∧ n.code = p.code ∧ n.reading < r.expiresAt ∧
      n.reading ≤ n.moment
  once : ∀ p ∈ w.codes.proofs, ∀ p' ∈ w.codes.proofs, p.code = p'.code → p = p'

theorem World.Sane.codesOnce (hw : w.Sane env) : w.CodesOnce env where
  compared id := Nat.le_trans (hw.codes.compared_le id) (hw.codes.bounded id)
  guessed p hp := by
    obtain ⟨n, hn, claim, code⟩ := hw.codes.proofs p hp
    obtain ⟨-, moment, r, hr, same, timely, guessed⟩ := hw.codes.claims n hn
    exact ⟨r, hr, same.trans code, guessed, n, hn, claim, code, timely, moment⟩
  once p hp p' hp' same := by
    by_contra other
    have symm : Std.Symm fun p p' : CodeProof => p.code ≠ p'.code := ⟨fun _ _ h => h.symm⟩
    exact hw.codes.proofsOnce.forall hp hp' other same

/-- A session is opened for what earns it, for each such thing once at most; it is spent by its
user, in time, and what earned it lets nothing else be spent. -/
structure World.SessionsOnce (env : Env) (w : World) : Prop where
  earned : ∀ o ∈ w.sessions.opened, w.Earned env o o.source
  sources : ∀ o ∈ w.sessions.opened, ∀ o' ∈ w.sessions.opened, o.source = o'.source → o = o'
  spent : ∀ x ∈ w.sessions.spent, x.reading ≤ x.moment ∧ ∃ o ∈ w.sessions.opened,
    o.session.id = x.session ∧ o.session.uid = x.uid ∧ o.session.tokenHash = x.tokenHash ∧
      x.reading < o.session.expiresAt
  once : ∀ x ∈ w.sessions.spent, ∀ x' ∈ w.sessions.spent, ∀ o ∈ w.sessions.opened,
    ∀ o' ∈ w.sessions.opened, o.session.id = x.session → o'.session.id = x'.session →
      o.source = o'.source → x = x'

theorem World.Sane.sessionsOnce (hw : w.Sane env) : w.SessionsOnce env := by
  have sources : ∀ o ∈ w.sessions.opened, ∀ o' ∈ w.sessions.opened,
      o.source = o'.source → o = o' := by
    intro o ho o' ho' same
    by_contra other
    have symm : Std.Symm fun o o' : Opening => o.source ≠ o'.source := ⟨fun _ _ h => h.symm⟩
    exact hw.linked.sources.forall ho ho' other same
  refine ⟨hw.linked.earned, sources, hw.sessions.spent, ?_⟩
  intro x hx x' hx' o ho o' ho' same same' source
  by_contra other
  have symm : Std.Symm fun x x' : Spending => x.session ≠ x'.session := ⟨fun _ _ h => h.symm⟩
  refine hw.sessions.spentOnce.forall hx hx' other ?_
  rw [← same, ← same', sources o ho o' ho' source]

/-- In every history codes are used once, and a request that signs in or steps up has consumed
a code that was sent to its address. -/
theorem email_codes_once (env : Env) (clock : Timestamp) (es : StepUpHistory) :
    (stepUpRun env clock es).world.CodesOnce env ∧
    ∀ (j : Nat) (email code : Text),
      (∀ customToken, (stepUpRun env clock es).threads[j]? =
          some (.ret (.signedIn email code customToken)) →
        (stepUpRun env clock es).world.Consumed env j email code .signin none) ∧
      ∀ uid stepUpToken, (stepUpRun env clock es).threads[j]? =
          some (.ret (.steppedUp email code uid stepUpToken)) →
        (stepUpRun env clock es).world.SteppedUp env j email code uid stepUpToken := by
  refine ⟨(upright_stepUpRun env clock es).inv.codesOnce, fun j email code => ⟨?_, ?_⟩⟩
  · exact fun customToken ended => truthful_stepUpRun env clock es ended
  · exact fun uid stepUpToken ended => truthful_stepUpRun env clock es ended

/-- In every history sessions are used once, a request that exchanges a link has opened one for
it, and a request that consumes a token has spent one. -/
theorem step_up_sessions_once (env : Env) (clock : Timestamp) (es : StepUpHistory) :
    (stepUpRun env clock es).world.SessionsOnce env ∧
    ∀ (j : Nat) (uid : Text),
      (∀ challenge exchanged, (stepUpRun env clock es).threads[j]? =
          some (.ret (.exchanged uid challenge exchanged)) →
        (stepUpRun env clock es).world.LinkExchanged env j uid challenge exchanged) ∧
      ∀ token, (stepUpRun env clock es).threads[j]? = some (.ret (.consumed uid token true)) →
        (stepUpRun env clock es).world.Spent env j uid token := by
  refine ⟨(upright_stepUpRun env clock es).inv.sessionsOnce, fun j uid => ⟨?_, ?_⟩⟩
  · exact fun challenge exchanged ended => truthful_stepUpRun env clock es ended
  · exact fun token ended => truthful_stepUpRun env clock es ended

end ParmeliaLinks.Auth.StepUp
