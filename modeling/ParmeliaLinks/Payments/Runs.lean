/-
ParmeliaLinks/Payments/Runs.lean

The payments repository as a system: any number of calls of its functions, each
started at any time, interleaved in any order at every await, while the clock
advances and merchants register and disable webhook endpoints.

`repository_obeys` says that every function follows the discipline of
`Payments.Discipline`.  For all of them but one this needs no look at what the
function computes: its operations are harmless.  `settleAttempt` is the other
one: what its batch writes was worked out from rows read before, so its proof
carries what was read across the awaits.

From it, every reachable world is consistent (`consistent_run`), and the two
results of this file follow: value is conserved (`settled_value_conserved`), and
settlements, events, outbox, intents and links agree (`settlement_agreement`).
-/
import ParmeliaLinks.Payments.Discipline

namespace ParmeliaLinks.Payments

/-! ### The system -/

/-- A call of a repository function. -/
inductive RepositoryCall
  | createIntentAndLink (input : CreateIntentInput)
  | cancelPaymentIntent (merchantId : MerchantId) (id : IntentId)
  | insertQuote (quote : PaymentQuote)
  | insertAttempt (attempt : AttemptTerms) (key : String) (access : Option CheckoutAccess)
  | insertQuoteAndAttempt (quote : PaymentQuote) (attempt : AttemptTerms) (key : String)
  | markAttemptProcessing (attemptId : AttemptId) (sourceTxHash : Hash)
  | registerAppExecution (command : ExecutionInput)
  | registerSourceTransaction (attemptId : AttemptId) (capabilityHash txHash : Hash)
  | cancelAttempt (attemptId : AttemptId) (capabilityHash : Hash)
  | releaseExpiredPayerDefinedAmount (intentId : IntentId)
  | settleAttempt (input : SettleInput)
  | simulatePaymentIntent (merchantId : MerchantId) (id : IntentId)

/-- The function that a call runs; nobody looks at its result. -/
def repositoryBody : RepositoryCall → Repository Unit
  | .createIntentAndLink input => (createIntentAndLink input).discard
  | .cancelPaymentIntent merchantId id => (cancelPaymentIntent merchantId id).discard
  | .insertQuote quote => insertQuote quote
  | .insertAttempt attempt key access => (insertAttempt attempt key access).discard
  | .insertQuoteAndAttempt quote attempt key => (insertQuoteAndAttempt quote attempt key).discard
  | .markAttemptProcessing attemptId tx => markAttemptProcessing attemptId tx
  | .registerAppExecution command => (registerAppExecution command).discard
  | .registerSourceTransaction attemptId capabilityHash tx =>
    (registerSourceTransaction attemptId capabilityHash tx).discard
  | .cancelAttempt attemptId capabilityHash => (cancelAttempt attemptId capabilityHash).discard
  | .releaseExpiredPayerDefinedAmount intentId => releaseExpiredPayerDefinedAmount intentId
  | .settleAttempt input => (settleAttempt input).discard
  | .simulatePaymentIntent merchantId id => (simulatePaymentIntent merchantId id).discard

/-- What happens around the repository. -/
inductive Surroundings
  | tick (milliseconds : Nat)
  | registerEndpoint (e : WebhookEndpoint)
  | disableEndpoint (id : EndpointId)

def Surroundings.move : Surroundings → World → World
  | .tick milliseconds, w => { w with clock := w.clock + milliseconds }
  | .registerEndpoint e, w =>
    { w with db := { w.db with endpoints := w.db.endpoints.insertOrIgnore e } }
  | .disableEndpoint id, w =>
    let endpoints := w.db.endpoints.modify (·.id == id) ({ · with status := .disabled })
      ⟨fun _ _ => rfl⟩
    { w with db := { w.db with endpoints } }

/-- Many repository calls side by side. -/
def repositorySystem :
    System RepositoryOp RepositoryOp.Reply World Unit Surroundings RepositoryCall Unit where
  exec _ o _ w := o.exec w
  env := Surroundings.move
  body := repositoryBody

/-- The world before any request. -/
def World.initial (clock : Timestamp) : World where
  db := .initial
  clock := clock
  uuid := 0
  simulations := []

/-! ### Every function follows the discipline -/

/-- The discipline of the repository, with the amounts that are legitimate for an
attempt. -/
def repositoryDiscipline (legit : AttemptTerms → Nat → Prop) :
    Discipline RepositoryOp World Unit Surroundings RepositoryCall where
  Inv := World.Consistent
  Evolves := World.Evolves
  ensures o _ w := o.Safe legit w
  refl := World.Evolves.rfl
  trans := World.Evolves.trans

/-- The operations that the discipline asks nothing of. -/
def RepositoryOp.Harmless : RepositoryOp → Prop
  | .settleAttempt .. => False
  | _ => True

variable {legit : AttemptTerms → Nat → Prop}

theorem RepositoryOp.Harmless.safe {o : RepositoryOp} (h : o.Harmless) (w : World) :
    o.Safe legit w := by
  cases o with
  | settleAttempt => exact h.elim
  | _ => trivial

variable {α : Type} {Q : Except String α → World → Prop} {w : World}

/-- The weakest precondition of a repository function. -/
abbrev Repository.wp (p : Repository α) (legit : AttemptTerms → Nat → Prop) (i : Nat)
    (Q : Except String α → World → Prop) (w : World) : Prop :=
  (repositoryDiscipline legit).wp repositorySystem i p Q w

variable {me : Nat}

theorem wp_of_harmless {p : Repository α} (h : p.Uses RepositoryOp.Harmless)
    (hw : w.Consistent) : p.wp legit me (fun _ w' => w'.Consistent ∧ w.Evolves w') w :=
  (repositoryDiscipline legit).wp_of_uses repositorySystem (i := me)
    (fun o ho _ w _ hw _ => by
      have safe : o.Safe legit w := ho.safe w
      obtain ⟨consistent, evolves⟩ := o.exec_keeps hw safe
      exact ⟨⟨consistent, evolves⟩, fun _ _ => trivial, safe⟩)
    h hw

theorem wp_safe {o : RepositoryOp} {Q : Except String o.Reply → World → Prop} (hw : w.Consistent)
    (safe : o.Safe legit w)
    (post : ∀ w', (o.exec w).2.Evolves w' → w'.Consistent → Q (.ok (o.exec w).1) w') :
    Repository.wp (.perform o) legit me Q w := by
  refine Discipline.wp_perform _ _ (fun _ _ => ?_) fun _ _ w' later => post w' later.evolves later.inv
  obtain ⟨consistent, evolves⟩ := o.exec_keeps hw safe
  exact ⟨⟨consistent, evolves⟩, fun _ _ => trivial, safe⟩

/-! ### The functions that only use harmless operations -/

section Harmless

open Prog

theorem uses_perform_harmless {o : RepositoryOp} (h : o.Harmless) :
    (perform o : Repository o.Reply).Uses RepositoryOp.Harmless :=
  (uses_perform _ _).2 h

theorem uses_existingIntent (input : CreateIntentInput) :
    (existingIntent input).Uses RepositoryOp.Harmless := by
  unfold existingIntent
  split
  · trivial
  · split
    · trivial
    · exact uses_perform_harmless trivial

theorem uses_linkOf (intent : PaymentIntent) : (linkOf intent).Uses RepositoryOp.Harmless := by
  unfold linkOf
  split
  · trivial
  · exact uses_perform_harmless trivial

theorem uses_idOrFresh (id : Option Nat) : (idOrFresh id).Uses RepositoryOp.Harmless := by
  cases id with
  | some id => trivial
  | none => exact uses_perform_harmless trivial

theorem uses_createIntentAndLink (input : CreateIntentInput) :
    (createIntentAndLink input).Uses RepositoryOp.Harmless := by
  refine uses_bind (uses_existingIntent input) fun existing => ?_
  cases existing with
  | some intent =>
    refine uses_bind (uses_linkOf intent) fun link => ?_
    cases link <;> trivial
  | none =>
    refine uses_bind (uses_idOrFresh _) fun intentId => ?_
    refine uses_bind (uses_idOrFresh _) fun linkId => ?_
    refine uses_bind (uses_perform_harmless trivial) fun timestamp => ?_
    refine uses_bind (uses_perform_harmless trivial) fun inserted => ?_
    cases inserted with
    | none =>
      refine uses_bind (uses_existingIntent input) fun winner => ?_
      cases winner with
      | none => trivial
      | some intent =>
        refine uses_bind (uses_linkOf intent) fun link => ?_
        cases link <;> trivial
    | some _ =>
      refine uses_bind (uses_perform_harmless trivial) fun intent => ?_
      cases intent with
      | none => trivial
      | some intent =>
        refine uses_bind (uses_perform_harmless trivial) fun link => ?_
        cases link <;> trivial

theorem uses_insertQuote (quote : PaymentQuote) :
    (insertQuote quote).Uses RepositoryOp.Harmless := by
  refine uses_bind (uses_perform_harmless trivial) fun inserted => ?_
  cases inserted <;> trivial

theorem uses_insertAttempt (attempt : AttemptTerms) (key : String)
    (access : Option CheckoutAccess) :
    (insertAttempt attempt key access).Uses RepositoryOp.Harmless := by
  refine uses_bind (uses_perform_harmless trivial) fun inserted => ?_
  cases inserted with
  | none => trivial
  | some _ =>
    refine uses_bind (uses_perform_harmless trivial) fun stored => ?_
    cases stored <;> trivial

theorem uses_insertQuoteAndAttempt (quote : PaymentQuote) (attempt : AttemptTerms)
    (key : String) : (insertQuoteAndAttempt quote attempt key).Uses RepositoryOp.Harmless := by
  refine uses_bind (uses_perform_harmless trivial) fun inserted => ?_
  cases inserted with
  | none =>
    refine uses_bind (uses_perform_harmless trivial) fun replay => ?_
    cases replay <;> trivial
  | some _ =>
    refine uses_bind (uses_perform_harmless trivial) fun stored => ?_
    cases stored <;> trivial

theorem uses_markAttemptProcessing (id : AttemptId) (tx : Hash) :
    (markAttemptProcessing id tx).Uses RepositoryOp.Harmless := by
  refine uses_bind (uses_perform_harmless trivial) fun updated => ?_
  cases updated <;> trivial

theorem uses_registerAppExecution (command : ExecutionInput) :
    (registerAppExecution command).Uses RepositoryOp.Harmless := by
  refine uses_bind (uses_perform_harmless trivial) fun replay => ?_
  cases replay with
  | some replay =>
    refine uses_bind (uses_perform_harmless trivial) fun attempt => ?_
    cases attempt <;> trivial
  | none =>
    refine uses_bind (uses_perform_harmless trivial) fun attempt => ?_
    cases attempt with
    | none => trivial
    | some attempt =>
      dsimp only
      split
      · trivial
      · split
        · trivial
        · refine uses_bind (uses_perform_harmless trivial) fun timestamp => ?_
          refine uses_bind (uses_perform_harmless trivial) fun inserted => ?_
          cases inserted with
          | none => trivial
          | some _ =>
            refine uses_bind (uses_perform_harmless trivial) fun stored => ?_
            cases stored <;> trivial

theorem uses_registerSourceTransaction (id : AttemptId) (capabilityHash tx : Hash) :
    (registerSourceTransaction id capabilityHash tx).Uses RepositoryOp.Harmless := by
  refine uses_bind (uses_perform_harmless trivial) fun updated => ?_
  cases updated with
  | none => trivial
  | some changed =>
    dsimp only
    split
    · exact uses_perform_harmless trivial
    · trivial

theorem uses_releaseExpiredPayerDefinedAmount (id : IntentId) :
    (releaseExpiredPayerDefinedAmount id).Uses RepositoryOp.Harmless :=
  uses_bind (uses_perform_harmless trivial) fun _ => uses_perform_harmless trivial

theorem uses_simulatePaymentIntent (merchantId : MerchantId) (id : IntentId) :
    (simulatePaymentIntent merchantId id).Uses RepositoryOp.Harmless := by
  refine uses_bind (uses_perform_harmless trivial) fun intent => ?_
  cases intent with
  | none => trivial
  | some intent =>
    dsimp only
    split
    · trivial
    · refine uses_bind (uses_perform_harmless trivial) fun timestamp => ?_
      refine uses_bind (uses_perform_harmless trivial) fun endpoints => ?_
      refine uses_bind (uses_perform_harmless trivial) fun changed => ?_
      split
      · exact uses_perform_harmless trivial
      · trivial

theorem uses_recordAttemptFeeEvidence (id : AttemptId) (platform : Nat) (network : Option Nat)
    (tx : Hash) :
    (recordAttemptFeeEvidence id platform network tx).Uses RepositoryOp.Harmless := by
  refine uses_bind (uses_perform_harmless trivial) fun attempt => ?_
  cases attempt with
  | none => trivial
  | some attempt =>
    dsimp only
    split
    · trivial
    · split
      · trivial
      · exact uses_perform_harmless trivial

end Harmless

/-! ### Settling -/

/-- The attempt exists. -/
def World.HasAttempt (w : World) (id : AttemptId) : Prop := ∃ a ∈ w.db.attempts, a.id = id

/-- The attempt exists and is no longer open. -/
def World.HasClosed (w : World) (id : AttemptId) : Prop :=
  ∃ a ∈ w.db.attempts, a.id = id ∧ a.status.active = false

theorem World.Evolves.hasAttempt {w' : World} {id : AttemptId} (h : w.Evolves w')
    (ha : w.HasAttempt id) : w'.HasAttempt id := by
  obtain ⟨a, ha, hid⟩ := ha
  obtain ⟨a', ha', ev⟩ := h.attempts a ha
  exact ⟨a', ha', (congrArg (·.id) ev.terms).trans hid⟩

theorem World.Evolves.hasClosed {w' : World} {id : AttemptId} (h : w.Evolves w')
    (ha : w.HasClosed id) : w'.HasClosed id := by
  obtain ⟨a, ha, hid, closed⟩ := ha
  obtain ⟨a', ha', ev⟩ := h.attempts a ha
  exact ⟨a', ha', (congrArg (·.id) ev.terms).trans hid, by rw [(ev.closed closed).1, closed]⟩

/-- An attempt keeps its terms. -/
theorem World.Evolves.terms {w' : World} {a a' : PaymentAttempt} (h : w.Evolves w')
    (ha : a ∈ w.db.attempts) (ha' : a' ∈ w'.db.attempts) (hid : a'.id = a.id) :
    a'.toAttemptTerms = a.toAttemptTerms := by
  obtain ⟨a'', ha'', ev⟩ := h.attempts a ha
  obtain rfl := attempt_eq ha'' ha' ((congrArg (·.id) ev.terms).trans hid.symm)
  exact ev.terms

/-- What is known of an attempt that has been read. -/
theorem find?_attempt {id : AttemptId} {a : PaymentAttempt}
    (h : w.db.attempts.find? (·.id == id) = some a) : a ∈ w.db.attempts ∧ a.id = id :=
  ⟨Table.mem_of_find? h, by simpa using Table.of_find? h⟩

theorem find?_attempt_none {id : AttemptId} (h : w.db.attempts.find? (·.id == id) = none) :
    ¬ w.HasAttempt id := by
  rintro ⟨a, ha, hid⟩
  simpa [hid] using Table.not_of_find?_none h ha

theorem find?_intent {id : IntentId} {i : PaymentIntent}
    (h : w.db.intents.find? (·.id == id) = some i) : i ∈ w.db.intents ∧ i.id = id :=
  ⟨Table.mem_of_find? h, by simpa using Table.of_find? h⟩

/-- The outcome of settling: if the attempt existed and no error was thrown, it is
closed afterwards. -/
def Closes (w : World) (id : AttemptId) {β : Type} : Except String β → World → Prop
  | .ok _, w' => w.HasAttempt id → w'.HasClosed id
  | .error _, _ => True

/-! Each operation of `settleAttempt` with what its caller learns. -/

theorem wp_getAttempt {id : AttemptId} {Q : Except String (Option PaymentAttempt) → World → Prop}
    (hw : w.Consistent)
    (found : ∀ a ∈ w.db.attempts, ∀ w', w.Evolves w' → w'.Consistent → a.id = id →
      (∃ a' ∈ w'.db.attempts, AttemptEvolves a a') → Q (.ok (some a)) w')
    (missing : ∀ w', w.Evolves w' → w'.Consistent → ¬ w.HasAttempt id → Q (.ok none) w') :
    (getAttempt id).wp legit me Q w := by
  refine wp_safe hw trivial fun w' hev hw' => ?_
  cases hread : w.db.attempts.find? (·.id == id) with
  | none =>
    simp only [RepositoryOp.exec, hread]
    exact missing w' hev hw' (find?_attempt_none hread)
  | some a =>
    obtain ⟨ha, hid⟩ := find?_attempt hread
    simp only [RepositoryOp.exec, hread]
    exact found a ha w' hev hw' hid (hev.attempts a ha)

theorem wp_getPaymentIntent {id : IntentId}
    {Q : Except String (Option PaymentIntent) → World → Prop} (hw : w.Consistent)
    (found : ∀ i w', w.Evolves w' → w'.Consistent → i.id = id →
      (∃ i' ∈ w'.db.intents, IntentEvolves i i') → Q (.ok (some i)) w')
    (missing : ∀ w', w.Evolves w' → w'.Consistent → (∀ i ∈ w.db.intents, i.id ≠ id) →
      Q (.ok none) w') :
    (getPaymentIntent id).wp legit me Q w := by
  refine wp_safe hw trivial fun w' hev hw' => ?_
  cases hread : w.db.intents.find? (·.id == id) with
  | none =>
    simp only [RepositoryOp.exec, hread]
    refine missing w' hev hw' fun i hi hid => ?_
    have := Table.not_of_find?_none hread hi
    simp [hid] at this
  | some i =>
    obtain ⟨hi, hid⟩ := find?_intent hread
    simp only [RepositoryOp.exec, hread]
    exact found i w' hev hw' hid (hev.intents i hi)

/-- The batch: aborted, without effect, or the attempt is closed. -/
theorem wp_settlementBatch {s : Settlement} {timestamp : Timestamp} {endpoints : List EndpointId}
    {Q : Except String (Option Bool) → World → Prop} (hw : w.Consistent)
    (b : s.Backed w.db) (amount : legit s.attempt.toAttemptTerms s.settledAmount)
    (aborted : ∀ w', w.Evolves w' → w'.Consistent → Q (.ok none) w')
    (missed : ∀ w', w.Evolves w' → w'.Consistent → Q (.ok (some false)) w')
    (done : ∀ w', w.Evolves w' → w'.Consistent → w'.HasClosed s.attempt.id →
      Q (.ok (some true)) w') :
    Repository.wp (.perform (RepositoryOp.settleAttempt s timestamp endpoints)) legit me Q w := by
  have safe : (RepositoryOp.settleAttempt s timestamp endpoints).Safe legit w := ⟨b, amount⟩
  have keeps := RepositoryOp.exec_keeps _ hw safe
  refine wp_safe hw safe fun w' hev hw' => ?_
  have since := keeps.evolves.trans hev
  simp only [RepositoryOp.exec] at hev ⊢
  cases hr : w.db.settleAttempt s w.uuid timestamp endpoints with
  | none => exact aborted w' since hw'
  | some r =>
    obtain ⟨changed, db'⟩ := r
    rw [hr] at hev
    have fresh : ∀ c ∈ w.db.commits, c.commitId ≠ w.uuid := fun c hc => (hw.books.fresh c hc).ne
    rcases Db.settleAttempt_cases fresh hr with ⟨rfl, -⟩ | ⟨rfl, m⟩
    · exact missed w' since hw'
    · obtain ⟨a, ha, hid, -⟩ := m.attempt
      refine done w' since hw' (hev.hasClosed ⟨s.settleAttemptRow a,
        (Table.mem_of_rewritten m.attempts).2 ⟨a, ha, by simp [hid]⟩, hid, ?_⟩)
      simp only [Settlement.settleAttemptRow, Settlement.attemptStatus]
      split <;> rfl

/-- A closed row that was read belongs to an attempt that is closed. -/
theorem hasClosed_of_read {a : PaymentAttempt} (known : ∃ a' ∈ w.db.attempts, AttemptEvolves a a')
    (closed : a.status.active = false) : w.HasClosed a.id := by
  obtain ⟨a', ha', ev⟩ := known
  exact ⟨a', ha', congrArg (·.id) ev.terms, by rw [(ev.closed closed).1, closed]⟩

/-- The intent of an attempt that was read exists. -/
theorem intent_of_read {a : PaymentAttempt} (hw : w.Consistent)
    (known : ∃ a' ∈ w.db.attempts, AttemptEvolves a a') : ∃ i ∈ w.db.intents, i.id = a.intentId := by
  obtain ⟨a', ha', ev⟩ := known
  obtain ⟨i, hi, hia⟩ := hw.books.intended a' ha'
  exact ⟨i, hi, hia.trans (congrArg (·.intentId) ev.terms)⟩

/-- The compare-and-set loop, by induction on the retries that are left: each one
reads the rows anew, so nothing is carried from one to the next. -/
theorem wp_settleRetries (input : SettleInput) (positive : 0 < input.settledAmountAtomic)
    (eventId : EventId) (fees : PaymentFeeBreakdown) {w₀ : World} {a₀ : PaymentAttempt}
    (ha₀ : a₀ ∈ w₀.db.attempts) (hid₀ : a₀.id = input.attemptId)
    (amount : legit a₀.toAttemptTerms input.settledAmountAtomic) (retries : Nat)
    (hw : w.Consistent) (hev : w₀.Evolves w) :
    (settleRetries input eventId fees retries).wp legit me (Closes w₀ input.attemptId) w := by
  induction retries generalizing w with
  | zero =>
    refine (Discipline.wp_bind _ _ _ _ _ _).2 (wp_getAttempt hw ?_ ?_)
    · intro a _ w₁ hev₁ hw₁ hid known
      refine (Discipline.wp_bind _ _ _ _ _ _).2 (wp_safe hw₁ trivial fun w₂ hev₂ hw₂ => ?_)
      simp only [Discipline.then_ok, Option.any_some]
      split
      · rename_i settled
        intro _
        exact hev₂.hasClosed (hid ▸ hasClosed_of_read known (active_of_settled settled))
      · trivial
    · exact fun w₁ _ _ _ => trivial
  | succ retries ih =>
    refine (Discipline.wp_bind _ _ _ _ _ _).2 (wp_getAttempt hw ?_ ?_)
    · intro a ha w₁ hev₁ hw₁ hid known
      refine (Discipline.wp_bind _ _ _ _ _ _).2 (wp_getPaymentIntent hw₁ ?_ ?_)
      · intro i w₂ hev₂ hw₂ _ knownIntent
        simp only [Discipline.then_ok]
        split
        · rename_i closed
          intro _
          exact hev₂.hasClosed (hid ▸ hasClosed_of_read known (by simpa using closed))
        · refine (Discipline.wp_bind _ _ _ _ _ _).2
            (wp_safe hw₂ trivial fun w₃ hev₃ hw₃ => ?_)
          refine (Discipline.wp_bind _ _ _ _ _ _).2
            (wp_safe hw₃ trivial fun w₄ hev₄ hw₄ => ?_)
          -- the rows in the database have evolved from the ones that were read
          have backed : (Settlement.compute input a i fees).Backed w₄.db := by
            obtain ⟨a', ha', eva⟩ := known
            obtain ⟨a'', ha'', eva'⟩ := (hev₂.trans (hev₃.trans hev₄)).attempts a' ha'
            obtain ⟨i', hi', evi⟩ := knownIntent
            obtain ⟨i'', hi'', evi'⟩ := (hev₃.trans hev₄).intents i' hi'
            exact ⟨⟨a'', ha'', eva.trans eva'⟩, ⟨i'', hi'', evi.trans evi'⟩,
              input, fees, positive, rfl⟩
          have since : w.Evolves w₄ := hev₁.trans (hev₂.trans (hev₃.trans hev₄))
          have same : a.toAttemptTerms = a₀.toAttemptTerms :=
            hev.terms ha₀ ha (hid.trans hid₀.symm)
          refine (Discipline.wp_bind _ _ _ _ _ _).2
            (wp_settlementBatch hw₄ backed (by rw [← same] at amount; exact amount) ?_ ?_ ?_)
          · exact fun w₅ _ _ => trivial
          · exact fun w₅ hev₅ hw₅ => ih hw₅ (hev.trans (since.trans hev₅))
          · intro w₅ hev₅ hw₅ closed
            refine (Discipline.wp_bind _ _ _ _ _ _).2
              (wp_safe hw₅ trivial fun w₆ hev₆ _ _ => ?_)
            exact hev₆.hasClosed (hid ▸ closed)
      · intro w₂ _ _ none
        obtain ⟨i, hi, hia⟩ := intent_of_read hw₁ known
        exact absurd hia (none i hi)
    · exact fun w₁ _ _ none had => absurd (hev.hasAttempt had) none

/-- `settleAttempt` follows the discipline, and returns only when the attempt is
closed: settled by this call or another one, or closed without a payment. -/
theorem wp_settleAttempt (input : SettleInput) (hw : w.Consistent)
    (amount : ∀ a ∈ w.db.attempts, a.id = input.attemptId →
      legit a.toAttemptTerms input.settledAmountAtomic) :
    (settleAttempt input).wp legit me (Closes w input.attemptId) w := by
  refine (Discipline.wp_bind _ _ _ _ _ _).2 (wp_getAttempt hw ?_ ?_)
  · intro a ha w₁ hev₁ hw₁ hid known
    refine (Discipline.wp_bind _ _ _ _ _ _).2 (wp_getPaymentIntent hw₁ ?_ ?_)
    · intro i w₂ hev₂ hw₂ _ _
      simp only [Discipline.then_ok]
      split
      · rename_i settled
        intro _
        exact hev₂.hasClosed (hid ▸ hasClosed_of_read known (active_of_settled settled))
      split
      · trivial
      rename_i positive
      split
      · trivial
      refine (Discipline.wp_bind _ _ _ _ _ _).2 ?_
      refine Discipline.wp_mono _ _
        (wp_of_harmless (uses_recordAttemptFeeEvidence _ _ _ _) hw₂) fun r w₃ h => ?_
      obtain ⟨hw₃, hev₃⟩ := h
      cases r with
      | error m => trivial
      | ok _ =>
        exact wp_settleRetries input (Nat.pos_of_ne_zero positive) _ _ ha hid (amount a ha hid) 5
          hw₃
          (hev₁.trans (hev₂.trans hev₃))
    · intro w₂ _ _ none
      obtain ⟨i, hi, hia⟩ := intent_of_read hw₁ known
      exact absurd hia (none i hi)
  · exact fun w₁ _ _ none had => absurd had none

/-! ### Every run -/

theorem wp_discard {p : Repository α} {Q : Except String α → World → Prop} (h : p.wp legit me Q w) :
    Repository.wp p.discard legit me (fun _ _ => True) w := by
  refine (Discipline.wp_bind _ _ _ _ _ _).2 (Discipline.wp_mono _ _ h fun r _ _ => ?_)
  cases r <;> trivial

theorem surroundings_keep (e : Surroundings) (hw : w.Consistent) : w.Keeps (e.move w) := by
  cases e <;> exact keeps_sameTables hw rfl rfl rfl rfl rfl rfl rfl le_rfl

/-- The call settles an attempt. -/
def RepositoryCall.settles : RepositoryCall → Bool
  | .settleAttempt _ => true
  | _ => false

/-- Every other call uses harmless operations only. -/
theorem uses_repositoryBody {c : RepositoryCall} (h : c.settles = false) :
    (repositoryBody c).Uses RepositoryOp.Harmless := by
  cases c with
  | createIntentAndLink input => exact Prog.uses_discard (uses_createIntentAndLink input)
  | cancelPaymentIntent merchantId id => exact Prog.uses_discard (uses_perform_harmless trivial)
  | insertQuote quote => exact uses_insertQuote quote
  | insertAttempt attempt key access =>
    exact Prog.uses_discard (uses_insertAttempt attempt key access)
  | insertQuoteAndAttempt quote attempt key =>
    exact Prog.uses_discard (uses_insertQuoteAndAttempt quote attempt key)
  | markAttemptProcessing id tx => exact uses_markAttemptProcessing id tx
  | registerAppExecution command => exact Prog.uses_discard (uses_registerAppExecution command)
  | registerSourceTransaction id capabilityHash tx =>
    exact Prog.uses_discard (uses_registerSourceTransaction id capabilityHash tx)
  | cancelAttempt id capabilityHash => exact Prog.uses_discard (uses_perform_harmless trivial)
  | releaseExpiredPayerDefinedAmount id => exact uses_releaseExpiredPayerDefinedAmount id
  | simulatePaymentIntent merchantId id =>
    exact Prog.uses_discard (uses_simulatePaymentIntent merchantId id)
  | settleAttempt input => cases h

theorem repository_obeys :
    (repositoryDiscipline fun _ _ => True).Obeys repositorySystem (fun _ _ => True) where
  env e w hw _ := by
    obtain ⟨consistent, evolves⟩ := surroundings_keep e hw
    exact ⟨⟨consistent, evolves⟩, fun _ => trivial⟩
  call c me w₀ w _ _ later := by
    have hw := later.inv
    cases h : c.settles with
    | false =>
      exact Discipline.wp_mono _ _ (wp_of_harmless (uses_repositoryBody h) hw) fun _ _ _ => trivial
    | true =>
      cases c with
      | settleAttempt input => exact wp_discard (wp_settleAttempt input hw fun _ _ _ => trivial)
      | _ => cases h

theorem initial_consistent (clock : Timestamp) : (World.initial clock).Consistent where
  books := by
    refine ⟨?_, ?_, ?_, ?_, ?_, ?_, ?_, ?_, .nil⟩ <;> intro _ h <;> cases h
  published := by constructor <;> intro _ h <;> cases h
  priced := by constructor <;> intro _ h <;> cases h
  payable _ h := by cases h

/-- A schedule of repository calls. -/
abbrev RepositorySchedule := List (Label Unit Surroundings RepositoryCall)

/-- The world that a schedule reaches. -/
def reached (clock : Timestamp) (ls : RepositorySchedule) : World :=
  (repositorySystem.run (World.initial clock) ls).world

/-- Every reachable world is consistent. -/
theorem consistent_run (clock : Timestamp) (ls : RepositorySchedule) :
    (reached clock ls).Consistent :=
  (Discipline.pool_sound repository_obeys (initial_consistent clock)
    (System.along_any _ _ _)).inv

/-- What was reached before, later evolves. -/
theorem evolves_run (clock : Timestamp) (ls ms : RepositorySchedule) :
    (reached clock ls).Evolves (reached clock (ls ++ ms)) := by
  have sound := Discipline.pool_sound repository_obeys (initial_consistent clock)
    (System.along_any repositorySystem ⟨World.initial clock, []⟩ ls)
  have evolves := Discipline.evolves_runFrom repository_obeys sound
    (System.along_any repositorySystem _ ms)
  unfold reached System.run
  rw [System.runFrom_append]
  exact evolves

/-! ### Value is conserved -/

/-- The total of the intent is accounted for by its commits, one after the other,
from what the sandbox recorded. -/
structure World.Balances (w : World) (i : PaymentIntent) : Prop where
  total : i.paidAmountAtomic =
    ((w.db.commitsOf i.id).map (·.settledAmountAtomic)).sum + w.simulated i.id
  start : ∀ c ∈ (w.db.commitsOf i.id).head?, c.previousPaidAmountAtomic = w.simulated i.id
  chain : (w.db.commitsOf i.id).IsChain
    fun c d => d.previousPaidAmountAtomic = c.resultingPaidAmountAtomic
  adds : ∀ c ∈ w.db.commitsOf i.id,
    c.resultingPaidAmountAtomic = c.previousPaidAmountAtomic + c.settledAmountAtomic

/-- The attempt has one commit row when it is settled and none otherwise. -/
structure World.Commits (w : World) (a : PaymentAttempt) : Prop where
  atMostOne : (w.db.commits.filter (·.attemptId == a.id)).length ≤ 1
  settled : a.status.settled = true ↔ ∃ c ∈ w.db.commits, c.attemptId = a.id
  amount : ∀ c ∈ w.db.commits, c.attemptId = a.id → a.settledAmountAtomic = c.settledAmountAtomic

theorem Ledger.balances (h : Ledger w) {i : PaymentIntent} (hi : i ∈ w.db.intents) :
    w.Balances i := by
  have chain := h.chain i hi
  exact ⟨chain.sum, chain.head, chain.isChain, chain.resulting⟩

theorem Ledger.accounts (h : Ledger w) {a : PaymentAttempt} (ha : a ∈ w.db.attempts)
    {c : SettlementCommit} (hc : c ∈ w.db.commits) (hca : c.attemptId = a.id) : Accounts c a := by
  obtain ⟨b, hb, acc⟩ := h.accounted c hc
  rwa [attempt_eq hb ha (acc.id.trans hca)] at acc

theorem Ledger.commits (h : Ledger w) {a : PaymentAttempt} (ha : a ∈ w.db.attempts) :
    w.Commits a := by
  refine ⟨Table.length_filter_le_one fun c _ d _ hc hd => ?_, ⟨h.committed a ha, ?_⟩, ?_⟩
  · rw [beq_iff_eq] at hc hd
    simp [Row.clash, hc, hd]
  · rintro ⟨c, hc, hca⟩
    exact (h.accounts ha hc hca).settled
  · intro c hc hca
    exact (h.accounts ha hc hca).amount

/-- Conservation of settled value, in every reachable world. -/
theorem settled_value_conserved (clock : Timestamp) (ls : RepositorySchedule) :
    (∀ i ∈ (reached clock ls).db.intents, (reached clock ls).Balances i) ∧
      (∀ a ∈ (reached clock ls).db.attempts, (reached clock ls).Commits a) ∧
      ((reached clock ls).simulations.map (·.1)).Nodup := by
  have books := (consistent_run clock ls).books
  exact ⟨fun i hi => books.balances hi, fun a ha => books.commits ha, books.once⟩

/-! ### Settlements, events, outbox, intents and links agree -/

/-- The events with the dedupe key of the attempt's settlement. -/
def Db.settlementEvents (db : Db) (id : AttemptId) : List EventRow :=
  db.events.filter (·.dedupeKey == some (.settlement id))

/-- The outbox rows of the attempt's settlement event. -/
def Db.settlementOutbox (db : Db) (id : AttemptId) : List OutboxRow :=
  db.outbox.filter (·.resourceId == .settlement id)

/-- One event and one outbox row tell a settlement. -/
structure World.Publishes (w : World) (a : PaymentAttempt) : Prop where
  settled : a.status.settled = true ↔
    (w.db.settlementEvents a.id).length = 1 ∧ (w.db.settlementOutbox a.id).length = 1
  tells : ∀ c ∈ w.db.commits, c.attemptId = a.id → ∀ e ∈ w.db.settlementEvents a.id, Announces e c

theorem length_settlementEvents {db : Db} (h : Published db) (id : AttemptId) :
    (db.settlementEvents id).length = 1 ↔ ∃ c ∈ db.commits, c.attemptId = id := by
  refine (Table.length_filter_eq_one fun e he e' he' hp hp' => ?_).trans ⟨?_, ?_⟩
  · rw [beq_iff_eq] at hp hp'
    have hid := (h.told e he id (.inr hp)).1
    have hid' := (h.told e' he' id (.inr hp')).1
    simp [Row.clash, hid, hid']
  · rintro ⟨e, he, hp⟩
    rw [beq_iff_eq] at hp
    obtain ⟨-, -, c, hc, hca, -⟩ := h.told e he id (.inr hp)
    exact ⟨c, hc, hca⟩
  · rintro ⟨c, hc, rfl⟩
    obtain ⟨e, he, hid⟩ := h.tells c hc
    exact ⟨e, he, beq_iff_eq.2 (h.told e he c.attemptId (.inl hid)).2.1⟩

theorem length_settlementOutbox {db : Db} (h : Published db) (id : AttemptId) :
    (db.settlementOutbox id).length = 1 ↔ ∃ c ∈ db.commits, c.attemptId = id := by
  refine (Table.length_filter_eq_one fun o _ o' _ hp hp' => ?_).trans ⟨?_, ?_⟩
  · rw [beq_iff_eq] at hp hp'
    simp [Row.clash, hp, hp']
  · rintro ⟨o, ho, hp⟩
    exact h.queued o ho id (beq_iff_eq.1 hp)
  · rintro ⟨c, hc, rfl⟩
    obtain ⟨o, ho, hid⟩ := h.queues c hc
    exact ⟨o, ho, beq_iff_eq.2 hid⟩

theorem World.Consistent.publishes (hw : w.Consistent) {a : PaymentAttempt}
    (ha : a ∈ w.db.attempts) : w.Publishes a where
  settled := by
    rw [length_settlementEvents hw.published, length_settlementOutbox hw.published, and_self]
    exact (hw.books.commits ha).settled
  tells c hc hca e he := by
    obtain ⟨he, hp⟩ := List.mem_filter.1 he
    obtain ⟨-, -, d, hd, hda, tells⟩ := hw.published.told e he a.id (.inr (beq_iff_eq.1 hp))
    obtain rfl : d = c := Table.eq_of_clash hd hc (by simp [Row.clash, hda, hca])
    exact tells

/-- What the routers guarantee of the settlement of an attempt: the settlement
amount of its authorization is not zero, and no less was settled. -/
def World.RouterGuarantee (w : World) (c : SettlementCommit) : Prop :=
  ∀ a ∈ w.db.attempts, a.id = c.attemptId →
    0 < a.settlementAmountAtomic ∧ a.settlementAmountAtomic ≤ c.settledAmountAtomic

/-- An intent with a commit is paid, and so is its link, with the same amount; an
open amount is the one that the first committed attempt was signed for. -/
structure World.Pays (w : World) (i : PaymentIntent) : Prop where
  status : i.status = if i.amountAtomic < i.paidAmountAtomic then .overpaid else .paid
  linked : ∃ l ∈ w.db.links, l.intentId = i.id
  link : ∀ l ∈ w.db.links, l.intentId = i.id →
    l.status = .paid ∧ l.amount = i.amount ∧ parseUnits l.amount 6 = i.amountAtomic
  nonzero : (∀ c ∈ w.db.commitsOf i.id, w.RouterGuarantee c) → 0 < i.amountAtomic
  decided : i.amountMode = .payerDefined → ∀ c ∈ (w.db.commitsOf i.id).head?,
    ∃ a ∈ w.db.attempts, a.id = c.attemptId ∧ a.settlementAmountAtomic = i.amountAtomic

theorem World.Consistent.pays (hw : w.Consistent) {i : PaymentIntent} (hi : i ∈ w.db.intents)
    (committed : w.db.commitsOf i.id ≠ []) : w.Pays i where
  status := hw.priced.status i hi committed
  linked := hw.priced.linked i hi
  link l hl hli := by
    have shown := hw.priced.shown i hi l hl hli
    refine ⟨hw.priced.linkStatus i hi committed l hl hli, shown, ?_⟩
    rw [shown]
    exact hw.priced.parsed i hi
  nonzero guaranteed := by
    cases mode : i.amountMode with
    | fixed => exact hw.priced.fixed i hi mode
    | payerDefined =>
      obtain ⟨c, cs, hcs⟩ := List.exists_cons_of_ne_nil committed
      obtain ⟨a, ha, hid, amount⟩ := hw.priced.decided i hi mode c (by simp [hcs])
      have signed := (guaranteed c (by simp [hcs]) a ha hid).1
      rwa [amount] at signed
  decided := hw.priced.decided i hi

/-- A committed intent has something paid. -/
theorem Ledger.paid_pos (h : Ledger w) {i : PaymentIntent} (hi : i ∈ w.db.intents)
    (committed : w.db.commitsOf i.id ≠ []) : 0 < i.paidAmountAtomic := by
  obtain ⟨c, cs, hcs⟩ := List.exists_cons_of_ne_nil committed
  have mem : c ∈ w.db.commitsOf i.id := by simp [hcs]
  have positive := h.positive c (Db.mem_commitsOf.1 mem).1
  have total := (h.chain i hi).sum
  rw [hcs, List.map_cons, List.sum_cons] at total
  omega

/-- In every reachable world settlements, events and outbox agree, and intents
and links with them; the amount of a committed intent is final. -/
theorem settlement_agreement (clock : Timestamp) (ls : RepositorySchedule) :
    (∀ a ∈ (reached clock ls).db.attempts, (reached clock ls).Publishes a) ∧
      ∀ i ∈ (reached clock ls).db.intents, (reached clock ls).db.commitsOf i.id ≠ [] →
        (reached clock ls).Pays i ∧
          ∀ ms, ∀ i' ∈ (reached clock (ls ++ ms)).db.intents, i'.id = i.id →
            i'.amountAtomic = i.amountAtomic := by
  have consistent := consistent_run clock ls
  refine ⟨fun a ha => consistent.publishes ha, fun i hi committed => ?_⟩
  refine ⟨consistent.pays hi committed, fun ms i' hi' hid => ?_⟩
  have paid := consistent.books.paid_pos hi committed
  obtain ⟨j, hj, ev⟩ := (evolves_run clock ls ms).intents i hi
  obtain rfl := intent_eq hj hi' ((congrArg (·.id) ev.terms).trans hid.symm)
  exact (ev.amount (.inr paid)).2

/-! A payment of an open amount. -/

def shop : Merchant :=
  { id := 1, ownerUid := 2, settlementWallet := 3, settlementChainId := 4, accountVersion := 1 }

def openIntent : CreateIntentInput :=
  { merchant := shop, amount := .payerChosen, reference := "", metadata := "", expiresAt := 9
    idempotencyKey := none, mode := .live, intentId := some 10, linkId := some 11 }

def localAttempt : AttemptTerms :=
  { id := 20, attemptHash := 21, intentId := 10, quoteId := 22, payerUid := none
    payerAddress := 23, idempotencyKey := "", sourceChainId := 4, route := .sameChain
    routerAddress := 24, authorizationHash := 25, authorizationIntentId := 26, signature := 27
    checkoutCapabilityHash := some 29, payerProofSignature := none, payerProofMessageHash := none
    validAfter := 0, validUntil := 100, settlementAmountAtomic := 700, platformFeeAtomic := 0
    cctpFeeAtomic := 0, grossPayerAmountAtomic := 700, feePolicyId := "", feePolicyVersion := 1
    feeRuleId := "", platformFeeBps := 0, platformFeeBearer := .none
    platformFeeRecipient := none, routeFeeCapBps := 0, createdAt := 0 }

def localPayment : SettleInput :=
  { attemptId := 20, sourceTxHash := 30, destinationTxHash := none, settledAmountAtomic := 700
    payerAddress := 23, platformFeeAtomic := none, networkFeeAtomic := none }

def openPayment : RepositorySchedule :=
  ([.spawn (.createIntentAndLink openIntent)] : RepositorySchedule) ++
    (List.replicate 4 (.step 0 ()) : RepositorySchedule) ++
    ([.spawn (.insertQuoteAndAttempt { id := 22, intentId := 10, quoteHash := 28 }
      localAttempt "k")] : RepositorySchedule) ++
    (List.replicate 2 (.step 1 ()) : RepositorySchedule) ++
    ([.spawn (.settleAttempt localPayment)] : RepositorySchedule) ++
    (List.replicate 10 (.step 2 ()) : RepositorySchedule)

theorem settlement_agreement_openPayment :
    ∃ i ∈ (reached 0 openPayment).db.intents,
      (reached 0 openPayment).db.commitsOf i.id ≠ [] ∧ 0 < i.amountAtomic := by
  have settled : ∃ i ∈ (reached 0 openPayment).db.intents.rows,
      (reached 0 openPayment).db.commitsOf i.id ≠ [] ∧
        ∀ c ∈ (reached 0 openPayment).db.commitsOf i.id,
          ∀ a ∈ (reached 0 openPayment).db.attempts.rows, a.id = c.attemptId →
            0 < a.settlementAmountAtomic ∧ a.settlementAmountAtomic ≤ c.settledAmountAtomic := by
    decide
  obtain ⟨i, hi, committed, guaranteed⟩ := settled
  have pays := ((settlement_agreement 0 openPayment).2 i hi committed).1
  exact ⟨i, hi, committed, pays.nonzero guaranteed⟩

end ParmeliaLinks.Payments
