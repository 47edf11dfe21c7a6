/-
ParmeliaLinks/Payments/CheckoutAccess.lean

Who can do what with an attempt of the public checkout.  Terms of attempts and intents
never change (`Kept`), and a quote stays; so what a request has read and verified is still
so when its attempt is inserted, and every attempt with a capability is `Proven`.

Of two requests with one key the second is answered with the attempt of the first.  That
attempt is for the payer and the chain of the quote that the second names, and for the
quote that the first named (`checkout_attempts`).
-/
import ParmeliaLinks.Payments.CheckoutRoutes

namespace ParmeliaLinks.Payments.Checkout

/-! ### The message -/

theorem joinLines_injective {ls ms : List Text} (length : ls.length = ms.length)
    (hls : ∀ l ∈ ls, '\n' ∉ l) (hms : ∀ m ∈ ms, '\n' ∉ m) (h : joinLines ls = joinLines ms) :
    ls = ms := by
  induction ls generalizing ms with
  | nil => exact (List.length_eq_zero_iff.1 length.symm).symm
  | cons l ls ih =>
    obtain ⟨m, ms, rfl⟩ := List.exists_cons_of_length_eq_add_one length.symm
    cases ls with
    | nil =>
      obtain rfl := List.length_eq_zero_iff.1 (Nat.succ.inj length).symm
      rw [show l = m from h]
    | cons l' ls =>
      obtain ⟨m', ms, rfl⟩ := List.exists_cons_of_length_eq_add_one (Nat.succ.inj length).symm
      obtain ⟨rfl, rest⟩ := append_separator_inj (hls l (List.mem_cons_self ..))
        (hms m (List.mem_cons_self ..)) h
      rw [ih (Nat.succ.inj length) (fun l hl => hls l (List.mem_cons_of_mem _ hl))
        (fun m hm => hms m (List.mem_cons_of_mem _ hm)) rest]

/-- The fields of a message are spelled on one line each, and differently. -/
structure Spelling.Plain (s : Spelling) : Prop where
  link : Function.Injective s.link ∧ ∀ x, '\n' ∉ s.link x
  quote : Function.Injective s.quote ∧ ∀ x, '\n' ∉ s.quote x
  address : Function.Injective s.address ∧ ∀ x, '\n' ∉ s.address x
  hash : Function.Injective s.hash ∧ ∀ x, '\n' ∉ s.hash x
  timestamp : ∀ x, '\n' ∉ s.timestamp x

theorem newline_not_mem_decimal (n : Nat) : '\n' ∉ decimal n := by
  intro h
  have digit := isDigit_of_mem_decimal h
  revert digit
  decide

theorem newline_not_mem_lines {s : Spelling} (plain : s.Plain) (linkId : LinkId) (quote : Quoted)
    (capabilityHash : Hash) :
    ∀ l ∈ checkoutPayerProofLines s linkId quote capabilityHash, '\n' ∉ l := by
  have field : ∀ {label value : Text}, '\n' ∉ label → '\n' ∉ value → '\n' ∉ label ++ value := by
    intro label value hl hv h
    rcases List.mem_append.1 h with h | h
    · exact hl h
    · exact hv h
  unfold checkoutPayerProofLines
  simp only [List.mem_cons, List.not_mem_nil, or_false, forall_eq_or_imp, forall_eq]
  refine ⟨by decide, by decide, by decide, by decide, ?_, ?_, ?_, ?_, ?_, ?_, ?_⟩
  · exact field (by decide) (plain.link.2 _)
  · exact field (by decide) (plain.quote.2 _)
  · exact field (by decide) (plain.hash.2 _)
  · exact field (by decide) (plain.address.2 _)
  · exact field (by decide) (newline_not_mem_decimal _)
  · exact field (by decide) (plain.hash.2 _)
  · exact field (by decide) (plain.timestamp _)

/-- A message is about one link, one quote, one payer, one chain and one capability. -/
theorem checkoutPayerProofMessage_injective {s : Spelling} (plain : s.Plain)
    {linkId linkId' : LinkId} {quote quote' : Quoted} {capabilityHash capabilityHash' : Hash}
    (h : checkoutPayerProofMessage s linkId quote capabilityHash =
      checkoutPayerProofMessage s linkId' quote' capabilityHash') :
    linkId = linkId' ∧ quote.id = quote'.id ∧ quote.quoteHash = quote'.quoteHash ∧
      quote.payer = quote'.payer ∧ quote.sourceChainId = quote'.sourceChainId ∧
      capabilityHash = capabilityHash' := by
  have lines : checkoutPayerProofLines s linkId quote capabilityHash =
      checkoutPayerProofLines s linkId' quote' capabilityHash' :=
    joinLines_injective rfl (newline_not_mem_lines plain linkId quote capabilityHash)
      (newline_not_mem_lines plain linkId' quote' capabilityHash') h
  simp only [checkoutPayerProofLines, List.cons.injEq, List.append_cancel_left_eq, true_and,
    and_true] at lines
  obtain ⟨link, id, hash, payer, chain, capability, -⟩ := lines
  exact ⟨plain.link.1 link, plain.quote.1 id, plain.hash.1 hash, plain.address.1 payer,
    decimal_injective chain, plain.hash.1 capability⟩

/-! ### What every statement keeps -/

abbrev IntentsKept (t t' : Table PaymentIntent) : Prop :=
  t.Evolves (fun i i' => i'.toIntentTerms = i.toIntentTerms) (fun _ => True) t'

abbrev AttemptsKept (added : Option AttemptTerms) (t t' : Table PaymentAttempt) : Prop :=
  t.Evolves (fun a a' => a'.toAttemptTerms = a.toAttemptTerms)
    (fun a' => added = some a'.toAttemptTerms) t'

theorem intentsKept_refl (t : Table PaymentIntent) : IntentsKept t t := by
  refine Table.Evolves.rfl ?_ t
  intro i
  rfl

theorem attemptsKept_refl (added : Option AttemptTerms) (t : Table PaymentAttempt) :
    AttemptsKept added t t := by
  refine Table.Evolves.rfl ?_ t
  intro a
  rfl

/-- Intents and attempts keep their terms; the new attempt is `added`. -/
structure Kept (added : Option AttemptTerms) (db db' : Db) : Prop where
  intents : IntentsKept db.intents db'.intents
  attempts : AttemptsKept added db.attempts db'.attempts

section

variable {db db' : Db} {added : Option AttemptTerms}

theorem Kept.of_same (intents : db'.intents = db.intents) (attempts : db'.attempts = db.attempts) :
    Kept added db db' where
  intents := intents ▸ intentsKept_refl _
  attempts := attempts ▸ attemptsKept_refl _ _

/-- Statements that change rows in place. -/
theorem Kept.of_rewritten {p : PaymentAttempt → Bool} {f : PaymentAttempt → PaymentAttempt}
    {q : PaymentIntent → Bool} {g : PaymentIntent → PaymentIntent}
    (attempts : db'.attempts.rows = db.attempts.rewritten p f)
    (hf : ∀ a, (f a).toAttemptTerms = a.toAttemptTerms)
    (intents : db'.intents.rows = db.intents.rewritten q g)
    (hg : ∀ i, (g i).toIntentTerms = i.toIntentTerms) : Kept added db db' where
  intents := Table.evolves_of_rewritten intents (fun _ _ _ => rfl) fun i _ _ => hg i
  attempts := Table.evolves_of_rewritten attempts (fun _ _ _ => rfl) fun a _ _ => hf a

/-- A statement that changes attempts in place. -/
theorem Kept.of_attempts {p : PaymentAttempt → Bool} {f : PaymentAttempt → PaymentAttempt}
    (intents : db'.intents = db.intents) (attempts : db'.attempts.rows = db.attempts.rewritten p f)
    (hf : ∀ a, (f a).toAttemptTerms = a.toAttemptTerms) : Kept added db db' where
  intents := intents ▸ intentsKept_refl _
  attempts := Table.evolves_of_rewritten attempts (fun _ _ _ => rfl) fun a _ _ => hf a

/-- A statement that changes intents in place. -/
theorem Kept.of_intents {q : PaymentIntent → Bool} {g : PaymentIntent → PaymentIntent}
    (attempts : db'.attempts = db.attempts) (intents : db'.intents.rows = db.intents.rewritten q g)
    (hg : ∀ i, (g i).toIntentTerms = i.toIntentTerms) : Kept added db db' where
  intents := Table.evolves_of_rewritten intents (fun _ _ _ => rfl) fun i _ _ => hg i
  attempts := attempts ▸ attemptsKept_refl _ _

/-- The row of a new attempt. -/
theorem insertAttempt_rows {t : AttemptTerms} (h : db.insertAttempt t = some db') :
    db'.intents = db.intents ∧ ∃ a : PaymentAttempt, a.toAttemptTerms = t ∧
      db'.attempts.rows = db.attempts.rows ++ [a] := by
  simp only [Db.insertAttempt, Option.bind_eq_bind, Option.bind_eq_some_iff] at h
  obtain ⟨-, -, -, -, attempts, inserted, h⟩ := h
  obtain rfl := Option.some.inj h
  exact ⟨rfl, _, rfl, (Table.insert_rows inserted).1⟩

theorem Kept.of_insertAttempt {t : AttemptTerms} (h : db.insertAttempt t = some db') :
    Kept (some t) db db' := by
  obtain ⟨intents, a, terms, rows⟩ := insertAttempt_rows h
  exact ⟨intents ▸ intentsKept_refl _,
    Table.evolves_of_append rows (fun _ => rfl) (congrArg some terms.symm)⟩

theorem insertQuote_same {q : PaymentQuote} (h : db.insertQuote q = some db') :
    db'.intents = db.intents ∧ db'.attempts = db.attempts := by
  simp only [Db.insertQuote, Option.bind_eq_bind, Option.bind_eq_some_iff] at h
  obtain ⟨-, -, quotes, -, h⟩ := h
  obtain rfl := Option.some.inj h
  exact ⟨rfl, rfl⟩

theorem Kept.of_settleAttempt {s : Settlement} {commitId : CommitId} {timestamp : Timestamp}
    {endpoints : List EndpointId} {changed : Bool}
    (h : db.settleAttempt s commitId timestamp endpoints = some (changed, db')) :
    Kept added db db' := by
  simp only [Db.settleAttempt, Option.bind_eq_bind, Option.bind_eq_some_iff] at h
  obtain ⟨attempts, updated, h⟩ := h
  obtain ⟨-, rfl⟩ := Prod.mk.inj (Option.some.inj h)
  exact .of_rewritten (Table.update_rows updated) (fun _ => rfl) rfl fun _ => rfl

/-- What a batch keeps, committed or aborted. -/
theorem Kept.of_batch {v : World} {r : Option Db}
    (h : ∀ db', r = some db' → Kept added v.db db') :
    Kept added v.db (RepositoryOp.commitBatch v r).2.db := by
  cases r with
  | none => exact .of_same rfl rfl
  | some db' => exact h db' rfl

theorem Kept.of_report {v : World} {r : Option (Bool × Db)}
    (h : ∀ changed db', r = some (changed, db') → Kept added v.db db') :
    Kept added v.db (RepositoryOp.commitReport v r).2.db := by
  cases r with
  | none => exact .of_same rfl rfl
  | some r => exact h r.1 r.2 rfl

end

/-- Every operation of the repository keeps the terms, and adds what it inserts. -/
theorem RepositoryOp.kept (o : RepositoryOp) (v : World) :
    Kept (inserted o) v.db (o.exec v).2.db := by
  cases o with
  | createIntentAndLink input id link timestamp =>
    refine .of_batch fun db' h => ?_
    have created := Db.createIntentAndLink_created h
    exact ⟨Table.evolves_of_append created.intents (fun _ => rfl) trivial,
      created.attempts ▸ attemptsKept_refl _ _⟩
  | cancelPaymentIntent merchantId id => exact .of_intents rfl rfl fun _ => rfl
  | insertQuote q =>
    refine .of_batch fun db' h => ?_
    obtain ⟨intents, attempts⟩ := insertQuote_same h
    exact .of_same intents attempts
  | insertAttempt a => exact .of_batch fun db' h => .of_insertAttempt h
  | insertQuoteAndAttempt q a =>
    refine .of_batch fun db' h => ?_
    simp only [Db.insertQuoteAndAttempt, Option.bind_eq_bind, Option.bind_eq_some_iff] at h
    obtain ⟨db₁, quoted, h⟩ := h
    obtain ⟨intents, attempts⟩ := insertQuote_same quoted
    have kept := Kept.of_insertAttempt h
    exact ⟨intents ▸ kept.intents, attempts ▸ kept.attempts⟩
  | markAttemptProcessing id tx =>
    refine .of_batch fun db' h => ?_
    simp only [Db.markAttemptProcessing, Option.bind_eq_bind, Option.bind_eq_some_iff] at h
    obtain ⟨attempts, updated, h⟩ := h
    obtain rfl := Option.some.inj h
    exact .of_attempts rfl (Table.update_rows updated) fun _ => rfl
  | registerAppExecution id command =>
    refine .of_batch fun db' h => ?_
    simp only [Db.registerAppExecution, Option.bind_eq_bind, Option.bind_eq_some_iff] at h
    obtain ⟨attempts, updated, commands, -, h⟩ := h
    obtain rfl := Option.some.inj h
    exact .of_attempts rfl (Table.update_rows updated) fun _ => rfl
  | registerSourceTransaction id capabilityHash tx =>
    refine .of_report fun changed db' h => ?_
    simp only [Db.registerSourceTransaction, Option.bind_eq_bind, Option.bind_eq_some_iff] at h
    obtain ⟨attempts, updated, h⟩ := h
    obtain ⟨-, rfl⟩ := Prod.mk.inj (Option.some.inj h)
    exact .of_attempts rfl (Table.update_rows updated) fun _ => rfl
  | cancelAttempt id capabilityHash => exact .of_attempts rfl rfl fun _ => rfl
  | releaseExpiredPayerDefinedAmount id nowSeconds =>
    exact .of_rewritten rfl (fun _ => rfl) rfl fun _ => rfl
  | settleAttempt s timestamp endpoints =>
    show Kept _ v.db (RepositoryOp.commitReport { v with uuid := v.uuid + 1 } _).2.db
    exact Kept.of_report (v := { v with uuid := v.uuid + 1 })
      fun changed db' h => .of_settleAttempt h
  | simulatePaymentIntent merchantId intent timestamp endpoints =>
    exact .of_intents rfl rfl fun _ => rfl
  | _ => exact .of_same rfl rfl

/-! ### The discipline -/

section

variable (lib : Libraries)

/-- The payer of the attempt has signed the message about its link, its quote and the
capability. -/
structure ProvenBy (a : AttemptTerms) (capabilityHash : Hash) (linkId : LinkId) (q : Quoted)
    (i : PaymentIntent) : Prop where
  intent : i.id = a.intentId
  link : i.linkId = some linkId
  quote : q.id = a.quoteId
  quoteIntent : q.intentId = a.intentId
  payer : q.payer = a.payerAddress
  chain : q.sourceChainId = a.sourceChainId
  signed : ∃ signature, a.payerProofSignature = some signature ∧ lib.recoverMessageAddress
    (checkoutPayerProofMessage lib.spelling linkId q capabilityHash) signature =
      some a.payerAddress

def Proven (w : CheckoutWorld) (a : AttemptTerms) (capabilityHash : Hash) : Prop :=
  ∃ linkId, ∃ q ∈ w.quotes, ∃ i ∈ w.payments.db.intents, ProvenBy lib a capabilityHash linkId q i

/-- Every attempt with a capability is proven. -/
def Consistent (w : CheckoutWorld) : Prop :=
  ∀ a ∈ w.payments.db.attempts, ∀ h, a.checkoutCapabilityHash = some h →
    Proven lib w a.toAttemptTerms h

end

/-- Terms and quotes stay. -/
structure CheckoutWorld.Evolves (w w' : CheckoutWorld) : Prop where
  intents : ∀ i ∈ w.payments.db.intents, ∃ i' ∈ w'.payments.db.intents,
    i'.toIntentTerms = i.toIntentTerms
  attempts : ∀ a ∈ w.payments.db.attempts, ∃ a' ∈ w'.payments.db.attempts,
    a'.toAttemptTerms = a.toAttemptTerms
  quotes : ∀ q ∈ w.quotes, q ∈ w'.quotes

theorem CheckoutWorld.Evolves.rfl (w : CheckoutWorld) : w.Evolves w :=
  ⟨fun i hi => ⟨i, hi, Eq.refl _⟩, fun a ha => ⟨a, ha, Eq.refl _⟩, fun _ h => h⟩

theorem CheckoutWorld.Evolves.trans {w₁ w₂ w₃ : CheckoutWorld} (h : w₁.Evolves w₂)
    (h' : w₂.Evolves w₃) : w₁.Evolves w₃ where
  intents i hi := by
    obtain ⟨i₂, hi₂, terms₂⟩ := h.intents i hi
    obtain ⟨i₃, hi₃, terms₃⟩ := h'.intents i₂ hi₂
    exact ⟨i₃, hi₃, terms₃.trans terms₂⟩
  attempts a ha := by
    obtain ⟨a₂, ha₂, terms₂⟩ := h.attempts a ha
    obtain ⟨a₃, ha₃, terms₃⟩ := h'.attempts a₂ ha₂
    exact ⟨a₃, ha₃, terms₃.trans terms₂⟩
  quotes q hq := h'.quotes q (h.quotes q hq)

def checkoutDiscipline (lib : Libraries) : Discipline CheckoutStep CheckoutWorld CheckoutOutside
    CheckoutSurroundings CheckoutRequest where
  Inv := Consistent lib
  Evolves := CheckoutWorld.Evolves
  refl := CheckoutWorld.Evolves.rfl
  trans := CheckoutWorld.Evolves.trans

section

variable {lib : Libraries} {w w' : CheckoutWorld} {me : Nat} {α β : Type}

theorem Proven.evolves {a : AttemptTerms} {h : Hash} (ev : w.Evolves w') (proven : Proven lib w a h) :
    Proven lib w' a h := by
  obtain ⟨linkId, q, hq, i, hi, by'⟩ := proven
  obtain ⟨i', hi', terms⟩ := ev.intents i hi
  refine ⟨linkId, q, ev.quotes q hq, i', hi', { by' with intent := ?_, link := ?_ }⟩
  · exact (congrArg (·.id) terms).trans by'.intent
  · exact (congrArg (·.linkId) terms).trans by'.link

/-- The attempt that a statement inserts is proven, if it has a capability. -/
def Safe (lib : Libraries) (o : RepositoryOp) (w : CheckoutWorld) : Prop :=
  ∀ t, inserted o = some t → ∀ h, t.checkoutCapabilityHash = some h → Proven lib w t h

theorem evolves_statement (o : RepositoryOp) (w : CheckoutWorld) :
    w.Evolves { w with payments := (o.exec w.payments).2 } :=
  have kept := RepositoryOp.kept o w.payments
  ⟨kept.intents.forward, kept.attempts.forward, fun _ h => h⟩

theorem consistent_statement {o : RepositoryOp} (hw : Consistent lib w) (safe : Safe lib o w) :
    Consistent lib { w with payments := (o.exec w.payments).2 } := by
  intro a' ha' h hash
  refine Proven.evolves (evolves_statement o w) ?_
  rcases (RepositoryOp.kept o w.payments).attempts.backward a' ha' with ⟨a, ha, terms⟩ | new
  · rw [terms]
    exact hw a ha h ((congrArg (·.checkoutCapabilityHash) terms).symm.trans hash)
  · exact safe _ new h hash

theorem statement_performs {o : RepositoryOp} {x : CheckoutOutside} (hw : Consistent lib w)
    (safe : Safe lib o w) :
    (checkoutDiscipline lib).Performs (checkoutSystem lib) me (.inl o) x w :=
  ⟨⟨consistent_statement hw safe, evolves_statement o w⟩, fun _ _ => trivial, trivial⟩

theorem evolves_issue (o : CheckoutOp) (x : CheckoutOutside) (w : CheckoutWorld) :
    w.Evolves (o.exec lib x w).2 := by
  have same : (o.exec lib x w).2.payments.db = w.payments.db ∧
      (o.exec lib x w).2.quotes = w.quotes := by
    cases o <;> exact ⟨rfl, rfl⟩
  refine ⟨?_, ?_, ?_⟩
  · rw [same.1]
    exact (CheckoutWorld.Evolves.rfl w).intents
  · rw [same.1]
    exact (CheckoutWorld.Evolves.rfl w).attempts
  · rw [same.2]
    exact fun _ h => h

theorem issue_performs {o : CheckoutOp} {x : CheckoutOutside} (hw : Consistent lib w) :
    (checkoutDiscipline lib).Performs (checkoutSystem lib) me (.inr o) x w := by
  refine ⟨⟨?_, evolves_issue o x w⟩, fun _ _ => trivial, trivial⟩
  cases o <;> exact hw

/-! ### Rules -/

/-- The weakest precondition of a route. -/
abbrev Route.wp (p : Route α) (lib : Libraries) (i : Nat)
    (Q : Except String α → CheckoutWorld → Prop) (w : CheckoutWorld) : Prop :=
  (checkoutDiscipline lib).wp (checkoutSystem lib) i p Q w

/-- A statement of the repository, and the rest. -/
theorem wp_statement {o : RepositoryOp} {k : o.Reply → Route α}
    {Q : Except String α → CheckoutWorld → Prop} (hw : Consistent lib w) (safe : Safe lib o w)
    (rest : ∀ w', CheckoutWorld.Evolves { w with payments := (o.exec w.payments).2 } w' →
      Consistent lib w' → (k (o.exec w.payments).1).wp lib me Q w') :
    Route.wp (.act (.inl o) k) lib me Q w :=
  Discipline.wp_act _ _ (fun _ _ => statement_performs hw safe)
    fun _ _ w' later => rest w' later.evolves later.inv

/-- The same, where the statement is the whole function of the repository. -/
theorem wp_perform {o : RepositoryOp} {k : o.Reply → Route α}
    {Q : Except String α → CheckoutWorld → Prop} (hw : Consistent lib w) (safe : Safe lib o w)
    (rest : ∀ w', CheckoutWorld.Evolves { w with payments := (o.exec w.payments).2 } w' →
      Consistent lib w' → (k (o.exec w.payments).1).wp lib me Q w') :
    Route.wp ((repository (.perform o)).bind k) lib me Q w :=
  wp_statement hw safe rest

/-- An operation that is no statement, and the rest. -/
theorem wp_issue {o : CheckoutOp} {k : o.Reply → Route α}
    {Q : Except String α → CheckoutWorld → Prop} (hw : Consistent lib w)
    (rest : ∀ x w', CheckoutWorld.Evolves (o.exec lib x w).2 w' → Consistent lib w' →
      (k (o.exec lib x w).1).wp lib me Q w') : Route.wp ((issue o).bind k) lib me Q w :=
  Discipline.wp_act _ _ (fun _ _ => issue_performs hw)
    fun x _ w' later => rest x w' later.evolves later.inv

theorem safe_of_inserted {o : RepositoryOp} (h : inserted o = none) : Safe lib o w := by
  intro t ht
  rw [h] at ht
  cases ht

/-- A function of the repository that inserts no attempt. -/
theorem wp_repository {p : Repository α} (uses : p.Uses fun o => inserted o = none)
    (hw : Consistent lib w) :
    (repository p).wp lib me (fun _ w' => Consistent lib w' ∧ w.Evolves w') w := by
  have safe : (repository p).Uses fun o => ∃ o', o = .inl o' ∧ inserted o' = none :=
    Prog.uses_inl (Prog.uses_mono uses fun o ho => ⟨o, rfl, ho⟩)
  refine (checkoutDiscipline lib).wp_of_uses (checkoutSystem lib) ?_ safe hw
  rintro _ ⟨o, rfl, ho⟩ x w' - hw' -
  exact statement_performs hw' (safe_of_inserted ho)

/-! ### What the routes answer -/

/-- An attempt of the database has the terms. -/
def CheckoutWorld.Has (w : CheckoutWorld) (t : AttemptTerms) : Prop :=
  ∃ a ∈ w.payments.db.attempts, a.toAttemptTerms = t

theorem CheckoutWorld.Evolves.has {t : AttemptTerms} (ev : w.Evolves w') (h : w.Has t) :
    w'.Has t := by
  obtain ⟨a, ha, rfl⟩ := h
  exact ev.attempts a ha

/-- The request carries the capability of the attempt. -/
def Carries (lib : Libraries) (request : CheckoutRequest) (a : AttemptTerms) : Prop :=
  ∃ capability, request.capability = some capability ∧ isCheckoutCapability capability = true ∧
    a.checkoutCapabilityHash = some (lib.sha256 capability)

theorem carries_of_hash {request : CheckoutRequest} {a : AttemptTerms} {h : Hash}
    (requested : requestCapabilityHash lib request.capability = some h)
    (stored : a.checkoutCapabilityHash = some h) : Carries lib request a := by
  unfold requestCapabilityHash at requested
  split at requested
  · rename_i capability present
    split at requested
    · rename_i formed
      cases requested
      exact ⟨capability, present, formed, stored⟩
    · cases requested
  · cases requested

/-- The link and the quote that a request names, and the key that it has. -/
structure Named (w : CheckoutWorld) (linkId : LinkId) (input : AttemptInput) (intentId : IntentId)
    (payer : Address) (chainId : ChainId) (key : String) : Prop where
  intent : ∃ i ∈ w.payments.db.intents, i.id = intentId ∧ i.linkId = some linkId
  quote : ∃ q ∈ w.quotes, q.id = input.quoteId ∧ q.intentId = intentId ∧ q.payer = payer ∧
    q.sourceChainId = chainId
  key : requestIdempotencyKey input.idempotencyKey = some key

theorem Named.evolves {linkId : LinkId} {input : AttemptInput} {intentId : IntentId}
    {payer : Address} {chainId : ChainId} {key : String} (ev : w.Evolves w')
    (h : Named w linkId input intentId payer chainId key) :
    Named w' linkId input intentId payer chainId key where
  intent := by
    obtain ⟨i, hi, id, link⟩ := h.intent
    obtain ⟨i', hi', terms⟩ := ev.intents i hi
    exact ⟨i', hi', (congrArg (·.id) terms).trans id, (congrArg (·.linkId) terms).trans link⟩
  quote := by
    obtain ⟨q, hq, rest⟩ := h.quote
    exact ⟨q, ev.quotes q hq, rest⟩
  key := h.key

/-- The attempt is one that the request may be about. -/
def About (w : CheckoutWorld) (request : CheckoutRequest) (a : AttemptTerms) : Prop :=
  match request with
  | .create linkId input =>
    Named w linkId input a.intentId a.payerAddress a.sourceChainId a.idempotencyKey
  | .register attemptId _ _ _ => a.id = attemptId
  | .read attemptId _ _ => a.id = attemptId
  | .cancel attemptId _ => a.id = attemptId

/-- The request names the quote of the attempt. -/
def NamesQuoteOf (request : CheckoutRequest) (a : AttemptTerms) : Prop :=
  match request with
  | .create _ input => a.quoteId = input.quoteId
  | _ => False

/-- The attempt exists, the request may be about it, and carries its capability. -/
structure Right (lib : Libraries) (w : CheckoutWorld) (request : CheckoutRequest)
    (a : AttemptTerms) : Prop where
  has : w.Has a
  about : About w request a
  carries : Carries lib request a

theorem Right.evolves {request : CheckoutRequest} {a : AttemptTerms} (ev : w.Evolves w')
    (h : Right lib w request a) : Right lib w' request a where
  has := ev.has h.has
  about := by
    cases request with
    | create linkId input => exact Named.evolves ev h.about
    | register attemptId linkId capability txHash => exact h.about
    | read attemptId linkId capability => exact h.about
    | cancel attemptId capability => exact h.about
  carries := h.carries

/-- What an answer says is so; a first answer is about the quote that the request names. -/
def RightAnswer (lib : Libraries) (w : CheckoutWorld) (request : CheckoutRequest) :
    CheckoutResponse → Prop
  | .created a => Right lib w request a.toAttemptTerms ∧ NamesQuoteOf request a.toAttemptTerms
  | .replayed a => Right lib w request a.toAttemptTerms
  | .attempt a => Right lib w request a.toAttemptTerms
  | .canceled id => ∃ a, a.id = id ∧ Right lib w request a
  | .refused _ => True

/-- The outcome of a route. -/
def RightOutcome (lib : Libraries) (request : CheckoutRequest) :
    Except String CheckoutResponse → CheckoutWorld → Prop
  | .ok response, w => RightAnswer lib w request response
  | .error _, _ => True

/-! ### Reading and writing attempts -/

theorem wp_getAttemptByIdempotency {intentId : IntentId} {payer : Address} {chainId : ChainId}
    {key : String} {k : Option PaymentAttempt → Route α}
    {Q : Except String α → CheckoutWorld → Prop} (hw : Consistent lib w)
    (found : ∀ a w', w.Evolves w' → Consistent lib w' → w'.Has a.toAttemptTerms →
      a.intentId = intentId → a.payerAddress = payer → a.sourceChainId = chainId →
      a.idempotencyKey = key → (k (some a)).wp lib me Q w')
    (missing : ∀ w', w.Evolves w' → Consistent lib w' → (k none).wp lib me Q w') :
    Route.wp ((repository (getAttemptByIdempotency intentId payer chainId key)).bind k) lib me Q
      w := by
  refine wp_statement hw (safe_of_inserted rfl) fun w' ev hw' => ?_
  cases read : w.payments.db.attempts.find? fun a => a.intentId == intentId &&
      a.payerAddress == payer && a.sourceChainId == chainId && a.idempotencyKey == key with
  | none =>
    simp only [RepositoryOp.exec, read]
    exact missing w' ev hw'
  | some a =>
    simp only [RepositoryOp.exec, read]
    have matched := Table.of_find? read
    simp only [Bool.and_eq_true, beq_iff_eq] at matched
    obtain ⟨⟨⟨intent, payer⟩, chain⟩, key⟩ := matched
    exact found a w' ev hw' (ev.has ⟨a, Table.mem_of_find? read, rfl⟩) intent payer chain key

theorem wp_getCheckoutAttempt {id : AttemptId} {h : Hash} {k : Option PaymentAttempt → Route α}
    {Q : Except String α → CheckoutWorld → Prop} (hw : Consistent lib w)
    (found : ∀ a w', w.Evolves w' → Consistent lib w' → w'.Has a.toAttemptTerms → a.id = id →
      a.checkoutCapabilityHash = some h → (k (some a)).wp lib me Q w')
    (missing : ∀ w', w.Evolves w' → Consistent lib w' → (k none).wp lib me Q w') :
    Route.wp ((repository (getCheckoutAttempt id h)).bind k) lib me Q w := by
  refine wp_statement hw (safe_of_inserted rfl) fun w' ev hw' => ?_
  cases read : w.payments.db.attempts.find? fun a =>
      a.id == id && a.checkoutCapabilityHash == some h with
  | none =>
    simp only [RepositoryOp.exec, read]
    exact missing w' ev hw'
  | some a =>
    simp only [RepositoryOp.exec, read]
    have matched := Table.of_find? read
    simp only [Bool.and_eq_true, beq_iff_eq] at matched
    exact found a w' ev hw' (ev.has ⟨a, Table.mem_of_find? read, rfl⟩) matched.1 matched.2

/-- An attempt that was inserted is the one that is read back. -/
theorem wp_insertAttempt {attempt : AttemptTerms} {key : String} {access : CheckoutAccess}
    (hw : Consistent lib w)
    (proven : Proven lib w (attempt.requested key (some access)) access.capabilityHash) :
    (repository (insertAttempt attempt key (some access))).wp lib me
      (fun r w' => (Consistent lib w' ∧ w.Evolves w') ∧ ∀ a, r = .ok a →
        w'.Has a.toAttemptTerms ∧ a.toAttemptTerms = attempt.requested key (some access)) w := by
  have safe : Safe lib (.insertAttempt (attempt.requested key (some access))) w := by
    intro t ht h hash
    cases ht
    obtain rfl : access.capabilityHash = h := Option.some.inj hash
    exact proven
  refine wp_statement hw safe fun w₁ ev₁ hw₁ => ?_
  have since := (evolves_statement _ w).trans ev₁
  cases done : w.payments.db.insertAttempt (attempt.requested key (some access)) with
  | none =>
    simp only [RepositoryOp.exec, done, RepositoryOp.commitBatch]
    refine ⟨⟨hw₁, since⟩, fun a ha => ?_⟩
    cases ha
  | some db =>
    obtain ⟨-, row, terms, rows⟩ := insertAttempt_rows done
    have stored : w₁.Has (attempt.requested key (some access)) := by
      refine ev₁.has ⟨row, ?_, terms⟩
      simp only [RepositoryOp.exec, done, RepositoryOp.commitBatch]
      exact (Table.mem_of_rows_append rows).2 (.inr rfl)
    simp only [RepositoryOp.exec, done, RepositoryOp.commitBatch]
    refine wp_statement hw₁ (safe_of_inserted rfl) fun w₂ ev₂ hw₂ => ?_
    have since₂ := since.trans ev₂
    cases read : w₁.payments.db.attempts.find? fun a => a.id == attempt.id with
    | none =>
      simp only [RepositoryOp.exec, read]
      refine ⟨⟨hw₂, since₂⟩, fun a ha => ?_⟩
      cases ha
    | some a =>
      simp only [RepositoryOp.exec, read]
      refine ⟨⟨hw₂, since₂⟩, fun a' ha' => ?_⟩
      obtain rfl := Except.ok.inj ha'
      obtain ⟨r, hr, same⟩ := stored
      have id : a.id = attempt.id := by simpa using Table.of_find? read
      obtain rfl := attempt_eq hr (Table.mem_of_find? read)
        ((congrArg (·.id) same).trans id.symm)
      exact ⟨ev₂.has ⟨r, hr, rfl⟩, same⟩

/-! ### The routes -/

section Create

variable {linkId : LinkId} {input : AttemptInput} {intent : PaymentIntent} {quote : Quoted}
  {key : String} {h : Hash}

theorem rightAnswer_answerReplay {a : PaymentAttempt} (has : w.Has a.toAttemptTerms)
    (named : Named w linkId input a.intentId a.payerAddress a.sourceChainId a.idempotencyKey)
    (requested : requestCapabilityHash lib input.capability = some h) :
    RightAnswer lib w (.create linkId input) (answerReplay a h) := by
  unfold answerReplay
  split
  · rename_i stored
    exact ⟨has, named, carries_of_hash requested stored⟩
  · trivial

/-- The look for an attempt of the same key, and the answer with it. -/
theorem wp_replay {k : Route CheckoutResponse} (hw : Consistent lib w)
    (named : Named w linkId input intent.id quote.payer quote.sourceChainId key)
    (requested : requestCapabilityHash lib input.capability = some h)
    (missing : ∀ w', w.Evolves w' → Consistent lib w' →
      k.wp lib me (RightOutcome lib (.create linkId input)) w') :
    Route.wp ((repository (getAttemptByIdempotency intent.id quote.payer quote.sourceChainId
        key)).bind fun existing => match existing with
          | some replay => .ret (answerReplay replay h)
          | none => k) lib me (RightOutcome lib (.create linkId input)) w := by
  refine wp_getAttemptByIdempotency hw (fun a w' ev hw' has id payer chain same => ?_) missing
  refine rightAnswer_answerReplay has ?_ requested
  rw [id, payer, chain, same]
  exact named.evolves ev

/-- What is known of an attempt that is about to be inserted. -/
structure Ready (lib : Libraries) (w : CheckoutWorld) (linkId : LinkId) (input : AttemptInput)
    (intent : PaymentIntent) (quote : Quoted) (key : String) (h : Hash) : Prop where
  named : Named w linkId input intent.id quote.payer quote.sourceChainId key
  requested : requestCapabilityHash lib input.capability = some h
  mem : quote ∈ w.quotes
  quoteId : quote.id = input.quoteId
  quoteIntent : quote.intentId = intent.id

theorem Ready.evolves (ev : w.Evolves w') (ready : Ready lib w linkId input intent quote key h) :
    Ready lib w' linkId input intent quote key h :=
  { ready with named := ready.named.evolves ev, mem := ev.quotes _ ready.mem }

theorem wp_storeAttempt {attempt : AttemptTerms} {access : CheckoutAccess} (hw : Consistent lib w)
    (ready : Ready lib w linkId input intent quote key access.capabilityHash)
    (intentId : attempt.intentId = intent.id) (payer : attempt.payerAddress = quote.payer)
    (chain : attempt.sourceChainId = quote.sourceChainId) (quoteId : attempt.quoteId = quote.id)
    (proven : Proven lib w (attempt.requested key (some access)) access.capabilityHash) :
    (storeAttempt intent quote key access attempt).wp lib me
      (RightOutcome lib (.create linkId input)) w := by
  refine (Discipline.wp_tryCatch _ _ _ _ _ _).2 ?_
  refine Discipline.wp_seq _ _ (wp_insertAttempt hw proven) ?_ ?_
  · intro a w' post
    obtain ⟨⟨-, ev⟩, stored⟩ := post
    obtain ⟨has, terms⟩ := stored a rfl
    have named := ready.named.evolves ev
    show RightAnswer lib w' _ (.created a)
    refine ⟨⟨has, ?_, ?_⟩, ?_⟩
    · show Named w' linkId input _ _ _ _
      rw [terms]
      show Named w' linkId input attempt.intentId attempt.payerAddress attempt.sourceChainId key
      rw [intentId, payer, chain]
      exact named
    · rw [terms]
      exact carries_of_hash ready.requested rfl
    · show a.quoteId = input.quoteId
      rw [terms]
      exact quoteId.trans ready.quoteId
  · intro m w' post
    obtain ⟨⟨hw', ev⟩, -⟩ := post
    refine wp_replay hw' (ready.named.evolves ev) ready.requested fun w₂ ev₂ hw₂ => ?_
    refine wp_perform hw₂ (safe_of_inserted rfl) fun w₃ ev₃ hw₃ => ?_
    split <;> trivial

/-- The intent is the one that was read. -/
theorem attemptIntent_cases (intent : PaymentIntent) (amount : Nat) :
    (∃ e, attemptIntent intent amount = .error e) ∨
      ∃ payable, attemptIntent intent amount = .ok payable ∧ payable.id = intent.id := by
  unfold attemptIntent
  split
  · split
    · exact .inl ⟨_, rfl⟩
    · exact .inr ⟨_, rfl, rfl⟩
  · split
    · exact .inl ⟨_, rfl⟩
    · exact .inr ⟨_, rfl, rfl⟩

theorem wp_authorizeAndStore {signature : Hash} {payerUid : Option Uid} (hw : Consistent lib w)
    (ready : Ready lib w linkId input intent quote key h) :
    (authorizeAndStore lib linkId intent quote key h signature payerUid).wp lib me
      (RightOutcome lib (.create linkId input)) w := by
  refine wp_perform hw (safe_of_inserted rfl) fun w₁ ev₁ hw₁ => ?_
  split
  · trivial
  dsimp only
  split
  · trivial
  rename_i verified
  refine wp_issue hw₁ fun x₂ w₂ ev₂ hw₂ => ?_
  split
  · trivial
  cases attemptIntent_cases intent quote.settlementAmountAtomic with
  | inl refused =>
    obtain ⟨e, refused⟩ := refused
    rw [refused]
    trivial
  | inr payable =>
    obtain ⟨payable, accepted, id⟩ := payable
    rw [accepted]
    refine wp_issue hw₂ fun x₃ w₃ ev₃ hw₃ => ?_
    have ready₂ := (ready.evolves ev₁).evolves ev₂
    have ready₃ := ready₂.evolves ((evolves_issue _ x₃ w₂).trans ev₃)
    cases signed : x₃.authorization with
    | none =>
      simp only [CheckoutOp.exec, signed, Option.map_none]
      trivial
    | some authorization =>
      simp only [CheckoutOp.exec, signed, Option.map_some]
      have recovered := beq_iff_eq.1 ((Bool.not_eq_false _).mp verified)
      obtain ⟨i, hi, same, link⟩ := ready₃.named.intent
      refine wp_storeAttempt hw₃ ready₃ id rfl rfl rfl ⟨linkId, quote, ready₃.mem, i, hi, ?_⟩
      exact { intent := same.trans id.symm, link, quote := rfl
              quoteIntent := ready.quoteIntent.trans id.symm, payer := rfl, chain := rfl
              signed := ⟨signature, rfl, recovered⟩ }

theorem wp_attemptOfIntent (hw : Consistent lib w)
    (linked : ∃ i ∈ w.payments.db.intents, i.id = intent.id ∧ i.linkId = some linkId) :
    (attemptOfIntent lib linkId intent input).wp lib me (RightOutcome lib (.create linkId input))
      w := by
  unfold attemptOfIntent
  split
  · trivial
  rename_i key requestedKey
  split
  swap
  · trivial
  rename_i h signature requested proof
  refine wp_issue hw fun x₁ w₁ ev₁ hw₁ => ?_
  cases read : (w.quotes.find? fun q => q.id == input.quoteId).filter
      fun quote => quote.intentId == intent.id with
  | none =>
    simp only [CheckoutOp.exec, read]
    trivial
  | some quote =>
    simp only [CheckoutOp.exec, read]
    obtain ⟨found, ofIntent⟩ := Option.filter_eq_some_iff.1 read
    have mem : quote ∈ w₁.quotes := ev₁.quotes _ (Table.mem_of_find? found)
    have id : quote.id = input.quoteId := by simpa using Table.of_find? found
    have named : Named w linkId input intent.id quote.payer quote.sourceChainId key :=
      ⟨linked, ⟨quote, Table.mem_of_find? found, id, beq_iff_eq.1 ofIntent, rfl, rfl⟩,
        requestedKey⟩
    have ready : Ready lib w₁ linkId input intent quote key h :=
      ⟨named.evolves ev₁, requested, mem, id, beq_iff_eq.1 ofIntent⟩
    exact wp_replay hw₁ ready.named requested fun w₂ ev₂ hw₂ =>
      wp_authorizeAndStore hw₂ (ready.evolves ev₂)

theorem wp_releaseOf (current : Option PaymentIntent) (hw : Consistent lib w) :
    (releaseOf current).wp lib me (fun _ w' => Consistent lib w' ∧ w.Evolves w') w := by
  cases current with
  | none => exact ⟨hw, .rfl w⟩
  | some intent =>
    refine wp_repository ?_ hw
    exact ⟨rfl, fun _ => ⟨rfl, fun _ => trivial⟩⟩

theorem wp_createAttempt (hw : Consistent lib w) :
    (createAttempt lib linkId input).wp lib me (RightOutcome lib (.create linkId input)) w := by
  refine wp_issue hw fun x₁ w₁ ev₁ hw₁ => ?_
  split
  · trivial
  refine wp_issue hw₁ fun x₂ w₂ ev₂ hw₂ => ?_
  refine Discipline.wp_seq _ _ (wp_releaseOf _ hw₂) ?_ fun m w' post => trivial
  intro u w₃ post
  obtain ⟨hw₃, -⟩ := post
  refine wp_issue hw₃ fun x₄ w₄ ev₄ hw₄ => ?_
  cases read : w₃.payments.db.intents.find? fun i => i.linkId == some linkId with
  | none =>
    simp only [CheckoutOp.exec, read]
    trivial
  | some intent =>
    simp only [CheckoutOp.exec, read]
    obtain ⟨i, hi, terms⟩ := ev₄.intents intent (Table.mem_of_find? read)
    have link : intent.linkId = some linkId := by simpa using Table.of_find? read
    exact wp_attemptOfIntent hw₄
      ⟨i, hi, congrArg (·.id) terms, (congrArg (·.linkId) terms).trans link⟩

end Create

section Access

variable {attemptId : AttemptId} {linkId : Option LinkId} {capability : Option Text} {h : Hash}

theorem wp_visible (hw : Consistent lib w) :
    (visible attemptId h linkId).wp lib me (fun _ w' => Consistent lib w' ∧ w.Evolves w') w := by
  cases linkId with
  | none => exact ⟨hw, .rfl w⟩
  | some linkId =>
    refine wp_issue hw fun x₁ w₁ ev₁ hw₁ => ?_
    refine wp_perform hw₁ (safe_of_inserted rfl) fun w₂ ev₂ hw₂ => ?_
    exact ⟨hw₂, ((evolves_issue _ x₁ w).trans ev₁).trans ev₂⟩

theorem wp_watchUnverified {request : CheckoutRequest} {h : Hash} (hw : Consistent lib w) :
    (watchUnverified attemptId h).wp lib me (RightOutcome lib request) w := by
  refine wp_getCheckoutAttempt hw (fun a w₁ ev₁ hw₁ has id stored => ?_) fun w₁ ev₁ hw₁ => trivial
  refine wp_issue hw₁ fun x₂ w₂ ev₂ hw₂ => ?_
  split <;> trivial

/-- A registration that changes a row is answered with the attempt as it is then. -/
theorem wp_registerVerified {txHash : Hash} (hw : Consistent lib w)
    (requested : requestCapabilityHash lib capability = some h) :
    (registerVerified attemptId h txHash).wp lib me
      (RightOutcome lib (.register attemptId linkId capability (some txHash))) w := by
  refine wp_statement hw (safe_of_inserted rfl) fun w₁ ev₁ hw₁ => ?_
  cases (RepositoryOp.exec w.payments (.registerSourceTransaction attemptId h txHash)).1 with
  | none => trivial
  | some changed =>
    cases changed with
    | false => trivial
    | true =>
      refine wp_getCheckoutAttempt hw₁ (fun a w₂ ev₂ hw₂ has id stored => ?_)
        fun w₂ ev₂ hw₂ => trivial
      refine wp_issue hw₂ fun x₃ w₃ ev₃ hw₃ => ?_
      split
      · refine wp_issue hw₃ fun x₄ w₄ ev₄ hw₄ => ?_
        split
        · have later := ((evolves_issue _ x₃ w₂).trans ev₃).trans
            ((evolves_issue _ x₄ w₃).trans ev₄)
          exact Right.evolves later ⟨has, id, carries_of_hash requested stored⟩
        · trivial
      · trivial

theorem wp_registerAttempt {txHash : Option Hash} (hw : Consistent lib w) :
    (registerAttempt lib attemptId linkId capability txHash).wp lib me
      (RightOutcome lib (.register attemptId linkId capability txHash)) w := by
  refine wp_issue hw fun x₁ w₁ ev₁ hw₁ => ?_
  split
  · trivial
  cases txHash with
  | none => trivial
  | some txHash =>
    cases requested : requestCapabilityHash lib capability with
    | none => trivial
    | some h =>
      refine Discipline.wp_seq _ _ (wp_visible hw₁) ?_ fun m w' post => trivial
      intro seen w₂ post
      obtain ⟨hw₂, -⟩ := post
      cases seen with
      | false => trivial
      | true =>
        refine wp_issue hw₂ fun x₃ w₃ ev₃ hw₃ => ?_
        cases evidence : x₃.evidence with
        | mismatch =>
          simp only [CheckoutOp.exec, evidence]
          trivial
        | unreachable =>
          simp only [CheckoutOp.exec, evidence]
          trivial
        | notAvailable =>
          simp only [CheckoutOp.exec, evidence]
          exact wp_watchUnverified hw₃
        | verified =>
          simp only [CheckoutOp.exec, evidence]
          exact wp_registerVerified hw₃ requested

theorem wp_ofLink {a : PaymentAttempt} (hw : Consistent lib w) :
    (ofLink linkId a).wp lib me (fun _ w' => Consistent lib w' ∧ w.Evolves w') w := by
  cases linkId with
  | none => exact ⟨hw, .rfl w⟩
  | some linkId =>
    refine wp_issue hw fun x₁ w₁ ev₁ hw₁ => ?_
    exact ⟨hw₁, (evolves_issue _ x₁ w).trans ev₁⟩

theorem wp_readAttempt (hw : Consistent lib w) :
    (readAttempt lib attemptId linkId capability).wp lib me
      (RightOutcome lib (.read attemptId linkId capability)) w := by
  refine wp_issue hw fun x₁ w₁ ev₁ hw₁ => ?_
  split
  · trivial
  cases requested : requestCapabilityHash lib capability with
  | none => trivial
  | some h =>
    refine wp_getCheckoutAttempt hw₁ (fun a w₂ ev₂ hw₂ has id stored => ?_)
      fun w₂ ev₂ hw₂ => trivial
    refine Discipline.wp_seq _ _ (wp_ofLink hw₂) ?_ fun m w' post => trivial
    intro seen w₃ post
    obtain ⟨hw₃, ev₃⟩ := post
    cases seen with
    | false => trivial
    | true =>
      refine wp_perform hw₃ (safe_of_inserted rfl) fun w₄ ev₄ hw₄ => ?_
      exact Right.evolves (ev₃.trans ev₄) ⟨has, id, carries_of_hash requested stored⟩

theorem wp_cancelCheckoutAttempt (hw : Consistent lib w) :
    (cancelCheckoutAttempt lib attemptId capability).wp lib me
      (RightOutcome lib (.cancel attemptId capability)) w := by
  unfold cancelCheckoutAttempt
  cases requested : requestCapabilityHash lib capability with
  | none => trivial
  | some h =>
    refine wp_getCheckoutAttempt hw (fun a w₁ ev₁ hw₁ has id stored => ?_)
      fun w₁ ev₁ hw₁ => trivial
    refine wp_perform hw₁ (safe_of_inserted rfl) fun w₂ ev₂ hw₂ => ?_
    have later := (evolves_statement (.cancelAttempt attemptId h) w₁).trans ev₂
    split
    · exact ⟨a.toAttemptTerms, id, later.has has, id, carries_of_hash requested stored⟩
    · trivial

end Access

theorem wp_routes (request : CheckoutRequest) (hw : Consistent lib w) :
    (routes lib request).wp lib me (RightOutcome lib request) w := by
  cases request with
  | create linkId input => exact wp_createAttempt hw
  | register attemptId linkId capability txHash => exact wp_registerAttempt hw
  | read attemptId linkId capability => exact wp_readAttempt hw
  | cancel attemptId capability => exact wp_cancelCheckoutAttempt hw

/-- An answer is right. -/
def AnsweredRight (lib : Libraries) : Except String Answered → CheckoutWorld → Prop
  | .ok answered, w => RightAnswer lib w answered.request answered.response
  | .error _, _ => True

theorem surroundings_keep (e : CheckoutSurroundings) (hw : Consistent lib w) :
    (checkoutDiscipline lib).Moves w (e.move w) := by
  cases e with
  | tick clock =>
    have same := CheckoutWorld.Evolves.rfl w
    exact ⟨⟨hw, same.intents, same.attempts, same.quotes⟩, fun _ => trivial⟩
  | statement o unproven =>
    refine ⟨⟨consistent_statement hw ?_, evolves_statement o w⟩, fun _ => trivial⟩
    intro t ht h hash
    rw [ht] at unproven
    cases unproven.symm.trans hash
  | quote q =>
    have kept : w.Evolves (w.insertQuote q) ∧
        (w.insertQuote q).payments.db.attempts = w.payments.db.attempts := by
      unfold CheckoutWorld.insertQuote
      split
      · rename_i db quotes inserted added
        obtain ⟨intents, attempts⟩ := insertQuote_same inserted
        refine ⟨⟨?_, ?_, fun q' hq' => ?_⟩, attempts⟩
        · exact fun i hi => ⟨i, by rw [intents]; exact hi, rfl⟩
        · exact fun a ha => ⟨a, by rw [attempts]; exact ha, rfl⟩
        · exact (Table.mem_of_rows_append (Table.insert_rows added).1).2 (.inl hq')
      · exact ⟨.rfl w, rfl⟩
    refine ⟨⟨?_, kept.1⟩, fun _ => trivial⟩
    intro a ha h hash
    exact Proven.evolves kept.1 (hw a (kept.2 ▸ ha) h hash)

theorem checkout_obeys :
    (checkoutDiscipline lib).Obeys (checkoutSystem lib) (AnsweredRight lib) where
  env e w hw _ := surroundings_keep e hw
  call request i w w' _ _ later := by
    refine Discipline.wp_seq _ _ (wp_routes request later.inv) ?_ fun m w' post => trivial
    exact fun response w' right => right

theorem consistent_initial (clock : Timestamp) : Consistent lib (.initial clock) :=
  fun a ha => absurd ha (Table.not_mem_empty a)

/-! ### Registering and canceling -/

/-- The statements that a route may perform, for the hash of the capability that it was given. -/
def ForCapability (h : Option Hash) : CheckoutStep → Prop
  | .inl (.registerSourceTransaction _ capabilityHash _) => h = some capabilityHash
  | .inl (.cancelAttempt _ capabilityHash) => h = some capabilityHash
  | .inl .now => True
  | .inl (.selectIntent _) => True
  | .inl (.selectAttempt _) => True
  | .inl (.selectCheckoutAttempt _ _) => True
  | .inl (.selectAttemptByKey _ _ _ _) => True
  | .inl (.insertAttempt _) => True
  | .inl (.releaseExpiredPayerDefinedAmount _ _) => True
  | .inl _ => False
  | .inr _ => True

section Uses

open Prog

variable {h : Option Hash}

theorem uses_repository {p : Repository α} (uses : p.Uses fun o => ForCapability h (.inl o)) :
    (repository p).Uses (ForCapability h) :=
  uses_inl uses

theorem uses_issue (o : CheckoutOp) : (issue o).Uses (ForCapability h) :=
  (uses_perform _ _).2 trivial

theorem uses_ite {c : Prop} [Decidable c] {p q : Route α} (hp : p.Uses (ForCapability h))
    (hq : q.Uses (ForCapability h)) : (if c then p else q).Uses (ForCapability h) := by
  split
  · exact hp
  · exact hq

theorem uses_getCheckoutAttempt (id : AttemptId) (capabilityHash : Hash) :
    (repository (getCheckoutAttempt id capabilityHash)).Uses (ForCapability h) :=
  uses_repository ((uses_perform _ _).2 trivial)

theorem uses_getAttemptByIdempotency (intentId : IntentId) (payer : Address) (chainId : ChainId)
    (key : String) :
    (repository (getAttemptByIdempotency intentId payer chainId key)).Uses (ForCapability h) :=
  uses_repository ((uses_perform _ _).2 trivial)

theorem uses_getPaymentIntent (id : IntentId) :
    (repository (getPaymentIntent id)).Uses (ForCapability h) :=
  uses_repository ((uses_perform _ _).2 trivial)

theorem uses_storeAttempt (intent : PaymentIntent) (quote : Quoted) (key : String)
    (access : CheckoutAccess) (attempt : AttemptTerms) :
    (storeAttempt intent quote key access attempt).Uses (ForCapability h) := by
  refine uses_tryCatch (uses_bind (uses_repository ?_) fun _ => trivial) fun m => ?_
  · refine uses_bind ((uses_perform _ _).2 trivial) fun done => ?_
    cases done with
    | none => trivial
    | some u =>
      refine uses_bind ((uses_perform _ _).2 trivial) fun stored => ?_
      cases stored <;> trivial
  · refine uses_bind (uses_getAttemptByIdempotency ..) fun existing => ?_
    cases existing with
    | some replay => trivial
    | none =>
      refine uses_bind (uses_getPaymentIntent _) fun current => ?_
      exact uses_ite trivial trivial

theorem uses_authorizeAndStore (linkId : LinkId) (intent : PaymentIntent) (quote : Quoted)
    (key : String) (capabilityHash signature : Hash) (payerUid : Option Uid) :
    (authorizeAndStore lib linkId intent quote key capabilityHash signature payerUid).Uses
      (ForCapability h) := by
  refine uses_bind (uses_repository ((uses_perform _ _).2 trivial)) fun now => ?_
  refine uses_ite trivial (uses_ite trivial (uses_bind (uses_issue _) fun limited => ?_))
  refine uses_ite trivial (uses_bind (uses_ofExcept _ _) fun payable => ?_)
  refine uses_bind (uses_issue _) fun authorized => ?_
  cases authorized with
  | none => trivial
  | some attempt => exact uses_storeAttempt ..

theorem uses_attemptOfIntent (linkId : LinkId) (intent : PaymentIntent) (input : AttemptInput) :
    (attemptOfIntent lib linkId intent input).Uses (ForCapability h) := by
  unfold attemptOfIntent
  split
  · trivial
  split
  swap
  · trivial
  refine uses_bind (uses_issue _) fun found => ?_
  cases Option.filter _ found with
  | none => trivial
  | some quote =>
    refine uses_bind (uses_getAttemptByIdempotency ..) fun existing => ?_
    cases existing with
    | some replay => trivial
    | none => exact uses_authorizeAndStore ..

theorem uses_createAttempt (linkId : LinkId) (input : AttemptInput) :
    (createAttempt lib linkId input).Uses (ForCapability h) := by
  refine uses_bind (uses_issue _) fun limited => uses_ite trivial ?_
  refine uses_bind (uses_issue _) fun current => ?_
  refine uses_bind ?_ fun _ => uses_bind (uses_issue _) fun found => ?_
  · cases current with
    | none => trivial
    | some intent =>
      exact uses_repository (uses_bind ((uses_perform _ _).2 trivial) fun now =>
        (uses_perform _ _).2 trivial)
  · cases found with
    | none => trivial
    | some intent => exact uses_attemptOfIntent ..

theorem uses_registerAttempt (attemptId : AttemptId) (linkId : Option LinkId)
    (capability : Option Text) (txHash : Option Hash) :
    (registerAttempt lib attemptId linkId capability txHash).Uses
      (ForCapability (requestCapabilityHash lib capability)) := by
  refine uses_bind (uses_issue _) fun limited => uses_ite trivial ?_
  cases txHash with
  | none => trivial
  | some txHash =>
    cases requested : requestCapabilityHash lib capability with
    | none => trivial
    | some capabilityHash =>
      refine uses_bind ?_ fun seen => uses_ite ?_ trivial
      · cases linkId with
        | none => trivial
        | some linkId =>
          exact uses_bind (uses_issue _) fun linked =>
            uses_bind (uses_getCheckoutAttempt ..) fun _ => trivial
      · refine uses_bind (uses_issue _) fun evidence => ?_
        cases evidence with
        | mismatch => trivial
        | unreachable => trivial
        | notAvailable =>
          refine uses_bind (uses_getCheckoutAttempt ..) fun current => ?_
          cases current with
          | none => trivial
          | some attempt => exact uses_bind (uses_issue _) fun _ => uses_ite trivial trivial
        | verified =>
          refine uses_bind (uses_repository ?_) fun registered => ?_
          · refine uses_bind ((uses_perform _ _).2 rfl) fun changed => ?_
            cases changed with
            | none => trivial
            | some changed =>
              cases changed with
              | false => trivial
              | true => exact (uses_perform _ _).2 trivial
          · cases registered with
            | none => trivial
            | some attempt =>
              exact uses_bind (uses_issue _) fun _ =>
                uses_ite (uses_bind (uses_issue _) fun _ => uses_ite trivial trivial) trivial

theorem uses_readAttempt (attemptId : AttemptId) (linkId : Option LinkId)
    (capability : Option Text) :
    (readAttempt lib attemptId linkId capability).Uses (ForCapability h) := by
  refine uses_bind (uses_issue _) fun limited => uses_ite trivial ?_
  split
  · trivial
  refine uses_bind (uses_getCheckoutAttempt ..) fun found => ?_
  cases found with
  | none => trivial
  | some attempt =>
    refine uses_bind ?_ fun seen => uses_ite (uses_bind (uses_getPaymentIntent _) ?_) trivial
    · cases linkId with
      | none => trivial
      | some linkId => exact uses_bind (uses_issue _) fun _ => trivial
    · exact fun _ => trivial

theorem uses_cancelCheckoutAttempt (attemptId : AttemptId) (capability : Option Text) :
    (cancelCheckoutAttempt lib attemptId capability).Uses
      (ForCapability (requestCapabilityHash lib capability)) := by
  unfold cancelCheckoutAttempt
  cases requested : requestCapabilityHash lib capability with
  | none => trivial
  | some capabilityHash =>
    refine uses_bind (uses_getCheckoutAttempt ..) fun current => ?_
    cases current with
    | none => trivial
    | some attempt =>
      exact uses_bind (uses_repository ((uses_perform _ _).2 rfl)) fun _ => uses_ite trivial trivial

theorem uses_routes (request : CheckoutRequest) :
    ((checkoutSystem lib).body request).Uses
      (ForCapability (requestCapabilityHash lib request.capability)) := by
  refine uses_bind ?_ fun _ => trivial
  cases request with
  | create linkId input => exact uses_createAttempt ..
  | register attemptId linkId capability txHash => exact uses_registerAttempt ..
  | read attemptId linkId capability => exact uses_readAttempt ..
  | cancel attemptId capability => exact uses_cancelCheckoutAttempt ..

end Uses

/-- The attempt was given a transaction, or a status other than that of one out of time. -/
def Touched (a a' : PaymentAttempt) : Prop :=
  a'.sourceTxHash ≠ a.sourceTxHash ∨ (a'.status ≠ a.status ∧ a'.status ≠ .expired)

theorem not_touched_self (a : PaymentAttempt) : ¬ Touched a a := by
  rintro (changed | ⟨changed, -⟩)
  · exact changed rfl
  · exact changed rfl

/-- What became of a row that an update may have matched. -/
theorem eq_of_rewritten {db : Db} {t : Table PaymentAttempt} {p : PaymentAttempt → Bool}
    {f : PaymentAttempt → PaymentAttempt} (rows : t.rows = db.attempts.rewritten p f)
    (keeps : ∀ a, (f a).id = a.id) {a a' : PaymentAttempt} (ha : a ∈ db.attempts) (ha' : a' ∈ t)
    (id : a'.id = a.id) : a' = a ∨ (p a = true ∧ a' = f a) := by
  obtain ⟨r, hr, rfl⟩ := (Table.mem_of_rewritten rows).1 ha'
  split at id
  · rename_i matched
    obtain rfl := attempt_eq hr ha ((keeps r).symm.trans id)
    exact .inr ⟨matched, if_pos matched⟩
  · rename_i unmatched
    obtain rfl := attempt_eq hr ha id
    exact .inl (if_neg unmatched)

/-- A statement of a route touches an attempt only with the hash of its capability. -/
theorem capability_of_touched {o : CheckoutStep} {h : Option Hash} {x : CheckoutOutside}
    (permitted : ForCapability h o) {a a' : PaymentAttempt} (ha : a ∈ w.payments.db.attempts)
    (ha' : a' ∈ (w.exec lib x o).2.payments.db.attempts) (id : a'.id = a.id)
    (touched : Touched a a') : ∃ capabilityHash, h = some capabilityHash ∧
      a.checkoutCapabilityHash = some capabilityHash := by
  have same : (w.exec lib x o).2.payments.db = w.payments.db → False := by
    intro same
    rw [same] at ha'
    obtain rfl := attempt_eq ha' ha id
    exact not_touched_self a' touched
  rcases o with o | o
  swap
  · cases o <;> exact (same rfl).elim
  cases o with
  | insertAttempt t =>
    cases done : w.payments.db.insertAttempt t with
    | none =>
      refine (same ?_).elim
      simp only [CheckoutWorld.exec, RepositoryOp.exec, done, RepositoryOp.commitBatch]
    | some db =>
      obtain ⟨-, row, -, rows⟩ := insertAttempt_rows done
      simp only [CheckoutWorld.exec, RepositoryOp.exec, done, RepositoryOp.commitBatch] at ha'
      obtain rfl := attempt_eq ha' ((Table.mem_of_rows_append rows).2 (.inl ha)) id
      exact absurd touched (not_touched_self a')
  | releaseExpiredPayerDefinedAmount intentId nowSeconds =>
    have rows : (w.payments.db.releaseExpiredPayerDefinedAmount intentId nowSeconds).attempts.rows =
      w.payments.db.attempts.rewritten (Db.timedOut intentId nowSeconds) _ := rfl
    rcases eq_of_rewritten rows (fun _ => rfl) ha ha' id with rfl | ⟨-, rfl⟩
    · exact absurd touched (not_touched_self a')
    · rcases touched with changed | ⟨-, changed⟩
      · exact absurd rfl changed
      · exact absurd rfl changed
  | registerSourceTransaction attemptId capabilityHash txHash =>
    cases done : w.payments.db.registerSourceTransaction attemptId capabilityHash txHash with
    | none =>
      refine (same ?_).elim
      simp only [CheckoutWorld.exec, RepositoryOp.exec, done, RepositoryOp.commitReport]
    | some r =>
      simp only [CheckoutWorld.exec, RepositoryOp.exec, done, RepositoryOp.commitReport] at ha'
      simp only [Db.registerSourceTransaction, Option.bind_eq_bind, Option.bind_eq_some_iff]
        at done
      obtain ⟨attempts, updated, done⟩ := done
      obtain rfl := Option.some.inj done
      have rows := Table.update_rows updated
      rcases eq_of_rewritten rows (fun _ => rfl) ha ha' id with rfl | ⟨matched, -⟩
      · exact absurd touched (not_touched_self a')
      · simp only [Db.reportable, Bool.and_eq_true, beq_iff_eq] at matched
        exact ⟨capabilityHash, permitted, matched.1.1.2⟩
  | cancelAttempt attemptId capabilityHash =>
    have rows : (w.payments.db.cancelAttempt attemptId capabilityHash).2.attempts.rows =
      w.payments.db.attempts.rewritten (Db.cancelable attemptId capabilityHash) _ := rfl
    rcases eq_of_rewritten rows (fun _ => rfl) ha ha' id with rfl | ⟨matched, -⟩
    · exact absurd touched (not_touched_self a')
    · simp only [Db.cancelable, Bool.and_eq_true, beq_iff_eq] at matched
      exact ⟨capabilityHash, permitted, matched.1.1.1.2⟩
  | now => exact (same rfl).elim
  | selectIntent => exact (same rfl).elim
  | selectAttempt => exact (same rfl).elim
  | selectCheckoutAttempt => exact (same rfl).elim
  | selectAttemptByKey => exact (same rfl).elim
  | _ => exact permitted.elim

end

/-! ### Every run -/

section Runs

variable {lib : Libraries} {clock : Timestamp} {ls : CheckoutSchedule}

theorem sound_checkout (lib : Libraries) (clock : Timestamp) (ls : CheckoutSchedule) :
    (checkoutDiscipline lib).Sound (checkoutSystem lib) (AnsweredRight lib)
      (checkoutRun lib clock ls) :=
  Discipline.pool_sound checkout_obeys (consistent_initial clock)
    (System.along_any (S := checkoutSystem lib) _ _)

/-- The answers that were given in a run. -/
def answers (lib : Libraries) (clock : Timestamp) (ls : CheckoutSchedule) (answered : Answered) :
    Prop :=
  ∃ i : Nat, (checkoutRun lib clock ls).threads[i]? = some (.ret answered)

/-- A step of a route touches an attempt only for a request that carries its capability. -/
theorem carries_of_touched {i : Nat} {x : CheckoutOutside} {a a' : PaymentAttempt}
    (ha : a ∈ (checkoutRun lib clock ls).world.payments.db.attempts)
    (ha' : a' ∈
      (checkoutRun lib clock (ls ++ ([.step i x] : CheckoutSchedule))).world.payments.db.attempts)
    (id : a'.id = a.id) (touched : Touched a a') :
    ∃ request, (System.calls ls)[i]? = some request ∧ Carries lib request a.toAttemptTerms := by
  have last : checkoutRun lib clock (ls ++ ([.step i x] : CheckoutSchedule)) =
      (checkoutSystem lib).next (checkoutRun lib clock ls) (.step i x) :=
    System.runFrom_append _ _ ls [.step i x]
  rw [last] at ha'
  simp only [System.next] at ha'
  split at ha'
  · rename_i o k hi
    obtain ⟨request, called, uses⟩ := System.uses_run uses_routes _ _ hi
    obtain ⟨h, requested, stored⟩ := capability_of_touched uses.1 ha ha' id touched
    exact ⟨request, called, carries_of_hash requested stored⟩
  · obtain rfl := attempt_eq ha' ha id
    exact absurd touched (not_touched_self a')

/-- There is one attempt for a key; an attempt with a capability was proven by its payer; it
is told, registered and canceled for requests that carry the capability; and an answer is
about the attempt of the key that the request has, a first answer about one of the quote that
it names. -/
theorem checkout_attempts (lib : Libraries) (clock : Timestamp) (ls : CheckoutSchedule) :
    (∀ a ∈ (checkoutRun lib clock ls).world.payments.db.attempts,
      ∀ a' ∈ (checkoutRun lib clock ls).world.payments.db.attempts, a.intentId = a'.intentId →
        a.payerAddress = a'.payerAddress → a.sourceChainId = a'.sourceChainId →
          a.idempotencyKey = a'.idempotencyKey → a = a') ∧
      Consistent lib (checkoutRun lib clock ls).world ∧
      (∀ answered, answers lib clock ls answered →
        RightAnswer lib (checkoutRun lib clock ls).world answered.request answered.response) ∧
      ∀ i x, ∀ a ∈ (checkoutRun lib clock ls).world.payments.db.attempts,
        ∀ a' ∈
          (checkoutRun lib clock (ls ++ ([.step i x] : CheckoutSchedule))).world.payments.db.attempts,
          a'.id = a.id → Touched a a' → ∃ request, (System.calls ls)[i]? = some request ∧
            Carries lib request a.toAttemptTerms := by
  have sound := sound_checkout lib clock ls
  refine ⟨?_, sound.inv, ?_, ?_⟩
  · intro a ha a' ha' intent payer chain key
    refine Table.eq_of_clash ha ha' ?_
    simp [Row.clash, intent, payer, chain, key]
  · rintro answered ⟨i, ended⟩
    exact sound.threads i _ ended _ (Discipline.later_refl _ sound.inv)
  · intro i x a ha a' ha' id touched
    exact carries_of_touched ha ha' id touched

/-! One intent, two quotes of it, and a request with the same key for each. -/

def plainLibraries : Libraries where
  spelling := ⟨fun _ => [], fun _ => [], fun _ => [], fun _ => [], fun _ => []⟩
  sha256 := List.length
  hashMessage := List.length
  recoverMessageAddress _ signature := some signature
  uuidHash id := id

def openIntentInput : CreateIntentInput where
  merchant := { id := 1, ownerUid := 1, settlementWallet := 3, settlementChainId := 421614
                accountVersion := 1 }
  amount := .payerChosen
  reference := ""
  metadata := ""
  expiresAt := 1000000
  idempotencyKey := none
  mode := .live
  intentId := none
  linkId := none

def quotedOf (id : QuoteId) (amount : Nat) : Quoted where
  id
  intentId := 4
  quoteHash := id
  payer := 5
  sourceChainId := 421614
  route := .sameChain
  settlementAmountAtomic := amount
  platformFeeAtomic := 0
  cctpFeeAtomic := 0
  grossPayerAmountAtomic := amount
  feePolicyId := "free-default"
  feePolicyVersion := 1
  feeRuleId := "free-default"
  platformFeeBps := 0
  platformFeeBearer := .none
  platformFeeRecipient := none
  routeFeeCapBps := 100
  feeObservedAt := 0
  expiresAt := 120000

def inputFor (quoteId : QuoteId) : AttemptInput where
  idempotencyKey := some "key"
  capability := some (List.replicate 43 'A')
  payerProofSignature := some 5
  quoteId
  payerUid := none

def granting : CheckoutOutside where
  limited := false
  authorization := some ⟨6, 7, 8, 9, 0, 100⟩
  evidence := .verified
  enqueued := true

/-- The second request has the key of the first and names another quote. -/
def requoted : CheckoutSchedule :=
  ([.env (.statement (.createIntentAndLink openIntentInput 4 2 0) rfl),
      .env (.quote (quotedOf 10 12500000)), .env (.quote (quotedOf 11 19000000)),
      .spawn (.create 2 (inputFor 10))] : CheckoutSchedule) ++
    (List.replicate 12 (.step 0 granting) : CheckoutSchedule) ++
    ([.spawn (.create 2 (inputFor 11))] : CheckoutSchedule) ++
    (List.replicate 12 (.step 1 granting) : CheckoutSchedule)

/-- An answer to a request for an attempt is about the quote that the request names. -/
def AboutNamedQuote (answered : Answered) : Prop :=
  match answered.request, answered.response with
  | .create _ input, .created a => a.quoteId = input.quoteId
  | .create _ input, .replayed a => a.quoteId = input.quoteId
  | _, _ => True

/-- The quote that was named, and the one that the answer is about, where that is a replay. -/
def replayedQuote (t : Prog CheckoutStep CheckoutStep.Reply Answered) : Option (QuoteId × QuoteId) :=
  match t with
  | .ret { request := .create _ input, response := .replayed a } => some (input.quoteId, a.quoteId)
  | _ => none

theorem replayedQuote_eq_some {t : Prog CheckoutStep CheckoutStep.Reply Answered}
    {named told : QuoteId} (h : replayedQuote t = some (named, told)) :
    ∃ answered, t = .ret answered ∧ (AboutNamedQuote answered → told = named) := by
  unfold replayedQuote at h
  split at h
  · rename_i linkId input a
    obtain ⟨rfl, rfl⟩ := Prod.mk.inj (Option.some.inj h)
    exact ⟨_, rfl, id⟩
  · cases h

set_option maxRecDepth 4000 in
/-- A replay may be about another quote than the one that its request names. -/
theorem checkout_attempts_replay :
    ¬ ∀ answered, answers plainLibraries 0 requoted answered → AboutNamedQuote answered := by
  intro claimed
  have told : ((checkoutRun plainLibraries 0 requoted).threads[1]?.bind replayedQuote) =
    some (11, 10) := by decide
  obtain ⟨t, ended, replayed⟩ := Option.bind_eq_some_iff.1 told
  obtain ⟨answered, rfl, about⟩ := replayedQuote_eq_some replayed
  have same := about (claimed answered ⟨1, ended⟩)
  cases same

end Runs

end ParmeliaLinks.Payments.Checkout
