/-
ParmeliaLinks/Payments/Executions.lean

The executions that the application registers.  A command names an attempt and
the hash of a user operation; the reply acknowledges it.  The reply should name
the hash that the attempt has, so that no two hashes are ever acknowledged for
one attempt, and an attempt that was canceled or has expired should not be
acknowledged at all.

The batch of `registerAppExecution` has two statements.  The update of the
attempt is conditional, and keeps a hash that is there; the row of the command
is inserted whatever the update found, and the reply names the hash of the
command.  So two commands that read the attempt before either has written are
both acknowledged, and so is a command for an attempt that was canceled.  Later
on `releaseExpiredPayerDefinedAmount` expires attempts without looking for a
command, and a replay acknowledges the expired attempt.

The property holds in the runs in which neither happens (`ExecutionConditions`).
-/
import ParmeliaLinks.Lib.Embed
import ParmeliaLinks.Payments.Runs

namespace ParmeliaLinks.Payments

/-! ### The system -/

/-- The function that a call runs, with the reply to a registration. -/
def executionBody : RepositoryCall → Repository (Option RegisteredExecution)
  | .registerAppExecution command => registerAppExecution command
  | c => (repositoryBody c).bind fun _ => .ret none

/-- Many repository calls side by side, with the replies to registrations. -/
def executionSystem : System RepositoryOp RepositoryOp.Reply World Unit Surroundings
    RepositoryCall (Option RegisteredExecution) where
  exec _ o _ w := o.exec w
  env := Surroundings.move
  body := executionBody

/-- The handlers and the world. -/
abbrev ExecutionPool := Pool RepositoryOp RepositoryOp.Reply World (Option RegisteredExecution)

/-- The pool that a schedule reaches. -/
def registered (clock : Timestamp) (ls : RepositorySchedule) : ExecutionPool :=
  executionSystem.run (World.initial clock) ls

/-- The reply of a handler that has ended with one. -/
def replyOf : Prog RepositoryOp RepositoryOp.Reply (Option RegisteredExecution) →
    Option RegisteredExecution
  | .ret r => r
  | _ => none

/-- The replies given so far. -/
def replies (p : ExecutionPool) : List RegisteredExecution := p.threads.filterMap replyOf

/-! ### The property -/

/-- `canceled` or `expired`. -/
def AttemptStatus.withdrawn : AttemptStatus → Bool
  | .canceled | .expired => true
  | _ => false

/-- The attempt has this hash. -/
def World.Stores (w : World) (id : AttemptId) (userOpHash : Hash) : Prop :=
  ∃ a ∈ w.db.attempts, a.id = id ∧ a.userOpHash = some userOpHash

/-- The attempt is neither canceled nor expired. -/
def World.Stands (w : World) (id : AttemptId) : Prop :=
  ∃ a ∈ w.db.attempts, a.id = id ∧ a.status.withdrawn = false

/-- Every reply names the hash that its attempt has, for an attempt that stands, and no
two replies name different hashes for one attempt. -/
structure Acknowledged (p : ExecutionPool) : Prop where
  stores : ∀ r ∈ replies p, p.world.Stores r.attemptId r.userOpHash
  stands : ∀ r ∈ replies p, p.world.Stands r.attemptId
  once : ∀ r ∈ replies p, ∀ r' ∈ replies p, r.attemptId = r'.attemptId →
    r.userOpHash = r'.userOpHash

/-! ### The conditions -/

/-- The attempt may still be executed, by this user operation. -/
def PaymentAttempt.accepts (a : PaymentAttempt) (userOpHash : Hash) : Bool :=
  (a.status == .reserved || a.status == .submitted || a.status == .processing ||
    a.status == .paid) && (a.userOpHash == none || a.userOpHash == some userOpHash)

/-- The command is one of the attempt, and the attempt accepts it. -/
def World.Accepts (w : World) (id : AttemptId) (command : ExecutionCommand) : Prop :=
  command.attemptId = id ∧
    ∃ a ∈ w.db.attempts, a.id = id ∧ a.accepts command.userOpHash = true

/-- The attempt has a command. -/
def World.HasCommand (w : World) (id : AttemptId) : Prop :=
  ∃ c ∈ w.db.commands, c.attemptId = id

/-- The batch of a command finds an attempt that accepts it, and no attempt that has a
command is expired. -/
def ExecutionConditions :
    System.Conditions RepositoryOp World Unit Surroundings RepositoryCall where
  op _ o _ w :=
    match o with
    | .registerAppExecution id command => w.Accepts id command
    | .releaseExpiredPayerDefinedAmount intentId nowSeconds =>
      ∀ a ∈ w.db.attempts, Db.timedOut intentId nowSeconds a = true → ¬ w.HasCommand a.id
    | _ => True

instance (w : World) (id : AttemptId) (userOpHash : Hash) : Decidable (w.Stores id userOpHash) := by
  unfold World.Stores
  infer_instance

instance (w : World) (id : AttemptId) : Decidable (w.Stands id) := by
  unfold World.Stands
  infer_instance

instance (w : World) (id : AttemptId) (command : ExecutionCommand) :
    Decidable (w.Accepts id command) := by
  unfold World.Accepts
  infer_instance

instance (w : World) (id : AttemptId) : Decidable (w.HasCommand id) := by
  unfold World.HasCommand
  infer_instance

instance (i : Nat) (o : RepositoryOp) (x : Unit) (w : World) :
    Decidable (ExecutionConditions.op i o x w) := by
  unfold ExecutionConditions
  dsimp only
  split <;> infer_instance

instance (e : Surroundings) (w : World) : Decidable (ExecutionConditions.env e w) :=
  inferInstanceAs (Decidable True)

instance (c : RepositoryCall) (w : World) : Decidable (ExecutionConditions.call c w) :=
  inferInstanceAs (Decidable True)

/-! ### What one write does to an attempt -/

/-- The operation expires the attempt. -/
def RepositoryOp.Expires : RepositoryOp → PaymentAttempt → Prop
  | .releaseExpiredPayerDefinedAmount intentId nowSeconds, a =>
    Db.timedOut intentId nowSeconds a = true
  | _, _ => False

/-- What a write keeps of an attempt: a hash that it has, and that it stands. -/
structure KeepsExecution (o : RepositoryOp) (a a' : PaymentAttempt) : Prop where
  id : a'.id = a.id
  userOpHash : ∀ h, a.userOpHash = some h → a'.userOpHash = some h
  stands : a.status.withdrawn = false → a.userOpHash.isSome = true → ¬ o.Expires a →
    a'.status.withdrawn = false

variable {w w' : World} {o : RepositoryOp} {a a' : PaymentAttempt}

theorem KeepsExecution.rfl : KeepsExecution o a a :=
  ⟨by rfl, fun _ h => h, fun stands _ _ => stands⟩

/-- A write that changes neither the hash nor the key, with the status it leaves. -/
theorem keepsExecution_of_status (id : a'.id = a.id) (hash : a'.userOpHash = a.userOpHash)
    (status : a.status.withdrawn = false → a'.status.withdrawn = false) :
    KeepsExecution o a a' where
  id := id
  userOpHash _ hh := hash.trans hh
  stands stands _ _ := status stands

/-- An update of attempts that keeps each execution it matches. -/
theorem exists_of_rewritten {t t' : Table PaymentAttempt} {p : PaymentAttempt → Bool}
    {f : PaymentAttempt → PaymentAttempt} (h : t'.rows = t.rewritten p f)
    (hf : ∀ a, p a = true → KeepsExecution o a (f a)) (ha : a ∈ t) :
    ∃ a' ∈ t', KeepsExecution o a a' := by
  refine ⟨_, (Table.mem_of_rewritten h).2 ⟨a, ha, rfl⟩, ?_⟩
  split
  · exact hf a ‹_›
  · exact .rfl

theorem exists_of_append {t t' : Table PaymentAttempt} {b : PaymentAttempt}
    (h : t'.rows = t.rows ++ [b]) (ha : a ∈ t) : ∃ a' ∈ t', KeepsExecution o a a' :=
  ⟨a, (Table.mem_of_rows_append h).2 (.inl ha), .rfl⟩

namespace Db

variable {db db' : Db}

theorem insertAttempt_keeps {b : AttemptTerms} (h : db.insertAttempt b = some db')
    (ha : a ∈ db.attempts) : ∃ a' ∈ db'.attempts, KeepsExecution o a a' := by
  simp only [insertAttempt, Option.bind_eq_bind, Option.bind_eq_some_iff] at h
  obtain ⟨_, _, _, _, attempts, hins, h⟩ := h
  obtain rfl := Option.some.inj h
  exact exists_of_append (Table.insert_rows hins).1 ha

theorem insertQuote_attempts {q : PaymentQuote} (h : db.insertQuote q = some db') :
    db'.attempts = db.attempts := by
  simp only [insertQuote, Option.bind_eq_bind, Option.bind_eq_some_iff] at h
  obtain ⟨_, _, quotes, _, h⟩ := h
  obtain rfl := Option.some.inj h
  rfl

theorem markAttemptProcessing_keeps {id : AttemptId} {tx : Hash}
    (h : db.markAttemptProcessing id tx = some db') (ha : a ∈ db.attempts) :
    ∃ a' ∈ db'.attempts, KeepsExecution o a a' := by
  simp only [markAttemptProcessing, Option.bind_eq_bind, Option.bind_eq_some_iff] at h
  obtain ⟨attempts, hupd, h⟩ := h
  obtain rfl := Option.some.inj h
  refine exists_of_rewritten (Table.update_rows hupd) (fun b _ => ?_) ha
  refine keepsExecution_of_status rfl rfl fun stands => ?_
  show AttemptStatus.withdrawn (if _ then _ else _) = false
  split
  · rfl
  · exact stands

theorem registerSourceTransaction_keeps {id : AttemptId} {capabilityHash tx : Hash}
    {changed : Bool} (h : db.registerSourceTransaction id capabilityHash tx = some (changed, db'))
    (ha : a ∈ db.attempts) : ∃ a' ∈ db'.attempts, KeepsExecution o a a' := by
  simp only [registerSourceTransaction, Option.bind_eq_bind, Option.bind_eq_some_iff] at h
  obtain ⟨attempts, hupd, h⟩ := h
  obtain ⟨-, rfl⟩ := Prod.mk.inj (Option.some.inj h)
  refine exists_of_rewritten (Table.update_rows hupd) (fun b _ => ?_) ha
  refine keepsExecution_of_status rfl rfl fun stands => ?_
  show AttemptStatus.withdrawn (if _ then _ else _) = false
  split
  · rfl
  · exact stands

/-- An attempt that has a hash is not canceled. -/
theorem cancelAttempt_keeps (id : AttemptId) (capabilityHash : Hash) (ha : a ∈ db.attempts) :
    ∃ a' ∈ (db.cancelAttempt id capabilityHash).2.attempts, KeepsExecution o a a' := by
  refine exists_of_rewritten (by exact rfl) (fun b hb => ?_) ha
  simp only [cancelable, Bool.and_eq_true, beq_iff_eq] at hb
  refine ⟨rfl, fun _ h => h, fun _ hash _ => ?_⟩
  rw [hb.2] at hash
  cases hash

theorem releaseExpired_keeps (intentId : IntentId) (nowSeconds : Nat) (ha : a ∈ db.attempts) :
    ∃ a' ∈ (db.releaseExpiredPayerDefinedAmount intentId nowSeconds).attempts,
      KeepsExecution (.releaseExpiredPayerDefinedAmount intentId nowSeconds) a a' := by
  refine exists_of_rewritten (by exact rfl) (fun b hb => ?_) ha
  exact ⟨rfl, fun _ h => h, fun _ _ kept => absurd hb kept⟩

/-- The batch keeps a hash that is there. -/
theorem registerAppExecution_keeps {id : AttemptId} {command : ExecutionCommand}
    (h : db.registerAppExecution id command = some db') (ha : a ∈ db.attempts) :
    ∃ a' ∈ db'.attempts, KeepsExecution o a a' := by
  simp only [registerAppExecution, Option.bind_eq_bind, Option.bind_eq_some_iff] at h
  obtain ⟨attempts, hupd, commands, _, h⟩ := h
  obtain rfl := Option.some.inj h
  refine exists_of_rewritten (Table.update_rows hupd) (fun b _ => ?_) ha
  refine ⟨rfl, fun _ hash => orElse_of_some hash, fun stands _ _ => ?_⟩
  show AttemptStatus.withdrawn (if _ then _ else _) = false
  split
  · rfl
  · exact stands

/-- An attempt that accepts a command has its hash afterwards, and stands. -/
theorem registerAppExecution_stores {id : AttemptId} {command : ExecutionCommand}
    (h : db.registerAppExecution id command = some db') (ha : a ∈ db.attempts) (hid : a.id = id)
    (accepts : a.accepts command.userOpHash = true) :
    ∃ a' ∈ db'.attempts, a'.id = id ∧ a'.userOpHash = some command.userOpHash ∧
      a'.status.withdrawn = false := by
  simp only [registerAppExecution, Option.bind_eq_bind, Option.bind_eq_some_iff] at h
  obtain ⟨attempts, hupd, commands, _, h⟩ := h
  obtain rfl := Option.some.inj h
  simp only [PaymentAttempt.accepts, Bool.and_eq_true, Bool.or_eq_true, beq_iff_eq] at accepts
  obtain ⟨status, hash⟩ := accepts
  refine ⟨_, (Table.mem_of_rewritten (Table.update_rows hupd)).2 ⟨a, ha, by exact rfl⟩, ?_⟩
  rw [if_pos (by simp only [hid, beq_self_eq_true, Bool.true_and, Bool.or_eq_true, beq_iff_eq, status])]
  refine ⟨hid, ?_, ?_⟩
  · rcases hash with none | same
    · show (a.userOpHash <|> some command.userOpHash) = _
      rw [none]
      rfl
    · exact orElse_of_some same
  · show AttemptStatus.withdrawn (if _ then _ else _) = false
    split
    · rfl
    · rcases status with ((status | status) | status) | status <;> rw [status] <;> rfl

/-- The commands after the batch: those before it, and the new one. -/
theorem registerAppExecution_commands {id : AttemptId} {command c : ExecutionCommand}
    (h : db.registerAppExecution id command = some db') :
    c ∈ db'.commands ↔ c ∈ db.commands ∨ c = command := by
  simp only [registerAppExecution, Option.bind_eq_bind, Option.bind_eq_some_iff] at h
  obtain ⟨attempts, _, commands, hins, h⟩ := h
  obtain rfl := Option.some.inj h
  exact Table.mem_of_rows_append (Table.insert_rows hins).1

theorem settleAttempt_keeps {s : Settlement} {commitId : CommitId} {timestamp : Timestamp}
    {endpoints : List EndpointId} {changed : Bool}
    (h : db.settleAttempt s commitId timestamp endpoints = some (changed, db'))
    (ha : a ∈ db.attempts) : ∃ a' ∈ db'.attempts, KeepsExecution o a a' := by
  simp only [settleAttempt, Option.bind_eq_bind, Option.bind_eq_some_iff] at h
  obtain ⟨attempts, hupd, h⟩ := h
  obtain ⟨-, rfl⟩ := Prod.mk.inj (Option.some.inj h)
  refine exists_of_rewritten (Table.update_rows hupd) (fun b _ => ?_) ha
  refine keepsExecution_of_status rfl rfl fun _ => ?_
  show s.attemptStatus.withdrawn = false
  unfold Settlement.attemptStatus
  split <;> rfl

end Db

namespace RepositoryOp

theorem exists_of_commitBatch {r : Option Db} (ha : a ∈ w.db.attempts)
    (h : ∀ db', r = some db' → ∃ a' ∈ db'.attempts, KeepsExecution o a a') :
    ∃ a' ∈ (commitBatch w r).2.db.attempts, KeepsExecution o a a' := by
  cases r with
  | none => exact ⟨a, ha, .rfl⟩
  | some db' => exact h db' rfl

theorem exists_of_commitReport {r : Option (Bool × Db)} (ha : a ∈ w.db.attempts)
    (h : ∀ b db', r = some (b, db') → ∃ a' ∈ db'.attempts, KeepsExecution o a a') :
    ∃ a' ∈ (commitReport w r).2.db.attempts, KeepsExecution o a a' := by
  cases r with
  | none => exact ⟨a, ha, .rfl⟩
  | some r => exact h r.1 r.2 rfl

/-- Every attempt is still there after an operation, with what it keeps. -/
theorem exec_keepsExecution (o : RepositoryOp) (ha : a ∈ w.db.attempts) :
    ∃ a' ∈ (o.exec w).2.db.attempts, KeepsExecution o a a' := by
  cases o with
  | createIntentAndLink input id link timestamp =>
    refine exists_of_commitBatch ha fun db' hr => ?_
    exact ⟨a, (Db.createIntentAndLink_created hr).attempts ▸ ha, .rfl⟩
  | insertQuote q =>
    refine exists_of_commitBatch ha fun db' hr => ?_
    exact ⟨a, Db.insertQuote_attempts hr ▸ ha, .rfl⟩
  | insertAttempt b => exact exists_of_commitBatch ha fun db' hr => Db.insertAttempt_keeps hr ha
  | insertQuoteAndAttempt q b =>
    refine exists_of_commitBatch ha fun db' hr => ?_
    simp only [Db.insertQuoteAndAttempt, Option.bind_eq_bind, Option.bind_eq_some_iff] at hr
    obtain ⟨mid, quoted, inserted⟩ := hr
    exact Db.insertAttempt_keeps inserted (Db.insertQuote_attempts quoted ▸ ha)
  | markAttemptProcessing id tx =>
    exact exists_of_commitBatch ha fun db' hr => Db.markAttemptProcessing_keeps hr ha
  | registerAppExecution id command =>
    exact exists_of_commitBatch ha fun db' hr => Db.registerAppExecution_keeps hr ha
  | registerSourceTransaction id capabilityHash tx =>
    exact exists_of_commitReport ha fun b db' hr => Db.registerSourceTransaction_keeps hr ha
  | cancelAttempt id capabilityHash => exact Db.cancelAttempt_keeps id capabilityHash ha
  | releaseExpiredPayerDefinedAmount intentId nowSeconds =>
    exact Db.releaseExpired_keeps intentId nowSeconds ha
  | settleAttempt s timestamp endpoints =>
    refine exists_of_commitReport (w := { w with uuid := w.uuid + 1 }) ha fun b db' hr => ?_
    exact Db.settleAttempt_keeps hr ha
  | _ => exact ⟨a, ha, .rfl⟩

/-- The commands after an operation are those before it, but for one that a
registration has inserted. -/
theorem exec_commands (o : RepositoryOp) (w : World) :
    (o.exec w).2.db.commands = w.db.commands ∨ ∃ id command db', o = .registerAppExecution id command ∧
      w.db.registerAppExecution id command = some db' ∧ (o.exec w).2 = { w with db := db' } := by
  have batch : ∀ r : Option Db, (∀ db', r = some db' → db'.commands = w.db.commands) →
      (commitBatch w r).2.db.commands = w.db.commands := by
    intro r hr
    cases r with
    | none => rfl
    | some db' => exact hr db' rfl
  have report : ∀ (v : World) (r : Option (Bool × Db)), v.db = w.db →
      (∀ b db', r = some (b, db') → db'.commands = w.db.commands) →
      (commitReport v r).2.db.commands = w.db.commands := by
    intro v r hv hr
    cases r with
    | none => exact congrArg (·.commands) hv
    | some r => exact hr r.1 r.2 rfl
  cases o with
  | registerAppExecution id command =>
    cases hr : w.db.registerAppExecution id command with
    | none =>
      refine .inl ?_
      show (commitBatch w (w.db.registerAppExecution id command)).2.db.commands = _
      rw [hr]
      rfl
    | some db' =>
      refine .inr ⟨id, command, db', rfl, hr, ?_⟩
      show (commitBatch w (w.db.registerAppExecution id command)).2 = _
      rw [hr]
      rfl
  | createIntentAndLink input id link timestamp =>
    refine .inl (batch _ fun db' hr => ?_)
    simp only [Db.createIntentAndLink, Option.bind_eq_bind, Option.bind_eq_some_iff] at hr
    obtain ⟨_, _, _, _, _, _, _, _, hr⟩ := hr
    obtain rfl := Option.some.inj hr
    rfl
  | insertQuote q =>
    refine .inl (batch _ fun db' hr => ?_)
    simp only [Db.insertQuote, Option.bind_eq_bind, Option.bind_eq_some_iff] at hr
    obtain ⟨_, _, _, _, hr⟩ := hr
    obtain rfl := Option.some.inj hr
    rfl
  | insertAttempt b =>
    refine .inl (batch _ fun db' hr => ?_)
    simp only [Db.insertAttempt, Option.bind_eq_bind, Option.bind_eq_some_iff] at hr
    obtain ⟨_, _, _, _, _, _, hr⟩ := hr
    obtain rfl := Option.some.inj hr
    rfl
  | insertQuoteAndAttempt q b =>
    refine .inl (batch _ fun db' hr => ?_)
    simp only [Db.insertQuoteAndAttempt, Db.insertQuote, Db.insertAttempt, Option.bind_eq_bind,
      Option.bind_eq_some_iff] at hr
    obtain ⟨_, ⟨_, _, _, _, quoted⟩, _, _, _, _, _, _, hr⟩ := hr
    obtain rfl := Option.some.inj hr
    obtain rfl := Option.some.inj quoted
    rfl
  | markAttemptProcessing id tx =>
    refine .inl (batch _ fun db' hr => ?_)
    simp only [Db.markAttemptProcessing, Option.bind_eq_bind, Option.bind_eq_some_iff] at hr
    obtain ⟨_, _, hr⟩ := hr
    obtain rfl := Option.some.inj hr
    rfl
  | registerSourceTransaction id capabilityHash tx =>
    refine .inl (report w _ rfl fun b db' hr => ?_)
    simp only [Db.registerSourceTransaction, Option.bind_eq_bind, Option.bind_eq_some_iff] at hr
    obtain ⟨_, _, hr⟩ := hr
    obtain ⟨-, rfl⟩ := Prod.mk.inj (Option.some.inj hr)
    rfl
  | settleAttempt s timestamp endpoints =>
    refine .inl (report { w with uuid := w.uuid + 1 } _ rfl fun b db' hr => ?_)
    simp only [Db.settleAttempt, Option.bind_eq_bind, Option.bind_eq_some_iff] at hr
    obtain ⟨_, _, hr⟩ := hr
    obtain ⟨-, rfl⟩ := Prod.mk.inj (Option.some.inj hr)
    rfl
  | _ => exact .inl rfl

end RepositoryOp

/-! ### The discipline -/

/-- The attempt of every command has its hash, and stands. -/
def World.Registered (w : World) : Prop :=
  ∀ c ∈ w.db.commands, ∃ a ∈ w.db.attempts,
    a.id = c.attemptId ∧ a.userOpHash = some c.userOpHash ∧ a.status.withdrawn = false

/-- Commands are never taken back. -/
def World.KeepsCommands (w w' : World) : Prop := ∀ c ∈ w.db.commands, c ∈ w'.db.commands

def executionDiscipline : Discipline RepositoryOp World Unit Surroundings RepositoryCall where
  Inv := World.Registered
  Evolves := World.KeepsCommands
  allowed := ExecutionConditions
  refl _ _ h := h
  trans h h' c hc := h' c (h c hc)

variable {me : Nat} {α : Type}

/-- One operation keeps the attempts of the commands that were there. -/
theorem World.Registered.kept (h : w.Registered) (hC : ExecutionConditions.op me o () w)
    {c : ExecutionCommand} (hc : c ∈ w.db.commands) :
    ∃ a ∈ (o.exec w).2.db.attempts,
      a.id = c.attemptId ∧ a.userOpHash = some c.userOpHash ∧ a.status.withdrawn = false := by
  obtain ⟨a, ha, hid, hash, stands⟩ := h c hc
  obtain ⟨a', ha', keeps⟩ := o.exec_keepsExecution ha
  refine ⟨a', ha', keeps.id.trans hid, keeps.userOpHash _ hash, ?_⟩
  refine keeps.stands stands (by rw [hash]; rfl) fun expires => ?_
  cases o with
  | releaseExpiredPayerDefinedAmount intentId nowSeconds =>
    exact hC a ha expires ⟨c, hc, hid.symm⟩
  | _ => exact expires

theorem exec_registered (h : w.Registered) (hC : ExecutionConditions.op me o () w) :
    (o.exec w).2.Registered ∧ w.KeepsCommands (o.exec w).2 := by
  rcases o.exec_commands w with same | ⟨id, command, db', rfl, batch, world⟩
  · refine ⟨fun c hc => ?_, fun c hc => same ▸ hc⟩
    exact h.kept hC (same ▸ hc)
  · have commands := fun c => Db.registerAppExecution_commands (c := c) batch
    refine ⟨fun c hc => ?_, fun c hc => ?_⟩
    · rw [world] at hc
      rcases (commands c).1 hc with hc | rfl
      · exact h.kept hC hc
      · obtain ⟨hid, a, ha, haid, accepts⟩ := hC
        rw [world, hid]
        exact Db.registerAppExecution_stores batch ha haid accepts
    · rw [world]
      exact (commands c).2 (.inl hc)

theorem exec_performs_execution (h : w.Registered) (hC : ExecutionConditions.op me o () w) :
    executionDiscipline.Performs executionSystem me o () w := by
  obtain ⟨registered, keeps⟩ := exec_registered h hC
  exact ⟨⟨registered, keeps⟩, fun _ _ => trivial, trivial⟩

/-! ### Every handler follows it -/

/-- The reply is that of a command. -/
def Backed (r : Except String (Option RegisteredExecution)) (w : World) : Prop :=
  ∀ e, r = .ok (some e) → ∃ c ∈ w.db.commands,
    c.attemptId = e.attemptId ∧ c.userOpHash = e.userOpHash

/-- The weakest precondition of a handler. -/
abbrev Repository.executionWp (p : Repository α) (i : Nat) (Q : Except String α → World → Prop)
    (w : World) : Prop :=
  executionDiscipline.wp executionSystem i p Q w

theorem wp_executionOp {Q : Except String o.Reply → World → Prop} (hw : w.Registered)
    (post : ExecutionConditions.op me o () w → ∀ w', (o.exec w).2.KeepsCommands w' →
      w'.Registered → Q (.ok (o.exec w).1) w') :
    Repository.executionWp (.perform o) me Q w := by
  refine Discipline.wp_perform _ _ (fun _ hC => exec_performs_execution hw hC)
    fun _ hC w' later => ?_
  exact post hC w' later.evolves later.inv

theorem selected_id {id : AttemptId}
    (h : (RepositoryOp.exec w (.selectAttempt id)).1 = some a) : a.id = id := by
  have found : (a.id == id) = true := Table.of_find? (t := w.db.attempts) h
  exact beq_iff_eq.1 found

theorem mem_commands_of_registered {id : AttemptId} {command : ExecutionCommand} {u : Unit}
    (h : (RepositoryOp.exec w (.registerAppExecution id command)).1 = some u) :
    command ∈ (RepositoryOp.exec w (.registerAppExecution id command)).2.db.commands := by
  show command ∈ (RepositoryOp.commitBatch w (w.db.registerAppExecution id command)).2.db.commands
  replace h : (RepositoryOp.commitBatch w (w.db.registerAppExecution id command)).1 = some u := h
  cases batch : w.db.registerAppExecution id command with
  | none =>
    rw [batch] at h
    cases h
  | some db' => exact (Db.registerAppExecution_commands batch).2 (.inr rfl)

theorem wp_registerAppExecution (command : ExecutionInput) (hw : w.Registered) :
    (registerAppExecution command).executionWp me Backed w := by
  refine (Discipline.wp_bind _ _ _ _ _ _).2 (wp_executionOp hw fun _ w₁ h₁ hw₁ => ?_)
  cases hr : (RepositoryOp.exec w (.selectCommand command.commandId)).1 with
  | some replay =>
    -- a replay: the command is in the table, and the reply names what it says
    have hreplay : replay ∈ w₁.db.commands := h₁ _ (Table.mem_of_find? hr)
    refine (Discipline.wp_bind _ _ _ _ _ _).2 (wp_executionOp hw₁ fun _ w₂ h₂ hw₂ => ?_)
    cases ha : (RepositoryOp.exec w₁ (.selectAttempt replay.attemptId)).1 with
    | none => exact fun e he => by cases he
    | some attempt =>
      intro e he
      obtain rfl := Option.some.inj (Except.ok.inj he)
      refine ⟨replay, h₂ _ hreplay, ?_, rfl⟩
      exact (selected_id ha).symm
  | none =>
    refine (Discipline.wp_bind _ _ _ _ _ _).2 (wp_executionOp hw₁ fun _ w₂ h₂ hw₂ => ?_)
    cases ha : (RepositoryOp.exec w₁ (.selectAttempt command.attemptId)).1 with
    | none => exact fun e he => by cases he
    | some attempt =>
      simp only [Discipline.then_ok]
      split
      · exact fun e he => by cases he
      split
      · exact fun e he => by cases he
      refine (Discipline.wp_bind _ _ _ _ _ _).2 (wp_executionOp hw₂ fun _ w₃ h₃ hw₃ => ?_)
      refine (Discipline.wp_bind _ _ _ _ _ _).2 (wp_executionOp hw₃ fun _ w₄ h₄ hw₄ => ?_)
      cases hr : (RepositoryOp.exec w₃ (.registerAppExecution attempt.id
          { commandId := command.commandId, attemptId := attempt.id
            userOpHash := command.userOpHash
            createdAt := (RepositoryOp.exec w₂ .now).1 })).1 with
      | none => exact fun e he => by cases he
      | some done =>
        -- the command went in, and the reply names its attempt and its hash
        have hcommand := mem_commands_of_registered hr
        refine (Discipline.wp_bind _ _ _ _ _ _).2 (wp_executionOp hw₄ fun _ w₅ h₅ hw₅ => ?_)
        cases ha' : (RepositoryOp.exec w₄ (.selectAttempt attempt.id)).1 with
        | none => exact fun e he => by cases he
        | some stored =>
          intro e he
          obtain rfl := Option.some.inj (Except.ok.inj he)
          refine ⟨_, h₅ _ (h₄ _ hcommand), ?_, rfl⟩
          exact (selected_id ha').symm

theorem execution_obeys : executionDiscipline.Obeys executionSystem Backed where
  env e w hw _ := by
    cases e <;> exact ⟨⟨hw, fun _ hc => hc⟩, fun _ => trivial⟩
  call c me w₀ w _ _ later := by
    have other : ∀ p : Repository Unit,
        Repository.executionWp (p.bind fun _ => .ret none) me Backed w := by
      intro p
      have obeys := executionDiscipline.wp_of_uses executionSystem (P := fun _ => True) (i := me)
        (fun o _ _ v _ hv hC => exec_performs_execution hv hC)
        (Prog.uses_of_forall (fun _ => trivial) p) later.inv
      refine Discipline.wp_seq _ _ obeys (fun _ v _ => ?_) fun _ v _ => ?_
      · exact fun e he => by cases he
      · exact fun e he => by cases he
    cases c with
    | registerAppExecution command => exact wp_registerAppExecution command later.inv
    | _ => exact other _

/-! ### The result -/

theorem mem_replies {p : ExecutionPool} {r : RegisteredExecution} (h : r ∈ replies p) :
    ∃ i : Nat, p.threads[i]? = some (.ret (some r)) := by
  obtain ⟨t, ht, hr⟩ := List.mem_filterMap.1 h
  obtain ⟨i, hi⟩ := List.mem_iff_getElem?.1 ht
  refine ⟨i, ?_⟩
  cases t with
  | ret a =>
    obtain rfl : a = some r := hr
    exact hi
  | throw m => cases hr
  | act o k => cases hr

/-- In every state of a run in which each command finds an attempt that accepts it and
no attempt with a command is expired, every reply names the hash of its attempt, and
the attempt stands. -/
theorem executions_acknowledged (clock : Timestamp) (ls : RepositorySchedule)
    (h : executionSystem.Along ExecutionConditions ⟨World.initial clock, []⟩ ls) :
    Acknowledged (registered clock ls) := by
  have sound := Discipline.pool_sound execution_obeys (w := World.initial clock)
    (fun c hc => by cases hc) h
  have acknowledged : ∀ r ∈ replies (registered clock ls),
      ∃ a ∈ (registered clock ls).world.db.attempts, a.id = r.attemptId ∧
        a.userOpHash = some r.userOpHash ∧ a.status.withdrawn = false := by
    intro r hr
    obtain ⟨i, hi⟩ := mem_replies hr
    obtain ⟨c, hc, hid, hash⟩ := sound.threads i _ hi _ (Discipline.later_refl _ sound.inv) r rfl
    rw [← hid, ← hash]
    exact sound.inv c hc
  refine ⟨fun r hr => ?_, fun r hr => ?_, fun r hr r' hr' same => ?_⟩
  · obtain ⟨a, ha, hid, hash, -⟩ := acknowledged r hr
    exact ⟨a, ha, hid, hash⟩
  · obtain ⟨a, ha, hid, -, stands⟩ := acknowledged r hr
    exact ⟨a, ha, hid, stands⟩
  · obtain ⟨a, ha, hid, hash, -⟩ := acknowledged r hr
    obtain ⟨a', ha', hid', hash', -⟩ := acknowledged r' hr'
    obtain rfl := attempt_eq ha ha' (hid.trans (same.trans hid'.symm))
    exact Option.some.inj (hash.symm.trans hash')

/-! A command, its replay, and another command with the same hash. -/

def reserveAttempt : RepositorySchedule :=
  ([.spawn (.createIntentAndLink openIntent)] : RepositorySchedule) ++
    (List.replicate 4 (.step 0 ()) : RepositorySchedule) ++
    ([.spawn (.insertQuote { id := 22, intentId := 10, quoteHash := 28 }), .step 1 (),
      .spawn (.insertAttempt localAttempt "k" (some ⟨29, 31, 32⟩))] : RepositorySchedule) ++
    (List.replicate 2 (.step 2 ()) : RepositorySchedule)

def execution (commandId : CommandId) (userOpHash : Hash) : RepositoryCall :=
  .registerAppExecution { commandId, attemptId := 20, sourceChainId := 4, userOpHash }

def replayedExecution : RepositorySchedule :=
  reserveAttempt ++ ([.spawn (execution 1 40)] : RepositorySchedule) ++
    (List.replicate 5 (.step 3 ()) : RepositorySchedule) ++
    ([.spawn (execution 1 40), .spawn (execution 2 40)] : RepositorySchedule) ++
    (List.replicate 2 (.step 4 ()) : RepositorySchedule) ++
    (List.replicate 5 (.step 5 ()) : RepositorySchedule)

theorem executions_acknowledged_replayed :
    (replies (registered 0 replayedExecution)).length = 3 ∧
      Acknowledged (registered 0 replayedExecution) :=
  ⟨by decide, executions_acknowledged 0 replayedExecution (by decide)⟩

/-! Two commands that read the attempt before either writes, and a command for an
attempt that was canceled before. -/

def racingExecutions : RepositorySchedule :=
  reserveAttempt ++ ([.spawn (execution 1 40), .spawn (execution 2 41)] : RepositorySchedule) ++
    (List.replicate 2 (.step 3 ()) : RepositorySchedule) ++
    (List.replicate 2 (.step 4 ()) : RepositorySchedule) ++
    (List.replicate 3 (.step 3 ()) : RepositorySchedule) ++
    (List.replicate 3 (.step 4 ()) : RepositorySchedule)

def canceledExecution : RepositorySchedule :=
  reserveAttempt ++
    ([.spawn (.cancelAttempt 20 29), .step 3 (), .spawn (execution 1 40)] : RepositorySchedule) ++
    (List.replicate 5 (.step 4 ()) : RepositorySchedule)

theorem executions_disagree :
    (∃ r ∈ replies (registered 0 racingExecutions), ∃ r' ∈ replies (registered 0 racingExecutions),
      r.attemptId = r'.attemptId ∧ r.userOpHash ≠ r'.userOpHash ∧
        ¬ (registered 0 racingExecutions).world.Stores r'.attemptId r'.userOpHash) ∧
    ∃ r ∈ replies (registered 0 canceledExecution),
      ¬ (registered 0 canceledExecution).world.Stands r.attemptId := by
  decide

end ParmeliaLinks.Payments
