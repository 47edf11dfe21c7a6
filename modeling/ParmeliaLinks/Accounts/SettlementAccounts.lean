/-
ParmeliaLinks/Accounts/SettlementAccounts.lean

The register of settlement accounts, on the side of the payments worker.  A command
says which wallet the owner of a merchant has, with a version; the row of the merchant
takes the wallet if the version is greater than its own, and the command is recorded with
whether it was applied.

The reads come before the batch.  The update of the row asks again for the version, and so
the row is always that of a greatest version that was committed (`Register.Latest`).  The
flag of the command does not: it says what the read found.  A batch that finds a greater
version than the read did changes nothing and is recorded as applied; and a command that is
delivered twice at a time fails the second time, on the key of its own record.  Neither
happens in the runs whose batches find what was read (`settlement_accounts`).
-/
import ParmeliaLinks.Lib.Invariant
import ParmeliaLinks.Lib.SqlText
import ParmeliaLinks.Lib.Table

namespace ParmeliaLinks.Accounts

abbrev Uid := Text
abbrev CommandId := Text
abbrev MerchantId := Nat
abbrev Address := Nat
abbrev ChainId := Nat

/-! ### Tables -/

structure SettlementAccountCommand where
  commandId : CommandId
  ownerUid : Uid
  accountVersion : Nat
  walletAddress : Address
  chainId : ChainId
  deriving DecidableEq

structure Merchant where
  id : MerchantId
  ownerUid : Uid
  settlementWallet : Address
  settlementChainId : ChainId
  accountVersion : Nat
  deriving DecidableEq

instance : Row Merchant where
  clash r r' := r.id == r'.id || r.ownerUid == r'.ownerUid
  clash_comm r r' := by
    simp only [Bool.beq_comm (a := r.id), Bool.beq_comm (a := r.ownerUid)]

structure CommandRow where
  commandId : CommandId
  ownerUid : Uid
  accountVersion : Nat
  applied : Bool
  deriving DecidableEq

instance : Row CommandRow where
  clash r r' := r.commandId == r'.commandId
  clash_comm _ _ := Bool.beq_comm

/-- A batch that was committed, and whether it changed the row of its merchant. -/
structure Batch where
  command : SettlementAccountCommand
  changed : Bool
  deriving DecidableEq

/-- A batch that was aborted, and whether its command had been recorded by then. -/
structure Failure where
  commandId : CommandId
  recorded : Bool
  deriving DecidableEq

/-- The two tables; `batches` and `failures` are history. -/
structure Register where
  merchants : Table Merchant
  commands : Table CommandRow
  batches : List Batch
  failures : List Failure

/-- The register before the first command. -/
def Register.initial : Register where
  merchants := .empty
  commands := .empty
  batches := []
  failures := []

/-! ### Statements -/

/-- The statement of a batch that is about the merchant. -/
inductive MerchantWrite
  | insert (id : MerchantId)
  | update (id : MerchantId)
  | none
  deriving DecidableEq

namespace Register

variable (w : Register)

def recorded (commandId : CommandId) : Bool := w.commands.any fun r => r.commandId == commandId

/-- `WHERE id = ? AND account_version < ?`. -/
def outdated (id : MerchantId) (accountVersion : Nat) (m : Merchant) : Bool :=
  m.id == id && decide (m.accountVersion < accountVersion)

def newMerchant (id : MerchantId) (input : SettlementAccountCommand) : Merchant where
  id := id
  ownerUid := input.ownerUid
  settlementWallet := input.walletAddress
  settlementChainId := input.chainId
  accountVersion := input.accountVersion

def updatedMerchant (input : SettlementAccountCommand) (m : Merchant) : Merchant :=
  { m with
    settlementWallet := input.walletAddress
    settlementChainId := input.chainId
    accountVersion := input.accountVersion }

theorem updatedMerchant_keepsKeys (input : SettlementAccountCommand) :
    Table.KeepsKeys (updatedMerchant input) :=
  ⟨fun _ _ => rfl⟩

/-- The merchants after the statement, and whether it changed a row.  A new row has a version
of at least one. -/
def write (input : SettlementAccountCommand) : MerchantWrite → Option (Table Merchant × Bool)
  | .insert id =>
    if 1 ≤ input.accountVersion then
      (w.merchants.insert (newMerchant id input)).map fun merchants => (merchants, true)
    else .none
  | .update id =>
    some (w.merchants.modify (outdated id input.accountVersion) (updatedMerchant input)
      (updatedMerchant_keepsKeys input), w.merchants.any (outdated id input.accountVersion))
  | .none => some (w.merchants, false)

/-- The row of a command. -/
def commandRow (input : SettlementAccountCommand) (applied : Bool) : CommandRow where
  commandId := input.commandId
  ownerUid := input.ownerUid
  accountVersion := input.accountVersion
  applied := applied

/-- The batch, or nothing of it. -/
def runBatch (statement : MerchantWrite) (input : SettlementAccountCommand) (applied : Bool) :
    Option Register := do
  let (merchants, changed) ← w.write input statement
  let commands ← w.commands.insert (commandRow input applied)
  return { w with merchants, commands, batches := w.batches ++ [{ command := input, changed }] }

end Register

inductive RegisterOp
  | selectCommand (commandId : CommandId)
  | getMerchantByOwner (ownerUid : Uid)
  | batch (statement : MerchantWrite) (input : SettlementAccountCommand) (applied : Bool)

namespace RegisterOp

abbrev Reply : RegisterOp → Type
  | selectCommand _ => Option Bool
  | getMerchantByOwner _ => Option Merchant
  | batch .. => Bool

def exec : (o : RegisterOp) → Register → Reply o × Register
  | selectCommand commandId, w =>
    ((w.commands.find? fun r => r.commandId == commandId).map (·.applied), w)
  | getMerchantByOwner ownerUid, w =>
    (w.merchants.find? fun m => m.ownerUid == ownerUid, w)
  | batch statement input applied, w =>
    match w.runBatch statement input applied with
    | some w' => (true, w')
    | none =>
      (false, { w with failures := w.failures ++
        [{ commandId := input.commandId, recorded := w.recorded input.commandId }] })

end RegisterOp

/-! ### The function -/

abbrev RegisterHandler := Prog RegisterOp RegisterOp.Reply

def statement (o : RegisterOp) : RegisterHandler (RegisterOp.Reply o) := .perform o

structure SettlementAccountResult where
  merchantId : MerchantId
  accountVersion : Nat
  applied : Bool
  deriving DecidableEq

/-- What the batch does about the merchant that was read. -/
def merchantWrite (merchantId : MerchantId) (existing : Option Merchant) (applied : Bool) :
    MerchantWrite :=
  match existing with
  | none => .insert merchantId
  | some m => if applied then .update m.id else .none

section

variable (merchantIdForUid : Uid → MerchantId)

def upsertSettlementAccount (input : SettlementAccountCommand) :
    RegisterHandler SettlementAccountResult := do
  match ← statement (.selectCommand input.commandId) with
  | some applied =>
    return { merchantId := merchantIdForUid input.ownerUid
             accountVersion := input.accountVersion, applied }
  | none =>
    let existing ← statement (.getMerchantByOwner input.ownerUid)
    let applied := existing.all fun m => decide (m.accountVersion < input.accountVersion)
    let committed ← statement (.batch
      (merchantWrite (merchantIdForUid input.ownerUid) existing applied) input applied)
    if committed then
      return { merchantId := (existing.map (·.id)).getD (merchantIdForUid input.ownerUid)
               accountVersion := input.accountVersion, applied }
    else throw "UNIQUE constraint failed"

/-- A reply, with the command that it is to. -/
structure Replied where
  commandId : CommandId
  result : SettlementAccountResult
  deriving DecidableEq

/-- Commands side by side. -/
def registerSystem : System RegisterOp RegisterOp.Reply Register Unit Empty
    SettlementAccountCommand Replied where
  exec _ o _ w := o.exec w
  env := Empty.elim
  body input := (upsertSettlementAccount merchantIdForUid input).bind fun result =>
    .ret { commandId := input.commandId, result }

end

abbrev RegisterPool := Pool RegisterOp RegisterOp.Reply Register Replied

abbrev RegisterSchedule := List (Label Unit Empty SettlementAccountCommand)

def registerRun (merchantIdForUid : Uid → MerchantId) (ls : RegisterSchedule) : RegisterPool :=
  (registerSystem merchantIdForUid).run .initial ls

/-! ### What holds in every run -/

namespace Register

/-- The rows are those of the greatest versions that were committed. -/
structure Latest (w : Register) : Prop where
  /-- The row of a merchant is what one of the batches of its owner says. -/
  taken : ∀ m ∈ w.merchants, ∃ b ∈ w.batches, b.command.ownerUid = m.ownerUid ∧
    b.command.walletAddress = m.settlementWallet ∧ b.command.chainId = m.settlementChainId ∧
    b.command.accountVersion = m.accountVersion
  /-- No batch of its owner has a greater version. -/
  greatest : ∀ b ∈ w.batches, ∃ m ∈ w.merchants, m.ownerUid = b.command.ownerUid ∧
    b.command.accountVersion ≤ m.accountVersion

/-- Rows stay, and their versions do not go down; records and batches stay. -/
structure Grows (w w' : Register) : Prop where
  merchants : ∀ m ∈ w.merchants, ∃ m' ∈ w'.merchants, m'.id = m.id ∧ m'.ownerUid = m.ownerUid ∧
    m.accountVersion ≤ m'.accountVersion
  commands : ∀ r ∈ w.commands, r ∈ w'.commands
  batches : ∀ b ∈ w.batches, b ∈ w'.batches

namespace Grows

theorem rfl (w : Register) : w.Grows w :=
  ⟨fun m hm => ⟨m, hm, Eq.refl _, Eq.refl _, Nat.le_refl _⟩, fun _ h => h, fun _ h => h⟩

theorem trans {w₁ w₂ w₃ : Register} (h : w₁.Grows w₂) (h' : w₂.Grows w₃) : w₁.Grows w₃ where
  merchants m hm := by
    obtain ⟨m₂, hm₂, id₂, owner₂, version₂⟩ := h.merchants m hm
    obtain ⟨m₃, hm₃, id₃, owner₃, version₃⟩ := h'.merchants m₂ hm₂
    exact ⟨m₃, hm₃, id₃.trans id₂, owner₃.trans owner₂, Nat.le_trans version₂ version₃⟩
  commands r hr := h'.commands r (h.commands r hr)
  batches b hb := h'.batches b (h.batches b hb)

end Grows

/-- Every record is of a batch, and every batch of a record. -/
structure Recorded (w : Register) : Prop where
  latest : w.Latest
  records : ∀ b ∈ w.batches, ∃ r ∈ w.commands, r.commandId = b.command.commandId
  batches : ∀ r ∈ w.commands, ∃ b ∈ w.batches, b.command.commandId = r.commandId

variable {w w' : Register} {input : SettlementAccountCommand}

/-- What the statement of a batch has to find for the rows to stay the latest: an update is of
the row of the owner, and a batch without one comes behind the version of the row. -/
def Suits (w : Register) (input : SettlementAccountCommand) : MerchantWrite → Prop
  | .insert _ => True
  | .update id => ∃ m ∈ w.merchants, m.id = id ∧ m.ownerUid = input.ownerUid
  | .none => ∃ m ∈ w.merchants, m.ownerUid = input.ownerUid ∧
      input.accountVersion ≤ m.accountVersion

theorem owner_eq {m m' : Merchant} (hm : m ∈ w.merchants) (hm' : m' ∈ w.merchants)
    (same : m.ownerUid = m'.ownerUid) : m = m' :=
  Table.eq_of_clash hm hm' (by simp [Row.clash, same])

theorem id_eq {m m' : Merchant} (hm : m ∈ w.merchants) (hm' : m' ∈ w.merchants)
    (same : m.id = m'.id) : m = m' :=
  Table.eq_of_clash hm hm' (by simp [Row.clash, same])

theorem command_eq {r r' : CommandRow} (hr : r ∈ w.commands) (hr' : r' ∈ w.commands)
    (same : r.commandId = r'.commandId) : r = r' :=
  Table.eq_of_clash hr hr' (beq_iff_eq.2 same)

/-- What the statement of a batch makes of the rows. -/
structure Written (w : Register) (input : SettlementAccountCommand) (merchants : Table Merchant)
    (changed : Bool) : Prop where
  kept : ∀ m ∈ w.merchants, ∃ m' ∈ merchants, m'.id = m.id ∧ m'.ownerUid = m.ownerUid ∧
    m.accountVersion ≤ m'.accountVersion
  /-- A row is as it was, or has what the command says. -/
  rows : ∀ m' ∈ merchants, m' ∈ w.merchants ∨ (m'.ownerUid = input.ownerUid ∧
    input.walletAddress = m'.settlementWallet ∧ input.chainId = m'.settlementChainId ∧
      input.accountVersion = m'.accountVersion)
  /-- The row of the owner is not behind the command. -/
  own : ∃ m' ∈ merchants, m'.ownerUid = input.ownerUid ∧ input.accountVersion ≤ m'.accountVersion

theorem written_insert {id : MerchantId} {merchants : Table Merchant}
    (h : w.merchants.insert (newMerchant id input) = some merchants) :
    Written w input merchants true := by
  obtain ⟨rows, -⟩ := Table.insert_rows h
  have mem : ∀ m, m ∈ merchants ↔ m ∈ w.merchants ∨ m = newMerchant id input :=
    fun m => Table.mem_of_rows_append rows
  refine ⟨fun m hm => ⟨m, (mem m).2 (.inl hm), Eq.refl _, Eq.refl _, Nat.le_refl _⟩, fun m hm => ?_,
    ⟨_, (mem _).2 (.inr (Eq.refl _)), Eq.refl _, Nat.le_refl _⟩⟩
  rcases (mem m).1 hm with hm | rfl
  · exact .inl hm
  · exact .inr ⟨Eq.refl _, Eq.refl _, Eq.refl _, Eq.refl _⟩

theorem written_update {id : MerchantId} (suits : w.Suits input (.update id)) :
    Written w input (w.merchants.modify (outdated id input.accountVersion) (updatedMerchant input)
      (updatedMerchant_keepsKeys input)) (w.merchants.any (outdated id input.accountVersion)) := by
  obtain ⟨m₀, hm₀, rfl, owner⟩ := suits
  refine ⟨fun m hm => ⟨_, Table.mem_modify.2 ⟨m, hm, Eq.refl _⟩, ?_⟩, fun m' hm' => ?_,
    ⟨_, Table.mem_modify.2 ⟨m₀, hm₀, Eq.refl _⟩, ?_⟩⟩
  · split
    · rename_i behind
      simp only [outdated, Bool.and_eq_true, decide_eq_true_eq] at behind
      exact ⟨Eq.refl _, Eq.refl _, Nat.le_of_lt behind.2⟩
    · exact ⟨Eq.refl _, Eq.refl _, Nat.le_refl _⟩
  · obtain ⟨m, hm, rfl⟩ := Table.mem_modify.1 hm'
    split
    · rename_i behind
      simp only [outdated, Bool.and_eq_true, beq_iff_eq] at behind
      obtain rfl := id_eq hm hm₀ behind.1
      exact .inr ⟨owner, Eq.refl _, Eq.refl _, Eq.refl _⟩
    · exact .inl hm
  · split
    · exact ⟨owner, Nat.le_refl _⟩
    · rename_i ahead
      simp only [outdated, beq_self_eq_true, Bool.true_and, decide_eq_true_eq, Nat.not_lt] at ahead
      exact ⟨owner, ahead⟩

theorem written {s : MerchantWrite} {merchants : Table Merchant} {changed : Bool}
    (suits : w.Suits input s) (h : w.write input s = some (merchants, changed)) :
    Written w input merchants changed := by
  cases s with
  | insert id =>
    simp only [write] at h
    split at h
    · obtain ⟨merchants', inserted, same⟩ := Option.map_eq_some_iff.1 h
      obtain ⟨rfl, rfl⟩ := Prod.mk.inj same
      exact written_insert inserted
    · cases h
  | update id =>
    obtain ⟨rfl, rfl⟩ := Prod.mk.inj (Option.some.inj h)
    exact written_update suits
  | none =>
    obtain ⟨rfl, rfl⟩ := Prod.mk.inj (Option.some.inj h)
    exact ⟨fun m hm => ⟨m, hm, Eq.refl _, Eq.refl _, Nat.le_refl _⟩, fun m hm => .inl hm, suits⟩

/-- A batch that was committed. -/
theorem runBatch_ok {s : MerchantWrite} {applied : Bool} (h : w.runBatch s input applied = some w') :
    ∃ merchants changed, w.write input s = some (merchants, changed) ∧ w'.merchants = merchants ∧
      w'.batches = w.batches ++ [{ command := input, changed }] ∧ w'.failures = w.failures ∧
      w.commands.Fits (commandRow input applied) ∧
      ∀ r, r ∈ w'.commands ↔ r ∈ w.commands ∨ r = commandRow input applied := by
  simp only [runBatch, Option.bind_eq_bind, Option.bind_eq_some_iff] at h
  obtain ⟨⟨merchants, changed⟩, write, commands, inserted, h⟩ := h
  obtain rfl := Option.some.inj h
  obtain ⟨rows, fits⟩ := Table.insert_rows inserted
  exact ⟨merchants, changed, write, Eq.refl _, Eq.refl _, Eq.refl _, fits,
    fun r => Table.mem_of_rows_append rows⟩

/-- A batch keeps the rows the latest. -/
theorem recorded_runBatch (h : w.Recorded) {s : MerchantWrite} {applied : Bool}
    (suits : w.Suits input s) (ok : w.runBatch s input applied = some w') :
    w'.Recorded ∧ w.Grows w' := by
  obtain ⟨merchants, changed, write, rfl, batches, -, -, commands⟩ := runBatch_ok ok
  have written := written suits write
  have mem : ∀ b, b ∈ w'.batches ↔ b ∈ w.batches ∨ b = { command := input, changed } := by
    intro b
    rw [batches, List.mem_append, List.mem_singleton]
  refine ⟨⟨⟨fun m hm => ?_, fun b hb => ?_⟩, fun b hb => ?_, fun r hr => ?_⟩, written.kept,
    fun r hr => (commands r).2 (.inl hr), fun b hb => (mem b).2 (.inl hb)⟩
  · rcases written.rows m hm with hm | ⟨owner, wallet, chain, version⟩
    · obtain ⟨b, hb, same⟩ := h.latest.taken m hm
      exact ⟨b, (mem b).2 (.inl hb), same⟩
    · exact ⟨_, (mem _).2 (.inr (Eq.refl _)), owner.symm, wallet, chain, version⟩
  · rcases (mem b).1 hb with hb | rfl
    · obtain ⟨m, hm, owner, le⟩ := h.latest.greatest b hb
      obtain ⟨m', hm', -, owner', le'⟩ := written.kept m hm
      exact ⟨m', hm', owner'.trans owner, Nat.le_trans le le'⟩
    · exact written.own
  · rcases (mem b).1 hb with hb | rfl
    · obtain ⟨r, hr, same⟩ := h.records b hb
      exact ⟨r, (commands r).2 (.inl hr), same⟩
    · exact ⟨_, (commands _).2 (.inr (Eq.refl _)), Eq.refl _⟩
  · rcases (commands r).1 hr with hr | rfl
    · obtain ⟨b, hb, same⟩ := h.batches r hr
      exact ⟨b, (mem b).2 (.inl hb), same⟩
    · exact ⟨_, (mem _).2 (.inr (Eq.refl _)), Eq.refl _⟩

end Register

/-- The batch is to change a row. -/
def MerchantWrite.writes : MerchantWrite → Bool
  | .none => false
  | _ => true

/-- A batch says that it is applied when it is to change a row. -/
def registerDiscipline : Discipline RegisterOp Register Unit Empty SettlementAccountCommand where
  Inv := Register.Recorded
  Evolves := Register.Grows
  ensures
    | .batch s _ applied, _, _ => applied = s.writes
    | _, _, _ => True
  refl := Register.Grows.rfl
  trans := Register.Grows.trans

section Handlers

variable {merchantIdForUid : Uid → MerchantId} {w w' : Register} {i : Nat}
  {input : SettlementAccountCommand}

/-- The operation is one that the discipline admits. -/
def RegisterOp.Suits (o : RegisterOp) (w : Register) : Prop :=
  match o with
  | .batch s input applied => w.Suits input s ∧ applied = s.writes
  | _ => True

theorem RegisterOp.exec_keeps (o : RegisterOp) (h : w.Recorded) (suits : o.Suits w) :
    (o.exec w).2.Recorded ∧ w.Grows (o.exec w).2 := by
  cases o with
  | selectCommand commandId => exact ⟨h, .rfl w⟩
  | getMerchantByOwner ownerUid => exact ⟨h, .rfl w⟩
  | batch s input applied =>
    simp only [exec]
    cases ok : w.runBatch s input applied with
    | some w' => exact Register.recorded_runBatch h suits.1 ok
    | none =>
      exact ⟨⟨⟨h.latest.taken, h.latest.greatest⟩, h.records, h.batches⟩,
        fun m hm => ⟨m, hm, rfl, rfl, Nat.le_refl _⟩, fun _ h => h, fun _ h => h⟩

theorem exec_performs (o : RegisterOp) (h : w.Recorded) (suits : o.Suits w) :
    registerDiscipline.Performs (registerSystem merchantIdForUid) i o () w := by
  obtain ⟨recorded, grows⟩ := o.exec_keeps h suits
  refine ⟨⟨recorded, grows⟩, fun _ _ => trivial, ?_⟩
  cases o with
  | batch s input applied => exact suits.2
  | _ => trivial

/-- The reply says what is on record. -/
def OnRecord (commandId : CommandId) (applied : Bool) (w : Register) : Prop :=
  ∃ r ∈ w.commands, r.commandId = commandId ∧ r.applied = applied

theorem OnRecord.grows {commandId : CommandId} {applied : Bool} (h : OnRecord commandId applied w)
    (grows : w.Grows w') : OnRecord commandId applied w' := by
  obtain ⟨r, hr, same⟩ := h
  exact ⟨r, grows.commands r hr, same⟩

def AnswersRecord (commandId : CommandId) :
    Except String SettlementAccountResult → Register → Prop
  | .ok result, w => OnRecord commandId result.applied w
  | .error _, _ => True

/-- What was read of a merchant suits the batch, whatever was written since. -/
theorem suits_merchantWrite {w₁ : Register} {merchantId : MerchantId}
    (grows : Register.Grows w w₁) :
    w₁.Suits input (merchantWrite merchantId
      (w.merchants.find? fun m => m.ownerUid == input.ownerUid)
      ((w.merchants.find? fun m => m.ownerUid == input.ownerUid).all fun m =>
        decide (m.accountVersion < input.accountVersion))) := by
  cases found : w.merchants.find? fun m => m.ownerUid == input.ownerUid with
  | none => trivial
  | some m =>
    have owner : m.ownerUid = input.ownerUid :=
      beq_iff_eq.1 (Table.of_find? (p := fun m : Merchant => m.ownerUid == input.ownerUid) found)
    obtain ⟨m₁, hm₁, id₁, owner₁, le⟩ := grows.merchants m (Table.mem_of_find? found)
    simp only [merchantWrite, Option.all_some, decide_eq_true_eq]
    split
    · exact ⟨m₁, hm₁, id₁, owner₁.trans owner⟩
    · rename_i ahead
      exact ⟨m₁, hm₁, owner₁.trans owner, Nat.le_trans (Nat.not_lt.1 ahead) le⟩

theorem writes_merchantWrite {merchantId : MerchantId} {existing : Option Merchant} {version : Nat} :
    (existing.all fun m => decide (m.accountVersion < version)) =
      (merchantWrite merchantId existing
        (existing.all fun m => decide (m.accountVersion < version))).writes := by
  cases existing with
  | none => rfl
  | some m =>
    by_cases behind : m.accountVersion < version
    · simp [merchantWrite, behind, MerchantWrite.writes]
    · simp [merchantWrite, behind, MerchantWrite.writes]

/-- A statement, and the rest. -/
theorem wp_statement {α : Type} {o : RegisterOp} {f : RegisterOp.Reply o → RegisterHandler α}
    {Q : Except String α → Register → Prop} (h : w.Recorded) (suits : o.Suits w)
    (rest : ∀ w', w'.Recorded → Register.Grows (o.exec w).2 w' →
      registerDiscipline.wp (registerSystem merchantIdForUid) i (f (o.exec w).1) Q w') :
    registerDiscipline.wp (registerSystem merchantIdForUid) i (statement o >>= f) Q w := by
  refine Discipline.wp_act _ _ (fun _ _ => exec_performs o h suits) fun _ _ w' later => ?_
  exact rest w' later.inv later.evolves

/-- A batch that was committed is on record. -/
theorem onRecord_of_committed {s : MerchantWrite} {applied : Bool}
    (committed : (RegisterOp.exec (.batch s input applied) w).1 = true) :
    OnRecord input.commandId applied (RegisterOp.exec (.batch s input applied) w).2 := by
  simp only [RegisterOp.exec] at committed ⊢
  split at committed
  · rename_i w' ok
    obtain ⟨-, -, -, -, -, -, -, commands⟩ := Register.runBatch_ok ok
    exact ⟨_, (commands _).2 (.inr rfl), rfl, rfl⟩
  · cases committed

theorem wp_upsertSettlementAccount (h : w.Recorded) :
    registerDiscipline.wp (registerSystem merchantIdForUid) i
      (upsertSettlementAccount merchantIdForUid input) (AnswersRecord input.commandId) w := by
  refine wp_statement h trivial fun w₁ h₁ grows₁ => ?_
  cases found : (RegisterOp.exec (.selectCommand input.commandId) w).1 with
  | some applied =>
    obtain ⟨r, record, rfl⟩ := Option.map_eq_some_iff.1 found
    have own : r.commandId = input.commandId :=
      beq_iff_eq.1 (Table.of_find? (p := fun r : CommandRow => r.commandId == input.commandId) record)
    have onRecord : OnRecord input.commandId r.applied w :=
      ⟨r, Table.mem_of_find? record, own, rfl⟩
    exact onRecord.grows grows₁
  | none =>
    refine wp_statement h₁ trivial fun w₂ h₂ grows₂ => ?_
    refine wp_statement h₂ ⟨suits_merchantWrite grows₂, writes_merchantWrite⟩ fun w₃ _ grows₃ => ?_
    -- the reply is that of the batch
    split
    · exact (onRecord_of_committed ‹_›).grows grows₃
    · trivial

/-- A reply is on record. -/
def Answers : Except String Replied → Register → Prop
  | .ok r, w => OnRecord r.commandId r.result.applied w
  | .error _, _ => True

theorem register_obeys (merchantIdForUid : Uid → MerchantId) :
    registerDiscipline.Obeys (registerSystem merchantIdForUid) Answers where
  env e := e.elim
  call c j w w' _ _ later := by
    refine Discipline.wp_seq _ _ (wp_upsertSettlementAccount later.inv) (fun r w'' record => ?_)
      fun _ _ _ => trivial
    exact record

theorem initial_recorded : Register.initial.Recorded where
  latest := ⟨fun _ h => absurd h (Table.not_mem_empty _), fun _ h => absurd h List.not_mem_nil⟩
  records _ h := absurd h List.not_mem_nil
  batches _ h := absurd h (Table.not_mem_empty _)

end Handlers

/-! ### Batches that find what was read -/

/-- The command is not on record yet, and a row that is to be updated is still behind it. -/
def RegisterOp.AsRead (o : RegisterOp) (w : Register) : Prop :=
  match o with
  | .batch s input _ => w.recorded input.commandId = false ∧
      ∀ id, s = .update id → w.merchants.any (Register.outdated id input.accountVersion) = true
  | _ => True

def asRead : System.Conditions RegisterOp Register Unit Empty SettlementAccountCommand where
  op _ o _ w := o.AsRead w

/-- Records tell what their batches did, and no batch fails whose command is on record. -/
structure Register.Exact (w : Register) : Prop where
  applied : ∀ r ∈ w.commands, ∀ b ∈ w.batches, b.command.commandId = r.commandId →
    r.applied = b.changed
  failures : ∀ f ∈ w.failures, f.recorded = false

section Conditions

variable {merchantIdForUid : Uid → MerchantId} {w w' : Register} {input : SettlementAccountCommand}

/-- A batch that finds what was read changes a row if it is to. -/
theorem changed_eq {s : MerchantWrite} {applied changed : Bool} {merchants : Table Merchant}
    (found : RegisterOp.AsRead (.batch s input applied) w) (writes : applied = s.writes)
    (write : w.write input s = some (merchants, changed)) : applied = changed := by
  subst writes
  cases s with
  | insert id =>
    simp only [Register.write] at write
    split at write
    · obtain ⟨merchants', -, same⟩ := Option.map_eq_some_iff.1 write
      exact (Prod.mk.inj same).2
    · cases write
  | update id =>
    obtain ⟨-, rfl⟩ := Prod.mk.inj (Option.some.inj write)
    exact (found.2 id rfl).symm
  | none =>
    obtain ⟨-, rfl⟩ := Prod.mk.inj (Option.some.inj write)
    rfl

theorem exact_runBatch (exact_ : w.Exact) (h : w.Recorded) {s : MerchantWrite} {applied : Bool}
    (found : RegisterOp.AsRead (.batch s input applied) w) (writes : applied = s.writes)
    (ok : w.runBatch s input applied = some w') : w'.Exact := by
  obtain ⟨merchants, changed, write, -, batches, failures, fits, commands⟩ := Register.runBatch_ok ok
  have agrees := changed_eq found writes write
  constructor
  · intro r hr b hb same
    rw [batches, List.mem_append, List.mem_singleton] at hb
    rcases (commands r).1 hr with hr | rfl
    · rcases hb with hb | rfl
      · exact exact_.applied r hr b hb same
      · have apart := fits r hr
        simp only [Row.clash, beq_eq_false_iff_ne] at apart
        exact absurd same.symm apart
    · rcases hb with hb | rfl
      · obtain ⟨r, hr, own⟩ := h.records b hb
        have apart := fits r hr
        simp only [Row.clash, beq_eq_false_iff_ne] at apart
        exact absurd (own.trans same) apart
      · exact agrees
  · rw [failures]
    exact exact_.failures

theorem exact_invariant :
    registerDiscipline.Invariant (registerSystem merchantIdForUid) Register.Exact asRead where
  env e := e.elim
  op i o x w h exact_ found performs := by
    cases o with
    | selectCommand commandId => exact exact_
    | getMerchantByOwner ownerUid => exact exact_
    | batch s input applied =>
      show (RegisterOp.exec (.batch s input applied) w).2.Exact
      simp only [RegisterOp.exec]
      split
      · exact exact_runBatch exact_ h found performs.ensured ‹_›
      · refine ⟨exact_.applied, fun f hf => ?_⟩
        rcases List.mem_append.1 hf with hf | hf
        · exact exact_.failures f hf
        · obtain rfl := List.mem_singleton.1 hf
          exact found.1

end Conditions

/-! ### The result -/

/-- The reply of a handler that has ended. -/
def replyOf : Prog RegisterOp RegisterOp.Reply Replied → Option Replied
  | .ret r => some r
  | _ => none

def replies (p : RegisterPool) : List Replied := p.threads.filterMap replyOf

/-- A reply says whether the batch of its command changed the row, and no delivery fails once
its command is on record. -/
structure Faithful (p : RegisterPool) : Prop where
  applied : ∀ r ∈ replies p, r.result.applied = true ↔
    ∃ b ∈ p.world.batches, b.command.commandId = r.commandId ∧ b.changed = true
  failures : ∀ f ∈ p.world.failures, f.recorded = false

theorem mem_replies {p : RegisterPool} {r : Replied} (h : r ∈ replies p) :
    ∃ i : Nat, p.threads[i]? = some (.ret r) := by
  obtain ⟨t, ht, hr⟩ := List.mem_filterMap.1 h
  obtain ⟨i, hi⟩ := List.mem_iff_getElem?.1 ht
  refine ⟨i, ?_⟩
  cases t with
  | ret a =>
    obtain rfl : a = r := Option.some.inj hr
    exact hi
  | throw m => cases hr
  | act o k => cases hr

/-- In every run the rows are those of the greatest versions that were committed, and the
versions do not go down.  In every run whose batches find what was read, each reply says
what its batch did, and no delivery of a command on record fails. -/
theorem settlement_accounts (merchantIdForUid : Uid → MerchantId) (ls ms : RegisterSchedule) :
    (registerRun merchantIdForUid ls).world.Latest ∧
      (registerRun merchantIdForUid ls).world.Grows
        (registerRun merchantIdForUid (ls ++ ms)).world ∧
      ((registerSystem merchantIdForUid).Along asRead ⟨.initial, []⟩ ls →
        Faithful (registerRun merchantIdForUid ls)) := by
  have obeys := register_obeys merchantIdForUid
  have start : registerDiscipline.Sound (registerSystem merchantIdForUid) Answers ⟨.initial, []⟩ :=
    Discipline.sound_empty initial_recorded
  have sound := Discipline.sound_runFrom obeys start (System.along_any _ _ ls)
  refine ⟨sound.inv.latest, ?_, fun found => ?_⟩
  · rw [registerRun, registerRun, System.run, System.run, System.runFrom_append]
    exact Discipline.evolves_runFrom obeys sound (System.along_any _ _ ms)
  · have begin : Register.initial.Exact :=
      ⟨fun _ h => absurd h (Table.not_mem_empty _), fun _ h => absurd h List.not_mem_nil⟩
    have exact_ := exact_invariant.holds obeys start begin (System.along_any _ _ ls) found
    refine ⟨fun r hr => ?_, exact_.failures⟩
    obtain ⟨i, hi⟩ := mem_replies hr
    obtain ⟨row, hrow, id, applied⟩ :=
      sound.threads i _ hi _ (Discipline.later_refl _ sound.inv)
    constructor
    · intro yes
      obtain ⟨b, hb, same⟩ := sound.inv.batches row hrow
      refine ⟨b, hb, same.trans id, ?_⟩
      rw [← exact_.applied row hrow b hb same, applied, yes]
    · rintro ⟨b, hb, same, changed⟩
      rw [← applied, exact_.applied row hrow b hb (same.trans id.symm), changed]

/-! Three versions of one owner, in the order of their numbers and in another. -/

def accountCommand (version : Nat) : SettlementAccountCommand where
  commandId := decimal version
  ownerUid := ['a']
  accountVersion := version
  walletAddress := 100 + version
  chainId := 4

/-- A delivery with nothing in between. -/
def delivered (thread version : Nat) : RegisterSchedule :=
  [.spawn (accountCommand version), .step thread (), .step thread (), .step thread ()]

def inOrder : RegisterSchedule := delivered 0 1 ++ delivered 1 3 ++ delivered 2 2 ++ delivered 3 3

instance (o : RegisterOp) (w : Register) : Decidable (o.AsRead w) :=
  match o with
  | .batch (.update id) input _ =>
    decidable_of_iff (w.recorded input.commandId = false ∧
        w.merchants.any (Register.outdated id input.accountVersion) = true)
      ⟨fun h => ⟨h.1, fun _ same => by cases same; exact h.2⟩, fun h => ⟨h.1, h.2 id rfl⟩⟩
  | .batch (.insert id) input _ =>
    decidable_of_iff (w.recorded input.commandId = false)
      ⟨fun h => ⟨h, fun _ same => by cases same⟩, fun h => h.1⟩
  | .batch .none input _ =>
    decidable_of_iff (w.recorded input.commandId = false)
      ⟨fun h => ⟨h, fun _ same => by cases same⟩, fun h => h.1⟩
  | .selectCommand _ | .getMerchantByOwner _ => isTrue trivial

instance : (e : Empty) → (w : Register) → Decidable (asRead.env e w)
  | e, _ => e.elim

instance (c : SettlementAccountCommand) (w : Register) : Decidable (asRead.call c w) :=
  inferInstanceAs (Decidable True)

instance (i : Nat) (o : RegisterOp) (x : Unit) (w : Register) : Decidable (asRead.op i o x w) :=
  inferInstanceAs (Decidable (o.AsRead w))

theorem settlement_accounts_inOrder :
    Faithful (registerRun List.length inOrder) ∧
      (replies (registerRun List.length inOrder)).map (·.result.applied) =
        [true, true, false, true] :=
  ⟨(settlement_accounts List.length inOrder []).2.2 (by decide), by decide⟩

/-- Versions 2 and 3 both read version 1, and 3 is committed first. -/
def overtaken : RegisterSchedule :=
  delivered 0 1 ++ ([.spawn (accountCommand 2), .step 1 (), .step 1 ()] : RegisterSchedule) ++
    delivered 2 3 ++ ([.step 1 ()] : RegisterSchedule)

/-- A command that is delivered twice at a time. -/
def deliveredTwice : RegisterSchedule :=
  delivered 0 1 ++ ([.spawn (accountCommand 2), .step 1 (), .step 1 ()] : RegisterSchedule) ++
    delivered 2 2 ++ ([.step 1 ()] : RegisterSchedule)

/-- Version 2 is said to be applied, and changed nothing; and the second delivery of a
command fails when the first has put it on record. -/
theorem replies_unfaithful :
    (¬ Faithful (registerRun List.length overtaken)) ∧
      ¬ Faithful (registerRun List.length deliveredTwice) := by
  constructor
  · intro faithful
    have applied := faithful.applied
      { commandId := decimal 2, result := { merchantId := 1, accountVersion := 2, applied := true } }
      (by decide)
    obtain ⟨b, hb, same, changed⟩ := applied.1 rfl
    have none : ∀ b ∈ (registerRun List.length overtaken).world.batches,
        b.command.commandId = decimal 2 → b.changed = false := by decide
    rw [none b hb same] at changed
    cases changed
  · intro faithful
    have failed : { commandId := decimal 2, recorded := true } ∈
        (registerRun List.length deliveredTwice).world.failures := by decide
    cases faithful.failures _ failed

end ParmeliaLinks.Accounts
