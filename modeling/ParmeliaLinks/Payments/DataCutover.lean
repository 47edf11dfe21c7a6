/-
ParmeliaLinks/Payments/DataCutover.lean

The two gates that writes of the payments worker have to pass.  The bootstrap flag is a
variable of the deployment, and anything but an explicit `false` leaves that gate closed.
The other gate compares a configured checksum with the row that the import of the legacy
data leaves in `payment_migration_control`.
-/
import ParmeliaLinks.Lib.Alone
import ParmeliaLinks.Lib.SqlText
import ParmeliaLinks.Payments.Schema

namespace ParmeliaLinks.Payments

/-! ### Texts of the configuration -/

/-- White space, as `trim` takes it off. -/
def isWhiteSpace (c : Char) : Bool :=
  let n := c.toNat
  decide (9 ≤ n ∧ n ≤ 13) || n == 0x20 || n == 0xA0 || n == 0x1680 ||
    decide (0x2000 ≤ n ∧ n ≤ 0x200A) || n == 0x2028 || n == 0x2029 || n == 0x202F ||
      n == 0x205F || n == 0x3000 || n == 0xFEFF

def trim (t : Text) : Text :=
  ((t.dropWhile isWhiteSpace).reverse.dropWhile isWhiteSpace).reverse

/-- `value?.trim().toLowerCase() || null`. -/
def normalized (value : Option Text) : Option Text :=
  (value.map fun t => (trim t).map Char.toLower).filter (· != [])

/-- `/^[0-9a-f]{64}$/u`. -/
def sha256Hex (t : Text) : Bool :=
  t.length == 64 && t.all fun c => c.isDigit || decide ('a' ≤ c ∧ c ≤ 'f')

/-! ### Bootstrap -/

structure PaymentsBootstrapState where
  active : Bool
  configuredValue : Option Text
  valid : Bool

/-- The argument is `PAYMENTS_BOOTSTRAP_MODE`. -/
def paymentsBootstrapState (mode : Option Text) : PaymentsBootstrapState :=
  let configuredValue := normalized mode
  if configuredValue = some ['f', 'a', 'l', 's', 'e'] then
    { active := false, configuredValue, valid := true }
  else if configuredValue = some ['t', 'r', 'u', 'e'] ∨ configuredValue = none then
    { active := true, configuredValue, valid := true }
  else { active := true, configuredValue, valid := false }

/-! ### Data cutover -/

/-- The row of `payment_migration_control`, as far as the gate reads it. -/
structure PaymentMigrationControl where
  legacyCopyVersion : Nat
  legacyCopyCompletedAt : Option Text
  legacySourceChecksum : Option Text
  legacyTargetChecksum : Option Text
  deriving DecidableEq

inductive PaymentsDataCutoverReason
  | configuredChecksumPending
  | configuredChecksumInvalid
  | migrationControlUnavailable
  | migrationControlMissing
  | migrationIncomplete
  | migrationChecksumInvalid
  | migrationChecksumMismatch
  | verified
  deriving DecidableEq

inductive CutoverStatus | verified | pending | invalid
  deriving DecidableEq

structure PaymentsDataCutoverState where
  ready : Bool
  status : CutoverStatus
  configValid : Bool
  databaseValid : Bool
  reason : PaymentsDataCutoverReason

/-- A column, or the empty text. -/
def columnText (value : Option Text) : Text := (value.map trim).getD []

def classifyPaymentsDataCutover (configuredChecksum : Option Text)
    (control : Option PaymentMigrationControl) : PaymentsDataCutoverState :=
  let expected := (normalized configuredChecksum).getD []
  if expected = ['p', 'e', 'n', 'd', 'i', 'n', 'g'] then
    { ready := false, status := .pending, configValid := true, databaseValid := false
      reason := .configuredChecksumPending }
  else if !sha256Hex expected then
    { ready := false, status := .invalid, configValid := false, databaseValid := false
      reason := .configuredChecksumInvalid }
  else
    match control with
    | none =>
      { ready := false, status := .invalid, configValid := true, databaseValid := true
        reason := .migrationControlMissing }
    | some control =>
      let source := (columnText control.legacySourceChecksum).map Char.toLower
      let target := (columnText control.legacyTargetChecksum).map Char.toLower
      if control.legacyCopyVersion ≠ 1 ∨ columnText control.legacyCopyCompletedAt = [] then
        { ready := false, status := .pending, configValid := true, databaseValid := true
          reason := .migrationIncomplete }
      else if !sha256Hex source || !sha256Hex target then
        { ready := false, status := .invalid, configValid := true, databaseValid := true
          reason := .migrationChecksumInvalid }
      else if source ≠ target ∨ source ≠ expected then
        { ready := false, status := .invalid, configValid := true, databaseValid := true
          reason := .migrationChecksumMismatch }
      else
        { ready := true, status := .verified, configValid := true, databaseValid := true
          reason := .verified }

/-! ### Both gates -/

/-- The variables that the gates read. -/
structure GateConfig where
  bootstrapMode : Option Text
  dataCutoverChecksum : Option Text

inductive WriteReason
  | ready
  | bootstrapActive
  | bootstrapInvalid
  | dataCutover (reason : PaymentsDataCutoverReason)
  deriving DecidableEq

structure PaymentsWriteAvailability where
  available : Bool
  bootstrap : PaymentsBootstrapState
  dataCutover : Option PaymentsDataCutoverState
  reason : WriteReason

section

variable {Op : Type} {Reply : Op → Type}

/-- The row of the control table is only read when the configuration allows it.  `control` is
the query, which answers `none` when it fails. -/
def paymentsDataCutoverState (config : GateConfig)
    (control : Prog Op Reply (Option (Option PaymentMigrationControl))) :
    Prog Op Reply PaymentsDataCutoverState :=
  let configured := classifyPaymentsDataCutover config.dataCutoverChecksum none
  if !configured.configValid || configured.reason = .configuredChecksumPending then
    return configured
  else do
    match ← control with
    | some row => return classifyPaymentsDataCutover config.dataCutoverChecksum row
    | none =>
      return { ready := false, status := .invalid, configValid := true, databaseValid := false
               reason := .migrationControlUnavailable }

def paymentsWriteAvailability (config : GateConfig)
    (control : Prog Op Reply (Option (Option PaymentMigrationControl))) :
    Prog Op Reply PaymentsWriteAvailability :=
  let bootstrap := paymentsBootstrapState config.bootstrapMode
  if !bootstrap.valid then
    return { available := false, bootstrap, dataCutover := none, reason := .bootstrapInvalid }
  else if bootstrap.active then
    return { available := false, bootstrap, dataCutover := none, reason := .bootstrapActive }
  else do
    let dataCutover ← paymentsDataCutoverState config control
    return { available := dataCutover.ready, bootstrap, dataCutover := some dataCutover
             reason := if dataCutover.ready then .ready else .dataCutover dataCutover.reason }

end

/-! ### What the gates say of a state -/

/-- The answer of both gates in a state with this control row. -/
def writesAvailable (config : GateConfig) (control : Option PaymentMigrationControl) : Bool :=
  let bootstrap := paymentsBootstrapState config.bootstrapMode
  bootstrap.valid && !bootstrap.active &&
    (classifyPaymentsDataCutover config.dataCutoverChecksum control).ready

variable {Op : Type} {Reply : Op → Type} {W : Type} {exec : (o : Op) → W → Reply o × W} {w : W}
  {config : GateConfig} {control : Option PaymentMigrationControl}

/-- A configuration that is not valid, or pending, is not ready whatever the row is. -/
theorem classify_ready_none (control : Option PaymentMigrationControl) (checksum : Option Text)
    (closed : (!(classifyPaymentsDataCutover checksum none).configValid ||
      (classifyPaymentsDataCutover checksum none).reason = .configuredChecksumPending) = true) :
    (classifyPaymentsDataCutover checksum control).ready = false := by
  unfold classifyPaymentsDataCutover at closed ⊢
  dsimp only at closed ⊢
  split
  · rfl
  · split
    · rfl
    · rename_i pending invalid
      rw [if_neg pending, if_neg invalid] at closed
      cases closed

theorem classify_none_ready (checksum : Option Text) :
    (classifyPaymentsDataCutover checksum none).ready = false := by
  unfold classifyPaymentsDataCutover
  dsimp only
  split
  · rfl
  · split <;> rfl

/-- The gates read the control row and change nothing. -/
theorem ends_paymentsWriteAvailability {query : Prog Op Reply (Option (Option PaymentMigrationControl))}
    (read : query.alone exec w = (.ok (some control), w)) :
    (paymentsWriteAvailability config query).Ends exec w fun availability w' =>
      availability.available = writesAvailable config control ∧ w' = w := by
  unfold paymentsWriteAvailability writesAvailable
  dsimp only
  split
  · rename_i invalid
    refine Prog.ends_ret ⟨?_, rfl⟩
    rw [Bool.not_eq_true'] at invalid
    rw [invalid]
    rfl
  · rename_i valid
    rw [Bool.not_eq_true', Bool.not_eq_false] at valid
    rw [valid]
    split
    · rename_i active
      refine Prog.ends_ret ⟨?_, rfl⟩
      rw [active]
      rfl
    · rename_i inactive
      rw [Bool.not_eq_true] at inactive
      rw [inactive]
      refine Prog.ends_bind (R := fun state w' =>
        state.ready = (classifyPaymentsDataCutover config.dataCutoverChecksum control).ready ∧
          w' = w) ?_ fun state w' ⟨ready, same⟩ => ?_
      · unfold paymentsDataCutoverState
        dsimp only
        split
        · rename_i closed
          refine Prog.ends_ret ⟨?_, rfl⟩
          rw [classify_ready_none control _ closed, classify_none_ready]
        · refine ⟨_, _, ?_, rfl, rfl⟩
          exact Prog.alone_bind read
      · exact Prog.ends_ret ⟨ready, same⟩

end ParmeliaLinks.Payments
