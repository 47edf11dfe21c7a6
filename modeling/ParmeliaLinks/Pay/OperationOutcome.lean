/-
ParmeliaLinks/Pay/OperationOutcome.lean

What became of a user operation, as the server reads it from the logs of a receipt.

Both readers (`getUserOpResult`, `parseUserOperationReceiptFromLogs`) let the client
library decode every log of the receipt as a UserOperationEvent and take the first
one with the hash of the operation.  Nothing asks which contract emitted it, although
the watcher filters on the EntryPoint and the transfers of a receipt are filtered on
the token.  A call of the bundle that emits a log of this form is believed when it
stands before the event of the EntryPoint.

The library is a parameter.  It decodes what a contract has written, and it does not
insist: of a log with the right selector and too little else it reports what it
found, or no arguments at all.
-/
import ParmeliaLinks.Lib.Abi

namespace ParmeliaLinks.Pay.Outcome

open ParmeliaLinks

/-! ### The first match of a filtered list -/

section Scan

variable {α β : Type} {p q : α → Bool} {d : β} {f : α → β} {l : List α} {a : α}

/-- The first element of a list that is looked for. -/
def FirstMatch (p : α → Bool) (l : List α) (a : α) : Prop :=
  ∃ before after, l = before ++ a :: after ∧ p a = true ∧ ∀ b ∈ before, p b = false

theorem firstMatch_iff : FirstMatch p l a ↔ l.find? p = some a := by
  rw [List.find?_eq_some_iff_append]
  constructor
  · rintro ⟨before, after, split, here, none⟩
    exact ⟨here, before, after, split, fun b hb => by rw [none b hb]; rfl⟩
  · rintro ⟨here, before, after, split, none⟩
    refine ⟨before, after, split, here, fun b hb => ?_⟩
    simpa using none b hb

/-- Removing elements that are not the first match leaves it the first match. -/
theorem find?_filter_of_find? (found : l.find? p = some a) (kept : q a = true) :
    (l.filter q).find? p = some a := by
  obtain ⟨here, before, after, split, none⟩ := List.find?_eq_some_iff_append.1 found
  refine List.find?_eq_some_iff_append.2 ⟨here, before.filter q, after.filter q, ?_, ?_⟩
  · rw [split, List.filter_append, List.filter_cons_of_pos kept]
  · intro b hb
    exact none b ((List.mem_filter.1 hb).1)

/-- A scan for the first match does not see what a filter removes exactly if a first
match that is removed gives what the filtered list gives. -/
theorem scan_filter_iff :
    (l.find? p).elim d f = ((l.filter q).find? p).elim d f ↔
      ∀ a, FirstMatch p l a → q a = false → f a = ((l.filter q).find? p).elim d f := by
  cases found : l.find? p with
  | none =>
    have nothing : (l.filter q).find? p = none := by
      rw [List.find?_eq_none] at found ⊢
      exact fun x hx => found x ((List.mem_filter.1 hx).1)
    refine ⟨fun _ a first _ => ?_, fun _ => by rw [nothing]⟩
    rw [firstMatch_iff, found] at first
    cases first
  | some a =>
    refine ⟨fun same b first _ => ?_, fun removed => ?_⟩
    · rw [firstMatch_iff, found] at first
      obtain rfl := Option.some.inj first
      exact same
    · cases kept : q a with
      | true => rw [find?_filter_of_find? found kept]
      | false => exact removed a (firstMatch_iff.2 found) kept

end Scan

/-! ### Logs and events -/

abbrev Address := BitVec 160
abbrev Word := BitVec 256

structure Log where
  address : Address
  topics : List Word
  data : Bytes
  deriving DecidableEq

/-- `UserOperationEvent`, as a contract emits it. -/
structure UserOperationEvent where
  userOpHash : Word
  sender : Address
  paymaster : Address
  nonce : Word
  success : Bool
  actualGasCost : Word
  actualGasUsed : Word
  deriving DecidableEq

namespace UserOperationEvent

variable (e : UserOperationEvent)

/-- The indexed arguments, behind the selector. -/
def topics (topic0 : Word) : List Word :=
  [topic0, e.userOpHash, e.sender.setWidth 256, e.paymaster.setWidth 256]

def data : Bytes :=
  word e.nonce ++ word (if e.success then 1#256 else 0#256) ++ word e.actualGasCost ++
    word e.actualGasUsed

def log (topic0 : Word) (emitter : Address) : Log := ⟨emitter, e.topics topic0, e.data⟩

end UserOperationEvent

/-- `event.args`, as far as it is read: each of them may be undefined. -/
structure EventArgs where
  userOpHash : Option Word
  success : Option Bool
  actualGasCost : Option Nat
  actualGasUsed : Option Nat
  deriving DecidableEq

def UserOperationEvent.args (e : UserOperationEvent) : EventArgs :=
  ⟨some e.userOpHash, some e.success, some e.actualGasCost.toNat, some e.actualGasUsed.toNat⟩

/-- How the client library reads a log as a UserOperationEvent, with `strict: false`:
not at all if the selector is another one, else with the arguments it could decode,
which may be undefined as a whole. -/
structure EventDecoder where
  topic0 : Word
  decodeEventLog : List Word → Bytes → Option (Option EventArgs)
  decodes : ∀ e : UserOperationEvent, decodeEventLog (e.topics topic0) e.data = some (some e.args)
  selects : ∀ topics data, topics.head? ≠ some topic0 → decodeEventLog topics data = none

/-- A decoded log. -/
structure ParsedLog where
  log : Log
  args : Option EventArgs

/-- What `getUserOpResult` returns. -/
structure UserOpResult where
  success : Bool
  actualGasCost : Nat
  deriving DecidableEq

/-- What a transport takes from the logs of a receipt. -/
structure ReceiptResult where
  success : Bool
  actualGasCost : Nat
  actualGasUsed : Nat
  deriving DecidableEq

/-- Reading a field of arguments that are undefined. -/
inductive TypeError | argsUndefined
  deriving DecidableEq

/-! ### The readers -/

section Readers

variable (V : EventDecoder) (entryPoint : Address)

/-- `parseEventLogs`. -/
def parseEventLogs (logs : List Log) : List ParsedLog :=
  logs.filterMap fun log => (V.decodeEventLog log.topics log.data).map (⟨log, ·⟩)

def EventArgs.result (args : EventArgs) : Option UserOpResult :=
  args.success.map (⟨·, args.actualGasCost.getD 0⟩)

def EventArgs.receipt (args : EventArgs) : Option ReceiptResult :=
  args.success.map (⟨·, args.actualGasCost.getD 0, args.actualGasUsed.getD 0⟩)

def getUserOpResult (logs : List Log) (userOpHash : Word) : Option UserOpResult :=
  match (parseEventLogs V logs).find? fun e => e.args.bind (·.userOpHash) == some userOpHash with
  | none => none
  | some e => e.args.bind (·.result)

/-- The predicate that the second reader gives to `find`. -/
def isCandidate (userOpHash : Word) (e : ParsedLog) : Except TypeError Bool :=
  match e.args with
  | none => .error .argsUndefined
  | some args => .ok (args.userOpHash == some userOpHash)

def parseUserOperationReceiptFromLogs (logs : List Log) (userOpHash : Word) :
    Except TypeError (Option ReceiptResult) := do
  match ← (parseEventLogs V logs).findM? (isCandidate userOpHash) with
  | none => return none
  | some e => return e.args.bind (·.receipt)

/-! ### What the EntryPoint says -/

def entryPointLogs (logs : List Log) : List Log := logs.filter (·.address == entryPoint)

/-- The EntryPoint emitted the event. -/
def Emitted (logs : List Log) (e : UserOperationEvent) : Prop := e.log V.topic0 entryPoint ∈ logs

/-- How the EntryPoint writes: its logs with this selector are UserOperationEvents,
and an operation is not executed twice, so they do not disagree about it. -/
structure EntryPointWrites (logs : List Log) : Prop where
  events : ∀ log ∈ logs, log.address = entryPoint → log.topics.head? = some V.topic0 →
    ∃ e : UserOperationEvent, log = e.log V.topic0 entryPoint
  once : ∀ e e', Emitted V entryPoint logs e → Emitted V entryPoint logs e' →
    e.userOpHash = e'.userOpHash → e.args = e'.args

/-- The operation succeeded, by the word of the EntryPoint. -/
def Succeeded (logs : List Log) (userOpHash : Word) : Prop :=
  ∃ e, Emitted V entryPoint logs e ∧ e.userOpHash = userOpHash ∧ e.success = true

/-! ### What a log says, whoever emitted it -/

/-- The arguments of a log, when it has any. -/
def argsOf (log : Log) : Option EventArgs := (V.decodeEventLog log.topics log.data).join

/-- The log is read as an event of the operation. -/
def names (userOpHash : Word) (log : Log) : Bool :=
  (argsOf V log).bind (·.userOpHash) == some userOpHash

/-- The log is read as an event without arguments. -/
def isBlank (log : Log) : Bool := V.decodeEventLog log.topics log.data == some none

/-- The second reader does not get past the log. -/
def stops (userOpHash : Word) (log : Log) : Bool := isBlank V log || names V userOpHash log

/-- The log says that the operation succeeded. -/
def saysSuccess (log : Log) : Bool := (argsOf V log).bind (·.success) == some true

/-- What a reader makes of a log is what the EntryPoint says of the operation: it has
the values of its event, or there is no such event and the log says nothing. -/
def Agrees {ρ : Type} (read : EventArgs → Option ρ) (logs : List Log) (userOpHash : Word)
    (said : Option ρ) : Prop :=
  (∃ e, Emitted V entryPoint logs e ∧ e.userOpHash = userOpHash ∧ said = read e.args) ∨
    (∀ e, Emitted V entryPoint logs e → e.userOpHash ≠ userOpHash) ∧ said = none

/-- What a reader reports is decided by the EntryPoint: success exactly if it says so, and
what a receipt with its logs alone would give. -/
structure DecidedByEntryPoint {ρ : Type} (reports : List Log → ρ) (success : ρ → Prop)
    (logs : List Log) (userOpHash : Word) : Prop where
  success : success (reports logs) ↔ Succeeded V entryPoint logs userOpHash
  alone : reports logs = reports (entryPointLogs entryPoint logs)

end Readers

/-- `getUserOpResult` reports success. -/
def ReportsSuccess (r : Option UserOpResult) : Prop := ∃ result, r = some result ∧ result.success

/-- `parseUserOperationReceiptFromLogs` reports success. -/
def ReceiptSuccess (r : Except TypeError (Option ReceiptResult)) : Prop :=
  ∃ result, r = .ok (some result) ∧ result.success

/-! ### The readers as scans -/

variable {V : EventDecoder} {entryPoint : Address} {logs : List Log} {h : Word}

theorem getUserOpResult_eq :
    getUserOpResult V logs h =
      (logs.find? (names V h)).elim none fun log => (argsOf V log).bind (·.result) := by
  have reading : (parseEventLogs V logs).find? (fun e => e.args.bind (·.userOpHash) == some h) =
      (logs.find? (names V h)).bind fun log =>
        (V.decodeEventLog log.topics log.data).map (⟨log, ·⟩) := by
    rw [parseEventLogs, List.find?_filterMap]
    refine congrArg (Option.bind · _) (congrArg (List.find? · logs) (funext fun log => ?_))
    unfold names argsOf
    cases V.decodeEventLog log.topics log.data <;> rfl
  unfold getUserOpResult
  rw [reading]
  cases found : logs.find? (names V h) with
  | none => rfl
  | some log =>
    rw [Option.bind_some, Option.elim_some]
    unfold argsOf
    cases V.decodeEventLog log.topics log.data <;> rfl

/-- What the second reader makes of the log at which it stops. -/
def receiptOfLog (V : EventDecoder) (log : Log) : Except TypeError (Option ReceiptResult) :=
  (argsOf V log).elim (.error .argsUndefined) fun args => .ok args.receipt

theorem parseUserOperationReceiptFromLogs_eq :
    parseUserOperationReceiptFromLogs V logs h =
      (logs.find? (stops V h)).elim (.ok none) (receiptOfLog V) := by
  induction logs with
  | nil => rfl
  | cons log logs ih =>
    unfold parseUserOperationReceiptFromLogs parseEventLogs at ih ⊢
    -- the library skips the log, finds no arguments, or decodes it
    rcases decoded : V.decodeEventLog log.topics log.data with - | - | args
    · have goesOn : ¬ stops V h log = true := by
        simp [stops, isBlank, names, argsOf, decoded]
      rw [List.filterMap_cons_none (by rw [decoded]; rfl), List.find?_cons_of_neg goesOn]
      exact ih
    · have stopped : stops V h log = true := by simp [stops, isBlank, decoded]
      have blank : argsOf V log = none := by rw [argsOf, decoded]; rfl
      rw [List.filterMap_cons_some (by rw [decoded]; rfl), List.find?_cons_of_pos stopped,
        Option.elim_some, receiptOfLog, blank]
      rfl
    · have read : argsOf V log = some args := by rw [argsOf, decoded]; rfl
      rw [List.filterMap_cons_some (by rw [decoded]; rfl)]
      cases named : args.userOpHash == some h with
      | true =>
        have stopped : stops V h log = true := by
          simp [stops, names, read, eq_of_beq named]
        rw [List.find?_cons_of_pos stopped, Option.elim_some, receiptOfLog, read]
        simp only [List.findM?, isCandidate, named]
        rfl
      | false =>
        have goesOn : ¬ stops V h log = true := by
          simp [stops, isBlank, names, read, decoded, ne_of_beq_false named]
        rw [List.find?_cons_of_neg goesOn]
        simp only [List.findM?, isCandidate, named]
        exact ih

/-! ### The logs of the EntryPoint -/

theorem argsOf_log (e : UserOperationEvent) (emitter : Address) :
    argsOf V (e.log V.topic0 emitter) = some e.args := by
  unfold argsOf
  rw [UserOperationEvent.log, V.decodes]
  rfl

theorem names_log (e : UserOperationEvent) (emitter : Address) :
    names V h (e.log V.topic0 emitter) = (e.userOpHash == h) := by
  unfold names
  rw [argsOf_log]
  rfl

theorem stops_log (e : UserOperationEvent) (emitter : Address) :
    stops V h (e.log V.topic0 emitter) = (e.userOpHash == h) := by
  unfold stops isBlank
  rw [names_log, UserOperationEvent.log, V.decodes]
  rfl

theorem names_other {log : Log} (other : log.topics.head? ≠ some V.topic0) :
    names V h log = false := by
  unfold names argsOf
  rw [V.selects _ _ other]
  rfl

theorem stops_other {log : Log} (other : log.topics.head? ≠ some V.topic0) :
    stops V h log = false := by
  unfold stops isBlank
  rw [names_other other, V.selects _ _ other]
  rfl

/-- The event of the EntryPoint is found among its own logs, when there is one. -/
theorem find?_entryPointLogs (writes : EntryPointWrites V entryPoint logs) {p : Log → Bool}
    (own : ∀ e : UserOperationEvent, p (e.log V.topic0 entryPoint) = (e.userOpHash == h))
    (other : ∀ log : Log, log.topics.head? ≠ some V.topic0 → p log = false) :
    (∃ e, Emitted V entryPoint logs e ∧ e.userOpHash = h ∧
        (entryPointLogs entryPoint logs).find? p = some (e.log V.topic0 entryPoint)) ∨
      (∀ e, Emitted V entryPoint logs e → e.userOpHash ≠ h) ∧
        (entryPointLogs entryPoint logs).find? p = none := by
  cases found : (entryPointLogs entryPoint logs).find? p with
  | none =>
    refine .inr ⟨fun e emitted same => ?_, rfl⟩
    rw [List.find?_eq_none] at found
    refine found _ (List.mem_filter.2 ⟨emitted, beq_self_eq_true _⟩) ?_
    rw [own e, same, beq_self_eq_true]
  | some log =>
    obtain ⟨hlog, emitter⟩ := List.mem_filter.1 (List.mem_of_find?_eq_some found)
    have matched := List.find?_some found
    have event : log.topics.head? = some V.topic0 := by
      by_contra otherwise
      rw [other log otherwise] at matched
      cases matched
    obtain ⟨e, rfl⟩ := writes.events log hlog (eq_of_beq emitter) event
    rw [own e] at matched
    exact .inl ⟨e, hlog, eq_of_beq matched, rfl⟩

theorem mem_entryPointLogs {log : Log} :
    log ∈ entryPointLogs entryPoint logs ↔ log ∈ logs ∧ log.address = entryPoint := by
  rw [entryPointLogs, List.mem_filter, beq_iff_eq]

theorem succeeded_iff (writes : EntryPointWrites V entryPoint logs) {e : UserOperationEvent}
    (emitted : Emitted V entryPoint logs e) (same : e.userOpHash = h) :
    Succeeded V entryPoint logs h ↔ e.success = true := by
  constructor
  · rintro ⟨e', emitted', same', success⟩
    have agree := writes.once e e' emitted emitted' (same.trans same'.symm)
    rw [← success]
    exact Option.some.inj (congrArg EventArgs.success agree)
  · exact fun success => ⟨e, emitted, same, success⟩

/-- Whether the EntryPoint's own logs report success is what the EntryPoint says. -/
theorem scan_saysSuccess (writes : EntryPointWrites V entryPoint logs) {p : Log → Bool}
    (own : ∀ e : UserOperationEvent, p (e.log V.topic0 entryPoint) = (e.userOpHash == h))
    (other : ∀ log : Log, log.topics.head? ≠ some V.topic0 → p log = false) :
    ((entryPointLogs entryPoint logs).find? p).elim false (saysSuccess V) = true ↔
      Succeeded V entryPoint logs h := by
  rcases find?_entryPointLogs writes own other with ⟨e, emitted, same, found⟩ | ⟨none, found⟩
  · rw [found, Option.elim_some, succeeded_iff writes emitted same, saysSuccess, argsOf_log]
    show (some e.success == some true) = true ↔ _
    rw [beq_iff_eq, Option.some.injEq]
  · rw [found, Option.elim_none]
    refine ⟨fun no => absurd no (by decide), ?_⟩
    rintro ⟨e, emitted, same, -⟩
    exact absurd same (none e emitted)

/-- A scan over all logs reports success when the EntryPoint does, exactly if a first
match of another contract says what the EntryPoint says. -/
theorem scan_success_iff (writes : EntryPointWrites V entryPoint logs) {p : Log → Bool}
    (own : ∀ e : UserOperationEvent, p (e.log V.topic0 entryPoint) = (e.userOpHash == h))
    (other : ∀ log : Log, log.topics.head? ≠ some V.topic0 → p log = false) :
    ((logs.find? p).elim false (saysSuccess V) = true ↔ Succeeded V entryPoint logs h) ↔
      ∀ log, FirstMatch p logs log → log.address ≠ entryPoint →
        (saysSuccess V log = true ↔ Succeeded V entryPoint logs h) := by
  have told := scan_saysSuccess writes own other
  rw [← told, ← Bool.eq_iff_iff]
  refine scan_filter_iff.trans ?_
  refine forall_congr' fun log => imp_congr_right fun _ => imp_congr ?_ Bool.eq_iff_iff
  rw [beq_eq_false_iff_ne]

/-! ### What decides the outcome -/

theorem reportsSuccess_iff :
    ReportsSuccess (getUserOpResult V logs h) ↔
      (logs.find? (names V h)).elim false (saysSuccess V) = true := by
  rw [getUserOpResult_eq]
  cases logs.find? (names V h) with
  | none => simp [ReportsSuccess]
  | some log =>
    rw [Option.elim_some, Option.elim_some, saysSuccess]
    rcases argsOf V log with - | ⟨hash, - | success, cost, used⟩ <;>
      simp [ReportsSuccess, EventArgs.result]

theorem receiptSuccess_iff :
    ReceiptSuccess (parseUserOperationReceiptFromLogs V logs h) ↔
      (logs.find? (stops V h)).elim false (saysSuccess V) = true := by
  rw [parseUserOperationReceiptFromLogs_eq]
  cases logs.find? (stops V h) with
  | none => simp [ReceiptSuccess]
  | some log =>
    rw [Option.elim_some, Option.elim_some, saysSuccess, receiptOfLog]
    rcases argsOf V log with - | ⟨hash, - | success, cost, used⟩ <;>
      simp [ReceiptSuccess, EventArgs.receipt]

/-- `getUserOpResult` reports success when the EntryPoint does, exactly if a first event of
another contract for the operation says what the EntryPoint says. -/
theorem reportsSuccess_iff_succeeded (writes : EntryPointWrites V entryPoint logs) :
    (ReportsSuccess (getUserOpResult V logs h) ↔ Succeeded V entryPoint logs h) ↔
      ∀ log, FirstMatch (names V h) logs log → log.address ≠ entryPoint →
        (saysSuccess V log = true ↔ Succeeded V entryPoint logs h) := by
  rw [reportsSuccess_iff]
  exact scan_success_iff writes (fun e => names_log e entryPoint) fun _ => names_other

theorem receiptSuccess_iff_succeeded (writes : EntryPointWrites V entryPoint logs) :
    (ReceiptSuccess (parseUserOperationReceiptFromLogs V logs h) ↔ Succeeded V entryPoint logs h) ↔
      ∀ log, FirstMatch (stops V h) logs log → log.address ≠ entryPoint →
        (saysSuccess V log = true ↔ Succeeded V entryPoint logs h) := by
  rw [receiptSuccess_iff]
  exact scan_success_iff writes (fun e => stops_log e entryPoint) fun _ => stops_other

/-- What the EntryPoint's own logs give to a reader, in terms of its events. -/
theorem agrees_iff (writes : EntryPointWrites V entryPoint logs) {p : Log → Bool}
    (own : ∀ e : UserOperationEvent, p (e.log V.topic0 entryPoint) = (e.userOpHash == h))
    (other : ∀ log : Log, log.topics.head? ≠ some V.topic0 → p log = false)
    {ρ : Type} {read : EventArgs → Option ρ} {said : Option ρ} :
    said = ((entryPointLogs entryPoint logs).find? p).elim none
        (fun log => (argsOf V log).bind read) ↔
      Agrees V entryPoint read logs h said := by
  rcases find?_entryPointLogs writes own other with ⟨e, emitted, same, found⟩ | ⟨none, found⟩
  · rw [found, Option.elim_some, argsOf_log, Option.bind_some]
    refine ⟨fun agree => .inl ⟨e, emitted, same, agree⟩, ?_⟩
    rintro (⟨e', emitted', same', agree⟩ | ⟨absent, -⟩)
    · rwa [writes.once e e' emitted emitted' (same.trans same'.symm)]
    · exact absurd same (absent e emitted)
  · rw [found, Option.elim_none]
    refine ⟨fun agree => .inr ⟨none, agree⟩, ?_⟩
    rintro (⟨e, emitted, same, -⟩ | ⟨-, agree⟩)
    · exact absurd same (none e emitted)
    · exact agree

theorem getUserOpResult_alone_iff (writes : EntryPointWrites V entryPoint logs) :
    getUserOpResult V logs h = getUserOpResult V (entryPointLogs entryPoint logs) h ↔
      ∀ log, FirstMatch (names V h) logs log → log.address ≠ entryPoint →
        Agrees V entryPoint EventArgs.result logs h ((argsOf V log).bind (·.result)) := by
  rw [getUserOpResult_eq, getUserOpResult_eq]
  refine scan_filter_iff.trans ?_
  refine forall_congr' fun log => imp_congr_right fun _ => imp_congr ?_ ?_
  · rw [beq_eq_false_iff_ne]
  · exact agrees_iff writes (fun e => names_log e entryPoint) fun _ => names_other

/-- The second reader gets through the EntryPoint's own logs. -/
theorem parse_entryPointLogs (writes : EntryPointWrites V entryPoint logs) :
    ((entryPointLogs entryPoint logs).find? (stops V h)).elim (.ok none) (receiptOfLog V) =
      .ok (((entryPointLogs entryPoint logs).find? (stops V h)).elim none
        fun log => (argsOf V log).bind (·.receipt)) := by
  rcases find?_entryPointLogs writes (fun e => stops_log (h := h) e entryPoint)
    (fun _ => stops_other) with ⟨e, -, -, found⟩ | ⟨-, found⟩
  · rw [found, Option.elim_some, Option.elim_some, receiptOfLog, argsOf_log]
    rfl
  · rw [found]
    rfl

theorem receiptOfLog_eq_ok {log : Log} {said : Option ReceiptResult} :
    receiptOfLog V log = .ok said ↔
      (argsOf V log).isSome = true ∧ (argsOf V log).bind (·.receipt) = said := by
  unfold receiptOfLog
  cases argsOf V log with
  | none => simp
  | some args => simp

theorem parse_alone_iff (writes : EntryPointWrites V entryPoint logs) :
    parseUserOperationReceiptFromLogs V logs h =
        parseUserOperationReceiptFromLogs V (entryPointLogs entryPoint logs) h ↔
      ∀ log, FirstMatch (stops V h) logs log → log.address ≠ entryPoint →
        (argsOf V log).isSome = true ∧
          Agrees V entryPoint EventArgs.receipt logs h ((argsOf V log).bind (·.receipt)) := by
  rw [parseUserOperationReceiptFromLogs_eq, parseUserOperationReceiptFromLogs_eq]
  refine scan_filter_iff.trans ?_
  refine forall_congr' fun log => imp_congr_right fun _ => imp_congr ?_ ?_
  · rw [beq_eq_false_iff_ne]
  · show receiptOfLog V log = ((entryPointLogs entryPoint logs).find? (stops V h)).elim _ _ ↔ _
    rw [parse_entryPointLogs writes, receiptOfLog_eq_ok]
    refine and_congr_right fun _ => ?_
    exact agrees_iff writes (fun e => stops_log e entryPoint) fun _ => stops_other

/-- Whoever agrees with the EntryPoint agrees with it on success. -/
theorem Agrees.success (writes : EntryPointWrites V entryPoint logs) {ρ : Type}
    {read : EventArgs → Option ρ} {args : Option EventArgs} (success : ρ → Bool)
    (keeps : ∀ a : EventArgs, (read a).map success = a.success)
    (agrees : Agrees V entryPoint read logs h (args.bind read)) :
    (args.bind (·.success) == some true) = true ↔ Succeeded V entryPoint logs h := by
  have told : args.bind (·.success) = (args.bind read).map success := by
    cases args with
    | none => rfl
    | some a => exact (keeps a).symm
  rw [told, beq_iff_eq]
  rcases agrees with ⟨e, emitted, same, agree⟩ | ⟨absent, silent⟩
  · rw [agree, keeps, succeeded_iff writes emitted same]
    show some e.success = some true ↔ _
    rw [Option.some.injEq]
  · rw [silent]
    refine ⟨fun no => absurd no (by simp), ?_⟩
    rintro ⟨e, emitted, same, -⟩
    exact absurd same (absent e emitted)

theorem result_success (a : EventArgs) : a.result.map (·.success) = a.success := by
  rcases a with ⟨-, - | success, -, -⟩ <;> rfl

theorem receipt_success (a : EventArgs) : a.receipt.map (·.success) = a.success := by
  rcases a with ⟨-, - | success, -, -⟩ <;> rfl

/-- No log of another contract misleads the first reader: where it is the first that is
read as an event of the operation, it has the values of the EntryPoint's event. -/
def ResultUndisturbed (V : EventDecoder) (entryPoint : Address) (logs : List Log) (h : Word) :
    Prop :=
  ∀ log, FirstMatch (names V h) logs log → log.address ≠ entryPoint →
    Agrees V entryPoint EventArgs.result logs h ((argsOf V log).bind (·.result))

/-- Nor the second reader, which does not get past a log without arguments either. -/
def ReceiptUndisturbed (V : EventDecoder) (entryPoint : Address) (logs : List Log) (h : Word) :
    Prop :=
  ∀ log, FirstMatch (stops V h) logs log → log.address ≠ entryPoint →
    (argsOf V log).isSome = true ∧
      Agrees V entryPoint EventArgs.receipt logs h ((argsOf V log).bind (·.receipt))

theorem decided_getUserOpResult (writes : EntryPointWrites V entryPoint logs) :
    DecidedByEntryPoint V entryPoint (getUserOpResult V · h) ReportsSuccess logs h ↔
      ResultUndisturbed V entryPoint logs h := by
  constructor
  · exact fun decided => (getUserOpResult_alone_iff writes).1 decided.alone
  · refine fun harmless => ⟨?_, (getUserOpResult_alone_iff writes).2 harmless⟩
    refine (reportsSuccess_iff_succeeded writes).2 fun log first stranger => ?_
    exact (harmless log first stranger).success writes _ result_success

theorem decided_parseUserOperationReceipt (writes : EntryPointWrites V entryPoint logs) :
    DecidedByEntryPoint V entryPoint (parseUserOperationReceiptFromLogs V · h) ReceiptSuccess
        logs h ↔
      ReceiptUndisturbed V entryPoint logs h := by
  constructor
  · exact fun decided => (parse_alone_iff writes).1 decided.alone
  · refine fun harmless => ⟨?_, (parse_alone_iff writes).2 harmless⟩
    refine (receiptSuccess_iff_succeeded writes).2 fun log first stranger => ?_
    exact (harmless log first stranger).2.success writes _ receipt_success

/-- Two receipts that agree on the EntryPoint's logs, both decided by it, have one outcome. -/
theorem DecidedByEntryPoint.agree {ρ : Type} {reports : List Log → ρ} {success : ρ → Prop}
    {logs' : List Log} (decided : DecidedByEntryPoint V entryPoint reports success logs h)
    (decided' : DecidedByEntryPoint V entryPoint reports success logs' h)
    (same : entryPointLogs entryPoint logs = entryPointLogs entryPoint logs') :
    reports logs = reports logs' := by
  rw [decided.alone, decided'.alone, same]

/-- The outcome is decided by the EntryPoint exactly if no log of another contract stands
in its way, and then receipts with the same logs of the EntryPoint have the same outcome. -/
theorem outcome_decided_iff (V : EventDecoder) (entryPoint : Address) (logs : List Log) (h : Word)
    (writes : EntryPointWrites V entryPoint logs) :
    (DecidedByEntryPoint V entryPoint (getUserOpResult V · h) ReportsSuccess logs h ↔
      ResultUndisturbed V entryPoint logs h) ∧
    (DecidedByEntryPoint V entryPoint (parseUserOperationReceiptFromLogs V · h) ReceiptSuccess
        logs h ↔
      ReceiptUndisturbed V entryPoint logs h) ∧
    ∀ logs', EntryPointWrites V entryPoint logs' →
      entryPointLogs entryPoint logs = entryPointLogs entryPoint logs' →
      (ResultUndisturbed V entryPoint logs h → ResultUndisturbed V entryPoint logs' h →
        getUserOpResult V logs h = getUserOpResult V logs' h) ∧
      (ReceiptUndisturbed V entryPoint logs h → ReceiptUndisturbed V entryPoint logs' h →
        parseUserOperationReceiptFromLogs V logs h =
          parseUserOperationReceiptFromLogs V logs' h) := by
  refine ⟨decided_getUserOpResult writes, decided_parseUserOperationReceipt writes, ?_⟩
  intro logs' writes' same
  constructor
  · intro calm calm'
    exact ((decided_getUserOpResult writes).2 calm).agree
      ((decided_getUserOpResult writes').2 calm') same
  · intro calm calm'
    exact ((decided_parseUserOperationReceipt writes).2 calm).agree
      ((decided_parseUserOperationReceipt writes').2 calm') same

/-- A log that another contract puts before all others decides. -/
theorem getUserOpResult_cons (e : UserOperationEvent) (emitter : Address) :
    getUserOpResult V (e.log V.topic0 emitter :: logs) e.userOpHash =
      some ⟨e.success, e.actualGasCost.toNat⟩ := by
  rw [getUserOpResult_eq, List.find?_cons_of_pos (by rw [names_log, beq_self_eq_true]),
    Option.elim_some, argsOf_log]
  rfl

theorem parseUserOperationReceipt_cons (e : UserOperationEvent) (emitter : Address) :
    parseUserOperationReceiptFromLogs V (e.log V.topic0 emitter :: logs) e.userOpHash =
      .ok (some ⟨e.success, e.actualGasCost.toNat, e.actualGasUsed.toNat⟩) := by
  rw [parseUserOperationReceiptFromLogs_eq,
    List.find?_cons_of_pos (by rw [stops_log, beq_self_eq_true]), Option.elim_some, receiptOfLog,
    argsOf_log]
  rfl

/-- To every receipt there is one with the same logs of the EntryPoint and another outcome. -/
theorem getUserOpResult_forgeable (V : EventDecoder) (entryPoint : Address) (logs : List Log)
    (h : Word) :
    ∃ logs', entryPointLogs entryPoint logs' = entryPointLogs entryPoint logs ∧
      getUserOpResult V logs' h ≠ getUserOpResult V logs h := by
  let forged (success : Bool) : UserOperationEvent := ⟨h, 0, 0, 0, success, 0, 0⟩
  have stranger : entryPoint + 1 ≠ entryPoint := by
    intro same
    have : (1 : Address) = 0 := BitVec.add_right_eq_self.1 same
    exact absurd this (by decide)
  have hidden (success : Bool) : entryPointLogs entryPoint
      ((forged success).log V.topic0 (entryPoint + 1) :: logs) = entryPointLogs entryPoint logs :=
    List.filter_cons_of_neg fun own => stranger (eq_of_beq own)
  -- one of the two outcomes is not the one of the receipt
  by_cases succeeded : getUserOpResult V logs h = some ⟨true, 0⟩
  · refine ⟨_, hidden false, ?_⟩
    rw [succeeded]
    show getUserOpResult V (_ :: logs) (forged false).userOpHash ≠ _
    rw [getUserOpResult_cons]
    exact fun same => Bool.false_ne_true (congrArg UserOpResult.success (Option.some.inj same))
  · refine ⟨_, hidden true, fun same => succeeded ?_⟩
    rw [← same]
    exact getUserOpResult_cons (forged true) (entryPoint + 1)

/-! ### A decoder -/

/-- The words of a string that is long enough. -/
def readWords : Nat → Bytes → Option (List Nat)
  | 0, _ => some []
  | n + 1, data =>
    if data.length < 32 then none
    else (readWords n (data.drop 32)).map (ofBigEndian (data.take 32) :: ·)

/-- The arguments from the topics behind the selector and the words of the data, in which
indexed arguments without a topic come first. -/
def readArgs (indexed : List Word) (data : Bytes) : Option EventArgs :=
  let missing := 3 - indexed.length
  let hash := indexed.head?
  match readWords (missing + 4) data with
  | none => hash.map fun hash => ⟨some hash, none, none, none⟩
  | some words =>
    let flag := words.getD (missing + 1) 0
    if 1 < flag then hash.map fun hash => ⟨some hash, none, none, none⟩
    else some
      ⟨some (hash.getD (BitVec.ofNat 256 (words.getD 0 0))), some (flag == 1),
        words[missing + 2]?, words[missing + 3]?⟩

/-- How the client library decodes UserOperationEvents. -/
def decodeUserOperationEvent (topic0 : Word) (topics : List Word) (data : Bytes) :
    Option (Option EventArgs) :=
  if topics.head? = some topic0 then some (readArgs topics.tail data) else none

theorem readWords_append {front data : Bytes} {n : Nat} (length : front.length = 32) :
    readWords (n + 1) (front ++ data) = (readWords n data).map (ofBigEndian front :: ·) := by
  have enough : ¬ (front ++ data).length < 32 := by
    rw [List.length_append]
    omega
  rw [readWords, if_neg enough, List.drop_left' length, List.take_left' length]

theorem ofBigEndian_word (x : Word) : ofBigEndian (word x) = x.toNat :=
  ofBigEndian_bigEndian x.isLt

theorem readWords_data (e : UserOperationEvent) :
    readWords 4 e.data = some [e.nonce.toNat, if e.success then 1 else 0, e.actualGasCost.toNat,
      e.actualGasUsed.toNat] := by
  have length (x : Word) : (word x).length = 32 := length_bigEndian 32 _
  unfold UserOperationEvent.data
  rw [List.append_assoc, List.append_assoc, readWords_append (length _),
    readWords_append (length _), readWords_append (length _),
    ← List.append_nil (word e.actualGasUsed), readWords_append (length _)]
  simp only [readWords, Option.map_some, ofBigEndian_word]
  cases e.success <;> rfl

theorem readArgs_words {hash sender paymaster : Word} {data : Bytes} {nonce flag cost used : Nat}
    (words : readWords 4 data = some [nonce, flag, cost, used]) (bool : flag ≤ 1) :
    readArgs [hash, sender, paymaster] data =
      some ⟨some hash, some (flag == 1), some cost, some used⟩ := by
  have missing : 3 - [hash, sender, paymaster].length = 0 := rfl
  unfold readArgs
  simp only [missing, Nat.zero_add, words]
  exact if_neg (Nat.not_lt.2 bool)

/-- The decoder of the client library, for a selector. -/
def eventDecoder (topic0 : Word) : EventDecoder where
  topic0 := topic0
  decodeEventLog := decodeUserOperationEvent topic0
  decodes e := by
    rw [decodeUserOperationEvent, if_pos (by rfl)]
    rw [UserOperationEvent.topics, List.tail_cons, readArgs_words (readWords_data e)]
    · unfold UserOperationEvent.args
      cases e.success <;> rfl
    · cases e.success <;> decide
  selects topics data other := if_neg other

/-! ### Receipts -/

/-- The operation 7 as the EntryPoint 1 reports it. -/
def mined (success : Bool) : UserOperationEvent :=
  ⟨7, 5, 0, 0, success, 900, 800⟩

/-- The receipt of a bundle whose call lets the contract 2 emit a log of the same form. -/
def mimicked (claimed success : Bool) : List Log :=
  [(mined claimed).log 77 2, (mined success).log 77 1]

theorem mem_mimicked {claimed success : Bool} {e : UserOperationEvent}
    (emitted : Emitted (eventDecoder 77) 1 (mimicked claimed success) e) :
    e.args = (mined success).args := by
  have own : e.log 77 1 = (mined success).log 77 1 := by
    rcases List.mem_cons.1 emitted with same | same
    · exact absurd (congrArg Log.address same) (by decide : (1 : Address) ≠ 2)
    · exact List.mem_singleton.1 same
  have same := congrArg (argsOf (eventDecoder 77)) own
  exact Option.some.inj ((argsOf_log (V := eventDecoder 77) e 1).symm.trans
    (same.trans (argsOf_log (V := eventDecoder 77) (mined success) 1)))

theorem writes_mimicked (claimed success : Bool) :
    EntryPointWrites (eventDecoder 77) 1 (mimicked claimed success) where
  events log hlog emitter _ := by
    rcases List.mem_cons.1 hlog with rfl | rest
    · exact absurd emitter (by decide : (2 : Address) ≠ 1)
    · exact ⟨mined success, List.mem_singleton.1 rest⟩
  once e e' emitted emitted' _ := (mem_mimicked emitted).trans (mem_mimicked emitted').symm

/-- A log that agrees with the EntryPoint does no harm. -/
theorem outcome_decided_mimicked :
    DecidedByEntryPoint (eventDecoder 77) 1 (getUserOpResult (eventDecoder 77) · 7) ReportsSuccess
      (mimicked true true) 7 := by
  refine (outcome_decided_iff (eventDecoder 77) 1 (mimicked true true) 7
    (writes_mimicked true true)).1.2 fun log first _ => ?_
  rw [firstMatch_iff, mimicked, List.find?_cons_of_pos (names_log (V := eventDecoder 77) _ 2)]
    at first
  obtain rfl := Option.some.inj first
  refine .inl ⟨mined true, List.mem_cons_of_mem _ List.mem_cons_self, rfl, ?_⟩
  exact congrArg (Option.bind · EventArgs.result) (argsOf_log (V := eventDecoder 77) (mined true) 2)

/-- The operation has failed, and both readers report success. -/
theorem outcome_mimicked :
    EntryPointWrites (eventDecoder 77) 1 (mimicked true false) ∧
      ¬ Succeeded (eventDecoder 77) 1 (mimicked true false) 7 ∧
      getUserOpResult (eventDecoder 77) (mimicked true false) 7 = some ⟨true, 900⟩ ∧
      parseUserOperationReceiptFromLogs (eventDecoder 77) (mimicked true false) 7 =
        .ok (some ⟨true, 900, 800⟩) := by
  refine ⟨writes_mimicked true false, ?_, getUserOpResult_cons (V := eventDecoder 77) _ 2,
    parseUserOperationReceipt_cons (V := eventDecoder 77) _ 2⟩
  rintro ⟨e, emitted, -, success⟩
  have failed := congrArg EventArgs.success (mem_mimicked emitted)
  exact absurd (success.symm.trans (Option.some.inj failed)) (by decide)

end ParmeliaLinks.Pay.Outcome
