/-
ParmeliaLinks/Pay/Transport.lean

How a signed user operation is handed over, as far as it is computation: what the
server makes of the errors of a bundler or of its own relayer, and what it
remembers while it asks one bundler after another.

An error is either transient, so that nobody knows whether the operation was
accepted, or it counts as a rejection.  Which of the two is decided from the text
of the error alone.  `BundlerScan` is the state of the loop over the bundlers;
once one of them has left the operation in doubt, every error that the loop ends
with says so (`fail_possiblySubmitted`, `conclude_possiblySubmitted`).
-/
import Mathlib.Data.List.Basic
import Mathlib.Algebra.Group.Nat.Defs

namespace ParmeliaLinks.Pay

abbrev Hash := Nat

/-- `text.includes(needle)`. -/
def includes (text needle : String) : Bool :=
  text.toList.tails.any fun rest => needle.toList.isPrefixOf rest

inductive ErrorCode
  | serviceUnavailable | bundlerUnavailable | bundlerEntrypointUnsupported
  | passkeyMismatch | paymasterRejected | paymasterDepositLow | paymentFailed
  | insufficientGas | missingSignatureData | missingPasskeyData | pendingNotFound
  | wrongAccount | linkNotFound | linkAlreadyPaid | intentNotPayable | paymentInProgress
  | serverError
  deriving DecidableEq

/-- `UserOperationTransportMode`. -/
inductive Mode | self | bundler
  deriving DecidableEq

/-! ### Errors -/

/-- An error that a remote call or a statement throws.  `detail` is what
`extractErrorMessage` finds in it, and `code` the number that `nestedRpcCode` finds. -/
structure RpcError where
  name : String
  message : String
  cause : Option String
  detail : String
  code : Option Int
  deriving DecidableEq

/-- `errorText`. -/
def RpcError.errorText (e : RpcError) : String :=
  let cause := match e.cause with
    | some message => " " ++ message
    | none => ""
  (e.name ++ " " ++ e.message ++ cause).toLower

def transientNeedles : List String :=
  ["429", "rate limit", "timeout", "timed out", "network", "fetch failed", "503", "502",
    "temporarily unavailable", "rpc circuit is open", "rpc lane admission deadline"]

/-- `isTransientRpcError`. -/
def RpcError.isTransient (e : RpcError) : Bool := transientNeedles.any (includes e.errorText)

structure UserOperationTransportError where
  message : String
  errorCode : ErrorCode
  retryable : Bool
  -- the request may have reached the relayer or bundler although its response was lost
  possiblySubmitted : Bool := false
  transport : Option Mode := none
  deriving DecidableEq

/-- `normalizeBundlerError`, of an error that is not one already. -/
def normalizeBundlerError (e : RpcError) : UserOperationTransportError :=
  if e.isTransient then
    { message := "Bundler is temporarily unavailable", errorCode := .bundlerUnavailable
      retryable := true }
  else if e.code == some (-32507) || includes e.detail "AA24" then
    { message := "Bundler rejected the account signature", errorCode := .passkeyMismatch
      retryable := false }
  else if e.code == some (-32501) || e.code == some (-32508) || includes e.detail "AA31" ||
      includes e.detail "AA33" || includes e.detail "AA34" then
    { message := "Bundler rejected paymaster validation", errorCode := .paymasterRejected
      retryable := false }
  else
    { message := "Bundler rejected the UserOperation", errorCode := .paymentFailed
      retryable := false }

/-- Only a transient error may be tried elsewhere. -/
@[simp] theorem normalizeBundlerError_retryable (e : RpcError) :
    (normalizeBundlerError e).retryable = e.isTransient := by
  unfold normalizeBundlerError
  split
  · rename_i transient
    rw [transient]
  · rename_i definitive
    rw [Bool.not_eq_true] at definitive
    rw [definitive]
    split
    · rfl
    · split <;> rfl

/-- No bundler error says by itself that the operation is in doubt. -/
@[simp] theorem normalizeBundlerError_possiblySubmitted (e : RpcError) :
    (normalizeBundlerError e).possiblySubmitted = false := by
  unfold normalizeBundlerError
  repeat' split
  all_goals rfl

def differentHashError : UserOperationTransportError where
  message := "Bundler returned a different UserOperation hash"
  errorCode := .paymentFailed
  retryable := false

/-- What a submission fails with. -/
inductive SubmissionError
  | transport (e : UserOperationTransportError)
  | signerLeaseBusy
  | other (e : RpcError)

/-- `error instanceof UserOperationTransportError && error.possiblySubmitted`. -/
def SubmissionError.possiblySubmitted : SubmissionError → Bool
  | .transport e => e.possiblySubmitted
  | .signerLeaseBusy => false
  | .other _ => false

structure UserOperationSendResult where
  transport : Mode
  userOpHash : Hash
  transactionHash : Option Hash

/-! ### The loop over the bundlers -/

/-- What the loop remembers between two bundlers. -/
structure BundlerScan where
  compatible : Bool := false
  transient : Option UserOperationTransportError := none
  possiblySubmitted : Bool := false

namespace BundlerScan

variable {s s' : BundlerScan} {attempted : Bool} {e e' : UserOperationTransportError}

/-- The operation may be with a bundler whose response was lost. -/
def unknownResult : UserOperationTransportError where
  message := "Bundler submission result is unknown"
  errorCode := .bundlerUnavailable
  retryable := true
  possiblySubmitted := true
  transport := some .bundler

/-- What the loop does with an error: end with one, or go on. -/
def fail (s : BundlerScan) (attempted : Bool) (e : UserOperationTransportError) :
    Except UserOperationTransportError BundlerScan :=
  if e.retryable then
    let possiblySubmitted := s.possiblySubmitted || attempted
    .ok
      { s with
        possiblySubmitted
        transient := some
          { message := e.message, errorCode := e.errorCode, retryable := true, possiblySubmitted
            transport := some .bundler } }
  else if s.possiblySubmitted then .error unknownResult
  else .error e

/-- The error of a loop that no bundler has ended. -/
def conclude (s : BundlerScan) : UserOperationTransportError :=
  if !s.compatible && s.transient.isNone then
    { message := "Configured bundlers do not support GatoPago EntryPoint v0.9"
      errorCode := .bundlerEntrypointUnsupported, retryable := false }
  else
    s.transient.getD
      { message := "Bundler submission failed", errorCode := .bundlerUnavailable
        retryable := true }

/-- The last transient error says what is known of all of them. -/
def Consistent (s : BundlerScan) : Prop :=
  s.possiblySubmitted = true → ∃ e, s.transient = some e ∧ e.possiblySubmitted = true

theorem consistent_init : Consistent {} := nofun

theorem consistent_compatible (h : s.Consistent) : { s with compatible := true }.Consistent := h

/-- A doubt is never forgotten, and an attempt that ends in a transient error is one. -/
theorem fail_ok (h : s.fail attempted e = .ok s') :
    s'.Consistent ∧ s'.possiblySubmitted = (s.possiblySubmitted || attempted) ∧
      e.retryable = true := by
  unfold fail at h
  split at h
  · rename_i retryable
    cases h
    exact ⟨fun doubt => ⟨_, rfl, doubt⟩, rfl, retryable⟩
  · split at h <;> cases h

/-- The loop ends with a doubt, or with the error of a bundler that refused first. -/
theorem fail_error (h : s.fail attempted e = .error e') :
    e.retryable = false ∧
      (s.possiblySubmitted = true ∧ e' = unknownResult ∨
        s.possiblySubmitted = false ∧ e' = e) := by
  unfold fail at h
  split at h
  · cases h
  · rename_i definitive
    rw [Bool.not_eq_true] at definitive
    refine ⟨definitive, ?_⟩
    split at h <;> cases h
    · rename_i doubt
      exact .inl ⟨doubt, rfl⟩
    · rename_i certain
      exact .inr ⟨by simpa using certain, rfl⟩

/-- The doubt is in the error. -/
theorem conclude_possiblySubmitted (consistent : s.Consistent)
    (doubt : s.possiblySubmitted = true) : s.conclude.possiblySubmitted = true := by
  obtain ⟨e, last, he⟩ := consistent doubt
  simp [conclude, last, he]

end BundlerScan

/-- Whether `sendUserOperation` lets the server's own relayer try. -/
def fallsBack (mode : Mode) (selfFallback : Bool) : SubmissionError → Bool
  | .transport e => mode == .bundler && selfFallback && e.retryable && !e.possiblySubmitted
  | _ => false

/-- The relayer is never asked while a bundler may have the operation. -/
theorem not_possiblySubmitted_of_fallsBack {mode : Mode} {selfFallback : Bool}
    {e : SubmissionError} (h : fallsBack mode selfFallback e = true) :
    e.possiblySubmitted = false := by
  cases e with
  | transport e =>
    simp only [fallsBack, Bool.and_eq_true, Bool.not_eq_true'] at h
    exact h.2
  | signerLeaseBusy => cases h
  | other e => cases h

/-- `Relayer submission result is unknown`. -/
def relayerUnknown : UserOperationTransportError where
  message := "Relayer submission result is unknown"
  errorCode := .serviceUnavailable
  retryable := true
  possiblySubmitted := true
  transport := some .self

/-- What the relayer makes of an error of its transaction. -/
def relayerError (e : RpcError) : SubmissionError :=
  if e.isTransient then .transport relayerUnknown else .other e

theorem relayerError_possiblySubmitted {e : RpcError} (h : e.isTransient = true) :
    (relayerError e).possiblySubmitted = true := by
  rw [relayerError, if_pos h]
  rfl

end ParmeliaLinks.Pay
