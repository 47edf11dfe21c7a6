/-
ParmeliaLinks/Payments/FeePolicy.lean

The fee that the platform takes of a payment.  A policy is a list of rules; of
the rules that match a payment the one of the highest priority decides, and two
of the highest priority that disagree are an error.  No rule takes more than a
hundredth, and no fee goes beyond what the router of the route declares.

A rule carries what the reader of the policy document checks of it, so a policy
that got past the reader is a `PaymentFeePolicyDocument`.
-/
import ParmeliaLinks.Lib.Contract
import ParmeliaLinks.Payments.Schema

namespace ParmeliaLinks.Payments

/-! ### Policies -/

inductive FeePolicyErrorCode
  | invalidFeePolicy | ambiguousFeePolicy | invalidRouteCapability | routerFeeCapExceeded
  | routerPreflightRequired
  deriving DecidableEq

structure FeePolicyError where
  code : FeePolicyErrorCode
  message : String
  deriving DecidableEq

/-- A rule; a condition that is absent holds of every payment. -/
structure FeeRule where
  id : String
  priority : Int
  feeBps : Nat
  merchantIds : Option (List MerchantId)
  modes : Option (List Mode)
  sourceChainIds : Option (List ChainId)
  routes : Option (List PaymentRoute)
  minAmountAtomic : Option Nat
  maxAmountAtomic : Option Nat
  feeBps_le : feeBps ≤ 100

structure PaymentFeePolicyDocument where
  policyId : String
  version : Nat
  rules : List FeeRule
  uniqueIds : (rules.map (·.id)).Nodup

/-- The policy where none is configured. -/
def freePolicy : PaymentFeePolicyDocument where
  policyId := "free-default"
  version := 1
  rules := []
  uniqueIds := List.nodup_nil

/-- The settings that the fee depends on. -/
structure FeeSettings where
  paymentFeePolicy : Except FeePolicyError PaymentFeePolicyDocument
  platformFeeRecipient : Option Address
  routerPreflightEnabled : Bool

/-- The payment that a fee is resolved for. -/
structure FeeInput where
  intent : PaymentIntent
  sourceChainId : ChainId
  route : PaymentRoute
  routeFeeCapBps : Nat

structure ResolvedPaymentFee where
  policyId : String
  policyVersion : Nat
  ruleId : String
  platformFeeBps : Nat
  platformFeeBearer : FeeBearer
  platformFeeRecipient : Option Address
  routeFeeCapBps : Nat
  platformFeeAtomic : Nat

/-- Whether a rule applies to a payment. -/
def FeeRule.appliesTo (rule : FeeRule) (input : FeeInput) : Bool :=
  let amount := input.intent.amountAtomic
  rule.merchantIds.all (·.contains input.intent.merchantId) &&
    rule.modes.all (·.contains input.intent.mode) &&
    rule.sourceChainIds.all (·.contains input.sourceChainId) &&
    rule.routes.all (·.contains input.route) &&
    rule.minAmountAtomic.all (· ≤ amount) &&
    rule.maxAmountAtomic.all (amount ≤ ·)

/-- The place of a character in the order of `localeCompare`, for the characters of an
identifier: the underscore, the hyphen, the full stop, the digits, the letters. -/
def collationKey (c : Char) : Nat :=
  if c = '_' then 0 else if c = '-' then 1 else if c = '.' then 2 else c.toNat

/-- `localeCompare` of two identifiers is not positive. -/
def collatesBefore : List Char → List Char → Bool
  | [], _ => true
  | _ :: _, [] => false
  | c :: cs, d :: ds =>
    collationKey c < collationKey d || (collationKey c == collationKey d && collatesBefore cs ds)

/-- The order in which candidates are sorted. -/
def FeeRule.before (left right : FeeRule) : Bool :=
  right.priority < left.priority ||
    (left.priority == right.priority && collatesBefore left.id.toList right.id.toList)

/-- The two best candidates have one priority and disagree. -/
def ambiguous : List FeeRule → Bool
  | first :: second :: _ => second.priority == first.priority && second.feeBps != first.feeBps
  | _ => false

def feeRecipient (settings : FeeSettings) (feeBps : Nat) :
    Except FeePolicyError (Option Address) :=
  if feeBps = 0 then .ok none
  else
    match settings.platformFeeRecipient with
    | none => .error ⟨.invalidFeePolicy,
        "A valid platform fee recipient is required by the matched fee rule"⟩
    | some recipient => .ok (some recipient)

def resolvePaymentFee (settings : FeeSettings) (input : FeeInput) :
    Except FeePolicyError ResolvedPaymentFee := do
  let policy ← settings.paymentFeePolicy
  let candidates := (policy.rules.filter (·.appliesTo input)).mergeSort FeeRule.before
  revertIf (ambiguous candidates = true)
    ⟨.ambiguousFeePolicy, "Multiple top-priority fee rules disagree"⟩
  let rule := candidates.head?
  let feeBps := (rule.map (·.feeBps)).getD 0
  revertIf (100 < input.routeFeeCapBps)
    ⟨.invalidRouteCapability, "Payment route fee capability is invalid"⟩
  revertIf (input.routeFeeCapBps < feeBps)
    ⟨.routerFeeCapExceeded, "Matched fee policy exceeds the deployed router capability"⟩
  revertIf (0 < feeBps ∧ settings.routerPreflightEnabled = false)
    ⟨.routerPreflightRequired,
      "On-chain router preflight must be enabled before any platform fee can be charged"⟩
  let recipient ← feeRecipient settings feeBps
  return {
    policyId := policy.policyId
    policyVersion := policy.version
    ruleId := (rule.map (·.id)).getD "free-default"
    platformFeeBps := feeBps
    platformFeeBearer := if feeBps = 0 then .none else .payer
    platformFeeRecipient := recipient
    routeFeeCapBps := input.routeFeeCapBps
    platformFeeAtomic := input.intent.amountAtomic * feeBps / 10000 }

/-! ### What a resolved fee keeps to -/

variable {settings : FeeSettings} {input : FeeInput} {fee : ResolvedPaymentFee}

/-- The fee is the share of the amount that the rule says, and the share is one that the
route declares. -/
structure ResolvedPaymentFee.Of (fee : ResolvedPaymentFee) (input : FeeInput) : Prop where
  atomic : fee.platformFeeAtomic = input.intent.amountAtomic * fee.platformFeeBps / 10000
  cap : fee.platformFeeBps ≤ input.routeFeeCapBps
  capBound : input.routeFeeCapBps ≤ 100

theorem resolvePaymentFee_ok (h : resolvePaymentFee settings input = .ok fee) : fee.Of input := by
  unfold resolvePaymentFee at h
  obtain ⟨policy, -, h⟩ := bind_eq_ok.1 h
  obtain ⟨-, h⟩ := revertIf_bind_eq_ok.1 h
  obtain ⟨bound, h⟩ := revertIf_bind_eq_ok.1 h
  obtain ⟨cap, h⟩ := revertIf_bind_eq_ok.1 h
  obtain ⟨-, h⟩ := revertIf_bind_eq_ok.1 h
  obtain ⟨recipient, -, h⟩ := bind_eq_ok.1 h
  cases h
  exact ⟨rfl, Nat.not_lt.1 cap, Nat.not_lt.1 bound⟩

end ParmeliaLinks.Payments
