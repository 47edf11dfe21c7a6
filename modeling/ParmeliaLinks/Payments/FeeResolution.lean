/-
ParmeliaLinks/Payments/FeeResolution.lean

What the resolution of a fee answers, against the rules as a set.

The candidates are sorted by priority and then by identifier.  Identifiers are unique, so the
order is total and the sorted list depends on the set of candidates alone.  A fee is
prescribed by the `Leading` rules, the candidates of the highest priority, and there is no
answer when they disagree.

Only the first two candidates are compared.  If these agree, a third leading rule may say
something else (`FirstTwoDisagree` is what is noticed, `Disagree` what there is to notice).
-/
import ParmeliaLinks.Payments.FeePolicy
import Mathlib.Data.List.Nodup
import Mathlib.Data.Char

namespace ParmeliaLinks.Payments

/-- Whether a rule may apply to a payment from the chain along one of the routes. -/
def FeeRule.mayApplyOn (rule : FeeRule) (sourceChainId : ChainId) (routes : List PaymentRoute) :
    Bool :=
  rule.sourceChainIds.all (·.contains sourceChainId) && rule.routes.all (·.any routes.contains)

/-- Maximum fee any configured rule could apply to this execution surface. -/
def maximumConfiguredFeeBps (settings : FeeSettings) (sourceChainId : ChainId)
    (routes : List PaymentRoute) : Except FeePolicyError Nat := do
  let policy ← settings.paymentFeePolicy
  return policy.rules.foldl (fun maximum rule =>
    if rule.mayApplyOn sourceChainId routes then max maximum rule.feeBps else maximum) 0

/-! ### The order of the candidates -/

/-- The characters that the reader of a policy lets through in an identifier. -/
def idCharacter (c : Char) : Bool := c.isLower || c.isDigit || c == '.' || c == '_' || c == '-'

theorem idCharacter_cases {c : Char} (h : idCharacter c = true) :
    c = '_' ∨ c = '-' ∨ c = '.' ∨ 2 < c.toNat ∧ collationKey c = c.toNat := by
  by_cases underscore : c = '_'
  · exact .inl underscore
  by_cases hyphen : c = '-'
  · exact .inr (.inl hyphen)
  by_cases stop : c = '.'
  · exact .inr (.inr (.inl stop))
  have key : collationKey c = c.toNat := by
    rw [collationKey, if_neg underscore, if_neg hyphen, if_neg stop]
  refine .inr (.inr (.inr ⟨?_, key⟩))
  have lowercase : c.isLower = (decide (c.val ≥ 'a'.val) && decide (c.val ≤ 'z'.val)) := rfl
  simp only [idCharacter, underscore, hyphen, stop, lowercase, Char.isDigit, beq_iff_eq,
    Bool.or_eq_true, Bool.and_eq_true, decide_eq_true_eq, ge_iff_le,
    UInt32.le_iff_toNat_le, or_false] at h
  rcases h with ⟨lower, -⟩ | ⟨digit, -⟩
  · exact Nat.lt_of_lt_of_le (by decide) lower
  · exact Nat.lt_of_lt_of_le (by decide) digit

theorem collationKey_inj {c d : Char} (hc : idCharacter c = true) (hd : idCharacter d = true)
    (same : collationKey c = collationKey d) : c = d := by
  have underscore : collationKey '_' = 0 := rfl
  have hyphen : collationKey '-' = 1 := rfl
  have stop : collationKey '.' = 2 := rfl
  rcases idCharacter_cases hc with rfl | rfl | rfl | ⟨hc, kc⟩ <;>
    rcases idCharacter_cases hd with rfl | rfl | rfl | ⟨hd, kd⟩ <;>
    first
    | rfl
    | omega
    | exact Char.toNat_inj.1 (kc.symm.trans (same.trans kd))

theorem collatesBefore_refl (cs : List Char) : collatesBefore cs cs = true := by
  induction cs with
  | nil => rfl
  | cons c cs ih => simp [collatesBefore, ih]

theorem collatesBefore_total (cs ds : List Char) :
    collatesBefore cs ds = true ∨ collatesBefore ds cs = true := by
  induction cs generalizing ds with
  | nil => exact .inl rfl
  | cons c cs ih =>
    cases ds with
    | nil => exact .inr rfl
    | cons d ds =>
      simp only [collatesBefore, Bool.or_eq_true, Bool.and_eq_true, decide_eq_true_eq, beq_iff_eq]
      rcases Nat.lt_trichotomy (collationKey c) (collationKey d) with lt | eq | gt
      · exact .inl (.inl lt)
      · exact (ih ds).imp (fun h => .inr ⟨eq, h⟩) (fun h => .inr ⟨eq.symm, h⟩)
      · exact .inr (.inl gt)

theorem collatesBefore_trans {cs ds es : List Char} (first : collatesBefore cs ds = true)
    (second : collatesBefore ds es = true) : collatesBefore cs es = true := by
  induction cs generalizing ds es with
  | nil => rfl
  | cons c cs ih =>
    rcases ds with - | ⟨d, ds⟩
    · cases first
    rcases es with - | ⟨e, es⟩
    · cases second
    simp only [collatesBefore, Bool.or_eq_true, Bool.and_eq_true, decide_eq_true_eq,
      beq_iff_eq] at *
    rcases first with lt | ⟨eq, first⟩
    · exact .inl (by omega)
    rcases second with lt | ⟨eq', second⟩
    · exact .inl (by omega)
    · exact .inr ⟨eq.trans eq', ih first second⟩

theorem collatesBefore_antisymm {cs ds : List Char} (hc : ∀ c ∈ cs, idCharacter c = true)
    (hd : ∀ d ∈ ds, idCharacter d = true) (first : collatesBefore cs ds = true)
    (second : collatesBefore ds cs = true) : cs = ds := by
  induction cs generalizing ds with
  | nil =>
    cases ds with
    | nil => rfl
    | cons d ds => cases second
  | cons c cs ih =>
    rcases ds with - | ⟨d, ds⟩
    · cases first
    simp only [collatesBefore, Bool.or_eq_true, Bool.and_eq_true, decide_eq_true_eq,
      beq_iff_eq] at first second
    have same : collationKey c = collationKey d := by omega
    obtain rfl := collationKey_inj (hc c (.head _)) (hd d (.head _)) same
    refine congrArg _ (ih (fun c h => hc c (.tail _ h)) (fun d h => hd d (.tail _ h)) ?_ ?_)
    · exact (first.resolve_left (Nat.lt_irrefl _)).2
    · exact (second.resolve_left (Nat.lt_irrefl _)).2

namespace FeeRule

variable {a b c : FeeRule}

theorem before_iff : a.before b = true ↔
    b.priority < a.priority ∨
      a.priority = b.priority ∧ collatesBefore a.id.toList b.id.toList = true := by
  simp only [FeeRule.before, Bool.or_eq_true, Bool.and_eq_true, decide_eq_true_eq, beq_iff_eq]

theorem before_total (a b : FeeRule) : (a.before b || b.before a) = true := by
  rw [Bool.or_eq_true, before_iff, before_iff]
  rcases Int.lt_trichotomy a.priority b.priority with lt | eq | gt
  · exact .inr (.inl lt)
  · exact (collatesBefore_total a.id.toList b.id.toList).imp (fun h => .inr ⟨eq, h⟩)
      (fun h => .inr ⟨eq.symm, h⟩)
  · exact .inl (.inl gt)

theorem before_trans (first : a.before b = true) (second : b.before c = true) :
    a.before c = true := by
  rw [before_iff] at *
  rcases first with lt | ⟨eq, first⟩
  · exact .inl (by omega)
  rcases second with lt | ⟨eq', second⟩
  · exact .inl (by omega)
  · exact .inr ⟨eq.trans eq', collatesBefore_trans first second⟩

end FeeRule

/-! ### Rules that prescribe a fee -/

namespace PaymentFeePolicyDocument

variable (policy : PaymentFeePolicyDocument) (input : FeeInput)

/-- The identifiers are ones that the reader lets through. -/
def ProperIds : Prop := ∀ rule ∈ policy.rules, ∀ c ∈ rule.id.toList, idCharacter c = true

instance : Decidable policy.ProperIds :=
  decidable_of_iff ((policy.rules.all fun rule => rule.id.toList.all idCharacter) = true)
    (by simp only [ProperIds, List.all_eq_true])

/-- A rule that applies, of the highest priority among those that do. -/
structure Leading (rule : FeeRule) : Prop where
  mem : rule ∈ policy.rules
  applies : rule.appliesTo input = true
  highest : ∀ other ∈ policy.rules, other.appliesTo input = true → other.priority ≤ rule.priority

/-- Two leading rules prescribe different fees. -/
def Disagree : Prop :=
  ∃ a b, policy.Leading input a ∧ policy.Leading input b ∧ a.feeBps ≠ b.feeBps

/-- The two leading rules with the first identifiers prescribe different fees. -/
def FirstTwoDisagree : Prop :=
  ∃ a b, policy.Leading input a ∧ policy.Leading input b ∧ a.feeBps ≠ b.feeBps ∧
    ∀ c, policy.Leading input c → c = a ∨ c = b ∨
      collatesBefore a.id.toList c.id.toList = true ∧ collatesBefore b.id.toList c.id.toList = true

/-- The candidates as the resolution sorts them. -/
def candidates : List FeeRule := (policy.rules.filter (·.appliesTo input)).mergeSort FeeRule.before

variable {policy input} {a b : FeeRule}

theorem FirstTwoDisagree.disagree (h : policy.FirstTwoDisagree input) : policy.Disagree input := by
  obtain ⟨a, b, leads, leads', differ, -⟩ := h
  exact ⟨a, b, leads, leads', differ⟩

theorem Leading.priority_eq (leads : policy.Leading input a) (leads' : policy.Leading input b) :
    a.priority = b.priority :=
  Int.le_antisymm (leads'.highest a leads.mem leads.applies)
    (leads.highest b leads'.mem leads'.applies)

theorem mem_candidates :
    a ∈ policy.candidates input ↔ a ∈ policy.rules ∧ a.appliesTo input = true := by
  rw [candidates, List.mem_mergeSort, List.mem_filter]

theorem candidates_sorted : (policy.candidates input).Pairwise (fun a b => a.before b = true) := by
  apply List.pairwise_mergeSort
  · intro a b c first second
    exact FeeRule.before_trans first second
  · exact FeeRule.before_total

theorem eq_of_id (ha : a ∈ policy.rules) (hb : b ∈ policy.rules) (same : a.id = b.id) : a = b :=
  List.inj_on_of_nodup_map policy.uniqueIds ha hb same

/-- Two rules that are before each other are one. -/
theorem eq_of_collates (proper : policy.ProperIds) (ha : a ∈ policy.rules) (hb : b ∈ policy.rules)
    (first : collatesBefore a.id.toList b.id.toList = true)
    (second : collatesBefore b.id.toList a.id.toList = true) : a = b :=
  eq_of_id ha hb (String.toList_inj.1
    (collatesBefore_antisymm (proper a ha) (proper b hb) first second))

theorem candidates_nodup : (policy.candidates input).Nodup := by
  have nodup : policy.rules.Nodup := policy.uniqueIds.of_map _
  exact (List.mergeSort_perm _ _).nodup_iff.2 (nodup.filter _)

/-- The sorted candidates depend on the set of rules alone. -/
theorem candidates_perm {other : PaymentFeePolicyDocument} (proper : policy.ProperIds)
    (perm : other.rules.Perm policy.rules) : other.candidates input = policy.candidates input := by
  refine List.Perm.eq_of_pairwise ?_ candidates_sorted candidates_sorted ?_
  · intro a b ha hb first second
    have ha := perm.mem_iff.1 (mem_candidates.1 ha).1
    have hb := (mem_candidates.1 hb).1
    rw [FeeRule.before_iff] at first second
    refine eq_of_collates proper ha hb ?_ ?_
    · exact (first.resolve_left (by omega)).2
    · exact (second.resolve_left (by omega)).2
  · exact (List.mergeSort_perm _ _).trans ((perm.filter _).trans (List.mergeSort_perm _ _).symm)

/-- The first candidate is a leading rule. -/
theorem leading_head {rest : List FeeRule} (sorted : policy.candidates input = a :: rest) :
    policy.Leading input a := by
  have mem := mem_candidates.1 (sorted ▸ List.mem_cons_self : a ∈ policy.candidates input)
  refine ⟨mem.1, mem.2, fun other ho applies => ?_⟩
  have candidate : other ∈ a :: rest := sorted ▸ mem_candidates.2 ⟨ho, applies⟩
  rcases List.mem_cons.1 candidate with rfl | later
  · exact Int.le_refl _
  · have order := List.rel_of_pairwise_cons (sorted ▸ candidates_sorted) later
    rw [FeeRule.before_iff] at order
    omega

theorem Leading.candidate (leads : policy.Leading input a) : a ∈ policy.candidates input :=
  mem_candidates.2 ⟨leads.mem, leads.applies⟩

theorem Leading.eq_of_before (proper : policy.ProperIds) (leads : policy.Leading input a)
    (leads' : policy.Leading input b) (order : a.before b = true)
    (back : collatesBefore b.id.toList a.id.toList = true) : a = b := by
  rw [FeeRule.before_iff] at order
  have := leads.priority_eq leads'
  exact eq_of_collates proper leads.mem leads'.mem (order.resolve_left (by omega)).2 back

/-- What is compared when the first candidate and another leading rule are the first two. -/
theorem ambiguous_of_first (proper : policy.ProperIds) {rest : List FeeRule}
    (sorted : policy.candidates input = a :: rest) (leads : policy.Leading input b)
    (differ : a.feeBps ≠ b.feeBps)
    (firstTwo : ∀ c, policy.Leading input c → c = a ∨ c = b ∨
      collatesBefore b.id.toList c.id.toList = true) :
    ambiguous (policy.candidates input) = true := by
  have order := @candidates_sorted policy input
  have nodup := @candidates_nodup policy input
  have first := leading_head sorted
  have candidate := leads.candidate
  rw [sorted] at order nodup candidate ⊢
  have later : b ∈ rest :=
    (List.mem_cons.1 candidate).resolve_left fun same => differ (same ▸ rfl)
  rcases rest with - | ⟨y, ys⟩
  · cases later
  -- the second candidate is a leading rule as well, so it is the other one
  have reaches : y = b ∨ y.before b = true :=
    (List.mem_cons.1 later).imp Eq.symm (List.rel_of_pairwise_cons order.of_cons)
  have leads' : policy.Leading input y := by
    have mem := mem_candidates.1 (sorted ▸ .tail _ (.head _) : y ∈ policy.candidates input)
    refine ⟨mem.1, mem.2, fun other ho applies => ?_⟩
    have top := leads.highest other ho applies
    rcases reaches with rfl | before
    · exact top
    · rw [FeeRule.before_iff] at before
      omega
  have second : y = b := by
    rcases reaches with same | before
    · exact same
    rcases firstTwo y leads' with same | same | back
    · exact absurd (same ▸ List.mem_cons_self) (List.nodup_cons.1 nodup).1
    · exact same
    · exact leads'.eq_of_before proper leads before back
  subst second
  simp only [ambiguous, Bool.and_eq_true, beq_iff_eq, bne_iff_ne]
  exact ⟨leads'.priority_eq first, differ.symm⟩

theorem ambiguous_iff (proper : policy.ProperIds) :
    ambiguous (policy.candidates input) = true ↔ policy.FirstTwoDisagree input := by
  have sorted := @candidates_sorted policy input
  constructor
  · intro noticed
    rcases cs : policy.candidates input with - | ⟨a, - | ⟨b, rest⟩⟩
    · rw [cs] at noticed
      cases noticed
    · rw [cs] at noticed
      cases noticed
    rw [cs] at noticed sorted
    simp only [ambiguous, Bool.and_eq_true, beq_iff_eq, bne_iff_ne] at noticed
    have leads := leading_head cs
    have second := mem_candidates.1 (cs ▸ .tail _ (.head _) : b ∈ policy.candidates input)
    have leads' : policy.Leading input b :=
      ⟨second.1, second.2, fun other ho applies => noticed.1 ▸ leads.highest other ho applies⟩
    refine ⟨a, b, leads, leads', Ne.symm noticed.2, fun c hc => ?_⟩
    have candidate := hc.candidate
    rw [cs] at candidate
    rcases List.mem_cons.1 candidate with first | candidate
    · exact .inl first
    rcases List.mem_cons.1 candidate with next | later
    · exact .inr (.inl next)
    have fromFirst := List.rel_of_pairwise_cons sorted (.tail _ later)
    have fromSecond := List.rel_of_pairwise_cons sorted.of_cons later
    rw [FeeRule.before_iff] at fromFirst fromSecond
    have := leads.priority_eq hc
    have := leads'.priority_eq hc
    exact .inr (.inr ⟨(fromFirst.resolve_left (by omega)).2, (fromSecond.resolve_left (by omega)).2⟩)
  · rintro ⟨a, b, leads, leads', differ, firstTwo⟩
    rcases cs : policy.candidates input with - | ⟨x, rest⟩
    · have candidate := leads.candidate
      rw [cs] at candidate
      cases candidate
    have head := leading_head cs
    have reaches : x = a ∨ x.before a = true := by
      have candidate := leads.candidate
      rw [cs] at sorted candidate
      exact (List.mem_cons.1 candidate).imp Eq.symm (List.rel_of_pairwise_cons sorted)
    rw [← cs]
    have first : x = a ∨ x = b := by
      rcases firstTwo x head with same | same | ⟨back, -⟩
      · exact .inl same
      · exact .inr same
      · exact .inl (reaches.elim id fun before => head.eq_of_before proper leads before back)
    rcases first with rfl | rfl
    · exact ambiguous_of_first proper cs leads' differ fun c hc =>
        (firstTwo c hc).imp_right (Or.imp_right And.right)
    · refine ambiguous_of_first proper cs leads differ.symm fun c hc => ?_
      rcases firstTwo c hc with same | same | ⟨back, -⟩
      · exact .inr (.inl same)
      · exact .inl same
      · exact .inr (.inr back)

/-- The fee that the leading rules agree on; no rule, no fee. -/
structure Prescribes (policy : PaymentFeePolicyDocument) (input : FeeInput) (feeBps : Nat) :
    Prop where
  agreed : ∀ rule, policy.Leading input rule → rule.feeBps = feeBps
  free : (∀ rule, ¬policy.Leading input rule) → feeBps = 0

/-- The fee of the first candidate. -/
def firstFee (policy : PaymentFeePolicyDocument) (input : FeeInput) : Nat :=
  ((policy.candidates input).head?.map (·.feeBps)).getD 0

theorem firstFee_of_prescribes {feeBps : Nat} (prescribed : policy.Prescribes input feeBps) :
    policy.firstFee input = feeBps := by
  unfold firstFee
  rcases cs : policy.candidates input with - | ⟨a, rest⟩
  · refine (prescribed.free fun rule leads => ?_).symm
    have candidate := leads.candidate
    rw [cs] at candidate
    cases candidate
  · exact prescribed.agreed a (leading_head cs)

theorem prescribes_firstFee (agree : ¬policy.Disagree input) :
    policy.Prescribes input (policy.firstFee input) := by
  unfold firstFee
  rcases cs : policy.candidates input with - | ⟨a, rest⟩
  · refine ⟨fun rule leads => ?_, fun _ => rfl⟩
    have candidate := leads.candidate
    rw [cs] at candidate
    cases candidate
  · refine ⟨fun rule leads => ?_, fun none => absurd (leading_head cs) (none a)⟩
    by_contra differ
    exact agree ⟨rule, a, leads, leading_head cs, differ⟩

theorem Prescribes.agree {feeBps : Nat} (prescribed : policy.Prescribes input feeBps) :
    ¬policy.Disagree input := by
  rintro ⟨a, b, leads, leads', differ⟩
  exact differ ((prescribed.agreed a leads).trans (prescribed.agreed b leads').symm)

end PaymentFeePolicyDocument

/-! ### Resolution -/

section resolution

open PaymentFeePolicyDocument

variable {settings : FeeSettings} {policy : PaymentFeePolicyDocument} {input : FeeInput}
  {fee : ResolvedPaymentFee}

/-- The route takes the fee, and it can be paid out. -/
structure Chargeable (settings : FeeSettings) (input : FeeInput) (feeBps : Nat) : Prop where
  capBound : input.routeFeeCapBps ≤ 100
  cap : feeBps ≤ input.routeFeeCapBps
  preflight : 0 < feeBps → settings.routerPreflightEnabled = true
  recipient : 0 < feeBps → settings.platformFeeRecipient.isSome

theorem feeRecipient_ok {feeBps : Nat} :
    (∃ recipient, feeRecipient settings feeBps = .ok recipient) ↔
      (0 < feeBps → settings.platformFeeRecipient.isSome) := by
  unfold feeRecipient
  by_cases free : feeBps = 0
  · simp [free]
  · rcases settings.platformFeeRecipient with - | recipient <;> simp [free, Nat.pos_iff_ne_zero]

theorem feeRecipient_error {feeBps : Nat} {e : FeePolicyError}
    (failed : feeRecipient settings feeBps = .error e) : e.code = .invalidFeePolicy := by
  unfold feeRecipient at failed
  split at failed
  · cases failed
  split at failed
  · cases failed
    rfl
  · cases failed

theorem resolve_of_ambiguous (configured : settings.paymentFeePolicy = .ok policy)
    (noticed : ambiguous (policy.candidates input) = true) :
    resolvePaymentFee settings input =
      .error ⟨.ambiguousFeePolicy, "Multiple top-priority fee rules disagree"⟩ := by
  unfold resolvePaymentFee
  rw [configured]
  exact revertIf_bind_of noticed

theorem resolve_error (configured : settings.paymentFeePolicy = .ok policy)
    (clear : ¬ambiguous (policy.candidates input) = true) {e : FeePolicyError}
    (failed : resolvePaymentFee settings input = .error e) : e.code ≠ .ambiguousFeePolicy := by
  unfold resolvePaymentFee at failed
  rw [configured] at failed
  rcases bind_eq_error.1 failed with failed | ⟨policy', found, failed⟩
  · cases failed
  obtain rfl := Except.ok.inj found
  rcases bind_eq_error.1 failed with failed | ⟨-, -, failed⟩
  · exact absurd (revertIf_eq_error.1 failed).1 clear
  rcases bind_eq_error.1 failed with failed | ⟨-, -, failed⟩
  · obtain ⟨-, rfl⟩ := revertIf_eq_error.1 failed
    decide
  rcases bind_eq_error.1 failed with failed | ⟨-, -, failed⟩
  · obtain ⟨-, rfl⟩ := revertIf_eq_error.1 failed
    decide
  rcases bind_eq_error.1 failed with failed | ⟨-, -, failed⟩
  · obtain ⟨-, rfl⟩ := revertIf_eq_error.1 failed
    decide
  rcases bind_eq_error.1 failed with failed | ⟨recipient, -, failed⟩
  · rw [feeRecipient_error failed]
    decide
  · cases failed

theorem resolve_ok (configured : settings.paymentFeePolicy = .ok policy)
    (resolved : resolvePaymentFee settings input = .ok fee) :
    ¬ambiguous (policy.candidates input) = true ∧ fee.platformFeeBps = policy.firstFee input := by
  unfold resolvePaymentFee at resolved
  rw [configured] at resolved
  obtain ⟨policy', found, resolved⟩ := bind_eq_ok.1 resolved
  obtain rfl := Except.ok.inj found
  obtain ⟨clear, resolved⟩ := revertIf_bind_eq_ok.1 resolved
  obtain ⟨-, resolved⟩ := revertIf_bind_eq_ok.1 resolved
  obtain ⟨-, resolved⟩ := revertIf_bind_eq_ok.1 resolved
  obtain ⟨-, resolved⟩ := revertIf_bind_eq_ok.1 resolved
  obtain ⟨recipient, -, resolved⟩ := bind_eq_ok.1 resolved
  cases resolved
  exact ⟨clear, rfl⟩

theorem resolves_iff (configured : settings.paymentFeePolicy = .ok policy)
    (clear : ¬ambiguous (policy.candidates input) = true) :
    (∃ fee, resolvePaymentFee settings input = .ok fee) ↔
      Chargeable settings input (policy.firstFee input) := by
  unfold resolvePaymentFee
  rw [configured]
  constructor
  · rintro ⟨fee, resolved⟩
    obtain ⟨policy', found, resolved⟩ := bind_eq_ok.1 resolved
    obtain rfl := Except.ok.inj found
    obtain ⟨-, resolved⟩ := revertIf_bind_eq_ok.1 resolved
    obtain ⟨bound, resolved⟩ := revertIf_bind_eq_ok.1 resolved
    obtain ⟨cap, resolved⟩ := revertIf_bind_eq_ok.1 resolved
    obtain ⟨preflight, resolved⟩ := revertIf_bind_eq_ok.1 resolved
    obtain ⟨recipient, paid, resolved⟩ := bind_eq_ok.1 resolved
    refine ⟨Nat.not_lt.1 bound, Nat.not_lt.1 cap, fun charged => ?_, feeRecipient_ok.1 ⟨_, paid⟩⟩
    exact Bool.of_not_eq_false fun off => preflight ⟨charged, off⟩
  · intro charge
    obtain ⟨recipient, paid⟩ := feeRecipient_ok.2 charge.recipient
    have preflight : ¬(0 < policy.firstFee input ∧ settings.routerPreflightEnabled = false) := by
      rintro ⟨charged, off⟩
      rw [charge.preflight charged] at off
      cases off
    change ∃ fee, (revertIf (ambiguous (policy.candidates input) = true) _ >>= _) = Except.ok fee
    rw [revertIf_bind_of_not clear, revertIf_bind_of_not (Nat.not_lt.2 charge.capBound)]
    change ∃ fee, (revertIf (input.routeFeeCapBps < policy.firstFee input) _ >>= fun _ =>
      revertIf (0 < policy.firstFee input ∧ _) _ >>= fun _ =>
        feeRecipient settings (policy.firstFee input) >>= _) = Except.ok fee
    rw [revertIf_bind_of_not (Nat.not_lt.2 charge.cap), revertIf_bind_of_not preflight, paid]
    exact ⟨_, rfl⟩

theorem maximum_of_mem {sourceChainId : ChainId} {routes : List PaymentRoute} {rule : FeeRule}
    {rules : List FeeRule} (mem : rule ∈ rules)
    (mayApply : rule.mayApplyOn sourceChainId routes = true) (start : Nat) :
    rule.feeBps ≤ rules.foldl (fun maximum rule =>
      if rule.mayApplyOn sourceChainId routes then max maximum rule.feeBps else maximum) start := by
  have grows (rules : List FeeRule) (start : Nat) : start ≤ rules.foldl (fun maximum rule =>
      if rule.mayApplyOn sourceChainId routes then max maximum rule.feeBps else maximum) start := by
    induction rules generalizing start with
    | nil => exact Nat.le_refl _
    | cons other rules ih =>
      refine Nat.le_trans ?_ (ih _)
      dsimp only
      split
      · exact Nat.le_max_left _ _
      · exact Nat.le_refl _
  induction mem generalizing start with
  | head rules =>
    refine Nat.le_trans ?_ (grows rules _)
    dsimp only
    rw [if_pos mayApply]
    exact Nat.le_max_right _ _
  | tail _ _ ih => exact ih _

theorem FeeRule.appliesTo_mayApplyOn {rule : FeeRule} {routes : List PaymentRoute}
    (applies : rule.appliesTo input = true) (mem : input.route ∈ routes) :
    rule.mayApplyOn input.sourceChainId routes = true := by
  simp only [FeeRule.appliesTo, Bool.and_eq_true] at applies
  obtain ⟨⟨⟨⟨-, chain⟩, route⟩, -⟩, -⟩ := applies
  refine Bool.and_eq_true_iff.2 ⟨chain, ?_⟩
  cases allowed : rule.routes with
  | none => rfl
  | some allowed' =>
    rw [allowed] at route
    refine List.any_eq_true.2 ⟨input.route, ?_, List.contains_iff_mem.2 mem⟩
    exact List.contains_iff_mem.1 route

/-- What the resolution of a fee is to do: the order in which the rules stand does not matter,
an answer is refused exactly when leading rules disagree, and otherwise the fee is the one they
prescribe, if the route takes it. -/
structure Faithful (settings : FeeSettings) (policy : PaymentFeePolicyDocument)
    (input : FeeInput) : Prop where
  permuted : ∀ other : PaymentFeePolicyDocument, other.policyId = policy.policyId →
    other.version = policy.version → other.rules.Perm policy.rules →
    resolvePaymentFee { settings with paymentFeePolicy := .ok other } input =
      resolvePaymentFee settings input
  ambiguous : (∃ message, resolvePaymentFee settings input =
    .error ⟨.ambiguousFeePolicy, message⟩) ↔ policy.Disagree input
  resolves : ∀ feeBps, policy.Prescribes input feeBps →
    ((∃ fee, resolvePaymentFee settings input = .ok fee) ↔ Chargeable settings input feeBps)
  prescribed : ∀ fee, resolvePaymentFee settings input = .ok fee →
    policy.Prescribes input fee.platformFeeBps
  amount : ∀ fee, resolvePaymentFee settings input = .ok fee →
    fee.platformFeeAtomic = input.intent.amountAtomic * fee.platformFeeBps / 10000 ∧
      fee.platformFeeAtomic ≤ input.intent.amountAtomic
  caps : ∀ fee, resolvePaymentFee settings input = .ok fee →
    fee.platformFeeBps ≤ input.routeFeeCapBps ∧ fee.platformFeeBps ≤ 100
  maximum : ∀ fee routes maximum, resolvePaymentFee settings input = .ok fee →
    input.route ∈ routes →
    maximumConfiguredFeeBps settings input.sourceChainId routes = .ok maximum →
    fee.platformFeeBps ≤ maximum

theorem faithful_iff (configured : settings.paymentFeePolicy = .ok policy)
    (proper : policy.ProperIds) :
    Faithful settings policy input ↔ (policy.Disagree input → policy.FirstTwoDisagree input) := by
  have noticed := @ambiguous_iff policy input proper
  constructor
  · intro faithful disagree
    obtain ⟨message, refused⟩ := faithful.ambiguous.2 disagree
    by_contra unnoticed
    exact resolve_error configured (mt noticed.1 unnoticed) refused rfl
  intro notices
  -- a resolved fee is one that no two leading rules disagree about
  have agree {fee} (resolved : resolvePaymentFee settings input = .ok fee) :
      ¬policy.Disagree input ∧ fee.platformFeeBps = policy.firstFee input := by
    obtain ⟨clear, first⟩ := resolve_ok configured resolved
    exact ⟨fun disagree => clear (noticed.2 (notices disagree)), first⟩
  have prescribed : ∀ fee, resolvePaymentFee settings input = .ok fee →
      policy.Prescribes input fee.platformFeeBps := by
    intro fee resolved
    obtain ⟨agreed, first⟩ := agree resolved
    rw [first]
    exact prescribes_firstFee agreed
  refine ⟨?_, ?_, ?_, prescribed, ?_, ?_, ?_⟩
  · intro other samePolicy sameVersion perm
    unfold resolvePaymentFee
    rw [configured]
    have same : other.candidates input = policy.candidates input := candidates_perm proper perm
    unfold PaymentFeePolicyDocument.candidates at same
    simp only [bind, Except.bind, same, samePolicy, sameVersion]
    rfl
  · constructor
    · rintro ⟨message, refused⟩
      by_contra agreed
      refine resolve_error configured (fun found => agreed ?_) refused rfl
      exact (noticed.1 found).disagree
    · intro disagree
      exact ⟨_, resolve_of_ambiguous configured (noticed.2 (notices disagree))⟩
  · intro feeBps prescribes
    rw [← firstFee_of_prescribes prescribes]
    exact resolves_iff configured fun found => prescribes.agree (noticed.1 found).disagree
  · intro fee resolved
    have of := resolvePaymentFee_ok resolved
    refine ⟨of.atomic, of.atomic ▸ Nat.div_le_of_le_mul ?_⟩
    rw [Nat.mul_comm]
    refine Nat.mul_le_mul_right _ ?_
    have := of.cap
    have := of.capBound
    omega
  · intro fee resolved
    have of := resolvePaymentFee_ok resolved
    exact ⟨of.cap, of.cap.trans of.capBound⟩
  · intro fee routes maximum resolved mem configuredMaximum
    unfold maximumConfiguredFeeBps at configuredMaximum
    rw [configured] at configuredMaximum
    obtain rfl := Except.ok.inj configuredMaximum
    rw [(agree resolved).2]
    unfold PaymentFeePolicyDocument.firstFee
    rcases cs : policy.candidates input with - | ⟨a, rest⟩
    · exact Nat.zero_le _
    · have leads := leading_head cs
      exact maximum_of_mem leads.mem (FeeRule.appliesTo_mayApplyOn leads.applies mem) 0

end resolution

/-- A rule without a condition. -/
def plainRule (id : String) (feeBps : Nat) (feeBps_le : feeBps ≤ 100) : FeeRule where
  id
  priority := 10
  feeBps
  merchantIds := none
  modes := none
  sourceChainIds := none
  routes := none
  minAmountAtomic := none
  maxAmountAtomic := none
  feeBps_le

def ruleOne : FeeRule := plainRule "one" 10 (by decide)

def ruleTwo : FeeRule := plainRule "two" 20 (by decide)

/-- Between the two by its identifier, and with the fee of the first. -/
def ruleThree : FeeRule := plainRule "three" 10 (by decide)

def ambiguousPolicy : PaymentFeePolicyDocument where
  policyId := "ambiguous-v1"
  version := 1
  rules := [ruleOne, ruleTwo]
  uniqueIds := by decide

def threeWayPolicy : PaymentFeePolicyDocument where
  policyId := "ambiguous-v2"
  version := 1
  rules := [ruleOne, ruleThree, ruleTwo]
  uniqueIds := by decide

def chargingSettings (policy : PaymentFeePolicyDocument) : FeeSettings where
  paymentFeePolicy := .ok policy
  platformFeeRecipient := some 0x1111
  routerPreflightEnabled := true

def plainInput : FeeInput where
  intent := {
    id := 1, merchantId := 2, linkId := none, idempotencyKey := none, amountMode := .fixed
    reference := "Fee test", metadata := "", mode := .test, settlementWallet := 0xa1
    settlementChainId := 421614, settlementAccountVersion := 1, expiresAt := none, createdAt := 0
    amount := ⟨2, []⟩, amountAtomic := 2000000, status := .awaitingPayment
    paidAmountAtomic := 0, paidTxHash := none, paidAt := none }
  sourceChainId := 421614
  route := .sameChain
  routeFeeCapBps := 100

theorem ambiguousPolicy_faithful :
    Faithful (chargingSettings ambiguousPolicy) ambiguousPolicy plainInput := by
  refine (faithful_iff rfl (by decide)).2 fun _ => ?_
  have leads (rule : FeeRule) (mem : rule ∈ [ruleOne, ruleTwo]) :
      ambiguousPolicy.Leading plainInput rule := by
    refine ⟨mem, ?_, fun other ho _ => ?_⟩
    · simp only [List.mem_cons, List.not_mem_nil, or_false] at mem
      rcases mem with rfl | rfl <;> rfl
    · simp only [ambiguousPolicy, List.mem_cons, List.not_mem_nil, or_false] at ho mem
      rcases ho with rfl | rfl <;> rcases mem with rfl | rfl <;> decide
  refine ⟨ruleOne, ruleTwo, leads _ (by simp), leads _ (by simp), by decide, fun c hc => ?_⟩
  have mem := hc.mem
  simp only [ambiguousPolicy, List.mem_cons, List.not_mem_nil, or_false] at mem
  exact mem.imp_right .inl

/-- The first of three rules is charged, although the last one disagrees. -/
theorem threeWay_charged :
    (∃ fee, resolvePaymentFee (chargingSettings threeWayPolicy) plainInput = .ok fee ∧
      fee.platformFeeBps = 10) ∧
    threeWayPolicy.Disagree plainInput ∧
    ¬Faithful (chargingSettings threeWayPolicy) threeWayPolicy plainInput := by
  have sorted : threeWayPolicy.candidates plainInput = threeWayPolicy.rules :=
    List.mergeSort_of_pairwise (by decide)
  have clear : ¬ambiguous (threeWayPolicy.candidates plainInput) = true := by
    rw [sorted]
    decide
  have first : threeWayPolicy.firstFee plainInput = 10 := by
    rw [PaymentFeePolicyDocument.firstFee, sorted]
    rfl
  have disagree : threeWayPolicy.Disagree plainInput := by
    have leads (rule : FeeRule) (mem : rule ∈ threeWayPolicy.rules) :
        threeWayPolicy.Leading plainInput rule := by
      refine ⟨mem, ?_, fun other ho _ => ?_⟩
      · simp only [threeWayPolicy, List.mem_cons, List.not_mem_nil, or_false] at mem
        rcases mem with rfl | rfl | rfl <;> rfl
      · simp only [threeWayPolicy, List.mem_cons, List.not_mem_nil, or_false] at ho mem
        rcases ho with rfl | rfl | rfl <;> rcases mem with rfl | rfl | rfl <;> decide
    exact ⟨ruleOne, ruleTwo, leads _ (by simp [threeWayPolicy]), leads _ (by simp [threeWayPolicy]),
      by decide⟩
  refine ⟨?_, disagree, fun faithful => ?_⟩
  · have charge : Chargeable (chargingSettings threeWayPolicy) plainInput
        (threeWayPolicy.firstFee plainInput) := by
      rw [first]
      exact ⟨by decide, by decide, fun _ => rfl, fun _ => rfl⟩
    obtain ⟨fee, resolved⟩ := (resolves_iff rfl clear).2 charge
    exact ⟨fee, resolved, (resolve_ok rfl resolved).2.trans first⟩
  · obtain ⟨message, refused⟩ := faithful.ambiguous.2 disagree
    exact resolve_error rfl clear refused rfl

end ParmeliaLinks.Payments
