/-
ParmeliaLinks/Payments/Amounts.lean

USDC amounts.  The worker keeps an amount twice: as an integer number of atomic
units, and as the decimal text shown to people.  `DecimalText` is that text
(digits before and after the point), `parseUnits` and `formatUnits` convert
between the two, and `formatUnits` is undone by `parseUnits`
(`parseUnits_formatUnits`), so the two never tell different amounts.

`RequestedAmount` is what request validation hands to the repository: an amount
whose two forms agree, positive when it is fixed and zero when the payer
chooses it.
-/
import Mathlib.Data.List.DropRight
import Mathlib.Tactic.Ring

namespace ParmeliaLinks.Payments

/-! ### Decimal text -/

/-- A decimal numeral: the integer part and the digits after the point. -/
structure DecimalText where
  whole : Nat
  frac : List Nat
  deriving DecidableEq

/-- The text `0`. -/
def DecimalText.zero : DecimalText := ⟨0, []⟩

/-- The number that a list of digits spells. -/
def digitsValue (ds : List Nat) : Nat := ds.foldl (fun n d => 10 * n + d) 0

@[simp] theorem digitsValue_nil : digitsValue [] = 0 := rfl

@[simp] theorem digitsValue_concat (ds : List Nat) (d : Nat) :
    digitsValue (ds ++ [d]) = 10 * digitsValue ds + d := by
  simp [digitsValue]

/-- The last `k` decimal digits of `n`, padded with zeros. -/
def lastDigits : Nat → Nat → List Nat
  | 0, _ => []
  | k + 1, n => lastDigits k (n / 10) ++ [n % 10]

@[simp] theorem length_lastDigits (k n : Nat) : (lastDigits k n).length = k := by
  induction k generalizing n with
  | zero => rfl
  | succ k ih => simp [lastDigits, ih]

theorem digitsValue_lastDigits (k n : Nat) : digitsValue (lastDigits k n) = n % 10 ^ k := by
  induction k generalizing n with
  | zero => simp [lastDigits, Nat.mod_one]
  | succ k ih =>
    rw [lastDigits, digitsValue_concat, ih, pow_succ', Nat.mod_mul]
    ring

/-- Dropping trailing zeros divides by a power of ten. -/
theorem digitsValue_rdropWhile (ds : List Nat) :
    digitsValue (ds.rdropWhile (· == 0)) * 10 ^ (ds.length - (ds.rdropWhile (· == 0)).length)
      = digitsValue ds := by
  induction ds using List.reverseRecOn with
  | nil => rfl
  | append_singleton ds d ih =>
    by_cases hd : d = 0
    · subst hd
      rw [List.rdropWhile_concat_pos _ _ _ (by rfl), digitsValue_concat, ← ih]
      have hle : (ds.rdropWhile (· == 0)).length ≤ ds.length :=
        (List.rdropWhile_prefix _ _).length_le
      rw [List.length_append, List.length_singleton, Nat.sub_add_comm hle, pow_succ]
      ring
    · rw [List.rdropWhile_concat_neg _ _ _ (by simpa using hd)]
      simp

/-! ### Conversions -/

/-- The integer that a decimal text stands for, in units of `10 ^ -decimals`. -/
def parseUnits (t : DecimalText) (decimals : Nat) : Nat :=
  t.whole * 10 ^ decimals + digitsValue t.frac * 10 ^ (decimals - t.frac.length)

/-- The shortest decimal text of an integer number of units. -/
def formatUnits (value decimals : Nat) : DecimalText where
  whole := value / 10 ^ decimals
  frac := (lastDigits decimals value).rdropWhile (· == 0)

@[simp] theorem parseUnits_zero (decimals : Nat) : parseUnits .zero decimals = 0 := by
  simp [parseUnits, DecimalText.zero]

theorem formatUnits_zero (decimals : Nat) : formatUnits 0 decimals = .zero := by
  have frac : (lastDigits decimals 0).rdropWhile (· == 0) = [] := by
    rw [List.rdropWhile_eq_nil_iff]
    induction decimals with
    | zero => simp [lastDigits]
    | succ k ih =>
      intro d hd
      rw [lastDigits, List.mem_append] at hd
      rcases hd with hd | hd
      · exact ih d (by simpa using hd)
      · simpa using hd
  simp [formatUnits, frac, DecimalText.zero]

/-- Formatting loses nothing. -/
theorem parseUnits_formatUnits (value decimals : Nat) :
    parseUnits (formatUnits value decimals) decimals = value := by
  have frac := digitsValue_rdropWhile (lastDigits decimals value)
  rw [length_lastDigits, digitsValue_lastDigits] at frac
  simp only [parseUnits, formatUnits]
  rw [frac, Nat.mul_comm]
  exact Nat.div_add_mod value (10 ^ decimals)

/-! ### Requested amounts -/

/-- Whether the merchant or the payer chooses the amount. -/
inductive AmountMode | fixed | payerDefined
  deriving DecidableEq

/-- An amount that has passed request validation. -/
structure RequestedAmount where
  decimal : DecimalText
  atomic : Nat
  mode : AmountMode
  parsed : parseUnits decimal 6 = atomic
  fixed_pos : mode = .fixed → 0 < atomic
  payerDefined_zero : mode = .payerDefined → decimal = .zero

/-- A stated amount: at most six decimals, and greater than zero. -/
def amount (decimal : DecimalText) : Except String RequestedAmount :=
  if 6 < decimal.frac.length then .error "Amount must use at most 6 decimals"
  else if h : 0 < parseUnits decimal 6 then
    .ok { decimal := decimal, atomic := parseUnits decimal 6, mode := .fixed, parsed := rfl,
          fixed_pos := fun _ => h, payerDefined_zero := nofun }
  else .error "Amount must be greater than zero"

/-- The amount is left to the payer. -/
def RequestedAmount.payerChosen : RequestedAmount where
  decimal := .zero
  atomic := 0
  mode := .payerDefined
  parsed := parseUnits_zero 6
  fixed_pos := nofun
  payerDefined_zero _ := rfl

/-- An amount that may be left open. -/
def optionalAmount : Option DecimalText → Except String RequestedAmount
  | none => .ok .payerChosen
  | some decimal => amount decimal

end ParmeliaLinks.Payments
