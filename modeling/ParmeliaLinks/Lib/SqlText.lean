/-
ParmeliaLinks/Lib/SqlText.lean

Text columns.  The engine compares texts by their characters, from the front,
and a column that holds numbers in decimal is compared so as well: of two numbers
with as many digits the greater one has the greater text (`decimal_lt_decimal`),
and beyond that the two orders have nothing to do with each other.

`like` is pattern matching with `%` and `_`, which does not tell the case of
letters apart.  A pattern that ends in its only wildcard asks for a prefix
(`like_stemmed`).
-/
import Mathlib.Data.List.Infix
import Mathlib.Data.Nat.Digits.Defs

namespace ParmeliaLinks

abbrev Text := List Char

/-- A property of every character of a given text, checked. -/
theorem forall_mem_of_all {p : Char → Prop} [DecidablePred p] {t : Text}
    (h : (t.all fun c => decide (p c)) = true) : ∀ c ∈ t, p c := by
  intro c hc
  exact of_decide_eq_true (List.all_eq_true.1 h c hc)

/-! ### Decimal numbers -/

/-- The decimal text of a number. -/
def decimal (n : Nat) : Text := Nat.toDigits 10 n

/-- The number that a decimal text stands for. -/
def decimalValue (t : Text) : Nat := Nat.ofDigitChars 10 t 0

@[simp] theorem decimalValue_decimal (n : Nat) : decimalValue (decimal n) = n :=
  Nat.ofDigitChars_ten_toDigits

theorem decimal_injective {m n : Nat} (h : decimal m = decimal n) : m = n := by
  rw [← decimalValue_decimal m, h, decimalValue_decimal]

theorem isDigit_of_mem_decimal {n : Nat} {c : Char} (h : c ∈ decimal n) : c.isDigit = true :=
  Nat.isDigit_of_mem_toDigits (by decide) (by decide) h

theorem decimalValue_cons (c : Char) (t : Text) :
    decimalValue (c :: t) = (c.toNat - 48) * 10 ^ t.length + decimalValue t := by
  rw [decimalValue, Nat.ofDigitChars_cons, Nat.ofDigitChars_eq_ofDigitChars_zero, decimalValue]
  simp [Nat.mul_comm]

/-- A text of digits stands for less than the next power of ten. -/
theorem decimalValue_lt {t : Text} (digits : ∀ c ∈ t, c.isDigit = true) :
    decimalValue t < 10 ^ t.length := by
  induction t with
  | nil => simp [decimalValue]
  | cons c t ih =>
    have rest := ih fun d hd => digits d (List.mem_cons_of_mem c hd)
    have digit := digits c (List.mem_cons_self)
    simp only [Char.isDigit, Bool.and_eq_true, decide_eq_true_eq] at digit
    have small : c.toNat - 48 ≤ 9 := by
      have := digit.2
      have : c.toNat ≤ 57 := this
      omega
    rw [decimalValue_cons, List.length_cons, pow_succ]
    have := Nat.mul_le_mul_right (10 ^ t.length) small
    omega

/-- Two texts of as many digits are in the order of their numbers. -/
theorem lt_iff_decimalValue_lt {t u : Text} (length : t.length = u.length)
    (ht : ∀ c ∈ t, c.isDigit = true) (hu : ∀ c ∈ u, c.isDigit = true) :
    t < u ↔ decimalValue t < decimalValue u := by
  induction t generalizing u with
  | nil =>
    rw [List.length_eq_zero_iff.1 length.symm]
    simp
  | cons c t ih =>
    match u, length with
    | d :: u, length =>
      have same : t.length = u.length := by simpa using length
      have ht' : ∀ x ∈ t, x.isDigit = true := fun x hx => ht x (List.mem_cons_of_mem c hx)
      have hu' : ∀ x ∈ u, x.isDigit = true := fun x hx => hu x (List.mem_cons_of_mem d hx)
      have ltt := decimalValue_lt ht'
      have ltu := decimalValue_lt hu'
      have digit : ∀ {x : Char}, x.isDigit = true → 48 ≤ x.toNat := by
        intro x hx
        simp only [Char.isDigit, Bool.and_eq_true, decide_eq_true_eq] at hx
        exact hx.1
      have hc := digit (ht c List.mem_cons_self)
      have hd := digit (hu d List.mem_cons_self)
      rw [List.cons_lt_cons_iff, ih same ht' hu', decimalValue_cons, decimalValue_cons, same]
      rw [same] at ltt
      have order : c < d ↔ c.toNat < d.toNat := Iff.rfl
      constructor
      · rintro (lt | ⟨rfl, lt⟩)
        · have : c.toNat - 48 + 1 ≤ d.toNat - 48 := by
            have := order.1 lt
            omega
          have := Nat.mul_le_mul_right (10 ^ u.length) this
          rw [Nat.add_mul] at this
          omega
        · omega
      · intro lt
        rcases Nat.lt_trichotomy c.toNat d.toNat with below | equal | above
        · exact .inl (order.2 below)
        · have : c = d := Char.ext (UInt32.toNat_inj.1 equal)
          subst this
          exact .inr ⟨rfl, by omega⟩
        · have : d.toNat - 48 + 1 ≤ c.toNat - 48 := by omega
          have := Nat.mul_le_mul_right (10 ^ u.length) this
          rw [Nat.add_mul] at this
          omega

/-- Numbers with as many digits are in the order of their texts. -/
theorem decimal_lt_decimal {m n : Nat} (length : (decimal m).length = (decimal n).length) :
    decimal m < decimal n ↔ m < n := by
  rw [lt_iff_decimalValue_lt length (fun _ h => isDigit_of_mem_decimal h)
    (fun _ h => isDigit_of_mem_decimal h), decimalValue_decimal, decimalValue_decimal]

/-- A number with more digits is greater. -/
theorem lt_of_length_decimal_lt {m n : Nat} (h : (decimal m).length < (decimal n).length) :
    m < n := by
  by_contra hle
  have bound : m < 10 ^ (decimal m).length := by
    have := decimalValue_lt fun _ h => isDigit_of_mem_decimal (n := m) h
    rwa [decimalValue_decimal] at this
  have pos : 0 < (decimal m).length := List.length_pos_of_ne_nil Nat.toDigits_ne_nil
  have := (Nat.length_toDigits_le_iff (b := 10) (n := n) (by decide) pos).2 (by omega)
  exact absurd h (Nat.not_lt.2 this)

/-! ### Separators -/

/-- A text splits at its first separator in one way. -/
theorem append_separator_inj {s : Char} {t u r r' : Text} (ht : s ∉ t) (hu : s ∉ u)
    (h : t ++ s :: r = u ++ s :: r') : t = u ∧ r = r' := by
  induction t generalizing u with
  | nil =>
    cases u with
    | nil => exact ⟨rfl, (List.cons.inj h).2⟩
    | cons d u => exact absurd (List.cons.inj h).1 (List.ne_of_not_mem_cons hu)
  | cons c t ih =>
    cases u with
    | nil => exact absurd (List.cons.inj h).1.symm (List.ne_of_not_mem_cons ht)
    | cons d u =>
      obtain ⟨rfl, rest⟩ := List.cons.inj h
      obtain ⟨rfl, rfl⟩ := ih (List.not_mem_of_not_mem_cons ht) (List.not_mem_of_not_mem_cons hu)
        rest
      exact ⟨rfl, rfl⟩

/-! ### Patterns -/

/-- `text LIKE pattern`. -/
def like : Text → Text → Bool
  | [], t => t.isEmpty
  | c :: p, t =>
    if c = '%' then t.tails.any (like p)
    else
      match t with
      | [] => false
      | d :: t => (c = '_' || c.toLower == d.toLower) && like p t

/-- A character that stands for itself in a pattern. -/
def isPlain (c : Char) : Bool := c != '%' && c != '_'

theorem like_percent (t : Text) : like ['%'] t = true := by
  simp only [like, if_pos]
  rw [List.any_eq_true]
  exact ⟨[], (List.mem_tails _ _).2 List.nil_suffix, rfl⟩

/-- A pattern that ends in its only wildcard asks for a prefix, in either case. -/
theorem like_stemmed {p t : Text} (plain : ∀ c ∈ p, isPlain c = true) :
    like (p ++ ['%']) t = true ↔
      ∃ q rest, t = q ++ rest ∧ q.map Char.toLower = p.map Char.toLower := by
  induction p generalizing t with
  | nil =>
    constructor
    · intro _
      exact ⟨[], t, rfl, rfl⟩
    · intro _
      exact like_percent t
  | cons c p ih =>
    have self := plain c List.mem_cons_self
    simp only [isPlain, Bool.and_eq_true, bne_iff_ne, ne_eq] at self
    have rest := fun x hx => plain x (List.mem_cons_of_mem c hx)
    rw [List.cons_append, like.eq_def]
    dsimp only
    rw [if_neg self.1]
    cases t with
    | nil => simp
    | cons d t =>
      simp only [self.2, decide_false, Bool.false_or, Bool.and_eq_true, beq_iff_eq, ih rest]
      constructor
      · rintro ⟨same, q, tail, rfl, lower⟩
        refine ⟨d :: q, tail, rfl, ?_⟩
        rw [List.map_cons, List.map_cons, lower, same]
      · rintro ⟨q, tail, split, lower⟩
        cases q with
        | nil => simp at lower
        | cons e q =>
          rw [List.cons_append, List.cons.injEq] at split
          rw [List.map_cons, List.map_cons, List.cons.injEq] at lower
          refine ⟨?_, q, tail, split.2, lower.2⟩
          rw [split.1]
          exact lower.1.symm

end ParmeliaLinks
