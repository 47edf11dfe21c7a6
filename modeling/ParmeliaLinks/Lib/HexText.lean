/-
ParmeliaLinks/Lib/HexText.lean

Texts of hexadecimal digits.  A text is read in either case and written in lower case; in lower
case there is one text for each sequence of digits (`exists_digits`, `render_inj`), so slices of
the text are slices of the digits (`slice_render`).
-/
import Mathlib.Algebra.Group.Nat.Defs
import Mathlib.Data.List.FinRange
import ParmeliaLinks.Lib.SqlText

namespace ParmeliaLinks.HexText

abbrev Digits := List (Fin 16)

/-! ### Digits and characters -/

def digitChar (d : Fin 16) : Char := "0123456789abcdef".toList.getD d '0'

/-- The digit of a character, in either case. -/
def digitOf (c : Char) : Option (Fin 16) :=
  (List.finRange 16).find? fun d => c == digitChar d || c == (digitChar d).toUpper

def isHex (t : Text) : Bool := t.all fun c => (digitOf c).isSome

def lower (t : Text) : Text := t.map Char.toLower

def render (ds : Digits) : Text := ds.map digitChar

theorem digitOf_digitChar : ∀ d, digitOf (digitChar d) = some d := by decide

theorem toLower_digitChar : ∀ d, (digitChar d).toLower = digitChar d ∧
    (digitChar d).toUpper.toLower = digitChar d := by decide

theorem digitChar_inj {d d' : Fin 16} (h : digitChar d = digitChar d') : d = d' := by
  have same := digitOf_digitChar d
  rw [h, digitOf_digitChar] at same
  exact (Option.some.inj same).symm

theorem toLower_of_digitOf {c : Char} {d : Fin 16} (h : digitOf c = some d) :
    c.toLower = digitChar d := by
  have found := List.find?_some h
  simp only [Bool.or_eq_true, beq_iff_eq] at found
  rcases found with rfl | rfl
  · exact (toLower_digitChar d).1
  · exact (toLower_digitChar d).2

theorem toLower_of_not_upper {c : Char} (h : ¬ (c.val ≥ 'A'.val ∧ c.val ≤ 'Z'.val)) :
    c.toLower = c := by
  delta Char.toLower
  exact dif_neg h

theorem toLower_toLower (c : Char) : c.toLower.toLower = c.toLower := by
  apply toLower_of_not_upper
  by_cases upper : c.val ≥ 'A'.val ∧ c.val ≤ 'Z'.val
  · have lowered : c.toLower.val = c.val + ('a'.val - 'A'.val) := by
      delta Char.toLower
      rw [dif_pos upper]
    have shift : ('a'.val - 'A'.val).toNat = 32 := rfl
    have first : 'A'.val.toNat = 65 := rfl
    have last : 'Z'.val.toNat = 90 := rfl
    have low := UInt32.le_iff_toNat_le.1 upper.1
    have high := UInt32.le_iff_toNat_le.1 upper.2
    rw [lowered]
    rintro ⟨-, le⟩
    have bound := UInt32.le_iff_toNat_le.1 le
    rw [UInt32.toNat_add, shift] at bound
    omega
  · rwa [toLower_of_not_upper upper]

theorem lower_idem (t : Text) : lower (lower t) = lower t := by
  unfold lower
  rw [List.map_map]
  exact List.map_congr_left fun c _ => toLower_toLower c

/-- The digits of a text, and in lower case the text of its digits. -/
theorem exists_digits {t : Text} (h : isHex t = true) :
    ∃ ds : Digits, t.mapM digitOf = some ds ∧ lower t = render ds := by
  induction t with
  | nil => exact ⟨[], rfl, rfl⟩
  | cons c t ih =>
    simp only [isHex, List.all_cons, Bool.and_eq_true] at h
    obtain ⟨d, hd⟩ := Option.isSome_iff_exists.1 h.1
    obtain ⟨ds, read, hds⟩ := ih h.2
    refine ⟨d :: ds, ?_, ?_⟩
    · rw [List.mapM_cons, hd, read]
      rfl
    · simp only [lower, render, List.map_cons] at hds ⊢
      rw [toLower_of_digitOf hd, hds]

theorem lower_render (ds : Digits) : lower (render ds) = render ds := by
  unfold lower render
  rw [List.map_map]
  refine List.map_congr_left fun d _ => ?_
  exact (toLower_digitChar d).1

theorem isHex_render (ds : Digits) : isHex (render ds) = true := by
  simp only [isHex, render, List.all_map, List.all_eq_true]
  intro d _
  show (digitOf (digitChar d)).isSome = true
  rw [digitOf_digitChar]
  rfl

@[simp] theorem length_render (ds : Digits) : (render ds).length = ds.length :=
  List.length_map _

@[simp] theorem length_lower (t : Text) : (lower t).length = t.length := List.length_map _

theorem render_inj {ds ds' : Digits} (h : render ds = render ds') : ds = ds' :=
  List.map_injective_iff.2 (fun _ _ => digitChar_inj) h

/-! ### Numbers -/

def number (ds : Digits) : Nat := ds.foldl (fun n d => n * 16 + d.val) 0

/-- `BigInt` of a text behind `0x`. -/
def readHex (t : Text) : Option Nat := (t.mapM digitOf).map number

theorem mapM_digitOf (ds : Digits) : (render ds).mapM digitOf = some ds := by
  induction ds with
  | nil => rfl
  | cons d ds ih =>
    simp only [render, List.map_cons, List.mapM_cons] at ih ⊢
    rw [digitOf_digitChar, ih]
    rfl

theorem readHex_render (ds : Digits) : readHex (render ds) = some (number ds) := by
  rw [readHex, mapM_digitOf]
  rfl

theorem number_concat (ds : Digits) (d : Fin 16) : number (ds ++ [d]) = number ds * 16 + d := by
  rw [number, List.foldl_append]
  rfl

theorem number_zeros_append (n : Nat) (ds : Digits) :
    number (List.replicate n 0 ++ ds) = number ds := by
  induction n with
  | zero => rfl
  | succ n ih => exact ih

theorem number_lt (ds : Digits) : number ds < 16 ^ ds.length := by
  induction ds using List.reverseRecOn with
  | nil => exact Nat.one_pos
  | append_singleton ds d ih =>
    rw [number_concat, List.length_append, List.length_singleton, Nat.pow_succ]
    omega

/-- Of as many digits there is one sequence for a number. -/
theorem number_inj {ds ds' : Digits} (length : ds.length = ds'.length)
    (h : number ds = number ds') : ds = ds' := by
  induction ds using List.reverseRecOn generalizing ds' with
  | nil => exact (List.length_eq_zero_iff.1 length.symm).symm
  | append_singleton ds d ih =>
    rcases List.eq_nil_or_concat' ds' with rfl | ⟨es, e, rfl⟩
    · simp at length
    · rw [number_concat, number_concat] at h
      have last : d = e := by
        apply Fin.ext
        omega
      have front : number ds = number es := by omega
      rw [ih (by simpa using length) front, last]

/-! ### Slices -/

/-- `slice` of a text, from one index to another. -/
def slice {α : Type} (t : List α) (start stop : Nat) : List α := (t.take stop).drop start

theorem slice_render (ds : Digits) (start stop : Nat) :
    slice (render ds) start stop = render (slice ds start stop) := by
  simp only [slice, render, List.map_take, List.map_drop]

/-- A slice behind what is in front. -/
theorem slice_append {α : Type} (front t : List α) (start stop : Nat) :
    slice (front ++ t) (front.length + start) (front.length + stop) = slice t start stop := by
  simp only [slice, List.take_length_add_append, List.drop_length_add_append]

/-- The slice that is in front of the rest. -/
theorem slice_front {α : Type} (t rest : List α) (n : Nat) (h : t.length = n) :
    slice (t ++ rest) 0 n = t := by
  subst h
  simp [slice]

/-- Pieces behind one another: the slice between the end of the ones before and its own end is
the piece. -/
theorem slice_flatten {α : Type} {xs : List (List α)} {x : List α} {i : Nat} (h : xs[i]? = some x)
    (rest : List α) :
    slice (xs.flatten ++ rest) ((xs.map List.length).take i).sum
      ((xs.map List.length).take (i + 1)).sum = x := by
  induction xs generalizing i with
  | nil => simp at h
  | cons y ys ih =>
    rw [List.flatten_cons, List.append_assoc]
    cases i with
    | zero =>
      obtain rfl := Option.some.inj h
      exact slice_front y _ _ (by simp)
    | succ i =>
      simp only [List.map_cons, List.take_succ_cons, List.sum_cons]
      rw [slice_append]
      exact ih h

/-- `padStart`. -/
def padStart (t : Text) (length : Nat) (c : Char) : Text :=
  List.replicate (length - t.length) c ++ t

theorem padStart_render (ds : Digits) (length : Nat) :
    padStart (render ds) length '0' = render (List.replicate (length - ds.length) 0 ++ ds) := by
  rw [padStart, length_render, render, render, List.map_append, List.map_replicate]
  rfl

/-! ### Numbers as texts -/

theorem digitChar_val : ∀ d : Fin 16, Nat.digitChar d.val = digitChar d := by decide

/-- The digits of a number. -/
theorem exists_toDigits (n : Nat) :
    ∃ ds : Digits, Nat.toDigits 16 n = render ds ∧ number ds = n := by
  induction n using Nat.strongRecOn with
  | ind n ih =>
    rcases Nat.lt_or_ge n 16 with small | large
    · refine ⟨[⟨n, small⟩], ?_, ?_⟩
      · rw [Nat.toDigits_of_lt_base small]
        exact congrArg (· :: []) (digitChar_val ⟨n, small⟩)
      · exact Nat.zero_add n
    · obtain ⟨ds, text, value⟩ := ih (n / 16) (by omega)
      have last : n % 16 < 16 := Nat.mod_lt n (by decide)
      refine ⟨ds ++ [⟨n % 16, last⟩], ?_, ?_⟩
      · rw [Nat.toDigits_of_base_le (by decide) large, text, render, render, List.map_append]
        exact congrArg (fun c => ds.map digitChar ++ [c]) (digitChar_val ⟨n % 16, last⟩)
      · rw [number_concat, value]
        show n / 16 * 16 + n % 16 = n
        omega

theorem readHex_toDigits (n : Nat) : readHex (Nat.toDigits 16 n) = some n := by
  obtain ⟨ds, text, value⟩ := exists_toDigits n
  rw [text, readHex_render, value]

/-- A number filled up to a length. -/
theorem exists_padStart {n length : Nat} (pos : 0 < length) (h : n < 16 ^ length) :
    ∃ ds : Digits, padStart (Nat.toDigits 16 n) length '0' = render ds ∧ ds.length = length ∧
      number ds = n := by
  obtain ⟨ds, text, value⟩ := exists_toDigits n
  have short : ds.length ≤ length := by
    have := (Nat.length_toDigits_le_iff (by decide : 1 < 16) pos).2 h
    rwa [text, length_render] at this
  refine ⟨List.replicate (length - ds.length) 0 ++ ds, ?_, ?_, ?_⟩
  · rw [text, padStart_render]
  · rw [List.length_append, List.length_replicate, Nat.sub_add_cancel short]
  · rw [number_zeros_append, value]

/-- Digits are those of their number, filled up to their length. -/
theorem padStart_number {ds : Digits} (pos : 0 < ds.length) :
    padStart (Nat.toDigits 16 (number ds)) ds.length '0' = render ds := by
  obtain ⟨es, text, length, value⟩ := exists_padStart pos (number_lt ds)
  rw [text, number_inj length value]

end ParmeliaLinks.HexText
