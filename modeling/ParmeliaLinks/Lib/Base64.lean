/-
ParmeliaLinks/Lib/Base64.lean

Base64.  `encode` writes three bytes as four digits and fills the last group with `=`;
`decode` is the forgiving reading of the web platform, which leaves out white space, takes up to
two `=` off a text of full groups, and drops the bits that are left over.

Main result: what was written is read back (`decode_encode`), also when the filling is left out
and put back by the reader (`decode_padded`).
-/
import ParmeliaLinks.Lib.SqlText

namespace ParmeliaLinks.Base64

abbrev Byte := Fin 256

/-! ### Digits -/

def alphabet : Text :=
  "ABCDEFGHIJKLMNOPQRSTUVWXYZabcdefghijklmnopqrstuvwxyz0123456789+/".toList

def digit (n : Nat) : Char := alphabet.getD n 'A'

def value (c : Char) : Option Nat := alphabet.findIdx? (· == c)

/-- The six-bit groups of a text of bytes. -/
def digits : List Byte → List Nat
  | [] => []
  | [a] => [a / 4, a % 4 * 16]
  | [a, b] => [a / 4, a % 4 * 16 + b / 16, b % 16 * 4]
  | a :: b :: c :: rest =>
    (a / 4 : Nat) :: (a % 4 * 16 + b / 16) :: (b % 16 * 4 + c / 64) :: (c % 64) :: digits rest

/-- The bytes of six-bit groups; one group alone is no byte. -/
def bytes : List Nat → Option (List Byte)
  | [] => some []
  | [_] => none
  | [a, b] => some [Fin.ofNat 256 (a * 4 + b / 16)]
  | [a, b, c] => some [Fin.ofNat 256 (a * 4 + b / 16), Fin.ofNat 256 (b % 16 * 16 + c / 4)]
  | a :: b :: c :: d :: rest => (bytes rest).map fun bs =>
    Fin.ofNat 256 (a * 4 + b / 16) :: Fin.ofNat 256 (b % 16 * 16 + c / 4) ::
      Fin.ofNat 256 (c % 4 * 64 + d) :: bs

/-! ### Texts -/

/-- A text filled up to full groups of four. -/
def padded (t : Text) : Text := t ++ List.replicate ((4 - t.length % 4) % 4) '='

def unpaddedOne (t : Text) : Text := if t.getLast? = some '=' then t.dropLast else t

/-- Up to two `=` taken off a text of full groups. -/
def unpadded (t : Text) : Text := if t.length % 4 = 0 then unpaddedOne (unpaddedOne t) else t

def asciiWhitespace (c : Char) : Bool :=
  c == ' ' || c == '\t' || c == '\n' || c == '\x0c' || c == '\r'

/-- The text of the digits alone. -/
def unfilled (bs : List Byte) : Text := (digits bs).map digit

def encode (bs : List Byte) : Text := padded (unfilled bs)

def decode (t : Text) : Option (List Byte) :=
  ((unpadded (t.filter (!asciiWhitespace ·))).mapM value).bind bytes

example : String.ofList (encode [77, 97]) = "TWE=" := by decide

/-! ### What was written is read back -/

theorem digits_lt (bs : List Byte) : ∀ n ∈ digits bs, n < 64 := by
  induction bs using digits.induct with
  | case1 => simp [digits]
  | case2 a =>
    simp only [digits, List.forall_mem_cons]
    exact ⟨by omega, by omega, by simp⟩
  | case3 a b =>
    simp only [digits, List.forall_mem_cons]
    exact ⟨by omega, by omega, by omega, by simp⟩
  | case4 a b c rest ih =>
    simp only [digits, List.forall_mem_cons]
    exact ⟨by omega, by omega, by omega, by omega, ih⟩

/-- No group of digits is alone. -/
theorem length_digits (bs : List Byte) : (digits bs).length % 4 ≠ 1 := by
  induction bs using digits.induct with
  | case1 => simp [digits]
  | case2 a => simp [digits]
  | case3 a b => simp [digits]
  | case4 a b c rest ih =>
    simp only [digits, List.length_cons]
    omega

/-- Three bytes take four digits. -/
theorem length_digits_le (bs : List Byte) : 3 * (digits bs).length ≤ 4 * bs.length + 2 := by
  induction bs using digits.induct with
  | case1 => simp [digits]
  | case2 a => simp [digits]
  | case3 a b => simp [digits]
  | case4 a b c rest ih =>
    simp only [digits, List.length_cons]
    omega

theorem bytes_digits (bs : List Byte) : bytes (digits bs) = some bs := by
  induction bs using digits.induct with
  | case1 => rfl
  | case2 a =>
    have first : Fin.ofNat 256 (a / 4 * 4 + a % 4 * 16 / 16) = a := by
      apply Fin.ext
      simp only [Fin.val_ofNat]
      omega
    simp only [digits, bytes, first]
  | case3 a b =>
    have first : Fin.ofNat 256 (a / 4 * 4 + (a % 4 * 16 + b / 16) / 16) = a := by
      apply Fin.ext
      simp only [Fin.val_ofNat]
      omega
    have second : Fin.ofNat 256 ((a % 4 * 16 + b / 16) % 16 * 16 + b % 16 * 4 / 4) = b := by
      apply Fin.ext
      simp only [Fin.val_ofNat]
      omega
    simp only [digits, bytes, first, second]
  | case4 a b c rest ih =>
    have first : Fin.ofNat 256 (a / 4 * 4 + (a % 4 * 16 + b / 16) / 16) = a := by
      apply Fin.ext
      simp only [Fin.val_ofNat]
      omega
    have second : Fin.ofNat 256
        ((a % 4 * 16 + b / 16) % 16 * 16 + (b % 16 * 4 + c / 64) / 4) = b := by
      apply Fin.ext
      simp only [Fin.val_ofNat]
      omega
    have third : Fin.ofNat 256 ((b % 16 * 4 + c / 64) % 4 * 64 + c % 64) = c := by
      apply Fin.ext
      simp only [Fin.val_ofNat]
      omega
    simp only [digits, bytes, ih, Option.map_some, first, second, third]

set_option maxRecDepth 4000 in
theorem value_digit : ∀ n < 64, value (digit n) = some n := by decide

set_option maxRecDepth 4000 in
/-- A digit is neither filling nor white space. -/
theorem digit_plain : ∀ n < 64, digit n ≠ '=' ∧ asciiWhitespace (digit n) = false := by decide

theorem mapM_value_digit {ns : List Nat} (h : ∀ n ∈ ns, n < 64) :
    (ns.map digit).mapM value = some ns := by
  induction ns with
  | nil => rfl
  | cons n ns ih =>
    have rest := ih fun m hm => h m (List.mem_cons_of_mem n hm)
    rw [List.map_cons, List.mapM_cons, value_digit n (h n List.mem_cons_self), rest]
    rfl

/-! ### Filling -/

theorem unpaddedOne_concat (t : Text) : unpaddedOne (t ++ ['=']) = t := by
  simp [unpaddedOne]

theorem unpaddedOne_of_not_mem {t : Text} (h : '=' ∉ t) : unpaddedOne t = t := by
  unfold unpaddedOne
  refine if_neg fun last => h ?_
  exact List.mem_of_getLast? last

theorem length_padded (t : Text) : (padded t).length % 4 = 0 := by
  simp only [padded, List.length_append, List.length_replicate]
  omega

/-- What was filled up is taken off again. -/
theorem unpadded_padded {t : Text} (plain : '=' ∉ t) (groups : t.length % 4 ≠ 1) :
    unpadded (padded t) = t := by
  rw [unpadded, if_pos (length_padded t), padded]
  have cases : t.length % 4 = 0 ∨ t.length % 4 = 2 ∨ t.length % 4 = 3 := by omega
  rcases cases with length | length | length
  · have none : List.replicate ((4 - t.length % 4) % 4) '=' = [] := by rw [length]; rfl
    rw [none, List.append_nil, unpaddedOne_of_not_mem plain, unpaddedOne_of_not_mem plain]
  · have two : List.replicate ((4 - t.length % 4) % 4) '=' = ['='] ++ ['='] := by rw [length]; rfl
    rw [two, ← List.append_assoc, unpaddedOne_concat, unpaddedOne_concat]
  · have one : List.replicate ((4 - t.length % 4) % 4) '=' = ['='] := by rw [length]; rfl
    rw [one, unpaddedOne_concat, unpaddedOne_of_not_mem plain]

variable (bs : List Byte)

theorem mem_unfilled {c : Char} (h : c ∈ unfilled bs) : c ≠ '=' ∧ asciiWhitespace c = false := by
  obtain ⟨n, hn, rfl⟩ := List.mem_map.1 h
  exact digit_plain n (digits_lt bs n hn)

/-- The digits alone, filled up by the reader. -/
theorem decode_padded : decode (padded (unfilled bs)) = some bs := by
  have plain : '=' ∉ unfilled bs := fun h => (mem_unfilled bs h).1 rfl
  have kept : (padded (unfilled bs)).filter (!asciiWhitespace ·) = padded (unfilled bs) := by
    refine List.filter_eq_self.2 fun c hc => ?_
    rcases List.mem_append.1 hc with hc | hc
    · rw [(mem_unfilled bs hc).2]
      rfl
    · rw [List.eq_of_mem_replicate hc]
      rfl
  have groups : (unfilled bs).length % 4 ≠ 1 := by
    rw [unfilled, List.length_map]
    exact length_digits bs
  rw [decode, kept, unpadded_padded plain groups, unfilled, mapM_value_digit (digits_lt bs)]
  exact bytes_digits bs

theorem decode_encode : decode (encode bs) = some bs := decode_padded bs

/-- What is written consists of digits and filling. -/
theorem mem_encode {c : Char} (h : c ∈ encode bs) : c = '=' ∨ ∃ n < 64, c = digit n := by
  rcases List.mem_append.1 h with h | h
  · obtain ⟨n, hn, rfl⟩ := List.mem_map.1 h
    exact .inr ⟨n, digits_lt bs n hn, rfl⟩
  · exact .inl (List.eq_of_mem_replicate h)

/-- Only the empty text has no digits. -/
theorem unfilled_ne_nil (h : bs ≠ []) : unfilled bs ≠ [] := by
  intro empty
  have none := List.map_eq_nil_iff.1 empty
  have read := bytes_digits bs
  rw [none] at read
  exact h (Option.some.inj read).symm

theorem encode_ne_nil (h : bs ≠ []) : encode bs ≠ [] := by
  intro empty
  exact unfilled_ne_nil bs h (List.append_eq_nil_iff.1 empty).1

end ParmeliaLinks.Base64
