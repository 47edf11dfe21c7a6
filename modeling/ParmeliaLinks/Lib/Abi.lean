/-
ParmeliaLinks/Lib/Abi.lean

Numbers written into strings of bytes, the highest byte first, as contracts and
their clients exchange them.  The arguments of a call are written in words of 32
bytes (`word`), or one behind the other in as many bytes as their types have
(`tight`).

A client has numbers without a width: it refuses a number that its type does not
have (`encodeWord`, `encodeTight`), and otherwise writes what the contract writes.

Both ways of writing can be read back, so equal strings come from equal values
(`word_inj`, `tight_inj`, `flatten_inj`).
-/
import Mathlib.Algebra.Group.Int.Defs
import Mathlib.Algebra.Group.Nat.Defs
import Mathlib.Data.List.Induction

namespace ParmeliaLinks

abbrev Bytes := List UInt8

/-! ### Numbers and bytes -/

/-- The last `n` bytes of a number, the highest one first. -/
def bigEndian : Nat → Nat → Bytes
  | 0, _ => []
  | n + 1, value => bigEndian n (value / 256) ++ [UInt8.ofNat value]

/-- The number that is written in a string. -/
def ofBigEndian (bytes : Bytes) : Nat :=
  bytes.foldl (fun value byte => value * 256 + byte.toNat) 0

@[simp] theorem length_bigEndian (n value : Nat) : (bigEndian n value).length = n := by
  induction n generalizing value with
  | zero => rfl
  | succ n ih => rw [bigEndian, List.length_append, ih, List.length_singleton]

theorem ofBigEndian_append_singleton (bytes : Bytes) (byte : UInt8) :
    ofBigEndian (bytes ++ [byte]) = ofBigEndian bytes * 256 + byte.toNat := by
  unfold ofBigEndian
  rw [List.foldl_append, List.foldl_cons, List.foldl_nil]

/-- What was written is read back. -/
theorem ofBigEndian_bigEndian {n value : Nat} (h : value < 256 ^ n) :
    ofBigEndian (bigEndian n value) = value := by
  induction n generalizing value with
  | zero =>
    have : value = 0 := by simpa using h
    subst this
    rfl
  | succ n ih =>
    have front : value / 256 < 256 ^ n := by
      rw [Nat.div_lt_iff_lt_mul (by decide), ← Nat.pow_succ]
      exact h
    have byte : (UInt8.ofNat value).toNat = value % 256 := UInt8.toNat_ofNat'
    rw [bigEndian, ofBigEndian_append_singleton, ih front, byte]
    omega

theorem bigEndian_inj {n x y : Nat} (hx : x < 256 ^ n) (hy : y < 256 ^ n)
    (h : bigEndian n x = bigEndian n y) : x = y := by
  rw [← ofBigEndian_bigEndian hx, h, ofBigEndian_bigEndian hy]

theorem ofBigEndian_lt (bytes : Bytes) : ofBigEndian bytes < 256 ^ bytes.length := by
  induction bytes using List.reverseRecOn with
  | nil => exact Nat.one_pos
  | append_singleton bytes byte ih =>
    rw [ofBigEndian_append_singleton, List.length_append, List.length_singleton, Nat.pow_succ]
    have small : byte.toNat < 256 := byte.toNat_lt
    omega

/-- What is read is written back. -/
theorem bigEndian_ofBigEndian (bytes : Bytes) :
    bigEndian bytes.length (ofBigEndian bytes) = bytes := by
  induction bytes using List.reverseRecOn with
  | nil => rfl
  | append_singleton bytes byte ih =>
    have small : byte.toNat < 256 := byte.toNat_lt
    have front : (ofBigEndian bytes * 256 + byte.toNat) / 256 = ofBigEndian bytes := by omega
    have last : UInt8.ofNat (ofBigEndian bytes * 256 + byte.toNat) = byte := by
      apply UInt8.toNat.inj
      rw [UInt8.toNat_ofNat']
      omega
    rw [ofBigEndian_append_singleton, List.length_append, List.length_singleton, bigEndian, front,
      last, ih]

/-! ### Values of a width -/

section Width

variable {w : Nat}

/-- A value in a word of 32 bytes. -/
def word (x : BitVec w) : Bytes := bigEndian 32 x.toNat

/-- A value in the bytes that its type has. -/
def tight (x : BitVec w) : Bytes := bigEndian (w / 8) x.toNat

/-- The value of a type that stands in a string. -/
def readTight (w : Nat) (bytes : Bytes) : BitVec w := BitVec.ofNat w (ofBigEndian bytes)

@[simp] theorem length_word (x : BitVec w) : (word x).length = 32 := length_bigEndian 32 _

@[simp] theorem length_tight (x : BitVec w) : (tight x).length = w / 8 := length_bigEndian _ _

theorem pow_bytes (h : 8 ∣ w) : 256 ^ (w / 8) = 2 ^ w := by
  obtain ⟨n, rfl⟩ := h
  rw [Nat.mul_div_cancel_left n (by decide), Nat.pow_mul]

theorem word_inj (h : w ≤ 256) {x y : BitVec w} (same : word x = word y) : x = y := by
  have small : ∀ z : BitVec w, z.toNat < 256 ^ 32 := by
    intro z
    calc z.toNat < 2 ^ w := z.isLt
      _ ≤ 2 ^ 256 := Nat.pow_le_pow_right (by decide) h
      _ = 256 ^ 32 := by decide
  exact BitVec.eq_of_toNat_eq (bigEndian_inj (small x) (small y) same)

theorem readTight_tight (h : 8 ∣ w) (x : BitVec w) : readTight w (tight x) = x := by
  have small : x.toNat < 256 ^ (w / 8) := by
    rw [pow_bytes h]
    exact x.isLt
  unfold readTight tight
  rw [ofBigEndian_bigEndian small]
  exact BitVec.ofNat_toNat w x ▸ BitVec.setWidth_eq x

theorem tight_inj (h : 8 ∣ w) {x y : BitVec w} (same : tight x = tight y) : x = y := by
  rw [← readTight_tight h x, same, readTight_tight h y]

theorem tight_readTight (h : 8 ∣ w) {bytes : Bytes} (length : bytes.length = w / 8) :
    tight (readTight w bytes) = bytes := by
  have small : ofBigEndian bytes < 2 ^ w := by
    rw [← pow_bytes h, ← length]
    exact ofBigEndian_lt bytes
  unfold tight readTight
  rw [BitVec.toNat_ofNat, Nat.mod_eq_of_lt small, ← length]
  exact bigEndian_ofBigEndian bytes

theorem readTight_inj (h : 8 ∣ w) {xs ys : Bytes} (hx : xs.length = w / 8)
    (hy : ys.length = w / 8) (same : readTight w xs = readTight w ys) : xs = ys := by
  rw [← tight_readTight h hx, same, tight_readTight h hy]

end Width

/-! ### Words behind one another -/

/-- Pieces of one length can be told apart. -/
theorem flatten_inj {n : Nat} {xs ys : List Bytes} (hx : ∀ x ∈ xs, x.length = n)
    (hy : ∀ y ∈ ys, y.length = n) (count : xs.length = ys.length)
    (same : xs.flatten = ys.flatten) : xs = ys := by
  induction xs generalizing ys with
  | nil =>
    cases ys with
    | nil => rfl
    | cons y ys => cases count
  | cons x xs ih =>
    cases ys with
    | nil => cases count
    | cons y ys =>
      have lengths : x.length = y.length :=
        (hx x List.mem_cons_self).trans (hy y List.mem_cons_self).symm
      obtain ⟨first, rest⟩ := List.append_inj same lengths
      rw [first, ih (fun z hz => hx z (List.mem_cons_of_mem x hz))
        (fun z hz => hy z (List.mem_cons_of_mem y hz)) (Nat.succ.inj count) rest]

/-! ### Clients -/

/-- Why a client refuses to write a value. -/
inductive AbiError
  | integerOutOfRange (value : Int)
  | bytesSizeMismatch (size : Nat)
  deriving DecidableEq

def checkRange (bits : Nat) (value : Int) : Except AbiError Nat :=
  if 0 ≤ value ∧ value < 2 ^ bits then .ok value.toNat else .error (.integerOutOfRange value)

/-- An unsigned number in a word. -/
def encodeWord (bits : Nat) (value : Int) : Except AbiError Bytes :=
  (checkRange bits value).map (bigEndian 32)

/-- An unsigned number in the bytes of its type. -/
def encodeTight (bits : Nat) (value : Int) : Except AbiError Bytes :=
  (checkRange bits value).map (bigEndian (bits / 8))

/-- A string that has to fill a word. -/
def encodeBytes32 (bytes : Bytes) : Except AbiError Bytes :=
  if bytes.length = 32 then .ok bytes else .error (.bytesSizeMismatch bytes.length)

/-- A value of a type fits into the types that are at least as wide. -/
theorem checkRange_toNat {w bits : Nat} (wide : w ≤ bits) (x : BitVec w) :
    checkRange bits x.toNat = .ok x.toNat := by
  have below : x.toNat < 2 ^ bits := Nat.lt_of_lt_of_le x.isLt (Nat.pow_le_pow_right (by decide) wide)
  have inside : (0 : Int) ≤ x.toNat ∧ (x.toNat : Int) < 2 ^ bits :=
    ⟨Int.natCast_nonneg _, by exact_mod_cast below⟩
  rw [checkRange, if_pos inside, Int.toNat_natCast]

theorem encodeWord_toNat {w bits : Nat} (wide : w ≤ bits) (x : BitVec w) :
    encodeWord bits x.toNat = .ok (word x) := by
  rw [encodeWord, checkRange_toNat wide]
  rfl

theorem encodeTight_toNat {w : Nat} (x : BitVec w) : encodeTight w x.toNat = .ok (tight x) := by
  rw [encodeTight, checkRange_toNat (Nat.le_refl w)]
  rfl

/-- Arguments that are all written are written one after the other. -/
theorem mapM_ok (words : List Bytes) :
    (words.map Except.ok).mapM id = (.ok words : Except AbiError (List Bytes)) := by
  induction words with
  | nil => rfl
  | cons first words ih =>
    rw [List.map_cons, List.mapM_cons, ih]
    rfl

@[simp] theorem encodeBytes32_word {w : Nat} (x : BitVec w) :
    encodeBytes32 (word x) = .ok (word x) := if_pos (length_word x)

end ParmeliaLinks
