/-
ParmeliaLinks/Server/UserOperationRpc.lean

Two forms of a user operation.  The entry point takes it packed: the factory in front of its data,
two gas quantities in one word, the paymaster with its gas limits in front of its data.  A bundler
takes it with a field for each of them.

Main result: the forms are inverse to each other (`packed_rpc_inverse`).  An operation in RPC form
comes back as it was; a packed one comes back with the same bytes, and with the same text if its
digits are in lower case.
-/
import ParmeliaLinks.Lib.Contract
import ParmeliaLinks.Lib.HexText

namespace ParmeliaLinks.Server.UserOperationRpc

open HexText

/-! ### The two forms -/

inductive ErrorCode
  | paymentFailed
  | paymasterRejected
  deriving DecidableEq

/-- `UserOperationTransportError`, as it is thrown here. -/
structure TransportError where
  message : String
  errorCode : ErrorCode
  retryable : Bool
  deriving DecidableEq

structure PackedUserOp where
  sender : Text
  nonce : Nat
  initCode : Text
  callData : Text
  accountGasLimits : Text
  preVerificationGas : Nat
  gasFees : Text
  paymasterAndData : Text
  signature : Text
  deriving DecidableEq

structure FactoryFields where
  factory : Option Text
  factoryData : Option Text
  deriving DecidableEq

structure PaymasterFields where
  paymaster : Option Text
  paymasterData : Option Text
  paymasterVerificationGasLimit : Option Text
  paymasterPostOpGasLimit : Option Text
  deriving DecidableEq

structure RpcUserOperation extends FactoryFields, PaymasterFields where
  sender : Text
  nonce : Text
  callData : Text
  callGasLimit : Text
  verificationGasLimit : Text
  preVerificationGas : Text
  maxFeePerGas : Text
  maxPriorityFeePerGas : Text
  signature : Text
  deriving DecidableEq

/-! ### From packed to RPC -/

/-- The text of a byte string with the given digits. -/
def hex (digits : Text) : Text := '0' :: 'x' :: digits

/-- `/^0x[0-9a-fA-F]+$/u`. -/
def isHexText : Text → Bool
  | '0' :: 'x' :: digits => !digits.isEmpty && isHex digits
  | _ => false

/-- `BigInt` of `0x` and digits that were checked. -/
def bigInt (digits : Text) : Nat := (readHex digits).getD 0

def toHex (n : Nat) : Text := hex (Nat.toDigits 16 n)

def packedPair (value : Text) (label : String) : Except TransportError (Nat × Nat) :=
  if isHexText value ∧ value.length = 66 then
    .ok (bigInt (slice value 2 34), bigInt (slice value 34 66))
  else .error ⟨label ++ " must contain two packed uint128 values", .paymentFailed, false⟩

def splitInitCode (value : Text) : Except TransportError FactoryFields :=
  if value = hex [] then .ok { factory := none, factoryData := none }
  else if isHexText value = false ∨ value.length < 42 then
    .error ⟨"initCode is malformed", .paymentFailed, false⟩
  else .ok { factory := some (value.take 42), factoryData := some (hex (value.drop 42)) }

def splitPaymasterAndData (value : Text) : Except TransportError PaymasterFields :=
  if value = hex [] then
    .ok { paymaster := none, paymasterVerificationGasLimit := none
          paymasterPostOpGasLimit := none, paymasterData := none }
  else if isHexText value = false ∨ value.length < 106 then
    .error ⟨"paymasterAndData is malformed", .paymasterRejected, false⟩
  else
    .ok { paymaster := some (value.take 42)
          paymasterVerificationGasLimit := some (toHex (bigInt (slice value 42 74)))
          paymasterPostOpGasLimit := some (toHex (bigInt (slice value 74 106)))
          paymasterData := some (hex (value.drop 106)) }

def packedUserOperationToRpc (userOp : PackedUserOp) (signatureOverride : Option Text) :
    Except TransportError RpcUserOperation := do
  let gasLimits ← packedPair userOp.accountGasLimits "accountGasLimits"
  let fees ← packedPair userOp.gasFees "gasFees"
  let factory ← splitInitCode userOp.initCode
  let paymaster ← splitPaymasterAndData userOp.paymasterAndData
  return {
    factory with
    paymaster := paymaster.paymaster
    paymasterData := paymaster.paymasterData
    paymasterVerificationGasLimit := paymaster.paymasterVerificationGasLimit
    paymasterPostOpGasLimit := paymaster.paymasterPostOpGasLimit
    sender := userOp.sender
    nonce := toHex userOp.nonce
    callData := userOp.callData
    callGasLimit := toHex gasLimits.2
    verificationGasLimit := toHex gasLimits.1
    preVerificationGas := toHex userOp.preVerificationGas
    maxFeePerGas := toHex fees.2
    maxPriorityFeePerGas := toHex fees.1
    signature := signatureOverride.getD userOp.signature }

/-! ### From RPC to packed -/

/-- `concat` of byte strings. -/
def concat (parts : List Text) : Text := hex (parts.map (List.drop 2)).flatten

/-- `pad` to a number of bytes. -/
def pad (value : Text) (size : Nat) : Text := hex (padStart (value.drop 2) (size * 2) '0')

def packGasLimits (verificationGasLimit callGasLimit : Nat) : Text :=
  concat [pad (toHex verificationGasLimit) 16, pad (toHex callGasLimit) 16]

/-- `BigInt` of a quantity. -/
def quantity (value : Text) : Nat := bigInt (value.drop 2)

/-- `0x` without a factory, else the factory and its data. -/
def packInitCode (fields : FactoryFields) : Text :=
  match fields.factory with
  | none => hex []
  | some factory => concat [factory, fields.factoryData.getD (hex [])]

/-- `0x` without a paymaster, else the paymaster, its two gas limits and its data. -/
def packPaymasterAndData (fields : PaymasterFields) : Text :=
  match fields.paymaster with
  | none => hex []
  | some paymaster => concat [paymaster,
      pad (toHex (quantity (fields.paymasterVerificationGasLimit.getD (toHex 0)))) 16,
      pad (toHex (quantity (fields.paymasterPostOpGasLimit.getD (toHex 0)))) 16,
      fields.paymasterData.getD (hex [])]

/-- The operation as the entry point takes it. -/
def pack (r : RpcUserOperation) : PackedUserOp where
  sender := r.sender
  nonce := quantity r.nonce
  initCode := packInitCode r.toFactoryFields
  callData := r.callData
  accountGasLimits := packGasLimits (quantity r.verificationGasLimit) (quantity r.callGasLimit)
  preVerificationGas := quantity r.preVerificationGas
  gasFees := packGasLimits (quantity r.maxPriorityFeePerGas) (quantity r.maxFeePerGas)
  paymasterAndData := packPaymasterAndData r.toPaymasterFields
  signature := r.signature

/-! ### Words of a packed field -/

/-- The 32 digits of a quantity. -/
def word (n : Nat) : Text := padStart (Nat.toDigits 16 n) 32 '0'

theorem quantity_toHex (n : Nat) : quantity (toHex n) = n := by
  show (readHex (Nat.toDigits 16 n)).getD 0 = n
  rw [readHex_toDigits]
  rfl

theorem isHex_append (t u : Text) : isHex (t ++ u) = (isHex t && isHex u) := List.all_append

/-- A quantity of 128 bits is read from its digits. -/
theorem word_reads {n : Nat} (h : n < 2 ^ 128) :
    bigInt (word n) = n ∧ (word n).length = 32 ∧ isHex (word n) = true := by
  obtain ⟨ds, text, length, value⟩ :=
    @exists_padStart n 32 (by decide) (lt_of_lt_of_eq h (by decide))
  rw [word, text]
  refine ⟨?_, by rw [length_render, length], isHex_render ds⟩
  rw [bigInt, readHex_render, value]
  rfl

/-- Digits are written again in lower case. -/
theorem word_bigInt {t : Text} (digits : isHex t = true) (length : t.length = 32) :
    word (bigInt t) = lower t := by
  obtain ⟨ds, read, text⟩ := exists_digits digits
  have value : bigInt t = number ds := by
    rw [bigInt, readHex, read]
    rfl
  have full : ds.length = 32 := by
    rw [← length, ← length_render, ← text, lower, List.length_map]
  rw [value, text, word, ← full]
  exact padStart_number (by omega)

theorem packGasLimits_eq (n m : Nat) : packGasLimits n m = hex (word n ++ word m) := by
  show hex (word n ++ (word m ++ [])) = _
  rw [List.append_nil]

@[simp] theorem length_hex (digits : Text) : (hex digits).length = digits.length + 2 := rfl

@[simp] theorem lower_hex (digits : Text) : lower (hex digits) = hex (lower digits) := rfl

theorem lower_append (t u : Text) : lower (t ++ u) = lower t ++ lower u := List.map_append

theorem lower_lower (t : Text) (digits : isHex t = true) : lower (lower t) = lower t := by
  obtain ⟨ds, -, text⟩ := exists_digits digits
  rw [text, lower_render]

theorem isHexText_hex {digits : Text} (some_ : digits ≠ []) (h : isHex digits = true) :
    isHexText (hex digits) = true := by
  show (!digits.isEmpty && isHex digits) = true
  rw [h, Bool.and_true, List.isEmpty_eq_false_iff.2 some_]
  rfl

theorem exists_of_isHexText {value : Text} (h : isHexText value = true) :
    ∃ digits, value = hex digits ∧ isHex digits = true := by
  unfold isHexText at h
  split at h
  · rename_i digits
    exact ⟨digits, rfl, (Bool.and_eq_true_iff.1 h).2⟩
  · cases h

/-- The digits between two positions. -/
theorem slice_hex (front piece rest : Text) (start stop : Nat) (hs : start = front.length + 2)
    (he : stop = front.length + piece.length + 2) :
    slice (hex (front ++ (piece ++ rest))) start stop = piece := by
  have from_ : start = ('0' :: 'x' :: front).length + 0 := hs
  have upto : stop = ('0' :: 'x' :: front).length + piece.length := by
    rw [he, List.length_cons, List.length_cons]
    omega
  rw [from_, upto]
  exact (slice_append ('0' :: 'x' :: front) (piece ++ rest) 0 piece.length).trans
    (slice_front piece rest _ rfl)

theorem take_hex {front : Text} (rest : Text) {n : Nat} (h : n = front.length + 2) :
    (hex (front ++ rest)).take n = hex front :=
  (List.take_left' h.symm : (hex front ++ rest).take n = hex front)

theorem drop_hex {front : Text} (rest : Text) {n : Nat} (h : n = front.length + 2) :
    (hex (front ++ rest)).drop n = rest :=
  (List.drop_left' h.symm : (hex front ++ rest).drop n = rest)

/-- A text that is long enough has a front of a given length. -/
theorem exists_front {t : Text} {n : Nat} (h : n ≤ t.length) :
    ∃ front rest, t = front ++ rest ∧ front.length = n := by
  refine ⟨t.take n, t.drop n, (List.take_append_drop n t).symm, ?_⟩
  rw [List.length_take, Nat.min_eq_left h]

theorem append_ne_nil_of_length {t : Text} (u : Text) {n : Nat} (h : t.length = n + 1) :
    t ++ u ≠ [] := by
  intro empty
  rw [(List.append_eq_nil_iff.1 empty).1] at h
  cases h

theorem hex_ne_hex_nil {digits : Text} (h : digits ≠ []) : hex digits ≠ hex [] := by
  intro same
  exact h (List.cons.inj (List.cons.inj same).2).2

/-! ### Two gas quantities -/

section

variable {a b : Text}

theorem packedPair_hex (ha : isHex a = true) (hb : isHex b = true) (la : a.length = 32)
    (lb : b.length = 32) (label : String) :
    packedPair (hex (a ++ b)) label = .ok (bigInt a, bigInt b) := by
  have some_ := append_ne_nil_of_length b la
  have digits : isHex (a ++ b) = true := by rw [isHex_append, ha, hb]; rfl
  have length : (hex (a ++ b)).length = 66 := by
    rw [length_hex, List.length_append, la, lb]
  have first := slice_hex [] a b 2 34 rfl (by rw [la]; rfl)
  have second := slice_hex a b [] 34 66 (by rw [la]) (by rw [la, lb])
  rw [List.append_nil] at second
  rw [packedPair, if_pos ⟨isHexText_hex some_ digits, length⟩]
  show Except.ok (bigInt (slice (hex ([] ++ (a ++ b))) 2 34), _) = _
  rw [first, second]

theorem packedPair_packGasLimits {n m : Nat} (hn : n < 2 ^ 128) (hm : m < 2 ^ 128)
    (label : String) : packedPair (packGasLimits n m) label = .ok (n, m) := by
  obtain ⟨readN, lengthN, hexN⟩ := word_reads hn
  obtain ⟨readM, lengthM, hexM⟩ := word_reads hm
  rw [packGasLimits_eq, packedPair_hex hexN hexM lengthN lengthM, readN, readM]

/-- A word of 64 digits is two quantities. -/
theorem packGasLimits_packedPair {value : Text} (digits : isHexText value = true)
    (length : value.length = 66) (label : String) :
    ∃ n m, packedPair value label = .ok (n, m) ∧ packGasLimits n m = lower value := by
  obtain ⟨all, rfl, h⟩ := exists_of_isHexText digits
  rw [length_hex] at length
  obtain ⟨a, b, rfl, la⟩ := @exists_front all 32 (by omega)
  have lb : b.length = 32 := by
    rw [List.length_append] at length
    omega
  rw [isHex_append, Bool.and_eq_true] at h
  refine ⟨_, _, packedPair_hex h.1 h.2 la lb label, ?_⟩
  rw [packGasLimits_eq, word_bigInt h.1 la, word_bigInt h.2 lb, ← lower_append, lower_hex]

end

/-! ### Factory and paymaster -/

def IsAddress (t : Text) : Prop := ∃ digits, t = hex digits ∧ isHex digits = true ∧ digits.length = 40

def IsData (t : Text) : Prop := ∃ digits, t = hex digits ∧ isHex digits = true

def IsQuantity (bits : Nat) (t : Text) : Prop := ∃ n, n < 2 ^ bits ∧ t = toHex n

/-- Neither field, or an address and its data. -/
def FactoryFields.InRange (fields : FactoryFields) : Prop :=
  fields = ⟨none, none⟩ ∨
    ∃ factory data, fields = ⟨some factory, some data⟩ ∧ IsAddress factory ∧ IsData data

/-- None of the fields, or an address, its data and two quantities of 128 bits. -/
def PaymasterFields.InRange (fields : PaymasterFields) : Prop :=
  fields = ⟨none, none, none, none⟩ ∨
    ∃ paymaster data verification postOp,
      fields = ⟨some paymaster, some data, some verification, some postOp⟩ ∧
        IsAddress paymaster ∧ IsData data ∧ IsQuantity 128 verification ∧ IsQuantity 128 postOp

theorem splitInitCode_hex {f d : Text} (hf : isHex f = true) (hd : isHex d = true)
    (length : f.length = 40) :
    splitInitCode (hex (f ++ d)) = .ok { factory := some (hex f), factoryData := some (hex d) } := by
  have some_ := append_ne_nil_of_length d length
  have digits : isHex (f ++ d) = true := by rw [isHex_append, hf, hd]; rfl
  have long : ¬ (hex (f ++ d)).length < 42 := by
    rw [length_hex, List.length_append]
    omega
  have split : 42 = f.length + 2 := by rw [length]
  rw [splitInitCode, if_neg (hex_ne_hex_nil some_), isHexText_hex some_ digits,
    if_neg (by simpa using long), take_hex d split, drop_hex d split]

theorem packInitCode_hex (f d : Text) :
    packInitCode { factory := some (hex f), factoryData := some (hex d) } = hex (f ++ d) := by
  show hex (f ++ (d ++ [])) = _
  rw [List.append_nil]

theorem splitInitCode_pack {fields : FactoryFields} (h : fields.InRange) :
    splitInitCode (packInitCode fields) = .ok fields := by
  rcases h with rfl | ⟨_, _, rfl, ⟨f, rfl, hf, length⟩, ⟨d, rfl, hd⟩⟩
  · rfl
  · rw [packInitCode_hex, splitInitCode_hex hf hd length]

theorem packInitCode_split {value : Text} (digits : isHexText value = true)
    (long : 42 ≤ value.length) :
    ∃ fields, splitInitCode value = .ok fields ∧ packInitCode fields = value := by
  obtain ⟨all, rfl, h⟩ := exists_of_isHexText digits
  rw [length_hex] at long
  obtain ⟨f, d, rfl, length⟩ := @exists_front all 40 (by omega)
  rw [isHex_append, Bool.and_eq_true] at h
  exact ⟨_, splitInitCode_hex h.1 h.2 length, packInitCode_hex f d⟩

/-- The digits of a paymaster, of its two gas limits and of its data. -/
theorem splitPaymasterAndData_hex {p v g d : Text} (hp : isHex p = true) (hv : isHex v = true)
    (hg : isHex g = true) (hd : isHex d = true) (lp : p.length = 40) (lv : v.length = 32)
    (lg : g.length = 32) :
    splitPaymasterAndData (hex (p ++ (v ++ (g ++ d)))) = .ok {
      paymaster := some (hex p)
      paymasterVerificationGasLimit := some (toHex (bigInt v))
      paymasterPostOpGasLimit := some (toHex (bigInt g))
      paymasterData := some (hex d) } := by
  have some_ := append_ne_nil_of_length (v ++ (g ++ d)) lp
  have digits : isHex (p ++ (v ++ (g ++ d))) = true := by
    rw [isHex_append, isHex_append, isHex_append, hp, hv, hg, hd]
    rfl
  have long : ¬ (hex (p ++ (v ++ (g ++ d)))).length < 106 := by
    rw [length_hex, List.length_append, List.length_append, List.length_append]
    omega
  have verification := slice_hex p v (g ++ d) 42 74 (by rw [lp]) (by rw [lp, lv])
  have postOp := slice_hex (p ++ v) g d 74 106 (by rw [List.length_append, lp, lv])
    (by rw [List.length_append, lp, lv, lg])
  have data := @drop_hex (p ++ (v ++ g)) d 106 (by
    rw [List.length_append, List.length_append, lp, lv, lg])
  rw [List.append_assoc] at postOp
  rw [List.append_assoc, List.append_assoc] at data
  rw [splitPaymasterAndData, if_neg (hex_ne_hex_nil some_), isHexText_hex some_ digits,
    if_neg (by simpa using long), take_hex _ (by rw [lp]), verification, postOp, data]

theorem packPaymasterAndData_hex (p d : Text) (n m : Nat) :
    packPaymasterAndData {
      paymaster := some (hex p)
      paymasterVerificationGasLimit := some (toHex n)
      paymasterPostOpGasLimit := some (toHex m)
      paymasterData := some (hex d) } = hex (p ++ (word n ++ (word m ++ d))) := by
  show hex (p ++ (word (quantity (toHex n)) ++ (word (quantity (toHex m)) ++ (d ++ [])))) = _
  rw [quantity_toHex, quantity_toHex, List.append_nil]

theorem splitPaymasterAndData_pack {fields : PaymasterFields} (h : fields.InRange) :
    splitPaymasterAndData (packPaymasterAndData fields) = .ok fields := by
  rcases h with rfl | ⟨_, _, _, _, rfl, ⟨p, rfl, hp, length⟩, ⟨d, rfl, hd⟩, ⟨n, hn, rfl⟩, ⟨m, hm, rfl⟩⟩
  · rfl
  · obtain ⟨readN, lengthN, hexN⟩ := word_reads hn
    obtain ⟨readM, lengthM, hexM⟩ := word_reads hm
    rw [packPaymasterAndData_hex, splitPaymasterAndData_hex hp hexN hexM hd length lengthN lengthM,
      readN, readM]

/-- The text with the digits of its gas limits in lower case. -/
def lowerLimits (value : Text) : Text :=
  value.take 42 ++ (lower (slice value 42 106) ++ value.drop 106)

theorem packPaymasterAndData_split {value : Text} (digits : isHexText value = true)
    (long : 106 ≤ value.length) :
    ∃ fields, splitPaymasterAndData value = .ok fields ∧
      packPaymasterAndData fields = lowerLimits value := by
  obtain ⟨all, rfl, h⟩ := exists_of_isHexText digits
  rw [length_hex] at long
  obtain ⟨p, rest, rfl, lp⟩ := @exists_front all 40 (by omega)
  rw [List.length_append] at long
  obtain ⟨v, rest, rfl, lv⟩ := @exists_front rest 32 (by omega)
  rw [List.length_append] at long
  obtain ⟨g, d, rfl, lg⟩ := @exists_front rest 32 (by omega)
  simp only [isHex_append, Bool.and_eq_true] at h
  obtain ⟨hp, hv, hg, hd⟩ := h
  have limits := slice_hex p (v ++ g) d 42 106 (by rw [lp]) (by rw [List.length_append, lp, lv, lg])
  have data := @drop_hex (p ++ (v ++ g)) d 106 (by
    rw [List.length_append, List.length_append, lp, lv, lg])
  rw [List.append_assoc] at limits
  rw [List.append_assoc, List.append_assoc] at data
  refine ⟨_, splitPaymasterAndData_hex hp hv hg hd lp lv lg, ?_⟩
  rw [packPaymasterAndData_hex, word_bigInt hv lv, word_bigInt hg lg, lowerLimits,
    take_hex _ (by rw [lp]), limits, data, lower_append, List.append_assoc]
  rfl

/-! ### The two conversions -/

/-- An operation in RPC form: its quantities are in range, and its optional fields come in groups. -/
structure RpcUserOperation.InRange (r : RpcUserOperation) : Prop where
  nonce : IsQuantity 256 r.nonce
  callGasLimit : IsQuantity 128 r.callGasLimit
  verificationGasLimit : IsQuantity 128 r.verificationGasLimit
  preVerificationGas : IsQuantity 256 r.preVerificationGas
  maxFeePerGas : IsQuantity 128 r.maxFeePerGas
  maxPriorityFeePerGas : IsQuantity 128 r.maxPriorityFeePerGas
  factory : r.toFactoryFields.InRange
  paymaster : r.toPaymasterFields.InRange

/-- A packed operation whose byte fields are empty or long enough. -/
structure PackedUserOp.WellFormed (p : PackedUserOp) : Prop where
  accountGasLimits : isHexText p.accountGasLimits = true ∧ p.accountGasLimits.length = 66
  gasFees : isHexText p.gasFees = true ∧ p.gasFees.length = 66
  initCode : p.initCode = hex [] ∨ isHexText p.initCode = true ∧ 42 ≤ p.initCode.length
  paymasterAndData : p.paymasterAndData = hex [] ∨
    isHexText p.paymasterAndData = true ∧ 106 ≤ p.paymasterAndData.length

theorem IsQuantity.eq {bits : Nat} {t : Text} (h : IsQuantity bits t) :
    toHex (quantity t) = t ∧ quantity t < 2 ^ bits := by
  obtain ⟨n, lt, rfl⟩ := h
  rw [quantity_toHex]
  exact ⟨rfl, lt⟩

/-- An operation in RPC form is read back from its packed form. -/
theorem packedUserOperationToRpc_pack {r : RpcUserOperation} (h : r.InRange) :
    packedUserOperationToRpc (pack r) none = .ok r := by
  have gas := packedPair_packGasLimits h.verificationGasLimit.eq.2 h.callGasLimit.eq.2
    "accountGasLimits"
  have fees := packedPair_packGasLimits h.maxPriorityFeePerGas.eq.2 h.maxFeePerGas.eq.2 "gasFees"
  unfold packedUserOperationToRpc pack
  dsimp only
  rw [gas, fees, splitInitCode_pack h.factory, splitPaymasterAndData_pack h.paymaster]
  show Except.ok _ = _
  rw [Option.getD_none, h.nonce.eq.1, h.callGasLimit.eq.1, h.verificationGasLimit.eq.1,
    h.preVerificationGas.eq.1, h.maxFeePerGas.eq.1, h.maxPriorityFeePerGas.eq.1]

/-- A packed operation is written back from its RPC form, with its gas in lower case. -/
theorem pack_packedUserOperationToRpc {p : PackedUserOp} (h : p.WellFormed) :
    ∃ r, packedUserOperationToRpc p none = .ok r ∧ pack r = { p with
      accountGasLimits := lower p.accountGasLimits, gasFees := lower p.gasFees
      paymasterAndData := lowerLimits p.paymasterAndData } := by
  obtain ⟨verification, call, gas, packedGas⟩ := packGasLimits_packedPair h.accountGasLimits.1
    h.accountGasLimits.2 "accountGasLimits"
  obtain ⟨priority, fee, fees, packedFees⟩ := packGasLimits_packedPair h.gasFees.1 h.gasFees.2
    "gasFees"
  obtain ⟨factory, split, packedInit⟩ : ∃ fields, splitInitCode p.initCode = .ok fields ∧
      packInitCode fields = p.initCode := by
    rcases h.initCode with empty | ⟨digits, long⟩
    · rw [empty]
      exact ⟨_, rfl, rfl⟩
    · exact packInitCode_split digits long
  obtain ⟨paymaster, splitPaymaster, packedPaymaster⟩ : ∃ fields,
      splitPaymasterAndData p.paymasterAndData = .ok fields ∧
        packPaymasterAndData fields = lowerLimits p.paymasterAndData := by
    rcases h.paymasterAndData with empty | ⟨digits, long⟩
    · rw [empty]
      exact ⟨_, rfl, rfl⟩
    · exact packPaymasterAndData_split digits long
  unfold packedUserOperationToRpc
  rw [gas, fees, split, splitPaymaster]
  refine ⟨_, rfl, ?_⟩
  unfold pack
  dsimp only
  rw [quantity_toHex, quantity_toHex, quantity_toHex, quantity_toHex, quantity_toHex,
    quantity_toHex, packedGas, packedFees, packedInit, packedPaymaster]
  rfl

theorem of_packedPair_ok {value : Text} {label : String} {pair : Nat × Nat}
    (h : packedPair value label = .ok pair) : isHexText value = true ∧ value.length = 66 := by
  unfold packedPair at h
  split at h
  · assumption
  · cases h

/-- A field that is split is empty or long enough. -/
theorem of_ite_ok {α : Type} {value : Text} {length : Nat} {x y : α} {e : TransportError} {a : α}
    (h : (if value = hex [] then .ok x
      else if isHexText value = false ∨ value.length < length then .error e else .ok y) =
        Except.ok a) :
    value = hex [] ∨ isHexText value = true ∧ length ≤ value.length := by
  by_cases empty : value = hex []
  · exact Or.inl empty
  · rw [if_neg empty] at h
    by_cases bad : isHexText value = false ∨ value.length < length
    · rw [if_pos bad] at h
      cases h
    · rw [not_or, Bool.not_eq_false, Nat.not_lt] at bad
      exact Or.inr bad

/-- What is converted is well formed. -/
theorem wellFormed_of_ok {p : PackedUserOp} {signature : Option Text} {r : RpcUserOperation}
    (h : packedUserOperationToRpc p signature = .ok r) : p.WellFormed := by
  obtain ⟨gas, gasOk, h⟩ := bind_eq_ok.1 h
  obtain ⟨fees, feesOk, h⟩ := bind_eq_ok.1 h
  obtain ⟨factory, factoryOk, h⟩ := bind_eq_ok.1 h
  obtain ⟨paymaster, paymasterOk, -⟩ := bind_eq_ok.1 h
  exact ⟨of_packedPair_ok gasOk, of_packedPair_ok feesOk, of_ite_ok factoryOk,
    of_ite_ok paymasterOk⟩

/-! ### Same bytes -/

/-- The byte fields in lower case: where texts are of the same bytes, they are the same then. -/
def PackedUserOp.lowered (p : PackedUserOp) : PackedUserOp :=
  { p with
    initCode := lower p.initCode, accountGasLimits := lower p.accountGasLimits
    gasFees := lower p.gasFees, paymasterAndData := lower p.paymasterAndData }

theorem isHex_slice {t : Text} (h : isHex t = true) (start stop : Nat) :
    isHex (slice t start stop) = true := by
  rw [isHex, List.all_eq_true] at h ⊢
  intro c hc
  exact h c (List.mem_of_mem_take (List.mem_of_mem_drop hc))

theorem lower_slice (t : Text) (start stop : Nat) :
    lower (slice t start stop) = slice (lower t) start stop := by
  rw [slice, slice, lower, lower, List.map_drop, List.map_take]

/-- A text is its part before the gas limits, the limits and its data. -/
theorem take_slice_drop (t : Text) : t.take 42 ++ (slice t 42 106 ++ t.drop 106) = t := by
  have front : (t.take 106).take 42 = t.take 42 := by rw [List.take_take]; rfl
  rw [slice, ← front, ← List.append_assoc, List.take_append_drop, List.take_append_drop]

theorem lower_lowerLimits {value : Text} (digits : isHexText value = true) :
    lower (lowerLimits value) = lower value := by
  obtain ⟨all, rfl, h⟩ := exists_of_isHexText digits
  have limits : isHex (slice (hex all) 42 106) = true := isHex_slice h 40 104
  conv_rhs => rw [← take_slice_drop (hex all)]
  rw [lowerLimits, lower_append, lower_append, lower_append, lower_append, lower_lower _ limits]

theorem lowerLimits_of_lower {value : Text} (h : lower value = value) :
    lowerLimits value = value := by
  rw [lowerLimits, lower_slice, h, take_slice_drop]

/-- The two forms are inverse to each other.  An operation in RPC form comes back from its packed
form.  A packed one comes back from its RPC form with the same bytes, and as the same text when its
digits are in lower case. -/
theorem packed_rpc_inverse :
    (∀ r : RpcUserOperation, r.InRange → packedUserOperationToRpc (pack r) none = .ok r) ∧
    ∀ p : PackedUserOp, p.WellFormed → ∃ r, packedUserOperationToRpc p none = .ok r ∧
      (pack r).lowered = p.lowered ∧ (p.lowered = p → pack r = p) := by
  refine ⟨fun r inRange => packedUserOperationToRpc_pack inRange, fun p formed => ?_⟩
  obtain ⟨r, converted, packed⟩ := pack_packedUserOperationToRpc formed
  have gas : lower (lower p.accountGasLimits) = lower p.accountGasLimits := by
    obtain ⟨digits, text, h⟩ := exists_of_isHexText formed.accountGasLimits.1
    rw [text, lower_hex, lower_hex, lower_lower digits h]
  have fees : lower (lower p.gasFees) = lower p.gasFees := by
    obtain ⟨digits, text, h⟩ := exists_of_isHexText formed.gasFees.1
    rw [text, lower_hex, lower_hex, lower_lower digits h]
  have paymaster : lower (lowerLimits p.paymasterAndData) = lower p.paymasterAndData := by
    rcases formed.paymasterAndData with empty | ⟨digits, -⟩
    · rw [empty]
      rfl
    · exact lower_lowerLimits digits
  refine ⟨r, converted, ?_, fun low => ?_⟩
  · rw [packed]
    show PackedUserOp.mk _ _ _ _ _ _ _ _ _ = _
    rw [gas, fees, paymaster]
    rfl
  · rw [packed]
    have lowGas : lower p.accountGasLimits = p.accountGasLimits := congrArg (·.accountGasLimits) low
    have lowFees : lower p.gasFees = p.gasFees := congrArg (·.gasFees) low
    have lowPaymaster : lower p.paymasterAndData = p.paymasterAndData :=
      congrArg (·.paymasterAndData) low
    rw [lowGas, lowFees, lowerLimits_of_lower lowPaymaster]

/-! #### Both forms of one operation -/

/-- With a factory and a paymaster of no data, and quantities of all bits. -/
def fullOperation : RpcUserOperation where
  factory := some (hex (List.replicate 40 'A'))
  factoryData := some (hex [])
  paymaster := some (hex (List.replicate 40 'B'))
  paymasterData := some (hex [])
  paymasterVerificationGasLimit := some (toHex (2 ^ 128 - 1))
  paymasterPostOpGasLimit := some (toHex 0)
  sender := hex (List.replicate 40 'c')
  nonce := toHex (2 ^ 256 - 1)
  callData := hex []
  callGasLimit := toHex (2 ^ 128 - 1)
  verificationGasLimit := toHex 1
  preVerificationGas := toHex 0
  maxFeePerGas := toHex (2 ^ 128 - 1)
  maxPriorityFeePerGas := toHex 0
  signature := hex ['0', '1']

theorem inRange_fullOperation : fullOperation.InRange where
  nonce := ⟨_, by decide, rfl⟩
  callGasLimit := ⟨_, by decide, rfl⟩
  verificationGasLimit := ⟨_, by decide, rfl⟩
  preVerificationGas := ⟨_, by decide, rfl⟩
  maxFeePerGas := ⟨_, by decide, rfl⟩
  maxPriorityFeePerGas := ⟨_, by decide, rfl⟩
  factory := Or.inr ⟨_, _, rfl, ⟨_, rfl, by decide, by decide⟩, ⟨_, rfl, by decide⟩⟩
  paymaster := Or.inr ⟨_, _, _, _, rfl, ⟨_, rfl, by decide, by decide⟩, ⟨_, rfl, by decide⟩,
    ⟨_, by decide, rfl⟩, ⟨_, by decide, rfl⟩⟩

theorem fullOperation_inverse :
    packedUserOperationToRpc (pack fullOperation) none = .ok fullOperation ∧
      ∃ r, packedUserOperationToRpc (pack fullOperation) none = .ok r ∧
        (pack r).lowered = (pack fullOperation).lowered ∧
        ((pack fullOperation).lowered = pack fullOperation → pack r = pack fullOperation) := by
  have converted := packed_rpc_inverse.1 fullOperation inRange_fullOperation
  exact ⟨converted, packed_rpc_inverse.2 (pack fullOperation) (wellFormed_of_ok converted)⟩

end ParmeliaLinks.Server.UserOperationRpc
