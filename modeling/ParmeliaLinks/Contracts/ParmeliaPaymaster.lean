/-
ParmeliaLinks/Contracts/ParmeliaPaymaster.lean

The paymaster.  It pays for an operation that the sponsor has signed, and answers
the window of the sponsorship, which stands in the data of the operation between
the gas limits and the signature:

    address (20)  verification gas (16)  post-op gas (16)
    valid after (6)  valid until (6)  signature

The digest goes over all of it except the signature, and over the rest of the
operation, the chain and the contract.  The encoding of the digest can be read
back, and so can the data; `eq_of_sponsorDigest` puts the two together: operations
with one digest are the same, up to collisions of the hash.
-/
import ParmeliaLinks.Lib.Abi
import ParmeliaLinks.Lib.Contract

namespace ParmeliaLinks.Contracts

/-! ### What comes from libraries -/

/-- The hash, the signatures of accounts, and the word that tells the entry point who
authorized an operation, and for how long. -/
structure Cryptography (Key : Type) where
  keccak256 : Bytes → BitVec 256
  privateKeyToAddress : Key → BitVec 160
  sign : Key → BitVec 256 → Bytes
  tryRecover : BitVec 256 → Bytes → Option (BitVec 160)
  packValidationData : Bool → BitVec 48 → BitVec 48 → BitVec 256
  length_sign : ∀ key hash, (sign key hash).length = 65
  tryRecover_sign : ∀ key hash, tryRecover hash (sign key hash) = some (privateKeyToAddress key)
  packValidationData_inj : ∀ success validAfter validUntil success' validAfter' validUntil',
    packValidationData success validAfter validUntil =
      packValidationData success' validAfter' validUntil' →
    success = success' ∧ validAfter = validAfter' ∧ validUntil = validUntil'

namespace Cryptography

variable {Key : Type} (C : Cryptography Key)

/-- No two of these strings have the same hash. -/
def CollisionFree (inputs : List Bytes) : Prop :=
  ∀ x ∈ inputs, ∀ y ∈ inputs, C.keccak256 x = C.keccak256 y → x = y

/-- A signature of the key is good for the hash it was made for, and for no other of these. -/
def SignsOne (key : Key) (hashes : List (BitVec 256)) : Prop :=
  ∀ h ∈ hashes, ∀ h' ∈ hashes,
    C.tryRecover h' (C.sign key h) = some (C.privateKeyToAddress key) → h' = h

/-- The bytes of `"\x19Ethereum Signed Message:\n"`. -/
def presignMessagePrefix : Bytes :=
  [0x19, 0x45, 0x74, 0x68, 0x65, 0x72, 0x65, 0x75, 0x6d, 0x20, 0x53, 0x69, 0x67, 0x6e, 0x65, 0x64,
    0x20, 0x4d, 0x65, 0x73, 0x73, 0x61, 0x67, 0x65, 0x3a, 0x0a]

/-- What is hashed before it is signed: the prefix, `"32"`, and the hash. -/
def ethSignedMessage (messageHash : BitVec 256) : Bytes :=
  presignMessagePrefix ++ [0x33, 0x32] ++ word messageHash

def toEthSignedMessageHash (messageHash : BitVec 256) : BitVec 256 :=
  C.keccak256 (ethSignedMessage messageHash)

theorem ethSignedMessage_inj {h h' : BitVec 256} (same : ethSignedMessage h = ethSignedMessage h') :
    h = h' := word_inj (Nat.le_refl 256) (List.append_cancel_left same)

end Cryptography

/-! ### The contract -/

structure PackedUserOperation where
  sender : BitVec 160
  nonce : BitVec 256
  initCode : Bytes
  callData : Bytes
  accountGasLimits : BitVec 256
  preVerificationGas : BitVec 256
  gasFees : BitVec 256
  paymasterAndData : Bytes
  deriving DecidableEq

inductive PaymasterError
  | onlyEntryPoint
  | missingPaymasterSignature
  | maxSponsoredGasCostExceeded (maxCost cap : BitVec 256)
  deriving DecidableEq

/-- `msg.sender` and `block.chainid`. -/
structure PaymasterEnv where
  sender : BitVec 160
  chainid : BitVec 256

structure PaymasterState where
  sponsorSigner : BitVec 160
  maxSponsoredGasCost : BitVec 256

/-- A deployed paymaster. -/
structure ParmeliaPaymaster where
  self : BitVec 160
  entryPoint : BitVec 160

namespace ParmeliaPaymaster

def paymasterDataOffset : Nat := 52

def signatureOffset : Nat := paymasterDataOffset + 12

/-- `data[a:b]`. -/
def slice (data : Bytes) (a b : Nat) : Bytes := (data.take b).drop a

variable {Key : Type} (C : Cryptography Key) (P : ParmeliaPaymaster)

/-- `abi.encode` of what the sponsor signs. -/
def encoded (chainid : BitVec 256) (userOp : PackedUserOperation)
    (validAfter validUntil : BitVec 48) : Bytes :=
  let paymasterConfigHash := C.keccak256 (userOp.paymasterAndData.take paymasterDataOffset)
  [word chainid, word P.self, word userOp.sender, word userOp.nonce,
    word (C.keccak256 userOp.initCode), word (C.keccak256 userOp.callData),
    word userOp.accountGasLimits, word userOp.preVerificationGas, word userOp.gasFees,
    word paymasterConfigHash, word validAfter, word validUntil].flatten

def sponsorDigest (chainid : BitVec 256) (userOp : PackedUserOperation)
    (validAfter validUntil : BitVec 48) : BitVec 256 :=
  C.keccak256 (P.encoded C chainid userOp validAfter validUntil)

def validAfter (paymasterAndData : Bytes) : BitVec 48 :=
  readTight 48 (slice paymasterAndData paymasterDataOffset (paymasterDataOffset + 6))

def validUntil (paymasterAndData : Bytes) : BitVec 48 :=
  readTight 48 (slice paymasterAndData (paymasterDataOffset + 6) signatureOffset)

def validatePaymasterUserOp (env : PaymasterEnv) (s : PaymasterState)
    (userOp : PackedUserOperation) (maxCost : BitVec 256) :
    Except PaymasterError (Bytes × BitVec 256) := do
  revertIf (env.sender ≠ P.entryPoint) .onlyEntryPoint
  let paymasterAndData := userOp.paymasterAndData
  revertIf (paymasterAndData.length ≤ signatureOffset) .missingPaymasterSignature
  let cap := s.maxSponsoredGasCost
  revertIf (cap ≠ 0 ∧ cap < maxCost) (.maxSponsoredGasCostExceeded maxCost cap)
  let validAfter := validAfter paymasterAndData
  let validUntil := validUntil paymasterAndData
  let paymasterSignature := paymasterAndData.drop signatureOffset
  let digest := C.toEthSignedMessageHash
    (P.sponsorDigest C env.chainid userOp validAfter validUntil)
  if C.tryRecover digest paymasterSignature ≠ some s.sponsorSigner then
    return ([], C.packValidationData false validAfter validUntil)
  return ([], C.packValidationData true validAfter validUntil)

/-! ### What is signed -/

/-- The hash that the sponsor of an operation signs. -/
def signedDigest (chainid : BitVec 256) (userOp : PackedUserOperation) : BitVec 256 :=
  C.toEthSignedMessageHash (P.sponsorDigest C chainid userOp (validAfter userOp.paymasterAndData)
    (validUntil userOp.paymasterAndData))

/-- Everything that is hashed on the way to it. -/
def hashed (chainid : BitVec 256) (userOp : PackedUserOperation) : List Bytes :=
  let validAfter := validAfter userOp.paymasterAndData
  let validUntil := validUntil userOp.paymasterAndData
  [userOp.initCode, userOp.callData, userOp.paymasterAndData.take paymasterDataOffset,
    P.encoded C chainid userOp validAfter validUntil,
    Cryptography.ethSignedMessage (P.sponsorDigest C chainid userOp validAfter validUntil)]

variable {C} {P}

/-- What the encoding says of the operation: everything but the signature. -/
structure SameTerms (chainid chainid' : BitVec 256) (P P' : ParmeliaPaymaster)
    (userOp userOp' : PackedUserOperation) : Prop where
  chainid : chainid = chainid'
  self : P.self = P'.self
  sender : userOp.sender = userOp'.sender
  nonce : userOp.nonce = userOp'.nonce
  initCode : userOp.initCode = userOp'.initCode
  callData : userOp.callData = userOp'.callData
  accountGasLimits : userOp.accountGasLimits = userOp'.accountGasLimits
  preVerificationGas : userOp.preVerificationGas = userOp'.preVerificationGas
  gasFees : userOp.gasFees = userOp'.gasFees
  config : userOp.paymasterAndData.take paymasterDataOffset =
    userOp'.paymasterAndData.take paymasterDataOffset
  validAfter : validAfter userOp.paymasterAndData = validAfter userOp'.paymasterAndData
  validUntil : validUntil userOp.paymasterAndData = validUntil userOp'.paymasterAndData

/-- Operations with one digest say the same, unless two of their hashes collide. -/
theorem sameTerms_of_signedDigest {P' : ParmeliaPaymaster} {chainid chainid' : BitVec 256}
    {userOp userOp' : PackedUserOperation}
    (free : C.CollisionFree (P.hashed C chainid userOp ++ P'.hashed C chainid' userOp'))
    (same : P.signedDigest C chainid userOp = P'.signedDigest C chainid' userOp') :
    SameTerms chainid chainid' P P' userOp userOp' := by
  have message := free _ (by simp [hashed]) _ (by simp [hashed]) same
  have digest := Cryptography.ethSignedMessage_inj message
  have encoding := free _ (by simp [hashed]) _ (by simp [hashed]) digest
  have words := flatten_inj (n := 32) (by simp) (by simp) (by simp) encoding
  simp only [List.cons.injEq, and_true] at words
  obtain ⟨chain, self, sender, nonce, initCode, callData, gasLimits, preVerificationGas, gasFees,
    config, validAfter, validUntil⟩ := words
  have wide : (160 : Nat) ≤ 256 := by decide
  have time : (48 : Nat) ≤ 256 := by decide
  have hash {x y : Bytes} (hx : x ∈ P.hashed C chainid userOp ++ P'.hashed C chainid' userOp')
      (hy : y ∈ P.hashed C chainid userOp ++ P'.hashed C chainid' userOp')
      (h : word (C.keccak256 x) = word (C.keccak256 y)) : x = y :=
    free x hx y hy (word_inj (Nat.le_refl 256) h)
  exact {
    chainid := word_inj (Nat.le_refl 256) chain
    self := word_inj wide self
    sender := word_inj wide sender
    nonce := word_inj (Nat.le_refl 256) nonce
    initCode := hash (by simp [hashed]) (by simp [hashed]) initCode
    callData := hash (by simp [hashed]) (by simp [hashed]) callData
    accountGasLimits := word_inj (Nat.le_refl 256) gasLimits
    preVerificationGas := word_inj (Nat.le_refl 256) preVerificationGas
    gasFees := word_inj (Nat.le_refl 256) gasFees
    config := hash (by simp [hashed]) (by simp [hashed]) config
    validAfter := word_inj time validAfter
    validUntil := word_inj time validUntil }

/-! ### What the data are made of -/

/-- The data are the configuration, the two times, and the signature. -/
theorem paymasterAndData_eq (data : Bytes) :
    data = data.take paymasterDataOffset ++
      slice data paymasterDataOffset (paymasterDataOffset + 6) ++
      slice data (paymasterDataOffset + 6) signatureOffset ++ data.drop signatureOffset := by
  have cut {a b : Nat} (h : a ≤ b) : data.take a ++ slice data a b = data.take b := by
    have front : (data.take b).take a = data.take a := by
      rw [List.take_take, Nat.min_eq_left h]
    rw [slice, ← front]
    exact List.take_append_drop a (data.take b)
  rw [cut (by decide), cut (by decide), List.take_append_drop]

theorem length_slice {data : Bytes} {a b : Nat} (h : b ≤ data.length) :
    (slice data a b).length = b - a := by
  rw [slice, List.length_drop, List.length_take, Nat.min_eq_left h]

/-- The piece between two others. -/
theorem slice_middle (x y z : Bytes) : slice (x ++ (y ++ z)) x.length (x.length + y.length) = y := by
  rw [slice, ← List.append_assoc, ← List.length_append, List.take_left, List.drop_left]

/-- Data that say the same and carry one signature are the same. -/
theorem SameTerms.eq {P' : ParmeliaPaymaster} {chainid chainid' : BitVec 256}
    {userOp userOp' : PackedUserOperation} (same : SameTerms chainid chainid' P P' userOp userOp')
    (long : signatureOffset ≤ userOp.paymasterAndData.length)
    (long' : signatureOffset ≤ userOp'.paymasterAndData.length)
    (signature : userOp.paymasterAndData.drop signatureOffset =
      userOp'.paymasterAndData.drop signatureOffset) : userOp = userOp' := by
  have six (data : Bytes) (h : signatureOffset ≤ data.length) :
      (slice data paymasterDataOffset (paymasterDataOffset + 6)).length = 48 / 8 :=
    length_slice (Nat.le_trans (by decide) h)
  have six' (data : Bytes) (h : signatureOffset ≤ data.length) :
      (slice data (paymasterDataOffset + 6) signatureOffset).length = 48 / 8 := length_slice h
  have eight : 8 ∣ 48 := ⟨6, rfl⟩
  have after := readTight_inj eight (six _ long) (six _ long') same.validAfter
  have before := readTight_inj eight (six' _ long) (six' _ long') same.validUntil
  have data : userOp.paymasterAndData = userOp'.paymasterAndData := by
    rw [paymasterAndData_eq userOp.paymasterAndData, same.config, after, before, signature]
    exact (paymasterAndData_eq userOp'.paymasterAndData).symm
  cases userOp
  cases userOp'
  obtain ⟨-, -, rfl, rfl, rfl, rfl, rfl, rfl, rfl, -, -, -⟩ := same
  cases data
  rfl

/-! ### What is answered -/

/-- When the paymaster pays for an operation, in this window. -/
def Accepts (C : Cryptography Key) (P : ParmeliaPaymaster) (env : PaymasterEnv)
    (s : PaymasterState) (userOp : PackedUserOperation) (maxCost : BitVec 256)
    (validAfter validUntil : BitVec 48) : Prop :=
  ∃ context, P.validatePaymasterUserOp C env s userOp maxCost =
    .ok (context, C.packValidationData true validAfter validUntil)

/-- What is asked before the signature is looked at. -/
structure Admissible (P : ParmeliaPaymaster) (env : PaymasterEnv) (s : PaymasterState)
    (userOp : PackedUserOperation) (maxCost : BitVec 256) : Prop where
  sender : env.sender = P.entryPoint
  long : signatureOffset < userOp.paymasterAndData.length
  cost : s.maxSponsoredGasCost = 0 ∨ maxCost ≤ s.maxSponsoredGasCost

variable {env : PaymasterEnv} {s : PaymasterState} {userOp : PackedUserOperation}
  {maxCost : BitVec 256}

theorem validatePaymasterUserOp_eq (h : P.Admissible env s userOp maxCost) :
    P.validatePaymasterUserOp C env s userOp maxCost =
      .ok ([], C.packValidationData
        (C.tryRecover (P.signedDigest C env.chainid userOp)
          (userOp.paymasterAndData.drop signatureOffset) = some s.sponsorSigner)
        (ParmeliaPaymaster.validAfter userOp.paymasterAndData)
        (ParmeliaPaymaster.validUntil userOp.paymasterAndData)) := by
  obtain ⟨sender, long, cost⟩ := h
  have within : ¬ (s.maxSponsoredGasCost ≠ 0 ∧ s.maxSponsoredGasCost < maxCost) := by
    rintro ⟨capped, above⟩
    rcases cost with zero | below
    · exact capped zero
    · exact absurd above (BitVec.not_lt.2 below)
  unfold validatePaymasterUserOp
  rw [revertIf_bind_of_not (not_not.2 sender), revertIf_bind_of_not (Nat.not_le.2 long),
    revertIf_bind_of_not within]
  by_cases recovered : C.tryRecover (P.signedDigest C env.chainid userOp)
      (userOp.paymasterAndData.drop signatureOffset) = some s.sponsorSigner
  · have check := not_not.2 recovered
    rw [decide_eq_true recovered]
    exact if_neg check
  · rw [decide_eq_false recovered]
    exact if_pos recovered

theorem admissible_of_ok {answer : Bytes × BitVec 256}
    (h : P.validatePaymasterUserOp C env s userOp maxCost = .ok answer) :
    P.Admissible env s userOp maxCost := by
  unfold validatePaymasterUserOp at h
  obtain ⟨sender, h⟩ := revertIf_bind_eq_ok.1 h
  obtain ⟨long, h⟩ := revertIf_bind_eq_ok.1 h
  obtain ⟨cost, -⟩ := revertIf_bind_eq_ok.1 h
  refine ⟨not_not.1 sender, Nat.lt_of_not_le long, ?_⟩
  by_cases zero : s.maxSponsoredGasCost = 0
  · exact .inl zero
  · exact .inr (BitVec.not_lt.1 fun above => cost ⟨zero, above⟩)

/-- The paymaster pays for what its signer has signed, in the window that was signed. -/
theorem accepts_iff {validAfter validUntil : BitVec 48} :
    Accepts C P env s userOp maxCost validAfter validUntil ↔
      P.Admissible env s userOp maxCost ∧
      C.tryRecover (P.signedDigest C env.chainid userOp)
        (userOp.paymasterAndData.drop signatureOffset) = some s.sponsorSigner ∧
      validAfter = ParmeliaPaymaster.validAfter userOp.paymasterAndData ∧
      validUntil = ParmeliaPaymaster.validUntil userOp.paymasterAndData := by
  constructor
  · rintro ⟨context, h⟩
    have admissible := admissible_of_ok h
    rw [validatePaymasterUserOp_eq admissible] at h
    injection h with h
    injection h with _ h
    obtain ⟨recovered, after, before⟩ := C.packValidationData_inj _ _ _ _ _ _ h
    exact ⟨admissible, of_decide_eq_true recovered, after.symm, before.symm⟩
  · rintro ⟨admissible, recovered, rfl, rfl⟩
    refine ⟨[], ?_⟩
    rw [validatePaymasterUserOp_eq admissible, decide_eq_true recovered]

end ParmeliaPaymaster

end ParmeliaLinks.Contracts
