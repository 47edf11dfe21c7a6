/-
ParmeliaLinks/Pay/Paymaster.lean

The sponsorship of an operation, as the server signs it.  The server writes the
header of the data, hashes what the paymaster will hash, and puts the window and
the signature behind the header.

What it writes is what the paymaster reads: `getPaymasterSponsorHash_eq` is about
the digest, and `read_data` about the pieces of the data.  With
`sameTerms_of_signedDigest` of the contract it follows that the signature is good
for this operation alone.
-/
import Mathlib.Data.List.Nodup
import ParmeliaLinks.Contracts.ParmeliaPaymaster

namespace ParmeliaLinks.Pay.Sponsorship

open Contracts (Cryptography PackedUserOperation ParmeliaPaymaster PaymasterEnv PaymasterState)

/-! ### The functions of the server -/

def paymasterVerificationGasLimit : Int := 100000

def paymasterPostOpGasLimit : Int := 50000

def defaultSponsorTtlSeconds : Int := 600

structure SponsorableUserOp where
  sender : BitVec 160
  nonce : Int
  initCode : Bytes
  callData : Bytes
  accountGasLimits : Bytes
  preVerificationGas : Int
  gasFees : Bytes

def buildPaymasterHeader (paymasterAddress : BitVec 160)
    (verificationGasLimit postOpGasLimit : Option Int) : Except AbiError Bytes := do
  let verification ←
    encodeTight 128 (verificationGasLimit.getD paymasterVerificationGasLimit)
  let postOp ← encodeTight 128 (postOpGasLimit.getD paymasterPostOpGasLimit)
  return [tight paymasterAddress, verification, postOp].flatten

variable {Key : Type} (C : Cryptography Key)

structure SponsorHashParams where
  chainId : Int
  paymasterAddress : BitVec 160
  userOp : SponsorableUserOp
  validAfter : Int
  validUntil : Int
  paymasterHeader : Option Bytes

def getPaymasterSponsorHash (params : SponsorHashParams) : Except AbiError (BitVec 256) := do
  let paymasterHeader ← match params.paymasterHeader with
    | some header => pure header
    | none => buildPaymasterHeader params.paymasterAddress none none
  let words ← [encodeWord 256 params.chainId, .ok (word params.paymasterAddress),
    .ok (word params.userOp.sender), encodeWord 256 params.userOp.nonce,
    .ok (word (C.keccak256 params.userOp.initCode)),
    .ok (word (C.keccak256 params.userOp.callData)),
    encodeBytes32 params.userOp.accountGasLimits, encodeWord 256 params.userOp.preVerificationGas,
    encodeBytes32 params.userOp.gasFees, .ok (word (C.keccak256 paymasterHeader)),
    encodeWord 256 params.validAfter, encodeWord 256 params.validUntil].mapM id
  return C.keccak256 words.flatten

/-- The decimal digits of a number, as they stand in a text. -/
def decimalDigits (n : Nat) : Bytes := (Nat.toDigits 10 n).map fun c => UInt8.ofNat c.toNat

/-- `hashMessage({ raw })`: the prefix, the length of the message, and the message. -/
def hashMessage (raw : Bytes) : BitVec 256 :=
  C.keccak256 (Cryptography.presignMessagePrefix ++ decimalDigits raw.length ++ raw)

structure BuildParams (Key : Type) where
  chainId : Int
  paymasterAddress : BitVec 160
  userOp : SponsorableUserOp
  signerPrivateKey : Key
  validAfter : Option Int
  validUntil : Option Int
  paymasterVerificationGasLimit : Option Int
  paymasterPostOpGasLimit : Option Int

/-- `now` is the clock, in milliseconds. -/
def buildSignedPaymasterAndData (now : Int) (params : BuildParams Key) :
    Except AbiError Bytes := do
  let validAfter := params.validAfter.getD 0
  let validUntil := params.validUntil.getD (now / 1000 + defaultSponsorTtlSeconds)
  let paymasterHeader ← buildPaymasterHeader params.paymasterAddress
    params.paymasterVerificationGasLimit params.paymasterPostOpGasLimit
  let sponsorHash ← getPaymasterSponsorHash C {
    chainId := params.chainId
    paymasterAddress := params.paymasterAddress
    userOp := params.userOp
    validAfter
    validUntil
    paymasterHeader := some paymasterHeader }
  let signature := C.sign params.signerPrivateKey (hashMessage C (word sponsorHash))
  let after ← encodeTight 48 validAfter
  let before ← encodeTight 48 validUntil
  return [paymasterHeader, after ++ before, signature].flatten

/-- The sponsorship of the provider `parmelia`: in the window that starts now. -/
def signed (now chainId : Int) (paymaster : BitVec 160) (signerPrivateKey : Key)
    (userOp : SponsorableUserOp)
    (paymasterVerificationGasLimit paymasterPostOpGasLimit : Option Int) :
    Except AbiError Bytes :=
  buildSignedPaymasterAndData C now {
    chainId
    paymasterAddress := paymaster
    userOp
    signerPrivateKey
    validAfter := none
    validUntil := none
    paymasterVerificationGasLimit
    paymasterPostOpGasLimit }

/-! ### What the paymaster reads -/

/-- An operation of the chain in the numbers of the server. -/
def SponsorableUserOp.of (userOp : PackedUserOperation) : SponsorableUserOp where
  sender := userOp.sender
  nonce := userOp.nonce.toNat
  initCode := userOp.initCode
  callData := userOp.callData
  accountGasLimits := word userOp.accountGasLimits
  preVerificationGas := userOp.preVerificationGas.toNat
  gasFees := word userOp.gasFees

/-- What is sponsored: an operation, where, until when, and with which gas limits of the
paymaster. -/
structure Terms where
  chainid : BitVec 256
  paymaster : BitVec 160
  userOp : PackedUserOperation
  validAfter : BitVec 48
  validUntil : BitVec 48
  verificationGasLimit : Option (BitVec 128)
  postOpGasLimit : Option (BitVec 128)

namespace Terms

variable (t : Terms)

def params (key : Key) : BuildParams Key where
  chainId := t.chainid.toNat
  paymasterAddress := t.paymaster
  userOp := .of t.userOp
  signerPrivateKey := key
  validAfter := some t.validAfter.toNat
  validUntil := some t.validUntil.toNat
  paymasterVerificationGasLimit := t.verificationGasLimit.map fun limit => (limit.toNat : Int)
  paymasterPostOpGasLimit := t.postOpGasLimit.map fun limit => (limit.toNat : Int)

def header : Bytes :=
  [tight t.paymaster, tight (t.verificationGasLimit.getD 100000),
    tight (t.postOpGasLimit.getD 50000)].flatten

def timeBounds : Bytes := tight t.validAfter ++ tight t.validUntil

/-- The request for the hash, as the builder makes it. -/
def hashParams : SponsorHashParams where
  chainId := t.chainid.toNat
  paymasterAddress := t.paymaster
  userOp := .of t.userOp
  validAfter := t.validAfter.toNat
  validUntil := t.validUntil.toNat
  paymasterHeader := some t.header

/-- The operation with these data. -/
def carrying (data : Bytes) : PackedUserOperation := { t.userOp with paymasterAndData := data }

@[simp] theorem carrying_paymasterAndData (data : Bytes) :
    (t.carrying data).paymasterAndData = data := rfl

end Terms

variable {t : Terms}

theorem length_header : t.header.length = ParmeliaPaymaster.paymasterDataOffset := by
  unfold Terms.header
  rw [List.length_flatten]
  simp [ParmeliaPaymaster.paymasterDataOffset]

theorem length_timeBounds : t.timeBounds.length = 12 := by
  rw [Terms.timeBounds, List.length_append, length_tight, length_tight]

theorem buildPaymasterHeader_eq :
    buildPaymasterHeader t.paymaster (t.verificationGasLimit.map fun limit => (limit.toNat : Int))
      (t.postOpGasLimit.map fun limit => (limit.toNat : Int)) = .ok t.header := by
  have limit (given : Option (BitVec 128)) (standard : BitVec 128) :
      (given.map fun limit => (limit.toNat : Int)).getD standard.toNat =
        (given.getD standard).toNat := by
    cases given <;> rfl
  have verification := limit t.verificationGasLimit 100000
  have postOp := limit t.postOpGasLimit 50000
  unfold buildPaymasterHeader
  rw [show paymasterVerificationGasLimit = ((100000 : BitVec 128).toNat : Int) by decide,
    show paymasterPostOpGasLimit = ((50000 : BitVec 128).toNat : Int) by decide, verification,
    postOp, encodeTight_toNat, encodeTight_toNat]
  rfl

/-- The pieces of the data are what the server put there. -/
theorem read_data (signature : Bytes) :
    let data := [t.header, t.timeBounds, signature].flatten
    data.take ParmeliaPaymaster.paymasterDataOffset = t.header ∧
    ParmeliaPaymaster.validAfter data = t.validAfter ∧
    ParmeliaPaymaster.validUntil data = t.validUntil ∧
    data.drop ParmeliaPaymaster.signatureOffset = signature ∧
    data.length = ParmeliaPaymaster.signatureOffset + signature.length := by
  intro data
  have pieces : data =
      t.header ++ (tight t.validAfter ++ (tight t.validUntil ++ signature)) := by
    simp [data, Terms.timeBounds]
  have front : (t.header ++ tight t.validAfter).length = 58 := by
    rw [List.length_append, length_header, length_tight]
    rfl
  refine ⟨?_, ?_, ?_, ?_, ?_⟩
  · rw [pieces, ← length_header, List.take_left]
  · have middle := ParmeliaPaymaster.slice_middle t.header (tight t.validAfter)
      (tight t.validUntil ++ signature)
    rw [length_header, length_tight, ← pieces] at middle
    rw [ParmeliaPaymaster.validAfter, middle]
    exact readTight_tight ⟨6, rfl⟩ t.validAfter
  · have middle := ParmeliaPaymaster.slice_middle (t.header ++ tight t.validAfter)
      (tight t.validUntil) signature
    rw [front, length_tight, List.append_assoc, ← pieces] at middle
    have read : ParmeliaPaymaster.slice data (ParmeliaPaymaster.paymasterDataOffset + 6)
        ParmeliaPaymaster.signatureOffset = tight t.validUntil := middle
    rw [ParmeliaPaymaster.validUntil, read]
    exact readTight_tight ⟨6, rfl⟩ t.validUntil
  · have all : (t.header ++ t.timeBounds).length = ParmeliaPaymaster.signatureOffset := by
      rw [List.length_append, length_header, length_timeBounds]
      rfl
    have split : data = (t.header ++ t.timeBounds) ++ signature := by simp [data]
    rw [split, ← all, List.drop_left]
  · have split : data = (t.header ++ t.timeBounds) ++ signature := by simp [data]
    rw [split, List.length_append, List.length_append, length_header, length_timeBounds]
    rfl

/-- The server hashes what the paymaster hashes. -/
theorem getPaymasterSponsorHash_eq {P : ParmeliaPaymaster} (here : P.self = t.paymaster)
    {data : Bytes} (front : data.take ParmeliaPaymaster.paymasterDataOffset = t.header) :
    getPaymasterSponsorHash C t.hashParams =
      .ok (P.sponsorDigest C t.chainid (t.carrying data) t.validAfter t.validUntil) := by
  have config : (t.carrying data).paymasterAndData.take ParmeliaPaymaster.paymasterDataOffset =
      t.header := front
  unfold getPaymasterSponsorHash ParmeliaPaymaster.sponsorDigest ParmeliaPaymaster.encoded
  rw [config, here]
  show Except.bind (Except.ok t.header) _ = _
  simp only [Terms.hashParams, SponsorableUserOp.of, encodeBytes32_word,
    encodeWord_toNat (Nat.le_refl 256), encodeWord_toNat (show 48 ≤ 256 by decide)]
  have words := mapM_ok [word t.chainid, word t.paymaster, word t.userOp.sender,
    word t.userOp.nonce, word (C.keccak256 t.userOp.initCode),
    word (C.keccak256 t.userOp.callData), word t.userOp.accountGasLimits,
    word t.userOp.preVerificationGas, word t.userOp.gasFees, word (C.keccak256 t.header),
    word t.validAfter, word t.validUntil]
  simp only [List.map] at words
  rw [Except.bind, words]
  rfl

theorem hashMessage_word (h : BitVec 256) :
    hashMessage C (word h) = C.toEthSignedMessageHash h := by
  have digits : decimalDigits 32 = [0x33, 0x32] := by decide
  rw [hashMessage, length_word, digits]
  rfl

/-- The signature of the server: on the hash that the paymaster looks at. -/
def Terms.signature (t : Terms) (P : ParmeliaPaymaster) (key : Key) : Bytes :=
  C.sign key (C.toEthSignedMessageHash
    (P.sponsorDigest C t.chainid (t.carrying t.header) t.validAfter t.validUntil))

/-- The data that the server builds. -/
def Terms.data (t : Terms) (P : ParmeliaPaymaster) (key : Key) : Bytes :=
  [t.header, t.timeBounds, t.signature C P key].flatten

theorem buildSignedPaymasterAndData_eq {P : ParmeliaPaymaster} (here : P.self = t.paymaster)
    (now : Int) (key : Key) :
    buildSignedPaymasterAndData C now (t.params key) = .ok (t.data C P key) := by
  have whole : t.header.take ParmeliaPaymaster.paymasterDataOffset = t.header := by
    rw [← length_header (t := t), List.take_length]
  have hash := getPaymasterSponsorHash_eq C here whole
  refine bind_eq_ok.2 ⟨t.header, buildPaymasterHeader_eq, bind_eq_ok.2 ⟨_, hash, ?_⟩⟩
  refine bind_eq_ok.2 ⟨_, encodeTight_toNat t.validAfter, ?_⟩
  refine bind_eq_ok.2 ⟨_, encodeTight_toNat t.validUntil, ?_⟩
  rw [hashMessage_word]
  rfl

/-- The pieces of the data of the server. -/
theorem read_terms (P : ParmeliaPaymaster) (key : Key) :
    let data := t.data C P key
    data.take ParmeliaPaymaster.paymasterDataOffset = t.header ∧
    ParmeliaPaymaster.validAfter data = t.validAfter ∧
    ParmeliaPaymaster.validUntil data = t.validUntil ∧
    data.drop ParmeliaPaymaster.signatureOffset = t.signature C P key ∧
    data.length = ParmeliaPaymaster.signatureOffset + (t.signature C P key).length :=
  read_data (t.signature C P key)

/-- The digest does not depend on the signature. -/
theorem sponsorDigest_carrying (P : ParmeliaPaymaster) {data data' : Bytes}
    (front : data.take ParmeliaPaymaster.paymasterDataOffset = t.header)
    (front' : data'.take ParmeliaPaymaster.paymasterDataOffset = t.header) :
    P.sponsorDigest C t.chainid (t.carrying data) t.validAfter t.validUntil =
      P.sponsorDigest C t.chainid (t.carrying data') t.validAfter t.validUntil := by
  have config : (t.carrying data).paymasterAndData.take ParmeliaPaymaster.paymasterDataOffset =
      t.header := front
  have config' : (t.carrying data').paymasterAndData.take ParmeliaPaymaster.paymasterDataOffset =
      t.header := front'
  unfold ParmeliaPaymaster.sponsorDigest ParmeliaPaymaster.encoded
  rw [config, config']
  rfl

/-- The hash that was signed is the hash of the operation with its data. -/
theorem signature_eq (P : ParmeliaPaymaster) (key : Key) :
    t.signature C P key = C.sign key (P.signedDigest C t.chainid (t.carrying (t.data C P key))) := by
  obtain ⟨front, after, before, -, -⟩ := read_terms C (t := t) P key
  have whole : t.header.take ParmeliaPaymaster.paymasterDataOffset = t.header := by
    rw [← length_header (t := t), List.take_length]
  have same := sponsorDigest_carrying C P whole front
  rw [Terms.signature, ParmeliaPaymaster.signedDigest, Terms.carrying_paymasterAndData, after,
    before, same]

/-- A sponsored operation gets as far as its signature when its cost is within the cap. -/
theorem admissible_data {P : ParmeliaPaymaster} {key : Key} {env : PaymasterEnv}
    {s : PaymasterState} {maxCost : BitVec 256} (called : env.sender = P.entryPoint)
    (within : s.maxSponsoredGasCost = 0 ∨ maxCost ≤ s.maxSponsoredGasCost) :
    P.Admissible env s (t.carrying (t.data C P key)) maxCost := by
  obtain ⟨-, -, -, -, length⟩ := read_terms C (t := t) P key
  refine ⟨called, ?_, within⟩
  rw [Terms.carrying_paymasterAndData, length, Terms.signature, C.length_sign]
  exact Nat.lt_add_of_pos_right (by decide)

/-! ### The sponsorship binds the operation -/

/-- The data are built, their digest is the digest of the paymaster, and a paymaster whose
signer has the key answers the window.  The signature opens no other operation: what a
paymaster accepts with it is this operation, on this chain, at this paymaster. -/
theorem sponsorship_binds_operation (key : Key) (t : Terms) (P : ParmeliaPaymaster)
    (here : P.self = t.paymaster) (now : Int) :
    ∃ data, buildSignedPaymasterAndData C now (t.params key) = .ok data ∧
      getPaymasterSponsorHash C t.hashParams =
        .ok (P.sponsorDigest C t.chainid (t.carrying data) t.validAfter t.validUntil) ∧
      (∀ (env : PaymasterEnv) (s : PaymasterState) (maxCost : BitVec 256),
        env.chainid = t.chainid → env.sender = P.entryPoint →
        s.sponsorSigner = C.privateKeyToAddress key →
        (s.maxSponsoredGasCost = 0 ∨ maxCost ≤ s.maxSponsoredGasCost) →
        P.validatePaymasterUserOp C env s (t.carrying data) maxCost =
          .ok ([], C.packValidationData true t.validAfter t.validUntil)) ∧
      (∀ (P' : ParmeliaPaymaster) (env : PaymasterEnv) (s : PaymasterState)
        (userOp : PackedUserOperation) (maxCost : BitVec 256) (validAfter validUntil : BitVec 48),
        s.sponsorSigner = C.privateKeyToAddress key →
        userOp.paymasterAndData.drop ParmeliaPaymaster.signatureOffset =
          data.drop ParmeliaPaymaster.signatureOffset →
        C.CollisionFree (P'.hashed C env.chainid userOp ++
          P.hashed C t.chainid (t.carrying data)) →
        C.SignsOne key [P'.signedDigest C env.chainid userOp,
          P.signedDigest C t.chainid (t.carrying data)] →
        ParmeliaPaymaster.Accepts C P' env s userOp maxCost validAfter validUntil →
        userOp = t.carrying data ∧ validAfter = t.validAfter ∧ validUntil = t.validUntil ∧
          env.chainid = t.chainid ∧ P'.self = P.self) := by
  obtain ⟨front, after, before, signature, length⟩ := read_terms C (t := t) P key
  refine ⟨t.data C P key, buildSignedPaymasterAndData_eq C here now key,
    getPaymasterSponsorHash_eq C here front, ?_, ?_⟩
  · intro env s maxCost chain called signer within
    have recovered : C.tryRecover (P.signedDigest C env.chainid (t.carrying (t.data C P key)))
        ((t.data C P key).drop ParmeliaPaymaster.signatureOffset) = some s.sponsorSigner := by
      rw [signature, signature_eq, chain, signer]
      exact C.tryRecover_sign _ _
    rw [ParmeliaPaymaster.validatePaymasterUserOp_eq (admissible_data C called within),
      Terms.carrying_paymasterAndData, decide_eq_true recovered, after, before]
  · intro P' env s userOp maxCost validAfter validUntil signer carried free one accepted
    obtain ⟨admissible, recovered, rfl, rfl⟩ := ParmeliaPaymaster.accepts_iff.1 accepted
    rw [carried, signature, signature_eq, signer] at recovered
    have digest := one _ (by simp) _ (by simp) recovered
    have same := ParmeliaPaymaster.sameTerms_of_signedDigest free digest
    have long : ParmeliaPaymaster.signatureOffset ≤
        (t.carrying (t.data C P key)).paymasterAndData.length := by
      rw [Terms.carrying_paymasterAndData, length]
      exact Nat.le_add_right _ _
    rw [← Terms.carrying_paymasterAndData t (t.data C P key)] at carried
    have operation := same.eq (Nat.le_of_lt admissible.long) long carried
    have start := same.validAfter
    have stop := same.validUntil
    rw [Terms.carrying_paymasterAndData, after] at start
    rw [Terms.carrying_paymasterAndData, before] at stop
    exact ⟨operation, start, stop, same.chainid, same.self⟩

/-! The operation of the tests of the contract, sponsored on the home chain, and the one
after it.  The values of the hash and of the signature are those of Keccak-256 and of
secp256k1, for the key `0xA11CE`. -/

def transfer : PackedUserOperation where
  sender := 0xBEEF
  nonce := 7
  initCode := []
  callData := [0x12, 0x34]
  accountGasLimits := 0x111
  preVerificationGas := 100000
  gasFees := 0x222
  paymasterAndData := []

def homePaymaster : ParmeliaPaymaster where
  self := 0x913a1B51c4f5b1a458A56D0d700c956834cc1d15
  entryPoint := 0x433709009B8330FDa32311DF1C2AFA402eD8D009

def transferTerms : Terms where
  chainid := 421614
  paymaster := homePaymaster.self
  userOp := transfer
  validAfter := 0
  validUntil := 1700000600
  verificationGasLimit := none
  postOpGasLimit := none

def emptyHash : BitVec 256 :=
  0xc5d2460186f7233c927e7db2dcc703c0e500b653ca82273b7bfad8045d85a470

def callHash : BitVec 256 :=
  0x56570de287d73cd1cb6092bb8fdee6173974955fdef345ae579ee9f475ea7432

def configHash : BitVec 256 :=
  0x61205b798ed21237a2e280f9783d44a2934c02762f4e52bf6270ef398e77b960

/-- What the paymaster encodes for a nonce. -/
def transferEncoding (nonce : BitVec 256) : Bytes :=
  [word transferTerms.chainid, word homePaymaster.self, word transfer.sender, word nonce,
    word emptyHash, word callHash, word transfer.accountGasLimits,
    word transfer.preVerificationGas, word transfer.gasFees, word configHash,
    word transferTerms.validAfter, word transferTerms.validUntil].flatten

def transferDigest : BitVec 256 :=
  0x314c4535f9f33ca8dd305324b880291e2d3ad1c9c1db730b525fddc6591dc086

def nextDigest : BitVec 256 :=
  0x95ef73e6cb6fdf81cacc70eacdd87ca15b1a66c0e53f7fb7177430ea0e0767a4

def transferHash : BitVec 256 :=
  0xa92c8655c01813b119dfaaf0c34261579d9c0748088976f9b1c84656377b539c

def nextHash : BitVec 256 :=
  0x4c58038184ba24e5631b70440af68f618f48bae20939c7624a1b437775e83f05

def hashTable : List (Bytes × BitVec 256) :=
  [([], emptyHash), (transfer.callData, callHash), (transferTerms.header, configHash),
    (transferEncoding 7, transferDigest), (transferEncoding 8, nextDigest),
    (Cryptography.ethSignedMessage transferDigest, transferHash),
    (Cryptography.ethSignedMessage nextDigest, nextHash)]

def sponsorAddress : BitVec 160 := 0xe05fcc23807536bee418f142d19fa0d21bb0cff7

def strangerAddress : BitVec 160 := 0x8f7f0a967fb34635b261f9776eaec682ffc5d1b2

/-- `r`, `s` and `v`. -/
def transferSignature : Bytes :=
  word (0xd34bc06aba075693d80c3068ac5b6b5a07ff974a5686dd7887537031733ff2c4 : BitVec 256) ++
    word (0x1bb3da292538cf913f49250133cd51f3eae65e03d025d6124960d17ae23be7ab : BitVec 256) ++ [27]

/-- A signature of another hash. -/
def otherSignature (hash : BitVec 256) : Bytes := word hash ++ List.replicate 33 0

theorem otherSignature_ne (hash : BitVec 256) : otherSignature hash ≠ transferSignature := by
  intro same
  have tails := (List.append_inj (same.trans (List.append_assoc _ _ _)) (by simp)).2
  have last := congrArg List.getLast? tails
  rw [List.getLast?_concat] at last
  cases last

def recoverTable (hash : BitVec 256) (signature : Bytes) : Option (BitVec 160) :=
  if signature = transferSignature then
    if hash = transferHash then some sponsorAddress
    else if hash = nextHash then some strangerAddress
    else none
  else if signature = otherSignature hash then some sponsorAddress
  else none

def signTable (hash : BitVec 256) : Bytes :=
  if hash = transferHash then transferSignature else otherSignature hash

/-- The layout of the entry point: who authorized, then the two times from the right. -/
def packed (success : Bool) (validAfter validUntil : BitVec 48) : BitVec 256 :=
  BitVec.ofNat 256 (validAfter.toNat * 2 ^ 208 + validUntil.toNat * 2 ^ 160 +
    (if success then 0 else 1))

theorem packed_inj (success : Bool) (validAfter validUntil : BitVec 48) (success' : Bool)
    (validAfter' validUntil' : BitVec 48)
    (h : packed success validAfter validUntil = packed success' validAfter' validUntil') :
    success = success' ∧ validAfter = validAfter' ∧ validUntil = validUntil' := by
  have numbers := congrArg BitVec.toNat h
  have a := validAfter.isLt
  have u := validUntil.isLt
  have a' := validAfter'.isLt
  have u' := validUntil'.isLt
  have flag (b : Bool) : (if b then 0 else 1) < 2 := by cases b <;> decide
  have f := flag success
  have f' := flag success'
  rw [packed, packed, BitVec.toNat_ofNat, BitVec.toNat_ofNat, Nat.mod_eq_of_lt (by omega),
    Nat.mod_eq_of_lt (by omega)] at numbers
  refine ⟨?_, BitVec.eq_of_toNat_eq (by omega), BitVec.eq_of_toNat_eq (by omega)⟩
  have flags : (if success then 0 else 1) = (if success' then 0 else 1) := by omega
  cases success <;> cases success' <;> simp at flags ⊢

def tabulated : Cryptography Unit where
  keccak256 := fun input => (hashTable.lookup input).getD 0
  privateKeyToAddress := fun _ => sponsorAddress
  sign := fun _ hash => signTable hash
  tryRecover := recoverTable
  packValidationData := packed
  length_sign := by
    intro _ hash
    unfold signTable
    split
    · rfl
    · simp [otherSignature]
  tryRecover_sign := by
    intro _ hash
    unfold signTable recoverTable
    by_cases h : hash = transferHash
    · rw [if_pos h, if_pos rfl, if_pos h]
    · rw [if_neg h, if_neg (otherSignature_ne hash), if_pos rfl]
  packValidationData_inj := packed_inj

theorem tabulated_values :
    tabulated.keccak256 [] = emptyHash ∧
    tabulated.keccak256 transfer.callData = callHash ∧
    tabulated.keccak256 transferTerms.header = configHash ∧
    tabulated.keccak256 (transferEncoding 7) = transferDigest ∧
    tabulated.keccak256 (transferEncoding 8) = nextDigest ∧
    tabulated.keccak256 (Cryptography.ethSignedMessage transferDigest) = transferHash ∧
    tabulated.keccak256 (Cryptography.ethSignedMessage nextDigest) = nextHash ∧
    (hashTable.map Prod.snd).Nodup := by
  decide +kernel

theorem mem_of_lookup {table : List (Bytes × BitVec 256)} {x : Bytes} {hash : BitVec 256}
    (h : table.lookup x = some hash) : (x, hash) ∈ table := by
  induction table with
  | nil => cases h
  | cons entry table ih =>
    obtain ⟨key, value⟩ := entry
    rw [List.lookup_cons] at h
    cases same : x == key with
    | true =>
      rw [same] at h
      cases h
      rw [eq_of_beq same]
      exact List.mem_cons_self
    | false =>
      rw [same] at h
      exact List.mem_cons_of_mem _ (ih h)

/-- The signatures of the table are good for one hash each. -/
theorem tabulated_signsOne (hashes : List (BitVec 256)) : tabulated.SignsOne () hashes := by
  intro h _ h' _ recovered
  have table : recoverTable h' (signTable h) = some sponsorAddress := recovered
  have stranger : strangerAddress ≠ sponsorAddress := by decide
  unfold recoverTable signTable at table
  by_cases first : h = transferHash
  · rw [if_pos first, if_pos rfl] at table
    split at table
    · rename_i first'
      exact first'.trans first.symm
    · split at table
      · exact absurd (Option.some.inj table) stranger
      · cases table
  · rw [if_neg first, if_neg (otherSignature_ne h)] at table
    split at table
    · rename_i same
      have words := (List.append_inj same (by simp)).1
      exact (word_inj (Nat.le_refl 256) words).symm
    · cases table

/-- The strings of the table have different hashes. -/
theorem tabulated_collisionFree {inputs : List Bytes}
    (listed : ∀ x ∈ inputs, ∃ hash, hashTable.lookup x = some hash) :
    tabulated.CollisionFree inputs := by
  intro x hx y hy same
  obtain ⟨hash, found⟩ := listed x hx
  obtain ⟨hash', found'⟩ := listed y hy
  have hashes : hash = hash' := by
    have h : (hashTable.lookup x).getD 0 = (hashTable.lookup y).getD 0 := same
    rwa [found, found'] at h
  subst hashes
  obtain ⟨-, -, -, -, -, -, -, nodup⟩ := tabulated_values
  have entry := List.inj_on_of_nodup_map nodup (mem_of_lookup found) (mem_of_lookup found') rfl
  exact congrArg Prod.fst entry

theorem lookup_of_mem {table : List (Bytes × BitVec 256)} {x : Bytes}
    (h : x ∈ table.map Prod.fst) : ∃ hash, table.lookup x = some hash := by
  induction table with
  | nil => cases h
  | cons entry table ih =>
    obtain ⟨key, value⟩ := entry
    rw [List.lookup_cons]
    cases same : x == key with
    | true => exact ⟨value, rfl⟩
    | false =>
      rcases List.mem_cons.1 h with first | later
      · rw [first, beq_self_eq_true] at same
        cases same
      · exact ih later

/-- The operation of a nonce, with the data that were built for the first. -/
def replayed (nonce : BitVec 256) : PackedUserOperation :=
  { transfer with
    nonce, paymasterAndData := transferTerms.data tabulated homePaymaster () }

theorem replayed_encoded (nonce : BitVec 256) (validAfter validUntil : BitVec 48)
    (after : validAfter = 0) (before : validUntil = 1700000600) :
    homePaymaster.encoded tabulated 421614 (replayed nonce) validAfter validUntil =
      transferEncoding nonce := by
  obtain ⟨empty, call, config, -⟩ := tabulated_values
  have front : (replayed nonce).paymasterAndData.take ParmeliaPaymaster.paymasterDataOffset =
      transferTerms.header := (read_terms tabulated (t := transferTerms) homePaymaster ()).1
  have noCode : (replayed nonce).initCode = [] := rfl
  have callData : (replayed nonce).callData = transfer.callData := rfl
  rw [ParmeliaPaymaster.encoded, front, config, noCode, empty, callData, call, after, before]
  rfl

/-- What is hashed for a nonce stands in the table. -/
theorem replayed_listed (nonce : BitVec 256) {digest : BitVec 256}
    (encoding : transferEncoding nonce ∈ hashTable.map Prod.fst)
    (hash : tabulated.keccak256 (transferEncoding nonce) = digest)
    (message : Cryptography.ethSignedMessage digest ∈ hashTable.map Prod.fst) :
    ∀ x ∈ homePaymaster.hashed tabulated 421614 (replayed nonce),
      ∃ hash, hashTable.lookup x = some hash := by
  obtain ⟨front, after, before, -, -⟩ :=
    read_terms tabulated (t := transferTerms) homePaymaster ()
  have encoded := replayed_encoded nonce _ _ after before
  have signed : homePaymaster.sponsorDigest tabulated 421614 (replayed nonce)
      (ParmeliaPaymaster.validAfter (replayed nonce).paymasterAndData)
      (ParmeliaPaymaster.validUntil (replayed nonce).paymasterAndData) = digest := by
    rw [← hash, ← encoded]
    rfl
  intro x hx
  apply lookup_of_mem
  rw [ParmeliaPaymaster.hashed, signed] at hx
  simp only [List.mem_cons, List.not_mem_nil, or_false] at hx
  rcases hx with rfl | rfl | rfl | rfl | rfl
  · exact List.mem_cons_self
  · exact List.mem_cons_of_mem _ List.mem_cons_self
  · rw [show (replayed nonce).paymasterAndData.take ParmeliaPaymaster.paymasterDataOffset =
      transferTerms.header from front]
    simp [hashTable]
  · rw [show homePaymaster.encoded tabulated 421614 (replayed nonce)
      (ParmeliaPaymaster.validAfter (replayed nonce).paymasterAndData)
      (ParmeliaPaymaster.validUntil (replayed nonce).paymasterAndData) =
        transferEncoding nonce from encoded]
    exact encoding
  · exact message

def homeEnv : PaymasterEnv where
  sender := homePaymaster.entryPoint
  chainid := 421614

def uncapped : PaymasterState where
  sponsorSigner := sponsorAddress
  maxSponsoredGasCost := 0

/-- The first operation is paid for in its window, and its data do not pay for the next. -/
theorem sponsorship_binds_transfer :
    homePaymaster.validatePaymasterUserOp tabulated homeEnv uncapped (replayed 7) 1000 =
      .ok ([], packed true 0 1700000600) ∧
    ∀ validAfter validUntil, ¬ ParmeliaPaymaster.Accepts tabulated homePaymaster homeEnv uncapped
      (replayed 8) 1000 validAfter validUntil := by
  obtain ⟨data, built, -, window, bound⟩ :=
    sponsorship_binds_operation tabulated () transferTerms homePaymaster rfl 1700000000000
  rw [buildSignedPaymasterAndData_eq tabulated rfl] at built
  cases built
  obtain ⟨-, -, -, seven, eight, -⟩ := tabulated_values
  refine ⟨window homeEnv uncapped 1000 rfl rfl rfl (.inl rfl), ?_⟩
  intro validAfter validUntil accepted
  have listed := replayed_listed 8 (by simp [hashTable]) eight (by simp [hashTable])
  have listed' := replayed_listed 7 (by simp [hashTable]) seven (by simp [hashTable])
  have free : tabulated.CollisionFree
      (homePaymaster.hashed tabulated 421614 (replayed 8) ++
        homePaymaster.hashed tabulated 421614 (replayed 7)) := by
    apply tabulated_collisionFree
    intro x hx
    rcases List.mem_append.1 hx with h | h
    · exact listed x h
    · exact listed' x h
  have same := (bound homePaymaster homeEnv uncapped (replayed 8) 1000 validAfter validUntil rfl
    rfl free (tabulated_signsOne _) accepted).1
  have nonces := congrArg PackedUserOperation.nonce same
  exact absurd nonces (by decide)

/-- A sponsored operation that costs more than the cap is not paid for. -/
theorem sponsored_above_cap :
    buildSignedPaymasterAndData tabulated 1700000000000 (transferTerms.params ()) =
      .ok (replayed 7).paymasterAndData ∧
    homePaymaster.validatePaymasterUserOp tabulated homeEnv
      { sponsorSigner := sponsorAddress, maxSponsoredGasCost := 999 } (replayed 7) 1000 =
      .error (.maxSponsoredGasCostExceeded 1000 999) := by
  refine ⟨buildSignedPaymasterAndData_eq tabulated rfl _ (), ?_⟩
  obtain ⟨-, -, -, -, length⟩ := read_terms tabulated (t := transferTerms) homePaymaster ()
  have long : ¬ (replayed 7).paymasterAndData.length ≤ ParmeliaPaymaster.signatureOffset := by
    have h : (replayed 7).paymasterAndData.length = _ := length
    rw [h, Terms.signature, tabulated.length_sign]
    decide
  unfold ParmeliaPaymaster.validatePaymasterUserOp
  rw [revertIf_bind_of_not (by simp [homeEnv]), revertIf_bind_of_not long]
  exact revertIf_bind_of (by decide)

end ParmeliaLinks.Pay.Sponsorship
