/-
ParmeliaLinks/Server/CctpValidation.lean

The messages of burns that the relayer is asked to mint.  Anyone may register a burn for an
operation, so the relayer takes the message that Circle attests apart, by its fixed offsets, and
compares each field with the operation and the configuration.

A text is accepted exactly if it is the encoding of a message that says what it should
(`validateCctpMessage_exact`); what is read at the offsets are the fields of the message and
nothing else (`Reads`).
-/
import ParmeliaLinks.Lib.HexText
import ParmeliaLinks.Payments.Attestation

namespace ParmeliaLinks.Server.Cctp

open HexText
open Payments (CctpMessage hexOf)

/-! ### Operations and configuration -/

/-- `0x` and up to sixty-four digits, in either case: an address, or thirty-two bytes. -/
def isHexValue : Text → Bool
  | '0' :: 'x' :: digits => isHex digits && digits.length ≤ 64
  | _ => false

abbrev HexValue := { t : Text // isHexValue t = true }

/-- The number that it stands for. -/
def HexValue.value (a : HexValue) : Nat := (readHex (a.val.drop 2)).getD 0

structure CctpChain where
  domain : Nat
  tokenMessenger : HexValue
  usdc : HexValue

structure Network where
  chainId : Nat
  crosschainRouter : HexValue

structure Config where
  cctpChains : Nat → Option CctpChain
  networks : List Network

inductive CrosschainDirection | inbound | outbound
  deriving DecidableEq

/-- `CrosschainOpRecord`, as far as the message is concerned. -/
structure CrosschainOp where
  direction : CrosschainDirection
  sourceChainId : Nat
  destinationChainId : Nat
  sourceDomain : Nat
  destinationDomain : Nat
  destinationCaller : Option HexValue
  amountIn : Nat
  gatoPagoFee : Nat
  maxFee : Option Nat
  minFinalityThreshold : Option Nat
  recipient : HexValue

/-! ### The validation -/

def messageBodyOffset : Nat := 148

def burnMessageFixedLength : Nat := 228

def expectedMessageLength : Nat := messageBodyOffset + burnMessageFixedLength

/-- The reason of a mismatch, or an error that is thrown. -/
inductive Stop
  | mismatch (reason : String)
  | thrown (message : String)
  deriving DecidableEq

abbrev Check := Except Stop

def require (condition : Prop) [Decidable condition] (reason : String) : Check Unit :=
  if condition then .ok () else .error (.mismatch reason)

def hexBytes (hex : Text) (start stop : Nat) : Text := slice hex (2 + start * 2) (2 + stop * 2)

def hexUint (hex : Text) (start stop : Nat) : Check Int :=
  match hexBytes hex start stop with
  | [] => .ok (-1)
  | chunk =>
    match readHex chunk with
    | some n => .ok n
    | none => .error (.thrown "SyntaxError")

def zeroBytes32 : Text := List.replicate 64 '0'

/-- The text without `0x` at its front. -/
def withoutPrefix : Text → Text
  | '0' :: 'x' :: t => t
  | t => t

def addressBytes32 (address : Text) : Text := padStart (withoutPrefix (lower address)) 64 '0'

def chainsOf (config : Config) (op : CrosschainOp) : Check (CctpChain × CctpChain) :=
  match config.cctpChains op.sourceChainId, config.cctpChains op.destinationChainId with
  | some source, some destination => .ok (source, destination)
  | _, _ => .error (.mismatch "source or destination chain is not configured for CCTP")

def expectedCaller (op : CrosschainOp) : Text :=
  match op.destinationCaller with
  | some caller => addressBytes32 caller.val
  | none => zeroBytes32

/-- Outbound burns are net of the platform fee, which the router takes first. -/
def expectedAmount (op : CrosschainOp) : Int :=
  match op.direction with
  | .outbound => op.amountIn - op.gatoPagoFee
  | .inbound => op.amountIn

def requireSender (config : Config) (op : CrosschainOp) (messageSender : Text) : Check Unit :=
  match op.direction with
  | .outbound =>
    let sourceNetwork := config.networks.find? (·.chainId == op.sourceChainId)
    require (sourceNetwork.any fun n => messageSender == addressBytes32 n.crosschainRouter.val)
      "messageSender is not the GatoPago cross-chain router"
  | .inbound => require (messageSender ≠ zeroBytes32) "inbound messageSender is zero"

/-- The header. -/
def checkHeader (op : CrosschainOp) (source destination : CctpChain) (hex : Text) :
    Check Int := do
  let version ← hexUint hex 0 4
  require (version = 1) s!"message version {version} != 1"
  let sourceDomain ← hexUint hex 4 8
  let destinationDomain ← hexUint hex 8 12
  require (sourceDomain = op.sourceDomain) s!"sourceDomain {sourceDomain} != {op.sourceDomain}"
  require (destinationDomain = op.destinationDomain)
    s!"destinationDomain {destinationDomain} != {op.destinationDomain}"
  require (source.domain = op.sourceDomain ∧ destination.domain = op.destinationDomain)
    "operation domains do not match the configured chains"
  require (hexBytes hex 44 76 = addressBytes32 source.tokenMessenger.val)
    "header sender is not the source TokenMessenger"
  require (hexBytes hex 76 108 = addressBytes32 destination.tokenMessenger.val)
    "header recipient is not the destination TokenMessenger"
  require (hexBytes hex 108 140 = expectedCaller op)
    "destinationCaller does not match the operation"
  let minFinality ← hexUint hex 140 144
  let finalityExecuted ← hexUint hex 144 148
  require (minFinality = 1000 ∨ minFinality = 2000)
    s!"unsupported minFinalityThreshold {minFinality}"
  require (minFinality = op.minFinalityThreshold.getD 0)
    s!"minFinalityThreshold {minFinality} != {op.minFinalityThreshold.getD 0}"
  require (finalityExecuted = 1000 ∨ finalityExecuted = 2000)
    s!"unsupported finalityThresholdExecuted {finalityExecuted}"
  require (minFinality ≤ finalityExecuted)
    "finalityThresholdExecuted is below the requested threshold"
  return finalityExecuted

/-- The body. -/
def checkBody (config : Config) (op : CrosschainOp) (source : CctpChain) (finalityExecuted : Int)
    (hex : Text) : Check Unit := do
  let at_ := messageBodyOffset
  let bodyVersion ← hexUint hex at_ (at_ + 4)
  require (bodyVersion = 1) s!"burn message version {bodyVersion} != 1"
  require (hexBytes hex (at_ + 4) (at_ + 36) = addressBytes32 source.usdc.val)
    "burnToken is not source-chain USDC"
  require (hexBytes hex (at_ + 36) (at_ + 68) = addressBytes32 op.recipient.val)
    "mintRecipient does not match the operation"
  let amount ← hexUint hex (at_ + 68) (at_ + 100)
  require (amount = expectedAmount op) s!"amount {amount} != expected {expectedAmount op}"
  requireSender config op (hexBytes hex (at_ + 100) (at_ + 132))
  let maxFee ← hexUint hex (at_ + 132) (at_ + 164)
  require (maxFee = op.maxFee.getD 0) s!"maxFee {maxFee} != {op.maxFee.getD 0}"
  let feeExecuted ← hexUint hex (at_ + 164) (at_ + 196)
  require (feeExecuted ≤ maxFee) s!"feeExecuted {feeExecuted} exceeds maxFee {maxFee}"
  let expirationBlock ← hexUint hex (at_ + 196) (at_ + 228)
  require (¬ (finalityExecuted = 1000 ∧ expirationBlock = 0))
    "unfinalized message has no expirationBlock"

/-- The checks of a message in lower case.  Its length in bytes is half of the digits, be they an
even number or not. -/
def checkMessage (config : Config) (op : CrosschainOp) (hex : Text) : Check Unit := do
  require (2 + 2 * expectedMessageLength ≤ hex.length) "message too short"
  require (hex.length = 2 + 2 * expectedMessageLength) "hookData must be empty"
  let chains ← chainsOf config op
  let finalityExecuted ← checkHeader op chains.1 chains.2 hex
  checkBody config op chains.1 finalityExecuted hex

/-- `none` is a message that matches. -/
def validateCctpMessage (config : Config) (op : CrosschainOp) (message : Text) :
    Except String (Option String) :=
  match checkMessage config op (lower message) with
  | .ok () => .ok none
  | .error (.mismatch reason) => .ok (some reason)
  | .error (.thrown error) => .error error

/-! ### Texts of messages -/

/-- The text of a message, in lower case. -/
def encoded (m : CctpMessage) : Text := '0' :: 'x' :: render m.hex

theorem foldl_hexOf (bs : Bytes) (n : Nat) :
    (hexOf bs).foldl (fun n d => n * 16 + d.val) n =
      bs.foldl (fun n b => n * 256 + b.toNat) n := by
  induction bs generalizing n with
  | nil => rfl
  | cons b bs ih =>
    have small := b.toNat_lt
    have step : (n * 16 + b.toNat / 16 % 16) * 16 + b.toNat % 16 % 16 = n * 256 + b.toNat := by
      omega
    rw [hexOf, List.foldl_cons, List.foldl_cons, List.foldl_cons, ih, Fin.val_ofNat, Fin.val_ofNat,
      step]

theorem number_hexOf (bs : Bytes) : number (hexOf bs) = ofBigEndian bs := foldl_hexOf bs 0

/-- Every even number of digits is that of a string of bytes. -/
theorem exists_hexOf {n : Nat} {ds : Digits} (h : ds.length = 2 * n) :
    ∃ bs : Bytes, hexOf bs = ds ∧ bs.length = n := by
  induction n generalizing ds with
  | zero => exact ⟨[], (List.length_eq_zero_iff.1 h).symm, rfl⟩
  | succ n ih =>
    match ds, h with
    | a :: b :: ds, h =>
      obtain ⟨bs, rfl, length⟩ := ih (show ds.length = 2 * n by simp at h; omega)
      have small : a.val * 16 + b.val < 256 := by omega
      have byte : (UInt8.ofNat (a.val * 16 + b.val)).toNat = a.val * 16 + b.val := by
        rw [UInt8.toNat_ofNat', Nat.mod_eq_of_lt small]
      refine ⟨UInt8.ofNat (a.val * 16 + b.val) :: bs, ?_, by rw [List.length_cons, length]⟩
      have high : Fin.ofNat 16 ((a.val * 16 + b.val) / 16) = a := by
        apply Fin.ext
        rw [Fin.val_ofNat]
        omega
      have low : Fin.ofNat 16 ((a.val * 16 + b.val) % 16) = b := by
        apply Fin.ext
        rw [Fin.val_ofNat]
        omega
      rw [hexOf, byte, high, low]

theorem slice_hexOf (bs : Bytes) (start stop : Nat) :
    slice (hexOf bs) (start * 2) (stop * 2) = hexOf (slice bs start stop) := by
  have front (bs : Bytes) (n : Nat) : (hexOf bs).take (n * 2) = hexOf (bs.take n) := by
    induction bs generalizing n with
    | nil => simp [hexOf]
    | cons b bs ih =>
      cases n with
      | zero => simp [hexOf]
      | succ n =>
        rw [Nat.succ_mul, hexOf, List.take_succ_cons, List.take_succ_cons, ih]
        rfl
  have back (bs : Bytes) (n : Nat) : (hexOf bs).drop (n * 2) = hexOf (bs.drop n) := by
    induction bs generalizing n with
    | nil => simp [hexOf]
    | cons b bs ih =>
      cases n with
      | zero => simp
      | succ n =>
        rw [Nat.succ_mul, hexOf, List.drop_succ_cons, List.drop_succ_cons, ih]
        rfl
  rw [slice, front, back, slice]

/-! ### What is read -/

/-- The lengths of the fields. -/
def lengths : List Nat := [4, 4, 4, 32, 32, 32, 32, 4, 4, 4, 32, 32, 32, 32, 32, 32, 32]

variable (m : CctpMessage)

theorem map_length_pieces : m.pieces.map List.length = lengths := by
  simp only [CctpMessage.pieces, List.map_cons, List.map_nil, CctpMessage.length_tight]
  rfl

/-- Between the end of the fields before it and its own end there is the field. -/
theorem hexBytes_piece {i : Nat} {piece : Bytes} (h : m.pieces[i]? = some piece) :
    hexBytes (encoded m) (lengths.take i).sum (lengths.take (i + 1)).sum =
      render (hexOf piece) := by
  have field := slice_flatten h m.hookData
  rw [map_length_pieces] at field
  have text : encoded m = ['0', 'x'] ++ render m.hex := rfl
  rw [hexBytes, text, show (2 : Nat) = ['0', 'x'].length from rfl, slice_append, slice_render,
    CctpMessage.hex, show ['0', 'x'].length = 2 from rfl, slice_hexOf, field]

theorem hexUint_piece {i w : Nat} {x : BitVec w} (h : m.pieces[i]? = some (tight x))
    (some : 8 ≤ w) (bytes : 8 ∣ w) :
    hexUint (encoded m) (lengths.take i).sum (lengths.take (i + 1)).sum = .ok x.toNat := by
  rw [hexUint, hexBytes_piece m h]
  have full : 0 < (render (hexOf (tight x))).length := by
    rw [length_render, Payments.length_hexOf, CctpMessage.length_tight]
    omega
  have value : number (hexOf (tight x)) = x.toNat := by
    rw [number_hexOf, tight, ofBigEndian_bigEndian]
    rw [pow_bytes bytes]
    exact x.isLt
  cases text : render (hexOf (tight x)) with
  | nil =>
    rw [text] at full
    cases full
  | cons c t =>
    dsimp only
    rw [← text, readHex_render, value]

/-- The thirty-two bytes of a field, as they are compared. -/
def bytes32 (x : BitVec 256) : Text := render (hexOf (tight x))

/-- At the offsets of the validation stand the fields of the message. -/
structure Reads (hex : Text) (m : CctpMessage) : Prop where
  version : hexUint hex 0 4 = .ok m.version.toNat
  sourceDomain : hexUint hex 4 8 = .ok m.sourceDomain.toNat
  destinationDomain : hexUint hex 8 12 = .ok m.destinationDomain.toNat
  sender : hexBytes hex 44 76 = bytes32 m.sender
  recipient : hexBytes hex 76 108 = bytes32 m.recipient
  destinationCaller : hexBytes hex 108 140 = bytes32 m.destinationCaller
  minFinality : hexUint hex 140 144 = .ok m.minFinalityThreshold.toNat
  finalityExecuted : hexUint hex 144 148 = .ok m.finalityThresholdExecuted.toNat
  bodyVersion : hexUint hex 148 152 = .ok m.bodyVersion.toNat
  burnToken : hexBytes hex 152 184 = bytes32 m.burnToken
  mintRecipient : hexBytes hex 184 216 = bytes32 m.mintRecipient
  amount : hexUint hex 216 248 = .ok m.amount.toNat
  messageSender : hexBytes hex 248 280 = bytes32 m.messageSender
  maxFee : hexUint hex 280 312 = .ok m.maxFee.toNat
  feeExecuted : hexUint hex 312 344 = .ok m.feeExecuted.toNat
  expirationBlock : hexUint hex 344 376 = .ok m.expirationBlock.toNat

/-- Whatever follows the fixed fields. -/
theorem reads_encoded : Reads (encoded m) m where
  version := @hexUint_piece m 0 32 _ rfl (by decide) (by decide)
  sourceDomain := @hexUint_piece m 1 32 _ rfl (by decide) (by decide)
  destinationDomain := @hexUint_piece m 2 32 _ rfl (by decide) (by decide)
  sender := @hexBytes_piece m 4 _ rfl
  recipient := @hexBytes_piece m 5 _ rfl
  destinationCaller := @hexBytes_piece m 6 _ rfl
  minFinality := @hexUint_piece m 7 32 _ rfl (by decide) (by decide)
  finalityExecuted := @hexUint_piece m 8 32 _ rfl (by decide) (by decide)
  bodyVersion := @hexUint_piece m 9 32 _ rfl (by decide) (by decide)
  burnToken := @hexBytes_piece m 10 _ rfl
  mintRecipient := @hexBytes_piece m 11 _ rfl
  amount := @hexUint_piece m 12 256 _ rfl (by decide) (by decide)
  messageSender := @hexBytes_piece m 13 _ rfl
  maxFee := @hexUint_piece m 14 256 _ rfl (by decide) (by decide)
  feeExecuted := @hexUint_piece m 15 256 _ rfl (by decide) (by decide)
  expirationBlock := @hexUint_piece m 16 256 _ rfl (by decide) (by decide)

/-! ### What is compared -/

theorem length_hexOf_tight (x : BitVec 256) : (hexOf (tight x)).length = 64 := by
  rw [Payments.length_hexOf, CctpMessage.length_tight]

/-- The digits of a value, and the text that fields are compared with. -/
theorem addressBytes32_eq (a : HexValue) : ∃ ds : Digits, ds.length = 64 ∧
    number ds = a.value ∧ addressBytes32 a.val = render ds := by
  obtain ⟨t, h⟩ := a
  unfold isHexValue at h
  split at h
  · rename_i digits
    simp only [Bool.and_eq_true, decide_eq_true_eq] at h
    obtain ⟨ds, read, text⟩ := exists_digits h.1
    have same : ds.length = digits.length := by
      rw [← length_render, ← text, length_lower]
    refine ⟨List.replicate (64 - ds.length) 0 ++ ds, ?_, ?_, ?_⟩
    · rw [List.length_append, List.length_replicate]
      omega
    · rw [number_zeros_append, HexValue.value, readHex]
      show _ = ((digits.mapM digitOf).map number).getD 0
      rw [read]
      rfl
    · have lowered : withoutPrefix (lower ('0' :: 'x' :: digits)) = lower digits := rfl
      rw [addressBytes32, lowered, text, padStart_render]
  · cases h

theorem bytes32_eq_addressBytes32 (x : BitVec 256) (a : HexValue) :
    bytes32 x = addressBytes32 a.val ↔ x.toNat = a.value := by
  obtain ⟨ds, length, value, text⟩ := addressBytes32_eq a
  have number_x : number (hexOf (tight x)) = x.toNat := by
    rw [number_hexOf, tight, ofBigEndian_bigEndian]
    exact x.isLt
  rw [text, bytes32, ← value, ← number_x]
  constructor
  · intro same
    rw [render_inj same]
  · intro same
    rw [number_inj ((length_hexOf_tight x).trans length.symm) same]

theorem bytes32_eq_zeroBytes32 (x : BitVec 256) : bytes32 x = zeroBytes32 ↔ x.toNat = 0 := by
  have zero : zeroBytes32 = addressBytes32 "0x".toList := by decide
  rw [zero]
  exact bytes32_eq_addressBytes32 x ⟨"0x".toList, rfl⟩

theorem bytes32_eq_expectedCaller (x : BitVec 256) (op : CrosschainOp) :
    bytes32 x = expectedCaller op ↔ x.toNat = (op.destinationCaller.map HexValue.value).getD 0 := by
  unfold expectedCaller
  split
  · rename_i caller given
    rw [given]
    exact bytes32_eq_addressBytes32 x caller
  · rename_i none
    rw [none]
    exact bytes32_eq_zeroBytes32 x

/-! ### What a message has to say -/

/-- The versions, the ends and the finality that the operation and its chains prescribe. -/
structure HeaderPrescribed (op : CrosschainOp) (source destination : CctpChain) (m : CctpMessage) :
    Prop where
  version : m.version.toNat = 1
  sourceDomain : m.sourceDomain.toNat = op.sourceDomain ∧ source.domain = op.sourceDomain
  destinationDomain : m.destinationDomain.toNat = op.destinationDomain ∧
    destination.domain = op.destinationDomain
  sender : m.sender.toNat = source.tokenMessenger.value
  recipient : m.recipient.toNat = destination.tokenMessenger.value
  destinationCaller : m.destinationCaller.toNat =
    (op.destinationCaller.map HexValue.value).getD 0
  minFinality : m.minFinalityThreshold.toNat = 1000 ∨ m.minFinalityThreshold.toNat = 2000
  requested : m.minFinalityThreshold.toNat = op.minFinalityThreshold.getD 0
  finalityExecuted : m.finalityThresholdExecuted.toNat = 1000 ∨
    m.finalityThresholdExecuted.toNat = 2000
  reached : m.minFinalityThreshold.toNat ≤ m.finalityThresholdExecuted.toNat

/-- Who burns: the router of the source chain outbound, and anyone but nobody inbound. -/
def SenderPrescribed (config : Config) (op : CrosschainOp) (m : CctpMessage) : Prop :=
  match op.direction with
  | .outbound => ∃ network, config.networks.find? (·.chainId == op.sourceChainId) = some network ∧
      m.messageSender.toNat = network.crosschainRouter.value
  | .inbound => m.messageSender.toNat ≠ 0

/-- The token, the recipient, the amount and the fees. -/
structure BodyPrescribed (config : Config) (op : CrosschainOp) (source : CctpChain)
    (m : CctpMessage) : Prop where
  version : m.bodyVersion.toNat = 1
  burnToken : m.burnToken.toNat = source.usdc.value
  mintRecipient : m.mintRecipient.toNat = op.recipient.value
  amount : (m.amount.toNat : Int) = expectedAmount op
  sender : SenderPrescribed config op m
  maxFee : m.maxFee.toNat = op.maxFee.getD 0
  feeExecuted : m.feeExecuted.toNat ≤ m.maxFee.toNat
  expires : ¬ (m.finalityThresholdExecuted.toNat = 1000 ∧ m.expirationBlock.toNat = 0)

structure Prescribed (config : Config) (op : CrosschainOp) (m : CctpMessage) : Prop where
  chains : ∃ source destination, config.cctpChains op.sourceChainId = some source ∧
    config.cctpChains op.destinationChainId = some destination ∧
    HeaderPrescribed op source destination m ∧ BodyPrescribed config op source m
  hookData : m.hookData = []

/-! ### The checks -/

section Checks

variable {α β : Type} {condition : Prop} [Decidable condition] {reason : String}
  {f : Unit → Check α} {a : α}

theorem require_eq_ok : require condition reason = .ok () ↔ condition := by
  unfold require
  split
  · exact iff_of_true rfl ‹_›
  · refine iff_of_false (fun h => ?_) ‹_›
    cases h

theorem check_bind_eq_ok {check : Check Unit} :
    (check >>= f) = .ok a ↔ check = .ok () ∧ f () = .ok a := by
  cases check with
  | ok u => exact (and_iff_right rfl).symm
  | error stop =>
    refine iff_of_false (fun h => ?_) fun h => ?_
    · cases h
    · cases h.1

theorem ok_bind (b : β) (g : β → Check α) : ((.ok b : Check β) >>= g) = g b := rfl

end Checks

variable {m} {config : Config} {op : CrosschainOp} {source destination : CctpChain} {hex : Text}

theorem requireSender_iff :
    requireSender config op (bytes32 m.messageSender) = .ok () ↔ SenderPrescribed config op m := by
  unfold requireSender SenderPrescribed
  cases op.direction with
  | inbound =>
    dsimp only
    rw [require_eq_ok, ne_eq, bytes32_eq_zeroBytes32]
  | outbound =>
    dsimp only
    rw [require_eq_ok, Option.any_eq_true]
    refine exists_congr fun network => and_congr_right fun _ => ?_
    rw [beq_iff_eq]
    exact bytes32_eq_addressBytes32 _ _

theorem checkHeader_iff (reads : Reads hex m) {n : Int} :
    checkHeader op source destination hex = .ok n ↔
      n = m.finalityThresholdExecuted.toNat ∧ HeaderPrescribed op source destination m := by
  unfold checkHeader
  simp only [reads.version, reads.sourceDomain, reads.destinationDomain, reads.sender,
    reads.recipient, reads.destinationCaller, reads.minFinality, reads.finalityExecuted, ok_bind,
    check_bind_eq_ok, require_eq_ok, bytes32_eq_addressBytes32, bytes32_eq_expectedCaller]
  constructor
  · rintro ⟨version, from_, into, ⟨fromChain, intoChain⟩, sender, recipient, caller, known,
      requested, executed, reached, last⟩
    cases last
    refine ⟨rfl, ⟨?_, ⟨?_, fromChain⟩, ⟨?_, intoChain⟩, sender, recipient, caller, ?_, ?_, ?_, ?_⟩⟩
    all_goals omega
  · rintro ⟨rfl, header⟩
    obtain ⟨version, ⟨from_, fromChain⟩, ⟨into, intoChain⟩, sender, recipient, caller, known,
      requested, executed, reached⟩ := header
    refine ⟨?_, ?_, ?_, ⟨fromChain, intoChain⟩, sender, recipient, caller, ?_, ?_, ?_, ?_, rfl⟩
    all_goals omega

theorem checkBody_iff (reads : Reads hex m) :
    checkBody config op source m.finalityThresholdExecuted.toNat hex = .ok () ↔
      BodyPrescribed config op source m := by
  unfold checkBody
  simp only [messageBodyOffset, Nat.reduceAdd, reads.bodyVersion, reads.burnToken,
    reads.mintRecipient, reads.amount, reads.messageSender, reads.maxFee, reads.feeExecuted,
    reads.expirationBlock, ok_bind, check_bind_eq_ok, require_eq_ok, bytes32_eq_addressBytes32,
    requireSender_iff]
  constructor
  · rintro ⟨version, token, recipient, amount, sender, maxFee, fee, expires⟩
    refine ⟨?_, token, recipient, amount, sender, ?_, ?_, ?_⟩
    all_goals omega
  · rintro ⟨version, token, recipient, amount, sender, maxFee, fee, expires⟩
    refine ⟨?_, token, recipient, amount, sender, ?_, ?_, ?_⟩
    all_goals omega

/-! ### Exactness -/

/-- Thirteen fields of thirty-two and five of four bytes: the text of a message without hook data
has one length. -/
theorem length_encoded (m : CctpMessage) :
    (encoded m).length = 2 + 2 * (expectedMessageLength + m.hookData.length) := by
  have fields : m.pieces.flatten.length = expectedMessageLength := by
    rw [List.length_flatten, map_length_pieces]
    rfl
  have text : (encoded m).length = m.hex.length + 1 + 1 := by
    rw [encoded, List.length_cons, List.length_cons, length_render]
  rw [text, CctpMessage.hex, Payments.length_hexOf, List.length_append, fields]
  omega

/-- A string of bytes cut into pieces. -/
def cut : List Nat → Bytes → List Bytes
  | [], _ => []
  | n :: ns, bs => bs.take n :: cut ns (bs.drop n)

theorem flatten_cut {ns : List Nat} {bs : Bytes} (h : ns.sum = bs.length) :
    (cut ns bs).flatten = bs := by
  induction ns generalizing bs with
  | nil => exact (List.length_eq_zero_iff.1 h.symm).symm
  | cons n ns ih =>
    rw [List.sum_cons] at h
    rw [cut, List.flatten_cons, ih (by rw [List.length_drop]; omega), List.take_append_drop]

theorem map_length_cut {ns : List Nat} {bs : Bytes} (h : ns.sum = bs.length) :
    (cut ns bs).map List.length = ns := by
  induction ns generalizing bs with
  | nil => rfl
  | cons n ns ih =>
    rw [List.sum_cons] at h
    rw [cut, List.map_cons, ih (by rw [List.length_drop]; omega), List.length_take,
      Nat.min_eq_left (by omega)]

/-- Pieces of the lengths of the fields are the fields of a message. -/
theorem exists_pieces {xs : List Bytes} (h : xs.map List.length = lengths) :
    ∃ m : CctpMessage, m.hookData = [] ∧ m.pieces = xs := by
  have narrow : 8 ∣ 32 := by decide
  have wide : 8 ∣ 256 := by decide
  simp only [lengths, List.map_eq_cons_iff, List.map_eq_nil_iff] at h
  obtain ⟨x₁, -, rfl, h₁, x₂, -, rfl, h₂, x₃, -, rfl, h₃, x₄, -, rfl, h₄, x₅, -, rfl, h₅,
    x₆, -, rfl, h₆, x₇, -, rfl, h₇, x₈, -, rfl, h₈, x₉, -, rfl, h₉, x₁₀, -, rfl, h₁₀,
    x₁₁, -, rfl, h₁₁, x₁₂, -, rfl, h₁₂, x₁₃, -, rfl, h₁₃, x₁₄, -, rfl, h₁₄, x₁₅, -, rfl, h₁₅,
    x₁₆, -, rfl, h₁₆, x₁₇, -, rfl, h₁₇, rfl⟩ := h
  refine ⟨⟨readTight 32 x₁, readTight 32 x₂, readTight 32 x₃, readTight 256 x₄, readTight 256 x₅,
    readTight 256 x₆, readTight 256 x₇, readTight 32 x₈, readTight 32 x₉, readTight 32 x₁₀,
    readTight 256 x₁₁, readTight 256 x₁₂, readTight 256 x₁₃, readTight 256 x₁₄,
    readTight 256 x₁₅, readTight 256 x₁₆, readTight 256 x₁₇, []⟩, rfl, ?_⟩
  simp only [CctpMessage.pieces, tight_readTight narrow h₁, tight_readTight narrow h₂,
    tight_readTight narrow h₃, tight_readTight wide h₄, tight_readTight wide h₅,
    tight_readTight wide h₆, tight_readTight wide h₇, tight_readTight narrow h₈,
    tight_readTight narrow h₉, tight_readTight narrow h₁₀, tight_readTight wide h₁₁,
    tight_readTight wide h₁₂, tight_readTight wide h₁₃, tight_readTight wide h₁₄,
    tight_readTight wide h₁₅, tight_readTight wide h₁₆, tight_readTight wide h₁₇]

/-- Every text of digits of that length is that of a message. -/
theorem exists_encoded {ds : Digits} (h : ds.length = 2 * expectedMessageLength) :
    ∃ m : CctpMessage, m.hookData = [] ∧ m.hex = ds := by
  obtain ⟨bs, rfl, length⟩ := exists_hexOf h
  have whole : lengths.sum = bs.length := length.symm
  obtain ⟨m, hook, pieces⟩ := exists_pieces (map_length_cut whole)
  refine ⟨m, hook, ?_⟩
  rw [CctpMessage.hex, pieces, hook, List.append_nil, flatten_cut whole]

/-- `0x` and any number of digits, in either case. -/
def isHexString : Text → Bool
  | '0' :: 'x' :: digits => isHex digits
  | _ => false

theorem checkMessage_iff (h : m.hookData = []) :
    checkMessage config op (encoded m) = .ok () ↔ Prescribed config op m := by
  have length := length_encoded m
  rw [h, List.length_nil, Nat.add_zero] at length
  unfold checkMessage
  simp only [length, le_refl, check_bind_eq_ok, require_eq_ok, true_and]
  unfold chainsOf
  constructor
  · intro accepted
    split at accepted
    · rename_i source destination sourceChain destinationChain
      rw [ok_bind] at accepted
      cases header : checkHeader op source destination (encoded m) with
      | error stop =>
        simp only [header] at accepted
        cases accepted
      | ok n =>
        simp only [header, ok_bind] at accepted
        obtain ⟨rfl, prescribed⟩ := (checkHeader_iff (reads_encoded m)).1 header
        exact ⟨⟨source, destination, sourceChain, destinationChain, prescribed,
          (checkBody_iff (reads_encoded m)).1 accepted⟩, h⟩
    · cases accepted
  · rintro ⟨⟨source, destination, sourceChain, destinationChain, header, body⟩, -⟩
    simp only [sourceChain, destinationChain, ok_bind,
      (checkHeader_iff (reads_encoded m)).2 ⟨rfl, header⟩]
    exact (checkBody_iff (reads_encoded m)).2 body

theorem validateCctpMessage_eq_none {message : Text} :
    validateCctpMessage config op message = .ok none ↔
      checkMessage config op (lower message) = .ok () := by
  unfold validateCctpMessage
  split
  · exact iff_of_true rfl ‹_›
  · rename_i stopped
    rw [stopped]
    refine iff_of_false (fun h => ?_) fun h => ?_ <;> cases h
  · rename_i stopped
    rw [stopped]
    refine iff_of_false (fun h => ?_) fun h => ?_ <;> cases h

theorem encoded_inj {m m' : CctpMessage} (h : encoded m = encoded m') : m = m' := by
  have tails := (List.cons.inj (List.cons.inj h).2).2
  exact CctpMessage.hex_inj (render_inj tails)

/-- A text of digits is accepted exactly if it is the encoding of one message that says what the
operation and the configuration prescribe.  What is read of a text that begins with a message are
the fields of that message, and a text that is shorter than one is refused before any is read. -/
theorem validateCctpMessage_exact (config : Config) (op : CrosschainOp)
    (message : { t : Text // isHexString t = true }) :
    (validateCctpMessage config op message = .ok none ↔
      ∃! m : CctpMessage, lower message = encoded m ∧ Prescribed config op m) ∧
    (∀ m, lower message = encoded m → Reads (lower message) m) ∧
    (message.val.length < 2 + 2 * expectedMessageLength →
      validateCctpMessage config op message = .ok (some "message too short")) := by
  obtain ⟨text, well⟩ := message
  refine ⟨?_, fun m same => same ▸ reads_encoded m, fun short => ?_⟩
  · rw [validateCctpMessage_eq_none]
    constructor
    · intro accepted
      have whole : (lower text).length = 2 + 2 * expectedMessageLength := by
        unfold checkMessage at accepted
        simp only [check_bind_eq_ok, require_eq_ok] at accepted
        exact accepted.2.1
      unfold isHexString at well
      split at well
      · rename_i digits
        obtain ⟨ds, -, lowered⟩ := exists_digits well
        have front : lower ('0' :: 'x' :: digits) = '0' :: 'x' :: render ds :=
          congrArg (fun t => '0' :: 'x' :: t) lowered
        rw [front] at accepted whole ⊢
        have count : ds.length = 2 * expectedMessageLength := by
          rw [List.length_cons, List.length_cons, length_render] at whole
          omega
        obtain ⟨m, hook, rfl⟩ := exists_encoded count
        refine ⟨m, ⟨rfl, (checkMessage_iff hook).1 accepted⟩, fun m' h => ?_⟩
        exact (encoded_inj h.1).symm
      · cases well
    · rintro ⟨m, ⟨same, prescribed⟩, -⟩
      rw [same]
      exact (checkMessage_iff prescribed.hookData).2 prescribed
  · have length : ¬ 2 + 2 * expectedMessageLength ≤ (lower text).length := by
      rw [length_lower]
      exact Nat.not_le.2 short
    unfold validateCctpMessage checkMessage require
    rw [if_neg length]
    rfl

end ParmeliaLinks.Server.Cctp
