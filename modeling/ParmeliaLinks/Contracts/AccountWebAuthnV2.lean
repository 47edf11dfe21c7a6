/-
ParmeliaLinks/Contracts/AccountWebAuthnV2.lean

Guardian recovery of the smart account.  The guardian proposes new signers; after
the delay anybody executes the proposal, unless the owner or the guardian
cancelled it or the owner chose another guardian.

What the account has pending is said twice.  `pendingOf` reads it off the calls
that went through: the last proposal, if nothing after it takes it back.  The
contract keeps three variables instead.  `Agrees` relates the two, and
`guardian_recovery` follows from it: what is executed is the pending proposal, in
time, and in full.
-/
import ParmeliaLinks.Lib.Contract
import ParmeliaLinks.Lib.MultiSigner
import Mathlib.Algebra.GroupWithZero.Nat

namespace ParmeliaLinks.Contracts

/-- The bytes of a signer. -/
abbrev SignerBytes := List UInt8

inductive AccountError
  | onlyGuardian
  | noGuardianSet
  | recoveryNotProposed
  | recoveryNotReady
  | recoveryAlreadyProposed
  | invalidRecoveryProposal
  | accountUnauthorized (sender : Nat)
  | multiSigner
  | arithmeticOverflow

structure AccountEnv where
  sender : Nat
  timestamp : Nat

inductive AccountCall
  | addSigners (signers : List SignerBytes)
  | removeSigners (signers : List SignerBytes)
  | setThreshold (threshold : Nat)
  | setGuardian (newGuardian : Nat)
  | proposeRecovery (newSigners : List SignerBytes) (newThreshold : Nat)
  | cancelRecovery
  | guardianCancelRecovery
  | executeRecovery

/-- A deployed account: its address, the entry point, the hash function, and the signers
of the library, which are at least 20 bytes long. -/
structure AccountWebAuthnV2 where
  self : Nat
  entryPoint : Nat
  keccak256 : SignerBytes → Nat
  multiSigner : MultiSigner SignerBytes
  valid_iff : ∀ x, multiSigner.valid x = true ↔ 20 ≤ x.length

namespace AccountWebAuthnV2

structure State (A : AccountWebAuthnV2) where
  guardian : Nat
  recoveryExecutableAfter : Nat
  pendingSigners : List SignerBytes
  pendingThreshold : Nat
  multi : A.multiSigner.State

/-- `RECOVERY_DELAY`: 48 hours. -/
def recoveryDelay : Nat := 48 * 3600

/-- `MAX_RECOVERY_SIGNERS`. -/
def maxRecoverySigners : Nat := 32

variable (A : AccountWebAuthnV2)

/-! ### The functions of the contract -/

def onlyEntryPointOrSelf (env : AccountEnv) : Except AccountError Unit :=
  revertIf (env.sender ≠ A.entryPoint ∧ env.sender ≠ A.self) (.accountUnauthorized env.sender)

/-- `initialize`. -/
def initializeAccount (signers : List SignerBytes) (threshold guardian : Nat) :
    Except AccountError A.State := do
  let added ← orRevert .multiSigner (A.multiSigner.addSigners signers A.multiSigner.empty)
  let multi ← orRevert .multiSigner (A.multiSigner.setThreshold threshold added)
  return {
    guardian
    recoveryExecutableAfter := 0
    pendingSigners := []
    pendingThreshold := 0
    multi }

def addSigners (env : AccountEnv) (signers : List SignerBytes) (s : A.State) :
    Except AccountError A.State := do
  A.onlyEntryPointOrSelf env
  let multi ← orRevert .multiSigner (A.multiSigner.addSigners signers s.multi)
  return { s with multi }

def removeSigners (env : AccountEnv) (signers : List SignerBytes) (s : A.State) :
    Except AccountError A.State := do
  A.onlyEntryPointOrSelf env
  let multi ← orRevert .multiSigner (A.multiSigner.removeSigners signers s.multi)
  return { s with multi }

def setThreshold (env : AccountEnv) (threshold : Nat) (s : A.State) :
    Except AccountError A.State := do
  A.onlyEntryPointOrSelf env
  let multi ← orRevert .multiSigner (A.multiSigner.setThreshold threshold s.multi)
  return { s with multi }

variable {A} in
def clearRecovery (s : A.State) : A.State :=
  { s with recoveryExecutableAfter := 0, pendingSigners := [], pendingThreshold := 0 }

def setGuardian (env : AccountEnv) (newGuardian : Nat) (s : A.State) :
    Except AccountError A.State := do
  A.onlyEntryPointOrSelf env
  let s := { s with guardian := newGuardian }
  if s.recoveryExecutableAfter ≠ 0 then return clearRecovery s else return s

/-- The loops over a proposal: a signer is too short, or two of them are the same. -/
def malformed : List SignerBytes → Bool
  | [] => false
  | x :: xs =>
    x.length < 20 || (xs.any fun y => A.keccak256 x == A.keccak256 y) || malformed xs

def proposeRecovery (env : AccountEnv) (newSigners : List SignerBytes) (newThreshold : Nat)
    (s : A.State) : Except AccountError A.State := do
  revertIf (s.guardian = 0) .noGuardianSet
  revertIf (env.sender ≠ s.guardian) .onlyGuardian
  revertIf (s.recoveryExecutableAfter ≠ 0) .recoveryAlreadyProposed
  let count := newSigners.length
  revertIf (count = 0 ∨ maxRecoverySigners < count) .invalidRecoveryProposal
  revertIf (newThreshold = 0 ∨ count < newThreshold) .invalidRecoveryProposal
  revertIf (A.malformed newSigners = true) .invalidRecoveryProposal
  revertIf (2 ^ 256 ≤ env.timestamp + recoveryDelay) .arithmeticOverflow
  return { s with
    recoveryExecutableAfter := env.timestamp + recoveryDelay
    pendingSigners := newSigners
    pendingThreshold := newThreshold }

def cancelRecovery (env : AccountEnv) (s : A.State) : Except AccountError A.State := do
  A.onlyEntryPointOrSelf env
  revertIf (s.recoveryExecutableAfter = 0) .recoveryNotProposed
  return clearRecovery s

def guardianCancelRecovery (env : AccountEnv) (s : A.State) : Except AccountError A.State := do
  revertIf (env.sender ≠ s.guardian) .onlyGuardian
  revertIf (s.recoveryExecutableAfter = 0) .recoveryNotProposed
  return clearRecovery s

/-- Add the new signers first, then set the threshold, then remove the old ones. -/
def replaceSigners (newSigners : List SignerBytes) (newThreshold : Nat)
    (multi : A.multiSigner.State) : Except AccountError A.multiSigner.State := do
  let oldSigners := A.multiSigner.signers multi
  let added ← orRevert .multiSigner (A.multiSigner.addSigners newSigners multi)
  let set ← orRevert .multiSigner (A.multiSigner.setThreshold newThreshold added)
  if 0 < oldSigners.length then
    orRevert .multiSigner (A.multiSigner.removeSigners oldSigners set)
  else return set

def executeRecovery (env : AccountEnv) (s : A.State) : Except AccountError A.State := do
  revertIf (s.recoveryExecutableAfter = 0) .recoveryNotProposed
  revertIf (env.timestamp < s.recoveryExecutableAfter) .recoveryNotReady
  let multi ← A.replaceSigners s.pendingSigners s.pendingThreshold s.multi
  return clearRecovery { s with multi }

def contract : Contract A.State (AccountEnv × AccountCall) AccountError where
  exec
    | (env, .addSigners signers), s => A.addSigners env signers s
    | (env, .removeSigners signers), s => A.removeSigners env signers s
    | (env, .setThreshold threshold), s => A.setThreshold env threshold s
    | (env, .setGuardian newGuardian), s => A.setGuardian env newGuardian s
    | (env, .proposeRecovery newSigners newThreshold), s =>
      A.proposeRecovery env newSigners newThreshold s
    | (env, .cancelRecovery), s => A.cancelRecovery env s
    | (env, .guardianCancelRecovery), s => A.guardianCancelRecovery env s
    | (env, .executeRecovery), s => A.executeRecovery env s

/-! ### What is pending -/

structure Proposal where
  guardian : Nat
  time : Nat
  signers : List SignerBytes
  threshold : Nat

/-- What is pending after a call that went through. -/
def pendingAfter (pending : Option Proposal) : AccountEnv × AccountCall → Option Proposal
  | (env, .proposeRecovery signers threshold) =>
    some { guardian := env.sender, time := env.timestamp, signers, threshold }
  | (_, .cancelRecovery) => none
  | (_, .guardianCancelRecovery) => none
  | (_, .executeRecovery) => none
  | (_, .setGuardian _) => none
  | _ => pending

/-- What is pending after these calls. -/
def pendingOf (done : List (AccountEnv × AccountCall)) : Option Proposal :=
  done.foldl pendingAfter none

@[simp] theorem pendingOf_concat (done : List (AccountEnv × AccountCall))
    (c : AccountEnv × AccountCall) :
    pendingOf (done ++ [c]) = pendingAfter (pendingOf done) c := by
  simp [pendingOf]

/-- The new signers are different, and reach the threshold. -/
structure Proposal.WellFormed (p : Proposal) : Prop where
  different : p.signers.Nodup
  long : ∀ x ∈ p.signers, 20 ≤ x.length
  positive : 0 < p.threshold
  reached : p.threshold ≤ p.signers.length

/-- The variables of the account tell what is pending. -/
structure Holds (s : A.State) (p : Proposal) : Prop where
  executableAfter : s.recoveryExecutableAfter = p.time + recoveryDelay
  signers : s.pendingSigners = p.signers
  threshold : s.pendingThreshold = p.threshold
  guardian : p.guardian = s.guardian
  guarded : s.guardian ≠ 0
  wellFormed : p.WellFormed

def Agrees (s : A.State) : Option Proposal → Prop
  | some p => A.Holds s p
  | none => s.recoveryExecutableAfter = 0

/-- The threshold is reachable, and the variables agree with what is pending. -/
structure Sound (done : List (AccountEnv × AccountCall)) (s : A.State) : Prop where
  reachable : A.multiSigner.Reachable s.multi
  agrees : A.Agrees s (pendingOf done)

variable {A} {s s' : A.State} {done : List (AccountEnv × AccountCall)} {env : AccountEnv}

theorem wellFormed_of_proposed {signers : List SignerBytes} {threshold guardian time : Nat}
    (positive : 0 < threshold) (reached : threshold ≤ signers.length)
    (h : A.malformed signers = false) :
    Proposal.WellFormed { guardian, time, signers, threshold } := by
  have different : ∀ l, A.malformed l = false → l.Nodup ∧ ∀ x ∈ l, 20 ≤ x.length := by
    intro l
    induction l with
    | nil =>
      intro _
      exact ⟨.nil, nofun⟩
    | cons x xs ih =>
      intro h
      simp only [malformed, Bool.or_eq_false_iff, decide_eq_false_iff_not, Nat.not_lt,
        List.any_eq_false, beq_iff_eq] at h
      obtain ⟨⟨long, apart⟩, rest⟩ := h
      obtain ⟨nodup, others⟩ := ih rest
      refine ⟨List.nodup_cons.2 ⟨fun again => apart x again rfl, nodup⟩, ?_⟩
      intro y hy
      rcases List.mem_cons.1 hy with rfl | hy
      · exact long
      · exact others y hy
  obtain ⟨nodup, long⟩ := different signers h
  exact ⟨nodup, long, positive, reached⟩

theorem replaceSigners_eq_ok {newSigners : List SignerBytes} {newThreshold : Nat}
    {multi multi' : A.multiSigner.State} :
    A.replaceSigners newSigners newThreshold multi = .ok multi' ↔
      A.multiSigner.replace newSigners newThreshold multi = some multi' := by
  have nonempty : 0 < (A.multiSigner.signers multi).length ↔ A.multiSigner.signers multi ≠ [] :=
    List.length_pos_iff
  simp only [replaceSigners, MultiSigner.replace, bind_eq_ok, orRevert_eq_ok,
    Option.bind_eq_bind, Option.bind_eq_some_iff]
  apply exists_congr
  intro added
  apply and_congr_right
  intro _
  apply exists_congr
  intro set
  apply and_congr_right
  intro _
  by_cases none : A.multiSigner.signers multi = []
  · rw [if_neg (by rw [nonempty]; exact not_not_intro none), if_pos none]
    constructor <;> intro h <;> cases h <;> rfl
  · rw [if_pos (nonempty.2 none), if_neg none]
    exact orRevert_eq_ok

/-- A call that leaves the recovery alone. -/
theorem Sound.same {c : AccountEnv × AccountCall} (h : A.Sound done s) {multi : A.multiSigner.State}
    (reachable : A.multiSigner.Reachable multi)
    (pending : pendingAfter (pendingOf done) c = pendingOf done) :
    A.Sound (done ++ [c]) { s with multi := multi } := by
  refine ⟨reachable, ?_⟩
  rw [pendingOf_concat, pending]
  have agrees := h.agrees
  cases hp : pendingOf done with
  | none =>
    rw [hp] at agrees
    exact agrees
  | some p =>
    rw [hp] at agrees
    obtain ⟨executableAfter, signers, threshold, guardian, guarded, wellFormed⟩ := agrees
    exact ⟨executableAfter, signers, threshold, guardian, guarded, wellFormed⟩

/-- A call after which nothing is pending. -/
theorem Sound.cleared {c : AccountEnv × AccountCall}
    (reachable : A.multiSigner.Reachable s.multi) (idle : s.recoveryExecutableAfter = 0)
    (pending : pendingAfter (pendingOf done) c = none) : A.Sound (done ++ [c]) s := by
  refine ⟨reachable, ?_⟩
  rw [pendingOf_concat, pending]
  exact idle

/-- One call that goes through keeps the account sound. -/
theorem sound_exec (c : AccountEnv × AccountCall) (h : A.Sound done s)
    (ok : A.contract.exec c s = .ok s') : A.Sound (done ++ [c]) s' := by
  obtain ⟨env, c⟩ := c
  cases c with
  | addSigners signers =>
    obtain ⟨-, ok⟩ := revertIf_bind_eq_ok.1 ok
    obtain ⟨multi, added, ok⟩ := bind_eq_ok.1 ok
    cases ok
    exact h.same (MultiSigner.reachable_add h.reachable (orRevert_eq_ok.1 added)) rfl
  | removeSigners signers =>
    obtain ⟨-, ok⟩ := revertIf_bind_eq_ok.1 ok
    obtain ⟨multi, removed, ok⟩ := bind_eq_ok.1 ok
    cases ok
    exact h.same (MultiSigner.reachable_remove h.reachable (orRevert_eq_ok.1 removed)) rfl
  | setThreshold threshold =>
    obtain ⟨-, ok⟩ := revertIf_bind_eq_ok.1 ok
    obtain ⟨multi, set, ok⟩ := bind_eq_ok.1 ok
    cases ok
    exact h.same (MultiSigner.reachable_setThreshold (orRevert_eq_ok.1 set)) rfl
  | setGuardian newGuardian =>
    obtain ⟨-, ok⟩ := revertIf_bind_eq_ok.1 ok
    dsimp only at ok
    split at ok
    · cases ok
      exact .cleared h.reachable rfl rfl
    · rename_i idle
      cases ok
      exact .cleared h.reachable (not_not.1 idle) rfl
  | proposeRecovery newSigners newThreshold =>
    simp only [contract, proposeRecovery, revertIf_bind_eq_ok, not_not, not_or, Nat.not_lt,
      Bool.not_eq_true] at ok
    obtain ⟨guarded, sender, -, -, ⟨positive, reached⟩, formed, -, ok⟩ := ok
    cases ok
    refine ⟨h.reachable, ?_⟩
    rw [pendingOf_concat]
    exact ⟨rfl, rfl, rfl, sender, guarded,
      wellFormed_of_proposed (Nat.pos_of_ne_zero positive) reached formed⟩
  | cancelRecovery =>
    obtain ⟨-, ok⟩ := revertIf_bind_eq_ok.1 ok
    obtain ⟨-, ok⟩ := revertIf_bind_eq_ok.1 ok
    cases ok
    exact .cleared h.reachable rfl rfl
  | guardianCancelRecovery =>
    obtain ⟨-, ok⟩ := revertIf_bind_eq_ok.1 ok
    obtain ⟨-, ok⟩ := revertIf_bind_eq_ok.1 ok
    cases ok
    exact .cleared h.reachable rfl rfl
  | executeRecovery =>
    obtain ⟨-, ok⟩ := revertIf_bind_eq_ok.1 ok
    obtain ⟨-, ok⟩ := revertIf_bind_eq_ok.1 ok
    obtain ⟨multi, replaced, ok⟩ := bind_eq_ok.1 ok
    cases ok
    exact .cleared (MultiSigner.replace_spec (replaceSigners_eq_ok.1 replaced)).2.2 rfl rfl

theorem sound_initializeAccount {signers : List SignerBytes} {threshold guardian : Nat}
    (h : A.initializeAccount signers threshold guardian = .ok s) : A.Sound [] s := by
  obtain ⟨added, -, h⟩ := bind_eq_ok.1 h
  obtain ⟨multi, set, h⟩ := bind_eq_ok.1 h
  cases h
  exact ⟨MultiSigner.reachable_setThreshold (orRevert_eq_ok.1 set), rfl⟩

/-! ### Executing a recovery -/

/-- The recovery of a proposal, executed: it was due, its signers and its threshold are
those of the account, and nothing is pending. -/
structure Executes (p : Proposal) (env : AccountEnv) (s' : A.State) : Prop where
  due : p.time + recoveryDelay ≤ env.timestamp
  signers : ∀ x, x ∈ A.multiSigner.signers s'.multi ↔ x ∈ p.signers
  threshold : A.multiSigner.threshold s'.multi = p.threshold
  cleared : s'.recoveryExecutableAfter = 0 ∧ s'.pendingSigners = [] ∧ s'.pendingThreshold = 0

theorem executes_of_ok (h : A.Sound done s) (ok : A.executeRecovery env s = .ok s') :
    ∃ p, pendingOf done = some p ∧ Executes p env s' := by
  obtain ⟨proposed, ok⟩ := revertIf_bind_eq_ok.1 ok
  obtain ⟨due, ok⟩ := revertIf_bind_eq_ok.1 ok
  obtain ⟨multi, replaced, ok⟩ := bind_eq_ok.1 ok
  cases ok
  have agrees := h.agrees
  cases hp : pendingOf done with
  | none =>
    rw [hp] at agrees
    exact absurd agrees proposed
  | some p =>
    rw [hp] at agrees
    obtain ⟨threshold, members, -⟩ := MultiSigner.replace_spec (replaceSigners_eq_ok.1 replaced)
    refine ⟨p, rfl, ?_, ?_, threshold.trans agrees.threshold, rfl, rfl, rfl⟩
    · rw [← agrees.executableAfter]
      exact Nat.not_lt.1 due
    · intro x
      rw [← agrees.signers]
      exact members x

/-- A proposal that is due is refused only when one of its signers is a signer already. -/
theorem ok_of_due {p : Proposal} (h : A.Sound done s) (hp : pendingOf done = some p)
    (due : p.time + recoveryDelay ≤ env.timestamp)
    (fresh : ∀ x ∈ p.signers, x ∉ A.multiSigner.signers s.multi) :
    ∃ s', A.executeRecovery env s = .ok s' := by
  have agrees := h.agrees
  rw [hp] at agrees
  obtain ⟨executableAfter, signers, threshold, -, -, wellFormed⟩ := agrees
  have able : ∀ x ∈ p.signers, A.multiSigner.valid x = true := by
    intro x hx
    exact (A.valid_iff x).2 (wellFormed.long x hx)
  have goes := MultiSigner.replace_isSome (s := s.multi) wellFormed.different able fresh
    wellFormed.positive wellFormed.reached
  rw [← signers, ← threshold] at goes
  obtain ⟨multi, replaced⟩ := Option.isSome_iff_exists.1 goes
  refine ⟨clearRecovery { s with multi := multi }, ?_⟩
  refine revertIf_bind_eq_ok.2 ⟨?_, revertIf_bind_eq_ok.2 ⟨?_, ?_⟩⟩
  · have : 0 < recoveryDelay := by decide
    omega
  · omega
  · exact bind_eq_ok.2 ⟨multi, replaceSigners_eq_ok.2 replaced, rfl⟩

/-- After every history of an initialized account: the threshold is reachable; what is
pending was proposed by the guardian of the moment; and a recovery that is executed is
the pending proposal, in time and in full, and is refused for no reason but a proposed
signer that the account already has. -/
theorem guardian_recovery (A : AccountWebAuthnV2) {signers : List SignerBytes}
    {threshold guardian : Nat} {s₀ : A.State}
    (initialized : A.initializeAccount signers threshold guardian = .ok s₀)
    (ts : List (AccountEnv × AccountCall)) :
    A.multiSigner.Reachable (A.contract.run s₀ ts).multi ∧
    ((A.contract.run s₀ ts).recoveryExecutableAfter ≠ 0 →
      (A.contract.run s₀ ts).guardian ≠ 0 ∧
        ∃ p, pendingOf (A.contract.accepted s₀ ts) = some p ∧
          p.guardian = (A.contract.run s₀ ts).guardian) ∧
    ∀ env, match A.contract.exec (env, .executeRecovery) (A.contract.run s₀ ts) with
      | .ok s' => ∃ p, pendingOf (A.contract.accepted s₀ ts) = some p ∧ Executes p env s'
      | .error _ => ∀ p, pendingOf (A.contract.accepted s₀ ts) = some p →
          p.time + recoveryDelay ≤ env.timestamp →
            ∃ x ∈ p.signers, x ∈ A.multiSigner.signers (A.contract.run s₀ ts).multi := by
  have sound : A.Sound (A.contract.accepted s₀ ts) (A.contract.run s₀ ts) :=
    Contract.accepted_invariant (fun done c s s' h ok => sound_exec c h ok)
      (sound_initializeAccount initialized)
  refine ⟨sound.reachable, fun isPending => ?_, fun env => ?_⟩
  · have agrees := sound.agrees
    cases hp : pendingOf (A.contract.accepted s₀ ts) with
    | none =>
      rw [hp] at agrees
      exact absurd agrees isPending
    | some p =>
      rw [hp] at agrees
      exact ⟨agrees.guarded, p, rfl, agrees.guardian⟩
  · split
    · rename_i s' ok
      exact executes_of_ok sound ok
    · rename_i e failed
      intro p hp due
      by_contra none
      have fresh : ∀ x ∈ p.signers, x ∉ A.multiSigner.signers (A.contract.run s₀ ts).multi :=
        fun x hx old => none ⟨x, hx, old⟩
      obtain ⟨s', ok⟩ := ok_of_due sound hp due fresh
      have clash : A.executeRecovery env (A.contract.run s₀ ts) = .error e := failed
      rw [ok] at clash
      cases clash

/-! A guardian takes an account over to another passkey. -/

/-- A passkey. -/
def passkey (n : UInt8) : SignerBytes := List.replicate 20 n

def guardedAccount : AccountWebAuthnV2 where
  self := 1
  entryPoint := 2
  keccak256 := fun signer => (signer.map UInt8.toNat).sum
  multiSigner := .list fun signer => decide (20 ≤ signer.length)
  valid_iff := fun _ => decide_eq_true_iff

def guardedSigners : MultiSigner.SignerList SignerBytes where
  signers := [passkey 7]
  threshold := 1
  nodup := List.nodup_singleton _

def guardedState : guardedAccount.State where
  guardian := 5
  recoveryExecutableAfter := 0
  pendingSigners := []
  pendingThreshold := 0
  multi := guardedSigners

def proposed : List (AccountEnv × AccountCall) :=
  [({ sender := 5, timestamp := 1000 }, .proposeRecovery [passkey 8] 1)]

theorem guardian_recovery_proposed :
    ∃ s', guardedAccount.contract.exec ({ sender := 9, timestamp := 173800 }, .executeRecovery)
        (guardedAccount.contract.run guardedState proposed) = .ok s' ∧
      guardedAccount.multiSigner.threshold s'.multi = 1 ∧
      ∀ x, x ∈ guardedAccount.multiSigner.signers s'.multi ↔ x = passkey 8 := by
  have initialized : guardedAccount.initializeAccount [passkey 7] 1 5 = .ok guardedState := by rfl
  have outcome := (guardian_recovery guardedAccount initialized proposed).2.2
    { sender := 9, timestamp := 173800 }
  have pending : pendingOf (guardedAccount.contract.accepted guardedState proposed) =
      some { guardian := 5, time := 1000, signers := [passkey 8], threshold := 1 } := by rfl
  rw [pending] at outcome
  split at outcome
  · rename_i s' ok
    obtain ⟨p, hp, executes⟩ := outcome
    cases hp
    refine ⟨s', ok, executes.threshold, fun x => ?_⟩
    rw [executes.signers, List.mem_singleton]
  · -- the new passkey is no signer
    obtain ⟨x, hx, old⟩ := outcome _ rfl (by decide)
    obtain rfl := List.mem_singleton.1 hx
    exact absurd old (by decide)

end AccountWebAuthnV2

end ParmeliaLinks.Contracts
