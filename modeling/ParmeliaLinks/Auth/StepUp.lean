/-
ParmeliaLinks/Auth/StepUp.lean

Proofs by e-mail.  A six-digit code is sent to an address; a request that presents it in time
signs in, or opens a session that allows one recovery action (step-up).  A recovery link is
exchanged for such a session too.  The tables hold keyed digests only; the digest is a
parameter (`Env.hmacHex`).

Before a code is compared one of its attempts is reserved, and a code that was guessed is
claimed before it is consumed.  A request that fails after its claim gives it back.

History variables, which no statement reads: `issued` holds the rows as they were inserted,
`reserved` every reserved attempt and `guesses` every digest that was computed for one,
`claims` every claim, `holder` the claim that has not been given back, `proofs` every code
that was consumed by the request that claimed it, `opened` every session with what it was
opened for, and `spent` every session that was consumed.
-/
import Mathlib.Algebra.Group.Nat.Defs
import Mathlib.Algebra.GroupWithZero.Nat
import Mathlib.Data.Char
import Mathlib.Data.List.Lex
import ParmeliaLinks.Auth.Registration
import ParmeliaLinks.Lib.Crash

namespace ParmeliaLinks.Auth.StepUp

/-! ### Configuration and texts -/

/-- The pepper, the digest, and the text of a random id. -/
structure Env where
  authCodePepper : Option Text
  hmacHex : Text → Text → Text
  uuid : Nat → Text

def codeTtlMs : Nat := 10 * 60 * 1000
def stepUpTtlMs : Nat := 10 * 60 * 1000
def recoveryLinkTtlSeconds : Nat := 10 * 60
def resendAfterSeconds : Nat := 60
def maxAttempts : Nat := 5

/-- `length`, in UTF-16 code units. -/
def utf16Length (s : Text) : Nat := (s.map fun c => if c.toNat < 0x10000 then 1 else 2).sum

def notConfigured : String := "Email code authentication is not configured"
def invalidCode : String := "Email code is invalid or expired"
def invalidChallenge : String := "Email-link challenge is invalid or expired"

variable (env : Env)

def pepper : Except String Text :=
  match env.authCodePepper.map trim with
  | none => .error notConfigured
  | some value => if utf16Length value < 32 then .error notConfigured else .ok value

/-- The digest of a message under the pepper. -/
def digest (message : Text) : Except String Text :=
  (pepper env).map fun secret => env.hmacHex secret message

/-- The first of the keys of `emailOtpRateLimitKeys`. -/
def emailHash (email : Text) : Except String Text := digest env ("email:".toList ++ email)

def codeMessage (id : Nat) (emailHash code : Text) : Text :=
  "code:".toList ++ env.uuid id ++ ":".toList ++ emailHash ++ ":".toList ++ code

def codeHash (id : Nat) (emailHash code : Text) : Except String Text :=
  digest env (codeMessage env id emailHash code)

def stepUpTokenHash (token : Text) : Except String Text := digest env ("step-up:".toList ++ token)

def challengeTokenHash (token : Text) : Except String Text :=
  emailHash env ("recovery-link:".toList ++ token)

/-- `/^\d{6}$/`. -/
def sixDigits (code : Text) : Bool := code.length == 6 && code.all Char.isDigit

/-- `/^[A-Za-z0-9_-]{43}$/`. -/
def opaqueToken (token : Text) : Bool := token.length == 43 && token.all isBase64Url

/-- `!value`. -/
def missing (value : Option Text) : Bool := value.getD [] == []

/-! ### Rows -/

inductive EmailCodePurpose | signin | stepUp
  deriving DecidableEq

inductive RecoveryEmailLinkAction | start | execute
  deriving DecidableEq

/-- `auth_email_codes`. -/
structure CodeRow where
  id : Nat
  emailHash : Text
  codeHash : Text
  purpose : EmailCodePurpose
  subjectUid : Option Text
  attempts : Nat := 0
  maxAttempts : Nat
  expiresAt : Timestamp
  claimId : Option ClaimId := none
  consumedAt : Option Timestamp := none
  createdAt : Timestamp

instance : Row CodeRow where
  clash r r' := r.id == r'.id
  clash_comm _ _ := Bool.beq_comm

/-- `auth_email_link_challenges`. -/
structure LinkRow where
  id : Nat
  uid : Text
  action : RecoveryEmailLinkAction
  tokenHash : Text
  expiresAt : Timestamp
  consumedAt : Option Timestamp := none
  consumptionId : Option Nat := none
  createdAt : Timestamp

instance : Row LinkRow where
  clash r r' := r.id == r'.id || r.tokenHash == r'.tokenHash ||
    sameValue r.consumptionId r'.consumptionId
  clash_comm r r' := by
    rw [Bool.beq_comm (a := r.id), Bool.beq_comm (a := r.tokenHash), sameValue_comm]

/-- `auth_step_up_sessions`, of the scope `recovery`. -/
structure SessionRow where
  id : Nat
  uid : Text
  tokenHash : Text
  expiresAt : Timestamp
  consumedAt : Option Timestamp := none
  createdAt : Timestamp

instance : Row SessionRow where
  clash r r' := r.id == r'.id || r.tokenHash == r'.tokenHash
  clash_comm r r' := by rw [Bool.beq_comm (a := r.id), Bool.beq_comm (a := r.tokenHash)]

/-! ### The world -/

/-- An attempt at a code that a thread has reserved. -/
structure Attempt where
  ticket : Nat
  code : Nat
  thread : Nat
  deriving DecidableEq

/-- A comparison: the text that was presented for the code, under a reserved attempt. -/
structure Guess where
  ticket : Nat
  code : Nat
  presented : Text
  deriving DecidableEq

/-- A claim, with the reading of the clock it was made with and the time at which it was made. -/
structure CodeClaim where
  claim : ClaimId
  code : Nat
  thread : Nat
  reading : Timestamp
  moment : Timestamp
  deriving DecidableEq

/-- A code that was consumed under a claim. -/
structure CodeProof where
  code : Nat
  claim : ClaimId
  thread : Nat
  deriving DecidableEq

/-- What a session was opened for. -/
inductive Source
  | code (id : Nat)
  | link (id : Nat)
  deriving DecidableEq

structure Opening where
  session : SessionRow
  source : Source
  thread : Nat
  reading : Timestamp
  moment : Timestamp

structure Spending where
  session : Nat
  uid : Text
  tokenHash : Text
  thread : Nat
  reading : Timestamp
  moment : Timestamp
  deriving DecidableEq

structure Codes where
  rows : Table CodeRow
  issued : List CodeRow
  reserved : List Attempt
  guesses : List Guess
  claims : List CodeClaim
  holder : Nat → Option ClaimId
  proofs : List CodeProof

structure Links where
  rows : Table LinkRow
  issued : List LinkRow

structure Sessions where
  rows : Table SessionRow
  opened : List Opening
  spent : List Spending

structure World where
  clock : Timestamp
  /-- Random values are numbered; none is drawn twice. -/
  drawn : Nat
  codes : Codes
  links : Links
  sessions : Sessions

def World.initial (clock : Timestamp) : World where
  clock
  drawn := 0
  codes := ⟨.empty, [], [], [], [], fun _ => none, []⟩
  links := ⟨.empty, []⟩
  sessions := ⟨.empty, [], []⟩

/-! ### Statements about codes -/

/-- The open codes for an address, a purpose and a subject. -/
def openCode (emailHash : Text) (purpose : EmailCodePurpose) (subjectUid : Option Text)
    (r : CodeRow) : Bool :=
  r.emailHash == emailHash && r.purpose == purpose && r.subjectUid == subjectUid &&
    r.consumedAt.isNone

def consumedCode (now : Timestamp) (r : CodeRow) : CodeRow := { r with consumedAt := some now }

theorem keepsKeys_consumedCode (now : Timestamp) : Table.KeepsKeys (consumedCode now) :=
  ⟨fun _ _ => rfl⟩

/-- An attempt is left, and the code may be compared. -/
def reservable (id : Nat) (now : Timestamp) (r : CodeRow) : Bool :=
  r.id == id && r.consumedAt.isNone && r.claimId.isNone && decide (r.attempts < r.maxAttempts) &&
    decide (now < r.expiresAt)

def attempted (r : CodeRow) : CodeRow := { r with attempts := r.attempts + 1 }

theorem keepsKeys_attempted : Table.KeepsKeys attempted := ⟨fun _ _ => rfl⟩

def claimable (id : Nat) (now : Timestamp) (r : CodeRow) : Bool :=
  r.id == id && r.consumedAt.isNone && r.claimId.isNone && decide (r.attempts ≤ r.maxAttempts) &&
    decide (now < r.expiresAt)

def claimedCode (claimId : Option ClaimId) (r : CodeRow) : CodeRow := { r with claimId }

theorem keepsKeys_claimedCode (claimId : Option ClaimId) :
    Table.KeepsKeys (claimedCode claimId) := ⟨fun _ _ => rfl⟩

/-- The open row that the claim holds. -/
def heldBy (id : Nat) (claimId : ClaimId) (r : CodeRow) : Bool :=
  r.id == id && r.claimId == some claimId && r.consumedAt.isNone

/-- The older of the open codes. -/
def olderCode (env : Env) (row : CodeRow) (r : CodeRow) : Bool :=
  openCode row.emailHash row.purpose row.subjectUid r &&
    (decide (r.createdAt < row.createdAt) ||
      r.createdAt == row.createdAt && decide (env.uuid r.id < env.uuid row.id))

/-- The rows of the query that no other is newer than. -/
def newest (rows : List CodeRow) : List CodeRow :=
  rows.filter fun r => rows.all fun r' => decide (r'.createdAt ≤ r.createdAt)

namespace World

variable (w : World)

def insertCode (row : Nat → CodeRow) : Option CodeRow × World :=
  match w.codes.rows.insert (row w.drawn) with
  | none => (none, { w with drawn := w.drawn + 1 })
  | some rows =>
    (some (row w.drawn), { w with
      drawn := w.drawn + 1
      codes := { w.codes with rows, issued := w.codes.issued ++ [row w.drawn] } })

def deleteCode (id : Nat) : World :=
  { w with codes := { w.codes with rows := w.codes.rows.delete fun r => r.id == id } }

/-- The update that closes the older codes. -/
def retireCodes (env : Env) (row : CodeRow) : World :=
  { w with codes := { w.codes with
      rows := w.codes.rows.modify (olderCode env row) (consumedCode row.createdAt)
        (keepsKeys_consumedCode _) } }

/-- `ORDER BY created_at DESC LIMIT 1`; among equals, any. -/
def selectCode (emailHash : Text) (purpose : EmailCodePurpose) (subjectUid : Option Text)
    (pick : Nat) : Option CodeRow :=
  let rows := newest (w.codes.rows.filter (openCode emailHash purpose subjectUid))
  rows[pick % rows.length]?

/-- The attempt is numbered for the history. -/
def reserve (thread id : Nat) (now : Timestamp) : Option Nat × World :=
  if w.codes.rows.changes (reservable id now) = 1 then
    (some w.drawn, { w with
      drawn := w.drawn + 1
      codes := { w.codes with
        rows := w.codes.rows.modify (reservable id now) attempted keepsKeys_attempted
        reserved := w.codes.reserved ++ [⟨w.drawn, id, thread⟩] } })
  else (none, w)

def present (ticket id : Nat) (presented : Text) : World :=
  { w with codes := { w.codes with guesses := w.codes.guesses ++ [⟨ticket, id, presented⟩] } }

/-- The id of the claim is drawn with the statement. -/
def claim (thread id : Nat) (now : Timestamp) : Option ClaimId × World :=
  if w.codes.rows.changes (claimable id now) = 1 then
    (some w.drawn, { w with
      drawn := w.drawn + 1
      codes := { w.codes with
        rows := w.codes.rows.modify (claimable id now) (claimedCode (some w.drawn))
          (keepsKeys_claimedCode _)
        claims := w.codes.claims ++ [⟨w.drawn, id, thread, now, w.clock⟩]
        holder := fun id' => if id' = id then some w.drawn else w.codes.holder id' } })
  else (none, w)

def releaseClaim (id : Nat) (claimId : ClaimId) : World :=
  { w with codes := { w.codes with
      rows := w.codes.rows.modify (heldBy id claimId) (claimedCode none) (keepsKeys_claimedCode _)
      holder := fun id' =>
        if id' = id ∧ w.codes.holder id = some claimId then none else w.codes.holder id' } }

/-- The update that consumes a claimed code. -/
def consumeCode (thread id : Nat) (claimId : ClaimId) (now : Timestamp) : Bool × World :=
  if w.codes.rows.changes (heldBy id claimId) = 1 then
    (true, { w with codes := { w.codes with
      rows := w.codes.rows.modify (heldBy id claimId) (consumedCode now) (keepsKeys_consumedCode _)
      proofs := w.codes.proofs ++ [⟨id, claimId, thread⟩] } })
  else (false, w)

/-! ### Statements about sessions -/

/-- A session is inserted. -/
def insertSession (row : SessionRow) (source : Source) (thread : Nat) (reading : Timestamp) :
    Option World :=
  (w.sessions.rows.insert row).map fun rows =>
    { w with sessions := { w.sessions with
        rows, opened := w.sessions.opened ++ [⟨row, source, thread, reading, w.clock⟩] } }

/-- The batch of `verifyEmailStepUpCode`: the changes of its second statement, and the id of
the session; nothing if it is aborted. -/
def openSession (thread id : Nat) (claimId : ClaimId) (row : Nat → SessionRow) (now : Timestamp) :
    Option (Bool × Nat) × World :=
  let drawn := { w with drawn := w.drawn + 1 }
  match drawn.insertSession (row w.drawn) (.code id) thread now with
  | none => (none, drawn)
  | some inserted =>
    let consumed := inserted.consumeCode thread id claimId now
    (some (consumed.1, w.drawn), consumed.2)

def deleteSession (id : Nat) : World :=
  { w with sessions := { w.sessions with
      rows := w.sessions.rows.delete fun r => r.id == id } }

/-- The session that a token opens. -/
def unspent (uid tokenHash : Text) (now : Timestamp) (r : SessionRow) : Bool :=
  r.uid == uid && r.tokenHash == tokenHash && r.consumedAt.isNone && decide (now < r.expiresAt)

def spentSession (now : Timestamp) (r : SessionRow) : SessionRow :=
  { r with consumedAt := some now }

theorem keepsKeys_spentSession (now : Timestamp) : Table.KeepsKeys (spentSession now) :=
  ⟨fun _ _ => rfl⟩

/-- The update of `consumeRecoveryStepUp`. -/
def spend (thread : Nat) (uid tokenHash : Text) (now : Timestamp) : Bool × World :=
  (decide (w.sessions.rows.changes (unspent uid tokenHash now) = 1),
    { w with sessions := { w.sessions with
        rows := w.sessions.rows.modify (unspent uid tokenHash now) (spentSession now)
          (keepsKeys_spentSession now)
        spent := w.sessions.spent ++ (w.sessions.rows.filter (unspent uid tokenHash now)).map
          fun r => ⟨r.id, uid, tokenHash, thread, now, w.clock⟩ } })

/-! ### Statements about links -/

def insertLink (row : Nat → LinkRow) : Option LinkRow × World :=
  match w.links.rows.insert (row w.drawn) with
  | none => (none, { w with drawn := w.drawn + 1 })
  | some rows =>
    (some (row w.drawn), { w with
      drawn := w.drawn + 1
      links := { rows, issued := w.links.issued ++ [row w.drawn] } })

/-- Only while it has not been exchanged. -/
def deleteLink (id : Nat) : World :=
  { w with links := { w.links with
      rows := w.links.rows.delete fun r => r.id == id && r.consumedAt.isNone } }

def olderLink (env : Env) (row : LinkRow) (r : LinkRow) : Bool :=
  r.uid == row.uid && r.action == row.action && r.consumedAt.isNone &&
    (decide (r.createdAt < row.createdAt) ||
      r.createdAt == row.createdAt && decide (env.uuid r.id < env.uuid row.id))

def consumedLink (now : Timestamp) (r : LinkRow) : LinkRow := { r with consumedAt := some now }

theorem keepsKeys_consumedLink (now : Timestamp) : Table.KeepsKeys (consumedLink now) :=
  ⟨fun _ _ => rfl⟩

def retireLinks (env : Env) (row : LinkRow) : World :=
  { w with links := { w.links with
      rows := w.links.rows.modify (olderLink env row) (consumedLink row.createdAt)
        (keepsKeys_consumedLink _) } }

def selectable (tokenHash uid : Text) (now : Timestamp) (r : LinkRow) : Bool :=
  r.tokenHash == tokenHash && r.uid == uid && r.consumedAt.isNone && decide (now < r.expiresAt)

def exchangeable (id : Nat) (uid tokenHash : Text) (now : Timestamp) (r : LinkRow) : Bool :=
  r.id == id && r.uid == uid && r.tokenHash == tokenHash && r.consumedAt.isNone &&
    decide (now < r.expiresAt)

def exchangedLink (now : Timestamp) (consumptionId : Nat) (r : LinkRow) : LinkRow :=
  { r with consumedAt := some now, consumptionId := some consumptionId }

/-- The batch of `exchangeRecoveryEmailLink`: whether each statement changed a row; nothing if
it is aborted. -/
def exchange (thread id : Nat) (uid tokenHash : Text) (row : Nat → SessionRow)
    (now : Timestamp) : Option (Bool × Bool) × World :=
  let drawn := { w with drawn := w.drawn + 2 }
  let matched := w.links.rows.changes (exchangeable id uid tokenHash now)
  match w.links.rows.update (exchangeable id uid tokenHash now)
      (exchangedLink now (w.drawn + 1)) with
  | none => (none, drawn)
  | some rows =>
    let updated := { drawn with links := { w.links with rows } }
    if rows.any fun r => r.id == id && r.consumptionId == some (w.drawn + 1) &&
        r.consumedAt == some now then
      match updated.insertSession (row w.drawn) (.link id) thread now with
      | none => (none, drawn)
      | some inserted => (some (decide (matched = 1), true), inserted)
    else (some (decide (matched = 1), false), updated)

/-- The batch of `deleteExpiredEmailCodes`. -/
def deleteExpired (cutoff : Timestamp) : World :=
  { w with
    codes := { w.codes with rows := w.codes.rows.delete fun r => decide (r.expiresAt < cutoff) }
    sessions := { w.sessions with
      rows := w.sessions.rows.delete fun r => decide (r.expiresAt < cutoff) }
    links := { w.links with rows := w.links.rows.delete fun r => decide (r.expiresAt < cutoff) } }

end World

/-! ### Operations -/

/-- The ids of rows are drawn with the statement that inserts them. -/
inductive StepUpOp
  | now
  -- a random code or token
  | random
  | insertCode (row : Nat → CodeRow)
  -- the e-mail, and the calls of Firebase
  | send
  | firebase
  | deleteCode (id : Nat)
  | retireCodes (row : CodeRow)
  | selectCode (emailHash : Text) (purpose : EmailCodePurpose) (subjectUid : Option Text)
  | reserve (id : Nat) (reading : Timestamp)
  -- the digest of what is presented, for the comparison
  | present (ticket id : Nat) (emailHash presented : Text)
  | claim (id : Nat) (reading : Timestamp)
  | releaseClaim (id : Nat) (claimId : ClaimId)
  | consumeCode (id : Nat) (claimId : ClaimId) (reading : Timestamp)
  | openSession (id : Nat) (claimId : ClaimId) (row : Nat → SessionRow) (reading : Timestamp)
  | deleteSession (id : Nat)
  | spend (uid tokenHash : Text) (reading : Timestamp)
  | selectSession (uid tokenHash : Text) (reading : Timestamp)
  | insertLink (row : Nat → LinkRow)
  | deleteLink (id : Nat)
  | retireLinks (row : LinkRow)
  | selectLink (tokenHash uid : Text) (reading : Timestamp)
  | exchange (id : Nat) (uid tokenHash : Text) (row : Nat → SessionRow) (reading : Timestamp)
  | deleteExpired (cutoff : Timestamp)

/-- What the outside contributes: the fate of a statement, random texts, an order among equals
and the answers of Firebase. -/
structure Answer where
  delivery : Delivery := .done
  text : Text := []
  pick : Nat := 0

namespace StepUpOp

abbrev Reply : StepUpOp → Type
  | .now => Timestamp
  | .random => Text
  | .insertCode _ => Except String (Option CodeRow)
  | .send => Except String Unit
  | .firebase => Except String Text
  | .deleteCode _ => Except String Unit
  | .retireCodes _ => Except String Unit
  | .selectCode .. => Except String (Option CodeRow)
  | .reserve .. => Except String (Option Nat)
  | .present .. => Except String Text
  | .claim .. => Except String (Option ClaimId)
  | .releaseClaim .. => Except String Unit
  | .consumeCode .. => Except String Bool
  | .openSession .. => Except String (Option (Bool × Nat))
  | .deleteSession _ => Except String Unit
  | .spend .. => Except String Bool
  | .selectSession .. => Except String Bool
  | .insertLink _ => Except String (Option LinkRow)
  | .deleteLink _ => Except String Unit
  | .retireLinks _ => Except String Unit
  | .selectLink .. => Except String (Option LinkRow)
  | .exchange .. => Except String (Option (Bool × Bool))
  | .deleteExpired _ => Except String Unit

def exec (env : Env) (i : Nat) : (o : StepUpOp) → Answer → World → Reply o × World
  | .now, _, w => (w.clock, w)
  | .random, x, w => (x.text, w)
  | .insertCode row, x, w => x.delivery.deliver w (w.insertCode row)
  | .send, x, w => x.delivery.deliver w ((), w)
  | .firebase, x, w => x.delivery.deliver w (x.text, w)
  | .deleteCode id, x, w => x.delivery.deliver w ((), w.deleteCode id)
  | .retireCodes row, x, w => x.delivery.deliver w ((), w.retireCodes env row)
  | .selectCode emailHash purpose subjectUid, x, w =>
    x.delivery.deliver w (w.selectCode emailHash purpose subjectUid x.pick, w)
  | .reserve id reading, x, w => x.delivery.deliver w (w.reserve i id reading)
  | .present ticket id emailHash presented, _, w =>
    (codeHash env id emailHash presented, w.present ticket id presented)
  | .claim id reading, x, w => x.delivery.deliver w (w.claim i id reading)
  | .releaseClaim id claimId, x, w => x.delivery.deliver w ((), w.releaseClaim id claimId)
  | .consumeCode id claimId reading, x, w =>
    x.delivery.deliver w (w.consumeCode i id claimId reading)
  | .openSession id claimId row reading, x, w =>
    x.delivery.deliver w (w.openSession i id claimId row reading)
  | .deleteSession id, x, w => x.delivery.deliver w ((), w.deleteSession id)
  | .spend uid tokenHash reading, x, w => x.delivery.deliver w (w.spend i uid tokenHash reading)
  | .selectSession uid tokenHash reading, x, w =>
    x.delivery.deliver w (w.sessions.rows.any (World.unspent uid tokenHash reading), w)
  | .insertLink row, x, w => x.delivery.deliver w (w.insertLink row)
  | .deleteLink id, x, w => x.delivery.deliver w ((), w.deleteLink id)
  | .retireLinks row, x, w => x.delivery.deliver w ((), w.retireLinks env row)
  | .selectLink tokenHash uid reading, x, w =>
    x.delivery.deliver w (w.links.rows.find? (World.selectable tokenHash uid reading), w)
  | .exchange id uid tokenHash row reading, x, w =>
    x.delivery.deliver w (w.exchange i id uid tokenHash row reading)
  | .deleteExpired cutoff, x, w => x.delivery.deliver w ((), w.deleteExpired cutoff)

end StepUpOp

/-! ### Handlers -/

abbrev StepUpHandler := Prog StepUpOp StepUpOp.Reply

def perform (o : StepUpOp) : StepUpHandler (StepUpOp.Reply o) := .perform o

/-- A statement that must not fail. -/
abbrev require {α : Type} (o : StepUpHandler (Except String α)) : StepUpHandler α :=
  o.bind Prog.ofExcept

structure Issued where
  expiresInSeconds : Nat
  resendAfterSeconds : Nat

def issueEmailCode (email : Text) (purpose : EmailCodePurpose) (subjectUid : Option Text) :
    StepUpHandler Issued := do
  if purpose = .stepUp ∧ missing subjectUid then Prog.throw "Step-up subject is required"
  else do
    let code ← perform .random
    let emailHash ← Prog.ofExcept (emailHash env email)
    let secret ← Prog.ofExcept (pepper env)
    let now ← perform .now
    let inserted ← require (perform (.insertCode fun id => {
      id, emailHash
      codeHash := env.hmacHex secret (codeMessage env id emailHash code)
      purpose, subjectUid
      maxAttempts := maxAttempts
      expiresAt := now + codeTtlMs
      createdAt := now }))
    match inserted with
    | none => Prog.throw "UNIQUE constraint failed: auth_email_codes.id"
    | some row => do
      (require (perform .send)).tryCatch fun error => do
        let _ ← perform (.deleteCode row.id)
        Prog.throw error
      require (perform (.retireCodes row))
      return { expiresInSeconds := codeTtlMs / 1000, resendAfterSeconds }

structure ClaimedCode where
  row : CodeRow
  claimId : ClaimId

def claimEmailCode (email code : Text) (purpose : EmailCodePurpose) (subjectUid : Option Text) :
    StepUpHandler ClaimedCode := do
  if ¬ sixDigits code then Prog.throw invalidCode
  else do
    let emailHash ← Prog.ofExcept (emailHash env email)
    let now ← perform .now
    let found ← require (perform (.selectCode emailHash purpose subjectUid))
    match found.filter fun row =>
        decide (now < row.expiresAt) && decide (row.attempts < row.maxAttempts) &&
          row.claimId.isNone with
    | none => Prog.throw invalidCode
    | some row => do
      let reserved ← require (perform (.reserve row.id now))
      match reserved with
      | none => Prog.throw invalidCode
      | some ticket => do
        let presentedHash ← require (perform (.present ticket row.id row.emailHash code))
        if presentedHash ≠ row.codeHash then Prog.throw invalidCode
        else do
          let claimed ← require (perform (.claim row.id now))
          match claimed with
          | none => Prog.throw invalidCode
          | some claimId => return { row, claimId }

/-- The body of a verification; if it fails, the claim is given back. -/
def orRelease {α : Type} (claim : ClaimedCode) (body : StepUpHandler α) : StepUpHandler α :=
  body.tryCatch fun error => do
    let _ ← perform (.releaseClaim claim.row.id claim.claimId)
    Prog.throw error

/-- The `try` block of `verifyEmailSignInCode`. -/
def completeSignIn (claim : ClaimedCode) : StepUpHandler Text := do
  let _ ← require (perform .firebase)
  let customToken ← require (perform .firebase)
  let now ← perform .now
  let consumed ← require (perform (.consumeCode claim.row.id claim.claimId now))
  if ¬ consumed then Prog.throw invalidCode else return customToken

def verifyEmailSignInCode (email code : Text) : StepUpHandler Text := do
  let claim ← claimEmailCode env email code .signin none
  orRelease claim (completeSignIn claim)

/-- The `try` block of `verifyEmailStepUpCode`. -/
def completeStepUp (claim : ClaimedCode) (uid stepUpToken tokenHash : Text) (now : Timestamp) :
    StepUpHandler Text := do
  let opened ← require (perform (.openSession claim.row.id claim.claimId (fun id => {
    id, uid, tokenHash, expiresAt := now + stepUpTtlMs, createdAt := now }) now))
  match opened with
  | none => Prog.throw "UNIQUE constraint failed: auth_step_up_sessions.token_hash"
  | some (false, session) => do
    let _ ← perform (.deleteSession session)
    Prog.throw invalidCode
  | some (true, _) => return stepUpToken

def verifyEmailStepUpCode (email code uid : Text) : StepUpHandler Text := do
  let claim ← claimEmailCode env email code .stepUp (some uid)
  let stepUpToken ← perform .random
  let tokenHash ← Prog.ofExcept (stepUpTokenHash env stepUpToken)
  let now ← perform .now
  orRelease claim (completeStepUp claim uid stepUpToken tokenHash now)

/-- `input.token?.trim() ?? ""`. -/
def presentedToken (token : Option Text) : Text := (token.map trim).getD []

def consumeRecoveryStepUp (uid : Text) (token : Option Text) : StepUpHandler Bool := do
  if ¬ opaqueToken (presentedToken token) then return false
  else do
    let hash ← Prog.ofExcept (stepUpTokenHash env (presentedToken token))
    let now ← perform .now
    require (perform (.spend uid hash now))

def validateRecoveryStepUp (uid : Text) (token : Option Text) : StepUpHandler Bool := do
  if ¬ opaqueToken (presentedToken token) then return false
  else do
    let hash ← Prog.ofExcept (stepUpTokenHash env (presentedToken token))
    let now ← perform .now
    require (perform (.selectSession uid hash now))

def issueRecoveryEmailLink (uid : Text) (action : RecoveryEmailLinkAction) :
    StepUpHandler Issued := do
  let challenge ← perform .random
  let tokenHash ← Prog.ofExcept (challengeTokenHash env challenge)
  let now ← perform .now
  let inserted ← require (perform (.insertLink fun id => {
    id, uid, action, tokenHash
    expiresAt := now + recoveryLinkTtlSeconds * 1000, createdAt := now }))
  match inserted with
  | none => Prog.throw "UNIQUE constraint failed: auth_email_link_challenges.token_hash"
  | some row => do
    (require (perform .send)).tryCatch fun error => do
      let _ ← perform (.deleteLink row.id)
      Prog.throw error
    require (perform (.retireLinks row))
    return { expiresInSeconds := recoveryLinkTtlSeconds, resendAfterSeconds }

/-- `recentEnoughAuthTime`, for a time that is a safe integer other than zero. -/
def recentEnoughAuthTime (authTime : Option Int) (createdAt now : Timestamp) : Bool :=
  match authTime with
  | none => false
  | some authTime =>
    decide (authTime ≠ 0) && decide (authTime.natAbs < 2 ^ 53) &&
      decide ((createdAt / 1000 : Nat) - 5 ≤ authTime) &&
      decide (authTime ≤ (now / 1000 : Nat) + 60) &&
      decide ((now / 1000 : Nat) - authTime ≤ recoveryLinkTtlSeconds + 60)

structure Exchanged where
  stepUpToken : Text
  action : RecoveryEmailLinkAction
  expiresInSeconds : Nat

def exchangeRecoveryEmailLink (uid challenge : Text) (authTime : Option Int) :
    StepUpHandler Exchanged := do
  if ¬ opaqueToken challenge then Prog.throw invalidChallenge
  else do
    let tokenHash ← Prog.ofExcept (challengeTokenHash env challenge)
    let now ← perform .now
    let found ← require (perform (.selectLink tokenHash uid now))
    match found with
    | none => Prog.throw invalidChallenge
    | some row => do
      let later ← perform .now
      if ¬ recentEnoughAuthTime authTime row.createdAt later then Prog.throw invalidChallenge
      else do
        let stepUpToken ← perform .random
        let stepUpHash ← Prog.ofExcept (stepUpTokenHash env stepUpToken)
        let exchanged ← require (perform (.exchange row.id uid tokenHash (fun id => {
          id, uid, tokenHash := stepUpHash, expiresAt := now + stepUpTtlMs, createdAt := now })
          now))
        match exchanged with
        | some (true, true) =>
          return { stepUpToken, action := row.action, expiresInSeconds := stepUpTtlMs / 1000 }
        | some _ => Prog.throw invalidChallenge
        | none => Prog.throw "UNIQUE constraint failed: auth_step_up_sessions.token_hash"

def deleteExpiredEmailCodes : StepUpHandler Unit := do
  let now ← perform .now
  require (perform (.deleteExpired (now - 24 * 60 * 60 * 1000)))

/-! ### The system -/

inductive StepUpCall
  | signInCode (email : Text)
  | stepUpCode (email uid : Text)
  | signIn (email code : Text)
  | stepUp (email code uid : Text)
  | consume (uid : Text) (token : Option Text)
  | validate (uid : Text) (token : Option Text)
  | recoveryLink (uid : Text) (action : RecoveryEmailLinkAction)
  | exchange (uid challenge : Text) (authTime : Option Int)
  | cleanUp

inductive Response
  | issued (r : Issued)
  | signedIn (email code customToken : Text)
  | steppedUp (email code uid stepUpToken : Text)
  | consumed (uid : Text) (token : Option Text) (ok : Bool)
  | valid (ok : Bool)
  | exchanged (uid challenge : Text) (r : Exchanged)
  | cleaned

/-- The handler of a request, with what it was asked for. -/
def StepUpCall.body : StepUpCall → StepUpHandler Response
  | .signInCode email => do
    let issued ← issueEmailCode env email .signin none
    return .issued issued
  | .stepUpCode email uid => do
    let issued ← issueEmailCode env email .stepUp (some uid)
    return .issued issued
  | .signIn email code => do
    let customToken ← verifyEmailSignInCode env email code
    return .signedIn email code customToken
  | .stepUp email code uid => do
    let stepUpToken ← verifyEmailStepUpCode env email code uid
    return .steppedUp email code uid stepUpToken
  | .consume uid token => do
    let ok ← consumeRecoveryStepUp env uid token
    return .consumed uid token ok
  | .validate uid token => do
    let ok ← validateRecoveryStepUp env uid token
    return .valid ok
  | .recoveryLink uid action => do
    let issued ← issueRecoveryEmailLink env uid action
    return .issued issued
  | .exchange uid challenge authTime => do
    let exchanged ← exchangeRecoveryEmailLink env uid challenge authTime
    return .exchanged uid challenge exchanged
  | .cleanUp => do
    deleteExpiredEmailCodes
    return .cleaned

def stepUpSystem : System StepUpOp StepUpOp.Reply World Answer Tick StepUpCall Response where
  exec := StepUpOp.exec env
  env t w := { w with clock := w.clock + t }
  body := StepUpCall.body env

/-- What happens, with the ends of handlers that die. -/
abbrev StepUpHistory := List (Happening Answer Tick StepUpCall)

/-- What a history leads to. -/
def stepUpRun (clock : Timestamp) (es : StepUpHistory) :
    Pool StepUpOp StepUpOp.Reply World Response :=
  (stepUpSystem env).mortal.run ⟨.initial clock, []⟩ es

end ParmeliaLinks.Auth.StepUp
