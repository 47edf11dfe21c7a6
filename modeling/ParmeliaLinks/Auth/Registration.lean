/-
ParmeliaLinks/Auth/Registration.lean

One-time WebAuthn registrations.  A challenge is issued for a user and a purpose,
claimed by a request that holds a response of the browser, and completed with the
credential once the response has been verified.  A request that fails after its
claim gives it back; a completed row answers replays of the same credential.

The verification of a response belongs to a library, which is a parameter
(`Verifier`): it accepts a response for the challenge, the origin and the relying
party of the options only.

History variables, which no statement reads: `owner` tells who has drawn an id,
`issued` holds the rows as they were inserted, `notes` every claim with the thread that
made it, `bound` every completion, `verifications` counts the calls of the library for
rows that were not finalized, and `superseded` tells which rows the issue of a newer
challenge has closed.
-/
import ParmeliaLinks.Lib.Delivery
import ParmeliaLinks.Lib.RelyGuarantee
import ParmeliaLinks.Lib.Table

namespace ParmeliaLinks.Auth

/-- A random UUID. -/
abbrev RegistrationId := Nat
abbrev ClaimId := Nat
/-- Thirty-two random bytes. -/
abbrev Challenge := Nat
/-- Milliseconds since the epoch. -/
abbrev Timestamp := Nat
/-- A text that is inspected character by character. -/
abbrev Text := List Char

/-! ### Rows, requests and responses -/

inductive WebAuthnRegistrationPurpose
  | accountCreate | passkeyAdd | recoveryPropose
  deriving DecidableEq

inductive CredentialDeviceType
  | singleDevice | multiDevice
  deriving DecidableEq

inductive AuthenticatorAttachment
  | platform | crossPlatform
  deriving DecidableEq

/-- `webauthn_registration_challenges`. -/
structure RegistrationRow where
  id : RegistrationId
  uid : String
  purpose : WebAuthnRegistrationPurpose
  challenge : Challenge
  expectedOrigin : String
  expectedRpId : Option String
  credentialId : Option Text := none
  qx : Option Text := none
  qy : Option Text := none
  name : Option Text := none
  transports : Option (List String) := none
  aaguid : Option String := none
  providerName : Option String := none
  credentialDeviceType : Option CredentialDeviceType := none
  credentialBackedUp : Option Bool := none
  authenticatorAttachment : Option AuthenticatorAttachment := none
  claimId : Option ClaimId := none
  claimedAt : Option Timestamp := none
  verificationAttempts : Nat := 0
  finalizedAt : Option Timestamp := none
  consumedAt : Option Timestamp := none
  expiresAt : Timestamp
  createdAt : Timestamp

instance : Row RegistrationRow where
  clash r r' := r.id == r'.id
  clash_comm _ _ := Bool.beq_comm

/-- What the browser sends back.  Without an id it names no registration. -/
structure WebAuthnRegistrationCredential where
  registrationId : Option RegistrationId
  credentialId : Text
  qx : Text
  qy : Text
  clientDataJSON : Text
  attestationObject : Text
  authenticatorAttachment : Option AuthenticatorAttachment
  transports : Option (List String)
  name : Option Text

structure FinalizedWebAuthnRegistration where
  registrationId : RegistrationId
  credentialId : Text
  qx : Text
  qy : Text
  name : Option Text
  transports : List String
  rpId : Option String
  aaguid : Option String
  providerName : Option String
  credentialDeviceType : Option CredentialDeviceType
  credentialBackedUp : Option Bool
  authenticatorAttachment : Option AuthenticatorAttachment
  deriving DecidableEq

/-! ### The library -/

/-- The options given to `verifyRegistrationResponse`. -/
structure VerifyOptions where
  expectedChallenge : Challenge
  expectedOrigin : String
  expectedRPID : String
  deriving DecidableEq

/-- The response given to it. -/
structure RegistrationResponse where
  id : Text
  clientDataJSON : Text
  attestationObject : Text
  transports : List String
  authenticatorAttachment : Option AuthenticatorAttachment
  deriving DecidableEq

/-- What it finds in the response.  `publicKey` holds the coordinates as lower-case
hexadecimals when the key is an ES256 key on P-256. -/
structure RegistrationInfo where
  fmt : String
  credentialId : Text
  publicKey : Option (Text × Text)
  aaguid : String
  credentialDeviceType : CredentialDeviceType
  credentialBackedUp : Bool

/-- The library and the data that the client signs: a response is accepted for the
options that it was made for only. -/
structure Verifier where
  verifyRegistrationResponse : VerifyOptions → RegistrationResponse → Option RegistrationInfo
  madeFor : RegistrationResponse → VerifyOptions
  accepts : ∀ o r i, verifyRegistrationResponse o r = some i → madeFor r = o

/-- The configuration. -/
structure Env where
  rpId : String
  originMatchesPasskeyRpId : String → String → Bool
  passkeyProviderMetadata : String → Option String × Option String
  verifier : Verifier

/-! ### Checks -/

/-- `BASE64URL_RE`, over single characters. -/
def isBase64Url (c : Char) : Bool :=
  ('A' ≤ c && c ≤ 'Z') || ('a' ≤ c && c ≤ 'z') || c.isDigit || c == '_' || c == '-'

def isHexDigit (c : Char) : Bool :=
  c.isDigit || ('a' ≤ c && c ≤ 'f') || ('A' ≤ c && c ≤ 'F')

/-- `CREDENTIAL_ID_RE`. -/
def validCredentialId (s : Text) : Bool :=
  8 ≤ s.length && s.length ≤ 1024 && s.all isBase64Url

/-- `COORDINATE_RE`. -/
def validCoordinate (s : Text) : Bool :=
  s.take 2 == ['0', 'x'] && s.length == 66 && (s.drop 2).all isHexDigit

def registrationTtlMs : Nat := 5 * 60 * 1000
def clientDataMaxLength : Nat := 8192
def attestationObjectMaxLength : Nat := 64 * 1024
def maxVerificationAttempts : Nat := 5

/-- The text is base64url of at most the length. -/
def encodedText (s : Text) (max : Nat) : Bool :=
  0 < s.length && s.length ≤ max && s.all isBase64Url

def validEncodedResponse (c : WebAuthnRegistrationCredential) : Bool :=
  encodedText c.clientDataJSON clientDataMaxLength &&
    encodedText c.attestationObject attestationObjectMaxLength

/-- The white space that `trim` removes. -/
def isWhiteSpace (c : Char) : Bool :=
  [0x9, 0xA, 0xB, 0xC, 0xD, 0x20, 0xA0, 0x1680, 0x2028, 0x2029, 0x202F, 0x205F, 0x3000,
    0xFEFF].contains c.toNat || (0x2000 ≤ c.toNat && c.toNat ≤ 0x200A)

def trim (s : Text) : Text :=
  ((s.dropWhile isWhiteSpace).reverse.dropWhile isWhiteSpace).reverse

def normalizedName (value : Option Text) : Option Text :=
  match value with
  | none => none
  | some value => if trim value = [] then none else some ((trim value).take 64)

def allowedTransports : List String :=
  ["ble", "cable", "hybrid", "internal", "nfc", "smart-card", "usb"]

/-- The first occurrence of each entry, as a `Set` keeps them. -/
def distinct (entries : List String) : List String :=
  entries.foldl (fun seen entry => if seen.contains entry then seen else seen ++ [entry]) []

def normalizedTransports (value : Option (List String)) : List String :=
  (distinct ((value.getD []).filter fun entry => allowedTransports.contains entry)).take 8

/-- A column counts as set when it holds a text other than the empty one. -/
def present {α : Type} [DecidableEq α] (empty : α) (value : Option α) : Option α :=
  value.filter (· ≠ empty)

def finalizedFromRow (row : RegistrationRow) : Option FinalizedWebAuthnRegistration := do
  let credentialId ← present [] row.credentialId
  let qx ← present [] row.qx
  let qy ← present [] row.qy
  let _ ← row.finalizedAt
  let _ ← row.consumedAt
  return {
    registrationId := row.id
    credentialId, qx, qy
    name := row.name
    transports := normalizedTransports row.transports
    rpId := row.expectedRpId
    aaguid := row.aaguid
    providerName := row.providerName
    credentialDeviceType := row.credentialDeviceType
    credentialBackedUp := row.credentialBackedUp
    authenticatorAttachment := row.authenticatorAttachment }

/-- What `verifyCredentialResponse` returns. -/
structure VerifiedResponse where
  qx : Text
  qy : Text
  aaguid : Option String
  providerName : Option String
  credentialDeviceType : CredentialDeviceType
  credentialBackedUp : Bool
  authenticatorAttachment : Option AuthenticatorAttachment

/-- The response as the library reads it. -/
def WebAuthnRegistrationCredential.response (c : WebAuthnRegistrationCredential) :
    RegistrationResponse where
  id := c.credentialId
  clientDataJSON := c.clientDataJSON
  attestationObject := c.attestationObject
  transports := normalizedTransports c.transports
  authenticatorAttachment := c.authenticatorAttachment

/-- What `verifyCredentialResponse` makes of the answer of the library. -/
def acceptResponse (env : Env) (c : WebAuthnRegistrationCredential) (info : RegistrationInfo) :
    Option VerifiedResponse := do
  guard (info.fmt = "none" ∧ info.credentialId = c.credentialId)
  let (qx, qy) ← info.publicKey
  guard (qx = c.qx.map Char.toLower ∧ qy = c.qy.map Char.toLower)
  let (aaguid, providerName) := env.passkeyProviderMetadata info.aaguid
  return {
    qx, qy, aaguid, providerName
    credentialDeviceType := info.credentialDeviceType
    credentialBackedUp := info.credentialBackedUp
    authenticatorAttachment := c.authenticatorAttachment }

/-- The relying party for which the row accepts a response. -/
def verifiableRpId (env : Env) (row : RegistrationRow) (c : WebAuthnRegistrationCredential) :
    Option String := do
  guard (validEncodedResponse c)
  let rpId ← present "" row.expectedRpId
  guard (env.originMatchesPasskeyRpId row.expectedOrigin rpId)
  return rpId

/-- `new InvalidWebAuthnRegistrationError()`. -/
def invalidRegistration : String := "WebAuthn registration is invalid or expired"

/-! ### The world -/

/-- A claim: the thread that made it, the reading of the clock it was made with and
the time at which it was made. -/
structure ClaimNote where
  claim : ClaimId
  registration : RegistrationId
  thread : Nat
  reading : Timestamp
  moment : Timestamp
  checked : Bool := false
  deriving DecidableEq

/-- A completion, with the response that was verified. -/
structure Binding where
  registration : RegistrationId
  claim : ClaimId
  credentialId : Text
  qx : Text
  qy : Text
  response : RegistrationResponse
  deriving DecidableEq

structure World where
  clock : Timestamp
  /-- Random values are numbered; none is drawn twice. -/
  drawn : Nat
  owner : RegistrationId → Option Nat
  rows : Table RegistrationRow
  issued : List RegistrationRow
  notes : List ClaimNote
  bound : List Binding
  verifications : RegistrationId → Nat
  superseded : RegistrationId → Bool

def World.initial (clock : Timestamp) : World where
  clock := clock
  drawn := 0
  owner _ := none
  rows := .empty
  issued := []
  notes := []
  bound := []
  verifications _ := 0
  superseded _ := false

namespace World

variable (w : World)

def rowOf (id : RegistrationId) (uid : String) (purpose : WebAuthnRegistrationPurpose)
    (row : RegistrationRow) : Bool :=
  row.id == id && row.uid == uid && row.purpose == purpose

/-- The open challenges of a user for a purpose. -/
def openFor (uid : String) (purpose : WebAuthnRegistrationPurpose) (row : RegistrationRow) :
    Bool :=
  row.uid == uid && row.purpose == purpose && row.consumedAt.isNone

/-- The batch of `issueWebAuthnRegistration`. -/
def issue (row : RegistrationRow) : Bool × World :=
  let closed := w.rows.modify (openFor row.uid row.purpose)
    (fun r => { r with consumedAt := some row.createdAt }) ⟨fun _ _ => rfl⟩
  match closed.insert row with
  | none => (false, w)
  | some rows =>
    (true, { w with
      rows
      issued := w.issued ++ [row]
      superseded := fun id =>
        w.superseded id || w.rows.any fun r => r.id == id && openFor row.uid row.purpose r })

/-- The rows that the update of `claimWebAuthnRegistration` matches. -/
def claimable (id : RegistrationId) (uid : String) (purpose : WebAuthnRegistrationPurpose)
    (now : Timestamp) (row : RegistrationRow) : Bool :=
  rowOf id uid purpose row && row.claimId.isNone && row.consumedAt.isNone &&
    decide (now < row.expiresAt) && decide (row.verificationAttempts < maxVerificationAttempts)

def claimedRow (claimId : ClaimId) (now : Timestamp) (r : RegistrationRow) : RegistrationRow :=
  { r with
    claimId := some claimId, claimedAt := some now
    verificationAttempts := r.verificationAttempts + 1 }

def claim (thread : Nat) (id : RegistrationId) (uid : String)
    (purpose : WebAuthnRegistrationPurpose) (claimId : ClaimId) (now : Timestamp) :
    Option ClaimId × World :=
  if w.rows.changes (claimable id uid purpose now) = 1 then
    (some claimId, { w with
      rows := w.rows.modify (claimable id uid purpose now) (claimedRow claimId now)
        ⟨fun _ _ => rfl⟩
      notes := w.notes ++ [{
        claim := claimId, registration := id, thread, reading := now, moment := w.clock }] })
  else (none, w)

/-- The rows that a claim holds. -/
def heldBy (id : RegistrationId) (claimId : ClaimId) (row : RegistrationRow) : Bool :=
  row.id == id && row.claimId == some claimId && row.consumedAt.isNone

/-- What completes a registration. -/
structure Completion where
  id : RegistrationId
  claimId : ClaimId
  credentialId : Text
  verified : VerifiedResponse
  name : Option Text
  transports : List String
  finalizedAt : Timestamp
  /-- For the history. -/
  response : RegistrationResponse

def Completion.apply (c : Completion) (r : RegistrationRow) : RegistrationRow :=
  { r with
    credentialId := some c.credentialId
    qx := some c.verified.qx
    qy := some c.verified.qy
    name := c.name
    transports := some c.transports
    aaguid := c.verified.aaguid
    providerName := c.verified.providerName
    credentialDeviceType := some c.verified.credentialDeviceType
    credentialBackedUp := some c.verified.credentialBackedUp
    authenticatorAttachment := c.verified.authenticatorAttachment
    finalizedAt := some c.finalizedAt
    consumedAt := some c.finalizedAt }

def complete (c : Completion) : Bool × World :=
  if w.rows.changes (heldBy c.id c.claimId) = 1 then
    (true, { w with
      rows := w.rows.modify (heldBy c.id c.claimId) c.apply ⟨fun _ _ => rfl⟩
      bound := w.bound ++ [{
        registration := c.id, claim := c.claimId, credentialId := c.credentialId
        qx := c.verified.qx, qy := c.verified.qy, response := c.response }] })
  else (false, w)

/-- The update of `releaseWebAuthnRegistration`. -/
def release (id : RegistrationId) (claimId : ClaimId) : World :=
  { w with
    rows := w.rows.modify (heldBy id claimId)
      (fun r => { r with claimId := none, claimedAt := none }) ⟨fun _ _ => rfl⟩ }

/-- The update of the metadata of a finalized row. -/
def describe (id : RegistrationId) (uid : String) (v : VerifiedResponse) : World :=
  { w with
    rows := w.rows.modify (fun r => r.id == id && r.uid == uid && r.finalizedAt.isSome)
      (fun r =>
        { r with
          aaguid := v.aaguid, providerName := v.providerName
          credentialDeviceType := some v.credentialDeviceType
          credentialBackedUp := some v.credentialBackedUp
          authenticatorAttachment := v.authenticatorAttachment })
      ⟨fun _ _ => rfl⟩ }

/-- `deleteExpiredWebAuthnRegistrations`. -/
def deleteExpired (cutoff : Timestamp) : World :=
  { w with rows := w.rows.delete fun r => decide (r.expiresAt < cutoff) }

/-- The library is called for a row that was read unfinalized, under a claim. -/
def verifying (claimId : ClaimId) (id : RegistrationId) : World :=
  { w with
    verifications := fun id' => if id' = id then w.verifications id + 1 else w.verifications id'
    notes := w.notes.map fun n => if n.claim = claimId then { n with checked := true } else n }

end World

/-! ### Operations -/

/-- A passkey of the user, for the list of excluded credentials. -/
structure Passkey where
  credentialId : Text
  transports : List String
  rpId : Option String

/-- What `issueWebAuthnRegistration` draws at random, and the time. -/
structure Draw where
  id : RegistrationId
  challenge : Challenge
  now : Timestamp

inductive RegistrationOp
  | now
  | draw
  | listPasskeys (uid : String)
  | issue (row : RegistrationRow)
  | select (id : RegistrationId) (uid : String) (purpose : WebAuthnRegistrationPurpose)
  -- the id of the claim is drawn with the statement
  | claim (id : RegistrationId) (uid : String) (purpose : WebAuthnRegistrationPurpose)
      (reading : Timestamp)
  -- a call of the library, for a row that is not finalized under a claim
  | verify (claimId : Option ClaimId) (id : RegistrationId) (options : VerifyOptions)
      (response : RegistrationResponse)
  | complete (c : World.Completion)
  | release (id : RegistrationId) (claimId : ClaimId)
  | describe (id : RegistrationId) (uid : String) (v : VerifiedResponse)
  | deleteExpired (cutoff : Timestamp)

/-- What the outside contributes: the fate of a statement, and the other tables. -/
structure Answer where
  delivery : Delivery := .done
  passkeys : List Passkey := []

namespace RegistrationOp

abbrev Reply : RegistrationOp → Type
  | .now => Timestamp
  | .draw => Draw
  | .listPasskeys _ => Except String (List Passkey)
  | .issue _ => Except String Bool
  | .select .. => Except String (Option RegistrationRow)
  | .claim .. => Except String (Option ClaimId)
  | .verify .. => Option RegistrationInfo
  | .complete _ => Except String Bool
  | .release .. => Except String Unit
  | .describe .. => Except String Unit
  | .deleteExpired _ => Except String Unit

def exec (env : Env) (i : Nat) : (o : RegistrationOp) → Answer → World → Reply o × World
  | .now, _, w => (w.clock, w)
  | .draw, _, w =>
    (⟨w.drawn, w.drawn + 1, w.clock⟩,
      { w with
        drawn := w.drawn + 2
        owner := fun id => if id = w.drawn then some i else w.owner id })
  | .listPasskeys _, x, w => x.delivery.deliver w (x.passkeys, w)
  | .issue row, x, w => x.delivery.deliver w (w.issue row)
  | .select id uid purpose, x, w =>
    x.delivery.deliver w (w.rows.find? (World.rowOf id uid purpose), w)
  | .claim id uid purpose reading, x, w =>
    let drawn := { w with drawn := w.drawn + 1 }
    x.delivery.deliver drawn (drawn.claim i id uid purpose w.drawn reading)
  | .verify claimId id options response, _, w =>
    (env.verifier.verifyRegistrationResponse options response,
      match claimId with
      | none => w
      | some claimId => w.verifying claimId id)
  | .complete c, x, w => x.delivery.deliver w (w.complete c)
  | .release id claimId, x, w => x.delivery.deliver w ((), w.release id claimId)
  | .describe id uid v, x, w => x.delivery.deliver w ((), w.describe id uid v)
  | .deleteExpired cutoff, x, w => x.delivery.deliver w ((), w.deleteExpired cutoff)

end RegistrationOp

/-! ### Handlers -/

abbrev RegistrationHandler := Prog RegistrationOp RegistrationOp.Reply

def perform (o : RegistrationOp) : RegistrationHandler (RegistrationOp.Reply o) := .perform o

variable (env : Env)

structure IssuedRegistration where
  registrationId : RegistrationId
  challenge : Challenge
  expiresInSeconds : Nat
  rpId : String
  excludeCredentials : List (Text × List String)

def issueWebAuthnRegistration (uid : String) (purpose : WebAuthnRegistrationPurpose)
    (expectedOrigin : String) : RegistrationHandler IssuedRegistration := do
  let ⟨id, challenge, now⟩ ← perform .draw
  if ¬ env.originMatchesPasskeyRpId expectedOrigin env.rpId then
    Prog.throw "WebAuthn origin is outside the configured RP ID"
  else do
    let existing ← perform (.listPasskeys uid)
    let existingPasskeys ← Prog.ofExcept existing
    let inserted ← perform (.issue {
      id, uid, purpose, challenge, expectedOrigin, expectedRpId := some env.rpId
      expiresAt := now + registrationTtlMs, createdAt := now })
    match inserted with
    | .error m => Prog.throw m
    | .ok false => Prog.throw "UNIQUE constraint failed: webauthn_registration_challenges.id"
    | .ok true =>
      return {
        registrationId := id
        challenge
        expiresInSeconds := registrationTtlMs / 1000
        rpId := env.rpId
        excludeCredentials := (existingPasskeys.filter fun p =>
            (present "" p.rpId).isNone || p.rpId == some env.rpId).map
          fun p => (p.credentialId, p.transports) }

def readRegistration (registrationId : Option RegistrationId) (uid : String)
    (purpose : WebAuthnRegistrationPurpose) : RegistrationHandler (Option RegistrationRow) :=
  match registrationId with
  | none => return none
  | some id => do
    let row ← perform (.select id uid purpose)
    Prog.ofExcept row

/-- `verifyCredentialResponse`, for a row that was claimed or for one that is
finalized. -/
def verifyCredentialResponse (claimId : Option ClaimId) (row : RegistrationRow)
    (credential : WebAuthnRegistrationCredential) : RegistrationHandler VerifiedResponse :=
  match verifiableRpId env row credential with
  | none => Prog.throw invalidRegistration
  | some rpId => do
    let options : VerifyOptions := {
      expectedChallenge := row.challenge, expectedOrigin := row.expectedOrigin
      expectedRPID := rpId }
    let info ← perform (.verify claimId row.id options credential.response)
    match info.bind (acceptResponse env credential) with
    | none => Prog.throw invalidRegistration
    | some verified => return verified

structure Claim where
  registrationId : RegistrationId
  claimId : ClaimId
  row : RegistrationRow

/-- What `claimWebAuthnRegistration` asks of the request. -/
def admissible (credential : WebAuthnRegistrationCredential) : Bool :=
  validCredentialId credential.credentialId && validCoordinate credential.qx &&
    validCoordinate credential.qy && validEncodedResponse credential

def claimWebAuthnRegistration (uid : String) (purpose : WebAuthnRegistrationPurpose)
    (credential : WebAuthnRegistrationCredential) : RegistrationHandler Claim :=
  match credential.registrationId with
  | none => Prog.throw invalidRegistration
  | some id =>
    if ¬ admissible credential then Prog.throw invalidRegistration
    else do
      let now ← perform .now
      let found ← perform (.select id uid purpose)
      let row ← Prog.ofExcept found
      match row.filter fun row =>
          row.consumedAt.isNone && row.claimId.isNone && decide (now < row.expiresAt) &&
            decide (row.verificationAttempts < maxVerificationAttempts) with
      | none => Prog.throw invalidRegistration
      | some row => do
        let claimed ← perform (.claim row.id uid purpose now)
        match claimed with
        | .error m => Prog.throw m
        | .ok none => Prog.throw invalidRegistration
        | .ok (some claimId) => return { registrationId := row.id, claimId, row }

def releaseWebAuthnRegistration (claim : Claim) : RegistrationHandler Unit := do
  let released ← perform (.release claim.registrationId claim.claimId)
  Prog.ofExcept released

/-- A replay for a row that is finalized. -/
def replayFinalized (uid : String) (existing : RegistrationRow)
    (alreadyFinalized : FinalizedWebAuthnRegistration)
    (credential : WebAuthnRegistrationCredential) :
    RegistrationHandler FinalizedWebAuthnRegistration := do
  let verified ← verifyCredentialResponse env none existing credential
  if alreadyFinalized.credentialId ≠ credential.credentialId ∨
      alreadyFinalized.qx.map Char.toLower ≠ verified.qx ∨
      alreadyFinalized.qy.map Char.toLower ≠ verified.qy then
    Prog.throw invalidRegistration
  else if alreadyFinalized.credentialDeviceType = none ∨
      alreadyFinalized.credentialBackedUp = none then do
    let described ← perform (.describe alreadyFinalized.registrationId uid verified)
    Prog.ofExcept described
    return { alreadyFinalized with
      aaguid := verified.aaguid
      providerName := verified.providerName
      credentialDeviceType := some verified.credentialDeviceType
      credentialBackedUp := some verified.credentialBackedUp
      authenticatorAttachment := verified.authenticatorAttachment }
  else return alreadyFinalized

/-- The `try` block of `finalizeWebAuthnRegistration`. -/
def completeClaim (claim : Claim) (finalizedAt : Timestamp)
    (credential : WebAuthnRegistrationCredential) :
    RegistrationHandler FinalizedWebAuthnRegistration := do
  let name := normalizedName credential.name
  let transports := normalizedTransports credential.transports
  let verified ← verifyCredentialResponse env (some claim.claimId) claim.row credential
  let completed ← perform (.complete {
    id := claim.registrationId, claimId := claim.claimId
    credentialId := credential.credentialId, verified, name, transports, finalizedAt
    response := credential.response })
  match completed with
  | .error m => Prog.throw m
  | .ok false => Prog.throw invalidRegistration
  | .ok true =>
    return {
      registrationId := claim.registrationId
      credentialId := credential.credentialId
      qx := verified.qx
      qy := verified.qy
      name, transports
      rpId := claim.row.expectedRpId
      aaguid := verified.aaguid
      providerName := verified.providerName
      credentialDeviceType := some verified.credentialDeviceType
      credentialBackedUp := some verified.credentialBackedUp
      authenticatorAttachment := verified.authenticatorAttachment }

def finalizeWebAuthnRegistration (uid : String) (purpose : WebAuthnRegistrationPurpose)
    (credential : WebAuthnRegistrationCredential) :
    RegistrationHandler FinalizedWebAuthnRegistration := do
  let existing ← readRegistration credential.registrationId uid purpose
  match existing.bind fun row => (finalizedFromRow row).map fun f => (row, f) with
  | some (row, alreadyFinalized) => replayFinalized env uid row alreadyFinalized credential
  | none => do
    let claim ← claimWebAuthnRegistration uid purpose credential
    let finalizedAt ← perform .now
    (completeClaim env claim finalizedAt credential).tryCatch fun error => do
      let _ ← (releaseWebAuthnRegistration claim).attempt
      Prog.throw error

def getFinalizedWebAuthnRegistration (registrationId : Option RegistrationId) (uid : String)
    (purpose : WebAuthnRegistrationPurpose) :
    RegistrationHandler (Option FinalizedWebAuthnRegistration) := do
  let row ← readRegistration registrationId uid purpose
  return row.bind finalizedFromRow

def deleteExpiredWebAuthnRegistrations : RegistrationHandler Unit := do
  let now ← perform .now
  let deleted ← perform (.deleteExpired (now - 24 * 60 * 60 * 1000))
  Prog.ofExcept deleted

/-! ### The system -/

inductive RegistrationCall
  | issue (uid : String) (purpose : WebAuthnRegistrationPurpose) (expectedOrigin : String)
  | finalize (uid : String) (purpose : WebAuthnRegistrationPurpose)
      (credential : WebAuthnRegistrationCredential)
  | getFinalized (registrationId : Option RegistrationId) (uid : String)
      (purpose : WebAuthnRegistrationPurpose)
  | cleanUp

inductive Response
  | issued (r : IssuedRegistration)
  | finalized (f : FinalizedWebAuthnRegistration)
  | found (f : Option FinalizedWebAuthnRegistration)
  | cleaned

def RegistrationCall.body : RegistrationCall → RegistrationHandler Response
  | .issue uid purpose origin => do
    let r ← issueWebAuthnRegistration env uid purpose origin
    return .issued r
  | .finalize uid purpose credential => do
    let f ← finalizeWebAuthnRegistration env uid purpose credential
    return .finalized f
  | .getFinalized id uid purpose => do
    let f ← getFinalizedWebAuthnRegistration id uid purpose
    return .found f
  | .cleanUp => do
    deleteExpiredWebAuthnRegistrations
    return .cleaned

/-- Time passes. -/
abbrev Tick := Nat

def registrationSystem : System RegistrationOp RegistrationOp.Reply World Answer Tick
    RegistrationCall Response where
  exec := RegistrationOp.exec env
  env t w := { w with clock := w.clock + t }
  body := RegistrationCall.body env

abbrev RegistrationSchedule := List (Label Answer Tick RegistrationCall)

end ParmeliaLinks.Auth
