/-
ParmeliaLinks/Jobs/WebhookSecrets.lean

The secrets of the webhook endpoints.  A secret is stored encrypted, with the identifier of its
key beside it.  The second format of the ciphertext repeats the identifier and authenticates it;
the first has neither.  The keyring is the active key and the previous ones.

Main result: what `encryptWebhookSecret` writes, `decryptWebhookSecret` reads
(`decrypt_encrypted`), a byte order mark at the front apart, which the decoder of texts leaves
out.
-/
import Mathlib.Data.List.TakeWhile
import ParmeliaLinks.Lib.Base64
import ParmeliaLinks.Lib.Prog

namespace ParmeliaLinks.Jobs.Secrets

open Base64 (Byte)

abbrev Bytes := List Byte

/-- AES-GCM, and what the decoder of texts makes of bytes that are no UTF-8. -/
structure Platform where
  encrypt (key nonce additionalData plaintext : Bytes) : Bytes
  decrypt (key nonce additionalData ciphertext : Bytes) : Option Bytes
  replaced : Bytes → Text
  decrypt_encrypt : ∀ key nonce additionalData plaintext,
    decrypt key nonce additionalData (encrypt key nonce additionalData plaintext) = some plaintext
  -- the tag is part of the ciphertext
  encrypt_ne_nil : ∀ key nonce additionalData plaintext,
    encrypt key nonce additionalData plaintext ≠ []

/-! ### Texts and bytes -/

/-- `TextEncoder`. -/
def encodeText (s : Text) : Bytes := (s.flatMap String.utf8EncodeChar).map UInt8.toFin

/-- A text without the byte order mark at its front. -/
def withoutMark : Text → Text
  | '\uFEFF' :: s => s
  | s => s

/-- `TextDecoder`. -/
def decodeText (p : Platform) (bytes : Bytes) : Text :=
  match ((bytes.map UInt8.ofFin).toByteArray).utf8Decode? with
  | some chars => withoutMark chars.toList
  | none => p.replaced bytes

theorem decodeText_encodeText (p : Platform) (s : Text) :
    decodeText p (encodeText s) = withoutMark s := by
  have bytes : ((encodeText s).map UInt8.ofFin).toByteArray = s.utf8Encode := by
    simp [encodeText, List.utf8Encode, Function.comp_def]
  rw [decodeText, bytes, List.utf8Decode?_utf8Encode]

/-- Whether a text begins with a byte order mark. -/
def marked : Text → Bool
  | '\uFEFF' :: _ => true
  | _ => false

theorem withoutMark_of_not_marked {s : Text} (h : marked s = false) : withoutMark s = s := by
  unfold withoutMark
  split
  · cases h
  · rfl

/-! ### Keys -/

abbrev KeyId := Text

/-- `WEBHOOK_SECRET_ENCRYPTION_KEYS_PREVIOUS`: blank, no object, or the entries of an object. -/
inductive Keyring
  | absent
  | malformed
  /-- `none` is a value that is no text. -/
  | entries (es : List (Text × Option Text))

structure Bindings where
  /-- `WEBHOOK_SECRET_ENCRYPTION_KEY_ID`. -/
  keyId : Option Text
  /-- `WEBHOOK_SECRET_ENCRYPTION_KEY`. -/
  key : Option Text
  keysPrevious : Keyring

/-- The white space that `trim` takes off. -/
def whitespace (c : Char) : Bool :=
  c == ' ' || ('\t' ≤ c && c ≤ '\r') || c == '\u00A0' || c == '\u1680' ||
    ('\u2000' ≤ c && c ≤ '\u200A') || c == '\u2028' || c == '\u2029' || c == '\u202F' ||
    c == '\u205F' || c == '\u3000' || c == '\uFEFF'

def trim (t : Text) : Text := ((t.dropWhile whitespace).reverse.dropWhile whitespace).reverse

def keyIdChar (c : Char) : Bool :=
  ('A' ≤ c && c ≤ 'Z') || ('a' ≤ c && c ≤ 'z') || ('0' ≤ c && c ≤ '9') || c == '_' || c == '.' ||
    c == '-'

/-- `/^[A-Za-z0-9_.-]{1,64}$/`. -/
def isKeyId (id : Text) : Bool := 1 ≤ id.length && id.length ≤ 64 && id.all keyIdChar

def hexValue (c : Char) : Option Nat :=
  if '0' ≤ c ∧ c ≤ '9' then some (c.toNat - 48)
  else if 'a' ≤ c ∧ c ≤ 'f' then some (c.toNat - 87)
  else if 'A' ≤ c ∧ c ≤ 'F' then some (c.toNat - 55)
  else none

/-- The bytes of a text of hexadecimal digits. -/
def hexBytes : Text → Option Bytes
  | [] => some []
  | [_] => none
  | a :: b :: rest => do
    return Fin.ofNat 256 ((← hexValue a) * 16 + (← hexValue b)) :: (← hexBytes rest)

/-- `atob`. -/
def unbase64 (t : Text) : Except String Bytes :=
  match Base64.decode t with
  | some bytes => .ok bytes
  | none => .error "InvalidCharacterError"

/-- The bytes of a key: of sixty-four hexadecimal digits, or else of Base64. -/
def rawKey (encoded : Text) : Except String Bytes :=
  match if encoded.length = 64 then hexBytes encoded else none with
  | some bytes => .ok bytes
  | none => unbase64 encoded

def decodedKey (encoded : Text) (label : String) : Except String Bytes := do
  let raw ← rawKey encoded
  if raw.length = 32 then return raw else throw s!"{label} must be 32 bytes"

def currentKeyId (env : Bindings) : Except String KeyId :=
  match env.keyId.map trim with
  | none => .error "Webhook encryption key ID is invalid"
  | some id => if isKeyId id then .ok id else .error "Webhook encryption key ID is invalid"

/-- A text that is there and not empty. -/
def filled : Option Text → Option Text
  | none => none
  | some [] => none
  | some t => some t

def previousKeys (env : Bindings) : Except String (List (KeyId × Option Text)) :=
  match env.keysPrevious with
  | .absent => .ok []
  | .malformed => .error "Previous webhook encryption keyring is malformed"
  | .entries es =>
    if 16 < es.length ∨ es.any fun e => !isKeyId e.1 || (filled e.2).isNone then
      .error "Previous webhook encryption keyring is invalid"
    else .ok es

def encodedKeyFor (env : Bindings) (keyId : KeyId) : Except String Text := do
  let activeId ← currentKeyId env
  if keyId = activeId then
    match filled env.key with
    | none => throw "Webhook encryption key is not configured"
    | some key => return key
  else
    match ((← previousKeys env).lookup keyId).bind filled with
    | none => throw s!"Webhook encryption key {String.ofList keyId} is unavailable"
    | some encoded => return encoded

def encryptionKey (env : Bindings) (keyId : KeyId) : Except String Bytes := do
  decodedKey (← encodedKeyFor env keyId) s!"Webhook encryption key {String.ofList keyId}"

/-- Each previous key can be used, and none contradicts the active one. -/
def checkPreviousKeys (env : Bindings) (activeId : KeyId) :
    List (KeyId × Option Text) → Except String Unit
  | [] => .ok ()
  | (id, encoded) :: es => do
    if id = activeId ∧ encoded ≠ env.key then
      throw "Active webhook key ID conflicts with the previous keyring"
    let _ ← decodedKey (encoded.getD [])
      s!"Previous webhook encryption key {String.ofList id}"
    checkPreviousKeys env activeId es

def validateWebhookEncryptionConfig (env : Bindings) : List String :=
  let checked : Except String Unit := do
    let activeId ← currentKeyId env
    let _ ← encryptionKey env activeId
    checkPreviousKeys env activeId (← previousKeys env)
  match checked with
  | .ok _ => []
  | .error message => [message]

/-! ### Ciphertexts -/

def webhookAad (keyId : KeyId) : Bytes := encodeText ("gatopago-webhook:".toList ++ keyId)

/-- The prefix of the second format. -/
def formatPrefix : Text := "enc:v2:".toList

structure Encrypted where
  ciphertext : Text
  keyId : KeyId
  deriving DecidableEq

/-- The text of a nonce and a ciphertext. -/
def payloadOf (nonce encrypted : Bytes) : Text :=
  Base64.encode nonce ++ '.' :: Base64.encode encrypted

def encryptWebhookSecret (p : Platform) (env : Bindings) (secret : Text) (nonce : Bytes) :
    Except String Encrypted := do
  let keyId ← currentKeyId env
  let key ← encryptionKey env keyId
  let encrypted := p.encrypt key nonce (webhookAad keyId) (encodeText secret)
  return { ciphertext := formatPrefix ++ keyId ++ ':' :: payloadOf nonce encrypted, keyId := keyId }

def lineTerminator (c : Char) : Bool :=
  c == '\n' || c == '\r' || c == '\u2028' || c == '\u2029'

/-- `/^enc:v2:([A-Za-z0-9_.-]{1,64}):(.+)$/`. -/
def matchFormat (ciphertext : Text) : Option (KeyId × Text) :=
  if formatPrefix.isPrefixOf ciphertext then
    let rest := ciphertext.drop formatPrefix.length
    let keyId := rest.takeWhile keyIdChar
    match rest.dropWhile keyIdChar with
    | ':' :: payload =>
      if isKeyId keyId && !payload.isEmpty && payload.all (!lineTerminator ·) then
        some (keyId, payload)
      else none
    | _ => none
  else none

/-- The first two pieces between the points. -/
def pieces (payload : Text) : Text × Text :=
  (payload.takeWhile (· != '.'), ((payload.dropWhile (· != '.')).drop 1).takeWhile (· != '.'))

/-- Decrypt a nonce and a ciphertext. -/
def openPayload (p : Platform) (env : Bindings) (keyId : KeyId) (additionalData : Bytes)
    (payload : Text) : Except String Text := do
  let (nonce, encrypted) := pieces payload
  if nonce = [] ∨ encrypted = [] then throw "Invalid webhook ciphertext"
  let nonceBytes ← unbase64 nonce
  let encryptedBytes ← unbase64 encrypted
  let key ← encryptionKey env keyId
  match p.decrypt key nonceBytes additionalData encryptedBytes with
  | some plaintext => return decodeText p plaintext
  | none => throw "OperationError"

def decryptWebhookSecret (p : Platform) (env : Bindings) (ciphertext : Text)
    (storedKeyId : KeyId) : Except String Text :=
  match matchFormat ciphertext with
  | some (embeddedKeyId, payload) =>
    if embeddedKeyId ≠ storedKeyId then throw "Webhook ciphertext key ID mismatch"
    else openPayload p env storedKeyId (webhookAad storedKeyId) payload
  | none => openPayload p env storedKeyId [] ciphertext

/-! ### What is encrypted can be decrypted -/

set_option maxRecDepth 4000 in
theorem digit_payload : ∀ n < 64,
    (Base64.digit n != '.') = true ∧ lineTerminator (Base64.digit n) = false := by decide

theorem encode_payload {bs : Bytes} {c : Char} (h : c ∈ Base64.encode bs) :
    (c != '.') = true ∧ lineTerminator c = false := by
  rcases Base64.mem_encode bs h with rfl | ⟨n, hn, rfl⟩
  · decide
  · exact digit_payload n hn

theorem takeWhile_encode (bs : Bytes) (rest : Text) :
    (Base64.encode bs ++ '.' :: rest).takeWhile (· != '.') = Base64.encode bs := by
  rw [List.takeWhile_append_of_pos fun c hc => (encode_payload hc).1, List.takeWhile_cons_of_neg]
  · exact List.append_nil _
  · decide

theorem dropWhile_encode (bs : Bytes) (rest : Text) :
    (Base64.encode bs ++ '.' :: rest).dropWhile (· != '.') = '.' :: rest := by
  rw [List.dropWhile_append_of_pos fun c hc => (encode_payload hc).1, List.dropWhile_cons_of_neg]
  decide

theorem pieces_payloadOf (nonce encrypted : Bytes) :
    pieces (payloadOf nonce encrypted) = (Base64.encode nonce, Base64.encode encrypted) := by
  unfold pieces payloadOf
  rw [takeWhile_encode, dropWhile_encode]
  refine Prod.ext rfl ?_
  exact List.takeWhile_eq_self_iff.2 fun c hc => (encode_payload hc).1

theorem currentKeyId_isKeyId {env : Bindings} {keyId : KeyId} (h : currentKeyId env = .ok keyId) :
    isKeyId keyId = true := by
  unfold currentKeyId at h
  split at h
  · cases h
  · split at h
    · cases h
      assumption
    · cases h

theorem matchFormat_of_isKeyId {keyId : KeyId} (h : isKeyId keyId = true) {payload : Text}
    (some : payload ≠ []) (line : ∀ c ∈ payload, lineTerminator c = false) :
    matchFormat (formatPrefix ++ keyId ++ ':' :: payload) = .some (keyId, payload) := by
  have chars : ∀ c ∈ keyId, keyIdChar c = true := by
    simp only [isKeyId, Bool.and_eq_true, List.all_eq_true] at h
    exact h.2
  have front : formatPrefix.isPrefixOf (formatPrefix ++ (keyId ++ ':' :: payload)) = true :=
    List.isPrefixOf_iff_prefix.2 (List.prefix_append _ _)
  have id : (keyId ++ ':' :: payload).takeWhile keyIdChar = keyId := by
    rw [List.takeWhile_append_of_pos chars, List.takeWhile_cons_of_neg]
    · exact List.append_nil _
    · decide
  have rest : (keyId ++ ':' :: payload).dropWhile keyIdChar = ':' :: payload := by
    rw [List.dropWhile_append_of_pos chars, List.dropWhile_cons_of_neg]
    decide
  rw [List.append_assoc, matchFormat, if_pos front, List.drop_left]
  simp only [id, rest]
  refine if_pos ?_
  simp only [Bool.and_eq_true, Bool.not_eq_true', List.isEmpty_eq_false_iff, List.all_eq_true]
  exact ⟨⟨h, some⟩, line⟩

variable (p : Platform) {env : Bindings} {secret : Text} {nonce : Bytes} {encrypted : Encrypted}

/-- What is encrypted is encrypted under the active key. -/
theorem encrypted_keyId (h : encryptWebhookSecret p env secret nonce = .ok encrypted) :
    currentKeyId env = .ok encrypted.keyId := by
  unfold encryptWebhookSecret at h
  cases active : currentKeyId env with
  | error m =>
    rw [active] at h
    cases h
  | ok keyId =>
    rw [active] at h
    cases key : encryptionKey env keyId with
    | error m =>
      simp only [key, bind, Except.bind] at h
      cases h
    | ok k =>
      simp only [key, bind, Except.bind, pure, Except.pure] at h
      cases h
      rfl

/-- What is written under a key of the keyring can be read, a byte order mark apart. -/
theorem decrypt_written {keyId : KeyId} {key : Bytes} (id : isKeyId keyId = true)
    (keyed : encryptionKey env keyId = .ok key) (drawn : nonce ≠ []) :
    decryptWebhookSecret p env (formatPrefix ++ keyId ++ ':' :: payloadOf nonce
      (p.encrypt key nonce (webhookAad keyId) (encodeText secret))) keyId =
      .ok (withoutMark secret) := by
  generalize ciphered : p.encrypt key nonce (webhookAad keyId) (encodeText secret) = cipher
  have nonempty : cipher ≠ [] := ciphered ▸ p.encrypt_ne_nil _ _ _ _
  have payload : payloadOf nonce cipher ≠ [] := by simp [payloadOf]
  have line : ∀ c ∈ payloadOf nonce cipher, lineTerminator c = false := by
    intro c hc
    rcases List.mem_append.1 hc with hc | hc
    · exact (encode_payload hc).2
    · rcases List.mem_cons.1 hc with rfl | hc
      · decide
      · exact (encode_payload hc).2
  have format := matchFormat_of_isKeyId id payload line
  rw [decryptWebhookSecret, format]
  simp only [ne_eq, not_true_eq_false, if_false]
  rw [openPayload, pieces_payloadOf]
  simp only [Base64.encode_ne_nil _ drawn, Base64.encode_ne_nil _ nonempty, or_self, if_false,
    unbase64, Base64.decode_encode, keyed, bind, Except.bind, pure, Except.pure]
  rw [← ciphered, p.decrypt_encrypt]
  exact congrArg Except.ok (decodeText_encodeText p secret)

/-- What is encrypted is decrypted, a byte order mark apart. -/
theorem decrypt_encrypted (drawn : nonce ≠ [])
    (h : encryptWebhookSecret p env secret nonce = .ok encrypted) :
    decryptWebhookSecret p env encrypted.ciphertext encrypted.keyId = .ok (withoutMark secret) := by
  have active := encrypted_keyId p h
  unfold encryptWebhookSecret at h
  rw [active] at h
  cases keyed : encryptionKey env encrypted.keyId with
  | error m =>
    simp only [keyed, bind, Except.bind] at h
    cases h
  | ok key =>
    simp only [keyed, bind, Except.bind, pure, Except.pure, Except.ok.injEq] at h
    rw [← congrArg Encrypted.ciphertext h]
    exact decrypt_written p (currentKeyId_isKeyId active) keyed drawn

/-- With a configuration that is accepted, every secret can be encrypted. -/
theorem encrypt_of_valid (valid : validateWebhookEncryptionConfig env = []) (secret : Text)
    (nonce : Bytes) : ∃ encrypted, encryptWebhookSecret p env secret nonce = .ok encrypted := by
  unfold validateWebhookEncryptionConfig at valid
  unfold encryptWebhookSecret
  cases active : currentKeyId env with
  | error m => simp [active, bind, Except.bind] at valid
  | ok keyId =>
    cases key : encryptionKey env keyId with
    | error m => simp [active, key, bind, Except.bind] at valid
    | ok k =>
      simp only [key, bind, Except.bind, pure, Except.pure]
      exact ⟨_, rfl⟩

end ParmeliaLinks.Jobs.Secrets
