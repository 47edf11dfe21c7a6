/-
ParmeliaLinks/Jobs/KeyRotation.lean

The rotation of the keys under which the webhook secrets are stored.  A run reads a batch of the
endpoints that are not under the active key, in a fixed order, and writes each of them back
under it, if it is still what was read.  It ends at the first endpoint that it cannot decrypt.

So a run gets on exactly as far as the first endpoint of its batch (`unblocked`): if that can be
decrypted then it is under the active key when the run has ended, whatever else goes on
meanwhile.  What the secrets are never changes.
-/
import Mathlib.Data.Char
import Mathlib.Data.Finset.Card
import Mathlib.Data.List.Lex
import Mathlib.Data.List.Sort
import Mathlib.Data.ZMod.Defs
import ParmeliaLinks.Jobs.WebhookSecrets
import ParmeliaLinks.Lib.RelyGuarantee
import ParmeliaLinks.Lib.Table

namespace ParmeliaLinks.Jobs.Rotation

open Secrets

/-- Milliseconds since the epoch. -/
abbrev Timestamp := Nat

abbrev EndpointId := Text

/-! ### Rows -/

/-- What a run reads of an endpoint. -/
structure Stored where
  id : EndpointId
  secretCiphertext : Text
  secretKeyId : KeyId
  deriving DecidableEq

/-- `webhook_endpoints`. -/
structure WebhookRow extends Stored where
  active : Bool
  updatedAt : Timestamp
  deriving DecidableEq

instance : Row WebhookRow where
  clash r r' := r.id == r'.id
  clash_comm _ _ := Bool.beq_comm

structure World where
  endpoints : Table WebhookRow
  now : Timestamp

/-- `ORDER BY updated_at, id`. -/
def listedBefore (r r' : WebhookRow) : Prop :=
  r.updatedAt < r'.updatedAt ∨ r.updatedAt = r'.updatedAt ∧ r.id ≤ r'.id

instance : DecidableRel listedBefore := fun _ _ => inferInstanceAs (Decidable (_ ∨ _))

/-- The endpoints that are not under the active key, in the order of the runs. -/
def World.pending (w : World) (activeKeyId : KeyId) : List WebhookRow :=
  (w.endpoints.filter (·.secretKeyId != activeKeyId)).insertionSort listedBefore

/-! ### Operations -/

/-- What does not change: the platform and the configuration. -/
structure Setup where
  platform : Platform
  env : Bindings

abbrev Nonce := { bytes : Secrets.Bytes // bytes.length = 12 }

/-- What the outside contributes to an operation. -/
structure Answer where
  nonce : Nonce
  uuid : Text
  random : Text
  claimed : Bool

inductive RotationOp
  | selectPending (activeKeyId : KeyId) (limit : Nat)
  | getRandomValues
  | randomSecret
  | randomUuid
  | nowIso
  | rewrap (old : Stored) (new : Encrypted) (timestamp : Timestamp)
  | countPending (activeKeyId : KeyId)
  | insertEndpoint (id : EndpointId) (new : Encrypted) (timestamp : Timestamp)
  | disableEndpoint (id : EndpointId) (timestamp : Timestamp)
  | selectEndpoint (id : EndpointId)
  | claimWebhookDelivery

abbrev RotationOp.Reply : RotationOp → Type
  | .selectPending .. => List Stored
  | .getRandomValues => Nonce
  | .randomSecret => Text
  | .randomUuid => Text
  | .nowIso => Timestamp
  | .rewrap .. => Bool
  | .countPending _ => Nat
  | .insertEndpoint .. => Except String Unit
  | .disableEndpoint .. => Bool
  | .selectEndpoint _ => Option Stored
  | .claimWebhookDelivery => Bool

abbrev Handler := Prog RotationOp RotationOp.Reply

/-- The row is still what was read. -/
def unchanged (old : Stored) (r : WebhookRow) : Bool := r.toStored == old

def World.rewrap (w : World) (old : Stored) (new : Encrypted) (timestamp : Timestamp) : World :=
  { w with
    endpoints := w.endpoints.modify (unchanged old)
      ({ · with secretCiphertext := new.ciphertext, secretKeyId := new.keyId
                updatedAt := timestamp })
      ⟨fun _ _ => rfl⟩ }

def World.disable (w : World) (id : EndpointId) (timestamp : Timestamp) : World :=
  { w with
    endpoints := w.endpoints.modify (fun r => r.id == id && r.active)
      ({ · with active := false, updatedAt := timestamp }) ⟨fun _ _ => rfl⟩ }

/-- A new endpoint. -/
def newRow (id : EndpointId) (new : Encrypted) (timestamp : Timestamp) : WebhookRow where
  id := id
  secretCiphertext := new.ciphertext
  secretKeyId := new.keyId
  active := true
  updatedAt := timestamp

def World.insertEndpoint (w : World) (id : EndpointId) (new : Encrypted) (timestamp : Timestamp) :
    Except String Unit × World :=
  match w.endpoints.insert (newRow id new timestamp) with
  | some endpoints => (.ok (), { w with endpoints })
  | none => (.error "UNIQUE constraint failed: webhook_endpoints.id", w)

def RotationOp.exec (x : Answer) (w : World) : (o : RotationOp) → o.Reply × World
  | .selectPending activeKeyId limit =>
    (((w.pending activeKeyId).take limit).map (·.toStored), w)
  | .getRandomValues => (x.nonce, w)
  | .randomSecret => (x.random, w)
  | .randomUuid => (x.uuid, w)
  | .nowIso => (w.now, w)
  | .rewrap old new timestamp =>
    (0 < w.endpoints.changes (unchanged old), w.rewrap old new timestamp)
  | .countPending activeKeyId => ((w.endpoints.filter (·.secretKeyId != activeKeyId)).length, w)
  | .insertEndpoint id new timestamp => w.insertEndpoint id new timestamp
  | .disableEndpoint id timestamp =>
    (w.endpoints.any fun r => r.id == id && r.active, w.disable id timestamp)
  | .selectEndpoint id =>
    ((w.endpoints.find? fun r => r.id == id && r.active).map (·.toStored), w)
  | .claimWebhookDelivery => (x.claimed, w)

/-! ### Handlers -/

structure RotationCounts where
  scanned : Nat
  rotated : Nat
  remaining : Nat

def decrypted (x : Setup) (s : Stored) : Except String Text :=
  decryptWebhookSecret x.platform x.env s.secretCiphertext s.secretKeyId

/-- The loop of a run. -/
def rotateRows (x : Setup) : List Stored → Nat → Handler Nat
  | [], rotated => return rotated
  | row :: rows, rotated => do
    let plaintext ← .ofExcept (decrypted x row)
    let nonce ← .perform RotationOp.getRandomValues
    let encrypted ← .ofExcept (encryptWebhookSecret x.platform x.env plaintext nonce.val)
    let timestamp ← .perform RotationOp.nowIso
    let changed ← .perform (RotationOp.rewrap row encrypted timestamp)
    rotateRows x rows (if changed then rotated + 1 else rotated)

def rotateWebhookEncryptionBatch (x : Setup) (limit : Int) : Handler RotationCounts := do
  let activeKeyId ← .ofExcept (currentKeyId x.env)
  if limit < 1 ∨ 100 < limit then throw "Invalid webhook rotation batch size" else
  let rows ← .perform (RotationOp.selectPending activeKeyId limit.toNat)
  let rotated ← rotateRows x rows 0
  let remaining ← .perform (RotationOp.countPending activeKeyId)
  return { scanned := rows.length, rotated, remaining }

def createWebhookEndpoint (x : Setup) : Handler (EndpointId × Text) := do
  let random ← .perform RotationOp.randomSecret
  let secret := "whsec_".toList ++ random
  let nonce ← .perform RotationOp.getRandomValues
  let encrypted ← .ofExcept (encryptWebhookSecret x.platform x.env secret nonce.val)
  let timestamp ← .perform RotationOp.nowIso
  let uuid ← .perform RotationOp.randomUuid
  let id := "whe_".toList ++ uuid
  let inserted ← .perform (RotationOp.insertEndpoint id encrypted timestamp)
  let _ ← .ofExcept inserted
  return (id, secret)

/-- A delivery to an endpoint, as far as its secret: the row is read first, then the delivery is
claimed. -/
def deliverOne (x : Setup) (id : EndpointId) : Handler (Option Text) := do
  let found ← .perform (RotationOp.selectEndpoint id)
  match found with
  | none => return none
  | some row =>
    let claimed ← .perform RotationOp.claimWebhookDelivery
    if claimed then
      let secret ← .ofExcept (decrypted x row)
      return some secret
    else return none

inductive Call
  | rotate (limit : Int)
  | create
  | deliver (id : EndpointId)
  | disable (id : EndpointId)

inductive Outcome
  | rotated (counts : Option RotationCounts)
  | created (id : EndpointId) (secret : Text)
  | signed (id : EndpointId) (secret : Option Text)
  | disabled

/-- The part of `scheduled` that rotates the keys: not with an invalid configuration, and an
error is only logged. -/
def scheduledRotation (x : Setup) (limit : Int) : Handler Outcome :=
  if (validateWebhookEncryptionConfig x.env).isEmpty then do
    let outcome ← (rotateWebhookEncryptionBatch x limit).attempt
    return .rotated outcome.toOption
  else return .rotated none

def disableWebhookEndpoint (id : EndpointId) : Handler Outcome := do
  let timestamp ← .perform RotationOp.nowIso
  let _ ← .perform (RotationOp.disableEndpoint id timestamp)
  return .disabled

def Call.body (x : Setup) : Call → Handler Outcome
  | .rotate limit => scheduledRotation x limit
  | .create => do
    let created ← createWebhookEndpoint x
    return .created created.1 created.2
  | .deliver id => do
    let secret ← deliverOne x id
    return .signed id secret
  | .disable id => disableWebhookEndpoint id

/-- Time passes between the steps. -/
def rotationSystem (x : Setup) :
    System RotationOp RotationOp.Reply World Answer Nat Call Outcome where
  exec _ o x w := o.exec x w
  env elapsed w := { w with now := w.now + elapsed }
  body := Call.body x

abbrev Schedule := List (Label Answer Nat Call)

/-! ### What the steps keep -/

variable (x : Setup)

/-- No stored secret begins with a byte order mark. -/
def World.Legible (w : World) : Prop :=
  ∀ r ∈ w.endpoints, ∀ s, decrypted x r.toStored = .ok s → marked s = false

/-- The endpoint is under another key than the active one, and its secret can be decrypted. -/
def awaits (r : WebhookRow) : Bool :=
  decide (currentKeyId x.env ≠ .ok r.secretKeyId) && (decrypted x r.toStored).isOk

/-- The endpoints that are still to be rotated. -/
def World.awaiting (w : World) : Finset EndpointId :=
  ((w.endpoints.filter (awaits x)).map (·.id)).toFinset

/-- Every endpoint keeps its secret, and those that are not under the active key are as they
were. -/
structure World.Evolves (w w' : World) : Prop where
  old : ∀ r ∈ w.endpoints, ∃ r' ∈ w'.endpoints, r'.id = r.id ∧
    decrypted x r'.toStored = decrypted x r.toStored
  pending : ∀ r' ∈ w'.endpoints, currentKeyId x.env ≠ .ok r'.secretKeyId →
    ∃ r ∈ w.endpoints, r.toStored = r'.toStored

variable {x} {w w' w'' : World} {id : EndpointId}

theorem World.Evolves.refl : w.Evolves x w :=
  ⟨fun r hr => ⟨r, hr, rfl, rfl⟩, fun r hr _ => ⟨r, hr, rfl⟩⟩

theorem World.Evolves.trans (h : w.Evolves x w') (h' : w'.Evolves x w'') : w.Evolves x w'' where
  old r hr := by
    obtain ⟨r', hr', same, secret⟩ := h.old r hr
    obtain ⟨r'', hr'', same', secret'⟩ := h'.old r' hr'
    exact ⟨r'', hr'', same'.trans same, secret'.trans secret⟩
  pending r'' hr'' other := by
    obtain ⟨r', hr', same⟩ := h'.pending r'' hr'' other
    have key : r'.secretKeyId = r''.secretKeyId := congrArg Stored.secretKeyId same
    obtain ⟨r, hr, same'⟩ := h.pending r' hr' (key ▸ other)
    exact ⟨r, hr, same'.trans same⟩

theorem mem_awaiting : id ∈ w.awaiting x ↔ ∃ r ∈ w.endpoints, r.id = id ∧ awaits x r = true := by
  simp only [World.awaiting, List.mem_toFinset, List.mem_map]
  constructor
  · rintro ⟨r, hr, same⟩
    obtain ⟨hr, await⟩ := List.mem_filter.1 hr
    exact ⟨r, hr, same, await⟩
  · rintro ⟨r, hr, same, await⟩
    exact ⟨r, List.mem_filter.2 ⟨hr, await⟩, same⟩

theorem awaits_iff {r : WebhookRow} : awaits x r = true ↔
    currentKeyId x.env ≠ .ok r.secretKeyId ∧ ∃ s, decrypted x r.toStored = .ok s := by
  simp only [awaits, Bool.and_eq_true, decide_eq_true_eq]
  refine and_congr_right fun _ => ?_
  cases decrypted x r.toStored with
  | ok s => exact iff_of_true rfl ⟨s, rfl⟩
  | error m =>
    refine iff_of_false Bool.false_ne_true ?_
    rintro ⟨s, hs⟩
    cases hs

/-- Whether an endpoint is still to be rotated is seen from what is stored. -/
theorem awaits_congr {r r' : WebhookRow} (h : r.toStored = r'.toStored) :
    awaits x r = awaits x r' := by
  simp only [awaits, h]

/-- No endpoint comes to be rotated that was not before. -/
theorem World.Evolves.awaiting (h : w.Evolves x w') : w'.awaiting x ⊆ w.awaiting x := by
  intro id hid
  obtain ⟨r', hr', rfl, await⟩ := mem_awaiting.1 hid
  obtain ⟨r, hr, same⟩ := h.pending r' hr' (awaits_iff.1 await).1
  exact mem_awaiting.2 ⟨r, hr, congrArg Stored.id same, (awaits_congr same).trans await⟩

/-- When nothing awaits rotation, every endpoint that can be decrypted is under the active key. -/
theorem awaiting_eq_empty : w.awaiting x = ∅ ↔ ∀ r ∈ w.endpoints, ∀ s,
    decrypted x r.toStored = .ok s → currentKeyId x.env = .ok r.secretKeyId := by
  rw [Finset.eq_empty_iff_forall_notMem]
  constructor
  · intro none r hr s hs
    by_contra other
    exact none r.id (mem_awaiting.2 ⟨r, hr, rfl, awaits_iff.2 ⟨other, s, hs⟩⟩)
  · intro all id hid
    obtain ⟨r, hr, -, await⟩ := mem_awaiting.1 hid
    obtain ⟨other, s, hs⟩ := awaits_iff.1 await
    exact other (all r hr s hs)

/-! ### Operations -/

variable (x) in
/-- What is written is the same secret under the active key. -/
def RotationOp.Sound : RotationOp → Prop
  | .rewrap old new _ => currentKeyId x.env = .ok new.keyId ∧
      decrypted x ⟨old.id, new.ciphertext, new.keyId⟩ = decrypted x old
  | .insertEndpoint id new _ => currentKeyId x.env = .ok new.keyId ∧
      ∀ s, decrypted x ⟨id, new.ciphertext, new.keyId⟩ = .ok s → marked s = false
  | _ => True

/-- The secret of an endpoint depends on its ciphertext and its key only. -/
theorem decrypted_congr {s s' : Stored} (ciphertext : s.secretCiphertext = s'.secretCiphertext)
    (keyId : s.secretKeyId = s'.secretKeyId) : decrypted x s = decrypted x s' := by
  simp only [decrypted, ciphertext, keyId]

variable {old : Stored} {new : Encrypted} {timestamp : Timestamp}

/-- The rows after a rewrap: those that were not read so, and the one that was. -/
theorem mem_rewrap {r' : WebhookRow} (h : r' ∈ (w.rewrap old new timestamp).endpoints) :
    ∃ r ∈ w.endpoints, r.id = r'.id ∧ (r.toStored ≠ old ∧ r' = r ∨ r.toStored = old ∧
      r'.secretCiphertext = new.ciphertext ∧ r'.secretKeyId = new.keyId) := by
  have rows : (w.rewrap old new timestamp).endpoints.rows = w.endpoints.rewritten _ _ := rfl
  obtain ⟨r, hr, rfl⟩ := (Table.mem_of_rewritten rows).1 h
  by_cases same : unchanged old r = true
  · rw [if_pos same]
    exact ⟨r, hr, rfl, .inr ⟨beq_iff_eq.1 same, rfl, rfl⟩⟩
  · rw [if_neg same]
    exact ⟨r, hr, rfl, .inl ⟨fun read => same (beq_iff_eq.2 read), rfl⟩⟩

theorem rewrap_keeps (legible : w.Legible x)
    (sound : (RotationOp.rewrap old new timestamp).Sound x) :
    (w.rewrap old new timestamp).Legible x ∧ w.Evolves x (w.rewrap old new timestamp) := by
  obtain ⟨active, same⟩ := sound
  have secret : ∀ r' ∈ (w.rewrap old new timestamp).endpoints, ∃ r ∈ w.endpoints, r.id = r'.id ∧
      decrypted x r'.toStored = decrypted x r.toStored := by
    intro r' hr'
    obtain ⟨r, hr, id, ⟨-, rfl⟩ | ⟨read, ciphertext, keyId⟩⟩ := mem_rewrap hr'
    · exact ⟨r', hr, rfl, rfl⟩
    · refine ⟨r, hr, id, ?_⟩
      rw [read, ← same]
      exact decrypted_congr ciphertext keyId
  refine ⟨fun r' hr' s hs => ?_, fun r hr => ?_, fun r' hr' other => ?_⟩
  · obtain ⟨r, hr, -, kept⟩ := secret r' hr'
    exact legible r hr s (kept.symm.trans hs)
  · have rows : (w.rewrap old new timestamp).endpoints.rows = w.endpoints.rewritten _ _ := rfl
    have there := (Table.mem_of_rewritten rows).2 ⟨r, hr, rfl⟩
    obtain ⟨r₀, hr₀, id, kept⟩ := secret _ there
    have same : r₀ = r := by
      refine Table.eq_of_clash hr₀ hr (beq_iff_eq.2 (id.trans ?_))
      split <;> rfl
    refine ⟨_, there, ?_, same ▸ kept⟩
    split <;> rfl
  · obtain ⟨r, hr, -, ⟨-, rfl⟩ | ⟨-, -, keyId⟩⟩ := mem_rewrap hr'
    · exact ⟨r', hr, rfl⟩
    · exact (other (keyId ▸ active)).elim

theorem insertEndpoint_keeps (legible : w.Legible x)
    (sound : (RotationOp.insertEndpoint id new timestamp).Sound x) :
    (w.insertEndpoint id new timestamp).2.Legible x ∧
      w.Evolves x (w.insertEndpoint id new timestamp).2 := by
  obtain ⟨active, mark⟩ := sound
  unfold World.insertEndpoint
  split
  · rename_i endpoints inserted
    have mem {r : WebhookRow} : r ∈ endpoints ↔ r ∈ w.endpoints ∨ r = newRow id new timestamp :=
      Table.mem_of_rows_append (Table.insert_rows inserted).1
    refine ⟨fun r hr s hs => ?_, fun r hr => ⟨r, mem.2 (.inl hr), rfl, rfl⟩, fun r hr other => ?_⟩
    · rcases mem.1 hr with hr | rfl
      · exact legible r hr s hs
      · exact mark s hs
    · rcases mem.1 hr with hr | rfl
      · exact ⟨r, hr, rfl⟩
      · exact (other active).elim
  · exact ⟨legible, .refl⟩

theorem disable_keeps (legible : w.Legible x) :
    (w.disable id timestamp).Legible x ∧ w.Evolves x (w.disable id timestamp) := by
  have rows : (w.disable id timestamp).endpoints.rows = w.endpoints.rewritten _ _ := rfl
  have stored : ∀ r' ∈ (w.disable id timestamp).endpoints, ∃ r ∈ w.endpoints,
      r.toStored = r'.toStored := by
    intro r' hr'
    obtain ⟨r, hr, rfl⟩ := (Table.mem_of_rewritten rows).1 hr'
    refine ⟨r, hr, ?_⟩
    split <;> rfl
  refine ⟨fun r' hr' s hs => ?_, fun r hr => ?_, fun r' hr' _ => stored r' hr'⟩
  · obtain ⟨r, hr, same⟩ := stored r' hr'
    exact legible r hr s (same ▸ hs)
  · refine ⟨_, (Table.mem_of_rewritten rows).2 ⟨r, hr, rfl⟩, ?_, ?_⟩ <;> split <;> rfl

/-- A sound operation keeps every secret. -/
theorem RotationOp.Sound.keeps {o : RotationOp} (sound : o.Sound x) (answer : Answer)
    (legible : w.Legible x) :
    (o.exec answer w).2.Legible x ∧ w.Evolves x (o.exec answer w).2 := by
  cases o with
  | rewrap old new timestamp => exact rewrap_keeps legible sound
  | insertEndpoint id new timestamp => exact insertEndpoint_keeps legible sound
  | disableEndpoint id timestamp => exact disable_keeps legible
  | selectPending activeKeyId limit => exact ⟨legible, .refl⟩
  | getRandomValues => exact ⟨legible, .refl⟩
  | randomSecret => exact ⟨legible, .refl⟩
  | randomUuid => exact ⟨legible, .refl⟩
  | nowIso => exact ⟨legible, .refl⟩
  | countPending activeKeyId => exact ⟨legible, .refl⟩
  | selectEndpoint id => exact ⟨legible, .refl⟩
  | claimWebhookDelivery => exact ⟨legible, .refl⟩

/-! ### Handlers -/

/-- What the handlers keep and follow, for runs whose steps meet the conditions. -/
def discipline (x : Setup) (allowed : System.Conditions RotationOp World Answer Nat Call) :
    Discipline RotationOp World Answer Nat Call where
  Inv := World.Legible x
  Evolves := World.Evolves x
  allowed := allowed
  refl _ := .refl
  trans := World.Evolves.trans

variable {allowed : System.Conditions RotationOp World Answer Nat Call} {i : Nat}

theorem performs_of_sound {o : RotationOp} (sound : o.Sound x) (legible : w.Legible x)
    (answer : Answer) : (discipline x allowed).Performs (rotationSystem x) i o answer w :=
  have keeps := sound.keeps answer legible
  ⟨⟨keeps.1, keeps.2⟩, fun _ _ => trivial, trivial⟩

/-- A handler of sound operations follows the discipline. -/
theorem wp_of_sound {α : Type} {p : Handler α} (uses : p.Uses (RotationOp.Sound x))
    (legible : w.Legible x) : (discipline x allowed).wp (rotationSystem x) i p
      (fun _ w' => w'.Legible x ∧ w.Evolves x w') w :=
  Discipline.wp_of_uses _ _ (fun _ sound answer _ _ legible' _ =>
    performs_of_sound sound legible' answer) uses legible

/-- What a run writes is the secret that it read, under the active key. -/
theorem rewrap_sound {row : Stored} {plaintext : Text} {nonce : Nonce} {encrypted : Encrypted}
    {timestamp : Timestamp} (read : decrypted x row = .ok plaintext)
    (mark : marked plaintext = false)
    (h : encryptWebhookSecret x.platform x.env plaintext nonce.val = .ok encrypted) :
    (RotationOp.rewrap row encrypted timestamp).Sound x := by
  have drawn : nonce.val ≠ [] := by
    intro empty
    have length := nonce.property
    rw [empty] at length
    cases length
  refine ⟨encrypted_keyId x.platform h, ?_⟩
  rw [read]
  exact (decrypt_encrypted x.platform drawn h).trans
    (congrArg Except.ok (withoutMark_of_not_marked mark))

theorem rotateRows_uses {rows : List Stored} {rotated : Nat}
    (legible : ∀ row ∈ rows, ∀ s, decrypted x row = .ok s → marked s = false) :
    (rotateRows x rows rotated).Uses (RotationOp.Sound x) := by
  induction rows generalizing rotated with
  | nil => trivial
  | cons row rows ih =>
    unfold rotateRows
    cases read : decrypted x row with
    | error m => trivial
    | ok plaintext =>
      refine ⟨trivial, fun nonce => ?_⟩
      show ((Prog.ofExcept (encryptWebhookSecret x.platform x.env plaintext nonce.val)).bind
        _).Uses _
      cases h : encryptWebhookSecret x.platform x.env plaintext nonce.val with
      | error m => trivial
      | ok encrypted =>
        have mark := legible row List.mem_cons_self plaintext read
        refine ⟨trivial, fun timestamp => ⟨rewrap_sound read mark h, fun changed => ?_⟩⟩
        exact ih fun row' hrow' => legible row' (List.mem_cons_of_mem row hrow')

/-- An endpoint that was read is under the active key after it has been written back, by this
run or by another one before. -/
theorem rewrap_rotates {row : WebhookRow} (hr : row ∈ w.endpoints) (since : w.Evolves x w')
    (sound : (RotationOp.rewrap row.toStored new timestamp).Sound x) :
    row.id ∉ (w'.rewrap row.toStored new timestamp).awaiting x := by
  intro still
  obtain ⟨r', hr', id, await⟩ := mem_awaiting.1 still
  have other := (awaits_iff.1 await).1
  obtain ⟨r, hr₁, same, ⟨moved, rfl⟩ | ⟨-, -, keyId⟩⟩ := mem_rewrap hr'
  · -- it is not what was read, and yet not under the active key
    obtain ⟨r₀, hr₀, stored⟩ := since.pending r' hr₁ other
    have same : r₀ = row := by
      refine Table.eq_of_clash hr₀ hr (beq_iff_eq.2 ?_)
      exact (congrArg Stored.id stored).trans id
    exact moved (same ▸ stored).symm
  · exact other (keyId ▸ sound.1)

/-- The first endpoint of a batch is rotated if it can be decrypted. -/
theorem wp_rotateRows_first (valid : validateWebhookEncryptionConfig x.env = []) {row : WebhookRow}
    (hr : row ∈ w.endpoints) (await : awaits x row = true) {rows : List Stored} {rotated : Nat}
    (rowsLegible : ∀ r ∈ row.toStored :: rows, ∀ s, decrypted x r = .ok s → marked s = false)
    (legible : w'.Legible x) (since : w.Evolves x w') :
    (discipline x allowed).wp (rotationSystem x) i (rotateRows x (row.toStored :: rows) rotated)
      (fun _ v => row.id ∉ v.awaiting x) w' := by
  obtain ⟨-, plaintext, read⟩ := awaits_iff.1 await
  unfold rotateRows
  rw [read]
  refine Discipline.wp_query _ _ legible (fun _ => rfl) (fun _ => trivial) fun answer v later => ?_
  obtain ⟨encrypted, h⟩ := encrypt_of_valid x.platform valid plaintext answer.nonce.val
  show (discipline x allowed).wp _ _ ((Prog.ofExcept (encryptWebhookSecret x.platform x.env
    plaintext answer.nonce.val)).bind _) _ v
  rw [h]
  refine Discipline.wp_query _ _ later.inv (fun _ => rfl) (fun _ => trivial)
    fun answer v' later' => ?_
  have mark := rowsLegible row.toStored List.mem_cons_self plaintext read
  have sound : (RotationOp.rewrap row.toStored encrypted v.now).Sound x := rewrap_sound read mark h
  refine Discipline.wp_act _ _ (fun answer _ => performs_of_sound sound later'.inv answer)
    fun answer _ v'' later'' => ?_
  have gone := rewrap_rotates hr ((since.trans later.evolves).trans later'.evolves) sound
  refine Discipline.wp_mono _ _ (wp_of_sound (rotateRows_uses fun r hr' =>
    rowsLegible r (List.mem_cons_of_mem _ hr')) later''.inv) fun _ u ends still => ?_
  exact gone ((later''.evolves.trans ends.2).awaiting still)

/-! ### Runs -/

/-- The endpoint that comes first can be decrypted, or none can that is not under the active
key. -/
def World.unblocked (x : Setup) (w : World) : Bool :=
  match currentKeyId x.env with
  | .error _ => true
  | .ok activeKeyId =>
    match w.pending activeKeyId with
    | [] => true
    | row :: _ => (decrypted x row.toStored).isOk || !(w.endpoints.any (awaits x))

def RotationOp.selects : RotationOp → Bool
  | .selectPending .. => true
  | _ => false

/-- No run starts with an endpoint that cannot be decrypted while there are others that can. -/
abbrev unblockedSteps (x : Setup) : System.Conditions RotationOp World Answer Nat Call where
  op _ o _ w := (!o.selects || w.unblocked x) = true

theorem mem_pending {activeKeyId : KeyId} {r : WebhookRow} :
    r ∈ w.pending activeKeyId ↔ r ∈ w.endpoints ∧ r.secretKeyId ≠ activeKeyId := by
  rw [World.pending, List.mem_insertionSort, Table.filter, List.mem_filter, bne_iff_ne]
  exact Iff.rfl

/-- What a run selects is in the table. -/
theorem selected_legible (legible : w.Legible x) {activeKeyId : KeyId} {limit : Nat} :
    ∀ row ∈ ((w.pending activeKeyId).take limit).map (·.toStored), ∀ s,
      decrypted x row = .ok s → marked s = false := by
  intro row hrow
  obtain ⟨r, hr, rfl⟩ := List.mem_map.1 hrow
  exact legible r (mem_pending.1 (List.mem_of_mem_take hr)).1

/-- The loop of a run that is not blocked, if there is something left to rotate. -/
theorem selected_first {activeKeyId : KeyId} (active : currentKeyId x.env = .ok activeKeyId)
    (free : w.unblocked x = true) (some : (w.awaiting x).Nonempty) {limit : Nat} (pos : 0 < limit) :
    ∃ row rows, row ∈ w.endpoints ∧ awaits x row = true ∧
      ((w.pending activeKeyId).take limit).map (·.toStored) = row.toStored :: rows := by
  obtain ⟨id, hid⟩ := some
  obtain ⟨r, hr, -, await⟩ := mem_awaiting.1 hid
  obtain ⟨other, -⟩ := awaits_iff.1 await
  have there : r ∈ w.pending activeKeyId :=
    mem_pending.2 ⟨hr, fun same => other (same ▸ active)⟩
  unfold World.unblocked at free
  rw [active] at free
  cases listed : w.pending activeKeyId with
  | nil =>
    rw [listed] at there
    cases there
  | cons row rows =>
    simp only [listed, Bool.or_eq_true, Bool.not_eq_true', Table.any_eq_false] at free
    have first : row ∈ w.pending activeKeyId := listed ▸ List.mem_cons_self
    obtain ⟨hrow, key⟩ := mem_pending.1 first
    have opened : (decrypted x row.toStored).isOk = true := by
      refine free.resolve_right fun none => ?_
      rw [none r hr] at await
      cases await
    refine ⟨row, (rows.take (limit - 1)).map (·.toStored), hrow, ?_, ?_⟩
    · simp only [awaits, Bool.and_eq_true, decide_eq_true_eq]
      refine ⟨fun same => key ?_, opened⟩
      exact Except.ok.inj (same.symm.trans active)
    · obtain ⟨n, rfl⟩ := Nat.exists_eq_succ_of_ne_zero pos.ne'
      rfl

/-- A run keeps every secret. -/
theorem wp_rotateWebhookEncryptionBatch (legible : w.Legible x) (limit : Int) :
    (discipline x allowed).wp (rotationSystem x) i (rotateWebhookEncryptionBatch x limit)
      (fun _ w' => w'.Legible x) w := by
  unfold rotateWebhookEncryptionBatch
  cases active : currentKeyId x.env with
  | error m => exact legible
  | ok activeKeyId =>
    show (discipline x allowed).wp _ _ (if limit < 1 ∨ 100 < limit then _ else _) _ w
    split
    · exact legible
    · refine Discipline.wp_query _ _ legible (fun _ => rfl) (fun _ => trivial) fun _ v later => ?_
      show (discipline x allowed).wp _ _ ((rotateRows x (((w.pending activeKeyId).take
        limit.toNat).map (·.toStored)) 0).bind _) _ v
      refine Discipline.wp_seq _ _ (wp_of_sound (rotateRows_uses (selected_legible legible))
        later.inv) (fun rotated v' ends => ?_) fun m v' ends => ends.1
      refine Discipline.wp_query _ _ ends.1 (fun _ => rfl) (fun _ => trivial)
        fun _ v'' later' => ?_
      exact later'.inv

/-- A run that is not blocked rotates an endpoint, unless there is none left. -/
theorem wp_rotates (valid : validateWebhookEncryptionConfig x.env = []) (legible : w.Legible x)
    {limit : Int} (some : 1 ≤ limit) (most : limit ≤ 100) :
    (discipline x (unblockedSteps x)).wp (rotationSystem x) i
      (rotateWebhookEncryptionBatch x limit)
      (fun _ w' => w.awaiting x = ∅ ∨ w'.awaiting x ⊂ w.awaiting x) w := by
  unfold rotateWebhookEncryptionBatch
  have key : ∃ activeKeyId, currentKeyId x.env = .ok activeKeyId := by
    obtain ⟨encrypted, h⟩ := encrypt_of_valid x.platform valid [] []
    exact ⟨_, encrypted_keyId x.platform h⟩
  obtain ⟨activeKeyId, active⟩ := key
  rw [active]
  show (discipline x _).wp _ _ (if limit < 1 ∨ 100 < limit then _ else _) _ w
  rw [if_neg (by omega)]
  refine Discipline.wp_act _ _ (fun answer _ => performs_of_sound (by trivial) legible answer)
    fun answer free v later => ?_
  have free : w.unblocked x = true := free
  show (discipline x _).wp _ _ ((rotateRows x (((w.pending activeKeyId).take
    limit.toNat).map (·.toStored)) 0).bind _) _ v
  rcases Finset.eq_empty_or_nonempty (w.awaiting x) with none | left
  · -- nothing is left to rotate
    refine Discipline.wp_seq _ _ (wp_of_sound (rotateRows_uses (selected_legible legible))
      later.inv) (fun rotated v' ends => ?_) fun m v' ends => .inl none
    refine Discipline.wp_query _ _ ends.1 (fun _ => rfl) (fun _ => trivial) fun _ v'' later' => ?_
    exact .inl none
  · obtain ⟨row, rows, hrow, await, selected⟩ :=
      selected_first active free left (show 0 < limit.toNat by omega)
    have rowsLegible := @selected_legible x w legible activeKeyId limit.toNat
    rw [selected] at rowsLegible
    have before : row.id ∈ w.awaiting x := mem_awaiting.2 ⟨row, hrow, rfl, await⟩
    have first := @wp_rotateRows_first x w v (unblockedSteps x) i valid row hrow await rows 0
      rowsLegible later.inv later.evolves
    have whole := Discipline.wp_evolves _ _ later.inv first
    rw [selected]
    refine Discipline.wp_seq _ _ whole (fun rotated v' ends => ?_) fun m v' ends => ?_
    · refine Discipline.wp_query _ _ ends.2.1 (fun _ => rfl) (fun _ => trivial)
        fun _ v'' later' => ?_
      have since := (later.evolves.trans ends.2.2).trans later'.evolves
      refine .inr (Finset.ssubset_iff_subset_ne.2 ⟨since.awaiting, fun same => ?_⟩)
      exact ends.1 (later'.evolves.awaiting (same ▸ before))
    · refine .inr (Finset.ssubset_iff_subset_ne.2
        ⟨(later.evolves.trans ends.2.2).awaiting, fun same => ?_⟩)
      exact ends.1 (same ▸ before)

/-! ### Creations and deliveries -/

theorem createWebhookEndpoint_uses : (createWebhookEndpoint x).Uses (RotationOp.Sound x) := by
  refine ⟨trivial, fun random => ⟨trivial, fun nonce => ?_⟩⟩
  show ((Prog.ofExcept (encryptWebhookSecret x.platform x.env ("whsec_".toList ++ random)
    (Subtype.val nonce))).bind _).Uses _
  cases h : encryptWebhookSecret x.platform x.env ("whsec_".toList ++ random)
      (Subtype.val nonce) with
  | error m => trivial
  | ok encrypted =>
    refine ⟨trivial, fun timestamp => ⟨trivial, fun uuid => ⟨⟨encrypted_keyId _ h, ?_⟩, ?_⟩⟩⟩
    · intro s hs
      have drawn : Subtype.val nonce ≠ [] := by
        intro empty
        have length := nonce.property
        rw [empty] at length
        cases length
      have opened := (decrypt_encrypted x.platform drawn h).symm.trans hs
      cases opened
      rfl
    · intro inserted
      show ((Prog.ofExcept inserted).bind _).Uses _
      exact Prog.uses_bind (Prog.uses_ofExcept _ _) fun _ => trivial

variable (x) in
/-- The endpoint has the secret. -/
def World.Has (w : World) (id : EndpointId) (secret : Text) : Prop :=
  ∃ r ∈ w.endpoints, r.id = id ∧ decrypted x r.toStored = .ok secret

theorem World.Evolves.has (h : w.Evolves x w') {secret : Text} (has : w.Has x id secret) :
    w'.Has x id secret := by
  obtain ⟨r, hr, same, opened⟩ := has
  obtain ⟨r', hr', same', kept⟩ := h.old r hr
  exact ⟨r', hr', same'.trans same, kept.trans opened⟩

/-- A delivery signs with the secret of its endpoint. -/
theorem wp_deliverOne (legible : w.Legible x) (id : EndpointId) :
    (discipline x allowed).wp (rotationSystem x) i (deliverOne x id)
      (fun r w' => ∀ secret, r = .ok (some secret) → w'.Has x id secret) w := by
  unfold deliverOne
  refine Discipline.wp_query _ _ legible (fun _ => rfl) (fun _ => trivial) fun _ v later => ?_
  cases found : w.endpoints.find? fun r => r.id == id && r.active with
  | none =>
    simp only [rotationSystem, RotationOp.exec, found, Option.map_none, Prog.ret_bind]
    intro secret h
    cases h
  | some row =>
    simp only [rotationSystem, RotationOp.exec, found, Option.map_some, Prog.ret_bind]
    have matched := Table.of_find? found
    simp only [Bool.and_eq_true, beq_iff_eq] at matched
    refine Discipline.wp_query _ _ later.inv (fun _ => rfl) (fun _ => trivial)
      fun answer v' later' => ?_
    show (discipline x allowed).wp _ _ (if answer.claimed = true then _ else _) _ v'
    split
    · cases opened : decrypted x row.toStored with
      | error m =>
        intro secret h
        cases h
      | ok s =>
        intro secret h
        cases h
        refine (later.evolves.trans later'.evolves).has ?_
        exact ⟨row, Table.mem_of_find? found, matched.1, opened⟩
    · intro secret h
      cases h

/-- What a handler may have ended with. -/
def Faithful (x : Setup) (r : Except String Outcome) (w : World) : Prop :=
  ∀ id secret, r = .ok (.signed id (some secret)) → w.Has x id secret

/-- Every handler keeps every secret, and signs with none but that of its endpoint. -/
theorem rotation_obeys : (discipline x allowed).Obeys (rotationSystem x) (Faithful x) where
  env elapsed w legible _ := by
    refine ⟨⟨legible, fun r hr => ?_, fun r hr _ => ?_⟩, fun _ => trivial⟩
    · exact ⟨r, hr, rfl, rfl⟩
    · exact ⟨r, hr, rfl⟩
  call c i v w _ _ later := by
    have legible : w.Legible x := later.inv
    cases c with
    | rotate limit =>
      show (discipline x allowed).wp _ _ (scheduledRotation x limit) _ w
      unfold scheduledRotation
      split
      · refine Discipline.wp_attempt_seq _ _ (wp_rotateWebhookEncryptionBatch legible limit) ?_
        intro r w' _ id secret h
        cases h
      · intro id secret h
        cases h
    | create =>
      refine Discipline.wp_seq _ _ (wp_of_sound createWebhookEndpoint_uses legible) ?_ ?_
      · intro created w' _ id secret h
        cases h
      · intro m w' _ id secret h
        cases h
    | deliver id =>
      refine Discipline.wp_seq _ _ (wp_deliverOne legible id) ?_ ?_
      · intro secret w' has id' secret' h
        cases h
        exact has secret' rfl
      · intro m w' _ id' secret' h
        cases h
    | disable id =>
      refine Discipline.wp_query _ _ legible (fun _ => rfl) (fun _ => trivial)
        fun _ v' later' => ?_
      refine Discipline.wp_act _ _
        (fun answer _ => performs_of_sound (by trivial) later'.inv answer) fun _ _ v'' _ => ?_
      intro id' secret h
      cases h

/-! ### Whole schedules -/

/-- A run starts in the schedule, with a batch limit that is accepted, and ends in it. -/
def CompletesRun (x : Setup) (p : Pool RotationOp RotationOp.Reply World Outcome)
    (ls : Schedule) : Prop :=
  ∃ before limit after, ls = before ++ .spawn (.rotate limit) :: after ∧ 1 ≤ limit ∧ limit ≤ 100 ∧
    ∃ outcome, ((rotationSystem x).runFrom p ls).threads[
      ((rotationSystem x).runFrom p before).threads.length]? = some (.ret outcome)

/-- Each part of the schedule completes a run. -/
def CompleteRuns (x : Setup) : Pool RotationOp RotationOp.Reply World Outcome →
    List Schedule → Prop
  | _, [] => True
  | p, ls :: parts => CompletesRun x p ls ∧ CompleteRuns x ((rotationSystem x).runFrom p ls) parts

/-- A part of a schedule that completes a run leaves less to rotate. -/
theorem card_awaiting_lt (valid : validateWebhookEncryptionConfig x.env = [])
    {p : Pool RotationOp RotationOp.Reply World Outcome} {ls : Schedule}
    (sound : (discipline x (unblockedSteps x)).Sound (rotationSystem x) (Faithful x) p)
    (free : (rotationSystem x).Along (unblockedSteps x) p ls) (completes : CompletesRun x p ls) :
    (((rotationSystem x).runFrom p ls).world.awaiting x).card ≤
      (p.world.awaiting x).card - 1 := by
  obtain ⟨before, limit, after, rfl, some, most, outcome, ended⟩ := completes
  rw [System.runFrom_append] at ended ⊢
  obtain ⟨free₁, free₂⟩ := System.along_append.1 free
  have sound₁ := Discipline.sound_runFrom rotation_obeys sound free₁
  have since := (Discipline.evolves_runFrom rotation_obeys sound free₁).awaiting
  generalize (rotationSystem x).runFrom p before = q at *
  have body : (discipline x (unblockedSteps x)).Stands (rotationSystem x) q.threads.length
      (scheduledRotation x limit)
      (fun _ w' => q.world.awaiting x = ∅ ∨ w'.awaiting x ⊂ q.world.awaiting x) q.world := by
    intro w' later
    have evolved : w'.awaiting x ⊆ q.world.awaiting x := later.evolves.awaiting
    unfold scheduledRotation
    rw [if_pos (by rw [valid]; rfl)]
    refine Discipline.wp_attempt_seq _ _ (Discipline.wp_evolves _ _ later.inv
      (wp_rotates valid later.inv some most)) ?_
    rintro r v ⟨none | fewer, -, ends⟩
    · -- the others have rotated everything in the meantime
      have still : v.awaiting x ⊆ w'.awaiting x := ends.awaiting
      rw [none, Finset.subset_empty] at still
      rcases Finset.eq_empty_or_nonempty (q.world.awaiting x) with start | start
      · exact .inl start
      · exact .inr (still ▸ Finset.empty_ssubset.2 start)
    · exact .inr (fewer.trans_subset evolved)
  have last := Discipline.outcome_of_call rotation_obeys sound₁ free₂ body ended
  have fewer := Finset.card_le_card since
  rcases last with none | less
  · have evolved := (Discipline.evolves_runFrom rotation_obeys sound₁ free₂).awaiting
    rw [none, Finset.subset_empty] at evolved
    rw [evolved]
    exact Nat.zero_le _
  · have := Finset.card_lt_card less
    omega

/-- As many completed runs as there were endpoints to rotate leave none. -/
theorem awaiting_of_completeRuns (valid : validateWebhookEncryptionConfig x.env = [])
    {p : Pool RotationOp RotationOp.Reply World Outcome} {parts : List Schedule}
    (sound : (discipline x (unblockedSteps x)).Sound (rotationSystem x) (Faithful x) p)
    (free : (rotationSystem x).Along (unblockedSteps x) p parts.flatten)
    (complete : CompleteRuns x p parts) (many : (p.world.awaiting x).card ≤ parts.length) :
    ((rotationSystem x).runFrom p parts.flatten).world.awaiting x = ∅ := by
  induction parts generalizing p with
  | nil => exact Finset.card_eq_zero.1 (Nat.le_zero.1 many)
  | cons ls parts ih =>
    rw [List.flatten_cons] at free ⊢
    rw [System.runFrom_append]
    obtain ⟨free₁, free₂⟩ := System.along_append.1 free
    have less := card_awaiting_lt valid sound free₁ complete.1
    refine ih (Discipline.sound_runFrom rotation_obeys sound free₁) free₂ complete.2 ?_
    rw [List.length_cons] at many
    omega

/-- The secrets of the endpoints never change, whatever goes on side by side, and deliveries sign
with them.  If no run starts with an endpoint that cannot be decrypted while others can, then
finitely many runs bring every endpoint that can be decrypted under the active key. -/
theorem secrets_kept_and_rotated (x : Setup)
    (valid : validateWebhookEncryptionConfig x.env = []) (w : World) (legible : w.Legible x) :
    (∀ ls ms : Schedule, ∀ r ∈ ((rotationSystem x).run w ls).world.endpoints,
      ∃ r' ∈ ((rotationSystem x).run w (ls ++ ms)).world.endpoints, r'.id = r.id ∧
        decrypted x r'.toStored = decrypted x r.toStored) ∧
    (∀ (ls : Schedule) (i : Nat) (id : EndpointId) (secret : Text),
      ((rotationSystem x).run w ls).threads[i]? = some (.ret (.signed id (some secret))) →
        ((rotationSystem x).run w ls).world.Has x id secret) ∧
    ∀ parts : List Schedule, (rotationSystem x).Along (unblockedSteps x) ⟨w, []⟩ parts.flatten →
      CompleteRuns x ⟨w, []⟩ parts → (w.awaiting x).card ≤ parts.length →
      ∀ r ∈ ((rotationSystem x).run w parts.flatten).world.endpoints, ∀ s,
        decrypted x r.toStored = .ok s → currentKeyId x.env = .ok r.secretKeyId := by
  have sound (ls : Schedule) : (discipline x .any).Sound (rotationSystem x) (Faithful x)
      ((rotationSystem x).run w ls) :=
    Discipline.pool_sound rotation_obeys legible (System.along_any _ _ _)
  refine ⟨fun ls ms r hr => ?_, fun ls i id secret ended => ?_, fun parts free complete many => ?_⟩
  · have evolves := Discipline.evolves_runFrom rotation_obeys (sound ls)
      (System.along_any (rotationSystem x) _ ms)
    rw [System.run, System.runFrom_append]
    exact evolves.old r hr
  · have ends := (sound ls).threads i _ ended _ (Discipline.later_refl _ (sound ls).inv)
    exact ends id secret rfl
  · have start : (discipline x (unblockedSteps x)).Sound (rotationSystem x) (Faithful x)
        ⟨w, []⟩ := Discipline.sound_empty legible
    exact awaiting_eq_empty.1 (awaiting_of_completeRuns valid start free complete many)

/-! ### An endpoint that stops the others -/

local instance byteValues : NeZero 256 := ⟨by decide⟩

/-- The tag of the cipher of the tests: it depends on the key, the nonce and the additional
data. -/
def testTag (key nonce additionalData : Secrets.Bytes) : Secrets.Bytes :=
  List.replicate 16 (key ++ nonce ++ additionalData).sum

/-- A cipher that appends its tag, and takes it off again where it finds it. -/
def testPlatform : Platform where
  encrypt key nonce additionalData plaintext := plaintext ++ testTag key nonce additionalData
  decrypt key nonce additionalData ciphertext :=
    if testTag key nonce additionalData <:+ ciphertext then
      some (ciphertext.take (ciphertext.length - 16))
    else none
  replaced _ := []
  decrypt_encrypt key nonce additionalData plaintext := by
    rw [if_pos (List.suffix_append _ _)]
    simp [testTag]
  encrypt_ne_nil key nonce additionalData plaintext := by simp [testTag]

/-- The active key is `k2`, and `k1` is the previous one. -/
def testSetup : Setup where
  platform := testPlatform
  env :=
    { keyId := some "k2".toList
      key := some (List.replicate 64 '2')
      keysPrevious := .entries [("k1".toList, some (List.replicate 64 '1'))] }

def testNonce : Nonce := ⟨List.replicate 12 7, by decide⟩

def testAnswer : Answer := ⟨testNonce, [], [], true⟩

/-- An endpoint under a key that is not in the keyring any more. -/
def lostRow : WebhookRow where
  id := "whe_a".toList
  secretCiphertext := "enc:v2:k0:AAAA.AAAA".toList
  secretKeyId := "k0".toList
  active := true
  updatedAt := 1

/-- An endpoint under the previous key. -/
def previousRow : WebhookRow where
  id := "whe_b".toList
  secretCiphertext := formatPrefix ++ "k1".toList ++ ':' :: payloadOf testNonce.val
    (testPlatform.encrypt (List.replicate 32 17) testNonce.val (webhookAad "k1".toList)
      (encodeText "whsec_1".toList))
  secretKeyId := "k1".toList
  active := true
  updatedAt := 2

/-- The endpoints of the tests; the first is written back before the second. -/
def testWorld (rows : List WebhookRow)
    (distinct : rows.Pairwise fun r r' => Row.clash r r' = false) : World where
  endpoints := ⟨rows, distinct⟩
  now := 1000

theorem previousRow_decrypted :
    decrypted testSetup previousRow.toStored = .ok "whsec_1".toList := by
  have keyed : encryptionKey testSetup.env "k1".toList = .ok (List.replicate 32 17) := by
    decide +kernel
  exact decrypt_written testPlatform (by decide) keyed (by decide)

/-- The endpoint under the lost key comes first. -/
def blockedWorld : World := testWorld [lostRow, previousRow] (by decide)

/-- Only the other one. -/
def otherWorld : World := testWorld [previousRow] (by decide)

/-- Runs one after the other: each selects its batch, and ends. -/
def blockedRuns : Nat → Nat → List Schedule
  | _, 0 => []
  | i, n + 1 => [.spawn (.rotate 25), .step i testAnswer] :: blockedRuns (i + 1) n

theorem legible_of_rows {rows : List WebhookRow}
    {distinct : rows.Pairwise fun r r' => Row.clash r r' = false}
    (known : ∀ r ∈ rows, (decrypted testSetup r.toStored).isOk = false ∨ r = previousRow) :
    (testWorld rows distinct).Legible testSetup := by
  intro r hr s hs
  rcases known r hr with closed | rfl
  · rw [hs] at closed
    cases closed
  · rw [previousRow_decrypted] at hs
    cases hs
    decide

theorem lostRow_closed : (decrypted testSetup lostRow.toStored).isOk = false := by decide +kernel

theorem testSetup_valid : validateWebhookEncryptionConfig testSetup.env = [] := by decide +kernel

/-- What a run does with its batch once it has it. -/
def testRun (rows : List Stored) : Handler Outcome :=
  ((rotateRows testSetup rows 0).bind fun rotated =>
    (Prog.perform (RotationOp.countPending "k2".toList)).bind fun remaining =>
      .ret ⟨rows.length, rotated, remaining⟩).attempt.bind
    fun outcome => .ret (.rotated outcome.toOption)

theorem testSetup_body :
    Call.body testSetup (.rotate 25) = .act (.selectPending "k2".toList 25) testRun := by
  have active : currentKeyId testSetup.env = .ok "k2".toList := by decide +kernel
  show scheduledRotation testSetup 25 = _
  rw [scheduledRotation, if_pos (by rw [testSetup_valid]; rfl), rotateWebhookEncryptionBatch,
    active]
  rfl

/-- A run that begins with the lost key ends at once. -/
theorem blocked_run (threads : List (Handler Outcome)) :
    (rotationSystem testSetup).runFrom ⟨blockedWorld, threads⟩
        [.spawn (.rotate 25), .step threads.length testAnswer] =
      ⟨blockedWorld, threads ++ [.ret (.rotated none)]⟩ := by
  have selected : ((blockedWorld.pending "k2".toList).take 25).map (·.toStored) =
      [lostRow.toStored, previousRow.toStored] := by decide +kernel
  have ends : testRun [lostRow.toStored, previousRow.toStored] = .ret (.rotated none) := by
    have closed := lostRow_closed
    unfold testRun rotateRows
    cases h : decrypted testSetup lostRow.toStored with
    | error m => rfl
    | ok s =>
      rw [h] at closed
      cases closed
  have started : (threads ++ [Call.body testSetup (.rotate 25)])[threads.length]? =
      some (.act (.selectPending "k2".toList 25) testRun) := by
    rw [List.getElem?_concat_length, testSetup_body]
  simp only [System.runFrom_cons, System.runFrom_nil, System.next, rotationSystem, started,
    RotationOp.exec, selected, ends]
  rw [List.set_append_right _ _ le_rfl, Nat.sub_self]
  rfl

theorem blockedRuns_complete (n : Nat) (threads : List (Handler Outcome)) :
    CompleteRuns testSetup ⟨blockedWorld, threads⟩ (blockedRuns threads.length n) ∧
      ((rotationSystem testSetup).runFrom ⟨blockedWorld, threads⟩
        (blockedRuns threads.length n).flatten).world = blockedWorld := by
  induction n generalizing threads with
  | zero => exact ⟨trivial, rfl⟩
  | succ n ih =>
    have run := blocked_run threads
    have rest := ih (threads ++ [.ret (.rotated none)])
    rw [List.length_append, List.length_singleton] at rest
    rw [blockedRuns, List.flatten_cons, System.runFrom_append, run]
    refine ⟨⟨⟨[], 25, [.step threads.length testAnswer], rfl, by decide, by decide,
      .rotated none, ?_⟩, ?_⟩, rest.2⟩
    · rw [run, System.runFrom_nil]
      exact List.getElem?_concat_length
    · rw [run]
      exact rest.1

/-- However many runs are completed, the endpoint behind the lost key stays where it is. -/
theorem lostKey_starves :
    decrypted testSetup previousRow.toStored = .ok "whsec_1".toList ∧
      ∀ n : Nat, CompleteRuns testSetup ⟨blockedWorld, []⟩ (blockedRuns 0 n) ∧
        previousRow ∈ ((rotationSystem testSetup).run blockedWorld
          (blockedRuns 0 n).flatten).world.endpoints := by
  refine ⟨previousRow_decrypted, fun n => ?_⟩
  obtain ⟨complete, world⟩ := blockedRuns_complete n []
  refine ⟨complete, ?_⟩
  have same : ((rotationSystem testSetup).run blockedWorld (blockedRuns 0 n).flatten).world =
      blockedWorld := world
  rw [same]
  exact List.mem_cons_of_mem _ List.mem_cons_self

/-- A run of the endpoint alone: it is selected, encrypted with a new nonce, and written back. -/
def otherRun : Schedule :=
  .spawn (.rotate 25) :: List.replicate 5 (.step 0 testAnswer)

/-- Whether a handler has ended with a value. -/
def ended : Option (Handler Outcome) → Bool
  | some (.ret _) => true
  | _ => false

theorem exists_of_ended {t : Option (Handler Outcome)} (h : ended t = true) :
    ∃ outcome, t = some (.ret outcome) := by
  unfold ended at h
  split at h
  · exact ⟨_, rfl⟩
  · cases h

theorem otherRun_rotates :
    otherWorld.Legible testSetup ∧
      ∀ r ∈ ((rotationSystem testSetup).run otherWorld [otherRun].flatten).world.endpoints, ∀ s,
        decrypted testSetup r.toStored = .ok s →
          currentKeyId testSetup.env = .ok r.secretKeyId := by
  have legible : otherWorld.Legible testSetup :=
    legible_of_rows fun r hr => .inr (List.mem_singleton.1 hr)
  refine ⟨legible, (secrets_kept_and_rotated testSetup testSetup_valid otherWorld legible).2.2
    [otherRun] (by decide +kernel) ⟨?_, trivial⟩ (by decide +kernel)⟩
  exact ⟨[], 25, List.replicate 5 (.step 0 testAnswer), rfl, by decide, by decide,
    exists_of_ended (by decide +kernel)⟩

end ParmeliaLinks.Jobs.Rotation
