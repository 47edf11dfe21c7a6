/-
ParmeliaLinks/Auth/RegistrationOnce.lean

What holds of the registrations in every run.  A user has one open challenge for a
purpose at most; a challenge is bound to one credential at most, which was verified
for it and stays; five verifications run for it at most; what a request returns is
what the row holds.

A challenge is not finalized once a newer one has closed it, nor when it had expired
at the time that the claiming request read from its clock.  That reading is older
than the claim: the row is read in between, and the challenge may expire meanwhile
(`expired_when_claimed`).
-/
import Mathlib.Data.Option.Basic
import ParmeliaLinks.Auth.Registration

namespace ParmeliaLinks.Auth

variable {env : Env} {i : Nat} {w w' : World}

/-! ### What is kept -/

/-- The columns of a row that no statement changes. -/
def RegistrationRow.terms (r : RegistrationRow) :
    RegistrationId × String × WebAuthnRegistrationPurpose × Challenge × String ×
      Option String × Timestamp :=
  (r.id, r.uid, r.purpose, r.challenge, r.expectedOrigin, r.expectedRpId, r.expiresAt)

/-- The row holds the credential of the binding. -/
structure Binding.Of (b : Binding) (r : RegistrationRow) : Prop where
  registration : b.registration = r.id
  credentialId : r.credentialId = some b.credentialId
  qx : r.qx = some b.qx
  qy : r.qy = some b.qy

/-- The response was made for the challenge, the origin and the relying party of the
row, and the library has accepted it for these. -/
def MadeFor (env : Env) (response : RegistrationResponse) (r : RegistrationRow) : Prop :=
  ∃ rpId, r.expectedRpId = some rpId ∧
    env.verifier.madeFor response = ⟨r.challenge, r.expectedOrigin, rpId⟩

namespace World

/-- How often a registration has been claimed. -/
def claims (w : World) (id : RegistrationId) : Nat := w.notes.countP (·.registration == id)

/-- How many of the claims have reached the library. -/
def checked (w : World) (id : RegistrationId) : Nat :=
  w.notes.countP fun n => n.registration == id && n.checked

/-- The row agrees with the histories. -/
structure Fits (w : World) (r : RegistrationRow) : Prop where
  issued : ∃ r₀ ∈ w.issued, r₀.terms = r.terms
  attempts : w.claims r.id = r.verificationAttempts
  claimed : ∀ c, r.claimId = some c →
    ∃ n ∈ w.notes, n.claim = c ∧ n.registration = r.id ∧ n.reading < r.expiresAt
  superseded : w.superseded r.id = true → r.consumedAt ≠ none
  settled :
    (r.credentialId = none ∧ r.finalizedAt = none ∧ ∀ b ∈ w.bound, b.registration ≠ r.id) ∨
      (r.consumedAt ≠ none ∧ ∃ b ∈ w.bound, b.Of r)

/-- What holds of the tables and the histories. -/
structure Orderly (env : Env) (w : World) : Prop where
  rows : ∀ r ∈ w.rows, w.Fits r
  single : ∀ r ∈ w.rows, ∀ r' ∈ w.rows, r.uid = r'.uid → r.purpose = r'.purpose →
    r.consumedAt = none → r'.consumedAt = none → r = r'
  drawn : ∀ id, w.owner id ≠ none → id < w.drawn
  owned : ∀ r ∈ w.issued, w.owner r.id ≠ none
  issuedOnce : w.issued.Pairwise fun r r' => r.id ≠ r'.id
  notes : ∀ n ∈ w.notes, n.claim < w.drawn ∧ n.reading ≤ n.moment ∧
    ∃ r ∈ w.issued, r.id = n.registration
  notesOnce : w.notes.Pairwise fun n n' => n.claim ≠ n'.claim
  bounded : ∀ id, w.claims id ≤ maxVerificationAttempts
  verified : ∀ id, w.verifications id = w.checked id
  boundOnce : w.bound.Pairwise fun b b' => b.registration ≠ b'.registration
  timely : ∀ b ∈ w.bound, ∃ r ∈ w.issued, r.id = b.registration ∧ MadeFor env b.response r ∧
    ∃ n ∈ w.notes, n.claim = b.claim ∧ n.registration = b.registration ∧ n.reading < r.expiresAt
  superseded : ∀ id, w.superseded id = true →
    (∃ r ∈ w.issued, r.id = id) ∧ ∀ b ∈ w.bound, b.registration ≠ id

/-- What was issued and bound stays, and time goes on. -/
structure Grows (w w' : World) : Prop where
  clock : w.clock ≤ w'.clock
  issued : ∀ r ∈ w.issued, r ∈ w'.issued
  bound : w.bound <+: w'.bound

/-- What the others leave to the thread `i`. -/
structure Spares (i : Nat) (w w' : World) : Prop where
  notes : ∀ n ∈ w.notes, n.thread = i → n ∈ w'.notes
  owner : ∀ id, w.owner id = some i → w'.owner id = some i
  issued : ∀ r ∈ w'.issued, w.owner r.id = some i → r ∈ w.issued

theorem Grows.rfl (w : World) : w.Grows w := ⟨Nat.le_refl _, fun _ h => h, List.prefix_rfl⟩

theorem Grows.trans {w₁ w₂ w₃ : World} (h : w₁.Grows w₂) (h' : w₂.Grows w₃) : w₁.Grows w₃ where
  clock := Nat.le_trans h.clock h'.clock
  issued r hr := h'.issued r (h.issued r hr)
  bound := h.bound.trans h'.bound

theorem Grows.mem_bound (h : w.Grows w') {b : Binding} (hb : b ∈ w.bound) : b ∈ w'.bound :=
  h.bound.subset hb

theorem Spares.rfl (i : Nat) (w : World) : w.Spares i w :=
  ⟨fun _ h _ => h, fun _ h => h, fun _ h _ => h⟩

theorem Spares.trans {w₁ w₂ w₃ : World} (h : w₁.Spares i w₂) (h' : w₂.Spares i w₃) :
    w₁.Spares i w₃ where
  notes n hn own := h'.notes n (h.notes n hn own) own
  owner id own := h'.owner id (h.owner id own)
  issued r hr own := h.issued r (h'.issued r hr (h.owner _ own)) own

end World

def registrationDiscipline (env : Env) :
    Discipline RegistrationOp World Answer Tick RegistrationCall where
  Inv := World.Orderly env
  Evolves := World.Grows
  rely := World.Spares
  refl := World.Grows.rfl
  trans := World.Grows.trans
  rely_refl := World.Spares.rfl
  rely_trans := World.Spares.trans

abbrev RegistrationHandler.wp {α : Type} (p : RegistrationHandler α) (env : Env) (i : Nat)
    (Q : Except String α → World → Prop) (w : World) : Prop :=
  (registrationDiscipline env).wp (registrationSystem env) i p Q w

abbrev LaterFor (env : Env) (i : Nat) (w w' : World) : Prop :=
  (registrationDiscipline env).Later i w w'

/-- A step of the thread `i` that follows the discipline. -/
structure World.Keeps (env : Env) (i : Nat) (w w' : World) : Prop where
  orderly : w'.Orderly env
  grows : w.Grows w'
  spares : ∀ j, j ≠ i → w.Spares j w'

theorem World.Keeps.rfl (hw : w.Orderly env) : w.Keeps env i w :=
  ⟨hw, .rfl w, fun j _ => .rfl j w⟩

theorem performs_of_keeps {o : RegistrationOp} {x : Answer}
    (keeps : w.Keeps env i (o.exec env i x w).2) :
    (registrationDiscipline env).Performs (registrationSystem env) i o x w :=
  ⟨⟨keeps.orderly, keeps.grows⟩, keeps.spares, trivial⟩

/-! ### Rows and histories -/

/-- The row fits later histories that say no more of it. -/
theorem World.Fits.later {r : RegistrationRow} (h : w.Fits r) (issued : ∀ r ∈ w.issued, r ∈ w'.issued)
    (claims : w'.claims r.id = w.claims r.id)
    (notes : ∀ n ∈ w.notes, ∃ n' ∈ w'.notes, n'.claim = n.claim ∧
      n'.registration = n.registration ∧ n'.reading = n.reading)
    (superseded : w'.superseded r.id = true → w.superseded r.id = true)
    (bound : ∀ b ∈ w.bound, b ∈ w'.bound)
    (unbound : ∀ b ∈ w'.bound, b ∈ w.bound ∨ b.registration ≠ r.id) : w'.Fits r where
  issued := by
    obtain ⟨r₀, hr₀, same⟩ := h.issued
    exact ⟨r₀, issued r₀ hr₀, same⟩
  attempts := claims.trans h.attempts
  claimed c hc := by
    obtain ⟨n, hn, rfl, registration, timely⟩ := h.claimed c hc
    obtain ⟨n', hn', claim, same, reading⟩ := notes n hn
    exact ⟨n', hn', claim, same.trans registration, by rw [reading]; exact timely⟩
  superseded hs := h.superseded (superseded hs)
  settled := by
    rcases h.settled with ⟨none, open_, free⟩ | ⟨consumed, b, hb, of⟩
    · refine .inl ⟨none, open_, fun b hb => ?_⟩
      rcases unbound b hb with hb | other
      · exact free b hb
      · exact other
    · exact .inr ⟨consumed, b, bound b hb, of⟩

/-- An update of rows that says nothing of the histories. -/
theorem World.Orderly.of_rows (h : w.Orderly env) (rows : Table RegistrationRow)
    (fits : ∀ r ∈ rows, w.Fits r)
    (single : ∀ r ∈ rows, ∀ r' ∈ rows, r.uid = r'.uid → r.purpose = r'.purpose →
      r.consumedAt = none → r'.consumedAt = none → r = r') :
    World.Orderly env { w with rows } where
  rows r hr := by
    obtain ⟨issued, attempts, claimed, superseded, settled⟩ := fits r hr
    exact ⟨issued, attempts, claimed, superseded, settled⟩
  single := single
  drawn := h.drawn
  owned := h.owned
  issuedOnce := h.issuedOnce
  notes := h.notes
  notesOnce := h.notesOnce
  bounded := h.bounded
  verified := h.verified
  boundOnce := h.boundOnce
  timely := h.timely
  superseded := h.superseded

theorem World.Keeps.of_rows (rows : Table RegistrationRow)
    (orderly : World.Orderly env { w with rows }) : w.Keeps env i { w with rows } :=
  ⟨orderly, ⟨Nat.le_refl _, fun _ h => h, List.prefix_rfl⟩,
    fun _ _ => ⟨fun _ h _ => h, fun _ h => h, fun _ h _ => h⟩⟩

/-- Rows of a user for a purpose remain single when an update opens none. -/
theorem single_modify {t : Table RegistrationRow} {p : RegistrationRow → Bool}
    {f : RegistrationRow → RegistrationRow} (hf : Table.KeepsKeys f)
    (h : ∀ r ∈ t, ∀ r' ∈ t, r.uid = r'.uid → r.purpose = r'.purpose →
      r.consumedAt = none → r'.consumedAt = none → r = r')
    (uid : ∀ r, (f r).uid = r.uid) (purpose : ∀ r, (f r).purpose = r.purpose)
    (opens : ∀ r, (f r).consumedAt = none → r.consumedAt = none) :
    ∀ r ∈ t.modify p f hf, ∀ r' ∈ t.modify p f hf, r.uid = r'.uid → r.purpose = r'.purpose →
      r.consumedAt = none → r'.consumedAt = none → r = r' := by
  have back : ∀ r₀, (if p r₀ then f r₀ else r₀).uid = r₀.uid ∧
      (if p r₀ then f r₀ else r₀).purpose = r₀.purpose ∧
      ((if p r₀ then f r₀ else r₀).consumedAt = none → r₀.consumedAt = none) := by
    intro r₀
    split
    · exact ⟨uid r₀, purpose r₀, opens r₀⟩
    · exact ⟨rfl, rfl, fun p => p⟩
  intro r hr r' hr' sameUid samePurpose free free'
  obtain ⟨r₀, hr₀, rfl⟩ := Table.mem_modify.1 hr
  obtain ⟨r₁, hr₁, rfl⟩ := Table.mem_modify.1 hr'
  obtain ⟨uid₀, purpose₀, open₀⟩ := back r₀
  obtain ⟨uid₁, purpose₁, open₁⟩ := back r₁
  have same := h r₀ hr₀ r₁ hr₁ (uid₀.symm.trans (sameUid.trans uid₁))
    (purpose₀.symm.trans (samePurpose.trans purpose₁)) (open₀ free) (open₁ free')
  rw [same]

/-! ### What each statement keeps -/

theorem keeps_release (hw : w.Orderly env) (id : RegistrationId) (claimId : ClaimId) :
    w.Keeps env i (w.release id claimId) := by
  refine .of_rows _ (hw.of_rows _ (fun r hr => ?_) ?_)
  · obtain ⟨r₀, hr₀, rfl⟩ := Table.mem_modify.1 hr
    have fits := hw.rows r₀ hr₀
    split
    · exact ⟨fits.issued, fits.attempts, nofun, fits.superseded, fits.settled.imp_right
        fun ⟨consumed, b, hb, of⟩ => ⟨consumed, b, hb, of.1, of.2, of.3, of.4⟩⟩
    · exact fits
  · exact single_modify (by exact ⟨fun _ _ => rfl⟩) hw.single (fun _ => rfl) (fun _ => rfl) fun _ h => h

theorem keeps_describe (hw : w.Orderly env) (id : RegistrationId) (uid : String)
    (v : VerifiedResponse) : w.Keeps env i (w.describe id uid v) := by
  refine .of_rows _ (hw.of_rows _ (fun r hr => ?_) ?_)
  · obtain ⟨r₀, hr₀, rfl⟩ := Table.mem_modify.1 hr
    have fits := hw.rows r₀ hr₀
    split
    · exact ⟨fits.issued, fits.attempts, fits.claimed, fits.superseded, fits.settled.imp_right
        fun ⟨consumed, b, hb, of⟩ => ⟨consumed, b, hb, of.1, of.2, of.3, of.4⟩⟩
    · exact fits
  · exact single_modify (by exact ⟨fun _ _ => rfl⟩) hw.single (fun _ => rfl) (fun _ => rfl) fun _ h => h

theorem keeps_deleteExpired (hw : w.Orderly env) (cutoff : Timestamp) :
    w.Keeps env i (w.deleteExpired cutoff) := by
  refine .of_rows _ (hw.of_rows _ (fun r hr => ?_) fun r hr r' hr' => ?_)
  · exact hw.rows r (Table.mem_delete.1 hr).1
  · exact hw.single r (Table.mem_delete.1 hr).1 r' (Table.mem_delete.1 hr').1

/-- The id has been drawn by the thread and not used. -/
structure World.Fresh (w : World) (i : Nat) (id : RegistrationId) : Prop where
  owner : w.owner id = some i
  unused : ∀ r ∈ w.issued, r.id ≠ id

theorem World.Fresh.later {id : RegistrationId} (h : w.Fresh i id) (spares : w.Spares i w') :
    w'.Fresh i id where
  owner := spares.owner id h.owner
  unused r hr same := h.unused r (spares.issued r hr (by rw [same]; exact h.owner)) same

/-- Random values are drawn. -/
def World.draw (w : World) (i : Nat) : World :=
  { w with
    drawn := w.drawn + 2
    owner := fun id => if id = w.drawn then some i else w.owner id }

theorem keeps_draw (hw : w.Orderly env) :
    w.Keeps env i (w.draw i) ∧ (w.draw i).Fresh i w.drawn := by
  have unowned : w.owner w.drawn = none := by
    by_contra owned
    exact Nat.lt_irrefl _ (hw.drawn _ owned)
  have known : ∀ r ∈ w.issued, r.id ≠ w.drawn := by
    rintro r hr same
    apply hw.owned r hr
    rw [same]
    exact unowned
  refine ⟨⟨?_, ⟨Nat.le_refl _, fun _ h => h, List.prefix_rfl⟩, fun j _ => ?_⟩, ?_, known⟩
  · refine ⟨fun r hr => ?_, hw.single, fun id owned => ?_, fun r hr => ?_, hw.issuedOnce,
      fun n hn => ?_, hw.notesOnce, hw.bounded, hw.verified, hw.boundOnce, hw.timely,
      hw.superseded⟩
    · obtain ⟨issued, attempts, claimed, superseded, settled⟩ := hw.rows r hr
      exact ⟨issued, attempts, claimed, superseded, settled⟩
    · show id < w.drawn + 2
      simp only [World.draw] at owned
      split at owned
      · rename_i same
        rw [same]
        exact Nat.lt_add_of_pos_right (by decide)
      · exact Nat.lt_add_right 2 (hw.drawn id owned)
    · simp only [World.draw]
      rw [if_neg (known r hr)]
      exact hw.owned r hr
    · obtain ⟨past, moment, issued⟩ := hw.notes n hn
      exact ⟨Nat.lt_add_right 2 past, moment, issued⟩
  · refine ⟨fun _ h _ => h, fun id owned => ?_, fun _ h _ => h⟩
    show (if id = w.drawn then some i else w.owner id) = some j
    rw [if_neg, owned]
    rintro rfl
    rw [unowned] at owned
    cases owned
  · exact if_pos rfl

/-- The row as it is inserted. -/
structure RegistrationRow.Blank (r : RegistrationRow) : Prop where
  credentialId : r.credentialId = none
  finalizedAt : r.finalizedAt = none
  claimId : r.claimId = none
  verificationAttempts : r.verificationAttempts = 0

/-- The open rows of the user and the purpose, closed. -/
def closing (row r : RegistrationRow) : RegistrationRow :=
  { r with consumedAt := some row.createdAt }

/-- Rows remain single when the open ones are closed before one is inserted. -/
theorem single_issue {t t' : Table RegistrationRow} {row : RegistrationRow}
    (h : ∀ r ∈ t, ∀ r' ∈ t, r.uid = r'.uid → r.purpose = r'.purpose →
      r.consumedAt = none → r'.consumedAt = none → r = r')
    (inserted : (t.modify (World.openFor row.uid row.purpose) (closing row)
      ⟨fun _ _ => rfl⟩).insert row = some t') :
    ∀ r ∈ t', ∀ r' ∈ t', r.uid = r'.uid → r.purpose = r'.purpose →
      r.consumedAt = none → r'.consumedAt = none → r = r' := by
  have mem := @Table.mem_of_rows_append _ _ _ _ _ (Table.insert_rows inserted).1
  have closed : ∀ r ∈ t.modify (World.openFor row.uid row.purpose) (closing row)
      ⟨fun _ _ => rfl⟩, r.uid = row.uid → r.purpose = row.purpose → r.consumedAt ≠ none := by
    intro r hr uid purpose
    obtain ⟨r₀, hr₀, rfl⟩ := Table.mem_modify.1 hr
    split
    · simp [closing]
    · rename_i stays
      intro free
      rw [if_neg stays] at uid purpose
      apply stays
      simp [World.openFor, uid, purpose, free]
  have modified := single_modify (t := t) (p := World.openFor row.uid row.purpose)
    (f := closing row) ⟨fun _ _ => rfl⟩ h (fun _ => rfl) (fun _ => rfl) fun _ free => by simp [closing] at free
  intro r hr r' hr' uid purpose free free'
  rcases mem.1 hr with old | new
  · rcases mem.1 hr' with old' | new'
    · exact modified r old r' old' uid purpose free free'
    · rw [new'] at uid purpose
      exact absurd free (closed r old uid purpose)
  · rcases mem.1 hr' with old' | new'
    · rw [new] at uid purpose
      exact absurd free' (closed r' old' uid.symm purpose.symm)
    · exact new.trans new'.symm

/-- A newer challenge closes the open ones. -/
theorem keeps_issue (hw : w.Orderly env) {row : RegistrationRow} (fresh : w.Fresh i row.id)
    (blank : row.Blank) : w.Keeps env i (w.issue row).2 := by
  unfold World.issue
  dsimp only
  split
  · exact .rfl hw
  rename_i rows inserted
  have mem := @Table.mem_of_rows_append _ _ _ _ _ (Table.insert_rows inserted).1
  have claims : w.claims row.id = 0 := by
    refine List.countP_eq_zero.2 fun n hn same => ?_
    obtain ⟨-, -, r, hr, hid⟩ := hw.notes n hn
    exact fresh.unused r hr (hid.trans (beq_iff_eq.1 same))
  have unbound : ∀ b ∈ w.bound, b.registration ≠ row.id := by
    rintro b hb same
    obtain ⟨r, hr, hid, -⟩ := hw.timely b hb
    exact fresh.unused r hr (hid.trans same)
  have unseen : w.superseded row.id = false := by
    by_contra seen
    obtain ⟨r, hr, hid⟩ := (hw.superseded row.id (Bool.not_eq_false _ ▸ seen)).1
    exact fresh.unused r hr hid
  -- a row with another id is as before, or closed
  have before : ∀ r₀ ∈ w.rows, r₀.id ≠ row.id := by
    intro r₀ hr₀
    obtain ⟨r, hr, terms⟩ := (hw.rows r₀ hr₀).issued
    have hid : r.id = r₀.id := congrArg Prod.fst terms
    rw [← hid]
    exact fresh.unused r hr
  refine ⟨⟨?_, ?_, hw.drawn, ?_, ?_, ?_, hw.notesOnce, hw.bounded, hw.verified, hw.boundOnce,
      ?_, ?_⟩, ⟨Nat.le_refl _, fun r hr => List.mem_append_left _ hr, List.prefix_rfl⟩,
      fun j hj => ⟨fun _ h _ => h, fun _ h => h, fun r hr own => ?_⟩⟩
  · intro r hr
    rcases mem.1 hr with hr | rfl
    · obtain ⟨r₀, hr₀, rfl⟩ := Table.mem_modify.1 hr
      obtain ⟨⟨r₁, hr₁, terms⟩, attempts, claimed, superseded, settled⟩ := hw.rows r₀ hr₀
      have issued : ∃ r₁ ∈ w.issued ++ [row], r₁.terms = r₀.terms :=
        ⟨r₁, List.mem_append_left _ hr₁, terms⟩
      split
      · refine ⟨issued, attempts, claimed, fun _ => by simp, ?_⟩
        rcases settled with free | ⟨-, b, hb, of⟩
        · exact .inl free
        · exact .inr ⟨by simp, b, hb, of.1, of.2, of.3, of.4⟩
      · rename_i stays
        refine ⟨issued, attempts, claimed, fun seen => ?_, settled⟩
        simp only [Bool.or_eq_true, Table.any_eq_true, Bool.and_eq_true, beq_iff_eq] at seen
        rcases seen with seen | ⟨r₂, hr₂, hid, closes⟩
        · exact superseded seen
        · obtain rfl := Table.eq_of_clash hr₂ hr₀ (beq_iff_eq.2 hid)
          exact absurd closes stays
    · refine ⟨⟨r, by simp, rfl⟩, claims.trans blank.verificationAttempts.symm, ?_, ?_,
        .inl ⟨blank.credentialId, blank.finalizedAt, unbound⟩⟩
      · rw [blank.claimId]
        exact nofun
      · intro seen
        simp only [unseen, Bool.false_or, Table.any_eq_true, Bool.and_eq_true, beq_iff_eq] at seen
        obtain ⟨r₂, hr₂, hid, -⟩ := seen
        exact absurd hid (before r₂ hr₂)
  · exact single_issue hw.single inserted
  · intro r hr
    rcases List.mem_append.1 hr with hr | hr
    · exact hw.owned r hr
    · rw [List.mem_singleton.1 hr]
      show w.owner row.id ≠ none
      rw [fresh.owner]
      exact nofun
  · refine List.pairwise_append.2 ⟨hw.issuedOnce, List.pairwise_singleton _ _, ?_⟩
    intro r hr r' hr'
    rw [List.mem_singleton.1 hr']
    exact fresh.unused r hr
  · intro n hn
    obtain ⟨past, moment, r, hr, hid⟩ := hw.notes n hn
    exact ⟨past, moment, r, List.mem_append_left _ hr, hid⟩
  · intro b hb
    obtain ⟨r, hr, rest⟩ := hw.timely b hb
    exact ⟨r, List.mem_append_left _ hr, rest⟩
  · intro id seen
    simp only [Bool.or_eq_true, Table.any_eq_true, Bool.and_eq_true, beq_iff_eq] at seen
    rcases seen with seen | ⟨r₂, hr₂, rfl, closes⟩
    · obtain ⟨⟨r, hr, hid⟩, free⟩ := hw.superseded id seen
      exact ⟨⟨r, List.mem_append_left _ hr, hid⟩, free⟩
    · have fits := hw.rows r₂ hr₂
      obtain ⟨r, hr, terms⟩ := fits.issued
      refine ⟨⟨r, List.mem_append_left _ hr, congrArg Prod.fst terms⟩, ?_⟩
      have free : r₂.consumedAt = none := by
        simp only [World.openFor, Bool.and_eq_true, Option.isNone_iff_eq_none] at closes
        exact closes.2
      rcases fits.settled with ⟨-, -, free'⟩ | ⟨consumed, -⟩
      · exact free'
      · exact absurd free consumed
  · rcases List.mem_append.1 hr with hr | hr
    · exact hr
    · rw [List.mem_singleton.1 hr] at own
      have own : w.owner row.id = some j := own
      rw [fresh.owner] at own
      exact absurd (Option.some.inj own).symm hj

/-- The row that an update of one registration matches. -/
theorem exists_of_changes {t : Table RegistrationRow} {p : RegistrationRow → Bool}
    (h : t.changes p = 1) : ∃ r ∈ t, p r = true :=
  Table.changes_pos.1 (by omega)

theorem claims_concat (w : World) (n : ClaimNote) (id : RegistrationId) :
    World.claims { w with notes := w.notes ++ [n] } id =
      w.claims id + if n.registration = id then 1 else 0 := by
  simp [World.claims, List.countP_append, List.countP_singleton]

theorem checked_concat (w : World) {n : ClaimNote} (new : n.checked = false)
    (id : RegistrationId) :
    World.checked { w with notes := w.notes ++ [n] } id = w.checked id := by
  simp [World.checked, List.countP_append, new]

/-- A claim that succeeds is noted with the thread that made it. -/
def World.Holds (w : World) (i : Nat) (claimId : ClaimId) (id : RegistrationId) : Prop :=
  ∃ n ∈ w.notes, n.thread = i ∧ n.claim = claimId ∧ n.registration = id ∧ n.checked = false

theorem World.Holds.later {claimId : ClaimId} {id : RegistrationId} (h : w.Holds i claimId id)
    (spares : w.Spares i w') : w'.Holds i claimId id := by
  obtain ⟨n, hn, own, rest⟩ := h
  exact ⟨n, spares.notes n hn own, own, rest⟩

/-- A random value is drawn. -/
theorem keeps_drawn (hw : w.Orderly env) : w.Keeps env i { w with drawn := w.drawn + 1 } := by
  refine ⟨⟨fun r hr => ?_, hw.single, fun id owned => Nat.lt_succ_of_lt (hw.drawn id owned),
    hw.owned, hw.issuedOnce, fun n hn => ?_, hw.notesOnce, hw.bounded, hw.verified,
    hw.boundOnce, hw.timely, hw.superseded⟩, ⟨Nat.le_refl _, fun _ h => h, List.prefix_rfl⟩,
    fun j _ => ⟨fun _ h _ => h, fun _ h => h, fun _ h _ => h⟩⟩
  · obtain ⟨issued, attempts, claimed, superseded, settled⟩ := hw.rows r hr
    exact ⟨issued, attempts, claimed, superseded, settled⟩
  · exact ⟨Nat.lt_succ_of_lt (hw.notes n hn).1, (hw.notes n hn).2⟩

/-- A claim takes an open row that has not expired at the reading of the clock. -/
theorem keeps_claim (hw : w.Orderly env) (id : RegistrationId) (uid : String)
    (purpose : WebAuthnRegistrationPurpose) {reading : Timestamp} (past : reading ≤ w.clock) :
    w.Keeps env i (World.claim { w with drawn := w.drawn + 1 } i id uid purpose w.drawn reading).2 := by
  have drawn := (keeps_drawn (i := i) hw).orderly
  unfold World.claim
  split
  swap
  · exact keeps_drawn hw
  rename_i changed
  obtain ⟨r₁, hr₁, able⟩ := exists_of_changes changed
  simp only [World.claimable, World.rowOf, Bool.and_eq_true, beq_iff_eq, decide_eq_true_eq,
    Option.isNone_iff_eq_none] at able
  obtain ⟨⟨⟨⟨⟨⟨rfl, rfl⟩, rfl⟩, unclaimed⟩, open_⟩, timely⟩, few⟩ := able
  have fits₁ := hw.rows r₁ hr₁
  have fresh : ∀ n ∈ w.notes, n.claim ≠ w.drawn := fun n hn same =>
    Nat.lt_irrefl _ (same ▸ (hw.notes n hn).1)
  -- the row that is claimed is the only one with its id
  have only : ∀ r ∈ w.rows, World.claimable r₁.id r₁.uid r₁.purpose reading r = true → r = r₁ := by
    intro r hr able
    simp only [World.claimable, World.rowOf, Bool.and_eq_true, beq_iff_eq] at able
    exact Table.eq_of_clash hr hr₁ (beq_iff_eq.2 able.1.1.1.1.1.1)
  refine ⟨⟨fun r hr => ?_, ?_, drawn.drawn, hw.owned, hw.issuedOnce, ?_, ?_, ?_, ?_,
    hw.boundOnce, ?_, hw.superseded⟩, ⟨Nat.le_refl _, fun _ h => h, List.prefix_rfl⟩,
    fun j _ => ⟨fun n hn _ => List.mem_append_left _ hn, fun _ h => h, fun _ h _ => h⟩⟩
  · have hr : r ∈ w.rows.modify (World.claimable r₁.id r₁.uid r₁.purpose reading)
        (World.claimedRow w.drawn reading) ⟨fun _ _ => rfl⟩ := hr
    obtain ⟨r₀, hr₀, rfl⟩ := Table.mem_modify.1 hr
    obtain ⟨issued, attempts, claimed, superseded, settled⟩ := hw.rows r₀ hr₀
    split
    · rename_i able
      obtain rfl := only r₀ hr₀ able
      refine ⟨issued, ?_, fun c hc => ?_, superseded, settled.imp_right ?_⟩
      · refine (claims_concat w _ r₀.id).trans ?_
        rw [attempts, if_pos rfl]
        rfl
      · obtain rfl := Option.some.inj hc
        exact ⟨_, List.mem_append_right _ (List.mem_singleton_self _), rfl, rfl, timely⟩
      · rintro ⟨consumed, b, hb, of⟩
        exact ⟨consumed, b, hb, of.1, of.2, of.3, of.4⟩
    · rename_i other
      refine ⟨issued, ?_, fun c hc => ?_, superseded, settled⟩
      · refine (claims_concat w _ r₀.id).trans ?_
        rw [attempts, if_neg, Nat.add_zero]
        intro same
        obtain rfl := Table.eq_of_clash hr₁ hr₀ (beq_iff_eq.2 same)
        apply other
        simp [World.claimable, World.rowOf, unclaimed, open_, timely, few]
      · obtain ⟨n, hn, rest⟩ := claimed c hc
        exact ⟨n, List.mem_append_left _ hn, rest⟩
  · exact single_modify (by exact ⟨fun _ _ => rfl⟩) hw.single (fun _ => rfl) (fun _ => rfl) fun _ h => h
  · intro n hn
    rcases List.mem_append.1 hn with hn | hn
    · exact drawn.notes n hn
    · rw [List.mem_singleton.1 hn]
      obtain ⟨r₀, hr₀, terms⟩ := fits₁.issued
      exact ⟨Nat.lt_succ_self _, past, r₀, hr₀, congrArg Prod.fst terms⟩
  · refine List.pairwise_append.2 ⟨hw.notesOnce, List.pairwise_singleton _ _, ?_⟩
    intro n hn n' hn'
    rw [List.mem_singleton.1 hn']
    exact fresh n hn
  · intro id
    refine Nat.le_trans (Nat.le_of_eq (claims_concat w _ id)) ?_
    split
    · rename_i same
      rw [← same]
      show w.claims r₁.id + 1 ≤ _
      rw [fits₁.attempts]
      exact few
    · exact hw.bounded id
  · intro id
    exact (hw.verified id).trans (checked_concat w rfl id).symm
  · intro b hb
    obtain ⟨r, hr, hid, made, n, hn, rest⟩ := hw.timely b hb
    exact ⟨r, hr, hid, made, n, List.mem_append_left _ hn, rest⟩

theorem holds_claim {id : RegistrationId} {uid : String} {purpose : WebAuthnRegistrationPurpose}
    {claimId c : ClaimId} {reading : Timestamp}
    (claimed : (w.claim i id uid purpose claimId reading).1 = some c) :
    (w.claim i id uid purpose claimId reading).2.Holds i c id := by
  unfold World.claim at claimed ⊢
  split at claimed
  · rename_i changed
    obtain rfl := Option.some.inj claimed
    rw [if_pos changed]
    exact ⟨_, List.mem_append_right _ (List.mem_singleton_self _), rfl, rfl, rfl, rfl⟩
  · cases claimed

/-- Marking one of the notes raises the count of its registration by one. -/
theorem countP_checked {l : List ClaimNote} {n : ClaimNote} (hn : n ∈ l)
    (once : l.Pairwise fun n n' => n.claim ≠ n'.claim) (new : n.checked = false)
    (id : RegistrationId) :
    (l.map fun m => if m.claim = n.claim then { m with checked := true } else m).countP
        (fun m => m.registration == id && m.checked) =
      l.countP (fun m => m.registration == id && m.checked) +
        if n.registration = id then 1 else 0 := by
  induction l with
  | nil => cases hn
  | cons m l ih =>
    obtain ⟨apart, once⟩ := List.pairwise_cons.1 once
    rcases List.mem_cons.1 hn with rfl | hn
    · -- the others are left as they are
      have rest : (l.map fun m => if m.claim = n.claim then { m with checked := true } else m) =
          l := by
        refine (List.map_congr_left fun m hm => ?_).trans (List.map_id l)
        rw [if_neg (Ne.symm (apart m hm))]
        rfl
      rw [List.map_cons, rest, if_pos rfl, List.countP_cons, List.countP_cons]
      simp [new]
    · rw [List.map_cons, if_neg (apart n hn), List.countP_cons, List.countP_cons, ih hn once]
      omega

/-- The library is called once under a claim. -/
theorem keeps_verifying (hw : w.Orderly env) {claimId : ClaimId} {id : RegistrationId}
    (holds : w.Holds i claimId id) : w.Keeps env i (w.verifying claimId id) := by
  obtain ⟨n, hn, own, rfl, rfl, new⟩ := holds
  have same : ∀ m : ClaimNote, (if m.claim = n.claim then { m with checked := true } else m).claim =
      m.claim ∧ (if m.claim = n.claim then { m with checked := true } else m).registration =
      m.registration ∧ (if m.claim = n.claim then { m with checked := true } else m).reading =
      m.reading ∧ (if m.claim = n.claim then { m with checked := true } else m).moment =
      m.moment := by
    intro m
    split <;> exact ⟨rfl, rfl, rfl, rfl⟩
  have forward : ∀ m ∈ w.notes, ∃ m' ∈ (w.verifying n.claim n.registration).notes,
      m'.claim = m.claim ∧ m'.registration = m.registration ∧ m'.reading = m.reading := fun m hm =>
    ⟨_, List.mem_map_of_mem hm, (same m).1, (same m).2.1, (same m).2.2.1⟩
  have claims : ∀ id, (w.verifying n.claim n.registration).claims id = w.claims id := by
    intro id
    refine (List.countP_map ..).trans (List.countP_congr fun m _ => ?_)
    rw [Function.comp_apply, (same m).2.1]
  refine ⟨⟨fun r hr => ?_, hw.single, hw.drawn, hw.owned, hw.issuedOnce, ?_, ?_, ?_, ?_,
    hw.boundOnce, ?_, hw.superseded⟩, ⟨Nat.le_refl _, fun _ h => h, List.prefix_rfl⟩,
    fun j hj => ⟨fun m hm mine => ?_, fun _ h => h, fun _ h _ => h⟩⟩
  · exact (hw.rows r hr).later (fun _ h => h) (claims r.id) forward (fun h => h) (fun _ h => h)
      fun _ h => .inl h
  · intro m hm
    obtain ⟨m₀, hm₀, rfl⟩ := List.mem_map.1 hm
    obtain ⟨claim, registration, reading, moment⟩ := same m₀
    rw [claim, registration, reading, moment]
    exact hw.notes m₀ hm₀
  · refine List.pairwise_map.2 (hw.notesOnce.imp fun {m m'} apart => ?_)
    rw [(same m).1, (same m').1]
    exact apart
  · intro id
    rw [claims]
    exact hw.bounded id
  · intro id
    show (if id = n.registration then w.verifications n.registration + 1
      else w.verifications id) = _
    refine Eq.trans ?_ (countP_checked hn hw.notesOnce new id).symm
    by_cases same : n.registration = id
    · rw [if_pos same.symm, if_pos same, ← same, hw.verified]
      rfl
    · rw [if_neg (Ne.symm same), if_neg same, hw.verified]
      rfl
  · intro b hb
    obtain ⟨r, hr, hid, made, m, hm, claim, registration, timely⟩ := hw.timely b hb
    obtain ⟨m', hm', claim', registration', reading'⟩ := forward m hm
    exact ⟨r, hr, hid, made, m', hm', claim'.trans claim, registration'.trans registration,
      by rw [reading']; exact timely⟩
  · -- the claim of another thread is another claim
    refine List.mem_map.2 ⟨m, hm, if_neg fun clash => ?_⟩
    have : m = n := by
      by_contra other
      have symm : Std.Symm fun m m' : ClaimNote => m.claim ≠ m'.claim := ⟨fun _ _ h => h.symm⟩
      exact hw.notesOnce.forall hm hn other clash
    rw [this, own] at mine
    exact hj mine.symm

/-- The row of a registration that is completed gets the credential. -/
theorem keeps_complete (hw : w.Orderly env) (c : World.Completion)
    (made : ∀ r ∈ w.issued, r.id = c.id → MadeFor env c.response r) :
    w.Keeps env i (w.complete c).2 := by
  unfold World.complete
  split
  swap
  · exact .rfl hw
  rename_i changed
  obtain ⟨r₁, hr₁, held⟩ := exists_of_changes changed
  simp only [World.heldBy, Bool.and_eq_true, beq_iff_eq, Option.isNone_iff_eq_none] at held
  obtain ⟨⟨hid, claimed⟩, open_⟩ := held
  have fits₁ := hw.rows r₁ hr₁
  have only : ∀ r ∈ w.rows, r.id = c.id → r = r₁ := fun r hr same =>
    Table.eq_of_clash hr hr₁ (beq_iff_eq.2 (same.trans hid.symm))
  have free : ∀ b ∈ w.bound, b.registration ≠ c.id := by
    rw [← hid]
    rcases fits₁.settled with ⟨-, -, free⟩ | ⟨consumed, -⟩
    · exact free
    · exact absurd open_ consumed
  refine ⟨⟨fun r hr => ?_, ?_, hw.drawn, hw.owned, hw.issuedOnce, hw.notes, hw.notesOnce,
    hw.bounded, hw.verified, ?_, ?_, ?_⟩, ⟨Nat.le_refl _, fun _ h => h, List.prefix_append _ _⟩,
    fun j _ => ⟨fun _ h _ => h, fun _ h => h, fun _ h _ => h⟩⟩
  · have hr : r ∈ w.rows.modify (World.heldBy c.id c.claimId) c.apply ⟨fun _ _ => rfl⟩ := hr
    obtain ⟨r₀, hr₀, rfl⟩ := Table.mem_modify.1 hr
    obtain ⟨issued, attempts, claimed, superseded, settled⟩ := hw.rows r₀ hr₀
    split
    · rename_i held
      simp only [World.heldBy, Bool.and_eq_true, beq_iff_eq] at held
      exact ⟨issued, attempts, claimed, fun _ => by simp [World.Completion.apply],
        .inr ⟨by simp [World.Completion.apply], _,
          List.mem_append_right _ (List.mem_singleton_self _), held.1.1.symm, rfl, rfl, rfl⟩⟩
    · rename_i other
      refine ⟨issued, attempts, claimed, superseded, ?_⟩
      rcases settled with ⟨none, unfinalized, free'⟩ | ⟨consumed, b, hb, of⟩
      · refine .inl ⟨none, unfinalized, fun b hb => ?_⟩
        rcases List.mem_append.1 hb with hb | hb
        · exact free' b hb
        · rw [List.mem_singleton.1 hb]
          intro same
          obtain rfl := only r₀ hr₀ same.symm
          apply other
          simp [World.heldBy, *]
      · exact .inr ⟨consumed, b, List.mem_append_left _ hb, of⟩
  · exact single_modify (by exact ⟨fun _ _ => rfl⟩) hw.single (fun _ => rfl) (fun _ => rfl) fun r h => by
      simp [World.Completion.apply] at h
  · refine List.pairwise_append.2 ⟨hw.boundOnce, List.pairwise_singleton _ _, ?_⟩
    intro b hb b' hb'
    rw [List.mem_singleton.1 hb']
    exact free b hb
  · intro b hb
    rcases List.mem_append.1 hb with hb | hb
    · exact hw.timely b hb
    · rw [List.mem_singleton.1 hb]
      obtain ⟨r₀, hr₀, terms⟩ := fits₁.issued
      obtain ⟨n, hn, claim, registration, timely⟩ := fits₁.claimed _ claimed
      have same : r₀.id = c.id := (congrArg Prod.fst terms).trans hid
      have expiry : r₀.expiresAt = r₁.expiresAt :=
        congrArg (fun t => t.2.2.2.2.2.2) terms
      exact ⟨r₀, hr₀, same, made r₀ hr₀ same, n, hn, claim, registration.trans hid,
        by rw [expiry]; exact timely⟩
  · intro id seen
    refine ⟨(hw.superseded id seen).1, fun b hb => ?_⟩
    rcases List.mem_append.1 hb with hb | hb
    · exact (hw.superseded id seen).2 b hb
    · rw [List.mem_singleton.1 hb]
      rintro rfl
      exact fits₁.superseded (by rw [hid]; exact seen) open_

/-- A completion is bound. -/
theorem bound_complete {c : World.Completion} (completed : (w.complete c).1 = true) :
    ∃ b ∈ (w.complete c).2.bound, b.registration = c.id ∧ b.credentialId = c.credentialId ∧
      b.qx = c.verified.qx ∧ b.qy = c.verified.qy := by
  unfold World.complete at completed ⊢
  split at completed
  · rename_i changed
    rw [if_pos changed]
    exact ⟨_, List.mem_append_right _ (List.mem_singleton_self _), rfl, rfl, rfl, rfl⟩
  · cases completed

/-! ### Handlers -/

variable {α : Type} {Q : Except String α → World → Prop}

/-- A query, and the rest. -/
theorem wp_query {o : RegistrationOp} {k : RegistrationOp.Reply o → RegistrationHandler α}
    (hw : w.Orderly env) (same : ∀ x, (o.exec env i x w).2 = w)
    (rest : ∀ x w', LaterFor env i w w' → (k (o.exec env i x w).1).wp env i Q w') :
    RegistrationHandler.wp ((perform o).bind k) env i Q w :=
  Discipline.wp_query _ _ hw same (fun _ => trivial) rest

/-- An operation that follows the discipline, and the rest. -/
theorem wp_op {o : RegistrationOp} {k : RegistrationOp.Reply o → RegistrationHandler α}
    (keeps : ∀ x, w.Keeps env i (o.exec env i x w).2)
    (rest : ∀ x w', LaterFor env i (o.exec env i x w).2 w' →
      (k (o.exec env i x w).1).wp env i Q w') :
    RegistrationHandler.wp ((perform o).bind k) env i Q w :=
  Discipline.wp_act _ _ (fun x _ => performs_of_keeps (keeps x)) fun x _ => rest x

/-- A statement is carried out or not. -/
theorem keeps_deliver {β : Type} (x : Delivery) {r : β × World} (hw : w.Orderly env)
    (keeps : w.Keeps env i r.2) : w.Keeps env i (x.deliver w r).2 :=
  x.deliver_induction (.rfl hw) keeps

/-- A statement whose reply nobody looks at. -/
theorem wp_statement {o : RegistrationOp} {f : RegistrationOp.Reply o → Except String α}
    (keeps : ∀ x, w.Keeps env i (o.exec env i x w).2)
    (post : ∀ x w', LaterFor env i (o.exec env i x w).2 w' → Q (f (o.exec env i x w).1) w') :
    RegistrationHandler.wp ((perform o).bind fun r => Prog.ofExcept (f r)) env i Q w :=
  wp_op keeps fun x w' later => Discipline.wp_ofExcept _ _ (post x w' later)

/-- What a handler returns when it returns a registration. -/
def Returns (P : α → World → Prop) : Except String α → World → Prop
  | .ok a, w => P a w
  | .error _, _ => True

/-- The row was issued. -/
def World.Issued (w : World) (r : RegistrationRow) : Prop := ∃ r₀ ∈ w.issued, r₀.terms = r.terms

theorem World.Issued.later {r : RegistrationRow} (h : w.Issued r) (grows : w.Grows w') :
    w'.Issued r := by
  obtain ⟨r₀, hr₀, same⟩ := h
  exact ⟨r₀, grows.issued r₀ hr₀, same⟩

/-- The registration names what it was bound to. -/
def World.Stored (w : World) (f : FinalizedWebAuthnRegistration) : Prop :=
  ∃ b ∈ w.bound, b.registration = f.registrationId ∧ b.credentialId = f.credentialId ∧
    b.qx = f.qx ∧ b.qy = f.qy

theorem World.Stored.later {f : FinalizedWebAuthnRegistration} (h : w.Stored f)
    (grows : w.Grows w') : w'.Stored f := by
  obtain ⟨b, hb, names⟩ := h
  exact ⟨b, grows.mem_bound hb, names⟩

theorem of_present {β : Type} [DecidableEq β] {empty s : β} {value : Option β}
    (h : present empty value = some s) : value = some s := (Option.filter_eq_some_iff.1 h).1

/-- A row that counts as finalized is bound, to the credential that it names. -/
theorem stored_of_row {r : RegistrationRow} {f : FinalizedWebAuthnRegistration}
    (hw : w.Orderly env) (hr : r ∈ w.rows) (finalized : finalizedFromRow r = some f) :
    w.Stored f := by
  simp only [finalizedFromRow, Option.bind_eq_bind, Option.bind_eq_some_iff] at finalized
  obtain ⟨credentialId, hc, qx, hqx, qy, hqy, _, -, _, -, hf⟩ := finalized
  obtain rfl := Option.some.inj hf
  rcases (hw.rows r hr).settled with ⟨none, -⟩ | ⟨-, b, hb, of⟩
  · rw [of_present hc] at none
    cases none
  · refine ⟨b, hb, of.registration, ?_, ?_, ?_⟩
    · exact Option.some.inj (of.credentialId.symm.trans (of_present hc))
    · exact Option.some.inj (of.qx.symm.trans (of_present hqx))
    · exact Option.some.inj (of.qy.symm.trans (of_present hqy))

/-- What a query for one row finds. -/
theorem of_select {x : Answer} {id : RegistrationId} {uid : String}
    {purpose : WebAuthnRegistrationPurpose} {row : RegistrationRow}
    (found : (RegistrationOp.exec env i (.select id uid purpose) x w).1 = .ok (some row)) :
    row ∈ w.rows ∧ row.id = id := by
  obtain ⟨found, -⟩ := Delivery.of_deliver_ok found
  have fits := Table.of_find? found
  simp only [World.rowOf, Bool.and_eq_true, beq_iff_eq] at fits
  exact ⟨Table.mem_of_find? found, fits.1.1⟩

theorem select_same (x : Answer) (id : RegistrationId) (uid : String)
    (purpose : WebAuthnRegistrationPurpose) :
    (RegistrationOp.exec env i (.select id uid purpose) x w).2 = w :=
  Delivery.deliver_query _ _ _

/-- A read row is issued; and bound when it counts as finalized. -/
structure World.Read (w : World) (registrationId : Option RegistrationId)
    (row : RegistrationRow) : Prop where
  named : registrationId = some row.id
  issued : w.Issued row
  stored : ∀ f, finalizedFromRow row = some f → w.Stored f

theorem World.Read.later {id : Option RegistrationId} {row : RegistrationRow}
    (h : w.Read id row) (grows : w.Grows w') : w'.Read id row :=
  ⟨h.named, h.issued.later grows, fun f hf => (h.stored f hf).later grows⟩

theorem wp_readRegistration (hw : w.Orderly env) (registrationId : Option RegistrationId)
    (uid : String) (purpose : WebAuthnRegistrationPurpose) :
    (readRegistration registrationId uid purpose).wp env i
      (fun r w' => LaterFor env i w w' ∧ ∀ row, r = .ok (some row) → w'.Read registrationId row)
      w := by
  cases registrationId with
  | none => exact ⟨Discipline.later_refl _ hw, fun row h => by cases h⟩
  | some id =>
    refine wp_query hw (fun x => select_same x id uid purpose) fun x w' later =>
      Discipline.wp_ofExcept _ _ ⟨later, fun row found => ?_⟩
    obtain ⟨hr, rfl⟩ := of_select found
    exact ⟨rfl, World.Issued.later (hw.rows row hr).issued later.evolves,
      fun f hf => (stored_of_row hw hr hf).later later.evolves⟩

/-- The verification of a response: for a claim, it is the only one under it. -/
theorem wp_verifyCredentialResponse (hw : w.Orderly env) (claimId : Option ClaimId)
    (row : RegistrationRow) (credential : WebAuthnRegistrationCredential)
    (holds : ∀ c, claimId = some c → w.Holds i c row.id) :
    (verifyCredentialResponse env claimId row credential).wp env i
      (fun r w' => w'.Orderly env ∧ w.Grows w' ∧
        ∀ v, r = .ok v → MadeFor env credential.response row) w := by
  unfold verifyCredentialResponse
  split
  · exact ⟨hw, .rfl w, fun v h => by cases h⟩
  rename_i rpId verifiable
  have rp : row.expectedRpId = some rpId := by
    simp only [verifiableRpId, Option.bind_eq_bind, Option.bind_eq_some_iff] at verifiable
    obtain ⟨_, -, rp, present, _, -, same⟩ := verifiable
    obtain rfl := Option.some.inj same
    exact of_present present
  refine wp_op (fun x => ?_) fun x w' later => ?_
  · cases claimId with
    | none => exact .rfl hw
    | some c => exact keeps_verifying hw (holds c rfl)
  have grows : w.Grows w' := by
    refine World.Grows.trans ?_ later.evolves
    cases claimId with
    | none => exact .rfl w
    | some c => exact (keeps_verifying (i := i) hw (holds c rfl)).grows
  have answered : (RegistrationOp.exec env i (.verify claimId row.id
      ⟨row.challenge, row.expectedOrigin, rpId⟩ credential.response) x w).1 =
      env.verifier.verifyRegistrationResponse ⟨row.challenge, row.expectedOrigin, rpId⟩
        credential.response := rfl
  rw [answered]
  cases found : env.verifier.verifyRegistrationResponse ⟨row.challenge, row.expectedOrigin, rpId⟩
      credential.response with
  | none => exact ⟨later.inv, grows, fun v h => by cases h⟩
  | some info =>
    have made : MadeFor env credential.response row :=
      ⟨rpId, rp, env.verifier.accepts _ _ _ found⟩
    rw [Option.bind_some]
    cases acceptResponse env credential info with
    | none => exact ⟨later.inv, grows, fun v h => by cases h⟩
    | some v => exact ⟨later.inv, grows, fun _ _ => made⟩

theorem wp_issueWebAuthnRegistration (hw : w.Orderly env) (uid : String)
    (purpose : WebAuthnRegistrationPurpose) (expectedOrigin : String) :
    (issueWebAuthnRegistration env uid purpose expectedOrigin).wp env i
      (fun _ w' => w'.Orderly env) w := by
  refine wp_op (fun x => (keeps_draw hw).1) fun x w₁ later => ?_
  have fresh := (keeps_draw hw).2.later later.relied
  dsimp only [RegistrationOp.exec]
  split
  · exact later.inv
  refine wp_query later.inv (fun x => Delivery.deliver_query _ _ _) fun x w₂ later₂ => ?_
  have fresh₂ := fresh.later later₂.relied
  refine Discipline.wp_seq _ _ (R := fun _ w => w = w₂) (Discipline.wp_ofExcept _ _ rfl) ?_ ?_
  · rintro passkeys w₃ rfl
    refine wp_op (fun x => keeps_deliver _ later₂.inv (keeps_issue later₂.inv fresh₂ ⟨rfl, rfl, rfl, rfl⟩))
      fun x w₄ later₄ => ?_
    split <;> exact later₄.inv
  · rintro m w₃ rfl
    exact later₂.inv

/-- What a claim establishes. -/
structure World.Claimed (w : World) (i : Nat) (claim : Claim) : Prop where
  same : claim.registrationId = claim.row.id
  issued : w.Issued claim.row
  holds : w.Holds i claim.claimId claim.row.id

theorem World.Claimed.later {claim : Claim} (h : w.Claimed i claim) (later : LaterFor env i w w') :
    w'.Claimed i claim :=
  ⟨h.same, h.issued.later later.evolves, h.holds.later later.relied⟩

theorem wp_claimWebAuthnRegistration (hw : w.Orderly env) (uid : String)
    (purpose : WebAuthnRegistrationPurpose) (credential : WebAuthnRegistrationCredential) :
    (claimWebAuthnRegistration uid purpose credential).wp env i
      (fun r w' => w'.Orderly env ∧ Returns (fun claim w' => w'.Claimed i claim) r w') w := by
  unfold claimWebAuthnRegistration
  split
  · exact ⟨hw, trivial⟩
  rename_i id named
  split
  · exact ⟨hw, trivial⟩
  refine wp_query hw (fun _ => rfl) fun x w₁ later => ?_
  have past : w.clock ≤ w₁.clock := later.evolves.clock
  refine wp_query later.inv (fun x => select_same x id uid purpose) fun x w₂ later₂ => ?_
  refine Discipline.wp_seq _ _
    (R := fun r w => w = w₂ ∧ ∀ row, r = .ok (some row) → w.Issued row ∧ row.id = id)
    (Discipline.wp_ofExcept _ _ ⟨rfl, fun row found => ?_⟩) ?_ ?_
  · obtain ⟨hr, hid⟩ := of_select found
    exact ⟨World.Issued.later (later.inv.rows row hr).issued later₂.evolves, hid⟩
  swap
  · rintro m w₃ ⟨rfl, -⟩
    exact ⟨later₂.inv, trivial⟩
  rintro found w₃ ⟨rfl, issued⟩
  split
  · exact ⟨later₂.inv, trivial⟩
  rename_i row admitted
  obtain ⟨issued, hid⟩ := issued row (by rw [(Option.filter_eq_some_iff.1 admitted).1])
  have keeps := keeps_claim (i := i) later₂.inv row.id uid purpose
    (Nat.le_trans past later₂.evolves.clock)
  refine wp_op (fun y => y.delivery.deliver_induction (keeps_drawn later₂.inv) keeps)
    fun y w₄ later₄ => ?_
  split
  · exact ⟨later₄.inv, trivial⟩
  · exact ⟨later₄.inv, trivial⟩
  · rename_i c claimed
    obtain ⟨held, world⟩ := Delivery.of_deliver_ok claimed
    have holds := holds_claim held
    rw [← world] at holds
    have grows : w₃.Grows (RegistrationOp.exec env i (.claim row.id uid purpose w.clock) y w₃).2 :=
      y.delivery.deliver_induction (P := w₃.Grows) (keeps_drawn (i := i) later₂.inv).grows
        keeps.grows
    exact ⟨later₄.inv, rfl, (issued.later grows).later later₄.evolves, holds.later later₄.relied⟩

/-- The `try` block: a claim that is completed stores the credential. -/
theorem wp_completeClaim (hw : w.Orderly env) {claim : Claim} (claimed : w.Claimed i claim)
    (finalizedAt : Timestamp) (credential : WebAuthnRegistrationCredential) :
    (completeClaim env claim finalizedAt credential).wp env i
      (fun r w' => w'.Orderly env ∧ Returns (fun f w' => w'.Stored f) r w') w := by
  refine Discipline.wp_seq _ _ (wp_verifyCredentialResponse hw (some claim.claimId) claim.row
    credential fun c hc => ?_) ?_ ?_
  · obtain rfl := Option.some.inj hc
    exact claimed.holds
  swap
  · rintro m w₁ ⟨sane, -⟩
    exact ⟨sane, trivial⟩
  rintro verified w₁ ⟨sane, grows, made⟩
  -- the response was made for the terms with which the row was issued
  have fits : ∀ r ∈ w₁.issued, r.id = claim.registrationId →
      MadeFor env credential.response r := by
    intro r hr same
    obtain ⟨r₀, hr₀, terms⟩ := claimed.issued.later grows
    have hid : r₀.id = claim.row.id := congrArg Prod.fst terms
    have : r = r₀ := by
      by_contra other
      have symm : Std.Symm fun r r' : RegistrationRow => r.id ≠ r'.id := ⟨fun _ _ h => h.symm⟩
      exact sane.issuedOnce.forall hr hr₀ other (same.trans (claimed.same.trans hid.symm))
    obtain ⟨rpId, rp, madeFor⟩ := made verified rfl
    simp only [RegistrationRow.terms, Prod.mk.injEq] at terms
    rw [this]
    exact ⟨rpId, by rw [terms.2.2.2.2.2.1]; exact rp,
      by rw [terms.2.2.2.1, terms.2.2.2.2.1]; exact madeFor⟩
  refine wp_op (fun x => keeps_deliver _ sane (keeps_complete sane _ fits)) fun x w₂ later => ?_
  split
  · exact ⟨later.inv, trivial⟩
  · exact ⟨later.inv, trivial⟩
  · rename_i completed
    obtain ⟨stored, world⟩ := Delivery.of_deliver_ok completed
    refine ⟨later.inv, World.Stored.later ?_ later.evolves⟩
    obtain ⟨b, hb, names⟩ := bound_complete stored
    rw [← world] at hb
    exact ⟨b, hb, names⟩

theorem wp_replayFinalized (hw : w.Orderly env) (uid : String) (existing : RegistrationRow)
    (f : FinalizedWebAuthnRegistration) (credential : WebAuthnRegistrationCredential)
    (stored : w.Stored f) :
    (replayFinalized env uid existing f credential).wp env i
      (fun r w' => w'.Orderly env ∧ Returns (fun f w' => w'.Stored f) r w') w := by
  refine Discipline.wp_seq _ _ (wp_verifyCredentialResponse hw none existing credential
    fun c hc => by cases hc) ?_ ?_
  swap
  · rintro m w₁ ⟨sane, -⟩
    exact ⟨sane, trivial⟩
  rintro verified w₁ ⟨sane, grows, -⟩
  split
  · exact ⟨sane, trivial⟩
  split
  · refine wp_op (fun x => keeps_deliver _ sane (keeps_describe sane _ _ _)) fun x w₂ later => ?_
    have described : w₁.Grows (RegistrationOp.exec env i
        (.describe f.registrationId uid verified) x w₁).2 :=
      (keeps_deliver (i := i) x.delivery sane (keeps_describe sane _ _ _)).grows
    refine Discipline.wp_seq _ _ (R := fun _ w => w = w₂) (Discipline.wp_ofExcept _ _ rfl) ?_ ?_
    · rintro _ w₃ rfl
      exact ⟨later.inv, ((stored.later grows).later described).later later.evolves⟩
    · rintro m w₃ rfl
      exact ⟨later.inv, trivial⟩
  · exact ⟨sane, stored.later grows⟩

theorem wp_finalizeWebAuthnRegistration (hw : w.Orderly env) (uid : String)
    (purpose : WebAuthnRegistrationPurpose) (credential : WebAuthnRegistrationCredential) :
    (finalizeWebAuthnRegistration env uid purpose credential).wp env i
      (fun r w' => w'.Orderly env ∧ Returns (fun f w' => w'.Stored f) r w') w := by
  refine Discipline.wp_seq _ _ (wp_readRegistration hw credential.registrationId uid purpose) ?_ ?_
  swap
  · rintro m w₁ ⟨later, -⟩
    exact ⟨later.inv, trivial⟩
  rintro existing w₁ ⟨later, read⟩
  split
  · rename_i row f finalized
    simp only [Option.bind_eq_some_iff, Option.map_eq_some_iff, Prod.mk.injEq] at finalized
    obtain ⟨row', rfl, f', hf, rfl, rfl⟩ := finalized
    exact wp_replayFinalized later.inv uid row' f' credential ((read row' rfl).stored f' hf)
  refine Discipline.wp_seq _ _ (wp_claimWebAuthnRegistration later.inv uid purpose credential) ?_ ?_
  swap
  · rintro m w₂ ⟨sane, -⟩
    exact ⟨sane, trivial⟩
  rintro claim w₂ ⟨sane, claimed⟩
  refine wp_query sane (fun _ => rfl) fun x w₃ later₃ => ?_
  refine (Discipline.wp_tryCatch _ _ _ _ _ _).2 (Discipline.wp_mono _ _
    (wp_completeClaim later₃.inv (World.Claimed.later claimed later₃) _ credential) fun r w₄ done => ?_)
  cases r with
  | ok f => exact done
  | error m =>
    -- the claim is given back, and the error is thrown again
    refine (Discipline.wp_bind _ _ _ _ _ _).2 ((Discipline.wp_attempt _ _ _ _ _).2 ?_)
    refine wp_statement (fun x => keeps_deliver _ done.1 (keeps_release done.1 _ _))
      fun x w₅ later₅ => ?_
    exact ⟨later₅.inv, trivial⟩

theorem wp_getFinalizedWebAuthnRegistration (hw : w.Orderly env)
    (registrationId : Option RegistrationId) (uid : String)
    (purpose : WebAuthnRegistrationPurpose) :
    (getFinalizedWebAuthnRegistration registrationId uid purpose).wp env i
      (fun r w' => w'.Orderly env ∧
        Returns (fun found w' => ∀ f, found = some f → w'.Stored f) r w') w := by
  refine Discipline.wp_seq _ _ (wp_readRegistration hw registrationId uid purpose) ?_ ?_
  · rintro found w₁ ⟨later, read⟩
    refine ⟨later.inv, fun f hf => ?_⟩
    obtain ⟨row, rfl, hf⟩ := Option.bind_eq_some_iff.1 hf
    exact (read row rfl).stored f hf
  · rintro m w₁ ⟨later, -⟩
    exact ⟨later.inv, trivial⟩

theorem wp_deleteExpiredWebAuthnRegistrations (hw : w.Orderly env) :
    deleteExpiredWebAuthnRegistrations.wp env i (fun _ w' => w'.Orderly env) w := by
  refine wp_query hw (fun _ => rfl) fun x w₁ later => ?_
  exact wp_statement (fun y => keeps_deliver _ later.inv (keeps_deleteExpired later.inv _))
    fun y w₂ later₂ => later₂.inv

/-! ### Every run -/

/-- What the response of a request says of the bindings. -/
def Response.Truthful : Response → World → Prop
  | .finalized f, w => w.Stored f
  | .found f, w => ∀ f', f = some f' → w.Stored f'
  | _, _ => True

theorem registrations_obey (env : Env) :
    (registrationDiscipline env).Obeys (registrationSystem env) (Returns Response.Truthful) where
  env t w hw _ := by
    have moved : World.Orderly env { w with clock := w.clock + t } := by
      refine ⟨fun r hr => ?_, hw.single, hw.drawn, hw.owned, hw.issuedOnce, hw.notes,
        hw.notesOnce, hw.bounded, hw.verified, hw.boundOnce, hw.timely, hw.superseded⟩
      obtain ⟨issued, attempts, claimed, superseded, settled⟩ := hw.rows r hr
      exact ⟨issued, attempts, claimed, superseded, settled⟩
    exact ⟨⟨moved, Nat.le_add_right _ _, fun _ h => h, List.prefix_rfl⟩,
      fun j => ⟨fun _ h _ => h, fun _ h => h, fun _ h _ => h⟩⟩
  call c i _ w _ _ later := by
    cases c with
    | issue uid purpose origin =>
      exact Discipline.wp_seq _ _ (wp_issueWebAuthnRegistration later.inv uid purpose origin)
        (fun _ _ _ => trivial) fun _ _ _ => trivial
    | finalize uid purpose credential =>
      exact Discipline.wp_seq _ _ (wp_finalizeWebAuthnRegistration later.inv uid purpose credential)
        (fun _ _ done => done.2) fun _ _ _ => trivial
    | getFinalized id uid purpose =>
      exact Discipline.wp_seq _ _ (wp_getFinalizedWebAuthnRegistration later.inv id uid purpose)
        (fun _ _ done => done.2) fun _ _ _ => trivial
    | cleanUp =>
      exact Discipline.wp_seq _ _ (wp_deleteExpiredWebAuthnRegistrations later.inv)
        (fun _ _ _ => trivial) fun _ _ _ => trivial

theorem initial_orderly (env : Env) (clock : Timestamp) :
    (World.initial clock).Orderly env where
  rows _ hr := absurd hr (Table.not_mem_empty _)
  single _ hr := absurd hr (Table.not_mem_empty _)
  drawn _ owned := absurd rfl owned
  owned _ hr := absurd hr List.not_mem_nil
  issuedOnce := .nil
  notes _ hn := absurd hn List.not_mem_nil
  notesOnce := .nil
  bounded _ := Nat.zero_le _
  verified _ := rfl
  boundOnce := .nil
  timely _ hb := absurd hb List.not_mem_nil
  superseded _ seen := by cases seen

/-- Before any request. -/
def registrationStart (clock : Timestamp) :
    Pool RegistrationOp RegistrationOp.Reply World Response :=
  ⟨.initial clock, []⟩

/-- Registrations are one-time. -/
structure World.OneTime (env : Env) (w : World) : Prop where
  /-- A user has one open challenge for a purpose at most. -/
  single : ∀ r ∈ w.rows, ∀ r' ∈ w.rows, r.uid = r'.uid → r.purpose = r'.purpose →
    r.consumedAt = none → r'.consumedAt = none → r = r'
  /-- A challenge is bound to one credential at most. -/
  bound : ∀ b ∈ w.bound, ∀ b' ∈ w.bound, b.registration = b'.registration → b = b'
  /-- What a row holds is what it was bound to, and only a bound row is finalized. -/
  rows : ∀ r ∈ w.rows, r.credentialId ≠ none ∨ r.finalizedAt ≠ none → ∃ b ∈ w.bound, b.Of r
  /-- The response was made for the challenge. -/
  made : ∀ b ∈ w.bound, ∃ r ∈ w.issued, r.id = b.registration ∧ MadeFor env b.response r
  /-- A challenge that a newer one has closed is not bound. -/
  superseded : ∀ id, w.superseded id = true → ∀ b ∈ w.bound, b.registration ≠ id
  /-- The claim under which a challenge was bound was made with a reading of the clock
  before the challenge expired. -/
  timely : ∀ b ∈ w.bound, ∀ r ∈ w.issued, r.id = b.registration →
    ∃ n ∈ w.notes, n.claim = b.claim ∧ n.registration = b.registration ∧
      n.reading < r.expiresAt ∧ n.reading ≤ n.moment
  verifications : ∀ id, w.verifications id ≤ 5

theorem World.Orderly.oneTime (hw : w.Orderly env) : w.OneTime env where
  single := hw.single
  bound b hb b' hb' same := by
    by_contra other
    have symm : Std.Symm fun b b' : Binding => b.registration ≠ b'.registration :=
      ⟨fun _ _ h => h.symm⟩
    exact hw.boundOnce.forall hb hb' other same
  rows r hr filled := by
    rcases (hw.rows r hr).settled with ⟨none, open_, -⟩ | ⟨-, bound⟩
    · rcases filled with filled | filled
      · exact absurd none filled
      · exact absurd open_ filled
    · exact bound
  made b hb := by
    obtain ⟨r, hr, same, made, -⟩ := hw.timely b hb
    exact ⟨r, hr, same, made⟩
  superseded id seen := (hw.superseded id seen).2
  timely b hb r hr same := by
    obtain ⟨r₀, hr₀, same₀, -, n, hn, claim, registration, timely⟩ := hw.timely b hb
    have : r = r₀ := by
      by_contra other
      have symm : Std.Symm fun r r' : RegistrationRow => r.id ≠ r'.id := ⟨fun _ _ h => h.symm⟩
      exact hw.issuedOnce.forall hr hr₀ other (same.trans same₀.symm)
    rw [this]
    exact ⟨n, hn, claim, registration, timely, (hw.notes n hn).2.1⟩
  verifications id := by
    rw [hw.verified]
    refine Nat.le_trans (List.countP_mono_left fun n _ both => ?_) (hw.bounded id)
    exact (Bool.and_eq_true _ _ ▸ both).1

/-- What a schedule leads to. -/
def registrationRun (env : Env) (clock : Timestamp) (ls : RegistrationSchedule) :
    Pool RegistrationOp RegistrationOp.Reply World Response :=
  (registrationSystem env).runFrom (registrationStart clock) ls

/-- In every run registrations are one-time, what is bound stays bound, and each request
that returns a credential returns the one that is bound. -/
theorem registration_one_time (env : Env) (clock : Timestamp) (ls ms : RegistrationSchedule) :
    (registrationRun env clock ls).world.OneTime env ∧
    (registrationRun env clock ls).world.bound <+:
      (registrationRun env clock (ls ++ ms)).world.bound ∧
    ∀ (j : Nat) (response : Response),
      (registrationRun env clock ls).threads[j]? = some (.ret response) →
      response.Truthful (registrationRun env clock ls).world := by
  have start := Discipline.sound_empty (D := registrationDiscipline env)
    (S := registrationSystem env) (Q := Returns Response.Truthful) (initial_orderly env clock)
  have sound : (registrationDiscipline env).Sound (registrationSystem env)
      (Returns Response.Truthful) (registrationRun env clock ls) :=
    Discipline.sound_runFrom (registrations_obey env) start (System.along_any _ _ ls)
  refine ⟨sound.inv.oneTime, ?_, fun j response ended => ?_⟩
  · rw [registrationRun, registrationRun, System.runFrom_append]
    exact (Discipline.evolves_runFrom (registrations_obey env) sound
      (System.along_any _ _ ms)).bound
  · exact sound.threads j _ ended _ (Discipline.later_refl _ sound.inv)

/-! A user is shown the sheet of the browser in the last seconds of a challenge: the
claim reads the clock, and the challenge expires while the row is read. -/

/-- A coordinate of a key. -/
def coordinate (digit : Char) : Text := ['0', 'x'] ++ List.replicate 64 digit

/-- The application, with a library that accepts responses for the challenge `1`. -/
def appEnv : Env where
  rpId := "parmelia.app"
  originMatchesPasskeyRpId origin rpId := origin == "https://parmelia.app" && rpId == "parmelia.app"
  passkeyProviderMetadata aaguid := (some aaguid, none)
  verifier :=
    let options : VerifyOptions := ⟨1, "https://parmelia.app", "parmelia.app"⟩
    { madeFor := fun _ => options
      verifyRegistrationResponse := fun o r =>
        if options = o then
          some {
            fmt := "none", credentialId := r.id, publicKey := some (coordinate 'a', coordinate 'b')
            aaguid := "00000000-0000-0000-0000-000000000000"
            credentialDeviceType := .multiDevice, credentialBackedUp := true }
        else none
      accepts := by
        intro o r i accepted
        split at accepted
        · assumption
        · cases accepted }

def phoneCredential : WebAuthnRegistrationCredential where
  registrationId := some 0
  credentialId := List.replicate 8 'c'
  qx := coordinate 'a'
  qy := coordinate 'b'
  clientDataJSON := ['e', '3', '0']
  attestationObject := ['o', '2', 'M']
  authenticatorAttachment := some .platform
  transports := some ["internal"]
  name := none

/-- Steps of one thread with nothing from the outside. -/
def calls (thread count : Nat) : RegistrationSchedule :=
  List.replicate count (.step thread {})

def lateClaim : RegistrationSchedule :=
  ([.spawn (.issue "uid" .passkeyAdd "https://parmelia.app")] : RegistrationSchedule) ++
    calls 0 3 ++
    ([.env (registrationTtlMs - 1),
      .spawn (.finalize "uid" .passkeyAdd phoneCredential)] : RegistrationSchedule) ++
    calls 1 3 ++ ([.env 1000] : RegistrationSchedule) ++ calls 1 4

/-- A challenge can be finalized although it had expired when it was claimed. -/
theorem expired_when_claimed : ¬ ∀ (env : Env) (clock : Timestamp) (ls : RegistrationSchedule),
    ∀ b ∈ (registrationRun env clock ls).world.bound,
    ∀ r ∈ (registrationRun env clock ls).world.issued, r.id = b.registration →
    ∀ n ∈ (registrationRun env clock ls).world.notes, n.claim = b.claim →
      n.moment < r.expiresAt := by
  intro always
  have run := always appEnv 0 lateClaim
  revert run
  decide +kernel

end ParmeliaLinks.Auth
