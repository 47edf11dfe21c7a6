/-
ParmeliaLinks/Auth/StepUpKeeps.lean

What the statements about e-mail codes, recovery links and step-up sessions keep
(`World.Sane`), and what a thread leaves to the others.  A claim is kept by the request that
made it until it gives it back, so what is claimed by one request cannot be consumed, or
opened a session for, by another one (`World.Spares`).
-/
import Mathlib.Data.Option.Basic
import ParmeliaLinks.Auth.StepUp

namespace ParmeliaLinks.Auth.StepUp

variable {env : Env} {i : Nat} {w w' : World}

/-! ### What is kept -/

/-- The columns of a code that no statement changes. -/
structure CodeRow.Same (r₀ r : CodeRow) : Prop where
  id : r₀.id = r.id
  emailHash : r₀.emailHash = r.emailHash
  codeHash : r₀.codeHash = r.codeHash
  purpose : r₀.purpose = r.purpose
  subjectUid : r₀.subjectUid = r.subjectUid
  maxAttempts : r₀.maxAttempts = r.maxAttempts
  expiresAt : r₀.expiresAt = r.expiresAt

structure LinkRow.Same (r₀ r : LinkRow) : Prop where
  id : r₀.id = r.id
  uid : r₀.uid = r.uid
  action : r₀.action = r.action
  tokenHash : r₀.tokenHash = r.tokenHash
  expiresAt : r₀.expiresAt = r.expiresAt

structure SessionRow.Same (r₀ r : SessionRow) : Prop where
  id : r₀.id = r.id
  uid : r₀.uid = r.uid
  tokenHash : r₀.tokenHash = r.tokenHash
  expiresAt : r₀.expiresAt = r.expiresAt

theorem CodeRow.Same.rfl (r : CodeRow) : r.Same r := by constructor <;> exact Eq.refl _

theorem LinkRow.Same.rfl (r : LinkRow) : r.Same r := by constructor <;> exact Eq.refl _

theorem SessionRow.Same.rfl (r : SessionRow) : r.Same r := by constructor <;> exact Eq.refl _

theorem CodeRow.Same.trans {r₁ r₂ r₃ : CodeRow} (h : r₁.Same r₂) (h' : r₂.Same r₃) :
    r₁.Same r₃ where
  id := h.id.trans h'.id
  emailHash := h.emailHash.trans h'.emailHash
  codeHash := h.codeHash.trans h'.codeHash
  purpose := h.purpose.trans h'.purpose
  subjectUid := h.subjectUid.trans h'.subjectUid
  maxAttempts := h.maxAttempts.trans h'.maxAttempts
  expiresAt := h.expiresAt.trans h'.expiresAt

namespace Codes

variable (c : Codes)

/-- How many attempts at a code have been reserved. -/
def attempts (id : Nat) : Nat := c.reserved.countP (·.code == id)

/-- How often something was compared with a code. -/
def compared (id : Nat) : Nat := c.guesses.countP (·.code == id)

/-- A text with the digest of the code was presented for it. -/
def Guessed (env : Env) (r : CodeRow) : Prop :=
  ∃ g ∈ c.guesses, g.code = r.id ∧ codeHash env r.id r.emailHash g.presented = .ok r.codeHash

/-- The row agrees with the histories. -/
structure Fits (r : CodeRow) : Prop where
  issued : ∃ r₀ ∈ c.issued, r₀.Same r
  attempts : c.attempts r.id = r.attempts
  holder : r.consumedAt = none → c.holder r.id = r.claimId
  unproved : r.consumedAt = none → ∀ p ∈ c.proofs, p.code ≠ r.id

/-- What holds of the codes when random values up to `drawn` have been drawn. -/
structure Sane (env : Env) (drawn : Nat) : Prop where
  rows : ∀ r ∈ c.rows, c.Fits r
  issued : ∀ r ∈ c.issued, r.id < drawn ∧ r.maxAttempts = maxAttempts
  issuedOnce : c.issued.Pairwise fun r r' => r.id ≠ r'.id
  reserved : ∀ a ∈ c.reserved, a.ticket < drawn ∧ ∃ r ∈ c.issued, r.id = a.code
  reservedOnce : c.reserved.Pairwise fun a a' => a.ticket ≠ a'.ticket
  bounded : ∀ id, c.attempts id ≤ maxAttempts
  guesses : ∀ g ∈ c.guesses, ∃ a ∈ c.reserved, a.ticket = g.ticket ∧ a.code = g.code
  guessesOnce : c.guesses.Pairwise fun g g' => g.ticket ≠ g'.ticket
  claims : ∀ n ∈ c.claims, n.claim < drawn ∧ n.reading ≤ n.moment ∧
    ∃ r ∈ c.issued, r.id = n.code ∧ n.reading < r.expiresAt ∧ c.Guessed env r
  claimsOnce : c.claims.Pairwise fun n n' => n.claim ≠ n'.claim
  holder : ∀ id k, c.holder id = some k → ∃ n ∈ c.claims, n.claim = k ∧ n.code = id
  proofs : ∀ p ∈ c.proofs, ∃ n ∈ c.claims, n.claim = p.claim ∧ n.code = p.code
  proofsOnce : c.proofs.Pairwise fun p p' => p.code ≠ p'.code

end Codes

structure Links.Sane (l : Links) (drawn : Nat) : Prop where
  rows : ∀ r ∈ l.rows, ∃ r₀ ∈ l.issued, r₀.Same r
  consumption : ∀ r ∈ l.rows, ∀ n, r.consumptionId = some n → n < drawn
  issued : ∀ r ∈ l.issued, r.id < drawn

structure Sessions.Sane (s : Sessions) (drawn : Nat) : Prop where
  rows : ∀ r ∈ s.rows, (∃ o ∈ s.opened, o.session.Same r) ∧
    (r.consumedAt = none → ∀ x ∈ s.spent, x.session ≠ r.id)
  opened : ∀ o ∈ s.opened, o.session.id < drawn
  openedOnce : s.opened.Pairwise fun o o' => o.session.id ≠ o'.session.id
  spent : ∀ x ∈ s.spent, x.reading ≤ x.moment ∧ ∃ o ∈ s.opened, o.session.id = x.session ∧
    o.session.uid = x.uid ∧ o.session.tokenHash = x.tokenHash ∧ x.reading < o.session.expiresAt
  spentOnce : s.spent.Pairwise fun x x' => x.session ≠ x'.session

/-- What a session was opened for: a code of the user that was guessed in time, by the request
that opened the session, or a link of the user. -/
def World.Earned (env : Env) (w : World) (o : Opening) : Source → Prop
  | .code id => ∃ r ∈ w.codes.issued, r.id = id ∧ r.purpose = .stepUp ∧
      r.subjectUid = some o.session.uid ∧ w.codes.Guessed env r ∧
      ∃ n ∈ w.codes.claims, n.code = id ∧ n.thread = o.thread ∧ n.reading < r.expiresAt
  | .link id => ∃ r ∈ w.links.issued, r.id = id ∧ r.uid = o.session.uid ∧
      o.reading < r.expiresAt ∧ o.reading ≤ o.moment

/-- A code or a link that a session was opened for is used up. -/
structure World.Linked (env : Env) (w : World) : Prop where
  sources : w.sessions.opened.Pairwise fun o o' => o.source ≠ o'.source
  earned : ∀ o ∈ w.sessions.opened, w.Earned env o o.source
  codes : ∀ o ∈ w.sessions.opened, ∀ r ∈ w.codes.rows, o.source = .code r.id →
    r.consumedAt ≠ none
  links : ∀ o ∈ w.sessions.opened, ∀ r ∈ w.links.rows, o.source = .link r.id →
    r.consumedAt ≠ none

structure World.Sane (env : Env) (w : World) : Prop where
  codes : w.codes.Sane env w.drawn
  links : w.links.Sane w.drawn
  sessions : w.sessions.Sane w.drawn
  linked : w.Linked env

/-- Histories only grow, and time goes on. -/
structure World.Grows (w w' : World) : Prop where
  clock : w.clock ≤ w'.clock
  codes : w.codes.issued ⊆ w'.codes.issued
  guesses : w.codes.guesses ⊆ w'.codes.guesses
  claims : w.codes.claims ⊆ w'.codes.claims
  proofs : w.codes.proofs ⊆ w'.codes.proofs
  links : w.links.issued ⊆ w'.links.issued
  opened : w.sessions.opened ⊆ w'.sessions.opened
  spent : w.sessions.spent ⊆ w'.sessions.spent

/-- The thread made the claim. -/
def Codes.Owns (c : Codes) (i : Nat) (k : ClaimId) : Prop :=
  ∃ n ∈ c.claims, n.claim = k ∧ n.thread = i

/-- What the others leave to the thread `i`: its attempts are not used and its claims are not
taken from it. -/
structure World.Spares (i : Nat) (w w' : World) : Prop where
  reserved : w.codes.reserved ⊆ w'.codes.reserved
  claims : w.codes.claims ⊆ w'.codes.claims
  guesses : ∀ g ∈ w'.codes.guesses,
    (∃ a ∈ w.codes.reserved, a.ticket = g.ticket ∧ a.thread = i) → g ∈ w.codes.guesses
  holder : ∀ id k, w.codes.holder id = some k → w.codes.Owns i k →
    w'.codes.holder id = some k ∧
      ∀ o ∈ w'.sessions.opened, o.source = .code id → o ∈ w.sessions.opened

namespace World

theorem Grows.rfl (w : World) : w.Grows w := by
  constructor
  · exact Nat.le_refl _
  all_goals exact List.Subset.refl _

theorem Grows.trans {w₁ w₂ w₃ : World} (h : w₁.Grows w₂) (h' : w₂.Grows w₃) : w₁.Grows w₃ where
  clock := Nat.le_trans h.clock h'.clock
  codes := List.Subset.trans h.codes h'.codes
  guesses := List.Subset.trans h.guesses h'.guesses
  claims := List.Subset.trans h.claims h'.claims
  proofs := List.Subset.trans h.proofs h'.proofs
  links := List.Subset.trans h.links h'.links
  opened := List.Subset.trans h.opened h'.opened
  spent := List.Subset.trans h.spent h'.spent

theorem Spares.rfl (i : Nat) (w : World) : w.Spares i w :=
  ⟨List.Subset.refl _, List.Subset.refl _, fun _ hg _ => hg, fun _ _ h _ => ⟨h, fun _ ho _ => ho⟩⟩

theorem Spares.trans {w₁ w₂ w₃ : World} (h : w₁.Spares i w₂) (h' : w₂.Spares i w₃) :
    w₁.Spares i w₃ where
  reserved := List.Subset.trans h.reserved h'.reserved
  claims := List.Subset.trans h.claims h'.claims
  guesses g hg own := by
    obtain ⟨a, ha, ticket, thread⟩ := own
    refine h.guesses g (h'.guesses g hg ?_) ⟨a, ha, ticket, thread⟩
    exact ⟨a, h.reserved ha, ticket, thread⟩
  holder id k held own := by
    obtain ⟨held', opened⟩ := h.holder id k held own
    obtain ⟨n, hn, rest⟩ := own
    obtain ⟨held'', opened'⟩ := h'.holder id k held' ⟨n, h.claims hn, rest⟩
    exact ⟨held'', fun o ho source => opened o (opened' o ho source) source⟩

end World

/-- What the handlers keep, whatever happens. -/
def stepUpDiscipline (env : Env) : Discipline StepUpOp World Answer Tick StepUpCall where
  Inv := World.Sane env
  Evolves := World.Grows
  rely := World.Spares
  refl := World.Grows.rfl
  trans := World.Grows.trans
  rely_refl := World.Spares.rfl
  rely_trans := World.Spares.trans

/-- A step of the thread `i` that follows the discipline. -/
structure World.Keeps (env : Env) (i : Nat) (w w' : World) : Prop where
  sane : w'.Sane env
  grows : w.Grows w'
  spares : ∀ j, j ≠ i → w.Spares j w'

theorem World.Keeps.rfl (hw : w.Sane env) : w.Keeps env i w :=
  ⟨hw, .rfl w, fun j _ => .rfl j w⟩

theorem performs_of_keeps {o : StepUpOp} {x : Answer}
    (keeps : w.Keeps env i (o.exec env i x w).2) :
    (stepUpDiscipline env).Performs (stepUpSystem env) i o x w :=
  ⟨⟨keeps.sane, keeps.grows⟩, keeps.spares, trivial⟩

/-- A statement is carried out or not. -/
theorem keeps_deliver {α : Type} (x : Delivery) {r : α × World} (hw : w.Sane env)
    (keeps : w.Keeps env i r.2) : w.Keeps env i (x.deliver w r).2 :=
  x.deliver_induction (.rfl hw) keeps

/-! ### Frames -/

theorem Codes.Sane.mono {c : Codes} {d d' : Nat} (h : c.Sane env d) (le : d ≤ d') :
    c.Sane env d' where
  rows := h.rows
  issued r hr := ⟨Nat.lt_of_lt_of_le (h.issued r hr).1 le, (h.issued r hr).2⟩
  issuedOnce := h.issuedOnce
  reserved a ha := ⟨Nat.lt_of_lt_of_le (h.reserved a ha).1 le, (h.reserved a ha).2⟩
  reservedOnce := h.reservedOnce
  bounded := h.bounded
  guesses := h.guesses
  guessesOnce := h.guessesOnce
  claims n hn := ⟨Nat.lt_of_lt_of_le (h.claims n hn).1 le, (h.claims n hn).2⟩
  claimsOnce := h.claimsOnce
  holder := h.holder
  proofs := h.proofs
  proofsOnce := h.proofsOnce

theorem Links.Sane.mono {l : Links} {d d' : Nat} (h : l.Sane d) (le : d ≤ d') : l.Sane d' :=
  ⟨h.rows, fun r hr n hn => Nat.lt_of_lt_of_le (h.consumption r hr n hn) le,
    fun r hr => Nat.lt_of_lt_of_le (h.issued r hr) le⟩

theorem Sessions.Sane.mono {s : Sessions} {d d' : Nat} (h : s.Sane d) (le : d ≤ d') :
    s.Sane d' :=
  ⟨h.rows, fun o ho => Nat.lt_of_lt_of_le (h.opened o ho) le, h.openedOnce, h.spent, h.spentOnce⟩

theorem Codes.Guessed.later {c c' : Codes} {r : CodeRow} (h : c.Guessed env r)
    (guesses : c.guesses ⊆ c'.guesses) : c'.Guessed env r := by
  obtain ⟨g, hg, rest⟩ := h
  exact ⟨g, guesses hg, rest⟩

theorem World.Earned.later {o : Opening} {s : Source} (h : w.Earned env o s)
    (grows : w.Grows w') : w'.Earned env o s := by
  cases s with
  | code id =>
    obtain ⟨r, hr, hid, purpose, subject, guessed, n, hn, rest⟩ := h
    exact ⟨r, grows.codes hr, hid, purpose, subject, guessed.later grows.guesses, n,
      grows.claims hn, rest⟩
  | link id =>
    obtain ⟨r, hr, rest⟩ := h
    exact ⟨r, grows.links hr, rest⟩

/-- What a statement does to the codes, when the thread `i` performs it. -/
structure Codes.Step (i : Nat) (drawn : Nat) (c c' : Codes) : Prop where
  issued : c.issued ⊆ c'.issued
  reserved : c.reserved ⊆ c'.reserved
  guesses : c.guesses ⊆ c'.guesses
  claims : c.claims ⊆ c'.claims
  proofs : c.proofs ⊆ c'.proofs
  opens : ∀ r ∈ c'.rows, r.consumedAt = none →
    (∃ r₀ ∈ c.rows, r₀.id = r.id ∧ r₀.consumedAt = none) ∨ drawn ≤ r.id
  others : ∀ g ∈ c'.guesses, g ∈ c.guesses ∨
    ∃ a ∈ c.reserved, a.ticket = g.ticket ∧ a.thread = i
  holder : ∀ id k, c.holder id = some k → c'.holder id = some k ∨ c.Owns i k

/-- The owner of a claim. -/
theorem Codes.Sane.owner {c : Codes} {d j : Nat} (h : c.Sane env d) {k : ClaimId}
    (own : c.Owns i k) (own' : c.Owns j k) : i = j := by
  obtain ⟨n, hn, claim, thread⟩ := own
  obtain ⟨n', hn', claim', thread'⟩ := own'
  have same : n = n' := by
    by_contra other
    have symm : Std.Symm fun n n' : CodeClaim => n.claim ≠ n'.claim := ⟨fun _ _ h => h.symm⟩
    exact h.claimsOnce.forall hn hn' other (claim.trans claim'.symm)
  rw [← thread, same, thread']

/-- Who reserved an attempt. -/
theorem Codes.Sane.reserver {c : Codes} {d : Nat} (h : c.Sane env d) {a a' : Attempt}
    (ha : a ∈ c.reserved) (ha' : a' ∈ c.reserved) (same : a.ticket = a'.ticket) : a = a' := by
  by_contra other
  have symm : Std.Symm fun a a' : Attempt => a.ticket ≠ a'.ticket := ⟨fun _ _ h => h.symm⟩
  exact h.reservedOnce.forall ha ha' other same

/-- The row as it was issued. -/
theorem Codes.Sane.issued_unique {c : Codes} {d : Nat} (h : c.Sane env d) {r r' : CodeRow}
    (hr : r ∈ c.issued) (hr' : r' ∈ c.issued) (same : r.id = r'.id) : r = r' := by
  by_contra other
  have symm : Std.Symm fun r r' : CodeRow => r.id ≠ r'.id := ⟨fun _ _ h => h.symm⟩
  exact h.issuedOnce.forall hr hr' other same

/-- A code that a session was opened for is issued. -/
theorem World.Sane.opened_code (hw : w.Sane env) {o : Opening} (ho : o ∈ w.sessions.opened)
    {id : Nat} (source : o.source = .code id) : id < w.drawn := by
  have earned := hw.linked.earned o ho
  rw [source] at earned
  obtain ⟨r, hr, rfl, -⟩ := earned
  exact (hw.codes.issued r hr).1

theorem World.Sane.opened_link (hw : w.Sane env) {o : Opening} (ho : o ∈ w.sessions.opened)
    {id : Nat} (source : o.source = .link id) : id < w.drawn := by
  have earned := hw.linked.earned o ho
  rw [source] at earned
  obtain ⟨r, hr, rfl, -⟩ := earned
  exact hw.links.issued r hr

/-- A statement about codes. -/
theorem World.Keeps.of_codes (hw : w.Sane env) {c : Codes} {d : Nat} (le : w.drawn ≤ d)
    (sane : c.Sane env d) (step : w.codes.Step i w.drawn c) :
    w.Keeps env i { w with drawn := d, codes := c } := by
  have grows : w.Grows { w with drawn := d, codes := c } :=
    ⟨Nat.le_refl _, step.issued, step.guesses, step.claims, step.proofs, List.Subset.refl _,
      List.Subset.refl _, List.Subset.refl _⟩
  refine ⟨⟨sane, hw.links.mono le, hw.sessions.mono le, ?_⟩, grows, fun j hj => ?_⟩
  · refine ⟨hw.linked.sources, fun o ho => (hw.linked.earned o ho).later grows, ?_,
      hw.linked.links⟩
    intro o ho r hr source open_
    rcases step.opens r hr open_ with ⟨r₀, hr₀, hid, open₀⟩ | new
    · exact hw.linked.codes o ho r₀ hr₀ (by rw [hid]; exact source) open₀
    · have old := hw.opened_code ho source
      omega
  · refine ⟨step.reserved, step.claims, fun g hg own => ?_, fun id k held own => ?_⟩
    · rcases step.others g hg with old | ⟨a, ha, ticket, thread⟩
      · exact old
      · -- an attempt of another thread is not used by this one
        obtain ⟨a', ha', ticket', thread'⟩ := own
        have same := hw.codes.reserver ha ha' (ticket.trans ticket'.symm)
        rw [← same, thread] at thread'
        exact absurd thread'.symm hj
    · rcases step.holder id k held with same | mine
      · exact ⟨same, fun _ ho _ => ho⟩
      · exact absurd (hw.codes.owner own mine) hj

/-! ### What each statement about codes keeps -/

/-- Steps one after the other. -/
theorem World.Keeps.trans {w'' : World} (h : w.Keeps env i w') (h' : w'.Keeps env i w'') :
    w.Keeps env i w'' :=
  ⟨h'.sane, h.grows.trans h'.grows, fun j hj => (h.spares j hj).trans (h'.spares j hj)⟩

/-- The row that an update of one row matches. -/
theorem changed {ρ : Type} [Row ρ] {t : Table ρ} {p : ρ → Bool} (h : t.changes p = 1) :
    ∃ r ∈ t, p r = true :=
  Table.changes_pos.1 (by omega)

/-- A row after an update. -/
theorem of_modify {ρ : Type} [Row ρ] {t : Table ρ} {p : ρ → Bool} {f : ρ → ρ}
    (hf : Table.KeepsKeys f) {r : ρ} (hr : r ∈ t.modify p f hf) :
    ∃ r₀ ∈ t, (if p r₀ then f r₀ else r₀) = r :=
  Table.mem_modify.1 hr

/-- An update by a key matches one row at most. -/
theorem changes_of_key {ρ : Type} [Row ρ] {t : Table ρ} {p : ρ → Bool} {r : ρ} (hr : r ∈ t)
    (hp : p r = true) (key : ∀ r r', p r = true → p r' = true → Row.clash r r' = true) :
    t.changes p = 1 := by
  rw [Table.changes, List.countP_eq_length_filter]
  exact (Table.length_filter_eq_one fun r _ r' _ => key r r').2 ⟨r, hr, hp⟩

/-- A row of which the histories say no more than before. -/
theorem Codes.Fits.later {c c' : Codes} {r : CodeRow} (h : c.Fits r)
    (issued : c.issued ⊆ c'.issued) (attempts : c'.attempts r.id = c.attempts r.id)
    (holder : c'.holder r.id = c.holder r.id)
    (proofs : ∀ p ∈ c'.proofs, p ∈ c.proofs ∨ p.code ≠ r.id) : c'.Fits r where
  issued := by
    obtain ⟨r₀, hr₀, same⟩ := h.issued
    exact ⟨r₀, issued hr₀, same⟩
  attempts := attempts.trans h.attempts
  holder open_ := holder.trans (h.holder open_)
  unproved open_ p hp := by
    rcases proofs p hp with old | other
    · exact h.unproved open_ p old
    · exact other

/-- The row comes from one that was open if it is, under the same claim. -/
structure CodeRow.From (r₀ r : CodeRow) : Prop where
  same : r₀.Same r
  attempts : r.attempts = r₀.attempts
  open_ : r.consumedAt = none → r₀.consumedAt = none ∧ r.claimId = r₀.claimId

theorem CodeRow.From.rfl (r : CodeRow) : r.From r := ⟨.rfl r, Eq.refl _, fun h => ⟨h, Eq.refl _⟩⟩

theorem CodeRow.From.fits {c : Codes} {r₀ r : CodeRow} (h : r₀.From r) (fits : c.Fits r₀) :
    c.Fits r where
  issued := by
    obtain ⟨r₁, hr₁, same⟩ := fits.issued
    exact ⟨r₁, hr₁, same.trans h.same⟩
  attempts := by
    rw [← h.same.id, h.attempts]
    exact fits.attempts
  holder open_ := by
    obtain ⟨open₀, claim⟩ := h.open_ open_
    rw [← h.same.id, claim]
    exact fits.holder open₀
  unproved open_ p hp := by
    rw [← h.same.id]
    exact fits.unproved (h.open_ open_).1 p hp

/-- The rows of an update. -/
theorem from_modify {t : Table CodeRow} {p : CodeRow → Bool} {f : CodeRow → CodeRow}
    {hf : Table.KeepsKeys f} (h : ∀ r : CodeRow, r.From (f r)) :
    ∀ r ∈ t.modify p f hf, ∃ r₀ ∈ t, r₀.From r := by
  intro r hr
  obtain ⟨r₀, hr₀, rfl⟩ := Table.mem_modify.1 hr
  refine ⟨r₀, hr₀, ?_⟩
  split
  · exact h r₀
  · exact .rfl r₀

/-- An update that opens no row. -/
theorem opens_modify {t : Table CodeRow} {p : CodeRow → Bool} {f : CodeRow → CodeRow}
    (hf : Table.KeepsKeys f) {d : Nat} (id : ∀ r, (f r).id = r.id)
    (open_ : ∀ r, (f r).consumedAt = none → r.consumedAt = none) :
    ∀ r ∈ t.modify p f hf, r.consumedAt = none →
      (∃ r₀ ∈ t, r₀.id = r.id ∧ r₀.consumedAt = none) ∨ d ≤ r.id := by
  intro r hr free
  obtain ⟨r₀, hr₀, rfl⟩ := Table.mem_modify.1 hr
  refine .inl ⟨r₀, hr₀, ?_⟩
  split at free
  · rename_i matched
    rw [if_pos matched]
    exact ⟨(id r₀).symm, open_ r₀ free⟩
  · rename_i matched
    rw [if_neg matched]
    exact ⟨rfl, free⟩

theorem from_delete {t : Table CodeRow} {p : CodeRow → Bool} :
    ∀ r ∈ t.delete p, ∃ r₀ ∈ t, r₀.From r :=
  fun r hr => ⟨r, (Table.mem_delete.1 hr).1, .rfl r⟩

/-- A code that is consumed. -/
theorem from_consumedCode (now : Timestamp) (r : CodeRow) : r.From (consumedCode now r) where
  same := ⟨rfl, rfl, rfl, rfl, rfl, rfl, rfl⟩
  attempts := rfl
  open_ h := by cases h

/-- A statement that only takes rows away, or closes them. -/
theorem keeps_codeRows (hw : w.Sane env) {rows : Table CodeRow}
    (old : ∀ r ∈ rows, ∃ r₀ ∈ w.codes.rows, r₀.From r) :
    w.Keeps env i { w with codes := { w.codes with rows } } := by
  have h := hw.codes
  refine .of_codes hw (Nat.le_refl _) ?_ ?_
  · refine ⟨fun r hr => ?_, h.issued, h.issuedOnce, h.reserved, h.reservedOnce, h.bounded,
      h.guesses, h.guessesOnce, h.claims, h.claimsOnce, h.holder, h.proofs, h.proofsOnce⟩
    obtain ⟨r₀, hr₀, source⟩ := old r hr
    have fits := source.fits (h.rows r₀ hr₀)
    exact ⟨fits.issued, fits.attempts, fits.holder, fits.unproved⟩
  · refine ⟨List.Subset.refl _, List.Subset.refl _, List.Subset.refl _, List.Subset.refl _,
      List.Subset.refl _, fun r hr open_ => ?_, fun g hg => .inl hg, fun _ _ held => .inl held⟩
    obtain ⟨r₀, hr₀, source⟩ := old r hr
    exact .inl ⟨r₀, hr₀, source.same.id, (source.open_ open_).1⟩

theorem keeps_deleteCode (hw : w.Sane env) (id : Nat) : w.Keeps env i (w.deleteCode id) :=
  keeps_codeRows hw from_delete

theorem keeps_retireCodes (hw : w.Sane env) (row : CodeRow) :
    w.Keeps env i (w.retireCodes env row) :=
  keeps_codeRows hw (from_modify fun r => from_consumedCode _ r)

/-- A random value is drawn. -/
theorem keeps_drawn (hw : w.Sane env) (n : Nat) :
    w.Keeps env i { w with drawn := w.drawn + n } :=
  .of_codes hw (Nat.le_add_right _ _) (hw.codes.mono (Nat.le_add_right _ _))
    ⟨List.Subset.refl _, List.Subset.refl _, List.Subset.refl _, List.Subset.refl _,
      List.Subset.refl _, fun r hr open_ => .inl ⟨r, hr, rfl, open_⟩, fun _ hg => .inl hg,
      fun _ _ held => .inl held⟩

/-- The row of a code as it is inserted. -/
structure CodeRow.Blank (r : CodeRow) : Prop where
  attempts : r.attempts = 0
  maxAttempts : r.maxAttempts = StepUp.maxAttempts
  claimId : r.claimId = none

/-- What is not issued has no history. -/
theorem Codes.Sane.unknown {c : Codes} {d id : Nat} (h : c.Sane env d) (fresh : d ≤ id) :
    c.attempts id = 0 ∧ c.holder id = none ∧ ∀ p ∈ c.proofs, p.code ≠ id := by
  have unissued {n : CodeClaim} (hn : n ∈ c.claims) : n.code ≠ id := by
    rintro rfl
    obtain ⟨-, -, r, hr, hid, -⟩ := h.claims n hn
    have := (h.issued r hr).1
    omega
  refine ⟨List.countP_eq_zero.2 fun a ha same => ?_, ?_, fun p hp same => ?_⟩
  · obtain ⟨-, r, hr, hid⟩ := h.reserved a ha
    have := (h.issued r hr).1
    have := beq_iff_eq.1 same
    omega
  · cases held : c.holder id with
    | none => rfl
    | some k =>
      obtain ⟨n, hn, -, code⟩ := h.holder id k held
      exact absurd code (unissued hn)
  · obtain ⟨n, hn, -, code⟩ := h.proofs p hp
    exact unissued hn (code.trans same)

theorem keeps_insertCode (hw : w.Sane env) {row : Nat → CodeRow} (hid : ∀ n, (row n).id = n)
    (blank : ∀ n, (row n).Blank) : w.Keeps env i (w.insertCode row).2 := by
  unfold World.insertCode
  split
  · exact keeps_drawn hw 1
  rename_i rows inserted
  have h := hw.codes
  have mem := @Table.mem_of_rows_append _ _ _ _ _ (Table.insert_rows inserted).1
  obtain ⟨attempts, holder, proofs⟩ := h.unknown (Nat.le_of_eq (hid w.drawn).symm)
  have more : w.codes.issued ⊆ w.codes.issued ++ [row w.drawn] := List.subset_append_left _ _
  refine .of_codes hw (Nat.le_succ _) ⟨?_, ?_, ?_, ?_, h.reservedOnce, h.bounded, h.guesses,
    h.guessesOnce, ?_, h.claimsOnce, h.holder, h.proofs, h.proofsOnce⟩ ?_
  · intro r hr
    rcases mem.1 hr with old | rfl
    · exact (h.rows r old).later more rfl rfl fun _ hp => .inl hp
    · exact ⟨⟨_, List.mem_append_right _ (List.mem_singleton_self _), .rfl _⟩,
        attempts.trans (blank _).attempts.symm, fun _ => holder.trans (blank _).claimId.symm,
        fun _ => proofs⟩
  · intro r hr
    rcases List.mem_append.1 hr with old | new
    · exact ⟨Nat.lt_succ_of_lt (h.issued r old).1, (h.issued r old).2⟩
    · rw [List.mem_singleton.1 new, hid]
      exact ⟨Nat.lt_succ_self _, (blank _).maxAttempts⟩
  · refine List.pairwise_append.2 ⟨h.issuedOnce, List.pairwise_singleton _ _, ?_⟩
    intro r hr r' hr'
    rw [List.mem_singleton.1 hr', hid]
    exact Nat.ne_of_lt (h.issued r hr).1
  · intro a ha
    obtain ⟨past, r, hr, code⟩ := h.reserved a ha
    exact ⟨Nat.lt_succ_of_lt past, r, more hr, code⟩
  · intro n hn
    obtain ⟨past, moment, r, hr, rest⟩ := h.claims n hn
    exact ⟨Nat.lt_succ_of_lt past, moment, r, more hr, rest⟩
  · refine ⟨more, List.Subset.refl _, List.Subset.refl _, List.Subset.refl _, List.Subset.refl _,
      fun r hr open_ => ?_, fun _ hg => .inl hg, fun _ _ held => .inl held⟩
    rcases mem.1 hr with old | rfl
    · exact .inl ⟨r, old, rfl, open_⟩
    · exact .inr (Nat.le_of_eq (hid _).symm)

/-- The thread has reserved an attempt at the code and not used it. -/
structure Codes.Reserved (c : Codes) (i ticket id : Nat) : Prop where
  mem : ∃ a ∈ c.reserved, a.ticket = ticket ∧ a.thread = i ∧ a.code = id
  unused : ∀ g ∈ c.guesses, g.ticket ≠ ticket

theorem Codes.Reserved.later {ticket id : Nat} (h : w.codes.Reserved i ticket id)
    (spares : w.Spares i w') : w'.codes.Reserved i ticket id where
  mem := by
    obtain ⟨a, ha, rest⟩ := h.mem
    exact ⟨a, spares.reserved ha, rest⟩
  unused g hg same := by
    obtain ⟨a, ha, ticket', thread, -⟩ := h.mem
    exact h.unused g (spares.guesses g hg ⟨a, ha, ticket'.trans same.symm, thread⟩) same

theorem attempts_concat (c : Codes) (a : Attempt) (id : Nat) :
    Codes.attempts { c with reserved := c.reserved ++ [a] } id =
      c.attempts id + if a.code = id then 1 else 0 := by
  simp [Codes.attempts, List.countP_append, List.countP_singleton]

/-- An attempt is reserved as long as there are some left. -/
theorem keeps_reserve (hw : w.Sane env) (id : Nat) (now : Timestamp) :
    w.Keeps env i (w.reserve i id now).2 := by
  unfold World.reserve
  split
  swap
  · exact .rfl hw
  rename_i one
  have h := hw.codes
  obtain ⟨r₁, hr₁, able⟩ := changed one
  simp only [reservable, Bool.and_eq_true, beq_iff_eq, decide_eq_true_eq,
    Option.isNone_iff_eq_none] at able
  obtain ⟨⟨⟨⟨rfl, open₁⟩, unclaimed⟩, few⟩, timely⟩ := able
  have fits₁ := h.rows r₁ hr₁
  obtain ⟨r₀, hr₀, same₀⟩ := fits₁.issued
  have only {r : CodeRow} (hr : r ∈ w.codes.rows) (same : r.id = r₁.id) : r = r₁ :=
    Table.eq_of_clash hr hr₁ (beq_iff_eq.2 same)
  have more : w.codes.reserved ⊆ w.codes.reserved ++ [⟨w.drawn, r₁.id, i⟩] :=
    List.subset_append_left _ _
  refine .of_codes hw (Nat.le_succ _) ⟨?_, ?_, h.issuedOnce, ?_, ?_, ?_, ?_, h.guessesOnce, ?_,
    h.claimsOnce, h.holder, h.proofs, h.proofsOnce⟩ ?_
  · intro r hr
    obtain ⟨r₂, hr₂, rfl⟩ := of_modify keepsKeys_attempted hr
    have fits := h.rows r₂ hr₂
    split
    · rename_i able
      simp only [reservable, Bool.and_eq_true, beq_iff_eq] at able
      obtain rfl := only hr₂ able.1.1.1.1
      obtain ⟨r₃, hr₃, same⟩ := fits.issued
      refine ⟨⟨r₃, hr₃, same.trans ⟨rfl, rfl, rfl, rfl, rfl, rfl, rfl⟩⟩, ?_, fits.holder,
        fits.unproved⟩
      refine (attempts_concat w.codes _ r₂.id).trans ?_
      rw [if_pos rfl, fits.attempts]
      rfl
    · rename_i other
      refine fits.later (List.Subset.refl _) ?_ rfl fun _ hp => .inl hp
      refine (attempts_concat w.codes _ r₂.id).trans ?_
      rw [if_neg, Nat.add_zero]
      intro same
      obtain rfl := only hr₂ same.symm
      apply other
      simp [reservable, open₁, unclaimed, few, timely]
  · exact fun r hr => ⟨Nat.lt_succ_of_lt (h.issued r hr).1, (h.issued r hr).2⟩
  · intro a ha
    rcases List.mem_append.1 ha with old | new
    · obtain ⟨past, issued⟩ := h.reserved a old
      exact ⟨Nat.lt_succ_of_lt past, issued⟩
    · rw [List.mem_singleton.1 new]
      exact ⟨Nat.lt_succ_self _, r₀, hr₀, same₀.id⟩
  · refine List.pairwise_append.2 ⟨h.reservedOnce, List.pairwise_singleton _ _, ?_⟩
    intro a ha a' ha'
    rw [List.mem_singleton.1 ha']
    exact Nat.ne_of_lt (h.reserved a ha).1
  · intro id
    refine Nat.le_trans (Nat.le_of_eq (attempts_concat w.codes _ id)) ?_
    split
    · rename_i same
      -- the bound of the row is the one with which it was issued
      rw [← same]
      show w.codes.attempts r₁.id + 1 ≤ _
      rw [fits₁.attempts, ← (h.issued r₀ hr₀).2, same₀.maxAttempts]
      exact few
    · exact h.bounded id
  · intro g hg
    obtain ⟨a, ha, rest⟩ := h.guesses g hg
    exact ⟨a, more ha, rest⟩
  · intro n hn
    exact ⟨Nat.lt_succ_of_lt (h.claims n hn).1, (h.claims n hn).2⟩
  · refine ⟨List.Subset.refl _, more, List.Subset.refl _, List.Subset.refl _, List.Subset.refl _,
      opens_modify keepsKeys_attempted (fun _ => rfl) (fun _ free => free), fun _ hg => .inl hg,
      fun _ _ held => .inl held⟩

theorem reserved_reserve (hw : w.Sane env) {id ticket : Nat} {now : Timestamp}
    (done : (w.reserve i id now).1 = some ticket) :
    (w.reserve i id now).2.codes.Reserved i ticket id := by
  unfold World.reserve at done ⊢
  split at done
  · rename_i one
    obtain rfl := Option.some.inj done
    rw [if_pos one]
    refine ⟨⟨_, List.mem_append_right _ (List.mem_singleton_self _), rfl, rfl, rfl⟩, ?_⟩
    intro g hg same
    obtain ⟨a, ha, ticket, -⟩ := hw.codes.guesses g hg
    have past := (hw.codes.reserved a ha).1
    omega
  · cases done

/-- A reserved attempt is used. -/
theorem keeps_present (hw : w.Sane env) {ticket id : Nat} (presented : Text)
    (reserved : w.codes.Reserved i ticket id) : w.Keeps env i (w.present ticket id presented) := by
  have h := hw.codes
  obtain ⟨a, ha, ticketed, thread, code⟩ := reserved.mem
  have more : w.codes.guesses ⊆ w.codes.guesses ++ [⟨ticket, id, presented⟩] :=
    List.subset_append_left _ _
  refine .of_codes hw (Nat.le_refl _) ⟨fun r hr => ?_, h.issued, h.issuedOnce, h.reserved,
    h.reservedOnce, h.bounded, fun g hg => ?_, ?_, fun n hn => ?_, h.claimsOnce, h.holder,
    h.proofs, h.proofsOnce⟩ ?_
  · exact (h.rows r hr).later (List.Subset.refl _) rfl rfl fun _ hp => .inl hp
  · rcases List.mem_append.1 hg with old | new
    · exact h.guesses g old
    · rw [List.mem_singleton.1 new]
      exact ⟨a, ha, ticketed, code⟩
  · refine List.pairwise_append.2 ⟨h.guessesOnce, List.pairwise_singleton _ _, ?_⟩
    intro g hg g' hg'
    rw [List.mem_singleton.1 hg']
    exact reserved.unused g hg
  · obtain ⟨past, moment, r, hr, hid, timely, guessed⟩ := h.claims n hn
    exact ⟨past, moment, r, hr, hid, timely, guessed.later more⟩
  · refine ⟨List.Subset.refl _, List.Subset.refl _, more, List.Subset.refl _,
      List.Subset.refl _, fun r hr open_ => .inl ⟨r, hr, rfl, open_⟩, fun g hg => ?_,
      fun _ _ held => .inl held⟩
    rcases List.mem_append.1 hg with old | new
    · exact .inl old
    · rw [List.mem_singleton.1 new]
      exact .inr ⟨a, ha, ticketed, thread⟩

/-- The thread holds the claim, and no session has been opened for the code. -/
structure World.Holding (w : World) (i : Nat) (k : ClaimId) (id : Nat) : Prop where
  holder : w.codes.holder id = some k
  owned : ∃ n ∈ w.codes.claims, n.claim = k ∧ n.thread = i ∧ n.code = id
  unopened : ∀ o ∈ w.sessions.opened, o.source ≠ .code id

theorem World.Holding.owns {k : ClaimId} {id : Nat} (h : w.Holding i k id) : w.codes.Owns i k := by
  obtain ⟨n, hn, claim, thread, -⟩ := h.owned
  exact ⟨n, hn, claim, thread⟩

theorem World.Holding.later {k : ClaimId} {id : Nat} (h : w.Holding i k id)
    (spares : w.Spares i w') : w'.Holding i k id := by
  obtain ⟨holder, opened⟩ := spares.holder id k h.holder h.owns
  obtain ⟨n, hn, rest⟩ := h.owned
  exact ⟨holder, ⟨n, spares.claims hn, rest⟩, fun o ho source =>
    h.unopened o (opened o ho source) source⟩

/-- An issued code for which its digest was presented. -/
def Codes.Known (c : Codes) (env : Env) (id : Nat) : Prop :=
  ∃ r ∈ c.issued, r.id = id ∧ c.Guessed env r

/-- A claim takes an open row, of a code that was guessed. -/
theorem keeps_claim (hw : w.Sane env) {id : Nat} {now : Timestamp} (past : now ≤ w.clock)
    (known : w.codes.Known env id) : w.Keeps env i (w.claim i id now).2 := by
  unfold World.claim
  split
  swap
  · exact .rfl hw
  rename_i one
  have h := hw.codes
  obtain ⟨r₁, hr₁, able⟩ := changed one
  have matched := able
  simp only [claimable, Bool.and_eq_true, beq_iff_eq, decide_eq_true_eq,
    Option.isNone_iff_eq_none] at able
  obtain ⟨⟨⟨⟨rfl, open₁⟩, unclaimed⟩, -⟩, timely⟩ := able
  have fits₁ := h.rows r₁ hr₁
  obtain ⟨r₀, hr₀, same₀⟩ := fits₁.issued
  have free : w.codes.holder r₁.id = none := (fits₁.holder open₁).trans unclaimed
  have only {r : CodeRow} (hr : r ∈ w.codes.rows) (same : r.id = r₁.id) : r = r₁ :=
    Table.eq_of_clash hr hr₁ (beq_iff_eq.2 same)
  have more : w.codes.claims ⊆ w.codes.claims ++ [⟨w.drawn, r₁.id, i, now, w.clock⟩] :=
    List.subset_append_left _ _
  refine .of_codes hw (Nat.le_succ _) ⟨?_, ?_, h.issuedOnce, ?_, h.reservedOnce, h.bounded,
    h.guesses, h.guessesOnce, ?_, ?_, ?_, ?_, h.proofsOnce⟩ ?_
  · intro r hr
    obtain ⟨r₂, hr₂, rfl⟩ := of_modify (keepsKeys_claimedCode _) hr
    have fits := h.rows r₂ hr₂
    split
    · rename_i able
      simp only [claimable, Bool.and_eq_true, beq_iff_eq] at able
      obtain rfl := only hr₂ able.1.1.1.1
      obtain ⟨r₃, hr₃, same⟩ := fits.issued
      exact ⟨⟨r₃, hr₃, same.trans ⟨rfl, rfl, rfl, rfl, rfl, rfl, rfl⟩⟩, fits.attempts,
        fun _ => if_pos rfl, fits.unproved⟩
    · rename_i other
      refine fits.later (List.Subset.refl _) rfl (if_neg fun same => other ?_) fun _ hp => .inl hp
      rw [only hr₂ same]
      exact matched
  · exact fun r hr => ⟨Nat.lt_succ_of_lt (h.issued r hr).1, (h.issued r hr).2⟩
  · exact fun a ha => ⟨Nat.lt_succ_of_lt (h.reserved a ha).1, (h.reserved a ha).2⟩
  · intro n hn
    rcases List.mem_append.1 hn with old | new
    · exact ⟨Nat.lt_succ_of_lt (h.claims n old).1, (h.claims n old).2⟩
    · rw [List.mem_singleton.1 new]
      obtain ⟨r, hr, hid, guessed⟩ := known
      obtain rfl := h.issued_unique hr hr₀ (hid.trans same₀.id.symm)
      exact ⟨Nat.lt_succ_self _, past, r, hr, hid, by rw [same₀.expiresAt]; exact timely, guessed⟩
  · refine List.pairwise_append.2 ⟨h.claimsOnce, List.pairwise_singleton _ _, ?_⟩
    intro n hn n' hn'
    rw [List.mem_singleton.1 hn']
    exact Nat.ne_of_lt (h.claims n hn).1
  · intro id k held
    have held : (if id = r₁.id then some w.drawn else w.codes.holder id) = some k := held
    split at held
    · rename_i same
      exact ⟨_, List.mem_append_right _ (List.mem_singleton_self _), Option.some.inj held,
        same.symm⟩
    · obtain ⟨n, hn, rest⟩ := h.holder id k held
      exact ⟨n, more hn, rest⟩
  · intro p hp
    obtain ⟨n, hn, rest⟩ := h.proofs p hp
    exact ⟨n, more hn, rest⟩
  · refine ⟨List.Subset.refl _, List.Subset.refl _, List.Subset.refl _, more,
      List.Subset.refl _,
      opens_modify (keepsKeys_claimedCode _) (fun _ => rfl) (fun _ free => free),
      fun _ hg => .inl hg,
      fun id k held => .inl ((if_neg ?_).trans held)⟩
    rintro rfl
    rw [free] at held
    cases held

theorem holding_claim (hw : w.Sane env) {id : Nat} {k : ClaimId} {now : Timestamp}
    (done : (w.claim i id now).1 = some k) : (w.claim i id now).2.Holding i k id := by
  unfold World.claim at done ⊢
  split at done
  · rename_i one
    obtain rfl := Option.some.inj done
    rw [if_pos one]
    refine ⟨if_pos rfl, ⟨_, List.mem_append_right _ (List.mem_singleton_self _), rfl, rfl, rfl⟩,
      fun o ho source => ?_⟩
    obtain ⟨r₁, hr₁, able⟩ := changed one
    simp only [claimable, Bool.and_eq_true, beq_iff_eq, Option.isNone_iff_eq_none] at able
    obtain ⟨⟨⟨⟨rfl, open₁⟩, -⟩, -⟩, -⟩ := able
    exact hw.linked.codes o ho r₁ hr₁ source open₁
  · cases done

/-- A thread gives its own claim back. -/
theorem keeps_releaseClaim (hw : w.Sane env) {k : ClaimId} (own : w.codes.Owns i k) (id : Nat) :
    w.Keeps env i (w.releaseClaim id k) := by
  have h := hw.codes
  refine .of_codes hw (Nat.le_refl _) ⟨fun r hr => ?_, h.issued, h.issuedOnce, h.reserved,
    h.reservedOnce, h.bounded, h.guesses, h.guessesOnce, h.claims, h.claimsOnce,
    fun id' k' held => ?_, h.proofs, h.proofsOnce⟩ ?_
  · obtain ⟨r₁, hr₁, rfl⟩ := of_modify (keepsKeys_claimedCode _) hr
    have fits := h.rows r₁ hr₁
    split
    · rename_i held
      simp only [heldBy, Bool.and_eq_true, beq_iff_eq, Option.isNone_iff_eq_none] at held
      obtain ⟨⟨rfl, claim⟩, open₁⟩ := held
      obtain ⟨r₀, hr₀, same⟩ := fits.issued
      exact ⟨⟨r₀, hr₀, same.trans ⟨rfl, rfl, rfl, rfl, rfl, rfl, rfl⟩⟩, fits.attempts,
        fun _ => if_pos ⟨rfl, (fits.holder open₁).trans claim⟩, fits.unproved⟩
    · rename_i other
      refine ⟨fits.issued, fits.attempts, fun open₁ => (if_neg ?_).trans (fits.holder open₁),
        fits.unproved⟩
      rintro ⟨rfl, held⟩
      apply other
      simp [heldBy, open₁, (fits.holder open₁).symm.trans held]
  · have held : (if id' = id ∧ w.codes.holder id = some k then none else w.codes.holder id') =
        some k' := held
    split at held
    · cases held
    · exact h.holder id' k' held
  · refine ⟨List.Subset.refl _, List.Subset.refl _, List.Subset.refl _, List.Subset.refl _,
      List.Subset.refl _,
      opens_modify (keepsKeys_claimedCode _) (fun _ => rfl) (fun _ free => free),
      fun _ hg => .inl hg,
      fun id' k' held => ?_⟩
    by_cases given : id' = id ∧ w.codes.holder id = some k
    · obtain ⟨rfl, mine⟩ := given
      obtain rfl := Option.some.inj (mine.symm.trans held)
      exact .inr own
    · exact .inl ((if_neg given).trans held)

/-- A claimed code is consumed: the codes. -/
theorem codes_consumeCode {d : Nat} (h : w.codes.Sane env d) (id : Nat) (k : ClaimId)
    (now : Timestamp) :
    (w.consumeCode i id k now).2.codes.Sane env d ∧
      w.codes.Step i d (w.consumeCode i id k now).2.codes := by
  unfold World.consumeCode
  split
  swap
  · exact ⟨h, List.Subset.refl _, List.Subset.refl _, List.Subset.refl _, List.Subset.refl _,
      List.Subset.refl _, fun r hr open_ => .inl ⟨r, hr, rfl, open_⟩, fun _ hg => .inl hg,
      fun _ _ held => .inl held⟩
  rename_i one
  obtain ⟨r₁, hr₁, held⟩ := changed one
  have matched := held
  simp only [heldBy, Bool.and_eq_true, beq_iff_eq, Option.isNone_iff_eq_none] at held
  obtain ⟨⟨rfl, claim⟩, open₁⟩ := held
  have fits₁ := h.rows r₁ hr₁
  have more : w.codes.proofs ⊆ w.codes.proofs ++ [⟨r₁.id, k, i⟩] := List.subset_append_left _ _
  refine ⟨⟨fun r hr => ?_, h.issued, h.issuedOnce, h.reserved, h.reservedOnce, h.bounded,
    h.guesses, h.guessesOnce, h.claims, h.claimsOnce, h.holder, fun p hp => ?_, ?_⟩, ?_⟩
  · obtain ⟨r₂, hr₂, rfl⟩ := of_modify (keepsKeys_consumedCode _) hr
    have fits := h.rows r₂ hr₂
    split
    · obtain ⟨r₀, hr₀, same⟩ := fits.issued
      have closed {P : Prop} (free : (consumedCode now r₂).consumedAt = none) : P := by cases free
      exact ⟨⟨r₀, hr₀, same.trans (from_consumedCode now r₂).same⟩, fits.attempts, closed, closed⟩
    · rename_i other
      refine fits.later (List.Subset.refl _) rfl rfl fun p hp => ?_
      rcases List.mem_append.1 hp with old | new
      · exact .inl old
      · rw [List.mem_singleton.1 new]
        refine .inr fun same => other ?_
        have same : r₁ = r₂ := Table.eq_of_clash hr₁ hr₂ (beq_iff_eq.2 same)
        rw [← same]
        exact matched
  · rcases List.mem_append.1 hp with old | new
    · exact h.proofs p old
    · rw [List.mem_singleton.1 new]
      exact h.holder r₁.id k ((fits₁.holder open₁).trans claim)
  · refine List.pairwise_append.2 ⟨h.proofsOnce, List.pairwise_singleton _ _, ?_⟩
    intro p hp p' hp'
    rw [List.mem_singleton.1 hp']
    exact fits₁.unproved open₁ p hp
  · exact ⟨List.Subset.refl _, List.Subset.refl _, List.Subset.refl _, List.Subset.refl _, more,
      opens_modify (keepsKeys_consumedCode _) (fun _ => rfl) (fun _ free => by cases free),
      fun _ hg => .inl hg,
      fun _ _ held => .inl held⟩

/-- Nothing else is changed. -/
theorem consumeCode_frame (id : Nat) (k : ClaimId) (now : Timestamp) :
    (w.consumeCode i id k now).2 = { w with codes := (w.consumeCode i id k now).2.codes } := by
  unfold World.consumeCode
  split <;> rfl

theorem keeps_consumeCode (hw : w.Sane env) (id : Nat) (k : ClaimId) (now : Timestamp) :
    w.Keeps env i (w.consumeCode i id k now).2 := by
  obtain ⟨sane, step⟩ := codes_consumeCode (i := i) hw.codes id k now
  rw [consumeCode_frame]
  exact .of_codes hw (Nat.le_refl _) sane step

theorem proof_consumeCode {id : Nat} {k : ClaimId} {now : Timestamp}
    (done : (w.consumeCode i id k now).1 = true) :
    ⟨id, k, i⟩ ∈ (w.consumeCode i id k now).2.codes.proofs := by
  unfold World.consumeCode at done ⊢
  split at done
  · rename_i one
    rw [if_pos one]
    exact List.mem_append_right _ (List.mem_singleton_self _)
  · cases done

/-- A code under a claim that is held is used up afterwards. -/
theorem consumed_consumeCode {d : Nat} (h : w.codes.Sane env d) {id : Nat} {k : ClaimId}
    (now : Timestamp) (held : w.codes.holder id = some k) :
    ∀ r ∈ (w.consumeCode i id k now).2.codes.rows, r.id = id → r.consumedAt ≠ none := by
  have closed {r : CodeRow} (hr : r ∈ w.codes.rows) (same : r.id = id)
      (open_ : r.consumedAt = none) : heldBy id k r = true := by
    have claim := (h.rows r hr).holder open_
    rw [same, held] at claim
    simp [heldBy, same, ← claim, open_]
  intro r hr same
  unfold World.consumeCode at hr
  split at hr
  · obtain ⟨r₀, hr₀, rfl⟩ := of_modify (keepsKeys_consumedCode _) hr
    split
    · exact fun free => by cases free
    · rename_i other
      rw [if_neg other] at same
      exact fun open_ => other (closed hr₀ same open_)
  · rename_i none_
    intro open_
    refine none_ (changes_of_key hr (closed hr same open_) fun r r' hp hp' => ?_)
    simp only [heldBy, Bool.and_eq_true, beq_iff_eq] at hp hp'
    exact beq_iff_eq.2 (hp.1.1.trans hp'.1.1.symm)

/-! ### What each statement about sessions and links keeps -/

/-- A session is inserted, with an id that was not drawn before. -/
theorem sessions_insert {s : Sessions} {d e : Nat} (h : s.Sane d) {o : Opening}
    {rows : Table SessionRow} (inserted : s.rows.insert o.session = some rows)
    (fresh : d ≤ o.session.id) (drawn : o.session.id < e) :
    Sessions.Sane { s with rows, opened := s.opened ++ [o] } e := by
  have mem := @Table.mem_of_rows_append _ _ _ _ _ (Table.insert_rows inserted).1
  refine ⟨fun r hr => ?_, fun o' ho' => ?_, ?_, fun x hx => ?_, h.spentOnce⟩
  · rcases mem.1 hr with old | rfl
    · obtain ⟨⟨o', ho', same⟩, unspent⟩ := h.rows r old
      exact ⟨⟨o', List.mem_append_left _ ho', same⟩, unspent⟩
    · refine ⟨⟨o, List.mem_append_right _ (List.mem_singleton_self _), .rfl _⟩,
        fun _ x hx same => ?_⟩
      obtain ⟨-, o', ho', hid, -⟩ := h.spent x hx
      have := h.opened o' ho'
      omega
  · rcases List.mem_append.1 ho' with old | new
    · have := h.opened o' old
      omega
    · rw [List.mem_singleton.1 new]
      exact drawn
  · refine List.pairwise_append.2 ⟨h.openedOnce, List.pairwise_singleton _ _, ?_⟩
    intro o' ho' o'' ho''
    rw [List.mem_singleton.1 ho'']
    have := h.opened o' ho'
    omega
  · obtain ⟨moment, o', ho', rest⟩ := h.spent x hx
    exact ⟨moment, o', List.mem_append_left _ ho', rest⟩

/-- What a session is opened for in a verification. -/
def Codes.For (c : Codes) (id : Nat) (uid : Text) : Prop :=
  ∃ r ∈ c.issued, r.id = id ∧ r.purpose = .stepUp ∧ r.subjectUid = some uid

/-- A session is opened for a code that is held: it is used up, whether or not it is consumed
with this statement. -/
theorem keeps_openSession (hw : w.Sane env) {id : Nat} {k : ClaimId} (row : Nat → SessionRow)
    (now : Timestamp) (hid : ∀ n, (row n).id = n) (held : w.Holding i k id)
    (subject : w.codes.For id (row w.drawn).uid) :
    w.Keeps env i (w.openSession i id k row now).2 := by
  unfold World.openSession World.insertSession
  dsimp only
  cases inserted : w.sessions.rows.insert (row w.drawn) with
  | none => exact keeps_drawn hw 1
  | some rows =>
    rw [Option.map_some]
    dsimp only
    generalize hv : ({ w with
      drawn := w.drawn + 1
      sessions := { w.sessions with
        rows, opened := w.sessions.opened ++
          [⟨row w.drawn, .code id, i, now, w.clock⟩] } } : World) = v
    have codes : v.codes = w.codes := by rw [← hv]
    have sessions := sessions_insert hw.sessions (e := w.drawn + 1)
      (o := ⟨row w.drawn, .code id, i, now, w.clock⟩) inserted
      (Nat.le_of_eq (hid w.drawn).symm) (by rw [hid]; exact Nat.lt_succ_self _)
    have before : v.codes.Sane env w.drawn := by
      rw [codes]
      exact hw.codes
    obtain ⟨sane, step⟩ := codes_consumeCode (i := i) before id k now
    have holder : v.codes.holder id = some k := by
      rw [codes]
      exact held.holder
    have used := consumed_consumeCode (i := i) before now holder
    rw [consumeCode_frame]
    generalize (v.consumeCode i id k now).2.codes = c at sane step used
    rw [codes] at step
    subst hv
    have grows : w.Grows { w with
        drawn := w.drawn + 1
        codes := c
        sessions := { w.sessions with
          rows, opened := w.sessions.opened ++ [⟨row w.drawn, .code id, i, now, w.clock⟩] } } :=
      ⟨Nat.le_refl _, step.issued, step.guesses, step.claims, step.proofs, List.Subset.refl _,
        List.subset_append_left _ _, List.Subset.refl _⟩
    refine ⟨⟨sane.mono (Nat.le_succ _), hw.links.mono (Nat.le_succ _), sessions, ?_⟩, grows,
      fun j hj => ⟨step.reserved, step.claims, fun g hg own => ?_, fun id' k' held' own => ?_⟩⟩
    · refine ⟨?_, fun o ho => ?_, fun o ho r hr source open_ => ?_, fun o ho r hr source => ?_⟩
      · refine List.pairwise_append.2 ⟨hw.linked.sources, List.pairwise_singleton _ _, ?_⟩
        intro o ho o' ho'
        rw [List.mem_singleton.1 ho']
        exact held.unopened o ho
      · rcases List.mem_append.1 ho with old | new
        · exact (hw.linked.earned o old).later grows
        · rw [List.mem_singleton.1 new]
          obtain ⟨n, hn, -, thread, code⟩ := held.owned
          obtain ⟨-, -, r, hr, same, timely, guessed⟩ := hw.codes.claims n hn
          obtain ⟨r', hr', same', purpose, subject⟩ := subject
          obtain rfl := hw.codes.issued_unique hr hr' (same.trans (code.trans same'.symm))
          exact ⟨r, step.issued hr, same', purpose, subject, guessed.later step.guesses, n,
            step.claims hn, code, thread, timely⟩
      · rcases List.mem_append.1 ho with old | new
        · rcases step.opens r hr open_ with ⟨r₀, hr₀, same, open₀⟩ | fresh
          · exact hw.linked.codes o old r₀ hr₀ (by rw [same]; exact source) open₀
          · have := hw.opened_code old source
            omega
        · rw [List.mem_singleton.1 new] at source
          exact used r hr (Source.code.inj source).symm open_
      · rcases List.mem_append.1 ho with old | new
        · exact hw.linked.links o old r hr source
        · rw [List.mem_singleton.1 new] at source
          cases source
    · rcases step.others g hg with old | ⟨a, ha, ticket, thread⟩
      · exact old
      · obtain ⟨a', ha', ticket', thread'⟩ := own
        have same := hw.codes.reserver ha ha' (ticket.trans ticket'.symm)
        rw [← same, thread] at thread'
        exact absurd thread'.symm hj
    · rcases step.holder id' k' held' with same | mine
      · refine ⟨same, fun o ho source => ?_⟩
        rcases List.mem_append.1 ho with old | new
        · exact old
        · -- the code is held by this thread
          rw [List.mem_singleton.1 new] at source
          obtain rfl := Source.code.inj source
          obtain rfl := Option.some.inj (held.holder.symm.trans held')
          exact absurd (hw.codes.owner own held.owns) hj
      · exact absurd (hw.codes.owner own mine) hj

/-- A statement about the sessions that are there. -/
theorem World.Keeps.of_sessions (hw : w.Sane env) {s : Sessions} (sane : s.Sane w.drawn)
    (opened : s.opened = w.sessions.opened) (spent : w.sessions.spent ⊆ s.spent) :
    w.Keeps env i { w with sessions := s } := by
  have grows : w.Grows { w with sessions := s } := by
    refine ⟨Nat.le_refl _, List.Subset.refl _, List.Subset.refl _, List.Subset.refl _,
      List.Subset.refl _, List.Subset.refl _, ?_, spent⟩
    show w.sessions.opened ⊆ s.opened
    rw [opened]
    exact List.Subset.refl _
  refine ⟨⟨hw.codes, hw.links, sane, ?_⟩, grows, fun j _ => ⟨List.Subset.refl _,
    List.Subset.refl _, fun _ hg _ => hg, fun _ _ held _ => ⟨held, fun o ho _ => ?_⟩⟩⟩
  · refine ⟨?_, fun o ho => ?_, fun o ho => ?_, fun o ho => ?_⟩
    · show s.opened.Pairwise _
      rw [opened]
      exact hw.linked.sources
    · have ho : o ∈ s.opened := ho
      rw [opened] at ho
      exact (hw.linked.earned o ho).later grows
    · have ho : o ∈ s.opened := ho
      rw [opened] at ho
      exact hw.linked.codes o ho
    · have ho : o ∈ s.opened := ho
      rw [opened] at ho
      exact hw.linked.links o ho
  · have ho : o ∈ s.opened := ho
    rwa [opened] at ho

theorem SessionRow.clash_of_id {r r' : SessionRow} (same : r.id = r'.id) :
    Row.clash r r' = true := by
  show (r.id == r'.id || r.tokenHash == r'.tokenHash) = true
  rw [beq_iff_eq.2 same, Bool.true_or]

/-- Sessions are taken away. -/
theorem keeps_deleteSessions (hw : w.Sane env) (p : SessionRow → Bool) :
    w.Keeps env i { w with sessions := { w.sessions with rows := w.sessions.rows.delete p } } := by
  have h := hw.sessions
  refine .of_sessions hw ⟨fun r hr => ?_, h.opened, h.openedOnce, h.spent, h.spentOnce⟩ rfl
    (List.Subset.refl _)
  exact h.rows r (Table.mem_delete.1 hr).1

/-- A session is spent by the user for whom it was opened, before it expires. -/
theorem keeps_spend (hw : w.Sane env) (uid tokenHash : Text) {now : Timestamp}
    (past : now ≤ w.clock) : w.Keeps env i (w.spend i uid tokenHash now).2 := by
  have h := hw.sessions
  have found {r : SessionRow} (hr : r ∈ w.sessions.rows.filter (World.unspent uid tokenHash now)) :
      r ∈ w.sessions.rows ∧ r.uid = uid ∧ r.tokenHash = tokenHash ∧ r.consumedAt = none ∧
        now < r.expiresAt := by
    obtain ⟨mem, unspent⟩ := List.mem_filter.1 hr
    simp only [World.unspent, Bool.and_eq_true, beq_iff_eq, decide_eq_true_eq,
      Option.isNone_iff_eq_none] at unspent
    exact ⟨mem, unspent.1.1.1, unspent.1.1.2, unspent.1.2, unspent.2⟩
  refine .of_sessions hw ⟨fun r hr => ?_, h.opened, h.openedOnce, fun x hx => ?_, ?_⟩ rfl
    (List.subset_append_left _ _)
  · obtain ⟨r₀, hr₀, rfl⟩ := of_modify (World.keepsKeys_spentSession now) hr
    obtain ⟨⟨o, ho, same⟩, unspent⟩ := h.rows r₀ hr₀
    split
    · have closed {P : Prop} (free : (World.spentSession now r₀).consumedAt = none) : P := by
        cases free
      exact ⟨⟨o, ho, same.id, same.uid, same.tokenHash, same.expiresAt⟩, closed⟩
    · rename_i other
      refine ⟨⟨o, ho, same⟩, fun free x hx same' => ?_⟩
      rcases List.mem_append.1 hx with old | new
      · exact unspent free x old same'
      · obtain ⟨r, hr', rfl⟩ := List.mem_map.1 new
        obtain rfl := Table.eq_of_clash (found hr').1 hr₀ (SessionRow.clash_of_id same')
        exact other (List.mem_filter.1 hr').2
  · rcases List.mem_append.1 hx with old | new
    · exact h.spent x old
    · obtain ⟨r, hr, rfl⟩ := List.mem_map.1 new
      obtain ⟨mem, rfl, rfl, -, timely⟩ := found hr
      obtain ⟨⟨o, ho, same⟩, -⟩ := h.rows r mem
      exact ⟨past, o, ho, same.id, same.uid, same.tokenHash, by rw [same.expiresAt]; exact timely⟩
  · refine List.pairwise_append.2 ⟨h.spentOnce, List.pairwise_map.2 ?_, fun x hx x' hx' same => ?_⟩
    · refine (w.sessions.rows.distinct.filter _).imp fun {r r'} apart same => ?_
      rw [SessionRow.clash_of_id same] at apart
      cases apart
    · obtain ⟨r, hr, rfl⟩ := List.mem_map.1 hx'
      obtain ⟨mem, -, -, free, -⟩ := found hr
      exact (h.rows r mem).2 free x hx same

theorem spent_spend {uid tokenHash : Text} {now : Timestamp}
    (done : (w.spend i uid tokenHash now).1 = true) :
    ∃ x ∈ (w.spend i uid tokenHash now).2.sessions.spent, x.thread = i ∧ x.uid = uid ∧
      x.tokenHash = tokenHash := by
  obtain ⟨r, hr, unspent⟩ := changed (of_decide_eq_true done)
  refine ⟨⟨r.id, uid, tokenHash, i, now, w.clock⟩, List.mem_append_right _ ?_, rfl, rfl, rfl⟩
  exact List.mem_map.2 ⟨r, List.mem_filter.2 ⟨hr, unspent⟩, rfl⟩

/-- A statement about the links that are there. -/
theorem keeps_linkRows (hw : w.Sane env) {rows : Table LinkRow} {d : Nat} (le : w.drawn ≤ d)
    (old : ∀ r ∈ rows, ∃ r₀ ∈ w.links.rows, r₀.Same r ∧
      (r.consumedAt = none → r₀.consumedAt = none) ∧
      ∀ n, r.consumptionId = some n → r₀.consumptionId = some n ∨ n < d) :
    w.Keeps env i { w with drawn := d, links := { w.links with rows } } := by
  have grows : w.Grows { w with drawn := d, links := { w.links with rows } } :=
    ⟨Nat.le_refl _, List.Subset.refl _, List.Subset.refl _, List.Subset.refl _,
      List.Subset.refl _, List.Subset.refl _, List.Subset.refl _, List.Subset.refl _⟩
  refine ⟨⟨hw.codes.mono le, ⟨fun r hr => ?_, fun r hr n hn => ?_, fun r hr => ?_⟩,
    hw.sessions.mono le, hw.linked.sources, fun o ho => (hw.linked.earned o ho).later grows,
    hw.linked.codes, fun o ho r hr source open_ => ?_⟩, grows, fun j _ => ⟨List.Subset.refl _,
      List.Subset.refl _, fun _ hg _ => hg, fun _ _ held _ => ⟨held, fun _ ho _ => ho⟩⟩⟩
  · obtain ⟨r₀, hr₀, same, -⟩ := old r hr
    obtain ⟨r₁, hr₁, same₁⟩ := hw.links.rows r₀ hr₀
    exact ⟨r₁, hr₁, same₁.id.trans same.id, same₁.uid.trans same.uid,
      same₁.action.trans same.action, same₁.tokenHash.trans same.tokenHash,
      same₁.expiresAt.trans same.expiresAt⟩
  · obtain ⟨r₀, hr₀, -, -, consumption⟩ := old r hr
    rcases consumption n hn with same | new
    · exact Nat.lt_of_lt_of_le (hw.links.consumption r₀ hr₀ n same) le
    · exact new
  · exact Nat.lt_of_lt_of_le (hw.links.issued r hr) le
  · obtain ⟨r₀, hr₀, same, open₀, -⟩ := old r hr
    exact hw.linked.links o ho r₀ hr₀ (by rw [same.id]; exact source) (open₀ open_)

theorem keeps_deleteLinks (hw : w.Sane env) (p : LinkRow → Bool) :
    w.Keeps env i { w with links := { w.links with rows := w.links.rows.delete p } } :=
  keeps_linkRows hw (Nat.le_refl _) fun r hr =>
    ⟨r, (Table.mem_delete.1 hr).1, .rfl r, fun free => free, fun _ hn => .inl hn⟩

theorem keeps_retireLinks (hw : w.Sane env) (row : LinkRow) :
    w.Keeps env i (w.retireLinks env row) := by
  refine keeps_linkRows hw (Nat.le_refl _) fun r hr => ?_
  obtain ⟨r₀, hr₀, rfl⟩ := of_modify (World.keepsKeys_consumedLink _) hr
  refine ⟨r₀, hr₀, ?_⟩
  split
  · have closed {P : Prop} (free : (World.consumedLink row.createdAt r₀).consumedAt = none) :
        P := by cases free
    exact ⟨⟨rfl, rfl, rfl, rfl, rfl⟩, closed, fun _ hn => .inl hn⟩
  · exact ⟨.rfl r₀, fun free => free, fun _ hn => .inl hn⟩

theorem keeps_insertLink (hw : w.Sane env) {row : Nat → LinkRow} (hid : ∀ n, (row n).id = n)
    (unconsumed : ∀ n, (row n).consumptionId = none) : w.Keeps env i (w.insertLink row).2 := by
  unfold World.insertLink
  split
  · exact keeps_drawn hw 1
  rename_i rows inserted
  have mem := @Table.mem_of_rows_append _ _ _ _ _ (Table.insert_rows inserted).1
  have le : w.drawn ≤ w.drawn + 1 := Nat.le_succ _
  have more : w.links.issued ⊆ w.links.issued ++ [row w.drawn] := List.subset_append_left _ _
  have grows : w.Grows { w with
      drawn := w.drawn + 1
      links := { rows, issued := w.links.issued ++ [row w.drawn] } } :=
    ⟨Nat.le_refl _, List.Subset.refl _, List.Subset.refl _, List.Subset.refl _,
      List.Subset.refl _, more, List.Subset.refl _, List.Subset.refl _⟩
  refine ⟨⟨hw.codes.mono le, ⟨fun r hr => ?_, fun r hr n hn => ?_, fun r hr => ?_⟩,
    hw.sessions.mono le, hw.linked.sources, fun o ho => (hw.linked.earned o ho).later grows,
    hw.linked.codes, fun o ho r hr source => ?_⟩, grows, fun j _ => ⟨List.Subset.refl _,
      List.Subset.refl _, fun _ hg _ => hg, fun _ _ held _ => ⟨held, fun _ ho _ => ho⟩⟩⟩
  · rcases mem.1 hr with old | rfl
    · obtain ⟨r₀, hr₀, same⟩ := hw.links.rows r old
      exact ⟨r₀, more hr₀, same⟩
    · exact ⟨_, List.mem_append_right _ (List.mem_singleton_self _), .rfl _⟩
  · rcases mem.1 hr with old | rfl
    · exact Nat.lt_of_lt_of_le (hw.links.consumption r old n hn) le
    · rw [unconsumed] at hn
      cases hn
  · rcases List.mem_append.1 hr with old | new
    · exact Nat.lt_of_lt_of_le (hw.links.issued r old) le
    · rw [List.mem_singleton.1 new, hid]
      exact Nat.lt_succ_self _
  · rcases mem.1 hr with old | rfl
    · exact hw.linked.links o ho r old source
    · have := hw.opened_link ho source
      rw [hid] at this
      exact absurd this (Nat.lt_irrefl _)

/-- The link that an exchange has consumed. -/
theorem exchanged_row (hw : w.Sane env) {id : Nat} {uid tokenHash : Text} {now : Timestamp}
    {rows : Table LinkRow}
    (updated : w.links.rows.update (World.exchangeable id uid tokenHash now)
      (World.exchangedLink now (w.drawn + 1)) = some rows)
    (any : rows.any (fun r => r.id == id && r.consumptionId == some (w.drawn + 1) &&
      r.consumedAt == some now) = true) :
    ∃ r ∈ w.links.rows, r.id = id ∧ r.uid = uid ∧ r.tokenHash = tokenHash ∧
      r.consumedAt = none ∧ now < r.expiresAt := by
  obtain ⟨r, hr, found⟩ := Table.any_eq_true.1 any
  simp only [Bool.and_eq_true, beq_iff_eq] at found
  obtain ⟨r₀, hr₀, rfl⟩ := (Table.mem_of_rewritten (Table.update_rows updated)).1 hr
  split at found
  · rename_i able
    simp only [World.exchangeable, Bool.and_eq_true, beq_iff_eq, decide_eq_true_eq,
      Option.isNone_iff_eq_none] at able
    exact ⟨r₀, hr₀, able.1.1.1.1, able.1.1.1.2, able.1.1.2, able.1.2, able.2⟩
  · -- the id of the consumption is new
    have := hw.links.consumption r₀ hr₀ _ found.1.2
    omega

theorem keeps_exchange (hw : w.Sane env) (id : Nat) {uid : Text} (tokenHash : Text)
    (row : Nat → SessionRow) {now : Timestamp} (past : now ≤ w.clock)
    (hid : ∀ n, (row n).id = n) (user : (row w.drawn).uid = uid) :
    w.Keeps env i (w.exchange i id uid tokenHash row now).2 := by
  unfold World.exchange World.insertSession
  dsimp only
  cases updated : w.links.rows.update (World.exchangeable id uid tokenHash now)
      (World.exchangedLink now (w.drawn + 1)) with
  | none => exact keeps_drawn hw 2
  | some rows =>
    dsimp only
    have le : w.drawn ≤ w.drawn + 2 := Nat.le_add_right _ _
    have linked : w.Keeps env i { w with
        drawn := w.drawn + 2, links := { w.links with rows } } := by
      refine keeps_linkRows hw le fun r hr => ?_
      obtain ⟨r₀, hr₀, rfl⟩ := (Table.mem_of_rewritten (Table.update_rows updated)).1 hr
      refine ⟨r₀, hr₀, ?_⟩
      split
      · have closed {P : Prop}
            (free : (World.exchangedLink now (w.drawn + 1) r₀).consumedAt = none) : P := by
          cases free
        refine ⟨⟨rfl, rfl, rfl, rfl, rfl⟩, closed, fun n hn => .inr ?_⟩
        obtain rfl := Option.some.inj hn
        exact Nat.lt_succ_self _
      · exact ⟨.rfl r₀, fun free => free, fun _ hn => .inl hn⟩
    split
    swap
    · exact linked
    rename_i any
    obtain ⟨r₁, hr₁, rfl, rfl, rfl, open₁, timely⟩ := exchanged_row hw updated any
    cases inserted : w.sessions.rows.insert (row w.drawn) with
    | none => exact keeps_drawn hw 2
    | some sessions =>
      rw [Option.map_some]
      dsimp only
      have sane := linked.sane
      have grows : w.Grows { w with
          drawn := w.drawn + 2
          links := { w.links with rows }
          sessions := { w.sessions with
            rows := sessions
            opened := w.sessions.opened ++
              [⟨row w.drawn, .link r₁.id, i, now, w.clock⟩] } } :=
        ⟨Nat.le_refl _, List.Subset.refl _, List.Subset.refl _, List.Subset.refl _,
          List.Subset.refl _, List.Subset.refl _, List.subset_append_left _ _,
          List.Subset.refl _⟩
      refine ⟨⟨sane.codes, sane.links, sessions_insert hw.sessions
        (o := ⟨row w.drawn, .link r₁.id, i, now, w.clock⟩) inserted
        (Nat.le_of_eq (hid _).symm) ?_, ?_, fun o ho => ?_, fun o ho r hr source => ?_,
        fun o ho r hr source => ?_⟩, grows, fun j _ => ⟨List.Subset.refl _, List.Subset.refl _,
          fun _ hg _ => hg, fun _ _ held _ => ⟨held, fun o ho source => ?_⟩⟩⟩
      · rw [hid]
        exact Nat.lt_add_of_pos_right (by decide)
      · refine List.pairwise_append.2 ⟨hw.linked.sources, List.pairwise_singleton _ _, ?_⟩
        intro o ho o' ho' same
        rw [List.mem_singleton.1 ho'] at same
        exact hw.linked.links o ho r₁ hr₁ same open₁
      · rcases List.mem_append.1 ho with old | new
        · exact (hw.linked.earned o old).later grows
        · rw [List.mem_singleton.1 new]
          obtain ⟨r₀, hr₀, same⟩ := hw.links.rows r₁ hr₁
          exact ⟨r₀, hr₀, same.id, same.uid.trans user.symm,
            by rw [same.expiresAt]; exact timely, past⟩
      · rcases List.mem_append.1 ho with old | new
        · exact hw.linked.codes o old r hr source
        · rw [List.mem_singleton.1 new] at source
          cases source
      · rcases List.mem_append.1 ho with old | new
        · exact sane.linked.links o old r hr source
        · rw [List.mem_singleton.1 new] at source
          have same := Source.link.inj source
          obtain ⟨r₂, hr₂, rfl⟩ := (Table.mem_of_rewritten (Table.update_rows updated)).1 hr
          split at same
          · rename_i able
            rw [if_pos able]
            exact fun free => by cases free
          · rename_i other
            rw [if_neg other]
            have key : Row.clash r₁ r₂ = true := by
              simp [Row.clash, same]
            obtain rfl := Table.eq_of_clash hr₁ hr₂ key
            refine absurd ?_ other
            simp [World.exchangeable, open₁, timely]
      · rcases List.mem_append.1 ho with old | new
        · exact old
        · rw [List.mem_singleton.1 new] at source
          cases source

/-- Rows that have expired are taken away. -/
theorem keeps_deleteExpired (hw : w.Sane env) (cutoff : Timestamp) :
    w.Keeps env i (w.deleteExpired cutoff) := by
  have codes := keeps_codeRows (i := i) hw
    (from_delete (p := fun r => decide (r.expiresAt < cutoff)))
  have sessions := keeps_deleteSessions (i := i) codes.sane fun r => decide (r.expiresAt < cutoff)
  exact (codes.trans sessions).trans (keeps_deleteLinks sessions.sane _)

end ParmeliaLinks.Auth.StepUp
