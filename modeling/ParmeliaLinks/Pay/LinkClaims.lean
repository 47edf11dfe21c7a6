/-
ParmeliaLinks/Pay/LinkClaims.lean

At most one operation of a payment link is ever out.  While an operation that has
been handed to a transport under a claim of the link can still be mined, or has been
and is not known to have failed, the link is claimed by no other operation and open
to none.

The claim on a link runs out after a while, unless it has been marked when the
submission returns, and it is given up when the reconciler has not seen the operation
for long enough.  Neither looks at what a transport may still do.  So this holds of
the runs in which time does not run past the claim of an operation that is out
(`Surroundings.Spares`), a transport takes an operation only under a claim that
stands, and no claim of an operation that is out is given up (`PayOp.Guards`).
-/
import ParmeliaLinks.Pay.Lifecycle

namespace ParmeliaLinks.Pay

variable {env : Env} {i : Nat} {o : PayOp} {x : Answer} {w w' : World} {q : RequestId} {h : Hash}

/-! ### What is required, and when it holds -/

/-- A transport has the operation; it can still be mined, or has been and is not known
to have failed. -/
def World.Live (w : World) (h : Hash) : Prop :=
  w.accepted h = true ∧ (w.fate h = .mineable ∨ w.fate h ≠ .dropped ∧ w.refuted h = false)

instance (w : World) (h : Hash) : Decidable (w.Live h) := inferInstanceAs (Decidable (_ ∧ _))

/-- No other operation holds the link of one that is out, or can claim it; at most one
operation of a link moves funds; and a paid link is open to none. -/
structure World.Safe (w : World) : Prop where
  exclusive : ∀ p ∈ w.handed, w.Live p.2 → ∀ l ∈ w.links, l.id = p.1 → ∀ h, h ≠ p.2 →
    l.paymentClaim ≠ some h ∧ ∀ t ≤ w.clock, w.claimable p.1 h t l = false
  once : ∀ p ∈ w.handed, ∀ p' ∈ w.handed, p.1 = p'.1 →
    w.fate p.2 = .mined true → w.fate p'.2 = .mined true → p.2 = p'.2
  paid : ∀ l ∈ w.links, l.status = .paid → ∀ id h t, w.claimable id h t l = false

/-- Every state of the run is safe, and a paid link stays paid and unclaimed. -/
structure OneBroadcast (env : Env) (clock : Timestamp) (ls : PaySchedule) : Prop where
  safe : ∀ pre post, ls = pre ++ post → ((paySystem env).runFrom (start clock) pre).world.Safe
  paid : ∀ pre post, ls = pre ++ post →
    ∀ l ∈ ((paySystem env).runFrom (start clock) pre).world.links, l.status = .paid →
      ∃ l' ∈ ((paySystem env).runFrom (start clock) ls).world.links,
        l'.id = l.id ∧ l'.status = .paid ∧ l'.paymentClaim = none

/-- The claim is marked, or has not run out. -/
def PaymentLink.stands (l : PaymentLink) (now : Timestamp) : Bool :=
  l.paymentClaimTxHash.isSome || l.paymentClaimExpiresAt.any (now < ·)

/-- The operation has the link, and its claim stands. -/
def World.claimStands (w : World) (id : LinkId) (h : Hash) : Bool :=
  w.links.any fun l =>
    l.id == id && l.status == .pending && l.paymentClaim == some h && l.stands w.clock

/-- A transport takes an operation only under a claim that stands, and no claim of an
operation that is out is given up. -/
def PayOp.Guards (o : PayOp) (x : Answer) (w : World) : Prop :=
  match o with
  | .ask q h _ _ =>
    x.accepted = true → (w.history q).link.all (w.claimStands · h) = true
  | .write q h =>
    x.accepted = true → (w.history q).link.all (w.claimStands · h) = true
  | .releaseLink q _ h .unsent => ∀ q' < w.begun, (w.history q').operation = some h → q' = q
  | .releaseLink _ _ h .unlanded => ¬ w.Live h
  -- a receipt that says that the operation has failed is true
  | .receipt _ h _ =>
    x.error.isNone = true → x.receipt.any (fun r => !r.success) = true → w.fate h = .mined false
  | _ => True

instance (o : PayOp) (x : Answer) (w : World) : Decidable (o.Guards x w) :=
  match o with
  | .ask q h _ _ => inferInstanceAs (Decidable (x.accepted = true →
      (w.history q).link.all (w.claimStands · h) = true))
  | .write q h => inferInstanceAs (Decidable (x.accepted = true →
      (w.history q).link.all (w.claimStands · h) = true))
  | .releaseLink q _ h .unsent => inferInstanceAs (Decidable (∀ q' < w.begun,
      (w.history q').operation = some h → q' = q))
  | .releaseLink _ _ h .unlanded => inferInstanceAs (Decidable (¬ w.Live h))
  | .receipt _ h _ => inferInstanceAs (Decidable (x.error.isNone = true →
      x.receipt.any (fun r => !r.success) = true → w.fate h = .mined false))
  | .releaseLink _ _ _ .failed | .begin | .now | .deleteExpired _ | .upsertPayment _
  | .selectPayment .. | .deletePayment _ | .claimPending .. | .releasePending ..
  | .setSubmitted .. | .setStatus .. | .sweepTerminal .. | .selectLink _ | .selectIntent _
  | .claimLink .. | .markBroadcast .. | .settleLink _ | .enqueueMissing _ | .listDue ..
  | .claimRequest .. | .rescheduleRequest .. | .completeRequest .. | .selectCanonical _
  | .selectCovered _ | .auxiliary _ | .buildUserOperation | .wrapSignature
  | .endpointSupports _ | .simulate _ | .acquireSigner | .signerBlocked | .releaseSigner
  | .surface .. | .safeBlock | .block _ => isTrue trivial

/-- Time does not run past the claim of an operation that is out, and the journal's
failures are true. -/
def Surroundings.Spares (e : Surroundings) (w : World) : Prop :=
  match e with
  | .tick milliseconds => ∀ p ∈ w.handed, w.Live p.2 → ∀ l ∈ w.links, l.id = p.1 →
    l.paymentClaim = some p.2 → l.stands w.clock = true → l.stands (w.clock + milliseconds) = true
  | .journal h (some c) => c.success = false → w.fate h = .mined false
  | _ => True

instance (e : Surroundings) (w : World) : Decidable (e.Spares w) := by
  unfold Surroundings.Spares
  split <;> infer_instance

/-! ### What an operation makes of a link -/

/-- What the operation makes of a link. -/
def PayOp.Alters (o : PayOp) (w : World) (l l' : PaymentLink) : Prop :=
  match o with
  | .claimLink _ id owner expiresAt t =>
    w.claimable id owner t l = true ∧
      l' = { l with
        paymentClaim := some owner, paymentClaimExpiresAt := some expiresAt
        paymentClaimTxHash := none }
  | .markBroadcast id owner txHash =>
    (l.id = id ∧ l.status = .pending ∧ l.paymentClaim = some owner) ∧
      l' = { l with paymentClaimTxHash := some txHash, paymentClaimExpiresAt := none }
  | .releaseLink _ id owner release =>
    World.releasable id owner release.allowBroadcast l = true ∧
      l' = { l with
        paymentClaim := none, paymentClaimExpiresAt := none, paymentClaimTxHash := none }
  | .settleLink s => World.settleable s l = true ∧ l' = World.settledLink s l
  | _ => False

/-- Every link stays, or is altered as the operation does. -/
theorem links_step (i : Nat) (o : PayOp) (x : Answer) (w : World) :
    Table.Evolves (fun l l' => l' = l ∨ o.Alters w l l') (fun _ => False) w.links
      (o.exec i x w).2.links := by
  have delivered {α : Type} {o : PayOp} {r : α × World}
      (step : Table.Evolves (fun l l' => l' = l ∨ o.Alters w l l') (fun _ => False) w.links
        r.2.links) :
      Table.Evolves (fun l l' => l' = l ∨ o.Alters w l l') (fun _ => False) w.links
        (PayOp.deliver x.outcome w r).2.links := by
    rcases deliver_world x.outcome w r with same | same <;> rw [same]
    · exact .rfl (fun _ => .inl rfl) _
    · exact step
  cases o with
  | claimLink q id owner expiresAt t =>
    refine delivered (r := w.claimLink q id owner expiresAt t) ?_
    unfold World.claimLink
    split
    · exact Table.evolves_of_rewritten rfl (fun _ _ _ => .inl rfl)
        fun l _ fits => .inr ⟨fits, rfl⟩
    · exact .rfl (fun _ => .inl rfl) _
  | markBroadcast id owner txHash =>
    refine delivered (r := ((), w.markBroadcast id owner txHash)) ?_
    refine Table.evolves_of_rewritten rfl (fun _ _ _ => .inl rfl) fun l _ fits => .inr ⟨?_, rfl⟩
    simpa [and_assoc] using fits
  | releaseLink q id owner release =>
    refine delivered (r := ((), w.releaseLink id owner release.allowBroadcast)) ?_
    exact Table.evolves_of_rewritten rfl (fun _ _ _ => .inl rfl) fun l _ fits => .inr ⟨fits, rfl⟩
  | settleLink s =>
    refine delivered (r := w.settleLink s) ?_
    exact Table.evolves_of_rewritten rfl (fun _ _ _ => .inl rfl) fun l _ fits => .inr ⟨fits, rfl⟩
  | _ =>
    rw [(exec_leaves i _ x w).links rfl]
    exact .rfl (fun _ => .inl rfl) _

theorem claimable_iff {id : LinkId} {owner : Hash} {t : Timestamp} {l : PaymentLink} :
    w.claimable id owner t l = true ↔
      l.id = id ∧ l.status = .pending ∧
        (l.paymentClaim = none ∨ l.paymentClaim = some owner ∨
          l.paymentClaimTxHash = none ∧ l.paymentClaimExpiresAt.any (· ≤ t) = true) ∧
        w.intents.any (World.intentBlocks id t) = false := by
  simp [World.claimable, and_assoc, or_assoc]

/-! ### Paid links -/

/-- A link that is paid stays so. -/
def PaymentLink.PaysOn (l l' : PaymentLink) : Prop :=
  l'.id = l.id ∧ (l.status = .paid → l'.status = .paid)

theorem alters_paysOn {l l' : PaymentLink} (alters : o.Alters w l l') : l.PaysOn l' := by
  cases o with
  | claimLink q id owner expiresAt t =>
    obtain ⟨-, rfl⟩ := alters
    exact ⟨rfl, fun paid => paid⟩
  | markBroadcast id owner txHash =>
    obtain ⟨-, rfl⟩ := alters
    exact ⟨rfl, fun paid => paid⟩
  | releaseLink q id owner release =>
    obtain ⟨-, rfl⟩ := alters
    exact ⟨rfl, fun paid => paid⟩
  | settleLink s =>
    obtain ⟨-, rfl⟩ := alters
    exact ⟨rfl, fun _ => rfl⟩
  | _ => cases alters

theorem paysOn_exec (i : Nat) (o : PayOp) (x : Answer) (w : World) :
    ∀ l ∈ w.links, ∃ l' ∈ (o.exec i x w).2.links, l.PaysOn l' := by
  intro l hl
  obtain ⟨l', hl', same | alters⟩ := (links_step i o x w).forward l hl
  · exact ⟨l', hl', by rw [same], fun paid => by rw [same, paid]⟩
  · exact ⟨l', hl', alters_paysOn alters⟩

/-- The surroundings only add links. -/
theorem move_links (e : Surroundings) (w : World) :
    (e.move w).links = w.links ∨ ∃ l, (e.move w).links = w.links.insertOrIgnore (freshLink l) := by
  have decided (h : Hash) (fate : Fate) : (w.decideFate h fate).links = w.links := by
    unfold World.decideFate
    split <;> rfl
  cases e with
  | createLink l => exact .inr ⟨l, rfl⟩
  | mine h success =>
    simp only [Surroundings.move]
    split
    · exact .inl (decided h _)
    · exact .inl rfl
  | drop h => exact .inl (decided h _)
  | journal h c =>
    refine .inl ?_
    simp only [Surroundings.move, World.setCanonical]
    split
    · rfl
    · unfold World.witness World.onReceipt
      split <;> split <;> rfl
  | _ => exact .inl rfl

theorem paysOn_move (e : Surroundings) (w : World) :
    ∀ l ∈ w.links, ∃ l' ∈ (e.move w).links, l.PaysOn l' := by
  intro l hl
  refine ⟨l, ?_, rfl, id⟩
  rcases move_links e w with same | ⟨new, added⟩
  · rwa [same]
  · rw [added]
    exact Table.mem_insertOrIgnore_of_mem hl

theorem paysOn_runFrom (p : Pool PayOp PayOp.Reply World (Option Response)) (ls : PaySchedule) :
    ∀ l ∈ p.world.links, ∃ l' ∈ ((paySystem env).runFrom p ls).world.links, l.PaysOn l' := by
  have next : ∀ (p : Pool PayOp PayOp.Reply World (Option Response)) lab,
      ∀ l ∈ p.world.links, ∃ l' ∈ ((paySystem env).next p lab).world.links, l.PaysOn l' := by
    intro p lab l hl
    cases lab with
    | spawn c => exact ⟨l, hl, rfl, id⟩
    | env e => exact paysOn_move e p.world l hl
    | step i x =>
      simp only [System.next]
      split
      · exact paysOn_exec i _ x p.world l hl
      · exact ⟨l, hl, rfl, id⟩
  induction ls generalizing p with
  | nil => exact fun l hl => ⟨l, hl, rfl, id⟩
  | cons lab ls ih =>
    intro l hl
    obtain ⟨l₁, hl₁, go₁⟩ := next p lab l hl
    obtain ⟨l₂, hl₂, go₂⟩ := ih _ l₁ hl₁
    exact ⟨l₂, hl₂, go₂.1.trans go₁.1, fun paid => go₂.2 (go₁.2 paid)⟩

/-! ### The invariant -/

/-- The link is paid, or the operation has it and its claim stands. -/
def PaymentLink.Covers (l : PaymentLink) (now : Timestamp) (h : Hash) : Prop :=
  l.status = .paid ∨ l.paymentClaim = some h ∧ l.stands now = true

/-- Each operation that is out has its link, and is the only one; and what the server
takes for a failure is one. -/
structure World.Guarded (w : World) : Prop where
  handed : ∀ p ∈ w.handed, w.accepted p.2 = true
  covered : ∀ p ∈ w.handed, w.Live p.2 → ∃ l ∈ w.links, l.id = p.1 ∧ l.Covers w.clock p.2
  single : ∀ p ∈ w.handed, ∀ p' ∈ w.handed, p.1 = p'.1 → w.Live p.2 → w.Live p'.2 → p.2 = p'.2
  paid : ∀ l ∈ w.links, l.status = .paid → l.paymentClaim = none
  truthful : ∀ h, w.refuted h = true → w.fate h = .mined false

/-- There is one row of a link. -/
theorem link_unique {l l' : PaymentLink} (hl : l ∈ w.links) (hl' : l' ∈ w.links)
    (same : l.id = l'.id) : l = l' :=
  Table.eq_of_clash hl hl' (beq_iff_eq.2 same)

/-- A link that covers an operation is closed to the others. -/
theorem not_claimable_of_covers {l : PaymentLink} {id : LinkId} {t : Timestamp} {h' : Hash}
    (covers : l.Covers w.clock h) (other : h' ≠ h) (past : t ≤ w.clock) :
    w.claimable id h' t l = false := by
  rw [← Bool.not_eq_true, claimable_iff]
  rintro ⟨-, pending, free | mine | ⟨unmarked, expired⟩, -⟩
  all_goals
    rcases covers with paid | ⟨claim, stands⟩
    · rw [pending] at paid
      cases paid
  · rw [claim] at free
    cases free
  · rw [claim] at mine
    exact other (Option.some.inj mine).symm
  · -- a claim that is not marked has not run out
    cases expires : l.paymentClaimExpiresAt with
    | none =>
      rw [expires] at expired
      cases expired
    | some s =>
      simp only [PaymentLink.stands, unmarked, expires] at stands
      rw [expires] at expired
      simp only [Option.isSome_none, Bool.false_or, Option.any_some, decide_eq_true_eq]
        at stands expired
      exact Nat.lt_irrefl _ (Nat.lt_of_lt_of_le stands (Nat.le_trans expired past))

theorem World.Guarded.safe (hw : w.Guarded) : w.Safe where
  exclusive p hp live l hl hash h other := by
    obtain ⟨l', hl', hash', covers⟩ := hw.covered p hp live
    obtain rfl := link_unique hl hl' (hash.trans hash'.symm)
    refine ⟨fun claim => ?_, fun t past => not_claimable_of_covers covers other past⟩
    rcases covers with paid | ⟨mine, -⟩
    · rw [hw.paid l hl paid] at claim
      cases claim
    · rw [mine] at claim
      exact other (Option.some.inj claim).symm
  once p hp p' hp' same mined mined' := by
    have live {h : Hash} (accepted : w.accepted h = true) (mined : w.fate h = .mined true) :
        w.Live h := by
      refine ⟨accepted, .inr ⟨by rw [mined]; exact nofun, ?_⟩⟩
      rw [← Bool.not_eq_true]
      intro refuted
      rw [hw.truthful h refuted] at mined
      cases mined
    exact hw.single p hp p' hp' same (live (hw.handed p hp) mined) (live (hw.handed p' hp') mined')
  paid l hl paid id h t := by
    rw [← Bool.not_eq_true, claimable_iff]
    rintro ⟨-, pending, -⟩
    rw [paid] at pending
    cases pending

/-- What is out later was so before, if it had been handed over. -/
theorem World.Live.before (live : w'.Live h) (accepted : w.accepted h = true)
    (fate : w'.fate h = w.fate h ∨ w.fate h = .mineable)
    (refuted : w.refuted h = true → w'.refuted h = true) : w.Live h := by
  refine ⟨accepted, ?_⟩
  rcases fate with same | mineable
  · rcases live.2 with mineable | ⟨kept, open_⟩
    · exact .inl (same.symm.trans mineable)
    · refine .inr ⟨same ▸ kept, ?_⟩
      rw [← Bool.not_eq_true] at open_ ⊢
      exact fun closed => open_ (refuted closed)
  · exact .inl mineable

/-- Nothing is handed over, and each operation that is out keeps its link. -/
theorem World.Guarded.of_quiet (hw : w.Guarded) (handed : w'.handed = w.handed)
    (accepted : w'.accepted = w.accepted)
    (live : ∀ h, w.accepted h = true → w'.Live h → w.Live h)
    (covered : ∀ p ∈ w.handed, w.Live p.2 → ∀ l ∈ w.links, l.id = p.1 → l.Covers w.clock p.2 →
      w'.Live p.2 → ∃ l' ∈ w'.links, l'.id = p.1 ∧ l'.Covers w'.clock p.2)
    (paid : ∀ l ∈ w'.links, l.status = .paid → l.paymentClaim = none)
    (truthful : ∀ h, w'.refuted h = true → w'.fate h = .mined false) : w'.Guarded where
  handed p hp := by
    rw [accepted]
    rw [handed] at hp
    exact hw.handed p hp
  covered p hp out := by
    rw [handed] at hp
    have before := live p.2 (hw.handed p hp) out
    obtain ⟨l, hl, hash, covers⟩ := hw.covered p hp before
    exact covered p hp before l hl hash covers out
  single p hp p' hp' same out out' := by
    rw [handed] at hp hp'
    exact hw.single p hp p' hp' same (live p.2 (hw.handed p hp) out)
      (live p'.2 (hw.handed p' hp') out')
  paid := paid
  truthful := truthful

/-- An operation that is out does not lose its link to an operation of the code. -/
theorem covers_of_alters {l l' : PaymentLink} (hw : w.Guarded) (hc : w.Claimed)
    (guards : o.Guards x w) (expected : o.Expected x w) (live : w.Live h)
    (covers : l.Covers w.clock h) (alters : o.Alters w l l') : l'.Covers w.clock h := by
  -- a claim that is there is that of the operation
  have owned {owner : Hash} (pending : l.status = .pending)
      (claim : l.paymentClaim = some owner) : owner = h := by
    rcases covers with paid | ⟨mine, -⟩
    · rw [pending] at paid
      cases paid
    · exact Option.some.inj (claim.symm.trans mine)
  cases o with
  | claimLink q id owner expiresAt t =>
    obtain ⟨claimable, rfl⟩ := alters
    obtain ⟨held, unsent, past⟩ := expected
    by_cases same : owner = h
    · -- the request that holds the operation would have handed it over
      subst same
      obtain ⟨q', held', sent⟩ := hc.sent owner live.1
      rw [hc.holder q q' owner held held', sent] at unsent
      cases unsent
    · rw [not_claimable_of_covers covers same past] at claimable
      cases claimable
  | markBroadcast id owner txHash =>
    obtain ⟨⟨-, pending, claim⟩, rfl⟩ := alters
    exact .inr ⟨claim.trans (congrArg some (owned pending claim)), rfl⟩
  | releaseLink q id owner release =>
    obtain ⟨releasable, rfl⟩ := alters
    obtain ⟨pending, claim⟩ : l.status = .pending ∧ l.paymentClaim = some owner := by
      simp only [World.releasable, Bool.and_eq_true, beq_iff_eq] at releasable
      exact ⟨releasable.1.1.2, releasable.1.2⟩
    obtain rfl := owned pending claim
    cases release with
    | unsent =>
      have accepted := live.1
      rw [hc.not_accepted expected guards] at accepted
      cases accepted
    | failed =>
      have refuted : w.refuted owner = true := expected
      rcases live.2 with mineable | ⟨-, open_⟩
      · rw [hw.truthful owner refuted] at mineable
        cases mineable
      · rw [refuted] at open_
        cases open_
    | unlanded => exact absurd live guards
  | settleLink s =>
    obtain ⟨-, rfl⟩ := alters
    exact .inl rfl
  | _ => cases alters

/-- A link that an operation has altered is unclaimed once it is paid. -/
theorem unclaimed_of_alters {l l' : PaymentLink} (alters : o.Alters w l l')
    (paid : l'.status = .paid) : l'.paymentClaim = none := by
  cases o with
  | claimLink q id owner expiresAt t =>
    obtain ⟨claimable, rfl⟩ := alters
    have pending := (claimable_iff.1 claimable).2.1
    rw [show l.status = .paid from paid] at pending
    cases pending
  | markBroadcast id owner txHash =>
    obtain ⟨⟨-, pending, -⟩, rfl⟩ := alters
    rw [show l.status = .paid from paid] at pending
    cases pending
  | releaseLink q id owner release =>
    obtain ⟨-, rfl⟩ := alters
    rfl
  | settleLink s =>
    obtain ⟨-, rfl⟩ := alters
    rfl
  | _ => cases alters

theorem unclaimed_exec (hw : w.Guarded) :
    ∀ l ∈ (o.exec i x w).2.links, l.status = .paid → l.paymentClaim = none := by
  intro l' hl' paid
  rcases (links_step i o x w).backward l' hl' with ⟨l, hl, same | alters⟩ | new
  · rw [same] at paid ⊢
    exact hw.paid l hl paid
  · exact unclaimed_of_alters alters paid
  · exact new.elim

/-- An operation that hands nothing over and shows nothing. -/
theorem guarded_quiet (hw : w.Guarded) (hc : w.Claimed) (guards : o.Guards x w)
    (expected : o.Expected x w) (hands : o.hands = false) (shows : o.shows = false) :
    (o.exec i x w).2.Guarded := by
  have leaves := exec_leaves i o x w
  have refuted := leaves.refuted shows
  refine hw.of_quiet (leaves.accepted hands).2 (leaves.accepted hands).1
    (fun h accepted live => live.before accepted (.inl (by rw [leaves.fate])) fun r => by
      rwa [refuted])
    (fun p hp live l hl hash covers _ => ?_) (unclaimed_exec hw) fun h r => ?_
  · obtain ⟨l', hl', same | alters⟩ := (links_step i o x w).forward l hl
    · exact ⟨l', hl', by rw [same, hash], by rw [same, leaves.clock]; exact covers⟩
    · refine ⟨l', hl', (alters_paysOn alters).1.trans hash, ?_⟩
      rw [leaves.clock]
      exact covers_of_alters hw hc guards expected live covers alters
  · rw [refuted] at r
    rw [leaves.fate]
    exact hw.truthful h r

/-- Handing an operation over under a claim that stands. -/
theorem guarded_hand (hw : w.Guarded)
    (stands : x.accepted = true → (w.history q).link.all (w.claimStands · h) = true) :
    (PayOp.hand x w q h).Guarded := by
  unfold PayOp.hand
  split
  · rename_i accepted
    have stands := stands accepted
    -- what is handed over now, and what was before
    have handed : ∀ p ∈ (w.accept q h).handed, p ∈ w.handed ∨
        p.2 = h ∧ ∃ l ∈ w.links, l.id = p.1 ∧ l.status = .pending ∧ l.paymentClaim = some h ∧
          l.stands w.clock = true := by
      intro p hp
      cases link : (w.history q).link with
      | none =>
        simp only [World.accept, World.noting, link] at hp
        exact .inl hp
      | some id =>
        simp only [World.accept, World.noting, link, List.mem_cons] at hp
        rcases hp with rfl | hp
        · rw [link, Option.all_some] at stands
          obtain ⟨l, hl, fits⟩ := Table.any_eq_true.1 stands
          simp only [Bool.and_eq_true, beq_iff_eq] at fits
          exact .inr ⟨rfl, l, hl, fits.1.1.1, fits.1.1.2, fits.1.2, fits.2⟩
        · exact .inl hp
    have live {h' : Hash} (accepted : w.accepted h' = true) (out : (w.accept q h).Live h') :
        w.Live h' := out.before accepted (.inl rfl) fun r => r
    have sent : ∀ p ∈ (w.accept q h).handed, (w.accept q h).accepted p.2 = true := by
      intro p hp
      rcases handed p hp with old | ⟨rfl, -⟩
      · simp [World.accept, World.noting, hw.handed p old]
      · simp [World.accept, World.noting]
    have covered : ∀ p ∈ (w.accept q h).handed, (w.accept q h).Live p.2 →
        ∃ l ∈ w.links, l.id = p.1 ∧ l.Covers w.clock p.2 := by
      intro p hp out
      rcases handed p hp with old | ⟨rfl, l, hl, hash, -, claim, stands⟩
      · exact hw.covered p old (live (hw.handed p old) out)
      · exact ⟨l, hl, hash, .inr ⟨claim, stands⟩⟩
    -- the link of the operation is its own, so that no other one is out
    have alone : ∀ p ∈ (w.accept q h).handed, ∀ p' ∈ w.handed, p.1 = p'.1 → p.2 = h →
        p ∉ w.handed → w.Live p'.2 → p.2 = p'.2 := by
      intro p hp p' hp' same mine new out
      rcases handed p hp with old | ⟨-, l, hl, hash, pending, claim, -⟩
      · exact absurd old new
      · obtain ⟨l', hl', hash', covers⟩ := hw.covered p' hp' out
        obtain rfl := link_unique hl hl' (hash.trans (same.trans hash'.symm))
        rcases covers with paid | ⟨claim', -⟩
        · rw [pending] at paid
          cases paid
        · rw [claim] at claim'
          exact mine.trans (Option.some.inj claim')
    refine ⟨sent, covered, fun p hp p' hp' same out out' => ?_, hw.paid, hw.truthful⟩
    by_cases old : p ∈ w.handed <;> by_cases old' : p' ∈ w.handed
    · exact hw.single p old p' old' same (live (hw.handed p old) out)
        (live (hw.handed p' old') out')
    · have mine : p'.2 = h := (handed p' hp').elim (fun k => absurd k old') (·.1)
      exact (alone p' hp' p old same.symm mine old' (live (hw.handed p old) out)).symm
    · have mine : p.2 = h := (handed p hp).elim (fun k => absurd k old) (·.1)
      exact alone p hp p' old' same mine old (live (hw.handed p' old') out')
    · have mine : p.2 = h := (handed p hp).elim (fun k => absurd k old) (·.1)
      have mine' : p'.2 = h := (handed p' hp').elim (fun k => absurd k old') (·.1)
      exact mine.trans mine'.symm
  · exact hw

/-- A receipt is shown, and a failure only if it is one. -/
theorem guarded_witness (hw : w.Guarded) (h : Hash) (success : Bool)
    (truth : success = false → w.fate h = .mined false) : (w.witness h success).Guarded := by
  cases success with
  | true => exact ⟨hw.handed, hw.covered, hw.single, hw.paid, hw.truthful⟩
  | false =>
    have shown {h' : Hash} (r : (w.witness h false).refuted h' = true) :
        h' = h ∨ w.refuted h' = true := by
      simpa [World.witness] using r
    refine hw.of_quiet rfl rfl
      (fun h' accepted live => live.before accepted (.inl rfl) fun r => by simp [World.witness, r])
      (fun p hp _ l hl hash covers _ => ⟨l, hl, hash, covers⟩) hw.paid fun h' r => ?_
    rcases shown r with rfl | old
    · exact truth rfl
    · exact hw.truthful h' old

/-- Every operation that is expected, and meets the conditions, keeps the links. -/
theorem guarded_step (hw : w.Guarded) (hc : w.Claimed) (guards : o.Guards x w)
    (expected : o.Expected x w) : (o.exec i x w).2.Guarded := by
  cases o with
  | ask q h slot doubt => exact guarded_hand hw guards
  | write q h => exact guarded_hand hw guards
  | receipt mode h txHash =>
    show (PayOp.shown x w h).Guarded
    unfold PayOp.shown
    split
    · rename_i r none some
      refine guarded_witness hw h r.success fun failed => guards (by rw [none]; rfl) ?_
      rw [some, Option.any_some, failed]
      rfl
    · exact hw
  | _ => exact guarded_quiet hw hc guards expected rfl rfl

theorem guarded_decideFate (hw : w.Guarded) (h : Hash) (fate : Fate) :
    (w.decideFate h fate).Guarded := by
  unfold World.decideFate
  split
  · rename_i open_
    refine hw.of_quiet rfl rfl (fun h' accepted live => live.before accepted ?_ fun r => r)
      (fun p hp _ l hl hash covers _ => ⟨l, hl, hash, covers⟩) hw.paid fun h' r => ?_
    · by_cases same : h' = h
      · rw [same]
        exact .inr open_
      · exact .inl (if_neg same)
    · have decided := hw.truthful h' r
      have other : h' ≠ h := by
        rintro rfl
        rw [open_] at decided
        cases decided
      simp only [if_neg other]
      exact decided
  · exact hw

/-- Whatever happens around the handlers keeps the links, if it meets the conditions. -/
theorem guarded_move (e : Surroundings) (hw : w.Guarded) (spares : e.Spares w) :
    (e.move w).Guarded := by
  cases e with
  | tick milliseconds =>
    refine hw.of_quiet rfl rfl (fun _ _ live => live)
      (fun p hp live l hl hash covers _ => ⟨l, hl, hash, ?_⟩) hw.paid hw.truthful
    rcases covers with paid | ⟨claim, stands⟩
    · exact .inl paid
    · exact .inr ⟨claim, spares p hp live l hl hash claim stands⟩
  | createLink new =>
    refine hw.of_quiet rfl rfl (fun _ _ live => live)
      (fun p hp _ l hl hash covers _ => ⟨l, Table.mem_insertOrIgnore_of_mem hl, hash, covers⟩)
      (fun l hl paid => ?_) hw.truthful
    rcases Table.mem_or_eq_of_mem_insertOrIgnore hl with old | rfl
    · exact hw.paid l old paid
    · rfl
  | mine h success =>
    simp only [Surroundings.move]
    split
    · exact guarded_decideFate hw h _
    · exact hw
  | drop h => exact guarded_decideFate hw h _
  | journal h c =>
    simp only [Surroundings.move, World.setCanonical]
    split
    · exact ⟨hw.handed, hw.covered, hw.single, hw.paid, hw.truthful⟩
    · rename_i c
      refine guarded_witness ?_ h c.success fun failed => ?_
      · unfold World.onReceipt
        split <;> exact ⟨hw.handed, hw.covered, hw.single, hw.paid, hw.truthful⟩
      · unfold World.onReceipt
        split <;> exact spares failed
  | _ => exact ⟨hw.handed, hw.covered, hw.single, hw.paid, hw.truthful⟩

theorem initial_guarded (clock : Timestamp) : (World.initial clock).Guarded where
  handed _ hp := nomatch hp
  covered _ hp := nomatch hp
  single _ hp := nomatch hp
  paid _ hl := nomatch hl
  truthful _ r := nomatch r

/-! ### Every run -/

/-- Transports are candid, and neither the code nor time gives up the claim of an
operation that is out. -/
def linkConditions : System.Conditions PayOp World Answer Surroundings PayCall where
  op _ o x w := o.Candid x w ∧ o.Sole x w ∧ o.Guards x w
  env e w := e.Spares w

/-- Each step of the run meets the conditions. -/
def AlongClaims (env : Env) (clock : Timestamp) (ls : PaySchedule) : Prop :=
  (paySystem env).Along linkConditions (start clock) ls

instance (i : Nat) (o : PayOp) (x : Answer) (w : World) : Decidable (linkConditions.op i o x w) :=
  inferInstanceAs (Decidable (o.Candid x w ∧ o.Sole x w ∧ o.Guards x w))

instance (e : Surroundings) (w : World) : Decidable (linkConditions.env e w) :=
  inferInstanceAs (Decidable (e.Spares w))

instance (c : PayCall) (w : World) : Decidable (linkConditions.call c w) := .isTrue trivial

instance (env : Env) (clock : Timestamp) (ls : PaySchedule) : Decidable (AlongClaims env clock ls) :=
  inferInstanceAs (Decidable ((paySystem env).Along linkConditions (start clock) ls))

/-- No transport that may have accepted an operation answers with a rejection. -/
def AlongCandid (env : Env) (clock : Timestamp) (ls : PaySchedule) : Prop :=
  (paySystem env).Along { op := fun _ => PayOp.Candid } (start clock) ls

/-- What is known in every state of a run that meets the conditions. -/
structure World.Held (w : World) : Prop where
  claimed : w.Claimed
  guarded : w.Guarded

theorem held_invariant (env : Env) :
    payDiscipline.Invariant (paySystem env) World.Held linkConditions where
  op _ _ _ _ hs hw required performs :=
    ⟨claimed_step hs hw.claimed required.2.1 performs.ensured,
      guarded_step hw.guarded hw.claimed required.2.2 performs.ensured⟩
  env e _ _ hw spares _ := ⟨claimed_move e hw.claimed, guarded_move e hw.guarded spares⟩

theorem candid_of_claims {clock : Timestamp} {ls : PaySchedule} (h : AlongClaims env clock ls) :
    AlongCandid env clock ls :=
  System.along_mono (fun _ _ _ _ (required : linkConditions.op _ _ _ _) => required.1)
    (fun _ _ _ => trivial) (fun _ _ _ => trivial) h

theorem held_runFrom {clock : Timestamp} {ls : PaySchedule} (h : AlongClaims env clock ls) :
    ((paySystem env).runFrom (start clock) ls).world.Held :=
  (held_invariant env).holds (requests_obey env) (Discipline.sound_empty (initial_sane clock))
    ⟨initial_claimed clock, initial_guarded clock⟩ (candid_of_claims h) h

/-- One broadcast per link, in every run that meets the conditions. -/
theorem one_broadcast_per_link (env : Env) (clock : Timestamp) (ls : PaySchedule)
    (h : AlongClaims env clock ls) : OneBroadcast env clock ls := by
  constructor
  · rintro pre post rfl
    exact (held_runFrom (System.along_append.1 h).1).guarded.safe
  · rintro pre post rfl l hl paid
    have held := held_runFrom h
    rw [System.runFrom_append] at held ⊢
    obtain ⟨l', hl', same, stays⟩ := paysOn_runFrom _ post l hl
    exact ⟨l', hl', same, stays paid, held.guarded.paid l' hl' (stays paid)⟩

/-! A link, and the payments of two payers. -/

def linkId : LinkId := "4f2a"

def openLink : PaymentLink where
  id := linkId
  amount := "10"
  status := .pending
  txHash := none
  paidAt := none
  paidBy := none
  paymentClaim := none
  paymentClaimExpiresAt := none
  paymentClaimTxHash := none

def linkPayment : PrepareRequest := { directPayment with linkId := some linkId }

/-- The handlers `i` and `i + 1` prepare the payment `h` of the link and claim the link. -/
def claiming (i : Nat) (h : Hash) : PaySchedule :=
  ([.spawn (.prepare linkPayment)] : PaySchedule) ++ steps i 3 ++
    ([.step i { hash := some h }] : PaySchedule) ++ steps i 3 ++
    ([.spawn (.submit (signed h))] : PaySchedule) ++ steps (i + 1) 15

/-- A bundler takes the operation of the first payer. -/
def handedOver : PaySchedule :=
  ([.env (.createLink openLink)] : PaySchedule) ++ claiming 0 7 ++
    ([.step 1 {}, .step 1 { hash := some 7, accepted := true }] : PaySchedule)

def settledLinkRun : PaySchedule :=
  handedOver ++ steps 1 3 ++ landed 7 ++ ([.spawn .reconcile] : PaySchedule) ++ steps 2 23

theorem one_broadcast_per_link_settled :
    OneBroadcast plainEnv 0 settledLinkRun ∧
      ∃ l ∈ ((paySystem plainEnv).runFrom (start 0) settledLinkRun).world.links,
        l.status = .paid ∧ l.txHash = some 107 :=
  ⟨one_broadcast_per_link plainEnv 0 settledLinkRun (by decide +kernel), by decide +kernel⟩

/-- The handler stops there; a quarter of an hour later the second payer claims the link. -/
def claimOutlived : PaySchedule :=
  handedOver ++ ([.env (.tick (15 * 60000))] : PaySchedule) ++ claiming 2 8

theorem one_broadcast_per_link_fails : ¬ OneBroadcast plainEnv 0 claimOutlived := by
  intro claim
  have safe := claim.safe claimOutlived [] (List.append_nil _).symm
  have out : (linkId, 7) ∈ ((paySystem plainEnv).runFrom (start 0) claimOutlived).world.handed ∧
      ((paySystem plainEnv).runFrom (start 0) claimOutlived).world.Live 7 := by decide +kernel
  have taken : ∃ l ∈ ((paySystem plainEnv).runFrom (start 0) claimOutlived).world.links,
      l.id = linkId ∧ l.paymentClaim = some 8 := by decide +kernel
  obtain ⟨l, hl, hash, claimed⟩ := taken
  exact (safe.exclusive (linkId, 7) out.1 out.2 l hl hash 8 (by decide)).1 claimed

/-! ### The release of claims -/

/-- What a submission does once a transport may have accepted the operation: its error
says so, and no claim is given back. -/
def PayOp.Careful (o : PayOp) (_ : Answer) (w : World) : Prop :=
  match o with
  | .surface q e => (w.history q).accepted = true → e.possiblySubmitted = true
  | .releasePending q _ _ => (w.history q).accepted = false
  | .releaseLink q _ _ .unsent => (w.history q).accepted = false
  | _ => True

instance (o : PayOp) (x : Answer) (w : World) : Decidable (o.Careful x w) :=
  match o with
  | .surface q e => inferInstanceAs (Decidable ((w.history q).accepted = true →
      e.possiblySubmitted = true))
  | .releasePending q _ _ | .releaseLink q _ _ .unsent =>
    inferInstanceAs (Decidable ((w.history q).accepted = false))
  | .releaseLink _ _ _ .failed | .releaseLink _ _ _ .unlanded | .begin | .now
  | .deleteExpired _ | .upsertPayment _ | .selectPayment .. | .deletePayment _
  | .claimPending .. | .setSubmitted .. | .setStatus .. | .sweepTerminal .. | .selectLink _
  | .selectIntent _ | .claimLink .. | .markBroadcast .. | .settleLink _ | .enqueueMissing _
  | .listDue .. | .claimRequest .. | .rescheduleRequest .. | .completeRequest ..
  | .selectCanonical _ | .selectCovered _ | .auxiliary _ | .buildUserOperation
  | .wrapSignature | .endpointSupports _ | .ask .. | .simulate _ | .acquireSigner
  | .signerBlocked | .write .. | .releaseSigner | .receipt .. | .safeBlock | .block _ =>
    isTrue trivial

theorem careful_of_expected (expected : o.Expected x w) : o.Careful x w := by
  cases o with
  | surface q e => exact expected
  | releasePending q h errorCode => exact expected.1
  | releaseLink q id h release =>
    cases release with
    | unsent => exact expected
    | failed => trivial
    | unlanded => trivial
  | _ => trivial

/-- No link is free for another payer while an operation that was handed over for it can
still be mined. -/
def World.Closed (w : World) : Prop :=
  ∀ p ∈ w.handed, w.fate p.2 = .mineable → ∀ l ∈ w.links, l.id = p.1 → ∀ h, h ≠ p.2 →
    ∀ t ≤ w.clock, w.claimable p.1 h t l = false

theorem World.Guarded.closed (hw : w.Guarded) : w.Closed := by
  intro p hp mineable l hl hash h other t past
  exact (hw.safe.exclusive p hp ⟨hw.handed p hp, .inl mineable⟩ l hl hash h other).2 t past

/-- Each submission of the run is careful. -/
def AlongCareful (env : Env) (clock : Timestamp) (ls : PaySchedule) : Prop :=
  (paySystem env).Along { op := fun _ => PayOp.Careful } (start clock) ls

/-- Every submission is careful, and no link is free while an operation that was handed
over for it can still be mined. -/
structure ReleasedSafely (env : Env) (clock : Timestamp) (ls : PaySchedule) : Prop where
  careful : AlongCareful env clock ls
  closed : ∀ pre post, ls = pre ++ post →
    ((paySystem env).runFrom (start clock) pre).world.Closed

/-- Submissions are careful in every run with candid transports, and links are closed in
every run that keeps their claims besides. -/
theorem claims_released_safely (env : Env) (clock : Timestamp) (ls : PaySchedule)
    (candid : AlongCandid env clock ls) :
    AlongCareful env clock ls ∧ (AlongClaims env clock ls → ReleasedSafely env clock ls) := by
  have careful : AlongCareful env clock ls :=
    System.along_mono (fun _ _ x _ expected => careful_of_expected (x := x) expected)
      (fun _ _ _ => trivial) (fun _ _ _ => trivial) (along_expected candid)
  refine ⟨careful, fun h => ⟨careful, ?_⟩⟩
  rintro pre post rfl
  exact (held_runFrom (System.along_append.1 h).1).guarded.closed

def timeout : RpcError where
  name := "TimeoutError"
  message := "The request took too long to respond."
  cause := none
  detail := "The request timed out."
  code := none

/-- The bundler times out after it has taken the operation, so that the claims stay. -/
def timedOut : PaySchedule :=
  ([.env (.createLink openLink)] : PaySchedule) ++ claiming 0 7 ++
    ([.step 1 {}, .step 1 { error := some timeout, accepted := true }] : PaySchedule) ++ steps 1 6

theorem claims_released_safely_timedOut :
    ReleasedSafely plainEnv 0 timedOut ∧
      ∃ l ∈ ((paySystem plainEnv).runFrom (start 0) timedOut).world.links,
        l.paymentClaim = some 7 ∧ l.paymentClaimTxHash = some 7 :=
  ⟨(claims_released_safely plainEnv 0 timedOut
    (candid_of_claims (by decide +kernel))).2 (by decide +kernel), by decide +kernel⟩

/-- The bundler takes the operation and answers with another hash. -/
def hashMismatched : PaySchedule :=
  ([.env (.createLink openLink)] : PaySchedule) ++ claiming 0 7 ++
    ([.step 1 {}, .step 1 { hash := some 99, accepted := true }] : PaySchedule) ++ steps 1 3

theorem claims_released_safely_fails :
    ¬ AlongCareful plainEnv 0 hashMismatched ∧
      ¬ ((paySystem plainEnv).runFrom (start 0) hashMismatched).world.Closed := by
  constructor
  · unfold AlongCareful
    decide +kernel
  · intro closed
    have out : (linkId, 7) ∈ ((paySystem plainEnv).runFrom (start 0) hashMismatched).world.handed ∧
        ((paySystem plainEnv).runFrom (start 0) hashMismatched).world.fate 7 = .mineable := by
      decide +kernel
    have free : ∃ l ∈ ((paySystem plainEnv).runFrom (start 0) hashMismatched).world.links,
        l.id = linkId ∧ ((paySystem plainEnv).runFrom (start 0) hashMismatched).world.claimable
          linkId 8 0 l = true := by decide +kernel
    obtain ⟨l, hl, hash, open_⟩ := free
    have shut := closed (linkId, 7) out.1 out.2 l hl hash 8 (by decide) 0 (Nat.zero_le _)
    rw [open_] at shut
    cases shut

end ParmeliaLinks.Pay
