/-
ParmeliaLinks/Jobs/WebhookAccounting.lean

What holds of the deliveries in every run.  A count never runs ahead of the outcomes
that were recorded, so a row that is dead has eight recorded failures; a lease is used
for one request; a row that is delivered stays as it is.

The count keeps up with the outcomes, and nothing is sent for a delivered row, as long
as each claim finds the count that was listed for it and each request goes out under
the lease that was taken for it (`webhook_accounting`).
-/
import ParmeliaLinks.Jobs.WebhookDeliveries

namespace ParmeliaLinks.Jobs.Webhooks

variable {i : Nat} {w w' : World}

namespace World

/-- The row agrees with the histories. -/
structure Fits (w : World) (d : WebhookDelivery) : Prop where
  count : d.attemptCount ≤ w.outcomesOf d.id
  failed : d.status ≠ .delivered → w.failuresOf d.id = w.outcomesOf d.id
  dead : d.status = .dead → 8 ≤ w.failuresOf d.id
  lease : ∀ o, d.leaseOwner = some o →
    d.status = .processing ∧ ∃ c ∈ w.claims, c.owner = o ∧ c.id = d.id

structure Orderly (w : World) : Prop where
  rows : ∀ d ∈ w.deliveries, w.Fits d
  claims : ∀ c ∈ w.claims, c.owner < w.drawn ∧ c.listed ≤ w.outcomesOf c.id
  claimsOnce : w.claims.Pairwise fun c c' => c.owner ≠ c'.owner
  sends : ∀ s ∈ w.sends, ∃ c ∈ w.claims, c.owner = s.owner
  sendsOnce : w.sends.Pairwise fun s s' => s.owner ≠ s'.owner
  known : ∀ o ∈ w.outcomes, ∃ d ∈ w.deliveries, d.id = o.1

/-- Outcomes and claims are added, and what is delivered stays as it is. -/
structure Grows (w w' : World) : Prop where
  outcomes : ∀ id, w.outcomesOf id ≤ w'.outcomesOf id
  claims : ∀ c ∈ w.claims, c ∈ w'.claims
  delivered : ∀ d ∈ w.deliveries, d.status = .delivered → d ∈ w'.deliveries

/-- The others send nothing under the leases of the thread `i`. -/
def Spares (i : Nat) (w w' : World) : Prop :=
  ∀ s ∈ w'.sends, (∃ c ∈ w.claims, c.owner = s.owner ∧ c.thread = i) → s ∈ w.sends

theorem Grows.rfl (w : World) : w.Grows w := ⟨fun _ => Nat.le_refl _, fun _ h => h, fun _ h _ => h⟩

theorem Grows.trans {w₁ w₂ w₃ : World} (h : w₁.Grows w₂) (h' : w₂.Grows w₃) : w₁.Grows w₃ where
  outcomes id := Nat.le_trans (h.outcomes id) (h'.outcomes id)
  claims c hc := h'.claims c (h.claims c hc)
  delivered d hd done := h'.delivered d (h.delivered d hd done) done

end World

def webhookDiscipline : Discipline WebhookOp World Answer Surroundings Nat where
  Inv := World.Orderly
  Evolves w w' := w.Grows w'
  rely i w w' := World.Spares i w w' ∧ ∀ c ∈ w.claims, c ∈ w'.claims
  ensures
    | .record id leaseOwner attempts _, _, w =>
      ∃ c ∈ w.claims, c.owner = leaseOwner ∧ c.id = id ∧ attempts = c.listed + 1
    | _, _, _ => True
  refl := .rfl
  trans := .trans
  rely_refl _ _ := ⟨fun _ h _ => h, fun _ h => h⟩
  rely_trans h h' := by
    refine ⟨fun s hs own => ?_, fun c hc => h'.2 c (h.2 c hc)⟩
    have kept := h'.1 s hs (by
      obtain ⟨c, hc, owner⟩ := own
      exact ⟨c, h.2 c hc, owner⟩)
    exact h.1 s kept own

abbrev WebhookHandler.wp {α : Type} (p : WebhookHandler α) (i : Nat)
    (Q : Except String α → World → Prop) (w : World) : Prop :=
  webhookDiscipline.wp webhookSystem i p Q w

abbrev LaterFor (i : Nat) (w w' : World) : Prop := webhookDiscipline.Later i w w'

/-! ### Rows and outcomes -/

namespace World

theorem Orderly.claim_eq (hw : w.Orderly) {c c' : Claim} (hc : c ∈ w.claims) (hc' : c' ∈ w.claims)
    (same : c.owner = c'.owner) : c = c' := by
  by_contra other
  have symm : Std.Symm fun c c' : Claim => c.owner ≠ c'.owner := ⟨fun _ _ h => h.symm⟩
  exact hw.claimsOnce.forall hc hc' other same

theorem eq_of_id {d d' : WebhookDelivery} (hd : d ∈ w.deliveries) (hd' : d' ∈ w.deliveries)
    (same : d.id = d'.id) : d = d' :=
  Table.eq_of_clash hd hd' (by simp [Row.clash, same])

/-- The row fits later histories that say no more of it. -/
theorem Fits.later {d : WebhookDelivery} (h : w.Fits d)
    (outcomes : w'.outcomesOf d.id = w.outcomesOf d.id)
    (failures : w'.failuresOf d.id = w.failuresOf d.id)
    (claims : ∀ c ∈ w.claims, c ∈ w'.claims) : w'.Fits d where
  count := by
    rw [outcomes]
    exact h.count
  failed open_ := by
    rw [outcomes, failures]
    exact h.failed open_
  dead dead := by
    rw [failures]
    exact h.dead dead
  lease o ho := by
    obtain ⟨processing, c, hc, named⟩ := h.lease o ho
    exact ⟨processing, c, claims c hc, named⟩

/-- The claim takes rows that are not delivered. -/
theorem claimable_spec {id : WebhookId} {timestamp : Timestamp} {d : WebhookDelivery}
    (h : claimable id timestamp d = true) :
    d.id = id ∧ d.status ≠ .delivered ∧ d.status ≠ .dead := by
  simp only [claimable, Bool.and_eq_true, Bool.or_eq_true, beq_iff_eq] at h
  obtain ⟨same, ⟨status | status, -⟩ | ⟨status, -⟩⟩ := h <;> simp [same, status]

theorem leased_spec {id : WebhookId} {leaseOwner : LeaseOwner} {d : WebhookDelivery} :
    leased id leaseOwner d = true ↔ d.id = id ∧ d.leaseOwner = some leaseOwner := by
  simp [leased]

/-- An update leaves every delivery its row. -/
theorem known_modify {t : Table WebhookDelivery} {p : WebhookDelivery → Bool}
    {f : WebhookDelivery → WebhookDelivery} (hf : Table.KeepsKeys f) (names : ∀ d, (f d).id = d.id)
    {id : WebhookId} (known : ∃ d ∈ t, d.id = id) : ∃ d ∈ t.modify p f hf, d.id = id := by
  obtain ⟨d, hd, same⟩ := known
  refine ⟨if p d then f d else d, Table.mem_modify.2 ⟨d, hd, rfl⟩, ?_⟩
  split
  · exact (names d).trans same
  · exact same

/-- A row that an update does not match stays. -/
theorem mem_modify_of_not {t : Table WebhookDelivery} {p : WebhookDelivery → Bool}
    {f : WebhookDelivery → WebhookDelivery} (hf : Table.KeepsKeys f) {d : WebhookDelivery}
    (hd : d ∈ t) (other : ¬ p d = true) : d ∈ t.modify p f hf :=
  Table.mem_modify.2 ⟨d, hd, if_neg other⟩

theorem mem_claimed {id : WebhookId} {timestamp leaseUntil : Timestamp} {d : WebhookDelivery} :
    d ∈ w.deliveries.modify (claimable id timestamp) (claimedDelivery w.drawn leaseUntil)
        ⟨fun _ _ => rfl⟩ ↔
      ∃ d₀ ∈ w.deliveries,
        (if claimable id timestamp d₀ then claimedDelivery w.drawn leaseUntil d₀ else d₀) = d :=
  Table.mem_modify

theorem mem_record {id : WebhookId} {owner : LeaseOwner} {attempts : Nat} {delivered : Bool}
    {d : WebhookDelivery} :
    d ∈ (w.record id owner attempts delivered).deliveries ↔
      ∃ d₀ ∈ w.deliveries,
        (if leased id owner d₀ then recordedDelivery attempts delivered d₀ else d₀) = d :=
  Table.mem_of_rewritten rfl

/-- Nothing was recorded for a delivery without a row. -/
theorem Orderly.unknown (hw : w.Orderly) {id : WebhookId} (unknown : ∀ d ∈ w.deliveries, d.id ≠ id) :
    w.outcomesOf id = 0 ∧ w.failuresOf id = 0 := by
  have others : ∀ o ∈ w.outcomes, (o.1 == id) = false := by
    intro o ho
    obtain ⟨d, hd, same⟩ := hw.known o ho
    rw [beq_eq_false_iff_ne, ← same]
    exact unknown d hd
  constructor
  · refine List.countP_eq_zero.2 fun o ho => ?_
    rw [others o ho]
    exact Bool.false_ne_true
  · refine List.countP_eq_zero.2 fun o ho => ?_
    rw [others o ho, Bool.false_and]
    exact Bool.false_ne_true

/-- A row that is inserted is new, or was there. -/
theorem mem_insert {id : WebhookId} {eventId : EventId} {endpointId : EndpointId}
    {d : WebhookDelivery} (hd : d ∈ w.deliveries.insertOrIgnore (newDelivery id eventId endpointId)) :
    d ∈ w.deliveries ∨
      d = newDelivery id eventId endpointId ∧ ∀ d' ∈ w.deliveries, d'.id ≠ id := by
  by_cases fits : w.deliveries.Fits (newDelivery id eventId endpointId)
  · refine (Table.mem_or_eq_of_mem_insertOrIgnore hd).imp_right fun same => ⟨same, ?_⟩
    intro d' hd' clash
    have apart := fits d' hd'
    simp [Row.clash, newDelivery, clash] at apart
  · exact .inl (Table.insertOrIgnore_of_not_fits fits ▸ hd)

end World

/-- A step of the thread `i` that follows the discipline. -/
structure World.Keeps (i : Nat) (w w' : World) : Prop where
  orderly : w'.Orderly
  grows : w.Grows w'
  spares : ∀ j, j ≠ i → w.Spares j w'

theorem World.Keeps.rfl (hw : w.Orderly) : w.Keeps i w := ⟨hw, .rfl w, fun _ _ _ h _ => h⟩

/-- A claim is under a lease of its own. -/
theorem keeps_claim (hw : w.Orderly) (id : WebhookId) {listed : Nat}
    (leaseUntil timestamp : Timestamp) (seen : listed ≤ w.outcomesOf id) :
    w.Keeps i (w.claim i id listed leaseUntil timestamp).2 := by
  unfold World.claim
  split
  · refine ⟨⟨fun d hd => ?_, fun c hc => ?_, ?_, fun s hs => ?_, hw.sendsOnce, fun o ho => ?_⟩,
      ⟨fun _ => Nat.le_refl _, fun c hc => List.mem_append_left _ hc, fun d hd done => ?_⟩,
      fun _ _ s hs _ => hs⟩
    · obtain ⟨d₀, hd₀, rfl⟩ := World.mem_claimed.1 hd
      have fits := hw.rows d₀ hd₀
      split
      · rename_i claimed
        obtain ⟨same, open_, -⟩ := World.claimable_spec claimed
        refine ⟨fits.count, fun _ => fits.failed open_, (by intro dead; cases dead), ?_⟩
        intro o ho
        obtain rfl : w.drawn = o := Option.some.inj ho
        exact ⟨rfl, ⟨_, id, listed, i⟩, List.mem_append_right _ (List.mem_singleton.2 rfl), rfl,
          same.symm⟩
      · exact fits.later rfl rfl fun c hc => List.mem_append_left _ hc
    · rcases List.mem_append.1 hc with hc | hc
      · exact ⟨Nat.lt_succ_of_lt (hw.claims c hc).1, (hw.claims c hc).2⟩
      · obtain rfl := List.mem_singleton.1 hc
        exact ⟨Nat.lt_succ_self _, seen⟩
    · refine List.pairwise_append.2 ⟨hw.claimsOnce, List.pairwise_singleton _ _, ?_⟩
      intro c hc c' hc'
      obtain rfl := List.mem_singleton.1 hc'
      exact Nat.ne_of_lt (hw.claims c hc).1
    · obtain ⟨c, hc, same⟩ := hw.sends s hs
      exact ⟨c, List.mem_append_left _ hc, same⟩
    · exact World.known_modify (f := World.claimedDelivery w.drawn leaseUntil)
        ⟨fun _ _ => rfl⟩ (fun _ => rfl) (hw.known o ho)
    · refine World.mem_modify_of_not (f := World.claimedDelivery w.drawn leaseUntil)
        ⟨fun _ _ => rfl⟩ hd fun claimed => ?_
      exact (World.claimable_spec claimed).2.1 done
  · exact .rfl hw

/-- An outcome is counted for one delivery. -/
theorem countP_concat {α : Type} (p : α → Bool) (l : List α) (a : α) :
    (l ++ [a]).countP p = l.countP p + if p a then 1 else 0 := by
  rw [List.countP_append, List.countP_singleton]

/-- Without the lease nothing is recorded. -/
theorem record_of_none {id : WebhookId} {owner : LeaseOwner} (attempts : Nat) (delivered : Bool)
    (none : ¬ 0 < w.deliveries.changes (World.leased id owner)) :
    w.record id owner attempts delivered = w := by
  unfold World.record
  rw [if_neg none, Table.modify_of_changes_eq_zero (Nat.eq_zero_of_not_pos none)]

theorem outcomesOf_record {id : WebhookId} {owner : LeaseOwner} (attempts : Nat) (delivered : Bool)
    (found : 0 < w.deliveries.changes (World.leased id owner)) (id' : WebhookId) :
    (w.record id owner attempts delivered).outcomesOf id' =
      w.outcomesOf id' + if id = id' then 1 else 0 := by
  simp only [World.record, World.outcomesOf, if_pos found, countP_concat, beq_iff_eq]

theorem failuresOf_record {id : WebhookId} {owner : LeaseOwner} (attempts : Nat) (delivered : Bool)
    (found : 0 < w.deliveries.changes (World.leased id owner)) (id' : WebhookId) :
    (w.record id owner attempts delivered).failuresOf id' =
      w.failuresOf id' + if id = id' ∧ delivered = false then 1 else 0 := by
  simp only [World.record, World.failuresOf, if_pos found, countP_concat, Bool.and_eq_true,
    beq_iff_eq, Bool.not_eq_true']

/-- The row that has the lease is the row of the delivery. -/
theorem leased_of_found {id : WebhookId} {owner : LeaseOwner}
    (found : 0 < w.deliveries.changes (World.leased id owner)) {d : WebhookDelivery}
    (hd : d ∈ w.deliveries) (same : id = d.id) : World.leased id owner d = true := by
  obtain ⟨d₁, hd₁, own⟩ := Table.changes_pos.1 found
  rw [World.eq_of_id hd hd₁ (same.symm.trans (World.leased_spec.1 own).1.symm)]
  exact own

/-- A record is written under its lease, and counted once. -/
theorem keeps_record (hw : w.Orderly) {c : Claim} (hc : c ∈ w.claims) (delivered : Bool) :
    w.Keeps i (w.record c.id c.owner (c.listed + 1) delivered) := by
  by_cases found : 0 < w.deliveries.changes (World.leased c.id c.owner)
  swap
  · rw [record_of_none (c.listed + 1) delivered found]
    exact .rfl hw
  have outcomes := outcomesOf_record (c.listed + 1) delivered found
  have failures := failuresOf_record (c.listed + 1) delivered found
  have mem : (w.record c.id c.owner (c.listed + 1) delivered).outcomes =
      w.outcomes ++ [(c.id, delivered)] := by
    simp only [World.record, if_pos found]
  refine ⟨⟨fun d hd => ?_, fun c' hc' => ?_, hw.claimsOnce, hw.sends, hw.sendsOnce,
    fun o ho => ?_⟩, ⟨fun id => ?_, fun c hc => hc, fun d hd done => ?_⟩, fun _ _ s hs _ => hs⟩
  · obtain ⟨d₀, hd₀, rfl⟩ := World.mem_record.1 hd
    have fits := hw.rows d₀ hd₀
    split
    · rename_i own
      obtain ⟨same, lease⟩ := World.leased_spec.1 own
      have open_ : d₀.status ≠ .delivered := by
        rw [(fits.lease _ lease).1]
        decide
      have before := fits.failed open_
      have listed := (hw.claims c hc).2
      rw [← same] at listed
      refine ⟨?_, fun stays => ?_, fun dead => ?_, fun o ho => by cases ho⟩
      · show c.listed + 1 ≤ World.outcomesOf _ d₀.id
        rw [outcomes, if_pos same.symm]
        exact Nat.succ_le_succ listed
      · show World.failuresOf _ d₀.id = World.outcomesOf _ d₀.id
        have failed : delivered = false := by
          cases delivered with
          | false => rfl
          | true => exact absurd rfl stays
        rw [outcomes, failures, if_pos same.symm, if_pos ⟨same.symm, failed⟩, before]
      · show 8 ≤ World.failuresOf _ d₀.id
        have failed : delivered = false ∧ 8 ≤ c.listed + 1 := by
          simp only [World.recordedDelivery] at dead
          split at dead
          · cases dead
          · rename_i failed
            split at dead
            · rename_i enough
              exact ⟨Bool.not_eq_true _ ▸ failed, enough⟩
            · cases dead
        rw [failures, if_pos ⟨same.symm, failed.1⟩, before]
        exact Nat.le_trans failed.2 (Nat.succ_le_succ listed)
    · rename_i others
      -- another row of the delivery would have the lease
      by_cases same : c.id = d₀.id
      · exact absurd (leased_of_found found hd₀ same) others
      · refine fits.later ?_ ?_ fun c hc => hc
        · rw [outcomes, if_neg same, Nat.add_zero]
        · rw [failures, if_neg fun both => same both.1, Nat.add_zero]
  · refine ⟨(hw.claims c' hc').1, Nat.le_trans (hw.claims c' hc').2 ?_⟩
    rw [outcomes]
    exact Nat.le_add_right _ _
  · have row : ∃ d ∈ w.deliveries, d.id = o.1 := by
      rw [mem] at ho
      rcases List.mem_append.1 ho with ho | ho
      · exact hw.known o ho
      · obtain rfl := List.mem_singleton.1 ho
        obtain ⟨d, hd, own⟩ := Table.changes_pos.1 found
        exact ⟨d, hd, (World.leased_spec.1 own).1⟩
    exact World.known_modify (f := World.recordedDelivery (c.listed + 1) delivered)
      ⟨fun _ _ => rfl⟩ (fun _ => rfl) row
  · rw [outcomes]
    exact Nat.le_add_right _ _
  · refine World.mem_modify_of_not (f := World.recordedDelivery (c.listed + 1) delivered)
      ⟨fun _ _ => rfl⟩ hd fun own => ?_
    have lease := ((hw.rows d hd).lease _ (World.leased_spec.1 own).2).1
    rw [done] at lease
    cases lease

/-- A lease that was not used is used once. -/
theorem keeps_send (hw : w.Orderly) {c : Claim} (hc : c ∈ w.claims) (mine : c.thread = i)
    (unused : ∀ s ∈ w.sends, s.owner ≠ c.owner) : w.Keeps i (w.send c.id c.owner) := by
  refine ⟨⟨fun d hd => ?_, hw.claims, hw.claimsOnce, fun s hs => ?_, ?_, hw.known⟩,
    ⟨fun _ => Nat.le_refl _, fun _ h => h, fun _ h _ => h⟩, fun j other s hs own => ?_⟩
  · exact (hw.rows d hd).later rfl rfl fun _ h => h
  · rcases List.mem_append.1 hs with hs | hs
    · exact hw.sends s hs
    · obtain rfl := List.mem_singleton.1 hs
      exact ⟨c, hc, rfl⟩
  · refine List.pairwise_append.2 ⟨hw.sendsOnce, List.pairwise_singleton _ _, ?_⟩
    intro s hs s' hs'
    obtain rfl := List.mem_singleton.1 hs'
    exact unused s hs
  · rcases List.mem_append.1 hs with hs | hs
    · exact hs
    · obtain rfl := List.mem_singleton.1 hs
      obtain ⟨c', hc', same, theirs⟩ := own
      obtain rfl := hw.claim_eq hc' hc same
      exact absurd (theirs.symm.trans mine) other

/-! ### The job -/

/-- A step that keeps what is to be kept follows the discipline. -/
theorem performs_of_keeps {o : WebhookOp} {x : Answer} (keeps : w.Keeps i (o.exec i x w).2)
    (ensured : webhookDiscipline.ensures o x w) :
    webhookDiscipline.Performs webhookSystem i o x w :=
  ⟨⟨keeps.orderly, keeps.grows⟩, fun j other => ⟨keeps.spares j other, keeps.grows.claims⟩,
    ensured⟩

theorem keeps_deliver {β : Type} (x : Delivery) {r : β × World} (hw : w.Orderly)
    (keeps : w.Keeps i r.2) : w.Keeps i (x.deliver w r).2 :=
  x.deliver_induction (.rfl hw) keeps

/-- The lease is one that the thread has taken for the listed row and not used. -/
structure World.Holds (w : World) (i : Nat) (d : WebhookDelivery) (owner : LeaseOwner) : Prop where
  claim : ⟨owner, d.id, d.attemptCount, i⟩ ∈ w.claims
  unused : ∀ s ∈ w.sends, s.owner ≠ owner

/-- The lease is one that the thread has taken for the listed row. -/
def World.Took (w : World) (i : Nat) (d : WebhookDelivery) (owner : LeaseOwner) : Prop :=
  ⟨owner, d.id, d.attemptCount, i⟩ ∈ w.claims

theorem World.Took.later {d : WebhookDelivery} {owner : LeaseOwner} (h : w.Took i d owner)
    (later : LaterFor i w w') : w'.Took i d owner := later.evolves.claims _ h

theorem World.Holds.later {d : WebhookDelivery} {owner : LeaseOwner} (h : w.Holds i d owner)
    (later : LaterFor i w w') : w'.Holds i d owner where
  claim := later.evolves.claims _ h.claim
  unused s hs same :=
    h.unused s (later.relied.1 s hs ⟨_, h.claim, same.symm, rfl⟩) same

variable {α : Type} {Q : Except String α → World → Prop}

theorem wp_query {o : WebhookOp} {k : WebhookOp.Reply o → WebhookHandler α} (hw : w.Orderly)
    (same : ∀ x, (o.exec i x w).2 = w) (ensured : ∀ x, webhookDiscipline.ensures o x w)
    (rest : ∀ x w', LaterFor i w w' → (k (o.exec i x w).1).wp i Q w') :
    WebhookHandler.wp ((perform o).bind k) i Q w :=
  Discipline.wp_query _ _ hw same ensured rest

theorem wp_op {o : WebhookOp} {k : WebhookOp.Reply o → WebhookHandler α}
    (keeps : ∀ x, w.Keeps i (o.exec i x w).2) (ensured : ∀ x, webhookDiscipline.ensures o x w)
    (rest : ∀ x w', LaterFor i (o.exec i x w).2 w' → (k (o.exec i x w).1).wp i Q w') :
    WebhookHandler.wp ((perform o).bind k) i Q w :=
  Discipline.wp_act _ _ (fun x _ => performs_of_keeps (keeps x) (ensured x)) fun x _ => rest x

/-- An await that touches no table, and the rest. -/
theorem wp_prepare {f : Unit → WebhookHandler α} (hw : w.Orderly)
    (ok : ∀ w', LaterFor i w w' → (f ()).wp i Q w')
    (error : ∀ m w', LaterFor i w w' → Q (.error m) w') :
    WebhookHandler.wp ((perform .prepare).bind fun r => (Prog.ofExcept r).bind f) i Q w := by
  refine wp_query hw (fun x => Delivery.deliver_query _ _ _) (fun _ => trivial) fun x w' later => ?_
  refine Discipline.wp_seq _ _ (R := fun _ w₁ => w₁ = w') (Discipline.wp_ofExcept _ _ rfl) ?_ ?_
  · rintro a _ rfl
    exact ok _ later
  · rintro m _ rfl
    exact error m _ later

/-- An outcome is recorded, and the rest. -/
theorem wp_record {f : Unit → WebhookHandler α} (hw : w.Orderly) {d : WebhookDelivery}
    {owner : LeaseOwner} (took : w.Took i d owner) (delivered : Bool)
    (ok : ∀ w', w'.Orderly → w.Grows w' → (f ()).wp i Q w')
    (error : ∀ m w', w'.Orderly → w.Grows w' → Q (.error m) w') :
    WebhookHandler.wp ((perform (.record d.id owner (d.attemptCount + 1) delivered)).bind
      fun r => (Prog.ofExcept r).bind f) i Q w := by
  have keeps := keeps_record (i := i) hw took delivered
  refine wp_op (fun x => keeps_deliver x.delivery hw keeps)
    (fun _ => ⟨_, took, rfl, rfl, rfl⟩) fun x w' later => ?_
  have grows : w.Grows w' :=
    (keeps_deliver (i := i) x.delivery (r := ((), _)) hw keeps).grows.trans later.evolves
  refine Discipline.wp_seq _ _ (R := fun _ w₁ => w₁ = w') (Discipline.wp_ofExcept _ _ rfl) ?_ ?_
  · rintro a _ rfl
    exact ok _ later.inv grows
  · rintro m _ rfl
    exact error m _ later.inv grows

theorem wp_fetchWebhook (hw : w.Orderly) {d : WebhookDelivery} {owner : LeaseOwner}
    (holds : w.Holds i d owner) :
    (fetchWebhook d.id owner).wp i (fun _ w' => w'.Orderly ∧ w.Grows w' ∧ w'.Took i d owner) w := by
  refine wp_prepare hw (fun w₁ later => ?_)
    fun _ w₁ later => ⟨later.inv, later.evolves, (holds.later later).claim⟩
  have holds₁ := holds.later later
  have keeps := keeps_send later.inv holds₁.claim rfl holds₁.unused
  refine wp_op (fun _ => keeps) (fun _ => trivial) fun _ w₂ later₂ => ?_
  have grows := later.evolves.trans (keeps.grows.trans later₂.evolves)
  refine wp_query later₂.inv (fun x => Delivery.deliver_query _ _ _) (fun _ => trivial)
    fun x w₃ later₃ => Discipline.wp_ofExcept _ _ ?_
  have grows₃ := grows.trans later₃.evolves
  exact ⟨later₃.inv, grows₃, grows₃.claims _ holds.claim⟩

theorem wp_deliverClaimed (hw : w.Orderly) {d : WebhookDelivery} {owner : LeaseOwner}
    (holds : w.Holds i d owner) :
    (deliverClaimed d owner).wp i (fun _ w' => w'.Orderly ∧ w.Grows w') w := by
  refine wp_prepare hw (fun w₁ later => ?_) fun _ w₁ later => ⟨later.inv, later.evolves⟩
  refine Discipline.wp_seq _ _ (R := fun r w' => w'.Orderly ∧ w₁.Grows w' ∧ w'.Took i d owner) ?_ ?_
    fun _ w₂ h => ⟨h.1, later.evolves.trans h.2.1⟩
  · refine (Discipline.wp_tryCatch _ _ _ _ _ _).2 (Discipline.wp_mono _ _
      (wp_fetchWebhook later.inv (holds.later later)) fun r w₂ h => ?_)
    cases r with
    | ok status => exact h
    | error m =>
      -- the failure is recorded, and the error is thrown again
      refine wp_record h.1 h.2.2 false ?_ ?_
      · exact fun w₃ hw₃ grows => ⟨hw₃, h.2.1.trans grows, grows.claims _ h.2.2⟩
      · exact fun _ w₃ hw₃ grows => ⟨hw₃, h.2.1.trans grows, grows.claims _ h.2.2⟩
  · rintro status w₂ ⟨hw₂, grows, took⟩
    have since := later.evolves.trans grows
    refine wp_prepare hw₂ (fun w₃ later₃ => ?_)
      fun _ w₃ later₃ => ⟨later₃.inv, since.trans later₃.evolves⟩
    have all := since.trans later₃.evolves
    refine wp_record later₃.inv (took.later later₃) _ (fun w₄ hw₄ done => ?_)
      fun _ w₄ hw₄ done => ⟨hw₄, all.trans done⟩
    split
    · exact ⟨hw₄, all.trans done⟩
    · exact ⟨hw₄, all.trans done⟩

theorem wp_deliverOne (hw : w.Orderly) {d : WebhookDelivery}
    (seen : d.attemptCount ≤ w.outcomesOf d.id) :
    (deliverOne d).wp i (fun _ w' => w'.Orderly ∧ w.Grows w') w := by
  refine wp_query hw (fun _ => rfl) (fun _ => trivial) fun x w₁ later => ?_
  have seen₁ := Nat.le_trans seen (later.evolves.outcomes d.id)
  have keeps := keeps_claim (i := i) later.inv d.id (w.clock + 30000) w.clock seen₁
  refine wp_op (fun y => keeps_deliver y.delivery later.inv keeps) (fun _ => trivial)
    fun y w₂ later₂ => ?_
  have grows : w₁.Grows _ :=
    (keeps_deliver (i := i) y.delivery (r := w₁.claim i d.id d.attemptCount (w.clock + 30000) w.clock)
      later.inv keeps).grows
  have since := later.evolves.trans (grows.trans later₂.evolves)
  refine Discipline.wp_seq _ _ (R := fun r w' => w' = w₂ ∧
    r = (y.delivery.deliver w₁ (w₁.claim i d.id d.attemptCount (w.clock + 30000) w.clock)).1)
    (Discipline.wp_ofExcept _ _ ⟨rfl, rfl⟩) ?_ ?_
  swap
  · rintro m _ ⟨rfl, -⟩
    exact ⟨later₂.inv, since⟩
  rintro claimed _ ⟨rfl, reply⟩
  cases claimed with
  | none => exact ⟨later₂.inv, since⟩
  | some owner =>
    obtain ⟨taken, world⟩ := Delivery.of_deliver_ok reply.symm
    have holds : World.Holds
        (w₁.claim i d.id d.attemptCount (w.clock + 30000) w.clock).2 i d owner := by
      unfold World.claim at taken ⊢
      split at taken
      · rename_i found
        rw [if_pos found]
        obtain rfl := Option.some.inj taken
        refine ⟨List.mem_append_right _ (List.mem_singleton.2 rfl), fun s hs => ?_⟩
        obtain ⟨c, hc, same⟩ := later.inv.sends s hs
        rw [← same]
        exact Nat.ne_of_lt (later.inv.claims c hc).1
      · cases taken
    rw [← world] at holds
    refine Discipline.wp_mono _ _ (wp_deliverClaimed later₂.inv (holds.later later₂)) ?_
    exact fun _ w₃ done => ⟨done.1, since.trans done.2⟩

theorem wp_deliverAll (hw : w.Orderly) {ds : List WebhookDelivery} {leasePending : Bool}
    (seen : ∀ d ∈ ds, d.attemptCount ≤ w.outcomesOf d.id) :
    (deliverAll ds leasePending).wp i (fun _ _ => True) w := by
  induction ds generalizing w leasePending with
  | nil =>
    unfold deliverAll
    split <;> exact trivial
  | cons d ds ih =>
    refine Discipline.wp_seq _ _ (wp_deliverOne hw (seen d List.mem_cons_self)) ?_
      fun _ _ _ => trivial
    rintro delivered w₁ ⟨hw₁, grows⟩
    exact ih hw₁ fun d' hd' =>
      Nat.le_trans (seen d' (List.mem_cons_of_mem _ hd')) (grows.outcomes d'.id)

theorem wp_runWebhookDelivery (hw : w.Orderly) (resourceId : Nat) :
    (runWebhookDelivery resourceId).wp i (fun _ _ => True) w := by
  refine wp_query hw (fun x => Delivery.deliver_query _ _ _) (fun _ => trivial) fun x w₁ later => ?_
  refine Discipline.wp_seq _ _ (R := fun r w' => w' = w₁ ∧
    r = (x.delivery.deliver w (w.listWebhookDeliveryJobs resourceId, w)).1)
    (Discipline.wp_ofExcept _ _ ⟨rfl, rfl⟩) ?_ fun _ _ _ => trivial
  rintro ds _ ⟨rfl, reply⟩
  obtain ⟨listed, -⟩ := Delivery.of_deliver_ok reply.symm
  refine wp_deliverAll later.inv fun d hd => ?_
  have row : d ∈ w.deliveries := by
    rw [← listed] at hd
    exact (List.mem_filter.1 hd).1
  exact Nat.le_trans (hw.rows d row).count (later.evolves.outcomes d.id)

/-! ### Every run -/

theorem webhooks_obey : webhookDiscipline.Obeys webhookSystem (fun _ _ => True) where
  env e w hw _ := by
    have moves : (e.move w).Orderly ∧ w.Grows (e.move w) := by
      cases e with
      | tick t => exact ⟨⟨fun d hd => (hw.rows d hd).later rfl rfl fun _ h => h, hw.claims,
          hw.claimsOnce, hw.sends, hw.sendsOnce, hw.known⟩, fun _ => Nat.le_refl _, fun _ h => h,
          fun _ h _ => h⟩
      | setActive endpointId active => exact ⟨⟨fun d hd => (hw.rows d hd).later rfl rfl fun _ h => h,
          hw.claims, hw.claimsOnce, hw.sends, hw.sendsOnce, hw.known⟩, fun _ => Nat.le_refl _,
          fun _ h => h, fun _ h _ => h⟩
      | insert id eventId endpointId =>
        refine ⟨⟨fun d hd => ?_, hw.claims, hw.claimsOnce, hw.sends, hw.sendsOnce, fun o ho => ?_⟩,
          fun _ => Nat.le_refl _, fun _ h => h, fun d hd _ => Table.mem_insertOrIgnore_of_mem hd⟩
        · rcases World.mem_insert hd with hd | ⟨rfl, unknown⟩
          · exact (hw.rows d hd).later rfl rfl fun _ h => h
          · obtain ⟨outcomes, failures⟩ := hw.unknown unknown
            refine ⟨Nat.zero_le _, fun _ => failures.trans outcomes.symm, ?_, ?_⟩
            · intro dead
              cases dead
            · intro o ho
              cases ho
        · obtain ⟨d, hd, same⟩ := hw.known o ho
          exact ⟨d, Table.mem_insertOrIgnore_of_mem hd, same⟩
    have sends : (e.move w).sends = w.sends := by cases e <;> rfl
    refine ⟨⟨moves.1, moves.2⟩, fun j => ⟨fun s hs _ => ?_, moves.2.claims⟩⟩
    rwa [← sends]
  call c i _ w _ _ later := wp_runWebhookDelivery later.inv c

theorem initial_orderly (clock : Timestamp) : (World.initial clock).Orderly where
  rows _ hd := absurd hd (Table.not_mem_empty _)
  claims _ hc := absurd hc List.not_mem_nil
  claimsOnce := .nil
  sends _ hs := absurd hs List.not_mem_nil
  sendsOnce := .nil
  known _ ho := absurd ho List.not_mem_nil

/-! ### Runs whose counts are up to date -/

/-- A claim finds the count that was listed, and a request goes out under its lease. -/
def WebhookOp.UpToDate (o : WebhookOp) (w : World) : Prop :=
  match o with
  | .claim id listed _ timestamp =>
    ∀ d ∈ w.deliveries, World.claimable id timestamp d = true → d.attemptCount = listed
  | .send id leaseOwner => ∀ d ∈ w.deliveries, d.id = id → d.leaseOwner = some leaseOwner
  | _ => True

instance : (o : WebhookOp) → (w : World) → Decidable (o.UpToDate w)
  | .claim id listed _ timestamp, w => inferInstanceAs (Decidable (∀ d ∈ w.deliveries,
      World.claimable id timestamp d = true → d.attemptCount = listed))
  | .send id leaseOwner, w => inferInstanceAs (Decidable (∀ d ∈ w.deliveries,
      d.id = id → d.leaseOwner = some leaseOwner))
  | .list _, _ | .now, _ | .prepare, _ | .response .., _ | .record .., _ => isTrue trivial

/-- The counts are exact, and nothing was sent for a delivered row. -/
structure World.Exact (w : World) : Prop where
  counts : ∀ d ∈ w.deliveries, d.attemptCount = w.outcomesOf d.id
  leases : ∀ d ∈ w.deliveries, ∀ c ∈ w.claims, d.leaseOwner = some c.owner →
    c.listed = d.attemptCount
  sends : ∀ s ∈ w.sends, s.delivered = false

def upToDate : System.Conditions WebhookOp World Answer Surroundings Nat where
  op _ o _ w := o.UpToDate w

theorem exact_claim (exact_ : w.Exact) (hw : w.Orderly) {id : WebhookId} {listed : Nat}
    {timestamp : Timestamp} (leaseUntil : Timestamp)
    (current : ∀ d ∈ w.deliveries, World.claimable id timestamp d = true →
      d.attemptCount = listed) : (w.claim i id listed leaseUntil timestamp).2.Exact := by
  unfold World.claim
  split
  · refine ⟨fun d hd => ?_, fun d hd c hc own => ?_, exact_.sends⟩
    · obtain ⟨d₀, hd₀, rfl⟩ := World.mem_claimed.1 hd
      have count := exact_.counts d₀ hd₀
      split <;> exact count
    · obtain ⟨d₀, hd₀, rfl⟩ := World.mem_claimed.1 hd
      split at own
      · rename_i claimed
        have count := current d₀ hd₀ claimed
        rw [if_pos claimed]
        have mine : w.drawn = c.owner := Option.some.inj own
        rcases List.mem_append.1 hc with hc | hc
        · exact absurd mine.symm (Nat.ne_of_lt (hw.claims c hc).1)
        · obtain rfl := List.mem_singleton.1 hc
          exact count.symm
      · rename_i others
        rw [if_neg others]
        rcases List.mem_append.1 hc with hc | hc
        · exact exact_.leases d₀ hd₀ c hc own
        -- the new lease is on no other row
        · obtain rfl := List.mem_singleton.1 hc
          obtain ⟨-, c, hc, same, -⟩ := (hw.rows d₀ hd₀).lease _ own
          exact absurd same (Nat.ne_of_lt (hw.claims c hc).1)
  · exact exact_

theorem exact_record (exact_ : w.Exact) {c : Claim} (hc : c ∈ w.claims) (delivered : Bool) :
    (w.record c.id c.owner (c.listed + 1) delivered).Exact := by
  by_cases found : 0 < w.deliveries.changes (World.leased c.id c.owner)
  swap
  · rw [record_of_none (c.listed + 1) delivered found]
    exact exact_
  refine ⟨fun d hd => ?_, fun d hd c' hc' own => ?_, exact_.sends⟩
  · obtain ⟨d₀, hd₀, rfl⟩ := World.mem_record.1 hd
    have count := exact_.counts d₀ hd₀
    split
    · rename_i own
      obtain ⟨same, lease⟩ := World.leased_spec.1 own
      show c.listed + 1 = World.outcomesOf _ d₀.id
      rw [outcomesOf_record _ _ found, if_pos same.symm, ← count, exact_.leases d₀ hd₀ c hc lease]
    · rename_i others
      rw [outcomesOf_record _ _ found, if_neg, Nat.add_zero, count]
      exact fun same => others (leased_of_found found hd₀ same)
  · obtain ⟨d₀, hd₀, rfl⟩ := World.mem_record.1 hd
    split at own
    · cases own
    · rename_i others
      rw [if_neg others]
      exact exact_.leases d₀ hd₀ c' hc' own

theorem exact_send (exact_ : w.Exact) (hw : w.Orderly) {id : WebhookId} {owner : LeaseOwner}
    (mine : ∀ d ∈ w.deliveries, d.id = id → d.leaseOwner = some owner) :
    (w.send id owner).Exact := by
  refine ⟨exact_.counts, exact_.leases, fun s hs => ?_⟩
  rcases List.mem_append.1 hs with hs | hs
  · exact exact_.sends s hs
  · obtain rfl := List.mem_singleton.1 hs
    rw [Table.any_eq_false]
    intro d hd
    by_cases same : d.id = id
    · have processing := ((hw.rows d hd).lease owner (mine d hd same)).1
      simp [processing]
    · simp [same]

theorem exact_insert (exact_ : w.Exact) (hw : w.Orderly) (id : WebhookId) (eventId : EventId)
    (endpointId : EndpointId) : (Surroundings.move (.insert id eventId endpointId) w).Exact := by
  refine ⟨fun d hd => ?_, fun d hd c hc own => ?_, exact_.sends⟩
  · rcases World.mem_insert hd with old | ⟨rfl, unknown⟩
    · exact exact_.counts d old
    · exact (hw.unknown unknown).1.symm
  · rcases World.mem_insert hd with old | ⟨rfl, -⟩
    · exact exact_.leases d old c hc own
    · cases own

theorem exact_invariant : webhookDiscipline.Invariant webhookSystem World.Exact upToDate where
  env e w hw exact_ _ _ := by
    cases e with
    | tick t => exact ⟨exact_.counts, exact_.leases, exact_.sends⟩
    | setActive endpointId active => exact ⟨exact_.counts, exact_.leases, exact_.sends⟩
    | insert id eventId endpointId => exact exact_insert exact_ hw id eventId endpointId
  op i o x w hw exact_ current performs := by
    cases o with
    | list resourceId => exact x.delivery.deliver_induction exact_ exact_
    | now => exact exact_
    | prepare => exact x.delivery.deliver_induction exact_ exact_
    | response id leaseOwner => exact x.delivery.deliver_induction exact_ exact_
    | claim id listed leaseUntil timestamp =>
      exact x.delivery.deliver_induction exact_ (exact_claim exact_ hw leaseUntil current)
    | send id leaseOwner => exact exact_send exact_ hw current
    | record id leaseOwner attempts delivered =>
      obtain ⟨c, hc, rfl, rfl, rfl⟩ := performs.ensured
      exact x.delivery.deliver_induction exact_ (exact_record exact_ hc delivered)

/-! ### The accounts -/

def webhookStart (clock : Timestamp) : Pool WebhookOp WebhookOp.Reply World Unit :=
  ⟨.initial clock, []⟩

def webhookRun (clock : Timestamp) (ls : WebhookSchedule) :
    Pool WebhookOp WebhookOp.Reply World Unit :=
  webhookSystem.runFrom (webhookStart clock) ls

/-- The claims of a run find the counts that were listed, and its requests go out under
their leases. -/
def UpToDate (clock : Timestamp) (ls : WebhookSchedule) : Prop :=
  webhookSystem.Along upToDate (webhookStart clock) ls

instance (clock : Timestamp) (ls : WebhookSchedule) : Decidable (UpToDate clock ls) :=
  inferInstanceAs (Decidable (webhookSystem.Along { op := fun _ o _ w => o.UpToDate w }
    (webhookStart clock) ls))

/-- The accounts of the deliveries. -/
structure World.Accounted (w : World) : Prop where
  counts : ∀ d ∈ w.deliveries, d.attemptCount = w.outcomesOf d.id
  dead : ∀ d ∈ w.deliveries, d.status = .dead → 8 ≤ w.failuresOf d.id
  /-- Nothing was sent for a row that was delivered. -/
  sends : ∀ s ∈ w.sends, s.delivered = false
  /-- A lease is used for one request. -/
  leases : w.sends.Pairwise fun s s' => s.owner ≠ s'.owner

/-- In every run whose claims find the counts that were listed, and whose requests go out
under their leases, the accounts are right, and what is delivered stays as it is. -/
theorem webhook_accounting (clock : Timestamp) (ls ms : WebhookSchedule)
    (current : UpToDate clock (ls ++ ms)) :
    (webhookRun clock ls).world.Accounted ∧
    ∀ d ∈ (webhookRun clock ls).world.deliveries, d.status = .delivered →
      d ∈ (webhookRun clock (ls ++ ms)).world.deliveries := by
  have start : webhookDiscipline.Sound webhookSystem (fun _ _ => True) (webhookStart clock) :=
    Discipline.sound_empty (initial_orderly clock)
  have sound := Discipline.sound_runFrom webhooks_obey start (System.along_any _ _ ls)
  have begin : (World.initial clock).Exact :=
    ⟨fun d hd => absurd hd (Table.not_mem_empty _), fun d hd => absurd hd (Table.not_mem_empty _),
      fun s hs => absurd hs List.not_mem_nil⟩
  have exact_ := exact_invariant.holds webhooks_obey start begin (System.along_any _ _ ls)
    (System.along_append.1 current).1
  refine ⟨⟨exact_.counts, fun d hd => (sound.inv.rows d hd).dead, exact_.sends,
    sound.inv.sendsOnce⟩, fun d hd done => ?_⟩
  rw [webhookRun, System.runFrom_append]
  exact (Discipline.evolves_runFrom webhooks_obey sound (System.along_any _ _ ms)).delivered d hd
    done

/-! One event with one delivery: the endpoint fails once, and then answers. -/

/-- Steps of one thread with nothing from the outside. -/
def steps (thread count : Nat) : WebhookSchedule := List.replicate count (.step thread {})

def refused : Label Answer Surroundings Nat := .step 0 { status := 500 }

def failedThenDelivered : WebhookSchedule :=
  ([.env (.insert 1 7 3), .spawn 7] : WebhookSchedule) ++ steps 0 6 ++ [refused] ++ steps 0 2 ++
    ([.spawn 7] : WebhookSchedule) ++ steps 1 9

theorem webhook_accounting_failedThenDelivered :
    (webhookRun 0 failedThenDelivered).world.Accounted ∧
    (webhookRun 0 failedThenDelivered).world.deliveries.rows.map
      (fun d => (d.status, d.attemptCount)) = [(.delivered, 2)] := by
  have current : UpToDate 0 (failedThenDelivered ++ []) := by decide
  exact ⟨(webhook_accounting 0 failedThenDelivered [] current).1, by decide⟩

/-- Two runs list the delivery, and both fail to deliver it, one after the other. -/
def listedTogether : WebhookSchedule :=
  ([.env (.insert 1 7 3), .spawn 7, .spawn 7] : WebhookSchedule) ++ steps 0 1 ++ steps 1 1 ++
    steps 0 5 ++ [refused] ++ steps 0 2 ++ steps 1 5 ++
    ([.step 1 { status := 500 }] : WebhookSchedule) ++ steps 1 2

/-- Two failures are recorded, and one is counted. -/
theorem count_falls_behind :
    (webhookRun 0 listedTogether).world.outcomes = [(1, false), (1, false)] ∧
    (webhookRun 0 listedTogether).world.deliveries.rows.map
      (fun d => (d.status, d.attemptCount)) = [(.failed, 1)] ∧
    ¬ (webhookRun 0 listedTogether).world.Accounted := by
  refine ⟨by decide, by decide, fun accounted => ?_⟩
  have counts := accounted.counts
  revert counts
  decide

end ParmeliaLinks.Jobs.Webhooks
