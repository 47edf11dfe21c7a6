/-
ParmeliaLinks/Lib/MultiSigner.lean

A set of signers with a threshold, as another contract sees it.  Signers are
added and removed several at a time, all of them or none; the threshold is
positive, and never above the number of signers once one of its checks has run.

`replace_spec` is about the order in which all signers can be exchanged: add the
new ones, set the threshold, remove the old ones.  It goes through whenever the
new signers could be added at all, and leaves just them.
-/
import Mathlib.Data.List.Perm.Basic
import Mathlib.Data.List.Nodup

namespace ParmeliaLinks

/-- What is known of a set of signers. -/
structure MultiSigner (Signer : Type) [DecidableEq Signer] where
  State : Type
  empty : State
  signers : State → List Signer
  threshold : State → Nat
  /-- The form of a signer that is accepted. -/
  valid : Signer → Bool
  addSigners : List Signer → State → Option State
  removeSigners : List Signer → State → Option State
  setThreshold : Nat → State → Option State
  nodup : ∀ s, (signers s).Nodup
  signers_empty : signers empty = []
  threshold_empty : threshold empty = 0
  add_isSome : ∀ new s, (addSigners new s).isSome = true ↔
    new.Nodup ∧ ∀ x ∈ new, valid x = true ∧ x ∉ signers s
  add_spec : ∀ {new s s'}, addSigners new s = some s' →
    threshold s' = threshold s ∧ ∀ x, x ∈ signers s' ↔ x ∈ signers s ∨ x ∈ new
  remove_isSome : ∀ old s, (removeSigners old s).isSome = true ↔
    old.Nodup ∧ (∀ x ∈ old, x ∈ signers s) ∧
      threshold s ≤ ((signers s).filter (· ∉ old)).length
  remove_spec : ∀ {old s s'}, removeSigners old s = some s' →
    threshold s' = threshold s ∧ ∀ x, x ∈ signers s' ↔ x ∈ signers s ∧ x ∉ old
  setThreshold_isSome : ∀ t s, (setThreshold t s).isSome = true ↔
    0 < t ∧ t ≤ (signers s).length
  setThreshold_spec : ∀ {t s s'}, setThreshold t s = some s' →
    threshold s' = t ∧ signers s' = signers s

namespace MultiSigner

variable {Signer : Type} [DecidableEq Signer] {M : MultiSigner Signer} {s s' : M.State}
variable {new old : List Signer} {t : Nat}

/-- The threshold can be reached. -/
structure Reachable (M : MultiSigner Signer) (s : M.State) : Prop where
  positive : 1 ≤ M.threshold s
  reached : M.threshold s ≤ (M.signers s).length

omit [DecidableEq Signer] in
/-- Lists of different signers with the same members are equally long. -/
theorem length_eq {l l' : List Signer} (hl : l.Nodup) (hl' : l'.Nodup)
    (h : ∀ x, x ∈ l ↔ x ∈ l') : l.length = l'.length :=
  ((List.perm_ext_iff_of_nodup hl hl').2 h).length_eq

theorem reachable_add (h : M.Reachable s) (hs : M.addSigners new s = some s') : M.Reachable s' := by
  obtain ⟨threshold, members⟩ := M.add_spec hs
  refine ⟨?_, ?_⟩
  · rw [threshold]
    exact h.positive
  · have more : (M.signers s).length ≤ (M.signers s').length :=
      (List.subperm_of_subset (M.nodup s) fun x hx => (members x).2 (.inl hx)).length_le
    rw [threshold]
    exact Nat.le_trans h.reached more

theorem reachable_remove (h : M.Reachable s) (hs : M.removeSigners old s = some s') :
    M.Reachable s' := by
  obtain ⟨threshold, members⟩ := M.remove_spec hs
  have able := ((M.remove_isSome old s).1 (Option.isSome_of_eq_some hs)).2.2
  have left : (M.signers s').length = ((M.signers s).filter (· ∉ old)).length := by
    apply length_eq (M.nodup s') ((M.nodup s).filter _)
    intro x
    rw [members, List.mem_filter, decide_eq_true_iff]
  refine ⟨?_, ?_⟩
  · rw [threshold]
    exact h.positive
  · rw [threshold, left]
    exact able

theorem reachable_setThreshold (hs : M.setThreshold t s = some s') : M.Reachable s' := by
  obtain ⟨threshold, signers⟩ := M.setThreshold_spec hs
  have able := (M.setThreshold_isSome t s).1 (Option.isSome_of_eq_some hs)
  refine ⟨?_, ?_⟩
  · rw [threshold]
    exact able.1
  · rw [threshold, signers]
    exact able.2

variable (M) in
/-- Add the new signers, set the threshold, remove the signers there were. -/
def replace (new : List Signer) (t : Nat) (s : M.State) : Option M.State := do
  let added ← M.addSigners new s
  let set ← M.setThreshold t added
  if M.signers s = [] then return set else M.removeSigners (M.signers s) set

/-- The signers of an exchange are the new ones, and the threshold is the new one. -/
theorem replace_spec (h : M.replace new t s = some s') :
    M.threshold s' = t ∧ (∀ x, x ∈ M.signers s' ↔ x ∈ new) ∧ M.Reachable s' := by
  simp only [replace, Option.bind_eq_bind, Option.bind_eq_some_iff] at h
  obtain ⟨added, ha, set, ht, h⟩ := h
  obtain ⟨-, members⟩ := M.add_spec ha
  obtain ⟨threshold, signers⟩ := M.setThreshold_spec ht
  have fresh := ((M.add_isSome new s).1 (Option.isSome_of_eq_some ha)).2
  have reachable := reachable_setThreshold ht
  split at h
  · rename_i none
    cases h
    refine ⟨threshold, fun x => ?_, reachable⟩
    rw [signers, members, none]
    simp
  · obtain ⟨kept, left⟩ := M.remove_spec h
    refine ⟨kept.trans threshold, fun x => ?_, reachable_remove reachable h⟩
    rw [left, signers, members]
    constructor
    · rintro ⟨was | isNew, gone⟩
      · exact absurd was gone
      · exact isNew
    · intro isNew
      exact ⟨.inr isNew, (fresh x isNew).2⟩

/-- An exchange goes through when the new signers are no signers yet and reach the
threshold. -/
theorem replace_isSome (different : new.Nodup) (able : ∀ x ∈ new, M.valid x = true)
    (fresh : ∀ x ∈ new, x ∉ M.signers s) (positive : 0 < t) (reached : t ≤ new.length) :
    (M.replace new t s).isSome = true := by
  have canAdd := (M.add_isSome new s).2 ⟨different, fun x hx => ⟨able x hx, fresh x hx⟩⟩
  obtain ⟨added, ha⟩ := Option.isSome_iff_exists.1 canAdd
  obtain ⟨-, members⟩ := M.add_spec ha
  have enough : t ≤ (M.signers added).length := by
    have more : new.length ≤ (M.signers added).length :=
      (List.subperm_of_subset different fun x hx => (members x).2 (.inr hx)).length_le
    exact Nat.le_trans reached more
  obtain ⟨set, ht⟩ := Option.isSome_iff_exists.1 ((M.setThreshold_isSome t added).2
    ⟨positive, enough⟩)
  obtain ⟨threshold, signers⟩ := M.setThreshold_spec ht
  simp only [replace, ha, ht, Option.bind_eq_bind, Option.bind_some]
  split
  · rfl
  · -- without the old signers just the new ones are left
    have left : ((M.signers set).filter (· ∉ M.signers s)).length = new.length := by
      apply length_eq ((M.nodup set).filter _) different
      intro x
      rw [List.mem_filter, decide_eq_true_iff, signers, members]
      constructor
      · rintro ⟨was | isNew, gone⟩
        · exact absurd was gone
        · exact isNew
      · intro isNew
        exact ⟨.inr isNew, fresh x isNew⟩
    refine (M.remove_isSome _ _).2 ⟨M.nodup s, fun x hx => ?_, ?_⟩
    · rw [signers, members]
      exact .inl hx
    · rw [threshold, left]
      exact reached

/-! ### A list of signers -/

/-- Different signers, and a threshold. -/
structure SignerList (Signer : Type) where
  signers : List Signer
  threshold : Nat
  nodup : signers.Nodup

/-- Signers in a list; `valid` says which ones are accepted. -/
def list (valid : Signer → Bool) : MultiSigner Signer where
  State := SignerList Signer
  empty := ⟨[], 0, List.nodup_nil⟩
  signers := SignerList.signers
  threshold := SignerList.threshold
  valid := valid
  addSigners new s :=
    if h : (s.signers ++ new).Nodup ∧ ∀ x ∈ new, valid x = true then
      some ⟨s.signers ++ new, s.threshold, h.1⟩
    else none
  removeSigners old s :=
    if old.Nodup ∧ (∀ x ∈ old, x ∈ s.signers) ∧
        s.threshold ≤ (s.signers.filter (· ∉ old)).length then
      some ⟨s.signers.filter (· ∉ old), s.threshold, s.nodup.filter _⟩
    else none
  setThreshold t s :=
    if 0 < t ∧ t ≤ s.signers.length then some ⟨s.signers, t, s.nodup⟩ else none
  nodup := SignerList.nodup
  signers_empty := rfl
  threshold_empty := rfl
  add_isSome new s := by
    have disjoint : (s.signers ++ new).Nodup ↔ new.Nodup ∧ ∀ x ∈ new, x ∉ s.signers := by
      rw [List.nodup_append]
      constructor
      · rintro ⟨-, hnew, apart⟩
        exact ⟨hnew, fun x hx hs => apart x hs x hx rfl⟩
      · rintro ⟨hnew, apart⟩
        refine ⟨s.nodup, hnew, ?_⟩
        rintro x hx y hy rfl
        exact apart x hy hx
    split
    · rename_i h
      rw [disjoint] at h
      simp only [Option.isSome_some, true_iff]
      exact ⟨h.1.1, fun x hx => ⟨h.2 x hx, h.1.2 x hx⟩⟩
    · rename_i h
      rw [disjoint] at h
      simp only [Option.isSome_none, Bool.false_eq_true, false_iff]
      rintro ⟨hnew, able⟩
      exact h ⟨⟨hnew, fun x hx => (able x hx).2⟩, fun x hx => (able x hx).1⟩
  add_spec := by
    intro new s s' h
    split at h
    · cases h
      exact ⟨rfl, fun x => List.mem_append⟩
    · cases h
  remove_isSome _ _ := Option.isSome_ite
  remove_spec := by
    intro old s s' h
    split at h
    · cases h
      refine ⟨rfl, fun x => ?_⟩
      rw [List.mem_filter, decide_eq_true_iff]
    · cases h
  setThreshold_isSome _ _ := Option.isSome_ite
  setThreshold_spec := by
    intro t s s' h
    split at h
    · cases h
      exact ⟨rfl, rfl⟩
    · cases h

end MultiSigner

end ParmeliaLinks
