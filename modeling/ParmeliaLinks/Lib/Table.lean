/-
ParmeliaLinks/Lib/Table.lean

Tables of a relational database with uniqueness constraints.  `Row.clash` says
when two rows of one table collide on some unique key; a `Table` is the list of
its rows, in order of insertion, with the proof that no two of them clash.  A
table that breaks a constraint therefore cannot be built:

* `insert` and `update` answer `none` where the engine aborts the statement;
* `insertOrIgnore` leaves the table as it was instead;
* `modify` is an update that touches no key, and so cannot fail, nor can `release`,
  which takes rows out of a partial index.

Every update rewrites the rows that match and keeps their order
(`update_rows`, `modify_rows`), so a statement about the rows afterwards is one
about the rows before (`forall_modify`, `forall_insert`).
-/
import Mathlib.Data.List.Basic
import Mathlib.Data.List.Pairwise

namespace ParmeliaLinks

/-- Equality of two nullable columns: `NULL` equals nothing. -/
def sameValue {α : Type} [DecidableEq α] : Option α → Option α → Bool
  | some a, some b => a == b
  | _, _ => false

theorem sameValue_comm {α : Type} [DecidableEq α] (x y : Option α) :
    sameValue x y = sameValue y x := by
  cases x <;> cases y <;> simp [sameValue, Bool.beq_comm]

@[simp] theorem sameValue_some {α : Type} [DecidableEq α] (a b : α) :
    sameValue (some a) (some b) = (a == b) := rfl

/-- The rows of a table and when two of them collide on a unique key. -/
class Row (ρ : Type) where
  clash : ρ → ρ → Bool
  clash_comm : ∀ r r', clash r r' = clash r' r

/-- A table whose rows satisfy the uniqueness constraints. -/
structure Table (ρ : Type) [Row ρ] where
  rows : List ρ
  distinct : rows.Pairwise fun r r' => Row.clash r r' = false

namespace Table

variable {ρ : Type} [Row ρ]

instance : Membership ρ (Table ρ) := ⟨fun t r => r ∈ t.rows⟩

theorem mem_rows {t : Table ρ} {r : ρ} : r ∈ t.rows ↔ r ∈ t := Iff.rfl

instance (t : Table ρ) (p : ρ → Prop) [DecidablePred p] : Decidable (∀ r ∈ t, p r) :=
  inferInstanceAs (Decidable (∀ r ∈ t.rows, p r))

instance (t : Table ρ) (p : ρ → Prop) [DecidablePred p] : Decidable (∃ r ∈ t, p r) :=
  inferInstanceAs (Decidable (∃ r ∈ t.rows, p r))

instance [DecidableEq ρ] (t : Table ρ) (r : ρ) : Decidable (r ∈ t) :=
  inferInstanceAs (Decidable (r ∈ t.rows))

/-- The table without rows. -/
def empty : Table ρ := ⟨[], .nil⟩

@[simp] theorem not_mem_empty (r : ρ) : r ∉ (empty : Table ρ) := List.not_mem_nil

/-- Two rows that clash are one row. -/
theorem eq_of_clash {t : Table ρ} {r r' : ρ} (hr : r ∈ t) (hr' : r' ∈ t)
    (h : Row.clash r r' = true) : r = r' := by
  by_contra hne
  have : Std.Symm fun a b : ρ => Row.clash a b = false :=
    ⟨fun a b hab => (Row.clash_comm b a).trans hab⟩
  have apart := t.distinct.forall hr hr' hne
  simp [h] at apart

/-- At most one row answers a query for rows that clash with each other. -/
theorem length_filter_le_one {t : Table ρ} {p : ρ → Bool}
    (h : ∀ r ∈ t, ∀ r' ∈ t, p r = true → p r' = true → Row.clash r r' = true) :
    (t.rows.filter p).length ≤ 1 := by
  have apart := t.distinct.filter p
  have found : ∀ r ∈ t.rows.filter p, r ∈ t ∧ p r = true := fun r hr => List.mem_filter.1 hr
  match hl : t.rows.filter p with
  | [] => simp
  | [r] => simp
  | r :: r' :: l =>
    rw [hl] at apart found
    obtain ⟨hr, hp⟩ := found r (by simp)
    obtain ⟨hr', hp'⟩ := found r' (by simp)
    have clash := h r hr r' hr' hp hp'
    rw [List.rel_of_pairwise_cons apart (by simp)] at clash
    cases clash

/-- Exactly one does when there is one. -/
theorem length_filter_eq_one {t : Table ρ} {p : ρ → Bool}
    (h : ∀ r ∈ t, ∀ r' ∈ t, p r = true → p r' = true → Row.clash r r' = true) :
    (t.rows.filter p).length = 1 ↔ ∃ r ∈ t, p r = true := by
  constructor
  · intro hl
    obtain ⟨r, hr⟩ := List.exists_mem_of_length_pos (by omega : 0 < (t.rows.filter p).length)
    exact ⟨r, (List.mem_filter.1 hr).1, (List.mem_filter.1 hr).2⟩
  · rintro ⟨r, hr, hp⟩
    have le : (t.rows.filter p).length ≤ 1 := length_filter_le_one h
    have pos : 0 < (t.rows.filter p).length :=
      List.length_pos_of_mem (List.mem_filter.2 ⟨hr, hp⟩)
    omega

@[ext] theorem ext_rows {t t' : Table ρ} (h : t.rows = t'.rows) : t = t' := by
  cases t
  cases t'
  simpa using h

/-! ### Queries -/

/-- `SELECT … WHERE p LIMIT 1`. -/
def find? (t : Table ρ) (p : ρ → Bool) : Option ρ := t.rows.find? p

/-- `SELECT … WHERE p`. -/
def filter (t : Table ρ) (p : ρ → Bool) : List ρ := t.rows.filter p

/-- `EXISTS (SELECT 1 … WHERE p)`. -/
def any (t : Table ρ) (p : ρ → Bool) : Bool := t.rows.any p

theorem mem_of_find? {t : Table ρ} {p : ρ → Bool} {r : ρ} (h : t.find? p = some r) : r ∈ t :=
  List.mem_of_find?_eq_some h

theorem of_find? {t : Table ρ} {p : ρ → Bool} {r : ρ} (h : t.find? p = some r) : p r = true :=
  List.find?_some h

theorem not_of_find?_none {t : Table ρ} {p : ρ → Bool} (h : t.find? p = none) {r : ρ}
    (hr : r ∈ t) : p r = false := by
  simpa using List.find?_eq_none.1 h r hr

/-- A query by a unique key finds the row that has it. -/
theorem find?_of_key {t : Table ρ} {p : ρ → Bool} {r : ρ} (hr : r ∈ t) (hp : p r = true)
    (key : ∀ r', p r' = true → Row.clash r' r = true) : t.find? p = some r := by
  cases e : t.find? p with
  | none => simp [not_of_find?_none e hr] at hp
  | some r' => rw [eq_of_clash (mem_of_find? e) hr (key r' (of_find? e))]

theorem any_eq_true {t : Table ρ} {p : ρ → Bool} : t.any p = true ↔ ∃ r ∈ t, p r = true :=
  List.any_eq_true

theorem any_eq_false {t : Table ρ} {p : ρ → Bool} : t.any p = false ↔ ∀ r ∈ t, p r = false := by
  simp only [any, List.any_eq_false, Bool.not_eq_true]
  exact Iff.rfl

/-! ### Insertion -/

/-- No row of the table collides with `r`. -/
def Fits (t : Table ρ) (r : ρ) : Prop := ∀ r' ∈ t.rows, Row.clash r' r = false

instance (t : Table ρ) (r : ρ) : Decidable (t.Fits r) :=
  inferInstanceAs (Decidable (∀ r' ∈ t.rows, Row.clash r' r = false))

/-- The table with one more row at its end. -/
def push (t : Table ρ) (r : ρ) (h : t.Fits r) : Table ρ where
  rows := t.rows ++ [r]
  distinct := by
    refine List.pairwise_append.2 ⟨t.distinct, List.pairwise_singleton _ _, ?_⟩
    intro r' hr' x hx
    rw [List.mem_singleton.1 hx]
    exact h r' hr'

/-- `INSERT`: abort on a collision. -/
def insert (t : Table ρ) (r : ρ) : Option (Table ρ) :=
  if h : t.Fits r then some (t.push r h) else none

/-- `INSERT OR IGNORE`: leave the table on a collision. -/
def insertOrIgnore (t : Table ρ) (r : ρ) : Table ρ :=
  if h : t.Fits r then t.push r h else t

theorem insert_rows {t t' : Table ρ} {r : ρ} (h : t.insert r = some t') :
    t'.rows = t.rows ++ [r] ∧ t.Fits r := by
  unfold insert at h
  split at h
  · rename_i hfits
    obtain rfl := Option.some.inj h
    exact ⟨rfl, hfits⟩
  · cases h

theorem insertOrIgnore_rows_of_fits {t : Table ρ} {r : ρ} (h : t.Fits r) :
    (t.insertOrIgnore r).rows = t.rows ++ [r] := by
  simp [insertOrIgnore, h, push]

theorem insertOrIgnore_of_not_fits {t : Table ρ} {r : ρ} (h : ¬ t.Fits r) :
    t.insertOrIgnore r = t := by
  simp [insertOrIgnore, h]

theorem mem_of_rows_append {t t' : Table ρ} {r : ρ} (h : t'.rows = t.rows ++ [r]) {r' : ρ} :
    r' ∈ t' ↔ r' ∈ t ∨ r' = r := by
  rw [← mem_rows, h, List.mem_append, List.mem_singleton, mem_rows]

theorem mem_insertOrIgnore_of_mem {t : Table ρ} {r r' : ρ} (h : r' ∈ t) :
    r' ∈ t.insertOrIgnore r := by
  by_cases hr : t.Fits r
  · exact (mem_of_rows_append (insertOrIgnore_rows_of_fits hr)).2 (.inl h)
  · rwa [insertOrIgnore_of_not_fits hr]

theorem mem_or_eq_of_mem_insertOrIgnore {t : Table ρ} {r r' : ρ}
    (h : r' ∈ t.insertOrIgnore r) : r' ∈ t ∨ r' = r := by
  by_cases hr : t.Fits r
  · exact (mem_of_rows_append (insertOrIgnore_rows_of_fits hr)).1 h
  · rw [insertOrIgnore_of_not_fits hr] at h
    exact .inl h

/-! ### Updates -/

/-- The rows after `UPDATE … SET f WHERE p`. -/
def rewritten (t : Table ρ) (p : ρ → Bool) (f : ρ → ρ) : List ρ :=
  t.rows.map fun r => if p r then f r else r

/-- How many rows an update changes. -/
def changes (t : Table ρ) (p : ρ → Bool) : Nat := t.rows.countP p

/-- `UPDATE`: abort when the rewritten rows collide. -/
def update (t : Table ρ) (p : ρ → Bool) (f : ρ → ρ) : Option (Table ρ) :=
  if h : (t.rewritten p f).Pairwise (fun r r' => Row.clash r r' = false) then
    some ⟨t.rewritten p f, h⟩
  else none

/-- The rewriting leaves every unique key as it is. -/
structure KeepsKeys (f : ρ → ρ) : Prop where
  clash_left : ∀ r r', Row.clash (f r) r' = Row.clash r r'

theorem KeepsKeys.clash {f g : ρ → ρ} (hf : KeepsKeys f) (hg : KeepsKeys g) (r r' : ρ) :
    Row.clash (f r) (g r') = Row.clash r r' := by
  rw [hf.clash_left, Row.clash_comm, hg.clash_left, Row.clash_comm]

theorem KeepsKeys.ite {f : ρ → ρ} (hf : KeepsKeys f) (p : ρ → Bool) :
    KeepsKeys fun r => if p r then f r else r := by
  constructor
  intro r r'
  split
  · exact hf.clash_left r r'
  · rfl

/-- `UPDATE` of columns that are part of no key. -/
def modify (t : Table ρ) (p : ρ → Bool) (f : ρ → ρ) (hf : KeepsKeys f) : Table ρ where
  rows := t.rewritten p f
  distinct := List.pairwise_map.2 (t.distinct.imp fun {r r'} h => by
    rw [(hf.ite p).clash (hf.ite p)]; exact h)

@[simp] theorem modify_rows (t : Table ρ) (p : ρ → Bool) (f : ρ → ρ) (hf : KeepsKeys f) :
    (t.modify p f hf).rows = t.rewritten p f := rfl

theorem update_rows {t t' : Table ρ} {p : ρ → Bool} {f : ρ → ρ} (h : t.update p f = some t') :
    t'.rows = t.rewritten p f := by
  unfold update at h
  split at h
  · exact (congrArg Table.rows (Option.some.inj h)).symm
  · cases h

/-- An update goes through when it brings no two rows together. -/
theorem update_eq_some {t : Table ρ} {p : ρ → Bool} {f : ρ → ρ}
    (h : ∀ r ∈ t, ∀ r' ∈ t, Row.clash r r' = false →
      Row.clash (if p r then f r else r) (if p r' then f r' else r') = false) :
    ∃ t', t.update p f = some t' := by
  have apart : (t.rewritten p f).Pairwise fun r r' => Row.clash r r' = false :=
    List.pairwise_map.2 (t.distinct.imp_of_mem fun {r r'} hr hr' => h r hr r' hr')
  exact ⟨⟨t.rewritten p f, apart⟩, by rw [update, dif_pos apart]⟩

/-- An update of rows with one key goes through when no other row stands in their way. -/
theorem update_eq_some_of_key {t : Table ρ} {p : ρ → Bool} {f : ρ → ρ}
    (key : ∀ r ∈ t, ∀ r' ∈ t, p r = true → p r' = true → Row.clash r r' = true)
    (free : ∀ r ∈ t, ∀ r' ∈ t, p r = true → p r' = false → Row.clash (f r) r' = false) :
    ∃ t', t.update p f = some t' := by
  apply update_eq_some
  intro r hr r' hr' apart
  cases hp : p r with
  | true =>
    cases hp' : p r' with
    | true =>
      rw [key r hr r' hr' hp hp'] at apart
      cases apart
    | false => exact free r hr r' hr' hp hp'
  | false =>
    cases hp' : p r' with
    | true =>
      rw [Row.clash_comm]
      exact free r' hr' r hr hp' hp
    | false => exact apart

theorem mem_of_rewritten {t t' : Table ρ} {p : ρ → Bool} {f : ρ → ρ}
    (h : t'.rows = t.rewritten p f) {r : ρ} :
    r ∈ t' ↔ ∃ r₀ ∈ t, (if p r₀ then f r₀ else r₀) = r := by
  rw [← mem_rows, h]
  exact List.mem_map

theorem mem_modify {t : Table ρ} {p : ρ → Bool} {f : ρ → ρ} {hf : KeepsKeys f} {r : ρ} :
    r ∈ t.modify p f hf ↔ ∃ r₀ ∈ t, (if p r₀ then f r₀ else r₀) = r :=
  mem_of_rewritten rfl

/-- An update that takes a flag off leaves it on the rows that it does not match. -/
theorem mem_and_flag (flag : ρ → Bool) {t t' : Table ρ} {p : ρ → Bool} {f : ρ → ρ}
    (h : t'.rows = t.rewritten p f) (off : ∀ r, flag (f r) = false) {r : ρ} :
    r ∈ t' ∧ flag r = true ↔ (r ∈ t ∧ flag r = true) ∧ p r = false := by
  rw [mem_of_rewritten h]
  constructor
  · rintro ⟨⟨r₀, hr₀, rfl⟩, on⟩
    split at on
    · rw [off] at on
      cases on
    · rename_i kept
      rw [if_neg kept]
      exact ⟨⟨hr₀, on⟩, Bool.not_eq_true _ ▸ kept⟩
  · rintro ⟨⟨hr, on⟩, kept⟩
    refine ⟨⟨r, hr, ?_⟩, on⟩
    rw [kept]
    rfl

/-- A query that an update does not disturb finds the row that it found, updated. -/
theorem find?_modify_of {t : Table ρ} {p q : ρ → Bool} {f : ρ → ρ} {hf : KeepsKeys f}
    (h : ∀ r, p r = true → q (f r) = q r) :
    (t.modify p f hf).find? q = (t.find? q).map fun r => if p r then f r else r := by
  rw [find?, modify_rows, rewritten, List.find?_map, find?]
  congr 2
  funext r
  show q (if p r then f r else r) = q r
  split
  · exact h r ‹_›
  · rfl

theorem find?_modify {t : Table ρ} {p q : ρ → Bool} {f : ρ → ρ} {hf : KeepsKeys f}
    (h : ∀ r, q (f r) = q r) :
    (t.modify p f hf).find? q = (t.find? q).map fun r => if p r then f r else r :=
  find?_modify_of fun r _ => h r

/-- A new row is found where no other was. -/
theorem find?_insertOrIgnore {t : Table ρ} {q : ρ → Bool} {r : ρ} (h : t.Fits r) :
    (t.insertOrIgnore r).find? q = (t.find? q).or (if q r then some r else none) := by
  rw [find?, insertOrIgnore_rows_of_fits h, List.find?_append, List.find?_singleton]
  rfl

theorem changes_eq_zero {t : Table ρ} {p : ρ → Bool} : t.changes p = 0 ↔ ∀ r ∈ t, p r = false := by
  simp only [changes, List.countP_eq_zero, Bool.not_eq_true]
  exact Iff.rfl

/-- An update that matches no row changes nothing. -/
theorem rewritten_of_changes_eq_zero {t : Table ρ} {p : ρ → Bool} (f : ρ → ρ)
    (h : t.changes p = 0) : t.rewritten p f = t.rows := by
  rw [changes_eq_zero] at h
  refine (List.map_congr_left fun r hr => ?_).trans (List.map_id t.rows)
  simp [h r hr]

theorem modify_of_changes_eq_zero {t : Table ρ} {p : ρ → Bool} {f : ρ → ρ} {hf : KeepsKeys f}
    (h : t.changes p = 0) : t.modify p f hf = t :=
  ext_rows (rewritten_of_changes_eq_zero f h)

theorem changes_pos {t : Table ρ} {p : ρ → Bool} : 0 < t.changes p ↔ ∃ r ∈ t, p r = true := by
  rw [changes, List.countP_pos_iff]
  exact Iff.rfl

/-- How many rows satisfy `q`, when the update is of one row by its key. -/
theorem countP_rewritten_of_key {t : Table ρ} {p : ρ → Bool} {f : ρ → ρ} (q : ρ → Bool) {r : ρ}
    (hr : r ∈ t) (hp : p r = true) (key : ∀ r', p r' = true → Row.clash r' r = true) :
    (t.rewritten p f).countP q + (if q r then 1 else 0) =
      t.rows.countP q + if q (f r) then 1 else 0 := by
  obtain ⟨before, after, rows⟩ := List.append_of_mem (mem_rows.2 hr)
  have distinct := t.distinct
  rw [rows, List.pairwise_append] at distinct
  obtain ⟨-, pairwise, across⟩ := distinct
  -- no other row is updated, because it would clash with this one
  have same : ∀ l : List ρ, (∀ r' ∈ l, Row.clash r' r = false) →
      (l.map fun r' => if p r' then f r' else r') = l := by
    intro l apart
    refine (List.map_congr_left fun r' hr' => if_neg fun matched => ?_).trans (List.map_id l)
    have clash := key r' matched
    rw [apart r' hr'] at clash
    cases clash
  have first := same before fun r' hr' => across r' hr' r List.mem_cons_self
  have second := same after fun r' hr' => by
    rw [Row.clash_comm]
    exact List.rel_of_pairwise_cons pairwise hr'
  rw [rewritten, rows, List.map_append, List.map_cons, first, second, if_pos hp,
    List.countP_append, List.countP_append, List.countP_cons, List.countP_cons]
  omega

/-- The rewriting may give unique keys up, and takes none. -/
structure FreesKeys (f : ρ → ρ) : Prop where
  clash_left : ∀ r r', Row.clash (f r) r' = true → Row.clash r r' = true

/-- `UPDATE` of columns that only take rows out of a unique index. -/
def release (t : Table ρ) (p : ρ → Bool) (f : ρ → ρ) (hf : FreesKeys f) : Table ρ where
  rows := t.rewritten p f
  distinct := by
    refine List.pairwise_map.2 (t.distinct.imp ?_)
    intro r r' apart
    have left : ∀ r r', Row.clash (if p r then f r else r) r' = true → Row.clash r r' = true := by
      intro r r' h
      split at h
      · exact hf.clash_left r r' h
      · exact h
    rw [← Bool.not_eq_true] at apart ⊢
    intro clash
    apply apart
    have := left r _ clash
    rw [Row.clash_comm] at this ⊢
    exact left r' r this

theorem mem_release {t : Table ρ} {p : ρ → Bool} {f : ρ → ρ} {hf : FreesKeys f} {r : ρ} :
    r ∈ t.release p f hf ↔ ∃ r₀ ∈ t, (if p r₀ then f r₀ else r₀) = r :=
  mem_of_rewritten rfl

/-! ### Upserts -/

/-- `INSERT … ON CONFLICT DO UPDATE SET f`, when `f` touches no key. -/
def upsert (t : Table ρ) (r : ρ) (f : ρ → ρ) (hf : KeepsKeys f) : Table ρ :=
  if h : t.Fits r then t.push r h else t.modify (fun r' => Row.clash r' r) f hf

theorem mem_upsert {t : Table ρ} {r : ρ} {f : ρ → ρ} {hf : KeepsKeys f} {r' : ρ}
    (h : r' ∈ t.upsert r f hf) :
    (r' = r ∧ t.Fits r) ∨ ∃ r₀ ∈ t, (if Row.clash r₀ r then f r₀ else r₀) = r' := by
  unfold upsert at h
  split at h
  · rename_i fits
    rcases (mem_of_rows_append (by exact rfl)).1 h with hold | rfl
    · refine .inr ⟨r', hold, ?_⟩
      rw [if_neg (by rw [fits r' hold]; exact Bool.false_ne_true)]
    · exact .inl ⟨rfl, fits⟩
  · exact .inr (mem_modify.1 h)

/-- A row that was there, after an upsert. -/
theorem mem_upsert_of_mem {t : Table ρ} {r : ρ} {f : ρ → ρ} {hf : KeepsKeys f} {r₀ : ρ}
    (h : r₀ ∈ t) : (if Row.clash r₀ r then f r₀ else r₀) ∈ t.upsert r f hf := by
  unfold upsert
  split
  · rename_i fits
    rw [if_neg (by rw [fits r₀ h]; exact Bool.false_ne_true)]
    exact (mem_of_rows_append (by exact rfl)).2 (.inl h)
  · exact mem_modify.2 ⟨r₀, h, rfl⟩

/-- The row of an upsert, or what became of the one in its way. -/
theorem mem_upsert_self {t : Table ρ} {r : ρ} {f : ρ → ρ} {hf : KeepsKeys f} :
    r ∈ t.upsert r f hf ∨ ∃ r₀ ∈ t, Row.clash r₀ r = true ∧ f r₀ ∈ t.upsert r f hf := by
  by_cases fits : t.Fits r
  · refine .inl ?_
    rw [upsert, dif_pos fits]
    exact (mem_of_rows_append (by exact rfl)).2 (.inr rfl)
  · simp only [Fits, not_forall, Bool.not_eq_false] at fits
    obtain ⟨r₀, h, clash⟩ := fits
    refine .inr ⟨r₀, h, clash, ?_⟩
    have mem : _ ∈ t.upsert r f hf := mem_upsert_of_mem h
    rwa [if_pos clash] at mem

/-- The rows that satisfy `p`, deleted. -/
def delete (t : Table ρ) (p : ρ → Bool) : Table ρ where
  rows := t.rows.filter fun r => !p r
  distinct := t.distinct.filter _

theorem mem_delete {t : Table ρ} {p : ρ → Bool} {r : ρ} :
    r ∈ t.delete p ↔ r ∈ t ∧ p r = false := by
  rw [← mem_rows, delete, List.mem_filter, mem_rows, Bool.not_eq_true']

/-- Every row has gone on to a row related to it by `R`, and every row of the
later table either comes from one or is new. -/
structure Evolves (R : ρ → ρ → Prop) (New : ρ → Prop) (t t' : Table ρ) : Prop where
  forward : ∀ r ∈ t, ∃ r' ∈ t', R r r'
  backward : ∀ r' ∈ t', (∃ r ∈ t, R r r') ∨ New r'

theorem Evolves.rfl {R : ρ → ρ → Prop} {New : ρ → Prop} (hR : ∀ r, R r r) (t : Table ρ) :
    Evolves R New t t where
  forward r hr := ⟨r, hr, hR r⟩
  backward r hr := .inl ⟨r, hr, hR r⟩

theorem Evolves.mono {R R' : ρ → ρ → Prop} {New New' : ρ → Prop} {t t' : Table ρ}
    (h : Evolves R New t t') (hR : ∀ r ∈ t, ∀ r', R r r' → R' r r')
    (hNew : ∀ r', New r' → New' r') : Evolves R' New' t t' where
  forward r hr := by
    obtain ⟨r', hr', hrr'⟩ := h.forward r hr
    exact ⟨r', hr', hR r hr r' hrr'⟩
  backward r' hr' := by
    rcases h.backward r' hr' with ⟨r, hr, hrr'⟩ | hnew
    · exact .inl ⟨r, hr, hR r hr r' hrr'⟩
    · exact .inr (hNew r' hnew)

/-- An update, when it relates each row to what it becomes. -/
theorem evolves_of_rewritten {R : ρ → ρ → Prop} {New : ρ → Prop} {t t' : Table ρ}
    {p : ρ → Bool} {f : ρ → ρ} (h : t'.rows = t.rewritten p f)
    (hR : ∀ r ∈ t, p r = false → R r r) (hf : ∀ r ∈ t, p r = true → R r (f r)) :
    Evolves R New t t' := by
  have moved : ∀ r ∈ t, R r (if p r then f r else r) := by
    intro r hr
    split
    · exact hf r hr ‹_›
    · exact hR r hr (Bool.not_eq_true _ ▸ ‹_›)
  constructor
  · intro r hr
    exact ⟨_, (mem_of_rewritten h).2 ⟨r, hr, rfl⟩, moved r hr⟩
  · intro r' hr'
    obtain ⟨r, hr, rfl⟩ := (mem_of_rewritten h).1 hr'
    exact .inl ⟨r, hr, moved r hr⟩

/-- An insertion. -/
theorem evolves_of_append {R : ρ → ρ → Prop} {New : ρ → Prop} {t t' : Table ρ} {r : ρ}
    (h : t'.rows = t.rows ++ [r]) (hR : ∀ r, R r r) (hnew : New r) : Evolves R New t t' := by
  constructor
  · intro r₀ hr₀
    exact ⟨r₀, (mem_of_rows_append h).2 (.inl hr₀), hR r₀⟩
  · intro r' hr'
    rcases (mem_of_rows_append h).1 hr' with hr' | rfl
    · exact .inl ⟨r', hr', hR r'⟩
    · exact .inr hnew


end Table

end ParmeliaLinks
