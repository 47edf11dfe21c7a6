/-
ParmeliaLinks/Lib/Relational.lean

Relational databases with a schema that is data.  A column holds integers or
texts; a table has a primary key, further unique keys (some of them only for the
rows that satisfy a condition), references to other tables, checks, and triggers that
refuse an insertion unless another table has a row for it.

A table is read in the order of its primary key, and `Db.rows` keeps it so: a new
row goes to its place.  `Consistent` says that a database satisfies its schema, as far
as a database can be asked: a trigger looks at an insertion only, and what it looked
at may change later.

The rows of a consistent table can be inserted one after the other into an empty one
when the tables that they refer to are filled, provided that the triggers let them pass
now (`insertAll_table`); and so for one table after the other (`fill`).
-/
import Mathlib.Data.List.Pairwise
import ParmeliaLinks.Lib.SqlText

namespace ParmeliaLinks.Relational

/-! ### Values -/

inductive Value
  | null
  | integer (n : Int)
  | text (t : Text)
  deriving DecidableEq

/-- Nulls before integers before texts. -/
def Value.before : Value → Value → Bool
  | .null, .null => false
  | .null, _ => true
  | .integer _, .null => false
  | .integer m, .integer n => decide (m < n)
  | .integer _, .text _ => true
  | .text t, .text u => decide (t < u)
  | .text _, _ => false

/-- The order of keys of several columns. -/
def keyBefore : List Value → List Value → Bool
  | [], [] => false
  | [], _ :: _ => true
  | _ :: _, [] => false
  | a :: as, b :: bs => a.before b || (a == b && keyBefore as bs)

theorem Value.before_irrefl (v : Value) : v.before v = false := by
  cases v <;> simp [Value.before]

theorem keyBefore_irrefl (k : List Value) : keyBefore k k = false := by
  induction k with
  | nil => rfl
  | cons v k ih => simp [keyBefore, Value.before_irrefl, ih]

/-! ### Schemas -/

inductive ColumnType | integer | text
  deriving DecidableEq

structure Column where
  name : Text
  type : ColumnType
  notNull : Bool
  default : Value
  deriving DecidableEq

/-- A row, column by column. -/
abbrev Row := List Value

/-- The value in a column. -/
def cell (r : Row) (i : Nat) : Value := (r[i]?).getD .null

/-- The values in several columns. -/
def cells (r : Row) (is : List Nat) : List Value := is.map (cell r)

structure UniqueKey where
  over_ : List Nat
  applies : Row → Bool

structure ForeignKey where
  from_ : Nat
  parent : Text
  to_ : Nat

/-- `BEFORE INSERT … WHEN NOT EXISTS (SELECT 1 FROM parent WHERE …)`, which aborts. -/
structure Trigger where
  parent : Text
  admits : Row → Row → Bool

structure TableSchema where
  name : Text
  columns : List Column
  primaryKey : List Nat
  unique : List UniqueKey
  foreignKeys : List ForeignKey
  check : Row → Bool
  triggers : List Trigger

structure Db where
  tables : List TableSchema
  rows : Text → List Row

/-- The table of a name. -/
def Db.table (db : Db) (name : Text) : Option TableSchema := db.tables.find? fun t => t.name == name

def Db.setRows (db : Db) (name : Text) (rows : List Row) : Db :=
  { db with rows := fun n => if n = name then rows else db.rows n }

@[simp] theorem Db.tables_setRows (db : Db) (name : Text) (rows : List Row) :
    (db.setRows name rows).tables = db.tables := rfl

@[simp] theorem Db.rows_setRows_self (db : Db) (name : Text) (rows : List Row) :
    (db.setRows name rows).rows name = rows := if_pos rfl

theorem Db.rows_setRows_of_ne (db : Db) {name n : Text} (rows : List Row) (h : n ≠ name) :
    (db.setRows name rows).rows n = db.rows n := if_neg h

@[simp] theorem Db.setRows_setRows (db : Db) (name : Text) (rows rows' : List Row) :
    (db.setRows name rows).setRows name rows' = db.setRows name rows' := by
  unfold Db.setRows
  congr 1
  funext n
  show (if n = name then rows' else if n = name then rows else db.rows n) = _
  split <;> rfl

theorem Db.setRows_self (db : Db) (name : Text) : db.setRows name (db.rows name) = db := by
  unfold Db.setRows
  congr 1
  funext n
  split
  · rename_i same
    rw [same]
  · rfl

/-! ### Constraints -/

/-- The value may stand in the column. -/
def Column.admits (c : Column) : Value → Bool
  | .null => !c.notNull
  | .integer _ => c.type == .integer
  | .text _ => c.type == .text

/-- The row has a value for every column. -/
def TableSchema.admits (t : TableSchema) (r : Row) : Bool :=
  t.columns.length == r.length && (t.columns.zip r).all fun cv => cv.1.admits cv.2

/-- The key columns are the same and none of them is null. -/
def sameKey (is : List Nat) (r r' : Row) : Bool :=
  cells r is == cells r' is && (cells r is).all fun v => v != .null

/-- Two rows of the table collide. -/
def TableSchema.clash (t : TableSchema) (r r' : Row) : Bool :=
  (!t.primaryKey.isEmpty && cells r t.primaryKey == cells r' t.primaryKey) ||
    t.unique.any fun u => u.applies r && u.applies r' && sameKey u.over_ r r'

/-- What the row refers to is there. -/
def ForeignKey.satisfied (db : Db) (k : ForeignKey) (r : Row) : Bool :=
  cell r k.from_ == .null ||
    (db.rows k.parent).any fun r' => cell r' k.to_ == cell r k.from_

/-- The row satisfies the constraints that are about it alone, and its references. -/
def TableSchema.accepts (t : TableSchema) (db : Db) (r : Row) : Bool :=
  t.admits r && t.check r && t.foreignKeys.all fun k => k.satisfied db r

/-- No trigger is in the way of the row. -/
def TableSchema.passes (t : TableSchema) (db : Db) (r : Row) : Bool :=
  t.triggers.all fun g => (db.rows g.parent).any (g.admits r)

/-- A row comes before another one; without a primary key the older one does. -/
def TableSchema.before (t : TableSchema) (r r' : Row) : Bool :=
  t.primaryKey.isEmpty || keyBefore (cells r t.primaryKey) (cells r' t.primaryKey)

/-- The row in its place. -/
def place (t : TableSchema) (r : Row) : List Row → List Row
  | [] => [r]
  | r' :: rest => if t.before r' r then r' :: place t r rest else r :: r' :: rest

/-- `INSERT` of a whole row; `none` when a constraint is violated. -/
def Db.insert (db : Db) (t : TableSchema) (r : Row) : Option Db :=
  if t.passes db r && t.accepts db r && (db.rows t.name).all fun r' => !t.clash r' r then
    some (db.setRows t.name (place t r (db.rows t.name)))
  else none

/-- One insertion after the other. -/
def Db.insertAll (db : Db) (t : TableSchema) (rs : List Row) : Option Db :=
  rs.foldlM (fun db r => db.insert t r) db

/-! ### Consistent databases -/

structure Consistent (db : Db) : Prop where
  /-- No two tables have one name. -/
  distinct : db.tables.Pairwise fun t t' => t.name ≠ t'.name
  /-- A table is in its order, and no two of its rows collide. -/
  ordered : ∀ t ∈ db.tables, (db.rows t.name).Pairwise fun r r' =>
    t.before r r' = true ∧ t.clash r r' = false
  accepted : ∀ t ∈ db.tables, ∀ r ∈ db.rows t.name, t.accepts db r = true
  /-- There are rows in tables only. -/
  elsewhere : ∀ name, (∀ t ∈ db.tables, t.name ≠ name) → db.rows name = []

theorem Consistent.table_eq {db : Db} (h : Consistent db) {t : TableSchema} (ht : t ∈ db.tables) :
    db.table t.name = some t := by
  have distinct := h.distinct
  unfold Db.table
  generalize db.tables = tables at ht distinct ⊢
  induction tables with
  | nil => cases ht
  | cons t' rest ih =>
    obtain ⟨apart, distinct⟩ := List.pairwise_cons.1 distinct
    rcases List.mem_cons.1 ht with rfl | later
    · rw [List.find?_cons_of_pos (by simp)]
    · rw [List.find?_cons_of_neg (by simpa using apart t later)]
      exact ih later distinct

theorem Db.mem_of_table {db : Db} {name : Text} {t : TableSchema} (h : db.table name = some t) :
    t ∈ db.tables ∧ t.name = name :=
  ⟨List.mem_of_find?_eq_some h, by simpa using List.find?_some h⟩

/-- A row after all others goes to the end. -/
theorem place_last {t : TableSchema} {r : Row} {rows : List Row}
    (last : ∀ r' ∈ rows, t.before r' r = true) : place t r rows = rows ++ [r] := by
  induction rows with
  | nil => rfl
  | cons r' rest ih =>
    rw [place, if_pos (last r' List.mem_cons_self),
      ih fun x hx => last x (List.mem_cons_of_mem _ hx)]
    rfl

/-- A row is accepted on account of the tables that it refers to. -/
theorem accepts_congr {db db' : Db} {t : TableSchema}
    (same : ∀ k ∈ t.foreignKeys, db.rows k.parent = db'.rows k.parent) (r : Row) :
    t.accepts db r = t.accepts db' r := by
  unfold TableSchema.accepts
  congr 1
  rw [Bool.eq_iff_iff, List.all_eq_true, List.all_eq_true]
  refine forall₂_congr fun k hk => ?_
  unfold ForeignKey.satisfied
  rw [same k hk]

theorem passes_congr {db db' : Db} {t : TableSchema}
    (same : ∀ g ∈ t.triggers, db.rows g.parent = db'.rows g.parent) (r : Row) :
    t.passes db r = t.passes db' r := by
  unfold TableSchema.passes
  rw [Bool.eq_iff_iff, List.all_eq_true, List.all_eq_true]
  refine forall₂_congr fun g hg => ?_
  rw [same g hg]

/-! ### Filling a database -/

/-- The other tables that a table is about: those that its rows refer to, and those that its
triggers look at. -/
def TableSchema.parents (t : TableSchema) : List Text :=
  t.foreignKeys.map (·.parent) ++ t.triggers.map (·.parent)

/-- Every row of the table would pass its triggers. -/
def TableSchema.admitted (t : TableSchema) (db : Db) : Bool :=
  (db.rows t.name).all fun r => t.passes db r

/-- The database with the rows of the named tables as in `final`. -/
def Db.filled (db final : Db) (names : List Text) : Db :=
  { db with rows := fun n => if names.contains n then final.rows n else db.rows n }

theorem Db.rows_filled_of_mem {db final : Db} {names : List Text} {n : Text} (h : n ∈ names) :
    (db.filled final names).rows n = final.rows n := if_pos (List.contains_iff_mem.2 h)

theorem Db.rows_filled_of_not_mem {db final : Db} {names : List Text} {n : Text} (h : n ∉ names) :
    (db.filled final names).rows n = db.rows n := if_neg (h ∘ List.contains_iff_mem.1)

theorem Db.filled_nil (db final : Db) : db.filled final [] = db := by
  unfold Db.filled
  simp

theorem Db.filled_setRows (db final : Db) (name : Text) (names : List Text) :
    (db.setRows name (final.rows name)).filled final names = db.filled final (name :: names) := by
  unfold Db.filled Db.setRows
  congr 1
  funext n
  by_cases same : n = name
  · simp [same]
  · simp [same]

section Fill

variable {final db : Db} {t : TableSchema}

/-- The tables that `t` is about are filled. -/
def Ready (final db : Db) (t : TableSchema) : Prop :=
  ∀ n ∈ t.parents, n ≠ t.name ∧ db.rows n = final.rows n

theorem Ready.accepts (h : Ready final db t) (r : Row) : t.accepts db r = t.accepts final r :=
  accepts_congr (fun _ hk => (h _ (List.mem_append_left _ (List.mem_map_of_mem hk))).2) r

theorem Ready.passes (h : Ready final db t) (r : Row) : t.passes db r = t.passes final r :=
  passes_congr (fun _ hg => (h _ (List.mem_append_right _ (List.mem_map_of_mem hg))).2) r

theorem Ready.setRows (h : Ready final db t) (rows : List Row) :
    Ready final (db.setRows t.name rows) t := by
  intro n hn
  obtain ⟨other, same⟩ := h n hn
  exact ⟨other, by rw [Db.rows_setRows_of_ne _ _ other, same]⟩

/-- One row of a consistent database, after those before it. -/
theorem insert_next (consistent : Consistent final) (ht : t ∈ final.tables)
    (ready : Ready final db t) {done rest : List Row} {r : Row}
    (split : final.rows t.name = done ++ r :: rest) (so_far : db.rows t.name = done) :
    db.insert t r =
      if t.passes final r then some (db.setRows t.name (done ++ [r])) else none := by
  have apart : ∀ r' ∈ done, t.before r' r = true ∧ t.clash r' r = false := by
    intro r' hr'
    have ordered := consistent.ordered t ht
    rw [split, List.pairwise_append] at ordered
    exact ordered.2.2 r' hr' r List.mem_cons_self
  have accepted : t.accepts db r = true := by
    rw [ready.accepts]
    refine consistent.accepted t ht r ?_
    rw [split]
    exact List.mem_append_right _ List.mem_cons_self
  have free : ((db.rows t.name).all fun r' => !t.clash r' r) = true := by
    rw [so_far, List.all_eq_true]
    intro r' hr'
    rw [(apart r' hr').2]
    rfl
  unfold Db.insert
  rw [accepted, free, ready.passes, so_far, place_last fun r' hr' => (apart r' hr').1,
    Bool.and_true, Bool.and_true]

/-- The rows of a consistent table go into an empty one in their order, if the triggers let
them pass. -/
theorem insertAll_table (consistent : Consistent final) (ht : t ∈ final.tables)
    (ready : Ready final db t) (empty : db.rows t.name = []) :
    db.insertAll t (final.rows t.name) =
      if t.admitted final then some (db.setRows t.name (final.rows t.name)) else none := by
  have go : ∀ rest done, final.rows t.name = done ++ rest →
      (db.setRows t.name done).insertAll t rest =
        if rest.all fun r => t.passes final r then some (db.setRows t.name (done ++ rest))
        else none := by
    intro rest
    induction rest with
    | nil =>
      intro done _
      rw [List.append_nil]
      rfl
    | cons r rest ih =>
      intro done split
      have step := insert_next consistent ht (ready.setRows done) split (Db.rows_setRows_self ..)
      rw [Db.setRows_setRows] at step
      have next := ih (done ++ [r]) (by rw [split, List.append_assoc]; rfl)
      rw [List.append_assoc] at next
      rw [Db.insertAll, List.foldlM_cons, step, List.all_cons]
      cases passes : t.passes final r with
      | true => exact next
      | false => rfl
  have whole := go (final.rows t.name) [] rfl
  rwa [← empty, Db.setRows_self, empty] at whole

/-- Tables in an order in which each comes after those that it is about. -/
def Dependable : List TableSchema → List Text → Prop
  | [], _ => True
  | t :: rest, before => (∀ n ∈ t.parents, n ∈ before) ∧ t.name ∉ before ∧
      Dependable rest (t.name :: before)

theorem Dependable.fresh {order : List TableSchema} {before : List Text}
    (h : Dependable order before) : ∀ t ∈ order, t.name ∉ before := by
  induction order generalizing before with
  | nil => exact fun t ht => absurd ht List.not_mem_nil
  | cons t rest ih =>
    obtain ⟨-, fresh, later⟩ := h
    intro t' ht'
    rcases List.mem_cons.1 ht' with rfl | ht'
    · exact fresh
    · exact fun mem => ih later t' ht' (List.mem_cons_of_mem _ mem)

/-- A consistent database is rebuilt table by table, in empty tables, if the triggers let its
rows pass. -/
theorem fill (consistent : Consistent final) {order : List TableSchema} {before : List Text}
    (dependable : Dependable order before) (known : ∀ t ∈ order, t ∈ final.tables)
    (done : ∀ n ∈ before, db.rows n = final.rows n)
    (empty : ∀ t ∈ order, db.rows t.name = []) :
    order.foldlM (fun db t => db.insertAll t (final.rows t.name)) db =
      if order.all fun t => t.admitted final then
        some (db.filled final (order.map (·.name)))
      else none := by
  induction order generalizing before db with
  | nil =>
    rw [List.map_nil, Db.filled_nil]
    rfl
  | cons t rest ih =>
    obtain ⟨parents, fresh, dependable⟩ := dependable
    have ready : Ready final db t := fun n hn =>
      ⟨fun same => fresh (same ▸ parents n hn), done n (parents n hn)⟩
    rw [List.foldlM_cons, insertAll_table consistent (known t List.mem_cons_self) ready
      (empty t List.mem_cons_self), List.all_cons]
    cases admitted : t.admitted final with
    | false => rfl
    | true =>
      have next : rest.foldlM (fun db t => db.insertAll t (final.rows t.name))
          (db.setRows t.name (final.rows t.name)) = _ :=
        ih dependable (fun t' ht' => known t' (List.mem_cons_of_mem _ ht')) ?_ ?_
      · rw [Db.filled_setRows] at next
        exact next
      · intro n hn
        by_cases same : n = t.name
        · rw [same, Db.rows_setRows_self]
        · rw [Db.rows_setRows_of_ne _ _ same]
          exact done n ((List.mem_cons.1 hn).resolve_left same)
      · intro t' ht'
        have other : t'.name ≠ t.name := fun same =>
          dependable.fresh t' ht' (same ▸ List.mem_cons_self)
        rw [Db.rows_setRows_of_ne _ _ other]
        exact empty t' (List.mem_cons_of_mem _ ht')

end Fill

end ParmeliaLinks.Relational
