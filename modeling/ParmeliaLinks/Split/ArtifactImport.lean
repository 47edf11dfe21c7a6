/-
ParmeliaLinks/Split/ArtifactImport.lean

What the artifact of the cutover does to a database that has been migrated.

The guard lets a database through when the tables of the business are empty and the row
of `payment_migration_control` is untouched (`foldlM_guardStatements`); then the rows go
in table by table, which a trigger may still refuse (`foldlM_rows`).  So the import of an
artifact rebuilds the exported tables in a database that was pristine, and otherwise
leaves it alone (`import_artifact`).
-/
import ParmeliaLinks.Split.ArtifactExport

namespace ParmeliaLinks.Split

open Relational Sql

/-! ### Databases that are filled -/

/-- A database that has been migrated: it has the tables of the worker, and perhaps others. -/
structure Migrated (source target : Db) : Prop where
  consistent : Consistent target
  tables : ∀ t ∈ source.tables, t ∈ target.tables
  unguarded : ∀ t ∈ target.tables, t.name ≠ guardName
  unreferenced : ∀ t ∈ target.tables, ∀ k ∈ t.foreignKeys,
    k.parent ≠ controlName ∧ k.parent ≠ guardName

/-- The row of `payment_migration_control` is as the migrations left it. -/
def isUntouched (r : Relational.Row) : Bool :=
  cell r 0 == .integer 1 && cell r 1 == .integer 0 && cell r 2 == .null

/-- There is nothing in the tables of the business, and the control row is untouched. -/
def isPristine (source target : Db) : Bool :=
  ((businessTables source).all fun name => (target.rows name).isEmpty) &&
    (target.rows controlName).countP isUntouched == 1

/-! ### The guard -/

/-- The table of the guard. -/
def guardSchema : TableSchema := guardTable guardName "must_be_zero".toList 0

def guarded (target : Db) : Db := { target with tables := target.tables ++ [guardSchema] }

section Guard

variable {source target : Db}

theorem Migrated.rows_guard (h : Migrated source target) : target.rows guardName = [] :=
  h.consistent.elsewhere guardName h.unguarded

theorem Migrated.table_guard (h : Migrated source target) : target.table guardName = none := by
  refine List.find?_eq_none.2 fun t ht => ?_
  simpa using h.unguarded t ht

theorem Migrated.table (h : Migrated source target) {t : TableSchema} (ht : t ∈ source.tables) :
    target.table t.name = some t := h.consistent.table_eq (h.tables t ht)

theorem table_guarded_self (h : Migrated source target) :
    (guarded target).table guardName = some guardSchema := by
  unfold Db.table guarded
  rw [List.find?_append]
  show (target.table guardName).or _ = _
  rw [h.table_guard]
  have named : (guardSchema.name == guardName) = true := BEq.rfl
  rw [Option.none_or, List.find?_cons, named]

theorem table_guarded (target : Db) {n : Text} (other : n ≠ guardName) :
    (guarded target).table n = target.table n := by
  have last : [guardSchema].find? (fun t => t.name == n) = none :=
    List.find?_cons_of_neg fun same => other (beq_iff_eq.1 same : guardName = n).symm
  unfold Db.table guarded
  rw [List.find?_append, last, Option.or_none]

theorem run_create (h : Migrated source target) :
    Statement.run target (.create guardName "must_be_zero".toList 0) = some (guarded target) := by
  rw [Statement.run, h.table_guard]
  rfl

/-- The guard takes zeros only. -/
theorem insert_guard (db : Db) (v : Int) :
    db.insert guardSchema [.integer v] =
      if v = 0 then some (db.setRows guardName (db.rows guardName ++ [[.integer 0]]))
      else none := by
  have free : ((db.rows guardSchema.name).all fun r => !guardSchema.clash r [.integer v]) = true :=
    List.all_eq_true.2 fun _ _ => rfl
  have accepts : guardSchema.accepts db [.integer v] = decide (v = 0) := by
    rw [Bool.eq_iff_iff, decide_eq_true_eq]
    simp [TableSchema.accepts, TableSchema.admits, guardSchema, guardTable, Column.admits, cell]
  have passes : guardSchema.passes db [.integer v] = true := rfl
  unfold Db.insert
  rw [free, accepts, passes, place_last fun _ _ => rfl, Bool.true_and, Bool.and_true]
  by_cases zero : v = 0
  · rw [if_pos (decide_eq_true zero), if_pos zero, zero]
    rfl
  · rw [if_neg (by simpa using zero), if_neg zero]

/-- A count without conditions. -/
theorem eval_count {db : Db} {t : TableSchema} {name : Text} (known : db.table name = some t) :
    Term.eval db (.count name []) = some ((db.rows name).length : Int) := by
  have all : (db.rows name).mapM (fun r => holdAll t r []) =
      some (List.replicate (db.rows name).length true) := by
    rw [← List.map_const']
    exact mapM_eq_map fun _ _ => rfl
  rw [Term.eval, known]
  show ((db.rows name).mapM (fun r => holdAll t r [])).bind _ = _
  rw [all]
  simp

/-- The number of rows of the business. -/
theorem eval_countTerms {db : Db} {names : List Text}
    (known : ∀ name ∈ names, (db.table name).isSome = true) :
    Expr.eval db (.sum (countTerms names)) =
      some ((names.map fun name => ((db.rows name).length : Int)).sum) := by
  have each (name : Text) (h : name ∈ names) :
      Term.eval db (.count name []) = some ((db.rows name).length : Int) := by
    obtain ⟨t, ht⟩ := Option.isSome_iff_exists.1 (known name h)
    exact eval_count ht
  unfold countTerms
  cases names with
  | nil => rfl
  | cons name names =>
    rw [if_neg (by simp), Expr.eval, List.mapM_map]
    exact congrArg (Option.map List.sum) (mapM_eq_map each)

/-- The row of the control table has its seven columns. -/
theorem holdAll_untouched {r : Relational.Row} (length : r.length = 7) :
    holdAll paymentMigrationControl r untouched = some (isUntouched r) := by
  match r, length with
  | [a, b, c, d, e, x, y], _ =>
    have first : Condition.holds paymentMigrationControl [a, b, c, d, e, x, y]
        (.equals "id".toList 1) = some (a == .integer 1) := rfl
    have second : Condition.holds paymentMigrationControl [a, b, c, d, e, x, y]
        (.equals "legacy_copy_version".toList 0) = some (b == .integer 0) := rfl
    have third : Condition.holds paymentMigrationControl [a, b, c, d, e, x, y]
        (.isNull "legacy_copy_completed_at".toList) = some (c == .null) := rfl
    have all : untouched.mapM (Condition.holds paymentMigrationControl [a, b, c, d, e, x, y]) =
        some [a == .integer 1, b == .integer 0, c == .null] := by
      unfold untouched
      rw [List.mapM_cons, first, List.mapM_cons, second, List.mapM_cons, third]
      rfl
    rw [holdAll, all]
    simp [isUntouched, cell, Bool.and_assoc]

/-- The rows of the control table have all columns. -/
theorem Migrated.length_control (h : Migrated source target) (exportable : Exportable source) :
    ∀ r ∈ target.rows controlName, r.length = 7 := by
  intro r hr
  have accepted := h.consistent.accepted _ (h.tables _ exportable.control) r hr
  simp only [TableSchema.accepts, TableSchema.admits, Bool.and_eq_true, beq_iff_eq] at accepted
  exact accepted.1.1.1.symm

theorem holdAll_control (h : Migrated source target) (exportable : Exportable source) :
    (target.rows controlName).mapM (fun r => holdAll paymentMigrationControl r untouched) =
      some ((target.rows controlName).map isUntouched) :=
  mapM_eq_map fun r hr => holdAll_untouched (h.length_control exportable r hr)

/-- What `CASE` makes of the control table. -/
theorem eval_case (h : Migrated source target) (exportable : Exportable source) {db : Db}
    (known : db.table controlName = some paymentMigrationControl)
    (rows : db.rows controlName = target.rows controlName) :
    Expr.eval db (.case_ (.count controlName untouched) 1 0 1) =
      some (if (target.rows controlName).countP isUntouched = 1 then 0 else 1) := by
  have count : Term.eval db (.count controlName untouched) =
      some (((target.rows controlName).countP isUntouched : Nat) : Int) := by
    rw [Term.eval, known]
    show ((db.rows controlName).mapM
      (fun r => holdAll paymentMigrationControl r untouched)).bind _ = _
    rw [rows, holdAll_control h exportable]
    simp [List.count_eq_countP, List.countP_map, Function.comp_def]
  rw [Expr.eval, count]
  simp

theorem drop_guard (h : Migrated source target) (rows : List Relational.Row) :
    Statement.run ((guarded target).setRows guardName rows) (.drop guardName) = some target := by
  have known : ((guarded target).setRows guardName rows).table guardName = some guardSchema :=
    table_guarded_self h
  have unreferenced : ∀ t ∈ (guarded target).tables, ∀ k ∈ t.foreignKeys, k.parent ≠ guardName := by
    intro t ht k hk
    rcases List.mem_append.1 ht with ht | ht
    · exact (h.unreferenced t ht k hk).2
    · rw [List.mem_singleton.1 ht] at hk
      cases hk
  have others : (target.tables ++ [guardSchema]).filter (fun t => t.name != guardName) =
      target.tables := by
    rw [List.filter_append, List.filter_eq_self.2 fun t ht => bne_iff_ne.2 (h.unguarded t ht)]
    have self : [guardSchema].filter (fun t => t.name != guardName) = [] :=
      List.filter_eq_nil_iff.2 fun t ht => by
        rw [List.mem_singleton.1 ht]
        simp [guardSchema, guardTable]
    rw [self, List.append_nil]
  rw [Statement.run, known, if_pos ⟨rfl, unreferenced⟩]
  apply congrArg
  show Db.mk _ _ = Db.mk target.tables target.rows
  congr 1
  funext n
  by_cases same : n = guardName
  · rw [if_pos same, same, h.rows_guard]
  · rw [if_neg same]
    exact Db.rows_setRows_of_ne _ _ same

theorem filterMap_zip_map {α : Type} (p : α → Bool) (xs : List α) :
    (xs.zip (xs.map p)).filterMap (fun x => if x.2 then none else some x.1) =
      xs.filter fun x => !p x := by
  induction xs with
  | nil => rfl
  | cons x xs ih =>
    rw [List.map_cons, List.zip_cons_cons, List.filterMap_cons, List.filter_cons, ih]
    cases p x <;> rfl

/-- The row of the control table goes away. -/
theorem delete_control (h : Migrated source target) (exportable : Exportable source) :
    Statement.run target (.delete controlName untouched) =
      some (target.setRows controlName
        ((target.rows controlName).filter fun r => !isUntouched r)) := by
  have unreferenced : ∀ t ∈ target.tables, ∀ k ∈ t.foreignKeys, k.parent ≠ controlName :=
    fun t ht k hk => (h.unreferenced t ht k hk).1
  have known : target.table controlName = some paymentMigrationControl :=
    h.table exportable.control
  rw [Statement.run, known]
  show (if ∀ t ∈ target.tables, ∀ k ∈ t.foreignKeys, k.parent ≠ controlName then
    ((target.rows controlName).mapM fun r => holdAll paymentMigrationControl r untouched).bind _
      else none) = _
  rw [if_pos unreferenced, holdAll_control h exportable, Option.bind_some, filterMap_zip_map]
  rfl

/-- A control row that is untouched is the only one. -/
theorem filter_control (h : Migrated source target) (exportable : Exportable source)
    (one : (target.rows controlName).countP isUntouched = 1) :
    ((target.rows controlName).filter fun r => !isUntouched r) = [] := by
  have mem := h.tables _ exportable.control
  have single : (target.rows controlName).length ≤ 1 := by
    have ordered := h.consistent.ordered _ mem
    have accepted := h.consistent.accepted _ mem
    show (target.rows paymentMigrationControl.name).length ≤ 1
    rcases rows : target.rows paymentMigrationControl.name with - | ⟨r, - | ⟨r', rest⟩⟩
    · exact Nat.zero_le _
    · exact Nat.le_refl _
    · -- both are number one
      rw [rows] at ordered accepted
      have clash := ((List.pairwise_cons.1 ordered).1 r' List.mem_cons_self).2
      have id_ : ∀ x ∈ [r, r'], cell x 0 = .integer 1 := by
        intro x hx
        have := accepted x (by simp at hx ⊢; tauto)
        simp only [TableSchema.accepts, Bool.and_eq_true] at this
        exact beq_iff_eq.1 this.1.2
      simp [TableSchema.clash, paymentMigrationControl, cells, id_] at clash
  rcases rows : target.rows controlName with - | ⟨r, - | ⟨r', rest⟩⟩
  · rfl
  · rw [rows] at one
    have untouched_ : isUntouched r = true := by simpa using one
    simp [untouched_]
  · rw [rows] at single
    exact absurd single (by simp)

/-- A sum of lengths is zero when there is nothing in any of the tables. -/
theorem sum_lengths (names : List Text) (rows : Text → List Relational.Row) :
    0 ≤ (names.map fun name => ((rows name).length : Int)).sum ∧
      ((names.map fun name => ((rows name).length : Int)).sum = 0 ↔
        (names.all fun name => (rows name).isEmpty) = true) := by
  induction names with
  | nil => simp
  | cons name names ih =>
    obtain ⟨nonneg, zero⟩ := ih
    rw [List.map_cons, List.sum_cons, List.all_cons, Bool.and_eq_true, ← zero,
      List.isEmpty_iff_length_eq_zero]
    omega

theorem run_insertSelect {db : Db} {e : Expr} {v : Int}
    (known : db.table guardName = some guardSchema) (value : e.eval db = some v) :
    Statement.run db (.insertSelect guardName e) =
      if v = 0 then some (db.setRows guardName (db.rows guardName ++ [[.integer 0]]))
      else none := by
  rw [Statement.run, known, ← insert_guard, value]
  rfl

/-- The guard lets pristine databases through, without their control row. -/
theorem foldlM_guardStatements (h : Migrated source target) (exportable : Exportable source) :
    (guardStatements (businessTables source)).foldlM Statement.run target =
      if isPristine source target then some (target.setRows controlName []) else none := by
  have known : ∀ name ∈ businessTables source, ((guarded target).table name).isSome = true := by
    intro name hname
    obtain ⟨t, ht, rfl⟩ := exists_of_mem_businessTables hname
    rw [table_guarded _ (h.unguarded t (h.tables t ht)), h.table ht]
    rfl
  have controlApart : controlName ≠ guardName := by decide
  have control : ((guarded target).setRows guardName [[.integer 0]]).table controlName =
      some paymentMigrationControl :=
    (table_guarded target controlApart).trans (h.table exportable.control)
  have rows : ((guarded target).setRows guardName [[.integer 0]]).rows controlName =
      target.rows controlName := Db.rows_setRows_of_ne _ _ controlApart
  obtain ⟨-, zero⟩ := sum_lengths (businessTables source) target.rows
  have counts := run_insertSelect (table_guarded_self h) (eval_countTerms known)
  have none_ : (guarded target).rows guardName = [] := h.rows_guard
  rw [none_, List.nil_append] at counts
  have known_ : ((guarded target).setRows guardName [[.integer 0]]).table guardName =
      some guardSchema := table_guarded_self h
  have case_ := run_insertSelect known_ (eval_case h exportable control rows)
  rw [guardStatements, List.foldlM_cons, run_create h, Option.bind_eq_bind, Option.bind_some,
    List.foldlM_cons, counts]
  unfold isPristine
  cases empty : (businessTables source).all fun name => (target.rows name).isEmpty with
  | false =>
    have some_ : ¬ ((businessTables source).map fun name =>
        (((guarded target).rows name).length : Int)).sum = 0 := by
      intro sum
      rw [zero.1 sum] at empty
      cases empty
    rw [if_neg some_]
    rfl
  | true =>
    have sum : ((businessTables source).map fun name =>
        (((guarded target).rows name).length : Int)).sum = 0 := zero.2 empty
    rw [if_pos sum, Option.bind_eq_bind, Option.bind_some, List.foldlM_cons, case_]
    by_cases one : (target.rows controlName).countP isUntouched = 1
    · rw [if_pos one, if_pos rfl, Option.bind_eq_bind, Option.bind_some, List.foldlM_cons,
        Db.setRows_setRows, drop_guard h, Option.bind_eq_bind, Option.bind_some, List.foldlM_cons,
        delete_control h exportable, filter_control h exportable one]
      simp [one]
    · rw [if_neg one, if_neg (by decide)]
      simp [one]

end Guard

/-! ### The rows -/

section Rows

variable {source target db : Db}

theorem lookup_zip {names : List Text} {values : List Value} (once : names.Nodup)
    (length : names.length = values.length) :
    names.map (fun n => (names.zip values).lookup n) = values.map some := by
  induction names generalizing values with
  | nil =>
    rw [List.eq_nil_of_length_eq_zero length.symm]
    rfl
  | cons name names ih =>
    obtain ⟨fresh, once⟩ := List.nodup_cons.1 once
    match values, length with
    | v :: values, length =>
      have rest : names.map (fun n => ((name :: names).zip (v :: values)).lookup n) =
          names.map fun n => (names.zip values).lookup n := by
        refine List.map_congr_left fun n hn => ?_
        have other : (n == name) = false := by
          rw [beq_eq_false_iff_ne]
          rintro rfl
          exact fresh hn
        rw [List.zip_cons_cons, List.lookup_cons, other]
      rw [List.map_cons, List.map_cons, rest, ih once (by simpa using length), List.zip_cons_cons,
        List.lookup_cons_self]

theorem map_getD {α β : Type} {f : α → Option β} {d : α → β} {xs : List α} {ys : List β}
    (h : xs.map f = ys.map some) : xs.map (fun x => (f x).getD (d x)) = ys := by
  induction xs generalizing ys with
  | nil =>
    cases ys with
    | nil => rfl
    | cons y ys => cases h
  | cons x xs ih =>
    cases ys with
    | nil => cases h
    | cons y ys =>
      obtain ⟨first, rest⟩ := List.cons.inj h
      rw [List.map_cons, first, ih rest]
      rfl

/-- A row whose columns are all named is what is inserted. -/
theorem rowOf_columns {t : TableSchema} (once : (t.columns.map (·.name)).Nodup)
    {r : Relational.Row} (length : t.columns.length = r.length) :
    rowOf t (t.columns.map (·.name)) r = r := by
  refine map_getD ?_
  have found := lookup_zip once (by rw [List.length_map, length])
  rw [List.map_map] at found
  exact found

theorem run_insertStatement (exportable : Exportable source) {t : TableSchema}
    (ht : t ∈ source.tables) (known : db.table t.name = some t) {r : Relational.Row}
    (hr : r ∈ source.rows t.name) :
    Statement.run db (insertStatement (t, r)) = db.insert t r := by
  have accepted := exportable.consistent.accepted t ht r hr
  simp only [TableSchema.accepts, TableSchema.admits, Bool.and_eq_true, beq_iff_eq] at accepted
  have length : t.columns.length = r.length := accepted.1.1.1
  have named : (t.columns.map (·.name)).length = r.length ∧
      ∀ n ∈ t.columns.map (·.name), n ∈ t.columns.map (·.name) :=
    ⟨by rw [List.length_map, length], fun _ hn => hn⟩
  rw [insertStatement, Statement.run, known]
  show (if _ then db.insert t (rowOf t _ r) else none) = _
  rw [if_pos named, rowOf_columns (exportable.columns t ht) length]

theorem tables_insert {t : TableSchema} {r : Relational.Row} {db' : Db}
    (h : db.insert t r = some db') : db'.tables = db.tables := by
  unfold Db.insert at h
  split at h
  · cases h
    rfl
  · cases h

theorem tables_insertAll {t : TableSchema} {rows : List Relational.Row} {db' : Db}
    (h : db.insertAll t rows = some db') : db'.tables = db.tables := by
  induction rows generalizing db with
  | nil =>
    cases h
    rfl
  | cons r rows ih =>
    rw [Db.insertAll, List.foldlM_cons] at h
    obtain ⟨db₁, first, rest⟩ := Option.bind_eq_some_iff.1 h
    exact (ih rest).trans (tables_insert first)

theorem foldlM_table (exportable : Exportable source) {t : TableSchema} (ht : t ∈ source.tables)
    (known : db.table t.name = some t) {rows : List Relational.Row}
    (sub : ∀ r ∈ rows, r ∈ source.rows t.name) :
    (rows.map fun r => insertStatement (t, r)).foldlM Statement.run db = db.insertAll t rows := by
  induction rows generalizing db with
  | nil => rfl
  | cons r rows ih =>
    rw [List.map_cons, List.foldlM_cons, Db.insertAll, List.foldlM_cons,
      run_insertStatement exportable ht known (sub r List.mem_cons_self)]
    cases inserted : db.insert t r with
    | none => rfl
    | some db' =>
      have known' : db'.table t.name = some t := by
        rw [Db.table, tables_insert inserted]
        exact known
      exact ih known' fun x hx => sub x (List.mem_cons_of_mem _ hx)

/-- The insertions fill one table after the other. -/
theorem foldlM_rows (exportable : Exportable source) {order : List Text}
    (known : ∀ t ∈ source.tables, db.table t.name = some t)
    (all : ∀ name ∈ order, ∃ t ∈ source.tables, t.name = name) :
    ((rowsOf source order).map insertStatement).foldlM Statement.run db =
      (order.filterMap source.table).foldlM
        (fun db t => db.insertAll t (source.rows t.name)) db := by
  induction order generalizing db with
  | nil => rfl
  | cons name order ih =>
    obtain ⟨t, ht, rfl⟩ := all name List.mem_cons_self
    have schema := exportable.consistent.table_eq ht
    have rows : (rowsOf source [t.name]).map insertStatement =
        (source.rows t.name).map fun r => insertStatement (t, r) := by
      simp [rowsOf, schema]
    rw [rowsOf_cons, List.map_append, List.foldlM_append, rows, List.filterMap_cons_some schema,
      List.foldlM_cons, foldlM_table exportable ht (known t ht) fun _ hr => hr]
    cases inserted : db.insertAll t (source.rows t.name) with
    | none => rfl
    | some db' =>
      refine ih (fun t' ht' => ?_) fun n hn => all n (List.mem_cons_of_mem _ hn)
      rw [Db.table, tables_insertAll inserted]
      exact known t' ht'

/-- The order of the export is one in which the tables can be filled. -/
theorem dependable_of_sorted (exportable : Exportable source) {order before : List Text}
    (all : ∀ name ∈ order, ∃ t ∈ source.tables, t.name = name)
    (sorted : Sorted (dependencies source (ownedTables source)) order before) :
    Dependable (order.filterMap source.table) before := by
  induction order generalizing before with
  | nil => exact True.intro
  | cons name order ih =>
    obtain ⟨known, fresh, later⟩ := sorted
    obtain ⟨t, ht, rfl⟩ := all name List.mem_cons_self
    have schema := exportable.consistent.table_eq ht
    rw [List.filterMap_cons_some schema]
    refine ⟨fun n hn => known n ?_, fresh, ih (fun n hn => all n (List.mem_cons_of_mem _ hn)) later⟩
    obtain ⟨other, referred, t', ht', rfl⟩ := exportable.parents t ht n hn
    have owned : t'.name ∈ ownedTables source := by
      rw [ownedTables, mem_byName, List.mem_filter]
      exact ⟨List.mem_map_of_mem ht', exportable.owned t' ht'⟩
    unfold dependencies
    rw [schema]
    refine List.mem_filter.2 ⟨referred, ?_⟩
    rw [Bool.and_eq_true, List.contains_iff_mem, bne_iff_ne]
    exact ⟨owned, other⟩

end Rows

/-! ### The import -/

/-- The triggers would let all rows pass. -/
def isAdmitted (source : Db) : Bool := source.tables.all fun t => t.admitted source

/-- The exported tables are rebuilt in a database that is pristine, if the triggers let their rows
pass; otherwise nothing happens. -/
theorem import_artifact (sha256 : Text → Text) (source target : Db) (artifact : ExportedData)
    (exportable : Exportable source) (migrated : Migrated source target)
    (exported : exportDataOnly sha256 source = .ok artifact) :
    execute artifact.contents target =
      if isPristine source target && isAdmitted source then
        (true, target.filled source (ownedTables source))
      else (false, target) := by
  obtain ⟨order, ordered, runs⟩ := runAll_contents exported exportable.writable exportable.full
  obtain ⟨sorted, same⟩ := sorted_insertionOrder exportable.nodup_ownedTables ordered
  have all : ∀ name ∈ order, ∃ t ∈ source.tables, t.name = name := fun name hname =>
    exportable.mem_ownedTables.1 ((same name).1 hname)
  have known : ∀ t ∈ source.tables, (target.setRows controlName []).table t.name = some t :=
    fun t ht => migrated.table ht
  have mem {t : TableSchema} : t ∈ order.filterMap source.table ↔ t ∈ source.tables := by
    rw [List.mem_filterMap]
    constructor
    · rintro ⟨name, -, ht⟩
      exact (Db.mem_of_table ht).1
    · intro ht
      exact ⟨t.name, (same _).2 (exportable.mem_ownedTables.2 ⟨t, ht, rfl⟩),
        exportable.consistent.table_eq ht⟩
  have admitted : ((order.filterMap source.table).all fun t => t.admitted source) =
      isAdmitted source := by
    rw [isAdmitted, Bool.eq_iff_iff, List.all_eq_true, List.all_eq_true]
    exact forall_congr' fun t => imp_congr_left mem
  have filled : (target.setRows controlName []).filled source
      ((order.filterMap source.table).map (·.name)) =
        target.filled source (ownedTables source) := by
    have names (n : Text) :
        n ∈ (order.filterMap source.table).map (·.name) ↔ n ∈ ownedTables source := by
      rw [List.mem_map, exportable.mem_ownedTables]
      exact exists_congr fun t => and_congr_left fun _ => mem
    show Db.mk _ _ = Db.mk _ _
    congr 1
    funext n
    show ((target.setRows controlName []).filled source _).rows n =
      (target.filled source (ownedTables source)).rows n
    by_cases owned : n ∈ ownedTables source
    · rw [Db.rows_filled_of_mem ((names n).2 owned), Db.rows_filled_of_mem owned]
    · have other : n ≠ controlName := by
        rintro rfl
        exact owned (exportable.mem_ownedTables.2 ⟨_, exportable.control, rfl⟩)
      rw [Db.rows_filled_of_not_mem fun hn => owned ((names n).1 hn),
        Db.rows_filled_of_not_mem owned]
      exact Db.rows_setRows_of_ne _ _ other
  have emptied (pristine : isPristine source target = true) :
      ∀ t ∈ source.tables, (target.setRows controlName []).rows t.name = [] := by
    intro t ht
    by_cases control : t.name = controlName
    · rw [control, Db.rows_setRows_self]
    · rw [Db.rows_setRows_of_ne _ _ control]
      rw [isPristine, Bool.and_eq_true, List.all_eq_true] at pristine
      refine List.isEmpty_iff.1 (pristine.1 t.name ?_)
      refine List.mem_filter.2 ⟨exportable.mem_ownedTables.2 ⟨t, ht, rfl⟩, ?_⟩
      rw [bne_iff_ne]
      exact control
  have run : runAll artifact.contents target =
      if isPristine source target && isAdmitted source then
        some (target.filled source (ownedTables source)) else none := by
    rw [runs target, artifactStatements, List.foldlM_append,
      foldlM_guardStatements migrated exportable]
    cases pristine : isPristine source target with
    | false => rfl
    | true =>
      rw [if_pos rfl, Option.bind_eq_bind, Option.bind_some, foldlM_rows exportable known all,
        fill exportable.consistent (dependable_of_sorted exportable all sorted)
          (fun t ht => mem.1 ht) (fun n hn => absurd hn List.not_mem_nil) ?_]
      · rw [admitted, Bool.true_and, filled]
      · intro t ht
        exact emptied pristine t (mem.1 ht)
  unfold execute
  rw [run]
  cases isPristine source target && isAdmitted source <;> rfl

/-- The tables of the sample and the history of the migrations, with the control row only. -/
def migratedSample : Db where
  tables := sampleDb.tables ++ [{
    name := historyName
    columns := [⟨"id".toList, .integer, true, .null⟩]
    primaryKey := [0]
    unique := []
    foreignKeys := []
    check := fun _ => true
    triggers := [] }]
  rows name :=
    if name = controlName then sampleDb.rows controlName
    else if name = historyName then [[.integer 1]]
    else []

theorem migrated_migratedSample : Migrated sampleDb migratedSample where
  consistent := {
    distinct := by decide
    ordered := by decide
    accepted := by decide
    elsewhere := by
      intro name other
      have apart : ∀ t ∈ migratedSample.tables, ¬ name = t.name := fun t ht same =>
        other t ht same.symm
      exact (if_neg (apart _ (.head _))).trans
        (if_neg (apart _ (.tail _ (.tail _ (.tail _ (.head _)))))) }
  tables _ ht := List.mem_append_left _ ht
  unguarded := by decide
  unreferenced := by decide

theorem migrated_sampleDb : Migrated sampleDb sampleDb where
  consistent := exportable_sampleDb.consistent
  tables _ ht := ht
  unguarded := by decide
  unreferenced := by decide

/-- The artifact of the sample can be imported once. -/
theorem sampleDb_is_imported : ∃ artifact, exportDataOnly id sampleDb = .ok artifact ∧
    execute artifact.contents migratedSample =
      (true, migratedSample.filled sampleDb (ownedTables sampleDb)) ∧
    execute artifact.contents sampleDb = (false, sampleDb) := by
  obtain ⟨artifact, exported⟩ := exists_artifact id exportable_sampleDb ranked_sampleDb
    allSafe_sampleDb not_mentionsHistory_sampleDb
  have pristine : (isPristine sampleDb migratedSample && isAdmitted sampleDb) = true := by decide
  have filled : (isPristine sampleDb sampleDb && isAdmitted sampleDb) = false := by decide
  have first := import_artifact id sampleDb migratedSample artifact exportable_sampleDb
    migrated_migratedSample exported
  have second := import_artifact id sampleDb sampleDb artifact exportable_sampleDb
    migrated_sampleDb exported
  rw [pristine] at first
  rw [filled] at second
  exact ⟨artifact, exported, first, second⟩

end ParmeliaLinks.Split
