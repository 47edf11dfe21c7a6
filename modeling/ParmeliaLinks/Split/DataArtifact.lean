/-
ParmeliaLinks/Split/DataArtifact.lean

The data-only artifact of the cutover: the text that `exportDataOnly` writes for a
Payments database, and what an engine that runs scripts makes of that text.

The text begins with a guard (a table whose only column must be zero, into which the
number of rows of the business is inserted, and whether the row of
`payment_migration_control` is untouched), removes that row, and goes on with one
insertion for each row, table by table in an order of their references.  Every line is
a list of lexemes that is legible (`render_insertLexemes`, `contents_eq`), so an engine
that is given the text runs the statements that were meant (`runAll_contents`).

The schema is data here; of the schema of the worker only `payment_migration_control`
is spelled out, because the guard names its columns.
-/
import Mathlib.Data.List.Sort
import ParmeliaLinks.Lib.SqlLexemes

namespace ParmeliaLinks.Split

open Relational Sql

/-! ### Names -/

def controlName : Text := "payment_migration_control".toList

def guardName : Text := "_gatopago_import_guard_v1".toList

/-- The table in which migrations are noted; no artifact may mention it. -/
def historyName : Text := "d1_migrations".toList

/-- `CREATE TABLE payment_migration_control`. -/
def paymentMigrationControl : TableSchema where
  name := controlName
  columns := [
    ⟨"id".toList, .integer, true, .null⟩,
    ⟨"legacy_copy_version".toList, .integer, true, .integer 0⟩,
    ⟨"legacy_copy_completed_at".toList, .text, false, .null⟩,
    ⟨"legacy_source_checksum".toList, .text, false, .null⟩,
    ⟨"legacy_target_checksum".toList, .text, false, .null⟩,
    ⟨"created_at".toList, .text, true, .null⟩,
    ⟨"updated_at".toList, .text, true, .null⟩]
  primaryKey := [0]
  unique := []
  foreignKeys := []
  check r := cell r 0 == .integer 1
  triggers := []

/-! ### The export -/

inductive ExportError
  | noControlTable
  | unsafeInteger (n : Int)
  | blocked (names : List Text)
  | migrationHistory

def numberText (n : Int) : Text :=
  if n < 0 then '-' :: decimal n.natAbs else decimal n.natAbs

def ExportError.message : ExportError → Text
  | .noControlTable =>
    "payment_migration_control is required for a guarded Payments import".toList
  | .unsafeInteger n =>
    "Cannot export unsafe SQLite integer ".toList ++ numberText n ++
      "; store it as TEXT before cutover".toList
  | .blocked names =>
    "Cannot create a dependency-safe D1 data import order: ".toList ++
      ([',', ' '] : Text).intercalate names
  | .migrationHistory => "Data-only artifact must never modify Wrangler migration history".toList

def identifier (value : Text) : Text := '"' :: (doubled '"' value ++ ['"'])

/-- `Number.isSafeInteger`. -/
def isSafeInteger (n : Int) : Bool := n.natAbs ≤ 9007199254740991

def sqlValue : Value → Except ExportError Text
  | .null => .ok "NULL".toList
  | .integer n => if isSafeInteger n then .ok (numberText n) else .error (.unsafeInteger n)
  | .text value =>
    if '\x00' ∈ value then
      .ok ("CAST(X'".toList ++ hexText (utf8 value) ++ "' AS TEXT)".toList)
    else .ok ('\'' :: (doubled '\'' value ++ ['\'']))

/-- In the order of the names. -/
def byName (names : List Text) : List Text := names.insertionSort fun a b => ¬ b < a

/-- The table is one of the worker's. -/
def isOwned (name : Text) : Bool :=
  !like "sqlite_%".toList name && !like "_cf_%".toList name && name != historyName

def ownedTables (db : Db) : List Text := byName ((db.tables.map (·.name)).filter isOwned)

/-- The tables of the business. -/
def businessTables (db : Db) : List Text := (ownedTables db).filter (· != controlName)

/-- The other tables that a table refers to, as far as they are known. -/
def dependencies (db : Db) (tableNames : List Text) (name : Text) : List Text :=
  match db.table name with
  | some t => (t.foreignKeys.map (·.parent)).filter fun parent =>
      tableNames.contains parent && parent != name
  | none => []

/-- The tables whose dependencies have all been emitted. -/
def readyTables (db : Db) (tableNames ordered : List Text) : List Text :=
  byName (tableNames.filter fun name =>
    !ordered.contains name && (dependencies db tableNames name).all ordered.contains)

/-- The rounds of `insertionOrder`.  Every round emits a table, so there are no more of them
than tables. -/
def emitReady (db : Db) (tableNames : List Text) :
    Nat → List Text → Except ExportError (List Text)
  | 0, ordered => .ok ordered
  | rounds + 1, ordered =>
    if ordered.length < tableNames.length then
      if (readyTables db tableNames ordered).isEmpty then
        .error (.blocked (tableNames.filter fun name => !ordered.contains name))
      else emitReady db tableNames rounds (ordered ++ readyTables db tableNames ordered)
    else .ok ordered

def insertionOrder (db : Db) (tableNames : List Text) : Except ExportError (List Text) :=
  emitReady db tableNames tableNames.length []

def countOf (name : Text) : Text := "(SELECT COUNT(*) FROM ".toList ++ identifier name ++ [')']

def guardExpression (businessTables : List Text) : Text :=
  if businessTables.isEmpty then ['0']
  else ([' ', '+', ' '] : Text).intercalate (businessTables.map countOf)

/-- What is written before the rows. -/
def preamble (businessTables : List Text) : Text :=
  "-- GatoPago Payments data-only cutover artifact.\n".toList ++
  ("-- Apply payments-worker migrations with Wrangler before importing this file.\n".toList ++
  ("-- BEGIN/COMMIT are intentionally omitted because D1 wraps file imports.\n".toList ++
  ("CREATE TABLE \"_gatopago_import_guard_v1\" ".toList ++
    "(\"must_be_zero\" INTEGER NOT NULL CHECK (\"must_be_zero\" = 0));\n".toList ++
  ("INSERT INTO \"_gatopago_import_guard_v1\" SELECT ".toList ++ guardExpression businessTables ++
    ";\n".toList ++
  ("INSERT INTO \"_gatopago_import_guard_v1\" SELECT CASE WHEN (SELECT COUNT(*) FROM ".toList ++
    "\"payment_migration_control\" WHERE \"id\" = 1 AND \"legacy_copy_version\" = 0 ".toList ++
    "AND \"legacy_copy_completed_at\" IS NULL) = 1 THEN 0 ELSE 1 END;\n".toList ++
  ("DROP TABLE \"_gatopago_import_guard_v1\";\n".toList ++
  ("DELETE FROM \"payment_migration_control\" WHERE \"id\" = 1 ".toList ++
    "AND \"legacy_copy_version\" = 0 AND \"legacy_copy_completed_at\" IS NULL;\n".toList)))))))

/-- The line of a row. -/
def insertLine (t : TableSchema) (row : Relational.Row) : Except ExportError Text := do
  let values ← row.mapM sqlValue
  return "INSERT INTO ".toList ++ identifier t.name ++ " (".toList ++
    ([',', ' '] : Text).intercalate (t.columns.map fun c => identifier c.name) ++
    ") VALUES (".toList ++ ([',', ' '] : Text).intercalate values ++ ");\n".toList

/-- The lines of a table. -/
def tableLines (db : Db) (name : Text) : Except ExportError (List Text) :=
  match db.table name with
  | some t => (db.rows name).mapM (insertLine t)
  | none => .ok []

structure ExportedData where
  contents : Text
  rowCount : Nat
  sha256 : Text

def exportDataOnly (sha256 : Text → Text) (db : Db) : Except ExportError ExportedData := do
  let tableNames := ownedTables db
  if tableNames.contains controlName then
    let order ← insertionOrder db tableNames
    let lines ← order.mapM (tableLines db)
    let contents := preamble (businessTables db) ++ lines.flatten.flatten
    if historyName <:+: contents then throw .migrationHistory
    else return ⟨contents, lines.flatten.length, sha256 contents⟩
  else throw .noControlTable

/-! ### The lines as lexemes -/

def word (s : String) : Lexeme := .word s.toList

/-- `SELECT COUNT(*) FROM` in its parenthesis. -/
def countStart : List Lexeme :=
  [.symbol '(', word "SELECT", .space, word "COUNT", .symbol '(', .symbol '*', .symbol ')', .space,
    word "FROM", .space]

def createLexemes : List Lexeme :=
  [word "CREATE", .space, word "TABLE", .space, .identifier guardName, .space, .symbol '(',
    .identifier "must_be_zero".toList, .space, word "INTEGER", .space, word "NOT", .space,
    word "NULL", .space, word "CHECK", .space, .symbol '(', .identifier "must_be_zero".toList,
    .space, .symbol '=', .space, word "0", .symbol ')', .symbol ')']

def insertStart : List Lexeme :=
  [word "INSERT", .space, word "INTO", .space, .identifier guardName, .space, word "SELECT", .space]

def countLexemes (name : Text) : List Lexeme :=
  countStart ++ ([.identifier name] ++ [.symbol ')'])

def sumLexemes (businessTables : List Text) : List Lexeme :=
  insertStart ++ if businessTables.isEmpty then [word "0"] else
    plusSigns (businessTables.map countLexemes)

/-- The condition on the row of `payment_migration_control`. -/
def untouchedLexemes : List Lexeme :=
  [word "WHERE", .space, .identifier "id".toList, .space, .symbol '=', .space, word "1", .space,
    word "AND", .space, .identifier "legacy_copy_version".toList, .space, .symbol '=', .space,
    word "0", .space, word "AND", .space, .identifier "legacy_copy_completed_at".toList, .space,
    word "IS", .space, word "NULL"]

def caseLexemes : List Lexeme :=
  insertStart ++ ([word "CASE", .space, word "WHEN", .space] ++ (countStart ++
    ([.identifier controlName, .space] ++ (untouchedLexemes ++ [.symbol ')', .space, .symbol '=',
      .space, word "1", .space, word "THEN", .space, word "0", .space, word "ELSE", .space,
      word "1", .space, word "END"]))))

def dropLexemes : List Lexeme :=
  [word "DROP", .space, word "TABLE", .space, .identifier guardName]

def deleteLexemes : List Lexeme :=
  [word "DELETE", .space, word "FROM", .space, .identifier controlName, .space] ++ untouchedLexemes

def rowLexemes (t : TableSchema) (row : Relational.Row) : List Lexeme :=
  [word "INSERT", .space, word "INTO", .space] ++ ([.identifier t.name] ++
    ([.space, .symbol '('] ++ (commas (t.columns.map fun c => [.identifier c.name]) ++
      ([.symbol ')', .space, word "VALUES", .space, .symbol '('] ++
        (commas (row.map valueLexemes) ++ [.symbol ')'])))))

/-- What the guard asks of the row of `payment_migration_control`. -/
def untouched : List Condition :=
  [.equals "id".toList 1, .equals "legacy_copy_version".toList 0,
    .isNull "legacy_copy_completed_at".toList]

theorem writes_create :
    Writes createLexemes (.create guardName "must_be_zero".toList 0) where
  legible := by decide
  some_ := by decide
  parsed := by decide

theorem writes_case :
    Writes caseLexemes (.insertSelect guardName (.case_ (.count controlName untouched) 1 0 1)) where
  legible := by decide
  some_ := by decide
  parsed := by decide

theorem legible_countLexemes {name : Text} (plain : (name.all (· != '\x00')) = true) (c : Char) :
    Legible (countLexemes name) c = true := by
  have start : Legible countStart '"' = true := by decide
  have identifier_ : Legible [.identifier name] ')' = true := by
    simp [Legible, Lexeme.sound, plain, Lexeme.endsAt, first, render]
  unfold countLexemes
  rw [legible_append, legible_append]
  exact Bool.and_eq_true_iff.2 ⟨start, Bool.and_eq_true_iff.2 ⟨identifier_, rfl⟩⟩

theorem first_plusSigns (chunks : List (List Lexeme)) {ls : List Lexeme} {d : Char}
    (begins : ∀ x, first ls x = d) (c : Char) : first (plusSigns (ls :: chunks)) c = d := by
  unfold plusSigns
  cases chunks with
  | nil => simpa using begins c
  | cons next chunks =>
    rw [List.intercalate_cons_cons, List.append_assoc, first_append]
    exact begins _

/-- The sum of the counts, or nothing at all. -/
def countTerms (businessTables : List Text) : List Term :=
  if businessTables.isEmpty then [.number 0] else businessTables.map fun name => .count name []

theorem writes_sum {businessTables : List Text}
    (plain : ∀ name ∈ businessTables, (name.all (· != '\x00')) = true) :
    Writes (sumLexemes businessTables)
      (.insertSelect guardName (.sum (countTerms businessTables))) := by
  unfold sumLexemes countTerms
  cases businessTables with
  | nil => exact ⟨by decide, by decide, by decide⟩
  | cons name names =>
    have start : Legible insertStart '(' = true := by decide
    have sum : Legible (plusSigns ((name :: names).map countLexemes)) ';' = true := by
      refine legible_plusSigns (fun chunk hchunk => ?_) fun chunk hchunk => ?_ <;>
      · obtain ⟨n, hn, rfl⟩ := List.mem_map.1 hchunk
        exact legible_countLexemes (plain n hn) _
    have chunks : ((name :: names).map countLexemes).map tokens =
        (name :: names).map fun n => countHead ++ [Token.identifier n, .symbol ')'] := by
      rw [List.map_map]
      exact List.map_congr_left fun n _ => rfl
    have tokens_ : tokens (insertStart ++ plusSigns ((name :: names).map countLexemes)) =
        countTokens guardName (name :: names) := by
      rw [tokens_append, tokens_plusSigns, chunks]
      rfl
    refine ⟨?_, ?_, ?_⟩
    · rw [if_neg (by simp), legible_append, sum, Bool.and_true, List.map_cons,
        first_plusSigns _ fun _ => rfl]
      exact start
    · rw [if_neg (by simp), tokens_]
      exact List.cons_ne_nil _ _
    · rw [if_neg (by simp), if_neg (by simp), tokens_]
      exact parse_countTokens guardName (List.cons_ne_nil _ _)

theorem writes_drop : Writes dropLexemes (.drop guardName) where
  legible := by decide
  some_ := by decide
  parsed := by decide

theorem writes_delete : Writes deleteLexemes (.delete controlName untouched) where
  legible := by decide
  some_ := by decide
  parsed := by decide

/-- The names of a schema can be written. -/
structure Writable (t : TableSchema) : Prop where
  name : (t.name.all (· != '\x00')) = true
  columns : ∀ c ∈ t.columns, (c.name.all (· != '\x00')) = true
  some_ : t.columns ≠ []

theorem writes_row {t : TableSchema} (writable : Writable t) {row : Relational.Row}
    (some_ : row ≠ []) :
    Writes (rowLexemes t row) (.insertValues t.name (t.columns.map (·.name)) row) := by
  have name : Legible [.identifier t.name] ' ' = true := by
    simp [Legible, Lexeme.sound, writable.name, Lexeme.endsAt, first, render]
  have columns : Legible (commas (t.columns.map fun c => [.identifier c.name])) ')' = true := by
    refine legible_commas (fun chunk hchunk => ?_) fun chunk hchunk => ?_ <;>
    · obtain ⟨c, hc, rfl⟩ := List.mem_map.1 hchunk
      simp [Legible, Lexeme.sound, writable.columns c hc, Lexeme.endsAt, first, render]
  have values : Legible (commas (row.map valueLexemes)) ')' = true := by
    refine legible_commas (fun chunk hchunk => ?_) fun chunk hchunk => ?_
    · obtain ⟨v, -, rfl⟩ := List.mem_map.1 hchunk
      exact legible_valueLexemes v (.inl rfl)
    · obtain ⟨v, -, rfl⟩ := List.mem_map.1 hchunk
      exact legible_valueLexemes v (.inr rfl)
  have tokens_ : tokens (rowLexemes t row) =
      insertTokens t.name (t.columns.map (·.name)) (row.map fun v => tokens (valueLexemes v)) := by
    unfold rowLexemes insertTokens
    simp only [tokens_append, tokens_commas, List.map_map]
    rfl
  have start : Legible [word "INSERT", .space, word "INTO", .space] '"' = true := by decide
  have open_ (c : Char) : Legible [.space, .symbol '('] c = true := rfl
  have middle (c : Char) :
      Legible [.symbol ')', .space, word "VALUES", .space, .symbol '('] c = true :=
    (by decide : Legible [.symbol ')', .space, word "VALUES", .space, .symbol '('] ' ' = true)
  refine ⟨?_, ?_, ?_⟩
  · unfold rowLexemes
    simp only [legible_append, open_, middle, Bool.true_and]
    refine Bool.and_eq_true_iff.2 ⟨start, Bool.and_eq_true_iff.2 ⟨name, ?_⟩⟩
    exact Bool.and_eq_true_iff.2 ⟨columns, Bool.and_eq_true_iff.2 ⟨values, rfl⟩⟩
  · rw [tokens_]
    exact List.cons_ne_nil _ _
  · rw [tokens_]
    refine parse_insertTokens t.name (by simpa using writable.some_) (by simpa using some_)
      (fun chunk hchunk => ?_) ?_
    · obtain ⟨v, -, rfl⟩ := List.mem_map.1 hchunk
      exact comma_not_mem_valueLexemes v
    · rw [List.mapM_map]
      refine (mapM_eq_map (g := id) fun v _ => ?_).trans (by rw [List.map_id])
      exact parseValue_valueLexemes v

/-! ### The text as lexemes -/

def comments : List Text :=
  [" GatoPago Payments data-only cutover artifact.".toList,
    " Apply payments-worker migrations with Wrangler before importing this file.".toList,
    " BEGIN/COMMIT are intentionally omitted because D1 wraps file imports.".toList]

def guardLexemes (businessTables : List Text) : List (List Lexeme) :=
  [createLexemes, sumLexemes businessTables, caseLexemes, dropLexemes, deleteLexemes]

theorem render_insertStart :
    render insertStart = "INSERT INTO \"_gatopago_import_guard_v1\" SELECT ".toList := by
  conv => rhs; rw [String.toList_ofList]
  rfl

theorem render_sumLexemes (businessTables : List Text) :
    render (sumLexemes businessTables) =
      "INSERT INTO \"_gatopago_import_guard_v1\" SELECT ".toList ++
        guardExpression businessTables := by
  unfold sumLexemes guardExpression
  rw [render_append, render_insertStart]
  split
  · rfl
  · have counts : (businessTables.map countLexemes).map render = businessTables.map countOf := by
      rw [List.map_map]
      exact List.map_congr_left fun n _ => rfl
    rw [render_plusSigns, counts]

set_option maxRecDepth 2000 in
theorem line_create : statementLine createLexemes =
    "CREATE TABLE \"_gatopago_import_guard_v1\" ".toList ++
      "(\"must_be_zero\" INTEGER NOT NULL CHECK (\"must_be_zero\" = 0));\n".toList := by
  conv => rhs; rw [String.toList_ofList, String.toList_ofList]
  rfl

set_option maxRecDepth 2000 in
theorem line_case : statementLine caseLexemes =
    "INSERT INTO \"_gatopago_import_guard_v1\" SELECT CASE WHEN (SELECT COUNT(*) FROM ".toList ++
      "\"payment_migration_control\" WHERE \"id\" = 1 AND \"legacy_copy_version\" = 0 ".toList ++
      "AND \"legacy_copy_completed_at\" IS NULL) = 1 THEN 0 ELSE 1 END;\n".toList := by
  conv => rhs; rw [String.toList_ofList, String.toList_ofList, String.toList_ofList]
  rfl

set_option maxRecDepth 2000 in
theorem line_drop : statementLine dropLexemes =
    "DROP TABLE \"_gatopago_import_guard_v1\";\n".toList := by
  conv => rhs; rw [String.toList_ofList]
  rfl

set_option maxRecDepth 2000 in
theorem line_delete : statementLine deleteLexemes =
    "DELETE FROM \"payment_migration_control\" WHERE \"id\" = 1 ".toList ++
      "AND \"legacy_copy_version\" = 0 AND \"legacy_copy_completed_at\" IS NULL;\n".toList := by
  conv => rhs; rw [String.toList_ofList, String.toList_ofList]
  rfl

theorem line_sum (businessTables : List Text) : statementLine (sumLexemes businessTables) =
    "INSERT INTO \"_gatopago_import_guard_v1\" SELECT ".toList ++
      guardExpression businessTables ++ ";\n".toList := by
  rw [statementLine, render_sumLexemes]
  rfl

theorem commentLine_eq {t line : List Char} (h : '-' :: '-' :: (t ++ ['\n']) = line) :
    commentLine (String.ofList t).toList = (String.ofList line).toList := by
  rw [String.toList_ofList, String.toList_ofList]
  exact h

theorem preamble_eq (businessTables : List Text) :
    preamble businessTables = comments.flatMap commentLine ++
      (guardLexemes businessTables).flatMap statementLine := by
  have lines : (guardLexemes businessTables).flatMap statementLine =
      statementLine createLexemes ++ (statementLine (sumLexemes businessTables) ++
      (statementLine caseLexemes ++ (statementLine dropLexemes ++
        statementLine deleteLexemes))) := by
    simp [guardLexemes]
  have head : comments.flatMap commentLine =
      "-- GatoPago Payments data-only cutover artifact.\n".toList ++
      ("-- Apply payments-worker migrations with Wrangler before importing this file.\n".toList ++
      "-- BEGIN/COMMIT are intentionally omitted because D1 wraps file imports.\n".toList) := by
    rw [comments, List.flatMap_cons, List.flatMap_cons, List.flatMap_cons, List.flatMap_nil,
      List.append_nil]
    exact congrArg₂ _ (commentLine_eq rfl)
      (congrArg₂ _ (commentLine_eq rfl) (commentLine_eq rfl))
  rw [lines, head, line_create, line_sum, line_case, line_drop, line_delete, List.append_assoc,
    List.append_assoc]
  rfl

theorem render_signed (n : Int) : render (signed n) = numberText n := by
  unfold signed numberText
  split <;> simp [render, Lexeme.text]

theorem sqlValue_ok {v : Value} {t : Text} (h : sqlValue v = .ok t) :
    t = render (valueLexemes v) := by
  cases v with
  | null =>
    cases h
    rfl
  | integer n =>
    rw [sqlValue] at h
    split at h
    · cases h
      exact (render_signed n).symm
    · cases h
  | text value =>
    rw [sqlValue] at h
    unfold valueLexemes
    dsimp only
    split at h
    · rename_i nul
      cases h
      rw [if_pos nul]
      have bytes : doubled '\'' (hexText (utf8 value)) = hexText (utf8 value) :=
        doubled_plain fun c hc => (hexText_plain _ c hc).2.1
      show _ = "CAST".toList ++ ('(' :: 'X' :: '\'' ::
        ((doubled '\'' (hexText (utf8 value)) ++ ['\'']) ++ (' ' :: ("AS".toList ++ (' ' ::
          ("TEXT".toList ++ [')']))))))
      rw [bytes, List.append_assoc, List.append_assoc]
      rfl
    · rename_i plain
      cases h
      rw [if_neg plain]
      simp [render, Lexeme.text, quoted]

theorem of_mapM_ok {ε α β : Type} {f : α → Except ε β} {g : α → β}
    (h : ∀ a b, f a = .ok b → b = g a) {xs : List α} {ys : List β} (ok : xs.mapM f = .ok ys) :
    ys = xs.map g := by
  induction xs generalizing ys with
  | nil =>
    cases ok
    rfl
  | cons x xs ih =>
    rw [List.mapM_cons] at ok
    cases first : f x with
    | error e =>
      rw [first] at ok
      cases ok
    | ok y =>
      rw [first] at ok
      cases later : xs.mapM f with
      | error e =>
        rw [later] at ok
        cases ok
      | ok zs =>
        rw [later] at ok
        cases ok
        rw [h x y first, ih later]
        rfl

theorem render_identifier (name : Text) : render [.identifier name] = identifier name :=
  List.append_nil _

theorem insertLine_ok {t : TableSchema} {row : Relational.Row} {line : Text}
    (h : insertLine t row = .ok line) : line = statementLine (rowLexemes t row) := by
  unfold insertLine at h
  cases written : row.mapM sqlValue with
  | error e =>
    rw [written] at h
    cases h
  | ok values =>
    rw [written] at h
    cases h
    rw [of_mapM_ok (fun _ _ => sqlValue_ok) written, statementLine]
    unfold rowLexemes
    simp only [render_append, render_commas, List.map_map, List.append_assoc]
    have names : (render ∘ fun c : Column => [Lexeme.identifier c.name]) =
        fun c => identifier c.name := funext fun c => render_identifier c.name
    rw [render_identifier, names]
    rfl

/-! ### The statements of an artifact -/

/-- The rows of the tables, each with the schema of its table. -/
def rowsOf (db : Db) (order : List Text) : List (TableSchema × Relational.Row) :=
  order.flatMap fun name =>
    (db.table name).toList.flatMap fun t => (db.rows name).map fun r => (t, r)

def insertStatement (x : TableSchema × Relational.Row) : Statement :=
  .insertValues x.1.name (x.1.columns.map (·.name)) x.2

def guardStatements (businessTables : List Text) : List Statement :=
  [.create guardName "must_be_zero".toList 0,
    .insertSelect guardName (.sum (countTerms businessTables)),
    .insertSelect guardName (.case_ (.count controlName untouched) 1 0 1), .drop guardName,
    .delete controlName untouched]

theorem tableLines_ok {db : Db} {name : Text} {lines : List Text}
    (h : tableLines db name = .ok lines) :
    lines = (rowsOf db [name]).map fun x => statementLine (rowLexemes x.1 x.2) := by
  unfold tableLines at h
  unfold rowsOf
  cases known : db.table name with
  | none =>
    rw [known] at h
    cases h
    simp [known]
  | some t =>
    rw [known] at h
    rw [of_mapM_ok (fun _ _ => insertLine_ok) h]
    simp [known]

theorem rowsOf_cons (db : Db) (name : Text) (order : List Text) :
    rowsOf db (name :: order) = rowsOf db [name] ++ rowsOf db order := by
  simp [rowsOf]

theorem flatten_rowsOf {α : Type} (db : Db) (order : List Text)
    (f : TableSchema × Relational.Row → List α) :
    (order.map fun name => (rowsOf db [name]).map f).flatten.flatten =
      (rowsOf db order).flatMap f := by
  induction order with
  | nil => rfl
  | cons name order ih =>
    rw [rowsOf_cons, List.flatMap_append, ← ih, List.map_cons, List.flatten_cons,
      List.flatten_append]
    rfl

/-- An artifact that has been written: its tables, their order and its text. -/
theorem exportDataOnly_ok {sha256 : Text → Text} {db : Db} {a : ExportedData}
    (h : exportDataOnly sha256 db = .ok a) :
    controlName ∈ ownedTables db ∧ ∃ order, insertionOrder db (ownedTables db) = .ok order ∧
      a.contents = preamble (businessTables db) ++
        (rowsOf db order).flatMap fun x => statementLine (rowLexemes x.1 x.2) := by
  unfold exportDataOnly at h
  dsimp only at h
  split at h
  · rename_i control
    refine ⟨List.contains_iff_mem.1 control, ?_⟩
    cases ordered : insertionOrder db (ownedTables db) with
    | error e =>
      rw [ordered] at h
      cases h
    | ok order =>
      refine ⟨order, rfl, ?_⟩
      rw [ordered] at h
      simp only [bind, Except.bind] at h
      cases written : order.mapM (tableLines db) with
      | error e =>
        rw [written] at h
        cases h
      | ok lines =>
        rw [written] at h
        dsimp only at h
        split at h
        · cases h
        · cases h
          rw [of_mapM_ok (fun _ _ => tableLines_ok) written, flatten_rowsOf]
  · cases h

def artifactLexemes (db : Db) (order : List Text) : List (List Lexeme) :=
  guardLexemes (businessTables db) ++ (rowsOf db order).map fun x => rowLexemes x.1 x.2

def artifactStatements (db : Db) (order : List Text) : List Statement :=
  guardStatements (businessTables db) ++ (rowsOf db order).map insertStatement

theorem contents_lexemes (db : Db) (order : List Text) :
    preamble (businessTables db) ++
        (rowsOf db order).flatMap (fun x => statementLine (rowLexemes x.1 x.2)) =
      comments.flatMap commentLine ++ (artifactLexemes db order).flatMap statementLine := by
  unfold artifactLexemes
  rw [preamble_eq, List.flatMap_append, List.append_assoc, List.flatMap_map]

/-- The lines are what the parser takes for the statements. -/
theorem writes_artifact {db : Db} (writable : ∀ t ∈ db.tables, Writable t)
    (full : ∀ name, ∀ r ∈ db.rows name, r ≠ []) (order : List Text) :
    List.Forall₂ Writes (artifactLexemes db order) (artifactStatements db order) := by
  have names : ∀ name ∈ businessTables db, (name.all (· != '\x00')) = true := by
    intro name hname
    have owned := (List.mem_filter.1 hname).1
    rw [ownedTables, byName, List.mem_insertionSort, List.mem_filter, List.mem_map] at owned
    obtain ⟨⟨t, ht, rfl⟩, -⟩ := owned
    exact (writable t ht).name
  have rows : List.Forall₂ Writes ((rowsOf db order).map fun x => rowLexemes x.1 x.2)
      ((rowsOf db order).map insertStatement) := by
    rw [List.forall₂_map_left_iff, List.forall₂_map_right_iff, List.forall₂_same]
    intro x hx
    obtain ⟨name, -, hx⟩ := List.mem_flatMap.1 hx
    obtain ⟨t, ht, hx⟩ := List.mem_flatMap.1 hx
    obtain ⟨r, hr, rfl⟩ := List.mem_map.1 hx
    have known := Db.mem_of_table (Option.mem_toList.1 ht)
    exact writes_row (writable t known.1) (full name r hr)
  have guard : List.Forall₂ Writes (guardLexemes (businessTables db))
      (guardStatements (businessTables db)) :=
    .cons writes_create (.cons (writes_sum names) (.cons writes_case (.cons writes_drop
      (.cons writes_delete .nil))))
  exact List.rel_append guard rows

/-- The artifact does what its statements do. -/
theorem runAll_contents {sha256 : Text → Text} {db : Db} {a : ExportedData}
    (h : exportDataOnly sha256 db = .ok a) (writable : ∀ t ∈ db.tables, Writable t)
    (full : ∀ name, ∀ r ∈ db.rows name, r ≠ []) :
    ∃ order, insertionOrder db (ownedTables db) = .ok order ∧ ∀ target : Db,
      runAll a.contents target = (artifactStatements db order).foldlM Statement.run target := by
  obtain ⟨-, order, ordered, contents⟩ := exportDataOnly_ok h
  refine ⟨order, ordered, fun target => ?_⟩
  rw [contents, contents_lexemes]
  exact runAll_script (by decide) (writes_artifact writable full order) target

end ParmeliaLinks.Split
