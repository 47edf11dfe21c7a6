/-
ParmeliaLinks/Lib/SqlScript.lean

Scripts of SQL text, as far as the import of rows needs them.  `scan` reads a script
character by character: quoted identifiers and texts end at a quote that is not
doubled, a comment ends with its line, and a NUL ends the script wherever it
stands.  Statements are told apart by their first words (`parse`) and run against a
database with a schema (`Statement.run`); a script is a transaction, and leaves the
database alone when any of its statements fails (`execute`).
-/
import ParmeliaLinks.Lib.Relational

namespace ParmeliaLinks.Sql

open Relational

/-! ### Tokens -/

inductive Token
  | word (t : Text)
  | identifier (t : Text)
  | string (t : Text)
  | blob (t : Text)
  | symbol (c : Char)
  deriving DecidableEq

/-- What a quotation is for. -/
inductive Quotation | identifier | string | blob
  deriving DecidableEq

def Quotation.quote : Quotation → Char
  | .identifier => '"'
  | .string => '\''
  | .blob => '\''

def Quotation.token : Quotation → Text → Token
  | .identifier => .identifier
  | .string => .string
  | .blob => .blob

/-- Where the scanner is.  Texts are collected backwards. -/
inductive Mode
  | ready
  | word (acc : Text)
  | quoted (q : Quotation) (acc : Text)
  /-- After a quote within a quotation. -/
  | quote (q : Quotation) (acc : Text)
  | dash
  | comment
  /-- After a NUL. -/
  | ended
  /-- A quotation that the script does not close. -/
  | broken
  deriving DecidableEq

/-- The tokens of the statement that is being read, and the statements before it, both
backwards. -/
structure Scanner where
  mode : Mode
  tokens : List Token
  statements : List (List Token)
  deriving DecidableEq

def isSpace (c : Char) : Bool := c == ' ' || c == '\n' || c == '\t' || c == '\r' || c == '\x0c'

/-- A character of words and numbers. -/
def isWordChar (c : Char) : Bool := c.isAlphanum || c == '_' || c == '$' || decide (0x80 ≤ c.toNat)

/-- The end of a statement; an empty one counts for nothing. -/
def Scanner.close (s : Scanner) : Scanner where
  mode := .ready
  tokens := []
  statements := if s.tokens = [] then s.statements else s.tokens.reverse :: s.statements

def Scanner.push (s : Scanner) (t : Token) : Scanner :=
  { s with mode := .ready, tokens := t :: s.tokens }

/-- A character between tokens. -/
def Scanner.start (s : Scanner) (c : Char) : Scanner :=
  if c = '\x00' then { s with mode := .ended }
  else if isSpace c then s
  else if isWordChar c then { s with mode := .word [c] }
  else if c = '"' then { s with mode := .quoted .identifier [] }
  else if c = '\'' then { s with mode := .quoted .string [] }
  else if c = '-' then { s with mode := .dash }
  else if c = ';' then s.close
  else s.push (.symbol c)

def Scanner.scan (s : Scanner) (c : Char) : Scanner :=
  match s.mode with
  | .ready => s.start c
  | .word acc =>
    if isWordChar c then { s with mode := .word (c :: acc) }
    else if c = '\'' ∧ (acc = ['X'] ∨ acc = ['x']) then { s with mode := .quoted .blob [] }
    else (s.push (.word acc.reverse)).start c
  | .quoted q acc =>
    if c = '\x00' then { s with mode := .broken }
    else if c = q.quote then { s with mode := .quote q acc }
    else { s with mode := .quoted q (c :: acc) }
  | .quote q acc =>
    if c = q.quote then { s with mode := .quoted q (c :: acc) }
    else (s.push (q.token acc.reverse)).start c
  | .dash =>
    if c = '-' then { s with mode := .comment } else (s.push (.symbol '-')).start c
  | .comment =>
    if c = '\n' then { s with mode := .ready }
    else if c = '\x00' then { s with mode := .ended }
    else s
  | .ended => s
  | .broken => s

/-- The statements of a script that has been read to its end. -/
def Scanner.finish (s : Scanner) : Option (List (List Token)) :=
  match s.mode with
  | .ready | .comment | .ended => some s.close.statements.reverse
  | .word acc => some (s.push (.word acc.reverse)).close.statements.reverse
  | .quote q acc => some (s.push (q.token acc.reverse)).close.statements.reverse
  | .dash => some (s.push (.symbol '-')).close.statements.reverse
  | .quoted _ _ | .broken => none

def Scanner.init : Scanner := ⟨.ready, [], []⟩

/-- The statements of a script, token by token. -/
def statements (script : Text) : Option (List (List Token)) :=
  (script.foldl Scanner.scan .init).finish

/-! ### Statements -/

/-- `"c" = n` or `"c" IS NULL`. -/
inductive Condition
  | equals (column : Text) (n : Int)
  | isNull (column : Text)
  deriving DecidableEq

/-- A subquery that counts rows, or a number. -/
inductive Term
  | number (n : Int)
  | count (table : Text) (where_ : List Condition)
  deriving DecidableEq

inductive Expr
  | sum (terms : List Term)
  /-- `CASE WHEN t = n THEN a ELSE b END`. -/
  | case_ (t : Term) (n a b : Int)
  deriving DecidableEq

inductive Statement
  /-- A table with one column of integers that must be `n`. -/
  | create (table column : Text) (n : Int)
  | drop (table : Text)
  | delete (table : Text) (where_ : List Condition)
  | insertSelect (table : Text) (e : Expr)
  | insertValues (table : Text) (columns : List Text) (values : List Value)
  deriving DecidableEq

/-! ### Parsing -/

def word (s : String) : Token := .word s.toList

/-- The tokens after `expected`. -/
def eat : List Token → List Token → Option (List Token)
  | [], ts => some ts
  | _ :: _, [] => none
  | e :: es, t :: ts => if e = t then eat es ts else none

@[simp] theorem eat_append (es ts : List Token) : eat es (es ++ ts) = some ts := by
  induction es with
  | nil => rfl
  | cons e es ih => rw [List.cons_append, eat, if_pos rfl, ih]

def isNumber (t : Text) : Bool := !t.isEmpty && t.all Char.isDigit

/-- A number with an optional sign. -/
def parseNumber : List Token → Option Int
  | [.word t] => if isNumber t then some (decimalValue t) else none
  | [.symbol '-', .word t] => if isNumber t then some (-(decimalValue t : Int)) else none
  | _ => none

def hexValue (c : Char) : Option Nat :=
  if c.isDigit then some (c.toNat - 48)
  else if 'a' ≤ c ∧ c ≤ 'f' then some (c.toNat - 87)
  else if 'A' ≤ c ∧ c ≤ 'F' then some (c.toNat - 55)
  else none

/-- The bytes of a hexadecimal text. -/
def bytes : Text → Option (List UInt8)
  | [] => some []
  | [_] => none
  | a :: b :: rest => do
    let hi ← hexValue a
    let lo ← hexValue b
    let tail ← bytes rest
    return UInt8.ofNat (16 * hi + lo) :: tail

/-- `CAST(blob AS TEXT)`. -/
def textOfBytes (bs : List UInt8) : Option Text :=
  (ByteArray.mk bs.toArray).utf8Decode?.map Array.toList

def parseValue (ts : List Token) : Option Value :=
  match ts with
  | [.string t] => some (.text t)
  | [.word c, .symbol '(', .blob t, .word a, .word k, .symbol ')'] =>
    if c = "CAST".toList ∧ a = "AS".toList ∧ k = "TEXT".toList then
      ((bytes t).bind textOfBytes).map .text
    else none
  | _ => if ts = [word "NULL"] then some .null else (parseNumber ts).map .integer

/-- `COUNT(*)` in parentheses around it, up to the name of the table. -/
def countHead : List Token :=
  [.symbol '(', word "SELECT", word "COUNT", .symbol '(', .symbol '*', .symbol ')', word "FROM"]

def parseCondition : List Token → Option Condition
  | .identifier c :: rest =>
    if rest = [word "IS", word "NULL"] then some (.isNull c)
    else match rest with
      | .symbol '=' :: number => (parseNumber number).map (.equals c)
      | _ => none
  | _ => none

/-- Conditions with `AND` between them. -/
def parseConditions (ts : List Token) : Option (List Condition) :=
  (ts.splitOn (word "AND")).mapM parseCondition

def parseTerm (ts : List Token) : Option Term :=
  match eat countHead ts with
  | none => (parseNumber ts).map .number
  | some rest =>
    match rest with
    | [.identifier t, .symbol ')'] => some (.count t [])
    | .identifier t :: w :: conditions =>
      if w = word "WHERE" ∧ conditions.getLast? = some (.symbol ')') then
        (parseConditions conditions.dropLast).map (.count t)
      else none
    | _ => none

def parseExpr (ts : List Token) : Option Expr :=
  match eat [word "CASE", word "WHEN"] ts with
  | none => ((ts.splitOn (.symbol '+')).mapM parseTerm).map .sum
  | some rest =>
    -- the condition ends at THEN, its number at the last equals sign
    match rest.splitOn (word "THEN") with
    | [condition, branches] =>
      match branches.splitOn (word "ELSE") with
      | [a, b] =>
        if b.getLast? = some (word "END") ∧ condition.length ≥ 2 then do
          let n ← parseNumber [condition.getLastD (.symbol ' ')]
          let t ← parseTerm (condition.take (condition.length - 2))
          let _ ← eat [.symbol '='] (condition.drop (condition.length - 2))
          let a ← parseNumber a
          let b ← parseNumber b.dropLast
          return .case_ t n a b
        else none
      | _ => none
    | _ => none

/-- Names with commas between them. -/
def parseNames (ts : List Token) : Option (List Text) :=
  (ts.splitOn (.symbol ',')).mapM fun chunk =>
    match chunk with
    | [.identifier n] => some n
    | _ => none

def parseValues (ts : List Token) : Option (List Value) :=
  (ts.splitOn (.symbol ',')).mapM parseValue

/-- What follows `INSERT INTO "t"`. -/
def parseInsert (t : Text) (ts : List Token) : Option Statement :=
  match eat [word "SELECT"] ts with
  | some e => (parseExpr e).map (.insertSelect t)
  | none => do
    let inner ← eat [.symbol '('] ts
    let names ← parseNames (inner.takeWhile (· != .symbol ')'))
    let rest ← eat [.symbol ')', word "VALUES", .symbol '(']
      (inner.dropWhile (· != .symbol ')'))
    if rest.getLast? = some (.symbol ')') then
      (parseValues rest.dropLast).map (.insertValues t names)
    else none

/-- What follows `CREATE TABLE "t"`. -/
def parseCreate (t : Text) : List Token → Option Statement
  | .symbol '(' :: .identifier c :: rest => do
    let check ← eat [word "INTEGER", word "NOT", word "NULL", word "CHECK", .symbol '(',
      .identifier c, .symbol '='] rest
    if check.drop (check.length - 2) = [.symbol ')', .symbol ')'] then
      (parseNumber (check.take (check.length - 2))).map (.create t c)
    else none
  | _ => none

def parse : List Token → Option Statement
  | .word w :: .word k :: .identifier t :: rest =>
    if w = "INSERT".toList ∧ k = "INTO".toList then parseInsert t rest
    else if w = "CREATE".toList ∧ k = "TABLE".toList then parseCreate t rest
    else if w = "DROP".toList ∧ k = "TABLE".toList ∧ rest = [] then some (.drop t)
    else if w = "DELETE".toList ∧ k = "FROM".toList then do
      let conditions ← eat [word "WHERE"] rest
      (parseConditions conditions).map (.delete t)
    else none
  | _ => none

/-! ### Running statements -/

/-- The value of a row in the column of a name. -/
def named (t : TableSchema) (r : Row) (name : Text) : Option Value :=
  ((t.columns.map (·.name)).zip r).lookup name

/-- A row satisfies the condition; an unknown column is an error. -/
def Condition.holds (t : TableSchema) (r : Row) : Condition → Option Bool
  | .equals c n => (named t r c).map (· == .integer n)
  | .isNull c => (named t r c).map (· == .null)

def holdAll (t : TableSchema) (r : Row) (cs : List Condition) : Option Bool :=
  (cs.mapM (Condition.holds t r)).map fun bs => bs.all id

def Term.eval (db : Db) : Term → Option Int
  | .number n => some n
  | .count name cs => do
    let t ← db.table name
    let hits ← (db.rows name).mapM fun r => holdAll t r cs
    return hits.count true

def Expr.eval (db : Db) : Expr → Option Int
  | .sum terms => (terms.mapM (Term.eval db)).map List.sum
  | .case_ t n a b => do
    let v ← t.eval db
    return if v = n then a else b

/-- The table that `CREATE TABLE` makes: one column with one admissible number. -/
def guardTable (table column : Text) (n : Int) : TableSchema where
  name := table
  columns := [⟨column, .integer, true, .null⟩]
  primaryKey := []
  unique := []
  foreignKeys := []
  check r := cell r 0 == .integer n
  triggers := []

/-- The row of an insertion that names its columns. -/
def rowOf (t : TableSchema) (names : List Text) (values : List Value) : Row :=
  t.columns.map fun c => ((names.zip values).lookup c.name).getD c.default

def Statement.run (db : Db) : Statement → Option Db
  | .create t c n =>
    if (db.table t).isNone then some { db with tables := db.tables ++ [guardTable t c n] } else none
  | .drop t =>
    if (db.table t).isSome ∧ ∀ t' ∈ db.tables, ∀ k ∈ t'.foreignKeys, k.parent ≠ t then
      some { tables := db.tables.filter fun t' => t'.name != t
             rows := fun n => if n = t then [] else db.rows n }
    else none
  | .delete t cs => do
    let schema ← db.table t
    -- rows that others refer to are not deleted here
    if ∀ t' ∈ db.tables, ∀ k ∈ t'.foreignKeys, k.parent ≠ t then
      let hits ← (db.rows t).mapM fun r => holdAll schema r cs
      return db.setRows t (((db.rows t).zip hits).filterMap fun rh =>
        if rh.2 then none else some rh.1)
    else none
  | .insertSelect t e => do
    let schema ← db.table t
    let v ← e.eval db
    if schema.columns.length = 1 then db.insert schema [.integer v] else none
  | .insertValues t names values => do
    let schema ← db.table t
    if names.length = values.length ∧ ∀ n ∈ names, n ∈ schema.columns.map (·.name) then
      db.insert schema (rowOf schema names values)
    else none

/-- One statement of a script. -/
def step (db : Db) (ts : List Token) : Option Db := do
  let statement ← parse ts
  statement.run db

/-- The statements of a script, one after the other. -/
def runAll (script : Text) (db : Db) : Option Db := do
  let ss ← statements script
  ss.foldlM step db

/-- The script as one transaction: whether it went through, and the database after it. -/
def execute (script : Text) (db : Db) : Bool × Db :=
  match runAll script db with
  | some db' => (true, db')
  | none => (false, db)

end ParmeliaLinks.Sql
