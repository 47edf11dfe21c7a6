/-
ParmeliaLinks/Split/ArtifactExport.lean

When the artifact of the cutover can be written.

An artifact that mentions the history of the migrations is refused, wherever it does so:
in the name of a table, in the name of a column or in a text of a row (`mentioned_iff`).
The order of the tables exists when the references between them have no cycle
(`insertionOrder_ok_iff`), and then it has every table once, after those that it refers
to (`sorted_insertionOrder`).  The numbers must be safe.  Nothing else is in the way
(`exportDataOnly_ok_iff`).
-/
import Mathlib.Data.List.Perm.Subperm
import ParmeliaLinks.Lib.SqlMentions
import ParmeliaLinks.Split.DataArtifact

namespace ParmeliaLinks.Split

open Relational Sql

/-! ### The order of the tables -/

/-- Names in an order in which each comes after those that it depends on. -/
def Sorted (deps : Text → List Text) : List Text → List Text → Prop
  | [], _ => True
  | name :: rest, before => (∀ p ∈ deps name, p ∈ before) ∧ name ∉ before ∧
      Sorted deps rest (name :: before)

section Sorted

variable {deps : Text → List Text} {names names' before before' : List Text}

theorem Sorted.congr (same : ∀ n, n ∈ before ↔ n ∈ before') (h : Sorted deps names before) :
    Sorted deps names before' := by
  induction names generalizing before before' with
  | nil => exact True.intro
  | cons name rest ih =>
    obtain ⟨known, fresh, later⟩ := h
    refine ⟨fun p hp => (same p).1 (known p hp), fun mem => fresh ((same name).2 mem),
      ih (fun n => ?_) later⟩
    rw [List.mem_cons, List.mem_cons, same n]

theorem Sorted.append (h : Sorted deps names before)
    (h' : Sorted deps names' (before ++ names)) : Sorted deps (names ++ names') before := by
  induction names generalizing before with
  | nil => exact h'.congr fun n => by rw [List.append_nil]
  | cons name rest ih =>
    obtain ⟨known, fresh, later⟩ := h
    refine ⟨known, fresh, ih later (h'.congr fun n => ?_)⟩
    simp [or_left_comm]

/-- Names without mutual dependencies. -/
theorem Sorted.of_ready (known : ∀ n ∈ names, ∀ p ∈ deps n, p ∈ before)
    (fresh : ∀ n ∈ names, n ∉ before) (once : names.Nodup) : Sorted deps names before := by
  induction names generalizing before with
  | nil => exact True.intro
  | cons name rest ih =>
    obtain ⟨other, once⟩ := List.nodup_cons.1 once
    refine ⟨known name List.mem_cons_self, fresh name List.mem_cons_self,
      ih (fun n hn p hp => ?_) (fun n hn => ?_) once⟩
    · exact List.mem_cons_of_mem _ (known n (List.mem_cons_of_mem _ hn) p hp)
    · intro mem
      rcases List.mem_cons.1 mem with rfl | mem
      · exact other hn
      · exact fresh n (List.mem_cons_of_mem _ hn) mem

theorem Sorted.fresh (h : Sorted deps names before) : ∀ n ∈ names, n ∉ before := by
  induction names generalizing before with
  | nil => exact fun n hn => absurd hn List.not_mem_nil
  | cons name rest ih =>
    obtain ⟨-, fresh, later⟩ := h
    intro n hn
    rcases List.mem_cons.1 hn with rfl | hn
    · exact fresh
    · exact fun mem => ih later n hn (List.mem_cons_of_mem _ mem)

theorem Sorted.nodup (h : Sorted deps names before) : names.Nodup := by
  induction names generalizing before with
  | nil => exact List.nodup_nil
  | cons name rest ih =>
    obtain ⟨-, -, later⟩ := h
    exact List.nodup_cons.2 ⟨fun mem => later.fresh name mem List.mem_cons_self, ih later⟩

end Sorted

theorem mem_byName {names : List Text} {n : Text} : n ∈ byName names ↔ n ∈ names :=
  List.mem_insertionSort _

theorem nodup_byName {names : List Text} (h : names.Nodup) : (byName names).Nodup :=
  (List.perm_insertionSort _ names).nodup_iff.2 h

/-- A round keeps the order, and the rounds come to an end with all tables. -/
theorem emitReady_sorted {db : Db} {tableNames : List Text} (once : tableNames.Nodup) {n : Nat}
    {ordered result : List Text} (enough : tableNames.length ≤ n + ordered.length)
    (sorted : Sorted (dependencies db tableNames) ordered [])
    (known : ∀ name ∈ ordered, name ∈ tableNames)
    (done : emitReady db tableNames n ordered = .ok result) :
    Sorted (dependencies db tableNames) result [] ∧ (∀ name ∈ result, name ∈ tableNames) ∧
      tableNames.length ≤ result.length := by
  induction n generalizing ordered with
  | zero =>
    cases done
    exact ⟨sorted, known, by omega⟩
  | succ n ih =>
    rw [emitReady] at done
    split at done
    · split at done
      · cases done
      · rename_i some_
        have ready {name : Text} (h : name ∈ readyTables db tableNames ordered) :
            name ∈ tableNames ∧ name ∉ ordered ∧
              ∀ p ∈ dependencies db tableNames name, p ∈ ordered := by
          rw [readyTables, mem_byName, List.mem_filter] at h
          simpa [List.all_eq_true] using h
        have added : 0 < (readyTables db tableNames ordered).length := by
          rw [List.length_pos_iff]
          simpa using some_
        refine ih ?_ (sorted.append (.of_ready ?_ ?_ ?_)) ?_ done
        · rw [List.length_append]
          omega
        · exact fun name h p hp => (ready h).2.2 p hp
        · exact fun name h => (ready h).2.1
        · exact nodup_byName (once.filter _)
        · intro name h
          rcases List.mem_append.1 h with h | h
          · exact known name h
          · exact (ready h).1
    · cases done
      exact ⟨sorted, known, by omega⟩

/-- `insertionOrder` has every table once, each after those that it depends on. -/
theorem sorted_insertionOrder {db : Db} {tableNames order : List Text} (once : tableNames.Nodup)
    (done : insertionOrder db tableNames = .ok order) :
    Sorted (dependencies db tableNames) order [] ∧ ∀ n, n ∈ order ↔ n ∈ tableNames := by
  have start : Sorted (dependencies db tableNames) [] [] := True.intro
  obtain ⟨sorted, known, all⟩ := emitReady_sorted once (Nat.le_add_right _ _) start
    (fun _ h => absurd h List.not_mem_nil) done
  have perm : order.Perm tableNames :=
    (List.subperm_of_subset sorted.nodup known).perm_of_length_le all
  exact ⟨sorted, fun n => perm.mem_iff⟩

/-- The references go down some ranking of the tables. -/
def Ranked (db : Db) (tableNames : List Text) : Prop :=
  ∃ rank : Text → Nat, ∀ name ∈ tableNames, ∀ p ∈ dependencies db tableNames name,
    rank p < rank name

theorem known_of_dependencies {db : Db} {tableNames : List Text} {name p : Text}
    (h : p ∈ dependencies db tableNames name) : p ∈ tableNames := by
  unfold dependencies at h
  split at h
  · have kept := (List.mem_filter.1 h).2
    rw [Bool.and_eq_true] at kept
    exact List.contains_iff_mem.1 kept.1
  · cases h

/-- A ranking of the references will do. -/
theorem ranked_of_foreignKeys {db : Db} (rank : Text → Nat)
    (down : ∀ t ∈ db.tables, ∀ k ∈ t.foreignKeys, k.parent ≠ t.name → rank k.parent < rank t.name)
    (tableNames : List Text) : Ranked db tableNames := by
  refine ⟨rank, fun name _ p hp => ?_⟩
  unfold dependencies at hp
  split at hp
  · rename_i t known
    obtain ⟨ht, rfl⟩ := Db.mem_of_table known
    obtain ⟨referred, kept⟩ := List.mem_filter.1 hp
    obtain ⟨k, hk, rfl⟩ := List.mem_map.1 referred
    rw [Bool.and_eq_true, bne_iff_ne] at kept
    exact down t ht k hk kept.2
  · cases hp

/-- With a ranking, a round that has tables left finds one. -/
theorem readyTables_ne_nil {db : Db} {tableNames ordered : List Text} (once : tableNames.Nodup)
    (ranked : Ranked db tableNames) (left : ordered.length < tableNames.length) :
    readyTables db tableNames ordered ≠ [] := by
  obtain ⟨rank, down⟩ := ranked
  intro none_
  -- otherwise all of them are in the order, from the lowest rank on
  have all : ∀ k, ∀ name ∈ tableNames, rank name = k → name ∈ ordered := by
    intro k
    induction k using Nat.strongRecOn with
    | ind k ih =>
      intro name hname same
      by_contra missing
      have ready : name ∈ readyTables db tableNames ordered := by
        rw [readyTables, mem_byName, List.mem_filter]
        refine ⟨hname, ?_⟩
        have deps : ∀ p ∈ dependencies db tableNames name, p ∈ ordered := fun p hp =>
          ih (rank p) (same ▸ down name hname p hp) p (known_of_dependencies hp) rfl
        simpa [List.all_eq_true, missing] using deps
      rw [none_] at ready
      cases ready
  have fewer := (List.subperm_of_subset once fun name hname => all _ name hname rfl).length_le
  omega

theorem emitReady_ok {db : Db} {tableNames : List Text} (once : tableNames.Nodup)
    (ranked : Ranked db tableNames) (n : Nat) (ordered : List Text) :
    ∃ order, emitReady db tableNames n ordered = .ok order := by
  induction n generalizing ordered with
  | zero => exact ⟨ordered, rfl⟩
  | succ n ih =>
    rw [emitReady]
    split
    · rename_i left
      rw [if_neg (by simpa using readyTables_ne_nil once ranked left)]
      exact ih _
    · exact ⟨ordered, rfl⟩

/-- An order is a ranking. -/
theorem ranked_of_sorted {deps : Text → List Text} {names before : List Text}
    (sorted : Sorted deps names before) :
    ∃ rank : Text → Nat, ∀ n ∈ names, ∀ p ∈ deps n, rank p < rank n := by
  induction names generalizing before with
  | nil => exact ⟨fun _ => 0, fun _ h => absurd h List.not_mem_nil⟩
  | cons name rest ih =>
    have fresh := sorted.fresh
    obtain ⟨known, -, later⟩ := sorted
    obtain ⟨rank, down⟩ := ih later
    refine ⟨fun n => if n ∈ before then 0 else rank n + 1, fun n hn p hp => ?_⟩
    dsimp only
    rw [if_neg (fresh n hn)]
    rcases List.mem_cons.1 hn with rfl | hn
    · rw [if_pos (known p hp)]
      exact Nat.succ_pos _
    · have lower := down n hn p hp
      split <;> omega

/-- The order is found when the references have no cycle. -/
theorem insertionOrder_ok_iff {db : Db} {tableNames : List Text} (once : tableNames.Nodup) :
    (∃ order, insertionOrder db tableNames = .ok order) ↔ Ranked db tableNames := by
  constructor
  · rintro ⟨order, ordered⟩
    obtain ⟨sorted, same⟩ := sorted_insertionOrder once ordered
    obtain ⟨rank, down⟩ := ranked_of_sorted sorted
    exact ⟨rank, fun name hname => down name ((same name).2 hname)⟩
  · exact fun ranked => emitReady_ok once ranked _ _

/-! ### Where the history is mentioned -/

theorem history : IsWordPart historyName where
  some_ := by decide
  word := forall_mem_of_all (by decide)

/-- A text without an underscore does not mention the history. -/
theorem not_infix_history {t : Text} (plain : ('_' : Char) ∉ t) : ¬ historyName <:+: t :=
  fun mentioned => plain (mentioned.subset (by decide))

theorem not_infix_comments : ∀ t ∈ comments, ¬ historyName <:+: t := by
  intro t ht
  apply not_infix_history
  unfold comments at ht
  rw [String.toList_ofList, String.toList_ofList, String.toList_ofList] at ht
  revert t
  decide

/-- The statements of the guard that are always the same. -/
theorem not_mentions_fixed :
    ∀ ls ∈ [createLexemes, caseLexemes, dropLexemes, deleteLexemes],
      ¬ Mentions historyName ls := by
  unfold Mentions
  decide

theorem mentions_count (name : Text) :
    Mentions historyName (countLexemes name) ↔ historyName <:+: name := by
  have start : ¬ Mentions historyName countStart := by
    unfold Mentions
    decide
  have close : ¬ Mentions historyName [.symbol ')'] := by
    unfold Mentions
    decide
  unfold countLexemes
  rw [mentions_append, mentions_append, history.mentions_identifier, or_iff_right start,
    or_iff_left close]

theorem mentions_sum (businessTables : List Text) :
    Mentions historyName (sumLexemes businessTables) ↔
      ∃ name ∈ businessTables, historyName <:+: name := by
  have start : ¬ Mentions historyName insertStart := by
    unfold Mentions
    decide
  have zero : ¬ Mentions historyName [word "0"] := by
    unfold Mentions
    decide
  have plus : ¬ Mentions historyName [.space, .symbol '+', .space] := by
    unfold Mentions
    decide
  unfold sumLexemes
  rw [mentions_append, or_iff_right start]
  cases businessTables with
  | nil => simpa using zero
  | cons name names =>
    rw [if_neg (by simp), plusSigns, mentions_intercalate plus]
    simp only [List.mem_map, exists_exists_and_eq_and, mentions_count]

/-- A value that can be read in the artifact, and mentions the history. -/
def Value.MentionsHistory : Value → Prop
  | .text t => '\x00' ∉ t ∧ historyName <:+: t
  | _ => False

instance : ∀ v, Decidable (Value.MentionsHistory v)
  | .null => .isFalse id
  | .integer _ => .isFalse id
  | .text _ => inferInstanceAs (Decidable (_ ∧ _))

theorem not_mentions_signed (n : Int) : ¬ Mentions historyName (signed n) := by
  have digits : ¬ historyName <:+: decimal n.natAbs := by
    refine not_infix_history fun mem => ?_
    have := isDigit_of_mem_decimal mem
    revert this
    decide
  have minus : ¬ historyName <:+: (['-'] : Text) := not_infix_history (by decide)
  unfold signed
  split <;> simpa [Mentions, Lexeme.text, minus] using digits

theorem mentions_value (v : Value) :
    Mentions historyName (valueLexemes v) ↔ Value.MentionsHistory v := by
  cases v with
  | null =>
    refine iff_of_false ?_ id
    unfold Mentions
    decide
  | integer n => exact iff_of_false (not_mentions_signed n) id
  | text t =>
    by_cases nul : '\x00' ∈ t
    · refine iff_of_false ?_ fun h => h.1 nul
      have cast : ¬ Mentions historyName castOpen := by
        unfold Mentions
        decide
      have type : ¬ Mentions historyName castClose := by
        unfold Mentions
        decide
      have blob : ¬ Mentions historyName [.blob (hexText (utf8 t))] := by
        rintro ⟨l, hl, mentioned⟩
        rw [List.mem_singleton.1 hl] at mentioned
        refine not_infix_history ?_ mentioned
        have hex := hexText_plain (utf8 t)
        rw [Lexeme.text, quoted, doubled_plain fun c hc => (hex c hc).2.1]
        simpa using fun mem => (hex '_' mem).2.2 rfl
      rw [valueLexemes_blob nul, mentions_append, mentions_append]
      exact not_or.2 ⟨cast, not_or.2 ⟨blob, type⟩⟩
    · have text : (Lexeme.string t).text = quoted '\'' t ++ [] := (List.append_nil _).symm
      rw [valueLexemes_string nul]
      unfold Mentions Value.MentionsHistory
      simp only [List.mem_singleton, exists_eq_left]
      rw [text, history.infix_quoted (by decide), List.infix_nil, or_iff_left history.some_]
      exact (and_iff_right nul).symm

theorem mentions_row (t : TableSchema) (row : Relational.Row) :
    Mentions historyName (rowLexemes t row) ↔ historyName <:+: t.name ∨
      (∃ c ∈ t.columns, historyName <:+: c.name) ∨ ∃ v ∈ row, Value.MentionsHistory v := by
  have start : ¬ Mentions historyName [word "INSERT", .space, word "INTO", .space] := by
    unfold Mentions
    decide
  have open_ : ¬ Mentions historyName [.space, .symbol '('] := by
    unfold Mentions
    decide
  have middle : ¬ Mentions historyName
      [.symbol ')', .space, word "VALUES", .space, .symbol '('] := by
    unfold Mentions
    decide
  have close : ¬ Mentions historyName [.symbol ')'] := by
    unfold Mentions
    decide
  have comma : ¬ Mentions historyName [.symbol ',', .space] := by
    unfold Mentions
    decide
  unfold rowLexemes commas
  simp only [mentions_append, mentions_intercalate comma, history.mentions_identifier, start,
    open_, middle, close, false_or, or_false, List.mem_map, exists_exists_and_eq_and,
    mentions_value]

/-- The history is mentioned in the name of a table, in the name of a column that has a value, or
in a text. -/
def MentionsHistory (db : Db) : Prop :=
  ∃ t ∈ db.tables, historyName <:+: t.name ∨ ∃ r ∈ db.rows t.name,
    (∃ c ∈ t.columns, historyName <:+: c.name) ∨ ∃ v ∈ r, Value.MentionsHistory v

/-! ### Databases that are exported -/

/-- What the schema of the worker grants, and a database with it. -/
structure Exportable (source : Db) : Prop where
  consistent : Consistent source
  control : paymentMigrationControl ∈ source.tables
  owned : ∀ t ∈ source.tables, isOwned t.name = true
  writable : ∀ t ∈ source.tables, Writable t
  columns : ∀ t ∈ source.tables, (t.columns.map (·.name)).Nodup
  /-- A table refers to others, and its triggers look at tables that it refers to. -/
  parents : ∀ t ∈ source.tables, ∀ n ∈ t.parents, n ≠ t.name ∧
    n ∈ t.foreignKeys.map (·.parent) ∧ ∃ t' ∈ source.tables, t'.name = n

/-! ### The export -/

theorem mapM_ok_iff {ε α β : Type} {f : α → Except ε β} {xs : List α} :
    (∃ ys, xs.mapM f = .ok ys) ↔ ∀ x ∈ xs, ∃ y, f x = .ok y := by
  induction xs with
  | nil => exact iff_of_true ⟨[], rfl⟩ fun _ h => absurd h List.not_mem_nil
  | cons x xs ih =>
    rw [List.mapM_cons, List.forall_mem_cons, ← ih]
    cases f x with
    | error e => exact iff_of_false (fun ⟨_, h⟩ => by cases h) fun ⟨⟨_, h⟩, _⟩ => by cases h
    | ok y =>
      cases xs.mapM f with
      | error e => exact iff_of_false (fun ⟨_, h⟩ => by cases h) fun ⟨_, _, h⟩ => by cases h
      | ok ys => exact iff_of_true ⟨_, rfl⟩ ⟨⟨_, rfl⟩, _, rfl⟩

/-- A number that the script can read. -/
def Value.Safe (v : Value) : Prop := ∀ n, v = .integer n → isSafeInteger n = true

instance : ∀ v, Decidable (Value.Safe v)
  | .null => .isTrue fun _ h => by cases h
  | .integer n => decidable_of_iff (isSafeInteger n = true)
      ⟨fun safe _ h => Value.integer.inj h ▸ safe, fun safe => safe n rfl⟩
  | .text _ => .isTrue fun _ h => by cases h

theorem sqlValue_ok_iff {v : Value} : (∃ t, sqlValue v = .ok t) ↔ Value.Safe v := by
  cases v with
  | null => exact iff_of_true ⟨_, rfl⟩ fun n h => by cases h
  | integer n =>
    rw [sqlValue]
    constructor
    · rintro ⟨t, h⟩ m same
      obtain rfl := Value.integer.inj same
      by_contra big
      rw [if_neg big] at h
      cases h
    · intro safe
      exact ⟨_, if_pos (safe n rfl)⟩
  | text t =>
    refine iff_of_true ?_ fun n h => by cases h
    rw [sqlValue]
    split
    · exact ⟨_, rfl⟩
    · exact ⟨_, rfl⟩

theorem insertLine_ok_iff {t : TableSchema} {row : Relational.Row} :
    (∃ line, insertLine t row = .ok line) ↔ ∀ v ∈ row, Value.Safe v := by
  simp only [← sqlValue_ok_iff, ← mapM_ok_iff]
  unfold insertLine
  cases row.mapM sqlValue with
  | error e => exact iff_of_false (fun ⟨_, h⟩ => by cases h) fun ⟨_, h⟩ => by cases h
  | ok values => exact iff_of_true ⟨_, rfl⟩ ⟨_, rfl⟩

/-- Every number in the database is safe. -/
def AllSafe (db : Db) : Prop := ∀ t ∈ db.tables, ∀ r ∈ db.rows t.name, ∀ v ∈ r, Value.Safe v

section Export

variable {source : Db} {sha256 : Text → Text}

theorem Exportable.full (h : Exportable source) (name : Text) :
    ∀ r ∈ source.rows name, r ≠ [] := by
  rintro r hr rfl
  by_cases known : ∃ t ∈ source.tables, t.name = name
  · obtain ⟨t, ht, rfl⟩ := known
    have accepted := h.consistent.accepted t ht [] hr
    simp only [TableSchema.accepts, TableSchema.admits, Bool.and_eq_true, beq_iff_eq] at accepted
    exact (h.writable t ht).some_ (List.eq_nil_of_length_eq_zero accepted.1.1.1)
  · rw [h.consistent.elsewhere name fun t ht same => known ⟨t, ht, same⟩] at hr
    cases hr

theorem Exportable.mem_ownedTables (h : Exportable source) {name : Text} :
    name ∈ ownedTables source ↔ ∃ t ∈ source.tables, t.name = name := by
  rw [ownedTables, mem_byName, List.mem_filter, List.mem_map]
  constructor
  · exact fun mem => mem.1
  · rintro ⟨t, ht, rfl⟩
    exact ⟨⟨t, ht, rfl⟩, h.owned t ht⟩

theorem Exportable.nodup_ownedTables (h : Exportable source) :
    (ownedTables source).Nodup :=
  nodup_byName ((List.pairwise_map.2 h.consistent.distinct).filter _)

theorem exists_of_mem_businessTables {name : Text} (h : name ∈ businessTables source) :
    ∃ t ∈ source.tables, t.name = name := by
  have owned := (List.mem_filter.1 h).1
  rw [ownedTables, mem_byName, List.mem_filter, List.mem_map] at owned
  exact owned.1

theorem mem_rowsOf {order : List Text} {x : TableSchema × Relational.Row} :
    x ∈ rowsOf source order ↔
      ∃ name ∈ order, source.table name = some x.1 ∧ x.2 ∈ source.rows name := by
  unfold rowsOf
  simp only [List.mem_flatMap, Option.mem_toList, List.mem_map]
  constructor
  · rintro ⟨name, hname, t, ht, r, hr, rfl⟩
    exact ⟨name, hname, ht, hr⟩
  · rintro ⟨name, hname, ht, hr⟩
    exact ⟨name, hname, x.1, ht, x.2, hr, rfl⟩

theorem mentions_guard (names : List Text) :
    (∃ ls ∈ guardLexemes names, Mentions historyName ls) ↔
      ∃ name ∈ names, historyName <:+: name := by
  rw [← mentions_sum]
  have fixed := not_mentions_fixed
  simp only [List.forall_mem_cons, List.not_mem_nil, IsEmpty.forall_iff, implies_true,
    and_true] at fixed
  simp [guardLexemes, fixed]

/-- The text mentions the history where the database does. -/
theorem mentioned_iff (exportable : Exportable source) {order : List Text}
    (same : ∀ n, n ∈ order ↔ n ∈ ownedTables source) :
    historyName <:+: preamble (businessTables source) ++
      (rowsOf source order).flatMap (fun x => statementLine (rowLexemes x.1 x.2)) ↔
    MentionsHistory source := by
  have legible := legible_of_writes
    (writes_artifact exportable.writable exportable.full order)
  have split : (∃ ls ∈ artifactLexemes source order, Mentions historyName ls) ↔
      (∃ name ∈ businessTables source, historyName <:+: name) ∨
        ∃ x ∈ rowsOf source order, Mentions historyName (rowLexemes x.1 x.2) := by
    rw [← mentions_guard]
    simp only [artifactLexemes, List.mem_append, or_and_right, exists_or, List.mem_map,
      exists_exists_and_eq_and]
  rw [contents_lexemes, history.infix_comments not_infix_comments,
    history.infix_statements legible, split]
  simp only [mentions_row]
  constructor
  · rintro (⟨name, hname, mentioned⟩ | ⟨x, hx, mentioned⟩)
    · obtain ⟨t, ht, rfl⟩ := exists_of_mem_businessTables hname
      exact ⟨t, ht, .inl mentioned⟩
    · obtain ⟨name, -, known, hr⟩ := mem_rowsOf.1 hx
      obtain ⟨ht, rfl⟩ := Db.mem_of_table known
      exact ⟨x.1, ht, mentioned.imp_right fun inner => ⟨x.2, hr, inner⟩⟩
  · rintro ⟨t, ht, mentioned | ⟨r, hr, inner⟩⟩
    · refine .inl ⟨t.name, List.mem_filter.2 ⟨exportable.mem_ownedTables.2 ⟨t, ht, rfl⟩, ?_⟩,
        mentioned⟩
      rw [bne_iff_ne]
      intro control
      rw [control] at mentioned
      revert mentioned
      decide
    · refine .inr ⟨(t, r), mem_rowsOf.2 ⟨t.name, ?_, exportable.consistent.table_eq ht, hr⟩,
        .inr inner⟩
      exact (same _).2 (exportable.mem_ownedTables.2 ⟨t, ht, rfl⟩)

theorem tableLines_ok_iff (exportable : Exportable source) {t : TableSchema}
    (ht : t ∈ source.tables) : (∃ lines, tableLines source t.name = .ok lines) ↔
      ∀ r ∈ source.rows t.name, ∀ v ∈ r, Value.Safe v := by
  unfold tableLines
  rw [exportable.consistent.table_eq ht]
  exact mapM_ok_iff.trans (forall₂_congr fun _ _ => insertLine_ok_iff)

/-- What the export needs, step by step. -/
theorem exists_artifact_iff (exportable : Exportable source) :
    (∃ artifact, exportDataOnly sha256 source = .ok artifact) ↔
      ∃ order, insertionOrder source (ownedTables source) = .ok order ∧
        (∃ lines, order.mapM (tableLines source) = .ok lines) ∧
        ¬ historyName <:+: preamble (businessTables source) ++
          (rowsOf source order).flatMap (fun x => statementLine (rowLexemes x.1 x.2)) := by
  have control : (ownedTables source).contains controlName = true :=
    List.contains_iff_mem.2 (exportable.mem_ownedTables.2 ⟨_, exportable.control, rfl⟩)
  unfold exportDataOnly
  dsimp only
  rw [if_pos control]
  cases insertionOrder source (ownedTables source) with
  | error e => exact iff_of_false (fun ⟨_, h⟩ => by cases h) fun ⟨_, h, _⟩ => by cases h
  | ok order =>
    simp only [bind, Except.bind, Except.ok.injEq, exists_eq_left']
    cases written : order.mapM (tableLines source) with
    | error e => exact iff_of_false (fun ⟨_, h⟩ => by cases h) fun ⟨⟨_, h⟩, _⟩ => by cases h
    | ok lines =>
      rw [of_mapM_ok (fun _ _ => tableLines_ok) written]
      dsimp only
      rw [flatten_rowsOf]
      split
      · rename_i mentioned
        exact iff_of_false (fun ⟨_, h⟩ => by cases h) fun h => h.2 mentioned
      · rename_i plain
        exact iff_of_true ⟨_, rfl⟩ ⟨⟨_, rfl⟩, plain⟩

/-- All tables are read when their numbers are safe. -/
theorem mapM_tableLines_ok_iff (exportable : Exportable source) {order : List Text}
    (same : ∀ n, n ∈ order ↔ n ∈ ownedTables source) :
    (∃ lines, order.mapM (tableLines source) = .ok lines) ↔ AllSafe source := by
  rw [mapM_ok_iff]
  constructor
  · intro each t ht
    exact (tableLines_ok_iff exportable ht).1
      (each t.name ((same _).2 (exportable.mem_ownedTables.2 ⟨t, ht, rfl⟩)))
  · intro safe name hname
    obtain ⟨t, ht, rfl⟩ := exportable.mem_ownedTables.1 ((same name).1 hname)
    exact (tableLines_ok_iff exportable ht).2 (safe t ht)

theorem exists_artifact (sha256 : Text → Text) (exportable : Exportable source)
    (ranked : Ranked source (ownedTables source)) (safe : AllSafe source)
    (plain : ¬ MentionsHistory source) :
    ∃ artifact, exportDataOnly sha256 source = .ok artifact := by
  have once := exportable.nodup_ownedTables
  obtain ⟨order, ordered⟩ := (insertionOrder_ok_iff once).2 ranked
  have same := (sorted_insertionOrder once ordered).2
  exact (exists_artifact_iff exportable).2 ⟨order, ordered,
    (mapM_tableLines_ok_iff exportable same).2 safe,
    fun mentioned => plain ((mentioned_iff exportable same).1 mentioned)⟩

/-- The export succeeds when the references have no cycle, the numbers are safe and nothing
mentions the history of the migrations. -/
theorem exportDataOnly_ok_iff (sha256 : Text → Text) (source : Db)
    (exportable : Exportable source) :
    (∃ artifact, exportDataOnly sha256 source = .ok artifact) ↔
      Ranked source (ownedTables source) ∧ AllSafe source ∧ ¬ MentionsHistory source := by
  have once := exportable.nodup_ownedTables
  constructor
  · intro exported
    obtain ⟨order, ordered, written, plain⟩ := (exists_artifact_iff exportable).1 exported
    have same := (sorted_insertionOrder once ordered).2
    exact ⟨(insertionOrder_ok_iff once).1 ⟨order, ordered⟩,
      (mapM_tableLines_ok_iff exportable same).1 written,
      fun mentioned => plain ((mentioned_iff exportable same).2 mentioned)⟩
  · rintro ⟨ranked, safe, plain⟩
    exact exists_artifact sha256 exportable ranked safe plain

end Export

/-! ### A sample -/

/-- Merchants and their payments, after the migrations. -/
def sampleDb : Db where
  tables := [paymentMigrationControl, {
    name := "payments".toList
    columns := [⟨"id".toList, .text, true, .null⟩, ⟨"merchant_id".toList, .text, true, .null⟩,
      ⟨"amount".toList, .integer, false, .null⟩]
    primaryKey := [0]
    unique := []
    foreignKeys := [⟨1, "merchants".toList, 0⟩]
    check := fun _ => true
    triggers := [] }, {
    name := "merchants".toList
    columns := [⟨"id".toList, .text, true, .null⟩, ⟨"display_name".toList, .text, false, .null⟩]
    primaryKey := [0]
    unique := []
    foreignKeys := []
    check := fun _ => true
    triggers := [] }]
  rows name :=
    if name = controlName then [[.integer 1, .integer 0, .null, .null, .null, .text ['t'],
      .text ['t']]]
    else if name = "merchants".toList then
      [[.text ['a'], .text ['O', '\'', 'B', ';', '\n']], [.text ['b'], .text ['\x00', '"']]]
    else if name = "payments".toList then
      [[.text ['p'], .text ['b'], .integer (-5)], [.text ['q'], .text ['a'], .null]]
    else []

theorem exportable_sampleDb : Exportable sampleDb where
  consistent := {
    distinct := by decide
    ordered := by decide
    accepted := by decide
    elsewhere := by
      intro name other
      have apart : ∀ t ∈ sampleDb.tables, ¬ name = t.name := fun t ht same => other t ht same.symm
      exact (if_neg (apart _ (.head _))).trans
        ((if_neg (apart _ (.tail _ (.tail _ (.head _))))).trans
          (if_neg (apart _ (.tail _ (.head _))))) }
  control := .head _
  owned := by decide
  writable := by
    have plain : ∀ t ∈ sampleDb.tables, (t.name.all (· != '\x00')) = true ∧
        (∀ c ∈ t.columns, (c.name.all (· != '\x00')) = true) ∧ t.columns ≠ [] := by decide
    exact fun t ht => ⟨(plain t ht).1, (plain t ht).2.1, (plain t ht).2.2⟩
  columns := by decide
  parents := by decide

theorem ranked_sampleDb : Ranked sampleDb (ownedTables sampleDb) :=
  ranked_of_foreignKeys (fun name => if name = "merchants".toList then 0 else 1) (by decide) _

theorem allSafe_sampleDb : AllSafe sampleDb := by
  unfold AllSafe
  decide

theorem not_mentionsHistory_sampleDb : ¬ MentionsHistory sampleDb := by
  unfold MentionsHistory
  decide

theorem sampleDb_is_exported : ∃ artifact, exportDataOnly id sampleDb = .ok artifact :=
  (exportDataOnly_ok_iff id sampleDb exportable_sampleDb).2
    ⟨ranked_sampleDb, allSafe_sampleDb, not_mentionsHistory_sampleDb⟩

end ParmeliaLinks.Split
