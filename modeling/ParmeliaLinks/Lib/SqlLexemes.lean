/-
ParmeliaLinks/Lib/SqlLexemes.lean

How the text of a script reads back.  A statement is written as a list of lexemes;
`Legible` says that each of them is well formed and that the character after it does
not belong to it, and then the scanner finds their tokens (`read_render`).  A script of
comments and statements is read line by line (`read_comment`, `read_statement`).

The rest is about the statements that consist of lists: what the parser makes of names
and values with commas between them (`parse_insertValues`), and of a sum of counts
(`parse_insertCounts`).
-/
import ParmeliaLinks.Lib.SqlScript

namespace ParmeliaLinks.Sql

open Relational

/-! ### Lexemes -/

inductive Lexeme
  | space
  | word (t : Text)
  | identifier (t : Text)
  | string (t : Text)
  | blob (t : Text)
  | symbol (c : Char)
  deriving DecidableEq

/-- A text with one of its characters doubled. -/
def doubled (q : Char) (t : Text) : Text := t.flatMap fun c => if c = q then [q, q] else [c]

/-- A text in quotes. -/
def quoted (q : Char) (t : Text) : Text := q :: (doubled q t ++ [q])

namespace Lexeme

def text : Lexeme → Text
  | .space => [' ']
  | .word t => t
  | .identifier t => quoted '"' t
  | .string t => quoted '\'' t
  | .blob t => 'X' :: quoted '\'' t
  | .symbol c => [c]

def tokens : Lexeme → List Token
  | .space => []
  | .word t => [.word t]
  | .identifier t => [.identifier t]
  | .string t => [.string t]
  | .blob t => [.blob t]
  | .symbol c => [.symbol c]

/-- The scanner knows such a lexeme. -/
def sound : Lexeme → Bool
  | .space => true
  | .word t => !t.isEmpty && t.all isWordChar
  | .identifier t | .string t | .blob t => t.all (· != '\x00')
  | .symbol c => c != '\x00' && !isSpace c && !isWordChar c && c != '"' && c != '\'' && c != ';'

/-- The character does not go on with the lexeme. -/
def endsAt (c : Char) : Lexeme → Bool
  | .space => true
  | .word _ => !isWordChar c && c != '\''
  | .identifier _ => c != '"'
  | .string _ | .blob _ => c != '\''
  | .symbol d => d != '-' || c != '-'

end Lexeme

def render (ls : List Lexeme) : Text := ls.flatMap Lexeme.text

def tokens (ls : List Lexeme) : List Token := ls.flatMap Lexeme.tokens

@[simp] theorem render_append (ls ls' : List Lexeme) :
    render (ls ++ ls') = render ls ++ render ls' := List.flatMap_append

@[simp] theorem tokens_append (ls ls' : List Lexeme) :
    tokens (ls ++ ls') = tokens ls ++ tokens ls' := List.flatMap_append

/-- The first character of the lexemes, or the one after them. -/
def first (ls : List Lexeme) (c : Char) : Char := (render ls).headD c

/-- Every lexeme is sound, and ends where the next one begins. -/
def Legible : List Lexeme → Char → Bool
  | [], _ => true
  | l :: ls, c => l.sound && l.endsAt (first ls c) && Legible ls c

theorem first_append (ls ls' : List Lexeme) (c : Char) :
    first (ls ++ ls') c = first ls (first ls' c) := by
  unfold first
  rw [render_append]
  cases render ls <;> rfl

@[simp] theorem legible_append (ls ls' : List Lexeme) (c : Char) :
    Legible (ls ++ ls') c = (Legible ls (first ls' c) && Legible ls' c) := by
  induction ls with
  | nil => rfl
  | cons l ls ih =>
    rw [List.cons_append, Legible, Legible, ih, first_append]
    ac_rfl

/-! ### Reading -/

def Scanner.read (s : Scanner) (t : Text) : Scanner := t.foldl Scanner.scan s

@[simp] theorem Scanner.read_cons (s : Scanner) (c : Char) (t : Text) :
    s.read (c :: t) = (s.scan c).read t := rfl

section Reading

variable {ts : List Token} {ss : List (List Token)} {c : Char} {rest : Text}

theorem read_word {t : Text} (acc : Text) (word : ∀ d ∈ t, isWordChar d = true)
    (ends : isWordChar c = false ∧ c ≠ '\'') :
    Scanner.read ⟨.word acc, ts, ss⟩ (t ++ c :: rest) =
      Scanner.read ⟨.ready, .word (acc.reverse ++ t) :: ts, ss⟩ (c :: rest) := by
  induction t generalizing acc with
  | nil =>
    rw [List.nil_append, List.append_nil, Scanner.read_cons, Scanner.read_cons]
    simp [Scanner.scan, Scanner.push, ends.1, ends.2]
  | cons d t ih =>
    have step : Scanner.scan ⟨.word acc, ts, ss⟩ d = ⟨.word (d :: acc), ts, ss⟩ := by
      simp [Scanner.scan, word d List.mem_cons_self]
    rw [List.cons_append, Scanner.read_cons, step,
      ih (d :: acc) fun x hx => word x (List.mem_cons_of_mem _ hx)]
    simp

theorem Quotation.quote_ne_nul (q : Quotation) : q.quote ≠ '\x00' := by
  cases q <;> decide

theorem read_quoted (q : Quotation) {t : Text} (acc : Text) (plain : ∀ d ∈ t, d ≠ '\x00')
    (ends : c ≠ q.quote) :
    Scanner.read ⟨.quoted q acc, ts, ss⟩ (doubled q.quote t ++ q.quote :: c :: rest) =
      Scanner.read ⟨.ready, q.token (acc.reverse ++ t) :: ts, ss⟩ (c :: rest) := by
  induction t generalizing acc with
  | nil =>
    have close : Scanner.scan ⟨.quoted q acc, ts, ss⟩ q.quote = ⟨.quote q acc, ts, ss⟩ := by
      simp [Scanner.scan, q.quote_ne_nul]
    rw [doubled, List.flatMap_nil, List.nil_append, List.append_nil, Scanner.read_cons, close,
      Scanner.read_cons, Scanner.read_cons]
    simp [Scanner.scan, Scanner.push, ends]
  | cons d t ih =>
    have next := ih (d :: acc) fun x hx => plain x (List.mem_cons_of_mem _ hx)
    rw [List.reverse_cons, List.append_assoc] at next
    have nul := plain d List.mem_cons_self
    by_cases quote : d = q.quote
    · -- a quote within the text is written twice
      have open_ : Scanner.scan ⟨.quoted q acc, ts, ss⟩ q.quote = ⟨.quote q acc, ts, ss⟩ := by
        simp [Scanner.scan, q.quote_ne_nul]
      have again : Scanner.scan ⟨.quote q acc, ts, ss⟩ q.quote =
          ⟨.quoted q (d :: acc), ts, ss⟩ := by
        simp [Scanner.scan, quote]
      have twice : doubled q.quote (d :: t) = q.quote :: q.quote :: doubled q.quote t := by
        simp [doubled, quote]
      rw [twice, List.cons_append, List.cons_append, Scanner.read_cons, open_, Scanner.read_cons,
        again]
      exact next
    · have step : Scanner.scan ⟨.quoted q acc, ts, ss⟩ d = ⟨.quoted q (d :: acc), ts, ss⟩ := by
        simp [Scanner.scan, nul, quote]
      have once : doubled q.quote (d :: t) = d :: doubled q.quote t := by
        simp [doubled, quote]
      rw [once, List.cons_append, Scanner.read_cons, step]
      exact next

theorem start_word {d : Char} (word : isWordChar d = true) :
    Scanner.scan ⟨.ready, ts, ss⟩ d = ⟨.word [d], ts, ss⟩ := by
  have nul : d ≠ '\x00' := by
    rintro rfl
    revert word
    decide
  have space : isSpace d = false := by
    cases spaced : isSpace d with
    | false => rfl
    | true =>
      simp only [isSpace, Bool.or_eq_true, beq_iff_eq] at spaced
      rcases spaced with (((rfl | rfl) | rfl) | rfl) | rfl <;> revert word <;> decide
  show Scanner.start _ _ = _
  simp [Scanner.start, nul, space, word]

/-- A quotation is read to its end. -/
theorem read_quotation (q : Quotation) {t : Text} (plain : (t.all (· != '\x00')) = true)
    (ends : c ≠ q.quote) :
    Scanner.read ⟨.quoted q [], ts, ss⟩ (doubled q.quote t ++ [q.quote] ++ c :: rest) =
      Scanner.read ⟨.ready, q.token t :: ts, ss⟩ (c :: rest) := by
  rw [List.append_assoc]
  exact read_quoted q [] (fun d hd => by simpa using List.all_eq_true.1 plain d hd) ends

theorem read_lexeme (l : Lexeme) (sound : l.sound = true) (ends : l.endsAt c = true) :
    Scanner.read ⟨.ready, ts, ss⟩ (l.text ++ c :: rest) =
      Scanner.read ⟨.ready, l.tokens.reverse ++ ts, ss⟩ (c :: rest) := by
  cases l with
  | space => rfl
  | word t =>
    simp only [Lexeme.sound, Bool.and_eq_true, List.all_eq_true] at sound
    simp only [Lexeme.endsAt, Bool.and_eq_true, Bool.not_eq_true', bne_iff_ne] at ends
    obtain ⟨d, t, rfl⟩ := List.exists_cons_of_ne_nil (l := t) (by simpa using sound.1)
    show Scanner.read (Scanner.scan ⟨.ready, ts, ss⟩ d) (t ++ c :: rest) = _
    rw [start_word (sound.2 d List.mem_cons_self)]
    exact read_word [d] (fun x hx => sound.2 x (List.mem_cons_of_mem _ hx)) ends
  | identifier t => exact read_quotation .identifier sound (bne_iff_ne.1 ends)
  | string t => exact read_quotation .string sound (bne_iff_ne.1 ends)
  | blob t => exact read_quotation .blob sound (bne_iff_ne.1 ends)
  | symbol d =>
    simp only [Lexeme.sound, Bool.and_eq_true, bne_iff_ne, Bool.not_eq_true'] at sound
    obtain ⟨⟨⟨⟨⟨nul, space⟩, word⟩, name⟩, quote⟩, stop⟩ := sound
    by_cases minus : d = '-'
    · subst minus
      have other : c ≠ '-' := by simpa [Lexeme.endsAt] using ends
      show Scanner.read (Scanner.scan ⟨.dash, ts, ss⟩ c) rest = _
      simp only [Scanner.scan, if_neg other]
      rfl
    · show Scanner.read (Scanner.start ⟨.ready, ts, ss⟩ d) (c :: rest) = _
      simp [Scanner.start, nul, space, word, name, quote, stop, minus, Scanner.push,
        Lexeme.tokens]

/-- What is legible is found. -/
theorem read_render {ls : List Lexeme} (legible : Legible ls c = true) :
    Scanner.read ⟨.ready, ts, ss⟩ (render ls ++ c :: rest) =
      Scanner.read ⟨.ready, (tokens ls).reverse ++ ts, ss⟩ (c :: rest) := by
  induction ls generalizing ts with
  | nil => rfl
  | cons l ls ih =>
    simp only [Legible, Bool.and_eq_true] at legible
    obtain ⟨⟨sound, ends⟩, legible⟩ := legible
    obtain ⟨more, split⟩ : ∃ more, render ls ++ c :: rest = first ls c :: more := by
      unfold first
      cases render ls with
      | nil => exact ⟨rest, rfl⟩
      | cons d t => exact ⟨t ++ c :: rest, rfl⟩
    have next : Scanner.read ⟨.ready, l.tokens.reverse ++ ts, ss⟩ (render ls ++ c :: rest) = _ :=
      ih legible
    rw [split] at next
    have whole : render (l :: ls) ++ c :: rest = l.text ++ first ls c :: more := by
      rw [← split]
      exact List.append_assoc _ _ _
    rw [whole, read_lexeme l sound ends, next]
    congr 2
    simp [tokens]

/-- A statement is read to its semicolon. -/
theorem read_statement {ls : List Lexeme} (legible : Legible ls ';' = true)
    (some_ : tokens ls ≠ []) :
    Scanner.read ⟨.ready, [], ss⟩ (render ls ++ ([';', '\n'] ++ rest)) =
      Scanner.read ⟨.ready, [], tokens ls :: ss⟩ rest := by
  rw [List.cons_append, read_render legible, List.append_nil, Scanner.read_cons]
  have close : Scanner.scan ⟨.ready, (tokens ls).reverse, ss⟩ ';' =
      ⟨.ready, [], tokens ls :: ss⟩ := by
    show Scanner.close _ = _
    simp [Scanner.close, some_]
  rw [close]
  rfl

/-- A comment is read to the end of its line. -/
theorem read_comment {t : Text} (plain : (t.all fun d => d != '\n' && d != '\x00') = true) :
    Scanner.read ⟨.ready, ts, ss⟩ ('-' :: '-' :: (t ++ '\n' :: rest)) =
      Scanner.read ⟨.ready, ts, ss⟩ rest := by
  show Scanner.read ⟨.comment, ts, ss⟩ (t ++ '\n' :: rest) = _
  induction t with
  | nil => rfl
  | cons d t ih =>
    rw [List.all_cons, Bool.and_eq_true, Bool.and_eq_true, bne_iff_ne, bne_iff_ne] at plain
    rw [List.cons_append, Scanner.read_cons]
    have step : Scanner.scan ⟨.comment, ts, ss⟩ d = ⟨.comment, ts, ss⟩ := by
      simp [Scanner.scan, plain.1]
    rw [step]
    exact ih plain.2

end Reading

/-! ### Scripts -/

/-- The lexemes are what the parser takes for the statement. -/
structure Writes (ls : List Lexeme) (s : Statement) : Prop where
  legible : Legible ls ';' = true
  some_ : tokens ls ≠ []
  parsed : parse (tokens ls) = some s

/-- A comment and its line. -/
def commentLine (t : Text) : Text := '-' :: '-' :: (t ++ ['\n'])

/-- A statement and its line. -/
def statementLine (ls : List Lexeme) : Text := render ls ++ [';', '\n']

theorem read_comments {comments : List Text} {ss : List (List Token)}
    (plain : ∀ t ∈ comments, (t.all fun d => d != '\n' && d != '\x00') = true) (rest : Text) :
    Scanner.read ⟨.ready, [], ss⟩ (comments.flatMap commentLine ++ rest) =
      Scanner.read ⟨.ready, [], ss⟩ rest := by
  induction comments with
  | nil => rfl
  | cons t comments ih =>
    have line : (t :: comments).flatMap commentLine ++ rest =
        '-' :: '-' :: (t ++ '\n' :: (comments.flatMap commentLine ++ rest)) := by
      simp [commentLine]
    rw [line, read_comment (plain t List.mem_cons_self)]
    exact ih fun x hx => plain x (List.mem_cons_of_mem _ hx)

theorem legible_of_writes {lss : List (List Lexeme)} {ss : List Statement}
    (written : List.Forall₂ Writes lss ss) : ∀ ls ∈ lss, Legible ls ';' = true := by
  induction written with
  | nil => exact fun _ h => absurd h List.not_mem_nil
  | cons first _ ih => exact List.forall_mem_cons.2 ⟨first.legible, ih⟩

theorem read_statements {lss : List (List Lexeme)} {ss : List Statement}
    (written : List.Forall₂ Writes lss ss) (before : List (List Token)) :
    Scanner.read ⟨.ready, [], before⟩ (lss.flatMap statementLine) =
      ⟨.ready, [], (lss.map tokens).reverse ++ before⟩ := by
  induction written generalizing before with
  | nil => rfl
  | @cons ls s lss ss first _ ih =>
    rw [List.flatMap_cons, statementLine, List.append_assoc, read_statement first.legible
      first.some_, ih]
    simp

theorem foldlM_step {lss : List (List Lexeme)} {ss : List Statement}
    (written : List.Forall₂ Writes lss ss) (db : Db) :
    (lss.map tokens).foldlM step db = ss.foldlM Statement.run db := by
  induction written generalizing db with
  | nil => rfl
  | @cons ls s lss ss first _ ih =>
    have one : step db (tokens ls) = s.run db := by
      rw [step, first.parsed]
      rfl
    rw [List.map_cons, List.foldlM_cons, List.foldlM_cons, one]
    exact bind_congr fun db' => ih db'

/-- A script does what its statements do. -/
theorem runAll_script {comments : List Text} {lss : List (List Lexeme)} {ss : List Statement}
    (plain : ∀ t ∈ comments, (t.all fun d => d != '\n' && d != '\x00') = true)
    (written : List.Forall₂ Writes lss ss) (db : Db) :
    runAll (comments.flatMap commentLine ++ lss.flatMap statementLine) db =
      ss.foldlM Statement.run db := by
  have read : Scanner.read .init (comments.flatMap commentLine ++ lss.flatMap statementLine) =
      ⟨.ready, [], (lss.map tokens).reverse⟩ := by
    show Scanner.read ⟨.ready, [], []⟩ _ = _
    rw [read_comments plain, read_statements written, List.append_nil]
  have found : statements (comments.flatMap commentLine ++ lss.flatMap statementLine) =
      some (lss.map tokens) := by
    show (Scanner.read .init _).finish = _
    rw [read]
    simp [Scanner.finish, Scanner.close]
  rw [runAll, found]
  exact foldlM_step written db

/-! ### Lists with separators -/

/-- Lexemes with commas and spaces between them. -/
def commas (chunks : List (List Lexeme)) : List Lexeme := [.symbol ',', .space].intercalate chunks

/-- Lexemes with plus signs and spaces between them. -/
def plusSigns (chunks : List (List Lexeme)) : List Lexeme :=
  [.space, .symbol '+', .space].intercalate chunks

/-- Tokens with a symbol between them. -/
def between (c : Char) (chunks : List (List Token)) : List Token :=
  [Token.symbol c].intercalate chunks

theorem flatMap_intercalate {α β : Type} (f : α → List β) (sep : List α) (ls : List (List α)) :
    (sep.intercalate ls).flatMap f =
      (sep.flatMap f).intercalate (ls.map fun l => l.flatMap f) := by
  induction ls with
  | nil => rfl
  | cons l ls ih =>
    cases ls with
    | nil => simp
    | cons l' ls =>
      rw [List.intercalate_cons_cons, List.flatMap_append, List.flatMap_append, ih]
      exact List.intercalate_cons_cons.symm

theorem tokens_commas (chunks : List (List Lexeme)) :
    tokens (commas chunks) = between ',' (chunks.map tokens) := flatMap_intercalate _ _ _

theorem tokens_plusSigns (chunks : List (List Lexeme)) :
    tokens (plusSigns chunks) = between '+' (chunks.map tokens) := flatMap_intercalate _ _ _

theorem render_commas (chunks : List (List Lexeme)) :
    render (commas chunks) = ([',', ' '] : Text).intercalate (chunks.map render) :=
  flatMap_intercalate _ _ _

theorem render_plusSigns (chunks : List (List Lexeme)) :
    render (plusSigns chunks) = ([' ', '+', ' '] : Text).intercalate (chunks.map render) :=
  flatMap_intercalate _ _ _

/-- Legible parts are legible one after the other, when a separator begins with `d`, is legible
and goes before anything. -/
theorem legible_intercalate {sep : List Lexeme} {d c : Char} (begins : ∀ x, first sep x = d)
    (legible : ∀ x, Legible sep x = true) {chunks : List (List Lexeme)}
    (inner : ∀ chunk ∈ chunks, Legible chunk d = true)
    (last : ∀ chunk ∈ chunks, Legible chunk c = true) :
    Legible (sep.intercalate chunks) c = true := by
  induction chunks with
  | nil => rfl
  | cons chunk chunks ih =>
    cases chunks with
    | nil => simpa using last chunk List.mem_cons_self
    | cons next chunks =>
      have rest := ih (fun x hx => inner x (List.mem_cons_of_mem _ hx))
        fun x hx => last x (List.mem_cons_of_mem _ hx)
      rw [List.intercalate_cons_cons, List.append_assoc, legible_append, legible_append, rest,
        first_append, begins, legible, inner chunk List.mem_cons_self]
      rfl

theorem legible_commas {chunks : List (List Lexeme)} {c : Char}
    (inner : ∀ chunk ∈ chunks, Legible chunk ',' = true)
    (last : ∀ chunk ∈ chunks, Legible chunk c = true) : Legible (commas chunks) c = true :=
  legible_intercalate (fun _ => rfl) (fun _ => rfl) inner last

theorem legible_plusSigns {chunks : List (List Lexeme)} {c : Char}
    (inner : ∀ chunk ∈ chunks, Legible chunk ' ' = true)
    (last : ∀ chunk ∈ chunks, Legible chunk c = true) : Legible (plusSigns chunks) c = true :=
  legible_intercalate (fun _ => rfl) (fun _ => rfl) inner last

theorem mem_between {c : Char} {chunks : List (List Token)} {t : Token}
    (h : t ∈ between c chunks) : t = .symbol c ∨ ∃ chunk ∈ chunks, t ∈ chunk := by
  unfold between at h
  induction chunks with
  | nil => cases h
  | cons chunk chunks ih =>
    cases chunks with
    | nil => exact .inr ⟨chunk, List.mem_cons_self, by simpa using h⟩
    | cons next chunks =>
      rw [List.intercalate_cons_cons] at h
      rcases List.mem_append.1 h with h | h
      · rcases List.mem_append.1 h with h | h
        · exact .inr ⟨chunk, List.mem_cons_self, h⟩
        · exact .inl (List.mem_singleton.1 h)
      · rcases ih h with same | ⟨x, hx, ht⟩
        · exact .inl same
        · exact .inr ⟨x, List.mem_cons_of_mem _ hx, ht⟩

theorem splitOn_between {c : Char} {chunks : List (List Token)}
    (apart : ∀ chunk ∈ chunks, Token.symbol c ∉ chunk) (some_ : chunks ≠ []) :
    (between c chunks).splitOn (.symbol c) = chunks :=
  List.splitOn_intercalate _ apart some_

theorem mapM_eq_map {α β : Type} {f : α → Option β} {g : α → β} {xs : List α}
    (h : ∀ x ∈ xs, f x = some (g x)) : xs.mapM f = some (xs.map g) := by
  induction xs with
  | nil => rfl
  | cons x xs ih =>
    rw [List.mapM_cons, h x List.mem_cons_self, ih fun y hy => h y (List.mem_cons_of_mem _ hy)]
    rfl

/-! ### Insertions -/

theorem parseNames_between {names : List Text} (some_ : names ≠ []) :
    parseNames (between ',' (names.map fun n => [.identifier n])) = some names := by
  unfold parseNames
  rw [splitOn_between (by simp) (by simpa using some_), List.mapM_map]
  exact (mapM_eq_map (g := id) fun n _ => rfl).trans (by rw [List.map_id])

/-- The tokens of an insertion of one row. -/
def insertTokens (t : Text) (names : List Text) (values : List (List Token)) : List Token :=
  word "INSERT" :: word "INTO" :: .identifier t :: .symbol '(' ::
    (between ',' (names.map fun n => [.identifier n]) ++ .symbol ')' :: word "VALUES" ::
      .symbol '(' :: (between ',' values ++ [.symbol ')']))

theorem parse_insertTokens (t : Text) {names : List Text} {chunks : List (List Token)}
    {values : List Value} (someNames : names ≠ []) (someValues : chunks ≠ [])
    (apart : ∀ chunk ∈ chunks, Token.symbol ',' ∉ chunk)
    (reads : chunks.mapM parseValue = some values) :
    parse (insertTokens t names chunks) = some (.insertValues t names values) := by
  have names_ := parseNames_between someNames
  have open_ : ∀ tok ∈ between ',' (names.map fun n => [.identifier n]),
      (tok != .symbol ')') = true := by
    intro tok htok
    rcases mem_between htok with rfl | ⟨chunk, hchunk, hmem⟩
    · decide
    · obtain ⟨n, -, rfl⟩ := List.mem_map.1 hchunk
      rw [List.mem_singleton.1 hmem]
      rfl
  have values_ : parseValues (between ',' chunks) = some values := by
    rw [parseValues, splitOn_between apart someValues, reads]
  unfold insertTokens
  generalize between ',' (names.map fun n => [.identifier n]) = columns at names_ open_ ⊢
  generalize between ',' chunks = cells at values_ ⊢
  have inserts : parse (word "INSERT" :: word "INTO" :: .identifier t :: .symbol '(' ::
        (columns ++ .symbol ')' :: word "VALUES" :: .symbol '(' :: (cells ++ [.symbol ')']))) =
      (do
        let names ← parseNames ((columns ++ .symbol ')' :: word "VALUES" :: .symbol '(' ::
          (cells ++ [.symbol ')'])).takeWhile (· != .symbol ')'))
        let rest ← eat [.symbol ')', word "VALUES", .symbol '(']
          ((columns ++ .symbol ')' :: word "VALUES" :: .symbol '(' ::
            (cells ++ [.symbol ')'])).dropWhile (· != .symbol ')'))
        if rest.getLast? = some (.symbol ')') then
          (parseValues rest.dropLast).map (.insertValues t names)
        else none) := rfl
  rw [inserts, List.takeWhile_append_of_pos open_, List.dropWhile_append_of_pos open_]
  have closed : eat [.symbol ')', word "VALUES", .symbol '(']
      (.symbol ')' :: word "VALUES" :: .symbol '(' :: (cells ++ [.symbol ')'])) =
        some (cells ++ [.symbol ')']) := rfl
  simp [names_, closed, values_]

/-- The tokens of an insertion of a sum of counts. -/
def countTokens (t : Text) (names : List Text) : List Token :=
  word "INSERT" :: word "INTO" :: .identifier t :: word "SELECT" ::
    between '+' (names.map fun n => countHead ++ [.identifier n, .symbol ')'])

theorem parse_countTokens (t : Text) {names : List Text} (some_ : names ≠ []) :
    parse (countTokens t names) =
      some (.insertSelect t (.sum (names.map fun n => .count n []))) := by
  have apart : ∀ chunk ∈ names.map fun n => countHead ++ [Token.identifier n, .symbol ')'],
      Token.symbol '+' ∉ chunk := by
    intro chunk hchunk
    obtain ⟨n, -, rfl⟩ := List.mem_map.1 hchunk
    simp [countHead, word]
  have terms : (names.map fun n => countHead ++ [Token.identifier n, .symbol ')']).mapM parseTerm =
      some (names.map fun n => .count n []) := by
    rw [List.mapM_map]
    refine mapM_eq_map fun n _ => ?_
    show parseTerm (countHead ++ _) = _
    rw [parseTerm, eat_append]
    rfl
  have sum : parseExpr (between '+' (names.map fun n => countHead ++
      [Token.identifier n, .symbol ')'])) = some (.sum (names.map fun n => .count n [])) := by
    have plain : eat [word "CASE", word "WHEN"] (between '+' (names.map fun n => countHead ++
        [Token.identifier n, .symbol ')'])) = none := by
      obtain ⟨n, names, rfl⟩ := List.exists_cons_of_ne_nil some_
      cases names <;> rfl
    rw [parseExpr, plain, splitOn_between apart (by simpa using some_), terms]
    rfl
  show (parseExpr _).map _ = _
  rw [sum]
  rfl

/-! ### Values -/

/-- A text as the bytes of its encoding. -/
def utf8 (t : Text) : List UInt8 := t.flatMap String.utf8EncodeChar

def hexByte (b : UInt8) : Text := [Nat.digitChar (b.toNat / 16), Nat.digitChar (b.toNat % 16)]

def hexText (bs : List UInt8) : Text := bs.flatMap hexByte

theorem hexValue_digitChar : ∀ d < 16, hexValue (Nat.digitChar d) = some d := by decide

theorem digitChar_plain : ∀ d < 16, Nat.digitChar d ≠ '\x00' ∧ Nat.digitChar d ≠ '\'' ∧
    Nat.digitChar d ≠ '_' := by decide

theorem bytes_hexText (bs : List UInt8) : bytes (hexText bs) = some bs := by
  induction bs with
  | nil => rfl
  | cons b bs ih =>
    have hi : b.toNat / 16 < 16 := by
      have := b.toNat_lt
      omega
    have lo : b.toNat % 16 < 16 := Nat.mod_lt _ (by decide)
    have whole : 16 * (b.toNat / 16) + b.toNat % 16 = b.toNat := Nat.div_add_mod _ _
    show bytes (_ :: _ :: hexText bs) = _
    rw [bytes, hexValue_digitChar _ hi, hexValue_digitChar _ lo, ih]
    show some (UInt8.ofNat (16 * (b.toNat / 16) + b.toNat % 16) :: bs) = _
    rw [whole, UInt8.ofNat_toNat]

theorem textOfBytes_utf8 (t : Text) : textOfBytes (utf8 t) = some t := by
  have encoded : ByteArray.mk (utf8 t).toArray = t.utf8Encode := by
    apply ByteArray.ext
    simp [utf8, List.utf8Encode]
  rw [textOfBytes, encoded, List.utf8Decode?_utf8Encode]
  simp

/-- The text of a number that may be negative. -/
def signed (n : Int) : List Lexeme :=
  if n < 0 then [.symbol '-', .word (decimal n.natAbs)] else [.word (decimal n.natAbs)]

/-- A text with a NUL is written as its bytes. -/
def valueLexemes : Value → List Lexeme
  | .null => [.word "NULL".toList]
  | .integer n => signed n
  | .text t =>
    if '\x00' ∈ t then
      [.word "CAST".toList, .symbol '(', .blob (hexText (utf8 t)), .space, .word "AS".toList,
        .space, .word "TEXT".toList, .symbol ')']
    else [.string t]

/-- What stands before the blob. -/
def castOpen : List Lexeme := [.word "CAST".toList, .symbol '(']

/-- What stands after the blob. -/
def castClose : List Lexeme :=
  [.space, .word "AS".toList, .space, .word "TEXT".toList, .symbol ')']

theorem valueLexemes_blob {t : Text} (nul : '\x00' ∈ t) :
    valueLexemes (.text t) = castOpen ++ ([.blob (hexText (utf8 t))] ++ castClose) := if_pos nul

theorem valueLexemes_string {t : Text} (plain : '\x00' ∉ t) :
    valueLexemes (.text t) = [.string t] := if_neg plain

theorem isNumber_decimal (n : Nat) : isNumber (decimal n) = true := by
  have digits : (decimal n).all Char.isDigit = true :=
    List.all_eq_true.2 fun c hc => isDigit_of_mem_decimal hc
  have some_ : decimal n ≠ [] := Nat.toDigits_ne_nil
  simp [isNumber, digits, some_]

theorem parseNumber_signed (n : Int) : parseNumber (tokens (signed n)) = some n := by
  unfold signed
  split
  · rename_i negative
    show parseNumber [.symbol '-', .word _] = _
    rw [parseNumber, if_pos (isNumber_decimal _), decimalValue_decimal]
    congr 1
    omega
  · rename_i negative
    show parseNumber [.word _] = _
    rw [parseNumber, if_pos (isNumber_decimal _), decimalValue_decimal]
    congr 1
    omega

theorem parseValue_signed (n : Int) : parseValue (tokens (signed n)) = some (.integer n) := by
  have number : parseValue (tokens (signed n)) =
      if tokens (signed n) = [word "NULL"] then some .null
      else (parseNumber (tokens (signed n))).map .integer := by
    unfold signed
    split <;> rfl
  have other : tokens (signed n) ≠ [word "NULL"] := by
    intro same
    have parsed := parseNumber_signed n
    rw [same] at parsed
    cases parsed
  rw [number, if_neg other, parseNumber_signed]
  rfl

theorem parseValue_valueLexemes (v : Value) : parseValue (tokens (valueLexemes v)) = some v := by
  cases v with
  | null => rfl
  | integer n => exact parseValue_signed n
  | text t =>
    unfold valueLexemes
    dsimp only
    split
    · show ((bytes (hexText (utf8 t))).bind textOfBytes).map Value.text = _
      rw [bytes_hexText, Option.bind_some, textOfBytes_utf8]
      rfl
    · rfl

theorem comma_not_mem_valueLexemes (v : Value) : Token.symbol ',' ∉ tokens (valueLexemes v) := by
  cases v with
  | null => decide
  | integer n =>
    show _ ∉ tokens (signed n)
    unfold signed
    split <;> simp [tokens, Lexeme.tokens]
  | text t =>
    unfold valueLexemes
    dsimp only
    split <;> simp [tokens, Lexeme.tokens]

theorem hexText_plain (bs : List UInt8) :
    ∀ c ∈ hexText bs, c ≠ '\x00' ∧ c ≠ '\'' ∧ c ≠ '_' := by
  intro c hc
  obtain ⟨b, -, hb⟩ := List.mem_flatMap.1 hc
  have hi : b.toNat / 16 < 16 := by
    have := b.toNat_lt
    omega
  have lo : b.toNat % 16 < 16 := Nat.mod_lt _ (by decide)
  rcases List.mem_cons.1 hb with rfl | hb
  · exact digitChar_plain _ hi
  · rw [List.mem_singleton.1 hb]
    exact digitChar_plain _ lo

theorem nul_not_mem_hexText (bs : List UInt8) : ((hexText bs).all (· != '\x00')) = true :=
  List.all_eq_true.2 fun c hc => bne_iff_ne.2 (hexText_plain bs c hc).1

/-- A text without quotes has nothing to double. -/
theorem doubled_plain {q : Char} {t : Text} (plain : ∀ c ∈ t, c ≠ q) : doubled q t = t := by
  unfold doubled
  induction t with
  | nil => rfl
  | cons c t ih =>
    rw [List.flatMap_cons, if_neg (plain c List.mem_cons_self),
      ih fun d hd => plain d (List.mem_cons_of_mem _ hd)]
    rfl

theorem sound_decimal (n : Nat) : (Lexeme.word (decimal n)).sound = true := by
  have digits : (decimal n).all isWordChar = true := by
    refine List.all_eq_true.2 fun c hc => ?_
    have digit := isDigit_of_mem_decimal hc
    simp [isWordChar, Char.isAlphanum, digit]
  have some_ : decimal n ≠ [] := Nat.toDigits_ne_nil
  simp [Lexeme.sound, digits, some_]

theorem legible_word {t : Text} {c : Char} (sound : (Lexeme.word t).sound = true)
    (ends : (isWordChar c || c == '\'') = false) : Legible [.word t] c = true := by
  rw [Bool.or_eq_false_iff] at ends
  simp [Legible, sound, Lexeme.endsAt, first, render, ends.1, bne, ends.2]

theorem legible_signed (n : Int) {c : Char} (ends : (isWordChar c || c == '\'') = false) :
    Legible (signed n) c = true := by
  have number := legible_word (sound_decimal n.natAbs) ends
  unfold signed
  split
  · have digit : first [.word (decimal n.natAbs)] c ≠ '-' := by
      obtain ⟨d, t, split⟩ := List.exists_cons_of_ne_nil (l := decimal n.natAbs)
        Nat.toDigits_ne_nil
      have mem : d ∈ decimal n.natAbs := by
        rw [split]
        exact List.mem_cons_self
      show ((decimal n.natAbs ++ []).headD c) ≠ '-'
      rw [split]
      rintro rfl
      have := isDigit_of_mem_decimal mem
      revert this
      decide
    rw [Legible, number, Bool.and_true]
    simpa [Lexeme.sound, Lexeme.endsAt, isSpace, isWordChar] using digit
  · exact number

/-- Values are legible before a comma and before a parenthesis. -/
theorem legible_valueLexemes (v : Value) {c : Char} (h : c = ',' ∨ c = ')') :
    Legible (valueLexemes v) c = true := by
  have ends : (isWordChar c || c == '\'') = false := by
    rcases h with rfl | rfl <;> decide
  cases v with
  | null => exact legible_word (by decide) ends
  | integer n => exact legible_signed n ends
  | text t =>
    by_cases nul : '\x00' ∈ t
    · have cast : Legible castOpen 'X' = true := by decide
      have type : Legible castClose c = true := by
        rcases h with rfl | rfl <;> decide
      rw [valueLexemes_blob nul, legible_append, legible_append, type, Bool.and_true]
      have bytes : Legible [.blob (hexText (utf8 t))] ' ' = true := by
        simp [Legible, Lexeme.sound, nul_not_mem_hexText, Lexeme.endsAt, first, render]
      exact Bool.and_eq_true_iff.2 ⟨cast, bytes⟩
    · have sound : (Lexeme.string t).sound = true :=
        List.all_eq_true.2 fun d hd => bne_iff_ne.2 fun same => nul (same ▸ hd)
      have quote : (Lexeme.string t).endsAt c = true := by
        rcases h with rfl | rfl <;> rfl
      rw [valueLexemes_string nul]
      show ((Lexeme.string t).sound && (Lexeme.string t).endsAt c && true) = true
      rw [sound, quote]
      rfl

end ParmeliaLinks.Sql
