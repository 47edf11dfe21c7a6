/-
ParmeliaLinks/Lib/SqlMentions.lean

Where a script mentions a word.  Every character of a word part goes on with a word, and
whatever else stands in a script ends it: so a legible text has the part where a single
lexeme has it (`infix_render`), and a script where one of its statements mentions it
(`infix_statements`).  Within quotes the doubling of quotes makes no difference
(`infix_doubled`).
-/
import ParmeliaLinks.Lib.SqlLexemes

namespace ParmeliaLinks.Sql

/-! ### Parts of a text -/

/-- Two texts with a character between them that the part does not have. -/
theorem infix_separator {part a b : Text} {c : Char} (other : c ∉ part) (some_ : part ≠ []) :
    part <:+: a ++ c :: b ↔ part <:+: a ∨ part <:+: b := by
  rw [List.infix_append_iff_ne_nil, List.infix_cons_iff]
  have first {l : Text} (h : l <+: c :: b) (ne : l ≠ []) : c ∈ l := by
    obtain ⟨d, l, rfl⟩ := List.exists_cons_of_ne_nil ne
    rw [(List.cons_prefix_cons.1 h).1]
    exact List.mem_cons_self
  constructor
  · rintro (h | (h | h) | ⟨l₁, l₂, -, ne, rfl, -, h⟩)
    · exact .inl h
    · exact absurd (first h some_) other
    · exact .inr h
    · exact absurd (List.mem_append_right _ (first h ne)) other
  · rintro (h | h)
    · exact .inl h
    · exact .inr (.inl (.inr h))

/-- A part without the quote is one of the doubled text. -/
theorem infix_doubled {part : Text} {q : Char} (other : q ∉ part) (some_ : part ≠ [])
    (t : Text) : part <:+: doubled q t ↔ part <:+: t := by
  have go (t : Text) : ∀ a : Text, part <:+: a ++ doubled q t ↔ part <:+: a ++ t := by
    induction t with
    | nil => exact fun a => Iff.rfl
    | cons c t ih =>
      intro a
      by_cases quote : c = q
      · have twice : doubled q (c :: t) = q :: q :: doubled q t := by
          simp [doubled, quote]
        have inner : part <:+: q :: doubled q t ↔ part <:+: t := by
          rw [← List.nil_append (q :: doubled q t), infix_separator other some_, List.infix_nil,
            or_iff_right some_]
          exact ih []
        rw [twice, quote, infix_separator other some_, infix_separator other some_, inner]
      · have once : doubled q (c :: t) = c :: doubled q t := by
          simp [doubled, quote]
        have next := ih (a ++ [c])
        rw [List.append_assoc, List.append_assoc] at next
        rw [once]
        exact next
  exact go t []

/-- A part of which every character is one of a word. -/
structure IsWordPart (part : Text) : Prop where
  some_ : part ≠ []
  word : ∀ c ∈ part, isWordChar c = true

section Mentions

variable {part : Text}

theorem IsWordPart.not_mem (h : IsWordPart part) {c : Char} (other : isWordChar c = false) :
    c ∉ part := by
  intro mem
  rw [h.word c mem] at other
  cases other

theorem IsWordPart.infix_append (h : IsWordPart part) {c : Char} (other : isWordChar c = false)
    (a b : Text) : part <:+: a ++ c :: b ↔ part <:+: a ∨ part <:+: b :=
  infix_separator (h.not_mem other) h.some_

theorem IsWordPart.infix_cons (h : IsWordPart part) {c : Char} (other : isWordChar c = false)
    (b : Text) : part <:+: c :: b ↔ part <:+: b := by
  rw [← List.nil_append (c :: b), h.infix_append other, List.infix_nil, or_iff_right h.some_]

theorem IsWordPart.infix_quoted (h : IsWordPart part) {q : Char} (other : isWordChar q = false)
    (t rest : Text) : part <:+: quoted q t ++ rest ↔ part <:+: t ∨ part <:+: rest := by
  have split : quoted q t ++ rest = q :: (doubled q t ++ q :: rest) := by
    simp [quoted]
  rw [split, h.infix_cons other, h.infix_append other, infix_doubled (h.not_mem other) h.some_]

/-- A lexeme ends before what follows. -/
theorem IsWordPart.infix_lexeme (h : IsWordPart part) {l : Lexeme} (sound : l.sound = true)
    {c : Char} (ends : l.endsAt c = true) (rest : Text) :
    part <:+: l.text ++ c :: rest ↔ part <:+: l.text ∨ part <:+: c :: rest := by
  have alone {q : Char} (other : isWordChar q = false) (t : Text) :
      part <:+: quoted q t ↔ part <:+: t := by
    rw [← List.append_nil (quoted q t), h.infix_quoted other, List.infix_nil,
      or_iff_left h.some_]
  cases l with
  | space =>
    show part <:+: ' ' :: c :: rest ↔ part <:+: [' '] ∨ _
    rw [h.infix_cons (c := ' ') (by decide), h.infix_cons (c := ' ') (by decide),
      List.infix_nil, or_iff_right h.some_]
  | word t =>
    simp only [Lexeme.endsAt, Bool.and_eq_true, Bool.not_eq_true'] at ends
    show part <:+: t ++ c :: rest ↔ part <:+: t ∨ _
    rw [h.infix_append ends.1, h.infix_cons ends.1]
  | identifier t =>
    show part <:+: quoted '"' t ++ _ ↔ part <:+: quoted '"' t ∨ _
    rw [h.infix_quoted (by decide), alone (by decide)]
  | string t =>
    show part <:+: quoted '\'' t ++ _ ↔ part <:+: quoted '\'' t ∨ _
    rw [h.infix_quoted (by decide), alone (by decide)]
  | blob t =>
    have split (rest : Text) : 'X' :: quoted '\'' t ++ rest =
        ['X'] ++ '\'' :: (doubled '\'' t ++ '\'' :: rest) := by
      simp [quoted]
    show part <:+: 'X' :: quoted '\'' t ++ c :: rest ↔ part <:+: 'X' :: quoted '\'' t ∨ _
    rw [← List.append_nil ('X' :: quoted '\'' t), List.append_assoc, List.nil_append, split, split,
      h.infix_append (by decide), h.infix_append (by decide), h.infix_append (by decide),
      h.infix_append (by decide), List.infix_nil, or_iff_left h.some_, or_assoc]
  | symbol d =>
    simp only [Lexeme.sound, Bool.and_eq_true, Bool.not_eq_true'] at sound
    have other : isWordChar d = false := sound.1.1.1.2
    show part <:+: d :: c :: rest ↔ part <:+: [d] ∨ _
    rw [h.infix_cons other, h.infix_cons other, List.infix_nil, or_iff_right h.some_]

/-- One of the lexemes has the part. -/
def Mentions (part : Text) (ls : List Lexeme) : Prop := ∃ l ∈ ls, part <:+: l.text

theorem mentions_append (ls ls' : List Lexeme) :
    Mentions part (ls ++ ls') ↔ Mentions part ls ∨ Mentions part ls' := by
  unfold Mentions
  simp only [List.mem_append, or_and_right, exists_or]

theorem IsWordPart.infix_render (h : IsWordPart part) {ls : List Lexeme} {c : Char}
    (legible : Legible ls c = true) (rest : Text) :
    part <:+: render ls ++ c :: rest ↔ Mentions part ls ∨ part <:+: c :: rest := by
  induction ls with
  | nil => simp [render, Mentions]
  | cons l ls ih =>
    simp only [Legible, Bool.and_eq_true] at legible
    obtain ⟨⟨sound, ends⟩, legible⟩ := legible
    obtain ⟨more, split⟩ : ∃ more, render ls ++ c :: rest = first ls c :: more := by
      unfold first
      cases render ls with
      | nil => exact ⟨rest, rfl⟩
      | cons d t => exact ⟨t ++ c :: rest, rfl⟩
    have whole : render (l :: ls) ++ c :: rest = l.text ++ first ls c :: more := by
      rw [← split]
      exact List.append_assoc _ _ _
    rw [whole, h.infix_lexeme sound ends, ← split, ih legible, ← or_assoc]
    refine or_congr_left ?_
    simp [Mentions]

/-- A script has the part where one of its statements mentions it. -/
theorem IsWordPart.infix_statements (h : IsWordPart part) {lss : List (List Lexeme)}
    (legible : ∀ ls ∈ lss, Legible ls ';' = true) :
    part <:+: lss.flatMap statementLine ↔ ∃ ls ∈ lss, Mentions part ls := by
  induction lss with
  | nil => simp [List.infix_nil, h.some_]
  | cons ls lss ih =>
    have line : (ls :: lss).flatMap statementLine =
        render ls ++ ';' :: '\n' :: lss.flatMap statementLine := by
      simp [statementLine]
    rw [line, h.infix_render (legible ls List.mem_cons_self), h.infix_cons (by decide),
      h.infix_cons (by decide), ih fun x hx => legible x (List.mem_cons_of_mem _ hx)]
    simp

theorem IsWordPart.infix_comments (h : IsWordPart part) {comments : List Text}
    (none_ : ∀ t ∈ comments, ¬ part <:+: t) (rest : Text) :
    part <:+: comments.flatMap commentLine ++ rest ↔ part <:+: rest := by
  induction comments with
  | nil => rfl
  | cons t comments ih =>
    have line : (t :: comments).flatMap commentLine ++ rest =
        '-' :: '-' :: (t ++ '\n' :: (comments.flatMap commentLine ++ rest)) := by
      simp [commentLine]
    rw [line, h.infix_cons (by decide), h.infix_cons (by decide), h.infix_append (by decide),
      or_iff_right (none_ t List.mem_cons_self)]
    exact ih fun x hx => none_ x (List.mem_cons_of_mem _ hx)

theorem IsWordPart.mentions_identifier (h : IsWordPart part) (name : Text) :
    Mentions part [.identifier name] ↔ part <:+: name := by
  have text : (Lexeme.identifier name).text = quoted '"' name ++ [] := (List.append_nil _).symm
  unfold Mentions
  simp only [List.mem_singleton, exists_eq_left]
  rw [text, h.infix_quoted (by decide), List.infix_nil, or_iff_left h.some_]

theorem mentions_intercalate {sep : List Lexeme} (plain : ¬ Mentions part sep)
    (chunks : List (List Lexeme)) :
    Mentions part (sep.intercalate chunks) ↔ ∃ chunk ∈ chunks, Mentions part chunk := by
  induction chunks with
  | nil => simp [Mentions]
  | cons chunk chunks ih =>
    cases chunks with
    | nil => simp
    | cons next chunks =>
      rw [List.intercalate_cons_cons, List.append_assoc, mentions_append, mentions_append,
        or_iff_right plain, ih]
      simp

end Mentions

end ParmeliaLinks.Sql
