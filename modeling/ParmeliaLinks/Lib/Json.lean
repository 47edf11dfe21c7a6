/-
ParmeliaLinks/Lib/Json.lean

JSON.  `parse` is the whole grammar: white space, literals, numbers, strings with their escapes,
arrays and objects.  A string value is the text that it stands for; an escape that is half of a
surrogate pair alone stands for the replacement character, as it does once the text is stored.
A number is kept as it is written, a coefficient and a power of ten (`JsonNumber.isOne` is
comparison with the nearest double).

Main result: an object whose names are plain texts, and whose values are read back each, is read
back (`parse_objectText`); strings of plain characters are (`Reads.string`).
-/
import Mathlib.Algebra.Group.Nat.Defs
import ParmeliaLinks.Lib.HexText

namespace ParmeliaLinks

/-- A sign, a coefficient and a power of ten. -/
structure JsonNumber where
  negative : Bool
  coefficient : Nat
  exponent : Int
  deriving DecidableEq

inductive Json
  | null
  | bool (b : Bool)
  | num (n : JsonNumber)
  | str (s : Text)
  | arr (elements : List Json)
  | obj (members : List (Text × Json))

/-- The double nearest to the number is one: it is not below `1 - 2⁻⁵⁴` and not above
`1 + 2⁻⁵³`, and both of these are as near to one as to its neighbour, which is odd. -/
def JsonNumber.isOne (n : JsonNumber) : Bool :=
  !n.negative &&
    match n.exponent with
    | .ofNat e => n.coefficient * 10 ^ e == 1
    | .negSucc e => (2 ^ 54 - 1) * 10 ^ (e + 1) ≤ 2 ^ 54 * n.coefficient &&
        2 ^ 53 * n.coefficient ≤ (2 ^ 53 + 1) * 10 ^ (e + 1)

/-- A member of an object: the last one of the name. -/
def Json.member (name : Text) : Json → Option Json
  | .obj members => members.reverse.lookup name
  | _ => none

namespace Json

/-! ### Lexemes -/

def isSpace (c : Char) : Bool := c == ' ' || c == '\t' || c == '\n' || c == '\r'

def skip (t : Text) : Text := t.dropWhile isSpace

/-- The value of four hexadecimal digits. -/
def codeUnit (a b c d : Char) : Option Nat := HexText.readHex [a, b, c, d]

/-- The character of an escape of one character. -/
def escape : Char → Option Char
  | '"' => some '"'
  | '\\' => some '\\'
  | '/' => some '/'
  | 'b' => some '\x08'
  | 'f' => some '\x0c'
  | 'n' => some '\n'
  | 'r' => some '\r'
  | 't' => some '\t'
  | _ => none

/-- The rest of a string behind its first quotation mark: characters, and code units of escapes. -/
def parseUnits : Text → Option (List (Char ⊕ Nat) × Text)
  | [] => none
  | '"' :: rest => some ([], rest)
  | '\\' :: 'u' :: a :: b :: c :: d :: rest => do
    let unit ← codeUnit a b c d
    let (units, rest) ← parseUnits rest
    return (.inr unit :: units, rest)
  | '\\' :: c :: rest => do
    let c ← escape c
    let (units, rest) ← parseUnits rest
    return (.inl c :: units, rest)
  | c :: rest => do
    if c.toNat < 32 ∨ c = '\\' then none
    let (units, rest) ← parseUnits rest
    return (.inl c :: units, rest)

def isHigh (unit : Nat) : Bool := 0xD800 ≤ unit && unit < 0xDC00

def isLow (unit : Nat) : Bool := 0xDC00 ≤ unit && unit < 0xE000

/-- The text of characters and code units: two halves of a pair stand for one character. -/
def textOf : List (Char ⊕ Nat) → Text
  | [] => []
  | .inl c :: rest => c :: textOf rest
  | .inr high :: .inr low :: rest =>
    if isHigh high && isLow low then
      Char.ofNat (0x10000 + (high - 0xD800) * 0x400 + (low - 0xDC00)) :: textOf rest
    else (if isHigh high || isLow high then '\uFFFD' else Char.ofNat high) ::
      textOf (.inr low :: rest)
  | .inr unit :: rest =>
    (if isHigh unit || isLow unit then '\uFFFD' else Char.ofNat unit) :: textOf rest

def parseString (t : Text) : Option (Text × Text) :=
  (parseUnits t).map fun parsed => (textOf parsed.1, parsed.2)

/-- Digits, at least one. -/
def parseDigits (t : Text) : Option (Text × Text) :=
  match t.takeWhile Char.isDigit with
  | [] => none
  | digits => some (digits, t.dropWhile Char.isDigit)

/-- The digits behind the point, if there is one. -/
def parseFraction : Text → Option (Text × Text)
  | '.' :: t => parseDigits t
  | t => some ([], t)

def parseExponentDigits (negative : Bool) (t : Text) : Option (Int × Text) :=
  (parseDigits t).map fun parsed =>
    (if negative then -(decimalValue parsed.1 : Int) else decimalValue parsed.1, parsed.2)

def parseExponent : Text → Option (Int × Text)
  | c :: t =>
    if c = 'e' ∨ c = 'E' then
      match t with
      | '-' :: t => parseExponentDigits true t
      | '+' :: t => parseExponentDigits false t
      | t => parseExponentDigits false t
    else some (0, c :: t)
  | [] => some (0, [])

/-- A number without its sign: no further digit follows a zero at its front. -/
def parseUnsigned (negative : Bool) (t : Text) : Option (JsonNumber × Text) := do
  let (whole, t) ← match t with
    | '0' :: t => some (['0'], t)
    | t => parseDigits t
  let (fraction, t) ← parseFraction t
  let (exponent, t) ← parseExponent t
  return ({ negative, coefficient := decimalValue (whole ++ fraction)
            exponent := exponent - fraction.length }, t)

def parseNumber : Text → Option (JsonNumber × Text)
  | '-' :: t => parseUnsigned true t
  | t => parseUnsigned false t

/-! ### Values -/

/-- A lexeme and what follows the white space behind it. -/
def expect (c : Char) (t : Text) : Option Text :=
  match skip t with
  | d :: rest => if d = c then some rest else none
  | [] => none

mutual

/-- A value, and the rest of the text; `fuel` bounds the depth. -/
def parseValue : Nat → Text → Option (Json × Text)
  | 0, _ => none
  | fuel + 1, t =>
    match skip t with
    | 'n' :: 'u' :: 'l' :: 'l' :: rest => some (.null, rest)
    | 't' :: 'r' :: 'u' :: 'e' :: rest => some (.bool true, rest)
    | 'f' :: 'a' :: 'l' :: 's' :: 'e' :: rest => some (.bool false, rest)
    | '"' :: rest => (parseString rest).map fun parsed => (.str parsed.1, parsed.2)
    | '[' :: rest =>
      match expect ']' rest with
      | some rest => some (.arr [], rest)
      | none => (parseElements fuel rest).map fun parsed => (.arr parsed.1, parsed.2)
    | '\x7b' :: rest =>
      match expect '\x7d' rest with
      | some rest => some (.obj [], rest)
      | none => (parseMembers fuel rest).map fun parsed => (.obj parsed.1, parsed.2)
    | t => (parseNumber t).map fun parsed => (.num parsed.1, parsed.2)

/-- The elements of an array that has some. -/
def parseElements : Nat → Text → Option (List Json × Text)
  | 0, _ => none
  | fuel + 1, t => do
    let (element, t) ← parseValue fuel t
    match expect ',' t with
    | some t =>
      let (elements, t) ← parseElements fuel t
      return (element :: elements, t)
    | none =>
      let t ← expect ']' t
      return ([element], t)

/-- The members of an object that has some. -/
def parseMembers : Nat → Text → Option (List (Text × Json) × Text)
  | 0, _ => none
  | fuel + 1, t => do
    let t ← expect '"' t
    let (name, t) ← parseString t
    let t ← expect ':' t
    let (value, t) ← parseValue fuel t
    match expect ',' t with
    | some t =>
      let (members, t) ← parseMembers fuel t
      return ((name, value) :: members, t)
    | none =>
      let t ← expect '\x7d' t
      return ([(name, value)], t)

end

/-- `JSON.parse`. -/
def parse (t : Text) : Option Json :=
  match parseValue (2 * t.length + 1) t with
  | some (value, rest) => if skip rest = [] then some value else none
  | none => none

/-! ### Plain texts -/

/-- A printable character of ASCII that needs no escape. -/
def plain (c : Char) : Bool := ' ' ≤ c && c ≤ '~' && c != '"' && c != '\\'

/-- A character of a string value as it is written. -/
def escaped (c : Char) : Text :=
  if c = '"' ∨ c = '\\' then ['\\', c]
  else if c = '\x08' then ['\\', 'b'] else if c = '\t' then ['\\', 't']
  else if c = '\n' then ['\\', 'n'] else if c = '\x0c' then ['\\', 'f']
  else if c = '\r' then ['\\', 'r']
  else if c.toNat < 32 then
    ['\\', 'u', '0', '0', HexText.digitChar (Fin.ofNat 16 (c.toNat / 16)),
      HexText.digitChar (Fin.ofNat 16 (c.toNat % 16))]
  else [c]

/-- The text of a string value: quotation marks around it, and escapes in it. -/
def quote (s : Text) : Text := '"' :: s.flatMap escaped ++ ['"']

theorem plain_iff {c : Char} :
    plain c = true ↔ ((32 ≤ c.toNat ∧ c.toNat ≤ 126) ∧ c ≠ '"') ∧ c ≠ '\\' := by
  simp only [plain, Bool.and_eq_true, decide_eq_true_eq, bne_iff_ne]
  exact Iff.rfl

/-- A plain character stands for itself. -/
theorem escaped_plain {c : Char} (h : plain c = true) : escaped c = [c] := by
  obtain ⟨⟨⟨low, -⟩, noQuote⟩, noEscape⟩ := plain_iff.1 h
  have other (d : Char) (control : d.toNat < 32) : c ≠ d := by
    rintro rfl
    omega
  rw [escaped, if_neg (not_or.2 ⟨noQuote, noEscape⟩), if_neg (other _ (by decide)),
    if_neg (other _ (by decide)), if_neg (other _ (by decide)), if_neg (other _ (by decide)),
    if_neg (other _ (by decide)), if_neg (Nat.not_lt.2 low)]

theorem quote_plain {s : Text} (h : ∀ c ∈ s, plain c = true) : quote s = '"' :: s ++ ['"'] := by
  have unescaped : s.flatMap escaped = s := by
    induction s with
    | nil => rfl
    | cons c s ih =>
      rw [List.flatMap_cons, escaped_plain (h c List.mem_cons_self),
        ih fun d hd => h d (List.mem_cons_of_mem c hd)]
      rfl
  rw [quote, unescaped]

theorem parseUnits_plain {s : Text} (h : ∀ c ∈ s, plain c = true) (rest : Text) :
    parseUnits (s ++ '"' :: rest) = some (s.map .inl, rest) := by
  induction s with
  | nil => rfl
  | cons c s ih =>
    obtain ⟨⟨⟨low, -⟩, noQuote⟩, noEscape⟩ := plain_iff.1 (h c List.mem_cons_self)
    have unit : ¬ (c.toNat < 32 ∨ c = '\\') := by
      rintro (control | rfl)
      · omega
      · exact noEscape rfl
    rw [List.cons_append, parseUnits]
    · rw [if_neg unit, ih fun d hd => h d (List.mem_cons_of_mem c hd)]
      rfl
    · exact noQuote
    · rintro a b d e rest rfl
      exact absurd rfl noEscape
    · rintro d rest rfl
      exact absurd rfl noEscape

theorem textOf_inl (s : Text) : textOf (s.map .inl) = s := by
  induction s with
  | nil => rfl
  | cons c s ih => rw [List.map_cons, textOf, ih]

/-- A text of plain characters is read up to the quotation mark. -/
theorem parseString_plain {s : Text} (h : ∀ c ∈ s, plain c = true) (rest : Text) :
    parseString (s ++ '"' :: rest) = some (s, rest) := by
  rw [parseString, parseUnits_plain h, Option.map_some, textOf_inl]

/-! ### Objects -/

/-- The members of an object: names, and the texts of the values. -/
def membersText : List (Text × Text) → Text
  | [] => []
  | [m] => quote m.1 ++ ':' :: m.2
  | m :: ms => quote m.1 ++ ':' :: m.2 ++ ',' :: membersText ms

def objectText (members : List (Text × Text)) : Text :=
  '\x7b' :: membersText members ++ ['\x7d']

/-- The text is read as the value in front of what follows a member. -/
def Reads (text : Text) (value : Json) : Prop :=
  ∀ fuel c rest, c = ',' ∨ c = '\x7d' →
    parseValue (fuel + 1) (text ++ c :: rest) = some (value, c :: rest)

theorem parseValue_string (fuel : Nat) (t : Text) :
    parseValue (fuel + 1) ('"' :: t) =
      (parseString t).map fun parsed => (.str parsed.1, parsed.2) := by
  rw [parseValue]
  rfl

theorem parseValue_object (fuel : Nat) (t : Text) :
    parseValue (fuel + 1) ('\x7b' :: '"' :: t) =
      (parseMembers fuel ('"' :: t)).map fun parsed => (.obj parsed.1, parsed.2) := by
  rw [parseValue]
  rfl

theorem Reads.string {s : Text} (h : ∀ c ∈ s, plain c = true) : Reads (quote s) (.str s) := by
  intro fuel c rest _
  have text : quote s ++ c :: rest = '"' :: (s ++ '"' :: c :: rest) := by
    rw [quote_plain h]
    simp
  rw [text, parseValue_string, parseString_plain h]
  rfl

theorem Reads.one : Reads ['1'] (.num ⟨false, 1, 0⟩) := by
  rintro fuel c rest (rfl | rfl)
  · rw [parseValue]
    rfl
  · rw [parseValue]
    rfl

/-- A member: its name is plain, and its value is read back. -/
structure Member (m : Text × Text) (v : Text × Json) : Prop where
  name : m.1 = v.1
  plain : ∀ c ∈ m.1, plain c = true
  reads : Reads m.2 v.2

section

variable {m : Text × Text} {v : Text × Json} (member : Member m v) (fuel : Nat) (rest : Text)

include member

/-- A member in front of others. -/
theorem parseMembers_cons :
    parseMembers (fuel + 2) (quote m.1 ++ ':' :: m.2 ++ ',' :: rest) =
      (parseMembers (fuel + 1) rest).map fun parsed => (v :: parsed.1, parsed.2) := by
  have text : quote m.1 ++ ':' :: m.2 ++ ',' :: rest =
      '"' :: (m.1 ++ '"' :: ':' :: (m.2 ++ ',' :: rest)) := by
    rw [quote_plain member.plain]
    simp
  have name : expect '"' ('"' :: (m.1 ++ '"' :: ':' :: (m.2 ++ ',' :: rest))) =
      some (m.1 ++ '"' :: ':' :: (m.2 ++ ',' :: rest)) := rfl
  have colon : expect ':' (':' :: (m.2 ++ ',' :: rest)) = some (m.2 ++ ',' :: rest) := rfl
  have comma : expect ',' (',' :: rest) = some rest := rfl
  have pair : (m.1, v.2) = v := by rw [member.name]
  rw [text, parseMembers, name]
  simp only [bind, Option.bind, parseString_plain member.plain, colon,
    member.reads fuel ',' rest (.inl rfl), comma, pair]
  cases parseMembers (fuel + 1) rest with
  | none => rfl
  | some parsed => rfl

/-- The last member. -/
theorem parseMembers_last :
    parseMembers (fuel + 2) (quote m.1 ++ ':' :: m.2 ++ '\x7d' :: rest) = some ([v], rest) := by
  have text : quote m.1 ++ ':' :: m.2 ++ '\x7d' :: rest =
      '"' :: (m.1 ++ '"' :: ':' :: (m.2 ++ '\x7d' :: rest)) := by
    rw [quote_plain member.plain]
    simp
  have name : expect '"' ('"' :: (m.1 ++ '"' :: ':' :: (m.2 ++ '\x7d' :: rest))) =
      some (m.1 ++ '"' :: ':' :: (m.2 ++ '\x7d' :: rest)) := rfl
  have colon : expect ':' (':' :: (m.2 ++ '\x7d' :: rest)) = some (m.2 ++ '\x7d' :: rest) := rfl
  have comma : expect ',' ('\x7d' :: rest) = none := rfl
  have close : expect '\x7d' ('\x7d' :: rest) = some rest := rfl
  have pair : (m.1, v.2) = v := by rw [member.name]
  rw [text, parseMembers, name]
  simp only [bind, Option.bind, parseString_plain member.plain, colon,
    member.reads fuel '\x7d' rest (.inr rfl), comma, close, pair]
  rfl

end

/-- One more member needs one more step. -/
theorem parseMembers_members {ms : List (Text × Text)} {vs : List (Text × Json)}
    (members : List.Forall₂ Member ms vs) (some_ : ms ≠ []) {fuel : Nat} (enough : ms.length < fuel)
    (rest : Text) :
    parseMembers fuel (membersText ms ++ '\x7d' :: rest) = some (vs, rest) := by
  induction members generalizing fuel with
  | nil => exact absurd rfl some_
  | @cons m v ms vs member members ih =>
    obtain ⟨fuel, rfl⟩ : ∃ n, fuel = n + 2 := ⟨fuel - 2, by simp at enough; omega⟩
    cases members with
    | nil => exact parseMembers_last member fuel rest
    | @cons m' v' ms vs member' members =>
      have text : membersText (m :: m' :: ms) ++ '\x7d' :: rest =
          quote m.1 ++ ':' :: m.2 ++ ',' :: (membersText (m' :: ms) ++ '\x7d' :: rest) := by
        rw [membersText]
        · simp
        · simp
      have others := ih (List.cons_ne_nil m' ms) (by simp at enough ⊢; omega : _ < fuel + 1)
      rw [text, parseMembers_cons member, others]
      rfl

theorem length_le_membersText (ms : List (Text × Text)) : ms.length ≤ (membersText ms).length := by
  induction ms using membersText.induct with
  | case1 => simp
  | case2 m => simp [membersText, quote]
  | case3 m ms more ih =>
    rw [membersText]
    · simp only [List.length_cons, List.length_append]
      omega
    · exact more

/-- An object is read back. -/
theorem parse_objectText {ms : List (Text × Text)} {vs : List (Text × Json)}
    (members : List.Forall₂ Member ms vs) : parse (objectText ms) = some (.obj vs) := by
  have whole (fuel : Nat) (enough : ms.length < fuel) :
      parseValue (fuel + 1) (objectText ms) = some (.obj vs, []) := by
    cases members with
    | nil => rfl
    | @cons m v ms vs member members =>
      have front : ∃ t, membersText (m :: ms) ++ ['\x7d'] = '"' :: t := by
        cases ms with
        | nil => exact ⟨_, rfl⟩
        | cons m' ms => exact ⟨_, rfl⟩
      obtain ⟨t, front⟩ := front
      have read := parseMembers_members (.cons member members) (List.cons_ne_nil m ms) enough []
      rw [objectText, List.cons_append, front, parseValue_object, ← front, read]
      rfl
  have enough : ms.length < 2 * (objectText ms).length := by
    have := length_le_membersText ms
    simp only [objectText, List.length_cons, List.length_append, List.length_nil]
    omega
  rw [parse, whole _ enough]
  rfl

end Json

end ParmeliaLinks
