/-
ParmeliaLinks/Server/LedgerPages.lean

The statement of a user, page by page.  A page is the newest rows of the ledger behind a
position, and a position is the creation time and the identifier of the last row that was read;
it goes to the client and back as a text.

Main results: the position comes back as it was sent (`decode_encodeLedgerCursor`), and a client
that follows the positions gets every canonical row once, in the order of the statement, also
when newer rows are written between its requests (`follow_complete`).
-/
import Mathlib.Data.List.DropRight
import Mathlib.Data.Prod.Lex
import Mathlib.Data.Char
import Mathlib.Data.List.Lex
import ParmeliaLinks.Lib.Base64
import ParmeliaLinks.Lib.Json
import ParmeliaLinks.Lib.Keyset
import ParmeliaLinks.Lib.Table

namespace ParmeliaLinks.Server.LedgerPages

/-! ### Times -/

/-- A time value: milliseconds since 1970, a hundred million days either way. -/
structure Time where
  ms : Int
  bounded : ms.natAbs ≤ 8640000000000000

/-- A date of the Gregorian calendar: year, month and day. -/
structure Civil where
  year : Int
  month : Nat
  day : Nat
  deriving DecidableEq

/-- The date of a day, which is counted from 1970; years are taken from March on. -/
def civil (days : Int) : Civil :=
  let shifted := days + 719468
  let era := shifted / 146097
  let dayOfEra := shifted % 146097
  let yearOfEra := (dayOfEra - dayOfEra / 1460 + dayOfEra / 36524 - dayOfEra / 146096) / 365
  let dayOfYear := dayOfEra - (365 * yearOfEra + yearOfEra / 4 - yearOfEra / 100)
  let month := (5 * dayOfYear + 2) / 153
  { year := yearOfEra + era * 400 + if month < 10 then 0 else 1
    month := (if month < 10 then month + 3 else month - 9).toNat
    day := (dayOfYear - (153 * month + 2) / 5 + 1).toNat }

example : civil 0 = ⟨1970, 1, 1⟩ := by decide

example : civil 19782 = ⟨2024, 2, 29⟩ := by decide

def pad (width n : Nat) : Text := List.replicate (width - (decimal n).length) '0' ++ decimal n

/-- Years beyond four digits are written with a sign and six digits. -/
def yearText (year : Int) : Text :=
  if 0 ≤ year ∧ year ≤ 9999 then pad 4 year.toNat
  else (if year < 0 then '-' else '+') :: pad 6 year.natAbs

def toISOString (time : Time) : Text :=
  let date := civil (time.ms / 86400000)
  let rest := (time.ms % 86400000).toNat
  yearText date.year ++ '-' :: pad 2 date.month ++ '-' :: pad 2 date.day ++
    'T' :: pad 2 (rest / 3600000) ++ ':' :: pad 2 (rest / 60000 % 60) ++
    ':' :: pad 2 (rest / 1000 % 60) ++ '.' :: pad 3 (rest % 1000) ++ ['Z']

example : String.ofList (toISOString ⟨1709210096789, by decide⟩) = "2024-02-29T12:34:56.789Z" := by
  decide

theorem length_pad {width n : Nat} (pos : 0 < width) (small : n < 10 ^ width) :
    (pad width n).length = width := by
  have digits : (decimal n).length ≤ width :=
    (Nat.length_toDigits_le_iff (by decide) pos).2 small
  rw [pad, List.length_append, List.length_replicate]
  omega

theorem plain_pad (width n : Nat) : ∀ c ∈ pad width n, Json.plain c = true := by
  intro c hc
  have digit : c.isDigit = true := by
    rcases List.mem_append.1 hc with hc | hc
    · rw [List.eq_of_mem_replicate hc]
      rfl
    · exact isDigit_of_mem_decimal hc
  simp only [Char.isDigit, Bool.and_eq_true, decide_eq_true_eq] at digit
  have low : 48 ≤ c.toNat := digit.1
  have high : c.toNat ≤ 57 := digit.2
  refine Json.plain_iff.2 ⟨⟨⟨by omega, by omega⟩, ?_⟩, ?_⟩
  · rintro rfl
    revert low
    decide
  · rintro rfl
    revert high
    decide

/-- The bounds of a time value are those of its date. -/
theorem civil_bounds {days : Int} (h : days.natAbs ≤ 100000000) :
    (civil days).year.natAbs < 10 ^ 6 ∧ (civil days).month < 10 ^ 2 ∧
      (civil days).day < 10 ^ 2 := by
  obtain ⟨shifted, hs⟩ : ∃ s, s = days + 719468 := ⟨_, rfl⟩
  obtain ⟨doe, hd⟩ : ∃ d, d = shifted % 146097 := ⟨_, rfl⟩
  obtain ⟨yoe, hy⟩ : ∃ y, y = (doe - doe / 1460 + doe / 36524 - doe / 146096) / 365 := ⟨_, rfl⟩
  obtain ⟨doy, hdoy⟩ : ∃ d, d = doe - (365 * yoe + yoe / 4 - yoe / 100) := ⟨_, rfl⟩
  obtain ⟨month, hm⟩ : ∃ m, m = (5 * doy + 2) / 153 := ⟨_, rfl⟩
  have year : 0 ≤ yoe ∧ yoe ≤ 400 := by omega
  have ofYear : doy ≤ 1000 := by omega
  simp only [civil, ← hs, ← hd, ← hy, ← hdoy, ← hm]
  refine ⟨?_, ?_, ?_⟩
  · split
    · omega
    · omega
  · split
    · omega
    · omega
  · omega

theorem length_yearText {year : Int} (h : year.natAbs < 10 ^ 6) :
    4 ≤ (yearText year).length ∧ (yearText year).length ≤ 7 := by
  unfold yearText
  split
  · rw [length_pad (by decide) (by omega)]
    exact ⟨by decide, by decide⟩
  · rw [List.length_cons, length_pad (by decide) h]
    exact ⟨by decide, by decide⟩

theorem length_toISOString (time : Time) :
    24 ≤ (toISOString time).length ∧ (toISOString time).length ≤ 27 := by
  have day : (time.ms / 86400000).natAbs ≤ 100000000 := by
    have := time.bounded
    omega
  obtain ⟨year, month, day⟩ := civil_bounds day
  have yearLength := length_yearText year
  simp only [toISOString, List.length_append, List.length_cons, List.length_nil,
    length_pad (by decide : 0 < 2) month, length_pad (by decide : 0 < 2) day]
  rw [length_pad (by decide) (by omega), length_pad (by decide) (by omega),
    length_pad (by decide) (by omega), length_pad (by decide) (by omega)]
  omega

theorem plain_yearText (year : Int) : ∀ c ∈ yearText year, Json.plain c = true := by
  unfold yearText
  split
  · exact plain_pad _ _
  · refine List.forall_mem_cons.2 ⟨?_, plain_pad _ _⟩
    split
    · rfl
    · rfl

theorem plain_toISOString (time : Time) : ∀ c ∈ toISOString time, Json.plain c = true := by
  have separated (c : Char) (hc : Json.plain c = true) (t u : Text)
      (ht : ∀ d ∈ t, Json.plain d = true) (hu : ∀ d ∈ u, Json.plain d = true) :
      ∀ d ∈ t ++ c :: u, Json.plain d = true := by
    refine List.forall_mem_append.2 ⟨ht, List.forall_mem_cons.2 ⟨hc, hu⟩⟩
  have last : ∀ c ∈ ['Z'], Json.plain c = true := forall_mem_of_all (by decide)
  unfold toISOString
  refine List.forall_mem_append.2 ⟨?_, last⟩
  refine separated '.' rfl _ _ ?_ (plain_pad _ _)
  refine separated ':' rfl _ _ ?_ (plain_pad _ _)
  refine separated ':' rfl _ _ ?_ (plain_pad _ _)
  refine separated 'T' rfl _ _ ?_ (plain_pad _ _)
  refine separated '-' rfl _ _ ?_ (plain_pad _ _)
  exact separated '-' rfl _ _ (plain_yearText _) (plain_pad _ _)

/-! ### The cursor -/

/-- How many code units a text has, where a text counts them. -/
def codeUnits (t : Text) : Nat := (t.map fun c => if c.toNat < 65536 then 1 else 2).sum

/-- `LedgerPageCursor`, without its version. -/
structure LedgerPageCursor where
  createdAt : Text
  id : Text
  deriving DecidableEq

/-- `btoa`: each character is a byte, or the text is not taken. -/
def btoa (t : Text) : Option Text :=
  (t.mapM fun c => if h : c.toNat < 256 then some (⟨c.toNat, h⟩ : Base64.Byte) else none).map
    Base64.encode

def atob (t : Text) : Option Text :=
  (Base64.decode t).map (·.map fun b : Base64.Byte => Char.ofNat b.val)

/-- `JSON.stringify({ v: 1, createdAt, id })`. -/
def cursorJson (cursor : LedgerPageCursor) : Text :=
  Json.objectText [(['v'], ['1']),
    (['c', 'r', 'e', 'a', 't', 'e', 'd', 'A', 't'], Json.quote cursor.createdAt),
    (['i', 'd'], Json.quote cursor.id)]

def toUrl (c : Char) : Char := if c = '+' then '-' else if c = '/' then '_' else c

def ofUrl (c : Char) : Char := if c = '-' then '+' else if c = '_' then '/' else c

def encodeLedgerCursor (cursor : LedgerPageCursor) : Option Text :=
  (btoa (cursorJson cursor)).map fun t => (t.map toUrl).rdropWhile (· = '=')

/-- `Date.parse`: what it makes of other texts is up to the engine. -/
structure DateParse where
  parse : Text → Option Int
  isSome_toISOString : ∀ time, (parse (toISOString time)).isSome = true

/-- The characters of a cursor. -/
def isUrlChar (c : Char) : Bool := c.isAlphanum || c == '_' || c == '-'

/-- The position that the members of the parsed object give, if they pass. -/
def cursorOf (dates : DateParse) (parsed : Json) : Option LedgerPageCursor :=
  match parsed.member ['v'], parsed.member ['c', 'r', 'e', 'a', 't', 'e', 'd', 'A', 't'],
    parsed.member ['i', 'd'] with
  | some (.num v), some (.str createdAt), some (.str id) =>
    if v.isOne ∧ (20 ≤ codeUnits createdAt ∧ codeUnits createdAt ≤ 40 ∧
        (dates.parse createdAt).isSome) ∧ 1 ≤ codeUnits id ∧ codeUnits id ≤ 128 then
      some { createdAt, id }
    else none
  | _, _, _ => none

/-- Every failure is an `InvalidLedgerCursorError`. -/
def decodeLedgerCursor (dates : DateParse) (value : Text) : Option LedgerPageCursor :=
  if codeUnits value < 1 ∨ 512 < codeUnits value ∨ value.all isUrlChar = false then none
  else do
    let parsed ← Json.parse (← atob (Base64.padded (value.map ofUrl)))
    cursorOf dates parsed

/-! ### A position comes back -/

theorem codeUnits_of_plain {t : Text} (h : ∀ c ∈ t, Json.plain c = true) :
    codeUnits t = t.length := by
  induction t with
  | nil => rfl
  | cons c t ih =>
    obtain ⟨⟨⟨-, high⟩, -⟩, -⟩ := Json.plain_iff.1 (h c List.mem_cons_self)
    have rest := ih fun d hd => h d (List.mem_cons_of_mem c hd)
    rw [codeUnits] at rest ⊢
    rw [List.map_cons, List.sum_cons, rest, if_pos (by omega), List.length_cons]
    omega

local instance byteValues : NeZero 256 := ⟨by decide⟩

/-- The bytes of a text that `btoa` takes. -/
def latin (t : Text) : List Base64.Byte := t.map fun c => Fin.ofNat 256 c.toNat

theorem btoa_latin {t : Text} (h : ∀ c ∈ t, c.toNat < 256) :
    btoa t = some (Base64.encode (latin t)) := by
  have bytes : t.mapM (fun c => if h : c.toNat < 256 then
      some (⟨c.toNat, h⟩ : Base64.Byte) else none) = some (latin t) := by
    induction t with
    | nil => rfl
    | cons c t ih =>
      have small := h c List.mem_cons_self
      have byte : (⟨c.toNat, small⟩ : Base64.Byte) = Fin.ofNat 256 c.toNat :=
        Fin.ext (Nat.mod_eq_of_lt small).symm
      rw [List.mapM_cons, ih fun d hd => h d (List.mem_cons_of_mem c hd), dif_pos small, byte]
      rfl
  rw [btoa, bytes]
  rfl

theorem map_ofNat_latin {t : Text} (h : ∀ c ∈ t, c.toNat < 256) :
    ((latin t).map fun b : Base64.Byte => Char.ofNat b.val) = t := by
  rw [latin, List.map_map]
  refine (List.map_congr_left fun c hc => ?_).trans (List.map_id t)
  show Char.ofNat (c.toNat % 256) = c
  rw [Nat.mod_eq_of_lt (h c hc), Char.ofNat_toNat]

set_option maxRecDepth 4000 in
/-- The digits in the alphabet of addresses. -/
theorem ofUrl_toUrl_digit : ∀ n < 64, ofUrl (toUrl (Base64.digit n)) = Base64.digit n ∧
    isUrlChar (toUrl (Base64.digit n)) = true ∧ Json.plain (toUrl (Base64.digit n)) = true ∧
      toUrl (Base64.digit n) ≠ '=' := by decide

/-- The text of a cursor has the digits alone. -/
theorem rdropWhile_encode (bs : List Base64.Byte) :
    ((Base64.encode bs).map toUrl).rdropWhile (· = '=') = (Base64.unfilled bs).map toUrl := by
  have filling (n : Nat) (t : Text) (last : ∀ hl : t ≠ [], ¬ (decide (t.getLast hl = '=') = true)) :
      (t ++ List.replicate n '=').rdropWhile (· = '=') = t := by
    induction n with
    | zero => rw [List.replicate_zero, List.append_nil, List.rdropWhile_eq_self_iff.2 last]
    | succ n ih =>
      rw [List.replicate_succ', ← List.append_assoc, List.rdropWhile_concat_pos _ _ _ (by decide), ih]
  rw [Base64.encode, Base64.padded, List.map_append, List.map_replicate]
  refine filling _ _ fun hl => ?_
  obtain ⟨c, hc, last⟩ := List.mem_map.1 (List.getLast_mem hl)
  obtain ⟨n, hn, rfl⟩ := List.mem_map.1 hc
  rw [← last, decide_eq_true_iff]
  exact (ofUrl_toUrl_digit n (Base64.digits_lt bs n hn)).2.2.2

/-- Every writer's row has the identifier of `crypto.randomUUID()`. -/
abbrev RowId := { t : Text // (∀ c ∈ t, Json.plain c = true) ∧ 1 ≤ t.length ∧ t.length ≤ 128 }

/-- Every writer's row has the time of a `toISOString()`. -/
abbrev IsoText := { t : Text // ∃ time, toISOString time = t }

section

variable (createdAt : IsoText) (id : RowId)

/-- The position of a row. -/
def cursorAt : LedgerPageCursor := { createdAt := createdAt.val, id := id.val }

theorem plain_createdAt : ∀ c ∈ createdAt.val, Json.plain c = true := by
  obtain ⟨time, text⟩ := createdAt.property
  rw [← text]
  exact plain_toISOString time

theorem length_createdAt : 24 ≤ createdAt.val.length ∧ createdAt.val.length ≤ 27 := by
  obtain ⟨time, text⟩ := createdAt.property
  rw [← text]
  exact length_toISOString time

theorem cursorJson_eq : cursorJson (cursorAt createdAt id) =
    ['\x7b', '"', 'v', '"', ':', '1', ',', '"', 'c', 'r', 'e', 'a', 't', 'e', 'd', 'A', 't', '"',
      ':', '"'] ++ createdAt.val ++ ['"', ',', '"', 'i', 'd', '"', ':', '"'] ++ id.val ++
      ['"', '\x7d'] := by
  rw [cursorJson, cursorAt, Json.quote_plain (plain_createdAt createdAt),
    Json.quote_plain id.property.1]
  simp [Json.objectText, Json.membersText, Json.quote, Json.escaped]

theorem latin_cursorJson : ∀ c ∈ cursorJson (cursorAt createdAt id), c.toNat < 256 := by
  have ascii {c : Char} (h : Json.plain c = true) : c.toNat < 256 := by
    have := (Json.plain_iff.1 h).1.1.2
    omega
  rw [cursorJson_eq]
  simp only [List.forall_mem_append]
  refine ⟨⟨⟨⟨forall_mem_of_all (by decide), ?_⟩, forall_mem_of_all (by decide)⟩, ?_⟩,
    forall_mem_of_all (by decide)⟩
  · exact fun c hc => ascii (plain_createdAt createdAt c hc)
  · exact fun c hc => ascii (id.property.1 c hc)

theorem length_cursorJson : (cursorJson (cursorAt createdAt id)).length ≤ 185 := by
  have time := (length_createdAt createdAt).2
  have name := id.property.2.2
  rw [cursorJson_eq]
  simp only [List.length_append, List.length_cons, List.length_nil]
  omega

theorem parse_cursorJson : Json.parse (cursorJson (cursorAt createdAt id)) =
    some (.obj [(['v'], .num ⟨false, 1, 0⟩),
      (['c', 'r', 'e', 'a', 't', 'e', 'd', 'A', 't'], .str createdAt.val),
      (['i', 'd'], .str id.val)]) := by
  have v : ∀ c ∈ ['v'], Json.plain c = true := forall_mem_of_all (by decide)
  have time : ∀ c ∈ ['c', 'r', 'e', 'a', 't', 'e', 'd', 'A', 't'], Json.plain c = true :=
    forall_mem_of_all (by decide)
  have name : ∀ c ∈ ['i', 'd'], Json.plain c = true := forall_mem_of_all (by decide)
  refine Json.parse_objectText (.cons ?_ (.cons ?_ (.cons ?_ .nil)))
  · exact ⟨rfl, v, Json.Reads.one⟩
  · exact ⟨rfl, time, Json.Reads.string (plain_createdAt createdAt)⟩
  · exact ⟨rfl, name, Json.Reads.string id.property.1⟩

/-- The members of the parsed object pass. -/
theorem cursorOf_cursorJson (dates : DateParse) :
    cursorOf dates (.obj [(['v'], .num ⟨false, 1, 0⟩),
      (['c', 'r', 'e', 'a', 't', 'e', 'd', 'A', 't'], .str createdAt.val),
      (['i', 'd'], .str id.val)]) = some (cursorAt createdAt id) := by
  have time := length_createdAt createdAt
  have name := id.property.2
  have date : (dates.parse createdAt.val).isSome = true := by
    obtain ⟨time, text⟩ := createdAt.property
    rw [← text]
    exact dates.isSome_toISOString time
  refine if_pos ⟨rfl, ⟨?_, ?_, date⟩, ?_, ?_⟩
  · rw [codeUnits_of_plain (plain_createdAt createdAt)]
    omega
  · rw [codeUnits_of_plain (plain_createdAt createdAt)]
    omega
  · rw [codeUnits_of_plain id.property.1]
    exact name.1
  · rw [codeUnits_of_plain id.property.1]
    exact name.2

/-- The text of a cursor: digits of the alphabet of addresses. -/
theorem encodeLedgerCursor_eq : encodeLedgerCursor (cursorAt createdAt id) =
    some ((Base64.unfilled (latin (cursorJson (cursorAt createdAt id)))).map toUrl) := by
  rw [encodeLedgerCursor, btoa_latin (latin_cursorJson createdAt id), Option.map_some,
    rdropWhile_encode]

/-- A position comes back as it was sent. -/
theorem decode_encode (dates : DateParse) :
    (encodeLedgerCursor (cursorAt createdAt id)).bind (decodeLedgerCursor dates) =
      some (cursorAt createdAt id) := by
  rw [encodeLedgerCursor_eq, Option.bind_some]
  obtain ⟨bytes, hb⟩ : ∃ bs, bs = latin (cursorJson (cursorAt createdAt id)) := ⟨_, rfl⟩
  rw [← hb]
  have digits : ∀ c ∈ Base64.unfilled bytes, ∃ n < 64, Base64.digit n = c := by
    intro c hc
    obtain ⟨n, hn, rfl⟩ := List.mem_map.1 hc
    exact ⟨n, Base64.digits_lt bytes n hn, rfl⟩
  have url : ∀ c ∈ (Base64.unfilled bytes).map toUrl, isUrlChar c = true ∧ Json.plain c = true := by
    intro c hc
    obtain ⟨d, hd, rfl⟩ := List.mem_map.1 hc
    obtain ⟨n, hn, rfl⟩ := digits d hd
    exact ⟨(ofUrl_toUrl_digit n hn).2.1, (ofUrl_toUrl_digit n hn).2.2.1⟩
  -- the length is between the bounds of the reader
  have units : codeUnits ((Base64.unfilled bytes).map toUrl) = (Base64.digits bytes).length := by
    rw [codeUnits_of_plain fun c hc => (url c hc).2, List.length_map, Base64.unfilled,
      List.length_map]
  have long : (Base64.digits bytes).length ≤ 512 := by
    have text := length_cursorJson createdAt id
    have groups := Base64.length_digits_le bytes
    rw [hb, latin, List.length_map, ← latin, ← hb] at groups
    omega
  have short : 1 ≤ (Base64.digits bytes).length := by
    refine List.length_pos_of_ne_nil fun none => ?_
    refine Base64.unfilled_ne_nil bytes ?_ (by rw [Base64.unfilled, none]; rfl)
    rw [hb, cursorJson_eq]
    exact List.cons_ne_nil _ _
  have back : ((Base64.unfilled bytes).map toUrl).map ofUrl = Base64.unfilled bytes := by
    rw [List.map_map]
    refine (List.map_congr_left fun c hc => ?_).trans (List.map_id _)
    obtain ⟨n, hn, rfl⟩ := digits c hc
    exact (ofUrl_toUrl_digit n hn).1
  have read : atob (Base64.padded (Base64.unfilled bytes)) =
      some (cursorJson (cursorAt createdAt id)) := by
    rw [atob, Base64.decode_padded, Option.map_some, hb,
      map_ofNat_latin (latin_cursorJson createdAt id)]
  rw [decodeLedgerCursor, if_neg, back, read]
  · show (Json.parse (cursorJson (cursorAt createdAt id))).bind (cursorOf dates) = _
    rw [parse_cursorJson, Option.bind_some, cursorOf_cursorJson]
  · rintro (empty | tooLong | other)
    · omega
    · omega
    · rw [List.all_eq_true.2 fun c hc => (url c hc).1] at other
      cases other

end

/-! ### The ledger -/

inductive Direction | incoming | outgoing
  deriving DecidableEq

inductive Kind | payment | link | swap | fund | external | earn
  deriving DecidableEq

/-- A row of `ledger`; `content` stands for the columns that are stored and shown, and that
nothing here asks about. -/
structure LedgerRow (χ : Type) where
  id : RowId
  uid : Text
  direction : Direction
  kind : Kind
  txHash : Text
  logIndex : Option Int
  token : Text
  counterpartyUid : Option Text
  blockHash : Option Text
  createdAt : IsoText
  canonical : Bool
  content : χ
  deriving DecidableEq

structure UserRow where
  uid : Text
  username : Option Text
  displayName : Option Text
  deriving DecidableEq

/-- The columns of `idx_ledger_dedup`. -/
def LedgerRow.dedup {χ : Type} (r : LedgerRow χ) : Text × Text × Direction × Text × Int :=
  (r.uid, r.txHash, r.direction, r.token, r.logIndex.getD (-1))

instance {χ : Type} : Row (LedgerRow χ) where
  clash r r' := r.id == r'.id || r.dedup == r'.dedup
  clash_comm _ _ := congrArg₂ _ Bool.beq_comm Bool.beq_comm

instance : Row UserRow where
  clash r r' := r.uid == r'.uid
  clash_comm _ _ := Bool.beq_comm

structure World (χ : Type) where
  ledger : Table (LedgerRow χ)
  users : Table UserRow

variable {χ : Type}

/-- The order of the statement: by time, and rows of one time by their identifiers. -/
def LedgerRow.position (r : LedgerRow χ) : Text ×ₗ Text := toLex (r.createdAt.val, r.id.val)

/-! #### Writing -/

/-- What an entry of a block sets on a row that a reorganisation took out. -/
def LedgerRow.restored (e r : LedgerRow χ) : LedgerRow χ :=
  { r with
    counterpartyUid := e.counterpartyUid, blockHash := e.blockHash, createdAt := e.createdAt
    content := e.content, canonical := true }

theorem keepsKeys_restored (e : LedgerRow χ) : Table.KeepsKeys e.restored :=
  ⟨fun _ _ => rfl⟩

/-- A statement of `writeLedgerEntries`: an entry with the keys of a row is that row. -/
def writeEntry (ledger : Table (LedgerRow χ)) (e : LedgerRow χ) : Table (LedgerRow χ) :=
  match ledger.find? (Row.clash · e) with
  | none => ledger.insertOrIgnore e
  | some row =>
    ledger.modify (fun r => r.id == row.id && !r.canonical && e.blockHash.isSome) e.restored
      (keepsKeys_restored e)

/-- What is canonical stays as it is. -/
theorem mem_writeEntry {ledger : Table (LedgerRow χ)} {r : LedgerRow χ} (hr : r ∈ ledger)
    (canonical : r.canonical = true) (e : LedgerRow χ) : r ∈ writeEntry ledger e := by
  unfold writeEntry
  split
  · exact Table.mem_insertOrIgnore_of_mem hr
  · refine Table.mem_modify.2 ⟨r, hr, if_neg ?_⟩
    rw [canonical]
    simp

theorem mem_foldl_writeEntry {ledger : Table (LedgerRow χ)} {r : LedgerRow χ} (hr : r ∈ ledger)
    (canonical : r.canonical = true) (entries : List (LedgerRow χ)) :
    r ∈ entries.foldl writeEntry ledger := by
  induction entries generalizing ledger with
  | nil => exact hr
  | cons e entries ih => exact ih (mem_writeEntry hr canonical e)

/-! #### Reading a page -/

/-- `LedgerEntry`: a row with the names of the other side. -/
structure LedgerEntry (χ : Type) where
  row : LedgerRow χ
  counterpartyUsername : Option Text
  counterpartyDisplayName : Option Text
  deriving DecidableEq

structure LedgerPage (χ : Type) where
  entries : List (LedgerEntry χ)
  nextCursor : Option Text
  deriving DecidableEq

inductive PageError
  | invalidLedgerCursor
  | invalidCharacter
  deriving DecidableEq

/-- `LEFT JOIN users`: the users that the row names, or the row alone. -/
def leftJoin (users : Table UserRow) (row : LedgerRow χ) : List (LedgerEntry χ) :=
  match users.filter fun user => row.counterpartyUid == some user.uid with
  | [] => [⟨row, none, none⟩]
  | found => found.map fun user => ⟨row, user.username, user.displayName⟩

/-- The rows of the user that count, with names. -/
def selection (w : World χ) (uid : Text) : List (LedgerEntry χ) :=
  (w.ledger.rows.flatMap (leftJoin w.users)).filter fun entry =>
    entry.row.uid == uid && entry.row.canonical

/-- The condition behind a position. -/
def LedgerPageCursor.admits (before : LedgerPageCursor) (row : LedgerRow χ) : Bool :=
  row.createdAt.val < before.createdAt ||
    (row.createdAt.val == before.createdAt && row.id.val < before.id)

def pageLimit (limit : Option Int) : Nat := (min 100 (max 1 (limit.getD 50))).toNat

/-- At most `limit` rows, and one more to see whether there is another page. -/
def queryPage (w : World χ) (uid : Text) (before : Option LedgerPageCursor) (limit : Nat) :
    List (LedgerEntry χ) :=
  (Keyset.ordered (fun entry => entry.row.position)
    ((selection w uid).filter fun entry => before.all (·.admits entry.row))).take (limit + 1)

def readCursor (dates : DateParse) : Option Text → Except PageError (Option LedgerPageCursor)
  | none | some [] => .ok none
  | some text =>
    match decodeLedgerCursor dates text with
    | some cursor => .ok (some cursor)
    | none => .error .invalidLedgerCursor

/-- The page of the rows that were read. -/
def pageOf (limit : Nat) (rows : List (LedgerEntry χ)) : Except PageError (LedgerPage χ) :=
  if limit < rows.length then
    match (rows.take limit).getLast? with
    | some tail =>
      match encodeLedgerCursor (cursorAt tail.row.createdAt tail.row.id) with
      | some text => .ok ⟨rows.take limit, some text⟩
      | none => .error .invalidCharacter
    | none => .ok ⟨rows.take limit, none⟩
  else .ok ⟨rows, none⟩

def listLedgerPageByUid (dates : DateParse) (w : World χ) (uid : Text) (limit : Option Int)
    (before : Option Text) : Except PageError (LedgerPage χ) := do
  let cursor ← readCursor dates before
  pageOf (pageLimit limit) (queryPage w uid cursor (pageLimit limit))

/-! ### One page -/

/-- The statement: the canonical rows of the user, the newest first. -/
def statement (w : World χ) (uid : Text) : List (LedgerRow χ) :=
  Keyset.ordered LedgerRow.position (w.ledger.filter fun r => r.uid == uid && r.canonical)

theorem mem_statement {w : World χ} {uid : Text} {r : LedgerRow χ} :
    r ∈ statement w uid ↔ r ∈ w.ledger ∧ r.uid = uid ∧ r.canonical = true := by
  rw [statement, Keyset.mem_ordered, Table.filter, List.mem_filter, Bool.and_eq_true, beq_iff_eq]
  exact Iff.rfl

/-- Two rows have two positions. -/
theorem position_injective {r r' : LedgerRow χ} (h : r.position = r'.position) : r.id = r'.id :=
  Subtype.ext (congrArg Prod.snd (toLex.injective h))

theorem descending_of_table {ledger : Table (LedgerRow χ)} (p : LedgerRow χ → Bool) :
    (ledger.filter p).Pairwise fun r r' => r.position ≠ r'.position := by
  refine (ledger.distinct.filter p).imp ?_
  intro r r' apart same
  have clash : Row.clash r r' = true := by
    show (r.id == r'.id || r.dedup == r'.dedup) = true
    rw [position_injective same, beq_self_eq_true, Bool.true_or]
  rw [clash] at apart
  cases apart

theorem descending_statement (w : World χ) (uid : Text) :
    Keyset.Descending LedgerRow.position (statement w uid) :=
  Keyset.descending_ordered (descending_of_table _)

/-- The one entry of a row: a user is found by a key. -/
def named (users : Table UserRow) (row : LedgerRow χ) : LedgerEntry χ :=
  match users.filter fun user => row.counterpartyUid == some user.uid with
  | [] => ⟨row, none, none⟩
  | user :: _ => ⟨row, user.username, user.displayName⟩

theorem leftJoin_eq (users : Table UserRow) (row : LedgerRow χ) :
    leftJoin users row = [named users row] := by
  have one : (users.filter fun user => row.counterpartyUid == some user.uid).length ≤ 1 := by
    refine Table.length_filter_le_one fun user _ user' _ h h' => ?_
    have same := (beq_iff_eq.1 h).symm.trans (beq_iff_eq.1 h')
    exact beq_iff_eq.2 (Option.some.inj same)
  unfold leftJoin named
  cases found : users.filter fun user => row.counterpartyUid == some user.uid with
  | nil => rfl
  | cons user others =>
    rw [found] at one
    obtain rfl : others = [] := List.eq_nil_of_length_eq_zero (Nat.le_zero.1 (Nat.le_of_succ_le_succ one))
    rfl

@[simp] theorem named_row (users : Table UserRow) (row : LedgerRow χ) :
    (named users row).row = row := by
  unfold named
  split
  · rfl
  · rfl

theorem selection_eq (w : World χ) (uid : Text) :
    selection w uid =
      (w.ledger.filter fun r => r.uid == uid && r.canonical).map (named w.users) := by
  have joined : w.ledger.rows.flatMap (leftJoin w.users) = w.ledger.rows.map (named w.users) := by
    rw [List.map_eq_flatMap]
    exact congrArg (w.ledger.rows.flatMap ·) (funext (leftJoin_eq w.users))
  rw [selection, joined, List.filter_map, Table.filter]
  congr 2
  funext r
  show ((named w.users r).row.uid == uid && (named w.users r).row.canonical) = _
  rw [named_row]

def LedgerPageCursor.position (cursor : LedgerPageCursor) : Text ×ₗ Text :=
  toLex (cursor.createdAt, cursor.id)

/-- The condition of the query is the order of the statement. -/
theorem admits_eq (cursor : LedgerPageCursor) (r : LedgerRow χ) :
    cursor.admits r = decide (r.position < cursor.position) := by
  rw [Bool.eq_iff_iff, decide_eq_true_iff, Prod.Lex.lt_iff]
  simp only [LedgerPageCursor.admits, Bool.or_eq_true, Bool.and_eq_true, decide_eq_true_iff,
    beq_iff_eq]
  exact Iff.rfl

/-- The rows that are read are the first of the statement behind the cursor. -/
theorem queryPage_eq (w : World χ) (uid : Text) (before : Option LedgerPageCursor) (limit : Nat) :
    queryPage w uid before limit =
      ((Keyset.behind LedgerRow.position (before.map (·.position)) (statement w uid)).take
        (limit + 1)).map (named w.users) := by
  have distinct := @descending_of_table χ w.ledger fun r => r.uid == uid && r.canonical
  have behind : Keyset.behind LedgerRow.position (before.map (·.position)) (statement w uid) =
      Keyset.ordered LedgerRow.position
        ((w.ledger.filter fun r => r.uid == uid && r.canonical).filter fun r =>
          before.all (·.admits r)) := by
    cases before with
    | none =>
      have all : (w.ledger.filter fun r => r.uid == uid && r.canonical).filter (fun r =>
          (none : Option LedgerPageCursor).all (·.admits r)) =
          w.ledger.filter fun r => r.uid == uid && r.canonical :=
        List.filter_eq_self.2 fun _ _ => rfl
      rw [all]
      rfl
    | some cursor =>
      rw [Keyset.ordered_filter distinct]
      refine List.filter_congr fun r _ => ?_
      exact (admits_eq cursor r).symm
  rw [behind, queryPage, selection_eq, List.filter_map, List.map_take]
  congr 1
  have sorted := List.map_insertionSort (fun a b : LedgerRow χ => b.position ≤ a.position)
    (fun a b : LedgerEntry χ => b.row.position ≤ a.row.position) (named w.users)
    ((w.ledger.filter fun r => r.uid == uid && r.canonical).filter fun r =>
      before.all (·.admits r)) fun a _ b _ => by rw [named_row, named_row]
  rw [Keyset.ordered, Keyset.ordered, sorted]
  congr 3
  funext r
  show before.all (·.admits (named w.users r).row) = _
  rw [named_row]

theorem pageLimit_pos (limit : Option Int) : 0 < pageLimit limit := by
  unfold pageLimit
  omega

/-- The position of a row is read back by the next request. -/
theorem exists_readCursor (dates : DateParse) (r : LedgerRow χ) :
    ∃ text, encodeLedgerCursor (cursorAt r.createdAt r.id) = some text ∧
      readCursor dates (some text) = .ok (some (cursorAt r.createdAt r.id)) := by
  have back := decode_encode r.createdAt r.id dates
  obtain ⟨text, encoded, decoded⟩ := Option.bind_eq_some_iff.1 back
  refine ⟨text, encoded, ?_⟩
  cases text with
  | nil => cases decoded
  | cons c text =>
    rw [readCursor]
    · rw [decoded]
    · simp

section

variable (dates : DateParse) {w : World χ} {uid : Text} {before : Option Text}
  {cursor : Option LedgerPageCursor} (read : readCursor dates before = .ok cursor)
  (limit : Option Int) {rest : List (LedgerRow χ)}
  (hrest : rest = Keyset.behind LedgerRow.position (cursor.map (·.position)) (statement w uid))

include read hrest

theorem listLedgerPageByUid_eq :
    listLedgerPageByUid dates w uid limit before =
      pageOf (pageLimit limit) ((rest.take (pageLimit limit + 1)).map (named w.users)) := by
  rw [listLedgerPageByUid, read, hrest, ← queryPage_eq]
  rfl

/-- The last page. -/
theorem listLedgerPageByUid_last (short : rest.length ≤ pageLimit limit) :
    listLedgerPageByUid dates w uid limit before = .ok ⟨rest.map (named w.users), none⟩ := by
  rw [listLedgerPageByUid_eq dates read limit hrest, List.take_of_length_le (by omega), pageOf,
    if_neg (by rw [List.length_map]; omega)]

/-- A page with another one behind it. -/
theorem listLedgerPageByUid_more (long : pageLimit limit < rest.length) :
    ∃ tail text, (rest.take (pageLimit limit)).getLast? = some tail ∧
      readCursor dates (some text) = .ok (some (cursorAt tail.createdAt tail.id)) ∧
      listLedgerPageByUid dates w uid limit before =
        .ok ⟨(rest.take (pageLimit limit)).map (named w.users), some text⟩ := by
  have pos := pageLimit_pos limit
  have last : ∃ tail, (rest.take (pageLimit limit)).getLast? = some tail := by
    cases e : (rest.take (pageLimit limit)).getLast? with
    | some tail => exact ⟨tail, rfl⟩
    | none =>
      have empty := congrArg List.length (List.getLast?_eq_none_iff.1 e)
      rw [List.length_take, List.length_nil] at empty
      omega
  obtain ⟨tail, last⟩ := last
  obtain ⟨text, encoded, readBack⟩ := exists_readCursor dates tail
  refine ⟨tail, text, last, readBack, ?_⟩
  have taken : ((rest.take (pageLimit limit + 1)).map (named w.users)).take (pageLimit limit) =
      (rest.take (pageLimit limit)).map (named w.users) := by
    rw [← List.map_take, List.take_take, Nat.min_eq_left (Nat.le_succ _)]
  have more : pageLimit limit < ((rest.take (pageLimit limit + 1)).map (named w.users)).length := by
    rw [List.length_map, List.length_take]
    omega
  rw [listLedgerPageByUid_eq dates read limit hrest, pageOf, if_pos more, taken,
    List.getLast?_map, last, Option.map_some]
  dsimp only
  rw [named_row, encoded]

end

/-! ### Following the pages -/

/-- A request, and what happens until the next one: entries are written, and users change. -/
structure Request (χ : Type) where
  limit : Option Int
  entries : List (LedgerRow χ)
  users : Table UserRow

def Request.after (request : Request χ) (w : World χ) : World χ where
  ledger := request.entries.foldl writeEntry w.ledger
  users := request.users

/-- The entries of the pages, each asked for by the cursor of the one before; none if there was
still another page. -/
def follow (dates : DateParse) (uid : Text) :
    List (Request χ) → World χ → Option Text → Except PageError (Option (List (LedgerEntry χ)))
  | [], _, _ => .ok none
  | request :: requests, w, before =>
    match listLedgerPageByUid dates w uid request.limit before with
    | .error e => .error e
    | .ok page =>
      match page.nextCursor with
      | none => .ok (some page.entries)
      | some next => (follow dates uid requests (request.after w) (some next)).map fun rest =>
          rest.map (page.entries ++ ·)

/-- What becomes canonical between the requests is above the position. -/
def Newer (uid : Text) (first : Text ×ₗ Text) : List (Request χ) → World χ → Prop
  | [], _ => True
  | request :: requests, w =>
    (∀ r ∈ (request.after w).ledger, r.uid = uid → r.canonical = true →
      r ∈ w.ledger ∨ first < r.position) ∧ Newer uid first requests (request.after w)

instance decidableNewer [DecidableEq χ] (uid : Text) (first : Text ×ₗ Text) :
    (requests : List (Request χ)) → (w : World χ) → Decidable (Newer uid first requests w)
  | [], _ => .isTrue trivial
  | request :: requests, w =>
    have := decidableNewer uid first requests (request.after w)
    inferInstanceAs (Decidable ((∀ r ∈ (request.after w).ledger, r.uid = uid →
      r.canonical = true → r ∈ w.ledger ∨ first < r.position) ∧
        Newer uid first requests (request.after w)))

/-- New rows are not behind a position below the first one. -/
theorem behind_after {uid : Text} {first k : Text ×ₗ Text} {request : Request χ} {w : World χ}
    (newer : ∀ r ∈ (request.after w).ledger, r.uid = uid → r.canonical = true →
      r ∈ w.ledger ∨ first < r.position) (below : k ≤ first) :
    Keyset.behind LedgerRow.position (some k) (statement (request.after w) uid) =
      Keyset.behind LedgerRow.position (some k) (statement w uid) := by
  refine ((descending_statement _ uid).behind _).eq_of_mem_iff
    ((descending_statement w uid).behind _) fun r => ?_
  rw [Keyset.mem_behind_some, Keyset.mem_behind_some, mem_statement, mem_statement]
  constructor
  · rintro ⟨⟨hr, owner, canonical⟩, lt⟩
    rcases newer r hr owner canonical with old | above
    · exact ⟨⟨old, owner, canonical⟩, lt⟩
    · exact absurd (lt_trans (lt_of_lt_of_le lt below) above) (lt_irrefl _)
  · rintro ⟨⟨hr, owner, canonical⟩, lt⟩
    exact ⟨⟨mem_foldl_writeEntry hr canonical _, owner, canonical⟩, lt⟩

/-- From any position on, the pages are what is left of the statement, and each request takes at
least one row. -/
theorem follow_remaining (dates : DateParse) {uid : Text} {first : Text ×ₗ Text}
    {requests : List (Request χ)} {w : World χ} {before : Option Text}
    {cursor : Option LedgerPageCursor} {rest : List (LedgerRow χ)}
    (newer : Newer uid first requests w) (read : readCursor dates before = .ok cursor)
    (hrest : rest = Keyset.behind LedgerRow.position (cursor.map (·.position)) (statement w uid))
    (below : ∀ r ∈ rest, r.position ≤ first) :
    ∃ result, follow dates uid requests w before = .ok result ∧
      (∀ entries, result = some entries → entries.map (·.row) = rest) ∧
      (rest.length < requests.length → result.isSome = true) := by
  induction requests generalizing w before cursor rest with
  | nil =>
    refine ⟨none, rfl, ?_, fun enough => absurd enough (Nat.not_lt_zero _)⟩
    intro entries h
    cases h
  | cons request requests ih =>
    by_cases short : rest.length ≤ pageLimit request.limit
    · have page := listLedgerPageByUid_last dates read request.limit hrest short
      refine ⟨some (rest.map (named w.users)), by rw [follow, page], ?_, fun _ => rfl⟩
      rintro entries h
      rw [← Option.some.inj h, List.map_map]
      exact (List.map_congr_left fun r _ => named_row w.users r).trans (List.map_id rest)
    · have pos := pageLimit_pos request.limit
      obtain ⟨tail, text, last, readBack, page⟩ :=
        listLedgerPageByUid_more dates read request.limit hrest (Nat.lt_of_not_le short)
      have inRest : tail ∈ rest := List.mem_of_mem_take (List.mem_of_getLast? last)
      -- the next page starts behind this one, in the table as it is then
      have next : rest.drop (pageLimit request.limit) =
          Keyset.behind LedgerRow.position (some tail.position)
            (statement (request.after w) uid) := by
        have order : Keyset.Descending LedgerRow.position rest := by
          rw [hrest]
          exact (descending_statement w uid).behind _
        rw [behind_after newer.1 (below tail inRest), ← Keyset.behind_getLast? order last]
        rw [hrest] at inRest ⊢
        exact Keyset.behind_behind inRest
      obtain ⟨result, followed, entriesOf, enough⟩ :=
        ih newer.2 readBack next fun r hr => below r (List.mem_of_mem_drop hr)
      refine ⟨result.map fun entries =>
        (rest.take (pageLimit request.limit)).map (named w.users) ++ entries, ?_, ?_, ?_⟩
      · rw [follow, page]
        dsimp only
        rw [followed]
        rfl
      · intro entries h
        obtain ⟨others, hothers, rfl⟩ := Option.map_eq_some_iff.1 h
        have rows : ((rest.take (pageLimit request.limit)).map (named w.users)).map (·.row) =
            rest.take (pageLimit request.limit) := by
          rw [List.map_map]
          exact (List.map_congr_left fun r _ => named_row w.users r).trans (List.map_id _)
        rw [List.map_append, rows, entriesOf others hothers, List.take_append_drop]
      · intro long
        rw [Option.isSome_map]
        apply enough
        rw [List.length_cons] at long
        rw [List.length_drop]
        omega

/-- A client that follows the cursors is never refused, and with more requests than rows it
reaches the end.  It has then every row of the user that was canonical at its first request once,
the newest first; and each cursor is read as the position that it was made of. -/
theorem follow_complete (dates : DateParse) (uid : Text) (w : World χ)
    (requests : List (Request χ))
    (newer : ∀ r, (statement w uid).head? = some r → Newer uid r.position requests w) :
    (∃ result, follow dates uid requests w none = .ok result ∧
      (∀ entries, result = some entries →
        (entries.map (·.row)).Pairwise (fun r r' => r'.position < r.position) ∧
          ∀ r, r ∈ entries.map (·.row) ↔ r ∈ w.ledger ∧ r.uid = uid ∧ r.canonical = true) ∧
      ((statement w uid).length < requests.length → result.isSome = true)) ∧
    ∀ createdAt id, (encodeLedgerCursor (cursorAt createdAt id)).bind (decodeLedgerCursor dates) =
      some (cursorAt createdAt id) := by
  refine ⟨?_, fun createdAt id => decode_encode createdAt id dates⟩
  have all : ∃ result, follow dates uid requests w none = .ok result ∧
      (∀ entries, result = some entries → entries.map (·.row) = statement w uid) ∧
      ((statement w uid).length < requests.length → result.isSome = true) := by
    cases e : (statement w uid).head? with
    | some first =>
      refine follow_remaining dates (newer first e) rfl rfl fun r hr => ?_
      -- the first row of the statement is above the others
      obtain ⟨others, rows⟩ := List.head?_eq_some_iff.1 e
      have order := descending_statement w uid
      rw [rows] at hr order
      rcases List.mem_cons.1 hr with rfl | hr
      · exact le_refl _
      · exact le_of_lt (List.rel_of_pairwise_cons order hr)
    | none =>
      have empty := List.head?_eq_none_iff.1 e
      cases requests with
      | nil =>
        refine ⟨none, rfl, fun _ h => ?_, fun enough => absurd enough (Nat.not_lt_zero _)⟩
        cases h
      | cons request requests =>
        have page := @listLedgerPageByUid_last χ dates w uid none none rfl request.limit
          (statement w uid) rfl (by rw [empty]; exact Nat.zero_le _)
        refine ⟨some ((statement w uid).map (named w.users)), by rw [follow, page], ?_,
          fun _ => rfl⟩
        rintro entries h
        rw [← Option.some.inj h, empty]
        rfl
  obtain ⟨result, followed, entriesOf, enough⟩ := all
  refine ⟨result, followed, fun entries h => ?_, enough⟩
  rw [entriesOf entries h]
  exact ⟨descending_statement w uid, fun r => mem_statement⟩

/-! #### Two rows of one time -/

/-- The dates of the first second of 1970, which differ in their milliseconds only. -/
def firstSecond : DateParse where
  parse t := some (decimalValue ((t.drop 20).take 3))
  isSome_toISOString _ := rfl

def isoText (time : Time) : IsoText := ⟨toISOString time, time, rfl⟩

def noRow : LedgerRow Unit where
  id := ⟨['a'], forall_mem_of_all (by decide), by decide, by decide⟩
  uid := ['u']
  direction := .incoming
  kind := .payment
  txHash := []
  logIndex := none
  token := []
  counterpartyUid := none
  blockHash := none
  createdAt := isoText ⟨0, by decide⟩
  canonical := true
  content := ()

def otherRow : LedgerRow Unit :=
  { noRow with id := ⟨['b'], forall_mem_of_all (by decide), by decide, by decide⟩, txHash := ['1'] }

def newRow : LedgerRow Unit :=
  { noRow with
    id := ⟨['c'], forall_mem_of_all (by decide), by decide, by decide⟩, txHash := ['2']
    createdAt := isoText ⟨1, by decide⟩ }

def twoRows : World Unit where
  ledger := (Table.empty.insertOrIgnore noRow).insertOrIgnore otherRow
  users := .empty

/-- The client asks for one row at a time, and a newer row comes after its first request. -/
def oneByOne : List (Request Unit) :=
  [⟨some 1, [newRow], .empty⟩, ⟨some 1, [], .empty⟩, ⟨some 1, [], .empty⟩]

theorem newer_oneByOne : ∀ r, (statement twoRows ['u']).head? = some r →
    Newer ['u'] r.position oneByOne twoRows := by
  have rows : statement twoRows ['u'] = [otherRow, noRow] := by decide +kernel
  have newer : Newer ['u'] otherRow.position oneByOne twoRows := by decide +kernel
  intro r h
  rw [rows] at h
  rw [← Option.some.inj h]
  exact newer

theorem oneByOne_followed :
    (∃ result, follow firstSecond ['u'] oneByOne twoRows none = .ok result ∧
      (∀ entries, result = some entries →
        (entries.map (·.row)).Pairwise (fun r r' => r'.position < r.position) ∧
          ∀ r, r ∈ entries.map (·.row) ↔
            r ∈ twoRows.ledger ∧ r.uid = ['u'] ∧ r.canonical = true) ∧
      ((statement twoRows ['u']).length < oneByOne.length → result.isSome = true)) ∧
    ∀ createdAt id, (encodeLedgerCursor (cursorAt createdAt id)).bind
      (decodeLedgerCursor firstSecond) = some (cursorAt createdAt id) :=
  follow_complete firstSecond ['u'] twoRows oneByOne newer_oneByOne

end ParmeliaLinks.Server.LedgerPages
