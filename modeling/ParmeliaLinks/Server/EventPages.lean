/-
ParmeliaLinks/Server/EventPages.lean

The events of a merchant, page by page.  The listing is ordered by the second of the creation and
then by the identifier; the next page is asked for by the identifier of the last event, and the
query behind it compares the whole creation time where the order compares the second.

Main result: the pages are the unpaged listing exactly if no page ends between two events of one
second whose creation times differ (`follow_eq_unpaged_iff`).  An event that such a page leaves out
is in no later page.
-/
import Mathlib.Data.Prod.Lex
import Mathlib.Data.Char
import Mathlib.Data.List.Lex
import ParmeliaLinks.Lib.Keyset
import ParmeliaLinks.Lib.Table
import ParmeliaLinks.Server.LedgerPages

namespace ParmeliaLinks.Server.EventPages

open LedgerPages (Time toISOString)

/-! ### Events -/

inductive ApiMode
  | test
  | live
  deriving DecidableEq

/-- An identifier is `evt_` and a digest. -/
abbrev EventId := { t : Text // t ≠ [] }

/-- Every writer takes the time from a `toISOString()`, in a year of four digits. -/
abbrev CreatedAt := { t : Text // t.length = 24 ∧ ∃ time : Time, toISOString time = t }

/-- `EventRow`, with the payload as `JSON.parse` reads it. -/
structure EventRow (χ : Type) where
  id : EventId
  merchantId : Text
  type : Text
  objectId : Option Text
  payload : χ
  mode : ApiMode
  createdAt : CreatedAt
  deriving DecidableEq

instance {χ : Type} : Row (EventRow χ) where
  clash r r' := r.id == r'.id
  clash_comm _ _ := Bool.beq_comm

variable {χ : Type}

/-! ### Listing -/

/-- `datetime(..)` of an ISO text: the date and the time down to the second. -/
def datetime (t : Text) : Text := t.take 10 ++ ' ' :: (t.drop 11).take 8

/-- `ORDER BY datetime(created_at) DESC, id DESC`. -/
def EventRow.position (r : EventRow χ) : Text ×ₗ Text := toLex (datetime r.createdAt.val, r.id.val)

/-- The row of the cursor, if the merchant has it; the empty text is no cursor. -/
def cursorRow (events : Table (EventRow χ)) (merchantId : Text) :
    Option Text → Option (EventRow χ)
  | none | some [] => none
  | some startingAfterId => events.find? fun r =>
      r.id.val == startingAfterId && r.merchantId == merchantId

/-- The condition of the query behind a cursor. -/
def EventRow.admits (cursor r : EventRow χ) : Bool :=
  datetime r.createdAt.val < datetime cursor.createdAt.val ||
    (r.createdAt.val == cursor.createdAt.val && r.id.val < cursor.id.val)

def listEvents (events : Table (EventRow χ)) (merchantId : Text) (limit : Nat)
    (startingAfterId : Option Text) : List (EventRow χ) :=
  match cursorRow events merchantId startingAfterId with
  | some cursor => (Keyset.ordered EventRow.position
      (events.filter fun r => r.merchantId == merchantId && cursor.admits r)).take limit
  | none => (Keyset.ordered EventRow.position
      (events.filter fun r => r.merchantId == merchantId)).take limit

/-- A client passes the last identifier of each page, up to the first page that is empty. -/
def follow (events : Table (EventRow χ)) (merchantId : Text) (limit : Nat) :
    Nat → Option Text → Option (List (EventRow χ))
  | 0, _ => none
  | fuel + 1, startingAfterId =>
    match (listEvents events merchantId limit startingAfterId).getLast? with
    | none => some []
    | some last => (follow events merchantId limit fuel (some last.id.val)).map
        (listEvents events merchantId limit startingAfterId ++ ·)

/-! ### One page -/

theorem position_injective {r r' : EventRow χ} (h : r.position = r'.position) : r.id = r'.id :=
  Subtype.ext (congrArg Prod.snd (toLex.injective h))

theorem distinct_positions {events : Table (EventRow χ)} (p : EventRow χ → Bool) :
    (events.filter p).Pairwise fun r r' => r.position ≠ r'.position := by
  refine (events.distinct.filter p).imp ?_
  intro r r' apart same
  have clash : Row.clash r r' = true := beq_iff_eq.2 (position_injective same)
  rw [clash] at apart
  cases apart

section

variable (events : Table (EventRow χ)) (merchantId : Text)

/-- The events of a merchant. -/
def eventsOf : List (EventRow χ) := events.filter fun r => r.merchantId == merchantId

variable {events merchantId}

theorem mem_eventsOf {r : EventRow χ} :
    r ∈ eventsOf events merchantId ↔ r ∈ events ∧ r.merchantId = merchantId := by
  rw [eventsOf, Table.filter, List.mem_filter, beq_iff_eq]
  exact Iff.rfl

theorem cursorRow_of_mem {cursor : EventRow χ} (h : cursor ∈ eventsOf events merchantId) :
    cursorRow events merchantId (some cursor.id.val) = some cursor := by
  obtain ⟨mem, own⟩ := mem_eventsOf.1 h
  obtain ⟨c, t, text⟩ := List.exists_cons_of_ne_nil cursor.id.property
  have unique : events.find? (fun r => r.id.val == cursor.id.val && r.merchantId == merchantId) =
      some cursor := by
    refine Table.find?_of_key mem ?_ fun r found => ?_
    · rw [own, beq_self_eq_true, beq_self_eq_true, Bool.true_and]
    · have same := (Bool.and_eq_true_iff.1 found).1
      exact beq_iff_eq.2 (Subtype.ext (beq_iff_eq.1 same))
  rw [text] at unique ⊢
  exact unique

/-- A page is the first of what the condition leaves of the listing. -/
theorem listEvents_some {cursor : EventRow χ} (h : cursor ∈ eventsOf events merchantId)
    (limit : Nat) :
    listEvents events merchantId limit (some cursor.id.val) =
      (Keyset.admitted EventRow.admits (some cursor)
        (Keyset.ordered EventRow.position (eventsOf events merchantId))).take limit := by
  have conditions : (events.filter fun r => r.merchantId == merchantId && cursor.admits r) =
      (eventsOf events merchantId).filter cursor.admits := by
    rw [eventsOf, Table.filter, Table.filter, List.filter_filter]
    exact List.filter_congr fun r _ => Bool.and_comm _ _
  rw [listEvents, cursorRow_of_mem h]
  show (Keyset.ordered _ _).take limit = _
  have distinct : (eventsOf events merchantId).Pairwise fun r r' => r.position ≠ r'.position :=
    distinct_positions _
  rw [conditions, Keyset.ordered_filter distinct]
  rfl

theorem listEvents_none (limit : Nat) : listEvents events merchantId limit none =
    (Keyset.ordered EventRow.position (eventsOf events merchantId)).take limit := rfl

/-- What the query behind a cursor admits stands behind it in the listing. -/
theorem position_lt_of_admits {cursor r : EventRow χ} (h : cursor.admits r = true) :
    r.position < cursor.position := by
  rw [EventRow.admits, Bool.or_eq_true, Bool.and_eq_true, decide_eq_true_iff, beq_iff_eq,
    decide_eq_true_iff] at h
  rw [Prod.Lex.lt_iff]
  rcases h with earlier | ⟨same, smaller⟩
  · exact Or.inl earlier
  · exact Or.inr ⟨congrArg datetime same, smaller⟩

theorem admits_trans {e f g : EventRow χ} (h : e.admits f = true) (h' : f.admits g = true) :
    e.admits g = true := by
  rw [EventRow.admits, Bool.or_eq_true, Bool.and_eq_true, decide_eq_true_iff, beq_iff_eq,
    decide_eq_true_iff] at h h' ⊢
  rcases h with earlier | ⟨same, smaller⟩
  · rcases h' with earlier' | ⟨same', -⟩
    · exact Or.inl (lt_trans earlier' earlier)
    · rw [same']
      exact Or.inl earlier
  · rcases h' with earlier' | ⟨same', smaller'⟩
    · rw [← same]
      exact Or.inl earlier'
    · exact Or.inr ⟨same'.trans same, lt_trans smaller' smaller⟩

/-- An event behind the cursor is left out exactly if it is of the same second and not of the same
time. -/
theorem admits_iff_of_lt {cursor r : EventRow χ} (h : r.position < cursor.position) :
    cursor.admits r = true ↔
      (datetime r.createdAt.val = datetime cursor.createdAt.val → r.createdAt = cursor.createdAt) := by
  rw [EventRow.admits, Bool.or_eq_true, Bool.and_eq_true, decide_eq_true_iff, beq_iff_eq,
    decide_eq_true_iff]
  rcases Prod.Lex.lt_iff.1 h with earlier | ⟨second, smaller⟩
  · refine ⟨fun _ second => ?_, fun _ => Or.inl earlier⟩
    exact absurd second (ne_of_lt earlier)
  · constructor
    · rintro (earlier | ⟨same, -⟩) -
      · exact absurd second (ne_of_lt earlier)
      · exact Subtype.ext same
    · intro same
      exact Or.inr ⟨congrArg Subtype.val (same second), smaller⟩

/-! ### Following the pages -/

/-- The client reads the pages of the listing under the condition of the query. -/
theorem follow_eq_pages (limit : Nat) (fuel : Nat) {startingAfter : Option (EventRow χ)}
    (own : ∀ cursor, startingAfter = some cursor → cursor ∈ eventsOf events merchantId) :
    follow events merchantId limit fuel (startingAfter.map (·.id.val)) =
      Keyset.pages EventRow.admits
        (Keyset.ordered EventRow.position (eventsOf events merchantId)) limit fuel
        startingAfter := by
  induction fuel generalizing startingAfter with
  | zero => rfl
  | succ fuel ih =>
    have page : listEvents events merchantId limit (startingAfter.map (·.id.val)) =
        (Keyset.admitted EventRow.admits startingAfter
          (Keyset.ordered EventRow.position (eventsOf events merchantId))).take limit := by
      cases startingAfter with
      | none => exact listEvents_none limit
      | some cursor => exact listEvents_some (own cursor rfl) limit
    rw [follow, page]
    cases last : ((Keyset.admitted EventRow.admits startingAfter
        (Keyset.ordered EventRow.position (eventsOf events merchantId))).take limit).getLast? with
    | none => exact (Keyset.pages_of_empty last).symm
    | some cursor =>
      rw [Keyset.pages_of_last last, ← @ih (some cursor) ?_]
      · rfl
      · rintro cursor' h
        rw [← Option.some.inj h]
        have mem := List.mem_of_mem_take (List.mem_of_getLast? last)
        cases startingAfter with
        | none => exact Keyset.mem_ordered.1 mem
        | some before => exact Keyset.mem_ordered.1 (List.mem_of_mem_filter mem)

end

/-- An event that ends a page is not followed by one of its second with another creation time.
Which events end a page is told by how many stand down to them in the order of the listing. -/
def SecondsUncut (events : Table (EventRow χ)) (merchantId : Text) (limit : Nat) : Prop :=
  ∀ e ∈ eventsOf events merchantId, ∀ f ∈ eventsOf events merchantId,
    limit ∣ ((eventsOf events merchantId).filter fun g => e.position ≤ g.position).length →
      f.position < e.position →
        datetime f.createdAt.val = datetime e.createdAt.val → f.createdAt = e.createdAt

/-- The client always comes to the end; what it has then is the unpaged listing, with each event of
the merchant once, exactly if no page ends inside a second with several creation times. -/
theorem follow_eq_unpaged_iff (events : Table (EventRow χ)) (merchantId : Text) {limit fuel : Nat}
    (positive : 0 < limit) (enough : events.rows.length < fuel) :
    ∃ rows unpaged, follow events merchantId limit fuel none = some rows ∧
      (∀ whole, events.rows.length ≤ whole → listEvents events merchantId whole none = unpaged) ∧
      (unpaged.Nodup ∧ ∀ e, e ∈ unpaged ↔ e ∈ events ∧ e.merchantId = merchantId) ∧
      (rows = unpaged ↔ SecondsUncut events merchantId limit) := by
  obtain ⟨unpaged, listing⟩ : ∃ l, l = Keyset.ordered EventRow.position
    (eventsOf events merchantId) := ⟨_, rfl⟩
  have distinct : (eventsOf events merchantId).Pairwise fun r r' => r.position ≠ r'.position :=
    distinct_positions _
  have sorted : Keyset.Descending EventRow.position unpaged :=
    listing ▸ Keyset.descending_ordered distinct
  have short : unpaged.length ≤ events.rows.length := by
    rw [listing, Keyset.length_ordered]
    exact List.length_filter_le _ _
  have below : ∀ e f : EventRow χ, e.admits f = true → f.position < e.position :=
    fun _ _ => position_lt_of_admits
  have trans : ∀ e f g : EventRow χ, e.admits f = true → f.admits g = true → e.admits g = true :=
    fun _ _ _ => admits_trans
  have steps : unpaged.length < fuel := lt_of_le_of_lt short enough
  obtain ⟨rows, followed, -⟩ := @Keyset.exists_pages _ _ _ _ EventRow.admits below trans unpaged
    limit fuel none steps
  refine ⟨rows, unpaged, ?_, fun whole all => ?_, ⟨sorted.nodup, fun e => ?_⟩, ?_⟩
  · have start : ∀ cursor : EventRow χ, none = some cursor → cursor ∈ eventsOf events merchantId := by
      rintro cursor h
      cases h
    rw [← followed, listing]
    exact follow_eq_pages limit fuel start
  · rw [listEvents_none, ← listing, List.take_of_length_le (le_trans short all)]
  · rw [listing, Keyset.mem_ordered, mem_eventsOf]
  · rw [Keyset.pages_eq_iff below trans sorted positive steps followed, listing,
      Keyset.cutsClean_iff_dvd distinct positive]
    -- behind the cursor, the condition of the query says that the second is not cut
    constructor
    · intro clean e he f hf ends lt
      exact (admits_iff_of_lt lt).1 (clean e he f hf ends lt)
    · intro uncut e he f hf ends lt
      exact (admits_iff_of_lt lt).2 (uncut e he f hf ends lt)

/-! #### Two events of one second -/

def createdAt (time : Time) (h : (toISOString time).length = 24) : CreatedAt :=
  ⟨toISOString time, h, time, rfl⟩

theorem bounded_one : Int.natAbs 1 ≤ 8640000000000000 := by decide

def firstEvent : EventRow Unit where
  id := ⟨['a'], by decide⟩
  merchantId := ['m']
  type := ['t']
  objectId := none
  payload := ()
  mode := .test
  createdAt := createdAt ⟨1, bounded_one⟩ (by decide)

def secondEvent : EventRow Unit :=
  { firstEvent with id := ⟨['b'], by decide⟩, createdAt := createdAt ⟨2, by decide⟩ (by decide) }

def twoEvents : Table (EventRow Unit) :=
  (Table.empty.insertOrIgnore firstEvent).insertOrIgnore secondEvent

/-- With pages of one event, the earlier event of the second is never listed. -/
theorem earlier_event_skipped :
    follow twoEvents ['m'] 1 3 none = some [secondEvent] ∧
      listEvents twoEvents ['m'] 2 none = [secondEvent, firstEvent] := by
  decide +kernel

theorem pages_of_two_kept :
    ∃ rows unpaged, follow twoEvents ['m'] 2 3 none = some rows ∧
      (∀ whole, twoEvents.rows.length ≤ whole → listEvents twoEvents ['m'] whole none = unpaged) ∧
      (unpaged.Nodup ∧ ∀ e, e ∈ unpaged ↔ e ∈ twoEvents ∧ e.merchantId = ['m']) ∧
      (rows = unpaged ↔ SecondsUncut twoEvents ['m'] 2) :=
  follow_eq_unpaged_iff twoEvents ['m'] (by decide) (by decide)

end ParmeliaLinks.Server.EventPages
