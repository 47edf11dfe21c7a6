/-
ParmeliaLinks/Lib/Keyset.lean

Keyset pagination.  A list is ordered by a key, the greatest first, and the next page is asked
for by the key of the last element that was read: what follows are the elements below it
(`behind`).

Main results: the elements below the last one of a page are those that the page left out
(`behind_getLast?`), whatever the page is, when no two elements have one key; and where the next
page is asked for by a condition that may admit less, the pages are the list exactly if the
condition admits what follows at each cut (`pages_eq_iff`).
-/
import Mathlib.Data.List.Sort

namespace ParmeliaLinks.Keyset

variable {α κ : Type} [LinearOrder κ] (key : α → κ)

/-- `ORDER BY key DESC`. -/
def ordered (l : List α) : List α := l.insertionSort fun a b => key b ≤ key a

/-- Every element is above those that follow it. -/
def Descending (l : List α) : Prop := l.Pairwise fun a b => key b < key a

/-- What follows a position; without one, everything. -/
def behind : Option κ → List α → List α
  | none, l => l
  | some k, l => l.filter fun a => key a < k

variable {key}

@[simp] theorem mem_ordered {l : List α} {a : α} : a ∈ ordered key l ↔ a ∈ l :=
  List.mem_insertionSort _

theorem length_ordered (l : List α) : (ordered key l).length = l.length :=
  List.length_insertionSort _ l

/-- Elements with different keys stand in strict order. -/
theorem descending_ordered {l : List α} (distinct : l.Pairwise fun a b => key a ≠ key b) :
    Descending key (ordered key l) := by
  have total : Std.Total fun a b : α => key b ≤ key a := ⟨fun a b => le_total (key b) (key a)⟩
  have trans : IsTrans α fun a b => key b ≤ key a := ⟨fun _ _ _ h h' => le_trans h' h⟩
  have sorted : (ordered key l).Pairwise fun a b => key b ≤ key a :=
    List.pairwise_insertionSort _ l
  have apart : (ordered key l).Pairwise fun a b => key a ≠ key b :=
    (List.perm_insertionSort _ l).symm.pairwise distinct fun h => h.symm
  refine (sorted.and apart).imp ?_
  intro a b h
  exact lt_of_le_of_ne h.1 h.2.symm

theorem Descending.filter {l : List α} (h : Descending key l) (p : α → Bool) :
    Descending key (l.filter p) :=
  List.Pairwise.filter p h

theorem Descending.nodup {l : List α} (h : Descending key l) : l.Nodup := by
  refine List.Pairwise.imp ?_ h
  rintro a b lt rfl
  exact lt_irrefl _ lt

/-- A list in strict order is determined by its elements. -/
theorem Descending.eq_of_mem_iff {l m : List α} (hl : Descending key l) (hm : Descending key m)
    (same : ∀ a, a ∈ l ↔ a ∈ m) : l = m := by
  refine ((List.perm_ext_iff_of_nodup hl.nodup hm.nodup).2 same).eq_of_pairwise ?_ hl hm
  intro a b _ _ h h'
  exact absurd h (lt_asymm h')

/-- A condition may be asked before or after the elements are put in order. -/
theorem ordered_filter {l : List α} (distinct : l.Pairwise fun a b => key a ≠ key b)
    (p : α → Bool) : ordered key (l.filter p) = (ordered key l).filter p := by
  refine (descending_ordered (List.Pairwise.filter p distinct)).eq_of_mem_iff
    ((descending_ordered distinct).filter p) fun a => ?_
  rw [mem_ordered, List.mem_filter, List.mem_filter, mem_ordered]

/-- What follows a position is in order. -/
theorem Descending.behind {l : List α} (h : Descending key l) (cursor : Option κ) :
    Descending key (behind key cursor l) := by
  cases cursor with
  | none => exact h
  | some k => exact h.filter _

theorem mem_behind_some {l : List α} {k : κ} {a : α} :
    a ∈ behind key (some k) l ↔ a ∈ l ∧ key a < k := by
  rw [behind, List.mem_filter, decide_eq_true_iff]

/-- What follows a position behind the cursor. -/
theorem behind_behind {l : List α} {cursor : Option κ} {a : α} (h : a ∈ behind key cursor l) :
    behind key (some (key a)) (behind key cursor l) = behind key (some (key a)) l := by
  cases cursor with
  | none => rfl
  | some k =>
    have below := (mem_behind_some.1 h).2
    rw [behind, behind, behind, List.filter_filter]
    refine List.filter_congr fun b _ => ?_
    rw [← Bool.decide_and]
    exact decide_eq_decide.2 ⟨fun both => both.1, fun lt => ⟨lt, lt_trans lt below⟩⟩

/-- The elements below one element are those behind it. -/
theorem behind_of_split {before after : List α} {a : α}
    (h : Descending key (before ++ a :: after)) :
    behind key (some (key a)) (before ++ a :: after) = after := by
  have split := List.pairwise_append.1 h
  have front : before.filter (fun b => key b < key a) = [] := by
    refine List.filter_eq_nil_iff.2 fun b hb => ?_
    have above := split.2.2 b hb a List.mem_cons_self
    rw [decide_eq_true_iff]
    exact lt_asymm above
  have rest : after.filter (fun b => key b < key a) = after := by
    refine List.filter_eq_self.2 fun b hb => ?_
    exact decide_eq_true (List.rel_of_pairwise_cons split.2.1 hb)
  rw [behind, List.filter_append, front, List.filter_cons_of_neg (by simp), rest]
  rfl

/-- What a page left out is below the last element of the page. -/
theorem behind_getLast? {l : List α} (h : Descending key l) {n : Nat} {a : α}
    (last : (l.take n).getLast? = some a) : behind key (some (key a)) l = l.drop n := by
  obtain ⟨before, page⟩ := List.getLast?_eq_some_iff.1 last
  have whole : l = before ++ a :: l.drop n := by
    conv_lhs => rw [← List.take_append_drop n l, page]
    rw [List.append_assoc]
    rfl
  rw [whole] at h
  conv_lhs => rw [whole]
  exact behind_of_split h

/-! ### A condition that admits less than what follows -/

section

variable (admits : α → α → Bool)

/-- What the condition of a cursor leaves of a list. -/
def admitted : Option α → List α → List α
  | none, l => l
  | some e, l => l.filter (admits e)

/-- The pages of `n` elements one after the other, each asked for by the last element of the one
before, up to the first that is empty. -/
def pages (l : List α) (n : Nat) : Nat → Option α → Option (List α)
  | 0, _ => none
  | fuel + 1, cursor =>
    match ((admitted admits cursor l).take n).getLast? with
    | none => some []
    | some e => (pages l n fuel (some e)).map ((admitted admits cursor l).take n ++ ·)

/-- Where a page of the list ends, what follows is admitted. -/
def CutsClean (n : Nat) (l : List α) : Prop :=
  ∀ k e, l[(k + 1) * n - 1]? = some e → ∀ f ∈ l.drop ((k + 1) * n), admits e f = true

variable {admits}

theorem getLast?_take {l : List α} {n : Nat} {e : α} (h : l[n - 1]? = some e) (pos : 0 < n) :
    (l.take n).getLast? = some e := by
  have long : n - 1 < l.length := (List.getElem?_eq_some_iff.1 h).1
  rw [List.getLast?_eq_getElem?, List.length_take, Nat.min_eq_left (by omega),
    List.getElem?_take_of_lt (by omega), h]

theorem cutsClean_nil {n : Nat} : CutsClean admits n [] := by
  intro k e at_
  cases at_

/-- The cuts of a list are the first one and those of the rest. -/
theorem cutsClean_iff {n : Nat} (pos : 0 < n) {l : List α} :
    CutsClean admits n l ↔
      (∀ e, l[n - 1]? = some e → ∀ f ∈ l.drop n, admits e f = true) ∧
        CutsClean admits n (l.drop n) := by
  have twice (k : Nat) : n + (k + 1) * n = (k + 1 + 1) * n := by
    rw [Nat.succ_mul (k + 1), Nat.add_comm]
  have next (k : Nat) : n + ((k + 1) * n - 1) = (k + 1 + 1) * n - 1 := by
    have positive : 1 ≤ (k + 1) * n := Nat.mul_pos (Nat.succ_pos k) pos
    rw [← twice]
    omega
  constructor
  · intro h
    refine ⟨fun e he => ?_, fun k e he => ?_⟩
    · have first := h 0 e
      rw [Nat.zero_add, Nat.one_mul] at first
      exact first he
    · rw [List.getElem?_drop, next] at he
      have later := h (k + 1) e he
      rw [List.drop_drop, twice]
      exact later
  · rintro ⟨first, rest⟩ k e he
    cases k with
    | zero =>
      rw [Nat.zero_add, Nat.one_mul] at he ⊢
      exact first e he
    | succ k =>
      rw [← next, ← List.getElem?_drop] at he
      have later := rest k e he
      rw [List.drop_drop, twice] at later
      exact later

theorem pages_of_empty {l : List α} {n fuel : Nat} {cursor : Option α}
    (last : ((admitted admits cursor l).take n).getLast? = none) :
    pages admits l n (fuel + 1) cursor = some [] := by
  rw [pages, last]

theorem pages_of_last {l : List α} {n fuel : Nat} {cursor : Option α} {e : α}
    (last : ((admitted admits cursor l).take n).getLast? = some e) :
    pages admits l n (fuel + 1) cursor =
      (pages admits l n fuel (some e)).map ((admitted admits cursor l).take n ++ ·) := by
  rw [pages, last]

section

variable (below : ∀ e f, admits e f = true → key f < key e)
  (trans : ∀ e f g, admits e f = true → admits f g = true → admits e g = true)

include trans in
/-- What is admitted behind an admitted element was admitted. -/
theorem admitted_of_admitted {l : List α} {cursor : Option α} {e : α}
    (he : e ∈ admitted admits cursor l) {f : α} (hf : f ∈ admitted admits (some e) l) :
    f ∈ admitted admits cursor l := by
  obtain ⟨mem, after⟩ := List.mem_filter.1 hf
  cases cursor with
  | none => exact mem
  | some c => exact List.mem_filter.2 ⟨mem, trans c e f (List.mem_filter.1 he).2 after⟩

include below trans in
/-- Each page shortens what is still admitted. -/
theorem length_admitted_lt {l : List α} {cursor : Option α} {e : α}
    (he : e ∈ admitted admits cursor l) :
    (admitted admits (some e) l).length < (admitted admits cursor l).length := by
  have narrower : admitted admits (some e) l = (admitted admits cursor l).filter (admits e) := by
    cases cursor with
    | none => rfl
    | some c =>
      rw [admitted, admitted, List.filter_filter]
      refine List.filter_congr fun f _ => ?_
      rw [Bool.eq_iff_iff, Bool.and_eq_true]
      exact ⟨fun h => ⟨h, trans c e f (List.mem_filter.1 he).2 h⟩, fun h => h.1⟩
  rw [narrower]
  refine lt_of_le_of_ne (List.length_filter_le _ _) fun same => ?_
  have kept := List.length_filter_eq_length_iff.1 same e he
  exact lt_irrefl _ (below e e kept)

include below trans in
/-- The pages come to an end, and each element of them is admitted. -/
theorem exists_pages {l : List α} (n : Nat) {fuel : Nat} {cursor : Option α}
    (enough : (admitted admits cursor l).length < fuel) :
    ∃ rows, pages admits l n fuel cursor = some rows ∧
      ∀ f ∈ rows, f ∈ admitted admits cursor l := by
  induction fuel generalizing cursor with
  | zero => exact absurd enough (Nat.not_lt_zero _)
  | succ fuel ih =>
    cases last : ((admitted admits cursor l).take n).getLast? with
    | none => exact ⟨[], pages_of_empty last, fun f hf => absurd hf List.not_mem_nil⟩
    | some e =>
      have he := List.mem_of_mem_take (List.mem_of_getLast? last)
      have shorter := length_admitted_lt below trans he
      obtain ⟨rows, followed, mem⟩ := @ih (some e) (by omega)
      rw [pages_of_last last, followed]
      refine ⟨_, rfl, fun f hf => ?_⟩
      rcases List.mem_append.1 hf with hf | hf
      · exact List.mem_of_mem_take hf
      · exact admitted_of_admitted trans he (mem f hf)

/-- What is admitted behind the last element of a page is what the page left out, exactly if the cut
is clean. -/
theorem admitted_last_iff {l done rest : List α} (sorted : Descending key l) {n : Nat} (pos : 0 < n)
    (split : l = done ++ rest) {e : α} (last : (rest.take n).getLast? = some e)
    (within : ∀ f ∈ admitted admits (some e) l, f ∈ rest.drop n) :
    admitted admits (some e) l = rest.drop n ↔
      ∀ e', rest[n - 1]? = some e' → ∀ f ∈ rest.drop n, admits e' f = true := by
  have same {e' : α} (at_ : rest[n - 1]? = some e') : e' = e :=
    Option.some.inj ((getLast?_take at_ pos).symm.trans last)
  constructor
  · rintro all e' at_ f hf
    rw [same at_]
    rw [← all] at hf
    exact (List.mem_filter.1 hf).2
  · intro clean
    have order : Descending key rest := (List.pairwise_append.1 (split ▸ sorted)).2.1
    refine (sorted.filter _).eq_of_mem_iff (order.sublist (List.drop_sublist n rest)) fun f => ?_
    refine ⟨within f, fun hf => List.mem_filter.2 ⟨?_, ?_⟩⟩
    · rw [split]
      exact List.mem_append_right done (List.mem_of_mem_drop hf)
    · -- something is left out, so that the page is full
      have long : n < rest.length := by
        have := List.length_pos_of_mem hf
        rw [List.length_drop] at this
        omega
      have at_ : rest[n - 1]? = some rest[n - 1] := List.getElem?_eq_getElem (by omega)
      rw [← same at_]
      exact clean _ at_ f hf

include below trans in
/-- The pages behind a cursor are the rest of the list exactly if all of the rest is admitted, now
and at each later cut. -/
theorem pages_eq_rest_iff {l : List α} (sorted : Descending key l) {n : Nat} (pos : 0 < n)
    {fuel : Nat} {cursor : Option α} {done rest rows : List α} (split : l = done ++ rest)
    (within : ∀ f ∈ admitted admits cursor l, f ∈ rest)
    (enough : (admitted admits cursor l).length < fuel)
    (followed : pages admits l n fuel cursor = some rows) :
    rows = rest ↔ admitted admits cursor l = rest ∧ CutsClean admits n rest := by
  induction fuel generalizing cursor done rest rows with
  | zero => exact absurd enough (Nat.not_lt_zero _)
  | succ fuel ih =>
    have order : Descending key rest := (List.pairwise_append.1 (split ▸ sorted)).2.1
    have orderAdmitted : Descending key (admitted admits cursor l) := by
      cases cursor with
      | none => exact sorted
      | some c => exact sorted.filter _
    have all (same : rows = rest) : admitted admits cursor l = rest := by
      obtain ⟨rows', followed', mem⟩ := exists_pages below trans n enough
      obtain rfl := Option.some.inj (followed'.symm.trans followed)
      exact orderAdmitted.eq_of_mem_iff order fun f => ⟨within f, fun hf => mem f (same ▸ hf)⟩
    have cuts (front : admitted admits cursor l = rest) : rows = rest ↔ CutsClean admits n rest := by
      rw [cutsClean_iff pos]
      cases last : (rest.take n).getLast? with
      | none =>
        have short : rest = [] := by
          rcases List.take_eq_nil_iff.1 (List.getLast?_eq_none_iff.1 last) with none_ | none_
          · exact absurd none_ (Nat.ne_of_gt pos)
          · exact none_
        rw [← front] at last
        rw [pages_of_empty last] at followed
        rw [short, ← cutsClean_iff pos, ← Option.some.inj followed]
        exact ⟨fun _ => cutsClean_nil, fun _ => rfl⟩
      | some e =>
        rw [← front] at last
        rw [pages_of_last last] at followed
        obtain ⟨rows', followed', rfl⟩ := Option.map_eq_some_iff.1 followed
        rw [front] at last ⊢
        have he : e ∈ admitted admits cursor l :=
          front ▸ List.mem_of_mem_take (List.mem_of_getLast? last)
        have within' : ∀ f ∈ admitted admits (some e) l, f ∈ rest.drop n := by
          intro f hf
          rw [← behind_getLast? order last]
          have mem := admitted_of_admitted trans he hf
          exact mem_behind_some.2 ⟨front ▸ mem, below e f (List.mem_filter.1 hf).2⟩
        have shorter := length_admitted_lt below trans he
        rw [← admitted_last_iff sorted pos split last within',
          ← ih (by rw [List.append_assoc, List.take_append_drop, split]) within' (by omega) followed']
        conv_lhs => rhs; rw [← List.take_append_drop n rest]
        exact List.append_right_inj _
    exact ⟨fun h => ⟨all h, (cuts (all h)).1 h⟩, fun h => (cuts h.1).2 h.2⟩

include below trans in
/-- The pages are the list exactly if nothing behind a cut is left out there. -/
theorem pages_eq_iff {l : List α} (sorted : Descending key l) {n : Nat} (pos : 0 < n)
    {fuel : Nat} (enough : l.length < fuel) {rows : List α}
    (followed : pages admits l n fuel none = some rows) : rows = l ↔ CutsClean admits n l := by
  have whole := @pages_eq_rest_iff α κ _ key admits below trans l sorted n pos fuel none [] l rows rfl
    (fun f hf => hf) enough followed
  rw [whole]
  exact ⟨fun h => h.2, fun h => ⟨rfl, h⟩⟩

end

/-- An element ends a page exactly if the page size divides how many stand down to it. -/
theorem cutsClean_iff_dvd {l : List α} (distinct : l.Pairwise fun a b => key a ≠ key b) {n : Nat}
    (pos : 0 < n) :
    CutsClean admits n (ordered key l) ↔
      ∀ e ∈ l, ∀ f ∈ l, n ∣ (l.filter fun g => key e ≤ key g).length → key f < key e →
        admits e f = true := by
  have sorted := descending_ordered distinct
  -- the elements down to one are those before it and itself
  have count {before after : List α} {e : α} (split : ordered key l = before ++ e :: after) :
      (l.filter fun g => key e ≤ key g).length = before.length + 1 := by
    have perm : (ordered key l).Perm l := List.perm_insertionSort (fun a b => key b ≤ key a) l
    rw [← (perm.filter fun g => decide (key e ≤ key g)).length_eq]
    rw [split] at sorted ⊢
    obtain ⟨-, tail, cross⟩ := List.pairwise_append.1 sorted
    have above : before.filter (fun g => key e ≤ key g) = before := by
      refine List.filter_eq_self.2 fun g hg => ?_
      exact decide_eq_true (le_of_lt (cross g hg e List.mem_cons_self))
    have under : after.filter (fun g => key e ≤ key g) = [] := by
      refine List.filter_eq_nil_iff.2 fun g hg => ?_
      rw [decide_eq_true_iff]
      exact not_le_of_gt (List.rel_of_pairwise_cons tail hg)
    have own : decide (key e ≤ key e) = true := decide_eq_true le_rfl
    rw [List.filter_append, above, List.filter_cons, if_pos own, under, List.length_append]
    rfl
  constructor
  · intro clean e he f hf ends lt
    have listed : e ∈ ordered key l := mem_ordered.2 he
    obtain ⟨before, after, split⟩ := List.append_of_mem listed
    obtain ⟨k, hk⟩ := ends
    rw [count split] at hk
    obtain ⟨k, rfl⟩ : ∃ j, k = j + 1 := by
      refine Nat.exists_eq_succ_of_ne_zero ?_
      rintro rfl
      rw [Nat.mul_zero] at hk
      cases hk
    rw [Nat.mul_comm] at hk
    refine clean k e ?_ f ?_
    · rw [← hk, split, Nat.add_sub_cancel, List.getElem?_append_right le_rfl, Nat.sub_self]
      rfl
    · have later : f ∈ behind key (some (key e)) (ordered key l) :=
        mem_behind_some.2 ⟨mem_ordered.2 hf, lt⟩
      rw [split] at sorted later
      rw [behind_of_split sorted] at later
      rw [← hk, split, ← List.drop_drop, List.drop_left]
      exact later
  · intro clean k e at_ f hf
    have positive : 1 ≤ (k + 1) * n := Nat.mul_pos (Nat.succ_pos k) pos
    obtain ⟨inside, he⟩ := List.getElem?_eq_some_iff.1 at_
    have split : ordered key l = (ordered key l).take ((k + 1) * n - 1) ++
        e :: (ordered key l).drop ((k + 1) * n) := by
      conv_lhs => rw [← List.take_append_drop ((k + 1) * n - 1) (ordered key l),
        List.drop_eq_getElem_cons inside, he, Nat.sub_add_cancel positive]
    refine clean e (mem_ordered.1 (List.mem_of_getElem? at_)) f
      (mem_ordered.1 (List.mem_of_mem_drop hf)) ?_ ?_
    · rw [count split, List.length_take, Nat.min_eq_left (by omega), Nat.sub_add_cancel positive]
      exact Nat.dvd_mul_left n (k + 1)
    · rw [split] at sorted
      exact List.rel_of_pairwise_cons (List.pairwise_append.1 sorted).2.1 hf

end

end ParmeliaLinks.Keyset
