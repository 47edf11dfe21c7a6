/-
ParmeliaLinks/Lib/OrderedMap.lean

Maps that remember the order in which their keys came.  Setting a key that is
there replaces its value where it stands; a new key goes to the end.  A key
occurs once, so the entry of a key is its value (`mem_entries_iff`), and the
values are read in order.
-/
import Mathlib.Data.List.Induction
import Mathlib.Data.List.Nodup

namespace ParmeliaLinks

/-- Entries in the order of their keys' first appearance. -/
structure OrderedMap (κ ν : Type) where
  entries : List (κ × ν)
  distinct : (entries.map Prod.fst).Nodup

namespace OrderedMap

variable {κ ν : Type} [DecidableEq κ]

def empty : OrderedMap κ ν := ⟨[], List.nodup_nil⟩

/-- The value of a key. -/
def get (m : OrderedMap κ ν) (k : κ) : Option ν :=
  (m.entries.find? fun e => e.1 == k).map Prod.snd

/-- Whether there is a value for the key. -/
def has (m : OrderedMap κ ν) (k : κ) : Bool := (m.get k).isSome

/-- The values, in order. -/
def values (m : OrderedMap κ ν) : List ν := m.entries.map Prod.snd

/-- The entries with the value of `k` replaced. -/
def replaced (m : OrderedMap κ ν) (k : κ) (v : ν) : List (κ × ν) :=
  m.entries.map fun e => if e.1 = k then (k, v) else e

theorem keys_replaced (m : OrderedMap κ ν) (k : κ) (v : ν) :
    (m.replaced k v).map Prod.fst = m.entries.map Prod.fst := by
  rw [replaced, List.map_map]
  refine List.map_congr_left ?_
  intro e _
  show (if e.1 = k then (k, v) else e).1 = e.1
  split
  · exact (‹e.1 = k›).symm
  · rfl

/-- Give a key a value. -/
def set (m : OrderedMap κ ν) (k : κ) (v : ν) : OrderedMap κ ν :=
  if h : k ∈ m.entries.map Prod.fst then
    ⟨m.replaced k v, by rw [keys_replaced]; exact m.distinct⟩
  else
    ⟨m.entries ++ [(k, v)], by
      rw [List.map_append, List.map_singleton]
      exact List.nodup_append.2 ⟨m.distinct, List.nodup_singleton _, by
        rintro a ha b hb rfl
        rw [List.mem_singleton.1 hb] at ha
        exact h ha⟩⟩

theorem mem_entries_iff {m : OrderedMap κ ν} {k : κ} {v : ν} :
    (k, v) ∈ m.entries ↔ m.get k = some v := by
  obtain ⟨entries, distinct⟩ := m
  show (k, v) ∈ entries ↔ (entries.find? fun e => e.1 == k).map Prod.snd = some v
  induction entries with
  | nil => simp
  | cons e rest ih =>
    rw [List.map_cons, List.nodup_cons] at distinct
    have ih := ih distinct.2
    rw [List.find?_cons, List.mem_cons]
    by_cases same : e.1 = k
    · simp only [same, beq_self_eq_true, Option.map_some, Option.some.injEq]
      constructor
      · rintro (equal | old)
        · rw [← equal]
        · refine absurd ?_ distinct.1
          rw [same]
          exact List.mem_map.2 ⟨_, old, rfl⟩
      · rintro rfl
        exact .inl (by rw [← same])
    · rw [beq_eq_false_iff_ne.2 same]
      constructor
      · rintro (equal | old)
        · exact absurd (by rw [← equal]) same
        · exact ih.1 old
      · exact fun found => .inr (ih.2 found)

theorem mem_values_iff {m : OrderedMap κ ν} {v : ν} : v ∈ m.values ↔ ∃ k, m.get k = some v := by
  rw [values, List.mem_map]
  constructor
  · rintro ⟨⟨k, v⟩, mem, rfl⟩
    exact ⟨k, mem_entries_iff.1 mem⟩
  · rintro ⟨k, found⟩
    exact ⟨(k, v), mem_entries_iff.2 found, rfl⟩

@[simp] theorem get_empty (k : κ) : (empty : OrderedMap κ ν).get k = none := rfl

theorem mem_set {m : OrderedMap κ ν} {k k' : κ} {v v' : ν} :
    (k', v') ∈ (m.set k v).entries ↔ if k' = k then v' = v else (k', v') ∈ m.entries := by
  unfold set
  split
  · rename_i known
    show (k', v') ∈ m.replaced k v ↔ _
    rw [replaced, List.mem_map]
    split
    · rename_i same
      constructor
      · rintro ⟨e, _, equal⟩
        split at equal
        · exact (Prod.mk.inj equal).2.symm
        · rename_i other
          exact absurd ((congrArg Prod.fst equal).trans same) other
      · rintro rfl
        obtain ⟨e, mem, at_k⟩ := List.mem_map.1 known
        exact ⟨e, mem, by rw [if_pos at_k, same]⟩
    · rename_i other
      constructor
      · rintro ⟨e, mem, equal⟩
        split at equal
        · exact absurd (Prod.mk.inj equal).1.symm other
        · exact equal ▸ mem
      · exact fun mem => ⟨_, mem, if_neg other⟩
  · rename_i fresh
    show (k', v') ∈ m.entries ++ [(k, v)] ↔ _
    rw [List.mem_append, List.mem_singleton, Prod.mk.injEq]
    split
    · rename_i same
      constructor
      · rintro (old | new)
        · exact absurd (List.mem_map.2 ⟨_, old, same⟩) fresh
        · exact new.2
      · exact fun equal => .inr ⟨same, equal⟩
    · rename_i other
      exact ⟨fun mem => mem.resolve_right fun new => other new.1, .inl⟩

theorem get_set (m : OrderedMap κ ν) (k k' : κ) (v : ν) :
    (m.set k v).get k' = if k' = k then some v else m.get k' := by
  apply Option.ext
  intro v'
  rw [← mem_entries_iff, mem_set]
  split
  · rw [Option.some.injEq]
    exact eq_comm
  · exact mem_entries_iff

theorem entries_set_of_fresh {m : OrderedMap κ ν} {k : κ} (h : k ∉ m.entries.map Prod.fst) (v : ν) :
    (m.set k v).entries = m.entries ++ [(k, v)] := by
  rw [set, dif_neg h]

theorem has_iff {m : OrderedMap κ ν} {k : κ} : m.has k = true ↔ ∃ v, m.get k = some v :=
  Option.isSome_iff_exists

/-- The entries that satisfy a condition. -/
def filter (m : OrderedMap κ ν) (p : κ × ν → Bool) : OrderedMap κ ν :=
  ⟨m.entries.filter p, m.distinct.sublist (List.filter_sublist.map Prod.fst)⟩

omit [DecidableEq κ] in
@[simp] theorem entries_filter (m : OrderedMap κ ν) (p : κ × ν → Bool) :
    (m.filter p).entries = m.entries.filter p := rfl

/-- Take a key out. -/
def erase (m : OrderedMap κ ν) (k : κ) : OrderedMap κ ν := m.filter fun e => e.1 ≠ k

/-- A key that is not there can be taken out. -/
theorem entries_erase_of_not_has {m : OrderedMap κ ν} {k : κ} (h : m.has k = false) :
    (m.erase k).entries = m.entries := by
  refine List.filter_eq_self.2 fun e he => decide_eq_true ?_
  rintro rfl
  have there := has_iff.2 ⟨e.2, mem_entries_iff.1 he⟩
  rw [h] at there
  cases there

/-- The map of a list of entries, later ones over earlier ones. -/
def ofList (l : List (κ × ν)) : OrderedMap κ ν := l.foldl (fun m e => m.set e.1 e.2) empty

theorem ofList_concat (l : List (κ × ν)) (e : κ × ν) :
    ofList (l ++ [e]) = (ofList l).set e.1 e.2 := by
  rw [ofList, List.foldl_append]
  rfl

/-- The value of a key comes from an entry. -/
theorem mem_of_get_ofList {l : List (κ × ν)} {k : κ} {v : ν} (h : (ofList l).get k = some v) :
    (k, v) ∈ l := by
  induction l using List.reverseRecOn with
  | nil => cases h
  | append_singleton l e ih =>
    rw [ofList_concat, get_set] at h
    split at h
    · rename_i same
      refine List.mem_append_right _ (List.mem_singleton.2 ?_)
      rw [same, ← Option.some.inj h]
    · exact List.mem_append_left _ (ih h)

/-- A key with an entry has a value. -/
theorem exists_get_ofList {l : List (κ × ν)} {k : κ} {v : ν} (h : (k, v) ∈ l) :
    ∃ w, (ofList l).get k = some w := by
  induction l using List.reverseRecOn with
  | nil => cases h
  | append_singleton l e ih =>
    rw [ofList_concat, get_set]
    split
    · exact ⟨e.2, rfl⟩
    · rename_i other
      refine ih ((List.mem_append.1 h).resolve_right ?_)
      intro new
      exact other (congrArg Prod.fst (List.mem_singleton.1 new))

end OrderedMap

end ParmeliaLinks
