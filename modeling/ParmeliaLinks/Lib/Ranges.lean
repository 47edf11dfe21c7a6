/-
ParmeliaLinks/Lib/Ranges.lean

Ranges of integers that follow each other.

A list of ranges tiles what lies between two integers when it starts at the one, every range
starts behind the one before, and it ends before the other.  `Tiles.mem_iff` says that such a
list has every integer in between, `Tiles.pairwise` that it has none of them twice.
-/
import Mathlib.Algebra.Group.Int.Defs
import Mathlib.Data.List.Chain

namespace ParmeliaLinks

/-- The integers from the first to the last, both of them included. -/
structure Range where
  first : Int
  last : Int
  deriving DecidableEq

/-- The ranges follow each other, from `start` to before `stop`, and none is empty. -/
inductive Tiles : Int → List Range → Int → Prop
  | nil (start : Int) : Tiles start [] start
  | cons {start stop : Int} {r : Range} {ranges : List Range} (first : r.first = start)
    (proper : r.first ≤ r.last) (rest : Tiles (r.last + 1) ranges stop) :
    Tiles start (r :: ranges) stop

namespace Tiles

variable {start middle stop : Int} {ranges more : List Range} {r : Range}

theorem append (h : Tiles start ranges middle) (h' : Tiles middle more stop) :
    Tiles start (ranges ++ more) stop := by
  induction h with
  | nil => exact h'
  | cons first proper _ ih => exact .cons first proper (ih h')

/-- One more range at the end. -/
theorem concat (h : Tiles start ranges r.first) (proper : r.first ≤ r.last) :
    Tiles start (ranges ++ [r]) (r.last + 1) :=
  h.append (.cons rfl proper (.nil _))

theorem le (h : Tiles start ranges stop) : start ≤ stop := by
  induction h with
  | nil => exact Int.le_refl _
  | cons first proper _ ih => omega

theorem mem_iff (h : Tiles start ranges stop) (x : Int) :
    (∃ r ∈ ranges, r.first ≤ x ∧ x ≤ r.last) ↔ start ≤ x ∧ x < stop := by
  induction h with
  | nil start =>
    constructor
    · rintro ⟨r, mem, -⟩
      cases mem
    · omega
  | @cons start stop r ranges first proper rest ih =>
    have := rest.le
    simp only [List.mem_cons, exists_eq_or_imp, ih]
    omega

theorem start_le_first (h : Tiles start ranges stop) (mem : r ∈ ranges) : start ≤ r.first := by
  induction h with
  | nil => cases mem
  | cons first proper _ ih =>
    rcases List.mem_cons.1 mem with rfl | later
    · exact Int.le_of_eq first.symm
    · have := ih later
      omega

/-- In increasing order, and disjoint. -/
theorem pairwise (h : Tiles start ranges stop) :
    ranges.Pairwise fun r r' => r.last < r'.first := by
  induction h with
  | nil => exact .nil
  | cons first proper rest ih =>
    refine .cons (fun r' mem => ?_) ih
    have := rest.start_le_first mem
    omega

/-- Each range starts where the one before has ended. -/
theorem adjacent (h : Tiles start ranges stop) :
    ranges.IsChain fun r r' => r'.first = r.last + 1 := by
  induction h with
  | nil => exact .nil
  | cons first proper rest ih =>
    cases rest with
    | nil => exact .singleton _
    | cons next proper' rest' => exact .cons_cons next ih

theorem proper (h : Tiles start ranges stop) (mem : r ∈ ranges) : r.first ≤ r.last := by
  induction h with
  | nil => cases mem
  | cons first proper rest ih =>
    rcases List.mem_cons.1 mem with rfl | later
    · exact proper
    · exact ih later

end Tiles

end ParmeliaLinks
