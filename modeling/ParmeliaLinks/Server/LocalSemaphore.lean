/-
ParmeliaLinks/Server/LocalSemaphore.lean

The semaphore in front of an RPC lane.  A call of `acquire` takes a slot, or waits with a timer; the
function that it gets releases its slot to the first call that waits.  A step is one callback: the
event loop runs nothing in between, and it may run them in any order.

Main results: in every run the slots in use are the counted ones and at most `maximum`
(`run_sound`), a release hands its slot to one call or frees it (`release_holder`), and a call that
has timed out never has a slot (`rejected_forever`).
-/
import Mathlib.Data.List.Nodup

namespace ParmeliaLinks.Server.LocalSemaphore

/-- The number of a call of `acquire`. -/
abbrev Ticket := Nat

/-- The fields of the semaphore, the timers that are armed, and what the calls came to: those with a
release function that was not called, those whose function was, and those that were rejected. -/
structure Semaphore where
  active : Int
  waiters : List Ticket
  timers : List Ticket
  holders : List Ticket
  released : List Ticket
  rejected : List Ticket
  issued : Nat
  deriving DecidableEq

def initial : Semaphore := ⟨0, [], [], [], [], [], 0⟩

/-! ### The callbacks -/

/-- A promise is settled once. -/
def Semaphore.settled (s : Semaphore) (t : Ticket) : Prop :=
  t ∈ s.holders ∨ t ∈ s.released ∨ t ∈ s.rejected

instance (s : Semaphore) (t : Ticket) : Decidable (s.settled t) :=
  inferInstanceAs (Decidable (_ ∨ _ ∨ _))

def Semaphore.resolve (s : Semaphore) (t : Ticket) : Semaphore :=
  if s.settled t then s else { s with holders := s.holders ++ [t] }

def Semaphore.reject (s : Semaphore) (t : Ticket) : Semaphore :=
  if s.settled t then s else { s with rejected := s.rejected ++ [t] }

def acquire (maximum : Nat) (s : Semaphore) : Semaphore :=
  if s.active ≥ maximum then
    { s with
      waiters := s.waiters ++ [s.issued], timers := s.timers ++ [s.issued]
      issued := s.issued + 1 }
  else
    { s with
      active := s.active + 1, holders := s.holders ++ [s.issued]
      issued := s.issued + 1 }

/-- The timer of a waiting call. -/
def timeout (s : Semaphore) (t : Ticket) : Semaphore :=
  { s with waiters := s.waiters.erase t, timers := s.timers.erase t }.reject t

/-- The function that a call got. -/
def release (s : Semaphore) (t : Ticket) : Semaphore :=
  if t ∈ s.released then s
  else
    let s := { s with holders := s.holders.erase t, released := s.released ++ [t] }
    match s.waiters with
    | next :: rest => { s with waiters := rest, timers := s.timers.erase next }.resolve next
    | [] => { s with active := s.active - 1 }

inductive Event
  | acquire
  | timeout (t : Ticket)
  | release (t : Ticket)
  deriving DecidableEq

/-- A timer runs if it is armed, and a release function is called by a call that got one. -/
def step (maximum : Nat) (s : Semaphore) : Event → Option Semaphore
  | .acquire => some (acquire maximum s)
  | .timeout t => if t ∈ s.timers then some (timeout s t) else none
  | .release t => if t ∈ s.holders ∨ t ∈ s.released then some (release s t) else none

def run (maximum : Nat) : Semaphore → List Event → Option Semaphore
  | s, [] => some s
  | s, e :: es => (step maximum s e).bind fun s' => run maximum s' es

/-! ### The invariant -/

/-- Every call is at one place, every waiting call has its timer, and calls wait only when all slots
are in use. -/
structure Sound (maximum : Nat) (s : Semaphore) : Prop where
  once : ∀ t, s.waiters.count t + s.holders.count t + s.released.count t + s.rejected.count t =
    if t < s.issued then 1 else 0
  timed : s.timers = s.waiters
  counted : s.active = s.holders.length
  bounded : s.holders.length ≤ maximum
  full : s.waiters ≠ [] → s.holders.length = maximum

variable {maximum : Nat} {s s' : Semaphore}

theorem sound_initial : Sound maximum initial where
  once _ := rfl
  timed := rfl
  counted := rfl
  bounded := Nat.zero_le _
  full h := absurd rfl h

namespace Sound

/-- A call that waits has come to nothing yet. -/
theorem not_settled (h : Sound maximum s) {t : Ticket} (waits : t ∈ s.waiters) : ¬ s.settled t := by
  have here := List.count_pos_iff.2 waits
  have total := h.once t
  rintro (there | there | there)
  all_goals
    have there := List.count_pos_iff.2 there
    split at total
    all_goals omega

/-- A released call has no slot. -/
theorem not_holder (h : Sound maximum s) {t : Ticket} (done : t ∈ s.released) : t ∉ s.holders := by
  intro holds
  have here := List.count_pos_iff.2 done
  have there := List.count_pos_iff.2 holds
  have total := h.once t
  split at total
  all_goals omega

theorem not_waiting_of_rejected (h : Sound maximum s) {t : Ticket} (out : t ∈ s.rejected) :
    t ∉ s.waiters ∧ t ∉ s.holders := by
  have here := List.count_pos_iff.2 out
  have total := h.once t
  constructor
  all_goals
    intro there
    have there := List.count_pos_iff.2 there
    split at total
    all_goals omega

theorem nodup_holders (h : Sound maximum s) : s.holders.Nodup := by
  refine List.nodup_iff_count_le_one.2 fun t => ?_
  have total := h.once t
  split at total
  all_goals omega

end Sound

/-- The tickets that are out count one more, the new one. -/
theorem issued_succ (n t : Nat) :
    (if t < n + 1 then 1 else 0) = (if t < n then 1 else 0) + [n].count t := by
  rw [List.count_singleton]
  rcases Nat.lt_trichotomy t n with lt | rfl | gt
  · rw [if_pos (by omega), if_pos lt, if_neg (by simp; omega)]
  · rw [if_pos (by omega), if_neg (by omega), if_pos (by simp)]
  · rw [if_neg (by omega), if_neg (by omega), if_neg (by simp; omega)]

/-- One place loses a call. -/
theorem count_erase_add {l : List Ticket} {t : Ticket} (h : t ∈ l) (u : Ticket) :
    (l.erase t).count u + [t].count u = l.count u := by
  rw [← List.count_append]
  exact (List.perm_append_singleton t _ |>.trans (List.perm_cons_erase h).symm).count_eq u

theorem Sound.acquire (h : Sound maximum s) : Sound maximum (acquire maximum s) := by
  have all := h.once
  unfold LocalSemaphore.acquire
  split
  · rename_i busy
    have inUse : s.holders.length = maximum := by
      have := h.bounded
      have := h.counted
      omega
    refine ⟨fun t => ?_, congrArg (· ++ [s.issued]) h.timed, h.counted, h.bounded, fun _ => inUse⟩
    show (s.waiters ++ [s.issued]).count t + s.holders.count t + s.released.count t +
      s.rejected.count t = if t < s.issued + 1 then 1 else 0
    rw [List.count_append, issued_succ, ← all t]
    omega
  · rename_i free
    have room : s.holders.length < maximum := by
      have := h.counted
      omega
    refine ⟨fun t => ?_, h.timed, ?_, ?_, fun waits => ?_⟩
    · show s.waiters.count t + (s.holders ++ [s.issued]).count t + s.released.count t +
        s.rejected.count t = if t < s.issued + 1 then 1 else 0
      rw [List.count_append, issued_succ, ← all t]
      omega
    · show s.active + 1 = ((s.holders ++ [s.issued]).length : Int)
      rw [List.length_append, h.counted]
      rfl
    · show (s.holders ++ [s.issued]).length ≤ maximum
      rw [List.length_append]
      exact room
    · -- nobody waits for a slot while one is free
      exact absurd (h.full waits) (Nat.ne_of_lt room)

/-- A timer that runs rejects its call and leaves the slots alone. -/
theorem timeout_eq (h : Sound maximum s) {t : Ticket} (armed : t ∈ s.timers) :
    timeout s t = { s with
      waiters := s.waiters.erase t, timers := s.timers.erase t
      rejected := s.rejected ++ [t] } :=
  if_neg (h.not_settled (h.timed ▸ armed))

theorem Sound.timeout (h : Sound maximum s) {t : Ticket} (armed : t ∈ s.timers) :
    Sound maximum (timeout s t) := by
  have waits : t ∈ s.waiters := h.timed ▸ armed
  rw [timeout_eq h armed]
  refine ⟨fun u => ?_, congrArg (·.erase t) h.timed, h.counted, h.bounded, fun left => h.full ?_⟩
  · have split := count_erase_add waits u
    show (s.waiters.erase t).count u + s.holders.count u + s.released.count u +
      (s.rejected ++ [t]).count u = if u < s.issued then 1 else 0
    rw [List.count_append, ← h.once u]
    omega
  · exact List.ne_nil_of_mem waits

/-- A call that releases hands its slot to the first call that waits, or frees it. -/
theorem release_holder (h : Sound maximum s) {t : Ticket} (holds : t ∈ s.holders) :
    (∃ next rest, s.waiters = next :: rest ∧ release s t = { s with
      waiters := rest, timers := rest, holders := s.holders.erase t ++ [next]
      released := s.released ++ [t] }) ∨
    (s.waiters = [] ∧ release s t = { s with
      active := s.active - 1, holders := s.holders.erase t, released := s.released ++ [t] }) := by
  have first : t ∉ s.released := fun done => h.not_holder done holds
  unfold release
  rw [if_neg first]
  cases queue : s.waiters with
  | nil => exact Or.inr ⟨rfl, rfl⟩
  | cons next rest =>
    refine Or.inl ⟨next, rest, rfl, ?_⟩
    have waits : next ∈ s.waiters := queue ▸ List.mem_cons_self
    have pending := h.not_settled waits
    have other : next ≠ t := by
      rintro rfl
      exact pending (Or.inl holds)
    have timers : s.timers.erase next = rest := by
      rw [h.timed, queue, List.erase_cons_head]
    show Semaphore.resolve _ next = _
    rw [timers]
    refine if_neg ?_
    rintro (there | there | there)
    · exact pending (Or.inl (List.mem_of_mem_erase there))
    · rcases List.mem_append.1 there with there | there
      · exact pending (Or.inr (Or.inl there))
      · exact other (List.mem_singleton.1 there)
    · exact pending (Or.inr (Or.inr there))

theorem Sound.release (h : Sound maximum s) {t : Ticket}
    (given : t ∈ s.holders ∨ t ∈ s.released) : Sound maximum (release s t) := by
  rcases given with holds | done
  · have out := count_erase_add holds
    have fewer := List.length_erase_of_mem holds
    have some_ := List.length_pos_of_mem holds
    rcases release_holder h holds with ⟨next, rest, queue, released⟩ | ⟨empty, released⟩
    · rw [released]
      have inUse := h.full (by rw [queue]; exact List.cons_ne_nil _ _)
      have length : (s.holders.erase t ++ [next]).length = s.holders.length := by
        rw [List.length_append, fewer]
        exact Nat.sub_add_cancel some_
      refine ⟨fun u => ?_, rfl, ?_, ?_, fun _ => length.trans inUse⟩
      · have before := h.once u
        rw [queue, ← List.singleton_append, List.count_append] at before
        show rest.count u + (s.holders.erase t ++ [next]).count u +
          (s.released ++ [t]).count u + s.rejected.count u = if u < s.issued then 1 else 0
        rw [List.count_append, List.count_append, ← before]
        have := out u
        omega
      · exact h.counted.trans (congrArg _ length.symm)
      · exact Nat.le_trans (Nat.le_of_eq length) h.bounded
    · rw [released]
      refine ⟨fun u => ?_, h.timed, ?_, ?_, fun waits => absurd empty waits⟩
      · show s.waiters.count u + (s.holders.erase t).count u + (s.released ++ [t]).count u +
          s.rejected.count u = if u < s.issued then 1 else 0
        rw [List.count_append, ← h.once u]
        have := out u
        omega
      · show s.active - 1 = ((s.holders.erase t).length : Int)
        rw [h.counted, fewer]
        omega
      · exact Nat.le_trans List.length_erase_le h.bounded
  · rw [LocalSemaphore.release, if_pos done]
    exact h

/-! ### Runs -/

theorem Sound.step (h : Sound maximum s) {e : Event} (ran : step maximum s e = some s') :
    Sound maximum s' := by
  cases e with
  | acquire =>
    rw [← Option.some.inj ran]
    exact h.acquire
  | timeout t =>
    obtain ⟨armed, ran⟩ := Option.ite_none_right_eq_some.1 ran
    obtain rfl := Option.some.inj ran
    exact h.timeout armed
  | release t =>
    obtain ⟨given, ran⟩ := Option.ite_none_right_eq_some.1 ran
    obtain rfl := Option.some.inj ran
    exact h.release given

theorem run_induction {P : Semaphore → Prop} {es : List Event} (h : Sound maximum s) (start : P s)
    (each : ∀ {s s' e}, Sound maximum s → P s → LocalSemaphore.step maximum s e = some s' → P s')
    (ran : run maximum s es = some s') : Sound maximum s' ∧ P s' := by
  induction es generalizing s with
  | nil =>
    rw [← Option.some.inj ran]
    exact ⟨h, start⟩
  | cons e es ih =>
    obtain ⟨s₁, first, rest⟩ := Option.bind_eq_some_iff.1 ran
    exact ih (h.step first) (each h start first) rest

theorem run_sound {es : List Event} (ran : run maximum initial es = some s) : Sound maximum s :=
  (run_induction (P := fun _ => True) sound_initial trivial (fun _ _ _ => trivial) ran).1

/-- A call that was rejected stays so. -/
theorem rejected_step (h : Sound maximum s) {t : Ticket} (out : t ∈ s.rejected) {e : Event}
    (ran : step maximum s e = some s') : t ∈ s'.rejected := by
  cases e with
  | acquire =>
    rw [← Option.some.inj ran]
    unfold LocalSemaphore.acquire
    split
    · exact out
    · exact out
  | timeout u =>
    obtain ⟨armed, ran⟩ := Option.ite_none_right_eq_some.1 ran
    obtain rfl := Option.some.inj ran
    rw [timeout_eq h armed]
    exact List.mem_append_left _ out
  | release u =>
    obtain ⟨holds | done, ran⟩ := Option.ite_none_right_eq_some.1 ran
    all_goals obtain rfl := Option.some.inj ran
    · rcases release_holder h holds with ⟨next, rest, -, released⟩ | ⟨-, released⟩
      · rw [released]
        exact out
      · rw [released]
        exact out
    · rw [release, if_pos done]
      exact out

/-- A call that has timed out has no slot then and gets none later. -/
theorem rejected_forever (h : Sound maximum s) {t : Ticket} (armed : t ∈ s.timers)
    {es : List Event} (ran : run maximum (timeout s t) es = some s') :
    t ∉ s'.waiters ∧ t ∉ s'.holders := by
  have out : t ∈ (timeout s t).rejected := by
    rw [timeout_eq h armed]
    exact List.mem_append_right _ (List.mem_singleton_self t)
  obtain ⟨sound, later⟩ := run_induction (h.timeout armed) out
    (fun sound out ran => rejected_step sound out ran) ran
  exact sound.not_waiting_of_rejected later

end ParmeliaLinks.Server.LocalSemaphore
