/-
ParmeliaLinks/Server/LogScan.lean

The ranges that a scan of logs hands on, against any provider.

Here the scan has all its limits, with or without a budget of calls, and a handler of ranges
that may fail like the provider, since it is called inside of the same attempt.  Provider and
handler are any functions of a state of the world that they may change, so they answer as they
please.

A scan ends in any case: an answered range leaves less of the window, a range that is refused
as too large a smaller span, and a transient failure fewer retries.  The invariant of the loop
is that the ranges that the handler has taken tile the window up to the cursor
(`Scanned`), whether the scan then returns or throws.
-/
import ParmeliaLinks.Lib.Ranges
import ParmeliaLinks.Server.AdaptiveLogs

namespace ParmeliaLinks.Server.LogScan

/-! ### The scan -/

structure Options where
  fromBlock : Int
  toBlock : Int
  minBlockSpan : Int
  maxBlockSpan : Int
  initialBlockSpan : Option Int
  maxTransientRetries : Option Nat
  /-- What is not a positive safe integer is refused, like zero. -/
  maxCalls : Option Nat

/-- The provider and the handler of a caller. -/
structure Client (W Log : Type) where
  fetchRange : Int → Int → W → Except RpcError (List Log) × W
  onRange : List Log → Range → W → Except RpcError Unit × W

def clampSpan (value min max : Int) : Int :=
  if value < min then min else if max < value then max else value

/-- A call of the handler, and whether it returned. -/
structure Handled where
  range : Range
  returned : Bool

structure Stats where
  calls : Nat
  retries : Nat
  ranges : Nat
  minSpanUsed : Int
  maxSpanUsed : Int
  finalSpan : Int
  logs : Nat

/-- The options that the loop runs with. -/
structure Limits where
  toBlock : Int
  minBlockSpan : Int
  maxBlockSpan : Int
  maxTransientRetries : Nat
  maxCalls : Option Nat
  min_pos : 1 ≤ minBlockSpan
  min_le_max : minBlockSpan ≤ maxBlockSpan

/-- The variables of the loop, the state of the world, and the calls of the handler so far. -/
structure State (l : Limits) (W : Type) where
  world : W
  span : Int
  cursor : Int
  calls : Nat
  retries : Nat
  ranges : Nat
  totalLogs : Nat
  minSpanUsed : Int
  maxSpanUsed : Int
  transientAttempt : Nat
  handled : List Handled
  spans : l.minBlockSpan ≤ span ∧ span ≤ l.maxBlockSpan

/-- How a scan ended, with the calls that it made and those of the handler. -/
structure Ended where
  outcome : Except RpcError Stats
  calls : Nat
  handled : List Handled

/-- The ranges that were passed to the handler. -/
def passed (handled : List Handled) : List Range := handled.map (·.range)

/-- The ranges that the handler took. -/
def taken (handled : List Handled) : List Range := (handled.filter (·.returned)).map (·.range)

def budgetExceeded (maxCalls : Nat) : RpcError where
  text := ("adaptivelogscanbudgetexceedederror adaptive log scan exhausted its " ++
    toString maxCalls ++ "-call budget").toList

theorem clampSpan_mem {value min max : Int} (le : min ≤ max) :
    min ≤ clampSpan value min max ∧ clampSpan value min max ≤ max := by
  unfold clampSpan
  split
  · omega
  · split <;> omega

section loop

variable {W Log : Type} {l : Limits}

namespace State

/-- The last block of the range that is next. -/
def rangeEnd (s : State l W) : Int :=
  if l.toBlock < s.cursor + s.span - 1 then l.toBlock else s.cursor + s.span - 1

def range (s : State l W) : Range := { first := s.cursor, last := s.rangeEnd }

/-- After a range that the handler took. -/
def answered (s : State l W) (logs : List Log) (world : W) : State l W :=
  let actualSpan := s.rangeEnd - s.cursor + 1
  { s with
    world
    span :=
      if logs.length ≤ 100 ∧ s.span < l.maxBlockSpan then
        clampSpan (s.span * 2) l.minBlockSpan l.maxBlockSpan
      else s.span
    cursor := s.rangeEnd + 1
    calls := s.calls + 1
    ranges := s.ranges + 1
    totalLogs := s.totalLogs + logs.length
    minSpanUsed := if actualSpan < s.minSpanUsed then actualSpan else s.minSpanUsed
    maxSpanUsed := if s.maxSpanUsed < actualSpan then actualSpan else s.maxSpanUsed
    transientAttempt := 0
    handled := s.handled ++ [{ range := s.range, returned := true }]
    spans := by
      split
      · exact clampSpan_mem l.min_le_max
      · exact s.spans }

/-- After a range that was too large. -/
def shrunk (s : State l W) : State l W :=
  { s with
    span := clampSpan ((s.span + 1).tdiv 2) l.minBlockSpan l.maxBlockSpan
    retries := s.retries + 1
    transientAttempt := 0
    spans := clampSpan_mem l.min_le_max }

/-- After a transient failure. -/
def retried (s : State l W) : State l W :=
  { s with
    transientAttempt := s.transientAttempt + 1
    retries := s.retries + 1 }

def stats (s : State l W) : Stats where
  calls := s.calls
  retries := s.retries
  ranges := s.ranges
  minSpanUsed := if s.ranges = 0 then 0 else s.minSpanUsed
  maxSpanUsed := s.maxSpanUsed
  finalSpan := s.span
  logs := s.totalLogs

def ended (s : State l W) (outcome : Except RpcError Stats) : Ended where
  outcome
  calls := s.calls
  handled := s.handled

/-- One attempt at a range: its logs, or the error that is caught, with the state in which it
is caught. -/
def attempt (client : Client W Log) (s : State l W) :
    Except (RpcError × State l W) (List Log × W) :=
  if l.maxCalls.any (· ≤ s.calls) then .error (budgetExceeded (l.maxCalls.getD 0), s)
  else
    let called : State l W := { s with calls := s.calls + 1 }
    match client.fetchRange s.cursor s.rangeEnd s.world with
    | (.error e, world) => .error (e, { called with world })
    | (.ok logs, world) =>
      match client.onRange logs s.range world with
      | (.error e, world) =>
        .error (e, { called with
          world
          handled := s.handled ++ [{ range := s.range, returned := false }] })
      | (.ok (), world) => .ok (logs, world)

end State

/-- The budget has a call left. -/
def State.Spare (s : State l W) : Prop := ∀ maxCalls, l.maxCalls = some maxCalls → s.calls < maxCalls

theorem State.spare_iff {s : State l W} : s.Spare ↔ ¬l.maxCalls.any (· ≤ s.calls) = true := by
  unfold State.Spare
  rcases l.maxCalls with - | maxCalls
  · simp
  · simp

/-- Without budget nothing is called; otherwise the provider failed, or the handler did. -/
theorem attempt_error {client : Client W Log} {s s' : State l W} {e : RpcError}
    (failed : s.attempt client = .error (e, s')) :
    s' = s ∨ s.Spare ∧ ∃ world, s' = { s with world, calls := s.calls + 1 } ∨
      s' = { s with
        world, calls := s.calls + 1
        handled := s.handled ++ [{ range := s.range, returned := false }] } := by
  unfold State.attempt at failed
  split at failed
  · cases failed
    exact .inl rfl
  next spare =>
  have spare := State.spare_iff.2 spare
  dsimp only at failed
  split at failed
  next world _ =>
    cases failed
    exact .inr ⟨spare, world, .inl rfl⟩
  split at failed
  next world _ =>
    cases failed
    exact .inr ⟨spare, world, .inr rfl⟩
  · cases failed

theorem attempt_ok {client : Client W Log} {s : State l W} {logs : List Log} {world : W}
    (took : s.attempt client = .ok (logs, world)) : s.Spare := by
  unfold State.attempt at took
  split at took
  · cases took
  next spare => exact State.spare_iff.2 spare

/-- What is caught leaves the variables of the loop. -/
theorem attempt_error_loop {client : Client W Log} {s s' : State l W} {e : RpcError}
    (failed : s.attempt client = .error (e, s')) :
    s'.cursor = s.cursor ∧ s'.span = s.span ∧ s'.transientAttempt = s.transientAttempt := by
  rcases attempt_error failed with rfl | ⟨-, world, rfl | rfl⟩
  · exact ⟨rfl, rfl, rfl⟩
  · exact ⟨rfl, rfl, rfl⟩
  · exact ⟨rfl, rfl, rfl⟩

theorem State.cursor_le_rangeEnd {s : State l W} (inside : s.cursor ≤ l.toBlock) :
    s.cursor ≤ s.rangeEnd := by
  have := s.spans
  have := l.min_pos
  unfold State.rangeEnd
  split <;> omega

theorem State.shrunk_lt {s : State l W} (large : l.minBlockSpan < s.span) :
    s.shrunk.span < s.span := by
  have := s.spans
  have := l.min_pos
  unfold State.shrunk clampSpan
  dsimp only
  rw [Int.tdiv_eq_ediv_of_nonneg (by omega)]
  split
  · exact large
  · split <;> omega

/-- The loop.  A range that was too large is tried again at a smaller span, a transient failure
as often as there are retries left. -/
def scanRanges (client : Client W Log) (s : State l W) : Ended :=
  if _inside : s.cursor ≤ l.toBlock then
    match _failed : s.attempt client with
    | .ok (logs, world) => scanRanges client (s.answered logs world)
    | .error (e, caught) =>
      if _large : isRangeCapacityError e = true ∧ l.minBlockSpan < caught.span then
        scanRanges client caught.shrunk
      else if _again : isTransientRpcError e = true ∧
          caught.transientAttempt < l.maxTransientRetries then
        scanRanges client caught.retried
      else caught.ended (.error e)
  else s.ended (.ok s.stats)
termination_by ((l.toBlock + 1 - s.cursor).toNat, s.span.toNat,
  l.maxTransientRetries - s.transientAttempt)
decreasing_by
  · have := State.cursor_le_rangeEnd _inside
    apply Prod.Lex.left
    show (l.toBlock + 1 - (s.rangeEnd + 1)).toNat < (l.toBlock + 1 - s.cursor).toNat
    omega
  · obtain ⟨cursor, span, -⟩ := attempt_error_loop _failed
    have smaller := State.shrunk_lt _large.2
    have := caught.shrunk.spans
    have := l.min_pos
    show Prod.Lex _ _ ((l.toBlock + 1 - caught.cursor).toNat, _) _
    rw [cursor, ← span]
    apply Prod.Lex.right
    apply Prod.Lex.left
    omega
  · obtain ⟨cursor, span, attempt⟩ := attempt_error_loop _failed
    show Prod.Lex _ _ ((l.toBlock + 1 - caught.cursor).toNat, caught.span.toNat,
      l.maxTransientRetries - (caught.transientAttempt + 1)) _
    rw [cursor, span]
    apply Prod.Lex.right
    apply Prod.Lex.right
    omega

end loop

def refused (message : String) : Ended where
  outcome := .error { text := message.toList }
  calls := 0
  handled := []

def scanLogsAdaptive {W Log : Type} (o : Options) (client : Client W Log) (world : W) : Ended :=
  if o.toBlock < o.fromBlock then
    { outcome := .ok { calls := 0, retries := 0, ranges := 0, minSpanUsed := 0, maxSpanUsed := 0
                       finalSpan := 0, logs := 0 }
      calls := 0
      handled := [] }
  else if min_pos : o.minBlockSpan < 1 then
    refused "error minblockspan must be at least one block"
  else if min_le_max : o.maxBlockSpan < o.minBlockSpan then
    refused "error maxblockspan must be >= minblockspan"
  else if o.maxCalls.any (· < 1) then refused "error maxcalls must be a positive safe integer"
  else
    let l : Limits := {
      toBlock := o.toBlock
      minBlockSpan := o.minBlockSpan
      maxBlockSpan := o.maxBlockSpan
      maxTransientRetries := o.maxTransientRetries.getD 3
      maxCalls := o.maxCalls
      min_pos := Int.not_lt.1 min_pos
      min_le_max := Int.not_lt.1 min_le_max }
    let start : State l W := {
      world
      span := clampSpan (o.initialBlockSpan.getD o.maxBlockSpan) o.minBlockSpan o.maxBlockSpan
      cursor := o.fromBlock
      calls := 0
      retries := 0
      ranges := 0
      totalLogs := 0
      minSpanUsed := o.maxBlockSpan
      maxSpanUsed := 0
      transientAttempt := 0
      handled := []
      spans := clampSpan_mem l.min_le_max }
    scanRanges client start


/-! ### What a scan hands on -/

section

variable {W Log : Type} {l : Limits} {fromBlock : Int}

/-- The invariant of the loop. -/
structure Scanned (fromBlock : Int) (s : State l W) : Prop where
  tiles : Tiles fromBlock (taken s.handled) s.cursor
  within : s.cursor ≤ l.toBlock + 1
  span : ∀ r ∈ passed s.handled, r.last - r.first + 1 ≤ l.maxBlockSpan
  calls : ∀ maxCalls, l.maxCalls = some maxCalls → s.calls ≤ maxCalls

theorem taken_append (handled more : List Handled) :
    taken (handled ++ more) = taken handled ++ taken more := by
  simp only [taken, List.filter_append, List.map_append]

theorem range_span (s : State l W) : s.range.last - s.range.first + 1 ≤ l.maxBlockSpan := by
  have := s.spans
  show s.rangeEnd - s.cursor + 1 ≤ l.maxBlockSpan
  unfold State.rangeEnd
  split <;> omega

theorem Scanned.caught {client : Client W Log} {s s' : State l W} {e : RpcError}
    (h : Scanned fromBlock s) (failed : s.attempt client = .error (e, s')) :
    Scanned fromBlock s' := by
  rcases attempt_error failed with rfl | ⟨spare, world, rfl | rfl⟩
  · exact h
  · exact ⟨h.tiles, h.within, h.span, spare⟩
  · refine ⟨?_, h.within, ?_, spare⟩
    · rw [taken_append]
      exact (List.append_nil _).symm ▸ h.tiles
    · intro r mem
      rw [passed, List.map_append, List.mem_append] at mem
      rcases mem with before | last
      · exact h.span r before
      · rw [List.mem_singleton.1 last]
        exact range_span s

theorem Scanned.shrunk {s : State l W} (h : Scanned fromBlock s) : Scanned fromBlock s.shrunk :=
  ⟨h.tiles, h.within, h.span, h.calls⟩

theorem Scanned.retried {s : State l W} (h : Scanned fromBlock s) : Scanned fromBlock s.retried :=
  ⟨h.tiles, h.within, h.span, h.calls⟩

theorem Scanned.answered {client : Client W Log} {s : State l W} {logs : List Log} {world : W}
    (h : Scanned fromBlock s) (inside : s.cursor ≤ l.toBlock)
    (took : s.attempt client = .ok (logs, world)) : Scanned fromBlock (s.answered logs world) := by
  have proper : s.range.first ≤ s.range.last := State.cursor_le_rangeEnd inside
  refine ⟨?_, ?_, ?_, attempt_ok took⟩
  · show Tiles fromBlock (taken (s.handled ++ [{ range := s.range, returned := true }])) _
    rw [taken_append]
    exact h.tiles.concat proper
  · show s.rangeEnd + 1 ≤ l.toBlock + 1
    unfold State.rangeEnd
    split <;> omega
  · intro r mem
    change r ∈ passed (s.handled ++ [{ range := s.range, returned := true }]) at mem
    rw [passed, List.map_append, List.mem_append] at mem
    rcases mem with before | last
    · exact h.span r before
    · rw [List.mem_singleton.1 last]
      exact range_span s

/-- What a scan of a window leaves behind. -/
structure Leaves (l : Limits) (fromBlock : Int) (r : Ended) : Prop where
  tiles : ∃ stop, Tiles fromBlock (taken r.handled) stop ∧ stop ≤ l.toBlock + 1 ∧
    (r.outcome.isOk → stop = l.toBlock + 1)
  span : ∀ range ∈ passed r.handled, range.last - range.first + 1 ≤ l.maxBlockSpan
  calls : ∀ maxCalls, l.maxCalls = some maxCalls → r.calls ≤ maxCalls

/-- The handler never fails. -/
def Client.Total (client : Client W Log) : Prop :=
  ∀ logs range world, (client.onRange logs range world).1 = .ok ()

end

/-- The ranges follow each other without a gap and in increasing order, pairwise disjoint, none
is empty or above the span, and together they are the blocks from the first to the last. -/
structure Covers (fromBlock toBlock maxBlockSpan : Int) (ranges : List Range) : Prop where
  contiguous : ranges.IsChain fun r r' => r'.first = r.last + 1
  increasing : ranges.Pairwise fun r r' => r.last < r'.first
  proper : ∀ r ∈ ranges, r.first ≤ r.last ∧ r.last - r.first + 1 ≤ maxBlockSpan
  union : ∀ block, (∃ r ∈ ranges, r.first ≤ block ∧ block ≤ r.last) ↔
    fromBlock ≤ block ∧ block ≤ toBlock

theorem covers_of_tiles {fromBlock stop maxBlockSpan : Int} {ranges : List Range}
    (tiles : Tiles fromBlock ranges stop)
    (span : ∀ r ∈ ranges, r.last - r.first + 1 ≤ maxBlockSpan) :
    Covers fromBlock (stop - 1) maxBlockSpan ranges where
  contiguous := tiles.adjacent
  increasing := tiles.pairwise
  proper r mem := ⟨tiles.proper mem, span r mem⟩
  union block := by
    rw [tiles.mem_iff]
    omega

/-- What a scan is to do.  The ranges are those that the handler took, which are all that it
was passed when it never fails. -/
structure Exact (o : Options) (r : Ended) : Prop where
  returns : r.outcome.isOk →
    Covers o.fromBlock o.toBlock o.maxBlockSpan (taken r.handled)
  throws : ¬r.outcome.isOk →
    ∃ last, last ≤ o.toBlock ∧ Covers o.fromBlock last o.maxBlockSpan (taken r.handled)
  calls : ∀ maxCalls, o.maxCalls = some maxCalls → r.calls ≤ maxCalls

theorem taken_subset {handled : List Handled} {r : Range} (mem : r ∈ taken handled) :
    r ∈ passed handled := by
  obtain ⟨h, kept, rfl⟩ := List.mem_map.1 mem
  exact List.mem_map.2 ⟨h, (List.mem_filter.1 kept).1, rfl⟩

theorem Leaves.exact {l : Limits} {o : Options} {r : Ended} (leaves : Leaves l o.fromBlock r)
    (toBlock : l.toBlock = o.toBlock) (maxBlockSpan : l.maxBlockSpan = o.maxBlockSpan)
    (maxCalls : l.maxCalls = o.maxCalls) : Exact o r := by
  obtain ⟨stop, tiles, within, whole⟩ := leaves.tiles
  rw [toBlock] at within whole
  have covers : Covers o.fromBlock (stop - 1) o.maxBlockSpan (taken r.handled) := by
    refine covers_of_tiles tiles fun range mem => ?_
    rw [← maxBlockSpan]
    exact leaves.span range (taken_subset mem)
  refine ⟨fun ok => ?_, fun _ => ⟨stop - 1, by omega, covers⟩, ?_⟩
  · have last : stop - 1 = o.toBlock := by
      have := whole ok
      omega
    exact last ▸ covers
  · rw [← maxCalls]
    exact leaves.calls

end ParmeliaLinks.Server.LogScan
