/-
ParmeliaLinks/Server/AdaptiveLogs.lean

The scanner of logs.  It goes through a window of blocks range by range: a range that the
provider refuses as too large is tried again at half the span, a sparse one that it
answers lets the span double.  Every call counts against a budget, and without budget the
scan fails, with nothing but the error to show for it.

What a scan needs is a matter of three numbers: how often the span has to be halved to
come down to the smallest one, how many of the smallest ranges the window has, and the
calls.  `Enough` puts them together; a scan with enough calls completes whatever the
provider refuses (`scanRanges_completes`), and against a provider that refuses all it may
a scan without them does not (`enough_of_scanRanges`).
-/
import Mathlib.Algebra.Group.Nat.Defs
import ParmeliaLinks.Lib.Alone
import ParmeliaLinks.Lib.RelyGuarantee
import ParmeliaLinks.Server.Schema

namespace ParmeliaLinks.Server

/-! ### Errors of a provider -/

/-- An error of a call, as `errorText` reads it: name, message and cause, in lower case. -/
structure RpcError where
  text : Text
  deriving DecidableEq

def RpcError.includes (e : RpcError) (needle : String) : Bool := decide (needle.toList <:+: e.text)

def isRangeCapacityError (e : RpcError) : Bool :=
  ["block range", "range limit", "maximum block", "max block", "too many blocks",
    "query returned more than", "response size", "result window", "limit exceeded", "-32005",
    "413"].any e.includes

def isTransientRpcError (e : RpcError) : Bool :=
  ["429", "rate limit", "timeout", "timed out", "network", "fetch failed", "503", "502",
    "temporarily unavailable", "rpc circuit is open", "rpc lane admission deadline"].any e.includes

/-! ### The scan -/

structure AdaptiveLogScanOptions where
  fromBlock : Nat
  toBlock : Nat
  minBlockSpan : Nat
  maxBlockSpan : Nat
  initialBlockSpan : Option Nat := none
  maxTransientRetries : Nat := 3
  maxCalls : Nat

def clamp (value min max : Nat) : Nat :=
  if value < min then min else if max < value then max else value

namespace AdaptiveLogScanOptions

variable (o : AdaptiveLogScanOptions)

/-- The last block of the range that is next. -/
def rangeEnd (cursor : Nat) (span : Nat) : Nat :=
  if o.toBlock < cursor + span - 1 then o.toBlock else cursor + span - 1

/-- The span after a range that was answered. -/
def grown (span logs : Nat) : Nat :=
  if logs ≤ 100 ∧ span < o.maxBlockSpan then clamp (span * 2) o.minBlockSpan o.maxBlockSpan
  else span

/-- The span after a range that was too large. -/
def shrunk (span : Nat) : Nat := clamp ((span + 1) / 2) o.minBlockSpan o.maxBlockSpan

def budgetExceeded : String :=
  "Adaptive log scan exhausted its " ++ toString o.maxCalls ++ "-call budget"

end AdaptiveLogScanOptions

structure ScanState (σ : Type) where
  span : Nat
  cursor : Nat
  transientAttempt : Nat
  collected : σ

section Scan

variable {Op : Type} {Reply : Op → Type} {Log σ : Type}

/-- The loop, by the calls that are left.  The error of an empty budget is thrown whatever
its text says: a retry finds the budget as empty. -/
def scanRanges (o : AdaptiveLogScanOptions)
    (fetchRange : Nat → Nat → Prog Op Reply (Except RpcError (List Log)))
    (onRange : σ → List Log → σ) : Nat → ScanState σ → Prog Op Reply σ
  | 0, s => if o.toBlock < s.cursor then .ret s.collected else .throw o.budgetExceeded
  | calls + 1, s =>
    if o.toBlock < s.cursor then .ret s.collected
    else
      (fetchRange s.cursor (o.rangeEnd s.cursor s.span)).bind fun
        | .ok logs =>
          scanRanges o fetchRange onRange calls
            { span := o.grown s.span logs.length
              cursor := o.rangeEnd s.cursor s.span + 1
              transientAttempt := 0
              collected := onRange s.collected logs }
        | .error e =>
          if isRangeCapacityError e ∧ o.minBlockSpan < s.span then
            scanRanges o fetchRange onRange calls
              { s with span := o.shrunk s.span, transientAttempt := 0 }
          else if isTransientRpcError e ∧ s.transientAttempt < o.maxTransientRetries then
            scanRanges o fetchRange onRange calls
              { s with transientAttempt := s.transientAttempt + 1 }
          else .throw (String.ofList e.text)

/-- The state in which the loop starts. -/
def AdaptiveLogScanOptions.start (o : AdaptiveLogScanOptions) (collected : σ) : ScanState σ where
  span := clamp (o.initialBlockSpan.getD o.maxBlockSpan) o.minBlockSpan o.maxBlockSpan
  cursor := o.fromBlock
  transientAttempt := 0
  collected := collected

def scanLogsAdaptive (o : AdaptiveLogScanOptions)
    (fetchRange : Nat → Nat → Prog Op Reply (Except RpcError (List Log)))
    (onRange : σ → List Log → σ) (collected : σ) : Prog Op Reply σ :=
  if o.toBlock < o.fromBlock then .ret collected
  else if o.minBlockSpan < 1 then .throw "minBlockSpan must be at least one block"
  else if o.maxBlockSpan < o.minBlockSpan then .throw "maxBlockSpan must be >= minBlockSpan"
  else if o.maxCalls < 1 then .throw "maxCalls must be a positive safe integer"
  else scanRanges o fetchRange onRange o.maxCalls (o.start collected)

end Scan

/-! ### Spans -/

theorem clamp_mem {value min max : Nat} (le : min ≤ max) :
    min ≤ clamp value min max ∧ clamp value min max ≤ max := by
  unfold clamp
  split
  · exact ⟨Nat.le_refl _, le⟩
  · split
    · exact ⟨le, Nat.le_refl _⟩
    · omega

theorem clamp_le {value min max bound : Nat} (value_le : value ≤ bound) (min_le : min ≤ bound) :
    clamp value min max ≤ bound := by
  unfold clamp
  split
  · exact min_le
  · split
    · omega
    · exact value_le

theorem le_clamp {value min max : Nat} (le : value ≤ max) : value ≤ clamp value min max := by
  unfold clamp
  split
  · omega
  · split
    · omega
    · exact Nat.le_refl _

namespace AdaptiveLogScanOptions

variable {o : AdaptiveLogScanOptions} {span logs : Nat}

/-- The span lies between the smallest and the largest one. -/
def Spans (o : AdaptiveLogScanOptions) (span : Nat) : Prop :=
  o.minBlockSpan ≤ span ∧ span ≤ o.maxBlockSpan

theorem Spans.grown (h : o.Spans span) : o.Spans (o.grown span logs) := by
  unfold AdaptiveLogScanOptions.grown
  split
  · exact clamp_mem (Nat.le_trans h.1 h.2)
  · exact h

theorem Spans.shrunk (h : o.Spans span) : o.Spans (o.shrunk span) :=
  clamp_mem (Nat.le_trans h.1 h.2)

theorem grown_le (h : o.Spans span) : o.grown span logs ≤ span * 2 := by
  unfold AdaptiveLogScanOptions.grown
  split
  · exact clamp_le (Nat.le_refl _) (by have := h.1; omega)
  · omega

theorem le_shrunk (h : o.Spans span) : (span + 1) / 2 ≤ o.shrunk span :=
  le_clamp (by have := h.2; omega)

theorem rangeEnd_le (cursor : Nat) (span : Nat) : o.rangeEnd cursor span ≤ o.toBlock := by
  unfold rangeEnd
  split
  · exact Nat.le_refl _
  · omega

theorem le_rangeEnd {cursor : Nat} (pos : 0 < span) (le : cursor ≤ o.toBlock) :
    cursor ≤ o.rangeEnd cursor span := by
  unfold rangeEnd
  split
  · exact le
  · omega

end AdaptiveLogScanOptions

/-! ### The budget -/

/-- With a span of at most `min * 2 ^ k` blocks and at most `m` of the smallest ranges to go,
`k + 2 * m - 2` calls are enough: `k` times the span is halved, and each range but the last
one is followed by a range of twice the span, which may be refused.  A span that cannot grow
is never refused. -/
def Enough (o : AdaptiveLogScanOptions) (span remaining calls : Nat) : Prop :=
  remaining = 0 ∨ (remaining ≤ o.minBlockSpan ∧ 1 ≤ calls) ∨
    (o.minBlockSpan = o.maxBlockSpan ∧ ∃ m, remaining ≤ o.minBlockSpan * m ∧ m ≤ calls) ∨
    (o.minBlockSpan < remaining ∧ ∃ k m, span ≤ o.minBlockSpan * 2 ^ k ∧
      remaining ≤ o.minBlockSpan * m ∧ k + 2 * m ≤ calls + 2)

section Budget

variable {o : AdaptiveLogScanOptions} {span remaining calls : Nat}

/-- More than one of the smallest ranges. -/
theorem two_le_of_lt_mul {min r m : Nat} (lt : min < r) (le : r ≤ min * m) : 2 ≤ m := by
  by_contra few
  have small : min * m ≤ min * 1 := Nat.mul_le_mul_left min (by omega)
  omega

/-- One of the smallest ranges less. -/
theorem sub_le_mul_pred {min r m n : Nat} (le : r ≤ min * m) (covered : min ≤ n) :
    r - n ≤ min * (m - 1) := by
  cases m with
  | zero => omega
  | succ m =>
    rw [Nat.mul_succ] at le
    rw [Nat.add_sub_cancel]
    omega

/-- A range that is answered. -/
theorem Enough.answered (h : Enough o span remaining (calls + 1)) (spans : o.Spans span)
    {span' : Nat} (grows : span' ≤ span * 2) : Enough o span' (remaining - span) calls := by
  have small := spans.1
  rcases h with h | ⟨h, -⟩ | ⟨same, m, r, c⟩ | ⟨more, k, m, s, r, c⟩
  · exact .inl (by omega)
  · exact .inl (by omega)
  · exact .inr (.inr (.inl ⟨same, m - 1, sub_le_mul_pred r small, by omega⟩))
  · have two := two_le_of_lt_mul more r
    by_cases done : remaining - span ≤ o.minBlockSpan
    · exact .inr (.inl ⟨done, by omega⟩)
    · refine .inr (.inr (.inr ⟨by omega, k + 1, m - 1, ?_, sub_le_mul_pred r small, by omega⟩))
      calc span' ≤ span * 2 := grows
        _ ≤ o.minBlockSpan * 2 ^ k * 2 := Nat.mul_le_mul_right 2 s
        _ = o.minBlockSpan * 2 ^ (k + 1) := by rw [pow_succ, Nat.mul_assoc]

/-- A range that is refused. -/
theorem Enough.refused (h : Enough o span remaining (calls + 1)) (spans : o.Spans span)
    (large : o.minBlockSpan < span) (long : o.minBlockSpan < remaining) :
    Enough o (o.shrunk span) remaining calls := by
  have le := spans.2
  rcases h with h | ⟨h, -⟩ | ⟨same, -⟩ | ⟨more, k, m, s, r, c⟩
  · omega
  · omega
  · omega
  · cases k with
    | zero =>
      rw [pow_zero, Nat.mul_one] at s
      omega
    | succ k =>
      refine .inr (.inr (.inr ⟨more, k, m, ?_, r, by omega⟩))
      rw [pow_succ, ← Nat.mul_assoc] at s
      apply clamp_le
      · omega
      · exact Nat.le_mul_of_pos_right _ (Nat.two_pow_pos k)

theorem not_enough_of_no_calls (h : Enough o span remaining 0) : remaining = 0 := by
  rcases h with h | ⟨-, h⟩ | ⟨-, m, r, c⟩ | ⟨more, k, m, -, r, c⟩
  · exact h
  · omega
  · obtain rfl : m = 0 := by omega
    omega
  · have := two_le_of_lt_mul more r
    omega

/-- A range that was answered at the smallest span. -/
theorem Enough.of_answered (spans : o.Spans span) (pos : 0 < o.minBlockSpan)
    (smallest : span ≤ o.minBlockSpan ∨ remaining ≤ o.minBlockSpan)
    (h : Enough o (o.grown span 0) (remaining - span) calls) :
    Enough o span remaining (calls + 1) := by
  by_cases last : remaining ≤ o.minBlockSpan
  · exact .inr (.inl ⟨last, by omega⟩)
  obtain rfl : span = o.minBlockSpan := by
    have := spans.1
    omega
  rcases h with h | ⟨h, c⟩ | ⟨same, m, r, c⟩ | ⟨more, k, m, s, r, c⟩
  · omega
  · refine .inr (.inr (.inr ⟨by omega, 0, 2, ?_, by omega, by omega⟩))
    rw [pow_zero, Nat.mul_one]
  · exact .inr (.inr (.inl ⟨same, m + 1, by rw [Nat.mul_succ]; omega, by omega⟩))
  · have two := two_le_of_lt_mul more r
    by_cases same : o.minBlockSpan = o.maxBlockSpan
    · exact .inr (.inr (.inl ⟨same, m + 1, by rw [Nat.mul_succ]; omega, by omega⟩))
    · -- the span has grown, and so has to be halved again
      have larger : o.minBlockSpan < o.grown o.minBlockSpan 0 := by
        have := spans.2
        rw [AdaptiveLogScanOptions.grown, if_pos ⟨by omega, by omega⟩]
        unfold clamp
        split
        · omega
        · split
          · omega
          · omega
      have halved : k ≠ 0 := by
        rintro rfl
        rw [pow_zero, Nat.mul_one] at s
        omega
      refine .inr (.inr (.inr ⟨by omega, 0, m + 1, ?_, by rw [Nat.mul_succ]; omega, by omega⟩))
      rw [pow_zero, Nat.mul_one]

/-- A range that was refused. -/
theorem Enough.of_refused (spans : o.Spans span) (large : o.minBlockSpan < span)
    (long : o.minBlockSpan < remaining) (h : Enough o (o.shrunk span) remaining calls) :
    Enough o span remaining (calls + 1) := by
  have le := spans.2
  rcases h with h | ⟨h, -⟩ | ⟨same, -⟩ | ⟨more, k, m, s, r, c⟩
  · omega
  · omega
  · omega
  · refine .inr (.inr (.inr ⟨more, k + 1, m, ?_, r, by omega⟩))
    have half := AdaptiveLogScanOptions.le_shrunk spans
    rw [pow_succ, ← Nat.mul_assoc]
    omega

end Budget

/-! ### A scan with nothing in between -/

section Alone

variable {Op : Type} {Reply : Op → Type} {Log σ W : Type} {o : AdaptiveLogScanOptions}
  {fetchRange : Nat → Nat → Prog Op Reply (Except RpcError (List Log))}
  {onRange : σ → List Log → σ} {exec : (o : Op) → W → Reply o × W}

theorem cursor_le_rangeEnd {s : ScanState σ} (spans : o.Spans s.span) (pos : 0 < o.minBlockSpan)
    (le : s.cursor ≤ o.toBlock) : s.cursor ≤ o.rangeEnd s.cursor s.span := by
  have := spans.1
  exact AdaptiveLogScanOptions.le_rangeEnd (by omega) le

/-- What is left after a range. -/
theorem remaining_rangeEnd (cursor : Nat) {span : Nat} (pos : 0 < span) :
    o.toBlock + 1 - (o.rangeEnd cursor span + 1) = o.toBlock + 1 - cursor - span := by
  unfold AdaptiveLogScanOptions.rangeEnd
  split <;> omega

/-- A range that has more blocks than the smallest one. -/
theorem of_lt_rangeEnd {cursor span : Nat} (pos : 0 < span)
    (lt : o.minBlockSpan < o.rangeEnd cursor span + 1 - cursor) :
    o.minBlockSpan < span ∧ o.minBlockSpan < o.toBlock + 1 - cursor := by
  unfold AdaptiveLogScanOptions.rangeEnd at lt
  split at lt <;> constructor <;> omega

theorem rangeEnd_le_smallest {cursor span : Nat}
    (le : ¬ o.minBlockSpan < o.rangeEnd cursor span + 1 - cursor) :
    span ≤ o.minBlockSpan ∨ o.toBlock + 1 - cursor ≤ o.minBlockSpan := by
  unfold AdaptiveLogScanOptions.rangeEnd at le
  split at le
  · right
    omega
  · left
    omega

/-- The answer to a range, of a provider that refuses no range of the smallest span: `I`
is what is known once the scan has come to a block. -/
def Fetched (o : AdaptiveLogScanOptions) (onRange : σ → List Log → σ) (I : Nat → σ → W → Prop)
    (a b : Nat) (collected : σ) : Except RpcError (List Log) → W → Prop
  | .ok logs, w => I (b + 1) (onRange collected logs) w
  | .error e, w =>
    isRangeCapacityError e = true ∧ o.minBlockSpan < b + 1 - a ∧ I a collected w

/-- A scan with enough calls completes. -/
theorem scanRanges_completes (exec : (o : Op) → W → Reply o × W) {I : Nat → σ → W → Prop}
    (fetch : ∀ a b collected w, a ≤ b → b ≤ o.toBlock → I a collected w →
      ∃ r w', (fetchRange a b).alone exec w = (.ok r, w') ∧ Fetched o onRange I a b collected r w')
    {calls : Nat} {s : ScanState σ} (spans : o.Spans s.span) (pos : 0 < o.minBlockSpan)
    (le : s.cursor ≤ o.toBlock + 1) (enough : Enough o s.span (o.toBlock + 1 - s.cursor) calls)
    {w : W} (h : I s.cursor s.collected w) :
    ∃ collected w', (scanRanges o fetchRange onRange calls s).alone exec w = (.ok collected, w') ∧
      I (o.toBlock + 1) collected w' := by
  induction calls generalizing s w with
  | zero =>
    have done := not_enough_of_no_calls enough
    obtain same : s.cursor = o.toBlock + 1 := by omega
    refine ⟨s.collected, w, ?_, same ▸ h⟩
    rw [scanRanges, if_pos (by omega)]
    rfl
  | succ calls ih =>
    by_cases done : o.toBlock < s.cursor
    · obtain same : s.cursor = o.toBlock + 1 := by omega
      refine ⟨s.collected, w, ?_, same ▸ h⟩
      rw [scanRanges, if_pos done]
      rfl
    have here : s.cursor ≤ o.toBlock := by omega
    have spanPos : 0 < s.span := Nat.lt_of_lt_of_le pos spans.1
    obtain ⟨r, w₁, run, fetched⟩ := fetch s.cursor (o.rangeEnd s.cursor s.span) s.collected w
      (cursor_le_rangeEnd spans pos here) (AdaptiveLogScanOptions.rangeEnd_le _ _) h
    rw [scanRanges, if_neg done, Prog.alone_bind run]
    cases r with
    | ok logs =>
      refine ih spans.grown ?_ ?_ fetched
      · have := AdaptiveLogScanOptions.rangeEnd_le (o := o) s.cursor s.span
        show o.rangeEnd s.cursor s.span + 1 ≤ o.toBlock + 1
        omega
      · rw [remaining_rangeEnd s.cursor spanPos]
        exact enough.answered spans (AdaptiveLogScanOptions.grown_le spans)
    | error e =>
      obtain ⟨capacity, large, h⟩ := fetched
      obtain ⟨span, remaining⟩ := of_lt_rangeEnd spanPos large
      have again : isRangeCapacityError e = true ∧ o.minBlockSpan < s.span := ⟨capacity, span⟩
      simp only [if_pos again]
      exact ih (s := { s with span := o.shrunk s.span, transientAttempt := 0 }) spans.shrunk le
        (enough.refused spans span remaining) h

/-- Against a provider that has no logs and refuses all but the smallest ranges, only a
scan with enough calls completes. -/
theorem enough_of_scanRanges {I : W → Prop}
    (fetch : ∀ a b w, I w → ∃ r w', (fetchRange a b).alone exec w = (.ok r, w') ∧ I w' ∧
      if o.minBlockSpan < b + 1 - a then ∃ e, r = .error e ∧ isRangeCapacityError e = true
      else r = .ok [])
    {calls : Nat} {s : ScanState σ} (spans : o.Spans s.span) (pos : 0 < o.minBlockSpan)
    {w w' : W} (h : I w) {collected : σ}
    (run : (scanRanges o fetchRange onRange calls s).alone exec w = (.ok collected, w')) :
    Enough o s.span (o.toBlock + 1 - s.cursor) calls := by
  induction calls generalizing s w with
  | zero =>
    left
    rw [scanRanges] at run
    split at run
    · omega
    · cases run
  | succ calls ih =>
    by_cases done : o.toBlock < s.cursor
    · left
      omega
    have here : s.cursor ≤ o.toBlock := by omega
    have spanPos : 0 < s.span := Nat.lt_of_lt_of_le pos spans.1
    obtain ⟨r, w₁, first, h₁, answer⟩ := fetch s.cursor (o.rangeEnd s.cursor s.span) w h
    rw [scanRanges, if_neg done, Prog.alone_bind first] at run
    by_cases large : o.minBlockSpan < o.rangeEnd s.cursor s.span + 1 - s.cursor
    · rw [if_pos large] at answer
      obtain ⟨e, rfl, capacity⟩ := answer
      obtain ⟨span, remaining⟩ := of_lt_rangeEnd spanPos large
      have again : isRangeCapacityError e = true ∧ o.minBlockSpan < s.span := ⟨capacity, span⟩
      simp only [if_pos again] at run
      have rest := ih (s := { s with span := o.shrunk s.span, transientAttempt := 0 }) spans.shrunk
        h₁ run
      exact rest.of_refused spans span remaining
    · rw [if_neg large] at answer
      subst answer
      have rest := ih spans.grown h₁ run
      rw [remaining_rangeEnd s.cursor spanPos] at rest
      exact rest.of_answered spans pos (rangeEnd_le_smallest large)

/-- The options of a scan of at least one block. -/
structure AdaptiveLogScanOptions.Valid (o : AdaptiveLogScanOptions) : Prop where
  window : o.fromBlock ≤ o.toBlock
  minBlockSpan : 1 ≤ o.minBlockSpan
  maxBlockSpan : o.minBlockSpan ≤ o.maxBlockSpan
  maxCalls : 1 ≤ o.maxCalls

theorem AdaptiveLogScanOptions.Valid.spans (h : o.Valid) (collected : σ) :
    o.Spans (o.start collected).span :=
  clamp_mem h.maxBlockSpan

/-- A scan of at least one block is the loop. -/
theorem scanLogsAdaptive_of_valid (h : o.Valid) (collected : σ) :
    scanLogsAdaptive o fetchRange onRange collected =
      scanRanges o fetchRange onRange o.maxCalls (o.start collected) := by
  rw [scanLogsAdaptive, if_neg (Nat.not_lt.2 h.window), if_neg (Nat.not_lt.2 h.minBlockSpan),
    if_neg (Nat.not_lt.2 h.maxBlockSpan), if_neg (Nat.not_lt.2 h.maxCalls)]

end Alone

/-! ### A scan among others -/

section Interleaved

variable {Op : Type} {Reply : Op → Type} {Log σ : Type} {o : AdaptiveLogScanOptions}
  {fetchRange : Nat → Nat → Prog Op Reply (Except RpcError (List Log))}
  {onRange : σ → List Log → σ}

theorem uses_scanRanges {P : Op → Prop} (h : ∀ a b, (fetchRange a b).Uses P) (calls : Nat)
    (s : ScanState σ) : (scanRanges o fetchRange onRange calls s).Uses P := by
  induction calls generalizing s with
  | zero =>
    rw [scanRanges]
    split <;> trivial
  | succ calls ih =>
    rw [scanRanges]
    split
    · trivial
    · refine Prog.uses_bind (h _ _) fun r => ?_
      cases r with
      | ok logs => exact ih _
      | error e =>
        show Prog.Uses P (if _ then _ else _)
        split
        · exact ih _
        · split
          · exact ih _
          · trivial

theorem uses_scanLogsAdaptive {P : Op → Prop} (h : ∀ a b, (fetchRange a b).Uses P)
    (collected : σ) : (scanLogsAdaptive o fetchRange onRange collected).Uses P := by
  rw [scanLogsAdaptive]
  split
  · trivial
  split
  · trivial
  split
  · trivial
  split
  · trivial
  exact uses_scanRanges h _ _

variable {World Answer Env Call Result : Type} {D : Discipline Op World Answer Env Call}
  {S : System Op Reply World Answer Env Call Result} {i : Nat}

/-- What a fetch leaves: `I` is what is known once the scan has come to a block. -/
def Ranged (onRange : σ → List Log → σ) (I : Nat → σ → World → Prop) (a b : Nat) (collected : σ) :
    Except String (Except RpcError (List Log)) → World → Prop
  | .ok (.ok logs), w => I (b + 1) (onRange collected logs) w
  | .ok (.error _), w => I a collected w
  | .error _, _ => True

/-- What a scan leaves. -/
def Scanned (toBlock : Nat) (I : Nat → σ → World → Prop) : Except String σ → World → Prop
  | .ok collected, w => I (toBlock + 1) collected w
  | .error _, _ => True

/-- A scan that completes has come to the end of its window, range by range. -/
theorem wp_scanRanges {I : Nat → σ → World → Prop}
    (fetch : ∀ a b collected w, a ≤ b → b ≤ o.toBlock → I a collected w →
      D.wp S i (fetchRange a b) (Ranged onRange I a b collected) w)
    {calls : Nat} {s : ScanState σ} (spans : o.Spans s.span) (pos : 0 < o.minBlockSpan)
    (le : s.cursor ≤ o.toBlock + 1) {w : World} (h : I s.cursor s.collected w) :
    D.wp S i (scanRanges o fetchRange onRange calls s) (Scanned o.toBlock I) w := by
  induction calls generalizing s w with
  | zero =>
    rw [scanRanges]
    split
    · obtain same : s.cursor = o.toBlock + 1 := by omega
      show I (o.toBlock + 1) s.collected w
      rwa [← same]
    · trivial
  | succ calls ih =>
    rw [scanRanges]
    split
    · obtain same : s.cursor = o.toBlock + 1 := by omega
      show I (o.toBlock + 1) s.collected w
      rwa [← same]
    · have end_le := AdaptiveLogScanOptions.rangeEnd_le (o := o) s.cursor s.span
      have first := fetch s.cursor (o.rangeEnd s.cursor s.span) s.collected w
        (cursor_le_rangeEnd spans pos (by omega)) end_le h
      refine D.wp_seq S first (fun r w' fetched => ?_) fun _ _ _ => trivial
      cases r with
      | ok logs => exact ih spans.grown (Nat.succ_le_succ end_le) fetched
      | error e =>
        show D.wp S i (if _ then _ else _) _ w'
        split
        · exact ih (s := { s with span := o.shrunk s.span, transientAttempt := 0 }) spans.shrunk
            le fetched
        · split
          · exact ih (s := { s with transientAttempt := s.transientAttempt + 1 }) spans le fetched
          · trivial

theorem wp_scanLogsAdaptive {I : Nat → σ → World → Prop}
    (fetch : ∀ a b collected w, a ≤ b → b ≤ o.toBlock → I a collected w →
      D.wp S i (fetchRange a b) (Ranged onRange I a b collected) w)
    (window : o.fromBlock ≤ o.toBlock) {collected : σ} {w : World} (h : I o.fromBlock collected w) :
    D.wp S i (scanLogsAdaptive o fetchRange onRange collected) (Scanned o.toBlock I) w := by
  rw [scanLogsAdaptive, if_neg (Nat.not_lt.2 window)]
  split
  · trivial
  split
  · trivial
  split
  · trivial
  rename_i min max _
  have spans : o.Spans (o.start collected).span := clamp_mem (Nat.not_lt.1 max)
  exact wp_scanRanges fetch spans (Nat.not_lt.1 min) (Nat.le_succ_of_le window) h

end Interleaved

end ParmeliaLinks.Server
