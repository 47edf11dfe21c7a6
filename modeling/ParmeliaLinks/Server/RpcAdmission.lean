/-
ParmeliaLinks/Server/RpcAdmission.lean

Admission to an RPC provider.  Over the semaphore of each process stands a controller that all
processes share: a record of leases with their expiries, which grants a token while fewer leases
than `maxConcurrency` are live.

Main results: the leases of the record that are live are the granted tokens that were neither
released nor have expired (`Kept`), so that no more of them are live than the requests allow, and a
release of any other token changes nothing (`admission_limits`).
-/
import ParmeliaLinks.Lib.OrderedMap
import ParmeliaLinks.Lib.SqlText
import ParmeliaLinks.Server.LocalSemaphore

namespace ParmeliaLinks.Server.RpcAdmission

/-! ### The controller -/

/-- `LeaseRecord`: the expiry of each token. -/
abbrev LeaseRecord := OrderedMap Text Int

structure RpcAdmissionRequest where
  maxConcurrency : Int
  leaseTtlMs : Int
  deriving DecidableEq

inductive RpcAdmissionResult
  | granted (token : Text)
  | refused (retryAfterMs : Int)
  deriving DecidableEq

/-- `validateRequest`, which throws otherwise. -/
def validateRequest (value : RpcAdmissionRequest) : Bool :=
  1 ≤ value.maxConcurrency && value.maxConcurrency ≤ 1000 &&
    1000 ≤ value.leaseTtlMs && value.leaseTtlMs ≤ 120000

def liveLeases (leases : Option LeaseRecord) (now : Int) : LeaseRecord :=
  (leases.getD .empty).filter fun e => now < e.2

def earliestExpiry (leases : LeaseRecord) : Option Int := leases.values.min?

def sameLeaseRecord (left : Option LeaseRecord) (right : LeaseRecord) : Bool :=
  (left.getD .empty).entries.length == right.entries.length &&
    (left.getD .empty).entries.all fun e => right.get e.1 == some e.2

inductive AlarmChange
  | none
  | set (time : Int)
  | delete

/-- What the object has stored, and its alarm. -/
structure Controller where
  leases : Option LeaseRecord
  alarm : Option Int

def applyAlarmChange (c : Controller) : AlarmChange → Controller
  | .none => c
  | .set time => { c with alarm := some time }
  | .delete => { c with alarm := none }

/-- `acquire`, with the identifier that it draws if it grants a token; a request that does not pass
is answered with an error.  The input gate keeps other events out while the storage is awaited. -/
def acquire (c : Controller) (uuid : Text) (request : RpcAdmissionRequest) (now : Int) :
    Option RpcAdmissionResult × Controller :=
  if validateRequest request then
    let leases := liveLeases c.leases now
    let pruned := !sameLeaseRecord c.leases leases
    if leases.entries.length ≥ request.maxConcurrency then
      let expiry := (earliestExpiry leases).getD (now + 100)
      (some (.refused (max 25 (min 250 (expiry - now)))),
        applyAlarmChange { c with leases := if pruned then some leases else c.leases }
          (if pruned then .set expiry else .none))
    else
      let previousExpiry := earliestExpiry leases
      let leases := leases.set uuid (now + request.leaseTtlMs)
      (some (.granted uuid),
        applyAlarmChange { c with leases := some leases }
          (match earliestExpiry leases with
            | some expiry =>
              if pruned ∨ previousExpiry = none ∨ some expiry ≠ previousExpiry then .set expiry
              else .none
            | none => .none))
  else (none, c)

/-- `/^[0-9a-f-]{36}$/u`. -/
def isToken (t : Text) : Bool :=
  t.length == 36 && t.all fun c => c.isDigit || ('a' ≤ c && c ≤ 'f') || c == '-'

def release (c : Controller) (token : Text) (now : Int) : Controller :=
  if isToken token then
    let current := liveLeases c.leases now
    let previousExpiry := earliestExpiry (c.leases.getD .empty)
    let removed := current.has token
    let current := if removed then current.erase token else current
    let changed := removed || !sameLeaseRecord c.leases current
    if changed then
      applyAlarmChange { c with leases := if current.entries.length = 0 then none else some current }
        (match earliestExpiry current with
          | none => .delete
          | some expiry => if some expiry ≠ previousExpiry then .set expiry else .none)
    else c
  else c

/-- `alarm`: the alarm that fires is no longer set. -/
def alarm (c : Controller) (now : Int) : Controller :=
  let leases := liveLeases c.leases now
  if leases.entries.length = 0 then { leases := none, alarm := none }
  else
    { leases := if sameLeaseRecord c.leases leases then c.leases else some leases
      alarm := earliestExpiry leases }

/-! ### What the operations leave of the record -/

/-- The entries of the record. -/
def Controller.record (c : Controller) : List (Text × Int) := (c.leases.getD .empty).entries

/-- The entries that are live at a time. -/
def liveAt (time : Int) (entries : List (Text × Int)) : List (Text × Int) :=
  entries.filter fun e => time < e.2

@[simp] theorem entries_liveLeases (c : Controller) (now : Int) :
    (liveLeases c.leases now).entries = liveAt now c.record := rfl

@[simp] theorem record_applyAlarmChange (c : Controller) (change : AlarmChange) :
    (applyAlarmChange c change).record = c.record := by
  cases change with
  | none => rfl
  | set time => rfl
  | delete => rfl

theorem liveAt_append (time : Int) (l m : List (Text × Int)) :
    liveAt time (l ++ m) = liveAt time l ++ liveAt time m :=
  List.filter_append l m

/-- What has expired before a time is not live then. -/
theorem liveAt_liveAt {now time : Int} (h : now ≤ time) (l : List (Text × Int)) :
    liveAt time (liveAt now l) = liveAt time l := by
  rw [liveAt, liveAt, List.filter_filter]
  refine List.filter_congr fun e _ => ?_
  rw [Bool.eq_iff_iff, Bool.and_eq_true, decide_eq_true_iff, decide_eq_true_iff]
  constructor
  · exact fun both => both.1
  · exact fun live => ⟨live, lt_of_le_of_lt h live⟩

theorem length_liveAt_le (time : Int) (l : List (Text × Int)) : (liveAt time l).length ≤ l.length :=
  List.length_filter_le _ _

theorem liveAt_eq_self {time : Int} {l : List (Text × Int)} (h : ∀ e ∈ l, time < e.2) :
    liveAt time l = l :=
  List.filter_eq_self.2 fun e he => decide_eq_true (h e he)

/-- Entries that have expired are taken out, at most. -/
structure Prunes (now : Int) (c c' : Controller) : Prop where
  fewer : c'.record.Sublist c.record
  live : ∀ time, now ≤ time → liveAt time c'.record = liveAt time c.record

theorem Prunes.rfl (now : Int) (c : Controller) : Prunes now c c :=
  ⟨List.Sublist.refl _, fun _ _ => Eq.refl _⟩

theorem prunes_liveLeases {now : Int} {c c' : Controller}
    (h : c'.record = liveAt now c.record) : Prunes now c c' := by
  refine ⟨?_, fun time later => ?_⟩
  · rw [h]
    exact List.filter_sublist
  · rw [h, liveAt_liveAt later]

theorem acquire_invalid {c : Controller} {uuid : Text} {request : RpcAdmissionRequest} {now : Int}
    (h : validateRequest request = false) : acquire c uuid request now = (none, c) := by
  rw [acquire, h]
  rfl

/-- A request is refused when as many leases are live as it allows. -/
theorem acquire_refused {c : Controller} {uuid : Text} {request : RpcAdmissionRequest} {now : Int}
    (valid : validateRequest request = true)
    (busy : request.maxConcurrency ≤ (liveAt now c.record).length) :
    ∃ retryAfterMs c', acquire c uuid request now = (some (.refused retryAfterMs), c') ∧
      Prunes now c c' := by
  rw [acquire, if_pos valid]
  dsimp only
  rw [if_pos (show (liveLeases c.leases now).entries.length ≥ request.maxConcurrency from busy)]
  refine ⟨_, _, rfl, ?_⟩
  cases sameLeaseRecord c.leases (liveLeases c.leases now) with
  | true => exact Prunes.rfl now c
  | false => exact prunes_liveLeases rfl

/-- A request is granted otherwise; a token that is not in the record is added to it. -/
theorem acquire_granted {c : Controller} {uuid : Text} {request : RpcAdmissionRequest} {now : Int}
    (valid : validateRequest request = true)
    (free : (liveAt now c.record).length < request.maxConcurrency)
    (fresh : uuid ∉ c.record.map Prod.fst) :
    ∃ c', acquire c uuid request now = (some (.granted uuid), c') ∧
      c'.record = liveAt now c.record ++ [(uuid, now + request.leaseTtlMs)] := by
  have absent : uuid ∉ (liveLeases c.leases now).entries.map Prod.fst := by
    intro there
    exact fresh ((List.filter_sublist.map Prod.fst).subset there)
  rw [acquire, if_pos valid]
  dsimp only
  rw [if_neg (show ¬ (liveLeases c.leases now).entries.length ≥ request.maxConcurrency from
    not_le_of_gt free)]
  refine ⟨_, rfl, ?_⟩
  rw [record_applyAlarmChange]
  exact OrderedMap.entries_set_of_fresh absent _

theorem release_malformed {c : Controller} {token : Text} {now : Int}
    (h : isToken token = false) : release c token now = c := by
  rw [release, h]
  rfl

/-- What a release keeps: the live leases of the other tokens. -/
def othersLive (c : Controller) (token : Text) (now : Int) : LeaseRecord :=
  if (liveLeases c.leases now).has token then (liveLeases c.leases now).erase token
  else liveLeases c.leases now

theorem entries_othersLive (c : Controller) (token : Text) (now : Int) :
    (othersLive c token now).entries = (liveAt now c.record).filter fun e => e.1 ≠ token := by
  unfold othersLive
  split
  · rfl
  · rename_i absent
    exact (OrderedMap.entries_erase_of_not_has (Bool.eq_false_iff.2 absent)).symm

/-- A release stores what it keeps, or finds that stored. -/
theorem release_eq {c : Controller} {token : Text} {now : Int} (h : isToken token = true) :
    (release c token now).record = (othersLive c token now).entries ∨
      release c token now = c ∧ (liveLeases c.leases now).has token = false := by
  rw [release, if_pos h]
  dsimp only
  rw [← othersLive]
  split
  · refine Or.inl ?_
    rw [record_applyAlarmChange]
    show (Option.getD (if (othersLive c token now).entries.length = 0 then none
      else some (othersLive c token now)) OrderedMap.empty).entries = _
    split
    · rename_i empty
      exact (List.eq_nil_of_length_eq_zero empty).symm
    · rfl
  · rename_i same
    rw [Bool.or_eq_true, not_or, Bool.not_eq_true] at same
    exact Or.inr ⟨rfl, same.1⟩

/-- A release takes its token out of the live leases. -/
theorem release_live {c : Controller} {token : Text} {now : Int} (h : isToken token = true) :
    (release c token now).record.Sublist c.record ∧
      ∀ time, now ≤ time → liveAt time (release c token now).record =
        (liveAt time c.record).filter fun e => e.1 ≠ token := by
  rcases release_eq h with stored | ⟨same, absent⟩
  · rw [stored, entries_othersLive]
    refine ⟨List.filter_sublist.trans List.filter_sublist, fun time later => ?_⟩
    show List.filter _ (List.filter _ _) = _
    rw [List.filter_comm]
    exact congrArg (List.filter fun e => e.1 ≠ token) (liveAt_liveAt later c.record)
  · rw [same]
    refine ⟨List.Sublist.refl _, fun time later => (List.filter_eq_self.2 fun e he => ?_).symm⟩
    -- a live entry of the token would have been found
    refine decide_eq_true ?_
    rintro rfl
    have live := liveAt_liveAt later c.record ▸ he
    have there := OrderedMap.has_iff.2 ⟨e.2, OrderedMap.mem_entries_iff.1
      (List.mem_of_mem_filter live : e ∈ (liveLeases c.leases now).entries)⟩
    rw [absent] at there
    cases there

theorem alarm_prunes (c : Controller) (now : Int) : Prunes now c (alarm c now) := by
  unfold alarm
  dsimp only
  split
  · rename_i empty
    refine prunes_liveLeases ?_
    exact (List.eq_nil_of_length_eq_zero empty).symm
  · cases same : sameLeaseRecord c.leases (liveLeases c.leases now) with
    | true => exact ⟨List.Sublist.refl _, fun _ _ => rfl⟩
    | false => exact prunes_liveLeases rfl

theorem sameLeaseRecord_of_entries {left : Option LeaseRecord} {right : LeaseRecord}
    (h : (left.getD .empty).entries = right.entries) : sameLeaseRecord left right = true := by
  rw [sameLeaseRecord, h, beq_self_eq_true, Bool.true_and, List.all_eq_true]
  intro e he
  exact beq_iff_eq.2 (OrderedMap.mem_entries_iff.1 he)

/-- A release of a token that has no lease does nothing while no lease has expired. -/
theorem release_eq_self {c : Controller} {token : Text} {now : Int}
    (current : ∀ e ∈ c.record, now < e.2) (absent : ∀ e ∈ c.record, e.1 ≠ token) :
    release c token now = c := by
  cases formed : isToken token with
  | false => exact release_malformed formed
  | true =>
    have all : (liveLeases c.leases now).entries = c.record := liveAt_eq_self current
    have no : (liveLeases c.leases now).has token = false := by
      refine Bool.eq_false_iff.2 fun there => ?_
      obtain ⟨expiresAt, found⟩ := OrderedMap.has_iff.1 there
      exact absent _ (all ▸ OrderedMap.mem_entries_iff.2 found) rfl
    have same : sameLeaseRecord c.leases (liveLeases c.leases now) = true :=
      sameLeaseRecord_of_entries all.symm
    rw [release, if_pos formed]
    dsimp only
    rw [no, if_neg Bool.false_ne_true, same]
    rfl

/-! ### Runs -/

/-- The controller, the time, the identifiers that were drawn, and the granted tokens with their
expiries, less those for which a release has run. -/
structure World where
  controller : Controller
  clock : Int
  drawn : List Text
  outstanding : List (Text × Int)

def initial (clock : Int) : World := ⟨⟨none, none⟩, clock, [], []⟩

/-- The tokens that their holders may still count on. -/
def World.live (w : World) : List (Text × Int) := liveAt w.clock w.outstanding

inductive Event
  | acquire (uuid : Text) (request : RpcAdmissionRequest) (now : Int)
  | release (token : Text) (now : Int)
  | alarm (now : Int)
  | tick (elapsed : Nat)
  deriving DecidableEq

/-- What becomes of a request. -/
def World.acquire (w : World) (uuid : Text) (request : RpcAdmissionRequest) (now : Int) : World :=
  match RpcAdmission.acquire w.controller uuid request now with
  | (some (.granted token), controller) =>
    { w with
      controller, drawn := w.drawn ++ [uuid]
      outstanding := w.outstanding ++ [(token, now + request.leaseTtlMs)] }
  | (_, controller) => { w with controller }

def World.release (w : World) (token : Text) (now : Int) : World :=
  { w with
    controller := RpcAdmission.release w.controller token now
    outstanding := w.outstanding.filter fun e => e.1 ≠ token }

local instance lawfulText : LawfulBEq Text := inferInstance

/-- An operation reads the clock when it starts, and so an earlier time than that at which it
stores.  `crypto.randomUUID()` gives an identifier that it has not given before. -/
def step (w : World) : Event → Option World
  | .acquire uuid request now =>
    if now ≤ w.clock ∧ isToken uuid = true ∧ uuid ∉ w.drawn then some (w.acquire uuid request now)
    else none
  | .release token now => if now ≤ w.clock then some (w.release token now) else none
  | .alarm now =>
    if now ≤ w.clock then some { w with controller := alarm w.controller now } else none
  | .tick elapsed => some { w with clock := w.clock + elapsed }

def run : World → List Event → Option World
  | w, [] => some w
  | w, e :: es => (step w e).bind fun w' => run w' es

/-- The live leases are the granted tokens, and no more than any request allows. -/
structure Kept (maximum : Nat) (w : World) : Prop where
  live : ∀ time, w.clock ≤ time →
    liveAt time w.controller.record = liveAt time w.outstanding
  bounded : w.controller.record.length ≤ maximum
  recorded : ∀ e ∈ w.controller.record, e.1 ∈ w.drawn
  granted : ∀ e ∈ w.outstanding, e.1 ∈ w.drawn
  formed : ∀ t ∈ w.drawn, isToken t = true

variable {maximum : Nat} {w w' : World}

theorem kept_initial (clock : Int) : Kept maximum (initial clock) where
  live _ _ := rfl
  bounded := Nat.zero_le _
  recorded _ h := absurd h List.not_mem_nil
  granted _ h := absurd h List.not_mem_nil
  formed _ h := absurd h List.not_mem_nil

/-- A request takes expired leases out at most, or is granted a token. -/
theorem acquire_cases {uuid : Text} (request : RpcAdmissionRequest) (now : Int)
    (fresh : uuid ∉ w.controller.record.map Prod.fst) :
    (∃ c', w.acquire uuid request now = { w with controller := c' } ∧
      Prunes now w.controller c') ∨
    ∃ c', (liveAt now w.controller.record).length < request.maxConcurrency ∧
      c'.record = liveAt now w.controller.record ++ [(uuid, now + request.leaseTtlMs)] ∧
      w.acquire uuid request now = { w with
        controller := c', drawn := w.drawn ++ [uuid]
        outstanding := w.outstanding ++ [(uuid, now + request.leaseTtlMs)] } := by
  unfold World.acquire
  cases valid : validateRequest request with
  | false =>
    rw [acquire_invalid valid]
    exact Or.inl ⟨w.controller, rfl, Prunes.rfl now w.controller⟩
  | true =>
    by_cases busy : request.maxConcurrency ≤ (liveAt now w.controller.record).length
    · obtain ⟨retry, c', refused, pruned⟩ := @acquire_refused _ uuid _ _ valid busy
      rw [refused]
      exact Or.inl ⟨c', rfl, pruned⟩
    · have free := lt_of_not_ge busy
      obtain ⟨c', granted, record⟩ := acquire_granted valid free fresh
      rw [granted]
      exact Or.inr ⟨c', free, record, rfl⟩

namespace Kept

theorem prunes (h : Kept maximum w) {now : Int} (early : now ≤ w.clock) {c : Controller}
    (pruned : Prunes now w.controller c) : Kept maximum { w with controller := c } where
  live time later := (pruned.live time (le_trans early later)).trans (h.live time later)
  bounded := le_trans pruned.fewer.length_le h.bounded
  recorded e he := h.recorded e (pruned.fewer.subset he)
  granted := h.granted
  formed := h.formed

/-- A new identifier is not in the record. -/
theorem fresh (h : Kept maximum w) {uuid : Text} (new : uuid ∉ w.drawn) :
    uuid ∉ w.controller.record.map Prod.fst := by
  intro there
  obtain ⟨e, he, same⟩ := List.mem_map.1 there
  exact new (same ▸ h.recorded e he)

theorem acquire (h : Kept maximum w) {uuid : Text} {request : RpcAdmissionRequest} {now : Int}
    (early : now ≤ w.clock) (formed : isToken uuid = true) (new : uuid ∉ w.drawn)
    (allowed : request.maxConcurrency ≤ maximum) :
    Kept maximum (w.acquire uuid request now) := by
  rcases acquire_cases request now (h.fresh new) with ⟨c', same, pruned⟩ | ⟨c', free, record, granted⟩
  · rw [same]
    exact h.prunes early pruned
  · have own : ∀ e ∈ [(uuid, now + request.leaseTtlMs)], e.1 ∈ w.drawn ++ [uuid] := by
      intro e he
      rw [List.mem_singleton.1 he]
      exact List.mem_append_right _ (List.mem_singleton_self uuid)
    rw [granted]
    refine ⟨fun time later => ?_, ?_, ?_, ?_, ?_⟩
    · show liveAt time c'.record = liveAt time (w.outstanding ++ _)
      rw [record, liveAt_append, liveAt_append, liveAt_liveAt (le_trans early later),
        h.live time later]
    · show c'.record.length ≤ maximum
      rw [record, List.length_append, List.length_singleton]
      omega
    · show ∀ e ∈ c'.record, _
      rw [record]
      refine List.forall_mem_append.2 ⟨fun e he => List.mem_append_left _ (h.recorded e ?_), own⟩
      exact List.mem_of_mem_filter he
    · exact List.forall_mem_append.2 ⟨fun e he => List.mem_append_left _ (h.granted e he), own⟩
    · refine List.forall_mem_append.2 ⟨h.formed, fun t ht => ?_⟩
      rw [List.mem_singleton.1 ht]
      exact formed

theorem release (h : Kept maximum w) {token : Text} {now : Int} (early : now ≤ w.clock) :
    Kept maximum (w.release token now) := by
  have granted : ∀ e ∈ w.outstanding.filter fun e => e.1 ≠ token, e.1 ∈ w.drawn :=
    fun e he => h.granted e (List.mem_of_mem_filter he)
  cases formed : isToken token with
  | true =>
    obtain ⟨fewer, live⟩ := @release_live w.controller token now formed
    refine ⟨fun time later => ?_, le_trans fewer.length_le h.bounded,
      fun e he => h.recorded e (fewer.subset he), granted, h.formed⟩
    show liveAt time (RpcAdmission.release w.controller token now).record =
      liveAt time (w.outstanding.filter fun e => e.1 ≠ token)
    rw [live time (le_trans early later), h.live time later, liveAt, liveAt, List.filter_comm]
  | false =>
    -- no granted token has this form
    have all : (w.outstanding.filter fun e => e.1 ≠ token) = w.outstanding := by
      refine List.filter_eq_self.2 fun e he => decide_eq_true ?_
      rintro rfl
      rw [h.formed _ (h.granted e he)] at formed
      cases formed
    unfold World.release
    rw [release_malformed formed, all]
    exact h

theorem step (h : Kept maximum w) {e : Event}
    (allowed : ∀ uuid request now, e = .acquire uuid request now →
      request.maxConcurrency ≤ maximum)
    (ran : step w e = some w') : Kept maximum w' := by
  cases e with
  | acquire uuid request now =>
    obtain ⟨⟨early, formed, new⟩, ran⟩ := Option.ite_none_right_eq_some.1 ran
    obtain rfl := Option.some.inj ran
    exact h.acquire early formed new (allowed uuid request now rfl)
  | release token now =>
    obtain ⟨early, ran⟩ := Option.ite_none_right_eq_some.1 ran
    obtain rfl := Option.some.inj ran
    exact h.release early
  | alarm now =>
    obtain ⟨early, ran⟩ := Option.ite_none_right_eq_some.1 ran
    obtain rfl := Option.some.inj ran
    exact h.prunes early (alarm_prunes w.controller now)
  | tick elapsed =>
    obtain rfl := Option.some.inj ran
    have later : w.clock ≤ w.clock + elapsed := by omega
    exact ⟨fun time h' => h.live time (le_trans later h'), h.bounded, h.recorded, h.granted,
      h.formed⟩

theorem run (h : Kept maximum w) {es : List Event}
    (allowed : ∀ uuid request now, Event.acquire uuid request now ∈ es →
      request.maxConcurrency ≤ maximum)
    (ran : run w es = some w') : Kept maximum w' := by
  induction es generalizing w with
  | nil =>
    rw [← Option.some.inj ran]
    exact h
  | cons e es ih =>
    obtain ⟨w₁, first, rest⟩ := Option.bind_eq_some_iff.1 ran
    refine ih (h.step (fun uuid request now same => allowed uuid request now ?_) first)
      (fun uuid request now mem => allowed uuid request now (List.mem_cons_of_mem e mem)) rest
    rw [same]
    exact List.mem_cons_self

/-- No more tokens are live than any request of the run allows. -/
theorem live_le (h : Kept maximum w) : w.live.length ≤ maximum := by
  rw [World.live, ← h.live w.clock le_rfl]
  exact le_trans (length_liveAt_le _ _) h.bounded

/-- When a token is granted, no more tokens are live than the request allows. -/
theorem granted_le (h : Kept maximum w) {uuid : Text} {request : RpcAdmissionRequest} {now : Int}
    (early : now ≤ w.clock) (new : uuid ∉ w.drawn)
    (drew : uuid ∈ (w.acquire uuid request now).drawn) :
    ((w.acquire uuid request now).live.length : Int) ≤ request.maxConcurrency := by
  rcases acquire_cases request now (h.fresh new) with ⟨c', same, -⟩ | ⟨c', free, -, granted⟩
  · rw [same] at drew
    exact absurd drew new
  · have before : (liveAt w.clock w.outstanding).length ≤ (liveAt now w.controller.record).length := by
      rw [← h.live w.clock le_rfl, ← liveAt_liveAt early]
      exact length_liveAt_le _ _
    have one := length_liveAt_le w.clock [(uuid, now + request.leaseTtlMs)]
    rw [List.length_singleton] at one
    rw [granted]
    show ((liveAt w.clock (w.outstanding ++ _)).length : Int) ≤ _
    rw [liveAt_append, List.length_append]
    omega

/-- A release of a token that is not live leaves all that is live now or later. -/
theorem release_dead (h : Kept maximum w) {token : Text} {now : Int} (early : now ≤ w.clock)
    (dead : ∀ e ∈ w.live, e.1 ≠ token) {time : Int} (later : w.clock ≤ time) :
    liveAt time (RpcAdmission.release w.controller token now).record =
      liveAt time w.controller.record := by
  cases formed : isToken token with
  | false => rw [release_malformed formed]
  | true =>
    rw [(release_live formed).2 time (le_trans early later)]
    refine List.filter_eq_self.2 fun e he => decide_eq_true (dead e ?_)
    rw [h.live time later, ← liveAt_liveAt later] at he
    exact List.mem_of_mem_filter he

end Kept

/-! ### The limits -/

/-- The slots of a semaphore: at most `slots` calls have one, and all are in use while a call
waits; a call that times out leaves them alone and never has one; a release hands its slot to one
call that had none, or frees it, and does nothing the second time. -/
structure SlotsKept (slots : Nat) (s : LocalSemaphore.Semaphore) : Prop where
  bounded : s.holders.length ≤ slots
  distinct : s.holders.Nodup
  counted : s.active = s.holders.length
  busy : s.waiters ≠ [] → s.holders.length = slots
  timeout : ∀ t ∈ s.timers,
    (LocalSemaphore.timeout s t).holders = s.holders ∧
    (LocalSemaphore.timeout s t).active = s.active ∧
    ∀ later s', LocalSemaphore.run slots (LocalSemaphore.timeout s t) later = some s' →
      t ∉ s'.waiters ∧ t ∉ s'.holders
  release : ∀ t ∈ s.holders,
    (∃ next rest, s.waiters = next :: rest ∧ next ∉ s.holders ∧
      LocalSemaphore.release s t = { s with
        waiters := rest, timers := rest, holders := s.holders.erase t ++ [next]
        released := s.released ++ [t] }) ∨
    (s.waiters = [] ∧ LocalSemaphore.release s t = { s with
      active := s.active - 1, holders := s.holders.erase t, released := s.released ++ [t] })
  twice : ∀ t ∈ s.released, LocalSemaphore.release s t = s

/-- The tokens of a controller: no more are live than `maximum`, nor than a request allows that is
granted one; a release of a token that is not live, because it was released or has expired, leaves
what is live now and later, and the whole state unless an expired lease is still stored. -/
structure TokensKept (maximum : Nat) (w : World) : Prop where
  bounded : w.live.length ≤ maximum
  granted : ∀ uuid request now, now ≤ w.clock → uuid ∉ w.drawn →
    uuid ∈ (w.acquire uuid request now).drawn →
      ((w.acquire uuid request now).live.length : Int) ≤ request.maxConcurrency
  release : ∀ token now, now ≤ w.clock → (∀ e ∈ w.live, e.1 ≠ token) →
    (w.release token now).live = w.live ∧
    (∀ time, w.clock ≤ time → liveAt time (w.release token now).controller.record =
      liveAt time w.controller.record) ∧
    ((∀ e ∈ w.controller.record, w.clock < e.2) →
      (w.release token now).controller = w.controller)

theorem slotsKept {slots : Nat} {s : LocalSemaphore.Semaphore}
    (sound : LocalSemaphore.Sound slots s) : SlotsKept slots s where
  bounded := sound.bounded
  distinct := sound.nodup_holders
  counted := sound.counted
  busy := sound.full
  timeout t armed := by
    have alone := LocalSemaphore.timeout_eq sound armed
    refine ⟨?_, ?_, fun later s' ran => LocalSemaphore.rejected_forever sound armed ran⟩
    · rw [alone]
    · rw [alone]
  release t holds := by
    rcases LocalSemaphore.release_holder sound holds with ⟨next, rest, queue, released⟩ | freed
    · refine Or.inl ⟨next, rest, queue, fun there => ?_, released⟩
      exact sound.not_settled (queue ▸ List.mem_cons_self) (Or.inl there)
    · exact Or.inr freed
  twice t done := if_pos done

theorem tokensKept (kept : Kept maximum w) : TokensKept maximum w where
  bounded := kept.live_le
  granted uuid request now early new drew := kept.granted_le early new drew
  release token now early dead := by
    refine ⟨?_, fun time later => kept.release_dead early dead later, fun current => ?_⟩
    · show liveAt w.clock (w.outstanding.filter fun e => e.1 ≠ token) = w.live
      rw [liveAt, List.filter_comm]
      exact List.filter_eq_self.2 fun e he => decide_eq_true (dead e he)
    · refine release_eq_self (fun e he => lt_of_le_of_lt early (current e he)) fun e he => ?_
      refine dead e ?_
      rw [World.live, ← kept.live w.clock le_rfl, liveAt_eq_self current]
      exact he

/-- Every run of a semaphore keeps its slots, and every run of a controller its tokens, for any
bound on what the requests of the run allow. -/
theorem admission_limits {slots : Nat} {calls : List LocalSemaphore.Event}
    {s : LocalSemaphore.Semaphore}
    (local_ : LocalSemaphore.run slots LocalSemaphore.initial calls = some s)
    {start : Int} {events : List Event}
    (allowed : ∀ uuid request now, Event.acquire uuid request now ∈ events →
      request.maxConcurrency ≤ maximum)
    (shared : run (initial start) events = some w) :
    SlotsKept slots s ∧ TokensKept maximum w :=
  ⟨slotsKept (LocalSemaphore.run_sound local_), tokensKept ((kept_initial start).run allowed shared)⟩

/-! #### A run of each -/

/-- With one slot, the second call times out and the first hands its slot to the third. -/
def calls : List LocalSemaphore.Event :=
  [.acquire, .acquire, .acquire, .timeout 1, .release 0]

def uuidOf (c : Char) : Text := List.replicate 36 c

def oneAtATime : RpcAdmissionRequest := ⟨1, 1000⟩

/-- A lease expires, the next is released twice. -/
def events : List Event :=
  [.acquire (uuidOf 'a') oneAtATime 0, .acquire (uuidOf 'b') oneAtATime 0, .tick 1000,
    .acquire (uuidOf 'b') oneAtATime 1000, .release (uuidOf 'a') 1000, .release (uuidOf 'b') 1000,
    .release (uuidOf 'b') 1000, .acquire (uuidOf 'c') oneAtATime 900]

theorem allowed_events : ∀ uuid request now, Event.acquire uuid request now ∈ events →
    request.maxConcurrency ≤ (1 : Nat) := by
  intro uuid request now mem
  simp only [events, List.mem_cons, Event.acquire.injEq, List.not_mem_nil, reduceCtorEq, or_false,
    false_or] at mem
  rcases mem with ⟨-, rfl, -⟩ | ⟨-, rfl, -⟩ | ⟨-, rfl, -⟩ | ⟨-, rfl, -⟩
  all_goals decide

theorem limits_of_runs :
    ∃ s w, LocalSemaphore.run 1 LocalSemaphore.initial calls = some s ∧ s.holders = [2] ∧
      run (initial 0) events = some w ∧ w.drawn = [uuidOf 'a', uuidOf 'b', uuidOf 'c'] ∧
      SlotsKept 1 s ∧ TokensKept 1 w := by
  obtain ⟨w, shared, drawn⟩ : ∃ w, run (initial 0) events = some w ∧
      w.drawn = [uuidOf 'a', uuidOf 'b', uuidOf 'c'] := ⟨_, rfl, by decide⟩
  have local_ : LocalSemaphore.run 1 LocalSemaphore.initial calls =
    some ⟨1, [], [], [2], [0], [1], 3⟩ := by decide
  exact ⟨_, w, local_, rfl, shared, drawn, admission_limits local_ allowed_events shared⟩

end ParmeliaLinks.Server.RpcAdmission
