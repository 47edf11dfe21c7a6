/-
ParmeliaLinks/Server/AddressMirror.lean

The addresses that a webhook of the provider watches.  The provider keeps a set of its
own, which the server cannot read for each change, so it keeps a mirror of it in
`provider_subscription_items`.  A first series of runs reads the set of the provider page
by page; from then on a run asks for the difference between the wallets of the shards and
the mirror, sends it to the provider, and writes it into the mirror.

A run may be killed between the last two, or not learn that the provider has taken the
difference.  Then mirror and set differ, and the next run sees the mirror alone: it makes
up for an address if that is still assigned as it was, and never again if it is not
(`Repairable`).
-/
import Mathlib.Data.Finset.Sort
import ParmeliaLinks.Lib.Delivery
import ParmeliaLinks.Lib.Serial
import ParmeliaLinks.Server.Schema

namespace ParmeliaLinks.Server.Mirror

abbrev Cursor := Nat

/-! ### The world -/

/-- `indexer_wallet_assignments`, of one chain and stream. -/
structure Assignment where
  accountAddress : Address
  shardId : Nat
  active : Bool
  deriving DecidableEq

inductive Phase | scanning | ready
  deriving DecidableEq

/-- `provider_subscription_sync_state`, of one subscription. -/
structure SubscriptionSyncState where
  phase : Phase
  nextCursor : Option Cursor
  scannedCount : Nat
  deriving DecidableEq

inductive ProviderStatus | pending | synced | failed
  deriving DecidableEq

/-- `provider_subscription_state`, of one subscription. -/
structure ProviderState where
  itemCount : Nat
  status : ProviderStatus
  lastErrorCode : Option String
  deriving DecidableEq

/-- The tables, the subscription's items among them, and the set of the provider. -/
structure World where
  assignments : List Assignment
  items : Finset Address
  syncState : Option SubscriptionSyncState
  providerState : Option ProviderState
  remote : Finset Address

/-- How the provider lists a set: a page for each cursor, and the cursor of the next.  What
`rest` says is listed from a cursor on is what the pages from there on hold. -/
structure Pager where
  page : Finset Address → Option Cursor → List Address × Option Cursor
  rest : Finset Address → Option Cursor → Finset Address
  rest_start : ∀ set, rest set none = set
  page_subset : ∀ set after, (page set after).1.toFinset ⊆ set
  rest_subset : ∀ set after, rest set after ⊆ (page set after).1.toFinset ∪
    match (page set after).2 with
    | some next => if some next = after then ∅ else rest set (some next)
    | none => ∅

structure Env where
  alchemyWebhookEnabled : Bool
  -- the webhook of the slot and the token are configured
  configured : Bool
  slot : Nat
  pager : Pager

def alchemyShardsPerWebhook : Nat := 200

def maxTrackedAddresses : Nat := 100000

def patchChunkSize : Nat := 500

def bootstrapPagesPerJob : Nat := 5

/-- The addresses that are assigned to a shard of the slot. -/
def assignedTo (slot : Nat) (assignments : List Assignment) : Finset Address :=
  ((assignments.filter fun a => a.active &&
    decide (slot * alchemyShardsPerWebhook ≤ a.shardId) &&
    decide (a.shardId < slot * alchemyShardsPerWebhook + alchemyShardsPerWebhook)).map
      (·.accountAddress)).toFinset

/-! ### Operations -/

inductive SyncOp
  | insertSyncState
  | selectSyncState
  | readPage (after : Option Cursor)
  | commitPage (addresses : List Address) (state : SubscriptionSyncState)
  | selectAdditions
  | selectRemovals
  | patch (add remove : List Address)
  | updateItems (add remove : List Address)
  | countItems
  | writeProviderState (state : ProviderState)

abbrev SyncOp.Reply : SyncOp → Type
  | .selectSyncState => Except String (Option SubscriptionSyncState)
  | .readPage _ => Except String (List Address × Option Cursor)
  | .selectAdditions => Except String (List Address)
  | .selectRemovals => Except String (List Address)
  | .countItems => Except String Nat
  | _ => Except String Unit

/-- The addresses of a set, in order. -/
def sorted (set : Finset Address) : List Address :=
  Quot.liftOn set.val (List.insertionSort (· ≤ ·)) fun l l' same =>
    have perm := (List.perm_insertionSort (· ≤ ·) l).trans
      (same.trans (List.perm_insertionSort (· ≤ ·) l').symm)
    perm.eq_of_pairwise' (List.pairwise_insertionSort _ l) (List.pairwise_insertionSort _ l')

/-- The first addresses of a set. -/
def firstOf (set : Finset Address) : List Address := (sorted set).take patchChunkSize

/-- Addresses in, others out. -/
def patched (set : Finset Address) (add remove : List Address) : Finset Address :=
  (set ∪ add.toFinset) \ remove.toFinset

def SyncOp.exec (env : Env) : (o : SyncOp) → Delivery → World → o.Reply × World
  | .insertSyncState, x, w =>
    x.deliver w ((), { w with syncState := some (w.syncState.getD ⟨.scanning, none, 0⟩) })
  | .selectSyncState, x, w => x.deliver w (w.syncState, w)
  | .readPage after, x, w => x.deliver w (env.pager.page w.remote after, w)
  | .commitPage addresses state, x, w =>
    x.deliver w ((), { w with items := w.items ∪ addresses.toFinset, syncState := some state })
  | .selectAdditions, x, w => x.deliver w (firstOf (assignedTo env.slot w.assignments \ w.items), w)
  | .selectRemovals, x, w => x.deliver w (firstOf (w.items \ assignedTo env.slot w.assignments), w)
  | .patch add remove, x, w => x.deliver w ((), { w with remote := patched w.remote add remove })
  | .updateItems add remove, x, w =>
    x.deliver w ((), { w with items := patched w.items add remove })
  | .countItems, x, w => x.deliver w (w.items.card, w)
  | .writeProviderState state, x, w => x.deliver w ((), { w with providerState := some state })

/-! ### A run -/

abbrev Handler := Prog SyncOp SyncOp.Reply

/-- An operation, whose error is thrown. -/
def tryOp {α : Type} (o : SyncOp) (reply : o.Reply = Except String α) : Handler α :=
  .act o fun r => Prog.ofExcept (cast reply r)

inductive SyncPhase | bootstrap | reconcile
  deriving DecidableEq

structure AlchemyAddressSyncResult where
  phase : SyncPhase
  changed : Nat
  remaining : Bool
  deriving DecidableEq

def getOrCreateSyncState : Handler SubscriptionSyncState := do
  tryOp .insertSyncState rfl
  match ← tryOp .selectSyncState rfl with
  | none => throw "Provider subscription sync state is missing"
  | some state => return state

/-- Addresses without repetition, in order. -/
def normalizeAddressSet (values : List Address) : List Address := sorted values.toFinset

/-- A page of the provider; a cursor that leads back to itself is no next one. -/
def readRemoteAddressPage (after : Option Cursor) : Handler (List Address × Option Cursor) := do
  let (addresses, next) ← tryOp (.readPage after) rfl
  return (normalizeAddressSet addresses, if next = after then none else next)

/-- The pages of one run. -/
def bootstrapRemoteMirror : Nat → SubscriptionSyncState → Handler SubscriptionSyncState
  | 0, state => return state
  | pages + 1, state => do
    if state.phase = .scanning then
      let (addresses, nextCursor) ← readRemoteAddressPage state.nextCursor
      let scannedCount := state.scannedCount + addresses.length
      if maxTrackedAddresses < scannedCount then
        throw "Alchemy webhook address capacity exceeded"
      let state : SubscriptionSyncState :=
        { phase := if nextCursor = none then .ready else .scanning, nextCursor, scannedCount }
      tryOp (.commitPage addresses state) rfl
      bootstrapRemoteMirror pages state
    else return state

def listAddressMutations : Handler (List Address × List Address) := do
  let additions ← tryOp .selectAdditions rfl
  let removals ← tryOp .selectRemovals rfl
  return (normalizeAddressSet additions, normalizeAddressSet removals)

def patchRemoteAddresses (add remove : List Address) : Handler Unit :=
  if add = [] ∧ remove = [] then return ()
  else if patchChunkSize < add.length ∨ patchChunkSize < remove.length then
    throw "Alchemy address patch exceeds its bounded chunk"
  else tryOp (.patch add remove) rfl

def updateLocalMirror (add remove : List Address) : Handler Unit :=
  if add = [] ∧ remove = [] then return ()
  else tryOp (.updateItems add remove) rfl

/-- The difference between the wallets and the mirror, sent and written down. -/
def reconcile : Handler AlchemyAddressSyncResult := do
  let (add, remove) ← listAddressMutations
  patchRemoteAddresses add remove
  updateLocalMirror add remove
  let itemCount ← tryOp .countItems rfl
  let remaining := add.length == patchChunkSize || remove.length == patchChunkSize
  tryOp (.writeProviderState
    { itemCount, status := if remaining then .pending else .synced, lastErrorCode := none }) rfl
  return { phase := .reconcile, changed := add.length + remove.length, remaining }

/-- The body of the `try`. -/
def synchronize : Handler AlchemyAddressSyncResult := do
  let initialState ← getOrCreateSyncState
  let state ← bootstrapRemoteMirror bootstrapPagesPerJob initialState
  if state.phase = .scanning then
    tryOp (.writeProviderState
      { itemCount := state.scannedCount, status := .pending, lastErrorCode := none }) rfl
    return { phase := .bootstrap, changed := 0, remaining := true }
  reconcile

/-- What a failed run leaves behind. -/
def recordFailure (message : String) : Handler AlchemyAddressSyncResult := do
  let itemCount ← Prog.tryCatch (tryOp .countItems rfl) fun _ => return 0
  tryOp (.writeProviderState
    { itemCount, status := .failed, lastErrorCode := some "ALCHEMY_ADDRESS_SYNC_FAILED" }) rfl
  throw message

def syncAlchemyWebhookAddresses (env : Env) : Handler AlchemyAddressSyncResult :=
  if env.alchemyWebhookEnabled then
    if env.configured then synchronize.tryCatch recordFailure
    else throw "Alchemy webhook address sync is not configured"
  else return { phase := .reconcile, changed := 0, remaining := false }

/-- Runs one at a time, while wallets are assigned and taken away. -/
def mirror (env : Env) :
    Serial SyncOp SyncOp.Reply World Delivery (List Assignment) AlchemyAddressSyncResult where
  exec := SyncOp.exec env
  env assignments w := { w with assignments }
  body := syncAlchemyWebhookAddresses env

/-! ### What a run keeps -/

section Rules

/-- Of the moves of the surroundings: assignments alone change, and stay among the given
ones if they are. -/
structure Moves (P : List Assignment → Prop) (w w' : World) : Prop where
  same : w' = { w with assignments := w'.assignments }
  among : P w.assignments → P w'.assignments

/-- The mirror is empty before the first page, and holds the pages so far until the last. -/
def Bootstrapped (pager : Pager) (w : World) : Prop :=
  match w.syncState with
  | none => w.items = ∅
  | some state => state.phase = .scanning →
    w.items ⊆ w.remote ∧ w.remote ⊆ w.items ∪ pager.rest w.remote state.nextCursor

/-- The invariant of the runs. -/
structure Inv (env : Env) (P : List Assignment → Prop) (w : World) : Prop where
  bootstrapped : Bootstrapped env.pager w
  among : P w.assignments

variable {env : Env} {P : List Assignment → Prop} {w w' : World}

theorem Moves.refl (P : List Assignment → Prop) (w : World) : Moves P w w := ⟨rfl, fun h => h⟩

theorem Moves.trans {w'' : World} (h : Moves P w w') (h' : Moves P w' w'') : Moves P w w'' := by
  refine ⟨?_, fun a => h'.among (h.among a)⟩
  rw [h'.same, h.same]

theorem Moves.inv (h : Moves P w w') (inv : Inv env P w) : Inv env P w' := by
  refine ⟨?_, h.among inv.among⟩
  rw [h.same]
  exact inv.bootstrapped

theorem sorted_eq_sort (set : Finset Address) : sorted set = set.sort (· ≤ ·) := by
  rcases set with ⟨⟨l⟩, distinct⟩
  exact (List.mergeSort_eq_insertionSort (· ≤ ·) l).symm

@[simp] theorem toFinset_sorted (set : Finset Address) : (sorted set).toFinset = set := by
  rw [sorted_eq_sort, Finset.sort_toFinset]

/-- An error is no result. -/
theorem error_ne_ok {α : Type} {m : String} {Q : α → Prop} (a : α)
    (h : (Except.error m : Except String α) = .ok a) : Q a := by
  cases h

/-- The rule of a statement or a request, which may fail with its effect or without. -/
theorem wp_tryOp {α : Type} {o : SyncOp} {reply : o.Reply = Except String α}
    {f : World → α × World} {Q : Except String α → World → Prop}
    (is : ∀ x w, (cast reply (SyncOp.exec env o x w).1, (SyncOp.exec env o x w).2) =
      x.deliver w (f w))
    (rule : ∀ w', Moves P w w' → Inv env P w' ∧ Inv env P (f w').2 ∧
      Q (.ok (f w').1) (f w').2 ∧ ∀ m, Q (.error m) w' ∧ Q (.error m) (f w').2) :
    (mirror env).wp (Moves P) (Inv env P) (tryOp o reply) Q w := by
  refine Serial.wp_act fun w' moved x => ?_
  obtain ⟨inv, inv', ok, error⟩ := rule w' moved
  have answer := congrArg Prod.fst (is x w')
  have world := congrArg Prod.snd (is x w')
  show Inv env P (SyncOp.exec env o x w').2 ∧
    (mirror env).wp _ _ (Prog.ofExcept (cast reply (SyncOp.exec env o x w').1)) Q
      (SyncOp.exec env o x w').2
  rw [show cast reply (SyncOp.exec env o x w').1 = _ from answer,
    show (SyncOp.exec env o x w').2 = _ from world]
  cases x with
  | done => exact ⟨inv', Serial.wp_ofExcept ok⟩
  | lost m => exact ⟨inv, Serial.wp_ofExcept (error m).1⟩
  | unacknowledged m => exact ⟨inv', Serial.wp_ofExcept (error m).2⟩

theorem Bootstrapped.of_ready {pager : Pager} {state : SubscriptionSyncState}
    (is : w.syncState = some state) (ready : state.phase = .ready) : Bootstrapped pager w := by
  rw [Bootstrapped, is]
  intro scanning
  rw [ready] at scanning
  cases scanning

/-- The state of the scan: there is a row afterwards, and nothing else changes. -/
theorem wp_getOrCreateSyncState (inv : Inv env P w) :
    (mirror env).wp (Moves P) (Inv env P) getOrCreateSyncState
      (fun r w' => Inv env P w' ∧ ∀ state, r = .ok state →
        w'.syncState = some state ∧ state = w.syncState.getD ⟨.scanning, none, 0⟩ ∧
        w'.items = w.items ∧ w'.remote = w.remote) w := by
  have inserted : ∀ v, Inv env P v →
      Inv env P { v with syncState := some (v.syncState.getD ⟨.scanning, none, 0⟩) } := by
    rintro v ⟨booted, among⟩
    refine ⟨?_, among⟩
    rw [Bootstrapped] at booted ⊢
    cases is : v.syncState with
    | some state => rwa [is] at booted
    | none =>
      -- the scan begins with an empty mirror and the whole set before it
      rw [is] at booted
      intro _
      show v.items ⊆ v.remote ∧ v.remote ⊆ v.items ∪ env.pager.rest v.remote none
      rw [show v.items = ∅ from booted, env.pager.rest_start, Finset.empty_union]
      exact ⟨Finset.empty_subset _, Finset.Subset.refl _⟩
  refine Serial.wp_bind (R := fun r w' => Inv env P w' ∧ ∀ u, r = .ok u →
    w' = { w with syncState := some (w.syncState.getD ⟨.scanning, none, 0⟩),
                  assignments := w'.assignments }) ?_ ?_ ?_
  · refine wp_tryOp (f := fun v => ((),
      { v with syncState := some (v.syncState.getD ⟨.scanning, none, 0⟩) }))
      (fun _ _ => rfl) fun v moved => ?_
    have inv' := moved.inv inv
    refine ⟨inv', inserted v inv', ⟨inserted v inv', fun _ _ => ?_⟩,
      fun m => ⟨⟨inv', error_ne_ok⟩, inserted v inv', error_ne_ok⟩⟩
    rw [moved.same]
  · rintro ⟨⟩ v ⟨inv', is⟩
    refine Serial.wp_bind (R := fun r w' => Inv env P w' ∧ w'.items = w.items ∧
      w'.remote = w.remote ∧ ∀ row, r = .ok row → row = w'.syncState ∧
        row = some (w.syncState.getD ⟨.scanning, none, 0⟩)) ?_ ?_ ?_
    · refine wp_tryOp (f := fun u => (u.syncState, u)) (fun _ _ => rfl) fun u moved => ?_
      have inv'' := moved.inv inv'
      have items : u.items = w.items := by rw [moved.same, is () rfl]
      have remote : u.remote = w.remote := by rw [moved.same, is () rfl]
      refine ⟨inv'', inv'', ⟨inv'', items, remote, fun row found => ?_⟩,
        fun m => ⟨⟨inv'', items, remote, error_ne_ok⟩, inv'', items, remote, error_ne_ok⟩⟩
      cases found
      refine ⟨rfl, ?_⟩
      show u.syncState = _
      rw [moved.same, is () rfl]
    · rintro row u ⟨inv'', items, remote, found⟩
      obtain ⟨now, started⟩ := found row rfl
      subst started
      refine ⟨inv'', fun state known => ?_⟩
      cases known
      exact ⟨now.symm, rfl, items, remote⟩
    · rintro m u ⟨inv'', -⟩
      exact ⟨inv'', error_ne_ok⟩
  · rintro m v ⟨inv', -⟩
    exact ⟨inv', error_ne_ok⟩

/-- A page of the set is read. -/
theorem wp_readRemoteAddressPage (after : Option Cursor) (inv : Inv env P w) :
    (mirror env).wp (Moves P) (Inv env P) (readRemoteAddressPage after)
      (fun r w' => Moves P w w' ∧ ∀ page, r = .ok page →
        page = (normalizeAddressSet (env.pager.page w.remote after).1,
          if (env.pager.page w.remote after).2 = after then none
          else (env.pager.page w.remote after).2)) w := by
  refine Serial.wp_bind (R := fun r w' => Moves P w w' ∧ ∀ page, r = .ok page →
    page = env.pager.page w.remote after) ?_ ?_ ?_
  · refine wp_tryOp (f := fun v => (env.pager.page v.remote after, v)) (fun _ _ => rfl)
      fun v moved => ?_
    have inv' := moved.inv inv
    refine ⟨inv', inv', ⟨moved, fun page is => ?_⟩,
      fun m => ⟨⟨moved, error_ne_ok⟩, moved, error_ne_ok⟩⟩
    cases is
    show env.pager.page v.remote after = _
    rw [moved.same]
  · rintro page v ⟨moved, is⟩
    refine ⟨moved, fun page' is' => ?_⟩
    rw [is page rfl] at is'
    cases is'
    rfl
  · rintro m v ⟨moved, -⟩
    exact ⟨moved, error_ne_ok⟩

/-- A page more: the mirror stays in the set, holds it after the last page, and before that
holds what is not listed from the next cursor on. -/
theorem Pager.covered_page (pager : Pager) {items remote : Finset Address}
    {after next : Option Cursor} {addresses : List Address} (sound : items ⊆ remote)
    (complete : remote ⊆ items ∪ pager.rest remote after)
    (listed : pager.page remote after = (addresses, next)) :
    items ∪ addresses.toFinset ⊆ remote ∧
    ((if next = after then none else next) = none → items ∪ addresses.toFinset = remote) ∧
    ((if next = after then none else next) ≠ none → remote ⊆ items ∪ addresses.toFinset ∪
      pager.rest remote (if next = after then none else next)) := by
  have subset := pager.page_subset remote after
  have covered := pager.rest_subset remote after
  rw [listed] at subset covered
  have inside : items ∪ addresses.toFinset ⊆ remote := Finset.union_subset sound subset
  have reach := complete.trans (Finset.union_subset_union_right covered)
  rw [← Finset.union_assoc] at reach
  cases next with
  | none =>
    refine ⟨inside, fun _ => inside.antisymm ?_, fun some => absurd ?_ some⟩
    · rwa [Finset.union_empty] at reach
    · rw [ite_self]
  | some next =>
    dsimp only at reach
    by_cases same : some next = after
    · -- a cursor that leads back to itself: nothing is listed after the page
      rw [if_pos same, Finset.union_empty] at reach
      rw [if_pos same]
      exact ⟨inside, fun _ => inside.antisymm reach, fun some => absurd rfl some⟩
    · rw [if_neg same] at reach ⊢
      exact ⟨inside, fun none => absurd none (Option.some_ne_none _), fun _ => reach⟩

/-- A page is written into the mirror, with the state after it. -/
theorem wp_commitPage {addresses : List Address} {state : SubscriptionSyncState}
    (inv : Inv env P w) (kept : state.phase = .scanning →
      w.items ∪ addresses.toFinset ⊆ w.remote ∧
      w.remote ⊆ w.items ∪ addresses.toFinset ∪ env.pager.rest w.remote state.nextCursor) :
    (mirror env).wp (Moves P) (Inv env P) (tryOp (.commitPage addresses state) rfl)
      (fun r w' => Inv env P w' ∧ ∀ u : Unit, r = .ok u → w'.syncState = some state ∧
        w'.remote = w.remote ∧ w'.items = w.items ∪ addresses.toFinset) w := by
  refine wp_tryOp (f := fun v => ((),
    { v with items := v.items ∪ addresses.toFinset, syncState := some state }))
    (fun _ _ => rfl) fun v moved => ?_
  have inv' := moved.inv inv
  have items : v.items = w.items := by rw [moved.same]
  have remote : v.remote = w.remote := by rw [moved.same]
  have committed : Inv env P
      { v with items := v.items ∪ addresses.toFinset, syncState := some state } := by
    refine ⟨fun scanning => ?_, inv'.among⟩
    show v.items ∪ addresses.toFinset ⊆ v.remote ∧
      v.remote ⊆ v.items ∪ addresses.toFinset ∪ env.pager.rest v.remote state.nextCursor
    rw [items, remote]
    exact kept scanning
  refine ⟨inv', committed, ⟨committed, fun _ _ => ⟨rfl, remote, ?_⟩⟩,
    fun m => ⟨⟨inv', error_ne_ok⟩, committed, error_ne_ok⟩⟩
  rw [items]

/-- The pages of one run.  Once the last is read the mirror is the set; a scan that is over
changes neither. -/
theorem wp_bootstrapRemoteMirror (pages : Nat) {state : SubscriptionSyncState}
    (inv : Inv env P w) (is : w.syncState = some state) :
    (mirror env).wp (Moves P) (Inv env P) (bootstrapRemoteMirror pages state)
      (fun r w' => Inv env P w' ∧ ∀ state', r = .ok state' →
        w'.syncState = some state' ∧ w'.remote = w.remote ∧
        (state.phase = .ready → state' = state ∧ w'.items = w.items) ∧
        (state.phase = .scanning → state'.phase = .ready → w'.items = w.remote)) w := by
  induction pages generalizing state w with
  | zero =>
    refine ⟨inv, fun state' same => ?_⟩
    cases same
    refine ⟨is, rfl, fun _ => ⟨rfl, rfl⟩, fun scanning ready => ?_⟩
    rw [scanning] at ready
    cases ready
  | succ pages ih =>
    show (mirror env).wp _ _ (if state.phase = .scanning then _ else _) _ w
    split
    · rename_i scanning
      have booted := inv.bootstrapped
      rw [Bootstrapped, is] at booted
      obtain ⟨sound, complete⟩ := booted scanning
      refine Serial.wp_bind (wp_readRemoteAddressPage state.nextCursor inv) ?_ ?_
      · rintro page v ⟨moved, found⟩
        have inv' := moved.inv inv
        rw [found page rfl]
        generalize listed : env.pager.page w.remote state.nextCursor = answer
        obtain ⟨addresses, next⟩ := answer
        obtain ⟨inside, last, more⟩ := env.pager.covered_page sound complete listed
        have normal : (normalizeAddressSet addresses).toFinset = addresses.toFinset :=
          toFinset_sorted addresses.toFinset
        show (mirror env).wp _ _ (if _ then _ else _) _ v
        split
        · exact ⟨inv', error_ne_ok⟩
        · generalize (if next = state.nextCursor then none else next) = cursor at last more ⊢
          generalize hs : (⟨if cursor = none then .ready else .scanning, cursor, _⟩ :
            SubscriptionSyncState) = state₁
          refine Serial.wp_bind (wp_commitPage inv' fun again => ?_) ?_ ?_
          · rw [moved.same]
            show w.items ∪ _ ⊆ w.remote ∧ _
            rw [normal]
            refine ⟨inside, ?_⟩
            rw [← hs] at again ⊢
            refine more fun done => ?_
            rw [if_pos done] at again
            cases again
          · rintro ⟨⟩ u ⟨kept, wrote⟩
            obtain ⟨now, remote, items⟩ := wrote () rfl
            rw [moved.same] at remote items
            refine Serial.wp_mono (ih kept now) fun r u' result => ⟨result.1, fun state' same => ?_⟩
            obtain ⟨now', remote', ready, scanned⟩ := result.2 state' same
            refine ⟨now', remote'.trans remote, fun ended => ?_, fun _ done => ?_⟩
            · rw [scanning] at ended
              cases ended
            · cases e : state₁.phase with
              | scanning => rw [scanned e done, remote]
              | ready =>
                rw [(ready e).2, items, normal]
                refine last ?_
                by_contra some
                rw [← hs, if_neg some] at e
                cases e
          · rintro m u ⟨kept, -⟩
            exact ⟨kept, error_ne_ok⟩
      · rintro m v ⟨moved, -⟩
        exact ⟨moved.inv inv, error_ne_ok⟩
    · rename_i ended
      refine ⟨inv, fun state' same => ?_⟩
      cases same
      exact ⟨is, rfl, fun _ => ⟨rfl, rfl⟩, fun scanning => absurd scanning ended⟩

/-! ### The difference -/

/-- The scan is over. -/
def Ready (w : World) : Prop := w.syncState.map (·.phase) = some .ready

/-- The last run that wrote its state left nothing to do. -/
def Synced (w : World) : Prop := w.providerState.map (·.status) = some .synced

/-- Where the differences between assigned addresses and a mirror lead a set. -/
def reconciled (remote mirror assigned assigned' : Finset Address) : Finset Address :=
  (remote ∪ (assigned \ mirror)) \ (mirror \ assigned')

theorem ready_iff : Ready w ↔ (w.syncState.getD ⟨.scanning, none, 0⟩).phase = .ready := by
  rw [Ready]
  cases w.syncState with
  | none => exact ⟨fun h => (Option.some_ne_none _ h.symm).elim, fun h => by cases h⟩
  | some state => exact Option.some_inj

theorem ready_of_not_scanning {phase : Phase} (h : phase ≠ .scanning) : phase = .ready := by
  cases phase with
  | scanning => exact absurd rfl h
  | ready => rfl

theorem scanning_of_not_ready {phase : Phase} (h : phase ≠ .ready) : phase = .scanning := by
  cases phase with
  | scanning => rfl
  | ready => exact absurd rfl h

theorem Ready.inv (ready : Ready w) (among : P w.assignments) : Inv env P w := by
  refine ⟨?_, among⟩
  cases is : w.syncState with
  | none =>
    rw [Ready, is] at ready
    cases ready
  | some state =>
    rw [Ready, is] at ready
    exact .of_ready is (Option.some.inj ready)

theorem Moves.ready (h : Moves P w w') (ready : Ready w) : Ready w' := by
  rw [Ready, h.same]
  exact ready

/-- A difference shorter than a chunk is the whole difference. -/
theorem normalize_firstOf (set : Finset Address)
    (short : (normalizeAddressSet (firstOf set)).length ≠ patchChunkSize) :
    (normalizeAddressSet (firstOf set)).toFinset = set := by
  rw [normalizeAddressSet, toFinset_sorted, firstOf, List.take_of_length_le, toFinset_sorted]
  by_contra long
  refine short ?_
  have distinct : (firstOf set).Nodup := by
    rw [firstOf, sorted_eq_sort]
    exact (Finset.sort_nodup set (· ≤ ·)).sublist (List.take_sublist _ _)
  rw [normalizeAddressSet, sorted_eq_sort, Finset.length_sort,
    List.toFinset_card_of_nodup distinct, firstOf, List.length_take]
  omega

/-- The two halves of the difference, each against the assignments of its moment. -/
theorem wp_listAddressMutations (ready : Ready w) (among : P w.assignments) :
    (mirror env).wp (Moves P) (Inv env P) listAddressMutations
      (fun r w' => Moves P w w' ∧ ∀ changes, r = .ok changes → ∃ a a', P a ∧ P a' ∧
        changes = (normalizeAddressSet (firstOf (assignedTo env.slot a \ w.items)),
          normalizeAddressSet (firstOf (w.items \ assignedTo env.slot a')))) w := by
  refine Serial.wp_bind (R := fun r w' => Moves P w w' ∧ ∀ additions, r = .ok additions →
    ∃ a, P a ∧ additions = firstOf (assignedTo env.slot a \ w.items)) ?_ ?_ ?_
  · refine wp_tryOp (f := fun v => (firstOf (assignedTo env.slot v.assignments \ v.items), v))
      (fun _ _ => rfl) fun v moved => ?_
    have inv : Inv env P v := (moved.ready ready).inv (moved.among among)
    refine ⟨inv, inv, ⟨moved, fun additions is => ⟨v.assignments, moved.among among, ?_⟩⟩,
      fun m => ⟨⟨moved, error_ne_ok⟩, moved, error_ne_ok⟩⟩
    cases is
    show firstOf (_ \ v.items) = _
    rw [show v.items = w.items by rw [moved.same]]
  · rintro additions v ⟨moved, found⟩
    obtain ⟨a, ha, rfl⟩ := found additions rfl
    refine Serial.wp_bind (R := fun r w' => Moves P w w' ∧ ∀ removals, r = .ok removals →
      ∃ a, P a ∧ removals = firstOf (w.items \ assignedTo env.slot a)) ?_ ?_ ?_
    · refine wp_tryOp (f := fun u => (firstOf (u.items \ assignedTo env.slot u.assignments), u))
        (fun _ _ => rfl) fun u later => ?_
      have both := moved.trans later
      have inv : Inv env P u := (both.ready ready).inv (both.among among)
      refine ⟨inv, inv, ⟨both, fun removals is => ⟨u.assignments, both.among among, ?_⟩⟩,
        fun m => ⟨⟨both, error_ne_ok⟩, both, error_ne_ok⟩⟩
      cases is
      show firstOf (u.items \ _) = _
      rw [show u.items = w.items by rw [both.same]]
    · rintro removals u ⟨both, found'⟩
      obtain ⟨a', ha', rfl⟩ := found' removals rfl
      refine ⟨both, fun changes is => ⟨a, a', ha, ha', ?_⟩⟩
      cases is
      rfl
    · rintro m u ⟨both, -⟩
      exact ⟨both, error_ne_ok⟩
  · rintro m v ⟨moved, -⟩
    exact ⟨moved, error_ne_ok⟩

theorem patched_nil (set : Finset Address) : patched set [] [] = set := by
  rw [patched, List.toFinset_nil, Finset.union_empty, Finset.sdiff_empty]

/-- The request: the set changes, the scan stays over. -/
theorem wp_patchRemoteAddresses {add remove : List Address} (ready : Ready w)
    (among : P w.assignments) :
    (mirror env).wp (Moves P) (Inv env P) (patchRemoteAddresses add remove)
      (fun r w' => Ready w' ∧ P w'.assignments ∧ ∀ u : Unit, r = .ok u →
        w'.items = w.items ∧ w'.remote = patched w.remote add remove) w := by
  rw [patchRemoteAddresses]
  split
  · rename_i nothing
    refine ⟨ready, among, fun _ _ => ⟨rfl, ?_⟩⟩
    rw [nothing.1, nothing.2, patched_nil]
  · split
    · exact ⟨ready, among, error_ne_ok⟩
    · refine wp_tryOp (f := fun v => ((), { v with remote := patched v.remote add remove }))
        (fun _ _ => rfl) fun v moved => ?_
      have ready' := moved.ready ready
      have sent : Ready { v with remote := patched v.remote add remove } := ready'
      have among' := moved.among among
      refine ⟨ready'.inv among', sent.inv among', ⟨sent, among', fun _ _ => ?_⟩,
        fun m => ⟨⟨ready', among', error_ne_ok⟩, sent, among', error_ne_ok⟩⟩
      show v.items = _ ∧ patched v.remote add remove = _
      rw [moved.same]
      exact ⟨rfl, rfl⟩

/-- The mirror is written, the set stays. -/
theorem wp_updateLocalMirror {add remove : List Address} (ready : Ready w)
    (among : P w.assignments) :
    (mirror env).wp (Moves P) (Inv env P) (updateLocalMirror add remove)
      (fun r w' => Ready w' ∧ P w'.assignments ∧ ∀ u : Unit, r = .ok u →
        w'.remote = w.remote) w := by
  rw [updateLocalMirror]
  split
  · exact ⟨ready, among, fun _ _ => rfl⟩
  · refine wp_tryOp (f := fun v => ((), { v with items := patched v.items add remove }))
      (fun _ _ => rfl) fun v moved => ?_
    have ready' := moved.ready ready
    have written : Ready { v with items := patched v.items add remove } := ready'
    have among' := moved.among among
    refine ⟨ready'.inv among', written.inv among', ⟨written, among', fun _ _ => ?_⟩,
      fun m => ⟨⟨ready', among', error_ne_ok⟩, written, among', error_ne_ok⟩⟩
    show v.remote = _
    rw [moved.same]

/-- The state for those who watch. -/
theorem wp_writeProviderState {state : ProviderState} (inv : Inv env P w) :
    (mirror env).wp (Moves P) (Inv env P) (tryOp (.writeProviderState state) rfl)
      (fun r w' => Inv env P w' ∧ w'.remote = w.remote ∧ ∀ u : Unit, r = .ok u →
        w'.providerState = some state) w := by
  refine wp_tryOp (f := fun v => ((), { v with providerState := some state })) (fun _ _ => rfl)
    fun v moved => ?_
  have inv' := moved.inv inv
  have remote : v.remote = w.remote := by rw [moved.same]
  have written : Inv env P { v with providerState := some state } :=
    ⟨inv'.bootstrapped, inv'.among⟩
  exact ⟨inv', written, ⟨written, remote, fun _ _ => rfl⟩,
    fun m => ⟨⟨inv', remote, error_ne_ok⟩, written, remote, error_ne_ok⟩⟩

/-- A run of the steady state.  If it leaves nothing to do, its request was the whole
difference. -/
theorem wp_reconcile (ready : Ready w) (among : P w.assignments) :
    (mirror env).wp (Moves P) (Inv env P) reconcile
      (fun r w' => Inv env P w' ∧ ∀ result, r = .ok result → Synced w' → ∃ a a', P a ∧ P a' ∧
        w'.remote = reconciled w.remote w.items (assignedTo env.slot a)
          (assignedTo env.slot a')) w := by
  refine Serial.wp_bind (wp_listAddressMutations ready among) ?_ ?_
  · rintro changes v ⟨moved, found⟩
    obtain ⟨a, a', ha, ha', rfl⟩ := found changes rfl
    have whole := normalize_firstOf (assignedTo env.slot a \ w.items)
    have whole' := normalize_firstOf (w.items \ assignedTo env.slot a')
    generalize normalizeAddressSet (firstOf (assignedTo env.slot a \ w.items)) = add at whole ⊢
    generalize normalizeAddressSet (firstOf (w.items \ assignedTo env.slot a')) = remove
      at whole' ⊢
    refine Serial.wp_bind (wp_patchRemoteAddresses (moved.ready ready) (moved.among among)) ?_ ?_
    · rintro ⟨⟩ u ⟨ready₁, among₁, sent⟩
      obtain ⟨-, remote₁⟩ := sent () rfl
      refine Serial.wp_bind (wp_updateLocalMirror ready₁ among₁) ?_ ?_
      · rintro ⟨⟩ u₂ ⟨ready₂, among₂, written⟩
        have remote₂ : u₂.remote = patched w.remote add remove := by
          rw [written () rfl, remote₁, moved.same]
        refine Serial.wp_bind (R := fun _ w' => Moves P u₂ w') ?_ ?_ ?_
        · refine wp_tryOp (f := fun x => (x.items.card, x)) (fun _ _ => rfl) fun x later => ?_
          have inv : Inv env P x := (later.ready ready₂).inv (later.among among₂)
          exact ⟨inv, inv, later, fun m => ⟨later, later⟩⟩
        · rintro itemCount u₃ later
          have inv : Inv env P u₃ := (later.ready ready₂).inv (later.among among₂)
          refine Serial.wp_bind (wp_writeProviderState inv) ?_ ?_
          · rintro ⟨⟩ u₄ ⟨inv', kept, wrote⟩
            refine ⟨inv', fun result is synced => ⟨a, a', ha, ha', ?_⟩⟩
            rw [Synced, wrote () rfl] at synced
            rw [kept, later.same, remote₂, reconciled, patched]
            -- neither half was cut off, since the state is not `pending`
            have short : ¬ (add.length == patchChunkSize || remove.length == patchChunkSize) := by
              intro long
              rw [if_pos long] at synced
              cases synced
            rw [Bool.or_eq_true, beq_iff_eq, beq_iff_eq, not_or] at short
            rw [whole short.1, whole' short.2]
          · rintro m u₄ ⟨inv', -⟩
            exact ⟨inv', error_ne_ok⟩
        · rintro m u₃ later
          exact ⟨(later.ready ready₂).inv (later.among among₂), error_ne_ok⟩
      · rintro m u₂ ⟨ready₂, among₂, -⟩
        exact ⟨ready₂.inv among₂, error_ne_ok⟩
    · rintro m u ⟨ready₁, among₁, -⟩
      exact ⟨ready₁.inv among₁, error_ne_ok⟩
  · rintro m v ⟨moved, -⟩
    exact ⟨(moved.ready ready).inv (moved.among among), error_ne_ok⟩

/-- A run.  If it ends in the steady state with nothing left to do, then its request was the
whole difference to the mirror as it was, or as the last page left it. -/
theorem wp_synchronize (inv : Inv env P w) :
    (mirror env).wp (Moves P) (Inv env P) synchronize
      (fun r w' => Inv env P w' ∧ ∀ result, r = .ok result → Synced w' →
        ∃ mirror a a', (Ready w → mirror = w.items) ∧ (¬ Ready w → mirror = w.remote) ∧
          P a ∧ P a' ∧ w'.remote = reconciled w.remote mirror (assignedTo env.slot a)
            (assignedTo env.slot a')) w := by
  refine Serial.wp_bind (wp_getOrCreateSyncState inv) ?_ ?_
  · rintro initialState v ⟨inv₁, got⟩
    obtain ⟨now, started, items, remote⟩ := got initialState rfl
    refine Serial.wp_bind (wp_bootstrapRemoteMirror bootstrapPagesPerJob inv₁ now) ?_ ?_
    · rintro state u ⟨inv₂, scanned⟩
      obtain ⟨now', remote', kept, done⟩ := scanned state rfl
      show (mirror env).wp _ _ (if _ then _ else _) _ u
      split
      · refine Serial.wp_bind (wp_writeProviderState inv₂) ?_ ?_
        · rintro ⟨⟩ u' ⟨inv₃, -, wrote⟩
          refine ⟨inv₃, fun result is synced => ?_⟩
          rw [Synced, wrote () rfl] at synced
          cases synced
        · rintro m u' ⟨inv₃, -⟩
          exact ⟨inv₃, error_ne_ok⟩
      · rename_i ended
        have phase := ready_of_not_scanning ended
        have ready : Ready u := by rw [Ready, now', Option.map_some, phase]
        refine Serial.wp_mono (wp_reconcile ready inv₂.among) fun r u' result =>
          ⟨result.1, fun answer is synced => ?_⟩
        obtain ⟨a, a', ha, ha', formula⟩ := result.2 answer is synced
        refine ⟨u.items, a, a', fun before => ?_, fun before => ?_, ha, ha', ?_⟩
        · rw [ready_iff, ← started] at before
          rw [(kept before).2, items]
        · rw [ready_iff, ← started] at before
          rw [done (scanning_of_not_ready before) phase, remote]
        · rw [formula, remote', remote]
    · rintro m u ⟨inv₂, -⟩
      exact ⟨inv₂, error_ne_ok⟩
  · rintro m v ⟨inv₁, -⟩
    exact ⟨inv₁, error_ne_ok⟩

/-- A failed run leaves its error and throws it again. -/
theorem wp_recordFailure {message : String} (inv : Inv env P w) :
    (mirror env).wp (Moves P) (Inv env P) (recordFailure message)
      (fun r w' => Inv env P w' ∧ ∃ m, r = .error m) w := by
  refine Serial.wp_bind (R := fun r w' => Inv env P w') ?_ ?_ ?_
  · refine Serial.wp_tryCatch (R := fun _ w' => Inv env P w') ?_ (fun _ _ h => h)
      (fun _ _ h => h)
    refine wp_tryOp (f := fun v => (v.items.card, v)) (fun _ _ => rfl) fun v moved => ?_
    have inv' := moved.inv inv
    exact ⟨inv', inv', inv', fun m => ⟨inv', inv'⟩⟩
  · rintro itemCount v inv₁
    refine Serial.wp_bind (wp_writeProviderState inv₁) ?_ ?_
    · rintro ⟨⟩ u ⟨inv₂, -⟩
      exact ⟨inv₂, message, rfl⟩
    · rintro m u ⟨inv₂, -⟩
      exact ⟨inv₂, m, rfl⟩
  · rintro m v inv₁
    exact ⟨inv₁, m, rfl⟩

/-- What a call keeps, and what it comes to if it leaves the state synchronized. -/
theorem wp_syncAlchemyWebhookAddresses (enabled : env.alchemyWebhookEnabled = true)
    (inv : Inv env P w) :
    (mirror env).wp (Moves P) (Inv env P) (syncAlchemyWebhookAddresses env)
      (fun r w' => ∀ result, r = .ok result → Synced w' →
        ∃ mirror a a', (Ready w → mirror = w.items) ∧ (¬ Ready w → mirror = w.remote) ∧
          P a ∧ P a' ∧ w'.remote = reconciled w.remote mirror (assignedTo env.slot a)
            (assignedTo env.slot a')) w := by
  rw [syncAlchemyWebhookAddresses, if_pos enabled]
  split
  · refine Serial.wp_tryCatch (wp_synchronize inv) ?_ ?_
    · rintro result w' ⟨-, formula⟩
      exact formula
    · rintro m w' ⟨inv', -⟩
      refine Serial.wp_mono (wp_recordFailure inv') ?_
      rintro r w'' ⟨-, m', rfl⟩
      exact error_ne_ok
  · exact error_ne_ok

end Rules

/-! ### Histories -/

section Histories

/-- Before the first run: no mirror, whatever the provider watches. -/
def start (assignments : List Assignment) (remote : Finset Address) :
    Serial.State SyncOp SyncOp.Reply World AlchemyAddressSyncResult where
  world :=
    { assignments, items := ∅, syncState := none, providerState := none, remote }
  running := .ret ⟨.reconcile, 0, false⟩

/-- The mirror of each address is right, or the set of the provider is. -/
def Repairable (slot : Nat) (w : World) : Prop :=
  ∀ a, (a ∈ w.items ↔ a ∈ w.remote) ∨ (a ∈ assignedTo slot w.assignments ↔ a ∈ w.remote)

variable {env : Env}

/-- Before the last page the mirror is part of the set, in every history. -/
theorem inv_run (enabled : env.alchemyWebhookEnabled = true) (assignments : List Assignment)
    (remote : Finset Address) (history : List (Serial.Event Delivery (List Assignment))) :
    Inv env (fun _ => True)
      ((mirror env).machine.run (start assignments remote) history).world := by
  refine (Serial.holds (Moves.refl fun _ => True) (fun _ _ _ => Moves.trans) ?_ ?_ ?_ history).1
  · rintro moved w ⟨booted, -⟩
    exact ⟨⟨booted, trivial⟩, rfl, fun _ => trivial⟩
  · intro w inv
    exact Serial.wp_mono (wp_syncAlchemyWebhookAddresses enabled inv) fun _ _ _ => trivial
  · exact ⟨⟨rfl, trivial⟩, trivial⟩

/-- Assigned addresses come out where the set or the mirror lets them. -/
theorem reconciled_eq_iff {remote mirror assigned : Finset Address} :
    reconciled remote mirror assigned assigned = assigned ↔
      ∀ a, (a ∈ mirror ↔ a ∈ remote) ∨ (a ∈ assigned ↔ a ∈ remote) := by
  rw [Finset.ext_iff]
  refine forall_congr' fun a => ?_
  rw [reconciled, Finset.mem_sdiff, Finset.mem_union, Finset.mem_sdiff, Finset.mem_sdiff]
  by_cases a ∈ remote <;> by_cases a ∈ mirror <;> by_cases a ∈ assigned <;> simp [*]

/-- A run that ends with nothing left to do, while no assignment changes, makes the set of the
provider the assigned addresses exactly when each of them is `Repairable` before, or the last
page of the set comes with the run itself. -/
theorem converges_iff_repairable (enabled : env.alchemyWebhookEnabled = true)
    (assignments : List Assignment) (remote : Finset Address)
    (history : List (Serial.Event Delivery (List Assignment))) (answers : List Delivery)
    (result : AlchemyAddressSyncResult) :
    let before := (mirror env).machine.run (start assignments remote) history
    let after := (mirror env).machine.run before (.start :: answers.map .step)
    after.running = .ret result → Synced after.world →
      (after.world.remote = assignedTo env.slot before.world.assignments ↔
        (Ready before.world → Repairable env.slot before.world)) := by
  intro before after ended synced
  have inv : Inv env (· = before.world.assignments) before.world :=
    ⟨(inv_run enabled assignments remote history).bootstrapped, rfl⟩
  obtain ⟨mirror, a, a', ready, scanning, rfl, rfl, formula⟩ :=
    Serial.outcome (Moves.refl _) (wp_syncAlchemyWebhookAddresses enabled inv) ended result rfl
      synced
  have remote : after.world.remote = _ := formula
  rw [remote, reconciled_eq_iff]
  by_cases known : Ready before.world
  · rw [ready known]
    exact ⟨fun h _ => h, fun h => h known⟩
  · rw [scanning known]
    exact ⟨fun _ h => absurd h known, fun _ _ => .inl Iff.rfl⟩

/-! ### A wallet without its webhook -/

/-- The provider lists a set in one page. -/
def onePage : Pager where
  page set _ := (sorted set, none)
  rest set after := if after = none then set else ∅
  rest_start _ := rfl
  page_subset set _ := by rw [toFinset_sorted]
  rest_subset set after := by
    rw [toFinset_sorted, Finset.union_empty]
    split
    · exact Finset.Subset.refl _
    · exact Finset.empty_subset _

def oneSlot : Env where
  alchemyWebhookEnabled := true
  configured := true
  slot := 0
  pager := onePage

def wallet : Assignment := ⟨7, 0, true⟩

abbrev Deliveries := List (Serial.Event Delivery (List Assignment))

/-- Statements and requests that are answered. -/
def answered (n : Nat) : List (Serial.Event Delivery (List Assignment)) :=
  List.replicate n (.step .done)

/-- The wallet is assigned and sent to the provider; taken away, and its removal sent by a run
that is killed before it writes the mirror; assigned again. -/
def flipped : List (Serial.Event Delivery (List Assignment)) :=
  ([.start] : Deliveries) ++ answered 10 ++ ([.env [], .start] : Deliveries) ++ answered 5 ++
    ([.env [wallet]] : Deliveries)

/-- The next run finds nothing to do. -/
theorem wallet_without_webhook :
    let before := (mirror oneSlot).machine.run (start [wallet] ∅) flipped
    let after := (mirror oneSlot).machine.run before (.start :: (List.replicate 6 .done).map .step)
    after.running = .ret ⟨.reconcile, 0, false⟩ ∧ Synced after.world ∧
      assignedTo 0 before.world.assignments = {7} ∧ after.world.remote = ∅ := by
  refine ⟨?_, ?_, ?_, ?_⟩
  · rfl
  · rfl
  · rfl
  · rfl

/-- The first run over a set that holds a stranger. -/
theorem converges_first_run :
    let before := (mirror oneSlot).machine.run (start [wallet] {3}) []
    let after := (mirror oneSlot).machine.run before (.start :: (List.replicate 10 .done).map .step)
    after.world.remote = assignedTo oneSlot.slot before.world.assignments ↔
      (Ready before.world → Repairable oneSlot.slot before.world) :=
  converges_iff_repairable rfl [wallet] {3} [] (List.replicate 10 .done) ⟨.reconcile, 2, false⟩
    rfl rfl

end Histories

end ParmeliaLinks.Server.Mirror
