/-
ParmeliaLinks/Swap/BuiltSwap.lean

The Universal Router execution that is built for a single-hop swap, and what it does.

The account is promised a net minimum.  The pool is asked for a gross minimum, which is the
net minimum divided by what the fee leaves, rounded down.  On chain the fee is rounded down as
well, so the account gets the net amount rounded up, and the two roundings do not meet:

    gross minimum  =  ⌊min · 10000 / (10000 − fee)⌋
    net amount     =  g − ⌊g · fee / 10000⌋  =  ⌈g · (10000 − fee) / 10000⌉

`net_of_grossMin` is the harmless direction, a delivery that passes the pool passes the rest.
In the other direction there is a gap of deliveries (`InGap`) whose net amount is enough, and
which the pool rejects.
-/
import ParmeliaLinks.Swap.UniversalRouter

namespace ParmeliaLinks.Swap

/-! ### Amounts -/

structure AppliedFee where
  feeAmount : Nat
  netAmount : Nat
  deriving DecidableEq

def applyFee (amountOut feeBps : Nat) : AppliedFee :=
  let feeAmount := amountOut * feeBps / bpsDenominator
  { feeAmount, netAmount := amountOut - feeAmount }

def applySlippage (amount slippageBps : Nat) : Nat :=
  amount * (bpsDenominator - slippageBps) / bpsDenominator

/-- Gross minimum required at the pool so that net-of-fee output still meets `netMin`. -/
def grossMinForNet (netMin feeBps : Nat) : Nat :=
  if feeBps = 0 then netMin else netMin * bpsDenominator / (bpsDenominator - feeBps)

/-! ### The builder -/

inductive SwapProtocol | v3 | v4
  deriving DecidableEq

structure SwapRoute where
  protocol : SwapProtocol
  fee : Nat
  tickSpacing : Option Int

/-- Sort two v4 currencies (native 0x0 always sorts first). -/
def sortCurrencies (a b : Address) : Address × Address := if a < b then (a, b) else (b, a)

def buildPoolKey (currencyA currencyB : Address) (fee : Nat) (tickSpacing : Int) : PoolKey where
  currency0 := (sortCurrencies currencyA currencyB).1
  currency1 := (sortCurrencies currencyA currencyB).2
  fee
  tickSpacing

/-- The recipient of the swap is the account that executes it; a fee is below the whole. -/
structure BuildSwapParams where
  route : SwapRoute
  tokenIn : Option Address
  tokenOut : Option Address
  weth : Address
  amountIn : Nat
  minAmountOutNet : Nat
  feeBps : Nat
  treasury : Option Address
  feeBps_lt : feeBps < bpsDenominator

inductive BuildError
  | treasuryRequired
  | tickSpacingRequired
  | integerOutOfRange
  deriving DecidableEq

structure BuiltSwap where
  commands : List Command
  value : Nat

/-- The amounts of a v4 swap are encoded with 128 bits. -/
def buildV4Swap (p : BuildSwapParams) (grossMin : Nat) : Except BuildError BuiltSwap :=
  match p.route.tickSpacing with
  | none => .error .tickSpacingRequired
  | some tickSpacing =>
    let currencyIn := p.tokenIn.getD nativeCurrency
    let currencyOut := p.tokenOut.getD nativeCurrency
    let poolKey := buildPoolKey currencyIn currencyOut p.route.fee tickSpacing
    let zeroForOne : Bool := poolKey.currency0 = currencyIn
    if 2 ^ 24 ≤ p.route.fee ∨ tickSpacing < -2 ^ 23 ∨ 2 ^ 23 ≤ tickSpacing ∨
        2 ^ 128 ≤ p.amountIn ∨ 2 ^ 128 ≤ grossMin ∨ 2 ^ 256 ≤ p.minAmountOutNet then
      .error .integerOutOfRange
    else
      .ok {
        commands := [.v4Swap (
          [.swapExactInSingle poolKey zeroForOne p.amountIn grossMin,
            .settleAll currencyIn p.amountIn] ++
          (if 0 < p.feeBps then [.takePortion currencyOut .treasury p.feeBps] else []) ++
          [.takeAll currencyOut p.minAmountOutNet])]
        value := if p.tokenIn = none then p.amountIn else 0 }

def BuildSwapParams.pathIn (p : BuildSwapParams) : Address := p.tokenIn.getD p.weth

def BuildSwapParams.pathOut (p : BuildSwapParams) : Address := p.tokenOut.getD p.weth

/-- Output must stop at the router whenever we still owe a fee split or an unwrap. -/
def BuildSwapParams.routerHoldsOutput (p : BuildSwapParams) : Bool :=
  0 < p.feeBps ∨ p.tokenOut = none

def buildV3Swap (p : BuildSwapParams) (grossMin : Nat) : Except BuildError BuiltSwap :=
  let path : V3Path := { tokenIn := p.pathIn, fee := p.route.fee, tokenOut := p.pathOut }
  if 2 ^ 24 ≤ p.route.fee ∨ 2 ^ 256 ≤ p.amountIn ∨ 2 ^ 256 ≤ grossMin ∨
      2 ^ 256 ≤ p.minAmountOutNet then
    .error .integerOutOfRange
  else
    .ok {
      commands :=
        (if p.tokenIn = none then [.wrapEth .router p.amountIn] else []) ++
        [.v3SwapExactIn (if p.routerHoldsOutput then .router else .account) p.amountIn
          (if p.routerHoldsOutput then grossMin else p.minAmountOutNet) path
          (p.tokenIn ≠ none)] ++
        (if 0 < p.feeBps then [.payPortion p.pathOut .treasury p.feeBps] else []) ++
        (if p.tokenOut = none then [.unwrapWeth .account p.minAmountOutNet]
          else if p.routerHoldsOutput then [.sweep p.pathOut .account p.minAmountOutNet]
          else [])
      value := if p.tokenIn = none then p.amountIn else 0 }

def buildUniversalRouterSwap (p : BuildSwapParams) : Except BuildError BuiltSwap :=
  if 0 < p.feeBps ∧ p.treasury = none then .error .treasuryRequired
  else
    let grossMin := grossMinForNet p.minAmountOutNet p.feeBps
    match p.route.protocol with
    | .v4 => buildV4Swap p grossMin
    | .v3 => buildV3Swap p grossMin

/-- The plan is executed with its value, when the pool delivers `g` and the account has allowed
the router to take `allowed`. -/
def BuiltSwap.execute (plan : BuiltSwap) (weth : Address) (allowed g : Nat) :
    Except Revert RouterState :=
  runCommands { delivered := g, allowed, weth } plan.commands (.start plan.value)

/-! ### Roundings -/

variable {g f m : Nat}

theorem applyFee_add (below : f < bpsDenominator) :
    (applyFee g f).netAmount + (applyFee g f).feeAmount = g := by
  have part : g * f / bpsDenominator ≤ g := by
    apply Nat.div_le_of_le_mul
    rw [Nat.mul_comm]
    exact Nat.mul_le_mul_right g (Nat.le_of_lt below)
  exact Nat.sub_add_cancel part

/-- The net amount is what the fee leaves, rounded up. -/
theorem le_netAmount_iff (below : f < bpsDenominator) :
    m ≤ (applyFee g f).netAmount ↔
      m * bpsDenominator < g * (bpsDenominator - f) + bpsDenominator := by
  have whole := applyFee_add (g := g) below
  have lower : (applyFee g f).feeAmount * bpsDenominator ≤ g * f := Nat.div_mul_le_self _ _
  have upper : g * f < ((applyFee g f).feeAmount + 1) * bpsDenominator :=
    (Nat.div_lt_iff_lt_mul (by decide)).1 (Nat.lt_succ_self _)
  have split : g * (bpsDenominator - f) = g * bpsDenominator - g * f := Nat.mul_sub ..
  simp only [bpsDenominator] at *
  omega

/-- The gross minimum is the net minimum over what the fee leaves, rounded down. -/
theorem grossMinForNet_le_iff (below : f < bpsDenominator) :
    grossMinForNet m f ≤ g ↔ m * bpsDenominator < (g + 1) * (bpsDenominator - f) := by
  unfold grossMinForNet
  split
  next free =>
    subst free
    simp only [bpsDenominator]
    omega
  next charged =>
    rw [← Nat.lt_succ_iff]
    exact Nat.div_lt_iff_lt_mul (Nat.sub_pos_of_lt below)

/-- What passes the gross minimum leaves the net minimum. -/
theorem net_of_grossMin (below : f < bpsDenominator) (passes : grossMinForNet m f ≤ g) :
    m ≤ (applyFee g f).netAmount := by
  rw [grossMinForNet_le_iff below] at passes
  rw [le_netAmount_iff below]
  have next : (g + 1) * (bpsDenominator - f) ≤ g * (bpsDenominator - f) + bpsDenominator := by
    rw [Nat.succ_mul]
    exact Nat.add_le_add_left (Nat.sub_le _ _) _
  exact Nat.lt_of_lt_of_le passes next

/-! ### Currencies -/

section pool

variable {a b : Address} {fee : Nat} {tickSpacing : Int}

theorem noPool_iff :
    (buildPoolKey a b fee tickSpacing).currency1 ≤ (buildPoolKey a b fee tickSpacing).currency0 ↔
      a = b := by
  unfold buildPoolKey sortCurrencies
  by_cases first : a < b
  · simp only [first, if_true]
    exact ⟨fun le => absurd first (Nat.not_lt_of_le le), fun same => same ▸ Nat.le_refl _⟩
  · simp only [first, if_false]
    have other : b ≤ a := Nat.le_of_not_lt first
    exact ⟨fun le => Nat.le_antisymm le other, fun same => same ▸ Nat.le_refl _⟩

/-- The direction is the one from the input to the output. -/
theorem direction (differ : a ≠ b) :
    let key := buildPoolKey a b fee tickSpacing
    (if key.currency0 = a then key.currency0 else key.currency1) = a ∧
      (if key.currency0 = a then key.currency1 else key.currency0) = b := by
  dsimp only [buildPoolKey, sortCurrencies]
  by_cases first : a < b
  · simp [first]
  · simp [first, Ne.symm differ]

end pool

/-! ### What an execution does -/

namespace BuildSwapParams

variable (p : BuildSwapParams)

def grossMin : Nat := grossMinForNet p.minAmountOutNet p.feeBps

/-- The currency in which the account is paid. -/
def currencyOut : Address := p.tokenOut.getD nativeCurrency

/-- The currency of the pool's output, in which the treasury is paid. -/
def poolOut : Address :=
  match p.route.protocol with
  | .v4 => p.currencyOut
  | .v3 => p.pathOut

def poolIn : Address :=
  match p.route.protocol with
  | .v4 => p.tokenIn.getD nativeCurrency
  | .v3 => p.pathIn

end BuildSwapParams

namespace RouterState

theorem ext_iff' {s t : RouterState} :
    s = t ↔ s.held = t.held ∧ s.received = t.received ∧ s.delta = t.delta := by
  cases s
  cases t
  simp only [RouterState.mk.injEq]

/-- The router holds an amount, and nothing has been paid yet. -/
def holding (c : Address) (amount : Nat) : RouterState where
  held c' := if c' = c then amount else 0
  received _ _ := 0
  delta _ := 0

/-- The pool manager owes an amount, and nothing has been paid yet. -/
def owed (c : Address) (amount : Int) : RouterState where
  held _ := 0
  received _ _ := 0
  delta c' := if c' = c then amount else 0

/-- The treasury and the account have been paid, and nothing is left. -/
def paid (fee : Address) (feeAmount : Nat) (net : Address) (netAmount : Nat) : RouterState where
  held _ := 0
  received
    | .account, c => if c = net then netAmount else 0
    | .treasury, c => if c = fee then feeAmount else 0
    | .router, _ => 0
  delta _ := 0

theorem start_eq_holding (value : Nat) : start value = holding nativeCurrency value := rfl

theorem holding_held (c : Address) (amount : Nat) : (holding c amount).held c = amount :=
  if_pos rfl

theorem holding_take (c : Address) (amount part : Nat) :
    (holding c amount).take c part = holding c (amount - part) := by
  refine ext_iff'.2 ⟨?_, rfl, rfl⟩
  funext c'
  by_cases same : c' = c <;> simp [take, holding, same]

end RouterState

open RouterState

section actions

variable {chain : Chain} {s : RouterState} {a b : Address} {fee : Nat} {tickSpacing : Int}
  {amountIn m : Nat}

theorem swap_noPool {z : Bool} :
    (V4Action.swapExactInSingle (buildPoolKey a a fee tickSpacing) z amountIn m).run chain s =
      .error .noPool :=
  if_pos (noPool_iff.2 rfl)

theorem swap_run (differ : a ≠ b) :
    (V4Action.swapExactInSingle (buildPoolKey a b fee tickSpacing)
        (decide ((buildPoolKey a b fee tickSpacing).currency0 = a)) amountIn m).run chain s =
      if chain.delivered < m then .error .v4TooLittleReceived
      else .ok ((s.change a (-amountIn)).change b chain.delivered) := by
  obtain ⟨input, output⟩ := @direction a b fee tickSpacing differ
  simp only [V4Action.run, decide_eq_true_eq, input, output]
  exact if_neg (mt noPool_iff.1 differ)

/-- The input of a v4 swap: the value that is attached, or what the account has allowed. -/
theorem settle_run (differ : a ≠ b) {value : Nat} (g : Nat)
    (attached : a ≠ nativeCurrency → value = 0) (enough : value ≤ amountIn) :
    (V4Action.settleAll a amountIn).run chain
        (((start value).change a (-amountIn)).change b g) =
      if (if a = nativeCurrency then value else chain.allowed) < amountIn then .error .notAllowed
      else .ok (owed b g) := by
  set s := ((start value).change a (-amountIn)).change b g
  have debt : (-s.delta a).toNat = amountIn := by simp [s, change, differ, start]
  have settled : s.change a amountIn = { owed b g with held := (start value).held } := by
    refine ext_iff'.2 ⟨rfl, rfl, ?_⟩
    funext c
    by_cases input : c = a
    · simp [s, change, start, owed, input, differ]
    · simp [s, change, start, owed, input]
  simp only [V4Action.run, debt, Nat.lt_irrefl, if_false, pull]
  by_cases native : a = nativeCurrency
  · have held : s.held a = value := by simp [s, change, start, native]
    simp only [native, if_true]
    rw [← native, held]
    split
    next => rfl
    next covered =>
      refine congrArg Except.ok ?_
      have all : amountIn = value := Nat.le_antisymm (Nat.le_of_not_lt covered) enough
      refine Eq.trans (b := { s.change a amountIn with held := fun _ => 0 }) ?_ ?_
      · refine ext_iff'.2 ⟨?_, rfl, rfl⟩
        funext c
        by_cases same : c = nativeCurrency <;> simp [take, change, s, start, same, native, all]
      · rw [settled]
        rfl
  · simp only [native, if_false]
    split
    next => rfl
    next =>
      refine congrArg Except.ok ?_
      show s.change a amountIn = owed b g
      rw [settled, attached native]
      exact ext_iff'.2 ⟨by funext c; simp [start, owed], rfl, rfl⟩

/-- With the fee taken the account is still owed the rest. -/
theorem portion_run {c : Address} {g bips : Nat} (below : bips < bpsDenominator) :
    (V4Action.takePortion c .treasury bips).run chain (owed c g) =
      .ok ((owed c (applyFee g bips).netAmount).pay .treasury c (applyFee g bips).feeAmount) := by
  have owes : (owed c g).delta c = g := if_pos rfl
  have whole := applyFee_add (g := g) below
  simp only [V4Action.run, owes, Int.toNat_natCast]
  rw [if_neg (Nat.not_lt_of_le (Nat.le_of_lt below)), if_neg (Int.not_lt.2 (Int.natCast_nonneg g))]
  refine congrArg Except.ok (ext_iff'.2 ⟨rfl, rfl, ?_⟩)
  funext c'
  by_cases same : c' = c
  · simp only [pay, change, owed, same, if_true]
    show (g : Int) + -((applyFee g bips).feeAmount : Nat) = _
    omega
  · simp [pay, change, owed, same]

theorem takeAll_run {c : Address} {net : Nat} (s : RouterState) (owes : s.delta c = net)
    (meets : m ≤ net) :
    (V4Action.takeAll c m).run chain s = .ok ((s.change c (-net)).pay .account c net) := by
  simp only [V4Action.run, owes, Int.toNat_natCast]
  rw [if_neg (Int.not_lt.2 (Int.natCast_nonneg net)), if_neg (Nat.not_lt_of_le meets)]

/-- The last take pays what the treasury has left. -/
theorem takeAll_pays {c : Address} {feeAmount net : Nat} (meets : m ≤ net) :
    (V4Action.takeAll c m).run chain ((owed c net).pay .treasury c feeAmount) =
      .ok (paid c feeAmount c net) := by
  have owes : ((owed c net).pay .treasury c feeAmount).delta c = net := if_pos rfl
  simp only [V4Action.run, owes, Int.toNat_natCast]
  rw [if_neg (Int.not_lt.2 (Int.natCast_nonneg net)), if_neg (Nat.not_lt_of_le meets)]
  refine congrArg Except.ok (ext_iff'.2 ⟨rfl, ?_, ?_⟩)
  · funext r c'
    cases r <;> simp [pay, change, owed, paid]
  · funext c'
    by_cases same : c' = c <;> simp [pay, change, owed, paid, same]

theorem pay_nothing (c : Address) : s.pay .treasury c 0 = s := by
  refine ext_iff'.2 ⟨rfl, ?_, rfl⟩
  funext r c'
  simp [pay]

/-- What follows the settlement in a v4 plan. -/
theorem takes_run {c : Address} {g f : Nat} (below : f < bpsDenominator)
    (meets : m ≤ (applyFee g f).netAmount) :
    runActions chain
        ((if 0 < f then [V4Action.takePortion c .treasury f] else []) ++ [V4Action.takeAll c m])
        (owed c g) =
      .ok (paid c (applyFee g f).feeAmount c (applyFee g f).netAmount) := by
  by_cases charged : 0 < f
  · simp only [charged, if_true, List.singleton_append, runActions, portion_run below]
    exact congrArg (Except.bind · _) (takeAll_pays meets)
  · obtain rfl := Nat.eq_zero_of_not_pos charged
    have free : applyFee g 0 = { feeAmount := 0, netAmount := g } := by simp [applyFee]
    rw [free] at meets ⊢
    have owes : (V4Action.takeAll c m).run chain ((owed c g).pay .treasury c 0) =
        .ok (paid c 0 c g) := takeAll_pays meets
    rw [pay_nothing] at owes
    exact congrArg (Except.bind · _) owes

/-- The actions of a v4 plan. -/
theorem v4_run (differ : a ≠ b) {value net f : Nat} (below : f < bpsDenominator)
    (attached : a ≠ nativeCurrency → value = 0) (enough : value ≤ amountIn) :
    (Command.v4Swap (
        [V4Action.swapExactInSingle (buildPoolKey a b fee tickSpacing)
          (decide ((buildPoolKey a b fee tickSpacing).currency0 = a)) amountIn
          (grossMinForNet net f),
          .settleAll a amountIn] ++
        (if 0 < f then [V4Action.takePortion b .treasury f] else []) ++
        [V4Action.takeAll b net])).run chain (start value) =
      if chain.delivered < grossMinForNet net f then .error .v4TooLittleReceived
      else if (if a = nativeCurrency then value else chain.allowed) < amountIn then
        .error .notAllowed
      else .ok (paid b (applyFee chain.delivered f).feeAmount b
        (applyFee chain.delivered f).netAmount) := by
  simp only [Command.run, List.cons_append, List.nil_append, runActions,
    swap_run differ]
  by_cases short : chain.delivered < grossMinForNet net f
  · simp only [short, if_true]
    rfl
  · have meets := net_of_grossMin below (Nat.le_of_not_lt short)
    simp only [short, if_false, Except.bind, settle_run differ chain.delivered attached enough]
    by_cases poor : (if a = nativeCurrency then value else chain.allowed) < amountIn
    · simp only [poor, if_true]
    · simp only [poor, if_false, takes_run below meets]
      exact if_pos fun _ _ => rfl

/-! The commands of a v3 plan. -/

theorem pay_router (c : Address) (amount : Nat) :
    (holding c 0).pay .router c amount = holding c amount := by
  refine ext_iff'.2 ⟨?_, rfl, rfl⟩
  funext c'
  by_cases same : c' = c <;> simp [pay, give, holding, same]

theorem holding_zero (c c' : Address) : holding c 0 = holding c' 0 := by
  simp only [holding, ite_self]

theorem portion_paid {c : Address} {g f : Nat} (charged : 0 < f) (below : f < bpsDenominator) :
    (Command.payPortion c .treasury f).run chain (holding c g) =
      .ok ((holding c (applyFee g f).netAmount).pay .treasury c (applyFee g f).feeAmount) := by
  have proper : ¬(f = 0 ∨ bpsDenominator < f) := by omega
  simp only [Command.run, holding_held, proper, if_false, holding_take]
  rfl

theorem fee_taken {c : Address} {g f : Nat} (below : f < bpsDenominator) (rest : List Command) :
    runCommands chain ((if 0 < f then [Command.payPortion c .treasury f] else []) ++ rest)
        (holding c g) =
      runCommands chain rest
        ((holding c (applyFee g f).netAmount).pay .treasury c (applyFee g f).feeAmount) := by
  by_cases charged : 0 < f
  · simp only [charged, if_true, List.singleton_append, runCommands, portion_paid charged below]
    rfl
  · obtain rfl := Nat.eq_zero_of_not_pos charged
    have free : applyFee g 0 = { feeAmount := 0, netAmount := g } := by simp [applyFee]
    simp only [Nat.lt_irrefl, if_false, List.nil_append, free, pay_nothing]

/-- The last command pays what the treasury has left. -/
theorem last_pays {c net' : Address} {feeAmount net : Nat} :
    (((holding c net).pay .treasury c feeAmount).take c net).pay .account net' net =
      paid c feeAmount net' net := by
  refine ext_iff'.2 ⟨?_, ?_, rfl⟩
  · funext c'
    by_cases same : c' = c <;> simp [pay, take, holding, paid, same]
  · funext r c'
    cases r <;> simp [pay, take, holding, paid]

theorem sweep_run {c : Address} {feeAmount net : Nat} (meets : m ≤ net) :
    (Command.sweep c .account m).run chain ((holding c net).pay .treasury c feeAmount) =
      .ok (paid c feeAmount c net) := by
  have holds : ((holding c net).pay .treasury c feeAmount).held c = net := if_pos rfl
  simp only [Command.run, holds, Nat.not_lt_of_le meets, if_false, last_pays]

theorem unwrap_run {feeAmount net : Nat} (meets : m ≤ net) :
    (Command.unwrapWeth .account m).run chain
        ((holding chain.weth net).pay .treasury chain.weth feeAmount) =
      .ok (paid chain.weth feeAmount nativeCurrency net) := by
  have holds : ((holding chain.weth net).pay .treasury chain.weth feeAmount).held chain.weth = net :=
    if_pos rfl
  simp only [Command.run, holds, Nat.not_lt_of_le meets, if_false, last_pays]

/-- The swap of a v3 plan takes the whole input, wrapped before or from the account. -/
theorem v3Swap_run {native : Prop} [Decidable native] {recipient : Recipient} {tokenIn : Address}
    (wrapped : native → tokenIn = chain.weth) (rest : List Command) :
    runCommands chain
        ((if native then [Command.wrapEth .router amountIn] else []) ++
          Command.v3SwapExactIn recipient amountIn m ⟨tokenIn, fee, b⟩ (¬native) :: rest)
        (start (if native then amountIn else 0)) =
      if tokenIn = b then .error .noPool
      else if ¬native ∧ chain.allowed < amountIn then .error .notAllowed
      else if chain.delivered < m then .error .v3TooLittleReceived
      else runCommands chain rest ((holding b 0).pay recipient b chain.delivered) := by
  by_cases comes : native
  · obtain rfl := wrapped comes
    have wraps : (Command.wrapEth .router amountIn).run chain (start amountIn) =
        .ok ((holding nativeCurrency 0).pay .router chain.weth amountIn) := by
      simp only [Command.run, start_eq_holding, holding_held, Nat.lt_irrefl, if_false,
        holding_take, Nat.sub_self]
    simp only [comes, if_true, List.singleton_append, runCommands, wraps, Except.bind,
      holding_zero nativeCurrency chain.weth, pay_router]
    by_cases same : chain.weth = b
    · simp only [Command.run, same, if_true]
    simp only [Command.run, same, if_false, not_true_eq_false, decide_false, Bool.false_eq_true,
      holding_held, Nat.lt_irrefl, Except.bind, false_and, holding_take, Nat.sub_self,
      holding_zero chain.weth b]
    by_cases short : chain.delivered < m <;> simp only [short, if_true, if_false]
  · simp only [comes, if_false, List.nil_append, runCommands, start_eq_holding,
      holding_zero nativeCurrency b]
    by_cases same : tokenIn = b
    · simp only [Command.run, same, if_true]
      rfl
    simp only [Command.run, same, if_false, not_false_eq_true, decide_true, if_true, true_and]
    by_cases poor : chain.allowed < amountIn
    · simp only [poor, if_true]
      rfl
    · simp only [poor, if_false, Except.bind]
      by_cases short : chain.delivered < m <;> simp only [short, if_true, if_false]

end actions

/-! ### The plans -/

variable {p : BuildSwapParams} {plan : BuiltSwap} {weth allowed g : Nat}

/-- How an execution of a plan may end. -/
inductive Outcome (p : BuildSwapParams) (allowed g : Nat) : Except Revert RouterState → Prop
  | noPool : p.poolIn = p.poolOut → Outcome p allowed g (.error .noPool)
  | notAllowed : allowed < p.amountIn ∨ p.grossMin ≤ g → Outcome p allowed g (.error .notAllowed)
  | onMinimum (e : Revert) : e.onMinimum = true → p.poolIn ≠ p.poolOut → g < p.grossMin →
    Outcome p allowed g (.error e)
  | delivered : p.grossMin ≤ g → Outcome p allowed g (.ok (paid p.poolOut
      (applyFee g p.feeBps).feeAmount p.currencyOut (applyFee g p.feeBps).netAmount))

theorem v4_outcome (built : buildV4Swap p p.grossMin = .ok plan) (v4 : p.route.protocol = .v4) :
    Outcome p allowed g (plan.execute weth allowed g) := by
  have below := p.feeBps_lt
  have poolIn : p.poolIn = p.tokenIn.getD nativeCurrency := by
    simp only [BuildSwapParams.poolIn, v4]
  have poolOut : p.poolOut = p.currencyOut := by simp only [BuildSwapParams.poolOut, v4]
  unfold buildV4Swap at built
  split at built
  · cases built
  next tickSpacing _ =>
  dsimp only at built
  split at built
  · cases built
  obtain rfl := Except.ok.inj built
  have output : p.tokenOut.getD nativeCurrency = p.currencyOut := rfl
  simp only [BuiltSwap.execute, runCommands, ← poolIn, output]
  by_cases same : p.poolIn = p.currencyOut
  · simp only [Command.run, List.cons_append, runActions, same, swap_noPool, Except.bind]
    exact .noPool (same.trans poolOut.symm)
  have attached : p.poolIn ≠ nativeCurrency → (if p.tokenIn = none then p.amountIn else 0) = 0 := by
    intro foreign
    refine if_neg fun native => foreign ?_
    rw [poolIn, native]
    rfl
  have enough : (if p.tokenIn = none then p.amountIn else 0) ≤ p.amountIn := by
    split <;> omega
  have ends : p.grossMin ≤ g → Outcome p allowed g _ := Outcome.delivered
  rw [poolOut] at ends
  have run := @v4_run { delivered := g, allowed, weth } p.poolIn p.currencyOut p.route.fee
    tickSpacing p.amountIn same _ p.minAmountOutNet p.feeBps below attached enough
  simp only [BuildSwapParams.grossMin] at ends ⊢
  rw [run]
  dsimp only
  by_cases short : g < grossMinForNet p.minAmountOutNet p.feeBps
  · rw [if_pos short]
    exact .onMinimum _ rfl (poolOut ▸ same) short
  rw [if_neg short]
  have passes := Nat.le_of_not_lt short
  by_cases poor : (if p.poolIn = nativeCurrency then
      if p.tokenIn = none then p.amountIn else 0 else allowed) < p.amountIn
  · rw [if_pos poor]
    exact .notAllowed (.inr passes)
  · rw [if_neg poor]
    exact ends passes

/-- What follows the swap in a v3 plan. -/
theorem distribute_run (meets : p.minAmountOutNet ≤ (applyFee g p.feeBps).netAmount) :
    runCommands { delivered := g, allowed, weth := p.weth }
        ((if 0 < p.feeBps then [Command.payPortion p.pathOut .treasury p.feeBps] else []) ++
          if p.tokenOut = none then [Command.unwrapWeth .account p.minAmountOutNet]
          else if p.routerHoldsOutput then [Command.sweep p.pathOut .account p.minAmountOutNet]
          else [])
        ((holding p.pathOut 0).pay (if p.routerHoldsOutput then .router else .account) p.pathOut
          g) =
      .ok (paid p.pathOut (applyFee g p.feeBps).feeAmount p.currencyOut
        (applyFee g p.feeBps).netAmount) := by
  have below := p.feeBps_lt
  rcases out : p.tokenOut with - | token
  · have wrapped : p.pathOut = p.weth := by simp only [BuildSwapParams.pathOut, out, Option.getD_none]
    have native : p.currencyOut = nativeCurrency := by
      simp only [BuildSwapParams.currencyOut, out, Option.getD_none]
    have holds : p.routerHoldsOutput = true := by simp [BuildSwapParams.routerHoldsOutput, out]
    simp only [holds, if_true, pay_router, fee_taken below, wrapped, native]
    exact congrArg (Except.bind · _) (unwrap_run meets)
  · have same : p.pathOut = p.currencyOut := by
      simp only [BuildSwapParams.pathOut, BuildSwapParams.currencyOut, out, Option.getD_some]
    have holds : p.routerHoldsOutput = decide (0 < p.feeBps) := by
      simp [BuildSwapParams.routerHoldsOutput, out]
    simp only [holds, reduceCtorEq, if_false, same, decide_eq_true_eq]
    by_cases charged : 0 < p.feeBps
    · have taken := @fee_taken { delivered := g, allowed, weth := p.weth } p.currencyOut g _ below
        [.sweep p.currencyOut .account p.minAmountOutNet]
      simp only [charged, if_true] at taken
      simp only [charged, if_true, pay_router, taken]
      exact congrArg (Except.bind · _) (sweep_run meets)
    · have free : p.feeBps = 0 := Nat.eq_zero_of_not_pos charged
      simp only [free, Nat.lt_irrefl, if_false, List.nil_append, runCommands, Except.ok.injEq]
      refine ext_iff'.2 ⟨?_, ?_, rfl⟩
      · funext c
        simp [pay, holding, paid]
      · funext r c
        cases r <;> simp [pay, holding, paid, applyFee]

/-- The pool is asked for the gross minimum in either case. -/
theorem pool_minimum :
    (if p.routerHoldsOutput then p.grossMin else p.minAmountOutNet) = p.grossMin := by
  split
  next => rfl
  next direct =>
    have free : p.feeBps = 0 := by
      simp only [BuildSwapParams.routerHoldsOutput, decide_eq_true_eq, not_or] at direct
      exact Nat.eq_zero_of_not_pos direct.1
    rw [BuildSwapParams.grossMin, free]
    rfl

theorem v3_outcome (built : buildV3Swap p p.grossMin = .ok plan) (v3 : p.route.protocol = .v3) :
    Outcome p allowed g (plan.execute p.weth allowed g) := by
  have below := p.feeBps_lt
  have poolIn : p.poolIn = p.pathIn := by simp only [BuildSwapParams.poolIn, v3]
  have poolOut : p.poolOut = p.pathOut := by simp only [BuildSwapParams.poolOut, v3]
  unfold buildV3Swap at built
  dsimp only at built
  split at built
  · cases built
  obtain rfl := Except.ok.inj built
  have wrapped : p.tokenIn = none → p.pathIn = p.weth := by
    intro native
    rw [BuildSwapParams.pathIn, native]
    rfl
  simp only [BuiltSwap.execute, ne_eq, List.append_assoc, List.cons_append,
    List.nil_append, pool_minimum]
  rw [v3Swap_run (by exact wrapped)]
  dsimp only
  rw [← poolIn, ← poolOut]
  split
  next same => exact .noPool same
  next differ =>
  split
  next poor => exact .notAllowed (.inl poor.2)
  split
  next short => exact .onMinimum _ rfl differ short
  next passes =>
    have passes := Nat.le_of_not_lt passes
    rw [poolOut, distribute_run (net_of_grossMin below passes), ← poolOut]
    exact .delivered passes

theorem outcome (built : buildUniversalRouterSwap p = .ok plan) :
    Outcome p allowed g (plan.execute p.weth allowed g) := by
  unfold buildUniversalRouterSwap at built
  dsimp only at built
  split at built
  · cases built
  split at built
  next v4 => exact v4_outcome built v4
  next v3 => exact v3_outcome built v3

/-! ### Honoured swaps -/

/-- The account has the net amount, which meets the minimum, the treasury has the fee, and
nothing else has been paid out or is left in the router. -/
structure Delivers (p : BuildSwapParams) (g : Nat) (s : RouterState) : Prop where
  account : ∀ c, s.received .account c =
    if c = p.currencyOut then g - g * p.feeBps / bpsDenominator else 0
  treasury : ∀ c, s.received .treasury c =
    if c = p.poolOut then g * p.feeBps / bpsDenominator else 0
  minimum : p.minAmountOutNet ≤ g - g * p.feeBps / bpsDenominator
  router : ∀ c, s.held c = 0

/-- Whatever the account has allowed, a swap that succeeds delivers, and one whose delivery
leaves the net minimum does not revert on a minimum. -/
structure Honoured (p : BuildSwapParams) (plan : BuiltSwap) (g : Nat) : Prop where
  delivers : ∀ allowed s, plan.execute p.weth allowed g = .ok s → Delivers p g s
  accepted : p.minAmountOutNet ≤ (applyFee g p.feeBps).netAmount →
    ∀ allowed e, plan.execute p.weth allowed g = .error e → e.onMinimum = false

/-- A delivery that leaves the net minimum, and is below the gross one. -/
def InGap (p : BuildSwapParams) (g : Nat) : Prop :=
  p.minAmountOutNet * bpsDenominator < g * (bpsDenominator - p.feeBps) + bpsDenominator ∧
    (g + 1) * (bpsDenominator - p.feeBps) ≤ p.minAmountOutNet * bpsDenominator

instance (p : BuildSwapParams) (g : Nat) : Decidable (InGap p g) :=
  inferInstanceAs (Decidable (_ ∧ _))

theorem inGap_iff :
    InGap p g ↔ p.minAmountOutNet ≤ (applyFee g p.feeBps).netAmount ∧ g < p.grossMin := by
  have passes := grossMinForNet_le_iff (g := g) (m := p.minAmountOutNet) p.feeBps_lt
  rw [InGap, le_netAmount_iff p.feeBps_lt, ← Nat.not_le (b := g), BuildSwapParams.grossMin, passes,
    Nat.not_lt]

theorem paid_delivers (passes : p.grossMin ≤ g) :
    Delivers p g (paid p.poolOut (applyFee g p.feeBps).feeAmount p.currencyOut
      (applyFee g p.feeBps).netAmount) where
  account _ := rfl
  treasury _ := rfl
  minimum := net_of_grossMin p.feeBps_lt passes
  router _ := rfl

theorem honoured_iff (built : buildUniversalRouterSwap p = .ok plan) :
    Honoured p plan g ↔ p.poolIn = p.poolOut ∨ ¬InGap p g := by
  constructor
  · intro honoured
    by_contra! fails
    obtain ⟨differ, meets, short⟩ := fails.imp_right inGap_iff.1
    -- with the input allowed the pool is reached
    have ends := @outcome p plan p.amountIn g built
    generalize run : plan.execute p.weth p.amountIn g = r at ends
    cases ends with
    | noPool same => exact differ same
    | notAllowed poor => omega
    | onMinimum e minimum =>
      have other := honoured.accepted meets _ e run
      rw [minimum] at other
      cases other
    | delivered passes => omega
  · intro clear
    refine ⟨fun allowed s run => ?_, fun meets allowed e run => ?_⟩
    · have ends := @outcome p plan allowed g built
      rw [run] at ends
      cases ends with
      | delivered passes => exact paid_delivers passes
    · have ends := @outcome p plan allowed g built
      rw [run] at ends
      cases ends with
      | noPool => rfl
      | notAllowed => rfl
      | onMinimum _ _ differ short =>
        exact absurd (inGap_iff.2 ⟨meets, short⟩) (clear.resolve_left differ)

/-! The treasury has the rest. -/

theorem Delivers.whole {s : RouterState} (delivers : Delivers p g s) :
    s.received .account p.currencyOut + s.received .treasury p.poolOut = g := by
  rw [delivers.account, delivers.treasury, if_pos rfl, if_pos rfl]
  exact applyFee_add p.feeBps_lt

/-- At the quoted price a minimum with room for slippage is clear of the gap. -/
theorem not_inGap_of_slippage {slippageBps : Nat}
    (minimum : p.minAmountOutNet = applySlippage (applyFee g p.feeBps).netAmount slippageBps)
    (room : bpsDenominator ≤ (applyFee g p.feeBps).netAmount * slippageBps) :
    ¬InGap p g := by
  set net := (applyFee g p.feeBps).netAmount
  have rounded : p.minAmountOutNet * bpsDenominator ≤ net * (bpsDenominator - slippageBps) := by
    rw [minimum]
    exact Nat.div_mul_le_self _ _
  have quoted : net * bpsDenominator < g * (bpsDenominator - p.feeBps) + bpsDenominator :=
    (le_netAmount_iff p.feeBps_lt).1 (Nat.le_refl net)
  have share : net * (bpsDenominator - slippageBps) = net * bpsDenominator - net * slippageBps :=
    Nat.mul_sub ..
  have next : g * (bpsDenominator - p.feeBps) ≤ (g + 1) * (bpsDenominator - p.feeBps) :=
    Nat.mul_le_mul_right _ (Nat.le_succ g)
  rintro ⟨-, short⟩
  have positive : 0 < (g + 1) * (bpsDenominator - p.feeBps) :=
    Nat.mul_pos (Nat.succ_pos g) (Nat.sub_pos_of_lt p.feeBps_lt)
  generalize (g + 1) * (bpsDenominator - p.feeBps) = above at *
  omega

/-- A v4 swap of two ERC-20 tokens, with a fee of one percent and a minimum of 990000. -/
def onePercent : BuildSwapParams where
  route := { protocol := .v4, fee := 500, tickSpacing := some 10 }
  tokenIn := some 5
  tokenOut := some 7
  weth := 9
  amountIn := 1000000
  minAmountOutNet := 990000
  feeBps := 100
  treasury := some 11
  feeBps_lt := by decide

def onePercentPlan : BuiltSwap where
  commands := [.v4Swap [.swapExactInSingle ⟨5, 7, 500, 10⟩ true 1000000 1000000,
    .settleAll 5 1000000, .takePortion 7 .treasury 100, .takeAll 7 990000]]
  value := 0

theorem onePercent_honoured : Honoured onePercent onePercentPlan 1000000 :=
  (honoured_iff rfl).2 (.inr (by decide))

/-- The fresh quote is accepted with exactly the minimum, and the pool rejects the amount. -/
theorem accepted_reverts :
    buildUniversalRouterSwap onePercent = .ok onePercentPlan ∧
      onePercent.minAmountOutNet ≤ (applyFee 999999 onePercent.feeBps).netAmount ∧
      onePercentPlan.execute onePercent.weth onePercent.amountIn 999999 =
        .error .v4TooLittleReceived ∧
      ¬Honoured onePercent onePercentPlan 999999 := by
  refine ⟨rfl, by decide, rfl, fun honoured => ?_⟩
  exact Bool.noConfusion (honoured.accepted (by decide) 1000000 .v4TooLittleReceived rfl)

end ParmeliaLinks.Swap
