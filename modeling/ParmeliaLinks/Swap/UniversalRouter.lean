/-
ParmeliaLinks/Swap/UniversalRouter.lean

What the Universal Router does with the commands that are used, and the pool manager with
the actions.  The caller is an account; what a pool delivers for the input is given from
outside, as is what the account has allowed the router to take.

Portions are rounded down.  A swap, a sweep, an unwrap and a take of all have a minimum each,
and revert below it.  When the actions are through, every delta has to be settled.

The router holds nothing in between two executions.
-/
import Mathlib.Algebra.Group.Int.Defs
import Mathlib.Algebra.Group.Nat.Defs
import Mathlib.Data.List.Basic

namespace ParmeliaLinks.Swap

/-- The address of a token; the native currency has the address zero. -/
abbrev Address := Nat

def nativeCurrency : Address := 0

def bpsDenominator : Nat := 10000

/-- Who gets what a command pays out. -/
inductive Recipient | account | treasury | router
  deriving DecidableEq

structure PoolKey where
  currency0 : Address
  currency1 : Address
  fee : Nat
  tickSpacing : Int
  deriving DecidableEq

inductive V4Action
  | swapExactInSingle (poolKey : PoolKey) (zeroForOne : Bool) (amountIn amountOutMinimum : Nat)
  | settleAll (currency : Address) (maxAmount : Nat)
  | takePortion (currency : Address) (recipient : Recipient) (bips : Nat)
  | takeAll (currency : Address) (minAmount : Nat)
  deriving DecidableEq

/-- The tokens of a pool, and its fee. -/
structure V3Path where
  tokenIn : Address
  fee : Nat
  tokenOut : Address
  deriving DecidableEq

inductive Command
  | wrapEth (recipient : Recipient) (amount : Nat)
  | v3SwapExactIn (recipient : Recipient) (amountIn amountOutMin : Nat) (path : V3Path)
    (payerIsUser : Bool)
  | payPortion (token : Address) (recipient : Recipient) (bips : Nat)
  | sweep (token : Address) (recipient : Recipient) (amountMin : Nat)
  | unwrapWeth (recipient : Recipient) (amountMin : Nat)
  | v4Swap (actions : List V4Action)
  deriving DecidableEq

inductive Revert
  | v3TooLittleReceived
  | v4TooLittleReceived
  | insufficientToken
  | insufficientEth
  | noPool
  | invalidBips
  | notAllowed
  | v4TooMuchRequested
  | deltaNotPositive
  | currencyNotSettled
  deriving DecidableEq

/-- A minimum was not met. -/
def Revert.onMinimum : Revert → Bool
  | .v3TooLittleReceived | .v4TooLittleReceived | .insufficientToken | .insufficientEth => true
  | _ => false

/-- What the outside contributes: the amount that the pool delivers, the input that the account
has allowed the router to take, and the address of the wrapped native currency. -/
structure Chain where
  delivered : Nat
  allowed : Nat
  weth : Address

/-- What the router holds, what it has paid out, and the deltas of the pool manager. -/
structure RouterState where
  held : Address → Nat
  received : Recipient → Address → Nat
  delta : Address → Int

namespace RouterState

/-- The state in which an execution starts, with the value that is attached. -/
def start (value : Nat) : RouterState where
  held c := if c = nativeCurrency then value else 0
  received _ _ := 0
  delta _ := 0

variable (s : RouterState)

def give (c : Address) (amount : Nat) : RouterState :=
  { s with held := fun c' => if c' = c then s.held c' + amount else s.held c' }

def take (c : Address) (amount : Nat) : RouterState :=
  { s with held := fun c' => if c' = c then s.held c' - amount else s.held c' }

def change (c : Address) (by' : Int) : RouterState :=
  { s with delta := fun c' => if c' = c then s.delta c' + by' else s.delta c' }

/-- A payment; what is paid to the router itself is held by it. -/
def pay (recipient : Recipient) (c : Address) (amount : Nat) : RouterState :=
  match recipient with
  | .router => s.give c amount
  | r => { s with received := fun r' c' =>
      if r' = r ∧ c' = c then s.received r' c' + amount else s.received r' c' }

end RouterState

/-! ### Actions -/

/-- The input of an action or a command, out of what the account has allowed; the native
currency comes with the call. -/
def pull (chain : Chain) (c : Address) (amount : Nat) (s : RouterState) :
    Except Revert RouterState :=
  if c = nativeCurrency then
    if s.held c < amount then .error .notAllowed else .ok (s.take c amount)
  else if chain.allowed < amount then .error .notAllowed else .ok s

def V4Action.run (chain : Chain) : V4Action → RouterState → Except Revert RouterState
  | .swapExactInSingle key zeroForOne amountIn amountOutMinimum, s =>
    let currencyIn := if zeroForOne then key.currency0 else key.currency1
    let currencyOut := if zeroForOne then key.currency1 else key.currency0
    if key.currency1 ≤ key.currency0 then .error .noPool
    else if chain.delivered < amountOutMinimum then .error .v4TooLittleReceived
    else .ok ((s.change currencyIn (-amountIn)).change currencyOut chain.delivered)
  | .settleAll c maxAmount, s =>
    let amount := (-s.delta c).toNat
    if maxAmount < amount then .error .v4TooMuchRequested
    else (pull chain c amount s).map fun s => s.change c amount
  | .takePortion c recipient bips, s =>
    if bpsDenominator < bips then .error .invalidBips
    else if s.delta c < 0 then .error .deltaNotPositive
    else
      let amount := (s.delta c).toNat * bips / bpsDenominator
      .ok ((s.change c (-amount)).pay recipient c amount)
  | .takeAll c minAmount, s =>
    if s.delta c < 0 then .error .deltaNotPositive
    else
      let amount := (s.delta c).toNat
      if amount < minAmount then .error .v4TooLittleReceived
      else .ok ((s.change c (-amount)).pay .account c amount)

/-- The currencies whose deltas an action changes. -/
def V4Action.currencies : V4Action → List Address
  | .swapExactInSingle key _ _ _ => [key.currency0, key.currency1]
  | .settleAll c _ => [c]
  | .takePortion c _ _ => [c]
  | .takeAll c _ => [c]

def runActions (chain : Chain) : List V4Action → RouterState → Except Revert RouterState
  | [], s => .ok s
  | a :: actions, s => (a.run chain s).bind (runActions chain actions)

/-! ### Commands -/

def Command.run (chain : Chain) : Command → RouterState → Except Revert RouterState
  | .wrapEth recipient amount, s =>
    if s.held nativeCurrency < amount then .error .insufficientEth
    else .ok ((s.take nativeCurrency amount).pay recipient chain.weth amount)
  | .v3SwapExactIn recipient amountIn amountOutMin path payerIsUser, s =>
    if path.tokenIn = path.tokenOut then .error .noPool
    else
      let paid : Except Revert RouterState :=
        if payerIsUser then
          if chain.allowed < amountIn then .error .notAllowed else .ok s
        else if s.held path.tokenIn < amountIn then .error .notAllowed
        else .ok (s.take path.tokenIn amountIn)
      paid.bind fun s =>
        if chain.delivered < amountOutMin then .error .v3TooLittleReceived
        else .ok (s.pay recipient path.tokenOut chain.delivered)
  | .payPortion token recipient bips, s =>
    if bips = 0 ∨ bpsDenominator < bips then .error .invalidBips
    else
      let amount := s.held token * bips / bpsDenominator
      .ok ((s.take token amount).pay recipient token amount)
  | .sweep token recipient amountMin, s =>
    let amount := s.held token
    if amount < amountMin then .error .insufficientToken
    else .ok ((s.take token amount).pay recipient token amount)
  | .unwrapWeth recipient amountMin, s =>
    let amount := s.held chain.weth
    if amount < amountMin then .error .insufficientEth
    else .ok ((s.take chain.weth amount).pay recipient nativeCurrency amount)
  | .v4Swap actions, s =>
    (runActions chain actions s).bind fun s =>
      if ∀ c ∈ actions.flatMap V4Action.currencies, s.delta c = 0 then .ok s
      else .error .currencyNotSettled

def runCommands (chain : Chain) : List Command → RouterState → Except Revert RouterState
  | [], s => .ok s
  | c :: commands, s => (c.run chain s).bind (runCommands chain commands)

end ParmeliaLinks.Swap
