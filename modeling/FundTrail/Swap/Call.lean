/-
  FundTrail.Swap.Call
  ───────────────────
  **SWAP CALLS IN THE INPUT OF A TRANSACTION.**

  Two router methods swap ether for tokens along a path.  A call is four bytes
  that select the method, then the arguments: an amount, the path, the
  recipient, the deadline.  The ether that goes in is the transaction's value;
  the amount among the arguments speaks of what comes out.
-/
import FundTrail.Abi

namespace FundTrail

/-- The bytes that select a method. -/
abbrev Selector := FixedBytes 4

/-- The router methods that swap ether for tokens. -/
inductive SwapMethod where
  /-- All the ether, for at least the amount of tokens. -/
  | exactEthForTokens
  /-- Exactly the amount of tokens, for at most the ether. -/
  | ethForExactTokens
  deriving DecidableEq, Repr

namespace SwapMethod

/-- The bytes that select the method. -/
def selector : SwapMethod → Selector
  | .exactEthForTokens => ⟨[0x7f, 0xf3, 0x6a, 0xb5], rfl⟩
  | .ethForExactTokens => ⟨[0xfb, 0x3b, 0xdb, 0x41], rfl⟩

/-- The method that the bytes select. -/
def ofSelector? (s : Selector) : Option SwapMethod :=
  if s = selector .exactEthForTokens then some .exactEthForTokens
  else if s = selector .ethForExactTokens then some .ethForExactTokens
  else none

/-- The method's name in the router's interface. -/
def name : SwapMethod → String
  | .exactEthForTokens => "swapExactETHForTokens"
  | .ethForExactTokens => "swapETHForExactTokens"

end SwapMethod

/-- The first four bytes of an input. -/
def selector? (input : Bytes) : Option Selector := FixedBytes.ofList? (input.take 4)

/-- A call of a swap method. -/
structure SwapCall where
  method : SwapMethod
  /-- The ether that goes in. -/
  amountIn : Amount
  /-- What has to come out, at least or exactly. -/
  amountOut : Amount
  tokenIn : Address
  tokenOut : Address
  path : List Address
  recipient : Address
  deadline : Amount
  deriving DecidableEq, Repr

/-- Why an input is no swap call. -/
inductive DecodeError where
  | unknownMethod (selector : Selector)
  /-- The input has only `length` bytes. -/
  | missingSelector (length : Nat)
  | noArguments
  | badArguments
  | emptyPath
  deriving DecidableEq, Repr

/-- The wording of a call that cannot be decoded. -/
def DecodeError.message : DecodeError → String
  | .unknownMethod s => "unknown method selector " ++ s.text
  | .missingSelector length =>
      s!"call data shorter than a selector ({length} bytes)"
  | .noArguments =>
      "malformed arguments: Invalid name: please ensure the contract and method you're calling exist! failed to decode empty bytes. if you're using jsonrpc this is likely due to jsonrpc returning `0x` in case contract or method don't exist"
  | .badArguments => "malformed arguments: Invalid data"
  | .emptyPath => "swap path is empty"

namespace SwapCall

/-- The amount, the path, the recipient and the deadline in the arguments. -/
def arguments? (args : Bytes) : Option (Amount × List Address × Address × Amount) := do
  let amount ← Abi.amountAt? args 0
  let path ← Abi.addressesAt? args 32
  let recipient ← Abi.addressAt? args 64
  let deadline ← Abi.amountAt? args 96
  pure (amount, path, recipient, deadline)

/-- The call of the method that `s` selects. -/
def decodeArguments (s : Selector) (args : Bytes) (value : Amount) :
    Except DecodeError SwapCall :=
  match SwapMethod.ofSelector? s with
  | none => .error (.unknownMethod s)
  | some method =>
    if args.isEmpty then .error .noArguments
    else
      match arguments? args with
      | none => .error .badArguments
      | some (amount, path, recipient, deadline) =>
        match path.head?, path.getLast? with
        | some first, some last =>
            .ok ⟨method, value, amount, first, last, path, recipient, deadline⟩
        | _, _ => .error .emptyPath

/-- The call in a transaction's input. -/
def decode (input : Bytes) (value : Amount) : Except DecodeError SwapCall :=
  match selector? input with
  | none => .error (.missingSelector input.length)
  | some s => decodeArguments s (input.drop 4) value

end SwapCall

end FundTrail
