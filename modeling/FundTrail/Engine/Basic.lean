/-
  FundTrail.Engine.Basic
  ──────────────────────
  **WHAT BECOMES OF A TRANSACTION.**

  A block is worked off in two phases.  First every transaction is resolved:
  what it means, and for a swap everything that the chain has to say about it.
  Then the resolutions are booked, all in one transaction of the store.  A
  transaction of the block that cannot be resolved is skipped; it does not hold
  up the others.

  This module holds what passes between the phases.
-/
import FundTrail.Classification
import FundTrail.Swap.Price

namespace FundTrail

/-- What can be set about the booking of blocks. -/
structure Settings where
  /-- Transfers and swaps below this value are noise. -/
  minTransfer : Amount
  /-- Taken off every price, if set. -/
  fee : Option Fee
  deriving DecidableEq, Repr

/-- One ether, in wei. -/
def oneEther : Amount := ⟨10 ^ 18, by decide⟩

/-- Everything from one ether on, and no fee. -/
def Settings.default : Settings := ⟨oneEther, none⟩

/-! ## §1. Resolutions. -/

/-- Why a swap is skipped. -/
inductive SkipReason where
  | undecodable (error : DecodeError)
  | unpriced (error : PriceError)
  | unanswered (error : ChainError)
  deriving DecidableEq, Repr

/-- The wording of a skipped swap. -/
def SkipReason.message : SkipReason → String
  | .undecodable error => "decode failed: " ++ error.message
  | .unpriced error => "pricing failed: " ++ error.message
  | .unanswered error => "chain lookup failed: " ++ error.message

/-- A swap with everything that the chain has to say about it. -/
structure PricedSwap where
  txHash : Hash
  wallet : Address
  factory : Address
  call : SwapCall
  /-- The tokens of the path, in order, with what they say of themselves. -/
  tokens : List (Address × Metadata)
  price : Amount
  deriving DecidableEq, Repr

/-- What is to be booked for a transaction. -/
inductive Resolution where
  | transfer (exchange : String) (recipient : Address) (value : Amount)
  | swap (swap : PricedSwap)
  | skipped (reason : SkipReason)
  | ignored (reason : IgnoreReason)
  deriving DecidableEq, Repr

/-- The wallets that an exchange funds by it. -/
def Resolution.funded : Resolution → List Address
  | .transfer _ recipient _ => [recipient]
  | _ => []

/-! ## §2. Outcomes. -/

/-- What has been done about a transaction. -/
inductive Outcome where
  | transfer
  | swap
  | skipped
  | ignored
  deriving DecidableEq, Repr

/-- The account of a block that has been booked. -/
structure Summary where
  block : Height
  transactions : Nat
  transfers : Nat
  swaps : Nat
  skipped : Nat
  ignored : Nat
  deriving DecidableEq, Repr

/-- The account of a block, from the outcomes of its transactions. -/
def Summary.ofOutcomes (block : Height) (outcomes : List Outcome) : Summary where
  block := block
  transactions := outcomes.length
  transfers := outcomes.count .transfer
  swaps := outcomes.count .swap
  skipped := outcomes.count .skipped
  ignored := outcomes.count .ignored

/-- Every transaction has exactly one outcome. -/
theorem Summary.ofOutcomes_total (block : Height) (outcomes : List Outcome) :
    let s := Summary.ofOutcomes block outcomes
    s.transfers + s.swaps + s.skipped + s.ignored = s.transactions := by
  show outcomes.count .transfer + outcomes.count .swap + outcomes.count .skipped
    + outcomes.count .ignored = outcomes.length
  induction outcomes with
  | nil => rfl
  | cons o os ih =>
    rw [List.length_cons, ← ih]
    cases o <;> simp <;> omega

end FundTrail
