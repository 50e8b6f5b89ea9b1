/-
  FundTrail.Swap.Price
  ────────────────────
  **WHAT A TOKEN COSTS ALONG A PATH.**

  Each hop of a path is a pair of tokens with reserves.  An amount is taken
  through a hop by the ratio of the reserves, rounded down.  A price starts from
  one whole unit of the last token and goes through the hops in path order; a
  fee may be taken off in the end.

  Amounts are below `2 ^ 256`, products are not: a hop multiplies exactly and
  complains only if the quotient does not fit.
-/
import FundTrail.Chain.Basic
import FundTrail.Record

namespace FundTrail

/-- The reserves of a hop: of the token that goes in, and of the one that comes
out. -/
structure Reserves where
  reserveIn : Amount
  reserveOut : Amount
  deriving DecidableEq, Repr

/-- A factor in hundredths of a percent, applied to a price: 9700 is 0.97. -/
abbrev Fee := Word 32

/-- Why a swap has no price. -/
inductive PriceError where
  /-- The hop with this number has nothing to give out. -/
  | zeroReserve (hop : Nat)
  | overflow
  | decimalsOutOfRange (decimals : UInt8)
  /-- A path of `length` tokens has no hop. -/
  | shortPath (length : Nat)
  | identicalAddresses (token : Address)
  | zeroAddress
  | chain (error : ChainError)
  deriving DecidableEq, Repr

/-- The wording of a price that cannot be found. -/
def PriceError.message : PriceError → String
  | .zeroReserve hop => s!"hop {hop} has an empty output reserve"
  | .overflow => "price does not fit in 256 bits"
  | .decimalsOutOfRange decimals => s!"{decimals.toNat} decimals is out of range"
  | .shortPath length => s!"path needs at least two tokens, got {length}"
  | .identicalAddresses token => "identical addresses in hop " ++ token.text
  | .zeroAddress => "zero address in swap path"
  | .chain error => error.message

/-! ## §1. Through the hops. -/

/-- `amount * num / den`, rounded down, if that is an amount. -/
def scale? (amount : Amount) (num den : Nat) : Option Amount :=
  Word.ofNat? (amount.toNat * num / den)

/-- An amount taken through hops, the first of which has number `hop`. -/
def priceFrom (hop : Nat) (amount : Amount) : List Reserves → Except PriceError Amount
  | [] => .ok amount
  | r :: rs =>
      if r.reserveOut = 0 then .error (.zeroReserve hop)
      else
        match scale? amount r.reserveIn.toNat r.reserveOut.toNat with
        | some scaled => priceFrom (hop + 1) scaled rs
        | none => .error .overflow

/-- An amount taken through hops. -/
def price (amount : Amount) (rs : List Reserves) : Except PriceError Amount :=
  priceFrom 0 amount rs

/-- The price less the fee. -/
def Fee.apply (fee : Fee) (amount : Amount) : Except PriceError Amount :=
  match scale? amount fee.toNat 10000 with
  | some scaled => .ok scaled
  | none => .error .overflow

/-! ## §2. Reserves of a path. -/

/-- The reserves of a pair as seen from `a`: what a pair holds is listed by
ascending address. -/
def orient (a b : Address) (raw : PairReserves) : Except PriceError Reserves :=
  if a = .zero ∨ b = .zero then .error .zeroAddress
  else if a = b then .error (.identicalAddresses a)
  else if a < b then .ok ⟨raw.first, raw.second⟩
  else .ok ⟨raw.second, raw.first⟩

/-- The hops of a path: its neighbours. -/
def hops (path : List Address) : List (Address × Address) := path.zip path.tail

variable {σ : Type}

/-- Ask for the reserves of hops, in order, up to the first failure. -/
def reservesOfHops (m : Market σ) (factory : Address) :
    List (Address × Address) → Asking σ PriceError (List Reserves)
  | [] => pure []
  | (a, b) :: rest => do
      let raw ← (m.reservesOf factory a b).withError .chain
      let r ← Asking.ofExcept (orient a b raw)
      let rs ← reservesOfHops m factory rest
      pure (r :: rs)

/-- Ask for the reserves along a path. -/
def reservesAlong (m : Market σ) (factory : Address) (path : List Address) :
    Asking σ PriceError (List Reserves) :=
  if path.length < 2 then Asking.fail (.shortPath path.length)
  else reservesOfHops m factory (hops path)

/-- The price of a whole unit of a path's last token, given the decimals of that
token, less a fee if there is one. -/
def pathPrice (m : Market σ) (factory : Address) (path : List Address) (decimals : UInt8)
    (fee : Option Fee) : Asking σ PriceError Amount :=
  match Token.unit? decimals with
  | none => Asking.fail (.decimalsOutOfRange decimals)
  | some unit => do
      let rs ← reservesAlong m factory path
      let value ← Asking.ofExcept (price unit rs)
      match fee with
      | some fee => Asking.ofExcept (fee.apply value)
      | none => pure value

end FundTrail
