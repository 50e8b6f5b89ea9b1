/-
  FundTrail.Record
  ────────────────
  **WHAT IS REMEMBERED: THE SIX KINDS OF RECORDS.**

  Exchanges are known beforehand.  A wallet that one of them funds becomes an
  account; the tokens that accounts buy, the single swaps, and the pairs "funded
  by this exchange, bought that token" are counted; and the cursor names the
  last block whose effects are in the books.

  Totals and counters saturate.  A token's price is the one of the first
  purchase that had a price at all.
-/
import FundTrail.Bytes
import FundTrail.NameSet

namespace FundTrail

/-! ## §1. The records. -/

/-- A wallet known to belong to an exchange. -/
structure Exchange where
  name : String
  address : Address
  deriving DecidableEq, Repr

/-- A wallet that received funds from at least one exchange. -/
structure Account where
  address : Address
  totalReceived : Amount
  totalSpent : Amount
  /-- The names of all exchanges that have funded the wallet. -/
  fromExchanges : NameSet
  deriving DecidableEq, Repr

/-- A token on the path of some account's swap. -/
structure Token where
  address : Address
  symbol : String
  decimals : UInt8
  /-- The price at first sight, in wei for one whole token; zero until known. -/
  price : Amount
  totalBought : Amount
  timesBought : Count
  deriving DecidableEq, Repr

/-- The pair that names a pattern. -/
structure PatternKey where
  token : Address
  exchange : String
  deriving DecidableEq, Repr

/-- "Wallets funded by `exchange` went on to buy `token`." -/
structure Pattern where
  token : Address
  exchange : String
  value : Amount
  timesOccurred : Count
  deriving DecidableEq, Repr

/-- One swap, named by the hash of its transaction. -/
structure Swap where
  txHash : Hash
  wallet : Address
  token : Address
  path : List Address
  factory : Address
  price : Amount
  value : Amount
  deriving DecidableEq, Repr

/-- The last block whose effects are in the books. -/
structure Cursor where
  number : Height
  hash : Hash
  /-- Unix seconds at the time of writing. -/
  updatedAt : Int64
  deriving DecidableEq, Repr

/-! ## §2. Accounts. -/

namespace Account

/-- A wallet that has neither received nor spent anything. -/
def new (address : Address) : Account := ⟨address, 0, 0, .empty⟩

/-- Credit a transfer that comes out of `exchange`. -/
def recordTransfer (a : Account) (exchange : String) (value : Amount) : Account :=
  { a with
    totalReceived := a.totalReceived.satAdd value
    fromExchanges := a.fromExchanges.insert exchange }

/-- Debit what a swap has spent. -/
def recordSpend (a : Account) (value : Amount) : Account :=
  { a with totalSpent := a.totalSpent.satAdd value }

end Account

/-! ## §3. Tokens. -/

namespace Token

/-- A token that nobody has bought yet. -/
def new (address : Address) (symbol : String) (decimals : UInt8) : Token :=
  ⟨address, symbol, decimals, 0, 0, 0⟩

/-- One whole token in base units, `10 ^ decimals`, if that is an amount. -/
def unit? (decimals : UInt8) : Option Amount := Word.ofNat? (10 ^ decimals.toNat)

/-- One whole unit of this token in base units. -/
def denominator? (t : Token) : Option Amount := unit? t.decimals

/-- Whether a purchase at `price` is the first one that has a price. -/
def setsPrice (t : Token) (price : Amount) : Bool := t.price = 0 ∧ price ≠ 0

/-- Count one purchase of `value` wei at `price`.  The price is kept only if no
purchase before it had one. -/
def recordPurchase (t : Token) (price value : Amount) : Token :=
  { t with
    price := if t.setsPrice price then price else t.price
    totalBought := t.totalBought.satAdd value
    timesBought := t.timesBought.next }

end Token

/-! ## §4. Patterns. -/

namespace Pattern

/-- A pattern that has not occurred yet. -/
def new (token : Address) (exchange : String) : Pattern := ⟨token, exchange, 0, 0⟩

/-- Count one more occurrence, worth `value` wei. -/
def record (p : Pattern) (value : Amount) : Pattern :=
  { p with
    value := p.value.satAdd value
    timesOccurred := p.timesOccurred.next }

/-- The pair that names the pattern. -/
def key (p : Pattern) : PatternKey := ⟨p.token, p.exchange⟩

end Pattern

end FundTrail
