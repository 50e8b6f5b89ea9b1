/-
  FundTrail.Classification
  ────────────────────────
  **WHAT A TRANSACTION MEANS.**

  A transaction is a transfer out of an exchange, a swap call of a wallet that
  is followed, or noise.  Whether a wallet is followed is the only question that
  the transaction and the list of exchanges cannot answer; it is asked last, and
  only if everything else speaks for a swap.

  Main definitions: `judge` — what can be said without asking — and `classify`,
  which asks at most once.
-/
import FundTrail.Record
import FundTrail.Store.Books
import FundTrail.Chain.Basic
import FundTrail.Swap.Call

namespace FundTrail

/-! ## §1. The exchanges. -/

/-- The known wallets of exchanges, each with a name. -/
structure ExchangeSet where
  names : List (Address × String)
  deriving DecidableEq, Repr

namespace ExchangeSet

/-- No exchanges. -/
def empty : ExchangeSet := ⟨[]⟩

/-- Name the wallet of one more exchange; a later name replaces an earlier one. -/
def add (x : ExchangeSet) (e : Exchange) : ExchangeSet :=
  ⟨(e.address, e.name) :: x.names.filter fun entry => entry.1 ≠ e.address⟩

/-- The exchanges of a list; of two entries for one wallet the last counts. -/
def ofList (es : List Exchange) : ExchangeSet := es.foldl add empty

/-- The exchanges in the books. -/
def load (books : Store.Books) : Except Store.StoreError ExchangeSet :=
  (books.all .exchanges).map ofList

/-- The name of the exchange that owns a wallet. -/
def nameOf? (x : ExchangeSet) (wallet : Address) : Option String := x.names.lookup wallet

/-- Whether a wallet belongs to an exchange. -/
def contains (x : ExchangeSet) (wallet : Address) : Bool := (x.nameOf? wallet).isSome

/-- The number of wallets. -/
def size (x : ExchangeSet) : Nat := x.names.length

end ExchangeSet

/-! ## §2. Classes. -/

/-- Why a transaction is noise. -/
inductive IgnoreReason where
  | contractCreation
  | belowThreshold
  | exchangeRecipient
  | untrackedSender
  | shortCallData
  | unknownSelector
  deriving DecidableEq, Repr

/-- What a transaction means. -/
inductive Classification where
  /-- Funds leave an exchange. -/
  | transfer (exchange : String) (recipient : Address) (value : Amount)
  /-- A wallet that is followed calls a swap method of a router. -/
  | swapCall (wallet router : Address) (method : SwapMethod)
  | ignored (reason : IgnoreReason)
  deriving DecidableEq, Repr

/-- What can be said of a transaction without knowing who is followed. -/
inductive Judgement where
  | settled (result : Classification)
  /-- A swap call, if the wallet is followed. -/
  | swapIfTracked (wallet router : Address) (method : SwapMethod)
  deriving DecidableEq, Repr

/-- Judge a transaction by itself.  Exchanges come first: neither what they
receive nor what passes between them says anything. -/
def judge (exchanges : ExchangeSet) (minValue : Amount) (tx : Transaction) : Judgement :=
  match tx.recipient with
  | none => .settled (.ignored .contractCreation)
  | some recipient =>
    if tx.value < minValue then .settled (.ignored .belowThreshold)
    else if exchanges.contains recipient then .settled (.ignored .exchangeRecipient)
    else
      match exchanges.nameOf? tx.sender with
      | some exchange => .settled (.transfer exchange recipient tx.value)
      | none =>
        match selector? tx.input with
        | none => .settled (.ignored .shortCallData)
        | some s =>
          match SwapMethod.ofSelector? s with
          | none => .settled (.ignored .unknownSelector)
          | some method => .swapIfTracked tx.sender recipient method

/-- Classify a transaction; `isTracked` says whether a wallet is followed. -/
def classify {m : Type → Type} [Monad m] (exchanges : ExchangeSet) (minValue : Amount)
    (isTracked : Address → m Bool) (tx : Transaction) : m Classification :=
  match judge exchanges minValue tx with
  | .settled result => pure result
  | .swapIfTracked wallet router method => do
      if ← isTracked wallet then pure (.swapCall wallet router method)
      else pure (.ignored .untrackedSender)

end FundTrail
