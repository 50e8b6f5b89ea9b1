/-
  FundTrail.Engine.Resolution
  ───────────────────────────
  **THE FIRST PHASE: RESOLVING TRANSACTIONS.**

  Transactions are resolved in block order against the books as they are before
  the block.  A wallet is followed if it has an account there, or if an earlier
  transaction of the block has funded it.

  For a swap the chain is asked for the router's factory, for what each token of
  the path says of itself, and for the reserves of each hop.  Factories are
  remembered for good.  What a token says is taken from its row in the books if
  it has one, and else remembered until the block is done.  Reserves are asked
  for every time.  Failures are not remembered at all.

  Main definitions: `resolveSwap`, `resolve` and `resolveAll`.
-/
import FundTrail.Engine.Basic

namespace FundTrail

open FundTrail.Store

/-- What is at hand while a block is resolved. -/
structure Desk (σ : Type) where
  chain : σ
  /-- The factories of routers, as far as they are known. -/
  factories : List (Address × Address)
  /-- What tokens have said of themselves in this block. -/
  metadata : List (Address × Metadata)
  /-- The swaps that have been skipped, in order. -/
  skips : List (Hash × SkipReason)

/-- Why a swap cannot be booked. -/
inductive Setback where
  /-- It is skipped. -/
  | skip (reason : SkipReason)
  /-- The books cannot be read. -/
  | halt (error : StoreError)
  deriving DecidableEq, Repr

namespace Desk

variable {σ ε α : Type}

/-- A question to the chain. -/
def ask (question : Asking σ ε α) : Asking (Desk σ) ε α := fun d =>
  let (x, chain) := question d.chain
  (x, { d with chain })

/-- The factory of a router. -/
def factoryOf (m : Market σ) (router : Address) : Asking (Desk σ) ChainError Address := fun d =>
  match d.factories.lookup router with
  | some factory => (.ok factory, d)
  | none =>
    match m.factoryOf router d.chain with
    | (.ok factory, chain) =>
        (.ok factory, { d with chain, factories := (router, factory) :: d.factories })
    | (.error e, chain) => (.error e, { d with chain })

/-- Remember for this block what a token says of itself. -/
def remember (token : Address) (answer : Metadata) : Asking (Desk σ) ε Metadata := fun d =>
  (.ok answer, { d with metadata := (token, answer) :: d.metadata })

/-- What a token says of itself. -/
def metadataOf (m : Market σ) (books : Books) (token : Address) :
    Asking (Desk σ) Setback Metadata := fun d =>
  match d.metadata.lookup token with
  | some known => (.ok known, d)
  | none =>
    match books.find? .tokens token with
    | .error e => (.error (.halt e), d)
    | .ok (some row) => remember token ⟨row.symbol, row.decimals⟩ d
    | .ok none =>
      match m.metadataOf token d.chain with
      | (.ok answer, chain) => remember token answer { d with chain }
      | (.error e, chain) => (.error (.skip (.unanswered e)), { d with chain })

/-- What the tokens of a path say of themselves. -/
def metadataAlong (m : Market σ) (books : Books) :
    List Address → Asking (Desk σ) Setback (List (Address × Metadata))
  | [] => pure []
  | token :: path => do
      let answer ← metadataOf m books token
      let answers ← metadataAlong m books path
      pure ((token, answer) :: answers)

end Desk

variable {σ : Type}

/-- Find out everything about a swap call of a wallet. -/
def resolveSwap (m : Market σ) (fee : Option Fee) (books : Books) (tx : Transaction)
    (wallet router : Address) : Asking (Desk σ) Setback PricedSwap := do
  let call ← Asking.ofExcept
    ((SwapCall.decode tx.input tx.value).mapError fun e => .skip (.undecodable e))
  let factory ← (Desk.factoryOf m router).withError fun e => .skip (.unanswered e)
  let tokens ← Desk.metadataAlong m books call.path
  match tokens.getLast? with
  | none => Asking.fail (.skip (.undecodable .emptyPath))
  | some (_, last) =>
      let price ← (Desk.ask (pathPrice m factory call.path last.decimals fee)).withError
        fun e => .skip (.unpriced e)
      pure ⟨tx.hash, wallet, factory, call, tokens, price⟩

/-- Whether a wallet is followed; `funded` are those that the block has funded so
far. -/
def isFollowed (books : Books) (funded : List Address) (wallet : Address) : Bool :=
  funded.contains wallet || books.has .accounts wallet

/-- What a transaction means, as far as the books and the block tell. -/
def classOf (exchanges : ExchangeSet) (settings : Settings) (books : Books)
    (funded : List Address) (tx : Transaction) : Classification :=
  Id.run (classify exchanges settings.minTransfer
    (fun wallet => pure (isFollowed books funded wallet)) tx)

/-- Resolve one transaction. -/
def resolve (m : Market σ) (exchanges : ExchangeSet) (settings : Settings) (books : Books)
    (funded : List Address) (tx : Transaction) : Asking (Desk σ) StoreError Resolution :=
  match classOf exchanges settings books funded tx with
  | .transfer exchange recipient value => pure (.transfer exchange recipient value)
  | .ignored reason => pure (.ignored reason)
  | .swapCall wallet router _ => fun d =>
    match resolveSwap m settings.fee books tx wallet router d with
    | (.ok swap, d) => (.ok (.swap swap), d)
    | (.error (.skip reason), d) =>
        (.ok (.skipped reason), { d with skips := d.skips ++ [(tx.hash, reason)] })
    | (.error (.halt e), d) => (.error e, d)

/-- Resolve transactions in order. -/
def resolveAll (m : Market σ) (exchanges : ExchangeSet) (settings : Settings) (books : Books) :
    List Address → List Transaction → Asking (Desk σ) StoreError (List Resolution)
  | _, [] => pure []
  | funded, tx :: txs => do
      let r ← resolve m exchanges settings books funded tx
      let rs ← resolveAll m exchanges settings books (r.funded ++ funded) txs
      pure (r :: rs)

end FundTrail
