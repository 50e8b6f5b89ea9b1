/-
  FundTrail.Chain.Basic
  ─────────────────────
  **WHAT A CHAIN TELLS: BLOCKS, TRANSACTIONS, RESERVES.**

  A chain is asked questions, and its answers may fail and may change from one
  question to the next.  `Asking σ ε α` is a question put to a chain whose state
  is `σ`: it gives an answer or an error, and the state from which the next
  question is answered — after an error as well.

  A `Market` answers what the price of a swap needs.  Where blocks come from is
  described in `FundTrail.Stream`.
-/
import FundTrail.Bytes
import FundTrail.Span

namespace FundTrail

/-! ## §1. Data. -/

/-- The announcement of a block. -/
structure Header where
  number : Height
  hash : Hash
  deriving DecidableEq, Repr

/-- A transaction, as far as it matters here. -/
structure Transaction where
  hash : Hash
  sender : Address
  /-- None if the transaction creates a contract. -/
  recipient : Option Address
  value : Amount
  input : Bytes
  deriving DecidableEq, Repr

/-- A block with all its transactions. -/
structure Batch where
  number : Height
  hash : Hash
  transactions : List Transaction
  deriving DecidableEq, Repr

/-- The announcement of the batch's block. -/
def Batch.header (b : Batch) : Header := ⟨b.number, b.hash⟩

/-- What a pair of tokens holds, in the pair's own order: the token with the
smaller address comes first. -/
structure PairReserves where
  first : Amount
  second : Amount
  deriving DecidableEq, Repr

/-- What a token says of itself. -/
structure Metadata where
  symbol : String
  decimals : UInt8
  deriving DecidableEq, Repr

/-- Which block a reader looked for in vain. -/
inductive Missing where
  | text (description : String)
  /-- A block without a number is still pending. -/
  | noNumber
  | noHash (number : Height)
  | hash (hash : Hash)
  | number (number : Height)
  deriving DecidableEq, Repr

/-- Names the missing block. -/
def Missing.message : Missing → String
  | .text description => description
  | .noNumber => "pending block has no number"
  | .noHash n => s!"block {n.toNat} has no hash"
  | .hash h => "Hash(" ++ h.text ++ ")"
  | .number n => s!"Number(Number({n.toNat}))"

/-- Why a chain gave no answer. -/
inductive ChainError where
  | provider (reason : String)
  | contract (reason : String)
  | timeout (after : Span)
  | blockNotFound (missing : Missing)
  | subscriptionClosed
  | pairNotFound (tokenA tokenB : Address)
  deriving DecidableEq, Repr

/-- The wording of a chain's failure. -/
def ChainError.message : ChainError → String
  | .provider reason => "provider error: " ++ reason
  | .contract reason => "contract call failed: " ++ reason
  | .timeout after => "request timed out after " ++ after.text
  | .blockNotFound missing => "block not found: " ++ missing.message
  | .subscriptionClosed => "header subscription closed"
  | .pairNotFound a b => "no pair for " ++ a.text ++ "/" ++ b.text

/-- The batch of a full block; a block that is still pending has no number or
no hash and makes no batch. -/
def Batch.ofBlock (number : Option Height) (hash : Option Hash)
    (transactions : List Transaction) : Except ChainError Batch :=
  match number, hash with
  | none, _ => .error (.blockNotFound .noNumber)
  | some n, none => .error (.blockNotFound (.noHash n))
  | some n, some h => .ok ⟨n, h, transactions⟩

/-! ## §2. Questions. -/

/-- A question to a chain in state `σ`. -/
def Asking (σ ε α : Type) : Type := σ → Except ε α × σ

namespace Asking

variable {σ ε ε' α β : Type}

/-- Answer without asking. -/
def answer (x : α) : Asking σ ε α := fun s => (.ok x, s)

/-- Fail without asking. -/
def fail (e : ε) : Asking σ ε α := fun s => (.error e, s)

/-- Ask again, depending on the answer; an error ends the questions. -/
def andThen (x : Asking σ ε α) (f : α → Asking σ ε β) : Asking σ ε β := fun s =>
  match x s with
  | (.ok a, s) => f a s
  | (.error e, s) => (.error e, s)

instance : Monad (Asking σ ε) where
  pure := answer
  bind := andThen

/-- The same question with its error put in other terms. -/
def withError (f : ε → ε') (x : Asking σ ε α) : Asking σ ε' α := fun s =>
  match x s with
  | (.ok a, s) => (.ok a, s)
  | (.error e, s) => (.error (f e), s)

/-- An answer that is already there. -/
def ofExcept (x : Except ε α) : Asking σ ε α := fun s => (x, s)

end Asking

/-- What the price of a swap needs to know of a chain. -/
structure Market (σ : Type) where
  /-- The factory that a router uses. -/
  factoryOf : Address → Asking σ ChainError Address
  /-- What a token says of itself. -/
  metadataOf : Address → Asking σ ChainError Metadata
  /-- What the factory's pair of two tokens holds. -/
  reservesOf : Address → Address → Address → Asking σ ChainError PairReserves

/-! ## §3. Keeping a record of the questions. -/

/-- A question to a market. -/
inductive Question where
  | factory (router : Address)
  | metadata (token : Address)
  | reserves (factory tokenA tokenB : Address)
  deriving DecidableEq, Repr

/-- The same market, with a list of the questions it has been asked. -/
def Market.recorded {σ : Type} (m : Market σ) : Market (σ × List Question) where
  factoryOf router := fun (s, log) =>
    let (x, s) := m.factoryOf router s
    (x, s, log ++ [.factory router])
  metadataOf token := fun (s, log) =>
    let (x, s) := m.metadataOf token s
    (x, s, log ++ [.metadata token])
  reservesOf factory a b := fun (s, log) =>
    let (x, s) := m.reservesOf factory a b s
    (x, s, log ++ [.reserves factory a b])

end FundTrail
