/-
  FundTrail.Chain.Scripted
  ────────────────────────
  **A CHAIN WHOSE ANSWERS ARE WRITTEN DOWN BEFOREHAND.**

  To try the pipeline without a node, a chain can be scripted: routers, tokens
  and pairs with their answers, blocks, and the subscriptions to come.  An
  answer may fail, for a number of times or always; a block may be withheld for
  some fetches, or its fetch may find that the consumer has gone.

  Of two entries for the same thing the later one counts.  The lists of entries
  are kept with the latest entry first.
-/
import FundTrail.Session

namespace FundTrail.Scripted

/-! ## §1. Entries. -/

/-- How an entry fails before it answers. -/
structure Failure where
  error : ChainError
  /-- For so many times; none stands for always. -/
  times : Option Nat
  deriving DecidableEq, Repr

/-- An answer to questions that match `key`. -/
structure Entry (κ α : Type) where
  key : κ
  answer : α
  failure : Option Failure

/-- Two tokens, in any order, and the factory of their pair if it matters. -/
structure PairKey where
  factory : Option Address
  tokenA : Address
  tokenB : Address
  deriving DecidableEq, Repr

/-- Whether the key is that of the pair of two tokens at a factory. -/
def PairKey.isFor (k : PairKey) (factory a b : Address) : Bool :=
  (k.factory = none ∨ k.factory = some factory)
    ∧ ((k.tokenA = a ∧ k.tokenB = b) ∨ (k.tokenA = b ∧ k.tokenB = a))

/-- How a fetch of a block goes. -/
inductive Fetch where
  | ok
  | fail
  /-- There is no answer. -/
  | hang
  /-- The consumer goes away; the block is found. -/
  | close
  deriving DecidableEq, Repr

/-- A block, the number under which it is found, and how its next fetches go. -/
structure Block where
  key : Height
  batch : Batch
  fetches : List Fetch
  deriving DecidableEq, Repr

/-- A subscription to come. -/
inductive Subscription where
  | headers (headers : List Header)
  | refused
  /-- The stream is told to stop while it subscribes. -/
  | stop
  deriving DecidableEq, Repr

/-- A chain whose answers are written down. -/
structure Chain where
  routers : List (Entry Address Address)
  tokens : List (Entry Address Metadata)
  pairs : List (Entry PairKey PairReserves)
  blocks : List Block
  subscriptions : List Subscription
  /-- Whether the consumer of blocks has gone. -/
  closed : Bool

/-- A chain without entries. -/
def Chain.empty : Chain := ⟨[], [], [], [], [], false⟩

/-- A chain with more entries, which count before those that were there; more
subscriptions come after those that were there. -/
def Chain.extend (c : Chain) (routers : List (Entry Address Address))
    (tokens : List (Entry Address Metadata)) (pairs : List (Entry PairKey PairReserves))
    (blocks : List Block) (subscriptions : List Subscription) : Chain :=
  { c with
    routers := routers.reverse ++ c.routers
    tokens := tokens.reverse ++ c.tokens
    pairs := pairs.reverse ++ c.pairs
    blocks := blocks.reverse ++ c.blocks
    subscriptions := c.subscriptions ++ subscriptions }

/-! ## §2. Answers. -/

/-- What a failure has to say now, and what is left of it. -/
def Failure.next (f : Failure) : Option ChainError × Option Failure :=
  match f.times with
  | none => (some f.error, some f)
  | some 0 => (none, none)
  | some (n + 1) => (some f.error, some { f with times := some n })

/-- Ask the first entry whose key matches; none if there is no such entry. -/
def consult {κ α : Type} (isFor : κ → Bool) :
    List (Entry κ α) → Option (Except ChainError α) × List (Entry κ α)
  | [] => (none, [])
  | e :: es =>
      if isFor e.key then
        match e.failure.map Failure.next with
        | some (some error, left) => (some (.error error), { e with failure := left } :: es)
        | _ => (some (.ok e.answer), e :: es)
      else
        let (answer, es) := consult isFor es
        (answer, e :: es)

/-- The prices' part of the chain. -/
def market : Market Chain where
  factoryOf router := fun c =>
    let (answer, routers) := consult (fun key => key = router) c.routers
    (answer.getD (.error (.contract (router.text ++ " is not a router"))), { c with routers })
  metadataOf token := fun c =>
    let (answer, tokens) := consult (fun key => key = token) c.tokens
    (answer.getD (.error (.contract (token.text ++ " is not an ERC-20"))), { c with tokens })
  reservesOf factory a b := fun c =>
    let (answer, pairs) := consult (fun key => key.isFor factory a b) c.pairs
    (answer.getD (.error (.pairNotFound a b)), { c with pairs })

/-- The outcome of fetching a block, and whether the consumer goes away. -/
def Block.fetch (b : Block) : Option (Except ChainError Batch) × Bool :=
  match b.fetches.head? with
  | none => (some (.ok b.batch), false)
  | some .ok => (some (.ok b.batch), false)
  | some .fail => (some (.error (.provider "scripted failure")), false)
  | some .hang => (none, false)
  | some .close => (some (.ok b.batch), true)

/-- Fetch the first block that is wanted; `missing` names what is looked for. -/
def fetchBlock (missing : String) (isWanted : Block → Bool) (c : Chain) :
    Option (Except ChainError Batch) × Chain :=
  match c.blocks.find? isWanted with
  | none => (some (.error (.blockNotFound (.text missing))), c)
  | some b =>
      let (answer, closes) := b.fetch
      let index := (c.blocks.findIdx? isWanted).getD 0
      let blocks := c.blocks.set index { b with fetches := b.fetches.tail }
      (answer, { c with blocks, closed := c.closed || closes })

/-- The blocks' part of the chain. -/
def source : BlockSource Chain where
  byNumber number := fetchBlock (toString number.toNat) fun b => b.key = number
  byHash hash := fetchBlock hash.text fun b => b.batch.hash = hash

/-! ## §3. Subscriptions. -/

/-- The rounds up to where the stream is told to stop; it is told so at the
latest when no subscription is left. -/
def rounds : List Subscription → List Round
  | [] => []
  | .stop :: _ => []
  | .refused :: ss => .refused :: rounds ss
  | .headers hs :: ss => .headers hs :: rounds ss

/-- The chain after so many requests, of which each subscription uses up one of
those to come. -/
def Chain.afterRequests (c : Chain) (requests : List Request) : Chain :=
  { c with subscriptions := c.subscriptions.drop (requests.count .subscribe) }

/-- A checked build, on which the first number is always drawn. -/
def machine : Machine := ⟨.panics, fun _ => 0⟩

/-- Blocks of the chain, collected in the order in which they are handed over. -/
def collecting : Conduit (Chain × List Batch) where
  machine
  byNumber number := fun (c, taken) =>
    let (answer, c) := source.byNumber number c
    (answer, c, taken)
  byHash hash := fun (c, taken) =>
    let (answer, c) := source.byHash hash c
    (answer, c, taken)
  deliver batch := fun (c, taken) =>
    if c.closed then (false, c, taken) else (true, c, taken ++ [batch])

end FundTrail.Scripted
