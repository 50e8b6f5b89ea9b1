/-
  FundTrail.Node.Reader
  ─────────────────────
  **READING A CHAIN THROUGH A NODE.**

  A wire takes calls to a node and brings back its replies; whether it is a
  socket or a table of replies does not matter here.  Over a wire the reader is
  a `Market` and a `BlockSource`: it fetches blocks, asks contracts for the
  results of their methods, and turns announcements into headers.

  Every question is given up after the same time, with one exception: a
  subscription may take as long as it likes.  A token whose symbol cannot be
  read is kept under the symbol `???`, for its decimals are all that prices need.

  Main definitions: `Reader.market`, `Reader.source` and `connect`; main fact:
  `Reader.symbolOf_ok`.
-/
import FundTrail.Abi
import FundTrail.Node.Value
import FundTrail.Session

namespace FundTrail.Node

/-! ## §1. Calls and replies. -/

/-- A block by its hash or by its number. -/
inductive BlockId where
  | hash (hash : Hash)
  | number (number : Height)
  deriving DecidableEq, Repr

/-- What is missing when there is no such block. -/
def BlockId.missing : BlockId → Missing
  | .hash h => .hash h
  | .number n => .number n

/-- A call to a node. -/
inductive Call where
  | chainId
  /-- Announce new blocks. -/
  | newHeads
  | block (id : BlockId)
  /-- The result of a contract's method; nothing is written to the chain. -/
  | contract (address : Address) (data : Bytes)
  deriving DecidableEq, Repr

/-- A number as a node writes it: as few digits as possible, and one for zero. -/
def quantity (n : Nat) : String :=
  "0x" ++ String.ofList ((Nat.toDigits 16 n))

/-- The name of the method that a call is for. -/
def Call.method : Call → String
  | .chainId => "eth_chainId"
  | .newHeads => "eth_subscribe"
  | .block (.hash _) => "eth_getBlockByHash"
  | .block (.number _) => "eth_getBlockByNumber"
  | .contract _ _ => "eth_call"

/-- The arguments of a call; blocks are asked for with their transactions, and
contracts as of the latest block. -/
def Call.arguments : Call → List Value
  | .chainId => []
  | .newHeads => [.text "newHeads"]
  | .block (.hash h) => [.text h.text, .flag true]
  | .block (.number n) => [.text (quantity n.toNat), .flag true]
  | .contract address data =>
      [.object [("to", .text address.text), ("data", .text ("0x" ++ hexText data))],
        .text "latest"]

/-- What comes back for a call. -/
inductive Reply where
  | result (value : Value)
  | refused (reason : String)
  /-- Nothing. -/
  | silence

/-- A way to a node, in a state of type `σ`. -/
abbrev Wire (σ : Type) := Call → σ → Reply × σ

/-! ## §2. Connecting. -/

/-- A connection to a node. -/
structure Reader (σ : Type) where
  wire : Wire σ
  /-- How long an answer may take. -/
  limit : Span

variable {σ : Type}

/-- Connect over the wire to a node, if there is one: a node answers when it is
asked for its chain. -/
def connect (wire : Option (Wire σ)) (limit : Span) : Asking σ ChainError (Reader σ) := fun s =>
  match wire with
  | none => (.error (.provider "connection refused"), s)
  | some wire =>
    match wire .chainId s with
    | (.result value, s) =>
        if value.amount?.isSome then (.ok ⟨wire, limit⟩, s)
        else (.error (.provider "malformed chain id"), s)
    | (.refused reason, s) => (.error (.provider reason), s)
    | (.silence, s) => (.error (.provider "no chain id"), s)

namespace Reader

/-! ## §3. Contracts. -/

/-- Call a method of a contract and read its result, which may not be empty. -/
def ask {α : Type} (r : Reader σ) (address : Address) (data : Bytes)
    (read : Bytes → Option α) : Asking σ ChainError α := fun s =>
  match r.wire (.contract address data) s with
  | (.silence, s) => (.error (.timeout r.limit), s)
  | (.refused reason, s) => (.error (.contract reason), s)
  | (.result value, s) =>
    match value.bytes?.bind read with
    | none => (.error (.contract "malformed result"), s)
    | some a => (.ok a, s)

/-- The selector of `getPair(address,address)`. -/
def getPairSelector : Bytes := [0xe6, 0xa4, 0x39, 0x05]

/-- The selector of `getReserves()`. -/
def getReservesSelector : Bytes := [0x09, 0x02, 0xf1, 0xac]

/-- The selector of `factory()`. -/
def factorySelector : Bytes := [0xc4, 0x5a, 0x01, 0x55]

/-- The selector of `decimals()`. -/
def decimalsSelector : Bytes := [0x31, 0x3c, 0xe5, 0x67]

/-- The selector of `symbol()`. -/
def symbolSelector : Bytes := [0x95, 0xd8, 0x9b, 0x41]

/-- The word of an address in call data. -/
def addressWord (a : Address) : Bytes := List.replicate 12 0 ++ a.toList

/-- The reserves of a pair: two words, of whose lower halves they are, and a
third word that says when they were noted. -/
def readReserves? (data : Bytes) : Option PairReserves := do
  let first ← Abi.numberAt? data 0
  let second ← Abi.numberAt? data 32
  let _ ← Abi.numberAt? data 64
  pure ⟨Word.clamp (first % 2 ^ 128), Word.clamp (second % 2 ^ 128)⟩

/-- The decimals of a token: the last byte of a word. -/
def readDecimals? (data : Bytes) : Option UInt8 :=
  (Abi.numberAt? data 0).map UInt8.ofNat

/-- The symbol of a token; what is not UTF-8 in it is replaced. -/
def readSymbol? (data : Bytes) : Option String :=
  (Abi.bytesAt? data 0).map Utf8.readLossy

/-- What the pair of two tokens at a factory holds. -/
def reservesOf (r : Reader σ) (factory a b : Address) : Asking σ ChainError PairReserves := do
  let pair ← r.ask factory (getPairSelector ++ addressWord a ++ addressWord b)
    (Abi.addressAt? · 0)
  if pair = .zero then Asking.fail (.pairNotFound a b)
  else r.ask pair getReservesSelector readReserves?

/-- The factory that a router uses. -/
def factoryOf (r : Reader σ) (router : Address) : Asking σ ChainError Address :=
  r.ask router factorySelector (Abi.addressAt? · 0)

/-- The symbol of a token, or the sign that it could not be read. -/
def symbolOf (r : Reader σ) (token : Address) : Asking σ ChainError String := fun s =>
  match r.ask token symbolSelector readSymbol? s with
  | (.ok symbol, s) => (.ok symbol, s)
  | (.error _, s) => (.ok "???", s)

/-- What a token says of itself: without decimals it is no token. -/
def metadataOf (r : Reader σ) (token : Address) : Asking σ ChainError Metadata := do
  let decimals ← r.ask token decimalsSelector readDecimals?
  let symbol ← r.symbolOf token
  pure ⟨symbol, decimals⟩

/-- The market of the node's chain. -/
def market (r : Reader σ) : Market σ where
  factoryOf := r.factoryOf
  metadataOf := r.metadataOf
  reservesOf := r.reservesOf

/-! ## §4. Blocks. -/

/-- The batch of a block that a node has written down. -/
def readBlock (id : BlockId) (value : Value) : Except ChainError Batch :=
  match value with
  | .null => .error (.blockNotFound id.missing)
  | value =>
    match value.identity?, value.transactions? with
    | some (number, hash), some transactions => Batch.ofBlock number hash transactions
    | _, _ => .error (.provider "malformed block")

/-- Fetch a block. -/
def fetch (r : Reader σ) (id : BlockId) : Asking σ ChainError Batch := fun s =>
  match r.wire (.block id) s with
  | (.silence, s) => (.error (.timeout r.limit), s)
  | (.refused reason, s) => (.error (.provider reason), s)
  | (.result value, s) => (readBlock id value, s)

/-- The blocks of the node's chain; there is always an answer in time. -/
def source (r : Reader σ) : BlockSource σ where
  byNumber number := fun s => let (x, s) := r.fetch (.number number) s; (some x, s)
  byHash hash := fun s => let (x, s) := r.fetch (.hash hash) s; (some x, s)

/-! ## §5. Announcements. -/

/-- Subscribe to new blocks; none stands for an answer that never comes. -/
def subscribe (r : Reader σ) (s : σ) : Option (Except ChainError Unit) × σ :=
  match r.wire .newHeads s with
  | (.silence, s) => (none, s)
  | (.refused reason, s) => (some (.error (.provider reason)), s)
  | (.result value, s) =>
      (some (if value.text?.isSome then .ok () else .error (.provider "malformed subscription")), s)

/-- The headers in what is announced; blocks that are pending are passed over. -/
def headers (announced : List Value) : List Header := announced.filterMap Value.header?

end Reader

/-! ## §6. Symbols. -/

/-- A symbol that cannot be read is no error. -/
theorem Reader.symbolOf_ok (r : Reader σ) (token : Address) (s : σ) :
    ∃ symbol, (r.symbolOf token s).1 = .ok symbol := by
  unfold Reader.symbolOf
  split
  next symbol _ _ => exact ⟨symbol, rfl⟩
  next => exact ⟨"???", rfl⟩

end FundTrail.Node
