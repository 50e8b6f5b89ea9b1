/-
  FundTrail.Store.Codec
  ─────────────────────
  **THE BYTES OF A VALUE.**

  A value is the concatenation of its fields.  Counts and lengths take eight
  bytes, least significant first; an amount is written with as few bytes as it
  needs, most significant first; texts, byte strings and lists carry their
  length in front.  A reader takes its field off the front and leaves the rest,
  so a value may be followed by anything.

  Reading is more lenient than writing: amounts may have zero bytes in front,
  sets may be unordered and repeat themselves.

  Main facts: `readCount_writeCount` and `readBlob_writeBlob` — a field comes
  back as it was written, whatever follows it.
-/
import FundTrail.Record
import FundTrail.Store.Error

namespace FundTrail.Store

/-! ## §1. Amounts as minimal byte strings. -/

/-- The bytes of an amount, most significant first, without zero bytes in
front; zero is the empty string. -/
def encodeAmount (a : Amount) : Bytes := (bigEndian 32 a.toNat).dropWhile (· == 0)

/-- The amount with the given bytes, if there are at most 32 of them. -/
def decodeAmount? (bs : Bytes) : Option Amount :=
  if bs.length ≤ 32 then Word.ofNat? (ofBigEndian bs) else none

/-- The amount with the given bytes. -/
def decodeAmount (bs : Bytes) : Except StoreError Amount :=
  match decodeAmount? bs with
  | some a => .ok a
  | none => .error (.longInteger bs.length)

/-! ## §2. Writing fields. -/

/-- A count or a length. -/
def writeCount (n : Nat) : Bytes := littleEndian 8 n

/-- A byte string behind its length. -/
def writeBlob (bs : Bytes) : Bytes := writeCount bs.length ++ bs

/-- An amount. -/
def writeAmount (a : Amount) : Bytes := writeBlob (encodeAmount a)

/-- A text behind the length of its UTF-8 bytes. -/
def writeText (s : String) : Bytes := writeBlob (Utf8.write s)

/-- An address, behind its length. -/
def writeAddress (a : Address) : Bytes := writeBlob a.toList

/-- A path: the number of its addresses, then their bare bytes. -/
def writePath (path : List Address) : Bytes :=
  writeCount path.length ++ path.flatMap fun a => a.toList

/-- A set of names: their number, then the names in order. -/
def writeNames (names : NameSet) : Bytes :=
  writeCount names.toList.length ++ names.toList.flatMap writeText

/-- A signed number of seconds. -/
def writeSeconds (t : Int64) : Bytes := littleEndian 8 t.toUInt64.toNat

/-! ## §3. Reading fields. -/

/-- Takes a value off the front of a byte string, and leaves the rest. -/
abbrev Reader (α : Type) := StateT Bytes (Except ValueFault) α

theorem Reader.bind_ok {α β : Type} {read : Reader α} {next : α → Reader β}
    {bs rest : Bytes} {x : α} (h : read bs = .ok (x, rest)) :
    (read >>= next) bs = next x rest := by
  show (read bs >>= fun p => next p.1 p.2) = _
  rw [h]
  rfl

/-- Reject the value with a fault. -/
def reject {α : Type} (fault : ValueFault) : Reader α := fun _ => .error fault

/-- The next `n` bytes, or `fault` if there are fewer. -/
def readBytes (fault : ValueFault) (n : Nat) : Reader Bytes := fun bs =>
  if n ≤ bs.length then .ok (bs.take n, bs.drop n) else .error fault

/-- A single byte. -/
def readByte : Reader UInt8
  | [] => .error .endOfInput
  | b :: bs => .ok (b, bs)

/-- A count or a length. -/
def readCount : Reader Count := do
  let bs ← readBytes .endOfInput 8
  pure (Word.lowBits (ofLittleEndian bs))

/-- A byte string behind its length. -/
def readBlob : Reader Bytes := do
  let n ← readCount
  readBytes .endOfInput n.toNat

/-- An amount. -/
def readAmount : Reader Amount := do
  let bs ← readBlob
  match decodeAmount? bs with
  | some a => pure a
  | none => reject (.longInteger bs.length)

/-- A text behind the length of its UTF-8 bytes. -/
def readText : Reader String := do
  let n ← readCount
  let bs ← readBytes .endOfText n.toNat
  match Utf8.read bs with
  | .ok s => pure s
  | .error fault => reject (.badText fault)

/-- An address, behind its length. -/
def readAddress : Reader Address := do
  let bs ← readBlob
  match FixedBytes.ofList? bs with
  | some a => pure a
  | none => reject (.addressLength bs.length)

/-- Twenty bytes without a length in front. -/
def readBareAddress : Reader Address := do
  let bs ← readBytes .endOfInput 20
  pure (FixedBytes.ofPrefix bs)

/-- `n` values, one after the other. -/
def readMany {α : Type} (read : Reader α) : Nat → Reader (List α)
  | 0 => pure []
  | n + 1 => do
      let x ← read
      let xs ← readMany read n
      pure (x :: xs)

/-- A path of at least one address. -/
def readPath : Reader (List Address) := do
  let n ← readCount
  let path ← readMany readBareAddress n.toNat
  if path.isEmpty then reject .emptyPath else pure path

/-- A set of names. -/
def readNames : Reader NameSet := do
  let n ← readCount
  let names ← readMany readText n.toNat
  pure (NameSet.ofList names)

/-- A hash spelt in hexadecimal. -/
def readHash : Reader Hash := do
  let s ← readText
  match HexString.read 32 s with
  | .ok h => pure h
  | .error fault => reject (.badHash fault)

/-- A signed number of seconds. -/
def readSeconds : Reader Int64 := do
  let n ← readCount
  pure (UInt64.ofNat n.toNat).toInt64

/-! ## §4. Fields come back as they were written. -/

theorem readBytes_append (fault : ValueFault) (bs rest : Bytes) :
    readBytes fault bs.length (bs ++ rest) = .ok (bs, rest) := by
  rw [readBytes, if_pos (by simp), List.take_left, List.drop_left]

theorem readCount_writeCount {n : Nat} (h : n < 2 ^ 64) (rest : Bytes) :
    readCount (writeCount n ++ rest) = .ok (Word.lowBits n, rest) := by
  have hr : readBytes .endOfInput 8 (writeCount n ++ rest) = .ok (writeCount n, rest) := by
    have := readBytes_append .endOfInput (writeCount n) rest
    rwa [show (writeCount n).length = 8 from length_littleEndian 8 n] at this
  have hn : ofLittleEndian (writeCount n) = n :=
    ofLittleEndian_littleEndian (Nat.lt_of_lt_of_le h (by decide))
  rw [readCount, Reader.bind_ok hr, hn]
  rfl

theorem readBlob_writeBlob {bs : Bytes} (h : bs.length < 2 ^ 64) (rest : Bytes) :
    readBlob (writeBlob bs ++ rest) = .ok (bs, rest) := by
  rw [readBlob, writeBlob, List.append_assoc, Reader.bind_ok (readCount_writeCount h _),
    Word.toNat_lowBits_of_lt h, readBytes_append]

/-! ## §5. Whole values. -/

/-- Reads a value from the front of a byte string; what follows it is ignored. -/
def Reader.decode {α : Type} (read : Reader α) (bs : Bytes) : Except StoreError α :=
  match read bs with
  | .ok (x, _) => .ok x
  | .error fault => .error (.badValue fault)

/-- The value of an account. -/
def writeAccount (a : Account) : Bytes :=
  writeAmount a.totalReceived ++ writeAmount a.totalSpent ++ writeNames a.fromExchanges

/-- The account at `address` with the value at the front. -/
def readAccount (address : Address) : Reader Account := do
  let received ← readAmount
  let spent ← readAmount
  let names ← readNames
  pure ⟨address, received, spent, names⟩

/-- The value of a token. -/
def writeToken (t : Token) : Bytes :=
  writeText t.symbol ++ [t.decimals] ++ writeAmount t.price ++ writeAmount t.totalBought
    ++ writeCount t.timesBought.toNat

/-- The token at `address` with the value at the front. -/
def readToken (address : Address) : Reader Token := do
  let symbol ← readText
  let decimals ← readByte
  let price ← readAmount
  let bought ← readAmount
  let times ← readCount
  pure ⟨address, symbol, decimals, price, bought, times⟩

/-- The value of a pattern. -/
def writePattern (p : Pattern) : Bytes :=
  writeAmount p.value ++ writeCount p.timesOccurred.toNat

/-- The pattern named `key` with the value at the front. -/
def readPattern (key : PatternKey) : Reader Pattern := do
  let value ← readAmount
  let times ← readCount
  pure ⟨key.token, key.exchange, value, times⟩

/-- The value of a swap. -/
def writeSwap (s : Swap) : Bytes :=
  writeAddress s.wallet ++ writeAddress s.token ++ writePath s.path
    ++ writeAddress s.factory ++ writeAmount s.price ++ writeAmount s.value

/-- The swap of transaction `txHash` with the value at the front. -/
def readSwap (txHash : Hash) : Reader Swap := do
  let wallet ← readAddress
  let token ← readAddress
  let path ← readPath
  let factory ← readAddress
  let price ← readAmount
  let value ← readAmount
  pure ⟨txHash, wallet, token, path, factory, price, value⟩

/-- The value of the cursor. -/
def writeCursor (c : Cursor) : Bytes :=
  writeCount c.number.toNat ++ writeText c.hash.text ++ writeSeconds c.updatedAt

/-- The cursor with the value at the front. -/
def readCursor : Reader Cursor := do
  let number ← readCount
  let hash ← readHash
  let updatedAt ← readSeconds
  pure ⟨number, hash, updatedAt⟩

end FundTrail.Store
