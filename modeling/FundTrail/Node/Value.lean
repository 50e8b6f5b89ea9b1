/-
  FundTrail.Node.Value
  ────────────────────
  **WHAT A NODE WRITES.**

  A node answers with values of a few kinds.  Numbers and byte strings are texts
  of hexadecimal digits among them, a block is an object, and an object's fields
  are looked for by name.  This module reads off such values what the library
  has types for; each reading gives nothing for a value of another shape.
  Fields that the library has no use for are not looked at.
-/
import FundTrail.Chain.Basic
import FundTrail.Text.HexString

namespace FundTrail.Node

/-- A value in an answer. -/
inductive Value where
  | null
  | flag (b : Bool)
  /-- A number without quotes; nothing that is read here is written so. -/
  | number (digits : String)
  | text (s : String)
  | list (items : List Value)
  | object (fields : List (String × Value))

namespace Value

/-! ## §1. Fields and leaves. -/

/-- The field of an object. -/
def field? (name : String) : Value → Option Value
  | .object fields => fields.lookup name
  | _ => none

/-- The text of a text. -/
def text? : Value → Option String
  | .text s => some s
  | _ => none

/-- A field that may be missing or null, read by `read`. -/
def optional? {α : Type} (read : Value → Option α) (name : String) (v : Value) :
    Option (Option α) :=
  match v.field? name with
  | none => some none
  | some .null => some none
  | some w => (read w).map some

/-- A height. -/
def height? (v : Value) : Option Height :=
  (v.text?.bind (HexString.readNumber? 8)).bind Word.ofNat?

/-- An amount. -/
def amount? (v : Value) : Option Amount :=
  (v.text?.bind (HexString.readNumber? 32)).bind Word.ofNat?

/-- A byte string. -/
def bytes? (v : Value) : Option Bytes := v.text?.bind HexString.readBytes?

/-- A byte string of length `n`. -/
def fixed? (n : Nat) (v : Value) : Option (FixedBytes n) :=
  v.text?.bind fun s => (HexString.read n s).toOption

/-! ## §2. Blocks. -/

/-- A transaction.  It may leave out its sender, which counts as zero, and its
recipient. -/
def transaction? (v : Value) : Option Transaction := do
  let hash ← (v.field? "hash").bind (fixed? 32)
  let sender ← match v.field? "from" with
    | none => some .zero
    | some w => fixed? 20 w
  let recipient ← v.optional? (fixed? 20) "to"
  let value ← (v.field? "value").bind amount?
  let input ← (v.field? "input").bind bytes?
  pure ⟨hash, sender, recipient, value, input⟩

/-- The transactions of a block, which may leave them out. -/
def transactions? (v : Value) : Option (List Transaction) :=
  match v.field? "transactions" with
  | none => some []
  | some (.list items) => items.mapM transaction?
  | some _ => none

/-- The number and the hash of a block; a block that is still pending has none. -/
def identity? (v : Value) : Option (Option Height × Option Hash) := do
  let height ← v.optional? height? "number"
  let hash ← v.optional? (fixed? 32) "hash"
  pure (height, hash)

/-- The header that announces a block, if the block has both number and hash. -/
def header? (v : Value) : Option Header :=
  match v.identity? with
  | some (some height, some hash) => some ⟨height, hash⟩
  | _ => none

end Value

end FundTrail.Node
