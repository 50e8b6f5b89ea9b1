/-
  FundTrail.Seed.Document
  ───────────────────────
  **A SEED DOCUMENT: A LIST OF NAMES WITH ADDRESSES.**

  The document is a list of entries.  An entry is a map with the fields `name`
  and `address`, each exactly once, or a list of just these two; other fields of
  a map are passed over whatever they hold.  The tokens are taken one by one:
  a `Place` says what has been read and what may come next, and `step` either
  moves on or finds the fault.

  Main definition: `entries`, the entries of a document or its first fault.
-/
import FundTrail.Seed.Token
import FundTrail.Text.HexString

namespace FundTrail.Seed

/-- An entry as it stands in the document. -/
structure Entry where
  name : String
  address : Address
  deriving DecidableEq, Repr

/-- Where we are inside brackets. -/
inductive Within where
  /-- Right behind the opening bracket. -/
  | opened
  /-- Behind an item. -/
  | item
  /-- Behind a comma. -/
  | comma
  deriving DecidableEq, Repr

/-- The fields of a map that have been read. -/
structure Fields where
  name : Option String
  address : Option Address

/-- A field of a map. -/
inductive Field where
  | name
  | address
  | unknown
  deriving DecidableEq, Repr

/-- An unclosed bracket of a value that is passed over. -/
inductive Frame where
  | list
  | map
  deriving DecidableEq, Repr

/-- What may come next in a value that is passed over. -/
inductive Skipping where
  /-- A value. -/
  | value
  /-- Right behind an opening bracket of the innermost frame. -/
  | opened
  /-- Behind a key. -/
  | key
  /-- Behind an item of the innermost frame. -/
  | item
  /-- Behind a comma of a map. -/
  | comma
  deriving DecidableEq, Repr

/-- How far a document has been read. -/
inductive Place where
  | start
  /-- In the list; the entries so far are in reverse. -/
  | list (found : List Entry) (within : Within)
  /-- In an entry that is a list: its name is wanted. -/
  | pair (found : List Entry)
  /-- In an entry that is a list, behind its name. -/
  | pairName (found : List Entry) (name : String)
  /-- In an entry that is a list, behind the comma. -/
  | pairComma (found : List Entry) (name : String)
  /-- In an entry that is a list, behind its address. -/
  | pairDone (found : List Entry) (entry : Entry)
  /-- In an entry that is a map. -/
  | map (found : List Entry) (fields : Fields) (within : Within)
  /-- In a map, behind a key. -/
  | mapKey (found : List Entry) (fields : Fields) (field : Field)
  /-- In a map, behind a colon. -/
  | mapColon (found : List Entry) (fields : Fields) (field : Field)
  /-- In a value that is passed over. -/
  | skip (found : List Entry) (fields : Fields) (frames : List Frame) (next : Skipping)
  /-- Behind the list. -/
  | done (found : List Entry)

/-! ## §1. Single tokens. -/

/-- What is wrong with a token where a list, a map or a text of a kind that it is
not is wanted. -/
def Token.fault : Token → DocumentFault
  | .openList => .unfit
  | .openMap => .unfit
  | .text (.ok _) _ => .unfit
  | .text (.error fault) _ => fault
  | .other fault _ => fault
  | _ => .malformed

/-- The content of a token where a text is wanted. -/
def Token.content : Token → Except DocumentFault String
  | .text content _ => content
  | token => .error token.fault

/-- The address in a token. -/
def Token.address (token : Token) : Except DocumentFault Address := do
  let s ← token.content
  match HexString.read 20 s with
  | .ok address => .ok address
  | .error _ => .error .unfit

/-- The field that a key names. -/
def Field.ofKey (key : String) : Field :=
  if key = "name" then .name else if key = "address" then .address else .unknown

/-- Whether a field has been read before. -/
def Fields.has (fields : Fields) : Field → Bool
  | .name => fields.name.isSome
  | .address => fields.address.isSome
  | .unknown => false

/-! ## §2. One step. -/

/-- Begin an entry. -/
def beginEntry (found : List Entry) : Token → Except DocumentFault Place
  | .openList => .ok (.pair found)
  | .openMap => .ok (.map found ⟨none, none⟩ .opened)
  | token => .error token.fault

/-- Read a key of an entry's map; anything but a text is no key. -/
def readKey (found : List Entry) (fields : Fields) :
    Token → Except DocumentFault Place
  | .text (.ok key) _ =>
      if fields.has (.ofKey key) then .error .unfit
      else .ok (.mapKey found fields (.ofKey key))
  | .text (.error fault) _ => .error fault
  | _ => .error .malformed

/-- Close an entry's map. -/
def closeEntry (found : List Entry) (fields : Fields) : Except DocumentFault Place :=
  match fields.name, fields.address with
  | some name, some address => .ok (.list (⟨name, address⟩ :: found) .item)
  | _, _ => .error .unfit

/-- Behind a value of the innermost frame that is passed over. -/
def skipped (found : List Entry) (fields : Fields) : List Frame → Place
  | [] => .map found fields .item
  | frames => .skip found fields frames .item

/-- Begin a value that is passed over. -/
def skipValue (found : List Entry) (fields : Fields) (frames : List Frame) :
    Token → Except DocumentFault Place
  | .openList => .ok (.skip found fields (.list :: frames) .opened)
  | .openMap => .ok (.skip found fields (.map :: frames) .opened)
  | .text _ none => .ok (skipped found fields frames)
  | .text _ (some fault) => .error fault
  | .other _ none => .ok (skipped found fields frames)
  | .other _ (some fault) => .error fault
  | _ => .error .malformed

/-- Read a key of a map that is passed over. -/
def skipKey (found : List Entry) (fields : Fields) (frames : List Frame) :
    Token → Except DocumentFault Place
  | .text _ none => .ok (.skip found fields frames .key)
  | .text _ (some fault) => .error fault
  | _ => .error .malformed

/-- One token inside a value that is passed over. -/
def skipStep (found : List Entry) (fields : Fields) :
    List Frame → Skipping → Token → Except DocumentFault Place
  | frames, .value, token => skipValue found fields frames token
  | .list :: frames, .opened, .closeList => .ok (skipped found fields frames)
  | .list :: frames, .opened, token => skipValue found fields (.list :: frames) token
  | .map :: frames, .opened, .closeMap => .ok (skipped found fields frames)
  | .map :: frames, .opened, token => skipKey found fields (.map :: frames) token
  | frames, .key, .colon => .ok (.skip found fields frames .value)
  | .list :: frames, .item, .closeList => .ok (skipped found fields frames)
  | .list :: frames, .item, .comma => .ok (.skip found fields (.list :: frames) .value)
  | .map :: frames, .item, .closeMap => .ok (skipped found fields frames)
  | .map :: frames, .item, .comma => .ok (.skip found fields (.map :: frames) .comma)
  | frames, .comma, token => skipKey found fields frames token
  | _, _, _ => .error .malformed

/-- One token further, or the fault that it brings to light. -/
def step : Place → Token → Except DocumentFault Place
  | .start, .openList => .ok (.list [] .opened)
  | .start, token => .error token.fault
  -- the list of entries
  | .list found .opened, .closeList => .ok (.done found)
  | .list found .opened, token => beginEntry found token
  | .list found .item, .closeList => .ok (.done found)
  | .list found .item, .comma => .ok (.list found .comma)
  | .list _ .item, _ => .error .malformed
  | .list _ .comma, .closeList => .error .malformed
  | .list found .comma, token => beginEntry found token
  -- an entry that is a list
  | .pair _, .closeList => .error .unfit
  | .pair found, token => token.content.map (.pairName found)
  | .pairName _ _, .closeList => .error .unfit
  | .pairName found name, .comma => .ok (.pairComma found name)
  | .pairName _ _, _ => .error .malformed
  | .pairComma found name, token =>
      token.address.map fun address => .pairDone found ⟨name, address⟩
  | .pairDone found entry, .closeList => .ok (.list (entry :: found) .item)
  | .pairDone _ _, _ => .error .malformed
  -- an entry that is a map
  | .map found fields .opened, .closeMap => closeEntry found fields
  | .map found fields .opened, token => readKey found fields token
  | .map found fields .item, .closeMap => closeEntry found fields
  | .map found fields .item, .comma => .ok (.map found fields .comma)
  | .map _ _ .item, _ => .error .malformed
  | .map found fields .comma, token => readKey found fields token
  | .mapKey found fields field, .colon => .ok (.mapColon found fields field)
  | .mapKey _ _ _, _ => .error .malformed
  | .mapColon found fields .name, token =>
      token.content.map fun name => .map found { fields with name := some name } .item
  | .mapColon found fields .address, token =>
      token.address.map fun address =>
        .map found { fields with address := some address } .item
  | .mapColon found fields .unknown, token => skipValue found fields [] token
  | .skip found fields frames next, token => skipStep found fields frames next token
  -- nothing may follow the list
  | .done _, _ => .error .malformed

/-! ## §3. The whole document. -/

/-- The entries of a document, in order, or its first fault. -/
def entries (bs : Bytes) : Except DocumentFault (List Entry) := do
  match ← (tokens bs).foldlM step Place.start with
  | .done found => .ok found.reverse
  | _ => .error .cutShort

end FundTrail.Seed
