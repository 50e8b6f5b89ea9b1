/-
  FundTrail.Disk.Location
  ───────────────────────
  **WHERE THE NAME OF A DATABASE POINTS.**

  The name of a database is a path as it stands, unless it begins with `file:`.
  Then it is a locator: a path and, behind a question mark, options on how the
  database is to be opened.  In both, `%` and two hexadecimal digits stand for a
  byte; a zero byte ends the path, the option's name or the value that it is in.
  A hash sign ends the locator.

      file:PATH?mode=MODE&cache=CACHE&vfs=SYSTEM&nolock=FLAG&immutable=FLAG

  Two more options are less usual: `modeof` names a file whose permissions a new
  database takes, and `readonly_shm` forbids to write to the memory that its users
  share.  Options that are not known are passed over.

  Main definition: `Location.ofName?`.
-/
import FundTrail.Disk.Path
import FundTrail.Text.HexString
import FundTrail.Text.Utf8

namespace FundTrail

/-- What may be done with a database. -/
inductive OpenMode where
  | readOnly
  | readWrite
  /-- Read and write, and make the file if it is not there. -/
  | create
  /-- Read and write, without a file. -/
  | memory
  deriving DecidableEq, Repr

namespace OpenMode

/-- The mode that a word asks for. -/
def ofWord? (word : String) : Option OpenMode :=
  if word = "ro" then some .readOnly
  else if word = "rw" then some .readWrite
  else if word = "rwc" then some .create
  else if word = "memory" then some .memory
  else none

/-- Whether a mode may give way to another one: not to one that may do more.
Memory and a file are not compared. -/
def allows : OpenMode → OpenMode → Bool
  | _, .memory => true
  | .memory, _ => true
  | .create, _ => true
  | .readWrite, mode => mode ≠ .create
  | .readOnly, mode => mode = .readOnly

end OpenMode

/-- How the users of a file keep out of each other's way. -/
inductive Locking where
  /-- By locks, and by memory that they share through a file. -/
  | shared
  /-- In the same way, but who may write keeps file and memory to itself. -/
  | exclusive
  /-- By a token beside the file. -/
  | token
  /-- They do not. -/
  | careless
  /-- There is no file. -/
  | memory
  deriving DecidableEq, Repr

/-- Where a database is and how it is to be opened. -/
structure Location where
  path : Path
  mode : OpenMode
  locking : Locking
  /-- Locks are not used. -/
  unlocked : Bool
  /-- Nobody changes the file, not even this user. -/
  immutable : Bool
  /-- The memory that the users share is only read. -/
  fixedIndex : Bool
  /-- The path of the file whose permissions a new file takes. -/
  pattern : Option Path
  deriving DecidableEq, Repr

namespace Location

/-- The location of a path without options. -/
def ofPath (path : Path) : Location := ⟨path, .create, .shared, false, false, false, none⟩

/-! ## §1. Options. -/

/-- The locking of a system of files. -/
def lockingOf? (system : String) : Option Locking :=
  if system = "unix" then some .shared
  else if system = "unix-excl" then some .exclusive
  else if system = "unix-dotfile" then some .token
  else if system = "unix-none" then some .careless
  else if system = "memdb" then some .memory
  else none

/-- The number that digits to a base spell, leaving off at the first other byte. -/
def leadingNumber (base : Nat) (bs : Bytes) : Nat :=
  go 0 bs
where
  /-- The number so far is `n`. -/
  go (n : Nat) : Bytes → Nat
    | [] => n
    | b :: bs =>
      match HexString.digitValue? b with
      | some d => if d < base then go (base * n + d) bs else n
      | none => n

/-- Whether a flag is set: by a number that is not zero in its low byte, or by a
word.  Numbers beyond 31 bits count as zero. -/
def isSet (value : Bytes) : Bool :=
  let number := match value with
    | 48 :: x :: digit :: rest =>
        if (x = 88 ∨ x = 120) ∧ (HexString.digitValue? digit).isSome then
          leadingNumber 16 (digit :: rest)
        else leadingNumber 10 value
    | _ => leadingNumber 10 value
  let word := (Utf8.readLossy value).toLower
  (number < 2 ^ 31 && number % 256 ≠ 0) || word = "on" || word = "yes" || word = "true"

/-- Follow an option.  A mode and a way to share the cache have to be known. -/
def follow (location : Location) (option : Bytes × Bytes) : Option Location :=
  let value := Utf8.readLossy option.2
  match Utf8.readLossy option.1 with
  | "mode" =>
      (OpenMode.ofWord? value).bind fun mode =>
        if location.mode.allows mode then some { location with mode } else none
  | "cache" => if value = "shared" ∨ value = "private" then some location else none
  | _ => some location

/-! ## §2. Locators. -/

/-- The bytes that an escaped text stands for, up to the first zero byte. -/
def decode : Bytes → Bytes
  | 37 :: high :: low :: rest =>
      match HexString.digitValue? high, HexString.digitValue? low with
      | some a, some b =>
          if 16 * a + b = 0 then [] else UInt8.ofNat (16 * a + b) :: decode rest
      | _, _ => 37 :: decode (high :: low :: rest)
  | b :: rest => b :: decode rest
  | [] => []

/-- The name and the value of an option; without an equals sign the value is
empty. -/
def optionOf (text : Bytes) : Bytes × Bytes :=
  (decode (text.takeWhile (· ≠ 61)), decode ((text.dropWhile (· ≠ 61)).drop 1))

/-- The options in a text, where ampersands stand between them.  Those without a
name do not count. -/
def optionsOf (text : Bytes) : List (Bytes × Bytes) :=
  ((split 38 text).map optionOf).filter fun option => option.1 ≠ []

/-- A locator without its authority, which has to be this machine. -/
def withoutAuthority? (text : Bytes) : Option Bytes :=
  match text with
  | 47 :: 47 :: rest =>
      let authority := rest.takeWhile (· ≠ 47)
      if authority = [] ∨ authority = Utf8.write "localhost" then
        some (rest.dropWhile (· ≠ 47))
      else none
  | _ => some text

/-- The location that a locator stands for, without its `file:`. -/
def ofLocator? (text : Bytes) : Option Location := do
  let text ← withoutAuthority? text
  let text := text.takeWhile (· ≠ 35)
  let options := optionsOf ((text.dropWhile (· ≠ 63)).drop 1)
  let first := fun name : String => options.lookup (Utf8.write name)
  let last := fun name : String => options.reverse.lookup (Utf8.write name)
  let location ← options.foldlM follow (ofPath (decode (text.takeWhile (· ≠ 63))))
  let locking ← match last "vfs" with
    | some system => lockingOf? (Utf8.readLossy system)
    | none => some .shared
  pure { location with
    locking
    unlocked := (first "nolock").any isSet
    immutable := (first "immutable").any isSet
    fixedIndex := (first "readonly_shm").any isSet
    pattern := first "modeof" }

/-- What a locator begins with. -/
def scheme : Bytes := Utf8.write "file:"

/-- The location that the name of a database points to, if it points anywhere. -/
def ofName? (name : Bytes) : Option Location :=
  if scheme.isPrefixOf name then ofLocator? (name.drop scheme.length)
  else some (ofPath name)

/-! ## §3. What a location allows. -/

/-- Whether a database there may be changed. -/
def isWritable (location : Location) : Bool :=
  location.mode ≠ .readOnly && !location.immutable

/-- Whether changes can be written to a log ahead of the database: its users have
to share memory for that, or there is only one of them. -/
def canLogAhead (location : Location) : Bool :=
  (location.locking = .shared || location.locking = .exclusive)
    && !location.unlocked && !location.immutable

/-- Whether this user needs no memory that is shared. -/
def isAlone (location : Location) : Bool :=
  location.locking = .exclusive && location.isWritable

/-- Whether a database can be kept from others who would write.  A lock for that
takes the right to write, if locks are used at all. -/
def canReserve (location : Location) : Bool :=
  location.isWritable || location.unlocked
    || location.locking = .token || location.locking = .careless

/-- Whether there is no file by the look of the path and the mode. -/
def isUnnamed (location : Location) : Bool :=
  location.mode = .memory || location.path = [] || location.path = Utf8.write ":memory:"

end Location

end FundTrail
