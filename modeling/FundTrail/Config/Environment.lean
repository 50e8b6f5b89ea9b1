/-
  FundTrail.Config.Environment
  ────────────────────────────
  **SETTINGS COME FROM ENVIRONMENT VARIABLES.**

  A variable whose value is no text counts as unset, so an environment maps
  names to texts.  A file in the working directory may supply variables that are
  not set: one `NAME=value` a line, with quotes, escapes, `$NAME` for other
  variables, and comments.  The first line that is no such line ends the file;
  the lines before it count.  No variable can hold a NUL: a line that is to set
  one spoils everything.

  Main definitions: `Environment.get?` and `Environment.supply`.
-/
import FundTrail.Text.Blank
import FundTrail.Text.Letter
import FundTrail.Text.Numeral

namespace FundTrail

/-- The variables that are set, with their values; of several entries for one
name the first counts. -/
structure Environment where
  entries : List (String × String)
  deriving DecidableEq, Repr

namespace Environment

/-- No variables. -/
def empty : Environment := ⟨[]⟩

/-- The value of a variable, if it is set. -/
def get? (env : Environment) (name : String) : Option String := env.entries.lookup name

/-- Set a variable. -/
def set (env : Environment) (name value : String) : Environment :=
  ⟨(name, value) :: env.entries⟩

/-- Set a variable, unless it is set. -/
def setDefault (env : Environment) (name value : String) : Environment :=
  if (env.get? name).isSome then env else env.set name value

/-- A variable that counts something; what is no such number counts as unset. -/
def count? (env : Environment) (bits : Nat) (name : String) : Option (Word bits) :=
  (env.get? name).bind (Text.readUnsigned? bits)

/-! ## §1. Values in a file of variables. -/

/-- What the next character of a value belongs to. -/
inductive ValueMode where
  | bare
  | singleQuoted
  | doubleQuoted
  /-- Behind the blank that ends a bare value. -/
  | ended
  deriving DecidableEq, Repr

/-- The reference to another variable that is being read.  Letters and digits of
all scripts can stand in its name, and between braces any character. -/
inductive Reference where
  | none
  /-- Behind a dollar sign; `name` holds the characters so far, in reverse. -/
  | open (name : List Char)
  /-- Behind a dollar sign and a brace. -/
  | braced (name : List Char)
  deriving DecidableEq, Repr

/-- What a backslash and a character stand for. -/
def escape? (c : Char) : Option Char :=
  if c = '\\' ∨ c = '\'' ∨ c = '"' ∨ c = '$' ∨ c = ' ' then some c
  else if c = 'n' then some '\n'
  else none

/-- The characters of a value, or none if it is malformed.  `valueOf` gives the
values of the variables that are referred to; `mode` is the state of quoting and
`escaped` says that a backslash came before. -/
def valueChars (valueOf : String → String) :
    ValueMode → Bool → Reference → List Char → Option (List Char)
  | mode, _, .none, [] =>
      if mode = .singleQuoted ∨ mode = .doubleQuoted then none else some []
  | mode, _, .open name, [] =>
      if mode = .singleQuoted ∨ mode = .doubleQuoted then none
      else some (valueOf (String.ofList name.reverse)).toList
  | _, _, .braced _, [] => none
  | .ended, _, ref, c :: cs =>
      if c = ' ' ∨ c = '\t' then valueChars valueOf .ended false ref cs
      else if c = '#' then some []
      else none
  | mode, true, ref, c :: cs =>
      (escape? c).bind fun d => (valueChars valueOf mode false ref cs).map (d :: ·)
  | .singleQuoted, false, ref, c :: cs =>
      if c = '\'' then valueChars valueOf .bare false ref cs
      else (valueChars valueOf .singleQuoted false ref cs).map (c :: ·)
  | mode, false, .open name, c :: cs =>
      if Text.isLetterOrDigit c then valueChars valueOf mode false (.open (c :: name)) cs
      else if c = '\x7b' ∧ name = [] then valueChars valueOf mode false (.braced []) cs
      else
        let value := (valueOf (String.ofList name.reverse)).toList
        if c = '$' then (valueChars valueOf mode false (.open []) cs).map (value ++ ·)
        else (valueChars valueOf mode false .none cs).map (value ++ c :: ·)
  | mode, false, .braced name, c :: cs =>
      if c = '\x7d' then
        (valueChars valueOf mode false .none cs).map
          ((valueOf (String.ofList name.reverse)).toList ++ ·)
      else valueChars valueOf mode false (.braced (c :: name)) cs
  | mode, false, .none, c :: cs =>
      if c = '$' then valueChars valueOf mode false (.open []) cs
      else if c = '\\' then valueChars valueOf mode true .none cs
      else if mode = .doubleQuoted then
        if c = '"' then valueChars valueOf .bare false .none cs
        else (valueChars valueOf mode false .none cs).map (c :: ·)
      else if c = '\'' then valueChars valueOf .singleQuoted false .none cs
      else if c = '"' then valueChars valueOf .doubleQuoted false .none cs
      else if c = ' ' ∨ c = '\t' then valueChars valueOf .ended false .none cs
      else (valueChars valueOf mode false .none cs).map (c :: ·)

/-! ## §2. Lines. -/

/-- What a line of the file says. -/
inductive Line where
  /-- Nothing: it is blank or a comment. -/
  | nothing
  | entry (name value : String)
  | malformed
  deriving DecidableEq, Repr

/-- The name at the front of a line, and what follows it. -/
def lineName? : List Char → Option (String × List Char)
  | [] => none
  | c :: cs =>
      if c.isAlpha ∨ c = '_' then
        let continues := fun d : Char => d.isAlphanum || d == '_' || d == '.'
        some (String.ofList (c :: cs.takeWhile continues), cs.dropWhile continues)
      else none

/-- What follows the equals sign, with blanks around it. -/
def afterEquals? (cs : List Char) : Option (List Char) :=
  match Text.trimFront cs with
  | '=' :: rest => some (Text.trimFront rest)
  | _ => none

/-- The name and the text of the value; the word `export` may stand in front. -/
def splitLine? (cs : List Char) : Option (String × List Char) := do
  let (name, rest) ← lineName? cs
  match afterEquals? rest with
  | some value => pure (name, value)
  | none =>
      if name = "export" then
        let (name, rest) ← lineName? (Text.trimFront rest)
        let value ← afterEquals? rest
        pure (name, value)
      else none

/-- Read a line. -/
def readLine (valueOf : String → String) (line : String) : Line :=
  match Text.trimChars line.toList with
  | [] => .nothing
  | '#' :: _ => .nothing
  | cs =>
    match splitLine? cs with
    | none => .malformed
    | some (name, []) => .entry name ""
    | some (name, '#' :: _) => .entry name ""
    | some (name, value) =>
      match valueChars valueOf .bare false .none value with
      | some cs => .entry name (String.ofList cs)
      | none => .malformed

/-- The value of a variable that is set, for a name that may contain an equals
sign.  A variable is kept as `NAME=value`, so such a name reaches into a value. -/
def reach? (env : Environment) (name : String) : Option String :=
  let start := name.toList ++ ['=']
  env.entries.findSome? fun (other, value) =>
    let kept := other.toList ++ '=' :: value.toList
    if start.isPrefixOf kept then some (String.ofList (kept.drop start.length)) else none

/-- The value of a variable that a line refers to: from the environment, else
from the lines above (in reverse in `seen`), else empty. -/
def referred (env : Environment) (seen : List (String × String)) (name : String) : String :=
  ((env.reach? name).orElse fun _ => seen.lookup name).getD ""

/-- Supply variables from the lines of a file; none if a variable is to be set to
what it cannot hold. -/
def supplyLines (env : Environment) (seen : List (String × String)) :
    List String → Option Environment
  | [] => some env
  | line :: lines =>
      match readLine (env.referred seen) line with
      | .nothing => supplyLines env seen lines
      | .entry name value =>
          if (env.get? name).isNone && value.toList.contains '\x00' then none
          else supplyLines (env.setDefault name value) ((name, value) :: seen) lines
      | .malformed => some env

/-- The lines of a text; the last one may lack its end. -/
def linesOf (text : String) : List String :=
  go [] text.toList
where
  /-- The characters of the line so far are in `line`, in reverse. -/
  go (line : List Char) : List Char → List String
    | [] => if line.isEmpty then [] else [String.ofList line.reverse]
    | '\n' :: cs => String.ofList line.reverse :: go [] cs
    | c :: cs => go (c :: line) cs

/-- Supply variables from a file with this text. -/
def supply (env : Environment) (text : String) : Option Environment :=
  supplyLines env [] (linesOf text)

end Environment

end FundTrail
