/-
  FundTrail.Seed.Exchanges
  ────────────────────────
  **FROM A SEED DOCUMENT TO THE EXCHANGES IN THE BOOKS.**

  The entries of a document are checked one by one: a name must not be blank, an
  address must neither be zero nor stand in the document twice.  What passes is
  written over the exchanges that are already in the books, all of it in one
  transaction; exchanges that the document does not mention stay.

  Main definitions: `exchanges` — what a document says — and `sow`, which writes
  it into the books.
-/
import FundTrail.Seed.Document
import FundTrail.Store.Handle
import FundTrail.Text.Blank
import FundTrail.Text.Quoted

namespace FundTrail

/-- Why exchanges could not be seeded. -/
inductive SeedError where
  /-- There is no such file. -/
  | missingFile
  /-- The file is not UTF-8. -/
  | notText
  | document (fault : Seed.DocumentFault)
  /-- The entry with this name has a blank name or the zero address. -/
  | invalidEntry (name : String)
  | duplicateAddress (address : Address)
  | store (error : Store.StoreError)
  deriving DecidableEq, Repr

/-- The wording of a failure to seed. -/
def SeedError.message : SeedError → String
  | .missingFile => "failed to read seed file: No such file or directory (os error 2)"
  | .notText => "failed to read seed file: stream did not contain valid UTF-8"
  | .document _ => "invalid seed JSON"
  | .invalidEntry name => "exchange " ++ Text.quote name ++ " has an empty name or zero address"
  | .duplicateAddress address => "address " ++ address.text ++ " listed twice"
  | .store error => error.message

namespace Seed

open FundTrail.Store

/-! ## §1. What a document says. -/

/-- Check entries in order; the addresses in `seen` stand before them. -/
def check (seen : List Address) : List Entry → Except SeedError (List Exchange)
  | [] => .ok []
  | e :: es =>
      if Text.trim e.name = "" ∨ e.address = .zero then .error (.invalidEntry (Text.trim e.name))
      else if e.address ∈ seen then .error (.duplicateAddress e.address)
      else (check (e.address :: seen) es).map (⟨Text.trim e.name, e.address⟩ :: ·)

/-- The exchanges in a document. -/
def exchanges (document : Bytes) : Except SeedError (List Exchange) :=
  match entries document with
  | .error fault => .error (.document fault)
  | .ok es => check [] es

/-- The exchanges in a file; none stands for a file that is not there. -/
def exchangesOfFile (contents : Option Bytes) : Except SeedError (List Exchange) :=
  match contents with
  | none => .error .missingFile
  | some bs => if (Utf8.read? bs).isSome then exchanges bs else .error .notText

/-! ## §2. What it does to the books. -/

/-- Write exchanges, in order. -/
def sowing : List Exchange → Work StoreError Unit
  | [] => pure ()
  | e :: es => do
      .put .exchanges e
      sowing es

/-- Seed exchanges in one transaction, and count them.  Where there is nothing
to write, the right to write is not needed. -/
def sow (h : Handle) (es : List Exchange) : Except StoreError Nat × Handle :=
  h.update do
    sowing es
    pure es.length

/-- Seed the exchanges in a document. -/
def sowDocument (h : Handle) (document : Bytes) : Except SeedError Nat × Handle :=
  match exchanges document with
  | .error e => (.error e, h)
  | .ok es =>
    match sow h es with
    | (.ok n, h) => (.ok n, h)
    | (.error e, h) => (.error (.store e), h)

end Seed

end FundTrail
