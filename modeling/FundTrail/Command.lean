/-
  FundTrail.Command
  ─────────────────
  **THE TWO COMMANDS, OVER A DISK THAT IS A VALUE.**

  One command seeds exchanges and ends.  The other one runs the pipeline: it
  reads its settings, opens the books, seeds exchanges if it is told to, and
  connects to a node.  Both take their settings from the environment, to which
  a file `.env` in the working directory may supply what is missing.

  A command leaves another disk behind, whether it succeeds or not: what it has
  written before it fails is written.
-/
import FundTrail.Disk.Database
import FundTrail.Seed.Exchanges
import FundTrail.Config.Booking
import FundTrail.Config.Stream
import FundTrail.Node.Reader

namespace FundTrail

open FundTrail.Store

/-- A command. -/
inductive Command where
  /-- Seed exchanges from a document. -/
  | seed
  /-- Run the pipeline. -/
  | pipeline
  deriving DecidableEq, Repr

/-- Why a command fails. -/
inductive CommandError where
  /-- The file of variables sets one to what no variable can hold. -/
  | badVariable
  | config (error : ConfigError)
  | seed (error : SeedError)
  /-- No database can be opened under the name that is set. -/
  | noDatabase
  | store (error : StoreError)
  | chain (error : ChainError)
  deriving DecidableEq, Repr

namespace CommandError

/-- The wording of a command that failed. -/
def message : CommandError → String
  | .badVariable => "a variable cannot hold a zero byte"
  | .config error => error.message
  | .seed error => error.message
  | .noDatabase => "database error: unable to open database file"
  | .store error => error.message
  | .chain error => error.message

/-- The exit code of a command that failed.  A command that cannot even take over
its variables is broken off. -/
def exitCode : CommandError → Nat
  | .badVariable => 101
  | _ => 1

end CommandError

namespace Command

/-! ## §1. Settings and documents. -/

/-- Where exchanges are found unless something else is said. -/
def defaultSeedPath : String := "data/exchanges.json"

/-- The file of variables. -/
def variablesPath : Path := Utf8.write ".env"

/-- The environment with what the file of variables supplies. -/
def settle (env : Environment) (d : Disk) : Except CommandError Environment :=
  match (d.read? variablesPath).bind Utf8.read? with
  | none => .ok env
  | some text =>
    match env.supply text with
    | some env => .ok env
    | none => .error .badVariable

/-- Where the document is that a command seeds, if it seeds one.  The command to
seed takes the path that is named first, else the one in the settings, else the
usual one. -/
def documentPath (command : Command) (args : List String) (config : BookingConfig) :
    Option String :=
  match command with
  | .seed => some ((args.head?.orElse fun _ => config.seedPath).getD defaultSeedPath)
  | .pipeline => config.seedPath

/-- The exchanges of a document, or none if no document is wanted. -/
def document (path : Option String) (d : Disk) : Except CommandError (List Exchange) :=
  match path with
  | none => .ok []
  | some path => (Seed.exchangesOfFile (d.read? (Utf8.write path))).mapError .seed

/-- The places at which a command looks, apart from the file of variables. -/
def places (command : Command) (args : List String) (env : Environment) (d : Disk) :
    List Place :=
  let config := BookingConfig.ofEnvironment env
  let database := Utf8.write config.database
  let located := match Location.ofName? database with
    | none => []
    | some location =>
        location.path :: location.pattern.toList
          ++ Companion.all.map fun companion => location.path ++ companion.ending
  let document := (command.documentPath args config).toList.map Utf8.write
  (database :: located ++ document).flatMap d.trail

/-! ## §2. Work on a database. -/

/-- Run work on the books of a database, and keep what it makes of them; the work
is told what is on the disk by then.  The directory that the database's name is
in is made first, whether its name is a path or not. -/
def onDatabase (database : String) (d : Disk)
    (work : Disk → Handle → Except CommandError Unit × Handle) :
    Except CommandError Unit × Disk :=
  let name := Utf8.write database
  match d.makeParent name with
  | (false, d) => (.error .noDatabase, d)
  | (true, d) =>
    match Location.ofName? name with
    | none => (.error .noDatabase, d)
    | some location =>
      match d.openDatabase location with
      | (none, d) => (.error .noDatabase, d)
      | (some opened, d) =>
          let (result, h) := work d opened.handle
          (result, d.close opened h)

/-- Seed exchanges into the books behind a handle, and look through all that are
there. -/
def sow (es : List Exchange) (h : Handle) : Except CommandError Unit × Handle :=
  match Seed.sow h es with
  | (.error e, h) => (.error (.store e), h)
  | (.ok _, h) => (((h.books.all .exchanges).map fun _ => ()).mapError .store, h)

/-! ## §3. The commands. -/

/-- Seed exchanges.  The document is read before the books are opened. -/
def runSeed (args : List String) (env : Environment) (d : Disk) :
    Except CommandError Unit × Disk :=
  let config := BookingConfig.ofEnvironment env
  match document (documentPath .seed args config) d with
  | .error e => (.error e, d)
  | .ok es => onDatabase config.database d fun _ => sow es

/-- Seed the exchanges of the document that the settings name, if they name any. -/
def sowDocument (path : Option String) (d : Disk) (h : Handle) :
    Except CommandError Unit × Handle :=
  match document path d with
  | .error e => (.error e, h)
  | .ok es => sow es h

/-- Run the pipeline up to the node; `wireTo` finds the way to a node's address,
if there is one.  The settings of the stream come first: without them the books
are not opened. -/
def runPipeline (wireTo : String → Option (Node.Wire Unit)) (env : Environment) (d : Disk) :
    Except CommandError Unit × Disk :=
  match StreamConfig.ofEnvironment env with
  | .error e => (.error (.config e), d)
  | .ok stream =>
    let config := BookingConfig.ofEnvironment env
    onDatabase config.database d fun d h =>
      match sowDocument (documentPath .pipeline [] config) d h with
      | (.error e, h) => (.error e, h)
      | (.ok (), h) =>
        let (connection, _) :=
          Node.connect (wireTo stream.nodeUrl) stream.settings.fetchTimeout ()
        ((connection.map fun _ => ()).mapError .chain, h)

/-- Run a command. -/
def run (wireTo : String → Option (Node.Wire Unit)) (command : Command) (args : List String)
    (env : Environment) (d : Disk) : Except CommandError Unit × Disk :=
  match settle env d with
  | .error e => (.error e, d)
  | .ok env =>
    match command with
    | .seed => runSeed args env d
    | .pipeline => runPipeline wireTo env d

end Command

end FundTrail
