/-
  FundTrail.Main
  ──────────────
  **THE COMMAND LINE.**

      seed [DOCUMENT]    seed exchanges into the database
      pipeline           run the pipeline

  What a command does is settled by `Command.run` on a disk that is a value.
  Here that value is read off the file system, and what the command leaves
  changed is written back.  There is no way to a node in this program.
-/
import FundTrail.Command
import FundTrail.Disk.Archive

namespace FundTrail

open FundTrail.Store

/-- The words of a text, cut where `isPart` fails. -/
def wordsOf (isPart : Char → Bool) (text : String) : List String :=
  text.splitToList fun c => !isPart c

/-- The variables that the settings are read from. -/
def settingNames : List String :=
  ["CEXFLOW_DB_PATH", "MIN_TRANSFER_WEI", "PRICE_FEE_BPS", "EXCHANGES_SEED_PATH",
    "ETH_RPC_URL", "RUST_LOG", "BLOCK_FETCH_TIMEOUT_SECS", "RECONNECT_INITIAL_DELAY_SECS",
    "RECONNECT_MAX_DELAY_SECS", "RECONNECT_MAX_RETRIES", "ENABLE_BACKFILL",
    "MAX_BACKFILL_BLOCKS"]

/-- The variables that matter: those of the settings, and whatever the file of
variables may set or refer to. -/
def namesOfInterest (file : String) : List String :=
  let isPart := Text.isLetterOrDigit
  let names := wordsOf isPart file ++ wordsOf (fun c => isPart c || c == '_') file
  settingNames ++ names.filter (· ≠ "")

/-- The values of those variables that are set. -/
def readEnvironment (names : List String) : IO Environment := do
  let entries ← names.mapM fun name => do
    pure ((← IO.getEnv name).map fun value => (name, value))
  pure ⟨entries.filterMap id⟩

/-- Put on the disk what is at a place: a directory, a database, another file, or
nothing.  What is there and cannot be read counts as a directory. -/
def look (d : Disk) (place : Place) : IO Disk := do
  let some path := Utf8.read? place.path | return d
  if d.get? place.dropLast ≠ some .directory then return d
  try
    let bytes := (← IO.FS.readBinFile path).data.toList
    pure (d.put place (match Archive.read? bytes with
      | some (books, journal) => .database books journal
      | none => .file bytes))
  catch e =>
    match e with
    | .noFileOrDirectory .. => pure d
    | _ => pure (d.put place .directory)

/-- Write what is at a place. -/
def save (place : Place) (entry : Entry) : IO Unit := do
  let some path := Utf8.read? place.path | return
  match entry with
  | .directory => IO.FS.createDirAll path
  | .file contents => IO.FS.writeBinFile path ⟨contents.toArray⟩
  | .database books journal => IO.FS.writeBinFile path ⟨(Archive.write books journal).toArray⟩

/-- Run a command in the working directory. -/
def runCommand (command : Command) (args : List String) : IO UInt32 := do
  let d := Disk.new (Utf8.write (← IO.currentDir).toString)
  let d ← (d.trail Command.variablesPath).foldlM look d
  let file := ((d.read? Command.variablesPath).bind Utf8.read?).getD ""
  let env ← readEnvironment (namesOfInterest file)
  let places := match Command.settle env d with
    | .ok env => command.places args env d
    | .error _ => []
  let before ← places.foldlM look d
  let (result, after) := command.run (fun _ => none) args env before
  for (place, _) in before.entries do
    if (after.get? place).isNone then
      if let some path := Utf8.read? place.path then IO.FS.removeFile path
  -- what was put first is in last, so directories come before what is in them
  for (place, entry) in after.entries.reverse do
    unless before.get? place = some entry do save place entry
  match result with
  | .ok () => pure 0
  | .error e =>
      IO.eprintln ("error: " ++ e.message)
      pure (UInt32.ofNat e.exitCode)

end FundTrail

open FundTrail

/-- Run the command that is named first. -/
def main (args : List String) : IO UInt32 := do
  match args with
  | "seed" :: rest => runCommand .seed rest
  | "pipeline" :: rest => runCommand .pipeline rest
  | _ =>
      IO.eprintln "usage: seed [DOCUMENT] | pipeline"
      pure 2
