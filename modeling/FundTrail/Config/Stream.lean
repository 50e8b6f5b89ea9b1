/-
  FundTrail.Config.Stream
  ───────────────────────
  **WHICH NODE TO LISTEN TO, AND HOW PATIENTLY.**

  The node's address has no default, and has to be that of a web socket.  Times
  are whole seconds.
-/
import FundTrail.Config.Environment
import FundTrail.Stream.Streamer

namespace FundTrail

/-- A time in whole seconds. -/
abbrev Seconds := Word 64

/-- The settings of a stream. -/
structure StreamConfig where
  nodeUrl : String
  /-- Which messages are logged. -/
  logFilter : String
  fetchTimeout : Seconds
  initialDelay : Seconds
  maxDelay : Seconds
  maxRetries : Retries
  backfill : Bool
  maxBackfill : Height
  deriving DecidableEq, Repr

/-- Why an environment holds no settings. -/
inductive ConfigError where
  | missing (variableName : String)
  | noWebSocket
  | zeroTimeout
  | delaysReversed (longest initial : Seconds)
  deriving DecidableEq, Repr

/-- The wording of settings that cannot be used. -/
def ConfigError.message : ConfigError → String
  | .missing variableName => "Missing environment variable: " ++ variableName
  | .noWebSocket =>
      "Invalid configuration value: ETH_RPC_URL must start with ws:// or wss:// (header subscriptions need a websocket)"
  | .zeroTimeout =>
      "Invalid configuration value: BLOCK_FETCH_TIMEOUT_SECS must be greater than zero"
  | .delaysReversed longest initial =>
      s!"Invalid configuration value: RECONNECT_MAX_DELAY_SECS ({longest.toNat}) is below RECONNECT_INITIAL_DELAY_SECS ({initial.toNat})"

namespace StreamConfig

/-- Whether the address is that of a web socket. -/
def isWebSocket (url : String) : Bool :=
  "ws://".toList.isPrefixOf url.toList || "wss://".toList.isPrefixOf url.toList

/-- Whether gaps are filled: yes, unless the variable says `false`, in letters of
either case and nothing else. -/
def backfillOf (value : Option String) : Bool :=
  match value with
  | none => true
  | some s => s.toLower ≠ "false"

/-- The settings in an environment. -/
def ofEnvironment (env : Environment) : Except ConfigError StreamConfig :=
  match env.get? "ETH_RPC_URL" with
  | none => .error (.missing "ETH_RPC_URL")
  | some url =>
    if !isWebSocket url then .error .noWebSocket
    else
      let fetchTimeout := (env.count? 64 "BLOCK_FETCH_TIMEOUT_SECS").getD (Word.clamp 10)
      let initialDelay := (env.count? 64 "RECONNECT_INITIAL_DELAY_SECS").getD (Word.clamp 2)
      let maxDelay := (env.count? 64 "RECONNECT_MAX_DELAY_SECS").getD (Word.clamp 60)
      if fetchTimeout = 0 then .error .zeroTimeout
      else if maxDelay < initialDelay then .error (.delaysReversed maxDelay initialDelay)
      else
        .ok {
          nodeUrl := url
          logFilter := (env.get? "RUST_LOG").getD "info"
          fetchTimeout
          initialDelay
          maxDelay
          maxRetries := (env.count? 32 "RECONNECT_MAX_RETRIES").getD (Word.clamp 8)
          backfill := backfillOf (env.get? "ENABLE_BACKFILL")
          maxBackfill := (env.count? 64 "MAX_BACKFILL_BLOCKS").getD (Word.clamp 64) }

/-- The streamer's share of the settings. -/
def settings (c : StreamConfig) : StreamSettings where
  fetchTimeout := .ofSeconds c.fetchTimeout.toNat
  initialDelay := .ofSeconds c.initialDelay.toNat
  maxDelay := .ofSeconds c.maxDelay.toNat
  maxRetries := c.maxRetries
  backfill := c.backfill
  maxBackfill := c.maxBackfill

end StreamConfig

end FundTrail
