/-
  FundTrail.Config.Booking
  ────────────────────────
  **WHERE THE BOOKS ARE, AND WHAT GOES INTO THEM.**

  Every setting has a default, and a value that makes no sense counts as none:
  a misspelt threshold does not switch the threshold off.
-/
import FundTrail.Config.Environment
import FundTrail.Engine.Basic

namespace FundTrail

/-- The settings of the books. -/
structure BookingConfig where
  /-- The path of the database. -/
  database : String
  minTransfer : Amount
  /-- At most 10000, which is no fee at all. -/
  fee : Option Fee
  /-- The path of a document with exchanges to be seeded first. -/
  seedPath : Option String
  deriving DecidableEq, Repr

namespace BookingConfig

/-- The least value of a transfer in wei: digits only, and one ether unless the
variable says otherwise. -/
def minTransferOf (value : Option String) : Amount :=
  (value.bind Text.readAmount?).getD oneEther

/-- The fee in hundredths of a percent. -/
def feeOf (value : Option String) : Option Fee :=
  (value.bind (Text.readUnsigned? 32)).bind fun fee =>
    if fee.toNat ≤ 10000 then some fee else none

/-- The settings in an environment. -/
def ofEnvironment (env : Environment) : BookingConfig where
  database := (env.get? "CEXFLOW_DB_PATH").getD "cexflow.db"
  minTransfer := minTransferOf (env.get? "MIN_TRANSFER_WEI")
  fee := feeOf (env.get? "PRICE_FEE_BPS")
  seedPath := (env.get? "EXCHANGES_SEED_PATH").filter fun path => Text.trim path ≠ ""

/-- The engine's share of the settings. -/
def settings (c : BookingConfig) : Settings := ⟨c.minTransfer, c.fee⟩

end BookingConfig

end FundTrail
