/-
  FundTrail.Proofs.Disk.Reopening
  ───────────────────────────────
  **A PLAIN DATABASE CAN ALWAYS BE OPENED AGAIN.**

  Where nothing is, opening the database of a plain path makes one without records,
  and it is used with a log.  When it is closed, log and index go, and the database
  stays alone with its books.  That it can be opened again, and written to, is not a
  matter of course: at each step there could be no room for a companion.  There is,
  as long as the name of the database leaves eight bytes for the longest ending.

  Main facts: `openSite_vacant`, `closeSite_atWork` and `openSite_quiet`.
-/
import FundTrail.Disk.Opening

namespace FundTrail

open FundTrail.Store

/-! ## §1. Room for companions. -/

theorem Companion.length_ending_le (companion : Companion) : companion.ending.length ≤ 8 := by
  cases companion <;> decide

namespace Site

/-- The name of the database leaves room for the ending of every companion. -/
def Roomy (nameLength : Nat) : Prop := nameLength + 8 ≤ Disk.longestName

theorem hasRoom_of_none {s : Site} {companion : Companion} (hroom : Roomy s.nameLength)
    (h : s.beside companion = none) : s.hasRoom companion = true := by
  have hlength : s.nameLength + companion.ending.length ≤ Disk.longestName :=
    calc s.nameLength + companion.ending.length
        ≤ s.nameLength + 8 := Nat.add_le_add_left companion.length_ending_le _
      _ ≤ Disk.longestName := hroom
  unfold hasRoom
  rw [h, decide_eq_true hlength]
  rfl

/-! ## §2. The life of a plain database. -/

/-- A site with nothing at it. -/
def vacant (nameLength : Nat) : Site := ⟨nameLength, none, fun _ => none⟩

/-- A database that nobody is at work with. -/
def quiet (nameLength : Nat) (b : Books) : Site :=
  ⟨nameLength, some (.database (some b) .writeAhead), fun _ => none⟩

/-- A database whose user has a log. -/
def atWork (nameLength : Nat) (b : Books) (log : Bytes) : Site :=
  ((quiet nameLength b).set .log (some (.file log))).set .index (some (.file Opening.inUse))

end Site

namespace Opening

open Visit Site

variable (path : Path) {nameLength : Nat}

/-- How a plain database with these books is opened. -/
def plainly (b : Books) : Opened := ⟨b, .readWrite, .writeAhead, .running⟩

theorem openLog_of_room {s : Site} (h : s.hasRoom .log = true) :
    openLog (.ofPath path) s = findIndex (.ofPath path)
      (s.set .log ((s.beside .log).getD (.file []))) := by
  show (require (_ && s.hasRoom .log) >>= _) s = _
  rw [h]
  rfl

/-- **A database that is closed can be opened again, with its books.** -/
theorem openSite_quiet (hroom : Roomy nameLength) (b : Books) :
    openSite (.ofPath path) (quiet nameLength b)
      = (some (plainly b), atWork nameLength b []) := by
  have hopen : openLog (.ofPath path) (quiet nameLength b)
      = (some .running, atWork nameLength b []) :=
    openLog_of_room path (hasRoom_of_none hroom rfl)
  -- nothing lies beside the database, so its log is opened right away
  show (openLog (.ofPath path) >>= _) (quiet nameLength b) = _
  rw [bind_eq, hopen]
  rfl

/-- **Where nothing is, a database without records is opened.** -/
theorem openSite_vacant (hroom : Roomy nameLength) :
    openSite (.ofPath path) (vacant nameLength)
      = (some (plainly .empty), atWork nameLength .empty inUse) := by
  -- the file is made first, and is empty; then it becomes a database with a log
  let fresh : Site := ⟨nameLength, some (.file []), fun _ => none⟩
  let begun : Site := { fresh.clear .journal with file := some (.database none .writeAhead) }
  have hwrite : writeWithJournal (.ofPath path) fresh = (some (), fresh.clear .journal) := by
    show (require (_ && fresh.hasRoom .journal) >>= _) fresh = _
    rw [hasRoom_of_none hroom rfl]
    rfl
  have hstart : startLog (.ofPath path) fresh
      = (some .running, (begun.set .log (some (.file []))).set .index (some (.file inUse))) := by
    show (writeWithJournal (.ofPath path) >>= _) fresh = _
    rw [bind_eq, hwrite]
    exact openLog_of_room path (s := begun) (hasRoom_of_none hroom rfl)
  -- the buckets are made last
  show (startLog (.ofPath path) >>= _) fresh = _
  rw [bind_eq, hstart]
  show (some (Opened.mk _ _ _ _), Site.mk _ _ _) = _
  unfold plainly
  congr 2
  funext companion
  cases companion <;> rfl

/-- **Closing leaves the database alone with its books.** -/
theorem closeSite_atWork (b found : Books) (log : Bytes) (h : Handle) :
    closeSite (.ofPath path) (plainly b) h (atWork nameLength found log)
      = quiet nameLength h.books := by
  unfold closeSite
  show Site.mk _ _ _ = _
  congr 1
  funext companion
  cases companion <;> rfl

end Opening

end FundTrail
