/-
  FundTrail.Disk.Opening
  ──────────────────────
  **OPENING AND CLOSING A DATABASE AT ITS SITE.**

  Who opens a database first looks at what others have left beside it:

      journal    a change was not finished; it is undone, and the journal goes
      log        changes are there; with the log in use they count
      neither    the database is as its file says

  An empty file is a database without anything, so that a journal or a log beside
  it is void.  A database that was rolled back so far logs ahead from now on, if
  its users can do that, and one without buckets gets them.  All this takes the
  right to write, and each step may fail: what the steps before it have done
  stays.

  When the last user closes a database, its log has been worked off, and log and
  index go.  A user who may only read leaves them.

  Main definitions: `Opening.openSite` and `Opening.closeSite`; main facts:
  `books_openSite` — books are opened as they are — and `books?_closeSite`.
-/
import FundTrail.Disk.Site
import FundTrail.Disk.Location
import FundTrail.Store.Handle

namespace FundTrail

open FundTrail.Store

namespace Opening

/-! ## §1. Visits to a site. -/

/-- A visit to a site that may be broken off; what has been done by then is done. -/
def Visit (α : Type) : Type := Site → Option α × Site

namespace Visit

variable {α β : Type}

instance : Monad Visit where
  pure x := fun s => (some x, s)
  bind visit next := fun s =>
    match visit s with
    | (some x, s) => next x s
    | (none, s) => (none, s)

/-- Look at the site. -/
def look : Visit Site := fun s => (some s, s)

/-- Change the site. -/
def change (f : Site → Site) : Visit Unit := fun s => (some (), f s)

/-- Go on only if this holds. -/
def require (b : Bool) : Visit Unit := fun s => (if b then some () else none, s)

/-- Break off. -/
def breakOff : Visit α := fun s => (none, s)

theorem bind_eq (visit : Visit α) (next : α → Visit β) (s : Site) :
    (visit >>= next) s = match visit s with
      | (some x, s) => next x s
      | (none, s) => (none, s) := rfl

/-- What a visit in two parts yields is what the second one does, after the first. -/
theorem bind_eq_some {visit : Visit α} {next : α → Visit β} {s : Site} {y : β}
    (h : ((visit >>= next) s).1 = some y) :
    ∃ x, (visit s).1 = some x ∧ (next x (visit s).2).1 = some y := by
  rw [bind_eq] at h
  split at h
  next x s' he => exact ⟨x, by rw [he], by rw [he]; exact h⟩
  next => exact absurd h (by simp)

/-- Whether a visit keeps the books that are in the database. -/
def Keeps (visit : Visit α) : Prop := ∀ s, (visit s).2.books? = s.books?

theorem keeps_pure (x : α) : (pure x : Visit α).Keeps := fun _ => rfl

theorem keeps_look : look.Keeps := fun _ => rfl

theorem keeps_require (b : Bool) : (require b).Keeps := fun _ => rfl

theorem keeps_breakOff : (breakOff : Visit α).Keeps := fun _ => rfl

theorem keeps_set (companion : Companion) (entry : Site → Option Entry) :
    (change fun s => s.set companion (entry s)).Keeps := fun _ => rfl

theorem Keeps.bind {visit : Visit α} {next : α → Visit β} (h : visit.Keeps)
    (hn : ∀ x, (next x).Keeps) : (visit >>= next).Keeps := by
  intro s
  have hs := h s
  rw [bind_eq]
  split
  next x s' he => rw [he] at hs; exact (hn x s').trans hs
  next s' he => rw [he] at hs; exact hs

theorem Keeps.ite {b : Prop} [Decidable b] {visit other : Visit α} (h : visit.Keeps)
    (ho : other.Keeps) : (if b then visit else other).Keeps := by
  split
  next => exact h
  next => exact ho

end Visit

open Visit

/-! ## §2. The file, and what lies beside it. -/

/-- What stands in a file that a database is at work in: it is not empty, and it is no
text. -/
def inUse : Bytes := [255, 255]

/-- How the log of a database is used. -/
inductive LogUse where
  /-- There is none. -/
  | absent
  | running
  /-- What is in it counts, but nothing can be added to it. -/
  | frozen
  deriving DecidableEq, Repr

/-- Find the file of the database, or make it. -/
def findFile (location : Location) : Visit Unit := fun s =>
  match s.file with
  | some .directory => (none, s)
  | some _ => (some (), s)
  | none =>
      if location.mode = .create then (some (), { s with file := some (.file []) })
      else (none, s)

/-- Keep the others out: there must be no token of theirs. -/
def enter (location : Location) : Visit Unit := do
  let s ← look
  require (location.locking ≠ .token || location.unlocked
    || (s.beside .token).isNone && s.hasRoom .token)

/-- Whether a journal is looked at.  It is left alone while a user is at work, and
who has set up a token takes itself for one. -/
def looksAtJournal (location : Location) (s : Site) : Bool :=
  location.locking ≠ .token || location.unlocked && (s.beside .token).isNone

/-- Undo what a journal says was not finished.  Nobody leaves an unfinished change
behind, so whatever lies there undoes nothing and only goes.  A journal that starts
with a zero byte is finished, and one beside an empty file is void. -/
def settleJournal (location : Location) : Visit Unit := do
  let s ← look
  if looksAtJournal location s && s.holds .journal then
    if s.isEmpty then
      if location.canReserve && s.beside .journal ≠ some .directory then
        change (·.clear .journal)
      else pure ()
    else
      match s.beside .journal with
      | some .directory => breakOff
      | some (.file (0 :: _)) => pure ()
      | _ =>
          require location.isWritable
          change (·.clear .journal)
  else pure ()

/-- Find the index of the log, or make it. -/
def findIndex (location : Location) : Visit LogUse := do
  if location.isAlone then pure .running
  else
    let s ← look
    if location.fixedIndex || s.beside .index = some .directory then
      require ((s.beside .index).isSome && s.isLegible)
      pure .frozen
    else
      change (·.set .index (some (.file inUse)))
      pure .running

/-- Use the log; it is made if it is not there. -/
def openLog (location : Location) : Visit LogUse := do
  let s ← look
  require (location.canLogAhead && s.hasRoom .log)
  change (·.set .log ((s.beside .log).getD (.file [])))
  findIndex location

/-- Use the log that is there; beside an empty file it is void. -/
def settleLog (location : Location) : Visit LogUse := do
  let s ← look
  if s.holds .log then
    if s.isEmpty then
      require (s.beside .log ≠ some .directory)
      change (·.clear .log)
      pure .absent
    else openLog location
  else pure .absent

/-- Leave the log: it is worked off and goes, with its index, unless this user may
not change it. -/
def leaveLog (location : Location) (log : LogUse) (s : Site) : Site :=
  if log = .running && location.isWritable then
    if location.isAlone then s.clear .log else (s.clear .log).clear .index
  else s

/-! ## §3. Opening. -/

/-- What there is to open. -/
structure Opened where
  books : Books
  access : Access
  journal : Journal
  log : LogUse

/-- The books at a site, if there are any, and the kind of database; an empty file is
one that can still become either kind, and other files are none. -/
def content? (s : Site) : Option (Option Books × Option Journal) :=
  match s.file with
  | some (.database books journal) => some (books, some journal)
  | _ => if s.isEmpty then some (none, none) else none

/-- Write to the database itself, with a journal meanwhile. -/
def writeWithJournal (location : Location) : Visit Unit := do
  require (location.isWritable && (← look).hasRoom .journal)
  change (·.clear .journal)

/-- Use a log from now on. -/
def startLog (location : Location) : Visit LogUse := do
  writeWithJournal location
  change fun s => { s with file := some (.database s.books? .writeAhead) }
  openLog location

/-- Bring the log of a database into use if it has one, or if it can have one. -/
def bringLog (location : Location) (journal : Option Journal) (log : LogUse) :
    Visit LogUse :=
  if log ≠ .absent then pure log
  else if journal = some .writeAhead then openLog location
  else if location.canLogAhead then startLog location
  else pure .absent

/-- Make the buckets. -/
def makeBuckets (location : Location) (journal : Journal) (log : LogUse) : Visit Books := do
  match log with
  | .absent => writeWithJournal location
  | .running =>
      require location.isWritable
      change (·.set .log (some (.file inUse)))
  | .frozen => breakOff
  change fun s => { s with file := some (.database (some .empty) journal) }
  pure .empty

/-- The books that have been found; without any, the buckets are made. -/
def bringBooks (location : Location) (journal : Journal) (log : LogUse) :
    Option Books → Visit Books
  | some books => pure books
  | none => makeBuckets location journal log

/-- What may be done with a database that is used in this way. -/
def accessTo (location : Location) (log : LogUse) (s : Site) : Option Access :=
  if !location.isWritable then some .readOnly
  else
    match log with
    | .running => some .readWrite
    | .absent => some (if s.hasRoom .journal then .readWrite else .readOnly)
    -- who may write starts to write right away
    | .frozen => none

/-- Open a database with these books, if anything may be done with it. -/
def grant (location : Location) (journal : Journal) (log : LogUse) (books : Books) :
    Visit Opened := do
  match accessTo location log (← look) with
  | some access => pure ⟨books, access, journal, log⟩
  | none => breakOff

/-- Open a database that changes for nobody: nothing beside it is looked at. -/
def openUnchanging : Visit Opened := do
  match (← look).file with
  | some (.database (some books) journal) => pure ⟨books, .readOnly, journal, .absent⟩
  | _ => breakOff

/-- Open a database whose journal and log are settled. -/
def openSettled (location : Location) (log : LogUse) : Visit Opened := do
  match content? (← look) with
  | none =>
      change (leaveLog location log)
      breakOff
  | some (books, journal) =>
      let log ← bringLog location journal log
      let journal := (← look).journal
      let books ← bringBooks location journal log books
      grant location journal log books

/-- Open the database at a site. -/
def openSite (location : Location) : Visit Opened := do
  findFile location
  if location.immutable then openUnchanging
  else
    enter location
    settleJournal location
    let log ← settleLog location
    openSettled location log

/-! ## §4. Closing. -/

/-- A handle on what has been opened. -/
def Opened.handle (opened : Opened) : Handle := ⟨opened.access, opened.books, false⟩

/-- Close what was opened at a site and is open by now with this handle.  A journal
is gone when something has been written. -/
def closeSite (location : Location) (opened : Opened) (h : Handle) (s : Site) : Site :=
  let s := leaveLog location opened.log
    { s with file := some (.database (some h.books) opened.journal) }
  if opened.log = .absent && h.written then s.clear .journal else s

theorem books?_leaveLog (location : Location) (log : LogUse) (s : Site) :
    (leaveLog location log s).books? = s.books? := by
  unfold leaveLog
  split
  next => split <;> rfl
  next => rfl

/-- What has been committed is in the database when it has been closed. -/
theorem books?_closeSite (location : Location) (opened : Opened) (h : Handle) (s : Site) :
    (closeSite location opened h s).books? = some h.books := by
  unfold closeSite
  simp only
  split
  next => rw [Site.books?_clear, books?_leaveLog]; rfl
  next => rw [books?_leaveLog]; rfl

/-! ## §5. Books are opened as they are. -/

theorem keeps_findFile (location : Location) : (findFile location).Keeps := by
  intro s
  unfold findFile
  split
  next => rfl
  next => rfl
  next hf =>
    -- there are no books where there is no file, nor in an empty one
    split
    next => rw [Site.books?, Site.books?, hf]
    next => rfl

theorem keeps_enter (location : Location) : (enter location).Keeps :=
  keeps_look.bind fun _ => keeps_require _

theorem keeps_settleJournal (location : Location) : (settleJournal location).Keeps := by
  refine keeps_look.bind fun s => ?_
  refine .ite (.ite (.ite (keeps_set _ _) (keeps_pure _)) ?_) (keeps_pure _)
  split
  next => exact keeps_breakOff
  next => exact keeps_pure _
  next => exact (keeps_require _).bind fun _ => keeps_set _ _

theorem keeps_findIndex (location : Location) : (findIndex location).Keeps := by
  refine .ite (keeps_pure _) (keeps_look.bind fun s => .ite ?_ ?_)
  · exact (keeps_require _).bind fun _ => keeps_pure _
  · exact (keeps_set _ _).bind fun _ => keeps_pure _

theorem keeps_openLog (location : Location) : (openLog location).Keeps :=
  keeps_look.bind fun _ => (keeps_require _).bind fun _ =>
    (keeps_set _ _).bind fun _ => keeps_findIndex location

theorem keeps_settleLog (location : Location) : (settleLog location).Keeps := by
  refine keeps_look.bind fun s => .ite (.ite ?_ (keeps_openLog location)) (keeps_pure _)
  exact (keeps_require _).bind fun _ => (keeps_set _ _).bind fun _ => keeps_pure _

theorem content?_of_books? {s : Site} {books : Books} (h : s.books? = some books) :
    ∃ journal, content? s = some (some books, some journal) := by
  unfold Site.books? at h
  split at h
  next books' journal hf => subst h; exact ⟨journal, by rw [content?, hf]⟩
  next => exact absurd h (by simp)

theorem books_openUnchanging {s : Site} {opened : Opened} {books : Books}
    (h : (openUnchanging s).1 = some opened) (hb : s.books? = some books) :
    opened.books = books := by
  obtain ⟨s', hs, h⟩ := bind_eq_some h
  injection hs with hs
  subst hs
  unfold Site.books? at hb
  cases he : s.file with
  | none => rw [he] at hb; exact absurd hb (by simp)
  | some entry =>
    rw [he] at hb
    simp only [he] at h
    cases entry with
    | directory => exact absurd hb (by simp)
    | file contents => exact absurd hb (by simp)
    | database found journal =>
      subst hb
      injection h with h
      rw [← h]

theorem books_grant {location : Location} {journal : Journal} {log : LogUse} {books : Books}
    {s : Site} {opened : Opened} (h : (grant location journal log books s).1 = some opened) :
    opened.books = books := by
  obtain ⟨s', -, h⟩ := bind_eq_some h
  cases ha : accessTo location log s' with
  | none => rw [ha] at h; exact absurd h (by simp [breakOff])
  | some access => rw [ha] at h; injection h with h; rw [← h]

theorem books_openSettled {location : Location} {log : LogUse} {s : Site} {opened : Opened}
    {books : Books} (h : (openSettled location log s).1 = some opened)
    (hb : s.books? = some books) : opened.books = books := by
  obtain ⟨s', hs, h⟩ := bind_eq_some h
  injection hs with hs
  subst hs
  obtain ⟨journal, hf⟩ := content?_of_books? hb
  rw [hf] at h
  -- the log, the kind of journal and the books are found in this order
  obtain ⟨log, -, h⟩ := bind_eq_some h
  obtain ⟨s', -, h⟩ := bind_eq_some h
  obtain ⟨found, hb, h⟩ := bind_eq_some h
  injection hb with hb
  rw [books_grant h, hb]

/-- **Books that are in a database are opened as they are.** -/
theorem books_openSite {location : Location} {s : Site} {opened : Opened} {books : Books}
    (h : (openSite location s).1 = some opened) (hb : s.books? = some books) :
    opened.books = books := by
  obtain ⟨_, -, h⟩ := bind_eq_some h
  have hb := (keeps_findFile location s).trans hb
  split at h
  next => exact books_openUnchanging h hb
  next =>
    obtain ⟨_, -, h⟩ := bind_eq_some h
    have hb := (keeps_enter location _).trans hb
    obtain ⟨_, -, h⟩ := bind_eq_some h
    have hb := (keeps_settleJournal location _).trans hb
    obtain ⟨log, -, h⟩ := bind_eq_some h
    have hb := (keeps_settleLog location _).trans hb
    exact books_openSettled h hb

end Opening

end FundTrail
