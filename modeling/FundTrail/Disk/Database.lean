/-
  FundTrail.Disk.Database
  ───────────────────────
  **OPENING A DATABASE ON A DISK.**

  The place of a database is found by the text of its path: two dots go back in
  the text, and only then is the disk asked.  On the way nothing may stand that
  is no directory, while what is missing may be missing as long as the text goes
  back from it again.

  There the database is opened at its site, with what lies beside it.  What the
  opening leaves behind stays on the disk, whether the database can be used or
  not.

  Main definitions: `Disk.openDatabase` and `Disk.close`; main facts:
  `openAt_close` and `get?_openAt`.
-/
import FundTrail.Disk.Opening

namespace FundTrail

open FundTrail.Store

/-! ## §1. The place of a database. -/

namespace Disk

/-- The longest path on the way to a database, in bytes. -/
def longestWay : Nat := 511

/-- The longest path of a database: what is added to it for the files beside it
still fits. -/
def longestDatabase : Nat := 504

/-- Whether a place is fine on the way to a database: everything above it that is
there is a directory. -/
def isPassable (d : Disk) (place : Place) : Bool :=
  place.path.length ≤ longestWay &&
    match place.foldlM d.enter [] with
    | .ok _ => true
    | .error fault => fault = .missing

/-- The place of a database. -/
def databasePlace? (d : Disk) (path : Path) : Option Place := do
  let place ← path.parts.foldlM (fun here part =>
    if !Path.isName part || d.isPassable (here.follow part) then some (here.follow part)
    else none) (d.start path)
  if place ≠ [] ∧ place.path.length ≤ longestDatabase then some place else none

end Disk

/-! ## §2. Opening. -/

/-- A database that is kept on the disk and open. -/
structure OnDisk where
  place : Place
  location : Location
  opened : Opening.Opened

/-- A database that is open. -/
structure OpenDatabase where
  handle : Handle
  /-- What is kept of it, if it is not in memory alone. -/
  kept : Option OnDisk

namespace Disk

/-- Open the database at a place. -/
def openAt (d : Disk) (location : Location) (place : Place) : Option OpenDatabase × Disk :=
  let (opened, s) := Opening.openSite location (d.site place)
  (opened.map fun opened => ⟨opened.handle, some ⟨place, location, opened⟩⟩,
    d.putSite place s)

/-- The longest name of a database in memory, in bytes. -/
def longestMemoryName : Nat := 1016

/-- Open the database at a location, and say what is on the disk then. -/
def openDatabase (d : Disk) (location : Location) : Option OpenDatabase × Disk :=
  if location.isUnnamed then
    (if location.mode = .readOnly then none else some ⟨.new, none⟩, d)
  else if location.locking = .memory then
    (if location.isWritable && location.path.length ≤ longestMemoryName
      then some ⟨.new, none⟩ else none, d)
  else if location.pattern.any fun path => (d.find? path).isNone then (none, d)
  else
    match d.databasePlace? location.path with
    | none => (none, d)
    | some place =>
        if d.get? place.dropLast = some .directory then d.openAt location place
        else (none, d)

/-- Close a database that is open by now with this handle: if it is kept, its books
are kept. -/
def close (d : Disk) (opened : OpenDatabase) (h : Handle) : Disk :=
  match opened.kept with
  | some ⟨place, location, opened⟩ =>
      d.putSite place (Opening.closeSite location opened h (d.site place))
  | none => d

theorem books?_site_close {d : Disk} {opened : OpenDatabase} {kept : OnDisk} {h : Handle}
    (hp : kept.place ≠ []) (hk : opened.kept = some kept) :
    ((d.close opened h).site kept.place).books? = some h.books := by
  unfold close
  rw [hk]
  simp only
  rw [site_putSite _ hp]
  exact Opening.books?_closeSite ..

/-- **A database that is kept opens with the books that it was closed with,** in
whatever way it is opened. -/
theorem openAt_close {d : Disk} {location : Location} {opened : OpenDatabase} {kept : OnDisk}
    {h : Handle} (hp : kept.place ≠ []) (hk : opened.kept = some kept) {again : OpenDatabase}
    (ho : ((d.close opened h).openAt location kept.place).1 = some again) :
    again.handle.books = h.books := by
  obtain ⟨found, hf, rfl⟩ := Option.map_eq_some_iff.1 ho
  exact Opening.books_openSite hf (books?_site_close hp hk)

/-- Opening a database changes nothing but its file and what lies beside it. -/
theorem get?_openAt (d : Disk) (location : Location) {place other : Place} (hp : place ≠ [])
    (ho : other ≠ place) (hb : ∀ companion, other ≠ place.beside companion) :
    (d.openAt location place).2.get? other = d.get? other :=
  get?_putSite d hp _ ho hb

end Disk

end FundTrail
