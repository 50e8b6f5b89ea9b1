/-
  FundTrail.Disk.Site
  ───────────────────
  **A DATABASE AND WHAT LIES BESIDE IT.**

  Beside a database there may be files that are named after it.  They belong to
  its users for as long as they are at work:

      journal    what was in the database before a change that is not final
      log        changes that have still to be worked off
      index      the memory that the users of a log share
      token      it is there while somebody keeps the others out

  A site is the database's file together with these four, apart from the rest of
  the disk.

  Main facts: `site_putSite` — a site can be put on the disk and found again —
  and `get?_putSite`, that nothing else notices.
-/
import FundTrail.Disk.Basic

namespace FundTrail

open FundTrail.Store

/-! ## §1. Companions. -/

/-- What can lie beside a database. -/
inductive Companion where
  | journal
  | log
  | index
  | token
  deriving DecidableEq, Repr

namespace Companion

/-- What a companion's name has behind the name of the database. -/
def ending : Companion → Bytes
  | .journal => Utf8.write "-journal"
  | .log => Utf8.write "-wal"
  | .index => Utf8.write "-shm"
  | .token => Utf8.write ".lock"

/-- All companions. -/
def all : List Companion := [.journal, .log, .index, .token]

theorem mem_all (companion : Companion) : companion ∈ all := by
  cases companion <;> decide

theorem ending_ne_nil (companion : Companion) : companion.ending ≠ [] := by
  cases companion <;> decide

theorem ending_inj {c e : Companion} (h : c.ending = e.ending) : c = e := by
  revert h
  cases c <;> cases e <;> decide

end Companion

/-- The place of a companion. -/
def Place.beside (place : Place) (companion : Companion) : Place :=
  place.dropLast ++ [place.getLastD [] ++ companion.ending]

theorem Place.beside_ne_nil (place : Place) (companion : Companion) :
    place.beside companion ≠ [] := by
  simp [beside]

theorem Place.beside_inj {place : Place} {c e : Companion} :
    place.beside c = place.beside e ↔ c = e := by
  constructor
  · intro h
    unfold beside at h
    have := List.append_cancel_left h
    rw [List.cons.injEq] at this
    exact Companion.ending_inj (List.append_cancel_left this.1)
  · rintro rfl; rfl

/-- No companion is where the database is. -/
theorem Place.beside_ne_self {place : Place} (hp : place ≠ []) (companion : Companion) :
    place.beside companion ≠ place := by
  intro h
  have hl : place.dropLast ++ [place.getLastD []] = place := by
    rw [List.getLastD_eq_getLast?, List.getLast?_eq_some_getLast hp]
    exact List.dropLast_concat_getLast hp
  unfold beside at h
  rw [← hl] at h
  simp only [List.dropLast_concat, List.getLastD_concat] at h
  have := List.append_cancel_left h
  rw [List.cons.injEq] at this
  exact companion.ending_ne_nil (List.append_right_eq_self.1 this.1)

/-! ## §2. Sites. -/

/-- What is at the place of a database and beside it. -/
structure Site where
  /-- The length of the database's own name. -/
  nameLength : Nat
  file : Option Entry
  beside : Companion → Option Entry

namespace Site

/-- The site with something else, or nothing, for a companion. -/
def set (s : Site) (companion : Companion) (entry : Option Entry) : Site :=
  { s with beside := fun other => if other = companion then entry else s.beside other }

/-- The site without a companion. -/
def clear (s : Site) (companion : Companion) : Site := s.set companion none

/-- Whether the database is a file without anything in it; a single byte counts for
nothing. -/
def isEmpty (s : Site) : Bool :=
  match s.file with
  | some (.file contents) => contents.length ≤ 1
  | _ => false

/-- The books in the database, if it has any. -/
def books? (s : Site) : Option Books :=
  match s.file with
  | some (.database books _) => books
  | _ => none

/-- How the database is journaled; one that is still empty can be rolled back. -/
def journal (s : Site) : Journal :=
  match s.file with
  | some (.database _ journal) => journal
  | _ => .rollback

/-- Whether a companion is there; an empty file does not count. -/
def holds (s : Site) (companion : Companion) : Bool :=
  match s.beside companion with
  | none => false
  | some (.file []) => false
  | some _ => true

/-- Whether a companion is there or can be made: as a file, and under a name that is
not too long. -/
def hasRoom (s : Site) (companion : Companion) : Bool :=
  s.nameLength + companion.ending.length ≤ Disk.longestName
    && s.beside companion ≠ some .directory

/-- The length of what a log begins with. -/
def logHeadLength : Nat := 32

/-- Whether a log is legible without the memory that belongs to it: it is shorter
than the head of a log, or there are only zeros where the head has the salt. -/
def isLegible (s : Site) : Bool :=
  match s.beside .log with
  | some (.file contents) =>
      contents.length < logHeadLength || (contents.drop 16).take 8 = List.replicate 8 0
  | some _ => false
  | none => true

@[simp] theorem file_set (s : Site) (companion : Companion) (entry : Option Entry) :
    (s.set companion entry).file = s.file := rfl

@[simp] theorem books?_set (s : Site) (companion : Companion) (entry : Option Entry) :
    (s.set companion entry).books? = s.books? := rfl

@[simp] theorem file_clear (s : Site) (companion : Companion) :
    (s.clear companion).file = s.file := rfl

@[simp] theorem books?_clear (s : Site) (companion : Companion) :
    (s.clear companion).books? = s.books? := rfl

end Site

/-! ## §3. Sites on a disk. -/

namespace Disk

/-- The site of the database at a place. -/
def site (d : Disk) (place : Place) : Site where
  nameLength := (place.getLastD []).length
  file := d.get? place
  beside companion := d.get? (place.beside companion)

/-- Put companions beside a place. -/
def putBeside (d : Disk) (place : Place) (s : Site) (companions : List Companion) : Disk :=
  companions.foldl (fun d companion => d.set (place.beside companion) (s.beside companion)) d

/-- Put a site at a place. -/
def putSite (d : Disk) (place : Place) (s : Site) : Disk :=
  (d.set place s.file).putBeside place s Companion.all

theorem get?_putBeside_of_ne (d : Disk) {place other : Place} (s : Site)
    {companions : List Companion} (h : ∀ companion ∈ companions, other ≠ place.beside companion) :
    (d.putBeside place s companions).get? other = d.get? other := by
  induction companions generalizing d with
  | nil => rfl
  | cons companion companions ih =>
    unfold putBeside at ih ⊢
    rw [List.foldl_cons, ih _ fun c hc => h c (List.mem_cons_of_mem _ hc),
      get?_set d (place.beside_ne_nil companion), if_neg (h companion List.mem_cons_self)]

theorem get?_putBeside (d : Disk) (place : Place) (s : Site) {companions : List Companion}
    {companion : Companion} (hc : companion ∈ companions) :
    (d.putBeside place s companions).get? (place.beside companion) = s.beside companion := by
  induction companions generalizing d with
  | nil => exact absurd hc List.not_mem_nil
  | cons first companions ih =>
    by_cases hr : companion ∈ companions
    · exact ih _ hr
    · -- it is the first one, and none of the others
      have hf : companion = first := (List.mem_cons.1 hc).resolve_right hr
      subst hf
      have hn : ∀ c ∈ companions, place.beside companion ≠ place.beside c :=
        fun c hm he => hr (Place.beside_inj.1 he ▸ hm)
      have := get?_putBeside_of_ne (d.set (place.beside companion) (s.beside companion)) s hn
      unfold putBeside at this ⊢
      rw [List.foldl_cons, this, get?_set d (place.beside_ne_nil companion), if_pos rfl]

/-- What is at the place of a database after its site has been put there. -/
theorem get?_putSite_self (d : Disk) {place : Place} (hp : place ≠ []) (s : Site) :
    (d.putSite place s).get? place = s.file := by
  unfold putSite
  rw [get?_putBeside_of_ne _ s fun c _ => Ne.symm (Place.beside_ne_self hp c),
    get?_set d hp, if_pos rfl]

/-- **A site that is put on the disk is found there.** -/
theorem site_putSite (d : Disk) {place : Place} (hp : place ≠ []) (s : Site) :
    (d.putSite place s).site place = { s with nameLength := (place.getLastD []).length } := by
  unfold site
  rw [get?_putSite_self d hp]
  congr 1
  funext companion
  exact get?_putBeside _ place s companion.mem_all

/-- A place that is neither the database's nor a companion's keeps what it has. -/
theorem get?_putSite (d : Disk) {place other : Place} (hp : place ≠ []) (s : Site)
    (ho : other ≠ place) (hb : ∀ companion, other ≠ place.beside companion) :
    (d.putSite place s).get? other = d.get? other := by
  unfold putSite
  rw [get?_putBeside_of_ne _ s fun c _ => hb c, get?_set d hp, if_neg ho]

end Disk

end FundTrail
