/-
  FundTrail.Disk.Basic
  ────────────────────
  **A DISK THAT IS A VALUE.**

  A disk is a tree of directories with files and databases at its leaves, and a
  working directory in it.  A place is a list of names from the root down, and
  at a place there is an entry or nothing.

  A path is walked part by part, and every part is looked up where the ones
  before it have led.  So `a/../b` leads to `b` only if there is a directory
  `a`: what a path leads to depends on the disk.

  Main facts: `get?_put`; `get?_makeDirectory` — making a directory touches no
  other place; and `foldlM_enter_eq` — a path that leads somewhere leads where
  its text says.
-/
import FundTrail.Disk.Path
import FundTrail.Store.Books

namespace FundTrail

open FundTrail.Store

/-! ## §1. Places and what is there. -/

/-- Names from the root down. -/
abbrev Place := List Bytes

/-- One part further by the text alone: two dots go back, whatever is there. -/
def Place.follow (here : Place) (part : Bytes) : Place :=
  if part = Path.up then here.dropLast
  else if Path.isName part then here ++ [part]
  else here

/-- The path of a place from the root; that of the root itself is empty. -/
def Place.path (place : Place) : Path := place.flatMap (Path.slash :: ·)

/-- How a database takes down its changes before they are final. -/
inductive Journal where
  /-- Behind the database, in a log that is worked off later. -/
  | writeAhead
  /-- In the database, with a copy of what was there before. -/
  | rollback
  deriving DecidableEq, Repr

/-- What is at a place. -/
inductive Entry where
  | directory
  | file (contents : Bytes)
  /-- A database; there are no books in it as long as it has no buckets. -/
  | database (books : Option Books) (journal : Journal)
  deriving DecidableEq

/-- What is on a disk; of several entries for one place the first counts. -/
structure Disk where
  entries : List (Place × Entry)
  workingDirectory : Place

/-- Why a path cannot be walked, or nothing can be made at its end. -/
inductive PathFault where
  | missing
  /-- A part is looked up in something that is no directory. -/
  | notDirectory
  | tooLong
  /-- Something is there where there should be nothing. -/
  | taken
  deriving DecidableEq, Repr

namespace Disk

/-- The entry at a place.  The root is always there. -/
def get? (d : Disk) (place : Place) : Option Entry :=
  if place = [] then some .directory else d.entries.lookup place

/-- Put an entry at a place. -/
def put (d : Disk) (place : Place) (entry : Entry) : Disk :=
  { d with entries := (place, entry) :: d.entries.filter fun other => other.1 ≠ place }

/-- Leave nothing at a place. -/
def remove (d : Disk) (place : Place) : Disk :=
  { d with entries := d.entries.filter fun other => other.1 ≠ place }

theorem lookup_filter_ne {place other : Place} (entries : List (Place × Entry))
    (h : other ≠ place) :
    (entries.filter fun e => e.1 ≠ place).lookup other = entries.lookup other := by
  induction entries with
  | nil => rfl
  | cons e entries ih =>
    by_cases he : e.1 = place
    · have ho : (other == e.1) = false := beq_false_of_ne (he ▸ h)
      rw [List.filter_cons_of_neg (by simp [he]), ih, List.lookup_cons, ho]
    · rw [List.filter_cons_of_pos (by simp [he]), List.lookup_cons, List.lookup_cons, ih]

/-- What is at each place after an entry has been put. -/
theorem get?_put (d : Disk) {place : Place} (hp : place ≠ []) (entry : Entry)
    (other : Place) :
    (d.put place entry).get? other = if other = place then some entry else d.get? other := by
  unfold get? put
  by_cases h : other = place
  · subst h
    rw [if_neg hp, if_pos rfl, List.lookup_cons_self]
  · rw [if_neg h, List.lookup_cons, beq_false_of_ne h, lookup_filter_ne _ h]

/-- What is at the other places after one has been cleared. -/
theorem get?_remove_of_ne (d : Disk) {place other : Place} (h : other ≠ place) :
    (d.remove place).get? other = d.get? other := by
  unfold get? remove
  rw [lookup_filter_ne _ h]

/-- Put an entry at a place, or leave nothing there. -/
def set (d : Disk) (place : Place) : Option Entry → Disk
  | some entry => d.put place entry
  | none => d.remove place

theorem lookup_filter_self (place : Place) (entries : List (Place × Entry)) :
    (entries.filter fun e => e.1 ≠ place).lookup place = none := by
  induction entries with
  | nil => rfl
  | cons e entries ih =>
    by_cases he : e.1 = place
    · rw [List.filter_cons_of_neg (by simp [he]), ih]
    · rw [List.filter_cons_of_pos (by simp [he]), List.lookup_cons,
        beq_false_of_ne (Ne.symm he), ih]

/-- What is at each place after one has been set. -/
theorem get?_set (d : Disk) {place : Place} (hp : place ≠ []) (entry : Option Entry)
    (other : Place) :
    (d.set place entry).get? other = if other = place then entry else d.get? other := by
  cases entry with
  | some entry => exact get?_put d hp entry other
  | none =>
    split
    next h =>
      subst h
      unfold set get? remove
      rw [if_neg hp, lookup_filter_self]
    next h => exact get?_remove_of_ne d h

/-- Put directories at a place and all above it. -/
def putDirectories (d : Disk) (place : Place) : Disk :=
  (List.range place.length).foldl (fun d n => d.put (place.take (n + 1)) .directory) d

/-! ## §2. Walking. -/

/-- The longest name, in bytes. -/
def longestName : Nat := 255

/-- The longest path that can be walked, in bytes. -/
def longestPath : Nat := 4095

/-- Where a path starts. -/
def start (d : Disk) (path : Path) : Place :=
  if path.isAbsolute then [] else d.workingDirectory

/-- One part further.  There is nothing above the root but the root. -/
def enter (d : Disk) (here : Place) (part : Bytes) : Except PathFault Place :=
  if d.get? here ≠ some .directory then .error .notDirectory
  else if part = Path.up then .ok here.dropLast
  else if !Path.isName part then .ok here
  else if longestName < part.length then .error .tooLong
  else if (d.get? (here ++ [part])).isNone then .error .missing
  else .ok (here ++ [part])

theorem enter_eq_missing {d : Disk} {here : Place} {part : Bytes}
    (h : d.enter here part = .error .missing) : d.get? (here ++ [part]) = none := by
  unfold enter at h
  -- only a name that is not there is missing
  split at h
  next => cases h
  split at h
  next => cases h
  split at h
  next => cases h
  split at h
  next => cases h
  split at h
  next hn => exact Option.isNone_iff_eq_none.1 hn
  next => cases h

/-- Where a path leads. -/
def locate (d : Disk) (path : Path) : Except PathFault Place :=
  if path = [] then .error .missing
  else if longestPath < path.length then .error .tooLong
  else path.parts.foldlM d.enter (d.start path)

/-- What a path leads to. -/
def find? (d : Disk) (path : Path) : Option Entry :=
  match d.locate path with
  | .ok place => d.get? place
  | .error _ => none

/-- Whether a path leads to a directory. -/
def isDirectory (d : Disk) (path : Path) : Bool := d.find? path == some .directory

/-- The contents of the file that a path leads to. -/
def read? (d : Disk) (path : Path) : Option Bytes :=
  match d.find? path with
  | some (.file contents) => some contents
  | _ => none

/-- The books in the database that a path leads to. -/
def books? (d : Disk) (path : Path) : Option Books :=
  match d.find? path with
  | some (.database books _) => books
  | _ => none

/-! ## §3. Making directories. -/

/-- Make the directory that a path names; what is above it has to be there. -/
def makeDirectory (d : Disk) (path : Path) : Except PathFault Disk :=
  if longestPath < path.length then .error .tooLong
  else do
    let here ← path.parts.dropLast.foldlM d.enter (d.start path)
    let name := path.parts.getLastD []
    match d.enter here name with
    | .ok _ => .error .taken
    | .error .missing => .ok (d.put (here ++ [name]) .directory)
    | .error fault => .error fault

/-- **Making a directory fills an empty place and touches no other.** -/
theorem get?_makeDirectory {d e : Disk} {path : Path} (h : d.makeDirectory path = .ok e) :
    ∃ place, d.get? place = none ∧
      ∀ other, e.get? other = if other = place then some .directory else d.get? other := by
  unfold makeDirectory at h
  split at h
  next => exact absurd h (by simp)
  next =>
    cases hw : path.parts.dropLast.foldlM d.enter (d.start path) with
    | error fault => rw [hw] at h; exact absurd h (by simp [bind, Except.bind])
    | ok here =>
      rw [hw] at h
      simp only [bind, Except.bind] at h
      split at h
      next => exact absurd h (by simp)
      next hm =>
        injection h with h
        subst h
        exact ⟨_, enter_eq_missing hm, get?_put d (by simp) _⟩
      next => exact absurd h (by simp)

/-- Make the first of these directories; each is in the next.  Those of them that
are missing are made as well, and stay if it fails in the end. -/
def makeDirectories (d : Disk) : List Path → Bool × Disk
  | [] => (true, d)
  | path :: above =>
      match d.makeDirectory path with
      | .ok d => (true, d)
      | .error .missing =>
        match d.makeDirectories above with
        | (false, d) => (false, d)
        | (true, d) =>
          match d.makeDirectory path with
          | .ok d => (true, d)
          | .error _ => (d.isDirectory path, d)
      | .error _ => (d.isDirectory path, d)

/-- Make the directory that the last part of a path is in, by the path's text. -/
def makeParent (d : Disk) (path : Path) : Bool × Disk :=
  d.makeDirectories path.prefixes.dropLast.reverse

/-! ## §4. Paths by their text. -/

/-- The places that a path passes by its text, from its start on. -/
def trail (d : Disk) (path : Path) : List Place :=
  go (d.start path) path.parts
where
  /-- The rest of the parts is followed from `here`. -/
  go (here : Place) : List Bytes → List Place
    | [] => [here]
    | part :: parts => here :: go (here.follow part) parts

/-- A part that can be walked leads where its text says. -/
theorem enter_eq_follow {d : Disk} {here place : Place} {part : Bytes}
    (h : d.enter here part = .ok place) : place = here.follow part := by
  unfold enter at h
  unfold Place.follow
  split at h
  next => cases h
  split at h
  next hu => rw [if_pos hu]; injection h with h; exact h.symm
  next hu =>
    rw [if_neg hu]
    split at h
    next hn =>
      rw [if_neg (by simpa using hn)]
      injection h with h
      exact h.symm
    next hn =>
      rw [if_pos (by simpa using hn)]
      split at h
      next => cases h
      split at h
      next => cases h
      next => injection h with h; exact h.symm

/-- **What a path leads to is what its text says, if it leads anywhere.** -/
theorem foldlM_enter_eq {d : Disk} {parts : List Bytes} {here place : Place}
    (h : parts.foldlM d.enter here = .ok place) : place = parts.foldl Place.follow here := by
  induction parts generalizing here with
  | nil => injection h with h; exact h.symm
  | cons part parts ih =>
    rw [List.foldlM_cons] at h
    cases he : d.enter here part with
    | error fault => rw [he] at h; cases h
    | ok next =>
      rw [he] at h
      rw [List.foldl_cons, ← enter_eq_follow he]
      exact ih h

/-- A disk with nothing on it but its working directory. -/
def new (workingDirectory : Path) : Disk :=
  let place := workingDirectory.parts.foldl Place.follow []
  (⟨[], place⟩ : Disk).putDirectories place

/-- Put a file at the place that its path spells, with the directories that the
path goes through. -/
def putFile (d : Disk) (path : Path) (contents : Bytes) : Disk :=
  let place := path.parts.foldl Place.follow (d.start path)
  ((d.trail path).dropLast.foldl putDirectories d).put place (.file contents)

end Disk

end FundTrail
