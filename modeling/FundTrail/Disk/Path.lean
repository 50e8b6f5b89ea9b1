/-
  FundTrail.Disk.Path
  ───────────────────
  **PATHS.**

  A path is a byte string, and slashes divide it into parts.  A part that is
  empty or a single dot leads nowhere, two dots lead up, and any other part is a
  name.  Where a path leads depends on what is on the disk; here is only what
  its text says.

  Main facts: `join_split` — dividing loses nothing — and
  `prefix_of_mem_prefixes`.
-/
import FundTrail.Bytes

namespace FundTrail

/-! ## §1. Dividing bytes. -/

/-- The bytes between one separator and the next, in order. -/
def split (separator : UInt8) : Bytes → List Bytes
  | [] => [[]]
  | b :: bs =>
      if b = separator then [] :: split separator bs
      else
        match split separator bs with
        | [] => [[b]]
        | part :: parts => (b :: part) :: parts

/-- Parts with separators between them. -/
def join (separator : UInt8) : List Bytes → Bytes
  | [] => []
  | [part] => part
  | part :: parts => part ++ separator :: join separator parts

theorem split_ne_nil (separator : UInt8) (bs : Bytes) : split separator bs ≠ [] := by
  cases bs with
  | nil => simp [split]
  | cons b bs =>
    unfold split
    split
    next => simp
    next => split <;> simp

/-- **Dividing loses nothing.** -/
theorem join_split (separator : UInt8) (bs : Bytes) :
    join separator (split separator bs) = bs := by
  induction bs with
  | nil => rfl
  | cons b bs ih =>
    unfold split
    split
    next hb =>
      subst hb
      cases h : split b bs with
      | nil => exact absurd h (split_ne_nil b bs)
      | cons part parts =>
        rw [h] at ih
        rw [join, ih]
        · rfl
        · simp
    next =>
      split
      next h => exact absurd h (split_ne_nil separator bs)
      next part parts h =>
        rw [h] at ih
        cases parts with
        | nil => rw [join] at ih ⊢; rw [ih]
        | cons next parts =>
          rw [join] at ih ⊢
          · rw [← ih]; rfl
          · simp
          · simp

/-! ## §2. Paths. -/

/-- A path, as it is written. -/
abbrev Path := Bytes

namespace Path

/-- The byte between two parts. -/
def slash : UInt8 := 47

/-- The part that stays where it is. -/
def stay : Bytes := [46]

/-- The part that leads up. -/
def up : Bytes := [46, 46]

/-- The parts of a path. -/
def parts (path : Path) : List Bytes := split slash path

/-- Whether a part is a name. -/
def isName (part : Bytes) : Bool := part ≠ [] ∧ part ≠ stay ∧ part ≠ up

/-- Whether a path starts at the root. -/
def isAbsolute (path : Path) : Bool := path.head? == some slash

/-- The path cut behind each of its parts, from the root if it starts there.
Parts that lead nowhere do not count, apart from a dot at the very front. -/
def prefixes (path : Path) : List Path :=
  (if isAbsolute path then [[slash]] else []) ++ go [] [] path
where
  /-- `before` is what has been read and `part` the part that is being read, both
  in reverse. -/
  go (before part : Bytes) : Bytes → List Path
    | [] => cut before part
    | b :: bs =>
        if b = slash then cut before part ++ go (b :: before) [] bs
        else go (b :: before) (b :: part) bs
  /-- The cut behind a part. -/
  cut (before part : Bytes) : List Path :=
    if part = [] ∨ part = stay ∧ part ≠ before then [] else [before.reverse]

theorem prefix_of_mem_cut {before part : Bytes} {q : Path} (h : q ∈ prefixes.cut before part)
    (rest : Bytes) : q <+: before.reverse ++ rest := by
  unfold prefixes.cut at h
  split at h
  next => exact absurd h List.not_mem_nil
  next =>
    rw [List.mem_singleton] at h
    subst h
    exact List.prefix_append _ _

theorem prefix_of_mem_go {before part rest : Bytes} {q : Path}
    (h : q ∈ prefixes.go before part rest) : q <+: before.reverse ++ rest := by
  induction rest generalizing before part with
  | nil => exact prefix_of_mem_cut h []
  | cons b bs ih =>
    have hstep : ∀ {p : Bytes}, q ∈ prefixes.go (b :: before) p bs →
        q <+: before.reverse ++ b :: bs := by
      intro p hq
      have := ih hq
      rwa [List.reverse_cons, List.append_assoc, List.singleton_append] at this
    unfold prefixes.go at h
    split at h
    next => exact (List.mem_append.1 h).elim (prefix_of_mem_cut · _) hstep
    next => exact hstep h

/-- What a path is cut into are beginnings of it. -/
theorem prefix_of_mem_prefixes {path q : Path} (h : q ∈ path.prefixes) : q <+: path := by
  unfold prefixes at h
  rcases List.mem_append.1 h with h | h
  · split at h
    next ha =>
      rw [List.mem_singleton] at h
      subst h
      cases path with
      | nil => exact absurd ha (by simp [isAbsolute])
      | cons b bs =>
        have : b = slash := by simpa [isAbsolute] using ha
        exact ⟨bs, by rw [this]; rfl⟩
    next => exact absurd h List.not_mem_nil
  · simpa using prefix_of_mem_go h

end Path

end FundTrail
