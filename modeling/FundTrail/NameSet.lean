/-
  FundTrail.NameSet
  ─────────────────
  **SETS OF EXCHANGE NAMES.**

  The exchanges that have funded a wallet form a set: recording a name twice
  changes nothing, and the order of recording is forgotten.  A set is kept as
  the strictly ascending list of its names, in the order of their UTF-8 bytes,
  so that two sets with the same members are equal.

  Main facts: `mem_insert` and `ext_mem`.
-/
import FundTrail.Text.Utf8

namespace FundTrail

/-- The order of names: the order of their UTF-8 bytes. -/
def NameBefore (a b : String) : Prop := Utf8.write a < Utf8.write b

instance (a b : String) : Decidable (NameBefore a b) :=
  inferInstanceAs (Decidable (Utf8.write a < Utf8.write b))

namespace NameBefore

theorem irrefl (a : String) : ¬ NameBefore a a := List.lt_irrefl _

theorem trans {a b c : String} (h : NameBefore a b) (g : NameBefore b c) : NameBefore a c :=
  List.lt_trans h g

theorem total (a b : String) : NameBefore a b ∨ a = b ∨ NameBefore b a := by
  rcases Bytes.lt_or_eq_or_gt (Utf8.write a) (Utf8.write b) with h | h | h
  · exact .inl h
  · exact .inr (.inl (Utf8.write_injective h))
  · exact .inr (.inr h)

end NameBefore

/-- A finite set of names. -/
structure NameSet where
  toList : List String
  ascending : toList.Pairwise NameBefore
  deriving DecidableEq, Repr

namespace NameSet

/-- No names. -/
def empty : NameSet := ⟨[], List.Pairwise.nil⟩

instance : Inhabited NameSet := ⟨empty⟩

instance : Membership String NameSet := ⟨fun s a => a ∈ s.toList⟩

instance (a : String) (s : NameSet) : Decidable (a ∈ s) :=
  inferInstanceAs (Decidable (a ∈ s.toList))

/-- Put a name into an ascending list, unless it is there. -/
def insertInto (a : String) : List String → List String
  | [] => [a]
  | b :: bs =>
      if NameBefore a b then a :: b :: bs
      else if a = b then b :: bs
      else b :: insertInto a bs

theorem mem_insertInto {a b : String} {bs : List String} :
    b ∈ insertInto a bs ↔ b = a ∨ b ∈ bs := by
  induction bs with
  | nil => simp [insertInto]
  | cons c cs ih =>
    rw [insertInto]
    split
    next => simp
    next =>
      split
      next h => subst h; simp
      next => simp only [List.mem_cons, ih]; grind

theorem ascending_insertInto {a : String} {bs : List String}
    (h : bs.Pairwise NameBefore) : (insertInto a bs).Pairwise NameBefore := by
  induction bs with
  | nil => simp [insertInto]
  | cons c cs ih =>
    rw [List.pairwise_cons] at h
    rw [insertInto]
    split
    next hac =>
      refine List.pairwise_cons.2 ⟨?_, List.pairwise_cons.2 h⟩
      intro d hd
      rcases List.mem_cons.1 hd with rfl | hd
      · exact hac
      · exact hac.trans (h.1 d hd)
    next hac =>
      split
      next => exact List.pairwise_cons.2 h
      next hne =>
        refine List.pairwise_cons.2 ⟨?_, ih h.2⟩
        intro d hd
        rcases mem_insertInto.1 hd with rfl | hd
        · rcases NameBefore.total c d with hb | hb | hb
          · exact hb
          · exact absurd hb.symm hne
          · exact absurd hb hac
        · exact h.1 d hd

/-- The set with one more name. -/
def insert (a : String) (s : NameSet) : NameSet :=
  ⟨insertInto a s.toList, ascending_insertInto s.ascending⟩

/-- The set of the names in a list, in any order and with repetitions. -/
def ofList (names : List String) : NameSet :=
  names.foldl (fun s a => s.insert a) empty

@[simp] theorem not_mem_empty (a : String) : ¬ a ∈ empty := List.not_mem_nil

@[simp] theorem mem_insert {a b : String} {s : NameSet} :
    b ∈ s.insert a ↔ b = a ∨ b ∈ s := mem_insertInto

theorem mem_toList {a : String} {s : NameSet} : a ∈ s.toList ↔ a ∈ s := Iff.rfl

@[ext] theorem ext {s t : NameSet} (h : s.toList = t.toList) : s = t := by
  cases s; cases t; cases h; rfl

/-- No name is in the list of a set twice. -/
theorem nodup (s : NameSet) : s.toList.Nodup := by
  refine s.ascending.imp ?_
  rintro a _ h rfl
  exact NameBefore.irrefl a h

/-- A set is made up by its members. -/
theorem ext_mem {s t : NameSet} (h : ∀ name, name ∈ s ↔ name ∈ t) : s = t := by
  have hperm : s.toList.Perm t.toList := (List.perm_ext_iff_of_nodup s.nodup t.nodup).mpr h
  refine NameSet.ext (hperm.eq_of_pairwise (fun a b _ _ hab hba => ?_) s.ascending t.ascending)
  exact absurd (hab.trans hba) (NameBefore.irrefl a)

end NameSet

end FundTrail
