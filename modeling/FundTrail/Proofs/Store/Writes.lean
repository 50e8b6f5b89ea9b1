/-
  FundTrail.Proofs.Store.Writes
  ─────────────────────────────
  **ROWS WRITTEN ONE AFTER THE OTHER.**

  Of all values that are written under a key the last one stays, and a key that nothing
  is written under keeps the value it had.  So books do not tell in which order they
  were written: rows with keys of their own may come in any order, and rows that come
  twice might have come once.

  Main facts: `get?_rows_writeAll`, `writeAll_congr`, `writeAll_perm` and
  `writeAll_writeAll`.
-/
import FundTrail.Store.Work
import Mathlib.Data.List.Nodup
import Mathlib.Data.Option.Basic

namespace FundTrail.Store

/-! ## §1. The last row under a key. -/

namespace Write

/-- Where the row is written. -/
def place (w : Write) : Bucket × Bytes := (w.1, w.2.1)

/-- What is written last at a place, if anything is. -/
def last? (place : Bucket × Bytes) : List Write → Option Bytes
  | [] => none
  | w :: ws => last? place ws <|> if w.place = place then some w.2.2 else none

variable {place : Bucket × Bytes} {ws ws' : List Write}

theorem last?_eq_none_iff : last? place ws = none ↔ ∀ w ∈ ws, w.place ≠ place := by
  induction ws with
  | nil => exact ⟨fun _ => nofun, fun _ => rfl⟩
  | cons w ws ih =>
    rw [last?, Option.orElse_eq_none, ih, List.forall_mem_cons, and_comm]
    by_cases hw : w.place = place <;> simp [hw]

/-- Where every place is written once, what is written there is what is written last. -/
theorem last?_eq_some_iff (h : (ws.map Write.place).Nodup) {value : Bytes} :
    last? place ws = some value ↔ ∃ w ∈ ws, w.place = place ∧ w.2.2 = value := by
  induction ws with
  | nil => exact ⟨nofun, fun ⟨_, hw, _⟩ => nomatch hw⟩
  | cons w ws ih =>
    obtain ⟨hnew, hnodup⟩ := List.nodup_cons.mp h
    rw [last?, List.exists_mem_cons_iff, ← ih hnodup]
    by_cases hw : w.place = place
    · -- the first row is the only one at its place
      have hnone : last? place ws = none := last?_eq_none_iff.mpr fun w' hw' heq =>
        hnew (List.mem_map.mpr ⟨w', hw', heq.trans hw.symm⟩)
      rw [hnone, if_pos hw]
      simp [hw]
    · simp [hw]

/-- What is written last does not depend on the order, if no place is written twice. -/
theorem last?_perm (hperm : ws.Perm ws') (h : (ws.map Write.place).Nodup) :
    last? place ws = last? place ws' := by
  refine Option.ext fun value => ?_
  rw [last?_eq_some_iff h, last?_eq_some_iff ((hperm.map _).nodup_iff.mp h)]
  simp only [hperm.mem_iff]

end Write

/-! ## §2. The books behind them. -/

namespace Books

/-- Write rows one after the other. -/
def writeAll (b : Books) (ws : List Write) : Books :=
  ws.foldl (fun b w => b.putRaw w.1 w.2.1 w.2.2) b

theorem edited_map_set (b : Books) (ws : List Write) : b.edited (ws.map .set) = b.writeAll ws :=
  List.foldl_map

theorem get?_rows_putRaw (b : Books) (w : Write) (bucket : Bucket) (key : Bytes) :
    ((b.putRaw w.1 w.2.1 w.2.2).rows bucket).get? key
      = if w.place = (bucket, key) then some w.2.2 else (b.rows bucket).get? key := by
  obtain ⟨other, key', value⟩ := w
  unfold putRaw Write.place
  rw [rows_setRows]
  by_cases hbucket : other = bucket
  · subst hbucket
    rw [if_pos rfl, Rows.get?_insert]
    simp
  · rw [if_neg hbucket, if_neg fun heq => hbucket (Prod.mk.inj heq).1]

/-- **The last value stays, and other keys keep theirs.** -/
theorem get?_rows_writeAll (b : Books) (ws : List Write) (bucket : Bucket) (key : Bytes) :
    ((b.writeAll ws).rows bucket).get? key
      = (Write.last? (bucket, key) ws <|> (b.rows bucket).get? key) := by
  induction ws generalizing b with
  | nil => rfl
  | cons w ws ih =>
    show (((b.putRaw w.1 w.2.1 w.2.2).writeAll ws).rows bucket).get? key = _
    rw [ih, get?_rows_putRaw, Write.last?]
    -- the first row only shows where none of the others is written
    cases Write.last? (bucket, key) ws with
    | some value => rfl
    | none => by_cases hw : w.place = (bucket, key) <;> simp [hw]

/-- Books with the same look-ups are equal. -/
theorem ext_get? {b c : Books}
    (h : ∀ bucket key, (b.rows bucket).get? key = (c.rows bucket).get? key) : b = c :=
  ext_rows fun bucket => Rows.ext_get? (h bucket)

/-- **Only what is written last under each key can be told afterwards.** -/
theorem writeAll_congr {ws ws' : List Write}
    (h : ∀ place, Write.last? place ws = Write.last? place ws') (b : Books) :
    b.writeAll ws = b.writeAll ws' := by
  refine ext_get? fun bucket key => ?_
  rw [get?_rows_writeAll, get?_rows_writeAll, h]

/-- **Rows with keys of their own may be written in any order.** -/
theorem writeAll_perm {ws ws' : List Write} (hperm : ws.Perm ws')
    (h : (ws.map Write.place).Nodup) (b : Books) : b.writeAll ws = b.writeAll ws' :=
  writeAll_congr (fun _ => Write.last?_perm hperm h) b

/-- **Rows that are written twice might have been written once.** -/
theorem writeAll_writeAll (b : Books) (ws : List Write) :
    (b.writeAll ws).writeAll ws = b.writeAll ws := by
  refine ext_get? fun bucket key => ?_
  rw [get?_rows_writeAll, get?_rows_writeAll]
  cases Write.last? (bucket, key) ws <;> rfl

end Books

end FundTrail.Store
