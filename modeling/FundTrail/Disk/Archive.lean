/-
  FundTrail.Disk.Archive
  ──────────────────────
  **A DATABASE AS ONE BYTE STRING.**

  Between two runs of a command a database lies in a file.  An archive begins
  with a mark and a byte for the kind of journal.  If the database has books,
  then come the six buckets in their usual order, each as the number of its rows
  and then their keys and values, every one behind its length.

  Main fact: `read?_write` — books of a size that eight bytes can count come
  back from their archive as they were.
-/
import FundTrail.Disk.Basic

namespace FundTrail

open FundTrail.Store

namespace Archive

/-- What an archive begins with. -/
def mark : Bytes := Utf8.write "FundTrail books 1\n"

/-! ## §1. Writing. -/

/-- A row. -/
def writeRow (row : Row) : Bytes := writeBlob row.1 ++ writeBlob row.2

/-- The rows of a bucket. -/
def writeRows (rows : Rows) : Bytes :=
  writeCount rows.size ++ rows.toList.flatMap writeRow

/-- The buckets, in the order in which they are archived. -/
def order : List Bucket := [.exchange, .account, .token, .pattern, .swap, .cursor]

/-- The byte for a kind of journal. -/
def journalByte : Journal → UInt8
  | .writeAhead => 1
  | .rollback => 2

/-- The buckets of books. -/
def writeBooks (b : Books) : Bytes := order.flatMap fun bucket => writeRows (b.rows bucket)

/-- The archive of a database. -/
def write (books : Option Books) (journal : Journal) : Bytes :=
  mark ++ journalByte journal :: (books.map writeBooks).getD []

/-! ## §2. Reading. -/

/-- A row. -/
def readRow : Reader Row := do
  let key ← readBlob
  let value ← readBlob
  pure (key, value)

/-- The rows of a bucket, in any order; of several rows with one key the last
counts. -/
def readRows : Reader Rows := do
  let n ← readCount
  let rows ← readMany readRow n.toNat
  pure (rows.foldl (fun rows row => rows.insert row.1 row.2) .empty)

/-- The buckets of `order`, read into books. -/
def readBuckets : List Bucket → Books → Reader Books
  | [], b => pure b
  | bucket :: buckets, b => do
      let rows ← readRows
      readBuckets buckets (b.setRows bucket rows)

/-- The kind of journal that a byte stands for. -/
def journalOf? (byte : UInt8) : Option Journal :=
  if byte = 1 then some .writeAhead else if byte = 2 then some .rollback else none

/-- The books in what follows the head of an archive: none if nothing follows. -/
def readBooks? (bs : Bytes) : Option (Option Books) :=
  if bs = [] then some none
  else
    match readBuckets order .empty bs with
    | .ok (b, []) => some (some b)
    | _ => none

/-- The database in an archive, if it is one and nothing follows it. -/
def read? (bs : Bytes) : Option (Option Books × Journal) :=
  if mark.isPrefixOf bs then
    match bs.drop mark.length with
    | [] => none
    | byte :: rest => do
        let journal ← journalOf? byte
        let books ← readBooks? rest
        pure (books, journal)
  else none

/-! ## §3. Reading undoes writing. -/

/-- Whether eight bytes can count the rows and the bytes in each of them. -/
def Countable (rows : Rows) : Prop :=
  rows.size < 2 ^ 64 ∧ ∀ row ∈ rows.toList, row.1.length < 2 ^ 64 ∧ row.2.length < 2 ^ 64

theorem readRow_writeRow {row : Row} (hk : row.1.length < 2 ^ 64)
    (hv : row.2.length < 2 ^ 64) (rest : Bytes) :
    readRow (writeRow row ++ rest) = .ok (row, rest) := by
  rw [readRow, writeRow, List.append_assoc, Reader.bind_ok (readBlob_writeBlob hk _),
    Reader.bind_ok (readBlob_writeBlob hv _)]
  rfl

theorem readMany_writeRow {rows : List Row}
    (h : ∀ row ∈ rows, row.1.length < 2 ^ 64 ∧ row.2.length < 2 ^ 64) (rest : Bytes) :
    readMany readRow rows.length (rows.flatMap writeRow ++ rest) = .ok (rows, rest) := by
  induction rows with
  | nil => rfl
  | cons row rows ih =>
    have hrow := h row List.mem_cons_self
    rw [List.length_cons, readMany, List.flatMap_cons, List.append_assoc,
      Reader.bind_ok (readRow_writeRow hrow.1 hrow.2 _),
      Reader.bind_ok (ih fun row hr => h row (List.mem_cons_of_mem _ hr))]
    rfl

/-- Rows that are inserted again give the bucket they come from. -/
theorem foldl_insert_toList (rows : Rows) :
    rows.toList.foldl (fun rows row => rows.insert row.1 row.2) .empty = rows := by
  have key : ∀ (l : List Row) (start : Rows), l.Pairwise Row.Before → ∀ k,
      (l.foldl (fun rows row => rows.insert row.1 row.2) start).get? k
        = (Rows.lookup k l).orElse fun _ => start.get? k := by
    intro l
    induction l with
    | nil => intro start _ k; rfl
    | cons row l ih =>
      intro start hl k
      rw [List.pairwise_cons] at hl
      rw [List.foldl_cons, ih _ hl.2, Rows.get?_insert, Rows.lookup]
      split
      next hk =>
        -- no later row has this key
        have : Rows.lookup k l = none := by
          rw [Option.eq_none_iff_forall_ne_some]
          intro v hv
          have hm := (Rows.lookup_eq_some_iff hl.2).1 hv
          have hb : row.1 < k := hl.1 _ hm
          exact List.lt_irrefl _ (hk ▸ hb)
        rw [this]
        rfl
      next => rfl
  apply Rows.ext_get?
  intro k
  rw [key _ _ rows.ascending]
  show _ = Rows.lookup k rows.toList
  cases Rows.lookup k rows.toList <;> rfl

theorem readRows_writeRows {rows : Rows} (h : Countable rows) (rest : Bytes) :
    readRows (writeRows rows ++ rest) = .ok (rows, rest) := by
  have hm : readMany readRow rows.size (rows.toList.flatMap writeRow ++ rest)
      = .ok (rows.toList, rest) := readMany_writeRow h.2 rest
  rw [readRows, writeRows, List.append_assoc, Reader.bind_ok (readCount_writeCount h.1 _),
    Word.toNat_lowBits_of_lt h.1, Reader.bind_ok hm, foldl_insert_toList]
  rfl

theorem readBuckets_write {b : Books} (h : ∀ bucket, Countable (b.rows bucket))
    (buckets : List Bucket) (start : Books) (rest : Bytes) :
    readBuckets buckets start ((buckets.flatMap fun bucket => writeRows (b.rows bucket)) ++ rest)
      = .ok (buckets.foldl (fun c bucket => c.setRows bucket (b.rows bucket)) start, rest) := by
  induction buckets generalizing start with
  | nil => rfl
  | cons bucket buckets ih =>
    rw [readBuckets, List.flatMap_cons, List.append_assoc,
      Reader.bind_ok (readRows_writeRows (h bucket) _)]
    exact ih _

@[simp] theorem journalOf?_journalByte (journal : Journal) :
    journalOf? (journalByte journal) = some journal := by
  cases journal <;> rfl

theorem writeBooks_ne_nil (b : Books) : writeBooks b ≠ [] := by
  intro h
  have := congrArg List.length h
  simp [writeBooks, order, writeRows, writeCount] at this

theorem readBooks?_write {books : Option Books}
    (h : ∀ b ∈ books, ∀ bucket, Countable (b.rows bucket)) :
    readBooks? ((books.map writeBooks).getD []) = some books := by
  cases books with
  | none => rfl
  | some b =>
    have hr := readBuckets_write (h b rfl) order .empty []
    rw [List.append_nil] at hr
    show readBooks? (writeBooks b) = _
    rw [readBooks?, if_neg (writeBooks_ne_nil b), writeBooks, hr]
    rfl

/-- **A database comes back from its archive as it was.** -/
theorem read?_write {books : Option Books}
    (h : ∀ b ∈ books, ∀ bucket, Countable (b.rows bucket)) (journal : Journal) :
    read? (write books journal) = some (books, journal) := by
  have hp : mark.isPrefixOf (write books journal) = true := by
    rw [List.isPrefixOf_iff_prefix]
    exact List.prefix_append _ _
  rw [read?, if_pos hp, write, List.drop_left]
  simp only [journalOf?_journalByte, readBooks?_write h]
  rfl

end Archive

end FundTrail
