/-
  FundTrail.Proofs.Store.Refinement
  ─────────────────────────────────
  **A STORE ANSWERS AS SIX MAPS WOULD.**

  A history is what happens to a store from its first opening on: transactions that
  are committed or broken off, readings in between, and reopenings.  While a
  transaction is open, its own readings see its draft; a second handle, which may only
  read, sees what has been committed before it.  A transaction goes on when a look at
  a record has found none; what ends it is said by the history.

  The maps go through the same history on their own: they know neither bytes nor rows,
  and undoing a transaction is to take the maps from before.

  A transaction of a script ends at the first step that fails, and so is one of a
  history as well: that of the steps up to there (`run_transaction`).

  Main facts: `holds_event`, one event on both sides, and `history_refines`.
-/
import FundTrail.Proofs.Store.Maps
import FundTrail.Proofs.Disk.Reopening
import FundTrail.Store.Script

namespace FundTrail.Store

/-! ## §1. Histories. -/

/-- A look at the records of one kind. -/
inductive Look where
  | has (bucket : Bucket) (key : bucket.Key)
  | peek (bucket : Bucket) (key : bucket.Key)
  | all (bucket : Bucket)
  | allByKey (bucket : Bucket)

/-- One look, or several at one state of the store. -/
inductive Reading where
  | look (l : Look)
  | view (ls : List Look)

/-- What is done while a transaction is open. -/
inductive Move where
  | put (bucket : Bucket) (r : bucket.Record) (h : bucket.Storable r)
  | deleteSwap (txHash : Hash)
  | clear (bucket : Bucket)
  /-- A look through the transaction itself. -/
  | look (l : Look)
  /-- A reading through a second handle, which may only read. -/
  | peer (r : Reading)

/-- What happens to a store. -/
inductive Event where
  | transaction (moves : List Move) (commits : Bool)
  | read (r : Reading)
  | peer (r : Reading)
  | reopen

/-- What is answered to a step. -/
abbrev Reply : Type := Except StepError Answer

/-! ## §2. What the store does. -/

/-- The step of a script that is this look. -/
def Look.step : Look → Step
  | .has bucket key => .query (.has bucket key)
  | .peek bucket key => .query (.peek bucket key)
  | .all bucket => .query (.all bucket)
  | .allByKey bucket => .query (.allByKey bucket)

def Reading.step : Reading → Step
  | .look l => l.step
  | .view ls => .view (ls.map Look.step)

def Move.step : Move → Step
  | .put bucket r _ => .change (.put bucket r)
  | .deleteSwap txHash => .change (.eraseSwap txHash)
  | .clear bucket => .change (.clear bucket)
  | .look l => l.step
  | .peer r => .reader r.step

/-- A store that is open, and what was found when it was opened. -/
structure OpenStore where
  site : Site
  opened : Opening.Opened
  handle : Handle

namespace OpenStore

/-- Open the store of a path at a site. -/
def at? (path : Path) (s : Site) : Option OpenStore :=
  match Opening.openSite (.ofPath path) s with
  | (some opened, s) => some ⟨s, opened, opened.handle⟩
  | (none, _) => none

/-- Close the store of a path. -/
def close (path : Path) (store : OpenStore) : Site :=
  Opening.closeSite (.ofPath path) store.opened store.handle store.site

end OpenStore

/-- Make moves in a transaction, whether they fail or not; its draft is the second
handle given, and what is committed is the first. -/
def runMoves (now : Int64) (committed : Handle) : List Move → Handle → List Reply × Handle
  | [], draft => ([], draft)
  | move :: moves, draft =>
      let (reply, draft) := move.step.run now (some committed) draft
      let (replies, draft) := runMoves now committed moves draft
      (reply :: replies, draft)

/-- What an event does to the store of a path.  To a reopening the answer is whether
the store could be opened. -/
def Event.run (path : Path) (now : Int64) : Event → OpenStore → List Reply × OpenStore
  | .transaction moves commits, store =>
      let (replies, draft) := runMoves now store.handle moves store.handle
      (replies, if commits then { store with handle := draft } else store)
  | .read r, store =>
      let (reply, handle) := r.step.run now none store.handle
      ([reply], { store with handle })
  | .peer r, store =>
      let (reply, handle) := (Step.reader r.step).run now none store.handle
      ([reply], { store with handle })
  | .reopen, store =>
      match OpenStore.at? path (store.close path) with
      | some again => ([.ok (.flag true)], again)
      | none => ([.ok (.flag false)], store)

/-- The answers to a history, event by event. -/
def runHistory (path : Path) (now : Int64) :
    List Event → OpenStore → List (List Reply) × OpenStore
  | [], store => ([], store)
  | event :: events, store =>
      let (replies, store) := event.run path now store
      let (rest, store) := runHistory path now events store
      (replies :: rest, store)

/-! ## §3. What the maps say. -/

namespace Maps

/-- What the maps say to a look. -/
def look (m : Maps) : Look → Except StoreError Answer
  | .has bucket key => .ok (.flag ((m bucket).lookup key).isSome)
  | .peek bucket key =>
      match (m bucket).lookup key with
      | some r => .ok (.record bucket r.1)
      | none => .error (.notFound bucket (bucket.layout.encodeKey key))
  | .all bucket => .ok (.records bucket ((m bucket).inOrder.map fun entry => entry.2.1))
  | .allByKey bucket =>
      .ok (.keyed bucket ((m bucket).inOrder.map fun entry =>
        (bucket.layout.encodeKey entry.1, entry.2.1)))

/-- What they say to several, or to the first of them that fails. -/
def looks (m : Maps) : List Look → Except StoreError (List Answer)
  | [] => .ok []
  | l :: ls =>
      match m.look l with
      | .ok answer => (m.looks ls).map (answer :: ·)
      | .error e => .error e

def read (m : Maps) : Reading → Reply
  | .look l => ofStore (m.look l)
  | .view ls => ofStore ((m.looks ls).map .view)

/-- One move on a draft, and what is answered to it. -/
def move (committed : Maps) : Move → Maps → Reply × Maps
  | .put bucket r h, draft => (.ok .done, draft.put bucket r h)
  | .deleteSwap txHash, draft =>
      (.ok (.flag ((draft .swap).lookup txHash).isSome), draft.deleteSwap txHash)
  | .clear bucket, draft => (.ok (.count (draft bucket).keys.card), draft.clear bucket)
  | .look l, draft => (ofStore (draft.look l), draft)
  | .peer r, draft => (committed.read r, draft)

def moves (committed : Maps) : List Move → Maps → List Reply × Maps
  | [], draft => ([], draft)
  | move :: moves, draft =>
      let (reply, draft) := committed.move move draft
      let (replies, draft) := committed.moves moves draft
      (reply :: replies, draft)

/-- One event: a transaction that is not committed leaves the maps as they were. -/
def event : Event → Maps → List Reply × Maps
  | .transaction moves commits, m =>
      let (replies, draft) := m.moves moves m
      (replies, if commits then draft else m)
  | .read r, m => ([m.read r], m)
  | .peer r, m => ([m.read r], m)
  | .reopen, m => ([.ok (.flag true)], m)

def history : List Event → Maps → List (List Reply) × Maps
  | [], m => ([], m)
  | event :: events, m =>
      let (replies, m) := Maps.event event m
      let (rest, m) := history events m
      (replies :: rest, m)

end Maps

/-! ## §4. Looks and readings. -/

section

variable (now : Int64) (committed : Option Handle) {h : Handle} {m : Maps}

theorem run_look (hm : h.books = m.books) (l : Look) :
    l.step.run now committed h = (ofStore (m.look l), h) := by
  cases l with
  | has bucket key =>
    show (ofStore (Except.ok (Answer.flag (h.books.has bucket.layout key))), h) = _
    rw [hm, Maps.has_books]
    rfl
  | peek bucket key =>
    show (ofStore ((h.books.peek bucket.layout key).map (Answer.record bucket)), h) = _
    rw [hm, Maps.peek_books, Maps.look]
    cases (m bucket).lookup key <;> rfl
  | all bucket =>
    show (ofStore ((h.books.all bucket.layout).map (Answer.records bucket)), h) = _
    rw [hm, Maps.all_books]
    rfl
  | allByKey bucket =>
    show (ofStore ((h.books.allByKey bucket.layout).map (Answer.keyed bucket)), h) = _
    rw [hm, Maps.allByKey_books]
    rfl

theorem answers_looks (hm : h.books = m.books) (ls : List Look) :
    Step.answers now committed (ls.map Look.step) h = ofStore (m.looks ls) := by
  induction ls with
  | nil => rfl
  | cons l ls ih =>
    rw [List.map_cons, Step.answers, run_look now committed hm, Maps.looks]
    cases m.look l with
    | error e => rfl
    | ok answer =>
      show (Step.answers now committed (ls.map Look.step) h).map _ = _
      rw [ih]
      cases m.looks ls <;> rfl

theorem run_reading (hm : h.books = m.books) (r : Reading) :
    r.step.run now committed h = (m.read r, h) := by
  cases r with
  | look l => exact run_look now committed hm l
  | view ls =>
    show ((Step.answers now committed (ls.map Look.step) h).map Answer.view, h) = _
    rw [answers_looks now committed hm]
    show _ = (ofStore ((m.looks ls).map Answer.view), h)
    cases m.looks ls <;> rfl

/-- A second handle sees what is committed. -/
theorem run_peer (hm : (committed.getD h).books = m.books) (r : Reading) :
    (Step.reader r.step).run now committed h = (m.read r, h) := by
  show ((r.step.run now none (committed.getD h).reader).1, h) = _
  rw [run_reading now none (h := (committed.getD h).reader) hm]

end

/-! ## §5. Transactions. -/

/-- The handle has the books of the maps, and may write. -/
structure Handle.Holds (h : Handle) (m : Maps) : Prop where
  books : h.books = m.books
  access : h.access = .readWrite

section

variable (now : Int64) {committed h : Handle} {m₀ m : Maps}

theorem holds_change (hh : h.Holds m) {change : Change} {answer : Answer} {m' : Maps}
    (happly : (change.apply now).run m.books = .ok (answer, m'.books))
    (hedits : ((change.apply now).on m.books).1 ≠ []) :
    ∃ h', (Step.change change).run now (some committed) h = (.ok answer, h') ∧ h'.Holds m' := by
  have hupdate : h.update (change.apply now)
      = (.ok answer, { h with books := m'.books, written := true }) := by
    rw [← hh.books] at happly hedits
    exact Handle.update_of_readWrite happly hh.access hedits
  refine ⟨{ h with books := m'.books, written := true }, ?_, rfl, hh.access⟩
  show (ofStore (h.update (change.apply now)).1, (h.update (change.apply now)).2) = _
  rw [hupdate]
  rfl

/-- **One move in a transaction:** the draft and the maps go the same way. -/
theorem holds_move (hcommitted : committed.Holds m₀) (hh : h.Holds m) (move : Move) :
    ∃ h', move.step.run now (some committed) h = ((m₀.move move m).1, h')
      ∧ h'.Holds (m₀.move move m).2 := by
  cases move with
  | put bucket r hr =>
    refine holds_change now hh ?_ (List.cons_ne_nil _ _)
    show Except.ok (Answer.done, m.books.put bucket.layout r) = _
    rw [← Maps.books_put m bucket r hr]
    rfl
  | deleteSwap txHash =>
    refine holds_change now hh ?_ (List.cons_ne_nil _ _)
    show Except.ok (Answer.flag (m.books.has .swaps txHash), m.books.erase .swaps txHash) = _
    rw [← Maps.books_deleteSwap, ← Maps.has_books m .swap txHash]
    rfl
  | clear bucket =>
    refine holds_change now hh ?_ (List.cons_ne_nil _ _)
    show Except.ok (Answer.count (m.books.rows bucket).size, m.books.clear bucket) = _
    rw [← Maps.books_clear, Maps.size_books]
    rfl
  | look l => exact ⟨h, run_look now _ hh.books l, hh⟩
  | peer r => exact ⟨h, run_peer now (some committed) hcommitted.books r, hh⟩

/-- **All moves of a transaction,** by induction on them. -/
theorem holds_moves (hcommitted : committed.Holds m₀) (hh : h.Holds m) (moves : List Move) :
    ∃ h', runMoves now committed moves h = ((m₀.moves moves m).1, h')
      ∧ h'.Holds (m₀.moves moves m).2 := by
  induction moves generalizing h m with
  | nil => exact ⟨h, rfl, hh⟩
  | cons move moves ih =>
    obtain ⟨h₁, hrun, hh₁⟩ := holds_move now hcommitted hh move
    obtain ⟨h', hrest, hh'⟩ := ih hh₁
    refine ⟨h', ?_, hh'⟩
    rw [runMoves, hrun]
    show (_ :: (runMoves now committed moves h₁).1, (runMoves now committed moves h₁).2) = _
    rw [hrest]
    rfl

/-- The steps of a script's transaction are moves up to the first that fails; what
fails on the second handle does not end it. -/
theorem runAll_moves (committed : Handle) (moves : List Move) (h : Handle) :
    ∃ n complete, Step.runAll now (some committed) (moves.map Move.step) h
      = ((runMoves now committed (moves.take n) h).1, complete,
          (runMoves now committed (moves.take n) h).2) := by
  induction moves generalizing h with
  | nil => exact ⟨0, true, rfl⟩
  | cons move moves ih =>
    rw [List.map_cons, Step.runAll]
    cases hrun : move.step.run now (some committed) h with
    | mk reply h₁ =>
      obtain ⟨n, complete, hrest⟩ := ih h₁
      -- the transaction goes on with the moves behind this one
      have hon : (reply :: (runMoves now committed (moves.take n) h₁).1,
          (runMoves now committed (moves.take n) h₁).2)
            = runMoves now committed ((move :: moves).take (n + 1)) h := by
        rw [List.take_succ_cons, runMoves, hrun]
      cases reply with
      | ok answer =>
        refine ⟨n + 1, complete, ?_⟩
        simp only
        rw [← hon, hrest]
      | error e =>
        simp only
        split
        next =>
          refine ⟨n + 1, complete, ?_⟩
          rw [← hon, hrest]
        next =>
          refine ⟨1, false, ?_⟩
          rw [List.take_succ_cons, List.take_zero, runMoves, hrun]
          rfl

end

/-! ## §6. Histories. -/

/-- The store is at work on a plain database, and its handle has the books of the
maps. -/
structure OpenStore.Holds (store : OpenStore) (nameLength : Nat) (m : Maps) : Prop where
  handle : store.handle.Holds m
  opened : ∃ b, store.opened = Opening.plainly b
  site : ∃ b log, store.site = .atWork nameLength b log

section

variable (path : Path) (now : Int64) {nameLength : Nat} {store : OpenStore} {m : Maps}

theorem OpenStore.holds_plainly (m : Maps) (log : Bytes) :
    OpenStore.Holds ⟨.atWork nameLength m.books log, Opening.plainly m.books,
      (Opening.plainly m.books).handle⟩ nameLength m where
  handle := ⟨rfl, rfl⟩
  opened := ⟨_, rfl⟩
  site := ⟨_, _, rfl⟩

theorem OpenStore.Holds.of_handle (hs : store.Holds nameLength m) {h : Handle} {m' : Maps}
    (hh : h.Holds m') : OpenStore.Holds { store with handle := h } nameLength m' where
  handle := hh
  opened := hs.opened
  site := hs.site

/-- **A store that is reopened has the records it was closed with.** -/
theorem holds_reopen (hroom : Site.Roomy nameLength) (hs : store.Holds nameLength m) :
    ∃ again, OpenStore.at? path (store.close path) = some again
      ∧ again.Holds nameLength m := by
  obtain ⟨b, hopened⟩ := hs.opened
  obtain ⟨found, log, hsite⟩ := hs.site
  have hclose : store.close path = .quiet nameLength m.books := by
    unfold OpenStore.close
    rw [hopened, hsite, Opening.closeSite_atWork, hs.handle.books]
  refine ⟨_, ?_, OpenStore.holds_plainly m []⟩
  unfold OpenStore.at?
  rw [hclose, Opening.openSite_quiet path hroom]

/-- **One event:** the answers are those of the maps, and store and maps go the same
way. -/
theorem holds_event (hroom : Site.Roomy nameLength) (hs : store.Holds nameLength m)
    (event : Event) : ∃ store', event.run path now store = ((Maps.event event m).1, store')
      ∧ store'.Holds nameLength (Maps.event event m).2 := by
  cases event with
  | transaction moves commits =>
    obtain ⟨draft, hrun, hdraft⟩ := holds_moves now hs.handle hs.handle moves
    cases commits with
    | true =>
      refine ⟨{ store with handle := draft }, ?_, hs.of_handle hdraft⟩
      show ((runMoves now store.handle moves store.handle).1,
        { store with handle := (runMoves now store.handle moves store.handle).2 }) = _
      rw [hrun]
      rfl
    | false =>
      -- the draft is dropped on both sides
      refine ⟨store, ?_, hs⟩
      show ((runMoves now store.handle moves store.handle).1, store) = _
      rw [hrun]
      rfl
  | read r =>
    refine ⟨store, ?_, hs⟩
    show ([(r.step.run now none store.handle).1],
      { store with handle := (r.step.run now none store.handle).2 }) = _
    rw [run_reading now none hs.handle.books]
    rfl
  | peer r =>
    refine ⟨store, ?_, hs⟩
    show ([((Step.reader r.step).run now none store.handle).1],
      { store with handle := ((Step.reader r.step).run now none store.handle).2 }) = _
    rw [run_peer now none hs.handle.books]
    rfl
  | reopen =>
    obtain ⟨again, hagain, hs'⟩ := holds_reopen path hroom hs
    refine ⟨again, ?_, hs'⟩
    rw [Event.run, hagain]
    rfl

/-- **The transaction of a script is one of a history.** -/
theorem run_transaction (store : OpenStore) (moves : List Move) (abort : Bool) :
    ∃ n commits, (Step.transaction (moves.map Move.step) abort).run now none store.handle
      = (.ok (.transaction
            ((Event.transaction (moves.take n) commits).run path now store).1 commits),
          ((Event.transaction (moves.take n) commits).run path now store).2.handle) := by
  obtain ⟨n, complete, hrun⟩ := runAll_moves now store.handle moves store.handle
  refine ⟨n, complete && !abort, ?_⟩
  rw [Step.run, hrun]
  simp only
  cases complete && !abort <;> rfl

theorem holds_history (hroom : Site.Roomy nameLength) (hs : store.Holds nameLength m)
    (events : List Event) :
    ∃ store', runHistory path now events store = ((Maps.history events m).1, store')
      ∧ store'.Holds nameLength (Maps.history events m).2 := by
  induction events generalizing store m with
  | nil => exact ⟨store, rfl, hs⟩
  | cons event events ih =>
    obtain ⟨store₁, hrun, hs₁⟩ := holds_event path now hroom hs event
    obtain ⟨store', hrest, hs'⟩ := ih hs₁
    refine ⟨store', ?_, hs'⟩
    rw [runHistory, hrun]
    show (_ :: (runHistory path now events store₁).1, (runHistory path now events store₁).2) = _
    rw [hrest]
    rfl

/-- **A new store answers to every history as six empty maps do,** and has the books
of those maps in the end. -/
theorem history_refines (hroom : Site.Roomy nameLength) (events : List Event) :
    ∃ store store', OpenStore.at? path (.vacant nameLength) = some store
      ∧ runHistory path now events store = ((Maps.history events .empty).1, store')
      ∧ store'.handle.books = (Maps.history events .empty).2.books := by
  have hopen : OpenStore.at? path (.vacant nameLength)
      = some ⟨.atWork nameLength Maps.empty.books Opening.inUse, Opening.plainly Maps.empty.books,
          (Opening.plainly Maps.empty.books).handle⟩ := by
    unfold OpenStore.at?
    rw [Opening.openSite_vacant path hroom, Maps.books_empty]
  obtain ⟨store', hrun, hs'⟩ :=
    holds_history path now hroom (OpenStore.holds_plainly .empty Opening.inUse) events
  exact ⟨_, store', hopen, hrun, hs'.handle.books⟩

end

/-- A transaction that puts an exchange and is broken off, one that puts another and
clears the exchanges, and a reopening. -/
def undoneAndCleared : List Event :=
  [.transaction
      [.put .exchange ⟨"A", .zero⟩ trivial, .look (.has .exchange .zero),
        .peer (.look (.has .exchange .zero))] false,
    .read (.look (.has .exchange .zero)),
    .transaction [.put .exchange ⟨"B", .zero⟩ trivial, .clear .exchange] true,
    .reopen,
    .peer (.view [.peek .exchange .zero])]

/-- The draft is seen inside the transaction, by nobody else and never again. -/
theorem history_refines_undoneAndCleared : Site.Roomy 8 ∧
    ∃ store store', OpenStore.at? [] (.vacant 8) = some store
      ∧ runHistory [] 0 undoneAndCleared store
        = ([[.ok .done, .ok (.flag true), .ok (.flag false)], [.ok (.flag false)],
            [.ok .done, .ok (.count 1)], [.ok (.flag true)],
            [.error (.store (.notFound .exchange (List.replicate 20 0)))]], store') := by
  have hroom : Site.Roomy 8 := by
    unfold Site.Roomy
    decide
  obtain ⟨store, store', hopen, hrun, -⟩ := history_refines [] 0 hroom undoneAndCleared
  exact ⟨hroom, store, store', hopen, hrun⟩

end FundTrail.Store
