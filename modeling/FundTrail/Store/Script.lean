/-
  FundTrail.Store.Script
  ──────────────────────
  **SCRIPTS: STEPS AGAINST A STORE.**

  A step asks the books something, changes them, or groups other steps.  Every
  writing step runs in a transaction of its own, unless a transaction groups it
  with others: then the steps share one draft of the books, and the first of
  them that fails undoes them all.  A second handle, which may only read, sees
  what is committed, also from inside a transaction; what fails on it does not
  concern the transaction.

  Main definitions: `Step`, `Answer` and `Step.run`.
-/
import FundTrail.Store.Layout
import FundTrail.Seed.Exchanges
import FundTrail.Classification

namespace FundTrail.Store

/-! ## §1. Steps and answers. -/

/-- A single change of the books. -/
inductive Change where
  | put (bucket : Bucket) (record : bucket.Record)
  | eraseSwap (txHash : Hash)
  | clear (bucket : Bucket)
  /-- Set raw bytes, whether they can be read or not. -/
  | putRaw (bucket : Bucket) (key value : Bytes)
  /-- Move the cursor. -/
  | moveCursor (number : Height) (hash : Hash)
  /-- Credit an account, which is opened if need be. -/
  | credit (address : Address) (exchange : String) (value : Amount)
  /-- Debit an account that is there. -/
  | spend (address : Address) (value : Amount)
  /-- Count a purchase of a token that is there. -/
  | purchase (address : Address) (price value : Amount)
  /-- Count an occurrence of a pattern, which is noted if need be. -/
  | occur (key : PatternKey) (value : Amount)

/-- A single question to the books. -/
inductive Query where
  | has (bucket : Bucket) (key : bucket.Key)
  | peek (bucket : Bucket) (key : bucket.Key)
  | all (bucket : Bucket)
  | allByKey (bucket : Bucket)
  | raw (bucket : Bucket)
  | cursor
  | reports
  /-- The names of wallets in the set of exchanges. -/
  | exchangeNames (wallets : List Address)

/-- A step of a script. -/
inductive Step where
  | query (query : Query)
  | change (change : Change)
  /-- Seed the exchanges in a document. -/
  | seed (document : Bytes)
  /-- A transaction; `abort` makes it fail behind its last step. -/
  | transaction (steps : List Step) (abort : Bool)
  /-- Questions to one state of the books. -/
  | view (steps : List Step)
  /-- Close the store and open it again. -/
  | reopen
  /-- The step on a second handle, which may only read. -/
  | reader (step : Step)

/-- Whether a step is one on the second handle. -/
def Step.isReader : Step → Bool
  | .reader _ => true
  | _ => false

/-- Why a step failed: as a store does, or as seeding does, also where a store
is what failed it. -/
inductive StepError where
  | store (error : StoreError)
  | seed (error : SeedError)
  deriving DecidableEq, Repr

/-- What a step answers. -/
inductive Answer where
  | done
  | flag (value : Bool)
  | count (n : Nat)
  | record (bucket : Bucket) (record : bucket.Record)
  | records (bucket : Bucket) (records : List bucket.Record)
  | keyed (bucket : Bucket) (records : List (Bytes × bucket.Record))
  | rows (rows : List Row)
  | cursor (cursor : Option Cursor)
  | moved (number : Height) (hash : Hash)
  | reports (reports : List Books.Report)
  /-- The size of the set of exchanges, and the names of the wallets asked for. -/
  | names (size : Nat) (found : List (Option String))
  /-- The token after a purchase, and whether that gave it its price. -/
  | purchase (first : Bool) (token : Token)
  | view (answers : List Answer)
  /-- The answers of a transaction's steps, up to the failure that ends it. -/
  | transaction (steps : List (Except StepError Answer)) (committed : Bool)

/-! ## §2. Single questions and changes. -/

/-- Answer a question. -/
def Query.answer (b : Books) : Query → Except StoreError Answer
  | .has bucket key => .ok (.flag (b.has bucket.layout key))
  | .peek bucket key => (b.peek bucket.layout key).map (.record bucket)
  | .all bucket => (b.all bucket.layout).map (.records bucket)
  | .allByKey bucket => (b.allByKey bucket.layout).map (.keyed bucket)
  | .raw bucket => .ok (.rows (b.rows bucket).toList)
  | .cursor => b.cursor?.map .cursor
  | .reports => b.reports.map .reports
  | .exchangeNames wallets =>
      (ExchangeSet.load b).map fun set => .names set.size (wallets.map set.nameOf?)

/-- Make a change; `now` is the time that a moved cursor is stamped with. -/
def Change.apply (now : Int64) : Change → Work StoreError Answer
  | .put bucket record => do
      .put bucket.layout record
      pure .done
  | .eraseSwap txHash => do
      let there ← .read fun b => .ok (b.has .swaps txHash)
      .erase .swaps txHash
      pure (.flag there)
  | .clear bucket => do
      let size ← .read fun b => .ok (b.rows bucket).size
      .edit (.clear bucket)
      pure (.count size)
  | .putRaw bucket key value => do
      .edit (.set (bucket, key, value))
      pure .done
  | .moveCursor number hash => do
      .put .cursor ⟨number, hash, now⟩
      pure (.moved number hash)
  | .credit address exchange value => do
      let account ← .read fun b => b.findOr .accounts address (.new address)
      let account := account.recordTransfer exchange value
      .put .accounts account
      pure (.record .account account)
  | .spend address value => do
      let account ← .read fun b => b.peek .accounts address
      let account := account.recordSpend value
      .put .accounts account
      pure (.record .account account)
  | .purchase address price value => do
      let token ← .read fun b => b.peek .tokens address
      let bought := token.recordPurchase price value
      .put .tokens bought
      pure (.purchase (token.setsPrice price) bought)
  | .occur key value => do
      let pattern ← .read fun b => b.findOr .patterns key (.new key.token key.exchange)
      let pattern := pattern.record value
      .put .patterns pattern
      pure (.record .pattern pattern)

/-! ## §3. Scripts. -/

/-- An outcome of the store, among the outcomes of steps. -/
def ofStore {α : Type} (x : Except StoreError α) : Except StepError α := x.mapError .store

mutual

/-- Run a step on a handle.  Inside a transaction, `committed` is the handle as
it was before. -/
def Step.run (now : Int64) (committed : Option Handle) :
    Step → Handle → Except StepError Answer × Handle
  | .query q, h => (ofStore (q.answer h.books), h)
  | .change c, h =>
      let (x, h) := h.update (c.apply now)
      (ofStore x, h)
  | .seed document, h =>
      let (x, h) := Seed.sowDocument h document
      ((x.map .count).mapError .seed, h)
  | .transaction steps abort, h =>
      let (answers, complete, draft) := Step.runAll now (some h) steps h
      if complete && !abort then (.ok (.transaction answers true), draft)
      else (.ok (.transaction answers false), h)
  | .view steps, h => ((Step.answers now committed steps h).map .view, h)
  | .reopen, h => (.ok .done, h)
  | .reader step, h => ((Step.run now none step (committed.getD h).reader).1, h)

/-- Run steps one after the other, up to the first that fails for the handle they
share; say whether all have been run. -/
def Step.runAll (now : Int64) (committed : Option Handle) :
    List Step → Handle → List (Except StepError Answer) × Bool × Handle
  | [], h => ([], true, h)
  | step :: steps, h =>
      match Step.run now committed step h with
      | (.ok answer, h) =>
          let (answers, complete, h) := Step.runAll now committed steps h
          (.ok answer :: answers, complete, h)
      | (.error e, h) =>
          if step.isReader then
            let (answers, complete, h) := Step.runAll now committed steps h
            (.error e :: answers, complete, h)
          else ([.error e], false, h)

/-- The answers of steps, or the first failure. -/
def Step.answers (now : Int64) (committed : Option Handle) :
    List Step → Handle → Except StepError (List Answer)
  | [], _ => .ok []
  | step :: steps, h =>
      match Step.run now committed step h with
      | (.ok answer, h) => (Step.answers now committed steps h).map (answer :: ·)
      | (.error e, _) => .error e

end

/-- Run the steps of a script, each for itself, whether they fail or not. -/
def runScript (now : Int64) : List Step → Handle → List (Except StepError Answer) × Handle
  | [], h => ([], h)
  | step :: steps, h =>
      let (answer, h) := step.run now none h
      let (answers, h) := runScript now steps h
      (answer :: answers, h)

end FundTrail.Store
