/-
  FundTrail.Engine.Booking
  ────────────────────────
  **THE SECOND PHASE: BOOKING RESOLUTIONS.**

  A transfer credits the recipient's account.  A swap debits the wallet's
  account, notes the tokens of its path, counts a purchase of the last of them,
  counts the pattern of that token with every exchange that has funded the
  wallet so far, and is noted itself.  A swap whose transaction is in the books
  already is passed over: no transaction counts twice.

  The cursor is moved last, so whoever finds it in the books finds the whole
  block there.

  Main definition: `Booking.block`.  What it makes of the books, with the journal
  of its edits left aside, is `bookBlock`, and so for each of its parts.
-/
import FundTrail.Engine.Basic
import FundTrail.Store.Handle

namespace FundTrail

open FundTrail.Store

/-- What is noted of a swap. -/
def PricedSwap.record (swap : PricedSwap) : Swap where
  txHash := swap.txHash
  wallet := swap.wallet
  token := swap.call.tokenOut
  path := swap.call.path
  factory := swap.factory
  price := swap.price
  value := swap.call.amountIn

/-- The row of a token after its place on a path: a purchase if it is the last. -/
def PricedSwap.noted (swap : PricedSwap) (token : Address) (row : Token) : Token :=
  if token = swap.call.tokenOut then row.recordPurchase swap.price swap.call.amountIn else row

/-! ## §1. Booking, as work on a draft. -/

namespace Booking

open Work

/-- Credit a transfer out of an exchange. -/
def transfer (exchange : String) (recipient : Address) (value : Amount) : Work StoreError Unit :=
  revise .accounts recipient (.new recipient) fun a => a.recordTransfer exchange value

/-- Note one token of a swap's path. -/
def token (swap : PricedSwap) (address : Address) (known : Metadata) : Work StoreError Unit :=
  revise .tokens address (.new address known.symbol known.decimals) (swap.noted address)

/-- Note tokens of a swap's path, in order. -/
def tokens (swap : PricedSwap) : List (Address × Metadata) → Work StoreError Unit
  | [] => pure ()
  | (address, known) :: rest => do
      token swap address known
      tokens swap rest

/-- Count a pattern. -/
def pattern (token : Address) (value : Amount) (exchange : String) : Work StoreError Unit :=
  revise .patterns ⟨token, exchange⟩ (.new token exchange) fun p => p.record value

/-- Count the patterns of a token with exchanges. -/
def patterns (token : Address) (value : Amount) : List String → Work StoreError Unit
  | [] => pure ()
  | exchange :: exchanges => do
      pattern token value exchange
      patterns token value exchanges

/-- Book a swap that is not in the books yet. -/
def swap (s : PricedSwap) : Work StoreError Unit := do
  let account ← read fun b => b.findOr .accounts s.wallet (.new s.wallet)
  tokens s s.tokens
  patterns s.call.tokenOut s.call.amountIn account.fromExchanges.toList
  put .swaps s.record
  put .accounts (account.recordSpend s.call.amountIn)

/-- Book one resolution. -/
def resolution : Resolution → Work StoreError Outcome
  | .transfer exchange recipient value => do
      transfer exchange recipient value
      pure .transfer
  | .swap s => do
      if ← read fun b => .ok (b.has .swaps s.txHash) then pure .skipped
      else
        swap s
        pure .swap
  | .skipped _ => pure .skipped
  | .ignored _ => pure .ignored

/-- Book resolutions in order. -/
def resolutions : List Resolution → Work StoreError (List Outcome)
  | [] => pure []
  | r :: rs => do
      let outcome ← resolution r
      let outcomes ← resolutions rs
      pure (outcome :: outcomes)

/-- Book all resolutions of a block, and move the cursor to it. -/
def block (now : Int64) (header : Header) (rs : List Resolution) :
    Work StoreError (List Outcome) := do
  let outcomes ← resolutions rs
  put .cursor ⟨header.number, header.hash, now⟩
  pure outcomes

end Booking

/-! ## §2. What it makes of the books. -/

/-- The books with a transfer credited. -/
def bookTransfer (exchange : String) (recipient : Address) (value : Amount) :
    Books → Except StoreError Books :=
  (Booking.transfer exchange recipient value).made

/-- The books with one token of a swap's path noted. -/
def bookToken (swap : PricedSwap) (token : Address) (known : Metadata) :
    Books → Except StoreError Books :=
  (Booking.token swap token known).made

/-- The books with tokens of a swap's path noted. -/
def bookTokens (swap : PricedSwap) (tokens : List (Address × Metadata)) :
    Books → Except StoreError Books :=
  (Booking.tokens swap tokens).made

/-- The books with a pattern counted. -/
def bookPattern (token : Address) (value : Amount) (exchange : String) :
    Books → Except StoreError Books :=
  (Booking.pattern token value exchange).made

/-- The books with the patterns of a token counted. -/
def bookPatterns (token : Address) (value : Amount) (exchanges : List String) :
    Books → Except StoreError Books :=
  (Booking.patterns token value exchanges).made

/-- The books with a swap booked. -/
def bookSwap (swap : PricedSwap) : Books → Except StoreError Books := (Booking.swap swap).made

/-- The outcome of a resolution, and the books with it booked. -/
def book (r : Resolution) : Books → Except StoreError (Outcome × Books) :=
  (Booking.resolution r).run

/-- The outcomes of resolutions, and the books with them booked. -/
def bookAll (rs : List Resolution) : Books → Except StoreError (List Outcome × Books) :=
  (Booking.resolutions rs).run

/-- The outcomes of a block, and the books with it booked. -/
def bookBlock (now : Int64) (header : Header) (rs : List Resolution) :
    Books → Except StoreError (List Outcome × Books) :=
  (Booking.block now header rs).run

section

variable (b : Books)

theorem bookTransfer_eq (exchange : String) (recipient : Address) (value : Amount) :
    bookTransfer exchange recipient value b
      = b.revise .accounts recipient (.new recipient) fun a => a.recordTransfer exchange value :=
  Work.made_revise ..

theorem bookToken_eq (swap : PricedSwap) (token : Address) (known : Metadata) :
    bookToken swap token known b
      = b.revise .tokens token (.new token known.symbol known.decimals) (swap.noted token) :=
  Work.made_revise ..

theorem bookTokens_cons (swap : PricedSwap) (t : Address × Metadata)
    (tokens : List (Address × Metadata)) :
    bookTokens swap (t :: tokens) b = bookToken swap t.1 t.2 b >>= bookTokens swap tokens :=
  Work.made_bind ..

theorem bookPattern_eq (token : Address) (value : Amount) (exchange : String) :
    bookPattern token value exchange b
      = b.revise .patterns ⟨token, exchange⟩ (.new token exchange) fun p => p.record value :=
  Work.made_revise ..

theorem bookPatterns_cons (token : Address) (value : Amount) (exchange : String)
    (exchanges : List String) :
    bookPatterns token value (exchange :: exchanges) b
      = bookPattern token value exchange b >>= bookPatterns token value exchanges :=
  Work.made_bind ..

theorem bookSwap_eq (swap : PricedSwap) :
    bookSwap swap b
      = b.findOr .accounts swap.wallet (.new swap.wallet) >>= fun account =>
        bookTokens swap swap.tokens b >>= fun b =>
        bookPatterns swap.call.tokenOut swap.call.amountIn account.fromExchanges.toList b
          >>= fun b =>
        .ok ((b.put .swaps swap.record).put .accounts
          (account.recordSpend swap.call.amountIn)) := by
  unfold bookSwap Booking.swap
  rw [Work.made_read_bind]
  congr 1
  funext account
  rw [Work.made_bind]
  congr 1
  funext c
  exact Work.made_bind ..

theorem book_transfer (exchange : String) (recipient : Address) (value : Amount) :
    book (.transfer exchange recipient value) b
      = (bookTransfer exchange recipient value b).map fun b => (.transfer, b) := by
  unfold book Booking.resolution
  rw [Work.run_made_bind]
  show bookTransfer exchange recipient value b >>= _ = _
  cases bookTransfer exchange recipient value b <;> rfl

theorem book_swap (swap : PricedSwap) :
    book (.swap swap) b
      = if b.has .swaps swap.txHash then .ok (.skipped, b)
        else (bookSwap swap b).map fun b => (.swap, b) := by
  unfold book Booking.resolution
  rw [Work.run_read_bind]
  show (if b.has .swaps swap.txHash then _ else _ : Work StoreError Outcome).run b = _
  split
  next => rfl
  next =>
    rw [Work.run_made_bind]
    show bookSwap swap b >>= _ = _
    cases bookSwap swap b <;> rfl

theorem bookAll_cons (r : Resolution) (rs : List Resolution) :
    bookAll (r :: rs) b
      = book r b >>= fun p => bookAll rs p.2 >>= fun q => .ok (p.1 :: q.1, q.2) := by
  show (Booking.resolution r >>= fun outcome => _).run b = _
  rw [Work.run_bind]
  congr 1
  funext p
  exact Work.run_bind ..

theorem bookBlock_eq (now : Int64) (header : Header) (rs : List Resolution) :
    bookBlock now header rs b
      = (bookAll rs b).map fun p => (p.1, p.2.put .cursor ⟨header.number, header.hash, now⟩) := by
  unfold bookBlock Booking.block
  rw [Work.run_bind]
  show bookAll rs b >>= _ = _
  cases bookAll rs b <;> rfl

end

end FundTrail
