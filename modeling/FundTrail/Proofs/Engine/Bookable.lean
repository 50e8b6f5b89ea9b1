/-
  FundTrail.Proofs.Engine.Bookable
  ────────────────────────────────
  **WHAT CAN ALWAYS BE BOOKED.**

  Booking fails only where a row cannot be read.  So on readable books a sound
  resolution is booked without fail, and the books stay readable: what is written
  can be read again, because the names and symbols in it are short.

  Main fact: `exists_bookAll`.
-/
import FundTrail.Proofs.Store.Readable
import FundTrail.Proofs.Engine.Entries
import FundTrail.Proofs.Engine.Sound

namespace FundTrail

open FundTrail.Store

/-- The names of the exchanges have a length of 64 bits. -/
def ExchangeSet.Short (exchanges : ExchangeSet) : Prop :=
  ∀ wallet name, exchanges.nameOf? wallet = some name → IsShort name

/-! ## §1. Revisions. -/

/-- A revision goes through if its result can be read again. -/
theorem Store.Books.Readable.revise {b : Books} (hb : b.Readable) (bucket : Bucket)
    (ht : bucket.layout.Keyed) {key : bucket.Key} {fallback : bucket.Record}
    {change : bucket.Record → bucket.Record}
    (hchange : ∀ r, r = fallback ∨ b.find? bucket.layout key = .ok (some r) →
      ∃ found, bucket.layout.decodeValue (bucket.layout.keyOf (change r))
        (bucket.layout.encodeValue (change r)) = .ok found) :
    ∃ b', b.revise bucket.layout key fallback change = .ok b' ∧ b'.Readable := by
  obtain ⟨r, hr, hfrom⟩ := hb.findOr bucket ht key fallback
  refine ⟨b.put bucket.layout (change r), ?_, hb.put bucket ht (hchange r hfrom)⟩
  unfold Books.revise
  rw [hr]
  rfl

section

variable {b : Books} (hb : b.Readable)

include hb

theorem exists_bookTransfer {exchange : String} (hname : IsShort exchange) (recipient : Address)
    (value : Amount) :
    ∃ b', bookTransfer exchange recipient value b = .ok b' ∧ b'.Readable := by
  rw [bookTransfer_eq]
  refine hb.revise .account Table.keyed_accounts fun account hfrom => ?_
  refine Table.decodeValue_encodeValue_accounts fun s hs => ?_
  -- the names are that of the exchange and those that were there
  rcases NameSet.mem_insert.mp hs with rfl | hs
  · exact hname
  · rcases hfrom with rfl | hfind
    · exact absurd hs (NameSet.not_mem_empty s)
    · exact Books.isShort_of_find?_accounts hfind s hs

theorem exists_bookToken (swap : PricedSwap) (token : Address) {known : Metadata}
    (hknown : IsShort known.symbol) :
    ∃ b', bookToken swap token known b = .ok b' ∧ b'.Readable := by
  rw [bookToken_eq]
  refine hb.revise .token Table.keyed_tokens fun row hfrom => ⟨swap.noted token row, ?_⟩
  refine Table.keeps_token ?_
  rw [swap.symbol_noted]
  -- the symbol is what the swap has found out, or what is in the row
  rcases hfrom with rfl | hfind
  · exact hknown
  · exact Books.isShort_of_find?_tokens hfind

theorem exists_bookPattern (token : Address) (value : Amount) (exchange : String) :
    ∃ b', bookPattern token value exchange b = .ok b' ∧ b'.Readable := by
  rw [bookPattern_eq]
  exact hb.revise .pattern Table.keyed_patterns fun p _ => ⟨p.record value, Table.keeps_pattern _⟩

theorem exists_bookTokens (swap : PricedSwap) {tokens : List (Address × Metadata)}
    (hknown : ∀ p ∈ tokens, IsShort p.2.symbol) :
    ∃ b', bookTokens swap tokens b = .ok b' ∧ b'.Readable := by
  induction tokens generalizing b with
  | nil => exact ⟨b, rfl, hb⟩
  | cons t tokens ih =>
    obtain ⟨b₁, h₁, hb₁⟩ := exists_bookToken hb swap t.1 (hknown t List.mem_cons_self)
    obtain ⟨b₂, h₂, hb₂⟩ := ih hb₁ fun p hp => hknown p (List.mem_cons_of_mem _ hp)
    refine ⟨b₂, ?_, hb₂⟩
    rw [bookTokens_cons, h₁]
    exact h₂

theorem exists_bookPatterns (token : Address) (value : Amount) (exchanges : List String) :
    ∃ b', bookPatterns token value exchanges b = .ok b' ∧ b'.Readable := by
  induction exchanges generalizing b with
  | nil => exact ⟨b, rfl, hb⟩
  | cons exchange exchanges ih =>
    obtain ⟨b₁, h₁, hb₁⟩ := exists_bookPattern hb token value exchange
    obtain ⟨b₂, h₂, hb₂⟩ := ih hb₁
    refine ⟨b₂, ?_, hb₂⟩
    rw [bookPatterns_cons, h₁]
    exact h₂

/-! ## §2. Swaps and resolutions. -/

theorem exists_bookSwap {swap : PricedSwap} (hs : swap.Sound) :
    ∃ b', bookSwap swap b = .ok b' ∧ b'.Readable := by
  obtain ⟨account, haccount, hfrom⟩ :=
    hb.findOr .account Table.keyed_accounts swap.wallet (.new swap.wallet)
  obtain ⟨b₁, h₁, hb₁⟩ := exists_bookTokens hb swap hs.short_symbols
  obtain ⟨b₂, h₂, hb₂⟩ := exists_bookPatterns hb₁ swap.call.tokenOut swap.call.amountIn
    account.fromExchanges.toList
  have hswap : (b₂.put .swaps swap.record).Readable :=
    hb₂.put .swap Table.keyed_swaps ⟨swap.record, hs.keeps_record⟩
  -- the account is written back with the names it had
  have hnames : ∀ s ∈ account.fromExchanges, IsShort s := by
    intro s hmem
    rcases hfrom with rfl | hfind
    · exact absurd hmem (NameSet.not_mem_empty s)
    · exact Books.isShort_of_find?_accounts hfind s hmem
  refine ⟨(b₂.put .swaps swap.record).put .accounts (account.recordSpend swap.call.amountIn), ?_,
    hswap.put .account Table.keyed_accounts (Table.decodeValue_encodeValue_accounts hnames)⟩
  change b.findOr .accounts swap.wallet (.new swap.wallet) = .ok account at haccount
  rw [bookSwap_eq, haccount]
  show (bookTokens swap swap.tokens b >>= _) = _
  rw [h₁]
  show (bookPatterns _ _ _ b₁ >>= _) = _
  rw [h₂]
  rfl

theorem exists_book {exchanges : ExchangeSet} (hx : exchanges.Short) {r : Resolution}
    (hr : r.Sound exchanges) :
    ∃ outcome b', book r b = .ok (outcome, b') ∧ b'.Readable := by
  cases r with
  | transfer exchange recipient value =>
    obtain ⟨wallet, hname⟩ := hr
    obtain ⟨b', hbook, hb'⟩ := exists_bookTransfer hb (hx wallet exchange hname) recipient value
    refine ⟨.transfer, b', ?_, hb'⟩
    rw [book_transfer, hbook]
    rfl
  | swap swap =>
    obtain ⟨b', hbook, hb'⟩ := exists_bookSwap hb hr
    -- a swap that is in the books is passed over
    by_cases hhas : b.has .swaps swap.txHash = true
    · exact ⟨.skipped, b, by rw [book_swap, if_pos hhas], hb⟩
    · refine ⟨.swap, b', ?_, hb'⟩
      rw [book_swap, if_neg hhas, hbook]
      rfl
  | skipped reason => exact ⟨.skipped, b, rfl, hb⟩
  | ignored reason => exact ⟨.ignored, b, rfl, hb⟩

/-- **On readable books sound resolutions are booked without fail.** -/
theorem exists_bookAll {exchanges : ExchangeSet} (hx : exchanges.Short) {rs : List Resolution}
    (hrs : ∀ r ∈ rs, r.Sound exchanges) :
    ∃ outcomes b', bookAll rs b = .ok (outcomes, b') ∧ b'.Readable := by
  induction rs generalizing b with
  | nil => exact ⟨[], b, rfl, hb⟩
  | cons r rs ih =>
    obtain ⟨outcome, b₁, h₁, hb₁⟩ := exists_book hb hx (hrs r List.mem_cons_self)
    obtain ⟨outcomes, b₂, h₂, hb₂⟩ := ih hb₁ fun r hr => hrs r (List.mem_cons_of_mem _ hr)
    exact ⟨outcome :: outcomes, b₂, bookAll_cons_of_ok h₁ h₂, hb₂⟩

end

end FundTrail
