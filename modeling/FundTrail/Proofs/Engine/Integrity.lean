/-
  FundTrail.Proofs.Engine.Integrity
  ─────────────────────────────────
  **WHAT THE ROWS OF THE BOOKS SAY OF EACH OTHER.**

  Books that have been filled by blocks alone hang together.  For every swap the
  tokens of its path and the account of its wallet are in the books; an account is
  that of a wallet which exchanges have funded; a pattern counts swaps that are there,
  and no more of them than its token; and a price is that of a purchase.

  What a swap needs is written down before the swap itself is (`vouched_bookSwap`),
  and as books only grow it is there from then on (`Vouched.grown`).

  Main fact: `books_hang_together`.
-/
import Mathlib.Algebra.Order.BigOperators.Group.List
import Mathlib.Algebra.Order.Group.Nat
import FundTrail.Proofs.Engine.Growth
import FundTrail.Proofs.Engine.Quotation

namespace FundTrail

open FundTrail.Store

/-! ## §1. What stands behind a swap. -/

/-- Everything that a swap speaks of is in the books, and the swap is as it has to
be. -/
structure Vouched (exchanges : ExchangeSet) (minTransfer : Amount) (b : Books) (s : Swap) :
    Prop where
  long : 2 ≤ s.path.length
  nonzero : ∀ token ∈ s.path, token ≠ .zero
  distinct : ∀ hop ∈ hops s.path, hop.1 ≠ hop.2
  last : s.path.getLast? = some s.token
  enough : minTransfer ≤ s.value
  outside : exchanges.contains s.wallet = false
  tokens : ∀ token ∈ s.path, ∃ row, b.find? .tokens token = .ok (some row)
    ∧ (token = s.token → row.decimals.toNat ≤ 77)
  account : ∃ account, b.find? .accounts s.wallet = .ok (some account)
    ∧ s.value ≤ account.totalSpent

section

variable {exchanges : ExchangeSet} {minTransfer : Amount} {b b' : Books}

/-- What stands behind a swap does not go away. -/
theorem Vouched.grown {recorded : List Swap} (h : Grown b b' recorded) {s : Swap}
    (hs : Vouched exchanges minTransfer b s) : Vouched exchanges minTransfer b' s where
  long := hs.long
  nonzero := hs.nonzero
  distinct := hs.distinct
  last := hs.last
  enough := hs.enough
  outside := hs.outside
  tokens token htoken := by
    obtain ⟨row, hrow, hdecimals⟩ := hs.tokens token htoken
    obtain ⟨row', hrow', hgrows⟩ := h.tokens token row hrow
    refine ⟨row', hrow', fun hlast => ?_⟩
    rw [hgrows.decimals]
    exact hdecimals hlast
  account := by
    obtain ⟨account, haccount, hspent⟩ := hs.account
    obtain ⟨account', haccount', hgrows⟩ := h.accounts _ account haccount
    exact ⟨account', haccount', Nat.le_trans hspent hgrows.spent⟩

/-- When a path has been noted every token of it has its row. -/
theorem exists_row_of_bookTokens {swap : PricedSwap} {tokens : List (Address × Metadata)}
    (hknown : ∀ p ∈ tokens, IsShort p.2.symbol) (h : bookTokens swap tokens b = .ok b') :
    ∀ p ∈ tokens, ∃ row, b'.find? .tokens p.1 = .ok (some row) := by
  induction tokens generalizing b with
  | nil => exact nofun
  | cons t tokens ih =>
    rw [bookTokens_cons] at h
    obtain ⟨b₁, h₁, h⟩ := exists_ok_of_bind h
    have hrest : ∀ p ∈ tokens, IsShort p.2.symbol := fun p hp => hknown p (List.mem_cons_of_mem _ hp)
    intro p hp
    rcases List.mem_cons.mp hp with rfl | hp
    · -- its row has been put here, and is there at the end
      rw [bookToken_eq] at h₁
      obtain ⟨row, hrow, rfl⟩ := Books.revise_eq_ok h₁
      have hput := Books.find?_put_self (keeps_noted swap (hknown p List.mem_cons_self) hrow) b
      rw [Books.keyOf_change hrow Table.keyed_tokens rfl (swap.address_noted p.1)] at hput
      obtain ⟨row', hrow', -⟩ := (rises_bookTokens hrest h).2 _ _ hput
      exact ⟨row', hrow'⟩
    · exact ih hrest h p hp

theorem exists_row_of_bookSwap {swap : PricedSwap} (hs : swap.Sound)
    (h : bookSwap swap b = .ok b') :
    ∀ p ∈ swap.tokens, ∃ row, b'.find? .tokens p.1 = .ok (some row) := by
  obtain ⟨c, hnoted, hrows⟩ := rows_token_bookSwap h
  intro p hp
  rw [Books.find?_congr_rows (t := .tokens) hrows]
  exact exists_row_of_bookTokens hs.short_symbols hnoted p hp

/-- The row says of the token what the token itself has said. -/
theorem decimals_of_bookSwap {a : Answers} {swap : PricedSwap} (hs : swap.Sound)
    (hsaid : ∀ p ∈ swap.tokens, a.said b p.1 = .ok p.2) (h : bookSwap swap b = .ok b')
    {p : Address × Metadata} (hp : p ∈ swap.tokens) {row : Token}
    (hrow : b'.find? .tokens p.1 = .ok (some row)) : row.decimals = p.2.decimals := by
  have hsame := (said_bookSwap hs hsaid h p.1).trans (hsaid p hp)
  exact congrArg Metadata.decimals (Except.ok.inj ((said_of_find? hrow).symm.trans hsame))

variable (hroom : exchanges.RoomIn b) (hx : exchanges.Short)

include hroom hx

/-- When a swap has been booked the wallet has its account, and what has been spent is
in it. -/
theorem exists_account_of_bookSwap {swap : PricedSwap} (h : bookSwap swap b = .ok b') :
    ∃ account, b'.find? .accounts swap.wallet = .ok (some account)
      ∧ swap.call.amountIn ≤ account.totalSpent := by
  obtain ⟨debited, hdebit, hrows⟩ := rows_account_bookSwap h
  obtain ⟨account, haccount, rfl⟩ := Books.revise_eq_ok hdebit
  have hkeeps : Table.accounts.Keeps (account.recordSpend swap.call.amountIn) :=
    hroom.keeps hx haccount fun name hname => .inl hname
  have hput := Books.find?_put_self hkeeps b
  have hwallet : Table.accounts.keyOf (account.recordSpend swap.call.amountIn) = swap.wallet :=
    Books.keyOf_change haccount Table.keyed_accounts rfl fun _ => rfl
  rw [hwallet] at hput
  rw [← Books.find?_congr_rows (t := .accounts) hrows] at hput
  refine ⟨_, hput, ?_⟩
  show swap.call.amountIn ≤ account.totalSpent.satAdd swap.call.amountIn
  rw [Word.satAdd_comm]
  exact Word.le_satAdd _ _

/-- **A swap that is booked finds everything that it speaks of**, because it has been
written down before. -/
theorem vouched_bookSwap {a : Answers} {swap : PricedSwap} (hs : swap.Sound)
    (hquoted : swap.Quoted exchanges minTransfer)
    (hsaid : ∀ p ∈ swap.tokens, a.said b p.1 = .ok p.2) (h : bookSwap swap b = .ok b') :
    Vouched exchanges minTransfer b' swap.record := by
  obtain ⟨last, hlast, hpayable⟩ := hquoted.payable
  refine ⟨hpayable.long, hpayable.nonzero, hpayable.distinct, hs.last, hquoted.enough,
    hquoted.outside, ?_, ?_⟩
  · intro token htoken
    change token ∈ swap.call.path at htoken
    rw [← hs.along] at htoken
    obtain ⟨p, hp, rfl⟩ := List.mem_map.mp htoken
    obtain ⟨row, hrow⟩ := exists_row_of_bookSwap hs h p hp
    refine ⟨row, hrow, fun hout => ?_⟩
    -- the last token is the one whose decimals have gone into the price
    have hend := hs.last
    rw [← hs.along, List.getLast?_map, hlast] at hend
    have hsame : last.1 = p.1 := (Option.some.inj hend).trans hout.symm
    rw [← hsame] at hrow
    rw [decimals_of_bookSwap hs hsaid h (List.mem_of_getLast? hlast) hrow]
    exact hpayable.decimals
  · exact exists_account_of_bookSwap hroom hx h

/-- **So do all swaps of a block.** -/
theorem vouched_bookAll {a : Answers} {rs : List Resolution} (hrs : ∀ r ∈ rs, r.Sound exchanges)
    (hquoted : ∀ swap, .swap swap ∈ rs → swap.Quoted exchanges minTransfer
      ∧ ∀ p ∈ swap.tokens, a.said b p.1 = .ok p.2)
    {outcomes : List Outcome} (h : bookAll rs b = .ok (outcomes, b')) :
    ∀ s ∈ notesOf rs outcomes, Vouched exchanges minTransfer b' s := by
  induction rs generalizing b outcomes with
  | nil =>
    obtain ⟨rfl, rfl⟩ := Prod.mk.inj (Except.ok.inj h)
    exact nofun
  | cons r rs ih =>
    obtain ⟨outcome, rest, b₁, h₁, h₂, rfl⟩ := bookAll_cons_eq_ok h
    have hr := hrs r List.mem_cons_self
    have hrest : ∀ r ∈ rs, r.Sound exchanges := fun r hr => hrs r (List.mem_cons_of_mem _ hr)
    obtain ⟨-, hroom₁⟩ := grown_book hroom hx hr h₁
    obtain ⟨hgrown, -⟩ := grown_bookAll hx hrest hroom₁ h₂
    intro s hs
    rcases List.mem_append.mp hs with hs | hs
    · -- what is noted first is vouched for first
      rcases book_cases h₁ with
        ⟨_, _, _, rfl, rfl, -⟩ | ⟨swap, rfl, -, rfl, hbook⟩
        | ⟨_, rfl, -, rfl, -⟩ | ⟨_, rfl, rfl, -⟩ | ⟨_, rfl, rfl, -⟩
      · exact nomatch hs
      · obtain rfl := List.mem_singleton.mp hs
        obtain ⟨hswap, hsaid⟩ := hquoted swap List.mem_cons_self
        exact (vouched_bookSwap hroom hx hr hswap hsaid hbook).grown hgrown
      · exact nomatch hs
      · exact nomatch hs
      · exact nomatch hs
    · refine ih hroom₁ hrest (fun swap hswap => ?_) h₂ s hs
      obtain ⟨hswapQuoted, hsaid⟩ := hquoted swap (List.mem_cons_of_mem _ hswap)
      refine ⟨hswapQuoted, fun p hp => ?_⟩
      rw [said_book hr (fun {first} hfirst => ?_) h₁]
      · exact hsaid p hp
      · subst hfirst
        exact (hquoted first List.mem_cons_self).2

end

/-! ## §2. Rows that can be read. -/

/-- Every row that blocks write is that of a record that can be read again. -/
structure Held (b : Books) : Prop where
  accounts : b.Holds .accounts
  tokens : b.Holds .tokens
  patterns : b.Holds .patterns
  swaps : b.Holds .swaps

namespace Held

variable {b b' : Books}

theorem of_empty (haccounts : b.account = .empty) (htokens : b.token = .empty)
    (hpatterns : b.pattern = .empty) (hswaps : b.swap = .empty) : Held b where
  accounts := .of_empty haccounts
  tokens := .of_empty htokens
  patterns := .of_empty hpatterns
  swaps := .of_empty hswaps

theorem put_cursor (h : Held b) (cursor : Cursor) : Held (b.put .cursor cursor) where
  accounts := h.accounts.congr_rows (Books.rows_put (by decide) b cursor)
  tokens := h.tokens.congr_rows (Books.rows_put (by decide) b cursor)
  patterns := h.patterns.congr_rows (Books.rows_put (by decide) b cursor)
  swaps := h.swaps.congr_rows (Books.rows_put (by decide) b cursor)

end Held

theorem Store.Books.Holds.revise {κ ρ : Type} {t : Table κ ρ} {b b' : Books} {key : κ}
    {fallback : ρ} {change : ρ → ρ} (hb : b.Holds t)
    (h : b.revise t key fallback change = .ok b')
    (hkeeps : ∀ r, b.findOr t key fallback = .ok r → t.Keeps (change r)) : b'.Holds t := by
  obtain ⟨r, hr, rfl⟩ := revise_eq_ok h
  exact hb.put (hkeeps r hr)

section

variable {b b' : Books}

theorem holds_bookTokens {swap : PricedSwap} {tokens : List (Address × Metadata)}
    (hknown : ∀ p ∈ tokens, IsShort p.2.symbol) (h : bookTokens swap tokens b = .ok b')
    (hb : b.Holds .tokens) : b'.Holds .tokens :=
  bookTokens_induction (P := fun c => c.Holds .tokens) h hb fun _ ht _ _ hc hrevise =>
    hc.revise hrevise fun _ => keeps_noted swap (hknown _ ht)

theorem holds_bookPatterns {token : Address} {value : Amount} {names : List String}
    (h : bookPatterns token value names b = .ok b') (hb : b.Holds .patterns) :
    b'.Holds .patterns :=
  bookPatterns_induction (P := fun c => c.Holds .patterns) h hb fun _ _ _ _ hc hrevise =>
    hc.revise hrevise fun _ _ => Table.keeps_pattern _

variable {exchanges : ExchangeSet} (hroom : exchanges.RoomIn b) (hx : exchanges.Short)

include hroom hx

theorem held_bookTransfer {exchange : String} {recipient : Address} {value : Amount}
    (hname : ∃ owned, exchanges.nameOf? owned = some exchange)
    (h : bookTransfer exchange recipient value b = .ok b') (hb : Held b) : Held b' := by
  rw [bookTransfer_eq] at h
  refine ⟨hb.accounts.revise h fun account haccount => ?_,
    hb.tokens.congr_rows (Books.rows_revise h (by decide)),
    hb.patterns.congr_rows (Books.rows_revise h (by decide)),
    hb.swaps.congr_rows (Books.rows_revise h (by decide))⟩
  refine hroom.keeps hx haccount fun name hmem => ?_
  rcases NameSet.mem_insert.mp hmem with rfl | hold
  · exact .inr hname
  · exact .inl hold

theorem held_bookSwap {swap : PricedSwap} (hs : swap.Sound) (h : bookSwap swap b = .ok b')
    (hb : Held b) : Held b' := by
  obtain ⟨debited, hdebit, haccounts⟩ := rows_account_bookSwap h
  obtain ⟨c, hnoted, htokens⟩ := rows_token_bookSwap h
  obtain ⟨_, before, after, -, hbefore, hcounted, hpatterns⟩ := rows_pattern_bookSwap h
  refine ⟨?_, ?_, ?_, (hb.swaps.put hs.keeps_record).congr_rows (rows_swap_bookSwap h)⟩
  · have hdebited : debited.Holds .accounts :=
      hb.accounts.revise hdebit fun _ hfound => hroom.keeps hx hfound fun _ hmem => .inl hmem
    exact hdebited.congr_rows haccounts
  · exact (holds_bookTokens hs.short_symbols hnoted hb.tokens).congr_rows htokens
  · exact (holds_bookPatterns hcounted (hb.patterns.congr_rows hbefore)).congr_rows hpatterns

theorem held_book {r : Resolution} (hr : r.Sound exchanges) {outcome : Outcome}
    (h : book r b = .ok (outcome, b')) (hb : Held b) : Held b' := by
  rcases book_cases h with
    ⟨_, _, _, rfl, -, hbook⟩ | ⟨swap, rfl, -, -, hbook⟩
    | ⟨_, -, -, -, rfl⟩ | ⟨_, -, -, rfl⟩ | ⟨_, -, -, rfl⟩
  · exact held_bookTransfer hroom hx hr hbook hb
  · exact held_bookSwap hroom hx hr hbook hb
  · exact hb
  · exact hb
  · exact hb

theorem held_bookAll {rs : List Resolution} (hrs : ∀ r ∈ rs, r.Sound exchanges)
    {outcomes : List Outcome} (h : bookAll rs b = .ok (outcomes, b')) (hb : Held b) :
    Held b' := by
  induction rs generalizing b outcomes with
  | nil =>
    obtain ⟨-, rfl⟩ := Prod.mk.inj (Except.ok.inj h)
    exact hb
  | cons r rs ih =>
    obtain ⟨outcome, rest, b₁, h₁, h₂, -⟩ := bookAll_cons_eq_ok h
    have hr := hrs r List.mem_cons_self
    obtain ⟨-, hroom₁⟩ := grown_book hroom hx hr h₁
    exact ih hroom₁ (fun r hr => hrs r (List.mem_cons_of_mem _ hr)) h₂
      (held_book hroom hx hr h₁ hb)

end

/-! ## §3. Books that blocks have filled. -/

/-- Every swap is vouched for, and every price is that of a swap. -/
structure Sourced (exchanges : ExchangeSet) (minTransfer : Amount) (b : Books) : Prop where
  room : exchanges.RoomIn b
  held : Held b
  vouched : ∀ hash s, b.find? .swaps hash = .ok (some s) → Vouched exchanges minTransfer b s
  priced : ∀ token, priceOf b token ≠ 0 →
    ∃ hash s, b.find? .swaps hash = .ok (some s) ∧ s.token = token

namespace Sourced

variable {exchanges : ExchangeSet} {minTransfer : Amount} {b b' : Books}

theorem of_empty (hx : exchanges.Storable) (haccounts : b.account = .empty)
    (htokens : b.token = .empty) (hpatterns : b.pattern = .empty) (hswaps : b.swap = .empty) :
    Sourced exchanges minTransfer b where
  room := .of_empty hx haccounts
  held := .of_empty haccounts htokens hpatterns hswaps
  vouched hash s hs := by
    have hnone : b.find? .swaps hash = .ok none := by
      unfold Books.find? Books.raw?
      rw [show b.rows Table.swaps.bucket = .empty from hswaps]
      rfl
    exact nomatch hnone.symm.trans hs
  priced token hprice := by
    refine absurd ?_ hprice
    unfold priceOf Books.find? Books.raw?
    rw [show b.rows Table.tokens.bucket = .empty from htokens]
    rfl

/-- **What holds of the books before some swaps are recorded holds of them after**, if
what is recorded is vouched for. -/
theorem grown (h : Sourced exchanges minTransfer b) {recorded : List Swap}
    (hgrown : Grown b b' recorded) (hroom : exchanges.RoomIn b') (hheld : Held b')
    (hvouched : ∀ s ∈ recorded, Vouched exchanges minTransfer b' s) :
    Sourced exchanges minTransfer b' where
  room := hroom
  held := hheld
  vouched hash s hs := by
    have hhas : b'.has .swaps hash = true := by
      obtain ⟨value, hvalue, -⟩ := Books.exists_value_of_find? hs
      exact Option.isSome_iff_exists.mpr ⟨value, hvalue⟩
    rcases (hgrown.has hash).mp hhas with hnew | hold
    · obtain ⟨s', hs', rfl⟩ := List.mem_map.mp hnew
      obtain rfl : s' = s := Books.find?_unique (hgrown.found s' hs') hs
      exact hvouched s' hs'
    · -- the row is the same as before, and so is what is read from it
      obtain ⟨value, hvalue⟩ := Option.isSome_iff_exists.mp hold
      have hlater : b'.raw? .swaps hash = some value := hgrown.swaps _ value hvalue
      rw [Books.find?_congr (hlater.trans hvalue.symm)] at hs
      exact (h.vouched hash s hs).grown hgrown
  priced token hprice := by
    rw [hgrown.price, firstPrice_cons] at hprice
    by_cases hbefore : priceOf b token = 0
    · rw [if_pos hbefore] at hprice
      cases hlist : purchases recorded token with
      | nil =>
        rw [hlist] at hprice
        exact absurd rfl hprice
      | cons s rest =>
        have hmem : s ∈ purchases recorded token := hlist ▸ List.mem_cons_self
        obtain ⟨hs, htoken⟩ := List.mem_filter.mp hmem
        exact ⟨s.txHash, s, hgrown.found s hs, of_decide_eq_true htoken⟩
    · obtain ⟨hash, s, hs, htoken⟩ := h.priced token hbefore
      exact ⟨hash, s, hgrown.find?_swaps hs, htoken⟩

variable {σ : Type} {m : Market σ} (hm : m.Short)

include hm

/-- A block leaves it so, whatever the chain says. -/
theorem process (now : Int64) (batch : Batch) {e : Engine σ} (hx : e.exchanges.Short)
    (h : Sourced e.exchanges e.settings.minTransfer e.store.handle.books) :
    Sourced e.exchanges e.settings.minTransfer
      (e.process m now batch).2.store.handle.books := by
  rcases e.process_cases m now batch with
    ⟨error, -, hstore⟩ | ⟨outcomes, rs, desk, booked, hc⟩
  · rw [hstore]
    exact h
  · obtain ⟨a, hquoted⟩ := hc.quoted
    have hsound := hc.sound hm
    obtain ⟨hgrown, hroom⟩ := grown_bookAll hx hsound h.room hc.booking
    have hbooked : Sourced e.exchanges e.settings.minTransfer booked :=
      h.grown hgrown hroom (held_bookAll h.room hx hsound hc.booking h.held)
        (vouched_bookAll h.room hx hsound hquoted hc.booking)
    have hroom' : e.exchanges.RoomIn (booked.put .cursor ⟨batch.number, batch.hash, now⟩) :=
      hroom.congr_rows (Books.rows_put (by decide) booked _)
    rw [hc.after]
    exact hbooked.grown (.put_cursor booked _) hroom' (hbooked.held.put_cursor _) nofun

/-- And so does a run. -/
theorem processAll (calls : List (Int64 × Batch)) {e : Engine σ} (hx : e.exchanges.Short)
    (h : Sourced e.exchanges e.settings.minTransfer e.store.handle.books) :
    Sourced e.exchanges e.settings.minTransfer
      (e.processAll m calls).2.store.handle.books := by
  induction calls generalizing e with
  | nil => exact h
  | cons call calls ih =>
    obtain ⟨now, batch⟩ := call
    obtain ⟨hexchanges, hsettings⟩ := e.exchanges_process m now batch
    have hone := process hm now batch hx h
    rw [← hexchanges, ← hsettings] at hone
    rw [← hexchanges] at hx
    have hrest := ih hx hone
    rw [hexchanges, hsettings] at hrest
    exact hrest

end Sourced

/-! ## §4. Accounts and patterns. -/

/-- The account is that of a wallet which is not one of an exchange, but has been
funded by some. -/
structure Account.Opened (exchanges : ExchangeSet) (a : Account) : Prop where
  outside : exchanges.contains a.address = false
  funded : a.fromExchanges.toList ≠ []
  known : ∀ name ∈ a.fromExchanges, ∃ owned, exchanges.nameOf? owned = some name

/-- The pattern counts swaps that are in the books, and no more of them than its
token. -/
structure Pattern.Backed (exchanges : ExchangeSet) (b : Books) (swaps : List Swap)
    (p : Pattern) : Prop where
  known : ∃ owned, exchanges.nameOf? owned = some p.exchange
  occurred : 1 ≤ p.timesOccurred.toNat
  bought : ∃ s ∈ swaps, s.token = p.token
  token : ∃ row, b.find? .tokens p.token = .ok (some row)
    ∧ p.timesOccurred ≤ row.timesBought ∧ p.value ≤ row.totalBought

section

variable {exchanges : ExchangeSet} {minTransfer : Amount} {b : Books}

/-- Where an account stands there have been exchanges to open it. -/
theorem Funded.opened {txs : List Transaction} {swaps : List Swap}
    (h : Funded exchanges minTransfer b txs swaps) {a : Account}
    (ha : b.find? .accounts a.address = .ok (some a)) : a.Opened exchanges := by
  rcases h a.address with ⟨hnone, -⟩ | ⟨a', ha', hne, hnames, -⟩
  · exact nomatch ha.symm.trans hnone
  · obtain rfl : a = a' := Books.find?_unique ha ha'
    obtain ⟨name, hname⟩ := List.exists_mem_of_ne_nil _ hne
    obtain ⟨tx, -, hfunder⟩ := List.mem_filterMap.mp hname
    refine ⟨(Transaction.funder?_eq_some_iff.mp hfunder).2.2.1, ?_, fun name hname => ?_⟩
    · exact List.ne_nil_of_mem ((hnames name).mpr hname)
    · exact exists_wallet_of_mem_funders exchanges minTransfer a.address txs
        ((hnames name).mp hname)

/-- Where a token has been bought there is its row, and it counts that. -/
theorem Tallied.exists_row {swaps : List Swap} (h : Tallied b swaps) {s : Swap} (hs : s ∈ swaps) :
    ∃ row, b.find? .tokens s.token = .ok (some row)
      ∧ row.timesBought.toNat = min (places swaps s.token) (2 ^ 64 - 1)
      ∧ row.totalBought.toNat = min (spentByPlace swaps s.token) (2 ^ 256 - 1)
      ∧ 1 ≤ places swaps s.token := by
  have hmem : s ∈ purchases swaps s.token := List.mem_filter.mpr ⟨hs, decide_eq_true rfl⟩
  have hplaces : 1 ≤ places swaps s.token := by
    refine Nat.le_trans (h.one_le_count s.token s hmem) ?_
    exact List.le_sum_of_mem (List.mem_map.mpr ⟨s, hmem, rfl⟩)
  rcases h.counts s.token with ⟨-, hzero, -⟩ | ⟨row, hrow, htimes, htotal⟩
  · omega
  · exact ⟨row, hrow, htimes, htotal, hplaces⟩

/-- A token has at least as many places as some swaps into it are, and as much is spent
on them. -/
theorem Tallied.le_places {swaps counted : List Swap} (h : Tallied b swaps) {token : Address}
    (hcounted : counted.Sublist (purchases swaps token)) :
    counted.length ≤ places swaps token
      ∧ (counted.map fun s => s.value.toNat).sum ≤ spentByPlace swaps token := by
  have hone := h.one_le_count token
  constructor
  · have hlength : (purchases swaps token).length = ((purchases swaps token).map fun _ => 1).sum := by
      rw [List.map_const', List.sum_replicate_nat, Nat.mul_one]
    refine Nat.le_trans hcounted.length_le ?_
    rw [hlength]
    exact sum_map_le hone
  · refine Nat.le_trans ((hcounted.map _).sum_le_sum fun _ _ => Nat.zero_le _) ?_
    exact sum_map_le fun s hs => Nat.le_mul_of_pos_left _ (hone s hs)

/-- What is counted by a pattern is there, and its token counts it too. -/
theorem Attributed.backed {history : List (Transaction × Outcome)} {swaps : List Swap}
    (h : Attributed exchanges minTransfer b history swaps) (ht : Tallied b swaps) {p : Pattern}
    (hp : b.find? .patterns p.key = .ok (some p)) : p.Backed exchanges b swaps := by
  rcases h.occurs p.token p.exchange with ⟨hnone, -⟩ | ⟨p', hp', hne, htimes, hvalue⟩
  · exact nomatch hp.symm.trans hnone
  · obtain rfl : p = p' := Books.find?_unique hp hp'
    obtain ⟨s, hmem⟩ := List.exists_mem_of_length_pos (Nat.pos_of_ne_zero hne)
    obtain ⟨hs, hsource⟩ := List.mem_filter.mp hmem
    obtain ⟨htoken, horigin⟩ := of_decide_eq_true hsource
    have hcounted : (attributed exchanges minTransfer history swaps p.token p.exchange).Sublist
        (purchases swaps p.token) :=
      List.monotone_filter_right swaps fun s hs => by
        simp only [decide_eq_true_eq] at hs ⊢
        exact hs.1
    obtain ⟨hlength, hspent⟩ := ht.le_places hcounted
    obtain ⟨row, hrow, htimesBought, htotalBought, -⟩ := ht.exists_row hs
    rw [htoken] at hrow htimesBought htotalBought
    refine ⟨exists_wallet_of_mem_funders _ _ _ _ horigin, ?_, ⟨s, hs, htoken⟩, row, hrow, ?_, ?_⟩
    · omega
    · show p.timesOccurred.toNat ≤ row.timesBought.toNat
      omega
    · show p.value.toNat ≤ row.totalBought.toNat
      omega

end

/-! ## §5. Reports. -/

/-- Where all tokens are known a report is made on every pattern. -/
theorem map_pattern_filterMap {tokens : List Token} {patterns : List Pattern}
    (h : ∀ p ∈ patterns, ∃ row ∈ tokens, row.address = p.token) :
    (patterns.filterMap (Books.reportOn tokens)).map Books.Report.pattern = patterns := by
  induction patterns with
  | nil => rfl
  | cons p patterns ih =>
    obtain ⟨row, hmem, hrow⟩ := h p List.mem_cons_self
    have hfound : (tokens.find? fun t => t.address = p.token).isSome = true :=
      List.find?_isSome.mpr ⟨row, hmem, decide_eq_true hrow⟩
    obtain ⟨known, hknown⟩ := Option.isSome_iff_exists.mp hfound
    have hreport : Books.reportOn tokens p
        = some ⟨p, known.symbol, known.decimals, known.price⟩ := by
      unfold Books.reportOn
      rw [hknown]
      rfl
    rw [List.filterMap_cons_some hreport, List.map_cons,
      ih fun p hp => h p (List.mem_cons_of_mem _ hp)]

/-- **So no pattern is left out.** -/
theorem Store.Books.exists_reports {b : Books} {tokens : List Token} {patterns : List Pattern}
    (htokens : b.all .tokens = .ok tokens) (hpatterns : b.all .patterns = .ok patterns)
    (h : ∀ p ∈ patterns, ∃ row ∈ tokens, row.address = p.token) :
    ∃ reports, b.reports = .ok reports ∧ (reports.map Report.pattern).Perm patterns := by
  have hreports : b.reports = .ok ((patterns.filterMap (reportOn tokens)).mergeSort fun x y =>
      decide (y.pattern.timesOccurred ≤ x.pattern.timesOccurred)) := by
    unfold reports
    rw [htokens, hpatterns]
    rfl
  refine ⟨_, hreports, ((List.mergeSort_perm _ _).map _).trans ?_⟩
  rw [map_pattern_filterMap h]

/-! ## §6. From empty books. -/

/-- **Books that blocks have filled hang together.**  All four kinds of rows can be
read; every swap finds its tokens and the account of its wallet, every account its
exchanges, every pattern a swap and its token, and every price a purchase.  So a
report is made on every pattern. -/
theorem books_hang_together {σ : Type} {m : Market σ} (hm : m.Short) (e : Engine σ)
    (hx : e.exchanges.Storable) (haccounts : e.store.handle.books.account = .empty)
    (htokens : e.store.handle.books.token = .empty)
    (hpatterns : e.store.handle.books.pattern = .empty)
    (hswaps : e.store.handle.books.swap = .empty) (calls : List (Int64 × Batch)) :
    let books := (e.processAll m calls).2.store.handle.books
    ∃ accounts tokens patterns swaps reports,
      books.all .accounts = .ok accounts ∧ books.all .tokens = .ok tokens
      ∧ books.all .patterns = .ok patterns ∧ books.all .swaps = .ok swaps
      ∧ (∀ s ∈ swaps, Vouched e.exchanges e.settings.minTransfer books s
          ∧ ∃ a ∈ accounts, a.address = s.wallet ∧ s.value ≤ a.totalSpent)
      ∧ (∀ a ∈ accounts, a.Opened e.exchanges)
      ∧ (∀ p ∈ patterns, p.Backed e.exchanges books swaps)
      ∧ (∀ row ∈ tokens, row.price ≠ 0 → 1 ≤ row.timesBought.toNat)
      ∧ books.reports = .ok reports ∧ (reports.map Books.Report.pattern).Perm patterns := by
  intro books
  have hsourced : Sourced e.exchanges e.settings.minTransfer books :=
    Sourced.processAll hm calls hx.short (.of_empty hx haccounts htokens hpatterns hswaps)
  -- what has been done, and what it has come to
  obtain ⟨swaps, hall, hfunded, hattributed⟩ :=
    (carriedOn_attributed hx e.settings.minTransfer).processAll hm calls [] ⟨[],
      Books.all_of_empty (t := .swaps) hswaps, .of_empty haccounts, .of_empty hpatterns⟩
  obtain ⟨swaps', htallied⟩ :=
    (carriedOn_tallied e.exchanges e.settings.minTransfer).processAll hm calls [] ⟨[],
      .of_empty htokens hswaps⟩
  obtain rfl : swaps = swaps' := Except.ok.inj (hall.symm.trans htallied.all)
  -- the rows are those of the records that are found
  obtain ⟨accounts, haccountsAll, hmemAccounts⟩ := hsourced.held.accounts.all Table.keyed_accounts
  obtain ⟨tokens, htokensAll, hmemTokens⟩ := hsourced.held.tokens.all Table.keyed_tokens
  obtain ⟨patterns, hpatternsAll, hmemPatterns⟩ := hsourced.held.patterns.all Table.keyed_patterns
  obtain ⟨swaps', hswapsAll, hmemSwaps⟩ := hsourced.held.swaps.all Table.keyed_swaps
  obtain rfl : swaps = swaps' := Except.ok.inj (hall.symm.trans hswapsAll)
  have hbacked : ∀ p ∈ patterns, p.Backed e.exchanges books swaps :=
    fun p hp => hattributed.backed htallied ((hmemPatterns p).mp hp)
  obtain ⟨reports, hreports, hperm⟩ := Books.exists_reports htokensAll hpatternsAll fun p hp => by
    obtain ⟨row, hrow, -⟩ := (hbacked p hp).token
    have haddress : row.address = p.token := Books.keyOf_find? Table.keyed_tokens hrow
    rw [← haddress] at hrow
    exact ⟨row, (hmemTokens row).mpr hrow, haddress⟩
  refine ⟨accounts, tokens, patterns, swaps, reports, haccountsAll, htokensAll, hpatternsAll, hall,
    fun s hs => ?_, fun a ha => hfunded.opened ((hmemAccounts a).mp ha), hbacked,
    fun row hrow hprice => ?_, hreports, hperm⟩
  · have hvouched := hsourced.vouched s.txHash s ((hmemSwaps s).mp hs)
    obtain ⟨a, ha, hspent⟩ := hvouched.account
    have haddress : a.address = s.wallet := Books.keyOf_find? Table.keyed_accounts ha
    rw [← haddress] at ha
    exact ⟨hvouched, a, (hmemAccounts a).mpr ha, haddress, hspent⟩
  · have hrow := (hmemTokens row).mp hrow
    rw [← priceOf_of_find? hrow] at hprice
    obtain ⟨hash, s, hs, htoken⟩ := hsourced.priced _ hprice
    have hhash : s.txHash = hash := Books.keyOf_find? Table.keyed_swaps hs
    rw [← hhash] at hs
    obtain ⟨row', hrow', htimes, -, hplaces⟩ :=
      htallied.exists_row ((hmemSwaps s).mpr hs)
    rw [htoken] at hrow'
    obtain rfl : row = row' := Books.find?_unique hrow hrow'
    omega

/-- A wallet that two exchanges fund buys a token twice: there are two patterns, and a
report on each of them. -/
theorem books_hang_together_lateFunding :
    let books := (twoExchanges.processAll evenMarket lateFunding).2.store.handle.books
    ∃ patterns swaps reports,
      books.all .patterns = .ok patterns ∧ patterns.map Pattern.exchange = ["X", "Y"]
      ∧ books.all .swaps = .ok swaps ∧ swaps.map Swap.txHash = [.ofPrefix [2], .ofPrefix [4]]
      ∧ (∀ s ∈ swaps, Vouched twoExchanges.exchanges oneEther books s)
      ∧ (∀ p ∈ patterns, p.Backed twoExchanges.exchanges books swaps)
      ∧ books.reports = .ok reports ∧ (reports.map Books.Report.pattern).Perm patterns := by
  intro books
  obtain ⟨accounts, tokens, patterns, swaps, reports, -, -, hpatterns, hswaps, hvouched, -, hbacked,
      -, hreports, hperm⟩ :=
    books_hang_together short_evenMarket twoExchanges storable_twoExchanges rfl rfl rfl rfl
      lateFunding
  have hnames : (books.all .patterns).toOption.map (List.map Pattern.exchange)
      = some ["X", "Y"] := by
    decide +kernel
  have hhashes : (books.all .swaps).toOption.map (List.map Swap.txHash)
      = some [.ofPrefix [2], .ofPrefix [4]] := by
    decide +kernel
  rw [hpatterns] at hnames
  rw [hswaps] at hhashes
  exact ⟨patterns, swaps, reports, hpatterns, Option.some.inj hnames, hswaps,
    Option.some.inj hhashes, fun s hs => (hvouched s hs).1, hbacked, hreports, hperm⟩

end FundTrail
