/-
  FundTrail.Proofs.Engine.Frame
  ─────────────────────────────
  **WHAT A BLOCK LEAVES ALONE.**

  Which rows a block writes depends on what it finds in the books and on what its
  earlier transactions have put there.  From outside it can be said by the books
  before and after: there are the cursor, the swaps that are new, the accounts of those
  who have been funded and of those who have swapped, the tokens on the paths of new
  swaps, and the patterns of their last tokens with the exchanges that are in the
  account of the wallet by then.  These rows are `Touched`; every other row is the same
  to the byte, whether it can be read or not.

  A booking is followed with one set of rows in view, that of the whole block
  (`Books.OnlyAt`).  That a row which a booking writes is in this set is seen at its
  end: new swaps stay as they are, and an account loses no exchange.

  Main facts: `onlyAt_book`, `onlyAt_bookAll` and `untouched_process`.
-/
import FundTrail.Proofs.Engine.Growth

namespace FundTrail

open FundTrail.Store

/-! ## §1. Changes within a set of rows. -/

namespace Store.Books

variable {κ ρ : Type} {S : Bucket → Bytes → Prop} {b b' c : Books}

/-- `b` and `b'` differ in rows of `S` only. -/
def OnlyAt (S : Bucket → Bytes → Prop) (b b' : Books) : Prop :=
  ∀ bucket key, ¬ S bucket key → (b'.rows bucket).get? key = (b.rows bucket).get? key

namespace OnlyAt

theorem refl (S : Bucket → Bytes → Prop) (b : Books) : OnlyAt S b b := fun _ _ _ => rfl

theorem trans (h : OnlyAt S b b') (g : OnlyAt S b' c) : OnlyAt S b c :=
  fun bucket key hkey => (g bucket key hkey).trans (h bucket key hkey)

theorem put {t : Table κ ρ} {r : ρ} (h : S t.bucket (t.encodeKey (t.keyOf r))) (b : Books) :
    OnlyAt S b (b.put t r) := by
  intro bucket key hkey
  by_cases hbucket : bucket = t.bucket
  · subst hbucket
    rw [rows_put_self, Rows.get?_insert, if_neg]
    rintro rfl
    exact hkey h
  · rw [rows_put hbucket]

theorem revise {t : Table κ ρ} {key : κ} {fallback : ρ} {change : ρ → ρ}
    (hrevise : b.revise t key fallback change = .ok b') (ht : t.Keyed)
    (hfallback : t.keyOf fallback = key) (hchange : ∀ r, t.keyOf (change r) = t.keyOf r)
    (h : S t.bucket (t.encodeKey key)) : OnlyAt S b b' := by
  obtain ⟨r, hr, rfl⟩ := revise_eq_ok hrevise
  refine put ?_ b
  rwa [keyOf_change hr ht hfallback hchange]

end OnlyAt

end Store.Books

/-! ## §2. The rows that a block may write. -/

/-- The swap has its row in `after`, and had none in `before`. -/
structure NewSwap (before after : Books) (s : Swap) : Prop where
  absent : before.has .swaps s.txHash = false
  found : after.find? .swaps s.txHash = .ok (some s)

/-- The rows that transactions may have written between `before` and `after`. -/
inductive Touched (exchanges : ExchangeSet) (minTransfer : Amount) (txs : List Transaction)
    (before after : Books) : Bucket → Bytes → Prop where
  | cursor : Touched exchanges minTransfer txs before after .cursor cursorKey
  | swap {s : Swap} {tx : Transaction} : NewSwap before after s → tx ∈ txs → tx.hash = s.txHash →
      Touched exchanges minTransfer txs before after .swap s.txHash.toList
  /-- The account of the recipient of a transfer out of an exchange. -/
  | recipient {tx : Transaction} {exchange : String} {recipient : Address} : tx ∈ txs →
      judge exchanges minTransfer tx = .settled (.transfer exchange recipient tx.value) →
      Touched exchanges minTransfer txs before after .account recipient.toList
  | wallet {s : Swap} : NewSwap before after s →
      Touched exchanges minTransfer txs before after .account s.wallet.toList
  | token {s : Swap} {token : Address} : NewSwap before after s → token ∈ s.path →
      Touched exchanges minTransfer txs before after .token token.toList
  /-- The pattern of the token of a new swap with an exchange that has funded its wallet. -/
  | pattern {s : Swap} {account : Account} {exchange : String} : NewSwap before after s →
      after.find? .accounts s.wallet = .ok (some account) → exchange ∈ account.fromExchanges →
      Touched exchanges minTransfer txs before after .pattern
        (encodePatternKey ⟨s.token, exchange⟩)

/-- What a resolution says of a transfer, the transaction says. -/
theorem Resolution.Of.judge_eq {exchanges : ExchangeSet} {minTransfer : Amount} {books : Books}
    {funded : List Address} {tx : Transaction} {exchange : String} {recipient : Address}
    {value : Amount}
    (h : Resolution.Of exchanges minTransfer books funded tx (.transfer exchange recipient value)) :
    judge exchanges minTransfer tx = .settled (.transfer exchange recipient tx.value) := by
  have hfunder : tx.funder? exchanges minTransfer recipient = some exchange :=
    (h.funder recipient).trans (if_pos rfl)
  rcases judge_cases exchanges minTransfer tx with
    ⟨exchange', recipient', hjudge, hfunds⟩ | ⟨-, hnobody⟩
  · rw [hfunds recipient] at hfunder
    split at hfunder
    next hrecipient =>
      obtain rfl := Option.some.inj hfunder
      rw [hrecipient]
      exact hjudge
    next => exact nomatch hfunder
  · rw [hnobody recipient] at hfunder
    exact nomatch hfunder

/-! ## §3. The rows that a swap writes. -/

section

variable {S : Bucket → Bytes → Prop} {b b' : Books} {swap : PricedSwap}

theorem onlyAt_bookTokens {tokens : List (Address × Metadata)}
    (hS : ∀ token ∈ tokens.map Prod.fst, S .token token.toList)
    (h : bookTokens swap tokens b = .ok b') : b.OnlyAt S b' :=
  bookTokens_induction h (.refl S b) fun t ht _ _ hc hrevise =>
    hc.trans (.revise hrevise Table.keyed_tokens rfl (swap.address_noted t.1)
      (hS t.1 (List.mem_map_of_mem ht)))

theorem onlyAt_bookPatterns {token : Address} {value : Amount} {names : List String}
    (hS : ∀ name ∈ names, S .pattern (encodePatternKey ⟨token, name⟩))
    (h : bookPatterns token value names b = .ok b') : b.OnlyAt S b' :=
  bookPatterns_induction h (.refl S b) fun name hname _ _ hc hrevise =>
    hc.trans (.revise hrevise Table.keyed_patterns rfl (fun _ => rfl) (hS name hname))

theorem keyOf_recordSpend {wallet : Address} {account : Account}
    (haccount : b.findOr .accounts wallet (.new wallet) = .ok account) (value : Amount) :
    Table.accounts.keyOf (account.recordSpend value) = wallet :=
  Books.keyOf_change (t := .accounts) haccount Table.keyed_accounts rfl fun _ => rfl

/-- The account of the wallet stands in the books when its swap is booked, with the
exchanges that it has had. -/
theorem find?_account_bookSwap {exchanges : ExchangeSet} (hroom : exchanges.RoomIn b)
    (hx : exchanges.Short) {account : Account}
    (haccount : b.findOr .accounts swap.wallet (.new swap.wallet) = .ok account)
    (h : bookSwap swap b = .ok b') :
    b'.find? .accounts swap.wallet = .ok (some (account.recordSpend swap.call.amountIn)) := by
  obtain ⟨account', b₁, b₂, haccount', -, -, rfl⟩ := bookSwap_eq_ok h
  obtain rfl : account' = account := Except.ok.inj (haccount'.symm.trans haccount)
  have hkeeps : Table.accounts.Keeps (account'.recordSpend swap.call.amountIn) :=
    hroom.keeps hx haccount fun name hname => .inl hname
  have hput := Books.find?_put_self hkeeps (b₂.put .swaps swap.record)
  rw [keyOf_recordSpend haccount] at hput
  exact hput

/-- A swap writes rows of its own, of its wallet, of its path and of its patterns. -/
theorem onlyAt_bookSwap (hs : swap.Sound) {account : Account}
    (haccount : b.findOr .accounts swap.wallet (.new swap.wallet) = .ok account)
    (hswap : S .swap swap.txHash.toList) (hwallet : S .account swap.wallet.toList)
    (htokens : ∀ token ∈ swap.call.path, S .token token.toList)
    (hpatterns : ∀ name ∈ account.fromExchanges,
      S .pattern (encodePatternKey ⟨swap.call.tokenOut, name⟩))
    (h : bookSwap swap b = .ok b') : b.OnlyAt S b' := by
  obtain ⟨account', b₁, b₂, haccount', h₁, h₂, rfl⟩ := bookSwap_eq_ok h
  obtain rfl : account' = account := Except.ok.inj (haccount'.symm.trans haccount)
  have hpath : b.OnlyAt S b₁ := onlyAt_bookTokens (by rwa [hs.along]) h₁
  have hcounted : b₁.OnlyAt S b₂ := onlyAt_bookPatterns hpatterns h₂
  have hnoted : b₂.OnlyAt S (b₂.put .swaps swap.record) := .put hswap b₂
  refine hpath.trans (hcounted.trans (hnoted.trans (.put ?_ _)))
  rw [keyOf_recordSpend haccount]
  exact hwallet

end

/-! ## §4. The rows that a block writes. -/

section

variable {exchanges : ExchangeSet} (hx : exchanges.Short) {minTransfer : Amount}
  {txs : List Transaction} {b₀ before b b' after : Books} {funded : List Address}

include hx

/-- **What one booking writes is touched,** seen from the end of the block. -/
theorem onlyAt_book (hroom : exchanges.RoomIn b) {tx : Transaction} (htx : tx ∈ txs)
    {r : Resolution} (hr : r.Of exchanges minTransfer b₀ funded tx) (hbefore : before.RowsKeptIn b)
    {outcome : Outcome} (h : book r b = .ok (outcome, b')) {more : List Swap}
    (hafter : Grown b' after more) :
    b.OnlyAt (Touched exchanges minTransfer txs before after) b' := by
  rcases book_cases h with
    ⟨exchange, recipient, value, rfl, rfl, hbook⟩ | ⟨swap, rfl, hnew, rfl, hbook⟩
    | ⟨_, rfl, -, rfl, rfl⟩ | ⟨_, rfl, rfl, rfl⟩ | ⟨_, rfl, rfl, rfl⟩
  · rw [bookTransfer_eq] at hbook
    exact .revise hbook Table.keyed_accounts rfl (fun _ => rfl) (.recipient htx hr.judge_eq)
  · obtain ⟨hswap, -⟩ := hr.swap rfl
    -- the swap is new in the end: it has been absent before, and it stays
    have hrecord : NewSwap before after swap.record := by
      constructor
      case absent =>
        cases hhas : before.has .swaps swap.txHash with
        | false => exact hhas
        | true => exact absurd (hbefore.has hhas) (by rw [hnew]; decide)
      case found =>
        have hfound := (grown_bookSwap hroom hx hswap.sound hnew hbook).1.found
        exact hafter.find?_swaps (hfound swap.record List.mem_cons_self)
    obtain ⟨account, _, _, haccount, -⟩ := bookSwap_eq_ok hbook
    -- and what the account names now, it names in the end
    obtain ⟨account', haccount', hgrows⟩ := hafter.accounts swap.wallet _
      (find?_account_bookSwap hroom hx haccount hbook)
    exact onlyAt_bookSwap hswap.sound haccount (.swap hrecord htx hswap.txHash.symm)
      (.wallet hrecord) (fun token hmem => .token hrecord hmem)
      (fun name hmem => .pattern hrecord haccount' (hgrows.names name hmem)) hbook
  · exact .refl _ b'
  · exact .refl _ b'
  · exact .refl _ b'

/-- **So is what is written one booking after the other.** -/
theorem onlyAt_bookAll {todo : List Transaction} {rs : List Resolution}
    (hrs : ResolutionsOf exchanges minTransfer b₀ funded todo rs) (htodo : ∀ tx ∈ todo, tx ∈ txs)
    (hroom : exchanges.RoomIn b) (hbefore : before.RowsKeptIn b) {outcomes : List Outcome}
    (h : bookAll rs b = .ok (outcomes, b')) {more : List Swap} (hafter : Grown b' after more) :
    b.OnlyAt (Touched exchanges minTransfer txs before after) b' := by
  induction hrs generalizing b outcomes with
  | nil =>
    obtain ⟨rfl, rfl⟩ := Prod.mk.inj (Except.ok.inj h)
    exact .refl _ b
  | @cons funded tx todo r rs hr hrs ih =>
    obtain ⟨outcome, rest, b₁, h₁, h₂, rfl⟩ := bookAll_cons_eq_ok h
    obtain ⟨hgrown, hroom₁⟩ := grown_book hroom hx hr.sound h₁
    obtain ⟨hmore, -⟩ := grown_bookAll hx hrs.sound hroom₁ h₂
    have hfirst := onlyAt_book hx hroom (htodo tx List.mem_cons_self) hr hbefore h₁
      (hmore.trans hafter)
    exact hfirst.trans (ih (fun tx htx => htodo tx (List.mem_cons_of_mem _ htx)) hroom₁
      (hbefore.trans hgrown.kept) h₂)

end

/-- **A block that is booked changes no row but those it touches.**  The exchanges are as
they were; a swap that has got a row is new, and is one of a transaction of the block;
and every row that is not touched is the same to the byte. -/
theorem untouched_process {σ : Type} {m : Market σ} (hm : m.Short) (e : Engine σ)
    (hx : e.exchanges.Short) (hroom : e.exchanges.RoomIn e.store.handle.books) (now : Int64)
    (batch : Batch) {summary : Summary} (hok : (e.process m now batch).1.result = .ok summary) :
    let before := e.store.handle.books
    let after := (e.process m now batch).2.store.handle.books
    after.exchange = before.exchange
      ∧ (∀ key, before.swap.get? key = none → after.swap.get? key ≠ none →
          ∃ s, NewSwap before after s ∧ key = s.txHash.toList
            ∧ s.txHash ∈ batch.transactions.map Transaction.hash)
      ∧ ∀ bucket key, (after.rows bucket).get? key ≠ (before.rows bucket).get? key →
          Touched e.exchanges e.settings.minTransfer batch.transactions before after
            bucket key := by
  intro before after
  obtain ⟨outcomes, rs, desk, booked, hc⟩ := Engine.committed_of_ok hok
  have hafter : after = booked.put .cursor ⟨batch.number, batch.hash, now⟩ := hc.books_eq
  have hbooked : before.OnlyAt
      (Touched e.exchanges e.settings.minTransfer batch.transactions before after) booked := by
    have hgrown : Grown booked after [] := by
      rw [hafter]
      exact .put_cursor booked _
    exact onlyAt_bookAll hx (hc.resolutions hm) (fun _ htx => htx) hroom (.refl before)
      hc.booking hgrown
  have hall : before.OnlyAt
      (Touched e.exchanges e.settings.minTransfer batch.transactions before after) after := by
    have hcursor : booked.OnlyAt
        (Touched e.exchanges e.settings.minTransfer batch.transactions before after)
        (booked.put .cursor ⟨batch.number, batch.hash, now⟩) := .put .cursor booked
    rw [← hafter] at hcursor
    exact hbooked.trans hcursor
  have htouched : ∀ bucket key, (after.rows bucket).get? key ≠ (before.rows bucket).get? key →
      Touched e.exchanges e.settings.minTransfer batch.transactions before after bucket key :=
    fun bucket key hne => by
      by_contra hnot
      exact hne (hall bucket key hnot)
  refine ⟨?_, fun key hnone hsome => ?_, htouched⟩
  · -- no row of an exchange is touched
    apply Rows.ext_get?
    intro key
    by_contra hne
    exact nomatch htouched .exchange key hne
  · have hne : (after.rows .swap).get? key ≠ (before.rows .swap).get? key := by
      show after.swap.get? key ≠ before.swap.get? key
      rwa [hnone]
    obtain - | ⟨hnew, htx, hhash⟩ := htouched .swap key hne
    exact ⟨_, hnew, rfl, List.mem_map.mpr ⟨_, htx, hhash⟩⟩

/-- The engine with a row among the patterns that nobody can read. -/
def Engine.scribble {σ : Type} (e : Engine σ) : Engine σ :=
  { e with store := { e.store with handle := { e.store.handle with
      books := e.store.handle.books.putRaw .pattern [1] [2] } } }

theorem roomIn_scribble {σ : Type} {e : Engine σ} (hx : e.exchanges.Short)
    (h : e.exchanges.RoomIn e.store.handle.books) :
    e.scribble.exchanges.Short ∧ e.scribble.exchanges.RoomIn e.scribble.store.handle.books :=
  ⟨hx, h.congr_rows rfl⟩

/-- It stays as it is when the wallet swaps again. -/
theorem untouched_process_scribble :
    let after := (swappedOnce.scribble.process evenMarket 12 replayed).2.store.handle.books
    (swappedOnce.scribble.process evenMarket 12 replayed).1.result
        = .ok ⟨.clamp 2, 2, 0, 1, 1, 0⟩
      ∧ after.pattern.get? [1] = some [2]
      ∧ after.exchange = swappedOnce.scribble.store.handle.books.exchange := by
  intro after
  have hok : (swappedOnce.scribble.process evenMarket 12 replayed).1.result
      = .ok ⟨.clamp 2, 2, 0, 1, 1, 0⟩ := by decide +kernel
  have hbefore : swappedOnce.scribble.store.handle.books.pattern.get? [1] = some [2] := by
    decide +kernel
  obtain ⟨hx, hroom⟩ := roomIn_scribble roomIn_swappedOnce.1 roomIn_swappedOnce.2
  obtain ⟨hexchange, -, htouched⟩ :=
    untouched_process short_evenMarket swappedOnce.scribble hx hroom 12 replayed hok
  refine ⟨hok, ?_, hexchange⟩
  by_contra hne
  -- the key of a pattern has twenty bytes at least
  generalize hkey : ([1] : Bytes) = key at hne hbefore
  cases htouched .pattern key fun heq => hne (heq.trans hbefore) with
  | @pattern s account exchange =>
    have hlength := congrArg List.length hkey
    rw [encodePatternKey, List.length_append, s.token.length_toList] at hlength
    simp only [List.length_cons, List.length_nil] at hlength
    omega

end FundTrail
