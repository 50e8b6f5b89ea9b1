/-
  FundTrail.Proofs.Engine.Growth
  ──────────────────────────────
  **RECORDS ONLY GROW.**

  Booking a block takes nothing out of the books.  What has been noted of a swap
  stays as it is, to the byte; totals and counters go up, sets of names get more
  names, and a token keeps its name and its decimals.  The one thing that is ever
  settled later is a price: it is that of the first swap into the token that had
  one, and then it stays.

  All of it is said by one relation of books (`Grown`), which goes along with the
  swaps that have been recorded from the one to the other, and is composed over
  the bookings of a block.

  Main fact: `books_grow`.
-/
import FundTrail.Proofs.Engine.Attribution
import FundTrail.Proofs.Engine.Tally

namespace FundTrail

open FundTrail.Store

/-! ## §1. Rows and records of growing books. -/

namespace Store.Books

variable {κ ρ : Type} {t : Table κ ρ} {b b' c : Books}

/-- Where `b` has a row, `b'` has one, readable or not. -/
def RowsKeptIn (b b' : Books) : Prop :=
  ∀ bucket key, ((b.rows bucket).get? key).isSome = true → ((b'.rows bucket).get? key).isSome = true

namespace RowsKeptIn

theorem refl (b : Books) : b.RowsKeptIn b := fun _ _ h => h

theorem trans (h : b.RowsKeptIn b') (g : b'.RowsKeptIn c) : b.RowsKeptIn c :=
  fun bucket key hkey => g bucket key (h bucket key hkey)

theorem put (b : Books) (t : Table κ ρ) (r : ρ) : b.RowsKeptIn (b.put t r) := by
  intro bucket key hkey
  by_cases hb : bucket = t.bucket
  · subst hb
    rw [rows_put_self, Rows.get?_insert]
    split
    next => rfl
    next => exact hkey
  · rw [rows_put hb]
    exact hkey

theorem revise {key : κ} {fallback : ρ} {change : ρ → ρ}
    (h : b.revise t key fallback change = .ok b') : b.RowsKeptIn b' := by
  obtain ⟨r, -, rfl⟩ := revise_eq_ok h
  exact put b t (change r)

theorem has (h : b.RowsKeptIn b') {key : κ} (hkey : b.has t key = true) : b'.has t key = true :=
  h t.bucket (t.encodeKey key) hkey

end RowsKeptIn

/-- A record that is found in `b` is found in `b'`, changed as `R` has it. -/
def Rises (t : Table κ ρ) (R : ρ → ρ → Prop) (b b' : Books) : Prop :=
  ∀ key r, b.find? t key = .ok (some r) → ∃ r', b'.find? t key = .ok (some r') ∧ R r r'

namespace Rises

variable {R : ρ → ρ → Prop}

theorem congr_rows (hR : ∀ r, R r r) (h : b'.rows t.bucket = b.rows t.bucket) :
    Rises t R b b' := by
  intro key r hr
  rw [find?_congr_rows h]
  exact ⟨r, hr, hR r⟩

theorem trans (hR : ∀ {r s u}, R r s → R s u → R r u) (h : Rises t R b b')
    (g : Rises t R b' c) : Rises t R b c := by
  intro key r hr
  obtain ⟨s, hs, hrs⟩ := h key r hr
  obtain ⟨u, hu, hsu⟩ := g key s hs
  exact ⟨u, hu, hR hrs hsu⟩

/-- A revision changes the record under its key, and no other. -/
theorem revise {key : κ} {fallback : ρ} {change : ρ → ρ} (hR : ∀ r, R r r)
    (h : b.revise t key fallback change = .ok b') (ht : t.Keyed)
    (hfallback : t.keyOf fallback = key) (hchange : ∀ r, t.keyOf (change r) = t.keyOf r)
    (hkeeps : ∀ r, b.findOr t key fallback = .ok r → t.Keeps (change r))
    (hrises : ∀ r, R r (change r)) : Rises t R b b' := by
  obtain ⟨r, hr, rfl⟩ := revise_eq_ok h
  have hkey := keyOf_change hr ht hfallback hchange
  intro other s hs
  by_cases hother : other = key
  · subst hother
    obtain rfl : s = r := by
      rcases findOr_eq_ok hr with ⟨hnone, -⟩ | hsome
      · rw [hnone] at hs
        exact nomatch hs
      · exact find?_unique hs hsome
    have hput := find?_put_self (hkeeps s hr) b
    rw [hkey] at hput
    exact ⟨change s, hput, hrises s⟩
  · rw [find?_put_of_ne ht (by rw [hkey]; exact hother)]
    exact ⟨s, hs, hR s⟩

end Rises

end Store.Books

/-! ## §2. What grows in a record. -/

/-- The totals of the account go up, and it gets more names. -/
structure Account.GrowsTo (a a' : Account) : Prop where
  received : a.totalReceived ≤ a'.totalReceived
  spent : a.totalSpent ≤ a'.totalSpent
  names : ∀ name ∈ a.fromExchanges, name ∈ a'.fromExchanges

/-- The counters of the token go up, and it is called what it has been called. -/
structure Token.GrowsTo (r r' : Token) : Prop where
  symbol : r'.symbol = r.symbol
  decimals : r'.decimals = r.decimals
  bought : r.totalBought ≤ r'.totalBought
  times : r.timesBought ≤ r'.timesBought

/-- The counters of the pattern go up. -/
structure Pattern.GrowsTo (p p' : Pattern) : Prop where
  value : p.value ≤ p'.value
  times : p.timesOccurred ≤ p'.timesOccurred

theorem Account.GrowsTo.refl (a : Account) : a.GrowsTo a :=
  ⟨Nat.le_refl _, Nat.le_refl _, fun _ h => h⟩

theorem Account.GrowsTo.trans {a b c : Account} (h : a.GrowsTo b) (g : b.GrowsTo c) :
    a.GrowsTo c :=
  ⟨Nat.le_trans h.received g.received, Nat.le_trans h.spent g.spent,
    fun name hname => g.names name (h.names name hname)⟩

theorem Token.GrowsTo.refl (r : Token) : r.GrowsTo r :=
  ⟨rfl, rfl, Nat.le_refl _, Nat.le_refl _⟩

theorem Token.GrowsTo.trans {r s u : Token} (h : r.GrowsTo s) (g : s.GrowsTo u) : r.GrowsTo u :=
  ⟨g.symbol.trans h.symbol, g.decimals.trans h.decimals, Nat.le_trans h.bought g.bought,
    Nat.le_trans h.times g.times⟩

theorem Pattern.GrowsTo.refl (p : Pattern) : p.GrowsTo p := ⟨Nat.le_refl _, Nat.le_refl _⟩

theorem Pattern.GrowsTo.trans {p q r : Pattern} (h : p.GrowsTo q) (g : q.GrowsTo r) :
    p.GrowsTo r :=
  ⟨Nat.le_trans h.value g.value, Nat.le_trans h.times g.times⟩

theorem Word.le_next {bits : Nat} (a : Word bits) : a ≤ a.next := by
  show a.toNat ≤ min (a.toNat + 1) (2 ^ bits - 1)
  have := a.toNat_le_top
  omega

theorem Account.growsTo_recordTransfer (a : Account) (exchange : String) (value : Amount) :
    a.GrowsTo (a.recordTransfer exchange value) :=
  ⟨Word.le_satAdd _ _, Nat.le_refl _, fun _ h => NameSet.mem_insert.mpr (.inr h)⟩

theorem Account.growsTo_recordSpend (a : Account) (value : Amount) :
    a.GrowsTo (a.recordSpend value) :=
  ⟨Nat.le_refl _, Word.le_satAdd _ _, fun _ h => h⟩

theorem PricedSwap.growsTo_noted (swap : PricedSwap) (token : Address) (row : Token) :
    row.GrowsTo (swap.noted token row) := by
  unfold noted
  split
  next => exact ⟨rfl, rfl, Word.le_satAdd _ _, Word.le_next _⟩
  next => exact .refl row

theorem Pattern.growsTo_record (p : Pattern) (value : Amount) : p.GrowsTo (p.record value) :=
  ⟨Word.le_satAdd _ _, Word.le_next _⟩

/-! ## §3. Prices. -/

/-- The first of some prices that is one. -/
def firstPrice : List Amount → Amount
  | [] => 0
  | price :: prices => if price = 0 then firstPrice prices else price

theorem firstPrice_cons (price : Amount) (prices : List Amount) :
    firstPrice (price :: prices) = if price = 0 then firstPrice prices else price := rfl

/-- What has been the first price so far stands for all prices so far. -/
theorem firstPrice_append (prices more : List Amount) :
    firstPrice (prices ++ more) = firstPrice (firstPrice prices :: more) := by
  induction prices with
  | nil => rfl
  | cons price prices ih =>
    rw [List.cons_append, firstPrice_cons, firstPrice_cons price prices]
    by_cases hprice : price = 0
    · rw [if_pos hprice, if_pos hprice, ih]
    · rw [if_neg hprice, if_neg hprice, firstPrice_cons, if_neg hprice]

theorem firstPrice_pair (price next : Amount) :
    firstPrice [price, next] = if price = 0 then next else price := by
  rw [firstPrice_cons, firstPrice_cons]
  by_cases hnext : next = 0
  · rw [if_pos hnext, hnext]
    rfl
  · rw [if_neg hnext]

/-- The price in the row of a token; zero where there is none. -/
def priceOf (b : Books) (token : Address) : Amount :=
  match b.find? .tokens token with
  | .ok (some row) => row.price
  | _ => 0

section

variable {b b' : Books}

theorem priceOf_of_find? {token : Address} {row : Token}
    (h : b.find? .tokens token = .ok (some row)) : priceOf b token = row.price := by
  unfold priceOf
  rw [h]

theorem priceOf_congr {token : Address} (h : b'.find? .tokens token = b.find? .tokens token) :
    priceOf b' token = priceOf b token := by
  unfold priceOf
  rw [h]

/-- The price in a row after a place of its token on the path. -/
theorem PricedSwap.price_noted (swap : PricedSwap) (token : Address) (row : Token) :
    (swap.noted token row).price
      = if token = swap.call.tokenOut then firstPrice [row.price, swap.price] else row.price := by
  unfold noted
  split
  next =>
    rw [firstPrice_pair]
    show (if row.setsPrice swap.price then swap.price else row.price) = _
    unfold Token.setsPrice
    by_cases hrow : row.price = 0
    · by_cases hprice : swap.price = 0
      · rw [if_neg (by simp [hprice]), if_pos hrow, hrow, hprice]
      · rw [if_pos (by simp [hrow, hprice]), if_pos hrow]
    · rw [if_neg (by simp [hrow]), if_neg hrow]
  next => rfl

theorem keeps_noted (swap : PricedSwap) {token : Address} {known : Metadata}
    (hknown : IsShort known.symbol) {row : Token}
    (h : b.findOr .tokens token (.new token known.symbol known.decimals) = .ok row) :
    Table.tokens.Keeps (swap.noted token row) := by
  refine Table.keeps_token ?_
  rw [swap.symbol_noted]
  rcases Books.findOr_eq_ok h with ⟨-, rfl⟩ | hfind
  · exact hknown
  · exact Books.isShort_of_find?_tokens hfind

variable {swap : PricedSwap}

theorem priceOf_bookToken {token : Address} {known : Metadata} (hknown : IsShort known.symbol)
    (h : bookToken swap token known b = .ok b') (other : Address) :
    priceOf b' other
      = if other = token ∧ other = swap.call.tokenOut
        then firstPrice [priceOf b other, swap.price] else priceOf b other := by
  rw [bookToken_eq] at h
  obtain ⟨row, hrow, rfl⟩ := Books.revise_eq_ok h
  have hkey := Books.keyOf_change hrow Table.keyed_tokens rfl (swap.address_noted token)
  by_cases hother : other = token
  · subst hother
    -- before, the price has been the one in the row, or there has been none
    have hbefore : priceOf b other = row.price := by
      rcases Books.findOr_eq_ok hrow with ⟨hnone, rfl⟩ | hfind
      · unfold priceOf
        rw [hnone]
        rfl
      · exact priceOf_of_find? hfind
    have hput := Books.find?_put_self (keeps_noted swap hknown hrow) b
    rw [hkey] at hput
    rw [priceOf_of_find? hput, swap.price_noted, hbefore]
    by_cases hout : other = swap.call.tokenOut
    · rw [if_pos hout, if_pos ⟨rfl, hout⟩]
    · rw [if_neg hout, if_neg fun h => hout h.2]
  · rw [if_neg fun h => hother h.1]
    exact priceOf_congr (Books.find?_put_of_ne Table.keyed_tokens (by rw [hkey]; exact hother) b)

/-- Along the path the price of the last token is settled, if it has not been. -/
theorem priceOf_bookTokens {tokens : List (Address × Metadata)}
    (hknown : ∀ p ∈ tokens, IsShort p.2.symbol) (h : bookTokens swap tokens b = .ok b')
    (other : Address) :
    priceOf b' other
      = if other ∈ tokens.map Prod.fst ∧ other = swap.call.tokenOut
        then firstPrice [priceOf b other, swap.price] else priceOf b other := by
  induction tokens generalizing b with
  | nil =>
    obtain rfl : b = b' := Except.ok.inj h
    rw [if_neg fun h => List.not_mem_nil h.1]
  | cons t tokens ih =>
    rw [bookTokens_cons] at h
    obtain ⟨b₁, h₁, h⟩ := exists_ok_of_bind h
    have hfirst := priceOf_bookToken (hknown t List.mem_cons_self) h₁ other
    rw [ih (fun p hp => hknown p (List.mem_cons_of_mem _ hp)) h, List.map_cons]
    -- what has been settled at one place is settled at the next
    have hagain : firstPrice [firstPrice [priceOf b other, swap.price], swap.price]
        = firstPrice [priceOf b other, swap.price] := by
      rw [firstPrice_pair, firstPrice_pair]
      by_cases hprice : priceOf b other = 0
      · rw [if_pos hprice]
        exact ite_self _
      · rw [if_neg hprice, if_neg hprice]
    by_cases hout : other = swap.call.tokenOut
    · by_cases htoken : other = t.1
      · rw [if_pos ⟨htoken, hout⟩] at hfirst
        have hmem : other ∈ t.1 :: tokens.map Prod.fst := List.mem_cons.mpr (.inl htoken)
        rw [hfirst, hagain]
        exact (ite_self _).trans (if_pos ⟨hmem, hout⟩).symm
      · rw [if_neg fun h => htoken h.1] at hfirst
        rw [hfirst]
        simp only [List.mem_cons, htoken, false_or]
    · rw [if_neg fun h => hout h.2] at hfirst
      rw [if_neg fun h => hout h.2, if_neg fun h => hout h.2, hfirst]

end

/-! ## §4. Room for names. -/

/-- There is room for the names of all exchanges in every account: with those that it
has they are no more than a count can tell. -/
def ExchangeSet.RoomIn (exchanges : ExchangeSet) (b : Books) : Prop :=
  ∀ wallet, ∃ names : List String, names.length < 2 ^ 64
    ∧ (∀ owned name, exchanges.nameOf? owned = some name → name ∈ names)
    ∧ ∀ account, b.find? .accounts wallet = .ok (some account) →
        ∀ name ∈ account.fromExchanges, name ∈ names

namespace ExchangeSet.RoomIn

variable {exchanges : ExchangeSet} {b b' : Books}

theorem congr_rows (h : exchanges.RoomIn b) (hrows : b'.rows .account = b.rows .account) :
    exchanges.RoomIn b' := by
  intro wallet
  rw [Books.find?_congr_rows (t := .accounts) hrows]
  exact h wallet

/-- Without accounts there is room for whatever can be written down. -/
theorem of_empty (hx : exchanges.Storable) (haccounts : b.account = .empty) :
    exchanges.RoomIn b := by
  intro wallet
  refine ⟨exchanges.names.map Prod.snd, ?_, fun owned name hname => ?_, fun account hfind => ?_⟩
  · rw [List.length_map]
    exact hx.few
  · exact List.mem_map.mpr ⟨(owned, name), mem_of_lookup hname, rfl⟩
  · have hnone : b.find? .accounts wallet = .ok none := by
      unfold Books.find? Books.raw?
      rw [show b.rows Table.accounts.bucket = .empty from haccounts]
      rfl
    rw [hnone] at hfind
    exact nomatch hfind

/-- An account that gets no names but those of exchanges can be read again. -/
theorem keeps (hroom : exchanges.RoomIn b) (hx : exchanges.Short) {wallet : Address}
    {account after : Account} (h : b.findOr .accounts wallet (.new wallet) = .ok account)
    (hnames : ∀ name ∈ after.fromExchanges,
      name ∈ account.fromExchanges ∨ ∃ owned, exchanges.nameOf? owned = some name) :
    Table.accounts.Keeps after := by
  obtain ⟨names, hfew, hexchanges, hthere⟩ := hroom wallet
  have hbefore : ∀ name ∈ account.fromExchanges, IsShort name ∧ name ∈ names := by
    intro name hname
    rcases Books.findOr_eq_ok h with ⟨-, rfl⟩ | hfind
    · exact absurd hname (NameSet.not_mem_empty name)
    · exact ⟨Books.isShort_of_find?_accounts hfind name hname, hthere account hfind name hname⟩
  have hafter : ∀ name ∈ after.fromExchanges, IsShort name ∧ name ∈ names := by
    intro name hname
    rcases hnames name hname with hold | ⟨owned, howned⟩
    · exact hbefore name hold
    · exact ⟨hx owned name howned, hexchanges owned name howned⟩
  refine Table.keeps_account (fun name hname => (hafter name hname).1)
    (Nat.lt_of_le_of_lt ?_ hfew)
  exact (List.subperm_of_subset after.fromExchanges.nodup
    fun name hname => (hafter name hname).2).length_le

section

variable (hroom : exchanges.RoomIn b) (hx : exchanges.Short) {wallet : Address}
  {change : Account → Account}
  (h : b.revise .accounts wallet (.new wallet) change = .ok b')
  (hkey : ∀ a, (change a).address = a.address)
  (hnames : ∀ a, ∀ name ∈ (change a).fromExchanges,
    name ∈ a.fromExchanges ∨ ∃ owned, exchanges.nameOf? owned = some name)

include hroom hx h hkey hnames

/-- When an account has got names of exchanges there is room again. -/
theorem revise : exchanges.RoomIn b' := by
  obtain ⟨account, haccount, rfl⟩ := Books.revise_eq_ok h
  have hput := Books.find?_put_self (keeps hroom hx haccount (hnames account)) b
  have haddress := Books.keyOf_change haccount Table.keyed_accounts rfl hkey
  intro other
  obtain ⟨names, hfew, hexchanges, hthere⟩ := hroom other
  refine ⟨names, hfew, hexchanges, fun found hfind name hname => ?_⟩
  by_cases hother : other = wallet
  · subst hother
    rw [haddress] at hput
    obtain rfl : change account = found := Books.find?_unique hput hfind
    rcases hnames account name hname with hold | ⟨owned, howned⟩
    · rcases Books.findOr_eq_ok haccount with ⟨-, rfl⟩ | hfound
      · exact absurd hold (NameSet.not_mem_empty name)
      · exact hthere account hfound name hold
    · exact hexchanges owned name howned
  · rw [Books.find?_put_of_ne Table.keyed_accounts (by rw [haddress]; exact hother)] at hfind
    exact hthere found hfind name hname

/-- And the accounts have grown. -/
theorem rises (hgrows : ∀ a : Account, a.GrowsTo (change a)) :
    Books.Rises .accounts Account.GrowsTo b b' :=
  .revise .refl h Table.keyed_accounts rfl hkey
    (fun account haccount => keeps hroom hx haccount (hnames account)) hgrows

end

end ExchangeSet.RoomIn

/-! ## §5. Growing books. -/

/-- The books have grown from `b` to `b'`, while these swaps have been recorded. -/
structure Grown (b b' : Books) (recorded : List Swap) : Prop where
  /-- No row is lost. -/
  kept : b.RowsKeptIn b'
  /-- What stands among the swaps stays as it is. -/
  swaps : ∀ key value, b.swap.get? key = some value → b'.swap.get? key = some value
  fresh : ∀ s ∈ recorded, b.has .swaps s.txHash = false
  found : ∀ s ∈ recorded, b'.find? .swaps s.txHash = .ok (some s)
  has : ∀ hash, b'.has .swaps hash = true
    ↔ hash ∈ recorded.map Swap.txHash ∨ b.has .swaps hash = true
  accounts : Books.Rises .accounts Account.GrowsTo b b'
  patterns : Books.Rises .patterns Pattern.GrowsTo b b'
  tokens : Books.Rises .tokens Token.GrowsTo b b'
  /-- A price stays, or is the first that a recorded swap into the token has had. -/
  price : ∀ token, priceOf b' token
    = firstPrice (priceOf b token :: (purchases recorded token).map Swap.price)

namespace Grown

variable {b b' c : Books} {recorded more : List Swap}

/-- Nothing but accounts has changed, or what is not looked at. -/
theorem of_rows (hkept : b.RowsKeptIn b') (haccounts : Books.Rises .accounts Account.GrowsTo b b')
    (htokens : b'.rows .token = b.rows .token) (hpatterns : b'.rows .pattern = b.rows .pattern)
    (hswaps : b'.rows .swap = b.rows .swap) : Grown b b' [] where
  kept := hkept
  swaps key value h := (congrArg (Rows.get? · key) hswaps).trans h
  fresh := nofun
  found := nofun
  has hash := by
    rw [Books.has_congr_rows (t := .swaps) hswaps]
    exact (or_iff_right List.not_mem_nil).symm
  accounts := haccounts
  patterns := .congr_rows .refl hpatterns
  tokens := .congr_rows .refl htokens
  price token := by
    rw [priceOf_congr (Books.find?_congr_rows (t := .tokens) htokens token)]
    show _ = firstPrice [_]
    rw [firstPrice_cons]
    by_cases hprice : priceOf b token = 0
    · rw [if_pos hprice, hprice]
      rfl
    · rw [if_neg hprice]

theorem refl (b : Books) : Grown b b [] :=
  .of_rows (.refl b) (.congr_rows .refl rfl) rfl rfl rfl

theorem put_cursor (b : Books) (cursor : Cursor) : Grown b (b.put .cursor cursor) [] :=
  .of_rows (.put b _ _) (.congr_rows .refl (Books.rows_put (by decide) b cursor))
    (Books.rows_put (by decide) b cursor) (Books.rows_put (by decide) b cursor)
    (Books.rows_put (by decide) b cursor)

/-- A swap that has been found once is found for good. -/
theorem find?_swaps (h : Grown b b' recorded) {hash : Hash} {s : Swap}
    (hs : b.find? .swaps hash = .ok (some s)) : b'.find? .swaps hash = .ok (some s) := by
  obtain ⟨value, hvalue, -⟩ := Books.exists_value_of_find? hs
  have hlater : b'.raw? .swaps hash = some value := h.swaps _ value hvalue
  rw [Books.find?_congr (hlater.trans hvalue.symm)]
  exact hs

/-- **Books that have grown grow on.** -/
theorem trans (h : Grown b b' recorded) (g : Grown b' c more) : Grown b c (recorded ++ more) where
  kept := h.kept.trans g.kept
  swaps key value hvalue := g.swaps key value (h.swaps key value hvalue)
  fresh s hs := by
    rcases List.mem_append.mp hs with hs | hs
    · exact h.fresh s hs
    · -- a hash that is fresh later has been fresh before
      cases hhas : b.has .swaps s.txHash with
      | false => rfl
      | true =>
        rw [← g.fresh s hs]
        exact (h.kept.has hhas).symm
  found s hs := by
    rcases List.mem_append.mp hs with hs | hs
    · exact g.find?_swaps (h.found s hs)
    · exact g.found s hs
  has hash := by
    rw [g.has, h.has, List.map_append, List.mem_append]
    tauto
  accounts := h.accounts.trans Account.GrowsTo.trans g.accounts
  patterns := h.patterns.trans Pattern.GrowsTo.trans g.patterns
  tokens := h.tokens.trans Token.GrowsTo.trans g.tokens
  price token := by
    rw [g.price, h.price, ← firstPrice_append, List.cons_append, ← List.map_append]
    unfold purchases
    rw [List.filter_append]

end Grown

/-! ## §6. Bookings. -/

section

variable {b b' : Books}

theorem rises_bookTokens {swap : PricedSwap} {tokens : List (Address × Metadata)}
    (hknown : ∀ p ∈ tokens, IsShort p.2.symbol) (h : bookTokens swap tokens b = .ok b') :
    b.RowsKeptIn b' ∧ Books.Rises .tokens Token.GrowsTo b b' := by
  refine bookTokens_induction h
    (P := fun c => b.RowsKeptIn c ∧ Books.Rises .tokens Token.GrowsTo b c)
    ⟨.refl b, .congr_rows .refl rfl⟩ ?_
  rintro t ht c c' ⟨hkept, hrises⟩ hrevise
  have hone : Books.Rises .tokens Token.GrowsTo c c' :=
    .revise .refl hrevise Table.keyed_tokens rfl (swap.address_noted t.1)
      (fun _ => keeps_noted swap (hknown t ht)) (swap.growsTo_noted t.1)
  exact ⟨hkept.trans (.revise hrevise), hrises.trans Token.GrowsTo.trans hone⟩

theorem rises_bookPatterns {token : Address} {value : Amount} {names : List String}
    (h : bookPatterns token value names b = .ok b') :
    b.RowsKeptIn b' ∧ Books.Rises .patterns Pattern.GrowsTo b b' := by
  refine bookPatterns_induction h
    (P := fun c => b.RowsKeptIn c ∧ Books.Rises .patterns Pattern.GrowsTo b c)
    ⟨.refl b, .congr_rows .refl rfl⟩ ?_
  rintro name _ c c' ⟨hkept, hrises⟩ hrevise
  have hone : Books.Rises .patterns Pattern.GrowsTo c c' :=
    .revise .refl hrevise Table.keyed_patterns rfl (fun _ => rfl)
      (fun _ _ => Table.keeps_pattern _) fun p => p.growsTo_record value
  exact ⟨hkept.trans (.revise hrevise), hrises.trans Pattern.GrowsTo.trans hone⟩

/-- A swap takes nothing away. -/
theorem kept_bookSwap {swap : PricedSwap} (hs : swap.Sound) (h : bookSwap swap b = .ok b') :
    b.RowsKeptIn b' := by
  obtain ⟨account, b₁, b₂, -, h₁, h₂, rfl⟩ := bookSwap_eq_ok h
  have hkept := (rises_bookTokens hs.short_symbols h₁).1.trans (rises_bookPatterns h₂).1
  exact hkept.trans ((Books.RowsKeptIn.put _ _ _).trans (.put _ _ _))

theorem rises_token_bookSwap {swap : PricedSwap} (hs : swap.Sound)
    (h : bookSwap swap b = .ok b') : Books.Rises .tokens Token.GrowsTo b b' := by
  obtain ⟨c, hnoted, hrows⟩ := rows_token_bookSwap h
  have htokens := (rises_bookTokens hs.short_symbols hnoted).2
  exact htokens.trans Token.GrowsTo.trans (.congr_rows .refl hrows)

theorem rises_pattern_bookSwap {swap : PricedSwap} (h : bookSwap swap b = .ok b') :
    Books.Rises .patterns Pattern.GrowsTo b b' := by
  obtain ⟨_, before, after, -, hbefore, hcounted, hafter⟩ := rows_pattern_bookSwap h
  have hpatterns := (rises_bookPatterns hcounted).2
  exact Books.Rises.trans Pattern.GrowsTo.trans (.congr_rows .refl hbefore)
    (hpatterns.trans Pattern.GrowsTo.trans (.congr_rows .refl hafter))

/-- The swap settles the price of the token that comes out, unless there is one. -/
theorem priceOf_bookSwap {swap : PricedSwap} (hs : swap.Sound) (h : bookSwap swap b = .ok b')
    (token : Address) :
    priceOf b' token
      = firstPrice (priceOf b token :: (purchases [swap.record] token).map Swap.price) := by
  obtain ⟨c, hnoted, hrows⟩ := rows_token_bookSwap h
  rw [priceOf_congr (Books.find?_congr_rows (t := .tokens) hrows token),
    priceOf_bookTokens hs.short_symbols hnoted, hs.along, purchases_cons]
  show _ = firstPrice (_ :: List.map _ (if swap.call.tokenOut = token then _ else []))
  by_cases hout : token = swap.call.tokenOut
  · -- the last token is on the path
    subst hout
    rw [if_pos ⟨List.mem_of_getLast? hs.last, rfl⟩, if_pos rfl]
    rfl
  · rw [if_neg fun h => hout h.2, if_neg (Ne.symm hout)]
    exact (Grown.refl b).price token

/-- A swap that is put beside the others leaves them as they are. -/
theorem get?_swap_bookSwap {swap : PricedSwap} (hnew : b.has .swaps swap.txHash = false)
    (h : bookSwap swap b = .ok b') {key value : Bytes} (hvalue : b.swap.get? key = some value) :
    b'.swap.get? key = some value := by
  have hkey : swap.txHash.toList ≠ key := by
    rintro rfl
    have hthere : b.has .swaps swap.txHash = true := Option.isSome_iff_exists.mpr ⟨value, hvalue⟩
    rw [hnew] at hthere
    exact nomatch hthere
  have hput : b'.rows .swap = (b.rows .swap).insert swap.txHash.toList (writeSwap swap.record) :=
    (rows_swap_bookSwap h).trans (Books.rows_put_self .swaps b swap.record)
  show (b'.rows .swap).get? key = _
  rw [hput, Rows.get?_insert, if_neg hkey]
  exact hvalue

variable {exchanges : ExchangeSet} (hroom : exchanges.RoomIn b) (hx : exchanges.Short)

include hroom hx

theorem grown_bookTransfer {exchange : String} {recipient : Address} {value : Amount}
    (hname : ∃ owned, exchanges.nameOf? owned = some exchange)
    (h : bookTransfer exchange recipient value b = .ok b') :
    Grown b b' [] ∧ exchanges.RoomIn b' := by
  rw [bookTransfer_eq] at h
  have hnames : ∀ a : Account, ∀ name ∈ (a.recordTransfer exchange value).fromExchanges,
      name ∈ a.fromExchanges ∨ ∃ owned, exchanges.nameOf? owned = some name := by
    intro a name hmem
    rcases NameSet.mem_insert.mp hmem with rfl | hold
    · exact .inr hname
    · exact .inl hold
  refine ⟨.of_rows (.revise h) ?_ (Books.rows_revise h (by decide))
    (Books.rows_revise h (by decide)) (Books.rows_revise h (by decide)), ?_⟩
  · exact hroom.rises hx h (fun _ => rfl) hnames fun a => a.growsTo_recordTransfer exchange value
  · exact hroom.revise hx h (fun _ => rfl) hnames

theorem grown_bookSwap {swap : PricedSwap} (hs : swap.Sound)
    (hnew : b.has .swaps swap.txHash = false) (h : bookSwap swap b = .ok b') :
    Grown b b' [swap.record] ∧ exchanges.RoomIn b' := by
  obtain ⟨debited, hdebit, haccounts⟩ := rows_account_bookSwap h
  have hswaps := rows_swap_bookSwap h
  have hput : (b.put .swaps swap.record).find? .swaps swap.record.txHash
      = .ok (some swap.record) := Books.find?_put_self hs.keeps_record b
  have hnames : ∀ a : Account, ∀ name ∈ (a.recordSpend swap.call.amountIn).fromExchanges,
      name ∈ a.fromExchanges ∨ ∃ owned, exchanges.nameOf? owned = some name :=
    fun a name hmem => .inl hmem
  constructor
  · constructor
    case kept => exact kept_bookSwap hs h
    case swaps => exact fun key value => get?_swap_bookSwap hnew h
    case fresh =>
      intro s hmem
      obtain rfl := List.mem_singleton.mp hmem
      exact hnew
    case found =>
      intro s hmem
      obtain rfl := List.mem_singleton.mp hmem
      rw [Books.find?_congr_rows (t := .swaps) hswaps]
      exact hput
    case has =>
      intro hash
      rw [Books.has_congr_rows (t := .swaps) hswaps, Books.has_put Table.keyed_swaps,
        Bool.or_eq_true, decide_eq_true_iff]
      show hash = swap.txHash ∨ _ ↔ hash ∈ [swap.txHash] ∨ _
      rw [List.mem_singleton]
    case accounts =>
      have hgrows := hroom.rises hx hdebit (fun _ => rfl) hnames
        fun a => a.growsTo_recordSpend swap.call.amountIn
      exact hgrows.trans Account.GrowsTo.trans (.congr_rows .refl haccounts)
    case patterns => exact rises_pattern_bookSwap h
    case tokens => exact rises_token_bookSwap hs h
    case price => exact priceOf_bookSwap hs h
  · exact (hroom.revise hx hdebit (fun _ => rfl) hnames).congr_rows haccounts

/-- **What is booked lets the books grow.** -/
theorem grown_book {r : Resolution} (hr : r.Sound exchanges) {outcome : Outcome}
    (h : book r b = .ok (outcome, b')) :
    Grown b b' (r.notes outcome) ∧ exchanges.RoomIn b' := by
  rcases book_cases h with
    ⟨exchange, recipient, value, rfl, rfl, hbook⟩ | ⟨swap, rfl, hnew, rfl, hbook⟩
    | ⟨_, rfl, -, rfl, rfl⟩ | ⟨_, rfl, rfl, rfl⟩ | ⟨_, rfl, rfl, rfl⟩
  · exact grown_bookTransfer hroom hx hr hbook
  · exact grown_bookSwap hroom hx hr hnew hbook
  · exact ⟨.refl b', hroom⟩
  · exact ⟨.refl b', hroom⟩
  · exact ⟨.refl b', hroom⟩

end

/-! ## §7. Blocks. -/

/-- What is noted of the swaps that are booked, in order. -/
def notesOf (rs : List Resolution) (outcomes : List Outcome) : List Swap :=
  (List.zipWith Resolution.notes rs outcomes).flatten

section

variable {exchanges : ExchangeSet} (hx : exchanges.Short)

include hx

/-- **So does what is booked one after the other.** -/
theorem grown_bookAll {rs : List Resolution} (hrs : ∀ r ∈ rs, r.Sound exchanges) {b b' : Books}
    (hroom : exchanges.RoomIn b) {outcomes : List Outcome}
    (h : bookAll rs b = .ok (outcomes, b')) :
    Grown b b' (notesOf rs outcomes) ∧ exchanges.RoomIn b' := by
  induction rs generalizing b outcomes with
  | nil =>
    obtain ⟨rfl, rfl⟩ := Prod.mk.inj (Except.ok.inj h)
    exact ⟨.refl b, hroom⟩
  | cons r rs ih =>
    obtain ⟨outcome, rest, b₁, h₁, h₂, rfl⟩ := bookAll_cons_eq_ok h
    obtain ⟨hgrown, hroom₁⟩ := grown_book hroom hx (hrs r List.mem_cons_self) h₁
    obtain ⟨hmore, hroom'⟩ := ih (fun r hr => hrs r (List.mem_cons_of_mem _ hr)) hroom₁ h₂
    exact ⟨hgrown.trans hmore, hroom'⟩

end

/-- The notes on swaps are those of which the entries of the chronicle tell. -/
theorem deed_notesOf {exchanges : ExchangeSet} {minTransfer : Amount} {b₀ : Books}
    {funded : List Address} {txs : List Transaction} {rs : List Resolution}
    (hrs : ResolutionsOf exchanges minTransfer b₀ funded txs rs) {b b' : Books}
    {outcomes : List Outcome} (h : bookAll rs b = .ok (outcomes, b')) :
    (notesOf rs outcomes).map Swap.deed = deeds (txs.zip outcomes) := by
  induction hrs generalizing b outcomes with
  | nil =>
    obtain ⟨rfl, rfl⟩ := Prod.mk.inj (Except.ok.inj h)
    rfl
  | @cons funded tx txs r rs hr _ ih =>
    obtain ⟨outcome, rest, b₁, h₁, h₂, rfl⟩ := bookAll_cons_eq_ok h
    have hone : (r.notes outcome).map Swap.deed = (deed? (tx, outcome)).toList := by
      rcases book_cases h₁ with
        ⟨_, _, _, rfl, rfl, -⟩ | ⟨swap, rfl, -, rfl, -⟩
        | ⟨_, rfl, -, rfl, -⟩ | ⟨_, rfl, rfl, -⟩ | ⟨_, rfl, rfl, -⟩
      · rfl
      · rw [deed?_swap (hr.swap rfl).1]
        rfl
      · rfl
      · rfl
      · rfl
    show ((r.notes outcome) ++ notesOf rs rest).map _ = deeds ([(tx, outcome)] ++ txs.zip rest)
    rw [List.map_append, ih h₂, hone]
    unfold deeds
    rw [List.filterMap_append]
    cases h : deed? (tx, outcome) with
    | none => rw [List.filterMap_cons_none h]; rfl
    | some deed => rw [List.filterMap_cons_some h]; rfl

/-- **No block takes anything out of the books.**  Whatever the chain says, the books
have grown by the swaps that the block has recorded, and there are no other new
swaps than those. -/
theorem books_grow {σ : Type} {m : Market σ} (hm : m.Short) (e : Engine σ)
    (hx : e.exchanges.Short) (hroom : e.exchanges.RoomIn e.store.handle.books) (now : Int64)
    (batch : Batch) :
    let after := (e.process m now batch).2.store.handle.books
    ∃ recorded : List Swap, recorded.map Swap.deed = deeds (e.entries m now batch)
      ∧ Grown e.store.handle.books after recorded := by
  intro after
  rcases e.process_cases m now batch with
    ⟨error, herror, hstore⟩ | ⟨outcomes, rs, desk, booked, hc⟩
  · -- nothing has happened
    have hsame : after = e.store.handle.books := congrArg (fun s => s.handle.books) hstore
    refine ⟨[], ?_, ?_⟩
    · rw [Engine.entries_of_error herror]
      rfl
    · rw [hsame]
      exact .refl _
  · have hafter : after = booked.put .cursor ⟨batch.number, batch.hash, now⟩ :=
      congrArg (fun p => p.2.store.handle.books) hc.after
    have hentries : e.entries m now batch = batch.transactions.zip outcomes := by
      unfold Engine.entries
      rw [hc.outcomes_eq]
    obtain ⟨hgrown, -⟩ := grown_bookAll hx (hc.sound hm) hroom hc.booking
    refine ⟨notesOf rs outcomes, ?_, ?_⟩
    · rw [hentries]
      exact deed_notesOf (hc.resolutions hm) hc.booking
    · rw [hafter, ← List.append_nil (notesOf rs outcomes)]
      exact hgrown.trans (.put_cursor booked _)

/-- And after every block there is room for the next one. -/
theorem ExchangeSet.RoomIn.process {σ : Type} {m : Market σ} (hm : m.Short) (e : Engine σ)
    (hx : e.exchanges.Short) (hroom : e.exchanges.RoomIn e.store.handle.books) (now : Int64)
    (batch : Batch) :
    e.exchanges.RoomIn (e.process m now batch).2.store.handle.books := by
  rcases e.process_cases m now batch with
    ⟨error, -, hstore⟩ | ⟨outcomes, rs, desk, booked, hc⟩
  · rw [hstore]
    exact hroom
  · obtain ⟨-, hroom'⟩ := grown_bookAll hx (hc.sound hm) hroom hc.booking
    rw [hc.after]
    show e.exchanges.RoomIn (booked.put .cursor ⟨batch.number, batch.hash, now⟩)
    exact hroom'.congr_rows (Books.rows_put (by decide) booked _)

/-- An engine that has booked a block. -/
def swappedOnce : Engine Unit := (twoExchanges.process evenMarket 0 roundTrip).2

/-- The wallet swaps along another path by a transaction with the hash of its first
swap, and then once more. -/
def replayed : Batch := ⟨.clamp 2, .zero, [
  ⟨.ofPrefix [2], shortAddress 2, some (shortAddress 3), oneEther,
    swapInput [shortAddress 5, shortAddress 7]⟩,
  ⟨.ofPrefix [3], shortAddress 2, some (shortAddress 3), oneEther,
    swapInput [shortAddress 5, shortAddress 4]⟩]⟩

theorem roomIn_swappedOnce : swappedOnce.exchanges.Short
    ∧ swappedOnce.exchanges.RoomIn swappedOnce.store.handle.books := by
  have hnames := storable_twoExchanges.short
  unfold swappedOnce
  rw [(twoExchanges.exchanges_process evenMarket 0 roundTrip).1]
  exact ⟨hnames, ExchangeSet.RoomIn.process short_evenMarket twoExchanges hnames
    (.of_empty storable_twoExchanges rfl) 0 roundTrip⟩

/-- The first swap is as it was, and so is the price of its token; the second is the
only one that is new. -/
theorem books_grow_replayed :
    let before := swappedOnce.store.handle.books
    let after := (swappedOnce.process evenMarket 12 replayed).2.store.handle.books
    ∃ s recorded, s.path = [shortAddress 4, shortAddress 5, shortAddress 4]
      ∧ after.find? .swaps (.ofPrefix [2]) = .ok (some s)
      ∧ recorded.map Swap.txHash = [.ofPrefix [3]]
      ∧ Grown before after recorded
      ∧ priceOf after (shortAddress 4) = oneEther := by
  intro before after
  obtain ⟨recorded, hdeeds, hgrown⟩ := books_grow short_evenMarket swappedOnce
    roomIn_swappedOnce.1 roomIn_swappedOnce.2 12 replayed
  have hentries : deeds (swappedOnce.entries evenMarket 12 replayed)
      = [(.ofPrefix [3], shortAddress 2, oneEther)] := by decide +kernel
  have hthere : (before.find? .swaps (.ofPrefix [2])).toOption.map (Option.map Swap.path)
      = some (some [shortAddress 4, shortAddress 5, shortAddress 4]) := by
    decide +kernel
  have hprice : priceOf before (shortAddress 4) = oneEther := by decide +kernel
  cases hfind : before.find? .swaps (.ofPrefix [2]) with
  | error error =>
    rw [hfind] at hthere
    exact nomatch hthere
  | ok found =>
    rw [hfind] at hthere
    obtain ⟨s, rfl, hpath⟩ := Option.map_eq_some_iff.mp (Option.some.inj hthere)
    refine ⟨s, recorded, hpath, hgrown.find?_swaps hfind, ?_, hgrown, ?_⟩
    · have hhashes : recorded.map Swap.txHash = (recorded.map Swap.deed).map Prod.fst := by
        rw [List.map_map]
        rfl
      rw [hhashes, hdeeds, hentries]
      rfl
    · rw [hgrown.price, hprice, firstPrice_cons]
      exact if_neg (by decide)

end FundTrail
