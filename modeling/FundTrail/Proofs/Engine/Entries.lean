/-
  FundTrail.Proofs.Engine.Entries
  ───────────────────────────────
  **WHAT ONE BOOKING CAN DO TO THE BOOKS.**

  A booking that goes through credits an account, or writes down a swap, or does
  nothing.  Its parts are revisions of single records: `revise` reads the record
  with a key and puts it back changed, and leaves the rows of other buckets alone.

  Main facts: `book_cases`, `bookSwap_eq_ok`, `Shows.revise` and the `rows_…` lemmas.
-/
import FundTrail.Proofs.Store.Listing
import FundTrail.Engine.Booking

namespace FundTrail

open FundTrail.Store

theorem exists_ok_of_bind {ε α β : Type} {x : Except ε α} {f : α → Except ε β} {b : β}
    (h : (x >>= f) = .ok b) : ∃ a, x = .ok a ∧ f a = .ok b := by
  cases x with
  | error e => exact nomatch h
  | ok a => exact ⟨a, rfl, h⟩

/-! ## §1. The parts of a booking. -/

namespace Store.Books

variable {κ ρ : Type} {t : Table κ ρ} {key : κ} {fallback : ρ} {change : ρ → ρ} {b b' : Books}

theorem revise_eq_ok (h : b.revise t key fallback change = .ok b') :
    ∃ r, b.findOr t key fallback = .ok r ∧ b' = b.put t (change r) := by
  unfold revise at h
  cases hr : b.findOr t key fallback with
  | error e =>
    rw [hr] at h
    exact nomatch h
  | ok r =>
    rw [hr] at h
    exact ⟨r, rfl, (Except.ok.inj h).symm⟩

theorem rows_revise (h : b.revise t key fallback change = .ok b') {bucket : Bucket}
    (hb : bucket ≠ t.bucket) : b'.rows bucket = b.rows bucket := by
  obtain ⟨r, -, rfl⟩ := revise_eq_ok h
  exact rows_put hb b _

/-- The record that a revision puts has the key it was looked up with. -/
theorem keyOf_change {r : ρ} (h : b.findOr t key fallback = .ok r) (ht : t.Keyed)
    (hfallback : t.keyOf fallback = key) (hchange : ∀ r, t.keyOf (change r) = t.keyOf r) :
    t.keyOf (change r) = key := by
  rw [hchange]
  rcases findOr_eq_ok h with ⟨-, rfl⟩ | hfind
  · exact hfallback
  · exact keyOf_find? ht hfind

/-- After a revision there is a record under the key. -/
theorem has_revise [DecidableEq κ] (h : b.revise t key fallback change = .ok b') (ht : t.Keyed)
    (hfallback : t.keyOf fallback = key) (hchange : ∀ r, t.keyOf (change r) = t.keyOf r)
    (other : κ) : b'.has t other = (decide (other = key) || b.has t other) := by
  obtain ⟨r, hr, rfl⟩ := revise_eq_ok h
  rw [has_put ht, keyOf_change hr ht hfallback hchange]

/-! What the books show under a key moves with a revision. -/

/-- The books show no record under a key, where `absent` is the case, or a record
that is as `present` says. -/
def Shows (b : Books) (t : Table κ ρ) (key : κ) (absent : Prop) (present : ρ → Prop) : Prop :=
  (b.find? t key = .ok none ∧ absent) ∨ ∃ r, b.find? t key = .ok (some r) ∧ present r

namespace Shows

variable {absent absent' : Prop} {present present' : ρ → Prop}

theorem congr_rows (h : b'.rows t.bucket = b.rows t.bucket)
    (hs : b.Shows t key absent present) : b'.Shows t key absent present := by
  unfold Shows
  rw [find?_congr_rows h]
  exact hs

theorem of_empty (h : b.rows t.bucket = .empty) (ha : absent) :
    b.Shows t key absent present := by
  refine .inl ⟨?_, ha⟩
  unfold find? raw?
  rw [h]
  rfl

/-- The record to begin with is the fallback or the one that is shown. -/
theorem findOr (hs : b.Shows t key absent present) {r : ρ}
    (h : b.findOr t key fallback = .ok r) : r = fallback ∧ absent ∨ present r := by
  rcases findOr_eq_ok h with ⟨hnone, rfl⟩ | hsome
  · rcases hs with ⟨-, ha⟩ | ⟨r', hr', -⟩
    · exact .inl ⟨rfl, ha⟩
    · rw [hnone] at hr'
      exact nomatch hr'
  · rcases hs with ⟨hnone, -⟩ | ⟨r', hr', hp⟩
    · rw [hsome] at hnone
      exact nomatch hnone
    · rw [hsome] at hr'
      obtain rfl : r = r' := Option.some.inj (Except.ok.inj hr')
      exact .inr hp

theorem present_of_has (hs : b.Shows t key absent present) (h : b.has t key = true) :
    ∃ r, b.find? t key = .ok (some r) ∧ present r := by
  rcases hs with ⟨hnone, -⟩ | hr
  · -- where there is a value, something is found or it cannot be read
    unfold has at h
    obtain ⟨value, hvalue⟩ := Option.isSome_iff_exists.mp h
    unfold find? at hnone
    rw [hvalue] at hnone
    simp only at hnone
    cases hread : t.decodeValue key value with
    | error e =>
      rw [hread] at hnone
      exact nomatch hnone
    | ok r =>
      rw [hread] at hnone
      exact nomatch Except.ok.inj hnone
  · exact hr

section

variable (h : b.revise t key fallback change = .ok b') (ht : t.Keyed)
  (hfallback : t.keyOf fallback = key) (hchange : ∀ r, t.keyOf (change r) = t.keyOf r)

include h ht hfallback hchange

/-- After a revision the books show the changed record. -/
theorem revise (hs : b.Shows t key absent present)
    (hnext : ∀ r, b.findOr t key fallback = .ok r → (r = fallback ∧ absent ∨ present r) →
      t.Keeps (change r) ∧ present' (change r)) :
    b'.Shows t key absent' present' := by
  obtain ⟨r, hr, rfl⟩ := revise_eq_ok h
  obtain ⟨hkeeps, hpresent⟩ := hnext r hr (hs.findOr hr)
  refine .inr ⟨change r, ?_, hpresent⟩
  have hput := find?_put_self hkeeps b
  rw [keyOf_change hr ht hfallback hchange] at hput
  exact hput

/-- Under other keys they show what they have shown. -/
theorem revise_of_ne {other : κ} (hother : other ≠ key)
    (hs : b.Shows t other absent present) : b'.Shows t other absent present := by
  obtain ⟨r, hr, rfl⟩ := revise_eq_ok h
  unfold Shows
  rw [find?_put_of_ne ht (by rw [keyOf_change hr ht hfallback hchange]; exact hother)]
  exact hs

end

end Shows

end Store.Books

namespace PricedSwap

/-! Whatever is noted, the token keeps its name and its decimals. -/

@[simp] theorem address_noted (swap : PricedSwap) (token : Address) (row : Token) :
    (swap.noted token row).address = row.address := by
  unfold noted
  split <;> rfl

@[simp] theorem symbol_noted (swap : PricedSwap) (token : Address) (row : Token) :
    (swap.noted token row).symbol = row.symbol := by
  unfold noted
  split <;> rfl

@[simp] theorem decimals_noted (swap : PricedSwap) (token : Address) (row : Token) :
    (swap.noted token row).decimals = row.decimals := by
  unfold noted
  split <;> rfl

end PricedSwap

section

variable {b b' : Books}

/-- **Along a path:** what the revision of each of its tokens keeps is kept in the end. -/
theorem bookTokens_induction {P : Books → Prop} {swap : PricedSwap}
    {tokens : List (Address × Metadata)} (h : bookTokens swap tokens b = .ok b') (hb : P b)
    (hstep : ∀ p ∈ tokens, ∀ c c', P c →
      c.revise .tokens p.1 (.new p.1 p.2.symbol p.2.decimals) (swap.noted p.1) = .ok c' → P c') :
    P b' := by
  induction tokens generalizing b with
  | nil =>
    obtain rfl := Except.ok.inj h
    exact hb
  | cons t tokens ih =>
    -- one token after the other, each a revision of its own row
    rw [bookTokens_cons] at h
    obtain ⟨b₁, h₁, h⟩ := exists_ok_of_bind h
    rw [bookToken_eq] at h₁
    exact ih h (hstep t List.mem_cons_self b b₁ hb h₁)
      fun p hp => hstep p (List.mem_cons_of_mem _ hp)

/-- The same with the patterns of a token. -/
theorem bookPatterns_induction {P : Books → Prop} {token : Address} {value : Amount}
    {exchanges : List String} (h : bookPatterns token value exchanges b = .ok b') (hb : P b)
    (hstep : ∀ exchange ∈ exchanges, ∀ c c', P c →
      c.revise .patterns ⟨token, exchange⟩ (.new token exchange) (fun p => p.record value)
        = .ok c' → P c') :
    P b' := by
  induction exchanges generalizing b with
  | nil =>
    obtain rfl := Except.ok.inj h
    exact hb
  | cons exchange exchanges ih =>
    rw [bookPatterns_cons] at h
    obtain ⟨b₁, h₁, h⟩ := exists_ok_of_bind h
    rw [bookPattern_eq] at h₁
    exact ih h (hstep exchange List.mem_cons_self b b₁ hb h₁)
      fun name hname => hstep name (List.mem_cons_of_mem _ hname)

theorem rows_bookTokens {swap : PricedSwap} {tokens : List (Address × Metadata)}
    (h : bookTokens swap tokens b = .ok b') {bucket : Bucket} (hb : bucket ≠ .token) :
    b'.rows bucket = b.rows bucket := by
  refine bookTokens_induction h (P := fun c => c.rows bucket = b.rows bucket) rfl ?_
  intro t _ c c' hc hrevise
  rw [Books.rows_revise hrevise hb, hc]

theorem rows_bookPatterns {token : Address} {value : Amount} {exchanges : List String}
    (h : bookPatterns token value exchanges b = .ok b') {bucket : Bucket}
    (hb : bucket ≠ .pattern) : b'.rows bucket = b.rows bucket := by
  refine bookPatterns_induction h (P := fun c => c.rows bucket = b.rows bucket) rfl ?_
  intro exchange _ c c' hc hrevise
  rw [Books.rows_revise hrevise hb, hc]

/-- What writing down a swap comes to. -/
theorem bookSwap_eq_ok {swap : PricedSwap} (h : bookSwap swap b = .ok b') :
    ∃ account b₁ b₂, b.findOr .accounts swap.wallet (.new swap.wallet) = .ok account
      ∧ bookTokens swap swap.tokens b = .ok b₁
      ∧ bookPatterns swap.call.tokenOut swap.call.amountIn account.fromExchanges.toList b₁
          = .ok b₂
      ∧ b' = (b₂.put .swaps swap.record).put .accounts
          (account.recordSpend swap.call.amountIn) := by
  rw [bookSwap_eq] at h
  obtain ⟨account, haccount, h⟩ := exists_ok_of_bind h
  obtain ⟨b₁, h₁, h⟩ := exists_ok_of_bind h
  obtain ⟨b₂, h₂, h⟩ := exists_ok_of_bind h
  exact ⟨account, b₁, b₂, haccount, h₁, h₂, (Except.ok.inj h).symm⟩

/-! What a swap does to the rows of each kind. -/

/-- The tokens are those of its path, noted. -/
theorem rows_token_bookSwap {swap : PricedSwap} (h : bookSwap swap b = .ok b') :
    ∃ c, bookTokens swap swap.tokens b = .ok c ∧ b'.rows .token = c.rows .token := by
  obtain ⟨account, b₁, b₂, -, h₁, h₂, rfl⟩ := bookSwap_eq_ok h
  refine ⟨b₁, h₁, ?_⟩
  rw [Books.rows_put (by decide), Books.rows_put (by decide), rows_bookPatterns h₂ (by decide)]

/-- Among the patterns the token is counted with whoever is named in the account of the
wallet. -/
theorem rows_pattern_bookSwap {swap : PricedSwap} (h : bookSwap swap b = .ok b') :
    ∃ account before after, b.findOr .accounts swap.wallet (.new swap.wallet) = .ok account
      ∧ before.rows .pattern = b.rows .pattern
      ∧ bookPatterns swap.call.tokenOut swap.call.amountIn account.fromExchanges.toList before
          = .ok after
      ∧ b'.rows .pattern = after.rows .pattern := by
  obtain ⟨account, b₁, b₂, haccount, h₁, h₂, rfl⟩ := bookSwap_eq_ok h
  refine ⟨account, b₁, b₂, haccount, rows_bookTokens h₁ (by decide), h₂, ?_⟩
  rw [Books.rows_put (by decide), Books.rows_put (by decide)]

/-- In the accounts it is a revision of that of the wallet. -/
theorem rows_account_bookSwap {swap : PricedSwap} (h : bookSwap swap b = .ok b') :
    ∃ c, b.revise .accounts swap.wallet (.new swap.wallet)
        (fun a => a.recordSpend swap.call.amountIn) = .ok c
      ∧ b'.rows .account = c.rows .account := by
  obtain ⟨account, b₁, b₂, haccount, h₁, h₂, rfl⟩ := bookSwap_eq_ok h
  refine ⟨b.put .accounts (account.recordSpend swap.call.amountIn), ?_, ?_⟩
  · unfold Books.revise
    rw [haccount]
    rfl
  · have hrows : (b₂.put .swaps swap.record).rows .account = b.rows .account := by
      rw [Books.rows_put (by decide), rows_bookPatterns h₂ (by decide),
        rows_bookTokens h₁ (by decide)]
    have hput := Books.rows_put_self .accounts (b₂.put .swaps swap.record)
      (account.recordSpend swap.call.amountIn)
    have hput' := Books.rows_put_self .accounts b (account.recordSpend swap.call.amountIn)
    change Books.rows _ .account = Rows.insert (Books.rows _ .account) _ _ at hput hput'
    rw [hput, hput', hrows]

/-- Among the swaps it is put on top of those that are there. -/
theorem rows_swap_bookSwap {swap : PricedSwap} (h : bookSwap swap b = .ok b') :
    b'.rows .swap = (b.put .swaps swap.record).rows .swap := by
  obtain ⟨account, b₁, b₂, -, h₁, h₂, rfl⟩ := bookSwap_eq_ok h
  have hrows : b₂.rows .swap = b.rows .swap := by
    rw [rows_bookPatterns h₂ (by decide), rows_bookTokens h₁ (by decide)]
  have hput := Books.rows_put_self .swaps b₂ swap.record
  have hput' := Books.rows_put_self .swaps b swap.record
  change Books.rows _ .swap = Rows.insert (Books.rows _ .swap) _ _ at hput hput'
  rw [Books.rows_put (by decide), hput, hput', hrows]

theorem all_bookSwap {swap : PricedSwap} (hkeeps : Table.swaps.Keeps swap.record)
    (hnew : b.has .swaps swap.txHash = false) {swaps : List Swap}
    (hall : b.all .swaps = .ok swaps) (h : bookSwap swap b = .ok b') :
    ∃ swaps', b'.all .swaps = .ok swaps' ∧ swaps'.Perm (swap.record :: swaps) := by
  rw [Books.all_congr_rows (t := .swaps) (rows_swap_bookSwap h)]
  exact Books.all_put_of_new Table.keyed_swaps hkeeps hnew hall

/-! ## §2. One resolution. -/

/-- **What booking one resolution comes to.** -/
theorem book_cases {r : Resolution} {outcome : Outcome} (h : book r b = .ok (outcome, b')) :
    (∃ exchange recipient value, r = .transfer exchange recipient value
      ∧ outcome = .transfer ∧ bookTransfer exchange recipient value b = .ok b')
    ∨ (∃ swap, r = .swap swap ∧ b.has .swaps swap.txHash = false
      ∧ outcome = .swap ∧ bookSwap swap b = .ok b')
    ∨ (∃ swap, r = .swap swap ∧ b.has .swaps swap.txHash = true
      ∧ outcome = .skipped ∧ b' = b)
    ∨ (∃ reason, r = .skipped reason ∧ outcome = .skipped ∧ b' = b)
    ∨ ∃ reason, r = .ignored reason ∧ outcome = .ignored ∧ b' = b := by
  cases r with
  | transfer exchange recipient value =>
    rw [book_transfer] at h
    -- the outcome is added where the credit has gone through
    cases hbook : bookTransfer exchange recipient value b with
    | error e =>
      rw [hbook] at h
      exact nomatch h
    | ok b₁ =>
      rw [hbook] at h
      obtain ⟨rfl, rfl⟩ := Prod.mk.inj (Except.ok.inj h)
      exact .inl ⟨exchange, recipient, value, rfl, rfl, hbook⟩
  | swap swap =>
    rw [book_swap] at h
    -- what is in the books already is passed over
    cases hhas : b.has .swaps swap.txHash with
    | true =>
      rw [hhas] at h
      obtain ⟨rfl, rfl⟩ := Prod.mk.inj (Except.ok.inj h)
      exact .inr (.inr (.inl ⟨swap, rfl, hhas, rfl, rfl⟩))
    | false =>
      rw [hhas, if_neg Bool.false_ne_true] at h
      cases hbook : bookSwap swap b with
      | error e =>
        rw [hbook] at h
        exact nomatch h
      | ok b₁ =>
        rw [hbook] at h
        obtain ⟨rfl, rfl⟩ := Prod.mk.inj (Except.ok.inj h)
        exact .inr (.inl ⟨swap, rfl, hhas, rfl, hbook⟩)
  | skipped reason =>
    obtain ⟨rfl, rfl⟩ := Prod.mk.inj (Except.ok.inj h)
    exact .inr (.inr (.inr (.inl ⟨reason, rfl, rfl, rfl⟩)))
  | ignored reason =>
    obtain ⟨rfl, rfl⟩ := Prod.mk.inj (Except.ok.inj h)
    exact .inr (.inr (.inr (.inr ⟨reason, rfl, rfl, rfl⟩)))

/-- Booking one resolution after the other. -/
theorem bookAll_cons_eq_ok {r : Resolution} {rs : List Resolution} {outcomes : List Outcome}
    (h : bookAll (r :: rs) b = .ok (outcomes, b')) :
    ∃ outcome rest b₁, book r b = .ok (outcome, b₁) ∧ bookAll rs b₁ = .ok (rest, b')
      ∧ outcomes = outcome :: rest := by
  rw [bookAll_cons] at h
  obtain ⟨⟨outcome, b₁⟩, h₁, h⟩ := exists_ok_of_bind h
  obtain ⟨⟨rest, b₂⟩, h₂, h⟩ := exists_ok_of_bind h
  obtain ⟨rfl, rfl⟩ := Prod.mk.inj (Except.ok.inj h)
  exact ⟨outcome, rest, b₁, h₁, h₂, rfl⟩

theorem bookAll_cons_of_ok {r : Resolution} {rs : List Resolution} {b₁ : Books}
    {outcome : Outcome} {rest : List Outcome} (h : book r b = .ok (outcome, b₁))
    (hrest : bookAll rs b₁ = .ok (rest, b')) :
    bookAll (r :: rs) b = .ok (outcome :: rest, b') := by
  rw [bookAll_cons, h]
  show (bookAll rs b₁ >>= fun q => .ok (outcome :: q.1, q.2)) = _
  rw [hrest]
  rfl

end

end FundTrail
