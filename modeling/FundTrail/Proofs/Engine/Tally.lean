/-
  FundTrail.Proofs.Engine.Tally
  ─────────────────────────────
  **WHAT THE COUNTERS OF TOKENS ADD UP TO.**

  The swaps in the books are a ledger: each of them is one purchase of its token.
  The counters in the row of the token are moved once for every place that the
  token has on the path of the swap, and only the last place is what is bought.
  So they agree with the ledger as long as no path comes back to its last token,
  and count too much where one does.

  Main fact: `tokens_count_places`.
-/
import Mathlib.Algebra.GroupWithZero.Nat
import FundTrail.Proofs.Engine.Chronicle

namespace FundTrail

open FundTrail.Store

/-! ## §1. The ledger. -/

/-- The swaps into a token. -/
def purchases (swaps : List Swap) (token : Address) : List Swap :=
  swaps.filter fun s => s.token = token

/-- How many places a token has on the paths of the swaps into it. -/
def places (swaps : List Swap) (token : Address) : Nat :=
  ((purchases swaps token).map fun s => s.path.count token).sum

/-- What the swaps into a token have spent, counted once for every place. -/
def spentByPlace (swaps : List Swap) (token : Address) : Nat :=
  ((purchases swaps token).map fun s => s.path.count token * s.value.toNat).sum

/-- What the swaps into a token have spent. -/
def spent (swaps : List Swap) (token : Address) : Nat :=
  ((purchases swaps token).map fun s => s.value.toNat).sum

/-- The row of a token counts `n` purchases for `v` wei in total, as far as its
counters go.  Where there is nothing to count there may be no row. -/
def Counts (b : Books) (token : Address) (n v : Nat) : Prop :=
  (b.find? .tokens token = .ok none ∧ n = 0 ∧ v = 0) ∨
    ∃ row, b.find? .tokens token = .ok (some row)
      ∧ row.timesBought.toNat = min n (2 ^ 64 - 1)
      ∧ row.totalBought.toNat = min v (2 ^ 256 - 1)

theorem purchases_cons (s : Swap) (swaps : List Swap) (token : Address) :
    purchases (s :: swaps) token
      = if s.token = token then s :: purchases swaps token else purchases swaps token := by
  unfold purchases
  rw [List.filter_cons]
  simp only [decide_eq_true_eq]

theorem places_perm {swaps swaps' : List Swap} (h : swaps'.Perm swaps) (token : Address) :
    places swaps' token = places swaps token :=
  ((h.filter _).map _).sum_nat

theorem spentByPlace_perm {swaps swaps' : List Swap} (h : swaps'.Perm swaps)
    (token : Address) : spentByPlace swaps' token = spentByPlace swaps token :=
  ((h.filter _).map _).sum_nat

theorem places_cons (s : Swap) (swaps : List Swap) (token : Address) :
    places (s :: swaps) token
      = places swaps token + if s.token = token then s.path.count token else 0 := by
  unfold places
  rw [purchases_cons]
  split
  next =>
    rw [List.map_cons, List.sum_cons]
    omega
  next => rfl

theorem spentByPlace_cons (s : Swap) (swaps : List Swap) (token : Address) :
    spentByPlace (s :: swaps) token
      = spentByPlace swaps token
        + if s.token = token then s.path.count token * s.value.toNat else 0 := by
  unfold spentByPlace
  rw [purchases_cons]
  split
  next =>
    rw [List.map_cons, List.sum_cons]
    omega
  next => rfl

/-! ## §2. The counters of one token. -/

theorem Counts.congr_rows {b b' : Books} (h : b'.rows .token = b.rows .token) {token : Address}
    {n v : Nat} (hc : Counts b token n v) : Counts b' token n v :=
  Books.Shows.congr_rows (t := .tokens) h hc

/-- How much a place of `token` on a path moves the counters of `other`. -/
def PricedSwap.moves (swap : PricedSwap) (token other : Address) : Nat :=
  if token = other ∧ other = swap.call.tokenOut then 1 else 0

theorem Counts.bookToken {b b' : Books} {swap : PricedSwap} {token : Address}
    {known : Metadata} (hknown : IsShort known.symbol)
    (h : bookToken swap token known b = .ok b') {other : Address} {n v : Nat}
    (hc : Counts b other n v) :
    Counts b' other (n + swap.moves token other)
      (v + swap.moves token other * swap.call.amountIn.toNat) := by
  rw [bookToken_eq] at h
  by_cases hother : other = token
  · -- this is the row that is written
    subst hother
    refine Books.Shows.revise h Table.keyed_tokens rfl (swap.address_noted other) hc
      fun row hrow hfrom => ⟨Table.keeps_token ?_, ?_⟩
    · rw [swap.symbol_noted]
      rcases Books.findOr_eq_ok hrow with ⟨-, rfl⟩ | hfind
      · exact hknown
      · exact Books.isShort_of_find?_tokens hfind
    · have hcounters : row.timesBought.toNat = min n (2 ^ 64 - 1)
          ∧ row.totalBought.toNat = min v (2 ^ 256 - 1) := by
        rcases hfrom with ⟨rfl, rfl, rfl⟩ | hcounters
        · exact ⟨rfl, rfl⟩
        · exact hcounters
      obtain ⟨htimes, htotal⟩ := hcounters
      unfold PricedSwap.noted PricedSwap.moves
      by_cases hout : other = swap.call.tokenOut
      · rw [if_pos hout, if_pos ⟨rfl, hout⟩]
        show (Word.next row.timesBought).toNat = _
          ∧ (Word.satAdd row.totalBought swap.call.amountIn).toNat = _
        rw [Word.toNat_next, Word.toNat_satAdd, htimes, htotal]
        constructor <;> omega
      · rw [if_neg hout, if_neg fun h => hout h.2, Nat.zero_mul]
        exact ⟨htimes, htotal⟩
  · -- another row
    have hmoves : swap.moves token other = 0 := if_neg fun h => hother h.1.symm
    rw [hmoves, Nat.zero_mul]
    exact Books.Shows.revise_of_ne h Table.keyed_tokens rfl (swap.address_noted token) hother hc

/-- How much all places of a path move the counters of `other`. -/
def PricedSwap.movesAlong (swap : PricedSwap) (path : List Address) (other : Address) : Nat :=
  if other = swap.call.tokenOut then path.count other else 0

theorem PricedSwap.movesAlong_cons (swap : PricedSwap) (token : Address) (path : List Address)
    (other : Address) :
    swap.movesAlong (token :: path) other = swap.moves token other + swap.movesAlong path other := by
  unfold movesAlong moves
  rw [List.count_cons]
  by_cases hout : other = swap.call.tokenOut
  · rw [if_pos hout, if_pos hout]
    by_cases htoken : token = other
    · rw [if_pos (beq_iff_eq.mpr htoken), if_pos ⟨htoken, hout⟩]
      omega
    · rw [if_neg fun h => htoken (beq_iff_eq.mp h), if_neg fun h => htoken h.1]
      omega
  · rw [if_neg hout, if_neg hout, if_neg fun h => hout h.2]

/-- Along a path the counters of the last token are moved once for each of its
places, and no others. -/
theorem Counts.bookTokens {b b' : Books} {swap : PricedSwap}
    {tokens : List (Address × Metadata)} (hknown : ∀ p ∈ tokens, IsShort p.2.symbol)
    (h : bookTokens swap tokens b = .ok b') {other : Address} {n v : Nat}
    (hc : Counts b other n v) :
    Counts b' other (n + swap.movesAlong (tokens.map Prod.fst) other)
      (v + swap.movesAlong (tokens.map Prod.fst) other * swap.call.amountIn.toNat) := by
  induction tokens generalizing b n v with
  | nil =>
    obtain rfl : b = b' := Except.ok.inj h
    have hzero : swap.movesAlong [] other = 0 := ite_self 0
    rw [List.map_nil, hzero, Nat.zero_mul]
    exact hc
  | cons t tokens ih =>
    obtain ⟨token, known⟩ := t
    rw [bookTokens_cons] at h
    obtain ⟨b₁, h₁, h⟩ := exists_ok_of_bind h
    -- the place of the token, and then the rest of the path from there
    have hfirst := hc.bookToken (hknown (token, known) List.mem_cons_self) h₁
    have hrest := ih (fun p hp => hknown p (List.mem_cons_of_mem _ hp)) h hfirst
    rw [List.map_cons, PricedSwap.movesAlong_cons, Nat.add_mul, ← Nat.add_assoc, ← Nat.add_assoc]
    exact hrest

/-! ## §3. The ledger and the counters. -/

/-- The swaps in the books are `swaps`, and the counters of tokens stand at what
they come to, place by place. -/
structure Tallied (b : Books) (swaps : List Swap) : Prop where
  all : b.all .swaps = .ok swaps
  /-- What is bought is on the path. -/
  bought : ∀ s ∈ swaps, s.token ∈ s.path
  counts : ∀ token, Counts b token (places swaps token) (spentByPlace swaps token)

namespace Tallied

variable {b b' : Books} {swaps : List Swap}

/-- Without a token and without a swap there is nothing to count. -/
theorem of_empty (htokens : b.token = .empty) (hswaps : b.swap = .empty) : Tallied b [] where
  all := Books.all_of_empty (t := .swaps) hswaps
  bought := nofun
  counts _ := Books.Shows.of_empty (t := .tokens) htokens ⟨rfl, rfl⟩

theorem congr_rows (h : Tallied b swaps) (htokens : b'.rows .token = b.rows .token)
    (hswaps : b'.rows .swap = b.rows .swap) : Tallied b' swaps where
  all := (Books.all_congr_rows (t := .swaps) hswaps).trans h.all
  bought := h.bought
  counts token := (h.counts token).congr_rows htokens

/-- A swap is written down and counted at once. -/
theorem bookSwap (h : Tallied b swaps) {swap : PricedSwap} (hs : swap.Sound)
    (hnew : b.has .swaps swap.txHash = false) (hbook : bookSwap swap b = .ok b') :
    ∃ swaps', Tallied b' swaps' := by
  -- the swap joins the ledger
  obtain ⟨swaps', hall', hperm⟩ := all_bookSwap hs.keeps_record hnew h.all hbook
  obtain ⟨c, hnoted, htokens⟩ := rows_token_bookSwap hbook
  refine ⟨swaps', hall', ?_, ?_⟩
  -- the new swap has bought the last token of its path
  · intro s hmem
    rcases List.mem_cons.mp (hperm.mem_iff.mp hmem) with rfl | hmem
    · exact List.mem_of_getLast? hs.last
    · exact h.bought s hmem
  -- counters and ledger have moved by the same amount
  · intro token
    have hcounts := (h.counts token).bookTokens hs.short_symbols hnoted
    rw [hs.along] at hcounts
    rw [places_perm hperm, spentByPlace_perm hperm, places_cons, spentByPlace_cons]
    refine Counts.congr_rows htokens ?_
    show Counts c token (_ + if swap.call.tokenOut = token then _ else 0)
      (_ + if swap.call.tokenOut = token then _ else 0)
    unfold PricedSwap.movesAlong at hcounts
    by_cases hout : token = swap.call.tokenOut
    · rw [if_pos hout] at hcounts
      rw [if_pos hout.symm, if_pos hout.symm]
      exact hcounts
    · rw [if_neg hout, Nat.zero_mul] at hcounts
      rw [if_neg (Ne.symm hout), if_neg (Ne.symm hout)]
      exact hcounts

theorem book (h : Tallied b swaps) {exchanges : ExchangeSet} {r : Resolution}
    (hr : r.Sound exchanges) {outcome : Outcome} (hbook : book r b = .ok (outcome, b')) :
    ∃ swaps', Tallied b' swaps' := by
  rcases book_cases hbook with
    ⟨exchange, recipient, value, rfl, -, hbook⟩ | ⟨swap, rfl, hnew, -, hbook⟩
    | ⟨_, -, -, -, rfl⟩ | ⟨_, -, -, rfl⟩ | ⟨_, -, -, rfl⟩
  · rw [bookTransfer_eq] at hbook
    exact ⟨swaps, h.congr_rows (Books.rows_revise hbook (by decide))
      (Books.rows_revise hbook (by decide))⟩
  · exact h.bookSwap hr hnew hbook
  · exact ⟨swaps, h⟩
  · exact ⟨swaps, h⟩
  · exact ⟨swaps, h⟩

end Tallied

/-! ## §4. Runs. -/

theorem carriedOn_tallied (exchanges : ExchangeSet) (minTransfer : Amount) :
    CarriedOn exchanges minTransfer fun b _ => ∃ swaps, Tallied b swaps where
  book := by
    rintro b b' past tx r outcome ⟨swaps, h⟩ hr hbook
    exact h.book hr.sound hbook
  cursor := by
    rintro b past c ⟨swaps, h⟩
    exact ⟨swaps, h.congr_rows (Books.rows_put (by decide) b c) (Books.rows_put (by decide) b c)⟩

/-! ## §5. Where counters and ledger agree. -/

theorem sum_map_le {α : Type} {l : List α} {f g : α → Nat} (h : ∀ x ∈ l, g x ≤ f x) :
    (l.map g).sum ≤ (l.map f).sum := by
  induction l with
  | nil => exact Nat.le_refl 0
  | cons x l ih =>
    have hx := h x List.mem_cons_self
    have hl := ih fun y hy => h y (List.mem_cons_of_mem _ hy)
    rw [List.map_cons, List.map_cons, List.sum_cons, List.sum_cons]
    omega

/-- Of two sums that are ordered term by term, equality means equal terms. -/
theorem sum_map_eq_iff {α : Type} {l : List α} {f g : α → Nat} (h : ∀ x ∈ l, g x ≤ f x) :
    (l.map f).sum = (l.map g).sum ↔ ∀ x ∈ l, f x = g x := by
  induction l with
  | nil => exact ⟨fun _ => nofun, fun _ => rfl⟩
  | cons x l ih =>
    have hx := h x List.mem_cons_self
    have hrest : ∀ y ∈ l, g y ≤ f y := fun y hy => h y (List.mem_cons_of_mem _ hy)
    have hle := sum_map_le hrest
    rw [List.map_cons, List.map_cons, List.sum_cons, List.sum_cons, List.forall_mem_cons,
      ← ih hrest]
    omega

/-- Every token that has been bought stands on the path at least once. -/
theorem Tallied.one_le_count {b : Books} {swaps : List Swap} (h : Tallied b swaps)
    (token : Address) : ∀ s ∈ purchases swaps token, 1 ≤ s.path.count token := by
  intro s hs
  obtain ⟨hmem, htoken⟩ := List.mem_filter.mp hs
  obtain rfl : s.token = token := of_decide_eq_true htoken
  exact List.count_pos_iff.mpr (h.bought s hmem)

/-- No swap into a token has passed it before, as far as that shows: the counters
may have reached their end, and what spends nothing adds nothing. -/
def CountedOnce (swaps : List Swap) (token : Address) : Prop :=
  ((∀ s ∈ purchases swaps token, s.path.count token = 1)
    ∨ 2 ^ 64 - 1 ≤ (purchases swaps token).length)
  ∧ ((∀ s ∈ purchases swaps token, s.path.count token * s.value.toNat = s.value.toNat)
    ∨ 2 ^ 256 - 1 ≤ spent swaps token)

/-- The counters agree with the ledger exactly where no path comes back to its
last token. -/
theorem Tallied.counts_purchases_iff {b : Books} {swaps : List Swap} (h : Tallied b swaps)
    (token : Address) :
    Counts b token (purchases swaps token).length (spent swaps token)
      ↔ CountedOnce swaps token := by
  unfold CountedOnce
  have hone := h.one_le_count token
  have hmul : ∀ s ∈ purchases swaps token,
      s.value.toNat ≤ s.path.count token * s.value.toNat :=
    fun s hs => Nat.le_mul_of_pos_left _ (hone s hs)
  have hlength : ((purchases swaps token).map fun _ => 1).sum
      = (purchases swaps token).length := by
    rw [List.map_const', List.sum_replicate_nat, Nat.mul_one]
  -- places are at least swaps, term by term, so equal sums mean equal terms
  have hplaces := sum_map_eq_iff hone
  have hle := sum_map_le hone
  have hspent := sum_map_eq_iff hmul
  have hspentLe := sum_map_le hmul
  rw [hlength] at hplaces hle
  rw [← hplaces, ← hspent]
  change _ ↔ (places swaps token = _ ∨ _) ∧ (spentByPlace swaps token = spent swaps token ∨ _)
  change spent swaps token ≤ spentByPlace swaps token at hspentLe
  change _ ≤ places swaps token at hle
  rcases h.counts token with ⟨hnone, hn, hv⟩ | ⟨row, hsome, htimes, htotal⟩
  · -- there is no row, and nothing has been bought
    refine ⟨fun _ => ⟨.inl (by omega), .inl (by omega)⟩, fun _ => .inl ⟨hnone, ?_, ?_⟩⟩ <;> omega
  · constructor
    -- two minima with one bound: equal numbers, or both at the bound
    · rintro (⟨hnone, -, -⟩ | ⟨row', hsome', htimes', htotal'⟩)
      · rw [hsome] at hnone
        exact nomatch hnone
      · rw [hsome] at hsome'
        obtain rfl : row = row' := Option.some.inj (Except.ok.inj hsome')
        omega
    · rintro ⟨hn, hv⟩
      exact .inr ⟨row, hsome, by omega, by omega⟩

/-! ## §6. From empty books. -/

/-- **The counters of a token stand at its places on the paths of the swaps into
it**, and so at the number of these swaps only where none of them has come back
to it. -/
theorem tokens_count_places {σ : Type} {m : Market σ} (hm : m.Short) (e : Engine σ)
    (htokens : e.store.handle.books.token = .empty)
    (hswaps : e.store.handle.books.swap = .empty) (calls : List (Int64 × Batch)) :
    let books := (e.processAll m calls).2.store.handle.books
    ∃ swaps, books.all .swaps = .ok swaps ∧ ∀ token,
      Counts books token (places swaps token) (spentByPlace swaps token)
      ∧ (Counts books token (purchases swaps token).length (spent swaps token)
          ↔ CountedOnce swaps token) := by
  intro books
  have hstart : Tallied e.store.handle.books [] := .of_empty htokens hswaps
  obtain ⟨swaps, h⟩ := (carriedOn_tallied e.exchanges e.settings.minTransfer).processAll hm calls
    [] ⟨[], hstart⟩
  exact ⟨swaps, h.all, fun token => ⟨h.counts token, h.counts_purchases_iff token⟩⟩

/-- One swap that comes back to its token counts as two purchases of it. -/
theorem tokens_count_places_roundTrip :
    let books := (firstEngine.processAll evenMarket [(0, roundTrip)]).2.store.handle.books
    ∃ swaps, books.all .swaps = .ok swaps
      ∧ (purchases swaps (shortAddress 4)).length = 1
      ∧ Counts books (shortAddress 4) 2 (2 * 10 ^ 18)
      ∧ ¬ Counts books (shortAddress 4) 1 (10 ^ 18) := by
  intro books
  obtain ⟨swaps, hall, hcounts⟩ :=
    tokens_count_places short_evenMarket firstEngine rfl rfl [(0, roundTrip)]
  have hbought : (books.all .swaps).toOption.map (fun swaps =>
      (purchases swaps (shortAddress 4)).map fun s => (s.path, s.value))
      = some [([shortAddress 4, shortAddress 5, shortAddress 4], oneEther)] := by
    decide +kernel
  rw [hall] at hbought
  obtain ⟨s, hs, hfields⟩ := List.map_eq_singleton_iff.mp (Option.some.inj hbought)
  obtain ⟨hpath, hvalue⟩ := Prod.mk.inj hfields
  obtain ⟨hplaces, hagree⟩ := hcounts (shortAddress 4)
  have htwice : s.path.count (shortAddress 4) = 2 := by
    rw [hpath]
    decide +kernel
  unfold places spentByPlace at hplaces
  unfold CountedOnce spent at hagree
  rw [hs] at hplaces hagree
  change Counts _ _ (s.path.count _ + 0) (s.path.count _ * s.value.toNat + 0) at hplaces
  change Counts _ _ 1 (s.value.toNat + 0) ↔ _ at hagree
  rw [htwice, hvalue] at hplaces
  rw [hvalue] at hagree
  refine ⟨swaps, hall, by rw [hs]; rfl, hplaces, fun hledger => ?_⟩
  rcases (hagree.mp hledger).1 with hone | hend
  · have h := hone s List.mem_cons_self
    omega
  · rw [List.length_singleton] at hend
    omega

end FundTrail
