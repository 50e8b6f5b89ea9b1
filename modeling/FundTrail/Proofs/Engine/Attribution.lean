/-
  FundTrail.Proofs.Engine.Attribution
  ───────────────────────────────────
  **WHICH SWAPS A PATTERN COUNTS.**

  A swap is put down to every exchange that has funded its wallet before it, in an
  earlier block or earlier in its own.  The pattern of a token with an exchange
  counts the swaps into the token that are put down to the exchange, each of them
  once.  What an exchange funds afterwards has no part in it.

  The chronicle says what was before a swap: whatever stands in it before the entry
  by which the swap was booked.  There is one such entry for every swap in the
  books, because no hash is booked twice.

  Main fact: `patterns_count_attributed_swaps`.
-/
import FundTrail.Proofs.Engine.Funding

namespace FundTrail

open FundTrail.Store

/-! ## §1. Swaps in the chronicle. -/

/-- The hash of a swap, its wallet, and what has been spent on it. -/
def Swap.deed (s : Swap) : Hash × Address × Amount := (s.txHash, s.wallet, s.value)

/-- The swap that has been booked for a transaction, if one has. -/
def deed? (entry : Transaction × Outcome) : Option (Hash × Address × Amount) :=
  if entry.2 = .swap then some (entry.1.hash, entry.1.sender, entry.1.value) else none

/-- The swaps that have been booked, in order. -/
def deeds (history : List (Transaction × Outcome)) : List (Hash × Address × Amount) :=
  history.filterMap deed?

/-- The transactions before the one by which a swap was booked. -/
def before (hash : Hash) (history : List (Transaction × Outcome)) : List Transaction :=
  (history.takeWhile fun entry => (deed? entry).map Prod.fst ≠ some hash).map Prod.fst

theorem deeds_concat (history : List (Transaction × Outcome)) (entry : Transaction × Outcome) :
    deeds (history ++ [entry]) = deeds history ++ (deed? entry).toList := by
  unfold deeds
  rw [List.filterMap_append]
  cases h : deed? entry with
  | none => rw [List.filterMap_cons_none h]; rfl
  | some deed => rw [List.filterMap_cons_some h]; rfl

theorem deed?_swap {tx : Transaction} {swap : PricedSwap} (h : swap.Of tx) :
    deed? (tx, .swap) = some swap.record.deed := by
  show some (tx.hash, tx.sender, tx.value) = some (swap.txHash, swap.wallet, swap.call.amountIn)
  rw [h.txHash, h.wallet, h.amountIn]

/-- What was before a swap stays what it was. -/
theorem before_append {hash : Hash} {history : List (Transaction × Outcome)}
    (h : hash ∈ (deeds history).map Prod.fst) (later : List (Transaction × Outcome)) :
    before hash (history ++ later) = before hash history := by
  induction history with
  | nil => exact nomatch h
  | cons entry history ih =>
    unfold before at ih ⊢
    rw [List.cons_append, List.takeWhile_cons, List.takeWhile_cons]
    by_cases hentry : (deed? entry).map Prod.fst = some hash
    · -- here it was booked, and nothing behind this entry counts
      rw [if_neg (by simpa using hentry), if_neg (by simpa using hentry)]
    · have hrest : hash ∈ (deeds history).map Prod.fst := by
        unfold deeds at h ⊢
        cases hdeed : deed? entry with
        | none =>
          rw [List.filterMap_cons_none hdeed] at h
          exact h
        | some deed =>
          rw [List.filterMap_cons_some hdeed, List.map_cons] at h
          rcases List.mem_cons.mp h with hfirst | hrest
          · rw [hdeed] at hentry
            exact absurd (congrArg some hfirst.symm) hentry
          · exact hrest
      rw [if_pos (by simpa using hentry), if_pos (by simpa using hentry), List.map_cons,
        List.map_cons, ih hrest]

/-- Before a swap that is being booked there is everything that has been done. -/
theorem before_concat {hash : Hash} {history : List (Transaction × Outcome)}
    (h : hash ∉ (deeds history).map Prod.fst) {entry : Transaction × Outcome}
    (hentry : (deed? entry).map Prod.fst = some hash) :
    before hash (history ++ [entry]) = history.map Prod.fst := by
  have hall : ∀ x ∈ history, (deed? x).map Prod.fst ≠ some hash := by
    intro x hx hdeed
    obtain ⟨deed, hsome, hhash⟩ := Option.map_eq_some_iff.mp hdeed
    exact h (List.mem_map.mpr ⟨deed, List.mem_filterMap.mpr ⟨x, hx, hsome⟩, hhash⟩)
  unfold before
  rw [List.takeWhile_append_of_pos (by simpa using hall), List.takeWhile_cons,
    if_neg (by simpa using hentry), List.append_nil]

/-! ## §2. The swaps that are put down to an exchange. -/

section

variable (exchanges : ExchangeSet) (minTransfer : Amount)
  (history : List (Transaction × Outcome))

/-- The exchanges that have funded the wallet of a swap before it. -/
def origins (s : Swap) : List String :=
  funders exchanges minTransfer s.wallet (before s.txHash history)

/-- The swaps into a token that are put down to an exchange. -/
def attributed (swaps : List Swap) (token : Address) (exchange : String) : List Swap :=
  swaps.filter fun s => s.token = token ∧ exchange ∈ origins exchanges minTransfer history s

theorem attributed_cons (s : Swap) (swaps : List Swap) (token : Address) (exchange : String) :
    attributed exchanges minTransfer history (s :: swaps) token exchange
      = if s.token = token ∧ exchange ∈ origins exchanges minTransfer history s
        then s :: attributed exchanges minTransfer history swaps token exchange
        else attributed exchanges minTransfer history swaps token exchange := by
  unfold attributed
  rw [List.filter_cons]
  simp only [decide_eq_true_eq]

end

theorem attributed_append {exchanges : ExchangeSet} {minTransfer : Amount}
    {history : List (Transaction × Outcome)} {swaps : List Swap}
    (h : ∀ s ∈ swaps, s.txHash ∈ (deeds history).map Prod.fst)
    (later : List (Transaction × Outcome)) (token : Address) (exchange : String) :
    attributed exchanges minTransfer (history ++ later) swaps token exchange
      = attributed exchanges minTransfer history swaps token exchange := by
  refine List.filter_congr fun s hs => ?_
  unfold origins
  rw [before_append (h s hs) later]

/-- A swap that is booked is put down to whoever has funded its wallet so far. -/
theorem attributed_concat {exchanges : ExchangeSet} {minTransfer : Amount}
    {history : List (Transaction × Outcome)} {swaps : List Swap}
    (h : ∀ s ∈ swaps, s.txHash ∈ (deeds history).map Prod.fst) {tx : Transaction}
    {swap : PricedSwap} (hswap : swap.Of tx)
    (hfresh : swap.txHash ∉ (deeds history).map Prod.fst) (token : Address) (exchange : String) :
    attributed exchanges minTransfer (history ++ [(tx, .swap)]) (swap.record :: swaps) token
        exchange
      = if swap.call.tokenOut = token
          ∧ exchange ∈ funders exchanges minTransfer swap.wallet (history.map Prod.fst)
        then swap.record :: attributed exchanges minTransfer history swaps token exchange
        else attributed exchanges minTransfer history swaps token exchange := by
  have hdeed : (deed? (tx, .swap)).map Prod.fst = some swap.txHash := by
    rw [deed?_swap hswap]
    rfl
  have hbefore : before swap.record.txHash (history ++ [(tx, .swap)]) = history.map Prod.fst :=
    before_concat hfresh hdeed
  rw [attributed_cons, attributed_append h]
  unfold origins
  rw [hbefore]
  rfl

/-! ## §3. The pattern of one token with one exchange. -/

/-- The pattern counts `n` swaps for `v` wei in total, as far as its counters go.
Where there is nothing to count there is no pattern. -/
def Occurs (b : Books) (token : Address) (exchange : String) (n v : Nat) : Prop :=
  b.Shows .patterns ⟨token, exchange⟩ (n = 0 ∧ v = 0) fun p =>
    n ≠ 0 ∧ p.timesOccurred.toNat = min n (2 ^ 64 - 1) ∧ p.value.toNat = min v (2 ^ 256 - 1)

namespace Occurs

variable {b b' : Books} {token : Address} {exchange : String} {n v : Nat}

theorem congr_rows (hrows : b'.rows .pattern = b.rows .pattern)
    (h : Occurs b token exchange n v) : Occurs b' token exchange n v :=
  Books.Shows.congr_rows (t := .patterns) hrows h

theorem bookPattern (h : Occurs b token exchange n v) {value : Amount}
    (hbook : bookPattern token value exchange b = .ok b') :
    Occurs b' token exchange (n + 1) (v + value.toNat) := by
  rw [bookPattern_eq] at hbook
  refine Books.Shows.revise hbook Table.keyed_patterns rfl (fun _ => rfl) h
    fun p _ hfrom => ⟨Table.keeps_pattern _, Nat.succ_ne_zero n, ?_⟩
  have hbefore : p.timesOccurred.toNat = min n (2 ^ 64 - 1)
      ∧ p.value.toNat = min v (2 ^ 256 - 1) := by
    rcases hfrom with ⟨rfl, rfl, rfl⟩ | ⟨-, hbefore⟩
    · exact ⟨rfl, rfl⟩
    · exact hbefore
  show (Word.next p.timesOccurred).toNat = _ ∧ (Word.satAdd p.value value).toNat = _
  rw [Word.toNat_next, Word.toNat_satAdd, hbefore.1, hbefore.2]
  constructor <;> omega

/-- The pattern of another token, or with another exchange, is left alone. -/
theorem bookPattern_of_ne (h : Occurs b token exchange n v) {other : Address} {name : String}
    {value : Amount} (hne : (⟨token, exchange⟩ : PatternKey) ≠ ⟨other, name⟩)
    (hbook : FundTrail.bookPattern other value name b = .ok b') :
    Occurs b' token exchange n v := by
  rw [bookPattern_eq] at hbook
  exact Books.Shows.revise_of_ne hbook Table.keyed_patterns rfl (fun _ => rfl) hne h

theorem bookPatterns_of_not_mem (h : Occurs b token exchange n v) {other : Address}
    {value : Amount} {names : List String} (hnot : ¬ (other = token ∧ exchange ∈ names))
    (hbook : bookPatterns other value names b = .ok b') : Occurs b' token exchange n v := by
  induction names generalizing b with
  | nil =>
    obtain rfl := Except.ok.inj hbook
    exact h
  | cons name names ih =>
    rw [bookPatterns_cons] at hbook
    obtain ⟨b₁, h₁, hrest⟩ := exists_ok_of_bind hbook
    have hne : (⟨token, exchange⟩ : PatternKey) ≠ ⟨other, name⟩ := by
      intro heq
      obtain ⟨rfl, rfl⟩ := PatternKey.mk.inj heq
      exact hnot ⟨rfl, List.mem_cons_self⟩
    exact ih (h.bookPattern_of_ne hne h₁)
      (fun hmem => hnot ⟨hmem.1, List.mem_cons_of_mem name hmem.2⟩) hrest

/-- A pattern is counted once if its exchange is among the names, which are all
different. -/
theorem bookPatterns_of_mem (h : Occurs b token exchange n v) {value : Amount}
    {names : List String} (hnodup : names.Nodup) (hmem : exchange ∈ names)
    (hbook : bookPatterns token value names b = .ok b') :
    Occurs b' token exchange (n + 1) (v + value.toNat) := by
  induction names generalizing b with
  | nil => exact nomatch hmem
  | cons name names ih =>
    rw [bookPatterns_cons] at hbook
    obtain ⟨b₁, h₁, hrest⟩ := exists_ok_of_bind hbook
    obtain ⟨hfresh, hnodup⟩ := List.nodup_cons.mp hnodup
    by_cases hname : exchange = name
    · -- it is counted here, and does not come again
      subst hname
      exact (h.bookPattern h₁).bookPatterns_of_not_mem (fun hagain => hfresh hagain.2) hrest
    · have hne : (⟨token, exchange⟩ : PatternKey) ≠ ⟨token, name⟩ :=
        fun heq => hname (PatternKey.mk.inj heq).2
      exact ih (h.bookPattern_of_ne hne h₁) hnodup
        ((List.mem_cons.mp hmem).resolve_left hname) hrest

end Occurs

/-- What a swap does to the patterns: its token is counted with whoever is named in
the account of its wallet. -/
theorem patterns_bookSwap {b b' : Books} {swap : PricedSwap} {names : List String}
    {received spent : Nat} (haccount : Accounts b swap.wallet names received spent)
    (hbook : bookSwap swap b = .ok b') :
    ∃ known b₁ b₂, known.Nodup ∧ (∀ name, name ∈ known ↔ name ∈ names)
      ∧ b₁.rows .pattern = b.rows .pattern
      ∧ bookPatterns swap.call.tokenOut swap.call.amountIn known b₁ = .ok b₂
      ∧ b'.rows .pattern = b₂.rows .pattern := by
  obtain ⟨account, before, after, hfound, hbefore, hcounted, hafter⟩ := rows_pattern_bookSwap hbook
  refine ⟨account.fromExchanges.toList, before, after, account.fromExchanges.nodup,
    fun name => ?_, hbefore, hcounted, hafter⟩
  rcases Books.Shows.findOr haccount hfound with ⟨rfl, rfl, -⟩ | ⟨-, hnames, -⟩
  · exact ⟨fun hmem => absurd hmem (NameSet.not_mem_empty name), nofun⟩
  · exact hnames name

/-! ## §4. All patterns. -/

/-- The swaps in the books are those of the chronicle, no hash among them twice, and
the patterns count what is put down to their exchanges. -/
structure Attributed (exchanges : ExchangeSet) (minTransfer : Amount) (b : Books)
    (history : List (Transaction × Outcome)) (swaps : List Swap) : Prop where
  listed : (swaps.map Swap.deed).Perm (deeds history)
  nodup : ((deeds history).map Prod.fst).Nodup
  known : ∀ hash ∈ (deeds history).map Prod.fst, b.has .swaps hash = true
  occurs : ∀ token exchange, Occurs b token exchange
    (attributed exchanges minTransfer history swaps token exchange).length
    ((attributed exchanges minTransfer history swaps token exchange).map
      fun s => s.value.toNat).sum

namespace Attributed

variable {exchanges : ExchangeSet} {minTransfer : Amount} {b b' : Books}
  {history : List (Transaction × Outcome)} {swaps swaps' : List Swap}

theorem of_empty (hpatterns : b.pattern = .empty) :
    Attributed exchanges minTransfer b [] [] where
  listed := .nil
  nodup := .nil
  known := nofun
  occurs _ _ := Books.Shows.of_empty (t := .patterns) hpatterns ⟨rfl, rfl⟩

/-- Every swap in the books has its entry. -/
theorem mem_deeds (h : Attributed exchanges minTransfer b history swaps) :
    ∀ s ∈ swaps, s.txHash ∈ (deeds history).map Prod.fst := by
  intro s hs
  have hdeed : s.deed ∈ deeds history := h.listed.mem_iff.mp (List.mem_map_of_mem hs)
  exact List.mem_map.mpr ⟨s.deed, hdeed, rfl⟩

/-- The order in which the swaps are listed does not matter, nor does what is done
about a transaction without a swap. -/
theorem concat (h : Attributed exchanges minTransfer b history swaps)
    {entry : Transaction × Outcome} (hentry : deed? entry = none)
    (hperm : swaps'.Perm swaps)
    (hhas : ∀ hash, b.has .swaps hash = true → b'.has .swaps hash = true)
    (hrows : b'.rows .pattern = b.rows .pattern) :
    Attributed exchanges minTransfer b' (history ++ [entry]) swaps' := by
  have hdeeds : deeds (history ++ [entry]) = deeds history := by
    rw [deeds_concat, hentry]
    exact List.append_nil _
  refine ⟨?_, ?_, ?_, fun token exchange => ?_⟩
  · rw [hdeeds]
    exact (hperm.map _).trans h.listed
  · rw [hdeeds]
    exact h.nodup
  · rw [hdeeds]
    exact fun hash hmem => hhas hash (h.known hash hmem)
  · have hsame : (attributed exchanges minTransfer (history ++ [entry]) swaps' token exchange).Perm
        (attributed exchanges minTransfer history swaps token exchange) := by
      rw [← attributed_append h.mem_deeds [entry]]
      exact hperm.filter _
    rw [hsame.length_eq, (hsame.map _).sum_nat]
    exact (h.occurs token exchange).congr_rows hrows

/-- A swap is counted in the pattern of its token with every exchange that has
funded its wallet so far. -/
theorem bookSwap (h : Attributed exchanges minTransfer b history swaps) {tx : Transaction}
    {swap : PricedSwap} (hswap : swap.Of tx)
    (hfunded : Funded exchanges minTransfer b (history.map Prod.fst) swaps)
    (hnew : b.has .swaps swap.txHash = false) (hbook : bookSwap swap b = .ok b')
    (hperm : swaps'.Perm (swap.record :: swaps))
    (hhas : ∀ hash, b'.has .swaps hash = true
      ↔ hash ∈ [swap.txHash] ∨ b.has .swaps hash = true) :
    Attributed exchanges minTransfer b' (history ++ [(tx, .swap)]) swaps' := by
  have hdeeds : deeds (history ++ [(tx, .swap)]) = deeds history ++ [swap.record.deed] := by
    rw [deeds_concat, deed?_swap hswap]
    rfl
  have hfresh : swap.txHash ∉ (deeds history).map Prod.fst := by
    intro hmem
    rw [h.known swap.txHash hmem] at hnew
    exact nomatch hnew
  refine ⟨?_, ?_, ?_, fun token exchange => ?_⟩
  · rw [hdeeds]
    refine (hperm.map _).trans ?_
    rw [List.map_cons]
    exact (h.listed.cons _).trans (List.perm_append_singleton _ _).symm
  · rw [hdeeds, List.map_append, List.nodup_append]
    refine ⟨h.nodup, List.pairwise_singleton _ _, ?_⟩
    rintro hash hmem _ hlast rfl
    obtain rfl := List.mem_singleton.mp hlast
    exact hfresh hmem
  · rw [hdeeds, List.map_append]
    intro hash hmem
    rcases List.mem_append.mp hmem with hmem | hlast
    · exact (hhas hash).mpr (.inr (h.known hash hmem))
    · exact (hhas hash).mpr (.inl hlast)
  · -- where the swap is put down to the exchange, its pattern is counted once
    have hcount := hperm.filter fun s => s.token = token
      ∧ exchange ∈ origins exchanges minTransfer (history ++ [(tx, .swap)]) s
    change (attributed exchanges minTransfer _ swaps' token exchange).Perm
      (attributed exchanges minTransfer _ (swap.record :: swaps) token exchange) at hcount
    rw [attributed_concat h.mem_deeds hswap hfresh] at hcount
    rw [hcount.length_eq, (hcount.map _).sum_nat]
    obtain ⟨known, b₁, b₂, hnodup, hknown, hbefore, h₂, hafter⟩ :=
      patterns_bookSwap (hfunded swap.wallet) hbook
    have hstart : Occurs b₁ token exchange _ _ := (h.occurs token exchange).congr_rows hbefore
    refine Occurs.congr_rows hafter ?_
    by_cases hcounts : swap.call.tokenOut = token
        ∧ exchange ∈ funders exchanges minTransfer swap.wallet (history.map Prod.fst)
    · rw [if_pos hcounts, List.length_cons, List.map_cons, List.sum_cons]
      obtain ⟨rfl, hmem⟩ := hcounts
      rw [Nat.add_comm swap.record.value.toNat]
      exact hstart.bookPatterns_of_mem hnodup ((hknown exchange).mpr hmem) h₂
    · rw [if_neg hcounts]
      exact hstart.bookPatterns_of_not_mem
        (fun hmem => hcounts ⟨hmem.1, (hknown exchange).mp hmem.2⟩) h₂

/-- **Whatever comes of a transaction, the patterns count what they should.** -/
theorem book (h : Attributed exchanges minTransfer b history swaps) {tx : Transaction}
    {r : Resolution} (hr : r.Of exchanges minTransfer b [] tx)
    (hfunded : Funded exchanges minTransfer b (history.map Prod.fst) swaps) {outcome : Outcome}
    (hbook : book r b = .ok (outcome, b')) (hperm : swaps'.Perm (r.notes outcome ++ swaps)) :
    Attributed exchanges minTransfer b' (history ++ [(tx, outcome)]) swaps' := by
  have hhas := has_book hbook
  rcases book_cases hbook with
    ⟨exchange, recipient, value, rfl, rfl, hcredit⟩ | ⟨swap, rfl, hnew, rfl, hdebit⟩
    | ⟨_, rfl, -, rfl, rfl⟩ | ⟨_, rfl, rfl, rfl⟩ | ⟨_, rfl, rfl, rfl⟩
  · rw [bookTransfer_eq] at hcredit
    exact h.concat rfl hperm (fun hash hmem => (hhas hash).mpr (.inr hmem))
      (Books.rows_revise hcredit (by decide))
  · exact h.bookSwap (hr.swap rfl).1 hfunded hnew hdebit hperm hhas
  · exact h.concat rfl hperm (fun _ hmem => hmem) rfl
  · exact h.concat rfl hperm (fun _ hmem => hmem) rfl
  · exact h.concat rfl hperm (fun _ hmem => hmem) rfl

end Attributed

theorem carriedOn_attributed {exchanges : ExchangeSet} (hx : exchanges.Storable)
    (minTransfer : Amount) :
    CarriedOn exchanges minTransfer fun b past => ∃ swaps, b.all .swaps = .ok swaps
      ∧ Funded exchanges minTransfer b (past.map Prod.fst) swaps
      ∧ Attributed exchanges minTransfer b past swaps where
  book := by
    rintro b b' past tx r outcome ⟨swaps, hall, hfunded, hattributed⟩ hr hbook
    obtain ⟨swaps', hall', hperm⟩ := all_book hr.sound hbook hall
    refine ⟨swaps', hall', ?_, hattributed.book hr hfunded hbook hperm⟩
    rw [List.map_append]
    exact hfunded.book hx hr hbook hperm
  cursor := by
    rintro b past c ⟨swaps, hall, hfunded, h⟩
    refine ⟨swaps, ?_, hfunded.congr_rows (Books.rows_put (by decide) b c), h.listed, h.nodup,
      fun hash hmem => ?_, fun token exchange => ?_⟩
    · rw [Books.all_put_of_bucket (u := .swaps) (by decide)]
      exact hall
    · rw [Books.has_put_of_bucket (t := .swaps) (u := .cursor) (by decide)]
      exact h.known hash hmem
    · exact (h.occurs token exchange).congr_rows (Books.rows_put (by decide) b c)

/-! ## §5. From empty books. -/

/-- **Patterns count the swaps that are put down to their exchanges.**  The swaps in
the books are those that the chronicle tells of, one for each hash; the pattern of a
token with an exchange is there if one of them is a swap into the token by a wallet
that the exchange has funded before it, and its counters stand at these swaps. -/
theorem patterns_count_attributed_swaps {σ : Type} {m : Market σ} (hm : m.Short) (e : Engine σ)
    (hx : e.exchanges.Storable) (haccounts : e.store.handle.books.account = .empty)
    (hpatterns : e.store.handle.books.pattern = .empty)
    (hswaps : e.store.handle.books.swap = .empty) (calls : List (Int64 × Batch)) :
    let books := (e.processAll m calls).2.store.handle.books
    let history := e.chronicle m calls
    let counted := attributed e.exchanges e.settings.minTransfer history
    ∃ swaps, books.all .swaps = .ok swaps
      ∧ (swaps.map Swap.deed).Perm (deeds history) ∧ ((deeds history).map Prod.fst).Nodup
      ∧ ∀ token exchange, Occurs books token exchange (counted swaps token exchange).length
          ((counted swaps token exchange).map fun s => s.value.toNat).sum := by
  intro books history counted
  have hstart : ∃ swaps, e.store.handle.books.all .swaps = .ok swaps
      ∧ Funded e.exchanges e.settings.minTransfer e.store.handle.books [] swaps
      ∧ Attributed e.exchanges e.settings.minTransfer e.store.handle.books [] swaps :=
    ⟨[], Books.all_of_empty (t := .swaps) hswaps, .of_empty haccounts, .of_empty hpatterns⟩
  obtain ⟨swaps, hall, -, h⟩ :=
    (carriedOn_attributed hx e.settings.minTransfer).processAll hm calls [] hstart
  rw [List.nil_append] at h
  exact ⟨swaps, hall, h.listed, h.nodup, h.occurs⟩

/-- Both swaps count for the exchange that has funded the wallet from the beginning,
and only the second one for the exchange that came later. -/
theorem patterns_count_attributed_swaps_lateFunding :
    let books := (twoExchanges.processAll evenMarket lateFunding).2.store.handle.books
    Occurs books (shortAddress 5) "X" 2 (2 * 10 ^ 18)
      ∧ Occurs books (shortAddress 5) "Y" 1 (10 ^ 18)
      ∧ Occurs books (shortAddress 4) "X" 0 0 := by
  intro books
  obtain ⟨swaps, hall, -, -, hoccurs⟩ := patterns_count_attributed_swaps short_evenMarket
    twoExchanges storable_twoExchanges rfl rfl rfl lateFunding
  have hcounted : (books.all .swaps).toOption.map (fun swaps =>
      [(shortAddress 5, "X"), (shortAddress 5, "Y"), (shortAddress 4, "X")].map fun key =>
        let counted := attributed twoExchanges.exchanges oneEther
          (twoExchanges.chronicle evenMarket lateFunding) swaps key.1 key.2
        (counted.length, (counted.map fun s => s.value.toNat).sum))
      = some [(2, 2 * 10 ^ 18), (1, 10 ^ 18), (0, 0)] := by
    decide +kernel
  rw [hall] at hcounted
  obtain ⟨h₁, htail⟩ := List.cons.inj (Option.some.inj hcounted)
  obtain ⟨h₂, htail⟩ := List.cons.inj htail
  obtain ⟨h₃, -⟩ := List.cons.inj htail
  have hcount : ∀ {token exchange n v},
      (((attributed twoExchanges.exchanges oneEther
          (twoExchanges.chronicle evenMarket lateFunding) swaps token exchange).length,
        ((attributed twoExchanges.exchanges oneEther
          (twoExchanges.chronicle evenMarket lateFunding) swaps token exchange).map
            fun s => s.value.toNat).sum) : Nat × Nat) = (n, v) →
      Occurs books token exchange n v := by
    intro token exchange n v heq
    obtain ⟨rfl, rfl⟩ := Prod.mk.inj heq
    exact hoccurs token exchange
  exact ⟨hcount h₁, hcount h₂, hcount h₃⟩

end FundTrail
