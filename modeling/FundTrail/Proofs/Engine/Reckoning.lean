/-
  FundTrail.Proofs.Engine.Reckoning
  ─────────────────────────────────
  **THE ACCOUNT OF A BLOCK IS TRUE.**

  What a block is said to have come to is counted over the outcomes of its transactions,
  and an outcome is settled in two steps: a transaction is resolved, and its resolution is
  booked.  `Outcome.Fits` says which outcomes a class of transactions can have; a swap call
  of a wallet that is followed can have two, and which of them it has shows in the books.

  The place of a transaction in its block is all that tells it apart from others, as one
  and the same can stand in a block twice.  So everything is said place by place: what is
  in the books when the block has been processed up to there, and who has been credited by
  then.

  Main facts: `Committed.outcome_at` and `account_of_block_true`.
-/
import FundTrail.Proofs.Classification
import FundTrail.Proofs.Engine.Chronicle
import FundTrail.Proofs.Engine.Onward

namespace FundTrail

open FundTrail.Store

variable {σ : Type}

/-! ## §1. What is counted. -/

/-- A transaction takes enough out of an exchange, to a wallet that belongs to none. -/
def Transaction.isWithdrawal (exchanges : ExchangeSet) (minValue : Amount) (tx : Transaction) :
    Bool :=
  tx.recipient.any (fun recipient => !exchanges.contains recipient)
    && exchanges.contains tx.sender && decide (minValue ≤ tx.value)

/-- The block up to its `i`-th transaction. -/
def Batch.upTo (batch : Batch) (i : Nat) : Batch :=
  { batch with transactions := batch.transactions.take i }

/-- The number of rows that the swaps have in the books. -/
def Store.Books.swapRows (b : Books) : Nat := (b.rows .swap).size

namespace Engine

/-- How many rows the swaps have when a block has been processed up to its `i`-th
transaction. -/
def swapRowsAt (m : Market σ) (now : Int64) (batch : Batch) (e : Engine σ) (i : Nat) : Nat :=
  (e.process m now (batch.upTo i)).2.store.handle.books.swapRows

/-- The `i`-th transaction of a block adds a row to the swaps. -/
def AddsSwap (m : Market σ) (now : Int64) (batch : Batch) (e : Engine σ) (i : Nat) : Prop :=
  e.swapRowsAt m now batch i < e.swapRowsAt m now batch (i + 1)

/-- The `i`-th transaction of a block is a swap call of a wallet that has an account before
the block, or is credited earlier in it. -/
def FollowedCall (e : Engine σ) (batch : Batch) (i : Fin batch.transactions.length) : Prop :=
  batch.transactions[i].InQuestion e.exchanges e.settings.minTransfer
    ∧ (e.store.handle.books.has .accounts batch.transactions[i].sender = true
      ∨ ∃ earlier ∈ batch.transactions.take i,
          (earlier.funder? e.exchanges e.settings.minTransfer
            batch.transactions[i].sender).isSome = true)

end Engine

instance (m : Market σ) (now : Int64) (batch : Batch) (e : Engine σ) (i : Nat) :
    Decidable (e.AddsSwap m now batch i) :=
  inferInstanceAs (Decidable (_ < _))

instance (e : Engine σ) (batch : Batch) (i : Fin batch.transactions.length) :
    Decidable (e.FollowedCall batch i) :=
  inferInstanceAs (Decidable (_ ∧ (_ ∨ _)))

/-! ## §2. Classes and outcomes. -/

theorem Transaction.isWithdrawal_eq_true_iff {exchanges : ExchangeSet} {minValue : Amount}
    {tx : Transaction} :
    tx.isWithdrawal exchanges minValue = true
      ↔ ∃ recipient name, tx.Reaches exchanges minValue recipient
        ∧ exchanges.nameOf? tx.sender = some name := by
  unfold isWithdrawal
  rw [Bool.and_eq_true, Bool.and_eq_true, decide_eq_true_eq, Option.any_eq_true]
  constructor
  · rintro ⟨⟨⟨recipient, hrecipient, houtside⟩, hsender⟩, henough⟩
    obtain ⟨name, hname⟩ := Option.isSome_iff_exists.mp hsender
    refine ⟨recipient, name, ⟨hrecipient, henough, ?_⟩, hname⟩
    rw [Bool.not_eq_true'] at houtside
    exact houtside
  · rintro ⟨recipient, name, hreaches, hname⟩
    refine ⟨⟨⟨recipient, hreaches.goes, ?_⟩, Option.isSome_iff_exists.mpr ⟨name, hname⟩⟩,
      hreaches.enough⟩
    rw [hreaches.outside]
    rfl

/-- The class is one of transactions that are withdrawals, or are not, and are swap calls
that are followed, or are not. -/
def Classification.CountsAs (withdrawal : Bool) (followed : Prop) : Classification → Prop
  | .transfer _ _ _ => withdrawal = true ∧ ¬ followed
  | .swapCall _ _ _ => withdrawal = false ∧ followed
  | .ignored _ => withdrawal = false ∧ ¬ followed

/-- **A transaction is a withdrawal, or a swap call that is followed, or neither.** -/
theorem countsAs_classOf (exchanges : ExchangeSet) (settings : Settings) (books : Books)
    (funded : List Address) (tx : Transaction) :
    (classOf exchanges settings books funded tx).CountsAs
      (tx.isWithdrawal exchanges settings.minTransfer)
      (tx.InQuestion exchanges settings.minTransfer
        ∧ isFollowed books funded tx.sender = true) := by
  have hpasses : (∀ name recipient value, judge exchanges settings.minTransfer tx
      ≠ .settled (.transfer name recipient value)) →
      tx.isWithdrawal exchanges settings.minTransfer = false := by
    intro h
    rw [Bool.eq_false_iff]
    intro hwithdrawal
    obtain ⟨recipient, name, hreaches, hname⟩ :=
      Transaction.isWithdrawal_eq_true_iff.mp hwithdrawal
    exact h name recipient tx.value (judge_eq_transfer_iff.mpr ⟨hreaches, hname, rfl⟩)
  rw [classOf_eq]
  rcases hjudge : judge exchanges settings.minTransfer tx with result | ⟨wallet, router, method⟩
  · have hsettled : ¬ tx.InQuestion exchanges settings.minTransfer := fun hquestion =>
      inQuestion_iff_not_settled.mp hquestion _ hjudge
    cases result with
    | transfer name recipient value =>
      obtain ⟨hreaches, hname, -⟩ := judge_eq_transfer_iff.mp hjudge
      exact ⟨Transaction.isWithdrawal_eq_true_iff.mpr ⟨recipient, name, hreaches, hname⟩,
        fun h => hsettled h.1⟩
    | swapCall wallet router method => exact nomatch judge_eq_iff_judged.mp hjudge
    | ignored reason =>
      refine ⟨hpasses fun name recipient value h => ?_, fun h => hsettled h.1⟩
      exact nomatch hjudge.symm.trans h
  · -- the books have the last word
    have hpassed := hpasses fun name recipient value h => nomatch hjudge.symm.trans h
    obtain ⟨rfl, hcall⟩ := judge_eq_swapIfTracked_iff.mp hjudge
    cases hfollowed : isFollowed books funded tx.sender with
    | true =>
      simp only [hfollowed, if_true]
      exact ⟨hpassed, ⟨router, method, hcall⟩, trivial⟩
    | false =>
      simp only [hfollowed, Bool.false_eq_true, if_false]
      exact ⟨hpassed, fun h => nomatch h.2⟩

/-- The resolution is one that a class can come to. -/
def Resolution.CarriesOut (r : Resolution) : Classification → Prop
  | .transfer exchange recipient value => r = .transfer exchange recipient value
  | .swapCall _ _ _ => (∃ swap, r = .swap swap) ∨ ∃ reason, r = .skipped reason
  | .ignored reason => r = .ignored reason

/-- The outcome is one that a class can come to. -/
def Outcome.Fits (outcome : Outcome) : Classification → Prop
  | .transfer _ _ _ => outcome = .transfer
  | .swapCall _ _ _ => outcome = .swap ∨ outcome = .skipped
  | .ignored _ => outcome = .ignored

/-- What an outcome says of what a transaction counts as. -/
theorem Outcome.Fits.says {outcome : Outcome} {result : Classification} {withdrawal : Bool}
    {followed : Prop} (h : outcome.Fits result) (hcounts : result.CountsAs withdrawal followed) :
    (outcome = .transfer ↔ withdrawal = true)
      ∧ (outcome = .swap ↔ followed ∧ outcome = .swap)
      ∧ (outcome = .skipped ↔ followed ∧ outcome ≠ .swap)
      ∧ (outcome = .ignored ↔ ¬ withdrawal = true ∧ ¬ followed) := by
  cases result with
  | transfer exchange recipient value =>
    obtain rfl : outcome = .transfer := h
    simp [hcounts.1, hcounts.2]
  | swapCall wallet router method =>
    rcases h with rfl | rfl
    · simp [hcounts.1, hcounts.2]
    · simp [hcounts.1, hcounts.2]
  | ignored reason =>
    obtain rfl : outcome = .ignored := h
    simp [hcounts.1, hcounts.2]

/-- A booking adds a row to the swaps if it notes one, and else none. -/
theorem swapRows_book {r : Resolution} {b b' : Books} {outcome : Outcome}
    (h : book r b = .ok (outcome, b')) : b'.swapRows = b.swapRows + [outcome].count .swap := by
  unfold Books.swapRows
  rcases book_cases h with
    ⟨exchange, recipient, value, rfl, rfl, hbook⟩ | ⟨swap, rfl, hnew, rfl, hbook⟩
    | ⟨_, rfl, -, rfl, rfl⟩ | ⟨_, rfl, rfl, rfl⟩ | ⟨_, rfl, rfl, rfl⟩
  · rw [bookTransfer_eq] at hbook
    rw [Books.rows_revise hbook (by decide)]
    rfl
  · -- the swap is put under a key that was not there
    have hnone : (b.rows .swap).get? (Table.swaps.encodeKey swap.txHash) = none := by
      unfold Books.has Books.raw? at hnew
      rw [Option.isSome_eq_false_iff, Option.isNone_iff_eq_none] at hnew
      exact hnew
    have hput := Books.rows_put_self .swaps b swap.record
    change Books.rows _ .swap = Rows.insert (Books.rows _ .swap) _ _ at hput
    rw [rows_swap_bookSwap hbook, hput]
    exact Rows.size_insert_of_new hnone _
  · rfl
  · rfl
  · rfl

theorem swapRows_bookAll {rs : List Resolution} {b b' : Books} {outcomes : List Outcome}
    (h : bookAll rs b = .ok (outcomes, b')) :
    b'.swapRows = b.swapRows + outcomes.count .swap := by
  induction rs generalizing b outcomes with
  | nil =>
    obtain ⟨rfl, rfl⟩ := Prod.mk.inj (Except.ok.inj h)
    rfl
  | cons r rs ih =>
    obtain ⟨outcome, rest, b₁, h₁, h₂, rfl⟩ := bookAll_cons_eq_ok h
    rw [ih h₂, swapRows_book h₁, Nat.add_assoc, ← List.count_append, List.singleton_append]

theorem outcome_book {r : Resolution} {b b' : Books} {outcome : Outcome}
    (h : book r b = .ok (outcome, b')) :
    match r with
    | .transfer _ _ _ => outcome = .transfer
    | .swap _ => outcome = .swap ∨ outcome = .skipped
    | .skipped _ => outcome = .skipped
    | .ignored _ => outcome = .ignored := by
  rcases book_cases h with
    ⟨exchange, recipient, value, rfl, rfl, -⟩ | ⟨swap, rfl, -, rfl, -⟩
    | ⟨_, rfl, -, rfl, -⟩ | ⟨_, rfl, rfl, -⟩ | ⟨_, rfl, rfl, -⟩
  · exact rfl
  · exact .inl rfl
  · exact .inr rfl
  · exact rfl
  · exact rfl

/-- What is booked for a class is an outcome of it. -/
theorem fits_book {r : Resolution} {b b' : Books} {outcome : Outcome}
    (h : book r b = .ok (outcome, b')) {result : Classification} (hr : r.CarriesOut result) :
    outcome.Fits result := by
  have houtcome := outcome_book h
  cases result with
  | transfer exchange recipient value =>
    obtain rfl := hr
    exact houtcome
  | swapCall wallet router method =>
    rcases hr with ⟨swap, rfl⟩ | ⟨reason, rfl⟩
    · exact houtcome
    · exact .inr houtcome
  | ignored reason =>
    obtain rfl := hr
    exact houtcome

/-- What a transaction is resolved to is what its class can come to. -/
theorem carriesOut_resolve {m : Market σ} {exchanges : ExchangeSet} {settings : Settings}
    {books : Books} {funded : List Address} {tx : Transaction} {r : Resolution} {d d' : Desk σ}
    (h : resolve m exchanges settings books funded tx d = (.ok r, d')) :
    r.CarriesOut (classOf exchanges settings books funded tx) := by
  unfold resolve at h
  cases hclass : classOf exchanges settings books funded tx with
  | transfer exchange recipient value =>
    rw [hclass] at h
    exact (Except.ok.inj (congrArg Prod.fst h)).symm
  | swapCall wallet router method =>
    rw [hclass] at h
    simp only at h
    split at h
    next swap _ _ => exact .inl ⟨swap, (Except.ok.inj (congrArg Prod.fst h)).symm⟩
    next reason _ _ => exact .inr ⟨reason, (Except.ok.inj (congrArg Prod.fst h)).symm⟩
    next => exact nomatch congrArg Prod.fst h
  | ignored reason =>
    rw [hclass] at h
    exact (Except.ok.inj (congrArg Prod.fst h)).symm

/-- A resolution funds whom the transaction funds. -/
theorem Resolution.CarriesOut.contains_funded {exchanges : ExchangeSet} {settings : Settings}
    {books : Books} {funded : List Address} {tx : Transaction} {r : Resolution}
    (h : r.CarriesOut (classOf exchanges settings books funded tx)) (wallet : Address) :
    r.funded.contains wallet = (tx.funder? exchanges settings.minTransfer wallet).isSome := by
  rcases classOf_cases exchanges settings books funded tx with
    ⟨exchange, recipient, hclass, hfunder⟩
    | ⟨⟨router, method, -, hclass⟩ | ⟨reason, hclass⟩, hfunder⟩
  · rw [hclass] at h
    obtain rfl := h
    rw [hfunder]
    show [recipient].contains wallet = _
    rw [List.contains_cons, List.contains_nil, Bool.or_false]
    by_cases hwallet : wallet = recipient
    · rw [if_pos hwallet, hwallet, beq_self_eq_true]
      rfl
    · rw [if_neg hwallet, beq_false_of_ne hwallet]
      rfl
  · rw [hclass] at h
    rw [hfunder]
    rcases h with ⟨swap, rfl⟩ | ⟨reason, rfl⟩
    · rfl
    · rfl
  · rw [hclass] at h
    obtain rfl := h
    rw [hfunder]
    rfl

/-! ## §3. Place by place. -/

section

variable {m : Market σ} {exchanges : ExchangeSet} {settings : Settings} {books : Books}

/-- Resolutions carry out the classes of transactions, each told of those before it. -/
inductive CarriedOut (exchanges : ExchangeSet) (settings : Settings) (books : Books) :
    List Address → List Transaction → List Resolution → Prop where
  | nil {funded} : CarriedOut exchanges settings books funded [] []
  | cons {funded tx txs r rs} :
      r.CarriesOut (classOf exchanges settings books funded tx) →
      CarriedOut exchanges settings books (r.funded ++ funded) txs rs →
      CarriedOut exchanges settings books funded (tx :: txs) (r :: rs)

theorem carriedOut_resolveAll {funded : List Address} {txs : List Transaction}
    {rs : List Resolution} {d d' : Desk σ}
    (h : resolveAll m exchanges settings books funded txs d = (.ok rs, d')) :
    CarriedOut exchanges settings books funded txs rs := by
  induction txs generalizing funded rs d with
  | nil =>
    obtain rfl := Except.ok.inj (congrArg Prod.fst h)
    exact .nil
  | cons tx txs ih =>
    obtain ⟨r, d₁, hr, h⟩ := Asking.bind_run_eq_ok h
    obtain ⟨rest, d₂, hrest, h⟩ := Asking.bind_run_eq_ok h
    obtain ⟨hrs, rfl⟩ := Prod.mk.inj h
    obtain rfl := Except.ok.inj hrs
    exact .cons (carriesOut_resolve hr) (ih hrest)

namespace CarriedOut

variable {funded : List Address} {txs : List Transaction} {rs : List Resolution}

theorem length_eq (h : CarriedOut exchanges settings books funded txs rs) :
    rs.length = txs.length := by
  induction h with
  | nil => rfl
  | cons _ _ ih => rw [List.length_cons, List.length_cons, ih]

/-- At every place the class is the one that the wallets funded by then make it. -/
theorem at_ (h : CarriedOut exchanges settings books funded txs rs) (i : Nat)
    (hi : i < txs.length) (hi' : i < rs.length) :
    rs[i].CarriesOut (classOf exchanges settings books (fundedBy funded (rs.take i)) txs[i]) := by
  induction h generalizing i with
  | nil => exact absurd hi (Nat.not_lt_zero i)
  | cons hr _ ih =>
    cases i with
    | zero => exact hr
    | succ i => exact ih i (Nat.lt_of_succ_lt_succ hi) (Nat.lt_of_succ_lt_succ hi')

/-- A wallet is funded by the first resolutions if one of the first transactions does it. -/
theorem isFollowed_fundedBy (h : CarriedOut exchanges settings books funded txs rs) (i : Nat)
    (wallet : Address) :
    isFollowed books (fundedBy funded (rs.take i)) wallet = true
      ↔ isFollowed books funded wallet = true ∨ ∃ earlier ∈ txs.take i,
          (earlier.funder? exchanges settings.minTransfer wallet).isSome = true := by
  induction h generalizing i with
  | nil => simp [fundedBy]
  | @cons funded tx txs r rs hr _ ih =>
    cases i with
    | zero => simp [fundedBy]
    | succ i =>
      rw [List.take_succ_cons, List.take_succ_cons, List.exists_mem_cons_iff]
      show isFollowed books (fundedBy (r.funded ++ funded) (rs.take i)) wallet = true ↔ _
      rw [ih, isFollowed_append, Bool.or_eq_true, hr.contains_funded, or_assoc, or_left_comm]

end CarriedOut

/-- The first transactions are resolved as they are in the whole list. -/
theorem exists_resolveAll_take {funded : List Address} {txs : List Transaction}
    {rs : List Resolution} {d d' : Desk σ}
    (h : resolveAll m exchanges settings books funded txs d = (.ok rs, d')) (i : Nat) :
    ∃ d'', resolveAll m exchanges settings books funded (txs.take i) d
      = (.ok (rs.take i), d'') := by
  induction txs generalizing funded rs d i with
  | nil =>
    obtain rfl := Except.ok.inj (congrArg Prod.fst h)
    exact ⟨d, by rw [List.take_nil, List.take_nil]; rfl⟩
  | cons tx txs ih =>
    cases i with
    | zero => exact ⟨d, rfl⟩
    | succ i =>
      obtain ⟨r, d₁, hr, h⟩ := Asking.bind_run_eq_ok h
      obtain ⟨rest, d₂, hrest, h⟩ := Asking.bind_run_eq_ok h
      obtain ⟨hrs, rfl⟩ := Prod.mk.inj h
      obtain rfl := Except.ok.inj hrs
      obtain ⟨d₃, hfirst⟩ := ih hrest i
      refine ⟨d₃, ?_⟩
      show (resolve m exchanges settings books funded tx >>= fun r =>
        resolveAll m exchanges settings books (r.funded ++ funded) (txs.take i) >>= fun rs =>
          pure (r :: rs)) d = _
      rw [Asking.bind_run_ok hr, Asking.bind_run_ok hfirst]
      rfl

/-- The first resolutions are booked as they are in the whole list, and then the next. -/
theorem exists_bookAll_take {rs : List Resolution} {b b' : Books} {outcomes : List Outcome}
    (h : bookAll rs b = .ok (outcomes, b')) (i : Nat) :
    ∃ b₁, bookAll (rs.take i) b = .ok (outcomes.take i, b₁)
      ∧ bookAll (rs.drop i) b₁ = .ok (outcomes.drop i, b') := by
  induction rs generalizing b outcomes i with
  | nil =>
    obtain ⟨rfl, rfl⟩ := Prod.mk.inj (Except.ok.inj h)
    exact ⟨b, by rw [List.take_nil, List.take_nil]; rfl, by rw [List.drop_nil, List.drop_nil]; rfl⟩
  | cons r rs ih =>
    cases i with
    | zero => exact ⟨b, rfl, h⟩
    | succ i =>
      obtain ⟨outcome, rest, b₁, hr, hrest, rfl⟩ := bookAll_cons_eq_ok h
      obtain ⟨b₂, hfirst, hthen⟩ := ih hrest i
      exact ⟨b₂, bookAll_cons_of_ok hr hfirst, hthen⟩

end

section

variable {m : Market σ} {now : Int64} {batch : Batch} {e : Engine σ} {outcomes : List Outcome}
  {rs : List Resolution} {desk : Desk σ} {booked : Books}

/-- **What is committed of a block is committed of each of its beginnings.** -/
theorem Committed.upTo (h : Committed m now batch e outcomes rs desk booked) (i : Nat) :
    ∃ desk' booked',
      Committed m now (batch.upTo i) e (outcomes.take i) (rs.take i) desk' booked' := by
  obtain ⟨desk', hresolved⟩ := exists_resolveAll_take h.resolved i
  obtain ⟨booked', hbooking, -⟩ := exists_bookAll_take h.booking i
  exact ⟨desk', booked', Engine.committed_of_booked h.open_ h.writable hresolved hbooking⟩

/-- The swaps that have been added are counted. -/
theorem Committed.swapRows_eq (h : Committed m now batch e outcomes rs desk booked) :
    (e.process m now batch).2.store.handle.books.swapRows
      = e.store.handle.books.swapRows + outcomes.count .swap := by
  have hcursor : (booked.put .cursor ⟨batch.number, batch.hash, now⟩).swapRows = booked.swapRows :=
    congrArg Rows.size (Books.rows_put (t := .cursor) (by decide) booked _)
  rw [h.books_eq, hcursor, swapRows_bookAll h.booking]

theorem Committed.addsSwap_iff (h : Committed m now batch e outcomes rs desk booked) {i : Nat}
    (hi : i < outcomes.length) : e.AddsSwap m now batch i ↔ outcomes[i] = .swap := by
  obtain ⟨_, _, hbefore⟩ := h.upTo i
  obtain ⟨_, _, hafter⟩ := h.upTo (i + 1)
  unfold Engine.AddsSwap Engine.swapRowsAt
  rw [hbefore.swapRows_eq, hafter.swapRows_eq, List.take_add_one, List.getElem?_eq_getElem hi,
    Option.toList_some, List.count_append, List.count_singleton]
  by_cases hswap : outcomes[i] = .swap
  · simp [hswap]
  · simp [hswap]

theorem Committed.length_outcomes (h : Committed m now batch e outcomes rs desk booked) :
    outcomes.length = batch.transactions.length := by
  rw [length_bookAll h.booking, (carriedOut_resolveAll h.resolved).length_eq]

/-- **What the outcome at a place says of its transaction.** -/
theorem Committed.outcome_at (h : Committed m now batch e outcomes rs desk booked)
    (i : Fin batch.transactions.length) (hi : i < outcomes.length) :
    let withdrawal :=
      batch.transactions[i].isWithdrawal e.exchanges e.settings.minTransfer = true
    (outcomes[i] = .transfer ↔ withdrawal)
      ∧ (outcomes[i] = .swap ↔ e.FollowedCall batch i ∧ e.AddsSwap m now batch i)
      ∧ (outcomes[i] = .skipped ↔ e.FollowedCall batch i ∧ ¬ e.AddsSwap m now batch i)
      ∧ (outcomes[i] = .ignored ↔ ¬ withdrawal ∧ ¬ e.FollowedCall batch i) := by
  have hcarried := carriedOut_resolveAll h.resolved
  have hrs : i < rs.length := by
    rw [hcarried.length_eq]
    exact i.isLt
  -- the resolution at the place is booked on what those before it have left
  obtain ⟨b₁, -, hthen⟩ := exists_bookAll_take h.booking i
  rw [List.drop_eq_getElem_cons hrs, List.drop_eq_getElem_cons hi] at hthen
  obtain ⟨outcome, rest, b₂, hbook, -, hsame⟩ := bookAll_cons_eq_ok hthen
  obtain ⟨rfl, -⟩ := List.cons.inj hsame
  have hfits := fits_book hbook (hcarried.at_ i i.isLt hrs)
  -- whoever is followed there has an account, or has been credited
  have hfollowed : e.FollowedCall batch i
      ↔ batch.transactions[i].InQuestion e.exchanges e.settings.minTransfer
        ∧ isFollowed e.store.handle.books (fundedBy [] (rs.take i))
          batch.transactions[i].sender = true := by
    unfold Engine.FollowedCall
    rw [hcarried.isFollowed_fundedBy i]
    rfl
  rw [h.addsSwap_iff hi, hfollowed]
  exact hfits.says (countsAs_classOf _ _ _ _ _)

end

/-! ## §4. The account. -/

theorem countP_finRange {α : Type} (l : List α) (p : α → Bool) :
    (List.finRange l.length).countP (fun i => p (l.get i)) = l.countP p := by
  conv_rhs => rw [← List.map_get_finRange l, List.countP_map]
  rfl

/-- What is counted in a list is counted over its places. -/
theorem count_eq_countP_finRange {α : Type} [DecidableEq α] {l : List α} {a : α} {n : Nat}
    (hn : l.length = n) {p : Fin n → Prop} [DecidablePred p]
    (h : ∀ (i : Fin n) (hi : i < l.length), l[i] = a ↔ p i) :
    l.count a = (List.finRange n).countP fun i => p i := by
  subst hn
  refine (countP_finRange l (· == a)).symm.trans (List.countP_congr fun i _ => ?_)
  rw [beq_iff_eq, decide_eq_true_eq]
  exact h i i.isLt

/-- **The account of a block is true.**  Whatever is in the books and whatever the chain
says, if a block is committed then every transaction is counted once: as a transfer if it
takes enough out of an exchange, as a swap or as skipped if it is a swap call of a wallet
that has an account or has been credited by then — as a swap if it adds a row to the swaps,
as skipped if it does not — and else as ignored.  So many rows are added to the swaps as
swaps are counted.  (The rows up to a place are those that the block leaves when it ends
there, which is then committed as well.) -/
theorem account_of_block_true {m : Market σ} {now : Int64} {batch : Batch} {e : Engine σ}
    {summary : Summary} (h : (e.process m now batch).1.result = .ok summary) :
    let txs := batch.transactions
    let after := (e.process m now batch).2.store.handle.books
    let withdrawal := fun tx : Transaction => tx.isWithdrawal e.exchanges e.settings.minTransfer
    summary.transactions = txs.length
    ∧ summary.transfers + summary.swaps + summary.skipped + summary.ignored
      = summary.transactions
    ∧ after.swapRows = e.store.handle.books.swapRows + summary.swaps
    ∧ summary.transfers = txs.countP withdrawal
    ∧ summary.swaps = (List.finRange txs.length).countP
      (fun i => e.FollowedCall batch i ∧ e.AddsSwap m now batch i)
    ∧ summary.skipped = (List.finRange txs.length).countP
      (fun i => e.FollowedCall batch i ∧ ¬ e.AddsSwap m now batch i)
    ∧ summary.ignored = (List.finRange txs.length).countP
      (fun i => ¬ withdrawal txs[i] = true ∧ ¬ e.FollowedCall batch i)
    ∧ ∀ i, ∃ part, (e.process m now (batch.upTo i)).1.result = .ok part := by
  intro txs after withdrawal
  obtain ⟨outcomes, rs, desk, booked, hc⟩ := Engine.committed_of_ok h
  have hlength := hc.length_outcomes
  obtain rfl : Summary.ofOutcomes batch.number outcomes = summary :=
    Except.ok.inj (hc.result_eq.symm.trans h)
  refine ⟨hlength, Summary.ofOutcomes_total batch.number outcomes, hc.swapRows_eq, ?_,
    count_eq_countP_finRange hlength fun i hi => (hc.outcome_at i hi).2.1,
    count_eq_countP_finRange hlength fun i hi => (hc.outcome_at i hi).2.2.1,
    count_eq_countP_finRange hlength fun i hi => (hc.outcome_at i hi).2.2.2, fun i => ?_⟩
  · rw [← countP_finRange txs withdrawal]
    refine (count_eq_countP_finRange hlength fun i hi => (hc.outcome_at i hi).1).trans ?_
    refine List.countP_congr fun i _ => ?_
    rw [decide_eq_true_eq]
    rfl
  · obtain ⟨_, _, hpart⟩ := hc.upTo i
    exact ⟨_, hpart.result_eq⟩

/-- A swap call of a wallet that nobody has funded. -/
def strangersCall : Transaction :=
  ⟨.ofPrefix [3], shortAddress 8, some (shortAddress 3), oneEther,
    swapInput [shortAddress 4, shortAddress 5]⟩

/-- The round trip twice over, with a stranger's call behind it: both fundings count, the
swap counts once, and is skipped when it comes again. -/
theorem account_of_block_true_twice :
    let batch : Batch := ⟨.clamp 1, .zero,
      roundTrip.transactions ++ roundTrip.transactions ++ [strangersCall]⟩
    let after := (firstEngine.process evenMarket 1 batch).2.store.handle.books
    (firstEngine.process evenMarket 1 batch).1.result = .ok ⟨.clamp 1, 5, 2, 1, 1, 1⟩
      ∧ after.swapRows = firstEngine.store.handle.books.swapRows + 1
      ∧ 1 = (List.finRange batch.transactions.length).countP
        (fun i => firstEngine.FollowedCall batch i ∧ ¬ firstEngine.AddsSwap evenMarket 1 batch i)
      ∧ 1 = (List.finRange batch.transactions.length).countP
        (fun i => firstEngine.FollowedCall batch i
          ∧ firstEngine.AddsSwap evenMarket 1 batch i) := by
  intro batch after
  have hsummary : (firstEngine.process evenMarket 1 batch).1.result.toOption
      = some ⟨.clamp 1, 5, 2, 1, 1, 1⟩ := by
    decide +kernel
  have hresult : (firstEngine.process evenMarket 1 batch).1.result
      = .ok ⟨.clamp 1, 5, 2, 1, 1, 1⟩ := by
    generalize (firstEngine.process evenMarket 1 batch).1.result = result at hsummary ⊢
    cases result with
    | error error => exact nomatch hsummary
    | ok summary => exact congrArg Except.ok (Option.some.inj hsummary)
  obtain ⟨-, -, hrows, -, hswaps, hskipped, -, -⟩ := account_of_block_true hresult
  exact ⟨hresult, hrows, hskipped, hswaps⟩

end FundTrail
