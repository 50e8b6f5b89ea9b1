/-
  FundTrail.Proofs.Engine.Funding
  ───────────────────────────────
  **WHAT ACCOUNTS ADD UP TO.**

  An account is opened by the first transfer out of an exchange and by nothing
  else: a swap is booked only for a wallet that has one.  From then on it tells by
  whom its wallet has been funded, how much it has received in all, and how much
  the swaps in the books have spent.  The order of the transactions does not come
  into it, and neither do the blocks.

  Main fact: `accounts_sum_up`.
-/
import Mathlib.Algebra.GroupWithZero.Nat
import Mathlib.Data.List.Perm.Basic
import FundTrail.Proofs.Engine.Chronicle

namespace FundTrail

open FundTrail.Store

/-! ## §1. Funding and spending. -/

/-- The exchanges that fund a wallet, by name, once for every time that they do. -/
def funders (exchanges : ExchangeSet) (minTransfer : Amount) (wallet : Address)
    (txs : List Transaction) : List String :=
  txs.filterMap (Transaction.funder? exchanges minTransfer wallet)

/-- What exchanges send to a wallet. -/
def received (exchanges : ExchangeSet) (minTransfer : Amount) (wallet : Address)
    (txs : List Transaction) : Nat :=
  ((txs.filter fun tx => (tx.funder? exchanges minTransfer wallet).isSome).map
    fun tx => tx.value.toNat).sum

/-- What a wallet spends on swaps. -/
def spentBy (swaps : List Swap) (wallet : Address) : Nat :=
  ((swaps.filter fun s => s.wallet = wallet).map fun s => s.value.toNat).sum

section

variable (exchanges : ExchangeSet) (minTransfer : Amount) (wallet : Address)
  (txs : List Transaction) (tx : Transaction)

theorem funders_concat :
    funders exchanges minTransfer wallet (txs ++ [tx])
      = funders exchanges minTransfer wallet txs
        ++ (tx.funder? exchanges minTransfer wallet).toList := by
  unfold funders
  rw [List.filterMap_append]
  cases h : tx.funder? exchanges minTransfer wallet with
  | none => rw [List.filterMap_cons_none h]; rfl
  | some exchange => rw [List.filterMap_cons_some h]; rfl

theorem received_concat :
    received exchanges minTransfer wallet (txs ++ [tx])
      = received exchanges minTransfer wallet txs
        + if (tx.funder? exchanges minTransfer wallet).isSome then tx.value.toNat else 0 := by
  unfold received
  rw [List.filter_append, List.map_append, List.sum_append, List.filter_cons]
  split
  next => rfl
  next => rfl

/-- Whoever funds a wallet is one of the exchanges. -/
theorem exists_wallet_of_mem_funders {name : String}
    (h : name ∈ funders exchanges minTransfer wallet txs) :
    ∃ owned, exchanges.nameOf? owned = some name := by
  obtain ⟨tx, -, hfunder⟩ := List.mem_filterMap.mp h
  exact ⟨tx.sender, (Transaction.funder?_eq_some_iff.mp hfunder).2.2.2⟩

end

theorem spentBy_perm {swaps swaps' : List Swap} (h : swaps'.Perm swaps) (wallet : Address) :
    spentBy swaps' wallet = spentBy swaps wallet :=
  ((h.filter _).map _).sum_nat

theorem spentBy_cons (s : Swap) (swaps : List Swap) (wallet : Address) :
    spentBy (s :: swaps) wallet
      = spentBy swaps wallet + if s.wallet = wallet then s.value.toNat else 0 := by
  unfold spentBy
  rw [List.filter_cons]
  by_cases h : s.wallet = wallet
  · rw [if_pos (decide_eq_true h), if_pos h, List.map_cons, List.sum_cons]
    omega
  · rw [if_neg (by simpa using h), if_neg h]
    omega

/-! ## §2. The account of one wallet. -/

/-- The exchanges can be written down: their names have a length of 64 bits, and so
has the list of them. -/
structure ExchangeSet.Storable (exchanges : ExchangeSet) : Prop where
  short : exchanges.Short
  few : exchanges.size < 2 ^ 64

/-- An account that has been funded by exchanges alone can be read again. -/
theorem ExchangeSet.Storable.keeps {exchanges : ExchangeSet} (hx : exchanges.Storable)
    {account : Account}
    (h : ∀ name ∈ account.fromExchanges, ∃ owned, exchanges.nameOf? owned = some name) :
    Table.accounts.Keeps account := by
  have hsubset : account.fromExchanges.toList ⊆ exchanges.names.map Prod.snd := by
    intro name hname
    obtain ⟨owned, howned⟩ := h name hname
    exact List.mem_map.mpr ⟨(owned, name), mem_of_lookup howned, rfl⟩
  -- no name is there twice, so there are no more of them than exchanges
  have hlength := (List.subperm_of_subset account.fromExchanges.nodup hsubset).length_le
  rw [List.length_map] at hlength
  refine Table.keeps_account (fun name hname => ?_) (Nat.lt_of_le_of_lt hlength hx.few)
  obtain ⟨owned, howned⟩ := h name hname
  exact hx.short owned name howned

/-- The account of a wallet names those who have funded it, and its totals stand at
what it has received and spent, as far as they go.  Without an account there is
nothing that it could tell. -/
def Accounts (b : Books) (wallet : Address) (names : List String) (received spent : Nat) : Prop :=
  b.Shows .accounts wallet (names = [] ∧ received = 0 ∧ spent = 0) fun account =>
    names ≠ [] ∧ (∀ name, name ∈ account.fromExchanges ↔ name ∈ names)
      ∧ account.totalReceived.toNat = min received (2 ^ 256 - 1)
      ∧ account.totalSpent.toNat = min spent (2 ^ 256 - 1)

namespace Accounts

variable {exchanges : ExchangeSet} (hx : exchanges.Storable) {b b' : Books} {wallet : Address}
  {names : List String} {received spent : Nat}

include hx

/-- A transfer is credited, and its exchange is named. -/
theorem bookTransfer {exchange : String} {value : Amount}
    (hknown : ∀ name ∈ names ++ [exchange], ∃ owned, exchanges.nameOf? owned = some name)
    (h : Accounts b wallet names received spent)
    (hbook : bookTransfer exchange wallet value b = .ok b') :
    Accounts b' wallet (names ++ [exchange]) (received + value.toNat) spent := by
  rw [bookTransfer_eq] at hbook
  refine Books.Shows.revise hbook Table.keyed_accounts rfl (fun _ => rfl) h
    fun account _ hfrom => ?_
  -- the account says of before what it ought to, whether it is new or not
  have hbefore : (∀ name, name ∈ account.fromExchanges ↔ name ∈ names)
      ∧ account.totalReceived.toNat = min received (2 ^ 256 - 1)
      ∧ account.totalSpent.toNat = min spent (2 ^ 256 - 1) := by
    rcases hfrom with ⟨rfl, rfl, rfl, rfl⟩ | ⟨-, hbefore⟩
    · refine ⟨fun name => ?_, rfl, rfl⟩
      exact ⟨fun hname => absurd hname (NameSet.not_mem_empty name), nofun⟩
    · exact hbefore
  obtain ⟨hnames, hreceived, hspent⟩ := hbefore
  have hafter : ∀ name, name ∈ (account.recordTransfer exchange value).fromExchanges
      ↔ name ∈ names ++ [exchange] := by
    intro name
    show name ∈ account.fromExchanges.insert exchange ↔ _
    rw [NameSet.mem_insert, hnames, List.mem_append, List.mem_singleton]
    exact or_comm
  refine ⟨hx.keeps fun name hname => hknown name ((hafter name).mp hname), by simp, hafter, ?_,
    hspent⟩
  show (Word.satAdd account.totalReceived value).toNat = _
  rw [Word.toNat_satAdd, hreceived]
  omega

/-- A swap of a wallet that has its account is debited. -/
theorem bookSwap {swap : PricedSwap}
    (hknown : ∀ name ∈ names, ∃ owned, exchanges.nameOf? owned = some name)
    (h : Accounts b swap.wallet names received spent)
    (hhas : b.has .accounts swap.wallet = true) (hbook : bookSwap swap b = .ok b') :
    Accounts b' swap.wallet names received (spent + swap.call.amountIn.toNat) := by
  obtain ⟨c, hrevise, hrows⟩ := rows_account_bookSwap hbook
  have hshown : b.Shows .accounts swap.wallet False _ := .inr (Books.Shows.present_of_has h hhas)
  refine Books.Shows.congr_rows (t := .accounts) hrows ?_
  refine Books.Shows.revise hrevise Table.keyed_accounts rfl (fun _ => rfl) hshown
    fun account _ hfrom => ?_
  obtain ⟨hne, hnames, hreceived, hspent⟩ := hfrom.resolve_left And.right
  refine ⟨hx.keeps fun name hname => hknown name ((hnames name).mp hname), hne, hnames,
    hreceived, ?_⟩
  show (Word.satAdd account.totalSpent swap.call.amountIn).toNat = _
  rw [Word.toNat_satAdd, hspent]
  omega

end Accounts

/-! ## §3. All accounts. -/

/-- The accounts tell what the transactions and the swaps come to. -/
def Funded (exchanges : ExchangeSet) (minTransfer : Amount) (b : Books)
    (txs : List Transaction) (swaps : List Swap) : Prop :=
  ∀ wallet, Accounts b wallet (funders exchanges minTransfer wallet txs)
    (received exchanges minTransfer wallet txs) (spentBy swaps wallet)

namespace Funded

variable {exchanges : ExchangeSet} {minTransfer : Amount} {b b' : Books}
  {txs : List Transaction} {swaps swaps' : List Swap}

theorem of_empty (haccounts : b.account = .empty) : Funded exchanges minTransfer b [] [] :=
  fun _ => Books.Shows.of_empty (t := .accounts) haccounts ⟨rfl, rfl, rfl⟩

theorem congr_rows (h : Funded exchanges minTransfer b txs swaps)
    (hrows : b'.rows .account = b.rows .account) : Funded exchanges minTransfer b' txs swaps :=
  fun wallet => Books.Shows.congr_rows (t := .accounts) hrows (h wallet)

/-- A transaction by which nobody is funded leaves the law of accounts as it is. -/
theorem concat (h : Funded exchanges minTransfer b txs swaps) {tx : Transaction}
    (hnobody : ∀ wallet, tx.funder? exchanges minTransfer wallet = none) :
    Funded exchanges minTransfer b (txs ++ [tx]) swaps := by
  intro wallet
  rw [funders_concat, received_concat, hnobody wallet]
  simp only [Option.toList_none, List.append_nil, Option.isSome_none]
  exact h wallet

variable (hx : exchanges.Storable) {tx : Transaction}

include hx

theorem bookTransfer (h : Funded exchanges minTransfer b txs swaps) {exchange : String}
    {recipient : Address}
    (hfunder : ∀ wallet, tx.funder? exchanges minTransfer wallet
      = if wallet = recipient then some exchange else none)
    (hbook : bookTransfer exchange recipient tx.value b = .ok b') :
    Funded exchanges minTransfer b' (txs ++ [tx]) swaps := by
  intro wallet
  have hknown : ∀ name ∈ funders exchanges minTransfer wallet (txs ++ [tx]),
      ∃ owned, exchanges.nameOf? owned = some name :=
    fun _ => exists_wallet_of_mem_funders exchanges minTransfer wallet (txs ++ [tx])
  have hwallet := hfunder wallet
  rw [funders_concat] at hknown ⊢
  rw [received_concat]
  by_cases hw : wallet = recipient
  · -- this is the wallet that is funded
    subst hw
    rw [if_pos rfl] at hwallet
    rw [hwallet] at hknown ⊢
    exact Accounts.bookTransfer hx hknown (h wallet) hbook
  · rw [if_neg hw] at hwallet
    rw [hwallet]
    simp only [Option.toList_none, List.append_nil, Option.isSome_none]
    rw [bookTransfer_eq] at hbook
    exact Books.Shows.revise_of_ne hbook Table.keyed_accounts rfl (fun _ => rfl) hw (h wallet)

theorem bookSwap (h : Funded exchanges minTransfer b txs swaps) {swap : PricedSwap}
    (hhas : b.has .accounts swap.wallet = true) (hbook : bookSwap swap b = .ok b')
    (hperm : swaps'.Perm (swap.record :: swaps)) :
    Funded exchanges minTransfer b' txs swaps' := by
  intro wallet
  rw [spentBy_perm hperm, spentBy_cons]
  show Accounts b' wallet _ _ (_ + if swap.wallet = wallet then swap.call.amountIn.toNat else 0)
  by_cases hw : wallet = swap.wallet
  · subst hw
    rw [if_pos rfl]
    exact Accounts.bookSwap hx
      (fun _ => exists_wallet_of_mem_funders exchanges minTransfer swap.wallet txs)
      (h swap.wallet) hhas hbook
  · rw [if_neg (Ne.symm hw)]
    obtain ⟨c, hrevise, hrows⟩ := rows_account_bookSwap hbook
    refine Books.Shows.congr_rows (t := .accounts) hrows ?_
    exact Books.Shows.revise_of_ne hrevise Table.keyed_accounts rfl (fun _ => rfl) hw (h wallet)

/-- **Whatever comes of a transaction, the accounts tell it.** -/
theorem book (h : Funded exchanges minTransfer b txs swaps) {r : Resolution}
    (hr : r.Of exchanges minTransfer b [] tx) {outcome : Outcome}
    (hbook : book r b = .ok (outcome, b')) (hperm : swaps'.Perm (r.notes outcome ++ swaps)) :
    Funded exchanges minTransfer b' (txs ++ [tx]) swaps' := by
  -- the order in which the swaps are listed does not matter
  have hreorder : ∀ {b txs}, swaps'.Perm swaps → Funded exchanges minTransfer b txs swaps →
      Funded exchanges minTransfer b txs swaps' := by
    intro b txs hswaps hfunded wallet
    rw [spentBy_perm hswaps]
    exact hfunded wallet
  rcases book_cases hbook with
    ⟨exchange, recipient, value, rfl, rfl, hcredit⟩ | ⟨swap, rfl, -, rfl, hdebit⟩
    | ⟨_, rfl, -, rfl, rfl⟩ | ⟨_, rfl, rfl, rfl⟩ | ⟨_, rfl, rfl, rfl⟩
  · obtain rfl := hr.transfer rfl
    exact hreorder hperm (h.bookTransfer hx hr.funder hcredit)
  · obtain ⟨hswap, hfollowed⟩ := hr.swap rfl
    have hhas : b.has .accounts swap.wallet = true := by
      rw [hswap.wallet]
      exact hfollowed
    exact (h.bookSwap hx hhas hdebit hperm).concat hr.funder
  · exact (hreorder hperm h).concat hr.funder
  · exact (hreorder hperm h).concat hr.funder
  · exact (hreorder hperm h).concat hr.funder

end Funded

theorem carriedOn_funded {exchanges : ExchangeSet} (hx : exchanges.Storable)
    (minTransfer : Amount) :
    CarriedOn exchanges minTransfer fun b past => ∃ swaps, b.all .swaps = .ok swaps
      ∧ Funded exchanges minTransfer b (past.map Prod.fst) swaps where
  book := by
    rintro b b' past tx r outcome ⟨swaps, hall, hfunded⟩ hr hbook
    obtain ⟨swaps', hall', hperm⟩ := all_book hr.sound hbook hall
    refine ⟨swaps', hall', ?_⟩
    rw [List.map_append]
    exact hfunded.book hx hr hbook hperm
  cursor := by
    rintro b past c ⟨swaps, hall, hfunded⟩
    refine ⟨swaps, ?_, hfunded.congr_rows (Books.rows_put (by decide) b c)⟩
    rw [Books.all_put_of_bucket (u := .swaps) (by decide)]
    exact hall

/-! ## §4. From empty books. -/

/-- **Accounts sum up what has been done.**  A wallet has one if an exchange has
funded it, and only then; it names exactly these exchanges, and its totals stand at
what they have sent and at what the wallet's swaps have spent. -/
theorem accounts_sum_up {σ : Type} {m : Market σ} (hm : m.Short) (e : Engine σ)
    (hx : e.exchanges.Storable) (haccounts : e.store.handle.books.account = .empty)
    (hswaps : e.store.handle.books.swap = .empty) (calls : List (Int64 × Batch)) :
    let books := (e.processAll m calls).2.store.handle.books
    let txs := e.taken m calls
    ∃ swaps, books.all .swaps = .ok swaps ∧ ∀ wallet,
      Accounts books wallet (funders e.exchanges e.settings.minTransfer wallet txs)
        (received e.exchanges e.settings.minTransfer wallet txs) (spentBy swaps wallet) := by
  intro books txs
  have hstart : ∃ swaps, e.store.handle.books.all .swaps = .ok swaps
      ∧ Funded e.exchanges e.settings.minTransfer e.store.handle.books [] swaps :=
    ⟨[], Books.all_of_empty (t := .swaps) hswaps, .of_empty haccounts⟩
  obtain ⟨swaps, hall, hfunded⟩ :=
    (carriedOn_funded hx e.settings.minTransfer).processAll hm calls [] hstart
  rw [List.nil_append, map_fst_chronicle hm] at hfunded
  exact ⟨swaps, hall, hfunded⟩

/-- An engine on new books that knows two exchanges. -/
def twoExchanges : Engine Unit :=
  .new (.ofList [⟨"X", shortAddress 1⟩, ⟨"Y", shortAddress 6⟩]) .default ⟨.new, false⟩ ()

theorem storable_twoExchanges : twoExchanges.exchanges.Storable where
  short := by
    intro wallet name h
    have hmem := List.mem_map_of_mem (f := Prod.snd) (mem_of_lookup h)
    have hnames : twoExchanges.exchanges.names.map Prod.snd = ["Y", "X"] := by decide
    rw [hnames] at hmem
    rcases List.mem_pair.mp hmem with rfl | rfl
    · decide
    · decide
  few := by decide

/-- One exchange funds a wallet, which buys token 5 for the ether; then the other
exchange funds it, and in the next block it buys the same token again. -/
def lateFunding : List (Int64 × Batch) := [
  (0, ⟨.clamp 1, .zero, [
    ⟨.ofPrefix [1], shortAddress 1, some (shortAddress 2), oneEther, []⟩,
    ⟨.ofPrefix [2], shortAddress 2, some (shortAddress 3), oneEther,
      swapInput [shortAddress 4, shortAddress 5]⟩,
    ⟨.ofPrefix [3], shortAddress 6, some (shortAddress 2), oneEther, []⟩]⟩),
  (12, ⟨.clamp 2, .zero, [
    ⟨.ofPrefix [4], shortAddress 2, some (shortAddress 3), oneEther,
      swapInput [shortAddress 4, shortAddress 5]⟩]⟩)]

/-- The wallet has received two ether and spent them; the router that it has called
is nobody's account. -/
theorem accounts_sum_up_lateFunding :
    let books := (twoExchanges.processAll evenMarket lateFunding).2.store.handle.books
    Accounts books (shortAddress 2) ["X", "Y"] (2 * 10 ^ 18) (2 * 10 ^ 18)
      ∧ Accounts books (shortAddress 3) [] 0 0 := by
  intro books
  obtain ⟨swaps, hall, haccounts⟩ :=
    accounts_sum_up short_evenMarket twoExchanges storable_twoExchanges rfl rfl lateFunding
  have hspent : (books.all .swaps).toOption.map (fun swaps =>
      (spentBy swaps (shortAddress 2), spentBy swaps (shortAddress 3)))
      = some (2 * 10 ^ 18, 0) := by
    decide +kernel
  have htxs : ([shortAddress 2, shortAddress 3].map fun wallet =>
        (funders twoExchanges.exchanges oneEther wallet (twoExchanges.taken evenMarket lateFunding),
          received twoExchanges.exchanges oneEther wallet
            (twoExchanges.taken evenMarket lateFunding)))
      = [(["X", "Y"], 2 * 10 ^ 18), ([], 0)] := by
    decide +kernel
  rw [hall] at hspent
  obtain ⟨hspent₂, hspent₃⟩ := Prod.mk.inj (Option.some.inj hspent)
  obtain ⟨h₂, htail⟩ := List.cons.inj htxs
  obtain ⟨h₃, -⟩ := List.cons.inj htail
  obtain ⟨hnames₂, hreceived₂⟩ := Prod.mk.inj h₂
  obtain ⟨hnames₃, hreceived₃⟩ := Prod.mk.inj h₃
  have haccount₂ := haccounts (shortAddress 2)
  have haccount₃ := haccounts (shortAddress 3)
  change Accounts _ _ (funders _ oneEther _ _) (received _ oneEther _ _) _
    at haccount₂ haccount₃
  rw [hnames₂, hreceived₂, hspent₂] at haccount₂
  rw [hnames₃, hreceived₃, hspent₃] at haccount₃
  exact ⟨haccount₂, haccount₃⟩

end FundTrail
