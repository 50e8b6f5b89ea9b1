/-
  FundTrail.Proofs.Engine.Interchange
  ───────────────────────────────────
  **BOOKINGS THAT MAY CHANGE PLACES.**

  A booking is a series of revisions, each of one record.  Two revisions may change
  places if they are of different records, or if their changes of the record may:
  totals do not care in which order they are added to, also where they reach their
  end, and a set forgets in which order names have come.

  What a booking finds in the books decides which revisions it makes: whether the
  hash of a swap is there, and who has funded its wallet.  Bookings that do not meddle
  with that for each other change places as well (`book_interchange`).

  Main fact: `bookAll_interchange`.
-/
import FundTrail.Proofs.Engine.Growth

namespace FundTrail

open FundTrail.Store

/-! ## §1. Work that may change places. -/

section

variable {P : Books → Prop} {f g : Books → Except StoreError Books}
  {fs gs : List (Books → Except StoreError Books)}

/-- What `f` and then `g` make of books with `P`, `g` and then `f` make of them too. -/
def Interchange (P : Books → Prop) (f g : Books → Except StoreError Books) : Prop :=
  ∀ b b₁ c, P b → f b = .ok b₁ → g b₁ = .ok c → ∃ b₂, g b = .ok b₂ ∧ f b₂ = .ok c

/-- The work leaves books with `P`. -/
def Preserves (P : Books → Prop) (f : Books → Except StoreError Books) : Prop :=
  ∀ b b', P b → f b = .ok b' → P b'

/-- One piece of work after the other. -/
def inTurn : List (Books → Except StoreError Books) → Books → Except StoreError Books
  | [], b => .ok b
  | f :: fs, b => f b >>= inTurn fs

theorem inTurn_append (fs gs : List (Books → Except StoreError Books)) (b : Books) :
    inTurn (fs ++ gs) b = inTurn fs b >>= inTurn gs := by
  induction fs generalizing b with
  | nil => rfl
  | cons f fs ih =>
    show (f b >>= inTurn (fs ++ gs)) = ((f b >>= inTurn fs) >>= inTurn gs)
    cases f b with
    | error e => rfl
    | ok b₁ => exact ih b₁

theorem inTurn_cons_of_ok {b b₁ : Books} (h : f b = .ok b₁) : inTurn (f :: fs) b = inTurn fs b₁ := by
  show (f b >>= inTurn fs) = _
  rw [h]
  rfl

/-- What may change places with every piece may change places with all of them. -/
theorem Interchange.inTurn_right (h : ∀ g ∈ gs, Interchange P f g)
    (hgs : ∀ g ∈ gs, Preserves P g) : Interchange P f (inTurn gs) := by
  induction gs with
  | nil =>
    intro b b₁ c _ hf hg
    obtain rfl := Except.ok.inj hg
    exact ⟨b, rfl, hf⟩
  | cons g gs ih =>
    intro b b₁ c hb hf hg
    obtain ⟨c₁, hfirst, hrest⟩ := exists_ok_of_bind hg
    obtain ⟨b₂, hg₂, hf₂⟩ := h g List.mem_cons_self b b₁ c₁ hb hf hfirst
    obtain ⟨b₃, hg₃, hf₃⟩ := ih (fun g hg => h g (List.mem_cons_of_mem _ hg))
      (fun g hg => hgs g (List.mem_cons_of_mem _ hg)) b₂ c₁ c
      (hgs g List.mem_cons_self b b₂ hb hg₂) hf₂ hrest
    exact ⟨b₃, (inTurn_cons_of_ok hg₂).trans hg₃, hf₃⟩

theorem Interchange.inTurn_left (h : ∀ f ∈ fs, Interchange P f g)
    (hfs : ∀ f ∈ fs, Preserves P f) : Interchange P (inTurn fs) g := by
  induction fs with
  | nil =>
    intro b b₁ c _ hf hg
    obtain rfl := Except.ok.inj hf
    exact ⟨c, hg, rfl⟩
  | cons f fs ih =>
    intro b b₁ c hb hf hg
    obtain ⟨x, hfirst, hrest⟩ := exists_ok_of_bind hf
    obtain ⟨y, hy, hc⟩ := ih (fun f hf => h f (List.mem_cons_of_mem _ hf))
      (fun f hf => hfs f (List.mem_cons_of_mem _ hf)) x b₁ c
      (hfs f List.mem_cons_self b x hb hfirst) hrest hg
    obtain ⟨z, hz, hfz⟩ := h f List.mem_cons_self b x y hb hfirst hy
    exact ⟨z, hz, (inTurn_cons_of_ok hfz).trans hc⟩

/-- **All of the one may change places with all of the other.** -/
theorem Interchange.inTurn_inTurn (h : ∀ f ∈ fs, ∀ g ∈ gs, Interchange P f g)
    (hfs : ∀ f ∈ fs, Preserves P f) (hgs : ∀ g ∈ gs, Preserves P g) :
    Interchange P (inTurn fs) (inTurn gs) :=
  Interchange.inTurn_left (fun f hf => Interchange.inTurn_right (h f hf) hgs) hfs

end

/-! ## §2. Revisions. -/

namespace Store

variable {κ ρ κ' ρ' : Type} {t : Table κ ρ} {u : Table κ' ρ'}

/-- A change of the record under one key, which goes on to have this key. -/
structure Revision (t : Table κ ρ) where
  key : κ
  /-- The record to begin with where there is none. -/
  fallback : ρ
  change : ρ → ρ
  keyOf_fallback : t.keyOf fallback = key
  keyOf_change : ∀ r, t.keyOf r = key → t.keyOf (change r) = key

namespace Books

theorem findOr_put_of_ne (ht : t.Keyed) {r : ρ} {key : κ} (h : key ≠ t.keyOf r) (b : Books)
    (fallback : ρ) : (b.put t r).findOr t key fallback = b.findOr t key fallback := by
  rw [findOr_eq, findOr_eq, find?_put_of_ne ht h]

theorem findOr_put_self {r : ρ} (h : t.Keeps r) (b : Books) (fallback : ρ) :
    (b.put t r).findOr t (t.keyOf r) fallback = .ok r := by
  rw [findOr_eq, find?_put_self h]
  rfl

theorem findOr_congr_rows {b c : Books} (h : b.rows t.bucket = c.rows t.bucket) (key : κ)
    (fallback : ρ) : b.findOr t key fallback = c.findOr t key fallback := by
  rw [findOr_eq, findOr_eq, find?_congr_rows h]

theorem findOr_of_has {b : Books} {key : κ} (h : b.has t key = false) (fallback : ρ) :
    b.findOr t key fallback = .ok fallback := by
  have hraw : b.raw? t key = none := Option.not_isSome_iff_eq_none.mp (by
    show ¬ b.has t key = true
    rw [h]
    exact Bool.false_ne_true)
  unfold findOr
  rw [hraw]

/-- Records with different keys may be put in any order. -/
theorem put_comm_of_ne (ht : t.Keyed) {r s : ρ} (h : t.keyOf r ≠ t.keyOf s) (b : Books) :
    (b.put t r).put t s = (b.put t s).put t r := by
  apply ext_rows
  intro bucket
  by_cases hb : bucket = t.bucket
  · subst hb
    rw [rows_put_self, rows_put_self, rows_put_self, rows_put_self]
    apply Rows.ext_get?
    intro k
    rw [Rows.get?_insert, Rows.get?_insert, Rows.get?_insert, Rows.get?_insert]
    -- no key is that of both
    by_cases hr : t.encodeKey (t.keyOf r) = k
    · have hs : t.encodeKey (t.keyOf s) ≠ k := fun hs => h (ht.encodeKey_inj (hr.trans hs.symm))
      rw [if_pos hr, if_pos hr, if_neg hs]
    · rw [if_neg hr, if_neg hr]
  · rw [rows_put hb, rows_put hb, rows_put hb, rows_put hb]

end Books

namespace Revision

/-- Make the revision. -/
def run (v : Revision t) (b : Books) : Except StoreError Books :=
  b.revise t v.key v.fallback v.change

theorem keyOf_found (ht : t.Keyed) {v : Revision t} {b : Books} {r : ρ}
    (h : b.findOr t v.key v.fallback = .ok r) : t.keyOf r = v.key := by
  rcases Books.findOr_eq_ok h with ⟨-, rfl⟩ | hfind
  · exact v.keyOf_fallback
  · exact Books.keyOf_find? ht hfind

theorem run_of_findOr {v : Revision t} {b : Books} {r : ρ}
    (h : b.findOr t v.key v.fallback = .ok r) : v.run b = .ok (b.put t (v.change r)) := by
  unfold run Books.revise
  rw [h]
  rfl

/-- A revision of a record that has just been put. -/
theorem run_put (v : Revision t) {r : ρ} (hkey : t.keyOf r = v.key) (hkeeps : t.Keeps r)
    (b : Books) : v.run (b.put t r) = .ok (b.put t (v.change r)) := by
  have hfind : (b.put t r).findOr t v.key v.fallback = .ok r := by
    rw [← hkey]
    exact Books.findOr_put_self hkeeps b _
  rw [run_of_findOr hfind, Books.put_put (hkey.trans (v.keyOf_change r hkey).symm)]

end Revision

end Store

namespace Interchange

variable {κ ρ κ' ρ' : Type} {t : Table κ ρ} {u : Table κ' ρ'} {P : Books → Prop}

theorem of_bucket (h : t.bucket ≠ u.bucket) (v : Revision t) (w : Revision u) :
    Interchange P v.run w.run := by
  intro b b₁ c _ hv hw
  obtain ⟨r, hr, rfl⟩ := Books.revise_eq_ok hv
  obtain ⟨s, hs, rfl⟩ := Books.revise_eq_ok hw
  rw [Books.findOr_put_of_bucket h] at hs
  refine ⟨b.put u (w.change s), Revision.run_of_findOr hs, ?_⟩
  rw [Books.put_comm h]
  refine Revision.run_of_findOr ?_
  rw [Books.findOr_put_of_bucket (Ne.symm h)]
  exact hr

theorem of_key (ht : t.Keyed) {v w : Revision t} (h : v.key ≠ w.key) :
    Interchange P v.run w.run := by
  intro b b₁ c _ hv hw
  obtain ⟨r, hr, rfl⟩ := Books.revise_eq_ok hv
  obtain ⟨s, hs, rfl⟩ := Books.revise_eq_ok hw
  have hrkey := v.keyOf_change r (Revision.keyOf_found ht hr)
  rw [Books.findOr_put_of_ne ht (by rw [hrkey]; exact Ne.symm h)] at hs
  have hskey := w.keyOf_change s (Revision.keyOf_found ht hs)
  refine ⟨b.put t (w.change s), Revision.run_of_findOr hs, ?_⟩
  rw [Books.put_comm_of_ne ht (by rw [hrkey, hskey]; exact h)]
  refine Revision.run_of_findOr ?_
  rw [Books.findOr_put_of_ne ht (by rw [hskey]; exact h)]
  exact hr

/-- Revisions of one record, whose changes may change places. -/
theorem of_change (ht : t.Keyed) {v w : Revision t} (hkey : w.key = v.key)
    (hfallback : w.fallback = v.fallback)
    (hchange : ∀ r, v.change (w.change r) = w.change (v.change r))
    (hkeeps : ∀ {b r}, P b → b.findOr t v.key v.fallback = .ok r →
      t.Keeps (v.change r) ∧ t.Keeps (w.change r)) : Interchange P v.run w.run := by
  intro b b₁ c hb hv hw
  obtain ⟨r, hr, rfl⟩ := Books.revise_eq_ok hv
  obtain ⟨hkeepsv, hkeepsw⟩ := hkeeps hb hr
  have hr' : b.findOr t w.key w.fallback = .ok r := by
    rw [hkey, hfallback]
    exact hr
  have hvkey := v.keyOf_change r (Revision.keyOf_found ht hr)
  have hwkey := w.keyOf_change r (Revision.keyOf_found ht hr')
  -- each of them finds what the other has left
  rw [w.run_put (hvkey.trans hkey.symm) hkeepsv] at hw
  obtain rfl := Except.ok.inj hw
  refine ⟨b.put t (w.change r), Revision.run_of_findOr hr', ?_⟩
  rw [v.run_put (hwkey.trans hkey) hkeepsw, hchange]

end Interchange

/-! ## §3. Changes that may change places. -/

theorem Word.satAdd_right_comm {bits : Nat} (a b c : Word bits) :
    (a.satAdd b).satAdd c = (a.satAdd c).satAdd b := by
  rw [Word.satAdd_assoc, Word.satAdd_comm b, ← Word.satAdd_assoc]

namespace NameSet

theorem insert_comm (a b : String) (s : NameSet) :
    (s.insert a).insert b = (s.insert b).insert a := by
  refine ext_mem fun name => ?_
  rw [mem_insert, mem_insert, mem_insert, mem_insert]
  exact or_left_comm

end NameSet

namespace Account

theorem recordTransfer_comm (a : Account) (exchange exchange' : String) (value value' : Amount) :
    (a.recordTransfer exchange value).recordTransfer exchange' value'
      = (a.recordTransfer exchange' value').recordTransfer exchange value := by
  unfold recordTransfer
  simp only
  rw [Word.satAdd_right_comm, NameSet.insert_comm]

theorem recordSpend_comm (a : Account) (value value' : Amount) :
    (a.recordSpend value).recordSpend value' = (a.recordSpend value').recordSpend value := by
  unfold recordSpend
  simp only
  rw [Word.satAdd_right_comm]

end Account

theorem PricedSwap.noted_of_ne {swap : PricedSwap} {token : Address}
    (h : token ≠ swap.call.tokenOut) (row : Token) : swap.noted token row = row := if_neg h

/-! ## §4. The revisions of a booking. -/

/-- The credit of a transfer. -/
def crediting (exchange : String) (recipient : Address) (value : Amount) :
    Revision .accounts where
  key := recipient
  fallback := .new recipient
  change a := a.recordTransfer exchange value
  keyOf_fallback := rfl
  keyOf_change _ h := h

namespace PricedSwap

variable (swap : PricedSwap)

/-- The note of a token of the path. -/
def noting (p : Address × Metadata) : Revision .tokens where
  key := p.1
  fallback := .new p.1 p.2.symbol p.2.decimals
  change := swap.noted p.1
  keyOf_fallback := rfl
  keyOf_change row h := (swap.address_noted p.1 row).trans h

/-- The count of the pattern with an exchange. -/
def counting (name : String) : Revision .patterns where
  key := ⟨swap.call.tokenOut, name⟩
  fallback := .new swap.call.tokenOut name
  change p := p.record swap.call.amountIn
  keyOf_fallback := rfl
  keyOf_change _ h := h

/-- The note of the swap itself. -/
def recording : Revision .swaps where
  key := swap.txHash
  fallback := swap.record
  change _ := swap.record
  keyOf_fallback := rfl
  keyOf_change _ _ := rfl

/-- The debit of the wallet. -/
def debiting : Revision .accounts where
  key := swap.wallet
  fallback := .new swap.wallet
  change a := a.recordSpend swap.call.amountIn
  keyOf_fallback := rfl
  keyOf_change _ h := h

/-- All revisions by which a swap is booked, if these exchanges have funded its
wallet. -/
def steps (names : NameSet) : List (Books → Except StoreError Books) :=
  swap.tokens.map (fun p => (swap.noting p).run)
    ++ (names.toList.map (fun name => (swap.counting name).run)
    ++ [swap.recording.run, swap.debiting.run])

end PricedSwap

/-- A revision that belongs to the booking of a resolution. -/
inductive Resolution.Step : Resolution → (Books → Except StoreError Books) → Prop
  | credit {exchange recipient value} :
      Step (.transfer exchange recipient value) (crediting exchange recipient value).run
  | note {swap p} (hp : p ∈ swap.tokens) : Step (.swap swap) (swap.noting p).run
  | count {swap} (name : String) : Step (.swap swap) (swap.counting name).run
  | record {swap} : Step (.swap swap) swap.recording.run
  | debit {swap} : Step (.swap swap) swap.debiting.run

theorem PricedSwap.step_of_mem {swap : PricedSwap} {names : NameSet}
    {f : Books → Except StoreError Books} (h : f ∈ swap.steps names) :
    (Resolution.swap swap).Step f := by
  rcases List.mem_append.mp h with h | h
  · obtain ⟨p, hp, rfl⟩ := List.mem_map.mp h
    exact .note hp
  · rcases List.mem_append.mp h with h | h
    · obtain ⟨name, -, rfl⟩ := List.mem_map.mp h
      exact .count name
    · rcases List.mem_pair.mp h with rfl | rfl
      · exact .record
      · exact .debit

/-- Two resolutions that do not meddle with each other: neither funds the wallet of the
other, and as swaps they have different hashes, buy different tokens, and have been told
the same of those that are on both paths. -/
structure Resolution.Apart (r₁ r₂ : Resolution) : Prop where
  unfunded : ∀ swap, r₂ = .swap swap → r₁.funder? swap.wallet = none
  unfunding : ∀ swap, r₁ = .swap swap → r₂.funder? swap.wallet = none
  hashes : ∀ s₁ s₂, r₁ = .swap s₁ → r₂ = .swap s₂ → s₁.txHash ≠ s₂.txHash
  bought : ∀ s₁ s₂, r₁ = .swap s₁ → r₂ = .swap s₂ → s₁.call.tokenOut ≠ s₂.call.tokenOut
  told : ∀ s₁ s₂, r₁ = .swap s₁ → r₂ = .swap s₂ →
    ∀ p ∈ s₁.tokens, ∀ q ∈ s₂.tokens, p.1 = q.1 → p = q

theorem Resolution.Apart.symm {r₁ r₂ : Resolution} (h : r₁.Apart r₂) : r₂.Apart r₁ where
  unfunded := h.unfunding
  unfunding := h.unfunded
  hashes s₁ s₂ h₁ h₂ := (h.hashes s₂ s₁ h₂ h₁).symm
  bought s₁ s₂ h₁ h₂ := (h.bought s₂ s₁ h₂ h₁).symm
  told s₁ s₂ h₁ h₂ p hp q hq hpq := (h.told s₂ s₁ h₂ h₁ q hq p hp hpq.symm).symm

section

variable {exchanges : ExchangeSet}

/-- The revision is one of an account, which gets no names but those of exchanges. -/
structure Store.Revision.Enters (exchanges : ExchangeSet) (v : Revision .accounts) : Prop where
  fallback : v.fallback = .new v.key
  address : ∀ a, (v.change a).address = a.address
  names : ∀ a, ∀ name ∈ (v.change a).fromExchanges,
    name ∈ a.fromExchanges ∨ ∃ owned, exchanges.nameOf? owned = some name

theorem enters_crediting {exchange : String} (h : ∃ owned, exchanges.nameOf? owned = some exchange)
    (recipient : Address) (value : Amount) :
    (crediting exchange recipient value).Enters exchanges where
  fallback := rfl
  address _ := rfl
  names a name hmem := by
    rcases NameSet.mem_insert.mp hmem with rfl | hold
    · exact .inr h
    · exact .inl hold

theorem enters_debiting (swap : PricedSwap) : swap.debiting.Enters exchanges where
  fallback := rfl
  address _ := rfl
  names _ _ hmem := .inl hmem

variable (hx : exchanges.Short)

include hx

theorem Interchange.of_accounts {v w : Revision .accounts} (hv : v.Enters exchanges)
    (hw : w.Enters exchanges) (hchange : ∀ a, v.change (w.change a) = w.change (v.change a)) :
    Interchange exchanges.RoomIn v.run w.run := by
  by_cases hkey : w.key = v.key
  · refine .of_change Table.keyed_accounts hkey ?_ hchange fun hroom hfound => ?_
    · rw [hw.fallback, hv.fallback, hkey]
    · rw [hv.fallback] at hfound
      exact ⟨hroom.keeps hx hfound (hv.names _), hroom.keeps hx hfound (hw.names _)⟩
  · exact .of_key Table.keyed_accounts (Ne.symm hkey)

theorem Preserves.of_accounts {v : Revision .accounts} (hv : v.Enters exchanges) :
    Preserves exchanges.RoomIn v.run := by
  intro b b' hroom h
  unfold Revision.run at h
  rw [hv.fallback] at h
  exact hroom.revise hx h hv.address hv.names

omit hx in
theorem Preserves.of_bucket {κ ρ : Type} {t : Table κ ρ} (v : Revision t)
    (ht : Bucket.account ≠ t.bucket) : Preserves exchanges.RoomIn v.run :=
  fun _ _ hroom h => hroom.congr_rows (Books.rows_revise h ht)

namespace Resolution.Step

variable {r₁ r₂ r : Resolution} {f g : Books → Except StoreError Books}

theorem preserves (hr : r.Sound exchanges) (hf : r.Step f) : Preserves exchanges.RoomIn f := by
  cases hf with
  | credit => exact .of_accounts hx (enters_crediting hr _ _)
  | note => exact .of_bucket _ (by decide)
  | count => exact .of_bucket _ (by decide)
  | record => exact .of_bucket _ (by decide)
  | debit => exact .of_accounts hx (enters_debiting _)

/-- **The revisions of one booking may change places with those of another**: most are of
different buckets, and the others of different records or in agreement. -/
theorem interchange (h₁ : r₁.Sound exchanges) (h₂ : r₂.Sound exchanges) (hapart : r₁.Apart r₂)
    (hf : r₁.Step f) (hg : r₂.Step g) : Interchange exchanges.RoomIn f g := by
  cases hf with
  | credit =>
    cases hg with
    | credit =>
      exact .of_accounts hx (enters_crediting h₁ _ _) (enters_crediting h₂ _ _)
        fun a => a.recordTransfer_comm _ _ _ _
    | debit => exact .of_accounts hx (enters_crediting h₁ _ _) (enters_debiting _) fun _ => rfl
    | note | count | record => exact .of_bucket (by decide) _ _
  | debit =>
    cases hg with
    | credit => exact .of_accounts hx (enters_debiting _) (enters_crediting h₂ _ _) fun _ => rfl
    | debit =>
      exact .of_accounts hx (enters_debiting _) (enters_debiting _) fun a => a.recordSpend_comm _ _
    | note | count | record => exact .of_bucket (by decide) _ _
  | @note s₁ p hp =>
    cases hg with
    | @note s₂ q hq =>
      by_cases hkey : q.1 = p.1
      · -- only one of the two swaps can have bought this token
        obtain rfl := hapart.told s₁ s₂ rfl rfl p hp q hq hkey.symm
        refine .of_change Table.keyed_tokens rfl rfl (fun row => ?_) fun _ hfound =>
          ⟨keeps_noted s₁ (h₁.short_symbols p hp) hfound,
            keeps_noted s₂ (h₁.short_symbols p hp) hfound⟩
        show s₁.noted p.1 (s₂.noted p.1 row) = s₂.noted p.1 (s₁.noted p.1 row)
        by_cases hout : p.1 = s₁.call.tokenOut
        · have hother : p.1 ≠ s₂.call.tokenOut := by
            rw [hout]
            exact hapart.bought s₁ s₂ rfl rfl
          rw [PricedSwap.noted_of_ne hother, PricedSwap.noted_of_ne hother]
        · rw [PricedSwap.noted_of_ne hout, PricedSwap.noted_of_ne hout]
      · exact .of_key Table.keyed_tokens (Ne.symm hkey)
    | credit | count | record | debit => exact .of_bucket (by decide) _ _
  | @count s₁ name =>
    cases hg with
    | @count s₂ name' =>
      refine .of_key Table.keyed_patterns fun hkey => ?_
      exact hapart.bought s₁ s₂ rfl rfl (PatternKey.mk.inj hkey).1
    | credit | note | record | debit => exact .of_bucket (by decide) _ _
  | @record s₁ =>
    cases hg with
    | @record s₂ => exact .of_key Table.keyed_swaps (hapart.hashes s₁ s₂ rfl rfl)
    | credit | note | count | debit => exact .of_bucket (by decide) _ _

end Resolution.Step

end

/-! ## §5. What a booking does. -/

/-- The names in the account of a wallet; none where it has no account. -/
def namesOf (b : Books) (wallet : Address) : Except StoreError NameSet :=
  (b.findOr .accounts wallet (.new wallet)).map Account.fromExchanges

theorem run_crediting (exchange : String) (recipient : Address) (value : Amount) (b : Books) :
    (crediting exchange recipient value).run b = bookTransfer exchange recipient value b :=
  (bookTransfer_eq b exchange recipient value).symm

theorem bookTokens_eq (swap : PricedSwap) (tokens : List (Address × Metadata)) (b : Books) :
    bookTokens swap tokens b = inTurn (tokens.map fun p => (swap.noting p).run) b := by
  induction tokens generalizing b with
  | nil => rfl
  | cons p tokens ih =>
    rw [bookTokens_cons, bookToken_eq, funext ih]
    rfl

theorem bookPatterns_eq (swap : PricedSwap) (names : List String) (b : Books) :
    bookPatterns swap.call.tokenOut swap.call.amountIn names b
      = inTurn (names.map fun name => (swap.counting name).run) b := by
  induction names generalizing b with
  | nil => rfl
  | cons name names ih =>
    rw [bookPatterns_cons, bookPattern_eq, funext ih]
    rfl

/-- The last two revisions of a swap: it is put among the others, and its wallet is
debited. -/
theorem inTurn_recording_debiting {swap : PricedSwap} {b : Books} {account : Account}
    (hnew : b.has .swaps swap.txHash = false)
    (haccount : b.findOr .accounts swap.wallet (.new swap.wallet) = .ok account) :
    inTurn [swap.recording.run, swap.debiting.run] b
      = .ok ((b.put .swaps swap.record).put .accounts
          (account.recordSpend swap.call.amountIn)) := by
  have hswap : b.findOr .swaps swap.txHash swap.record = .ok swap.record :=
    Books.findOr_of_has hnew _
  have hdebit : (b.put .swaps swap.record).findOr .accounts swap.wallet (.new swap.wallet)
      = .ok account := by
    rw [Books.findOr_put_of_bucket (by decide)]
    exact haccount
  have hrecord : swap.recording.run b = .ok (b.put .swaps swap.record) :=
    Revision.run_of_findOr (v := swap.recording) hswap
  rw [inTurn_cons_of_ok hrecord,
    inTurn_cons_of_ok (Revision.run_of_findOr (v := swap.debiting) hdebit)]
  rfl

/-- **A swap that is not in the books yet is booked by its revisions.** -/
theorem bookSwap_eq_steps {swap : PricedSwap} {b : Books} {names : NameSet}
    (hnew : b.has .swaps swap.txHash = false) (hnames : namesOf b swap.wallet = .ok names) :
    bookSwap swap b = inTurn (swap.steps names) b := by
  unfold namesOf at hnames
  cases haccount : b.findOr .accounts swap.wallet (.new swap.wallet) with
  | error e =>
    rw [haccount] at hnames
    exact nomatch hnames
  | ok account =>
    rw [haccount] at hnames
    obtain rfl : account.fromExchanges = names := Except.ok.inj hnames
    unfold PricedSwap.steps
    rw [bookSwap_eq, haccount, inTurn_append, ← bookTokens_eq]
    show (bookTokens swap swap.tokens b >>= _) = _
    cases h₁ : bookTokens swap swap.tokens b with
    | error e => rfl
    | ok b₁ =>
      show (bookPatterns _ _ account.fromExchanges.toList b₁ >>= _) = inTurn _ b₁
      rw [inTurn_append, ← bookPatterns_eq]
      cases h₂ : bookPatterns swap.call.tokenOut swap.call.amountIn
          account.fromExchanges.toList b₁ with
      | error e => rfl
      | ok b₂ =>
        -- neither swaps nor accounts have been touched so far
        have hrows : ∀ {bucket : Bucket}, bucket ≠ .token → bucket ≠ .pattern →
            b₂.rows bucket = b.rows bucket := fun htoken hpattern =>
          (rows_bookPatterns h₂ hpattern).trans (rows_bookTokens h₁ htoken)
        rw [← Books.has_congr_rows (t := .swaps) (hrows (by decide) (by decide))] at hnew
        rw [← Books.findOr_congr_rows (t := .accounts) (hrows (by decide) (by decide))] at haccount
        exact (inTurn_recording_debiting hnew haccount).symm

/-- What is done about a resolution that finds the books `b`, and with which outcome. -/
inductive Resolution.Does (b : Books) :
    Resolution → Outcome → List (Books → Except StoreError Books) → Prop
  | transfer {exchange recipient value} :
      Does b (.transfer exchange recipient value) .transfer
        [(crediting exchange recipient value).run]
  | swap {swap names} : b.has .swaps swap.txHash = false → namesOf b swap.wallet = .ok names →
      Does b (.swap swap) .swap (swap.steps names)
  | again {swap} : b.has .swaps swap.txHash = true → Does b (.swap swap) .skipped []
  | skipped {reason} : Does b (.skipped reason) .skipped []
  | ignored {reason} : Does b (.ignored reason) .ignored []

/-- The resolution finds the same in `c` as in `b`. -/
def Resolution.Alike (r : Resolution) (b c : Books) : Prop :=
  ∀ swap, r = .swap swap → c.has .swaps swap.txHash = b.has .swaps swap.txHash
    ∧ namesOf c swap.wallet = namesOf b swap.wallet

theorem Resolution.Alike.symm {r : Resolution} {b c : Books} (h : r.Alike b c) : r.Alike c b :=
  fun swap hs => ⟨(h swap hs).1.symm, (h swap hs).2.symm⟩

namespace Resolution.Does

variable {b b' c : Books} {r : Resolution} {outcome : Outcome}
  {fs : List (Books → Except StoreError Books)}

theorem step (h : r.Does b outcome fs) : ∀ f ∈ fs, r.Step f := by
  cases h with
  | transfer =>
    intro f hf
    obtain rfl := List.mem_singleton.mp hf
    exact .credit
  | swap => exact fun f hf => PricedSwap.step_of_mem hf
  | again | skipped | ignored => exact nofun

theorem of_alike (h : r.Does b outcome fs) (halike : r.Alike b c) : r.Does c outcome fs := by
  cases h with
  | transfer => exact .transfer
  | swap hnew hnames =>
    obtain ⟨hhas, hsame⟩ := halike _ rfl
    exact .swap (hhas.trans hnew) (hsame.trans hnames)
  | again hthere => exact .again ((halike _ rfl).1.trans hthere)
  | skipped => exact .skipped
  | ignored => exact .ignored

theorem of_book (h : book r b = .ok (outcome, b')) :
    ∃ fs, r.Does b outcome fs ∧ inTurn fs b = .ok b' := by
  rcases book_cases h with
    ⟨exchange, recipient, value, rfl, rfl, hbook⟩ | ⟨swap, rfl, hnew, rfl, hbook⟩
    | ⟨swap, rfl, hthere, rfl, rfl⟩ | ⟨_, rfl, rfl, rfl⟩ | ⟨_, rfl, rfl, rfl⟩
  · have hrun : (crediting exchange recipient value).run b = .ok b' :=
      (run_crediting ..).trans hbook
    exact ⟨_, .transfer, inTurn_cons_of_ok hrun⟩
  · obtain ⟨account, -, -, haccount, -, -, -⟩ := bookSwap_eq_ok hbook
    have hnames : namesOf b swap.wallet = .ok account.fromExchanges := by
      unfold namesOf
      rw [haccount]
      rfl
    exact ⟨_, .swap hnew hnames, (bookSwap_eq_steps hnew hnames).symm.trans hbook⟩
  · exact ⟨[], .again hthere, rfl⟩
  · exact ⟨[], .skipped, rfl⟩
  · exact ⟨[], .ignored, rfl⟩

theorem book (h : r.Does b outcome fs) (hrun : inTurn fs b = .ok b') :
    FundTrail.book r b = .ok (outcome, b') := by
  cases h with
  | @transfer exchange recipient value =>
    obtain ⟨b₁, hcredit, hnil⟩ := exists_ok_of_bind hrun
    obtain rfl := Except.ok.inj hnil
    rw [book_transfer, ← run_crediting, hcredit]
    rfl
  | @swap swap names hnew hnames =>
    rw [book_swap, hnew, if_neg Bool.false_ne_true, bookSwap_eq_steps hnew hnames, hrun]
    rfl
  | @again swap hthere =>
    obtain rfl := Except.ok.inj hrun
    rw [book_swap, hthere]
    rfl
  | skipped =>
    obtain rfl := Except.ok.inj hrun
    rfl
  | ignored =>
    obtain rfl := Except.ok.inj hrun
    rfl

end Resolution.Does

/-! ## §6. What a booking leaves as it is. -/

section

variable {b b' : Books}

theorem namesOf_congr_rows (h : b'.rows .account = b.rows .account) (wallet : Address) :
    namesOf b' wallet = namesOf b wallet := by
  unfold namesOf
  rw [Books.findOr_congr_rows (t := .accounts) h]

/-- The names are those from before wherever a revision of accounts has not put another
one. -/
theorem namesOf_of_run {v : Revision .accounts} (h : v.run b = .ok b')
    (hfallback : v.fallback = .new v.key) {wallet : Address}
    (hsame : ∀ {a}, wallet = v.key → b.findOr .accounts v.key (.new v.key) = .ok a →
      Table.accounts.Keeps (v.change a) ∧ (v.change a).fromExchanges = a.fromExchanges) :
    namesOf b' wallet = namesOf b wallet := by
  obtain ⟨a, ha, rfl⟩ := Books.revise_eq_ok h
  have hkey := v.keyOf_change a (Revision.keyOf_found Table.keyed_accounts ha)
  rw [hfallback] at ha
  unfold namesOf
  by_cases hwallet : wallet = v.key
  · obtain ⟨hkeeps, hnames⟩ := hsame hwallet ha
    have hput := Books.findOr_put_self hkeeps b (.new wallet)
    rw [hkey, ← hwallet] at hput
    rw [hput, hwallet, ha]
    exact congrArg Except.ok hnames
  · rw [Books.findOr_put_of_ne Table.keyed_accounts (by rw [hkey]; exact hwallet)]

/-- **A booking leaves for another one what that looks for in the books.** -/
theorem alike_book {exchanges : ExchangeSet} (hx : exchanges.Short) (hroom : exchanges.RoomIn b)
    {r r' : Resolution} {outcome : Outcome} (hapart : r.Apart r')
    (h : book r b = .ok (outcome, b')) : r'.Alike b b' := by
  rintro swap' rfl
  constructor
  · -- its hash is not the one that has been put
    have hhas := has_book h swap'.txHash
    have hnot : swap'.txHash ∉ (r.notes outcome).map Swap.txHash := by
      rcases book_cases h with
        ⟨_, _, _, rfl, rfl, -⟩ | ⟨swap, rfl, -, rfl, -⟩
        | ⟨_, rfl, -, rfl, -⟩ | ⟨_, rfl, rfl, -⟩ | ⟨_, rfl, rfl, -⟩
      · exact List.not_mem_nil
      · exact fun hmem => hapart.hashes swap swap' rfl rfl (List.mem_singleton.mp hmem).symm
      · exact List.not_mem_nil
      · exact List.not_mem_nil
      · exact List.not_mem_nil
    exact Bool.eq_iff_iff.mpr (hhas.trans (or_iff_right hnot))
  · rcases book_cases h with
      ⟨exchange, recipient, value, rfl, -, hbook⟩ | ⟨swap, rfl, -, -, hbook⟩
      | ⟨_, -, -, -, rfl⟩ | ⟨_, -, -, rfl⟩ | ⟨_, -, -, rfl⟩
    · -- the wallet that is funded is another one
      rw [← run_crediting] at hbook
      refine namesOf_of_run hbook rfl fun hwallet _ => ?_
      have hunfunded := hapart.unfunded swap' rfl
      rw [show (Resolution.transfer exchange recipient value).funder? swap'.wallet
        = some exchange from if_pos hwallet] at hunfunded
      exact nomatch hunfunded
    · -- a debit puts no name
      obtain ⟨debited, hdebit, hrows⟩ := rows_account_bookSwap hbook
      rw [namesOf_congr_rows hrows]
      refine namesOf_of_run (v := swap.debiting) hdebit rfl fun _ ha => ⟨?_, rfl⟩
      exact hroom.keeps hx ha fun _ hmem => .inl hmem
    · rfl
    · rfl
    · rfl

end

/-! ## §7. Two bookings, and those around them. -/

section

variable {exchanges : ExchangeSet} (hx : exchanges.Short) {r₁ r₂ : Resolution}
  (h₁ : r₁.Sound exchanges) (h₂ : r₂.Sound exchanges) (hapart : r₁.Apart r₂)

include hx h₁ h₂ hapart

/-- **Resolutions that do not meddle with each other may be booked in any order.** -/
theorem book_interchange {b b₁ c : Books} {o₁ o₂ : Outcome} (hroom : exchanges.RoomIn b)
    (hfirst : book r₁ b = .ok (o₁, b₁)) (hsecond : book r₂ b₁ = .ok (o₂, c)) :
    ∃ b₂, book r₂ b = .ok (o₂, b₂) ∧ book r₁ b₂ = .ok (o₁, c) := by
  obtain ⟨fs, hfs, hfrun⟩ := Resolution.Does.of_book hfirst
  obtain ⟨gs, hgs, hgrun⟩ := Resolution.Does.of_book hsecond
  have hchange : Interchange exchanges.RoomIn (inTurn fs) (inTurn gs) :=
    .inTurn_inTurn
      (fun f hf g hg => (hfs.step f hf).interchange hx h₁ h₂ hapart (hgs.step g hg))
      (fun f hf => (hfs.step f hf).preserves hx h₁)
      (fun g hg => (hgs.step g hg).preserves hx h₂)
  obtain ⟨b₂, hgrun₂, hfrun₂⟩ := hchange b b₁ c hroom hfrun hgrun
  -- each finds the books as it has found them before
  have hsecond₂ : book r₂ b = .ok (o₂, b₂) :=
    (hgs.of_alike (alike_book hx hroom hapart hfirst).symm).book hgrun₂
  exact ⟨b₂, hsecond₂,
    (hfs.of_alike (alike_book hx hroom hapart.symm hsecond₂)).book hfrun₂⟩

/-- **So may they among others.** -/
theorem bookAll_interchange {rs rs' : List Resolution} (hrs : ∀ r ∈ rs, r.Sound exchanges)
    {b c : Books} (hroom : exchanges.RoomIn b) {outcomes : List Outcome}
    (h : bookAll (rs ++ r₁ :: r₂ :: rs') b = .ok (outcomes, c)) :
    ∃ outcomes', bookAll (rs ++ r₂ :: r₁ :: rs') b = .ok (outcomes', c)
      ∧ outcomes'.Perm outcomes := by
  induction rs generalizing b outcomes with
  | nil =>
    obtain ⟨o₁, _, b₁, hfirst, hrest, rfl⟩ := bookAll_cons_eq_ok h
    obtain ⟨o₂, rest, c', hsecond, hlast, rfl⟩ := bookAll_cons_eq_ok hrest
    obtain ⟨b₂, hsecond₂, hfirst₂⟩ := book_interchange hx h₁ h₂ hapart hroom hfirst hsecond
    refine ⟨o₂ :: o₁ :: rest, ?_, .swap _ _ _⟩
    exact bookAll_cons_of_ok hsecond₂ (bookAll_cons_of_ok hfirst₂ hlast)
  | cons r rs ih =>
    obtain ⟨outcome, rest, b₁, hfirst, hrest, rfl⟩ := bookAll_cons_eq_ok h
    obtain ⟨-, hroom₁⟩ := grown_book hroom hx (hrs r List.mem_cons_self) hfirst
    obtain ⟨rest', hrest', hperm⟩ :=
      ih (fun r hr => hrs r (List.mem_cons_of_mem _ hr)) hroom₁ hrest
    exact ⟨outcome :: rest', bookAll_cons_of_ok hfirst hrest', hperm.cons outcome⟩

end

end FundTrail
