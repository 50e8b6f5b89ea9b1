/-
  FundTrail.Proofs.Engine.Onward
  ──────────────────────────────
  **WHAT THE NEXT TRANSACTION FINDS.**

  When the first transactions of a block have been booked, the next one finds the
  books it would have been told of: a wallet has an account where it had one or
  has been funded, and tokens say what they have always said.  And as nobody
  looks at the cursor, it does not matter whether it was moved in between.

  Main facts: `OverlooksCursor.resolutions` and `onward_bookAll`.
-/
import FundTrail.Proofs.Engine.Bookable
import FundTrail.Proofs.Engine.Steady

namespace FundTrail

open FundTrail.Store

/-! ## §1. Nobody looks at the cursor. -/

/-- An edit that writes a row, and not among the cursors. -/
def Store.Edit.SparesCursor (e : Edit) : Prop := ∃ w : Write, e = .set w ∧ w.1 ≠ .cursor

theorem Store.Books.edited_put_cursor {edits : List Edit} (h : ∀ e ∈ edits, e.SparesCursor)
    (b : Books) (c : Cursor) :
    (b.put .cursor c).edited edits = (b.edited edits).put .cursor c := by
  induction edits generalizing b with
  | nil => rfl
  | cons e edits ih =>
    obtain ⟨w, rfl, hw⟩ := h e List.mem_cons_self
    have hcomm : (b.put .cursor c).putRaw w.1 w.2.1 w.2.2
        = (b.putRaw w.1 w.2.1 w.2.2).put .cursor c :=
      Books.putRaw_comm (Ne.symm hw) b _ _ _ _
    show ((b.put .cursor c).putRaw w.1 w.2.1 w.2.2).edited edits = _
    rw [hcomm, ih fun e he => h e (List.mem_cons_of_mem _ he)]
    rfl

/-- The work does the same wherever the cursor stands, and does not move it. -/
structure OverlooksCursor {α : Type} (x : Work StoreError α) : Prop where
  on_put (b : Books) (c : Cursor) : x.on (b.put .cursor c) = x.on b
  edits (b : Books) : ∀ e ∈ (x.on b).1, e.SparesCursor

namespace OverlooksCursor

variable {α β κ ρ : Type}

/-- So it comes to the same, with the cursor as it stands. -/
theorem run_put {x : Work StoreError α} (h : OverlooksCursor x) (b : Books) (c : Cursor) :
    x.run (b.put .cursor c) = (x.run b).map fun p => (p.1, p.2.put .cursor c) := by
  unfold Work.run
  rw [h.on_put, Books.edited_put_cursor (h.edits b)]
  cases (x.on b).2 <;> rfl

protected theorem pure (a : α) : OverlooksCursor (pure a : Work StoreError α) :=
  ⟨fun _ _ => rfl, fun _ => nofun⟩

theorem read {f : Books → Except StoreError α} (h : ∀ b c, f (b.put .cursor c) = f b) :
    OverlooksCursor (Work.read f) :=
  ⟨fun b c => congrArg (Prod.mk []) (h b c), fun _ => nofun⟩

theorem put {t : Table κ ρ} (h : t.bucket ≠ .cursor) (r : ρ) :
    OverlooksCursor (Work.put t r : Work StoreError Unit) := by
  refine ⟨fun _ _ => rfl, fun b e he => ?_⟩
  obtain rfl := List.mem_singleton.mp he
  exact ⟨_, rfl, h⟩

theorem bind {x : Work StoreError α} {f : α → Work StoreError β} (hx : OverlooksCursor x)
    (hf : ∀ a, OverlooksCursor (f a)) : OverlooksCursor (x >>= f) := by
  constructor
  · intro b c
    rcases hon : x.on b with ⟨edits, error | a⟩
    · rw [Work.on_bind_of_error hon, Work.on_bind_of_error ((hx.on_put b c).trans hon)]
    · -- the draft that is handed on is the same but for the cursor
      have hedits := hx.edits b
      rw [hon] at hedits
      rw [Work.on_bind_of_ok hon, Work.on_bind_of_ok ((hx.on_put b c).trans hon),
        Books.edited_put_cursor hedits, (hf a).on_put]
  · intro b e he
    have hedits := hx.edits b
    rcases hon : x.on b with ⟨edits, error | a⟩
    all_goals rw [hon] at hedits
    · rw [Work.on_bind_of_error hon] at he
      exact hedits e he
    · rw [Work.on_bind_of_ok hon] at he
      rcases List.mem_append.mp he with he | he
      · exact hedits e he
      · exact (hf a).edits _ e he

theorem revise {t : Table κ ρ} (h : t.bucket ≠ .cursor) (key : κ) (fallback : ρ)
    (change : ρ → ρ) : OverlooksCursor (Work.revise t key fallback change) :=
  (read fun b c => Books.findOr_put_of_bucket (t := t) (u := .cursor) (Ne.symm h) b c key
    fallback).bind fun _ => put h _

theorem tokens (swap : PricedSwap) (tokens : List (Address × Metadata)) :
    OverlooksCursor (Booking.tokens swap tokens) := by
  induction tokens with
  | nil => exact .pure ()
  | cons t tokens ih => exact (revise (t := .tokens) (by decide) t.1 _ _).bind fun _ => ih

theorem patterns (token : Address) (value : Amount) (exchanges : List String) :
    OverlooksCursor (Booking.patterns token value exchanges) := by
  induction exchanges with
  | nil => exact .pure ()
  | cons exchange exchanges ih =>
    exact (revise (t := .patterns) (by decide) _ _ _).bind fun _ => ih

theorem swap (s : PricedSwap) : OverlooksCursor (Booking.swap s) :=
  -- the parts of a booking, in order; none of them has to do with the cursor
  (read fun b c => Books.findOr_put_of_bucket (t := .accounts) (u := .cursor) (by decide) b c
    s.wallet _).bind fun _ =>
  (tokens s s.tokens).bind fun _ =>
  (patterns _ _ _).bind fun _ =>
  (put (t := .swaps) (by decide) s.record).bind fun _ =>
  put (t := .accounts) (by decide) _

/-- A resolution is booked as it would be with the cursor elsewhere. -/
theorem resolution (r : Resolution) : OverlooksCursor (Booking.resolution r) := by
  cases r with
  | transfer exchange recipient value =>
    exact (revise (t := .accounts) (by decide) recipient _ _).bind fun _ => .pure _
  | swap s =>
    refine (read fun b c => ?_).bind fun there => ?_
    · rw [Books.has_put_of_bucket (t := .swaps) (u := .cursor) (by decide)]
    · cases there with
      | true => exact .pure _
      | false => exact (swap s).bind fun _ => .pure _
  | skipped reason => exact .pure _
  | ignored reason => exact .pure _

/-- **So are the resolutions of a block.** -/
theorem resolutions (rs : List Resolution) : OverlooksCursor (Booking.resolutions rs) := by
  induction rs with
  | nil => exact .pure []
  | cons r rs ih => exact (resolution r).bind fun _ => ih.bind fun _ => .pure _

end OverlooksCursor

theorem bookAll_put_cursor (rs : List Resolution) (b : Books) (c : Cursor) :
    bookAll rs (b.put .cursor c) = (bookAll rs b).map fun p => (p.1, p.2.put .cursor c) :=
  (OverlooksCursor.resolutions rs).run_put b c

/-! ## §2. Tokens say what they have always said. -/

section

variable {a : Answers} {b b' : Books}

theorem said_congr_rows (h : b'.rows .token = b.rows .token) (token : Address) :
    a.said b' token = a.said b token := by
  unfold Answers.said
  rw [Books.find?_congr_rows (t := .tokens) h]

theorem said_of_find? {token : Address} {row : Token}
    (h : b.find? .tokens token = .ok (some row)) :
    a.said b token = .ok ⟨row.symbol, row.decimals⟩ := by
  unfold Answers.said
  rw [h]

/-- A token that gets its row says there what it has said before. -/
theorem said_bookToken {swap : PricedSwap} {token : Address} {known : Metadata}
    (hshort : IsShort known.symbol) (hknown : a.said b token = .ok known)
    (h : bookToken swap token known b = .ok b') (other : Address) :
    a.said b' other = a.said b other := by
  rw [bookToken_eq] at h
  obtain ⟨row, hrow, rfl⟩ := Books.revise_eq_ok h
  -- the row that is written, and what it says
  have hfacts : IsShort row.symbol ∧ a.said b token = .ok ⟨row.symbol, row.decimals⟩ := by
    rcases Books.findOr_eq_ok hrow with ⟨-, rfl⟩ | hfind
    · exact ⟨hshort, hknown⟩
    · exact ⟨Books.isShort_of_find?_tokens hfind, said_of_find? hfind⟩
  obtain ⟨hrowShort, hsaid⟩ := hfacts
  have hkey : Table.tokens.keyOf (swap.noted token row) = token :=
    Books.keyOf_change hrow Table.keyed_tokens rfl (swap.address_noted token)
  by_cases hother : other = token
  -- the row that has been written says what the token has said
  · subst hother
    have hput := Books.find?_put_self (t := .tokens) (r := swap.noted other row)
      (Table.keeps_token (by rw [swap.symbol_noted]; exact hrowShort)) b
    rw [hkey] at hput
    rw [said_of_find? hput, hsaid, swap.symbol_noted, swap.decimals_noted]
  · unfold Answers.said
    rw [Books.find?_put_of_ne Table.keyed_tokens (by rw [hkey]; exact hother)]

theorem said_bookTokens {swap : PricedSwap} {tokens : List (Address × Metadata)}
    (hshort : ∀ p ∈ tokens, IsShort p.2.symbol)
    (hknown : ∀ p ∈ tokens, a.said b p.1 = .ok p.2)
    (h : bookTokens swap tokens b = .ok b') (other : Address) :
    a.said b' other = a.said b other := by
  induction tokens generalizing b with
  | nil =>
    obtain rfl := Except.ok.inj h
    rfl
  | cons t tokens ih =>
    rw [bookTokens_cons] at h
    obtain ⟨b₁, h₁, h⟩ := exists_ok_of_bind h
    have hfirst := said_bookToken (hshort t List.mem_cons_self) (hknown t List.mem_cons_self) h₁
    rw [ih (fun p hp => hshort p (List.mem_cons_of_mem _ hp)) ?_ h, hfirst other]
    intro p hp
    rw [hfirst p.1]
    exact hknown p (List.mem_cons_of_mem _ hp)

theorem said_bookSwap {swap : PricedSwap} (hs : swap.Sound)
    (hknown : ∀ p ∈ swap.tokens, a.said b p.1 = .ok p.2) (h : bookSwap swap b = .ok b')
    (other : Address) : a.said b' other = a.said b other := by
  obtain ⟨c, hnoted, hrows⟩ := rows_token_bookSwap h
  rw [said_congr_rows hrows, said_bookTokens hs.short_symbols hknown hnoted]

theorem said_book {exchanges : ExchangeSet} {r : Resolution} (hr : r.Sound exchanges)
    (hknown : ∀ {swap}, r = .swap swap → ∀ p ∈ swap.tokens, a.said b p.1 = .ok p.2)
    {outcome : Outcome} (h : book r b = .ok (outcome, b')) (other : Address) :
    a.said b' other = a.said b other := by
  rcases book_cases h with
    ⟨exchange, recipient, value, rfl, -, hbook⟩ | ⟨swap, rfl, -, -, hbook⟩
    | ⟨_, rfl, -, -, rfl⟩ | ⟨_, rfl, -, rfl⟩ | ⟨_, rfl, -, rfl⟩
  · rw [bookTransfer_eq] at hbook
    exact said_congr_rows (Books.rows_revise hbook (by decide)) other
  · exact said_bookSwap hr (hknown rfl) hbook other
  · rfl
  · rfl
  · rfl

/-! ## §3. Accounts are where they are expected. -/

theorem has_bookTransfer {exchange : String} {recipient : Address} {value : Amount}
    (h : bookTransfer exchange recipient value b = .ok b') (w : Address) :
    b'.has .accounts w = (decide (w = recipient) || b.has .accounts w) := by
  rw [bookTransfer_eq] at h
  exact Books.has_revise h Table.keyed_accounts rfl (fun _ => rfl) w

theorem has_bookSwap {swap : PricedSwap} (hwallet : b.has .accounts swap.wallet = true)
    (h : bookSwap swap b = .ok b') (w : Address) :
    b'.has .accounts w = b.has .accounts w := by
  obtain ⟨c, hrevise, hrows⟩ := rows_account_bookSwap h
  rw [Books.has_congr_rows (t := .accounts) hrows,
    Books.has_revise hrevise Table.keyed_accounts rfl (fun _ => rfl)]
  -- the wallet has had its account before
  by_cases hw : w = swap.wallet
  · rw [hw, hwallet, Bool.or_true]
  · rw [decide_eq_false hw, Bool.false_or]

theorem isFollowed_append (b : Books) (funded more : List Address) (w : Address) :
    isFollowed b (more ++ funded) w = (more.contains w || isFollowed b funded w) := by
  unfold isFollowed
  rw [List.contains_append, Bool.or_assoc]

/-- A booking makes a wallet followed if it funds it.  (A swap is one of a wallet that
is followed already.) -/
theorem isFollowed_book {r : Resolution} {outcome : Outcome}
    (hwallet : ∀ {swap}, r = .swap swap → isFollowed b [] swap.wallet = true)
    (h : book r b = .ok (outcome, b')) (w : Address) :
    isFollowed b' [] w = (r.funded.contains w || isFollowed b [] w) := by
  rcases book_cases h with
    ⟨exchange, recipient, value, rfl, -, hbook⟩ | ⟨swap, rfl, -, -, hbook⟩
    | ⟨_, rfl, -, -, rfl⟩ | ⟨_, rfl, -, rfl⟩ | ⟨_, rfl, -, rfl⟩
  · show b'.has .accounts w = ([recipient].contains w || b.has .accounts w)
    rw [has_bookTransfer hbook, List.contains_cons, List.contains_nil, Bool.or_false]
    rfl
  · exact has_bookSwap (hwallet rfl) hbook w
  · rfl
  · rfl
  · rfl

/-! ## §4. The next transaction. -/

/-- The wallets that a block has funded after some resolutions. -/
def fundedBy : List Address → List Resolution → List Address
  | funded, [] => funded
  | funded, r :: rs => fundedBy (r.funded ++ funded) rs

/-- The books `b'` tell alone what the books `b` and the wallets that have been
funded tell together. -/
structure Onward (a : Answers) (b : Books) (funded : List Address) (b' : Books) : Prop where
  said : ∀ token, a.said b' token = a.said b token
  followed : ∀ w, isFollowed b' [] w = isFollowed b funded w

theorem Onward.refl (a : Answers) (b : Books) : Onward a b [] b := ⟨fun _ => rfl, fun _ => rfl⟩

theorem onward_book {b₀ : Books} {funded : List Address} {exchanges : ExchangeSet}
    {r : Resolution} (hr : r.Sound exchanges) (hplan : r.Planned a b₀ funded)
    (hon : Onward a b₀ funded b) {outcome : Outcome} (h : book r b = .ok (outcome, b')) :
    Onward a b₀ (r.funded ++ funded) b' := by
  constructor
  · intro token
    rw [said_book hr (fun hs p hp => ?_) h, hon.said]
    subst hs
    exact (hon.said p.1).trans (hplan.2 p hp)
  · intro w
    rw [isFollowed_book (fun hs => ?_) h, hon.followed, isFollowed_append]
    subst hs
    exact (hon.followed _).trans hplan.1

/-- **After some resolutions of a block the books tell what a later transaction
of the block has been told.** -/
theorem onward_bookAll {b₀ : Books} {funded : List Address} {exchanges : ExchangeSet}
    {rs : List Resolution} (hrs : ∀ r ∈ rs, r.Sound exchanges)
    (hplan : PlannedAll a b₀ funded rs) (hon : Onward a b₀ funded b) {outcomes : List Outcome}
    (h : bookAll rs b = .ok (outcomes, b')) : Onward a b₀ (fundedBy funded rs) b' := by
  induction rs generalizing b funded outcomes with
  | nil =>
    obtain ⟨rfl, rfl⟩ := Prod.mk.inj (Except.ok.inj h)
    exact hon
  | cons r rs ih =>
    obtain ⟨outcome, rest, b₁, h₁, h₂, -⟩ := bookAll_cons_eq_ok h
    have hfirst := onward_book (hrs r List.mem_cons_self) hplan.1 hon h₁
    exact ih (fun r hr => hrs r (List.mem_cons_of_mem _ hr)) hplan.2 hfirst h₂

theorem Onward.put_cursor {b₀ : Books} {funded : List Address} (h : Onward a b₀ funded b)
    (c : Cursor) : Onward a b₀ funded (b.put .cursor c) where
  said token := by
    rw [said_congr_rows (Books.rows_put (by decide) b c), h.said]
  followed w := by
    rw [← h.followed w]
    exact Books.has_put_of_bucket (t := .accounts) (u := .cursor) (by decide) b c w

end

end FundTrail
