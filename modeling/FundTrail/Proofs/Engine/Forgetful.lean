/-
  FundTrail.Proofs.Engine.Forgetful
  ─────────────────────────────────
  **AN ENGINE MAY FORGET WHAT IT KNOWS.**

  From one block to the next an engine carries over its store, the factories that it
  remembers and the chain it asks.  On a chain that always answers the same only the
  store matters: a factory that is forgotten is asked for again, and the answer is the
  one that was remembered.  So two engines do the same with a block if one store is the
  other's but for the time on its cursor, whatever they remember and whenever they are
  called, and then this is true of them again.

  This holds of every store, readable or not, poisoned or not: what goes wrong goes
  wrong for both.

  Main fact: `Engine.Kin.process`.
-/
import FundTrail.Proofs.Engine.Commit
import FundTrail.Proofs.Engine.Onward

namespace FundTrail

open FundTrail.Store

variable {σ : Type}

/-! ## §1. Stores that are the same but for the time. -/

namespace Store

/-- The books are the same, but for the time on the cursor. -/
def Books.SameButTime (b b' : Books) : Prop :=
  b = b' ∨ ∃ (c : Books) (number : Height) (hash : Hash) (t t' : Int64),
    b = c.put .cursor ⟨number, hash, t⟩ ∧ b' = c.put .cursor ⟨number, hash, t'⟩

/-- The stores are the same, but for the time on the cursor. -/
structure Shared.SameButTime (s s' : Shared) : Prop where
  poisoned : s.poisoned = s'.poisoned
  access : s.handle.access = s'.handle.access
  written : s.handle.written = s'.handle.written
  books : s.handle.books.SameButTime s'.handle.books

theorem Shared.SameButTime.refl (s : Shared) : s.SameButTime s := ⟨rfl, rfl, rfl, .inl rfl⟩

/-- What has nothing to do with the cursor is the same. -/
theorem Books.SameButTime.rows_eq {b b' : Books} (h : b.SameButTime b') (bucket : Bucket)
    (hbucket : bucket ≠ .cursor) : b.rows bucket = b'.rows bucket := by
  rcases h with rfl | ⟨c, number, hash, t, t', rfl, rfl⟩
  · rfl
  · rw [Books.rows_put hbucket, Books.rows_put hbucket]

end Store

/-! ## §2. Resolutions at two desks. -/

/-- What is at hand on the two desks is the same, but for the factories; and those that
are remembered are the ones that the chain would name. -/
structure Desk.Beside (a : Answers) (d d' : Desk σ) : Prop where
  factories : ∀ p ∈ d.factories, a.factoryOf p.1 = .ok p.2
  factories' : ∀ p ∈ d'.factories, a.factoryOf p.1 = .ok p.2
  metadata : d.metadata = d'.metadata
  skips : d.skips = d'.skips

section

open Asking

theorem alike_ask {a : Answers} {ε α : Type} {question : Asking σ ε α}
    (h : Constant question) :
    Alike (Desk.Beside a) (Desk.ask question) (Desk.ask question) := by
  obtain ⟨r, -, hr, -⟩ := h
  intro d d' hd
  exact ⟨(hr d.chain trivial).1.trans (hr d'.chain trivial).1.symm,
    hd.factories, hd.factories', hd.metadata, hd.skips⟩

theorem alike_remember {a : Answers} {ε : Type} (token : Address) (answer : Metadata) :
    Alike (Desk.Beside a) (Desk.remember token answer : Asking (Desk σ) ε Metadata)
      (Desk.remember token answer) := by
  intro d d' hd
  refine ⟨rfl, hd.factories, hd.factories', ?_, hd.skips⟩
  show (token, answer) :: d.metadata = (token, answer) :: d'.metadata
  rw [hd.metadata]

variable {m : Market σ} {a : Answers} (hm : m.Steady a)

include hm

theorem alike_factoryOf (router : Address) :
    Alike (Desk.Beside a) (Desk.factoryOf m router) (Desk.factoryOf m router) := by
  intro d d' hd
  obtain ⟨h, hfactories, hmetadata, hskips⟩ := answer_factoryOf hm router hd.factories
  obtain ⟨h', hfactories', hmetadata', hskips'⟩ := answer_factoryOf hm router hd.factories'
  exact ⟨h.trans h'.symm, hfactories, hfactories',
    hmetadata.trans (hd.metadata.trans hmetadata'.symm),
    hskips.trans (hd.skips.trans hskips'.symm)⟩

variable {b b' : Books} (htokens : b.rows .token = b'.rows .token)

include htokens

theorem alike_metadataOf (token : Address) :
    Alike (Desk.Beside a) (Desk.metadataOf m b token) (Desk.metadataOf m b' token) := by
  intro d d' hd
  have hlookup : d.metadata.lookup token = d'.metadata.lookup token := by rw [hd.metadata]
  unfold Desk.metadataOf
  rw [hlookup, Books.find?_congr_rows (t := .tokens) htokens]
  cases d'.metadata.lookup token with
  | some known => exact ⟨rfl, hd⟩
  | none =>
    cases b'.find? .tokens token with
    | error e => exact ⟨rfl, hd⟩
    | ok found =>
      cases found with
      | some row => exact alike_remember token _ d d' hd
      | none =>
        -- both chains are asked, and they say the same
        have hsame := (hm.metadataOf token d.chain).trans (hm.metadataOf token d'.chain).symm
        generalize m.metadataOf token d.chain = asked at hsame ⊢
        generalize m.metadataOf token d'.chain = asked' at hsame ⊢
        obtain ⟨x, chain⟩ := asked
        obtain ⟨x', chain'⟩ := asked'
        obtain rfl : x = x' := hsame
        have hleft : Desk.Beside a { d with chain } { d' with chain := chain' } :=
          ⟨hd.factories, hd.factories', hd.metadata, hd.skips⟩
        cases x with
        | error e => exact ⟨rfl, hleft⟩
        | ok answer => exact alike_remember token answer _ _ hleft

theorem alike_metadataAlong (path : List Address) :
    Alike (Desk.Beside a) (Desk.metadataAlong m b path) (Desk.metadataAlong m b' path) := by
  induction path with
  | nil => exact .pure []
  | cons token path ih =>
    exact (alike_metadataOf hm htokens token).bind fun answer => ih.bind fun answers => .pure _

theorem alike_resolveSwap (fee : Option Fee) (tx : Transaction) (wallet router : Address) :
    Alike (Desk.Beside a) (resolveSwap m fee b tx wallet router)
      (resolveSwap m fee b' tx wallet router) := by
  unfold resolveSwap
  refine (Alike.ofExcept _).bind fun call => ?_
  refine ((alike_factoryOf hm router).withError _).bind fun factory => ?_
  refine (alike_metadataAlong hm htokens call.path).bind fun tokens => ?_
  cases tokens.getLast? with
  | none => exact .fail _
  | some last =>
    have hprice := alike_ask (a := a)
      (constant_pathPrice hm factory call.path last.2.decimals fee)
    exact (hprice.withError _).bind fun price => .pure _

variable (haccounts : b.rows .account = b'.rows .account)

include haccounts

/-- A transaction is resolved alike. -/
theorem alike_resolve (exchanges : ExchangeSet) (settings : Settings) (funded : List Address)
    (tx : Transaction) :
    Alike (Desk.Beside a) (resolve m exchanges settings b funded tx)
      (resolve m exchanges settings b' funded tx) := by
  have hclass : classOf exchanges settings b funded tx
      = classOf exchanges settings b' funded tx := by
    unfold classOf isFollowed
    simp only [Books.has_congr_rows (t := .accounts) haccounts]
  unfold resolve
  rw [hclass]
  cases classOf exchanges settings b' funded tx with
  | transfer exchange recipient value => exact .pure _
  | ignored reason => exact .pure _
  | swapCall wallet router method =>
    intro d d' hd
    simp only
    rcases (alike_resolveSwap hm htokens settings.fee tx wallet router).cases hd with
      ⟨e, w, w', hw, hw', hbeside⟩ | ⟨swap, w, w', hw, hw', hbeside⟩
    · rw [hw, hw']
      cases e with
      | halt e => exact ⟨rfl, hbeside⟩
      | skip reason =>
        -- it is skipped on both sides
        refine ⟨rfl, hbeside.factories, hbeside.factories', hbeside.metadata, ?_⟩
        show w.skips ++ [(tx.hash, reason)] = w'.skips ++ [(tx.hash, reason)]
        rw [hbeside.skips]
    · rw [hw, hw']
      exact ⟨rfl, hbeside⟩

/-- **The transactions of a block are resolved alike.** -/
theorem alike_resolveAll (exchanges : ExchangeSet) (settings : Settings) (funded : List Address)
    (txs : List Transaction) :
    Alike (Desk.Beside a) (resolveAll m exchanges settings b funded txs)
      (resolveAll m exchanges settings b' funded txs) := by
  induction txs generalizing funded with
  | nil => exact .pure []
  | cons tx txs ih =>
    exact (alike_resolve hm htokens haccounts exchanges settings funded tx).bind fun r =>
      (ih (r.funded ++ funded)).bind fun rs => .pure _

end

/-! ## §3. One booking on two books. -/

/-- Whatever the time on the cursor is, a block is booked alike, and it leaves its own
time there. -/
theorem bookBlock_sameButTime {b b' : Books} (h : b.SameButTime b') (block : Header)
    (rs : List Resolution) (now now' : Int64) :
    (∃ error, bookBlock now block rs b = .error error ∧ bookBlock now' block rs b' = .error error)
      ∨ ∃ (outcomes : List Outcome) (booked : Books),
        bookBlock now block rs b
            = .ok (outcomes, booked.put .cursor ⟨block.number, block.hash, now⟩)
          ∧ bookBlock now' block rs b'
            = .ok (outcomes, booked.put .cursor ⟨block.number, block.hash, now'⟩) := by
  rcases h with rfl | ⟨c, number, hash, t, t', rfl, rfl⟩
  · cases hbook : bookAll rs b with
    | error error =>
      exact .inl ⟨error, Engine.bookBlock_of_error _ _ hbook, Engine.bookBlock_of_error _ _ hbook⟩
    | ok p =>
      exact .inr ⟨p.1, p.2, Engine.bookBlock_of_ok _ _ hbook, Engine.bookBlock_of_ok _ _ hbook⟩
  -- nobody looks at the cursor that stands there, and it does not stay
  · have hput := bookAll_put_cursor rs c
    cases hbook : bookAll rs c with
    | error error =>
      rw [hbook] at hput
      exact .inl ⟨error, Engine.bookBlock_of_error _ _ (hput _),
        Engine.bookBlock_of_error _ _ (hput _)⟩
    | ok p =>
      rw [hbook] at hput
      refine .inr ⟨p.1, p.2, ?_, ?_⟩
      · rw [Engine.bookBlock_of_ok _ _ (hput _), Books.put_put (t := .cursor) (Eq.refl ())]
      · rw [Engine.bookBlock_of_ok _ _ (hput _), Books.put_put (t := .cursor) (Eq.refl ())]

/-- Up to where it fails, or to the cursor, the edits are the same. -/
theorem on_block_sameButTime {b b' : Books} (h : b.SameButTime b') (block : Header)
    (rs : List Resolution) (now now' : Int64) :
    ((Booking.block now block rs).on b).2 = ((Booking.block now' block rs).on b').2
      ∧ (((Booking.block now block rs).on b).1 = []
        ↔ ((Booking.block now' block rs).on b').1 = []) := by
  have hsame : (Booking.resolutions rs).on b = (Booking.resolutions rs).on b' := by
    rcases h with rfl | ⟨c, number, hash, t, t', rfl, rfl⟩
    · rfl
    · rw [(OverlooksCursor.resolutions rs).on_put, (OverlooksCursor.resolutions rs).on_put]
  unfold Booking.block
  rcases hon : (Booking.resolutions rs).on b with ⟨edits, error | outcomes⟩
  · rw [Work.on_bind_of_error hon, Work.on_bind_of_error (hsame.symm.trans hon)]
    exact ⟨rfl, .rfl⟩
  · rw [Work.on_bind_of_ok hon, Work.on_bind_of_ok (hsame.symm.trans hon)]
    exact ⟨rfl, iff_of_false (List.append_ne_nil_of_right_ne_nil edits (List.cons_ne_nil _ _))
      (List.append_ne_nil_of_right_ne_nil edits (List.cons_ne_nil _ _))⟩

/-- So it is committed alike, or fails for the same reason. -/
theorem update_block_sameButTime {s s' : Shared} (h : s.SameButTime s') (block : Header)
    (rs : List Resolution) (now now' : Int64) :
    (s.handle.update (Booking.block now block rs)).1
        = (s'.handle.update (Booking.block now' block rs)).1
      ∧ Shared.SameButTime
        { s with handle := (s.handle.update (Booking.block now block rs)).2 }
        { s' with handle := (s'.handle.update (Booking.block now' block rs)).2 } := by
  obtain ⟨hresult, hedits⟩ := on_block_sameButTime h.books block rs now now'
  have hfst := Handle.fst_update_congr h.access hresult hedits
  refine ⟨hfst, ?_⟩
  rcases bookBlock_sameButTime h.books block rs now now' with
    ⟨error, hb, hb'⟩ | ⟨outcomes, booked, hb, hb'⟩
  · obtain ⟨_, hupdate⟩ := Handle.update_of_run_error hb
    obtain ⟨_, hupdate'⟩ := Handle.update_of_run_error hb'
    rw [hupdate, hupdate']
    exact h
  · have hne := Engine.edits_block_ne_nil hb
    have hne' := Engine.edits_block_ne_nil hb'
    cases haccess : s.handle.access with
    | readOnly =>
      rw [Handle.update_of_refused haccess hne,
        Handle.update_of_refused (h.access.symm.trans haccess) hne']
      exact h
    | readWrite =>
      rw [Handle.update_of_readWrite hb haccess hne,
        Handle.update_of_readWrite hb' (h.access.symm.trans haccess) hne']
      exact ⟨h.poisoned, h.access, rfl,
        .inr ⟨booked, block.number, block.hash, now, now', rfl, rfl⟩⟩

/-! ## §4. Two engines. -/

/-- The engines are the same but for the time on the cursor, the factories that they
remember, all of them the ones that the chain would name, and the chain's state. -/
structure Engine.Kin (a : Answers) (e e' : Engine σ) : Prop where
  exchanges : e.exchanges = e'.exchanges
  settings : e.settings = e'.settings
  store : e.store.SameButTime e'.store
  factories : ∀ p ∈ e.factories, a.factoryOf p.1 = .ok p.2
  factories' : ∀ p ∈ e'.factories, a.factoryOf p.1 = .ok p.2

namespace Engine.Kin

variable {m : Market σ} {a : Answers} {e e' : Engine σ}

/-- **Both do the same with a block,** at whatever time, and are the same again. -/
theorem process (hm : m.Steady a) (h : Kin a e e') (now now' : Int64) (batch : Batch) :
    (e.process m now batch).1 = (e'.process m now' batch).1
      ∧ Kin a (e.process m now batch).2 (e'.process m now' batch).2 := by
  cases hpoisoned : e.store.poisoned with
  | true =>
    rw [process_of_poisoned hpoisoned, process_of_poisoned (h.store.poisoned.symm.trans hpoisoned)]
    exact ⟨rfl, h⟩
  | false =>
    have hopen' : e'.store.poisoned = false := h.store.poisoned.symm.trans hpoisoned
    have hbooks := h.store.books
    have hdesks : Desk.Beside a (⟨e.chain, e.factories, [], []⟩ : Desk σ)
        ⟨e'.chain, e'.factories, [], []⟩ := ⟨h.factories, h.factories', rfl, rfl⟩
    have halike := alike_resolveAll hm (hbooks.rows_eq .token (by decide))
      (hbooks.rows_eq .account (by decide)) e.exchanges e.settings []
      batch.transactions
    rcases halike.cases hdesks with
      ⟨error, desk, desk', hr, hr', hbeside⟩ | ⟨rs, desk, desk', hr, hr', hbeside⟩
    all_goals rw [h.exchanges, h.settings] at hr'
    · rw [process_of_unresolved hpoisoned hr, process_of_unresolved hopen' hr']
      exact ⟨congrArg (Processed.mk _) hbeside.skips, h.exchanges, h.settings, h.store,
        hbeside.factories, hbeside.factories'⟩
    · obtain ⟨hresult, hstore⟩ :=
        update_block_sameButTime h.store batch.header rs now now'
      rw [process_of_resolved hpoisoned hr, process_of_resolved hopen' hr', hresult, hbeside.skips]
      exact ⟨rfl, h.exchanges, h.settings, hstore, hbeside.factories, hbeside.factories'⟩

end Engine.Kin

end FundTrail
