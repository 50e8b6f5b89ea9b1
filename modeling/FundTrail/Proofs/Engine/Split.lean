/-
  FundTrail.Proofs.Engine.Split
  ─────────────────────────────
  **A BLOCK MAY BE BOOKED IN PARTS.**

  All transactions of a block are resolved before the first of them is booked.
  It would come to the same to book some of them first, and the others on top:
  on a chain that always answers the same, the others resolve as they have been
  resolved (`agree_resolveAll`, `onward_bookAll`), and they are booked onto the
  same books but for the cursor (`bookAll_put_cursor`).

  Main facts: `Committed.append` and `process_split`.
-/
import Mathlib.Algebra.GroupWithZero.Nat
import FundTrail.Proofs.Engine.Onward
import FundTrail.Proofs.Engine.Unfailing

namespace FundTrail

open FundTrail.Store

variable {σ : Type}

/-! ## §1. One list after the other. -/

section

variable {m : Market σ} {exchanges : ExchangeSet} {settings : Settings} {b : Books}

/-- The others are resolved after the first, with the wallets that these have
funded. -/
theorem resolveAll_append {funded : List Address} {xs ys : List Transaction}
    {rs rs' : List Resolution} {d d₁ d₂ : Desk σ}
    (h₁ : resolveAll m exchanges settings b funded xs d = (.ok rs, d₁))
    (h₂ : resolveAll m exchanges settings b (fundedBy funded rs) ys d₁ = (.ok rs', d₂)) :
    resolveAll m exchanges settings b funded (xs ++ ys) d = (.ok (rs ++ rs'), d₂) := by
  induction xs generalizing funded rs d with
  | nil =>
    obtain ⟨hrs, rfl⟩ := Prod.mk.inj h₁
    obtain rfl := Except.ok.inj hrs
    exact h₂
  | cons tx xs ih =>
    obtain ⟨r, d', hr, h₁⟩ := Asking.bind_run_eq_ok h₁
    obtain ⟨rest, d'', hrest, hpure⟩ := Asking.bind_run_eq_ok h₁
    obtain ⟨hrs, rfl⟩ := Prod.mk.inj hpure
    obtain rfl := Except.ok.inj hrs
    -- the rest of the first list, and the second list behind it
    have hall := ih hrest h₂
    show (resolve m exchanges settings b funded tx >>= fun r =>
      resolveAll m exchanges settings b (r.funded ++ funded) (xs ++ ys) >>= fun rs =>
        pure (r :: rs)) d = _
    rw [Asking.bind_run_ok hr, Asking.bind_run_ok hall]
    rfl

theorem bookAll_append {rs rs' : List Resolution} {o₁ o₂ : List Outcome} {b₁ b₂ : Books}
    (h₁ : bookAll rs b = .ok (o₁, b₁)) (h₂ : bookAll rs' b₁ = .ok (o₂, b₂)) :
    bookAll (rs ++ rs') b = .ok (o₁ ++ o₂, b₂) := by
  induction rs generalizing b o₁ with
  | nil =>
    obtain ⟨rfl, rfl⟩ := Prod.mk.inj (Except.ok.inj h₁)
    exact h₂
  | cons r rs ih =>
    obtain ⟨outcome, rest, b', hr, hrest, rfl⟩ := bookAll_cons_eq_ok h₁
    exact bookAll_cons_of_ok hr (ih hrest)

end

/-- A block that is handed over in parts, each at its time. -/
def inParts (number : Height) (hash : Hash) (parts : List (Int64 × List Transaction)) :
    List (Int64 × Batch) :=
  parts.map fun p => (p.1, ⟨number, hash, p.2⟩)

/-! ## §2. Engines that never fail. -/

namespace Engine

/-- The store can be used and read, and what the engine knows of routers is what
the chain would say. -/
structure Ready (a : Answers) (e : Engine σ) : Prop where
  open_ : e.store.poisoned = false
  writable : e.store.handle.access = .readWrite
  readable : e.store.handle.books.Readable
  names : e.exchanges.Short
  factories : ∀ p ∈ e.factories, a.factoryOf p.1 = .ok p.2

section

variable {m : Market σ} {a : Answers} (hm : m.Steady a) {e : Engine σ} (he : e.Ready a)

/-- A new engine knows of no router, so there is nothing it could be wrong about. -/
theorem ready_new {store : Shared} (a : Answers) (hopen : store.poisoned = false)
    (hwritable : store.handle.access = .readWrite) (hreadable : store.handle.books.Readable)
    {exchanges : ExchangeSet} (hnames : exchanges.Short) (settings : Settings) (chain : σ) :
    (Engine.new exchanges settings store chain).Ready a :=
  ⟨hopen, hwritable, hreadable, hnames, fun _ hp => nomatch hp⟩

include he

theorem Ready.inOrder : e.InOrder := ⟨he.open_, he.writable, he.readable, he.names⟩

/-- The desk at the beginning of a block. -/
theorem Ready.fits (b : Books) : Desk.Fits a b (⟨e.chain, e.factories, [], []⟩ : Desk σ) :=
  ⟨he.factories, fun _ hp => nomatch hp⟩

include hm

theorem Ready.resolved (txs : List Transaction) :
    ∃ rs desk, resolveAll m e.exchanges e.settings e.store.handle.books [] txs
        ⟨e.chain, e.factories, [], []⟩ = (.ok rs, desk)
      ∧ PlannedAll a e.store.handle.books [] rs ∧ desk.Fits a e.store.handle.books := by
  have hfollowed : ∀ w, isFollowed e.store.handle.books [] w
      = isFollowed e.store.handle.books [] w := fun _ => rfl
  obtain ⟨_, ⟨rs, rfl, hplan⟩, hobeys, -⟩ := agree_resolveAll hm he.readable he.readable
    (fun _ => rfl) e.exchanges e.settings hfollowed txs
  obtain ⟨hanswer, hfits⟩ := hobeys _ (he.fits e.store.handle.books)
  exact ⟨rs, _, Prod.ext hanswer rfl, hplan, hfits⟩

variable (hshort : m.Short)

include hshort

/-- **A ready engine commits every block, and is ready again.** -/
theorem Ready.committed (now : Int64) (batch : Batch) :
    ∃ outcomes rs desk booked, Committed m now batch e outcomes rs desk booked
      ∧ (e.process m now batch).2.Ready a := by
  obtain ⟨rs, desk, hresolved, -, hfits⟩ := he.resolved hm batch.transactions
  obtain ⟨outcomes, rs', desk', booked, hc, horder⟩ := he.inOrder.committed hshort now batch
  -- what the engine knows of routers comes from the desk
  obtain ⟨-, rfl⟩ := Prod.mk.inj (hresolved.symm.trans hc.resolved)
  have hfactories : ∀ p ∈ (e.process m now batch).2.factories, a.factoryOf p.1 = .ok p.2 := by
    rw [hc.after]
    exact hfits.factories
  exact ⟨outcomes, rs', desk, booked, hc, horder.open_, horder.writable, horder.readable,
    horder.names, hfactories⟩

theorem Ready.process (now : Int64) (batch : Batch) : (e.process m now batch).2.Ready a := by
  obtain ⟨_, _, _, _, -, h⟩ := he.committed hm hshort now batch
  exact h

/-! ## §3. Two parts, and any number of them. -/

/-- **What is booked in two parts is booked as a whole.**  The books differ by the
cursor that was put in between. -/
theorem committed_append (now : Int64) {now₁ now₂ : Int64} {number : Height} {hash : Hash}
    {xs ys : List Transaction} {o₁ o₂ : List Outcome} {rs₁ rs₂ : List Resolution}
    {d₁ d₂ : Desk σ} {b₁ b₂ : Books}
    (hx : Committed m now₁ ⟨number, hash, xs⟩ e o₁ rs₁ d₁ b₁)
    (hy : Committed m now₂ ⟨number, hash, ys⟩ (e.process m now₁ ⟨number, hash, xs⟩).2
      o₂ rs₂ d₂ b₂) :
    ∃ desk booked,
      Committed m now ⟨number, hash, xs ++ ys⟩ e (o₁ ++ o₂) (rs₁ ++ rs₂) desk booked
      ∧ b₂ = booked.put .cursor ⟨number, hash, now₁⟩ := by
  have hready := he.process hm hshort now₁ ⟨number, hash, xs⟩
  rw [hx.after] at hy hready
  -- the books after the first part tell what the block would have been told
  obtain ⟨rs, desk₁, hresolved, hplan, hfits⟩ := he.resolved hm xs
  obtain ⟨hrs, rfl⟩ := Prod.mk.inj (hx.resolved.symm.trans hresolved)
  obtain rfl := Except.ok.inj hrs
  have hon := (onward_bookAll (hx.sound hshort) hplan (.refl a e.store.handle.books)
    hx.booking).put_cursor ⟨number, hash, now₁⟩
  -- so the second part resolves as it would have then
  obtain ⟨x, -, hwhole, hpart⟩ := agree_resolveAll hm he.readable hready.readable hon.said
    e.exchanges e.settings hon.followed ys
  have hsame : x = .ok rs₂ :=
    (hpart _ (hready.fits _)).1.symm.trans (congrArg Prod.fst hy.resolved)
  obtain ⟨desk, hrest⟩ : ∃ desk, resolveAll m e.exchanges e.settings e.store.handle.books
      (fundedBy [] rs₁) ys d₁ = (.ok rs₂, desk) :=
    ⟨_, Prod.ext ((hwhole d₁ hfits).1.trans hsame) rfl⟩
  have hall := resolveAll_append hx.resolved hrest
  -- and is booked as it would have been
  have hbooking : bookAll rs₂ (b₁.put .cursor ⟨number, hash, now₁⟩) = .ok (o₂, b₂) := hy.booking
  rw [bookAll_put_cursor] at hbooking
  cases hb : bookAll rs₂ b₁ with
  | error error =>
    rw [hb] at hbooking
    exact nomatch hbooking
  | ok p =>
    obtain ⟨o, booked⟩ := p
    rw [hb] at hbooking
    obtain ⟨rfl, rfl⟩ := Prod.mk.inj (Except.ok.inj hbooking)
    exact ⟨desk, booked,
      committed_of_booked he.open_ he.writable hall (bookAll_append hx.booking hb), rfl⟩

/-- **What is booked in any number of parts is booked as a whole.** -/
theorem committed_split (number : Height) (hash : Hash) (now : Int64)
    (parts : List (Int64 × List Transaction)) (hparts : parts ≠ []) :
    ∃ (parted : List (List Outcome)) (rs : List Resolution) (desk : Desk σ) (booked : Books),
      Committed m now ⟨number, hash, parts.flatMap Prod.snd⟩ e parted.flatten rs desk booked
      ∧ (e.processAll m (inParts number hash parts)).1.map Processed.result
        = parted.map (fun outcomes => .ok (Summary.ofOutcomes number outcomes))
      ∧ (e.processAll m (inParts number hash parts)).2.Ready a
      ∧ (e.processAll m (inParts number hash parts)).2.store.handle.books
        = booked.put .cursor ⟨number, hash, (parts.getLast hparts).1⟩ := by
  induction parts generalizing e with
  | nil => exact absurd rfl hparts
  | cons p parts ih =>
    obtain ⟨outcomes, rs, desk, booked, hc, hready⟩ :=
      he.committed hm hshort p.1 ⟨number, hash, p.2⟩
    have hfirst : (e.process m p.1 ⟨number, hash, p.2⟩).1.result
        = .ok (Summary.ofOutcomes number outcomes) := hc.result_eq
    by_cases hrest : parts = []
    · -- the only part: it is the whole block, at another time perhaps
      subst hrest
      refine ⟨[outcomes], rs, desk, booked, ?_, ?_, hready, ?_⟩
      · rw [List.flatMap_cons, List.flatMap_nil, List.append_nil, List.flatten_singleton]
        exact committed_of_booked hc.open_ hc.writable hc.resolved hc.booking
      · exact congrArg (fun x => [x]) hfirst
      · exact hc.books_eq
    · -- a part, and the others on top
      obtain ⟨parted, rs', desk', booked', hc', hresults, hready', hbooks⟩ := ih hready hrest
      obtain ⟨desk₂, booked₂, hwhole, rfl⟩ := committed_append hm he hshort now hc hc'
      refine ⟨outcomes :: parted, rs ++ rs', desk₂, booked₂, hwhole, ?_, hready', ?_⟩
      · show (e.process m p.1 ⟨number, hash, p.2⟩).1.result :: _ = _ :: _
        rw [hfirst]
        exact congrArg _ hresults
      · rw [List.getLast_cons hrest]
        refine hbooks.trans ?_
        exact Books.put_put (t := .cursor) (Eq.refl ()) booked₂

end

end Engine

/-! ## §4. The block and its parts. -/

/-- The account of a block, from the accounts of its parts. -/
def Summary.total (block : Height) (parts : List Summary) : Summary where
  block := block
  transactions := (parts.map Summary.transactions).sum
  transfers := (parts.map Summary.transfers).sum
  swaps := (parts.map Summary.swaps).sum
  skipped := (parts.map Summary.skipped).sum
  ignored := (parts.map Summary.ignored).sum

theorem Summary.ofOutcomes_flatten (block : Height) (parted : List (List Outcome)) :
    Summary.ofOutcomes block parted.flatten
      = Summary.total block (parted.map (Summary.ofOutcomes block)) := by
  unfold Summary.total
  rw [List.map_map, List.map_map, List.map_map, List.map_map, List.map_map]
  unfold Summary.ofOutcomes
  rw [List.length_flatten, List.count_flatten, List.count_flatten, List.count_flatten,
    List.count_flatten]
  rfl

/-- **It makes no difference whether a block is processed as a whole or in parts**,
down to single transactions.  Nothing fails, the accounts of the parts add up, and
the books are the same but for the time on the cursor.  Two parts, `xs` and then
`ys`, are the case of a block with the transactions `xs ++ ys`. -/
theorem process_split {m : Market σ} {a : Answers} (hm : m.Steady a) (hshort : m.Short)
    {e : Engine σ} (he : e.Ready a) (number : Height) (hash : Hash) (now : Int64)
    (parts : List (Int64 × List Transaction)) (hparts : parts ≠ []) :
    let whole := e.process m now ⟨number, hash, parts.flatMap Prod.snd⟩
    let split := e.processAll m (inParts number hash parts)
    ∃ summaries : List Summary,
      split.1.map Processed.result = summaries.map .ok
      ∧ whole.1.result = .ok (Summary.total number summaries)
      ∧ whole.2.store.handle.books
          = split.2.store.handle.books.put .cursor ⟨number, hash, now⟩
      ∧ whole.2.lastProcessed = .ok (some ⟨number, hash, now⟩)
      ∧ split.2.lastProcessed = .ok (some ⟨number, hash, (parts.getLast hparts).1⟩) := by
  intro whole split
  obtain ⟨parted, rs, desk, booked, hc, hresults, hready, hbooks⟩ :=
    Engine.committed_split hm he hshort number hash now parts hparts
  have hwhole : whole.1.result = .ok (Summary.ofOutcomes number parted.flatten) :=
    congrArg (fun x => x.1.result) hc.after
  refine ⟨parted.map (Summary.ofOutcomes number), ?_, ?_, ?_, ?_, ?_⟩
  · rw [List.map_map]
    exact hresults
  · rw [hwhole, Summary.ofOutcomes_flatten]
  -- the last cursor is the one that stays
  · rw [hbooks, Books.put_put (t := .cursor) (Eq.refl ())]
    exact congrArg (fun x => x.2.store.handle.books) hc.after
  · exact Engine.lastProcessed_process hwhole
  · exact Engine.lastProcessed_of_put hready.open_ hbooks

/-- What the even market answers. -/
def evenAnswers : Answers where
  factoryOf _ := .ok (shortAddress 9)
  metadataOf _ := .ok ⟨"T", 18⟩
  reservesOf _ _ _ := .ok ⟨.clamp 1, .clamp 1⟩

theorem ready_firstEngine : firstEngine.Ready evenAnswers := by
  refine Engine.ready_new evenAnswers rfl rfl Books.readable_empty ?_ .default ()
  intro wallet name h
  obtain ⟨_, hmem⟩ : ∃ address, (address, name) ∈ [(shortAddress 1, "X")] :=
    ⟨wallet, mem_of_lookup h⟩
  obtain rfl : name = "X" := congrArg Prod.snd (List.mem_singleton.mp hmem)
  decide

/-- The transfer and the swap of the round trip, each on its own. -/
def roundTripParts : List (Int64 × List Transaction) :=
  roundTrip.transactions.map fun tx => (1, [tx])

/-- The swap finds in the books the wallet that the transfer has funded, and before
that in the block. -/
theorem process_split_roundTrip :
    let whole := firstEngine.process evenMarket 2
      ⟨.clamp 1, .zero, roundTripParts.flatMap Prod.snd⟩
    let split := firstEngine.processAll evenMarket (inParts (.clamp 1) .zero roundTripParts)
    whole.1.result.toOption = some ⟨.clamp 1, 2, 1, 1, 0, 0⟩
      ∧ whole.2.store.handle.books
          = split.2.store.handle.books.put .cursor ⟨.clamp 1, .zero, 2⟩
      ∧ split.2.lastProcessed = .ok (some ⟨.clamp 1, .zero, 1⟩) := by
  have hsteady : evenMarket.Steady evenAnswers :=
    ⟨fun _ _ => rfl, fun _ _ => rfl, fun _ _ _ _ => rfl⟩
  obtain ⟨_, -, -, hbooks, -, hlast⟩ := process_split hsteady short_evenMarket ready_firstEngine
    (.clamp 1) .zero 2 roundTripParts (by decide)
  exact ⟨by decide +kernel, hbooks, hlast⟩

end FundTrail
