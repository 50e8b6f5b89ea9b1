/-
  FundTrail.Proofs.Engine.Traceless
  ─────────────────────────────────
  **WHAT IS SKIPPED OR IGNORED LEAVES NO TRACE.**

  A transaction that is skipped or ignored is counted, and that is all.  It may have
  asked the chain for a good deal before it failed, and a swap that is in the books
  already is not even found out before it comes to be booked.  But on a chain that
  always answers the same it does not show what has been asked before, such a
  transaction funds nobody, and where it is booked the books stay as they are.  So
  without it the others are resolved and booked as they have been.

  Main facts: `obeys_resolveAll_without`, `bookAll_without_idle` and
  `idle_transaction_leaves_no_trace`.
-/
import FundTrail.Proofs.Engine.Split
import FundTrail.Proofs.Engine.Chronicle

namespace FundTrail

open FundTrail.Store

variable {σ : Type}

/-! ## §1. One resolution. -/

/-- Nothing has been done about the transaction but to count it. -/
def Outcome.Idle (outcome : Outcome) : Prop := outcome = .skipped ∨ outcome = .ignored

/-- What is idle leaves the books as they are, and has funded nobody. -/
theorem book_idle {r : Resolution} {b b' : Books} {outcome : Outcome}
    (h : book r b = .ok (outcome, b')) (hidle : outcome.Idle) : b' = b ∧ r.funded = [] := by
  rcases book_cases h with
    ⟨exchange, recipient, value, rfl, rfl, -⟩ | ⟨swap, rfl, -, rfl, -⟩
    | ⟨swap, rfl, -, -, rfl⟩ | ⟨reason, rfl, -, rfl⟩ | ⟨reason, rfl, -, rfl⟩
  · rcases hidle with hskipped | hignored
    · exact nomatch hskipped
    · exact nomatch hignored
  · rcases hidle with hskipped | hignored
    · exact nomatch hskipped
    · exact nomatch hignored
  · exact ⟨rfl, rfl⟩
  · exact ⟨rfl, rfl⟩
  · exact ⟨rfl, rfl⟩

/-! ## §2. A resolution among others. -/

/-- **Without a transaction that funds nobody all others are resolved as they were.** -/
theorem obeys_resolveAll_without {m : Market σ} {a : Answers} (hm : m.Steady a) {b : Books}
    (hb : b.Readable) (exchanges : ExchangeSet) (settings : Settings) (funded : List Address)
    (xs : List Transaction) (tx : Transaction) (ys : List Transaction) :
    ∃ rs r rs', rs.length = xs.length
      ∧ Asking.Obeys (Desk.Fits a b) (· = .ok (rs ++ r :: rs'))
          (resolveAll m exchanges settings b funded (xs ++ tx :: ys))
      ∧ (r.funded = [] → Asking.Obeys (Desk.Fits a b) (· = .ok (rs ++ rs'))
          (resolveAll m exchanges settings b funded (xs ++ ys))) := by
  induction xs generalizing funded with
  | nil =>
    obtain ⟨_, ⟨r, rfl, -⟩, hr, -⟩ := agree_resolve hm hb hb (fun _ => rfl) exchanges settings tx
      (Eq.refl (isFollowed b funded tx.sender))
    obtain ⟨_, ⟨rs', rfl, -⟩, hrs', -⟩ := agree_resolveAll hm hb hb (fun _ => rfl) exchanges
      settings (fun w => Eq.refl (isFollowed b (r.funded ++ funded) w)) ys
    refine ⟨[], r, rs', rfl, obeys_resolveAll_cons hr hrs', fun hnobody => ?_⟩
    rwa [hnobody] at hrs'
  | cons x xs ih =>
    -- those in front are resolved in the same way twice
    obtain ⟨_, ⟨r₁, rfl, -⟩, hr₁, -⟩ := agree_resolve hm hb hb (fun _ => rfl) exchanges settings x
      (Eq.refl (isFollowed b funded x.sender))
    obtain ⟨rs, r, rs', hlength, hwhole, hrest⟩ := ih (r₁.funded ++ funded)
    exact ⟨r₁ :: rs, r, rs', congrArg Nat.succ hlength, obeys_resolveAll_cons hr₁ hwhole,
      fun hnobody => obeys_resolveAll_cons hr₁ (hrest hnobody)⟩

/-- **Without a resolution that is idle all others are booked as they were**, and to the
same books. -/
theorem bookAll_without_idle {rs rs' : List Resolution} {r : Resolution} {b booked : Books}
    {outcomes : List Outcome} (h : bookAll (rs ++ r :: rs') b = .ok (outcomes, booked))
    {outcome : Outcome} (hat : outcomes[rs.length]? = some outcome) (hidle : outcome.Idle) :
    ∃ o o', outcomes = o ++ outcome :: o' ∧ o.length = rs.length ∧ r.funded = []
      ∧ bookAll (rs ++ rs') b = .ok (o ++ o', booked) := by
  induction rs generalizing b outcomes with
  | nil =>
    obtain ⟨first, rest, b₁, hfirst, hrest, rfl⟩ := bookAll_cons_eq_ok h
    obtain rfl : first = outcome := Option.some.inj hat
    obtain ⟨rfl, hnobody⟩ := book_idle hfirst hidle
    exact ⟨[], rest, rfl, rfl, hnobody, hrest⟩
  | cons r₁ rs ih =>
    obtain ⟨first, rest, b₁, hfirst, hrest, rfl⟩ := bookAll_cons_eq_ok h
    obtain ⟨o, o', rfl, hlength, hnobody, hwithout⟩ := ih hrest hat
    exact ⟨first :: o, o', rfl, congrArg Nat.succ hlength, hnobody,
      bookAll_cons_of_ok hfirst hwithout⟩

/-! ## §3. Blocks. -/

/-- The account of a block that has one more transaction, with this outcome. -/
def Summary.withOne (s : Summary) (outcome : Outcome) : Summary :=
  let s := { s with transactions := s.transactions + 1 }
  match outcome with
  | .transfer => { s with transfers := s.transfers + 1 }
  | .swap => { s with swaps := s.swaps + 1 }
  | .skipped => { s with skipped := s.skipped + 1 }
  | .ignored => { s with ignored := s.ignored + 1 }

theorem Summary.ofOutcomes_append_cons (block : Height) (o : List Outcome) (outcome : Outcome)
    (o' : List Outcome) :
    Summary.ofOutcomes block (o ++ outcome :: o')
      = (Summary.ofOutcomes block (o ++ o')).withOne outcome := by
  -- the place of an outcome in the list does not count
  have hperm : (o ++ outcome :: o').Perm (outcome :: (o ++ o')) := List.perm_middle
  unfold ofOutcomes
  rw [hperm.length_eq, hperm.count_eq, hperm.count_eq, hperm.count_eq, hperm.count_eq,
    List.length_cons, List.count_cons, List.count_cons, List.count_cons, List.count_cons]
  cases outcome <;> rfl

namespace Engine

variable {m : Market σ} {a : Answers} {e : Engine σ} {number : Height} {hash : Hash}

/-- A block is committed without its idle transaction as it is with it. -/
theorem Ready.committed_without (hm : m.Steady a) (he : e.Ready a) {now : Int64}
    {xs ys : List Transaction} {tx : Transaction} {outcomes : List Outcome}
    {rsAll : List Resolution} {desk : Desk σ} {booked : Books}
    (hc : Committed m now ⟨number, hash, xs ++ tx :: ys⟩ e outcomes rsAll desk booked)
    {outcome : Outcome} (hat : outcomes[xs.length]? = some outcome) (hidle : outcome.Idle)
    (now' : Int64) :
    ∃ o o' rs desk', outcomes = o ++ outcome :: o' ∧ o.length = xs.length
      ∧ Committed m now' ⟨number, hash, xs ++ ys⟩ e (o ++ o') rs desk' booked := by
  have hfits := he.fits e.store.handle.books
  obtain ⟨rs, r, rs', hlength, hwhole, hwithout⟩ :=
    obeys_resolveAll_without hm he.readable e.exchanges e.settings [] xs tx ys
  obtain rfl : rsAll = rs ++ r :: rs' :=
    Except.ok.inj ((congrArg Prod.fst hc.resolved).symm.trans (hwhole _ hfits).1)
  rw [← hlength] at hat
  obtain ⟨o, o', rfl, ho, hnobody, hbooking⟩ := bookAll_without_idle hc.booking hat hidle
  exact ⟨o, o', rs ++ rs', _, rfl, ho.trans hlength, committed_of_booked hc.open_ hc.writable
    (Prod.ext (hwithout hnobody _ hfits).1 rfl) hbooking⟩

end Engine

/-- **A transaction that has been skipped or ignored leaves no trace.**  On a chain that
always answers the same, the block without it comes to the same books but for the time
on the cursor; the report counts one transaction less, and one less of its kind; and
about each of the others the same has been done. -/
theorem idle_transaction_leaves_no_trace {m : Market σ} {a : Answers} (hm : m.Steady a)
    (hshort : m.Short) {e : Engine σ} (he : e.Ready a) (number : Height) (hash : Hash)
    (now now' : Int64) (xs : List Transaction) (tx : Transaction) (ys : List Transaction)
    {outcome : Outcome} (hidle : outcome = .skipped ∨ outcome = .ignored)
    (hat : (e.entries m now ⟨number, hash, xs ++ tx :: ys⟩)[xs.length]? = some (tx, outcome)) :
    let whole := e.process m now ⟨number, hash, xs ++ tx :: ys⟩
    let other := e.process m now' ⟨number, hash, xs ++ ys⟩
    ∃ summary, other.1.result = .ok summary
      ∧ whole.1.result = .ok (summary.withOne outcome)
      ∧ other.2.store.handle.books
          = whole.2.store.handle.books.put .cursor ⟨number, hash, now'⟩
      ∧ e.entries m now' ⟨number, hash, xs ++ ys⟩
          = (e.entries m now ⟨number, hash, xs ++ tx :: ys⟩).eraseIdx xs.length := by
  intro whole other
  obtain ⟨outcomes, rsAll, desk, booked, hc, -⟩ :=
    he.committed hm hshort now ⟨number, hash, xs ++ tx :: ys⟩
  rw [hc.entries_eq] at hat ⊢
  obtain ⟨-, hthere⟩ := List.getElem?_zip_eq_some.mp hat
  obtain ⟨o, o', rs, desk', rfl, hlength, hc'⟩ :=
    he.committed_without hm hc hthere hidle now'
  refine ⟨Summary.ofOutcomes number (o ++ o'), ?_, ?_, ?_, ?_⟩
  · exact hc'.result_eq
  · rw [← Summary.ofOutcomes_append_cons]
    exact hc.result_eq
  · show (e.process m now' _).2.store.handle.books
      = (e.process m now _).2.store.handle.books.put _ _
    rw [hc.books_eq, hc'.books_eq]
    exact (Books.put_put (t := .cursor) (Eq.refl ()) booked).symm
  · have hzip : (xs.zip o).length = xs.length := by
      rw [List.length_zip, hlength, Nat.min_self]
    rw [hc'.entries_eq, List.zip_append hlength.symm, List.zip_append hlength.symm,
      List.zip_cons_cons, List.eraseIdx_append_of_length_le (Nat.le_of_eq hzip), hzip,
      Nat.sub_self, List.eraseIdx_cons_zero]

/-- The wallet swaps along another path by a transaction with the hash of its first
swap. -/
def sameHash : Transaction :=
  ⟨.ofPrefix [2], shortAddress 2, some (shortAddress 3), oneEther,
    swapInput [shortAddress 5, shortAddress 7]⟩

/-- And then goes on from the token of that path. -/
def goingOn : Transaction :=
  ⟨.ofPrefix [3], shortAddress 2, some (shortAddress 3), oneEther,
    swapInput [shortAddress 7, shortAddress 4]⟩

/-- What token 7 says of itself has been asked by the swap that is skipped.  Without it,
it is asked by the next one. -/
theorem idle_transaction_leaves_no_trace_sameHash :
    let whole := firstEngine.process evenMarket 1
      ⟨.clamp 1, .zero, roundTrip.transactions ++ [sameHash, goingOn]⟩
    let other := firstEngine.process evenMarket 2
      ⟨.clamp 1, .zero, roundTrip.transactions ++ [goingOn]⟩
    whole.1.result.toOption = some ⟨.clamp 1, 4, 1, 2, 1, 0⟩
      ∧ other.1.result.toOption = some ⟨.clamp 1, 3, 1, 2, 0, 0⟩
      ∧ other.2.store.handle.books
          = whole.2.store.handle.books.put .cursor ⟨.clamp 1, .zero, 2⟩ := by
  have hsteady : evenMarket.Steady evenAnswers :=
    ⟨fun _ _ => rfl, fun _ _ => rfl, fun _ _ _ _ => rfl⟩
  have hskipped : (firstEngine.entries evenMarket 1
      ⟨.clamp 1, .zero, roundTrip.transactions ++ [sameHash, goingOn]⟩)[2]?
        = some (sameHash, .skipped) := by
    decide +kernel
  obtain ⟨summary, hother, hwhole, hbooks, -⟩ := idle_transaction_leaves_no_trace hsteady
    short_evenMarket ready_firstEngine (.clamp 1) .zero 1 2 roundTrip.transactions sameHash
    [goingOn] (.inl rfl) hskipped
  have hcount : (firstEngine.process evenMarket 2
      ⟨.clamp 1, .zero, roundTrip.transactions ++ [goingOn]⟩).1.result.toOption
        = some ⟨.clamp 1, 3, 1, 2, 0, 0⟩ := by
    decide +kernel
  have hsummary : summary = ⟨.clamp 1, 3, 1, 2, 0, 0⟩ := by
    rw [hother] at hcount
    exact Option.some.inj hcount
  refine ⟨?_, hcount, hbooks⟩
  rw [hwhole, hsummary]
  rfl

end FundTrail
