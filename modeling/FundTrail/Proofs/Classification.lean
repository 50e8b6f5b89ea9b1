/-
  FundTrail.Proofs.Classification
  ───────────────────────────────
  **WHAT A TRANSACTION MEANS, AND WHEN THE WALLETS ARE ASKED FOR.**

  Six conditions are checked one after the other, and only the last of them needs an
  answer from outside.  `Judged` has one rule for each way in which the checks can end,
  and each rule lists all that has been checked by then; so what a transaction means is
  read off the rules, and a question that may fail, or change its mind, is put where they
  say so and nowhere else.

  The reason for which a transaction is noise is the first that applies.  The reasons are
  put in order in `IgnoreReason.order`, and `applies` says when each of them applies, of
  the transaction alone.

  Main facts: `judge_eq_iff_judged` and `transactions_classified`.
-/
import FundTrail.Classification
import FundTrail.Proofs.Chain.Asking
import FundTrail.Proofs.Swap.Decoding
import Mathlib.Data.List.Induction

namespace FundTrail

/-! ## §1. Names of exchanges. -/

theorem lookup_filter_of_ne {wallet other : Address} (h : other ≠ wallet)
    (names : List (Address × String)) :
    (names.filter fun entry => entry.1 ≠ other).lookup wallet = names.lookup wallet := by
  induction names with
  | nil => rfl
  | cons entry names ih =>
    by_cases hentry : entry.1 = other
    · rw [List.filter_cons_of_neg (by simp [hentry]), ih, List.lookup_cons, hentry,
        beq_false_of_ne h.symm]
    · rw [List.filter_cons_of_pos (by simp [hentry]), List.lookup_cons, List.lookup_cons, ih]

theorem ExchangeSet.nameOf?_add (x : ExchangeSet) (e : Exchange) (wallet : Address) :
    (x.add e).nameOf? wallet = if e.address = wallet then some e.name else x.nameOf? wallet := by
  unfold add nameOf?
  by_cases h : e.address = wallet
  · rw [if_pos h, h, List.lookup_cons_self]
  · rw [if_neg h, List.lookup_cons, beq_false_of_ne (Ne.symm h)]
    exact lookup_filter_of_ne h x.names

/-- **Of two entries for one wallet the last counts.** -/
theorem ExchangeSet.nameOf?_ofList (es : List Exchange) (wallet : Address) :
    (ofList es).nameOf? wallet
      = (es.reverse.find? fun e => e.address = wallet).map Exchange.name := by
  induction es using List.reverseRecOn with
  | nil => rfl
  | append_singleton es e ih =>
    have hadd : ofList (es ++ [e]) = (ofList es).add e := List.foldl_append
    rw [hadd, nameOf?_add, List.reverse_append, List.reverse_singleton, List.singleton_append,
      List.find?_cons, ih]
    by_cases h : e.address = wallet
    · rw [if_pos h, decide_eq_true h]
      rfl
    · rw [if_neg h, decide_eq_false h]

/-! ## §2. The checks. -/

/-- A transaction sends enough to a wallet outside the exchanges. -/
structure Transaction.Reaches (exchanges : ExchangeSet) (minValue : Amount) (tx : Transaction)
    (recipient : Address) : Prop where
  goes : tx.recipient = some recipient
  enough : minValue ≤ tx.value
  outside : exchanges.contains recipient = false

/-- A transaction looks like a swap: a wallet outside the exchanges sends enough to a
router, with the selector of the method. -/
structure Transaction.CallsSwap (exchanges : ExchangeSet) (minValue : Amount) (tx : Transaction)
    (router : Address) (method : SwapMethod) : Prop extends
    tx.Reaches exchanges minValue router where
  sender : exchanges.contains tx.sender = false
  selects : tx.input.take 4 = method.selector.toList

/-- Nothing but the wallets that are followed decides over a transaction. -/
def Transaction.InQuestion (exchanges : ExchangeSet) (minValue : Amount) (tx : Transaction) :
    Prop :=
  ∃ router method, tx.CallsSwap exchanges minValue router method

section

variable (exchanges : ExchangeSet) (minValue : Amount) (tx : Transaction)

/-- What is said of a transaction by itself, with all that has been checked. -/
inductive Judged : Judgement → Prop where
  | creation : tx.recipient = none → Judged (.settled (.ignored .contractCreation))
  | low {recipient : Address} :
      tx.recipient = some recipient → tx.value < minValue →
      Judged (.settled (.ignored .belowThreshold))
  | deposit {recipient : Address} :
      tx.recipient = some recipient → minValue ≤ tx.value →
      exchanges.contains recipient = true → Judged (.settled (.ignored .exchangeRecipient))
  | transfer {recipient : Address} {name : String} :
      tx.Reaches exchanges minValue recipient → exchanges.nameOf? tx.sender = some name →
      Judged (.settled (.transfer name recipient tx.value))
  | short {recipient : Address} :
      tx.Reaches exchanges minValue recipient → exchanges.contains tx.sender = false →
      tx.input.length < 4 → Judged (.settled (.ignored .shortCallData))
  | unknown {recipient : Address} :
      tx.Reaches exchanges minValue recipient → exchanges.contains tx.sender = false →
      4 ≤ tx.input.length → (∀ method : SwapMethod, tx.input.take 4 ≠ method.selector.toList) →
      Judged (.settled (.ignored .unknownSelector))
  | call {router : Address} {method : SwapMethod} :
      tx.CallsSwap exchanges minValue router method →
      Judged (.swapIfTracked tx.sender router method)

end

section

variable {exchanges : ExchangeSet} {minValue : Amount} {tx : Transaction}

theorem ExchangeSet.contains_eq_false_iff {wallet : Address} :
    exchanges.contains wallet = false ↔ exchanges.nameOf? wallet = none := by
  unfold contains
  rw [Option.isSome_eq_false_iff, Option.isNone_iff_eq_none]

/-- **The checks end as the rules say.** -/
theorem judged_judge (exchanges : ExchangeSet) (minValue : Amount) (tx : Transaction) :
    Judged exchanges minValue tx (judge exchanges minValue tx) := by
  unfold judge
  split
  next hrecipient => exact .creation hrecipient
  next recipient hrecipient =>
    split
    next hlow => exact .low hrecipient hlow
    next hlow =>
      have henough : minValue ≤ tx.value := Nat.le_of_not_lt hlow
      split
      next hinside => exact .deposit hrecipient henough hinside
      next houtside =>
        have hreaches : tx.Reaches exchanges minValue recipient :=
          ⟨hrecipient, henough, Bool.eq_false_iff.mpr houtside⟩
        split
        next name hname => exact .transfer hreaches hname
        next hname =>
          have hsender := ExchangeSet.contains_eq_false_iff.mpr hname
          split
          next hselector => exact .short hreaches hsender (selector?_eq_none_iff.mp hselector)
          next s hs =>
            split
            next hunknown =>
              have hlong : 4 ≤ tx.input.length := by
                by_contra hshort
                rw [selector?_eq_none_iff.mpr (by omega)] at hs
                exact nomatch hs
              refine .unknown hreaches hsender hlong fun method hmethod => ?_
              rw [selector?_eq_some_iff.mpr hmethod] at hs
              exact SwapMethod.ofSelector?_eq_none_iff.mp hunknown method (Option.some.inj hs).symm
            next method hmethod =>
              obtain rfl := SwapMethod.ofSelector?_eq_some_iff.mp hmethod
              exact .call ⟨hreaches, hsender, selector?_eq_some_iff.mp hs⟩

/-- What is left to check of a transaction that sends enough out of the exchanges, or past
them. -/
theorem Transaction.Reaches.judge_eq {recipient : Address}
    (h : tx.Reaches exchanges minValue recipient) :
    judge exchanges minValue tx
      = match exchanges.nameOf? tx.sender with
        | some exchange => .settled (.transfer exchange recipient tx.value)
        | none =>
          match selector? tx.input with
          | none => .settled (.ignored .shortCallData)
          | some s =>
            match SwapMethod.ofSelector? s with
            | none => .settled (.ignored .unknownSelector)
            | some method => .swapIfTracked tx.sender recipient method := by
  have hlow : ¬ tx.value < minValue := Nat.not_lt_of_le h.enough
  unfold judge
  rw [h.goes]
  exact (if_neg hlow).trans (if_neg (Bool.eq_false_iff.mp h.outside))

theorem Judged.judge_eq {j : Judgement} (h : Judged exchanges minValue tx j) :
    judge exchanges minValue tx = j := by
  cases h with
  | creation hrecipient =>
    unfold judge
    rw [hrecipient]
  | low hrecipient hlow =>
    unfold judge
    simp only [hrecipient, hlow, if_true]
  | deposit hrecipient henough hinside =>
    have hlow : ¬ tx.value < minValue := Nat.not_lt_of_le henough
    unfold judge
    simp only [hrecipient, hlow, hinside, if_false, if_true]
  | transfer hreaches hname => rw [hreaches.judge_eq, hname]
  | short hreaches hsender hshort =>
    rw [hreaches.judge_eq, ExchangeSet.contains_eq_false_iff.mp hsender]
    simp only [selector?_eq_none_iff.mpr hshort]
  | unknown hreaches hsender hlong hunknown =>
    obtain ⟨s, hs⟩ := Option.ne_none_iff_exists'.mp
      (mt selector?_eq_none_iff.mp (Nat.not_lt_of_le hlong))
    have hnone : SwapMethod.ofSelector? s = none :=
      SwapMethod.ofSelector?_eq_none_iff.mpr fun method hmethod =>
        hunknown method (hmethod ▸ selector?_eq_some_iff.mp hs)
    rw [hreaches.judge_eq, ExchangeSet.contains_eq_false_iff.mp hsender]
    simp only [hs, hnone]
  | @call router method hcall =>
    have hmethod : SwapMethod.ofSelector? method.selector = some method :=
      SwapMethod.ofSelector?_eq_some_iff.mpr rfl
    rw [hcall.toReaches.judge_eq, ExchangeSet.contains_eq_false_iff.mp hcall.sender]
    simp only [selector?_eq_some_iff.mpr hcall.selects, hmethod]

theorem judge_eq_iff_judged {j : Judgement} :
    judge exchanges minValue tx = j ↔ Judged exchanges minValue tx j := by
  constructor
  · rintro rfl
    exact judged_judge exchanges minValue tx
  · exact Judged.judge_eq

theorem judge_eq_transfer_iff {name : String} {recipient : Address} {value : Amount} :
    judge exchanges minValue tx = .settled (.transfer name recipient value)
      ↔ tx.Reaches exchanges minValue recipient ∧ exchanges.nameOf? tx.sender = some name
        ∧ value = tx.value := by
  rw [judge_eq_iff_judged]
  constructor
  · intro h
    cases h with
    | transfer hreaches hname => exact ⟨hreaches, hname, rfl⟩
  · rintro ⟨hreaches, hname, rfl⟩
    exact .transfer hreaches hname

theorem judge_eq_swapIfTracked_iff {wallet router : Address} {method : SwapMethod} :
    judge exchanges minValue tx = .swapIfTracked wallet router method
      ↔ wallet = tx.sender ∧ tx.CallsSwap exchanges minValue router method := by
  rw [judge_eq_iff_judged]
  constructor
  · intro h
    cases h with
    | call hcall => exact ⟨rfl, hcall⟩
  · rintro ⟨rfl, hcall⟩
    exact .call hcall

/-- What is in question is not settled. -/
theorem inQuestion_iff_not_settled :
    tx.InQuestion exchanges minValue ↔ ∀ result, judge exchanges minValue tx ≠ .settled result := by
  constructor
  · rintro ⟨router, method, hcall⟩ result hsettled
    exact nomatch hsettled.symm.trans (judge_eq_swapIfTracked_iff.mpr ⟨rfl, hcall⟩)
  · intro h
    rcases hj : judge exchanges minValue tx with result | ⟨wallet, router, method⟩
    · exact absurd hj (h result)
    · exact ⟨router, method, (judge_eq_swapIfTracked_iff.mp hj).2⟩

end

instance (exchanges : ExchangeSet) (minValue : Amount) (tx : Transaction) :
    Decidable (tx.InQuestion exchanges minValue) :=
  match h : judge exchanges minValue tx with
  | .settled result => isFalse fun hquestion => inQuestion_iff_not_settled.mp hquestion result h
  | .swapIfTracked _ router method =>
      isTrue ⟨router, method, (judge_eq_swapIfTracked_iff.mp h).2⟩

/-! ## §3. Reasons, in order. -/

namespace IgnoreReason

/-- The reasons in the order in which they are checked. -/
def order : List IgnoreReason :=
  [.contractCreation, .belowThreshold, .exchangeRecipient, .shortCallData, .unknownSelector,
    .untrackedSender]

/-- Whether a reason applies to a transaction, whose sender is known not to be followed if
`stray`. -/
def applies (exchanges : ExchangeSet) (minValue : Amount) (stray : Bool) (tx : Transaction) :
    IgnoreReason → Bool
  | .contractCreation => tx.recipient.isNone
  | .belowThreshold => decide (tx.value < minValue)
  | .exchangeRecipient => tx.recipient.any exchanges.contains
  | .shortCallData => decide (tx.input.length < 4)
  | .unknownSelector =>
      decide (tx.input.take 4 ≠ (SwapMethod.selector .exactEthForTokens).toList
        ∧ tx.input.take 4 ≠ (SwapMethod.selector .ethForExactTokens).toList)
  | .untrackedSender => stray

/-- The first reason that applies. -/
def first? (exchanges : ExchangeSet) (minValue : Amount) (stray : Bool) (tx : Transaction) :
    Option IgnoreReason :=
  order.find? (applies exchanges minValue stray tx)

section

variable {exchanges : ExchangeSet} {minValue : Amount} {tx : Transaction} {stray : Bool}

/-- **What is settled as noise is noise for the first reason that applies.** -/
theorem first?_of_ignored {reason : IgnoreReason}
    (h : judge exchanges minValue tx = .settled (.ignored reason)) :
    first? exchanges minValue stray tx = some reason := by
  unfold first? order
  cases judge_eq_iff_judged.mp h with
  | creation hrecipient => simp [applies, hrecipient]
  | low hrecipient hlow => simp [applies, hrecipient, hlow]
  | deposit hrecipient henough hinside =>
    have hlow : ¬ tx.value < minValue := Nat.not_lt_of_le henough
    simp [applies, hrecipient, hlow, hinside]
  | short hreaches hsender hshort =>
    obtain ⟨hrecipient, henough, houtside⟩ := hreaches
    have hlow : ¬ tx.value < minValue := Nat.not_lt_of_le henough
    simp [applies, hrecipient, hlow, houtside, hshort]
  | unknown hreaches hsender hlong hunknown =>
    obtain ⟨hrecipient, henough, houtside⟩ := hreaches
    have hlow : ¬ tx.value < minValue := Nat.not_lt_of_le henough
    simp [applies, hrecipient, hlow, houtside, hlong, hunknown]

/-- Nothing but the sender speaks against what is in question. -/
theorem first?_of_inQuestion (h : tx.InQuestion exchanges minValue) :
    first? exchanges minValue stray tx = if stray then some .untrackedSender else none := by
  obtain ⟨router, method, ⟨hrecipient, henough, houtside⟩, -, hselects⟩ := h
  have hlow : ¬ tx.value < minValue := Nat.not_lt_of_le henough
  have hlong : ¬ tx.input.length < 4 :=
    mt selector?_eq_none_iff.mpr fun hnone =>
      nomatch hnone.symm.trans (selector?_eq_some_iff.mpr hselects)
  unfold first? order
  cases method <;> cases stray <;>
    simp [applies, hrecipient, hlow, houtside, hlong, hselects]

end

end IgnoreReason

/-! ## §4. Asking for the wallet. -/

/-- The same question, with a list of the wallets it has been put for. -/
def recorded {σ ε : Type} (isTracked : Address → Asking σ ε Bool) :
    Address → Asking (σ × List Address) ε Bool :=
  fun wallet (s, log) =>
    let (answer, s) := isTracked wallet s
    (answer, s, log ++ [wallet])

/-- The answer says that a wallet is not followed. -/
def refuses {ε : Type} : Except ε Bool → Bool
  | .ok followed => !followed
  | .error _ => false

section

variable {σ ε : Type} {exchanges : ExchangeSet} {minValue : Amount} {tx : Transaction}

/-- What is settled is classified without asking. -/
theorem classify_of_settled {result : Classification} (isTracked : Address → Asking σ ε Bool)
    (h : judge exchanges minValue tx = .settled result) (s : σ) :
    classify exchanges minValue isTracked tx s = (.ok result, s) := by
  unfold classify
  rw [h]
  rfl

/-- **What is in question is asked for once**, and the answer decides. -/
theorem classify_of_callsSwap {router : Address} {method : SwapMethod}
    (isTracked : Address → Asking σ ε Bool) (h : tx.CallsSwap exchanges minValue router method)
    (s : σ) :
    classify exchanges minValue isTracked tx s
      = ((isTracked tx.sender s).1.map fun followed =>
          if followed then .swapCall tx.sender router method else .ignored .untrackedSender,
        (isTracked tx.sender s).2) := by
  unfold classify
  rw [judge_eq_swapIfTracked_iff.mpr ⟨rfl, h⟩]
  rcases hasked : isTracked tx.sender s with ⟨e | followed, s'⟩
  · exact Asking.bind_run_error hasked
  · refine (Asking.bind_run_ok hasked).trans ?_
    cases followed <;> rfl

theorem classify_recorded_of_inQuestion (isTracked : Address → Asking σ ε Bool)
    (h : tx.InQuestion exchanges minValue) (s : σ) (log : List Address) :
    classify exchanges minValue (recorded isTracked) tx (s, log)
      = ((classify exchanges minValue isTracked tx s).1, (isTracked tx.sender s).2,
        log ++ [tx.sender]) := by
  obtain ⟨router, method, hcall⟩ := h
  rw [classify_of_callsSwap _ hcall, classify_of_callsSwap _ hcall]
  rfl

/-- What is not in question is not asked for. -/
theorem exists_classify_of_not_inQuestion (h : ¬ tx.InQuestion exchanges minValue) :
    ∃ result, judge exchanges minValue tx = .settled result
      ∧ ∀ {τ : Type} (isTracked : Address → Asking τ ε Bool) (s : τ),
        classify exchanges minValue isTracked tx s = (.ok result, s) := by
  rw [inQuestion_iff_not_settled] at h
  push Not at h
  obtain ⟨result, hsettled⟩ := h
  exact ⟨result, hsettled, fun isTracked s => classify_of_settled isTracked hsettled s⟩

variable {isTracked : Address → Asking σ ε Bool} {s : σ}

/-- **An error is the error of the question.** -/
theorem classify_eq_error_iff {e : ε} :
    (classify exchanges minValue isTracked tx s).1 = .error e
      ↔ tx.InQuestion exchanges minValue ∧ (isTracked tx.sender s).1 = .error e := by
  by_cases hquestion : tx.InQuestion exchanges minValue
  · obtain ⟨router, method, hcall⟩ := hquestion
    rw [classify_of_callsSwap isTracked hcall, and_iff_right ⟨router, method, hcall⟩]
    cases (isTracked tx.sender s).1 with
    | error e' =>
      show Except.error e' = .error e ↔ Except.error e' = .error e
      rw [Except.error.injEq, Except.error.injEq]
    | ok followed => exact ⟨nofun, nofun⟩
  · obtain ⟨result, -, hresult⟩ := exists_classify_of_not_inQuestion (ε := ε) hquestion
    rw [hresult isTracked s]
    exact ⟨nofun, fun h => absurd h.1 hquestion⟩

/-- A result that is settled comes up where it is settled, and nowhere else. -/
theorem classify_eq_settled_iff {result : Classification}
    (hcall : ∀ wallet router method, result ≠ .swapCall wallet router method)
    (hstray : result ≠ .ignored .untrackedSender) :
    (classify exchanges minValue isTracked tx s).1 = .ok result
      ↔ judge exchanges minValue tx = .settled result := by
  by_cases hquestion : tx.InQuestion exchanges minValue
  · obtain ⟨router, method, h⟩ := hquestion
    rw [classify_of_callsSwap isTracked h, judge_eq_swapIfTracked_iff.mpr ⟨rfl, h⟩]
    refine ⟨fun heq => ?_, nofun⟩
    rcases hasked : (isTracked tx.sender s).1 with e | followed
    · rw [hasked] at heq
      exact nomatch heq
    · rw [hasked] at heq
      have hresult := Except.ok.inj heq
      cases followed with
      | true => exact absurd hresult.symm (hcall _ _ _)
      | false => exact absurd hresult.symm hstray
  · obtain ⟨settled, hsettled, hrun⟩ := exists_classify_of_not_inQuestion (ε := ε) hquestion
    rw [hrun isTracked s, hsettled, Except.ok.injEq, Judgement.settled.injEq]

theorem classify_eq_transfer_iff {name : String} {recipient : Address} {value : Amount} :
    (classify exchanges minValue isTracked tx s).1 = .ok (.transfer name recipient value)
      ↔ tx.Reaches exchanges minValue recipient ∧ exchanges.nameOf? tx.sender = some name
        ∧ value = tx.value := by
  refine (classify_eq_settled_iff (fun _ _ _ h => ?_) fun h => ?_).trans judge_eq_transfer_iff
  · exact nomatch h
  · exact nomatch h

theorem classify_eq_swapCall_iff {wallet router : Address} {method : SwapMethod} :
    (classify exchanges minValue isTracked tx s).1 = .ok (.swapCall wallet router method)
      ↔ (wallet = tx.sender ∧ tx.CallsSwap exchanges minValue router method)
        ∧ (isTracked tx.sender s).1 = .ok true := by
  constructor
  · intro h
    by_cases hquestion : tx.InQuestion exchanges minValue
    · obtain ⟨router', method', hcall⟩ := hquestion
      rw [classify_of_callsSwap isTracked hcall] at h
      rcases hasked : (isTracked tx.sender s).1 with e | followed
      · rw [hasked] at h
        exact nomatch h
      · rw [hasked] at h
        have hresult := Except.ok.inj h
        cases followed with
        | true =>
          obtain ⟨rfl, rfl, rfl⟩ := Classification.swapCall.inj hresult
          exact ⟨⟨rfl, hcall⟩, rfl⟩
        | false => exact nomatch hresult
    · obtain ⟨result, hsettled, hrun⟩ := exists_classify_of_not_inQuestion (ε := ε) hquestion
      rw [hrun isTracked s] at h
      obtain rfl := Except.ok.inj h
      exact nomatch judge_eq_iff_judged.mp hsettled
  · rintro ⟨⟨rfl, hcall⟩, hasked⟩
    rw [classify_of_callsSwap isTracked hcall, hasked]
    rfl

/-- **Noise is noise for the first reason that applies.** -/
theorem classify_eq_ignored_iff {reason : IgnoreReason} :
    (classify exchanges minValue isTracked tx s).1 = .ok (.ignored reason)
      ↔ (∀ recipient name, tx.Reaches exchanges minValue recipient →
          exchanges.nameOf? tx.sender ≠ some name)
        ∧ IgnoreReason.first? exchanges minValue (refuses (isTracked tx.sender s).1) tx
          = some reason := by
  by_cases hquestion : tx.InQuestion exchanges minValue
  · rw [IgnoreReason.first?_of_inQuestion hquestion]
    obtain ⟨router, method, hcall⟩ := hquestion
    have houtside : ∀ recipient name, tx.Reaches exchanges minValue recipient →
        exchanges.nameOf? tx.sender ≠ some name := fun _ name _ hname =>
      nomatch hname.symm.trans (ExchangeSet.contains_eq_false_iff.mp hcall.sender)
    rw [classify_of_callsSwap isTracked hcall, and_iff_right houtside]
    rcases (isTracked tx.sender s).1 with e | _ | _
    · exact ⟨nofun, nofun⟩
    · show Except.ok (Classification.ignored .untrackedSender) = .ok (.ignored reason)
        ↔ some IgnoreReason.untrackedSender = some reason
      rw [Except.ok.injEq, Classification.ignored.injEq, Option.some.injEq]
    · exact ⟨nofun, nofun⟩
  · obtain ⟨result, hsettled, hrun⟩ := exists_classify_of_not_inQuestion (ε := ε) hquestion
    rw [hrun isTracked s, Except.ok.injEq]
    constructor
    · rintro rfl
      refine ⟨fun recipient name hreaches hname => ?_, IgnoreReason.first?_of_ignored hsettled⟩
      exact nomatch hsettled.symm.trans (judge_eq_transfer_iff.mpr ⟨hreaches, hname, rfl⟩)
    · rintro ⟨hnot, hfirst⟩
      cases result with
      | transfer name recipient value =>
        obtain ⟨hreaches, hname, -⟩ := judge_eq_transfer_iff.mp hsettled
        exact absurd hname (hnot recipient name hreaches)
      | swapCall wallet router method => exact nomatch judge_eq_iff_judged.mp hsettled
      | ignored reason' =>
        rw [IgnoreReason.first?_of_ignored hsettled] at hfirst
        rw [Option.some.inj hfirst]

/-- **Only four bytes of an input matter**, and none of them if the sender is an exchange. -/
theorem judge_congr {other : Transaction} (hsender : other.sender = tx.sender)
    (hrecipient : other.recipient = tx.recipient) (hvalue : other.value = tx.value)
    (hinput : other.input.take 4 = tx.input.take 4 ∨ exchanges.contains tx.sender = true) :
    judge exchanges minValue other = judge exchanges minValue tx := by
  unfold judge
  rw [hsender, hrecipient, hvalue]
  rcases hinput with h | h
  · unfold selector?
    rw [h]
  · obtain ⟨name, hname⟩ := Option.isSome_iff_exists.mp h
    simp only [hname]

theorem classify_congr {other : Transaction} (hsender : other.sender = tx.sender)
    (hrecipient : other.recipient = tx.recipient) (hvalue : other.value = tx.value)
    (hinput : other.input.take 4 = tx.input.take 4 ∨ exchanges.contains tx.sender = true)
    (isTracked : Address → Asking σ ε Bool) :
    classify exchanges minValue isTracked other = classify exchanges minValue isTracked tx := by
  unfold classify
  rw [judge_congr hsender hrecipient hvalue hinput]

/-- **The selector is read twice, and both readings agree.** -/
theorem Transaction.CallsSwap.decode_cases {router : Address} {method : SwapMethod}
    (h : tx.CallsSwap exchanges minValue router method) (value : Amount) :
    (∃ error, (error = .noArguments ∨ error = .badArguments ∨ error = .emptyPath)
        ∧ SwapCall.decode tx.input value = .error error)
      ∨ ∃ call, call.method = method ∧ SwapCall.decode tx.input value = .ok call := by
  have hinput : tx.input = method.selector.toList ++ tx.input.drop 4 := by
    rw [← h.selects, List.take_append_drop]
  rw [hinput]
  rcases SwapCall.decodes_selected method (tx.input.drop 4) value with
    ⟨error, herror, hdecodes⟩ | ⟨call, hmethod, hdecodes⟩
  · exact .inl ⟨error, herror, hdecodes.decode_eq⟩
  · exact .inr ⟨call, hmethod, hdecodes.decode_eq⟩

end

/-- **Transactions are classified by what they are, and their senders are asked for only
when nothing else is left to say.**  The question is put exactly if a wallet outside the
exchanges sends enough to another one with a swap method's selector, and then once, for the
sender; from it comes the only error.  What comes out of an exchange is a transfer, what is
in question and confirmed is a swap call, and everything else is noise, for the first reason
that applies.  Of the input only four bytes matter, and what has been taken for a swap call
is decoded as a call of the same method or fails over its arguments. -/
theorem transactions_classified {σ ε : Type} (es : List Exchange) (minValue : Amount)
    (isTracked : Address → Asking σ ε Bool) (tx : Transaction) (s : σ) :
    let exchanges := ExchangeSet.ofList es
    let answer := (isTracked tx.sender s).1
    let run := classify exchanges minValue isTracked tx s
    (∀ wallet, exchanges.nameOf? wallet
      = (es.reverse.find? fun e => e.address = wallet).map Exchange.name)
    ∧ (tx.InQuestion exchanges minValue →
      run.2 = (isTracked tx.sender s).2
        ∧ ∀ log, classify exchanges minValue (recorded isTracked) tx (s, log)
          = (run.1, run.2, log ++ [tx.sender]))
    ∧ (¬ tx.InQuestion exchanges minValue →
      run.2 = s
        ∧ ∀ log, classify exchanges minValue (recorded isTracked) tx (s, log)
          = (run.1, run.2, log))
    ∧ (∀ e, run.1 = .error e ↔ tx.InQuestion exchanges minValue ∧ answer = .error e)
    ∧ (∀ name recipient value, run.1 = .ok (.transfer name recipient value)
      ↔ tx.Reaches exchanges minValue recipient ∧ exchanges.nameOf? tx.sender = some name
        ∧ value = tx.value)
    ∧ (∀ wallet router method, run.1 = .ok (.swapCall wallet router method)
      ↔ (wallet = tx.sender ∧ tx.CallsSwap exchanges minValue router method)
        ∧ answer = .ok true)
    ∧ (∀ reason, run.1 = .ok (.ignored reason)
      ↔ (∀ recipient name, tx.Reaches exchanges minValue recipient →
          exchanges.nameOf? tx.sender ≠ some name)
        ∧ IgnoreReason.first? exchanges minValue (refuses answer) tx = some reason)
    ∧ (∀ other : Transaction, other.sender = tx.sender → other.recipient = tx.recipient →
      other.value = tx.value →
      (other.input.take 4 = tx.input.take 4 ∨ exchanges.contains tx.sender = true) →
      classify exchanges minValue isTracked other s = run)
    ∧ ∀ wallet router method, run.1 = .ok (.swapCall wallet router method) →
      ∀ value, (∀ length, SwapCall.decode tx.input value ≠ .error (.missingSelector length))
        ∧ (∀ selector, SwapCall.decode tx.input value ≠ .error (.unknownMethod selector))
        ∧ ∀ call, SwapCall.decode tx.input value = .ok call → call.method = method := by
  intro exchanges answer run
  refine ⟨ExchangeSet.nameOf?_ofList es, ?_, ?_, fun e => classify_eq_error_iff,
    fun name recipient value => classify_eq_transfer_iff,
    fun wallet router method => classify_eq_swapCall_iff,
    fun reason => classify_eq_ignored_iff, ?_, ?_⟩
  · intro hquestion
    have hasked : run.2 = (isTracked tx.sender s).2 := by
      obtain ⟨router, method, hcall⟩ := hquestion
      show (classify exchanges minValue isTracked tx s).2 = _
      rw [classify_of_callsSwap isTracked hcall]
    exact ⟨hasked, fun log => hasked ▸ classify_recorded_of_inQuestion isTracked hquestion s log⟩
  · intro hquestion
    obtain ⟨result, -, hrun⟩ := exists_classify_of_not_inQuestion (ε := ε) hquestion
    have hsilent : run = (.ok result, s) := hrun isTracked s
    rw [hsilent]
    exact ⟨rfl, fun log => hrun (recorded isTracked) (s, log)⟩
  · intro other hsender hrecipient hvalue hinput
    exact congrFun (classify_congr hsender hrecipient hvalue hinput isTracked) s
  · intro wallet router method h value
    obtain ⟨⟨-, hcall⟩, -⟩ := classify_eq_swapCall_iff.mp h
    rcases hcall.decode_cases value with ⟨error, herror, hdecode⟩ | ⟨call, hmethod, hdecode⟩
    · rw [hdecode]
      rcases herror with rfl | rfl | rfl
      · exact ⟨nofun, nofun, nofun⟩
      · exact ⟨nofun, nofun, nofun⟩
      · exact ⟨nofun, nofun, nofun⟩
    · rw [hdecode]
      exact ⟨nofun, nofun, fun call' h => Except.ok.inj h ▸ hmethod⟩

/-- The first wallet that is asked for is followed; later questions fail. -/
def followedOnce : Address → Asking Nat String Bool :=
  fun _ asked => (if asked = 0 then .ok true else .error "gone", asked + 1)

/-- A swap call with nothing behind its selector but three bytes. -/
def bareSwap : Transaction where
  hash := .zero
  sender := .ofPrefix [1]
  recipient := some (.ofPrefix [2])
  value := .clamp 7
  input := (SwapMethod.selector .exactEthForTokens).toList ++ [1, 2, 3]

/-- A swap call is asked for once, with the amount that is just enough, and not with one
that is not. -/
theorem transactions_classified_bareSwap :
    let es : List Exchange := [⟨"X", .ofPrefix [9]⟩, ⟨"Y", .ofPrefix [9]⟩]
    let exchanges := ExchangeSet.ofList es
    exchanges.nameOf? (.ofPrefix [9]) = some "Y"
    ∧ classify exchanges (.clamp 7) (recorded followedOnce) bareSwap (0, [])
      = (.ok (.swapCall (.ofPrefix [1]) (.ofPrefix [2]) .exactEthForTokens), 1,
        [.ofPrefix [1]])
    ∧ (classify exchanges (.clamp 7) followedOnce bareSwap 1).1 = .error "gone"
    ∧ classify exchanges (.clamp 8) (recorded followedOnce) bareSwap (0, [])
      = (.ok (.ignored .belowThreshold), 0, [])
    ∧ classify exchanges (.clamp 7) followedOnce
        { bareSwap with hash := .ofPrefix [1], input := bareSwap.input.take 4 } 0
      = classify exchanges (.clamp 7) followedOnce bareSwap 0
    ∧ SwapCall.decode bareSwap.input (.clamp 7) ≠ .error (.missingSelector 7) := by
  intro es exchanges
  have hcall : bareSwap.CallsSwap exchanges (.clamp 7) (.ofPrefix [2]) .exactEthForTokens :=
    ⟨⟨rfl, by decide, by decide⟩, by decide, rfl⟩
  have hlow : ¬ bareSwap.InQuestion exchanges (.clamp 8) :=
    fun ⟨_, _, h⟩ => absurd h.enough (by decide)
  obtain ⟨hnames, hasked, -, -, -, hswap, -, hsame, hdecode⟩ :=
    transactions_classified es (.clamp 7) followedOnce bareSwap 0
  obtain ⟨-, -, -, herror, -⟩ :=
    transactions_classified es (.clamp 7) followedOnce bareSwap 1
  obtain ⟨-, -, hsilent, -, -, -, hignored, -⟩ :=
    transactions_classified es (.clamp 8) followedOnce bareSwap 0
  have hrun := (hswap _ _ _).mpr ⟨⟨rfl, hcall⟩, rfl⟩
  obtain ⟨hleft, hlog⟩ := hasked ⟨_, _, hcall⟩
  have hnoise : (classify exchanges (.clamp 8) followedOnce bareSwap 0).1
      = .ok (.ignored .belowThreshold) :=
    (hignored .belowThreshold).mpr ⟨fun _ _ h => absurd h.enough (by decide), by decide⟩
  refine ⟨(hnames _).trans (by decide), (hlog []).trans ?_, (herror "gone").mpr ⟨⟨_, _, hcall⟩, rfl⟩,
    ((hsilent hlow).2 []).trans ?_, hsame _ rfl rfl rfl (.inl (by decide)),
    (hdecode _ _ _ hrun (.clamp 7)).1 7⟩
  · rw [hrun, hleft]
    rfl
  · rw [hnoise, (hsilent hlow).1]

end FundTrail
