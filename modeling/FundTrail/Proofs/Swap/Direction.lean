/-
  FundTrail.Proofs.Swap.Direction
  ───────────────────────────────
  **FROM WHICH END A PATH IS PRICED.**

  What a unit of a path's last token is worth in its first one (`worth`) is found from the
  end of the path: the last pool says what the unit is worth in the token before it, the
  pool before that what this is worth, and so on.  A price takes the unit through the
  pools in path order instead, through the first one first.

  Without rounding the order would not matter, and it does not matter by more than what is
  lost by rounding on the one way or on the other: both come from below to what the exact
  rate makes of a unit.  But neither of the two is always the larger one, and what is too
  much for an amount, or less than one unit, on the one way need not be so on the other.

  Main fact: `pathPrice_in_path_order`.
-/
import FundTrail.Proofs.Swap.Pools

namespace FundTrail

variable {σ : Type}

/-! ## §1. What an amount is worth. -/

/-- What an amount of the last token is worth in the first one: hop by hop, from the last
one back. -/
def worth (amount : Amount) : List Reserves → Option Amount
  | [] => some amount
  | r :: rs => (worth amount rs).bind r.convert?

theorem worth_append (x : Amount) (rs rs' : List Reserves) :
    worth x (rs ++ rs') = (worth x rs').bind fun y => worth y rs := by
  induction rs with
  | nil => exact (Option.bind_fun_some _).symm
  | cons r rs ih =>
    show (worth x (rs ++ rs')).bind r.convert? = _
    rw [ih, Option.bind_assoc]
    rfl

/-- **A price is what the amount is worth at the hops in opposite order.** -/
theorem price_eq_ok_iff_worth {x v : Amount} {rs : List Reserves} :
    price x rs = .ok v ↔ worth x rs.reverse = some v := by
  induction rs generalizing x with
  | nil => exact ⟨fun h => congrArg some (Except.ok.inj h), fun h => congrArg _ (Option.some.inj h)⟩
  | cons r rs ih =>
    rw [price_cons_eq_ok_iff, List.reverse_cons, worth_append]
    show _ ↔ (r.convert? x).bind _ = some v
    rw [Option.bind_eq_some_iff]
    exact exists_congr fun y => and_congr_right fun _ => ih

/-- Where all hops have something to give out, there is no price only because something
is no amount. -/
theorem overflow_of_priceFrom {hop : Nat} {x : Amount} {rs : List Reserves} {e : PriceError}
    (hrs : ∀ r ∈ rs, r.reserveOut ≠ 0) (h : priceFrom hop x rs = .error e) : e = .overflow := by
  induction rs generalizing hop x with
  | nil => exact nomatch h
  | cons r rs ih =>
    unfold priceFrom at h
    rw [if_neg (hrs r List.mem_cons_self)] at h
    split at h
    next y _ => exact ih (fun s hs => hrs s (List.mem_cons_of_mem r hs)) h
    next => exact (Except.error.inj h).symm

theorem price_eq_overflow_iff_worth {x : Amount} {rs : List Reserves}
    (hrs : ∀ r ∈ rs, r.reserveOut ≠ 0) :
    price x rs = .error .overflow ↔ worth x rs.reverse = none := by
  constructor
  · intro h
    refine Option.eq_none_iff_forall_ne_some.mpr fun v hv => ?_
    exact nomatch h.symm.trans (price_eq_ok_iff_worth.mpr hv)
  · intro h
    cases hprice : price x rs with
    | error e => rw [overflow_of_priceFrom hrs hprice]
    | ok v => exact nomatch h.symm.trans (price_eq_ok_iff_worth.mp hprice)

theorem rate_reverse (rs : List Reserves) : rate rs.reverse = rate rs := by
  unfold rate
  rw [List.map_reverse]
  exact List.prod_reverse _

/-- A price and a worth differ by no more than what is lost on the one way or on the
other. -/
theorem worth_close {x v w : Amount} {rs : List Reserves} (hrs : rs ≠ [])
    (hv : price x rs = .ok v) (hw : worth x rs = some w) :
    (v.toNat : ℚ) - w.toNat < slack rs.reverse ∧ (w.toNat : ℚ) - v.toNat < slack rs := by
  have hback : price x rs.reverse = .ok w := by
    rw [price_eq_ok_iff_worth, List.reverse_reverse]
    exact hw
  obtain ⟨hvle, hvlt⟩ := price_bounds hv
  obtain ⟨hwle, hwlt⟩ := price_bounds hback
  have hvlt := hvlt hrs
  have hwlt := hwlt (List.reverse_eq_nil_iff.not.mpr hrs)
  rw [rate_reverse] at hwle hwlt
  constructor
  · linarith
  · linarith

/-! ## §2. Along a path. -/

section

variable {m : Market σ} {factory : Address} {path : List Address} {rs : List Reserves}

theorem pathPrice_of_quotes (hlong : 2 ≤ path.length)
    (hrs : List.Forall₂ (m.Quotes factory) (hops path) rs) {decimals : UInt8} {unit : Amount}
    (hunit : Token.unit? decimals = some unit) (s : σ) :
    (pathPrice m factory path decimals none s).1 = price unit rs := by
  have halong : reservesAlong m factory path s = (.ok rs, (reservesAlong m factory path s).2) :=
    Prod.ext (reservesAlong_of_quotes hlong hrs s) rfl
  unfold pathPrice
  rw [hunit]
  show ((reservesAlong m factory path >>= fun rs =>
    Asking.ofExcept (price unit rs) >>= fun value => pure value) s).1 = _
  rw [Asking.bind_run_ok halong]
  cases hprice : price unit rs with
  | error e => exact congrArg Prod.fst (Asking.bind_run_error rfl)
  | ok v => exact congrArg Prod.fst (Asking.bind_run_ok rfl)

/-- A path that is cut at one of its tokens has the reserves of both parts. -/
theorem exists_append_of_quotes {front back : List Address} {token : Address}
    (h : List.Forall₂ (m.Quotes factory) (hops (front ++ token :: back)) rs) :
    ∃ rs₁ rs₂, rs = rs₁ ++ rs₂
      ∧ List.Forall₂ (m.Quotes factory) (hops (front ++ [token])) rs₁
      ∧ List.Forall₂ (m.Quotes factory) (hops (token :: back)) rs₂ := by
  rw [hops_append_cons] at h
  refine ⟨_, _, (List.take_append_drop (hops (front ++ [token])).length rs).symm, ?_, ?_⟩
  · have hfront := List.forall₂_take (hops (front ++ [token])).length h
    rwa [List.take_left] at hfront
  · have hback := List.forall₂_drop (hops (front ++ [token])).length h
    rwa [List.drop_left] at hback

end

/-- **The price along a path takes the unit through the pools in path order.**  It is what
the unit would be worth if the pools came in the opposite order; it goes on, at any token
of the path, as it has come out of the pools before that token; and it is as far from what
the unit is worth as rounding can bring it, and no further. -/
theorem pathPrice_in_path_order {m : Market σ} {factory : Address} {path : List Address}
    {rs : List Reserves} {decimals : UInt8} (hlong : 2 ≤ path.length)
    (hrs : List.Forall₂ (m.Quotes factory) (hops path) rs) (hdecimals : decimals.toNat ≤ 77) :
    ∃ unit : Amount, unit.toNat = 10 ^ decimals.toNat
      ∧ (∀ s v, (pathPrice m factory path decimals none s).1 = .ok v
          ↔ worth unit rs.reverse = some v)
      ∧ ((∀ r ∈ rs, r.reserveOut ≠ 0) → ∀ s,
          (pathPrice m factory path decimals none s).1 = .error .overflow
            ↔ worth unit rs.reverse = none)
      ∧ (∀ front token back, path = front ++ token :: back →
          ∃ rs₁ rs₂, rs = rs₁ ++ rs₂
            ∧ List.Forall₂ (m.Quotes factory) (hops (front ++ [token])) rs₁
            ∧ List.Forall₂ (m.Quotes factory) (hops (token :: back)) rs₂
            ∧ ∀ s v, (pathPrice m factory path decimals none s).1 = .ok v
              ↔ ∃ y, price unit rs₁ = .ok y ∧ price y rs₂ = .ok v)
      ∧ ∀ s v w, (pathPrice m factory path decimals none s).1 = .ok v → worth unit rs = some w →
          (v.toNat : ℚ) - w.toNat < slack rs.reverse
            ∧ (w.toNat : ℚ) - v.toNat < slack rs := by
  have hfits : 10 ^ decimals.toNat < 2 ^ 256 :=
    Nat.lt_of_le_of_lt (Nat.pow_le_pow_right (by decide) hdecimals) (by decide)
  have hprice := pathPrice_of_quotes hlong hrs
    (Word.ofNat?_eq_some_iff.mpr rfl : Token.unit? decimals = some ⟨_, hfits⟩)
  have hne : rs ≠ [] := by
    rintro rfl
    have hnone := hrs.length_eq
    unfold hops at hnone
    rw [List.length_zip, List.length_tail, List.length_nil] at hnone
    omega
  refine ⟨⟨_, hfits⟩, rfl, fun s v => ?_, fun hout s => ?_, fun front token back hcut => ?_,
    fun s v w hv hw => ?_⟩
  · rw [hprice s]
    exact price_eq_ok_iff_worth
  · rw [hprice s]
    exact price_eq_overflow_iff_worth hout
  · rw [hcut] at hrs
    obtain ⟨rs₁, rs₂, rfl, hfront, hback⟩ := exists_append_of_quotes hrs
    refine ⟨rs₁, rs₂, rfl, hfront, hback, fun s v => ?_⟩
    rw [hprice s]
    exact price_append_eq_ok_iff
  · rw [hprice s] at hv
    exact worth_close hne hv hw

/-- A pool with few of the token that comes first on the path, and one with few of the
token that comes last. -/
def thinPools : Pools := .ofList
  [⟨coin 14, coin 10, .clamp 1000, .clamp 4000000⟩, ⟨coin 10, coin 1, .clamp 8000000, .clamp 2⟩]

/-- A unit that is worth a thousand has a price of nothing: taken through the first pool
first, it is rounded away. -/
theorem pathPrice_in_path_order_thinPools :
    let rs : List Reserves :=
      [⟨.clamp 1000, .clamp 4000000⟩, ⟨.clamp 8000000, .clamp 2⟩]
    (pathPrice thinPools.market .zero [coin 14, coin 10, coin 1] 0 none ()).1 = .ok 0
      ∧ worth (.clamp 1) rs.reverse = some 0
      ∧ worth (.clamp 1) rs = some (.clamp 1000)
      ∧ 1000 < slack rs := by
  intro rs
  have hquotes : List.Forall₂ (thinPools.market.Quotes .zero)
      (hops [coin 14, coin 10, coin 1]) rs :=
    .cons (thinPools.trades_market.quotes (by decide +kernel)
        ⟨by decide +kernel, by decide +kernel⟩)
      (.cons (thinPools.trades_market.quotes (by decide +kernel)
        ⟨by decide +kernel, by decide +kernel⟩) .nil)
  obtain ⟨unit, hunit, hforward, -, -, hclose⟩ :=
    @pathPrice_in_path_order _ _ _ _ _ 0 (by decide) hquotes (by decide)
  obtain rfl : unit = .clamp 1 := Word.ext hunit
  have hopposite : worth (.clamp 1) rs.reverse = some 0 := by decide +kernel
  have hback : worth (.clamp 1) rs = some (.clamp 1000) := by decide +kernel
  have hprice := (hforward () 0).mpr hopposite
  have hfar := (hclose () 0 (.clamp 1000) hprice hback).2
  have hthousand : ((1000 : Nat) : ℚ) - (0 : Nat) < slack rs := hfar
  refine ⟨hprice, hopposite, hback, ?_⟩
  push_cast at hthousand
  linarith

end FundTrail
