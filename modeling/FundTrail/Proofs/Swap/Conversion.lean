/-
  FundTrail.Proofs.Swap.Conversion
  ────────────────────────────────
  **WHAT IS LOST ON THE WAY THROUGH HOPS.**

  A hop scales an amount by the ratio of its reserves and rounds down.  The remainder is
  lost, and the next hop scales what is left, so losses at the first hops are scaled by
  all the hops behind them: an amount that has come through `n` hops with the ratios
  `r₁, …, rₙ` is too small by less than the sum of the products `rᵢ₊₁ ⋯ rₙ`.

  Rounding down keeps the order of amounts, and so does the refusal of what does not fit:
  where a larger amount has a price, a smaller one has a price, and no larger one.  This
  is why amounts that are priced apart never make more than they make together, and why
  the way back through the same hops cannot fail where the way there did not.

  Main facts: `price_rounds_down` and `price_there_and_back`.
-/
import FundTrail.Swap.Price
import Mathlib.Algebra.BigOperators.Group.Finset.Basic
import Mathlib.Algebra.Order.Field.Rat
import Mathlib.Data.Nat.Cast.Order.Field
import Mathlib.Tactic.Linarith
import Mathlib.Tactic.Positivity

namespace FundTrail

/-! ## §1. One hop. -/

namespace Reserves

/-- What a hop makes of an amount; nothing if it has nothing to give out, or if that is
no amount. -/
def convert? (r : Reserves) (amount : Amount) : Option Amount :=
  if r.reserveOut = 0 then none
  else scale? amount r.reserveIn.toNat r.reserveOut.toNat

variable {r r' : Reserves} {x y z : Amount}

theorem convert?_eq_some_iff :
    r.convert? x = some y ↔
      0 < r.reserveOut.toNat ∧ y.toNat = x.toNat * r.reserveIn.toNat / r.reserveOut.toNat := by
  have hzero : r.reserveOut = 0 ↔ r.reserveOut.toNat = 0 := Word.ext_iff
  unfold convert? scale?
  by_cases hout : r.reserveOut = 0
  · rw [if_pos hout]
    have := hzero.mp hout
    constructor
    · intro h
      exact nomatch h
    · intro h
      omega
  · rw [if_neg hout, Word.ofNat?_eq_some_iff]
    have : r.reserveOut.toNat ≠ 0 := fun h => hout (hzero.mpr h)
    constructor
    · intro h
      exact ⟨by omega, h⟩
    · intro h
      exact h.2

/-- An amount that is small enough is what comes out. -/
theorem exists_convert? (hout : 0 < r.reserveOut.toNat)
    (h : x.toNat * r.reserveIn.toNat / r.reserveOut.toNat ≤ y.toNat) :
    ∃ z, r.convert? x = some z ∧ z ≤ y := by
  have hfits : x.toNat * r.reserveIn.toNat / r.reserveOut.toNat < 2 ^ 256 :=
    Nat.lt_of_le_of_lt h y.toNat_lt
  exact ⟨⟨_, hfits⟩, convert?_eq_some_iff.mpr ⟨hout, rfl⟩, h⟩

/-- The hop `r'` makes at least as much of an amount as the hop `r`: it has as much that
goes in, and no more that comes out. -/
structure Dearer (r r' : Reserves) : Prop where
  reserveIn : r.reserveIn ≤ r'.reserveIn
  nonempty : 0 < r'.reserveOut
  reserveOut : r'.reserveOut ≤ r.reserveOut

theorem Dearer.convert? (h : r.Dearer r') {x' : Amount} (hx : x ≤ x')
    (hconvert : r'.convert? x' = some y) : ∃ z, r.convert? x = some z ∧ z ≤ y := by
  obtain ⟨hpos, hy⟩ := convert?_eq_some_iff.mp hconvert
  have hout : r'.reserveOut.toNat ≤ r.reserveOut.toNat := h.reserveOut
  refine exists_convert? (by omega) ?_
  calc x.toNat * r.reserveIn.toNat / r.reserveOut.toNat
      ≤ x'.toNat * r'.reserveIn.toNat / r.reserveOut.toNat :=
        Nat.div_le_div_right (Nat.mul_le_mul hx h.reserveIn)
    _ ≤ x'.toNat * r'.reserveIn.toNat / r'.reserveOut.toNat := Nat.div_le_div_left hout hpos
    _ = y.toNat := hy.symm

/-- Two parts of an amount make no more than the amount does. -/
theorem convert?_add {a b : Amount} (hsum : x.toNat = a.toNat + b.toNat)
    (h : r.convert? x = some y) :
    ∃ u v, r.convert? a = some u ∧ r.convert? b = some v ∧ u.toNat + v.toNat ≤ y.toNat := by
  obtain ⟨hpos, hy⟩ := convert?_eq_some_iff.mp h
  have hparts : a.toNat * r.reserveIn.toNat / r.reserveOut.toNat
      + b.toNat * r.reserveIn.toNat / r.reserveOut.toNat ≤ y.toNat := by
    rw [hy, hsum, Nat.add_mul]
    exact Nat.div_add_div_le_add_div
  obtain ⟨u, hu, -⟩ := exists_convert? hpos (Nat.le_trans (Nat.le_add_right _ _) hparts)
  obtain ⟨v, hv, -⟩ := exists_convert? hpos (Nat.le_trans (Nat.le_add_left _ _) hparts)
  refine ⟨u, v, hu, hv, ?_⟩
  rw [(convert?_eq_some_iff.mp hu).2, (convert?_eq_some_iff.mp hv).2]
  exact hparts

/-- The rate of the hop. -/
def ratio (r : Reserves) : ℚ := r.reserveIn.toNat / r.reserveOut.toNat

theorem ratio_nonneg (r : Reserves) : 0 ≤ r.ratio := by
  unfold ratio
  positivity

/-- What comes out is what the rate makes of the amount, less than one unit short. -/
theorem convert?_bounds (h : r.convert? x = some y) :
    (y.toNat : ℚ) ≤ x.toNat * r.ratio ∧ x.toNat * r.ratio < y.toNat + 1 := by
  obtain ⟨hpos, hy⟩ := convert?_eq_some_iff.mp h
  have hexact : x.toNat * r.ratio
      = ((x.toNat * r.reserveIn.toNat : ℕ) : ℚ) / (r.reserveOut.toNat : ℚ) := by
    unfold ratio
    push_cast
    exact (mul_div_assoc _ _ _).symm
  have hout : (0 : ℚ) < r.reserveOut.toNat := Nat.cast_pos.mpr hpos
  rw [hexact, hy]
  constructor
  · exact Nat.cast_div_le
  · rw [div_lt_iff₀ hout, add_mul, one_mul]
    exact_mod_cast Nat.lt_div_mul_add hpos

/-- The hop in the other direction. -/
def back (r : Reserves) : Reserves := ⟨r.reserveOut, r.reserveIn⟩

/-- What comes out of a hop comes to no more than what has gone in, if it is taken back. -/
theorem convert?_back (hin : r.reserveIn ≠ 0) (h : r.convert? x = some y) (hz : z ≤ y) :
    ∃ u, r.back.convert? z = some u ∧ u ≤ x := by
  obtain ⟨-, hy⟩ := convert?_eq_some_iff.mp h
  have hpos : 0 < r.reserveIn.toNat :=
    Nat.pos_of_ne_zero fun hzero => hin (Word.ext hzero)
  refine exists_convert? hpos ?_
  show z.toNat * r.reserveOut.toNat / r.reserveIn.toNat ≤ x.toNat
  refine Nat.div_le_of_le_mul ?_
  calc z.toNat * r.reserveOut.toNat
      ≤ y.toNat * r.reserveOut.toNat := Nat.mul_le_mul_right _ hz
    _ ≤ x.toNat * r.reserveIn.toNat := by
        rw [hy]
        exact Nat.div_mul_le_self _ _
    _ = r.reserveIn.toNat * x.toNat := Nat.mul_comm _ _

end Reserves

/-! ## §2. Hop by hop. -/

variable {x y v : Amount} {r : Reserves} {rs rs' : List Reserves}

/-- Their numbers matter to the faults of hops only. -/
theorem toOption_priceFrom (hop : Nat) (x : Amount) (rs : List Reserves) :
    (priceFrom hop x rs).toOption = rs.foldlM (fun amount r => r.convert? amount) x := by
  induction rs generalizing hop x with
  | nil => rfl
  | cons r rs ih =>
    rw [List.foldlM_cons]
    unfold priceFrom Reserves.convert?
    split
    next => rfl
    next =>
      cases scale? x r.reserveIn.toNat r.reserveOut.toNat with
      | none => rfl
      | some y => exact ih (hop + 1) y

theorem price_eq_ok_iff :
    price x rs = .ok v ↔ rs.foldlM (fun amount r => r.convert? amount) x = some v := by
  rw [← toOption_priceFrom 0 x rs]
  unfold price
  cases priceFrom 0 x rs with
  | error e => exact ⟨nofun, nofun⟩
  | ok w => exact ⟨fun h => congrArg some (Except.ok.inj h), fun h => congrArg _ (Option.some.inj h)⟩

theorem price_cons_eq_ok_iff :
    price x (r :: rs) = .ok v ↔ ∃ y, r.convert? x = some y ∧ price y rs = .ok v := by
  simp only [price_eq_ok_iff, List.foldlM_cons]
  exact Option.bind_eq_some_iff

/-- **Behind some hops an amount goes on as it has come out of them.** -/
theorem price_append_eq_ok_iff :
    price x (rs ++ rs') = .ok v ↔ ∃ y, price x rs = .ok y ∧ price y rs' = .ok v := by
  simp only [price_eq_ok_iff, List.foldlM_append]
  exact Option.bind_eq_some_iff

/-! ## §3. Order. -/

/-- What has a price has come through hops that have something to give out. -/
theorem nonempty_of_price (h : price x rs = .ok v) : ∀ r ∈ rs, 0 < r.reserveOut := by
  induction rs generalizing x with
  | nil => exact nofun
  | cons r rs ih =>
    obtain ⟨y, hy, hrest⟩ := price_cons_eq_ok_iff.mp h
    intro s hs
    rcases List.mem_cons.mp hs with rfl | hs
    · exact (Reserves.convert?_eq_some_iff.mp hy).1
    · exact ih hrest s hs

/-- **Where a larger amount has a price along dearer hops, a smaller one has a price**,
and no larger one. -/
theorem price_mono (hrs : List.Forall₂ Reserves.Dearer rs rs') {x' v' : Amount} (hx : x ≤ x')
    (h : price x' rs' = .ok v') : ∃ v, price x rs = .ok v ∧ v ≤ v' := by
  induction hrs generalizing x x' with
  | nil =>
    obtain rfl := Except.ok.inj h
    exact ⟨x, rfl, hx⟩
  | cons hr hrs ih =>
    obtain ⟨y', hy', hrest'⟩ := price_cons_eq_ok_iff.mp h
    obtain ⟨y, hy, hle⟩ := hr.convert? hx hy'
    obtain ⟨v, hv, hvle⟩ := ih hle hrest'
    exact ⟨v, price_cons_eq_ok_iff.mpr ⟨y, hy, hv⟩, hvle⟩

/-- A smaller amount along the same hops. -/
theorem price_of_le {x' v' : Amount} (hx : x ≤ x') (h : price x' rs = .ok v') :
    ∃ v, price x rs = .ok v ∧ v ≤ v' := by
  refine price_mono (List.forall₂_same.mpr fun r hr => ?_) hx h
  exact ⟨Nat.le_refl _, nonempty_of_price h r hr, Nat.le_refl _⟩

/-- Parts of an amount have prices, and no more together than the amount has. -/
theorem price_add {a b : Amount} (hsum : x.toNat = a.toNat + b.toNat)
    (h : price x rs = .ok v) :
    ∃ u w, price a rs = .ok u ∧ price b rs = .ok w ∧ u.toNat + w.toNat ≤ v.toNat := by
  induction rs generalizing x v a b with
  | nil =>
    obtain rfl := Except.ok.inj h
    exact ⟨a, b, rfl, rfl, by omega⟩
  | cons r rs ih =>
    obtain ⟨y, hy, hrest⟩ := price_cons_eq_ok_iff.mp h
    obtain ⟨a', b', ha, hb, hle⟩ := Reserves.convert?_add hsum hy
    have hfits : a'.toNat + b'.toNat < 2 ^ 256 := Nat.lt_of_le_of_lt hle y.toNat_lt
    -- the two parts may have lost something, so what goes on together may be less
    obtain ⟨v', hv', hvle⟩ := price_of_le (x := ⟨_, hfits⟩) hle hrest
    obtain ⟨u, w, hu, hw, huw⟩ := ih rfl hv'
    have : v'.toNat ≤ v.toNat := hvle
    exact ⟨u, w, price_cons_eq_ok_iff.mpr ⟨a', ha, hu⟩, price_cons_eq_ok_iff.mpr ⟨b', hb, hw⟩,
      by omega⟩

/-! ## §4. The exact rate. -/

/-- The rate of a way through hops. -/
def rate (rs : List Reserves) : ℚ := (rs.map Reserves.ratio).prod

theorem rate_cons (r : Reserves) (rs : List Reserves) : rate (r :: rs) = r.ratio * rate rs :=
  List.prod_cons

theorem rate_nonneg (rs : List Reserves) : 0 ≤ rate rs := by
  induction rs with
  | nil => exact zero_le_one
  | cons r rs ih =>
    rw [rate_cons]
    exact mul_nonneg r.ratio_nonneg ih

/-- What may be lost on a way through hops: less than one unit at each of them, at the
rate of the hops behind it. -/
def slack (rs : List Reserves) : ℚ := ∑ i ∈ Finset.range rs.length, rate (rs.drop (i + 1))

theorem slack_cons (r : Reserves) (rs : List Reserves) : slack (r :: rs) = slack rs + rate rs :=
  Finset.sum_range_succ' _ _

/-- **What has come through hops is not more than the exact rate makes of the amount**,
and less by what may be lost. -/
theorem price_bounds (h : price x rs = .ok v) :
    (v.toNat : ℚ) ≤ x.toNat * rate rs ∧ (rs ≠ [] → x.toNat * rate rs - v.toNat < slack rs) := by
  induction rs generalizing x with
  | nil =>
    obtain rfl := Except.ok.inj h
    exact ⟨(mul_one _).ge, fun hnil => absurd rfl hnil⟩
  | cons r rs ih =>
    obtain ⟨y, hy, hrest⟩ := price_cons_eq_ok_iff.mp h
    obtain ⟨hle, hlt⟩ := Reserves.convert?_bounds hy
    obtain ⟨hrestLe, hrestLt⟩ := ih hrest
    have hrate := rate_nonneg rs
    rw [rate_cons, slack_cons, ← mul_assoc]
    constructor
    · exact hrestLe.trans (mul_le_mul_of_nonneg_right hle hrate)
    · intro _
      -- the loss at the first hop, at the rate of those behind it
      have hfirst : x.toNat * r.ratio * rate rs ≤ (y.toNat + 1) * rate rs :=
        mul_le_mul_of_nonneg_right hlt.le hrate
      rw [add_mul, one_mul] at hfirst
      by_cases hnil : rs = []
      · subst hnil
        obtain rfl : y = v := Except.ok.inj hrest
        have hone : rate [] = 1 := rfl
        have hnone : slack [] = 0 := rfl
        rw [hone, hnone]
        linarith
      · have := hrestLt hnil
        linarith

/-- **A price keeps the order of amounts and of reserves, is never more than the exact
rate makes of the amount, and falls short of that by a bounded loss only**; amounts priced
apart make no more than they make together. -/
theorem price_rounds_down (rs : List Reserves) :
    (∀ rs' x y v', List.Forall₂ Reserves.Dearer rs rs' → x ≤ y → price y rs' = .ok v' →
      ∃ v, price x rs = .ok v ∧ v ≤ v')
    ∧ (∀ x v, price x rs = .ok v → rs ≠ [] →
      (v.toNat : ℚ) ≤ x.toNat * rate rs ∧ x.toNat * rate rs - v.toNat < slack rs)
    ∧ (∀ x a b w, x.toNat = a.toNat + b.toNat → price x rs = .ok w →
      ∃ u v, price a rs = .ok u ∧ price b rs = .ok v ∧ u.toNat + v.toNat ≤ w.toNat) := by
  refine ⟨fun rs' x y v' hrs hxy h => ?_, fun x v h hnil => ?_, fun x a b w hsum h => ?_⟩
  · exact price_mono hrs hxy h
  · obtain ⟨hle, hlt⟩ := price_bounds h
    exact ⟨hle, hlt hnil⟩
  · exact price_add hsum h

/-- The product at the first hop is no amount; the others lose something. -/
def lossyHops : List Reserves :=
  [⟨.top, .top⟩, ⟨.clamp 1, .clamp 3⟩, ⟨.clamp 5, .clamp 2⟩]

/-- Hops that make less of an amount. -/
def scantHops : List Reserves :=
  [⟨.top, .top⟩, ⟨.clamp 1, .clamp 4⟩, ⟨.clamp 4, .clamp 2⟩]

/-- Ten become seven, which is less than the exact rate would make of them and more than
nine become at scanter hops, or three and seven apart. -/
theorem price_rounds_down_lossyHops :
    price (.clamp 10) lossyHops = .ok (.clamp 7)
      ∧ (∃ v, price (.clamp 9) scantHops = .ok v ∧ v ≤ .clamp 7)
      ∧ (7 ≤ 10 * rate lossyHops ∧ 10 * rate lossyHops - 7 < slack lossyHops)
      ∧ ∃ u v, price (.clamp 3) lossyHops = .ok u ∧ price (.clamp 7) lossyHops = .ok v
        ∧ u.toNat + v.toNat ≤ 7 := by
  have hprice : price (.clamp 10) lossyHops = .ok (.clamp 7) := by decide +kernel
  have hscant : List.Forall₂ Reserves.Dearer scantHops lossyHops :=
    .cons ⟨by decide, by decide +kernel, by decide⟩
      (.cons ⟨by decide, by decide, by decide⟩ (.cons ⟨by decide, by decide, by decide⟩ .nil))
  refine ⟨hprice, ?_, ?_, ?_⟩
  · exact (price_rounds_down scantHops).1 lossyHops (.clamp 9) (.clamp 10) (.clamp 7) hscant
      (by decide) hprice
  · exact_mod_cast (price_rounds_down lossyHops).2.1 (.clamp 10) (.clamp 7) hprice
      (List.cons_ne_nil _ _)
  · exact (price_rounds_down lossyHops).2.2 (.clamp 10) (.clamp 3) (.clamp 7) (.clamp 7)
      (by decide) hprice

/-! ## §5. There and back. -/

/-- The way back through hops: the last one first, and each in the other direction. -/
def wayBack (rs : List Reserves) : List Reserves := (rs.map Reserves.back).reverse

theorem wayBack_cons (r : Reserves) (rs : List Reserves) :
    wayBack (r :: rs) = wayBack rs ++ [r.back] :=
  List.reverse_cons

/-- **What has a price can be taken back**, and there is no more of it then than at
first. -/
theorem price_there_and_back {rs : List Reserves} {x v : Amount}
    (hrs : ∀ r ∈ rs, r.reserveIn ≠ 0 ∧ r.reserveOut ≠ 0) (h : price x rs = .ok v) :
    ∃ u, price v (wayBack rs) = .ok u ∧ u ≤ x := by
  induction rs generalizing x with
  | nil => exact ⟨v, rfl, by rw [Except.ok.inj h]; exact Nat.le_refl _⟩
  | cons r rs ih =>
    obtain ⟨y, hy, hrest⟩ := price_cons_eq_ok_iff.mp h
    -- back from the other hops there is no more than has come out of the first one
    obtain ⟨z, hz, hle⟩ := ih (fun s hs => hrs s (List.mem_cons_of_mem r hs)) hrest
    obtain ⟨u, hu, hux⟩ := Reserves.convert?_back (hrs r List.mem_cons_self).1 hy hle
    have hlast : price z [r.back] = .ok u := price_cons_eq_ok_iff.mpr ⟨u, hu, rfl⟩
    rw [wayBack_cons]
    exact ⟨u, price_append_eq_ok_iff.mpr ⟨z, hz, hlast⟩, hux⟩

/-- Ten become seven, and seven become six. -/
theorem price_there_and_back_lossyHops :
    price (.clamp 10) lossyHops = .ok (.clamp 7)
      ∧ price (.clamp 7) (wayBack lossyHops) = .ok (.clamp 6)
      ∧ (.clamp 6 : Amount) ≤ .clamp 10 := by
  have hprice : price (.clamp 10) lossyHops = .ok (.clamp 7) := by decide +kernel
  have hback : price (.clamp 7) (wayBack lossyHops) = .ok (.clamp 6) := by decide +kernel
  have hreserves : ∀ r ∈ lossyHops, r.reserveIn ≠ 0 ∧ r.reserveOut ≠ 0 := by decide +kernel
  obtain ⟨u, hu, hle⟩ := price_there_and_back hreserves hprice
  obtain rfl : u = .clamp 6 := Except.ok.inj (hu.symm.trans hback)
  exact ⟨hprice, hback, hle⟩

end FundTrail
