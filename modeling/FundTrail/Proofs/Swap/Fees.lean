/-
  FundTrail.Proofs.Swap.Fees
  ──────────────────────────
  **A FEE THAT HAS BEEN CONFIGURED NEVER COSTS A SWAP.**

  A fee is applied to a price at the very end, when everything has been asked for, and it
  is one more multiplication that might not fit.  It does fit where the factor is at most
  one, and no larger factor is accepted from the environment.  So with a fee exactly the
  same paths have a price as without one, the others fail with the same error, and what
  the fee leaves of a price is known to the last wei.

  Main fact: `configured_fee_spares_prices`.
-/
import FundTrail.Config.Booking
import FundTrail.Proofs.Swap.Pools

namespace FundTrail

variable {σ : Type}

/-! ## §1. Fees of all sizes. -/

theorem scale?_eq_none_iff {amount : Amount} {num den : Nat} :
    scale? amount num den = none ↔ 2 ^ 256 ≤ amount.toNat * num / den :=
  Word.ofNat?_eq_none_iff

theorem scale?_eq_some_iff {amount scaled : Amount} {num den : Nat} :
    scale? amount num den = some scaled ↔ scaled.toNat = amount.toNat * num / den :=
  Word.ofNat?_eq_some_iff

namespace Fee

variable {fee fee' : Fee} {v v' w w' : Amount}

/-- **What a fee leaves is rounded down, once.** -/
theorem apply_eq_ok_iff : fee.apply v = .ok w ↔ w.toNat = v.toNat * fee.toNat / 10000 := by
  rw [← scale?_eq_some_iff]
  unfold Fee.apply
  cases scale? v fee.toNat 10000 with
  | none => exact ⟨nofun, nofun⟩
  | some scaled =>
    constructor
    · intro h
      rw [Except.ok.inj h]
    · intro h
      rw [Option.some.inj h]

/-- The only thing that can go wrong is that the result is no amount. -/
theorem apply_eq_error_iff {e : PriceError} :
    fee.apply v = .error e ↔ e = .overflow ∧ 2 ^ 256 ≤ v.toNat * fee.toNat / 10000 := by
  rw [← scale?_eq_none_iff]
  unfold Fee.apply
  cases scale? v fee.toNat 10000 with
  | none =>
    constructor
    · intro h
      exact ⟨(Except.error.inj h).symm, rfl⟩
    · intro h
      rw [h.1]
  | some scaled => exact ⟨nofun, fun h => nomatch h.2⟩

/-- A factor of at most one takes something off every amount, or nothing. -/
theorem exists_apply (h : fee.toNat ≤ 10000) (v : Amount) :
    ∃ w, fee.apply v = .ok w ∧ w.toNat = v.toNat * fee.toNat / 10000 ∧ w ≤ v := by
  have hle : v.toNat * fee.toNat / 10000 ≤ v.toNat := by
    refine Nat.div_le_of_le_mul ?_
    rw [Nat.mul_comm 10000]
    exact Nat.mul_le_mul_left _ h
  exact ⟨⟨_, Nat.lt_of_le_of_lt hle v.toNat_lt⟩, apply_eq_ok_iff.mpr rfl, rfl, hle⟩

/-- More is left of more, and by a larger factor. -/
theorem apply_mono (hfee : fee ≤ fee') (hv : v ≤ v') (h : fee.apply v = .ok w)
    (h' : fee'.apply v' = .ok w') : w ≤ w' := by
  show w.toNat ≤ w'.toNat
  rw [apply_eq_ok_iff.mp h, apply_eq_ok_iff.mp h']
  exact Nat.div_le_div_right (Nat.mul_le_mul hv hfee)

end Fee

/-! ## §2. Fees from the environment. -/

/-- A factor above one counts as none. -/
theorem BookingConfig.fee_le_of_ofEnvironment {env : Environment} {fee : Fee}
    (h : (BookingConfig.ofEnvironment env).fee = some fee) : fee.toNat ≤ 10000 := by
  change BookingConfig.feeOf (env.get? "PRICE_FEE_BPS") = some fee at h
  unfold BookingConfig.feeOf at h
  obtain ⟨given, -, hgiven⟩ := Option.bind_eq_some_iff.mp h
  split at hgiven
  next hle =>
    obtain rfl := Option.some.inj hgiven
    exact hle
  next => exact nomatch hgiven

/-! ## §3. Prices less a fee. -/

section

variable (m : Market σ) (factory : Address) (path : List Address) (decimals : UInt8) (fee : Fee)
  (s : σ)

/-- A price less a fee is the price, and then the fee: the chain is asked the same. -/
theorem pathPrice_some_fee :
    pathPrice m factory path decimals (some fee) s
      = ((pathPrice m factory path decimals none s).1.bind fee.apply,
          (pathPrice m factory path decimals none s).2) := by
  unfold pathPrice
  cases Token.unit? decimals with
  | none => rfl
  | some unit =>
    show (reservesAlong m factory path >>= fun rs => Asking.ofExcept (price unit rs) >>= fun value =>
        Asking.ofExcept (fee.apply value)) s
      = (((reservesAlong m factory path >>= fun rs => Asking.ofExcept (price unit rs) >>= fun value =>
          pure value) s).1.bind fee.apply,
        ((reservesAlong m factory path >>= fun rs => Asking.ofExcept (price unit rs) >>= fun value =>
          pure value) s).2)
    -- up to the price both runs are one
    rcases hrs : reservesAlong m factory path s with ⟨e | rs, s₁⟩
    · rw [Asking.bind_run_error hrs, Asking.bind_run_error hrs]
      rfl
    · rw [Asking.bind_run_ok hrs, Asking.bind_run_ok hrs]
      cases price unit rs with
      | error e => rfl
      | ok value => rfl

variable {m factory path decimals fee s}

/-- What has a price has one less the fee. -/
theorem exists_pathPrice_less_fee (hfee : fee.toNat ≤ 10000) {v : Amount}
    (hv : (pathPrice m factory path decimals none s).1 = .ok v) :
    ∃ w, (pathPrice m factory path decimals (some fee) s).1 = .ok w
      ∧ fee.apply v = .ok w ∧ w.toNat = v.toNat * fee.toNat / 10000 ∧ w ≤ v := by
  obtain ⟨w, hw, hfloor, hle⟩ := Fee.exists_apply hfee v
  refine ⟨w, ?_, hw, hfloor, hle⟩
  rw [pathPrice_some_fee, hv]
  exact hw

/-- What has no price has none less the fee, and for the same reason. -/
theorem pathPrice_less_fee_eq_error_iff (hfee : fee.toNat ≤ 10000) {e : PriceError} :
    (pathPrice m factory path decimals (some fee) s).1 = .error e
      ↔ (pathPrice m factory path decimals none s).1 = .error e := by
  cases hplain : (pathPrice m factory path decimals none s).1 with
  | error e' =>
    rw [pathPrice_some_fee, hplain]
    rfl
  | ok v =>
    obtain ⟨w, hw, -⟩ := exists_pathPrice_less_fee hfee hplain
    rw [hw]
    exact ⟨nofun, nofun⟩

end

/-- **A configured fee never costs a swap.**  Where there is a price without it there is
one with it, rounded down and no larger, and a larger price or a larger factor leaves no
less; where there is none, the error is the same.  Only a factor above one, which no
environment can set, may lead out of the amounts. -/
theorem configured_fee_spares_prices :
    (∀ (env : Environment) (fee : Fee), (BookingConfig.ofEnvironment env).fee = some fee →
      (BookingConfig.ofEnvironment env).settings.fee = some fee
      ∧ (∀ {σ : Type} (m : Market σ) (factory : Address) (path : List Address)
          (decimals : UInt8) (s : σ),
        let plain := pathPrice m factory path decimals none s
        let charged := pathPrice m factory path decimals (some fee) s
        charged.2 = plain.2
          ∧ (∀ e, charged.1 = .error e ↔ plain.1 = .error e)
          ∧ ∀ v, plain.1 = .ok v →
            ∃ w, charged.1 = .ok w ∧ w.toNat = v.toNat * fee.toNat / 10000 ∧ w ≤ v)
      ∧ ∀ (env' : Environment) (fee' : Fee), (BookingConfig.ofEnvironment env').fee = some fee' →
        fee ≤ fee' →
        ∀ {σ τ : Type} (m : Market σ) (m' : Market τ) (factory factory' : Address)
          (path path' : List Address) (decimals decimals' : UInt8) (s : σ) (s' : τ) (v v' : Amount),
        (pathPrice m factory path decimals none s).1 = .ok v →
        (pathPrice m' factory' path' decimals' none s').1 = .ok v' → v ≤ v' →
        ∃ w w', (pathPrice m factory path decimals (some fee) s).1 = .ok w
          ∧ (pathPrice m' factory' path' decimals' (some fee') s').1 = .ok w' ∧ w ≤ w')
    ∧ ∀ (fee : Fee) (v : Amount),
      (fee.apply v = .error .overflow ↔ 2 ^ 256 ≤ v.toNat * fee.toNat / 10000)
        ∧ (v.toNat * fee.toNat / 10000 < 2 ^ 256 →
          ∃ w, fee.apply v = .ok w ∧ w.toNat = v.toNat * fee.toNat / 10000) := by
  refine ⟨fun env fee henv => ⟨henv, ?_, ?_⟩, fun fee v => ⟨?_, ?_⟩⟩
  · intro σ m factory path decimals s plain charged
    have hfee := BookingConfig.fee_le_of_ofEnvironment henv
    refine ⟨?_, fun e => pathPrice_less_fee_eq_error_iff hfee, fun v hv => ?_⟩
    · show (pathPrice m factory path decimals (some fee) s).2 = _
      rw [pathPrice_some_fee]
    · obtain ⟨w, hw, -, hfloor, hle⟩ := exists_pathPrice_less_fee hfee hv
      exact ⟨w, hw, hfloor, hle⟩
  · intro env' fee' henv' hle σ τ m m' factory factory' path path' decimals decimals' s s' v v'
      hv hv' hvle
    have hfee := BookingConfig.fee_le_of_ofEnvironment henv
    have hfee' := BookingConfig.fee_le_of_ofEnvironment henv'
    obtain ⟨w, hw, happly, -⟩ := exists_pathPrice_less_fee hfee hv
    obtain ⟨w', hw', happly', -⟩ := exists_pathPrice_less_fee hfee' hv'
    exact ⟨w, w', hw, hw', Fee.apply_mono hle hvle happly happly'⟩
  · rw [Fee.apply_eq_error_iff]
    exact and_iff_right rfl
  · intro hfits
    exact ⟨⟨_, hfits⟩, Fee.apply_eq_ok_iff.mpr rfl, rfl⟩

/-- An environment that sets the fee, with blanks around it. -/
def feeSet (text : String) : Environment := ⟨[("PRICE_FEE_BPS", text)]⟩

/-- Of a price of 655 a fee of three percent leaves 635, and no fee at all leaves
everything; a pair that is missing is missing with a fee as well.  A factor above one can
lead out of the amounts. -/
theorem configured_fee_spares_prices_somePools :
    let path := [coin 5, coin 2, coin 9]
    let there := fun fee => (pathPrice somePools.market .zero path 3 fee ()).1
    there none = .ok (.clamp 655)
      ∧ (∃ w, there (some (.clamp 9700)) = .ok w ∧ w.toNat = 635)
      ∧ (∃ w w', there (some (.clamp 9700)) = .ok w ∧ there (some (.clamp 10000)) = .ok w'
        ∧ w ≤ w')
      ∧ (pathPrice somePools.market .zero [coin 5, coin 9] 3 (some (.clamp 9700)) ()).1
        = .error (.chain (.pairNotFound (coin 5) (coin 9)))
      ∧ Fee.apply (.clamp 10001) .top = .error .overflow := by
  intro path there
  have hfee : (BookingConfig.ofEnvironment (feeSet " 9700 ")).fee = some (.clamp 9700) := by
    decide +kernel
  have hnone : (BookingConfig.ofEnvironment (feeSet "+10000")).fee = some (.clamp 10000) := by
    decide +kernel
  have hplain : there none = .ok (.clamp 655) := by decide +kernel
  obtain ⟨hset, hovershoot⟩ := configured_fee_spares_prices
  obtain ⟨-, hpriced, hordered⟩ := hset (feeSet " 9700 ") (.clamp 9700) hfee
  refine ⟨hplain, ?_, ?_, ?_, ?_⟩
  · obtain ⟨w, hw, hfloor, -⟩ := (hpriced somePools.market .zero path 3 ()).2.2 _ hplain
    exact ⟨w, hw, hfloor⟩
  · exact hordered (feeSet "+10000") (.clamp 10000) hnone (by decide) somePools.market
      somePools.market .zero .zero path path 3 3 () () _ _ hplain hplain (Nat.le_refl _)
  · exact ((hpriced somePools.market .zero [coin 5, coin 9] 3 ()).2.1 _).mpr (by decide +kernel)
  · exact (hovershoot (.clamp 10001) .top).1.mpr (by decide)

end FundTrail
