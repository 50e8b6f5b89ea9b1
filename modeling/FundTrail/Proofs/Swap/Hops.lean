/-
  FundTrail.Proofs.Swap.Hops
  ──────────────────────────
  **A PATH IS ASKED FOR HOP BY HOP.**

  The hops of a path are its neighbours, so a path that is cut at one of its tokens falls
  into two paths without losing a hop, and the way back has the same hops from the other
  end.  Reserves are asked for in the order of the hops; each of them is asked for only if
  those before it have reserves.

  Main facts: `hops_append_cons` and `hops_reverse` for paths; `reservesOfHops_cons_of_ok`,
  `reservesOfHops_cons_of_error` and `reservesAlong_of_quotes` for questions.
-/
import FundTrail.Proofs.Chain.Asking
import FundTrail.Swap.Price
import Mathlib.Data.List.Forall2

namespace FundTrail

variable {σ : Type}

/-! ## §1. The hops of a path. -/

/-- A path that is cut at one of its tokens loses no hop. -/
theorem hops_append_cons (front : List Address) (token : Address) (back : List Address) :
    hops (front ++ token :: back) = hops (front ++ [token]) ++ hops (token :: back) := by
  induction front with
  | nil => rfl
  | cons first front ih =>
    cases front with
    | nil => rfl
    | cons second front => exact congrArg ((first, second) :: ·) ih

theorem hops_reverse (path : List Address) :
    hops path.reverse = ((hops path).map Prod.swap).reverse := by
  induction path with
  | nil => rfl
  | cons first path ih =>
    cases path with
    | nil => rfl
    | cons second path =>
      have hcut : (first :: second :: path).reverse = path.reverse ++ second :: [first] := by
        simp
      calc hops (first :: second :: path).reverse
          = hops (path.reverse ++ [second]) ++ hops [second, first] := by
            rw [hcut]
            exact hops_append_cons path.reverse second [first]
        _ = ((hops (second :: path)).map Prod.swap).reverse ++ [(second, first)] := by
            rw [← List.reverse_cons, ih]
            rfl
        _ = ((hops (first :: second :: path)).map Prod.swap).reverse :=
            List.reverse_cons.symm

theorem hops_map (f : Address → Address) (path : List Address) :
    hops (path.map f) = (hops path).map (Prod.map f f) := by
  unfold hops
  rw [← List.map_tail]
  exact List.zip_map

theorem mem_of_mem_hops {path : List Address} {hop : Address × Address} (h : hop ∈ hops path) :
    hop.1 ∈ path ∧ hop.2 ∈ path := by
  obtain ⟨hfirst, hsecond⟩ := List.of_mem_zip h
  exact ⟨hfirst, List.mem_of_mem_tail hsecond⟩

/-- Only a path that has two tokens has a hop. -/
theorem two_le_length_of_mem_hops {path : List Address} {hop : Address × Address}
    (h : hop ∈ hops path) : 2 ≤ path.length := by
  have hpos := List.length_pos_of_mem h
  unfold hops at hpos
  rw [List.length_zip, List.length_tail] at hpos
  omega

/-! ## §2. Asking along hops. -/

section

variable {m : Market σ} {factory a b : Address} {raw : PairReserves} {r : Reserves}
  {e : PriceError} {s s₁ : σ}

theorem reservesOfHops_cons_of_ok (hraw : m.reservesOf factory a b s = (.ok raw, s₁))
    (hr : orient a b raw = .ok r) (rest : List (Address × Address)) :
    reservesOfHops m factory ((a, b) :: rest) s
      = ((reservesOfHops m factory rest s₁).1.map (r :: ·),
          (reservesOfHops m factory rest s₁).2) := by
  have hasked : (m.reservesOf factory a b).withError PriceError.chain s = (.ok raw, s₁) :=
    Asking.withError_run hraw
  have horient : (Asking.ofExcept (orient a b raw) : Asking σ PriceError Reserves) s₁
      = (.ok r, s₁) := Prod.ext hr rfl
  rw [reservesOfHops, Asking.bind_run_ok hasked, Asking.bind_run_ok horient]
  rcases hrest : reservesOfHops m factory rest s₁ with ⟨e | rs, s₂⟩
  · exact Asking.bind_run_error hrest
  · exact Asking.bind_run_ok hrest

/-- Behind a hop that gives no reserves nothing is asked. -/
theorem reservesOfHops_cons_of_error
    (h : (∃ error, m.reservesOf factory a b s = (.error error, s₁) ∧ e = .chain error)
      ∨ ∃ raw, m.reservesOf factory a b s = (.ok raw, s₁) ∧ orient a b raw = .error e)
    (rest : List (Address × Address)) :
    reservesOfHops m factory ((a, b) :: rest) s = (.error e, s₁) := by
  rw [reservesOfHops]
  rcases h with ⟨error, hasked, rfl⟩ | ⟨raw, hasked, hill⟩
  · exact Asking.bind_run_error (Asking.withError_run hasked)
  · have horient : (Asking.ofExcept (orient a b raw) : Asking σ PriceError Reserves) s₁
        = (.error e, s₁) := Prod.ext hill rfl
    rw [Asking.bind_run_ok (Asking.withError_run hasked)]
    exact Asking.bind_run_error horient

end

theorem Market.recorded_reservesOf {m : Market σ} {factory a b : Address} {s s₁ : σ}
    {answer : Except ChainError PairReserves} (h : m.reservesOf factory a b s = (answer, s₁))
    (log : List Question) :
    m.recorded.reservesOf factory a b (s, log)
      = (answer, s₁, log ++ [.reserves factory a b]) := by
  show ((m.reservesOf factory a b s).1, (m.reservesOf factory a b s).2, _) = _
  rw [h]

/-- Whenever it is asked for, the hop has these reserves. -/
def Market.Quotes (m : Market σ) (factory : Address) (hop : Address × Address) (r : Reserves) :
    Prop :=
  ∃ raw, (∀ s, (m.reservesOf factory hop.1 hop.2 s).1 = .ok raw)
    ∧ orient hop.1 hop.2 raw = .ok r

section

variable {m : Market σ} {factory : Address}

/-- **The reserves along a path are those of its hops.** -/
theorem reservesOfHops_of_quotes {pairs : List (Address × Address)} {rs : List Reserves}
    (h : List.Forall₂ (m.Quotes factory) pairs rs) (s : σ) :
    (reservesOfHops m factory pairs s).1 = .ok rs := by
  induction h generalizing s with
  | nil => rfl
  | cons hquotes _ ih =>
    obtain ⟨raw, hraw, horient⟩ := hquotes
    rw [reservesOfHops_cons_of_ok (Prod.ext (hraw s) rfl) horient, ih]
    rfl

theorem reservesAlong_of_quotes {path : List Address} {rs : List Reserves}
    (hlong : 2 ≤ path.length) (h : List.Forall₂ (m.Quotes factory) (hops path) rs) (s : σ) :
    (reservesAlong m factory path s).1 = .ok rs := by
  unfold reservesAlong
  rw [if_neg (Nat.not_lt.mpr hlong)]
  exact reservesOfHops_of_quotes h s

end

end FundTrail
