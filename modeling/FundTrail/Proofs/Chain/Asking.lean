/-
  FundTrail.Proofs.Chain.Asking
  ─────────────────────────────
  **WHAT CAN BE SAID OF QUESTIONS.**

  `Ends x s Q` says that the question `x`, asked in the state `s`, is answered and
  leaves a state as `Q` has it — an error is an answer as well.  `Obeys P R x` is
  the case where nothing depends on the state but that it has `P`, before and
  after.  Questions that are put together end as their parts do, so a statement
  about a long series of questions is assembled from one lemma for each.

  `Agree P P' R x y` compares two questions: wherever they are asked in `P` and
  in `P'`, the answer is one and the same.  `Alike R x y` compares them in states
  that `R` relates: the answer is the same, and the states are related again.

  Main facts: `Ends.bind`, `Obeys.bind`, `Agree.bind` and `Alike.bind`.
-/
import FundTrail.Chain.Basic

namespace FundTrail

variable {σ ε ε' α β : Type}

/-- An answer that is none of the errors has `Q`. -/
def Gives (Q : α → Prop) : Except ε α → Prop
  | .ok a => Q a
  | .error _ => True

theorem Gives.imp {Q Q' : α → Prop} (h : ∀ a, Q a → Q' a) {x : Except ε α} (hx : Gives Q x) :
    Gives Q' x := by
  cases x with
  | ok a => exact h a hx
  | error e => trivial

namespace Asking

/-- It does not matter how questions that follow on one another are grouped. -/
instance : LawfulMonad (Asking σ ε) := by
  refine LawfulMonad.mk' _ (fun x => funext fun s => ?_) (fun _ _ => rfl)
    fun x f g => funext fun s => ?_
  · show x.andThen (fun a => Asking.answer a) s = x s
    unfold Asking.andThen
    rcases x s with ⟨e | a, t⟩ <;> rfl
  · show (x.andThen f).andThen g s = x.andThen (fun a => (f a).andThen g) s
    unfold Asking.andThen
    rcases x s with ⟨e | a, t⟩ <;> rfl

section

variable {x : Asking σ ε α} {f : α → Asking σ ε β} {s s' : σ}

theorem bind_run_ok {y : α} (h : x s = (.ok y, s')) : (x >>= f) s = f y s' := by
  show x.andThen f s = f y s'
  unfold Asking.andThen
  rw [h]

theorem bind_run_error {e : ε} (h : x s = (.error e, s')) : (x >>= f) s = (.error e, s') := by
  show x.andThen f s = (.error e, s')
  unfold Asking.andThen
  rw [h]

theorem bind_run_eq_ok {t : σ} {z : β} (h : (x >>= f) s = (.ok z, t)) :
    ∃ y s', x s = (.ok y, s') ∧ f y s' = (.ok z, t) := by
  change x.andThen f s = (.ok z, t) at h
  unfold Asking.andThen at h
  rcases hx : x s with ⟨e | y, s'⟩
  · rw [hx] at h
    cases h
  · rw [hx] at h
    exact ⟨y, s', rfl, h⟩

theorem withError_run {y : Except ε α} {g : ε → ε'} (h : x s = (y, s')) :
    x.withError g s = (y.mapError g, s') := by
  unfold Asking.withError
  rw [h]
  cases y with
  | error e => rfl
  | ok a => rfl

end

/-- Asked in `s`, the question is answered and leaves a state as `Q` has it. -/
def Ends (x : Asking σ ε α) (s : σ) (Q : Except ε α → σ → Prop) : Prop := Q (x s).1 (x s).2

namespace Ends

variable {x : Asking σ ε α} {s : σ} {Q : Except ε α → σ → Prop}

theorem imp {Q' : Except ε α → σ → Prop} (h : x.Ends s Q) (hq : ∀ r t, Q r t → Q' r t) :
    x.Ends s Q' :=
  hq _ _ h

/-- **A question that follows on an answer** is asked in the state that it has left. -/
theorem bind {R : Except ε β → σ → Prop} {f : α → Asking σ ε β} (h : x.Ends s Q)
    (hok : ∀ a t, Q (.ok a) t → (f a).Ends t R)
    (herror : ∀ e t, Q (.error e) t → R (.error e) t) : (x >>= f).Ends s R := by
  change Q (x s).1 (x s).2 at h
  show R (x.andThen f s).1 (x.andThen f s).2
  unfold Asking.andThen
  generalize x s = answered at h ⊢
  obtain ⟨e | a, t⟩ := answered
  · exact herror e t h
  · exact hok a t h

/-- A question whose answer is known. -/
theorem bind_of_ok {R : Except ε β → σ → Prop} {f : α → Asking σ ε β} {a : α} {t : σ}
    (h : x s = (.ok a, t)) (hf : (f a).Ends t R) : (x >>= f).Ends s R := by
  unfold Ends
  rw [bind_run_ok h]
  exact hf

end Ends

/-- From a state with `P` the answer is as `R` has it, and the state has `P` again. -/
def Obeys (P : σ → Prop) (R : Except ε α → Prop) (x : Asking σ ε α) : Prop :=
  ∀ s, P s → R (x s).1 ∧ P (x s).2

namespace Obeys

variable {P : σ → Prop}

theorem imp {R R' : Except ε α → Prop} {x : Asking σ ε α} (h : Obeys P R x)
    (hr : ∀ r, R r → R' r) : Obeys P R' x :=
  fun s hs => ⟨hr _ (h s hs).1, (h s hs).2⟩

theorem pure {R : Except ε α → Prop} {a : α} (h : R (.ok a)) :
    Obeys P R (Pure.pure a : Asking σ ε α) :=
  fun _ hs => ⟨h, hs⟩

theorem fail {R : Except ε α → Prop} {e : ε} (h : R (.error e)) :
    Obeys P R (Asking.fail e) :=
  fun _ hs => ⟨h, hs⟩

theorem ofExcept {R : Except ε α → Prop} {x : Except ε α} (h : R x) :
    Obeys P R (Asking.ofExcept x) :=
  fun _ hs => ⟨h, hs⟩

theorem withError {R : Except ε α → Prop} {R' : Except ε' α → Prop} {x : Asking σ ε α}
    {f : ε → ε'} (h : Obeys P R x) (hr : ∀ r, R r → R' (r.mapError f)) :
    Obeys P R' (x.withError f) := by
  intro s hs
  have hx := h s hs
  unfold Asking.withError
  generalize x s = answered at hx ⊢
  obtain ⟨e | a, s'⟩ := answered
  · exact ⟨hr _ hx.1, hx.2⟩
  · exact ⟨hr _ hx.1, hx.2⟩

/-- **A question that follows on an answer.** -/
theorem bind {R : Except ε α → Prop} {R' : Except ε β → Prop} {x : Asking σ ε α}
    {f : α → Asking σ ε β} (h : Obeys P R x) (hok : ∀ a, R (.ok a) → Obeys P R' (f a))
    (herror : ∀ e, R (.error e) → R' (.error e)) : Obeys P R' (x >>= f) := fun s hs =>
  Ends.bind (Q := fun r t => R r ∧ P t) (R := fun r t => R' r ∧ P t) (h s hs)
    (fun a t ha => hok a ha.1 t ha.2) fun e _ he => ⟨herror e he.1, he.2⟩

/-- An answer that is known. -/
theorem bind_of_ok {R : Except ε β → Prop} {x : Asking σ ε α} {f : α → Asking σ ε β} {a : α}
    (h : Obeys P (· = .ok a) x) (hf : Obeys P R (f a)) : Obeys P R (x >>= f) := by
  refine h.bind ?_ ?_
  · intro a' ha
    obtain rfl := Except.ok.inj ha
    exact hf
  · intro e he
    cases he

/-- An error that is known is the error in the end. -/
theorem bind_of_error {x : Asking σ ε α} {f : α → Asking σ ε β} {e : ε}
    (h : Obeys P (· = .error e) x) : Obeys P (· = .error e) (x >>= f) := by
  refine h.bind ?_ ?_
  · intro a ha
    cases ha
  · intro e' he
    rw [Except.error.inj he]

/-- What is given is all that matters. -/
theorem bind_gives {Q : α → Prop} {Q' : β → Prop} {x : Asking σ ε α} {f : α → Asking σ ε β}
    (h : Obeys P (Gives Q) x) (hok : ∀ a, Q a → Obeys P (Gives Q') (f a)) :
    Obeys P (Gives Q') (x >>= f) :=
  h.bind hok fun _ _ => trivial

theorem withError_gives {Q : α → Prop} {x : Asking σ ε α} {f : ε → ε'}
    (h : Obeys P (Gives Q) x) : Obeys P (Gives Q) (x.withError f) :=
  h.withError fun r hr => by
    cases r with
    | ok a => exact hr
    | error e => trivial

end Obeys

/-- Asked in states with `P` and with `P'`, the two questions have always the same
answer, and it is as `R` has it. -/
def Agree (P P' : σ → Prop) (R : Except ε α → Prop) (x y : Asking σ ε α) : Prop :=
  ∃ r, R r ∧ Obeys P (· = r) x ∧ Obeys P' (· = r) y

namespace Agree

variable {P P' : σ → Prop}

theorem pure {R : Except ε α → Prop} {a : α} (h : R (.ok a)) :
    Agree P P' R (Pure.pure a : Asking σ ε α) (Pure.pure a) :=
  ⟨.ok a, h, .pure rfl, .pure rfl⟩

theorem fail {R : Except ε α → Prop} {e : ε} (h : R (.error e)) :
    Agree P P' R (Asking.fail e) (Asking.fail e) :=
  ⟨.error e, h, .fail rfl, .fail rfl⟩

theorem ofExcept {R : Except ε α → Prop} {x : Except ε α} (h : R x) :
    Agree P P' R (Asking.ofExcept x) (Asking.ofExcept x) :=
  ⟨x, h, .ofExcept rfl, .ofExcept rfl⟩

theorem withError {R : Except ε α → Prop} {R' : Except ε' α → Prop} {x y : Asking σ ε α}
    {f : ε → ε'} (h : Agree P P' R x y) (hr : ∀ r, R r → R' (r.mapError f)) :
    Agree P P' R' (x.withError f) (y.withError f) := by
  obtain ⟨r, hR, hx, hy⟩ := h
  have hf : ∀ s, s = r → s.mapError f = r.mapError f := fun s hs => by rw [hs]
  exact ⟨r.mapError f, hr r hR, hx.withError hf, hy.withError hf⟩

/-- **Questions that follow on an answer agree if the answers do.** -/
theorem bind {R : Except ε α → Prop} {R' : Except ε β → Prop} {x y : Asking σ ε α}
    {f g : α → Asking σ ε β} (h : Agree P P' R x y)
    (hok : ∀ a, R (.ok a) → Agree P P' R' (f a) (g a))
    (herror : ∀ e, R (.error e) → R' (.error e)) : Agree P P' R' (x >>= f) (y >>= g) := by
  obtain ⟨r, hR, hx, hy⟩ := h
  cases r with
  | error e => exact ⟨.error e, herror e hR, hx.bind_of_error, hy.bind_of_error⟩
  | ok a =>
    obtain ⟨r', hR', hf, hg⟩ := hok a hR
    exact ⟨r', hR', hx.bind_of_ok hf, hy.bind_of_ok hg⟩

end Agree

/-- Asked in related states, the two questions have the same answer, and the states
they leave are related. -/
def Alike {τ : Type} (R : σ → τ → Prop) (x : Asking σ ε α) (y : Asking τ ε α) : Prop :=
  ∀ v w, R v w → (x v).1 = (y w).1 ∧ R (x v).2 (y w).2

namespace Alike

variable {τ : Type} {R : σ → τ → Prop}

/-- Such questions taken in cases: the same answer, and states to go on from. -/
theorem cases {x : Asking σ ε α} {y : Asking τ ε α} (h : x.Alike R y) {v : σ} {w : τ}
    (hr : R v w) :
    (∃ e v' w', x v = (.error e, v') ∧ y w = (.error e, w') ∧ R v' w') ∨
      ∃ a v' w', x v = (.ok a, v') ∧ y w = (.ok a, w') ∧ R v' w' := by
  obtain ⟨he, hr'⟩ := h v w hr
  rcases hx : x v with ⟨e | a, v'⟩
  · refine .inl ⟨e, v', (y w).2, rfl, ?_, by rw [hx] at hr'; exact hr'⟩
    rw [hx] at he
    exact Prod.ext he.symm rfl
  · refine .inr ⟨a, v', (y w).2, rfl, ?_, by rw [hx] at hr'; exact hr'⟩
    rw [hx] at he
    exact Prod.ext he.symm rfl

theorem pure (a : α) : Alike R (Pure.pure a : Asking σ ε α) (Pure.pure a) :=
  fun _ _ hr => ⟨rfl, hr⟩

theorem fail (e : ε) : Alike R (Asking.fail e : Asking σ ε α) (Asking.fail e) :=
  fun _ _ hr => ⟨rfl, hr⟩

theorem ofExcept (x : Except ε α) : Alike R (Asking.ofExcept x) (Asking.ofExcept x) :=
  fun _ _ hr => ⟨rfl, hr⟩

theorem withError {x : Asking σ ε α} {y : Asking τ ε α} (h : x.Alike R y) (f : ε → ε') :
    (x.withError f).Alike R (y.withError f) := by
  intro v w hr
  unfold Asking.withError
  rcases h.cases hr with ⟨e, v', w', hv, hw, hr⟩ | ⟨a, v', w', hv, hw, hr⟩
  · rw [hv, hw]
    exact ⟨rfl, hr⟩
  · rw [hv, hw]
    exact ⟨rfl, hr⟩

/-- **Questions that follow on an answer.** -/
theorem bind {x : Asking σ ε α} {y : Asking τ ε α} {f : α → Asking σ ε β}
    {g : α → Asking τ ε β} (h : x.Alike R y) (hf : ∀ a, (f a).Alike R (g a)) :
    (x >>= f).Alike R (y >>= g) := by
  intro v w hr
  show (x.andThen f v).1 = (y.andThen g w).1 ∧ R (x.andThen f v).2 (y.andThen g w).2
  unfold Asking.andThen
  rcases h.cases hr with ⟨e, v', w', hv, hw, hr⟩ | ⟨a, v', w', hv, hw, hr⟩
  · rw [hv, hw]
    exact ⟨rfl, hr⟩
  · rw [hv, hw]
    exact hf a v' w' hr

end Alike

end Asking

end FundTrail
