/-
  FundTrail.Proofs.Chain.Minutes
  ──────────────────────────────
  **WHAT A CHAIN WAS ASKED, AND WHAT IT SAID.**

  A market that keeps minutes notes every question together with its answer, and is the
  same market otherwise.  From the minutes it can be told what was known when, without a
  look at what anybody remembered: which factory a router named first, and what a token
  said of itself first.

  Main definitions: `Market.minuted`, `factoryIn`, `toldIn` and `InTurn` — questions in
  order, up to the first that fails.  `mirrors_minuted` says that keeping minutes changes
  nothing.
-/
import FundTrail.Proofs.Chain.Asking
import FundTrail.Swap.Price
import Mathlib.Data.List.Nodup

namespace FundTrail

/-! ## §1. Consultations. -/

/-- A question to a market, with its answer. -/
inductive Consultation where
  | factory (router : Address) (answer : Except ChainError Address)
  | metadata (token : Address) (answer : Except ChainError Metadata)
  | reserves (factory tokenA tokenB : Address) (answer : Except ChainError PairReserves)

namespace Consultation

/-- The question alone. -/
def question : Consultation → Question
  | .factory router _ => .factory router
  | .metadata token _ => .metadata token
  | .reserves f a b _ => .reserves f a b

/-- The factory that a router has named. -/
def factoryOf? (router : Address) : Consultation → Option Address
  | .factory r (.ok f) => if r = router then some f else none
  | _ => none

/-- What a token has said of itself. -/
def toldOf? (token : Address) : Consultation → Option Metadata
  | .metadata t (.ok answer) => if t = token then some answer else none
  | _ => none

/-- The reserves of a hop, as seen from its first token. -/
def reserves? : Consultation → Option Reserves
  | .reserves _ a b (.ok raw) => (orient a b raw).toOption
  | _ => none

/-- No answer came of it, or none that a hop can be reckoned with. -/
def Failed : Consultation → Prop
  | .factory _ answer => ∃ e, answer = .error e
  | .metadata _ answer => ∃ e, answer = .error e
  | .reserves f a b answer => reserves? (.reserves f a b answer) = none

end Consultation

theorem Consultation.failed_factory (router : Address) (e : ChainError) :
    (Consultation.factory router (.error e)).Failed := ⟨e, rfl⟩

theorem Consultation.failed_metadata (token : Address) (e : ChainError) :
    (Consultation.metadata token (.error e)).Failed := ⟨e, rfl⟩

theorem Consultation.failed_reserves_iff {factory a b : Address}
    {answer : Except ChainError PairReserves} :
    (Consultation.reserves factory a b answer).Failed
      ↔ (Consultation.reserves factory a b answer).reserves? = none := Iff.rfl

theorem Consultation.not_failed_factory (router factory : Address) :
    ¬ (Consultation.factory router (.ok factory)).Failed :=
  fun h => nomatch Exists.choose_spec h

theorem Consultation.not_failed_metadata (token : Address) (told : Metadata) :
    ¬ (Consultation.metadata token (.ok told)).Failed :=
  fun h => nomatch Exists.choose_spec h

/-- The factory that a router has named first. -/
def factoryIn (log : List Consultation) (router : Address) : Option Address :=
  log.findSome? (Consultation.factoryOf? router)

/-- What a token has said of itself first. -/
def toldIn (log : List Consultation) (token : Address) : Option Metadata :=
  log.findSome? (Consultation.toldOf? token)

section

variable {log log' : List Consultation} {router token : Address}

theorem factoryIn_append : factoryIn (log ++ log') router
    = (factoryIn log router).or (factoryIn log' router) :=
  List.findSome?_append

theorem toldIn_append : toldIn (log ++ log') token = (toldIn log token).or (toldIn log' token) :=
  List.findSome?_append

theorem factoryIn_singleton (router : Address) (answer : Except ChainError Address)
    (r : Address) : factoryIn [.factory router answer] r
      = if router = r then answer.toOption else none := by
  unfold factoryIn
  rw [List.findSome?_singleton]
  cases answer with
  | error e => exact (ite_self none).symm
  | ok factory => rfl

theorem toldIn_singleton (token : Address) (answer : Except ChainError Metadata)
    (t : Address) : toldIn [.metadata token answer] t
      = if token = t then answer.toOption else none := by
  unfold toldIn
  rw [List.findSome?_singleton]
  cases answer with
  | error e => exact (ite_self none).symm
  | ok told => rfl

/-- Who has not been asked has named nothing. -/
theorem factoryIn_of_not_asked (h : ∀ c ∈ log, c.question ≠ .factory router) :
    factoryIn log router = none := by
  refine List.findSome?_eq_none_iff.mpr fun c hc => ?_
  have hne := h c hc
  cases c with
  | factory r answer =>
    have hr : r ≠ router := fun heq => hne (congrArg Question.factory heq)
    cases answer with
    | error e => rfl
    | ok factory => exact if_neg hr
  | metadata token answer => rfl
  | reserves factory a b answer => rfl

theorem toldIn_of_not_asked (h : ∀ c ∈ log, c.question ≠ .metadata token) :
    toldIn log token = none := by
  refine List.findSome?_eq_none_iff.mpr fun c hc => ?_
  have hne := h c hc
  cases c with
  | factory router answer => rfl
  | metadata t answer =>
    have ht : t ≠ token := fun heq => hne (congrArg Question.metadata heq)
    cases answer with
    | error e => rfl
    | ok told => exact if_neg ht
  | reserves factory a b answer => rfl

end

/-! ## §2. Questions in turn. -/

/-- The questions are asked in order, until all have been asked or one has failed. -/
inductive InTurn : List Question → List Consultation → Prop where
  | done : InTurn [] []
  | failed {c : Consultation} {questions : List Question} :
      c.Failed → InTurn (c.question :: questions) [c]
  | next {c : Consultation} {questions : List Question} {log : List Consultation} :
      ¬ c.Failed → InTurn questions log → InTurn (c.question :: questions) (c :: log)

namespace InTurn

variable {questions : List Question} {log : List Consultation}

/-- What has been asked is the beginning of what was to be asked. -/
theorem isPrefix (h : InTurn questions log) : log.map Consultation.question <+: questions := by
  induction h with
  | done => exact List.prefix_rfl
  | failed _ => exact List.prefix_cons_inj _ |>.mpr List.nil_prefix
  | next _ _ ih => exact List.prefix_cons_inj _ |>.mpr ih

theorem question_mem (h : InTurn questions log) {c : Consultation} (hc : c ∈ log) :
    c.question ∈ questions :=
  h.isPrefix.subset (List.mem_map_of_mem hc)

/-- No question is put twice. -/
theorem fresh (h : InTurn questions log) (hnodup : questions.Nodup)
    {earlier later : List Consultation} {c : Consultation} (hsplit : log = earlier ++ c :: later) :
    ∀ c' ∈ earlier, c'.question ≠ c.question := by
  have hlog := hnodup.sublist h.isPrefix.sublist
  rw [hsplit, List.map_append, List.map_cons] at hlog
  intro c' hc'
  exact (List.nodup_append.mp hlog).2.2 _ (List.mem_map_of_mem hc') _ List.mem_cons_self

end InTurn

/-! ## §3. Facts about every line of the minutes. -/

/-- Every consultation is as `P` has it, given those before it; `before` stand in front
of them all. -/
def Throughout (P : List Consultation → Consultation → Prop) (before log : List Consultation) :
    Prop :=
  ∀ earlier c later, log = earlier ++ c :: later → P (before ++ earlier) c

namespace Throughout

variable {P : List Consultation → Consultation → Prop} {before log log' : List Consultation}

theorem nil : Throughout P before [] := by
  intro earlier c later hsplit
  exact absurd hsplit (by simp)

/-- What holds of each consultation, whatever was before it. -/
theorem of_forall (h : ∀ c ∈ log, ∀ past, P past c) : Throughout P before log := by
  rintro earlier c later rfl
  exact h c (List.mem_append_right _ List.mem_cons_self) _

theorem append (h : Throughout P before log) (h' : Throughout P (before ++ log) log') :
    Throughout P before (log ++ log') := by
  intro earlier c later hsplit
  -- the consultation is in the second part, or in the first with some of it behind
  rcases List.append_eq_append_iff.mp hsplit with ⟨more, rfl, hlog'⟩ | ⟨rest, rfl, hlater⟩
  · rw [← List.append_assoc]
    exact h' more c later hlog'
  · cases rest with
    | nil =>
      rw [List.append_nil] at h'
      exact h' [] c later hlater.symm |> fun hc => by rwa [List.append_nil] at hc
    | cons first rest =>
      obtain ⟨rfl, rfl⟩ := List.cons.inj hlater
      exact h earlier c rest rfl

end Throughout

/-! ## §4. Two views of one market. -/

variable {σ τ : Type}

/-- Asked in related states, two markets answer alike. -/
structure Market.Mirrors (R : σ → τ → Prop) (m : Market σ) (m' : Market τ) : Prop where
  factories : ∀ router, Asking.Alike R (m.factoryOf router) (m'.factoryOf router)
  tokens : ∀ token, Asking.Alike R (m.metadataOf token) (m'.metadataOf token)
  pools : ∀ factory a b, Asking.Alike R (m.reservesOf factory a b) (m'.reservesOf factory a b)

/-- The same market, with the minutes of what it has been asked and has said. -/
def Market.minuted (m : Market σ) : Market (σ × List Consultation) where
  factoryOf router := fun (s, log) =>
    let (x, s) := m.factoryOf router s
    (x, s, log ++ [.factory router x])
  metadataOf token := fun (s, log) =>
    let (x, s) := m.metadataOf token s
    (x, s, log ++ [.metadata token x])
  reservesOf factory a b := fun (s, log) =>
    let (x, s) := m.reservesOf factory a b s
    (x, s, log ++ [.reserves factory a b x])

section

variable {m : Market σ} {s s' : σ}

theorem Market.minuted_factoryOf {router : Address} {answer : Except ChainError Address}
    (h : m.factoryOf router s = (answer, s')) (log : List Consultation) :
    m.minuted.factoryOf router (s, log) = (answer, s', log ++ [.factory router answer]) := by
  show ((m.factoryOf router s).1, (m.factoryOf router s).2,
    log ++ [.factory router (m.factoryOf router s).1]) = _
  rw [h]

theorem Market.minuted_metadataOf {token : Address} {answer : Except ChainError Metadata}
    (h : m.metadataOf token s = (answer, s')) (log : List Consultation) :
    m.minuted.metadataOf token (s, log) = (answer, s', log ++ [.metadata token answer]) := by
  show ((m.metadataOf token s).1, (m.metadataOf token s).2,
    log ++ [.metadata token (m.metadataOf token s).1]) = _
  rw [h]

theorem Market.minuted_reservesOf {factory a b : Address}
    {answer : Except ChainError PairReserves} (h : m.reservesOf factory a b s = (answer, s'))
    (log : List Consultation) :
    m.minuted.reservesOf factory a b (s, log)
      = (answer, s', log ++ [.reserves factory a b answer]) := by
  show ((m.reservesOf factory a b s).1, (m.reservesOf factory a b s).2,
    log ++ [.reserves factory a b (m.reservesOf factory a b s).1]) = _
  rw [h]

end

/-- **To keep minutes changes nothing.** -/
theorem mirrors_minuted (m : Market σ) : Market.Mirrors (fun s v => s = v.1) m m.minuted where
  factories _ := by rintro s ⟨_, log⟩ rfl; exact ⟨rfl, rfl⟩
  tokens _ := by rintro s ⟨_, log⟩ rfl; exact ⟨rfl, rfl⟩
  pools _ _ _ := by rintro s ⟨_, log⟩ rfl; exact ⟨rfl, rfl⟩

/-- And the questions in the minutes are those that are recorded. -/
theorem recorded_mirrors_minuted (m : Market σ) :
    Market.Mirrors (fun w v => w = (v.1, v.2.map Consultation.question)) m.recorded m.minuted where
  factories router := by
    rintro _ ⟨s, log⟩ rfl
    refine ⟨rfl, Prod.ext rfl ?_⟩
    show _ = (log ++ [_]).map Consultation.question
    rw [List.map_append]
    rfl
  tokens token := by
    rintro _ ⟨s, log⟩ rfl
    refine ⟨rfl, Prod.ext rfl ?_⟩
    show _ = (log ++ [_]).map Consultation.question
    rw [List.map_append]
    rfl
  pools factory a b := by
    rintro _ ⟨s, log⟩ rfl
    refine ⟨rfl, Prod.ext rfl ?_⟩
    show _ = (log ++ [_]).map Consultation.question
    rw [List.map_append]
    rfl

end FundTrail
