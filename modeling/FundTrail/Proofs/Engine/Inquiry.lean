/-
  FundTrail.Proofs.Engine.Inquiry
  ───────────────────────────────
  **WHAT THE CHAIN IS ASKED FOR A SWAP.**

  Three rounds of questions are put for a swap call: to its router, to the tokens of its
  path, and to the pools along it.  What is asked in a round follows from the minutes of
  what has been asked before and from the rows of the books, with no look at what anybody
  remembers.  A router is asked unless it has ever named a factory, a token unless it has a
  row or has spoken in this block, and pools are always asked.  A round that fails is the
  last one.

  Main definitions: `Inquiry` and `Informed`.  `Inquiry.routerSilent` and
  `Inquiry.tokenSilent` say that nobody is asked who has answered.
-/
import FundTrail.Engine.Resolution
import FundTrail.Proofs.Chain.Minutes
import Mathlib.Data.List.TakeWhile

namespace FundTrail

open FundTrail.Store

/-! ## §1. What is known, and what has to be asked. -/

/-- What is known of a token while a block is resolved: what its row says or, if it has
none, what it has said of itself in this block. -/
def knownOf (books : Books) (today : List Consultation) (token : Address) : Option Metadata :=
  match books.find? .tokens token with
  | .ok (some row) => some ⟨row.symbol, row.decimals⟩
  | .ok none => toldIn today token
  | .error _ => none

/-- A router is asked unless it has named a factory before. -/
def routerPlan (past : List Consultation) (router : Address) : List Question :=
  if (factoryIn past router).isSome then [] else [.factory router]

/-- The tokens of a path that nothing is known of, each once, up to the first whose row
cannot be read. -/
def strangers (books : Books) (today : List Consultation) (path : List Address) : List Address :=
  ((path.takeWhile fun t => (books.find? .tokens t).isOk).filter fun t =>
    (knownOf books today t).isNone).eraseDups

/-- These tokens are asked if there is a factory. -/
def tokensPlan (factory? : Option Address) (books : Books) (today : List Consultation)
    (path : List Address) : List Question :=
  if factory?.isSome then (strangers books today path).map .metadata else []

/-- All hops are asked for if there is a factory, all tokens are known and the last one
does not have too many decimals. -/
def poolsPlan (factory? : Option Address) (known : Address → Option Metadata)
    (path : List Address) : List Question :=
  match factory?, path.getLast?.bind known with
  | some factory, some last =>
    if (∀ t ∈ path, (known t).isSome = true) ∧ last.decimals.toNat ≤ 77 then
      (hops path).map fun hop => .reserves factory hop.1 hop.2
    else []
  | _, _ => []

/-- What is asked for a swap call: its router, then tokens, then pools.  In front of it
stands all that was asked for earlier blocks, and for this one. -/
structure Inquiry (books : Books) (before today : List Consultation) (router : Address)
    (path : List Address) (toRouter toTokens toPools : List Consultation) : Prop where
  routerAsked : InTurn (routerPlan (before ++ today) router) toRouter
  tokensAsked : InTurn (tokensPlan (factoryIn (before ++ today ++ toRouter) router) books
    (today ++ toRouter) path) toTokens
  poolsAsked : InTurn (poolsPlan (factoryIn (before ++ today ++ toRouter) router)
    (knownOf books (today ++ toRouter ++ toTokens)) path) toPools

/-- The price of a whole unit of a token with these decimals, taken through reserves. -/
def quote (decimals : UInt8) (fee : Option Fee) (rs : List Reserves) :
    Except PriceError Amount :=
  match Token.unit? decimals with
  | none => .error (.decimalsOutOfRange decimals)
  | some unit => price unit rs >>= fun value =>
    match fee with
    | some fee => fee.apply value
    | none => .ok value

theorem quote_of_unit {decimals : UInt8} {unit : Amount} (h : Token.unit? decimals = some unit)
    (fee : Option Fee) (rs : List Reserves) : quote decimals fee rs
      = price unit rs >>= fun value =>
        match fee with
        | some fee => fee.apply value
        | none => .ok value := by
  unfold quote
  rw [h]

/-- The reserves of all these hops have been asked for, in order, and given. -/
structure Reported (factory : Address) (pairs : List (Address × Address))
    (page : List Consultation) (rs : List Reserves) : Prop where
  asked : page.map Consultation.question
    = pairs.map fun hop => .reserves factory hop.1 hop.2
  given : List.Forall₂ (fun (c : Consultation) r => c.reserves? = some r) page rs

/-- A swap is made of what has been said: the factory that its router has named first, what
is known of its tokens, and the reserves that have just been asked for. -/
structure Informed (books : Books) (before today : List Consultation) (router : Address)
    (fee : Option Fee) (call : SwapCall) (toRouter toTokens toPools : List Consultation)
    (swap : PricedSwap) : Prop where
  call_eq : swap.call = call
  factory : factoryIn (before ++ today ++ toRouter) router = some swap.factory
  path : swap.tokens.map Prod.fst = call.path
  known : ∀ p ∈ swap.tokens, knownOf books (today ++ toRouter ++ toTokens) p.1 = some p.2
  price : ∃ last ∈ swap.tokens.getLast?, ∃ rs,
    Reported swap.factory (hops call.path) toPools rs
      ∧ quote last.2.decimals fee rs = .ok swap.price

section

variable {books : Books} {today : List Consultation} {token : Address}

theorem knownOf_of_row {row : Token} (h : books.find? .tokens token = .ok (some row)) :
    knownOf books today token = some ⟨row.symbol, row.decimals⟩ := by
  unfold knownOf
  rw [h]

theorem knownOf_of_none (h : books.find? .tokens token = .ok none) :
    knownOf books today token = toldIn today token := by
  unfold knownOf
  rw [h]

theorem knownOf_of_error {e : StoreError} (h : books.find? .tokens token = .error e) :
    knownOf books today token = none := by
  unfold knownOf
  rw [h]

/-- What is known stays known. -/
theorem knownOf_append {answer : Metadata} (h : knownOf books today token = some answer)
    (page : List Consultation) : knownOf books (today ++ page) token = some answer := by
  cases hfind : books.find? .tokens token with
  | error e => rw [knownOf_of_error hfind] at h; exact nomatch h
  | ok found =>
    cases found with
    | some row =>
      rw [knownOf_of_row hfind] at h ⊢
      exact h
    | none =>
      rw [knownOf_of_none hfind] at h ⊢
      rw [toldIn_append, h]
      rfl

/-- Only what a token is asked itself tells something of it. -/
theorem knownOf_append_of_not_asked {page : List Consultation}
    (h : ∀ c ∈ page, c.question ≠ .metadata token) :
    knownOf books (today ++ page) token = knownOf books today token := by
  unfold knownOf
  rw [toldIn_append, toldIn_of_not_asked h, Option.or_none]

variable {path : List Address}

theorem strangers_cons_of_known {answer : Metadata}
    (h : knownOf books today token = some answer) :
    strangers books today (token :: path) = strangers books today path := by
  have hok : (books.find? .tokens token).isOk = true := by
    cases hfind : books.find? .tokens token with
    | error e => rw [knownOf_of_error hfind] at h; exact nomatch h
    | ok found => rfl
  unfold strangers
  rw [List.takeWhile_cons_of_pos (p := fun t => (books.find? .tokens t).isOk) hok,
    List.filter_cons_of_neg (by rw [h]; exact Bool.false_ne_true)]

theorem strangers_cons_of_error {e : StoreError} (h : books.find? .tokens token = .error e) :
    strangers books today (token :: path) = [] := by
  unfold strangers
  rw [List.takeWhile_cons_of_neg (by rw [h]; exact Bool.false_ne_true)]
  rfl

/-- A token that nothing is known of is asked, and then the others of which nothing is
known. -/
theorem strangers_cons_of_none (hfind : books.find? .tokens token = .ok none)
    (htold : toldIn today token = none) (answer : Metadata) :
    strangers books today (token :: path)
      = token :: strangers books (today ++ [.metadata token (.ok answer)]) path := by
  -- to leave the token out of the others is to let it have spoken
  have hsame : ∀ t, (!t == token && (knownOf books today t).isNone)
      = (knownOf books (today ++ [.metadata token (.ok answer)]) t).isNone := by
    intro t
    by_cases ht : t = token
    · subst ht
      have htold' : knownOf books (today ++ [.metadata t (.ok answer)]) t = some answer := by
        rw [knownOf_of_none hfind, toldIn_append, htold, toldIn_singleton, if_pos rfl]
        rfl
      rw [htold', beq_self_eq_true]
      rfl
    · have hother : ∀ c ∈ [Consultation.metadata token (.ok answer)],
          c.question ≠ .metadata t := by
        intro c hc heq
        obtain rfl := List.mem_singleton.mp hc
        exact ht (Question.metadata.inj heq).symm
      rw [knownOf_append_of_not_asked hother, beq_false_of_ne ht]
      rfl
  unfold strangers
  rw [List.takeWhile_cons_of_pos (by rw [hfind]; rfl),
    List.filter_cons_of_pos (by rw [knownOf_of_none hfind, htold]; rfl), List.eraseDups_cons,
    List.filter_filter]
  simp only [hsame]

theorem nodup_eraseDups {α : Type} [BEq α] [LawfulBEq α] :
    ∀ l : List α, l.eraseDups.Nodup
  | [] => List.nodup_nil
  | a :: l => by
    rw [List.eraseDups_cons, List.nodup_cons]
    refine ⟨fun hmem => ?_, nodup_eraseDups _⟩
    have hne := (List.mem_filter.mp (List.mem_eraseDups.mp hmem)).2
    rw [beq_self_eq_true] at hne
    exact nomatch hne
  termination_by l => l.length
  decreasing_by exact Nat.lt_succ_of_le (List.length_filter_le _ _)

/-- Strangers have no row and have said nothing today. -/
theorem of_mem_strangers {token : Address} (h : token ∈ strangers books today path) :
    books.find? .tokens token = .ok none ∧ toldIn today token = none := by
  obtain ⟨hmem, hunknown⟩ := List.mem_filter.mp (List.mem_eraseDups.mp h)
  have hreadable := List.mem_takeWhile_imp hmem
  cases hfind : books.find? .tokens token with
  | error e =>
    rw [hfind] at hreadable
    exact nomatch hreadable
  | ok found =>
    cases found with
    | some row =>
      rw [knownOf_of_row hfind] at hunknown
      exact nomatch hunknown
    | none =>
      rw [knownOf_of_none hfind] at hunknown
      exact ⟨rfl, Option.isNone_iff_eq_none.mp hunknown⟩

end

section

variable {known : Address → Option Metadata} {path : List Address}

theorem poolsPlan_of_unknown {token : Address} (htoken : token ∈ path) (h : known token = none)
    (factory? : Option Address) : poolsPlan factory? known path = [] := by
  have hnot : ¬ ∀ t ∈ path, (known t).isSome = true := fun hall => by
    have hsome := hall token htoken
    rw [h] at hsome
    exact nomatch hsome
  unfold poolsPlan
  split
  next => exact if_neg fun hboth => hnot hboth.1
  next => rfl

theorem poolsPlan_of_known {factory : Address} {last : Metadata}
    (hall : ∀ t ∈ path, (known t).isSome = true) (hlast : path.getLast?.bind known = some last) :
    poolsPlan (some factory) known path = if last.decimals.toNat ≤ 77 then
      (hops path).map fun hop => .reserves factory hop.1 hop.2 else [] := by
  unfold poolsPlan
  rw [hlast]
  by_cases hfew : last.decimals.toNat ≤ 77
  · rw [if_pos hfew]
    exact if_pos ⟨hall, hfew⟩
  · rw [if_neg hfew]
    exact if_neg fun hboth => hfew hboth.2

/-- In the third round only pools are asked for. -/
theorem question_of_poolsPlan {factory? : Option Address} {page : List Consultation}
    (h : InTurn (poolsPlan factory? known path) page) :
    ∀ c ∈ page, ∃ factory a b, c.question = .reserves factory a b := by
  intro c hc
  have hmem := h.question_mem hc
  unfold poolsPlan at hmem
  split at hmem
  next =>
    split at hmem
    next =>
      obtain ⟨hop, -, heq⟩ := List.mem_map.mp hmem
      exact ⟨_, _, _, heq.symm⟩
    next => exact absurd hmem List.not_mem_nil
  next => exact absurd hmem List.not_mem_nil

end

/-! ## §2. Nobody is asked twice who has answered. -/

/-- A router that is asked has named no factory before. -/
def RouterSilent (past : List Consultation) (c : Consultation) : Prop :=
  ∀ router, c.question = .factory router → factoryIn past router = none

/-- A token that is asked has no row, and has said nothing of itself before. -/
def TokenSilent (books : Books) (past : List Consultation) (c : Consultation) : Prop :=
  ∀ token, c.question = .metadata token →
    books.find? .tokens token = .ok none ∧ toldIn past token = none

section

variable {books : Books} {before today : List Consultation} {router : Address}
  {path : List Address} {toRouter toTokens toPools : List Consultation}

/-- Only the first round is put to routers, and only the second to tokens. -/
theorem Inquiry.rounds (h : Inquiry books before today router path toRouter toTokens toPools) :
    (∀ c ∈ toRouter, c.question = .factory router
        ∧ factoryIn (before ++ today) router = none)
      ∧ (∀ c ∈ toTokens, ∃ token ∈ strangers books (today ++ toRouter) path,
        c.question = .metadata token)
      ∧ ∀ c ∈ toPools, ∃ factory a b, c.question = .reserves factory a b := by
  refine ⟨fun c hc => ?_, fun c hc => ?_, question_of_poolsPlan h.poolsAsked⟩
  · have hmem := h.routerAsked.question_mem hc
    unfold routerPlan at hmem
    split at hmem
    next => exact absurd hmem List.not_mem_nil
    next hnone => exact ⟨List.mem_singleton.mp hmem, Option.not_isSome_iff_eq_none.mp hnone⟩
  · have hmem := h.tokensAsked.question_mem hc
    unfold tokensPlan at hmem
    split at hmem
    next =>
      obtain ⟨token, htoken, heq⟩ := List.mem_map.mp hmem
      exact ⟨token, htoken, heq.symm⟩
    next => exact absurd hmem List.not_mem_nil

/-- No router is asked that has named a factory. -/
theorem Inquiry.routerSilent
    (h : Inquiry books before today router path toRouter toTokens toPools) :
    Throughout RouterSilent (before ++ today) (toRouter ++ toTokens ++ toPools) := by
  obtain ⟨hrouter, htokens, hpools⟩ := h.rounds
  have hnodup : (routerPlan (before ++ today) router).Nodup := by
    unfold routerPlan
    split
    next => exact List.nodup_nil
    next => exact List.nodup_singleton _
  -- only the first round is about routers, and it puts one question at most
  refine .append (.append ?_ (.of_forall fun c hc past r hr => ?_))
    (.of_forall fun c hc past r hr => ?_)
  · intro earlier c later hsplit r hr
    have hc : c ∈ toRouter := hsplit ▸ List.mem_append_right _ List.mem_cons_self
    obtain ⟨hquestion, hnone⟩ := hrouter c hc
    obtain rfl := Question.factory.inj (hr.symm.trans hquestion)
    have hfresh := h.routerAsked.fresh hnodup hsplit
    rw [hr] at hfresh
    rw [factoryIn_append, hnone, Option.none_or, factoryIn_of_not_asked hfresh]
  · obtain ⟨token, -, hquestion⟩ := htokens c hc
    exact nomatch hquestion.symm.trans hr
  · obtain ⟨_, _, _, hquestion⟩ := hpools c hc
    exact nomatch hquestion.symm.trans hr

/-- No token is asked that has a row or has spoken. -/
theorem Inquiry.tokenSilent
    (h : Inquiry books before today router path toRouter toTokens toPools) :
    Throughout (TokenSilent books) today (toRouter ++ toTokens ++ toPools) := by
  obtain ⟨hrouter, htokens, hpools⟩ := h.rounds
  have hnodup : (tokensPlan (factoryIn (before ++ today ++ toRouter) router) books
      (today ++ toRouter) path).Nodup := by
    unfold tokensPlan
    split
    next => exact (nodup_eraseDups _).map fun _ _ => Question.metadata.inj
    next => exact List.nodup_nil
  -- only the second round is about tokens, and it puts no question twice
  refine .append (.append (.of_forall fun c hc past t ht => ?_) ?_)
    (.of_forall fun c hc past t ht => ?_)
  · obtain ⟨hquestion, -⟩ := hrouter c hc
    exact nomatch hquestion.symm.trans ht
  · intro earlier c later hsplit t ht
    have hc : c ∈ toTokens := hsplit ▸ List.mem_append_right _ List.mem_cons_self
    obtain ⟨token, hstranger, hquestion⟩ := htokens c hc
    obtain rfl := Question.metadata.inj (ht.symm.trans hquestion)
    obtain ⟨hfind, htold⟩ := of_mem_strangers hstranger
    have hfresh := h.tokensAsked.fresh hnodup hsplit
    rw [ht] at hfresh
    refine ⟨hfind, ?_⟩
    rw [toldIn_append, htold, Option.none_or, toldIn_of_not_asked hfresh]
  · obtain ⟨_, _, _, hquestion⟩ := hpools c hc
    exact nomatch hquestion.symm.trans ht

end

end FundTrail
