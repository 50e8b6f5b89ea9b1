/-
  FundTrail.Proofs.Engine.AtHand
  ──────────────────────────────
  **THE DESK HAS AT HAND WHAT THE MINUTES TELL.**

  What is remembered while a block is resolved can be read off the minutes: the factories
  that routers have named, and what tokens have said in this block (`Desk.AsMinuted`).  So what
  is asked for a swap, round by round, is what `Inquiry` has of it, and what the swap is
  made of is what `Informed` has of it.

  Main facts: `exists_page_factoryOf`, `exists_page_metadataAlong`, `exists_page_askPools`
  and, of them, `exists_pages_resolveSwap`.
-/
import FundTrail.Proofs.Engine.Inquiry
import FundTrail.Proofs.Engine.Quotation
import FundTrail.Proofs.Swap.Hops

namespace FundTrail

open FundTrail.Store

variable {σ : Type}

/-! ## §1. Routers and tokens. -/

/-- The desk has at hand what the minutes tell: the factories that routers have named, what
tokens have said of themselves today, and what rows say that have been looked at. -/
structure Desk.AsMinuted (books : Books) (before today : List Consultation)
    (d : Desk (σ × List Consultation)) : Prop where
  log : d.chain.2 = before ++ today
  factories : ∀ router, d.factories.lookup router = factoryIn (before ++ today) router
  known : ∀ token answer, d.metadata.lookup token = some answer →
    knownOf books today token = some answer
  told : ∀ token, books.find? .tokens token = .ok none →
    d.metadata.lookup token = toldIn today token

section

variable {books : Books} {before today : List Consultation} {m : Market σ}
  {d d' : Desk (σ × List Consultation)}

theorem lookup_cons_eq_ite {α : Type} (known : Address) (answer : α)
    (others : List (Address × α)) (address : Address) :
    List.lookup address ((known, answer) :: others)
      = if known = address then some answer else others.lookup address := by
  rw [List.lookup_cons]
  by_cases h : known = address
  · rw [if_pos h, h, beq_self_eq_true]
  · rw [if_neg h, beq_false_of_ne (Ne.symm h)]

/-- What is added to the minutes is added to what is at hand. -/
theorem Desk.AsMinuted.add (hd : d.AsMinuted books before today) {page : List Consultation}
    (hlog : d'.chain.2 = d.chain.2 ++ page)
    (hfactories : ∀ router, d'.factories.lookup router
      = (d.factories.lookup router).or (factoryIn page router))
    (hmetadata : ∀ token, d'.metadata.lookup token
      = (d.metadata.lookup token).or (toldIn page token))
    (hasked : ∀ token, (toldIn page token).isSome → books.find? .tokens token = .ok none) :
    d'.AsMinuted books before (today ++ page) := by
  refine ⟨?_, fun router => ?_, fun token answer hanswer => ?_, fun token hfind => ?_⟩
  · rw [hlog, hd.log, List.append_assoc]
  · rw [hfactories, hd.factories, ← List.append_assoc, ← factoryIn_append]
  · rw [hmetadata] at hanswer
    cases hlookup : d.metadata.lookup token with
    | some known =>
      rw [hlookup] at hanswer
      exact knownOf_append (hd.known token answer (hlookup.trans hanswer)) page
    | none =>
      rw [hlookup, Option.none_or] at hanswer
      have hfind := hasked token (by rw [hanswer]; rfl)
      rw [knownOf_of_none hfind, toldIn_append, ← hd.told token hfind, hlookup, Option.none_or,
        hanswer]
  · rw [hmetadata, hd.told token hfind, toldIn_append]

/-- A router that has named a factory is not asked.  Any other is, and then the factory that
it names is at hand. -/
theorem exists_page_factoryOf (hd : d.AsMinuted books before today) (router : Address) :
    ∃ page, (Desk.factoryOf m.minuted router d).2.AsMinuted books before (today ++ page)
      ∧ InTurn (routerPlan (before ++ today) router) page
      ∧ (Desk.factoryOf m.minuted router d).1.toOption
        = factoryIn (before ++ today ++ page) router := by
  have hlookup := hd.factories router
  unfold Desk.factoryOf routerPlan
  rw [hlookup]
  cases hfactory : factoryIn (before ++ today) router with
  | some factory =>
    refine ⟨[], ?_, .done, ?_⟩
    · rw [List.append_nil]
      exact hd
    · rw [List.append_nil, hfactory]
      rfl
  | none =>
    rcases hanswer : m.factoryOf router d.chain.1 with ⟨answer, s⟩
    have hasked := Market.minuted_factoryOf hanswer d.chain.2
    change m.minuted.factoryOf router d.chain = _ at hasked
    have hnothing : ∀ token, toldIn [.factory router answer] token = none := fun token =>
      toldIn_of_not_asked fun c hc heq => by
        obtain rfl := List.mem_singleton.mp hc
        exact nomatch heq
    have htold : ∀ token, (toldIn [.factory router answer] token).isSome →
        books.find? .tokens token = .ok none := fun token h => by
      rw [hnothing] at h
      exact nomatch h
    rw [hasked]
    refine ⟨[.factory router answer], ?_, ?_, ?_⟩
    · cases answer with
      | error e =>
        refine hd.add rfl (fun r => ?_) (fun token => ?_) htold
        · rw [factoryIn_singleton]
          show _ = (d.factories.lookup r).or (if router = r then none else none)
          rw [ite_self, Option.or_none]
        · rw [hnothing, Option.or_none]
      | ok factory =>
        refine hd.add rfl (fun r => ?_) (fun token => ?_) htold
        · show List.lookup r ((router, factory) :: d.factories) = _
          rw [factoryIn_singleton, lookup_cons_eq_ite]
          by_cases hr : router = r
          · subst hr
            rw [if_pos rfl, if_pos rfl, hlookup, hfactory]
            rfl
          · rw [if_neg hr, if_neg hr, Option.or_none]
        · rw [hnothing, Option.or_none]
    · cases answer with
      | error e => exact .failed (Consultation.failed_factory router e)
      | ok factory => exact .next (Consultation.not_failed_factory router factory) .done
    · rw [factoryIn_append, hfactory, factoryIn_singleton, if_pos rfl]
      cases answer <;> rfl

/-- A look at a token: it is known, or its row cannot be read, or it is asked. -/
theorem metadataOf_cases (hd : d.AsMinuted books before today) (token : Address) :
    (∃ known, knownOf books today token = some known
        ∧ (Desk.metadataOf m.minuted books token d).1 = .ok known
        ∧ (Desk.metadataOf m.minuted books token d).2.AsMinuted books before today)
      ∨ (∃ e, books.find? .tokens token = .error e
        ∧ Desk.metadataOf m.minuted books token d = (.error (.halt e), d))
      ∨ books.find? .tokens token = .ok none ∧ toldIn today token = none
        ∧ ∃ answer, (Desk.metadataOf m.minuted books token d).1
            = answer.mapError (fun e => .skip (.unanswered e))
          ∧ (Desk.metadataOf m.minuted books token d).2.AsMinuted books before
            (today ++ [.metadata token answer]) := by
  unfold Desk.metadataOf
  cases hlookup : d.metadata.lookup token with
  | some known => exact .inl ⟨known, hd.known token known hlookup, rfl, hd⟩
  | none =>
    cases hfind : books.find? .tokens token with
    | error e => exact .inr (.inl ⟨e, rfl, rfl⟩)
    | ok found =>
      cases found with
      | some row =>
        refine .inl ⟨_, knownOf_of_row hfind, rfl, hd.log, hd.factories, fun t answer h => ?_,
          fun t ht => ?_⟩
        · change List.lookup t ((token, _) :: d.metadata) = some answer at h
          rw [lookup_cons_eq_ite] at h
          by_cases hsame : token = t
          · subst hsame
            rw [if_pos rfl] at h
            exact (knownOf_of_row hfind).trans h
          · rw [if_neg hsame] at h
            exact hd.known t answer h
        · -- a token without a row is another one
          have hne : token ≠ t := by
            rintro rfl
            exact nomatch hfind.symm.trans ht
          show List.lookup t ((token, _) :: d.metadata) = _
          rw [lookup_cons_eq_ite, if_neg hne]
          exact hd.told t ht
      | none =>
        have htold : toldIn today token = none := (hd.told token hfind).symm.trans hlookup
        rcases hanswer : m.metadataOf token d.chain.1 with ⟨answer, s⟩
        have hasked := Market.minuted_metadataOf hanswer d.chain.2
        change m.minuted.metadataOf token d.chain = _ at hasked
        have hnothing : ∀ router, factoryIn [.metadata token answer] router = none := fun router =>
          factoryIn_of_not_asked fun c hc heq => by
            obtain rfl := List.mem_singleton.mp hc
            exact nomatch heq
        have hnew : ∀ t, (toldIn [.metadata token answer] t).isSome →
            books.find? .tokens t = .ok none := fun t h => by
          rw [toldIn_singleton] at h
          by_cases hsame : token = t
          · exact hsame ▸ hfind
          · rw [if_neg hsame] at h
            exact nomatch h
        refine .inr (.inr ⟨rfl, htold, answer, ?_⟩)
        rw [hasked]
        cases answer with
        | error e =>
          refine ⟨rfl, hd.add rfl (fun router => ?_) (fun t => ?_) hnew⟩
          · rw [hnothing, Option.or_none]
          · rw [toldIn_singleton]
            show _ = (d.metadata.lookup t).or (if token = t then none else none)
            rw [ite_self, Option.or_none]
        | ok known =>
          refine ⟨rfl, hd.add rfl (fun router => ?_) (fun t => ?_) hnew⟩
          · rw [hnothing, Option.or_none]
            rfl
          · show List.lookup t ((token, known) :: d.metadata) = _
            rw [toldIn_singleton, lookup_cons_eq_ite]
            by_cases hsame : token = t
            · subst hsame
              rw [if_pos rfl, if_pos rfl, hlookup]
              rfl
            · rw [if_neg hsame, if_neg hsame, Option.or_none]

/-- What comes of asking the tokens of a path: all of them are known then, or one is not. -/
structure Heard (books : Books) (before today page : List Consultation) (path : List Address)
    (x : Except Setback (List (Address × Metadata)) × Desk (σ × List Consultation)) : Prop where
  kept : x.2.AsMinuted books before (today ++ page)
  asked : InTurn ((strangers books today path).map .metadata) page
  known : ∀ tokens, x.1 = .ok tokens → tokens.map Prod.fst = path
    ∧ ∀ p ∈ tokens, knownOf books (today ++ page) p.1 = some p.2
  unknown : ∀ setback, x.1 = .error setback →
    (∃ token ∈ path, knownOf books (today ++ page) token = none)
      ∧ ∀ e, setback = .halt e → ∃ token ∈ path, books.find? .tokens token = .error e

section

variable {token : Address} {path : List Address} {page : List Consultation}

/-- Behind a token that is known the others follow. -/
theorem Heard.cons {first : List Consultation} {answer : Metadata}
    (hlook : Desk.metadataOf m.minuted books token d = (.ok answer, d'))
    (hanswer : knownOf books (today ++ first) token = some answer)
    (hrest : Heard books before (today ++ first) page path
      (Desk.metadataAlong m.minuted books path d'))
    (hplan : InTurn ((strangers books today (token :: path)).map .metadata) (first ++ page)) :
    Heard books before today (first ++ page) (token :: path)
      (Desk.metadataAlong m.minuted books (token :: path) d) := by
  have hrun : Desk.metadataAlong m.minuted books (token :: path) d
      = (Desk.metadataAlong m.minuted books path >>= fun answers =>
        pure ((token, answer) :: answers)) d' := Asking.bind_run_ok hlook
  obtain ⟨hkept, -, hknown, hunknown⟩ := hrest
  rw [List.append_assoc] at hkept hknown hunknown
  rw [hrun]
  rcases hrest : Desk.metadataAlong m.minuted books path d' with ⟨setback | answers, d''⟩
  · rw [hrest] at hkept hunknown
    rw [Asking.bind_run_error hrest]
    obtain ⟨⟨t, ht, hnone⟩, hhalt⟩ := hunknown setback rfl
    refine ⟨hkept, hplan, nofun, fun other hother => ?_⟩
    obtain rfl := Except.error.inj hother
    refine ⟨⟨t, List.mem_cons_of_mem _ ht, hnone⟩, fun e he => ?_⟩
    obtain ⟨t, ht, hfind⟩ := hhalt e he
    exact ⟨t, List.mem_cons_of_mem _ ht, hfind⟩
  · rw [hrest] at hkept hknown
    rw [Asking.bind_run_ok hrest]
    obtain ⟨hpath, hothers⟩ := hknown answers rfl
    refine ⟨hkept, hplan, fun tokens htokens => ?_, nofun⟩
    obtain rfl := Except.ok.inj htokens
    refine ⟨congrArg (token :: ·) hpath, List.forall_mem_cons.mpr ⟨?_, hothers⟩⟩
    rw [← List.append_assoc]
    exact knownOf_append hanswer page

/-- A token that is not known is the last one. -/
theorem Heard.stop {setback : Setback}
    (hlook : Desk.metadataOf m.minuted books token d = (.error setback, d'))
    (hkept : d'.AsMinuted books before (today ++ page))
    (hplan : InTurn ((strangers books today (token :: path)).map .metadata) page)
    (hunknown : knownOf books (today ++ page) token = none)
    (hhalt : ∀ e, setback = .halt e → books.find? .tokens token = .error e) :
    Heard books before today page (token :: path)
      (Desk.metadataAlong m.minuted books (token :: path) d) := by
  have hrun : Desk.metadataAlong m.minuted books (token :: path) d = (.error setback, d') :=
    Asking.bind_run_error hlook
  rw [hrun]
  refine ⟨hkept, hplan, nofun, fun other hother => ?_⟩
  obtain rfl := Except.error.inj hother
  exact ⟨⟨token, List.mem_cons_self, hunknown⟩,
    fun e he => ⟨token, List.mem_cons_self, hhalt e he⟩⟩

end

/-- The tokens of a path that nothing is known of are asked, until one gives no answer. -/
theorem exists_page_metadataAlong (hd : d.AsMinuted books before today) (path : List Address) :
    ∃ page, Heard books before today page path (Desk.metadataAlong m.minuted books path d) := by
  induction path generalizing today d with
  | nil =>
    refine ⟨[], ?_, .done, fun tokens h => ?_, nofun⟩
    · rw [List.append_nil]
      exact hd
    · obtain rfl := Except.ok.inj h
      exact ⟨rfl, nofun⟩
  | cons token path ih =>
    have hcases := metadataOf_cases (m := m) hd token
    rcases hlook : Desk.metadataOf m.minuted books token d with ⟨found, d₁⟩
    rw [hlook] at hcases
    rcases hcases with ⟨known, hknown, hfound, hd₁⟩ | ⟨e, hfind, hhalt⟩
      | ⟨hfind, htold, answer, hfound, hd₁⟩
    · obtain rfl : found = .ok known := hfound
      rw [← List.append_nil today] at hd₁ hknown
      obtain ⟨page, hrest⟩ := ih hd₁
      have hplan := hrest.asked
      refine ⟨[] ++ page, hrest.cons hlook hknown ?_⟩
      rw [List.append_nil] at hknown hplan
      rw [strangers_cons_of_known hknown]
      exact hplan
    · obtain ⟨rfl, rfl⟩ := Prod.mk.inj hhalt
      rw [← List.append_nil today] at hd
      refine ⟨[], .stop hlook hd ?_ (knownOf_of_error hfind) fun e' he' => ?_⟩
      · rw [strangers_cons_of_error hfind]
        exact .done
      · rw [← Setback.halt.inj he']
        exact hfind
    · have hnow : knownOf books (today ++ [.metadata token answer]) token = answer.toOption := by
        rw [knownOf_of_none hfind, toldIn_append, htold, toldIn_singleton, if_pos rfl,
          Option.none_or]
      cases answer with
      | ok told =>
        obtain rfl : found = .ok told := hfound
        obtain ⟨page, hrest⟩ := ih hd₁
        refine ⟨[.metadata token (.ok told)] ++ page, hrest.cons hlook hnow ?_⟩
        rw [strangers_cons_of_none hfind htold told]
        exact .next (Consultation.not_failed_metadata token told) hrest.asked
      | error e =>
        obtain rfl : found = .error (.skip (.unanswered e)) := hfound
        refine ⟨_, .stop hlook hd₁ ?_ hnow nofun⟩
        rw [strangers_cons_of_none hfind htold ⟨"", 0⟩]
        exact .failed (Consultation.failed_metadata token e)

end

/-! ## §2. Pools. -/

section

variable {m : Market σ}

/-- Hops are asked for in order, up to the first without reserves. -/
theorem exists_page_reservesOfHops (factory : Address) (pairs : List (Address × Address)) (s : σ)
    (log : List Consultation) :
    ∃ r s' page, reservesOfHops m.minuted factory pairs (s, log) = (r, s', log ++ page)
      ∧ InTurn (pairs.map fun hop => .reserves factory hop.1 hop.2) page
      ∧ ∀ rs, r = .ok rs → Reported factory pairs page rs := by
  induction pairs generalizing s log with
  | nil =>
    refine ⟨.ok [], s, [], by rw [List.append_nil]; rfl, .done, fun rs h => ?_⟩
    obtain rfl := Except.ok.inj h
    exact ⟨rfl, .nil⟩
  | cons pair pairs ih =>
    obtain ⟨a, b⟩ := pair
    rcases hanswer : m.reservesOf factory a b s with ⟨answer, s₁⟩
    have hasked := Market.minuted_reservesOf hanswer log
    cases answer with
    | error e =>
      -- without an answer the hop is the last one
      exact ⟨_, _, [.reserves factory a b (.error e)],
        reservesOfHops_cons_of_error (.inl ⟨e, hasked, rfl⟩) pairs,
        .failed (Consultation.failed_reserves_iff.mpr rfl), nofun⟩
    | ok raw =>
      have hreserves : (Consultation.reserves factory a b (.ok raw)).reserves?
          = (orient a b raw).toOption := rfl
      cases hr : orient a b raw with
      | error e =>
        -- and so it is with one that says nothing of its tokens
        rw [hr] at hreserves
        exact ⟨_, _, [.reserves factory a b (.ok raw)],
          reservesOfHops_cons_of_error (.inr ⟨raw, hasked, hr⟩) pairs,
          .failed (Consultation.failed_reserves_iff.mpr hreserves), nofun⟩
      | ok r =>
        rw [hr] at hreserves
        obtain ⟨rest, s', page, hrun, hturn, hok⟩ :=
          ih s₁ (log ++ [.reserves factory a b (.ok raw)])
        refine ⟨rest.map (r :: ·), s', .reserves factory a b (.ok raw) :: page, ?_, ?_,
          fun rs hrs => ?_⟩
        · rw [reservesOfHops_cons_of_ok hasked hr, hrun, List.append_assoc]
          rfl
        · have hgiven : ¬ (Consultation.reserves factory a b (.ok raw)).Failed := fun hfailed =>
            nomatch hreserves.symm.trans (Consultation.failed_reserves_iff.mp hfailed)
          exact .next hgiven hturn
        · cases rest with
          | error e => exact nomatch hrs
          | ok rest =>
            obtain rfl := Except.ok.inj hrs
            obtain ⟨hquestions, hgiven⟩ := hok rest rfl
            exact ⟨congrArg _ hquestions, .cons hreserves hgiven⟩

/-- A whole unit of a token is an amount if there are not too many decimals. -/
theorem unit?_eq_none_iff {decimals : UInt8} :
    Token.unit? decimals = none ↔ ¬ decimals.toNat ≤ 77 := by
  constructor
  · intro hnone hfew
    have hfits : 10 ^ decimals.toNat < 2 ^ 256 :=
      Nat.lt_of_le_of_lt (Nat.pow_le_pow_right (by decide) hfew) (by decide)
    unfold Token.unit? Word.ofNat? at hnone
    rw [dif_pos hfits] at hnone
    exact nomatch hnone
  · intro hmany
    cases hunit : Token.unit? decimals with
    | none => rfl
    | some unit => exact absurd (decimals_of_unit? hunit) hmany

/-- A price is asked for along all hops if a whole unit is an amount, and made of the
reserves that are given then. -/
theorem exists_page_pathPrice (factory : Address) (path : List Address) (decimals : UInt8)
    (fee : Option Fee) (s : σ) (log : List Consultation) :
    ∃ r s' page, pathPrice m.minuted factory path decimals fee (s, log) = (r, s', log ++ page)
      ∧ InTurn (if decimals.toNat ≤ 77 then
          (hops path).map fun hop => .reserves factory hop.1 hop.2 else []) page
      ∧ ∀ value, r = .ok value →
        ∃ rs, Reported factory (hops path) page rs ∧ quote decimals fee rs = .ok value := by
  unfold pathPrice
  cases hunit : Token.unit? decimals with
  | none =>
    refine ⟨.error (.decimalsOutOfRange decimals), s, [], by rw [List.append_nil]; rfl, ?_, nofun⟩
    rw [if_neg (unit?_eq_none_iff.mp hunit)]
    exact .done
  | some unit =>
    rw [if_pos (decimals_of_unit? hunit)]
    by_cases hlong : path.length < 2
    · -- a path without hops
      have hnone : hops path = [] := List.eq_nil_iff_forall_not_mem.mpr fun hop hhop =>
        absurd (two_le_length_of_mem_hops hhop) (Nat.not_le.mpr hlong)
      have hreserves : reservesAlong m.minuted factory path (s, log)
          = (.error (.shortPath path.length), s, log) := by
        unfold reservesAlong
        rw [if_pos hlong]
        rfl
      refine ⟨.error (.shortPath path.length), s, [], ?_, ?_, nofun⟩
      · rw [List.append_nil]
        exact Asking.bind_run_error hreserves
      · rw [hnone]
        exact .done
    · obtain ⟨r, s', page, hrun, hturn, hok⟩ :=
        exists_page_reservesOfHops (m := m) factory (hops path) s log
      have hreserves : reservesAlong m.minuted factory path (s, log)
          = (r, s', log ++ page) := by
        unfold reservesAlong
        rw [if_neg hlong]
        exact hrun
      cases r with
      | error e => exact ⟨.error e, s', page, Asking.bind_run_error hreserves, hturn, nofun⟩
      | ok rs =>
        refine ⟨quote decimals fee rs, s', page, ?_, hturn,
          fun value hvalue => ⟨rs, hok rs rfl, hvalue⟩⟩
        refine (Asking.bind_run_ok hreserves).trans ?_
        rw [quote_of_unit hunit]
        cases price unit rs with
        | error e => rfl
        | ok value =>
          cases fee with
          | none => rfl
          | some fee => rfl

end

/-! ## §3. One swap call. -/

section

variable {books : Books} {before today : List Consultation} {path : List Address} {m : Market σ}
  {d : Desk (σ × List Consultation)}

/-- Whoever asks for reserves learns of no factory and no token. -/
theorem Desk.AsMinuted.ask (hd : d.AsMinuted books before today) {page : List Consultation}
    (hpools : ∀ c ∈ page, ∃ factory a b, c.question = .reserves factory a b) (s : σ) :
    Desk.AsMinuted books before (today ++ page) { d with chain := (s, d.chain.2 ++ page) } := by
  have htold : ∀ token, toldIn page token = none := fun token =>
    toldIn_of_not_asked fun c hc heq => by
      obtain ⟨_, _, _, hquestion⟩ := hpools c hc
      exact nomatch hquestion.symm.trans heq
  refine hd.add rfl (fun router => ?_) (fun token => ?_) fun token h => ?_
  · have hnone : factoryIn page router = none := factoryIn_of_not_asked fun c hc heq => by
      obtain ⟨_, _, _, hquestion⟩ := hpools c hc
      exact nomatch hquestion.symm.trans heq
    rw [hnone, Option.or_none]
  · rw [htold, Option.or_none]
  · rw [htold] at h
    exact nomatch h

/-- Where a factory is named and all tokens are known, the pools are asked for. -/
theorem exists_page_askPools (hd : d.AsMinuted books before today) (factory : Address)
    {last : Metadata} (hall : ∀ t ∈ path, (knownOf books today t).isSome = true)
    (hlast : path.getLast?.bind (knownOf books today) = some last) (fee : Option Fee) :
    ∃ page, (Desk.ask (pathPrice m.minuted factory path last.decimals fee) d).2.AsMinuted books
        before (today ++ page)
      ∧ InTurn (poolsPlan (some factory) (knownOf books today) path) page
      ∧ ∀ value, (Desk.ask (pathPrice m.minuted factory path last.decimals fee) d).1 = .ok value →
        ∃ rs, Reported factory (hops path) page rs ∧ quote last.decimals fee rs = .ok value := by
  obtain ⟨r, s, page, hprice, hturn, hvalue⟩ :=
    exists_page_pathPrice (m := m) factory path last.decimals fee d.chain.1 d.chain.2
  have hask : Desk.ask (pathPrice m.minuted factory path last.decimals fee) d
      = (r, { d with chain := (s, d.chain.2 ++ page) }) := by
    unfold Desk.ask
    rw [hprice]
  rw [← poolsPlan_of_known hall hlast] at hturn
  rw [hask]
  exact ⟨page, hd.ask (question_of_poolsPlan hturn) s, hturn, hvalue⟩

/-- **What is asked for a swap call whose data can be read,** and what the swap is made of
if it can be resolved.  The block is only given up for a row that cannot be read. -/
theorem exists_pages_resolveSwap (hd : d.AsMinuted books before today) (fee : Option Fee)
    {tx : Transaction} {call : SwapCall} (hcall : SwapCall.decode tx.input tx.value = .ok call)
    (wallet router : Address) :
    ∃ toRouter toTokens toPools,
      (resolveSwap m.minuted fee books tx wallet router d).2.AsMinuted books before
          (today ++ (toRouter ++ toTokens ++ toPools))
        ∧ Inquiry books before today router call.path toRouter toTokens toPools
        ∧ (∀ swap, (resolveSwap m.minuted fee books tx wallet router d).1 = .ok swap →
          Informed books before today router fee call toRouter toTokens toPools swap)
        ∧ ∀ e, (resolveSwap m.minuted fee books tx wallet router d).1 = .error (.halt e) →
          ∃ token ∈ call.path, books.find? .tokens token = .error e := by
  have hdecoded : (Asking.ofExcept ((SwapCall.decode tx.input tx.value).mapError fun e =>
      Setback.skip (.undecodable e)) : Asking (Desk (σ × List Consultation)) Setback SwapCall) d
      = (.ok call, d) := by
    rw [hcall]
    rfl
  have hstart : resolveSwap m.minuted fee books tx wallet router d = _ :=
    Asking.bind_run_ok hdecoded
  obtain ⟨toRouter, hd₁, hrouter, hnamed⟩ := exists_page_factoryOf (m := m) hd router
  rcases hfactory : Desk.factoryOf m.minuted router d with ⟨e | factory, d₁⟩
  · -- without a factory nothing else is asked
    rw [hfactory] at hd₁ hnamed
    rw [hstart, Asking.bind_run_error (Asking.withError_run hfactory)]
    refine ⟨toRouter, [], [], ?_, ⟨hrouter, ?_, ?_⟩, nofun, nofun⟩
    · rw [List.append_nil, List.append_nil]
      exact hd₁
    · rw [← hnamed]
      exact .done
    · rw [← hnamed]
      exact .done
  rw [hfactory] at hd₁ hnamed
  rw [Asking.bind_run_ok (Asking.withError_run hfactory)] at hstart
  obtain ⟨toTokens, hd₂, htokens, hok, herror⟩ :=
    exists_page_metadataAlong (m := m) hd₁ call.path
  have htokens' : InTurn (tokensPlan (factoryIn (before ++ today ++ toRouter) router) books
      (today ++ toRouter) call.path) toTokens := by
    rw [← hnamed]
    exact htokens
  rcases halong : Desk.metadataAlong m.minuted books call.path d₁ with ⟨setback | tokens, d₂⟩
  · -- nor is any pool without all tokens
    rw [halong] at hd₂ herror
    rw [hstart, Asking.bind_run_error halong]
    obtain ⟨⟨token, htoken, hunknown⟩, hhalt⟩ := herror setback rfl
    refine ⟨toRouter, toTokens, [], ?_, ⟨hrouter, htokens', ?_⟩, nofun, fun e he => ?_⟩
    · rw [List.append_nil, ← List.append_assoc]
      exact hd₂
    · rw [poolsPlan_of_unknown htoken hunknown]
      exact .done
    · exact hhalt e (Except.error.inj he)
  rw [halong] at hd₂ hok
  rw [Asking.bind_run_ok halong] at hstart
  obtain ⟨hpath, hknown⟩ := hok tokens rfl
  have hall : ∀ t ∈ call.path,
      (knownOf books (today ++ toRouter ++ toTokens) t).isSome = true := by
    intro t ht
    rw [← hpath] at ht
    obtain ⟨p, hp, rfl⟩ := List.mem_map.mp ht
    rw [hknown p hp]
    rfl
  cases hlast : tokens.getLast? with
  | none =>
    rw [hlast] at hstart
    have hrun : resolveSwap m.minuted fee books tx wallet router d
        = (.error (.skip (.undecodable .emptyPath)), d₂) := hstart
    rw [hrun]
    have hnone : call.path = [] := by
      rw [← hpath, List.getLast?_eq_none_iff.mp hlast]
      rfl
    refine ⟨toRouter, toTokens, [], ?_, ⟨hrouter, htokens', ?_⟩, nofun, nofun⟩
    · rw [List.append_nil, ← List.append_assoc]
      exact hd₂
    · rw [hnone]
      unfold poolsPlan
      rw [List.getLast?_nil, Option.bind_none]
      split
      next h => exact nomatch h
      next => exact .done
  | some last =>
    rw [hlast] at hstart
    have hlast' : call.path.getLast?.bind (knownOf books (today ++ toRouter ++ toTokens))
        = some last.2 := by
      rw [← hpath, List.getLast?_map, hlast]
      exact hknown last (List.mem_of_getLast? hlast)
    obtain ⟨toPools, hd₃, hpools, hvalue⟩ :=
      exists_page_askPools (m := m) hd₂ factory hall hlast' fee
    have hasked : Inquiry books before today router call.path toRouter toTokens toPools :=
      ⟨hrouter, htokens', by rw [← hnamed]; exact hpools⟩
    rw [List.append_assoc today, List.append_assoc today] at hd₃
    rcases hask : Desk.ask (pathPrice m.minuted factory call.path last.2.decimals fee) d₂
      with ⟨e | value, d₃⟩
    · rw [hask] at hd₃
      have hrun : resolveSwap m.minuted fee books tx wallet router d
          = (.error (.skip (.unpriced e)), d₃) :=
        hstart.trans (Asking.bind_run_error (Asking.withError_run hask))
      rw [hrun]
      exact ⟨toRouter, toTokens, toPools, hd₃, hasked, nofun, nofun⟩
    · rw [hask] at hd₃ hvalue
      have hrun : resolveSwap m.minuted fee books tx wallet router d
          = (.ok ⟨tx.hash, wallet, factory, call, tokens, value⟩, d₃) :=
        hstart.trans (Asking.bind_run_ok (Asking.withError_run hask))
      rw [hrun]
      obtain ⟨rs, hreported, hquote⟩ := hvalue value rfl
      refine ⟨toRouter, toTokens, toPools, hd₃, hasked, fun swap hswap => ?_, nofun⟩
      obtain rfl := Except.ok.inj hswap
      exact ⟨rfl, hnamed.symm, hpath, hknown, last, hlast, rs, hreported, hquote⟩

end

end FundTrail
