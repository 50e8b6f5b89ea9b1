/-
  FundTrail.Proofs.Swap.Pools
  ───────────────────────────
  **RESERVES BELONG TO TOKENS.**

  A pool lists what it holds of its two tokens by ascending address.  Which of them goes
  in and which comes out is a matter of the path, and so the list has to be turned round
  on half of all hops.  Seen from outside none of this shows: what a path is told of a
  hop is what the pool holds of the token that goes in, and of the one that comes out.
  Addresses may be exchanged for others in any other order, and the way back is told the
  same with in and out exchanged.

  Where a hop has no reserves the first such hop ends the questions: no pool comes before
  no token, and that before twice the same token.

  Main fact: `reserves_follow_tokens`.
-/
import FundTrail.Proofs.Swap.Conversion
import FundTrail.Proofs.Swap.Hops
import Mathlib.Data.Set.Function

namespace FundTrail

variable {σ : Type}

/-! ## §1. Pools. -/

/-- The pools of all factories. -/
structure Pools where
  /-- What the pool of two tokens holds of the first one; none if there is no pool. -/
  held : Address → Address → Address → Option Amount
  /-- A pool is the pool of either token. -/
  isSome_held_comm : ∀ factory a b, (held factory a b).isSome = (held factory b a).isSome

namespace Pools

/-- The pool of a hop holds these amounts of the token that goes in, and of the one that
comes out. -/
structure Holds (p : Pools) (factory : Address) (hop : Address × Address) (r : Reserves) :
    Prop where
  reserveIn : p.held factory hop.1 hop.2 = some r.reserveIn
  reserveOut : p.held factory hop.2 hop.1 = some r.reserveOut

/-- What is wrong with a hop, if anything is. -/
def defect? (p : Pools) (factory : Address) (hop : Address × Address) : Option PriceError :=
  if p.held factory hop.1 hop.2 = none then some (.chain (.pairNotFound hop.1 hop.2))
  else if hop.1 = .zero ∨ hop.2 = .zero then some .zeroAddress
  else if hop.1 = hop.2 then some (.identicalAddresses hop.1)
  else none

/-- The path leads from pool to pool. -/
structure Connects (p : Pools) (factory : Address) (path : List Address) : Prop where
  long : 2 ≤ path.length
  nonzero : ∀ token ∈ path, token ≠ .zero
  distinct : ∀ hop ∈ hops path, hop.1 ≠ hop.2
  pooled : ∀ hop ∈ hops path, (p.held factory hop.1 hop.2).isSome

/-- The pools `p'` hold of the new names of tokens what the pools `p` hold of the tokens
themselves. -/
def Renamed (p p' : Pools) (factory : Address) (name : Address → Address)
    (tokens : List Address) : Prop :=
  ∀ a ∈ tokens, ∀ b ∈ tokens, p'.held factory (name a) (name b) = p.held factory a b

end Pools

/-- The number that an address spells, most significant byte first. -/
def FixedBytes.number {n : Nat} (b : FixedBytes n) : Nat := ofBigEndian b.toList

theorem FixedBytes.number_lt_iff {n : Nat} {a b : FixedBytes n} : a.number < b.number ↔ a < b :=
  ofBigEndian_lt_iff (a.length_toList.trans b.length_toList.symm)

/-- The chain answers with what its pools hold, by ascending address.  What it says of a
pool that has not two tokens is left open. -/
structure Market.Trades (m : Market σ) (p : Pools) : Prop where
  sorted : ∀ {factory a b x y}, a ≠ .zero → b ≠ .zero → a ≠ b →
    p.held factory a b = some x → p.held factory b a = some y →
    ∀ s, (m.reservesOf factory a b s).1
      = .ok (if a.number < b.number then ⟨x, y⟩ else ⟨y, x⟩)
  answered : ∀ {factory a b}, p.held factory a b ≠ none →
    ∀ s, ∃ raw, (m.reservesOf factory a b s).1 = .ok raw
  missing : ∀ {factory a b}, p.held factory a b = none →
    ∀ s, (m.reservesOf factory a b s).1 = .error (.pairNotFound a b)

namespace Pools

variable {p p' : Pools} {factory : Address} {hop : Address × Address} {path : List Address}
  {r : Reserves} {rs : List Reserves}

theorem Holds.back (h : p.Holds factory hop r) : p.Holds factory hop.swap r.back :=
  ⟨h.reserveOut, h.reserveIn⟩

theorem defect?_eq_none_iff :
    p.defect? factory hop = none ↔
      (p.held factory hop.1 hop.2).isSome ∧ hop.1 ≠ .zero ∧ hop.2 ≠ .zero ∧ hop.1 ≠ hop.2 := by
  unfold defect?
  by_cases hpool : p.held factory hop.1 hop.2 = none
  · rw [if_pos hpool, hpool]
    exact ⟨nofun, fun h => nomatch h.1⟩
  · rw [if_neg hpool]
    by_cases hzero : hop.1 = .zero ∨ hop.2 = .zero
    · rw [if_pos hzero]
      exact ⟨nofun, fun h => absurd hzero (not_or.mpr ⟨h.2.1, h.2.2.1⟩)⟩
    · rw [if_neg hzero]
      by_cases hsame : hop.1 = hop.2
      · rw [if_pos hsame]
        exact ⟨nofun, fun h => absurd hsame h.2.2.2⟩
      · rw [if_neg hsame]
        obtain ⟨hfirst, hsecond⟩ := not_or.mp hzero
        exact ⟨fun _ => ⟨Option.isSome_iff_ne_none.mpr hpool, hfirst, hsecond, hsame⟩,
          fun _ => rfl⟩

/-- A pool holds something of either token, be it nothing at all. -/
theorem exists_holds (h : (p.held factory hop.1 hop.2).isSome) : ∃ r, p.Holds factory hop r := by
  obtain ⟨x, hx⟩ := Option.isSome_iff_exists.mp h
  obtain ⟨y, hy⟩ := Option.isSome_iff_exists.mp ((p.isSome_held_comm ..).symm.trans h)
  exact ⟨⟨x, y⟩, hx, hy⟩

namespace Connects

theorem defect?_eq_none (h : p.Connects factory path) : ∀ hop ∈ hops path,
    p.defect? factory hop = none := by
  intro hop hmem
  obtain ⟨hfirst, hsecond⟩ := mem_of_mem_hops hmem
  exact defect?_eq_none_iff.mpr
    ⟨h.pooled hop hmem, h.nonzero _ hfirst, h.nonzero _ hsecond, h.distinct hop hmem⟩

theorem reverse (h : p.Connects factory path) : p.Connects factory path.reverse := by
  have hmem : ∀ hop ∈ hops path.reverse, hop.swap ∈ hops path := by
    intro hop hhop
    rw [hops_reverse, List.mem_reverse] at hhop
    obtain ⟨other, hother, rfl⟩ := List.mem_map.mp hhop
    rw [Prod.swap_swap]
    exact hother
  constructor
  case long =>
    rw [List.length_reverse]
    exact h.long
  case nonzero => exact fun token htoken => h.nonzero token (List.mem_reverse.mp htoken)
  case distinct => exact fun hop hhop => (h.distinct _ (hmem hop hhop)).symm
  case pooled =>
    intro hop hhop
    rw [p.isSome_held_comm]
    exact h.pooled _ (hmem hop hhop)

theorem rename (h : p.Connects factory path) {name : Address → Address}
    (hname : Set.InjOn name {token | token ∈ path}) (hnonzero : ∀ token ∈ path, name token ≠ .zero)
    (hrenamed : p.Renamed p' factory name path) : p'.Connects factory (path.map name) := by
  have hmem : ∀ hop ∈ hops (path.map name), ∃ old ∈ hops path, hop = (name old.1, name old.2) := by
    intro hop hhop
    rw [hops_map] at hhop
    obtain ⟨old, hold, rfl⟩ := List.mem_map.mp hhop
    exact ⟨old, hold, rfl⟩
  constructor
  case long =>
    rw [List.length_map]
    exact h.long
  case nonzero =>
    intro token htoken
    obtain ⟨old, hold, rfl⟩ := List.mem_map.mp htoken
    exact hnonzero old hold
  case distinct =>
    intro hop hhop hsame
    obtain ⟨old, hold, rfl⟩ := hmem hop hhop
    obtain ⟨hfirst, hsecond⟩ := mem_of_mem_hops hold
    exact h.distinct old hold (hname hfirst hsecond hsame)
  case pooled =>
    intro hop hhop
    obtain ⟨old, hold, rfl⟩ := hmem hop hhop
    obtain ⟨hfirst, hsecond⟩ := mem_of_mem_hops hold
    rw [hrenamed _ hfirst _ hsecond]
    exact h.pooled old hold

end Connects

/-- A list of hops that all have a pool has reserves. -/
theorem exists_forall₂_holds {pairs : List (Address × Address)}
    (h : ∀ hop ∈ pairs, (p.held factory hop.1 hop.2).isSome) :
    ∃ rs, List.Forall₂ (p.Holds factory) pairs rs := by
  induction pairs with
  | nil => exact ⟨[], .nil⟩
  | cons hop pairs ih =>
    obtain ⟨r, hr⟩ := exists_holds (h hop List.mem_cons_self)
    obtain ⟨rs, hrs⟩ := ih fun other hother => h other (List.mem_cons_of_mem _ hother)
    exact ⟨r :: rs, .cons hr hrs⟩

/-- On the way back the pools hold the same, with in and out exchanged. -/
theorem forall₂_holds_reverse (h : List.Forall₂ (p.Holds factory) (hops path) rs) :
    List.Forall₂ (p.Holds factory) (hops path.reverse) (wayBack rs) := by
  rw [hops_reverse]
  unfold wayBack
  rw [List.forall₂_reverse_iff, List.forall₂_map_left_iff, List.forall₂_map_right_iff]
  exact h.imp fun hop r hr => hr.back

/-- And of the new names of tokens they hold the same. -/
theorem forall₂_holds_rename {name : Address → Address} (hrenamed : p.Renamed p' factory name path)
    (h : List.Forall₂ (p.Holds factory) (hops path) rs) :
    List.Forall₂ (p'.Holds factory) (hops (path.map name)) rs := by
  rw [hops_map, List.forall₂_map_left_iff]
  have hmem : List.Forall₂ (fun hop r => hop ∈ hops path ∧ p.Holds factory hop r) (hops path) rs :=
    (List.forall₂_and_left _ _).mpr ⟨fun hop hhop => hhop, h⟩
  refine hmem.imp fun hop r hr => ?_
  obtain ⟨hfirst, hsecond⟩ := mem_of_mem_hops hr.1
  exact ⟨(hrenamed _ hfirst _ hsecond).trans hr.2.reserveIn,
    (hrenamed _ hsecond _ hfirst).trans hr.2.reserveOut⟩

end Pools

/-! ## §2. Chains that trade. -/

section

variable {m : Market σ} {p : Pools} (hm : m.Trades p) {factory : Address}

include hm

/-- **The list is turned round where it has to be.** -/
theorem Market.Trades.quotes {hop : Address × Address} {r : Reserves}
    (hsound : p.defect? factory hop = none) (hr : p.Holds factory hop r) :
    m.Quotes factory hop r := by
  obtain ⟨-, hfirst, hsecond, hdistinct⟩ := Pools.defect?_eq_none_iff.mp hsound
  refine ⟨_, hm.sorted hfirst hsecond hdistinct hr.reserveIn hr.reserveOut, ?_⟩
  unfold orient
  rw [if_neg (not_or.mpr ⟨hfirst, hsecond⟩), if_neg hdistinct]
  by_cases hlt : hop.1 < hop.2
  · rw [if_pos hlt, if_pos (FixedBytes.number_lt_iff.mpr hlt)]
  · rw [if_neg hlt, if_neg fun h => hlt (FixedBytes.number_lt_iff.mp h)]

/-- A path from pool to pool is told what these hold. -/
theorem Market.Trades.reservesAlong {path : List Address} {rs : List Reserves}
    (hpath : p.Connects factory path) (hrs : List.Forall₂ (p.Holds factory) (hops path) rs)
    (s : σ) : (FundTrail.reservesAlong m factory path s).1 = .ok rs := by
  have hsound : List.Forall₂ (fun hop r => p.defect? factory hop = none ∧ p.Holds factory hop r)
      (hops path) rs := (List.forall₂_and_left _ _).mpr ⟨hpath.defect?_eq_none, hrs⟩
  exact reservesAlong_of_quotes hpath.long (hsound.imp fun hop r h => hm.quotes h.1 h.2) s

/-- What a hop with a defect comes to. -/
theorem Market.Trades.refuses {hop : Address × Address} {e : PriceError}
    (h : p.defect? factory hop = some e) (s : σ) :
    let answered := m.reservesOf factory hop.1 hop.2 s
    (∃ error, answered = (.error error, answered.2) ∧ e = .chain error)
      ∨ ∃ raw, answered = (.ok raw, answered.2) ∧ orient hop.1 hop.2 raw = .error e := by
  intro answered
  unfold Pools.defect? at h
  split at h
  next hmissing =>
    obtain rfl := Option.some.inj h
    exact .inl ⟨_, Prod.ext (hm.missing hmissing s) rfl, rfl⟩
  next hpool =>
    obtain ⟨raw, hraw⟩ := hm.answered hpool s
    refine .inr ⟨raw, Prod.ext hraw rfl, ?_⟩
    unfold orient
    split at h
    next hzero =>
      obtain rfl := Option.some.inj h
      exact if_pos hzero
    next hzero =>
      rw [if_neg hzero]
      split at h
      next hsame =>
        obtain rfl := Option.some.inj h
        exact if_pos hsame
      next => exact nomatch h

/-- **The first hop with a defect ends the questions**: up to it every hop has been asked
for, and behind it none. -/
theorem Market.Trades.reservesOfHops_defect {sound : List (Address × Address)}
    {hop : Address × Address} {e : PriceError}
    (hsound : ∀ other ∈ sound, p.defect? factory other = none)
    (hdefect : p.defect? factory hop = some e) (rest : List (Address × Address)) (s : σ) :
    ∃ s', reservesOfHops m factory (sound ++ hop :: rest) s = (.error e, s')
      ∧ ∀ log, reservesOfHops m.recorded factory (sound ++ hop :: rest) (s, log)
        = (.error e, s', log ++ (sound ++ [hop]).map fun h => .reserves factory h.1 h.2) := by
  induction sound generalizing s with
  | nil =>
    have hrefused := hm.refuses hdefect s
    refine ⟨_, reservesOfHops_cons_of_error hrefused rest, fun log => ?_⟩
    refine reservesOfHops_cons_of_error ?_ rest
    rcases hrefused with ⟨error, hasked, he⟩ | ⟨raw, hasked, hill⟩
    · exact .inl ⟨error, Market.recorded_reservesOf hasked log, he⟩
    · exact .inr ⟨raw, Market.recorded_reservesOf hasked log, hill⟩
  | cons first sound ih =>
    have hfirst := hsound first List.mem_cons_self
    obtain ⟨r, hr⟩ := Pools.exists_holds (Pools.defect?_eq_none_iff.mp hfirst).1
    obtain ⟨raw, hraw, horient⟩ := hm.quotes hfirst hr
    have hasked : m.reservesOf factory first.1 first.2 s
        = (.ok raw, (m.reservesOf factory first.1 first.2 s).2) := Prod.ext (hraw s) rfl
    obtain ⟨s', hplain, hlogged⟩ := ih (fun other hother => hsound other
      (List.mem_cons_of_mem _ hother)) (m.reservesOf factory first.1 first.2 s).2
    refine ⟨s', ?_, fun log => ?_⟩
    · show reservesOfHops m factory (first :: (sound ++ hop :: rest)) s = _
      rw [reservesOfHops_cons_of_ok hasked horient, hplain]
      rfl
    · show reservesOfHops m.recorded factory (first :: (sound ++ hop :: rest)) (s, log) = _
      rw [reservesOfHops_cons_of_ok (Market.recorded_reservesOf hasked log) horient, hlogged,
        List.append_assoc]
      rfl

end

/-! ## §3. Reserves along a path. -/

/-- **Reserves follow the tokens, whatever their addresses.**  A path from pool to pool is
told what each pool holds of its two tokens; on the way back in and out are exchanged, and
other names of the tokens change nothing.  On any other path the first hop with a defect
says what is wrong, and no hop behind it is asked for. -/
theorem reserves_follow_tokens {m : Market σ} {p : Pools} (hm : m.Trades p) (factory : Address)
    (path : List Address) :
    (p.Connects factory path →
      ∃ rs, List.Forall₂ (p.Holds factory) (hops path) rs
        ∧ (∀ s, (reservesAlong m factory path s).1 = .ok rs)
        ∧ (∀ s, (reservesAlong m factory path.reverse s).1 = .ok (wayBack rs))
        ∧ ∀ {τ : Type} {m' : Market τ} {p' : Pools} {name : Address → Address}, m'.Trades p' →
          Set.InjOn name {token | token ∈ path} → (∀ token ∈ path, name token ≠ .zero) →
          p.Renamed p' factory name path →
          ∀ s, (reservesAlong m' factory (path.map name) s).1 = .ok rs)
    ∧ ((∃ hop ∈ hops path, p.defect? factory hop ≠ none) →
      ∃ sound hop rest e, hops path = sound ++ hop :: rest
        ∧ (∀ other ∈ sound, p.defect? factory other = none)
        ∧ p.defect? factory hop = some e
        ∧ ∀ s, ∃ s', reservesAlong m factory path s = (.error e, s')
          ∧ ∀ log, reservesAlong m.recorded factory path (s, log)
            = (.error e, s', log ++ (sound ++ [hop]).map fun h => .reserves factory h.1 h.2)) := by
  constructor
  · intro hpath
    obtain ⟨rs, hrs⟩ := Pools.exists_forall₂_holds hpath.pooled
    refine ⟨rs, hrs, hm.reservesAlong hpath hrs, ?_, ?_⟩
    · exact hm.reservesAlong hpath.reverse (Pools.forall₂_holds_reverse hrs)
    · intro τ m' p' name hm' hname hnonzero hrenamed
      exact hm'.reservesAlong (hpath.rename hname hnonzero hrenamed)
        (Pools.forall₂_holds_rename hrenamed hrs)
  · rintro ⟨bad, hbad, hne⟩
    -- the first hop that has a defect
    obtain ⟨e, he⟩ : ∃ e, (hops path).findSome? (p.defect? factory) = some e :=
      Option.isSome_iff_exists.mp (List.findSome?_isSome_iff.mpr
        ⟨bad, hbad, Option.isSome_iff_ne_none.mpr hne⟩)
    obtain ⟨sound, hop, rest, hsplit, hdefect, hsound⟩ := List.findSome?_eq_some_iff.mp he
    refine ⟨sound, hop, rest, e, hsplit, hsound, hdefect, fun s => ?_⟩
    have hlong := Nat.not_lt.mpr (two_le_length_of_mem_hops hbad)
    unfold reservesAlong
    rw [if_neg hlong, if_neg hlong, hsplit]
    exact hm.reservesOfHops_defect hsound hdefect rest s

/-- A pool, and what it holds of its tokens. -/
structure Pool where
  tokenA : Address
  tokenB : Address
  heldA : Amount
  heldB : Amount

/-- What the pool holds of the first of two tokens, if it is theirs. -/
def Pool.held? (pool : Pool) (a b : Address) : Option Amount :=
  if a = pool.tokenA ∧ b = pool.tokenB then some pool.heldA
  else if a = pool.tokenB ∧ b = pool.tokenA then some pool.heldB
  else none

theorem Pool.isSome_held?_comm (pool : Pool) (a b : Address) :
    (pool.held? a b).isSome = (pool.held? b a).isSome := by
  unfold held?
  by_cases hab : a = pool.tokenA ∧ b = pool.tokenB
  · rw [if_pos hab, if_pos hab.symm]
    split <;> rfl
  · by_cases hba : a = pool.tokenB ∧ b = pool.tokenA
    · rw [if_neg hab, if_pos hba, if_pos hba.symm]
      rfl
    · rw [if_neg hab, if_neg hba, if_neg fun h => hba h.symm, if_neg fun h => hab h.symm]

namespace Pools

/-- All factories have these pools; the first one of two tokens counts. -/
def ofList (pools : List Pool) : Pools where
  held _ a b := pools.findSome? (·.held? a b)
  isSome_held_comm _ a b := by
    rw [List.isSome_findSome?, List.isSome_findSome?]
    exact congrArg pools.any (funext fun pool => pool.isSome_held?_comm a b)

/-- What there is to say of the pool of two tokens. -/
def listed (p : Pools) (factory a b : Address) : Except ChainError PairReserves :=
  match p.held factory a b, p.held factory b a with
  | some x, some y => .ok (if a.number < b.number then ⟨x, y⟩ else ⟨y, x⟩)
  | _, _ => .error (.pairNotFound a b)

/-- A chain that has nothing but these pools. -/
def market (p : Pools) : Market Unit where
  factoryOf _ := Asking.fail (.contract "no router")
  metadataOf _ := Asking.fail (.contract "no token")
  reservesOf factory a b := Asking.ofExcept (p.listed factory a b)

theorem listed_of_held {p : Pools} {factory a b : Address} {x y : Amount}
    (hx : p.held factory a b = some x) (hy : p.held factory b a = some y) :
    p.listed factory a b = .ok (if a.number < b.number then ⟨x, y⟩ else ⟨y, x⟩) := by
  unfold listed
  rw [hx, hy]

theorem trades_market (p : Pools) : p.market.Trades p where
  sorted _ _ _ hx hy _ := listed_of_held hx hy
  answered {factory a b} h _ := by
    obtain ⟨r, hr⟩ := @exists_holds p factory (a, b) (Option.isSome_iff_ne_none.mpr h)
    exact ⟨_, listed_of_held hr.reserveIn hr.reserveOut⟩
  missing {factory a b} h _ := by
    show p.listed factory a b = _
    unfold listed
    rw [h]

end Pools

/-- A token by the first byte of its address. -/
def coin (n : UInt8) : Address := .ofPrefix [n]

/-- Two pools, and one that has the same token twice. -/
def somePools : Pools := .ofList
  [⟨coin 5, coin 2, .clamp 52, .clamp 25⟩, ⟨coin 2, coin 9, .clamp 29, .clamp 92⟩,
    ⟨coin 2, coin 2, .clamp 1, .clamp 1⟩]

/-- Other tokens with the same pools; they come in the opposite order. -/
def otherPools : Pools := .ofList
  [⟨coin 50, coin 80, .clamp 52, .clamp 25⟩, ⟨coin 80, coin 10, .clamp 29, .clamp 92⟩,
    ⟨coin 80, coin 80, .clamp 1, .clamp 1⟩]

/-- The other token for each. -/
def otherName (token : Address) : Address :=
  if token = coin 5 then coin 50 else if token = coin 2 then coin 80 else coin 10

/-- The pools list what they hold in one order, in the other, and in neither, and the path
is told the same; a path that stays where it is gets no further. -/
theorem reserves_follow_tokens_somePools :
    let rs : List Reserves := [⟨.clamp 52, .clamp 25⟩, ⟨.clamp 29, .clamp 92⟩]
    (reservesAlong somePools.market .zero [coin 5, coin 2, coin 9] ()).1 = .ok rs
      ∧ (reservesAlong somePools.market .zero [coin 9, coin 2, coin 5] ()).1 = .ok (wayBack rs)
      ∧ (reservesAlong otherPools.market .zero [coin 50, coin 80, coin 10] ()).1 = .ok rs
      ∧ ∃ hop, somePools.defect? .zero hop = some (.identicalAddresses (coin 2))
        ∧ reservesAlong somePools.market.recorded .zero [coin 5, coin 2, coin 2, coin 9] ((), [])
          = (.error (.identicalAddresses (coin 2)), (),
            [.reserves .zero (coin 5) (coin 2), .reserves .zero hop.1 hop.2]) := by
  intro rs
  have hpath : somePools.Connects .zero [coin 5, coin 2, coin 9] :=
    ⟨by decide, by decide +kernel, by decide +kernel, by decide +kernel⟩
  have hname : Set.InjOn otherName {token | token ∈ [coin 5, coin 2, coin 9]} := by
    have hpairs : ∀ a ∈ [coin 5, coin 2, coin 9], ∀ b ∈ [coin 5, coin 2, coin 9],
        otherName a = otherName b → a = b := by decide +kernel
    exact fun a ha b hb => hpairs a ha b hb
  have hrenamed : somePools.Renamed otherPools .zero otherName [coin 5, coin 2, coin 9] := by
    unfold Pools.Renamed
    decide +kernel
  obtain ⟨rs', -, hthere, hback, hother⟩ :=
    (reserves_follow_tokens somePools.trades_market .zero [coin 5, coin 2, coin 9]).1 hpath
  have hrs : rs' = rs := by
    have h : (reservesAlong somePools.market .zero [coin 5, coin 2, coin 9] ()).1 = .ok rs := by
      decide +kernel
    exact Except.ok.inj ((hthere ()).symm.trans h)
  subst hrs
  refine ⟨hthere (), hback (), ?_, ?_⟩
  · exact hother otherPools.trades_market hname (by decide +kernel) hrenamed ()
  · obtain ⟨sound, hop, rest, e, -, -, hdefect, hrun⟩ :=
      (reserves_follow_tokens somePools.trades_market .zero
        [coin 5, coin 2, coin 2, coin 9]).2 ⟨(coin 2, coin 2), by decide +kernel, by decide +kernel⟩
    obtain ⟨s', -, hlogged⟩ := hrun ()
    have hasked : reservesAlong somePools.market.recorded .zero
        [coin 5, coin 2, coin 2, coin 9] ((), [])
        = (.error (.identicalAddresses (coin 2)), (),
          [.reserves .zero (coin 5) (coin 2), .reserves .zero (coin 2) (coin 2)]) := by
      decide +kernel
    obtain ⟨he, hrest⟩ := Prod.mk.inj (hasked.symm.trans (hlogged []))
    obtain rfl := Except.error.inj he
    have hlast := congrArg List.getLast? (Prod.mk.inj hrest).2
    rw [List.nil_append, List.map_append, List.map_singleton, List.getLast?_concat] at hlast
    obtain ⟨-, hfirst, hsecond⟩ := Question.reserves.inj (Option.some.inj hlast)
    refine ⟨hop, hdefect, ?_⟩
    rw [← hfirst, ← hsecond]
    exact hasked

end FundTrail
