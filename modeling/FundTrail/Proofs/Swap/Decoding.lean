/-
  FundTrail.Proofs.Swap.Decoding
  ──────────────────────────────
  **SWAP CALLS ARE DECODED AS THEY ARE LAID OUT.**

  `Decodes` says what an input comes to, one rule for each outcome, in terms of what lies
  where.  No two rules apply to one input, and one of them always does, however the input
  has been made up: with the path among the other arguments, with a length that nothing
  stands behind, or cut off anywhere.

  Main facts: `decode_eq_iff_decodes` and `swap_calls_decoded_as_laid_out`.
-/
import FundTrail.Proofs.Swap.Layout

namespace FundTrail

/-! ## §1. Selectors. -/

theorem SwapMethod.ofSelector?_eq_some_iff {s : Selector} {method : SwapMethod} :
    ofSelector? s = some method ↔ s = method.selector := by
  unfold ofSelector?
  have hdistinct : selector .exactEthForTokens ≠ selector .ethForExactTokens := by decide
  constructor
  · intro h
    split at h
    next hs =>
      obtain rfl := Option.some.inj h
      exact hs
    next =>
      split at h
      next hs =>
        obtain rfl := Option.some.inj h
        exact hs
      next => exact nomatch h
  · rintro rfl
    cases method with
    | exactEthForTokens => exact if_pos rfl
    | ethForExactTokens => rw [if_neg hdistinct.symm, if_pos rfl]

theorem SwapMethod.ofSelector?_eq_none_iff {s : Selector} :
    ofSelector? s = none ↔ ∀ method : SwapMethod, s ≠ method.selector := by
  rw [Option.eq_none_iff_forall_ne_some]
  exact forall_congr' fun method => not_congr ofSelector?_eq_some_iff

theorem selector?_eq_some_iff {input : Bytes} {s : Selector} :
    selector? input = some s ↔ input.take 4 = s.toList :=
  FixedBytes.ofList?_eq_some_iff

theorem selector?_append (s : Selector) (args : Bytes) : selector? (s.toList ++ args) = some s := by
  rw [selector?_eq_some_iff, List.take_left' s.length_toList]

theorem selector?_eq_none_iff {input : Bytes} : selector? input = none ↔ input.length < 4 := by
  unfold selector? FixedBytes.ofList?
  rw [dite_eq_right_iff]
  constructor
  · intro h
    by_contra hlong
    exact nomatch h (by rw [List.length_take]; omega)
  · intro hshort h
    rw [List.length_take] at h
    omega

/-! ## §2. What an input comes to. -/

namespace SwapCall

/-- What an input comes to, in a transaction that sends `value`. -/
inductive Decodes (value : Amount) : Bytes → Except DecodeError SwapCall → Prop where
  /-- There are not enough bytes for a selector. -/
  | short {input : Bytes} :
      input.length < 4 → Decodes value input (.error (.missingSelector input.length))
  /-- No method has this selector. -/
  | unknown {s : Selector} {args : Bytes} :
      (∀ method : SwapMethod, s ≠ method.selector) →
      Decodes value (s.toList ++ args) (.error (.unknownMethod s))
  /-- Nothing follows the selector. -/
  | bare {method : SwapMethod} : Decodes value method.selector.toList (.error .noArguments)
  /-- What follows the selector are no arguments. -/
  | ragged {method : SwapMethod} {args : Bytes} :
      args ≠ [] →
      (∀ place amount path recipient deadline,
        ¬ LaidOut args place amount path recipient deadline) →
      Decodes value (method.selector.toList ++ args) (.error .badArguments)
  /-- The path is there, but there is nothing in it. -/
  | pathless {method : SwapMethod} {args : Bytes} {place : Nat} {amount : Amount}
      {recipient : Address} {deadline : Amount} :
      LaidOut args place amount [] recipient deadline →
      Decodes value (method.selector.toList ++ args) (.error .emptyPath)
  /-- Everything is there. -/
  | call {method : SwapMethod} {args : Bytes} {place : Nat} {amount : Amount}
      {path : List Address} {recipient : Address} {deadline : Amount} (hpath : path ≠ []) :
      LaidOut args place amount path recipient deadline →
      Decodes value (method.selector.toList ++ args)
        (.ok ⟨method, value, amount, path.head hpath, path.getLast hpath, path, recipient,
          deadline⟩)

section

variable {method : SwapMethod} {args : Bytes} {value : Amount}

theorem decode_append (s : Selector) (args : Bytes) (value : Amount) :
    decode (s.toList ++ args) value = decodeArguments s args value := by
  unfold decode
  rw [selector?_append, List.drop_left' s.length_toList]

theorem decode_of_arguments? (hargs : args ≠ []) :
    decode (method.selector.toList ++ args) value
      = match arguments? args with
        | none => .error .badArguments
        | some (amount, path, recipient, deadline) =>
          match path.head?, path.getLast? with
          | some first, some last =>
              .ok ⟨method, value, amount, first, last, path, recipient, deadline⟩
          | _, _ => .error .emptyPath := by
  rw [decode_append]
  unfold decodeArguments
  rw [SwapMethod.ofSelector?_eq_some_iff.mpr rfl]
  exact if_neg (by rw [List.isEmpty_iff]; exact hargs)

theorem decode_of_unreadable (hargs : args ≠ []) (h : arguments? args = none) :
    decode (method.selector.toList ++ args) value = .error .badArguments := by
  rw [decode_of_arguments? hargs, h]

theorem LaidOut.ne_nil {place : Nat} {amount : Amount} {path : List Address} {recipient : Address}
    {deadline : Amount} (h : LaidOut args place amount path recipient deadline) : args ≠ [] := by
  rintro rfl
  have hinside := h.inside
  unfold extent at hinside
  rw [List.length_nil] at hinside
  omega

/-- **An input comes to what the rules say.** -/
theorem Decodes.decode_eq {input : Bytes} {result : Except DecodeError SwapCall}
    (h : Decodes value input result) : decode input value = result := by
  cases h with
  | short hshort =>
    unfold decode
    rw [selector?_eq_none_iff.mpr hshort]
  | unknown hunknown =>
    rw [decode_append]
    unfold decodeArguments
    rw [SwapMethod.ofSelector?_eq_none_iff.mpr hunknown]
  | @bare method =>
    rw [← List.append_nil method.selector.toList, decode_append]
    unfold decodeArguments
    rw [SwapMethod.ofSelector?_eq_some_iff.mpr rfl]
    rfl
  | ragged hargs hnone =>
    refine decode_of_unreadable hargs (Option.eq_none_iff_forall_ne_some.mpr ?_)
    rintro ⟨amount, path, recipient, deadline⟩ hread
    obtain ⟨place, hlaid⟩ := arguments?_eq_some_iff.mp hread
    exact hnone place amount path recipient deadline hlaid
  | pathless hlaid =>
    rw [decode_of_arguments? hlaid.ne_nil, arguments?_eq_some_iff.mpr ⟨_, hlaid⟩]
    rfl
  | call hpath hlaid =>
    rw [decode_of_arguments? hlaid.ne_nil, arguments?_eq_some_iff.mpr ⟨_, hlaid⟩]
    simp only [List.head?_eq_some_head hpath, List.getLast?_eq_some_getLast hpath]

/-- Once a method has been selected, there are three ways to fail, and a call is one of that
method. -/
theorem decodes_selected (method : SwapMethod) (args : Bytes) (value : Amount) :
    (∃ error, (error = .noArguments ∨ error = .badArguments ∨ error = .emptyPath)
        ∧ Decodes value (method.selector.toList ++ args) (.error error))
      ∨ ∃ call, call.method = method
        ∧ Decodes value (method.selector.toList ++ args) (.ok call) := by
  by_cases hargs : args = []
  · rw [hargs, List.append_nil]
    exact .inl ⟨_, .inl rfl, .bare⟩
  · cases hread : arguments? args with
    | none =>
      refine .inl ⟨_, .inr (.inl rfl), .ragged hargs ?_⟩
      intro place amount path recipient deadline hlaid
      exact nomatch hread.symm.trans (arguments?_eq_some_iff.mpr ⟨place, hlaid⟩)
    | some arguments =>
      obtain ⟨amount, path, recipient, deadline⟩ := arguments
      obtain ⟨place, hlaid⟩ := arguments?_eq_some_iff.mp hread
      cases path with
      | nil => exact .inl ⟨_, .inr (.inr rfl), .pathless hlaid⟩
      | cons first path => exact .inr ⟨_, rfl, .call (List.cons_ne_nil first path) hlaid⟩

/-- Some rule applies to every input. -/
theorem exists_decodes (input : Bytes) (value : Amount) : ∃ result, Decodes value input result := by
  by_cases hshort : input.length < 4
  · exact ⟨_, .short hshort⟩
  · -- the input begins with a selector
    obtain ⟨s, hs⟩ := Option.ne_none_iff_exists'.mp (mt selector?_eq_none_iff.mp hshort)
    have hinput : input = s.toList ++ input.drop 4 := by
      rw [← selector?_eq_some_iff.mp hs, List.take_append_drop]
    rw [hinput]
    cases hmethod : SwapMethod.ofSelector? s with
    | none => exact ⟨_, .unknown (SwapMethod.ofSelector?_eq_none_iff.mp hmethod)⟩
    | some method =>
      obtain rfl := SwapMethod.ofSelector?_eq_some_iff.mp hmethod
      rcases decodes_selected method (input.drop 4) value with ⟨_, -, h⟩ | ⟨_, -, h⟩
      · exact ⟨_, h⟩
      · exact ⟨_, h⟩

theorem decode_eq_iff_decodes {input : Bytes} {result : Except DecodeError SwapCall} :
    decode input value = result ↔ Decodes value input result := by
  constructor
  · rintro rfl
    obtain ⟨result, h⟩ := exists_decodes input value
    rw [h.decode_eq]
    exact h
  · exact Decodes.decode_eq

/-- What a call lies in: the selector, and then its arguments. -/
theorem exists_laidOut_of_decode {input : Bytes} {call : SwapCall}
    (h : decode input value = .ok call) :
    ∃ args place, input = call.method.selector.toList ++ args
      ∧ LaidOut args place call.amountOut call.path call.recipient call.deadline
      ∧ 4 + extent place call.path.length ≤ input.length := by
  cases decode_eq_iff_decodes.mp h with
  | @call method args place amount path recipient deadline hpath hlaid =>
    refine ⟨args, place, rfl, hlaid, ?_⟩
    rw [List.length_append, method.selector.length_toList]
    exact Nat.add_le_add_left hlaid.inside 4

theorem decode_append_eq_ok {input : Bytes} {call : SwapCall} (h : decode input value = .ok call)
    (rest : Bytes) : decode (input ++ rest) value = .ok call := by
  cases decode_eq_iff_decodes.mp h with
  | call hpath hlaid =>
    rw [List.append_assoc]
    exact (Decodes.call hpath (hlaid.append rest)).decode_eq

theorem path_ne_nil_of_decode {input : Bytes} {call : SwapCall}
    (h : decode input value = .ok call) : call.path ≠ [] := by
  cases decode_eq_iff_decodes.mp h with
  | call hpath hlaid => exact hpath

end

/-! ## §3. Cut off, and followed by more. -/

/-- What becomes of a call of which only the first `k` bytes are there, if more are
needed. -/
def cutError (k : Nat) : DecodeError :=
  if k < 4 then .missingSelector k else if k = 4 then .noArguments else .badArguments

section

variable {method : SwapMethod} {args : Bytes} {place : Nat} {amount : Amount}
  {path : List Address} {recipient : Address} {deadline : Amount}

/-- **No part of a call is taken for a call.** -/
theorem decode_take (h : LaidOut args place amount path recipient deadline) {k : Nat}
    (hk : k < 4 + extent place path.length) (value : Amount) :
    decode ((method.selector.toList ++ args).take k) value = .error (cutError k) := by
  have hinside := h.inside
  have hselector := method.selector.length_toList
  unfold cutError
  by_cases hshort : k < 4
  · rw [if_pos hshort]
    have hlength : ((method.selector.toList ++ args).take k).length = k := by
      rw [List.length_take, List.length_append]
      omega
    have hcut : Decodes value ((method.selector.toList ++ args).take k) _ :=
      .short (hlength.symm ▸ hshort)
    rw [hcut.decode_eq, hlength]
  · rw [if_neg hshort, List.take_append, hselector, List.take_of_length_le (by omega)]
    by_cases hbare : k = 4
    · rw [if_pos hbare, hbare, Nat.sub_self, List.take_zero, List.append_nil]
      exact Decodes.bare.decode_eq
    · rw [if_neg hbare]
      have hargs : args.take (k - 4) ≠ [] := by
        rw [← List.length_pos_iff, List.length_take]
        unfold extent at hinside
        omega
      exact decode_of_unreadable hargs (arguments?_take_eq_none h (by omega))

end

/-- **Swap calls are decoded as they are laid out.**  Wherever the path lies, whatever
fills the words of addresses, and whatever follows, a call comes back as it has been made
up, unless its path is empty; and no input comes to anything else than what lies in it.
What follows a call changes nothing, and of a call of which the end is missing nothing is
taken for a call. -/
theorem swap_calls_decoded_as_laid_out :
    (∀ (method : SwapMethod) {args : Bytes} {place : Nat} {amount : Amount} {path : List Address}
        {recipient : Address} {deadline : Amount} (value : Amount) (hpath : path ≠ []),
      LaidOut args place amount path recipient deadline →
      decode (method.selector.toList ++ args) value
        = .ok ⟨method, value, amount, path.head hpath, path.getLast hpath, path, recipient,
          deadline⟩)
    ∧ (∀ (method : SwapMethod) {args : Bytes} {place : Nat} {amount : Amount}
        {recipient : Address} {deadline : Amount} (value : Amount),
      LaidOut args place amount [] recipient deadline →
      decode (method.selector.toList ++ args) value = .error .emptyPath)
    ∧ (∀ (input : Bytes) (value : Amount) (result : Except DecodeError SwapCall),
      decode input value = result ↔ Decodes value input result)
    ∧ (∀ (input : Bytes) (value : Amount) (call : SwapCall), decode input value = .ok call →
      call.path ≠ []
        ∧ (∃ args place, input = call.method.selector.toList ++ args
          ∧ LaidOut args place call.amountOut call.path call.recipient call.deadline
          ∧ 4 + extent place call.path.length ≤ input.length)
        ∧ ∀ rest, decode (input ++ rest) value = .ok call)
    ∧ (∀ (method : SwapMethod) {args : Bytes} {place : Nat} {amount : Amount}
        {path : List Address} {recipient : Address} {deadline : Amount} (value : Amount) (k : Nat),
      LaidOut args place amount path recipient deadline → k < 4 + extent place path.length →
      decode ((method.selector.toList ++ args).take k) value = .error (cutError k))
    ∧ ∀ (method : SwapMethod) (amount : Amount) (path : List Address) (recipient : Address)
        (deadline value : Amount) (hpath : path ≠ []), path.length < 2 ^ 32 →
      let input := method.selector.toList ++ encodeArguments amount path recipient deadline
      (∀ rest, decode (input ++ rest) value
        = .ok ⟨method, value, amount, path.head hpath, path.getLast hpath, path, recipient,
          deadline⟩)
      ∧ ∀ k < input.length, decode (input.take k) value = .error (cutError k) := by
  refine ⟨fun method _ _ _ _ _ _ value hpath h => (Decodes.call hpath h).decode_eq,
    fun method _ _ _ _ _ value h => (Decodes.pathless h).decode_eq,
    fun input value result => decode_eq_iff_decodes,
    fun input value call h =>
      ⟨path_ne_nil_of_decode h, exists_laidOut_of_decode h, decode_append_eq_ok h⟩,
    fun method _ _ _ _ _ _ value k h hk => decode_take h hk value, ?_⟩
  intro method amount path recipient deadline value hpath hfew input
  have hlaid := laidOut_encodeArguments amount recipient deadline hfew
  refine ⟨decode_append_eq_ok (Decodes.call hpath hlaid).decode_eq,
    fun k hk => decode_take hlaid ?_ value⟩
  rw [List.length_append, method.selector.length_toList, length_encodeArguments] at hk
  exact hk

/-- Four words of which the first two are also the path: the amount is its length, and the
place of the path its only token.  What fills the word of the recipient is not zero. -/
def foldedArguments (recipient : Address) : Bytes :=
  bigEndian 32 1 ++ bigEndian 32 0 ++ (List.replicate 12 255 ++ recipient.toList)
    ++ bigEndian 32 7

/-- A path among the other arguments is read, whatever follows, and not when the last byte
is missing; of no tokens nothing is made. -/
theorem swap_calls_decoded_folded :
    let recipient : Address := ⟨List.replicate 20 9, by decide⟩
    let nothing : Address := ⟨List.replicate 20 0, by decide⟩
    let input := (SwapMethod.selector .ethForExactTokens).toList ++ foldedArguments recipient
    decode (input ++ [1, 2, 3]) (.lowBits 5)
        = .ok ⟨.ethForExactTokens, .lowBits 5, .lowBits 1, nothing, nothing, [nothing], recipient,
          .lowBits 7⟩
      ∧ decode (input.take 131) (.lowBits 5) = .error .badArguments
      ∧ decode (input.take 4) (.lowBits 5) = .error .noArguments
      ∧ decode ((SwapMethod.selector .exactEthForTokens).toList
          ++ encodeArguments (.lowBits 1) [] recipient (.lowBits 7)) (.lowBits 5)
        = .error .emptyPath := by
  intro recipient nothing input
  obtain ⟨-, hpathless, hdecodes, hok, htake, -⟩ := swap_calls_decoded_as_laid_out
  have hpath : Abi.HoldsPath (foldedArguments recipient) 0 [nothing] := by
    refine ⟨by decide, by decide +kernel, fun i hi => ?_⟩
    obtain rfl : i = 0 := by simpa using hi
    show Abi.HoldsAddress (foldedArguments recipient) 32 nothing
    exact ⟨List.replicate 12 0, rfl, by decide +kernel⟩
  have hlaid : LaidOut (foldedArguments recipient) 0 (.lowBits 1) [nothing] recipient
      (.lowBits 7) :=
    { amount := by decide +kernel
      near := by decide
      offset := by decide +kernel
      recipient := ⟨List.replicate 12 255, rfl, by decide +kernel⟩
      deadline := by decide +kernel
      path := hpath }
  have hread : decode input (.lowBits 5) = _ :=
    (hdecodes _ _ _).mpr (.call (List.cons_ne_nil _ _) hlaid)
  exact ⟨(hok _ _ _ hread).2.2 _, htake .ethForExactTokens _ 131 hlaid (by decide),
    htake .ethForExactTokens _ 4 hlaid (by decide),
    hpathless .exactEthForTokens _ (laidOut_encodeArguments _ _ _ (by decide))⟩

end SwapCall

end FundTrail
