/-
  FundTrail.Proofs.Store.KeyOrder
  ───────────────────────────────
  **PATTERNS ARE LISTED TOKEN BY TOKEN.**

  The key of a pattern is the token's bytes and then the name's.  All tokens take the same
  number of bytes, so the token decides on the order of two keys unless it is the same;
  then the names do, and they come in the order of their bytes.  What is read as a key is
  written as it has been read.

  Main facts: `append_lt_append_iff`, `encodePatternKey_lt_iff` and
  `pattern_keys_canonical_and_ordered`.
-/
import FundTrail.Proofs.Store.RowByRow
import FundTrail.Proofs.Text.CodePoints

namespace FundTrail

/-! ## §1. The order of keys. -/

/-- The order of byte strings in two parts, the first of which is of one length. -/
theorem Bytes.append_lt_append_iff {as bs xs ys : Bytes} (h : as.length = bs.length) :
    as ++ xs < bs ++ ys ↔ as < bs ∨ as = bs ∧ xs < ys := by
  induction as generalizing bs with
  | nil =>
    obtain rfl := List.length_eq_zero_iff.mp h.symm
    exact ⟨fun hlt => .inr ⟨rfl, hlt⟩, fun hlt => (hlt.resolve_left (List.lt_irrefl [])).2⟩
  | cons a as ih =>
    cases bs with
    | nil => exact nomatch h
    | cons b bs =>
      rw [List.cons_append, List.cons_append, List.cons_lt_cons_iff, List.cons_lt_cons_iff,
        ih (Nat.succ.inj h), List.cons.injEq, and_or_left, or_assoc, and_assoc]

/-- The order of pairs of token and exchange: by the token, and for one token by the
name of the exchange. -/
def PatternKey.Before (k l : PatternKey) : Prop :=
  k.token < l.token ∨ k.token = l.token ∧ k.exchange < l.exchange

namespace Store

/-- **Keys come in the order of their bytes.** -/
theorem encodePatternKey_lt_iff {k l : PatternKey} :
    encodePatternKey k < encodePatternKey l ↔ k.Before l := by
  have hlength : k.token.toList.length = l.token.toList.length := by
    rw [k.token.length_toList, l.token.length_toList]
  have htoken : k.token.toList = l.token.toList ↔ k.token = l.token :=
    ⟨FixedBytes.ext, congrArg _⟩
  unfold encodePatternKey PatternKey.Before
  rw [Bytes.append_lt_append_iff hlength, Utf8.write_lt_iff, htoken]
  rfl

theorem decodePatternKey_eq_ok_iff {raw : Bytes} {k : PatternKey} :
    decodePatternKey raw = .ok k ↔ encodePatternKey k = raw :=
  ⟨Table.encodePatternKey_of_decodePatternKey,
    fun h => h ▸ Table.decodePatternKey_encodePatternKey k⟩

/-- Byte strings that are keys: those of a token and then the bytes of some characters. -/
theorem exists_decodePatternKey_iff {raw : Bytes} :
    (∃ k, decodePatternKey raw = .ok k)
      ↔ 20 ≤ raw.length ∧ ∃ name : List Char, raw.drop 20 = name.flatMap String.utf8EncodeChar := by
  simp only [decodePatternKey_eq_ok_iff]
  constructor
  · rintro ⟨k, rfl⟩
    have htoken := k.token.length_toList
    unfold encodePatternKey
    refine ⟨?_, k.exchange.toList, ?_⟩
    · rw [List.length_append, htoken]
      exact Nat.le_add_right _ _
    · rw [List.drop_left' htoken, Utf8.write_eq_flatMap]
  · rintro ⟨hlength, name, hname⟩
    refine ⟨⟨⟨raw.take 20, List.length_take_of_le hlength⟩, String.ofList name⟩, ?_⟩
    show raw.take 20 ++ Utf8.write (String.ofList name) = raw
    rw [write_ofList, ← hname, List.take_append_drop]

/-! ## §2. The list of patterns. -/

/-- Patterns token by token: the tokens ascend, between two patterns of one token there are
only patterns of this token, and these have ascending names. -/
structure Grouped (ps : List Pattern) : Prop where
  ascending : ps.Pairwise fun p q => ¬ q.token < p.token
  together : ∀ p q r, [p, q, r].Sublist ps → p.token = r.token → q.token = p.token
  named : ps.Pairwise fun p q => p.token = q.token → p.exchange < q.exchange

theorem grouped_of_pairwise {ps : List Pattern} (h : ps.Pairwise fun p q => p.key.Before q.key) :
    Grouped ps where
  ascending := h.imp fun {p q} hpq hqp => by
    rcases hpq with hlt | ⟨heq, -⟩
    · exact List.lt_irrefl _ (List.lt_trans hlt hqp)
    · rw [show p.token = q.token from heq] at hqp
      exact List.lt_irrefl _ hqp
  together p q r hsub hpr := by
    have hthree := h.sublist hsub
    simp only [List.pairwise_cons, List.forall_mem_cons, List.not_mem_nil, false_implies,
      implies_true, and_true] at hthree
    obtain ⟨⟨hpq, -⟩, hqr⟩ := hthree
    rcases hpq with hlt | ⟨heq, -⟩
    · -- a higher token would have to come down again
      have hup : p.key.token < r.key.token := by
        rcases hqr with hlt' | ⟨heq', -⟩
        · exact List.lt_trans hlt hlt'
        · exact heq' ▸ hlt
      rw [show p.key.token = r.key.token from hpr] at hup
      exact absurd hup (List.lt_irrefl _)
    · exact heq.symm
  named := h.imp fun {p q} hpq heq => by
    rcases hpq with hlt | ⟨-, hname⟩
    · rw [show p.key.token = q.key.token from heq] at hlt
      exact absurd hlt (List.lt_irrefl _)
    · exact hname

namespace Books

/-- Put patterns one after the other. -/
def putPatterns (b : Books) (written : List Pattern) : Books :=
  written.foldl (fun b p => b.put .patterns p) b

variable {b : Books} {ps : List Pattern}

theorem grouped_all (h : b.all .patterns = .ok ps) : Grouped ps :=
  grouped_of_pairwise ((@pairwise_all b .pattern ps h).imp encodePatternKey_lt_iff.mp)

/-- Patterns that are put into books that can be listed can be listed as well. -/
theorem exists_all_putPatterns (h : b.all .patterns = .ok ps) (written : List Pattern) :
    ∃ ps', (b.putPatterns written).all .patterns = .ok ps' := by
  induction written generalizing b ps with
  | nil => exact ⟨ps, h⟩
  | cons p written ih =>
    obtain ⟨ps', h', -⟩ := all_put Table.keyed_patterns
      Table.encodePatternKey_of_decodePatternKey (Table.keeps_pattern p) h
    exact ih h'

end Books

/-- **Each key of a pattern has one spelling, and keys come in the order of their
spellings.**  What is read as a key are the bytes of a token and then those of some
characters, and it is written as it was read.  The order of keys, by token and then by
name, is that of their bytes.  So whatever patterns have been put, they are listed, token
by token in ascending order, and those of one token by name. -/
theorem pattern_keys_canonical_and_ordered :
    (∀ raw, ((∃ k, decodePatternKey raw = .ok k)
          ↔ 20 ≤ raw.length ∧ ∃ name : List Char, raw.drop 20 = name.flatMap String.utf8EncodeChar)
        ∧ ∀ k, decodePatternKey raw = .ok k → encodePatternKey k = raw)
      ∧ (∀ k, decodePatternKey (encodePatternKey k) = .ok k)
      ∧ (∀ k l, (k.Before l ↔ encodePatternKey k < encodePatternKey l)
        ∧ (k = l ↔ encodePatternKey k = encodePatternKey l))
      ∧ (∀ s t : String, s < t ↔ Utf8.write s < Utf8.write t)
      ∧ ∀ (b : Books) ps, b.all .patterns = .ok ps →
        Grouped ps ∧ (∀ p, p ∈ ps ↔ b.find? .patterns p.key = .ok (some p))
          ∧ ∀ written, ∃ ps', (b.putPatterns written).all .patterns = .ok ps' := by
  refine ⟨fun raw => ⟨exists_decodePatternKey_iff, fun k => decodePatternKey_eq_ok_iff.mp⟩,
    Table.decodePatternKey_encodePatternKey, fun k l => ⟨encodePatternKey_lt_iff.symm, ?_⟩,
    fun s t => Utf8.write_lt_iff.symm, fun b ps hall => ?_⟩
  · exact ⟨congrArg _, Table.keyed_patterns.encodeKey_inj⟩
  · exact ⟨Books.grouped_all hall, fun p => @Books.mem_all_iff_find? b .pattern ps hall p,
      Books.exists_all_putPatterns hall⟩

/-- Patterns of two tokens, the names of one of them each the beginning of the next but for
the last, which begins with a character of two bytes. -/
def mixedPatterns : List Pattern :=
  [⟨.ofPrefix [2], "A", 0, 0⟩, ⟨.ofPrefix [1], "é", 0, 0⟩, ⟨.ofPrefix [1], "X1", 0, 0⟩,
    ⟨.ofPrefix [1], "", 0, 0⟩, ⟨.ofPrefix [1], "X", 0, 0⟩]

/-- They are listed token by token, and for the first token by their names.  Nineteen bytes
are no key. -/
theorem pattern_keys_canonical_and_ordered_mixed :
    (¬ ∃ k, decodePatternKey (List.replicate 19 0) = .ok k)
      ∧ (PatternKey.mk (.ofPrefix [1]) "X").Before ⟨.ofPrefix [1], "X1"⟩
      ∧ ∃ ps, (Books.empty.putPatterns mixedPatterns).all .patterns = .ok ps
        ∧ Grouped ps ∧ ps.map Pattern.exchange = ["", "X", "X1", "é", "A"] := by
  obtain ⟨hread, -, horder, -, hlist⟩ := pattern_keys_canonical_and_ordered
  refine ⟨fun h => absurd ((hread _).1.mp h).1 (by decide),
    (horder _ _).1.mpr (by decide +kernel), ?_⟩
  have hall : (Books.empty.putPatterns mixedPatterns).all .patterns
      = .ok [⟨.ofPrefix [1], "", 0, 0⟩, ⟨.ofPrefix [1], "X", 0, 0⟩, ⟨.ofPrefix [1], "X1", 0, 0⟩,
        ⟨.ofPrefix [1], "é", 0, 0⟩, ⟨.ofPrefix [2], "A", 0, 0⟩] := by decide +kernel
  exact ⟨_, hall, (hlist _ _ hall).1, rfl⟩

end Store

end FundTrail
