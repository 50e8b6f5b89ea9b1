/-
  FundTrail.Proofs.Store.Reporting
  ────────────────────────────────
  **THE REPORT ON PATTERNS IS AN ORDERED JOIN.**

  A report is made on every pattern whose token has a row, with what that row says, and
  on no other.  The most frequent patterns come first; those that occurred equally often
  come in the order of their keys, because the rows do and the sort is stable.  No other
  list is like this, so the report does not tell in which order the rows were written.

  There is no report on a part of the books: one row of either bucket that cannot be
  read, and the report is the fault of the first such row, tokens before patterns.

  Main facts: `filter_mergeSort`, `Joins.unique` and `reports_ordered_join`.
-/
import FundTrail.Proofs.Store.RowByRow
import FundTrail.Proofs.Store.Writes

namespace FundTrail.Store

/-! ## §1. A stable sort. -/

/-- Elements that count as equal stay in their order when a list is sorted. -/
theorem filter_mergeSort {α : Type} {le : α → α → Bool}
    (htrans : ∀ x y z, le x y = true → le y z = true → le x z = true)
    (htotal : ∀ x y, (le x y || le y x) = true) {p : α → Bool}
    (hp : ∀ x y, p x = true → p y = true → le x y = true) (l : List α) :
    (l.mergeSort le).filter p = l.filter p := by
  have hequal : (l.filter p).Pairwise fun x y => le x y = true :=
    List.pairwise_of_forall_mem_list fun x hx y hy =>
      hp x y (List.mem_filter.mp hx).2 (List.mem_filter.mp hy).2
  have hsub : (l.filter p).Sublist (l.mergeSort le) :=
    List.sublist_mergeSort htrans htotal hequal List.filter_sublist
  have hfilter : (l.filter p).Sublist ((l.mergeSort le).filter p) := by
    have h := hsub.filter p
    simpa only [List.filter_filter, Bool.and_self] using h
  exact (hfilter.eq_of_length ((List.mergeSort_perm l le).filter p).length_eq.symm).symm

namespace Books

/-! ## §2. The report. -/

/-- The place of a report in the list: the more frequent pattern comes first, and of
two equally frequent ones that with the smaller key. -/
def Report.Precedes (x y : Report) : Prop :=
  y.pattern.timesOccurred < x.pattern.timesOccurred
    ∨ x.pattern.timesOccurred = y.pattern.timesOccurred
      ∧ encodePatternKey x.pattern.key < encodePatternKey y.pattern.key

/-- A list of reports is the join of the patterns with their tokens: a report for each
pattern that is found, if its token is found, with what the token's row says; each
once, and in order. -/
structure Joins (b : Books) (result : List Report) : Prop where
  mem_iff : ∀ report, report ∈ result ↔
    b.find? .patterns report.pattern.key = .ok (some report.pattern)
      ∧ ∃ t, b.find? .tokens report.pattern.token = .ok (some t)
        ∧ report = ⟨report.pattern, t.symbol, t.decimals, t.price⟩
  nodup : (result.map fun report => report.pattern.key).Nodup
  ordered : result.Pairwise Report.Precedes

/-- **No other list is that join.** -/
theorem Joins.unique {b : Books} {result other : List Report} (h : b.Joins result)
    (h' : b.Joins other) : result = other := by
  have hirrefl : ∀ x y : Report, x.Precedes y → ¬ y.Precedes x := by
    rintro x y (hlt | ⟨heq, hkey⟩) (hlt' | ⟨heq', hkey'⟩)
    · exact absurd hlt' (Nat.lt_asymm hlt)
    · rw [heq'] at hlt
      exact Nat.lt_irrefl _ hlt
    · rw [heq] at hlt'
      exact Nat.lt_irrefl _ hlt'
    · exact List.lt_irrefl _ (List.lt_trans hkey hkey')
  have hperm : result.Perm other :=
    (List.perm_ext_iff_of_nodup h.nodup.of_map h'.nodup.of_map).mpr fun report =>
      (h.mem_iff report).trans (h'.mem_iff report).symm
  exact hperm.eq_of_pairwise (fun x y _ _ hxy hyx => absurd hyx (hirrefl x y hxy))
    h.ordered h'.ordered

/-- At least as frequent. -/
def Report.NotRarer (x y : Report) : Bool :=
  decide (y.pattern.timesOccurred ≤ x.pattern.timesOccurred)

/-- Reports in the order of their keys are put in their places by a stable sort. -/
theorem pairwise_precedes_mergeSort {reports : List Report}
    (hkeys : reports.Pairwise fun x y =>
      encodePatternKey x.pattern.key < encodePatternKey y.pattern.key) :
    (reports.mergeSort Report.NotRarer).Pairwise Report.Precedes := by
  have htrans : ∀ x y z : Report, x.NotRarer y = true → y.NotRarer z = true →
      x.NotRarer z = true := fun x y z hxy hyz =>
    decide_eq_true (Nat.le_trans (of_decide_eq_true hyz) (of_decide_eq_true hxy))
  have htotal : ∀ x y : Report, (x.NotRarer y || y.NotRarer x) = true := fun x y => by
    rw [Bool.or_eq_true]
    exact (Nat.le_total _ _).imp decide_eq_true decide_eq_true
  refine List.pairwise_iff_forall_sublist.mpr fun {x y} hxy => ?_
  have hle : y.pattern.timesOccurred.toNat ≤ x.pattern.timesOccurred.toNat :=
    of_decide_eq_true
      (List.pairwise_iff_forall_sublist.mp (List.pairwise_mergeSort htrans htotal _) hxy)
  rcases Nat.lt_or_eq_of_le hle with hlt | heq
  · exact .inl hlt
  -- equally frequent ones stand as they did before
  · refine .inr ⟨Word.ext heq.symm, ?_⟩
    have hstay := filter_mergeSort htrans htotal
      (p := fun z => z.pattern.timesOccurred = x.pattern.timesOccurred)
      (fun u v hu hv => decide_eq_true (Nat.le_of_eq (congrArg Word.toNat
        ((of_decide_eq_true hv).trans (of_decide_eq_true hu).symm)))) reports
    have hboth := hxy.filter fun z => z.pattern.timesOccurred = x.pattern.timesOccurred
    rw [hstay, List.filter_eq_self.mpr fun z hz => ?_] at hboth
    · exact List.pairwise_iff_forall_sublist.mp hkeys (hboth.trans List.filter_sublist)
    · rcases List.mem_cons.mp hz with rfl | hz
      · exact decide_eq_true rfl
      · rw [List.mem_singleton.mp hz]
        exact decide_eq_true (Word.ext heq)

section

variable {b : Books} {tokens : List Token} (htokens : b.all .tokens = .ok tokens)

include htokens

theorem reportOn_eq_some_iff {p : Pattern} {report : Report} :
    reportOn tokens p = some report ↔ ∃ t, b.find? .tokens p.token = .ok (some t)
      ∧ report = ⟨p, t.symbol, t.decimals, t.price⟩ := by
  have hlookup : ∀ t : Token, (tokens.find? fun t => t.address = p.token) = some t
      ↔ b.find? .tokens p.token = .ok (some t) := fun t =>
    @find?_mem_all_iff b .token tokens htokens tokens (fun _ => Iff.rfl) p.token t
  unfold reportOn
  rw [Option.map_eq_some_iff]
  simp only [hlookup, eq_comm (b := report)]

/-- **The sorted list of the reports is the ordered join.** -/
theorem joins_mergeSort {patterns : List Pattern} (hpatterns : b.all .patterns = .ok patterns) :
    b.Joins ((patterns.filterMap (reportOn tokens)).mergeSort Report.NotRarer) := by
  have hlisted : ∀ {p : Pattern}, p ∈ patterns ↔ b.find? .patterns p.key = .ok (some p) :=
    fun {p} => @mem_all_iff_find? b .pattern patterns hpatterns p
  have hperm := List.mergeSort_perm (patterns.filterMap (reportOn tokens)) Report.NotRarer
  -- before they are sorted, the reports stand in the order of their keys
  have hkeys : (patterns.filterMap (reportOn tokens)).Pairwise fun x y =>
      encodePatternKey x.pattern.key < encodePatternKey y.pattern.key := by
    refine List.pairwise_filterMap.mpr ((@pairwise_all b .pattern patterns hpatterns).imp ?_)
    intro p q hlt x hx y hy
    obtain ⟨_, _, rfl⟩ := (reportOn_eq_some_iff htokens).mp hx
    obtain ⟨_, _, rfl⟩ := (reportOn_eq_some_iff htokens).mp hy
    exact hlt
  refine ⟨fun report => ?_, ?_, ?_⟩
  · rw [hperm.mem_iff, List.mem_filterMap]
    simp only [reportOn_eq_some_iff htokens, hlisted]
    constructor
    · rintro ⟨p, hp, t, ht, rfl⟩
      exact ⟨hp, t, ht, rfl⟩
    · rintro ⟨hp, t, ht, hreport⟩
      exact ⟨report.pattern, hp, t, ht, hreport⟩
  · refine ((hperm.map _).nodup_iff).mpr (List.pairwise_map.mpr (hkeys.imp fun hlt heq => ?_))
    rw [heq] at hlt
    exact List.lt_irrefl _ hlt
  · exact pairwise_precedes_mergeSort hkeys

end

variable {b : Books}

/-- The reports come from the two listings, tokens first. -/
theorem reports_of_all {tokens : List Token} {patterns : List Pattern}
    (htokens : b.all .tokens = .ok tokens) (hpatterns : b.all .patterns = .ok patterns) :
    b.reports = .ok ((patterns.filterMap (reportOn tokens)).mergeSort Report.NotRarer) := by
  unfold reports
  rw [htokens, hpatterns]
  rfl

/-- There is no report without both listings. -/
theorem canList_of_reports {result : List Report} (h : b.reports = .ok result) :
    b.CanList .token ∧ b.CanList .pattern := by
  unfold reports at h
  cases htokens : b.all .tokens with
  | error e => rw [htokens] at h; exact nomatch h
  | ok tokens =>
    cases hpatterns : b.all .patterns with
    | error e => rw [htokens, hpatterns] at h; exact nomatch h
    | ok patterns =>
      exact ⟨@canList_of_all b .token tokens htokens,
        @canList_of_all b .pattern patterns hpatterns⟩

/-- The fault of a report is that of the first row that cannot be read. -/
theorem reports_eq_error_iff {e : StoreError} :
    b.reports = .error e ↔ Bucket.token.FirstFault (b.rows .token).toList e
      ∨ b.CanList .token ∧ Bucket.pattern.FirstFault (b.rows .pattern).toList e := by
  have hfault : ∀ bucket : Bucket, b.all bucket.layout = .error e
      ↔ bucket.FirstFault (b.rows bucket).toList e := fun bucket => by
    rw [all_layout, decodeRows_eq_error_iff]
  rw [← hfault .token, ← hfault .pattern]
  change b.reports = _ ↔ b.all .tokens = _ ∨ _ ∧ b.all .patterns = _
  cases htokens : b.all .tokens with
  | error f =>
    have hlist : ¬ b.CanList .token := fun h => by
      obtain ⟨tokens, hall⟩ := h.exists_all
      exact nomatch hall.symm.trans htokens
    have hreports : b.reports = .error f := by
      unfold reports
      rw [htokens]
      rfl
    rw [hreports]
    simp [hlist]
  | ok tokens =>
    have hlist : b.CanList .token := @canList_of_all b .token tokens htokens
    cases hpatterns : b.all .patterns with
    | error f =>
      have hreports : b.reports = .error f := by
        unfold reports
        rw [htokens, hpatterns]
        rfl
      rw [hreports]
      simp [hlist]
    | ok patterns =>
      rw [reports_of_all htokens hpatterns]
      simp

/-- **The report on patterns is the ordered join of the patterns with their tokens.**
If the rows of both buckets can be read, that is what the report is.  If one of them
cannot, the report fails, with the fault of the first such row.  And it only depends on
the rows that were written last, so not on the order in which they were. -/
theorem reports_ordered_join (b : Books) :
    (b.CanList .token → b.CanList .pattern →
        ∃ result, b.reports = .ok result ∧ b.Joins result
          ∧ ∀ other, b.Joins other → other = result)
      ∧ (¬ (b.CanList .token ∧ b.CanList .pattern) → ∃ e, b.reports = .error e)
      ∧ (∀ e, b.reports = .error e ↔ Bucket.token.FirstFault (b.rows .token).toList e
        ∨ b.CanList .token ∧ Bucket.pattern.FirstFault (b.rows .pattern).toList e)
      ∧ (∀ ws ws' : List Write, (∀ place, Write.last? place ws = Write.last? place ws') →
        (b.writeAll ws).reports = (b.writeAll ws').reports)
      ∧ ∀ ws ws' : List Write, ws.Perm ws' → (ws.map Write.place).Nodup →
        (b.writeAll ws).reports = (b.writeAll ws').reports := by
  refine ⟨fun htoken hpattern => ?_, fun hnot => ?_, fun e => reports_eq_error_iff,
    fun ws ws' h => by rw [writeAll_congr h], fun ws ws' hperm h => by rw [writeAll_perm hperm h]⟩
  · obtain ⟨tokens, htokens⟩ := htoken.exists_all
    obtain ⟨patterns, hpatterns⟩ := hpattern.exists_all
    have hjoins := joins_mergeSort htokens hpatterns
    exact ⟨_, reports_of_all htokens hpatterns, hjoins, fun other h => h.unique hjoins⟩
  · cases hreports : b.reports with
    | error e => exact ⟨e, rfl⟩
    | ok result => exact absurd (canList_of_reports hreports) hnot

/-- A token that three patterns name, and one that none does. -/
def reportedTokens : List Token :=
  [⟨.ofPrefix [1], "GOLD", 18, .clamp 5, 0, 0⟩, ⟨.ofPrefix [2], "DUST", 6, 0, 0, 0⟩]

/-- Patterns of the first token, two of them equally frequent, and one of a token that
is not there. -/
def reportedPatterns : List Pattern :=
  [⟨.ofPrefix [1], "X", .clamp 9, .clamp 2⟩, ⟨.ofPrefix [1], "Y", .clamp 9, .clamp 2⟩,
    ⟨.ofPrefix [1], "Z", .clamp 9, .clamp 4⟩, ⟨.ofPrefix [3], "X", .clamp 9, .clamp 7⟩]

/-- Their rows. -/
def reportedRows : List Write :=
  reportedTokens.map (fun t => (.token, t.address.toList, writeToken t))
    ++ reportedPatterns.map fun p => (.pattern, encodePatternKey p.key, writePattern p)

/-- There are three reports, also if the rows are written from the last to the first.
With one row that is no pattern there are none. -/
theorem reports_ordered_join_ties :
    let b := Books.empty.writeAll reportedRows
    b.CanList .token ∧ b.CanList .pattern
      ∧ (∃ result, b.reports = .ok result ∧ b.Joins result
        ∧ result.map (fun r => (r.symbol, r.pattern.exchange))
          = [("GOLD", "Z"), ("GOLD", "X"), ("GOLD", "Y")])
      ∧ (Books.empty.writeAll reportedRows.reverse).reports = b.reports
      ∧ ∃ e, (b.putRaw .pattern [1] []).reports = .error e := by
  intro b
  have htokens : b.all .tokens = .ok reportedTokens := by decide +kernel
  have hpatterns : b.all .patterns = .ok reportedPatterns := by decide +kernel
  have htoken : b.CanList .token := @canList_of_all b .token _ htokens
  have hpattern : b.CanList .pattern := @canList_of_all b .pattern _ hpatterns
  obtain ⟨result, hresult, hjoins, -⟩ := (reports_ordered_join b).1 htoken hpattern
  refine ⟨htoken, hpattern, ⟨result, hresult, hjoins, ?_⟩, ?_, ?_⟩
  · rw [reports_of_all htokens hpatterns] at hresult
    have hmade : reportedPatterns.filterMap (reportOn reportedTokens)
        = (reportedPatterns.take 3).map fun p => ⟨p, "GOLD", 18, .clamp 5⟩ := by decide +kernel
    rw [← Except.ok.inj hresult, hmade]
    simp +decide [reportedPatterns, List.mergeSort, Report.NotRarer]
  · exact (reports_ordered_join .empty).2.2.2.2 _ _ (List.reverse_perm _) (by decide +kernel)
  · refine (reports_ordered_join (b.putRaw .pattern [1] [])).2.1 fun h => ?_
    have hrow : (([1], []) : Row) ∈ ((b.putRaw .pattern [1] []).rows .pattern).toList := by
      decide +kernel
    obtain ⟨p, hp⟩ := h.2 _ hrow
    exact nomatch hp

end Books

end FundTrail.Store
