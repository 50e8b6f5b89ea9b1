/-
  FundTrail.Proofs.Config.Disclosure
  ──────────────────────────────────
  **WHAT A MASKED ADDRESS STILL TELLS.**

  The scheme of an address ends at the first `://`, and what is shown of the rest ends
  with its first slash.  So a path is hidden, with whatever follows it: two addresses of
  one host look the same exactly if they are the same up to the slash behind the host.
  A query or a fragment with no path in front of it is not hidden.

  Main facts: `splitScheme?_eq_some_iff` and `mask_tells_up_to_slash`.
-/
import FundTrail.Config.NodeUrl
import Mathlib.Data.List.Infix

namespace FundTrail.NodeUrl

/-! ## §1. Where the scheme ends. -/

/-- The characters `://`. -/
def mark : List Char := [':', '/', '/']

theorem toList_mark : "://".toList = mark := rfl

/-- There is no `://` in the text, so it may be a scheme. -/
def NoMark (cs : List Char) : Prop := ¬ mark <:+: cs

instance (cs : List Char) : Decidable (NoMark cs) := inferInstanceAs (Decidable (¬ _))

theorem splitScheme?_mark (rest : List Char) :
    splitScheme? (mark ++ rest) = some ([], rest) := rfl

/-- A character that no `://` begins with belongs to the scheme. -/
theorem splitScheme?_cons {c : Char} {cs : List Char} (h : ¬ mark <+: c :: cs) :
    splitScheme? (c :: cs) = (splitScheme? cs).map fun (scheme, rest) => (c :: scheme, rest) := by
  rw [splitScheme?]
  rintro rest rfl rfl
  exact h ⟨rest, rfl⟩

theorem noMark_cons_iff {c : Char} {cs : List Char} :
    NoMark (c :: cs) ↔ ¬ mark <+: c :: cs ∧ NoMark cs := by
  unfold NoMark
  rw [List.infix_cons_iff, not_or]

/-- What begins in a scheme and runs over its end is not `://`: of the three characters
only the first is a colon. -/
theorem not_mark_prefix_append {c : Char} {scheme : List Char}
    (h : ¬ mark <+: c :: scheme) (rest : List Char) :
    ¬ mark <+: c :: (scheme ++ mark ++ rest) := by
  rintro ⟨tail, hmark⟩
  obtain ⟨rfl, hslashes⟩ := List.cons.inj hmark
  cases scheme with
  | nil => exact absurd (List.cons.inj hslashes).1 (by decide)
  | cons d scheme =>
    obtain ⟨rfl, hslash⟩ := List.cons.inj hslashes
    cases scheme with
    | nil => exact absurd (List.cons.inj hslash).1 (by decide)
    | cons e scheme =>
      obtain ⟨rfl, -⟩ := List.cons.inj hslash
      exact h ⟨scheme, rfl⟩

/-- **The scheme is what comes before the first `://`.** -/
theorem splitScheme?_eq_some_iff {cs scheme rest : List Char} :
    splitScheme? cs = some (scheme, rest)
      ↔ cs = scheme ++ mark ++ rest ∧ NoMark scheme := by
  constructor
  · intro h
    induction cs generalizing scheme with
    | nil => exact nomatch h
    | cons c cs ih =>
      by_cases hmark : mark <+: c :: cs
      · obtain ⟨tail, htail⟩ := hmark
        rw [← htail, splitScheme?_mark] at h
        obtain ⟨rfl, rfl⟩ := Prod.mk.inj (Option.some.inj h)
        exact ⟨htail.symm, by decide⟩
      · rw [splitScheme?_cons hmark] at h
        obtain ⟨⟨scheme', rest'⟩, hsplit, heq⟩ := Option.map_eq_some_iff.mp h
        obtain ⟨rfl, rfl⟩ := Prod.mk.inj heq
        obtain ⟨rfl, hscheme⟩ := ih hsplit
        refine ⟨rfl, noMark_cons_iff.mpr ⟨fun hprefix => hmark ?_, hscheme⟩⟩
        rw [List.append_assoc]
        exact hprefix.trans (List.prefix_append (c :: scheme') _)
  · rintro ⟨rfl, h⟩
    induction scheme with
    | nil => rfl
    | cons c scheme ih =>
      obtain ⟨hmark, hscheme⟩ := noMark_cons_iff.mp h
      rw [List.cons_append, List.cons_append,
        splitScheme?_cons (not_mark_prefix_append hmark rest), ih hscheme]
      rfl

theorem splitScheme?_eq_none_iff {cs : List Char} : splitScheme? cs = none ↔ NoMark cs := by
  induction cs with
  | nil => exact ⟨fun _ => by decide, fun _ => rfl⟩
  | cons c cs ih =>
    rw [noMark_cons_iff, ← ih]
    by_cases hmark : mark <+: c :: cs
    · obtain ⟨tail, htail⟩ := hmark
      rw [← htail]
      exact ⟨nofun, fun h => absurd (List.prefix_append _ _) h.1⟩
    · rw [splitScheme?_cons hmark, Option.map_eq_none_iff]
      exact ⟨fun h => ⟨hmark, h⟩, fun h => h.2⟩

/-! ## §2. What is shown. -/

/-- A text up to its first slash. -/
def upToSlash (s : String) : String := String.ofList (s.toList.takeWhile (· ≠ '/'))

/-- The text of a host holds no slash, so what stands behind it decides where it is cut. -/
theorem upToSlash_append {host : String} (h : '/' ∉ host.toList) (s : String) :
    upToSlash (host ++ s) = host ++ upToSlash s := by
  have hhost : ∀ c ∈ host.toList, decide (c ≠ '/') = true := fun c hc =>
    decide_eq_true (ne_of_mem_of_not_mem hc h)
  unfold upToSlash
  rw [String.toList_append, List.takeWhile_append_of_pos hhost, String.ofList_append,
    String.ofList_toList]

/-- Nothing is shown of a text that is empty or a path, and something of any other. -/
theorem upToSlash_eq_empty_iff {s : String} :
    upToSlash s = "" ↔ s = "" ∨ ∃ path, s = "/" ++ path := by
  have htaken : upToSlash s = "" ↔ s.toList.takeWhile (· ≠ '/') = [] := by
    unfold upToSlash
    rw [← String.toList_inj, String.toList_ofList]
    rfl
  have hsplit : (s = "" ∨ ∃ path, s = "/" ++ path)
      ↔ s.toList = [] ∨ ∃ path, s.toList = '/' :: path := by
    refine or_congr (String.toList_eq_nil_iff.symm) ⟨?_, ?_⟩
    · rintro ⟨path, rfl⟩
      exact ⟨path.toList, String.toList_append⟩
    · rintro ⟨path, hpath⟩
      refine ⟨String.ofList path, String.toList_inj.mp ?_⟩
      rw [hpath, String.toList_append, @String.toList_ofList path]
      rfl
  rw [htaken, hsplit]
  cases s.toList with
  | nil => exact ⟨fun _ => .inl rfl, fun _ => rfl⟩
  | cons c cs =>
    by_cases hc : c = '/'
    · subst hc
      exact ⟨fun _ => .inr ⟨cs, rfl⟩, fun _ => rfl⟩
    · have hkept : decide (c ≠ '/') = true := decide_eq_true hc
      rw [List.takeWhile_cons, if_pos hkept]
      refine ⟨nofun, ?_⟩
      rintro (h | ⟨path, h⟩)
      · exact nomatch h
      · exact absurd (List.cons.inj h).1 hc

theorem mask_of_scheme {scheme : String} (h : NoMark scheme.toList) (rest : String) :
    mask (scheme ++ "://" ++ rest) = scheme ++ "://" ++ upToSlash rest ++ "/•••" := by
  have hsplit : splitScheme? (scheme ++ "://" ++ rest).toList
      = some (scheme.toList, rest.toList) := by
    rw [String.toList_append, String.toList_append, toList_mark]
    exact splitScheme?_eq_some_iff.mpr ⟨rfl, h⟩
  unfold mask upToSlash
  rw [hsplit]
  show String.ofList scheme.toList ++ _ ++ _ ++ _ = _
  rw [String.ofList_toList]

theorem mask_of_noMark {text : String} (h : NoMark text.toList) : mask text = "•••" := by
  unfold mask
  rw [splitScheme?_eq_none_iff.mpr h]

/-- **What follows the host is shown up to its first slash, and nothing else of it.**  Two
addresses of one host look the same exactly if they are the same up to there; and as if
nothing followed the host looks what is empty or a path, and nothing else, so a query or a
fragment right behind the host is shown.  A text that names no scheme is not shown at all. -/
theorem mask_tells_up_to_slash {scheme host : String} (hscheme : NoMark scheme.toList)
    (hhost : '/' ∉ host.toList) :
    let masked := fun suffix => mask (scheme ++ "://" ++ (host ++ suffix))
    (∀ x, masked x = scheme ++ "://" ++ (host ++ upToSlash x) ++ "/•••")
      ∧ (∀ x y, masked x = masked y ↔ upToSlash x = upToSlash y)
      ∧ (∀ x, masked x = masked "" ↔ x = "" ∨ ∃ path, x = "/" ++ path)
      ∧ ∀ text : String, NoMark text.toList → mask text = "•••" := by
  intro masked
  have hshown : ∀ x, masked x = scheme ++ "://" ++ (host ++ upToSlash x) ++ "/•••" := by
    intro x
    rw [← upToSlash_append hhost]
    exact mask_of_scheme hscheme (host ++ x)
  have hsame : ∀ x y, masked x = masked y ↔ upToSlash x = upToSlash y := by
    intro x y
    rw [hshown, hshown, String.append_left_inj, String.append_right_inj, String.append_right_inj]
  refine ⟨hshown, hsame, fun x => ?_, fun text => mask_of_noMark⟩
  rw [hsame, show upToSlash "" = "" from rfl, upToSlash_eq_empty_iff]

/-- A key in the path is hidden, with the query behind it.  A key in a query without a path
is shown, and so is one in a fragment. -/
theorem mask_tells_up_to_slash_keys :
    let masked := fun suffix => mask ("wss" ++ "://" ++ ("node" ++ suffix))
    masked "/v3/secret?key=secret" = masked ""
      ∧ masked "?key=secret" = "wss://node?key=secret/•••"
      ∧ masked "#secret" ≠ masked ""
      ∧ mask "secret" = "•••" := by
  intro masked
  have hscheme : NoMark "wss".toList := by decide
  have hhost : '/' ∉ "node".toList := by decide
  obtain ⟨hshown, -, hhidden, hnone⟩ := mask_tells_up_to_slash hscheme hhost
  refine ⟨(hhidden _).mpr (.inr ⟨"v3/secret?key=secret", rfl⟩), hshown _, fun h => ?_,
    hnone _ (by decide)⟩
  have h := (hshown _).symm.trans (h.trans (hshown _))
  exact absurd h (by decide)

end FundTrail.NodeUrl
