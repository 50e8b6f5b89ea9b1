/-
  FundTrail.Proofs.Seed.Seeding
  ─────────────────────────────
  **SEEDED EXCHANGES LIE OVER THOSE THAT ARE THERE.**

  A document is good or bad as a whole, and if it is bad, its first bad entry says why.
  An entry is bad in itself, or it repeats an address of an entry before it; what it is
  in itself counts first.

  A good document names wallets, each of them once.  After seeding, these wallets have
  the names in the document and all others what they had, in the rows and in the set of
  exchanges that is loaded from them.  So neither the order of the entries matters nor
  how often they are seeded.  Only a handle that may write can be seeded through.

  Main facts: `check_eq_ok_iff`, `check_eq_error_iff`, `Overlaid.load` and
  `seeding_overlays`.
-/
import FundTrail.Proofs.Classification
import FundTrail.Proofs.Store.RowByRow
import FundTrail.Proofs.Store.Writes
import FundTrail.Proofs.Text.Trimming
import FundTrail.Seed.Exchanges
import Mathlib.Data.Finset.Card

namespace FundTrail

open Store

namespace Seed

/-! ## §1. Good and bad entries. -/

/-- An entry that is bad in itself: its name is blank, or its address is zero. -/
def Entry.Invalid (e : Entry) : Prop := Text.IsBlankText e.name ∨ e.address = .zero

/-- The exchange that an entry names. -/
def Entry.exchange (e : Entry) : Exchange := ⟨Text.trim e.name, e.address⟩

/-- What is wrong with an entry behind entries with these addresses. -/
inductive Entry.Fault (seen : List Address) (e : Entry) : SeedError → Prop
  | invalid (h : e.Invalid) : e.Fault seen (.invalidEntry (Text.trim e.name))
  | repeated (h : ¬ e.Invalid) (hseen : e.address ∈ seen) :
      e.Fault seen (.duplicateAddress e.address)

/-- Entries of which none is bad, behind entries with these addresses. -/
structure Sound (seen : List Address) (es : List Entry) : Prop where
  valid : ∀ e ∈ es, ¬ e.Invalid
  distinct : (es.map Entry.address).Nodup
  fresh : ∀ e ∈ es, e.address ∉ seen

/-- The first entry that is bad, and why it is. -/
def FirstBad (seen : List Address) (es : List Entry) (err : SeedError) : Prop :=
  ∃ before e after, es = before ++ e :: after ∧ Sound seen before
    ∧ e.Fault (before.map Entry.address ++ seen) err

variable {seen : List Address} {e : Entry} {es : List Entry} {err : SeedError}

theorem sound_nil (seen : List Address) : Sound seen [] := ⟨nofun, List.nodup_nil, nofun⟩

theorem sound_cons_iff : Sound seen (e :: es)
    ↔ (¬ e.Invalid ∧ e.address ∉ seen) ∧ Sound (e.address :: seen) es := by
  constructor
  · rintro ⟨hvalid, hdistinct, hfresh⟩
    rw [List.forall_mem_cons] at hvalid hfresh
    obtain ⟨hnew, hdistinct⟩ := List.nodup_cons.mp hdistinct
    refine ⟨⟨hvalid.1, hfresh.1⟩, hvalid.2, hdistinct, fun e' he' => ?_⟩
    rw [List.mem_cons, not_or]
    exact ⟨fun heq => hnew (List.mem_map.mpr ⟨e', he', heq⟩), hfresh.2 e' he'⟩
  · rintro ⟨⟨hvalid, hnew⟩, h⟩
    refine ⟨List.forall_mem_cons.mpr ⟨hvalid, h.valid⟩, List.nodup_cons.mpr ⟨?_, h.distinct⟩,
      List.forall_mem_cons.mpr ⟨hnew, fun e' he' hseen => ?_⟩⟩
    · intro hmem
      obtain ⟨e', he', heq⟩ := List.mem_map.mp hmem
      exact h.fresh e' he' (heq ▸ List.mem_cons_self)
    · exact h.fresh e' he' (List.mem_cons_of_mem _ hseen)

/-- An entry is good, or something is wrong with it. -/
theorem good_or_fault (seen : List Address) (e : Entry) :
    (¬ e.Invalid ∧ e.address ∉ seen) ∨ ∃ err, e.Fault seen err := by
  by_cases hinvalid : e.Invalid
  · exact .inr ⟨_, .invalid hinvalid⟩
  by_cases hseen : e.address ∈ seen
  · exact .inr ⟨_, .repeated hinvalid hseen⟩
  · exact .inl ⟨hinvalid, hseen⟩

theorem Entry.Fault.not_good (h : e.Fault seen err) : ¬ (¬ e.Invalid ∧ e.address ∉ seen) := by
  rintro ⟨hvalid, hnew⟩
  cases h with
  | invalid h => exact hvalid h
  | repeated _ hseen => exact hnew hseen

/-- What an entry is in itself counts first, so there is one fault only. -/
theorem Entry.Fault.unique {err' : SeedError} (h : e.Fault seen err) (h' : e.Fault seen err') :
    err = err' := by
  cases h with
  | invalid h =>
    cases h' with
    | invalid _ => rfl
    | repeated hnot _ => exact absurd h hnot
  | repeated hnot _ =>
    cases h' with
    | invalid h => exact absurd h hnot
    | repeated _ _ => rfl

/-- Only which addresses have been seen matters for a fault, not their order. -/
theorem Entry.Fault.congr {seen' : List Address} (hseen : seen.Perm seen')
    (h : e.Fault seen err) : e.Fault seen' err := by
  cases h with
  | invalid h => exact .invalid h
  | repeated hnot h => exact .repeated hnot (hseen.mem_iff.mp h)

theorem firstBad_cons_iff : FirstBad seen (e :: es) err
    ↔ e.Fault seen err
      ∨ (¬ e.Invalid ∧ e.address ∉ seen) ∧ FirstBad (e.address :: seen) es err := by
  -- addresses are seen from the front and listed from the back, which makes no difference
  constructor
  · rintro ⟨before, bad, after, hsplit, hbefore, hfault⟩
    cases before with
    | nil =>
      obtain ⟨rfl, -⟩ := List.cons.inj hsplit
      exact .inl hfault
    | cons first before =>
      obtain ⟨rfl, rfl⟩ := List.cons.inj hsplit
      obtain ⟨hgood, hbefore⟩ := sound_cons_iff.mp hbefore
      exact .inr ⟨hgood, before, bad, after, rfl, hbefore,
        hfault.congr List.perm_middle.symm⟩
  · rintro (hfault | ⟨hgood, before, bad, after, rfl, hbefore, hfault⟩)
    · exact ⟨[], e, es, rfl, sound_nil seen, hfault⟩
    · exact ⟨e :: before, bad, after, rfl, sound_cons_iff.mpr ⟨hgood, hbefore⟩,
        hfault.congr List.perm_middle⟩

theorem Entry.invalid_iff : e.Invalid ↔ Text.trim e.name = "" ∨ e.address = .zero := by
  unfold Invalid
  rw [Text.trim_eq_empty_iff]

theorem check_cons_of_fault (h : e.Fault seen err) : check seen (e :: es) = .error err := by
  unfold check
  cases h with
  | invalid h => exact if_pos (Entry.invalid_iff.mp h)
  | repeated hnot hseen => rw [if_neg (mt Entry.invalid_iff.mpr hnot), if_pos hseen]

theorem check_cons_of_good (h : ¬ e.Invalid ∧ e.address ∉ seen) :
    check seen (e :: es) = (check (e.address :: seen) es).map (e.exchange :: ·) := by
  rw [check, if_neg (mt Entry.invalid_iff.mpr h.1), if_neg h.2]
  rfl

/-- **Entries pass if none of them is bad,** and each gives its exchange. -/
theorem check_eq_ok_iff {result : List Exchange} :
    check seen es = .ok result ↔ Sound seen es ∧ result = es.map Entry.exchange := by
  induction es generalizing seen result with
  | nil => exact ⟨fun h => ⟨sound_nil seen, (Except.ok.inj h).symm⟩, fun h => h.2 ▸ rfl⟩
  | cons e es ih =>
    rw [sound_cons_iff, List.map_cons]
    rcases good_or_fault seen e with hgood | ⟨err, hfault⟩
    · rw [check_cons_of_good hgood, and_iff_right hgood]
      cases hcheck : check (e.address :: seen) es with
      | error err =>
        refine ⟨nofun, fun ⟨hsound, _⟩ => ?_⟩
        exact nomatch hcheck.symm.trans (ih.mpr ⟨hsound, rfl⟩)
      | ok rest =>
        obtain ⟨hsound, rfl⟩ := ih.mp hcheck
        exact ⟨fun h => ⟨hsound, (Except.ok.inj h).symm⟩, fun h => h.2 ▸ rfl⟩
    · rw [check_cons_of_fault hfault]
      exact ⟨nofun, fun h => absurd h.1.1 hfault.not_good⟩

/-- **Otherwise the first bad entry says why they do not.** -/
theorem check_eq_error_iff : check seen es = .error err ↔ FirstBad seen es err := by
  induction es generalizing seen with
  | nil =>
    refine ⟨nofun, ?_⟩
    rintro ⟨before, bad, after, hsplit, -⟩
    exact absurd hsplit (by simp)
  | cons e es ih =>
    rw [firstBad_cons_iff]
    rcases good_or_fault seen e with hgood | ⟨err', hfault⟩
    · rw [check_cons_of_good hgood, and_iff_right hgood,
        or_iff_right fun h : e.Fault seen err => h.not_good hgood, ← ih]
      cases check (e.address :: seen) es with
      | error err' => exact Iff.rfl
      | ok rest => exact ⟨nofun, nofun⟩
    · rw [check_cons_of_fault hfault, or_iff_left fun h => hfault.not_good h.1]
      exact ⟨fun h => Except.error.inj h ▸ hfault, fun h => congrArg _ (hfault.unique h)⟩

/-! ## §2. What a good document says. -/

/-- Exchanges with proper names, at wallets of their own. -/
structure Vetted (es : List Exchange) : Prop where
  named : ∀ e ∈ es, e.name ≠ ""
  trimmed : ∀ e ∈ es, Text.Trimmed e.name.toList
  nonzero : ∀ e ∈ es, e.address ≠ .zero
  distinct : (es.map Exchange.address).Nodup

theorem Sound.vetted (h : Sound seen es) : Vetted (es.map Entry.exchange) := by
  refine ⟨?_, ?_, ?_, ?_⟩
  · rintro _ hmem hname
    obtain ⟨e, he, rfl⟩ := List.mem_map.mp hmem
    exact h.valid e he (Entry.invalid_iff.mpr (.inl hname))
  · rintro _ hmem
    obtain ⟨e, -, rfl⟩ := List.mem_map.mp hmem
    show Text.Trimmed (Text.trim e.name).toList
    unfold Text.trim
    rw [String.toList_ofList]
    exact Text.trimmed_trimChars _
  · rintro _ hmem hzero
    obtain ⟨e, he, rfl⟩ := List.mem_map.mp hmem
    exact h.valid e he (.inr hzero)
  · rw [List.map_map]
    exact h.distinct

theorem Sound.perm {es' : List Entry} (h : Sound seen es) (hperm : es.Perm es') :
    Sound seen es' where
  valid e he := h.valid e (hperm.mem_iff.mpr he)
  distinct := (hperm.map _).nodup_iff.mp h.distinct
  fresh e he := h.fresh e (hperm.mem_iff.mpr he)

/-! ## §3. The books afterwards. -/

/-- Books with exchanges laid over those of other books. -/
structure Overlaid (before after : Books) (es : List Exchange) : Prop where
  /-- A wallet that is named has the name as its row. -/
  written : ∀ e ∈ es, (after.rows .exchange).get? e.address.toList = some (Utf8.write e.name)
  /-- All other keys have what they had. -/
  kept : ∀ key, (∀ e ∈ es, e.address.toList ≠ key) →
    (after.rows .exchange).get? key = (before.rows .exchange).get? key
  /-- And so do all other buckets. -/
  others : ∀ bucket, bucket ≠ .exchange → after.rows bucket = before.rows bucket

/-- The row of an exchange. -/
def written (e : Exchange) : Write := (.exchange, e.address.toList, Utf8.write e.name)

/-- The books with exchanges written over what is there. -/
def overlay (b : Books) (es : List Exchange) : Books := b.writeAll (es.map written)

/-- To sow exchanges is to write their rows. -/
theorem on_sowing (es : List Exchange) (b : Books) :
    (sowing es).on b = ((es.map written).map .set, .ok ()) := by
  induction es generalizing b with
  | nil => rfl
  | cons e es ih =>
    show (Work.put .exchanges e >>= fun _ => sowing es).on b = _
    rw [Work.on_bind_of_ok rfl, ih]
    rfl

theorem nodup_place_written {es : List Exchange} (h : (es.map Exchange.address).Nodup) :
    ((es.map written).map Write.place).Nodup := by
  have hplaces : (es.map written).map Write.place
      = (es.map Exchange.address).map fun a => (Bucket.exchange, a.toList) := by
    rw [List.map_map, List.map_map]
    rfl
  rw [hplaces]
  exact h.map fun _ _ heq => FixedBytes.ext (Prod.mk.inj heq).2

theorem overlaid_overlay (b : Books) {es : List Exchange} (h : (es.map Exchange.address).Nodup) :
    Overlaid b (overlay b es) es := by
  have hget : ∀ bucket key, ((overlay b es).rows bucket).get? key
      = (Write.last? (bucket, key) (es.map written) <|> (b.rows bucket).get? key) := by
    intro bucket key
    exact Books.get?_rows_writeAll b (es.map written) bucket key
  refine ⟨fun e he => ?_, fun key hkey => ?_, fun bucket hbucket => Rows.ext_get? fun key => ?_⟩
  · have hlast : Write.last? (.exchange, e.address.toList) (es.map written)
        = some (Utf8.write e.name) :=
      (Write.last?_eq_some_iff (nodup_place_written h)).mpr
        ⟨written e, List.mem_map.mpr ⟨e, he, rfl⟩, rfl, rfl⟩
    rw [hget, hlast]
    rfl
  · have hlast : Write.last? (.exchange, key) (es.map written) = none := by
      refine Write.last?_eq_none_iff.mpr fun w hw hplace => ?_
      obtain ⟨e, he, rfl⟩ := List.mem_map.mp hw
      exact hkey e he (Prod.mk.inj hplace).2
    rw [hget, hlast]
    rfl
  · have hlast : Write.last? (bucket, key) (es.map written) = none := by
      refine Write.last?_eq_none_iff.mpr fun w hw hplace => ?_
      obtain ⟨e, -, rfl⟩ := List.mem_map.mp hw
      exact hbucket (Prod.mk.inj hplace).1.symm
    rw [hget, hlast]
    rfl

theorem overlay_perm (b : Books) {es es' : List Exchange} (hperm : es.Perm es')
    (h : (es.map Exchange.address).Nodup) : overlay b es = overlay b es' := by
  exact Books.writeAll_perm (hperm.map written) (nodup_place_written h) b

theorem overlay_overlay (b : Books) (es : List Exchange) :
    overlay (overlay b es) es = overlay b es := by
  exact Books.writeAll_writeAll b (es.map written)

/-- The set of exchanges that is loaded names the wallets that are found. -/
theorem nameOf?_load {b : Books} {x : ExchangeSet} (h : ExchangeSet.load b = .ok x)
    {wallet : Address} {name : String} : x.nameOf? wallet = some name
      ↔ ∃ e, b.find? .exchanges wallet = .ok (some e) ∧ e.name = name := by
  unfold ExchangeSet.load at h
  cases hall : b.all .exchanges with
  | error e => rw [hall] at h; exact nomatch h
  | ok rs =>
    rw [hall] at h
    obtain rfl : ExchangeSet.ofList rs = x := Except.ok.inj h
    have hlookup : ∀ e : Exchange, (rs.reverse.find? fun e => e.address = wallet) = some e
        ↔ b.find? .exchanges wallet = .ok (some e) := fun e =>
      @Books.find?_mem_all_iff b .exchange rs hall rs.reverse (fun _ => List.mem_reverse) wallet e
    rw [ExchangeSet.nameOf?_ofList, Option.map_eq_some_iff]
    simp only [hlookup]

theorem canList_of_load {b : Books} {x : ExchangeSet} (h : ExchangeSet.load b = .ok x) :
    b.CanList .exchange := by
  unfold ExchangeSet.load at h
  cases hall : b.all .exchanges with
  | error e => rw [hall] at h; exact nomatch h
  | ok rs => exact @Books.canList_of_all b .exchange rs hall

theorem exists_load_of_canList {b : Books} (h : b.CanList .exchange) :
    ∃ x, ExchangeSet.load b = .ok x := by
  obtain ⟨rs, hall⟩ := h.exists_all
  change b.all .exchanges = _ at hall
  exact ⟨.ofList rs, by unfold ExchangeSet.load; rw [hall]; rfl⟩

/-- **The set of exchanges that is loaded afterwards** gives the wallets in the document
their names there, and all other wallets the names they had. -/
theorem Overlaid.load {before after : Books} {es : List Exchange} (h : Overlaid before after es)
    {x : ExchangeSet} (hx : ExchangeSet.load before = .ok x) :
    ∃ x', ExchangeSet.load after = .ok x'
      ∧ (∀ e ∈ es, x'.nameOf? e.address = some e.name)
      ∧ ∀ wallet, (∀ e ∈ es, e.address ≠ wallet) → x'.nameOf? wallet = x.nameOf? wallet := by
  -- a row afterwards is one of the document, or one from before
  have hlist : after.CanList .exchange := by
    intro ⟨key, value⟩ hrow
    have hvalue : (after.rows .exchange).get? key = some value := Rows.get?_eq_some_iff.mpr hrow
    by_cases hkey : ∃ e ∈ es, e.address.toList = key
    · obtain ⟨e, he, rfl⟩ := hkey
      obtain rfl : Utf8.write e.name = value := Option.some.inj ((h.written e he).symm.trans hvalue)
      exact ⟨e, Books.readRow_eq_ok_iff.mpr ⟨rfl, Table.keeps_exchange e⟩⟩
    · have hold : ∀ e ∈ es, e.address.toList ≠ key := fun e he heq => hkey ⟨e, he, heq⟩
      rw [h.kept key hold] at hvalue
      exact canList_of_load hx _ (Rows.get?_eq_some_iff.mp hvalue)
  obtain ⟨x', hx'⟩ := exists_load_of_canList hlist
  refine ⟨x', hx', fun e he => (nameOf?_load hx').mpr ⟨e, ?_, rfl⟩, fun wallet hwallet => ?_⟩
  · exact @Books.find?_of_raw? after .exchange _ _ e (h.written e he) (Table.keeps_exchange e)
  · have hraw : after.raw? .exchanges wallet = before.raw? .exchanges wallet :=
      h.kept wallet.toList fun e he heq => hwallet e he (FixedBytes.ext heq)
    refine Option.ext fun name => ?_
    rw [nameOf?_load hx', nameOf?_load hx, Books.find?_congr hraw]

/-! ## §4. Seeding. -/

/-- A handle that exchanges have been seeded through. -/
def seeded (h : Handle) (es : List Exchange) : Handle :=
  { h with books := overlay h.books es, written := h.written || !es.isEmpty }

/-- The work of seeding exchanges: their rows are written, and they are counted. -/
theorem on_sow (es : List Exchange) (b : Books) :
    (do sowing es; pure es.length : Work StoreError Nat).on b
      = ((es.map written).map .set, .ok es.length) := by
  rw [Work.on_bind_of_ok (on_sowing es b)]
  exact congrArg (Prod.mk · _) (List.append_nil _)

theorem sow_of_readWrite {h : Handle} (hw : h.access = .readWrite) (es : List Exchange) :
    sow h es = (.ok es.length, seeded h es) := by
  unfold sow seeded overlay
  rw [Handle.update_of_ok (fun hr => absurd (hw.symm.trans hr) (by decide))
      (congrArg Prod.snd (on_sow es h.books)), on_sow,
    Books.edited_map_set, List.isEmpty_map, List.isEmpty_map]

/-- **Where nothing may be written, only nothing can be seeded.** -/
theorem sow_of_readOnly {h : Handle} (hr : h.access = .readOnly) (es : List Exchange) :
    sow h es = (if es = [] then .ok 0 else .error .readOnly, h) := by
  cases es with
  | nil =>
    unfold sow
    rw [Handle.update_of_ok (fun _ => rfl) rfl]
    show (_, { h with books := h.books, written := h.written || false }) = _
    rw [Bool.or_false]
    rfl
  | cons e es =>
    have hedits := congrArg Prod.fst (on_sow (e :: es) h.books)
    exact Handle.update_of_refused hr (by rw [hedits]; exact List.cons_ne_nil _ _)

/-- What comes of seeding exchanges through a handle. -/
structure Seeded (h : Handle) (es : List Exchange) (h' : Handle) : Prop where
  /-- They are counted. -/
  count : sow h es = (.ok es.length, h')
  /-- Each of them has a key of its own. -/
  keys : (es.map fun e => e.address.toList).toFinset.card = es.length
  overlaid : Overlaid h.books h'.books es
  /-- Once more changes nothing. -/
  again : sow h' es = (.ok es.length, h')
  load : ∀ x, ExchangeSet.load h.books = .ok x → ∃ x', ExchangeSet.load h'.books = .ok x'
    ∧ (∀ e ∈ es, x'.nameOf? e.address = some e.name)
    ∧ ∀ wallet, (∀ e ∈ es, e.address ≠ wallet) → x'.nameOf? wallet = x.nameOf? wallet

theorem Vetted.seeded {es : List Exchange} (hes : Vetted es) {h : Handle}
    (hw : h.access = .readWrite) : Seeded h es (seeded h es) where
  count := sow_of_readWrite hw es
  keys := by
    have hnodup : (es.map fun e => e.address.toList).Nodup := by
      have hmap : (es.map fun e => e.address.toList)
          = (es.map Exchange.address).map FixedBytes.toList := by rw [List.map_map]; rfl
      rw [hmap]
      exact hes.distinct.map fun _ _ heq => FixedBytes.ext heq
    rw [List.toFinset_card_of_nodup hnodup, List.length_map]
  overlaid := overlaid_overlay h.books hes.distinct
  again := by
    have hsame : Seed.seeded (Seed.seeded h es) es = Seed.seeded h es := by
      unfold Seed.seeded
      rw [overlay_overlay, Bool.or_assoc, Bool.or_self]
    rw [sow_of_readWrite (h := Seed.seeded h es) hw, hsame]
  load _ hx := (overlaid_overlay h.books hes.distinct).load hx

/-- **Seeding lays the exchanges in a document over those in the books.**  A document is
good unless one of its entries is bad, and then the first bad one says why.  A good
document leaves the wallets that it names with these names and everything else as it was,
whatever the order of its entries, if it may be written at all. -/
theorem seeding_overlays {document : Bytes} {es : List Entry}
    (hread : entries document = .ok es) :
    (∀ result, exchanges document = .ok result
        ↔ Sound [] es ∧ result = es.map Entry.exchange)
      ∧ (∀ err, exchanges document = .error err ↔ FirstBad [] es err)
      ∧ ∀ result, exchanges document = .ok result → Vetted result
        ∧ (∀ h : Handle, h.access = .readWrite → ∃ h', Seeded h result h'
          ∧ ∀ document' es', entries document' = .ok es' → es'.Perm es →
            ∃ result', exchanges document' = .ok result'
              ∧ sow h result' = (.ok result.length, h'))
        ∧ ∀ h : Handle, h.access = .readOnly →
          sow h result = (if result = [] then .ok 0 else .error .readOnly, h) := by
  have hcheck : ∀ {document es}, entries document = .ok es →
      exchanges document = check [] es := fun hes => by
    unfold exchanges
    rw [hes]
  refine ⟨fun result => by rw [hcheck hread, check_eq_ok_iff],
    fun err => by rw [hcheck hread, check_eq_error_iff], fun result hresult => ?_⟩
  rw [hcheck hread, check_eq_ok_iff] at hresult
  obtain ⟨hsound, rfl⟩ := hresult
  have hvetted := hsound.vetted
  refine ⟨hvetted, fun h hw => ⟨_, hvetted.seeded hw, fun document' es' hread' hperm => ?_⟩,
    fun h hr => sow_of_readOnly hr _⟩
  -- the entries in another order are as good
  have hsound' := hsound.perm hperm.symm
  have hsame : seeded h (es'.map Entry.exchange) = seeded h (es.map Entry.exchange) := by
    unfold seeded
    rw [overlay_perm h.books (hperm.map Entry.exchange) hsound'.vetted.distinct,
      List.isEmpty_map, List.isEmpty_map, hperm.isEmpty_eq]
  refine ⟨_, (hcheck hread').trans (check_eq_ok_iff.mpr ⟨hsound', rfl⟩), ?_⟩
  rw [sow_of_readWrite hw, hsame, (hperm.map Entry.exchange).length_eq]

/-- A document with two wallets, one of them with blanks around its name. -/
def twoWallets : Bytes :=
  Utf8.write "[[\" X \", \"0x0100000000000000000000000000000000000000\"],
    [\"Y\", \"0x0200000000000000000000000000000000000000\"]]"

/-- A document whose second entry has a blank name, at an address that stands there. -/
def blankAndRepeated : Bytes :=
  Utf8.write "[[\"X\", \"0x0100000000000000000000000000000000000000\"],
    [\" \", \"0x0100000000000000000000000000000000000000\"]]"

/-- Books with two other names. -/
def otherNames : Handle :=
  { Handle.new with books := overlay .empty [⟨"Old", .ofPrefix [2]⟩, ⟨"Z", .ofPrefix [3]⟩] }

/-- The wallet in both has its new name then, the others have theirs.  In the bad document
the blank name is what counts. -/
theorem seeding_overlays_otherNames :
    (∃ h' x, sow otherNames [⟨"X", .ofPrefix [1]⟩, ⟨"Y", .ofPrefix [2]⟩] = (.ok 2, h')
        ∧ ExchangeSet.load h'.books = .ok x ∧ x.nameOf? (.ofPrefix [1]) = some "X"
        ∧ x.nameOf? (.ofPrefix [2]) = some "Y" ∧ x.nameOf? (.ofPrefix [3]) = some "Z")
      ∧ exchanges blankAndRepeated = .error (.invalidEntry "") := by
  have hread : entries twoWallets = .ok [⟨" X ", .ofPrefix [1]⟩, ⟨"Y", .ofPrefix [2]⟩] := by
    decide +kernel
  have hbad : entries blankAndRepeated = .ok [⟨"X", .ofPrefix [1]⟩, ⟨" ", .ofPrefix [1]⟩] := by
    decide +kernel
  have hold : ExchangeSet.load otherNames.books
      = .ok (.ofList [⟨"Old", .ofPrefix [2]⟩, ⟨"Z", .ofPrefix [3]⟩]) := by decide +kernel
  constructor
  · have hgood : exchanges twoWallets = .ok [⟨"X", .ofPrefix [1]⟩, ⟨"Y", .ofPrefix [2]⟩] := by
      unfold exchanges
      rw [hread]
      decide +kernel
    obtain ⟨-, hseed, -⟩ := (seeding_overlays hread).2.2 _ hgood
    obtain ⟨h', hseeded, -⟩ := hseed otherNames rfl
    obtain ⟨x, hx, hnamed, hkept⟩ := hseeded.load _ hold
    refine ⟨h', x, hseeded.count, hx, hnamed _ List.mem_cons_self,
      hnamed _ (List.mem_cons_of_mem _ List.mem_cons_self), ?_⟩
    rw [hkept (.ofPrefix [3]) (by decide +kernel)]
    decide +kernel
  · have hinvalid : Entry.Invalid ⟨" ", .ofPrefix [1]⟩ :=
      Entry.invalid_iff.mpr (.inl (by decide +kernel))
    have hsound : Sound [] [⟨"X", .ofPrefix [1]⟩] :=
      sound_cons_iff.mpr ⟨⟨mt Entry.invalid_iff.mp (by decide +kernel), nofun⟩, sound_nil _⟩
    exact ((seeding_overlays hbad).2.1 _).mpr ⟨_, _, [], rfl, hsound, .invalid hinvalid⟩

end Seed

end FundTrail
