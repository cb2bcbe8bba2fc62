import NbeAdvisor.JsonValues
import NbeAdvisor.PlanPayload

/-!
# The quotes of the market data service

`_validate_quotes` goes over the entries of a response and keeps, for each instrument that was
asked for, the first that passes all of its checks. Most of what can be wrong with an entry makes
it skip the entry. Two things raise instead : a date that does not exist, in `parse_datetime`, and
a currency that is no text, in `upper`. The quotes are what they should be exactly if no entry that
still counts has either (`validateQuotes_exact`).
-/

namespace NbeAdvisor

/-! ## The response -/

/-- `payload["quotes"]`, if it is a list. -/
def Json.quotes : Json → Option (List Json)
  | object fields =>
    match fields.lookup "quotes" with
    | some (array entries) => some entries
    | _ => none
  | _ => none

/-! ## What the fields are read as -/

namespace Readers

variable (py : Readers)

/-- `_parse_positive_decimal`. -/
def parsePositiveDecimal (value : Json) : Option {x : ℚ // 0 < x} :=
  match py.decimal (py.str value) with
  | some (.finite x) => if h : 0 < x then some ⟨x, h⟩ else none
  | _ => none

/-- `parse_datetime(str(raw.get("observed_at") or ""))`. -/
def observedAt (fields : List (String × Json)) : DateReading :=
  py.parseDatetime (if (getField fields "observed_at").truthy then py.str (getField fields "observed_at")
    else "")

end Readers

/-! ## The checks -/

/-- The text of a price type. -/
def PriceType.value : PriceType → String
  | spot => "spot"
  | nav => "nav"
  | marketPrice => "market_price"
  | customerBuyRate => "customer_buy_rate"

/-- An instrument with the age to which its quotes are current. -/
structure QuotedInstrument extends CatalogueInstrument where
  maxQuoteAgeSeconds : ℕ := 3600
  deriving DecidableEq

/-- A quote that has passed `validate_quotes`. -/
structure MarketQuote where
  price : ℚ
  priceCurrency : String
  unit : String
  priceType : PriceType
  observedAt : Instant
  source : String
  price_pos : 0 < price
  deriving DecidableEq

/-- How `_validate_quotes` raises. -/
inductive MarketError where
  /-- `MarketDataUnavailable`. -/
  | unavailable (message : String)
  | valueError
  | attributeError
  deriving DecidableEq

/-- The quotes by instrument, in the order in which they were added. -/
abbrev MarketQuotes := List (InstrumentId × MarketQuote)

/-- `now + datetime.timedelta(minutes=5)`. -/
def latestObservation (now : Instant) : Instant := now + 5 * 60 * 1000000

/-- The checks from the currency on, where that is a text. -/
def QuotedInstrument.check (py : Readers) (instrument : QuotedInstrument)
    (fields : List (String × Json)) (price : {x : ℚ // 0 < x}) (observedAt : Instant)
    (currency : String) : Option MarketQuote :=
  if py.upper currency ≠ instrument.priceCurrency then none
  else if (getField fields "unit").isText instrument.unit = false then none
  else if (getField fields "price_type").isText instrument.priceType.value = false then none
  else
    match getField fields "source" with
    | .text source =>
      if strip source = "" ∨ 120 < source.length then none
      else some
        { price := price.1, priceCurrency := instrument.priceCurrency, unit := instrument.unit
          priceType := instrument.priceType, observedAt, source := strip source
          price_pos := price.2 }
    | _ => none

/-- What an entry adds to the quotes. -/
def readQuote (py : Readers) (now : Instant) (expected : InstrumentId → Option QuotedInstrument)
    (validated : MarketQuotes) : Json → Except MarketError (Option (InstrumentId × MarketQuote))
  | .object fields =>
    match py.uuid (py.str (getField fields "instrument_id")) with
    | none => .ok none
    | some id =>
      match expected id with
      | none => .ok none
      | some instrument =>
        if id ∈ validated.map Prod.fst then .ok none
        else
          match py.observedAt fields, py.parsePositiveDecimal (getField fields "price") with
          | .impossible, _ => .error .valueError
          | .read (.aware observedAt), some price =>
            if latestObservation now < observedAt then .ok none
            else
              match (fields.lookup "price_currency").getD (.text "") with
              | .text currency =>
                .ok ((instrument.check py fields price observedAt currency).map (id, ·))
              | _ => .error .attributeError
          | _, _ => .ok none
  | _ => .ok none

/-- The instrument that the ids of the request stand for. -/
def expected (instruments : List QuotedInstrument) (id : InstrumentId) : Option QuotedInstrument :=
  instruments.reverse.find? fun item => item.id = id

/-- The loop of `_validate_quotes`. -/
def readQuotes (py : Readers) (now : Instant) (instruments : List QuotedInstrument)
    (entries : List Json) : Except MarketError MarketQuotes :=
  entries.foldlM (fun validated raw =>
    (readQuote py now (expected instruments) validated raw).map fun q => validated ++ q.toList) []

/-- `_validate_quotes`. -/
def validateQuotes (py : Readers) (now : Instant) (payload : Json)
    (instruments : List QuotedInstrument) : Except MarketError MarketQuotes :=
  match payload.quotes with
  | none => .error (.unavailable "The market quote response was invalid.")
  | some entries => readQuotes py now instruments entries

/-! ## What a valid entry is -/

/-- The fields give this quote of the instrument. -/
structure IsQuote (py : Readers) (now : Instant) (instrument : QuotedInstrument)
    (fields : List (String × Json)) (q : MarketQuote) : Prop where
  price : (py.parsePositiveDecimal (getField fields "price")).map Subtype.val = some q.price
  observedAt : py.observedAt fields = .read (.aware q.observedAt)
  fresh : q.observedAt ≤ latestObservation now
  currency : ∃ c, (fields.lookup "price_currency").getD (.text "") = .text c ∧
    py.upper c = instrument.priceCurrency
  unit : (getField fields "unit").isText instrument.unit = true
  priceType : (getField fields "price_type").isText instrument.priceType.value = true
  source : ∃ s, getField fields "source" = .text s ∧ strip s ≠ "" ∧ s.length ≤ 120 ∧
    q.source = strip s
  meant : q.priceCurrency = instrument.priceCurrency ∧ q.unit = instrument.unit ∧
    q.priceType = instrument.priceType

/-- The date does not exist, or the checks come to a currency that is no text. -/
def Trips (py : Readers) (now : Instant) (fields : List (String × Json)) : Prop :=
  py.observedAt fields = .impossible ∨
    (py.parsePositiveDecimal (getField fields "price")).isSome = true ∧
      (∃ t, py.observedAt fields = .read (.aware t) ∧ t ≤ latestObservation now) ∧
      ∀ c, (fields.lookup "price_currency").getD (.text "") ≠ .text c

/-- An entry, which has these fields, of an instrument that was asked for. -/
structure EntryOf (py : Readers) (instruments : List QuotedInstrument) (raw : Json)
    (instrument : QuotedInstrument) (fields : List (String × Json)) : Prop where
  object : raw = .object fields
  id : py.uuid (py.str (getField fields "instrument_id")) = some instrument.id
  expected : expected instruments instrument.id = some instrument

section Entries

variable (py : Readers) (now : Instant) (instruments : List QuotedInstrument)

/-- A valid entry. -/
def ValidEntry (raw : Json) (id : InstrumentId) (q : MarketQuote) : Prop :=
  ∃ instrument fields, EntryOf py instruments raw instrument fields ∧ instrument.id = id ∧
    IsQuote py now instrument fields q

/-- The quote is that of the first valid entry of the instrument. -/
def FirstValid (entries : List Json) (id : InstrumentId) (q : MarketQuote) : Prop :=
  ∃ before raw, before ++ [raw] <+: entries ∧ ValidEntry py now instruments raw id q ∧
    ∀ r ∈ before, ∀ q', ¬ValidEntry py now instruments r id q'

/-- After these entries, it is of no instrument, or of one with a valid entry among them, or it does
not trip the checks. -/
def Passes (before : List Json) (raw : Json) : Prop :=
  ∀ instrument fields, EntryOf py instruments raw instrument fields →
    (∀ r ∈ before, ∀ q, ¬ValidEntry py now instruments r instrument.id q) → ¬Trips py now fields

end Entries

section Proofs

variable {py : Readers} {now : Instant} {instruments : List QuotedInstrument}
  {instrument : QuotedInstrument} {fields : List (String × Json)} {raw : Json} {id : InstrumentId}
  {q q' : MarketQuote}

theorem IsQuote.not_trips (h : IsQuote py now instrument fields q) : ¬Trips py now fields := by
  rintro (himpossible | ⟨-, -, hcurrency⟩)
  · rw [h.observedAt] at himpossible
    cases himpossible
  · obtain ⟨c, hc, -⟩ := h.currency
    exact hcurrency c hc

theorem IsQuote.unique (h : IsQuote py now instrument fields q)
    (h' : IsQuote py now instrument fields q') : q' = q := by
  have hprice := Option.some.inj (h.price.symm.trans h'.price)
  have hobserved := h.observedAt.symm.trans h'.observedAt
  obtain ⟨s, hs, -, -, hsource⟩ := h.source
  obtain ⟨s', hs', -, -, hsource'⟩ := h'.source
  obtain rfl := Json.text.inj (hs.symm.trans hs')
  obtain ⟨hcurrency, hunit, htype⟩ := h.meant
  obtain ⟨hcurrency', hunit', htype'⟩ := h'.meant
  cases q
  cases q'
  simp_all

theorem EntryOf.unique {instrument' : QuotedInstrument} {fields' : List (String × Json)}
    (h : EntryOf py instruments raw instrument fields)
    (h' : EntryOf py instruments raw instrument' fields') :
    instrument' = instrument ∧ fields' = fields := by
  obtain rfl := Json.object.inj (h.object.symm.trans h'.object)
  have hid := Option.some.inj (h.id.symm.trans h'.id)
  have hsame := h.expected
  rw [hid, h'.expected] at hsame
  exact ⟨Option.some.inj hsame, rfl⟩

theorem check_eq_some {price : {x : ℚ // 0 < x}} {t : Instant} {currency : String} :
    instrument.check py fields price t currency = some q ↔
      py.upper currency = instrument.priceCurrency ∧
      (getField fields "unit").isText instrument.unit = true ∧
      (getField fields "price_type").isText instrument.priceType.value = true ∧
      (∃ s, getField fields "source" = .text s ∧ strip s ≠ "" ∧ s.length ≤ 120 ∧
        q.source = strip s) ∧
      (q.priceCurrency = instrument.priceCurrency ∧ q.unit = instrument.unit ∧
        q.priceType = instrument.priceType) ∧ q.price = price ∧ q.observedAt = t := by
  unfold QuotedInstrument.check
  split_ifs with hcurrency hunit htype
  · exact iff_of_false not_false fun h => hcurrency h.1
  · refine iff_of_false not_false fun h => ?_
    rw [hunit] at h
    exact Bool.false_ne_true h.2.1
  · refine iff_of_false not_false fun h => ?_
    rw [htype] at h
    exact Bool.false_ne_true h.2.2.1
  rw [ne_eq, not_not] at hcurrency
  rw [Bool.not_eq_false] at hunit htype
  cases hsource : getField fields "source" with
  | text s =>
    simp only
    split_ifs with hbad
    · refine iff_of_false not_false ?_
      rintro ⟨-, -, -, ⟨s', hs', hne, hlen, -⟩, -⟩
      obtain rfl := Json.text.inj hs'
      exact hbad.elim hne (not_lt.2 hlen)
    · rw [not_or, not_lt] at hbad
      constructor
      · intro h
        obtain rfl := Option.some.inj h
        exact ⟨hcurrency, hunit, htype, ⟨s, rfl, hbad.1, hbad.2, rfl⟩, ⟨rfl, rfl, rfl⟩, rfl, rfl⟩
      · rintro ⟨-, -, -, ⟨s', hs', -, -, hqs⟩, ⟨hqc, hqu, hqt⟩, hqp, hqo⟩
        obtain rfl := Json.text.inj hs'
        obtain ⟨qprice, qcurrency, qunit, qtype, qobserved, qsource, qpos⟩ := q
        simp only at hqs hqc hqu hqt hqp hqo
        subst hqs hqc hqu hqt hqp hqo
        rfl
  | _ =>
    refine iff_of_false (Option.some_ne_none _).symm ?_
    rintro ⟨-, -, -, ⟨s', hs', -⟩, -⟩
    cases hs'

/-- What an entry that counts gives. -/
theorem readQuote_cases {validated : MarketQuotes} (h : EntryOf py instruments raw instrument fields)
    (hnew : instrument.id ∉ validated.map Prod.fst) :
    (Trips py now fields ∧ ∃ e, readQuote py now (expected instruments) validated raw = .error e) ∨
    (∃ q, IsQuote py now instrument fields q ∧
      readQuote py now (expected instruments) validated raw = .ok (some (instrument.id, q))) ∨
    ((∀ q, ¬IsQuote py now instrument fields q) ∧ ¬Trips py now fields ∧
      readQuote py now (expected instruments) validated raw = .ok none) := by
  have hread : readQuote py now (expected instruments) validated raw =
      match py.observedAt fields, py.parsePositiveDecimal (getField fields "price") with
      | .impossible, _ => .error .valueError
      | .read (.aware observedAt), some price =>
        if latestObservation now < observedAt then .ok none
        else
          match (fields.lookup "price_currency").getD (.text "") with
          | .text currency =>
            .ok ((instrument.check py fields price observedAt currency).map (instrument.id, ·))
          | _ => .error .attributeError
      | _, _ => .ok none := by
    rw [h.object]
    simp only [readQuote, h.id, h.expected, if_neg hnew]
  rw [hread]
  have hskip : py.observedAt fields ≠ .impossible →
      (∀ t price, py.observedAt fields = .read (.aware t) →
        py.parsePositiveDecimal (getField fields "price") = some price → latestObservation now < t) →
      (∀ q, ¬IsQuote py now instrument fields q) ∧ ¬Trips py now fields := by
    refine fun hpossible hnone => ⟨fun q hq => ?_, ?_⟩
    · obtain ⟨price, hprice, -⟩ := Option.map_eq_some_iff.1 hq.price
      exact (hnone _ price hq.observedAt hprice).not_ge hq.fresh
    · rintro (himpossible | ⟨hprice, ⟨t, ht, hfresh⟩, -⟩)
      · exact hpossible himpossible
      · obtain ⟨price, hprice⟩ := Option.isSome_iff_exists.1 hprice
        exact (hnone t price ht hprice).not_ge hfresh
  cases hdate : py.observedAt fields with
  | impossible => exact Or.inl ⟨Or.inl hdate, .valueError, rfl⟩
  | missing =>
    obtain ⟨hquote, htrips⟩ := hskip (by simp [hdate]) (by simp [hdate])
    exact Or.inr (Or.inr ⟨hquote, htrips, rfl⟩)
  | read d =>
  cases d with
  | naive =>
    obtain ⟨hquote, htrips⟩ := hskip (by simp [hdate]) (by simp [hdate])
    exact Or.inr (Or.inr ⟨hquote, htrips, rfl⟩)
  | aware t =>
  have hsame : ∀ {t'}, py.observedAt fields = .read (.aware t') → t' = t := fun ht => by
    rw [hdate] at ht
    cases ht
    rfl
  cases hprice : py.parsePositiveDecimal (getField fields "price") with
  | none =>
    obtain ⟨hquote, htrips⟩ := hskip (by simp [hdate]) (by simp [hprice])
    exact Or.inr (Or.inr ⟨hquote, htrips, rfl⟩)
  | some price =>
  simp only
  split_ifs with hlate
  · obtain ⟨hquote, htrips⟩ := hskip (by simp [hdate]) fun t' _ ht _ => hsame ht ▸ hlate
    exact Or.inr (Or.inr ⟨hquote, htrips, rfl⟩)
  rw [not_lt] at hlate
  cases hcurrency : (fields.lookup "price_currency").getD (.text "") with
  | text currency =>
    have hcheck : ∀ q, IsQuote py now instrument fields q ↔
        instrument.check py fields price t currency = some q := by
      intro q
      rw [check_eq_some]
      constructor
      · intro hq
        obtain ⟨c, hc, hupper⟩ := hq.currency
        obtain rfl := Json.text.inj (hcurrency.symm.trans hc)
        have hqp := hq.price
        rw [hprice] at hqp
        exact ⟨hupper, hq.unit, hq.priceType, hq.source, hq.meant, (Option.some.inj hqp).symm,
          hsame hq.observedAt⟩
      · rintro ⟨hupper, hunit, htype, hsource, hmeant, hqp, rfl⟩
        exact ⟨by rw [hprice, hqp]; rfl, hdate, hlate, ⟨currency, hcurrency, hupper⟩, hunit, htype,
          hsource, hmeant⟩
    refine Or.inr ?_
    cases hq : instrument.check py fields price t currency with
    | some q => exact Or.inl ⟨q, (hcheck q).2 hq, by simp only [hq, Option.map_some]⟩
    | none =>
      refine Or.inr ⟨fun q hvalid => ?_, ?_, by simp only [hq, Option.map_none]⟩
      · rw [hcheck, hq] at hvalid
        cases hvalid
      · rintro (himpossible | ⟨-, -, hother⟩)
        · exact nomatch hdate.symm.trans himpossible
        · exact hother currency hcurrency
  | _ =>
    refine Or.inl ⟨Or.inr ⟨by rw [hprice]; rfl, ⟨t, hdate, hlate⟩, fun c hc => ?_⟩, _, rfl⟩
    exact nomatch hcurrency.symm.trans hc

/-- An entry that does not count. -/
theorem readQuote_of_no_entry {validated : MarketQuotes}
    (h : ∀ instrument fields, EntryOf py instruments raw instrument fields →
      instrument.id ∈ validated.map Prod.fst) :
    readQuote py now (expected instruments) validated raw = .ok none := by
  cases raw with
  | object fields =>
    simp only [readQuote]
    split
    · rfl
    next id hid =>
    split
    · rfl
    next instrument hexpected =>
    have hsame := List.find?_some hexpected
    rw [decide_eq_true_eq] at hsame
    exact if_pos (hsame ▸ h instrument fields ⟨rfl, hsame ▸ hid, hsame ▸ hexpected⟩)
  | _ => rfl

/-! ## The loop -/

theorem firstValid_snoc {entries : List Json} :
    FirstValid py now instruments (entries ++ [raw]) id q ↔
      FirstValid py now instruments entries id q ∨
        (ValidEntry py now instruments raw id q ∧
          ∀ r ∈ entries, ∀ q', ¬ValidEntry py now instruments r id q') := by
  unfold FirstValid
  constructor
  · rintro ⟨before, r, hpre, hr, hbefore⟩
    rcases List.prefix_concat_iff.1 hpre with heq | hpre
    · obtain ⟨rfl, hlast⟩ := List.append_inj' heq rfl
      obtain rfl := List.singleton_inj.1 hlast
      exact Or.inr ⟨hr, hbefore⟩
    · exact Or.inl ⟨before, r, hpre, hr, hbefore⟩
  · rintro (⟨before, r, hpre, hr, hbefore⟩ | ⟨hr, hbefore⟩)
    · exact ⟨before, r, hpre.trans (List.prefix_append _ _), hr, hbefore⟩
    · exact ⟨entries, raw, List.prefix_rfl, hr, hbefore⟩

/-- There is a first one. -/
theorem exists_firstValid {entries : List Json} :
    (∃ q, FirstValid py now instruments entries id q) ↔
      ∃ r ∈ entries, ∃ q, ValidEntry py now instruments r id q := by
  constructor
  · rintro ⟨q, before, r, hpre, hr, -⟩
    exact ⟨r, hpre.subset (by simp), q, hr⟩
  · induction entries using List.reverseRecOn with
    | nil => rintro ⟨r, hr, -⟩; cases hr
    | append_singleton entries raw ih =>
      rintro ⟨r, hr, q, hvalid⟩
      by_cases hearlier : ∃ r ∈ entries, ∃ q, ValidEntry py now instruments r id q
      · obtain ⟨q, hq⟩ := ih hearlier
        exact ⟨q, firstValid_snoc.2 (Or.inl hq)⟩
      · rcases List.mem_append.1 hr with hr | hr
        · exact (hearlier ⟨r, hr, q, hvalid⟩).elim
        · obtain rfl := List.mem_singleton.1 hr
          refine ⟨q, firstValid_snoc.2 (Or.inr ⟨hvalid, fun r hr q' hq' => ?_⟩)⟩
          exact hearlier ⟨r, hr, q', hq'⟩

/-- The quotes are those of the first valid entries, one for each instrument. -/
structure AreFirsts (py : Readers) (now : Instant) (instruments : List QuotedInstrument)
    (entries : List Json) (quotes : MarketQuotes) : Prop where
  nodup : (quotes.map Prod.fst).Nodup
  mem : ∀ id q, (id, q) ∈ quotes ↔ FirstValid py now instruments entries id q

theorem AreFirsts.mem_keys {entries : List Json} {quotes : MarketQuotes}
    (h : AreFirsts py now instruments entries quotes) :
    id ∈ quotes.map Prod.fst ↔ ∃ r ∈ entries, ∃ q, ValidEntry py now instruments r id q := by
  rw [← exists_firstValid, List.mem_map]
  constructor
  · rintro ⟨⟨i, q⟩, hmem, rfl⟩
    exact ⟨q, (h.mem i q).1 hmem⟩
  · rintro ⟨q, hq⟩
    exact ⟨(id, q), (h.mem id q).2 hq, rfl⟩

theorem readQuotes_snoc (entries : List Json) (raw : Json) :
    readQuotes py now instruments (entries ++ [raw]) =
      readQuotes py now instruments entries >>= fun validated =>
        (readQuote py now (expected instruments) validated raw).map fun q =>
          validated ++ q.toList := by
  rw [readQuotes, List.foldlM_append]
  simp only [List.foldlM_cons, List.foldlM_nil, bind_pure]
  rfl

/-- One entry more. -/
theorem AreFirsts.snoc {entries : List Json} {quotes : MarketQuotes} {r : Option (InstrumentId × MarketQuote)}
    (h : AreFirsts py now instruments entries quotes)
    (hr : readQuote py now (expected instruments) quotes raw = .ok r) :
    Passes py now instruments entries raw ∧
      AreFirsts py now instruments (entries ++ [raw]) (quotes ++ r.toList) := by
  have hold : (∀ id q, ValidEntry py now instruments raw id q → id ∈ quotes.map Prod.fst) →
      AreFirsts py now instruments (entries ++ [raw]) quotes := by
    refine fun hcovered => ⟨h.nodup, fun id q => ?_⟩
    rw [firstValid_snoc, h.mem, or_iff_left]
    rintro ⟨hvalid, hnone⟩
    obtain ⟨r, hr, q', hq'⟩ := h.mem_keys.1 (hcovered id q hvalid)
    exact hnone r hr q' hq'
  by_cases hcounts : ∃ instrument fields, EntryOf py instruments raw instrument fields ∧
      instrument.id ∉ quotes.map Prod.fst
  · obtain ⟨instrument, fields, hentry, hnew⟩ := hcounts
    have hnone := mt h.mem_keys.2 hnew
    rcases readQuote_cases hentry hnew with ⟨-, e, he⟩ | ⟨q, hq, hok⟩ | ⟨hq, htrips, hok⟩
    · exact nomatch he.symm.trans hr
    · obtain rfl : some (instrument.id, q) = r := Except.ok.inj (hok.symm.trans hr)
      refine ⟨fun i f hf _ => ?_, ?_, fun id q' => ?_⟩
      · obtain ⟨rfl, rfl⟩ := hentry.unique hf
        exact hq.not_trips
      · exact Keyed.nodup_map_snoc h.nodup fun p hp heq =>
          hnew (List.mem_map.2 ⟨p, hp, heq⟩)
      · rw [firstValid_snoc, List.mem_append, h.mem, Option.toList_some, List.mem_singleton]
        refine or_congr_right ⟨?_, ?_⟩
        · rintro heq
          cases heq
          refine ⟨⟨instrument, fields, hentry, rfl, hq⟩, fun r hr q' hq' => ?_⟩
          exact hnone ⟨r, hr, q', hq'⟩
        · rintro ⟨⟨i, f, hf, rfl, hvalid⟩, -⟩
          obtain ⟨rfl, rfl⟩ := hentry.unique hf
          rw [hq.unique hvalid]
    · obtain rfl : none = r := Except.ok.inj (hok.symm.trans hr)
      refine ⟨fun i f hf _ => ?_, ?_⟩
      · obtain ⟨rfl, rfl⟩ := hentry.unique hf
        exact htrips
      · rw [Option.toList_none, List.append_nil]
        refine hold fun id q => ?_
        rintro ⟨i, f, hf, -, hvalid⟩
        obtain ⟨rfl, rfl⟩ := hentry.unique hf
        exact (hq q hvalid).elim
  · have hcovered : ∀ instrument fields, EntryOf py instruments raw instrument fields →
        instrument.id ∈ quotes.map Prod.fst := fun i f hf => by
      by_contra hnew
      exact hcounts ⟨i, f, hf, hnew⟩
    obtain rfl := Except.ok.inj ((readQuote_of_no_entry hcovered).symm.trans hr)
    refine ⟨fun i f hf hnone => ?_, ?_⟩
    · obtain ⟨r, hr, q, hq⟩ := h.mem_keys.1 (hcovered i f hf)
      exact (hnone r hr q hq).elim
    · rw [Option.toList_none, List.append_nil]
      refine hold fun id q => ?_
      rintro ⟨i, f, hf, rfl, -⟩
      exact hcovered i f hf

theorem AreFirsts.exists_readQuote {entries : List Json} {quotes : MarketQuotes}
    (h : AreFirsts py now instruments entries quotes)
    (hpasses : Passes py now instruments entries raw) :
    ∃ r, readQuote py now (expected instruments) quotes raw = .ok r := by
  by_cases hcounts : ∃ instrument fields, EntryOf py instruments raw instrument fields ∧
      instrument.id ∉ quotes.map Prod.fst
  · obtain ⟨instrument, fields, hentry, hnew⟩ := hcounts
    rcases readQuote_cases hentry hnew with ⟨htrips, -⟩ | ⟨q, -, hok⟩ | ⟨-, -, hok⟩
    · refine (hpasses instrument fields hentry (fun r hr q hq => ?_) htrips).elim
      exact hnew (h.mem_keys.2 ⟨r, hr, q, hq⟩)
    · exact ⟨_, hok⟩
    · exact ⟨_, hok⟩
  · refine ⟨none, readQuote_of_no_entry fun i f hf => ?_⟩
    by_contra hnew
    exact hcounts ⟨i, f, hf, hnew⟩

/-- What the loop has read is the first valid entries, and no entry has tripped it. -/
theorem readQuotes_eq_ok {entries : List Json} {quotes : MarketQuotes}
    (h : readQuotes py now instruments entries = .ok quotes) :
    AreFirsts py now instruments entries quotes ∧
      ∀ before raw, before ++ [raw] <+: entries → Passes py now instruments before raw := by
  induction entries using List.reverseRecOn generalizing quotes with
  | nil =>
    cases h
    refine ⟨⟨List.nodup_nil, fun id q => iff_of_false List.not_mem_nil ?_⟩, fun before raw hpre => ?_⟩
    · rintro ⟨before, raw, hpre, -⟩
      simp at hpre
    · simp at hpre
  | append_singleton entries raw ih =>
    rw [readQuotes_snoc] at h
    cases hold : readQuotes py now instruments entries with
    | error e =>
      rw [hold] at h
      cases h
    | ok validated =>
      rw [hold] at h
      obtain ⟨hfirsts, hpasses⟩ := ih hold
      cases hr : readQuote py now (expected instruments) validated raw with
      | error e =>
        simp only [hr, Except.map, bind, Except.bind] at h
        cases h
      | ok r =>
        simp only [hr, Except.map, bind, Except.bind, Except.ok.injEq] at h
        obtain ⟨hlast, hfirsts'⟩ := hfirsts.snoc hr
        refine ⟨h ▸ hfirsts', fun before raw' hpre => ?_⟩
        rcases List.prefix_concat_iff.1 hpre with heq | hpre
        · obtain ⟨rfl, hraw⟩ := List.append_inj' heq rfl
          obtain rfl := List.singleton_inj.1 hraw
          exact hlast
        · exact hpasses before raw' hpre

theorem exists_readQuotes {entries : List Json}
    (h : ∀ before raw, before ++ [raw] <+: entries → Passes py now instruments before raw) :
    ∃ quotes, readQuotes py now instruments entries = .ok quotes := by
  induction entries using List.reverseRecOn with
  | nil => exact ⟨[], rfl⟩
  | append_singleton entries raw ih =>
    obtain ⟨validated, hold⟩ := ih fun before raw' hpre =>
      h before raw' (hpre.trans (List.prefix_append _ _))
    obtain ⟨r, hr⟩ := (readQuotes_eq_ok hold).1.exists_readQuote (h entries raw List.prefix_rfl)
    refine ⟨validated ++ r.toList, ?_⟩
    rw [readQuotes_snoc, hold]
    simp only [hr, Except.map, bind, Except.bind]

end Proofs

/-- A response without a list of quotes is refused, and of one with a list the first valid entry of
each instrument is kept. -/
def QuotesExact (py : Readers) (now : Instant) (payload : Json)
    (instruments : List QuotedInstrument) : Prop :=
  (payload.quotes = none → validateQuotes py now payload instruments =
    .error (.unavailable "The market quote response was invalid.")) ∧
  ∀ entries, payload.quotes = some entries → ∃ quotes,
    validateQuotes py now payload instruments = .ok quotes ∧
      AreFirsts py now instruments entries quotes

/-- `_validate_quotes` does so exactly if every entry passes after those before it. -/
theorem validateQuotes_exact (py : Readers) (now : Instant) (payload : Json)
    (instruments : List QuotedInstrument) :
    QuotesExact py now payload instruments ↔
      ∀ entries, payload.quotes = some entries → ∀ before raw, before ++ [raw] <+: entries →
        Passes py now instruments before raw := by
  unfold QuotesExact validateQuotes
  cases payload.quotes with
  | none => simp
  | some entries =>
    simp only [reduceCtorEq, false_implies, true_and, Option.some.injEq, forall_eq']
    constructor
    · rintro ⟨quotes, hok, -⟩
      exact (readQuotes_eq_ok hok).2
    · intro h
      obtain ⟨quotes, hok⟩ := exists_readQuotes h
      exact ⟨quotes, hok, (readQuotes_eq_ok hok).1⟩

/-- Gold by the gram. -/
def goldInstrument : QuotedInstrument :=
  { id := 1, minimumIncrement := 1, code := "gold", assetClass := .gold, unit := "gram"
    priceType := .spot }

/-- Readers that know one instrument, one price and two dates. -/
def sampleReaders : Readers where
  shown _ := ""
  uuid s := if s = "gold" then some 1 else none
  decimal s := if s = "100" then some (.finite 100) else none
  parseDatetime s :=
    if s = "2026-07-01T00:00:00Z" then .read (.aware 0)
    else if s = "2026-02-30T00:00:00Z" then .impossible
    else .missing
  upper s := s

/-- The thirtieth of February. -/
theorem impossibleDate_raises :
    ¬∀ (py : Readers) (now : Instant) (payload : Json) (instruments : List QuotedInstrument),
      QuotesExact py now payload instruments := by
  intro h
  obtain ⟨quotes, hok, -⟩ := (h sampleReaders 0
    (.object [("quotes", .array [.object [("instrument_id", .text "gold"),
      ("observed_at", .text "2026-02-30T00:00:00Z")]])])
    [goldInstrument]).2 _ rfl
  exact nomatch hok

end NbeAdvisor
