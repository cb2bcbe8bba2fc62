import NbeAdvisor.BankSync
import NbeAdvisor.Budgets

/-!
# The category of a synced transaction

`resolve_category` finds a category by its name, or by an alias of it, in lower case, and else
takes the fallback of the transaction's direction. `guess_category_from_merchant` gives it a
label for a keyword of that direction, or the merchant's name as it is. Of the two only the
fallback and the keywords look at the direction, so a merchant whose name is that of a category
of the other side is put there (`salaryMerchant_debit`), and no other one is
(`ingest_direction_iff`).
-/

namespace NbeAdvisor

/-! ## Lower case -/

/-- `str.lower`. What it does beyond ASCII is not looked at. -/
structure Lowercase where
  lower : String → String
  lower_ascii : ∀ s : String, (∀ c ∈ s.toList, c.toNat < 128) →
    lower s = String.ofList (s.toList.map Char.toLower)

/-- A text in lower case without blanks around. -/
def Plain (s : String) : Prop := (∀ c ∈ s.toList, c.toNat < 128 ∧ c.toLower = c) ∧ strip s = s

/-- The characters of the text are looked at, not all that there are. -/
instance (s : String) : Decidable (Plain s) :=
  @instDecidableAnd _ _
    (List.decidableBAll (fun c : Char => c.toNat < 128 ∧ c.toLower = c) s.toList) inferInstance

namespace Lowercase

/-- `str(raw).strip().lower()`. -/
def key (low : Lowercase) (raw : String) : String := low.lower (strip raw)

/-- A plain text is looked up as it is. -/
theorem key_of_plain (low : Lowercase) {s : String} (h : Plain s) : low.key s = s := by
  rw [key, h.2, low.lower_ascii s fun c hc => (h.1 c hc).1,
    List.map_congr_left fun c hc => (h.1 c hc).2, List.map_id', String.ofList_toList]

end Lowercase

/-! ## The taxonomy -/

/-- A row of `categories`. -/
structure CategoryRow extends Category where
  label : String
  isFallback : Bool := false
  deriving DecidableEq

/-- `CATEGORY_SEED_DATA`. -/
def categorySeedData : List CategoryRow :=
  [{ id := 1, name := "housing", label := "Housing" },
    { id := 2, name := "food", label := "Food" },
    { id := 3, name := "transport", label := "Transport" },
    { id := 4, name := "savings", label := "Savings" },
    { id := 5, name := "lifestyle", label := "Lifestyle" },
    { id := 6, name := "other", label := "Other", isFallback := true },
    { id := 7, name := "salary", label := "Salary", categoryType := .income },
    { id := 8, name := "transfers_in", label := "Transfers In", categoryType := .income },
    { id := 9, name := "other_income", label := "Other Income", categoryType := .income
      isFallback := true }]

/-- `_CATEGORY_ALIASES`. -/
def categoryAliases : List (String × String) :=
  [("groceries", "food"), ("dining", "food"), ("restaurants", "food"),
    ("transportation", "transport"), ("utilities", "housing"), ("bills", "housing"),
    ("rent", "housing"), ("shopping", "lifestyle"), ("entertainment", "lifestyle"),
    ("health", "other"), ("income", "other_income"), ("transfer", "transfers_in")]

/-- The transaction is a credit, as both functions read its type. -/
def IsCredit (low : Lowercase) (transactionType : Option String) : Prop :=
  low.key (transactionType.getD "") = "credit"

instance (low : Lowercase) (transactionType : Option String) :
    Decidable (IsCredit low transactionType) := by
  unfold IsCredit
  infer_instance

/-- The side of the ledger that the type of a transaction is on. -/
def direction (low : Lowercase) (transactionType : Option String) : CategoryType :=
  if IsCredit low transactionType then .income else .expense

/-- The category of a name, or of the alias of one. -/
def categoryNamed (categories : List CategoryRow) (key : String) : Option CategoryRow :=
  match categories.find? fun c => c.name = key with
  | some c => some c
  | none => (categoryAliases.lookup key).bind fun name => categories.find? fun c => c.name = name

/-- `resolve_category`, of a text that the database can look up. -/
def resolveCategory (low : Lowercase) (categories : List CategoryRow)
    (raw transactionType : Option String) : Option CategoryRow :=
  match raw with
  | none => none
  | some raw =>
    match categoryNamed categories (low.key raw) with
    | some c => some c
    | none => categories.find? fun c => c.isFallback ∧ c.categoryType = direction low transactionType

/-! ## Keywords -/

/-- `_EXPENSE_KEYWORD_CATEGORIES` and `_INCOME_KEYWORD_CATEGORIES`. -/
def keywordCategories : CategoryType → List (String × String)
  | .expense =>
    [("carrefour", "groceries"), ("spinneys", "groceries"), ("kazyon", "groceries"),
      ("grocery", "groceries"), ("groceries", "groceries"), ("supermarket", "groceries"),
      ("talabat", "dining"), ("mcdonald", "dining"), ("kfc", "dining"), ("starbucks", "dining"),
      ("costa", "dining"), ("cafe", "dining"), ("coffee", "dining"), ("restaurant", "dining"),
      ("uber", "transportation"), ("careem", "transportation"), ("swvl", "transportation"),
      ("metro", "transportation"), ("taxi", "transportation"), ("fuel", "transportation"),
      ("petrol", "transportation"), ("vodafone", "utilities"), ("orange eg", "utilities"),
      ("etisalat", "utilities"), ("electricity", "utilities"), ("water bill", "utilities"),
      ("internet", "utilities"), ("rent", "rent"), ("amazon", "shopping"), ("noon", "shopping"),
      ("jumia", "shopping"), ("mall", "shopping"), ("netflix", "entertainment"),
      ("spotify", "entertainment"), ("cinema", "entertainment"), ("gym", "entertainment")]
  | .income =>
    [("salary", "salary"), ("payroll", "salary"), ("transfer", "transfer"), ("refund", "transfer")]

/-- `keyword in lowered`. -/
def Contains (lowered keyword : String) : Prop := keyword.toList <:+: lowered.toList

instance (lowered keyword : String) : Decidable (Contains lowered keyword) := by
  unfold Contains
  infer_instance

/-- `guess_category_from_merchant`. -/
def guessCategoryFromMerchant (low : Lowercase) (merchantRaw transactionType : Option String) :
    Option String :=
  match given merchantRaw with
  | none => none
  | some merchantRaw =>
    match (keywordCategories (direction low transactionType)).find? fun p =>
      Contains (low.lower merchantRaw) p.1 with
    | some p => some p.2
    | none => some merchantRaw

/-- The two functions as the ledger uses them. -/
def categoryTaxonomy (low : Lowercase) (categories : List CategoryRow) : Taxonomy where
  resolveCategory raw transactionType :=
    (resolveCategory low categories raw transactionType).map (·.id)
  guessCategoryFromMerchant := guessCategoryFromMerchant low

/-! ## Which side a merchant is put on -/

/-- The names and aliases of the seeded categories of a type. -/
def spellings : CategoryType → List String
  | .expense =>
    ["housing", "food", "transport", "savings", "lifestyle", "other", "groceries", "dining",
      "restaurants", "transportation", "utilities", "bills", "rent", "shopping", "entertainment",
      "health"]
  | .income => ["salary", "transfers_in", "other_income", "income", "transfer"]

/-- Income for expense, and expense for income. -/
def CategoryType.otherSide : CategoryType → CategoryType
  | .income => .expense
  | .expense => .income

/-- A keyword of its direction is in the merchant's name, or the name is no spelling of the
other side. -/
def KeepsSide (low : Lowercase) (merchantRaw transactionType : Option String) : Prop :=
  ∀ m ∈ given merchantRaw,
    (∃ p ∈ keywordCategories (direction low transactionType), Contains (low.lower m) p.1) ∨
      low.key m ∉ spellings (direction low transactionType).otherSide

instance (low : Lowercase) (merchantRaw transactionType : Option String) :
    Decidable (KeepsSide low merchantRaw transactionType) := by
  unfold KeepsSide
  infer_instance

section Sides

variable {low : Lowercase} {transactionType : Option String}

/-- Every spelling is that of a category of its type. -/
theorem categoryNamed_of_spelling : ∀ side, ∀ s ∈ spellings side,
    ∃ c ∈ categorySeedData, categoryNamed categorySeedData s = some c ∧ c.categoryType = side := by
  intro side
  cases side <;> decide +kernel

/-- Other texts name no category. -/
theorem categoryNamed_of_not_spelling {s : String} (h : ∀ side, s ∉ spellings side) :
    categoryNamed categorySeedData s = none := by
  have hnames : ∀ c ∈ categorySeedData, c.name ∈ spellings c.categoryType := by decide
  have haliases : ∀ p ∈ categoryAliases, p.1 ∈ spellings .income ∨ p.1 ∈ spellings .expense := by
    decide
  have hfind : categorySeedData.find? (fun c => c.name = s) = none := by
    refine List.find?_eq_none.2 fun c hc hname => h c.categoryType ?_
    exact of_decide_eq_true hname ▸ hnames c hc
  have hlookup : categoryAliases.lookup s = none := by
    refine List.lookup_eq_none_iff.2 fun p hp => bne_iff_ne.2 ?_
    rintro rfl
    exact (haliases p hp).elim (h _) (h _)
  rw [categoryNamed, hfind, hlookup, Option.bind_none]

/-- Each side has its fallback. -/
theorem fallback_of_side : ∀ side, ∃ c ∈ categorySeedData,
    (categorySeedData.find? fun c => c.isFallback ∧ c.categoryType = side) = some c ∧
      c.categoryType = side := by
  intro side
  cases side <;> decide

/-- The labels of the keywords are spellings of their side, as they are. -/
theorem keyword_label : ∀ side, ∀ p ∈ keywordCategories side, p.2 ∈ spellings side ∧ Plain p.2 := by
  intro side
  cases side <;> decide +kernel

theorem CategoryType.eq_or_otherSide (side side' : CategoryType) :
    side' = side ∨ side' = side.otherSide := by
  cases side <;> cases side' <;> decide

theorem CategoryType.otherSide_ne (side : CategoryType) : side.otherSide ≠ side := by
  cases side <;> decide

/-- Every text resolves, to its direction unless it is a spelling of the other side. -/
theorem resolveCategory_side (low : Lowercase) (raw : String) (transactionType : Option String) :
    ∃ c ∈ categorySeedData,
      resolveCategory low categorySeedData (some raw) transactionType = some c ∧
      (c.categoryType = direction low transactionType ↔
        low.key raw ∉ spellings (direction low transactionType).otherSide) := by
  set side := direction low transactionType with hside
  unfold resolveCategory
  by_cases hother : low.key raw ∈ spellings side.otherSide
  · obtain ⟨c, hc, hnamed, htype⟩ := categoryNamed_of_spelling side.otherSide _ hother
    refine ⟨c, hc, by simp only [hnamed], iff_of_false ?_ (not_not.2 hother)⟩
    rw [htype]
    exact side.otherSide_ne
  by_cases hown : low.key raw ∈ spellings side
  · obtain ⟨c, hc, hnamed, htype⟩ := categoryNamed_of_spelling side _ hown
    exact ⟨c, hc, by simp only [hnamed], iff_of_true htype hother⟩
  · have hnone := categoryNamed_of_not_spelling (s := low.key raw) fun side' hmem => by
      rcases side.eq_or_otherSide side' with rfl | rfl
      · exact hown hmem
      · exact hother hmem
    obtain ⟨c, hc, hfind, htype⟩ := fallback_of_side side
    exact ⟨c, hc, by simp only [hnone, ← hside, hfind], iff_of_true htype hother⟩

/-- What a merchant's name is guessed and resolved to. -/
theorem resolveCategory_guess (low : Lowercase) {m : String} {merchantRaw : Option String}
    (transactionType : Option String) (hm : given merchantRaw = some m) :
    ∃ c ∈ categorySeedData, resolveCategory low categorySeedData
      (guessCategoryFromMerchant low merchantRaw transactionType) transactionType = some c ∧
      (c.categoryType = direction low transactionType ↔
        KeepsSide low merchantRaw transactionType) := by
  have hkeeps : KeepsSide low merchantRaw transactionType ↔
      (∃ p ∈ keywordCategories (direction low transactionType), Contains (low.lower m) p.1) ∨
        low.key m ∉ spellings (direction low transactionType).otherSide := by
    simp [KeepsSide, hm]
  rw [hkeeps]
  cases hp : (keywordCategories (direction low transactionType)).find? fun p =>
      Contains (low.lower m) p.1 with
  | some p =>
    have hguess : guessCategoryFromMerchant low merchantRaw transactionType = some p.2 := by
      simp only [guessCategoryFromMerchant, hm, hp]
    have hmem := List.mem_of_find?_eq_some hp
    have hcontains := List.find?_some hp
    obtain ⟨hlabel, hplain⟩ := keyword_label _ p hmem
    obtain ⟨c, hc, hnamed, htype⟩ := categoryNamed_of_spelling _ _ hlabel
    refine ⟨c, hc, ?_, iff_of_true htype (Or.inl ⟨p, hmem, of_decide_eq_true hcontains⟩)⟩
    rw [hguess]
    simp only [resolveCategory, low.key_of_plain hplain, hnamed]
  | none =>
    have hguess : guessCategoryFromMerchant low merchantRaw transactionType = some m := by
      simp only [guessCategoryFromMerchant, hm, hp]
    obtain ⟨c, hc, hres, htype⟩ := resolveCategory_side low m transactionType
    refine ⟨c, hc, hguess ▸ hres, htype.trans (or_iff_right ?_).symm⟩
    rintro ⟨p, hmem, hcontains⟩
    exact List.find?_eq_none.1 hp p hmem (decide_eq_true hcontains)

/-- The direction is income for credits only. -/
theorem direction_eq_income : direction low transactionType = .income ↔
    IsCredit low transactionType := by
  unfold direction
  split
  · next h => simp [h]
  · next h => simp [h]

end Sides

/-- The category that a synced transaction gets on ingest, over the seeded taxonomy, is an income
category exactly for credits if and only if the merchant keeps its side. -/
theorem ingest_direction_iff (low : Lowercase) {a : BankAccount} {t : SyncedTransaction}
    {d : TransactionDraft} (hd : t.draft (categoryTaxonomy low categorySeedData) a = some d) :
    (∀ c ∈ categorySeedData, d.category = some c.id →
      (c.categoryType = .income ↔ IsCredit low t.transactionType)) ↔
      KeepsSide low t.merchantRaw t.transactionType := by
  obtain ⟨date, -, rfl⟩ := Option.map_eq_some_iff.1 hd
  have hids : (categorySeedData.map (·.id)).Nodup := by decide
  cases hm : given t.merchantRaw with
  | none =>
    refine iff_of_true (fun c _ hcat => ?_) (by simp [KeepsSide, hm])
    simp [categoryTaxonomy, guessCategoryFromMerchant, hm, resolveCategory] at hcat
  | some m =>
    obtain ⟨c, hc, hres, htype⟩ := resolveCategory_guess low t.transactionType hm
    have hcat : (categoryTaxonomy low categorySeedData).resolveCategory
        ((categoryTaxonomy low categorySeedData).guessCategoryFromMerchant t.merchantRaw
          t.transactionType) t.transactionType = some c.id :=
      congrArg (Option.map fun c : CategoryRow => c.id) hres
    have hside : (c.categoryType = .income ↔ IsCredit low t.transactionType) ↔
        c.categoryType = direction low t.transactionType := by
      rw [← direction_eq_income]
      cases c.categoryType <;> cases direction low t.transactionType <;> simp
    rw [← htype, ← hside]
    constructor
    · intro h
      exact h c hc hcat
    · intro h c' hc' hcat'
      obtain rfl := Keyed.eq_of_pk hids hc' hc (Option.some.inj (hcat'.symm.trans hcat))
      exact h

/-- Lower case, on ASCII. -/
def asciiLowercase : Lowercase := ⟨fun s => String.ofList (s.toList.map Char.toLower), fun _ _ => rfl⟩

/-- A payment by card. -/
def cardPayment (merchant : String) : SyncedTransaction :=
  { transactionDate := .text "2026-07-01", merchantRaw := some merchant, amount := 6500
    transactionType := some "debit" }

/-- One at a café is no salary. -/
theorem ingest_direction_cafe :
    ((cardPayment "Costa Coffee").draft (categoryTaxonomy asciiLowercase categorySeedData)
      syncedAccount).bind (·.category) ≠ some 7 := by
  intro hcat
  obtain ⟨d, hd, hcat⟩ := Option.bind_eq_some_iff.1 hcat
  have hside := (ingest_direction_iff asciiLowercase hd).2 (by decide)
    { id := 7, name := "salary", label := "Salary", categoryType := .income } (by decide) hcat
  exact absurd (hside.1 rfl) (by decide)

/-- One at a shop that is called Salary. -/
theorem salaryMerchant_debit :
    ¬∀ (low : Lowercase) (a : BankAccount) (t : SyncedTransaction) (d : TransactionDraft),
      t.draft (categoryTaxonomy low categorySeedData) a = some d →
      ∀ c ∈ categorySeedData, d.category = some c.id →
        (c.categoryType = .income ↔ IsCredit low t.transactionType) := by
  intro h
  have hexec : ∃ d ∈ (cardPayment "Salary").draft (categoryTaxonomy asciiLowercase categorySeedData)
      syncedAccount, d.category = some 7 := by
    decide
  obtain ⟨d, hd, hcat⟩ := hexec
  have hside := h asciiLowercase syncedAccount (cardPayment "Salary") d hd
    { id := 7, name := "salary", label := "Salary", categoryType := .income } (by decide) hcat
  exact absurd (hside.1 rfl) (by decide)

end NbeAdvisor
