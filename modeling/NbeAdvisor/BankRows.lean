import NbeAdvisor.Ledger

/-!
# Bank connections and synced accounts

The rows behind a bank link, and the step that every path to synced accounts shares.
A `BankConnection` is one link of a user to a provider. Two constraints keep the rows of the
table apart (`Clashes`) : one linked connection for each user and provider, and one
connection for each customer id of a provider. The customer id is nullable, also in a
response that `exchange_code_for_token` accepts.

`applySyncedAccounts` lands the accounts that a provider has returned under a connection.
It looks an account up by its id as the provider gives it, and writes what the columns make of
the entry (`ProviderAccount.cut`). So an id that is cut finds no row, and its row is in the way
of a second one. The block goes through exactly if every account has a number, the columns take
its texts, and the row of no cut id is there (`applySyncedAccounts_isOk`). Then every account has
its row, and no other row is new or changed (`applySyncedAccounts_lands`,
`applySyncedAccounts_only`). Of the rows that were there only manual accounts can be gone.
-/

namespace NbeAdvisor

/-- The key of a connection. -/
abbrev ConnectionId := ℕ

/-- How Django and the database fold the spelling of a text : the upper case that `iexact`
compares, and `normalize_email`. -/
structure Spelling where
  upper : String → String
  normalizeEmail : String → String

/-- `User`, by the columns that a bank login reads and writes. -/
structure User where
  id : UserId
  email : String
  name : String
  phone : Option String := none
  deriving DecidableEq, Repr

/-- `BankConnection.STATUS_CHOICES`. -/
inductive ConnectionStatus where
  | pendingOtp
  | linked
  | revoked
  | failed
  deriving DecidableEq, Repr

/-- `BankConnection`. -/
structure BankConnection where
  id : ConnectionId
  user : UserId
  providerSlug : String
  status : ConnectionStatus := .pendingOtp
  externalCustomerId : Option String := none
  accessToken : Option String := none
  refreshToken : Option String := none
  oauthState : Option String := none
  errorReason : Option String := none
  deriving DecidableEq, Repr

namespace BankConnection

/-- The connection carries the identity of a bank customer. -/
def Carries (c : BankConnection) (providerSlug customer : String) : Prop :=
  c.providerSlug = providerSlug ∧ c.externalCustomerId = some customer

instance (c : BankConnection) (providerSlug customer : String) :
    Decidable (c.Carries providerSlug customer) := by
  unfold Carries
  infer_instance

/-- A unique constraint refuses the one row beside the other :
`unique_active_bank_connection_per_user_provider` or `unique_bank_customer_identity`. -/
def Clashes (c d : BankConnection) : Prop :=
  c.providerSlug = d.providerSlug ∧
    ((c.user = d.user ∧ c.status = .linked ∧ d.status = .linked) ∨
      (c.externalCustomerId ≠ none ∧ c.externalCustomerId = d.externalCustomerId))

instance (c d : BankConnection) : Decidable (c.Clashes d) := by
  unfold Clashes
  infer_instance

/-- Both rows stand for one bank customer. -/
def SameCustomer (c d : BankConnection) : Prop :=
  c.providerSlug = d.providerSlug ∧ c.externalCustomerId ≠ none ∧
    c.externalCustomerId = d.externalCustomerId

theorem SameCustomer.symm {c d : BankConnection} (h : c.SameCustomer d) : d.SameCustomer c :=
  ⟨h.1.symm, h.2.2 ▸ h.2.1, h.2.2.symm⟩

/-- Two connections of one customer clash. -/
theorem SameCustomer.clashes {c d : BankConnection} (h : c.SameCustomer d) : c.Clashes d :=
  ⟨h.1, Or.inr h.2⟩

/-- The columns that a provider's answer is written to take their values. -/
def Fits (c : BankConnection) : Prop :=
  (∀ s ∈ c.externalCustomerId, TextFits 255 s) ∧
    (∀ s ∈ c.accessToken, TextStorable s) ∧ ∀ s ∈ c.refreshToken, TextStorable s

instance (c : BankConnection) : Decidable c.Fits := by
  unfold Fits
  infer_instance

end BankConnection

/-! ## What a provider answers -/

/-- The keys of `_REGISTRY`. -/
def registry : List String := ["mock_bank"]

/-- The JSON of a `/token` response. A key that is missing is null. -/
structure TokenData where
  accessToken : Option String := none
  refreshToken : Option String := none
  externalCustomerId : Option String := none
  email : Option String := none
  phone : Option String := none
  name : Option String := none
  deriving DecidableEq

/-- What a provider's token endpoint says : the tokens, and whose they are. -/
structure TokenResponse where
  accessToken : String
  refreshToken : Option String := none
  externalCustomerId : Option String := none
  email : String
  phone : String
  name : Option String := none
  deriving DecidableEq, Repr

/-- `exchange_code_for_token`, on the outcome of its request. An error is the text of the
`BankConnectorError`. -/
def exchangeCodeForToken : Except String TokenData → Except String TokenResponse
  | .error e => .error e
  | .ok data =>
    match given data.accessToken, given data.email, given data.phone with
    | some accessToken, some email, some phone =>
      .ok ⟨accessToken, data.refreshToken, data.externalCustomerId, email, phone, data.name⟩
    | _, _, _ => .error
      "mock_bank connector's /token response was missing access_token, email, or phone."

/-- One entry of what `fetch_accounts` returns. The provider's `account_number` is
nullable. -/
structure ProviderAccount where
  externalAccountId : String
  bankName : String
  accountType : Option String := none
  accountNumber : Option String := none
  currency : String := "EGP"
  deriving DecidableEq, Repr

namespace ProviderAccount

/-- What the columns make of its texts. -/
def cut (p : ProviderAccount) : ProviderAccount where
  externalAccountId := cutBlanks 255 p.externalAccountId
  bankName := cutBlanks 255 p.bankName
  accountType := p.accountType.map (cutBlanks 50)
  accountNumber := p.accountNumber.map (cutBlanks 50)
  currency := cutBlanks 10 p.currency

/-- The columns keep its texts as they are. -/
def Fits (p : ProviderAccount) : Prop :=
  TextFits 255 p.externalAccountId ∧ TextFits 255 p.bankName ∧
    (∀ s ∈ p.accountType, TextFits 50 s) ∧
    (∀ s ∈ p.accountNumber, TextFits 50 s) ∧
    TextFits 10 p.currency

instance (p : ProviderAccount) : Decidable p.Fits := by
  unfold Fits
  infer_instance

/-- The database takes the account, by itself : `account_number` is not nullable. -/
def Storable (p : ProviderAccount) : Prop := p.cut.Fits ∧ p.accountNumber ≠ none

instance (p : ProviderAccount) : Decidable p.Storable := by
  unfold Storable
  infer_instance

/-- The column cuts its id. -/
def IdCut (p : ProviderAccount) : Prop := p.cut.externalAccountId ≠ p.externalAccountId

instance (p : ProviderAccount) : Decidable p.IdCut := by
  unfold IdCut
  infer_instance

/-- A storable account has a number. -/
theorem Storable.number {p : ProviderAccount} (h : p.Storable) : p.cut.accountNumber ≠ none :=
  fun hnone => h.2 (Option.map_eq_none_iff.1 hnone)

/-- An id that fits is not cut. -/
theorem not_idCut {p : ProviderAccount} (h : TextFits 255 p.externalAccountId) : ¬p.IdCut :=
  not_not.2 h.cut_eq

end ProviderAccount

/-! ## Landing accounts -/

/-- `BankAccount`, with the columns that tie it to a connection. -/
structure AccountRow extends BankAccount where
  accountType : Option String := none
  isActive : Bool := true
  connection : Option ConnectionId := none
  externalAccountId : Option String := none
  deriving DecidableEq, Repr

namespace AccountRow

/-- The account stands for the external account `e` under the connection `c`. -/
def Holds (a : AccountRow) (c : ConnectionId) (e : String) : Prop :=
  a.connection = some c ∧ a.externalAccountId = some e

instance (a : AccountRow) (c : ConnectionId) (e : String) : Decidable (a.Holds c e) := by
  unfold Holds
  infer_instance

/-- A manual account of the connection's user under the name of the bank. -/
def Shadows (sp : Spelling) (c : BankConnection) (bankName : String) (a : AccountRow) : Prop :=
  a.user = c.user ∧ a.linkType = .manual ∧ sp.upper a.bankName = sp.upper bankName

instance (sp : Spelling) (c : BankConnection) (bankName : String) (a : AccountRow) :
    Decidable (a.Shadows sp c bankName) := by
  unfold Shadows
  infer_instance

/-- The row that `update_or_create` inserts. -/
def make (c : BankConnection) (p : ProviderAccount) (number : String) (id : AccountId) :
    AccountRow where
  id := id
  user := c.user
  bankName := p.bankName
  accountNumber := number
  currency := p.currency
  linkType := .synced
  accountType := p.accountType
  connection := some c.id
  externalAccountId := some p.externalAccountId

/-- The `defaults` of `update_or_create`. -/
def land (c : BankConnection) (p : ProviderAccount) (number : String) (a : AccountRow) :
    AccountRow :=
  { a with
    user := c.user
    linkType := .synced
    bankName := p.bankName
    accountType := p.accountType
    accountNumber := number
    currency := p.currency }

/-- The row shows what the provider says of the account. -/
def Lands (c : BankConnection) (p : ProviderAccount) (a : AccountRow) : Prop :=
  a.Holds c.id p.externalAccountId ∧ a.user = c.user ∧ a.linkType = .synced ∧
    a.bankName = p.bankName ∧ a.accountType = p.accountType ∧
    some a.accountNumber = p.accountNumber ∧ a.currency = p.currency

/-- The synced account that `b` was. -/
def Continues (a b : AccountRow) : Prop :=
  a.id = b.id ∧ a.connection = b.connection ∧ a.externalAccountId = b.externalAccountId ∧
    a.linkType = .synced

end AccountRow

/-- `BankAccount.objects.update_or_create` of one account : the table afterwards, and the instance,
which has the texts as they were given. -/
def updateOrCreateAccount (c : BankConnection) (p : ProviderAccount) (accounts : List AccountRow) :
    Except DbError (List AccountRow × AccountRow) :=
  if ¬p.cut.Fits then .error .dataError
  else
    match p.accountNumber with
    | none => .error .integrityError
    | some number =>
      match accounts.find? fun a => a.Holds c.id p.externalAccountId with
      | some a =>
        .ok (Keyed.modify (·.id) a.id (AccountRow.land c p.cut (cutBlanks 50 number)) accounts,
          a.land c p number)
      | none =>
        if ∃ a ∈ accounts, a.Holds c.id p.cut.externalAccountId then .error .integrityError
        else
          let id := Keyed.freshKey (accounts.map (·.id))
          .ok (accounts ++ [.make c p.cut (cutBlanks 50 number) id], .make c p number id)

/-- The loop over the accounts : the table afterwards and `created_accounts`. -/
def updateOrCreateAccounts (c : BankConnection) :
    List ProviderAccount → List AccountRow → Except DbError (List AccountRow × List AccountRow)
  | [], accounts => .ok (accounts, [])
  | p :: l, accounts =>
    match updateOrCreateAccount c p accounts with
    | .error e => .error e
    | .ok (accounts, a) =>
      match updateOrCreateAccounts c l accounts with
      | .error e => .error e
      | .ok (accounts, created) => .ok (accounts, a :: created)

/-- The manual accounts that the first account's bank name supersedes. -/
def superseded (sp : Spelling) (c : BankConnection) (l : List ProviderAccount)
    (accounts : List AccountRow) : List AccountRow :=
  match l with
  | [] => []
  | p :: _ => accounts.filter fun a => a.Shadows sp c p.bankName

/-- The atomic block of `apply_synced_accounts`. -/
def applySyncedAccounts (sp : Spelling) (c : BankConnection) (l : List ProviderAccount)
    (accounts : List AccountRow) : Except DbError (List AccountRow × List AccountRow) :=
  updateOrCreateAccounts c l (accounts.filter fun a => a ∉ superseded sp c l accounts)

/-- The table meets its constraints : the primary key, the width of `external_account_id`, and
`unique_external_account_per_connection`. -/
structure AccountsSound (accounts : List AccountRow) : Prop where
  ids : (accounts.map (·.id)).Nodup
  widths : ∀ a ∈ accounts, ∀ e ∈ a.externalAccountId, TextFits 255 e
  slots : ∀ a ∈ accounts, ∀ b ∈ accounts, ∀ (c : ConnectionId) (e : String),
    a.Holds c e → b.Holds c e → a.id = b.id

/-- No accounts at all. -/
theorem AccountsSound.nil : AccountsSound [] where
  ids := List.nodup_nil
  widths := by simp
  slots := by simp

/-- What the database takes of a list of accounts, into this table. -/
structure Landable (c : BankConnection) (accounts : List AccountRow) (l : List ProviderAccount) :
    Prop where
  storable : ∀ p ∈ l, p.Storable
  /-- No row stands for a cut id, and no earlier entry makes one. -/
  free : ∀ p ∈ l, p.IdCut → ∀ a ∈ accounts, ¬a.Holds c.id p.cut.externalAccountId
  once : l.Pairwise fun q p => p.IdCut → q.cut.externalAccountId ≠ p.cut.externalAccountId

instance decidableLandable (c : BankConnection) (accounts : List AccountRow)
    (l : List ProviderAccount) : Decidable (Landable c accounts l) :=
  decidable_of_iff ((∀ p ∈ l, p.Storable) ∧
    (∀ p ∈ l, p.IdCut → ∀ a ∈ accounts, ¬a.Holds c.id p.cut.externalAccountId) ∧
    l.Pairwise fun q p => p.IdCut → q.cut.externalAccountId ≠ p.cut.externalAccountId)
    ⟨fun ⟨h₁, h₂, h₃⟩ => ⟨h₁, h₂, h₃⟩, fun h => ⟨h.storable, h.free, h.once⟩⟩

/-- With ids that fit, the accounts only need to be storable. -/
theorem landable_of_fits {c : BankConnection} {accounts : List AccountRow}
    {l : List ProviderAccount} (hl : ∀ p ∈ l, p.Storable)
    (hids : ∀ p ∈ l, TextFits 255 p.externalAccountId) :
    Landable c accounts l where
  storable := hl
  free p hp hcut := (ProviderAccount.not_idCut (hids p hp) hcut).elim
  once := List.pairwise_of_forall_mem_list fun _ _ p hp hcut =>
    (ProviderAccount.not_idCut (hids p hp) hcut).elim

section UpdateOrCreate

variable {c : BankConnection} {p : ProviderAccount} {l : List ProviderAccount}
  {accounts accounts' created : List AccountRow} {a b row : AccountRow} {e : String}

/-- A new row shows the account. -/
theorem AccountRow.make_lands (c : BankConnection) (hn : some number = p.accountNumber)
    (id : AccountId) : (AccountRow.make c p number id).Lands c p :=
  ⟨⟨rfl, rfl⟩, rfl, rfl, rfl, rfl, hn, rfl⟩

/-- A row that is written over shows it too. -/
theorem AccountRow.land_lands (ha : a.Holds c.id p.externalAccountId)
    (hn : some number = p.accountNumber) : (a.land c p number).Lands c p :=
  ⟨ha, rfl, rfl, rfl, rfl, hn, rfl⟩

/-- What `update_or_create` has written : over the row that holds the account, or as a new row. -/
inductive AccountWritten (c : BankConnection) (p : ProviderAccount) (accounts : List AccountRow) :
    List AccountRow → AccountRow → Prop where
  | renewed {b : AccountRow} {number : String} : b ∈ accounts → b.Holds c.id p.externalAccountId →
      some number = p.cut.accountNumber → AccountWritten c p accounts
        (Keyed.modify (·.id) b.id (AccountRow.land c p.cut number) accounts) (b.land c p.cut number)
  | new {number : String} : (∀ b ∈ accounts, ¬b.Holds c.id p.externalAccountId) →
      (∀ b ∈ accounts, ¬b.Holds c.id p.cut.externalAccountId) →
      some number = p.cut.accountNumber → AccountWritten c p accounts
        (accounts ++ [.make c p.cut number (Keyed.freshKey (accounts.map (·.id)))])
        (.make c p.cut number (Keyed.freshKey (accounts.map (·.id))))

/-- What `update_or_create` writes if it goes through. -/
theorem updateOrCreateAccount_eq_ok
    (h : updateOrCreateAccount c p accounts = .ok (accounts', a)) :
    p.Storable ∧ ∃ row, AccountWritten c p accounts accounts' row ∧ row.id = a.id := by
  unfold updateOrCreateAccount at h
  split at h
  · cases h
  next hf =>
  split at h
  · cases h
  next number hn =>
  have hs : p.Storable := ⟨not_not.1 hf, by simp [hn]⟩
  have hnumber : some (cutBlanks 50 number) = p.cut.accountNumber := by
    rw [ProviderAccount.cut, hn]
    rfl
  split at h
  · next b hb =>
    cases h
    have hholds : b.Holds c.id p.externalAccountId := by simpa using List.find?_some hb
    exact ⟨hs, _, .renewed (List.mem_of_find?_eq_some hb) hholds hnumber, rfl⟩
  · next hb =>
    split at h
    · cases h
    next hclash =>
    cases h
    exact ⟨hs, _, .new (by simpa using hb) (fun b hb hholds => hclash ⟨b, hb, hholds⟩) hnumber, rfl⟩

/-- In a sound table a row holds its id as the column keeps it. -/
theorem AccountsSound.holds_cut (hs : AccountsSound accounts) (hb : b ∈ accounts)
    (h : b.Holds c.id p.externalAccountId) : b.Holds c.id p.cut.externalAccountId := by
  have hcut := (hs.widths b hb _ h.2).cut_eq
  exact ⟨h.1, h.2.trans (congrArg some hcut.symm)⟩

/-- The row that was written shows the account. -/
theorem AccountWritten.lands (hs : AccountsSound accounts)
    (h : AccountWritten c p accounts accounts' row) : row.Lands c p.cut := by
  cases h with
  | renewed hb hholds hn => exact AccountRow.land_lands (hs.holds_cut hb hholds) hn
  | new _ _ hn => exact AccountRow.make_lands c hn _

/-- Only the row of the account is new or changed. -/
theorem AccountWritten.mem (hs : AccountsSound accounts)
    (h : AccountWritten c p accounts accounts' row) :
    b ∈ accounts' ↔ b = row ∨ (b ∈ accounts ∧ b.id ≠ row.id) := by
  cases h with
  | @renewed d number hd hholds hn =>
    rw [Keyed.mem_modify]
    constructor
    · rintro (hb | ⟨u, hu, huid, rfl⟩)
      · exact Or.inr hb
      · exact Or.inl (Keyed.eq_of_pk hs.ids hu hd huid ▸ rfl)
    · rintro (rfl | hb)
      · exact Or.inr ⟨d, hd, rfl, rfl⟩
      · exact Or.inl hb
  | new hnone _ hn =>
    rw [List.mem_append, List.mem_singleton]
    constructor
    · rintro (hb | rfl)
      · exact Or.inr ⟨hb, Keyed.ne_freshKey (fun a : AccountRow => a.id) hb⟩
      · exact Or.inl rfl
    · rintro (rfl | hb)
      · exact Or.inr rfl
      · exact Or.inl hb.1

/-- A row that is gone held the account that has been written. -/
theorem AccountWritten.replaced (hs : AccountsSound accounts)
    (h : AccountWritten c p accounts accounts' row) (hb : b ∈ accounts) (hid : b.id = row.id) :
    b.Holds c.id p.cut.externalAccountId := by
  cases h with
  | @renewed d number hd hholds hn =>
    obtain rfl : b = d := Keyed.eq_of_pk hs.ids hb hd hid
    exact hs.holds_cut hb hholds
  | new hnone _ hn => exact (Keyed.ne_freshKey (fun a : AccountRow => a.id) hb hid).elim

/-- A row beside the written one does not hold its account. -/
theorem AccountWritten.beside (hs : AccountsSound accounts)
    (h : AccountWritten c p accounts accounts' row) (hb : b ∈ accounts) (hid : b.id ≠ row.id) :
    ¬b.Holds c.id p.cut.externalAccountId := by
  intro hholds
  cases h with
  | @renewed d number hd hd' hn => exact hid (hs.slots b hb d hd _ _ hholds (hs.holds_cut hd hd'))
  | new _ hnone hn => exact hnone b hb hholds

/-- A written row keeps the table sound. -/
theorem AccountsSound.written (hs : AccountsSound accounts) (hp : p.Storable)
    (h : AccountWritten c p accounts accounts' row) : AccountsSound accounts' := by
  have hlands := h.lands hs
  have hother : ∀ w ∈ accounts, w.id ≠ row.id → ∀ k e, w.Holds k e → row.Holds k e → False := by
    intro w hw hwa k e hwe hae
    obtain ⟨rfl, rfl⟩ : c.id = k ∧ p.cut.externalAccountId = e :=
      ⟨Option.some.inj (hlands.1.1.symm.trans hae.1), Option.some.inj (hlands.1.2.symm.trans hae.2)⟩
    exact h.beside hs hw hwa hwe
  refine ⟨?_, fun u hu e he => ?_, fun u hu v hv k e hue hve => ?_⟩
  · cases h with
    | @renewed d number hd hholds hn =>
      rw [Keyed.map_modify (f := AccountRow.land c p.cut number) fun _ => rfl]
      exact hs.ids
    | new hnone _ hn =>
      exact Keyed.nodup_map_snoc hs.ids fun u hu =>
        Keyed.ne_freshKey (fun a : AccountRow => a.id) hu
  · rcases (h.mem hs).1 hu with rfl | ⟨hu, -⟩
    · obtain rfl : p.cut.externalAccountId = e := Option.some.inj (hlands.1.2.symm.trans he)
      exact hp.1.1
    · exact hs.widths u hu e he
  · rcases (h.mem hs).1 hu with rfl | ⟨hu, hua⟩
    · rcases (h.mem hs).1 hv with rfl | ⟨hv, hva⟩
      · rfl
      · exact (hother v hv hva k e hve hue).elim
    · rcases (h.mem hs).1 hv with rfl | ⟨hv, hva⟩
      · exact (hother u hu hua k e hue hve).elim
      · exact hs.slots u hu v hv k e hue hve

/-- The external accounts of the connection, after one more. -/
theorem AccountWritten.holds_iff (hs : AccountsSound accounts)
    (h : AccountWritten c p accounts accounts' row) :
    (∃ a ∈ accounts', a.Holds c.id e) ↔
      (∃ a ∈ accounts, a.Holds c.id e) ∨ p.cut.externalAccountId = e := by
  have hlands := h.lands hs
  constructor
  · rintro ⟨b, hb, hholds⟩
    rcases (h.mem hs).1 hb with rfl | ⟨hb, -⟩
    · exact Or.inr (Option.some.inj (hlands.1.2.symm.trans hholds.2))
    · exact Or.inl ⟨b, hb, hholds⟩
  · rintro (⟨b, hb, hholds⟩ | rfl)
    · by_cases hid : b.id = row.id
      · obtain ⟨-, he⟩ := h.replaced hs hb hid
        obtain rfl : p.cut.externalAccountId = e := Option.some.inj (he.symm.trans hholds.2)
        exact ⟨row, (h.mem hs).2 (Or.inl rfl), hlands.1⟩
      · exact ⟨b, (h.mem hs).2 (Or.inr ⟨hb, hid⟩), hholds⟩
    · exact ⟨row, (h.mem hs).2 (Or.inl rfl), hlands.1⟩

/-- One account lands exactly if it is storable and a cut id is not there. -/
theorem updateOrCreateAccount_isOk (hs : AccountsSound accounts) :
    (∃ x, updateOrCreateAccount c p accounts = .ok x) ↔ p.Storable ∧
      (p.IdCut → ∀ a ∈ accounts, ¬a.Holds c.id p.cut.externalAccountId) := by
  constructor
  · rintro ⟨⟨accounts', a⟩, h⟩
    obtain ⟨hp, row, hw, -⟩ := updateOrCreateAccount_eq_ok h
    refine ⟨hp, fun hcut b hb hholds => ?_⟩
    cases hw with
    | @renewed d number hd hd' hn =>
      exact hcut (Option.some.inj ((hs.holds_cut hd hd').2.symm.trans hd'.2))
    | new _ hnone hn => exact hnone b hb hholds
  · rintro ⟨⟨hf, hn⟩, hfree⟩
    obtain ⟨number, hnumber⟩ := Option.ne_none_iff_exists'.1 hn
    simp only [updateOrCreateAccount, if_neg (not_not.2 hf), hnumber]
    split
    · exact ⟨_, rfl⟩
    · next hnone =>
      rw [if_neg]
      · exact ⟨_, rfl⟩
      rintro ⟨a, ha, hholds⟩
      by_cases hcut : p.IdCut
      · exact hfree hcut a ha hholds
      · rw [not_not.1 hcut] at hholds
        exact absurd hholds (by simpa using List.find?_eq_none.1 hnone a ha)

/-- What one write of an account preserves, the whole loop preserves. -/
theorem updateOrCreateAccounts_induct {P : List AccountRow → Prop}
    (hP : ∀ p ∈ l, ∀ accounts accounts' a, P accounts →
      updateOrCreateAccount c p accounts = .ok (accounts', a) → P accounts')
    (h : updateOrCreateAccounts c l accounts = .ok (accounts', created)) (hstart : P accounts) :
    P accounts' := by
  induction l generalizing accounts created with
  | nil =>
    cases h
    exact hstart
  | cons p l ih =>
    unfold updateOrCreateAccounts at h
    split at h
    · cases h
    next accounts₁ a hone =>
    split at h
    · cases h
    next hrest =>
    cases h
    exact ih (fun q hq => hP q (List.mem_cons_of_mem _ hq)) hrest
      (hP p List.mem_cons_self _ _ _ hstart hone)

/-- The loop goes through exactly if all accounts can land. -/
theorem updateOrCreateAccounts_isOk (hs : AccountsSound accounts) :
    (∃ x, updateOrCreateAccounts c l accounts = .ok x) ↔ Landable c accounts l := by
  induction l generalizing accounts with
  | nil => exact iff_of_true ⟨_, rfl⟩ ⟨by simp, by simp, .nil⟩
  | cons p l ih =>
    have hone := updateOrCreateAccount_isOk (c := c) (p := p) hs
    unfold updateOrCreateAccounts
    cases h : updateOrCreateAccount c p accounts with
    | error e =>
      refine iff_of_false (by simp) fun hl => ?_
      obtain ⟨x, hx⟩ := hone.2 ⟨hl.storable p List.mem_cons_self, hl.free p List.mem_cons_self⟩
      cases hx.symm.trans h
    | ok x =>
      obtain ⟨accounts₁, a⟩ := x
      obtain ⟨hp, hfree⟩ := hone.1 ⟨_, h⟩
      obtain ⟨-, row, hw, -⟩ := updateOrCreateAccount_eq_ok h
      have hrest := ih (hs.written hp hw)
      have hsplit : (∃ x, updateOrCreateAccounts c l accounts₁ = .ok x) ↔
          Landable c accounts (p :: l) := by
        rw [hrest]
        constructor
        · intro hl
          refine ⟨List.forall_mem_cons.2 ⟨hp, hl.storable⟩, List.forall_mem_cons.2 ⟨hfree, ?_⟩,
            List.pairwise_cons.2 ⟨fun q hq hcut heq => ?_, hl.once⟩⟩
          · intro q hq hcut b hb hholds
            obtain ⟨u, hu, hu'⟩ := (hw.holds_iff hs).2 (Or.inl ⟨b, hb, hholds⟩)
            exact hl.free q hq hcut u hu hu'
          · obtain ⟨u, hu, hu'⟩ := (hw.holds_iff hs).2 (Or.inr heq)
            exact hl.free q hq hcut u hu hu'
        · intro hl
          obtain ⟨hhead, htail⟩ := List.pairwise_cons.1 hl.once
          refine ⟨fun q hq => hl.storable q (List.mem_cons_of_mem _ hq),
            fun q hq hcut u hu hu' => ?_, htail⟩
          rcases (hw.holds_iff hs).1 ⟨u, hu, hu'⟩ with ⟨b, hb, hholds⟩ | heq
          · exact hl.free q (List.mem_cons_of_mem _ hq) hcut b hb hholds
          · exact hhead q hq hcut heq
      rw [← hsplit]
      dsimp only
      cases updateOrCreateAccounts c l accounts₁ with
      | error e => simp
      | ok x => exact iff_of_true ⟨_, rfl⟩ ⟨_, rfl⟩

/-- The loop returns a row for each account. -/
theorem updateOrCreateAccounts_length
    (h : updateOrCreateAccounts c l accounts = .ok (accounts', created)) :
    created.length = l.length := by
  induction l generalizing accounts created with
  | nil =>
    cases h
    rfl
  | cons p l ih =>
    unfold updateOrCreateAccounts at h
    split at h
    · cases h
    split at h
    · cases h
    next hrest =>
    cases h
    exact congrArg (· + 1) (ih hrest)

/-- One account keeps the table sound. -/
theorem AccountsSound.updateOrCreate (hs : AccountsSound accounts)
    (h : updateOrCreateAccount c p accounts = .ok (accounts', a)) : AccountsSound accounts' := by
  obtain ⟨hp, row, hw, -⟩ := updateOrCreateAccount_eq_ok h
  exact hs.written hp hw

/-- So do all. -/
theorem AccountsSound.updateOrCreateAll (hs : AccountsSound accounts)
    (h : updateOrCreateAccounts c l accounts = .ok (accounts', created)) :
    AccountsSound accounts' :=
  updateOrCreateAccounts_induct (fun _ _ _ _ _ hs hone => hs.updateOrCreate hone) h hs

/-- A row that is new or changed shows one of the accounts. -/
theorem updateOrCreateAccounts_only (hs : AccountsSound accounts)
    (h : updateOrCreateAccounts c l accounts = .ok (accounts', created)) (hb : b ∈ accounts') :
    b ∈ accounts ∨ ∃ p ∈ l, b.Lands c p.cut := by
  have hall := updateOrCreateAccounts_induct (P := fun rows => AccountsSound rows ∧
    ∀ b ∈ rows, b ∈ accounts ∨ ∃ p ∈ l, b.Lands c p.cut) (fun p hp rows rows' a hrows hone => ?_) h
    ⟨hs, fun b hb => Or.inl hb⟩
  · exact hall.2 b hb
  obtain ⟨-, row, hw, -⟩ := updateOrCreateAccount_eq_ok hone
  refine ⟨hrows.1.updateOrCreate hone, fun b hb => ?_⟩
  rcases (hw.mem hrows.1).1 hb with rfl | ⟨hb, -⟩
  · exact Or.inr ⟨p, hp, hw.lands hrows.1⟩
  · exact hrows.2 b hb

/-- A synced row stays, under its connection and external account. -/
theorem updateOrCreateAccounts_keeps
    (h : updateOrCreateAccounts c l accounts = .ok (accounts', created)) (hb : b ∈ accounts)
    (hsynced : b.linkType = .synced) : ∃ b' ∈ accounts', b'.Continues b := by
  refine updateOrCreateAccounts_induct (P := fun rows => ∃ b' ∈ rows, b'.Continues b)
    (fun p _ rows rows' a hrows hone => ?_) h ⟨b, hb, rfl, rfl, rfl, hsynced⟩
  obtain ⟨b', hb', hid, hc, he, hl⟩ := hrows
  obtain ⟨-, row, hw, -⟩ := updateOrCreateAccount_eq_ok hone
  cases hw with
  | @renewed d number hd hholds hn =>
    obtain ⟨u, hu, rfl | ⟨-, rfl⟩⟩ :=
      @Keyed.exists_mem_modify _ _ _ (fun a => a.id) d.id (AccountRow.land c p.cut number) _ _ hb'
    · exact ⟨u, hu, hid, hc, he, hl⟩
    · exact ⟨_, hu, hid, hc, he, rfl⟩
  | new => exact ⟨b', List.mem_append_left _ hb', hid, hc, he, hl⟩

/-- The returned row still has the id as the provider gave it. -/
theorem updateOrCreateAccount_given (h : updateOrCreateAccount c p accounts = .ok (accounts', a)) :
    a.externalAccountId = some p.externalAccountId := by
  unfold updateOrCreateAccount at h
  split at h
  · cases h
  split at h
  · cases h
  split at h
  · next b hb =>
    cases h
    have hholds : b.Holds c.id p.externalAccountId := by simpa using List.find?_some hb
    exact hholds.2
  · split at h
    · cases h
    · cases h
      rfl

/-- An instance has the id that the provider gave, and its row stands for the account. -/
theorem updateOrCreateAccounts_created (hs : AccountsSound accounts)
    (h : updateOrCreateAccounts c l accounts = .ok (accounts', created)) (ha : a ∈ created) :
    ∃ p ∈ l, a.externalAccountId = some p.externalAccountId ∧ ∃ row ∈ accounts', row.id = a.id ∧
      row.Holds c.id p.cut.externalAccountId ∧ row.linkType = .synced := by
  induction l generalizing accounts created with
  | nil =>
    cases h
    cases ha
  | cons p l ih =>
    unfold updateOrCreateAccounts at h
    split at h
    · cases h
    next accounts₁ a₁ hone =>
    split at h
    · cases h
    next created₁ hrest =>
    cases h
    rcases List.mem_cons.1 ha with rfl | ha
    · obtain ⟨-, row, hw, hid⟩ := updateOrCreateAccount_eq_ok hone
      have hlands := hw.lands hs
      obtain ⟨row', hrow', hcont⟩ := updateOrCreateAccounts_keeps hrest
        ((hw.mem hs).2 (Or.inl rfl)) hlands.2.2.1
      exact ⟨p, List.mem_cons_self, updateOrCreateAccount_given hone, row', hrow',
        hcont.1.trans hid, ⟨hcont.2.1.trans hlands.1.1, hcont.2.2.1.trans hlands.1.2⟩, hcont.2.2.2⟩
    · obtain ⟨q, hq, hgiven, hrow⟩ := ih (hs.updateOrCreate hone) hrest ha
      exact ⟨q, List.mem_cons_of_mem _ hq, hgiven, hrow⟩

/-- Every account has a row, which shows it, or another entry of the list for it. -/
theorem updateOrCreateAccounts_lands (hs : AccountsSound accounts)
    (h : updateOrCreateAccounts c l accounts = .ok (accounts', created)) (hp : p ∈ l) :
    ∃ b ∈ accounts', ∃ q ∈ l, q.cut.externalAccountId = p.cut.externalAccountId ∧
      b.Lands c q.cut := by
  induction l generalizing accounts created with
  | nil => simp at hp
  | cons p₁ l ih =>
    unfold updateOrCreateAccounts at h
    split at h
    · cases h
    next accounts₁ a hone =>
    split at h
    · cases h
    next hrest =>
    cases h
    have hs₁ := hs.updateOrCreate hone
    obtain ⟨-, row, hw, -⟩ := updateOrCreateAccount_eq_ok hone
    rcases List.mem_cons.1 hp with rfl | hp
    · have hkept := updateOrCreateAccounts_induct (P := fun rows => AccountsSound rows ∧
        ∃ b ∈ rows, ∃ q ∈ p :: l, q.cut.externalAccountId = p.cut.externalAccountId ∧
          b.Lands c q.cut) (fun p' hp' rows rows' a' hrows hone' => ?_) hrest
        ⟨hs₁, row, (hw.mem hs).2 (Or.inl rfl), p, List.mem_cons_self, rfl, hw.lands hs⟩
      · exact hkept.2
      obtain ⟨hs', b, hb, q, hq, hqp, hlands⟩ := hrows
      obtain ⟨-, row', hw', -⟩ := updateOrCreateAccount_eq_ok hone'
      refine ⟨hs'.updateOrCreate hone', ?_⟩
      by_cases hba : b.id = row'.id
      · have hholds := hw'.replaced hs' hb hba
        refine ⟨row', (hw'.mem hs').2 (Or.inl rfl), p', List.mem_cons_of_mem _ hp', ?_,
          hw'.lands hs'⟩
        exact (Option.some.inj (hholds.2.symm.trans hlands.1.2)).trans hqp
      · exact ⟨b, (hw'.mem hs').2 (Or.inr ⟨hb, hba⟩), q, hq, hqp, hlands⟩
    · obtain ⟨b, hb, q, hq, hqp, hlands⟩ := ih hs₁ hrest hp
      exact ⟨b, hb, q, List.mem_cons_of_mem _ hq, hqp, hlands⟩

/-- The external accounts of the connection, after all of them. -/
theorem updateOrCreateAccounts_holds (hs : AccountsSound accounts)
    (h : updateOrCreateAccounts c l accounts = .ok (accounts', created)) :
    (∃ a ∈ accounts', a.Holds c.id e) ↔
      (∃ a ∈ accounts, a.Holds c.id e) ∨ ∃ p ∈ l, p.cut.externalAccountId = e := by
  induction l generalizing accounts created with
  | nil =>
    cases h
    simp
  | cons p l ih =>
    unfold updateOrCreateAccounts at h
    split at h
    · cases h
    next accounts₁ a hone =>
    split at h
    · cases h
    next hrest =>
    cases h
    obtain ⟨-, row, hw, -⟩ := updateOrCreateAccount_eq_ok hone
    rw [ih (hs.updateOrCreate hone) hrest, hw.holds_iff hs, or_assoc, List.exists_mem_cons_iff]

end UpdateOrCreate

/-! ## The whole block -/

section Apply

variable {sp : Spelling} {c : BankConnection} {l : List ProviderAccount}
  {accounts accounts' created : List AccountRow} {a : AccountRow} {p : ProviderAccount}

/-- Deletions keep the table sound. -/
theorem AccountsSound.filter (hs : AccountsSound accounts) (q : AccountRow → Bool) :
    AccountsSound (accounts.filter q) where
  ids := hs.ids.sublist (List.filter_sublist.map _)
  widths a ha := hs.widths a (List.mem_of_mem_filter ha)
  slots a ha b hb := hs.slots a (List.mem_of_mem_filter ha) b (List.mem_of_mem_filter hb)

/-- The rows that the first account's bank name leaves. -/
def remaining (sp : Spelling) (c : BankConnection) (l : List ProviderAccount)
    (accounts : List AccountRow) : List AccountRow :=
  accounts.filter fun a => a ∉ superseded sp c l accounts

/-- The block goes through exactly if the database takes every account. -/
theorem applySyncedAccounts_isOk (sp : Spelling) (c : BankConnection) (l : List ProviderAccount)
    (hs : AccountsSound accounts) : (∃ x, applySyncedAccounts sp c l accounts = .ok x) ↔
      Landable c (remaining sp c l accounts) l :=
  updateOrCreateAccounts_isOk (hs.filter _)

/-- So does the whole block. -/
theorem AccountsSound.apply (hs : AccountsSound accounts)
    (h : applySyncedAccounts sp c l accounts = .ok (accounts', created)) : AccountsSound accounts' :=
  (hs.filter _).updateOrCreateAll h

/-- No other row is new or changed. -/
theorem applySyncedAccounts_only (hs : AccountsSound accounts)
    (h : applySyncedAccounts sp c l accounts = .ok (accounts', created)) (ha : a ∈ accounts') :
    a ∈ accounts ∨ ∃ p ∈ l, a.Lands c p.cut := by
  rcases updateOrCreateAccounts_only (hs.filter _) h ha with ha | ha
  · exact Or.inl (List.mem_of_mem_filter ha)
  · exact Or.inr ha

/-- What is superseded is manual. -/
theorem of_mem_superseded (ha : a ∈ superseded sp c l accounts) :
    a ∈ accounts ∧ a.linkType = .manual := by
  unfold superseded at ha
  split at ha
  · cases ha
  · exact ⟨List.mem_of_mem_filter ha, (of_decide_eq_true (List.mem_filter.1 ha).2).2.1⟩

/-- Synced rows stay the rows of their accounts. -/
theorem applySyncedAccounts_keeps
    (h : applySyncedAccounts sp c l accounts = .ok (accounts', created)) (ha : a ∈ accounts)
    (hsynced : a.linkType = .synced) : ∃ a' ∈ accounts', a'.Continues a := by
  refine updateOrCreateAccounts_keeps h (List.mem_filter.2 ⟨ha, decide_eq_true fun hsup => ?_⟩) hsynced
  have hmanual := (of_mem_superseded hsup).2
  rw [hsynced] at hmanual
  cases hmanual

/-- Every returned row stands for a row of the table that holds its account. -/
theorem applySyncedAccounts_created (hs : AccountsSound accounts)
    (h : applySyncedAccounts sp c l accounts = .ok (accounts', created)) (ha : a ∈ created) :
    ∃ p ∈ l, a.externalAccountId = some p.externalAccountId ∧ ∃ row ∈ accounts', row.id = a.id ∧
      row.Holds c.id p.cut.externalAccountId ∧ row.linkType = .synced :=
  updateOrCreateAccounts_created (hs.filter _) h ha

/-- Every account has its row, which shows the last entry for it. -/
theorem applySyncedAccounts_lands (hs : AccountsSound accounts)
    (h : applySyncedAccounts sp c l accounts = .ok (accounts', created)) (hp : p ∈ l) :
    ∃ a ∈ accounts', ∃ q ∈ l, q.cut.externalAccountId = p.cut.externalAccountId ∧ a.Lands c q.cut :=
  updateOrCreateAccounts_lands (hs.filter _) h hp

end Apply

end NbeAdvisor
