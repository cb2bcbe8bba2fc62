import NbeAdvisor.BankRows
import NbeAdvisor.LedgerViews
import Mathlib.Data.List.DropRight

/-!
# The views on bank accounts

`POST /accounts`, and `PATCH` and `DELETE` of one account. What a client sends as the name of
the bank comes in as a JSON value. The serializer saves the text of it without the blanks
around (`charField`), and the guard on the name, `assert_bank_not_already_synced`, gets to
see what is saved in one view and what was sent in the other.
-/

namespace NbeAdvisor

/-! ## The name in a request -/

/-- A value in the JSON of a request, with its `str` where it is no text. -/
inductive JsonValue where
  | text (s : String)
  | number (shown : String) (isZero : Bool)
  /-- `null`, a boolean, a list or an object. -/
  | other (shown : String) (asBool : Bool)
  deriving DecidableEq

namespace JsonValue

/-- The value as the response shows it. -/
def shown : JsonValue → String
  | text s | number s _ | other s _ => s

/-- What Python takes for true. -/
def truthy : JsonValue → Bool
  | text s => s ≠ ""
  | number _ isZero => !isZero
  | other _ asBool => asBool

end JsonValue

/-- What a `CharField(max_length=n)` makes of a value, unless it rejects it. -/
def charField (n : ℕ) : JsonValue → Option String
  | .other _ _ => none
  | .text s | .number s _ =>
    if strip s = "" ∨ ¬TextFits n (strip s) then none else some (strip s)

/-- The other fields of a body, as the serializer validates them. -/
structure AccountFields where
  accountType : Option (Option String) := none
  accountNumber : Option String := none
  currency : Option String := none
  isActive : Option Bool := none
  deriving DecidableEq

/-- A body of `POST` or `PATCH`. There are no `fields` if the serializer rejects one of
them. -/
structure AccountBody where
  bankName : Option JsonValue := none
  fields : Option AccountFields := some {}
  deriving DecidableEq

/-! ## The guard on the name -/

/-- The user has a synced account at the bank of this name. -/
def BankSynced (sp : Spelling) (accounts : List AccountRow) (user : UserId) (bankName : String) :
    Prop :=
  ∃ a ∈ accounts, a.user = user ∧ a.linkType = .synced ∧ sp.upper a.bankName = sp.upper bankName

instance (sp : Spelling) (accounts : List AccountRow) (user : UserId) (bankName : String) :
    Decidable (BankSynced sp accounts user bankName) := by
  unfold BankSynced
  infer_instance

/-- `assert_bank_not_already_synced`. -/
def assertBankNotAlreadySynced (sp : Spelling) (accounts : List AccountRow) (user : UserId)
    (bankName : String) : Except ApiError Unit :=
  if ¬TextStorable bankName then .error .serverError
  else if BankSynced sp accounts user bankName then
    .error (.businessRule
      ⟨"This bank is already connected; its accounts can only arrive through sync.",
        "bank_account_source_of_truth", none⟩)
  else .ok ()

/-! ## The views -/

/-- `BankAccountListCreateView.post` : the row it creates. -/
def postAccount (sp : Spelling) (accounts : List AccountRow) (user : UserId) (body : AccountBody) :
    Except ApiError AccountRow :=
  match body.bankName.bind (charField 255), body.fields with
  | some bankName, some fields =>
    match fields.accountNumber with
    | none => .error .validation
    | some accountNumber =>
      match assertBankNotAlreadySynced sp accounts user bankName with
      | .error e => .error e
      | .ok () =>
        .ok { id := Keyed.freshKey (accounts.map (·.id)), user, bankName, accountNumber
              accountType := fields.accountType.getD none
              currency := fields.currency.getD "EGP"
              isActive := fields.isActive.getD true }
  | _, _ => .error .validation

/-- `self.get_object()` of `BankAccountDetailView`. -/
def ownRow (accounts : List AccountRow) (user : UserId) (id : AccountId) : Option AccountRow :=
  accounts.find? fun a => a.id = id ∧ a.user = user

/-- The row that a partial update saves, if the serializer lets the body through. -/
def AccountBody.edit (body : AccountBody) (a : AccountRow) : Option AccountRow :=
  match body.fields, body.bankName.elim (some a.bankName) (charField 255) with
  | some fields, some bankName =>
    some { a with
      bankName
      accountType := fields.accountType.getD a.accountType
      accountNumber := fields.accountNumber.getD a.accountNumber
      currency := fields.currency.getD a.currency
      isActive := fields.isActive.getD a.isActive }
  | _, _ => none

/-- The check of `BankAccountDetailView.patch`, on the name as it was sent. -/
def assertNewBankName (sp : Spelling) (accounts : List AccountRow) (user : UserId)
    (bankName : Option JsonValue) : Except ApiError Unit :=
  match bankName.filter JsonValue.truthy with
  | none => .ok ()
  | some v => assertBankNotAlreadySynced sp accounts user v.shown

/-- `BankAccountDetailView.patch` : the row it saves. -/
def patchAccount (sp : Spelling) (accounts : List AccountRow) (user : UserId) (id : AccountId)
    (body : AccountBody) : Except ApiError AccountRow :=
  match ownRow accounts user id with
  | none => .error .notFound
  | some a =>
    match a.assertAccountMutable with
    | .error e => .error (.businessRule e)
    | .ok () =>
      match assertNewBankName sp accounts user body.bankName with
      | .error e => .error e
      | .ok () =>
        match body.edit a with
        | none => .error .validation
        | some a' => .ok a'

/-- `BankAccountDetailView.delete` : the row it deletes. -/
def deleteAccount (accounts : List AccountRow) (user : UserId) (id : AccountId) :
    Except ApiError AccountRow :=
  match ownRow accounts user id with
  | none => .error .notFound
  | some a =>
    match a.assertAccountMutable with
    | .error e => .error (.businessRule e)
    | .ok () => .ok a

/-! ## What they have checked -/

section Specs

variable {sp : Spelling} {accounts : List AccountRow} {user : UserId} {id : AccountId}
  {body : AccountBody} {a a' : AccountRow} {bankName : String}

/-- Only manual accounts pass. -/
theorem assertAccountMutable_eq_ok {a : BankAccount} (h : a.assertAccountMutable = .ok ()) :
    a.linkType = .manual := by
  unfold BankAccount.assertAccountMutable at h
  split at h
  · cases h
  next hs =>
  cases hl : a.linkType with
  | manual => rfl
  | synced => exact (hs (by simp [BankAccount.isSynced, hl])).elim

/-- Only names of no synced bank pass. -/
theorem assertBankNotAlreadySynced_eq_ok
    (h : assertBankNotAlreadySynced sp accounts user bankName = .ok ()) :
    ¬BankSynced sp accounts user bankName := by
  unfold assertBankNotAlreadySynced at h
  split at h
  · cases h
  split at h
  · cases h
  · assumption

/-- What a POST has made. -/
theorem postAccount_eq_ok (h : postAccount sp accounts user body = .ok a) :
    a.id = Keyed.freshKey (accounts.map (·.id)) ∧ a.user = user ∧ a.linkType = .manual ∧
      a.connection = none ∧ a.externalAccountId = none ∧
      ¬BankSynced sp accounts user a.bankName := by
  unfold postAccount at h
  split at h
  · split at h
    · cases h
    split at h
    · cases h
    next hname =>
    cases h
    exact ⟨rfl, rfl, rfl, rfl, rfl, assertBankNotAlreadySynced_eq_ok hname⟩
  · cases h

/-- The row is the user's. -/
theorem ownRow_eq_some (h : ownRow accounts user id = some a) :
    a ∈ accounts ∧ a.id = id ∧ a.user = user := by
  have hfound := List.find?_some h
  exact ⟨List.mem_of_find?_eq_some h, (of_decide_eq_true hfound).1, (of_decide_eq_true hfound).2⟩

/-- An edit keeps what ties the row to its user and its bank's feed. -/
theorem AccountBody.edit_eq_some (h : body.edit a = some a') : a'.id = a.id ∧ a'.user = a.user ∧
    a'.linkType = a.linkType ∧ a'.connection = a.connection ∧
    a'.externalAccountId = a.externalAccountId ∧
    body.bankName.elim (some a.bankName) (charField 255) = some a'.bankName := by
  unfold AccountBody.edit at h
  split at h
  · next hname =>
    cases h
    exact ⟨rfl, rfl, rfl, rfl, rfl, hname⟩
  · cases h

/-- What a PATCH has saved. -/
theorem patchAccount_eq_ok (h : patchAccount sp accounts user id body = .ok a') :
    ∃ a, ownRow accounts user id = some a ∧ a.linkType = .manual ∧
      assertNewBankName sp accounts user body.bankName = .ok () ∧ body.edit a = some a' := by
  unfold patchAccount at h
  split at h
  · cases h
  next a ha =>
  split at h
  · cases h
  next hmut =>
  split at h
  · cases h
  next hname =>
  split at h
  · cases h
  next hedit =>
  cases h
  exact ⟨a, ha, assertAccountMutable_eq_ok hmut, hname, hedit⟩

/-- What a DELETE has deleted. -/
theorem deleteAccount_eq_ok (h : deleteAccount accounts user id = .ok a) :
    a ∈ accounts ∧ a.id = id ∧ a.linkType = .manual := by
  unfold deleteAccount at h
  split at h
  · cases h
  next ha =>
  split at h
  · cases h
  next hmut =>
  cases h
  exact ⟨(ownRow_eq_some ha).1, (ownRow_eq_some ha).2.1, assertAccountMutable_eq_ok hmut⟩

end Specs

end NbeAdvisor
