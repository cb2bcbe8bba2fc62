import NbeAdvisor.Calendar
import Mathlib.Algebra.Order.Ring.Rat
import Mathlib.Data.List.DropRight

/-!
# Rows, errors and the guards on them

The rows that several parts of the backend share : bank accounts, statement files and
what a phase leaves behind for a statement. `validateAdvance` and
`assertAccountMutable` are the guards that the request handlers put in front of their
writes; both answer with a `BusinessRuleError`, which the API renders as a 422.
-/

namespace NbeAdvisor

/-- The key of a user. -/
abbrev UserId := ℕ
/-- The key of a bank account. -/
abbrev AccountId := ℕ
/-- The key of a statement. -/
abbrev StatementId := ℕ
/-- The key of a conversation. -/
abbrev ConversationId := ℕ
/-- The key of a message. -/
abbrev MessageId := ℕ

/-- Microseconds. -/
abbrev Instant := ℤ

/-! ## Texts -/

/-- `str.isspace` on one character. -/
def isSpace (c : Char) : Bool :=
  (9 ≤ c.toNat ∧ c.toNat ≤ 13) ∨ (28 ≤ c.toNat ∧ c.toNat ≤ 32) ∨
    (0x2000 ≤ c.toNat ∧ c.toNat ≤ 0x200a) ∨
    c.toNat ∈ [0x85, 0xa0, 0x1680, 0x2028, 0x2029, 0x202f, 0x205f, 0x3000]

/-- `str.strip`. -/
def strip (s : String) : String :=
  String.ofList ((s.toList.dropWhile isSpace).rdropWhile isSpace)

/-- A text that Python takes for true. -/
def given : Option String → Option String
  | some "" => none
  | o => o

/-- A text is given if it is there and not empty. -/
theorem given_eq_some {o : Option String} {s : String} : given o = some s ↔ o = some s ∧ s ≠ "" := by
  unfold given
  split
  · simp
  · next hne =>
    refine (and_iff_left_of_imp ?_).symm
    rintro rfl rfl
    exact hne rfl

/-! ## Errors -/

/-- `BusinessRuleError` : message, `error.code`, and the payload of `error.fields`. -/
structure BusinessRuleError where
  message : String
  code : String
  fields : Option (String × List String) := none
  deriving DecidableEq, Repr

theorem eq_ok_of_toOption {ε α : Type*} {x : Except ε α} {a : α} (h : x.toOption = some a) :
    x = .ok a := by
  cases x with
  | error e => cases h
  | ok b => exact congrArg _ (Option.some.inj h)

theorem exists_ok {ε α : Type*} {x : Except ε α} (h : x.toOption.isSome = true) :
    ∃ a, x = .ok a := by
  obtain ⟨a, ha⟩ := Option.isSome_iff_exists.1 h
  exact ⟨a, eq_ok_of_toOption ha⟩

/-! ## Bank accounts -/

/-- `BankAccount.link_type`. -/
inductive LinkType where
  | manual
  | synced
  deriving DecidableEq, Repr

/-- `BankAccount`, by what the ledger reads. -/
structure BankAccount where
  id : AccountId
  user : UserId
  bankName : String
  accountNumber : String
  currency : String := "EGP"
  linkType : LinkType := .manual
  deriving DecidableEq, Repr

namespace BankAccount

/-- The account is linked to a bank. -/
def isSynced (a : BankAccount) : Bool := a.linkType = .synced

/-- `assert_account_mutable`. -/
def assertAccountMutable (a : BankAccount) : Except BusinessRuleError Unit :=
  if a.isSynced then
    .error ⟨"This account is bank-integrated and syncs automatically; " ++
      "it can't be edited or deleted manually.", "synced_account_read_only", none⟩
  else .ok ()

end BankAccount

/-! ## Statement files -/

/-- `StatementFile.STATUS_CHOICES` : the last phase that has completed. -/
inductive StatementStatus where
  | uploaded
  | extracted
  | normalized
  | approved
  deriving DecidableEq, Repr

/-- `StatementFile.FAILED_PHASE_CHOICES`. -/
inductive Phase where
  | extraction
  | normalization
  deriving DecidableEq, Repr

namespace StatementStatus

/-- `_STATUS_ORDER.index`. -/
def rank : StatementStatus → ℕ
  | uploaded => 0
  | extracted => 1
  | normalized => 2
  | approved => 3

@[simp] theorem rank_uploaded : rank .uploaded = 0 := rfl
@[simp] theorem rank_extracted : rank .extracted = 1 := rfl
@[simp] theorem rank_normalized : rank .normalized = 2 := rfl
@[simp] theorem rank_approved : rank .approved = 3 := rfl

/-- No two statuses have one rank. -/
theorem rank_injective : Function.Injective rank := by
  intro s t h
  cases s <;> cases t <;> first | rfl | simp at h

/-- `_PHASE_FOR_STATUS.get` : the phase that runs from a status. -/
def phaseForStatus : StatementStatus → Option Phase
  | uploaded => some .extraction
  | extracted => some .normalization
  | normalized => none
  | approved => none

end StatementStatus

/-- The status a phase starts from. -/
def Phase.source : Phase → StatementStatus
  | extraction => .uploaded
  | normalization => .extracted

/-- The status a phase ends in. -/
def Phase.result : Phase → StatementStatus
  | extraction => .extracted
  | normalization => .normalized

/-- The phase that a status is before. -/
theorem phaseForStatus_eq_some {s : StatementStatus} {p : Phase} :
    s.phaseForStatus = some p ↔ s = p.source := by
  cases s <;> cases p <;> simp [StatementStatus.phaseForStatus, Phase.source]

/-- The phases start from different statuses. -/
theorem Phase.source_injective : Function.Injective Phase.source := by
  intro p q h
  cases p <;> cases q <;> first | rfl | cases h

@[simp] theorem phaseForStatus_source (p : Phase) : p.source.phaseForStatus = some p :=
  phaseForStatus_eq_some.2 rfl

/-- A phase runs from every status short of `normalized`. -/
theorem exists_source_of_rank {s : StatementStatus} (h : s.rank < 2) : ∃ p : Phase, s = p.source := by
  cases s with
  | uploaded => exact ⟨.extraction, rfl⟩
  | extracted => exact ⟨.normalization, rfl⟩
  | normalized | approved => simp at h

@[simp] theorem Phase.rank_result (p : Phase) : p.result.rank = p.source.rank + 1 := by
  cases p <;> rfl

/-- A target the upload and retry serializers accept (`_ADVANCE_TARGET_CHOICES`). -/
structure AdvanceTarget where
  status : StatementStatus
  choice : status = .extracted ∨ status = .normalized
  deriving DecidableEq

namespace AdvanceTarget

/-- The pipeline is to stop before the normalization. -/
def extracted : AdvanceTarget := ⟨.extracted, Or.inl rfl⟩

/-- The default of the upload serializer. -/
def normalized : AdvanceTarget := ⟨.normalized, Or.inr rfl⟩

/-- The pipeline does not approve. -/
theorem rank_le (t : AdvanceTarget) : t.status.rank ≤ 2 := by
  rcases t.choice with h | h <;> simp [h]

end AdvanceTarget

/-- `StatementFile`, without its files. -/
structure StatementFile where
  id : StatementId
  user : UserId
  account : Option AccountId := none
  status : StatementStatus := .uploaded
  failureReason : Option String := none
  failedPhase : Option Phase := none
  isProcessing : Bool := false
  startTransactionDate : Option Date := none
  lastTransactionDate : Option Date := none
  deriving DecidableEq, Repr

namespace StatementFile

/-- `validate_advance` : the guard checks of a retry, and the rank of the target. -/
def validateAdvance (s : StatementFile) (target : StatementStatus) :
    Except BusinessRuleError ℕ :=
  if s.status = .approved then
    .error ⟨"This statement has already been approved and cannot be retried.",
      "already_approved", none⟩
  else if s.isProcessing then
    .error ⟨"This statement is currently being processed; try again shortly.",
      "already_processing", none⟩
  else if target.rank ≤ s.status.rank then
    .error ⟨"Target status must be ahead of the statement's current status.",
      "invalid_status_transition", none⟩
  else .ok target.rank

/-- The guards pass exactly on an idle statement short of the target. An approved one is
never short of a target a request can name. -/
theorem validateAdvance_ok {s : StatementFile} {target : AdvanceTarget} {n : ℕ} :
    s.validateAdvance target.status = .ok n ↔
      s.isProcessing = false ∧ s.status.rank < target.status.rank ∧ n = target.status.rank := by
  have h2 := target.rank_le
  unfold validateAdvance
  by_cases ha : s.status = .approved
  · simp only [ha, if_true, StatementStatus.rank_approved, reduceCtorEq, false_iff]
    omega
  · cases hp : s.isProcessing
    · by_cases hr : target.status.rank ≤ s.status.rank
      · simp [ha, hr]
      · simp [ha, hr, Nat.lt_of_not_le hr, eq_comm]
    · simp [ha]

end StatementFile

/-- `StatementOcrResult`. -/
structure OcrResult where
  seaweedFileId : String
  ocrEngine : String
  confidenceScore : ℚ
  deriving DecidableEq

/-- One entry of `normalized_json["transactions"]`. -/
structure NormalizedTransaction where
  transactionDate : Date
  deriving DecidableEq

/-- `normalized_json`, the proposed batch. The source document may not show its bank or
account number. -/
structure NormalizedJson where
  bankName : Option String
  accountNumber : Option String
  transactions : List NormalizedTransaction
  deriving DecidableEq

/-- `StatementNormalized`. -/
structure NormalizedRecord where
  normalizedJson : NormalizedJson
  modelUsed : String
  deriving DecidableEq

/-- What the database holds of one statement. -/
structure StatementRows where
  statement : StatementFile
  ocrResults : List OcrResult := []
  normalizedRecords : List NormalizedRecord := []
  deriving DecidableEq

end NbeAdvisor
