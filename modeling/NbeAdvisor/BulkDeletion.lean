import NbeAdvisor.SyncedReadOnly

/-!
# Bulk deletions

The bulk deletions of transactions and of statements read the caller's rows once and go over the
list of ids, some of which they skip. An instance that has been deleted loses its primary key and
is still found under its id, so a row that is listed twice is deleted twice, which raises.

`sortOut` is the loop of both : it goes through exactly if nothing that it deletes is listed twice
(`sortOut_eq_some`), and so the two views do what they should exactly then (`bulkDeletes_exact`).
If they raise, the transactions are all kept, and the statements that the loop came to are gone
(`bulkDelete_statements`).
-/

namespace NbeAdvisor

/-! ## Sorting out a list of ids -/

section SortOut

variable {ι : Type*} {reason : ι → Option String} {ids : List ι} {id : ι}

/-- The ids that are deleted, and those that are skipped. -/
def toDelete (reason : ι → Option String) (ids : List ι) : List ι :=
  ids.filter fun id => (reason id).isNone

/-- The ids that have a reason, each with it. -/
def toSkip (reason : ι → Option String) (ids : List ι) : List (ι × String) :=
  ids.filterMap fun id => (reason id).map (id, ·)

theorem mem_toDelete : id ∈ toDelete reason ids ↔ id ∈ ids ∧ reason id = none := by
  simp [toDelete]

theorem mem_toSkip : id ∈ (toSkip reason ids).map Prod.fst ↔ id ∈ ids ∧ reason id ≠ none := by
  simp only [toSkip, List.mem_map, List.mem_filterMap, Option.map_eq_some_iff]
  constructor
  · rintro ⟨_, ⟨i, hi, r, hr, rfl⟩, rfl⟩
    exact ⟨hi, by simp [hr]⟩
  · rintro ⟨hi, hr⟩
    obtain ⟨r, hr⟩ := Option.ne_none_iff_exists'.1 hr
    exact ⟨(id, r), ⟨id, hi, r, hr, rfl⟩, rfl⟩

theorem toDelete_cons_none (h : reason id = none) :
    toDelete reason (id :: ids) = id :: toDelete reason ids := by
  simp [toDelete, h]

theorem toDelete_cons_some {r : String} (h : reason id = some r) :
    toDelete reason (id :: ids) = toDelete reason ids := by
  simp [toDelete, h]

variable [DecidableEq ι]

/-- Ids are skipped for a reason or else deleted. Deleting one again raises, as it does for those
that fail. -/
def sortOut (reason : ι → Option String) (fails : ι → Prop) [DecidablePred fails] :
    List ι → List ι → List (ι × String) → Option (List ι × List (ι × String))
  | [], deleted, skipped => some (deleted, skipped)
  | id :: ids, deleted, skipped =>
    match reason id with
    | some r => sortOut reason fails ids deleted (skipped ++ [(id, r)])
    | none =>
      if fails id ∨ id ∈ deleted then none else sortOut reason fails ids (deleted ++ [id]) skipped

variable {fails : ι → Prop} [DecidablePred fails]

/-- The loop goes through exactly if it deletes nothing that fails and nothing twice. -/
theorem sortOut_eq_some {deleted deleted' : List ι} {skipped skipped' : List (ι × String)} :
    sortOut reason fails ids deleted skipped = some (deleted', skipped') ↔
      ((toDelete reason ids).Nodup ∧ ∀ id ∈ toDelete reason ids, ¬fails id ∧ id ∉ deleted) ∧
        deleted' = deleted ++ toDelete reason ids ∧ skipped' = skipped ++ toSkip reason ids := by
  induction ids generalizing deleted skipped with
  | nil =>
    simp only [sortOut, toDelete, toSkip, List.filter_nil, List.filterMap_nil, List.append_nil,
      Option.some.injEq, Prod.mk.injEq]
    simp [eq_comm]
  | cons id ids ih =>
    cases hr : reason id with
    | some r =>
      have hskip : toSkip reason (id :: ids) = (id, r) :: toSkip reason ids := by simp [toSkip, hr]
      rw [sortOut, hr, ih, toDelete_cons_some hr, hskip, List.append_assoc, List.singleton_append]
    | none =>
      have hskip : toSkip reason (id :: ids) = toSkip reason ids := by simp [toSkip, hr]
      simp only [sortOut, hr, toDelete_cons_none hr, hskip, List.nodup_cons, List.forall_mem_cons]
      split_ifs with hbad
      · refine iff_of_false (by simp) fun h => ?_
        exact hbad.elim h.1.2.1.1 h.1.2.1.2
      · rw [ih, List.append_assoc, List.singleton_append]
        refine and_congr_left fun _ => ?_
        constructor
        · rintro ⟨hnodup, hall⟩
          refine ⟨⟨fun hid => (hall id hid).2 (by simp), hnodup⟩, not_or.1 hbad, fun i hi => ?_⟩
          exact ⟨(hall i hi).1, fun hmem => (hall i hi).2 (List.mem_append_left _ hmem)⟩
        · rintro ⟨⟨hid, hnodup⟩, -, hall⟩
          refine ⟨hnodup, fun i hi => ⟨(hall i hi).1, fun hmem => ?_⟩⟩
          rcases List.mem_append.1 hmem with hmem | hmem
          · exact (hall i hi).2 hmem
          · exact hid (List.mem_singleton.1 hmem ▸ hi)

/-- Each listed id is reported in one of the two lists, deleted if it is to go. -/
def Reports (goes : ι → Prop) (ids deleted : List ι) (skipped : List (ι × String)) : Prop :=
  ∀ id, (id ∈ deleted ↔ id ∈ ids ∧ goes id) ∧ (id ∈ skipped.map Prod.fst ↔ id ∈ ids ∧ ¬goes id)

omit [DecidableEq ι] in
theorem reports_sorted {goes : ι → Prop} (h : ∀ id ∈ ids, (reason id = none ↔ goes id)) :
    Reports goes ids (toDelete reason ids) (toSkip reason ids) := by
  intro id
  rw [mem_toDelete, mem_toSkip]
  exact ⟨and_congr_right (h id), and_congr_right fun hid => not_congr (h id hid)⟩

/-- Nothing that is to go is in the list twice. -/
theorem nodup_toDelete : (toDelete reason ids).Nodup ↔ ∀ id, reason id = none → ids.count id ≤ 1 := by
  rw [List.nodup_iff_count_le_one]
  refine forall_congr' fun id => ?_
  constructor
  · intro h hr
    rw [toDelete, List.count_filter (by simp [hr])] at h
    exact h
  · intro h
    cases hr : reason id with
    | none =>
      rw [toDelete, List.count_filter (by simp [hr])]
      exact h hr
    | some r =>
      rw [List.count_eq_zero_of_not_mem fun hmem => ?_]
      · exact Nat.zero_le 1
      · rw [(mem_toDelete.1 hmem).2] at hr
        cases hr

end SortOut

/-! ## The transactions -/

namespace UserBooks

/-- What the database sees to. -/
structure Sound (B : UserBooks) : Prop extends B.Keys where
  statements : (B.statements.map (·.id)).Nodup
  foreignKey : ∀ t ∈ B.ledger, ∃ a ∈ B.accounts, a.id = t.account

/-- The transaction is the user's, outside synced accounts. -/
def Deletable (B : UserBooks) (user : UserId) (t : Transaction) : Prop :=
  t.user = user ∧ ¬B.InSynced t

instance (B : UserBooks) (user : UserId) : DecidablePred (B.Deletable user) := fun t => by
  unfold Deletable
  infer_instance

/-- Why `TransactionBulkDeleteView` skips an id. -/
def skipReason (B : UserBooks) (user : UserId) (id : TransactionId) : Option String :=
  match B.ledger.own user id with
  | none => some "not_found"
  | some t => if B.InSynced t then some "account_not_mutable" else none

end UserBooks

section Transactions

variable {B : UserBooks} {user : UserId} {ids : List TransactionId} {id : TransactionId}

theorem skipReason_eq_none (hB : B.Sound) :
    B.skipReason user id = none ↔ ∃ t ∈ B.ledger, t.id = id ∧ B.Deletable user t := by
  unfold UserBooks.skipReason
  split
  · next hnone =>
    refine iff_of_false (Option.some_ne_none _) ?_
    rintro ⟨t, ht, hid, hown, -⟩
    exact List.find?_eq_none.1 hnone t ht (decide_eq_true ⟨hid, hown⟩)
  · next t ht =>
    have hmem := List.mem_of_find?_eq_some ht
    have hown := List.find?_some ht
    obtain ⟨hid, huser⟩ := of_decide_eq_true hown
    constructor
    · intro h
      split_ifs at h with hsynced
      exact ⟨t, hmem, hid, huser, hsynced⟩
    · rintro ⟨u, hu, huid, -, hsynced⟩
      obtain rfl := Keyed.eq_of_pk hB.transactions hu hmem (huid.trans hid.symm)
      exact if_neg hsynced

/-- The loop of the view. -/
theorem bulkDelete_toOption (hB : B.Sound) (user : UserId) (ids : List TransactionId)
    (deleted : List TransactionId) (skipped : List (TransactionId × String)) :
    (bulkDelete (B.accounts.map (·.toBankAccount)) B.ledger user ids deleted skipped).toOption =
      sortOut (B.skipReason user) (fun _ => False) ids deleted skipped := by
  induction ids generalizing deleted skipped with
  | nil => rfl
  | cons id ids ih =>
    cases hown : B.ledger.own user id with
    | none => simp only [bulkDelete, sortOut, UserBooks.skipReason, hown, ih]
    | some t =>
      obtain ⟨a, ha, haid⟩ := hB.foreignKey t (List.mem_of_find?_eq_some hown)
      have hnodup : ((B.accounts.map (·.toBankAccount)).map (·.id)).Nodup := by
        rw [List.map_map]
        exact hB.accounts
      have hfind : (B.accounts.map (·.toBankAccount)).find? (fun a => a.id = t.account) =
          some a.toBankAccount := by
        refine Keyed.find?_of_pk hnodup (List.mem_map_of_mem ha) (decide_eq_true haid) ?_
        exact fun b _ hb => (of_decide_eq_true hb).trans haid.symm
      have hsynced : B.InSynced t ↔ a.isSynced = true := by
        constructor
        · rintro ⟨b, hb, hbid⟩
          obtain ⟨hb, hbs⟩ := List.mem_filter.1 hb
          obtain rfl := Keyed.eq_of_pk hB.accounts hb ha (hbid.trans haid.symm)
          exact hbs
        · exact fun h => ⟨a, List.mem_filter.2 ⟨ha, h⟩, haid⟩
      simp only [bulkDelete, sortOut, UserBooks.skipReason, hown, hfind,
        BankAccount.assertAccountMutable, hsynced]
      cases a.isSynced with
      | true => exact ih _ _
      | false =>
        simp only [Bool.false_eq_true, if_false, false_or]
        split_ifs with hmem
        · rfl
        · exact ih _ _

/-- The deletable rows of the list go and no others, and every listed id is reported. -/
structure BulkDeletes (B B' : UserBooks) (user : UserId) (ids : List TransactionId)
    (response : Except ApiError (List TransactionId × List (TransactionId × String))) : Prop where
  reports : ∃ deleted skipped, response = .ok (deleted, skipped) ∧
    Reports (fun id => ∃ t ∈ B.ledger, t.id = id ∧ B.Deletable user t) ids deleted skipped
  ledger : B'.ledger = B.ledger.filter fun t => ¬(t.id ∈ ids ∧ B.Deletable user t)
  embedding : ∀ t ∈ B'.ledger, B'.embedding t.id = B.embedding t.id
  accounts : B'.accounts = B.accounts
  statements : B'.statements = B.statements

/-- `TransactionBulkDeleteView` does so exactly if no deletable row is listed twice. -/
theorem bulkDeleteTransactions_iff (sp : Spelling) (tax : Taxonomy)
    (answer : Option (TransactionId → Embedding)) (hB : B.Sound) (hids : ids ≠ []) :
    BulkDeletes B (B.handle sp tax answer (.bulkDelete user (some ids))) user ids
      (bulkDeleteTransactions (B.accounts.map (·.toBankAccount)) B.ledger user (some ids)) ↔
      ∀ t ∈ B.ledger, B.Deletable user t → ids.count t.id ≤ 1 := by
  have hview : bulkDeleteTransactions (B.accounts.map (·.toBankAccount)) B.ledger user (some ids) =
      bulkDelete (B.accounts.map (·.toBankAccount)) B.ledger user ids [] [] := by
    cases ids with
    | nil => exact (hids rfl).elim
    | cons id ids => rfl
  have hloop := bulkDelete_toOption hB user ids [] []
  have hnodup : (toDelete (B.skipReason user) ids).Nodup ↔
      ∀ t ∈ B.ledger, B.Deletable user t → ids.count t.id ≤ 1 := by
    rw [nodup_toDelete]
    constructor
    · exact fun h t ht hd => h t.id ((skipReason_eq_none hB).2 ⟨t, ht, rfl, hd⟩)
    · intro h id hr
      obtain ⟨t, ht, rfl, hd⟩ := (skipReason_eq_none hB).1 hr
      exact h t ht hd
  rw [← hnodup]
  constructor
  · rintro ⟨⟨deleted, skipped, hok, -⟩, -⟩
    rw [hview] at hok
    rw [hok] at hloop
    exact (sortOut_eq_some.1 hloop.symm).1.1
  · intro h
    rw [sortOut_eq_some.2 ⟨⟨h, by simp⟩, rfl, rfl⟩, List.nil_append, List.nil_append] at hloop
    have hok := eq_ok_of_toOption hloop
    have hgone : ∀ t ∈ B.ledger, (t.id ∈ toDelete (B.skipReason user) ids ↔
        t.id ∈ ids ∧ B.Deletable user t) := by
      intro t ht
      rw [mem_toDelete, skipReason_eq_none hB]
      refine and_congr_right fun _ => ⟨?_, fun hd => ⟨t, ht, rfl, hd⟩⟩
      rintro ⟨u, hu, huid, hd⟩
      exact Keyed.eq_of_pk hB.transactions hu ht huid ▸ hd
    rw [hview, hok]
    simp only [UserBooks.handle, hview, hok]
    have hledger : (B.dropTransactions fun t =>
        t.id ∈ toDelete (B.skipReason user) ids).ledger =
          B.ledger.filter fun t => ¬(t.id ∈ ids ∧ B.Deletable user t) := by
      refine List.filter_congr fun t ht => ?_
      simp [hgone t ht]
    refine ⟨⟨_, _, rfl, reports_sorted fun _ _ => skipReason_eq_none hB⟩, hledger, ?_, rfl, rfl⟩
    intro t ht
    rw [hledger] at ht
    obtain ⟨ht, hkept⟩ := List.mem_filter.1 ht
    refine if_neg ?_
    rintro ⟨u, -, huid, hu⟩
    exact of_decide_eq_true hkept ((hgone t ht).1 (huid ▸ of_decide_eq_true hu))

end Transactions

/-! ## The statements -/

/-- SeaweedFS : what a request of `delete_prefix` leaves, and whether it raises. -/
structure FileStorage (S : Type*) where
  deletePrefix : String → S → S
  raises : String → Bool

/-- The rows, `retain_raw_documents` of the users that have preferences, and the files. -/
structure StatementDesk (S : Type*) where
  books : UserBooks
  retainRawDocuments : UserId → Option Bool
  storage : S

/-- The statement is deleted. Its transactions stay, by `on_delete` of their statement. -/
def UserBooks.dropStatement (B : UserBooks) (id : StatementId) : UserBooks :=
  { B with
    statements := B.statements.filter fun s => s.id ≠ id
    ledger := B.ledger.map fun t => if t.statement = some id then { t with statement := none } else t }

/-- The prefixes of the files of an instance with this primary key. -/
def statementPrefixes (user : UserId) (pk : Option StatementId) : List String :=
  ["pfm-statements-raw", "pfm-statements-ocr", "pfm-statements-normalized"].map fun bucket =>
    bucket ++ "/" ++ toString user ++ "/" ++ pk.elim "None" toString ++ "/"

section Statements

variable {S : Type*} (fs : FileStorage S)

/-- One `delete_prefix` after another. -/
def FileStorage.deletePrefixes : List String → S → S × Bool
  | [], files => (files, true)
  | p :: ps, files =>
    if fs.raises p then (fs.deletePrefix p files, false)
    else FileStorage.deletePrefixes ps (fs.deletePrefix p files)

namespace StatementDesk

/-- `UserPreference.objects.get_or_create`. -/
def preferences (D : StatementDesk S) (user : UserId) : StatementDesk S :=
  { D with
    retainRawDocuments := fun u =>
      if u = user then some ((D.retainRawDocuments u).getD false) else D.retainRawDocuments u }

/-- `delete_statement_file`, of an instance of the user. One that has been deleted before has no
primary key, and its `delete()` raises. -/
def deleteStatementFile (D : StatementDesk S) (user : UserId) (pk : Option StatementId) :
    StatementDesk S × Except ApiError Unit :=
  let D := D.preferences user
  let (storage, emptied) :=
    if D.retainRawDocuments user = some true then (D.storage, true)
    else fs.deletePrefixes (statementPrefixes user pk) D.storage
  let D := { D with storage }
  match emptied, pk with
  | true, some id => ({ D with books := D.books.dropStatement id }, .ok ())
  | _, _ => (D, .error .serverError)

/-- The loop of `StatementBulkDeleteView.post` over the instances that it has found. It is in no
transaction. -/
def bulkDelete (found : List StatementFile) :
    List StatementId → List StatementId → List (StatementId × String) → StatementDesk S →
      StatementDesk S × Except ApiError (List StatementId × List (StatementId × String))
  | [], deleted, skipped, D => (D, .ok (deleted, skipped))
  | id :: ids, deleted, skipped, D =>
    match found.find? fun s => s.id = id with
    | none => bulkDelete found ids deleted (skipped ++ [(id, "not_found")]) D
    | some s =>
      match D.deleteStatementFile fs s.user (if id ∈ deleted then none else some s.id) with
      | (D, .error e) => (D, .error e)
      | (D, .ok ()) => bulkDelete found ids (deleted ++ [id]) skipped D

/-- `StatementBulkDeleteView.post`. There are no `ids` if the serializer rejects the body. -/
def bulkDeleteStatements (D : StatementDesk S) (user : UserId) (ids : Option (List StatementId)) :
    StatementDesk S × Except ApiError (List StatementId × List (StatementId × String)) :=
  match ids with
  | none | some [] => (D, .error .validation)
  | some ids =>
    bulkDelete fs (D.books.statements.filter fun s => s.id ∈ ids ∧ s.user = user) ids [] [] D

/-- The files of the statement are to be deleted, and the storage raises. -/
def FilesFail (D : StatementDesk S) (user : UserId) (id : StatementId) : Prop :=
  (D.retainRawDocuments user).getD false = false ∧
    ∃ p ∈ statementPrefixes user (some id), fs.raises p = true

instance (D : StatementDesk S) (user : UserId) : DecidablePred (D.FilesFail fs user) := fun id => by
  unfold FilesFail
  infer_instance

end StatementDesk

section Specs

variable {fs} {D : StatementDesk S} {user : UserId} {pk : Option StatementId}
  {found : List StatementFile} {ids : List StatementId}

theorem FileStorage.deletePrefixes_snd {ps : List String} {files : S} :
    (fs.deletePrefixes ps files).2 = true ↔ ∀ p ∈ ps, fs.raises p = false := by
  induction ps generalizing files with
  | nil => simp [deletePrefixes]
  | cons p ps ih =>
    rw [deletePrefixes, List.forall_mem_cons]
    cases hp : fs.raises p with
    | true => simp
    | false => simp [ih]

/-- An instance is deleted if it still has its key and the storage does not raise, else the rows
stay. -/
theorem deleteStatementFile_cases :
    (∃ id, pk = some id ∧ ¬D.FilesFail fs user id ∧
      (D.deleteStatementFile fs user pk).2 = .ok () ∧
      (D.deleteStatementFile fs user pk).1.books = D.books.dropStatement id) ∨
    ((∀ id ∈ pk, D.FilesFail fs user id) ∧
      (D.deleteStatementFile fs user pk).2 = .error .serverError ∧
      (D.deleteStatementFile fs user pk).1.books = D.books) := by
  have hret : (D.preferences user).retainRawDocuments user =
      some ((D.retainRawDocuments user).getD false) := if_pos rfl
  cases hr : (D.retainRawDocuments user).getD false with
  | true =>
    have hkept : ∀ id, ¬D.FilesFail fs user id := fun id hf =>
      Bool.false_ne_true (hf.1.symm.trans hr)
    simp only [StatementDesk.deleteStatementFile, hret, hr, if_true]
    cases pk with
    | none => exact Or.inr ⟨fun id hid => (nomatch hid), rfl, rfl⟩
    | some id => exact Or.inl ⟨id, rfl, hkept id, rfl, rfl⟩
  | false =>
    have hsnd := @FileStorage.deletePrefixes_snd S fs (statementPrefixes user pk)
      (D.preferences user).storage
    have hfail : ∀ id, pk = some id → (D.FilesFail fs user id ↔
        (fs.deletePrefixes (statementPrefixes user pk) (D.preferences user).storage).2 = false) := by
      rintro id rfl
      rw [← Bool.not_eq_true, hsnd]
      simp [StatementDesk.FilesFail, hr]
    simp only [StatementDesk.deleteStatementFile, hret, hr, Option.some.injEq, Bool.false_eq_true,
      if_false]
    cases hd : (fs.deletePrefixes (statementPrefixes user pk) (D.preferences user).storage).2 with
    | false => exact Or.inr ⟨fun id hid => (hfail id hid).2 hd, rfl, rfl⟩
    | true =>
      cases pk with
      | none => exact Or.inr ⟨fun id hid => (nomatch hid), rfl, rfl⟩
      | some id =>
        refine Or.inl ⟨id, rfl, fun hf => ?_, rfl, rfl⟩
        simp [(hfail id rfl).1 hf] at hd

/-- The preferences that it creates are those that it assumes where there are none. -/
theorem deleteStatementFile_retains (u : UserId) :
    ((D.deleteStatementFile fs user pk).1.retainRawDocuments u).getD false =
      (D.retainRawDocuments u).getD false := by
  have hpref : ((D.preferences user).retainRawDocuments u).getD false =
      (D.retainRawDocuments u).getD false := by
    by_cases hu : u = user
    · simp [StatementDesk.preferences, hu]
    · simp [StatementDesk.preferences, hu]
  rw [← hpref]
  unfold StatementDesk.deleteStatementFile
  dsimp only
  split <;> rfl

/-- Why `StatementBulkDeleteView` skips an id. -/
def missing (found : List StatementFile) (id : StatementId) : Option String :=
  (found.find? fun s => s.id = id).elim (some "not_found") fun _ => none

/-- What the loop answers, and the statements it leaves if it raises or not : those of the ids
that it came to are gone. -/
theorem bulkDelete_statements {fails : StatementId → Prop} [DecidablePred fails]
    (hfound : ∀ s ∈ found, s.user = user) (ids : List StatementId) (deleted : List StatementId)
    (skipped : List (StatementId × String)) (D : StatementDesk S)
    (hfails : ∀ id, fails id ↔ D.FilesFail fs user id) :
    (StatementDesk.bulkDelete fs found ids deleted skipped D).2.toOption =
        sortOut (missing found) fails ids deleted skipped ∧
      ∃ gone, gone <+: toDelete (missing found) ids ∧
        (StatementDesk.bulkDelete fs found ids deleted skipped D).1.books.statements =
          D.books.statements.filter (fun s => s.id ∉ gone) ∧
        ((StatementDesk.bulkDelete fs found ids deleted skipped D).2.toOption.isSome →
          gone = toDelete (missing found) ids) := by
  induction ids generalizing deleted skipped D with
  | nil => exact ⟨rfl, [], List.prefix_rfl, by simp [StatementDesk.bulkDelete], fun _ => rfl⟩
  | cons id ids ih =>
    cases hfind : found.find? fun s => s.id = id with
    | none =>
      have hreason : missing found id = some "not_found" := by simp [missing, hfind]
      simp only [StatementDesk.bulkDelete, sortOut, hfind, hreason, toDelete_cons_some hreason]
      exact ih _ _ D hfails
    | some s =>
      have hreason : missing found id = none := by simp [missing, hfind]
      have hs := List.mem_of_find?_eq_some hfind
      have hsid := List.find?_some hfind
      rw [decide_eq_true_eq] at hsid
      simp only [StatementDesk.bulkDelete, sortOut, hfind, hreason, toDelete_cons_none hreason,
        hfound s hs, hsid]
      set r := D.deleteStatementFile fs user (if id ∈ deleted then none else some id) with hr
      have hcases := @deleteStatementFile_cases S fs D user (if id ∈ deleted then none else some id)
      have hret := @deleteStatementFile_retains S fs D user (if id ∈ deleted then none else some id)
      rw [← hr] at hcases hret
      obtain ⟨D', answer⟩ := r
      rcases hcases with ⟨i, hpk, hkept, rfl, hbooks⟩ | ⟨hfail, rfl, hbooks⟩
      · split_ifs at hpk with hmem
        obtain rfl : id = i := Option.some.inj hpk
        obtain ⟨heq, gone, hpre, hstatements, hall⟩ := ih (deleted ++ [id]) skipped D' fun j => by
          rw [hfails, StatementDesk.FilesFail, StatementDesk.FilesFail, hret]
        rw [if_neg (by simp [hfails, hkept, hmem])]
        refine ⟨heq, id :: gone, List.cons_prefix_cons.2 ⟨rfl, hpre⟩, ?_, fun h => by rw [hall h]⟩
        change D'.books = _ at hbooks
        rw [hstatements, hbooks, UserBooks.dropStatement, List.filter_filter]
        refine List.filter_congr fun s _ => ?_
        simp [not_or, Bool.and_comm]
      · rw [if_pos ?_]
        · refine ⟨rfl, [], List.nil_prefix, ?_, fun h => nomatch h⟩
          change D'.books = _ at hbooks
          simp [hbooks]
        · by_cases hmem : id ∈ deleted
          · exact Or.inr hmem
          · exact Or.inl ((hfails id).2 (hfail id (by simp [hmem])))

theorem missing_eq_none {statements : List StatementFile} {id : StatementId} (hid : id ∈ ids) :
    missing (statements.filter fun s => s.id ∈ ids ∧ s.user = user) id = none ↔
      ∃ s ∈ statements, s.id = id ∧ s.user = user := by
  unfold missing
  cases hfind : (statements.filter fun s => s.id ∈ ids ∧ s.user = user).find? fun s => s.id = id with
  | none =>
    refine iff_of_false (Option.some_ne_none _) ?_
    rintro ⟨s, hs, rfl, huser⟩
    refine List.find?_eq_none.1 hfind s (List.mem_filter.2 ⟨hs, ?_⟩) (decide_eq_true rfl)
    exact decide_eq_true ⟨hid, huser⟩
  | some s =>
    obtain ⟨hs, hlisted⟩ := List.mem_filter.1 (List.mem_of_find?_eq_some hfind)
    have hsid := List.find?_some hfind
    exact iff_of_true rfl ⟨s, hs, of_decide_eq_true hsid, (of_decide_eq_true hlisted).2⟩

end Specs

/-- The own statements of the list go and no others, and every listed id is reported. -/
structure StatementsDelete (D D' : StatementDesk S) (user : UserId) (ids : List StatementId)
    (response : Except ApiError (List StatementId × List (StatementId × String))) : Prop where
  reports : ∃ deleted skipped, response = .ok (deleted, skipped) ∧
    Reports (fun id => ∃ s ∈ D.books.statements, s.id = id ∧ s.user = user) ids deleted skipped
  statements :
    D'.books.statements = D.books.statements.filter fun s => ¬(s.id ∈ ids ∧ s.user = user)

/-- `StatementBulkDeleteView` does so exactly if no own statement is listed twice and the storage
deletes what it is to. -/
theorem bulkDeleteStatements_iff {D : StatementDesk S} {user : UserId} {ids : List StatementId}
    (hD : (D.books.statements.map (·.id)).Nodup) (hids : ids ≠ []) :
    StatementsDelete D (D.bulkDeleteStatements fs user (some ids)).1 user ids
      (D.bulkDeleteStatements fs user (some ids)).2 ↔
      ∀ s ∈ D.books.statements, s.user = user →
        ids.count s.id ≤ 1 ∧ (s.id ∈ ids → ¬D.FilesFail fs user s.id) := by
  set found := D.books.statements.filter fun s => s.id ∈ ids ∧ s.user = user with hfound
  have hview : D.bulkDeleteStatements fs user (some ids) =
      StatementDesk.bulkDelete fs found ids [] [] D := by
    cases ids with
    | nil => exact (hids rfl).elim
    | cons id ids => rfl
  have hmissing : ∀ id ∈ ids, (missing found id = none ↔
      ∃ s ∈ D.books.statements, s.id = id ∧ s.user = user) := fun id hid => missing_eq_none hid
  have hown : ∀ s ∈ found, s.user = user := fun s hs =>
    (of_decide_eq_true (List.mem_filter.1 hs).2).2
  obtain ⟨hloop, gone, -, hgone, hall⟩ :=
    bulkDelete_statements hown ids [] [] D fun _ => Iff.rfl
  have hcond : ((toDelete (missing found) ids).Nodup ∧
      ∀ id ∈ toDelete (missing found) ids, ¬D.FilesFail fs user id ∧ id ∉ ([] : List StatementId)) ↔
      ∀ s ∈ D.books.statements, s.user = user →
        ids.count s.id ≤ 1 ∧ (s.id ∈ ids → ¬D.FilesFail fs user s.id) := by
    rw [nodup_toDelete]
    constructor
    · rintro ⟨hcount, hkept⟩ s hs huser
      by_cases hid : s.id ∈ ids
      · have hnone := (hmissing s.id hid).2 ⟨s, hs, rfl, huser⟩
        exact ⟨hcount s.id hnone, fun _ => (hkept s.id (mem_toDelete.2 ⟨hid, hnone⟩)).1⟩
      · rw [List.count_eq_zero_of_not_mem hid]
        exact ⟨Nat.zero_le 1, fun hid' => (hid hid').elim⟩
    · intro h
      refine ⟨fun id hnone => ?_, fun id hmem => ⟨?_, List.not_mem_nil⟩⟩
      · by_cases hid : id ∈ ids
        · obtain ⟨s, hs, rfl, huser⟩ := (hmissing id hid).1 hnone
          exact (h s hs huser).1
        · rw [List.count_eq_zero_of_not_mem hid]
          exact Nat.zero_le 1
      · obtain ⟨hid, hnone⟩ := mem_toDelete.1 hmem
        obtain ⟨s, hs, rfl, huser⟩ := (hmissing id hid).1 hnone
        exact (h s hs huser).2 hid
  rw [hview, ← hcond]
  constructor
  · rintro ⟨⟨deleted, skipped, hok, -⟩, -⟩
    rw [hok] at hloop
    exact (sortOut_eq_some.1 hloop.symm).1
  · intro h
    rw [sortOut_eq_some.2 ⟨h, rfl, rfl⟩, List.nil_append, List.nil_append] at hloop
    refine ⟨⟨_, _, eq_ok_of_toOption hloop, reports_sorted hmissing⟩, ?_⟩
    rw [hgone, hall (by rw [hloop]; rfl)]
    refine List.filter_congr fun s hs => decide_eq_decide.2 (not_congr ?_)
    rw [mem_toDelete]
    refine and_congr_right fun hid => (hmissing s.id hid).trans ⟨?_, fun hu => ⟨s, hs, rfl, hu⟩⟩
    rintro ⟨u, hu, huid, huser⟩
    exact Keyed.eq_of_pk hD hu hs huid ▸ huser

end Statements

/-- Both bulk deletions do what they should, each exactly if nothing that it is to delete is listed
twice and, for the statements, the storage deletes their files where it is to. -/
theorem bulkDeletes_exact {S : Type*} (fs : FileStorage S) (sp : Spelling) (tax : Taxonomy)
    (answer : Option (TransactionId → Embedding)) {D : StatementDesk S} (hD : D.books.Sound)
    (user : UserId) {ids : List TransactionId} (hids : ids ≠ []) {statementIds : List StatementId}
    (hstatementIds : statementIds ≠ []) :
    (BulkDeletes D.books (D.books.handle sp tax answer (.bulkDelete user (some ids))) user ids
      (bulkDeleteTransactions (D.books.accounts.map (·.toBankAccount)) D.books.ledger user
        (some ids)) ↔
      ∀ t ∈ D.books.ledger, D.books.Deletable user t → ids.count t.id ≤ 1) ∧
    (StatementsDelete D (D.bulkDeleteStatements fs user (some statementIds)).1 user statementIds
      (D.bulkDeleteStatements fs user (some statementIds)).2 ↔
      ∀ s ∈ D.books.statements, s.user = user →
        statementIds.count s.id ≤ 1 ∧ (s.id ∈ statementIds → ¬D.FilesFail fs user s.id)) :=
  ⟨bulkDeleteTransactions_iff sp tax answer hD hids,
    bulkDeleteStatements_iff fs hD.statements hstatementIds⟩

/-- A purchase in cash, and a statement. -/
def cashDesk : StatementDesk Unit where
  books :=
    { accounts := [{ toBankAccount := cashAccount }]
      statements := [{ id := 4, user := 1 }]
      ledger := [{ id := 1, user := 1, account := cashAccount.id, transactionDate := paymentDay
                   merchantRaw := none, category := none, amount := 4200, source := .manual
                   transactionType := none }] }
  retainRawDocuments := fun _ => none
  storage := ()

/-- Each list has an unknown id twice. -/
theorem bulkDeletes_cash :
    BulkDeletes cashDesk.books
      (cashDesk.books.handle ⟨id, id⟩ noTaxonomy none (.bulkDelete 1 (some [9, 1, 9]))) 1 [9, 1, 9]
      (bulkDeleteTransactions [cashAccount] cashDesk.books.ledger 1 (some [9, 1, 9])) ∧
    StatementsDelete cashDesk (cashDesk.bulkDeleteStatements ⟨fun _ => id, fun _ => false⟩ 1
      (some [9, 4, 9])).1 1 [9, 4, 9] (cashDesk.bulkDeleteStatements ⟨fun _ => id, fun _ => false⟩ 1
      (some [9, 4, 9])).2 := by
  have h := @bulkDeletes_exact Unit ⟨fun _ => id, fun _ => false⟩ ⟨id, id⟩ noTaxonomy none cashDesk
    ⟨⟨by decide, by decide⟩, by decide, by decide⟩ 1 [9, 1, 9] (by decide) [9, 4, 9] (by decide)
  exact ⟨h.1.2 (by decide), h.2.2 (by decide)⟩

/-- The purchase is listed twice. -/
theorem repeatedId_raises :
    ¬∀ (sp : Spelling) (tax : Taxonomy) (answer : Option (TransactionId → Embedding)) (B : UserBooks)
      (user : UserId) (ids : List TransactionId), B.Sound → ids ≠ [] →
      BulkDeletes B (B.handle sp tax answer (.bulkDelete user (some ids))) user ids
        (bulkDeleteTransactions (B.accounts.map (·.toBankAccount)) B.ledger user (some ids)) := by
  intro h
  obtain ⟨⟨deleted, skipped, hok, -⟩, -⟩ := h ⟨id, id⟩ noTaxonomy none cashDesk.books 1 [1, 1]
    ⟨⟨by decide, by decide⟩, by decide, by decide⟩ (by decide)
  have herror : bulkDeleteTransactions (cashDesk.books.accounts.map (·.toBankAccount))
      cashDesk.books.ledger 1 (some [1, 1]) = .error .serverError := by
    decide
  rw [herror] at hok
  cases hok

end NbeAdvisor
