import NbeAdvisor.AccountViews
import NbeAdvisor.LinkOutcome
import NbeAdvisor.Pipeline

/-!
# One source of truth for a bank

A manual account may not have the name of a bank that its user has synced accounts at,
whatever the case of the letters (`NamesExclusive`). Four paths write accounts, each run to
completion here. `POST` checks the name that it saves, and keeps the law. The others keep it
under conditions, which `KeepsNames` says :

* `PATCH` checks the name as it was sent, and not at all if Python takes it for false, and
  saves the trimmed text of it (`untrimmed_shadows`);
* a sync clears the manual accounts under the first account's bank, and lands the accounts
  of the list under the bank that each one names;
* the normalization of a statement creates an account if no row has the exact name and
  number, and checks nothing.

Under them the law holds in every reachable state (`bankNames_exclusive`).
-/

namespace NbeAdvisor

open Interleave

/-! ## The account of a normalization -/

/-- The lookup of `BankAccount.objects.get_or_create`. -/
def matchingAccounts (accounts : List AccountRow) (user : UserId) (n : NormalizedJson) :
    List AccountRow :=
  accounts.filter fun a =>
    a.user = user ∧ a.bankName = n.bankNameOrUnknown ∧ a.accountNumber = n.accountNumberOrUnknown

/-- The account that it makes, as the columns keep it. -/
def newAccountRow (accounts : List AccountRow) (user : UserId) (n : NormalizedJson) : AccountRow :=
  { id := Keyed.freshKey (accounts.map (·.id)), user
    bankName := cutBlanks 255 n.bankNameOrUnknown
    accountNumber := cutBlanks 50 n.accountNumberOrUnknown }

/-- The columns take its texts. -/
def NormalizedJson.AccountTakes (n : NormalizedJson) : Prop :=
  TextTakes 255 n.bankNameOrUnknown ∧ TextTakes 50 n.accountNumberOrUnknown

instance (n : NormalizedJson) : Decidable n.AccountTakes := by
  unfold NormalizedJson.AccountTakes
  infer_instance

/-- What `_finalize_normalization_phase` does to the accounts, for a statement with
`account`. -/
def normalizeAccount (accounts : List AccountRow) (user : UserId) (account : Option AccountId)
    (n : NormalizedJson) : List AccountRow :=
  if account = none ∧ matchingAccounts accounts user n = [] ∧ n.AccountTakes then
    accounts ++ [newAccountRow accounts user n]
  else accounts

/-- The rows that the pipeline matches are those that are matched here. -/
theorem matchingAccounts_pipeline {w : PipelineStore} {accounts : List AccountRow}
    (hw : w.accounts = accounts.map (·.toBankAccount)) (user : UserId) (n : NormalizedJson) :
    w.accountsMatching user n = (matchingAccounts accounts user n).map (·.toBankAccount) := by
  rw [PipelineStore.accountsMatching, hw, List.filter_map]
  rfl

/-- And its new row is the one that is made here. -/
theorem newAccountRow_pipeline {w : PipelineStore} {accounts : List AccountRow}
    (hw : w.accounts = accounts.map (·.toBankAccount)) (user : UserId) (n : NormalizedJson) :
    w.newAccount user n = (newAccountRow accounts user n).toBankAccount := by
  unfold PipelineStore.newAccount PipelineStore.freshAccountId newAccountRow
  rw [hw, List.map_map]
  rfl

/-- These are the two steps of a chain that finds no account. -/
theorem normalizeAccount_chain {w : PipelineStore} {accounts : List AccountRow} {f : Frame}
    {r : NormalizationResult} (hw : w.accounts = accounts.map (·.toBankAccount))
    (hnone : matchingAccounts accounts f.statement.user r.normalizedJson = [])
    (hfits : r.normalizedJson.AccountTakes) :
    ∃ w' f', drive Chain.step [.done, .done] (w, .running (.getAccount r) f) =
        some (w', .running (.createNormalized r) f') ∧
      w'.accounts = (normalizeAccount accounts f.statement.user none r.normalizedJson).map
        (·.toBankAccount) := by
  have hmatch : w.accountsMatching f.statement.user r.normalizedJson = [] := by
    rw [matchingAccounts_pipeline hw, hnone, List.map_nil]
  have hget : Chain.step w (.running (.getAccount r) f) .done =
      some (w, .running (.createAccount r) f) := by
    simp only [Chain.step, Frame.step, hmatch]
  have hnew := newAccountRow_pipeline hw f.statement.user r.normalizedJson
  set a := w.newAccount f.statement.user r.normalizedJson with ha
  refine ⟨{ w with accounts := w.accounts ++ [a] },
    { f with statement := { f.statement with account := some a.id } }, ?_, ?_⟩
  · rw [drive, hget]
    rfl
  · rw [normalizeAccount, if_pos ⟨rfl, hnone, hfits⟩, List.map_append, List.map_singleton, ← hw,
      ← hnew]

/-! ## The requests -/

/-- The requests and tasks that write account rows. -/
inductive AccountRequest where
  | post (user : UserId) (body : AccountBody)
  | patch (user : UserId) (id : AccountId) (body : AccountBody)
  | sync (c : BankConnection) (l : List ProviderAccount)
  | normalize (user : UserId) (account : Option AccountId) (n : NormalizedJson)

namespace AccountRequest

/-- The table after a request. One that fails leaves it alone. -/
def handle (sp : Spelling) (accounts : List AccountRow) : AccountRequest → List AccountRow
  | post user body =>
    match postAccount sp accounts user body with
    | .ok a => accounts ++ [a]
    | .error _ => accounts
  | patch user id body =>
    match patchAccount sp accounts user id body with
    | .ok a => Keyed.modify (·.id) a.id (fun _ => a) accounts
    | .error _ => accounts
  | sync c l =>
    match applySyncedAccounts sp c l accounts with
    | .ok (accounts, _) => accounts
    | .error _ => accounts
  | normalize user account n => normalizeAccount accounts user account n

/-- Any requests that meet `ok`, one after another, from a database without accounts. -/
inductive Reachable (sp : Spelling) (ok : List AccountRow → AccountRequest → Prop) :
    List AccountRow → Prop where
  | start : Reachable sp ok []
  | step {accounts : List AccountRow} {r : AccountRequest} : Reachable sp ok accounts →
      ok accounts r → Reachable sp ok (r.handle sp accounts)

/-- An edit sends the name as it is saved, or one that no synced account has; a sync names one
bank, or none with a manual account; and a normalization that creates an account names no
synced bank. -/
def KeepsNames (sp : Spelling) (accounts : List AccountRow) : AccountRequest → Prop
  | post _ _ => True
  | patch user _ body => ∀ v ∈ body.bankName, ∀ bankName ∈ charField 255 v,
      (v.truthy ∧ bankName = v.shown) ∨ ¬BankSynced sp accounts user bankName
  | sync c l => ∀ first ∈ l.head?, ∀ p ∈ l, sp.upper p.cut.bankName = sp.upper first.bankName ∨
      ∀ a ∈ accounts, ¬a.Shadows sp c p.cut.bankName
  | normalize user account n => account = none → matchingAccounts accounts user n = [] →
      ¬BankSynced sp accounts user (cutBlanks 255 n.bankNameOrUnknown)

instance (sp : Spelling) (accounts : List AccountRow) :
    DecidablePred (KeepsNames sp accounts) := fun r => by
  unfold KeepsNames
  cases r <;> infer_instance

end AccountRequest

/-! ## The law -/

/-- No user has a manual account under the name of a bank that he has synced accounts at. -/
def NamesExclusive (sp : Spelling) (accounts : List AccountRow) : Prop :=
  ∀ a ∈ accounts, ∀ b ∈ accounts, a.linkType = .manual → b.linkType = .synced → a.user = b.user →
    sp.upper a.bankName ≠ sp.upper b.bankName

instance (sp : Spelling) (accounts : List AccountRow) : Decidable (NamesExclusive sp accounts) := by
  unfold NamesExclusive
  infer_instance

section Law

variable {sp : Spelling} {accounts accounts' created : List AccountRow} {a : AccountRow}

/-- A manual account is added, or written over a manual one, under a name that is free. -/
theorem NamesExclusive.write_manual (h : NamesExclusive sp accounts) (ha : a.linkType = .manual)
    (hfree : ¬BankSynced sp accounts a.user a.bankName)
    (hmem : ∀ b ∈ accounts', b = a ∨ b ∈ accounts) : NamesExclusive sp accounts' := by
  intro u hu v hv hum hvs huv hname
  rcases hmem v hv with rfl | hv
  · rw [ha] at hvs
    cases hvs
  rcases hmem u hu with rfl | hu
  · exact hfree ⟨v, hv, huv.symm, hvs, hname.symm⟩
  · exact h u hu v hv hum hvs huv hname

/-- A sync leaves no manual account under a name that it lands an account under. -/
theorem NamesExclusive.apply (h : NamesExclusive sp accounts) (hs : AccountsSound accounts)
    {c : BankConnection} {l : List ProviderAccount}
    (hok : AccountRequest.KeepsNames sp accounts (.sync c l))
    (happly : applySyncedAccounts sp c l accounts = .ok (accounts', created)) :
    NamesExclusive sp accounts' := by
  have hrows := fun b => updateOrCreateAccounts_only (b := b) (hs.filter _) happly
  intro u hu v hv hum hvs huv hname
  have hold : u ∈ accounts ∧ u ∉ superseded sp c l accounts := by
    rcases hrows u hu with hu | ⟨p, -, hlands⟩
    · exact ⟨List.mem_of_mem_filter hu, of_decide_eq_true (List.mem_filter.1 hu).2⟩
    · cases hum.symm.trans hlands.2.2.1
  rcases hrows v hv with hv | ⟨p, hp, -, hvu, -, hvname, -⟩
  · exact h u hold.1 v (List.mem_of_mem_filter hv) hum hvs huv hname
  · cases l with
    | nil => simp at hp
    | cons first rest =>
      have hshadows : u.Shadows sp c p.cut.bankName := ⟨huv.trans hvu, hum, hvname ▸ hname⟩
      rcases hok first rfl p hp with hone | hnone
      · refine hold.2 (List.mem_filter.2 ⟨hold.1, decide_eq_true ?_⟩)
        exact ⟨hshadows.1, hshadows.2.1, hshadows.2.2.trans hone⟩
      · exact hnone u hold.1 hshadows

/-- A row that is not under a connection is added. -/
theorem AccountsSound.snoc (h : AccountsSound accounts)
    (hid : a.id = Keyed.freshKey (accounts.map (·.id))) (hconn : a.connection = none)
    (hext : a.externalAccountId = none) : AccountsSound (accounts ++ [a]) where
  ids := Keyed.nodup_map_snoc h.ids fun u hu => hid ▸ Keyed.ne_freshKey (fun a : AccountRow => a.id) hu
  widths u hu e he := by
    rcases List.mem_append.1 hu with hu | hu
    · exact h.widths u hu e he
    · rw [List.mem_singleton.1 hu, hext] at he
      cases he
  slots u hu v hv c e hue hve := by
    have hold : ∀ w ∈ accounts ++ [a], w.Holds c e → w ∈ accounts := by
      intro w hw hholds
      rcases List.mem_append.1 hw with hw | hw
      · exact hw
      · rw [List.mem_singleton.1 hw] at hholds
        cases hconn.symm.trans hholds.1
    exact h.slots u (hold u hu hue) v (hold v hv hve) c e hue hve

/-- A row is edited under the same connection. -/
theorem AccountsSound.edit (h : AccountsSound accounts) {b : AccountRow} (hb : b ∈ accounts)
    (hid : a.id = b.id) (hconn : a.connection = b.connection)
    (hext : a.externalAccountId = b.externalAccountId) :
    AccountsSound (Keyed.modify (·.id) a.id (fun _ => a) accounts) where
  ids := by
    rw [Keyed.map_pk_modify (f := fun _ => a) fun _ _ => rfl]
    exact h.ids
  widths u hu e he := by
    rcases Keyed.mem_modify.1 hu with ⟨hu, -⟩ | ⟨-, -, -, rfl⟩
    · exact h.widths u hu e he
    · exact h.widths b hb e (hext ▸ he)
  slots u hu v hv c e hue hve := by
    have hold : ∀ w ∈ Keyed.modify (·.id) a.id (fun _ => a) accounts, w.Holds c e →
        ∃ w₀ ∈ accounts, w₀.id = w.id ∧ w₀.Holds c e := by
      intro w hw hholds
      rcases Keyed.mem_modify.1 hw with ⟨hw, -⟩ | ⟨-, -, -, rfl⟩
      · exact ⟨w, hw, rfl, hholds⟩
      · exact ⟨b, hb, hid.symm, hconn ▸ hholds.1, hext ▸ hholds.2⟩
    obtain ⟨u₀, hu₀, hu, hue⟩ := hold u hu hue
    obtain ⟨v₀, hv₀, hv, hve⟩ := hold v hv hve
    exact hu.symm.trans ((h.slots u₀ hu₀ v₀ hv₀ c e hue hve).trans hv)

/-- Every request keeps the table sound. -/
theorem AccountRequest.handle_sound (r : AccountRequest) (hs : AccountsSound accounts) :
    AccountsSound (r.handle sp accounts) := by
  cases r with
  | post user body =>
    simp only [handle]
    split
    · next hpost =>
      obtain ⟨hid, -, -, hconn, hext, -⟩ := postAccount_eq_ok hpost
      exact hs.snoc hid hconn hext
    · exact hs
  | patch user id body =>
    simp only [handle]
    split
    · next hpatch =>
      obtain ⟨a, ha, -, -, hedit⟩ := patchAccount_eq_ok hpatch
      obtain ⟨hid, -, -, hconn, hext, -⟩ := AccountBody.edit_eq_some hedit
      exact hs.edit (ownRow_eq_some ha).1 hid hconn hext
    · exact hs
  | sync c l =>
    simp only [handle]
    split
    · next happly => exact hs.apply happly
    · exact hs
  | normalize user account n =>
    simp only [handle, normalizeAccount]
    split
    · exact hs.snoc rfl rfl rfl
    · exact hs

/-- What one request keeps. -/
theorem AccountRequest.handle_keeps (r : AccountRequest) (hs : AccountsSound accounts)
    (h : NamesExclusive sp accounts) (hok : r.KeepsNames sp accounts) :
    NamesExclusive sp (r.handle sp accounts) := by
  cases r with
  | post user body =>
    simp only [handle]
    split
    · next a hpost =>
      obtain ⟨-, rfl, hmanual, -, -, hfree⟩ := postAccount_eq_ok hpost
      refine h.write_manual hmanual hfree fun b hb => ?_
      rw [List.mem_append, List.mem_singleton] at hb
      exact hb.symm
    · exact h
  | patch user id body =>
    simp only [handle]
    split
    · next a' hpatch =>
      obtain ⟨a, ha, hmanual, hname, hedit⟩ := patchAccount_eq_ok hpatch
      obtain ⟨hmem, -, rfl⟩ := ownRow_eq_some ha
      obtain ⟨-, hu, hl, -, -, hbank⟩ := AccountBody.edit_eq_some hedit
      refine h.write_manual (hl.trans hmanual) ?_ fun b hb => ?_
      · rw [hu]
        cases hv : body.bankName with
        | none =>
          rw [hv] at hbank
          rintro ⟨b, hb, hbu, hbs, hbn⟩
          exact h a hmem b hb hmanual hbs hbu.symm ((Option.some.inj hbank) ▸ hbn.symm)
        | some v =>
          rw [hv] at hbank hname
          rcases hok v hv a'.bankName hbank with ⟨htrue, hshown⟩ | hfree
          · rw [assertNewBankName, Option.filter_some_pos htrue] at hname
            rw [hshown]
            exact assertBankNotAlreadySynced_eq_ok hname
          · exact hfree
      · rcases Keyed.mem_modify.1 hb with ⟨hb, -⟩ | ⟨-, -, -, rfl⟩
        · exact Or.inr hb
        · exact Or.inl rfl
    · exact h
  | sync c l =>
    simp only [handle]
    split
    · next happly => exact h.apply hs hok happly
    · exact h
  | normalize user account n =>
    simp only [handle, normalizeAccount]
    split
    · next hnew =>
      have hfree : ¬BankSynced sp accounts (newAccountRow accounts user n).user
          (newAccountRow accounts user n).bankName := hok hnew.1 hnew.2.1
      refine h.write_manual rfl hfree fun b hb => ?_
      rw [List.mem_append, List.mem_singleton] at hb
      exact hb.symm
    · exact h

end Law

/-- In every state reached by requests that keep the names apart, no user has a manual account
under the name of a bank that he has synced accounts at. -/
theorem bankNames_exclusive {sp : Spelling} {accounts : List AccountRow}
    (h : AccountRequest.Reachable sp (AccountRequest.KeepsNames sp) accounts) :
    NamesExclusive sp accounts := by
  have hboth : AccountsSound accounts ∧ NamesExclusive sp accounts := by
    induction h with
    | start => exact ⟨.nil, by simp [NamesExclusive]⟩
    | step _ hok ih =>
      exact ⟨AccountRequest.handle_sound _ ih.1, AccountRequest.handle_keeps _ ih.1 ih.2 hok⟩
  exact hboth.2

/-- The case of the letters, on ASCII. -/
def asciiSpelling : Spelling := ⟨fun s => String.ofList (s.toList.map Char.toUpper), id⟩

/-- A linked bank with one account, and an account that is entered by hand. -/
def linkedBank : AccountRequest :=
  .sync { id := 1, user := 1, providerSlug := "mock_bank" } [currentAccount (some "1000200030001234")]

/-- The user adds an account by hand. -/
def cashBox : AccountRequest :=
  .post 1 { bankName := some (.text "Cash box"), fields := some { accountNumber := some "1" } }

/-- The manual account gets another name. -/
theorem bankNames_exclusive_renamed :
    NamesExclusive asciiSpelling ((AccountRequest.patch 1 2
      { bankName := some (.text "Petty cash") }).handle asciiSpelling
      (cashBox.handle asciiSpelling (linkedBank.handle asciiSpelling []))) :=
  bankNames_exclusive (.step (.step (.step .start (by decide)) (by decide)) (by decide))

/-- With a blank before it the name of the bank passes the check. -/
theorem untrimmed_shadows :
    ¬∀ (sp : Spelling) (accounts : List AccountRow),
      AccountRequest.Reachable sp (fun _ _ => True) accounts → NamesExclusive sp accounts := by
  intro h
  have hreach : AccountRequest.Reachable asciiSpelling (fun _ _ => True)
      ((AccountRequest.patch 1 2 { bankName := some (.text " Mock National Bank") }).handle
        asciiSpelling (cashBox.handle asciiSpelling (linkedBank.handle asciiSpelling []))) :=
    .step (.step (.step .start trivial) trivial) trivial
  exact absurd (h _ _ hreach) (by decide)

end NbeAdvisor
