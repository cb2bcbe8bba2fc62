import NbeAdvisor.BankNames

/-!
# What a sync does to the accounts

`apply_synced_accounts` up to its commit, on any table of accounts. The rows that hold a listed
account are overwritten with its last entry, in place, and the listed accounts that no row holds
get one row each (`Landed`). Before that the manual accounts of the user under the first
entry's bank are gone, with their transactions and with what refers to these : statements lose
their account, and anomaly flags, recurring charges and monthly summaries are deleted. Nothing else
changes, and a second application changes nothing (`syncedAccounts_exact`).

A row under a connection is synced, and its user is that of the connection. No path that
writes accounts breaks this (`AccountRequest.handle_owned`), and so a sync leaves the accounts
of other users and other connections alone.
-/

namespace NbeAdvisor

/-! ## The last entry of an account -/

/-- The last entry of the list for an external account. -/
def lastEntry : List ProviderAccount → String → Option ProviderAccount
  | [], _ => none
  | p :: l, e =>
    match lastEntry l e with
    | some q => some q
    | none => if p.externalAccountId = e then some p else none

section LastEntry

variable {l : List ProviderAccount} {p : ProviderAccount} {e : String}

/-- The last entry is one of those for the account. -/
theorem lastEntry_eq_some (h : lastEntry l e = some p) : p ∈ l ∧ p.externalAccountId = e := by
  induction l with
  | nil => cases h
  | cons q l ih =>
    unfold lastEntry at h
    split at h
    · next hq =>
      cases h
      exact ⟨List.mem_cons_of_mem _ (ih hq).1, (ih hq).2⟩
    · split_ifs at h with he
      cases h
      exact ⟨List.mem_cons_self, he⟩

/-- There is none if the account is not listed. -/
theorem lastEntry_eq_none : lastEntry l e = none ↔ ∀ p ∈ l, p.externalAccountId ≠ e := by
  induction l with
  | nil => simp [lastEntry]
  | cons q l ih =>
    unfold lastEntry
    rw [List.forall_mem_cons, ← ih]
    split
    · next hq => simp [hq]
    · next hq => simp [hq]

/-- There is one if it is. -/
theorem lastEntry_isSome (hp : p ∈ l) : ∃ q, lastEntry l p.externalAccountId = some q := by
  refine Option.ne_none_iff_exists'.1 fun hnone => ?_
  exact lastEntry_eq_none.1 hnone p hp rfl

end LastEntry

namespace AccountRow

/-- The row holds an account of the list. -/
def Listed (c : BankConnection) (l : List ProviderAccount) (a : AccountRow) : Prop :=
  ∃ p ∈ l, a.Holds c.id p.externalAccountId

instance (c : BankConnection) (l : List ProviderAccount) : DecidablePred (Listed c l) := fun a => by
  unfold Listed
  infer_instance

/-- The row as the last entry for its account has it. -/
def relanded (c : BankConnection) (l : List ProviderAccount) (a : AccountRow) : AccountRow :=
  if a.connection = some c.id then
    match a.externalAccountId.bind (lastEntry l) with
    | some p => a.land c p (p.accountNumber.getD a.accountNumber)
    | none => a
  else a

end AccountRow

section Relanded

variable {c : BankConnection} {l : List ProviderAccount} {p : ProviderAccount} {a : AccountRow}
  {e : String}

/-- A listed row takes over the last entry for it. -/
theorem relanded_of_last (ha : a.Holds c.id e) (hp : lastEntry l e = some p) :
    a.relanded c l = a.land c p (p.accountNumber.getD a.accountNumber) := by
  simp only [AccountRow.relanded, ha.1, ha.2, if_true, Option.bind_some, hp]

/-- Any other row stays as it is. -/
theorem relanded_of_not_listed (ha : ¬a.Listed c l) : a.relanded c l = a := by
  unfold AccountRow.relanded
  split
  · next hc =>
    split
    · next p hp =>
      obtain ⟨e, he, hlast⟩ := Option.bind_eq_some_iff.1 hp
      obtain ⟨hmem, rfl⟩ := lastEntry_eq_some hlast
      exact (ha ⟨p, hmem, hc, he⟩).elim
    · rfl
  · rfl

/-- A row goes on to stand for its account. -/
theorem holds_relanded {k : ConnectionId} : (a.relanded c l).Holds k e ↔ a.Holds k e := by
  unfold AccountRow.relanded
  split
  · split
    · rfl
    · rfl
  · rfl

/-- And to be listed. -/
theorem listed_relanded {l' : List ProviderAccount} :
    (a.relanded c l).Listed c l' ↔ a.Listed c l' := by
  simp only [AccountRow.Listed, holds_relanded]

/-- Where nothing is listed nothing changes. -/
theorem relanded_nil (c : BankConnection) (a : AccountRow) : a.relanded c [] = a :=
  relanded_of_not_listed fun ⟨_, hp, _⟩ => List.not_mem_nil hp

/-- What the row shows then. -/
theorem relanded_lands (ha : a.Holds c.id e) (hp : lastEntry l e = some p)
    (hn : p.accountNumber ≠ none) : (a.relanded c l).Lands c p := by
  obtain ⟨number, hnumber⟩ := Option.ne_none_iff_exists'.1 hn
  obtain ⟨-, rfl⟩ := lastEntry_eq_some hp
  rw [relanded_of_last ha hp, hnumber]
  exact ⟨ha, rfl, rfl, rfl, rfl, hnumber.symm, rfl⟩

/-- A row that shows its last entry stays. -/
theorem relanded_of_lands (ha : a.Lands c p) (hp : lastEntry l p.externalAccountId = some p) :
    a.relanded c l = a := by
  obtain ⟨hholds, huser, hlink, hbank, htype, hnumber, hcurrency⟩ := ha
  rw [relanded_of_last hholds hp, ← hnumber]
  unfold AccountRow.land
  rw [← huser, ← hlink, ← hbank, ← htype, ← hcurrency]
  rfl

/-- The second time nothing changes. -/
theorem relanded_relanded (a : AccountRow) (hl : ∀ p ∈ l, p.accountNumber ≠ none) :
    (a.relanded c l).relanded c l = a.relanded c l := by
  by_cases ha : a.Listed c l
  · obtain ⟨p, hp, hholds⟩ := ha
    obtain ⟨q, hq⟩ := lastEntry_isSome hp
    obtain ⟨hmem, hid⟩ := lastEntry_eq_some hq
    exact relanded_of_lands (relanded_lands hholds hq (hl q hmem)) (hid ▸ hq)
  · rw [relanded_of_not_listed ha, relanded_of_not_listed ha]

/-- The last entry counts. -/
theorem land_relanded (a : AccountRow) (q : ProviderAccount) (number : String) :
    (a.relanded c l).land c q number = a.land c q number := by
  unfold AccountRow.relanded
  split
  · split
    · rfl
    · rfl
  · rfl

/-- Entry after entry. -/
theorem relanded_cons (a : AccountRow) (hl : ∀ q ∈ l, q.accountNumber ≠ none) :
    (a.relanded c [p]).relanded c l = a.relanded c (p :: l) := by
  by_cases hheld : a.connection = some c.id ∧ a.externalAccountId ≠ none
  · obtain ⟨hc, he⟩ := hheld
    obtain ⟨e, he⟩ := Option.ne_none_iff_exists'.1 he
    have ha : a.Holds c.id e := ⟨hc, he⟩
    cases hq : lastEntry l e with
    | some q =>
      obtain ⟨number, hnumber⟩ := Option.ne_none_iff_exists'.1 (hl q (lastEntry_eq_some hq).1)
      have hcons : lastEntry (p :: l) e = some q := by rw [lastEntry, hq]
      rw [relanded_of_last (holds_relanded.2 ha) hq, land_relanded, relanded_of_last ha hcons,
        hnumber, Option.getD_some, Option.getD_some]
    | none =>
      have hcons : lastEntry (p :: l) e = lastEntry [p] e := by rw [lastEntry, hq, lastEntry, lastEntry]
      have hnot : ¬a.Listed c l := fun ⟨q, hmem, hholds⟩ =>
        lastEntry_eq_none.1 hq q hmem (Option.some.inj (hholds.2.symm.trans he))
      rw [relanded_of_not_listed fun h => hnot (listed_relanded.1 h)]
      simp only [AccountRow.relanded, hc, he, if_true, Option.bind_some, hcons]
  · have hnot : ∀ l' : List ProviderAccount, ¬a.Listed c l' := fun l' ⟨q, _, hholds⟩ =>
      hheld ⟨hholds.1, by rw [hholds.2]; exact Option.some_ne_none _⟩
    rw [relanded_of_not_listed (hnot [p]), relanded_of_not_listed (hnot l),
      relanded_of_not_listed (hnot (p :: l))]

end Relanded

/-! ## The loop -/

/-- The rows of the table are overwritten with their last entries, and the accounts of the list
that no row holds have a new row each. -/
def Landed (c : BankConnection) (l : List ProviderAccount) (accounts accounts' : List AccountRow) :
    Prop :=
  ∃ new : List AccountRow, accounts' = accounts.map (AccountRow.relanded c l) ++ new ∧
    ∀ a ∈ new, ∃ p, lastEntry l p.externalAccountId = some p ∧ a.Lands c p ∧
      ∀ b ∈ accounts, ¬b.Holds c.id p.externalAccountId

section Landed

variable {c : BankConnection} {l : List ProviderAccount} {p : ProviderAccount}
  {accounts accounts₁ accounts' created : List AccountRow} {a row : AccountRow} {e : String}

/-- The entries have numbers, also as the columns keep them. -/
theorem Landable.numbers (h : Landable c accounts l) :
    ∀ q ∈ l.map ProviderAccount.cut, q.accountNumber ≠ none := by
  intro q hq
  obtain ⟨p, hp, rfl⟩ := List.mem_map.1 hq
  exact (h.storable p hp).number

/-- Where nothing is listed nothing lands. -/
theorem Landed.nil (c : BankConnection) (accounts : List AccountRow) : Landed c [] accounts accounts := by
  refine ⟨[], ?_, by simp⟩
  rw [List.append_nil, List.map_congr_left fun a _ => relanded_nil c a, List.map_id']

/-- One entry. -/
theorem Landed.one (hs : AccountsSound accounts) (h : AccountWritten c p accounts accounts' row) :
    Landed c [p.cut] accounts accounts' := by
  have hlast : lastEntry [p.cut] p.cut.externalAccountId = some p.cut := by simp [lastEntry]
  cases h with
  | @renewed d number hd hholds hn =>
    refine ⟨[], ?_, by simp⟩
    rw [List.append_nil]
    refine List.map_congr_left fun r hr => ?_
    by_cases hid : r.id = d.id
    · obtain rfl := Keyed.eq_of_pk hs.ids hr hd hid
      rw [if_pos rfl, relanded_of_last (hs.holds_cut hr hholds) hlast, ← hn, Option.getD_some]
    · rw [if_neg hid, relanded_of_not_listed]
      rintro ⟨q, hq, hr'⟩
      rw [List.mem_singleton.1 hq] at hr'
      exact hid (hs.slots r hr d hd _ _ hr' (hs.holds_cut hd hholds))
  | @new number _ hfree hn =>
    have hsame : ∀ r ∈ accounts, r.relanded c [p.cut] = r := by
      refine fun r hr => relanded_of_not_listed ?_
      rintro ⟨q, hq, hr'⟩
      rw [List.mem_singleton.1 hq] at hr'
      exact hfree r hr hr'
    refine ⟨_, by rw [List.map_congr_left hsame, List.map_id'], fun b hb => ?_⟩
    rw [List.mem_singleton.1 hb]
    exact ⟨p.cut, hlast, AccountRow.make_lands c hn _, hfree⟩

/-- One entry, then the others. -/
theorem Landed.cons (h : Landed c [p] accounts accounts₁) (h' : Landed c l accounts₁ accounts')
    (hl : ∀ q ∈ p :: l, q.accountNumber ≠ none) : Landed c (p :: l) accounts accounts' := by
  obtain ⟨new, rfl, hnew⟩ := h
  obtain ⟨new', rfl, hnew'⟩ := h'
  have hrest : ∀ q ∈ l, q.accountNumber ≠ none := fun q hq => hl q (List.mem_cons_of_mem _ hq)
  have hmap : ∀ a : AccountRow, (a.relanded c [p]).relanded c l = a.relanded c (p :: l) :=
    fun a => relanded_cons a hrest
  refine ⟨new.map (AccountRow.relanded c l) ++ new', ?_, fun a ha => ?_⟩
  · rw [List.map_append, List.append_assoc, List.map_map]
    exact congrArg (· ++ _) (List.map_congr_left fun a _ => hmap a)
  rcases List.mem_append.1 ha with ha | ha
  · obtain ⟨b, hb, rfl⟩ := List.mem_map.1 ha
    obtain ⟨p', hp', hlands, hnone⟩ := hnew b hb
    obtain rfl := List.mem_singleton.1 (lastEntry_eq_some hp').1
    obtain ⟨q, hq⟩ := lastEntry_isSome (l := p' :: l) List.mem_cons_self
    obtain ⟨hmem, hid⟩ := lastEntry_eq_some hq
    refine ⟨q, hid ▸ hq, ?_, hid ▸ hnone⟩
    rw [← relanded_of_lands hlands hp', hmap b]
    exact relanded_lands hlands.1 hq (hl q hmem)
  · obtain ⟨q, hq, hlands, hnone⟩ := hnew' a ha
    refine ⟨q, by rw [lastEntry, hq], hlands, fun b hb hholds => ?_⟩
    exact hnone _ (List.mem_append_left _ (List.mem_map_of_mem hb)) (holds_relanded.2 hholds)

/-- The loop, over what the columns make of the entries. -/
theorem updateOrCreateAccounts_landed (hs : AccountsSound accounts)
    (h : updateOrCreateAccounts c l accounts = .ok (accounts', created)) :
    Landed c (l.map .cut) accounts accounts' := by
  induction l generalizing accounts created with
  | nil =>
    cases h
    exact .nil c _
  | cons p l ih =>
    have hl := (updateOrCreateAccounts_isOk hs).1 ⟨_, h⟩
    unfold updateOrCreateAccounts at h
    split at h
    · cases h
    next accounts₁ a hone =>
    split at h
    · cases h
    next hrest =>
    cases h
    obtain ⟨-, row, hw, -⟩ := updateOrCreateAccount_eq_ok hone
    exact (Landed.one hs hw).cons (ih (hs.updateOrCreate hone) hrest) hl.numbers

/-- The other rows stay as they are. -/
theorem Landed.others (h : Landed c l accounts accounts') :
    (accounts'.filter fun a => ¬a.Listed c l) = accounts.filter fun a => ¬a.Listed c l := by
  obtain ⟨new, rfl, hnew⟩ := h
  have hnone : (new.filter fun a => ¬a.Listed c l) = [] := by
    refine List.filter_eq_nil_iff.2 fun a ha hnot => ?_
    obtain ⟨p, hp, hlands, -⟩ := hnew a ha
    exact of_decide_eq_true hnot ⟨p, (lastEntry_eq_some hp).1, hlands.1⟩
  have hkept : ∀ a ∈ accounts, ((fun a : AccountRow => decide ¬a.Listed c l) ∘
      AccountRow.relanded c l) a = decide ¬a.Listed c l :=
    fun a _ => decide_eq_decide.2 (not_congr listed_relanded)
  have hsame : ∀ a ∈ accounts.filter fun a => ¬a.Listed c l, a.relanded c l = a :=
    fun a ha => relanded_of_not_listed (of_decide_eq_true (List.mem_filter.1 ha).2)
  rw [List.filter_append, hnone, List.append_nil, List.filter_map, List.filter_congr hkept,
    List.map_congr_left hsame, List.map_id']

/-- A listed account shows its last entry, in the row that held it if there is one. -/
theorem updateOrCreateAccounts_last (hs : AccountsSound accounts)
    (h : updateOrCreateAccounts c l accounts = .ok (accounts', created))
    (hp : lastEntry (l.map .cut) e = some p) :
    ∃ a ∈ accounts', a.Lands c p ∧
      ∀ b ∈ accounts, b.Holds c.id e → a = b.land c p a.accountNumber := by
  have hl := (updateOrCreateAccounts_isOk hs).1 ⟨_, h⟩
  obtain ⟨hmem, rfl⟩ := lastEntry_eq_some hp
  obtain ⟨q, hq, hqp⟩ := List.mem_map.1 hmem
  obtain ⟨a, ha, hholds⟩ :=
    (updateOrCreateAccounts_holds hs h).2 (Or.inr ⟨q, hq, congrArg _ hqp⟩)
  obtain ⟨new, rfl, hfresh⟩ := updateOrCreateAccounts_landed hs h
  rcases List.mem_append.1 ha with hold | hnew
  · obtain ⟨r, hr, rfl⟩ := List.mem_map.1 hold
    have hr' := holds_relanded.1 hholds
    refine ⟨_, ha, relanded_lands hr' hp (hl.numbers p hmem), fun b hb hb' => ?_⟩
    obtain rfl := Keyed.eq_of_pk hs.ids hb hr (hs.slots b hb r hr _ _ hb' hr')
    rw [relanded_of_last hr' hp]
    rfl
  · obtain ⟨u, hu, hlands, hnone⟩ := hfresh a hnew
    have hid := Option.some.inj (hlands.1.2.symm.trans hholds.2)
    obtain rfl : u = p := Option.some.inj (hu.symm.trans (hid ▸ hp))
    exact ⟨a, ha, hlands, fun b hb hb' => (hnone b hb hb').elim⟩

/-- A second loop that goes through writes what is there. -/
theorem updateOrCreateAccounts_again {accounts₂ created₂ : List AccountRow}
    (hs : AccountsSound accounts)
    (h : updateOrCreateAccounts c l accounts = .ok (accounts', created))
    (h₂ : updateOrCreateAccounts c l accounts' = .ok (accounts₂, created₂)) :
    accounts₂ = accounts' := by
  have hl := (updateOrCreateAccounts_isOk hs).1 ⟨_, h⟩
  obtain ⟨new, hnew, hfresh⟩ := updateOrCreateAccounts_landed hs h
  obtain ⟨new₂, hnew₂, hfresh₂⟩ := updateOrCreateAccounts_landed (hs.updateOrCreateAll h) h₂
  have hnil : new₂ = [] := by
    refine List.eq_nil_iff_forall_not_mem.2 fun a ha => ?_
    obtain ⟨p, hp, -, hnone⟩ := hfresh₂ a ha
    obtain ⟨q, hq, hqp⟩ := List.mem_map.1 (lastEntry_eq_some hp).1
    obtain ⟨b, hb, hholds⟩ :=
      (updateOrCreateAccounts_holds hs h).2 (Or.inr ⟨q, hq, congrArg _ hqp⟩)
    exact hnone b hb hholds
  have hsame : ∀ a ∈ accounts', a.relanded c (l.map .cut) = a := by
    intro a ha
    rw [hnew] at ha
    rcases List.mem_append.1 ha with ha | ha
    · obtain ⟨b, -, rfl⟩ := List.mem_map.1 ha
      exact relanded_relanded b hl.numbers
    · obtain ⟨p, hp, hlands, -⟩ := hfresh a ha
      exact relanded_of_lands hlands hp
  rw [hnew₂, hnil, List.append_nil, List.map_congr_left hsame, List.map_id']

end Landed

/-! ## Whose accounts a connection has -/

/-- The rows under a connection are synced, and have its user. -/
def AccountsOwned (owner : ConnectionId → UserId) (accounts : List AccountRow) : Prop :=
  ∀ a ∈ accounts, ∀ k, a.connection = some k → a.linkType = .synced ∧ a.user = owner k

section Owned

variable {sp : Spelling} {owner : ConnectionId → UserId} {c : BankConnection}
  {l : List ProviderAccount} {accounts accounts' created : List AccountRow} {a : AccountRow}

/-- An account that is kept by hand has no connection. -/
theorem AccountsOwned.snoc (h : AccountsOwned owner accounts) (ha : a.connection = none) :
    AccountsOwned owner (accounts ++ [a]) := by
  intro b hb k hk
  rcases List.mem_append.1 hb with hb | hb
  · exact h b hb k hk
  · rw [List.mem_singleton.1 hb, ha] at hk
    cases hk

/-- So do accounts that land. -/
theorem AccountsOwned.apply (h : AccountsOwned owner accounts) (hs : AccountsSound accounts)
    (hc : owner c.id = c.user)
    (happly : applySyncedAccounts sp c l accounts = .ok (accounts', created)) :
    AccountsOwned owner accounts' := by
  intro a ha k hk
  rcases applySyncedAccounts_only hs happly ha with ha | ⟨p, -, hlands⟩
  · exact h a ha k hk
  · obtain rfl : c.id = k := Option.some.inj (hlands.1.1.symm.trans hk)
    exact ⟨hlands.2.2.1, hlands.2.1.trans hc.symm⟩

/-- The syncs are of connections with their users. -/
def AccountRequest.OfOwner (owner : ConnectionId → UserId) : AccountRequest → Prop
  | sync c _ => owner c.id = c.user
  | _ => True

/-- A row is edited under the connection that it has. -/
theorem AccountsOwned.edit {b : AccountRow} (h : AccountsOwned owner accounts) (hb : b ∈ accounts)
    (hmanual : b.linkType = .manual) (hconn : a.connection = b.connection) :
    AccountsOwned owner (Keyed.modify (·.id) a.id (fun _ => a) accounts) := by
  intro u hu k hk
  rcases Keyed.mem_modify.1 hu with ⟨hu, -⟩ | ⟨-, -, -, rfl⟩
  · exact h u hu k hk
  · have hsynced := (h b hb k (hconn ▸ hk)).1
    rw [hmanual] at hsynced
    cases hsynced

/-- What the paths that write accounts keep. -/
theorem AccountRequest.handle_owned (r : AccountRequest) (hs : AccountsSound accounts)
    (h : AccountsOwned owner accounts) (hr : r.OfOwner owner) :
    AccountsOwned owner (r.handle sp accounts) := by
  cases r with
  | post user body =>
    simp only [handle]
    split
    · next hpost =>
      obtain ⟨-, -, -, hconn, -⟩ := postAccount_eq_ok hpost
      exact h.snoc hconn
    · exact h
  | patch user id body =>
    simp only [handle]
    split
    · next hpatch =>
      obtain ⟨a, ha, hmanual, -, hedit⟩ := patchAccount_eq_ok hpatch
      obtain ⟨-, -, -, hconn, -⟩ := AccountBody.edit_eq_some hedit
      exact h.edit (ownRow_eq_some ha).1 hmanual hconn
    · exact h
  | sync c l =>
    simp only [handle]
    split
    · next happly => exact h.apply hs hr happly
    · exact h
  | normalize user account n =>
    simp only [handle, normalizeAccount]
    split
    · exact h.snoc rfl
    · exact h

/-- The tables that they reach. A request that only deletes accounts keeps it too, since it is said
of each row by itself. -/
theorem AccountRequest.reachable_owned
    (h : Reachable sp (fun _ r => r.OfOwner owner) accounts) :
    AccountsSound accounts ∧ AccountsOwned owner accounts := by
  induction h with
  | start => exact ⟨.nil, by simp [AccountsOwned]⟩
  | step _ hr ih =>
    exact ⟨AccountRequest.handle_sound _ ih.1, AccountRequest.handle_owned _ ih.1 ih.2 hr⟩

end Owned

/-! ## The tables that refer to accounts -/

/-- `AnomalyFlag`, by what it refers to. -/
structure AnomalyFlag where
  id : ℕ
  user : UserId
  account : Option AccountId := none
  transaction : Option TransactionId := none
  deriving DecidableEq, Repr

/-- `RecurringCharge`, by what it refers to. -/
structure RecurringCharge where
  id : ℕ
  user : UserId
  account : Option AccountId := none
  deriving DecidableEq, Repr

/-- `MonthlySummary`, by what it refers to. -/
structure MonthlySummaryRow where
  id : ℕ
  user : UserId
  account : Option AccountId := none
  deriving DecidableEq, Repr

/-- The tables of the bank requests, with the others that refer to accounts or transactions. -/
structure AccountBooks extends BankStore where
  statements : List StatementFile := []
  anomalyFlags : List AnomalyFlag := []
  recurringCharges : List RecurringCharge := []
  monthlySummaries : List MonthlySummaryRow := []
  deriving DecidableEq

namespace AccountBooks

/-- `.delete()` of accounts, with the `on_delete` rules of the tables that refer to them :
statements lose their account, and the other rows go with it. -/
def deleteAccounts (d : AccountBooks) (rows : List AccountRow) : AccountBooks :=
  let gone := rows.map (·.id)
  let transactions := (d.ledger.filter fun t => t.account ∈ gone).map (·.id)
  { d with
    accounts := d.accounts.filter fun a => a ∉ rows
    ledger := d.ledger.filter fun t => t.account ∉ gone
    statements := d.statements.map fun st =>
      if ∃ id ∈ st.account, id ∈ gone then { st with account := none } else st
    anomalyFlags := d.anomalyFlags.filter fun f =>
      (∀ id ∈ f.account, id ∉ gone) ∧ ∀ t ∈ f.transaction, t ∉ transactions
    recurringCharges := d.recurringCharges.filter fun r => ∀ id ∈ r.account, id ∉ gone
    monthlySummaries := d.monthlySummaries.filter fun m => ∀ id ∈ m.account, id ∉ gone }

/-- The atomic block of `apply_synced_accounts` : the tables afterwards, with the accounts that it
returns or the error that rolls it back. -/
def applySyncedAccounts (sp : Spelling) (d : AccountBooks) (c : BankConnection)
    (l : List ProviderAccount) : AccountBooks × Except DbError (List AccountRow) :=
  let cleared := d.deleteAccounts (superseded sp c l d.accounts)
  match updateOrCreateAccounts c l cleared.accounts with
  | .error e => (d, .error e)
  | .ok (accounts, created) => ({ cleared with accounts }, .ok created)

/-- On the tables of the bank requests this is the step that they take. -/
theorem applySyncedAccounts_bank (sp : Spelling) (d : AccountBooks) (c : BankConnection)
    (l : List ProviderAccount) : d.toBankStore.applyAccounts sp c l =
      (d.applySyncedAccounts sp c l).2.map fun created =>
        ((d.applySyncedAccounts sp c l).1.toBankStore, created) := by
  unfold applySyncedAccounts BankStore.applyAccounts NbeAdvisor.applySyncedAccounts
  cases h : updateOrCreateAccounts c l
    (d.accounts.filter fun a => a ∉ superseded sp c l d.accounts) with
  | error e => simp only [deleteAccounts, h, Except.map]
  | ok x => simp only [deleteAccounts, h, Except.map]

/-- No account is deleted. -/
theorem deleteAccounts_nil (d : AccountBooks) : d.deleteAccounts [] = d := by
  simp [deleteAccounts]

end AccountBooks

/-! ## The block -/

namespace AccountRow

/-- A row of another user, or under another connection. -/
def Elsewhere (c : BankConnection) (a : AccountRow) : Prop :=
  a.user ≠ c.user ∨ ∃ k ∈ a.connection, k ≠ c.id

instance (c : BankConnection) : DecidablePred (Elsewhere c) := fun a => by
  unfold Elsewhere
  infer_instance

/-- A manual account of the user under the first entry's bank. -/
def Superseded (sp : Spelling) (c : BankConnection) (l : List ProviderAccount) (a : AccountRow) :
    Prop :=
  ∃ first ∈ l.head?, a.Shadows sp c first.bankName

instance (sp : Spelling) (c : BankConnection) (l : List ProviderAccount) :
    DecidablePred (Superseded sp c l) := fun a => by
  unfold Superseded
  infer_instance

end AccountRow

namespace AccountBooks

/-- The account of this id goes. -/
def Loses (sp : Spelling) (c : BankConnection) (l : List ProviderAccount) (d : AccountBooks)
    (id : AccountId) : Prop :=
  ∃ a ∈ d.accounts, a.id = id ∧ a.Superseded sp c l

instance (sp : Spelling) (c : BankConnection) (l : List ProviderAccount) (d : AccountBooks) :
    DecidablePred (d.Loses sp c l) := fun id => by
  unfold Loses
  infer_instance

/-- What the block of `apply_synced_accounts` has done. -/
structure Applied (sp : Spelling) (c : BankConnection) (l : List ProviderAccount)
    (d d' : AccountBooks) : Prop where
  /-- Only accounts, and the tables that refer to them, are written. -/
  rest : d' = { d with
    accounts := d'.accounts
    ledger := d'.ledger
    statements := d'.statements
    anomalyFlags := d'.anomalyFlags
    recurringCharges := d'.recurringCharges
    monthlySummaries := d'.monthlySummaries }
  external : ∀ e, (∃ a ∈ d'.accounts, a.Holds c.id e) ↔
    (∃ a ∈ d.accounts, a.Holds c.id e) ∨ ∃ p ∈ l, p.cut.externalAccountId = e
  single : ∀ e, (d'.accounts.filter fun a => a.Holds c.id e).length ≤ 1
  last : ∀ e p, lastEntry (l.map .cut) e = some p → ∃ a ∈ d'.accounts, a.Lands c p ∧
    ∀ b ∈ d.accounts, b.Holds c.id e → a = b.land c p a.accountNumber
  /-- Of the other rows only the manual accounts under the first entry's bank are gone. -/
  others : (d'.accounts.filter fun a => ¬a.Listed c (l.map .cut)) =
    d.accounts.filter fun a => ¬a.Listed c (l.map .cut) ∧ ¬a.Superseded sp c l
  transactions : d'.ledger = d.ledger.filter fun t => ¬d.Loses sp c l t.account
  statements : d'.statements = d.statements.map fun st =>
    if ∃ id ∈ st.account, d.Loses sp c l id then { st with account := none } else st
  anomalyFlags : d'.anomalyFlags = d.anomalyFlags.filter fun f =>
    (∀ id ∈ f.account, ¬d.Loses sp c l id) ∧
      ∀ t ∈ d.ledger, f.transaction = some t.id → ¬d.Loses sp c l t.account
  recurringCharges : d'.recurringCharges = d.recurringCharges.filter fun r =>
    ∀ id ∈ r.account, ¬d.Loses sp c l id
  monthlySummaries : d'.monthlySummaries = d.monthlySummaries.filter fun m =>
    ∀ id ∈ m.account, ¬d.Loses sp c l id
  /-- The accounts of other users, and under other connections, are as they were. -/
  untouched : (d'.accounts.filter fun a => a.Elsewhere c) = d.accounts.filter fun a => a.Elsewhere c
  /-- The same list changes nothing more, whether it goes through or not. -/
  again : (d'.applySyncedAccounts sp c l).1 = d'

end AccountBooks

section Applied

variable {sp : Spelling} {owner : ConnectionId → UserId} {c : BankConnection}
  {l : List ProviderAccount} {accounts accounts' created : List AccountRow} {a : AccountRow}
  {d d' : AccountBooks} {id : AccountId}

/-- The manual accounts that are deleted. -/
theorem mem_superseded :
    a ∈ superseded sp c l accounts ↔ a ∈ accounts ∧ a.Superseded sp c l := by
  unfold superseded AccountRow.Superseded
  split
  · simp
  · rw [List.mem_filter, List.head?_cons]
    simp

/-- The accounts that go, by their ids. -/
theorem AccountBooks.mem_gone :
    id ∈ (superseded sp c l d.accounts).map (·.id) ↔ d.Loses sp c l id := by
  rw [List.mem_map]
  exact ⟨fun ⟨a, ha, hid⟩ => ⟨a, (mem_superseded.1 ha).1, hid, (mem_superseded.1 ha).2⟩,
    fun ⟨a, ha, hid, hsup⟩ => ⟨a, mem_superseded.2 ⟨ha, hsup⟩, hid⟩⟩

/-- The transactions that go, by their ids. -/
theorem AccountBooks.mem_goneTransactions {t : TransactionId} :
    t ∈ (d.ledger.filter fun t => t.account ∈ (superseded sp c l d.accounts).map (·.id)).map
      (·.id) ↔ ∃ u ∈ d.ledger, u.id = t ∧ d.Loses sp c l u.account := by
  rw [List.mem_map]
  constructor
  · rintro ⟨u, hu, hid⟩
    obtain ⟨hmem, hgone⟩ := List.mem_filter.1 hu
    exact ⟨u, hmem, hid, AccountBooks.mem_gone.1 (of_decide_eq_true hgone)⟩
  · rintro ⟨u, hu, hid, hloses⟩
    exact ⟨u, List.mem_filter.2 ⟨hu, decide_eq_true (AccountBooks.mem_gone.2 hloses)⟩, hid⟩

/-- No manual account is left for a second application to supersede. -/
theorem superseded_again (hs : AccountsSound accounts)
    (h : applySyncedAccounts sp c l accounts = .ok (accounts', created)) :
    superseded sp c l accounts' = [] := by
  refine List.eq_nil_iff_forall_not_mem.2 fun a ha => ?_
  obtain ⟨hmem, hsup⟩ := mem_superseded.1 ha
  rcases updateOrCreateAccounts_only (hs.filter _) h hmem with hold | ⟨p, -, hlands⟩
  · obtain ⟨hold, hnot⟩ := List.mem_filter.1 hold
    exact of_decide_eq_true hnot (mem_superseded.2 ⟨hold, hsup⟩)
  · obtain ⟨first, -, -, hmanual, -⟩ := hsup
    cases hlands.2.2.1.symm.trans hmanual

/-- Rows elsewhere are not listed. -/
theorem AccountsOwned.not_listed (h : AccountsOwned owner accounts) (hc : owner c.id = c.user)
    (ha : a ∈ accounts) (hother : a.Elsewhere c) : ¬a.Listed c l := by
  rintro ⟨p, -, hconn, -⟩
  rcases hother with huser | ⟨k, hk, hne⟩
  · exact huser ((h a ha c.id hconn).2.trans hc)
  · exact hne (Option.some.inj (hk.symm.trans hconn))

/-- Nor are they deleted. -/
theorem AccountsOwned.not_superseded (h : AccountsOwned owner accounts) (sp : Spelling)
    (ha : a ∈ accounts) (hother : a.Elsewhere c) : ¬a.Superseded sp c l := by
  rintro ⟨first, -, huser, hmanual, -⟩
  rcases hother with hne | ⟨k, hk, -⟩
  · exact hne huser
  · cases hmanual.symm.trans (h a ha k hk).1

/-- A row under the connection is synced, and is not deleted. -/
theorem AccountsOwned.holds_remaining_iff (h : AccountsOwned owner accounts) {e : String} :
    a ∈ (accounts.filter fun a => a ∉ superseded sp c l accounts) ∧ a.Holds c.id e ↔
      a ∈ accounts ∧ a.Holds c.id e := by
  rw [List.mem_filter]
  refine ⟨fun ⟨ha, hh⟩ => ⟨ha.1, hh⟩, fun ⟨ha, hh⟩ => ⟨⟨ha, decide_eq_true fun hsup => ?_⟩, hh⟩⟩
  obtain ⟨-, first, -, -, hmanual, -⟩ := mem_superseded.1 hsup
  cases hmanual.symm.trans (h a ha c.id hh.1).1

/-- A filter that is implied by the next one. -/
theorem filter_filter_of_imp {rows : List AccountRow} {p q : AccountRow → Prop} [DecidablePred p]
    [DecidablePred q] (h : ∀ a ∈ rows, q a → p a) :
    (rows.filter fun a => p a).filter (fun a => q a) = rows.filter fun a => q a := by
  rw [List.filter_filter]
  refine List.filter_congr fun a ha => ?_
  rw [← Bool.decide_and]
  exact decide_eq_decide.2 ⟨And.left, fun hq => ⟨hq, h a ha hq⟩⟩

/-- The block that goes through, on the accounts. -/
theorem AccountBooks.applySyncedAccounts_eq_ok
    (h : d.applySyncedAccounts sp c l = (d', .ok created)) :
    ∃ accounts', NbeAdvisor.applySyncedAccounts sp c l d.accounts = .ok (accounts', created) ∧
      d' = { d.deleteAccounts (superseded sp c l d.accounts) with accounts := accounts' } := by
  unfold applySyncedAccounts at h
  dsimp only at h
  split at h
  · cases h
  next happly =>
  cases h
  exact ⟨_, happly, rfl⟩

/-- The rows that the block has not written are the old ones without the deleted ones. -/
theorem applySyncedAccounts_others (hs : AccountsSound accounts)
    (h : applySyncedAccounts sp c l accounts = .ok (accounts', created)) :
    (accounts'.filter fun a => ¬a.Listed c (l.map .cut)) = accounts.filter fun a =>
      ¬a.Listed c (l.map .cut) ∧ ¬a.Superseded sp c l := by
  rw [(updateOrCreateAccounts_landed (hs.filter _) h).others, List.filter_filter]
  refine List.filter_congr fun a ha => ?_
  rw [← Bool.decide_and]
  refine decide_eq_decide.2 (and_congr_right fun _ => not_congr ?_)
  exact mem_superseded.trans (and_iff_right ha)

/-- The flags that stay, by the rows that go. -/
theorem AccountBooks.flag_stays_iff (f : AnomalyFlag) :
    ((∀ id ∈ f.account, id ∉ (superseded sp c l d.accounts).map (·.id)) ∧
      ∀ t ∈ f.transaction,
        t ∉ (d.ledger.filter fun t =>
          t.account ∈ (superseded sp c l d.accounts).map (·.id)).map (·.id)) ↔
    (∀ id ∈ f.account, ¬d.Loses sp c l id) ∧
      ∀ t ∈ d.ledger, f.transaction = some t.id → ¬d.Loses sp c l t.account := by
  refine and_congr (forall₂_congr fun id _ => not_congr mem_gone) ⟨?_, ?_⟩
  · intro hnone t ht hf hloses
    exact hnone t.id hf (mem_goneTransactions.2 ⟨t, ht, rfl, hloses⟩)
  · intro hall t hf hgone
    obtain ⟨u, hu, rfl, hloses⟩ := mem_goneTransactions.1 hgone
    exact hall u hu hf hloses

/-- A second application, whether it goes through or is rolled back. -/
theorem AccountBooks.applySyncedAccounts_again (hs : AccountsSound d.accounts)
    (h : d.applySyncedAccounts sp c l = (d', .ok created)) :
    (d'.applySyncedAccounts sp c l).1 = d' := by
  obtain ⟨accounts', happly, rfl⟩ := applySyncedAccounts_eq_ok h
  unfold applySyncedAccounts
  dsimp only
  rw [superseded_again hs happly, deleteAccounts_nil]
  dsimp only
  split
  · rfl
  next h₂ => rw [updateOrCreateAccounts_again (hs.filter _) happly h₂]

/-- What a block that goes through has done. -/
theorem AccountBooks.applySyncedAccounts_applied (hs : AccountsSound d.accounts)
    (ho : AccountsOwned owner d.accounts) (hc : owner c.id = c.user)
    (h : d.applySyncedAccounts sp c l = (d', .ok created)) : d.Applied sp c l d' := by
  have hagain := applySyncedAccounts_again hs h
  obtain ⟨accounts', happly, rfl⟩ := applySyncedAccounts_eq_ok h
  have hs' : AccountsSound accounts' := hs.apply happly
  have ho' : AccountsOwned owner accounts' := ho.apply hs hc happly
  have hothers := applySyncedAccounts_others hs happly
  have hgone : ∀ o : Option AccountId, (∀ id ∈ o, id ∉ (superseded sp c l d.accounts).map (·.id)) ↔
      ∀ id ∈ o, ¬d.Loses sp c l id :=
    fun o => forall₂_congr fun id _ => not_congr mem_gone
  constructor
  case rest => rfl
  case external =>
    intro e
    rw [updateOrCreateAccounts_holds (hs.filter _) happly]
    simp only [ho.holds_remaining_iff]
  case single =>
    intro e
    refine Keyed.length_filter_le_one hs'.ids fun r hr u hu hre hue => ?_
    exact hs'.slots r hr u hu c.id e (of_decide_eq_true hre) (of_decide_eq_true hue)
  case last =>
    intro e p hp
    obtain ⟨a, ha, hlands, hsame⟩ := updateOrCreateAccounts_last (hs.filter _) happly hp
    refine ⟨a, ha, hlands, fun b hb hholds => hsame b ?_ hholds⟩
    exact (ho.holds_remaining_iff.2 ⟨hb, hholds⟩).1
  case others => exact hothers
  case transactions =>
    exact List.filter_congr fun t _ => decide_eq_decide.2 (not_congr mem_gone)
  case statements =>
    refine List.map_congr_left fun st _ => ?_
    have hiff : (∃ id ∈ st.account, id ∈ (superseded sp c l d.accounts).map (·.id)) ↔
        ∃ id ∈ st.account, d.Loses sp c l id :=
      exists_congr fun id => and_congr_right fun _ => mem_gone
    exact if_congr hiff rfl rfl
  case anomalyFlags =>
    exact List.filter_congr fun f _ => decide_eq_decide.2 (flag_stays_iff f)
  case recurringCharges =>
    exact List.filter_congr fun r _ => decide_eq_decide.2 (hgone r.account)
  case monthlySummaries =>
    exact List.filter_congr fun m _ => decide_eq_decide.2 (hgone m.account)
  case untouched =>
    have hafter := filter_filter_of_imp fun a ha (hother : a.Elsewhere c) =>
      ho'.not_listed (l := l.map .cut) hc ha hother
    have hbefore := filter_filter_of_imp fun a ha (hother : a.Elsewhere c) =>
      And.intro (ho.not_listed (l := l.map .cut) hc ha hother)
        (ho.not_superseded (l := l) sp ha hother)
    rw [← hafter, hothers, hbefore]
  case again => exact hagain

/-- The block goes through exactly if the database takes every account, and is rolled back
otherwise. -/
theorem AccountBooks.applySyncedAccounts_outcome (sp : Spelling) (c : BankConnection)
    (l : List ProviderAccount) (hs : AccountsSound d.accounts) :
    (¬Landable c (remaining sp c l d.accounts) l ∧
      ∃ e, d.applySyncedAccounts sp c l = (d, .error e)) ∨
    (Landable c (remaining sp c l d.accounts) l ∧
      ∃ d' created, d.applySyncedAccounts sp c l = (d', .ok created)) := by
  have hiff := updateOrCreateAccounts_isOk (c := c) (l := l)
    (hs.filter fun a => a ∉ superseded sp c l d.accounts)
  unfold applySyncedAccounts
  dsimp only [deleteAccounts]
  cases h : updateOrCreateAccounts c l
    (d.accounts.filter fun a => a ∉ superseded sp c l d.accounts) with
  | error e =>
    refine Or.inl ⟨fun hl => ?_, e, rfl⟩
    obtain ⟨x, hx⟩ := hiff.2 hl
    cases hx.symm.trans h
  | ok x => exact Or.inr ⟨hiff.1 ⟨x, h⟩, _, _, rfl⟩

end Applied

/-- `apply_synced_accounts` of a list of accounts, for any connection and database. The block is
rolled back exactly if the database does not take the accounts. Otherwise the connection has its
old external accounts and the listed ones as the column keeps their ids, in one row each that
shows the last entry for it. Apart from these rows, the manual accounts of the user under the
first entry's bank are gone, with their transactions and with what refers to these by the
`on_delete` rules, and the same list changes nothing more. -/
theorem syncedAccounts_exact (sp : Spelling) {owner : ConnectionId → UserId} {d : AccountBooks}
    {c : BankConnection} (l : List ProviderAccount) (hs : AccountsSound d.accounts)
    (ho : AccountsOwned owner d.accounts) (hc : owner c.id = c.user) :
    (¬Landable c (remaining sp c l d.accounts) l ∧
      ∃ e, d.applySyncedAccounts sp c l = (d, .error e)) ∨
    (Landable c (remaining sp c l d.accounts) l ∧
      ∃ d' created, d.applySyncedAccounts sp c l = (d', .ok created) ∧ d.Applied sp c l d' ∧
        AccountsSound d'.accounts ∧ AccountsOwned owner d'.accounts) := by
  rcases AccountBooks.applySyncedAccounts_outcome sp c l hs with h | ⟨hl, d', created, h⟩
  · exact Or.inl h
  · refine Or.inr ⟨hl, d', created, h, AccountBooks.applySyncedAccounts_applied hs ho hc h, ?_⟩
    obtain ⟨accounts', happly, rfl⟩ := AccountBooks.applySyncedAccounts_eq_ok h
    exact ⟨hs.apply happly, ho.apply hs hc happly⟩

/-- A second user has linked the bank. -/
def otherLink : AccountRequest :=
  .sync { id := 2, user := 2, providerSlug := "mock_bank" } [currentAccount (some "9000")]

/-- The first user keeps an account there by hand. -/
def handKeptAccount : AccountRequest :=
  .post 1 { bankName := some (.text "Mock National Bank")
            fields := some { accountNumber := some "1" } }

/-- A statement, the payment of the rent, and what was made of them are in this account. He has
another account elsewhere. -/
def handKept : AccountBooks where
  accounts := cashBox.handle asciiSpelling
    (handKeptAccount.handle asciiSpelling (otherLink.handle asciiSpelling []))
  ledger := [⟨{ user := 1, account := 2, transactionDate := paymentDay, merchantRaw := some "Rent"
                category := none, amount := 8500, source := .manual
                transactionType := some "debit" }, 1⟩]
  statements := [{ id := 1, user := 1, account := some 2 }]
  anomalyFlags := [{ id := 1, user := 1, transaction := some 1 }]
  monthlySummaries := [{ id := 1, user := 1, account := some 2 }, { id := 2, user := 1 }]

/-- Requests lead to the accounts. -/
theorem handKept_reachable : AccountRequest.Reachable asciiSpelling (fun _ r => r.OfOwner id)
    (cashBox.handle asciiSpelling
      (handKeptAccount.handle asciiSpelling (otherLink.handle asciiSpelling []))) :=
  .step (.step (.step .start rfl) trivial) trivial

/-- So they are sound. -/
theorem handKept_owned : AccountsSound handKept.accounts ∧ AccountsOwned id handKept.accounts :=
  AccountRequest.reachable_owned handKept_reachable

/-- His connection. -/
def handKeptLink : BankConnection := { id := 1, user := 1, providerSlug := "mock_bank" }

/-- The bank lists one of two accounts twice. -/
def listedTwice : List ProviderAccount :=
  [currentAccount (some "1000"), { currentAccount (some "3000") with externalAccountId := "acc-2" },
    currentAccount (some "2000")]

/-- He links the bank. -/
theorem syncedAccounts_exact_handKept : ∃ d' created,
    handKept.applySyncedAccounts asciiSpelling handKeptLink listedTwice = (d', .ok created) ∧
      handKept.Applied asciiSpelling handKeptLink listedTwice d' := by
  rcases syncedAccounts_exact asciiSpelling (c := handKeptLink) listedTwice handKept_owned.1
    handKept_owned.2 rfl with ⟨hno, -⟩ | ⟨-, d', created, h, happlied, -⟩
  · exact absurd (by decide) hno
  · exact ⟨d', created, h, happlied⟩

/-- The statement has lost its account. -/
theorem handKept_statement_changed :
    ¬∀ (sp : Spelling) (owner : ConnectionId → UserId) (d d' : AccountBooks) (c : BankConnection)
      (l : List ProviderAccount) (created : List AccountRow), AccountsSound d.accounts →
      AccountsOwned owner d.accounts → owner c.id = c.user → (∀ p ∈ l, p.accountNumber ≠ none) →
      d.applySyncedAccounts sp c l = (d', .ok created) →
      d' = { d with accounts := d'.accounts, ledger := d'.ledger } := by
  intro h
  rcases AccountBooks.applySyncedAccounts_outcome (d := handKept) asciiSpelling handKeptLink
    listedTwice handKept_owned.1 with ⟨hno, -⟩ | ⟨-, d', created, hsync⟩
  · exact absurd (by decide) hno
  have hrest := h _ id _ d' _ _ created handKept_owned.1 handKept_owned.2 rfl (by decide) hsync
  have hkept : d'.statements = handKept.statements := congrArg (·.statements) hrest
  have happlied :=
    AccountBooks.applySyncedAccounts_applied handKept_owned.1 handKept_owned.2 rfl hsync
  rw [happlied.statements] at hkept
  exact absurd hkept (by decide)

end NbeAdvisor
