import NbeAdvisor.SyncedAccounts

/-!
# The account of a normalized statement

A statement without an account gets one from `BankAccount.objects.get_or_create`, by user, bank
and account number. No constraint makes these unique, and the lookup raises if it finds two
rows. So a statement resolves exactly if no two rows of a user have its bank and number
(`resolvable_iff`).

`POST` and `PATCH` do not compare account numbers, and a sync matches rows by the bank's
identifiers only. Along any requests, every state resolves every statement exactly if none of them
puts a row beside one with the same user, bank and number (`statements_resolve`).
-/

namespace NbeAdvisor

open Interleave

/-- Why the lookup or the insert of `get_or_create` raises. -/
inductive ResolutionError where
  | multipleObjectsReturned (n : ℕ)
  | db (e : DbError)
  deriving DecidableEq

/-- `BankAccount.objects.get_or_create` of `_finalize_normalization_phase` : the table
afterwards and the account of the statement. -/
def resolveAccount (accounts : List AccountRow) (user : UserId) (n : NormalizedJson) :
    Except ResolutionError (List AccountRow × AccountRow) :=
  match matchingAccounts accounts user n with
  | [] =>
    if ¬n.AccountTakes then .error (.db .dataError)
    else .ok (accounts ++ [newAccountRow accounts user n], newAccountRow accounts user n)
  | [a] => .ok (accounts, a)
  | matching => .error (.multipleObjectsReturned matching.length)

/-- The columns keep its texts as they are. -/
def NormalizedJson.AccountFits (n : NormalizedJson) : Prop :=
  TextFits 255 n.bankNameOrUnknown ∧ TextFits 50 n.accountNumberOrUnknown

instance (n : NormalizedJson) : Decidable n.AccountFits := by
  unfold NormalizedJson.AccountFits
  infer_instance

/-- A name and a number that fit are taken. -/
theorem NormalizedJson.AccountFits.takes {n : NormalizedJson} (h : n.AccountFits) :
    n.AccountTakes :=
  ⟨h.1.takes, h.2.takes⟩

/-- The row that the statement gets is the one with its bank and number, or new if there is
none. -/
def Resolves (accounts : List AccountRow) (user : UserId) (n : NormalizedJson) : Prop :=
  ∃ accounts' a, resolveAccount accounts user n = .ok (accounts', a) ∧
    a ∈ matchingAccounts accounts' user n ∧
    ((a ∈ accounts ∧ accounts' = accounts) ∨
      (matchingAccounts accounts user n = [] ∧ accounts' = accounts ++ [a]))

section Resolve

variable {accounts accounts' : List AccountRow} {user : UserId} {n : NormalizedJson} {a : AccountRow}

/-- The rows that `get_or_create` looks for. -/
theorem mem_matchingAccounts : a ∈ matchingAccounts accounts user n ↔ a ∈ accounts ∧
    a.user = user ∧ a.bankName = n.bankNameOrUnknown ∧ a.accountNumber = n.accountNumberOrUnknown := by
  rw [matchingAccounts, List.mem_filter, decide_eq_true_eq]

/-- The lookup finds at most one row. -/
theorem resolves_iff (hn : n.AccountFits) :
    Resolves accounts user n ↔ (matchingAccounts accounts user n).length ≤ 1 := by
  unfold Resolves resolveAccount
  split
  · next hnone =>
    rw [if_neg (not_not.2 hn.takes), hnone]
    refine ⟨fun _ => Nat.zero_le 1, fun _ => ⟨_, _, rfl, ?_, Or.inr ⟨rfl, rfl⟩⟩⟩
    exact mem_matchingAccounts.2
      ⟨List.mem_append_right _ List.mem_cons_self, rfl, hn.1.cut_eq, hn.2.cut_eq⟩
  · next b hone =>
    have hb : b ∈ matchingAccounts accounts user n := hone ▸ List.mem_cons_self
    rw [hone]
    exact ⟨fun _ => Nat.le_refl 1,
      fun _ => ⟨_, _, rfl, hb, Or.inl ⟨(mem_matchingAccounts.1 hb).1, rfl⟩⟩⟩
  · next hnil hone =>
    constructor
    · rintro ⟨_, _, heq, -⟩
      cases heq
    · intro hlen
      match hm : matchingAccounts accounts user n with
      | [] => exact (hnil hm).elim
      | [b] => exact (hone b hm).elim
      | b :: d :: rest =>
        rw [hm] at hlen
        simp at hlen

/-- A resolution changes the table as a normalization does. -/
theorem normalizeAccount_of_resolve (hn : n.AccountTakes)
    (h : resolveAccount accounts user n = .ok (accounts', a)) :
    normalizeAccount accounts user none n = accounts' := by
  unfold resolveAccount at h
  unfold normalizeAccount
  split at h
  · next hnone =>
    rw [if_neg (not_not.2 hn)] at h
    cases h
    rw [if_pos ⟨rfl, hnone, hn⟩]
  · next hone =>
    cases h
    rw [if_neg]
    rintro ⟨-, hnone, -⟩
    rw [hnone] at hone
    cases hone
  · cases h

/-- These are the steps of a chain. -/
theorem resolveAccount_chain {w : PipelineStore} {f : Frame} {r : NormalizationResult}
    (hw : w.accounts = accounts.map (·.toBankAccount))
    (h : resolveAccount accounts f.statement.user r.normalizedJson = .ok (accounts', a)) :
    ∃ replies w', drive Chain.step replies (w, .running (.getAccount r) f) =
        some (w', .running (.createNormalized r)
          { f with statement := { f.statement with account := some a.id } }) ∧
      w'.accounts = accounts'.map (·.toBankAccount) := by
  have hmatch := matchingAccounts_pipeline hw f.statement.user r.normalizedJson
  unfold resolveAccount at h
  split at h
  · next hnone =>
    rw [hnone, List.map_nil] at hmatch
    split_ifs at h
    cases h
    have hnew := newAccountRow_pipeline hw f.statement.user r.normalizedJson
    have hid := congrArg BankAccount.id hnew
    have hget : Chain.step w (.running (.getAccount r) f) .done =
        some (w, .running (.createAccount r) f) := by
      simp only [Chain.step, Frame.step, hmatch]
    refine ⟨[.done, .done], { w with accounts := w.accounts ++
      [w.newAccount f.statement.user r.normalizedJson] }, ?_, ?_⟩
    · rw [drive, hget, ← hid]
      rfl
    · rw [List.map_append, List.map_singleton, ← hw, ← hnew]
  · next b hone =>
    rw [hone, List.map_singleton] at hmatch
    cases h
    refine ⟨[.done], w, ?_, hw⟩
    have hget : Chain.step w (.running (.getAccount r) f) .done =
        some (w, .running (.createNormalized r)
          { f with statement := { f.statement with account := some a.id } }) := by
      simp only [Chain.step, Frame.step, hmatch]
    rw [drive, hget]
    rfl
  · cases h

/-- With two matching rows, the chain gets the exception. -/
theorem resolveAccount_chain_raises {w : PipelineStore} {f : Frame} {r : NormalizationResult} {k : ℕ}
    (hw : w.accounts = accounts.map (·.toBankAccount))
    (h : resolveAccount accounts f.statement.user r.normalizedJson =
      .error (.multipleObjectsReturned k)) :
    Chain.step w (.running (.getAccount r) f) .done = some (w, f.raise (multipleAccountsReason k)) := by
  have hmatch := matchingAccounts_pipeline hw f.statement.user r.normalizedJson
  unfold resolveAccount at h
  split at h
  · split_ifs at h
    cases h
  · cases h
  · next hnil hone =>
    cases h
    match hm : matchingAccounts accounts f.statement.user r.normalizedJson with
    | [] => exact (hnil hm).elim
    | [b] => exact (hone b hm).elim
    | b :: d :: rest =>
      rw [hm] at hmatch
      simp only [Chain.step, Frame.step, hmatch, List.map_cons, List.length_cons, List.length_map]

end Resolve

/-! ## Tables that resolve every statement -/

/-- Every normalization result that the columns take resolves. -/
def Resolvable (accounts : List AccountRow) : Prop :=
  ∀ (user : UserId) (n : NormalizedJson), n.AccountFits → Resolves accounts user n

/-- One lookup of a normalization finds both rows. -/
def AccountRow.SameAccount (a b : AccountRow) : Prop :=
  a.user = b.user ∧ a.bankName = b.bankName ∧ a.accountNumber = b.accountNumber ∧
    CharFits 255 a.bankName ∧ CharFits 50 a.accountNumber

instance (a b : AccountRow) : Decidable (a.SameAccount b) := by
  unfold AccountRow.SameAccount
  infer_instance

theorem AccountRow.SameAccount.symm {a b : AccountRow} (h : a.SameAccount b) : b.SameAccount a :=
  ⟨h.1.symm, h.2.1.symm, h.2.2.1.symm, h.2.1 ▸ h.2.2.2.1, h.2.2.1 ▸ h.2.2.2.2⟩

/-- No two rows of a user have the same bank and number. -/
def AccountsDistinct (accounts : List AccountRow) : Prop :=
  ∀ a ∈ accounts, ∀ b ∈ accounts, a.SameAccount b → a.id = b.id

section Resolvable

variable {accounts : List AccountRow}

/-- There is always a name. -/
theorem NormalizedJson.bankNameOrUnknown_ne (n : NormalizedJson) : n.bankNameOrUnknown ≠ "" := by
  unfold bankNameOrUnknown
  split
  · decide
  · decide
  · next b hne _ => exact fun hb => hne (hb ▸ rfl)

/-- And a number. -/
theorem NormalizedJson.accountNumberOrUnknown_ne (n : NormalizedJson) :
    n.accountNumberOrUnknown ≠ "" := by
  unfold accountNumberOrUnknown
  split
  · decide
  · decide
  · next b hne _ => exact fun hb => hne (hb ▸ rfl)

/-- A name that was read is the name. -/
theorem NormalizedJson.bankNameOrUnknown_some (n : NormalizedJson) {b : String}
    (h : n.bankName = some b) (hb : b ≠ "") : n.bankNameOrUnknown = b := by
  unfold bankNameOrUnknown
  rw [h]
  split
  · next hnone => cases hnone
  · next hempty => exact (hb (Option.some.inj hempty)).elim
  · next hsome => exact (Option.some.inj hsome).symm

/-- A number that was read is the number. -/
theorem NormalizedJson.accountNumberOrUnknown_some (n : NormalizedJson) {number : String}
    (h : n.accountNumber = some number) (hb : number ≠ "") : n.accountNumberOrUnknown = number := by
  unfold accountNumberOrUnknown
  rw [h]
  split
  · next hnone => cases hnone
  · next hempty => exact (hb (Option.some.inj hempty)).elim
  · next hsome => exact (Option.some.inj hsome).symm

/-- The rows of a user have a bank and a number of their own exactly if every result resolves. -/
theorem resolvable_iff (hids : (accounts.map (·.id)).Nodup) :
    Resolvable accounts ↔ AccountsDistinct accounts := by
  constructor
  · intro h a ha b hb ⟨huser, hbank, hnumber, hbankFits, hnumberFits⟩
    let n : NormalizedJson :=
      { bankName := some a.bankName, accountNumber := some a.accountNumber, transactions := [] }
    have hname : n.bankNameOrUnknown = a.bankName := n.bankNameOrUnknown_some rfl hbankFits.1
    have hnum : n.accountNumberOrUnknown = a.accountNumber :=
      n.accountNumberOrUnknown_some rfl hnumberFits.1
    have hn : n.AccountFits := ⟨hname ▸ hbankFits.2, hnum ▸ hnumberFits.2⟩
    have hlen := (resolves_iff hn).1 (h a.user n hn)
    have hma : a ∈ matchingAccounts accounts a.user n :=
      mem_matchingAccounts.2 ⟨ha, rfl, hname.symm, hnum.symm⟩
    have hmb : b ∈ matchingAccounts accounts a.user n := mem_matchingAccounts.2
      ⟨hb, huser.symm, hbank.symm.trans hname.symm, hnumber.symm.trans hnum.symm⟩
    match hm : matchingAccounts accounts a.user n with
    | [] => simp [hm] at hma
    | [d] =>
      rw [hm, List.mem_singleton] at hma hmb
      rw [hma, hmb]
    | _ :: _ :: _ => simp [hm] at hlen
  · intro h user n hn
    rw [resolves_iff hn]
    refine Keyed.length_filter_le_one hids fun a ha b hb hma hmb => h a ha b hb ?_
    obtain ⟨hau, hab, han⟩ := of_decide_eq_true hma
    obtain ⟨hbu, hbb, hbn⟩ := of_decide_eq_true hmb
    refine ⟨hau.trans hbu.symm, hab.trans hbb.symm, han.trans hbn.symm, ?_, ?_⟩
    · exact hab ▸ ⟨n.bankNameOrUnknown_ne, hn.1⟩
    · exact han ▸ ⟨n.accountNumberOrUnknown_ne, hn.2⟩

end Resolvable

/-! ## What a request may put beside a row -/

/-- The two entries show the same bank and number. -/
def ProviderAccount.SameAccount (p q : ProviderAccount) : Prop :=
  p.bankName = q.bankName ∧ p.accountNumber = q.accountNumber ∧ CharFits 255 p.bankName ∧
    ∀ number ∈ p.accountNumber, CharFits 50 number

instance (p q : ProviderAccount) : Decidable (p.SameAccount q) := by
  unfold ProviderAccount.SameAccount
  infer_instance

/-- The row has the user of the connection, and the bank and number of the entry. -/
def ProviderAccount.Repeats (c : BankConnection) (p : ProviderAccount) (b : AccountRow) : Prop :=
  b.user = c.user ∧ b.bankName = p.bankName ∧ some b.accountNumber = p.accountNumber ∧
    CharFits 255 b.bankName ∧ CharFits 50 b.accountNumber

instance (c : BankConnection) (p : ProviderAccount) (b : AccountRow) : Decidable (p.Repeats c b) := by
  unfold ProviderAccount.Repeats
  infer_instance

/-- The entry is the last one for its account. -/
def ProviderAccount.Last (l : List ProviderAccount) (p : ProviderAccount) : Prop :=
  lastEntry l p.externalAccountId = some p

instance (l : List ProviderAccount) (p : ProviderAccount) : Decidable (p.Last l) := by
  unfold ProviderAccount.Last
  infer_instance

/-- A view saves no row beside one with its user, bank and number, and a normalization makes none;
and of a sync, the last entries for two accounts, or one and a row that stays, have not the
same. -/
def AccountRequest.KeepsDistinct (sp : Spelling) (accounts : List AccountRow) : AccountRequest → Prop
  | post user body => ∀ a ∈ (postAccount sp accounts user body).toOption, ∀ b ∈ accounts,
      ¬a.SameAccount b
  | patch user id body => ∀ a ∈ (patchAccount sp accounts user id body).toOption,
      ∀ b ∈ accounts, b.id ≠ a.id → ¬a.SameAccount b
  | sync c l => Landable c (remaining sp c l accounts) l → ∀ p ∈ l.map ProviderAccount.cut,
      p.Last (l.map .cut) →
      (∀ q ∈ l.map ProviderAccount.cut, q.Last (l.map .cut) → p.SameAccount q →
        p.externalAccountId = q.externalAccountId) ∧
      ∀ b ∈ accounts, b.Listed c (l.map .cut) ∨ b ∈ superseded sp c l accounts ∨ ¬p.Repeats c b
  | normalize user account n => account = none → matchingAccounts accounts user n = [] →
      n.AccountTakes → ∀ b ∈ accounts, ¬(newAccountRow accounts user n).SameAccount b

section Step

variable {sp : Spelling} {accounts accounts' created : List AccountRow} {a b : AccountRow}
  {c : BankConnection} {l : List ProviderAccount} {p q : ProviderAccount}

/-- Rows match as the entries that they show. -/
theorem ProviderAccount.SameAccount.of_lands (ha : a.Lands c p) (hb : b.Lands c q) :
    a.SameAccount b ↔ p.SameAccount q := by
  obtain ⟨-, hau, -, hab, -, han, -⟩ := ha
  obtain ⟨-, hbu, -, hbb, -, hbn, -⟩ := hb
  unfold AccountRow.SameAccount ProviderAccount.SameAccount
  rw [hau, hbu, hab, hbb, ← han, ← hbn]
  simp

/-- And other rows match an entry as its row. -/
theorem ProviderAccount.Repeats.of_lands (ha : a.Lands c p) : p.Repeats c b ↔ a.SameAccount b := by
  obtain ⟨-, hau, -, hab, -, han, -⟩ := ha
  unfold AccountRow.SameAccount ProviderAccount.Repeats
  rw [hau, hab, ← han]
  constructor
  · rintro ⟨hu, hb, hn, hbf, hnf⟩
    exact ⟨hu.symm, hb.symm, (Option.some.inj hn).symm, hb ▸ hbf, Option.some.inj hn ▸ hnf⟩
  · rintro ⟨hu, hb, hn, hbf, hnf⟩
    exact ⟨hu.symm, hb.symm, congrArg some hn.symm, hb ▸ hbf, hn ▸ hnf⟩

/-- The rows after a sync. -/
theorem mem_applySyncedAccounts (hs : AccountsSound accounts)
    (h : applySyncedAccounts sp c l accounts = .ok (accounts', created)) (ha : a ∈ accounts') :
    (a ∈ accounts ∧ ¬a.Listed c (l.map .cut) ∧ a ∉ superseded sp c l accounts) ∨
      ∃ p ∈ l.map ProviderAccount.cut,
        lastEntry (l.map .cut) p.externalAccountId = some p ∧ a.Lands c p := by
  have hl := (applySyncedAccounts_isOk sp c l hs).1 ⟨_, h⟩
  obtain ⟨new, rfl, hnew⟩ := updateOrCreateAccounts_landed (hs.filter _) h
  rcases List.mem_append.1 ha with ha | ha
  · obtain ⟨b, hb, rfl⟩ := List.mem_map.1 ha
    obtain ⟨hb, hsup⟩ := List.mem_filter.1 hb
    by_cases hlisted : b.Listed c (l.map .cut)
    · obtain ⟨p, hp, hholds⟩ := hlisted
      obtain ⟨q, hq⟩ := lastEntry_isSome hp
      obtain ⟨hmem, hid⟩ := lastEntry_eq_some hq
      exact Or.inr ⟨q, hmem, hid ▸ hq, relanded_lands hholds hq (hl.numbers q hmem)⟩
    · rw [relanded_of_not_listed hlisted]
      exact Or.inl ⟨hb, hlisted, of_decide_eq_true hsup⟩
  · obtain ⟨p, hp, hlands, -⟩ := hnew a ha
    exact Or.inr ⟨p, (lastEntry_eq_some hp).1, hp, hlands⟩

/-- A row that is added. -/
theorem AccountsDistinct.snoc_iff (h : AccountsDistinct accounts)
    (hid : ∀ b ∈ accounts, b.id ≠ a.id) :
    AccountsDistinct (accounts ++ [a]) ↔ ∀ b ∈ accounts, ¬a.SameAccount b := by
  constructor
  · intro hall b hb hsame
    exact hid b hb (hall a (by simp) b (List.mem_append_left _ hb) hsame).symm
  · intro hnone u hu v hv hsame
    rcases List.mem_append.1 hu with hu | hu <;> rcases List.mem_append.1 hv with hv | hv
    · exact h u hu v hv hsame
    · rw [List.mem_singleton.1 hv] at hsame
      exact (hnone u hu hsame.symm).elim
    · rw [List.mem_singleton.1 hu] at hsame
      exact (hnone v hv hsame).elim
    · rw [List.mem_singleton.1 hu, List.mem_singleton.1 hv]

/-- A row that is edited. -/
theorem AccountsDistinct.edit_iff (h : AccountsDistinct accounts)
    (ha : ∃ b ∈ accounts, b.id = a.id) :
    AccountsDistinct (Keyed.modify (·.id) a.id (fun _ => a) accounts) ↔
      ∀ b ∈ accounts, b.id ≠ a.id → ¬a.SameAccount b := by
  obtain ⟨d, hd, hda⟩ := ha
  constructor
  · intro hall b hb hne hsame
    exact hne (hall a (Keyed.mem_modify.2 (Or.inr ⟨d, hd, hda, rfl⟩)) b
      (Keyed.mem_modify.2 (Or.inl ⟨hb, hne⟩)) hsame).symm
  · intro hnone u hu v hv hsame
    rcases Keyed.mem_modify.1 hu with ⟨hu, hua⟩ | ⟨-, -, -, rfl⟩ <;>
      rcases Keyed.mem_modify.1 hv with ⟨hv, hva⟩ | ⟨-, -, -, rfl⟩
    · exact h u hu v hv hsame
    · exact (hnone u hu hua hsame.symm).elim
    · exact (hnone v hv hva hsame).elim
    · rfl

/-- A sync that goes through. -/
theorem AccountsDistinct.apply_iff (h : AccountsDistinct accounts) (hs : AccountsSound accounts)
    (happly : applySyncedAccounts sp c l accounts = .ok (accounts', created)) :
    AccountsDistinct accounts' ↔ AccountRequest.KeepsDistinct sp accounts (.sync c l) := by
  have hl := (applySyncedAccounts_isOk sp c l hs).1 ⟨_, happly⟩
  have hs' := hs.apply happly
  have hlast := fun e p => updateOrCreateAccounts_last (e := e) (p := p) (hs.filter _) happly
  constructor
  · intro hall _ p hp hplast
    obtain ⟨a, ha, hap, -⟩ := hlast _ p hplast
    refine ⟨fun q _ hqlast hsame => ?_, fun b hb => ?_⟩
    · obtain ⟨b, hb, hbq, -⟩ := hlast _ q hqlast
      have hid := hall a ha b hb ((ProviderAccount.SameAccount.of_lands hap hbq).2 hsame)
      obtain rfl := Keyed.eq_of_pk hs'.ids ha hb hid
      exact Option.some.inj (hap.1.2.symm.trans hbq.1.2)
    · by_contra hno
      rw [not_or, not_or, not_not] at hno
      obtain ⟨hlisted, hsup, hrepeats⟩ := hno
      have hothers := (updateOrCreateAccounts_landed (hs.filter _) happly).others
      have hin : b ∈ accounts'.filter fun a => ¬a.Listed c (l.map .cut) := by
        rw [hothers]
        exact List.mem_filter.2 ⟨List.mem_filter.2 ⟨hb, decide_eq_true hsup⟩, decide_eq_true hlisted⟩
      have hmem := List.mem_of_mem_filter hin
      have hid := hall a ha b hmem ((ProviderAccount.Repeats.of_lands hap).1 hrepeats)
      obtain rfl := Keyed.eq_of_pk hs'.ids ha hmem hid
      exact hlisted ⟨p, hp, hap.1⟩
  · intro hok u hu v hv hsame
    rcases mem_applySyncedAccounts hs happly hu with ⟨hu₀, hul, hus⟩ | ⟨p, hp, hpl, hup⟩ <;>
      rcases mem_applySyncedAccounts hs happly hv with ⟨hv₀, hvl, hvs⟩ | ⟨q, hq, hql, hvq⟩
    · exact h u hu₀ v hv₀ hsame
    · have hno := (((hok hl q hq hql).2 u hu₀).resolve_left hul).resolve_left hus
      exact (hno ((ProviderAccount.Repeats.of_lands hvq).2 hsame.symm)).elim
    · have hno := (((hok hl p hp hpl).2 v hv₀).resolve_left hvl).resolve_left hvs
      exact (hno ((ProviderAccount.Repeats.of_lands hup).2 hsame)).elim
    · have hext := (hok hl p hp hpl).1 q hq hql
        ((ProviderAccount.SameAccount.of_lands hup hvq).1 hsame)
      exact hs'.slots u hu v hv c.id q.externalAccountId (hext ▸ hup.1) hvq.1

/-- What keeps the rows apart in one request, exactly. -/
theorem AccountRequest.handle_distinct (r : AccountRequest) (hs : AccountsSound accounts)
    (h : AccountsDistinct accounts) :
    AccountsDistinct (r.handle sp accounts) ↔ r.KeepsDistinct sp accounts := by
  cases r with
  | post user body =>
    simp only [handle, KeepsDistinct]
    split
    · next a hpost =>
      obtain ⟨hid, -⟩ := postAccount_eq_ok hpost
      rw [h.snoc_iff fun b hb => hid ▸ Keyed.ne_freshKey (fun a : AccountRow => a.id) hb, hpost]
      simp [Except.toOption]
    · next hpost => simp [hpost, h, Except.toOption]
  | patch user id body =>
    simp only [handle, KeepsDistinct]
    split
    · next a' hpatch =>
      obtain ⟨a, ha, -, -, hedit⟩ := patchAccount_eq_ok hpatch
      rw [h.edit_iff ⟨a, (ownRow_eq_some ha).1, (AccountBody.edit_eq_some hedit).1.symm⟩, hpatch]
      simp [Except.toOption]
    · next hpatch => simp [hpatch, h, Except.toOption]
  | sync c l =>
    simp only [handle]
    split
    · next happly => exact h.apply_iff hs happly
    · next e happly =>
      refine iff_of_true h fun hl => ?_
      obtain ⟨x, hx⟩ := (applySyncedAccounts_isOk sp c l hs).2 hl
      cases hx.symm.trans happly
  | normalize user account n =>
    simp only [handle, normalizeAccount, KeepsDistinct]
    split
    · next hnew =>
      rw [h.snoc_iff fun b hb => Keyed.ne_freshKey (fun a : AccountRow => a.id) hb]
      exact ⟨fun hnone _ _ _ => hnone, fun hnone => hnone hnew.1 hnew.2.1 hnew.2.2⟩
    · next hold => exact iff_of_true h fun ha hm hn => (hold ⟨ha, hm, hn⟩).elim

end Step

/-! ## Runs -/

/-- The table after requests, from a database without accounts. -/
def AccountRequest.run (sp : Spelling) (rs : List AccountRequest) : List AccountRow :=
  rs.foldl (fun accounts r => r.handle sp accounts) []

/-- The last request acts on what the others have left. -/
theorem AccountRequest.run_snoc (sp : Spelling) (rs : List AccountRequest) (r : AccountRequest) :
    run sp (rs ++ [r]) = r.handle sp (run sp rs) := by
  rw [run, List.foldl_append]
  rfl

/-- What requests lead to is sound. -/
theorem AccountRequest.run_sound (sp : Spelling) (rs : List AccountRequest) :
    AccountsSound (run sp rs) := by
  induction rs using List.reverseRecOn with
  | nil => exact .nil
  | append_singleton rs r ih =>
    rw [run_snoc]
    exact r.handle_sound ih

/-- Along any requests, every table resolves every statement exactly if each request keeps the
rows apart that it finds. -/
theorem statements_resolve (sp : Spelling) (rs : List AccountRequest) :
    (∀ rs', rs' <+: rs → Resolvable (AccountRequest.run sp rs')) ↔
      ∀ rs' r, rs' ++ [r] <+: rs → r.KeepsDistinct sp (AccountRequest.run sp rs') := by
  have hdistinct : ∀ rs', Resolvable (AccountRequest.run sp rs') ↔
      AccountsDistinct (AccountRequest.run sp rs') :=
    fun rs' => resolvable_iff (AccountRequest.run_sound sp rs').ids
  refine forall_prefix_iff ?_ (fun rs' r h => ?_) rs
  · rw [hdistinct]
    simp [AccountRequest.run, AccountsDistinct]
  · rw [hdistinct, AccountRequest.run_snoc]
    exact r.handle_distinct (AccountRequest.run_sound sp rs') ((hdistinct rs').1 h)

/-- An account is posted twice, and then a statement has its bank and number. -/
theorem doubled_account_raises :
    ¬∀ (sp : Spelling) (rs : List AccountRequest), Resolvable (AccountRequest.run sp rs) := by
  intro h
  obtain ⟨accounts', a, heq, -⟩ := h asciiSpelling [cashBox, cashBox] 1
    { bankName := some "Cash box", accountNumber := some "1", transactions := [] } (by decide)
  have hraises : resolveAccount (AccountRequest.run asciiSpelling [cashBox, cashBox]) 1
      { bankName := some "Cash box", accountNumber := some "1", transactions := [] } =
      .error (.multipleObjectsReturned 2) := by decide
  rw [hraises] at heq
  cases heq

end NbeAdvisor
