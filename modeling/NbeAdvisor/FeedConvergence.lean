import NbeAdvisor.BankFeed
import NbeAdvisor.SyncedAccounts

/-!
# The ledger follows the bank

Every row that a feed brings into the ledger stands for a row of the bank, on an account that stands
for the bank's (`rows_mirror_bank`), and a push that the bank takes for delivered is not lost
(`pushed_is_recorded`), also where the webhook has to find the account first. Once the ingest of a
fetch has finished, and the bank has recorded nothing since, the content keys of the account are
those of the bank, once each (`feed_converges`). This is so in every interleaving, with any number
of pushes, fetches and ingests : a run that meets the unique constraint does not finish.

It takes rows with a merchant and a direction, and without blanks around them, as a push trims what
a fetch does not (`pushed_key_eq_iff`), and the columns cut what a fetch brings.
-/

namespace NbeAdvisor

open Interleave

/-! ## What is carried -/

/-- The texts of the row as the webhook passes them on. -/
def MockTransaction.trimmed (b : MockTransaction) : MockTransaction :=
  { b with merchant := b.merchant.map strip, transactionType := b.transactionType.map strip }

/-- The content key of the row on an account of the backend. -/
def FeedHost.contentKey (host : FeedHost) (user : UserId) (account : AccountId)
    (b : MockTransaction) : TransactionKey :=
  ⟨user, account, host.dateOf b.transactionDate, b.amount, b.merchant, b.transactionType⟩

/-- What the columns make of a key. -/
def TransactionKey.cut (k : TransactionKey) : TransactionKey :=
  { k with
    merchantRaw := k.merchantRaw.map (cutBlanks 1024)
    transactionType := k.transactionType.map (cutBlanks 20) }

theorem TransactionDraft.key_cut (d : TransactionDraft) : d.cut.key = d.key.cut := rfl

/-- The entry says what the row says. -/
structure FeedHost.Carries (host : FeedHost) (t : SyncedTransaction) (b : MockTransaction) :
    Prop where
  date : t.transactionDate.date = some (host.dateOf b.transactionDate)
  merchantRaw : t.merchantRaw = b.merchant
  amount : t.amount = b.amount
  transactionType : t.transactionType = b.transactionType
  balance : t.balance = b.balance

section Wire

variable {host : FeedHost} {a : BankAccount} {b : MockTransaction} {t x : SyncedTransaction}
  {currency : String}

theorem FeedHost.Carries.key (h : host.Carries t b) :
    t.key a = some (host.contentKey a.user a.id b) := by
  rw [SyncedTransaction.key, h.date, h.merchantRaw, h.amount, h.transactionType]
  rfl

/-- A date survives `isoformat`. -/
theorem FeedHost.carries_serialize (host : FeedHost) (b : MockTransaction) (currency : String) :
    host.Carries (host.serialize b currency) b := by
  refine ⟨?_, rfl, rfl, rfl, rfl⟩
  have hlen := Date.length_isoformat (host.dateOf b.transactionDate)
  rw [serialize, DateArg.date, List.take_of_length_le hlen.le, String.ofList_toList,
    Date.fromisoformat_isoformat]

theorem TextStorable.strip {s : String} (h : TextStorable s) : TextStorable (strip s) := by
  intro hmem
  rw [NbeAdvisor.strip, String.toList_ofList] at hmem
  exact h ((List.dropWhile_sublist _).mem ((List.rdropWhile_prefix _ _).mem hmem))

theorem nullable_blankCharField {o : Option String} (h : ∀ s ∈ o, TextStorable s) :
    nullable blankCharField o = some (o.map strip) := by
  cases o with
  | none => rfl
  | some s =>
    rw [nullable, blankCharField, if_pos (h s rfl).strip]
    rfl

theorem nullable_eq_some {o o' : Option String} (h : nullable blankCharField o = some o') :
    o' = o.map strip := by
  cases o with
  | none =>
    cases h
    rfl
  | some s =>
    rw [nullable, blankCharField] at h
    split at h <;> cases h
    rfl

theorem validate_eq_some (h : t.validate = some x) :
    (∃ d, dateField t.transactionDate = some d ∧ x.transactionDate = .day d) ∧
      x.merchantRaw = t.merchantRaw.map strip ∧ x.amount = t.amount ∧
      x.transactionType = t.transactionType.map strip ∧ x.balance = t.balance := by
  simp only [SyncedTransaction.validate, Option.bind_eq_bind, Option.bind_eq_some_iff] at h
  obtain ⟨id, -, d, hd, merchantRaw, hmerchant, transactionType, htype, currency, -, hfits⟩ := h
  split at hfits <;> cases hfits
  exact ⟨⟨d, hd, rfl⟩, nullable_eq_some hmerchant, rfl, nullable_eq_some htype, rfl⟩

theorem carries_of_validate (hx : (host.serialize b currency).validate = some x) :
    host.Carries x b.trimmed := by
  obtain ⟨⟨d, hd, hdate⟩, hmerchant, hamount, htype, hbalance⟩ := validate_eq_some hx
  obtain rfl : host.dateOf b.transactionDate = d := by
    rw [FeedHost.serialize, dateField, Date.fromisoformat_isoformat] at hd
    exact Option.some.inj hd
  exact ⟨by rw [hdate]; rfl, hmerchant, hamount, htype, hbalance⟩

theorem uuid_char {u : Uuid} {c : Char} (hc : c ∈ u.text.toList) :
    isSpace c = false ∧ c ≠ Char.ofNat 0 := by
  have hchar : ∀ n < 103, 45 ≤ n →
      isSpace (Char.ofNat n) = false ∧ Char.ofNat n ≠ Char.ofNat 0 := by
    decide
  have hn : 45 ≤ c.toNat ∧ c.toNat < 103 := by
    rcases u.mem_text c hc with rfl | hdigit | hletter
    · decide
    · simp only [Char.isDigit, Bool.and_eq_true, decide_eq_true_eq, ge_iff_le,
        UInt32.le_iff_toNat_le] at hdigit
      have hlow : 48 ≤ c.toNat := hdigit.1
      have hhigh : c.toNat ≤ 57 := hdigit.2
      omega
    · simp only [List.mem_cons, List.not_mem_nil, or_false] at hletter
      rcases hletter with rfl | rfl | rfl | rfl | rfl | rfl <;> decide
  have hofNat := hchar c.toNat hn.2 hn.1
  rwa [Char.ofNat_toNat] at hofNat

/-- The text of a UUID has no blanks around. -/
theorem nonblankCharField_uuid (u : Uuid) : nonblankCharField u.text = some u.text := by
  have hstrip : strip u.text = u.text := by
    have hno : ∀ l : List Char, (∀ c ∈ l, isSpace c = false) → l.dropWhile isSpace = l := by
      rintro (_ | ⟨c, l⟩) hl
      · rfl
      · rw [List.dropWhile_cons_of_neg (by simp [hl c List.mem_cons_self])]
    have hspace : ∀ c ∈ u.text.toList, isSpace c = false := fun c hc => (uuid_char hc).1
    rw [strip, hno _ hspace, List.rdropWhile, hno _ fun c hc => hspace c (List.mem_reverse.1 hc),
      List.reverse_reverse, String.ofList_toList]
  have hne : u.text ≠ "" := fun h => nomatch (h ▸ u.length_text : "".length = 36)
  have hnull : TextStorable u.text := fun h => (uuid_char h).2 rfl
  rw [nonblankCharField, blankCharField, hstrip, if_neg hne, if_pos hnull]

/-- The webhook takes what the bank may send. -/
theorem FeedHost.validate_serialize (host : FeedHost) (hb : b.Fits)
    (hcurrency : TextStorable currency) :
    ∃ x, (host.serialize b currency).validate = some x := by
  have hid : nullable nonblankCharField (host.serialize b currency).externalTransactionId =
      some (some b.id.text) := congrArg (Option.map some) (nonblankCharField_uuid b.id)
  have hdate : dateField (host.serialize b currency).transactionDate =
      some (host.dateOf b.transactionDate) := Date.fromisoformat_isoformat _
  have hmerchant : nullable blankCharField (host.serialize b currency).merchantRaw =
      some (b.merchant.map strip) := nullable_blankCharField hb.merchant
  have htype : nullable blankCharField (host.serialize b currency).transactionType =
      some (b.transactionType.map strip) := nullable_blankCharField hb.transactionType
  have hcode : nullable blankCharField (host.serialize b currency).currency =
      some (some (strip currency)) :=
    nullable_blankCharField (o := some currency) fun s hs => Option.some.inj hs ▸ hcurrency
  simp only [SyncedTransaction.validate, hid, hdate, hmerchant, htype, hcode, Option.bind_eq_bind,
    Option.bind_some]
  rw [if_pos ⟨hb.amount, hb.balance⟩]
  exact ⟨_, rfl⟩

theorem contentKey_trimmed {user : UserId} {account : AccountId} :
    host.contentKey user account b.trimmed = host.contentKey user account b ↔ b.trimmed = b := by
  refine ⟨fun h => ?_, fun h => by rw [h]⟩
  simp only [FeedHost.contentKey, TransactionKey.mk.injEq] at h
  obtain ⟨-, -, -, -, hmerchant, htype⟩ := h
  have heta : b = { b with merchant := b.merchant, transactionType := b.transactionType } := rfl
  rw [heta, MockTransaction.trimmed, MockTransaction.mk.injEq]
  exact ⟨rfl, rfl, rfl, hmerchant, rfl, htype, rfl⟩

end Wire

/-- A column has nothing to cut from a text without blanks around. -/
theorem cutBlanks_strip (n : ℕ) (s : String) : cutBlanks n (strip s) = strip s := by
  by_cases hlen : (strip s).toList.length ≤ n
  · exact cutBlanks_of_length hlen
  rw [cutBlanks, if_neg]
  intro hblank
  have hdrop : (strip s).toList.drop n ≠ [] := by
    rw [Ne, List.drop_eq_nil_iff]
    exact hlen
  have hne : (strip s).toList ≠ [] := fun h => hdrop (by rw [h, List.drop_nil])
  have hlast : (strip s).toList.getLast hne = ' ' := by
    rw [← List.getLast_drop hdrop]
    exact of_decide_eq_true (List.all_eq_true.1 hblank _ (List.getLast_mem hdrop))
  simp only [strip, String.toList_ofList] at hne hlast
  have hspace := List.rdropWhile_last_not isSpace _ hne
  rw [hlast] at hspace
  exact hspace rfl

theorem contentKey_trimmed_cut {host : FeedHost} {user : UserId} {account : AccountId}
    {b : MockTransaction} :
    (host.contentKey user account b.trimmed).cut = host.contentKey user account b.trimmed := by
  have hmap : ∀ (n : ℕ) (o : Option String), (o.map strip).map (cutBlanks n) = o.map strip := by
    intro n o
    cases o with
    | none => rfl
    | some s => exact congrArg some (cutBlanks_strip n s)
  simp only [TransactionKey.cut, FeedHost.contentKey, MockTransaction.trimmed, hmap]

/-! ## Runs of the task -/

section Runs

variable {tax : Taxonomy} {a : BankAccount} {L L' : Ledger} {batch : List SyncedTransaction}
  {run run' : IngestRun}

/-- The transactions are in the ledger, as they are or cut. -/
def Stored (a : BankAccount) (L : Ledger) (ts : List SyncedTransaction) : Prop :=
  ∀ t ∈ ts, ∀ k ∈ t.key a, k ∈ L.keys ∨ k.cut ∈ L.keys

theorem SyncedTransaction.key_account {t : SyncedTransaction} {k : TransactionKey}
    (h : t.key a = some k) : k.account = a.id := by
  obtain ⟨date, -, rfl⟩ := Option.map_eq_some_iff.1 h
  rfl

theorem Stored.mono {ts : List SyncedTransaction} (h : Stored a L ts)
    (hL : ∀ k ∈ L.keys, k.account = a.id → k ∈ L'.keys) : Stored a L' ts := by
  intro t ht k hk
  have haccount : k.account = a.id := SyncedTransaction.key_account hk
  exact (h t ht k hk).imp (fun hmem => hL k hmem haccount) fun hmem => hL k.cut hmem haccount

theorem Stored.snoc {ts : List SyncedTransaction} {t : SyncedTransaction} {k : TransactionKey}
    (h : Stored a L ts) (hk : t.key a = some k) (hL : k ∈ L.keys ∨ k.cut ∈ L.keys) :
    Stored a L (ts ++ [t]) := by
  intro u hu k' hk'
  rcases List.mem_append.1 hu with hu | hu
  · exact h u hu k' hk'
  · rw [List.mem_singleton.1 hu, hk] at hk'
    exact Option.some.inj hk' ▸ hL

/-- What a run has dealt with is in the ledger. -/
def IngestRun.Covers (tax : Taxonomy) (a : BankAccount) (L : Ledger)
    (batch : List SyncedTransaction) : IngestRun → Prop
  | lookingUp _ rest => ∃ done, batch = done ++ rest ∧ Stored a L done
  | inserting _ d rest => ∃ done t, batch = done ++ t :: rest ∧ t.draft tax a = some d ∧
      Stored a L done
  | finished _ => Stored a L batch
  | failed _ => True

theorem IngestRun.Covers.mono (h : run.Covers tax a L batch)
    (hL : ∀ k ∈ L.keys, k.account = a.id → k ∈ L'.keys) : run.Covers tax a L' batch := by
  cases run with
  | lookingUp created rest =>
    obtain ⟨done, hbatch, hrec⟩ := h
    exact ⟨done, hbatch, hrec.mono hL⟩
  | inserting created d rest =>
    obtain ⟨done, t, hbatch, hd, hrec⟩ := h
    exact ⟨done, t, hbatch, hd, hrec.mono hL⟩
  | finished created => exact Stored.mono h hL
  | failed e => trivial

/-- A statement of the loop leaves the ledger, or creates the row of an entry. -/
theorem IngestRun.step_covers (h : run.Covers tax a L batch)
    (hs : run.step tax a L = some (L', run')) : run'.Covers tax a L' batch ∧ (L' = L ∨
      ∃ t ∈ batch, ∃ d row, t.draft tax a = some d ∧ L.create d = .ok row ∧ L' = L ++ [row]) := by
  cases run with
  | lookingUp created rest =>
    obtain ⟨done, rfl, hrec⟩ := h
    cases rest with
    | nil =>
      cases hs
      refine ⟨?_, Or.inl rfl⟩
      rw [List.append_nil]
      exact hrec
    | cons t rest =>
      simp only [step] at hs
      split at hs
      · cases hs
        exact ⟨trivial, Or.inl rfl⟩
      · next d hd =>
        split at hs
        · next hdup =>
          cases hs
          refine ⟨⟨done ++ [t], by simp, hrec.snoc (draft_key hd) ?_⟩, Or.inl rfl⟩
          exact Or.inl (Ledger.isDuplicate_iff.1 hdup)
        · cases hs
          exact ⟨⟨done, t, rfl, hd, hrec⟩, Or.inl rfl⟩
  | inserting created d rest =>
    obtain ⟨done, t, rfl, hd, hrec⟩ := h
    simp only [step] at hs
    split at hs
    · next row hrow =>
      cases hs
      obtain ⟨-, -, rfl⟩ := Ledger.create_eq_ok.1 hrow
      refine ⟨⟨done ++ [t], by simp, ?_⟩, Or.inr ⟨t, by simp, d, _, hd, hrow, rfl⟩⟩
      refine (hrec.mono fun k hk _ => ?_).snoc (draft_key hd) (Or.inr ?_)
      · simp [hk]
      · simp [Ledger.keys, Transaction.key, TransactionDraft.key_cut]
    · cases hs
      exact ⟨trivial, Or.inl rfl⟩
  | finished created => cases hs
  | failed e => cases hs

end Runs

/-! ## The invariant -/

/-- An account of the user stands for the account `e` of the bank. -/
def FeedStore.Serves (s : FeedStore) (user : UserId) (id : AccountId) (e : Uuid) : Prop :=
  ∃ c ∈ s.backend.connections, c.user = user ∧ ∃ a ∈ s.backend.accounts, a.id = id ∧
    a.linkType = .synced ∧ a.Holds c.id e.text

/-- A row of the bank's account is meant, as it is or trimmed. -/
def FeedStore.Through (s : FeedStore) (e : Uuid) (P : MockTransaction → Prop) : Prop :=
  ∃ b ∈ s.transactions, b.account = e ∧ (P b ∨ P b.trimmed)

/-- The row is that of the bank. -/
structure FeedHost.Mirrors (host : FeedHost) (row : Transaction) (b : MockTransaction) : Prop where
  key : row.key = (host.contentKey row.user row.account b).cut
  source : row.source = .synced
  balance : row.balance = b.balance

/-- The tables of the backend meet what every path that writes them keeps. -/
structure FeedStore.Sound (owner : ConnectionId → UserId) (s : FeedStore) : Prop where
  accounts : AccountsSound s.backend.accounts
  owned : AccountsOwned owner s.backend.accounts
  owners : ∀ c ∈ s.backend.connections, owner c.id = c.user

/-- A row that was not there at first is one of the bank's, and the constraint holds. -/
structure FeedStore.Follows (host : FeedHost) (owner : ConnectionId → UserId) (L : Ledger)
    (s : FeedStore) : Prop extends s.Sound owner where
  rows : ∀ row ∈ s.backend.ledger, row ∈ L ∨ ∃ e, s.Serves row.user row.account e ∧
    s.Through e (host.Mirrors row)
  once : ∀ k : TransactionKey, k.Enforced → L.keys.count k ≤ 1 →
    s.backend.ledger.keys.count k ≤ 1

/-- What a step does not undo. -/
structure FeedStore.Extends (s s' : FeedStore) : Prop where
  transactions : s.transactions ⊆ s'.transactions
  connections : s'.backend.connections = s.backend.connections
  serves : ∀ user id e, s.Serves user id e → s'.Serves user id e
  keys : ∀ user id e, s.Serves user id e → ∀ k ∈ s.backend.ledger.keys, k.account = id →
    k ∈ s'.backend.ledger.keys

/-- The ids of the accounts are the bank's. -/
def FromBank (l : List ProviderAccount) : Prop := ∀ p ∈ l, ∃ e : Uuid, p.externalAccountId = e.text

/-- The instances have rows that stand for accounts of the bank. -/
def FeedStore.Lands (s : FeedStore) (user : UserId) (created : List AccountRow) : Prop :=
  ∀ a ∈ created, ∃ e : Uuid, a.externalAccountId = some e.text ∧ s.Serves user a.id e

section Holds

variable (host : FeedHost) (s : FeedStore)

/-- A task that carries rows of the bank's account to the account that stands for it. -/
structure FeedTask.Carries (user : UserId) (e : Uuid) (task : IngestTask) : Prop where
  serves : s.Serves user task.bankAccountId e
  origin : ∀ o ∈ task.origin, o.2 = e.text
  transactions : ∀ t ∈ task.transactions, s.Through e (host.Carries t)

/-- What a backfill carries, and for which accounts it still has to ask. -/
def Backfill.Holds (user : UserId) : Backfill → Prop
  | fetching rest => s.Lands user rest
  | enqueueing id batch rest => (∃ e, FeedTask.Carries host s user e ⟨id, batch, none⟩) ∧
      s.Lands user rest

/-- What the webhook has for a push from the account `e`. -/
def SyncWebhook.Holds (e : Uuid) : SyncWebhook → Prop
  | fetching c | rerouting c => c ∈ s.backend.connections
  | applying c l => c ∈ s.backend.connections ∧ FromBank l
  | backfilling c b => c ∈ s.backend.connections ∧ b.Holds host s c.user
  | enqueueing id => ∃ user, s.Serves user id e
  | _ => True

/-- The purchase is recorded at the bank, and what is pushed is read from it. -/
def SimulateTransaction.Holds : SimulateTransaction → Prop
  | delivering b a => b ∈ s.transactions ∧ b.account = a.id
  | pushed b _ body w => b ∈ s.transactions ∧ body.externalAccountId = b.account.text ∧
      (∃ x, body.transactions = [x] ∧ host.Carries x b.trimmed) ∧ w.Holds host s b.account
  | _ => True

/-- The connection is stored, and the accounts are what the bank listed. -/
def RefreshAccounts.Holds : RefreshAccounts → Prop
  | fetching c => c ∈ s.backend.connections
  | applying c l => c ∈ s.backend.connections ∧ FromBank l
  | backfilling c b => c ∈ s.backend.connections ∧ b.Holds host s c.user
  | _ => True

/-- The account is the one of the task, and the run has dealt with all rows before the next. -/
def IngestPoint.Holds (user : UserId) (task : IngestTask) : IngestPoint → Prop
  | loading => True
  | running account run => account.id = task.bankAccountId ∧ account.user = user ∧
      run.Covers host.tax account s.backend.ledger task.transactions
  | dropped => False

/-- What a request carries is the bank's, and what a run has dealt with is in the ledger. -/
def FeedTask.Holds : FeedTask → Prop
  | opening _ | opened => True
  | simulate _ t => t.Holds host s
  | refresh t => t.Holds host s
  | ingest task t => ∃ user e, FeedTask.Carries host s user e task ∧ t.Holds host s user task

end Holds

section Mono

variable {host : FeedHost} {s s' : FeedStore} {user : UserId} {e : Uuid}
  {P Q : MockTransaction → Prop}

theorem FeedStore.Extends.refl (s : FeedStore) : s.Extends s :=
  ⟨List.Subset.refl _, rfl, fun _ _ _ h => h, fun _ _ _ _ _ hk _ => hk⟩

theorem FeedStore.Extends.mem (hs : s.Extends s') {c : BankConnection}
    (hc : c ∈ s.backend.connections) : c ∈ s'.backend.connections := by
  rw [hs.connections]
  exact hc

theorem FeedStore.Through.imp (h : s.Through e P) (hPQ : ∀ b, P b → Q b)
    (hs : s.transactions ⊆ s'.transactions) : s'.Through e Q := by
  obtain ⟨b, hb, haccount, hP⟩ := h
  exact ⟨b, hs hb, haccount, hP.imp (hPQ b) (hPQ _)⟩

theorem FeedStore.Lands.mono {created : List AccountRow} (h : s.Lands user created)
    (hs : s.Extends s') : s'.Lands user created := by
  intro a ha
  obtain ⟨e, he, hserves⟩ := h a ha
  exact ⟨e, he, hs.serves _ _ _ hserves⟩

theorem FeedTask.Carries.mono {task : IngestTask} (h : FeedTask.Carries host s user e task)
    (hs : s.Extends s') : FeedTask.Carries host s' user e task where
  serves := hs.serves _ _ _ h.serves
  origin := h.origin
  transactions t ht := (h.transactions t ht).imp (fun _ hb => hb) hs.transactions

theorem Backfill.Holds.mono {b : Backfill} (h : b.Holds host s user) (hs : s.Extends s') :
    b.Holds host s' user := by
  cases b with
  | fetching rest => exact FeedStore.Lands.mono h hs
  | enqueueing id batch rest =>
    obtain ⟨⟨e, hcarries⟩, hrest⟩ := h
    exact ⟨⟨e, hcarries.mono hs⟩, hrest.mono hs⟩

theorem SyncWebhook.Holds.mono {w : SyncWebhook} (h : w.Holds host s e) (hs : s.Extends s') :
    w.Holds host s' e := by
  cases w with
  | fetching c | rerouting c => exact hs.mem h
  | applying c l => exact ⟨hs.mem h.1, h.2⟩
  | backfilling c b => exact ⟨hs.mem h.1, h.2.mono hs⟩
  | enqueueing id =>
    obtain ⟨user, hserves⟩ := h
    exact ⟨user, hs.serves _ _ _ hserves⟩
  | routing | findingConnection | answered => trivial

theorem IngestPoint.Holds.mono {task : IngestTask} {t : IngestPoint}
    (h : t.Holds host s user task) (hserves : s.Serves user task.bankAccountId e)
    (hs : s.Extends s') : t.Holds host s' user task := by
  cases t with
  | loading => trivial
  | running account run =>
    obtain ⟨hid, huser, hcovers⟩ := h
    exact ⟨hid, huser, hcovers.mono fun k hk haccount =>
      hs.keys _ _ _ hserves k hk (haccount.trans hid)⟩
  | dropped => exact h

theorem FeedTask.Holds.mono {t : FeedTask} (h : t.Holds host s) (hs : s.Extends s') :
    t.Holds host s' := by
  cases t with
  | opening a | opened => trivial
  | simulate body t =>
    cases t with
    | delivering b a => exact ⟨hs.transactions h.1, h.2⟩
    | pushed b heard body w =>
      obtain ⟨hb, hid, hx, hw⟩ := h
      exact ⟨hs.transactions hb, hid, hx, hw.mono hs⟩
    | recording | answered | refused => trivial
  | refresh t =>
    cases t with
    | fetching c => exact hs.mem h
    | applying c l => exact ⟨hs.mem h.1, h.2⟩
    | backfilling c b => exact ⟨hs.mem h.1, h.2.mono hs⟩
    | loading | ended => trivial
  | ingest task t =>
    obtain ⟨user, e, hcarries, ht⟩ := h
    exact ⟨user, e, hcarries.mono hs, ht.mono hcarries.serves hs⟩

end Mono

section Stores

variable {host : FeedHost} {owner : ConnectionId → UserId} {s s' : FeedStore} {L : Ledger}
  {user user' : UserId} {id : AccountId} {e e' : Uuid} {c : BankConnection}
  {l : List ProviderAccount} {created : List AccountRow} {t : SyncedTransaction}
  {d : TransactionDraft} {row : Transaction}

theorem Uuid.eq_of_text (host : FeedHost) (h : e.text = e'.text) : e = e' :=
  Option.some.inj ((host.uuid_text e).symm.trans (h ▸ host.uuid_text e'))

/-- The row of an account that serves, with its connection. -/
theorem FeedStore.Sound.serves_eq (hs : s.Sound owner) {a : AccountRow}
    (ha : a ∈ s.backend.accounts) (hc : c ∈ s.backend.connections) (hholds : a.Holds c.id e'.text)
    (host : FeedHost) (h : s.Serves user a.id e) : c.user = user ∧ e = e' := by
  obtain ⟨d, hd, rfl, b, hb, hid, -, hconnection, htext⟩ := h
  obtain rfl := Keyed.eq_of_pk hs.accounts.ids hb ha hid
  obtain hids : d.id = c.id := Option.some.inj (hconnection.symm.trans hholds.1)
  refine ⟨?_, Uuid.eq_of_text host (Option.some.inj (htext.symm.trans hholds.2))⟩
  rw [← hs.owners c hc, ← hs.owners d hd, hids]

/-- Landing the accounts of a connection. -/
theorem FeedStore.Follows.land {backend : BankStore} (hs : s.Follows host owner L)
    (hc : c ∈ s.backend.connections) (hl : FromBank l)
    (happly : s.backend.applyAccounts host.spelling c l = .ok (backend, created)) :
    ({ s with backend } : FeedStore).Follows host owner L ∧ s.Extends { s with backend } ∧
      ({ s with backend } : FeedStore).Lands c.user created := by
  have hledger := BankStore.applyAccounts_ledger happly
  obtain ⟨accounts, ledger, hrows, rfl⟩ := BankStore.applyAccounts_eq_ok happly
  obtain rfl : ledger = _ := hledger
  have hext : s.Extends { s with backend := { s.backend with
      accounts
      ledger := s.backend.ledger.filter fun t =>
        t.account ∉ (superseded host.spelling c l s.backend.accounts).map (·.id) } } := by
    refine ⟨List.Subset.refl _, rfl, ?_, ?_⟩
    · rintro user id e ⟨d, hd, huser, a, ha, hid, hsynced, hholds⟩
      obtain ⟨a', ha', hcont⟩ := applySyncedAccounts_keeps hrows ha hsynced
      exact ⟨d, hd, huser, a', ha', hcont.1.trans hid, hcont.2.2.2, hcont.2.1.trans hholds.1,
        hcont.2.2.1.trans hholds.2⟩
    · rintro user id e ⟨d, hd, huser, a, ha, hid, hsynced, hholds⟩ k hk haccount
      obtain ⟨row, hrow, rfl⟩ := List.mem_map.1 hk
      refine List.mem_map_of_mem (List.mem_filter.2 ⟨hrow, decide_eq_true fun hsup => ?_⟩)
      obtain ⟨b, hb, hbid⟩ := List.mem_map.1 hsup
      obtain ⟨hbmem, hmanual⟩ := of_mem_superseded hb
      obtain rfl := Keyed.eq_of_pk hs.accounts.ids hbmem ha (hbid.trans (haccount.trans hid.symm))
      cases hmanual.symm.trans hsynced
  refine ⟨⟨⟨hs.accounts.apply hrows, hs.owned.apply hs.accounts (hs.owners c hc) hrows, hs.owners⟩,
    fun row hrow => ?_, fun k hk hL => ?_⟩, hext, fun a ha => ?_⟩
  · refine (hs.rows row (List.mem_of_mem_filter hrow)).imp_right ?_
    rintro ⟨e, hserves, hthrough⟩
    exact ⟨e, hext.serves _ _ _ hserves, hthrough⟩
  · exact ((List.filter_sublist.map Transaction.key).count_le k).trans (hs.once k hk hL)
  · obtain ⟨p, hp, hgiven, row, hrow, hid, hholds, hsynced⟩ :=
      applySyncedAccounts_created hs.accounts hrows ha
    obtain ⟨e, he⟩ := hl p hp
    have hcut : p.cut.externalAccountId = e.text := by
      rw [ProviderAccount.cut, he]
      exact cutBlanks_of_length (by rw [String.length_toList, e.length_text]; omega)
    exact ⟨e, by rw [hgiven, he], c, hc, rfl, row, hrow, hid, hsynced, hcut ▸ hholds⟩

/-- Inserting a row of the bank. -/
theorem FeedStore.Follows.insert (hs : s.Follows host owner L)
    (hrow : s.backend.ledger.create d = .ok row)
    (hserves : s.Serves row.user row.account e) (hthrough : s.Through e (host.Mirrors row)) :
    ({ s with backend := { s.backend with ledger := s.backend.ledger ++ [row] } } :
        FeedStore).Follows host owner L ∧
      s.Extends { s with backend := { s.backend with ledger := s.backend.ledger ++ [row] } } := by
  obtain ⟨-, hfree, hmade⟩ := Ledger.create_eq_ok.1 hrow
  have hkey : row.key = d.cut.key := by rw [hmade]; rfl
  refine ⟨⟨⟨hs.accounts, hs.owned, hs.owners⟩, fun row' hmem => ?_, fun k hk hL => ?_⟩,
    List.Subset.refl _, rfl, fun _ _ _ h => h, fun _ _ _ _ k hk _ => ?_⟩
  · rcases List.mem_append.1 hmem with hmem | hmem
    · exact hs.rows row' hmem
    · obtain rfl := List.mem_singleton.1 hmem
      exact Or.inr ⟨e, hserves, hthrough⟩
  · have hone := hs.once k hk hL
    rw [Ledger.keys_append, List.count_append]
    by_cases hkey' : d.cut.key = k
    · have hnot : k ∉ s.backend.ledger.keys := fun hmem => hfree ⟨hkey' ▸ hk, hkey' ▸ hmem⟩
      rw [List.count_eq_zero.2 hnot, Nat.zero_add]
      exact List.count_le_length
    · have hother : List.count k (Ledger.keys [row]) = 0 :=
        List.count_eq_zero.2 (by simpa [Ledger.keys, hkey] using Ne.symm hkey')
      omega
  · rw [Ledger.keys_append]
    exact List.mem_append_left _ hk

theorem FeedHost.Carries.mirrors {b : MockTransaction} {a : BankAccount} (h : host.Carries t b)
    (hd : t.draft host.tax a = some d) (hrow : L.create d = .ok row) :
    row.user = a.user ∧ row.account = a.id ∧ host.Mirrors row b := by
  obtain ⟨-, -, rfl⟩ := Ledger.create_eq_ok.1 hrow
  have hkey : d.key = host.contentKey a.user a.id b :=
    Option.some.inj ((draft_key hd).symm.trans h.key)
  obtain ⟨date, -, rfl⟩ := Option.map_eq_some_iff.1 hd
  exact ⟨rfl, rfl, congrArg TransactionKey.cut hkey, rfl, h.balance⟩

/-- A fetch reads every row of the account, and nothing else. -/
theorem listTransactions_eq_some {customer : Uuid} {batch : List SyncedTransaction}
    (h : host.listTransactions s e.text customer = some batch) :
    ∃ currency, ∀ t, t ∈ batch ↔ ∃ b ∈ s.transactions, b.account = e ∧
      host.serialize b currency = t := by
  obtain ⟨a, ha, rfl⟩ := Option.map_eq_some_iff.1 h
  rw [host.uuid_text, Option.bind_some] at ha
  have hid : a.id = e ∧ a.customer = customer := by simpa using List.find?_some ha
  refine ⟨a.currency, fun t => ?_⟩
  simp only [List.mem_map, List.mem_mergeSort, List.mem_filter, decide_eq_true_eq, hid.1, and_assoc]

theorem fetchTransactions_eq_ok {r : FeedHeard} {batch : List SyncedTransaction}
    (h : host.fetchTransactions s r c e.text = .ok batch) :
    ∀ t ∈ batch, s.Through e (host.Carries t) := by
  unfold FeedHost.fetchTransactions at h
  split at h
  · cases h
  next batch' hbatch =>
  cases h
  obtain ⟨customer, -, hlist⟩ := Option.bind_eq_some_iff.1 hbatch
  obtain ⟨currency, hmem⟩ := listTransactions_eq_some hlist
  intro t ht
  obtain ⟨b, hb, haccount, rfl⟩ := (hmem t).1 ht
  exact ⟨b, hb, haccount, Or.inl (host.carries_serialize b currency)⟩

theorem fetchAccounts_fromBank {r : FeedHeard} (h : host.fetchAccounts s r c = .ok l) :
    FromBank l := by
  unfold FeedHost.fetchAccounts at h
  split at h
  · cases h
  · cases h
    intro p hp
    obtain ⟨a, -, rfl⟩ := List.mem_map.1 hp
    exact ⟨a.id, rfl⟩

end Stores

/-! ## What a step keeps -/

section Steps

variable {host : FeedHost} {owner : ConnectionId → UserId} {s s' : FeedStore} {r : FeedHeard}
  {L : Ledger} {user : UserId} {e : Uuid} {c : BankConnection}

/-- A turn of a backfill. -/
theorem Backfill.step_holds {b : Backfill} {b' : Option Backfill} {tasks : List IngestTask}
    (hb : b.Holds host s user) (h : b.step (host.hearsBackfill s r c b) = some (b', tasks)) :
    (∀ b₁ ∈ b', b₁.Holds host s user) ∧
      ∀ task ∈ tasks, ∃ e, FeedTask.Carries host s user e task := by
  cases b with
  | fetching rest =>
    cases rest with
    | nil => cases h
    | cons a rest =>
      obtain ⟨⟨e, he, hserves⟩, hrest⟩ := List.forall_mem_cons.1 hb
      cases hfetch : host.fetchTransactions s r c e.text with
      | error reason =>
        simp only [FeedHost.hearsBackfill, he, Option.getD_some, hfetch, step, Option.some.injEq,
          Prod.mk.injEq] at h
        obtain ⟨rfl, rfl⟩ := h
        exact ⟨fun b₁ hb₁ => Option.some.inj hb₁ ▸ hrest, by simp⟩
      | ok batch =>
        have hbatch := fetchTransactions_eq_ok hfetch
        simp only [FeedHost.hearsBackfill, he, Option.getD_some, hfetch, step] at h
        split at h <;> cases h
        · exact ⟨fun b₁ hb₁ => Option.some.inj hb₁ ▸ hrest, by simp⟩
        · refine ⟨fun b₁ hb₁ => Option.some.inj hb₁ ▸ ⟨⟨e, hserves, by simp, hbatch⟩, hrest⟩, ?_⟩
          simp
  | enqueueing id batch rest =>
    obtain ⟨hcarries, hrest⟩ := hb
    cases htaken : r.taken <;> simp only [FeedHost.hearsBackfill, htaken, step, Option.some.injEq,
      Prod.mk.injEq] at h <;> obtain ⟨rfl, rfl⟩ := h
    · exact ⟨by simp, by simp⟩
    · refine ⟨fun b₁ hb₁ => Option.some.inj hb₁ ▸ hrest, fun task htask => ?_⟩
      exact List.mem_singleton.1 htask ▸ hcarries

/-- What a step of a thread leaves. -/
structure FeedStore.Kept (host : FeedHost) (owner : ConnectionId → UserId) (L : Ledger)
    (s s' : FeedStore) : Prop where
  follows : s'.Follows host owner L
  growth : s.Extends s'

theorem FeedStore.Follows.kept (hs : s.Follows host owner L) : s.Kept host owner L s :=
  ⟨hs, .refl s⟩

/-- A step of the webhook, for a push of a row of the account `e`. -/
theorem SyncWebhook.Moves.holds {body : SyncWebhookBody} {w w' : SyncWebhook} {reply : BankReply}
    {backend : BankStore} {tasks : List IngestTask}
    (hm : Moves host.spelling body s.backend w reply backend w' tasks)
    (hreply : host.hears s r w = reply) (hw : w.Holds host s e) (hs : s.Follows host owner L)
    (he : body.externalAccountId = e.text)
    (hbody : ∀ t ∈ body.transactions, s.Through e (host.Carries t)) :
    s.Kept host owner L { s with backend } ∧ w'.Holds host { s with backend } e ∧
      ∀ task ∈ tasks, ∃ user e, FeedTask.Carries host { s with backend } user e task := by
  cases hm with
  | refused r e' hended => exact ⟨hs.kept, trivial, by simp⟩
  | routed hroute =>
    obtain ⟨ha, hsynced, c, hc, hholds, -⟩ := BankStore.route_eq_some hroute
    exact ⟨hs.kept, ⟨c.user, c, hc, rfl, _, ha, rfl, hsynced, he ▸ hholds⟩, by simp⟩
  | unrouted hroute => exact ⟨hs.kept, trivial, by simp⟩
  | found hc hcarries hlinked => exact ⟨hs.kept, hc, by simp⟩
  | fetched l =>
    have hfetch : host.fetchAccounts s r _ = .ok l := BankReply.accounts.inj hreply
    exact ⟨hs.kept, ⟨hw, fetchAccounts_fromBank hfetch⟩, by simp⟩
  | applied happly =>
    obtain ⟨hfollows, hext, hlands⟩ := hs.land hw.1 hw.2 happly
    exact ⟨⟨hfollows, hext⟩, ⟨hext.mem hw.1, hlands⟩, by simp⟩
  | backfilled => exact ⟨hs.kept, hw.1, by simp⟩
  | backfills hb =>
    rw [← hreply] at hb
    obtain ⟨hb', htasks⟩ := Backfill.step_holds hw.2 hb
    exact ⟨hs.kept, ⟨hw.1, hb' _ rfl⟩, fun task htask => ⟨_, htasks task htask⟩⟩
  | stopped e' hb =>
    rw [← hreply] at hb
    obtain ⟨-, htasks⟩ := Backfill.step_holds hw.2 hb
    exact ⟨hs.kept, trivial, fun task htask => ⟨_, htasks task htask⟩⟩
  | @rerouted c a ha hholds =>
    have hsynced := (hs.owned a ha c.id hholds.1).1
    exact ⟨hs.kept, ⟨c.user, c, hw, rfl, a, ha, rfl, hsynced, he ▸ hholds⟩, by simp⟩
  | enqueued =>
    obtain ⟨user, hserves⟩ := hw
    refine ⟨hs.kept, trivial, fun task htask => ⟨user, e, ?_⟩⟩
    rw [List.mem_singleton.1 htask]
    exact ⟨hserves, by simp [he], hbody⟩

theorem holds_queued {tasks : List IngestTask}
    (h : ∀ task ∈ tasks, ∃ user e, FeedTask.Carries host s user e task) :
    ∀ u ∈ queued tasks, u.Holds host s := by
  intro u hu
  obtain ⟨task, htask, rfl⟩ := List.mem_map.1 hu
  obtain ⟨user, e, hcarries⟩ := h task htask
  exact ⟨user, e, hcarries, trivial⟩

theorem FeedHost.payload_eq_some {b : MockTransaction} {a : MockAccount} {body : SyncWebhookBody}
    (h : host.payload b a = some body) : body.externalAccountId = a.id.text ∧
      ∃ x, body.transactions = [x] ∧ host.Carries x b.trimmed := by
  obtain ⟨x, hx, rfl⟩ := Option.map_eq_some_iff.1 h
  exact ⟨rfl, x, rfl, carries_of_validate hx⟩

theorem SimulateTransaction.Moves.holds {t t' : SimulateTransaction} {tasks : List FeedTask}
    (hm : Moves host s r t s' t' tasks) (ht : t.Holds host s) (hs : s.Follows host owner L) :
    s.Kept host owner L s' ∧ t'.Holds host s' ∧ ∀ u ∈ tasks, u.Holds host s' := by
  cases hm with
  | refuses => exact ⟨hs.kept, trivial, by simp⟩
  | @records b a haccount hfits =>
    have hsub : s.transactions ⊆ s.transactions ++ [b] := List.subset_append_left _ _
    refine ⟨⟨⟨⟨hs.accounts, hs.owned, hs.owners⟩, fun row hrow => ?_, hs.once⟩, hsub, rfl,
      fun _ _ _ h => h, fun _ _ _ _ _ hk _ => hk⟩, ⟨by simp, haccount⟩, by simp⟩
    refine (hs.rows row hrow).imp_right ?_
    rintro ⟨e, hserves, hthrough⟩
    exact ⟨e, hserves, hthrough.imp (fun _ hb => hb) hsub⟩
  | fails => exact ⟨hs.kept, trivial, by simp⟩
  | pushes hpayload =>
    obtain ⟨hid, hx⟩ := FeedHost.payload_eq_some hpayload
    exact ⟨hs.kept, ⟨ht.1, by rw [hid, ht.2], hx, trivial⟩, by simp⟩
  | hears => exact ⟨hs.kept, ht, by simp⟩
  | gives => exact ⟨hs.kept, ht, by simp⟩
  | handles hstep =>
    obtain ⟨hb, hid, ⟨x, hx, hcarries⟩, hw⟩ := ht
    have hbody : ∀ t ∈ [x], s.Through _ (host.Carries t) := fun t ht =>
      ⟨_, hb, rfl, Or.inr (List.mem_singleton.1 ht ▸ hcarries)⟩
    obtain ⟨hkept, hw', htasks⟩ := (SyncWebhook.step_moves hstep).holds rfl hw hs hid (hx ▸ hbody)
    exact ⟨hkept, ⟨hkept.growth.transactions hb, hid, ⟨x, hx, hcarries⟩, hw'⟩,
      holds_queued htasks⟩

theorem RefreshAccounts.Moves.holds {t t' : RefreshAccounts} {tasks : List FeedTask}
    (hm : Moves host s r t s' t' tasks) (ht : t.Holds host s) (hs : s.Follows host owner L) :
    s.Kept host owner L s' ∧ t'.Holds host s' ∧ ∀ u ∈ tasks, u.Holds host s' := by
  cases hm with
  | ends => exact ⟨hs.kept, trivial, by simp⟩
  | loads hc => exact ⟨hs.kept, hc, by simp⟩
  | fetches hfetch => exact ⟨hs.kept, ⟨ht, fetchAccounts_fromBank hfetch⟩, by simp⟩
  | applies happly =>
    obtain ⟨hfollows, hext, hlands⟩ := hs.land ht.1 ht.2 happly
    exact ⟨⟨hfollows, hext⟩, ⟨hext.mem ht.1, hlands⟩, by simp⟩
  | backfills hb =>
    obtain ⟨hb', htasks⟩ := Backfill.step_holds ht.2 hb
    exact ⟨hs.kept, ⟨ht.1, hb' _ rfl⟩, holds_queued fun task htask => ⟨_, htasks task htask⟩⟩
  | stops hb =>
    obtain ⟨-, htasks⟩ := Backfill.step_holds ht.2 hb
    exact ⟨hs.kept, trivial, holds_queued fun task htask => ⟨_, htasks task htask⟩⟩

theorem IngestPoint.Moves.holds {task : IngestTask} {t t' : IngestPoint}
    (hm : Moves host s task t s' t') (hcarries : FeedTask.Carries host s user e task)
    (ht : t.Holds host s user task) (hs : s.Follows host owner L) :
    s.Kept host owner L s' ∧ t'.Holds host s' user task := by
  cases hm with
  | drops hnone =>
    obtain ⟨c, -, -, a, ha, hid, -⟩ := hcarries.serves
    exact absurd hid (hnone a ha)
  | @loads a ha hid =>
    obtain ⟨c, hc, huser, b, hb, hbid, -, hholds⟩ := hcarries.serves
    obtain rfl := Keyed.eq_of_pk hs.accounts.ids hb ha (hbid.trans hid.symm)
    have howner := (hs.owned b hb c.id hholds.1).2
    exact ⟨hs.kept, hid, (howner.trans (hs.owners c hc)).trans huser, [], rfl, nofun⟩
  | ingests hstep =>
    obtain ⟨hid, huser, hcovers⟩ := ht
    obtain ⟨hcovers', hgrow⟩ := IngestRun.step_covers hcovers hstep
    rcases hgrow with rfl | ⟨x, hx, d, row, hd, hrow, rfl⟩
    · exact ⟨hs.kept, hid, huser, hcovers'⟩
    · obtain ⟨b, hb, haccount, hP⟩ := hcarries.transactions x hx
      have hserves : s.Serves row.user row.account e := by
        rcases hP with h | h <;> obtain ⟨hu, ha, -⟩ := h.mirrors hd hrow <;>
          rw [hu, ha, huser, hid] <;> exact hcarries.serves
      have hmirrors : s.Through e (host.Mirrors row) :=
        ⟨b, hb, haccount, hP.imp (fun h => (h.mirrors hd hrow).2.2) fun h =>
          (h.mirrors hd hrow).2.2⟩
      obtain ⟨hfollows, hext⟩ := hs.insert hrow hserves hmirrors
      exact ⟨⟨hfollows, hext⟩, hid, huser, hcovers'⟩

theorem FeedTask.Moves.holds {t t' : FeedTask} {tasks : List FeedTask}
    (hm : Moves host s r t s' t' tasks) (ht : t.Holds host s) (hs : s.Follows host owner L) :
    s.Kept host owner L s' ∧ t'.Holds host s' ∧ ∀ u ∈ tasks, u.Holds host s' := by
  cases hm with
  | opens =>
    exact ⟨⟨⟨⟨hs.accounts, hs.owned, hs.owners⟩, hs.rows, hs.once⟩, List.Subset.refl _, rfl,
      fun _ _ _ h => h, fun _ _ _ _ _ hk _ => hk⟩, trivial, by simp⟩
  | simulates hm => exact hm.holds ht hs
  | refreshes hm => exact hm.holds ht hs
  | ingests hm =>
    obtain ⟨user, e, hcarries, hpoint⟩ := ht
    obtain ⟨hkept, hpoint'⟩ := hm.holds hcarries hpoint hs
    exact ⟨hkept, ⟨user, e, hcarries.mono hkept.growth, hpoint'⟩, by simp⟩

/-- The feed, in any interleaving. -/
theorem feedHolds {s₀ : FeedStore} {p : Pool FeedStore FeedTask} (h₀ : s₀.Sound owner)
    (hrun : (feedSystem host).Run (fun _ _ => True) ⟨s₀, []⟩ p) :
    Everywhere (FeedStore.Follows host owner s₀.backend.ledger) (fun _ s t => t.Holds host s)
      p := by
  refine hrun.invariant (fun p q a hp _ hn => hp.next hn (fun t _ ht => ?_) ?_)
    ⟨⟨h₀, fun row hrow => Or.inl hrow, fun k _ hL => hL⟩, by simp⟩
  · cases t with
    | opening a => trivial
    | opened => exact ht.elim
    | simulate body t =>
      cases t with
      | recording => trivial
      | _ => exact ht.elim
    | refresh t =>
      cases t with
      | loading id => trivial
      | _ => exact ht.elim
    | ingest task t => exact ht.elim
  · intro i r t s' t' new _ hi hs
    obtain ⟨hkept, hself, hnew⟩ := (FeedTask.step_moves hs).holds (hp.threads i t hi) hp.store
    exact ⟨hkept.follows, hself, fun _ u _ hu => hnew u hu,
      fun j u _ hj => (hp.threads j u hj).mono hkept.growth⟩

end Steps

/-! ## Pushes that were taken -/

section Pushes

variable {host : FeedHost} {p q : Pool FeedStore FeedTask}

/-- The batch of a push is queued. -/
def PushQueued (p : Pool FeedStore FeedTask) (body : SyncWebhookBody) : Prop :=
  ∃ id point, .ingest ⟨id, body.transactions, some (body.providerSlug, body.externalAccountId)⟩
    point ∈ p.threads

/-- A push that the bank takes for delivered was accepted, and one that was accepted is queued. -/
def PushesTaken (p : Pool FeedStore FeedTask) : Prop :=
  ∀ request b heard body w, .simulate request (.pushed b heard body w) ∈ p.threads →
    ((∃ d ∈ heard, d.success = true) → w = .answered (.ok ())) ∧
      (w = .answered (.ok ()) → PushQueued p body)

theorem PushQueued.next {a : Action FeedTask FeedHeard} (hn : (feedSystem host).Next p a q)
    {body : SyncWebhookBody} (h : PushQueued p body) : PushQueued q body := by
  obtain ⟨id, point, hmem⟩ := h
  obtain ⟨j, hj⟩ := List.mem_iff_getElem?.1 hmem
  cases hn with
  | arrive ht => exact ⟨id, point, List.mem_append_left _ hmem⟩
  | @run i r t t' s' new hi hs =>
    by_cases hji : j = i
    · subst hji
      have hm := FeedTask.step_moves hs
      cases hi.symm.trans hj
      cases hm with
      | @ingests _ _ point' _ _ =>
        exact ⟨id, point', List.mem_of_getElem? (getElem?_set_append_self
          (List.getElem?_eq_some_iff.1 hi).1)⟩
    · exact ⟨id, point, List.mem_of_getElem? (getElem?_set_append_ne hji hj)⟩

/-- An acceptance queues the batch. -/
theorem SyncWebhook.Moves.accepts {sp : Spelling} {body : SyncWebhookBody} {w : SyncWebhook}
    {reply : BankReply} {backend backend' : BankStore} {tasks : List IngestTask}
    (hm : Moves sp body backend w reply backend' (.answered (.ok ())) tasks) : ∃ id, tasks =
      [⟨id, body.transactions, some (body.providerSlug, body.externalAccountId)⟩] := by
  cases hm with
  | enqueued => exact ⟨_, rfl⟩

theorem SyncWebhook.Moves.running {sp : Spelling} {body : SyncWebhookBody} {w w' : SyncWebhook}
    {reply : BankReply} {backend backend' : BankStore} {tasks : List IngestTask}
    (hm : Moves sp body backend w reply backend' w' tasks) : ¬w.Ended := by
  cases hm with
  | refused r e hended => exact hended
  | _ => exact id

theorem PushesTaken.next {a : Action FeedTask FeedHeard} (h : PushesTaken p)
    (hn : (feedSystem host).Next p a q) : PushesTaken q := by
  have hold : ∀ request b heard body w, .simulate request (.pushed b heard body w) ∈ p.threads →
      ((∃ d ∈ heard, d.success = true) → w = .answered (.ok ())) ∧
        (w = .answered (.ok ()) → PushQueued q body) := fun request b heard body w hmem =>
    (h request b heard body w hmem).imp id fun htaken hw => (htaken hw).next hn
  intro request b heard body w hmem
  cases hn with
  | @arrive t ht =>
    rcases List.mem_append.1 hmem with hmem | hmem
    · exact hold _ _ _ _ _ hmem
    · obtain rfl := List.mem_singleton.1 hmem
      exact ht.elim
  | @run i r t t' s' new hi hs =>
    have hm := FeedTask.step_moves hs
    have hthread : t ∈ p.threads := List.mem_of_getElem? hi
    rcases List.mem_append.1 hmem with hset | hnew
    · rcases List.mem_or_eq_of_mem_set hset with hmem | rfl
      · exact hold _ _ _ _ _ hmem
      · cases hm with
        | simulates hm =>
          cases hm with
          | pushes => exact ⟨by simp, by simp⟩
          | hears hsuccess =>
            obtain ⟨-, htaken⟩ := hold _ _ _ _ _ hthread
            refine ⟨?_, htaken⟩
            rintro ⟨d, hd, hok⟩
            obtain rfl := Option.some.inj hd
            rw [hsuccess hok]
          | gives hfails =>
            obtain ⟨-, htaken⟩ := hold _ _ _ _ _ hthread
            refine ⟨?_, htaken⟩
            rintro ⟨d, hd, hok⟩
            obtain rfl := Option.some.inj hd
            cases hok.symm.trans hfails
          | handles hstep =>
            have hmoves := SyncWebhook.step_moves hstep
            refine ⟨fun hheard => ?_, fun hw => ?_⟩
            · have hended := (hold _ _ _ _ _ hthread).1 hheard
              subst hended
              exact (hmoves.running trivial).elim
            · subst hw
              obtain ⟨id, rfl⟩ := hmoves.accepts
              exact ⟨id, .loading, List.mem_append_right _ List.mem_cons_self⟩
    · cases hm with
      | opens | ingests => cases hnew
      | simulates hm =>
        cases hm with
        | handles =>
          obtain ⟨task, -, heq⟩ := List.mem_map.1 hnew
          cases heq
        | _ => cases hnew
      | refreshes hm =>
        cases hm with
        | backfills | stops =>
          obtain ⟨task, -, heq⟩ := List.mem_map.1 hnew
          cases heq
        | _ => cases hnew

end Pushes

/-! ## The main results -/

/-- The ids of the bank's customer and of his account. -/
def purchaseCustomer : Uuid :=
  ⟨"00000000-0000-0000-0000-00000000000c", by decide, by simp⟩

/-- `uuid.UUID`, of canonical texts. -/
def canonicalUuid (text : String) : Option Uuid :=
  if h : text.length = 36 ∧
      text.toList.all fun c => c = '-' ∨ c.isDigit ∨ c ∈ ['a', 'b', 'c', 'd', 'e', 'f'] then
    some ⟨text, h.1, fun c hc => of_decide_eq_true (List.all_eq_true.1 h.2 c hc)⟩
  else none

/-- A bank on UTC that knows one token. -/
def purchaseHost : FeedHost where
  dateOf t := (Date.ofOrdinal (719163 + (t / 86400000000).toNat)).getD
    ⟨1970, 1, 1, by decide, by decide⟩
  tax := noTaxonomy
  spelling := asciiSpelling
  customerOf token := if token = "token-1" then some purchaseCustomer else none
  uuid := canonicalUuid
  uuid_text u := by
    rw [canonicalUuid, dif_pos
      ⟨u.length_text, List.all_eq_true.2 fun c hc => decide_eq_true (u.mem_text c hc)⟩]
  listed l := l
  listed_perm l := .refl l

/-- The customer's connection is linked, and the backend does not know his account yet. -/
def purchaseStart : FeedStore :=
  { accounts := [{ id := default, customer := purchaseCustomer, accountNumber := "29000117"
                   currency_storable := by decide }]
    backend := { connections := [{ id := 1, user := 7, providerSlug := "mock_bank"
                                   status := .linked
                                   externalCustomerId := purchaseCustomer.text
                                   accessToken := "token-1" }] } }

theorem purchaseStart_sound : purchaseStart.Sound fun _ => 7 where
  accounts := .nil
  owned := by simp [AccountsOwned, purchaseStart]
  owners := by simp [purchaseStart]

/-- The request for a purchase. -/
def purchaseRequest : SimulateTransactionRequest :=
  { accountId := (default : Uuid).text, amount := some 6500, merchant := "Carrefour" }

/-- A purchase is recorded and pushed, and the webhook lands its account. -/
def pushPurchase : List (Action FeedTask FeedHeard) :=
  [.arrive (.simulate purchaseRequest .recording), .run 0 { now := 1782898200000000 },
    .run 0 { delivered := true }, .run 0 {}, .run 0 {}, .run 0 { fetched := true }, .run 0 {}]

/-- The backfill reads the purchase, and its ingest runs before that of the push. -/
def ingestPurchase : List (Action FeedTask FeedHeard) :=
  [.run 0 { fetched := true }, .run 0 { taken := true }, .run 0 {}, .run 0 {},
    .run 0 { taken := true }, .run 0 {}, .run 1 {}, .run 1 {}, .run 1 {}, .run 1 {}, .run 2 {},
    .run 2 {}, .run 2 {}]

/-- The webhook takes every row of the bank, and knows it under the content key of a fetch exactly
if the texts of the row have no blanks around. -/
theorem pushed_key_eq_iff {host : FeedHost} {b : MockTransaction} {currency : String}
    (a : BankAccount) (hb : b.Fits) (hcurrency : TextStorable currency) :
    ∃ x, (host.serialize b currency).validate = some x ∧
      (x.key a = (host.serialize b currency).key a ↔ b.trimmed = b) := by
  obtain ⟨x, hx⟩ := host.validate_serialize hb hcurrency
  refine ⟨x, hx, ?_⟩
  rw [(carries_of_validate hx).key, (host.carries_serialize b currency).key, Option.some_inj,
    contentKey_trimmed]

/-- A purchase whose merchant has a blank behind it. -/
def blankPurchase : MockTransaction :=
  { id := default, account := default, transactionDate := 0, merchant := "Carrefour "
    amount := 6500, transactionType := "debit" }

theorem pushed_key_eq_iff_blank :
    ∃ x, (purchaseHost.serialize blankPurchase "EGP").validate = some x ∧
      x.key syncedAccount ≠ (purchaseHost.serialize blankPurchase "EGP").key syncedAccount := by
  obtain ⟨x, hx, hiff⟩ := @pushed_key_eq_iff purchaseHost blankPurchase "EGP" syncedAccount
    (by decide) (by decide)
  exact ⟨x, hx, fun h => absurd (hiff.1 h) (by decide)⟩

section Convergence

variable {host : FeedHost} {owner : ConnectionId → UserId} {s₀ : FeedStore}
  {p z : Pool FeedStore FeedTask}

/-- The feed invents nothing : a row of the ledger that was not there at first stands for a row of
the bank, on a synced account that stands for the bank's. -/
theorem rows_mirror_bank (h₀ : s₀.Sound owner)
    (hrun : (feedSystem host).Run (fun _ _ => True) ⟨s₀, []⟩ p) {row : Transaction}
    (hrow : row ∈ p.store.backend.ledger) (hnew : row ∉ s₀.backend.ledger) :
    ∃ c ∈ p.store.backend.connections, c.user = row.user ∧
      ∃ a ∈ p.store.backend.accounts, a.id = row.account ∧ a.linkType = .synced ∧
        ∃ b ∈ p.store.transactions, a.Holds c.id b.account.text ∧
          (host.Mirrors row b ∨ host.Mirrors row b.trimmed) := by
  obtain ⟨e, ⟨c, hc, huser, a, ha, hid, hsynced, hholds⟩, b, hb, rfl, hmirrors⟩ :=
    ((feedHolds h₀ hrun).store.rows row hrow).resolve_left hnew
  exact ⟨c, hc, huser, a, ha, hid, hsynced, b, hb, hholds, hmirrors⟩

theorem rows_mirror_bank_purchase :
    ∃ p ∈ (feedSystem purchaseHost).exec (pushPurchase ++ ingestPurchase) ⟨purchaseStart, []⟩,
      ∃ a ∈ p.store.backend.accounts, a.linkType = .synced ∧
        ∃ b ∈ p.store.transactions, a.externalAccountId = some b.account.text := by
  obtain ⟨p, hp, row, hrow, -⟩ :
      ∃ p ∈ (feedSystem purchaseHost).exec (pushPurchase ++ ingestPurchase) ⟨purchaseStart, []⟩,
        ∃ row ∈ p.store.backend.ledger.head?, row.amount = 6500 := by
    decide +kernel
  obtain ⟨c, -, -, a, ha, -, hsynced, b, hb, hholds, -⟩ :=
    rows_mirror_bank purchaseStart_sound (.of_exec hp) (List.mem_of_mem_head? hrow)
      (by simp [purchaseStart])
  exact ⟨p, hp, a, ha, hsynced, b, hb, hholds.2⟩

/-- The bank has recorded nothing on the account in the meantime. -/
def FeedStore.Rests (e : Uuid) (s s' : FeedStore) : Prop :=
  ∀ b ∈ s'.transactions, b.account = e → b ∈ s.transactions

/-- The rows of the account have a merchant and a direction, without blanks around. -/
def FeedStore.Plain (e : Uuid) (s : FeedStore) : Prop :=
  ∀ b ∈ s.transactions, b.account = e →
    b.merchant ≠ none ∧ b.transactionType ≠ none ∧ b.trimmed = b

instance decidableRests (e : Uuid) (s s' : FeedStore) : Decidable (FeedStore.Rests e s s') := by
  unfold FeedStore.Rests
  infer_instance

instance decidablePlain (e : Uuid) (s : FeedStore) : Decidable (FeedStore.Plain e s) := by
  unfold FeedStore.Plain
  infer_instance

/-- The columns keep the keys of such rows as they are. -/
theorem FeedStore.Plain.contentKey_cut {e : Uuid} {s : FeedStore} (h : s.Plain e)
    {b : MockTransaction} (hb : b ∈ s.transactions) (haccount : b.account = e) {user : UserId}
    {account : AccountId} :
    (host.contentKey user account b).cut = host.contentKey user account b := by
  have htrimmed := (h b hb haccount).2.2
  rw [← htrimmed]
  exact contentKey_trimmed_cut

/-- A row of an account that had none at first has the key of a row of the bank. -/
theorem FeedStore.Follows.key_of_bank {s : FeedStore}
    (hs : FeedStore.Follows host owner s₀.backend.ledger s) {a : AccountRow} {c : BankConnection}
    {e : Uuid} (ha : a ∈ s.backend.accounts) (hc : c ∈ s.backend.connections)
    (hholds : a.Holds c.id e.text) (hnamed : s.Plain e)
    (hempty : ∀ row ∈ s₀.backend.ledger, row.account ≠ a.id) {row : Transaction}
    (hrow : row ∈ s.backend.ledger) (haccount : row.account = a.id) :
    ∃ b ∈ s.transactions, b.account = e ∧ host.contentKey c.user a.id b = row.key := by
  obtain ⟨e', hserves, b, hb, rfl, hmirrors⟩ :=
    (hs.rows row hrow).resolve_left fun h => hempty row h haccount
  rw [haccount] at hserves
  obtain ⟨huser, rfl⟩ := hs.serves_eq ha hc hholds host hserves
  rw [(hnamed b hb rfl).2.2, or_self] at hmirrors
  refine ⟨b, hb, rfl, ?_⟩
  rw [hmirrors.key, haccount, ← huser, hnamed.contentKey_cut hb rfl]

/-- When the ingest of a fetch has finished, and the bank has recorded nothing on the account since
the fetch, the content keys of the account are those of the bank, once each. -/
theorem feed_converges {a : AccountRow} {c : BankConnection} {e customer : Uuid}
    {batch : List SyncedTransaction} (h₀ : s₀.Sound owner)
    (hrun : (feedSystem host).Run (fun _ _ => True) ⟨s₀, []⟩ p)
    (hlist : host.listTransactions p.store e.text customer = some batch)
    (hrun' : (feedSystem host).Run (fun _ _ => True) p z)
    (ha : a ∈ z.store.backend.accounts) (hc : c ∈ z.store.backend.connections)
    (hholds : a.Holds c.id e.text)
    (hdone : batch = [] ∨ ∃ origin account created,
      .ingest ⟨a.id, batch, origin⟩ (.running account (.finished created)) ∈ z.threads)
    (hquiet : p.store.Rests e z.store) (hnamed : z.store.Plain e)
    (hempty : ∀ row ∈ s₀.backend.ledger, row.account ≠ a.id)
    {k : TransactionKey} (hk : k.account = a.id) :
    (k ∈ z.store.backend.ledger.keys ↔ ∃ b ∈ z.store.transactions,
      b.account = e ∧ host.contentKey c.user a.id b = k) ∧
      z.store.backend.ledger.keys.count k ≤ 1 := by
  have hz := feedHolds h₀ (hrun.trans hrun')
  have hiff : k ∈ z.store.backend.ledger.keys ↔ ∃ b ∈ z.store.transactions,
      b.account = e ∧ host.contentKey c.user a.id b = k := by
    constructor
    · intro hmem
      obtain ⟨row, hrow, rfl⟩ := List.mem_map.1 hmem
      exact hz.store.key_of_bank ha hc hholds hnamed hempty hrow hk
    · rintro ⟨b, hb, haccount, rfl⟩
      obtain ⟨currency, hmem⟩ := listTransactions_eq_some hlist
      have hbatch : host.serialize b currency ∈ batch :=
        (hmem _).2 ⟨b, hquiet b hb haccount, haccount, rfl⟩
      rcases hdone with rfl | ⟨origin, account, created, hthread⟩
      · cases hbatch
      obtain ⟨j, hj⟩ := List.mem_iff_getElem?.1 hthread
      obtain ⟨user, e', htask, hid, huser, hstored⟩ := hz.threads j _ hj
      obtain ⟨rfl, -⟩ := hz.store.serves_eq ha hc hholds host htask.serves
      have hkey := (host.carries_serialize b currency).key (a := account)
      rw [hid, huser] at hkey
      rcases hstored _ hbatch _ hkey with h | h
      · exact h
      · exact hnamed.contentKey_cut hb haccount ▸ h
  refine ⟨hiff, ?_⟩
  by_cases hmem : k ∈ z.store.backend.ledger.keys
  · obtain ⟨b, hb, haccount, rfl⟩ := hiff.1 hmem
    obtain ⟨hmerchant, htype, -⟩ := hnamed b hb haccount
    refine hz.store.once _ ⟨hmerchant, htype⟩ ?_
    have hnone : host.contentKey c.user a.id b ∉ s₀.backend.ledger.keys := by
      intro h
      obtain ⟨row, hrow, hkey⟩ := List.mem_map.1 h
      exact hempty row hrow ((congrArg TransactionKey.account hkey).trans hk)
    rw [List.count_eq_zero.2 hnone]
    omega
  · rw [List.count_eq_zero.2 hmem]
    omega

theorem feed_converges_purchase :
    ∃ p ∈ (feedSystem purchaseHost).exec pushPurchase ⟨purchaseStart, []⟩,
      ∃ z ∈ (feedSystem purchaseHost).exec ingestPurchase p, ∃ b ∈ z.store.transactions,
        z.store.backend.ledger.keys.count (purchaseHost.contentKey 7 1 b) ≤ 1 := by
  obtain ⟨p, hp, z, hz, batch, hlist, a, ha, c, hc, hholds, haid, huser, hdone, b, hb, hquiet,
      hnamed⟩ :
      ∃ p ∈ (feedSystem purchaseHost).exec pushPurchase ⟨purchaseStart, []⟩,
        ∃ z ∈ (feedSystem purchaseHost).exec ingestPurchase p,
          ∃ batch ∈ purchaseHost.listTransactions p.store (default : Uuid).text purchaseCustomer,
            ∃ a ∈ z.store.backend.accounts, ∃ c ∈ z.store.backend.connections,
              a.Holds c.id (default : Uuid).text ∧ a.id = 1 ∧ c.user = 7 ∧
              .ingest ⟨a.id, batch, none⟩
                (.running a.toBankAccount (.finished z.store.backend.ledger)) ∈ z.threads ∧
              ∃ b ∈ z.store.transactions.head?,
                p.store.Rests default z.store ∧ z.store.Plain default := by
    decide +kernel
  refine ⟨p, hp, z, hz, b, List.mem_of_mem_head? hb, ?_⟩
  have hconverges := (@feed_converges purchaseHost (fun _ => 7) purchaseStart p z a c default
    purchaseCustomer batch purchaseStart_sound (.of_exec hp) hlist (.of_exec hz) ha hc hholds
    (Or.inr ⟨none, _, _, hdone⟩) hquiet hnamed (by simp [purchaseStart])
    (purchaseHost.contentKey c.user a.id b) rfl).2
  rwa [haid, huser] at hconverges

end Convergence

end NbeAdvisor
