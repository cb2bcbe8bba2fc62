import NbeAdvisor.BankMoves

/-!
# How a link callback ends

A link callback alone, on a pending connection, after a token response that the exchange
accepts. It saves the connection as linked before it lands the accounts, in two
transactions, and catches no error of the database. So it ends in one of the two states
that a client can go on from, linked with every account in its row or not linked with a
recorded error, exactly if every text that the provider has sent can be stored, the ids of the
accounts as they are, the customer id is nobody else's and every account has a number
(`linkCallback_settles_iff`). An account without a number leaves the connection linked and the
account without a row (`nullAccountNumber_unsettled`).
-/

namespace NbeAdvisor

open Interleave

/-- The columns take the row's texts. -/
def AccountRow.Fits (a : AccountRow) : Prop :=
  (∀ s ∈ a.externalAccountId, TextFits 255 s) ∧
    TextFits 255 a.bankName ∧
    (∀ s ∈ a.accountType, TextFits 50 s) ∧
    TextFits 50 a.accountNumber ∧ TextFits 10 a.currency

instance (a : AccountRow) : Decidable a.Fits := by
  unfold AccountRow.Fits
  infer_instance

/-- A row can only show an account that the database takes. -/
theorem AccountRow.Lands.storable {a : AccountRow} {c : BankConnection} {p : ProviderAccount}
    (h : a.Lands c p.cut) (hf : a.Fits) : p.Storable := by
  obtain ⟨⟨-, hext⟩, -, -, hname, htype, hnumber, hcurrency⟩ := h
  obtain ⟨hfext, hfname, hftype, hfnumber, hfcurrency⟩ := hf
  refine ⟨⟨hfext _ hext, hname ▸ hfname, htype ▸ hftype, ?_, hcurrency ▸ hfcurrency⟩,
    fun hnone => ?_⟩
  · rw [← hnumber]
    exact fun s hs => Option.some.inj hs ▸ hfnumber
  · rw [ProviderAccount.cut, hnone] at hnumber
    cases hnumber

/-- What the database sees to in the tables of connections and accounts. -/
structure BankStore.Sound (s : BankStore) : Prop where
  connectionIds : (s.connections.map (·.id)).Nodup
  accounts : AccountsSound s.accounts
  fits : ∀ a ∈ s.accounts, a.Fits

/-- What the callback hears : the token response `data` and the outcome `fetched`. -/
def Hears (data : TokenData) (fetched : Except String (List ProviderAccount)) : BankReply → Prop
  | .token r => r = .ok data
  | .accounts r => r = fetched
  | _ => True

/-- The connection is linked and each account that was fetched has its row, which a lookup by its
id finds and which shows what the columns keep of it, or it is not linked, its `oauth_state` is
cleared and an error is recorded. -/
def LinkSettled (c : BankConnection) (fetched : Except String (List ProviderAccount))
    (s : BankStore) : Prop :=
  ∃ c' ∈ s.connections, c'.id = c.id ∧
    ((c'.status = .linked ∧ ∃ l, fetched = .ok l ∧ ∀ p ∈ l, ∃ a ∈ s.accounts,
        a.Holds c'.id p.externalAccountId ∧ a.Lands c' p.cut) ∨
      (c'.status ≠ .linked ∧ c'.oauthState = none ∧ c'.errorReason ≠ none))

/-- The database takes everything that the callback writes, and the ids of the accounts as they
are. -/
def Linkable (s : BankStore) (c : BankConnection) (token : TokenResponse) :
    Except String (List ProviderAccount) → Prop
  | .error e => TextStorable e
  | .ok l => (c.link token).Fits ∧
      (∀ d ∈ s.connections, d.id ≠ c.id → ¬(c.link token).Clashes d) ∧
      ∀ p ∈ l, p.Storable ∧ TextFits 255 p.externalAccountId

namespace LinkCallback

/-- The callback with nobody else. -/
def alone (sp : Spelling) (req : CallbackRequest) (s : BankStore) (t : LinkCallback) (r : BankReply) :
    Option (BankStore × LinkCallback) :=
  (t.step sp req s r).map fun x => (x.1, x.2.1)

end LinkCallback

/-- Up to its first write, the callback leaves the tables alone. -/
structure BankStore.Agrees (s s₀ : BankStore) : Prop where
  connections : s.connections = s₀.connections
  accounts : s.accounts = s₀.accounts
  uncommitted : s.uncommitted = []

section Outcome

variable {sp : Spelling} {s₀ s s' : BankStore} {c : BankConnection} {code state : String}
  {data : TokenData} {token : TokenResponse} {fetched : Except String (List ProviderAccount)}

/-- Where the callback is, and what it has left to do. -/
def LinkCallback.OnTrack (s₀ : BankStore) (c : BankConnection) (token : TokenResponse)
    (fetched : Except String (List ProviderAccount)) (s : BankStore) : LinkCallback → Prop
  | loading => s.Agrees s₀
  | exchanging c' _ => s.Agrees s₀ ∧ c' = c
  | fetching c' token' => s.Agrees s₀ ∧ c' = c ∧ token' = token
  | failing c' reason => s.Agrees s₀ ∧ c' = c ∧ fetched = .error reason
  | linking c' token' l => s.Agrees s₀ ∧ c' = c ∧ token' = token ∧ fetched = .ok l
  | applying c' l => c' = c.link token ∧ fetched = .ok l ∧ s.accounts = s₀.accounts ∧
      s.connections = (s₀.saveConnection c.id (.link token)).connections
  | backfilling _ _ => LinkSettled c fetched s
  | answered _ => LinkSettled c fetched s

/-- A bound on the steps that a backfill can still take. -/
def Backfill.fuel : Backfill → ℕ
  | fetching rest => 2 * rest.length + 1
  | enqueueing _ _ rest => 2 * rest.length + 2

/-- A backfill comes to its end. -/
theorem Backfill.step_fuel {b b' : Backfill} {r : BankReply} {tasks : List IngestTask}
    (h : b.step r = some (some b', tasks)) : b'.fuel < b.fuel := by
  unfold Backfill.step at h
  split at h
  · cases h
    simp [fuel]
  · split at h
    · cases h
      simp [fuel]
    · cases h
      simp only [fuel, List.length_cons]
      omega
  · cases h
    simp [fuel]
  · cases h
  · cases h

/-- The steps left, if `n` accounts are fetched. -/
def LinkCallback.fuel (n : ℕ) : LinkCallback → ℕ
  | loading => 2 * n + 8
  | exchanging _ _ => 2 * n + 7
  | fetching _ _ => 2 * n + 6
  | linking _ _ _ => 2 * n + 5
  | applying _ _ => 2 * n + 4
  | failing _ _ => 1
  | backfilling _ b => b.fuel + 1
  | answered _ => 0

/-- The request of the connection's user with its state. -/
def callbackRequest (c : BankConnection) (code state : String) : CallbackRequest :=
  ⟨c.user, c.id, some (code, state)⟩

/-! The steps of the callback, where nothing goes wrong. -/

/-- The pending connection is found. -/
theorem LinkCallback.step_loading (hs : s₀.Sound) (hc : c ∈ s₀.connections)
    (hstate : given c.oauthState = some state) (hslug : c.providerSlug ∈ registry)
    (ha : s.Agrees s₀) :
    loading.step sp (callbackRequest c code state) s .done = some (s, exchanging c code, []) := by
  have hfind : (s.connections.find? fun d => d.id = (callbackRequest c code state).connectionId ∧
      d.user = (callbackRequest c code state).user) = some c := by
    rw [ha.connections]
    exact Keyed.find?_of_pk hs.connectionIds hc (by simp [callbackRequest])
      fun u _ hu => (of_decide_eq_true hu).1
  have hbody : (callbackRequest c code state).body = some (code, state) := rfl
  simp only [LinkCallback.step, hfind, hbody, hstate, hslug, ne_eq, not_true_eq_false, if_false]

/-- The failure is saved. -/
theorem LinkCallback.step_failing {req : CallbackRequest} {reason : String}
    (h : TextStorable reason) : ∃ e, (failing c reason).step sp req s .done =
      some (s.saveConnection c.id (.markFailed reason), answered (.error e), []) :=
  ⟨_, if_neg (not_not.2 h)⟩

/-- The link is saved. -/
theorem LinkCallback.step_linking {l : List ProviderAccount} {req : CallbackRequest}
    (ha : s.Agrees s₀) (hf : (c.link token).Fits)
    (hfree : ∀ d ∈ s₀.connections, d.id ≠ c.id → ¬(c.link token).Clashes d) :
    (linking c token l).step sp req s .done =
      some (s.saveConnection c.id (.link token), applying (c.link token) l, []) := by
  have hawaits : ¬s.Awaits (c.link token) := by
    simp [BankStore.Awaits, ha.uncommitted]
  have hclash : ¬∃ d ∈ s.connections, d.id ≠ c.id ∧ (c.link token).Clashes d := by
    rw [ha.connections]
    rintro ⟨d, hd, hne, hcl⟩
    exact hfree d hd hne hcl
  simp only [LinkCallback.step, BankStore.linkConnection, hf, not_true_eq_false, if_false,
    if_neg hawaits, if_neg hclash]

/-- The accounts land, if the database takes them all. -/
theorem LinkCallback.step_applying {l : List ProviderAccount} {req : CallbackRequest}
    (hs : AccountsSound s.accounts) (hl : ∀ p ∈ l, p.Storable ∧ TextFits 255 p.externalAccountId) :
    ∃ s' created, s.applyAccounts sp c l = .ok (s', created) ∧
      (applying c l).step sp req s .done =
        some (s', backfilling created (.fetching created), []) := by
  obtain ⟨⟨s', created⟩, happly⟩ := (BankStore.applyAccounts_isOk sp c l hs).2
    (landable_of_fits (fun p hp => (hl p hp).1) fun p hp => (hl p hp).2)
  exact ⟨s', created, happly, by simp only [LinkCallback.step, happly]⟩

/-- The backfill leaves the tables, and ends. -/
theorem LinkCallback.step_backfilling {created : List AccountRow} {b : Backfill}
    {req : CallbackRequest} {t : LinkCallback} {r : BankReply}
    (h : alone sp req s (backfilling created b) r = some (s', t)) :
    s' = s ∧ ((∃ b', t = backfilling created b' ∧ b'.fuel < b.fuel) ∨ ∃ x, t = answered x) := by
  obtain ⟨⟨s₁, t₁, tasks⟩, hstep, heq⟩ := Option.map_eq_some_iff.1 h
  obtain ⟨rfl, rfl⟩ := Prod.mk.inj heq
  cases step_moves hstep with
  | refused r e => exact ⟨rfl, Or.inr ⟨_, rfl⟩⟩
  | backfilled => exact ⟨rfl, Or.inr ⟨_, rfl⟩⟩
  | backfills hb => exact ⟨rfl, Or.inl ⟨_, rfl, Backfill.step_fuel hb⟩⟩
  | stopped e hb => exact ⟨rfl, Or.inr ⟨_, rfl⟩⟩

/-- A connection that is marked as failed is settled. -/
theorem linkSettled_failed (hc : c ∈ s₀.connections) (ha : s.Agrees s₀) (reason : String) :
    LinkSettled c fetched (s.saveConnection c.id (.markFailed reason)) := by
  refine ⟨c.markFailed reason, Keyed.mem_modify.2 (Or.inr ⟨c, ?_, rfl, rfl⟩), rfl, Or.inr ?_⟩
  · rw [ha.connections]
    exact hc
  · exact ⟨by simp [BankConnection.markFailed], rfl, Option.some_ne_none _⟩

/-- Once the accounts have landed, each has its row. -/
theorem linkSettled_applied {l : List ProviderAccount} {created : List AccountRow}
    (hs : s₀.Sound) (hc : c ∈ s₀.connections) (hnd : (l.map (·.externalAccountId)).Nodup)
    (hconn : s.connections = (s₀.saveConnection c.id (.link token)).connections)
    (hacc : s.accounts = s₀.accounts) (hl : ∀ p ∈ l, TextFits 255 p.externalAccountId)
    (happly : s.applyAccounts sp (c.link token) l = .ok (s', created)) :
    LinkSettled c (.ok l) s' := by
  obtain ⟨accounts, ledger, h, rfl⟩ := BankStore.applyAccounts_eq_ok happly
  refine ⟨c.link token, ?_, rfl, Or.inl ⟨rfl, l, rfl, fun p hp => ?_⟩⟩
  · show c.link token ∈ s.connections
    rw [hconn]
    exact Keyed.mem_modify.2 (Or.inr ⟨c, hc, rfl, rfl⟩)
  · obtain ⟨a, ha, q, hq, hqp, hlands⟩ := applySyncedAccounts_lands (hacc ▸ hs.accounts) h hp
    have hid : q.externalAccountId = p.externalAccountId :=
      (hl q hq).cut_eq.symm.trans (hqp.trans (hl p hp).cut_eq)
    obtain rfl : q = p := Keyed.eq_of_pk hnd hq hp hid
    have hcut : q.cut.externalAccountId = q.externalAccountId := (hl q hq).cut_eq
    exact ⟨a, ha, hcut ▸ hlands.1, hlands⟩

/-- There is one number of accounts that a fetch has, if it has any. -/
theorem exists_length_of_ok {ε α : Type*} (fetched : Except ε (List α)) :
    ∃ n, ∀ l, fetched = .ok l → l.length = n := by
  cases fetched with
  | error e => exact ⟨0, fun l hl => by cases hl⟩
  | ok l => exact ⟨l.length, fun l' hl => by rw [Except.ok.inj hl]⟩

section OnTrack

variable (hs : s₀.Sound) (hc : c ∈ s₀.connections) (hstate : given c.oauthState = some state)
  (hslug : c.providerSlug ∈ registry) (haccepted : exchangeCodeForToken (.ok data) = .ok token)
  (hnd : ∀ l, fetched = .ok l → (l.map (·.externalAccountId)).Nodup)
  (hlinkable : Linkable s₀ c token fetched)
include hs hc hstate hslug haccepted hnd hlinkable

/-- A step leads on to the outcome, and closer to the end. -/
theorem LinkCallback.alone_onTrack {n : ℕ} (hn : ∀ l, fetched = .ok l → l.length = n)
    {t t' : LinkCallback} {r : BankReply} (ht : t.OnTrack s₀ c token fetched s)
    (hr : Hears data fetched r)
    (hstep : alone sp (callbackRequest c code state) s t r = some (s', t')) :
    t'.OnTrack s₀ c token fetched s' ∧ t'.fuel n < t.fuel n := by
  cases t with
  | loading =>
    cases r with
    | done =>
      rw [alone, step_loading hs hc hstate hslug ht] at hstep
      cases hstep
      exact ⟨⟨ht, rfl⟩, by simp [fuel]⟩
    | _ => simp [alone, step] at hstep
  | exchanging c' code' =>
    obtain ⟨ha, rfl⟩ := ht
    cases r with
    | token r =>
      obtain rfl : r = .ok data := hr
      simp only [alone, step, haccepted] at hstep
      cases hstep
      exact ⟨⟨⟨ha.connections, ha.accounts, ha.uncommitted⟩, rfl, rfl⟩, by simp [fuel]⟩
    | _ => simp [alone, step] at hstep
  | fetching c' token' =>
    obtain ⟨ha, rfl, rfl⟩ := ht
    cases r with
    | accounts r =>
      obtain rfl : r = fetched := hr
      cases r with
      | error e =>
        cases hstep
        exact ⟨⟨ha, rfl, rfl⟩, by simp [fuel]⟩
      | ok l =>
        cases hstep
        exact ⟨⟨ha, rfl, rfl, rfl⟩, by simp [fuel]⟩
    | _ => simp [alone, step] at hstep
  | failing c' reason =>
    obtain ⟨ha, rfl, rfl⟩ := ht
    cases r with
    | done =>
      obtain ⟨e, heq⟩ :=
        @step_failing sp s c' (callbackRequest c' code state) reason hlinkable
      rw [alone, heq] at hstep
      cases hstep
      exact ⟨linkSettled_failed hc ha reason, by simp [fuel]⟩
    | _ => simp [alone, step] at hstep
  | linking c' token' l =>
    obtain ⟨ha, rfl, rfl, rfl⟩ := ht
    obtain ⟨hf, hfree, -⟩ := hlinkable
    cases r with
    | done =>
      rw [alone, step_linking ha hf hfree] at hstep
      cases hstep
      refine ⟨⟨rfl, rfl, ha.accounts, ?_⟩, by simp [fuel]⟩
      simp only [BankStore.saveConnection, ha.connections]
    | _ => simp [alone, step] at hstep
  | applying c' l =>
    obtain ⟨rfl, rfl, hacc, hconn⟩ := ht
    obtain ⟨-, -, hl⟩ := hlinkable
    cases r with
    | done =>
      obtain ⟨s₁, created, happly, heq⟩ := @step_applying sp s (c.link token) l
        (callbackRequest c code state) (hacc ▸ hs.accounts) hl
      rw [alone, heq] at hstep
      cases hstep
      refine ⟨linkSettled_applied hs hc (hnd l rfl) hconn hacc (fun p hp => (hl p hp).2) happly, ?_⟩
      obtain ⟨accounts, ledger, h, -⟩ := BankStore.applyAccounts_eq_ok happly
      have hlen := updateOrCreateAccounts_length h
      have hn := hn l rfl
      simp only [fuel, Backfill.fuel]
      omega
    | _ => simp [alone, step] at hstep
  | backfilling created b =>
    obtain ⟨rfl, ⟨b', rfl, hlt⟩ | ⟨x, rfl⟩⟩ := step_backfilling hstep
    · exact ⟨ht, by simpa [fuel] using hlt⟩
    · exact ⟨ht, by simp [fuel]⟩
  | answered x => simp [alone, step] at hstep

/-- Short of the end there is a step. -/
theorem LinkCallback.exists_step {t : LinkCallback} (ht : t.OnTrack s₀ c token fetched s)
    (hend : ¬t.Ended) :
    ∃ r x, Hears data fetched r ∧ alone sp (callbackRequest c code state) s t r = some x := by
  cases t with
  | loading =>
    exact ⟨.done, _, trivial, by rw [alone, step_loading hs hc hstate hslug ht]; rfl⟩
  | exchanging c' code' =>
    exact ⟨.token (.ok data), _, rfl, by simp only [alone, step, haccepted]; rfl⟩
  | fetching c' token' =>
    cases hf : fetched with
    | error e => exact ⟨.accounts (.error e), _, rfl, rfl⟩
    | ok l => exact ⟨.accounts (.ok l), _, rfl, rfl⟩
  | failing c' reason =>
    obtain ⟨-, rfl, rfl⟩ := ht
    obtain ⟨e, heq⟩ := @step_failing sp s c' (callbackRequest c' code state) reason hlinkable
    exact ⟨.done, _, trivial, by rw [alone, heq]; rfl⟩
  | linking c' token' l =>
    obtain ⟨ha, rfl, rfl, rfl⟩ := ht
    obtain ⟨hf, hfree, -⟩ := hlinkable
    exact ⟨.done, _, trivial, by rw [alone, step_linking ha hf hfree]; rfl⟩
  | applying c' l =>
    obtain ⟨rfl, rfl, hacc, -⟩ := ht
    obtain ⟨-, -, hl⟩ := hlinkable
    obtain ⟨s₁, created, -, heq⟩ := @step_applying sp s (c.link token) l
      (callbackRequest c code state) (hacc ▸ hs.accounts) hl
    exact ⟨.done, _, trivial, by rw [alone, heq]; rfl⟩
  | backfilling created b =>
    cases b with
    | fetching rest =>
      cases rest with
      | nil => exact ⟨.done, _, trivial, rfl⟩
      | cons a rest => exact ⟨.transactions (.error "timeout"), _, trivial, rfl⟩
    | enqueueing id ts rest => exact ⟨.enqueued true, _, trivial, rfl⟩
  | answered x => exact (hend trivial).elim

end OnTrack

/-! ## Where it goes wrong -/

/-- The callback up to what it does with the outcome of the fetch. -/
theorem LinkCallback.alone_fetched {t : LinkCallback} (hs : s₀.Sound) (hc : c ∈ s₀.connections)
    (hquiet : s₀.uncommitted = []) (hstate : given c.oauthState = some state)
    (hslug : c.providerSlug ∈ registry) (haccepted : exchangeCodeForToken (.ok data) = .ok token)
    (hfetched : ∀ s, alone sp (callbackRequest c code state) s (fetching c token)
      (.accounts fetched) = some (s, t)) :
    ∃ s, s.Agrees s₀ ∧ Alone (alone sp (callbackRequest c code state))
      (fun _ _ r => Hears data fetched r) (s₀, loading) [.done, .token (.ok data), .accounts fetched]
      (s, t) := by
  have ha : s₀.Agrees s₀ := ⟨rfl, rfl, hquiet⟩
  refine ⟨{ s₀ with exchanged := s₀.exchanged ++ [(code, token)] }, ⟨rfl, rfl, hquiet⟩, ?_⟩
  refine .cons trivial (?_ : _ = some (s₀, exchanging c code)) (.cons rfl ?_ (.cons rfl (hfetched _)
    (.nil _)))
  · rw [alone, step_loading hs hc hstate hslug ha]
    rfl
  · simp only [alone, step, haccepted]
    rfl

/-- A link that the table refuses saves nothing. -/
theorem LinkCallback.alone_linking_refused {l : List ProviderAccount} {req : CallbackRequest}
    (ha : s.Agrees s₀) (h : ¬((c.link token).Fits ∧
      ∀ d ∈ s₀.connections, d.id ≠ c.id → ¬(c.link token).Clashes d)) :
    ∃ e, alone sp req s (linking c token l) .done = some (s, answered (.error e)) := by
  by_cases hf : (c.link token).Fits
  · have hclash : ∃ d ∈ s.connections, d.id ≠ c.id ∧ (c.link token).Clashes d := by
      by_contra hno
      refine h ⟨hf, fun d hd hne hcl => hno ⟨d, ?_, hne, hcl⟩⟩
      rw [ha.connections]
      exact hd
    have hawaits : ¬s.Awaits (c.link token) := by
      simp [BankStore.Awaits, ha.uncommitted]
    refine ⟨.database .integrityError, ?_⟩
    simp only [alone, step, BankStore.linkConnection, hf, not_true_eq_false, if_false,
      if_neg hawaits, if_pos hclash]
    rfl
  · refine ⟨.database .dataError, ?_⟩
    simp only [alone, step, BankStore.linkConnection, hf, not_false_eq_true, if_true]
    rfl

/-- A pending connection that nothing was written to is in neither state. -/
theorem not_linkSettled (hs : s₀.Sound) (hc : c ∈ s₀.connections)
    (hpending : c.status = .pendingOtp) (hstate : given c.oauthState = some state)
    (hconn : s.connections = s₀.connections) : ¬LinkSettled c fetched s := by
  rintro ⟨c', hc', hid, hcase⟩
  obtain rfl : c' = c := Keyed.eq_of_pk hs.connectionIds (hconn ▸ hc') hc hid
  rcases hcase with ⟨hlinked, -⟩ | ⟨-, hnone, -⟩
  · simp [hpending] at hlinked
  · simp [hnone, given] at hstate

/-- Once the connection is saved as linked, each account must have its row. -/
theorem LinkSettled.rows {l : List ProviderAccount}
    (hconn : s.connections = (s₀.saveConnection c.id (.link token)).connections)
    (h : LinkSettled c (.ok l) s) : ∃ c', ∀ p ∈ l, ∃ a ∈ s.accounts,
      a.Holds c' p.externalAccountId ∧ ∃ d : BankConnection, a.Lands d p.cut := by
  obtain ⟨c', hc', hid, hcase⟩ := h
  rcases hcase with ⟨-, l', hl, hrows⟩ | ⟨hne, -⟩
  · obtain rfl : l = l' := Except.ok.inj hl
    refine ⟨c'.id, fun p hp => ?_⟩
    obtain ⟨a, ha, hholds, hlands⟩ := hrows p hp
    exact ⟨a, ha, hholds, c', hlands⟩
  · rw [hconn] at hc'
    rcases Keyed.mem_modify.1 hc' with ⟨-, hid'⟩ | ⟨d, -, -, rfl⟩
    · exact (hid' hid).elim
    · exact (hne rfl).elim

/-- While the transactions are fetched, the tables stay. -/
theorem LinkCallback.settled_backfilling {l : List ProviderAccount} {created : List AccountRow}
    {b : Backfill} {req : CallbackRequest}
    (h : Settles (alone sp req) (fun _ _ r => Hears data (.ok l) r) Ended (LinkSettled c (.ok l))
      (s, backfilling created b)) : LinkSettled c (.ok l) s := by
  obtain ⟨rs, s', t, hrun, -, hsettled⟩ := h.exists_end
  have hkept : s' = s ∧ ((∃ b', t = backfilling created b') ∨ ∃ x, t = answered x) := by
    refine hrun.invariant
      (I := fun u t => u = s ∧ ((∃ b', t = backfilling created b') ∨ ∃ x, t = answered x))
      (fun u t r u' t' hu _ hstep => ?_) ⟨rfl, Or.inl ⟨b, rfl⟩⟩
    obtain ⟨rfl, ⟨b', rfl⟩ | ⟨x, rfl⟩⟩ := hu
    · obtain ⟨rfl, ⟨b'', rfl, -⟩ | ⟨x, rfl⟩⟩ := step_backfilling hstep
      · exact ⟨rfl, Or.inl ⟨b'', rfl⟩⟩
      · exact ⟨rfl, Or.inr ⟨x, rfl⟩⟩
    · simp [alone, step] at hstep
  exact hkept.1 ▸ hsettled

section Settled

variable (hs : s₀.Sound) (hquiet : s₀.uncommitted = []) (hc : c ∈ s₀.connections)
  (hpending : c.status = .pendingOtp) (hstate : given c.oauthState = some state)
  (hslug : c.providerSlug ∈ registry) (haccepted : exchangeCodeForToken (.ok data) = .ok token)

include hs hquiet hc hpending hstate hslug haccepted

/-- A failed fetch whose reason the database refuses leaves the connection as it was. -/
theorem LinkCallback.storable_of_settles {e : String}
    (h : Settles (alone sp (callbackRequest c code state)) (fun _ _ r => Hears data (.error e) r)
      Ended (LinkSettled c (.error e)) (s₀, loading)) : TextStorable e := by
  by_contra hno
  obtain ⟨s, ha, hfailing⟩ := @alone_fetched sp s₀ c code state data token (.error e) (failing c e)
    hs hc hquiet hstate hslug haccepted fun s => rfl
  have hlast : Alone (alone sp (callbackRequest c code state))
      (fun _ _ r => Hears data (.error e) r) (s, failing c e) [.done]
      (s, answered (.error (.database .dataError))) := .cons trivial (by
    simp only [alone, step, if_pos (show ¬TextStorable e from hno)]
    rfl) (.nil _)
  exact not_linkSettled hs hc hpending hstate ha.connections
    (h.ends _ _ _ (hfailing.trans hlast) trivial)

/-- A connection whose link the database refuses is left as it was. -/
theorem LinkCallback.saved_of_settles {l : List ProviderAccount}
    (h : Settles (alone sp (callbackRequest c code state)) (fun _ _ r => Hears data (.ok l) r)
      Ended (LinkSettled c (.ok l)) (s₀, loading)) :
    (c.link token).Fits ∧ ∀ d ∈ s₀.connections, d.id ≠ c.id → ¬(c.link token).Clashes d := by
  by_contra hno
  obtain ⟨s, ha, hlinking⟩ := @alone_fetched sp s₀ c code state data token (.ok l)
    (linking c token l) hs hc hquiet hstate hslug haccepted fun s => rfl
  obtain ⟨e, hstep⟩ := @alone_linking_refused sp s₀ s c token l (callbackRequest c code state) ha
    hno
  have hlast : Alone (alone sp (callbackRequest c code state))
      (fun _ _ r => Hears data (.ok l) r) (s, linking c token l) [.done]
      (s, answered (.error e)) := .cons trivial hstep (.nil _)
  exact not_linkSettled hs hc hpending hstate ha.connections
    (h.ends _ _ _ (hlinking.trans hlast) trivial)

/-- Once it is linked, the database must take every account. -/
theorem LinkCallback.accounts_of_settles {l : List ProviderAccount}
    (h : Settles (alone sp (callbackRequest c code state)) (fun _ _ r => Hears data (.ok l) r)
      Ended (LinkSettled c (.ok l)) (s₀, loading)) :
    ∀ p ∈ l, p.Storable ∧ TextFits 255 p.externalAccountId := by
  obtain ⟨hfits, hfree⟩ := saved_of_settles hs hquiet hc hpending hstate hslug haccepted h
  obtain ⟨s, ha, hlinking⟩ := @alone_fetched sp s₀ c code state data token (.ok l)
    (linking c token l) hs hc hquiet hstate hslug haccepted fun s => rfl
  have hconn : (s.saveConnection c.id (.link token)).connections =
      (s₀.saveConnection c.id (.link token)).connections := by
    simp only [BankStore.saveConnection, ha.connections]
  have hacc : (s.saveConnection c.id (.link token)).accounts = s₀.accounts := ha.accounts
  have hlinked : alone sp (callbackRequest c code state) s (linking c token l) .done =
      some (s.saveConnection c.id (.link token), applying (c.link token) l) := by
    rw [alone, step_linking ha hfits hfree]
    rfl
  have hdone : Hears data (.ok l) .done := trivial
  have happlying := hlinking.trans (.cons hdone hlinked (.nil _))
  cases happly : (s.saveConnection c.id (.link token)).applyAccounts sp (c.link token) l with
  | ok x =>
    obtain ⟨s', created⟩ := x
    have hlast : alone sp (callbackRequest c code state) (s.saveConnection c.id (.link token))
        (applying (c.link token) l) .done =
        some (s', backfilling created (.fetching created)) := by
      simp only [alone, step, happly]
      rfl
    have hsettled := settled_backfilling (h.after (happlying.trans (.cons hdone hlast (.nil _))))
    have hland := (BankStore.applyAccounts_isOk sp _ l (hacc ▸ hs.accounts)).1 ⟨_, happly⟩
    obtain ⟨accounts, ledger, hrows, hs'⟩ := BankStore.applyAccounts_eq_ok happly
    have hsound : AccountsSound s'.accounts := by
      rw [hs']
      exact AccountsSound.apply (hacc ▸ hs.accounts) hrows
    have hconn' : s'.connections = (s₀.saveConnection c.id (.link token)).connections := by
      rw [hs']
      exact hconn
    obtain ⟨c', hall⟩ := @LinkSettled.rows s₀ s' c token l hconn' hsettled
    intro p hp
    obtain ⟨a, ha', hholds, -⟩ := hall p hp
    exact ⟨hland.storable p hp, hsound.widths a ha' _ hholds.2⟩
  | error e =>
    have hlast : alone sp (callbackRequest c code state) (s.saveConnection c.id (.link token))
        (applying (c.link token) l) .done =
        some (s.saveConnection c.id (.link token), answered (.error (.database e))) := by
      simp only [alone, step, happly]
      rfl
    have hsettled := h.ends _ _ _ (happlying.trans (.cons hdone hlast (.nil _))) trivial
    obtain ⟨c', hall⟩ := hsettled.rows hconn
    intro p hp
    obtain ⟨a, ha', hholds, d, hlands⟩ := hall p hp
    have hfits := hs.fits a (hacc ▸ ha')
    exact ⟨hlands.storable hfits, hfits.1 _ hholds.2⟩

end Settled

/-- What the database takes settles. -/
theorem LinkCallback.settles_of_linkable (hs : s₀.Sound) (hquiet : s₀.uncommitted = [])
    (hc : c ∈ s₀.connections) (hstate : given c.oauthState = some state)
    (hslug : c.providerSlug ∈ registry) (haccepted : exchangeCodeForToken (.ok data) = .ok token)
    (hnd : ∀ l, fetched = .ok l → (l.map (·.externalAccountId)).Nodup)
    (hlinkable : Linkable s₀ c token fetched) :
    Settles (alone sp (callbackRequest c code state)) (fun _ _ r => Hears data fetched r) Ended
      (LinkSettled c fetched) (s₀, loading) := by
  obtain ⟨n, hn⟩ := exists_length_of_ok fetched
  refine Settles.of_invariant (m := fun _ t => t.fuel n)
    (I := fun s t => t.OnTrack s₀ c token fetched s) ?_ ?_ ?_ ?_ ⟨rfl, rfl, hquiet⟩
  · intro s t r s' t' ht hr hstep
    exact (alone_onTrack hs hc hstate hslug haccepted hnd hlinkable hn ht hr hstep).1
  · intro s t r s' t' ht hr hstep
    exact (alone_onTrack hs hc hstate hslug haccepted hnd hlinkable hn ht hr hstep).2
  · intro s t ht hend
    exact exists_step hs hc hstate hslug haccepted hnd hlinkable ht hend
  · intro s t ht hend
    cases t with
    | answered x => exact ht
    | _ => exact hend.elim

/-- A link callback alone, on a pending connection, with a token response that the exchange
accepts : every run of it ends, linked with a row for each account or not linked with an
error recorded, exactly if the database takes what it writes. -/
theorem linkCallback_settles_iff (sp : Spelling) (hs : s₀.Sound) (hquiet : s₀.uncommitted = [])
    (hc : c ∈ s₀.connections) (hpending : c.status = .pendingOtp)
    (hstate : given c.oauthState = some state) (hslug : c.providerSlug ∈ registry)
    (haccepted : exchangeCodeForToken (.ok data) = .ok token)
    (hnd : ∀ l, fetched = .ok l → (l.map (·.externalAccountId)).Nodup) :
    Settles (LinkCallback.alone sp (callbackRequest c code state)) (fun _ _ r => Hears data fetched r)
      LinkCallback.Ended (LinkSettled c fetched) (s₀, .loading) ↔ Linkable s₀ c token fetched := by
  refine ⟨fun h => ?_, LinkCallback.settles_of_linkable hs hquiet hc hstate hslug haccepted hnd⟩
  cases fetched with
  | error e =>
    exact LinkCallback.storable_of_settles hs hquiet hc hpending hstate hslug haccepted h
  | ok l =>
    obtain ⟨hfits, hfree⟩ :=
      LinkCallback.saved_of_settles hs hquiet hc hpending hstate hslug haccepted h
    exact ⟨hfits, hfree,
      LinkCallback.accounts_of_settles hs hquiet hc hpending hstate hslug haccepted h⟩

end Outcome

/-- A user who has started to link the bank. -/
def pendingConnection : BankConnection :=
  { id := 1, user := 1, providerSlug := "mock_bank", oauthState := some "state-1" }

/-- Mona has started to link the bank. -/
def pendingStore : BankStore :=
  { users := [⟨1, "mona@example.com", "Mona", some "+201000000001"⟩]
    connections := [pendingConnection] }

theorem pendingStore_sound : pendingStore.Sound where
  connectionIds := by decide
  accounts := ⟨by decide, by simp [pendingStore], by simp [pendingStore]⟩
  fits := by decide

/-- The `/token` response for a customer of the bank. -/
def tokenFor (customer accessToken : String) : TokenData :=
  { accessToken := some accessToken, externalCustomerId := some customer
    email := some "mona@example.com", phone := some "+201000000001" }

/-- An account as the bank lists it. -/
def currentAccount (number : Option String) : ProviderAccount :=
  { externalAccountId := "acc-1", bankName := "MOCK NATIONAL BANK", accountNumber := number }

/-- Mona links an account with a number. -/
theorem linkCallback_settles_currentAccount :
    Settles (LinkCallback.alone ⟨id, id⟩ (callbackRequest pendingConnection "code-1" "state-1"))
      (fun _ _ r => Hears (tokenFor "cust-1" "token-1") (.ok [currentAccount (some "1000200030001234")]) r)
      LinkCallback.Ended
      (LinkSettled pendingConnection (.ok [currentAccount (some "1000200030001234")]))
      (pendingStore, .loading) :=
  (linkCallback_settles_iff ⟨id, id⟩ pendingStore_sound rfl (by decide) rfl rfl (by decide) rfl
    (fun l hl => by
      obtain rfl := Except.ok.inj hl
      simp)).2 ⟨by decide, by decide, by decide⟩

/-- The bank knows an account without a number. -/
theorem nullAccountNumber_unsettled :
    ¬∀ (sp : Spelling) (s₀ : BankStore) (c : BankConnection) (code state : String)
      (data : TokenData) (token : TokenResponse) (l : List ProviderAccount),
      s₀.Sound → s₀.uncommitted = [] → c ∈ s₀.connections → c.status = .pendingOtp →
      given c.oauthState = some state → c.providerSlug ∈ registry →
      exchangeCodeForToken (.ok data) = .ok token → (l.map (·.externalAccountId)).Nodup →
      Settles (LinkCallback.alone sp (callbackRequest c code state))
        (fun _ _ r => Hears data (.ok l) r) LinkCallback.Ended (LinkSettled c (.ok l))
        (s₀, .loading) := by
  intro h
  have hsettles := h ⟨id, id⟩ pendingStore pendingConnection "code-1" "state-1"
    (tokenFor "cust-1" "token-1") _ [currentAccount none] pendingStore_sound rfl (by decide) rfl rfl
    (by decide) rfl (by simp)
  have hexec : ∃ x ∈ drive (LinkCallback.alone ⟨id, id⟩
        (callbackRequest pendingConnection "code-1" "state-1"))
      [.done, .token (.ok (tokenFor "cust-1" "token-1")), .accounts (.ok [currentAccount none]), .done,
        .done] (pendingStore, .loading),
      x.2 = .answered (.error (.database .integrityError)) ∧ x.1.accounts = pendingStore.accounts ∧
      ∀ c ∈ x.1.connections, c.status = .linked := by
    decide
  obtain ⟨⟨s, t⟩, hdrive, rfl, hacc, hlinked⟩ := hexec
  obtain ⟨c, hc, -, ⟨-, l, hl, hrows⟩ | ⟨hne, -⟩⟩ :=
    hsettles.ends _ _ _ (.of_drive (by simp [Hears]) hdrive) trivial
  · obtain rfl := Except.ok.inj hl
    obtain ⟨a, ha, -⟩ := hrows _ List.mem_cons_self
    rw [show s.accounts = [] from hacc] at ha
    simp at ha
  · exact hne (hlinked c hc)

end NbeAdvisor
