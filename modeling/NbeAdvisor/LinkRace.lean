import NbeAdvisor.BankTables
import NbeAdvisor.LinkOutcome

/-!
# Two requests on one link

Initiates and link callbacks of any users, at any time, on the connections they share. Both
read the connection without a lock and save to it later. A callback whose code the bank
rejects, because another one has redeemed it, marks the connection as failed also if that
other one has linked it in between, and so does an initiate that found the connection
pending (`staleFailure_unlinks`).

If every callback that fails and every initiate finds the connection still not linked when
it writes, then a connection for which some callback has answered success stays linked,
with the tokens and the customer id of a successful exchange (`links_kept`).
-/

namespace NbeAdvisor

open Interleave

/-- Initiates and link callbacks. -/
def BankTask.StartsLink : BankTask → Prop
  | initiate (.checking _ _) | callback _ .loading => True
  | _ => False

instance : DecidablePred BankTask.StartsLink := fun t => by
  cases t with
  | initiate t => cases t <;> unfold BankTask.StartsLink <;> infer_instance
  | callback req t => cases t <;> unfold BankTask.StartsLink <;> infer_instance
  | _ => exact .isFalse id

/-- Only initiates and callbacks come in. -/
def linkSystem (sp : Spelling) (tax : Taxonomy) : System BankStore BankTask BankReply :=
  { bankSystem sp tax with arrives := BankTask.StartsLink }

instance (sp : Spelling) (tax : Taxonomy) : DecidablePred (linkSystem sp tax).arrives :=
  fun t => inferInstanceAs (Decidable t.StartsLink)

/-- The connection is linked, with what a successful exchange returned. -/
def BankStore.Linked (s : BankStore) (id : ConnectionId) : Prop :=
  ∃ c ∈ s.connections, c.id = id ∧ c.status = .linked ∧ ∃ x ∈ s.exchanged,
    c.accessToken = some x.2.accessToken ∧ c.refreshToken = x.2.refreshToken ∧
      c.externalCustomerId = x.2.customer

instance (s : BankStore) (id : ConnectionId) : Decidable (s.Linked id) := by
  unfold BankStore.Linked
  infer_instance

/-- Every connection for which a callback has answered success is linked. -/
def LinksKept (p : Pool BankStore BankTask) : Prop :=
  ∀ (i : ℕ) (req : CallbackRequest) (l : List AccountRow),
    p.threads[i]? = some (.callback req (.answered (.ok l))) → p.store.Linked req.connectionId

/-- The rows that the next statement of a thread saves a status short of linked to. -/
def BankTask.unlinks (s : BankStore) : BankTask → List BankConnection
  | callback _ (.failing c _) => s.connections.filter fun d => d.id = c.id
  | initiate (.saving user providerSlug) =>
    s.connections.filter fun d => d.user = user ∧ d.providerSlug = providerSlug
  | _ => []

/-- A failing callback and an initiate find the connection not linked when they write. -/
def FindsUnlinked (p : Pool BankStore BankTask) : Action BankTask BankReply → Prop
  | .run i _ => ∀ t ∈ p.threads[i]?, ∀ d ∈ t.unlinks p.store, d.status ≠ .linked
  | .arrive _ => True

instance (p : Pool BankStore BankTask) : DecidablePred (FindsUnlinked p)
  | .run i _ => inferInstanceAs (Decidable
      (∀ t ∈ p.threads[i]?, ∀ d ∈ t.unlinks p.store, d.status ≠ .linked))
  | .arrive _ => .isTrue trivial

/-- The code that the next call of a link callback is about. -/
def BankTask.exchanges : BankTask → Option String
  | callback _ (.exchanging _ code) => some code
  | _ => none

/-- The bank takes each code once. -/
def CodesOnce (p : Pool BankStore BankTask) : Action BankTask BankReply → Prop
  | .run i (.token (.ok _)) => ∀ t ∈ p.threads[i]?, ∀ code ∈ t.exchanges,
      code ∉ p.store.exchanged.map Prod.fst
  | _ => True

instance (p : Pool BankStore BankTask) : DecidablePred (CodesOnce p) := fun a => by
  unfold CodesOnce
  split <;> infer_instance

/-! ## What a step keeps -/

section Keeps

variable {sp : Spelling} {tax : Taxonomy} {s s' : BankStore} {id : ConnectionId}

/-- What the other threads rely on. -/
structure BankStore.Keeps (s s' : BankStore) : Prop where
  ids : ∀ id ∈ s.connections.map (·.id), id ∈ s'.connections.map (·.id)
  exchanged : ∀ x ∈ s.exchanged, x ∈ s'.exchanged
  linked : ∀ id, s.Linked id → s'.Linked id

/-- What leaves the connections keeps the links. -/
theorem BankStore.Keeps.of_connections (hc : s'.connections = s.connections)
    (he : ∀ x ∈ s.exchanged, x ∈ s'.exchanged) : s.Keeps s' where
  ids id h := by rwa [hc]
  exchanged := he
  linked id h := by
    obtain ⟨c, hcs, hid, hst, x, hx, htok⟩ := h
    exact ⟨c, hc ▸ hcs, hid, hst, x, he x hx, htok⟩

theorem BankStore.Keeps.refl (s : BankStore) : s.Keeps s := .of_connections rfl fun _ h => h

/-- A save of a connection keeps the links, if it finds its rows not linked, or links them. -/
theorem BankStore.Keeps.save {f : BankConnection → BankConnection} {k : ConnectionId}
    (hid : ∀ c, (f c).id = c.id)
    (h : (∀ c ∈ s.connections, c.id = k → c.status ≠ .linked) ∨
      ∃ x ∈ s.exchanged, f = BankConnection.link x.2) : s.Keeps (s.saveConnection k f) where
  ids id hmem := by
    rw [BankStore.saveConnection_ids hid]
    exact hmem
  exchanged _ h := h
  linked id hl := by
    obtain ⟨c, hc, hcid, hst, x, hx, htok⟩ := hl
    obtain ⟨u, hu, rfl | ⟨hck, rfl⟩⟩ := BankStore.exists_mem_saveConnection (k := k) (f := f) hc
    · exact ⟨u, hu, hcid, hst, x, hx, htok⟩
    · rcases h with h | ⟨y, hy, rfl⟩
      · exact (h c hc hck hst).elim
      · exact ⟨_, hu, hcid, rfl, y, hy, rfl, rfl, rfl⟩

/-- What a callback knows of the connection it was called for. -/
def LinkCallback.Knows (s : BankStore) (req : CallbackRequest) : LinkCallback → Prop
  | loading | failing _ _ | answered (.error _) => True
  | exchanging c _ => c.id = req.connectionId ∧ c.id ∈ s.connections.map (·.id)
  | fetching c token | linking c token _ =>
    c.id = req.connectionId ∧ c.id ∈ s.connections.map (·.id) ∧ ∃ x ∈ s.exchanged, x.2 = token
  | applying _ _ | backfilling _ _ | answered (.ok _) => s.Linked req.connectionId

/-- What a request relies on, by its kind. -/
def BankTask.Knows (s : BankStore) : BankTask → Prop
  | initiate _ | ingest _ | ingested => True
  | callback req t => t.Knows s req
  | login _ | webhook _ _ => False

/-- What a callback relies on stays, if the links are kept. -/
theorem LinkCallback.Knows.mono {req : CallbackRequest} {t : LinkCallback} (h : t.Knows s req)
    (hk : s.Keeps s') : t.Knows s' req := by
  cases t with
  | loading | failing c reason => trivial
  | exchanging c code => exact ⟨h.1, hk.ids _ h.2⟩
  | fetching c token | linking c token l =>
    obtain ⟨hid, hmem, x, hx, rfl⟩ := h
    exact ⟨hid, hk.ids _ hmem, x, hk.exchanged x hx, rfl⟩
  | applying c l | backfilling created b => exact hk.linked _ h
  | answered r =>
    cases r with
    | error e => trivial
    | ok l => exact hk.linked _ h

/-- So does what any request relies on. -/
theorem BankTask.Knows.mono {t : BankTask} (h : t.Knows s) (hk : s.Keeps s') : t.Knows s' := by
  cases t with
  | callback req t => exact LinkCallback.Knows.mono h hk
  | initiate t | ingest task | ingested => trivial
  | login t | webhook body t => exact h.elim

/-- The save of a link leaves the connection linked. -/
theorem BankStore.linked_link {c : BankConnection} {x : String × TokenResponse}
    (hc : c.id ∈ s.connections.map (·.id)) (hx : x ∈ s.exchanged) :
    (s.saveConnection c.id (.link x.2)).Linked c.id := by
  obtain ⟨d, hd, hid⟩ := List.mem_map.1 hc
  exact ⟨d.link x.2, Keyed.mem_modify.2 (Or.inr ⟨d, hd, hid, rfl⟩), hid, rfl, x, hx, rfl, rfl, rfl⟩

/-- A statement of a callback keeps the links, unless it is one that is excluded. -/
theorem LinkCallback.Moves.keeps {req : CallbackRequest} {t t' : LinkCallback} {r : BankReply}
    {tasks : List IngestTask} (hs : Moves sp req s t r s' t' tasks) (h : t.Knows s req)
    (hok : ∀ d ∈ (BankTask.callback req t).unlinks s, d.status ≠ .linked) :
    s.Keeps s' ∧ s'.connections.map (·.id) = s.connections.map (·.id) ∧ t'.Knows s' req := by
  cases hs with
  | refused r e hne => exact ⟨.refl s, rfl, trivial⟩
  | loaded hc hbody hstate hslug =>
    have hid := List.find?_some hc
    have hmem := List.mem_of_find?_eq_some hc
    exact ⟨.refl s, rfl, (of_decide_eq_true hid).1, List.mem_map_of_mem hmem⟩
  | rejected he => exact ⟨.refl s, rfl, trivial⟩
  | exchanged ht =>
    exact ⟨.of_connections rfl fun x hx => List.mem_append_left _ hx, rfl, h.1, h.2, _,
      List.mem_append_right _ (List.mem_singleton.2 rfl), rfl⟩
  | unreachable e => exact ⟨.refl s, rfl, trivial⟩
  | fetched l => exact ⟨.refl s, rfl, h⟩
  | @failed c reason e hreason =>
    refine ⟨.save (fun _ => rfl) (Or.inl fun d hd hid => hok d ?_),
      BankStore.saveConnection_ids fun _ => rfl, trivial⟩
    exact List.mem_filter.2 ⟨hd, decide_eq_true hid⟩
  | @linked c token l s' hlink =>
    obtain ⟨-, -, -, rfl⟩ := BankStore.linkConnection_eq_ok hlink
    obtain ⟨hid, hmem, x, hx, rfl⟩ := h
    refine ⟨.save (fun _ => rfl) (Or.inr ⟨x, hx, rfl⟩), BankStore.saveConnection_ids fun _ => rfl, ?_⟩
    rw [LinkCallback.Knows, ← hid]
    exact BankStore.linked_link hmem hx
  | applied happly =>
    obtain ⟨accounts, ledger, -, rfl⟩ := BankStore.applyAccounts_eq_ok happly
    have hk : s.Keeps { s with accounts, ledger } := .of_connections rfl fun x hx => hx
    exact ⟨hk, rfl, hk.linked _ h⟩
  | backfilled => exact ⟨.refl s, rfl, h⟩
  | backfills hb => exact ⟨.refl s, rfl, h⟩
  | stopped e hb => exact ⟨.refl s, rfl, trivial⟩

/-- A statement of an initiate keeps them. -/
theorem Initiate.Moves.keeps {t t' : Initiate} {r : BankReply} (hs : Moves s t r s' t')
    (hids : (s.connections.map (·.id)).Nodup)
    (hok : ∀ d ∈ (BankTask.initiate t).unlinks s, d.status ≠ .linked) :
    s.Keeps s' ∧ (s'.connections.map (·.id)).Nodup := by
  cases hs with
  | refused r e hne => exact ⟨.refl s, hids⟩
  | checked hnot => exact ⟨.refl s, hids⟩
  | absent state hno => exact ⟨.refl s, hids⟩
  | @saved user providerSlug state c hone =>
    have hc : c ∈ s.connections.filter fun c => c.user = user ∧ c.providerSlug = providerSlug := by
      rw [hone]
      exact List.mem_singleton.2 rfl
    refine ⟨.save (fun _ => rfl) (Or.inl fun d hd hid => ?_), ?_⟩
    · obtain rfl := Keyed.eq_of_pk hids hd (List.mem_of_mem_filter hc) hid
      exact hok d hc
    · rwa [BankStore.saveConnection_ids (f := BankConnection.restart state) fun _ => rfl]
  | created hc =>
    refine ⟨⟨fun id hid => ?_, fun x hx => hx, fun id hl => ?_⟩, ?_⟩
    · rw [List.map_append]
      exact List.mem_append_left _ hid
    · obtain ⟨d, hd, hrest⟩ := hl
      exact ⟨d, List.mem_append_left _ hd, hrest⟩
    · exact Keyed.nodup_map_snoc hids fun d hd => hc ▸ BankStore.ne_freshConnectionId hd

end Keeps

/-! ## Links that stay -/

/-- In every interleaving of initiates and link callbacks in which those that are about to
take a link back find none, a link that a callback has reported stays, with what some
exchange returned. -/
theorem links_kept {sp : Spelling} {tax : Taxonomy} {p q : Pool BankStore BankTask}
    (hids : (p.store.connections.map (·.id)).Nodup) (hstart : ∀ t ∈ p.threads, t.StartsLink)
    (hrun : (linkSystem sp tax).Run FindsUnlinked p q) : LinksKept q := by
  have hstarts : ∀ (s : BankStore) (t : BankTask), t.StartsLink → t.Knows s := by
    intro s t ht
    unfold BankTask.StartsLink at ht
    split at ht
    · trivial
    · trivial
    · exact ht.elim
  have h := hrun.invariant (I := Everywhere (fun s => (s.connections.map (·.id)).Nodup)
    fun _ s t => t.Knows s) (fun p q a hp hok hn => ?_)
    ⟨hids, fun i t hi => hstarts _ t (hstart t (List.mem_of_getElem? hi))⟩
  · intro i req l hi
    exact h.threads i _ hi
  refine hp.next hn (fun t _ ht => hstarts _ t ht) fun i r t s' t' new ha hi hs => ?_
  subst ha
  have hunlinks := hok t hi
  have hknows := hp.threads i t hi
  suffices h : p.store.Keeps s' ∧ (s'.connections.map (·.id)).Nodup ∧ t'.Knows s' from
    ⟨h.2.1, h.2.2, fun j u _ hu => by
      obtain ⟨task, rfl⟩ := (BankTask.step_moves hs).new hu
      trivial, fun j u _ hj => (hp.threads j u hj).mono h.1⟩
  cases BankTask.step_moves hs with
  | initiates hm =>
    obtain ⟨hk, hnd⟩ := hm.keeps hp.store hunlinks
    exact ⟨hk, hnd, trivial⟩
  | callsBack hm =>
    obtain ⟨hk, hnd, ht⟩ := hm.keeps hknows hunlinks
    exact ⟨hk, hnd ▸ hp.store, ht⟩
  | ingests task => exact ⟨.of_connections rfl fun x hx => hx, hp.store, trivial⟩
  | logsIn hm | pushes hm => exact hknows.elim

/-- A user without a connection starts a link, and its callback goes through. -/
def linkOnce : List (Action BankTask BankReply) :=
  [.run 0 .done, .run 0 (.minted "state-1"), .run 0 .done,
    .arrive (.callback ⟨1, 1, some ("code-1", "state-1")⟩ .loading), .run 1 .done,
    .run 1 (.token (.ok (tokenFor "cust-1" "token-1"))), .run 1 (.accounts (.ok [])), .run 1 .done,
    .run 1 .done, .run 1 .done]

/-- The connection that the run has linked stays linked. -/
theorem links_kept_once : ∃ q : Pool BankStore BankTask,
    q.threads[1]? = some (.callback ⟨1, 1, some ("code-1", "state-1")⟩ (.answered (.ok []))) ∧
      LinksKept q := by
  have hexec : ∃ q ∈ (linkSystem ⟨id, id⟩ noTaxonomy).exec linkOnce
      ⟨{}, [.initiate (.checking 1 "mock_bank")]⟩,
      q.threads[1]? = some (.callback ⟨1, 1, some ("code-1", "state-1")⟩ (.answered (.ok []))) := by
    decide
  obtain ⟨q, hq, hsuccess⟩ := hexec
  have hrun : (linkSystem ⟨id, id⟩ noTaxonomy).Run FindsUnlinked
      ⟨{}, [.initiate (.checking 1 "mock_bank")]⟩ q := .of_exec_meets (by decide) hq
  exact ⟨q, hsuccess, links_kept (by decide) (by simp [BankTask.StartsLink]) hrun⟩

/-- The browser sends the callback twice. Both load the pending connection, the second
redeems the code after the first, and marks the connection as failed when the first has
linked it. -/
theorem staleFailure_unlinks :
    ¬∀ (sp : Spelling) (tax : Taxonomy) (p q : Pool BankStore BankTask),
      (p.store.connections.map (·.id)).Nodup → (∀ t ∈ p.threads, t.StartsLink) →
      (linkSystem sp tax).Run CodesOnce p q → LinksKept q := by
  intro h
  have hexec : ∃ q ∈ (linkSystem ⟨id, id⟩ noTaxonomy).exec
      [.run 0 .done, .run 1 .done, .run 0 (.token (.ok (tokenFor "cust-1" "token-1"))),
        .run 1 (.token (.error "invalid_grant")), .run 0 (.accounts (.ok [])), .run 0 .done,
        .run 0 .done, .run 0 .done, .run 1 .done]
      ⟨pendingStore, List.replicate 2
        (.callback (callbackRequest pendingConnection "code-1" "state-1") .loading)⟩,
      q.threads[0]? = some (.callback (callbackRequest pendingConnection "code-1" "state-1")
        (.answered (.ok []))) ∧ ¬q.store.Linked 1 := by
    decide
  obtain ⟨q, hq, hsuccess, hnot⟩ := hexec
  exact hnot (h _ _ _ q (by decide) (by simp [BankTask.StartsLink])
    (.of_exec_meets (by decide) hq) 0 _ [] hsuccess)

end NbeAdvisor
