import NbeAdvisor.BankMoves

/-!
# What the bank requests keep in the tables

Invariants of every run of the bank requests, whatever the bank and the broker answer. A row
that is not yet committed belongs to a login whose transaction is open (`Tagged`), which
knows it (`Holding`). And the committed rows, with those that may still be committed, meet
the primary keys and the unique constraint on bank customers (`Provisioned`).
-/

namespace NbeAdvisor

open Interleave

/-- The row that a login has inserted and not committed. -/
def BankLogin.provision : BankLogin → Option Provision
  | creatingConnection _ _ user => some ⟨user, none⟩
  | committing _ _ user c => some ⟨user, some c⟩
  | _ => none

/-- The rows that a login has not committed. -/
def BankTask.provision : BankTask → Option Provision
  | login t => t.provision
  | _ => none

namespace BankStore

/-- The uncommitted rows of thread `i`. -/
def own (s : BankStore) (i : ℕ) : List (ℕ × Provision) := s.uncommitted.filter fun x => x.1 = i

/-- Thread `i` has inserted exactly what it knows of. -/
def Holding (i : ℕ) (s : BankStore) (t : BankTask) : Prop :=
  s.own i = t.provision.toList.map fun x => (i, x)

end BankStore

section Uncommitted

variable {sp : Spelling} {tax : Taxonomy} {i j : ℕ} {s s' : BankStore}

/-- After a rollback nothing of the thread is left. -/
theorem BankStore.own_rollback_self : (s.rollback i).own i = [] := by
  simp [own, rollback]

/-- The others keep what they have inserted. -/
theorem BankStore.own_rollback_ne (h : j ≠ i) : (s.rollback i).own j = s.own j := by
  simp only [own, rollback, List.filter_filter]
  refine List.filter_congr fun x _ => ?_
  by_cases hx : x.1 = j
  · simp [hx, h]
  · simp [hx]

/-- What a login does to the uncommitted rows. -/
theorem BankLogin.Moves.uncommitted {t t' : BankLogin} {r : BankReply} {tasks : List IngestTask}
    (h : Moves sp i s t r s' t' tasks) :
    (s'.uncommitted = s.uncommitted ∧ t'.provision = t.provision) ∨
      (s'.uncommitted = (s.rollback i).uncommitted ++ t'.provision.toList.map fun x => (i, x)) ∨
      (t.provision = none ∧
        s'.uncommitted = s.uncommitted ++ t'.provision.toList.map fun x => (i, x)) := by
  cases h with
  | refused r k e hend htx =>
    refine Or.inl ⟨rfl, ?_⟩
    cases t with
    | creatingConnection k l user | committing k l user c => exact (htx trivial).elim
    | _ => rfl
  | userCreated => exact Or.inr (Or.inr ⟨rfl, rfl⟩)
  | connectionRefused e | connectionExists hclash =>
    exact Or.inr (Or.inl (List.append_nil _).symm)
  | connectionCreated => exact Or.inr (Or.inl rfl)
  | committed => exact Or.inr (Or.inl (List.append_nil _).symm)
  | applied happly =>
    obtain ⟨accounts, ledger, -, rfl⟩ := BankStore.applyAccounts_eq_ok happly
    exact Or.inl ⟨rfl, rfl⟩
  | redeemed | exchanged | foundNoPhone | found | unknown | phoneSaved | tokensSaved | fetchSkipped
  | refetched | emailFree | fetched | userExists | recovered | applyFailed | backfilled
  | backfills | stopped => exact Or.inl ⟨rfl, rfl⟩

/-- A step that is not a login's leaves the users and the uncommitted rows alone. -/
theorem BankTask.Moves.others {t t' : BankTask} {r : BankReply} {new : List BankTask}
    (h : Moves sp tax i s t r s' t' new) (ht : ∀ u, t ≠ login u) :
    s'.users = s.users ∧ s'.uncommitted = s.uncommitted ∧ t'.provision = none := by
  cases h with
  | initiates h =>
    cases h with
    | refused | checked | absent | saved | created => exact ⟨rfl, rfl, rfl⟩
  | callsBack h =>
    cases h with
    | linked hlink =>
      obtain ⟨-, -, -, rfl⟩ := BankStore.linkConnection_eq_ok hlink
      exact ⟨rfl, rfl, rfl⟩
    | applied happly =>
      obtain ⟨accounts, ledger, -, rfl⟩ := BankStore.applyAccounts_eq_ok happly
      exact ⟨rfl, rfl, rfl⟩
    | refused | loaded | rejected | exchanged | unreachable | fetched | failed | backfilled
    | backfills | stopped => exact ⟨rfl, rfl, rfl⟩
  | logsIn h => exact (ht _ rfl).elim
  | pushes h =>
    cases h with
    | applied happly =>
      obtain ⟨accounts, ledger, -, rfl⟩ := BankStore.applyAccounts_eq_ok happly
      exact ⟨rfl, rfl, rfl⟩
    | refused | routed | unrouted | found | fetched | backfilled | backfills | stopped | rerouted
    | enqueued => exact ⟨rfl, rfl, rfl⟩
  | ingests task => exact ⟨rfl, rfl, rfl⟩

/-- The thread that moves has inserted what it then knows of, and the rows of the others
stay. -/
theorem BankTask.Moves.holding {t t' : BankTask} {r : BankReply} {new : List BankTask}
    (h : Moves sp tax i s t r s' t' new) (hh : s.Holding i t) :
    s'.Holding i t' ∧ ∀ j, j ≠ i → s'.own j = s.own j := by
  by_cases ht : ∃ u, t = login u
  · obtain ⟨u, rfl⟩ := ht
    cases h with
    | @logsIn t t' r s' tasks h =>
      have hself : ∀ o : Option Provision,
          ((o.toList.map fun x => (i, x)).filter fun x => x.1 = i) = o.toList.map fun x => (i, x) := by
        rintro (- | x) <;> simp
      have hother : ∀ (o : Option Provision) (j : ℕ), j ≠ i →
          ((o.toList.map fun x => (i, x)).filter fun x => x.1 = j) = [] := by
        rintro (- | x) j hj <;> simp [hj.symm]
      unfold BankStore.Holding at hh ⊢
      rcases h.uncommitted with ⟨hunc, hprov⟩ | hunc | ⟨hnone, hunc⟩
      · refine ⟨?_, fun j _ => by rw [BankStore.own, hunc]; rfl⟩
        rw [BankStore.own, hunc]
        exact hh.trans (by simp [BankTask.provision, hprov])
      · refine ⟨?_, fun j hj => ?_⟩
        · rw [BankStore.own, hunc, List.filter_append, hself]
          exact congrArg (· ++ _) s.own_rollback_self
        · rw [BankStore.own, hunc, List.filter_append, hother _ j hj, List.append_nil]
          exact BankStore.own_rollback_ne hj
      · refine ⟨?_, fun j hj => ?_⟩
        · have hnil : s.own i = [] := hh.trans (by simp [BankTask.provision, hnone])
          rw [BankStore.own, hunc, List.filter_append, hself]
          exact congrArg (· ++ _) hnil
        · rw [BankStore.own, hunc, List.filter_append, hother _ j hj, List.append_nil]
          rfl
  · obtain ⟨-, hunc, hprov⟩ := h.others fun u hu => ht ⟨u, hu⟩
    have htp : t.provision = none := by
      cases t with
      | login u => exact (ht ⟨u, rfl⟩).elim
      | _ => rfl
    unfold BankStore.Holding at hh ⊢
    rw [hprov, BankStore.own, hunc]
    rw [htp] at hh
    exact ⟨hh, fun j _ => by rw [BankStore.own, hunc]; rfl⟩

/-- The uncommitted rows belong to threads of the pool, each of which knows its own. -/
structure Tagged (p : Pool BankStore BankTask) : Prop where
  lt : ∀ x ∈ p.store.uncommitted, x.1 < p.threads.length
  holding : ∀ (i : ℕ) (t : BankTask), p.threads[i]? = some t → p.store.Holding i t

/-- A thread that is not there has inserted nothing. -/
theorem BankStore.own_eq_nil {n : ℕ} (h : ∀ x ∈ s.uncommitted, x.1 < n) (hj : n ≤ j) :
    s.own j = [] := by
  refine List.filter_eq_nil_iff.2 fun x hx => ?_
  have := h x hx
  simp only [decide_eq_true_eq]
  omega

/-- Who comes in has inserted nothing. -/
theorem BankTask.Starts.provision {t : BankTask} (h : t.Starts) : t.provision = none := by
  unfold BankTask.Starts at h
  split at h
  · rfl
  · rfl
  · rfl
  · rfl
  · exact h.elim

/-- The threads that a step starts are ingest tasks. -/
theorem BankTask.Moves.new {t t' u : BankTask} {r : BankReply} {new : List BankTask}
    (h : Moves sp tax i s t r s' t' new) (hu : u ∈ new) : ∃ task, u = ingest task := by
  cases h with
  | initiates h | ingests task => simp at hu
  | callsBack h | logsIn h | pushes h =>
    obtain ⟨task, -, rfl⟩ := List.mem_map.1 hu
    exact ⟨task, rfl⟩

/-- A step keeps what is uncommitted with its threads. -/
theorem Tagged.next {p q : Pool BankStore BankTask} {a : Action BankTask BankReply}
    (h : Tagged p) (hn : (bankSystem sp tax).Next p a q) : Tagged q := by
  cases hn with
  | @arrive t ht =>
    refine ⟨fun x hx => ?_, fun j u hj => ?_⟩
    · have := h.lt x hx
      simp only [List.length_append, List.length_singleton]
      omega
    · rcases getElem?_snoc hj with hj | ⟨rfl, rfl⟩
      · exact h.holding j u hj
      · rw [BankStore.Holding, BankTask.Starts.provision ht]
        exact BankStore.own_eq_nil h.lt le_rfl
  | @run i r t t' s' new hi hs =>
    have hmoves := BankTask.step_moves hs
    have hlt := (List.getElem?_eq_some_iff.1 hi).1
    obtain ⟨hself, hothers⟩ := hmoves.holding (h.holding i t hi)
    have hbound : ∀ x ∈ s'.uncommitted, x.1 < p.threads.length := by
      intro x hx
      by_cases hxi : x.1 = i
      · omega
      · have hmem : x ∈ s'.own x.1 := List.mem_filter.2 ⟨hx, by simp⟩
        rw [hothers x.1 hxi] at hmem
        exact h.lt x (List.mem_of_mem_filter hmem)
    refine ⟨fun x hx => ?_, fun j u hj => ?_⟩
    · have := hbound x hx
      simp only [List.length_append, List.length_set]
      omega
    · rcases getElem?_set_append hlt hj with ⟨rfl, rfl⟩ | ⟨hji, hj⟩ | ⟨hlen, hu⟩
      · exact hself
      · rw [BankStore.Holding, hothers j hji]
        exact h.holding j u hj
      · obtain ⟨task, rfl⟩ := hmoves.new hu
        exact BankStore.own_eq_nil hbound hlen

/-- At the start nothing is uncommitted. -/
theorem Tagged.start {p : Pool BankStore BankTask} (hquiet : p.store.uncommitted = [])
    (hstart : ∀ t ∈ p.threads, t.Starts) : Tagged p := by
  refine ⟨by simp [hquiet], fun i t hi => ?_⟩
  rw [BankStore.Holding, (hstart t (List.mem_of_getElem? hi)).provision, BankStore.own, hquiet]
  rfl

/-- Once no thread has its transaction open, nothing is uncommitted. -/
theorem Tagged.uncommitted_eq_nil {p : Pool BankStore BankTask} (h : Tagged p)
    (hclosed : ∀ t ∈ p.threads, t.provision = none) : p.store.uncommitted = [] := by
  refine List.eq_nil_iff_forall_not_mem.2 fun x hx => ?_
  have hlt := h.lt x hx
  have hmem : x ∈ p.store.own x.1 := List.mem_filter.2 ⟨hx, by simp⟩
  rw [h.holding x.1 _ (List.getElem?_eq_getElem hlt), hclosed _ (List.getElem_mem hlt)] at hmem
  simp at hmem

/-- A login whose transaction is open has its row there, and nobody else has it. -/
theorem BankStore.Holding.mem {x : Provision} {t : BankTask} (h : s.Holding i t)
    (ht : t.provision = some x) : (i, x) ∈ s.uncommitted := by
  have hmem : (i, x) ∈ s.own i := by
    rw [h, ht]
    simp
  exact List.mem_of_mem_filter hmem

end Uncommitted

/-! ## Primary keys and bank customers -/

namespace BankConnection

/-- The column takes the customer id. -/
def IdFits (c : BankConnection) : Prop := ∀ id ∈ c.externalCustomerId, TextFits 255 id

instance (c : BankConnection) : Decidable c.IdFits := by
  unfold IdFits
  infer_instance

/-- What the primary key and the constraint on bank customers look at. -/
def tag (c : BankConnection) : ConnectionId × String × Option String :=
  (c.id, c.providerSlug, c.externalCustomerId)

/-- The table can hold both rows. -/
def Apart (c d : BankConnection) : Prop := c.id ≠ d.id ∧ ¬c.SameCustomer d

theorem Apart.symm {c d : BankConnection} (h : c.Apart d) : d.Apart c :=
  ⟨h.1.symm, fun hs => h.2 hs.symm⟩

/-- Whose customer a connection is depends on its tag. -/
theorem sameCustomer_of_tag {c c' d d' : BankConnection} (hc : c'.tag = c.tag) (hd : d'.tag = d.tag)
    (h : c'.SameCustomer d') : c.SameCustomer d := by
  simp only [tag, Prod.mk.injEq] at hc hd
  unfold SameCustomer at h ⊢
  rw [← hc.2.1, ← hc.2.2, ← hd.2.1, ← hd.2.2]
  exact h

/-- So does what it is apart from. -/
theorem Apart.of_tag {c c' d : BankConnection} (h : c.Apart d) (hc : c'.tag = c.tag) : c'.Apart d := by
  refine ⟨?_, fun hs => h.2 (sameCustomer_of_tag hc rfl hs)⟩
  rw [show c'.id = c.id from congrArg Prod.fst hc]
  exact h.1

end BankConnection

namespace BankStore

/-- The committed rows meet the constraints, and still do when an open transaction
commits. -/
structure Provisioned (s : BankStore) : Prop where
  connectionIds : (s.connections.map (·.id)).Nodup
  widths : ∀ c ∈ s.connections, c.IdFits
  newWidths : ∀ x ∈ s.uncommitted, ∀ d ∈ x.2.connection, d.IdFits
  userIds : (s.users.map (·.id)).Nodup
  customers : ∀ c ∈ s.connections, ∀ d ∈ s.connections, c.SameCustomer d → c.id = d.id
  newUsers : ∀ x ∈ s.uncommitted, x.2.user.id ∉ s.users.map (·.id)
  newConnections : ∀ x ∈ s.uncommitted, ∀ d ∈ x.2.connection, ∀ c ∈ s.connections, c.Apart d
  apart : ∀ x ∈ s.uncommitted, ∀ y ∈ s.uncommitted, x.1 ≠ y.1 → x.2.user.id ≠ y.2.user.id ∧
    ∀ c ∈ x.2.connection, ∀ d ∈ y.2.connection, c.Apart d

namespace Provisioned

variable {s s' : BankStore} {i : ℕ} {c : BankConnection} {user : User}

/-- A customer id by which a connection is found is the one that the column keeps. -/
theorem customer_eq (h : s.Provisioned) {token : TokenResponse} (hc : c ∈ s.connections)
    (hcust : c.externalCustomerId = token.externalCustomerId) :
    c.externalCustomerId = token.customer := by
  rw [TokenResponse.customer, ← hcust, map_cutBlanks_of_fits (h.widths c hc)]

/-- An update that leaves the keys and the customers alone. -/
theorem of_tags (h : s.Provisioned)
    (hc : s'.connections.map BankConnection.tag = s.connections.map BankConnection.tag)
    (hu : s'.users.map (·.id) = s.users.map (·.id)) (hunc : s'.uncommitted = s.uncommitted) :
    s'.Provisioned := by
  have hold : ∀ c ∈ s'.connections, ∃ c₀ ∈ s.connections, c.tag = c₀.tag := by
    intro c hcm
    obtain ⟨c₀, hc₀, htag⟩ := List.mem_map.1 (hc ▸ List.mem_map_of_mem hcm)
    exact ⟨c₀, hc₀, htag.symm⟩
  refine ⟨?_, fun c hcm => ?_, hunc ▸ h.newWidths, hu ▸ h.userIds, fun c hcm d hd hs => ?_, ?_, ?_,
    hunc ▸ h.apart⟩
  · have hids : s'.connections.map (·.id) = s.connections.map (·.id) := by
      have := congrArg (List.map Prod.fst) hc
      rwa [List.map_map, List.map_map] at this
    exact hids ▸ h.connectionIds
  · obtain ⟨c₀, hc₀, htag⟩ := hold c hcm
    have hcust : c.externalCustomerId = c₀.externalCustomerId := congrArg (·.2.2) htag
    rw [BankConnection.IdFits, hcust]
    exact h.widths c₀ hc₀
  · obtain ⟨c₀, hc₀, htc⟩ := hold c hcm
    obtain ⟨d₀, hd₀, htd⟩ := hold d hd
    have hid := h.customers c₀ hc₀ d₀ hd₀ (BankConnection.sameCustomer_of_tag htc htd hs)
    exact (congrArg Prod.fst htc).trans (hid.trans (congrArg Prod.fst htd).symm)
  · rw [hunc, hu]
    exact h.newUsers
  · rw [hunc]
    intro x hx d hd c hcm
    obtain ⟨c₀, hc₀, htc⟩ := hold c hcm
    exact (h.newConnections x hx d hd c₀ hc₀).of_tag htc

/-- A save that leaves the tags. -/
theorem save (h : s.Provisioned) {k : ConnectionId} {f : BankConnection → BankConnection}
    (hf : ∀ c, (f c).tag = c.tag) : (s.saveConnection k f).Provisioned :=
  h.of_tags (Keyed.map_modify hf) rfl rfl

/-- A rollback. -/
theorem rollback (h : s.Provisioned) (i : ℕ) : (s.rollback i).Provisioned where
  connectionIds := h.connectionIds
  widths := h.widths
  newWidths x hx := h.newWidths x (List.mem_of_mem_filter hx)
  userIds := h.userIds
  customers := h.customers
  newUsers x hx := h.newUsers x (List.mem_of_mem_filter hx)
  newConnections x hx := h.newConnections x (List.mem_of_mem_filter hx)
  apart x hx y hy := h.apart x (List.mem_of_mem_filter hx) y (List.mem_of_mem_filter hy)

/-- The save of a link, from a copy whose provider is still the row's. -/
theorem link (h : s.Provisioned) {token : TokenResponse} (hfits : (c.link token).Fits)
    (hslug : ∀ d ∈ s.connections, d.id = c.id → d.providerSlug = c.providerSlug)
    (hawaits : ¬s.Awaits (c.link token))
    (hclash : ∀ d ∈ s.connections, d.id ≠ c.id → ¬(c.link token).Clashes d) :
    (s.saveConnection c.id (.link token)).Provisioned := by
  have hcopy : ∀ d ∈ s.connections, d.id = c.id → ∀ e, (d.link token).SameCustomer e →
      (c.link token).Clashes e := fun d hd hid e hs =>
    ⟨(hslug d hd hid).symm.trans hs.1, Or.inr hs.2⟩
  refine ⟨?_, fun a ha => ?_, h.newWidths, h.userIds, fun a ha b hb hs => ?_, h.newUsers,
    fun x hx d hd a ha => ?_, h.apart⟩
  · rw [saveConnection_ids (f := BankConnection.link token) fun _ => rfl]
    exact h.connectionIds
  · rcases Keyed.mem_modify.1 ha with ⟨ha, -⟩ | ⟨a₀, -, -, rfl⟩
    · exact h.widths a ha
    · exact hfits.1
  · rcases Keyed.mem_modify.1 ha with ⟨ha, hac⟩ | ⟨a₀, ha₀, hac, rfl⟩
    · rcases Keyed.mem_modify.1 hb with ⟨hb, -⟩ | ⟨b₀, hb₀, hbc, rfl⟩
      · exact h.customers a ha b hb hs
      · exact (hclash a ha hac (hcopy b₀ hb₀ hbc a hs.symm)).elim
    · rcases Keyed.mem_modify.1 hb with ⟨hb, hbc⟩ | ⟨b₀, hb₀, hbc, rfl⟩
      · exact (hclash b hb hbc (hcopy a₀ ha₀ hac b hs)).elim
      · exact hac.trans hbc.symm
  · rcases Keyed.mem_modify.1 ha with ⟨ha, -⟩ | ⟨a₀, ha₀, hac, rfl⟩
    · exact h.newConnections x hx d hd a ha
    · refine ⟨(h.newConnections x hx d hd a₀ ha₀).1, fun hs => hawaits ⟨x, hx, d, hd, ?_⟩⟩
      exact hcopy a₀ ha₀ hac d hs

/-- The row of a link that is only started. -/
theorem create (h : s.Provisioned) (hid : c.id = s.freshConnectionId)
    (hnull : c.externalCustomerId = none) :
    BankStore.Provisioned { s with connections := s.connections ++ [c] } := by
  have hfresh : ∀ d ∈ s.connections, d.id ≠ c.id := fun d hd => hid ▸ ne_freshConnectionId hd
  have hnobody : ∀ d, ¬c.SameCustomer d := fun d hs => hs.2.1 hnull
  refine ⟨Keyed.nodup_map_snoc h.connectionIds hfresh, fun a ha => ?_, h.newWidths, h.userIds,
    fun a ha b hb hs => ?_, h.newUsers, fun x hx d hd a ha => ?_, h.apart⟩
  · rcases List.mem_append.1 ha with ha | ha
    · exact h.widths a ha
    · rw [List.mem_singleton.1 ha, BankConnection.IdFits, hnull]
      simp
  · rcases List.mem_append.1 ha with ha | ha
    · rcases List.mem_append.1 hb with hb | hb
      · exact h.customers a ha b hb hs
      · rw [List.mem_singleton.1 hb] at hs
        exact (hnobody a hs.symm).elim
    · rw [List.mem_singleton.1 ha] at hs
      exact (hnobody b hs).elim
  · rcases List.mem_append.1 ha with ha | ha
    · exact h.newConnections x hx d hd a ha
    · rw [List.mem_singleton.1 ha]
      refine ⟨?_, hnobody d⟩
      rw [hid]
      exact (ne_freshConnectionId_uncommitted (s := s) hx hd).symm

/-- The `INSERT` of the user of a first login. -/
theorem insertUser (h : s.Provisioned) (hid : user.id = s.freshUserId) :
    BankStore.Provisioned { s with uncommitted := s.uncommitted ++ [(i, ⟨user, none⟩)] } := by
  have hne : ∀ x ∈ s.uncommitted, x.2.user.id ≠ user.id := fun x hx => hid ▸ ne_freshUserId hx
  refine ⟨h.connectionIds, h.widths, fun x hx d hd => ?_, h.userIds, h.customers, fun x hx => ?_,
    fun x hx d hd => ?_, fun x hx y hy hxy => ?_⟩
  · rcases List.mem_append.1 hx with hx | hx
    · exact h.newWidths x hx d hd
    · rw [List.mem_singleton.1 hx] at hd
      cases hd
  · rcases List.mem_append.1 hx with hx | hx
    · exact h.newUsers x hx
    · rw [List.mem_singleton.1 hx, hid]
      exact s.freshUserId_notMem
  · rcases List.mem_append.1 hx with hx | hx
    · exact h.newConnections x hx d hd
    · rw [List.mem_singleton.1 hx] at hd
      cases hd
  · rcases List.mem_append.1 hx with hx | hx
    · rcases List.mem_append.1 hy with hy | hy
      · exact h.apart x hx y hy hxy
      · rw [List.mem_singleton.1 hy]
        exact ⟨hne x hx, fun c _ d hd => by cases hd⟩
    · rw [List.mem_singleton.1 hx] at hxy ⊢
      rcases List.mem_append.1 hy with hy | hy
      · exact ⟨(hne y hy).symm, fun c hc => by cases hc⟩
      · rw [List.mem_singleton.1 hy] at hxy
        exact (hxy rfl).elim

/-- The `INSERT` of its connection, which no row is in the way of. -/
theorem insertConnection (h : s.Provisioned) (hmem : (i, ⟨user, none⟩) ∈ s.uncommitted)
    (hid : c.id = s.freshConnectionId) (hfits : c.Fits) (hawaits : ¬s.Awaits c)
    (hclash : ∀ d ∈ s.connections, ¬c.Clashes d) : BankStore.Provisioned
      { s with uncommitted := (s.rollback i).uncommitted ++ [(i, ⟨user, some c⟩)] } := by
  have hr := h.rollback i
  have hold : ∀ x ∈ (s.rollback i).uncommitted, x ∈ s.uncommitted ∧ x.1 ≠ i := fun x hx => by
    simpa [BankStore.rollback] using hx
  have hnew : ∀ d ∈ s.connections, d.Apart c := fun d hd =>
    ⟨hid ▸ ne_freshConnectionId hd, fun hs => hclash d hd hs.symm.clashes⟩
  have hpend : ∀ x ∈ s.uncommitted, ∀ d ∈ x.2.connection, d.Apart c := fun x hx d hd =>
    ⟨hid ▸ ne_freshConnectionId_uncommitted hx hd, fun hs => hawaits ⟨x, hx, d, hd, hs.symm.clashes⟩⟩
  refine ⟨h.connectionIds, h.widths, fun x hx d hd => ?_, h.userIds, h.customers, fun x hx => ?_,
    fun x hx d hd a ha => ?_, fun x hx y hy hxy => ?_⟩
  · rcases List.mem_append.1 hx with hx | hx
    · exact hr.newWidths x hx d hd
    · rw [List.mem_singleton.1 hx] at hd
      obtain rfl := Option.some.inj hd
      exact hfits.1
  · rcases List.mem_append.1 hx with hx | hx
    · exact hr.newUsers x hx
    · rw [List.mem_singleton.1 hx]
      exact h.newUsers (i, ⟨user, none⟩) hmem
  · rcases List.mem_append.1 hx with hx | hx
    · exact hr.newConnections x hx d hd a ha
    · rw [List.mem_singleton.1 hx] at hd
      obtain rfl := Option.some.inj hd
      exact hnew a ha
  · rcases List.mem_append.1 hx with hx | hx
    · rcases List.mem_append.1 hy with hy | hy
      · exact hr.apart x hx y hy hxy
      · rw [List.mem_singleton.1 hy]
        refine ⟨(h.apart x (hold x hx).1 _ hmem (hold x hx).2).1, fun a ha d hd => ?_⟩
        obtain rfl := Option.some.inj hd
        exact hpend x (hold x hx).1 a ha
    · rw [List.mem_singleton.1 hx] at hxy ⊢
      rcases List.mem_append.1 hy with hy | hy
      · refine ⟨(h.apart _ hmem y (hold y hy).1 (hold y hy).2.symm).1, fun a ha d hd => ?_⟩
        obtain rfl := Option.some.inj ha
        exact (hpend y (hold y hy).1 d hd).symm
      · rw [List.mem_singleton.1 hy] at hxy
        exact (hxy rfl).elim

/-- A commit of what the thread has inserted. -/
theorem commit (h : s.Provisioned) (hmem : (i, ⟨user, some c⟩) ∈ s.uncommitted) :
    BankStore.Provisioned { s.rollback i with
      users := s.users ++ [user], connections := s.connections ++ [c] } := by
  have hr := h.rollback i
  have hold : ∀ x ∈ (s.rollback i).uncommitted, x ∈ s.uncommitted ∧ x.1 ≠ i := fun x hx => by
    simpa [BankStore.rollback] using hx
  have hnew : ∀ d ∈ s.connections, d.Apart c := h.newConnections _ hmem c rfl
  refine ⟨Keyed.nodup_map_snoc h.connectionIds fun d hd => (hnew d hd).1, fun a ha => ?_,
    hr.newWidths,
    Keyed.nodup_map_snoc h.userIds fun u hu hid => h.newUsers _ hmem (hid ▸ List.mem_map_of_mem hu),
    fun a ha b hb hs => ?_, fun x hx hxu => ?_, fun x hx d hd a ha => ?_, hr.apart⟩
  · rcases List.mem_append.1 ha with ha | ha
    · exact h.widths a ha
    · rw [List.mem_singleton.1 ha]
      exact h.newWidths _ hmem c rfl
  · rcases List.mem_append.1 ha with ha | ha
    · rcases List.mem_append.1 hb with hb | hb
      · exact h.customers a ha b hb hs
      · rw [List.mem_singleton.1 hb] at hs
        exact ((hnew a ha).2 hs).elim
    · rcases List.mem_append.1 hb with hb | hb
      · rw [List.mem_singleton.1 ha] at hs
        exact ((hnew b hb).2 hs.symm).elim
      · rw [List.mem_singleton.1 ha, List.mem_singleton.1 hb]
  · rw [List.map_append, List.mem_append] at hxu
    rcases hxu with hxu | hxu
    · exact hr.newUsers x hx hxu
    · exact (h.apart x (hold x hx).1 _ hmem (hold x hx).2).1 (List.mem_singleton.1 hxu)
  · rcases List.mem_append.1 ha with ha | ha
    · exact hr.newConnections x hx d hd a ha
    · rw [List.mem_singleton.1 ha]
      exact ((h.apart x (hold x hx).1 _ hmem (hold x hx).2).2 d hd c rfl).symm

end Provisioned

end BankStore

section Steps

variable {sp : Spelling} {tax : Taxonomy} {i : ℕ} {s s' : BankStore}

/-- A statement of a bank login keeps the constraints. -/
theorem BankLogin.Moves.provisioned {t t' : BankLogin} {r : BankReply} {tasks : List IngestTask}
    (h : Moves sp i s t r s' t' tasks) (hs : s.Provisioned) (hh : s.Holding i (.login t)) :
    s'.Provisioned := by
  cases h with
  | phoneSaved hphone => exact hs.of_tags rfl (Keyed.map_modify fun _ => rfl) rfl
  | tokensSaved hfits => exact hs.save fun _ => rfl
  | userCreated huser hwait hfree => exact hs.insertUser (huser ▸ rfl)
  | connectionRefused e | connectionExists hclash => exact hs.rollback i
  | connectionCreated hc hfits hawaits hclash =>
    exact hs.insertConnection (hh.mem rfl) (hc ▸ rfl) hfits hawaits hclash
  | committed => exact hs.commit (hh.mem rfl)
  | applied happly =>
    obtain ⟨accounts, ledger, -, rfl⟩ := BankStore.applyAccounts_eq_ok happly
    exact hs.of_tags rfl rfl rfl
  | refused | redeemed | exchanged | foundNoPhone | found | unknown | fetchSkipped | refetched
  | emailFree | fetched | userExists | recovered | applyFailed | backfilled | backfills
  | stopped => exact hs

/-- A statement of an initiate keeps them. -/
theorem Initiate.Moves.provisioned {t t' : Initiate} {r : BankReply} (h : Moves s t r s' t')
    (hs : s.Provisioned) : s'.Provisioned := by
  cases h with
  | saved => exact hs.save fun _ => rfl
  | created hc => exact hs.create (hc ▸ rfl) (hc ▸ rfl)
  | refused | checked | absent => exact hs

end Steps

end NbeAdvisor
