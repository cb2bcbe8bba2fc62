import NbeAdvisor.BankSync
import NbeAdvisor.Interleave

/-!
# Two ingest runs at once

`ingest_synced_transactions` with the duplicate lookup and the insert as two steps, run by
any number of workers on one account. Alone it is the loop of `BankSync`
(`IngestRun.alone`). Beside another run, what the lookup found may be out of date at the
insert : a key with no null then hits the unique constraint and ends the task with the
rest of its batch not ingested, and a key with a null is inserted a second time
(`backfill_duplicates`).

If every insert still finds its key absent, all runs end with every key of every batch in
the ledger once (`ingestRuns_exactlyOnce`).
-/

namespace NbeAdvisor

open Interleave

/-- A run of the task, at its next statement. -/
inductive IngestRun where
  /-- The lookup for the first of `rest`, or the event if there is none. -/
  | lookingUp (created : List Transaction) (rest : List SyncedTransaction)
  /-- The insert of the row `d`, whose lookup found nothing. -/
  | inserting (created : List Transaction) (d : TransactionDraft) (rest : List SyncedTransaction)
  | finished (created : List Transaction)
  | failed (e : IngestError)
  deriving DecidableEq

namespace IngestRun

/-- Before the first row. -/
def start (transactions : List SyncedTransaction) : IngestRun := .lookingUp [] transactions

/-- The run is over. -/
def Ended : IngestRun → Prop
  | finished _ | failed _ => True
  | _ => False

instance : DecidablePred Ended
  | lookingUp _ _ | inserting _ _ _ => .isFalse id
  | finished _ | failed _ => .isTrue trivial

/-- One statement of the loop. -/
def step (tax : Taxonomy) (a : BankAccount) (L : Ledger) : IngestRun → Option (Ledger × IngestRun)
  | lookingUp created [] => some (L, .finished created)
  | lookingUp created (t :: ts) =>
    match t.draft tax a with
    | none => some (L, .failed .valueError)
    | some d =>
      if L.isDuplicate d.key then some (L, .lookingUp created ts)
      else some (L, .inserting created d ts)
  | inserting created d ts =>
    match L.create d with
    | .ok row => some (L ++ [row], .lookingUp (created ++ [row]) ts)
    | .error e => some (L, .failed (.db e))
  | finished _ => none
  | failed _ => none

/-- Where a run of `ingestRows` ends. -/
def result : IngestState × Option IngestError → IngestRun
  | (s, none) => .finished s.created
  | (_, some e) => .failed e

/-- Alone, the steps are the loop. -/
theorem alone (tax : Taxonomy) (a : BankAccount) :
    ∀ (ts : List SyncedTransaction) (s : IngestState),
      Drives (fun L c (_ : Unit) => step tax a L c) (s.ledger, .lookingUp s.created ts)
        ((ingestRows tax a s ts).1.ledger, result (ingestRows tax a s ts))
  | [], s => .head () rfl (.refl _ _)
  | t :: ts, s => by
    cases hd : t.draft tax a with
    | none =>
      have hrows : ingestRows tax a s (t :: ts) = (s, some .valueError) := by
        simp [ingestRows, ingestRow, hd]
      rw [hrows]
      exact .head () (by simp [step, hd, result]) (.refl _ _)
    | some d =>
      by_cases hdup : s.ledger.isDuplicate d.key
      · have hrows : ingestRows tax a s (t :: ts) = ingestRows tax a s ts := by
          simp [ingestRows, ingestRow, hd, hdup]
        rw [hrows]
        exact .head () (by simp [step, hd, hdup]) (alone tax a ts s)
      have hlookup : step tax a s.ledger (.lookingUp s.created (t :: ts)) =
          some (s.ledger, .inserting s.created d ts) := by
        simp [step, hd, hdup]
      cases hc : s.ledger.create d with
      | error e =>
        have hrows : ingestRows tax a s (t :: ts) = (s, some (.db e)) := by
          simp [ingestRows, ingestRow, hd, hdup, hc]
        rw [hrows]
        exact .head () hlookup (.head () (by simp [step, hc, result]) (.refl _ _))
      | ok row =>
        have hrows : ingestRows tax a s (t :: ts) =
            ingestRows tax a ⟨s.ledger ++ [row], s.created ++ [row]⟩ ts := by
          simp [ingestRows, ingestRow, hd, hdup, hc]
        rw [hrows]
        exact .head () hlookup (.head () (by simp [step, hc])
          (alone tax a ts ⟨s.ledger ++ [row], s.created ++ [row]⟩))

end IngestRun

/-- Runs on one account, on the ledger they share. None joins later. -/
def ingestSystem (tax : Taxonomy) (a : BankAccount) : System Ledger IngestRun Unit where
  step _ L c _ := (IngestRun.step tax a L c).map fun x => (x.1, x.2, [])
  arrives _ := False

instance (tax : Taxonomy) (a : BankAccount) : DecidablePred (ingestSystem tax a).arrives :=
  fun _ => inferInstanceAs (Decidable False)

/-- The runs that the webhook starts on an account it did not know : the backfill of
`apply_synced_accounts`, unless the bank has nothing, and the payload. -/
def webhookRuns (backfill payload : List SyncedTransaction) : List IngestRun :=
  (if backfill = [] then [] else [.start backfill]) ++ [.start payload]

/-- The row that the next statement of a run inserts. -/
def IngestRun.inserts : IngestRun → Option TransactionDraft
  | inserting _ d _ => some d
  | _ => none

/-- An insert finds its key absent, as its lookup did. -/
def InsertsAbsent (p : Pool Ledger IngestRun) : Action IngestRun Unit → Prop
  | .run i _ => ∀ c ∈ p.threads[i]?, ∀ d ∈ c.inserts, d.key ∉ p.store.keys
  | .arrive _ => True

instance (p : Pool Ledger IngestRun) : DecidablePred (InsertsAbsent p)
  | .run i _ => inferInstanceAs (Decidable
      (∀ c ∈ p.threads[i]?, ∀ d ∈ c.inserts, d.key ∉ p.store.keys))
  | .arrive _ => .isTrue trivial

/-! ## Every key once -/

section Runs

variable {tax : Taxonomy} {a : BankAccount}

/-- The transactions of a batch that a run has dealt with are in the ledger. -/
def Recorded (a : BankAccount) (L : Ledger) (ts : List SyncedTransaction) : Prop :=
  ∀ t ∈ ts, ∀ k ∈ t.key a, k ∈ L.keys

/-- What is recorded stays. -/
theorem Recorded.mono {L M : Ledger} {ts : List SyncedTransaction} (h : Recorded a L ts)
    (hLM : ∀ k ∈ L.keys, k ∈ M.keys) : Recorded a M ts :=
  fun t ht k hk => hLM k (h t ht k hk)

/-- One more row is. -/
theorem Recorded.snoc {L : Ledger} {ts : List SyncedTransaction} {t : SyncedTransaction}
    {k : TransactionKey} (h : Recorded a L ts) (hk : t.key a = some k) (hL : k ∈ L.keys) :
    Recorded a L (ts ++ [t]) := by
  intro u hu k' hk'
  rcases List.mem_append.1 hu with hu | hu
  · exact h u hu k' hk'
  · rw [List.mem_singleton.1 hu, hk] at hk'
    exact Option.some.inj hk' ▸ hL

/-- How far a run is with the batch `b`. -/
def IngestRun.Progress (tax : Taxonomy) (a : BankAccount) (L : Ledger) (b : List SyncedTransaction) :
    IngestRun → Prop
  | lookingUp _ rest => ∃ done, b = done ++ rest ∧ Recorded a L done
  | inserting _ d rest => ∃ done t, b = done ++ t :: rest ∧ t.draft tax a = some d ∧
      Recorded a L done
  | finished _ => Recorded a L b
  | failed _ => False

/-- What a run has dealt with stays. -/
theorem IngestRun.Progress.mono {L M : Ledger} {b : List SyncedTransaction} {c : IngestRun}
    (h : c.Progress tax a L b) (hLM : ∀ k ∈ L.keys, k ∈ M.keys) : c.Progress tax a M b := by
  cases c with
  | lookingUp created rest =>
    obtain ⟨done, hb, hrec⟩ := h
    exact ⟨done, hb, hrec.mono hLM⟩
  | inserting created d rest =>
    obtain ⟨done, t, hb, hd, hrec⟩ := h
    exact ⟨done, t, hb, hd, hrec.mono hLM⟩
  | finished created => exact Recorded.mono h hLM
  | failed e => exact h

/-- A step that inserts into absence moves the run on, and adds at most one key, absent
before. -/
theorem IngestRun.step_progress {L L' : Ledger} {b : List SyncedTransaction} {c c' : IngestRun}
    (hb : ∀ t ∈ b, t.Valid tax a) (h : c.Progress tax a L b)
    (hok : ∀ d ∈ c.inserts, d.key ∉ L.keys)
    (hs : c.step tax a L = some (L', c')) :
    c'.Progress tax a L' b ∧ (L' = L ∨ ∃ row : Transaction, L' = L ++ [row] ∧ row.key ∉ L.keys) := by
  cases c with
  | lookingUp created rest =>
    obtain ⟨done, rfl, hrec⟩ := h
    cases rest with
    | nil =>
      obtain ⟨rfl, rfl⟩ := by simpa [step] using hs
      exact ⟨by simpa [Progress] using hrec, Or.inl rfl⟩
    | cons t ts =>
      obtain ⟨d, hd, -⟩ := hb t (by simp)
      simp only [step, hd] at hs
      split at hs
      · next hdup =>
        obtain ⟨rfl, rfl⟩ := by simpa using hs
        exact ⟨⟨done ++ [t], by simp,
          hrec.snoc (draft_key hd) (Ledger.isDuplicate_iff.1 hdup)⟩, Or.inl rfl⟩
      · obtain ⟨rfl, rfl⟩ := by simpa using hs
        exact ⟨⟨done, t, rfl, hd, hrec⟩, Or.inl rfl⟩
  | inserting created d rest =>
    obtain ⟨done, t, rfl, hd, hrec⟩ := h
    have habs := hok d rfl
    obtain ⟨d', hd', hf⟩ := hb t (by simp)
    obtain rfl : d = d' := Option.some.inj (hd.symm.trans hd')
    simp only [step, Ledger.create_of_absent hf habs] at hs
    obtain ⟨rfl, rfl⟩ := by simpa using hs
    refine ⟨⟨done ++ [t], by simp, ?_⟩, Or.inr ⟨_, rfl, habs⟩⟩
    refine (hrec.mono fun k hk => ?_).snoc (draft_key hd) ?_
    · simp [hk]
    · simp [Ledger.keys, Transaction.key]
  | finished created => simp [step] at hs
  | failed e => exact h.elim

/-- What the pool keeps while every insert finds its key absent. -/
structure IngestRuns (tax : Taxonomy) (a : BankAccount) (L : Ledger)
    (batches : List (List SyncedTransaction)) (p : Pool Ledger IngestRun) : Prop where
  count : ∀ k, L.keys.count k ≤ 1 → p.store.keys.count k ≤ 1
  length : p.threads.length = batches.length
  progress : ∀ (i : ℕ) (c : IngestRun), p.threads[i]? = some c →
    ∃ b, batches[i]? = some b ∧ c.Progress tax a p.store b

/-- A step keeps the invariant. -/
theorem IngestRuns.next {L : Ledger} {batches : List (List SyncedTransaction)}
    {p q : Pool Ledger IngestRun} {act : Action IngestRun Unit}
    (hb : ∀ b ∈ batches, ∀ t ∈ b, t.Valid tax a) (h : IngestRuns tax a L batches p)
    (hok : InsertsAbsent p act) (hn : (ingestSystem tax a).Next p act q) :
    IngestRuns tax a L batches q := by
  cases hn with
  | arrive ht => exact ht.elim
  | @run i r c c' L' new hi hs =>
    obtain ⟨⟨L₁, c₁⟩, hstep, heq⟩ := Option.map_eq_some_iff.1 hs
    obtain ⟨rfl, rfl, rfl⟩ := by simpa using heq
    obtain ⟨b, hbi, hprog⟩ := h.progress i c hi
    obtain ⟨hprog', hgrow⟩ := IngestRun.step_progress (hb b (List.mem_of_getElem? hbi)) hprog
      (hok c hi) hstep
    have hmono : ∀ k ∈ p.store.keys, k ∈ Ledger.keys L₁ := by
      rcases hgrow with rfl | ⟨row, rfl, -⟩
      · exact fun k hk => hk
      · exact fun k hk => by simp [hk]
    refine ⟨fun k hk => ?_, by simpa using h.length, fun j u hj => ?_⟩
    · have hle := h.count k hk
      rcases hgrow with rfl | ⟨row, rfl, habs⟩
      · exact hle
      · rw [Ledger.keys_append, List.count_append]
        by_cases hkr : row.key = k
        · rw [List.count_eq_zero.2 (hkr ▸ habs), Nat.zero_add]
          exact List.count_le_length
        · have : List.count k (Ledger.keys [row]) = 0 := List.count_eq_zero.2 (by
            simpa [Ledger.keys] using fun hk' => hkr hk'.symm)
          omega
    · rcases getElem?_set_append (List.getElem?_eq_some_iff.1 hi).1 hj with
        ⟨rfl, rfl⟩ | ⟨-, hj⟩ | ⟨-, hmem⟩
      · exact ⟨b, hbi, hprog'⟩
      · obtain ⟨b', hb', hprog''⟩ := h.progress j u hj
        exact ⟨b', hb', hprog''.mono hmono⟩
      · simp at hmem

/-- Runs on batches of valid transactions, in any interleaving in which every insert still
finds its key absent, end with exactly one row for every key of every batch, if the ledger
had at most one. -/
theorem ingestRuns_exactlyOnce {L : Ledger} {batches : List (List SyncedTransaction)}
    (hb : ∀ b ∈ batches, ∀ t ∈ b, t.Valid tax a)
    (hL : ∀ b ∈ batches, ∀ t ∈ b, ∀ k ∈ t.key a, L.keys.count k ≤ 1) {q : Pool Ledger IngestRun}
    (hrun : (ingestSystem tax a).Run InsertsAbsent ⟨L, batches.map .start⟩ q)
    (hend : ∀ c ∈ q.threads, c.Ended) :
    ∀ b ∈ batches, ∀ t ∈ b, ∀ k ∈ t.key a, q.store.keys.count k = 1 := by
  have hstart : IngestRuns tax a L batches ⟨L, batches.map .start⟩ := by
    refine ⟨fun k hk => hk, by simp, fun i c hi => ?_⟩
    obtain ⟨b, hbi, rfl⟩ := by simpa using hi
    exact ⟨b, hbi, [], rfl, by simp [Recorded]⟩
  have h := hrun.invariant (fun _ _ _ h hok hn => h.next hb hok hn) hstart
  intro b hbm t ht k hk
  obtain ⟨i, hi⟩ := List.getElem?_of_mem hbm
  have hlt : i < q.threads.length := by
    rw [h.length]
    exact (List.getElem?_eq_some_iff.1 hi).1
  obtain ⟨b', hb', hprog⟩ := h.progress i _ (List.getElem?_eq_getElem hlt)
  obtain rfl : b = b' := Option.some.inj (hi.symm.trans hb')
  have hended := hend _ (List.getElem_mem hlt)
  have hrec : Recorded a q.store b := by
    revert hprog hended
    cases q.threads[i] with
    | lookingUp created rest => exact fun _ he => he.elim
    | inserting created d rest => exact fun _ he => he.elim
    | finished created => exact fun hp _ => hp
    | failed e => exact fun hp _ => hp.elim
  have hpos : 0 < q.store.keys.count k := List.count_pos_iff.2 (hrec t ht k hk)
  have hle := h.count k (hL b hbm t ht k hk)
  omega

end Runs

/-- The second run starts when the first is done. -/
theorem ingestRuns_exactlyOnce_coffee :
    ∃ q, (ingestSystem noTaxonomy syncedAccount).Run InsertsAbsent
        ⟨[], [[coffee "txn-1"], [coffee "txn-2"]].map .start⟩ q ∧
      ∀ k ∈ (coffee "txn-1").key syncedAccount, q.store.keys.count k = 1 := by
  have hexec : ∃ q ∈ (ingestSystem noTaxonomy syncedAccount).exec
      [.run 0 (), .run 0 (), .run 0 (), .run 1 (), .run 1 ()]
      ⟨[], [[coffee "txn-1"], [coffee "txn-2"]].map .start⟩, ∀ c ∈ q.threads, c.Ended := by
    decide
  obtain ⟨q, hq, hend⟩ := hexec
  have hrun : (ingestSystem noTaxonomy syncedAccount).Run InsertsAbsent
      ⟨[], [[coffee "txn-1"], [coffee "txn-2"]].map .start⟩ q := .of_exec_meets (by decide) hq
  refine ⟨q, hrun, fun k hk => ?_⟩
  exact ingestRuns_exactlyOnce (by simp [coffee_valid]) (by simp [Ledger.keys]) hrun hend
    [coffee "txn-1"] (by simp) (coffee "txn-1") (by simp) k hk

/-- A purchase whose merchant the bank does not name. -/
def unnamedPurchase : SyncedTransaction :=
  { externalTransactionId := "txn-9", transactionDate := .text "2026-07-01", amount := 6500
    transactionType := "debit" }

/-- The purchase is valid all the same. -/
theorem unnamedPurchase_valid : unnamedPurchase.Valid noTaxonomy syncedAccount := by
  have h : ∃ d ∈ unnamedPurchase.draft noTaxonomy syncedAccount, d.Fits := by decide
  exact h

/-- The webhook announces a purchase on a new account, and the backfill that it starts reads
the same purchase. Both runs look it up before either inserts it. -/
theorem backfill_duplicates :
    ¬∀ (tax : Taxonomy) (a : BankAccount) (backfill payload : List SyncedTransaction)
      (q : Pool Ledger IngestRun), (∀ t ∈ backfill ++ payload, t.Valid tax a) →
      (ingestSystem tax a).Run (fun _ _ => True) ⟨[], webhookRuns backfill payload⟩ q →
      (∀ c ∈ q.threads, c.Ended) →
      ∀ t ∈ backfill ++ payload, ∀ k ∈ t.key a, q.store.keys.count k = 1 := by
  intro h
  have hexec : ∃ q ∈ (ingestSystem noTaxonomy syncedAccount).exec
      [.run 0 (), .run 1 (), .run 0 (), .run 1 (), .run 0 (), .run 1 ()]
      ⟨[], webhookRuns [unnamedPurchase] [unnamedPurchase]⟩, (∀ c ∈ q.threads, c.Ended) ∧
      ∃ k ∈ unnamedPurchase.key syncedAccount, q.store.keys.count k = 2 := by
    decide
  obtain ⟨q, hq, hend, k, hk, hcount⟩ := hexec
  have hone := h noTaxonomy syncedAccount [unnamedPurchase] [unnamedPurchase] q
    (by simp [unnamedPurchase_valid]) (.of_exec hq) hend unnamedPurchase (by simp) k hk
  omega

end NbeAdvisor
