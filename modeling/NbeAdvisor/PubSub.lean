import NbeAdvisor.Keyed

/-!
# Publishing to those who listen

A `Broker` hands what is published on a channel to the subscriptions of the channel. It keeps nothing
for those who come later, and a subscription counts from the time that the broker has accepted it. A
subscriber whose connection is renewed subscribes again, and what was on its way is lost.

The broker's `log` is what was published so far, and no operation reads it. `Follows` says what a
subscriber has taken of it : a part in the same order, and all of it since the subscription was
accepted unless the connection was renewed. Each operation of the broker has its rule.
-/

namespace PubSub

variable {ω κ μ : Type*}

/-- What the broker sends to a subscription. -/
inductive Notice (μ : Type*) where
  | subscribed
  | message (m : μ)
  deriving DecidableEq

/-- The message that is read, if it is one. -/
def Notice.message? : Notice μ → Option μ
  | subscribed => none
  | message m => some m

/-- `since` is how much had been published when the broker accepted the subscription. -/
structure Subscription (ω κ μ : Type*) where
  owner : ω
  channel : κ
  since : Option ℕ := none
  waiting : List (Notice μ) := []
  renewed : Bool := false
  deriving DecidableEq

/-- The subscriptions, and all that was published. -/
structure Broker (ω κ μ : Type*) where
  subscriptions : List (Subscription ω κ μ) := []
  log : List (κ × μ) := []
  deriving DecidableEq

namespace Subscription

/-- The messages on their way. -/
def messages (s : Subscription ω κ μ) : List μ := s.waiting.filterMap Notice.message?

/-- The broker confirms the subscription, after so many messages. -/
def accept (n : ℕ) (s : Subscription ω κ μ) : Subscription ω κ μ :=
  { s with since := some n, waiting := [.subscribed] }

/-- A message of the channel is queued. -/
def receive [DecidableEq κ] (c : κ) (m : μ) (s : Subscription ω κ μ) : Subscription ω κ μ :=
  if s.channel = c ∧ s.since.isSome then { s with waiting := s.waiting ++ [.message m] } else s

/-- The subscription begins anew, on another connection. -/
def renew (s : Subscription ω κ μ) : Subscription ω κ μ :=
  { s with since := none, waiting := [], renewed := true }

end Subscription

namespace Broker

variable [DecidableEq ω] (b : Broker ω κ μ)

/-- The subscription of an owner. -/
def of (o : ω) : Option (Subscription ω κ μ) := b.subscriptions.find? fun s => s.owner = o

/-- The subscription of an owner is changed. -/
def modify (o : ω) (f : Subscription ω κ μ → Subscription ω κ μ) : Broker ω κ μ :=
  { b with subscriptions := Keyed.modify Subscription.owner o f b.subscriptions }

/-- An owner asks for a channel. -/
def subscribe (o : ω) (c : κ) : Broker ω κ μ :=
  { b with subscriptions := b.subscriptions ++ [{ owner := o, channel := c }] }

/-- `none` if nothing of the owner waits to be accepted. -/
def accept (o : ω) : Option (Broker ω κ μ) :=
  match b.of o with
  | some { since := none, .. } => some (b.modify o (.accept b.log.length))
  | _ => none

/-- A message goes to everybody who is subscribed to the channel. -/
def publish [DecidableEq κ] (c : κ) (m : μ) : Broker ω κ μ :=
  { subscriptions := b.subscriptions.map (.receive c m), log := b.log ++ [(c, m)] }

/-- What comes next to the owner, `none` if nothing waits. -/
def take (o : ω) : Option (Notice μ × Broker ω κ μ) :=
  match b.of o with
  | some { waiting := x :: rest, .. } => some (x, b.modify o fun s => { s with waiting := rest })
  | _ => none

/-- An owner connects again. -/
def renew (o : ω) : Broker ω κ μ := b.modify o .renew

/-- An owner leaves. -/
def unsubscribe (o : ω) : Broker ω κ μ :=
  { b with subscriptions := b.subscriptions.filter fun s => s.owner ≠ o }

end Broker

/-! ## The subscription of an owner -/

namespace Broker

variable [DecidableEq ω] {b b' : Broker ω κ μ} {o j : ω} {c : κ} {m : μ} {x : Notice μ}
  {s : Subscription ω κ μ}

theorem owner_of (h : b.of o = some s) : s.owner = o := by simpa using List.find?_some h

section Modify

variable {f : Subscription ω κ μ → Subscription ω κ μ} (hf : ∀ s, (f s).owner = s.owner)
include hf

/-- What everybody has after a change of one subscription. -/
theorem of_modify : (b.modify o f).of j = (b.of j).map fun s => if s.owner = o then f s else s :=
  Keyed.find?_modify fun s _ _ => by rw [hf s]

theorem of_modify_self (h : b.of o = some s) : (b.modify o f).of o = some (f s) := by
  rw [of_modify hf, h, Option.map_some, if_pos (owner_of h)]

theorem of_modify_ne (h : j ≠ o) : (b.modify o f).of j = b.of j := by
  rw [of_modify hf]
  cases hs : b.of j with
  | none => rfl
  | some s => rw [Option.map_some, if_neg (owner_of hs ▸ h)]

end Modify

/-- A new subscription has not been accepted, and nothing waits for it. -/
theorem of_subscribe_self (h : b.of o = none) :
    (b.subscribe o c).of o = some { owner := o, channel := c } := by
  rw [of, subscribe, List.find?_append, show b.subscriptions.find? _ = none from h]
  simp

theorem of_subscribe_ne (h : j ≠ o) : (b.subscribe o c).of j = b.of j := by
  rw [of, subscribe, List.find?_append]
  simp [of, Ne.symm h]

/-- Who has left has no subscription. -/
theorem of_unsubscribe_self : (b.unsubscribe o).of o = none := by
  rw [of, unsubscribe, List.find?_eq_none]
  intro s hs
  simpa using (List.mem_filter.1 hs).2

theorem of_unsubscribe_ne (h : j ≠ o) : (b.unsubscribe o).of j = b.of j := by
  rw [of, unsubscribe, List.find?_filter]
  refine congrArg (List.find? · b.subscriptions) (funext fun s => ?_)
  by_cases hs : s.owner = j
  · simp [hs, h]
  · simp [hs]

/-- Everybody receives what is published, if it is for them. -/
theorem of_publish [DecidableEq κ] : (b.publish c m).of j = (b.of j).map (.receive c m) := by
  rw [of, publish, List.find?_map]
  refine congrArg (Option.map _) (congrArg (List.find? · b.subscriptions) (funext fun s => ?_))
  have hreceive : (s.receive c m).owner = s.owner := by
    rw [Subscription.receive]
    split <;> rfl
  rw [Function.comp_apply, hreceive]

/-- What a broker does when it accepts. -/
theorem accept_eq_some (h : b.accept o = some b') :
    ∃ s, b.of o = some s ∧ s.since = none ∧ b' = b.modify o (.accept b.log.length) := by
  unfold accept at h
  split at h
  · next s hs =>
    cases h
    exact ⟨_, hs, rfl, rfl⟩
  · cases h

/-- A read takes what has waited longest. -/
theorem take_eq_some (hs : b.of o = some s) (h : b.take o = some (x, b')) :
    ∃ rest, s.waiting = x :: rest ∧ b' = b.modify o fun s => { s with waiting := rest } := by
  rw [take, hs] at h
  split at h
  · next heq =>
    cases heq
    cases h
    exact ⟨_, rfl, rfl⟩
  · cases h

/-- Where something waits a read goes through. -/
theorem take_of_waiting {rest : List (Notice μ)} (hs : b.of o = some s)
    (h : s.waiting = x :: rest) :
    b.take o = some (x, b.modify o fun s => { s with waiting := rest }) := by
  rw [take, hs]
  split
  · next heq =>
    cases heq
    cases h
    rfl
  · next hno => exact (hno s.owner s.channel s.since x rest s.renewed (by rw [← h])).elim

end Broker

/-! ## At most one subscription for an owner -/

namespace Broker

variable [DecidableEq ω] {b : Broker ω κ μ} {o : ω} {c : κ} {m : μ} {s : Subscription ω κ μ}

/-- No owner has two subscriptions. -/
def Distinct (b : Broker ω κ μ) : Prop := (b.subscriptions.map Subscription.owner).Nodup

/-- The subscriptions are those of their owners. -/
theorem Distinct.of_mem (h : b.Distinct) (hs : s ∈ b.subscriptions) : b.of s.owner = some s :=
  Keyed.find?_of_pk h hs (by simp) fun s' _ hs' => by simpa using hs'

theorem mem_of (h : b.of o = some s) : s ∈ b.subscriptions := List.mem_of_find?_eq_some h

/-- A change that leaves the owners. -/
theorem Distinct.modify (h : b.Distinct) {f : Subscription ω κ μ → Subscription ω κ μ}
    (hf : ∀ s, (f s).owner = s.owner) : (b.modify o f).Distinct := by
  rw [Distinct, Broker.modify, Keyed.map_modify hf]
  exact h

/-- Who has none can subscribe. -/
theorem Distinct.subscribe (h : b.Distinct) (ho : b.of o = none) : (b.subscribe o c).Distinct :=
  Keyed.nodup_map_snoc h fun s hs heq => by simpa [heq] using List.find?_eq_none.1 ho s hs

theorem Distinct.unsubscribe (h : b.Distinct) : (b.unsubscribe o).Distinct :=
  h.sublist (List.filter_sublist.map _)

omit [DecidableEq ω] in
theorem Distinct.publish [DecidableEq κ] (h : b.Distinct) : (b.publish c m).Distinct := by
  have howner : Subscription.owner ∘ Subscription.receive c m =
      (Subscription.owner : Subscription ω κ μ → ω) := by
    funext s
    rw [Function.comp_apply, Subscription.receive]
    split <;> rfl
  rw [Distinct, Broker.publish, List.map_map, howner]
  exact h

end Broker

/-! ## What a subscriber has taken -/

section Follows

variable [DecidableEq κ] {log : List (κ × μ)} {c : κ} {m : μ} {x : Notice μ} {taken : List μ}
  {s : Subscription ω κ μ} {rest : List (Notice μ)}

/-- What was published on a channel. -/
def onChannel (c : κ) (log : List (κ × μ)) : List μ := (log.filter fun x => x.1 = c).map Prod.snd

omit [DecidableEq κ] in
theorem Subscription.messages_of_waiting (h : s.waiting = x :: rest) :
    s.messages = x.message?.toList ++ rest.filterMap Notice.message? := by
  rw [messages, h]
  cases x <;> rfl

omit [DecidableEq κ] in
theorem Subscription.mem_messages (h : s.waiting = .message m :: rest) : m ∈ s.messages := by
  rw [messages_of_waiting h]
  exact List.mem_append_left _ (List.mem_singleton.2 rfl)

theorem onChannel_append (c : κ) (l l' : List (κ × μ)) :
    onChannel c (l ++ l') = onChannel c l ++ onChannel c l' := by
  rw [onChannel, List.filter_append, List.map_append]
  rfl

theorem onChannel_cons (c : κ) (x : κ × μ) (l : List (κ × μ)) :
    onChannel c (x :: l) = onChannel c [x] ++ onChannel c l := onChannel_append c [x] l

/-- What is published to a channel is on it. -/
theorem onChannel_self (c : κ) (m : μ) : onChannel c [(c, m)] = [m] := by simp [onChannel]

/-- What is published elsewhere is not. -/
theorem onChannel_ne {c' : κ} (h : c' ≠ c) (m : μ) : onChannel c [(c', m)] = [] := by
  simp [onChannel, h]

/-- What was taken, and then what waits, is part of what was published on the channel. Unless the
connection was renewed, it is all since the broker has accepted the subscription. -/
structure Follows (log : List (κ × μ)) (taken : List μ) (s : Subscription ω κ μ) : Prop where
  sublist : (taken ++ s.messages).Sublist (onChannel s.channel log)
  pending : s.since = none → s.waiting = [] ∧ (s.renewed = false → taken = [])
  since : ∀ n, s.since = some n → n ≤ log.length ∧
    (s.renewed = false → taken ++ s.messages = onChannel s.channel (log.drop n))

namespace Follows

/-- A subscription that is not accepted follows anything. -/
theorem start (log : List (κ × μ)) (o : ω) (c : κ) :
    Follows log [] ({ owner := o, channel := c } : Subscription ω κ μ) where
  sublist := List.nil_sublist _
  pending _ := ⟨rfl, fun _ => rfl⟩
  since _ h := nomatch h

/-- It follows from where it is accepted. -/
theorem accept (h : Follows log taken s) (hs : s.since = none) :
    Follows log taken (s.accept log.length) where
  sublist := by
    have hsub := h.sublist
    rw [Subscription.messages, (h.pending hs).1] at hsub
    exact hsub
  pending h := nomatch h
  since n hn := by
    cases hn
    refine ⟨Nat.le_refl _, fun hr => ?_⟩
    rw [(h.pending hs).2 hr, List.drop_length]
    rfl

/-- It follows on what is published. -/
theorem publish (h : Follows log taken s) (c : κ) (m : μ) :
    Follows (log ++ [(c, m)]) taken (s.receive c m) := by
  have hlonger : (taken ++ s.messages).Sublist (onChannel s.channel (log ++ [(c, m)])) := by
    rw [onChannel_append]
    exact h.sublist.trans (List.sublist_append_left _ _)
  have hdrop : ∀ n ≤ log.length, onChannel s.channel ((log ++ [(c, m)]).drop n) =
      onChannel s.channel (log.drop n) ++ onChannel s.channel [(c, m)] := by
    intro n hn
    rw [List.drop_append_of_le_length hn, onChannel_append]
  rw [Subscription.receive]
  split
  · next hc =>
    obtain ⟨rfl, hsome⟩ := hc
    have hmessages : ({ s with waiting := s.waiting ++ [.message m] } :
        Subscription ω κ μ).messages = s.messages ++ [m] := by
      simp [Subscription.messages, Notice.message?]
    refine ⟨?_, fun hn => ?_, fun n hn => ?_⟩
    · rw [hmessages, ← List.append_assoc, onChannel_append, onChannel_self]
      exact h.sublist.append (List.Sublist.refl _)
    · rw [show s.since = none from hn] at hsome
      simp at hsome
    · obtain ⟨hle, heq⟩ := h.since n hn
      refine ⟨by rw [List.length_append]; omega, fun hr => ?_⟩
      rw [hmessages, ← List.append_assoc, heq hr, hdrop n hle, onChannel_self]
  · next hc =>
    refine ⟨hlonger, h.pending, fun n hn => ?_⟩
    obtain ⟨hle, heq⟩ := h.since n hn
    refine ⟨by rw [List.length_append]; omega, fun hr => ?_⟩
    have hne : c ≠ s.channel := fun hcs => hc ⟨hcs.symm, by rw [hn]; rfl⟩
    rw [heq hr, hdrop n hle, onChannel_ne hne, List.append_nil]

/-- It follows on what is read. -/
theorem take (h : Follows log taken s) (hs : s.waiting = x :: rest) :
    Follows log (taken ++ x.message?.toList) { s with waiting := rest } where
  sublist := by
    have hsub := h.sublist
    rw [Subscription.messages_of_waiting hs, ← List.append_assoc] at hsub
    exact hsub
  pending hn := nomatch hs.symm.trans (h.pending hn).1
  since n hn := by
    obtain ⟨hle, heq⟩ := h.since n hn
    rw [Subscription.messages_of_waiting hs, ← List.append_assoc] at heq
    exact ⟨hle, heq⟩

/-- Anew it follows from where it was. -/
theorem renew (h : Follows log taken s) : Follows log taken s.renew where
  sublist := by
    rw [Subscription.messages, Subscription.renew, List.filterMap_nil, List.append_nil]
    exact (List.sublist_append_left _ _).trans h.sublist
  pending _ := ⟨rfl, fun h => nomatch h⟩
  since _ hn := nomatch hn

end Follows

end Follows

end PubSub
