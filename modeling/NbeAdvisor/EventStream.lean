import NbeAdvisor.ChatRelay
import NbeAdvisor.EmailLinks
import NbeAdvisor.EventFrames
import NbeAdvisor.PubSub

/-!
# The event stream of a user

Any number of requests for a ticket, event streams, published events and deletions of accounts, in
any interleaving of their commands to Redis. A stream is opened with a ticket, which is taken away
with `GETDEL`. It subscribes to the channel of its user, and writes each message of the channel as a
frame. A task publishes an event on the channel of a user, as JSON.

`BusTask.view` is what a thread knows, and `BusTask.step_moves` says what each step can do.
-/

namespace NbeAdvisor

open Interleave

/-- `json.dumps` and `json.loads`, where `none` is `JSONDecodeError`. -/
structure BusHost extends Readers where
  dumps : Json → String
  loads : String → Option Json

/-- `settings.SSE_TICKET_TTL_SECONDS`. -/
def sseTicketTtlSeconds : ℤ := 30

/-- `_channel`. -/
def channel (user : Uuid) : String := "sse:user:" ++ user.text

/-- The events that the code publishes. -/
def eventNames : List String :=
  ["statement_status", "chat_token", "chat_agent_selected", "chat_tool_status", "chat_message",
    "chat_error", "transaction_synced", "anomaly_detected"]

/-- The user of a ticket. When it was minted is not under the key. -/
structure TicketValue where
  user : Uuid
  mintedAt : Instant
  deriving DecidableEq

/-- The rows of the users, and what Redis has. `published` are the events behind the messages of the
log. -/
structure BusStore where
  users : List AppUser := []
  tickets : List (Tickets.Entry String TicketValue) := []
  broker : PubSub.Broker ℕ String String := {}
  published : List (Uuid × SseEvent) := []

namespace BusStore

variable (s : BusStore)

/-- `mint_ticket`. -/
def mintTicket (now : Instant) (ticket : String) (user : Uuid) : BusStore :=
  { s with tickets :=
    Tickets.set s.tickets ticket ⟨user, now⟩ (now + sseTicketTtlSeconds * 10 ^ 6) }

/-- `redeem_ticket`. -/
def redeemTicket (now : Instant) (ticket : String) : Option TicketValue × BusStore :=
  ((Tickets.getdel s.tickets now ticket).1,
    { s with tickets := (Tickets.getdel s.tickets now ticket).2 })

end BusStore

/-! ## The threads -/

/-- How the wait of a stream in `get_message` or `yield` ends. -/
inductive StreamSignal where
  | message
  | timeout
  /-- The connection to Redis was lost, and the client of Redis has it again and subscribes anew. -/
  | renewed
  /-- The client has gone, or Redis has. -/
  | close
  deriving DecidableEq

/-- What a step gets from the clock, the generator of the tickets, the check of the access token and
the connections. `answerLost` is that Redis has done a command, and the client of Redis, who does not
know, will send it again. `owner` is whose command Redis does next. -/
structure BusHeard where
  now : Instant := 0
  generated : String := ""
  accessError : Option String := none
  answerLost : Bool := false
  signal : StreamSignal := .timeout
  owner : ℕ := 0

/-- What the two views answer, if it is not the stream. -/
inductive BusAnswer where
  | ticket (ticket : String) (expiresIn : ℤ)
  | unauthorized (message : String)
  deriving DecidableEq

/-- The points of a request for a ticket. -/
inductive TicketMint where
  | authenticating
  | minting (user : AppUser)
  | minted (user : AppUser) (ticket : String) (mintedAt : Instant) (a : BusAnswer)
  | refused (a : BusAnswer)
  deriving DecidableEq

/-- What a ticket was redeemed for, and when. -/
structure Redemption where
  value : TicketValue
  redeemedAt : Instant
  deriving DecidableEq

/-- A request for the stream. `sent` is what the generator has yielded. -/
inductive EventStream where
  | authenticating
  | finding (x : Redemption)
  | opening (x : Redemption) (user : AppUser)
  | streaming (x : Redemption) (user : AppUser) (sent : List String)
  | closed (x : Redemption) (user : AppUser) (sent : List String)
  | refused (x : Option Redemption) (a : BusAnswer)
  deriving DecidableEq

/-- Requests for tickets and streams, what is published, and users that are deleted. -/
inductive BusTask where
  | ticketMint (caller : Uuid) (t : TicketMint)
  | eventStream (ticket : Option String) (t : EventStream)
  | publish (user : Uuid) (e : SseEvent) (done : Bool)
  | deleteUser (user : Uuid) (done : Bool)
  /-- The connections of Redis, where subscriptions come in. -/
  | redis

section Steps

variable (host : BusHost) (i : ℕ) (s : BusStore) (r : BusHeard)

/-- A step of `SSETicketMintView.post`. -/
def TicketMint.step (caller : Uuid) : TicketMint → Option (BusStore × TicketMint)
  | authenticating =>
    match getUser s.users r.accessError caller with
    | .error message => some (s, refused (.unauthorized message))
    | .ok user => some (s, minting user)
  | minting user =>
    some (s.mintTicket r.now r.generated user.id,
      minted user r.generated r.now (.ticket r.generated sseTicketTtlSeconds))
  | minted _ _ _ _ | refused _ => none

/-- What `publish_user_event` sends for an event. -/
def SseEvent.envelope (e : SseEvent) : Json := .object [("event", .text e.event), ("data", e.data)]

/-- The `data` of a published event. -/
def BusHost.payload (e : SseEvent) : String := host.dumps e.envelope

/-- The frame that `stream_user_events` yields for a message, `none` if it raises. -/
def BusHost.frameOf (data : String) : Option String :=
  match host.loads data with
  | some (.object fields) =>
    match fields.lookup "event", fields.lookup "data" with
    | some event, some data => some (EventFrames.frame (host.str event) (host.dumps data))
    | _, _ => none
  | _ => none

/-- A step of `SSETicketAuthentication.authenticate` and `EventStreamView.get`, and of the generator
`stream_user_events`. However the generator ends, it unsubscribes. -/
def EventStream.step (ticket : Option String) : EventStream → Option (BusStore × EventStream)
  | authenticating =>
    match ticket with
    | none | some "" =>
      some (s, refused none (.unauthorized "Authentication credentials were not provided."))
    | some ticket =>
      match s.redeemTicket r.now ticket with
      | (none, s') => some (s', refused none (.unauthorized "Invalid or expired ticket."))
      | (some value, s') =>
        if r.answerLost then some (s', authenticating) else some (s', finding ⟨value, r.now⟩)
  | finding x =>
    match s.users.find? fun u => u.id = x.value.user with
    | none => some (s, refused (some x) (.unauthorized "User not found."))
    | some user => some (s, opening x user)
  | opening x user =>
    some ({ s with broker := s.broker.subscribe i (channel user.id) },
      streaming x user [EventFrames.comment "connected"])
  | streaming x user sent =>
    match r.signal with
    | .message =>
      match s.broker.take i with
      | none => none
      | some (.subscribed, b) => some ({ s with broker := b }, streaming x user sent)
      | some (.message data, b) =>
        match host.frameOf data with
        | none => some ({ s with broker := b.unsubscribe i }, closed x user sent)
        | some frame => some ({ s with broker := b }, streaming x user (sent ++ [frame]))
    | .timeout => some (s, streaming x user (sent ++ [EventFrames.comment "heartbeat"]))
    | .renewed => some ({ s with broker := s.broker.renew i }, streaming x user sent)
    | .close => some ({ s with broker := s.broker.unsubscribe i }, closed x user sent)
  | closed _ _ _ | refused _ _ => none

/-- `publish_user_event`. -/
def BusStore.publishUserEvent (user : Uuid) (e : SseEvent) : BusStore :=
  { s with broker := s.broker.publish (channel user) (host.payload e),
           published := s.published ++ [(user, e)] }

/-- One step of a task. -/
def BusTask.step : BusTask → Option (BusStore × BusTask)
  | ticketMint caller t => (t.step s r caller).map fun (s, t) => (s, ticketMint caller t)
  | eventStream ticket t => (t.step host i s r ticket).map fun (s, t) => (s, eventStream ticket t)
  | publish user e false => some (s.publishUserEvent host user e, publish user e !r.answerLost)
  | deleteUser user false =>
    some ({ s with users := s.users.filter fun u => u.id ≠ user }, deleteUser user true)
  | redis => (s.broker.accept r.owner).map fun b => ({ s with broker := b }, redis)
  | publish _ _ true | deleteUser _ true => none

end Steps

/-- A task comes in at its first point. -/
def BusTask.Begins : BusTask → Prop
  | ticketMint _ t => t = .authenticating
  | eventStream _ t => t = .authenticating
  | publish _ _ done | deleteUser _ done => done = false
  | redis => True

instance : DecidablePred BusTask.Begins
  | .ticketMint _ t => inferInstanceAs (Decidable (t = .authenticating))
  | .eventStream _ t => inferInstanceAs (Decidable (t = .authenticating))
  | .publish _ _ done | .deleteUser _ done => inferInstanceAs (Decidable (done = false))
  | .redis => .isTrue trivial

/-- All of them, in any order. -/
def busServer (host : BusHost) : System BusStore BusTask BusHeard where
  step i s t r := (t.step host i s r).map fun (s, t) => (s, t, [])
  arrives := BusTask.Begins

instance (host : BusHost) : DecidablePred (busServer host).arrives :=
  inferInstanceAs (DecidablePred BusTask.Begins)

/-! ## What a step does -/

/-- A stream, with its user and what it has sent. -/
inductive Feed where
  | none
  | live (user : AppUser) (sent : List String)
  | ended (user : AppUser) (sent : List String)
  deriving DecidableEq

/-- What a thread knows : the event that it is for, the ticket that it has minted, for whom and when,
the one that it has redeemed, the user that it streams for, and the stream. -/
structure BusView where
  event : Option (Uuid × SseEvent) := none
  minter : Option AppUser := none
  minted : Option (String × TicketValue) := none
  redeemed : Option (String × Redemption) := none
  user : Option AppUser := none
  feed : Feed := .none

/-- What a request for a ticket shows. -/
def TicketMint.view : TicketMint → BusView
  | minting user => { minter := some user }
  | minted user ticket mintedAt _ =>
    { minter := some user, minted := some (ticket, ⟨user.id, mintedAt⟩) }
  | authenticating | refused _ => {}

/-- What a request for a stream shows. -/
def EventStream.view (ticket : String) : EventStream → BusView
  | finding x | refused (some x) _ => { redeemed := some (ticket, x) }
  | opening x user => { redeemed := some (ticket, x), user := some user }
  | streaming x user sent =>
    { redeemed := some (ticket, x), user := some user, feed := .live user sent }
  | closed x user sent =>
    { redeemed := some (ticket, x), user := some user, feed := .ended user sent }
  | authenticating | refused none _ => {}

/-- What a task shows. -/
def BusTask.view : BusTask → BusView
  | ticketMint _ t => t.view
  | eventStream ticket t => t.view (ticket.getD "")
  | publish user e _ => { event := some (user, e) }
  | deleteUser _ _ | redis => {}

namespace BusTask

variable (host : BusHost) (i : ℕ) (s : BusStore) (r : BusHeard)

/-- What a step of a thread does. -/
inductive Moves (v : BusView) : BusStore → BusView → Prop where
  | quiet {users : List AppUser} : users ⊆ s.users → Moves v { s with users := users } v
  | authenticates {u : AppUser} : v = {} → u.isActive → Moves v s { minter := some u }
  | mints {u : AppUser} : v = { minter := some u } → Moves v (s.mintTicket r.now r.generated u.id)
      { v with minted := some (r.generated, ⟨u.id, r.now⟩) }
  | misses (ticket : String) : Moves v (s.redeemTicket r.now ticket).2 v
  | redeems {ticket : String} {value : TicketValue} : v = {} →
      (s.redeemTicket r.now ticket).1 = some value →
      Moves v (s.redeemTicket r.now ticket).2 { redeemed := some (ticket, ⟨value, r.now⟩) }
  | finds {ticket : String} {x : Redemption} {u : AppUser} : v = { redeemed := some (ticket, x) } →
      u.id = x.value.user → Moves v s { v with user := some u }
  | opens {u : AppUser} : v.user = some u → v.feed = .none →
      Moves v { s with broker := s.broker.subscribe i (channel u.id) }
        { v with feed := .live u [EventFrames.comment "connected"] }
  | beats {u : AppUser} {sent : List String} : v.feed = .live u sent →
      Moves v s { v with feed := .live u (sent ++ [EventFrames.comment "heartbeat"]) }
  | skips {u : AppUser} {sent : List String} {b : PubSub.Broker ℕ String String} :
      v.feed = .live u sent → s.broker.take i = some (.subscribed, b) →
      Moves v { s with broker := b } v
  | relays {u : AppUser} {sent : List String} {b : PubSub.Broker ℕ String String}
      {data frame : String} : v.feed = .live u sent → s.broker.take i = some (.message data, b) →
      host.frameOf data = some frame →
      Moves v { s with broker := b } { v with feed := .live u (sent ++ [frame]) }
  | breaks {u : AppUser} {sent : List String} {b : PubSub.Broker ℕ String String} {data : String} :
      v.feed = .live u sent → s.broker.take i = some (.message data, b) →
      host.frameOf data = none →
      Moves v { s with broker := b.unsubscribe i } { v with feed := .ended u sent }
  | renews {u : AppUser} {sent : List String} : v.feed = .live u sent →
      Moves v { s with broker := s.broker.renew i } v
  | closes {u : AppUser} {sent : List String} : v.feed = .live u sent →
      Moves v { s with broker := s.broker.unsubscribe i } { v with feed := .ended u sent }
  | publishes {user : Uuid} {e : SseEvent} : v.feed = .none → v.event = some (user, e) →
      Moves v (s.publishUserEvent host user e) v
  | accepts {j : ℕ} {b : PubSub.Broker ℕ String String} : v.feed = .none →
      s.broker.accept j = some b → Moves v { s with broker := b } v

variable {host i s r} {s' : BusStore}

theorem ticketMint_moves {caller : Uuid} {t t' : TicketMint}
    (h : t.step s r caller = some (s', t')) : Moves host i s r t.view s' t'.view := by
  cases t with
  | authenticating =>
    simp only [TicketMint.step] at h
    split at h
    · cases h
      exact .quiet (List.Subset.refl _)
    · next hu =>
      cases h
      exact .authenticates rfl (getUser_ok hu).2.2
  | minting user =>
    cases h
    exact .mints rfl
  | minted user ticket mintedAt a | refused a => cases h

theorem eventStream_moves {ticket : Option String} {t t' : EventStream}
    (h : t.step host i s r ticket = some (s', t')) :
    Moves host i s r (t.view (ticket.getD "")) s' (t'.view (ticket.getD "")) := by
  cases t with
  | authenticating =>
    simp only [EventStream.step] at h
    split at h
    · cases h
      exact .quiet (List.Subset.refl _)
    · cases h
      exact .quiet (List.Subset.refl _)
    · next ticket _ =>
      split at h
      · next hx =>
        cases h
        obtain ⟨-, rfl⟩ := Prod.mk.inj hx
        exact .misses ticket
      · next hx =>
        obtain ⟨hvalue, rfl⟩ := Prod.mk.inj hx
        split at h <;> cases h
        · exact .misses ticket
        · exact .redeems rfl hvalue
  | finding x =>
    simp only [EventStream.step] at h
    split at h
    · cases h
      exact .quiet (List.Subset.refl _)
    · next hu =>
      cases h
      exact .finds rfl (by simpa using List.find?_some hu)
  | opening x user =>
    cases h
    exact .opens rfl rfl
  | streaming x user sent =>
    simp only [EventStream.step] at h
    split at h
    · split at h
      · cases h
      · next ht =>
        cases h
        exact .skips rfl ht
      · next ht =>
        split at h
        · next hf =>
          cases h
          exact .breaks rfl ht hf
        · next hf =>
          cases h
          exact .relays rfl ht hf
    · cases h
      exact .beats rfl
    · cases h
      exact .renews rfl
    · cases h
      exact .closes rfl
  | closed x user sent | refused x a => cases h

theorem step_moves {t t' : BusTask} (h : t.step host i s r = some (s', t')) :
    Moves host i s r t.view s' t'.view := by
  cases t with
  | ticketMint caller t =>
    obtain ⟨⟨s', t'⟩, hstep, heq⟩ := Option.map_eq_some_iff.1 h
    cases heq
    exact ticketMint_moves hstep
  | eventStream ticket t =>
    obtain ⟨⟨s', t'⟩, hstep, heq⟩ := Option.map_eq_some_iff.1 h
    cases heq
    exact eventStream_moves hstep
  | publish user e done =>
    cases done <;> cases h
    exact .publishes rfl rfl
  | deleteUser user done =>
    cases done <;> cases h
    exact .quiet (List.filter_subset_self _)
  | redis =>
    obtain ⟨b, hb, heq⟩ := Option.map_eq_some_iff.1 h
    cases heq
    exact .accepts rfl hb

end BusTask

theorem busServer_next {host : BusHost} {p q : Pool BusStore BusTask}
    {a : Action BusTask BusHeard} (hn : (busServer host).Next p a q) :
    (∃ t : BusTask, a = .arrive t ∧ t.Begins ∧ q = ⟨p.store, p.threads ++ [t]⟩) ∨
    ∃ (i : ℕ) (r : BusHeard) (t t' : BusTask) (s' : BusStore), a = .run i r ∧
      p.threads[i]? = some t ∧ t.step host i p.store r = some (s', t') ∧
      q = ⟨s', p.threads.set i t'⟩ := by
  cases hn with
  | @arrive t ht => exact Or.inl ⟨t, rfl, ht, rfl⟩
  | @run i r t t' s' new hi hs =>
    obtain ⟨⟨s', t'⟩, hstep, heq⟩ := Option.map_eq_some_iff.1 hs
    cases heq
    exact Or.inr ⟨i, r, t, t', s', rfl, hi, hstep, by simp⟩

theorem busServer_run {host : BusHost} {p : Pool BusStore BusTask} {i : ℕ} {r : BusHeard}
    {t t' : BusTask} {s' : BusStore} (hi : p.threads[i]? = some t)
    (h : t.step host i p.store r = some (s', t')) :
    (busServer host).Next p (.run i r) ⟨s', p.threads.set i t'⟩ := by
  have hn : (busServer host).Next p (.run i r) ⟨s', p.threads.set i t' ++ []⟩ :=
    .run hi (Option.map_eq_some_iff.2 ⟨(s', t'), h, rfl⟩)
  rwa [List.append_nil] at hn

theorem BusTask.eq_of_live {t : BusTask} {u : AppUser} {sent : List String}
    (h : t.view.feed = .live u sent) :
    ∃ ticket x, t = .eventStream ticket (.streaming x u sent) := by
  cases t with
  | eventStream ticket t =>
    cases t with
    | streaming x user sent =>
      cases h
      exact ⟨ticket, x, rfl⟩
    | refused x a => cases x <;> exact nomatch h
    | authenticating | finding x | opening x user | closed x user sent => exact nomatch h
  | ticketMint caller t => cases t <;> exact nomatch h
  | publish user e done | deleteUser user done | redis => exact nomatch h

theorem BusTask.Begins.view {t : BusTask} (h : t.Begins) : t.view = { event := t.view.event } := by
  cases t with
  | ticketMint caller t =>
    obtain rfl : t = .authenticating := h
    rfl
  | eventStream ticket t =>
    obtain rfl : t = .authenticating := h
    rfl
  | publish user e done | deleteUser user done | redis => rfl

theorem BusTask.Moves.event {host : BusHost} {i : ℕ} {s s' : BusStore} {r : BusHeard} {v v' : BusView}
    (h : Moves host i s r v s' v') : v'.event = v.event := by
  cases h with
  | authenticates hblank | redeems hblank => rw [hblank]
  | quiet | mints | misses | finds | opens | beats | skips | relays | breaks | renews | closes
  | publishes | accepts => rfl

end NbeAdvisor
