import NbeAdvisor.EventStream

/-!
# What comes over an event stream

Whatever part of a stream a client has got, it has read events that were published for its user, in
their order and with their data (`stream_reads_published`). A stream whose connection to Redis was
not renewed has all of them since Redis has accepted its subscription, once it has read what waits
(`stream_catches_up`). The subscriptions are those of the streams that are open
(`subscription_iff_stream`).

`SubscriptionsHold` is the invariant behind the last one. The invariant behind the others is
`StreamsHold` : the log has the published events as JSON, and each stream has sent frames for what
it has taken from its subscription.
-/

namespace NbeAdvisor

open Interleave PubSub

/-! ## Events as text -/

/-- An event that the code publishes, and that JSON keeps. -/
structure BusHost.Keeps (host : BusHost) (e : SseEvent) : Prop where
  name : e.event ∈ eventNames
  loads : host.loads (host.payload e) = some e.envelope
  oneLine : EventFrames.OneLine (host.dumps e.data)

/-- Every event that is published, JSON keeps. -/
def KeepsEvents (host : BusHost) (_ : Pool BusStore BusTask) : Action BusTask BusHeard → Prop
  | .arrive (.publish _ e _) => host.Keeps e
  | _ => True

namespace BusHost

variable (host : BusHost)

/-- The event of a message. -/
def eventOf (data : String) : Option SseEvent :=
  match host.loads data with
  | some (.object fields) =>
    match fields.lookup "event", fields.lookup "data" with
    | some (.text event), some data => some ⟨event, data⟩
    | _, _ => none
  | _ => none

/-- What a client reads for an event. -/
def shownEvent (e : SseEvent) : String × String := (e.event, host.dumps e.data)

variable {host} {e : SseEvent}

theorem Keeps.eventOf (h : host.Keeps e) : host.eventOf (host.payload e) = some e := by
  rw [BusHost.eventOf, h.loads]
  rfl

theorem Keeps.frameOf (h : host.Keeps e) :
    host.frameOf (host.payload e) = some (EventFrames.frame e.event (host.dumps e.data)) := by
  rw [BusHost.frameOf, h.loads]
  rfl

theorem oneLine_of_mem {name : String} (h : name ∈ eventNames) :
    EventFrames.OneLine name ∧ name ≠ "" := by
  revert name
  decide

end BusHost

/-- What was published for a user. -/
def eventsOf (user : Uuid) (published : List (Uuid × SseEvent)) : List SseEvent :=
  (published.filter fun x => x.1 = user).map Prod.snd

theorem channel_inj {u w : Uuid} (h : channel u = channel w) : u = w :=
  Uuid.ext (String.append_right_inj _ |>.1 h)

/-- The messages of a channel are the events of its user. -/
theorem filterMap_onChannel {host : BusHost} (user : Uuid) {published : List (Uuid × SseEvent)}
    (h : ∀ x ∈ published, host.Keeps x.2) :
    (onChannel (channel user) (published.map fun x => (channel x.1, host.payload x.2))).filterMap
      host.eventOf = eventsOf user published := by
  induction published with
  | nil => rfl
  | cons x rest ih =>
    have hrest := ih fun y hy => h y (List.mem_cons_of_mem _ hy)
    have hx := (h x List.mem_cons_self).eventOf
    rw [List.map_cons, onChannel_cons, List.filterMap_append, hrest]
    by_cases hu : x.1 = user
    · rw [hu, onChannel_self]
      simp [eventsOf, hu, hx]
    · rw [onChannel_ne fun hc => hu (channel_inj hc)]
      simp [eventsOf, hu]

/-! ## The invariant -/

/-- The text of a stream. -/
def sentText (sent : List String) : List Char := sent.flatMap String.toList

/-- The text has the events of these messages, and is between two events. -/
def Spells (host : BusHost) (sent taken : List String) : Prop :=
  ({} : EventFrames.Reader).feedAll (sentText sent) =
    { read := (taken.filterMap host.eventOf).map fun e =>
        (e.event.toList, (host.dumps e.data).toList) }

namespace Spells

variable {host : BusHost} {sent taken : List String}

theorem nil : Spells host [] [] := rfl

theorem snoc_comment (h : Spells host sent taken) {text : String}
    (htext : EventFrames.OneLine text) : Spells host (sent ++ [EventFrames.comment text]) taken := by
  rw [Spells, sentText, List.flatMap_append, EventFrames.Reader.feedAll_append,
    show EventFrames.Reader.feedAll {} (sent.flatMap String.toList) = _ from h]
  simpa using EventFrames.feedAll_comment htext

theorem snoc_frame (h : Spells host sent taken) {e : SseEvent} (he : host.Keeps e) :
    Spells host (sent ++ [EventFrames.frame e.event (host.dumps e.data)])
      (taken ++ [host.payload e]) := by
  obtain ⟨hline, hne⟩ := BusHost.oneLine_of_mem he.name
  rw [Spells, sentText, List.flatMap_append, EventFrames.Reader.feedAll_append,
    show EventFrames.Reader.feedAll {} (sent.flatMap String.toList) = _ from h,
    List.filterMap_append, List.map_append]
  simpa [he.eventOf] using EventFrames.feedAll_frame hline hne he.oneLine

/-- What a client reads. -/
theorem read (h : Spells host sent taken) :
    EventFrames.read (sentText sent) = (taken.filterMap host.eventOf).map host.shownEvent := by
  rw [EventFrames.read, show EventFrames.Reader.feedAll {} (sentText sent) = _ from h]
  simp [BusHost.shownEvent]

end Spells

/-- What a stream has sent, with its subscription. -/
def Feed.Serves (host : BusHost) (b : Broker ℕ String String) (i : ℕ) : Feed → Prop
  | none => b.of i = .none
  | live u sent => ∃ sub taken, b.of i = some sub ∧ sub.channel = channel u.id ∧
      Follows b.log taken sub ∧ Spells host sent taken
  | ended u sent => b.of i = .none ∧ ∃ taken : List String,
      taken.Sublist (onChannel (channel u.id) b.log) ∧ Spells host sent taken

/-- The stream has its subscription, as long as it is open. -/
def Feed.Subscribes (b : Broker ℕ String String) (i : ℕ) : Feed → Prop
  | live u _ => ∃ sub, b.of i = some sub ∧ sub.channel = channel u.id
  | none | ended _ _ => b.of i = .none

/-- The stream of a thread, if there is the thread. -/
def feedAt (p : Pool BusStore BusTask) (i : ℕ) : Feed :=
  (p.threads[i]?.map fun t => t.view.feed).getD .none

/-- The broker has what was published, and every stream has yielded a part of it. -/
structure StreamsHold (host : BusHost) (p : Pool BusStore BusTask) : Prop where
  log : p.store.broker.log = p.store.published.map fun x => (channel x.1, host.payload x.2)
  keeps : ∀ x ∈ p.store.published, host.Keeps x.2
  publishing : ∀ t ∈ p.threads, ∀ x, t.view.event = some x → host.Keeps x.2
  serves : ∀ i, (feedAt p i).Serves host p.store.broker i

/-- Each open stream has its subscription, and there is no other one. -/
structure SubscriptionsHold (p : Pool BusStore BusTask) : Prop where
  distinct : p.store.broker.Distinct
  subscribes : ∀ i, (feedAt p i).Subscribes p.store.broker i

section Serves

variable {host : BusHost} {b b' : Broker ℕ String String} {i j : ℕ} {f : Feed}

theorem Feed.Serves.congr (h : f.Serves host b j) (hof : b'.of j = b.of j) (hlog : b'.log = b.log) :
    f.Serves host b' j := by
  cases f with
  | none => exact hof.trans h
  | live u sent =>
    obtain ⟨sub, taken, hsub, hrest⟩ := h
    exact ⟨sub, taken, hof.trans hsub, by rwa [hlog]⟩
  | ended u sent => exact ⟨hof.trans h.1, by rw [hlog]; exact h.2⟩

theorem Feed.Serves.publish (h : f.Serves host b j) (c m : String) :
    f.Serves host (b.publish c m) j := by
  cases f with
  | none => exact Broker.of_publish.trans (congrArg (Option.map _) h)
  | live u sent =>
    obtain ⟨sub, taken, hsub, hchannel, hfollows, hspells⟩ := h
    refine ⟨sub.receive c m, taken, by rw [Broker.of_publish, hsub]; rfl, ?_,
      hfollows.publish c m, hspells⟩
    rw [Subscription.receive]
    split <;> exact hchannel
  | ended u sent =>
    obtain ⟨hof, taken, hsub, hspells⟩ := h
    refine ⟨Broker.of_publish.trans (congrArg (Option.map _) hof), taken, ?_, hspells⟩
    rw [Broker.publish, onChannel_append]
    exact hsub.trans (List.sublist_append_left _ _)

theorem Feed.Serves.accept (h : f.Serves host b j) (hb : b.accept i = some b') :
    f.Serves host b' j := by
  obtain ⟨sub, hsub, hsince, rfl⟩ := Broker.accept_eq_some hb
  by_cases hji : j = i
  · subst hji
    cases f with
    | none => exact nomatch hsub.symm.trans h
    | live u sent =>
      obtain ⟨sub', taken, hsub', hchannel, hfollows, hspells⟩ := h
      obtain rfl : sub' = sub := Option.some.inj (hsub'.symm.trans hsub)
      exact ⟨sub'.accept b.log.length, taken, Broker.of_modify_self (fun _ => rfl) hsub, hchannel,
        hfollows.accept hsince, hspells⟩
    | ended u sent => exact nomatch hsub.symm.trans h.1
  · exact h.congr (Broker.of_modify_ne (fun _ => rfl) hji) rfl

end Serves

section Steps

variable {host : BusHost} {p q : Pool BusStore BusTask} {i : ℕ} {r : BusHeard} {t t' : BusTask}
  {s' : BusStore}

theorem feedAt_self (hi : p.threads[i]? = some t) : feedAt p i = t.view.feed := by
  rw [feedAt, hi]
  rfl

theorem feedAt_set_self (hi : p.threads[i]? = some t) :
    feedAt ⟨s', p.threads.set i t'⟩ i = t'.view.feed :=
  feedAt_self (List.getElem?_set_self (List.getElem?_eq_some_iff.1 hi).1)

theorem feedAt_set_ne {j : ℕ} (hji : j ≠ i) :
    feedAt ⟨s', p.threads.set i t'⟩ j = feedAt p j := by
  rw [feedAt, feedAt, List.getElem?_set_ne (Ne.symm hji)]

/-- A request that comes in has no stream. -/
theorem feedAt_snoc {j : ℕ} (ht : t.Begins) :
    feedAt ⟨p.store, p.threads ++ [t]⟩ j = feedAt p j := by
  rw [feedAt, feedAt]
  rcases Nat.lt_trichotomy j p.threads.length with hj | rfl | hj
  · rw [List.getElem?_append_left hj]
  · rw [List.getElem?_concat_length, List.getElem?_eq_none (Nat.le_refl _), Option.map_some,
      BusTask.Begins.view ht]
    rfl
  · rw [List.getElem?_eq_none (by simp; omega), List.getElem?_eq_none (by omega)]

/-- The messages that wait are of events that were published. -/
theorem StreamsHold.waits (h : StreamsHold host p) {taken : List String}
    {sub : Subscription ℕ String String} (hfollows : Follows p.store.broker.log taken sub)
    {m : String} (hm : m ∈ sub.messages) : ∃ e, host.Keeps e ∧ m = host.payload e := by
  have hmem := hfollows.sublist.subset (List.mem_append_right _ hm)
  rw [onChannel, h.log] at hmem
  obtain ⟨y, hy, rfl⟩ := List.mem_map.1 hmem
  obtain ⟨x, hx, rfl⟩ := List.mem_map.1 (List.mem_of_mem_filter hy)
  exact ⟨x.2, h.keeps x hx, rfl⟩

/-- A step leaves each subscription with what its stream has sent. -/
theorem BusTask.Moves.serves (hm : Moves host i p.store r t.view s' t'.view)
    (h : StreamsHold host p) (hi : p.threads[i]? = some t) :
    t'.view.feed.Serves host s'.broker i ∧
      ∀ j ≠ i, ∀ f : Feed, f.Serves host p.store.broker j → f.Serves host s'.broker j := by
  have hself := feedAt_self hi ▸ h.serves i
  generalize t.view = v, t'.view = v' at hm hself
  have hsame : ∀ j ≠ i, ∀ f : Feed, f.Serves host p.store.broker j →
      f.Serves host p.store.broker j := fun _ _ _ hf => hf
  have hmodify : ∀ f : Subscription ℕ String String → Subscription ℕ String String,
      (∀ s, (f s).owner = s.owner) → ∀ j ≠ i, ∀ g : Feed, g.Serves host p.store.broker j →
      g.Serves host (p.store.broker.modify i f) j :=
    fun f hf j hji g hg => hg.congr (Broker.of_modify_ne hf hji) rfl
  cases hm with
  | quiet | mints | misses => exact ⟨hself, hsame⟩
  | authenticates hblank | redeems hblank | finds hblank =>
    subst hblank
    exact ⟨hself, hsame⟩
  | @opens u huser hnone =>
    rw [hnone] at hself
    refine ⟨⟨_, [], Broker.of_subscribe_self hself, rfl, Follows.start _ _ _, ?_⟩,
      fun j hji f hf => hf.congr (Broker.of_subscribe_ne hji) rfl⟩
    exact Spells.nil.snoc_comment (by decide)
  | @beats u sent hlive =>
    rw [hlive] at hself
    obtain ⟨sub, taken, hsub, hchannel, hfollows, hspells⟩ := hself
    exact ⟨⟨sub, taken, hsub, hchannel, hfollows, hspells.snoc_comment (by decide)⟩, hsame⟩
  | @skips u sent b hlive htake =>
    rw [hlive] at hself ⊢
    obtain ⟨sub, taken, hsub, hchannel, hfollows, hspells⟩ := hself
    obtain ⟨rest, hwaiting, rfl⟩ := Broker.take_eq_some hsub htake
    have htaken := hfollows.take hwaiting
    rw [show (Notice.subscribed : Notice String).message?.toList = [] from rfl,
      List.append_nil] at htaken
    exact ⟨⟨_, taken, Broker.of_modify_self (fun _ => rfl) hsub, hchannel, htaken, hspells⟩,
      hmodify _ fun _ => rfl⟩
  | @relays u sent b data frame hlive htake hframe =>
    rw [hlive] at hself
    obtain ⟨sub, taken, hsub, hchannel, hfollows, hspells⟩ := hself
    obtain ⟨rest, hwaiting, rfl⟩ := Broker.take_eq_some hsub htake
    obtain ⟨e, he, rfl⟩ := h.waits hfollows (Subscription.mem_messages hwaiting)
    obtain rfl : EventFrames.frame e.event (host.dumps e.data) = frame :=
      Option.some.inj (he.frameOf.symm.trans hframe)
    exact ⟨⟨_, _, Broker.of_modify_self (fun _ => rfl) hsub, hchannel, hfollows.take hwaiting,
      hspells.snoc_frame he⟩, hmodify _ fun _ => rfl⟩
  | @breaks u sent b data hlive htake hframe =>
    rw [hlive] at hself
    obtain ⟨sub, taken, hsub, hchannel, hfollows, hspells⟩ := hself
    obtain ⟨rest, hwaiting, rfl⟩ := Broker.take_eq_some hsub htake
    obtain ⟨e, he, rfl⟩ := h.waits hfollows (Subscription.mem_messages hwaiting)
    exact nomatch he.frameOf.symm.trans hframe
  | @renews u sent hlive =>
    rw [hlive] at hself ⊢
    obtain ⟨sub, taken, hsub, hchannel, hfollows, hspells⟩ := hself
    exact ⟨⟨_, taken, Broker.of_modify_self (fun _ => rfl) hsub, hchannel, hfollows.renew, hspells⟩,
      hmodify _ fun _ => rfl⟩
  | @closes u sent hlive =>
    rw [hlive] at hself
    obtain ⟨sub, taken, hsub, hchannel, hfollows, hspells⟩ := hself
    refine ⟨⟨Broker.of_unsubscribe_self, taken, ?_, hspells⟩,
      fun j hji f hf => hf.congr (Broker.of_unsubscribe_ne hji) rfl⟩
    exact hchannel ▸ (List.sublist_append_left _ _).trans hfollows.sublist
  | @publishes user e hnone hevent =>
    rw [hnone] at hself ⊢
    exact ⟨hself.publish _ _, fun j _ f hf => hf.publish _ _⟩
  | accepts hnone hb => exact ⟨hself.accept hb, fun j _ f hf => hf.accept hb⟩

/-- A step publishes one event with its message, or nothing. -/
theorem BusTask.Moves.log (hm : Moves host i p.store r t.view s' t'.view) (h : StreamsHold host p)
    (hi : p.threads[i]? = some t) :
    (s'.broker.log = s'.published.map fun x => (channel x.1, host.payload x.2)) ∧
      ∀ x ∈ s'.published, host.Keeps x.2 := by
  have htake : ∀ {x b}, p.store.broker.take i = some (x, b) → b.log = p.store.broker.log := by
    intro x b htake
    rw [Broker.take] at htake
    split at htake
    · cases htake
      rfl
    · cases htake
  have hpublishing := h.publishing t (List.mem_of_getElem? hi)
  generalize t.view = v, t'.view = v' at hm hpublishing
  cases hm with
  | quiet | authenticates | mints | misses | redeems | finds | opens | beats | renews | closes =>
    exact ⟨h.log, h.keeps⟩
  | skips hlive ht | relays hlive ht | breaks hlive ht => exact ⟨(htake ht).trans h.log, h.keeps⟩
  | @publishes user e hfeed hevent =>
    refine ⟨?_, fun x hx => ?_⟩
    · show p.store.broker.log ++ _ = (p.store.published ++ _).map _
      rw [h.log, List.map_append]
      rfl
    · rcases List.mem_append.1 hx with hx | hx
      · exact h.keeps x hx
      · obtain rfl := List.mem_singleton.1 hx
        exact hpublishing _ hevent
  | accepts hfeed hb =>
    obtain ⟨sub, -, -, rfl⟩ := Broker.accept_eq_some hb
    exact ⟨h.log, h.keeps⟩

theorem StreamsHold.next {a : Action BusTask BusHeard} (h : StreamsHold host p)
    (hkeeps : KeepsEvents host p a) (hn : (busServer host).Next p a q) : StreamsHold host q := by
  rcases busServer_next hn with ⟨t, rfl, ht, rfl⟩ | ⟨i, r, t, t', s', rfl, hi, hstep, rfl⟩
  · refine ⟨h.log, h.keeps, fun u hu x hx => ?_, fun j => ?_⟩
    · rcases List.mem_append.1 hu with hu | hu
      · exact h.publishing u hu x hx
      · obtain rfl := List.mem_singleton.1 hu
        cases u with
        | publish user e done =>
          cases hx
          exact hkeeps
        | ticketMint caller t =>
          obtain rfl : t = .authenticating := ht
          exact nomatch hx
        | eventStream ticket t =>
          obtain rfl : t = .authenticating := ht
          exact nomatch hx
        | deleteUser user done | redis => exact nomatch hx
    · rw [feedAt_snoc ht]
      exact h.serves j
  · have hm := BusTask.step_moves hstep
    obtain ⟨hself, hothers⟩ := hm.serves h hi
    obtain ⟨hlog, hkept⟩ := hm.log h hi
    refine ⟨hlog, hkept, fun u hu x hx => ?_, fun j => ?_⟩
    · rcases List.mem_or_eq_of_mem_set hu with hu | rfl
      · exact h.publishing u hu x hx
      · exact h.publishing t (List.mem_of_getElem? hi) x (hm.event ▸ hx)
    · by_cases hji : j = i
      · subst hji
        rw [feedAt_set_self hi]
        exact hself
      · rw [feedAt_set_ne hji]
        exact hothers j hji _ (h.serves j)

theorem StreamsHold.start (host : BusHost) (users : List AppUser)
    (tickets : List (Tickets.Entry String TicketValue)) :
    StreamsHold host ⟨{ users := users, tickets := tickets }, []⟩ where
  log := rfl
  keeps x hx := by simp at hx
  publishing t ht := by simp at ht
  serves i := by simp [feedAt, Feed.Serves, Broker.of]

theorem StreamsHold.of_run {users : List AppUser}
    (hrun : (busServer host).Run (KeepsEvents host) ⟨{ users := users }, []⟩ p) :
    StreamsHold host p :=
  hrun.invariant (fun _ _ _ h hkeeps hn => h.next hkeeps hn) (.start host users [])

end Steps

/-! ## The subscriptions -/

section Subscriptions

variable {host : BusHost} {b b' : Broker ℕ String String} {f : Feed} {p q : Pool BusStore BusTask}
  {i j : ℕ} {r : BusHeard} {t t' : BusTask} {s' : BusStore}

theorem Feed.Subscribes.congr (h : f.Subscribes b j) (hof : b'.of j = b.of j) :
    f.Subscribes b' j := by
  cases f with
  | none | ended => exact hof.trans h
  | live u sent =>
    obtain ⟨sub, hsub, hchannel⟩ := h
    exact ⟨sub, hof.trans hsub, hchannel⟩

/-- A change of the subscriptions that leaves their channels. -/
theorem Feed.Subscribes.map (h : f.Subscribes b j)
    {g : Subscription ℕ String String → Subscription ℕ String String}
    (hof : b'.of j = (b.of j).map g) (hg : ∀ sub, (g sub).channel = sub.channel) :
    f.Subscribes b' j := by
  cases f with
  | none | ended => exact hof.trans (congrArg (Option.map g) h)
  | live u sent =>
    obtain ⟨sub, hsub, hchannel⟩ := h
    exact ⟨g sub, hof.trans (congrArg (Option.map g) hsub), (hg sub).trans hchannel⟩

theorem Feed.Subscribes.modify (h : f.Subscribes b j)
    {g : Subscription ℕ String String → Subscription ℕ String String}
    (howner : ∀ sub, (g sub).owner = sub.owner) (hg : ∀ sub, (g sub).channel = sub.channel) :
    f.Subscribes (b.modify i g) j := by
  refine h.map (Broker.of_modify howner) fun sub => ?_
  split
  · exact hg sub
  · rfl

theorem Feed.Subscribes.publish (h : f.Subscribes b j) (c m : String) :
    f.Subscribes (b.publish c m) j := by
  refine h.map Broker.of_publish fun sub => ?_
  rw [Subscription.receive]
  split <;> rfl

theorem take_eq_modify {x : Notice String} (h : b.take i = some (x, b')) :
    ∃ rest, b' = b.modify i fun s => { s with waiting := rest } := by
  obtain ⟨sub, hsub⟩ : ∃ sub, b.of i = some sub := by
    rw [← Option.isSome_iff_exists]
    by_contra hno
    rw [Broker.take, Option.not_isSome_iff_eq_none.1 hno] at h
    cases h
  obtain ⟨rest, -, hb⟩ := Broker.take_eq_some hsub h
  exact ⟨rest, hb⟩

/-- A step opens or closes a stream together with its subscription. -/
theorem BusTask.Moves.subscribes (hm : Moves host i p.store r t.view s' t'.view)
    (h : SubscriptionsHold p) (hi : p.threads[i]? = some t) :
    s'.broker.Distinct ∧ t'.view.feed.Subscribes s'.broker i ∧
      ∀ j ≠ i, ∀ f : Feed, f.Subscribes p.store.broker j → f.Subscribes s'.broker j := by
  have hself := feedAt_self hi ▸ h.subscribes i
  generalize t.view = v, t'.view = v' at hm hself
  cases hm with
  | quiet | mints | misses => exact ⟨h.distinct, hself, fun _ _ _ hf => hf⟩
  | authenticates hblank | redeems hblank | finds hblank =>
    subst hblank
    exact ⟨h.distinct, hself, fun _ _ _ hf => hf⟩
  | @opens u huser hnone =>
    rw [hnone] at hself
    exact ⟨h.distinct.subscribe hself, ⟨_, Broker.of_subscribe_self hself, rfl⟩,
      fun j hji f hf => hf.congr (Broker.of_subscribe_ne hji)⟩
  | @beats u sent hlive =>
    rw [hlive] at hself
    exact ⟨h.distinct, hself, fun _ _ _ hf => hf⟩
  | @skips u sent b hlive htake =>
    obtain ⟨rest, rfl⟩ := take_eq_modify htake
    exact ⟨h.distinct.modify fun _ => rfl, hself.modify (fun _ => rfl) fun _ => rfl,
      fun j _ f hf => hf.modify (fun _ => rfl) fun _ => rfl⟩
  | @relays u sent b data frame hlive htake hframe =>
    rw [hlive] at hself
    obtain ⟨rest, rfl⟩ := take_eq_modify htake
    have hopen : (Feed.live u (sent ++ [frame])).Subscribes p.store.broker i := hself
    exact ⟨h.distinct.modify fun _ => rfl, hopen.modify (fun _ => rfl) fun _ => rfl,
      fun j _ f hf => hf.modify (fun _ => rfl) fun _ => rfl⟩
  | @breaks u sent b data hlive htake hframe =>
    obtain ⟨rest, rfl⟩ := take_eq_modify htake
    have hdistinct : (p.store.broker.modify i fun s => { s with waiting := rest }).Distinct :=
      h.distinct.modify fun _ => rfl
    refine ⟨hdistinct.unsubscribe, Broker.of_unsubscribe_self, fun j hji f hf => ?_⟩
    have htaken : f.Subscribes (p.store.broker.modify i fun s => { s with waiting := rest }) j :=
      hf.modify (fun _ => rfl) fun _ => rfl
    exact htaken.congr (Broker.of_unsubscribe_ne hji)
  | @renews u sent hlive =>
    exact ⟨h.distinct.modify fun _ => rfl, hself.modify (fun _ => rfl) fun _ => rfl,
      fun j _ f hf => hf.modify (fun _ => rfl) fun _ => rfl⟩
  | @closes u sent hlive =>
    exact ⟨h.distinct.unsubscribe, Broker.of_unsubscribe_self,
      fun j hji f hf => hf.congr (Broker.of_unsubscribe_ne hji)⟩
  | publishes => exact ⟨h.distinct.publish, hself.publish _ _, fun j _ f hf => hf.publish _ _⟩
  | accepts hnone hb =>
    obtain ⟨sub, -, -, rfl⟩ := Broker.accept_eq_some hb
    exact ⟨h.distinct.modify fun _ => rfl, hself.modify (fun _ => rfl) fun _ => rfl,
      fun j _ f hf => hf.modify (fun _ => rfl) fun _ => rfl⟩

theorem SubscriptionsHold.next {a : Action BusTask BusHeard} (h : SubscriptionsHold p)
    (hn : (busServer host).Next p a q) : SubscriptionsHold q := by
  rcases busServer_next hn with ⟨t, rfl, ht, rfl⟩ | ⟨i, r, t, t', s', rfl, hi, hstep, rfl⟩
  · refine ⟨h.distinct, fun j => ?_⟩
    rw [feedAt_snoc ht]
    exact h.subscribes j
  · obtain ⟨hdistinct, hself, hothers⟩ := (BusTask.step_moves hstep).subscribes h hi
    refine ⟨hdistinct, fun j => ?_⟩
    by_cases hji : j = i
    · subst hji
      rw [feedAt_set_self hi]
      exact hself
    · rw [feedAt_set_ne hji]
      exact hothers j hji _ (h.subscribes j)

theorem SubscriptionsHold.of_run {users : List AppUser}
    (hrun : (busServer host).Run (fun _ _ => True) ⟨{ users := users }, []⟩ p) :
    SubscriptionsHold p :=
  hrun.invariant (fun _ _ _ h _ hn => h.next hn)
    ⟨List.nodup_nil, fun i => by simp [feedAt, Feed.Subscribes, Broker.of]⟩

end Subscriptions

/-! ## Delivery -/

section Delivery

variable {host : BusHost} {users : List AppUser} {p : Pool BusStore BusTask} {i : ℕ} {t : BusTask}
  {u : AppUser} {sent : List String}

/-- An answer of the chat that failed. -/
def failedReply : SseEvent :=
  ⟨"chat_error", .object [("conversation_id", .text "7"), ("message", .text "No answer.")]⟩

/-- The data of a failed answer. -/
def failedData : String := "\x7b\"conversation_id\": \"7\", \"message\": \"No answer.\"\x7d"

/-- The event of a failed answer. -/
def failedPayload : String := "\x7b\"event\": \"chat_error\", \"data\": " ++ failedData ++ "\x7d"

/-- A host with the JSON of this event. -/
def replyHost : BusHost where
  toReaders := sampleHost.toReaders
  dumps
    | .object [("event", _), _] => failedPayload
    | _ => failedData
  loads text := if text = failedPayload then some failedReply.envelope else none

theorem replyHost_keeps : replyHost.Keeps failedReply where
  name := by decide
  loads := by simp [replyHost, BusHost.payload, SseEvent.envelope]
  oneLine := by decide

/-- A user gets a ticket, opens a stream with it, and an answer fails. -/
def replyFails : List (Action BusTask BusHeard) :=
  [.arrive (.ticketMint signedUp.id .authenticating), .run 0 {}, .run 0 { generated := "ticket-1" },
    .arrive .redis, .arrive (.eventStream (some "ticket-1") .authenticating),
    .run 2 { now := 5000000 }, .run 2 {}, .run 2 {}, .run 1 { owner := 2 },
    .arrive (.publish signedUp.id failedReply false), .run 2 { signal := .message }, .run 3 {}]

theorem replyFails_keeps {as : List (Action BusTask BusHeard)} (has : as ⊆ replyFails)
    {p : Pool BusStore BusTask} : (busServer replyHost).Meets (KeepsEvents replyHost) as p := by
  refine System.meets_of_forall _ (fun a ha p => ?_) p
  have ha := has ha
  simp only [replyFails, List.mem_cons, List.not_mem_nil, or_false] at ha
  rcases ha with rfl | rfl | rfl | rfl | rfl | rfl | rfl | rfl | rfl | rfl | rfl | rfl <;>
    first
    | exact trivial
    | exact replyHost_keeps

/-- Whatever has come of a stream, open or ended, the client has read events that were published for
its user, in their order. -/
theorem stream_reads_published
    (hrun : (busServer host).Run (KeepsEvents host) ⟨{ users := users }, []⟩ p)
    (hi : p.threads[i]? = some t) (ht : t.view.feed = .live u sent ∨ t.view.feed = .ended u sent)
    {arrived : List Char} (harrived : arrived <+: sentText sent) :
    ∃ relayed : List SseEvent, relayed.Sublist (eventsOf u.id p.store.published) ∧
      EventFrames.read arrived <+: relayed.map host.shownEvent := by
  have h := StreamsHold.of_run hrun
  have hserves := feedAt_self hi ▸ h.serves i
  obtain ⟨taken, hsub, hspells⟩ : ∃ taken : List String,
      taken.Sublist (onChannel (channel u.id) p.store.broker.log) ∧ Spells host sent taken := by
    rcases ht with ht | ht
    · rw [ht] at hserves
      obtain ⟨sub, taken, -, hchannel, hfollows, hspells⟩ := hserves
      exact ⟨taken, hchannel ▸ (List.sublist_append_left _ _).trans hfollows.sublist, hspells⟩
    · rw [ht] at hserves
      exact hserves.2
  refine ⟨taken.filterMap host.eventOf, ?_, ?_⟩
  · rw [← filterMap_onChannel u.id h.keeps, ← h.log]
    exact hsub.filterMap _
  · rw [← hspells.read]
    exact EventFrames.read_prefix harrived

theorem stream_reads_published_reply :
    ∃ p ∈ (busServer replyHost).exec (replyFails ++ [.run 2 { signal := .message }])
        ⟨{ users := [signedUp] }, []⟩,
      ∃ relayed : List SseEvent, relayed.Sublist (eventsOf signedUp.id p.store.published) ∧
        EventFrames.read (sentText [EventFrames.comment "connected",
          EventFrames.frame "chat_error" failedData]) <+: relayed.map replyHost.shownEvent := by
  obtain ⟨p, hp, t, ht, hfeed⟩ :
      ∃ p ∈ (busServer replyHost).exec (replyFails ++ [.run 2 { signal := .message }])
          ⟨{ users := [signedUp] }, []⟩,
        ∃ t ∈ p.threads[2]?, t.view.feed = .live signedUp
          [EventFrames.comment "connected", EventFrames.frame "chat_error" failedData] := by
    decide +kernel
  have hkeeps : (busServer replyHost).Meets (KeepsEvents replyHost)
      (replyFails ++ [.run 2 { signal := .message }]) ⟨{ users := [signedUp] }, []⟩ :=
    replyFails_keeps (List.append_subset.2 ⟨List.Subset.refl _, by simp [replyFails]⟩)
  exact ⟨p, hp,
    stream_reads_published (.of_exec_meets hkeeps hp) ht (Or.inl hfeed) List.prefix_rfl⟩

/-- The thread does nothing but read on what waits. -/
def ReadsOn (i : ℕ) (_ : Pool BusStore BusTask) : Action BusTask BusHeard → Prop
  | .arrive _ => False
  | .run j r => j = i ∧ r.signal = .message

/-- One message that waits, read on. -/
theorem StreamsHold.readOn (h : StreamsHold host p) {ticket : Option String} {x : Redemption}
    (hi : p.threads[i]? = some (.eventStream ticket (.streaming x u sent)))
    {sub : Subscription ℕ String String} (hsub : p.store.broker.of i = some sub)
    {y : Notice String} {rest : List (Notice String)} (hwaiting : sub.waiting = y :: rest) :
    ∃ (q : Pool BusStore BusTask) (sent' : List String),
      (busServer host).Next p (.run i { signal := .message }) q ∧
      q.threads[i]? = some (.eventStream ticket (.streaming x u sent')) ∧
      q.store.published = p.store.published ∧
      q.store.broker.of i = some { sub with waiting := rest } := by
  have htake := Broker.take_of_waiting hsub hwaiting
  have hmoves : ∀ sent', BusTask.step host i p.store { signal := .message }
      (.eventStream ticket (.streaming x u sent)) = some ({ p.store with
        broker := p.store.broker.modify i fun s => { s with waiting := rest } },
        .eventStream ticket (.streaming x u sent')) →
      ∃ (q : Pool BusStore BusTask) (sent' : List String),
      (busServer host).Next p (.run i { signal := .message }) q ∧
      q.threads[i]? = some (.eventStream ticket (.streaming x u sent')) ∧
      q.store.published = p.store.published ∧
      q.store.broker.of i = some { sub with waiting := rest } := fun sent' hstep =>
    ⟨_, sent', busServer_run hi hstep, List.getElem?_set_self (List.getElem?_eq_some_iff.1 hi).1, rfl,
      Broker.of_modify_self (fun _ => rfl) hsub⟩
  cases y with
  | subscribed => exact hmoves sent (by simp [BusTask.step, EventStream.step, htake])
  | message data =>
    have hserves := feedAt_self hi ▸ h.serves i
    obtain ⟨sub', taken, hsub', hchannel, hfollows, hspells⟩ := hserves
    obtain rfl : sub' = sub := Option.some.inj (hsub'.symm.trans hsub)
    obtain ⟨e, he, rfl⟩ := h.waits hfollows (Subscription.mem_messages hwaiting)
    exact hmoves (sent ++ [EventFrames.frame e.event (host.dumps e.data)])
      (by simp [BusTask.step, EventStream.step, htake, he.frameOf])

/-- A stream whose connection to Redis was not renewed, once it has read on what waits, has sent all
events that were published for its user since Redis has accepted its subscription. -/
theorem stream_catches_up
    (hrun : (busServer host).Run (KeepsEvents host) ⟨{ users := users }, []⟩ p)
    {ticket : Option String} {x : Redemption}
    (hi : p.threads[i]? = some (.eventStream ticket (.streaming x u sent)))
    {sub : Subscription ℕ String String} (hsub : p.store.broker.of i = some sub) {n : ℕ}
    (hsince : sub.since = some n) (hrenewed : sub.renewed = false) :
    ∃ (q : Pool BusStore BusTask) (sent' : List String), (busServer host).Run (ReadsOn i) p q ∧
      q.threads[i]? = some (.eventStream ticket (.streaming x u sent')) ∧
      q.store.published = p.store.published ∧
      EventFrames.read (sentText sent') =
        (eventsOf u.id (p.store.published.drop n)).map host.shownEvent := by
  have h := StreamsHold.of_run hrun
  clear hrun
  induction hlen : sub.waiting generalizing p sent sub with
  | nil =>
    have hserves := feedAt_self hi ▸ h.serves i
    obtain ⟨sub', taken, hsub', hchannel, hfollows, hspells⟩ := hserves
    obtain rfl : sub' = sub := Option.some.inj (hsub'.symm.trans hsub)
    have htaken := (hfollows.since n hsince).2 hrenewed
    rw [Subscription.messages, hlen, List.filterMap_nil, List.append_nil, hchannel, h.log,
      ← List.map_drop] at htaken
    refine ⟨p, sent, .refl p, hi, rfl, ?_⟩
    rw [hspells.read, htaken,
      filterMap_onChannel u.id fun x hx => h.keeps x (List.mem_of_mem_drop hx)]
  | cons y rest ih =>
    obtain ⟨q, sent', hn, hi', hpublished, hsub'⟩ := h.readOn hi hsub hlen
    have hq := h.next (a := .run i { signal := .message }) trivial hn
    obtain ⟨q', sent'', hrun, hrest⟩ := ih hi' hsub' hsince hrenewed hq rfl
    rw [hpublished] at hrest
    exact ⟨q', sent'', .head (a := .run i { signal := .message }) ⟨rfl, rfl⟩ hn hrun, hrest⟩

theorem stream_catches_up_reply :
    ∃ p ∈ (busServer replyHost).exec replyFails ⟨{ users := [signedUp] }, []⟩,
      ∃ (q : Pool BusStore BusTask) (sent' : List String),
        (busServer replyHost).Run (ReadsOn 2) p q ∧ q.store.published = p.store.published ∧
        EventFrames.read (sentText sent') =
          (eventsOf signedUp.id (p.store.published.drop 0)).map replyHost.shownEvent := by
  obtain ⟨p, hp, t, ht, hfeed, sub, hsub, hsince, hrenewed⟩ :
      ∃ p ∈ (busServer replyHost).exec replyFails ⟨{ users := [signedUp] }, []⟩,
        ∃ t ∈ p.threads[2]?, t.view.feed = .live signedUp [EventFrames.comment "connected"] ∧
        ∃ sub ∈ p.store.broker.of 2, sub.since = some 0 ∧ sub.renewed = false := by
    decide +kernel
  obtain ⟨ticket, x, rfl⟩ := BusTask.eq_of_live hfeed
  obtain ⟨q, sent', hrun, -, hpublished, hread⟩ := stream_catches_up
    (.of_exec_meets (replyFails_keeps (List.Subset.refl _)) hp) ht hsub hsince hrenewed
  exact ⟨p, hp, q, sent', hrun, hpublished, hread⟩

/-- The subscriptions at Redis are those of the streams that are open, one each. -/
theorem subscription_iff_stream
    (hrun : (busServer host).Run (fun _ _ => True) ⟨{ users := users }, []⟩ p) :
    (p.store.broker.subscriptions.map Subscription.owner).Nodup ∧ ∀ i c,
      (∃ sub ∈ p.store.broker.subscriptions, sub.owner = i ∧ sub.channel = c) ↔
      ∃ ticket x u sent, p.threads[i]? = some (.eventStream ticket (.streaming x u sent)) ∧
        c = channel u.id := by
  have h := SubscriptionsHold.of_run hrun
  refine ⟨h.distinct, fun i c => ⟨?_, ?_⟩⟩
  · rintro ⟨sub, hmem, rfl, rfl⟩
    have hsub := h.distinct.of_mem hmem
    have hopen := h.subscribes sub.owner
    cases hi : p.threads[sub.owner]? with
    | none =>
      rw [feedAt, hi] at hopen
      exact nomatch hsub.symm.trans hopen
    | some t =>
      rw [feedAt_self hi] at hopen
      cases hfeed : t.view.feed with
      | none | ended =>
        rw [hfeed] at hopen
        exact nomatch hsub.symm.trans hopen
      | live u sent =>
        rw [hfeed] at hopen
        obtain ⟨sub', hsub', hchannel⟩ := hopen
        obtain rfl : sub' = sub := Option.some.inj (hsub'.symm.trans hsub)
        obtain ⟨ticket, x, rfl⟩ := BusTask.eq_of_live hfeed
        exact ⟨ticket, x, u, sent, rfl, hchannel⟩
  · rintro ⟨ticket, x, u, sent, hi, rfl⟩
    have hopen := feedAt_self hi ▸ h.subscribes i
    obtain ⟨sub, hsub, hchannel⟩ := hopen
    exact ⟨sub, Broker.mem_of hsub, Broker.owner_of hsub, hchannel⟩

theorem subscription_iff_stream_reply :
    ∃ p ∈ (busServer replyHost).exec replyFails ⟨{ users := [signedUp] }, []⟩,
      ∃ ticket x u sent, p.threads[2]? = some (.eventStream ticket (.streaming x u sent)) ∧
        channel signedUp.id = channel u.id := by
  obtain ⟨p, hp, sub, hsub, howner, hchannel⟩ :
      ∃ p ∈ (busServer replyHost).exec replyFails ⟨{ users := [signedUp] }, []⟩,
        ∃ sub ∈ p.store.broker.subscriptions, sub.owner = 2 ∧
          sub.channel = channel signedUp.id := by
    decide +kernel
  exact ⟨p, hp, ((subscription_iff_stream (.of_exec hp)).2 2 _).1 ⟨sub, hsub, howner, hchannel⟩⟩

end Delivery

end NbeAdvisor
