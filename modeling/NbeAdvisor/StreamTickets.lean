import NbeAdvisor.StreamDelivery

/-!
# Who opens an event stream

A stream is opened for the user to whom its ticket was minted, in time, and no other request has
redeemed the ticket (`stream_rests_on_ticket`). `BusView.Timely` is what a thread knows by itself,
and `Tickets.Desk.Accounted` what the tickets say of two threads.
-/

namespace NbeAdvisor

open Interleave

/-- The tickets of the streams, for the rules on values that are taken once. -/
def busDesk : Tickets.Desk String TicketValue BusStore BusTask where
  entries := BusStore.tickets
  minted t := t.view.minted
  redeemed t := t.view.redeemed.map fun x => (x.1, x.2.value)

/-- A ticket that is minted is new. -/
def NewTickets (p : Pool BusStore BusTask) : Action BusTask BusHeard → Prop
  | .arrive _ => True
  | .run _ r => ∀ t ∈ p.threads, t.view.minted.map Prod.fst ≠ some r.generated

instance (p : Pool BusStore BusTask) : (a : Action BusTask BusHeard) → Decidable (NewTickets p a)
  | .arrive _ => .isTrue trivial
  | .run _ _ => inferInstanceAs (Decidable (∀ t ∈ p.threads, _))

/-- When a ticket that was minted at this time expires. -/
def ticketEnds (mintedAt : Instant) : Instant := mintedAt + sseTicketTtlSeconds * 10 ^ 6

/-- What a thread knows of tickets by itself. -/
structure BusView.Timely (v : BusView) : Prop where
  minter : ∀ u, v.minter = some u → u.isActive
  minted : ∀ ticket value, v.minted = some (ticket, value) →
    ∃ u, v.minter = some u ∧ u.id = value.user
  redeemed : ∀ ticket x, v.redeemed = some (ticket, x) → x.redeemedAt < ticketEnds x.value.mintedAt
  user : ∀ u, v.user = some u → ∃ ticket x, v.redeemed = some (ticket, x) ∧ u.id = x.value.user

/-- Every ticket is accounted for, and every thread knows where its own is from. -/
structure TicketsHold (p : Pool BusStore BusTask) : Prop where
  accounted : busDesk.Accounted p
  ends : ∀ e ∈ p.store.tickets, e.expiresAt = ticketEnds e.value.mintedAt
  timely : ∀ t ∈ p.threads, t.view.Timely

section Steps

variable {host : BusHost} {p q : Pool BusStore BusTask} {i : ℕ} {r : BusHeard} {t t' : BusTask}
  {s s' : BusStore} {v v' : BusView}

theorem BusTask.Moves.timely (hm : Moves host i s r v s' v') (h : v.Timely)
    (hends : ∀ e ∈ s.tickets, e.expiresAt = ticketEnds e.value.mintedAt) :
    v'.Timely ∧ ∀ e ∈ s'.tickets, e.expiresAt = ticketEnds e.value.mintedAt := by
  cases hm with
  | quiet | skips | renews | publishes | accepts => exact ⟨h, hends⟩
  | opens | beats | relays | breaks | closes =>
    exact ⟨⟨h.minter, h.minted, h.redeemed, h.user⟩, hends⟩
  | @authenticates u hblank hactive =>
    refine ⟨⟨fun u' hu => ?_, by simp, by simp, by simp⟩, hends⟩
    cases hu
    exact hactive
  | @mints u hminter =>
    subst hminter
    refine ⟨⟨h.minter, fun ticket value hminted => ?_, by simp, by simp⟩, fun e he => ?_⟩
    · cases hminted
      exact ⟨u, rfl, rfl⟩
    · rcases Tickets.mem_set he with he | rfl
      · exact hends e he
      · rfl
  | misses ticket => exact ⟨h, fun e he => hends e (List.mem_of_mem_filter he)⟩
  | @redeems ticket value hblank hvalue =>
    refine ⟨⟨by simp, by simp, fun ticket' x hx => ?_, by simp⟩,
      fun e he => hends e (List.mem_of_mem_filter he)⟩
    cases hx
    obtain ⟨e, he, -, rfl, hnow⟩ := Tickets.getdel_eq_some hvalue
    exact hends e he ▸ hnow
  | @finds ticket x u hview huser =>
    subst hview
    refine ⟨⟨by simp, by simp, h.redeemed, fun u' hu => ?_⟩, hends⟩
    cases hu
    exact ⟨ticket, x, rfl, huser⟩

theorem BusTask.Moves.uses (hm : Moves host i p.store r t.view s' t'.view)
    (hnew : ∀ u ∈ p.threads, u.view.minted.map Prod.fst ≠ some r.generated) :
    busDesk.Uses p t s' t' := by
  have hkeep : t'.view.minted = t.view.minted → t'.view.redeemed = t.view.redeemed →
      s'.tickets ⊆ p.store.tickets → busDesk.Uses p t s' t' :=
    fun hminted hredeemed hsub => .keeps hsub hminted (congrArg (Option.map _) hredeemed)
  have hsame := List.Subset.refl p.store.tickets
  generalize hv : t.view = v at hm hkeep
  generalize hv' : t'.view = v' at hm hkeep
  cases hm with
  | quiet | opens | beats | skips | relays | breaks | renews | closes | publishes | accepts =>
    exact hkeep rfl rfl hsame
  | authenticates hblank | finds hblank =>
    subst hblank
    exact hkeep rfl rfl hsame
  | @mints u hminter =>
    subst hminter
    refine .mints r.generated ⟨u.id, r.now⟩ (ticketEnds r.now) (fun w hw value hw' => ?_)
      (by simp [busDesk, hv]) (by simp [busDesk, hv']) (by simp [busDesk, hv, hv']) rfl
    exact hnew w hw (congrArg (Option.map Prod.fst) hw')
  | misses ticket => exact hkeep rfl rfl (List.filter_subset_self _)
  | @redeems ticket value hblank hvalue =>
    subst hblank
    exact .redeems r.now ticket value (by simp [busDesk, hv]) (by simp [busDesk, hv'])
      (by simp [busDesk, hv, hv']) hvalue rfl

theorem TicketsHold.next {a : Action BusTask BusHeard} (h : TicketsHold p) (hnew : NewTickets p a)
    (hn : (busServer host).Next p a q) : TicketsHold q := by
  have haccounted : busDesk.Accounted q := by
    refine h.accounted.next hn (fun t ht => ?_) fun i r t s' t' new ha hi hs => ?_
    · have hminted : t.view.minted = none := by rw [BusTask.Begins.view ht]
      have hredeemed : t.view.redeemed = none := by rw [BusTask.Begins.view ht]
      exact ⟨hminted, congrArg (Option.map _) hredeemed⟩
    · subst ha
      obtain ⟨⟨s', t'⟩, hstep, heq⟩ := Option.map_eq_some_iff.1 hs
      cases heq
      exact ⟨(BusTask.step_moves hstep).uses hnew, by simp⟩
  rcases busServer_next hn with ⟨t, rfl, ht, rfl⟩ | ⟨i, r, t, t', s', rfl, hi, hstep, rfl⟩
  · refine ⟨haccounted, h.ends, fun u hu => ?_⟩
    rcases List.mem_append.1 hu with hu | hu
    · exact h.timely u hu
    · obtain rfl := List.mem_singleton.1 hu
      rw [BusTask.Begins.view ht]
      exact ⟨by simp, by simp, by simp, by simp⟩
  · obtain ⟨htimely, hends⟩ := (BusTask.step_moves hstep).timely
      (h.timely t (List.mem_of_getElem? hi)) h.ends
    refine ⟨haccounted, hends, fun u hu => ?_⟩
    rcases List.mem_or_eq_of_mem_set hu with hu | rfl
    · exact h.timely u hu
    · exact htimely

end Steps

/-- The user of a stream is the one to whom its ticket was minted, and was active then. The ticket
was redeemed before its end, by no other request. -/
theorem stream_rests_on_ticket {host : BusHost} {users : List AppUser} {p : Pool BusStore BusTask}
    (hrun : (busServer host).Run NewTickets ⟨{ users := users }, []⟩ p) {i : ℕ} {t : BusTask}
    (hi : p.threads[i]? = some t) {u : AppUser} (hu : t.view.user = some u) :
    ∃ ticket x, t.view.redeemed = some (ticket, x) ∧ x.redeemedAt < ticketEnds x.value.mintedAt ∧
      (∃ w ∈ p.threads, w.view.minted = some (ticket, x.value) ∧
        ∃ minter, w.view.minter = some minter ∧ minter.isActive ∧ minter.id = u.id) ∧
      ∀ j w y, p.threads[j]? = some w → w.view.redeemed = some (ticket, y) → j = i := by
  have h : TicketsHold p := hrun.invariant (fun _ _ _ h hnew hn => h.next hnew hn)
    ⟨Tickets.Desk.accounted_nil rfl, by simp, by simp⟩
  have ht := List.mem_of_getElem? hi
  obtain ⟨ticket, x, hx, huser⟩ := (h.timely t ht).user u hu
  have hredeemed : busDesk.redeemed t = some (ticket, x.value) := by simp [busDesk, hx]
  obtain ⟨w, hw, hminted⟩ := h.accounted.redeemed t ht ticket x.value hredeemed
  obtain ⟨minter, hminter, hid⟩ := (h.timely w hw).minted ticket x.value hminted
  refine ⟨ticket, x, hx, (h.timely t ht).redeemed ticket x hx, ⟨w, hw, hminted, minter, hminter,
    (h.timely w hw).minter minter hminter, hid.trans huser.symm⟩, fun j w y hj hy => ?_⟩
  exact h.accounted.redeemedOnce ticket j i w t hj hi ⟨y.value, by simp [busDesk, hy]⟩ ⟨_, hredeemed⟩

theorem stream_rests_on_ticket_reply :
    ∃ p ∈ (busServer replyHost).exec replyFails ⟨{ users := [signedUp] }, []⟩,
      ∃ w ∈ p.threads, ∃ minter, w.view.minter = some minter ∧ minter.isActive ∧
        minter.id = signedUp.id := by
  obtain ⟨p, hp, t, ht, huser, hmeets⟩ :
      ∃ p ∈ (busServer replyHost).exec replyFails ⟨{ users := [signedUp] }, []⟩,
        ∃ t ∈ p.threads[2]?, t.view.user = some signedUp ∧
          (busServer replyHost).Meets NewTickets replyFails ⟨{ users := [signedUp] }, []⟩ := by
    decide +kernel
  obtain ⟨-, -, -, -, ⟨w, hw, -, hminter⟩, -⟩ :=
    stream_rests_on_ticket (.of_exec_meets hmeets hp) ht huser
  exact ⟨p, hp, w, hw, hminter⟩

end NbeAdvisor
