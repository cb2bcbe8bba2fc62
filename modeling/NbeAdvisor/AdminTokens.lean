import NbeAdvisor.Interleave
import NbeAdvisor.Keyed
import NbeAdvisor.Records

/-!
# Refresh tokens of the admins

Any number of `/admin/auth/refresh` and `/admin/auth/logout`, in any interleaving of their
statements. A refresh consumes its token by one statement, the insert of its identifier (`jti`)
under a unique constraint, and only the request whose insert goes through gets a new pair of tokens.

So an identifier leads to one pair at most. Once a refresh or a logout of it has been answered, the
identifier is there, or its token is one that no refresh accepts any more, and no request that comes
later gets a pair for it (`adminTokens_once`).

What a token says is a function of its identifier, because the server signs one token for each. The
clock of the server does not go back.
-/

namespace NbeAdvisor

open Interleave

/-- The `jti` claim of a token. -/
abbrev Jti := String
/-- The key of an administrator. -/
abbrev AdminUserId := ℕ

/-! ## Tokens and tables -/

/-- What a signed refresh token says. -/
structure AdminClaims where
  userId : AdminUserId
  isAdmin : Bool
  exp : Instant

/-- `AdminUser`, by its role. -/
structure AdminUser where
  id : AdminUserId
  role : String := "reviewer"
  deriving DecidableEq

/-- `AdminBlacklistedToken` : a token that is spent. -/
structure AdminBlacklistedToken where
  jti : Jti
  expiresAt : Instant
  deriving DecidableEq

/-- The tables and the clock. `userBlacklist` are the identifiers in the blacklist of simplejwt. -/
structure AdminStore where
  now : Instant := 0
  admins : List AdminUser := []
  blacklist : List AdminBlacklistedToken := []
  userBlacklist : List Jti := []
  deriving DecidableEq

/-- The refresh cookie. What the server has not signed is `garbled`. -/
inductive RefreshCookie where
  | none
  | garbled
  | token (jti : Jti)
  deriving DecidableEq

/-- A new refresh token, by its identifier, and the body with the access token. -/
structure AdminPair where
  refresh : Jti
  adminId : AdminUserId
  role : String
  deriving DecidableEq

/-- What the admin views answer. -/
inductive AdminAnswer where
  | pair (p : AdminPair)
  /-- A 401. -/
  | unauthorized (message : String)
  /-- A 204 that deletes the cookie. -/
  | loggedOut
  deriving DecidableEq

namespace AdminStore

variable (claims : Jti → AdminClaims) (s : AdminStore)

/-- The `jti`s on the blacklist. -/
def jtis : List Jti := s.blacklist.map AdminBlacklistedToken.jti

/-- `RefreshToken(raw_token)` of simplejwt, with the message of its `TokenError`. -/
def refreshToken : RefreshCookie → Except String Jti
  | .none | .garbled => .error "Token is invalid"
  | .token jti =>
    if (claims jti).exp ≤ s.now then .error "Token is expired"
    else if jti ∈ s.userBlacklist then .error "Token is blacklisted"
    else .ok jti

/-- The insert into `admin_blacklisted_tokens`, `none` if it meets the unique constraint. -/
def insert (jti : Jti) : Option AdminStore :=
  if jti ∈ s.jtis then none
  else some { s with blacklist := s.blacklist ++ [{ jti, expiresAt := (claims jti).exp }] }

end AdminStore

/-! ## The requests -/

/-- What a step gets from the clock, the generator, and the check of the access token, which is
right or comes with a message. -/
structure AdminHeard where
  now : Instant := 0
  generated : Jti := ""
  accessError : Option String := none

/-- The points of an exchange of a refresh token. -/
inductive AdminRefresh where
  | decoding
  | consuming
  | findingAdmin
  | answered (a : AdminAnswer)
  deriving DecidableEq

/-- The points of a logout. -/
inductive AdminLogout where
  | authenticating
  | decoding
  | getting
  | creating
  | answered (a : AdminAnswer)
  deriving DecidableEq

/-- The requests, each with its cookie. -/
inductive AdminTask where
  | refresh (cookie : RefreshCookie) (t : AdminRefresh)
  | logout (cookie : RefreshCookie) (t : AdminLogout)
  deriving DecidableEq

section Steps

variable (claims : Jti → AdminClaims) (s : AdminStore)

/-- A step of `AdminRefreshView.post`. -/
def AdminRefresh.step (r : AdminHeard) (cookie : RefreshCookie) :
    AdminRefresh → Option (AdminStore × AdminRefresh)
  | decoding =>
    if cookie = .none then
      some (s, answered (.unauthorized "No admin refresh token cookie present."))
    else
      match s.refreshToken claims cookie with
      | .error message => some (s, answered (.unauthorized message))
      | .ok jti =>
        if (claims jti).isAdmin then some (s, consuming)
        else some (s, answered (.unauthorized "Not an admin refresh token."))
  | consuming =>
    match cookie with
    | .token jti =>
      match s.insert claims jti with
      | none => some (s, answered (.unauthorized "This admin refresh token has already been used."))
      | some s => some (s, findingAdmin)
    | _ => none
  | findingAdmin =>
    match cookie with
    | .token jti =>
      match s.admins.find? fun u => u.id = (claims jti).userId with
      | none => some (s, answered (.unauthorized "Admin user not found."))
      | some u => some (s, answered (.pair { refresh := r.generated, adminId := u.id, role := u.role }))
    | _ => none
  | answered _ => none

/-- A step of `AdminLogoutView.post`, with the `get` and the `create` of `get_or_create`. -/
def AdminLogout.step (r : AdminHeard) (cookie : RefreshCookie) :
    AdminLogout → Option (AdminStore × AdminLogout)
  | authenticating =>
    match r.accessError with
    | some message => some (s, answered (.unauthorized message))
    | none => some (s, decoding)
  | decoding =>
    match s.refreshToken claims cookie with
    | .error _ => some (s, answered .loggedOut)
    | .ok _ => some (s, getting)
  | getting =>
    match cookie with
    | .token jti => some (s, if jti ∈ s.jtis then answered .loggedOut else creating)
    | _ => none
  | creating =>
    match cookie with
    | .token jti => some ((s.insert claims jti).getD s, answered .loggedOut)
    | _ => none
  | answered _ => none

/-- One statement of a request. -/
def AdminTask.step (r : AdminHeard) : AdminTask → Option (AdminStore × AdminTask)
  | refresh cookie t => (t.step claims s r cookie).map fun (s, t) => (s, refresh cookie t)
  | logout cookie t => (t.step claims s r cookie).map fun (s, t) => (s, logout cookie t)

end Steps

/-- A request arrives at its first point. -/
def AdminTask.Begins : AdminTask → Prop
  | refresh _ t => t = .decoding
  | logout _ t => t = .authenticating

instance : DecidablePred AdminTask.Begins
  | .refresh _ t => inferInstanceAs (Decidable (t = .decoding))
  | .logout _ t => inferInstanceAs (Decidable (t = .authenticating))

/-- A step takes place at the time that the clock shows then. -/
def adminServer (claims : Jti → AdminClaims) : System AdminStore AdminTask AdminHeard where
  step _ s t r :=
    if s.now ≤ r.now then
      (t.step claims { s with now := r.now } r).map fun (s, t) => (s, t, [])
    else none
  arrives := AdminTask.Begins

instance (claims : Jti → AdminClaims) : DecidablePred (adminServer claims).arrives :=
  inferInstanceAs (DecidablePred AdminTask.Begins)

/-! ## What a step does -/

namespace AdminTask

/-- The identifier whose insert this refresh has made, and that it has or may get a pair for. -/
def consumed : AdminTask → Option Jti
  | refresh (.token jti) .findingAdmin | refresh (.token jti) (.answered (.pair _)) => some jti
  | _ => none

/-- The identifier that this refresh got a pair for. -/
def won : AdminTask → Option Jti
  | refresh (.token jti) (.answered (.pair _)) => some jti
  | _ => none

/-- The identifier whose refresh or logout is answered. A logout without a valid access token is
refused before it looks at the cookie. -/
def completed : AdminTask → Option Jti
  | refresh (.token jti) (.answered _) | logout (.token jti) (.answered .loggedOut) => some jti
  | _ => none

/-- The identifier that this refresh inserts next. -/
def consumes : AdminTask → Option Jti
  | refresh (.token jti) .consuming => some jti
  | _ => none

theorem consumed_of_won {t : AdminTask} {jti : Jti} (h : t.won = some jti) : t.consumed = some jti := by
  unfold won at h
  split at h
  · exact h
  · cases h

end AdminTask

namespace AdminStore

variable (claims : Jti → AdminClaims)

/-- A refresh accepts the token, if it has not been used. -/
structure Accepts (s : AdminStore) (jti : Jti) : Prop where
  notExpired : s.now < (claims jti).exp
  notBlacklisted : jti ∉ s.userBlacklist
  isAdmin : (claims jti).isAdmin = true

/-- The token is of no use any more. -/
def Spent (s : AdminStore) (jti : Jti) : Prop := jti ∈ s.jtis ∨ ¬s.Accepts claims jti

/-- The clock does not go back, and no identifier is taken out. -/
structure Before (s s' : AdminStore) : Prop where
  now : s.now ≤ s'.now
  userBlacklist : s'.userBlacklist = s.userBlacklist
  jtis : ∀ jti ∈ s.jtis, jti ∈ s'.jtis

variable {claims} {s s' : AdminStore} {jti : Jti}

theorem Accepts.of_before (h : s'.Accepts claims jti) (hb : s.Before s') : s.Accepts claims jti where
  notExpired := lt_of_le_of_lt hb.now h.notExpired
  notBlacklisted := hb.userBlacklist ▸ h.notBlacklisted
  isAdmin := h.isAdmin

theorem Spent.mono (h : s.Spent claims jti) (hb : s.Before s') : s'.Spent claims jti :=
  h.imp (hb.jtis jti) fun h h' => h (h'.of_before hb)

theorem Before.refl (s : AdminStore) : s.Before s := ⟨le_rfl, rfl, fun _ h => h⟩

theorem mem_of_insert_eq_none (h : s.insert claims jti = none) : jti ∈ s.jtis := by
  unfold insert at h
  split at h
  · assumption
  · cases h

theorem insert_eq_some (h : s.insert claims jti = some s') :
    jti ∉ s.jtis ∧ jti ∈ s'.jtis ∧ s.Before s' := by
  unfold insert at h
  split at h
  · cases h
  · next hnew =>
    cases h
    refine ⟨hnew, by simp [jtis], le_rfl, rfl, fun j hj => ?_⟩
    rw [jtis, List.map_append]
    exact List.mem_append_left _ hj

theorem refreshToken_eq_ok {cookie : RefreshCookie} (h : s.refreshToken claims cookie = .ok jti) :
    cookie = .token jti ∧ s.now < (claims jti).exp ∧ jti ∉ s.userBlacklist := by
  unfold refreshToken at h
  split at h
  · cases h
  · cases h
  · split at h
    · cases h
    · next hlive =>
      split at h
      · cases h
      · next hlisted =>
        cases h
        exact ⟨rfl, not_le.1 hlive, hlisted⟩

theorem refreshToken_eq_error {message : String}
    (h : s.refreshToken claims (.token jti) = .error message) : ¬s.Accepts claims jti := by
  rintro ⟨hlive, hlisted, -⟩
  rw [refreshToken, if_neg (not_le.2 hlive), if_neg hlisted] at h
  cases h

end AdminStore

namespace AdminTask

variable {claims : Jti → AdminClaims}

/-- What a step of a request does. -/
inductive Moves (claims : Jti → AdminClaims) (s : AdminStore) :
    AdminTask → AdminStore → AdminTask → Prop where
  | refused {jti : Jti} (t : AdminRefresh) (message : String) : s.Spent claims jti →
      Moves claims s (refresh (.token jti) t) s (refresh (.token jti) (.answered (.unauthorized message)))
  | accepted {jti : Jti} : s.Accepts claims jti →
      Moves claims s (refresh (.token jti) .decoding) s (refresh (.token jti) .consuming)
  | inserted {jti : Jti} {s' : AdminStore} : s.insert claims jti = some s' →
      Moves claims s (refresh (.token jti) .consuming) s' (refresh (.token jti) .findingAdmin)
  | unknown {jti : Jti} : Moves claims s (refresh (.token jti) .findingAdmin) s
      (refresh (.token jti) (.answered (.unauthorized "Admin user not found.")))
  | paired {jti : Jti} (p : AdminPair) : Moves claims s (refresh (.token jti) .findingAdmin) s
      (refresh (.token jti) (.answered (.pair p)))
  | outside {cookie : RefreshCookie} {t t' : AdminRefresh} : (∀ jti, cookie ≠ .token jti) →
      Moves claims s (refresh cookie t) s (refresh cookie t')
  | logsOut {cookie : RefreshCookie} {t t' : AdminLogout} {s' : AdminStore} : s.Before s' →
      (∀ jti, cookie = .token jti → t' = .answered .loggedOut → s'.Spent claims jti) →
      Moves claims s (logout cookie t) s' (logout cookie t')

variable {s s' : AdminStore} {r : AdminHeard} {t t' : AdminTask}

theorem refresh_moves {cookie : RefreshCookie} {t t' : AdminRefresh}
    (h : t.step claims s r cookie = some (s', t')) :
    Moves claims s (refresh cookie t) s' (refresh cookie t') := by
  cases cookie with
  | token jti =>
    cases t with
    | decoding =>
      simp only [AdminRefresh.step, if_neg (show RefreshCookie.token jti ≠ .none from nofun)] at h
      split at h
      · next hrefuses =>
        cases h
        exact .refused _ _ (Or.inr (AdminStore.refreshToken_eq_error hrefuses))
      · next hdecodes =>
        obtain ⟨heq, hlive, hlisted⟩ := AdminStore.refreshToken_eq_ok hdecodes
        cases heq
        split at h
        · next hadmin =>
          cases h
          exact .accepted ⟨hlive, hlisted, hadmin⟩
        · next hadmin =>
          cases h
          exact .refused _ _ (Or.inr fun h => hadmin h.isAdmin)
    | consuming =>
      simp only [AdminRefresh.step] at h
      split at h
      · next hinsert =>
        cases h
        exact .refused _ _ (Or.inl (AdminStore.mem_of_insert_eq_none hinsert))
      · next hinsert =>
        cases h
        exact .inserted hinsert
    | findingAdmin =>
      simp only [AdminRefresh.step] at h
      split at h
      · cases h
        exact .unknown
      · cases h
        exact .paired _
    | answered a => cases h
  | none | garbled =>
    have hs : s' = s := by
      cases t with
      | decoding =>
        simp only [AdminRefresh.step, AdminStore.refreshToken] at h
        split at h <;> cases h <;> rfl
      | consuming | findingAdmin | answered a => cases h
    subst hs
    exact .outside nofun

theorem logout_moves {cookie : RefreshCookie} {t t' : AdminLogout}
    (h : t.step claims s r cookie = some (s', t')) :
    Moves claims s (logout cookie t) s' (logout cookie t') := by
  cases t with
  | authenticating =>
    simp only [AdminLogout.step] at h
    split at h
    · cases h
      exact .logsOut (.refl s) fun _ _ h => by cases h
    · cases h
      exact .logsOut (.refl s) fun _ _ h => by cases h
  | decoding =>
    simp only [AdminLogout.step] at h
    split at h
    · next hrefuses =>
      cases h
      refine .logsOut (.refl s) fun jti hcookie _ => Or.inr ?_
      exact AdminStore.refreshToken_eq_error (hcookie ▸ hrefuses)
    · cases h
      exact .logsOut (.refl s) fun _ _ h => by cases h
  | getting =>
    cases cookie with
    | token jti =>
      cases h
      refine .logsOut (.refl s) fun j hcookie hanswered => Or.inl ?_
      cases hcookie
      split at hanswered
      · assumption
      · cases hanswered
    | none | garbled => cases h
  | creating =>
    cases cookie with
    | token jti =>
      cases h
      cases hinsert : s.insert claims jti with
      | none =>
        refine .logsOut (.refl s) fun j hcookie _ => Or.inl ?_
        cases hcookie
        exact AdminStore.mem_of_insert_eq_none hinsert
      | some s' =>
        obtain ⟨-, hmem, hbefore⟩ := AdminStore.insert_eq_some hinsert
        refine .logsOut hbefore fun j hcookie _ => Or.inl ?_
        cases hcookie
        exact hmem
    | none | garbled => cases h
  | answered a => cases h

theorem step_moves (h : t.step claims s r = some (s', t')) : Moves claims s t s' t' := by
  cases t with
  | refresh cookie t =>
    obtain ⟨⟨s', t'⟩, hstep, heq⟩ := Option.map_eq_some_iff.1 h
    cases heq
    exact refresh_moves hstep
  | logout cookie t =>
    obtain ⟨⟨s', t'⟩, hstep, heq⟩ := Option.map_eq_some_iff.1 h
    cases heq
    exact logout_moves hstep

theorem Moves.before (h : Moves claims s t s' t') : s.Before s' := by
  cases h with
  | inserted hinsert => exact (AdminStore.insert_eq_some hinsert).2.2
  | logsOut hbefore => exact hbefore
  | _ => exact .refl _

/-- A refresh without a token of the server neither consumes nor completes one. -/
theorem refresh_outside {cookie : RefreshCookie} (h : ∀ jti, cookie ≠ .token jti) (t : AdminRefresh) :
    (refresh cookie t).consumed = none ∧ (refresh cookie t).consumes = none ∧
      (refresh cookie t).completed = none := by
  cases cookie with
  | token jti => exact absurd rfl (h jti)
  | none | garbled => exact ⟨rfl, rfl, rfl⟩

/-- A refresh gets beyond its insert only by the insert, of an identifier that was not there. -/
theorem Moves.consumed (h : Moves claims s t s' t') {jti : Jti} (hc : t'.consumed = some jti) :
    t.consumed = some jti ∨ (t.consumes = some jti ∧ jti ∉ s.jtis ∧ jti ∈ s'.jtis) := by
  cases h with
  | inserted hinsert =>
    obtain ⟨hnew, hmem, -⟩ := AdminStore.insert_eq_some hinsert
    cases hc
    exact Or.inr ⟨rfl, hnew, hmem⟩
  | paired p => exact Or.inl hc
  | outside hcookie => simp [(refresh_outside hcookie _).1] at hc
  | refused | accepted | unknown | logsOut => cases hc

theorem Moves.consumes (h : Moves claims s t s' t') {jti : Jti} (hc : t'.consumes = some jti) :
    s.Accepts claims jti := by
  cases h with
  | accepted haccepts =>
    cases hc
    exact haccepts
  | outside hcookie => simp [(refresh_outside hcookie _).2.1] at hc
  | refused | inserted | unknown | paired | logsOut => cases hc

end AdminTask

/-! ## Every interleaving -/

/-- Who has consumed an identifier has inserted it, and who is answered leaves it spent. -/
structure AdminTask.Leaves (claims : Jti → AdminClaims) (s : AdminStore) (t : AdminTask) : Prop where
  consumed : ∀ jti, t.consumed = some jti → jti ∈ s.jtis
  completed : ∀ jti, t.completed = some jti → s.Spent claims jti

section Server

variable {claims : Jti → AdminClaims} {s s' : AdminStore} {t t' : AdminTask}
  {p q r : Pool AdminStore AdminTask} {a : Action AdminTask AdminHeard}

theorem AdminTask.Leaves.mono (h : t.Leaves claims s) (hb : s.Before s') : t.Leaves claims s' where
  consumed jti hc := hb.jtis jti (h.consumed jti hc)
  completed jti hc := (h.completed jti hc).mono hb

theorem AdminTask.Leaves.of_begins (h : t.Begins) : t.Leaves claims s := by
  cases t with
  | refresh cookie t =>
    obtain rfl : t = .decoding := h
    cases cookie <;> exact ⟨nofun, nofun⟩
  | logout cookie t =>
    obtain rfl : t = .authenticating := h
    cases cookie <;> exact ⟨nofun, nofun⟩

theorem AdminTask.Moves.leaves (h : Moves claims s t s' t') (ht : t.Leaves claims s) :
    t'.Leaves claims s' where
  consumed jti hc := by
    rcases h.consumed hc with hc | ⟨-, -, hmem⟩
    · exact h.before.jtis jti (ht.consumed jti hc)
    · exact hmem
  completed jti hc := by
    cases h with
    | refused t message hspent =>
      cases hc
      exact hspent
    | unknown =>
      cases hc
      exact Or.inl (ht.consumed jti rfl)
    | paired p =>
      cases hc
      exact Or.inl (ht.consumed jti rfl)
    | outside hcookie => simp [(refresh_outside hcookie _).2.2] at hc
    | @logsOut cookie t t' s' hbefore hspent =>
      unfold completed at hc
      split at hc
      · next heq => cases heq
      · next heq =>
        cases heq
        cases hc
        exact hspent jti rfl rfl
      · cases hc
    | accepted | inserted => cases hc

theorem AdminTask.Begins.idle (h : t.Begins) : t.consumed = none ∧ t.consumes = none := by
  cases t with
  | refresh cookie t =>
    obtain rfl : t = .decoding := h
    cases cookie <;> exact ⟨rfl, rfl⟩
  | logout cookie t => cases cookie <;> exact ⟨rfl, rfl⟩

/-- One action, with the clock. -/
theorem adminServer_next (hn : (adminServer claims).Next p a q) :
    (∃ t : AdminTask, t.Begins ∧ q = ⟨p.store, p.threads ++ [t]⟩) ∨
    ∃ (i : ℕ) (t t' : AdminTask) (s₀ s' : AdminStore), p.threads[i]? = some t ∧
      p.store.Before s₀ ∧ AdminTask.Moves claims s₀ t s' t' ∧
      q = ⟨s', p.threads.set i t' ++ []⟩ := by
  cases hn with
  | @arrive t ht => exact Or.inl ⟨t, ht, rfl⟩
  | @run i r t t' s' new hi hs =>
    refine Or.inr ⟨i, t, t', { p.store with now := r.now }, s', hi, ?_⟩
    simp only [adminServer] at hs
    split at hs
    · next hnow =>
      obtain ⟨⟨s', t'⟩, hstep, heq⟩ := Option.map_eq_some_iff.1 hs
      cases heq
      exact ⟨⟨hnow, rfl, fun _ h => h⟩, AdminTask.step_moves hstep, rfl⟩
    · cases hs

/-- What answered requests leave, and one consumer at most of each identifier. -/
structure AdminTokensKept (claims : Jti → AdminClaims) (p : Pool AdminStore AdminTask) : Prop where
  leaves : ∀ (i : ℕ) (t : AdminTask), p.threads[i]? = some t → t.Leaves claims p.store
  consumer : ∀ jti, AtMostOne (fun t => t.consumed = some jti) p.threads

theorem AdminTokensKept.next (hp : AdminTokensKept claims p) (hn : (adminServer claims).Next p a q) :
    AdminTokensKept claims q := by
  rcases adminServer_next hn with ⟨t, hbegins, rfl⟩ | ⟨i, t, t', s₀, s', hi, hclock, hm, rfl⟩
  · refine ⟨fun j u hj => ?_, fun jti => (hp.consumer jti).snoc (by simp [hbegins.idle.1])⟩
    rcases getElem?_snoc hj with hj | ⟨-, rfl⟩
    · exact hp.leaves j u hj
    · exact .of_begins hbegins
  · have hlt := (List.getElem?_eq_some_iff.1 hi).1
    have hothers : ∀ (j : ℕ) (u : AdminTask), p.threads[j]? = some u → u.Leaves claims s₀ :=
      fun j u hj => (hp.leaves j u hj).mono hclock
    refine ⟨forall_set_append hlt (hm.leaves (hothers i t hi)) (by simp)
      fun j u _ hj => (hothers j u hj).mono hm.before, fun jti => ?_⟩
    by_cases hc : t'.consumed = some jti
    · rcases hm.consumed hc with ht | ⟨-, hnew, -⟩
      · exact (hp.consumer jti).keep hi (fun _ => ht) (by simp)
      · exact AtMostOne.take hi (fun j u _ hj hu => hnew ((hothers j u hj).consumed jti hu)) (by simp)
    · exact (hp.consumer jti).keep hi (fun h => absurd h hc) (by simp)

/-- The identifier is spent, and no request from number `n` on is going to consume it. -/
structure TooLate (claims : Jti → AdminClaims) (n : ℕ) (jti : Jti) (p : Pool AdminStore AdminTask) :
    Prop where
  spent : p.store.Spent claims jti
  late : ∀ (i : ℕ) (t : AdminTask), p.threads[i]? = some t → n ≤ i →
    t.consumed ≠ some jti ∧ (t.consumes = some jti → jti ∈ p.store.jtis)

theorem TooLate.next {n : ℕ} {jti : Jti} (hp : TooLate claims n jti p)
    (hn : (adminServer claims).Next p a q) : TooLate claims n jti q := by
  rcases adminServer_next hn with ⟨t, hbegins, rfl⟩ | ⟨i, t, t', s₀, s', hi, hclock, hm, rfl⟩
  · refine ⟨hp.spent, fun j u hj hle => ?_⟩
    rcases getElem?_snoc hj with hj | ⟨-, rfl⟩
    · exact hp.late j u hj hle
    · simp [hbegins.idle.1, hbegins.idle.2]
  · have hspent := hp.spent.mono hclock
    refine ⟨hspent.mono hm.before, fun j u hj hle => ?_⟩
    rcases getElem?_set_append (List.getElem?_eq_some_iff.1 hi).1 hj with
      ⟨rfl, rfl⟩ | ⟨-, hj⟩ | ⟨-, hu⟩
    · obtain ⟨hnever, hinserted⟩ := hp.late j t hi hle
      refine ⟨fun hc => ?_, fun hc => ?_⟩
      · rcases hm.consumed hc with ht | ⟨ht, hnew, -⟩
        · exact hnever ht
        · exact hnew (hclock.jtis jti (hinserted ht))
      · rcases hspent with hspent | hspent
        · exact hm.before.jtis jti hspent
        · exact absurd (hm.consumes hc) hspent
    · obtain ⟨hnever, hinserted⟩ := hp.late j u hj hle
      exact ⟨hnever, fun hc => hm.before.jtis jti (hclock.jtis jti (hinserted hc))⟩
    · simp at hu

end Server

/-- In every interleaving, an identifier leads to one pair at most, and to none for a request that
comes after a refresh or a logout of it has been answered. -/
theorem adminTokens_once {claims : Jti → AdminClaims} {p q r : Pool AdminStore AdminTask}
    (hstart : ∀ t ∈ p.threads, t.Begins) (hq : (adminServer claims).Run (fun _ _ => True) p q)
    (hr : (adminServer claims).Run (fun _ _ => True) q r) :
    (∀ jti, AtMostOne (fun t => t.won = some jti) r.threads) ∧
    ∀ jti, (∃ t ∈ q.threads, t.completed = some jti) →
      ∀ (i : ℕ) (t : AdminTask), r.threads[i]? = some t → q.threads.length ≤ i →
        t.won ≠ some jti := by
  have hkept : AdminTokensKept claims p := by
    refine ⟨fun i t hi => .of_begins (hstart t (List.mem_of_getElem? hi)), fun jti i j t u hi _ ht => ?_⟩
    have hnone := (hstart t (List.mem_of_getElem? hi)).idle.1
    exact absurd (hnone.symm.trans ht) nofun
  have hkept_q : AdminTokensKept claims q := hq.invariant (fun _ _ _ h _ hn => h.next hn) hkept
  have hkept_r : AdminTokensKept claims r := hr.invariant (fun _ _ _ h _ hn => h.next hn) hkept_q
  refine ⟨fun jti => (hkept_r.consumer jti).mono fun t ht => AdminTask.consumed_of_won ht, ?_⟩
  rintro jti ⟨t, ht, hcompleted⟩
  obtain ⟨i, hi⟩ := List.getElem?_of_mem ht
  have hlate : TooLate claims q.threads.length jti q := by
    refine ⟨(hkept_q.leaves i t hi).completed jti hcompleted, fun j u hj hle => ?_⟩
    rw [List.getElem?_eq_none hle] at hj
    cases hj
  have hlate_r := hr.invariant (I := TooLate claims q.threads.length jti)
    (fun _ _ _ h _ hn => h.next hn) hlate
  exact fun j u hj hle hwon => (hlate_r.late j u hj hle).1 (AdminTask.consumed_of_won hwon)

/-- Two tabs refresh with one token, and the token is replayed when both are answered. -/
theorem adminTokens_once_replayed :
    ∃ q r : Pool AdminStore AdminTask,
      q.threads.map AdminTask.won = [some "first", none] ∧
      r.threads.map AdminTask.completed = [some "first", some "first", some "first"] ∧
      (∀ jti, AtMostOne (fun t => t.won = some jti) r.threads) ∧
      ∀ (i : ℕ) (t : AdminTask), r.threads[i]? = some t → 2 ≤ i → t.won ≠ some "first" := by
  let claims : Jti → AdminClaims := fun _ => { userId := 1, isAdmin := true, exp := 100 }
  let tab : AdminTask := .refresh (.token "first") .decoding
  let p : Pool AdminStore AdminTask := ⟨{ admins := [{ id := 1 }] }, [tab, tab]⟩
  obtain ⟨q, hq, r, hr, hwon, hdone, hcompleted⟩ : ∃ q ∈ (adminServer claims).exec
      [.run 0 {}, .run 1 {}, .run 0 {}, .run 1 {}, .run 0 { generated := "second" }] p,
      ∃ r ∈ (adminServer claims).exec [.arrive tab, .run 2 {}, .run 2 {}] q,
        q.threads.map AdminTask.won = [some "first", none] ∧
          (∃ t ∈ q.threads, t.completed = some "first") ∧
          r.threads.map AdminTask.completed = [some "first", some "first", some "first"] := by
    decide +kernel
  have hlen : q.threads.length = 2 := by simpa using congrArg List.length hwon
  obtain ⟨hone, hlate⟩ := adminTokens_once (p := p) (by decide) (.of_exec hq) (.of_exec hr)
  exact ⟨q, r, hwon, hcompleted, hone, hlen ▸ hlate "first" hdone⟩

end NbeAdvisor
