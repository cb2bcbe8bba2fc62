import NbeAdvisor.AdminTokens

/-!
# Revocation while tokens rotate

Refreshes of users' tokens, password resets and logouts of all devices, in any interleaving of their
statements. A refresh checks that its token is not blacklisted, blacklists it, and records the token
that it issues in its place. A revocation lists the outstanding tokens of the user once, all but the
one that is excepted, and then blacklists them one by one.

A refresh that has passed its check when the tokens are listed records a token that is on no list,
and the session goes on after the revocation has been answered (`listedTooEarly_survives`). In a run
in which no refresh of a token is between its check and its record when a revocation lists that
token, or passes its check before a revocation that has listed the token has blacklisted it, no
token of the user is exchanged after the answer but the one that was excepted and those that were
rotated from it since (`revocation_ends_sessions`). Another token of the same login is exchanged no
more.

The check of a refresh is the blacklist and then the account, which no request here switches off, so
both are one step. The identifiers that the generator makes are new. `rotatedFrom` says of each
token in whose place it was issued, and in whose place that one was, back to the token of the login.
-/

namespace NbeAdvisor

open Interleave

/-- `REFRESH_TOKEN_LIFETIME`. -/
def refreshTokenLifetime : Instant := 7 * 24 * 60 * 60 * 10 ^ 6

/-- A row of `User`. -/
structure LoginUser where
  id : UserId
  password : String
  isActive : Bool := true
  deriving DecidableEq

/-- A row of `OutstandingToken` of simplejwt, with the tokens it was rotated from, the last one
first. -/
structure OutstandingToken where
  jti : Jti
  user : UserId
  expiresAt : Instant
  rotatedFrom : List Jti := []
  deriving DecidableEq

/-- The token that is issued in the place of this one. -/
def OutstandingToken.rotated (k : OutstandingToken) (new : Jti) (expiresAt : Instant) :
    OutstandingToken :=
  { jti := new, user := k.user, expiresAt, rotatedFrom := k.jti :: k.rotatedFrom }

/-- The tables, with the blacklist by identifiers. -/
structure SessionStore where
  users : List LoginUser := []
  outstanding : List OutstandingToken := []
  blacklist : List Jti := []
  deriving DecidableEq

namespace SessionStore

variable (s : SessionStore)

/-- The tokens that the table lists. -/
def jtis : List Jti := s.outstanding.map OutstandingToken.jti

/-- The token of a `jti`. -/
def token (jti : Jti) : Option OutstandingToken := s.outstanding.find? fun k => k.jti = jti

/-- `RefreshToken(raw_token)` of simplejwt, with the message of its `TokenError`. The server has
signed the outstanding tokens and no others. -/
def refreshToken (now : Instant) : RefreshCookie → Except String OutstandingToken
  | .none | .garbled => .error "Token is invalid"
  | .token jti =>
    match s.token jti with
    | none => .error "Token is invalid"
    | some k =>
      if k.expiresAt ≤ now then .error "Token is expired"
      else if jti ∈ s.blacklist then .error "Token is blacklisted"
      else .ok k

/-- The check of a refresh : the token and the account. -/
def admits (now : Instant) (cookie : RefreshCookie) : Except String OutstandingToken :=
  if cookie = .none then .error "No refresh token cookie present."
  else
    match s.refreshToken now cookie with
    | .error message => .error message
    | .ok k =>
      if s.users.any fun u => u.id = k.user ∧ u.isActive then .ok k
      else .error "No active account found for the given token."

/-- The insert of `BlacklistedToken.objects.get_or_create`. Where it meets the unique constraint the
row is there. -/
def blacklistToken (jti : Jti) : SessionStore :=
  if jti ∈ s.blacklist then s else { s with blacklist := s.blacklist ++ [jti] }

/-- A token is listed. -/
def record (k : OutstandingToken) : SessionStore := { s with outstanding := s.outstanding ++ [k] }

/-- `set_password`, saved. -/
def setPassword (user : UserId) (password : String) : SessionStore :=
  { s with users := Keyed.modify LoginUser.id user (fun u => { u with password }) s.users }

/-- The query of `_blacklist_all_outstanding_tokens`. -/
def listed (user : UserId) (except : Option Jti) : List Jti :=
  (s.outstanding.filter fun k => k.user = user ∧ except ≠ some k.jti).map OutstandingToken.jti

end SessionStore

/-! ## The requests -/

/-- What a step gets from the clock, the generator, the ticket store and the check of the access
token. -/
structure SessionHeard where
  now : Instant := 0
  generated : Jti := ""
  redeemed : Option (UserId × String) := none
  accessError : Option String := none

/-- The points of `_blacklist_all_outstanding_tokens`. -/
inductive Revocation where
  | listing (user : UserId) (except : Option Jti)
  | getting (user : UserId) (except : Option Jti) (listed todo : List Jti)
  | inserting (user : UserId) (except : Option Jti) (listed : List Jti) (jti : Jti) (todo : List Jti)
  | done (user : UserId) (except : Option Jti) (listed : List Jti)
  deriving DecidableEq

/-- The points of a refresh. -/
inductive TokenRefresh where
  | checking
  | getting
  | inserting
  | recording
  | exchanged (refresh : Jti)
  /-- A 401. -/
  | unauthorized (message : String)
  deriving DecidableEq

/-- The points of a password reset. -/
inductive ResetConfirm where
  | redeeming
  | findingUser (user : UserId) (token : String)
  | saving (user : UserId)
  | revoking (t : Revocation)
  /-- `"Invalid or expired link."`, with a 422. -/
  | invalid
  deriving DecidableEq

/-- The points of a logout of all sessions. -/
inductive LogoutAll where
  | authenticating
  | decoding
  | revoking (t : Revocation)
  /-- A 401. -/
  | unauthorized (message : String)
  deriving DecidableEq

/-- The requests, each with its cookie. -/
inductive SessionTask where
  | refresh (cookie : RefreshCookie) (t : TokenRefresh)
  | reset (t : ResetConfirm)
  | logoutAll (user : UserId) (cookie : RefreshCookie) (t : LogoutAll)
  deriving DecidableEq

/-- One statement of `_blacklist_all_outstanding_tokens`. -/
def Revocation.step (s : SessionStore) : Revocation → Option (SessionStore × Revocation)
  | listing user except =>
    some (s, getting user (given except) (s.listed user (given except))
      (s.listed user (given except)))
  | getting user except listed [] => some (s, done user except listed)
  | getting user except listed (jti :: todo) =>
    some (s, if jti ∈ s.blacklist then getting user except listed todo
      else inserting user except listed jti todo)
  | inserting user except listed jti todo =>
    some (s.blacklistToken jti, getting user except listed todo)
  | done _ _ _ => none

/-- A step of `RefreshView.post` with the serializer of simplejwt. -/
def TokenRefresh.step (s : SessionStore) (r : SessionHeard) (cookie : RefreshCookie) :
    TokenRefresh → Option (SessionStore × TokenRefresh)
  | checking =>
    match s.admits r.now cookie with
    | .error message => some (s, unauthorized message)
    | .ok _ => some (s, getting)
  | getting =>
    match cookie with
    | .token jti => some (s, if jti ∈ s.blacklist then recording else inserting)
    | _ => none
  | inserting =>
    match cookie with
    | .token jti => some (s.blacklistToken jti, recording)
    | _ => none
  | recording =>
    match cookie with
    | .token jti =>
      match s.token jti with
      | none => none
      | some k =>
        if r.generated ∈ s.jtis then none
        else
          some (s.record (k.rotated r.generated (r.now + refreshTokenLifetime)),
            exchanged r.generated)
    | _ => none
  | exchanged _ | unauthorized _ => none

/-- A step of `PasswordResetConfirmView.post`, after the serializer. -/
def ResetConfirm.step (checkToken : LoginUser → String → Bool) (s : SessionStore) (r : SessionHeard) :
    ResetConfirm → Option (SessionStore × ResetConfirm)
  | redeeming =>
    match r.redeemed with
    | none => some (s, invalid)
    | some (user, token) => some (s, findingUser user token)
  | findingUser user token =>
    match s.users.find? fun u => u.id = user with
    | none => some (s, invalid)
    | some u => some (s, if checkToken u token then saving user else invalid)
  | saving user => some (s.setPassword user r.generated, revoking (.listing user none))
  | revoking t => (t.step s).map fun (s, t) => (s, revoking t)
  | invalid => none

/-- A step of `LogoutAllDevicesView.post`. -/
def LogoutAll.step (s : SessionStore) (r : SessionHeard) (user : UserId) (cookie : RefreshCookie) :
    LogoutAll → Option (SessionStore × LogoutAll)
  | authenticating =>
    match r.accessError with
    | some message => some (s, unauthorized message)
    | none => some (s, decoding)
  | decoding =>
    match s.refreshToken r.now cookie with
    | .error _ => some (s, revoking (.listing user none))
    | .ok k => some (s, revoking (.listing user (some k.jti)))
  | revoking t => (t.step s).map fun (s, t) => (s, revoking t)
  | unauthorized _ => none

/-- One statement of a request. -/
def SessionTask.step (checkToken : LoginUser → String → Bool) (s : SessionStore) (r : SessionHeard) :
    SessionTask → Option (SessionStore × SessionTask)
  | refresh cookie t => (t.step s r cookie).map fun (s, t) => (s, refresh cookie t)
  | reset t => (t.step checkToken s r).map fun (s, t) => (s, reset t)
  | logoutAll user cookie t =>
    (t.step s r user cookie).map fun (s, t) => (s, logoutAll user cookie t)

/-- A request comes in at its first point. -/
def SessionTask.Begins : SessionTask → Prop
  | refresh _ t => t = .checking
  | reset t => t = .redeeming
  | logoutAll _ _ t => t = .authenticating

instance : DecidablePred SessionTask.Begins
  | .refresh _ t => inferInstanceAs (Decidable (t = .checking))
  | .reset t => inferInstanceAs (Decidable (t = .redeeming))
  | .logoutAll _ _ t => inferInstanceAs (Decidable (t = .authenticating))

/-- Requests of any number of clients, in any order. -/
def sessionServer (checkToken : LoginUser → String → Bool) :
    System SessionStore SessionTask SessionHeard where
  step _ s t r := (t.step checkToken s r).map fun (s, t) => (s, t, [])
  arrives := SessionTask.Begins

instance (checkToken : LoginUser → String → Bool) :
    DecidablePred (sessionServer checkToken).arrives :=
  inferInstanceAs (DecidablePred SessionTask.Begins)

/-! ## What a step does -/

namespace SessionStore

theorem subset_blacklistToken (s : SessionStore) (jti : Jti) :
    s.blacklist ⊆ (s.blacklistToken jti).blacklist := by
  unfold blacklistToken
  split
  · exact List.Subset.refl _
  · exact List.subset_append_left _ _

theorem outstanding_blacklistToken (s : SessionStore) (jti : Jti) :
    (s.blacklistToken jti).outstanding = s.outstanding := by
  unfold blacklistToken
  split <;> rfl

theorem token_eq_some {s : SessionStore} {jti : Jti} {k : OutstandingToken}
    (h : s.token jti = some k) : k ∈ s.outstanding ∧ k.jti = jti :=
  ⟨List.mem_of_find?_eq_some h, by simpa using List.find?_some h⟩

theorem cookie_of_refreshToken {s : SessionStore} {now : Instant} {cookie : RefreshCookie}
    {k : OutstandingToken} (h : s.refreshToken now cookie = .ok k) : cookie = .token k.jti := by
  unfold refreshToken at h
  split at h
  · cases h
  · cases h
  · split at h
    · cases h
    · next hk =>
      split at h
      · cases h
      · split at h
        · cases h
        · cases h
          rw [(token_eq_some hk).2]

theorem not_mem_of_admits {s : SessionStore} {now : Instant} {jti : Jti} {k : OutstandingToken}
    (h : s.admits now (.token jti) = .ok k) : jti ∉ s.blacklist := by
  unfold admits at h
  rw [if_neg (show RefreshCookie.token jti ≠ .none from nofun)] at h
  split at h
  · cases h
  · next hok =>
    unfold refreshToken at hok
    dsimp only at hok
    split at hok
    · cases hok
    · split at hok
      · cases hok
      · split at hok
        · cases hok
        · assumption

end SessionStore

namespace Revocation

/-- Whose tokens were listed, with what exception, and which they were. -/
def target : Revocation → Option (UserId × Option Jti × List Jti)
  | listing _ _ => none
  | getting user except listed _ | inserting user except listed _ _ | done user except listed =>
    some (user, except, listed)

/-- Whose tokens are revoked. -/
def user : Revocation → UserId
  | listing user _ | getting user _ _ _ | inserting user _ _ _ _ | done user _ _ => user

/-- The token that is spared. -/
def except : Revocation → Option Jti
  | listing _ except | getting _ except _ _ | inserting _ except _ _ _ | done _ except _ => except

/-- What is still to be blacklisted. -/
def waiting : Revocation → List Jti
  | getting _ _ _ todo => todo
  | inserting _ _ _ jti todo => jti :: todo
  | listing _ _ | done _ _ _ => []

end Revocation

namespace SessionTask

/-- The token that has been admitted and is not yet replaced. -/
def rotating : SessionTask → Option Jti
  | refresh (.token jti) .getting | refresh (.token jti) .inserting
  | refresh (.token jti) .recording => some jti
  | _ => none

/-- The token that was exchanged for an access token. -/
def exchanged : SessionTask → Option Jti
  | refresh (.token jti) (.exchanged _) => some jti
  | _ => none

/-- The revocation of the request, once it has come to it. -/
def revocation : SessionTask → Option Revocation
  | reset (.revoking t) | logoutAll _ _ (.revoking t) => some t
  | _ => none

/-- The token that is checked next. -/
def checks : SessionTask → Option Jti
  | refresh (.token jti) .checking => some jti
  | _ => none

/-- The tokens that are listed next, as a user and an exception. -/
def lists (t : SessionTask) : Option (UserId × Option Jti) :=
  t.revocation.bind fun
    | .listing user except => some (user, given except)
    | _ => none

/-- What a step of a request does. -/
inductive Moves (s : SessionStore) (r : SessionHeard) :
    SessionTask → SessionStore → SessionTask → Prop where
  | idle {t t' : SessionTask} {s' : SessionStore} : s'.outstanding = s.outstanding →
      s'.blacklist = s.blacklist → t'.rotating = none → t'.exchanged = none →
      (∀ rev ∈ t'.revocation, rev.target = none) → Moves s r t s' t'
  | checked {jti : Jti} {k : OutstandingToken} : s.admits r.now (.token jti) = .ok k →
      Moves s r (refresh (.token jti) .checking) s (refresh (.token jti) .getting)
  | rotates {jti : Jti} {t t' : SessionTask} {s' : SessionStore} :
      s'.outstanding = s.outstanding → s.blacklist ⊆ s'.blacklist → t.rotating = some jti →
      t'.rotating = some jti → t'.exchanged = none → t'.revocation = none → Moves s r t s' t'
  | recorded {jti new : Jti} {k : OutstandingToken} (expiresAt : Instant) :
      s.token jti = some k → new ∉ s.jtis → Moves s r (refresh (.token jti) .recording)
        (s.record (k.rotated new expiresAt)) (refresh (.token jti) (.exchanged new))
  | revokes {t t' : SessionTask} {rev rev' : Revocation} {s' : SessionStore} :
      t.revocation = some rev → rev.step s = some (s', rev') → t'.revocation = some rev' →
      t'.rotating = none → t'.exchanged = none → Moves s r t s' t'

variable {checkToken : LoginUser → String → Bool} {s s' : SessionStore} {r : SessionHeard}
  {t t' : SessionTask}

theorem refresh_moves {cookie : RefreshCookie} {t t' : TokenRefresh}
    (h : t.step s r cookie = some (s', t')) :
    Moves s r (refresh cookie t) s' (refresh cookie t') := by
  cases cookie with
  | token jti =>
    cases t with
    | checking =>
      simp only [TokenRefresh.step] at h
      split at h
      · cases h
        exact .idle rfl rfl rfl rfl nofun
      · next hadmits =>
        cases h
        exact .checked hadmits
    | getting =>
      cases h
      split
      · exact .rotates rfl (List.Subset.refl _) rfl rfl rfl rfl
      · exact .rotates rfl (List.Subset.refl _) rfl rfl rfl rfl
    | inserting =>
      cases h
      exact .rotates (s.outstanding_blacklistToken jti) (s.subset_blacklistToken jti) rfl rfl rfl rfl
    | recording =>
      simp only [TokenRefresh.step] at h
      split at h
      · cases h
      · next hk =>
        split at h
        · cases h
        · next hnew =>
          cases h
          exact .recorded _ hk hnew
    | exchanged new => cases h
    | unauthorized message => cases h
  | none | garbled =>
    have hs : s' = s := by
      cases t with
      | checking =>
        simp only [TokenRefresh.step] at h
        split at h <;> cases h <;> rfl
      | _ => cases h
    subst hs
    exact .idle rfl rfl rfl rfl nofun

theorem reset_moves {t t' : ResetConfirm} (h : t.step checkToken s r = some (s', t')) :
    Moves s r (reset t) s' (reset t') := by
  cases t with
  | redeeming =>
    simp only [ResetConfirm.step] at h
    split at h <;> cases h <;> exact .idle rfl rfl rfl rfl nofun
  | findingUser user token =>
    simp only [ResetConfirm.step] at h
    split at h
    · cases h
      exact .idle rfl rfl rfl rfl nofun
    · cases h
      split <;> exact .idle rfl rfl rfl rfl nofun
  | saving user =>
    cases h
    refine .idle rfl rfl rfl rfl fun rev hrev => ?_
    cases hrev
    rfl
  | revoking t =>
    obtain ⟨⟨s', t'⟩, hstep, heq⟩ := Option.map_eq_some_iff.1 h
    cases heq
    exact .revokes rfl hstep rfl rfl rfl
  | invalid => cases h

theorem logoutAll_moves {user : UserId} {cookie : RefreshCookie} {t t' : LogoutAll}
    (h : t.step s r user cookie = some (s', t')) :
    Moves s r (logoutAll user cookie t) s' (logoutAll user cookie t') := by
  cases t with
  | authenticating =>
    simp only [LogoutAll.step] at h
    split at h <;> cases h <;>
    · refine .idle rfl rfl rfl rfl fun rev hrev => ?_
      cases hrev
  | decoding =>
    simp only [LogoutAll.step] at h
    split at h <;> cases h <;>
    · refine .idle rfl rfl rfl rfl fun rev hrev => ?_
      cases hrev
      rfl
  | revoking t =>
    obtain ⟨⟨s', t'⟩, hstep, heq⟩ := Option.map_eq_some_iff.1 h
    cases heq
    exact .revokes rfl hstep rfl rfl rfl
  | unauthorized message => cases h

theorem step_moves (h : t.step checkToken s r = some (s', t')) : Moves s r t s' t' := by
  cases t with
  | refresh cookie t =>
    obtain ⟨⟨s', t'⟩, hstep, heq⟩ := Option.map_eq_some_iff.1 h
    cases heq
    exact refresh_moves hstep
  | reset t =>
    obtain ⟨⟨s', t'⟩, hstep, heq⟩ := Option.map_eq_some_iff.1 h
    cases heq
    exact reset_moves hstep
  | logoutAll user cookie t =>
    obtain ⟨⟨s', t'⟩, hstep, heq⟩ := Option.map_eq_some_iff.1 h
    cases heq
    exact logoutAll_moves hstep

end SessionTask

/-! ## What a revocation has covered -/

/-- The token is the one that is excepted, or was rotated from that one. -/
def OutstandingToken.Spared (k : OutstandingToken) (except : Option Jti) : Prop :=
  ∃ jti, except = some jti ∧ (k.jti = jti ∨ jti ∈ k.rotatedFrom)

/-- What was rotated from a token that is spared is spared. -/
theorem OutstandingToken.Spared.rotated {k : OutstandingToken} {except : Option Jti}
    (h : k.Spared except) (new : Jti) (expiresAt : Instant) :
    (k.rotated new expiresAt).Spared except := by
  obtain ⟨jti, hexcept, rfl | hfrom⟩ := h
  · exact ⟨k.jti, hexcept, Or.inr List.mem_cons_self⟩
  · exact ⟨jti, hexcept, Or.inr (List.mem_cons_of_mem _ hfrom)⟩

/-- Every token of the user was listed or is spared, and every token that was listed is blacklisted
or is going to be. -/
structure Revocation.Covers (s : SessionStore) (rev : Revocation) : Prop where
  complete : ∀ user except listed, rev.target = some (user, except, listed) →
    ∀ k ∈ s.outstanding, k.user = user → k.jti ∈ listed ∨ k.Spared except
  rest : ∀ user except listed, rev.target = some (user, except, listed) →
    ∀ jti ∈ listed, jti ∈ rev.waiting ∨ jti ∈ s.blacklist

namespace Revocation

variable {s s' : SessionStore} {rev rev' : Revocation}

theorem Covers.of_target (h : rev.target = none) : rev.Covers s where
  complete user except listed ht := by simp [h] at ht
  rest user except listed ht := by simp [h] at ht

theorem Covers.mono (h : rev.Covers s) (ho : s'.outstanding = s.outstanding)
    (hb : s.blacklist ⊆ s'.blacklist) : rev.Covers s' where
  complete user except listed ht := by
    rw [ho]
    exact h.complete user except listed ht
  rest user except listed ht jti hjti := (h.rest user except listed ht jti hjti).imp_right (hb ·)

/-- A token that is recorded in place of one that was not listed. -/
theorem Covers.record (h : rev.Covers s) {k : OutstandingToken} (hk : k ∈ s.outstanding)
    (hunlisted : ∀ user except listed, rev.target = some (user, except, listed) → k.jti ∉ listed)
    (new : Jti) (expiresAt : Instant) : rev.Covers (s.record (k.rotated new expiresAt)) where
  complete user except listed ht x hx hxu := by
    rcases List.mem_append.1 hx with hx | hx
    · exact h.complete user except listed ht x hx hxu
    · obtain rfl := List.mem_singleton.1 hx
      rcases h.complete user except listed ht k hk hxu with hlisted | hspared
      · exact absurd hlisted (hunlisted user except listed ht)
      · exact Or.inr (hspared.rotated new expiresAt)
  rest := h.rest

theorem covers_listed (s : SessionStore) (user : UserId) (except : Option Jti) :
    (getting user except (s.listed user except) (s.listed user except)).Covers s where
  complete u e listed ht k hk hku := by
    cases ht
    by_cases he : except = some k.jti
    · exact Or.inr ⟨k.jti, he, Or.inl rfl⟩
    · refine Or.inl (List.mem_map_of_mem (List.mem_filter.2 ⟨hk, ?_⟩))
      simpa using ⟨hku, he⟩
  rest u e listed ht jti hjti := by
    cases ht
    exact Or.inl hjti

theorem Covers.step (h : rev.Covers s) (hstep : rev.step s = some (s', rev')) : rev'.Covers s' := by
  cases rev with
  | listing user except =>
    cases hstep
    exact covers_listed s user (given except)
  | getting user except listed todo =>
    cases todo with
    | nil =>
      cases hstep
      exact ⟨h.complete, h.rest⟩
    | cons jti todo =>
      cases hstep
      split
      · next hthere =>
        refine ⟨h.complete, fun u e l ht k hk => ?_⟩
        rcases h.rest u e l ht k hk with hw | hb
        · rcases List.mem_cons.1 hw with rfl | hw
          · exact Or.inr hthere
          · exact Or.inl hw
        · exact Or.inr hb
      · exact ⟨h.complete, h.rest⟩
  | inserting user except listed jti todo =>
    cases hstep
    have hb := s.subset_blacklistToken jti
    refine ⟨(h.mono (s.outstanding_blacklistToken jti) hb).complete, fun u e l ht k hk => ?_⟩
    rcases h.rest u e l ht k hk with hw | hk
    · rcases List.mem_cons.1 hw with rfl | hw
      · refine Or.inr ?_
        unfold SessionStore.blacklistToken
        split
        · assumption
        · exact List.mem_append_right _ List.mem_cons_self
      · exact Or.inl hw
    · exact Or.inr (hb hk)
  | done user except listed => cases hstep

theorem step_except (hstep : rev.step s = some (s', rev')) :
    rev'.user = rev.user ∧ ∀ jti, rev'.except = some jti → rev.except = some jti := by
  cases rev with
  | listing user except =>
    cases hstep
    exact ⟨rfl, fun jti h => (given_eq_some.1 h).1⟩
  | getting user except listed todo =>
    cases todo with
    | nil =>
      cases hstep
      exact ⟨rfl, fun _ h => h⟩
    | cons jti todo =>
      cases hstep
      split <;> exact ⟨rfl, fun _ h => h⟩
  | inserting user except listed jti todo =>
    cases hstep
    exact ⟨rfl, fun _ h => h⟩
  | done user except listed => cases hstep

/-- A step lists the tokens of the user, or leaves the list as it is. -/
theorem step_target (hstep : rev.step s = some (s', rev')) : rev'.target = rev.target ∨
    ∃ user except, rev = listing user except ∧
      rev'.target = some (user, given except, s.listed user (given except)) := by
  cases rev with
  | listing user except =>
    cases hstep
    exact Or.inr ⟨user, except, rfl, rfl⟩
  | getting user except listed todo =>
    cases todo with
    | nil =>
      cases hstep
      exact Or.inl rfl
    | cons jti todo =>
      cases hstep
      split <;> exact Or.inl rfl
  | inserting user except listed jti todo =>
    cases hstep
    exact Or.inl rfl
  | done user except listed => cases hstep

theorem step_store (hstep : rev.step s = some (s', rev')) :
    s'.outstanding = s.outstanding ∧ s.blacklist ⊆ s'.blacklist := by
  cases rev with
  | listing user except =>
    cases hstep
    exact ⟨rfl, List.Subset.refl _⟩
  | getting user except listed todo =>
    cases todo <;> cases hstep <;> exact ⟨rfl, List.Subset.refl _⟩
  | inserting user except listed jti todo =>
    cases hstep
    exact ⟨s.outstanding_blacklistToken jti, s.subset_blacklistToken jti⟩
  | done user except listed => cases hstep

end Revocation

/-! ## Runs without the race -/

/-- What is still to be blacklisted by the request. -/
def SessionTask.waiting (t : SessionTask) : List Jti := (t.revocation.map Revocation.waiting).getD []

/-- A refresh passes its check only if no revocation is going to blacklist its token, and a
revocation lists no token that a refresh is rotating. -/
def SessionTask.Apart (p : Pool SessionStore SessionTask) (r : SessionHeard) (t : SessionTask) : Prop :=
  (∀ jti ∈ t.checks, (p.store.admits r.now (.token jti)).isOk → ∀ u ∈ p.threads, jti ∉ u.waiting) ∧
  ∀ x ∈ t.lists, ∀ u ∈ p.threads, ∀ jti ∈ u.rotating, jti ∉ p.store.listed x.1 x.2

instance (p : Pool SessionStore SessionTask) (r : SessionHeard) (t : SessionTask) :
    Decidable (t.Apart p r) :=
  inferInstanceAs (Decidable (_ ∧ _))

/-- Every step of the run is so. -/
def Apart (p : Pool SessionStore SessionTask) : Action SessionTask SessionHeard → Prop
  | .arrive _ => True
  | .run i r => ∀ t ∈ p.threads[i]?, t.Apart p r

instance (p : Pool SessionStore SessionTask) : (a : Action SessionTask SessionHeard) →
    Decidable (Apart p a)
  | .arrive _ => .isTrue trivial
  | .run i r => inferInstanceAs (Decidable (∀ t ∈ p.threads[i]?, t.Apart p r))

/-- No two tokens have one identifier, revocations have covered what they listed, and no token that
was listed is being rotated. -/
structure RevocationsHold (p : Pool SessionStore SessionTask) : Prop where
  jtis : p.store.jtis.Nodup
  covers : ∀ t ∈ p.threads, ∀ rev ∈ t.revocation, rev.Covers p.store
  apart : ∀ t ∈ p.threads, ∀ jti ∈ t.rotating, ∀ u ∈ p.threads, ∀ rev ∈ u.revocation,
    ∀ user except listed, rev.target = some (user, except, listed) → jti ∉ listed

theorem SessionTask.Begins.idle {t : SessionTask} (h : t.Begins) :
    t.rotating = none ∧ t.revocation = none ∧ t.exchanged = none := by
  cases t with
  | refresh cookie t =>
    obtain rfl : t = .checking := h
    cases cookie <;> exact ⟨rfl, rfl, rfl⟩
  | reset t =>
    obtain rfl : t = .redeeming := h
    exact ⟨rfl, rfl, rfl⟩
  | logoutAll user cookie t =>
    obtain rfl : t = .authenticating := h
    exact ⟨rfl, rfl, rfl⟩

section Server

variable {checkToken : LoginUser → String → Bool} {p q r : Pool SessionStore SessionTask}
  {a : Action SessionTask SessionHeard}

theorem sessionServer_next (hn : (sessionServer checkToken).Next p a q) :
    (∃ t : SessionTask, t.Begins ∧ q = ⟨p.store, p.threads ++ [t]⟩) ∨
    ∃ (i : ℕ) (r : SessionHeard) (t t' : SessionTask) (s' : SessionStore), a = .run i r ∧
      p.threads[i]? = some t ∧ t.step checkToken p.store r = some (s', t') ∧
      q = ⟨s', p.threads.set i t'⟩ := by
  cases hn with
  | @arrive t ht => exact Or.inl ⟨t, ht, rfl⟩
  | @run i r t t' s' new hi hs =>
    obtain ⟨⟨s', t'⟩, hstep, heq⟩ := Option.map_eq_some_iff.1 hs
    cases heq
    exact Or.inr ⟨i, r, t, t', s', rfl, hi, hstep, by simp⟩

/-- A request after a step is the one that moved, or one that was there. -/
theorem mem_set {ts : List SessionTask} {i : ℕ} {t' u : SessionTask} (h : u ∈ ts.set i t') :
    u = t' ∨ u ∈ ts := (List.mem_or_eq_of_mem_set h).symm

theorem SessionTask.step_done {s s' : SessionStore} {h : SessionHeard} {t t' : SessionTask}
    {user : UserId} {except : Option Jti} {listed : List Jti}
    (hdone : t.revocation = some (.done user except listed)) :
    t.step checkToken s h ≠ some (s', t') := by
  intro hstep
  unfold revocation at hdone
  split at hdone
  · cases hdone
    cases hstep
  · cases hdone
    cases hstep
  · cases hdone

/-- A token that is being rotated was so before, or has just been admitted. -/
theorem SessionTask.Moves.rotating {s s' : SessionStore} {h : SessionHeard} {t t' : SessionTask}
    (hm : Moves s h t s' t') {jti : Jti} (hr : t'.rotating = some jti) : t.rotating = some jti ∨
      (t.checks = some jti ∧ (s.admits h.now (.token jti)).isOk ∧ jti ∉ s.blacklist) := by
  cases hm with
  | checked hadmits =>
    cases hr
    exact Or.inr ⟨rfl, by rw [hadmits]; rfl, SessionStore.not_mem_of_admits hadmits⟩
  | rotates ho hb hbefore hafter =>
    rw [hafter] at hr
    exact Or.inl (hbefore.trans hr)
  | idle ho hb hnone => simp [hnone] at hr
  | recorded expiresAt hk hnew => cases hr
  | revokes hrev hstep hrev' hnone => simp [hnone] at hr

/-- What a revocation has listed was on its list before, or is what it lists now. -/
theorem SessionTask.Moves.target {s s' : SessionStore} {h : SessionHeard} {t t' : SessionTask}
    (hm : Moves s h t s' t') {rev : Revocation} (hrev : rev ∈ t'.revocation)
    {x : UserId × Option Jti × List Jti} (hx : rev.target = some x) :
    (∃ rev₀ ∈ t.revocation, rev₀.target = some x) ∨
      (t.lists = some (x.1, x.2.1) ∧ x.2.2 = s.listed x.1 x.2.1) := by
  cases hm with
  | idle ho hb hrot hex htarget => simp [htarget rev hrev] at hx
  | checked hadmits => cases hrev
  | rotates ho hb hbefore hafter hex hnone => simp [hnone] at hrev
  | recorded expiresAt hk hnew => cases hrev
  | @revokes t t' rev₀ rev' s' hrev₀ hstep hrev' =>
    obtain rfl : rev' = rev := Option.some.inj (hrev'.symm.trans hrev)
    rcases Revocation.step_target hstep with hsame | ⟨user, except, rfl, hlisted⟩
    · exact Or.inl ⟨rev₀, hrev₀, hsame ▸ hx⟩
    · obtain rfl := Option.some.inj (hlisted.symm.trans hx)
      exact Or.inr ⟨by simp [lists, hrev₀], rfl⟩

theorem SessionTask.Moves.jtis {s s' : SessionStore} {h : SessionHeard} {t t' : SessionTask}
    (hm : Moves s h t s' t') (hs : s.jtis.Nodup) : s'.jtis.Nodup := by
  have hsame : s'.outstanding = s.outstanding → s'.jtis.Nodup := by
    intro ho
    rw [SessionStore.jtis, ho]
    exact hs
  cases hm with
  | idle ho => exact hsame ho
  | checked hadmits => exact hs
  | rotates ho => exact hsame ho
  | @recorded jti new k expiresAt hk hnew =>
    exact Keyed.nodup_map_snoc hs fun u hu (h : u.jti = new) => hnew (h ▸ List.mem_map_of_mem hu)
  | revokes hrev hstep => exact hsame (Revocation.step_store hstep).1

/-- The revocation of another request, if what this one rotates is not on its list. -/
theorem SessionTask.Moves.covers {s s' : SessionStore} {h : SessionHeard} {t t' : SessionTask}
    (hm : Moves s h t s' t') {rev : Revocation} (hrev : rev.Covers s)
    (hunlisted : ∀ jti ∈ t.rotating, ∀ user except listed,
      rev.target = some (user, except, listed) → jti ∉ listed) : rev.Covers s' := by
  cases hm with
  | idle ho hb => exact hrev.mono ho (hb ▸ List.Subset.refl _)
  | checked hadmits => exact hrev
  | rotates ho hb => exact hrev.mono ho hb
  | recorded expiresAt hk hnew =>
    obtain ⟨hmem, rfl⟩ := SessionStore.token_eq_some hk
    exact hrev.record hmem (hunlisted _ rfl) _ expiresAt
  | revokes hown hstep =>
    obtain ⟨ho, hb⟩ := Revocation.step_store hstep
    exact hrev.mono ho hb

/-- The revocation of the request itself. -/
theorem SessionTask.Moves.covers_own {s s' : SessionStore} {h : SessionHeard} {t t' : SessionTask}
    (hm : Moves s h t s' t') (ht : ∀ rev ∈ t.revocation, rev.Covers s) :
    ∀ rev ∈ t'.revocation, rev.Covers s' := by
  intro rev hrev
  cases hm with
  | idle ho hb hrot hex htarget => exact .of_target (htarget rev hrev)
  | checked hadmits => cases hrev
  | rotates ho hb hbefore hafter hex hnone => simp [hnone] at hrev
  | recorded expiresAt hk hnew => cases hrev
  | @revokes t t' rev₀ rev' s' hrev₀ hstep hrev' =>
    obtain rfl : rev' = rev := Option.some.inj (hrev'.symm.trans hrev)
    exact (ht rev₀ hrev₀).step hstep

theorem RevocationsHold.arrive (hp : RevocationsHold p) {t : SessionTask} (ht : t.Begins) :
    RevocationsHold ⟨p.store, p.threads ++ [t]⟩ := by
  obtain ⟨hrotating, hrevocation, -⟩ := ht.idle
  refine ⟨hp.jtis, fun u hu rev hrev => ?_, fun x hx jti hjti u hu rev hrev => ?_⟩
  · rcases List.mem_append.1 hu with hu | hu
    · exact hp.covers u hu rev hrev
    · simp [List.mem_singleton.1 hu, hrevocation] at hrev
  · rcases List.mem_append.1 hx with hx | hx
    · rcases List.mem_append.1 hu with hu | hu
      · exact hp.apart x hx jti hjti u hu rev hrev
      · simp [List.mem_singleton.1 hu, hrevocation] at hrev
    · simp [List.mem_singleton.1 hx, hrotating] at hjti

theorem RevocationsHold.next (hp : RevocationsHold p) (hok : Apart p a)
    (hn : (sessionServer checkToken).Next p a q) : RevocationsHold q := by
  rcases sessionServer_next hn with ⟨t, hbegins, rfl⟩ | ⟨i, r, t, t', s', rfl, hi, hstep, rfl⟩
  · exact hp.arrive hbegins
  have hm := SessionTask.step_moves hstep
  have ht : t ∈ p.threads := List.mem_of_getElem? hi
  obtain ⟨hchecks, hlists⟩ := hok t hi
  refine ⟨hm.jtis hp.jtis, fun u hu rev hrev => ?_, ?_⟩
  · rcases mem_set hu with rfl | hu
    · exact hm.covers_own (hp.covers t ht) rev hrev
    · exact hm.covers (hp.covers u hu rev hrev) fun jti hjti => hp.apart t ht jti hjti u hu rev hrev
  intro x hx jti hjti u hu rev hrev user except listed htarget
  have hlisted : (∃ u ∈ p.threads, ∃ rev ∈ u.revocation, rev.target = some (user, except, listed)) ∨
      (t.lists = some (user, except) ∧ listed = p.store.listed user except) := by
    rcases mem_set hu with rfl | hu
    · rcases hm.target hrev htarget with ⟨rev₀, hrev₀, hx₀⟩ | hnow
      · exact Or.inl ⟨t, ht, rev₀, hrev₀, hx₀⟩
      · exact Or.inr hnow
    · exact Or.inl ⟨u, hu, rev, hrev, htarget⟩
  have hrotates : (∃ y ∈ p.threads, y.rotating = some jti) ∨
      (t.checks = some jti ∧ (p.store.admits r.now (.token jti)).isOk ∧ jti ∉ p.store.blacklist) := by
    rcases mem_set hx with rfl | hx
    · exact (hm.rotating hjti).imp_left fun h => ⟨t, ht, h⟩
    · exact Or.inl ⟨x, hx, hjti⟩
  rcases hrotates with ⟨y, hy, hyjti⟩ | ⟨hcheck, hadmits, hfree⟩
  · rcases hlisted with ⟨v, hv, rev₀, hrev₀, hx₀⟩ | ⟨hnow, rfl⟩
    · exact hp.apart y hy jti hyjti v hv rev₀ hrev₀ user except listed hx₀
    · exact hlists _ hnow y hy jti hyjti
  · rcases hlisted with ⟨v, hv, rev₀, hrev₀, hx₀⟩ | ⟨hnow, rfl⟩
    · intro hmem
      rcases (hp.covers v hv rev₀ hrev₀).rest user except listed hx₀ jti hmem with hwaits | hb
      · refine hchecks jti hcheck hadmits v hv ?_
        unfold SessionTask.waiting
        rw [show v.revocation = some rev₀ from hrev₀]
        exact hwaits
      · exact hfree hb
    · cases t with
      | refresh cookie t => cases hnow
      | reset t => cases hcheck
      | logoutAll user cookie t => cases hcheck

/-! ## After the answer -/

/-- Only a logout of all devices makes an exception, for the token of its cookie. -/
def SessionTask.ExceptsOwn (t : SessionTask) : Prop :=
  ∀ rev ∈ t.revocation, ∀ jti, rev.except = some jti → ∃ l, t = .logoutAll rev.user (.token jti) l

theorem SessionTask.ExceptsOwn.reset {s s' : SessionStore} {h : SessionHeard} {t t' : ResetConfirm}
    (ht : (SessionTask.reset t).ExceptsOwn) (hs : t.step checkToken s h = some (s', t')) :
    (SessionTask.reset t').ExceptsOwn := by
  intro rev hrev jti hjti
  cases t with
  | redeeming =>
    simp only [ResetConfirm.step] at hs
    split at hs <;> cases hs <;> cases hrev
  | findingUser user token =>
    simp only [ResetConfirm.step] at hs
    split at hs
    · cases hs
      cases hrev
    · cases hs
      split at hrev <;> cases hrev
  | saving user =>
    cases hs
    cases hrev
    cases hjti
  | revoking rev₀ =>
    obtain ⟨⟨s', rev'⟩, hstep, heq⟩ := Option.map_eq_some_iff.1 hs
    cases heq
    cases hrev
    obtain ⟨l, hl⟩ := ht rev₀ rfl jti ((Revocation.step_except hstep).2 jti hjti)
    cases hl
  | invalid => cases hs

theorem SessionTask.ExceptsOwn.logoutAll {s s' : SessionStore} {h : SessionHeard} {user : UserId}
    {cookie : RefreshCookie} {t t' : LogoutAll} (ht : (SessionTask.logoutAll user cookie t).ExceptsOwn)
    (hs : t.step s h user cookie = some (s', t')) :
    (SessionTask.logoutAll user cookie t').ExceptsOwn := by
  intro rev hrev jti hjti
  cases t with
  | authenticating =>
    simp only [LogoutAll.step] at hs
    split at hs <;> cases hs <;> cases hrev
  | decoding =>
    simp only [LogoutAll.step] at hs
    split at hs
    · cases hs
      cases hrev
      cases hjti
    · next k hk =>
      cases hs
      cases hrev
      obtain rfl : k.jti = jti := Option.some.inj hjti
      obtain rfl := SessionStore.cookie_of_refreshToken hk
      exact ⟨_, rfl⟩
  | revoking rev₀ =>
    obtain ⟨⟨s', rev'⟩, hstep, heq⟩ := Option.map_eq_some_iff.1 hs
    cases heq
    cases hrev
    obtain ⟨huser, hexcept⟩ := Revocation.step_except hstep
    obtain ⟨l, hl⟩ := ht rev₀ rfl jti (hexcept jti hjti)
    cases hl
    exact ⟨_, by rw [huser]⟩
  | unauthorized message => cases hs

theorem SessionTask.ExceptsOwn.step {s s' : SessionStore} {h : SessionHeard} {t t' : SessionTask}
    (ht : t.ExceptsOwn) (hs : t.step checkToken s h = some (s', t')) : t'.ExceptsOwn := by
  cases t with
  | refresh cookie t =>
    obtain ⟨⟨s', t'⟩, -, heq⟩ := Option.map_eq_some_iff.1 hs
    cases heq
    exact nofun
  | reset t =>
    obtain ⟨⟨s', t'⟩, hstep, heq⟩ := Option.map_eq_some_iff.1 hs
    cases heq
    exact ht.reset hstep
  | logoutAll user cookie t =>
    obtain ⟨⟨s', t'⟩, hstep, heq⟩ := Option.map_eq_some_iff.1 hs
    cases heq
    exact ht.logoutAll hstep

/-- The request has not made the query of its revocation. -/
def Unlisted (p : Pool SessionStore SessionTask) (j : ℕ) : Prop :=
  ∀ t ∈ p.threads[j]?, ∀ rev ∈ t.revocation, rev.target = none

instance (p : Pool SessionStore SessionTask) (j : ℕ) : Decidable (Unlisted p j) :=
  inferInstanceAs (Decidable (∀ t ∈ p.threads[j]?, ∀ rev ∈ t.revocation, rev.target = none))

/-- What was outstanding earlier still is, and of the user's tokens the query of the request has
left out the one that is excepted at most. -/
structure ListedSince (earlier : SessionStore) (j : ℕ) (p : Pool SessionStore SessionTask) :
    Prop where
  outstanding : earlier.outstanding ⊆ p.store.outstanding
  complete : ∀ t ∈ p.threads[j]?, ∀ rev ∈ t.revocation, ∀ user except listed,
    rev.target = some (user, except, listed) →
      ∀ k ∈ earlier.outstanding, k.user = user → except = some k.jti ∨ k.jti ∈ listed

theorem SessionStore.mem_listed {s : SessionStore} {k : OutstandingToken} (hk : k ∈ s.outstanding)
    (except : Option Jti) : except = some k.jti ∨ k.jti ∈ s.listed k.user except := by
  by_cases he : except = some k.jti
  · exact Or.inl he
  · refine Or.inr (List.mem_map_of_mem (List.mem_filter.2 ⟨hk, ?_⟩))
    simpa using he

theorem SessionTask.Moves.outstanding {s s' : SessionStore} {h : SessionHeard} {t t' : SessionTask}
    (hm : Moves s h t s' t') : s.outstanding ⊆ s'.outstanding := by
  cases hm with
  | idle ho => rw [ho]; exact List.Subset.refl _
  | checked hadmits => exact List.Subset.refl _
  | rotates ho => rw [ho]; exact List.Subset.refl _
  | recorded expiresAt hk hnew => exact List.subset_append_left _ _
  | revokes hrev hstep => rw [(Revocation.step_store hstep).1]; exact List.Subset.refl _

/-- A token is exchanged by the step that replaces it. -/
theorem SessionTask.Moves.exchanged {s s' : SessionStore} {h : SessionHeard} {t t' : SessionTask}
    (hm : Moves s h t s' t') {jti : Jti} (hex : t'.exchanged = some jti) :
    ∃ k ∈ s.outstanding, k.jti = jti ∧ t.rotating = some jti := by
  cases hm with
  | idle ho hb hrot hnone => simp [hnone] at hex
  | checked hadmits => cases hex
  | rotates ho hb hbefore hafter hnone => simp [hnone] at hex
  | recorded expiresAt hk hnew =>
    obtain ⟨hmem, hjti⟩ := SessionStore.token_eq_some hk
    cases hex
    exact ⟨_, hmem, hjti, rfl⟩
  | revokes hrev hstep hrev' hrot hnone => simp [hnone] at hex

theorem ListedSince.next {earlier : SessionStore} {j : ℕ} (hp : ListedSince earlier j p)
    (hn : (sessionServer checkToken).Next p a q) : ListedSince earlier j q := by
  rcases sessionServer_next hn with ⟨x, hbegins, rfl⟩ | ⟨i, r, x, x', s', rfl, hi, hstep, rfl⟩
  · refine ⟨hp.outstanding, fun t ht => ?_⟩
    rcases getElem?_snoc ht with ht | ⟨-, rfl⟩
    · exact hp.complete t ht
    · simp [hbegins.idle.2.1]
  have hm := SessionTask.step_moves hstep
  refine ⟨List.Subset.trans hp.outstanding hm.outstanding,
    fun t ht rev hrev user except listed htarget k hk hku => ?_⟩
  by_cases hij : i = j
  · subst hij
    rw [List.getElem?_set_self (List.getElem?_eq_some_iff.1 hi).1] at ht
    obtain rfl := Option.some.inj ht
    rcases hm.target hrev htarget with ⟨rev₀, hrev₀, htarget₀⟩ | ⟨-, hlisted⟩
    · exact hp.complete x hi rev₀ hrev₀ user except listed htarget₀ k hk hku
    · rw [show listed = p.store.listed user except from hlisted, ← hku]
      exact SessionStore.mem_listed (hp.outstanding hk) except
  · rw [List.getElem?_set_ne hij] at ht
    exact hp.complete t ht rev hrev user except listed htarget k hk hku

/-- The revocation has been answered, and every token that was exchanged since was not listed, and
is not the user's or is spared. -/
structure SinceRevocation (q : Pool SessionStore SessionTask) (j : ℕ) (t : SessionTask) (user : UserId)
    (except : Option Jti) (listed : List Jti) (p : Pool SessionStore SessionTask) : Prop where
  answered : p.threads[j]? = some t
  exchanged : ∀ (i : ℕ) (u : SessionTask) (jti : Jti), p.threads[i]? = some u →
    u.exchanged = some jti → (∃ v, q.threads[i]? = some v ∧ v.exchanged = some jti) ∨
      ∃ k ∈ p.store.outstanding, k.jti = jti ∧ jti ∉ listed ∧ (k.user = user → k.Spared except)

theorem SinceRevocation.next {q₀ : Pool SessionStore SessionTask} {j : ℕ} {t : SessionTask}
    {user : UserId} {except : Option Jti} {listed : List Jti}
    (hp : SinceRevocation q₀ j t user except listed p)
    (hdone : t.revocation = some (.done user except listed)) (hhold : RevocationsHold p)
    (hn : (sessionServer checkToken).Next p a q) :
    SinceRevocation q₀ j t user except listed q := by
  rcases sessionServer_next hn with ⟨x, hbegins, rfl⟩ | ⟨i, r, x, x', s', rfl, hi, hstep, rfl⟩
  · refine ⟨?_, fun i u jti hu hex => ?_⟩
    · exact (List.getElem?_append_left (List.getElem?_eq_some_iff.1 hp.answered).1).trans hp.answered
    · rcases getElem?_snoc hu with hu | ⟨-, rfl⟩
      · exact hp.exchanged i u jti hu hex
      · simp [hbegins.idle.2.2] at hex
  have hlt := (List.getElem?_eq_some_iff.1 hi).1
  have hm := SessionTask.step_moves hstep
  have hne : i ≠ j := by
    rintro rfl
    obtain rfl := Option.some.inj (hi.symm.trans hp.answered)
    exact SessionTask.step_done hdone hstep
  refine ⟨by rw [List.getElem?_set_ne hne, hp.answered], fun n u jti hu hex => ?_⟩
  by_cases hni : n = i
  · subst hni
    rw [List.getElem?_set_self hlt, Option.some.injEq] at hu
    subst hu
    obtain ⟨k, hk, hjti, hrot⟩ := hm.exchanged hex
    have ht := List.mem_of_getElem? hp.answered
    have hunlisted : jti ∉ listed :=
      hhold.apart x (List.mem_of_getElem? hi) jti hrot t ht _ hdone user except listed rfl
    refine Or.inr ⟨k, hm.outstanding hk, hjti, hunlisted, fun huser => ?_⟩
    rcases (hhold.covers t ht _ hdone).complete user except listed rfl k hk huser with hin | hspared
    · exact absurd (hjti ▸ hin) hunlisted
    · exact hspared
  · rw [List.getElem?_set_ne (Ne.symm hni)] at hu
    rcases hp.exchanged n u jti hu hex with hbefore | ⟨k, hk, hrest⟩
    · exact Or.inl hbefore
    · exact Or.inr ⟨k, hm.outstanding hk, hrest⟩

end Server

/-- The token is the one that is excepted, or was rotated from that one and was not there
earlier. -/
def OutstandingToken.SparedSince (k : OutstandingToken) (earlier : SessionStore)
    (except : Option Jti) : Prop :=
  ∃ jti, except = some jti ∧ (k.jti = jti ∨ k ∉ earlier.outstanding ∧ jti ∈ k.rotatedFrom)

theorem OutstandingToken.Spared.since {k : OutstandingToken} {except : Option Jti}
    {earlier : SessionStore} (h : k.Spared except)
    (hnew : k ∈ earlier.outstanding → except = some k.jti) : k.SparedSince earlier except := by
  obtain ⟨jti, hexcept, hjti⟩ := h
  by_cases hk : k ∈ earlier.outstanding
  · exact ⟨k.jti, hnew hk, Or.inl rfl⟩
  · exact ⟨jti, hexcept, hjti.imp_right fun hfrom => ⟨hk, hfrom⟩⟩

/-- Refreshes, resets and logouts of all devices in any interleaving without the race. Let request
`j` not have made its query in `m`. Once it has been answered, every token of the user that is
exchanged for an access token is the one that was excepted, or was rotated from that one after `m`.
Only the cookie of a logout of all devices is excepted. -/
theorem revocation_ends_sessions {checkToken : LoginUser → String → Bool}
    {p m q r : Pool SessionStore SessionTask} (hjtis : p.store.jtis.Nodup)
    (hstart : ∀ t ∈ p.threads, t.Begins) (hm : (sessionServer checkToken).Run Apart p m)
    (hq : (sessionServer checkToken).Run Apart m q) (hr : (sessionServer checkToken).Run Apart q r)
    {j : ℕ} (hunlisted : Unlisted m j) {t : SessionTask} {user : UserId} {except : Option Jti}
    {listed : List Jti} (hj : q.threads[j]? = some t)
    (hdone : t.revocation = some (.done user except listed)) :
    (∀ jti, except = some jti → ∃ l, t = .logoutAll user (.token jti) l) ∧
    ∀ (i : ℕ) (u : SessionTask) (jti : Jti), r.threads[i]? = some u → u.exchanged = some jti →
      (∃ v, q.threads[i]? = some v ∧ v.exchanged = some jti) ∨
        ∀ k ∈ r.store.outstanding, k.jti = jti → k.user = user →
          k.SparedSince m.store except := by
  have hpq := hm.trans hq
  have hhold : RevocationsHold p := by
    refine ⟨hjtis, fun t ht rev hrev => ?_, fun t ht jti hrot => ?_⟩
    · simp [(hstart t ht).idle.2.1] at hrev
    · simp [(hstart t ht).idle.1] at hrot
  have hhold_q : RevocationsHold q := hpq.invariant (fun _ _ _ h hok hn => h.next hok hn) hhold
  have hhold_r : RevocationsHold r := hr.invariant (fun _ _ _ h hok hn => h.next hok hn) hhold_q
  have hown : ∀ u ∈ q.threads, u.ExceptsOwn := by
    refine hpq.invariant (I := fun q => ∀ u ∈ q.threads, u.ExceptsOwn) (fun _ _ _ h _ hn => ?_)
      fun u hu rev hrev => by simp [(hstart u hu).idle.2.1] at hrev
    rcases sessionServer_next hn with ⟨x, hbegins, rfl⟩ | ⟨i, _, x, x', s', -, hi, hstep, rfl⟩
    · refine fun u hu => (List.mem_append.1 hu).elim (h u) fun hu rev hrev => ?_
      simp [List.mem_singleton.1 hu, hbegins.idle.2.1] at hrev
    · intro u hu
      rcases mem_set hu with rfl | hu
      · exact (h x (List.mem_of_getElem? hi)).step hstep
      · exact h u hu
  refine ⟨fun jti he => hown t (List.mem_of_getElem? hj) _ hdone jti he, fun i u jti hi hex => ?_⟩
  have hsince : SinceRevocation q j t user except listed q :=
    ⟨hj, fun i u jti hu hex => Or.inl ⟨u, hu, hex⟩⟩
  have hrun := hr.strengthen (fun _ _ _ h hok hn => h.next hok hn) hhold_q
  have hsince_r : SinceRevocation q j t user except listed r := hrun.invariant
    (fun _ _ _ h hok hn => h.next hdone hok.2 hn) hsince
  have hlisted : ListedSince m.store j q := hq.invariant (fun _ _ _ h _ hn => h.next hn)
    ⟨List.Subset.refl _, fun t ht rev hrev user except listed htarget => by
      simp [hunlisted t ht rev hrev] at htarget⟩
  refine (hsince_r.exchanged i u jti hi hex).imp_right fun ⟨k, hk, hkjti, hfree, hspared⟩ x hx hxjti
    hxu => ?_
  obtain rfl := Keyed.eq_of_pk hhold_r.jtis hk hx (hkjti.trans hxjti.symm)
  refine (hspared hxu).since fun hearlier => ?_
  exact (hlisted.complete t hj _ hdone user except listed rfl k hearlier hxu).resolve_right
    (hkjti ▸ hfree)

/-! ## A session that goes on -/

/-- A user with two sessions. -/
def twoSessions : SessionStore where
  users := [{ id := 7, password := "old" }]
  outstanding :=
    [{ jti := "laptop-1", user := 7, expiresAt := 100 },
      { jti := "phone-1", user := 7, expiresAt := 100 }]

/-- Two sessions, and two tokens that were rotated from the first one of the laptop. -/
def stolenSession : SessionStore where
  users := [{ id := 7, password := "old" }]
  outstanding :=
    [{ jti := "laptop-0", user := 7, expiresAt := 100 },
      { jti := "laptop-1", user := 7, expiresAt := 100, rotatedFrom := ["laptop-0"] },
      { jti := "stolen", user := 7, expiresAt := 100, rotatedFrom := ["laptop-0"] },
      { jti := "phone-1", user := 7, expiresAt := 100 }]
  blacklist := ["laptop-0"]

/-- Every reset link is right. -/
def anyLink : LoginUser → String → Bool := fun _ _ => true

/-- The steps of request `i` in a row, with what they get. -/
def inARow (i : ℕ) (rs : List SessionHeard) : List (Action SessionTask SessionHeard) :=
  rs.map (.run i)

/-- The laptop logs all devices out. Then the phone, the laptop and the one who has stolen a token
of the laptop's session refresh. -/
theorem revocation_ends_sessions_phone : ∃ m q r : Pool SessionStore SessionTask,
    m.store = stolenSession ∧ q.threads.map SessionTask.exchanged = [none] ∧
    r.threads.map SessionTask.exchanged = [none, none, some "laptop-1", none] ∧
    ∀ (i : ℕ) (u : SessionTask) (jti : Jti), r.threads[i]? = some u → u.exchanged = some jti →
      (∃ v, q.threads[i]? = some v ∧ v.exchanged = some jti) ∨
        ∀ k ∈ r.store.outstanding, k.jti = jti → k.user = 7 →
          k.SparedSince m.store (some "laptop-1") := by
  obtain ⟨m, hm, q, hq, r, hr, hmeets, hmeets', hmeets'', hunlisted, hstore, hnone, hlaptop,
      hdone⟩ :
      ∃ m ∈ (sessionServer anyLink).exec (inARow 0 [{}, {}])
        ⟨stolenSession, [.logoutAll 7 (.token "laptop-1") .authenticating]⟩,
      ∃ q ∈ (sessionServer anyLink).exec (inARow 0 (List.replicate 7 {})) m,
      ∃ r ∈ (sessionServer anyLink).exec ([.arrive (.refresh (.token "phone-1") .checking),
          .arrive (.refresh (.token "laptop-1") .checking),
          .arrive (.refresh (.token "stolen") .checking)] ++ inARow 1 [{}] ++
          inARow 2 [{}, {}, {}, { generated := "laptop-2" }] ++ inARow 3 [{}]) q,
        (sessionServer anyLink).Meets Apart (inARow 0 [{}, {}])
          ⟨stolenSession, [.logoutAll 7 (.token "laptop-1") .authenticating]⟩ ∧
        (sessionServer anyLink).Meets Apart (inARow 0 (List.replicate 7 {})) m ∧
        (sessionServer anyLink).Meets Apart ([.arrive (.refresh (.token "phone-1") .checking),
          .arrive (.refresh (.token "laptop-1") .checking),
          .arrive (.refresh (.token "stolen") .checking)] ++ inARow 1 [{}] ++
          inARow 2 [{}, {}, {}, { generated := "laptop-2" }] ++ inARow 3 [{}]) q ∧
        Unlisted m 0 ∧ m.store = stolenSession ∧
        q.threads.map SessionTask.exchanged = [none] ∧
        r.threads.map SessionTask.exchanged = [none, none, some "laptop-1", none] ∧
        q.threads[0]? = some (.logoutAll 7 (.token "laptop-1")
          (.revoking (.done 7 (some "laptop-1") ["laptop-0", "stolen", "phone-1"]))) := by
    decide +kernel
  obtain ⟨-, hends⟩ := revocation_ends_sessions (by decide) (by decide) (.of_exec_meets hmeets hm)
    (.of_exec_meets hmeets' hq) (.of_exec_meets hmeets'' hr) hunlisted hdone rfl
  exact ⟨m, q, r, hstore, hnone, hlaptop, hends⟩

/-- The phone passes its check. The password is reset, and the two tokens there are get listed and
blacklisted. -/
def resetInBetween : List (Action SessionTask SessionHeard) :=
  inARow 0 [{}, {}] ++ inARow 1 [{ redeemed := some (7, "link") }, {}, { generated := "new" }] ++
    inARow 1 (List.replicate 6 {})

/-- The phone records its next token, and exchanges that one, too. -/
def phoneGoesOn : List (Action SessionTask SessionHeard) :=
  inARow 0 [{}, { generated := "phone-2" }] ++ [.arrive (.refresh (.token "phone-2") .checking)] ++
    inARow 2 [{}, {}, {}, { generated := "phone-3" }]

/-- A session of two goes on after the password reset has been answered: a token that was rotated
from one of them is exchanged. -/
theorem listedTooEarly_survives : ∃ q r : Pool SessionStore SessionTask,
    (sessionServer anyLink).Run (fun _ _ => True)
      ⟨twoSessions, [.refresh (.token "phone-1") .checking, .reset .redeeming]⟩ q ∧
    (sessionServer anyLink).Run (fun _ _ => True) q r ∧
    q.threads[1]? = some (.reset (.revoking (.done 7 none ["laptop-1", "phone-1"]))) ∧
    q.threads.map SessionTask.exchanged = [none, none] ∧
    r.threads.map SessionTask.exchanged = [some "phone-1", none, some "phone-2"] ∧
    ∃ k ∈ r.store.outstanding, k.jti = "phone-2" ∧ k.user = 7 ∧ k.rotatedFrom = ["phone-1"] := by
  obtain ⟨q, hq, r, hr, hrest⟩ : ∃ q ∈ (sessionServer anyLink).exec resetInBetween
        ⟨twoSessions, [.refresh (.token "phone-1") .checking, .reset .redeeming]⟩,
      ∃ r ∈ (sessionServer anyLink).exec phoneGoesOn q,
        q.threads[1]? = some (.reset (.revoking (.done 7 none ["laptop-1", "phone-1"]))) ∧
        q.threads.map SessionTask.exchanged = [none, none] ∧
        r.threads.map SessionTask.exchanged = [some "phone-1", none, some "phone-2"] ∧
        ∃ k ∈ r.store.outstanding, k.jti = "phone-2" ∧ k.user = 7 ∧
          k.rotatedFrom = ["phone-1"] := by
    decide +kernel
  exact ⟨q, r, .of_exec hq, .of_exec hr, hrest⟩

end NbeAdvisor
