import NbeAdvisor.Records
import NbeAdvisor.Keyed

/-!
# The login server of the bank

`mock-bank-oauth`, with its store in memory. A challenge is an object that the dictionary of
challenges lists until it expires or a login with it succeeds, and that a request which has got it
can read and write after that. Here are the operations of the store and the endpoints, each run to
its end : `/authorize` lists a challenge, `/login/start` sends a one-time password (OTP) for the
customer that the directory knows, `/login/verify` checks it and makes a code, `/token` exchanges
the code, and `/debug/challenges` shows a challenge where that is enabled. A handler reads the clock
anew wherever it needs the time.

`OauthStore.Moves` says what a request can do to the store.
-/

namespace NbeAdvisor

/-- The id of a login challenge. -/
abbrev ChallengeId := ℕ

/-- `CHALLENGE_TTL_SECONDS`. -/
def challengeTtl : Instant := 5 * 60 * 10 ^ 6

/-- `OTP_TTL_SECONDS`. -/
def otpTtl : Instant := 5 * 60 * 10 ^ 6

/-- `AUTH_CODE_TTL_SECONDS`. -/
def authCodeTtl : Instant := 60 * 10 ^ 6

/-- The client that the server knows, and where it may be sent back to. -/
structure OauthConfig where
  clientId : String
  clientSecret : String
  allowedRedirectUris : List String := []
  debugEndpointsEnabled : Bool := false

/-! ## The records -/

/-- The challenge of a login, with what the login has found out so far. -/
structure Challenge where
  id : ChallengeId
  clientId : String
  redirectUri : String
  state : Option String := none
  scope : Option String := none
  expiresAt : Instant
  customerId : Option String := none
  email : Option String := none
  phone : Option String := none
  name : Option String := none
  otp : Option String := none
  otpExpiresAt : Option Instant := none
  deriving DecidableEq

/-- An authorization code, with the customer that it stands for. -/
structure AuthorizationCode where
  code : String
  clientId : String
  redirectUri : String
  customerId : Option String
  email : Option String := none
  phone : Option String := none
  name : Option String := none
  expiresAt : Instant
  used : Bool := false
  deriving DecidableEq

/-- A refresh token, by whom it is for. -/
structure RefreshToken where
  token : String
  clientId : String
  customerId : Option String
  deriving DecidableEq

namespace Challenge

/-- `is_expired`. -/
def isExpired (now : Instant) (c : Challenge) : Prop := c.expiresAt < now

/-- `otp_is_expired` : without a code nothing has expired. -/
def otpIsExpired (now : Instant) (c : Challenge) : Prop := ∀ t ∈ c.otpExpiresAt, t < now

instance (now : Instant) (c : Challenge) : Decidable (c.isExpired now) :=
  inferInstanceAs (Decidable (c.expiresAt < now))

instance (now : Instant) (c : Challenge) : Decidable (c.otpIsExpired now) :=
  inferInstanceAs (Decidable (∀ t ∈ c.otpExpiresAt, t < now))

/-- The check of `login_verify`. -/
def Accepts (now : Instant) (otp : String) (c : Challenge) : Prop :=
  c.customerId ≠ none ∧ c.phone ≠ none ∧ ¬c.otpIsExpired now ∧ c.otp = some (strip otp)

instance (now : Instant) (otp : String) (c : Challenge) : Decidable (c.Accepts now otp) :=
  inferInstanceAs (Decidable (_ ∧ _ ∧ _ ∧ _))

end Challenge

/-- What the directory says of a customer. -/
structure BankIdentity where
  customerId : String
  email : String
  phone : String
  name : Option String := none
  deriving DecidableEq

/-- The assignments of `set_challenge_otp`. -/
def Challenge.setOtp (now : Instant) (k : BankIdentity) (otp : String) (c : Challenge) : Challenge :=
  { c with
    customerId := some k.customerId
    email := some k.email
    phone := some k.phone
    name := k.name
    otp := some otp
    otpExpiresAt := some (now + otpTtl) }

@[simp] theorem Challenge.setOtp_id (now : Instant) (k : BankIdentity) (otp : String)
    (c : Challenge) : (c.setOtp now k otp).id = c.id := rfl

/-- The code of a challenge, with the text that is generated. -/
def Challenge.code (now : Instant) (code : String) (c : Challenge) : AuthorizationCode :=
  { code, clientId := c.clientId, redirectUri := c.redirectUri, customerId := c.customerId
    email := c.email, phone := c.phone, name := c.name, expiresAt := now + authCodeTtl }

/-! ## The store -/

/-- All challenges there have been, and which of them the dictionary has. -/
structure OauthStore where
  objects : List Challenge := []
  challenges : List ChallengeId := []
  authCodes : List AuthorizationCode := []
  refreshTokens : List RefreshToken := []
  deriving DecidableEq

namespace OauthStore

variable (now : Instant) (s : OauthStore)

/-- `create_challenge`. -/
def createChallenge (c : Challenge) : OauthStore :=
  { s with
    objects := s.objects ++ [c]
    challenges := s.challenges ++ [c.id] }

/-- `pop_challenge`, `delete_challenge`. -/
def popChallenge (id : ChallengeId) : OauthStore :=
  { s with challenges := s.challenges.filter fun k => k ≠ id }

/-- `_challenges.get`. -/
def listed (id : ChallengeId) : Option Challenge :=
  if id ∈ s.challenges then s.objects.find? fun c => c.id = id else none

/-- `get_challenge`. -/
def getChallenge (id : ChallengeId) : OauthStore × Option Challenge :=
  match s.listed id with
  | none => (s, none)
  | some c => if c.isExpired now then (s.popChallenge id, none) else (s, some c)

/-- The challenge of an id is changed. -/
def modifyChallenge (id : ChallengeId) (f : Challenge → Challenge) : OauthStore :=
  { s with objects := Keyed.modify Challenge.id id f s.objects }

/-- `set_challenge_otp`, which raises if the dictionary has no such challenge. -/
def setChallengeOtp (id : ChallengeId) (k : BankIdentity) (otp : String) : Option OauthStore :=
  (s.listed id).map fun _ => s.modifyChallenge id (·.setOtp now k otp)

/-- `create_authorization_code`. -/
def createAuthorizationCode (k : AuthorizationCode) : OauthStore :=
  { s with authCodes := s.authCodes ++ [k] }

/-- `used = True`, for the row of the code. -/
def useCode (code : String) : OauthStore :=
  { s with
    authCodes := Keyed.modify AuthorizationCode.code code (fun k => { k with used := true })
      s.authCodes }

/-- `consume_authorization_code`. -/
def consumeAuthorizationCode (code : String) : OauthStore × Option AuthorizationCode :=
  match s.authCodes.find? fun k => k.code = code with
  | none => (s, none)
  | some k =>
    if k.used ∨ k.expiresAt < now then (s, none)
    else (s.useCode code, some k)

/-- `create_refresh_token`. -/
def createRefreshToken (t : RefreshToken) : OauthStore :=
  { s with refreshTokens := s.refreshTokens ++ [t] }

variable {s} {id : ChallengeId} {c : Challenge} {f : Challenge → Challenge} {k : AuthorizationCode}
  {code : String}

theorem mem_of_listed (h : s.listed id = some c) : id ∈ s.challenges ∧ c ∈ s.objects ∧ c.id = id := by
  unfold listed at h
  split at h
  · next hid => exact ⟨hid, List.mem_of_find?_eq_some h, by simpa using List.find?_some h⟩
  · cases h

theorem mem_modifyChallenge : c ∈ (s.modifyChallenge id f).objects ↔
    (c ∈ s.objects ∧ c.id ≠ id) ∨ ∃ u ∈ s.objects, u.id = id ∧ f u = c :=
  Keyed.mem_modify

theorem mem_useCode : k ∈ (s.useCode code).authCodes ↔
    (k ∈ s.authCodes ∧ k.code ≠ code) ∨ ∃ u ∈ s.authCodes, u.code = code ∧
      { u with used := true } = k :=
  Keyed.mem_modify

theorem map_code_useCode : (s.useCode code).authCodes.map AuthorizationCode.code =
    s.authCodes.map AuthorizationCode.code :=
  Keyed.map_modify fun _ => rfl

end OauthStore

/-! ## The requests -/

/-- How `/internal/customers/lookup` turns out. -/
inductive DirectoryReply where
  | unreachable (reason : String)
  | failed (status : ℕ)
  /-- A body that is no JSON object. -/
  | garbled
  | record (customerId email phone name : Option String)
  deriving DecidableEq

/-- A request, with what the server generates for it, the later readings of its clock and what it
hears from the services around. -/
inductive OauthRequest where
  | authorize (clientId redirectUri responseType : String) (state scope : Option String)
      (generated : ChallengeId)
  | start (id : ChallengeId) (customerBankId : String) (reply : DirectoryReply) (generated : String)
      (sentAt : Instant) (mailError : Option String)
  | verify (id : ChallengeId) (otp : String) (checkedAt codeAt : Instant) (generated : String)
  | token (grantType code redirectUri clientId clientSecret : String) (generated : String)
  | debug (id : ChallengeId)
  deriving DecidableEq

/-- What the routes answer. -/
inductive OauthAnswer where
  | loginPage (id : ChallengeId)
  | codePage (id : ChallengeId)
  /-- `"Could not send the verification email: .."`, with a 502. -/
  | mailFailed (id : ChallengeId) (reason : String)
  /-- A redirect to the URI, with the code and the state as parameters. -/
  | redirect (redirectUri code : String) (state : Option String)
  /-- The access token is for the customer. -/
  | tokens (customerId : Option String) (refreshToken : String) (email phone name : Option String)
  | challenge (id : ChallengeId) (customerId email otp : Option String)
  | page (status : ℕ) (message : String)
  | oauthError (error description : String)
  | raises
  deriving DecidableEq

/-- The customer of a lookup, or the page that says why there is none. -/
def DirectoryReply.resolve : DirectoryReply → Except OauthAnswer BankIdentity
  | unreachable reason =>
    .error (.page 502 ("Could not reach the bank's customer directory: " ++ reason))
  | failed status =>
    if status = 404 then .error (.page 404 "No customer found with that ID.")
    else
      .error (.page 502 ("Customer directory lookup failed (status " ++ toString status ++ ")."))
  | garbled => .error .raises
  | record customerId email phone name =>
    match given customerId, given email, given phone with
    | some customerId, some email, some phone => .ok { customerId, email, phone, name }
    | _, _, _ => .error (.page 502 "Customer directory returned an incomplete record.")

namespace OauthStore

variable (cfg : OauthConfig) (now : Instant) (s : OauthStore)

/-- `GET /authorize`. -/
def authorize (clientId redirectUri responseType : String) (state scope : Option String)
    (id : ChallengeId) : OauthStore × OauthAnswer :=
  if clientId ≠ cfg.clientId then (s, .page 400 "Unknown client_id.")
  else if responseType ≠ "code" then
    (s, .page 400 "Unsupported response_type; only 'code' is supported.")
  else if redirectUri = "" then (s, .page 400 "redirect_uri is required.")
  else if cfg.allowedRedirectUris ≠ [] ∧ redirectUri ∉ cfg.allowedRedirectUris then
    (s, .page 400 "redirect_uri is not on the allow-list.")
  else
    (s.createChallenge
      { id, clientId, redirectUri, state, scope, expiresAt := now + challengeTtl }, .loginPage id)

/-- `POST /login/start`. -/
def loginStart (id : ChallengeId) (customerBankId : String) (reply : DirectoryReply) (otp : String)
    (sentAt : Instant) (mailError : Option String) : OauthStore × OauthAnswer :=
  match s.getChallenge now id with
  | (s, none) => (s, .page 404 "This login session is unknown or has expired.")
  | (s, some _) =>
    if strip customerBankId = "" then (s, .page 400 "Customer ID is required.")
    else
      match reply.resolve with
      | .error a => (s, a)
      | .ok k =>
        match s.setChallengeOtp sentAt id k otp with
        | none => (s, .raises)
        | some s => (s, mailError.elim (.codePage id) (.mailFailed id))

/-- `POST /login/verify`. -/
def loginVerify (id : ChallengeId) (otp : String) (checkedAt codeAt : Instant) (code : String) :
    OauthStore × OauthAnswer :=
  match s.getChallenge now id with
  | (s, none) => (s, .page 400 "This login session is unknown or has expired.")
  | (s, some c) =>
    if ¬c.Accepts checkedAt otp then (s, .page 400 "Invalid or expired verification code.")
    else
      ((s.createAuthorizationCode (c.code codeAt code)).popChallenge id,
        .redirect c.redirectUri code c.state)

/-- `POST /token`. -/
def token (grantType code redirectUri clientId clientSecret refreshToken : String) :
    OauthStore × OauthAnswer :=
  if grantType ≠ "authorization_code" then
    (s, .oauthError "unsupported_grant_type" "Only authorization_code is supported.")
  else if clientId ≠ cfg.clientId ∨ clientSecret ≠ cfg.clientSecret then
    (s, .oauthError "invalid_client" "client_id or client_secret is incorrect")
  else
    match s.consumeAuthorizationCode now code with
    | (s, none) => (s, .oauthError "invalid_grant"
        "The authorization code is invalid, expired, or already used.")
    | (s, some k) =>
      if k.redirectUri ≠ redirectUri ∨ k.clientId ≠ clientId then
        (s, .oauthError "invalid_grant"
          "redirect_uri or client_id does not match the authorization request.")
      else
        (s.createRefreshToken { token := refreshToken, clientId, customerId := k.customerId },
          .tokens k.customerId refreshToken k.email k.phone k.name)

/-- `GET /debug/challenges/<id>`. -/
def getChallengeDebug (id : ChallengeId) : OauthStore × OauthAnswer :=
  if ¬cfg.debugEndpointsEnabled then (s, .page 404 "Not Found")
  else
    match s.getChallenge now id with
    | (s, none) => (s, .page 404 "Challenge not found")
    | (s, some c) => (s, .challenge c.id c.customerId c.email c.otp)

/-- The route of a request. -/
def handle : OauthRequest → OauthStore × OauthAnswer
  | .authorize clientId redirectUri responseType state scope id =>
    s.authorize cfg now clientId redirectUri responseType state scope id
  | .start id customerBankId reply otp sentAt mailError =>
    s.loginStart now id customerBankId reply otp sentAt mailError
  | .verify id otp checkedAt codeAt code => s.loginVerify now id otp checkedAt codeAt code
  | .token grantType code redirectUri clientId clientSecret refreshToken =>
    s.token cfg now grantType code redirectUri clientId clientSecret refreshToken
  | .debug id => s.getChallengeDebug cfg now id

end OauthStore

/-! ## What a request can do -/

/-- The answers to a request for which nothing is opened, sent or issued. -/
def OauthAnswer.Idle : OauthAnswer → Prop
  | challenge _ _ _ _ | page _ _ | oauthError _ _ | raises => True
  | _ => False

theorem DirectoryReply.resolve_error {reply : DirectoryReply} {a : OauthAnswer}
    (h : reply.resolve = .error a) : a.Idle := by
  unfold resolve at h
  split at h
  · cases h
    trivial
  · split at h <;> cases h <;> trivial
  · cases h
    trivial
  · split at h <;> cases h
    trivial

namespace OauthStore

/-- What a request can do to the store, by what it finds. -/
inductive Moves (cfg : OauthConfig) (now : Instant) (s : OauthStore) :
    OauthRequest → OauthStore → OauthAnswer → Prop where
  | idle (r : OauthRequest) {a : OauthAnswer} : a.Idle → Moves cfg now s r s a
  | evicted (r : OauthRequest) (id : ChallengeId) {a : OauthAnswer} : a.Idle →
      Moves cfg now s r (s.popChallenge id) a
  | opened (redirectUri : String) (state scope : Option String) (id : ChallengeId) :
      Moves cfg now s (.authorize cfg.clientId redirectUri "code" state scope id)
        (s.createChallenge { id, clientId := cfg.clientId, redirectUri, state, scope
                             expiresAt := now + challengeTtl }) (.loginPage id)
  | otpSent {id : ChallengeId} {c : Challenge} {reply : DirectoryReply} {k : BankIdentity}
      (customerBankId otp : String) (sentAt : Instant) (mailError : Option String) :
      s.listed id = some c → ¬c.isExpired now → reply.resolve = .ok k →
      Moves cfg now s (.start id customerBankId reply otp sentAt mailError)
        (s.modifyChallenge id (·.setOtp sentAt k otp)) (mailError.elim (.codePage id) (.mailFailed id))
  | verified {id : ChallengeId} {c : Challenge} {otp : String} {checkedAt : Instant}
      (codeAt : Instant) (code : String) :
      s.listed id = some c → ¬c.isExpired now → c.Accepts checkedAt otp →
      Moves cfg now s (.verify id otp checkedAt codeAt code)
        ((s.createAuthorizationCode (c.code codeAt code)).popChallenge id)
        (.redirect c.redirectUri code c.state)
  | burnt (r : OauthRequest) (code : String) {a : OauthAnswer} : a.Idle →
      Moves cfg now s r (s.useCode code) a
  | granted {code : String} {k : AuthorizationCode} (refreshToken : String) :
      s.authCodes.find? (fun k => k.code = code) = some k → k.used = false → ¬k.expiresAt < now →
      Moves cfg now s (.token "authorization_code" code k.redirectUri k.clientId cfg.clientSecret
          refreshToken)
        ((s.useCode code).createRefreshToken
          { token := refreshToken, clientId := k.clientId, customerId := k.customerId })
        (.tokens k.customerId refreshToken k.email k.phone k.name)

variable {cfg : OauthConfig} {now : Instant} {s s' : OauthStore} {id : ChallengeId}

theorem getChallenge_some {c : Challenge} (h : s.getChallenge now id = (s', some c)) :
    s' = s ∧ s.listed id = some c ∧ ¬c.isExpired now := by
  unfold getChallenge at h
  split at h
  · cases h
  · next hlisted =>
    split at h
    · cases h
    · next hlive =>
      obtain ⟨rfl, hc⟩ := Prod.mk.inj h
      obtain rfl := Option.some.inj hc
      exact ⟨rfl, hlisted, hlive⟩

theorem getChallenge_none (h : s.getChallenge now id = (s', none)) :
    s' = s ∨ s' = s.popChallenge id := by
  unfold getChallenge at h
  split at h
  · exact Or.inl (Prod.mk.inj h).1.symm
  · split at h
    · exact Or.inr (Prod.mk.inj h).1.symm
    · cases h

/-- A request that finds no challenge. -/
theorem Moves.of_none (r : OauthRequest) {a : OauthAnswer} (ha : a.Idle)
    (h : s.getChallenge now id = (s', none)) : s.Moves cfg now r s' a := by
  rcases getChallenge_none h with rfl | rfl
  · exact .idle r ha
  · exact .evicted r id ha

theorem authorize_moves (clientId redirectUri responseType : String) (state scope : Option String)
    (id : ChallengeId) : s.Moves cfg now (.authorize clientId redirectUri responseType state scope id)
      (s.authorize cfg now clientId redirectUri responseType state scope id).1
      (s.authorize cfg now clientId redirectUri responseType state scope id).2 := by
  unfold authorize
  split
  · exact .idle _ trivial
  next hclient =>
  split
  · exact .idle _ trivial
  next htype =>
  split
  · exact .idle _ trivial
  split
  · exact .idle _ trivial
  · obtain rfl := not_not.1 hclient
    obtain rfl := not_not.1 htype
    exact .opened redirectUri state scope id

theorem loginStart_moves (id : ChallengeId) (customerBankId : String) (reply : DirectoryReply)
    (otp : String) (sentAt : Instant) (mailError : Option String) :
    s.Moves cfg now (.start id customerBankId reply otp sentAt mailError)
      (s.loginStart now id customerBankId reply otp sentAt mailError).1
      (s.loginStart now id customerBankId reply otp sentAt mailError).2 := by
  unfold loginStart
  split
  · next h => exact .of_none _ trivial h
  next s' c h =>
  obtain ⟨rfl, hlisted, hlive⟩ := getChallenge_some h
  split
  · exact .idle _ trivial
  split
  · next a hreply => exact .idle _ (DirectoryReply.resolve_error hreply)
  next k hk =>
  simp only [setChallengeOtp, hlisted, Option.map_some]
  exact .otpSent customerBankId otp sentAt mailError hlisted hlive hk

theorem loginVerify_moves (id : ChallengeId) (otp : String) (checkedAt codeAt : Instant)
    (code : String) : s.Moves cfg now (.verify id otp checkedAt codeAt code)
      (s.loginVerify now id otp checkedAt codeAt code).1
      (s.loginVerify now id otp checkedAt codeAt code).2 := by
  unfold loginVerify
  split
  · next h => exact .of_none _ trivial h
  next s' c h =>
  obtain ⟨rfl, hlisted, hlive⟩ := getChallenge_some h
  split
  · exact .idle _ trivial
  next haccepts => exact .verified codeAt code hlisted hlive (not_not.1 haccepts)

theorem token_moves (grantType code redirectUri clientId clientSecret refreshToken : String) :
    s.Moves cfg now (.token grantType code redirectUri clientId clientSecret refreshToken)
      (s.token cfg now grantType code redirectUri clientId clientSecret refreshToken).1
      (s.token cfg now grantType code redirectUri clientId clientSecret refreshToken).2 := by
  unfold token consumeAuthorizationCode
  split
  · exact .idle _ trivial
  next hgrant =>
  split
  · exact .idle _ trivial
  next hclient =>
  rw [not_or, not_not, not_not] at hclient
  obtain rfl := not_not.1 hgrant
  obtain ⟨rfl, rfl⟩ := hclient
  cases hfind : s.authCodes.find? fun k => k.code = code with
  | none => exact .idle _ trivial
  | some k =>
    dsimp only
    by_cases hspent : k.used ∨ k.expiresAt < now
    · rw [if_pos hspent]
      exact .idle _ trivial
    · rw [if_neg hspent]
      rw [not_or, Bool.not_eq_true] at hspent
      dsimp only
      split
      · exact .burnt _ code trivial
      next hmatch =>
        rw [not_or, not_not, not_not] at hmatch
        obtain ⟨rfl, hclientId⟩ := hmatch
        rw [← hclientId]
        exact .granted refreshToken hfind hspent.1 hspent.2

theorem getChallengeDebug_moves (id : ChallengeId) : s.Moves cfg now (.debug id)
    (s.getChallengeDebug cfg now id).1 (s.getChallengeDebug cfg now id).2 := by
  unfold getChallengeDebug
  split
  · exact .idle _ trivial
  split
  · next h => exact .of_none _ trivial h
  · next s' c h =>
    obtain ⟨rfl, -, -⟩ := getChallenge_some h
    exact .idle _ trivial

theorem handle_moves (cfg : OauthConfig) (now : Instant) (s : OauthStore) (r : OauthRequest) :
    s.Moves cfg now r (s.handle cfg now r).1 (s.handle cfg now r).2 := by
  cases r with
  | authorize clientId redirectUri responseType state scope id =>
    exact authorize_moves clientId redirectUri responseType state scope id
  | start id customerBankId reply otp sentAt mailError =>
    exact loginStart_moves id customerBankId reply otp sentAt mailError
  | verify id otp checkedAt codeAt code => exact loginVerify_moves id otp checkedAt codeAt code
  | token grantType code redirectUri clientId clientSecret refreshToken =>
    exact token_moves grantType code redirectUri clientId clientSecret refreshToken
  | debug id => exact getChallengeDebug_moves id

end OauthStore

end NbeAdvisor
