import NbeAdvisor.Keyed
import NbeAdvisor.Records
import NbeAdvisor.Tickets
import NbeAdvisor.Uuids

/-!
# Links for a password reset or the verification of an email

Any number of signups, requests for a link, confirmations of one, edits, deletions and exports of
the account, in any interleaving of their statements. A link carries a ticket that the key-value
server keeps for a user and a token. A token is stateless : it is made of a salt of its own kind,
the time, and the state of the user that its use changes. What is handed to the mail service is
recorded with its recipient and whether the service took it. The mail of a signup and of a request
for a verification is sent by the request, and that of a request for a reset by a task that it
starts.

A request keeps its copy of the user, as the code does, and a profile edit writes all the columns of
it back. `LinkTask.view` is what a request knows, `LinkTask.step_moves` says what each step can do,
and `LinkTask.Moves.comes` where the rows and the copies after a step come from.
-/

namespace NbeAdvisor

open Interleave

/-! ## Rows and tokens -/

/-- What `make_password` makes of a password, with its salt, and of `None`. -/
inductive PasswordHash where
  | salted (text : String)
  | unusable (text : String)
  deriving DecidableEq

/-- `User`, by the columns that the links depend on or change. -/
structure AppUser where
  id : Uuid
  email : String
  password : PasswordHash
  emailVerified : Bool := false
  lastLogin : Option Instant := none
  status : String := "active"
  name : String
  phone : Option String := none
  deriving DecidableEq

namespace AppUser

/-- `User.is_active`. -/
def isActive (u : AppUser) : Bool := u.status = "active"

/-- `has_usable_password`. -/
def hasUsablePassword (u : AppUser) : Bool :=
  match u.password with
  | .salted _ => true
  | .unusable _ => false

end AppUser

/-- A user who has signed up. -/
def signedUp : AppUser :=
  { id := ⟨"6f1c2a1e-0b57-4a53-9d0c-3f5b8e2a7d41", by decide, by simp⟩
    email := "mona@example.com", password := .salted "first", name := "Mona" }

/-- `JWTAuthentication.get_user` for the user that the token names, unless the token is refused. -/
def getUser (users : List AppUser) (accessError : Option String) (caller : Uuid) :
    Except String AppUser :=
  match accessError with
  | some message => .error message
  | none =>
    match users.find? fun u => u.id = caller with
    | none => .error "User not found"
    | some u => if u.isActive then .ok u else .error "User is inactive"

/-- The column as it is stored. -/
def PasswordHash.text : PasswordHash → String
  | salted text | unusable text => text

/-- The token generator of Django. `sign` makes a token of the salt of the generator, a hash value
and a timestamp in seconds. `checkToken` gets the hash value at each timestamp. The hash value that
Django has for a password reset is `resetHashValue`. -/
structure TokenMaker (T : Type*) where
  sign : String → String → ℤ → T
  checkToken : String → (ℤ → String) → T → ℤ → Bool
  resetKeySalt : String
  resetHashValue : AppUser → ℤ → String

/-- `settings.PASSWORD_RESET_TIMEOUT`, in seconds. -/
def passwordResetTimeout : ℤ := 259200

/-- `_num_seconds`. -/
def numSeconds (now : Instant) : ℤ := now / 10 ^ 6

namespace EmailVerificationTokenGenerator

/-- `key_salt` of the generator for verification links. -/
def keySalt : String := "core.auth_tokens.EmailVerificationTokenGenerator"

/-- `str` of a `bool`. -/
def boolText (b : Bool) : String := if b then "True" else "False"

/-- `_make_hash_value`. -/
def hashValue (u : AppUser) (timestamp : ℤ) : String :=
  u.id.text ++ boolText u.emailVerified ++ toString timestamp ++ u.email

end EmailVerificationTokenGenerator

/-- What the two generators of `core.auth_tokens` are instances of. -/
inductive LinkKind where
  | verification
  | reset
  deriving DecidableEq

namespace TokenMaker

variable {T : Type*} (maker : TokenMaker T)

/-- `key_salt`, by the generator. -/
def keySalt : LinkKind → String
  | .verification => EmailVerificationTokenGenerator.keySalt
  | .reset => maker.resetKeySalt

/-- `_make_hash_value`, by the generator. -/
def hashValue : LinkKind → AppUser → ℤ → String
  | .verification => EmailVerificationTokenGenerator.hashValue
  | .reset => maker.resetHashValue

/-- `make_token`. -/
def makeToken (kind : LinkKind) (u : AppUser) (now : Instant) : T :=
  maker.sign (maker.keySalt kind) (maker.hashValue kind u (numSeconds now)) (numSeconds now)

/-- `check_token`. -/
def accepts (kind : LinkKind) (u : AppUser) (token : T) (now : Instant) : Bool :=
  maker.checkToken (maker.keySalt kind) (maker.hashValue kind u) token (numSeconds now)

/-- What Django documents of its generator : a token tells what it was made of, it is accepted if it
is made of the hash value of its time and not too old, and a reset changes the hash value. -/
structure Documented : Prop where
  sign_injective : ∀ {k v ts k' v' ts'}, maker.sign k v ts = maker.sign k' v' ts' →
    k = k' ∧ v = v' ∧ ts = ts'
  checkToken_iff : ∀ {k value token now}, maker.checkToken k value token now = true ↔
    ∃ ts, token = maker.sign k (value ts) ts ∧ now ≤ ts + passwordResetTimeout
  keySalt_ne : maker.resetKeySalt ≠ EmailVerificationTokenGenerator.keySalt
  resetHashValue_eq : ∀ {u w ts}, maker.resetHashValue u ts = maker.resetHashValue w ts →
    u.id = w.id ∧ u.password = w.password

end TokenMaker

/-- A mail with a link that was handed to the mail service. -/
structure SentLink where
  recipient : String
  ticket : String
  accepted : Bool
  deriving DecidableEq

/-- The table of the users, the tickets of `services.link_tickets` with what they stand for, and the
mails with links. -/
structure LinkStore (T : Type*) where
  users : List AppUser := []
  tickets : List (Tickets.Entry String (Uuid × T)) := []
  outbox : List SentLink := []
  deriving DecidableEq

namespace LinkStore

variable {T : Type*} (s : LinkStore T)

/-- The user of an id. -/
def user (id : Uuid) : Option AppUser := s.users.find? fun u => u.id = id

/-- An insert, `none` if it meets the unique constraint on the email or the primary key. -/
def insert (u : AppUser) : Option (LinkStore T) :=
  if s.users.any fun w => w.email = u.email ∨ w.id = u.id then none
  else some { s with users := s.users ++ [u] }

/-- `save(update_fields=...)`, `none` if there is no row, where Django raises `DatabaseError`. -/
def update (id : Uuid) (f : AppUser → AppUser) : Option (LinkStore T) :=
  if s.users.any fun u => u.id = id then
    some { s with users := Keyed.modify AppUser.id id f s.users }
  else none

/-- `save()`, which writes all columns, and inserts the row if there is none. -/
def save (u : AppUser) : Option (LinkStore T) := (s.update u.id fun _ => u).or (s.insert u)

/-- `mint_link_ticket`. -/
def mintLinkTicket (now : Instant) (ticket : String) (user : Uuid) (token : T) : LinkStore T :=
  { s with tickets :=
    Tickets.set s.tickets ticket (user, token) (now + passwordResetTimeout * 10 ^ 6) }

/-- `redeem_link_ticket`. -/
def redeemLinkTicket (now : Instant) (ticket : String) : Option (Uuid × T) × LinkStore T :=
  ((Tickets.getdel s.tickets now ticket).1,
    { s with tickets := (Tickets.getdel s.tickets now ticket).2 })

/-- `send_email`, with the text of its `NotificationServiceError`. -/
def sendEmail (recipient ticket : String) (error : Option String) : LinkStore T :=
  { s with outbox := s.outbox ++ [⟨recipient, ticket, error.isNone⟩] }

end LinkStore

/-! ## The requests -/

/-- What a step gets from the clock, the generators, the check of the access token, the queue of the
tasks and the mail. -/
structure LinkHeard where
  now : Instant := 0
  generated : String := ""
  id : Uuid := default
  accessError : Option String := none
  enqueues : Bool := true
  mailError : Option String := none

/-- What a request is answered. -/
inductive LinkAnswer where
  | created
  | accepted
  | noContent
  | unauthorized (message : String)
  | forbidden (message : String)
  /-- A 422, with the field and its message. -/
  | invalid (field message : String)
  /-- A 502. -/
  | unavailable (message : String)
  /-- A 500. -/
  | serverError
  deriving DecidableEq

/-- A request that mails a link, with its copy of the user. What was minted stays known. -/
inductive LinkMail (T : Type*) where
  | starting
  | creating
  | making (user : AppUser)
  | minting (user : AppUser) (token : T)
  | mailing (user : AppUser) (token : T) (ticket : String)
  /-- The request is answered, and its task `send_password_reset_email` has not run. -/
  | queued (user : AppUser) (token : T) (ticket : String)
  | answered (minted : Option (AppUser × T × String)) (a : LinkAnswer)
  deriving DecidableEq

/-- A request that redeems a link. The copy of the user is as the check has read it. -/
inductive LinkConfirm (T : Type*) where
  | redeeming
  | finding (redeemed : Uuid × T)
  | saving (redeemed : Uuid × T) (user : AppUser)
  | saved (redeemed : Uuid × T) (user : AppUser)
  /-- A 500. -/
  | failed (redeemed : Uuid × T) (user : AppUser)
  | refused (redeemed : Option (Uuid × T)) (a : LinkAnswer)
  deriving DecidableEq

/-- `MeView.patch`, with its copy of the user. -/
inductive ProfilePatch where
  | authenticating
  | saving (user : AppUser)
  | saved (user : AppUser)
  /-- A 500. -/
  | failed (user : AppUser)
  | refused (a : LinkAnswer)
  deriving DecidableEq

/-- `MeView.delete`. -/
inductive AccountDelete where
  | authenticating
  | deleting
  | answered (a : LinkAnswer)
  deriving DecidableEq

/-- The request for an export and its task. -/
inductive DataExport where
  | authenticating
  | queued (user : AppUser)
  | mailed (user recipient : AppUser)
  /-- The task found no account. -/
  | dropped (user : AppUser)
  | ended (a : LinkAnswer)
  deriving DecidableEq

/-- The validated body of a signup, without the password, and the identity of a bank customer. -/
structure SignupBody where
  email : String
  name : String
  phone : Option String
  deriving DecidableEq

/-- The validated body of a profile edit. -/
structure ProfileBody where
  name : Option String := none
  phone : Option String := none
  deriving DecidableEq

/-- The user with the columns of the body set. -/
def ProfileBody.edit (body : ProfileBody) (u : AppUser) : AppUser :=
  { u with name := body.name.getD u.name, phone := body.phone.or u.phone }

/-- A request, with what it was sent and how far it is. -/
inductive LinkTask (T : Type*) where
  | signup (body : SignupBody) (t : LinkMail T)
  | verificationRequest (caller : Uuid) (t : LinkMail T)
  | resetRequest (email : String) (t : LinkMail T)
  | verificationConfirm (ticket : String) (t : LinkConfirm T)
  | resetConfirm (ticket : String) (t : LinkConfirm T)
  | bankSignup (body : SignupBody) (a : Option LinkAnswer)
  | profilePatch (caller : Uuid) (body : ProfileBody) (t : ProfilePatch)
  | accountDelete (caller : Uuid) (t : AccountDelete)
  | dataExport (caller : Uuid) (t : DataExport)
  deriving DecidableEq

/-- `IsAuthenticated`, with its 401. -/
def LinkStore.authenticate {T : Type*} (s : LinkStore T) (r : LinkHeard) (caller : Uuid) :
    Except LinkAnswer AppUser :=
  (getUser s.users r.accessError caller).mapError .unauthorized

section Steps

variable {T : Type*} (maker : TokenMaker T) (s : LinkStore T) (r : LinkHeard)

/-- The part that the three requests for a link share : the token and the ticket, and the mail with
the answer that depends on it. -/
def LinkMail.step (kind : LinkKind) (reply : Option String → LinkAnswer) :
    LinkMail T → Option (LinkStore T × LinkMail T)
  | making user => some (s, minting user (maker.makeToken kind user r.now))
  | minting user token =>
    some (s.mintLinkTicket r.now r.generated user.id token, mailing user token r.generated)
  | mailing user token ticket | queued user token ticket =>
    some (s.sendEmail user.email ticket r.mailError,
      answered (some (user, token, ticket)) (reply r.mailError))
  | starting | creating | answered _ _ => none

/-- The answer to a request for a verification, which is there to send the mail. -/
def verificationReply : Option String → LinkAnswer
  | none => .accepted
  | some message => .unavailable message

/-- A step of `SignupView.post`. -/
def signupStep (body : SignupBody) : LinkMail T → Option (LinkStore T × LinkMail T)
  | .starting =>
    if s.users.any fun u => u.email = body.email then
      some (s, .answered none (.invalid "email" "user with this email already exists."))
    else some (s, .creating)
  | .creating =>
    let user : AppUser :=
      { id := r.id, email := body.email, password := .salted r.generated, name := body.name,
        phone := body.phone }
    match s.insert user with
    | none => some (s, .answered none .serverError)
    | some s' => some (s', .making user)
  | t => t.step maker s r .verification fun _ => .created

/-- A step of `EmailVerificationRequestView.post`. -/
def verificationRequestStep (caller : Uuid) : LinkMail T → Option (LinkStore T × LinkMail T)
  | .starting =>
    match s.authenticate r caller with
    | .error a => some (s, .answered none a)
    | .ok user => some (s, .making user)
  | t => t.step maker s r .verification verificationReply

/-- A step of `PasswordResetRequestView.post`, and of the task that it starts. -/
def resetRequestStep (email : String) : LinkMail T → Option (LinkStore T × LinkMail T)
  | .starting =>
    match s.users.find? fun u => u.email = email with
    | none => some (s, .answered none .accepted)
    | some user => some (s, .making user)
  | .mailing user token ticket =>
    if r.enqueues then some (s, .queued user token ticket)
    else some (s, .answered (some (user, token, ticket)) .serverError)
  | t => t.step maker s r .reset fun _ => .accepted

/-- The two confirmations : the ticket, the user and the token, and then what `save` writes. -/
def LinkConfirm.step (kind : LinkKind) (save : AppUser → AppUser) (ticket : String) :
    LinkConfirm T → Option (LinkStore T × LinkConfirm T)
  | redeeming =>
    match s.redeemLinkTicket r.now ticket with
    | (none, s') => some (s', refused none (.invalid "t" "Invalid or expired link."))
    | (some redeemed, s') => some (s', finding redeemed)
  | finding redeemed =>
    match s.user redeemed.1 with
    | none => some (s, refused (some redeemed) (.invalid "t" "Invalid or expired link."))
    | some user =>
      if maker.accepts kind user redeemed.2 r.now then some (s, saving redeemed user)
      else some (s, refused (some redeemed) (.invalid "t" "Invalid or expired link."))
  | saving redeemed user =>
    match s.update user.id save with
    | none => some (s, failed redeemed user)
    | some s' => some (s', saved redeemed user)
  | saved _ _ | failed _ _ | refused _ _ => none

/-- A step of `PasswordResetConfirmView.post`, up to the revocation of the refresh tokens. -/
def resetConfirmStep : String → LinkConfirm T → Option (LinkStore T × LinkConfirm T) :=
  LinkConfirm.step maker s r .reset fun u => { u with password := .salted r.generated }

/-- A step of `EmailVerificationConfirmView.post`. -/
def verificationConfirmStep : String → LinkConfirm T → Option (LinkStore T × LinkConfirm T) :=
  LinkConfirm.step maker s r .verification fun u => { u with emailVerified := true }

/-- The row that the first login through a bank makes. -/
def bankSignupStep (body : SignupBody) :
    Option LinkAnswer → Option (LinkStore T × Option LinkAnswer)
  | none =>
    match s.insert { id := r.id, email := body.email, password := .unusable r.generated,
                     name := body.name, phone := body.phone } with
    | none => some (s, some (.invalid "bank_login_email_conflict"
        "An app account already uses this bank email. Sign in with that account instead."))
    | some s' => some (s', some .created)
  | some _ => none

/-- A step of `MeView.patch`. The serializer sets the columns it was given and saves them all. -/
def ProfilePatch.step (caller : Uuid) (body : ProfileBody) :
    ProfilePatch → Option (LinkStore T × ProfilePatch)
  | authenticating =>
    match s.authenticate r caller with
    | .error a => some (s, refused a)
    | .ok user => some (s, saving user)
  | saving user =>
    match s.save (body.edit user) with
    | none => some (s, failed user)
    | some s' => some (s', saved user)
  | saved _ | failed _ | refused _ => none

/-- A step of `MeView.delete`. -/
def AccountDelete.step (caller : Uuid) : AccountDelete → Option (LinkStore T × AccountDelete)
  | authenticating =>
    match s.authenticate r caller with
    | .error a => some (s, answered a)
    | .ok _ => some (s, deleting)
  | deleting =>
    some ({ s with users := s.users.filter fun u => u.id ≠ caller }, answered .noContent)
  | answered _ => none

/-- A step of `MeDataExportView.post`, and the task that it starts. -/
def DataExport.step (caller : Uuid) : DataExport → Option (LinkStore T × DataExport)
  | authenticating =>
    match s.authenticate r caller with
    | .error a => some (s, ended a)
    | .ok user =>
      if !user.emailVerified && user.hasUsablePassword then
        some (s, ended (.forbidden ("Verify your email before requesting a data export — this " ++
          "makes sure it's sent to an address you actually control.")))
      else some (s, queued user)
  | queued user =>
    match s.user caller with
    | none => some (s, dropped user)
    | some recipient => some (s, mailed user recipient)
  | mailed _ _ | dropped _ | ended _ => none

/-- A step of any request. -/
def LinkTask.step : LinkTask T → Option (LinkStore T × LinkTask T)
  | signup body t => (signupStep maker s r body t).map fun (s, t) => (s, signup body t)
  | verificationRequest caller t =>
    (verificationRequestStep maker s r caller t).map fun (s, t) => (s, verificationRequest caller t)
  | resetRequest email t =>
    (resetRequestStep maker s r email t).map fun (s, t) => (s, resetRequest email t)
  | verificationConfirm ticket t =>
    (verificationConfirmStep maker s r ticket t).map fun (s, t) => (s, verificationConfirm ticket t)
  | resetConfirm ticket t =>
    (resetConfirmStep maker s r ticket t).map fun (s, t) => (s, resetConfirm ticket t)
  | bankSignup body a => (bankSignupStep s r body a).map fun (s, a) => (s, bankSignup body a)
  | profilePatch caller body t =>
    (t.step s r caller body).map fun (s, t) => (s, profilePatch caller body t)
  | accountDelete caller t => (t.step s r caller).map fun (s, t) => (s, accountDelete caller t)
  | dataExport caller t => (t.step s r caller).map fun (s, t) => (s, dataExport caller t)

end Steps

/-- The request has just come in. -/
def LinkTask.Begins {T : Type*} : LinkTask T → Prop
  | signup _ t | verificationRequest _ t | resetRequest _ t => t = .starting
  | verificationConfirm _ t | resetConfirm _ t => t = .redeeming
  | bankSignup _ a => a = none
  | profilePatch _ _ t => t = .authenticating
  | accountDelete _ t => t = .authenticating
  | dataExport _ t => t = .authenticating

instance {T : Type*} [DecidableEq T] : DecidablePred (LinkTask.Begins (T := T))
  | .signup _ t | .verificationRequest _ t | .resetRequest _ t =>
    inferInstanceAs (Decidable (t = .starting))
  | .verificationConfirm _ t | .resetConfirm _ t => inferInstanceAs (Decidable (t = .redeeming))
  | .bankSignup _ a => inferInstanceAs (Decidable (a = none))
  | .profilePatch _ _ t => inferInstanceAs (Decidable (t = .authenticating))
  | .accountDelete _ t => inferInstanceAs (Decidable (t = .authenticating))
  | .dataExport _ t => inferInstanceAs (Decidable (t = .authenticating))

/-- All requests, over the tables, the key-value server and the mail service. -/
def linkServer {T : Type*} (maker : TokenMaker T) :
    System (LinkStore T) (LinkTask T) LinkHeard where
  step _ s t r := (t.step maker s r).map fun (s, t) => (s, t, [])
  arrives := LinkTask.Begins

instance {T : Type*} [DecidableEq T] (maker : TokenMaker T) :
    DecidablePred (linkServer maker).arrives :=
  inferInstanceAs (DecidablePred LinkTask.Begins)

/-! ## What a step does -/

/-- What a request knows : its copies of users, the token that it has made, the link that it has
minted, the ticket that it has redeemed, the check that it has passed and what it has saved after
it, and the export that it has started, with its recipient. -/
structure LinkView (T : Type*) where
  copies : List AppUser := []
  token : Option (LinkKind × AppUser × T) := none
  minted : Option (LinkKind × AppUser × T × String) := none
  redeemed : Option (String × Uuid × T) := none
  passed : Option (LinkKind × (Uuid × T) × AppUser) := none
  saved : Option (LinkKind × (Uuid × T) × AppUser) := none
  exported : Option (Uuid × AppUser × Option AppUser) := none

section Views

variable {T : Type*}

/-- What a request for a link knows. -/
def LinkMail.view (kind : LinkKind) : LinkMail T → LinkView T
  | making user => { copies := [user] }
  | minting user token => { copies := [user], token := some (kind, user, token) }
  | mailing user token ticket | queued user token ticket
  | answered (some (user, token, ticket)) _ =>
    { copies := [user], token := some (kind, user, token),
      minted := some (kind, user, token, ticket) }
  | starting | creating | answered none _ => {}

/-- What a confirmation knows. -/
def LinkConfirm.view (kind : LinkKind) (ticket : String) : LinkConfirm T → LinkView T
  | redeeming | refused none _ => {}
  | finding x | refused (some x) _ => { redeemed := some (ticket, x) }
  | saving x user | failed x user =>
    { copies := [user], redeemed := some (ticket, x), passed := some (kind, x, user) }
  | saved x user =>
    { copies := [user], redeemed := some (ticket, x), passed := some (kind, x, user),
      saved := some (kind, x, user) }

/-- What any request knows. -/
def LinkTask.view : LinkTask T → LinkView T
  | signup _ t | verificationRequest _ t => t.view .verification
  | resetRequest _ t => t.view .reset
  | verificationConfirm ticket t => t.view .verification ticket
  | resetConfirm ticket t => t.view .reset ticket
  | profilePatch _ _ (.saving user) | profilePatch _ _ (.saved user)
  | profilePatch _ _ (.failed user) => { copies := [user] }
  | dataExport caller (.queued user) | dataExport caller (.dropped user) =>
    { copies := [user], exported := some (caller, user, none) }
  | dataExport caller (.mailed user recipient) =>
    { copies := [user, recipient], exported := some (caller, user, some recipient) }
  | bankSignup _ _ | profilePatch _ _ _ | accountDelete _ _ | dataExport _ _ => {}

/-- The ticket that a confirmation was sent and takes next. -/
def LinkTask.presents : LinkTask T → Option String
  | verificationConfirm ticket .redeeming | resetConfirm ticket .redeeming => some ticket
  | _ => none

end Views

namespace LinkTask

variable {T : Type*} (maker : TokenMaker T) (s : LinkStore T) (r : LinkHeard)

/-- What a step of a request does. -/
inductive Moves : LinkTask T → LinkStore T → LinkTask T → Prop where
  | quiet {t t' : LinkTask T} : t'.view = t.view → Moves t s t'
  | creates {t t' : LinkTask T} {s' : LinkStore T} {u : AppUser} : t.view = {} →
      t'.view = {} ∨ t'.view = { copies := [u] } → u.id = r.id → u.password.text = r.generated →
      u.emailVerified = false → s.insert u = some s' → Moves t s' t'
  | reads {t t' : LinkTask T} {u : AppUser} : t.view = {} → u ∈ s.users →
      t'.view = { copies := [u] } → Moves t s t'
  | makes {t t' : LinkTask T} {kind : LinkKind} {u : AppUser} : t.view = { copies := [u] } →
      t'.view = { copies := [u], token := some (kind, u, maker.makeToken kind u r.now) } →
      Moves t s t'
  | mints {t t' : LinkTask T} {kind : LinkKind} {u : AppUser} {token : T} :
      t.view = { copies := [u], token := some (kind, u, token) } →
      t'.view = { copies := [u], token := some (kind, u, token),
                  minted := some (kind, u, token, r.generated) } →
      Moves t (s.mintLinkTicket r.now r.generated u.id token) t'
  | sends {t t' : LinkTask T} {kind : LinkKind} {u : AppUser} {token : T} {ticket : String} :
      t.view.minted = some (kind, u, token, ticket) → t'.view = t.view →
      Moves t (s.sendEmail u.email ticket r.mailError) t'
  | misses {t t' : LinkTask T} (ticket : String) : t'.view = t.view →
      Moves t (s.redeemLinkTicket r.now ticket).2 t'
  | redeems {t t' : LinkTask T} {ticket : String} {x : Uuid × T} : t.view = {} →
      t.presents = some ticket → (s.redeemLinkTicket r.now ticket).1 = some x →
      t'.view = { redeemed := some (ticket, x) } → Moves t (s.redeemLinkTicket r.now ticket).2 t'
  | checks {t t' : LinkTask T} {kind : LinkKind} {ticket : String} {x : Uuid × T} {u : AppUser} :
      t.view = { redeemed := some (ticket, x) } → u ∈ s.users → u.id = x.1 →
      maker.accepts kind u x.2 r.now = true →
      t'.view = { copies := [u], redeemed := some (ticket, x), passed := some (kind, x, u) } →
      Moves t s t'
  | resets {t t' : LinkTask T} {s' : LinkStore T} {x : Uuid × T} {u : AppUser} :
      t.view.passed = some (.reset, x, u) →
      t'.view = { t.view with saved := some (.reset, x, u) } →
      s.update u.id (fun w => { w with password := .salted r.generated }) = some s' → Moves t s' t'
  | verifies {t t' : LinkTask T} {s' : LinkStore T} {x : Uuid × T} {u : AppUser} :
      t.view.passed = some (.verification, x, u) →
      t'.view = { t.view with saved := some (.verification, x, u) } →
      s.update u.id (fun w => { w with emailVerified := true }) = some s' → Moves t s' t'
  | edits {caller : Uuid} {body : ProfileBody} {s' : LinkStore T} {u : AppUser} :
      s.save (body.edit u) = some s' →
      Moves (profilePatch caller body (.saving u)) s' (profilePatch caller body (.saved u))
  | deletes {t t' : LinkTask T} (caller : Uuid) : t'.view = t.view →
      Moves t { s with users := s.users.filter fun u => u.id ≠ caller } t'
  | exports {caller : Uuid} {u : AppUser} : u ∈ s.users → u.id = caller →
      u.emailVerified ∨ ¬u.hasUsablePassword →
      Moves (dataExport caller .authenticating) s (dataExport caller (.queued u))
  | mails {caller : Uuid} {u w : AppUser} : w ∈ s.users → w.id = caller →
      Moves (dataExport caller (.queued u)) s (dataExport caller (.mailed u w))

end LinkTask

section Inversion

variable {T : Type*} {maker : TokenMaker T} {s s' : LinkStore T} {r : LinkHeard}

theorem LinkStore.user_eq_some {id : Uuid} {u : AppUser} (h : s.user id = some u) :
    u ∈ s.users ∧ u.id = id :=
  ⟨List.mem_of_find?_eq_some h, by simpa using List.find?_some h⟩

theorem getUser_ok {users : List AppUser} {accessError : Option String} {caller : Uuid}
    {u : AppUser} (h : getUser users accessError caller = .ok u) :
    u ∈ users ∧ u.id = caller ∧ u.isActive := by
  unfold getUser at h
  split at h
  · cases h
  · split at h
    · cases h
    · next hu =>
      split at h
      · next hactive =>
        cases h
        exact ⟨List.mem_of_find?_eq_some hu, by simpa using List.find?_some hu, hactive⟩
      · cases h

theorem LinkStore.authenticate_ok {caller : Uuid} {u : AppUser}
    (h : s.authenticate r caller = .ok u) : u ∈ s.users ∧ u.id = caller := by
  unfold authenticate at h
  cases hu : getUser s.users r.accessError caller with
  | error message =>
    rw [hu] at h
    cases h
  | ok w =>
    rw [hu] at h
    cases h
    exact ⟨(getUser_ok hu).1, (getUser_ok hu).2.1⟩

namespace LinkTask

theorem mail_moves {kind : LinkKind} (reply : Option String → LinkAnswer)
    {wrap : LinkMail T → LinkTask T} (hview : ∀ t, (wrap t).view = t.view kind) {t t' : LinkMail T}
    (h : t.step maker s r kind reply = some (s', t')) : Moves maker s r (wrap t) s' (wrap t') := by
  cases t with
  | making user =>
    cases h
    exact .makes (hview _) (hview _)
  | minting user token =>
    cases h
    exact .mints (hview _) (hview _)
  | mailing user token ticket | queued user token ticket =>
    cases h
    exact .sends (congrArg LinkView.minted (hview _)) (by rw [hview, hview]; rfl)
  | starting | creating | answered minted a => cases h

theorem confirm_moves {kind : LinkKind} {save : AppUser → AppUser} {ticket : String}
    {wrap : LinkConfirm T → LinkTask T} (hview : ∀ t, (wrap t).view = t.view kind ticket)
    (hpresents : (wrap .redeeming).presents = some ticket)
    (hsave : ∀ {x u s'}, s.update u.id save = some s' →
      Moves maker s r (wrap (.saving x u)) s' (wrap (.saved x u))) {t t' : LinkConfirm T}
    (h : t.step maker s r kind save ticket = some (s', t')) :
    Moves maker s r (wrap t) s' (wrap t') := by
  cases t with
  | redeeming =>
    simp only [LinkConfirm.step] at h
    split at h
    · next hx =>
      cases h
      obtain ⟨-, rfl⟩ := Prod.mk.inj hx
      exact .misses ticket (by rw [hview, hview]; rfl)
    · next x s₁ hx =>
      cases h
      obtain ⟨h₁, rfl⟩ := Prod.mk.inj hx
      exact .redeems (hview _) hpresents h₁ (hview _)
  | finding x =>
    simp only [LinkConfirm.step] at h
    split at h
    · cases h
      exact .quiet (by rw [hview, hview]; rfl)
    · next u hu =>
      obtain ⟨hmem, hid⟩ := LinkStore.user_eq_some hu
      split at h
      · next haccepts =>
        cases h
        exact .checks (hview _) hmem hid haccepts (hview _)
      · cases h
        exact .quiet (by rw [hview, hview]; rfl)
  | saving x user =>
    simp only [LinkConfirm.step] at h
    split at h
    · cases h
      exact .quiet (by rw [hview, hview]; rfl)
    · next hs =>
      cases h
      exact hsave hs
  | saved x user | failed x user | refused x a => cases h

theorem signup_moves {body : SignupBody} {t t' : LinkMail T}
    (h : signupStep maker s r body t = some (s', t')) :
    Moves maker s r (signup body t) s' (signup body t') := by
  cases t with
  | starting =>
    simp only [signupStep] at h
    split at h <;> cases h <;> exact .quiet rfl
  | creating =>
    simp only [signupStep] at h
    split at h
    · cases h
      exact .quiet rfl
    · next hs =>
      cases h
      exact .creates rfl (Or.inr rfl) rfl rfl rfl hs
  | making user | minting user token | mailing user token ticket | queued user token ticket
  | answered minted a =>
    exact mail_moves (fun _ => .created) (fun _ => rfl) h

theorem verificationRequest_moves {caller : Uuid} {t t' : LinkMail T}
    (h : verificationRequestStep maker s r caller t = some (s', t')) :
    Moves maker s r (verificationRequest caller t) s' (verificationRequest caller t') := by
  cases t with
  | starting =>
    simp only [verificationRequestStep] at h
    split at h
    · cases h
      exact .quiet rfl
    · next hu =>
      cases h
      exact .reads rfl (LinkStore.authenticate_ok hu).1 rfl
  | creating | making user | minting user token | mailing user token ticket
  | queued user token ticket | answered minted a =>
    exact mail_moves verificationReply (fun _ => rfl) h

theorem resetRequest_moves {email : String} {t t' : LinkMail T}
    (h : resetRequestStep maker s r email t = some (s', t')) :
    Moves maker s r (resetRequest email t) s' (resetRequest email t') := by
  cases t with
  | starting =>
    simp only [resetRequestStep] at h
    split at h
    · cases h
      exact .quiet rfl
    · next hu =>
      cases h
      exact .reads rfl (List.mem_of_find?_eq_some hu) rfl
  | mailing user token ticket =>
    simp only [resetRequestStep] at h
    split at h <;> cases h <;> exact .quiet rfl
  | creating | making user | minting user token | queued user token ticket | answered minted a =>
    exact mail_moves (fun _ => .accepted) (fun _ => rfl) h

theorem bankSignup_moves {body : SignupBody} {a a' : Option LinkAnswer}
    (h : bankSignupStep s r body a = some (s', a')) :
    Moves maker s r (bankSignup body a) s' (bankSignup body a') := by
  cases a with
  | none =>
    simp only [bankSignupStep] at h
    split at h
    · cases h
      exact .quiet rfl
    · next hs =>
      cases h
      exact .creates rfl (Or.inl rfl) rfl rfl rfl hs
  | some a => cases h

theorem profilePatch_moves {caller : Uuid} {body : ProfileBody} {t t' : ProfilePatch}
    (h : t.step s r caller body = some (s', t')) :
    Moves maker s r (profilePatch caller body t) s' (profilePatch caller body t') := by
  cases t with
  | authenticating =>
    simp only [ProfilePatch.step] at h
    split at h
    · cases h
      exact .quiet rfl
    · next hu =>
      cases h
      exact .reads rfl (LinkStore.authenticate_ok hu).1 rfl
  | saving user =>
    simp only [ProfilePatch.step] at h
    split at h
    · cases h
      exact .quiet rfl
    · next hs =>
      cases h
      exact .edits hs
  | saved user | failed user | refused a => cases h

theorem accountDelete_moves {caller : Uuid} {t t' : AccountDelete}
    (h : t.step s r caller = some (s', t')) :
    Moves maker s r (accountDelete caller t) s' (accountDelete caller t') := by
  cases t with
  | authenticating =>
    simp only [AccountDelete.step] at h
    split at h <;> cases h <;> exact .quiet rfl
  | deleting =>
    cases h
    exact .deletes caller rfl
  | answered a => cases h

theorem dataExport_moves {caller : Uuid} {t t' : DataExport}
    (h : t.step s r caller = some (s', t')) :
    Moves maker s r (dataExport caller t) s' (dataExport caller t') := by
  cases t with
  | authenticating =>
    simp only [DataExport.step] at h
    split at h
    · cases h
      exact .quiet rfl
    · next u hu =>
      obtain ⟨hmem, hid⟩ := LinkStore.authenticate_ok hu
      split at h
      · cases h
        exact .quiet rfl
      · next hallowed =>
        cases h
        refine .exports hmem hid ?_
        cases hv : u.emailVerified <;> simp_all
  | queued user =>
    simp only [DataExport.step] at h
    split at h
    · cases h
      exact .quiet rfl
    · next hw =>
      cases h
      exact .mails (LinkStore.user_eq_some hw).1 (LinkStore.user_eq_some hw).2
  | mailed user recipient | dropped user | ended a => cases h

theorem step_moves {t t' : LinkTask T} (h : t.step maker s r = some (s', t')) :
    Moves maker s r t s' t' := by
  cases t with
  | signup body t =>
    obtain ⟨⟨s', t'⟩, hstep, heq⟩ := Option.map_eq_some_iff.1 h
    cases heq
    exact signup_moves hstep
  | verificationRequest caller t =>
    obtain ⟨⟨s', t'⟩, hstep, heq⟩ := Option.map_eq_some_iff.1 h
    cases heq
    exact verificationRequest_moves hstep
  | resetRequest email t =>
    obtain ⟨⟨s', t'⟩, hstep, heq⟩ := Option.map_eq_some_iff.1 h
    cases heq
    exact resetRequest_moves hstep
  | verificationConfirm ticket t =>
    obtain ⟨⟨s', t'⟩, hstep, heq⟩ := Option.map_eq_some_iff.1 h
    cases heq
    exact confirm_moves (fun _ => rfl) rfl (.verifies rfl rfl) hstep
  | resetConfirm ticket t =>
    obtain ⟨⟨s', t'⟩, hstep, heq⟩ := Option.map_eq_some_iff.1 h
    cases heq
    exact confirm_moves (fun _ => rfl) rfl (.resets rfl rfl) hstep
  | bankSignup body a =>
    obtain ⟨⟨s', a'⟩, hstep, heq⟩ := Option.map_eq_some_iff.1 h
    cases heq
    exact bankSignup_moves hstep
  | profilePatch caller body t =>
    obtain ⟨⟨s', t'⟩, hstep, heq⟩ := Option.map_eq_some_iff.1 h
    cases heq
    exact profilePatch_moves hstep
  | accountDelete caller t =>
    obtain ⟨⟨s', t'⟩, hstep, heq⟩ := Option.map_eq_some_iff.1 h
    cases heq
    exact accountDelete_moves hstep
  | dataExport caller t =>
    obtain ⟨⟨s', t'⟩, hstep, heq⟩ := Option.map_eq_some_iff.1 h
    cases heq
    exact dataExport_moves hstep

end LinkTask

namespace LinkTask

/-- Where a row or a copy after a step comes from. `new` is the user whom the step has created. -/
inductive Comes (s : LinkStore T) (r : LinkHeard) (t t' : LinkTask T) (new : Option AppUser) :
    AppUser → Prop where
  | kept {c c' : AppUser} : c ∈ s.users → c'.id = c.id → c'.email = c.email →
      c'.password = c.password → c'.emailVerified = c.emailVerified → Comes s r t t' new c'
  | copied {c c' : AppUser} : c ∈ t.view.copies → c'.id = c.id → c'.email = c.email →
      c'.password = c.password → c'.emailVerified = c.emailVerified → Comes s r t t' new c'
  | created {c' : AppUser} : new = some c' → c'.id = r.id → c'.password.text = r.generated →
      c'.emailVerified = false → Comes s r t t' new c'
  | reset {c c' : AppUser} : c ∈ s.users → c'.id = c.id → c'.email = c.email →
      c'.password.text = r.generated → c'.emailVerified = c.emailVerified → Comes s r t t' new c'
  | verified {c c' u : AppUser} {x : Uuid × T} : c ∈ s.users → c'.id = c.id →
      c'.email = c.email → c'.password = c.password →
      t'.view.saved = some (.verification, x, u) → u.id = c.id → Comes s r t t' new c'

variable {t t' : LinkTask T} {new : Option AppUser} {c' : AppUser}

theorem Comes.of_mem (h : c' ∈ s.users) : Comes s r t t' new c' := .kept h rfl rfl rfl rfl

theorem Comes.of_copy (h : c' ∈ t.view.copies) : Comes s r t t' new c' := .copied h rfl rfl rfl rfl

theorem insert_eq_some {u : AppUser} (h : s.insert u = some s') :
    s' = { s with users := s.users ++ [u] } := by
  unfold LinkStore.insert at h
  split at h
  · cases h
  · cases h
    rfl

theorem update_eq_some {id : Uuid} {f : AppUser → AppUser} (h : s.update id f = some s') :
    s' = { s with users := Keyed.modify AppUser.id id f s.users } := by
  unfold LinkStore.update at h
  split at h
  · cases h
    rfl
  · cases h

/-- Only the users change. -/
theorem save_eq_some {u : AppUser} (h : s.save u = some s') :
    s' = { s with users := s'.users } := by
  rcases Option.or_eq_some_iff.1 h with h | ⟨-, h⟩
  · rw [update_eq_some h]
  · rw [insert_eq_some h]

theorem mem_update {id : Uuid} {f : AppUser → AppUser} (h : s.update id f = some s')
    (hc : c' ∈ s'.users) : (c' ∈ s.users ∧ c'.id ≠ id) ∨ ∃ c ∈ s.users, c.id = id ∧ f c = c' := by
  rw [update_eq_some h] at hc
  exact Keyed.mem_modify.1 hc

theorem mem_save {u : AppUser} (h : s.save u = some s') (hc : c' ∈ s'.users) :
    c' ∈ s.users ∨ c' = u := by
  rcases Option.or_eq_some_iff.1 h with h | ⟨-, h⟩
  · exact (mem_update h hc).imp And.left fun ⟨_, _, _, hu⟩ => hu.symm
  · rw [insert_eq_some h, List.mem_append, List.mem_singleton] at hc
    exact hc

/-- The rows and the copies of the request after a step. -/
theorem Moves.comes (hm : Moves maker s r t s' t') : ∃ new, ∀ c',
    c' ∈ s'.users ∨ c' ∈ t'.view.copies → Comes s r t t' new c' := by
  have hquiet : t'.view = t.view → s'.users = s.users → ∃ new, ∀ c',
      c' ∈ s'.users ∨ c' ∈ t'.view.copies → Comes s r t t' new c' := by
    rintro hview husers
    refine ⟨none, fun c' hc => ?_⟩
    rw [hview, husers] at hc
    exact hc.elim .of_mem .of_copy
  have hreads : ∀ l : List AppUser, (∀ c ∈ t'.view.copies, c ∈ t.view.copies ∨ c ∈ l) →
      (∀ c ∈ l, c ∈ s.users) → s' = s → ∃ new, ∀ c',
      c' ∈ s'.users ∨ c' ∈ t'.view.copies → Comes s r t t' new c' := by
    rintro l hcopies hl rfl
    refine ⟨none, fun c' hc => ?_⟩
    rcases hc with hc | hc
    · exact .of_mem hc
    · exact (hcopies c' hc).elim .of_copy fun hc => .of_mem (hl c' hc)
  cases hm with
  | quiet hview => exact hquiet hview rfl
  | @creates t t' s' u hblank hview hid hpassword hverified hs =>
    have hnew : Comes s r t t' (some u) u := .created rfl hid hpassword hverified
    refine ⟨some u, fun c' hc => ?_⟩
    rw [insert_eq_some hs, List.mem_append, List.mem_singleton] at hc
    rcases hc with (hc | rfl) | hc
    · exact .of_mem hc
    · exact hnew
    · rcases hview with hview | hview
      · simp [hview] at hc
      · obtain rfl : c' = u := by simpa [hview] using hc
        exact hnew
  | @reads t t' u hblank hu hview => exact hreads [u] (by simp [hview]) (by simpa using hu) rfl
  | makes hview hview' => exact hreads [] (by simp [hview, hview']) (by simp) rfl
  | mints hview hview' =>
    refine ⟨none, fun c' hc => ?_⟩
    exact hc.elim (fun hc => .of_mem hc) fun hc => .of_copy (by simpa [hview, hview'] using hc)
  | sends hminted hview => exact hquiet hview rfl
  | misses ticket hview => exact hquiet hview rfl
  | redeems hblank hpresents hx hview =>
    refine ⟨none, fun c' hc => ?_⟩
    exact hc.elim (fun hc => .of_mem hc) fun hc => by simp [hview] at hc
  | @checks t t' kind ticket x u hview hu hid haccepts hview' =>
    exact hreads [u] (by simp [hview']) (by simpa using hu) rfl
  | resets hpassed hview hs =>
    refine ⟨none, fun c' hc => ?_⟩
    rcases hc with hc | hc
    · rcases mem_update hs hc with ⟨hc, -⟩ | ⟨c, hmem, hid, rfl⟩
      · exact .of_mem hc
      · exact .reset hmem rfl rfl rfl rfl
    · exact .of_copy (by rwa [hview] at hc)
  | verifies hpassed hview hs =>
    refine ⟨none, fun c' hc => ?_⟩
    rcases hc with hc | hc
    · rcases mem_update hs hc with ⟨hc, -⟩ | ⟨c, hmem, hid, rfl⟩
      · exact .of_mem hc
      · exact .verified hmem rfl rfl rfl (by rw [hview]) hid.symm
    · exact .of_copy (by rwa [hview] at hc)
  | @edits caller body s' u hs =>
    refine ⟨none, fun c' hc => ?_⟩
    rcases hc with hc | hc
    · rcases mem_save hs hc with hc | rfl
      · exact .of_mem hc
      · exact .copied (c := u) List.mem_cons_self rfl rfl rfl rfl
    · exact .of_copy hc
  | deletes caller hview =>
    refine ⟨none, fun c' hc => ?_⟩
    exact hc.elim (fun hc => .of_mem (List.mem_of_mem_filter hc)) fun hc => .of_copy (hview ▸ hc)
  | @exports caller u hu hid hallowed =>
    exact hreads [u] (by simp [view]) (by simpa using hu) rfl
  | @mails caller u w hw hid => exact hreads [w] (by simp [view]) (by simpa using hw) rfl

/-- What a request knows, it keeps. -/
theorem Moves.copies (hm : Moves maker s r t s' t') : t.view.copies ⊆ t'.view.copies := by
  cases hm with
  | quiet hview | sends hminted hview | misses ticket hview | resets hpassed hview
  | verifies hpassed hview | deletes caller hview =>
    rw [hview]
    exact List.Subset.refl _
  | creates hblank | reads hblank | redeems hblank =>
    simp [hblank]
  | makes hview hview' | mints hview hview' =>
    simp [hview, hview']
  | checks hview => simp [hview]
  | edits hs => exact List.Subset.refl _
  | exports hu => simp [view]
  | mails hw => simp [view]

end LinkTask

end Inversion

end NbeAdvisor
