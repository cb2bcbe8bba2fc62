import NbeAdvisor.BankOauth
import NbeAdvisor.Interleave

/-!
# Logins in the thread pool of the bank

`/login/start` and `/login/verify` run in a thread pool. The store takes a lock for each of its
calls, but `/login/verify` reads the fields of the challenge without it, one after the other, while
`set_challenge_otp` writes them, one after the other. A step is a call of the store, or a read or
write of one field that can change; `client_id`, `redirect_uri` and `state` never do.

`LoginTask.Moves` says what a step does. Alone, each request does what its sequential handler does
(`LoginServer.verify_alone`, `LoginServer.start_alone`).
-/

namespace NbeAdvisor

open Interleave

/-! ## Fields -/

/-- The fields that `set_challenge_otp` writes, in its order. -/
inductive OtpField where
  | customerId | email | phone | name | otp | expiresAt
  deriving DecidableEq

namespace OtpField

/-- A field is assigned. -/
def write (now : Instant) (k : BankIdentity) (otp : String) : OtpField → Challenge → Challenge
  | customerId, c => { c with customerId := some k.customerId }
  | email, c => { c with email := some k.email }
  | phone, c => { c with phone := some k.phone }
  | name, c => { c with name := k.name }
  | .otp, c => { c with otp := some otp }
  | expiresAt, c => { c with otpExpiresAt := some (now + otpTtl) }

/-- The field that is written after. -/
def next : OtpField → Option OtpField
  | customerId => some email
  | email => some phone
  | phone => some name
  | name => some .otp
  | .otp => some expiresAt
  | expiresAt => none

theorem write_id (now : Instant) (k : BankIdentity) (otp : String) (f : OtpField) (c : Challenge) :
    (f.write now k otp c).id = c.id := by
  cases f <;> rfl

end OtpField

/-- The conditions of `login_verify`, in its order. -/
inductive OtpCheck where
  | otpSet | customerSet | phoneSet | expirySet | notExpired | matches
  deriving DecidableEq

namespace OtpCheck

/-- The challenge passes the condition. -/
def Passes (now : Instant) (otp : String) (c : Challenge) : OtpCheck → Prop
  | otpSet => c.otp ≠ none
  | customerSet => c.customerId ≠ none
  | phoneSet => c.phone ≠ none
  | expirySet => c.otpExpiresAt ≠ none
  | notExpired => ∀ t ∈ c.otpExpiresAt, now ≤ t
  | .matches => c.otp = some (strip otp)

instance (now : Instant) (otp : String) (c : Challenge) :
    (k : OtpCheck) → Decidable (k.Passes now otp c)
  | otpSet => inferInstanceAs (Decidable (c.otp ≠ none))
  | customerSet => inferInstanceAs (Decidable (c.customerId ≠ none))
  | phoneSet => inferInstanceAs (Decidable (c.phone ≠ none))
  | expirySet => inferInstanceAs (Decidable (c.otpExpiresAt ≠ none))
  | notExpired => inferInstanceAs (Decidable (∀ t ∈ c.otpExpiresAt, now ≤ t))
  | .matches => inferInstanceAs (Decidable (c.otp = some (strip otp)))

/-- The condition that is checked after. -/
def next : OtpCheck → Option OtpCheck
  | otpSet => some customerSet
  | customerSet => some phoneSet
  | phoneSet => some expirySet
  | expirySet => some notExpired
  | notExpired => some .matches
  | .matches => none

end OtpCheck

/-- What a request has read for its code, and the customer whom the OTP it matched was generated
for. -/
structure Draft where
  matchedFor : Option BankIdentity
  customerId : Option String := none
  email : Option String := none
  phone : Option String := none
  name : Option String := none
  deriving DecidableEq

/-- The fields that `login_verify` reads for the code, in its order. -/
inductive CodeField where
  | customerId | email | phone | name
  deriving DecidableEq

namespace CodeField

/-- The read of one field. -/
def read (c : Challenge) (d : Draft) : CodeField → Draft
  | customerId => { d with customerId := c.customerId }
  | email => { d with email := c.email }
  | phone => { d with phone := c.phone }
  | name => { d with name := c.name }

/-- The field that is read after this one. -/
def next : CodeField → Option CodeField
  | customerId => some email
  | email => some phone
  | phone => some name
  | name => none

/-- This field and those that are read after it. -/
def rest : CodeField → List CodeField
  | customerId => [customerId, email, phone, name]
  | email => [email, phone, name]
  | phone => [phone, name]
  | name => [name]

/-- The field of a customer. -/
def ofIdentity (k : BankIdentity) : CodeField → Option String
  | customerId => some k.customerId
  | email => some k.email
  | phone => some k.phone
  | name => k.name

/-- The field of a challenge. -/
def ofChallenge (c : Challenge) : CodeField → Option String
  | customerId => c.customerId
  | email => c.email
  | phone => c.phone
  | name => c.name

/-- The field of what has been read. -/
def ofDraft (d : Draft) : CodeField → Option String
  | customerId => d.customerId
  | email => d.email
  | phone => d.phone
  | name => d.name

theorem ofDraft_read (c : Challenge) (d : Draft) (f g : CodeField) :
    g.ofDraft (f.read c d) = if g = f then f.ofChallenge c else g.ofDraft d := by
  cases f <;> cases g <;> rfl

@[simp] theorem matchedFor_read (c : Challenge) (d : Draft) (f : CodeField) :
    (f.read c d).matchedFor = d.matchedFor := by
  cases f <;> rfl

theorem mem_rest (f : CodeField) : f ∈ customerId.rest := by
  cases f <;> decide

/-- What is still to be read after this field. -/
theorem mem_rest_of_next {f g h : CodeField} (hnext : f.next = some g) :
    h ∈ g.rest ↔ h ∈ f.rest ∧ h ≠ f := by
  cases f <;> cases hnext <;> cases h <;> decide

end CodeField

/-- The field that is written here, if it is one that a code is made of. -/
def OtpField.codeField : OtpField → Option CodeField
  | customerId => some .customerId
  | email => some .email
  | phone => some .phone
  | name => some .name
  | .otp | expiresAt => none

/-- A write changes no other field of those that a code is made of. -/
theorem OtpField.ofChallenge_write (now : Instant) (k : BankIdentity) (otp : String) (f : OtpField)
    (c : Challenge) (g : CodeField) : g.ofChallenge (f.write now k otp c) =
      if f.codeField = some g then g.ofIdentity k else g.ofChallenge c := by
  cases f <;> cases g <;> rfl

/-- The challenge has the data of this customer. -/
def Challenge.IsOf (c : Challenge) (k : BankIdentity) : Prop :=
  c.customerId = some k.customerId ∧ c.email = some k.email ∧ c.phone = some k.phone ∧
    c.name = k.name

instance (c : Challenge) (k : BankIdentity) : Decidable (c.IsOf k) := by
  unfold Challenge.IsOf
  infer_instance

theorem Challenge.IsOf.field {c : Challenge} {k : BankIdentity} (h : c.IsOf k) (f : CodeField) :
    f.ofChallenge c = f.ofIdentity k := by
  obtain ⟨hcustomer, hemail, hphone, hname⟩ := h
  cases f with
  | customerId => exact hcustomer
  | email => exact hemail
  | phone => exact hphone
  | name => exact hname

/-- The code that `create_auth_code` stores. -/
def Draft.code (now : Instant) (code : String) (c : Challenge) (d : Draft) : AuthorizationCode :=
  { code, clientId := c.clientId, redirectUri := c.redirectUri, customerId := d.customerId
    email := d.email, phone := d.phone, name := d.name, expiresAt := now + authCodeTtl }

/-! ## The store -/

/-- A code that was made, the challenge it was made of, and whom the matched OTP was for. -/
structure Issue where
  id : ChallengeId
  code : AuthorizationCode
  matchedFor : Option BankIdentity
  deriving DecidableEq

/-- The store with its lock. `sent` says which OTPs were written for whom, the last one first, and
`issued` which codes were made. -/
structure LoginServer extends OauthStore where
  lock : Option ℕ := none
  sent : List (ChallengeId × BankIdentity) := []
  issued : List Issue := []
  deriving DecidableEq

namespace LoginServer

variable (s : LoginServer) (id : ChallengeId)

/-- The challenge itself, whether the dictionary has it or not. -/
def object : Option Challenge := s.objects.find? fun c => c.id = id

/-- The customer for whom the OTP of the challenge was generated. -/
def otpFor : Option BankIdentity := (s.sent.find? fun x => x.1 = id).map Prod.snd

/-- A write of one field, which `set_challenge_otp` makes with the lock. -/
def write (now : Instant) (k : BankIdentity) (otp : String) (f : OtpField) : LoginServer :=
  { s with
    toOauthStore := s.toOauthStore.modifyChallenge id (f.write now k otp)
    sent := if f = .otp then (id, k) :: s.sent else s.sent
    lock := if f = .expiresAt then none else s.lock }

/-- `pop_challenge`. -/
def pop : LoginServer := { s with toOauthStore := s.toOauthStore.popChallenge id }

/-- `create_authorization_code`. -/
def issue (x : Issue) : LoginServer :=
  { s with
    toOauthStore := s.toOauthStore.createAuthorizationCode x.code
    issued := s.issued ++ [x] }

end LoginServer

/-! ## The requests -/

/-- What a step gets from the clock, the generator and the services around. -/
structure Heard where
  now : Instant := 0
  reply : DirectoryReply := .garbled
  generated : String := ""
  mailError : Option String := none

/-- The points of `login_start`. -/
inductive LoginStart where
  | getting
  | asking
  | setting (k : BankIdentity)
  | writing (f : OtpField) (k : BankIdentity) (otp : String)
  | mailing
  | answered (a : OauthAnswer)
  deriving DecidableEq

/-- The points of `login_verify`. -/
inductive LoginVerify where
  | getting
  | checking (k : OtpCheck)
  | reading (f : CodeField) (d : Draft)
  | creating (d : Draft)
  | popping (code : String)
  | answered (a : OauthAnswer)
  deriving DecidableEq

/-- The two requests, each with its form. -/
inductive LoginTask where
  | start (id : ChallengeId) (customerBankId : String) (t : LoginStart)
  | verify (id : ChallengeId) (otp : String) (t : LoginVerify)
  deriving DecidableEq

/-- A step of `login_start` in thread `i`. -/
def LoginStart.step (i : ℕ) (s : LoginServer) (id : ChallengeId) (customerBankId : String)
    (r : Heard) : LoginStart → Option (LoginServer × LoginStart)
  | getting =>
    if s.lock = none then
      match s.toOauthStore.getChallenge r.now id with
      | (s', none) => some ({ s with toOauthStore := s' },
          answered (.page 404 "This login session is unknown or has expired."))
      | (s', some _) => some ({ s with toOauthStore := s' }, asking)
    else none
  | asking =>
    if strip customerBankId = "" then
      some (s, answered (.page 400 "Customer ID is required."))
    else
      match r.reply.resolve with
      | .error a => some (s, answered a)
      | .ok k => some (s, setting k)
  | setting k =>
    if s.lock = none then
      match s.toOauthStore.listed id with
      | none => some (s, answered .raises)
      | some _ => some ({ s with lock := some i }, writing .customerId k r.generated)
    else none
  | writing f k otp =>
    some (s.write id r.now k otp f,
      match f.next with
      | some g => writing g k otp
      | none => mailing)
  | mailing => some (s, answered (r.mailError.elim (.codePage id) (.mailFailed id)))
  | answered _ => none

/-- A step of `login_verify`. -/
def LoginVerify.step (s : LoginServer) (id : ChallengeId) (otp : String) (r : Heard) :
    LoginVerify → Option (LoginServer × LoginVerify)
  | getting =>
    if s.lock = none then
      match s.toOauthStore.getChallenge r.now id with
      | (s', none) => some ({ s with toOauthStore := s' },
          answered (.page 400 "This login session is unknown or has expired."))
      | (s', some _) => some ({ s with toOauthStore := s' }, checking .otpSet)
    else none
  | checking k =>
    (s.object id).map fun c =>
      if k.Passes r.now otp c then
        (s, match k.next with
          | some k => checking k
          | none => reading .customerId { matchedFor := s.otpFor id })
      else (s, answered (.page 400 "Invalid or expired verification code."))
  | reading f d =>
    (s.object id).map fun c =>
      (s, match f.next with
        | some g => reading g (f.read c d)
        | none => creating (f.read c d))
  | creating d =>
    if s.lock = none then
      (s.object id).map fun c =>
        (s.issue { id, code := d.code r.now r.generated c, matchedFor := d.matchedFor },
          popping r.generated)
    else none
  | popping code =>
    if s.lock = none then
      (s.object id).map fun c =>
        (s.pop id, answered (.redirect c.redirectUri code c.state))
    else none
  | answered _ => none

/-- One step of a request. -/
def LoginTask.step (i : ℕ) (s : LoginServer) (r : Heard) : LoginTask → Option (LoginServer × LoginTask)
  | start id customerBankId t =>
    (t.step i s id customerBankId r).map fun (s, t) => (s, start id customerBankId t)
  | verify id otp t => (t.step s id otp r).map fun (s, t) => (s, verify id otp t)

/-- A request comes in at its first point. -/
def LoginTask.Begins : LoginTask → Prop
  | start _ _ t => t = .getting
  | verify _ _ t => t = .getting

instance : DecidablePred LoginTask.Begins
  | .start _ _ t => inferInstanceAs (Decidable (t = .getting))
  | .verify _ _ t => inferInstanceAs (Decidable (t = .getting))

/-- Requests of any number of browsers, in any order. -/
def loginServer : System LoginServer LoginTask Heard where
  step i s t r := (t.step i s r).map fun (s, t) => (s, t, [])
  arrives := LoginTask.Begins

instance : DecidablePred loginServer.arrives := inferInstanceAs (DecidablePred LoginTask.Begins)

/-! ## What a step does -/

namespace LoginServer

variable {s : LoginServer} {id j : ChallengeId} {c : Challenge} {now : Instant} {k : BankIdentity}
  {otp : String} {f : OtpField}

theorem object_id (h : s.object id = some c) : c.id = id := by
  simpa using List.find?_some h

theorem object_write : (s.write id now k otp f).object j =
    (s.object j).map fun c => if c.id = id then f.write now k otp c else c :=
  Keyed.find?_modify fun c _ _ => by rw [f.write_id]

theorem otpFor_write : (s.write id now k otp f).otpFor j =
    if f = .otp ∧ id = j then some k else s.otpFor j := by
  unfold otpFor write
  by_cases hf : f = .otp
  · by_cases hid : id = j <;> simp [hf, hid]
  · simp [hf]

/-- The same challenges, OTPs and codes. -/
structure Same (s s' : LoginServer) : Prop where
  objects : s'.objects = s.objects
  sent : s'.sent = s.sent
  issued : s'.issued = s.issued
  authCodes : s'.authCodes = s.authCodes

theorem Same.refl (s : LoginServer) : s.Same s := ⟨rfl, rfl, rfl, rfl⟩

theorem same_pop (s : LoginServer) (id : ChallengeId) : s.Same (s.pop id) := ⟨rfl, rfl, rfl, rfl⟩

end LoginServer

namespace LoginTask

/-- The challenge with whose OTP the comparison has gone well. -/
def passed : LoginTask → Option ChallengeId
  | verify id _ (.reading _ _) | verify id _ (.creating _) | verify id _ (.popping _)
  | verify id _ (.answered (.redirect _ _ _)) => some id
  | _ => none

/-- The challenge whose code is made. -/
def made : LoginTask → Option ChallengeId
  | verify id _ (.popping _) | verify id _ (.answered (.redirect _ _ _)) => some id
  | _ => none

/-- The request has passed for this challenge, and has yet to read the field. -/
def WillRead (id : ChallengeId) (g : CodeField) : LoginTask → Prop
  | verify j _ (.reading f _) => j = id ∧ g ∈ f.rest
  | _ => False

instance (id : ChallengeId) (g : CodeField) : DecidablePred (WillRead id g)
  | verify j _ (.reading f _) => inferInstanceAs (Decidable (j = id ∧ g ∈ f.rest))
  | verify _ _ .getting | verify _ _ (.checking _) | verify _ _ (.creating _)
  | verify _ _ (.popping _) | verify _ _ (.answered _) | start _ _ _ => .isFalse fun h => h

/-- The steps of a request. -/
inductive Moves (s : LoginServer) (r : Heard) : LoginTask → LoginServer → LoginTask → Prop where
  | quiet {t t' : LoginTask} {s' : LoginServer} : s.Same s' → t.passed = none → t'.passed = none →
      Moves s r t s' t'
  | wrote {id : ChallengeId} {customerBankId otp : String} {f : OtpField} {k : BankIdentity}
      (t' : LoginStart) : Moves s r (start id customerBankId (.writing f k otp))
        (s.write id r.now k otp f) (start id customerBankId t')
  | matched {id : ChallengeId} {otp : String} {c : Challenge} : s.object id = some c →
      c.otp = some (strip otp) → Moves s r (verify id otp (.checking .matches)) s
        (verify id otp (.reading .customerId { matchedFor := s.otpFor id }))
  | read {id : ChallengeId} {otp : String} {f g : CodeField} {c : Challenge} {d : Draft} :
      s.object id = some c → f.next = some g → Moves s r (verify id otp (.reading f d)) s
        (verify id otp (.reading g (f.read c d)))
  | hasRead {id : ChallengeId} {otp : String} {c : Challenge} {d : Draft} :
      s.object id = some c → Moves s r (verify id otp (.reading .name d)) s
        (verify id otp (.creating (CodeField.name.read c d)))
  | made {id : ChallengeId} {otp : String} {c : Challenge} {d : Draft} : s.object id = some c →
      Moves s r (verify id otp (.creating d))
        (s.issue { id, code := d.code r.now r.generated c, matchedFor := d.matchedFor })
        (verify id otp (.popping r.generated))
  | popped {id : ChallengeId} {otp code : String} {c : Challenge} : s.object id = some c →
      Moves s r (verify id otp (.popping code)) (s.pop id)
        (verify id otp (.answered (.redirect c.redirectUri code c.state)))

variable {i : ℕ} {s s' : LoginServer} {r : Heard} {t t' : LoginTask}

theorem same_of_getChallenge {now : Instant} {id : ChallengeId} {c : Option Challenge} {o : OauthStore}
    (h : s.toOauthStore.getChallenge now id = (o, c)) : s.Same { s with toOauthStore := o } := by
  cases c with
  | some c =>
    obtain ⟨rfl, -⟩ := OauthStore.getChallenge_some h
    exact .refl s
  | none =>
    rcases OauthStore.getChallenge_none h with rfl | rfl
    · exact .refl s
    · exact ⟨rfl, rfl, rfl, rfl⟩

theorem start_moves {id : ChallengeId} {customerBankId : String} {t t' : LoginStart}
    (h : t.step i s id customerBankId r = some (s', t')) :
    Moves s r (start id customerBankId t) s' (start id customerBankId t') := by
  have quiet : s.Same s' → Moves s r (start id customerBankId t) s' (start id customerBankId t') :=
    fun hs => .quiet hs rfl rfl
  cases t with
  | getting =>
    simp only [LoginStart.step] at h
    split at h
    · split at h
      · next hget =>
        cases h
        exact quiet (same_of_getChallenge hget)
      · next hget =>
        cases h
        exact quiet (same_of_getChallenge hget)
    · cases h
  | asking =>
    simp only [LoginStart.step] at h
    split at h
    · cases h
      exact quiet (.refl s)
    · split at h <;> cases h <;> exact quiet (.refl s)
  | setting k =>
    simp only [LoginStart.step] at h
    split at h
    · split at h <;> cases h <;> exact quiet ⟨rfl, rfl, rfl, rfl⟩
    · cases h
  | writing f k otp =>
    cases h
    exact .wrote _
  | mailing =>
    cases h
    exact quiet (.refl s)
  | answered a => cases h

theorem verify_moves {id : ChallengeId} {otp : String} {t t' : LoginVerify}
    (h : t.step s id otp r = some (s', t')) : Moves s r (verify id otp t) s' (verify id otp t') := by
  cases t with
  | getting =>
    simp only [LoginVerify.step] at h
    split at h
    · split at h
      · next hget =>
        cases h
        exact .quiet (same_of_getChallenge hget) rfl rfl
      · next hget =>
        cases h
        exact .quiet (same_of_getChallenge hget) rfl rfl
    · cases h
  | checking k =>
    obtain ⟨c, hc, heq⟩ := Option.map_eq_some_iff.1 h
    split at heq
    · next hpass =>
      cases k with
      | «matches» =>
        cases heq
        exact .matched hc hpass
      | _ =>
        cases heq
        exact .quiet (.refl s) rfl rfl
    · cases heq
      exact .quiet (.refl s) rfl rfl
  | reading f d =>
    obtain ⟨c, hc, heq⟩ := Option.map_eq_some_iff.1 h
    cases f with
    | name =>
      cases heq
      exact .hasRead hc
    | _ =>
      cases heq
      exact .read hc rfl
  | creating d =>
    simp only [LoginVerify.step] at h
    split at h
    · obtain ⟨c, hc, heq⟩ := Option.map_eq_some_iff.1 h
      cases heq
      exact .made hc
    · cases h
  | popping code =>
    simp only [LoginVerify.step] at h
    split at h
    · obtain ⟨c, hc, heq⟩ := Option.map_eq_some_iff.1 h
      cases heq
      exact .popped hc
    · cases h
  | answered a => cases h

theorem step_moves (h : t.step i s r = some (s', t')) : Moves s r t s' t' := by
  cases t with
  | start id customerBankId t =>
    obtain ⟨⟨s', t'⟩, hstep, heq⟩ := Option.map_eq_some_iff.1 h
    cases heq
    exact start_moves hstep
  | verify id otp t =>
    obtain ⟨⟨s', t'⟩, hstep, heq⟩ := Option.map_eq_some_iff.1 h
    cases heq
    exact verify_moves hstep

end LoginTask

/-! ## A request alone -/

namespace LoginServer

variable {s : LoginServer} {i : ℕ} {id : ChallengeId} {otp : String} {c : Challenge}
  {now checkedAt : Instant} {d : LoginServer × LoginTask}

/-- Nobody else takes a step. -/
abbrev Serves (i : ℕ) : LoginServer × LoginTask → LoginServer × LoginTask → Prop :=
  Drives fun s t r => LoginTask.step i s r t

theorem object_of_listed (h : s.toOauthStore.listed id = some c) : s.object id = some c := by
  unfold OauthStore.listed at h
  split at h
  · exact h
  · cases h

theorem accepts_iff : c.Accepts checkedAt otp ↔ ∀ k : OtpCheck, k.Passes checkedAt otp c := by
  unfold Challenge.Accepts Challenge.otpIsExpired
  constructor
  · rintro ⟨hcustomer, hphone, hlive, hmatch⟩ k
    cases k with
    | otpSet => exact Option.ne_none_iff_exists'.2 ⟨_, hmatch⟩
    | customerSet => exact hcustomer
    | phoneSet => exact hphone
    | expirySet => exact fun h => hlive (by simp [h])
    | notExpired =>
      intro t ht
      by_contra hlt
      exact hlive fun u hu => (Option.mem_unique ht hu) ▸ not_le.1 hlt
    | «matches» => exact hmatch
  · intro h
    refine ⟨h .customerSet, h .phoneSet, fun hexp => ?_, h .matches⟩
    obtain ⟨t, ht⟩ := Option.ne_none_iff_exists'.1 (h .expirySet)
    exact absurd (hexp t ht) (not_lt.2 (h .notExpired t ht))

theorem serves_checking {k : OtpCheck} (hc : s.object id = some c)
    (hpass : k.Passes checkedAt otp c)
    (h : Serves i (s, .verify id otp (match k.next with
      | some k => .checking k
      | none => .reading .customerId { matchedFor := s.otpFor id })) d) :
    Serves i (s, .verify id otp (.checking k)) d :=
  .head { now := checkedAt } (by simp [LoginTask.step, LoginVerify.step, hc, hpass]) h

theorem serves_reading {f : CodeField} {e : Draft} (hc : s.object id = some c)
    (h : Serves i (s, .verify id otp (match f.next with
      | some g => .reading g (f.read c e)
      | none => .creating (f.read c e))) d) : Serves i (s, .verify id otp (.reading f e)) d :=
  .head {} (by simp [LoginTask.step, LoginVerify.step, hc]) h

/-- If what comes after the condition refuses, then so does the check of the condition. -/
theorem serves_refused {k : OtpCheck} (checkedAt : Instant) (hc : s.object id = some c)
    (h : k.Passes checkedAt otp c → Serves i (s, .verify id otp (match k.next with
      | some k => .checking k
      | none => .reading .customerId { matchedFor := s.otpFor id }))
        (s, .verify id otp (.answered (.page 400 "Invalid or expired verification code.")))) :
    Serves i (s, .verify id otp (.checking k))
      (s, .verify id otp (.answered (.page 400 "Invalid or expired verification code."))) := by
  by_cases hpass : k.Passes checkedAt otp c
  · exact serves_checking hc hpass (h hpass)
  · exact .head { now := checkedAt } (by simp [LoginTask.step, LoginVerify.step, hc, hpass])
      (.refl _ _)

/-- The conditions are those of the sequential handler. -/
theorem serves_checks (i : ℕ) (otp : String) (checkedAt : Instant) (hc : s.object id = some c) :
    Serves i (s, .verify id otp (.checking .otpSet)) (s, .verify id otp
      (if c.Accepts checkedAt otp then .reading .customerId { matchedFor := s.otpFor id }
        else .answered (.page 400 "Invalid or expired verification code."))) := by
  by_cases hacc : c.Accepts checkedAt otp
  · have h := accepts_iff.1 hacc
    rw [if_pos hacc]
    exact serves_checking hc (h .otpSet) (serves_checking hc (h .customerSet)
      (serves_checking hc (h .phoneSet) (serves_checking hc (h .expirySet)
        (serves_checking hc (h .notExpired) (serves_checking hc (h .matches) (.refl _ _))))))
  · rw [if_neg hacc]
    refine serves_refused checkedAt hc fun hotp => serves_refused checkedAt hc fun hcustomer =>
      serves_refused checkedAt hc fun hphone => serves_refused checkedAt hc fun hexpiry =>
        serves_refused checkedAt hc fun hlive => serves_refused checkedAt hc fun hmatch => ?_
    refine absurd (accepts_iff.2 fun k => ?_) hacc
    cases k with
    | otpSet => exact hotp
    | customerSet => exact hcustomer
    | phoneSet => exact hphone
    | expirySet => exact hexpiry
    | notExpired => exact hlive
    | «matches» => exact hmatch

/-- A login that has passed, alone, makes the code of the challenge. -/
theorem serves_code (i : ℕ) (otp : String) (hfree : s.lock = none) (hc : s.object id = some c)
    (codeAt : Instant) (code : String) : ∃ s' : LoginServer, Serves i
      (s, .verify id otp (.reading .customerId { matchedFor := s.otpFor id }))
      (s', .verify id otp (.answered (.redirect c.redirectUri code c.state))) ∧
        s'.toOauthStore =
          (s.toOauthStore.createAuthorizationCode (c.code codeAt code)).popChallenge id := by
  let x : Issue := { id, code := c.code codeAt code, matchedFor := s.otpFor id }
  have hx : (s.issue x).object id = some c := hc
  refine ⟨(s.issue x).pop id, ?_, rfl⟩
  refine serves_reading hc (serves_reading hc (serves_reading hc (serves_reading hc ?_)))
  refine .head (c := (s.issue x, .verify id otp (.popping code)))
    { now := codeAt, generated := code } ?_ (.head {} ?_ (.refl _ _))
  · simp [LoginTask.step, LoginVerify.step, hc, hfree, x, Challenge.code, Draft.code,
      CodeField.read, CodeField.next]
  · have hlock : (s.issue x).lock = none := hfree
    simp [LoginTask.step, LoginVerify.step, hx, hlock]

/-- `login_verify` with nobody else around is the sequential handler. -/
theorem verify_alone (hfree : s.lock = none) (i : ℕ) (now : Instant) (id : ChallengeId) (otp : String)
    (checkedAt codeAt : Instant) (code : String) : ∃ s' : LoginServer,
      Serves i (s, .verify id otp .getting) (s', .verify id otp (.answered
        (s.toOauthStore.loginVerify now id otp checkedAt codeAt code).2)) ∧
      s'.toOauthStore = (s.toOauthStore.loginVerify now id otp checkedAt codeAt code).1 := by
  unfold OauthStore.loginVerify
  split
  · next o hget =>
    refine ⟨{ s with toOauthStore := o }, .head { now := now } ?_ (.refl _ _), rfl⟩
    simp [LoginTask.step, LoginVerify.step, hfree, hget]
  · next o c hget =>
    obtain ⟨rfl, hlisted, -⟩ := OauthStore.getChallenge_some hget
    have hc := object_of_listed hlisted
    have hfirst : LoginTask.step i s { now := now } (.verify id otp .getting) =
        some (s, .verify id otp (.checking .otpSet)) := by
      simp only [LoginTask.step, LoginVerify.step, if_pos hfree, hget, Option.map_some]
    have hchecks := serves_checks i otp checkedAt hc
    by_cases hacc : c.Accepts checkedAt otp
    · rw [if_pos hacc] at hchecks
      obtain ⟨s', hcode, hs'⟩ := serves_code i otp hfree hc codeAt code
      rw [if_neg (not_not.2 hacc)]
      exact ⟨s', .head _ hfirst (hchecks.trans hcode), hs'⟩
    · rw [if_neg hacc] at hchecks
      rw [if_pos hacc]
      exact ⟨s, .head _ hfirst hchecks, rfl⟩

theorem serves_writing {customerBankId : String} {k : BankIdentity} {f : OtpField}
    (h : Serves i (s.write id now k otp f, .start id customerBankId (match f.next with
      | some g => .writing g k otp
      | none => .mailing)) d) : Serves i (s, .start id customerBankId (.writing f k otp)) d :=
  .head { now := now } rfl h

/-- The writes of `set_challenge_otp`, one after the other, are its assignments. -/
theorem write_all (k : BankIdentity) (otp : String) (t₁ t₂ t₃ t₄ t₅ : Instant) :
    ((((((s.write id t₁ k otp .customerId).write id t₂ k otp .email).write id t₃ k otp .phone).write
      id t₄ k otp .name).write id t₅ k otp .otp).write id now k otp .expiresAt).toOauthStore =
      s.toOauthStore.modifyChallenge id (·.setOtp now k otp) := by
  have hmodify : ∀ (o : OauthStore) (t : Instant) (f : OtpField) (g : Challenge → Challenge),
      (o.modifyChallenge id (f.write t k otp)).modifyChallenge id g =
        o.modifyChallenge id (g ∘ f.write t k otp) := fun o t f g =>
    congrArg (fun objects => { o with objects }) (Keyed.modify_modify (f.write_id t k otp))
  simp only [write]
  rw [hmodify, hmodify, hmodify, hmodify, hmodify]
  rfl

/-- `login_start` with nobody else around is the sequential handler. -/
theorem start_alone (hfree : s.lock = none) (i : ℕ) (now : Instant) (id : ChallengeId)
    (customerBankId : String) (reply : DirectoryReply) (otp : String) (sentAt : Instant)
    (mailError : Option String) : ∃ s' : LoginServer,
      Serves i (s, .start id customerBankId .getting) (s', .start id customerBankId (.answered
        (s.toOauthStore.loginStart now id customerBankId reply otp sentAt mailError).2)) ∧
      s'.toOauthStore =
        (s.toOauthStore.loginStart now id customerBankId reply otp sentAt mailError).1 := by
  unfold OauthStore.loginStart
  split
  · next o hget =>
    refine ⟨{ s with toOauthStore := o }, .head { now := now } ?_ (.refl _ _), rfl⟩
    simp [LoginTask.step, LoginStart.step, hfree, hget]
  next o c hget =>
  obtain ⟨rfl, hlisted, -⟩ := OauthStore.getChallenge_some hget
  have hfirst : LoginTask.step i s { now := now } (.start id customerBankId .getting) =
      some (s, .start id customerBankId .asking) := by
    simp only [LoginTask.step, LoginStart.step, if_pos hfree, hget, Option.map_some]
  split
  · next hblank =>
    refine ⟨s, .head _ hfirst (.head {} ?_ (.refl _ _)), rfl⟩
    simp [LoginTask.step, LoginStart.step, hblank]
  next hgiven =>
  split
  · next a hreply =>
    refine ⟨s, .head _ hfirst (.head { reply } ?_ (.refl _ _)), rfl⟩
    simp [LoginTask.step, LoginStart.step, hgiven, hreply]
  next k hk =>
  have hasks : LoginTask.step i s { reply } (.start id customerBankId .asking) =
      some (s, .start id customerBankId (.setting k)) := by
    simp [LoginTask.step, LoginStart.step, hgiven, hk]
  let s₁ : LoginServer := { s with lock := some i }
  have hlocks : LoginTask.step i s { generated := otp } (.start id customerBankId (.setting k)) =
      some (s₁, .start id customerBankId (.writing .customerId k otp)) := by
    simp [LoginTask.step, LoginStart.step, hfree, hlisted, s₁]
  simp only [OauthStore.setChallengeOtp, hlisted, Option.map_some]
  refine ⟨_, .head _ hfirst (.head _ hasks (.head _ hlocks ?_)), write_all k otp 0 0 0 0 0⟩
  refine serves_writing (serves_writing (serves_writing (serves_writing (serves_writing
    (serves_writing (.head { mailError } rfl (.refl _ _)))))))

end LoginServer

end NbeAdvisor
