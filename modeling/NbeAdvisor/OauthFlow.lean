import NbeAdvisor.BankOauth

/-!
# What an access token of the bank rests on

The server runs one handler after the other, and what it generates is fresh. A `History` is a run
as those outside see it, a list of exchanges with the store that they lead to.

Every access token rests on one login : a successful `/login/verify` before it, which made the code
that is exchanged, on a challenge that was opened for the same client and URI and had not expired,
with the OTP that was sent last for that challenge, to the customer of the token, and had not
expired either. A challenge gives at most one code, and a code at most one token
(`History.tokens_rest_on_logins`).

`Linked` is the invariant that carries this. It ties each challenge to the exchange that opened it
and the OTP that was sent last for it, and each code to its login.
-/

namespace NbeAdvisor

/-! ## Elements and what is before them -/

/-- `P` holds of every element with those before it. -/
def EachAfter {α : Type*} (P : List α → α → Prop) (log : List α) : Prop :=
  ∀ before x after, log = before ++ x :: after → P before x

section EachAfter

variable {α : Type*} {P : List α → α → Prop} {log : List α} {x : α}

theorem eachAfter_nil (P : List α → α → Prop) : EachAfter P [] := by
  intro before x after h
  simp at h

theorem EachAfter.snoc (h : EachAfter P log) (hx : P log x) : EachAfter P (log ++ [x]) := by
  intro before y after heq
  rcases List.append_eq_append_iff.1 heq with ⟨rest, rfl, hrest⟩ | ⟨rest, hlog, hrest⟩
  · obtain ⟨rfl, hy, rfl⟩ : rest = [] ∧ y = x ∧ after = [] := by
      cases rest <;> simp_all
    rw [List.append_nil, hy]
    exact hx
  · cases rest with
    | nil =>
      obtain ⟨rfl, rfl⟩ := List.cons.inj hrest
      rw [List.append_nil] at hlog
      rwa [← hlog]
    | cons z rest =>
      obtain ⟨rfl, rfl⟩ := List.cons.inj hrest
      exact h before y rest hlog

end EachAfter

/-! ## Exchanges -/

/-- A request, when it came, and its answer. -/
structure Exchange where
  now : Instant
  request : OauthRequest
  answer : OauthAnswer

/-- An OTP, and whom and when it was sent. -/
structure SentOtp where
  customerId : String
  otp : String
  sentAt : Instant
  deriving DecidableEq

/-- A successful login : the challenge, the OTP and when it was compared, and the code. -/
structure Login where
  id : ChallengeId
  otp : String
  checkedAt : Instant
  code : String

/-- A token : the code it was issued for, what its request says, and the customer. -/
structure Grant where
  code : String
  clientId : String
  redirectUri : String
  customerId : Option String

namespace Exchange

/-- The challenge that was opened, with the client and the URI. -/
def opens (x : Exchange) : Option (ChallengeId × String × String) :=
  match x.request, x.answer with
  | .authorize clientId redirectUri _ _ _ _, .loginPage id => some (id, clientId, redirectUri)
  | _, _ => none

/-- The OTP that was set on the challenge `id`. -/
def sends (id : ChallengeId) (x : Exchange) : Option SentOtp :=
  match x.request, x.answer with
  | .start k _ reply otp sentAt _, .codePage _ | .start k _ reply otp sentAt _, .mailFailed _ _ =>
    match reply.resolve with
    | .ok customer => if k = id then some ⟨customer.customerId, otp, sentAt⟩ else none
    | .error _ => none
  | _, _ => none

/-- The login that an exchange was, if its code matched. -/
def login (x : Exchange) : Option Login :=
  match x.request, x.answer with
  | .verify id otp checkedAt _ code, .redirect _ _ _ =>
    some { id, otp := strip otp, checkedAt, code }
  | _, _ => none

/-- What an exchange of a code has granted, if it was one. -/
def grant (x : Exchange) : Option Grant :=
  match x.request, x.answer with
  | .token _ code redirectUri clientId _ _, .tokens customerId _ _ _ _ =>
    some { code, clientId, redirectUri, customerId }
  | _, _ => none

end Exchange

/-- The OTP that was sent last for a challenge. -/
def lastSent (log : List Exchange) (id : ChallengeId) : Option SentOtp :=
  (log.filterMap (Exchange.sends id)).getLast?

/-- The exchange `v`, after those of `before`, was right to let the customer in. -/
structure Exchange.Admits (before : List Exchange) (v : Exchange) (l : Login)
    (clientId redirectUri customerId : String) : Prop where
  opened : ∃ a ∈ before, a.opens = some (l.id, clientId, redirectUri) ∧
    v.now ≤ a.now + challengeTtl
  sent : ∃ o, lastSent before l.id = some o ∧ o.customerId = customerId ∧ l.otp = o.otp ∧
    l.checkedAt ≤ o.sentAt + otpTtl

/-- One login of the log made the code, and it was right. -/
def RestsOnLogin (log : List Exchange) (code clientId redirectUri customerId : String) : Prop :=
  ∃ before v after l, log = before ++ v :: after ∧ v.login = some l ∧ l.code = code ∧
    v.Admits before l clientId redirectUri customerId ∧
    ∀ w ∈ before ++ after, ∀ m, w.login = some m → m.code ≠ code

/-! ## Runs -/

/-- What the server generates for the request is new. -/
def OauthStore.Fresh (s : OauthStore) : OauthRequest → Prop
  | .authorize _ _ _ _ _ id => id ∉ s.objects.map Challenge.id
  | .verify _ _ _ _ code => code ∉ s.authCodes.map AuthorizationCode.code
  | .token _ _ _ _ _ refreshToken => refreshToken ∉ s.refreshTokens.map RefreshToken.token
  | _ => True

instance (s : OauthStore) : (r : OauthRequest) → Decidable (s.Fresh r)
  | .authorize _ _ _ _ _ _ => inferInstanceAs (Decidable (_ ∉ _))
  | .verify _ _ _ _ _ => inferInstanceAs (Decidable (_ ∉ _))
  | .token _ _ _ _ _ _ => inferInstanceAs (Decidable (_ ∉ _))
  | .start _ _ _ _ _ _ | .debug _ => .isTrue trivial

/-- A run from the start of the server : the store it leads to, and its exchanges. -/
inductive History (cfg : OauthConfig) : OauthStore → List Exchange → Prop where
  | start : History cfg {} []
  | snoc {s : OauthStore} {log : List Exchange} (now : Instant) (r : OauthRequest) :
      History cfg s log → s.Fresh r →
      History cfg (s.handle cfg now r).1 (log ++ [⟨now, r, (s.handle cfg now r).2⟩])

/-! ## Logs that grow by one exchange -/

section Log

variable {log : List Exchange} {x : Exchange} {id : ChallengeId}

theorem lastSent_snoc (log : List Exchange) (x : Exchange) (id : ChallengeId) :
    lastSent (log ++ [x]) id = (x.sends id).or (lastSent log id) := by
  unfold lastSent
  rw [List.filterMap_append, List.getLast?_append]
  cases hx : x.sends id <;> simp [hx]

theorem lastSent_eq_none (h : ∀ x ∈ log, x.sends id = none) : lastSent log id = none := by
  unfold lastSent
  rw [List.filterMap_eq_nil_iff.2 h, List.getLast?_nil]

theorem filterMap_snoc_none {β : Type*} {f : Exchange → Option β} (h : f x = none) :
    (log ++ [x]).filterMap f = log.filterMap f := by
  rw [List.filterMap_append, List.filterMap_cons_none h, List.filterMap_nil, List.append_nil]

theorem filterMap_snoc_some {β : Type*} {f : Exchange → Option β} {b : β} (h : f x = some b) :
    (log ++ [x]).filterMap f = log.filterMap f ++ [b] := by
  rw [List.filterMap_append, List.filterMap_cons_some h, List.filterMap_nil]

theorem lastSent_snoc_none (h : x.sends id = none) :
    lastSent (log ++ [x]) id = lastSent log id := by
  rw [lastSent_snoc, h, Option.none_or]

variable {code clientId redirectUri customerId : String}

theorem RestsOnLogin.snoc (h : RestsOnLogin log code clientId redirectUri customerId)
    (hx : ∀ m, x.login = some m → m.code ≠ code) :
    RestsOnLogin (log ++ [x]) code clientId redirectUri customerId := by
  obtain ⟨before, v, after, l, rfl, hv, hcode, hadmits, hothers⟩ := h
  refine ⟨before, v, after ++ [x], l, by simp, hv, hcode, hadmits, fun w hw => ?_⟩
  rw [← List.append_assoc, List.mem_append, List.mem_singleton] at hw
  rcases hw with hw | rfl
  · exact hothers w hw
  · exact hx

/-- The login that comes last makes a code that is new. -/
theorem RestsOnLogin.of_last {l : Login} (hx : x.login = some l)
    (hadmits : x.Admits log l clientId redirectUri customerId)
    (hnew : ∀ w ∈ log, ∀ m, w.login = some m → m.code ≠ l.code) :
    RestsOnLogin (log ++ [x]) l.code clientId redirectUri customerId :=
  ⟨log, x, [], l, rfl, hx, rfl, hadmits, by simpa using hnew⟩

end Log

/-- The exchange opens, sends and issues nothing. -/
structure Exchange.Silent (x : Exchange) : Prop where
  opens : x.opens = none
  sends : ∀ id, x.sends id = none
  login : x.login = none
  grant : x.grant = none

theorem Exchange.silent_of_idle {now : Instant} {r : OauthRequest} {a : OauthAnswer} (h : a.Idle) :
    (Exchange.mk now r a).Silent := by
  cases a with
  | loginPage | codePage | mailFailed | redirect | tokens => exact h.elim
  | challenge | page | oauthError | raises => cases r <;> exact ⟨rfl, fun _ => rfl, rfl, rfl⟩

/-! ## The invariant -/

/-- The challenge carries the OTP, or none. -/
structure Challenge.Carries (c : Challenge) (o : Option SentOtp) : Prop where
  customerId : c.customerId = o.map SentOtp.customerId
  otp : c.otp = o.map SentOtp.otp
  otpExpiresAt : c.otpExpiresAt = o.map fun o => o.sentAt + otpTtl

/-- What the tables have to do with the exchanges. -/
structure Linked (s : OauthStore) (log : List Exchange) : Prop where
  ids : (s.objects.map Challenge.id).Nodup
  codes : (s.authCodes.map AuthorizationCode.code).Nodup
  opened : ∀ c ∈ s.objects, ∃ a ∈ log, a.opens = some (c.id, c.clientId, c.redirectUri) ∧
    c.expiresAt = a.now + challengeTtl
  sent : ∀ c ∈ s.objects, c.Carries (lastSent log c.id)
  sendsTo : ∀ x ∈ log, ∀ id ∉ s.objects.map Challenge.id, x.sends id = none
  spent : ∀ x ∈ log, ∀ l, x.login = some l → l.id ∉ s.challenges ∧
    l.id ∈ s.objects.map Challenge.id ∧ l.code ∈ s.authCodes.map AuthorizationCode.code
  loginOnce : ((log.filterMap Exchange.login).map Login.id).Nodup
  records : ∀ k ∈ s.authCodes, ∃ customerId, k.customerId = some customerId ∧
    RestsOnLogin log k.code k.clientId k.redirectUri customerId
  used : ∀ x ∈ log, ∀ g, x.grant = some g → ∃ k ∈ s.authCodes, k.code = g.code ∧ k.used = true
  grantOnce : ((log.filterMap Exchange.grant).map Grant.code).Nodup

namespace Linked

variable {cfg : OauthConfig} {s : OauthStore} {log : List Exchange} {x : Exchange}
  {id : ChallengeId} {c : Challenge}

theorem start : Linked {} [] where
  ids := List.nodup_nil
  codes := List.nodup_nil
  opened := by simp
  sent := by simp
  sendsTo := by simp
  spent := by simp
  loginOnce := List.nodup_nil
  records := by simp
  used := by simp
  grantOnce := List.nodup_nil

/-- What holds of the exchanges so far and of one more holds of all. -/
theorem forall_mem_snoc {P : Exchange → Prop} (h : ∀ y ∈ log, P y) (hx : P x) :
    ∀ y ∈ log ++ [x], P y := by
  intro y hy
  rcases List.mem_append.1 hy with hy | hy
  · exact h y hy
  · rwa [List.mem_singleton.1 hy]

theorem exists_mem_snoc {P : Exchange → Prop} (h : ∃ y ∈ log, P y) : ∃ y ∈ log ++ [x], P y := by
  obtain ⟨y, hy, hP⟩ := h
  exact ⟨y, List.mem_append_left _ hy, hP⟩

theorem silent (hL : Linked s log) (hx : x.Silent) : Linked s (log ++ [x]) where
  ids := hL.ids
  codes := hL.codes
  opened c hc := exists_mem_snoc (hL.opened c hc)
  sent c hc := by
    rw [lastSent_snoc_none (hx.sends c.id)]
    exact hL.sent c hc
  sendsTo := forall_mem_snoc hL.sendsTo fun id _ => hx.sends id
  spent := forall_mem_snoc hL.spent fun l hl => by simp [hx.login] at hl
  loginOnce := by
    rw [filterMap_snoc_none hx.login]
    exact hL.loginOnce
  records k hk := by
    obtain ⟨customerId, hcustomer, hrests⟩ := hL.records k hk
    exact ⟨customerId, hcustomer, hrests.snoc fun m hm => by simp [hx.login] at hm⟩
  used := forall_mem_snoc hL.used fun g hg => by simp [hx.grant] at hg
  grantOnce := by
    rw [filterMap_snoc_none hx.grant]
    exact hL.grantOnce

theorem popChallenge (hL : Linked s log) (id : ChallengeId) : Linked (s.popChallenge id) log :=
  { hL with
    spent := fun x hx l hl => by
      obtain ⟨hlisted, hrest⟩ := hL.spent x hx l hl
      exact ⟨fun h => hlisted (List.mem_filter.1 h).1, hrest⟩ }

theorem useCode (hL : Linked s log) (code : String) : Linked (s.useCode code) log :=
  { hL with
    codes := by
      rw [OauthStore.map_code_useCode]
      exact hL.codes
    spent := fun x hx l hl => by
      rw [OauthStore.map_code_useCode]
      exact hL.spent x hx l hl
    records := fun k hk => by
      rcases OauthStore.mem_useCode.1 hk with ⟨hk, -⟩ | ⟨u, hu, -, rfl⟩
      · exact hL.records k hk
      · exact hL.records u hu
    used := fun x hx g hg => by
      obtain ⟨k, hk, hcode, hused⟩ := hL.used x hx g hg
      by_cases hk' : k.code = code
      · exact ⟨_, OauthStore.mem_useCode.2 (Or.inr ⟨k, hk, hk', rfl⟩), hcode, rfl⟩
      · exact ⟨k, OauthStore.mem_useCode.2 (Or.inl ⟨hk, hk'⟩), hcode, hused⟩ }

/-- A challenge is opened, with an identifier that none has. -/
theorem createChallenge (hL : Linked s log) (hid : c.id ∉ s.objects.map Challenge.id)
    (hopens : x.opens = some (c.id, c.clientId, c.redirectUri))
    (hexpires : c.expiresAt = x.now + challengeTtl) (hcarries : c.Carries none)
    (hsends : ∀ id, x.sends id = none) (hlogin : x.login = none) (hgrant : x.grant = none) :
    Linked (s.createChallenge c) (log ++ [x]) where
  ids := Keyed.nodup_map_snoc hL.ids fun u hu h => hid (h ▸ List.mem_map_of_mem hu)
  codes := hL.codes
  opened d hd := by
    rcases List.mem_append.1 hd with hd | hd
    · exact exists_mem_snoc (hL.opened d hd)
    · obtain rfl := List.mem_singleton.1 hd
      exact ⟨x, by simp, hopens, hexpires⟩
  sent d hd := by
    rw [lastSent_snoc_none (hsends d.id)]
    rcases List.mem_append.1 hd with hd | hd
    · exact hL.sent d hd
    · obtain rfl := List.mem_singleton.1 hd
      rwa [lastSent_eq_none fun y hy => hL.sendsTo y hy d.id hid]
  sendsTo := forall_mem_snoc
    (fun y hy id hnew => hL.sendsTo y hy id fun h =>
      hnew (by simpa [OauthStore.createChallenge] using Or.inl (by simpa using h)))
    fun id _ => hsends id
  spent := forall_mem_snoc
    (fun y hy l hl => by
      obtain ⟨hlisted, hknown, hcode⟩ := hL.spent y hy l hl
      have hne : l.id ≠ c.id := fun h => hid (h ▸ hknown)
      refine ⟨fun h => ?_, ?_, hcode⟩
      · rcases List.mem_append.1 h with h | h
        · exact hlisted h
        · exact hne (List.mem_singleton.1 h)
      · rw [OauthStore.createChallenge, List.map_append]
        exact List.mem_append_left _ hknown)
    fun l hl => by simp [hlogin] at hl
  loginOnce := by
    rw [filterMap_snoc_none hlogin]
    exact hL.loginOnce
  records k hk := by
    obtain ⟨customerId, hcustomer, hrests⟩ := hL.records k hk
    exact ⟨customerId, hcustomer, hrests.snoc fun m hm => by simp [hlogin] at hm⟩
  used := forall_mem_snoc hL.used fun g hg => by simp [hgrant] at hg
  grantOnce := by
    rw [filterMap_snoc_none hgrant]
    exact hL.grantOnce

/-- An OTP is set on a challenge. -/
theorem setOtp (hL : Linked s log) (sentAt : Instant) (k : BankIdentity) (otp : String)
    (hid : id ∈ s.objects.map Challenge.id)
    (hsends : ∀ j, x.sends j = if id = j then some ⟨k.customerId, otp, sentAt⟩ else none)
    (hlogin : x.login = none) (hgrant : x.grant = none) :
    Linked (s.modifyChallenge id (·.setOtp sentAt k otp)) (log ++ [x]) := by
  have hids : (s.modifyChallenge id (·.setOtp sentAt k otp)).objects.map Challenge.id =
      s.objects.map Challenge.id := Keyed.map_modify fun _ => rfl
  exact
    { ids := hids ▸ hL.ids
      codes := hL.codes
      opened := fun d hd => by
        rcases OauthStore.mem_modifyChallenge.1 hd with ⟨hd, -⟩ | ⟨u, hu, -, rfl⟩
        · exact exists_mem_snoc (hL.opened d hd)
        · exact exists_mem_snoc (hL.opened u hu)
      sent := fun d hd => by
        rcases OauthStore.mem_modifyChallenge.1 hd with ⟨hd, hne⟩ | ⟨u, hu, rfl, rfl⟩
        · rw [lastSent_snoc_none (by rw [hsends, if_neg (Ne.symm hne)])]
          exact hL.sent d hd
        · rw [Challenge.setOtp_id, lastSent_snoc, hsends, if_pos rfl, Option.some_or]
          exact ⟨rfl, rfl, rfl⟩
      sendsTo := by
        rw [hids]
        exact forall_mem_snoc hL.sendsTo fun j hj => by
          rw [hsends, if_neg fun (h : id = j) => hj (h ▸ hid)]
      spent := by
        rw [hids]
        exact forall_mem_snoc hL.spent fun l hl => by simp [hlogin] at hl
      loginOnce := by
        rw [filterMap_snoc_none hlogin]
        exact hL.loginOnce
      records := fun k hk => by
        obtain ⟨customerId, hcustomer, hrests⟩ := hL.records k hk
        exact ⟨customerId, hcustomer, hrests.snoc fun m hm => by simp [hlogin] at hm⟩
      used := forall_mem_snoc hL.used fun g hg => by simp [hgrant] at hg
      grantOnce := by
        rw [filterMap_snoc_none hgrant]
        exact hL.grantOnce }

/-- What `/login/verify` checks is that the login is right. -/
theorem admits (hL : Linked s log) {l : Login} (hc : c ∈ s.objects) (hlive : ¬c.isExpired x.now)
    (hid : l.id = c.id) {otp : String} (hotp : l.otp = strip otp)
    (haccepts : c.Accepts l.checkedAt otp) :
    ∃ customerId, c.customerId = some customerId ∧
      x.Admits log l c.clientId c.redirectUri customerId := by
  obtain ⟨a, ha, hopens, hexpires⟩ := hL.opened c hc
  obtain ⟨hcustomer, hsentOtp, hsentAt⟩ := hL.sent c hc
  obtain ⟨hgiven, -, hfresh, hmatch⟩ := haccepts
  cases hlast : lastSent log c.id with
  | none => simp [hlast, hgiven] at hcustomer
  | some o =>
    rw [hlast, Option.map_some] at hcustomer hsentOtp hsentAt
    refine ⟨o.customerId, hcustomer, ⟨a, ha, by rw [hid, hopens], ?_⟩, o, by rw [hid, hlast], rfl, ?_,
      ?_⟩
    · rw [Challenge.isExpired, hexpires] at hlive
      exact not_lt.1 hlive
    · rw [hotp]
      exact Option.some.inj (hmatch.symm.trans hsentOtp)
    · unfold Challenge.otpIsExpired at hfresh
      rw [hsentAt] at hfresh
      simpa using hfresh

/-- A login makes a code that none has, and its challenge is taken away. -/
theorem verified (hL : Linked s log) {l : Login} {k : AuthorizationCode} {customerId : String}
    (hlisted : l.id ∈ s.challenges) (hknown : l.id ∈ s.objects.map Challenge.id)
    (hnew : l.code ∉ s.authCodes.map AuthorizationCode.code) (hk : k.code = l.code)
    (hcustomer : k.customerId = some customerId)
    (hadmits : x.Admits log l k.clientId k.redirectUri customerId)
    (hsends : ∀ j, x.sends j = none) (hlogin : x.login = some l) (hgrant : x.grant = none) :
    Linked ((s.createAuthorizationCode k).popChallenge l.id) (log ++ [x]) := by
  have hfirst : ∀ w ∈ log, ∀ m, w.login = some m → m.code ≠ l.code := fun w hw m hm h =>
    hnew (h ▸ (hL.spent w hw m hm).2.2)
  exact
    { ids := hL.ids
      codes := Keyed.nodup_map_snoc hL.codes fun u hu h =>
        hnew (hk ▸ h ▸ List.mem_map_of_mem hu)
      opened := fun d hd => exists_mem_snoc (hL.opened d hd)
      sent := fun d hd => by
        rw [lastSent_snoc_none (hsends d.id)]
        exact hL.sent d hd
      sendsTo := forall_mem_snoc hL.sendsTo fun id _ => hsends id
      spent := forall_mem_snoc
        (fun w hw m hm => by
          obtain ⟨hunlisted, hid, hcode⟩ := hL.spent w hw m hm
          refine ⟨fun h => hunlisted (List.mem_filter.1 h).1, hid, ?_⟩
          exact List.map_append ▸ List.mem_append_left _ hcode)
        fun m hm => by
          obtain rfl := Option.some.inj (hlogin.symm.trans hm)
          refine ⟨fun h => by simpa using (List.mem_filter.1 h).2, hknown, ?_⟩
          exact List.map_append ▸ List.mem_append_right _ (by simp [hk])
      loginOnce := by
        rw [filterMap_snoc_some hlogin]
        refine Keyed.nodup_map_snoc hL.loginOnce fun m hm h => ?_
        obtain ⟨w, hw, hwm⟩ := List.mem_filterMap.1 hm
        exact (hL.spent w hw m hwm).1 (h ▸ hlisted)
      records := fun u hu => by
        rcases List.mem_append.1 hu with hu | hu
        · obtain ⟨c, hc, hrests⟩ := hL.records u hu
          refine ⟨c, hc, hrests.snoc fun m hm => ?_⟩
          obtain rfl := Option.some.inj (hlogin.symm.trans hm)
          exact fun h => hnew (h ▸ List.mem_map_of_mem hu)
        · obtain rfl := List.mem_singleton.1 hu
          exact ⟨customerId, hcustomer, hk ▸ .of_last hlogin hadmits hfirst⟩
      used := forall_mem_snoc
        (fun w hw g hg => by
          obtain ⟨u, hu, hcode, hused⟩ := hL.used w hw g hg
          exact ⟨u, List.mem_append_left _ hu, hcode, hused⟩)
        fun g hg => by simp [hgrant] at hg
      grantOnce := by
        rw [filterMap_snoc_none hgrant]
        exact hL.grantOnce }

/-- A code that had not been used is exchanged. -/
theorem granted (hL : Linked s log) {k : AuthorizationCode} {g : Grant} (t : RefreshToken)
    (hk : k ∈ s.authCodes) (hunused : k.used = false) (hcode : k.code = g.code)
    (hsends : ∀ j, x.sends j = none) (hlogin : x.login = none) (hgrant : x.grant = some g) :
    Linked ((s.useCode g.code).createRefreshToken t) (log ++ [x]) := by
  have hU := hL.useCode g.code
  have hfirst : ∀ w ∈ log, ∀ h, w.grant = some h → h.code ≠ g.code := by
    intro w hw h hwh hsame
    obtain ⟨u, hu, hucode, hused⟩ := hL.used w hw h hwh
    obtain rfl := Keyed.eq_of_pk hL.codes hu hk (by rw [hucode, hsame, hcode])
    rw [hunused] at hused
    cases hused
  exact
    { hU with
      opened := fun d hd => exists_mem_snoc (hU.opened d hd)
      sent := fun d hd => by
        rw [lastSent_snoc_none (hsends d.id)]
        exact hU.sent d hd
      sendsTo := forall_mem_snoc hU.sendsTo fun id _ => hsends id
      spent := forall_mem_snoc hU.spent fun m hm => by simp [hlogin] at hm
      loginOnce := by
        rw [filterMap_snoc_none hlogin]
        exact hU.loginOnce
      records := fun u hu => by
        obtain ⟨c, hc, hrests⟩ := hU.records u hu
        exact ⟨c, hc, hrests.snoc fun m hm => by simp [hlogin] at hm⟩
      used := forall_mem_snoc hU.used fun h hh => by
        obtain rfl := Option.some.inj (hgrant.symm.trans hh)
        exact ⟨_, OauthStore.mem_useCode.2 (Or.inr ⟨k, hk, hcode, rfl⟩), hcode, rfl⟩
      grantOnce := by
        rw [filterMap_snoc_some hgrant]
        refine Keyed.nodup_map_snoc hU.grantOnce fun h hh => ?_
        obtain ⟨w, hw, hwh⟩ := List.mem_filterMap.1 hh
        exact hfirst w hw h hwh }

end Linked

/-! ## Every run -/

section Run

variable {cfg : OauthConfig} {now : Instant} {s s' : OauthStore} {log : List Exchange}
  {r : OauthRequest} {a : OauthAnswer}

theorem OauthStore.Moves.linked (h : s.Moves cfg now r s' a) (hL : Linked s log)
    (hfresh : s.Fresh r) : Linked s' (log ++ [⟨now, r, a⟩]) := by
  cases h with
  | idle r ha => exact hL.silent (Exchange.silent_of_idle ha)
  | evicted r id ha => exact (hL.popChallenge id).silent (Exchange.silent_of_idle ha)
  | opened redirectUri state scope id =>
    exact hL.createChallenge hfresh rfl rfl ⟨rfl, rfl, rfl⟩ (fun _ => rfl) rfl rfl
  | @otpSent id c reply k customerBankId otp sentAt mailError hlisted hlive hk =>
    obtain ⟨-, hc, rfl⟩ := OauthStore.mem_of_listed hlisted
    cases mailError with
    | none =>
      exact hL.setOtp sentAt k otp (List.mem_map_of_mem hc) (by simp [Exchange.sends, hk]) rfl rfl
    | some reason =>
      exact hL.setOtp sentAt k otp (List.mem_map_of_mem hc) (by simp [Exchange.sends, hk]) rfl rfl
  | @verified id c otp checkedAt codeAt code hlisted hlive haccepts =>
    obtain ⟨hid, hc, rfl⟩ := OauthStore.mem_of_listed hlisted
    let l : Login := { id := c.id, otp := strip otp, checkedAt, code }
    obtain ⟨customerId, hcustomer, hadmits⟩ := hL.admits (l := l)
      (x := ⟨now, .verify c.id otp checkedAt codeAt code, .redirect c.redirectUri code c.state⟩)
      hc hlive rfl rfl haccepts
    exact hL.verified (l := l) hid (List.mem_map_of_mem hc) hfresh rfl hcustomer hadmits
      (fun _ => rfl) rfl rfl
  | burnt r code ha => exact (hL.useCode code).silent (Exchange.silent_of_idle ha)
  | @granted code k refreshToken hfind hunused hlive =>
    have hcode : k.code = code := by simpa using List.find?_some hfind
    let g : Grant :=
      { code, clientId := k.clientId, redirectUri := k.redirectUri, customerId := k.customerId }
    exact hL.granted (g := g) _ (List.mem_of_find?_eq_some hfind) hunused hcode (fun _ => rfl) rfl rfl

/-- The token that a request gets rests on a login before it. -/
theorem OauthStore.Moves.rests (h : s.Moves cfg now r s' a) (hL : Linked s log) {g : Grant}
    (hg : (Exchange.mk now r a).grant = some g) : ∃ customerId, g.customerId = some customerId ∧
      RestsOnLogin log g.code g.clientId g.redirectUri customerId := by
  cases h with
  | idle r ha => simp [(Exchange.silent_of_idle ha).grant] at hg
  | evicted r id ha => simp [(Exchange.silent_of_idle ha).grant] at hg
  | burnt r code ha => simp [(Exchange.silent_of_idle ha).grant] at hg
  | opened | otpSent | verified => simp [Exchange.grant] at hg
  | @granted code k refreshToken hfind hunused hlive =>
    obtain rfl : k.code = code := by simpa using List.find?_some hfind
    obtain rfl := Option.some.inj hg
    exact hL.records k (List.mem_of_find?_eq_some hfind)

end Run

/-- Each token rests on a login, each challenge gives one code and each code one token. -/
structure TokensRestOnLogins (log : List Exchange) : Prop where
  tokens : EachAfter (fun before x => ∀ g, x.grant = some g →
    ∃ customerId, g.customerId = some customerId ∧
      RestsOnLogin before g.code g.clientId g.redirectUri customerId) log
  challenges : ((log.filterMap Exchange.login).map Login.id).Nodup
  codes : ((log.filterMap Exchange.grant).map Grant.code).Nodup

namespace History

variable {cfg : OauthConfig} {s : OauthStore} {log : List Exchange}

theorem linked (h : History cfg s log) : Linked s log := by
  induction h with
  | start => exact .start
  | snoc now r _ hfresh ih => exact (OauthStore.handle_moves cfg now _ r).linked ih hfresh

/-- In every run, each access token rests on exactly one login. -/
theorem tokens_rest_on_logins (h : History cfg s log) : TokensRestOnLogins log where
  tokens := by
    induction h with
    | start => exact eachAfter_nil _
    | snoc now r h _ ih =>
      exact ih.snoc fun g hg => (OauthStore.handle_moves cfg now _ r).rests h.linked hg
  challenges := h.linked.loginOnce
  codes := h.linked.grantOnce

end History

/-- A login that is restarted for another customer, and its token. -/
theorem restartedLogin_rests : ∃ log : List Exchange,
    (log.filterMap Exchange.grant).map Grant.customerId = [some "C-2"] ∧
      TokensRestOnLogins log :=
  let cfg : OauthConfig := { clientId := "nbe", clientSecret := "s" }
  let empty : History cfg {} [] := .start
  let run := ((((empty.snoc 0
    (.authorize "nbe" "http://app/cb" "code" none none 0) (by decide)).snoc 5
    (.start 0 "alice" (.record (some "C-1") (some "a@x") (some "1") none) "111111" 5 none)
      trivial).snoc 9
    (.start 0 "bob" (.record (some "C-2") (some "b@x") (some "2") none) "222222" 9 none)
      trivial).snoc 20
    (.verify 0 " 222222 " 20 20 "k") (by decide)).snoc 30
    (.token "authorization_code" "k" "http://app/cb" "nbe" "s" "t") (by decide)
  ⟨_, by decide, History.tokens_rest_on_logins run⟩

end NbeAdvisor
