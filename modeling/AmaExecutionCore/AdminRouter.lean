import AmaExecutionCore.LogoutRevocation
import AmaExecutionCore.ExpiringKeys
import AmaExecutionCore.SessionCounts

/-! The login in two steps of the admin API. Its requests take turns between their awaits, and
share the counters of failures in Redis. -/
namespace AmaExecutionCore.AdminAuth

open ExpiringKeys (Store)

structure AdminUser where
  id : Nat
  username : String
  passwordHash : String
  totpSecret : String
  isActive : Bool := true
  deriving DecidableEq, Repr

structure AuditLog where
  adminId : Nat
  action : String
  ipAddress : String
  userAgent : Option String
  deriving DecidableEq, Repr

structure LoginRequest where
  username : String
  password : String
  deriving DecidableEq, Repr

structure VerifyTotpRequest where
  sessionToken : String
  totpCode : String
  deriving DecidableEq, Repr

structure ClientRequest where
  peer : Option String
  realIp : Option String := none
  userAgent : Option String := none
  deriving DecidableEq, Repr

/-- What is decided outside of the server: the hashes, the codes, which peers are proxies, and
what a text decodes to. -/
structure AuthChecks (K : Type) where
  settings : Settings := {}
  verifyPassword : String → String → Bool
  verifyTotp : String → String → K → Bool
  isTrustedProxy : String → Bool
  credential : String → Credential

/-- `f"failures:{ip}"`, `f"blocked:{ip}"` and `f"totp_fail:{session_token}"`. -/
inductive ThrottleKey where
  | failures (ip : String)
  | blocked (ip : String)
  | totpFail (sessionToken : String)
  deriving DecidableEq, Repr

/-- What happened, in order, for the properties of whole runs. -/
inductive Attempt (K : Type) where
  | passwordAccepted (row : AdminUser) (password : String) (time : K)
  | passwordRejected (ip : String) (time : K)
  | failureCounted (ip : String) (time : K)
  | failuresReset (ip : String) (time : K)
  | pendingIssued (payload : Token) (time : K)
  | tokenDecoded (payload : Token) (time : K)
  | codeAccepted (row : AdminUser) (code : String) (time : K)
  | codeRejected (sessionToken : String)
  | codeCounted (sessionToken : String)
  deriving DecidableEq, Repr

structure AuthWorld (K : Type) where
  now : K
  auth : AuthState K := {}
  redis : Store ThrottleKey K := Store.empty
  adminUsers : List AdminUser
  auditLog : List AuditLog := []
  history : List (Attempt K) := []

/-- Where a login stands: what it awaits next. -/
inductive LoginStage where
  | isBlocked
  | authenticate
  | incr (row : Option AdminUser)
  | expire (row : Option AdminUser)
  | setex (row : Option AdminUser)
  | appendAudit (row : Option AdminUser)
  | resetFailures (row : AdminUser)
  | createToken (row : AdminUser)
  | finished (response : AdminResponse)
  deriving DecidableEq, Repr

inductive TotpStage where
  | getFailCount
  | decodeToken
  | verify (payload : Token)
  | incr (row : AdminUser)
  | expire (row : AdminUser)
  | appendAudit (row : AdminUser)
  | appendSuccess (row : AdminUser) (payload : Token)
  | finished (response : AdminResponse)
  deriving DecidableEq, Repr

inductive AdminCall where
  | login (payload : LoginRequest) (stage : LoginStage)
  | verifyTotp (payload : VerifyTotpRequest) (stage : TotpStage)
  deriving DecidableEq, Repr

structure AdminSession where
  ip : String
  userAgent : Option String
  call : AdminCall
  deriving DecidableEq, Repr

inductive AdminEndpoint where
  | login (payload : LoginRequest)
  | verifyTotp (payload : VerifyTotpRequest)
  deriving DecidableEq, Repr

/-- What else happens: time goes by, the table of administrators changes, and the other endpoints
serve requests. -/
inductive AdminEvent (K : Type) where
  | elapse (time : K)
  | setAdminUsers (rows : List AdminUser)
  | refresh (refreshToken : Option Credential) (csrf : Csrf)
  | logout (refreshToken : Option Credential) (csrf : Csrf) (credentials : Option Credential)

def maxFailures : Nat := 5
def blockSeconds : Int := 900
def failuresTtl : Int := 900
def totpFailTtl : Int := 300

section Endpoints

variable {K : Type}

def clientIp (checks : AuthChecks K) (request : ClientRequest) : String :=
  match request.peer.filter (· ≠ "") with
  | none => "unknown"
  | some peer =>
    if checks.isTrustedProxy peer then (request.realIp.filter (· ≠ "")).getD peer else peer

def AuthWorld.happens (w : AuthWorld K) (attempt : Attempt K) : AuthWorld K :=
  { w with history := w.history ++ [attempt] }

def AuthWorld.issue (w : AuthWorld K) (token : Token) : AuthWorld K :=
  { w with auth := w.auth.issue token }

def AuthWorld.appendAudit (w : AuthWorld K) (row : AdminUser) (action : String)
    (c : AdminSession) : AuthWorld K :=
  { w with auditLog := w.auditLog ++
      [{ adminId := row.id, action := action, ipAddress := c.ip, userAgent := c.userAgent }] }

def AuthWorld.findUser (w : AuthWorld K) (username : String) : Option AdminUser :=
  w.adminUsers.find? fun row => row.username = username

/-- What `_record_failure` does once the failures are counted. -/
def LoginStage.afterCount (count : Nat) (row : Option AdminUser) : LoginStage :=
  if maxFailures ≤ count then .setex row else .appendAudit row

def invalidCredentials : AdminResponse := .raised ⟨401, "Invalid credentials"⟩

variable [Field K] [LinearOrder K] [FloorRing K] (checks : AuthChecks K)

def authenticate (payload : LoginRequest) (c : AdminSession) (w : AuthWorld K) :
    AuthWorld K × LoginStage :=
  match (w.findUser payload.username).filter fun row =>
      row.isActive && checks.verifyPassword payload.password row.passwordHash with
  | some row => (w.happens (.passwordAccepted row payload.password w.now), .resetFailures row)
  | none => (w.happens (.passwordRejected c.ip w.now), .incr (w.findUser payload.username))

/-- The endpoint `login`, one await at a time. -/
def loginNext (payload : LoginRequest) (c : AdminSession) (w : AuthWorld K) :
    LoginStage → AuthWorld K × LoginStage
  | .isBlocked =>
    if w.redis.contains w.now (.blocked c.ip) then
      (w, .finished (.raised ⟨429, "Too many failed attempts — try again later"⟩))
    else (w, .authenticate)
  | .authenticate => authenticate checks payload c w
  | .incr row =>
    let count := w.redis.count w.now (.failures c.ip) + 1
    ({ w with redis := w.redis.incr w.now (.failures c.ip) }.happens (.failureCounted c.ip w.now),
      if count = 1 then .expire row else .afterCount count row)
  | .expire row =>
    ({ w with redis := w.redis.expire w.now (.failures c.ip) (failuresTtl : K) },
      .afterCount 1 row)
  | .setex row =>
    ({ w with redis := w.redis.setex w.now (.blocked c.ip) (blockSeconds : K) 1 },
      .appendAudit row)
  | .appendAudit row =>
    (row.elim w fun row => w.appendAudit row "login_failed" c, .finished invalidCredentials)
  | .resetFailures row =>
    ({ w with redis := w.redis.delete (.failures c.ip) }.happens (.failuresReset c.ip w.now),
      .createToken row)
  | .createToken row =>
    let token := makeToken w.auth w.now row.username .totpPending (5 * 60)
    ((w.issue token).happens (.pendingIssued token w.now),
      .finished (.totpRequired token))
  | .finished response => (w, .finished response)

def verifyCode (payload : VerifyTotpRequest) (pending : Token) (w : AuthWorld K) :
    AuthWorld K × TotpStage :=
  match (w.findUser pending.sub).filter AdminUser.isActive with
  | none => (w, .finished invalidCredentials)
  | some row =>
    if checks.verifyTotp row.totpSecret payload.totpCode w.now then
      (w.happens (.codeAccepted row payload.totpCode w.now), .appendSuccess row pending)
    else (w.happens (.codeRejected payload.sessionToken), .incr row)

def openSession (username : String) (w : AuthWorld K) : AuthWorld K × AdminResponse :=
  let refreshToken := makeToken w.auth w.now username .refresh
    (checks.settings.adminJwtRefreshTtlDays * (24 * 60 * 60))
  let withRefresh := w.issue refreshToken
  let accessToken := makeToken withRefresh.auth w.now username .access
    (checks.settings.adminJwtAccessTtlMinutes * 60)
  (withRefresh.issue accessToken, .session accessToken refreshToken)

/-- The endpoint `verify_totp`, one await at a time. -/
def totpNext (payload : VerifyTotpRequest) (c : AdminSession) (w : AuthWorld K) :
    TotpStage → AuthWorld K × TotpStage
  | .getFailCount =>
    if maxFailures ≤ w.redis.count w.now (.totpFail payload.sessionToken) then
      (w, .finished (.raised ⟨429, "Too many failed TOTP attempts. Please login again."⟩))
    else (w, .decodeToken)
  | .decodeToken =>
    match AdminAuth.decodeToken w.auth w.now (checks.credential payload.sessionToken)
        .totpPending with
    | none => (w, .finished (.raised ⟨401, "Invalid or expired session token"⟩))
    | some pending => (w.happens (.tokenDecoded pending w.now), .verify pending)
  | .verify pending => verifyCode checks payload pending w
  | .incr row =>
    let count := w.redis.count w.now (.totpFail payload.sessionToken) + 1
    ({ w with redis := w.redis.incr w.now (.totpFail payload.sessionToken) }.happens
        (.codeCounted payload.sessionToken),
      if count = 1 then .expire row else .appendAudit row)
  | .expire row =>
    ({ w with redis :=
        w.redis.expire w.now (.totpFail payload.sessionToken) (totpFailTtl : K) },
      .appendAudit row)
  | .appendAudit row => (w.appendAudit row "totp_failed" c, .finished invalidCredentials)
  | .appendSuccess row pending =>
    let opened := openSession checks pending.sub (w.appendAudit row "login_success" c)
    (opened.1, .finished opened.2)
  | .finished response => (w, .finished response)

def AdminSession.next (c : AdminSession) (w : AuthWorld K) : AuthWorld K × AdminSession :=
  match c.call with
  | .login payload stage =>
    let moved := loginNext checks payload c w stage
    (moved.1, { c with call := .login payload moved.2 })
  | .verifyTotp payload stage =>
    let moved := totpNext checks payload c w stage
    (moved.1, { c with call := .verifyTotp payload moved.2 })

def AdminSession.start (request : ClientRequest × AdminEndpoint) : AdminSession where
  ip := clientIp checks request.1
  userAgent := request.1.userAgent
  call := match request.2 with
    | .login payload => .login payload .isBlocked
    | .verifyTotp payload => .verifyTotp payload .getFailCount

/-- The clock does not go back. -/
def AuthWorld.handle (w : AuthWorld K) : AdminEvent K → AuthWorld K
  | .elapse time => { w with now := max w.now time }
  | .setAdminUsers rows => { w with adminUsers := rows }
  | .refresh refreshToken csrf =>
    { w with auth := (refreshAccessToken checks.settings w.auth w.now refreshToken csrf).2 }
  | .logout refreshToken csrf credentials =>
    { w with auth := (AdminAuth.logout w.auth w.now refreshToken csrf credentials).2 }

def loginSystem : Sessions.System (AuthWorld K) AdminSession (ClientRequest × AdminEndpoint)
    (AdminEvent K) where
  start := AdminSession.start checks
  next := AdminSession.next checks
  handle := AuthWorld.handle checks

abbrev LoginAct (K : Type) := Sessions.Act (ClientRequest × AdminEndpoint) (AdminEvent K)

abbrev LoginState (K : Type) := Sessions.State (AuthWorld K) AdminSession

/-- Nothing is signed, counted or in flight. -/
def initialState (now : K) (rows : List AdminUser) : LoginState K :=
  ⟨{ now := now, adminUsers := rows }, []⟩

def serveLogins (now : K) (rows : List AdminUser) (acts : List (LoginAct K)) : LoginState K :=
  Runs.run (Sessions.step (loginSystem checks)) (initialState now rows) acts

end Endpoints

section Issued

variable {K : Type} [Field K] [LinearOrder K] [FloorRing K]

theorem makeToken_exp_le (state : AuthState K) (now : K) (username : String) (type : TokenType)
    (delta : Int) : ((makeToken state now username type delta).exp : K) ≤ now + delta :=
  Int.floor_le _

theorem makeToken_type_ne {state : AuthState K} {now : K} {username : String}
    {type other : TokenType} {delta : Int} (h : type ≠ other) :
    (makeToken state now username type delta).type ≠ other := h

/-- A refresh signs one access token, for the one whom its refresh token names. -/
theorem refreshAccessToken_issues (settings : Settings) (state : AuthState K) (now : K)
    (refreshToken : Option Credential) (csrf : Csrf) :
    (refreshAccessToken settings state now refreshToken csrf).2 = state ∨
      ∃ payload ∈ state.issued, payload.type = .refresh ∧
        (refreshAccessToken settings state now refreshToken csrf).2 =
          state.issue (makeToken state now payload.sub .access
            (settings.adminJwtAccessTtlMinutes * 60)) := by
  rw [refreshAccessToken.eq_def]
  split
  · split
    · exact .inl rfl
    · split
      · exact .inl rfl
      · rename_i payload hdecoded
        obtain ⟨-, hissued, -, htype⟩ := decodeToken_eq_some_iff.mp hdecoded
        split
        · exact .inl rfl
        · exact .inr ⟨payload, hissued, htype, rfl⟩
  · exact .inl rfl

theorem logout_issued (state : AuthState K) (now : K) (refreshToken : Option Credential)
    (csrf : Csrf) (credentials : Option Credential) :
    (logout state now refreshToken csrf credentials).2.issued = state.issued := by
  have hrevoked (other : AuthState K) (credential : Option Credential) (type : TokenType) :
      (credential.elim other fun credential => revoke other now credential type).issued =
        other.issued := by
    cases credential with
    | none => rfl
    | some credential => exact revoke_issued other now credential type
  rw [logout]
  split
  · rfl
  · exact (hrevoked _ _ _).trans (hrevoked _ _ _)

end Issued

section Clock

variable {K : Type} [Field K] [LinearOrder K] [FloorRing K] (checks : AuthChecks K)

theorem loginNext_now (payload : LoginRequest) (c : AdminSession) (w : AuthWorld K)
    (stage : LoginStage) : (loginNext checks payload c w stage).1.now = w.now := by
  cases stage with
  | isBlocked =>
    rw [loginNext]
    split <;> rfl
  | authenticate =>
    rw [loginNext, authenticate]
    split <;> rfl
  | appendAudit row => cases row <;> rfl
  | incr row => rfl
  | expire row => rfl
  | setex row => rfl
  | resetFailures row => rfl
  | createToken row => rfl
  | finished response => rfl

theorem totpNext_now (payload : VerifyTotpRequest) (c : AdminSession) (w : AuthWorld K)
    (stage : TotpStage) : (totpNext checks payload c w stage).1.now = w.now := by
  cases stage with
  | getFailCount =>
    rw [totpNext]
    split <;> rfl
  | decodeToken =>
    rw [totpNext]
    split <;> rfl
  | verify pending =>
    rw [totpNext, verifyCode]
    split
    · rfl
    · split <;> rfl
  | incr row => rfl
  | expire row => rfl
  | appendAudit row => rfl
  | appendSuccess row pending => rfl
  | finished response => rfl

/-- The clock of the server does not go back. -/
theorem now_le_step (s : LoginState K) (act : LoginAct K) :
    s.store.now ≤ (Sessions.step (loginSystem checks) s act).store.now := by
  cases act with
  | start request => exact le_refl _
  | advance i =>
    rw [Sessions.step.eq_def]
    cases hc : s.sessions[i]? with
    | none => simp only [hc, le_refl]
    | some c =>
      have hnow : (c.next checks s.store).1.now = s.store.now := by
        rw [AdminSession.next]
        cases c.call with
        | login payload stage => exact loginNext_now checks payload c s.store stage
        | verifyTotp payload stage => exact totpNext_now checks payload c s.store stage
      simp only [hc]
      exact hnow.ge
  | event e =>
    cases e with
    | elapse time => exact le_max_left _ _
    | setAdminUsers rows => exact le_refl _
    | refresh refreshToken csrf => exact le_refl _
    | logout refreshToken csrf credentials => exact le_refl _

end Clock

section Alone

variable {K : Type} [Field K] [LinearOrder K] [FloorRing K] (checks : AuthChecks K)

def loginTurn (payload : LoginRequest) (c : AdminSession) (turn : AuthWorld K × LoginStage) :
    AuthWorld K × LoginStage :=
  loginNext checks payload c turn.1 turn.2

def totpTurn (payload : VerifyTotpRequest) (c : AdminSession) (turn : AuthWorld K × TotpStage) :
    AuthWorld K × TotpStage :=
  totpNext checks payload c turn.1 turn.2

theorem loginTurn_incr (payload : LoginRequest) (c : AdminSession) (w : AuthWorld K)
    (row : Option AdminUser) : ∃ n,
    ((loginTurn checks payload c)^[n] (w, .incr row)).2 = .finished invalidCredentials ∧
      ((loginTurn checks payload c)^[n] (w, .incr row)).1.auth = w.auth := by
  have haudit (opened : AuthWorld K) :
      (loginTurn checks payload c (opened, .appendAudit row)).2 = .finished invalidCredentials ∧
        (loginTurn checks payload c (opened, .appendAudit row)).1.auth = opened.auth := by
    cases row <;> exact ⟨rfl, rfl⟩
  by_cases hone : w.redis.count w.now (.failures c.ip) + 1 = 1
  · refine ⟨3, ?_⟩
    rw [Function.iterate_succ, Function.comp_apply, loginTurn, loginNext, if_pos hone]
    exact haudit _
  · by_cases hlimit : maxFailures ≤ w.redis.count w.now (.failures c.ip) + 1
    · refine ⟨3, ?_⟩
      rw [Function.iterate_succ, Function.comp_apply, loginTurn, loginNext, if_neg hone,
        LoginStage.afterCount, if_pos hlimit]
      exact haudit _
    · refine ⟨2, ?_⟩
      rw [Function.iterate_succ, Function.comp_apply, loginTurn, loginNext, if_neg hone,
        LoginStage.afterCount, if_neg hlimit]
      exact haudit _

/-- A login that nothing else comes between ends as the request that is served at one instant. -/
theorem loginTurn_alone (payload : LoginRequest) (c : AdminSession) (w : AuthWorld K) :
    let served := login w.auth w.now payload.username (w.redis.contains w.now (.blocked c.ip))
      ((w.findUser payload.username).any fun row =>
        row.isActive && checks.verifyPassword payload.password row.passwordHash)
    ∃ n, ((loginTurn checks payload c)^[n] (w, .isBlocked)).2 = .finished served.1 ∧
      ((loginTurn checks payload c)^[n] (w, .isBlocked)).1.auth = served.2 := by
  dsimp only
  rw [login]
  by_cases hblocked : w.redis.contains w.now (.blocked c.ip) = true
  · refine ⟨1, ?_⟩
    rw [if_pos hblocked, Function.iterate_one, loginTurn, loginNext, if_pos hblocked]
    exact ⟨rfl, rfl⟩
  · have hopen : loginTurn checks payload c (w, .isBlocked) = (w, .authenticate) := by
      rw [loginTurn, loginNext, if_neg hblocked]
    rw [if_neg hblocked]
    cases hrow : (w.findUser payload.username).filter fun row =>
        row.isActive && checks.verifyPassword payload.password row.passwordHash with
    | none => 
      have hinvalid : ((w.findUser payload.username).any fun row =>
          row.isActive && checks.verifyPassword payload.password row.passwordHash) = false := by
        rw [← Option.isSome_filter, hrow, Option.isSome_none]
      have hrejected : loginTurn checks payload c (w, .authenticate) =
          (w.happens (.passwordRejected c.ip w.now), .incr (w.findUser payload.username)) := by
        rw [loginTurn, loginNext, authenticate, hrow]
      obtain ⟨n, hended⟩ := loginTurn_incr checks payload c
        (w.happens (.passwordRejected c.ip w.now)) (w.findUser payload.username)
      refine ⟨n + 2, ?_⟩
      rw [if_neg (by simp [hinvalid]), Function.iterate_add_apply, Function.iterate_succ,
        Function.iterate_one, Function.comp_apply, hopen, hrejected]
      exact hended
    | some row =>
      have hvalid : ((w.findUser payload.username).any fun row =>
          row.isActive && checks.verifyPassword payload.password row.passwordHash) = true := by
        rw [← Option.isSome_filter, hrow, Option.isSome_some]
      have hfound : w.findUser payload.username = some row := (Option.filter_eq_some_iff.mp hrow).1
      have hname : row.username = payload.username := by
        simpa using List.find?_some hfound
      have haccepted : loginTurn checks payload c (w, .authenticate) =
          (w.happens (.passwordAccepted row payload.password w.now), .resetFailures row) := by
        rw [loginTurn, loginNext, authenticate, hrow]
      refine ⟨4, ?_⟩
      rw [if_pos hvalid, Function.iterate_succ, Function.comp_apply, hopen, Function.iterate_succ,
        Function.comp_apply, haccepted, ← hname]
      exact ⟨rfl, rfl⟩

/-- After its wrong code is counted a verification is refused, and no token changes. -/
theorem totpTurn_incr (payload : VerifyTotpRequest) (c : AdminSession) (w : AuthWorld K)
    (row : AdminUser) : ∃ n,
    ((totpTurn checks payload c)^[n] (w, .incr row)).2 = .finished invalidCredentials ∧
      ((totpTurn checks payload c)^[n] (w, .incr row)).1.auth = w.auth := by
  by_cases hone : w.redis.count w.now (.totpFail payload.sessionToken) + 1 = 1
  · refine ⟨3, ?_⟩
    rw [Function.iterate_succ, Function.comp_apply, totpTurn, totpNext, if_pos hone]
    exact ⟨rfl, rfl⟩
  · refine ⟨2, ?_⟩
    rw [Function.iterate_succ, Function.comp_apply, totpTurn, totpNext, if_neg hone]
    exact ⟨rfl, rfl⟩

/-- A verification that nothing else comes between ends as the request that is served at one
instant. -/
theorem totpTurn_alone (payload : VerifyTotpRequest) (c : AdminSession) (w : AuthWorld K) :
    let found := (decodeToken w.auth w.now (checks.credential payload.sessionToken)
      .totpPending).bind fun pending => w.findUser pending.sub
    let served := verifyTotp checks.settings w.auth w.now (checks.credential payload.sessionToken)
      (maxFailures ≤ w.redis.count w.now (.totpFail payload.sessionToken))
      (found.any AdminUser.isActive)
      (found.any fun row => checks.verifyTotp row.totpSecret payload.totpCode w.now)
    ∃ n, ((totpTurn checks payload c)^[n] (w, .getFailCount)).2 = .finished served.1 ∧
      ((totpTurn checks payload c)^[n] (w, .getFailCount)).1.auth = served.2 := by
  dsimp only
  rw [verifyTotp.eq_def]
  by_cases hlimit : maxFailures ≤ w.redis.count w.now (.totpFail payload.sessionToken)
  · refine ⟨1, ?_⟩
    rw [if_pos (decide_eq_true hlimit), Function.iterate_one, totpTurn, totpNext, if_pos hlimit]
    exact ⟨rfl, rfl⟩
  · have hopen : totpTurn checks payload c (w, .getFailCount) = (w, .decodeToken) := by
      rw [totpTurn, totpNext, if_neg hlimit]
    rw [if_neg (by simpa using hlimit)]
    cases hdecoded : decodeToken w.auth w.now (checks.credential payload.sessionToken)
        .totpPending with
    | none =>
      refine ⟨2, ?_⟩
      rw [Function.iterate_succ, Function.iterate_one, Function.comp_apply, hopen, totpTurn,
        totpNext, hdecoded]
      exact ⟨rfl, rfl⟩
    | some pending =>
      have hverify : totpTurn checks payload c (w, .decodeToken) =
          (w.happens (.tokenDecoded pending w.now), .verify pending) := by
        rw [totpTurn, totpNext, hdecoded]
      have hfind : (w.happens (.tokenDecoded pending w.now)).findUser pending.sub =
          w.findUser pending.sub := rfl
      rw [Option.bind_some]
      cases hrow : (w.findUser pending.sub).filter AdminUser.isActive with
      | none =>
        have hinactive : (w.findUser pending.sub).any AdminUser.isActive = false := by
          rw [← Option.isSome_filter, hrow, Option.isSome_none]
        refine ⟨3, ?_⟩
        rw [Function.iterate_succ, Function.comp_apply, hopen, Function.iterate_succ,
          Function.comp_apply, hverify, Function.iterate_one, totpTurn, totpNext, verifyCode, hfind,
          hrow, hinactive]
        exact ⟨rfl, rfl⟩
      | some row =>
        obtain ⟨hfound, hactive⟩ := Option.filter_eq_some_iff.mp hrow
        rw [hfound, Option.any_some, Option.any_some, hactive, Bool.true_and]
        by_cases hcode : checks.verifyTotp row.totpSecret payload.totpCode w.now = true
        · have haccepted : totpTurn checks payload c
              (w.happens (.tokenDecoded pending w.now), .verify pending) =
              ((w.happens (.tokenDecoded pending w.now)).happens
                (.codeAccepted row payload.totpCode w.now), .appendSuccess row pending) := by
            rw [totpTurn, totpNext, verifyCode, hfind, hrow]
            exact if_pos hcode
          refine ⟨4, ?_⟩
          simp only [if_pos hcode]
          rw [Function.iterate_succ, Function.comp_apply, hopen, Function.iterate_succ,
            Function.comp_apply, hverify, Function.iterate_succ, Function.comp_apply, haccepted]
          exact ⟨rfl, rfl⟩
        · have hrejected : totpTurn checks payload c
              (w.happens (.tokenDecoded pending w.now), .verify pending) =
              ((w.happens (.tokenDecoded pending w.now)).happens
                (.codeRejected payload.sessionToken), .incr row) := by
            rw [totpTurn, totpNext, verifyCode, hfind, hrow]
            exact if_neg hcode
          obtain ⟨n, hended⟩ := totpTurn_incr checks payload c
            ((w.happens (.tokenDecoded pending w.now)).happens
              (.codeRejected payload.sessionToken)) row
          refine ⟨n + 3, ?_⟩
          simp only [if_neg hcode]
          rw [Function.iterate_add_apply, Function.iterate_succ, Function.comp_apply,
            hopen, Function.iterate_succ, Function.comp_apply, hverify, Function.iterate_one,
            hrejected]
          exact hended

def AuthWorld.serve (w : AuthWorld K) (request : ClientRequest × AdminEndpoint) :
    AdminResponse × AuthState K :=
  match request.2 with
  | .login payload =>
    login w.auth w.now payload.username
      (w.redis.contains w.now (.blocked (clientIp checks request.1)))
      ((w.findUser payload.username).any fun row =>
        row.isActive && checks.verifyPassword payload.password row.passwordHash)
  | .verifyTotp payload =>
    let found := (decodeToken w.auth w.now (checks.credential payload.sessionToken)
      .totpPending).bind fun pending => w.findUser pending.sub
    verifyTotp checks.settings w.auth w.now (checks.credential payload.sessionToken)
      (maxFailures ≤ w.redis.count w.now (.totpFail payload.sessionToken))
      (found.any AdminUser.isActive)
      (found.any fun row => checks.verifyTotp row.totpSecret payload.totpCode w.now)

def AdminCall.response : AdminCall → Option AdminResponse
  | .login _ (.finished response) => some response
  | .verifyTotp _ (.finished response) => some response
  | _ => none

def AdminSession.runAlone (n : Nat) (request : ClientRequest × AdminEndpoint) (w : AuthWorld K) :
    AuthWorld K × AdminSession :=
  (fun turn : AuthWorld K × AdminSession => turn.2.next checks turn.1)^[n]
    (w, AdminSession.start checks request)

theorem AdminSession.runAlone_login (n : Nat) (client : ClientRequest) (payload : LoginRequest)
    (w : AuthWorld K) :
    let start := AdminSession.start checks (client, .login payload)
    let turned := (loginTurn checks payload start)^[n] (w, .isBlocked)
    AdminSession.runAlone checks n (client, .login payload) w =
      (turned.1, { start with call := .login payload turned.2 }) := by
  dsimp only [AdminSession.runAlone]
  induction n with
  | zero => rfl
  | succ n ih =>
    rw [Function.iterate_succ_apply', ih, Function.iterate_succ_apply', loginTurn]
    generalize (loginTurn checks payload _)^[n] (w, LoginStage.isBlocked) = turned
    obtain ⟨opened, stage⟩ := turned
    cases stage <;> rfl

theorem AdminSession.runAlone_verifyTotp (n : Nat) (client : ClientRequest)
    (payload : VerifyTotpRequest) (w : AuthWorld K) :
    let start := AdminSession.start checks (client, .verifyTotp payload)
    let turned := (totpTurn checks payload start)^[n] (w, .getFailCount)
    AdminSession.runAlone checks n (client, .verifyTotp payload) w =
      (turned.1, { start with call := .verifyTotp payload turned.2 }) := by
  dsimp only [AdminSession.runAlone]
  induction n with
  | zero => rfl
  | succ n ih =>
    rw [Function.iterate_succ_apply', ih, Function.iterate_succ_apply', totpTurn]
    generalize (totpTurn checks payload _)^[n] (w, TotpStage.getFailCount) = turned
    obtain ⟨opened, stage⟩ := turned
    cases stage <;> rfl

theorem AdminSession.alone (request : ClientRequest × AdminEndpoint) (w : AuthWorld K) : ∃ n,
    (AdminSession.runAlone checks n request w).2.call.response = some (w.serve checks request).1 ∧
      (AdminSession.runAlone checks n request w).1.auth = (w.serve checks request).2 := by
  obtain ⟨client, endpoint⟩ := request
  cases endpoint with
  | login payload =>
    obtain ⟨n, hended, hauth⟩ := loginTurn_alone checks payload
      (AdminSession.start checks (client, .login payload)) w
    refine ⟨n, ?_⟩
    rw [AdminSession.runAlone_login]
    exact ⟨congrArg (fun stage => (AdminCall.login payload stage).response) hended, hauth⟩
  | verifyTotp payload =>
    obtain ⟨n, hended, hauth⟩ := totpTurn_alone checks payload
      (AdminSession.start checks (client, .verifyTotp payload)) w
    refine ⟨n, ?_⟩
    rw [AdminSession.runAlone_verifyTotp]
    exact ⟨congrArg (fun stage => (AdminCall.verifyTotp payload stage).response) hended, hauth⟩

end Alone

end AmaExecutionCore.AdminAuth
