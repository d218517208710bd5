import AmaExecutionCore.Runs
import Mathlib.Algebra.Order.Floor.Ring
import Mathlib.Algebra.Order.Floor.Semiring

/-! The tokens of the admin API: how they are issued, decoded and revoked, and the requests that
carry them. Every request is served at one instant. -/
namespace AmaExecutionCore.AdminAuth

variable {K : Type} [Field K] [LinearOrder K] [FloorRing K]

inductive TokenType where
  | access | refresh | totpPending
  deriving DecidableEq, Repr

/-- The claims of a JWT of this server; `jti` stands for the fresh UUID. -/
structure Token where
  jti : Nat
  type : TokenType
  sub : String
  exp : Int
  deriving DecidableEq, Repr

/-- What is sent where a token is expected. -/
inductive Credential where
  | empty
  | unsigned
  | token (payload : Token)
  deriving DecidableEq, Repr

structure Settings where
  adminJwtAccessTtlMinutes : Int := 30
  adminJwtRefreshTtlDays : Int := 30

/-- The tokens that have been signed, and until when Redis holds the key `bl:{jti}`. -/
structure AuthState (K : Type) where
  issued : List Token := []
  blacklist : Nat → Option K := fun _ => none

structure HTTPException where
  statusCode : Nat
  detail : String
  deriving DecidableEq, Repr

section Tokens

/-- `_make_token`. The `exp` claim is a whole number of seconds. -/
def makeToken (state : AuthState K) (now : K) (username : String) (type : TokenType)
    (expiresDelta : Int) : Token :=
  { jti := state.issued.length, type := type, sub := username, exp := ⌊now + expiresDelta⌋ }

def AuthState.issue (state : AuthState K) (token : Token) : AuthState K :=
  { state with issued := state.issued ++ [token] }

/-- `decode_token`, and nothing where it raises: the signature, the expiry and the type are
checked. -/
def decodeToken (state : AuthState K) (now : K) (credential : Credential)
    (expectedType : TokenType) : Option Token :=
  match credential with
  | .token payload =>
    if payload ∈ state.issued ∧ now < payload.exp ∧ payload.type = expectedType then some payload
    else none
  | _ => none

/-- `exists(f"bl:{jti}")`. -/
def AuthState.isBlacklisted (state : AuthState K) (now : K) (jti : Nat) : Bool :=
  (state.blacklist jti).any fun expiry => now < expiry

/-- `setex(f"bl:{jti}", ttl, "1")`. -/
def AuthState.setBlacklisted (state : AuthState K) (now : K) (jti : Nat) (ttl : Int) :
    AuthState K :=
  { state with blacklist := fun key => if key = jti then some (now + ttl) else state.blacklist key }

def truncate (x : K) : Int := if 0 ≤ x then ⌊x⌋ else ⌈x⌉

/-- What `logout` does with a token of the expected type; a token that does not decode is passed
over. -/
def revoke (state : AuthState K) (now : K) (credential : Credential) (expectedType : TokenType) :
    AuthState K :=
  match decodeToken state now credential expectedType with
  | none => state
  | some payload =>
    let ttl := truncate (payload.exp - now)
    if 0 < ttl then state.setBlacklisted now payload.jti ttl else state

end Tokens

section Requests

/-- A double-submit token: a cookie and the header `X-CSRF-Token`. -/
structure Csrf where
  cookie : Option String := none
  header : Option String := none
  deriving DecidableEq, Repr

/-- The cookie and the header are there, not empty, and the same. -/
def Csrf.matches (csrf : Csrf) : Bool :=
  csrf.cookie.any (· ≠ "") && csrf.header.any (· ≠ "") && csrf.cookie == csrf.header

/-- A request, with what the database, the authenticator and the counters of failures say where
they are asked. -/
inductive AdminRequest where
  | login (username : String) (blocked valid : Bool)
  | verifyTotp (sessionToken : Credential) (blocked active codeMatches : Bool)
  | refresh (refreshToken : Option Credential) (csrf : Csrf)
  | logout (refreshToken : Option Credential) (csrf : Csrf) (credentials : Option Credential)
  | guarded (credentials : Credential)
  | wsLogs (token : Credential) (isActive : Option Bool)
  deriving DecidableEq, Repr

inductive AdminResponse where
  | raised (exception : HTTPException)
  | totpRequired (sessionToken : Token)
  | session (accessToken refreshToken : Token)
  | accessToken (token : Token)
  | loggedOut
  | admin (username : String)
  | connected
  | closed
  deriving DecidableEq, Repr

variable (settings : Settings) (state : AuthState K) (now : K)

def login (username : String) (blocked valid : Bool) : AdminResponse × AuthState K :=
  if blocked then
    (.raised ⟨429, "Too many failed attempts — try again later"⟩, state)
  else if valid then
    let token := makeToken state now username .totpPending (5 * 60)
    (.totpRequired token, state.issue token)
  else (.raised ⟨401, "Invalid credentials"⟩, state)

def verifyTotp (sessionToken : Credential) (blocked active codeMatches : Bool) :
    AdminResponse × AuthState K :=
  if blocked then
    (.raised ⟨429, "Too many failed TOTP attempts. Please login again."⟩, state)
  else match decodeToken state now sessionToken .totpPending with
  | none => (.raised ⟨401, "Invalid or expired session token"⟩, state)
  | some payload =>
    if active && codeMatches then
      let refreshToken := makeToken state now payload.sub .refresh
        (settings.adminJwtRefreshTtlDays * (24 * 60 * 60))
      let withRefresh := state.issue refreshToken
      let accessToken := makeToken withRefresh now payload.sub .access
        (settings.adminJwtAccessTtlMinutes * 60)
      (.session accessToken refreshToken, withRefresh.issue accessToken)
    else (.raised ⟨401, "Invalid credentials"⟩, state)

def refreshAccessToken (refreshToken : Option Credential) (csrf : Csrf) :
    AdminResponse × AuthState K :=
  if csrf.matches then
    match refreshToken with
    | none => (.raised ⟨401, "No refresh token provided"⟩, state)
    | some credential =>
      match decodeToken state now credential .refresh with
      | none => (.raised ⟨401, "Invalid or expired refresh token"⟩, state)
      | some payload =>
        if state.isBlacklisted now payload.jti then
          (.raised ⟨401, "Invalid or expired refresh token"⟩, state)
        else
          let token := makeToken state now payload.sub .access
            (settings.adminJwtAccessTtlMinutes * 60)
          (.accessToken token, state.issue token)
  else (.raised ⟨403, "CSRF token mismatch"⟩, state)

/-- A cookie that is missing or empty counts as none. -/
def presentCookie (refreshToken : Option Credential) : Option Credential :=
  refreshToken.filter (· ≠ .empty)

def logout (refreshToken : Option Credential) (csrf : Csrf) (credentials : Option Credential) :
    AdminResponse × AuthState K :=
  if (presentCookie refreshToken).isSome ∧ csrf.matches = false then
    (.raised ⟨403, "CSRF token mismatch"⟩, state)
  else
    let withoutAccess := credentials.elim state fun credential =>
      revoke state now credential .access
    let withoutRefresh := (presentCookie refreshToken).elim withoutAccess fun credential =>
      revoke withoutAccess now credential .refresh
    (.loggedOut, withoutRefresh)

def getCurrentAdmin (credentials : Credential) : AdminResponse :=
  match decodeToken state now credentials .access with
  | none => .raised ⟨401, "Invalid or expired token"⟩
  | some payload =>
    if state.isBlacklisted now payload.jti then .raised ⟨401, "Invalid or expired token"⟩
    else .admin payload.sub

/-- `_validate_ws_access`; without a session factory no row is asked for. -/
def validateWsAccess (token : Credential) (isActive : Option Bool) : AdminResponse :=
  match decodeToken state now token .access with
  | none => .closed
  | some payload =>
    if state.isBlacklisted now payload.jti then .closed
    else if isActive = some false then .closed
    else .connected

def handle : AdminRequest → AdminResponse × AuthState K
  | .login username blocked valid => login state now username blocked valid
  | .verifyTotp sessionToken blocked active codeMatches =>
    verifyTotp settings state now sessionToken blocked active codeMatches
  | .refresh refreshToken csrf => refreshAccessToken settings state now refreshToken csrf
  | .logout refreshToken csrf credentials => logout state now refreshToken csrf credentials
  | .guarded credentials => (getCurrentAdmin state now credentials, state)
  | .wsLogs token isActive => (validateWsAccess state now token isActive, state)

end Requests

/-- A run of requests, each with the time at which it is served. -/
def serve (settings : Settings) : AuthState K → List (K × AdminRequest) → AuthState K :=
  Runs.run fun state timed => (handle settings state timed.1 timed.2).2

section Lemmas

omit [FloorRing K] in
theorem decodeToken_eq_some_iff {state : AuthState K} {now : K} {credential : Credential}
    {type : TokenType} {token : Token} :
    decodeToken state now credential type = some token ↔ credential = .token token ∧
      token ∈ state.issued ∧ now < token.exp ∧ token.type = type := by
  cases credential with
  | token payload =>
    rw [decodeToken]
    by_cases hvalid : payload ∈ state.issued ∧ now < payload.exp ∧ payload.type = type
    · rw [if_pos hvalid, Option.some.injEq, Credential.token.injEq]
      constructor
      · rintro rfl
        exact ⟨rfl, hvalid⟩
      · exact fun h => h.1
    · rw [if_neg hvalid, Credential.token.injEq]
      constructor
      · exact fun h => absurd h (by simp)
      · rintro ⟨rfl, h⟩
        exact absurd h hvalid
  | empty => simp [decodeToken]
  | unsigned => simp [decodeToken]

theorem truncate_of_one_le {x : K} (h : 1 ≤ x) : truncate x = ⌊x⌋ :=
  if_pos (zero_le_one.trans h)

theorem truncate_pos_iff {x : K} : 0 < truncate x ↔ 1 ≤ x := by
  have hfloor : (1 : ℤ) ≤ ⌊x⌋ ↔ 1 ≤ x := by
    rw [Int.le_floor, Int.cast_one]
  rw [truncate]
  by_cases hx : 0 ≤ x
  · rw [if_pos hx, ← hfloor]
    omega
  · have hceil : ⌈x⌉ ≤ 0 := Int.ceil_le.mpr (by rw [Int.cast_zero]; exact (not_le.mp hx).le)
    rw [if_neg hx]
    refine iff_of_false (not_lt.mpr hceil) ?_
    intro hone
    exact hx (zero_le_one.trans hone)

end Lemmas

end AmaExecutionCore.AdminAuth
