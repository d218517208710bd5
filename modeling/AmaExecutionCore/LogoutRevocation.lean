import AmaExecutionCore.AdminAuth
import Mathlib.Data.List.Induction
import Mathlib.Data.List.Nodup
import Mathlib.Data.Rat.Floor

/-! What a logout revokes: the key of a token is held for the whole seconds that the last logout
left, and the token is accepted again in the fraction of a second that remains. -/
namespace AmaExecutionCore.AdminAuth

section Runs

variable {K : Type} [Field K] [LinearOrder K] [FloorRing K]

/-- The request is a logout that presents the token where a token of its type belongs. -/
def Presents : AdminRequest → Token → Prop
  | .logout refreshToken _ credentials, token =>
    (token.type = .access ∧ credentials = some (.token token)) ∨
      (token.type = .refresh ∧ refreshToken = some (.token token))
  | _, _ => False

instance (request : AdminRequest) (token : Token) : Decidable (Presents request token) := by
  unfold Presents
  cases request <;> infer_instance

/-- A logout that returns ok is presented with a token that was issued. -/
def LogsOut (settings : Settings) (state : AuthState K) (now : K) (request : AdminRequest)
    (token : Token) : Prop :=
  (handle settings state now request).1 = .loggedOut ∧ token ∈ state.issued ∧
    Presents request token

instance (settings : Settings) (state : AuthState K) (now : K) (request : AdminRequest)
    (token : Token) : Decidable (LogsOut settings state now request token) :=
  inferInstanceAs (Decidable (_ ∧ _ ∧ _))

/-- The times of the logouts of a run that returned ok and were presented with the token. -/
def revocations (settings : Settings) (token : Token) :
    AuthState K → List (K × AdminRequest) → List K
  | _, [] => []
  | state, timed :: rest =>
    (if LogsOut settings state timed.1 timed.2 token then [timed.1] else []) ++
      revocations settings token (handle settings state timed.1 timed.2).2 rest

/-- The whole seconds that the last of these logouts leaves are over. A logout in the last second
of the token leaves none, and changes nothing. -/
def lastCut (token : Token) (times : List K) : Option K :=
  ((times.filter fun u : K => u + 1 ≤ token.exp).getLast?).map fun u =>
    u + ⌊(token.exp : K) - u⌋

/-- The token has not expired, and the whole seconds are over. -/
def InLastFraction (token : Token) (times : List K) (now : K) : Prop :=
  now < token.exp ∧ ∀ cut ∈ lastCut token times, cut ≤ now

/-- The request carries the token to where a token of its type is verified. -/
def Carries : AdminRequest → Token → Prop
  | .guarded credentials, token => token.type = .access ∧ credentials = .token token
  | .wsLogs credential _, token => token.type = .access ∧ credential = .token token
  | .refresh refreshToken _, token => token.type = .refresh ∧ refreshToken = some (.token token)
  | _, _ => False

/-- The checks of the request that are not about its token. -/
def PassesOtherChecks : AdminRequest → Prop
  | .guarded _ => True
  | .wsLogs _ isActive => isActive ≠ some false
  | .refresh _ csrf => csrf.matches = true
  | _ => False

def AdminResponse.isAccepted : AdminResponse → Bool
  | .admin _ | .connected | .accessToken _ => true
  | _ => false

/-- No request of the run that carries a token is accepted after a logout with it. -/
def NeverAcceptedAgain (settings : Settings) (timed : List (K × AdminRequest)) : Prop :=
  ∀ before now request after, timed = before ++ (now, request) :: after →
    ∀ token, revocations settings token {} before ≠ [] → Carries request token →
      (handle settings (serve settings {} before) now request).1.isAccepted = false

/-- No request of the run that carries a token falls, after a logout with it, in the last fraction
of a second of the token. -/
def AvoidsLastFraction (settings : Settings) (timed : List (K × AdminRequest)) : Prop :=
  ∀ before now request after, timed = before ++ (now, request) :: after →
    ∀ token, revocations settings token {} before ≠ [] → Carries request token →
      PassesOtherChecks request →
        ¬ InLastFraction token (revocations settings token {} before) now

end Runs

section States

variable {K : Type} {state : AuthState K} {token : Token}

/-- Every identifier below the number of tokens is that of one token, and no other has a key. -/
structure Sound (state : AuthState K) : Prop where
  jtis : state.issued.map (·.jti) = List.range state.issued.length
  unused : ∀ jti, state.issued.length ≤ jti → state.blacklist jti = none

theorem Sound.jti_lt (h : Sound state) (htoken : token ∈ state.issued) :
    token.jti < state.issued.length := by
  have hmem : token.jti ∈ state.issued.map (·.jti) := List.mem_map_of_mem htoken
  rwa [h.jtis, List.mem_range] at hmem

theorem Sound.jti_inj (h : Sound state) {other : Token} (htoken : token ∈ state.issued)
    (hother : other ∈ state.issued) (hjti : other.jti = token.jti) : other = token := by
  have hnodup : (state.issued.map (·.jti)).Nodup := h.jtis ▸ List.nodup_range
  exact List.inj_on_of_nodup_map hnodup hother htoken hjti

theorem Sound.issue (h : Sound state) (hjti : token.jti = state.issued.length) :
    Sound (state.issue token) := by
  constructor
  · rw [AuthState.issue, List.map_append, h.jtis, List.map_singleton, hjti, List.length_append,
      List.length_singleton, List.range_succ]
  · intro jti hle
    rw [AuthState.issue, List.length_append] at hle
    exact h.unused jti (Nat.le_of_add_right_le hle)

theorem isBlacklisted_eq_true_iff [LinearOrder K] {now : K} {jti : Nat} :
    state.isBlacklisted now jti = true ↔ ∃ expiry ∈ state.blacklist jti, now < expiry := by
  rw [AuthState.isBlacklisted, Option.any_eq_true]
  simp

end States

section Steps

variable {K : Type} [Field K] [LinearOrder K] [IsStrictOrderedRing K] [FloorRing K]
variable {settings : Settings} {state : AuthState K} {now : K} {request : AdminRequest}
variable {token : Token} {credential : Credential} {type : TokenType}

omit [IsStrictOrderedRing K] in
theorem revoke_issued (state : AuthState K) (now : K) (credential : Credential)
    (type : TokenType) : (revoke state now credential type).issued = state.issued := by
  rw [revoke]
  split
  · rfl
  · dsimp only
    split <;> rfl

omit [IsStrictOrderedRing K] in
theorem Sound.revoke (h : Sound state) : Sound (revoke state now credential type) := by
  constructor
  · rw [revoke_issued, h.jtis]
  · intro jti hle
    rw [revoke_issued] at hle
    rw [AdminAuth.revoke]
    split
    · exact h.unused jti hle
    · rename_i payload hdecoded
      have hlt := h.jti_lt (decodeToken_eq_some_iff.mp hdecoded).2.1
      dsimp only
      split
      · rw [AuthState.setBlacklisted]
        dsimp only
        rw [if_neg (by omega), h.unused jti hle]
      · exact h.unused jti hle

/-- A key is set for a token with a whole second left, and only for the token that is presented. -/
theorem revoke_key (h : Sound state) (htoken : token ∈ state.issued) :
    (revoke state now credential type).blacklist token.jti =
      if credential = .token token ∧ token.type = type ∧ now + 1 ≤ token.exp then
        some (now + ⌊(token.exp : K) - now⌋)
      else state.blacklist token.jti := by
  have hwhole : now + 1 ≤ token.exp ↔ 1 ≤ (token.exp : K) - now := by
    rw [le_sub_iff_add_le, add_comm]
  rw [revoke]
  cases hdecoded : decodeToken state now credential type with
  | none =>
    have hnot : ¬ (credential = .token token ∧ token.type = type ∧ now + 1 ≤ token.exp) := by
      rintro ⟨hcredential, htype, hle⟩
      have hlt : now < token.exp := lt_of_lt_of_le (lt_add_one now) hle
      rw [decodeToken_eq_some_iff.mpr ⟨hcredential, htoken, hlt, htype⟩] at hdecoded
      cases hdecoded
    rw [if_neg hnot]
  | some payload =>
    obtain ⟨hcredential, hissued, hlt, htype⟩ := decodeToken_eq_some_iff.mp hdecoded
    dsimp only
    by_cases hsame : payload = token
    · subst hsame
      by_cases hle : now + 1 ≤ payload.exp
      · have hone := hwhole.mp hle
        rw [if_pos (truncate_pos_iff.mpr hone), if_pos ⟨hcredential, htype, hle⟩,
          truncate_of_one_le hone, AuthState.setBlacklisted]
        exact if_pos rfl
      · have hnone := mt hwhole.mpr hle
        rw [if_neg (mt truncate_pos_iff.mp hnone), if_neg (fun hc => hle hc.2.2)]
    · have hnot : ¬ (credential = .token token ∧ token.type = type ∧ now + 1 ≤ token.exp) := by
        rintro ⟨hcredential', -, -⟩
        exact hsame (Credential.token.inj (hcredential.symm.trans hcredential'))
      have hjti : token.jti ≠ payload.jti := fun hjti => hsame (h.jti_inj htoken hissued hjti.symm)
      rw [if_neg hnot]
      split
      · rw [AuthState.setBlacklisted]
        exact if_neg hjti
      · rfl

def revokeOption (state : AuthState K) (now : K) (credential : Option Credential)
    (type : TokenType) : AuthState K :=
  credential.elim state fun credential => revoke state now credential type

def afterLogout (state : AuthState K) (now : K) (refreshToken credentials : Option Credential) :
    AuthState K :=
  revokeOption (revokeOption state now credentials .access) now (presentCookie refreshToken)
    .refresh

/-- What a request can do: nothing, sign one token or two, or revoke what a logout presents. -/
inductive Handled (state : AuthState K) (now : K) (request : AdminRequest) :
    AdminResponse × AuthState K → Prop
  | kept {response : AdminResponse} (hresponse : response ≠ .loggedOut) :
    Handled state now request (response, state)
  | signed {response : AdminResponse} {token : Token} (hresponse : response ≠ .loggedOut)
    (hjti : token.jti = state.issued.length) :
    Handled state now request (response, state.issue token)
  | signedTwo {response : AdminResponse} {token token' : Token}
    (hresponse : response ≠ .loggedOut) (hjti : token.jti = state.issued.length)
    (hjti' : token'.jti = (state.issue token).issued.length) :
    Handled state now request (response, (state.issue token).issue token')
  | loggedOut {refreshToken : Option Credential} {csrf : Csrf} {credentials : Option Credential}
    (hrequest : request = .logout refreshToken csrf credentials) :
    Handled state now request (.loggedOut, afterLogout state now refreshToken credentials)

omit [IsStrictOrderedRing K] in
theorem handled (settings : Settings) (state : AuthState K) (now : K) (request : AdminRequest) :
    Handled state now request (handle settings state now request) := by
  cases request with
  | login username blocked valid =>
    rw [handle, login]
    split
    · exact .kept (by simp)
    · split
      · exact .signed (by simp) rfl
      · exact .kept (by simp)
  | verifyTotp sessionToken blocked active codeMatches =>
    rw [handle, verifyTotp]
    split
    · exact .kept (by simp)
    · split
      · exact .kept (by simp)
      · split
        · exact .signedTwo (by simp) rfl rfl
        · exact .kept (by simp)
  | refresh refreshToken csrf =>
    rw [handle, refreshAccessToken.eq_def]
    split
    · split
      · exact .kept (by simp)
      · split
        · exact .kept (by simp)
        · split
          · exact .kept (by simp)
          · exact .signed (by simp) rfl
    · exact .kept (by simp)
  | logout refreshToken csrf credentials =>
    rw [handle, logout]
    split
    · exact .kept (by simp)
    · exact .loggedOut rfl
  | guarded credentials =>
    rw [handle, getCurrentAdmin]
    split
    · exact .kept (by simp)
    · split <;> exact .kept (by simp)
  | wsLogs credential isActive =>
    rw [handle, validateWsAccess]
    split
    · exact .kept (by simp)
    · split
      · exact .kept (by simp)
      · split <;> exact .kept (by simp)

theorem presentCookie_eq_some_iff {refreshToken : Option Credential} :
    presentCookie refreshToken = some (.token token) ↔ refreshToken = some (.token token) := by
  rw [presentCookie, Option.filter_eq_some_iff]
  simp

omit [IsStrictOrderedRing K] in
theorem revokeOption_issued (state : AuthState K) (now : K) (credential : Option Credential)
    (type : TokenType) : (revokeOption state now credential type).issued = state.issued := by
  cases credential with
  | none => rfl
  | some credential => exact revoke_issued state now credential type

omit [IsStrictOrderedRing K] in
theorem Sound.revokeOption (h : Sound state) {credential : Option Credential} :
    Sound (revokeOption state now credential type) := by
  cases credential with
  | none => exact h
  | some credential => exact h.revoke

theorem revokeOption_key (h : Sound state) (htoken : token ∈ state.issued)
    {credential : Option Credential} :
    (revokeOption state now credential type).blacklist token.jti =
      if credential = some (.token token) ∧ token.type = type ∧ now + 1 ≤ token.exp then
        some (now + ⌊(token.exp : K) - now⌋)
      else state.blacklist token.jti := by
  cases credential with
  | none =>
    rw [if_neg (by simp)]
    rfl
  | some credential => simp only [revokeOption, Option.elim_some, revoke_key h htoken,
      Option.some.injEq]

omit [IsStrictOrderedRing K] in
theorem afterLogout_issued (state : AuthState K) (now : K)
    (refreshToken credentials : Option Credential) :
    (afterLogout state now refreshToken credentials).issued = state.issued := by
  rw [afterLogout, revokeOption_issued, revokeOption_issued]

/-- A logout sets the keys of the tokens that it is presented with, and no others. -/
theorem afterLogout_key (h : Sound state) (htoken : token ∈ state.issued)
    {refreshToken credentials : Option Credential} {csrf : Csrf} :
    (afterLogout state now refreshToken credentials).blacklist token.jti =
      if Presents (.logout refreshToken csrf credentials) token ∧ now + 1 ≤ token.exp then
        some (now + ⌊(token.exp : K) - now⌋)
      else state.blacklist token.jti := by
  have hmem : token ∈ (revokeOption state now credentials .access).issued := by
    rwa [revokeOption_issued]
  rw [afterLogout, revokeOption_key h.revokeOption hmem, revokeOption_key h htoken]
  simp only [presentCookie_eq_some_iff, Presents]
  by_cases hleft : now + 1 ≤ token.exp
  · by_cases haccess : token.type = .access
    · simp [hleft, haccess]
    · simp [hleft, haccess, and_comm]
  · simp [hleft]

omit [IsStrictOrderedRing K] in
theorem Sound.handle (h : Sound state) (settings : Settings) (now : K) (request : AdminRequest) :
    Sound (handle settings state now request).2 := by
  have hhandled := handled settings state now request
  generalize AdminAuth.handle settings state now request = outcome at hhandled ⊢
  cases hhandled with
  | kept _ => exact h
  | signed _ hjti => exact h.issue hjti
  | signedTwo _ hjti hjti' => exact (h.issue hjti).issue hjti'
  | loggedOut _ => exact h.revokeOption.revokeOption

omit [IsStrictOrderedRing K] in
theorem handle_issued (settings : Settings) (state : AuthState K) (now : K)
    (request : AdminRequest) : state.issued ⊆ (handle settings state now request).2.issued := by
  have hhandled := handled settings state now request
  generalize handle settings state now request = outcome at hhandled ⊢
  cases hhandled with
  | kept _ => exact List.Subset.refl _
  | signed _ _ => exact List.subset_append_left _ _
  | signedTwo _ _ _ =>
    exact List.Subset.trans (List.subset_append_left _ _) (List.subset_append_left _ _)
  | loggedOut _ =>
    dsimp only
    rw [afterLogout_issued]
    exact List.Subset.refl _

/-- The key of a token that was issued before changes with a logout that presents the token and
leaves a whole second. -/
theorem handle_key (h : Sound state) (htoken : token ∈ state.issued) :
    (handle settings state now request).2.blacklist token.jti =
      if LogsOut settings state now request token ∧ now + 1 ≤ token.exp then
        some (now + ⌊(token.exp : K) - now⌋)
      else state.blacklist token.jti := by
  have hhandled := handled settings state now request
  have hlogsOut : LogsOut settings state now request token ↔
    (handle settings state now request).1 = .loggedOut ∧ Presents request token :=
    and_congr_right fun _ => and_iff_right htoken
  simp only [hlogsOut]
  generalize handle settings state now request = outcome at hhandled ⊢
  cases hhandled with
  | kept hresponse => rw [if_neg (fun hc => hresponse hc.1.1)]
  | signed hresponse _ =>
    rw [if_neg (fun hc => hresponse hc.1.1)]
    rfl
  | signedTwo hresponse _ _ =>
    rw [if_neg (fun hc => hresponse hc.1.1)]
    rfl
  | loggedOut hrequest =>
    subst hrequest
    simp only [true_and]
    exact afterLogout_key h htoken

omit [IsStrictOrderedRing K] in
theorem handle_signed (h : Sound state)
    (htoken : token ∈ (handle settings state now request).2.issued)
    (hnew : token ∉ state.issued) :
    (handle settings state now request).2.blacklist token.jti = none := by
  have hhandled := handled settings state now request
  generalize handle settings state now request = outcome at hhandled htoken ⊢
  cases hhandled with
  | kept _ => exact absurd htoken hnew
  | signed _ hjti =>
    obtain hmem | hlast := List.mem_append.mp htoken
    · exact absurd hmem hnew
    · rw [List.mem_singleton.mp hlast]
      exact h.unused _ hjti.ge
  | signedTwo _ hjti hjti' =>
    obtain hmem | hlast := List.mem_append.mp htoken
    · obtain hmem | hfirst := List.mem_append.mp hmem
      · exact absurd hmem hnew
      · rw [List.mem_singleton.mp hfirst]
        exact h.unused _ hjti.ge
    · rw [List.mem_singleton.mp hlast]
      exact (h.issue hjti).unused _ hjti'.ge
  | loggedOut _ =>
    dsimp only at htoken
    rw [afterLogout_issued] at htoken
    exact absurd htoken hnew

end Steps

section Traces

variable {K : Type} [Field K] [LinearOrder K] [IsStrictOrderedRing K] [FloorRing K]
variable {settings : Settings} {state : AuthState K} {now : K} {request : AdminRequest}
variable {token : Token} {run : List (K × AdminRequest)}

omit [IsStrictOrderedRing K] in
theorem serve_concat (settings : Settings) (run : List (K × AdminRequest)) (now : K)
    (request : AdminRequest) : serve settings {} (run ++ [(now, request)]) =
      (handle settings (serve settings {} run) now request).2 :=
  Runs.run_append _ run [(now, request)]

omit [IsStrictOrderedRing K] in
theorem revocations_append (settings : Settings) (token : Token) (state : AuthState K)
    (before rest : List (K × AdminRequest)) :
    revocations settings token state (before ++ rest) = revocations settings token state before ++
      revocations settings token (serve settings state before) rest := by
  induction before generalizing state with
  | nil => rfl
  | cons timed before ih =>
    rw [List.cons_append, revocations, ih, revocations, List.append_assoc]
    rfl

omit [IsStrictOrderedRing K] in
theorem revocations_concat (settings : Settings) (token : Token)
    (run : List (K × AdminRequest)) (now : K) (request : AdminRequest) :
    revocations settings token {} (run ++ [(now, request)]) = revocations settings token {} run ++
      if LogsOut settings (serve settings {} run) now request token then [now] else [] := by
  rw [revocations_append, revocations, revocations, List.append_nil]

omit [IsStrictOrderedRing K] in
theorem lastCut_concat (token : Token) (times : List K) (now : K) :
    lastCut token (times ++ [now]) =
      if now + 1 ≤ token.exp then some (now + ⌊(token.exp : K) - now⌋)
      else lastCut token times := by
  rw [lastCut, List.filter_append]
  by_cases hleft : now + 1 ≤ token.exp
  · rw [if_pos hleft, List.filter_singleton]
    simp [hleft]
  · rw [if_neg hleft, List.filter_singleton]
    simp [hleft, lastCut]

/-- The key of every token is held until the last cut of the logouts it was presented to. -/
structure Tracks (settings : Settings) (run : List (K × AdminRequest)) : Prop where
  sound : Sound (serve settings {} run)
  presented : ∀ token, revocations settings token {} run ≠ [] →
    token ∈ (serve settings {} run).issued
  key : ∀ token ∈ (serve settings {} run).issued, (serve settings {} run).blacklist token.jti =
    lastCut token (revocations settings token {} run)

theorem tracks (settings : Settings) (run : List (K × AdminRequest)) : Tracks settings run := by
  induction run using List.reverseRecOn with
  | nil => exact ⟨⟨rfl, fun _ _ => rfl⟩, fun _ h => absurd rfl h, fun _ h => by cases h⟩
  | append_singleton run timed ih =>
    obtain ⟨now, request⟩ := timed
    have hsubset := handle_issued settings (serve settings {} run) now request
    refine ⟨?_, ?_, ?_⟩
    · rw [serve_concat]
      exact ih.sound.handle settings now request
    · intro token hrevoked
      rw [serve_concat]
      apply hsubset
      rw [revocations_concat] at hrevoked
      by_cases hlogsOut : LogsOut settings (serve settings {} run) now request token
      · exact hlogsOut.2.1
      · rw [if_neg hlogsOut, List.append_nil] at hrevoked
        exact ih.presented token hrevoked
    · intro token htoken
      rw [serve_concat] at htoken ⊢
      rw [revocations_concat]
      by_cases hold : token ∈ (serve settings {} run).issued
      · rw [handle_key ih.sound hold, ih.key token hold]
        by_cases hlogsOut : LogsOut settings (serve settings {} run) now request token
        · rw [if_pos hlogsOut, lastCut_concat]
          simp only [hlogsOut, true_and]
        · rw [if_neg hlogsOut, if_neg (fun hc => hlogsOut hc.1), List.append_nil]
      · have hnever : revocations settings token {} run = [] := by
          by_contra hne
          exact hold (ih.presented token hne)
        have hnot : ¬ LogsOut settings (serve settings {} run) now request token :=
          fun hlogsOut => hold hlogsOut.2.1
        rw [handle_signed ih.sound htoken hold, hnever, if_neg hnot]
        rfl

omit [IsStrictOrderedRing K] [FloorRing K] in
theorem decodeToken_issued (now : K) (htoken : token ∈ state.issued) :
    decodeToken state now (.token token) token.type =
      if now < token.exp then some token else none := by
  rw [decodeToken]
  simp [htoken]

omit [IsStrictOrderedRing K] in
/-- A request with a token is accepted when the token has not expired, has no key, and the other
checks pass. -/
theorem isAccepted_iff (htoken : token ∈ state.issued) (hcarries : Carries request token) :
    (handle settings state now request).1.isAccepted = true ↔
      now < token.exp ∧ state.isBlacklisted now token.jti = false ∧
        PassesOtherChecks request := by
  have hdecoded := decodeToken_issued now htoken
  cases request with
  | guarded credentials =>
    obtain ⟨htype, rfl⟩ := hcarries
    rw [htype] at hdecoded
    rw [handle, getCurrentAdmin, hdecoded, PassesOtherChecks]
    by_cases hlt : now < token.exp
    · cases hkey : state.isBlacklisted now token.jti <;>
        simp [hlt, hkey, AdminResponse.isAccepted]
    · simp [hlt, AdminResponse.isAccepted]
  | wsLogs credential isActive =>
    obtain ⟨htype, rfl⟩ := hcarries
    rw [htype] at hdecoded
    rw [handle, validateWsAccess, hdecoded, PassesOtherChecks]
    by_cases hlt : now < token.exp
    · by_cases hactive : isActive = some false <;>
        cases hkey : state.isBlacklisted now token.jti <;>
        simp [hlt, hkey, hactive, AdminResponse.isAccepted]
    · simp [hlt, AdminResponse.isAccepted]
  | refresh refreshToken csrf =>
    obtain ⟨htype, rfl⟩ := hcarries
    rw [htype] at hdecoded
    rw [handle, refreshAccessToken.eq_def, PassesOtherChecks]
    dsimp only
    rw [hdecoded]
    by_cases hlt : now < token.exp
    · cases hcsrf : csrf.matches <;> cases hkey : state.isBlacklisted now token.jti <;>
        simp [hlt, hkey, AdminResponse.isAccepted]
    · cases hcsrf : csrf.matches <;> simp [hlt, AdminResponse.isAccepted]
  | login _ _ _ => cases hcarries
  | verifyTotp _ _ _ _ => cases hcarries
  | logout _ _ _ => cases hcarries

omit [IsStrictOrderedRing K] in
/-- The key is there for the whole seconds, so what is left is the last fraction. -/
theorem inLastFraction_iff (h : Tracks settings run)
    (htoken : token ∈ (serve settings {} run).issued) :
    now < token.exp ∧ (serve settings {} run).isBlacklisted now token.jti = false ↔
      InLastFraction token (revocations settings token {} run) now := by
  apply and_congr_right
  intro _
  rw [← Bool.not_eq_true, isBlacklisted_eq_true_iff, h.key token htoken]
  simp only [not_exists, not_and, not_lt]

/-- After a logout with a token it is accepted exactly in its last fraction of a second, by a
request that passes its other checks. -/
theorem isAccepted_revoked_iff (hrevoked : revocations settings token {} run ≠ [])
    (hcarries : Carries request token) :
    (handle settings (serve settings {} run) now request).1.isAccepted = true ↔
      PassesOtherChecks request ∧
        InLastFraction token (revocations settings token {} run) now := by
  have htracks := tracks settings run
  have htoken := htracks.presented token hrevoked
  rw [isAccepted_iff htoken hcarries, ← and_assoc, inLastFraction_iff htracks htoken, and_comm]

omit [IsStrictOrderedRing K] in
theorem mem_revocations {u : K} (hu : u ∈ revocations settings token state run) :
    ∃ request, (u, request) ∈ run ∧ Presents request token := by
  induction run generalizing state with
  | nil => cases hu
  | cons timed rest ih =>
    rw [revocations, List.mem_append] at hu
    obtain hhere | hlater := hu
    · by_cases hlogsOut : LogsOut settings state timed.1 timed.2 token
      · rw [if_pos hlogsOut, List.mem_singleton] at hhere
        exact ⟨timed.2, hhere ▸ List.mem_cons_self, hlogsOut.2.2⟩
      · rw [if_neg hlogsOut] at hhere
        cases hhere
    · obtain ⟨request, hmem, hpresents⟩ := ih hlater
      exact ⟨request, List.mem_cons_of_mem _ hmem, hpresents⟩

theorem not_inLastFraction {times : List K} (hne : times ≠ [])
    (hwhole : ∀ u ∈ times, ∃ second : ℤ, u = second) (hpast : ∀ u ∈ times, u ≤ now) :
    ¬ InLastFraction token times now := by
  rintro ⟨hlt, hcut⟩
  cases hlast : (times.filter fun u : K => u + 1 ≤ token.exp).getLast? with
  | none =>
    obtain ⟨u, hu⟩ := List.exists_mem_of_ne_nil times hne
    obtain ⟨second, rfl⟩ := hwhole u hu
    have hnone := List.filter_eq_nil_iff.mp (List.getLast?_eq_none_iff.mp hlast) _ hu
    have hlate : ¬ second + 1 ≤ token.exp := by
      intro hle
      apply hnone
      rw [decide_eq_true_eq]
      exact_mod_cast hle
    have hle : (token.exp : K) ≤ second := by exact_mod_cast (by omega : token.exp ≤ second)
    exact absurd hlt (not_lt.mpr (hle.trans (hpast _ hu)))
  | some u =>
    have hu := List.mem_of_mem_filter (List.mem_of_mem_getLast? hlast)
    obtain ⟨second, rfl⟩ := hwhole u hu
    have hfloor : (second : K) + ⌊(token.exp : K) - second⌋ = token.exp := by
      rw [← Int.cast_sub, Int.floor_intCast, Int.cast_sub, add_sub_cancel]
    have hle := hcut token.exp (by rw [lastCut, hlast, Option.map_some, hfloor]; rfl)
    exact absurd hlt (not_lt.mpr hle)

/-- In a run in time order whose logouts come at whole seconds no token is accepted again. -/
theorem avoidsLastFraction_of_wholeSeconds {timed : List (K × AdminRequest)}
    (hordered : timed.Pairwise fun first second => first.1 ≤ second.1)
    (hwhole : ∀ now request token, (now, request) ∈ timed → Presents request token →
      ∃ second : ℤ, now = second) : AvoidsLastFraction settings timed := by
  rintro before now request after rfl token hrevoked - -
  apply not_inLastFraction hrevoked
  · intro u hu
    obtain ⟨logout, hmem, hpresents⟩ := mem_revocations hu
    exact hwhole u logout token (List.mem_append_left _ hmem) hpresents
  · intro u hu
    obtain ⟨logout, hmem, -⟩ := mem_revocations hu
    exact (List.pairwise_append.mp hordered).2.2 _ hmem _ List.mem_cons_self

def pendingToken : Token := ⟨0, .totpPending, "admin", 300⟩

def accessToken : Token := ⟨2, .access, "admin", 1801⟩

/-- A login, a logout half a second later, and a request in the last quarter of a second. -/
def halfSecondRun : List (ℚ × AdminRequest) :=
  [(0, .login "admin" false true), (1, .verifyTotp (.token pendingToken) false true true),
    (3 / 2, .logout none {} (some (.token accessToken))),
    (7203 / 4, .guarded (.token accessToken))]

/-- A logout revokes for good exactly in the runs that keep out of the last fractions. -/
theorem neverAcceptedAgain_iff (settings : Settings) (timed : List (K × AdminRequest)) :
    NeverAcceptedAgain settings timed ↔ AvoidsLastFraction settings timed := by
  constructor
  · intro hnever before now request after htimed token hrevoked hcarries hpasses hfraction
    have haccepted := (isAccepted_revoked_iff hrevoked hcarries).mpr ⟨hpasses, hfraction⟩
    rw [hnever before now request after htimed token hrevoked hcarries] at haccepted
    cases haccepted
  · intro havoids before now request after htimed token hrevoked hcarries
    by_contra haccepted
    rw [Bool.not_eq_false] at haccepted
    obtain ⟨hpasses, hfraction⟩ := (isAccepted_revoked_iff hrevoked hcarries).mp haccepted
    exact havoids before now request after htimed token hrevoked hcarries hpasses hfraction

theorem neverAcceptedAgain_iff_halfSecond :
    NeverAcceptedAgain {} halfSecondRun ↔ AvoidsLastFraction {} halfSecondRun :=
  neverAcceptedAgain_iff {} halfSecondRun

/-- The key is set for 1799 seconds, until 1800.5, and the token is accepted at 1800.75. -/
theorem halfSecondRun_acceptedAgain : ¬ NeverAcceptedAgain {} halfSecondRun := by
  intro hnever
  have hrevoked : revocations {} accessToken {} (halfSecondRun.take 3) ≠ [] := by decide +kernel
  have hrejected := hnever (halfSecondRun.take 3) _ _ [] rfl accessToken hrevoked ⟨rfl, rfl⟩
  have haccepted : (handle {} (serve {} {} (halfSecondRun.take 3)) (7203 / 4)
    (.guarded (.token accessToken))).1.isAccepted = true := by decide +kernel
  rw [hrejected] at haccepted
  cases haccepted

end Traces

end AmaExecutionCore.AdminAuth
