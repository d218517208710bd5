import AmaExecutionCore.TotpThrottle

/-! Every session of the admin API stems from a password and a code of one administrator, with a
token in its lifetime between them, whatever the requests do between their awaits. -/
namespace AmaExecutionCore.AdminAuth

section Records

variable {K : Type} [Field K] [LinearOrder K]

/-- The two steps of a login as the history has them. -/
structure LoginRecord (K : Type) where
  first : AdminUser
  password : String
  firstAt : K
  pending : Token
  pendingAt : K
  decodedAt : K
  second : AdminUser
  code : String
  secondAt : K

/-- A record of which only the password is known. -/
def LoginRecord.begun (row : AdminUser) (password : String) (time : K) : LoginRecord K where
  first := row
  password := password
  firstAt := time
  pending := ⟨0, .totpPending, row.username, 0⟩
  pendingAt := time
  decodedAt := time
  second := row
  code := ""
  secondAt := time

/-- The password matched a row of an active administrator. -/
structure PasswordMatched (checks : AuthChecks K) (listed : AdminUser → Prop)
    (history : List (Attempt K)) (record : LoginRecord K) : Prop where
  accepted : .passwordAccepted record.first record.password record.firstAt ∈ history
  ofTable : listed record.first
  active : record.first.isActive = true
  matched : checks.verifyPassword record.password record.first.passwordHash = true

/-- A token was signed after that for the one whom the row names, for five minutes. -/
structure FirstFactor (checks : AuthChecks K) (listed : AdminUser → Prop)
    (history : List (Attempt K)) (record : LoginRecord K) : Prop where
  password : PasswordMatched checks listed history record
  signed : .pendingIssued record.pending record.pendingAt ∈ history
  named : record.pending.sub = record.first.username
  ordered : record.firstAt ≤ record.pendingAt
  lifetime : (record.pending.exp : K) ≤ record.pendingAt + ((5 * 60 : ℤ) : K)

/-- The token was decoded before it expired. -/
structure TokenDecoded (history : List (Attempt K)) (record : LoginRecord K) : Prop where
  decoded : .tokenDecoded record.pending record.decodedAt ∈ history
  ordered : record.pendingAt ≤ record.decodedAt
  alive : record.decodedAt < record.pending.exp

/-- After that the code matched a row of the active administrator whom the token names. -/
structure SecondFactor (checks : AuthChecks K) (listed : AdminUser → Prop)
    (history : List (Attempt K)) (record : LoginRecord K) : Prop where
  token : TokenDecoded history record
  accepted : .codeAccepted record.second record.code record.secondAt ∈ history
  ofTable : listed record.second
  active : record.second.isActive = true
  matched : checks.verifyTotp record.second.totpSecret record.code record.secondAt = true
  named : record.second.username = record.pending.sub
  ordered : record.decodedAt ≤ record.secondAt

/-- Both steps are behind a token, for the one whom it names, and the audit log has the login. -/
structure LoginRecord.Earns (record : LoginRecord K) (checks : AuthChecks K)
    (listed : AdminUser → Prop) (w : AuthWorld K) (token : Token) : Prop where
  first : FirstFactor checks listed w.history record
  second : SecondFactor checks listed w.history record
  named : token.sub = record.pending.sub
  audited : ∃ log ∈ w.auditLog, log.adminId = record.second.id ∧ log.action = "login_success"

/-- The row was in the table at the start or was put there in the run. -/
def Listed (rows : List AdminUser) (acts : List (LoginAct K)) (row : AdminUser) : Prop :=
  row ∈ rows ∨ ∃ later, .event (.setAdminUsers later) ∈ acts ∧ row ∈ later

end Records

section Invariant

variable {K : Type} [Field K] [LinearOrder K]

/-- Time went by, and nothing that happened is forgotten. -/
structure Later (w w' : AuthWorld K) : Prop where
  now : w.now ≤ w'.now
  history : ∀ attempt ∈ w.history, attempt ∈ w'.history
  auditLog : ∀ log ∈ w.auditLog, log ∈ w'.auditLog

/-- What the store says of the logins so far. -/
structure Vouched (checks : AuthChecks K) (listed : AdminUser → Prop) (w : AuthWorld K) : Prop where
  rows : ∀ row ∈ w.adminUsers, listed row
  pending : ∀ token ∈ w.auth.issued, token.type = .totpPending →
    ∃ record : LoginRecord K, record.pending = token ∧ record.pendingAt ≤ w.now ∧
      FirstFactor checks listed w.history record
  sessions : ∀ token ∈ w.auth.issued, token.type ≠ .totpPending →
    ∃ record : LoginRecord K, record.Earns checks listed w token

/-- What a session knows at its stage. -/
def Knows (checks : AuthChecks K) (listed : AdminUser → Prop) (w : AuthWorld K)
    (c : AdminSession) : Prop :=
  match c.call with
  | .login _ (.resetFailures row) | .login _ (.createToken row) =>
    ∃ record, record.first = row ∧ record.firstAt ≤ w.now ∧
      PasswordMatched checks listed w.history record
  | .verifyTotp _ (.verify pending) =>
    ∃ record, record.pending = pending ∧ record.decodedAt ≤ w.now ∧
      FirstFactor checks listed w.history record ∧ TokenDecoded w.history record
  | .verifyTotp _ (.appendSuccess row pending) =>
    ∃ record, record.pending = pending ∧ record.second = row ∧
      FirstFactor checks listed w.history record ∧ SecondFactor checks listed w.history record
  | _ => True

variable {checks : AuthChecks K} {listed : AdminUser → Prop} {w w' w'' : AuthWorld K}
variable {record : LoginRecord K} {c : AdminSession}

namespace Later

omit [Field K] in
theorem refl (w : AuthWorld K) : Later w w := ⟨le_refl _, fun _ h => h, fun _ h => h⟩

omit [Field K] in
theorem trans (h : Later w w') (h' : Later w' w'') : Later w w'' where
  now := h.now.trans h'.now
  history := fun attempt hmem => h'.history attempt (h.history attempt hmem)
  auditLog := fun log hmem => h'.auditLog log (h.auditLog log hmem)

omit [Field K] in
theorem happens (attempt : Attempt K) : Later w (w.happens attempt) :=
  { refl w with history := fun _ hmem => List.mem_append_left _ hmem }

omit [Field K] in
theorem appendAudit (row : AdminUser) (action : String) : Later w (w.appendAudit row action c) :=
  { refl w with auditLog := fun _ hmem => List.mem_append_left _ hmem }

omit [Field K] in
theorem issue (token : Token) : Later w (w.issue token) := { refl w with }

variable (h : Later w w')

include h

omit [Field K] in
theorem passwordMatched (hrecord : PasswordMatched checks listed w.history record) :
    PasswordMatched checks listed w'.history record :=
  { hrecord with accepted := h.history _ hrecord.accepted }

theorem firstFactor (hrecord : FirstFactor checks listed w.history record) :
    FirstFactor checks listed w'.history record :=
  { hrecord with
    password := h.passwordMatched hrecord.password
    signed := h.history _ hrecord.signed }

theorem tokenDecoded (hrecord : TokenDecoded w.history record) :
    TokenDecoded w'.history record :=
  { hrecord with decoded := h.history _ hrecord.decoded }

theorem secondFactor (hrecord : SecondFactor checks listed w.history record) :
    SecondFactor checks listed w'.history record :=
  { hrecord with
    token := h.tokenDecoded hrecord.token
    accepted := h.history _ hrecord.accepted }

theorem earns {token : Token} (hrecord : record.Earns checks listed w token) :
    record.Earns checks listed w' token where
  first := h.firstFactor hrecord.first
  second := h.secondFactor hrecord.second
  named := hrecord.named
  audited := by
    obtain ⟨log, hmem, haction⟩ := hrecord.audited
    exact ⟨log, h.auditLog log hmem, haction⟩

theorem knows (hknows : Knows checks listed w c) : Knows checks listed w' c := by
  rw [Knows.eq_def] at *
  split at hknows
  · obtain ⟨record, his, hpast, hmatched⟩ := hknows
    exact ⟨record, his, hpast.trans h.now, h.passwordMatched hmatched⟩
  · obtain ⟨record, his, hpast, hmatched⟩ := hknows
    exact ⟨record, his, hpast.trans h.now, h.passwordMatched hmatched⟩
  · obtain ⟨record, his, hpast, hfirst, hdecoded⟩ := hknows
    exact ⟨record, his, hpast.trans h.now, h.firstFactor hfirst, h.tokenDecoded hdecoded⟩
  · obtain ⟨record, his, hrow, hfirst, hsecond⟩ := hknows
    exact ⟨record, his, hrow, h.firstFactor hfirst, h.secondFactor hsecond⟩
  · trivial

theorem vouched (hw : Vouched checks listed w) (hrows : ∀ row ∈ w'.adminUsers, listed row)
    (hissued : ∀ token ∈ w'.auth.issued, token ∈ w.auth.issued) : Vouched checks listed w' where
  rows := hrows
  pending := by
    intro token htoken htype
    obtain ⟨record, his, hpast, hfirst⟩ := hw.pending token (hissued token htoken) htype
    exact ⟨record, his, hpast.trans h.now, h.firstFactor hfirst⟩
  sessions := by
    intro token htoken htype
    obtain ⟨record, hearns⟩ := hw.sessions token (hissued token htoken) htype
    exact ⟨record, h.earns hearns⟩

end Later

theorem Vouched.kept (hw : Vouched checks listed w) (hlater : Later w w')
    (hrows : w'.adminUsers = w.adminUsers) (hauth : w'.auth = w.auth) : Vouched checks listed w' :=
  hlater.vouched hw (hrows ▸ hw.rows) (hauth ▸ fun _ hmem => hmem)

theorem FirstFactor.withCode {history : List (Attempt K)}
    (h : FirstFactor checks listed history record) (decodedAt secondAt : K) (second : AdminUser)
    (code : String) : FirstFactor checks listed history
      { record with decodedAt := decodedAt, second := second, code := code, secondAt := secondAt } where
  password := ⟨h.password.accepted, h.password.ofTable, h.password.active, h.password.matched⟩
  signed := h.signed
  named := h.named
  ordered := h.ordered
  lifetime := h.lifetime

section Steps

variable [FloorRing K]

omit [Field K] [LinearOrder K] [FloorRing K] in
theorem findUser_eq_some {username : String} {row : AdminUser}
    (h : w.findUser username = some row) : row ∈ w.adminUsers ∧ row.username = username :=
  ⟨List.mem_of_find?_eq_some h, by simpa using List.find?_some h⟩

/-- What a step of a session keeps: what happened before, what the store says, and what the session
knows then. -/
structure Carried (checks : AuthChecks K) (listed : AdminUser → Prop) (w w' : AuthWorld K)
    (c' : AdminSession) : Prop where
  later : Later w w'
  store : Vouched checks listed w'
  session : Knows checks listed w' c'

omit [FloorRing K] in
/-- The token that is signed after a password matched is for the row that it matched. -/
theorem Vouched.createToken (hw : Vouched checks listed w) (hpast : record.firstAt ≤ w.now)
    (hmatched : PasswordMatched checks listed w.history record) {token : Token}
    (hsub : token.sub = record.first.username) (htype : token.type = .totpPending)
    (hexp : (token.exp : K) ≤ w.now + ((5 * 60 : ℤ) : K)) :
    Vouched checks listed ((w.issue token).happens (.pendingIssued token w.now)) := by
  have hlater : Later w ((w.issue token).happens (.pendingIssued token w.now)) :=
    { Later.happens _ with now := le_refl _ }
  refine ⟨hw.rows, ?_, ?_⟩
  · intro other hother hpending
    rcases List.mem_append.mp hother with hold | hnew
    · obtain ⟨record, his, hpast, hfirst⟩ := hw.pending other hold hpending
      exact ⟨record, his, hpast, hlater.firstFactor hfirst⟩
    · obtain rfl := List.mem_singleton.mp hnew
      refine ⟨{ record with pending := other, pendingAt := w.now }, rfl, le_refl _, ?_⟩
      have hpassword := hlater.passwordMatched hmatched
      exact {
        password := ⟨hpassword.accepted, hpassword.ofTable, hpassword.active, hpassword.matched⟩
        signed := List.mem_append_right _ List.mem_cons_self
        named := hsub
        ordered := hpast
        lifetime := hexp }
  · intro other hother hsession
    rcases List.mem_append.mp hother with hold | hnew
    · obtain ⟨record, hearns⟩ := hw.sessions other hold hsession
      exact ⟨record, hlater.earns hearns⟩
    · obtain rfl := List.mem_singleton.mp hnew
      exact absurd htype hsession

theorem Vouched.login (hw : Vouched checks listed w) {payload : LoginRequest} {stage : LoginStage}
    (hknows : Knows checks listed w { c with call := .login payload stage }) :
    Carried checks listed w (loginNext checks payload c w stage).1
      { c with call := .login payload (loginNext checks payload c w stage).2 } := by
  cases stage with
  | isBlocked =>
    rw [loginNext]
    split <;> exact ⟨.refl w, hw, trivial⟩
  | authenticate =>
    rw [loginNext, authenticate]
    split
    · rename_i row hrow
      obtain ⟨hfound, hvalid⟩ := Option.filter_eq_some_iff.mp hrow
      rw [Bool.and_eq_true] at hvalid
      have hlater := Later.happens (w := w) (.passwordAccepted row payload.password w.now)
      refine ⟨hlater, hw.kept hlater rfl rfl, .begun row payload.password w.now, rfl, le_refl _, ?_⟩
      exact ⟨List.mem_append_right _ List.mem_cons_self, hw.rows row (findUser_eq_some hfound).1,
        hvalid.1, hvalid.2⟩
    · exact ⟨.happens _, hw.kept (.happens _) rfl rfl, trivial⟩
  | incr row =>
    rw [loginNext]
    have hlater : Later w ({ w with redis := w.redis.incr w.now (.failures c.ip) }.happens
        (.failureCounted c.ip w.now)) := { Later.happens _ with now := le_refl _ }
    refine ⟨hlater, hw.kept hlater rfl rfl, ?_⟩
    dsimp only
    split
    · trivial
    · rw [LoginStage.afterCount]
      split <;> trivial
  | expire row => exact ⟨{ Later.refl w with }, hw.kept { Later.refl w with } rfl rfl, trivial⟩
  | setex row => exact ⟨{ Later.refl w with }, hw.kept { Later.refl w with } rfl rfl, trivial⟩
  | appendAudit row =>
    cases row with
    | none => exact ⟨.refl w, hw, trivial⟩
    | some row => exact ⟨.appendAudit row _, hw.kept (.appendAudit row _) rfl rfl, trivial⟩
  | resetFailures row =>
    rw [loginNext]
    have hlater : Later w ({ w with redis := w.redis.delete (.failures c.ip) }.happens
        (.failuresReset c.ip w.now)) := { Later.happens _ with now := le_refl _ }
    obtain ⟨record, his, hpast, hmatched⟩ := hknows
    exact ⟨hlater, hw.kept hlater rfl rfl, record, his, hpast, hlater.passwordMatched hmatched⟩
  | createToken row =>
    obtain ⟨record, rfl, hpast, hmatched⟩ := hknows
    have hlater (token : Token) : Later w ((w.issue token).happens (.pendingIssued token w.now)) :=
      { Later.happens _ with now := le_refl _ }
    exact ⟨hlater _, hw.createToken hpast hmatched rfl rfl (makeToken_exp_le _ _ _ _ _), trivial⟩
  | finished response => exact ⟨.refl w, hw, trivial⟩

omit [FloorRing K] in
/-- A token of a session is signed for the one whom a record names. -/
theorem Vouched.issue (hw : Vouched checks listed w) {token : Token}
    (htype : token.type ≠ .totpPending) (hearns : record.Earns checks listed w token) :
    Vouched checks listed (w.issue token) := by
  have hlater : Later w (w.issue token) := .issue token
  refine ⟨hw.rows, ?_, ?_⟩
  · intro other hother hpending
    rcases List.mem_append.mp hother with hold | hnew
    · exact hw.pending other hold hpending
    · obtain rfl := List.mem_singleton.mp hnew
      exact absurd hpending htype
  · intro other hother hsession
    rcases List.mem_append.mp hother with hold | hnew
    · obtain ⟨record, hold⟩ := hw.sessions other hold hsession
      exact ⟨record, hlater.earns hold⟩
    · obtain rfl := List.mem_singleton.mp hnew
      exact ⟨record, hlater.earns hearns⟩

omit [FloorRing K] in
theorem Vouched.decodeToken (hw : Vouched checks listed w) {payload : VerifyTotpRequest}
    {pending : Token} (hdecoded : AdminAuth.decodeToken w.auth w.now
      (checks.credential payload.sessionToken) .totpPending = some pending) :
    Carried checks listed w (w.happens (.tokenDecoded pending w.now))
      { c with call := .verifyTotp payload (.verify pending) } := by
  obtain ⟨-, hissued, hlive, htype⟩ := decodeToken_eq_some_iff.mp hdecoded
  obtain ⟨record, rfl, hpast, hfirst⟩ := hw.pending pending hissued htype
  have hlater := Later.happens (w := w) (.tokenDecoded record.pending w.now)
  exact ⟨hlater, hw.kept hlater rfl rfl, { record with decodedAt := w.now }, rfl, le_refl _,
    (hlater.firstFactor hfirst).withCode _ _ _ _, List.mem_append_right _ List.mem_cons_self,
    hpast, hlive⟩

omit [FloorRing K] in
/-- The code is checked against the row of the one whom the pending token names. -/
theorem Vouched.verifyCode (hw : Vouched checks listed w) {payload : VerifyTotpRequest}
    {pending : Token}
    (hknows : Knows checks listed w { c with call := .verifyTotp payload (.verify pending) }) :
    Carried checks listed w (AdminAuth.verifyCode checks payload pending w).1
      { c with call := .verifyTotp payload (AdminAuth.verifyCode checks payload pending w).2 } := by
  obtain ⟨record, rfl, hpast, hfirst, hdecoded⟩ := hknows
  rw [AdminAuth.verifyCode]
  split
  · exact ⟨.refl w, hw, trivial⟩
  · rename_i row hrow
    obtain ⟨hfound, hactive⟩ := Option.filter_eq_some_iff.mp hrow
    split
    · rename_i hcode
      have hlater := Later.happens (w := w) (.codeAccepted row payload.totpCode w.now)
      have hdecoded' := hlater.tokenDecoded hdecoded
      refine ⟨hlater, hw.kept hlater rfl rfl,
        { record with second := row, code := payload.totpCode, secondAt := w.now }, rfl, rfl,
        (hlater.firstFactor hfirst).withCode _ _ _ _, ?_⟩
      exact {
        token := ⟨hdecoded'.decoded, hdecoded'.ordered, hdecoded'.alive⟩
        accepted := List.mem_append_right _ List.mem_cons_self
        ofTable := hw.rows row (findUser_eq_some hfound).1
        active := hactive
        matched := hcode
        named := (findUser_eq_some hfound).2
        ordered := hpast }
    · exact ⟨.happens _, hw.kept (.happens _) rfl rfl, trivial⟩

theorem Vouched.openSession (hw : Vouched checks listed w)
    (hfirst : FirstFactor checks listed w.history record)
    (hsecond : SecondFactor checks listed w.history record) :
    let audited := w.appendAudit record.second "login_success" c
    let opened := (AdminAuth.openSession checks record.pending.sub audited).1
    Later w opened ∧ Vouched checks listed opened := by
  intro audited opened
  have hlater : Later w audited := .appendAudit _ _
  have hearns (token : Token) (hsub : token.sub = record.pending.sub) :
      record.Earns checks listed audited token :=
    ⟨hlater.firstFactor hfirst, hlater.secondFactor hsecond, hsub, _,
      List.mem_append_right _ List.mem_cons_self, rfl, rfl⟩
  have hrefresh (expiresDelta : Int) : Vouched checks listed (audited.issue
      (makeToken w.auth w.now record.pending.sub .refresh expiresDelta)) :=
    (hw.kept hlater rfl rfl).issue (makeToken_type_ne (by decide)) (hearns _ rfl)
  have hissued (token token' : Token) (hsub : token'.sub = record.pending.sub) :
      record.Earns checks listed (audited.issue token) token' :=
    (Later.issue token).earns (hearns token' hsub)
  refine ⟨hlater.trans { Later.refl _ with }, ?_⟩
  exact (hrefresh _).issue (makeToken_type_ne (by decide)) (hissued _ _ rfl)

theorem Vouched.verifyTotp (hw : Vouched checks listed w) {payload : VerifyTotpRequest}
    {stage : TotpStage}
    (hknows : Knows checks listed w { c with call := .verifyTotp payload stage }) :
    Carried checks listed w (totpNext checks payload c w stage).1
      { c with call := .verifyTotp payload (totpNext checks payload c w stage).2 } := by
  cases stage with
  | getFailCount =>
    rw [totpNext]
    split <;> exact ⟨.refl w, hw, trivial⟩
  | decodeToken =>
    rw [totpNext]
    split
    · exact ⟨.refl w, hw, trivial⟩
    · rename_i pending hdecoded
      exact hw.decodeToken hdecoded
  | verify pending => exact hw.verifyCode hknows
  | incr row =>
    rw [totpNext]
    have hlater : Later w
        ({ w with redis := w.redis.incr w.now (.totpFail payload.sessionToken) }.happens
          (.codeCounted payload.sessionToken)) := { Later.happens _ with now := le_refl _ }
    refine ⟨hlater, hw.kept hlater rfl rfl, ?_⟩
    dsimp only
    split <;> trivial
  | expire row => exact ⟨{ Later.refl w with }, hw.kept { Later.refl w with } rfl rfl, trivial⟩
  | appendAudit row => exact ⟨.appendAudit row _, hw.kept (.appendAudit row _) rfl rfl, trivial⟩
  | appendSuccess row pending =>
    obtain ⟨record, rfl, rfl, hfirst, hsecond⟩ := hknows
    obtain ⟨hlater, hopened⟩ := hw.openSession hfirst hsecond
    exact ⟨hlater, hopened, trivial⟩
  | finished response => exact ⟨.refl w, hw, trivial⟩

theorem Vouched.handle (hw : Vouched checks listed w) {event : AdminEvent K}
    (hlisted : ∀ rows, event = .setAdminUsers rows → ∀ row ∈ rows, listed row) :
    Later w (w.handle checks event) ∧ Vouched checks listed (w.handle checks event) := by
  cases event with
  | elapse time =>
    have hlater : Later w (w.handle checks (.elapse time)) :=
      { Later.refl w with now := le_max_left _ _ }
    exact ⟨hlater, hlater.vouched hw hw.rows fun _ hmem => hmem⟩
  | setAdminUsers rows =>
    have hlater : Later w (w.handle checks (.setAdminUsers rows)) := { Later.refl w with }
    exact ⟨hlater, hlater.vouched hw (hlisted rows rfl) fun _ hmem => hmem⟩
  | refresh refreshToken csrf =>
    refine ⟨{ Later.refl w with }, ?_⟩
    rw [AuthWorld.handle]
    rcases refreshAccessToken_issues checks.settings w.auth w.now refreshToken csrf with
      hkept | ⟨payload, hissued, htype, hnew⟩
    · rw [hkept]
      exact hw
    · rw [hnew]
      obtain ⟨record, hearns⟩ := hw.sessions payload hissued (by rw [htype]; simp)
      exact hw.issue (makeToken_type_ne (by decide)) { hearns with named := hearns.named }
  | logout refreshToken csrf credentials =>
    have hlater : Later w (w.handle checks (.logout refreshToken csrf credentials)) :=
      { Later.refl w with }
    have hsame := logout_issued w.auth w.now refreshToken csrf credentials
    exact ⟨hlater, hlater.vouched hw hw.rows fun _ hmem => hsame ▸ hmem⟩

theorem Vouched.next (hw : Vouched checks listed w) (hknows : Knows checks listed w c) :
    Carried checks listed w (c.next checks w).1 (c.next checks w).2 := by
  rw [AdminSession.next]
  cases hcall : c.call with
  | login payload stage =>
    have hc : c = { c with call := .login payload stage } := hcall ▸ rfl
    rw [hc] at hknows
    exact hw.login hknows
  | verifyTotp payload stage =>
    have hc : c = { c with call := .verifyTotp payload stage } := hcall ▸ rfl
    rw [hc] at hknows
    exact hw.verifyTotp hknows

/-- The store and every session in flight. -/
def AllVouched (checks : AuthChecks K) (listed : AdminUser → Prop) (s : LoginState K) : Prop :=
  Vouched checks listed s.store ∧ ∀ c ∈ s.sessions, Knows checks listed s.store c

theorem AllVouched.step {s : LoginState K} (h : AllVouched checks listed s) (act : LoginAct K)
    (hlisted : ∀ rows, act = .event (.setAdminUsers rows) → ∀ row ∈ rows, listed row) :
    AllVouched checks listed (Sessions.step (loginSystem checks) s act) := by
  cases act with
  | start request =>
    refine ⟨h.1, fun c hc => ?_⟩
    rcases List.mem_append.mp hc with hold | hnew
    · exact h.2 c hold
    · rw [List.mem_singleton.mp hnew]
      change Knows checks listed s.store (AdminSession.start checks request)
      rw [AdminSession.start]
      cases request.2 <;> trivial
  | advance i =>
    cases hc : s.sessions[i]? with
    | none =>
      rw [Sessions.step_of_waiting (by simp [hc])]
      exact h
    | some c =>
      have hcarried := h.1.next (h.2 c (List.mem_of_getElem? hc))
      rw [Sessions.step_advance hc]
      refine ⟨hcarried.store, fun d hd => ?_⟩
      rcases List.mem_or_eq_of_mem_set hd with hold | rfl
      · exact hcarried.later.knows (h.2 d hold)
      · exact hcarried.session
  | event e =>
    have hhandled : Later s.store (s.store.handle checks e) ∧
        Vouched checks listed (s.store.handle checks e) :=
      h.1.handle fun rows he => hlisted rows (he ▸ rfl)
    exact ⟨hhandled.2, fun c hc => hhandled.1.knows (h.2 c hc)⟩

/-- In every run, behind every token of a session that was signed stand a password and a code that
matched rows of the administrator whom it names. Alone, a request ends as it is served at one
instant (`AdminSession.alone`). -/
theorem sessions_earned (checks : AuthChecks K) (now : K) (rows : List AdminUser)
    (acts : List (LoginAct K)) : ∀ token ∈ (serveLogins checks now rows acts).store.auth.issued,
      token.type ≠ .totpPending → ∃ record : LoginRecord K,
        record.Earns checks (Listed rows acts) (serveLogins checks now rows acts).store token := by
  have hinitial : AllVouched checks (Listed rows acts) (initialState now rows) :=
    ⟨⟨fun row hrow => .inl hrow, fun _ hmem => absurd hmem List.not_mem_nil,
      fun _ hmem => absurd hmem List.not_mem_nil⟩, fun _ hmem => absurd hmem List.not_mem_nil⟩
  have hacts : Runs.Meets (Sessions.step (loginSystem checks)) (fun _ act =>
      ∀ later, act = .event (.setAdminUsers later) → ∀ row ∈ later, Listed rows acts row)
      (initialState now rows) acts := by
    apply Runs.Meets.of_forall
    rintro act hact later rfl row hrow
    exact .inr ⟨later, hact, hrow⟩
  exact (Runs.run_of_meets hinitial (fun s act h hlisted => h.step act hlisted) hacts).1.sessions

end Steps

end Invariant

section Example

/-- A login and a verification that open a session. -/
def sessionOpened : List (LoginAct ℚ) :=
  let client : ClientRequest := { peer := some "203.0.113.7" }
  .start (client, .login { username := "admin", password := "password" }) ::
    .start (client, .verifyTotp { sessionToken := "pending", totpCode := "123456" }) ::
      (List.replicate 4 (.advance 0) ++ List.replicate 4 (.advance 1))

theorem sessions_earned_sessionOpened : ∃ record : LoginRecord ℚ,
    record.Earns pendingChecks (Listed [adminRow] sessionOpened)
      (serveLogins pendingChecks 0 [adminRow] sessionOpened).store
      { jti := 2, type := .access, sub := "admin", exp := 1800 } :=
  sessions_earned pendingChecks 0 [adminRow] sessionOpened _ (by decide +kernel) (by decide)

end Example

end AmaExecutionCore.AdminAuth
