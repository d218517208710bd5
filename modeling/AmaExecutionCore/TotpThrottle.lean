import AmaExecutionCore.AdminRouter
import Mathlib.Data.List.Count

/-! How many wrong codes one session token lets through, whatever the requests do between their
awaits. -/
namespace AmaExecutionCore.AdminAuth

open ExpiringKeys (Store)

section Kinds

variable {text : String}

/-- The session is a verification of the text at one of the stages. -/
def AdminSession.verifies (text : String) (stages : TotpStage → Bool) (c : AdminSession) : Bool :=
  match c.call with
  | .login _ _ => false
  | .verifyTotp payload stage => decide (payload.sessionToken = text) && stages stage

def TotpStage.isInFlight : TotpStage → Bool
  | .finished _ => false
  | _ => true

/-- The count was below the limit, and a wrong code would still be counted. -/
def TotpStage.isAdmitted : TotpStage → Bool
  | .decodeToken | .verify _ | .incr _ => true
  | _ => false

def TotpStage.isDecoded : TotpStage → Bool
  | .verify _ | .incr _ => true
  | _ => false

def TotpStage.isCounting : TotpStage → Bool
  | .incr _ => true
  | _ => false

end Kinds

section Frames

variable {K : Type} [Field K] [LinearOrder K] [FloorRing K] {checks : AuthChecks K}
variable {w : AuthWorld K} {c : AdminSession}

/-- What leaves the counter of a session token alone. -/
structure Untouched (text : String) (w w' : AuthWorld K) : Prop where
  now : w.now ≤ w'.now
  redis : w'.redis (.totpFail text) = w.redis (.totpFail text)
  rejected : w'.history.count (.codeRejected text) = w.history.count (.codeRejected text)
  counted : w'.history.count (.codeCounted text) = w.history.count (.codeCounted text)
  issued : ∀ token ∈ w.auth.issued, token ∈ w'.auth.issued
  pending : ∀ token ∈ w'.auth.issued, token.type = .totpPending →
    token ∈ w.auth.issued ∨ (token.exp : K) ≤ w'.now + ((5 * 60 : ℤ) : K)

namespace Untouched

variable {text : String} {w' : AuthWorld K}

omit [FloorRing K] in
theorem refl (w : AuthWorld K) : Untouched text w w where
  now := le_refl _
  redis := rfl
  rejected := rfl
  counted := rfl
  issued := fun _ h => h
  pending := fun _ h _ => .inl h

omit [FloorRing K] in
theorem trans {w'' : AuthWorld K} (h : Untouched text w w') (h' : Untouched text w' w'')
    (hnow : w'.now = w''.now) : Untouched text w w'' where
  now := h.now.trans h'.now
  redis := h'.redis.trans h.redis
  rejected := h'.rejected.trans h.rejected
  counted := h'.counted.trans h.counted
  issued := fun token htoken => h'.issued token (h.issued token htoken)
  pending := by
    intro token htoken htype
    rcases h'.pending token htoken htype with hmem | hexp
    · rw [← hnow]
      exact h.pending token hmem htype
    · exact .inr hexp

omit [FloorRing K] in
theorem happens {attempt : Attempt K} (hrejected : attempt ≠ .codeRejected text)
    (hcounted : attempt ≠ .codeCounted text) : Untouched text w (w.happens attempt) where
  now := le_refl _
  redis := rfl
  rejected := by
    rw [AuthWorld.happens, List.count_append, List.count_singleton,
      if_neg (by simpa using hrejected), Nat.add_zero]
  counted := by
    rw [AuthWorld.happens, List.count_append, List.count_singleton,
      if_neg (by simpa using hcounted), Nat.add_zero]
  issued := fun _ h => h
  pending := fun _ h _ => .inl h

omit [FloorRing K] in
theorem setRedis {redis : Store ThrottleKey K}
    (h : redis (.totpFail text) = w.redis (.totpFail text)) :
    Untouched text w { w with redis := redis } := { refl w with redis := h }

end Untouched

section Endpoints

variable {text : String}

omit [FloorRing K] in
theorem Untouched.appendAudit (row : AdminUser) (action : String) :
    Untouched text w (w.appendAudit row action c) := { refl w with redis := rfl }

omit [FloorRing K] in
theorem Untouched.issue {token : Token}
    (h : token.type = .totpPending → (token.exp : K) ≤ w.now + ((5 * 60 : ℤ) : K)) :
    Untouched text w (w.issue token) where
  now := le_refl _
  redis := rfl
  rejected := rfl
  counted := rfl
  issued := fun _ hmem => List.mem_append_left _ hmem
  pending := by
    intro other hother htype
    rw [AuthWorld.issue, AuthState.issue, List.mem_append, List.mem_singleton] at hother
    rcases hother with hold | rfl
    · exact .inl hold
    · exact .inr (h htype)

theorem Untouched.loginNext (payload : LoginRequest) (stage : LoginStage) :
    Untouched text w (loginNext checks payload c w stage).1 := by
  cases stage with
  | isBlocked =>
    rw [AdminAuth.loginNext]
    split <;> exact refl w
  | authenticate =>
    rw [AdminAuth.loginNext, authenticate]
    split <;> exact happens (by simp) (by simp)
  | incr row =>
    have hredis : Untouched text w { w with redis := w.redis.incr w.now (.failures c.ip) } :=
      setRedis (Store.incr_of_ne (by simp))
    exact hredis.trans (happens (by simp) (by simp)) rfl
  | expire row => exact setRedis (Store.expire_of_ne (by simp))
  | setex row => exact setRedis (Store.setex_of_ne (by simp))
  | appendAudit row =>
    cases row with
    | none => exact refl w
    | some row => exact appendAudit row _
  | resetFailures row =>
    have hredis : Untouched text w { w with redis := w.redis.delete (.failures c.ip) } :=
      setRedis (Store.delete_of_ne (by simp))
    exact hredis.trans (happens (by simp) (by simp)) rfl
  | createToken row =>
    have hissued : Untouched text w
        (w.issue (makeToken w.auth w.now row.username .totpPending (5 * 60))) :=
      issue fun _ => makeToken_exp_le _ _ _ _ _
    exact hissued.trans (happens (by simp) (by simp)) rfl
  | finished response => exact refl w

/-- Only the count and what follows it at a wrong code touch the counter, and only that of the
session token that is verified. -/
theorem Untouched.totpNext (payload : VerifyTotpRequest)
    (stage : TotpStage) (h : payload.sessionToken ≠ text ∨
      stage.isDecoded = false ∧ ∀ row, stage ≠ .expire row) :
    Untouched text w (totpNext checks payload c w stage).1 := by
  have hkey (hne : payload.sessionToken ≠ text) :
      ThrottleKey.totpFail text ≠ .totpFail payload.sessionToken := by
    rw [Ne, ThrottleKey.totpFail.injEq]
    exact hne.symm
  cases stage with
  | getFailCount =>
    rw [AdminAuth.totpNext]
    split <;> exact refl w
  | decodeToken =>
    rw [AdminAuth.totpNext]
    split
    · exact refl w
    · exact happens (by simp) (by simp)
  | verify pending =>
    have hne : payload.sessionToken ≠ text := h.resolve_right (by simp [TotpStage.isDecoded])
    rw [AdminAuth.totpNext, verifyCode]
    split
    · exact refl w
    · split
      · exact happens (by simp) (by simp)
      · exact happens (by simpa using hne) (by simp)
  | incr row =>
    have hne : payload.sessionToken ≠ text := h.resolve_right (by simp [TotpStage.isDecoded])
    have hredis : Untouched text w
        { w with redis := w.redis.incr w.now (.totpFail payload.sessionToken) } :=
      setRedis (Store.incr_of_ne (hkey hne))
    exact hredis.trans (happens (by simp) (by simpa using hne)) rfl
  | expire row =>
    exact setRedis (Store.expire_of_ne (hkey (h.resolve_right (by simp))))
  | appendAudit row => exact appendAudit row _
  | appendSuccess row pending =>
    have hrefresh (opened : AuthWorld K) (username : String) (delta : Int) :
        Untouched text opened
          (opened.issue (makeToken opened.auth w.now username .refresh delta)) :=
      issue fun htype => absurd htype (by simp [makeToken])
    have haccess (opened : AuthWorld K) (username : String) (delta : Int) :
        Untouched text opened
          (opened.issue (makeToken opened.auth w.now username .access delta)) :=
      issue fun htype => absurd htype (by simp [makeToken])
    exact (appendAudit row _).trans ((hrefresh _ _ _).trans (haccess _ _ _) rfl) rfl
  | finished response => exact refl w

omit [FloorRing K] in
theorem Untouched.setAuth {auth : AuthState K}
    (hissued : ∀ token ∈ w.auth.issued, token ∈ auth.issued)
    (hpending : ∀ token ∈ auth.issued, token.type = .totpPending → token ∈ w.auth.issued) :
    Untouched text w { w with auth := auth } :=
  { refl w with
    issued := hissued
    pending := fun token hmem htype => .inl (hpending token hmem htype) }

theorem Untouched.handle (event : AdminEvent K) :
    Untouched text w (w.handle checks event) := by
  cases event with
  | elapse time =>
    exact { refl w with now := le_max_left _ _, pending := fun _ hmem _ => .inl hmem }
  | setAdminUsers rows => exact { refl w with redis := rfl }
  | refresh refreshToken csrf =>
    rw [AuthWorld.handle]
    rcases refreshAccessToken_issues checks.settings w.auth w.now refreshToken csrf with
      hkept | ⟨payload, -, -, hissued⟩
    · rw [hkept]
      exact refl w
    · rw [hissued]
      exact issue fun htype => absurd htype (by simp [makeToken])
  | logout refreshToken csrf credentials =>
    have hsame := logout_issued w.auth w.now refreshToken csrf credentials
    exact setAuth (fun token hmem => hsame ▸ hmem) fun token hmem _ => hsame ▸ hmem

end Endpoints

end Frames

section Bound

variable {K : Type} [Field K] [LinearOrder K] (checks : AuthChecks K)

/-- The requests in flight that verify the text as their session token. -/
def verifying (text : String) : AdminSession → Bool :=
  AdminSession.verifies text TotpStage.isInFlight

/-- The codes that were refused with the text as session token. -/
def wrongCodes (text : String) (w : AuthWorld K) : Nat := w.history.count (.codeRejected text)

/-- The text is a pending token that was signed. -/
def Denotes (text : String) (w : AuthWorld K) (pending : Token) : Prop :=
  checks.credential text = .token pending ∧ pending ∈ w.auth.issued ∧
    pending.type = .totpPending

/-- While the token lives its key holds the number of wrong codes that were counted, and the
sessions that are past the check make up for the rest of the bound. -/
structure CodesCounted (text : String) (k : Nat) (s : LoginState K) : Prop where
  lifetimes : ∀ token ∈ s.store.auth.issued, token.type = .totpPending →
    (token.exp : K) ≤ s.store.now + ((5 * 60 : ℤ) : K)
  unissued : (∀ pending, ¬ Denotes checks text s.store pending) →
    s.store.history.count (.codeCounted text) = 0 ∧
      s.store.redis (.totpFail text) = none ∧
      Sessions.count (AdminSession.verifies text TotpStage.isDecoded) s = 0
  living : ∀ pending, Denotes checks text s.store pending → s.store.now < pending.exp →
    (s.store.redis (.totpFail text)).elim 0 ExpiringKeys.Entry.value =
        s.store.history.count (.codeCounted text) ∧
      s.store.redis.Outlasts (.totpFail text) pending.exp ∧
      s.store.history.count (.codeCounted text) +
        Sessions.count (AdminSession.verifies text TotpStage.isAdmitted) s ≤ 4 + k
  bounded : s.store.history.count (.codeCounted text) +
    Sessions.count (AdminSession.verifies text TotpStage.isDecoded) s ≤ 4 + k
  rejected : wrongCodes text s.store = s.store.history.count (.codeCounted text) +
    Sessions.count (AdminSession.verifies text TotpStage.isCounting) s

variable {checks} {text : String} {k : Nat} {s t : LoginState K}

omit [Field K] [LinearOrder K] in
theorem count_verifies_le {stages more : TotpStage → Bool}
    (h : ∀ stage, stages stage = true → more stage = true) :
    Sessions.count (AdminSession.verifies text stages) s ≤
      Sessions.count (AdminSession.verifies text more) s := by
  apply Sessions.count_le_count
  intro c hc
  rw [AdminSession.verifies.eq_def] at *
  split at hc
  · exact hc
  · rename_i stage _
    rw [Bool.and_eq_true] at hc ⊢
    exact ⟨hc.1, h stage hc.2⟩

omit [Field K] [LinearOrder K] in
theorem admitted_le_verifying (text : String) (s : LoginState K) :
    Sessions.count (AdminSession.verifies text TotpStage.isAdmitted) s ≤
      Sessions.count (verifying text) s := by
  apply count_verifies_le
  intro stage hstage
  cases stage <;> simp_all [TotpStage.isAdmitted, TotpStage.isInFlight]

omit [Field K] [LinearOrder K] in
theorem decoded_le_admitted (text : String) (s : LoginState K) :
    Sessions.count (AdminSession.verifies text TotpStage.isDecoded) s ≤
      Sessions.count (AdminSession.verifies text TotpStage.isAdmitted) s := by
  apply count_verifies_le
  intro stage hstage
  cases stage <;> simp_all [TotpStage.isAdmitted, TotpStage.isDecoded]

omit [Field K] [LinearOrder K] in
theorem counting_le_decoded (text : String) (s : LoginState K) :
    Sessions.count (AdminSession.verifies text TotpStage.isCounting) s ≤
      Sessions.count (AdminSession.verifies text TotpStage.isDecoded) s := by
  apply count_verifies_le
  intro stage hstage
  cases stage <;> simp_all [TotpStage.isCounting, TotpStage.isDecoded]

namespace CodesCounted

theorem wrongCodes_le (h : CodesCounted checks text k s) : wrongCodes text s.store ≤ k + 4 := by
  have hcounting := counting_le_decoded text s
  have hbounded := h.bounded
  rw [h.rejected]
  omega

/-- What a text denotes when it is signed has been refused no code yet. -/
theorem starts (h : CodesCounted checks text k s) {pending : Token}
    (hcredential : checks.credential text = .token pending)
    (hnot : ¬ Denotes checks text s.store pending) :
    s.store.history.count (.codeCounted text) = 0 ∧ s.store.redis (.totpFail text) = none := by
  have hnone : ∀ other, ¬ Denotes checks text s.store other := by
    intro other hother
    obtain rfl : other = pending := Credential.token.inj (hother.1.symm.trans hcredential)
    exact hnot hother
  exact ⟨(h.unissued hnone).1, (h.unissued hnone).2.1⟩

theorem untouched [IsStrictOrderedRing K] (h : CodesCounted checks text k s)
    (hstore : Untouched text s.store t.store)
    (hadmitted : Sessions.count (AdminSession.verifies text TotpStage.isAdmitted) t ≤
      Sessions.count (AdminSession.verifies text TotpStage.isAdmitted) s)
    (hdecoded : Sessions.count (AdminSession.verifies text TotpStage.isDecoded) t ≤
      Sessions.count (AdminSession.verifies text TotpStage.isDecoded) s)
    (hcounting : Sessions.count (AdminSession.verifies text TotpStage.isCounting) t =
      Sessions.count (AdminSession.verifies text TotpStage.isCounting) s)
    (hflight : Sessions.count (verifying text) t ≤ k) : CodesCounted checks text k t where
  lifetimes := by
    intro token htoken htype
    rcases hstore.pending token htoken htype with hold | hexp
    · have hlater : s.store.now + ((5 * 60 : ℤ) : K) ≤ t.store.now + ((5 * 60 : ℤ) : K) :=
        add_le_add_left hstore.now _
      exact (h.lifetimes token hold htype).trans hlater
    · exact hexp
  unissued := by
    intro hnone
    obtain ⟨hcounted, hredis, hzero⟩ := h.unissued fun pending hdenotes => hnone pending
      ⟨hdenotes.1, hstore.issued pending hdenotes.2.1, hdenotes.2.2⟩
    refine ⟨hstore.counted.trans hcounted, hstore.redis.trans hredis, ?_⟩
    exact Nat.eq_zero_of_le_zero (hzero ▸ hdecoded)
  living := by
    intro pending hdenotes hlive
    rw [hstore.counted]
    simp only [Store.Outlasts, hstore.redis]
    by_cases hold : Denotes checks text s.store pending
    · obtain ⟨hvalue, houtlasts, hbound⟩ := h.living pending hold (hstore.now.trans_lt hlive)
      exact ⟨hvalue, houtlasts, (Nat.add_le_add_left hadmitted _).trans hbound⟩
    · obtain ⟨hcounted, hredis⟩ := h.starts hdenotes.1 hold
      have hle := admitted_le_verifying text t
      rw [hcounted, hredis]
      refine ⟨rfl, fun entry hentry => absurd hentry (by simp), ?_⟩
      omega
  bounded := by
    have hbounded := h.bounded
    rw [hstore.counted]
    omega
  rejected := by
    rw [wrongCodes, hstore.rejected, hstore.counted, hcounting]
    exact h.rejected

def Moved (text : String) (s t : LoginState K) (stage stage' : TotpStage) : Prop :=
  ∀ stages : TotpStage → Bool,
    Sessions.count (AdminSession.verifies text stages) t + (stages stage).toNat =
      Sessions.count (AdminSession.verifies text stages) s + (stages stage').toNat

variable {stage stage' : TotpStage} {row : AdminUser} {pending : Token}

theorem leave [IsStrictOrderedRing K] (h : CodesCounted checks text k s)
    (hmoved : Moved text s t stage stage') (hstore : Untouched text s.store t.store)
    (hstage : stage.isCounting = false) (hstage' : stage'.isAdmitted = false)
    (hflight : Sessions.count (verifying text) t ≤ k) : CodesCounted checks text k t := by
  have hdecoded' : stage'.isDecoded = false := by
    cases stage' <;> simp_all [TotpStage.isAdmitted, TotpStage.isDecoded]
  have hcounting' : stage'.isCounting = false := by
    cases stage' <;> simp_all [TotpStage.isAdmitted, TotpStage.isCounting]
  have hadmitted := hmoved TotpStage.isAdmitted
  have hdecoded := hmoved TotpStage.isDecoded
  have hcounting := hmoved TotpStage.isCounting
  rw [hstage', Bool.toNat_false] at hadmitted
  rw [hdecoded', Bool.toNat_false] at hdecoded
  rw [hcounting', hstage, Bool.toNat_false] at hcounting
  exact h.untouched hstore (by omega) (by omega) hcounting hflight

theorem enter (h : CodesCounted checks text k s)
    (hmoved : Moved text s t .getFailCount .decodeToken)
    (hstore : t.store = s.store)
    (hlow : ¬ maxFailures ≤ s.store.redis.count s.store.now (.totpFail text))
    (hflight : Sessions.count (verifying text) t ≤ k) : CodesCounted checks text k t := by
  have hdecoded := hmoved TotpStage.isDecoded
  have hcounting := hmoved TotpStage.isCounting
  simp only [TotpStage.isDecoded, TotpStage.isCounting, Nat.add_right_cancel_iff]
    at hdecoded hcounting
  refine ⟨?_, ?_, ?_, ?_, ?_⟩
  · rw [hstore]
    exact h.lifetimes
  · rw [hstore, hdecoded]
    exact h.unissued
  · rw [hstore]
    intro pending hdenotes hlive
    obtain ⟨hvalue, houtlasts, -⟩ := h.living pending hdenotes hlive
    have hle := admitted_le_verifying text t
    rw [houtlasts.count_eq hlive, hvalue, maxFailures] at hlow
    exact ⟨hvalue, houtlasts, by omega⟩
  · rw [hstore, hdecoded]
    exact h.bounded
  · rw [hstore, hcounting]
    exact h.rejected

/-- Only a token that lives is decoded, and the bound of the sessions let in is passed on. -/
theorem decode (h : CodesCounted checks text k s)
    (hmoved : Moved text s t .decodeToken (.verify pending))
    (hstore : t.store = s.store.happens (.tokenDecoded pending s.store.now))
    (hdenotes : Denotes checks text s.store pending) (hlive : s.store.now < pending.exp) :
    CodesCounted checks text k t := by
  have hadmitted := hmoved TotpStage.isAdmitted
  have hcounting := hmoved TotpStage.isCounting
  simp only [TotpStage.isAdmitted, TotpStage.isCounting, Nat.add_right_cancel_iff]
    at hadmitted hcounting
  have hsame : Untouched text s.store t.store := hstore ▸ .happens (by simp) (by simp)
  have hauth : t.store.auth = s.store.auth := by rw [hstore]; rfl
  have hnow : t.store.now = s.store.now := by rw [hstore]; rfl
  have hle := decoded_le_admitted text t
  have hbound := (h.living pending hdenotes hlive).2.2
  refine ⟨?_, ?_, ?_, ?_, ?_⟩
  · rw [hauth, hnow]
    exact h.lifetimes
  · intro hnone
    refine absurd ?_ (hnone pending)
    rw [Denotes, hauth]
    exact hdenotes
  · rw [hnow, hsame.counted, hadmitted]
    simp only [Denotes, hauth, Store.Outlasts, hsame.redis]
    exact h.living
  · rw [hsame.counted]
    omega
  · rw [wrongCodes, hsame.rejected, hsame.counted, hcounting]
    exact h.rejected

theorem reject (h : CodesCounted checks text k s)
    (hmoved : Moved text s t (.verify pending) (.incr row))
    (hstore : t.store = s.store.happens (.codeRejected text)) : CodesCounted checks text k t := by
  have hadmitted := hmoved TotpStage.isAdmitted
  have hdecoded := hmoved TotpStage.isDecoded
  have hcounting := hmoved TotpStage.isCounting
  simp only [TotpStage.isAdmitted, TotpStage.isDecoded, TotpStage.isCounting, Bool.toNat_true,
    Bool.toNat_false, Nat.add_right_cancel_iff] at hadmitted hdecoded hcounting
  have hcounted : t.store.history.count (.codeCounted text) =
      s.store.history.count (.codeCounted text) := by
    rw [hstore, AuthWorld.happens, List.count_append, List.count_singleton,
      if_neg (by simp), Nat.add_zero]
  have hrejected : wrongCodes text t.store = wrongCodes text s.store + 1 := by
    rw [wrongCodes, hstore, AuthWorld.happens, List.count_append, List.count_singleton_self,
      wrongCodes]
  have hsame : t.store.auth = s.store.auth ∧ t.store.now = s.store.now ∧
      t.store.redis = s.store.redis := by
    rw [hstore]
    exact ⟨rfl, rfl, rfl⟩
  have hold := h.rejected
  refine ⟨?_, ?_, ?_, ?_, ?_⟩
  · rw [hsame.1, hsame.2.1]
    exact h.lifetimes
  · rw [hcounted, hsame.2.2, hdecoded]
    simp only [Denotes, hsame.1]
    exact h.unissued
  · rw [hcounted, hsame.2.1, hsame.2.2, hadmitted]
    simp only [Denotes, hsame.1]
    exact h.living
  · rw [hcounted, hdecoded]
    exact h.bounded
  · rw [hcounted]
    omega

/-- While the token lives, its key is found and goes up with the count. -/
theorem incr (h : CodesCounted checks text k s) (hmoved : Moved text s t (.incr row) stage')
    (hstage' : stage'.isAdmitted = false)
    (hstore : t.store = { s.store with
      redis := s.store.redis.incr s.store.now (.totpFail text) }.happens (.codeCounted text)) :
    CodesCounted checks text k t := by
  have hdecoded' : stage'.isDecoded = false := by
    cases stage' <;> simp_all [TotpStage.isAdmitted, TotpStage.isDecoded]
  have hcounting' : stage'.isCounting = false := by
    cases stage' <;> simp_all [TotpStage.isAdmitted, TotpStage.isCounting]
  have hadmitted := hmoved TotpStage.isAdmitted
  have hdecoded := hmoved TotpStage.isDecoded
  have hcounting := hmoved TotpStage.isCounting
  rw [hstage'] at hadmitted
  rw [hdecoded'] at hdecoded
  rw [hcounting'] at hcounting
  simp only [TotpStage.isAdmitted, TotpStage.isDecoded, TotpStage.isCounting, Bool.toNat_true,
    Bool.toNat_false] at hadmitted hdecoded hcounting
  have hcounted : t.store.history.count (.codeCounted text) =
      s.store.history.count (.codeCounted text) + 1 := by
    rw [hstore, AuthWorld.happens, List.count_append, List.count_singleton_self]
  have hrejected : wrongCodes text t.store = wrongCodes text s.store := by
    rw [wrongCodes, hstore, AuthWorld.happens, List.count_append, List.count_singleton,
      if_neg (by simp), Nat.add_zero, wrongCodes]
  have hsame : t.store.auth = s.store.auth ∧ t.store.now = s.store.now ∧
      t.store.redis = s.store.redis.incr s.store.now (.totpFail text) := by
    rw [hstore]
    exact ⟨rfl, rfl, rfl⟩
  have hold := h.rejected
  have hbounded := h.bounded
  refine ⟨?_, ?_, ?_, ?_, ?_⟩
  · rw [hsame.1, hsame.2.1]
    exact h.lifetimes
  · intro hnone
    simp only [Denotes, hsame.1] at hnone
    have hzero := (h.unissued hnone).2.2
    omega
  · rw [hcounted, hsame.2.1, hsame.2.2]
    simp only [Denotes, hsame.1]
    intro pending hdenotes hlive
    obtain ⟨hvalue, houtlasts, hbound⟩ := h.living pending hdenotes hlive
    refine ⟨?_, houtlasts.incr s.store.now, by omega⟩
    rw [Store.incr_self, Option.elim_some, houtlasts.count_eq hlive, hvalue]
  · rw [hcounted]
    omega
  · rw [hcounted]
    omega

theorem expire [IsStrictOrderedRing K] (h : CodesCounted checks text k s)
    (hmoved : Moved text s t (.expire row) (.appendAudit row))
    (hstore : t.store = { s.store with
      redis := s.store.redis.expire s.store.now (.totpFail text) ((totpFailTtl : ℤ) : K) }) :
    CodesCounted checks text k t := by
  have hadmitted := hmoved TotpStage.isAdmitted
  have hdecoded := hmoved TotpStage.isDecoded
  have hcounting := hmoved TotpStage.isCounting
  simp only [TotpStage.isAdmitted, TotpStage.isDecoded, TotpStage.isCounting,
    Nat.add_right_cancel_iff] at hadmitted hdecoded hcounting
  have hsame : t.store.auth = s.store.auth ∧ t.store.now = s.store.now ∧
      t.store.history = s.store.history ∧ t.store.redis =
        s.store.redis.expire s.store.now (.totpFail text) ((totpFailTtl : ℤ) : K) := by
    rw [hstore]
    exact ⟨rfl, rfl, rfl, rfl⟩
  refine ⟨?_, ?_, ?_, ?_, ?_⟩
  · rw [hsame.1, hsame.2.1]
    exact h.lifetimes
  · rw [hsame.2.2.1, hdecoded]
    simp only [Denotes, hsame.1, hsame.2.2.2]
    intro hnone
    obtain ⟨hcounted, hredis, hzero⟩ := h.unissued hnone
    refine ⟨hcounted, ?_, hzero⟩
    rw [Store.expire_self, Store.find_of_none hredis, Option.map_none]
  · rw [hsame.2.2.1, hsame.2.1, hadmitted]
    simp only [Denotes, hsame.1, hsame.2.2.2]
    intro pending hdenotes hlive
    obtain ⟨hvalue, houtlasts, hbound⟩ := h.living pending hdenotes hlive
    refine ⟨(houtlasts.value_expire hlive).trans hvalue, ?_, hbound⟩
    exact Store.outlasts_expire (h.lifetimes pending hdenotes.2.1 hdenotes.2.2)
  · rw [hsame.2.2.1, hdecoded]
    exact h.bounded
  · rw [wrongCodes, hsame.2.2.1, hcounting]
    exact h.rejected

end CodesCounted

section Runs

variable [FloorRing K] [IsStrictOrderedRing K] {c : AdminSession} {i : Nat}

omit [IsStrictOrderedRing K] in
theorem count_verifies_advance (checks : AuthChecks K) (text : String) (stages : TotpStage → Bool)
    (hc : s.sessions[i]? = some c) :
    Sessions.count (AdminSession.verifies text stages)
        (Sessions.step (loginSystem checks) s (.advance i)) + (c.verifies text stages).toNat =
      Sessions.count (AdminSession.verifies text stages) s +
        ((c.next checks s.store).2.verifies text stages).toNat :=
  Sessions.count_advance hc

/-- The verification of `payload` went from `s` to `t` by its next step. -/
structure VerifyStep (checks : AuthChecks K) (payload : VerifyTotpRequest) (c : AdminSession)
    (stage : TotpStage) (s t : LoginState K) : Prop where
  moved : CodesCounted.Moved payload.sessionToken s t stage
    (totpNext checks payload c s.store stage).2
  store : t.store = (totpNext checks payload c s.store stage).1

variable {payload : VerifyTotpRequest} {stage : TotpStage} {pending : Token}

omit [IsStrictOrderedRing K] in
theorem VerifyStep.advance (hc : s.sessions[i]? = some c)
    (hcall : c.call = .verifyTotp payload stage) :
    VerifyStep checks payload c stage s (Sessions.step (loginSystem checks) s (.advance i)) := by
  have hnext : c.next checks s.store = ((totpNext checks payload c s.store stage).1,
      { c with call := .verifyTotp payload (totpNext checks payload c s.store stage).2 }) := by
    rw [AdminSession.next, hcall]
  constructor
  · intro stages
    have hcount := count_verifies_advance checks payload.sessionToken stages hc
    rw [hnext, AdminSession.verifies.eq_def, AdminSession.verifies.eq_def, hcall] at hcount
    simpa using hcount
  · rw [Sessions.step_advance hc]
    exact congrArg Prod.fst hnext

/-- At the limit the verification ends, and below it it goes on to the decoding. -/
theorem CodesCounted.getFailCount (h : CodesCounted checks payload.sessionToken k s)
    (hstep : VerifyStep checks payload c .getFailCount s t)
    (hflight : Sessions.count (verifying payload.sessionToken) t ≤ k) :
    CodesCounted checks payload.sessionToken k t := by
  have hmoved := hstep.moved
  have hstore := hstep.store
  rw [AdminAuth.totpNext] at hmoved hstore
  by_cases hlimit : maxFailures ≤ s.store.redis.count s.store.now (.totpFail payload.sessionToken)
  · rw [if_pos hlimit] at hmoved hstore
    exact h.leave hmoved (hstore ▸ .refl _) rfl rfl hflight
  · rw [if_neg hlimit] at hmoved hstore
    exact h.enter hmoved hstore hlimit hflight

theorem CodesCounted.decodeToken (h : CodesCounted checks payload.sessionToken k s)
    (hstep : VerifyStep checks payload c .decodeToken s t)
    (hflight : Sessions.count (verifying payload.sessionToken) t ≤ k) :
    CodesCounted checks payload.sessionToken k t := by
  have hmoved := hstep.moved
  have hstore := hstep.store
  rw [AdminAuth.totpNext] at hmoved hstore
  cases hdecoded : AdminAuth.decodeToken s.store.auth s.store.now
      (checks.credential payload.sessionToken) .totpPending with
  | none =>
    rw [hdecoded] at hmoved hstore
    exact h.leave hmoved (hstore ▸ .refl _) rfl rfl hflight
  | some pending =>
    rw [hdecoded] at hmoved hstore
    obtain ⟨hcredential, hissued, hlive, htype⟩ := decodeToken_eq_some_iff.mp hdecoded
    exact h.decode hmoved hstore ⟨hcredential, hissued, htype⟩ hlive

theorem CodesCounted.verifyCode (h : CodesCounted checks payload.sessionToken k s)
    (hstep : VerifyStep checks payload c (.verify pending) s t)
    (hflight : Sessions.count (verifying payload.sessionToken) t ≤ k) :
    CodesCounted checks payload.sessionToken k t := by
  have hmoved := hstep.moved
  have hstore := hstep.store
  rw [AdminAuth.totpNext, AdminAuth.verifyCode] at hmoved hstore
  split at hmoved
  · rename_i hnone
    rw [hnone] at hstore
    exact h.leave hmoved (hstore ▸ .refl _) rfl rfl hflight
  · rename_i row hrow
    rw [hrow] at hstore
    dsimp only at hstore
    split at hmoved
    · rename_i hcode
      rw [if_pos hcode] at hstore
      exact h.leave hmoved (hstore ▸ .happens (by simp) (by simp)) rfl rfl hflight
    · rename_i hcode
      rw [if_neg hcode] at hstore
      exact h.reject hmoved hstore

/-- A verification of the text takes its next step. -/
theorem CodesCounted.verify (h : CodesCounted checks payload.sessionToken k s)
    (hstep : VerifyStep checks payload c stage s t)
    (hflight : Sessions.count (verifying payload.sessionToken) t ≤ k) :
    CodesCounted checks payload.sessionToken k t := by
  have hquiet (hstages : stage.isDecoded = false ∧ ∀ row, stage ≠ .expire row)
      (hended : (totpNext checks payload c s.store stage).2.isAdmitted = false) :
      CodesCounted checks payload.sessionToken k t := by
    have hcounting : stage.isCounting = false := by
      cases stage <;> simp_all [TotpStage.isDecoded, TotpStage.isCounting]
    exact h.leave hstep.moved (hstep.store ▸ .totpNext payload stage (.inr hstages)) hcounting
      hended hflight
  cases stage with
  | getFailCount => exact h.getFailCount hstep hflight
  | decodeToken => exact h.decodeToken hstep hflight
  | verify pending => exact h.verifyCode hstep hflight
  | incr row =>
    refine h.incr hstep.moved ?_ hstep.store
    rw [AdminAuth.totpNext]
    dsimp only
    split <;> rfl
  | expire row => exact h.expire hstep.moved hstep.store
  | appendAudit row => exact hquiet ⟨rfl, by simp⟩ rfl
  | appendSuccess row pending => exact hquiet ⟨rfl, by simp⟩ rfl
  | finished response => exact hquiet ⟨rfl, by simp⟩ rfl

theorem CodesCounted.other (h : CodesCounted checks text k s) (hc : s.sessions[i]? = some c)
    (hother : ∀ stages, c.verifies text stages = false)
    (hflight : Sessions.count (verifying text)
      (Sessions.step (loginSystem checks) s (.advance i)) ≤ k) :
    CodesCounted checks text k (Sessions.step (loginSystem checks) s (.advance i)) := by
  have hstore : (Sessions.step (loginSystem checks) s (.advance i)).store =
      (c.next checks s.store).1 := by
    rw [Sessions.step_advance hc]
    rfl
  have huntouched : Untouched text s.store (c.next checks s.store).1 ∧
      ∀ stages, (c.next checks s.store).2.verifies text stages = false := by
    rw [AdminSession.next]
    cases hcall : c.call with
    | login payload stage => exact ⟨.loginNext payload stage, fun _ => rfl⟩
    | verifyTotp payload stage =>
      have hne : payload.sessionToken ≠ text := by
        intro htext
        have hfalse := hother fun _ => true
        simp [AdminSession.verifies.eq_def, hcall, htext] at hfalse
      exact ⟨.totpNext payload stage (.inl hne), fun stages => by simp [AdminSession.verifies, hne]⟩
  have hcount (stages : TotpStage → Bool) : Sessions.count (AdminSession.verifies text stages)
      (Sessions.step (loginSystem checks) s (.advance i)) =
        Sessions.count (AdminSession.verifies text stages) s := by
    have hmoved := count_verifies_advance checks text stages hc
    rw [hother, huntouched.2] at hmoved
    exact Nat.add_right_cancel hmoved
  exact h.untouched (hstore ▸ huntouched.1) (hcount _).le (hcount _).le (hcount _) hflight

theorem CodesCounted.step (h : CodesCounted checks text k s)
    (act : LoginAct K)
    (hflight : Sessions.count (verifying text) (Sessions.step (loginSystem checks) s act) ≤ k) :
    CodesCounted checks text k (Sessions.step (loginSystem checks) s act) := by
  cases act with
  | start request =>
    have hcount (stages : TotpStage → Bool) (hstages : stages .getFailCount = false) :
        Sessions.count (AdminSession.verifies text stages)
          (Sessions.step (loginSystem checks) s (.start request)) =
        Sessions.count (AdminSession.verifies text stages) s := by
      have hstart : (AdminSession.start checks request).verifies text stages = false := by
        rw [AdminSession.start]
        cases request.2 with
        | login payload => rfl
        | verifyTotp payload => simp [AdminSession.verifies, hstages]
      have hstarted : Sessions.count (AdminSession.verifies text stages)
          (Sessions.step (loginSystem checks) s (.start request)) =
            Sessions.count (AdminSession.verifies text stages) s +
              ((AdminSession.start checks request).verifies text stages).toNat :=
        Sessions.count_start request
      rw [hstarted, hstart, Bool.toNat_false, Nat.add_zero]
    exact h.untouched (.refl _) (hcount _ rfl).le (hcount _ rfl).le (hcount _ rfl) hflight
  | advance i =>
    cases hc : s.sessions[i]? with
    | none =>
      rw [Sessions.step_of_waiting (by simp [hc])]
      exact h
    | some c =>
      by_cases hother : ∀ stages, c.verifies text stages = false
      · exact h.other hc hother hflight
      · cases hcall : c.call with
        | login payload stage =>
          refine absurd (fun stages => ?_) hother
          rw [AdminSession.verifies.eq_def, hcall]
        | verifyTotp payload stage =>
          by_cases htext : payload.sessionToken = text
          · subst htext
            exact h.verify (.advance hc hcall) hflight
          · refine absurd (fun stages => ?_) hother
            simp [AdminSession.verifies.eq_def, hcall, htext]
  | event e => exact h.untouched (.handle e) (le_refl _) (le_refl _) rfl hflight

omit [FloorRing K] [IsStrictOrderedRing K] in
theorem CodesCounted.initial (k : Nat) (now : K) (rows : List AdminUser) :
    CodesCounted checks text k (initialState now rows) where
  lifetimes := fun _ htoken => absurd htoken List.not_mem_nil
  unissued := fun _ => ⟨rfl, rfl, rfl⟩
  living := fun _ hdenotes => absurd hdenotes.2.1 List.not_mem_nil
  bounded := Nat.zero_le _
  rejected := rfl

/-- However the requests take turns, no text lets more wrong codes through as a session token
than four and as many as there ever were requests in flight that verify it. -/
theorem wrong_codes_bounded (checks : AuthChecks K) (text : String) (now : K)
    (rows : List AdminUser) (acts : List (LoginAct K)) :
    wrongCodes text (serveLogins checks now rows acts).store ≤
      Sessions.peak (loginSystem checks) (verifying text) (initialState now rows) acts + 4 :=
  (Sessions.run_of_peak (I := CodesCounted checks text) acts
    (fun k => CodesCounted.initial k now rows)
    fun _ _ act h _ hflight => h.step act hflight).wrongCodes_le

end Runs

section Example

/-- A login, one wrong code after another four times, then two of them at once and one more. -/
def twoAtOnce : List (LoginAct ℚ) :=
  let client : ClientRequest := { peer := some "203.0.113.7" }
  let login : LoginAct ℚ := .start (client, .login { username := "admin", password := "password" })
  let verify : LoginAct ℚ :=
    .start (client, .verifyTotp { sessionToken := "pending", totpCode := "000000" })
  let advance (n i : Nat) : List (LoginAct ℚ) := List.replicate n (.advance i)
  [login] ++ advance 4 0 ++ [verify] ++ advance 6 1 ++ [verify] ++ advance 6 2 ++ [verify] ++
    advance 6 3 ++ [verify] ++ advance 6 4 ++ [verify, verify] ++ advance 1 5 ++ advance 1 6 ++
    advance 4 5 ++ advance 4 6 ++ [verify] ++ advance 1 7

def pendingChecks : AuthChecks ℚ where
  verifyPassword := fun plain hashed => plain = hashed
  verifyTotp := fun _ code _ => code = "123456"
  isTrustedProxy := fun _ => false
  credential := fun _ => .token { jti := 0, type := .totpPending, sub := "admin", exp := 300 }

def adminRow : AdminUser :=
  { id := 1, username := "admin", passwordHash := "password", totpSecret := "secret" }

theorem wrong_codes_bounded_twoAtOnce :
    wrongCodes "pending" (serveLogins pendingChecks 0 [adminRow] twoAtOnce).store ≤
        Sessions.peak (loginSystem pendingChecks) (verifying "pending") (initialState 0 [adminRow])
          twoAtOnce + 4 ∧
      wrongCodes "pending" (serveLogins pendingChecks 0 [adminRow] twoAtOnce).store = 6 ∧
      Sessions.peak (loginSystem pendingChecks) (verifying "pending") (initialState 0 [adminRow])
        twoAtOnce = 2 :=
  ⟨wrong_codes_bounded pendingChecks "pending" 0 [adminRow] twoAtOnce, by decide +kernel,
    by decide +kernel⟩

end Example

end Bound

end AmaExecutionCore.AdminAuth
