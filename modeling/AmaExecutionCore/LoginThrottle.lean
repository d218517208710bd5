import AmaExecutionCore.TotpThrottle

/-! How many wrong passwords one address gets through in any fifteen minutes in which none of its
logins succeeds, whatever the requests do between their awaits. -/
namespace AmaExecutionCore.AdminAuth

open ExpiringKeys (Store)

section Kinds

/-- The session is a login from the address at one of the stages. -/
def AdminSession.logsIn (ip : String) (stages : LoginStage → Bool) (c : AdminSession) : Bool :=
  match c.call with
  | .login _ stage => decide (c.ip = ip) && stages stage
  | .verifyTotp _ _ => false

def LoginStage.isInFlight : LoginStage → Bool
  | .finished _ => false
  | _ => true

/-- The address was not blocked, and a wrong password would still be counted. -/
def LoginStage.isPending : LoginStage → Bool
  | .authenticate | .incr _ => true
  | _ => false

def LoginStage.isCounting : LoginStage → Bool
  | .incr _ => true
  | _ => false

def LoginStage.isBlocking : LoginStage → Bool
  | .setex _ => true
  | _ => false

/-- The requests in flight that log in from the address. -/
def loggingIn (ip : String) : AdminSession → Bool :=
  AdminSession.logsIn ip LoginStage.isInFlight

end Kinds

section Windows

variable {K : Type} [Field K] [LinearOrder K]

/-- The window of `_BLOCK_SECONDS` that starts at a time, its end not included. -/
def within (start time : K) : Bool :=
  start ≤ time && time < start + ((blockSeconds : ℤ) : K)

def Attempt.isRejectedIn (ip : String) (start : K) : Attempt K → Bool
  | .passwordRejected other time => decide (other = ip) && within start time
  | _ => false

def Attempt.isCountedIn (ip : String) (start : K) : Attempt K → Bool
  | .failureCounted other time => decide (other = ip) && within start time
  | _ => false

def Attempt.isResetIn (ip : String) (start : K) : Attempt K → Bool
  | .failuresReset other time => decide (other = ip) && within start time
  | _ => false

def wrongPasswords (ip : String) (start : K) (w : AuthWorld K) : Nat :=
  w.history.countP (Attempt.isRejectedIn ip start)

def failuresCounted (ip : String) (start : K) (w : AuthWorld K) : Nat :=
  w.history.countP (Attempt.isCountedIn ip start)

/-- No login from the address clears its failures in the window. -/
def NoReset (ip : String) (start : K) (w : AuthWorld K) : Prop :=
  ∀ attempt ∈ w.history, attempt.isResetIn ip start = false

/-- What the key of the failures says of the window: a key from before it has counted one failure
at least that is not of the window, and a key of the window outlasts it. Of either no more than
four failures are counted, the sessions that still have to set the block apart. -/
def KeyCounts (start : K) (key : Option (ExpiringKeys.Entry K)) (counted blocking : Nat) : Prop :=
  match key with
  | none => counted ≤ 3 + blocking
  | some entry => counted + 1 ≤ min entry.value 4 + blocking ∨
      ((∀ expiry ∈ entry.expiresAt, start + ((blockSeconds : ℤ) : K) ≤ expiry) ∧
        counted ≤ 3 + min entry.value 4 + blocking)

variable {start now : K} {key : Option (ExpiringKeys.Entry K)} {counted blocking : Nat}

theorem KeyCounts.le (h : KeyCounts start key counted blocking) : counted ≤ 7 + blocking := by
  cases key with
  | none =>
    have hle : counted ≤ 3 + blocking := h
    omega
  | some entry =>
    rcases h with hold | ⟨-, hnew⟩ <;> omega

/-- Before the window nothing is counted, and a key that is there has counted something. -/
theorem KeyCounts.before (h : ∀ entry ∈ key, 1 ≤ entry.value) : KeyCounts start key 0 blocking := by
  cases key with
  | none => exact Nat.zero_le _
  | some entry =>
    have hvalue := h entry rfl
    exact .inl (by omega)

section Commands

variable {κ : Type} [DecidableEq κ] {store : Store κ K} {id : κ}

omit [DecidableEq κ] in
theorem KeyCounts.of_expired (h : KeyCounts start (store id) counted blocking)
    (hnow : now < start + ((blockSeconds : ℤ) : K)) (hfind : store.find now id = none) :
    counted ≤ 3 + blocking := by
  cases hid : store id with
  | none =>
    rw [hid] at h
    exact h
  | some entry =>
    rw [hid] at h
    rcases h with hold | ⟨hexpiry, -⟩
    · omega
    · have hlive : store.find now id = some entry := Store.find_eq_some_iff.mpr
        ⟨hid, ExpiringKeys.Entry.isLive_eq_true_iff.mpr
          fun expiry he => hnow.trans_le (hexpiry expiry he)⟩
      rw [hfind] at hlive
      cases hlive

/-- One more is counted, and at the limit one more session sets the block. -/
theorem KeyCounts.incr (h : KeyCounts start (store id) counted blocking)
    (hnow : now < start + ((blockSeconds : ℤ) : K)) :
    KeyCounts start (store.incr now id id) (counted + 1)
      (blocking + (decide (maxFailures ≤ store.count now id + 1)).toNat) := by
  rw [Store.incr_self]
  cases hfind : store.find now id with
  | none =>
    have hle := h.of_expired hnow hfind
    have hzero : store.count now id = 0 := by rw [Store.count, hfind, Option.elim_none]
    rw [hzero]
    exact .inr ⟨by simp, by dsimp only; omega⟩
  | some entry =>
    have hvalue : store.count now id = entry.value := by rw [Store.count, hfind, Option.elim_some]
    rw [(Store.find_eq_some_iff.mp hfind).1] at h
    rw [hvalue, maxFailures, Option.bind_some]
    have hroom : min (entry.value + 1) 4 + (decide (5 ≤ entry.value + 1)).toNat =
        min entry.value 4 + 1 := by
      by_cases hlimit : 5 ≤ entry.value + 1
      · rw [decide_eq_true hlimit, Bool.toNat_true]
        omega
      · rw [decide_eq_false hlimit, Bool.toNat_false]
        omega
    rcases h with hold | ⟨hexpiry, hnew⟩
    · exact .inl (by dsimp only; omega)
    · exact .inr ⟨hexpiry, by dsimp only; omega⟩

theorem KeyCounts.expire [IsStrictOrderedRing K] (h : KeyCounts start (store id) counted blocking)
    (hstart : start ≤ now) (hnow : now < start + ((blockSeconds : ℤ) : K)) :
    KeyCounts start (store.expire now id ((failuresTtl : ℤ) : K) id) counted blocking := by
  rw [Store.expire_self]
  cases hfind : store.find now id with
  | none => exact h.of_expired hnow hfind
  | some entry =>
    rw [(Store.find_eq_some_iff.mp hfind).1] at h
    rcases h with hold | ⟨-, hnew⟩
    · exact .inl hold
    · refine .inr ⟨fun expiry hexpiry => ?_, hnew⟩
      rw [← Option.some.inj hexpiry]
      exact add_le_add_left hstart _

end Commands

end Windows

section Frames

variable {K : Type} [Field K] [LinearOrder K] [FloorRing K] {checks : AuthChecks K}
variable {w : AuthWorld K} {c : AdminSession} {ip : String}

/-- What happened says of the failures of the address. -/
def Attempt.concerns (ip : String) : Attempt K → Bool
  | .passwordRejected other _ | .failureCounted other _ | .failuresReset other _ =>
    decide (other = ip)
  | _ => false

/-- What leaves the failures of an address and its block alone. -/
structure Unaffected (ip : String) (w w' : AuthWorld K) : Prop where
  now : w.now ≤ w'.now
  failures : w'.redis (.failures ip) = w.redis (.failures ip)
  blocked : w'.redis (.blocked ip) = w.redis (.blocked ip)
  history : ∃ added, w'.history = w.history ++ added ∧
    ∀ attempt ∈ added, attempt.concerns ip = false

namespace Unaffected

variable {w' w'' : AuthWorld K}

omit [Field K] [FloorRing K] in
theorem refl (w : AuthWorld K) : Unaffected ip w w where
  now := le_refl _
  failures := rfl
  blocked := rfl
  history := ⟨[], (List.append_nil _).symm, fun _ hmem => absurd hmem List.not_mem_nil⟩

omit [Field K] [FloorRing K] in
theorem trans (h : Unaffected ip w w') (h' : Unaffected ip w' w'') : Unaffected ip w w'' where
  now := h.now.trans h'.now
  failures := h'.failures.trans h.failures
  blocked := h'.blocked.trans h.blocked
  history := by
    obtain ⟨added, heq, hadded⟩ := h.history
    obtain ⟨added', heq', hadded'⟩ := h'.history
    refine ⟨added ++ added', by rw [heq', heq, List.append_assoc], ?_⟩
    intro attempt hmem
    rcases List.mem_append.mp hmem with hmem | hmem
    · exact hadded attempt hmem
    · exact hadded' attempt hmem

omit [Field K] [FloorRing K] in
theorem happens {attempt : Attempt K} (h : attempt.concerns ip = false) :
    Unaffected ip w (w.happens attempt) :=
  { refl w with
    history := ⟨[attempt], rfl, fun _ hmem => List.mem_singleton.mp hmem ▸ h⟩ }

omit [Field K] [FloorRing K] in
theorem setRedis {redis : Store ThrottleKey K}
    (hfailures : redis (.failures ip) = w.redis (.failures ip))
    (hblocked : redis (.blocked ip) = w.redis (.blocked ip)) :
    Unaffected ip w { w with redis := redis } :=
  { refl w with failures := hfailures, blocked := hblocked }

omit [Field K] [FloorRing K] in
theorem appendAudit (row : AdminUser) (action : String) :
    Unaffected ip w (w.appendAudit row action c) := { refl w with failures := rfl }

omit [Field K] [FloorRing K] in
theorem issue (token : Token) : Unaffected ip w (w.issue token) := { refl w with failures := rfl }

/-- Only what a login from the address does once it is let in concerns its failures. -/
theorem loginNext (payload : LoginRequest) (stage : LoginStage) (h : c.ip ≠ ip ∨
    stage ≠ .authenticate ∧ stage.isCounting = false ∧ (∀ row, stage ≠ .expire row) ∧
      stage.isBlocking = false ∧ ∀ row, stage ≠ .resetFailures row) :
    Unaffected ip w (loginNext checks payload c w stage).1 := by
  have hfailures (hne : c.ip ≠ ip) : ThrottleKey.failures ip ≠ .failures c.ip := by
    simpa using hne.symm
  have hblocked (hne : c.ip ≠ ip) : ThrottleKey.blocked ip ≠ .blocked c.ip := by
    simpa using hne.symm
  have hconcerns (hne : c.ip ≠ ip) : decide (c.ip = ip) = false := decide_eq_false hne
  cases stage with
  | isBlocked =>
    rw [AdminAuth.loginNext]
    split <;> exact refl w
  | authenticate =>
    have hne : c.ip ≠ ip := h.resolve_right (by simp)
    rw [AdminAuth.loginNext, authenticate]
    split
    · exact happens rfl
    · exact happens (hconcerns hne)
  | incr row =>
    have hne : c.ip ≠ ip := h.resolve_right (by simp [LoginStage.isCounting])
    exact (setRedis (Store.incr_of_ne (hfailures hne)) (Store.incr_of_ne (by simp))).trans
      (happens (hconcerns hne))
  | expire row =>
    have hne : c.ip ≠ ip := h.resolve_right (by simp)
    exact setRedis (Store.expire_of_ne (hfailures hne)) (Store.expire_of_ne (by simp))
  | setex row =>
    have hne : c.ip ≠ ip := h.resolve_right (by simp [LoginStage.isBlocking])
    exact setRedis (Store.setex_of_ne (by simp)) (Store.setex_of_ne (hblocked hne))
  | appendAudit row =>
    cases row with
    | none => exact refl w
    | some row => exact appendAudit row _
  | resetFailures row =>
    have hne : c.ip ≠ ip := h.resolve_right (by simp)
    exact (setRedis (Store.delete_of_ne (hfailures hne)) (Store.delete_of_ne (by simp))).trans
      (happens (hconcerns hne))
  | createToken row => exact (issue _).trans (happens rfl)
  | finished response => exact refl w

theorem totpNext (payload : VerifyTotpRequest) (stage : TotpStage) :
    Unaffected ip w (totpNext checks payload c w stage).1 := by
  cases stage with
  | getFailCount =>
    rw [AdminAuth.totpNext]
    split <;> exact refl w
  | decodeToken =>
    rw [AdminAuth.totpNext]
    split
    · exact refl w
    · exact happens rfl
  | verify pending =>
    rw [AdminAuth.totpNext, verifyCode]
    split
    · exact refl w
    · split <;> exact happens rfl
  | incr row =>
    exact (setRedis (Store.incr_of_ne (by simp)) (Store.incr_of_ne (by simp))).trans (happens rfl)
  | expire row => exact setRedis (Store.expire_of_ne (by simp)) (Store.expire_of_ne (by simp))
  | appendAudit row => exact appendAudit row _
  | appendSuccess row pending => exact (appendAudit row _).trans ((issue _).trans (issue _))
  | finished response => exact refl w

theorem handle (event : AdminEvent K) : Unaffected ip w (w.handle checks event) := by
  cases event with
  | elapse time => exact { refl w with now := le_max_left _ _ }
  | setAdminUsers rows => exact { refl w with failures := rfl }
  | refresh refreshToken csrf => exact { refl w with failures := rfl }
  | logout refreshToken csrf credentials => exact { refl w with failures := rfl }

end Unaffected

end Frames

section Bound

variable {K : Type} [Field K] [LinearOrder K]

/-- In the window, while no login from the address clears its failures, the address is blocked to
the end of the window or its key counts what is in it; and the sessions that were let in make up
for the rest of the bound. -/
structure FailuresBounded (ip : String) (start : K) (k : Nat) (s : LoginState K) : Prop where
  values : ∀ entry ∈ s.store.redis (.failures ip), 1 ≤ entry.value
  before : s.store.now < start →
    failuresCounted ip start s.store = 0 ∧ wrongPasswords ip start s.store = 0
  window : start ≤ s.store.now → s.store.now < start + ((blockSeconds : ℤ) : K) →
    NoReset ip start s.store →
      (s.store.redis.HeldUntil (.blocked ip) (start + ((blockSeconds : ℤ) : K)) ∨
        KeyCounts start (s.store.redis (.failures ip)) (failuresCounted ip start s.store)
          (Sessions.count (AdminSession.logsIn ip LoginStage.isBlocking) s)) ∧
      failuresCounted ip start s.store +
        Sessions.count (AdminSession.logsIn ip LoginStage.isPending) s ≤ 7 + k
  rejected : s.store.now < start + ((blockSeconds : ℤ) : K) →
    wrongPasswords ip start s.store ≤ failuresCounted ip start s.store +
      Sessions.count (AdminSession.logsIn ip LoginStage.isCounting) s
  after : start + ((blockSeconds : ℤ) : K) ≤ s.store.now → NoReset ip start s.store →
    wrongPasswords ip start s.store ≤ 7 + k

variable {ip : String} {start : K} {k : Nat} {s t : LoginState K} {row : Option AdminUser}

omit [Field K] [LinearOrder K] in
/-- A session that sets the block is not one that was just let in. -/
theorem blocking_add_pending_le (ip : String) (s : LoginState K) :
    Sessions.count (AdminSession.logsIn ip LoginStage.isBlocking) s +
      Sessions.count (AdminSession.logsIn ip LoginStage.isPending) s ≤
        Sessions.count (loggingIn ip) s := by
  apply Sessions.count_add_count_le
  intro c
  rw [loggingIn, AdminSession.logsIn.eq_def, AdminSession.logsIn.eq_def,
    AdminSession.logsIn.eq_def]
  split
  · rename_i stage _
    have hstage : stage.isBlocking.toNat + stage.isPending.toNat ≤ stage.isInFlight.toNat := by
      cases stage <;>
        simp [LoginStage.isBlocking, LoginStage.isPending, LoginStage.isInFlight]
    by_cases hip : c.ip = ip
    · simpa [hip] using hstage
    · simp [hip]
  · exact Nat.le_refl 0

omit [Field K] [LinearOrder K] in
theorem counting_le_pending (ip : String) (s : LoginState K) :
    Sessions.count (AdminSession.logsIn ip LoginStage.isCounting) s ≤
      Sessions.count (AdminSession.logsIn ip LoginStage.isPending) s := by
  apply Sessions.count_le_count
  intro c hc
  rw [AdminSession.logsIn.eq_def] at *
  split at hc
  · rename_i stage _
    rw [Bool.and_eq_true] at hc ⊢
    refine ⟨hc.1, ?_⟩
    cases stage <;> simp_all [LoginStage.isCounting, LoginStage.isPending]
  · exact hc

theorem within_eq_true_iff {time : K} :
    within start time = true ↔ start ≤ time ∧ time < start + ((blockSeconds : ℤ) : K) := by
  rw [within, Bool.and_eq_true, decide_eq_true_iff, decide_eq_true_iff]

section History

variable {w w' : AuthWorld K}

omit [Field K] in
theorem Unaffected.countP_eq (h : Unaffected ip w w') {p : Attempt K → Bool}
    (hp : ∀ attempt, p attempt = true → attempt.concerns ip = true) :
    w'.history.countP p = w.history.countP p := by
  obtain ⟨added, heq, hadded⟩ := h.history
  have hzero : added.countP p = 0 := by
    rw [List.countP_eq_zero]
    intro attempt hmem hattempt
    exact absurd (hp attempt hattempt) (by rw [hadded attempt hmem]; simp)
  rw [heq, List.countP_append, hzero, Nat.add_zero]

theorem Unaffected.wrongPasswords_eq (h : Unaffected ip w w') :
    wrongPasswords ip start w' = wrongPasswords ip start w := by
  apply h.countP_eq
  intro attempt hattempt
  cases attempt <;> simp_all [Attempt.isRejectedIn, Attempt.concerns]

theorem Unaffected.failuresCounted_eq (h : Unaffected ip w w') :
    failuresCounted ip start w' = failuresCounted ip start w := by
  apply h.countP_eq
  intro attempt hattempt
  cases attempt <;> simp_all [Attempt.isCountedIn, Attempt.concerns]

theorem Unaffected.noReset (h : Unaffected ip w w') (hreset : NoReset ip start w') :
    NoReset ip start w := by
  obtain ⟨added, heq, -⟩ := h.history
  intro attempt hmem
  exact hreset attempt (heq ▸ List.mem_append_left _ hmem)

end History

namespace FailuresBounded

theorem wrongPasswords_le (h : FailuresBounded ip start k s)
    (hreset : NoReset ip start s.store) : wrongPasswords ip start s.store ≤ k + 7 := by
  rcases lt_or_ge s.store.now start with hbefore | hstart
  · have hzero := (h.before hbefore).2
    omega
  · rcases lt_or_ge s.store.now (start + ((blockSeconds : ℤ) : K)) with hwithin | hafter
    · have hbound := (h.window hstart hwithin hreset).2
      have hrejected := h.rejected hwithin
      have hle := counting_le_pending ip s
      omega
    · have hbound := h.after hafter hreset
      omega

/-- A step that has nothing to do with the failures of the address, and lets nobody in. -/
theorem unaffected (h : FailuresBounded ip start k s) (hstore : Unaffected ip s.store t.store)
    (hpending : Sessions.count (AdminSession.logsIn ip LoginStage.isPending) t ≤
      Sessions.count (AdminSession.logsIn ip LoginStage.isPending) s)
    (hcounting : Sessions.count (AdminSession.logsIn ip LoginStage.isCounting) t =
      Sessions.count (AdminSession.logsIn ip LoginStage.isCounting) s)
    (hblocking : Sessions.count (AdminSession.logsIn ip LoginStage.isBlocking) t =
      Sessions.count (AdminSession.logsIn ip LoginStage.isBlocking) s)
    (hflight : Sessions.count (loggingIn ip) t ≤ k) : FailuresBounded ip start k t where
  values := hstore.failures ▸ h.values
  before := by
    intro hbefore
    rw [hstore.failuresCounted_eq, hstore.wrongPasswords_eq]
    exact h.before (hstore.now.trans_lt hbefore)
  window := by
    intro hstart hwithin hreset
    have hwithin' := hstore.now.trans_lt hwithin
    rw [hstore.failuresCounted_eq, hstore.failures, hblocking]
    simp only [Store.HeldUntil, hstore.blocked]
    rcases lt_or_ge s.store.now start with hbefore | hstart'
    · have hle := blocking_add_pending_le ip t
      rw [(h.before hbefore).1]
      exact ⟨.inr (.before h.values), by omega⟩
    · obtain ⟨hkey, hbound⟩ := h.window hstart' hwithin' (hstore.noReset hreset)
      exact ⟨hkey, (Nat.add_le_add_left hpending _).trans hbound⟩
  rejected := by
    intro hwithin
    rw [hstore.failuresCounted_eq, hstore.wrongPasswords_eq, hcounting]
    exact h.rejected (hstore.now.trans_lt hwithin)
  after := by
    intro hafter hreset
    have hle := h.wrongPasswords_le (hstore.noReset hreset)
    rw [hstore.wrongPasswords_eq]
    omega

def Moved (ip : String) (s t : LoginState K) (stage stage' : LoginStage) : Prop :=
  ∀ stages : LoginStage → Bool,
    Sessions.count (AdminSession.logsIn ip stages) t + (stages stage).toNat =
      Sessions.count (AdminSession.logsIn ip stages) s + (stages stage').toNat

variable {stage stage' : LoginStage}

theorem enter (h : FailuresBounded ip start k s) (hmoved : Moved ip s t .isBlocked .authenticate)
    (hstore : t.store = s.store)
    (hopen : s.store.redis.contains s.store.now (.blocked ip) = false)
    (hflight : Sessions.count (loggingIn ip) t ≤ k) : FailuresBounded ip start k t := by
  have hcounting := hmoved LoginStage.isCounting
  have hblocking := hmoved LoginStage.isBlocking
  simp only [LoginStage.isCounting, LoginStage.isBlocking, Nat.add_right_cancel_iff]
    at hcounting hblocking
  refine ⟨?_, ?_, ?_, ?_, ?_⟩
  · rw [hstore]
    exact h.values
  · rw [hstore]
    exact h.before
  · rw [hstore, hblocking]
    intro hstart hwithin hreset
    rcases (h.window hstart hwithin hreset).1 with hheld | hkey
    · rw [hheld.contains hwithin] at hopen
      cases hopen
    · have hle := blocking_add_pending_le ip t
      have hcounted := hkey.le
      exact ⟨.inr hkey, by omega⟩
  · rw [hstore, hcounting]
    exact h.rejected
  · rw [hstore]
    exact h.after

theorem reject (h : FailuresBounded ip start k s) (hmoved : Moved ip s t .authenticate (.incr row))
    (hstore : t.store = s.store.happens (.passwordRejected ip s.store.now)) :
    FailuresBounded ip start k t := by
  have hpending := hmoved LoginStage.isPending
  have hcounting := hmoved LoginStage.isCounting
  have hblocking := hmoved LoginStage.isBlocking
  simp only [LoginStage.isPending, LoginStage.isCounting, LoginStage.isBlocking,
    Nat.add_right_cancel_iff, Bool.toNat_true, Bool.toNat_false] at hpending hcounting hblocking
  have hsame : t.store.now = s.store.now ∧ t.store.redis = s.store.redis := by
    rw [hstore]
    exact ⟨rfl, rfl⟩
  have hcounted : failuresCounted ip start t.store = failuresCounted ip start s.store := by
    rw [hstore]
    exact List.countP_append
  have hrejected : wrongPasswords ip start t.store = wrongPasswords ip start s.store +
      (within start s.store.now).toNat := by
    rw [hstore, wrongPasswords, AuthWorld.happens, List.countP_append, List.countP_singleton,
      Attempt.isRejectedIn, decide_eq_true rfl, Bool.true_and]
    cases within start s.store.now <;> rfl
  have hreset (hno : NoReset ip start t.store) : NoReset ip start s.store := by
    intro attempt hmem
    exact hno attempt (hstore ▸ List.mem_append_left _ hmem)
  refine ⟨?_, ?_, ?_, ?_, ?_⟩
  · rw [hsame.2]
    exact h.values
  · rw [hsame.1, hcounted, hrejected]
    intro hbefore
    have hout : within start s.store.now = false := by
      rw [Bool.eq_false_iff, Ne, within_eq_true_iff]
      exact fun hin => absurd hin.1 (not_le.mpr hbefore)
    rw [hout]
    exact h.before hbefore
  · rw [hsame.1, hsame.2, hcounted, hpending, hblocking]
    exact fun hstart hwithin hno => h.window hstart hwithin (hreset hno)
  · rw [hsame.1, hcounted, hrejected]
    intro hwithin
    have hle := h.rejected hwithin
    have hone : (within start s.store.now).toNat ≤ 1 := Bool.toNat_le _
    omega
  · rw [hsame.1, hrejected]
    intro hafter hno
    have hout : within start s.store.now = false := by
      rw [Bool.eq_false_iff, Ne, within_eq_true_iff]
      exact fun hin => absurd hin.2 (not_lt.mpr hafter)
    rw [hout]
    exact h.after hafter (hreset hno)

/-- A failure is counted: in the window under a key of the window or an older one. -/
theorem incr (h : FailuresBounded ip start k s) (hmoved : Moved ip s t (.incr row) stage')
    (hpending' : stage'.isPending = false) (hcounting' : stage'.isCounting = false)
    (hblocking' : stage'.isBlocking =
      decide (maxFailures ≤ s.store.redis.count s.store.now (.failures ip) + 1))
    (hstore : t.store = { s.store with
      redis := s.store.redis.incr s.store.now (.failures ip) }.happens
        (.failureCounted ip s.store.now)) : FailuresBounded ip start k t := by
  have hpending := hmoved LoginStage.isPending
  have hcounting := hmoved LoginStage.isCounting
  have hblocking := hmoved LoginStage.isBlocking
  rw [hpending'] at hpending
  rw [hcounting'] at hcounting
  rw [hblocking'] at hblocking
  simp only [LoginStage.isPending, LoginStage.isCounting, LoginStage.isBlocking, Bool.toNat_true,
    Bool.toNat_false, Nat.add_zero] at hpending hcounting hblocking
  have hsame : t.store.now = s.store.now ∧
      t.store.redis = s.store.redis.incr s.store.now (.failures ip) := by
    rw [hstore]
    exact ⟨rfl, rfl⟩
  have hrejected : wrongPasswords ip start t.store = wrongPasswords ip start s.store := by
    rw [hstore]
    exact List.countP_append
  have hcounted : failuresCounted ip start t.store = failuresCounted ip start s.store +
      (within start s.store.now).toNat := by
    rw [hstore, failuresCounted, AuthWorld.happens, List.countP_append, List.countP_singleton,
      Attempt.isCountedIn, decide_eq_true rfl, Bool.true_and]
    cases within start s.store.now <;> rfl
  have hreset (hno : NoReset ip start t.store) : NoReset ip start s.store := by
    intro attempt hmem
    exact hno attempt (hstore ▸ List.mem_append_left _ hmem)
  refine ⟨?_, ?_, ?_, ?_, ?_⟩
  · rw [hsame.2, Store.incr_self]
    intro entry hentry
    rw [← Option.some.inj hentry]
    exact Nat.le_add_left _ _
  · rw [hsame.1, hcounted, hrejected]
    intro hbefore
    have hout : within start s.store.now = false := by
      rw [Bool.eq_false_iff, Ne, within_eq_true_iff]
      exact fun hin => absurd hin.1 (not_le.mpr hbefore)
    rw [hout]
    exact h.before hbefore
  · rw [hsame.1, hsame.2, hcounted, hblocking]
    intro hstart hwithin hno
    obtain ⟨hkey, hbound⟩ := h.window hstart hwithin (hreset hno)
    rw [within_eq_true_iff.mpr ⟨hstart, hwithin⟩, Bool.toNat_true]
    refine ⟨hkey.imp ?_ fun hkey => hkey.incr hwithin, by omega⟩
    intro hheld
    rw [Store.HeldUntil, Store.incr_of_ne (by simp)]
    exact hheld
  · rw [hsame.1, hcounted, hrejected]
    intro hwithin
    have hle := h.rejected hwithin
    rcases lt_or_ge s.store.now start with hbefore | hstart
    · have hzero := (h.before hbefore).2
      omega
    · rw [within_eq_true_iff.mpr ⟨hstart, hwithin⟩, Bool.toNat_true]
      omega
  · rw [hsame.1, hrejected]
    exact fun hafter hno => h.after hafter (hreset hno)

theorem redis (h : FailuresBounded ip start k s) {store : Store ThrottleKey K}
    (hstore : t.store = { s.store with redis := store })
    (hpending : Sessions.count (AdminSession.logsIn ip LoginStage.isPending) t =
      Sessions.count (AdminSession.logsIn ip LoginStage.isPending) s)
    (hcounting : Sessions.count (AdminSession.logsIn ip LoginStage.isCounting) t =
      Sessions.count (AdminSession.logsIn ip LoginStage.isCounting) s)
    (hvalues : ∀ entry ∈ store (.failures ip), 1 ≤ entry.value)
    (hkey : start ≤ s.store.now → s.store.now < start + ((blockSeconds : ℤ) : K) →
      s.store.redis.HeldUntil (.blocked ip) (start + ((blockSeconds : ℤ) : K)) ∨
        KeyCounts start (s.store.redis (.failures ip)) (failuresCounted ip start s.store)
          (Sessions.count (AdminSession.logsIn ip LoginStage.isBlocking) s) →
      store.HeldUntil (.blocked ip) (start + ((blockSeconds : ℤ) : K)) ∨
        KeyCounts start (store (.failures ip)) (failuresCounted ip start s.store)
          (Sessions.count (AdminSession.logsIn ip LoginStage.isBlocking) t)) :
    FailuresBounded ip start k t := by
  have hsame : t.store.now = s.store.now ∧ t.store.redis = store := by
    rw [hstore]
    exact ⟨rfl, rfl⟩
  have hcounted : failuresCounted ip start t.store = failuresCounted ip start s.store := by
    rw [hstore]
    rfl
  have hrejected : wrongPasswords ip start t.store = wrongPasswords ip start s.store := by
    rw [hstore]
    rfl
  have hreset (hno : NoReset ip start t.store) : NoReset ip start s.store := by
    rw [hstore] at hno
    exact hno
  refine ⟨?_, ?_, ?_, ?_, ?_⟩
  · rw [hsame.2]
    exact hvalues
  · rw [hsame.1, hcounted, hrejected]
    exact h.before
  · rw [hsame.1, hsame.2, hcounted, hpending]
    intro hstart hwithin hno
    obtain ⟨hold, hbound⟩ := h.window hstart hwithin (hreset hno)
    exact ⟨hkey hstart hwithin hold, hbound⟩
  · rw [hsame.1, hcounted, hrejected, hcounting]
    exact h.rejected
  · rw [hsame.1, hrejected]
    exact fun hafter hno => h.after hafter (hreset hno)

theorem expire [IsStrictOrderedRing K] (h : FailuresBounded ip start k s)
    (hmoved : Moved ip s t (.expire row) (.appendAudit row))
    (hstore : t.store = { s.store with
      redis := s.store.redis.expire s.store.now (.failures ip) ((failuresTtl : ℤ) : K) }) :
    FailuresBounded ip start k t := by
  refine h.redis hstore (hmoved LoginStage.isPending) (hmoved LoginStage.isCounting) ?_ ?_
  · intro entry hentry
    rw [Store.expire_self] at hentry
    obtain ⟨old, hold, rfl⟩ := Option.map_eq_some_iff.mp hentry
    exact h.values old (Store.find_eq_some_iff.mp hold).1
  · intro hstart hwithin hold
    have hblocking : Sessions.count (AdminSession.logsIn ip LoginStage.isBlocking) t =
      Sessions.count (AdminSession.logsIn ip LoginStage.isBlocking) s :=
      hmoved LoginStage.isBlocking
    rw [hblocking]
    refine hold.imp ?_ fun hkey => hkey.expire hstart hwithin
    intro hheld
    rw [Store.HeldUntil, Store.expire_of_ne (by simp)]
    exact hheld

theorem setex [IsStrictOrderedRing K] (h : FailuresBounded ip start k s)
    (hmoved : Moved ip s t (.setex row) (.appendAudit row))
    (hstore : t.store = { s.store with
      redis := s.store.redis.setex s.store.now (.blocked ip) ((blockSeconds : ℤ) : K) 1 }) :
    FailuresBounded ip start k t := by
  refine h.redis hstore (hmoved LoginStage.isPending) (hmoved LoginStage.isCounting) ?_ ?_
  · rw [Store.setex_of_ne (by simp)]
    exact h.values
  · intro hstart hwithin hold
    refine .inl ⟨_, Store.setex_self _ _ _ _ _, fun expiry hexpiry => ?_⟩
    rw [← Option.some.inj hexpiry]
    exact add_le_add_left hstart _

theorem reset (h : FailuresBounded ip start k s) {user : AdminUser}
    (hmoved : Moved ip s t (.resetFailures user) (.createToken user))
    (hstore : t.store = { s.store with redis := s.store.redis.delete (.failures ip) }.happens
      (.failuresReset ip s.store.now)) : FailuresBounded ip start k t := by
  have hcounting : Sessions.count (AdminSession.logsIn ip LoginStage.isCounting) t =
      Sessions.count (AdminSession.logsIn ip LoginStage.isCounting) s :=
    hmoved LoginStage.isCounting
  have hsame : t.store.now = s.store.now ∧
      t.store.redis = s.store.redis.delete (.failures ip) := by
    rw [hstore]
    exact ⟨rfl, rfl⟩
  have hcounted : failuresCounted ip start t.store = failuresCounted ip start s.store := by
    rw [hstore]
    exact List.countP_append
  have hrejected : wrongPasswords ip start t.store = wrongPasswords ip start s.store := by
    rw [hstore]
    exact List.countP_append
  have hreset (hno : NoReset ip start t.store) :
      NoReset ip start s.store ∧ within start s.store.now = false := by
    rw [hstore] at hno
    constructor
    · exact fun attempt hmem => hno attempt (List.mem_append_left _ hmem)
    · have hlast := hno _ (List.mem_append_right _ List.mem_cons_self)
      rwa [Attempt.isResetIn, decide_eq_true rfl, Bool.true_and] at hlast
  refine ⟨?_, ?_, ?_, ?_, ?_⟩
  · rw [hsame.2]
    intro entry hentry
    rw [Store.delete_self] at hentry
    cases hentry
  · rw [hsame.1, hcounted, hrejected]
    exact h.before
  · rw [hsame.1]
    intro hstart hwithin hno
    have hout := (hreset hno).2
    rw [within_eq_true_iff.mpr ⟨hstart, hwithin⟩] at hout
    cases hout
  · rw [hsame.1, hcounted, hrejected, hcounting]
    exact h.rejected
  · rw [hsame.1, hrejected]
    exact fun hafter hno => h.after hafter (hreset hno).1

theorem leave (h : FailuresBounded ip start k s) (hmoved : Moved ip s t stage stage')
    (huntouched : Unaffected ip s.store t.store)
    (hstage : stage.isCounting = false ∧ stage.isBlocking = false)
    (hstage' : stage'.isPending = false ∧ stage'.isCounting = false ∧ stage'.isBlocking = false)
    (hflight : Sessions.count (loggingIn ip) t ≤ k) : FailuresBounded ip start k t := by
  have hpending := hmoved LoginStage.isPending
  have hcounting := hmoved LoginStage.isCounting
  have hblocking := hmoved LoginStage.isBlocking
  rw [hstage'.1, Bool.toNat_false] at hpending
  rw [hstage'.2.1, hstage.1] at hcounting
  rw [hstage'.2.2, hstage.2] at hblocking
  exact h.unaffected huntouched (by omega) hcounting hblocking hflight

end FailuresBounded

section Runs

variable [FloorRing K] [IsStrictOrderedRing K] {checks : AuthChecks K} {c : AdminSession} {i : Nat}

omit [IsStrictOrderedRing K] in
theorem count_logsIn_advance (checks : AuthChecks K) (ip : String) (stages : LoginStage → Bool)
    (hc : s.sessions[i]? = some c) :
    Sessions.count (AdminSession.logsIn ip stages)
        (Sessions.step (loginSystem checks) s (.advance i)) + (c.logsIn ip stages).toNat =
      Sessions.count (AdminSession.logsIn ip stages) s +
        ((c.next checks s.store).2.logsIn ip stages).toNat :=
  Sessions.count_advance hc

/-- The login of `c` went from `s` to `t` by its next step. -/
structure LoginStep (checks : AuthChecks K) (payload : LoginRequest) (c : AdminSession)
    (stage : LoginStage) (s t : LoginState K) : Prop where
  moved : FailuresBounded.Moved c.ip s t stage (loginNext checks payload c s.store stage).2
  store : t.store = (loginNext checks payload c s.store stage).1

variable {payload : LoginRequest} {stage : LoginStage}

omit [IsStrictOrderedRing K] in
theorem LoginStep.advance (hc : s.sessions[i]? = some c) (hcall : c.call = .login payload stage) :
    LoginStep checks payload c stage s (Sessions.step (loginSystem checks) s (.advance i)) := by
  have hnext : c.next checks s.store = ((loginNext checks payload c s.store stage).1,
      { c with call := .login payload (loginNext checks payload c s.store stage).2 }) := by
    rw [AdminSession.next, hcall]
  constructor
  · intro stages
    have hcount := count_logsIn_advance checks c.ip stages hc
    rw [hnext, AdminSession.logsIn.eq_def, AdminSession.logsIn.eq_def, hcall] at hcount
    simpa using hcount
  · rw [Sessions.step_advance hc]
    exact congrArg Prod.fst hnext

omit [IsStrictOrderedRing K] in
/-- Where an address is blocked the login ends, and where it is not it is let in. -/
theorem FailuresBounded.isBlocked (h : FailuresBounded c.ip start k s)
    (hstep : LoginStep checks payload c .isBlocked s t)
    (hflight : Sessions.count (loggingIn c.ip) t ≤ k) : FailuresBounded c.ip start k t := by
  have hmoved := hstep.moved
  have hstore := hstep.store
  rw [AdminAuth.loginNext] at hmoved hstore
  by_cases hblocked : s.store.redis.contains s.store.now (.blocked c.ip) = true
  · rw [if_pos hblocked] at hmoved hstore
    exact h.leave hmoved (hstore ▸ .refl _) ⟨rfl, rfl⟩ ⟨rfl, rfl, rfl⟩ hflight
  · rw [if_neg hblocked] at hmoved hstore
    exact h.enter hmoved hstore (Bool.eq_false_of_not_eq_true hblocked) hflight

omit [IsStrictOrderedRing K] in
theorem FailuresBounded.authenticate (h : FailuresBounded c.ip start k s)
    (hstep : LoginStep checks payload c .authenticate s t)
    (hflight : Sessions.count (loggingIn c.ip) t ≤ k) : FailuresBounded c.ip start k t := by
  have hmoved := hstep.moved
  have hstore := hstep.store
  rw [AdminAuth.loginNext, AdminAuth.authenticate] at hmoved hstore
  split at hmoved
  · rename_i row hrow
    rw [hrow] at hstore
    exact h.leave hmoved (hstore ▸ .happens rfl) ⟨rfl, rfl⟩ ⟨rfl, rfl, rfl⟩ hflight
  · rename_i hnone
    rw [hnone] at hstore
    exact h.reject hmoved hstore

/-- After the count the login blocks the address exactly where the limit is reached. -/
theorem LoginStage.afterCount_counted (count : Nat) (row : Option AdminUser) :
    (afterCount count row).isPending = false ∧ (afterCount count row).isCounting = false ∧
      (afterCount count row).isBlocking = decide (maxFailures ≤ count) := by
  rw [afterCount]
  by_cases hlimit : maxFailures ≤ count
  · rw [if_pos hlimit, decide_eq_true hlimit]
    exact ⟨rfl, rfl, rfl⟩
  · rw [if_neg hlimit, decide_eq_false hlimit]
    exact ⟨rfl, rfl, rfl⟩

omit [IsStrictOrderedRing K] in
theorem FailuresBounded.count (h : FailuresBounded c.ip start k s)
    (hstep : LoginStep checks payload c (.incr row) s t) : FailuresBounded c.ip start k t := by
  have hmoved := hstep.moved
  rw [AdminAuth.loginNext] at hmoved
  by_cases hone : s.store.redis.count s.store.now (.failures c.ip) + 1 = 1
  · simp only [if_pos hone] at hmoved
    exact h.incr hmoved rfl rfl (by rw [hone]; rfl) hstep.store
  · simp only [if_neg hone] at hmoved
    have hcounted := LoginStage.afterCount_counted
      (s.store.redis.count s.store.now (.failures c.ip) + 1) row
    exact h.incr hmoved hcounted.1 hcounted.2.1 hcounted.2.2 hstep.store

theorem FailuresBounded.login (h : FailuresBounded c.ip start k s)
    (hstep : LoginStep checks payload c stage s t)
    (hflight : Sessions.count (loggingIn c.ip) t ≤ k) : FailuresBounded c.ip start k t := by
  have hquiet (hstage : stage.isCounting = false ∧ stage.isBlocking = false)
      (huntouched : Unaffected c.ip s.store (loginNext checks payload c s.store stage).1)
      (hdone : ∃ stage', (loginNext checks payload c s.store stage).2 = stage' ∧
        stage'.isPending = false ∧ stage'.isCounting = false ∧ stage'.isBlocking = false) :
      FailuresBounded c.ip start k t := by
    obtain ⟨stage', hnext, hstage'⟩ := hdone
    exact h.leave (hnext ▸ hstep.moved) (hstep.store ▸ huntouched) hstage hstage' hflight
  cases stage with
  | isBlocked => exact h.isBlocked hstep hflight
  | authenticate => exact h.authenticate hstep hflight
  | incr row => exact h.count hstep
  | expire row => exact h.expire hstep.moved hstep.store
  | setex row => exact h.setex hstep.moved hstep.store
  | appendAudit row =>
    exact hquiet ⟨rfl, rfl⟩ (.loginNext payload _ (.inr (by simp [LoginStage.isCounting,
      LoginStage.isBlocking]))) ⟨_, rfl, rfl, rfl, rfl⟩
  | resetFailures row => exact h.reset hstep.moved hstep.store
  | createToken row =>
    exact hquiet ⟨rfl, rfl⟩ (.loginNext payload _ (.inr (by simp [LoginStage.isCounting,
      LoginStage.isBlocking]))) ⟨_, rfl, rfl, rfl, rfl⟩
  | finished response => exact hquiet ⟨rfl, rfl⟩ (.refl _) ⟨_, rfl, rfl, rfl, rfl⟩

omit [IsStrictOrderedRing K] in
theorem FailuresBounded.other (h : FailuresBounded ip start k s) (hc : s.sessions[i]? = some c)
    (hother : ∀ stages, c.logsIn ip stages = false) (hflight : Sessions.count (loggingIn ip)
      (Sessions.step (loginSystem checks) s (.advance i)) ≤ k) :
    FailuresBounded ip start k (Sessions.step (loginSystem checks) s (.advance i)) := by
  have hstore : (Sessions.step (loginSystem checks) s (.advance i)).store =
      (c.next checks s.store).1 := by
    rw [Sessions.step_advance hc]
    rfl
  have huntouched : Unaffected ip s.store (c.next checks s.store).1 ∧
      ∀ stages, (c.next checks s.store).2.logsIn ip stages = false := by
    rw [AdminSession.next]
    cases hcall : c.call with
    | login payload stage =>
      have hne : c.ip ≠ ip := by
        intro hip
        have hfalse := hother fun _ => true
        simp [AdminSession.logsIn.eq_def, hcall, hip] at hfalse
      exact ⟨.loginNext payload stage (.inl hne), fun stages => by simp [AdminSession.logsIn, hne]⟩
    | verifyTotp payload stage => exact ⟨.totpNext payload stage, fun _ => rfl⟩
  have hcount (stages : LoginStage → Bool) : Sessions.count (AdminSession.logsIn ip stages)
      (Sessions.step (loginSystem checks) s (.advance i)) =
        Sessions.count (AdminSession.logsIn ip stages) s := by
    have hmoved := count_logsIn_advance checks ip stages hc
    rw [hother, huntouched.2] at hmoved
    exact Nat.add_right_cancel hmoved
  exact h.unaffected (hstore ▸ huntouched.1) (hcount _).le (hcount _) (hcount _) hflight

theorem FailuresBounded.step (h : FailuresBounded ip start k s) (act : LoginAct K)
    (hflight : Sessions.count (loggingIn ip) (Sessions.step (loginSystem checks) s act) ≤ k) :
    FailuresBounded ip start k (Sessions.step (loginSystem checks) s act) := by
  cases act with
  | start request =>
    have hcount (stages : LoginStage → Bool) (hstages : stages .isBlocked = false) :
        Sessions.count (AdminSession.logsIn ip stages)
          (Sessions.step (loginSystem checks) s (.start request)) =
        Sessions.count (AdminSession.logsIn ip stages) s := by
      have hstart : (AdminSession.start checks request).logsIn ip stages = false := by
        rw [AdminSession.start]
        cases request.2 with
        | login payload => simp [AdminSession.logsIn, hstages]
        | verifyTotp payload => rfl
      have hstarted : Sessions.count (AdminSession.logsIn ip stages)
          (Sessions.step (loginSystem checks) s (.start request)) =
            Sessions.count (AdminSession.logsIn ip stages) s +
              ((AdminSession.start checks request).logsIn ip stages).toNat :=
        Sessions.count_start request
      rw [hstarted, hstart, Bool.toNat_false, Nat.add_zero]
    exact h.unaffected (.refl _) (hcount _ rfl).le (hcount _ rfl) (hcount _ rfl) hflight
  | advance i =>
    cases hc : s.sessions[i]? with
    | none =>
      rw [Sessions.step_of_waiting (by simp [hc])]
      exact h
    | some c =>
      cases hcall : c.call with
      | login payload stage =>
        by_cases hip : c.ip = ip
        · subst hip
          exact h.login (.advance hc hcall) hflight
        · refine h.other hc (fun stages => ?_) hflight
          simp [AdminSession.logsIn.eq_def, hcall, hip]
      | verifyTotp payload stage =>
        refine h.other hc (fun stages => ?_) hflight
        rw [AdminSession.logsIn.eq_def, hcall]
  | event e => exact h.unaffected (.handle e) (le_refl _) rfl rfl hflight

omit [FloorRing K] [IsStrictOrderedRing K] in
theorem FailuresBounded.initial (ip : String) (start : K) (k : Nat) (now : K)
    (rows : List AdminUser) : FailuresBounded ip start k (initialState now rows) where
  values := by
    intro entry hentry
    cases hentry
  before := fun _ => ⟨rfl, rfl⟩
  window := fun _ _ _ => ⟨.inr (Nat.zero_le _), Nat.zero_le _⟩
  rejected := fun _ => Nat.zero_le _
  after := fun _ _ => Nat.zero_le _

/-- However the requests take turns, an address gets no more wrong passwords through in any window
of fifteen minutes in which it clears no failures than seven and as many as there ever were of
its logins in flight. -/
theorem wrong_passwords_bounded (checks : AuthChecks K) (ip : String) (start now : K)
    (rows : List AdminUser) (acts : List (LoginAct K))
    (hreset : NoReset ip start (serveLogins checks now rows acts).store) :
    wrongPasswords ip start (serveLogins checks now rows acts).store ≤
      Sessions.peak (loginSystem checks) (loggingIn ip) (initialState now rows) acts + 7 :=
  (Sessions.run_of_peak (I := FailuresBounded ip start) acts
    (fun k => FailuresBounded.initial ip start k now rows)
    fun _ _ act h _ hflight => h.step act hflight).wrongPasswords_le hreset

end Runs

section Example

/-- One wrong password after ten seconds, three more after fifteen minutes, and five when the
first count has expired; the next login is refused. -/
def oneAfterAnother : List (LoginAct ℚ) :=
  let client : ClientRequest := { peer := some "203.0.113.7" }
  let login (i : Nat) : List (LoginAct ℚ) :=
    .start (client, .login { username := "admin", password := "guess" }) ::
      List.replicate 6 (.advance i)
  [.event (.elapse 10)] ++ login 0 ++ [.event (.elapse 900)] ++ login 1 ++ login 2 ++ login 3 ++
    [.event (.elapse 911)] ++ login 4 ++ login 5 ++ login 6 ++ login 7 ++ login 8 ++ login 9

instance (ip : String) (start : ℚ) (w : AuthWorld ℚ) : Decidable (NoReset ip start w) :=
  inferInstanceAs (Decidable (∀ attempt ∈ w.history, attempt.isResetIn ip start = false))

theorem wrong_passwords_bounded_oneAfterAnother :
    wrongPasswords "203.0.113.7" 900 (serveLogins pendingChecks 0 [adminRow] oneAfterAnother).store
        ≤ Sessions.peak (loginSystem pendingChecks) (loggingIn "203.0.113.7")
          (initialState 0 [adminRow]) oneAfterAnother + 7 ∧
      wrongPasswords "203.0.113.7" 900
        (serveLogins pendingChecks 0 [adminRow] oneAfterAnother).store = 8 ∧
      Sessions.peak (loginSystem pendingChecks) (loggingIn "203.0.113.7")
        (initialState 0 [adminRow]) oneAfterAnother = 1 :=
  ⟨wrong_passwords_bounded pendingChecks "203.0.113.7" 900 0 [adminRow] oneAfterAnother
    (by decide +kernel), by decide +kernel, by decide +kernel⟩

end Example

end Bound

end AmaExecutionCore.AdminAuth
