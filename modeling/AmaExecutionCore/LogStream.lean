import AmaExecutionCore.TwoFactors
import Mathlib.Data.List.Infix
import Mathlib.Data.List.Induction

/-! The stream of log records of the admin API, beside the requests that the server handles. -/
namespace AmaExecutionCore.AdminAuth

def revalidateIntervalSeconds : Int := 30
def queueMaxsize : Nat := 256

/-- Which piece of `_validate_ws_access` is next. -/
inductive AccessCheck where
  | decode
  | blacklist (payload : Token)
  | isActive (payload : Token)
  deriving DecidableEq, Repr

/-- Why the access is checked: to open the stream, because no record came in time, or before the
record in hand is sent. -/
inductive AccessReason where
  | opening
  | idle
  | holding (text : String)
  deriving DecidableEq, Repr

/-- Where `ws_logs` stands. `greeting` is the `send_json` of "connected". -/
inductive StreamStage (K : Type) where
  | receiving
  | checking (reason : AccessReason) (check : AccessCheck)
  | greeting
  | waiting (nextValidationAt : K)
  | closed
  deriving DecidableEq, Repr

/-- The record in hand. -/
def StreamStage.held {K : Type} : StreamStage K → List String
  | .checking (.holding text) _ => [text]
  | _ => []

/-- One connection. `queued` keeps every text that entered the queue, `sent` those that left with
the times at which they were sent. -/
structure LogStream (K : Type) where
  token : Credential := .empty
  stage : StreamStage K := .receiving
  queue : List String := []
  queued : List String := []
  sent : List (K × String) := []
  deriving Repr

structure StreamWorld (K : Type) where
  server : LoginState K
  stream : LogStream K := {}

inductive StreamAct (K : Type) where
  | server (act : LoginAct K)
  | emit (text : String)
  | receive (token : Option Credential)
  | check
  | greet
  | take
  | timeout
  | disconnect

namespace LogStream

variable {K : Type} (stream : LogStream K)

def goTo (stage : StreamStage K) : LogStream K := { stream with stage := stage }

/-- From `subscribe` to `unsubscribe`. -/
def isSubscribed : Bool :=
  match stream.stage with
  | .receiving | .checking .opening _ | .greeting | .closed => false
  | .checking .idle _ | .checking (.holding _) _ | .waiting _ => true

/-- `put_nowait`: a queue that is full, and one that nobody reads, drops the text. -/
def emit (text : String) : LogStream K :=
  if stream.isSubscribed ∧ stream.queue.length < queueMaxsize then
    { stream with queue := stream.queue ++ [text], queued := stream.queued ++ [text] }
  else stream

/-- The first message, with a token in it or without. -/
def receive (token : Option Credential) : LogStream K :=
  match stream.stage with
  | .receiving =>
    match token with
    | none => stream.goTo .closed
    | some token => { stream with token := token, stage := .checking .opening .decode }
  | _ => stream

variable [Field K] [LinearOrder K]

def send (text : String) (now : K) : LogStream K :=
  { stream with sent := stream.sent ++ [(now, text)] }

/-- The next check is due in thirty seconds. -/
def await (now : K) : LogStream K :=
  stream.goTo (.waiting (now + ((revalidateIntervalSeconds : ℤ) : K)))

/-- The access is valid: the connection is greeted, or it is waited for the next record after the
one in hand is sent. -/
def accept (reason : AccessReason) (now : K) : LogStream K :=
  match reason with
  | .opening => stream.goTo .greeting
  | .idle => stream.await now
  | .holding text => (stream.await now).send text now

/-- `send_json` returns, and the connection subscribes. -/
def greet (now : K) : LogStream K :=
  match stream.stage with
  | .greeting => stream.await now
  | _ => stream

/-- The next piece of the check of the access. -/
def check (hasFactory : Bool) (w : AuthWorld K) : LogStream K :=
  match stream.stage with
  | .checking reason .decode =>
    match decodeToken w.auth w.now stream.token .access with
    | none => stream.goTo .closed
    | some payload => stream.goTo (.checking reason (.blacklist payload))
  | .checking reason (.blacklist payload) =>
    if w.auth.isBlacklisted w.now payload.jti then stream.goTo .closed
    else if hasFactory then stream.goTo (.checking reason (.isActive payload))
    else stream.accept reason w.now
  | .checking reason (.isActive payload) =>
    if (w.findUser payload.sub).any AdminUser.isActive then stream.accept reason w.now
    else stream.goTo .closed
  | _ => stream

/-- `queue.get` returns a text. -/
def take (now : K) : LogStream K :=
  match stream.stage, stream.queue with
  | .waiting nextValidationAt, text :: rest =>
    let taken := { stream with queue := rest }
    if nextValidationAt ≤ now then taken.goTo (.checking (.holding text) .decode)
    else taken.send text now
  | _, _ => stream

/-- `wait_for` gives up. -/
def timeout (now : K) : LogStream K :=
  match stream.stage with
  | .waiting nextValidationAt =>
    if nextValidationAt ≤ now then stream.goTo (.checking .idle .decode) else stream
  | _ => stream

end LogStream

section Runs

variable {K : Type} [Field K] [LinearOrder K] [FloorRing K]

def StreamWorld.step (checks : AuthChecks K) (hasFactory : Bool) (s : StreamWorld K) :
    StreamAct K → StreamWorld K
  | .server act => { s with server := Sessions.step (loginSystem checks) s.server act }
  | .emit text => { s with stream := s.stream.emit text }
  | .receive token => { s with stream := s.stream.receive token }
  | .check => { s with stream := s.stream.check hasFactory s.server.store }
  | .greet => { s with stream := s.stream.greet s.server.store.now }
  | .take => { s with stream := s.stream.take s.server.store.now }
  | .timeout => { s with stream := s.stream.timeout s.server.store.now }
  | .disconnect => { s with stream := s.stream.goTo .closed }

/-- A connection to a server that was just started. -/
def streamRun (checks : AuthChecks K) (hasFactory : Bool) (now : K) (rows : List AdminUser)
    (acts : List (StreamAct K)) : StreamWorld K :=
  Runs.run (StreamWorld.step checks hasFactory) { server := initialState now rows } acts

def StreamAct.emitted : StreamAct K → Option String
  | .emit text => some text
  | _ => none

end Runs

section Order

variable {K : Type} {stream : LogStream K}

/-- The records that left the queue and those in it are those that entered it, in order. -/
structure InOrder (stream : LogStream K) (emitted : List String) : Prop where
  sublist : stream.queued.Sublist emitted
  sent : stream.sent.map Prod.snd <+: stream.queued
  unsubscribed : stream.isSubscribed = false → stream.stage ≠ .closed →
    stream.queue = [] ∧ stream.queued = [] ∧ stream.sent = []
  subscribed : stream.isSubscribed = true → stream.queued =
    stream.sent.map Prod.snd ++ stream.stage.held ++ stream.queue

namespace InOrder

variable {emitted : List String}

theorem later (h : InOrder stream emitted) (more : List String) :
    InOrder stream (emitted ++ more) :=
  { h with sublist := h.sublist.trans (List.sublist_append_left _ _) }

theorem emit (h : InOrder stream emitted) (text : String) :
    InOrder (stream.emit text) (emitted ++ [text]) := by
  rw [LogStream.emit]
  split
  · rename_i hroom
    refine ⟨h.sublist.append (List.Sublist.refl _), h.sent.trans (List.prefix_append _ _), ?_, ?_⟩
    · intro hunsubscribed
      have hsame : stream.isSubscribed = false := hunsubscribed
      rw [hroom.1] at hsame
      cases hsame
    · intro hsubscribed
      dsimp only
      rw [h.subscribed hroom.1, List.append_assoc]
  · exact h.later [text]

theorem close (h : InOrder stream emitted) : InOrder (stream.goTo .closed) emitted where
  sublist := h.sublist
  sent := h.sent
  unsubscribed := fun _ hopen => absurd rfl hopen
  subscribed := by simp [LogStream.goTo, LogStream.isSubscribed]

theorem unopened (h : InOrder stream emitted) (hnot : stream.isSubscribed = false)
    (hopen : stream.stage ≠ .closed) {next : LogStream K} (hqueue : next.queue = stream.queue)
    (hqueued : next.queued = stream.queued) (hsent : next.sent = stream.sent)
    (hheld : next.stage.held = []) : InOrder next emitted := by
  obtain ⟨hqueue', hqueued', hsent'⟩ := h.unsubscribed hnot hopen
  rw [hqueue'] at hqueue
  rw [hqueued'] at hqueued
  rw [hsent'] at hsent
  refine ⟨?_, ?_, fun _ _ => ⟨hqueue, hqueued, hsent⟩, fun _ => ?_⟩
  · rw [hqueued]
    exact List.nil_sublist _
  · rw [hsent]
    exact List.nil_prefix
  · rw [hqueue, hqueued, hsent, hheld]
    rfl

theorem receive (h : InOrder stream emitted) (token : Option Credential) :
    InOrder (stream.receive token) emitted := by
  rw [LogStream.receive.eq_def]
  split
  · rename_i hstage
    split
    · exact h.close
    · exact h.unopened (by rw [LogStream.isSubscribed.eq_def, hstage]) (by simp [hstage]) rfl rfl rfl
        rfl
  · exact h

/-- A stage at which the connection is subscribed as before, with the same record in hand. -/
theorem goTo (h : InOrder stream emitted) (hsubscribed : stream.isSubscribed = true)
    {stage : StreamStage K} (hstage : (stream.goTo stage).isSubscribed = true)
    (hheld : stage.held = stream.stage.held) : InOrder (stream.goTo stage) emitted := by
  refine ⟨h.sublist, h.sent, ?_, ?_⟩
  · intro hnot
    rw [hstage] at hnot
    cases hnot
  · intro _
    have hqueued := h.subscribed hsubscribed
    rw [← hheld] at hqueued
    exact hqueued

theorem checking (h : InOrder stream emitted) {reason : AccessReason} {check : AccessCheck}
    (hstage : stream.stage = .checking reason check) (check' : AccessCheck) :
    InOrder (stream.goTo (.checking reason check')) emitted := by
  cases reason with
  | opening =>
    exact h.unopened (by rw [LogStream.isSubscribed.eq_def, hstage]) (by simp [hstage]) rfl rfl rfl
      rfl
  | idle =>
    exact h.goTo (by rw [LogStream.isSubscribed.eq_def, hstage]) rfl (by rw [hstage]; rfl)
  | holding text =>
    exact h.goTo (by rw [LogStream.isSubscribed.eq_def, hstage]) rfl (by rw [hstage]; rfl)

theorem accept [Field K] (h : InOrder stream emitted) {reason : AccessReason} {check : AccessCheck}
    (hstage : stream.stage = .checking reason check) (time : K) :
    InOrder (stream.accept reason time) emitted := by
  cases reason with
  | opening =>
    exact h.unopened (by rw [LogStream.isSubscribed.eq_def, hstage]) (by simp [hstage]) rfl rfl rfl
      rfl
  | idle =>
    exact h.goTo (by rw [LogStream.isSubscribed.eq_def, hstage]) rfl (by rw [hstage]; rfl)
  | holding text =>
    have hqueued := h.subscribed (by rw [LogStream.isSubscribed.eq_def, hstage])
    rw [hstage] at hqueued
    have hall : stream.queued = (stream.sent ++ [(time, text)]).map Prod.snd ++ stream.queue := by
      rw [hqueued, List.map_append, List.map_singleton]
      rfl
    refine ⟨h.sublist, ⟨stream.queue, hall.symm⟩, ?_, fun _ => ?_⟩
    · intro hnot
      cases hnot
    · exact hall.trans (by simp [LogStream.accept, LogStream.await, LogStream.goTo, LogStream.send,
        StreamStage.held])

theorem greet [Field K] (h : InOrder stream emitted) (time : K) :
    InOrder (stream.greet time) emitted := by
  rw [LogStream.greet.eq_def]
  split
  · rename_i hstage
    exact h.unopened (by rw [LogStream.isSubscribed.eq_def, hstage]) (by simp [hstage]) rfl rfl rfl
      rfl
  · exact h

theorem check [Field K] [LinearOrder K] (h : InOrder stream emitted) (hasFactory : Bool) (w : AuthWorld K) :
    InOrder (stream.check hasFactory w) emitted := by
  rw [LogStream.check.eq_def]
  split
  · rename_i reason hstage
    split
    · exact h.close
    · exact h.checking hstage _
  · rename_i reason payload hstage
    split
    · exact h.close
    · split
      · exact h.checking hstage _
      · exact h.accept hstage _
  · rename_i reason payload hstage
    split
    · exact h.accept hstage _
    · exact h.close
  · exact h

theorem take [LinearOrder K] (h : InOrder stream emitted) (time : K) : InOrder (stream.take time) emitted := by
  rw [LogStream.take.eq_def]
  split
  · rename_i nextValidationAt text rest hstage hqueue
    have hqueued := h.subscribed (by rw [LogStream.isSubscribed.eq_def, hstage])
    rw [hstage, hqueue] at hqueued
    have hall : stream.queued = stream.sent.map Prod.snd ++ [text] ++ rest := by
      rw [hqueued]
      simp [StreamStage.held]
    dsimp only
    split
    · refine ⟨h.sublist, h.sent, fun hnot => ?_, fun _ => hall⟩
      cases hnot
    · refine ⟨h.sublist, ⟨rest, ?_⟩, ?_, fun _ => ?_⟩
      · rw [LogStream.send, List.map_append, List.map_singleton, hall]
      · intro hnot
        simp only [LogStream.send, LogStream.isSubscribed, hstage] at hnot
        cases hnot
      · simp only [LogStream.send, hstage, StreamStage.held, List.map_append, List.map_singleton,
          List.append_nil]
        exact hall
  · exact h

theorem timeout [LinearOrder K] (h : InOrder stream emitted) (time : K) :
    InOrder (stream.timeout time) emitted := by
  rw [LogStream.timeout.eq_def]
  split
  · rename_i nextValidationAt hstage
    split
    · exact h.goTo (by rw [LogStream.isSubscribed.eq_def, hstage]) rfl (by rw [hstage]; rfl)
    · exact h
  · exact h

end InOrder

end Order

section Access

variable {K : Type} [Field K] [LinearOrder K] [FloorRing K]
variable (checks : AuthChecks K) (hasFactory : Bool) (now : K) (rows : List AdminUser)

/-- The server after the first actions of a run. -/
def serverAfter (acts : List (StreamAct K)) : AuthWorld K :=
  (streamRun checks hasFactory now rows acts).server.store

/-- The actions of a run up to each of the three pieces of a check, and up to the point from which
the time to the next check counts. -/
structure CheckPoints (K : Type) where
  decoded : List (StreamAct K)
  unrevoked : List (StreamAct K)
  active : List (StreamAct K)
  counted : List (StreamAct K)

structure DecodedAt (acts : List (StreamAct K)) (token : Credential) (payload : Token)
    (points : CheckPoints K) : Prop where
  decodes : decodeToken (serverAfter checks hasFactory now rows points.decoded).auth
    (serverAfter checks hasFactory now rows points.decoded).now token .access = some payload
  before : points.decoded <+: acts

structure UnrevokedAt (acts : List (StreamAct K)) (token : Credential) (payload : Token)
    (points : CheckPoints K) : Prop where
  decoded : DecodedAt checks hasFactory now rows points.unrevoked token payload points
  unrevoked : (serverAfter checks hasFactory now rows points.unrevoked).auth.isBlacklisted
    (serverAfter checks hasFactory now rows points.unrevoked).now payload.jti = false
  before : points.unrevoked <+: acts

structure ActiveAt (acts : List (StreamAct K)) (token : Credential) (payload : Token)
    (points : CheckPoints K) : Prop where
  unrevoked : UnrevokedAt checks hasFactory now rows points.active token payload points
  active : hasFactory = true →
    ((serverAfter checks hasFactory now rows points.active).findUser payload.sub).any
      AdminUser.isActive = true
  before : points.active <+: acts

/-- The time counts from the end of the check, or from the end of the greeting after it. -/
structure Counted (acts : List (StreamAct K)) (points : CheckPoints K) : Prop where
  start : points.counted = points.active ∨
    (streamRun checks hasFactory now rows points.counted).stream.stage = .greeting
  after : points.active <+: points.counted
  before : points.counted <+: acts

/-- Since then less than thirty seconds have passed. -/
def Recent (time : K) (points : CheckPoints K) : Prop :=
  (serverAfter checks hasFactory now rows points.counted).now ≤ time ∧
    time < (serverAfter checks hasFactory now rows points.counted).now +
      ((revalidateIntervalSeconds : ℤ) : K)

/-- What the stream knows at its stage, and of what it sent. -/
structure Authorized (acts : List (StreamAct K)) (stream : LogStream K) : Prop where
  unopened : stream.stage = .receiving → stream.sent = []
  decoded : ∀ reason payload, stream.stage = .checking reason (.blacklist payload) →
    ∃ points, DecodedAt checks hasFactory now rows acts stream.token payload points
  unrevoked : ∀ reason payload, stream.stage = .checking reason (.isActive payload) →
    ∃ points, UnrevokedAt checks hasFactory now rows acts stream.token payload points
  greeting : stream.stage = .greeting →
    ∃ payload points, ActiveAt checks hasFactory now rows acts stream.token payload points
  waiting : ∀ nextValidationAt, stream.stage = .waiting nextValidationAt →
    ∃ payload points, ActiveAt checks hasFactory now rows acts stream.token payload points ∧
      Counted checks hasFactory now rows acts points ∧
      (serverAfter checks hasFactory now rows points.counted).now ≤
        (serverAfter checks hasFactory now rows acts).now ∧
      nextValidationAt = (serverAfter checks hasFactory now rows points.counted).now +
        ((revalidateIntervalSeconds : ℤ) : K)
  sent : ∀ record ∈ stream.sent, ∃ payload points,
    ActiveAt checks hasFactory now rows acts stream.token payload points ∧
      Counted checks hasFactory now rows acts points ∧
      Recent checks hasFactory now rows record.1 points

variable {checks hasFactory now rows} {acts : List (StreamAct K)} {act : StreamAct K}
variable {stream : LogStream K} {token : Credential} {payload : Token} {points : CheckPoints K}

theorem serverAfter_snoc_le (acts : List (StreamAct K)) (act : StreamAct K) :
    (serverAfter checks hasFactory now rows acts).now ≤
      (serverAfter checks hasFactory now rows (acts ++ [act])).now := by
  rw [serverAfter, serverAfter, streamRun, streamRun, Runs.run_append]
  cases act with
  | server act => exact now_le_step checks _ act
  | emit text => exact le_refl _
  | receive token => exact le_refl _
  | check => exact le_refl _
  | greet => exact le_refl _
  | take => exact le_refl _
  | timeout => exact le_refl _
  | disconnect => exact le_refl _

theorem DecodedAt.later (h : DecodedAt checks hasFactory now rows acts token payload points)
    (act : StreamAct K) :
    DecodedAt checks hasFactory now rows (acts ++ [act]) token payload points :=
  { h with before := h.before.trans (List.prefix_append _ _) }

theorem UnrevokedAt.later (h : UnrevokedAt checks hasFactory now rows acts token payload points)
    (act : StreamAct K) :
    UnrevokedAt checks hasFactory now rows (acts ++ [act]) token payload points :=
  { h with before := h.before.trans (List.prefix_append _ _) }

theorem ActiveAt.later (h : ActiveAt checks hasFactory now rows acts token payload points)
    (act : StreamAct K) :
    ActiveAt checks hasFactory now rows (acts ++ [act]) token payload points :=
  { h with before := h.before.trans (List.prefix_append _ _) }

theorem Counted.later (h : Counted checks hasFactory now rows acts points) (act : StreamAct K) :
    Counted checks hasFactory now rows (acts ++ [act]) points :=
  { h with before := h.before.trans (List.prefix_append _ _) }

namespace Authorized

theorem later (h : Authorized checks hasFactory now rows acts stream) (act : StreamAct K) :
    Authorized checks hasFactory now rows (acts ++ [act]) stream where
  unopened := h.unopened
  decoded := by
    intro reason payload hstage
    obtain ⟨points, hpoints⟩ := h.decoded reason payload hstage
    exact ⟨points, hpoints.later act⟩
  unrevoked := by
    intro reason payload hstage
    obtain ⟨points, hpoints⟩ := h.unrevoked reason payload hstage
    exact ⟨points, hpoints.later act⟩
  greeting := by
    intro hstage
    obtain ⟨payload, points, hpoints⟩ := h.greeting hstage
    exact ⟨payload, points, hpoints.later act⟩
  waiting := by
    intro nextValidationAt hstage
    obtain ⟨payload, points, hpoints, hcounted, hle, hnext⟩ := h.waiting nextValidationAt hstage
    exact ⟨payload, points, hpoints.later act, hcounted.later act,
      hle.trans (serverAfter_snoc_le acts act), hnext⟩
  sent := by
    intro record hrecord
    obtain ⟨payload, points, hpoints, hcounted, hrecent⟩ := h.sent record hrecord
    exact ⟨payload, points, hpoints.later act, hcounted.later act, hrecent⟩

theorem setQueue (h : Authorized checks hasFactory now rows acts stream)
    (queue queued : List String) :
    Authorized checks hasFactory now rows acts { stream with queue := queue, queued := queued } :=
  ⟨h.unopened, h.decoded, h.unrevoked, h.greeting, h.waiting, h.sent⟩

theorem goTo (h : Authorized checks hasFactory now rows acts stream) {stage : StreamStage K}
    (hstage : stage = .closed ∨ ∃ reason, stage = .checking reason .decode) :
    Authorized checks hasFactory now rows acts (stream.goTo stage) := by
  rcases hstage with rfl | ⟨reason, rfl⟩
  · exact ⟨by simp [LogStream.goTo], by simp [LogStream.goTo], by simp [LogStream.goTo],
      by simp [LogStream.goTo], by simp [LogStream.goTo], h.sent⟩
  · exact ⟨by simp [LogStream.goTo], by simp [LogStream.goTo], by simp [LogStream.goTo],
      by simp [LogStream.goTo], by simp [LogStream.goTo], h.sent⟩

theorem receive (h : Authorized checks hasFactory now rows acts stream)
    (token : Option Credential) :
    Authorized checks hasFactory now rows acts (stream.receive token) := by
  rw [LogStream.receive.eq_def]
  split
  · rename_i hstage
    split
    · exact h.goTo (.inl rfl)
    · refine ⟨by simp, by simp, by simp, by simp, by simp, ?_⟩
      intro record hrecord
      rw [h.unopened hstage] at hrecord
      cases hrecord
  · exact h

theorem send (h : Authorized checks hasFactory now rows acts stream)
    (hstage : stream.stage ≠ .receiving) {time : K} (text : String)
    (hpoints : ActiveAt checks hasFactory now rows acts stream.token payload points)
    (hcounted : Counted checks hasFactory now rows acts points)
    (hrecent : Recent checks hasFactory now rows time points) :
    Authorized checks hasFactory now rows acts (stream.send text time) where
  unopened := fun hreceiving => absurd hreceiving hstage
  decoded := h.decoded
  unrevoked := h.unrevoked
  greeting := h.greeting
  waiting := h.waiting
  sent := by
    intro record hrecord
    rcases List.mem_append.mp hrecord with hold | hnew
    · exact h.sent record hold
    · rw [List.mem_singleton.mp hnew]
      exact ⟨payload, points, hpoints, hcounted, hrecent⟩

theorem await (h : Authorized checks hasFactory now rows acts stream)
    (hpoints : ActiveAt checks hasFactory now rows acts stream.token payload points)
    (hcounted : Counted checks hasFactory now rows acts points) {time : K}
    (htime : (serverAfter checks hasFactory now rows points.counted).now = time)
    (hle : time ≤ (serverAfter checks hasFactory now rows acts).now) :
    Authorized checks hasFactory now rows acts (stream.await time) := by
  refine ⟨by simp [LogStream.await, LogStream.goTo], by simp [LogStream.await, LogStream.goTo],
    by simp [LogStream.await, LogStream.goTo], by simp [LogStream.await, LogStream.goTo], ?_, h.sent⟩
  intro nextValidationAt hstage
  refine ⟨payload, points, hpoints, hcounted, htime ▸ hle, ?_⟩
  rw [htime]
  exact (StreamStage.waiting.inj hstage).symm

theorem accept [IsStrictOrderedRing K] (h : Authorized checks hasFactory now rows acts stream) (reason : AccessReason)
    (hpoints : ActiveAt checks hasFactory now rows acts stream.token payload points)
    (hactive : points.active = acts) : Authorized checks hasFactory now rows acts
      (stream.accept reason (serverAfter checks hasFactory now rows acts).now) := by
  have hpoints' : ActiveAt checks hasFactory now rows acts stream.token payload
      { points with counted := acts } := ⟨⟨⟨hpoints.unrevoked.decoded.decodes,
        hpoints.unrevoked.decoded.before⟩, hpoints.unrevoked.unrevoked, hpoints.unrevoked.before⟩,
      hpoints.active, hpoints.before⟩
  have hcounted : Counted checks hasFactory now rows acts { points with counted := acts } :=
    ⟨.inl hactive.symm, hpoints.before, List.prefix_refl _⟩
  have hwaiting := h.await hpoints' hcounted rfl (le_refl _)
  cases reason with
  | opening =>
    exact ⟨by simp [LogStream.accept, LogStream.goTo], by simp [LogStream.accept, LogStream.goTo],
      by simp [LogStream.accept, LogStream.goTo], fun _ => ⟨payload, points, hpoints⟩,
      by simp [LogStream.accept, LogStream.goTo], h.sent⟩
  | idle => exact hwaiting
  | holding text =>
    have hpositive : (0 : K) < ((revalidateIntervalSeconds : ℤ) : K) := Int.cast_pos.mpr (by decide)
    refine hwaiting.send (by simp [LogStream.await, LogStream.goTo]) text hpoints' hcounted ?_
    exact ⟨le_refl _, lt_add_of_pos_right _ hpositive⟩

/-- The greeting is sent, and the time to the next check counts from its end. -/
theorem greet (h : Authorized checks hasFactory now rows acts
      (streamRun checks hasFactory now rows acts).stream) :
    Authorized checks hasFactory now rows (acts ++ [.greet])
      ((streamRun checks hasFactory now rows acts).stream.greet
        (serverAfter checks hasFactory now rows acts).now) := by
  rw [LogStream.greet.eq_def]
  split
  · rename_i hstage
    obtain ⟨payload, points, hpoints⟩ := h.greeting hstage
    have hpoints' : ActiveAt checks hasFactory now rows acts
        (streamRun checks hasFactory now rows acts).stream.token payload
        { points with counted := acts } := ⟨⟨⟨hpoints.unrevoked.decoded.decodes,
          hpoints.unrevoked.decoded.before⟩, hpoints.unrevoked.unrevoked,
        hpoints.unrevoked.before⟩, hpoints.active, hpoints.before⟩
    have hcounted : Counted checks hasFactory now rows acts { points with counted := acts } :=
      ⟨.inr hstage, hpoints.before, List.prefix_refl _⟩
    exact (h.later .greet).await (hpoints'.later .greet) (hcounted.later .greet) rfl
      (serverAfter_snoc_le acts .greet)
  · exact h.later .greet

theorem check [IsStrictOrderedRing K] (h : Authorized checks hasFactory now rows acts stream) :
    Authorized checks hasFactory now rows acts
      (stream.check hasFactory (serverAfter checks hasFactory now rows acts)) := by
  rw [LogStream.check.eq_def]
  split
  · rename_i reason hstage
    split
    · exact h.goTo (.inl rfl)
    · rename_i payload hdecoded
      refine ⟨by simp [LogStream.goTo], ?_, by simp [LogStream.goTo], by simp [LogStream.goTo],
        by simp [LogStream.goTo], h.sent⟩
      intro reason payload' hchecking
      obtain rfl := AccessCheck.blacklist.inj (StreamStage.checking.inj hchecking).2
      exact ⟨⟨acts, acts, acts, acts⟩, hdecoded, List.prefix_refl _⟩
  · rename_i reason payload hstage
    obtain ⟨points, hdecoded⟩ := h.decoded reason payload hstage
    split
    · exact h.goTo (.inl rfl)
    · rename_i hunrevoked
      have hpoints : UnrevokedAt checks hasFactory now rows acts stream.token payload
          { points with unrevoked := acts, active := acts } :=
        ⟨⟨hdecoded.decodes, hdecoded.before⟩, Bool.eq_false_of_not_eq_true hunrevoked,
          List.prefix_refl _⟩
      split
      · refine ⟨by simp [LogStream.goTo], by simp [LogStream.goTo], ?_, by simp [LogStream.goTo],
          by simp [LogStream.goTo], h.sent⟩
        intro reason payload' hchecking
        obtain rfl := AccessCheck.isActive.inj (StreamStage.checking.inj hchecking).2
        exact ⟨_, hpoints⟩
      · rename_i hfactory
        have hactive : ActiveAt checks hasFactory now rows acts stream.token payload
            { points with unrevoked := acts, active := acts } :=
          ⟨hpoints, fun hhas => absurd hhas hfactory, List.prefix_refl _⟩
        exact h.accept reason hactive rfl
  · rename_i reason payload hstage
    obtain ⟨points, hunrevoked⟩ := h.unrevoked reason payload hstage
    split
    · rename_i hactive
      have hpoints : ActiveAt checks hasFactory now rows acts stream.token payload
          { points with active := acts } :=
        ⟨⟨⟨hunrevoked.decoded.decodes, hunrevoked.decoded.before⟩, hunrevoked.unrevoked,
          hunrevoked.before⟩, fun _ => hactive, List.prefix_refl _⟩
      exact h.accept reason hpoints rfl
    · exact h.goTo (.inl rfl)
  · exact h

theorem take (h : Authorized checks hasFactory now rows acts stream) :
    Authorized checks hasFactory now rows acts
      (stream.take (serverAfter checks hasFactory now rows acts).now) := by
  rw [LogStream.take.eq_def]
  split
  · rename_i nextValidationAt text rest hstage hqueue
    have htaken := h.setQueue rest stream.queued
    dsimp only
    split
    · exact htaken.goTo (.inr ⟨_, rfl⟩)
    · rename_i hearly
      obtain ⟨payload, points, hpoints, hcounted, hle, hnext⟩ := h.waiting nextValidationAt hstage
      refine htaken.send (by rw [hstage]; simp) text hpoints hcounted ⟨hle, ?_⟩
      rw [← hnext]
      exact not_le.mp hearly
  · exact h

theorem timeout (h : Authorized checks hasFactory now rows acts stream) :
    Authorized checks hasFactory now rows acts
      (stream.timeout (serverAfter checks hasFactory now rows acts).now) := by
  rw [LogStream.timeout.eq_def]
  split
  · split
    · exact h.goTo (.inr ⟨_, rfl⟩)
    · exact h
  · exact h

end Authorized

/-- In every run, a record is sent to a connection only after a check of its token has found it
decodable, then not revoked, then its administrator active, and less than thirty seconds after the
end of that check, or of the greeting that follows the opening one; and what is sent comes from what
was logged, in the same order, each record once. -/
theorem log_texts_authorized [IsStrictOrderedRing K] (checks : AuthChecks K) (hasFactory : Bool)
    (now : K) (rows : List AdminUser) (acts : List (StreamAct K)) :
    (∀ record ∈ (streamRun checks hasFactory now rows acts).stream.sent, ∃ payload points,
      ActiveAt checks hasFactory now rows acts
          (streamRun checks hasFactory now rows acts).stream.token payload points ∧
        Counted checks hasFactory now rows acts points ∧
        Recent checks hasFactory now rows record.1 points) ∧
      (streamRun checks hasFactory now rows acts).stream.sent.map Prod.snd <+:
        (streamRun checks hasFactory now rows acts).stream.queued ∧
      (streamRun checks hasFactory now rows acts).stream.queued.Sublist
        (acts.filterMap StreamAct.emitted) := by
  have hboth : Authorized checks hasFactory now rows acts
        (streamRun checks hasFactory now rows acts).stream ∧
      InOrder (streamRun checks hasFactory now rows acts).stream
        (acts.filterMap StreamAct.emitted) := by
    induction acts using List.reverseRecOn with
    | nil =>
      refine ⟨⟨fun _ => rfl, ?_, ?_, ?_, ?_, ?_⟩, List.Sublist.refl _, List.prefix_refl _,
        fun _ _ => ⟨rfl, rfl, rfl⟩, ?_⟩ <;> simp [streamRun, Runs.run, LogStream.isSubscribed]
    | append_singleton acts act ih =>
      have hsnoc : streamRun checks hasFactory now rows (acts ++ [act]) =
          (streamRun checks hasFactory now rows acts).step checks hasFactory act :=
        Runs.run_append _ _ _
      have hauthorized := ih.1.later act
      have hsame (hstore : ((streamRun checks hasFactory now rows acts).step checks hasFactory
          act).server = (streamRun checks hasFactory now rows acts).server) :
          serverAfter checks hasFactory now rows (acts ++ [act]) =
            (streamRun checks hasFactory now rows acts).server.store := by
        rw [serverAfter, hsnoc, hstore]
      rw [hsnoc, List.filterMap_append]
      cases act with
      | server act => exact ⟨hauthorized, ih.2.later _⟩
      | emit text =>
        refine ⟨?_, ih.2.emit text⟩
        rw [StreamWorld.step, LogStream.emit]
        split
        · exact hauthorized.setQueue _ _
        · exact hauthorized
      | receive token => exact ⟨hauthorized.receive token, (ih.2.receive token).later _⟩
      | check =>
        have hchecked := hauthorized.check
        rw [hsame rfl] at hchecked
        exact ⟨hchecked, (ih.2.check _ _).later _⟩
      | greet => exact ⟨ih.1.greet, (ih.2.greet _).later _⟩
      | take =>
        have htaken := hauthorized.take
        rw [hsame rfl] at htaken
        exact ⟨htaken, (ih.2.take _).later _⟩
      | timeout =>
        have hwaited := hauthorized.timeout
        rw [hsame rfl] at hwaited
        exact ⟨hwaited, (ih.2.timeout _).later _⟩
      | disconnect => exact ⟨hauthorized.goTo (.inl rfl), ih.2.close.later _⟩
  exact ⟨hboth.1.sent, hboth.2.sent, hboth.2.sublist⟩

end Access

section Example

/-- A connection with the access token of a session, and a record that is sent when its access was
checked once more. -/
def streamOpened : List (StreamAct ℚ) :=
  sessionOpened.map .server ++
    [.receive (some (.token { jti := 2, type := .access, sub := "admin", exp := 1800 })),
      .check, .check, .check, .greet, .emit "started", .server (.event (.elapse 31)), .take,
      .check, .check, .check]

theorem log_texts_authorized_streamOpened : ∃ payload points,
    ActiveAt pendingChecks true 0 [adminRow] streamOpened
        (streamRun pendingChecks true 0 [adminRow] streamOpened).stream.token payload points ∧
      Counted pendingChecks true 0 [adminRow] streamOpened points ∧
      Recent pendingChecks true 0 [adminRow] 31 points :=
  (log_texts_authorized pendingChecks true 0 [adminRow] streamOpened).1 (31, "started")
    (by decide +kernel)

end Example

end AmaExecutionCore.AdminAuth
