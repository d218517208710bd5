import Mathlib.Algebra.Order.Ring.Defs
import Mathlib.Logic.Function.Basic

/-! A store of counters whose keys can expire. A key is there until its expiry, if it has one. -/
namespace ExpiringKeys

variable {κ K : Type*}

structure Entry (K : Type*) where
  value : Nat
  expiresAt : Option K := none
  deriving DecidableEq, Repr

/-- The entries that were written; one that has expired is not there any more. -/
def Store (κ K : Type*) := κ → Option (Entry K)

def Store.empty : Store κ K := fun _ => none

section Commands

variable [LinearOrder K]

def Entry.isLive (now : K) (entry : Entry K) : Bool :=
  entry.expiresAt.all fun expiry => now < expiry

def Store.find (store : Store κ K) (now : K) (key : κ) : Option (Entry K) :=
  (store key).filter (Entry.isLive now)

def Store.contains (store : Store κ K) (now : K) (key : κ) : Bool :=
  (store.find now key).isSome

/-- The count under the key, none being zero. -/
def Store.count (store : Store κ K) (now : K) (key : κ) : Nat :=
  (store.find now key).elim 0 Entry.value

variable [DecidableEq κ]

/-- One more under the key. The expiry of a key that is there stays; a new key has none. -/
def Store.incr (store : Store κ K) (now : K) (key : κ) : Store κ K :=
  Function.update store key (some
    { value := store.count now key + 1
      expiresAt := (store.find now key).bind Entry.expiresAt })

/-- A new expiry for a key that is there. -/
def Store.expire [Add K] (store : Store κ K) (now : K) (key : κ) (ttl : K) : Store κ K :=
  Function.update store key
    ((store.find now key).map fun entry => { entry with expiresAt := some (now + ttl) })

def Store.setex [Add K] (store : Store κ K) (now : K) (key : κ) (ttl : K) (value : Nat) :
    Store κ K :=
  Function.update store key (some { value := value, expiresAt := some (now + ttl) })

omit [LinearOrder K] in
def Store.delete (store : Store κ K) (key : κ) : Store κ K := Function.update store key none

end Commands

section Lemmas

variable [LinearOrder K] {store : Store κ K} {now later expiry : K} {key other : κ}

theorem Entry.isLive_eq_true_iff {entry : Entry K} :
    entry.isLive now = true ↔ ∀ expiry ∈ entry.expiresAt, now < expiry := by
  rw [Entry.isLive]
  cases entry.expiresAt with
  | none => simp
  | some expiry => simp

theorem Store.find_eq_some_iff {entry : Entry K} :
    store.find now key = some entry ↔ store key = some entry ∧ entry.isLive now = true := by
  rw [Store.find, Option.filter_eq_some_iff]

/-- The key outlasts the time: it has no expiry before it. -/
def Store.Outlasts (store : Store κ K) (key : κ) (time : K) : Prop :=
  ∀ entry ∈ store key, ∀ expiry ∈ entry.expiresAt, time ≤ expiry

/-- The key is held until the time at least. -/
def Store.HeldUntil (store : Store κ K) (key : κ) (time : K) : Prop :=
  ∃ entry ∈ store key, ∀ expiry ∈ entry.expiresAt, time ≤ expiry

theorem Store.HeldUntil.contains {time : K} (h : store.HeldUntil key time) (hnow : now < time) :
    store.contains now key = true := by
  obtain ⟨entry, hentry, hexpiry⟩ := h
  have hfind : store.find now key = some entry := Store.find_eq_some_iff.mpr
    ⟨hentry, Entry.isLive_eq_true_iff.mpr fun expiry he => hnow.trans_le (hexpiry expiry he)⟩
  rw [Store.contains, hfind, Option.isSome_some]

theorem Store.find_of_none (h : store key = none) : store.find now key = none := by
  rw [Store.find, h, Option.filter_none]

theorem Store.Outlasts.find_eq {time : K} (h : store.Outlasts key time) (hnow : now < time) :
    store.find now key = store key := by
  cases hkey : store key with
  | none => exact Store.find_of_none hkey
  | some entry => exact Store.find_eq_some_iff.mpr ⟨hkey,
      Entry.isLive_eq_true_iff.mpr fun expiry he => hnow.trans_le (h entry hkey expiry he)⟩

theorem Store.Outlasts.count_eq {time : K} (h : store.Outlasts key time) (hnow : now < time) :
    store.count now key = (store key).elim 0 Entry.value := by
  rw [Store.count, h.find_eq hnow]

end Lemmas

section Updates

variable [LinearOrder K] [DecidableEq κ] {store : Store κ K} {now : K} {key other : κ}

theorem Store.incr_of_ne (h : other ≠ key) : store.incr now key other = store other :=
  Function.update_of_ne h _ _

theorem Store.expire_of_ne [Add K] {ttl : K} (h : other ≠ key) :
    store.expire now key ttl other = store other := Function.update_of_ne h _ _

omit [LinearOrder K] in
theorem Store.setex_of_ne [Add K] {ttl : K} {value : Nat} (h : other ≠ key) :
    store.setex now key ttl value other = store other := Function.update_of_ne h _ _

omit [LinearOrder K] in
theorem Store.delete_of_ne (h : other ≠ key) : store.delete key other = store other :=
  Function.update_of_ne h _ _

omit [LinearOrder K] in
theorem Store.setex_self [Add K] (store : Store κ K) (now : K) (key : κ) (ttl : K) (value : Nat) :
    store.setex now key ttl value key = some { value := value, expiresAt := some (now + ttl) } :=
  Function.update_self _ _ _

omit [LinearOrder K] in
theorem Store.delete_self (store : Store κ K) (key : κ) : store.delete key key = none :=
  Function.update_self _ _ _

theorem Store.incr_self (store : Store κ K) (now : K) (key : κ) :
    store.incr now key key = some
      { value := store.count now key + 1
        expiresAt := (store.find now key).bind Entry.expiresAt } := Function.update_self _ _ _

theorem Store.expire_self [Add K] (store : Store κ K) (now : K) (key : κ) (ttl : K) :
    store.expire now key ttl key =
      (store.find now key).map fun entry => { entry with expiresAt := some (now + ttl) } :=
  Function.update_self _ _ _

theorem Store.Outlasts.incr {time : K} (h : store.Outlasts key time) (now : K) :
    (store.incr now key).Outlasts key time := by
  intro entry hentry expiry hexpiry
  rw [Store.incr_self, Option.mem_some_iff] at hentry
  subst hentry
  obtain ⟨old, hold, hexpiry⟩ := Option.bind_eq_some_iff.mp hexpiry
  exact h old (Store.find_eq_some_iff.mp hold).1 expiry hexpiry

theorem Store.outlasts_expire [Add K] {time ttl : K} (h : time ≤ now + ttl) :
    (store.expire now key ttl).Outlasts key time := by
  intro entry hentry expiry hexpiry
  rw [Store.expire_self] at hentry
  obtain ⟨old, -, rfl⟩ := Option.map_eq_some_iff.mp hentry
  rw [← Option.some.inj hexpiry]
  exact h

theorem Store.Outlasts.value_expire [Add K] {time ttl : K} (h : store.Outlasts key time)
    (hnow : now < time) : (store.expire now key ttl key).elim 0 Entry.value =
      (store key).elim 0 Entry.value := by
  rw [Store.expire_self, h.find_eq hnow]
  cases store key with
  | none => rfl
  | some entry => rfl

end Updates

end ExpiringKeys
