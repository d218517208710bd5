import AmaExecutionCore.Topics

/-! Two deliveries of messages about one trade, with its updates in the same order: the
rows they leave differ in fees, slippage and the fresh part of ids alone. -/
namespace AmaExecutionCore

/-- Ids of the same kind, made from the one number and the other. -/
def Renamed (n m : Nat) : Renaming := fun x y =>
  (x = .stop n ∧ y = .stop m) ∨ (x = .tp n ∧ y = .tp m) ∨
    ∃ signal, x = .generated signal (2 * n) ∧ y = .generated signal (2 * m)

/-- Ids that stand for the same order in the two deliveries. -/
def Paired (t : Trade) (drawn drawn' : List Nat) : Renaming := fun x y =>
  ∃ ref : OrderRef, ref.Of t ∧ ref.resolve drawn = some x ∧ ref.resolve drawn' = some y

theorem Renamed.drawnAt {n m : Nat} {x y : OrderLinkId} (h : Renamed n m x y) :
    x.drawnAt n ∧ y.drawnAt m := by
  obtain ⟨rfl, rfl⟩ | ⟨rfl, rfl⟩ | ⟨signal, rfl, rfl⟩ := h
  · exact ⟨rfl, rfl⟩
  · exact ⟨rfl, rfl⟩
  · simp [OrderLinkId.drawnAt]

section
variable {t : Trade} {drawn drawn' : List Nat}

theorem OrderRef.resolve_append {ref : OrderRef} {link : OrderLinkId} {n : Nat}
    (h : ref.resolve drawn = some link) : ref.resolve (drawn ++ [n]) = some link := by
  cases ref with
  | known link' => exact h
  | stop i | takeProfit i | emergencyClose signal i =>
    obtain ⟨k, hk, rfl⟩ := Option.map_eq_some_iff.mp h
    have hi : i < drawn.length := (List.getElem?_eq_some_iff.mp hk).1
    simp only [OrderRef.resolve, List.getElem?_append_left hi, hk, Option.map_some]

theorem Paired.append {x y : OrderLinkId} {n m : Nat} (h : Paired t drawn drawn' x y) :
    Paired t (drawn ++ [n]) (drawn' ++ [m]) x y := by
  obtain ⟨ref, href, hx, hy⟩ := h
  exact ⟨ref, href, OrderRef.resolve_append hx, OrderRef.resolve_append hy⟩

/-- Numbers found in both lists are found in the old parts, or are the new ones. -/
theorem getElem?_concat {i n m k l : Nat} (hlen : drawn.length = drawn'.length)
    (hk : (drawn ++ [n])[i]? = some k) (hl : (drawn' ++ [m])[i]? = some l) :
    (drawn[i]? = some k ∧ drawn'[i]? = some l) ∨ (k = n ∧ l = m) := by
  obtain hi | hi := Nat.lt_or_ge i drawn.length
  · left
    rw [List.getElem?_append_left hi] at hk
    rw [List.getElem?_append_left (hlen ▸ hi)] at hl
    exact ⟨hk, hl⟩
  · right
    rw [List.getElem?_append_right hi] at hk
    rw [List.getElem?_append_right (hlen ▸ hi)] at hl
    have h₁ := List.mem_singleton.mp (List.mem_of_getElem? hk)
    have h₂ := List.mem_singleton.mp (List.mem_of_getElem? hl)
    exact ⟨h₁, h₂⟩

theorem Paired.of_append {x y : OrderLinkId} {n m : Nat} (hlen : drawn.length = drawn'.length)
    (h : Paired t (drawn ++ [n]) (drawn' ++ [m]) x y) :
    Paired t drawn drawn' x y ∨ Renamed n m x y := by
  obtain ⟨ref, href, hx, hy⟩ := h
  cases ref with
  | known link => exact .inl ⟨.known link, href, hx, hy⟩
  | stop i =>
    obtain ⟨k, hk, rfl⟩ := Option.map_eq_some_iff.mp hx
    obtain ⟨l, hl, rfl⟩ := Option.map_eq_some_iff.mp hy
    obtain ⟨hk, hl⟩ | ⟨rfl, rfl⟩ := getElem?_concat hlen hk hl
    · exact .inl ⟨.stop i, href, by simp [OrderRef.resolve, hk], by simp [OrderRef.resolve, hl]⟩
    · exact .inr (.inl ⟨rfl, rfl⟩)
  | takeProfit i =>
    obtain ⟨k, hk, rfl⟩ := Option.map_eq_some_iff.mp hx
    obtain ⟨l, hl, rfl⟩ := Option.map_eq_some_iff.mp hy
    obtain ⟨hk, hl⟩ | ⟨rfl, rfl⟩ := getElem?_concat hlen hk hl
    · exact .inl ⟨.takeProfit i, href, by simp [OrderRef.resolve, hk],
        by simp [OrderRef.resolve, hl]⟩
    · exact .inr (.inr (.inl ⟨rfl, rfl⟩))
  | emergencyClose signal i =>
    obtain ⟨k, hk, rfl⟩ := Option.map_eq_some_iff.mp hx
    obtain ⟨l, hl, rfl⟩ := Option.map_eq_some_iff.mp hy
    obtain ⟨hk, hl⟩ | ⟨rfl, rfl⟩ := getElem?_concat hlen hk hl
    · exact .inl ⟨.emergencyClose signal i, href, by simp [OrderRef.resolve, hk],
        by simp [OrderRef.resolve, hl]⟩
    · exact .inr (.inr (.inr ⟨signal, rfl, rfl⟩))

end

theorem Trade.Alike.executed_right {R : Renaming} {t s : Trade} (h : t.Alike R s)
    (fee slip : Option Rat) : t.Alike R { s with feePaid := fee, slippage := slip } := by
  refine ⟨?_, h.close, h.stop, h.takeProfit, h.armed, h.aimed⟩
  obtain ⟨fee', slip', close, stop, takeProfit, rfl⟩ := h.recast
  exact ⟨fee, slip, close, stop, takeProfit, rfl⟩

theorem Trade.Alike.executed_left {R : Renaming} {t s : Trade} (h : t.Alike R s)
    (fee slip : Option Rat) : { t with feePaid := fee, slippage := slip }.Alike R s := by
  refine ⟨?_, h.close, h.stop, h.takeProfit, h.armed, h.aimed⟩
  obtain ⟨fee', slip', close, stop, takeProfit, rfl⟩ := h.recast
  exact ⟨fee', slip', close, stop, takeProfit, rfl⟩

/-- Two deliveries that have handled the same updates of the trade. -/
structure Synced (t : Trade) (base : Nat) (before after : List Trade) (d d' : Delivery)
    (r s : Trade) : Prop where
  left : Tracked t base before after d r
  right : Tracked t base before after d' s
  length : d.drawn.length = d'.drawn.length
  alike : r.Alike (Paired t d.drawn d'.drawn) s

theorem Trade.Alike.mono {R R' : Renaming} {t s : Trade} (h : t.Alike R s)
    (hnew : ∀ x y, R' x y → R x y ∨ (t.ownsOrderLinkId x = false ∧ s.ownsOrderLinkId y = false)) :
    t.Alike R' s := by
  have hcolumn : ∀ a b : Option OrderLinkId, SameKnown R a b →
      (∀ x, t.ownsOrderLinkId x = false → a ≠ some x) →
      (∀ y, s.ownsOrderLinkId y = false → b ≠ some y) → SameKnown R' a b := by
    intro a b hab ha hb x y hr
    obtain hr | ⟨hx, hy⟩ := hnew x y hr
    · exact hab x y hr
    · exact iff_of_false (hb y hy) (ha x hx)
  have hnot : ∀ (q : Trade) link, q.ownsOrderLinkId link = false → q.closeOrderLinkId ≠ some link ∧
      q.stopOrderLinkId ≠ some link ∧ q.takeProfitOrderLinkId ≠ some link := by
    intro q link hq
    have := mt (q.owns_iff link).mpr (by simp [hq])
    tauto
  exact ⟨h.recast,
    hcolumn _ _ h.close (fun x hx => (hnot t x hx).1) fun y hy => (hnot s y hy).1,
    hcolumn _ _ h.stop (fun x hx => (hnot t x hx).2.1) fun y hy => (hnot s y hy).2.1,
    hcolumn _ _ h.takeProfit (fun x hx => (hnot t x hx).2.2) fun y hy => (hnot s y hy).2.2,
    h.armed, h.aimed⟩

theorem Outcome.Alike.committed {R : Renaming} {o o' : Outcome Work Bool} {t s : Trade}
    (h : Outcome.Alike R o o') (hts : t.Alike R s) :
    ((o.committed.map Work.trade).getD t).Alike R ((o'.committed.map Work.trade).getD s) := by
  obtain ⟨result, k⟩ := o
  obtain ⟨result', k'⟩ := o'
  obtain rfl : result' = result := h.result
  cases result' with
  | ok b => exact h.work.trade
  | error e => exact hts

namespace Synced

variable {t : Trade} {base : Nat} {before after : List Trade} {d d' : Delivery}
  {r s : Trade}

theorem drawnBefore (h : Synced t base before after d d' r s) (hapart : Apart t base before after)
    {x y : OrderLinkId} (hxy : Paired t d.drawn d'.drawn x y) :
    x.drawnBefore d.world.issued ∧ y.drawnBefore d'.world.issued := by
  have hold : ∀ {e : Delivery} {q : Trade} {ref : OrderRef} {link : OrderLinkId},
      Tracked t base before after e q → ref.Of t → ref.resolve e.drawn = some link →
      link.drawnBefore e.world.issued := by
    intro e q ref link he href hlink
    obtain hown | ⟨n, hn, hd⟩ := href.resolved hlink
    · obtain ⟨n, hn, hd⟩ := hapart.old link hown
      exact ⟨n, hn.trans_le he.reached, hd⟩
    · exact ⟨n, (he.numbers n hn).2, hd⟩
  obtain ⟨ref, href, hx, hy⟩ := hxy
  exact ⟨hold h.left href hx, hold h.right href hy⟩

theorem draws (h : Synced t base before after d d' r s) (hapart : Apart t base before after) :
    SameDraws (Paired t (d.drawn ++ [d.world.issued]) (d'.drawn ++ [d'.world.issued]))
      d.world.issued d'.world.issued := by
  have hfresh : ∀ x y, Paired t d.drawn d'.drawn x y →
      ¬ x.drawnAt d.world.issued ∧ ¬ y.drawnAt d'.world.issued := by
    intro x y hxy
    obtain ⟨⟨n, hn, hd⟩, m, hm, hd'⟩ := h.drawnBefore hapart hxy
    exact ⟨fun hx => hn.ne (OrderLinkId.drawnAt_unique hd hx),
      fun hy => hm.ne (OrderLinkId.drawnAt_unique hd' hy)⟩
  have hside : ∀ a b : OrderLinkId, a.drawnAt d.world.issued → b.drawnAt d'.world.issued →
      (∀ x y, Renamed d.world.issued d'.world.issued x y → (y = b ↔ x = a)) →
      ∀ x y, Paired t (d.drawn ++ [d.world.issued]) (d'.drawn ++ [d'.world.issued]) x y →
        (y = b ↔ x = a) := by
    intro a b ha hb hnew x y hxy
    obtain hxy | hxy := hxy.of_append h.length
    · obtain ⟨hx, hy⟩ := hfresh x y hxy
      exact iff_of_false (fun he => hy (he ▸ hb)) (fun he => hx (he ▸ ha))
    · exact hnew x y hxy
  refine ⟨hside _ _ rfl rfl ?_, hside _ _ rfl rfl ?_, fun signal => hside _ _
    (by simp [OrderLinkId.drawnAt]) (by simp [OrderLinkId.drawnAt]) ?_⟩
  all_goals
    rintro x y (⟨rfl, rfl⟩ | ⟨rfl, rfl⟩ | ⟨signal', rfl, rfl⟩) <;> simp

theorem alike_append (h : Synced t base before after d d' r s) :
    r.Alike (Paired t (d.drawn ++ [d.world.issued]) (d'.drawn ++ [d'.world.issued])) s := by
  have hnot : ∀ {e : Delivery} {q : Trade} {link : OrderLinkId}, Tracked t base before after e q →
      link.drawnAt e.world.issued → q.ownsOrderLinkId link = false := by
    intro e q link he hd
    by_contra hown
    obtain ⟨n, hn, hd'⟩ := he.wellFormed.links q he.mem link (by simpa using hown)
    exact hn.ne (OrderLinkId.drawnAt_unique hd' hd)
  refine h.alike.mono fun x y hxy => ?_
  obtain hxy | hxy := hxy.of_append h.length
  · exact .inl hxy
  · exact .inr ⟨hnot h.left hxy.drawnAt.1, hnot h.right hxy.drawnAt.2⟩

/-- Two paired ids are one id the trade named before, or new ids of both deliveries. -/
theorem paired_cases (h : Synced t base before after d d' r s) {x y : OrderLinkId}
    (hxy : Paired t d.drawn d'.drawn x y) :
    x = y ∨ (∃ n, base ≤ n ∧ x.drawnAt n) ∧ ∃ n, base ≤ n ∧ y.drawnAt n := by
  obtain ⟨ref, href, hx, hy⟩ := hxy
  cases ref with
  | known link => exact .inl (Option.some.inj (hx.symm.trans hy))
  | stop i | takeProfit i | emergencyClose signal i =>
    obtain ⟨n, hn, rfl⟩ := Option.map_eq_some_iff.mp hx
    obtain ⟨m, hm, rfl⟩ := Option.map_eq_some_iff.mp hy
    refine .inr ⟨⟨n, (h.left.numbers n (List.mem_of_getElem? hn)).1, ?_⟩,
      m, (h.right.numbers m (List.mem_of_getElem? hm)).1, ?_⟩ <;> simp [OrderLinkId.drawnAt]

theorem entry (h : Synced t base before after d d' r s) (hapart : Apart t base before after) :
    SameKnown (Paired t d.drawn d'.drawn) r.orderLinkId r.orderLinkId := by
  have hold : ∀ link, r.orderLinkId = some link → ∀ n, base ≤ n → ¬ link.drawnAt n := by
    intro link hlink n hn hd
    rw [h.left.entry.orderLinkId] at hlink
    obtain ⟨k, hk, hd'⟩ := hapart.old link ((t.owns_iff link).mpr (.inl hlink))
    exact absurd (OrderLinkId.drawnAt_unique hd' hd) (by omega)
  intro x y hxy
  obtain rfl | ⟨⟨n, hn, hx⟩, m, hm, hy⟩ := h.paired_cases hxy
  · exact Iff.rfl
  · exact iff_of_false (fun he => hold y he m hm hy) fun he => hold x he n hn hx

/-- A reference that has a meaning in one of them has one in both. -/
theorem resolve_none (h : Synced t base before after d d' r s) (ref : OrderRef) :
    ref.resolve d'.drawn = none ↔ ref.resolve d.drawn = none := by
  cases ref with
  | known link => simp [OrderRef.resolve]
  | stop i | takeProfit i | emergencyClose signal i =>
    simp only [OrderRef.resolve, Option.map_eq_none_iff, List.getElem?_eq_none_iff, h.length]

theorem order (h : Synced t base before after d d' r s) (env : Env)
    (hapart : Apart t base before after) {ref : OrderRef} (href : ref.Of t) (data : OrderData) (io : HandlerIo) :
    ∃ r' s', Synced t base before after (handleMessage env d (.order ref data io))
      (handleMessage env d' (.order ref data io)) r' s' := by
  have hleft := h.left.order env hapart href data io
  have hright := h.right.order env hapart href data io
  cases hx : ref.resolve d.drawn with
  | none =>
    have hy := (h.resolve_none ref).mpr hx
    simp only [hx, hy, updateOf, Option.not_mem_none, false_and, exists_false, if_false] at hleft hright
    rw [hleft, hright]
    exact ⟨r, s, h⟩
  | some x =>
    obtain ⟨y, hy⟩ := Option.ne_none_iff_exists'.mp (mt (h.resolve_none ref).mp (by simp [hx]))
    have hxy : Paired t d.drawn d'.drawn x y := ⟨ref, href, hx, hy⟩
    have hown := h.alike.ownsOrderLinkId (h.entry hapart) hxy
    rw [hx] at hleft
    rw [hy] at hright
    by_cases hgo : r.ownsOrderLinkId x = true ∧ orderStatusMap data.orderStatus ≠ none
    · have hgo' : s.ownsOrderLinkId y = true ∧ orderStatusMap data.orderStatus ≠ none := by
        rwa [hown]
      have hwork : (d.world.work r).Alike (Paired t (d.drawn ++ [d.world.issued])
          (d'.drawn ++ [d'.world.issued])) (d'.world.work s) := ⟨h.alike_append, h.draws hapart⟩
      have hsame := hwork.applyOrderUpdate env.restClient io data hxy.append
      have hu : updateOf env.restClient { data with orderLinkId := some x } io d.world r = some
          (applyOrderUpdate env.restClient io { data with orderLinkId := some x }
            (d.world.work r)) := if_pos ⟨⟨x, rfl, hgo.1⟩, hgo.2⟩
      have hu' : updateOf env.restClient { data with orderLinkId := some y } io d'.world s = some
          (applyOrderUpdate env.restClient io { data with orderLinkId := some y }
            (d'.world.work s)) := if_pos ⟨⟨y, rfl, hgo'.1⟩, hgo'.2⟩
      rw [hu] at hleft
      rw [hu'] at hright
      obtain ⟨hdrawn, -, htracked⟩ := hleft
      obtain ⟨hdrawn', -, htracked'⟩ := hright
      refine ⟨_, _, htracked, htracked', ?_, ?_⟩
      · rw [hdrawn, hdrawn', List.length_append, List.length_append, h.length]
        rfl
      · rw [hdrawn, hdrawn']
        exact hsame.committed h.alike_append
    · have hgo' : ¬ (s.ownsOrderLinkId y = true ∧ orderStatusMap data.orderStatus ≠ none) := by
        rwa [hown]
      have hu : updateOf env.restClient { data with orderLinkId := some x } io d.world r = none :=
        if_neg (by simpa using hgo)
      have hu' : updateOf env.restClient { data with orderLinkId := some y } io d'.world s = none :=
        if_neg (by simpa using hgo')
      rw [hu] at hleft
      rw [hu'] at hright
      rw [show handleMessage env d (.order ref data io) = d from hleft,
        show handleMessage env d' (.order ref data io) = d' from hright]
      exact ⟨r, s, h⟩

theorem execution_left (h : Synced t base before after d d' r s) (env : Env)
    (hapart : Apart t base before after) {ref : OrderRef} (href : ref.Of t) (data : ExecutionData) :
    ∃ r', Synced t base before after (handleMessage env d (.execution ref data)) d' r' s := by
  obtain ⟨hdrawn, -, htracked⟩ := h.left.execution env hapart href data
  refine ⟨_, htracked, h.right, by rw [hdrawn, h.length], ?_⟩
  rw [hdrawn]
  obtain ⟨fee, slip, hrow⟩ := executedRow_eq { data with orderLinkId := ref.resolve d.drawn } r
  rw [hrow]
  exact h.alike.executed_left fee slip

theorem execution_right (h : Synced t base before after d d' r s) (env : Env)
    (hapart : Apart t base before after) {ref : OrderRef} (href : ref.Of t) (data : ExecutionData) :
    ∃ s', Synced t base before after d (handleMessage env d' (.execution ref data)) r s' := by
  obtain ⟨hdrawn, -, htracked⟩ := h.right.execution env hapart href data
  refine ⟨_, h.left, htracked, by rw [hdrawn, h.length], ?_⟩
  rw [hdrawn]
  obtain ⟨fee, slip, hrow⟩ := executedRow_eq { data with orderLinkId := ref.resolve d'.drawn } s
  rw [hrow]
  exact h.alike.executed_right fee slip

theorem executions (h : Synced t base before after d d' r s) (env : Env)
    (hapart : Apart t base before after)
    {ms : List Message} (hof : ∀ m ∈ ms, m.ref.Of t) (hms : ∀ m ∈ ms, m.isOrder = false) :
    ∃ s', Synced t base before after d (deliver env d' ms) r s' := by
  induction ms generalizing d' s with
  | nil => exact ⟨s, h⟩
  | cons m ms ih =>
    rw [List.forall_mem_cons] at hof hms
    cases m with
    | order => cases hms.1
    | execution ref data =>
      obtain ⟨s', h'⟩ := h.execution_right env hapart hof.1 data
      exact ih h' hof.2 hms.2

theorem deliver (h : Synced t base before after d d' r s) (env : Env)
    (hapart : Apart t base before after)
    {ms ms' : List Message} (hof : ∀ m ∈ ms, m.ref.Of t) (hof' : ∀ m ∈ ms', m.ref.Of t)
    (hsame : ms.filter Message.isOrder = ms'.filter Message.isOrder) :
    ∃ r' s', Synced t base before after (deliver env d ms) (deliver env d' ms') r' s' := by
  induction ms generalizing d d' r s ms' with
  | nil =>
    have hms' : ∀ m ∈ ms', m.isOrder = false := by
      simpa using List.filter_eq_nil_iff.mp hsame.symm
    obtain ⟨s', h'⟩ := h.executions env hapart hof' hms'
    exact ⟨r, s', h'⟩
  | cons m ms ih =>
    rw [List.forall_mem_cons] at hof
    cases m with
    | execution ref data =>
      obtain ⟨r', h'⟩ := h.execution_left env hapart hof.1 data
      exact ih h' hof.2 hof' hsame
    | order ref data io =>
      -- what comes before the same update in the other delivery are executions
      obtain ⟨front, back, rfl, hfront, -, hback⟩ := List.filter_eq_cons_iff.mp hsame.symm
      rw [List.forall_mem_append, List.forall_mem_cons] at hof'
      obtain ⟨s', h'⟩ := h.executions env hapart hof'.1 (by simpa using hfront)
      obtain ⟨r'', s'', h''⟩ := h'.order env hapart (show ref.Of t from hof.1) data io
      have hrest := ih h'' hof.2 hof'.2.2 hback.symm
      simpa only [AmaExecutionCore.deliver, Runs.run, List.foldl_append, List.foldl_cons] using hrest

end Synced
end AmaExecutionCore
