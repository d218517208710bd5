import Mathlib.Tactic.Linarith
import AmaExecutionCore.Steps

/-! What the checks of a request have settled once it is turned into a trade, and the sides of
the entry on which its stop and target lie. -/
namespace AmaExecutionCore

/-- `execute_signal` turns the request into the trade. -/
def TurnsInto (env : Env) (req : NormalizedExecuteSignalRequest) (io : ExecuteIo) (w : World)
    (t : Trade) : Prop :=
  t ∈ (executeSignal env req io w).2.db.trades ∧ ∀ t₀ ∈ w.db.trades, t₀.id ≠ t.id

instance (env : Env) (req : NormalizedExecuteSignalRequest) (io : ExecuteIo) (w : World)
    (t : Trade) : Decidable (TurnsInto env req io w t) := by
  unfold TurnsInto
  infer_instance

theorem TurnsInto.checked {env : Env} {req : NormalizedExecuteSignalRequest} {io : ExecuteIo}
    {w : World} {t : Trade} (hw : w.WellFormed) (h : TurnsInto env req io w t) :
    ∃ plan balances qtyRaw, SizeChecked env.settings .spot req io balances qtyRaw plan ∧
      t.qty = some plan.qty := by
  obtain ⟨hmem, hfresh⟩ := h
  obtain ⟨moved, new, htrades, hmoved, hnew⟩ := (@executeSignal_effect env req io w hw).1.trades
  rw [htrades] at hmem
  obtain hmem | hmem := List.mem_append.mp hmem
  · obtain ⟨t₀, ht₀, hmove⟩ := Rows.exists_left hmoved hmem
    exact absurd hmove.id.symm (hfresh t₀ ht₀)
  · obtain rfl | ⟨t', rfl, hcreated⟩ := hnew
    · cases hmem
    · obtain rfl := List.mem_singleton.mp hmem
      obtain ⟨req', io', w₁, signalId, plan, raised, k, hstep, -, -, hcheck, -, -, -, -, hent, rfl, -⟩ :=
        hcreated
      cases hstep
      obtain ⟨⟨balances, qtyRaw, hchecked⟩, -⟩ := planEntry_stages (checkEntry_ok hcheck)
      obtain ⟨status, link, ty, orders, henters, -, -⟩ := hent.enters (entryWork_link _ _ _ _)
      exact ⟨plan, balances, qtyRaw, hchecked, henters.same.qty⟩

theorem checkRrr_true {entry stop target minRrr : Rat}
    (h : checkRrr entry stop target minRrr = .ok true) :
    entry ≠ stop ∧ minRrr ≤ |target - entry| / |entry - stop| := by
  unfold checkRrr at h
  split_ifs at h with hzero
  refine ⟨fun heq => hzero (by simp [heq]), ?_⟩
  simpa using h

namespace NormalizedExecuteSignalRequest

/-- The prices in the order of a trade that can win and lose, with the reward that is asked for. -/
def ValidGeometry (minRrr : Rat) (req : NormalizedExecuteSignalRequest) : Prop :=
  (match req.direction with
    | .long => req.stop < req.entry ∧ req.entry < req.target
    | .short => req.target < req.entry ∧ req.entry < req.stop) ∧
    minRrr ≤ (req.target - req.entry) / (req.entry - req.stop)

/-- The stop lies past the entry on the winning side, or the target past it on the losing side. -/
def WrongSided (req : NormalizedExecuteSignalRequest) : Prop :=
  match req.direction with
  | .long => req.entry < req.stop ∨ req.target < req.entry
  | .short => req.stop < req.entry ∨ req.entry < req.target

instance (minRrr : Rat) (req : NormalizedExecuteSignalRequest) :
    Decidable (req.ValidGeometry minRrr) := by
  unfold ValidGeometry
  cases req.direction <;> infer_instance

instance (req : NormalizedExecuteSignalRequest) : Decidable req.WrongSided := by
  unfold WrongSided
  cases req.direction <;> infer_instance

theorem reward_eq {req : NormalizedExecuteSignalRequest} (h : ¬ req.WrongSided) :
    |req.target - req.entry| / |req.entry - req.stop| =
      (req.target - req.entry) / (req.entry - req.stop) := by
  unfold WrongSided at h
  cases hdir : req.direction with
  | long =>
    rw [hdir] at h
    obtain ⟨hstop, htarget⟩ := not_or.mp h
    rw [abs_of_nonneg (by linarith), abs_of_nonneg (by linarith)]
  | short =>
    rw [hdir] at h
    obtain ⟨hstop, htarget⟩ := not_or.mp h
    rw [abs_of_nonpos (by linarith), abs_of_nonpos (by linarith), neg_div_neg_eq]

end NormalizedExecuteSignalRequest
open NormalizedExecuteSignalRequest

/-- A request that passed the check of its reward has its prices in order exactly when neither
level lies past the entry on the other's side, and the target is not the entry itself (which no
positive minimum lets through). -/
theorem validGeometry_iff {minRrr : Rat} {req : NormalizedExecuteSignalRequest}
    (h : checkRrr req.entry req.stop req.target minRrr = .ok true) :
    req.ValidGeometry minRrr ↔ ¬ req.WrongSided ∧ (0 < minRrr ∨ req.target ≠ req.entry) := by
  obtain ⟨hstop, hreward⟩ := checkRrr_true h
  constructor
  · intro hvalid
    unfold ValidGeometry at hvalid
    unfold WrongSided
    cases hdir : req.direction <;> rw [hdir] at hvalid <;> obtain ⟨⟨hlow, hhigh⟩, -⟩ := hvalid
    · exact ⟨not_or.mpr ⟨hlow.not_gt, hhigh.not_gt⟩, .inr hhigh.ne'⟩
    · exact ⟨not_or.mpr ⟨hhigh.not_gt, hlow.not_gt⟩, .inr hlow.ne⟩
  · intro hsides
    obtain ⟨hsides, hapart⟩ := hsides
    have htarget : req.target ≠ req.entry := by
      obtain hpos | hne := hapart
      · intro heq
        rw [heq, sub_self, abs_zero, zero_div] at hreward
        exact absurd hpos hreward.not_gt
      · exact hne
    rw [reward_eq hsides] at hreward
    refine ⟨?_, hreward⟩
    unfold WrongSided at hsides
    cases hdir : req.direction <;> rw [hdir] at hsides <;> obtain ⟨hs, ht⟩ := not_or.mp hsides
    · exact ⟨lt_of_le_of_ne (not_lt.mp hs) hstop.symm, lt_of_le_of_ne (not_lt.mp ht) htarget.symm⟩
    · exact ⟨lt_of_le_of_ne (not_lt.mp ht) htarget, lt_of_le_of_ne (not_lt.mp hs) hstop⟩

/-- From every reachable world: a request that is turned into a trade has its prices in order
exactly when neither level lies on the wrong side of the entry. -/
theorem turnsInto_validGeometry_iff (env : Env) (ss : List Step)
    (req : NormalizedExecuteSignalRequest) (io : ExecuteIo) (t : Trade)
    (h : TurnsInto env req io (Runs.run (step env) {} ss) t) :
    req.ValidGeometry env.settings.minRrr ↔
      ¬ req.WrongSided ∧ (0 < env.settings.minRrr ∨ req.target ≠ req.entry) := by
  obtain ⟨plan, balances, qtyRaw, hchecked, -⟩ := h.checked (wellFormed_run env ss)
  exact validGeometry_iff hchecked.rewarded

theorem turnsInto_demo : ∃ t, TurnsInto (demoEnv .takerAllowed) demoRequest
    (demoExecute (.accepted none) (.ok none)) {} t := by
  have htraded : ∃ t ∈ (executeSignal (demoEnv .takerAllowed) demoRequest
      (demoExecute (.accepted none) (.ok none)) {}).2.db.trades,
      TurnsInto (demoEnv .takerAllowed) demoRequest (demoExecute (.accepted none) (.ok none)) {} t := by
    decide +kernel
  obtain ⟨t, -, ht⟩ := htraded
  exact ⟨t, ht⟩

/-- That trade has its prices in order. -/
theorem turnsInto_validGeometry_long :
    (∃ t, TurnsInto (demoEnv .takerAllowed) demoRequest (demoExecute (.accepted none) (.ok none)) {} t) ∧
      demoRequest.ValidGeometry 2 := by
  obtain ⟨t, ht⟩ := turnsInto_demo
  exact ⟨⟨t, ht⟩, (turnsInto_validGeometry_iff (demoEnv .takerAllowed) [] demoRequest _ t ht).mpr
    (by decide +kernel)⟩

/-- A long request whose stop lies above its entry is turned into a trade all the same. -/
theorem turnsInto_invalidGeometry :
    ∃ t ∈ (executeSignal (demoEnv .takerAllowed) { demoRequest with stop := 102 }
        (demoExecute (.accepted none) (.ok none)) {}).2.db.trades,
      TurnsInto (demoEnv .takerAllowed) { demoRequest with stop := 102 }
        (demoExecute (.accepted none) (.ok none)) {} t ∧
      ¬ ({ demoRequest with stop := 102 } : NormalizedExecuteSignalRequest).ValidGeometry
        (demoEnv .takerAllowed).settings.minRrr := by
  decide +kernel

end AmaExecutionCore
