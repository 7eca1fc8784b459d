import FuturesBot.Risk.Soundness

namespace FuturesBot
open Lib

def liquidationPrice (A : Arithmetic) (d : ModelDecision) : Amount :=
  estimateLiquidationPrice A d.entryPrice d.liquidationDistancePercentEstimated d.decision

theorem liquidationPrice_eq (A : Arithmetic) (d : ModelDecision) :
    estimateLiquidationPrice A d.entryPrice d.liquidationDistancePercentEstimated d.decision =
      liquidationPrice A d := rfl

variable {A : Arithmetic}

/-- The other checks of the block phase know only two verdicts. -/
theorem OtherGatesClear.pass (ho : OtherGatesClear A d ctx config)
    (h : blockChecks A d ctx config = .ok checks) :
    ∃ l, checkLiquidationSafety A d config.liquidationSafety = .ok l ∧
      ∀ c ∈ checks, c = l ∨ c.outcome = .pass := by
  obtain ⟨l, m, e, hl, hm, he, rfl⟩ := blockChecks_ok h
  obtain ⟨m', hm', hmc⟩ := ho.martingala
  obtain ⟨e', he', hec⟩ := ho.escalation
  cases hm.symm.trans hm'
  cases he.symm.trans he'
  refine ⟨l, hl, ?_⟩
  intro c hc
  simp only [List.mem_cons, List.not_mem_nil, or_false] at hc
  rcases hc with rfl | rfl | rfl | rfl | rfl | rfl | rfl | rfl | rfl | rfl | rfl | rfl
  · exact .inr (checkSlRequired_pass d)
  · exact .inr (checkTpOrExitPlan_pass d)
  · exact .inr (checkDrawdown_verdict.pass ho.daily)
  · exact .inr (checkDrawdown_verdict.pass ho.total)
  · exact .inl rfl
  · exact .inr ((checkFundingGate_verdict _ _ _).pass ho.funding)
  · exact .inr ((checkFeeGate_verdict _ _).pass ho.fee)
  · exact .inr ((checkMaxOpenPositions_verdict _ _ _).pass ho.openPositions)
  · exact .inr ((checkAntiMartingala_verdict hm).pass hmc)
  · exact .inr ((checkAntiLeverageEscalation_verdict he).pass hec)
  · exact .inr ((checkAntiAveraging_verdict _).pass ho.averaging)
  · exact .inr (checkSlippageEstimate_pass _)

end FuturesBot
