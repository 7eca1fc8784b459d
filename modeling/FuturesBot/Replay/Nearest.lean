import FuturesBot.Replay.Comparison

namespace FuturesBot

/-- What a lookup of the nearest row promises: a row that none is closer than, and one exactly
if a row lies within the tolerance. -/
structure FindsNearest (key : α → RecordKey) (records : List α) (target : Timestamp) : Prop where
  closest : ∀ found, findNearest key records target = some found →
    found ∈ records ∧ ∀ record ∈ records,
      apart (key found).timestamp target ≤ apart (key record).timestamp target
  within_tolerance : (findNearest key records target).isSome ↔
    ∃ record ∈ records, apart (key record).timestamp target ≤ matchTolerance

/-- The lookup keeps its promise exactly if the closest row does not lie in the second after
the tolerance. -/
theorem findsNearest_iff (key : α → RecordKey) (records : List α) (target : Timestamp) :
    FindsNearest key records target ↔
      ((∃ record ∈ records, apart (key record).timestamp target < matchTolerance + 1000000) →
        ∃ record ∈ records, apart (key record).timestamp target ≤ matchTolerance) := by
  constructor
  · intro h hlt
    exact h.within_tolerance.mp (findNearest_isSome_iff.mpr hlt)
  · intro h
    refine ⟨fun found hf => findNearest_closest hf, ?_⟩
    rw [findNearest_isSome_iff]
    refine ⟨h, fun ⟨record, hm, hle⟩ => ⟨record, hm, ?_⟩⟩
    exact Nat.lt_of_le_of_lt hle (Nat.lt_add_of_pos_right (by decide))

/-- A row half a second beyond the five minutes is returned. -/
theorem half_second_late_found :
    ¬ FindsNearest id [⟨"run", "BTC-USDT", 300500000⟩] 0 := by
  intro h
  obtain ⟨record, hm, hle⟩ := h.within_tolerance.mp (by decide)
  cases List.mem_singleton.mp hm
  exact absurd hle (by decide)

end FuturesBot
