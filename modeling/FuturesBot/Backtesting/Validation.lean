import FuturesBot.Backtesting.Metrics
import FuturesBot.Lib.Windows

namespace FuturesBot
open Lib

structure DatasetSplit where
  train : List CandleRow
  test : List CandleRow

structure WalkForwardFold where
  foldIndex : ℕ
  train : List CandleRow
  test : List CandleRow

/-- Refuses candles of the evaluation that the training has, or that lie before its end. -/
def assertNoParameterSnooping (trainCandles evalCandles : List CandleRow) : Except PyError Unit :=
  let trainTs := trainCandles.map (·.timestampUtc)
  let overlap := evalCandles.filter (·.timestampUtc ∈ trainTs)
  if overlap ≠ [] then .error (.valueError "Data snooping detectado")
  else match trainTs.max?, (evalCandles.map (·.timestampUtc)).min? with
    | some maxTrain, some minEval =>
      if minEval < maxTrain then .error (.valueError "Lookahead temporal detectado") else .ok ()
    | _, _ => .ok ()

/-- `product` is the product of the length and the ratio in floats, cut to an integer. -/
def splitDataset (product : ℕ → Amount → ℤ) (candles : List CandleRow) (trainRatio : Amount) :
    Except PyError DatasetSplit :=
  if ¬(0 < trainRatio ∧ trainRatio < 1) then
    .error (.valueError "train_ratio debe estar en (0, 1), recibido ")
  else
    let n := candles.length
    if n < 2 then .error (.valueError "Se necesitan al menos 2 candles para hacer un split, recibidos ")
    else
      let splitIdx := (max 1 (min ((n : ℤ) - 1) (product n trainRatio))).toNat
      .ok { train := candles.take splitIdx, test := candles.drop splitIdx }

/-- The last fold takes what the division leaves over. -/
def foldAt (candles : List CandleRow) (nFolds minTrainCandles i : ℕ) : WalkForwardFold :=
  let testPool := candles.length - minTrainCandles
  let foldSize := testPool / nFolds
  let testStart := minTrainCandles + i * foldSize
  let testEnd := if i < nFolds - 1 then testStart + foldSize else candles.length
  { foldIndex := i, train := candles.take testStart, test := slice candles testStart testEnd }

def walkForwardSplits (candles : List CandleRow) (nFolds minTrainCandles : ℤ) :
    Except PyError (List WalkForwardFold) :=
  if nFolds < 1 then .error (.valueError "n_folds debe ser >= 1, recibido ")
  else if minTrainCandles < 1 then
    .error (.valueError "min_train_candles debe ser >= 1, recibido ")
  else if (candles.length : ℤ) < minTrainCandles + nFolds then
    .error (.valueError "Se necesitan al menos  candles para  folds con min_train_candles=, recibidos ")
  else .ok ((List.range nFolds.toNat).map (foldAt candles nFolds.toNat minTrainCandles.toNat))

/-- Parameters that leave a candle for every fold. -/
def ValidWindows (candles : List CandleRow) (nFolds minTrainCandles : ℤ) : Prop :=
  1 ≤ nFolds ∧ 1 ≤ minTrainCandles ∧ minTrainCandles + nFolds ≤ candles.length

instance (candles : List CandleRow) (nFolds minTrainCandles : ℤ) :
    Decidable (ValidWindows candles nFolds minTrainCandles) :=
  inferInstanceAs (Decidable (_ ∧ _))

/-- The test windows of the folds cut up what follows the first candles, one after the other. -/
structure Partitions (candles : List CandleRow) (minTrainCandles : ℕ)
    (folds : List WalkForwardFold) : Prop where
  nonempty : ∀ fold ∈ folds, fold.test ≠ []
  trained : ∀ fold ∈ folds, fold.train ++ fold.test <+: candles
  contiguous : folds.IsChain fun fold next => fold.train ++ fold.test = next.train
  disjoint : folds.Pairwise fun fold later => fold.train.length + fold.test.length ≤ later.train.length
  whole : candles.take minTrainCandles ++ (folds.map (·.test)).flatten = candles

/-- The training is accepted for an evaluation just when it lies wholly before it. -/
theorem noParameterSnooping_iff (trainCandles evalCandles : List CandleRow) :
    assertNoParameterSnooping trainCandles evalCandles = .ok () ↔
      ∀ t ∈ trainCandles, ∀ c ∈ evalCandles, t.timestampUtc < c.timestampUtc := by
  have hoverlap : evalCandles.filter (·.timestampUtc ∈ trainCandles.map (·.timestampUtc)) = [] ↔
      ∀ t ∈ trainCandles, ∀ c ∈ evalCandles, t.timestampUtc ≠ c.timestampUtc := by
    rw [List.filter_eq_nil_iff]
    constructor
    · intro h t ht c hc heq
      apply h c hc
      rw [decide_eq_true_eq]
      exact List.mem_map.mpr ⟨t, ht, heq⟩
    · intro h c hc hm
      obtain ⟨t, ht, heq⟩ := List.mem_map.mp (of_decide_eq_true hm)
      exact h t ht c hc heq
  unfold assertNoParameterSnooping
  dsimp only
  by_cases hnone : evalCandles.filter (·.timestampUtc ∈ trainCandles.map (·.timestampUtc)) = []
  · rw [if_neg (not_not.mpr hnone)]
    have hne := hoverlap.mp hnone
    split
    · rename_i maxTrain minEval hmax hmin
      obtain ⟨hmaxMem, hmaxLe⟩ := List.max?_eq_some_iff.mp hmax
      obtain ⟨hminMem, hminLe⟩ := List.min?_eq_some_iff.mp hmin
      constructor
      · intro h t ht c hc
        have hle : maxTrain ≤ minEval := by
          by_contra hlt
          rw [if_pos (not_le.mp hlt)] at h
          cases h
        have htm := hmaxLe _ (List.mem_map_of_mem ht)
        have hcm := hminLe _ (List.mem_map_of_mem hc)
        exact lt_of_le_of_ne (htm.trans (hle.trans hcm)) (hne t ht c hc)
      · intro h
        obtain ⟨t, ht, rfl⟩ := List.mem_map.mp hmaxMem
        obtain ⟨c, hc, rfl⟩ := List.mem_map.mp hminMem
        exact if_neg (not_lt.mpr (h t ht c hc).le)
    · rename_i hempty
      refine iff_of_true rfl ?_
      intro t ht c hc
      have htrain : (trainCandles.map (·.timestampUtc)).max?.isSome :=
        List.isSome_max?_of_mem (List.mem_map_of_mem ht)
      have heval : (evalCandles.map (·.timestampUtc)).min?.isSome :=
        List.isSome_min?_of_mem (List.mem_map_of_mem hc)
      obtain ⟨maxTrain, hmax⟩ := Option.isSome_iff_exists.mp htrain
      obtain ⟨minEval, hmin⟩ := Option.isSome_iff_exists.mp heval
      exact absurd hmin (hempty maxTrain minEval hmax)
  · rw [if_pos hnone]
    refine iff_of_false (by simp) ?_
    intro h
    exact hnone (hoverlap.mpr fun t ht c hc => (h t ht c hc).ne)

/-- Where the test window of a fold starts. The one after the last would start at the end. -/
def testCut (candles : List CandleRow) (nFolds minTrainCandles i : ℕ) : ℕ :=
  if i < nFolds then minTrainCandles + i * ((candles.length - minTrainCandles) / nFolds)
  else candles.length

theorem foldAt_windows (candles : List CandleRow) (minTrainCandles : ℕ) (hi : i < nFolds) :
    (foldAt candles nFolds minTrainCandles i).train =
      candles.take (testCut candles nFolds minTrainCandles i) ∧
    (foldAt candles nFolds minTrainCandles i).test =
      slice candles (testCut candles nFolds minTrainCandles i)
        (testCut candles nFolds minTrainCandles (i + 1)) := by
  unfold foldAt testCut
  dsimp only
  rw [if_pos hi]
  refine ⟨rfl, ?_⟩
  by_cases hlast : i < nFolds - 1
  · rw [if_pos hlast, if_pos (by omega), Nat.add_mul, Nat.one_mul, Nat.add_assoc]
  · rw [if_neg hlast, if_neg (by omega)]

/-- Every test window has a candle, and lies in the list. -/
theorem testCut_lt (h : minTrainCandles + nFolds ≤ candles.length) (hi : i < nFolds) :
    testCut candles nFolds minTrainCandles i < testCut candles nFolds minTrainCandles (i + 1) ∧
      testCut candles nFolds minTrainCandles (i + 1) ≤ candles.length := by
  have hpos : 0 < nFolds := by omega
  have hsize : 1 ≤ (candles.length - minTrainCandles) / nFolds :=
    (Nat.one_le_div_iff hpos).mpr (by omega)
  have hpool : nFolds * ((candles.length - minTrainCandles) / nFolds) ≤
      candles.length - minTrainCandles := Nat.mul_div_le _ _
  have hnext : (i + 1) * ((candles.length - minTrainCandles) / nFolds) ≤
      nFolds * ((candles.length - minTrainCandles) / nFolds) := Nat.mul_le_mul_right _ hi
  unfold testCut
  rw [if_pos hi]
  rw [Nat.add_mul, Nat.one_mul] at hnext
  split
  · rw [Nat.add_mul, Nat.one_mul]
    omega
  · omega

theorem testCut_mono (h : minTrainCandles + nFolds ≤ candles.length) (hij : i ≤ j)
    (hj : j ≤ nFolds) :
    testCut candles nFolds minTrainCandles i ≤ testCut candles nFolds minTrainCandles j := by
  induction j, hij using Nat.le_induction with
  | base => exact le_rfl
  | succ j _ ih => exact (ih (Nat.le_of_succ_le hj)).trans (testCut_lt h hj).1.le

theorem walkForwardSplits_ok (h : ValidWindows candles nFolds minTrainCandles) :
    walkForwardSplits candles nFolds minTrainCandles =
      .ok ((List.range nFolds.toNat).map
        (foldAt candles nFolds.toNat minTrainCandles.toNat)) := by
  obtain ⟨hfolds, htrain, hlength⟩ := h
  unfold walkForwardSplits
  rw [if_neg (not_lt.mpr hfolds), if_neg (not_lt.mpr htrain), if_neg (not_lt.mpr hlength)]

theorem foldAt_length (h : minTrainCandles + nFolds ≤ candles.length) (hi : i < nFolds) :
    (foldAt candles nFolds minTrainCandles i).train.length =
      testCut candles nFolds minTrainCandles i ∧
    (foldAt candles nFolds minTrainCandles i).train.length +
      (foldAt candles nFolds minTrainCandles i).test.length =
      testCut candles nFolds minTrainCandles (i + 1) := by
  obtain ⟨htrain, htest⟩ := foldAt_windows candles minTrainCandles hi
  obtain ⟨hlt, hle⟩ := testCut_lt h hi
  rw [htrain, htest, length_slice candles hle, List.length_take]
  omega

theorem folds_partition (h : minTrainCandles + nFolds ≤ candles.length) (hpos : 0 < nFolds) :
    Partitions candles minTrainCandles
      ((List.range nFolds).map (foldAt candles nFolds minTrainCandles)) := by
  have hjoin : ∀ i < nFolds, (foldAt candles nFolds minTrainCandles i).train ++
      (foldAt candles nFolds minTrainCandles i).test =
        candles.take (testCut candles nFolds minTrainCandles (i + 1)) := by
    intro i hi
    obtain ⟨htrain, htest⟩ := foldAt_windows candles minTrainCandles hi
    rw [htrain, htest]
    exact take_append_slice candles (testCut_lt h hi).1.le
  constructor
  · intro fold hm
    obtain ⟨i, hi, rfl⟩ := List.mem_map.mp hm
    rw [List.mem_range] at hi
    obtain ⟨htrain, hlength⟩ := foldAt_length h hi
    have hlt := (testCut_lt h hi).1
    apply List.ne_nil_of_length_pos
    omega
  · intro fold hm
    obtain ⟨i, hi, rfl⟩ := List.mem_map.mp hm
    rw [hjoin i (List.mem_range.mp hi)]
    exact List.take_prefix _ _
  · rw [List.isChain_map, List.isChain_range]
    intro i hi
    rw [hjoin i (by omega), (foldAt_windows candles minTrainCandles (by omega)).1]
  · rw [List.pairwise_map]
    refine List.pairwise_lt_range.imp_of_mem fun hi hj hij => ?_
    rw [List.mem_range] at hi hj
    rw [(foldAt_length h hi).2, (foldAt_length h hj).1]
    exact testCut_mono h hij hj.le
  · have hslices := take_append_slices candles nFolds fun i hi => (testCut_lt h hi).1.le
    have htests : ((List.range nFolds).map (foldAt candles nFolds minTrainCandles)).map (·.test) =
        (List.range nFolds).map fun i => slice candles (testCut candles nFolds minTrainCandles i)
          (testCut candles nFolds minTrainCandles (i + 1)) := by
      rw [List.map_map]
      apply List.map_congr_left
      intro i hi
      exact (foldAt_windows candles minTrainCandles (List.mem_range.mp hi)).2
    have hfirst : testCut candles nFolds minTrainCandles 0 = minTrainCandles := by
      rw [testCut, if_pos hpos, Nat.zero_mul, Nat.add_zero]
    have hend : testCut candles nFolds minTrainCandles nFolds = candles.length :=
      if_neg (lt_irrefl nFolds)
    rw [hfirst, hend, List.take_length] at hslices
    rw [htests]
    exact hslices

/-- Valid windows cut up the candles after the first ones, and where time goes on in the list,
none of them is trained on its own future. -/
theorem walk_forward_partition (h : ValidWindows candles nFolds minTrainCandles) :
    ∃ folds, walkForwardSplits candles nFolds minTrainCandles = .ok folds ∧
      folds.map (·.foldIndex) = List.range nFolds.toNat ∧
      Partitions candles minTrainCandles.toNat folds ∧
      (candles.Pairwise (·.timestampUtc < ·.timestampUtc) →
        ∀ fold ∈ folds, assertNoParameterSnooping fold.train fold.test = .ok ()) ∧
      ∀ trainCandles evalCandles, assertNoParameterSnooping trainCandles evalCandles = .ok () ↔
        ∀ t ∈ trainCandles, ∀ c ∈ evalCandles, t.timestampUtc < c.timestampUtc := by
  have hlength : minTrainCandles.toNat + nFolds.toNat ≤ candles.length := by
    obtain ⟨hfolds, htrain, hlength⟩ := h
    omega
  have hpos : 0 < nFolds.toNat := by
    obtain ⟨hfolds, -, -⟩ := h
    omega
  refine ⟨_, walkForwardSplits_ok h, ?_, folds_partition hlength hpos, ?_,
    noParameterSnooping_iff⟩
  · rw [List.map_map]
    exact List.map_id _
  · intro hsorted fold hm
    obtain ⟨i, hi, rfl⟩ := List.mem_map.mp hm
    rw [List.mem_range] at hi
    obtain ⟨htrain, htest⟩ := foldAt_windows candles minTrainCandles.toNat hi
    rw [noParameterSnooping_iff, htrain, htest]
    exact pairwise_slice hsorted (testCut_lt hlength hi).1.le

/-- Candles at five moments in a row. -/
def hourlyCandles : List CandleRow :=
  (List.range 5).map fun i => { quietCandle with timestampUtc := i * 3600000000 }

/-- Three folds of four candles: the last one takes two. -/
theorem hourly_partition : ∃ folds, walkForwardSplits hourlyCandles 3 1 = .ok folds ∧
    folds.map (·.foldIndex) = [0, 1, 2] ∧ Partitions hourlyCandles 1 folds ∧
    ∀ fold ∈ folds, assertNoParameterSnooping fold.train fold.test = .ok () := by
  have hvalid : ValidWindows hourlyCandles 3 1 := by decide
  obtain ⟨folds, hok, hindex, hpart, hsnoop, -⟩ := walk_forward_partition hvalid
  exact ⟨folds, hok, hindex, hpart, hsnoop (by decide)⟩

end FuturesBot
