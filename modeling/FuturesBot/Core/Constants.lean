import FuturesBot.Core.Errors
import FuturesBot.Lib.Quantize

namespace FuturesBot
open Lib

/-- `QUANT` is the eighth decimal, the scale of the numeric columns. -/
def quantPlaces : ℕ := 8

def quantize (x : Amount) : Amount := quantizeWith roundHalfEven quantPlaces x

/-- What a numeric column of the database keeps of an amount. -/
def numericColumn (x : Amount) : Amount := quantizeWith roundHalfAway quantPlaces x

def basisPoints : Amount := 10000

def minNetRiskRewardFloor : Amount := 3 / 2

/-- Crossing the book from its middle costs this much per unit. -/
def halfSpread (bid ask : Amount) : Except PyError Amount :=
  if bid ≤ 0 ∨ ask ≤ 0 then .error (.valueError "bid y ask deben ser > 0")
  else if ask ≤ bid then .error (.valueError "bid debe ser menor que ask")
  else .ok ((ask - bid) / 2)

theorem quantize_nonneg (h : 0 ≤ x) : 0 ≤ quantize x :=
  quantizeWith_nonneg (fun _ => roundHalfEven_nonneg) h

/-- Rounding does not cross a short decimal. -/
theorem quantize_le (hd : IsDecimal quantPlaces y) (h : x ≤ y) : quantize x ≤ y :=
  quantizeWith_le (fun _ _ => roundHalfEven_le) hd h

theorem quantize_isDecimal : IsDecimal quantPlaces (quantize x) := quantizeWith_isDecimal

theorem quantize_eq_self (h : IsDecimal quantPlaces x) : quantize x = x :=
  (quantizeWith_eq_self_iff roundHalfEven_intCast).mpr h

theorem abs_sub_le_of_quantize_eq (h : quantize x = quantize y) :
    |x - y| ≤ 1 / 10 ^ quantPlaces :=
  abs_sub_le_of_quantizeWith_eq h

theorem numericColumn_eq_self_iff : numericColumn x = x ↔ IsDecimal quantPlaces x :=
  quantizeWith_eq_self_iff roundHalfAway_intCast

theorem numericColumn_nonneg (h : 0 ≤ x) : 0 ≤ numericColumn x :=
  quantizeWith_nonneg (fun _ => roundHalfAway_nonneg) h

end FuturesBot
