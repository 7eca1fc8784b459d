import FuturesBot.Lib.Reading
import Mathlib.Data.Int.Init

namespace FuturesBot
open Lib

def isLeapYear (year : ℕ) : Bool := year % 4 = 0 ∧ (year % 100 ≠ 0 ∨ year % 400 = 0)

def daysInMonth (year : ℕ) : ℕ → ℕ
  | 2 => if isLeapYear year then 29 else 28
  | 4 | 6 | 9 | 11 => 30
  | _ => 31

theorem daysInMonth_le (year month : ℕ) : daysInMonth year month ≤ 31 := by
  unfold daysInMonth
  split
  · split <;> decide
  · decide
  · decide
  · decide
  · decide
  · decide

/-- The fields of a `datetime`. Its timezone is what it says of this time: so many microseconds
east of UTC. -/
structure DateTimeFields where
  year : ℕ
  month : ℕ
  day : ℕ
  hour : ℕ := 0
  minute : ℕ := 0
  second : ℕ := 0
  microsecond : ℕ := 0
  utcOffset : Option ℤ := none
  deriving DecidableEq, Repr

structure DateTimeFields.Valid (f : DateTimeFields) : Prop where
  year_range : 1 ≤ f.year ∧ f.year ≤ 9999
  month_range : 1 ≤ f.month ∧ f.month ≤ 12
  day_range : 1 ≤ f.day ∧ f.day ≤ daysInMonth f.year f.month
  hour_lt : f.hour < 24
  minute_lt : f.minute < 60
  second_lt : f.second < 60
  microsecond_lt : f.microsecond < 1000000
  offset_lt : ∀ offset ∈ f.utcOffset, offset.natAbs < 86400000000

instance DateTimeFields.decidableValid (f : DateTimeFields) : Decidable f.Valid :=
  decidable_of_iff
    ((1 ≤ f.year ∧ f.year ≤ 9999) ∧ (1 ≤ f.month ∧ f.month ≤ 12) ∧
      (1 ≤ f.day ∧ f.day ≤ daysInMonth f.year f.month) ∧ f.hour < 24 ∧ f.minute < 60 ∧
      f.second < 60 ∧ f.microsecond < 1000000 ∧ ∀ offset ∈ f.utcOffset, offset.natAbs < 86400000000)
    ⟨fun ⟨hy, hm, hd, hh, hi, hs, hu, ho⟩ => ⟨hy, hm, hd, hh, hi, hs, hu, ho⟩,
      fun ⟨hy, hm, hd, hh, hi, hs, hu, ho⟩ => ⟨hy, hm, hd, hh, hi, hs, hu, ho⟩⟩

structure DateTime extends DateTimeFields where
  valid : toDateTimeFields.Valid

namespace DateTime

def build (f : DateTimeFields) : Option DateTime := if h : f.Valid then some ⟨f, h⟩ else none

def daysBeforeYear (year : ℕ) : ℕ :=
  (year - 1) * 365 + (year - 1) / 4 - (year - 1) / 100 + (year - 1) / 400

def daysBeforeMonth (year month : ℕ) : ℕ :=
  ((List.range' 1 (month - 1)).map (daysInMonth year)).sum

/-- How `==` tells datetimes apart: those without a timezone by what they show, the others by
the moment that they are. -/
structure Moment where
  aware : Bool
  microseconds : ℤ
  deriving DecidableEq

def moment (t : DateTime) : Moment where
  aware := t.utcOffset.isSome
  microseconds :=
    ((((daysBeforeYear t.year + daysBeforeMonth t.year t.month + t.day : ℕ) * 24 + t.hour : ℕ) * 60 +
      t.minute : ℕ) * 60 + t.second : ℕ) * 1000000 + t.microsecond - t.utcOffset.getD 0

/-- A fraction of a second, if there is one. -/
def microsecondText (microsecond : ℕ) : List Char :=
  if microsecond = 0 then [] else '.' :: padded 6 microsecond

/-- Seconds and their fraction are left out where an offset has none. -/
def offsetSizeText (size : ℕ) : List Char :=
  let second := size / 1000000 % 60
  let microsecond := size % 1000000
  padded 2 (size / 3600000000) ++ ':' :: (padded 2 (size / 60000000 % 60) ++
    if second = 0 ∧ microsecond = 0 then []
    else ':' :: (padded 2 second ++ microsecondText microsecond))

def offsetText (offset : ℤ) : List Char :=
  (if offset < 0 then '-' else '+') :: offsetSizeText offset.natAbs

def isoformat (t : DateTime) : String :=
  String.ofList (padded 4 t.year ++ '-' :: (padded 2 t.month ++ '-' :: (padded 2 t.day ++
    'T' :: (padded 2 t.hour ++ ':' :: (padded 2 t.minute ++ ':' :: (padded 2 t.second ++
      (microsecondText t.microsecond ++ (t.utcOffset.map offsetText).getD [])))))))

def readMicrosecond : Reader ℕ := do
  let found ← Reader.afterMark (· = '.') (Reader.fixed 6)
  pure (found.getD 0)

/-- The seconds of an offset with their fraction, in microseconds. -/
def readOffsetSecond : Reader ℕ := do
  let second ← Reader.fixed 2
  let microsecond ← readMicrosecond
  pure (second * 1000000 + microsecond)

def readOffsetSize : Reader ℕ := do
  let hour ← Reader.fixed 2
  Reader.char ':'
  let minute ← Reader.fixed 2
  let rest ← Reader.afterMark (· = ':') readOffsetSecond
  pure (hour * 3600000000 + minute * 60000000 + rest.getD 0)

def readOffset : Reader (Option ℤ) := do
  let east ← Reader.afterMark (· = '+') readOffsetSize
  match east with
  | some size => pure (some (size : ℤ))
  | none => do
    let west ← Reader.afterMark (· = '-') readOffsetSize
    pure (west.map fun (size : ℕ) => -(size : ℤ))

/-- The extended format, with which `fromisoformat` undoes `isoformat`. -/
def readFields : Reader DateTimeFields := do
  let year ← Reader.fixed 4
  Reader.char '-'
  let month ← Reader.fixed 2
  Reader.char '-'
  let day ← Reader.fixed 2
  Reader.char 'T'
  let hour ← Reader.fixed 2
  Reader.char ':'
  let minute ← Reader.fixed 2
  Reader.char ':'
  let second ← Reader.fixed 2
  let microsecond ← readMicrosecond
  let utcOffset ← readOffset
  pure ⟨year, month, day, hour, minute, second, microsecond, utcOffset⟩

def ofExtended (text : String) : Option DateTime := (readFields.run text).bind build

theorem reads_microsecond {rest : List Char} (h : microsecond < 1000000)
    (hrest : ∀ c ∈ rest.head?, c ≠ '.') :
    Reads readMicrosecond (microsecondText microsecond) microsecond rest := by
  unfold microsecondText readMicrosecond
  split
  · rename_i hzero
    refine .last (.afterMark_none fun c hc => ?_) ?_
    · simpa using hrest c hc
    · rw [hzero]
      exact .pure 0
  · exact .last (.afterMark_some (by decide) (.fixed (by decide) h)) (.pure microsecond)

theorem reads_offsetSize (h : size < 86400000000) :
    Reads readOffsetSize (offsetSizeText size) size [] := by
  have hhour : size / 3600000000 < 10 ^ 2 := by omega
  have hminute : size / 60000000 % 60 < 10 ^ 2 := by omega
  have hsecond : size / 1000000 % 60 < 10 ^ 2 := by omega
  have hmicrosecond : size % 1000000 < 1000000 := by omega
  unfold offsetSizeText
  refine .bind (.fixed (by decide) hhour) (.char_bind (.bind (.fixed (by decide) hminute) ?_))
  split
  · refine .last (.afterMark_none (by simp)) ?_
    have hsize : size / 3600000000 * 3600000000 + size / 60000000 % 60 * 60000000 + 0 = size := by
      omega
    rw [Option.getD_none, hsize]
    exact .pure size
  · have hrest : Reads readOffsetSecond
        (padded 2 (size / 1000000 % 60) ++ microsecondText (size % 1000000))
        (size / 1000000 % 60 * 1000000 + size % 1000000) [] :=
      .bind (.fixed (by decide) hsecond) (.last (reads_microsecond hmicrosecond (by simp)) (.pure _))
    refine .last (.afterMark_some (by decide) hrest) ?_
    have hsize : size / 3600000000 * 3600000000 + size / 60000000 % 60 * 60000000 +
        (size / 1000000 % 60 * 1000000 + size % 1000000) = size := by
      omega
    rw [Option.getD_some, hsize]
    exact .pure size

theorem reads_offset {utcOffset : Option ℤ}
    (h : ∀ offset ∈ utcOffset, offset.natAbs < 86400000000) :
    Reads readOffset ((utcOffset.map offsetText).getD []) utcOffset [] := by
  cases utcOffset with
  | none =>
    refine .skip (.afterMark_none ?_) (.last (.afterMark_none ?_) (.pure none))
    · simp
    · simp
  | some offset =>
    have hsize := reads_offsetSize (h offset rfl)
    change Reads readOffset (offsetText offset) (some offset) []
    unfold offsetText
    by_cases hwest : offset < 0
    · rw [if_pos hwest]
      refine .skip (.afterMark_none ?_) (.last (.afterMark_some (by decide) hsize) ?_)
      · simp
      · have hvalue : -(offset.natAbs : ℤ) = offset := by omega
        rw [Option.map_some, hvalue]
        exact .pure (some offset)
    · rw [if_neg hwest]
      have hvalue : (offset.natAbs : ℤ) = offset := by omega
      have hdone :
          Reads (pure (some (offset.natAbs : ℤ)) : Reader (Option ℤ)) [] (some offset) [] := by
        rw [hvalue]
        exact .pure (some offset)
      exact .last (.afterMark_some (by decide) hsize) hdone

theorem head_offset {utcOffset : Option ℤ} :
    ∀ c ∈ ((utcOffset.map offsetText).getD []).head?, c ≠ '.' := by
  intro c hc
  cases utcOffset with
  | none => cases hc
  | some offset =>
    have hsign : c = if offset < 0 then '-' else '+' := (Option.some.inj hc).symm
    rw [hsign]
    split <;> decide

/-- What `isoformat` writes is read back. -/
theorem ofExtended_isoformat (t : DateTime) : ofExtended t.isoformat = some t := by
  have hv := t.valid
  have hyear : t.year < 10 ^ 4 := Nat.lt_succ_of_le hv.year_range.2
  have hmonth : t.month < 10 ^ 2 := Nat.lt_of_le_of_lt hv.month_range.2 (by decide)
  have hday : t.day < 10 ^ 2 :=
    Nat.lt_of_le_of_lt (hv.day_range.2.trans (daysInMonth_le t.year t.month)) (by decide)
  have hhour : t.hour < 10 ^ 2 := hv.hour_lt.trans (by decide)
  have hminute : t.minute < 10 ^ 2 := hv.minute_lt.trans (by decide)
  have hsecond : t.second < 10 ^ 2 := hv.second_lt.trans (by decide)
  have hoffset : ∀ c ∈ ((t.utcOffset.map offsetText).getD [] ++ []).head?, c ≠ '.' := by
    rw [List.append_nil]
    exact head_offset
  have hfields : readFields.run t.isoformat = some t.toDateTimeFields := by
    refine Reads.run ?_
    refine .bind (.fixed (by decide) hyear) (.char_bind ?_)
    refine .bind (.fixed (by decide) hmonth) (.char_bind ?_)
    refine .bind (.fixed (by decide) hday) (.char_bind ?_)
    refine .bind (.fixed (by decide) hhour) (.char_bind ?_)
    refine .bind (.fixed (by decide) hminute) (.char_bind ?_)
    refine .bind (.fixed (by decide) hsecond) ?_
    refine .bind (reads_microsecond hv.microsecond_lt hoffset) ?_
    exact .last (reads_offset hv.offset_lt) (.pure _)
  rw [ofExtended, hfields]
  exact dif_pos hv

end DateTime

end FuturesBot
