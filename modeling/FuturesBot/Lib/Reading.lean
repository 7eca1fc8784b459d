import Mathlib.Algebra.Ring.Nat
import Mathlib.Data.List.TakeWhile

namespace Lib

/-- Takes what it reads from the front of a text. -/
def Reader (α : Type u) := List Char → Option (α × List Char)

namespace Reader

variable {α β : Type u}

protected def pure (a : α) : Reader α := fun text => some (a, text)

protected def bind (r : Reader α) (f : α → Reader β) : Reader β := fun text =>
  match r text with
  | some (a, rest) => f a rest
  | none => none

instance : Monad Reader where
  pure := Reader.pure
  bind := Reader.bind

def fail : Reader α := fun _ => none

def char (c : Char) : Reader PUnit
  | [] => none
  | d :: rest => if d = c then some (⟨⟩, rest) else none

/-- A number that is written in so many digits. -/
def fixed (width : ℕ) : Reader ℕ := fun text =>
  let digits := text.take width
  if digits.length = width ∧ digits.all Char.isDigit then
    some (Nat.ofDigitChars 10 digits 0, text.drop width)
  else none

/-- The digits up to the next other character. -/
def digits : Reader (List Char) := fun text =>
  some (text.takeWhile Char.isDigit, text.dropWhile Char.isDigit)

/-- What follows a mark, if there is one. -/
def afterMark (p : Char → Bool) (r : Reader α) : Reader (Option α)
  | [] => some (none, [])
  | c :: rest =>
    if p c then (r rest).map fun found => (some found.1, found.2) else some (none, c :: rest)

/-- The whole of a text. -/
def run (r : Reader α) (text : String) : Option α :=
  match r text.toList with
  | some (a, []) => some a
  | _ => none

end Reader

/-- The digits of a number, with zeros before them up to a width. -/
def padded (width n : ℕ) : List Char :=
  List.replicate (width - (Nat.toDigits 10 n).length) '0' ++ Nat.toDigits 10 n

theorem length_padded (hwidth : 0 < width) (h : n < 10 ^ width) :
    (padded width n).length = width := by
  have hlength := (Nat.length_toDigits_le_iff (b := 10) (n := n) (by decide) hwidth).mpr h
  rw [padded, List.length_append, List.length_replicate]
  omega

theorem isDigit_padded (h : c ∈ padded width n) : c.isDigit := by
  rcases List.mem_append.mp h with h | h
  · rw [List.eq_of_mem_replicate h]
    rfl
  · exact Nat.isDigit_of_mem_toDigits (by decide) (by decide) h

theorem ofDigitChars_padded (width n : ℕ) : Nat.ofDigitChars 10 (padded width n) 0 = n := by
  rw [padded, Nat.ofDigitChars_append, Nat.ofDigitChars_replicate_zero, Nat.mul_zero,
    Nat.ofDigitChars_ten_toDigits]

/-- Before the rest of a text, the reader takes exactly this part of it. -/
def Reads (r : Reader α) (text : List Char) (a : α) (rest : List Char) : Prop :=
  r (text ++ rest) = some (a, rest)

namespace Reads

variable {α β : Type u} {r : Reader α} {rest : List Char}

theorem pure (a : α) : Reads (Pure.pure a : Reader α) [] a rest := rfl

theorem bind {f : α → Reader β} (hr : Reads r text a (text' ++ rest))
    (hf : Reads (f a) text' b rest) : Reads (r >>= f) (text ++ text') b rest := by
  change Reader.bind r f _ = _
  rw [Reader.bind, List.append_assoc, hr]
  exact hf

/-- A reader that is followed by nothing but a result. -/
theorem last {f : α → Reader β} (hr : Reads r text a rest) (hf : Reads (f a) [] b rest) :
    Reads (r >>= f) text b rest := by
  have h : Reads (r >>= f) (text ++ []) b rest := bind hr hf
  rwa [List.append_nil] at h

/-- A reader that finds nothing of its own. -/
theorem skip {f : α → Reader β} (hr : Reads r [] a (text ++ rest)) (hf : Reads (f a) text b rest) :
    Reads (r >>= f) text b rest :=
  bind hr hf

theorem char_bind {f : PUnit → Reader β} (hf : Reads (f ⟨⟩) text b rest) :
    Reads (Reader.char c >>= f) (c :: text) b rest := by
  have hr : Reads (Reader.char c) [c] ⟨⟩ (text ++ rest) := by
    change Reader.char c (c :: (text ++ rest)) = _
    rw [Reader.char, if_pos rfl]
  exact bind hr hf

theorem fixed (hwidth : 0 < width) (h : n < 10 ^ width) :
    Reads (Reader.fixed width) (padded width n) n rest := by
  have hlength := length_padded hwidth h
  have htake : (padded width n ++ rest).take width = padded width n := by
    rw [List.take_append_of_le_length (Nat.le_of_eq hlength.symm), List.take_of_length_le]
    exact Nat.le_of_eq hlength
  have hdrop : (padded width n ++ rest).drop width = rest := by
    rw [List.drop_append_of_le_length (Nat.le_of_eq hlength.symm), List.drop_of_length_le]
    · rfl
    · exact Nat.le_of_eq hlength
  unfold Reads Reader.fixed
  simp only [htake, hdrop, ofDigitChars_padded]
  rw [if_pos ⟨hlength, List.all_eq_true.mpr fun c hc => isDigit_padded hc⟩]

theorem digits (h : ∀ c ∈ text, c.isDigit) (hrest : ∀ c ∈ rest.head?, ¬c.isDigit) :
    Reads Reader.digits text text rest := by
  have hstop : rest.takeWhile Char.isDigit = [] := by
    cases rest with
    | nil => rfl
    | cons c rest => exact List.takeWhile_cons_of_neg (hrest c rfl)
  have hkeep : rest.dropWhile Char.isDigit = rest := by
    cases rest with
    | nil => rfl
    | cons c rest => exact List.dropWhile_cons_of_neg (hrest c rfl)
  unfold Reads Reader.digits
  rw [List.takeWhile_append_of_pos h, List.dropWhile_append_of_pos h, hstop, hkeep, List.append_nil]

theorem afterMark_some {p : Char → Bool} (hp : p c) (h : Reads r text a rest) :
    Reads (Reader.afterMark p r) (c :: text) (some a) rest := by
  change Reader.afterMark p r (c :: (text ++ rest)) = _
  rw [Reader.afterMark, if_pos hp, h]
  rfl

theorem afterMark_none {p : Char → Bool} (hrest : ∀ c ∈ rest.head?, ¬p c) :
    Reads (Reader.afterMark p r) [] none rest := by
  cases rest with
  | nil => rfl
  | cons c rest =>
    change Reader.afterMark p r (c :: rest) = _
    rw [Reader.afterMark, if_neg (hrest c rfl)]

theorem run (h : Reads r text a []) : r.run (String.ofList text) = some a := by
  unfold Reads at h
  rw [List.append_nil] at h
  unfold Reader.run
  rw [String.toList_ofList, h]

end Reads

end Lib
