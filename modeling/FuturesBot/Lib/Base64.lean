import Mathlib.Data.List.Basic

namespace Lib.Base64

/-- The alphabet that is safe in URLs. -/
def sextetChar (n : ℕ) : Char :=
  if n < 26 then Char.ofNat (n + 65)
  else if n < 52 then Char.ofNat (n + 71)
  else if n < 62 then Char.ofNat (n - 4)
  else if n = 62 then '-'
  else '_'

/-- Decoding also takes the characters of the other alphabet. -/
def sextetOf (c : Char) : Option ℕ :=
  let n := c.toNat
  if 65 ≤ n ∧ n ≤ 90 then some (n - 65)
  else if 97 ≤ n ∧ n ≤ 122 then some (n - 71)
  else if 48 ≤ n ∧ n ≤ 57 then some (n + 4)
  else if c = '-' ∨ c = '+' then some 62
  else if c = '_' ∨ c = '/' then some 63
  else none

/-- Groups of three bytes as four characters. The last group may be shorter, and no padding is
written for it. -/
def encode : List UInt8 → List Char
  | [] => []
  | [a] => [sextetChar (a.toNat / 4), sextetChar (a.toNat % 4 * 16)]
  | [a, b] =>
    [sextetChar (a.toNat / 4), sextetChar (a.toNat % 4 * 16 + b.toNat / 16),
      sextetChar (b.toNat % 16 * 4)]
  | a :: b :: c :: bytes =>
    sextetChar (a.toNat / 4) :: sextetChar (a.toNat % 4 * 16 + b.toNat / 16) ::
      sextetChar (b.toNat % 16 * 4 + c.toNat / 64) :: sextetChar (c.toNat % 64) :: encode bytes

/-- `binascii.a2b_base64`, which remembers its place in a group, the bits that are left over and
the padding so far. It skips characters that mean nothing, and reads no more once the padding has
completed a group. -/
def decodeFrom (place left pads : ℕ) : List Char → Option (List UInt8)
  | [] => if place = 0 then some [] else none
  | c :: text =>
    if c = '=' then
      if 2 ≤ place then
        if 4 ≤ place + (pads + 1) then some [] else decodeFrom place left (pads + 1) text
      else decodeFrom place left pads text
    else
      match sextetOf c with
      | none => decodeFrom place left pads text
      | some v =>
        match place with
        | 0 => decodeFrom 1 v 0 text
        | 1 => (decodeFrom 2 (v % 16) 0 text).map (UInt8.ofNat (left * 4 + v / 16) :: ·)
        | 2 => (decodeFrom 3 (v % 4) 0 text).map (UInt8.ofNat (left * 16 + v / 4) :: ·)
        | _ => (decodeFrom 0 0 0 text).map (UInt8.ofNat (left * 64 + v) :: ·)

def padding (length : ℕ) : List Char := List.replicate ((4 - length % 4) % 4) '='

/-- The padding that is not written is added before decoding. -/
def decode (text : List Char) : Option (List UInt8) :=
  decodeFrom 0 0 0 (text ++ padding text.length)

/-- Every character of the alphabet is read as what it stands for. -/
theorem sextetOf_sextetChar : ∀ n < 64, sextetOf (sextetChar n) = some n := by decide

theorem sextetChar_ne : ∀ n < 64, sextetChar n ≠ '=' ∧ sextetChar n ≠ '.' ∧
    (sextetChar n).toNat < 128 := by
  decide

section Places
variable (left pads : ℕ) (h : v < 64) (text : List Char)
include h

theorem decodeFrom_zero :
    decodeFrom 0 left pads (sextetChar v :: text) = decodeFrom 1 v 0 text := by
  rw [decodeFrom, if_neg (sextetChar_ne v h).1, sextetOf_sextetChar v h]
  rfl

theorem decodeFrom_one : decodeFrom 1 left pads (sextetChar v :: text) =
    (decodeFrom 2 (v % 16) 0 text).map (UInt8.ofNat (left * 4 + v / 16) :: ·) := by
  rw [decodeFrom, if_neg (sextetChar_ne v h).1, sextetOf_sextetChar v h]
  rfl

theorem decodeFrom_two : decodeFrom 2 left pads (sextetChar v :: text) =
    (decodeFrom 3 (v % 4) 0 text).map (UInt8.ofNat (left * 16 + v / 4) :: ·) := by
  rw [decodeFrom, if_neg (sextetChar_ne v h).1, sextetOf_sextetChar v h]
  rfl

theorem decodeFrom_three : decodeFrom 3 left pads (sextetChar v :: text) =
    (decodeFrom 0 0 0 text).map (UInt8.ofNat (left * 64 + v) :: ·) := by
  rw [decodeFrom, if_neg (sextetChar_ne v h).1, sextetOf_sextetChar v h]
  rfl

end Places

/-- A byte is put together from the two parts of it. -/
theorem ofNat_eq {a : UInt8} (h : n = a.toNat) : UInt8.ofNat n = a := by
  rw [h, UInt8.ofNat_toNat]

/-- The first byte of a group, before whatever the second character goes on with. -/
theorem decodeFrom_first (a : UInt8) (hlow : low < 16) (text : List Char) :
    decodeFrom 0 0 0 (sextetChar (a.toNat / 4) :: sextetChar (a.toNat % 4 * 16 + low) :: text) =
      (decodeFrom 2 low 0 text).map (a :: ·) := by
  have ha := a.toNat_lt
  rw [decodeFrom_zero _ _ (by omega), decodeFrom_one _ _ (by omega)]
  have hbyte : UInt8.ofNat (a.toNat / 4 * 4 + (a.toNat % 4 * 16 + low) / 16) = a :=
    ofNat_eq (by omega)
  have hleft : (a.toNat % 4 * 16 + low) % 16 = low := by omega
  rw [hbyte, hleft]

/-- The second one, before whatever the third character goes on with. -/
theorem decodeFrom_second (b : UInt8) (hlow : low < 4) (text : List Char) :
    decodeFrom 2 (b.toNat / 16) 0 (sextetChar (b.toNat % 16 * 4 + low) :: text) =
      (decodeFrom 3 low 0 text).map (b :: ·) := by
  have hb := b.toNat_lt
  rw [decodeFrom_two _ _ (by omega)]
  have hbyte : UInt8.ofNat (b.toNat / 16 * 16 + (b.toNat % 16 * 4 + low) / 4) = b :=
    ofNat_eq (by omega)
  have hleft : (b.toNat % 16 * 4 + low) % 4 = low := by omega
  rw [hbyte, hleft]

theorem decodeFrom_third (c : UInt8) (text : List Char) :
    decodeFrom 3 (c.toNat / 64) 0 (sextetChar (c.toNat % 64) :: text) =
      (decodeFrom 0 0 0 text).map (c :: ·) := by
  have hc := c.toNat_lt
  rw [decodeFrom_three _ _ (by omega)]
  have hbyte : UInt8.ofNat (c.toNat / 64 * 64 + c.toNat % 64) = c := ofNat_eq (by omega)
  rw [hbyte]

theorem decode_encode (bytes : List UInt8) : decode (encode bytes) = some bytes := by
  unfold decode
  induction bytes using encode.induct with
  | case1 => rfl
  | case2 a =>
    have hfirst := decodeFrom_first a (by decide : 0 < 16) (padding 2)
    rw [Nat.add_zero] at hfirst
    exact hfirst
  | case3 a b =>
    have hb := b.toNat_lt
    have hsecond := decodeFrom_second b (by decide : 0 < 4) (padding 3)
    rw [Nat.add_zero] at hsecond
    refine (decodeFrom_first a (by omega) _).trans ?_
    exact congrArg (Option.map (a :: ·)) hsecond
  | case4 a b c bytes ih =>
    have hb := b.toNat_lt
    have hc := c.toNat_lt
    have hpadding : padding ((encode bytes).length + 4) = padding (encode bytes).length := by
      rw [padding, padding, Nat.add_mod_right]
    rw [encode]
    simp only [List.cons_append, List.length_cons]
    rw [hpadding, decodeFrom_first a (by omega), decodeFrom_second b (by omega),
      decodeFrom_third c, ih]
    rfl

theorem mem_encode (h : c ∈ encode bytes) : ∃ n < 64, c = sextetChar n := by
  induction bytes using encode.induct with
  | case1 => cases h
  | case2 a =>
    have ha := a.toNat_lt
    simp only [encode, List.mem_cons, List.not_mem_nil, or_false] at h
    rcases h with rfl | rfl
    · exact ⟨_, by omega, rfl⟩
    · exact ⟨_, by omega, rfl⟩
  | case3 a b =>
    have ha := a.toNat_lt
    have hb := b.toNat_lt
    simp only [encode, List.mem_cons, List.not_mem_nil, or_false] at h
    rcases h with rfl | rfl | rfl
    · exact ⟨_, by omega, rfl⟩
    · exact ⟨_, by omega, rfl⟩
    · exact ⟨_, by omega, rfl⟩
  | case4 a b c bytes ih =>
    have ha := a.toNat_lt
    have hb := b.toNat_lt
    have hc := c.toNat_lt
    simp only [encode, List.mem_cons] at h
    rcases h with rfl | rfl | rfl | rfl | h
    · exact ⟨_, by omega, rfl⟩
    · exact ⟨_, by omega, rfl⟩
    · exact ⟨_, by omega, rfl⟩
    · exact ⟨_, by omega, rfl⟩
    · exact ih h

/-- What is encoded is plain text without a dot. -/
theorem plain_of_mem_encode (h : c ∈ encode bytes) : c ≠ '.' ∧ c.toNat < 128 := by
  obtain ⟨n, hn, rfl⟩ := mem_encode h
  exact (sextetChar_ne n hn).2

theorem dollar_notMem_encode : '$' ∉ encode bytes := by
  have hchars : ∀ n < 64, sextetChar n ≠ '$' := by decide
  intro h
  obtain ⟨n, hn, heq⟩ := mem_encode h
  exact hchars n hn heq.symm

theorem encode_ne_nil (h : bytes ≠ []) : encode bytes ≠ [] := by
  rcases bytes with _ | ⟨a, _ | ⟨b, _ | ⟨c, bytes⟩⟩⟩
  · exact absurd rfl h
  all_goals exact List.cons_ne_nil _ _

theorem encode_injective : Function.Injective encode := by
  intro bytes bytes' h
  have hdecoded := congrArg decode h
  rw [decode_encode, decode_encode] at hdecoded
  exact Option.some.inj hdecoded

end Lib.Base64
