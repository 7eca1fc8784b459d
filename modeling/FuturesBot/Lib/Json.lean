import FuturesBot.Lib.Reading

namespace Lib.Json

def quote : Char := Char.ofNat 34

def backslash : Char := Char.ofNat 92

/-- The characters that have an escape of their own, and its letter. -/
def shortEscapes : List (Char × Char) :=
  [(quote, quote), (backslash, backslash), (Char.ofNat 8, 'b'), (Char.ofNat 12, 'f'),
    (Char.ofNat 10, 'n'), (Char.ofNat 13, 'r'), (Char.ofNat 9, 't')]

def hex4 (n : ℕ) : List Char :=
  [Nat.digitChar (n / 4096), Nat.digitChar (n / 256 % 16), Nat.digitChar (n / 16 % 16),
    Nat.digitChar (n % 16)]

def unicodeEscape (unit : ℕ) : List Char := backslash :: 'u' :: hex4 unit

/-- Only ASCII is written: what is beyond 16 bits, as a pair of surrogates. -/
def escape (c : Char) : List Char :=
  match shortEscapes.find? (·.1 = c) with
  | some found => [backslash, found.2]
  | none =>
    if ' ' ≤ c ∧ c ≤ '~' then [c]
    else if c.toNat < 65536 then unicodeEscape c.toNat
    else
      unicodeEscape (55296 + (c.toNat - 65536) / 1024) ++
        unicodeEscape (56320 + (c.toNat - 65536) % 1024)

def hexValue (c : Char) : Option ℕ :=
  let n := c.toNat
  if 48 ≤ n ∧ n ≤ 57 then some (n - 48)
  else if 97 ≤ n ∧ n ≤ 102 then some (n - 87)
  else if 65 ≤ n ∧ n ≤ 70 then some (n - 55)
  else none

def readHex : Reader ℕ
  | [] => none
  | c :: rest => (hexValue c).map (·, rest)

def readHex4 : Reader ℕ := do
  let a ← readHex
  let b ← readHex
  let c ← readHex
  let d ← readHex
  pure (((a * 16 + b) * 16 + c) * 16 + d)

def isHigh (unit : ℕ) : Bool := 55296 ≤ unit ∧ unit < 56320

def isLow (unit : ℕ) : Bool := 56320 ≤ unit ∧ unit < 57344

/-- A surrogate that stands alone is no character here. -/
def readUnicode : Reader Char := do
  let unit ← readHex4
  if isHigh unit then do
    Reader.char backslash
    Reader.char 'u'
    let low ← readHex4
    if isLow low then pure (Char.ofNat (65536 + (unit - 55296) * 1024 + (low - 56320)))
    else Reader.fail
  else if isLow unit then Reader.fail
  else pure (Char.ofNat unit)

/-- What follows a backslash. -/
def readEscape : Reader Char
  | [] => none
  | c :: rest =>
    if c = 'u' then readUnicode rest
    else if c = '/' then some (c, rest)
    else (shortEscapes.find? (·.2 = c)).map fun found => (found.1, rest)

/-- A string up to its closing quote. Control characters do not stand in it as they are. -/
def readBody : ℕ → Reader (List Char)
  | 0 => Reader.fail
  | fuel + 1 => fun
    | [] => none
    | c :: rest =>
      if c = quote then some ([], rest)
      else if c = backslash then
        (do let d ← readEscape; let chars ← readBody fuel; pure (d :: chars) : Reader _) rest
      else if c < ' ' then none
      else (do let chars ← readBody fuel; pure (c :: chars) : Reader _) rest

/-- The values that are read here. -/
inductive Item
  | str (s : String)
  | int (n : ℤ)
  deriving DecidableEq

def writeString (s : String) : List Char := quote :: (s.toList.flatMap escape ++ [quote])

def readString : Reader String := do
  Reader.char quote
  let chars ← fun text => readBody text.length text
  pure (String.ofList chars)

def writeInt (n : ℤ) : List Char :=
  (if n < 0 then ['-'] else []) ++ Nat.toDigits 10 n.natAbs

def readMinus : Reader Bool
  | [] => some (false, [])
  | c :: rest => if c = '-' then some (true, rest) else some (false, c :: rest)

/-- An integer has no zeros before it, and not more digits than the interpreter takes. -/
def readInt : Reader ℤ := do
  let negative ← readMinus
  let digits ← Reader.digits
  let value := Nat.ofDigitChars 10 digits 0
  if digits = Nat.toDigits 10 value ∧ digits.length ≤ 4300 then
    pure (if negative then -value else value)
  else Reader.fail

def writeItem : Item → List Char
  | .str s => writeString s
  | .int n => writeInt n

def readItem : Reader Item
  | [] => none
  | c :: rest =>
    if c = quote then (do let s ← readString; pure (.str s) : Reader _) (c :: rest)
    else (do let n ← readInt; pure (.int n) : Reader _) (c :: rest)

/-- The members of an object, and its end. -/
def writeMembers : List (String × Item) → List Char
  | [] => ['}']
  | [m] => writeString m.1 ++ ':' :: (writeItem m.2 ++ ['}'])
  | m :: ms => writeString m.1 ++ ':' :: (writeItem m.2 ++ ',' :: writeMembers ms)

def writeObject (ms : List (String × Item)) : List Char := '{' :: writeMembers ms

/-- Whether there are more members. -/
def readMore : Reader Bool
  | [] => none
  | c :: rest =>
    if c = ',' then some (true, rest) else if c = '}' then some (false, rest) else none

def readMembers : ℕ → Reader (List (String × Item))
  | 0 => Reader.fail
  | fuel + 1 => do
    let key ← readString
    Reader.char ':'
    let item ← readItem
    let more ← readMore
    if more then do
      let ms ← readMembers fuel
      pure ((key, item) :: ms)
    else pure [(key, item)]

/-- An object of strings and integers, without blanks, is the whole of a text. -/
def readObject (text : List Char) : Option (List (String × Item)) :=
  match (do Reader.char '{'; readMembers text.length : Reader _) text with
  | some (ms, []) => some ms
  | _ => none

theorem hexValue_digitChar : ∀ n < 16, hexValue (Nat.digitChar n) = some n := by decide

theorem reads_hex (h : n < 16) (rest : List Char) : Reads readHex [Nat.digitChar n] n rest := by
  change readHex (Nat.digitChar n :: rest) = _
  rw [readHex, hexValue_digitChar n h]
  rfl

theorem reads_hex4 (h : n < 65536) (rest : List Char) : Reads readHex4 (hex4 n) n rest := by
  have hvalue : ((n / 4096 * 16 + n / 256 % 16) * 16 + n / 16 % 16) * 16 + n % 16 = n := by omega
  have hdigits : Reads readHex4 ([Nat.digitChar (n / 4096)] ++ ([Nat.digitChar (n / 256 % 16)] ++
      ([Nat.digitChar (n / 16 % 16)] ++ [Nat.digitChar (n % 16)])))
      (((n / 4096 * 16 + n / 256 % 16) * 16 + n / 16 % 16) * 16 + n % 16) rest := by
    refine (reads_hex (by omega) _).bind ?_
    refine (reads_hex (by omega) _).bind ?_
    refine (reads_hex (by omega) _).bind ?_
    exact (reads_hex (by omega) rest).last (.pure _)
  rw [hvalue] at hdigits
  exact hdigits

theorem reads_unicode_unit (hn : n < 65536) (hhigh : isHigh n = false) (hlow : isLow n = false)
    (rest : List Char) : Reads readUnicode (hex4 n) (Char.ofNat n) rest := by
  refine (reads_hex4 hn rest).last ?_
  rw [hhigh, hlow]
  exact .pure _

theorem reads_unicode_pair (hv : v < 1048576) (rest : List Char) :
    Reads readUnicode (hex4 (55296 + v / 1024) ++ unicodeEscape (56320 + v % 1024))
      (Char.ofNat (65536 + v)) rest := by
  have hhigh : isHigh (55296 + v / 1024) = true := by
    simp only [isHigh, decide_eq_true_eq]
    omega
  have hlow : isLow (56320 + v % 1024) = true := by
    simp only [isLow, decide_eq_true_eq]
    omega
  have hvalue : 65536 + (55296 + v / 1024 - 55296) * 1024 + (56320 + v % 1024 - 56320) =
      65536 + v := by
    omega
  refine (reads_hex4 (by omega) _).bind ?_
  rw [hhigh]
  refine .char_bind (.char_bind ?_)
  refine (reads_hex4 (by omega) rest).last ?_
  rw [hlow, hvalue]
  exact .pure _

theorem shortEscapes_unique : ∀ e ∈ shortEscapes, e.2 ≠ 'u' ∧ e.2 ≠ '/' ∧
    shortEscapes.find? (·.2 = e.2) = some e := by
  decide

/-- The reader goes by the next character. -/
theorem readBody_cons (fuel : ℕ) (c : Char) (text : List Char) :
    readBody (fuel + 1) (c :: text) =
      if c = quote then some ([], text)
      else if c = backslash then
        (do let d ← readEscape; let chars ← readBody fuel; pure (d :: chars) : Reader _) text
      else if c < ' ' then none
      else (do let chars ← readBody fuel; pure (c :: chars) : Reader _) text :=
  rfl

/-- What stands behind a backslash is read as the character that was escaped. -/
theorem reads_body_backslash (hescape : Reads readEscape code c (text ++ rest))
    (h : Reads (readBody fuel) text chars rest) :
    Reads (readBody (fuel + 1)) (backslash :: (code ++ text)) (c :: chars) rest := by
  have hbind : Reads
      (do let d ← readEscape; let chars ← readBody fuel; pure (d :: chars) : Reader _)
      (code ++ text) (c :: chars) rest :=
    hescape.bind (h.last (.pure _))
  unfold Reads
  rw [List.cons_append, readBody_cons, if_neg (by decide), if_pos rfl]
  exact hbind

/-- The code of a character after the letter that announces it. -/
theorem reads_escape_unicode (h : Reads readUnicode code c rest) :
    Reads readEscape ('u' :: code) c rest := by
  change readEscape ('u' :: (code ++ rest)) = _
  rw [readEscape, if_pos rfl]
  exact h

theorem reads_body_plain (hquote : c ≠ quote) (hbackslash : c ≠ backslash) (hc : ' ' ≤ c)
    (h : Reads (readBody fuel) text chars rest) :
    Reads (readBody (fuel + 1)) (c :: text) (c :: chars) rest := by
  have hbind : Reads (do let chars ← readBody fuel; pure (c :: chars) : Reader _)
      text (c :: chars) rest :=
    h.last (.pure _)
  change readBody (fuel + 1) (c :: (text ++ rest)) = _
  rw [readBody_cons]
  refine (if_neg hquote).trans ((if_neg hbackslash).trans ?_)
  exact (if_neg (Char.not_lt.mpr hc)).trans hbind

theorem reads_body_escape (c : Char) (h : Reads (readBody fuel) text chars rest) :
    Reads (readBody (fuel + 1)) (escape c ++ text) (c :: chars) rest := by
  unfold escape
  cases hfound : shortEscapes.find? (·.1 = c) with
  | some found =>
    have hchar : found.1 = c := by simpa using List.find?_some hfound
    obtain ⟨hu, hslash, hback⟩ :=
      shortEscapes_unique found (List.mem_of_find?_eq_some hfound)
    have hescape : Reads readEscape [found.2] c (text ++ rest) := by
      change readEscape (found.2 :: (text ++ rest)) = _
      rw [readEscape, if_neg hu, if_neg hslash, hback, ← hchar]
      rfl
    exact reads_body_backslash hescape h
  | none =>
    have hplain := List.find?_eq_none.mp hfound
    dsimp only
    split
    · rename_i hprintable
      have hquote : c ≠ quote := fun hc => hplain (quote, quote) (by decide) (by simp [hc])
      have hbackslash : c ≠ backslash := fun hc =>
        hplain (backslash, backslash) (by decide) (by simp [hc])
      exact reads_body_plain hquote hbackslash hprintable.1 h
    · have hvalid : c.toNat < 55296 ∨ 57343 < c.toNat ∧ c.toNat < 1114112 := c.valid
      split
      · rename_i hunit
        have hhigh : isHigh c.toNat = false := by
          simp only [isHigh, decide_eq_false_iff_not]
          omega
        have hlow : isLow c.toNat = false := by
          simp only [isLow, decide_eq_false_iff_not]
          omega
        have hread := reads_unicode_unit hunit hhigh hlow (text ++ rest)
        rw [Char.ofNat_toNat] at hread
        exact reads_body_backslash (reads_escape_unicode hread) h
      · rename_i hunit
        have hread := reads_unicode_pair (v := c.toNat - 65536) (by omega) (text ++ rest)
        rw [Nat.add_sub_cancel' (by omega), Char.ofNat_toNat] at hread
        exact reads_body_backslash (reads_escape_unicode hread) h

theorem escape_ne_nil (c : Char) : escape c ≠ [] := by
  unfold escape
  split
  · exact List.cons_ne_nil _ _
  · split
    · exact List.cons_ne_nil _ _
    · split <;> exact List.cons_ne_nil _ _

theorem length_le_escaped (chars : List Char) : chars.length ≤ (chars.flatMap escape).length := by
  induction chars with
  | nil => exact Nat.le_refl _
  | cons c chars ih =>
    have hc : 0 < (escape c).length := List.length_pos_iff.mpr (escape_ne_nil c)
    rw [List.flatMap_cons, List.length_append, List.length_cons]
    omega

theorem reads_body (chars : List Char) (rest : List Char) (hfuel : chars.length < fuel) :
    Reads (readBody fuel) (chars.flatMap escape ++ [quote]) chars rest := by
  induction chars generalizing fuel with
  | nil =>
    cases fuel with
    | zero => exact absurd hfuel (by simp)
    | succ fuel =>
      change readBody (fuel + 1) (quote :: rest) = _
      rw [readBody_cons]
      exact if_pos rfl
  | cons c chars ih =>
    cases fuel with
    | zero => exact absurd hfuel (by simp)
    | succ fuel =>
      rw [List.flatMap_cons, List.append_assoc]
      exact reads_body_escape c (ih (Nat.lt_of_succ_lt_succ hfuel))

theorem reads_string (s : String) (rest : List Char) :
    Reads readString (writeString s) s rest := by
  have hlength := length_le_escaped s.toList
  have hbody : Reads (fun text => readBody text.length text)
      (s.toList.flatMap escape ++ [quote]) s.toList rest :=
    reads_body s.toList rest (by
      rw [List.length_append, List.length_append, List.length_singleton]
      omega)
  refine .char_bind (hbody.last ?_)
  rw [String.ofList_toList]
  exact .pure _

theorem reads_minus_none (hrest : ∀ c ∈ rest.head?, c ≠ '-') :
    Reads readMinus [] false rest := by
  cases rest with
  | nil => rfl
  | cons c rest =>
    change readMinus (c :: rest) = _
    rw [readMinus, if_neg (hrest c rfl)]

/-- An integer that is not too long to be read back. -/
def Readable (n : ℤ) : Prop := (Nat.toDigits 10 n.natAbs).length ≤ 4300

theorem reads_int (hn : Readable n) (hrest : ∀ c ∈ rest.head?, ¬c.isDigit) :
    Reads readInt (writeInt n) n rest := by
  have hdigit : ∀ c ∈ Nat.toDigits 10 n.natAbs, c.isDigit :=
    fun _ hc => Nat.isDigit_of_mem_toDigits (by decide) (by decide) hc
  have hvalue : Nat.ofDigitChars 10 (Nat.toDigits 10 n.natAbs) 0 = n.natAbs :=
    Nat.ofDigitChars_ten_toDigits
  have hminus : Reads readMinus (if n < 0 then ['-'] else []) (decide (n < 0))
      (Nat.toDigits 10 n.natAbs ++ rest) := by
    by_cases hneg : n < 0
    · rw [if_pos hneg, decide_eq_true hneg]
      rfl
    · rw [if_neg hneg, decide_eq_false hneg]
      obtain ⟨d, text, htext⟩ :=
        List.exists_cons_of_ne_nil (Nat.toDigits_ne_nil (n := n.natAbs) (b := 10))
      have hd : d.isDigit := hdigit d (htext ▸ List.mem_cons_self)
      rw [htext]
      refine reads_minus_none fun c hc => ?_
      obtain rfl : d = c := Option.some.inj hc
      rintro rfl
      exact absurd hd (by decide)
  refine hminus.bind ((Reads.digits hdigit hrest).last ?_)
  rw [hvalue, if_pos ⟨rfl, hn⟩]
  have hsign : (if decide (n < 0) then -(n.natAbs : ℤ) else n.natAbs) = n := by
    simp only [decide_eq_true_eq]
    split <;> omega
  rw [hsign]
  exact .pure _

/-- What the reader takes back. -/
def Item.Readable : Item → Prop
  | .str _ => True
  | .int n => Json.Readable n

theorem writeInt_head (n : ℤ) : ∃ c text, writeInt n = c :: text ∧ c ≠ quote := by
  unfold writeInt
  split
  · exact ⟨_, _, rfl, by decide⟩
  · obtain ⟨c, text, htext⟩ :=
      List.exists_cons_of_ne_nil (Nat.toDigits_ne_nil (n := n.natAbs) (b := 10))
    have hmem : c ∈ Nat.toDigits 10 n.natAbs := htext ▸ List.mem_cons_self
    have hdigit : c.isDigit := Nat.isDigit_of_mem_toDigits (by decide) (by decide) hmem
    refine ⟨c, text, htext, ?_⟩
    rintro rfl
    exact absurd hdigit (by decide)

theorem reads_item (hitem : item.Readable) (hrest : ∀ c ∈ rest.head?, ¬c.isDigit) :
    Reads readItem (writeItem item) item rest := by
  cases item with
  | str s =>
    have hbind : Reads (do let s ← readString; pure (.str s) : Reader Item) (writeString s)
        (.str s) rest :=
      (reads_string s rest).last (.pure _)
    change readItem (quote :: _) = _
    rw [readItem]
    exact (if_pos rfl).trans hbind
  | int n =>
    obtain ⟨c, text, htext, hquote⟩ := writeInt_head n
    have hbind : Reads (do let n ← readInt; pure (.int n) : Reader Item) (writeInt n)
        (.int n) rest :=
      (reads_int hitem hrest).last (.pure _)
    rw [htext] at hbind
    rw [writeItem, htext]
    change readItem (c :: (text ++ rest)) = _
    rw [readItem]
    exact (if_neg hquote).trans hbind

theorem reads_members (hne : ms ≠ []) (hms : ∀ m ∈ ms, m.2.Readable) (hfuel : ms.length ≤ fuel)
    (rest : List Char) : Reads (readMembers fuel) (writeMembers ms) ms rest := by
  induction ms generalizing fuel with
  | nil => exact absurd rfl hne
  | cons m ms ih =>
    obtain ⟨fuel, rfl⟩ : ∃ k, fuel = k + 1 := ⟨fuel - 1, by simp at hfuel; omega⟩
    cases ms with
    | nil =>
      have hmore : Reads readMore ['}'] false rest := rfl
      refine (reads_string m.1 _).bind (.char_bind ?_)
      refine (reads_item (hms m List.mem_cons_self) ?_).bind (hmore.last (.pure _))
      intro c hc
      obtain rfl : '}' = c := Option.some.inj hc
      decide
    | cons m' ms =>
      have hmore : ∀ rest, Reads readMore [','] true rest := fun rest => rfl
      refine (reads_string m.1 _).bind (.char_bind ?_)
      refine (reads_item (hms m List.mem_cons_self) ?_).bind ((hmore _).bind ?_)
      · intro c hc
        obtain rfl : ',' = c := Option.some.inj hc
        decide
      · refine (ih (List.cons_ne_nil _ _) ?_ (Nat.le_of_succ_le_succ hfuel)).last (.pure _)
        exact fun m hm => hms m (List.mem_cons_of_mem _ hm)

theorem length_le_members (ms : List (String × Item)) : ms.length ≤ (writeMembers ms).length := by
  induction ms with
  | nil => exact Nat.zero_le _
  | cons m ms ih =>
    cases ms with
    | nil =>
      simp only [writeMembers, List.length_append, List.length_cons]
      omega
    | cons m' ms =>
      simp only [writeMembers, List.length_append, List.length_cons] at ih ⊢
      omega

theorem readObject_writeObject (hne : ms ≠ []) (hms : ∀ m ∈ ms, m.2.Readable) :
    readObject (writeObject ms) = some ms := by
  have hlength := length_le_members ms
  have hread : Reads (do Reader.char '{'; readMembers (writeObject ms).length : Reader _)
      (writeObject ms) ms [] :=
    .char_bind (reads_members hne hms (by rw [writeObject, List.length_cons]; omega) [])
  unfold Reads at hread
  rw [List.append_nil] at hread
  unfold readObject
  rw [hread]

/-- The characters that are written, none of which is beyond ASCII. -/
def Plain (c : Char) : Prop := 0 < c.toNat ∧ c.toNat < 128

theorem plain_digitChar : ∀ n < 16, Plain (Nat.digitChar n) := by
  unfold Plain
  decide

theorem plain_shortEscapes : Plain backslash ∧ ∀ e ∈ shortEscapes, Plain e.2 := by
  unfold Plain
  decide

theorem plain_unicodeEscape (hunit : unit < 65536) (h : c ∈ unicodeEscape unit) : Plain c := by
  simp only [unicodeEscape, hex4, List.mem_cons, List.not_mem_nil, or_false] at h
  rcases h with rfl | rfl | rfl | rfl | rfl | rfl
  · exact plain_shortEscapes.1
  · exact ⟨by decide, by decide⟩
  all_goals exact plain_digitChar _ (by omega)

theorem plain_escape (h : d ∈ escape c) : Plain d := by
  unfold escape at h
  split at h
  · rename_i found hfound
    simp only [List.mem_cons, List.not_mem_nil, or_false] at h
    rcases h with rfl | rfl
    · exact plain_shortEscapes.1
    · exact plain_shortEscapes.2 found (List.mem_of_find?_eq_some hfound)
  · split at h
    · rename_i hprintable
      obtain rfl := List.mem_singleton.mp h
      have hlow : 32 ≤ d.toNat := UInt32.le_iff_toNat_le.mp hprintable.1
      have hhigh : d.toNat ≤ 126 := UInt32.le_iff_toNat_le.mp hprintable.2
      exact ⟨by omega, by omega⟩
    · have hvalid : c.toNat < 55296 ∨ 57343 < c.toNat ∧ c.toNat < 1114112 := c.valid
      split at h
      · rename_i hunit
        exact plain_unicodeEscape hunit h
      · rcases List.mem_append.mp h with h | h
        · exact plain_unicodeEscape (by omega) h
        · exact plain_unicodeEscape (by omega) h

theorem plain_writeString (h : c ∈ writeString s) : Plain c := by
  have hquote : Plain quote := ⟨by decide, by decide⟩
  unfold writeString at h
  simp only [List.mem_cons, List.mem_append, List.mem_flatMap, List.not_mem_nil, or_false] at h
  rcases h with rfl | ⟨d, -, h⟩ | rfl
  · exact hquote
  · exact plain_escape h
  · exact hquote

theorem plain_of_isDigit (h : c.isDigit) : Plain c := by
  have hbounds : 48 ≤ c.toNat ∧ c.toNat ≤ 57 := Char.isDigit_iff_toNat.mp h
  exact ⟨by omega, by omega⟩

theorem plain_writeItem (h : c ∈ writeItem item) : Plain c := by
  cases item with
  | str s => exact plain_writeString h
  | int n =>
    rcases List.mem_append.mp h with h | h
    · split at h
      · obtain rfl := List.mem_singleton.mp h
        exact ⟨by decide, by decide⟩
      · cases h
    · exact plain_of_isDigit (Nat.isDigit_of_mem_toDigits (by decide) (by decide) h)

theorem plain_writeMembers (h : c ∈ writeMembers ms) : Plain c := by
  have hmarks : Plain ':' ∧ Plain ',' ∧ Plain '}' := by
    unfold Plain
    decide
  induction ms with
  | nil =>
    obtain rfl := List.mem_singleton.mp h
    exact hmarks.2.2
  | cons m ms ih =>
    cases ms with
    | nil =>
      simp only [writeMembers, List.mem_append, List.mem_cons, List.not_mem_nil, or_false] at h
      rcases h with h | rfl | h | rfl
      · exact plain_writeString h
      · exact hmarks.1
      · exact plain_writeItem h
      · exact hmarks.2.2
    | cons m' ms =>
      simp only [writeMembers, List.mem_append, List.mem_cons] at h ih
      rcases h with h | rfl | h | rfl | h
      · exact plain_writeString h
      · exact hmarks.1
      · exact plain_writeItem h
      · exact hmarks.2.1
      · exact ih h

theorem plain_writeObject (h : c ∈ writeObject ms) : Plain c := by
  rcases List.mem_cons.mp h with rfl | h
  · exact ⟨by decide, by decide⟩
  · exact plain_writeMembers h

/-- A text as bytes. -/
def utf8 (text : List Char) : List UInt8 := text.flatMap String.utf8EncodeChar

theorem utf8_injective : Function.Injective utf8 := by
  intro text text' h
  have hbytes : (String.ofList text).toByteArray = (String.ofList text').toByteArray := by
    rw [String.toByteArray_ofList, String.toByteArray_ofList]
    exact congrArg List.toByteArray h
  exact String.ofList_injective (String.toByteArray_inj.mp hbytes)

/-- The object that stands in bytes of plain text. -/
def loadObject (bytes : List UInt8) : Option (List (String × Item)) :=
  if bytes.all (fun b => 0 < b ∧ b < 128) then
    readObject (bytes.map fun b => Char.ofNat b.toNat)
  else none

theorem utf8_plain (h : ∀ c ∈ text, Plain c) :
    utf8 text = text.map fun c => UInt8.ofNat c.toNat := by
  induction text with
  | nil => rfl
  | cons c text ih =>
    have hc : c.val.toNat ≤ 127 := Nat.le_of_lt_succ (h c List.mem_cons_self).2
    have hbyte : String.utf8EncodeChar c = [UInt8.ofNat c.toNat] := if_pos hc
    have htext := ih fun d hd => h d (List.mem_cons_of_mem c hd)
    unfold utf8 at htext ⊢
    rw [List.flatMap_cons, hbyte, htext, List.map_cons]
    rfl

theorem loadObject_writeObject (hne : ms ≠ []) (hms : ∀ m ∈ ms, m.2.Readable) :
    loadObject (utf8 (writeObject ms)) = some ms := by
  have hbyte : ∀ c ∈ writeObject ms, (UInt8.ofNat c.toNat).toNat = c.toNat := by
    intro c hc
    have hplain := plain_writeObject hc
    rw [UInt8.toNat_ofNat', Nat.mod_eq_of_lt (hplain.2.trans (by decide))]
  have hall : ((writeObject ms).map fun c => UInt8.ofNat c.toNat).all
      (fun b => 0 < b ∧ b < 128) := by
    rw [List.all_eq_true]
    intro b hb
    obtain ⟨c, hc, rfl⟩ := List.mem_map.mp hb
    have hplain := plain_writeObject hc
    rw [Plain, ← hbyte c hc] at hplain
    exact decide_eq_true ⟨UInt8.lt_iff_toNat_lt.mpr hplain.1, UInt8.lt_iff_toNat_lt.mpr hplain.2⟩
  have htext : ((writeObject ms).map fun c => UInt8.ofNat c.toNat).map
      (fun b => Char.ofNat b.toNat) = writeObject ms := by
    rw [List.map_map]
    refine (List.map_congr_left fun c hc => ?_).trans (List.map_id _)
    rw [Function.comp_apply, hbyte c hc, Char.ofNat_toNat]
    rfl
  rw [loadObject, utf8_plain fun c hc => plain_writeObject hc, if_pos hall, htext,
    readObject_writeObject hne hms]

example : loadObject (utf8 (writeObject [("a", .str "é\n"), ("b", .int (-12))])) =
    some [("a", .str "é\n"), ("b", .int (-12))] := by
  decide +kernel

end Lib.Json
