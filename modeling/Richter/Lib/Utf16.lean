import Mathlib.Data.List.Basic

/-! Strings of JavaScript, as their UTF-16 code units: the characters that they stand for, and
percent-encoding of a URI component. -/

namespace Lib

/-- A string, as its code units.  Surrogates may stand alone. -/
abbrev Utf16 := List UInt16

namespace Utf16

def isHighSurrogate (u : UInt16) : Bool := 0xd800 ≤ u.toNat && u.toNat < 0xdc00

def isLowSurrogate (u : UInt16) : Bool := 0xdc00 ≤ u.toNat && u.toNat < 0xe000

/-- The code units of a character. -/
def charUnits (c : Char) : Utf16 :=
  if c.toNat < 0x10000 then [UInt16.ofNat c.toNat]
  else
    [UInt16.ofNat (0xd800 + (c.toNat - 0x10000) / 0x400),
      UInt16.ofNat (0xdc00 + (c.toNat - 0x10000) % 0x400)]

/-- A string literal. -/
def units (s : String) : Utf16 := s.toList.flatMap charUnits

/-- The character of a pair of surrogates. -/
def pairChar (high low : UInt16) : Char :=
  Char.ofNat (0x10000 + (high.toNat - 0xd800) * 0x400 + (low.toNat - 0xdc00))

/-- The characters of a string, if no surrogate stands alone. -/
def chars : Utf16 → Option (List Char)
  | [] => some []
  | u :: us =>
    if isHighSurrogate u then
      match us with
      | [] => none
      | v :: rest => if isLowSurrogate v then (chars rest).map (pairChar u v :: ·) else none
    else if isLowSurrogate u then none
    else (chars us).map (Char.ofNat u.toNat :: ·)

theorem toNat_ofNat_of_valid {n : Nat} (h : n.isValidChar) : (Char.ofNat n).toNat = n := by
  have hChar : Char.ofNat n = Char.ofNatAux n h := dif_pos h
  rw [hChar]
  rfl

theorem chars_cons {u : UInt16} (hHigh : isHighSurrogate u = false)
    (hLow : isLowSurrogate u = false) (us : Utf16) :
    chars (u :: us) = (chars us).map (Char.ofNat u.toNat :: ·) := by
  cases us <;> simp [chars, hHigh, hLow]

theorem chars_charUnits_append (c : Char) (us : Utf16) :
    chars (charUnits c ++ us) = (chars us).map (c :: ·) := by
  have hValid : c.toNat.isValidChar := c.valid
  unfold charUnits
  split
  · next hShort =>
    have hUnit : (UInt16.ofNat c.toNat).toNat = c.toNat := by
      rw [UInt16.toNat_ofNat']
      omega
    have hHigh : isHighSurrogate (UInt16.ofNat c.toNat) = false := by
      simp [isHighSurrogate, hUnit]
      omega
    have hLow : isLowSurrogate (UInt16.ofNat c.toNat) = false := by
      simp [isLowSurrogate, hUnit]
      omega
    rw [List.singleton_append, chars_cons hHigh hLow, hUnit, Char.ofNat_toNat]
  · next hLong =>
    generalize hu : UInt16.ofNat (0xd800 + (c.toNat - 0x10000) / 0x400) = u
    generalize hv : UInt16.ofNat (0xdc00 + (c.toNat - 0x10000) % 0x400) = v
    have hHighUnit : u.toNat = 0xd800 + (c.toNat - 0x10000) / 0x400 := by
      rw [← hu, UInt16.toNat_ofNat']
      omega
    have hLowUnit : v.toNat = 0xdc00 + (c.toNat - 0x10000) % 0x400 := by
      rw [← hv, UInt16.toNat_ofNat']
      omega
    have hHigh : isHighSurrogate u = true := by
      simp [isHighSurrogate, hHighUnit]
      omega
    have hLow : isLowSurrogate v = true := by
      simp [isLowSurrogate, hLowUnit]
      omega
    have hPair : pairChar u v = c := by
      have hCode : 0x10000 + (u.toNat - 0xd800) * 0x400 + (v.toNat - 0xdc00) = c.toNat := by
        omega
      rw [pairChar, hCode, Char.ofNat_toNat]
    simp [chars, hHigh, hLow, hPair]

theorem chars_flatMap_charUnits (cs : List Char) : chars (cs.flatMap charUnits) = some cs := by
  induction cs with
  | nil => rfl
  | cons c cs ih => rw [List.flatMap_cons, chars_charUnits_append, ih, Option.map_some]

theorem flatMap_charUnits_of_chars {us : Utf16} {cs : List Char} (h : chars us = some cs) :
    cs.flatMap charUnits = us := by
  fun_induction chars us generalizing cs with
  | case1 =>
    cases h
    rfl
  | case2 => cases h
  | case3 u hHigh v rest hLow ih =>
    obtain ⟨ds, hds, rfl⟩ := Option.map_eq_some_iff.mp h
    simp only [isHighSurrogate, isLowSurrogate, Bool.and_eq_true, decide_eq_true_eq] at hHigh hLow
    have hCode : (pairChar u v).toNat =
        0x10000 + (u.toNat - 0xd800) * 0x400 + (v.toNat - 0xdc00) :=
      toNat_ofNat_of_valid (.inr (by omega))
    have hFirst : UInt16.ofNat (0xd800 + ((pairChar u v).toNat - 0x10000) / 0x400) = u := by
      rw [← UInt16.toNat_inj, UInt16.toNat_ofNat']
      omega
    have hSecond : UInt16.ofNat (0xdc00 + ((pairChar u v).toNat - 0x10000) % 0x400) = v := by
      rw [← UInt16.toNat_inj, UInt16.toNat_ofNat']
      omega
    rw [List.flatMap_cons, ih hds, charUnits, if_neg (by omega), hFirst, hSecond]
    rfl
  | case4 => cases h
  | case5 => cases h
  | case6 u us hHigh hLow ih =>
    obtain ⟨ds, hds, rfl⟩ := Option.map_eq_some_iff.mp h
    simp only [isHighSurrogate, isLowSurrogate, Bool.and_eq_true, decide_eq_true_eq] at hHigh hLow
    have hBound : u.toNat < 65536 := u.toNat_lt
    have hCode : (Char.ofNat u.toNat).toNat = u.toNat :=
      toNat_ofNat_of_valid (by unfold Nat.isValidChar; omega)
    have hUnits : charUnits (Char.ofNat u.toNat) = [u] := by
      rw [charUnits, hCode, if_pos hBound, UInt16.ofNat_toNat]
    rw [List.flatMap_cons, ih hds, hUnits]
    rfl

@[simp] theorem units_inj {s t : String} : units s = units t ↔ s = t := by
  constructor
  · intro h
    have hChars := congrArg chars h
    rw [units, units, chars_flatMap_charUnits, chars_flatMap_charUnits, Option.some_inj] at hChars
    exact String.toList_injective hChars
  · rintro rfl
    rfl

/-- No surrogate stands alone. -/
def WellFormed (us : Utf16) : Prop := ∃ cs : List Char, us = cs.flatMap charUnits

theorem WellFormed.nil : WellFormed [] := ⟨[], rfl⟩

theorem WellFormed.append {us vs : Utf16} (hu : WellFormed us) (hv : WellFormed vs) :
    WellFormed (us ++ vs) := by
  obtain ⟨cs, rfl⟩ := hu
  obtain ⟨ds, rfl⟩ := hv
  exact ⟨cs ++ ds, List.flatMap_append.symm⟩

theorem WellFormed.units (s : String) : WellFormed (units s) := ⟨s.toList, rfl⟩

theorem wellFormed_pair {u v : UInt16} (hHigh : isHighSurrogate u = true)
    (hLow : isLowSurrogate v = true) : WellFormed [u, v] := by
  have h : chars [u, v] = some [pairChar u v] := by simp [chars, hHigh, hLow]
  exact ⟨_, (flatMap_charUnits_of_chars h).symm⟩

theorem wellFormed_singleton {u : UInt16} (hHigh : isHighSurrogate u = false)
    (hLow : isLowSurrogate u = false) : WellFormed [u] := by
  have h : chars [u] = some [Char.ofNat u.toNat] := by simp [chars, hHigh, hLow]
  exact ⟨_, (flatMap_charUnits_of_chars h).symm⟩

theorem wellFormed_of_all {us : Utf16} (h : us.all fun u => u.toNat < 0xd800) : WellFormed us := by
  induction us with
  | nil => exact .nil
  | cons u us ih =>
    rw [List.all_cons, Bool.and_eq_true, decide_eq_true_eq] at h
    have hHigh : isHighSurrogate u = false := by
      simp [isHighSurrogate]
      omega
    have hLow : isLowSurrogate u = false := by
      simp [isLowSurrogate]
      omega
    exact (wellFormed_singleton hHigh hLow).append (ih h.2)

/-- A hexadecimal digit, of which those from ten on begin at the letter `ten`. -/
def hexDigit (ten n : Nat) : UInt16 := UInt16.ofNat (if n < 10 then 0x30 + n else ten + (n - 10))

def hexValue (u : UInt16) : Option Nat :=
  let n := u.toNat
  if 0x30 ≤ n && n ≤ 0x39 then some (n - 0x30)
  else if 0x41 ≤ n && n ≤ 0x46 then some (n - 0x41 + 10)
  else if 0x61 ≤ n && n ≤ 0x66 then some (n - 0x61 + 10)
  else none

theorem hexValue_hexDigit {ten n : Nat} (hTen : ten = 0x41 ∨ ten = 0x61) (hn : n < 16) :
    hexValue (hexDigit ten n) = some n := by
  rcases hTen with rfl | rfl
  · decide +revert
  · decide +revert

/-- The characters that stay as they are in a URI component. -/
def isUnreserved (c : Char) : Bool :=
  let n := c.toNat
  (0x30 ≤ n && n ≤ 0x39) || (0x41 ≤ n && n ≤ 0x5a) || (0x61 ≤ n && n ≤ 0x7a) ||
    -- `!'()*-._~`
    [0x21, 0x27, 0x28, 0x29, 0x2a, 0x2d, 0x2e, 0x5f, 0x7e].contains n

def escapeByte (b : UInt8) : Utf16 :=
  [0x25, hexDigit 0x41 (b.toNat / 16), hexDigit 0x41 (b.toNat % 16)]

def escapeChar (c : Char) : Utf16 :=
  if isUnreserved c then charUnits c else (String.utf8EncodeChar c).flatMap escapeByte

/-- `encodeURIComponent`, which throws for a surrogate that stands alone. -/
def encodeURIComponent (us : Utf16) : Option Utf16 := (chars us).map (·.flatMap escapeChar)

/-- The byte of an escape. -/
def hexByte (high low : UInt16) : Option UInt8 :=
  (hexValue high).bind fun h => (hexValue low).map fun l => UInt8.ofNat (h * 16 + l)

/-- The bytes of the escapes that a string begins with. -/
def leadingBytes : Utf16 → List UInt8
  | u :: high :: low :: us =>
    if u = 0x25 then
      match hexByte high low with
      | some b => b :: leadingBytes us
      | none => []
    else []
  | _ => []

def decodeFrom : Nat → Utf16 → Option Utf16
  | _, [] => some []
  | 0, _ :: _ => none
  | n + 1, u :: us =>
    if u = 0x25 then
      ((leadingBytes (u :: us)).toByteArray.utf8DecodeChar? 0).bind fun c =>
        (decodeFrom n ((u :: us).drop (3 * c.utf8Size))).map (charUnits c ++ ·)
    else (decodeFrom n us).map (u :: ·)

/-- `decodeURIComponent`, which throws where the escaped bytes are no UTF-8. -/
def decodeURIComponent (us : Utf16) : Option Utf16 := decodeFrom us.length us

theorem hexByte_escapeByte (b : UInt8) :
    hexByte (hexDigit 0x41 (b.toNat / 16)) (hexDigit 0x41 (b.toNat % 16)) = some b := by
  have hBound := b.toNat_lt
  rw [hexByte, hexValue_hexDigit (.inl rfl) (by omega), hexValue_hexDigit (.inl rfl) (by omega),
    Option.bind_some, Option.map_some, Nat.div_add_mod', UInt8.ofNat_toNat]

theorem leadingBytes_append (bytes : List UInt8) (us : Utf16) :
    leadingBytes (bytes.flatMap escapeByte ++ us) = bytes ++ leadingBytes us := by
  induction bytes with
  | nil => rfl
  | cons b bytes ih =>
    rw [List.flatMap_cons, List.append_assoc]
    simp [escapeByte, leadingBytes, hexByte_escapeByte, ih]

theorem length_flatMap_escapeByte (bytes : List UInt8) :
    (bytes.flatMap escapeByte).length = 3 * bytes.length := by
  induction bytes with
  | nil => rfl
  | cons b bytes ih =>
    rw [List.flatMap_cons, List.length_append, ih]
    simp [escapeByte]
    omega

/-- The bytes of one character. -/
theorem decodeFrom_escaped (n : Nat) (c : Char) (us : Utf16) :
    decodeFrom (n + 1) ((String.utf8EncodeChar c).flatMap escapeByte ++ us) =
      (decodeFrom n us).map (charUnits c ++ ·) := by
  have hLength := String.length_utf8EncodeChar c
  have hSize := c.utf8Size_pos
  have hBytes := leadingBytes_append (String.utf8EncodeChar c) us
  have hDrop : ((String.utf8EncodeChar c).flatMap escapeByte ++ us).drop (3 * c.utf8Size) = us := by
    rw [← hLength, ← length_flatMap_escapeByte, List.drop_left]
  obtain ⟨b, bytes, hCons⟩ : ∃ b bytes, String.utf8EncodeChar c = b :: bytes :=
    List.exists_cons_of_length_pos (by omega)
  obtain ⟨rest, hText⟩ : ∃ rest,
      (String.utf8EncodeChar c).flatMap escapeByte ++ us = 0x25 :: rest := by
    rw [hCons]
    exact ⟨_, rfl⟩
  rw [hText] at hBytes hDrop ⊢
  rw [decodeFrom, if_pos rfl, hBytes, List.toByteArray_append,
    ByteArray.utf8DecodeChar?_utf8EncodeChar_append, Option.bind_some, hDrop]

theorem toNat_of_isUnreserved {c : Char} (h : isUnreserved c = true) :
    c.toNat < 128 ∧ c.toNat ≠ 0x25 := by
  simp only [isUnreserved, Bool.or_eq_true, Bool.and_eq_true, decide_eq_true_eq,
    List.contains_eq_mem, List.mem_cons, List.not_mem_nil, or_false] at h
  omega

theorem decodeFrom_unreserved {c : Char} (h : isUnreserved c = true) (n : Nat) (us : Utf16) :
    decodeFrom (n + 1) (charUnits c ++ us) = (decodeFrom n us).map (charUnits c ++ ·) := by
  obtain ⟨hSmall, hPercent⟩ := toNat_of_isUnreserved h
  have hUnits : charUnits c = [UInt16.ofNat c.toNat] := if_pos (by omega)
  have hOther : UInt16.ofNat c.toNat ≠ 0x25 := by
    intro hEq
    have hNat := congrArg UInt16.toNat hEq
    rw [UInt16.toNat_ofNat'] at hNat
    change _ = 37 at hNat
    omega
  rw [hUnits, List.singleton_append, decodeFrom, if_neg hOther]
  rfl

theorem decodeFrom_escapeChar (n : Nat) (c : Char) (us : Utf16) :
    decodeFrom (n + 1) (escapeChar c ++ us) = (decodeFrom n us).map (charUnits c ++ ·) := by
  unfold escapeChar
  split
  · next h => exact decodeFrom_unreserved h n us
  · exact decodeFrom_escaped n c us

theorem escapeChar_length_pos (c : Char) : 0 < (escapeChar c).length := by
  have hSize := c.utf8Size_pos
  have hLength := String.length_utf8EncodeChar c
  unfold escapeChar
  split
  · unfold charUnits
    split <;> simp
  · rw [length_flatMap_escapeByte]
    omega

/-- The fuel is enough when it is the length of the text. -/
theorem decodeFrom_flatMap_escapeChar (cs : List Char) {n : Nat}
    (hFuel : (cs.flatMap escapeChar).length ≤ n) :
    decodeFrom n (cs.flatMap escapeChar) = some (cs.flatMap charUnits) := by
  induction cs generalizing n with
  | nil => cases n <;> rfl
  | cons c cs ih =>
    have hPos := escapeChar_length_pos c
    rw [List.flatMap_cons, List.length_append] at hFuel
    obtain ⟨m, rfl⟩ : ∃ m, n = m + 1 := ⟨n - 1, by omega⟩
    rw [List.flatMap_cons, decodeFrom_escapeChar, ih (by omega), Option.map_some,
      List.flatMap_cons]

/-- A text without lone surrogates can be encoded, and decoding gives it back. -/
theorem decode_encodeURIComponent {us : Utf16} (h : WellFormed us) :
    ∃ text, encodeURIComponent us = some text ∧ decodeURIComponent text = some us := by
  obtain ⟨cs, rfl⟩ := h
  refine ⟨cs.flatMap escapeChar, ?_, decodeFrom_flatMap_escapeChar cs (Nat.le_refl _)⟩
  rw [encodeURIComponent, chars_flatMap_charUnits, Option.map_some]

end Utf16

end Lib
