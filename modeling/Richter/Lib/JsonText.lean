import Mathlib.Algebra.Field.Rat
import Mathlib.Algebra.Order.Ring.Rat
import Mathlib.Data.Nat.Digits.Lemmas
import Richter.Lib.Utf16

/-! The texts of JSON values, as `JSON.stringify` writes them and `JSON.parse` reads them. -/

namespace Lib

open Utf16

/-- A number; `none` for the infinities and for what is not a number. -/
abbrev JsNumber := Option ℚ

inductive JsValue
  | null
  | bool (b : Bool)
  | num (x : JsNumber)
  | str (s : Utf16)
  | arr (items : List JsValue)
  | obj (members : List (Utf16 × JsValue))

namespace JsValue

/-- `typeof value === "object"`, and not `null`. -/
def isObject : JsValue → Bool
  | .arr _ => true
  | .obj _ => true
  | _ => false

/-- The value under a name, of several the last. -/
def get (v : JsValue) (name : String) : Option JsValue :=
  match v with
  | .obj members => (members.reverse.find? fun m => m.1 == units name).map Prod.snd
  | _ => none

end JsValue

/-- `a ?? b`. -/
def nullish (a b : Option JsValue) : Option JsValue :=
  match a with
  | none => b
  | some .null => b
  | some v => some v

/-- The integers that a number of 64 bits holds exactly, and all between them. -/
def IsSafe (q : ℚ) : Prop := q.den = 1 ∧ q.num.natAbs ≤ 2 ^ 53

instance (q : ℚ) : Decidable (IsSafe q) := inferInstanceAs (Decidable (_ ∧ _))

/-- What JavaScript does with other numbers. -/
structure Numbers where
  /-- The nearest number of 64 bits, which may be infinite. -/
  round : ℚ → JsNumber
  /-- The shortest text of a number of 64 bits. -/
  text : ℚ → Utf16
  /-- `Number` of a string, an array or an object. -/
  coerce : JsValue → JsNumber

section Numbers

variable (numbers : Numbers)

/-- `Number`. -/
def toNumber : Option JsValue → JsNumber
  | none => none
  | some .null => some 0
  | some (.bool b) => some (if b then 1 else 0)
  | some (.num x) => x
  | some v => numbers.coerce v

def isDigit (u : UInt16) : Bool := 0x30 ≤ u.toNat && u.toNat ≤ 0x39

def natText (n : Nat) : Utf16 :=
  if n = 0 then [0x30] else (Nat.digits 10 n).reverse.map fun d => UInt16.ofNat (0x30 + d)

def intText (n : Int) : Utf16 := if n < 0 then 0x2d :: natText n.natAbs else natText n.natAbs

def numberText : JsNumber → Utf16
  | none => units "null"
  | some q => if IsSafe q then intText q.num else numbers.text q

def ofDigits (us : Utf16) : Nat := us.foldl (fun n u => 10 * n + (u.toNat - 0x30)) 0

/-- The decimals, if there is a point. -/
def scanFraction : Utf16 → Option (Utf16 × Utf16)
  | [] => some ([], [])
  | u :: us =>
    if u = 0x2e then
      if us.takeWhile isDigit = [] then none else some (us.span isDigit)
    else some ([], u :: us)

/-- The digits behind the letter and the sign of an exponent. -/
def scanPower (sign : Int) (us : Utf16) : Option (Int × Utf16) :=
  if us.takeWhile isDigit = [] then none
  else some (sign * ofDigits (us.takeWhile isDigit), us.dropWhile isDigit)

def scanExponent : Utf16 → Option (Int × Utf16)
  | [] => some (0, [])
  | u :: us =>
    if u = 0x45 || u = 0x65 then
      match us with
      | [] => none
      | v :: rest =>
        if v = 0x2d then scanPower (-1) rest
        else if v = 0x2b then scanPower 1 rest
        else scanPower 1 us
    else some (0, u :: us)

def readNumber (q : ℚ) : JsNumber := if IsSafe q then some q else numbers.round q

/-- A number without its sign. -/
def scanUnsigned (sign : ℚ) (us : Utf16) : Option (JsNumber × Utf16) :=
  let whole := us.takeWhile isDigit
  -- no number begins with a zero and another digit
  if whole = [] || (1 < whole.length && whole.head? = some 0x30) then none
  else
    (scanFraction (us.dropWhile isDigit)).bind fun f =>
      (scanExponent f.2).map fun e =>
        let q : ℚ := ofDigits (whole ++ f.1) * (10 : ℚ) ^ (e.1 - (f.1.length : Int))
        (readNumber numbers (sign * q), e.2)

def scanNumber : Utf16 → Option (JsNumber × Utf16)
  | [] => none
  | u :: us => if u = 0x2d then scanUnsigned numbers (-1) us else scanUnsigned numbers 1 (u :: us)

/-- What stands behind a value in a text, when no space does. -/
def Ends (rest : Utf16) : Prop := ∀ u ∈ rest.head?, u = 0x2c ∨ u = 0x5d ∨ u = 0x7d

theorem Ends.takeWhile {rest : Utf16} (h : Ends rest) : rest.takeWhile isDigit = [] := by
  cases rest with
  | nil => rfl
  | cons u rest =>
    rw [List.takeWhile_cons_of_neg]
    rcases h u rfl with rfl | rfl | rfl <;> decide

theorem Ends.dropWhile {rest : Utf16} (h : Ends rest) : rest.dropWhile isDigit = rest := by
  have hAll := rest.takeWhile_append_dropWhile (p := isDigit)
  rwa [h.takeWhile, List.nil_append] at hAll

theorem Ends.scanFraction {rest : Utf16} (h : Ends rest) : scanFraction rest = some ([], rest) := by
  cases rest with
  | nil => rfl
  | cons u rest =>
    rw [Lib.scanFraction, if_neg]
    rcases h u rfl with rfl | rfl | rfl <;> decide

theorem Ends.scanExponent {rest : Utf16} (h : Ends rest) : scanExponent rest = some (0, rest) := by
  cases rest with
  | nil => rfl
  | cons u rest =>
    rw [Lib.scanExponent.eq_def]
    refine if_neg ?_
    rcases h u rfl with rfl | rfl | rfl <;> decide

theorem natText_isDigit {n : Nat} {u : UInt16} (h : u ∈ natText n) : isDigit u = true := by
  unfold natText at h
  split at h
  · cases List.mem_singleton.mp h
    decide
  · obtain ⟨d, hd, rfl⟩ := List.mem_map.mp h
    have hSmall : d < 10 := Nat.digits_lt_base (by decide) (List.mem_reverse.mp hd)
    clear h hd
    decide +revert

theorem natText_ne_nil (n : Nat) : natText n ≠ [] := by
  unfold natText
  split
  · simp
  · next hn =>
    have hDigits := Nat.digits_ne_nil_iff_ne_zero (b := 10).mpr hn
    simpa using hDigits

theorem ofDigits_natText (n : Nat) : ofDigits (natText n) = n := by
  unfold natText
  split
  · next hn =>
    rw [hn]
    decide
  · have hFold : ∀ ds : List Nat, (∀ d ∈ ds, d < 10) →
        ofDigits (ds.reverse.map fun d => UInt16.ofNat (0x30 + d)) = Nat.ofDigits 10 ds := by
      intro ds hds
      induction ds with
      | nil => rfl
      | cons d ds ih =>
        have hd : d < 10 := hds d (List.mem_cons_self ..)
        have hRest := ih fun x hx => hds x (List.mem_cons_of_mem d hx)
        have hUnit : (UInt16.ofNat (0x30 + d)).toNat - 0x30 = d := by
          rw [UInt16.toNat_ofNat']
          omega
        unfold ofDigits at hRest ⊢
        rw [List.reverse_cons, List.map_append, List.foldl_append, hRest, List.map_singleton,
          List.foldl_cons, List.foldl_nil, hUnit, Nat.ofDigits_cons]
        omega
    rw [hFold _ fun d => Nat.digits_lt_base (by decide), Nat.ofDigits_digits]

/-- Only the text of zero begins with a zero. -/
theorem natText_head {n : Nat} (h : (natText n).head? = some 0x30) : (natText n).length = 1 := by
  unfold natText at h ⊢
  split
  · rfl
  · next hn =>
    rw [if_neg hn, List.head?_map, List.head?_reverse,
      List.getLast?_eq_some_getLast (Nat.digits_ne_nil_iff_ne_zero.mpr hn), Option.map_some,
      Option.some_inj] at h
    have hLast := Nat.getLast_digit_ne_zero 10 hn
    have hSmall : (Nat.digits 10 n).getLast (Nat.digits_ne_nil_iff_ne_zero.mpr hn) < 10 :=
      Nat.digits_lt_base (by decide) (List.getLast_mem _)
    have hNat := congrArg UInt16.toNat h
    rw [UInt16.toNat_ofNat'] at hNat
    change _ = 48 at hNat
    omega

theorem scanUnsigned_natText (sign : ℚ) (n : Nat) {rest : Utf16} (hRest : Ends rest) :
    scanUnsigned numbers sign (natText n ++ rest) = some (readNumber numbers (sign * n), rest) := by
  have hTake : (natText n ++ rest).takeWhile isDigit = natText n := by
    rw [List.takeWhile_append_of_pos fun u => natText_isDigit, hRest.takeWhile, List.append_nil]
  have hDrop : (natText n ++ rest).dropWhile isDigit = rest := by
    rw [List.dropWhile_append_of_pos fun u => natText_isDigit, hRest.dropWhile]
  have hZero : ¬ (1 < (natText n).length ∧ (natText n).head? = some 0x30) := by
    rintro ⟨hLong, hHead⟩
    have hOne := natText_head hHead
    omega
  simp only [scanUnsigned, hTake, hDrop, Bool.or_eq_true, Bool.and_eq_true, decide_eq_true_eq]
  rw [if_neg (by simp only [natText_ne_nil, hZero, or_false, not_false_eq_true]),
    hRest.scanFraction, Option.bind_some, hRest.scanExponent, Option.map_some, List.append_nil,
    ofDigits_natText]
  simp

theorem isSafe_intCast {i : Int} (h : i.natAbs ≤ 2 ^ 53) : IsSafe (i : ℚ) :=
  ⟨Rat.den_intCast i, by rwa [Rat.num_intCast]⟩

theorem scanNumber_intText {i : Int} (h : i.natAbs ≤ 2 ^ 53) {rest : Utf16} (hRest : Ends rest) :
    scanNumber numbers (intText i ++ rest) = some (some (i : ℚ), rest) := by
  have hRead : readNumber numbers (i : ℚ) = some (i : ℚ) := if_pos (isSafe_intCast h)
  unfold intText
  split
  · next hNeg =>
    have hAbs : (i.natAbs : Int) = -i := by omega
    have hValue : (-1 : ℚ) * (i.natAbs : ℚ) = (i : ℚ) := by
      rw [← Int.cast_natCast, hAbs, Int.cast_neg, neg_mul_neg, one_mul]
    rw [List.cons_append, scanNumber, if_pos rfl, scanUnsigned_natText numbers _ _ hRest, hValue,
      hRead]
  · next hPos =>
    obtain ⟨u, us, hText⟩ := List.exists_cons_of_ne_nil (natText_ne_nil i.natAbs)
    have hDigit : isDigit u = true := natText_isDigit (hText ▸ List.mem_cons_self ..)
    have hMinus : u ≠ 0x2d := by
      rintro rfl
      exact absurd hDigit (by decide)
    have hScan := scanUnsigned_natText numbers 1 i.natAbs hRest
    have hAbs : (i.natAbs : Int) = i := by omega
    have hValue : (1 : ℚ) * (i.natAbs : ℚ) = (i : ℚ) := by
      rw [← Int.cast_natCast, hAbs, one_mul]
    rw [hText, List.cons_append] at hScan ⊢
    rw [scanNumber, if_neg hMinus, hScan, hValue, hRead]

end Numbers

section Strings

def unicodeEscape (u : UInt16) : Utf16 :=
  let n := u.toNat
  [0x5c, 0x75, hexDigit 0x61 (n / 4096), hexDigit 0x61 (n / 256 % 16), hexDigit 0x61 (n / 16 % 16),
    hexDigit 0x61 (n % 16)]

/-- The code units that have an escape of two characters, with the second of them. -/
def shortEscapes : List (UInt16 × UInt16) :=
  [(0x22, 0x22), (0x5c, 0x5c), (0x08, 0x62), (0x09, 0x74), (0x0a, 0x6e), (0x0c, 0x66),
    (0x0d, 0x72)]

def escapeUnit (u : UInt16) : Utf16 :=
  match shortEscapes.find? fun e => e.1 == u with
  | some e => [0x5c, e.2]
  | none =>
    if u.toNat < 0x20 || isHighSurrogate u || isLowSurrogate u then unicodeEscape u else [u]

/-- A pair of surrogates stays, and a lone one is escaped. -/
def escapeUnits : Utf16 → Utf16
  | [] => []
  | [u] => escapeUnit u
  | u :: v :: us =>
    if isHighSurrogate u && isLowSurrogate v then u :: v :: escapeUnits us
    else escapeUnit u ++ escapeUnits (v :: us)

def quote (s : Utf16) : Utf16 := 0x22 :: (escapeUnits s ++ [0x22])

/-- What an escape of two characters stands for. -/
def escaped (letter : UInt16) : Option UInt16 :=
  if letter = 0x2f then some 0x2f
  else (shortEscapes.find? fun e => e.2 == letter).map Prod.fst

def push (u : UInt16) (r : Utf16 × Utf16) : Utf16 × Utf16 := (u :: r.1, r.2)

/-- Where the scanner of a string is: behind a backslash, or before the last `left + 1` of the four
digits of an escape. -/
inductive InString
  | plain
  | escape
  | hex (left value : Nat)

/-- The string up to the closing quote, and what is behind it. -/
def scanString : InString → Utf16 → Option (Utf16 × Utf16)
  | _, [] => none
  | .plain, u :: us =>
    if u = 0x22 then some ([], us)
    else if u = 0x5c then scanString .escape us
    else if u.toNat < 0x20 then none
    else (scanString .plain us).map (push u)
  | .escape, u :: us =>
    if u = 0x75 then scanString (.hex 3 0) us
    else (escaped u).bind fun v => (scanString .plain us).map (push v)
  | .hex left value, u :: us =>
    (hexValue u).bind fun d =>
      if left = 0 then (scanString .plain us).map (push (UInt16.ofNat (value * 16 + d)))
      else scanString (.hex (left - 1) (value * 16 + d)) us

theorem scanString_plain {u : UInt16} (hQuote : u ≠ 0x22) (hEscape : u ≠ 0x5c)
    (hControl : ¬ u.toNat < 0x20) (us : Utf16) :
    scanString .plain (u :: us) = (scanString .plain us).map (push u) := by
  rw [scanString, if_neg hQuote, if_neg hEscape, if_neg hControl]

theorem scanString_escaped {e v : UInt16} (h : escaped e = some v) (hOther : e ≠ 0x75)
    (us : Utf16) : scanString .plain (0x5c :: e :: us) = (scanString .plain us).map (push v) := by
  rw [scanString, if_neg (by decide), if_pos rfl, scanString, if_neg hOther, h, Option.bind_some]

theorem scanString_unicodeEscape (u : UInt16) (us : Utf16) :
    scanString .plain (unicodeEscape u ++ us) = (scanString .plain us).map (push u) := by
  have hBound := u.toNat_lt
  have hDigit : ∀ n < 16, hexValue (hexDigit 0x61 n) = some n :=
    fun n => hexValue_hexDigit (.inr rfl)
  have hValue : (((0 * 16 + u.toNat / 4096) * 16 + u.toNat / 256 % 16) * 16 +
      u.toNat / 16 % 16) * 16 + u.toNat % 16 = u.toNat := by omega
  simp only [unicodeEscape, List.cons_append, List.nil_append]
  rw [scanString, if_neg (by decide), if_pos rfl, scanString, if_pos rfl, scanString,
    hDigit _ (by omega), Option.bind_some, if_neg (by decide), scanString, hDigit _ (by omega),
    Option.bind_some, if_neg (by decide), scanString, hDigit _ (by omega), Option.bind_some,
    if_neg (by decide), scanString, hDigit _ (by omega), Option.bind_some, if_pos rfl, hValue,
    UInt16.ofNat_toNat]

theorem shortEscapes_spec : ∀ e ∈ shortEscapes,
    escaped e.2 = some e.1 ∧ e.2 ≠ 0x75 ∧ e.2.toNat < 0xd800 := by
  intro e he
  simp only [shortEscapes, List.mem_cons, List.not_mem_nil, or_false] at he
  rcases he with rfl | rfl | rfl | rfl | rfl | rfl | rfl <;> decide

theorem scanString_escapeUnit (u : UInt16) (us : Utf16) :
    scanString .plain (escapeUnit u ++ us) = (scanString .plain us).map (push u) := by
  unfold escapeUnit
  split
  · next e hFind =>
    obtain ⟨hEscaped, hOther, -⟩ := shortEscapes_spec e (List.mem_of_find?_eq_some hFind)
    have hUnit : e.1 = u := by simpa using List.find?_some hFind
    exact scanString_escaped (hUnit ▸ hEscaped) hOther us
  · next hFind =>
    split
    · exact scanString_unicodeEscape u us
    · next hPlain =>
      simp only [Bool.or_eq_true, decide_eq_true_eq, not_or] at hPlain
      have hNone := List.find?_eq_none.mp hFind
      have hQuote : u ≠ 0x22 := fun h => hNone (0x22, 0x22) (by decide) (by simp [h])
      have hEscape : u ≠ 0x5c := fun h => hNone (0x5c, 0x5c) (by decide) (by simp [h])
      exact scanString_plain hQuote hEscape hPlain.1.1 us

theorem scanString_surrogate {u : UInt16} (h : 0xd800 ≤ u.toNat) (us : Utf16) :
    scanString .plain (u :: us) = (scanString .plain us).map (push u) := by
  apply scanString_plain
  · rintro rfl
    exact absurd h (by decide)
  · rintro rfl
    exact absurd h (by decide)
  · omega

theorem scanString_escapeUnits (s rest : Utf16) :
    scanString .plain (escapeUnits s ++ 0x22 :: rest) = some (s, rest) := by
  fun_induction escapeUnits s with
  | case1 => rfl
  | case2 u =>
    rw [scanString_escapeUnit]
    rfl
  | case3 u v us h ih =>
    simp only [isHighSurrogate, isLowSurrogate, Bool.and_eq_true, decide_eq_true_eq] at h
    rw [List.cons_append, List.cons_append, scanString_surrogate h.1.1,
      scanString_surrogate (by omega), ih]
    rfl
  | case4 u v us h ih =>
    rw [List.append_assoc, scanString_escapeUnit, ih]
    rfl

theorem unicodeEscape_wellFormed (u : UInt16) : WellFormed (unicodeEscape u) := by
  have hBound := u.toNat_lt
  have hDigit : ∀ n < 16, (hexDigit 0x61 n).toNat < 0xd800 := by decide
  apply wellFormed_of_all
  simp only [unicodeEscape, List.all_cons, List.all_nil, Bool.and_true, Bool.and_eq_true,
    decide_eq_true_eq]
  exact ⟨by decide, by decide, hDigit _ (by omega), hDigit _ (by omega), hDigit _ (by omega),
    hDigit _ (by omega)⟩

theorem escapeUnit_wellFormed (u : UInt16) : WellFormed (escapeUnit u) := by
  unfold escapeUnit
  split
  · next e hFind =>
    have hLetter := (shortEscapes_spec e (List.mem_of_find?_eq_some hFind)).2.2
    exact wellFormed_of_all (by simp [hLetter])
  split
  · exact unicodeEscape_wellFormed u
  · next hPlain =>
    simp only [Bool.or_eq_true, decide_eq_true_eq, not_or, Bool.not_eq_true] at hPlain
    exact wellFormed_singleton hPlain.1.2 hPlain.2

theorem quote_wellFormed (s : Utf16) : WellFormed (quote s) := by
  have hQuote : WellFormed [0x22] := wellFormed_of_all (by decide)
  have hUnits : WellFormed (escapeUnits s) := by
    fun_induction escapeUnits s with
    | case1 => exact .nil
    | case2 u => exact escapeUnit_wellFormed u
    | case3 u v us h ih =>
      rw [Bool.and_eq_true] at h
      exact (wellFormed_pair h.1 h.2).append ih
    | case4 u v us h ih => exact (escapeUnit_wellFormed u).append ih
  exact hQuote.append (hUnits.append hQuote)

end Strings

section Texts

variable (numbers : Numbers)

mutual

/-- `JSON.stringify`. -/
def stringify : JsValue → Utf16
  | .null => units "null"
  | .bool b => units (if b then "true" else "false")
  | .num x => numberText numbers x
  | .str s => quote s
  | .arr items => 0x5b :: (List.intercalate [0x2c] (itemTexts items) ++ [0x5d])
  | .obj members => 0x7b :: (List.intercalate [0x2c] (memberTexts members) ++ [0x7d])

def itemTexts : List JsValue → List Utf16
  | [] => []
  | v :: items => stringify v :: itemTexts items

def memberTexts : List (Utf16 × JsValue) → List Utf16
  | [] => []
  | (name, v) :: members => (quote name ++ 0x3a :: stringify v) :: memberTexts members

end

def isJsonSpace (u : UInt16) : Bool := u = 0x20 || u = 0x09 || u = 0x0a || u = 0x0d

/-- What is behind `u`, if `u` comes next. -/
def expect (u : UInt16) (us : Utf16) : Option Utf16 :=
  match us.dropWhile isJsonSpace with
  | [] => none
  | v :: rest => if v = u then some rest else none

def scanLiteral (us : Utf16) : Option (JsValue × Utf16) :=
  [(units "null", JsValue.null), (units "true", .bool true), (units "false", .bool false)].findSome?
    fun l => if l.1.isPrefixOf us then some (l.2, us.drop l.1.length) else none

mutual

def parseValue : Nat → Utf16 → Option (JsValue × Utf16)
  | 0, _ => none
  | n + 1, us =>
    match us.dropWhile isJsonSpace with
    | [] => none
    | u :: us =>
      if u = 0x22 then (scanString .plain us).map fun r => (.str r.1, r.2)
      else if u = 0x5b then
        match expect 0x5d us with
        | some rest => some (.arr [], rest)
        | none => (parseItems n us).map fun r => (.arr r.1, r.2)
      else if u = 0x7b then
        match expect 0x7d us with
        | some rest => some (.obj [], rest)
        | none => (parseMembers n us).map fun r => (.obj r.1, r.2)
      else
        match scanLiteral (u :: us) with
        | some r => some r
        | none => (scanNumber numbers (u :: us)).map fun r => (.num r.1, r.2)

/-- The items up to the closing bracket, of which there is one at least. -/
def parseItems : Nat → Utf16 → Option (List JsValue × Utf16)
  | 0, _ => none
  | n + 1, us =>
    (parseValue n us).bind fun r =>
      match expect 0x2c r.2 with
      | some rest => (parseItems n rest).map fun rs => (r.1 :: rs.1, rs.2)
      | none => (expect 0x5d r.2).map fun rest => ([r.1], rest)

def parseMembers : Nat → Utf16 → Option (List (Utf16 × JsValue) × Utf16)
  | 0, _ => none
  | n + 1, us =>
    (expect 0x22 us).bind fun us => (scanString .plain us).bind fun name =>
      (expect 0x3a name.2).bind fun us => (parseValue n us).bind fun r =>
        match expect 0x2c r.2 with
        | some rest => (parseMembers n rest).map fun rs => ((name.1, r.1) :: rs.1, rs.2)
        | none => (expect 0x7d r.2).map fun rest => ([(name.1, r.1)], rest)

end

/-- `JSON.parse`.  One of two steps of the parser takes a code unit off the text. -/
def parseJson (us : Utf16) : Option JsValue :=
  (parseValue numbers (2 * us.length + 1) us).bind fun r =>
    if r.2.dropWhile isJsonSpace = [] then some r.1 else none

/-- All numbers are integers that a number of 64 bits holds exactly. -/
inductive JsValue.Safe : JsValue → Prop
  | null : Safe .null
  | bool (b : Bool) : Safe (.bool b)
  | num (i : Int) (h : i.natAbs ≤ 2 ^ 53) : Safe (.num (some (i : ℚ)))
  | str (s : Utf16) : Safe (.str s)
  | arr {items : List JsValue} (h : ∀ v ∈ items, Safe v) : Safe (.arr items)
  | obj {members : List (Utf16 × JsValue)} (h : ∀ m ∈ members, Safe m.2) : Safe (.obj members)

variable {numbers}

theorem numberText_intCast {i : Int} (h : i.natAbs ≤ 2 ^ 53) :
    numberText numbers (some (i : ℚ)) = intText i := by
  rw [numberText, if_pos (isSafe_intCast h), Rat.num_intCast]

/-- The first code unit of the text of a number. -/
theorem intText_head (i : Int) :
    ∃ u us, intText i = u :: us ∧ (u = 0x2d ∨ isDigit u = true) := by
  unfold intText
  split
  · exact ⟨_, _, rfl, .inl rfl⟩
  · obtain ⟨u, us, hText⟩ := List.exists_cons_of_ne_nil (natText_ne_nil i.natAbs)
    exact ⟨u, us, hText, .inr (natText_isDigit (hText ▸ List.mem_cons_self ..))⟩

theorem units_null : units "null" = [0x6e, 0x75, 0x6c, 0x6c] := by decide

theorem units_true : units "true" = [0x74, 0x72, 0x75, 0x65] := by decide

theorem units_false : units "false" = [0x66, 0x61, 0x6c, 0x73, 0x65] := by decide

theorem isJsonSpace_of_isDigit {u : UInt16} (h : isDigit u = true) : isJsonSpace u = false := by
  rw [← Bool.not_eq_true]
  intro hSpace
  simp only [isJsonSpace, Bool.or_eq_true, decide_eq_true_eq] at hSpace
  rcases hSpace with ((rfl | rfl) | rfl) | rfl <;> exact absurd h (by decide)

theorem expect_cons {u : UInt16} (h : isJsonSpace u = false) (v : UInt16) (us : Utf16) :
    expect v (u :: us) = if u = v then some us else none := by
  rw [expect, List.dropWhile_cons_of_neg (by simp [h])]

variable (numbers) in
/-- A text begins with a code unit that is neither a space nor a closing bracket. -/
theorem stringify_head {v : JsValue} (h : v.Safe) :
    ∃ u us, stringify numbers v = u :: us ∧ isJsonSpace u = false ∧ u ≠ 0x5d := by
  cases h with
  | null => exact ⟨0x6e, [0x75, 0x6c, 0x6c], units_null, by decide, by decide⟩
  | bool b =>
    cases b with
    | false => exact ⟨0x66, [0x61, 0x6c, 0x73, 0x65], units_false, by decide, by decide⟩
    | true => exact ⟨0x74, [0x72, 0x75, 0x65], units_true, by decide, by decide⟩
  | num i h =>
    obtain ⟨u, us, hText, hHead⟩ := intText_head i
    refine ⟨u, us, by rw [stringify, numberText_intCast h, hText], ?_⟩
    rcases hHead with rfl | hDigit
    · decide
    · refine ⟨isJsonSpace_of_isDigit hDigit, ?_⟩
      rintro rfl
      exact absurd hDigit (by decide)
  | str s => exact ⟨0x22, _, rfl, by decide, by decide⟩
  | arr h => exact ⟨0x5b, _, rfl, by decide, by decide⟩
  | obj h => exact ⟨0x7b, _, rfl, by decide, by decide⟩

variable (numbers) in
theorem stringify_length_pos {v : JsValue} (h : v.Safe) : 0 < (stringify numbers v).length := by
  obtain ⟨u, us, hText, -⟩ := stringify_head numbers h
  rw [hText]
  exact Nat.succ_pos _

/-- What the parser does with the text of `v`, wherever the text stands. -/
def ReadsBack (numbers : Numbers) (v : JsValue) : Prop :=
  ∀ n rest, 2 * (stringify numbers v).length ≤ n → Ends rest →
    parseValue numbers n (stringify numbers v ++ rest) = some (v, rest)

theorem parseItems_itemTexts {items : List JsValue} (hSome : items ≠ [])
    (hItems : ∀ v ∈ items, ReadsBack numbers v) {n : Nat} (rest : Utf16)
    (hFuel : 2 * (List.intercalate [0x2c] (itemTexts numbers items)).length + 1 ≤ n) :
    parseItems numbers n (List.intercalate [0x2c] (itemTexts numbers items) ++ 0x5d :: rest) =
      some (items, rest) := by
  induction items generalizing n with
  | nil => exact absurd rfl hSome
  | cons v items ih =>
    obtain ⟨m, rfl⟩ : ∃ m, n = m + 1 := ⟨n - 1, by omega⟩
    have hv := hItems v (List.mem_cons_self ..)
    cases items with
    | nil =>
      simp only [itemTexts, List.intercalate_singleton] at hFuel ⊢
      have hParsed := hv m (0x5d :: rest) (by omega) (by simp [Ends])
      have hComma : expect 0x2c (0x5d :: rest) = none := expect_cons (by decide) _ _
      have hClose : expect 0x5d (0x5d :: rest) = some rest := expect_cons (by decide) _ _
      simp [parseItems, hParsed, hComma, hClose]
    | cons w items =>
      have hRest := ih (by simp) (fun x hx => hItems x (List.mem_cons_of_mem v hx)) (n := m)
      have hText : List.intercalate [0x2c] (itemTexts numbers (v :: w :: items)) =
          stringify numbers v ++
            0x2c :: List.intercalate [0x2c] (itemTexts numbers (w :: items)) := by
        simp [itemTexts]
      rw [hText, List.length_append, List.length_cons] at hFuel
      rw [hText, List.append_assoc, List.cons_append]
      generalize List.intercalate [0x2c] (itemTexts numbers (w :: items)) = texts at *
      have hParsed := hv m (0x2c :: (texts ++ 0x5d :: rest)) (by omega) (by simp [Ends])
      have hComma : expect 0x2c (0x2c :: (texts ++ 0x5d :: rest)) = some (texts ++ 0x5d :: rest) :=
        expect_cons (by decide) _ _
      simp [parseItems, hParsed, hComma, hRest (by omega)]

theorem parseMembers_memberTexts {members : List (Utf16 × JsValue)} (hSome : members ≠ [])
    (hMembers : ∀ m ∈ members, ReadsBack numbers m.2) {n : Nat} (rest : Utf16)
    (hFuel : 2 * (List.intercalate [0x2c] (memberTexts numbers members)).length + 1 ≤ n) :
    parseMembers numbers n
      (List.intercalate [0x2c] (memberTexts numbers members) ++ 0x7d :: rest) =
      some (members, rest) := by
  induction members generalizing n with
  | nil => exact absurd rfl hSome
  | cons m members ih =>
    obtain ⟨k, rfl⟩ : ∃ k, n = k + 1 := ⟨n - 1, by omega⟩
    obtain ⟨name, v⟩ := m
    have hv : ReadsBack numbers v := hMembers _ (List.mem_cons_self ..)
    -- the name, and the value up to what is behind it
    have hOpen (us : Utf16) : expect 0x22 (quote name ++ us) =
        some (escapeUnits name ++ 0x22 :: us) := by
      rw [quote, List.cons_append, expect_cons (by decide), if_pos rfl, List.append_assoc]
      rfl
    have hName (us : Utf16) := scanString_escapeUnits name us
    have hColon (us : Utf16) : expect 0x3a (0x3a :: us) = some us := expect_cons (by decide) _ _
    cases members with
    | nil =>
      simp only [memberTexts, List.intercalate_singleton, List.length_append, List.length_cons,
        List.append_assoc, List.cons_append] at hFuel ⊢
      have hParsed := hv k (0x7d :: rest) (by omega) (by simp [Ends])
      have hComma : expect 0x2c (0x7d :: rest) = none := expect_cons (by decide) _ _
      have hClose : expect 0x7d (0x7d :: rest) = some rest := expect_cons (by decide) _ _
      simp [parseMembers, hOpen, hName, hColon, hParsed, hComma, hClose]
    | cons m members =>
      have hRest := ih (by simp) (fun x hx => hMembers x (List.mem_cons_of_mem _ hx)) (n := k)
      have hText : List.intercalate [0x2c] (memberTexts numbers ((name, v) :: m :: members)) =
          quote name ++ 0x3a :: (stringify numbers v ++
            0x2c :: List.intercalate [0x2c] (memberTexts numbers (m :: members))) := by
        obtain ⟨name', w⟩ := m
        simp [memberTexts]
      rw [hText] at hFuel ⊢
      simp only [List.length_append, List.length_cons] at hFuel
      simp only [List.append_assoc, List.cons_append]
      generalize List.intercalate [0x2c] (memberTexts numbers (m :: members)) = texts at *
      have hParsed := hv k (0x2c :: (texts ++ 0x7d :: rest)) (by omega) (by simp [Ends])
      have hComma : expect 0x2c (0x2c :: (texts ++ 0x7d :: rest)) = some (texts ++ 0x7d :: rest) :=
        expect_cons (by decide) _ _
      simp [parseMembers, hOpen, hName, hColon, hParsed, hComma, hRest (by omega)]

theorem parseValue_number {i : Int} (h : i.natAbs ≤ 2 ^ 53) (n : Nat) {rest : Utf16}
    (hRest : Ends rest) :
    parseValue numbers (n + 1) (intText i ++ rest) = some (.num (some (i : ℚ)), rest) := by
  obtain ⟨u, us, hText, hHead⟩ := intText_head i
  have hScan := scanNumber_intText numbers h hRest
  have hSpace : isJsonSpace u = false := by
    rcases hHead with rfl | hDigit
    · decide
    · exact isJsonSpace_of_isDigit hDigit
  have hOther : ∀ v, v ≠ 0x2d → isDigit v = false → u ≠ v := by
    rintro v hMinus hDigit rfl
    rcases hHead with rfl | h
    · exact hMinus rfl
    · rw [h] at hDigit
      cases hDigit
  have hString := hOther 0x22 (by decide) (by decide)
  have hArray := hOther 0x5b (by decide) (by decide)
  have hObject := hOther 0x7b (by decide) (by decide)
  have hLiteral : scanLiteral (u :: (us ++ rest)) = none := by
    have hNull := hOther 0x6e (by decide) (by decide)
    have hTrue := hOther 0x74 (by decide) (by decide)
    have hFalse := hOther 0x66 (by decide) (by decide)
    simp [scanLiteral, units_null, units_true, units_false, hNull.symm, hTrue.symm, hFalse.symm]
  rw [hText, List.cons_append] at hScan ⊢
  simp [parseValue, hSpace, hString, hArray, hObject, hLiteral, hScan]

theorem parseValue_literal {u : UInt16} {us rest : Utf16} {v : JsValue} (n : Nat)
    (hHead : u = 0x6e ∨ u = 0x74 ∨ u = 0x66) (h : scanLiteral (u :: us) = some (v, rest)) :
    parseValue numbers (n + 1) (u :: us) = some (v, rest) := by
  have hSpace : isJsonSpace u = false := by rcases hHead with rfl | rfl | rfl <;> decide
  have hString : u ≠ 0x22 := by rcases hHead with rfl | rfl | rfl <;> decide
  have hArray : u ≠ 0x5b := by rcases hHead with rfl | rfl | rfl <;> decide
  have hObject : u ≠ 0x7b := by rcases hHead with rfl | rfl | rfl <;> decide
  simp [parseValue, hSpace, hString, hArray, hObject, h]

variable (numbers) in
theorem expect_bracket_intercalate {v : JsValue} (h : v.Safe) (items : List JsValue)
    (rest : Utf16) :
    expect 0x5d (List.intercalate [0x2c] (itemTexts numbers (v :: items)) ++ rest) = none := by
  obtain ⟨u, us, hText, hSpace, hBracket⟩ := stringify_head numbers h
  obtain ⟨tail, hTail⟩ : ∃ tail,
      List.intercalate [0x2c] (itemTexts numbers (v :: items)) = u :: us ++ tail := by
    cases items with
    | nil => exact ⟨[], by simp [itemTexts, hText]⟩
    | cons w items => exact ⟨_, by rw [itemTexts, itemTexts, List.intercalate_cons_cons, hText,
        List.append_assoc]⟩
  rw [hTail, List.append_assoc, List.cons_append, expect_cons hSpace, if_neg hBracket]

variable (numbers) in
theorem expect_brace_intercalate (m : Utf16 × JsValue) (members : List (Utf16 × JsValue))
    (rest : Utf16) :
    expect 0x7d (List.intercalate [0x2c] (memberTexts numbers (m :: members)) ++ rest) = none := by
  obtain ⟨name, v⟩ := m
  obtain ⟨tail, hTail⟩ : ∃ tail,
      List.intercalate [0x2c] (memberTexts numbers ((name, v) :: members)) = 0x22 :: tail := by
    cases members with
    | nil => exact ⟨_, by rw [memberTexts, memberTexts, List.intercalate_singleton]; rfl⟩
    | cons m members =>
      obtain ⟨name', w⟩ := m
      exact ⟨_, by rw [memberTexts, memberTexts, List.intercalate_cons_cons]; rfl⟩
  rw [hTail, List.cons_append, expect_cons (by decide), if_neg (by decide)]

/-- There always is fuel for one step. -/
theorem ReadsBack.of_succ {v : JsValue} (hSafe : v.Safe)
    (h : ∀ n rest, 2 * (stringify numbers v).length ≤ n + 1 → Ends rest →
      parseValue numbers (n + 1) (stringify numbers v ++ rest) = some (v, rest)) :
    ReadsBack numbers v := by
  intro n rest hFuel hRest
  have hPos := stringify_length_pos numbers hSafe
  obtain ⟨m, rfl⟩ : ∃ m, n = m + 1 := ⟨n - 1, by omega⟩
  exact h m rest hFuel hRest

theorem readsBack_bool (b : Bool) : ReadsBack numbers (.bool b) := by
  apply ReadsBack.of_succ (.bool b)
  intro n rest _ _
  cases b with
  | false =>
    rw [stringify, if_neg Bool.false_ne_true, units_false]
    exact parseValue_literal n (.inr (.inr rfl))
      (by simp [scanLiteral, units_null, units_true, units_false])
  | true =>
    rw [stringify, if_pos rfl, units_true]
    exact parseValue_literal n (.inr (.inl rfl)) (by simp [scanLiteral, units_null, units_true])

theorem readsBack_arr {items : List JsValue} (hSafe : ∀ v ∈ items, v.Safe)
    (hItems : ∀ v ∈ items, ReadsBack numbers v) : ReadsBack numbers (.arr items) := by
  apply ReadsBack.of_succ (.arr hSafe)
  intro n rest hFuel _
  rw [stringify, List.length_cons, List.length_append, List.length_singleton] at hFuel
  rw [stringify, List.cons_append, List.append_assoc, List.singleton_append]
  cases items with
  | nil =>
    have hClose : expect 0x5d (0x5d :: rest) = some rest := expect_cons (by decide) _ _
    simp [itemTexts, parseValue, isJsonSpace, hClose]
  | cons v items =>
    have hOpen := expect_bracket_intercalate numbers (hSafe v (by simp)) items (0x5d :: rest)
    have hParsed := parseItems_itemTexts (by simp) hItems rest (n := n) (by omega)
    simp [parseValue, isJsonSpace, hOpen, hParsed]

theorem readsBack_obj {members : List (Utf16 × JsValue)} (hSafe : ∀ m ∈ members, m.2.Safe)
    (hMembers : ∀ m ∈ members, ReadsBack numbers m.2) : ReadsBack numbers (.obj members) := by
  apply ReadsBack.of_succ (.obj hSafe)
  intro n rest hFuel _
  rw [stringify, List.length_cons, List.length_append, List.length_singleton] at hFuel
  rw [stringify, List.cons_append, List.append_assoc, List.singleton_append]
  cases members with
  | nil =>
    have hClose : expect 0x7d (0x7d :: rest) = some rest := expect_cons (by decide) _ _
    simp [memberTexts, parseValue, isJsonSpace, hClose]
  | cons m members =>
    have hOpen := expect_brace_intercalate numbers m members (0x7d :: rest)
    have hParsed := parseMembers_memberTexts (by simp) hMembers rest (n := n) (by omega)
    simp [parseValue, isJsonSpace, hOpen, hParsed]

variable (numbers) in
/-- The parser reads the text of a value back. -/
theorem JsValue.Safe.readsBack {v : JsValue} (h : v.Safe) : ReadsBack numbers v := by
  induction h with
  | null =>
    apply ReadsBack.of_succ .null
    intro n rest _ _
    rw [stringify, units_null]
    exact parseValue_literal n (.inl rfl) (by simp [scanLiteral, units_null])
  | bool b => exact readsBack_bool b
  | num i h =>
    apply ReadsBack.of_succ (.num i h)
    intro n rest _ hRest
    rw [stringify, numberText_intCast h]
    exact parseValue_number h n hRest
  | str s =>
    apply ReadsBack.of_succ (.str s)
    intro n rest _ _
    have hScan := scanString_escapeUnits s rest
    simp [stringify, quote, parseValue, isJsonSpace, hScan]
  | arr hItems ih => exact readsBack_arr hItems ih
  | obj hMembers ih => exact readsBack_obj hMembers ih

/-- `JSON.parse` undoes `JSON.stringify`. -/
theorem parseJson_stringify {v : JsValue} (h : v.Safe) :
    parseJson numbers (stringify numbers v) = some v := by
  have hRead := h.readsBack numbers (2 * (stringify numbers v).length + 1) []
    (by omega) (by simp [Ends])
  rw [List.append_nil] at hRead
  rw [parseJson, hRead]
  rfl

theorem intText_wellFormed (i : Int) : WellFormed (intText i) := by
  have hNat (n : Nat) : WellFormed (natText n) := by
    refine wellFormed_of_all (List.all_eq_true.mpr fun u hu => ?_)
    have hDigit := natText_isDigit hu
    simp only [isDigit, Bool.and_eq_true, decide_eq_true_eq] at hDigit ⊢
    omega
  have hMinus : WellFormed [0x2d] := wellFormed_of_all (by decide)
  unfold intText
  split
  · exact hMinus.append (hNat i.natAbs)
  · exact hNat i.natAbs

theorem intercalate_wellFormed {sep : Utf16} (hSep : WellFormed sep) {texts : List Utf16}
    (h : ∀ t ∈ texts, WellFormed t) : WellFormed (List.intercalate sep texts) := by
  induction texts with
  | nil => exact .nil
  | cons t texts ih =>
    have hHead := h t (List.mem_cons_self ..)
    cases texts with
    | nil => rwa [List.intercalate_singleton]
    | cons t' texts =>
      rw [List.intercalate_cons_cons]
      exact (hHead.append hSep).append (ih fun x hx => h x (List.mem_cons_of_mem t hx))

theorem itemTexts_eq_map (items : List JsValue) :
    itemTexts numbers items = items.map (stringify numbers) := by
  induction items with
  | nil => rfl
  | cons v items ih => rw [itemTexts, ih, List.map_cons]

theorem memberTexts_eq_map (members : List (Utf16 × JsValue)) :
    memberTexts numbers members =
      members.map fun m => quote m.1 ++ 0x3a :: stringify numbers m.2 := by
  induction members with
  | nil => rfl
  | cons m members ih =>
    obtain ⟨name, v⟩ := m
    rw [memberTexts, ih, List.map_cons]

/-- No surrogate of a text stands alone. -/
theorem stringify_wellFormed {v : JsValue} (h : v.Safe) : WellFormed (stringify numbers v) := by
  have hComma : WellFormed [0x2c] := wellFormed_of_all (by decide)
  have hColon : WellFormed [0x3a] := wellFormed_of_all (by decide)
  induction h with
  | null => exact .units "null"
  | bool b => exact .units _
  | num i h =>
    rw [stringify, numberText_intCast h]
    exact intText_wellFormed i
  | str s => exact quote_wellFormed s
  | @arr items hItems ih =>
    have hTexts : ∀ t ∈ itemTexts numbers items, WellFormed t := by
      simpa only [itemTexts_eq_map, List.forall_mem_map] using ih
    have hOpen : WellFormed [0x5b] := wellFormed_of_all (by decide)
    have hClose : WellFormed [0x5d] := wellFormed_of_all (by decide)
    exact hOpen.append ((intercalate_wellFormed hComma hTexts).append hClose)
  | @obj members hMembers ih =>
    have hTexts : ∀ t ∈ memberTexts numbers members, WellFormed t := by
      rw [memberTexts_eq_map, List.forall_mem_map]
      exact fun m hm => (quote_wellFormed m.1).append (hColon.append (ih m hm))
    have hOpen : WellFormed [0x7b] := wellFormed_of_all (by decide)
    have hClose : WellFormed [0x7d] := wellFormed_of_all (by decide)
    exact hOpen.append ((intercalate_wellFormed hComma hTexts).append hClose)

end Texts

end Lib
