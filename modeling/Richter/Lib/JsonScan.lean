import Mathlib.Data.List.Basic

/-! A scanner that tells whether bytes are a JSON text: one state for each place that a byte can
stand at, and a stack of the objects and arrays that are open. -/

namespace Lib.JsonScan

/-- What is being read of an object or array. -/
inductive ParseState
  | objectKey
  | objectValue
  | arrayValue
  deriving DecidableEq

inductive State
  | beginValueOrEmpty
  | beginValue
  | beginStringOrEmpty
  | beginString
  | endValue
  | endTop
  | inString
  | inStringEsc
  /-- So many hexadecimal digits follow after the next. -/
  | inStringEscU (more : Nat)
  | neg
  | digits
  | zero
  | dot
  | dotDigits
  | exp
  | expSign
  | expDigits
  | t
  | tr
  | tru
  | f
  | fa
  | fal
  | fals
  | n
  | nu
  | nul
  | error
  deriving DecidableEq

structure Scanner where
  step : State
  /-- The innermost first. -/
  parseState : List ParseState
  endTop : Bool

def isSpace (c : UInt8) : Bool := c == 0x20 || c == 0x09 || c == 0x0D || c == 0x0A

def isDigit (c : UInt8) : Bool := '0'.toUInt8 ≤ c && c ≤ '9'.toUInt8

def isHex (c : UInt8) : Bool :=
  isDigit c || ('a'.toUInt8 ≤ c && c ≤ 'f'.toUInt8) || ('A'.toUInt8 ≤ c && c ≤ 'F'.toUInt8)

/-- What stands for a character after a backslash. -/
def isEscape (c : UInt8) : Bool :=
  c == 'b'.toUInt8 || c == 'f'.toUInt8 || c == 'n'.toUInt8 || c == 'r'.toUInt8 ||
    c == 't'.toUInt8 || c == '\\'.toUInt8 || c == '/'.toUInt8 || c == '"'.toUInt8

def maxNestingDepth : Nat := 10000

namespace Scanner

def start : Scanner := ⟨.beginValue, [], false⟩

def goto (step : State) (s : Scanner) : Scanner := { s with step := step }

def push (step : State) (state : ParseState) (s : Scanner) : Scanner :=
  if s.parseState.length < maxNestingDepth then
    { s with
      step := step
      parseState := state :: s.parseState }
  else s.goto .error

/-- The innermost object or array ends, the others being open. -/
def pop (rest : List ParseState) (s : Scanner) : Scanner :=
  match rest with
  | [] => ⟨.endTop, [], true⟩
  | _ :: _ => ⟨.endValue, rest, s.endTop⟩

def endValue (c : UInt8) (s : Scanner) : Scanner :=
  match s.parseState with
  | [] => ⟨if isSpace c then .endTop else .error, [], true⟩
  | state :: rest =>
    if isSpace c then s.goto .endValue
    else match state with
      | .objectKey =>
        if c == ':'.toUInt8 then ⟨.beginValue, .objectValue :: rest, s.endTop⟩ else s.goto .error
      | .objectValue =>
        if c == ','.toUInt8 then ⟨.beginString, .objectKey :: rest, s.endTop⟩
        else if c == '}'.toUInt8 then s.pop rest
        else s.goto .error
      | .arrayValue =>
        if c == ','.toUInt8 then s.goto .beginValue
        else if c == ']'.toUInt8 then s.pop rest
        else s.goto .error

def beginValue (c : UInt8) (s : Scanner) : Scanner :=
  if isSpace c then s.goto .beginValue
  else if c == '{'.toUInt8 then s.push .beginStringOrEmpty .objectKey
  else if c == '['.toUInt8 then s.push .beginValueOrEmpty .arrayValue
  else if c == '"'.toUInt8 then s.goto .inString
  else if c == '-'.toUInt8 then s.goto .neg
  else if c == '0'.toUInt8 then s.goto .zero
  else if c == 't'.toUInt8 then s.goto .t
  else if c == 'f'.toUInt8 then s.goto .f
  else if c == 'n'.toUInt8 then s.goto .n
  else if isDigit c then s.goto .digits
  else s.goto .error

def beginString (step : State) (c : UInt8) (s : Scanner) : Scanner :=
  if isSpace c then s.goto step
  else if c == '"'.toUInt8 then s.goto .inString
  else s.goto .error

/-- A letter of `true`, `false` or `null`. -/
def expect (letter : UInt8) (step : State) (c : UInt8) (s : Scanner) : Scanner :=
  if c == letter then s.goto step else s.goto .error

/-- What can follow the digits before the point. -/
def zero (c : UInt8) (s : Scanner) : Scanner :=
  if c == '.'.toUInt8 then s.goto .dot
  else if c == 'e'.toUInt8 || c == 'E'.toUInt8 then s.goto .exp
  else s.endValue c

/-- The scanner after one more byte. -/
def next (s : Scanner) (c : UInt8) : Scanner :=
  match s.step with
  | .beginValueOrEmpty =>
    if isSpace c then s
    else if c == ']'.toUInt8 then s.endValue c
    else s.beginValue c
  | .beginValue => s.beginValue c
  | .beginStringOrEmpty =>
    if c == '}'.toUInt8 then
      endValue c { s with parseState := .objectValue :: s.parseState.tail }
    else s.beginString .beginStringOrEmpty c
  | .beginString => s.beginString .beginString c
  | .endValue => s.endValue c
  | .endTop => s.goto (if isSpace c then .endTop else .error)
  | .inString =>
    if c == '"'.toUInt8 then s.goto .endValue
    else if c == '\\'.toUInt8 then s.goto .inStringEsc
    else if c < 0x20 then s.goto .error
    else s
  | .inStringEsc =>
    if isEscape c then s.goto .inString
    else if c == 'u'.toUInt8 then s.goto (.inStringEscU 3)
    else s.goto .error
  | .inStringEscU more =>
    if isHex c then
      match more with
      | 0 => s.goto .inString
      | more + 1 => s.goto (.inStringEscU more)
    else s.goto .error
  | .neg =>
    if c == '0'.toUInt8 then s.goto .zero
    else if isDigit c then s.goto .digits
    else s.goto .error
  | .digits => if isDigit c then s else s.zero c
  | .zero => s.zero c
  | .dot => if isDigit c then s.goto .dotDigits else s.goto .error
  | .dotDigits =>
    if isDigit c then s
    else if c == 'e'.toUInt8 || c == 'E'.toUInt8 then s.goto .exp
    else s.endValue c
  | .exp =>
    if c == '+'.toUInt8 || c == '-'.toUInt8 then s.goto .expSign
    else if isDigit c then s.goto .expDigits
    else s.goto .error
  | .expSign => if isDigit c then s.goto .expDigits else s.goto .error
  | .expDigits => if isDigit c then s else s.endValue c
  | .t => s.expect 'r'.toUInt8 .tr c
  | .tr => s.expect 'u'.toUInt8 .tru c
  | .tru => s.expect 'e'.toUInt8 .endValue c
  | .f => s.expect 'a'.toUInt8 .fa c
  | .fa => s.expect 'l'.toUInt8 .fal c
  | .fal => s.expect 's'.toUInt8 .fals c
  | .fals => s.expect 'e'.toUInt8 .endValue c
  | .n => s.expect 'u'.toUInt8 .nu c
  | .nu => s.expect 'l'.toUInt8 .nul c
  | .nul => s.expect 'l'.toUInt8 .endValue c
  | .error => s

end Scanner

/-- The bytes are one JSON value, between spaces. -/
def valid (data : List UInt8) : Bool :=
  let s := data.foldl Scanner.next .start
  s.step != .error && (s.endTop || (s.next 0x20).endTop)

/-- A control character that is no space. -/
def IsControl (c : UInt8) : Prop := c < 0x20 ∧ isSpace c = false

instance (c : UInt8) : Decidable (IsControl c) := inferInstanceAs (Decidable (_ ∧ _))

section Control

variable {c : UInt8} {s : Scanner}

theorem IsControl.beq (h : IsControl c) {d : UInt8} (hd : 0x20 ≤ d) : (c == d) = false :=
  beq_false_of_ne fun hEq => absurd (hEq ▸ h.1) (UInt8.not_lt.mpr hd)

theorem IsControl.le (h : IsControl c) {d : UInt8} (hd : 0x20 ≤ d) : decide (d ≤ c) = false :=
  decide_eq_false fun hLe => absurd (UInt8.lt_of_lt_of_le h.1 hd) (UInt8.not_lt.mpr hLe)

theorem IsControl.isDigit (h : IsControl c) : isDigit c = false := by
  simp (disch := decide) [JsonScan.isDigit, h.le]

theorem IsControl.isHex (h : IsControl c) : isHex c = false := by
  simp (disch := decide) [JsonScan.isHex, h.isDigit, h.le]

theorem IsControl.isEscape (h : IsControl c) : isEscape c = false := by
  simp (disch := decide) only [JsonScan.isEscape, h.beq, Bool.or_self]

@[simp] theorem step_goto (step : State) : (s.goto step).step = step := rfl

theorem endValue_of_control (h : IsControl c) : (s.endValue c).step = .error := by
  unfold Scanner.endValue
  rw [h.2]
  cases s.parseState with
  | nil => rfl
  | cons state rest =>
    cases state <;> simp (disch := decide) only [h.beq, Bool.false_eq_true, if_false, step_goto]

theorem beginValue_of_control (h : IsControl c) : (s.beginValue c).step = .error := by
  simp (disch := decide) only [Scanner.beginValue, h.2, h.beq, h.isDigit, Bool.false_eq_true,
    if_false, step_goto]

theorem beginString_of_control (h : IsControl c) (step : State) :
    (s.beginString step c).step = .error := by
  simp (disch := decide) only [Scanner.beginString, h.2, h.beq, Bool.false_eq_true, if_false,
    step_goto]

theorem zero_of_control (h : IsControl c) : (s.zero c).step = .error := by
  simp (disch := decide) only [Scanner.zero, h.beq, Bool.or_self, Bool.false_eq_true, if_false,
    endValue_of_control h]

theorem expect_of_control (h : IsControl c) {letter : UInt8} (hLetter : 0x20 ≤ letter)
    (step : State) : (s.expect letter step c).step = .error := by
  simp only [Scanner.expect, h.beq hLetter, Bool.false_eq_true, if_false, step_goto]

/-- No control character but spaces stands anywhere in a JSON text. -/
theorem next_of_control (h : IsControl c) : (s.next c).step = .error := by
  unfold Scanner.next
  cases hStep : s.step <;>
    simp (disch := decide) only [h.1, h.2, h.beq, h.isDigit, h.isHex, h.isEscape, Bool.or_self,
      Bool.false_eq_true, if_false, if_true, endValue_of_control h, beginValue_of_control h,
      beginString_of_control h, zero_of_control h, expect_of_control h, step_goto, hStep]

theorem next_of_error (h : s.step = .error) (c : UInt8) : (s.next c).step = .error := by
  unfold Scanner.next
  simp [h]

theorem foldl_next_of_error {data : List UInt8} (h : s.step = .error) :
    (data.foldl Scanner.next s).step = .error := by
  induction data generalizing s with
  | nil => exact h
  | cons c data ih => exact ih (next_of_error h c)

theorem foldl_next_of_control {data : List UInt8} (hMem : c ∈ data) (h : IsControl c) :
    (data.foldl Scanner.next s).step = .error := by
  induction data generalizing s with
  | nil => cases hMem
  | cons d data ih =>
    rcases List.mem_cons.mp hMem with rfl | hMem
    · show (data.foldl Scanner.next (s.next c)).step = .error
      exact foldl_next_of_error (next_of_control h)
    · exact ih hMem

theorem valid_eq_false {data : List UInt8} (hMem : c ∈ data) (h : IsControl c) :
    valid data = false := by
  rw [valid, foldl_next_of_control hMem h]
  rfl

end Control

end Lib.JsonScan
