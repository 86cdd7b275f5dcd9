import Mathlib.Algebra.Ring.Nat
import Mathlib.Data.Option.Basic

/-! The wire format of protocol buffers: a message is a row of fields, each a tag and a value.
Readers take a field off the front of the bytes; `none` is an error. -/

namespace Lib.Wire

abbrev Bytes := List UInt8

/-- A number, the least seven bits first, in at most `k + 1` bytes. -/
def putVarint : Nat → Nat → Bytes
  | 0, n => [UInt8.ofNat n]
  | k + 1, n =>
    if n < 128 then [UInt8.ofNat n] else UInt8.ofNat (n % 128 + 128) :: putVarint k (n / 128)

/-- Of the last byte that a number may have, only one bit is left. -/
def getVarint : Nat → Bytes → Option (Nat × Bytes)
  | _, [] => none
  | 0, b :: rest => if b < 2 then some (b.toNat, rest) else none
  | k + 1, b :: rest =>
    if b < 128 then some (b.toNat, rest)
    else (getVarint k rest).map fun (n, rest) => (b.toNat % 128 + 128 * n, rest)

def appendVarint (n : Nat) : Bytes := putVarint 9 n

def consumeVarint (b : Bytes) : Option (Nat × Bytes) := getVarint 9 b

def appendFixed32 (n : UInt32) : Bytes :=
  [UInt8.ofNat n.toNat, UInt8.ofNat (n.toNat / 2 ^ 8), UInt8.ofNat (n.toNat / 2 ^ 16),
    UInt8.ofNat (n.toNat / 2 ^ 24)]

def consumeFixed32 : Bytes → Option (UInt32 × Bytes)
  | b0 :: b1 :: b2 :: b3 :: rest => some
      (UInt32.ofNat (b0.toNat + b1.toNat * 2 ^ 8 + b2.toNat * 2 ^ 16 + b3.toNat * 2 ^ 24), rest)
  | _ => none

def appendBytes (b : Bytes) : Bytes := appendVarint b.length ++ b

def consumeBytes (b : Bytes) : Option (Bytes × Bytes) := do
  let (n, rest) ← consumeVarint b
  if n ≤ rest.length then some (rest.take n, rest.drop n) else none

/-- Types of values on the wire. -/
def varintType : Nat := 0
def fixed64Type : Nat := 1
def bytesType : Nat := 2
def startGroupType : Nat := 3
def endGroupType : Nat := 4
def fixed32Type : Nat := 5

def maxValidNumber : Nat := 2 ^ 29 - 1

def appendTag (num type : Nat) : Bytes := appendVarint (num * 8 + type)

/-- The number of a field and the type of its value. -/
def consumeTag (b : Bytes) : Option (Nat × Nat × Bytes) := do
  let (tag, rest) ← consumeVarint b
  if 1 ≤ tag / 8 ∧ tag / 8 ≤ maxValidNumber then some (tag / 8, tag % 8, rest) else none

inductive Value
  | varint (n : Nat)
  | fixed64 (b : Bytes)
  | bytes (b : Bytes)
  /-- A group is skipped. -/
  | group
  | fixed32 (n : UInt32)
  deriving DecidableEq, Repr

/-- A value that is no group. -/
def consumeScalar (type : Nat) (b : Bytes) : Option (Value × Bytes) :=
  if type = varintType then (consumeVarint b).map fun (n, rest) => (.varint n, rest)
  else if type = fixed64Type then
    if 8 ≤ b.length then some (.fixed64 (b.take 8), b.drop 8) else none
  else if type = bytesType then (consumeBytes b).map fun (v, rest) => (.bytes v, rest)
  else if type = fixed32Type then (consumeFixed32 b).map fun (n, rest) => (.fixed32 n, rest)
  else none

/-- How deep groups may be nested. -/
def groupLimit : Nat := 10001

/-- What follows the groups that are open, the innermost first. -/
def skipGroups : Nat → List Nat → Bytes → Option Bytes
  | _, [], b => some b
  | 0, _ :: _, _ => none
  | fuel + 1, num :: groups, b => do
    let (num', type, rest) ← consumeTag b
    if type = endGroupType then
      if num' = num then skipGroups fuel groups rest else none
    else if type = startGroupType then
      if groups.length + 1 < groupLimit then skipGroups fuel (num' :: num :: groups) rest else none
    else
      let (_, rest) ← consumeScalar type rest
      skipGroups fuel (num :: groups) rest

structure Field where
  num : Nat
  value : Value
  deriving DecidableEq, Repr

def consumeField (b : Bytes) : Option (Field × Bytes) := do
  let (num, type, rest) ← consumeTag b
  if type = startGroupType then
    let rest ← skipGroups rest.length [num] rest
    return (⟨num, .group⟩, rest)
  else
    let (value, rest) ← consumeScalar type rest
    return (⟨num, value⟩, rest)

/-- The fields of a message; each has a byte at least, which bounds their number. -/
def parseFields : Nat → Bytes → Option (List Field)
  | _, [] => some []
  | 0, _ :: _ => none
  | fuel + 1, b => do
    let (field, rest) ← consumeField b
    let fields ← parseFields fuel rest
    return field :: fields

def parse (b : Bytes) : Option (List Field) := parseFields b.length b

def fixed32Field (num : Nat) (n : UInt32) : Bytes := appendTag num fixed32Type ++ appendFixed32 n

def bytesField (num : Nat) (b : Bytes) : Bytes := appendTag num bytesType ++ appendBytes b

section Values

variable {n num type : Nat} {rest : Bytes}

theorem putVarint_ne_nil (k n : Nat) : putVarint k n ≠ [] := by
  cases k with
  | zero => simp [putVarint]
  | succ k =>
    rw [putVarint]
    split <;> simp

theorem getVarint_putVarint {k : Nat} (h : n < 2 * 128 ^ k) :
    getVarint k (putVarint k n ++ rest) = some (n, rest) := by
  induction k generalizing n with
  | zero =>
    have hByte : (UInt8.ofNat n).toNat = n := by
      rw [UInt8.toNat_ofNat']
      omega
    have hLast : UInt8.ofNat n < 2 := by
      rw [UInt8.lt_iff_toNat_lt, hByte]
      simpa using h
    simp [putVarint, getVarint, hLast, hByte]
  | succ k ih =>
    rw [putVarint]
    split
    · next hSmall =>
      have hByte : (UInt8.ofNat n).toNat = n := by
        rw [UInt8.toNat_ofNat']
        omega
      have hLast : UInt8.ofNat n < 128 := by
        rw [UInt8.lt_iff_toNat_lt, hByte]
        simpa using hSmall
      simp [getVarint, hLast, hByte]
    · have hByte : (UInt8.ofNat (n % 128 + 128)).toNat = n % 128 + 128 := by
        rw [UInt8.toNat_ofNat']
        omega
      have hMore : ¬ UInt8.ofNat (n % 128 + 128) < 128 := by
        rw [UInt8.lt_iff_toNat_lt, hByte]
        simp
      have hRest : n / 128 < 2 * 128 ^ k := by
        rw [Nat.pow_succ] at h
        omega
      rw [List.cons_append, getVarint, if_neg hMore, ih hRest]
      simp only [Option.map_some, hByte, Option.some.injEq, Prod.mk.injEq, and_true]
      omega

theorem consumeVarint_append (h : n < 2 ^ 64) :
    consumeVarint (appendVarint n ++ rest) = some (n, rest) := getVarint_putVarint (by omega)

theorem consumeFixed32_append (n : UInt32) :
    consumeFixed32 (appendFixed32 n ++ rest) = some (n, rest) := by
  have hLt := n.toNat_lt
  simp only [appendFixed32, List.cons_append, List.nil_append, consumeFixed32,
    UInt8.toNat_ofNat', Option.some.injEq, Prod.mk.injEq, and_true]
  apply UInt32.toNat_inj.mp
  rw [UInt32.toNat_ofNat']
  omega

theorem consumeBytes_append {b : Bytes} (h : b.length < 2 ^ 64) :
    consumeBytes (appendBytes b ++ rest) = some (b, rest) := by
  simp [consumeBytes, appendBytes, List.append_assoc, consumeVarint_append h]

theorem consumeTag_append (hNum : 1 ≤ num ∧ num ≤ maxValidNumber) (hType : type < 8) :
    consumeTag (appendTag num type ++ rest) = some (num, type, rest) := by
  unfold maxValidNumber at hNum
  have hDiv : (num * 8 + type) / 8 = num := by omega
  have hMod : (num * 8 + type) % 8 = type := by omega
  have hVarint : consumeVarint (appendTag num type ++ rest) = some (num * 8 + type, rest) :=
    consumeVarint_append (by omega)
  simp only [consumeTag, hVarint, Option.bind_eq_bind, Option.bind_some, hDiv, hMod]
  exact if_pos hNum

end Values

section Fields

variable {num : Nat} {rest : Bytes}

theorem consumeField_fixed32Field (hNum : 1 ≤ num ∧ num ≤ maxValidNumber) (n : UInt32) :
    consumeField (fixed32Field num n ++ rest) = some (⟨num, .fixed32 n⟩, rest) := by
  rw [fixed32Field, List.append_assoc, consumeField, consumeTag_append hNum (by decide)]
  have hScalar : consumeScalar fixed32Type (appendFixed32 n ++ rest) =
      some (.fixed32 n, rest) := by
    rw [consumeScalar, if_neg (by decide), if_neg (by decide), if_neg (by decide), if_pos rfl,
      consumeFixed32_append]
    rfl
  simp only [Option.bind_eq_bind, Option.bind_some, hScalar]
  rfl

theorem consumeField_bytesField (hNum : 1 ≤ num ∧ num ≤ maxValidNumber) {b : Bytes}
    (h : b.length < 2 ^ 64) :
    consumeField (bytesField num b ++ rest) = some (⟨num, .bytes b⟩, rest) := by
  rw [bytesField, List.append_assoc, consumeField, consumeTag_append hNum (by decide)]
  have hScalar : consumeScalar bytesType (appendBytes b ++ rest) = some (.bytes b, rest) := by
    rw [consumeScalar, if_neg (by decide), if_neg (by decide), if_pos rfl, consumeBytes_append h]
    rfl
  simp only [Option.bind_eq_bind, Option.bind_some, hScalar]
  rfl

theorem parseFields_cons {fuel : Nat} {c : UInt8} {b : Bytes} {fields : List Field} :
    parseFields (fuel + 1) (c :: b) = some fields ↔
      ∃ field rest fields', consumeField (c :: b) = some (field, rest) ∧
        parseFields fuel rest = some fields' ∧ field :: fields' = fields := by
  constructor
  · intro h
    obtain ⟨⟨field, rest⟩, hField, hRest⟩ := Option.bind_eq_some_iff.mp h
    obtain ⟨fields', hFields, hEq⟩ := Option.bind_eq_some_iff.mp hRest
    exact ⟨field, rest, fields', hField, hFields, Option.some.inj hEq⟩
  · rintro ⟨field, rest, fields', hField, hFields, hEq⟩
    refine Option.bind_eq_some_iff.mpr ⟨⟨field, rest⟩, hField, ?_⟩
    exact Option.bind_eq_some_iff.mpr ⟨fields', hFields, congrArg some hEq⟩

theorem parseFields_succ {fuel : Nat} {b : Bytes} {fields : List Field}
    (h : parseFields fuel b = some fields) : parseFields (fuel + 1) b = some fields := by
  induction fuel generalizing b fields with
  | zero =>
    cases b with
    | nil => exact h
    | cons c b => cases h
  | succ fuel ih =>
    cases b with
    | nil => exact h
    | cons c b =>
      obtain ⟨field, rest, fields', hField, hFields, hEq⟩ := parseFields_cons.mp h
      exact parseFields_cons.mpr ⟨field, rest, fields', hField, ih hFields, hEq⟩

theorem parseFields_mono {fuel fuel' : Nat} (hLe : fuel ≤ fuel') {b : Bytes} {fields : List Field}
    (h : parseFields fuel b = some fields) : parseFields fuel' b = some fields := by
  induction hLe with
  | refl => exact h
  | step _ ih => exact parseFields_succ ih

@[simp] theorem parse_nil : parse [] = some [] := rfl

/-- A message that begins with a field has that field and those of the rest. -/
theorem parse_append {x : Bytes} {field : Field} {fields : List Field} (hx : x ≠ [])
    (hField : consumeField (x ++ rest) = some (field, rest)) (h : parse rest = some fields) :
    parse (x ++ rest) = some (field :: fields) := by
  obtain ⟨c, x, rfl⟩ := List.exists_cons_of_ne_nil hx
  have hLe : rest.length + 1 ≤ (c :: x ++ rest).length := by
    rw [List.length_append, List.length_cons]
    omega
  exact parseFields_mono hLe (parseFields_cons.mpr ⟨field, rest, fields, hField, h, rfl⟩)

theorem appendTag_ne_nil (num type : Nat) : appendTag num type ≠ [] := putVarint_ne_nil 9 _

theorem parse_fixed32Field (hNum : 1 ≤ num ∧ num ≤ maxValidNumber) (n : UInt32)
    {fields : List Field} (h : parse rest = some fields) :
    parse (fixed32Field num n ++ rest) = some (⟨num, .fixed32 n⟩ :: fields) :=
  parse_append (List.append_ne_nil_of_left_ne_nil (appendTag_ne_nil _ _) _)
    (consumeField_fixed32Field hNum n) h

theorem parse_bytesField (hNum : 1 ≤ num ∧ num ≤ maxValidNumber) {b : Bytes}
    (hLength : b.length < 2 ^ 64) {fields : List Field} (h : parse rest = some fields) :
    parse (bytesField num b ++ rest) = some (⟨num, .bytes b⟩ :: fields) :=
  parse_append (List.append_ne_nil_of_left_ne_nil (appendTag_ne_nil _ _) _)
    (consumeField_bytesField hNum hLength) h

end Fields

end Lib.Wire
