import Mathlib.Data.Nat.Digits.Lemmas

/-! Keys of FoundationDB.  What the package relies on in the tuple layer is a structure; the
encoding of the tuples that the program packs, of strings and chunk numbers, is an instance. -/

namespace Richter.Kv

abbrev Bytes := List UInt8

/-- The tuple layer over elements `E`: packing is injective and goes element by element.  A chunk
number is below `2 ^ 32`. -/
structure TupleLayer (E : Type) where
  pack : List E → Bytes
  string : String → E
  int : Nat → E
  pack_append : ∀ s t, pack (s ++ t) = pack s ++ pack t
  pack_injective : Function.Injective pack
  string_injective : Function.Injective string
  int_injective : ∀ i j, i < 2 ^ 32 → j < 2 ^ 32 → int i = int j → i = j

/-- The elements of tuples that the program packs. -/
inductive Element
  | string (s : String)
  | int (n : UInt64)
  deriving DecidableEq, Repr

/-- A zero byte within a string is followed by `0xFF`. -/
def escape (b : UInt8) : Bytes := if b = 0x00 then [0x00, 0xFF] else [b]

/-- The bytes of a number without leading zeros. -/
def bigEndian (n : Nat) : Bytes := ((Nat.digits 256 n).map UInt8.ofNat).reverse

def Element.encode : Element → Bytes
  | .string s => 0x02 :: s.toUTF8.data.toList.flatMap escape ++ [0x00]
  | .int n => UInt8.ofNat (0x14 + (bigEndian n.toNat).length) :: bigEndian n.toNat

def pack (t : List Element) : Bytes := t.flatMap Element.encode

/-- What follows an element does not begin with the second byte of an escaped zero. -/
def Follows (x : Bytes) : Prop := x.head? ≠ some 0xFF

theorem length_bigEndian_le (n : UInt64) : (bigEndian n.toNat).length ≤ 8 := by
  have h : n.toNat < 256 ^ 8 := n.toNat_lt
  simpa [bigEndian] using (Nat.digits_length_le_iff (by decide) _).mpr h

theorem bigEndian_injective : Function.Injective bigEndian := by
  have hInv : ∀ n, Nat.ofDigits 256 ((bigEndian n).reverse.map UInt8.toNat) = n := by
    intro n
    have hDigits : ((Nat.digits 256 n).map UInt8.ofNat).map UInt8.toNat = Nat.digits 256 n := by
      rw [List.map_map, List.map_congr_left, List.map_id]
      intro d hd
      have hLt : d < 256 := Nat.digits_lt_base (by decide) hd
      simp [Nat.mod_eq_of_lt hLt]
    rw [bigEndian, List.reverse_reverse, hDigits, Nat.ofDigits_digits]
  intro m n h
  rw [← hInv m, h, hInv]

/-- The end of an encoded string is where a zero is not escaped. -/
theorem escape_append_inj {u v x y : Bytes} (hx : Follows x) (hy : Follows y)
    (h : u.flatMap escape ++ 0x00 :: x = v.flatMap escape ++ 0x00 :: y) : u = v ∧ x = y := by
  induction u generalizing v with
  | nil =>
    cases v with
    | nil => exact ⟨rfl, by simpa using h⟩
    | cons c v =>
      by_cases hc : c = 0x00
      · subst hc
        have hHead : x = 0xFF :: (v.flatMap escape ++ 0x00 :: y) := by simpa [escape] using h
        rw [hHead] at hx
        exact absurd rfl hx
      · simp [escape, hc, Ne.symm hc] at h
  | cons b u ih =>
    cases v with
    | nil =>
      by_cases hb : b = 0x00
      · subst hb
        have hHead : y = 0xFF :: (u.flatMap escape ++ 0x00 :: x) := by
          simpa [escape, eq_comm] using h
        rw [hHead] at hy
        exact absurd rfl hy
      · simp [escape, hb] at h
    | cons c v =>
      have hByte : b = c ∧ u.flatMap escape ++ 0x00 :: x = v.flatMap escape ++ 0x00 :: y := by
        by_cases hb : b = 0x00 <;> by_cases hc : c = 0x00
        · subst hb hc
          exact ⟨rfl, by simpa [escape] using h⟩
        · simp [escape, hb, hc, Ne.symm hc] at h
        · simp [escape, hb, hc] at h
        · simpa [escape, hb, hc] using h
      obtain ⟨rfl, hRest⟩ := hByte
      obtain ⟨rfl, hxy⟩ := ih hRest
      exact ⟨rfl, hxy⟩

theorem string_bytes_injective {s t : String} (h : s.toUTF8.data.toList = t.toUTF8.data.toList) :
    s = t := by
  have hArray : s.toUTF8 = t.toUTF8 := ByteArray.ext (Array.toList_inj.mp h)
  simpa [String.toByteArray_inj] using hArray

/-- The first byte of a number of `k` bytes. -/
theorem toNat_code {k : Nat} (hk : k ≤ 8) : (UInt8.ofNat (0x14 + k)).toNat = 0x14 + k := by
  rw [UInt8.toNat_ofNat', Nat.mod_eq_of_lt (by omega)]

theorem code_ne_string {k : Nat} (hk : k ≤ 8) : UInt8.ofNat (0x14 + k) ≠ 0x02 := by
  intro h
  have hNat := (toNat_code hk).symm.trans (congrArg UInt8.toNat h)
  have hTwo : (0x02 : UInt8).toNat = 2 := rfl
  omega

theorem code_ne_escaped {k : Nat} (hk : k ≤ 8) : UInt8.ofNat (0x14 + k) ≠ 0xFF := by
  intro h
  have hNat := (toNat_code hk).symm.trans (congrArg UInt8.toNat h)
  have hLast : (0xFF : UInt8).toNat = 255 := rfl
  omega

theorem code_injective {j k : Nat} (hj : j ≤ 8) (hk : k ≤ 8)
    (h : UInt8.ofNat (0x14 + j) = UInt8.ofNat (0x14 + k)) : j = k := by
  have hNat := congrArg UInt8.toNat h
  rw [toNat_code hj, toNat_code hk] at hNat
  omega

theorem follows_pack (t : List Element) : Follows (pack t) := by
  cases t with
  | nil => exact nofun
  | cons e t =>
    cases e with
    | string s => simp [Follows, pack, Element.encode]
    | int n => simpa [Follows, pack, Element.encode] using code_ne_escaped (length_bigEndian_le n)

theorem encode_append_inj {a b : Element} {s t : List Element}
    (h : a.encode ++ pack s = b.encode ++ pack t) : a = b ∧ pack s = pack t := by
  cases a with
  | string u =>
    cases b with
    | string v =>
      have hTail : u.toUTF8.data.toList.flatMap escape ++ 0x00 :: pack s =
          v.toUTF8.data.toList.flatMap escape ++ 0x00 :: pack t := by
        simpa [Element.encode] using h
      obtain ⟨hBytes, hRest⟩ := escape_append_inj (follows_pack s) (follows_pack t) hTail
      exact ⟨by rw [string_bytes_injective hBytes], hRest⟩
    | int n => exact absurd (List.cons.inj h).1.symm (code_ne_string (length_bigEndian_le n))
  | int m =>
    cases b with
    | string v => exact absurd (List.cons.inj h).1 (code_ne_string (length_bigEndian_le m))
    | int n =>
      obtain ⟨hCode, hTail⟩ := List.cons.inj h
      have hLength := code_injective (length_bigEndian_le m) (length_bigEndian_le n) hCode
      obtain ⟨hDigits, hRest⟩ := List.append_inj hTail hLength
      exact ⟨by rw [UInt64.toNat_inj.mp (bigEndian_injective hDigits)], hRest⟩

theorem pack_injective : Function.Injective pack := by
  intro s
  induction s with
  | nil =>
    intro t h
    cases t with
    | nil => rfl
    | cons e t => cases e <;> simp [pack, Element.encode] at h
  | cons a s ih =>
    intro t h
    cases t with
    | nil => cases a <;> simp [pack, Element.encode] at h
    | cons b t =>
      obtain ⟨rfl, hRest⟩ := encode_append_inj h
      rw [ih hRest]

/-- The encoding of FoundationDB. -/
def fdbTuples : TupleLayer Element where
  pack := pack
  string := .string
  int n := .int (UInt64.ofNat n)
  pack_append s t := List.flatMap_append
  pack_injective := pack_injective
  string_injective _ _ := Element.string.inj
  int_injective i j hi hj h := by
    have hNat := congrArg UInt64.toNat (Element.int.inj h)
    rw [UInt64.toNat_ofNat', UInt64.toNat_ofNat', Nat.mod_eq_of_lt (by omega),
      Nat.mod_eq_of_lt (by omega)] at hNat
    exact hNat

example : pack [.string "ns", .string "c", .int 300] =
    [2, 110, 115, 0, 2, 99, 0, 0x16, 1, 44] := by decide

end Richter.Kv
