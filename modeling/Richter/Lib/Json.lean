import Mathlib.Algebra.Group.Int.Defs
import Mathlib.Algebra.Group.Nat.Defs
import Mathlib.Data.List.Basic

/-! JSON values, and their decoding into variables of a program the way Go's `json.Unmarshal` does
it: a field that is missing or `null` leaves its variable as it was, a later field of the same name
overwrites an earlier one, and the array behind a slice is used again.  A decoder hides fields when
it makes of a document without them what is left of its result for the whole document. -/

namespace Lib

/-- A number is `mantissa / 10 ^ scale`, with as many decimals as are written. -/
inductive Json
  | null
  | bool (b : Bool)
  | num (mantissa : Int) (scale : Nat)
  | str (s : String)
  | arr (items : List Json)
  | obj (fields : List (String × Json))

/-- The names that Go takes for one: letters are compared without their case, in which the long s
and the Kelvin sign count as letters. -/
def foldRune (c : Char) : Char :=
  if c = 'ſ' then 's' else if c.toNat = 0x212a then 'k' else c.toLower

def foldName (name : String) : String := String.ofList (name.toList.map foldRune)

namespace Json

/-- Removes or changes the fields of an object, as `edit` says for their folded names. -/
def editFields (edit : String → Option (Json → Json)) : Json → Json
  | .obj fields => .obj (fields.filterMap fun (name, j) =>
      (edit (foldName name)).map fun g => (name, g j))
  | j => j

/-- Removes one field. -/
def without (name : String) : Json → Json :=
  editFields fun n => if n = foldName name then none else some id

def mapItems (g : Json → Json) : Json → Json
  | .arr items => .arr (items.map g)
  | j => j

end Json

/-- How a value is decoded into a variable, from what the variable holds. -/
abbrev Decoder (α : Type) := α → Json → Option α

/-- The elements of a slice, and what its array holds behind them. -/
structure Slice (α : Type) where
  elems : List α
  spare : List α

/-- One field of a struct of type `α`. -/
structure Field (α : Type) where
  name : String
  decode : Decoder α

variable {α β : Type}

def FitsInt (width : Nat) (n : Int) : Prop := -2 ^ (width - 1) ≤ n ∧ n < 2 ^ (width - 1)

instance (width : Nat) (n : Int) : Decidable (FitsInt width n) :=
  inferInstanceAs (Decidable (_ ∧ _))

namespace Slice

def nil : Slice α := ⟨[], []⟩

def map (f : α → β) (s : Slice α) : Slice β := ⟨s.elems.map f, s.spare.map f⟩

end Slice

namespace Decoder

def string : Decoder String
  | s, .null => some s
  | _, .str s => some s
  | _, _ => none

def bool : Decoder Bool
  | b, .null => some b
  | _, .bool b => some b
  | _, _ => none

/-- An integer of `width` bits is written without decimals. -/
def int (width : Nat) : Decoder Int
  | n, .null => some n
  | _, .num n 0 => if FitsInt width n then some n else none
  | _, _ => none

/-- The elements of an array are decoded into those that the slice's array holds, and into zero
values behind them. -/
def elems (d : Decoder α) (zero : α) : List α → List Json → Option (Slice α)
  | old, [] => some ⟨[], old⟩
  | old, j :: js => do
      let a ← d (old.headD zero) j
      let s ← elems d zero old.tail js
      return ⟨a :: s.elems, s.spare⟩

def slice (d : Decoder α) (zero : α) : Decoder (Slice α)
  | _, .null => some Slice.nil
  | _, .arr [] => some Slice.nil
  | s, .arr items => d.elems zero (s.elems ++ s.spare) items
  | _, _ => none

/-- One entry of an object; an unknown one is skipped. -/
def entry (fields : List (Field α)) (a : α) (e : String × Json) : Option α :=
  match fields.find? fun f => foldName e.1 = foldName f.name with
  | some f => f.decode a e.2
  | none => some a

/-- The names of a struct's fields differ when folded. -/
def struct (fields : List (Field α)) : Decoder α
  | a, .null => some a
  | a, .obj entries => entries.foldlM (entry fields) a
  | _, _ => none

/-- Into a nil slice. -/
theorem slice_map {d : Decoder α} {zero : α} {enc : β → Json} {dec : β → α} {xs : List β}
    (h : ∀ x ∈ xs, d zero (enc x) = some (dec x)) :
    d.slice zero Slice.nil (.arr (xs.map enc)) = some ⟨xs.map dec, []⟩ := by
  have hElems : d.elems zero [] (xs.map enc) = some ⟨xs.map dec, []⟩ := by
    induction xs with
    | nil => rfl
    | cons x xs ih =>
      have hx : d zero (enc x) = some (dec x) := h x (by simp)
      have hRest := ih fun y hy => h y (by simp [hy])
      simp [elems, hx, hRest]
  cases xs with
  | nil => rfl
  | cons x xs => exact hElems

end Decoder

/-- The field `name`, which `d` decodes. -/
def Field.of (name : String) (d : Decoder β) (get : α → β) (set : α → β → α) : Field α :=
  ⟨name, fun a j => (d (get a) j).map (set a)⟩

/-- The entries of an object, one after the other, make `b` of `a`. -/
def Reads (fields : List (Field α)) (a : α) (entries : List (String × Json)) (b : α) : Prop :=
  entries.foldlM (Decoder.entry fields) a = some b

namespace Reads

variable {fields : List (Field α)} {a b c : α} {entries entries' : List (String × Json)}

theorem struct (h : Reads fields a entries b) :
    Decoder.struct fields a (.obj entries) = some b := h

theorem nil : Reads fields a [] a := rfl

theorem append (h : Reads fields a entries b) (h' : Reads fields b entries' c) :
    Reads fields a (entries ++ entries') c := by
  unfold Reads at *
  rw [List.foldlM_append, h]
  exact h'

/-- The first entry is one of the field `name'`. -/
theorem cons {name name' : String} {j : Json} {d : Decoder β} {get : α → β} {set : α → β → α}
    {x : β} (hFind : (fields.find? fun f => foldName name = foldName f.name) =
      some (.of name' d get set))
    (hDecode : d (get a) j = some x) (hSet : set a x = b) (h : Reads fields b entries c) :
    Reads fields a ((name, j) :: entries) c := by
  have hEntry : Decoder.entry fields a (name, j) = some b := by
    simp [Decoder.entry, hFind, Field.of, hDecode, hSet]
  unfold Reads at *
  rw [List.foldlM_cons, hEntry]
  exact h

end Reads

/-- `d` makes of the hidden document what `strip` leaves of what it makes of the document. -/
def Hides (d : Decoder α) (hide : Json → Json) (strip : α → α) : Prop :=
  ∀ ⦃a j b⦄, d a j = some b → d (strip a) (hide j) = some (strip b)

namespace Hides

variable {d : Decoder α} {hide : Json → Json} {strip : α → α}

theorem refl (d : Decoder α) : Hides d id id := fun _ _ _ h => h

theorem elems (hd : Hides d hide strip) {zero : α} (hZero : strip zero = zero) :
    ∀ (js : List Json) {old : List α} {s : Slice α}, d.elems zero old js = some s →
      d.elems zero (old.map strip) (js.map hide) = some (s.map strip) := by
  intro js
  induction js with
  | nil =>
    intro old s h
    cases h
    rfl
  | cons j js ih =>
    intro old s h
    simp only [Decoder.elems, Option.bind_eq_bind, Option.bind_eq_some_iff] at h
    obtain ⟨a, ha, t, ht, hs⟩ := h
    cases hs
    have hHead : (old.map strip).headD zero = strip (old.headD zero) := by
      cases old with
      | nil => exact hZero.symm
      | cons b old => rfl
    have hTail : (old.map strip).tail = old.tail.map strip := by cases old <;> rfl
    simp only [List.map_cons, Decoder.elems, hHead, hTail, hd ha, ih ht, Option.bind_eq_bind,
      Option.bind_some]
    rfl

theorem slice (hd : Hides d hide strip) {zero : α} (hZero : strip zero = zero) :
    Hides (d.slice zero) (Json.mapItems hide) (Slice.map strip) := by
  intro s j t h
  match j with
  | .null =>
    cases h
    rfl
  | .arr [] =>
    cases h
    rfl
  | .arr (j :: js) =>
    have hElems := hd.elems hZero (j :: js) h
    rw [List.map_append] at hElems
    exact hElems

/-- One field at a time: either nothing of a removed field is left, or the field's own decoder
commutes with what is done to it. -/
theorem struct {fields : List (Field α)} {edit : String → Option (Json → Json)}
    (hFields : ∀ f ∈ fields,
      match edit (foldName f.name) with
      | none => ∀ a j b, f.decode a j = some b → strip b = strip a
      | some g => Hides f.decode g strip) :
    Hides (Decoder.struct fields) (Json.editFields edit) strip := by
  intro a j b h
  match j with
  | .null =>
    cases h
    rfl
  | .obj entries =>
    change entries.foldlM (Decoder.entry fields) a = some b at h
    change List.foldlM (Decoder.entry fields) (strip a) _ = some (strip b)
    induction entries generalizing a with
    | nil =>
      cases h
      rfl
    | cons e entries ih =>
      obtain ⟨name, j⟩ := e
      rw [List.foldlM_cons, Option.bind_eq_bind, Option.bind_eq_some_iff] at h
      obtain ⟨a₁, ha₁, hRest⟩ := h
      have hNext := ih hRest
      -- the field that the name resolves to, if there is one
      have hEntry :
          match edit (foldName name) with
          | none => strip a₁ = strip a
          | some g => Decoder.entry fields (strip a) (name, g j) = some (strip a₁) := by
        unfold Decoder.entry at ha₁ ⊢
        cases hFind : fields.find? fun f => foldName name = foldName f.name with
        | none =>
          rw [hFind] at ha₁
          cases ha₁
          split <;> simp [hFind]
        | some f =>
          have hName : foldName name = foldName f.name := by
            simpa using List.find?_some hFind
          have hf := hFields f (List.mem_of_find?_eq_some hFind)
          rw [hFind] at ha₁
          rw [hName]
          cases hEdit : edit (foldName f.name) with
          | none =>
            rw [hEdit] at hf
            exact hf a j a₁ ha₁
          | some g =>
            rw [hEdit] at hf
            simpa [← hName, hFind] using hf ha₁
      cases hEdit : edit (foldName name) with
      | none =>
        rw [hEdit] at hEntry
        simpa [hEdit, ← hEntry] using hNext
      | some g =>
        rw [hEdit] at hEntry
        simpa [hEdit, hEntry] using hNext

/-- A field that is kept. -/
theorem kept {d : Decoder β} {name : String} {get : α → β} {set : α → β → α} {hide : Json → Json}
    {strip' : β → β} (hd : Hides d hide strip') (hGet : ∀ a, get (strip a) = strip' (get a))
    (hSet : ∀ a x, strip (set a x) = set (strip a) (strip' x)) :
    Hides (Field.of name d get set).decode hide strip := by
  intro a j b h
  simp only [Field.of, Option.map_eq_some_iff] at h ⊢
  obtain ⟨x, hx, rfl⟩ := h
  exact ⟨strip' x, by rw [hGet]; exact hd hx, (hSet a x).symm⟩

/-- A field that is removed. -/
theorem removed {d : Decoder β} {name : String} {get : α → β} {set : α → β → α}
    (hSet : ∀ a x, strip (set a x) = strip a) (a : α) (j : Json) (b : α)
    (h : (Field.of name d get set).decode a j = some b) : strip b = strip a := by
  simp only [Field.of, Option.map_eq_some_iff] at h
  obtain ⟨x, -, rfl⟩ := h
  exact hSet a x

end Hides

end Lib
