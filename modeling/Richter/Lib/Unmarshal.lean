import Richter.Lib.Json

/-! What Go's `json.Unmarshal` leaves in a variable where its error is not looked at: a value that
does not fit its variable is skipped, and everything else is decoded. -/

namespace Lib

/-- How a value is decoded into a variable as far as it fits. -/
abbrev Filler (α : Type) := α → Json → α

variable {α β : Type}

/-- `f` makes of a document that `d` decodes what `d` makes of it. -/
def Filler.Completes (f : Filler α) (d : Decoder α) : Prop :=
  ∀ ⦃a j b⦄, d a j = some b → f a j = b

/-- A field of a struct, decoded with and without the error. -/
structure FillField (α : Type) extends Field α where
  fill : Filler α
  completes : fill.Completes decode

namespace Filler

/-- A value without parts fits or does not. -/
def ofDecoder (d : Decoder α) : Filler α := fun a j => (d a j).getD a

def elems (f : Filler α) (zero : α) : List α → List Json → Slice α
  | old, [] => ⟨[], old⟩
  | old, j :: js =>
    let s := elems f zero old.tail js
    ⟨f (old.headD zero) j :: s.elems, s.spare⟩

def slice (f : Filler α) (zero : α) : Filler (Slice α)
  | _, .null => Slice.nil
  | _, .arr [] => Slice.nil
  | s, .arr items => f.elems zero (s.elems ++ s.spare) items
  | s, _ => s

def entry (fields : List (FillField α)) (a : α) (e : String × Json) : α :=
  match fields.find? fun f => foldName e.1 = foldName f.name with
  | some f => f.fill a e.2
  | none => a

def struct (fields : List (FillField α)) : Filler α
  | a, .obj entries => entries.foldl (entry fields) a
  | a, _ => a

variable {f : Filler α} {d : Decoder α}

theorem ofDecoder_completes (d : Decoder α) : (ofDecoder d).Completes d := by
  intro a j b h
  simp [ofDecoder, h]

theorem Completes.elems (h : f.Completes d) (zero : α) (js : List Json) {old : List α}
    {s : Slice α} (hs : d.elems zero old js = some s) : f.elems zero old js = s := by
  induction js generalizing old s with
  | nil => exact Option.some.inj hs
  | cons j js ih =>
    simp only [Decoder.elems, Option.bind_eq_bind, Option.bind_eq_some_iff] at hs
    obtain ⟨a, ha, t, ht, hEq⟩ := hs
    cases hEq
    simp only [Filler.elems, h ha, ih ht]

theorem Completes.slice (h : f.Completes d) (zero : α) :
    (f.slice zero).Completes (d.slice zero) := by
  intro s j t hs
  match j with
  | .null => exact Option.some.inj hs
  | .arr [] => exact Option.some.inj hs
  | .arr (j :: js) => exact h.elems zero (j :: js) hs

theorem find_toField (name : String) (fields : List (FillField α)) :
    (fields.map (·.toField)).find? (fun f => foldName name = foldName f.name) =
      (fields.find? fun f => foldName name = foldName f.name).map (·.toField) :=
  List.find?_map

theorem struct_completes (fields : List (FillField α)) :
    (struct fields).Completes (Decoder.struct (fields.map (·.toField))) := by
  intro a j b h
  match j with
  | .null => exact Option.some.inj h
  | .obj entries =>
    change entries.foldlM (Decoder.entry (fields.map (·.toField))) a = some b at h
    change entries.foldl (entry fields) a = b
    induction entries generalizing a with
    | nil => exact Option.some.inj h
    | cons e entries ih =>
      rw [List.foldlM_cons, Option.bind_eq_bind, Option.bind_eq_some_iff] at h
      obtain ⟨a₁, ha₁, hRest⟩ := h
      have hEntry : entry fields a e = a₁ := by
        unfold entry
        cases hFind : fields.find? fun f => foldName e.1 = foldName f.name with
        | none =>
          have hNone := find_toField e.1 fields
          rw [hFind] at hNone
          rw [Decoder.entry, hNone] at ha₁
          exact Option.some.inj ha₁
        | some f =>
          have hSome := find_toField e.1 fields
          rw [hFind] at hSome
          rw [Decoder.entry, hSome] at ha₁
          exact f.completes ha₁
      rw [List.foldl_cons, hEntry]
      exact ih hRest

/-- What holds of a variable after each field that is filled holds after the struct is. -/
theorem struct_induction {fields : List (FillField α)} {P : α → Prop} {a : α} {j : Json}
    (ha : P a) (hFields : ∀ f ∈ fields, ∀ entries, j = .obj entries → ∀ e ∈ entries, ∀ a,
      P a → P (f.fill a e.2)) : P (struct fields a j) := by
  match j with
  | .obj entries =>
    change P (entries.foldl (entry fields) a)
    have hStep : ∀ e ∈ entries, ∀ a, P a → P (entry fields a e) := by
      intro e he a ha
      unfold entry
      cases hFind : fields.find? fun f => foldName e.1 = foldName f.name with
      | none => exact ha
      | some f => exact hFields f (List.mem_of_find?_eq_some hFind) entries rfl e he a ha
    clear hFields
    induction entries generalizing a with
    | nil => exact ha
    | cons e entries ih =>
      exact ih (hStep e (by simp) a ha) fun e' he' => hStep e' (by simp [he'])
  | .null | .bool _ | .num _ _ | .str _ | .arr _ => exact ha

theorem length_elems (f : Filler α) (zero : α) (old : List α) (js : List Json) :
    (f.elems zero old js).elems.length = js.length := by
  induction js generalizing old with
  | nil => rfl
  | cons j js ih => simp [elems, ih]

/-- A slice that has been filled is as long as the array, where there was one. -/
theorem length_slice_le (f : Filler α) (zero : α) {s : Slice α} {j : Json} {n : Nat}
    (hOld : s.elems.length ≤ n) (hItems : ∀ items, j = .arr items → items.length ≤ n) :
    (f.slice zero s j).elems.length ≤ n := by
  match j with
  | .null => exact Nat.zero_le n
  | .arr [] => exact Nat.zero_le n
  | .arr (j :: js) =>
    have hLength := length_elems f zero (s.elems ++ s.spare) (j :: js)
    exact Nat.le_trans (Nat.le_of_eq hLength) (hItems (j :: js) rfl)
  | .bool _ | .num _ _ | .str _ | .obj _ => exact hOld

end Filler

/-- The field `name`, which `f` fills in where `d` may fail. -/
def FillField.of (name : String) (d : Decoder β) (f : Filler β) (h : f.Completes d) (get : α → β)
    (set : α → β → α) : FillField α where
  toField := .of name d get set
  fill a j := set a (f (get a) j)
  completes a j b hb := by
    simp only [Field.of, Option.map_eq_some_iff] at hb
    obtain ⟨x, hx, rfl⟩ := hb
    exact congrArg (set a) (h hx)

end Lib
