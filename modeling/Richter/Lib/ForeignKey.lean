import Richter.Lib.Table

/-! Two tables, the rows of the second of which may refer to rows of the first: `REFERENCES .. ON
DELETE SET NULL`.  The pair carries that no row refers to one that is gone. -/

namespace Lib

universe u v w x

structure ForeignKey (π : Type u) {κ : Type v} (key : π → κ) (ρ : Type w) {κ' : Type x}
    (childKey : ρ → κ') (ref : ρ → Option κ) where
  parents : Table π key
  children : Table ρ childKey
  refers : ∀ r ∈ children.rows, ∀ k, ref r = some k → k ∈ parents.rows.map key

namespace ForeignKey

variable {π : Type u} {κ : Type v} {key : π → κ} {ρ : Type w} {κ' : Type x} {childKey : ρ → κ'}
  {ref : ρ → Option κ}

def empty : ForeignKey π key ρ childKey ref := ⟨.empty, .empty, nofun⟩

/-- `DELETE WHERE p` from the second table. -/
def deleteChildren (t : ForeignKey π key ρ childKey ref) (p : ρ → Bool) :
    ForeignKey π key ρ childKey ref where
  parents := t.parents
  children := t.children.delete p
  refers r hr k hk := t.refers r (List.mem_filter.mp hr).1 k hk

/-- `UPDATE .. SET f WHERE p` of the first table. -/
def updateParents (t : ForeignKey π key ρ childKey ref) (p : π → Bool) (f : π → π)
    (hf : ∀ q, key (f q) = key q) : ForeignKey π key ρ childKey ref where
  parents := t.parents.update p f hf
  children := t.children
  refers r hr k hk := by
    obtain ⟨q, hq, rfl⟩ := List.mem_map.mp (t.refers r hr k hk)
    refine List.mem_map.mpr ⟨if p q then f q else q, List.mem_map.mpr ⟨q, hq, rfl⟩, ?_⟩
    by_cases hp : p q <;> simp [hp, hf]

/-- The row refers to a row that meets `p`. -/
def refersTo [DecidableEq κ] (t : ForeignKey π key ρ childKey ref) (p : π → Bool) (r : ρ) : Bool :=
  (ref r).any fun k => t.parents.rows.any fun q => key q = k && p q

theorem refersTo_iff [DecidableEq κ] {t : ForeignKey π key ρ childKey ref} {p : π → Bool} {r : ρ} :
    t.refersTo p r = true ↔ ∃ q ∈ t.parents.rows, p q = true ∧ ref r = some (key q) := by
  unfold refersTo
  cases h : ref r with
  | none => simp
  | some k =>
    simp only [Option.any_some, List.any_eq_true, Bool.and_eq_true, decide_eq_true_eq,
      Option.some.injEq]
    exact ⟨fun ⟨q, hq, hKey, hp⟩ => ⟨q, hq, hp, hKey.symm⟩,
      fun ⟨q, hq, hp, hKey⟩ => ⟨q, hq, hKey.symm, hp⟩⟩

section Delete

variable [DecidableEq κ] (t : ForeignKey π key ρ childKey ref) (p : π → Bool) (clear : ρ → ρ)
  (hKey : ∀ r, childKey (clear r) = childKey r) (hRef : ∀ r, ref (clear r) = none)

/-- `DELETE WHERE p` from the first table: the references to a row that goes are set to `NULL`. -/
def deleteParents : ForeignKey π key ρ childKey ref where
  parents := t.parents.delete p
  children := t.children.update (t.refersTo p) clear hKey
  refers := by
    intro r hr k hk
    obtain ⟨r₀, hr₀, rfl⟩ := List.mem_map.mp hr
    by_cases hp : t.refersTo p r₀ = true
    · rw [if_pos hp, hRef] at hk
      cases hk
    · rw [if_neg hp] at hk
      obtain ⟨q, hq, rfl⟩ := List.mem_map.mp (t.refers r₀ hr₀ k hk)
      refine List.mem_map.mpr ⟨q, List.mem_filter.mpr ⟨hq, ?_⟩, rfl⟩
      by_contra hNot
      refine hp ?_
      simp only [refersTo, hk, Option.any_some, List.any_eq_true, Bool.and_eq_true,
        decide_eq_true_eq]
      exact ⟨q, hq, rfl, by simpa using hNot⟩

end Delete

variable [DecidableEq κ]

/-- `INSERT` into the first table, which fails when a key is taken. -/
def insertParents : List π → ForeignKey π key ρ childKey ref →
    Option (ForeignKey π key ρ childKey ref)
  | [], t => some t
  | q :: qs, t =>
    if h : key q ∈ t.parents.rows.map key then none
    else insertParents qs
      { parents := t.parents.append q h
        children := t.children
        refers := fun r hr k hk => by
          rw [Table.append, List.map_append]
          exact List.mem_append_left _ (t.refers r hr k hk) }

variable {t t' : ForeignKey π key ρ childKey ref}

theorem insertParents_spec {qs : List π} (h : t.insertParents qs = some t') :
    t'.parents.rows = t.parents.rows ++ qs ∧ t'.children = t.children ∧
      ∀ q ∈ qs, key q ∉ t.parents.rows.map key := by
  induction qs generalizing t with
  | nil =>
    cases h
    simp
  | cons q qs ih =>
    unfold insertParents at h
    split at h
    · cases h
    · next hq =>
      obtain ⟨hParents, hChildren, hNew⟩ := ih h
      refine ⟨by simp [hParents, Table.append], hChildren, fun q' hq' => ?_⟩
      rcases List.mem_cons.mp hq' with rfl | hq'
      · exact hq
      · intro hOld
        refine hNew q' hq' ?_
        show key q' ∈ (t.parents.rows ++ [q]).map key
        rw [List.map_append]
        exact List.mem_append_left _ hOld

/-- No row refers to a new row. -/
theorem not_refers_of_insertParents {qs : List π} (h : t.insertParents qs = some t') {q : π}
    (hq : q ∈ qs) {r : ρ} (hr : r ∈ t'.children.rows) : ref r ≠ some (key q) := by
  obtain ⟨_, hChildren, hNew⟩ := insertParents_spec h
  intro hRef
  rw [hChildren] at hr
  exact hNew q hq (t.refers r hr _ hRef)

variable [DecidableEq κ']

/-- `INSERT` into the second table, which fails when a key is taken or a row refers to none. -/
def insertChildren : List ρ → ForeignKey π key ρ childKey ref →
    Option (ForeignKey π key ρ childKey ref)
  | [], t => some t
  | r :: rs, t =>
    if h : childKey r ∉ t.children.rows.map childKey ∧
        ∀ k ∈ ref r, k ∈ t.parents.rows.map key then
      insertChildren rs
        { parents := t.parents
          children := t.children.append r h.1
          refers := fun r' hr' k hk => by
            rcases List.mem_append.mp hr' with hOld | hNew
            · exact t.refers r' hOld k hk
            · rw [List.mem_singleton.mp hNew] at hk
              exact h.2 k hk }
    else none

theorem insertChildren_spec {rs : List ρ} (h : t.insertChildren rs = some t') :
    t'.children.rows = t.children.rows ++ rs ∧ t'.parents = t.parents := by
  induction rs generalizing t with
  | nil =>
    cases h
    simp
  | cons r rs ih =>
    unfold insertChildren at h
    split at h
    · obtain ⟨hChildren, hParents⟩ := ih h
      exact ⟨by simp [hChildren, Table.append], hParents⟩
    · cases h

/-- A row under a new key, which refers to a row that there is, can be inserted. -/
theorem exists_insertChildren {r : ρ} (hKey : childKey r ∉ t.children.rows.map childKey)
    (hRef : ∀ k ∈ ref r, k ∈ t.parents.rows.map key) : ∃ t', t.insertChildren [r] = some t' := by
  unfold insertChildren
  rw [dif_pos ⟨hKey, hRef⟩]
  exact ⟨_, rfl⟩

end ForeignKey

end Lib
