import Mathlib.Data.Finset.Dedup
import Mathlib.Data.Finset.Range
import Mathlib.Data.List.Nodup
import Mathlib.Data.List.Perm.Basic
import Mathlib.Data.List.Perm.Lattice

/-! Tables with a primary key, and the statements of SQL on them.  A table carries the uniqueness
of its keys, and each statement is described by what `find` returns after it. -/

namespace Lib

universe u v

/-- SQL's `=` between nullable values: `NULL` equals nothing, itself included. -/
def sqlEq {α : Type u} [DecidableEq α] : Option α → Option α → Bool
  | some a, some b => a = b
  | _, _ => false

@[simp] theorem sqlEq_iff {α : Type u} [DecidableEq α] {x y : Option α} :
    sqlEq x y = true ↔ ∃ a, x = some a ∧ y = some a := by
  cases x <;> cases y <;> simp [sqlEq, eq_comm]

/-- SQL's `<` against a bound: `NULL` is below nothing. -/
def sqlLt {α : Type u} [LT α] [DecidableLT α] : Option α → α → Bool
  | some a, b => a < b
  | none, _ => false

/-- What is made of rows with `p` only is the same for lists with the same rows of that kind. -/
theorem filterMap_eq_of_filter_eq {α : Type u} {β : Type v} {p : α → Bool} {f : α → Option β}
    {xs ys : List α} (h : ys.filter p = xs.filter p) (hf : ∀ a ∈ xs ++ ys, (f a).isSome → p a) :
    ys.filterMap f = xs.filterMap f := by
  have hFilter : ∀ zs ⊆ xs ++ ys, zs.filterMap f = (zs.filter p).filterMap f := by
    intro zs hzs
    rw [List.filterMap_filter]
    refine List.filterMap_congr fun a ha => ?_
    cases hfa : f a with
    | none => simp
    | some b => rw [if_pos (hf a (hzs ha) (by rw [hfa]; rfl))]
  rw [hFilter ys (List.subset_append_right ..), h, ← hFilter xs (List.subset_append_left ..)]

theorem filter_eq_of_filter_eq {α : Type u} {p q : α → Bool} {xs ys : List α}
    (h : ys.filter p = xs.filter p) (hq : ∀ a ∈ xs ++ ys, q a = true → p a = true) :
    ys.filter q = xs.filter q := by
  simp only [← List.filterMap_eq_filter]
  refine filterMap_eq_of_filter_eq h fun a ha hSome => hq a ha ?_
  simpa [Option.guard] using hSome

/-- `LEFT JOIN`: a row without a match stays, with none. -/
def leftJoin {α : Type u} {β : Type v} (on : α → β → Bool) (as : List α) (bs : List β) :
    List (α × Option β) :=
  as.flatMap fun a =>
    match bs.filter (on a) with
    | [] => [(a, none)]
    | matched => matched.map fun b => (a, some b)

/-- `LIMIT limit OFFSET offset`. -/
def page {α : Type u} (limit offset : Nat) (rows : List α) : List α :=
  (rows.drop offset).take limit

/-- A page begins behind the offset. -/
@[simp] theorem length_page {α : Type u} (limit offset : Nat) (rows : List α) :
    (page limit offset rows).length = min limit (rows.length - offset) := by
  simp [page]

/-- The pages of a list, one behind the other, are the list as far as they reach. -/
theorem flatMap_page {α : Type u} (limit n : Nat) (rows : List α) :
    ((List.range n).flatMap fun i => page limit (i * limit) rows) = rows.take (n * limit) := by
  induction n with
  | zero => simp
  | succ n ih =>
    rw [List.range_succ, List.flatMap_append, ih, List.flatMap_singleton, page, Nat.succ_mul,
      List.take_add]

/-- Rows no two of which have the same key. -/
structure Table (ρ : Type u) {κ : Type v} (key : ρ → κ) where
  rows : List ρ
  nodup : (rows.map key).Nodup

namespace Table

variable {ρ : Type u} {κ : Type v} {key : ρ → κ}

def empty : Table ρ key := ⟨[], List.nodup_nil⟩

/-- `UPDATE .. SET f WHERE p`. -/
def update (t : Table ρ key) (p : ρ → Bool) (f : ρ → ρ)
    (hf : ∀ r, key (f r) = key r) : Table ρ key where
  rows := t.rows.map fun r => if p r then f r else r
  nodup := by
    have hKeys : (t.rows.map fun r => if p r then f r else r).map key = t.rows.map key := by
      rw [List.map_map]
      refine List.map_congr_left fun r _ => ?_
      by_cases hp : p r <;> simp [hp, hf]
    rw [hKeys]
    exact t.nodup

/-- `DELETE WHERE p`. -/
def delete (t : Table ρ key) (p : ρ → Bool) : Table ρ key where
  rows := t.rows.filter fun r => !p r
  nodup := (List.filter_sublist.map key).nodup t.nodup

/-- A new row at the end. -/
def append (t : Table ρ key) (r : ρ) (hr : key r ∉ t.rows.map key) : Table ρ key where
  rows := t.rows ++ [r]
  nodup := by
    rw [List.map_append, List.nodup_append]
    refine ⟨t.nodup, List.nodup_singleton _, fun a ha b hb hab => hr ?_⟩
    rw [← List.mem_singleton.mp hb, ← hab]
    exact ha

theorem eq_of_key (t : Table ρ key) {r s : ρ} (hr : r ∈ t.rows) (hs : s ∈ t.rows)
    (h : key r = key s) : r = s := List.inj_on_of_nodup_map t.nodup hr hs h

/-- A table whose rows with `p` come from such rows of another table, with the same keys, has no
more of them. -/
theorem countP_le_of_keys {t t' : Table ρ key} {p : ρ → Bool}
    (h : ∀ r' ∈ t'.rows, p r' = true → ∃ r ∈ t.rows, p r = true ∧ key r = key r') :
    t'.rows.countP p ≤ t.rows.countP p := by
  have hNodup : ((t'.rows.filter p).map key).Nodup := (List.filter_sublist.map key).nodup t'.nodup
  have hSubset : (t'.rows.filter p).map key ⊆ (t.rows.filter p).map key := by
    intro k hk
    obtain ⟨r', hr', rfl⟩ := List.mem_map.mp hk
    obtain ⟨hMem, hp⟩ := List.mem_filter.mp hr'
    obtain ⟨r, hr, hpr, hKey⟩ := h r' hMem hp
    exact List.mem_map.mpr ⟨r, List.mem_filter.mpr ⟨hr, hpr⟩, hKey⟩
  have hLength := (List.subperm_of_subset hNodup hSubset).length_le
  rw [List.countP_eq_length_filter, List.countP_eq_length_filter]
  simpa using hLength

theorem nodup_rows (t : Table ρ key) : t.rows.Nodup := List.Nodup.of_map key t.nodup

/-- An update whose condition no row meets changes nothing. -/
theorem update_eq_self {t : Table ρ key} {p : ρ → Bool} {f : ρ → ρ}
    (hf : ∀ r, key (f r) = key r) (h : ∀ r ∈ t.rows, p r = false) : t.update p f hf = t := by
  cases t with
  | mk rows nodup =>
    simp only [update, mk.injEq]
    calc rows.map (fun r => if p r then f r else r) = rows.map id :=
          List.map_congr_left fun r hr => by simp [h r hr]
      _ = rows := List.map_id rows

variable [DecidableEq κ]

/-- The row with key `k`. -/
def find (t : Table ρ key) (k : κ) : Option ρ := t.rows.find? fun r => key r = k

/-- `INSERT`, which fails when the key is taken. -/
def insert (t : Table ρ key) (r : ρ) : Option (Table ρ key) :=
  if h : key r ∈ t.rows.map key then none else some (t.append r h)

/-- The rows, each inserted behind the ones before it; a taken key is passed over. -/
def ofList (rows : List ρ) : Table ρ key :=
  rows.foldl (fun t r => (t.insert r).getD t) empty

/-- `INSERT .. ON CONFLICT (key) DO UPDATE SET f`. -/
def upsert (t : Table ρ key) (r : ρ) (f : ρ → ρ)
    (hf : ∀ r, key (f r) = key r) : Table ρ key :=
  if h : key r ∈ t.rows.map key then t.update (fun s => key s = key r) f hf else t.append r h

variable {t : Table ρ key}

/-- Rows with different keys are all there, in their order. -/
theorem rows_ofList {rows : List ρ} (h : (rows.map key).Nodup) :
    (ofList rows : Table ρ key).rows = rows := by
  suffices hFold : ∀ t : Table ρ key, ((t.rows ++ rows).map key).Nodup →
      (rows.foldl (fun t r => (t.insert r).getD t) t).rows = t.rows ++ rows from hFold empty h
  clear h
  induction rows with
  | nil => exact fun t _ => (List.append_nil _).symm
  | cons r rows ih =>
    intro t h
    have hNew : key r ∉ t.rows.map key := by
      rw [List.map_append, List.nodup_append] at h
      exact fun hr => h.2.2 _ hr _ (List.mem_map_of_mem List.mem_cons_self) rfl
    have hInsert : (t.insert r).getD t = t.append r hNew := by
      rw [insert, dif_neg hNew]
      rfl
    rw [List.append_cons] at h ⊢
    rw [List.foldl_cons, hInsert, ih _ h]
    rfl

theorem find_key {k : κ} {r : ρ} (h : t.find k = some r) : key r = k := by
  simpa using List.find?_some h

theorem find_eq_some_iff {k : κ} {r : ρ} : t.find k = some r ↔ r ∈ t.rows ∧ key r = k := by
  constructor
  · exact fun h => ⟨List.mem_of_find?_eq_some h, find_key h⟩
  · rintro ⟨hMem, rfl⟩
    obtain ⟨s, hs⟩ : ∃ s, t.find (key r) = some s := by
      rw [← Option.isSome_iff_exists, find, List.find?_isSome]
      exact ⟨r, hMem, by simp⟩
    have hEq : s = r := t.eq_of_key (List.mem_of_find?_eq_some hs) hMem (find_key hs)
    rw [hs, hEq]

theorem mem_rows_iff {r : ρ} : r ∈ t.rows ↔ t.find (key r) = some r := by
  simp [find_eq_some_iff]

theorem find_eq_none_iff {k : κ} : t.find k = none ↔ k ∉ t.rows.map key := by
  simp [find, List.find?_eq_none]

@[simp] theorem find_empty (k : κ) : (empty : Table ρ key).find k = none := rfl

@[simp] theorem find_update (p : ρ → Bool) (f : ρ → ρ) (hf : ∀ r, key (f r) = key r) (k : κ) :
    (t.update p f hf).find k = (t.find k).map fun r => if p r then f r else r := by
  simp only [find, update, List.find?_map]
  congr 2
  funext r
  by_cases hp : p r <;> simp [hp, hf]

/-- An update reaches the rows that meet its condition only. -/
theorem find_update_ne {p : ρ → Bool} {f : ρ → ρ} (hf : ∀ r, key (f r) = key r) {k : κ}
    (h : (t.update p f hf).find k ≠ t.find k) : ∃ r, t.find k = some r ∧ p r = true := by
  rw [find_update] at h
  cases hr : t.find k with
  | none => simp [hr] at h
  | some r =>
    refine ⟨r, rfl, ?_⟩
    by_contra hp
    simp [hr, hp] at h

@[simp] theorem find_delete (p : ρ → Bool) (k : κ) :
    (t.delete p).find k = (t.find k).filter fun r => !p r := by
  rw [Option.ext_iff]
  intro r
  simp only [find_eq_some_iff, Option.filter_eq_some_iff, delete, List.mem_filter]
  tauto

theorem find_append (r : ρ) (hr : key r ∉ t.rows.map key) (k : κ) :
    (t.append r hr).find k = if k = key r then some r else t.find k := by
  by_cases hk : k = key r
  · rw [if_pos hk, find_eq_some_iff]
    exact ⟨by simp [append], hk.symm⟩
  · rw [if_neg hk, find, append, List.find?_append]
    simp [find, Ne.symm hk]

theorem find_insert {r : ρ} {t' : Table ρ key} (h : t.insert r = some t') (k : κ) :
    t'.find k = if k = key r then some r else t.find k := by
  unfold insert at h
  split at h
  · cases h
  · rename_i hr
    cases h
    exact find_append r hr k

/-- An insert only succeeds under a new key. -/
theorem find_of_insert {r : ρ} {t' : Table ρ key} (h : t.insert r = some t') :
    t.find (key r) = none := by
  unfold insert at h
  split at h
  · cases h
  · rename_i hr
    exact find_eq_none_iff.mpr hr

theorem find_upsert (r : ρ) (f : ρ → ρ) (hf : ∀ r, key (f r) = key r) (k : κ) :
    (t.upsert r f hf).find k =
      if k = key r then some ((t.find k).elim r f) else t.find k := by
  unfold upsert
  split
  · rename_i hr
    obtain ⟨s, hs⟩ : ∃ s, t.find (key r) = some s := by
      rw [← Option.ne_none_iff_exists']
      exact fun hNone => find_eq_none_iff.mp hNone hr
    rw [find_update]
    by_cases hk : k = key r
    · rw [hk, hs]
      simp [find_key hs]
    · rw [if_neg hk]
      cases hFind : t.find k with
      | none => rfl
      | some s' => simp [find_key hFind, hk]
  · rename_i hr
    rw [find_append]
    by_cases hk : k = key r
    · simp [hk, find_eq_none_iff.mpr hr]
    · simp [hk]

/-- Among two rows that meet a condition, one has a key other than `k`. -/
theorem exists_other {p : ρ → Bool} (h : 2 ≤ t.rows.countP p) (k : κ) :
    ∃ r ∈ t.rows, p r = true ∧ key r ≠ k := by
  by_contra hNone
  push Not at hNone
  have hKeys : ∀ x ∈ (t.rows.filter p).map key, x = k := by
    intro x hx
    obtain ⟨r, hr, rfl⟩ := List.mem_map.mp hx
    exact hNone r (List.mem_filter.mp hr).1 (List.mem_filter.mp hr).2
  have hNodup : ((t.rows.filter p).map key).Nodup := (List.filter_sublist.map key).nodup t.nodup
  rw [List.eq_replicate_of_mem hKeys, List.length_map, ← List.countP_eq_length_filter] at hNodup
  have := List.nodup_replicate.mp hNodup
  omega

/-- A join on the key of a table finds at most one row. -/
theorem leftJoin_find {α : Type u} (t : Table ρ key) (f : α → κ) (as : List α) :
    leftJoin (fun a r => key r = f a) as t.rows = as.map fun a => (a, t.find (f a)) := by
  have hMem : ∀ k r, r ∈ t.rows.filter (fun r => key r = k) ↔ t.find k = some r := by
    intro k r
    rw [List.mem_filter, decide_eq_true_eq, find_eq_some_iff]
  have hOne : ∀ k, t.rows.filter (fun r => key r = k) = (t.find k).toList := by
    intro k
    cases hFind : t.find k with
    | none =>
      rw [Option.toList_none, List.eq_nil_iff_forall_not_mem]
      intro r hr
      rw [hMem, hFind] at hr
      cases hr
    | some s =>
      refine List.perm_singleton.mp
        ((List.perm_ext_iff_of_nodup (t.nodup_rows.filter _) (List.nodup_singleton s)).mpr ?_)
      intro r
      rw [hMem, hFind, List.mem_singleton, Option.some_inj, eq_comm]
  simp only [leftJoin, hOne]
  rw [List.map_eq_flatMap]
  congr 1
  funext a
  cases t.find (f a) <;> rfl

/-- A condition on the row with a key. -/
theorem any_rows_eq (t : Table ρ key) (k : κ) (p : ρ → Bool) :
    (t.rows.any fun r => decide (key r = k) && p r) = (t.find k).any p := by
  rw [Bool.eq_iff_iff, List.any_eq_true, Option.any_eq_true]
  simp only [Bool.and_eq_true, decide_eq_true_eq, find_eq_some_iff]
  tauto

theorem find_eq_of_filter_eq {t' : Table ρ key} {p : κ → Bool}
    (h : (t'.rows.filter fun r => p (key r)) = t.rows.filter fun r => p (key r)) {k : κ}
    (hk : p k = true) : t'.find k = t.find k := by
  have hFilter : ∀ rows : List ρ, (rows.find? fun r => key r = k) =
      (rows.filter fun r => p (key r)).find? fun r => key r = k := by
    intro rows
    rw [List.find?_filter]
    congr 1
    funext r
    by_cases hr : key r = k <;> simp [hr, hk]
  rw [find, hFilter, h, ← hFilter]
  rfl

/-- The rows with `p` can be replaced by any number of new ones. -/
theorem exists_replaced {key : ρ → Nat} (t : Table ρ key) (p : ρ → Bool) (mk : Nat → ρ)
    (hKey : ∀ k, key (mk k) = k) (hp : ∀ k, p (mk k) = true) (n : Nat) :
    ∃ t' : Table ρ key, (t'.rows.filter fun r => !p r) = (t.rows.filter fun r => !p r) ∧
      (t'.rows.filter p).length = n := by
  obtain ⟨m, hm⟩ := (t.rows.map key).toFinset.exists_nat_subset_range
  have hBelow : ∀ r ∈ t.rows, key r < m := by
    intro r hr
    simpa using hm (List.mem_toFinset.mpr (List.mem_map_of_mem hr))
  let kept := t.rows.filter fun r => !p r
  let new := (List.range n).map fun i => mk (m + i)
  have hNodup : ((kept ++ new).map key).Nodup := by
    rw [List.map_append, List.nodup_append]
    refine ⟨(List.filter_sublist.map key).nodup t.nodup, ?_, ?_⟩
    · have hKeys : new.map key = (List.range n).map (m + ·) := by
        simp [new, Function.comp_def, hKey]
      rw [hKeys]
      exact List.nodup_range.map fun i j hij => by simpa using hij
    · rintro a ha b hb rfl
      obtain ⟨r, hr, rfl⟩ := List.mem_map.mp ha
      obtain ⟨s, hs, hEq⟩ := List.mem_map.mp hb
      obtain ⟨i, -, rfl⟩ := List.mem_map.mp hs
      have := hBelow r (List.mem_filter.mp hr).1
      rw [hKey] at hEq
      omega
  have hNew : new.filter p = new := List.filter_eq_self.mpr fun r hr => by
    obtain ⟨i, -, rfl⟩ := List.mem_map.mp hr
    exact hp _
  refine ⟨⟨kept ++ new, hNodup⟩, ?_, ?_⟩
  · simp [kept, new, hp]
  · show ((kept ++ new).filter p).length = n
    rw [List.filter_append, hNew]
    simp [kept, new]

/-! What a statement leaves of the rows with `q`, when it reaches none of them. -/

section Filter

variable {q q' : ρ → Bool}

theorem filter_insert_eq {r : ρ} {t' : Table ρ key} (h : t.insert r = some t')
    (hSame : ∀ s ∈ t.rows, q' s = q s) (hOut : q' r = false) :
    t'.rows.filter q' = t.rows.filter q := by
  unfold insert at h
  split at h
  · cases h
  · cases h
    show (t.rows ++ [r]).filter q' = _
    rw [List.filter_append, List.filter_cons_of_neg (by simp [hOut]), List.filter_nil,
      List.append_nil]
    exact List.filter_congr hSame

omit [DecidableEq κ] in
theorem filter_update_eq {p : ρ → Bool} {f : ρ → ρ} (hf : ∀ r, key (f r) = key r)
    (hSame : ∀ r ∈ t.rows, p r = false → q' r = q r)
    (hOut : ∀ r ∈ t.rows, p r = true → q r = false ∧ q' (f r) = false) :
    (t.update p f hf).rows.filter q' = t.rows.filter q := by
  show (t.rows.map fun r => if p r then f r else r).filter q' = _
  generalize t.rows = rows at hSame hOut
  induction rows with
  | nil => rfl
  | cons r rows ih =>
    rw [List.forall_mem_cons] at hSame hOut
    rw [List.map_cons, List.filter_cons, List.filter_cons, ih hSame.2 hOut.2]
    by_cases hp : p r = true
    · obtain ⟨hq, hq'⟩ := hOut.1 hp
      simp [hp, hq, hq']
    · rw [Bool.not_eq_true] at hp
      simp [hp, hSame.1 hp]

omit [DecidableEq κ] in
theorem filter_delete_eq {p : ρ → Bool} (hSame : ∀ r ∈ t.rows, p r = false → q' r = q r)
    (hOut : ∀ r ∈ t.rows, p r = true → q r = false) :
    (t.delete p).rows.filter q' = t.rows.filter q := by
  show (t.rows.filter fun r => !p r).filter q' = _
  rw [List.filter_filter]
  refine List.filter_congr fun r hr => ?_
  cases hp : p r with
  | true => simp [hOut r hr hp]
  | false => simp [hSame r hr hp]

end Filter

end Table

end Lib
