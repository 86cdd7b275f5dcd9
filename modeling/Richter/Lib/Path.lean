import Mathlib.Data.List.Infix

/-! Slash-separated paths and their elements. -/

namespace Lib.Path

def elements (p : List Char) : List (List Char) := p.splitOn '/'

def join (es : List (List Char)) : List Char := ['/'].intercalate es

/-- A path with its last element first, and one more element: an empty one and `.` stay where they
are, and `..` goes back. -/
def push (rooted : Bool) (path : List (List Char)) (e : List Char) : List (List Char) :=
  if e = [] ∨ e = ['.'] then path
  else if e = ['.', '.'] then
    match path with
    | [] => if rooted then [] else [e]
    | last :: rest => if last = ['.', '.'] then e :: last :: rest else rest
  else e :: path

/-- The shortest path that leads to the same place, whatever its elements are. -/
def clean (p : List Char) : List Char :=
  let rooted := p.head? = some '/'
  let es := ((elements p).foldl (push rooted) []).reverse
  if rooted then '/' :: join es else if es = [] then ['.'] else join es

/-- The element leads to a place of its own. -/
def Named (e : List Char) : Prop := e ≠ [] ∧ e ≠ ['.']

instance (e : List Char) : Decidable (Named e) := inferInstanceAs (Decidable (_ ∧ _))

section Elements

variable {p : List Char} {es : List (List Char)}

theorem join_elements (p : List Char) : join (elements p) = p := List.intercalate_splitOn '/'

theorem elements_join (h : ∀ e ∈ es, '/' ∉ e) (hNe : es ≠ []) : elements (join es) = es :=
  List.splitOn_intercalate '/' h hNe

theorem elements_ne_nil (p : List Char) : elements p ≠ [] := List.splitOnP_ne_nil _ p

theorem join_cons (e : List Char) (hNe : es ≠ []) : join (e :: es) = e ++ '/' :: join es := by
  rw [join, List.intercalate_cons_of_ne_nil hNe]
  simp [join]

theorem elements_slash (p : List Char) : elements ('/' :: p) = [] :: elements p := by
  rw [elements, List.splitOn_cons_eq_if_modifyHead]
  rfl

theorem elements_append {a : List Char} (h : '/' ∉ a) (p : List Char) :
    elements (a ++ '/' :: p) = a :: elements p :=
  List.splitOn_append_cons_self_of_not_mem h p

/-- The first element of a path is told from the rest by the slash. -/
theorem append_slash_inj {a b q : List Char} (ha : '/' ∉ a) (hb : '/' ∉ b)
    (h : a ++ '/' :: p = b ++ '/' :: q) : a = b ∧ p = q := by
  have hElements := congrArg elements h
  rw [elements_append ha, elements_append hb] at hElements
  obtain ⟨rfl, -⟩ := List.cons.inj hElements
  exact ⟨rfl, (List.cons.inj (List.append_cancel_left h)).2⟩

theorem not_mem_of_mem_elements {e : List Char} (h : e ∈ elements p) : '/' ∉ e := by
  induction p generalizing e with
  | nil =>
    rw [List.mem_singleton.mp h]
    exact List.not_mem_nil
  | cons c p ih =>
    rw [elements, List.splitOn_cons_eq_if_modifyHead] at h
    split at h
    · rcases List.mem_cons.mp h with rfl | h
      · exact List.not_mem_nil
      · exact ih h
    · next hSlash =>
      obtain ⟨first, rest, hFirst⟩ := List.exists_cons_of_ne_nil (elements_ne_nil p)
      rw [elements] at ih hFirst
      rw [hFirst] at ih h
      rcases List.mem_cons.mp h with rfl | h
      · refine fun hMem => (List.mem_cons.mp hMem).elim (fun hEq => hSlash ?_) ?_
        · exact beq_iff_eq.mpr hEq.symm
        · exact ih List.mem_cons_self
      · exact ih (List.mem_cons_of_mem _ h)

/-- A pair of characters is on one side of another one. -/
theorem pair_infix_append_cons {x y c : Char} {a b : List Char} (hx : x ≠ c) (hy : y ≠ c) :
    [x, y] <:+: a ++ c :: b ↔ [x, y] <:+: a ∨ [x, y] <:+: b := by
  constructor
  · rintro ⟨s, t, h⟩
    rw [List.append_assoc] at h
    obtain ⟨as, ha, hRest⟩ | ⟨bs, -, hRest⟩ := List.append_eq_append_iff.mp h
    · rcases as with _ | ⟨z, _ | ⟨w, as⟩⟩
      · exact absurd (List.cons.inj hRest).1 hx
      · exact absurd (List.cons.inj (List.cons.inj hRest).2).1 hy
      · have hz := (List.cons.inj hRest).1
        have hw := (List.cons.inj (List.cons.inj hRest).2).1
        exact .inl ⟨s, as, by rw [ha, hz, hw, List.append_assoc]; rfl⟩
    · rcases bs with _ | ⟨z, bs⟩
      · exact absurd (List.cons.inj hRest).1.symm hx
      · exact .inr ⟨bs, t, by rw [List.append_assoc]; exact (List.cons.inj hRest).2.symm⟩
  · rintro (h | h)
    · exact h.trans (List.prefix_append _ _).isInfix
    · exact h.trans ((List.suffix_cons c b).trans (List.suffix_append _ _)).isInfix

/-- Two dots in a path are in one of its elements. -/
theorem dots_infix_join : ['.', '.'] <:+: join es ↔ ∃ e ∈ es, ['.', '.'] <:+: e := by
  induction es with
  | nil => simp [join]
  | cons e es ih =>
    rw [List.exists_mem_cons_iff, ← ih]
    rcases es with _ | ⟨e', es⟩
    · simp [join]
    · rw [join_cons e (List.cons_ne_nil _ _), pair_infix_append_cons (by decide) (by decide)]

theorem dots_infix_iff : ['.', '.'] <:+: p ↔ ∃ e ∈ elements p, ['.', '.'] <:+: e := by
  rw [← dots_infix_join, join_elements]

end Elements

section Clean

variable {p : List Char} {es : List (List Char)}

theorem push_of_named {e : List Char} (h : Named e) (hDots : e ≠ ['.', '.']) (rooted : Bool)
    (path : List (List Char)) : push rooted path e = e :: path := by
  unfold push
  rw [if_neg (not_or.mpr h), if_neg hDots]

theorem push_of_not_named {e : List Char} (h : ¬ Named e) (rooted : Bool)
    (path : List (List Char)) : push rooted path e = path := by
  unfold push
  rw [if_pos ((not_and_or.mp h).imp not_not.mp not_not.mp)]

theorem foldl_push (h : ['.', '.'] ∉ es) (rooted : Bool) (path : List (List Char)) :
    es.foldl (push rooted) path = (es.filter fun e => Named e).reverse ++ path := by
  induction es generalizing path with
  | nil => rfl
  | cons e es ih =>
    have hDots : e ≠ ['.', '.'] := fun hEq => h (hEq ▸ List.mem_cons_self)
    have hRest : ['.', '.'] ∉ es := fun hMem => h (List.mem_cons_of_mem e hMem)
    rw [List.foldl_cons, ih hRest]
    by_cases hNamed : Named e
    · rw [push_of_named hNamed hDots, List.filter_cons_of_pos (by simpa)]
      simp
    · rw [push_of_not_named hNamed, List.filter_cons_of_neg (by simpa)]

/-- A path that does not go back is clean when each of its elements leads somewhere. -/
theorem clean_eq_self_iff (hRel : p.head? ≠ some '/') (h : ['.', '.'] ∉ elements p) :
    clean p = p ↔ p = ['.'] ∨ ∀ e ∈ elements p, Named e := by
  have hClean : clean p = if (elements p).filter (fun e => Named e) = [] then ['.']
      else join ((elements p).filter fun e => Named e) := by
    simp only [clean, foldl_push h, if_neg hRel, List.append_nil, List.reverse_reverse]
  rw [hClean]
  constructor
  · intro hEq
    split at hEq
    · exact .inl hEq.symm
    · next hSome =>
      have hSame := congrArg elements hEq
      rw [elements_join (fun e he => not_mem_of_mem_elements (List.mem_of_mem_filter he)) hSome]
        at hSame
      right
      simpa using List.filter_eq_self.mp hSame
  · rintro (rfl | hAll)
    · rfl
    · have hSame : (elements p).filter (fun e => Named e) = elements p :=
        List.filter_eq_self.mpr (by simpa using hAll)
      rw [hSame, if_neg (elements_ne_nil p), join_elements]

end Clean

end Lib.Path
