import Mathlib.Data.List.Sublists
import Mathlib.Tactic.Linarith
import Mathlib.Tactic.Positivity
import Richter.Lessons.Transcript
import Richter.Lib.Words

/-! What `IsDegenerateTranscript` tells: the three regimes by the number of tokens, and what of a text
plays no part. -/

namespace Richter.Lessons

open Lib (words)

/-- The tokens of a text, lower-cased. -/
def lowTokens (toLower : Char → Char) (text : String) : List (List Char) :=
  (fields text).map fun f => f.map toLower

/-- The number of distinct tokens. -/
def distinct (low : List (List Char)) : Nat := low.dedup.length

/-- How often the most frequent token occurs. -/
def maxCount (low : List (List Char)) : Nat := (low.map low.count).foldr max 0

/-- The share of the most frequent token. -/
def maxShare (low : List (List Char)) : ℚ := maxCount low / low.length

def distinctRatio (low : List (List Char)) : ℚ := distinct low / low.length

/-- The 120 tokens from every 60th token on, as long as there are that many. -/
def tokenWindows (low : List (List Char)) : List (List (List Char)) :=
  ((List.range low.length).filter fun i => 60 * i + 120 ≤ low.length).map fun i =>
    (low.drop (60 * i)).take 120

section Windows

theorem windows_eq (low : List (List Char)) (fuel : Nat) :
    windows low fuel = ((List.range fuel).filter fun i => 60 * i + 120 ≤ low.length).map fun i =>
      (low.drop (60 * i)).take 120 := by
  induction fuel generalizing low with
  | zero => rfl
  | succ fuel ih =>
    rw [windows, List.range_succ_eq_map, List.filter_cons, List.filter_map]
    split
    · next hFits =>
      have hFits : 120 ≤ low.length := hFits
      have hSame : (fun i => decide (60 * i + 120 ≤ (low.drop degenerateWindowStride).length)) =
          (fun i => decide (60 * i + 120 ≤ low.length)) ∘ Nat.succ := by
        funext i
        simp only [Function.comp, decide_eq_decide, List.length_drop, degenerateWindowStride]
        omega
      rw [if_pos (by simpa using hFits), ih, hSame, List.map_cons, List.map_map]
      congr 1
      refine List.map_congr_left fun i _ => ?_
      simp only [Function.comp, List.drop_drop, degenerateWindowStride]
      rw [show 60 + 60 * i = 60 * i.succ by omega]
    · next hShort =>
      have hShort : ¬ 120 ≤ low.length := hShort
      rw [if_neg (by simpa using hShort)]
      refine (List.map_eq_nil_iff.mpr (List.map_eq_nil_iff.mpr ?_)).symm
      refine List.filter_eq_nil_iff.mpr fun i _ => ?_
      simp only [Function.comp, decide_eq_true_eq]
      omega

theorem windows_eq_tokenWindows (low : List (List Char)) :
    windows low low.length = tokenWindows low := windows_eq low low.length

/-- A part of a list has no more distinct members. -/
theorem distinct_le_of_subset {l m : List (List Char)} (h : l ⊆ m) : distinct l ≤ distinct m :=
  ((List.nodup_dedup l).subperm fun _ hx => List.mem_dedup.mpr (h (List.mem_dedup.mp hx))).length_le

theorem tokenWindows_subset {low w : List (List Char)} (h : w ∈ tokenWindows low) : w ⊆ low := by
  obtain ⟨i, -, rfl⟩ := List.mem_map.mp h
  exact fun _ hx => List.mem_of_mem_drop (List.mem_of_mem_take hx)

end Windows

section Regimes

variable {low : List (List Char)}

theorem le_foldr_max {l : List Nat} {m : Nat} : (l.foldr max 0 ≤ m) ↔ ∀ x ∈ l, x ≤ m := by
  induction l with
  | nil => simp
  | cons x l ih => simp [ih]

/-- A token makes up more than half of the text. -/
theorem any_swamps_iff :
    (low.any fun k => low.length < 2 * low.count k) = true ↔ low.length < 2 * maxCount low := by
  have hNot : ¬ low.length < 2 * maxCount low ↔ ∀ k ∈ low, 2 * low.count k ≤ low.length := by
    rw [Nat.not_lt, show (2 * maxCount low ≤ low.length) ↔ maxCount low ≤ low.length / 2 by omega,
      maxCount, le_foldr_max, List.forall_mem_map]
    exact forall₂_congr fun k _ => by omega
  rw [← not_iff_not, hNot, List.any_eq_true]
  simp

theorem half_lt_maxShare_iff (h : low ≠ []) :
    1 / 2 < maxShare low ↔ low.length < 2 * maxCount low := by
  have hPos : (0 : ℚ) < low.length := by exact_mod_cast List.length_pos_iff.mpr h
  rw [maxShare, div_lt_div_iff₀ (by norm_num) hPos, one_mul, mul_comm]
  exact_mod_cast Iff.rfl

theorem distinctRatio_lt_iff (h : low ≠ []) :
    distinctRatio low < 15 / 100 ↔ belowWindowRatio (distinct low) low.length = true := by
  have hPos : (0 : ℚ) < low.length := by exact_mod_cast List.length_pos_iff.mpr h
  rw [distinctRatio, div_lt_div_iff₀ hPos (by norm_num), belowWindowRatio, decide_eq_true_eq,
    mul_comm]
  exact_mod_cast Iff.rfl

variable (toLower : Char → Char) {text : String}

theorem length_lowTokens (text : String) : (lowTokens toLower text).length = (fields text).length :=
  List.length_map _

theorem isDegenerateTranscript_eq {low : List (List Char)} (h : lowTokens toLower text = low) :
    isDegenerateTranscript toLower text =
      if low.length < 30 then false
      else if low.any fun k => low.length < 2 * low.count k then true
      else if low.length < 240 then belowWindowRatio (distinct low) low.length
      else decide ((tokenWindows low).length ≤
        2 * (tokenWindows low).countP fun w => distinct w < 18) := by
  have hLoops : (fun w : List (List Char) => belowWindowRatio w.dedup.length degenerateWindow) =
      fun w => decide (distinct w < 18) := by
    funext w
    refine decide_eq_decide.mpr ?_
    simp only [degenerateWindow, distinct]
    omega
  subst h
  rw [List.countP_eq_length_filter, ← hLoops, ← windows_eq_tokenWindows]
  rfl

theorem isDegenerateTranscript_of_lt_30 (h : (fields text).length < 30) :
    isDegenerateTranscript toLower text = false := by
  rw [← length_lowTokens toLower] at h
  rw [isDegenerateTranscript_eq toLower rfl, if_pos h]

theorem isDegenerateTranscript_of_lt_240 (h : 30 ≤ (fields text).length)
    (h' : (fields text).length < 240) :
    isDegenerateTranscript toLower text = decide (1 / 2 < maxShare (lowTokens toLower text) ∨
      distinctRatio (lowTokens toLower text) < 15 / 100) := by
  rw [← length_lowTokens toLower] at h h'
  have hSome : lowTokens toLower text ≠ [] := List.ne_nil_of_length_pos (by omega)
  have hShare := half_lt_maxShare_iff hSome
  have hRatio := distinctRatio_lt_iff hSome
  rw [isDegenerateTranscript_eq toLower rfl, if_neg (by omega), if_pos h']
  by_cases hSwamp : (lowTokens toLower text).length < 2 * maxCount (lowTokens toLower text)
  · rw [if_pos (any_swamps_iff.mpr hSwamp)]
    exact (decide_eq_true (.inl (hShare.mpr hSwamp))).symm
  · rw [if_neg (fun h => hSwamp (any_swamps_iff.mp h)), Bool.eq_iff_iff, decide_eq_true_eq, ← hRatio,
      hShare]
    simp [hSwamp]

/-- A text of two windows or more: one token makes up more than half of it, or at least half of its
windows have at most 17 distinct tokens. -/
theorem isDegenerateTranscript_of_240_le (h : 240 ≤ (fields text).length) :
    isDegenerateTranscript toLower text =
      decide ((lowTokens toLower text).length < 2 * maxCount (lowTokens toLower text) ∨
        (tokenWindows (lowTokens toLower text)).length ≤
          2 * (tokenWindows (lowTokens toLower text)).countP fun w => distinct w < 18) := by
  rw [← length_lowTokens toLower] at h
  rw [isDegenerateTranscript_eq toLower rfl, if_neg (by omega)]
  by_cases hSwamp : (lowTokens toLower text).length < 2 * maxCount (lowTokens toLower text)
  · rw [if_pos (any_swamps_iff.mpr hSwamp)]
    exact (decide_eq_true (.inl hSwamp)).symm
  · rw [if_neg (fun h => hSwamp (any_swamps_iff.mp h)), if_neg (by omega)]
    simp [hSwamp]

end Regimes

section Texts

variable (toLower : Char → Char)

/-- Texts with the same lower-cased tokens are told alike. -/
theorem isDegenerateTranscript_congr {text text' : String}
    (h : lowTokens toLower text = lowTokens toLower text') :
    isDegenerateTranscript toLower text = isDegenerateTranscript toLower text' := by
  simp only [lowTokens] at h
  simp only [isDegenerateTranscript, h]

/-- The tokens of the lower-cased text are the lower-cased tokens. -/
theorem lowTokens_eq_words {toLower : Char → Char} (hSpace : ∀ c, isSpace (toLower c) = isSpace c)
    (text : String) : lowTokens toLower text = words isSpace (text.toList.map toLower) :=
  (Lib.words_map hSpace text.toList).symm

end Texts

/-- The test for a repetition loop.  A text of 240 tokens or more that uses at most 17 is one, and a
text none of whose tokens makes up more than half of it, with 18 distinct tokens in more than half
of its windows, is not; between 30 and 239 tokens the share of the most frequent token and the ratio
of the distinct ones decide; below 30 no text is one.  Letter case (characters with one lower case)
and the width of the gaps between tokens play no part. -/
theorem isDegenerateTranscript_regimes (toLower : Char → Char)
    (hSpace : ∀ c, isSpace (toLower c) = isSpace c) :
    (∀ text, 240 ≤ (fields text).length →
      (distinct (lowTokens toLower text) ≤ 17 → isDegenerateTranscript toLower text = true) ∧
      (2 * maxCount (lowTokens toLower text) ≤ (lowTokens toLower text).length →
        (tokenWindows (lowTokens toLower text)).length <
          2 * (tokenWindows (lowTokens toLower text)).countP (fun w => 18 ≤ distinct w) →
        isDegenerateTranscript toLower text = false)) ∧
    (∀ text, 30 ≤ (fields text).length → (fields text).length < 240 →
      isDegenerateTranscript toLower text = decide (1 / 2 < maxShare (lowTokens toLower text) ∨
        distinctRatio (lowTokens toLower text) < 15 / 100)) ∧
    (∀ text, (fields text).length < 30 → isDegenerateTranscript toLower text = false) ∧
    (∀ text text' : String, text.toList.map toLower = text'.toList.map toLower →
      isDegenerateTranscript toLower text = isDegenerateTranscript toLower text') ∧
    (∀ pre gap gap' post : List Char, gap ≠ [] → gap' ≠ [] → (∀ c ∈ gap, isSpace c = true) →
      (∀ c ∈ gap', isSpace c = true) →
      isDegenerateTranscript toLower (String.ofList (pre ++ gap ++ post)) =
        isDegenerateTranscript toLower (String.ofList (pre ++ gap' ++ post))) := by
  refine ⟨fun text hLong => ⟨fun hFew => ?_, fun hCalm hVaried => ?_⟩,
    fun text => isDegenerateTranscript_of_lt_240 toLower,
    fun text => isDegenerateTranscript_of_lt_30 toLower, fun text text' hCase => ?_,
    fun pre gap gap' post hGap hGap' hSpaces hSpaces' => ?_⟩
  · have hAll : (tokenWindows (lowTokens toLower text)).countP (fun w => distinct w < 18) =
        (tokenWindows (lowTokens toLower text)).length :=
      List.countP_eq_length.mpr fun w hw => by
        have := distinct_le_of_subset (tokenWindows_subset hw)
        simp only [decide_eq_true_eq]
        omega
    rw [isDegenerateTranscript_of_240_le toLower hLong, hAll]
    exact decide_eq_true (.inr (by omega))
  · have hSplit := (tokenWindows (lowTokens toLower text)).length_eq_countP_add_countP
      fun w => decide (18 ≤ distinct w)
    have hLoops : (fun w : List (List Char) => decide ¬ decide (18 ≤ distinct w) = true) =
        fun w => decide (distinct w < 18) := by
      funext w
      simp
    rw [hLoops] at hSplit
    rw [isDegenerateTranscript_of_240_le toLower hLong, decide_eq_false_iff_not]
    omega
  · refine isDegenerateTranscript_congr toLower ?_
    rw [lowTokens_eq_words hSpace, lowTokens_eq_words hSpace, hCase]
  · refine isDegenerateTranscript_congr toLower (congrArg (List.map (List.map toLower)) ?_)
    have hSwap := Lib.words_swap_separators pre post hGap hGap' hSpaces hSpaces'
    rwa [← String.toList_ofList (l := pre ++ gap ++ post),
      ← String.toList_ofList (l := pre ++ gap' ++ post)] at hSwap

theorem isSpace_eq_false {c : Char} (hLow : 0x21 ≤ c.toNat) (hHigh : c.toNat ≤ 0x84) :
    isSpace c = false := by
  simp only [isSpace, Bool.or_eq_false_iff, decide_eq_false_iff_not, List.mem_cons, List.not_mem_nil,
    or_false, Bool.and_eq_false_iff]
  omega

/-- On the letters that it changes, `Char.toLower` keeps away from the spaces. -/
theorem isSpace_toLower (c : Char) : isSpace c.toLower = isSpace c := by
  unfold Char.toLower
  split
  · next h =>
    have hLow : 65 ≤ c.toNat := h.1
    have hHigh : c.toNat ≤ 90 := h.2
    have hNat : (c.val + 32).toNat = c.toNat + 32 := by
      have : c.val.toNat ≤ 90 := hHigh
      rw [UInt32.toNat_add]
      exact Nat.mod_eq_of_lt (by simp; omega)
    have hLetter : isSpace c = false := isSpace_eq_false (by omega) (by omega)
    rw [hLetter]
    refine isSpace_eq_false ?_ ?_
    · show 0x21 ≤ (c.val + 32).toNat
      omega
    · show (c.val + 32).toNat ≤ 0x84
      omega
  · rfl

/-- The same short word over and over. -/
def echo (n : ℕ) (word : Char) : String :=
  String.ofList (List.replicate n [word, ' ']).flatten

theorem isDegenerateTranscript_regimes_echo :
    isDegenerateTranscript Char.toLower (echo 30 'A') = true ∧
      isDegenerateTranscript Char.toLower (echo 29 'A') = false ∧
      isDegenerateTranscript Char.toLower (echo 30 'a') =
        isDegenerateTranscript Char.toLower (echo 30 'A') := by
  obtain ⟨-, hMiddle, hShort, hCase, -⟩ :=
    isDegenerateTranscript_regimes Char.toLower isSpace_toLower
  have hThirty : (fields (echo 30 'A')).length = 30 := by decide +kernel
  have hShare : 1 / 2 < maxShare (lowTokens Char.toLower (echo 30 'A')) := by decide +kernel
  refine ⟨?_, hShort (echo 29 'A') (by decide +kernel), hCase (echo 30 'a') (echo 30 'A')
    (by decide +kernel)⟩
  rw [hMiddle (echo 30 'A') hThirty.ge (hThirty.trans_lt (by decide))]
  exact decide_eq_true (.inl hShare)

end Richter.Lessons
