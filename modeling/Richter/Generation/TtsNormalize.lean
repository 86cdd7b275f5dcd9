import Richter.Lessons.Transcript
import Richter.Lib.Rewrite

/-! The text that is handed to the voice of a listening exercise (`normalizeForTTS`): notation of
mathematics and of complexity theory is rewritten into words, in five passes. -/

namespace Richter.Generation

open Lessons (isSpace trimSpace toList_trimSpace)
open Lib

/-- `\s` of a regular expression. -/
def regexSpace (c : Char) : Bool := c ∈ [' ', '\t', '\n', '\x0c', '\r']

def isParen (c : Char) : Bool := c = '(' ∨ c = ')'

/-- A match of `bigORe` at the beginning of a text: the letter, the inner expression and the text
behind.  Between the parentheses there is no other one, so the match ends at the first.  The spaces
around the inner expression are not part of it, except that one is when there is nothing else. -/
def matchBigO : List Char → Option (Char × List Char × List Char)
  | x :: '(' :: cs =>
    let content := cs.takeWhile fun c => !isParen c
    let core := trim regexSpace content
    let inner := if core = [] then content.drop (content.length - 1) else core
    match cs.dropWhile fun c => !isParen c with
    | ')' :: rest =>
      if x ∈ ['O', 'Θ', 'Ω'] ∧ 1 ≤ inner.length ∧ inner.length ≤ 48 then some (x, inner, rest)
      else none
    | _ => none
  | _ => none

/-- The words for a match of `bigORe`. -/
def bigOWords (en : Bool) (x : Char) (inner : List Char) : List Char :=
  let inner := (trimSpace (String.ofList inner)).toList
  let name := match x with
    | 'Θ' => "theta"
    | 'Ω' => "omega"
    | _ => if en then "Big O" else "O lớn"
  if en then (" " ++ name ++ " of ").toList ++ inner ++ [' ']
  else (" " ++ name ++ " của ").toList ++ inner ++ [' ']

/-- `bigORe.ReplaceAllStringFunc`; `fuel` bounds the length of the text. -/
def replaceBigO (en : Bool) : Nat → List Char → List Char
  | 0, _ | _, [] => []
  | fuel + 1, c :: cs =>
    match matchBigO (c :: cs) with
    | some (x, inner, rest) => bigOWords en x inner ++ replaceBigO en fuel rest
    | none => c :: replaceBigO en fuel cs

def superscripts : List Char := ['⁰', '¹', '²', '³', '⁴', '⁵', '⁶', '⁷', '⁸', '⁹', 'ⁿ']

def superscriptDigit : Char → String
  | '⁰' => "0"
  | '¹' => "1"
  | '⁴' => "4"
  | '⁵' => "5"
  | '⁶' => "6"
  | '⁷' => "7"
  | '⁸' => "8"
  | '⁹' => "9"
  | _ => ""

def superscriptWord (en : Bool) : Char → String
  | '²' => if en then " squared" else " bình phương"
  | '³' => if en then " cubed" else " lập phương"
  | 'ⁿ' => if en then " to the n" else " mũ n"
  | r =>
    let d := superscriptDigit r
    if d ≠ "" then (if en then " to the power " else " mũ ") ++ d else ""

def superscriptWords (run : List Char) (en : Bool) : List Char :=
  run.flatMap fun r => (superscriptWord en r).toList

/-- The pairs of `symbolReplacer`.  No two have the same symbol. -/
def symbolPairs (en : Bool) : List (Char × String) :=
  let pick (enWord viWord : String) := if en then enWord else viWord
  [('Θ', "theta"), ('θ', "theta"),
    ('Ω', "omega"), ('ω', "omega"),
    ('Σ', " sigma "), ('∑', " sigma "),
    ('Π', "pi"), ('π', "pi"),
    ('Δ', "delta"), ('δ', "delta"),
    ('λ', "lambda"), ('α', "alpha"), ('β', "beta"), ('γ', "gamma"),
    ('μ', "mu"), ('µ', "mu"), ('Φ', "phi"), ('φ', "phi"),
    ('√', pick " square root of " " căn "),
    ('∞', pick " infinity " " vô cùng "),
    ('≤', pick " less than or equal to " " nhỏ hơn hoặc bằng "),
    ('≥', pick " greater than or equal to " " lớn hơn hoặc bằng "),
    ('≠', pick " not equal to " " khác "),
    ('≈', pick " approximately " " xấp xỉ "),
    ('≡', pick " equals " " bằng "),
    ('→', pick " leads to " " dẫn đến "),
    ('⇒', pick " implies " " suy ra "),
    ('∈', pick " in " " thuộc "),
    ('×', pick " times " " nhân "),
    ('·', pick " times " " nhân "),
    ('÷', pick " divided by " " chia "),
    ('±', pick " plus or minus " " cộng trừ "),
    ('=', pick " equals " " bằng "),
    ('^', pick " to the power " " mũ "),
    ('*', pick " times " " nhân "),
    ('%', pick " percent " " phần trăm "),
    ('_', " ")]

/-- `symbolReplacer(en).Replace`: every symbol is one character, so none is the beginning of
another. -/
def replaceSymbols (en : Bool) (text : List Char) : List Char :=
  text.flatMap fun c => match (symbolPairs en).lookup c with
    | some word => word.toList
    | none => [c]

/-- The characters of `leftoverSymbolRe`. -/
def leftoverSymbols : List Char :=
  ['(', ')', '[', ']', '\x7b', '\x7d', '|', '\\', '~', '\x60', '#', '@']

def stripLeftovers (text : List Char) : List Char :=
  text.map fun c => if c ∈ leftoverSymbols then ' ' else c

/-- The characters of `multiSpaceRe`. -/
def isBlank (c : Char) : Bool := c = ' ' ∨ c = '\t'

def normalizeForTTS (text language : String) : String :=
  let en := language = "en"
  let text := replaceBigO en text.length text.toList
  let text := replaceRuns (fun c => c ∈ superscripts) 1 (fun run => superscriptWords run en) text
  let text := replaceSymbols en text
  let text := stripLeftovers text
  let text := replaceRuns isBlank 2 (fun _ => [' ']) text
  trimSpace (String.ofList text)

/-- What must not reach the voice: the symbols that the passes know. -/
def unspeakable : List Char :=
  leftoverSymbols ++ superscripts ++ (symbolPairs false).map Prod.fst

section Passes

variable {en : Bool} {text : List Char} {c : Char}

theorem symbolPairs_keys (en : Bool) :
    (symbolPairs en).map Prod.fst = (symbolPairs false).map Prod.fst := by
  cases en <;> rfl

theorem lookup_eq_none_iff {pairs : List (Char × String)} :
    pairs.lookup c = none ↔ c ∉ pairs.map Prod.fst := by
  rw [List.lookup_eq_none_iff, List.mem_map]
  constructor
  · rintro h ⟨pair, hMem, rfl⟩
    simpa using h pair hMem
  · intro h pair hMem
    rw [bne_iff_ne]
    rintro rfl
    exact h ⟨pair, hMem, rfl⟩

/-- The characters of the words: the letters of both languages, the digits and the blank. -/
def isWordChar (c : Char) : Bool :=
  c = ' ' || c.isAlphanum || 0xe0 ≤ c.toNat && c.toNat ≤ 0x1b0 && c ≠ '÷' ||
    0x1ea0 ≤ c.toNat && c.toNat ≤ 0x1ef9

theorem not_unspeakable_of_isWordChar (h : isWordChar c = true) : c ∉ unspeakable := by
  have hNone : unspeakable.all (fun c => !isWordChar c) = true := by decide +kernel
  intro hMem
  have := List.all_eq_true.mp hNone c hMem
  simp [h] at this

/-- The words for superscripts have none. -/
theorem superscriptWord_clean (en : Bool) {r : Char} (hr : r ∈ superscripts)
    (hc : c ∈ (superscriptWord en r).toList) : c ∉ superscripts := by
  have hWords : superscripts.all (fun r => (superscriptWord en r).toList.all isWordChar) =
      true := by
    cases en <;> decide +kernel
  have hWord := List.all_eq_true.mp (List.all_eq_true.mp hWords r hr) c hc
  exact fun hMem => not_unspeakable_of_isWordChar hWord
    (List.mem_append_left _ (List.mem_append_right _ hMem))

/-- The words for symbols have no symbol and no superscript. -/
theorem symbolPairs_clean (en : Bool) {pair : Char × String} (hPair : pair ∈ symbolPairs en)
    (hc : c ∈ pair.2.toList) : c ∉ superscripts ∧ c ∉ (symbolPairs false).map Prod.fst := by
  have hWords : (symbolPairs en).all (fun pair => pair.2.toList.all isWordChar) = true := by
    cases en <;> decide +kernel
  have hWord := List.all_eq_true.mp (List.all_eq_true.mp hWords pair hPair) c hc
  have hSpeakable := not_unspeakable_of_isWordChar hWord
  exact ⟨fun hMem => hSpeakable (List.mem_append_left _ (List.mem_append_right _ hMem)),
    fun hMem => hSpeakable (List.mem_append_right _ hMem)⟩

theorem superscripts_pass (h : c ∈ replaceRuns (fun c => c ∈ superscripts) 1
    (fun run => superscriptWords run en) text) : c ∉ superscripts := by
  rcases mem_replaceRuns h with ⟨-, hOld | hOne⟩ | ⟨run, hRun, hWord⟩
  · simpa using hOld
  · exact absurd hOne (Nat.lt_irrefl 1)
  · obtain ⟨r, hr, hc⟩ := List.mem_flatMap.mp hWord
    exact superscriptWord_clean en (by simpa using hRun r hr) hc

theorem symbols_pass (hText : ∀ c ∈ text, c ∉ superscripts) (h : c ∈ replaceSymbols en text) :
    c ∉ superscripts ∧ c ∉ (symbolPairs false).map Prod.fst := by
  obtain ⟨a, ha, hc⟩ := List.mem_flatMap.mp h
  cases hWord : (symbolPairs en).lookup a with
  | some word =>
    rw [hWord] at hc
    obtain ⟨front, back, hPairs, -⟩ := List.lookup_eq_some_iff.mp hWord
    exact symbolPairs_clean en (show (a, word) ∈ symbolPairs en by simp [hPairs]) hc
  | none =>
    rw [hWord, List.mem_singleton] at hc
    subst hc
    refine ⟨hText c ha, ?_⟩
    rw [← symbolPairs_keys en]
    exact lookup_eq_none_iff.mp hWord

theorem space_speakable : ' ' ∉ unspeakable := not_unspeakable_of_isWordChar rfl

theorem leftovers_pass
    (hText : ∀ c ∈ text, c ∉ superscripts ∧ c ∉ (symbolPairs false).map Prod.fst)
    (h : c ∈ stripLeftovers text) : c ∉ unspeakable := by
  obtain ⟨a, ha, rfl⟩ := List.mem_map.mp h
  split
  · exact space_speakable
  · next hKept =>
    obtain ⟨hSuper, hSymbol⟩ := hText a ha
    simp [unspeakable, hKept, hSuper] at hSymbol ⊢
    exact hSymbol

theorem blanks_pass (hText : ∀ c ∈ text, c ∉ unspeakable)
    (h : c ∈ replaceRuns isBlank 2 (fun _ => [' ']) text) : c ∉ unspeakable := by
  rcases mem_replaceRuns h with ⟨hOld, -⟩ | ⟨-, -, hNew⟩
  · exact hText c hOld
  · rw [List.mem_singleton.mp hNew]
    exact space_speakable

/-- Without a parenthesis there is no match of `bigORe`. -/
theorem replaceBigO_of_speakable {fuel : Nat} (hFuel : text.length ≤ fuel)
    (hText : ∀ c ∈ text, c ∉ unspeakable) : replaceBigO en fuel text = text := by
  induction fuel generalizing text with
  | zero =>
    obtain rfl := List.length_eq_zero_iff.mp (Nat.le_zero.mp hFuel)
    rfl
  | succ fuel ih =>
    cases text with
    | nil => rfl
    | cons x cs =>
      have hNone : matchBigO (x :: cs) = none := by
        cases cs with
        | nil => rfl
        | cons y cs =>
          have hy : y ≠ '(' := by
            rintro rfl
            refine hText '(' (List.mem_cons_of_mem x List.mem_cons_self) ?_
            exact List.mem_append_left _ (List.mem_append_left superscripts List.mem_cons_self)
          unfold matchBigO
          split
          · next heq =>
            simp only [List.cons.injEq] at heq
            exact absurd heq.2.1 hy
          · rfl
      rw [replaceBigO, hNone]
      simp only
      rw [ih (by simpa using hFuel) fun c hc => hText c (List.mem_cons_of_mem x hc)]

theorem replaceSymbols_of_speakable (hText : ∀ c ∈ text, c ∉ unspeakable) :
    replaceSymbols en text = text := by
  have hKeep : ∀ c ∈ text, (match (symbolPairs en).lookup c with
      | some word => word.toList
      | none => [c]) = [c] := by
    intro c hc
    have hNot : c ∉ (symbolPairs en).map Prod.fst := by
      rw [symbolPairs_keys]
      exact fun hKey => hText c hc (List.mem_append_right _ hKey)
    rw [lookup_eq_none_iff.mpr hNot]
  rw [replaceSymbols, List.flatMap_congr hKeep]
  exact List.flatMap_singleton' text

theorem stripLeftovers_of_speakable (hText : ∀ c ∈ text, c ∉ unspeakable) :
    stripLeftovers text = text := by
  refine (List.map_congr_left fun c hc => if_neg fun hMem => ?_).trans (List.map_id text)
  exact hText c hc (List.mem_append_left _ (List.mem_append_left _ hMem))

end Passes

/-- A text without symbols, without pairs of blanks and without white space at its ends stays as it
is. -/
theorem normalizeForTTS_of_clean {text : String} (language : String)
    (hText : ∀ c ∈ text.toList, c ∉ unspeakable) (hBlanks : NoPair isBlank text.toList)
    (hEnds : Trimmed isSpace text.toList) : normalizeForTTS text language = text := by
  have hSuper : ∀ c ∈ text.toList, decide (c ∈ superscripts) = false := fun c hc =>
    decide_eq_false fun hMem =>
      hText c hc (List.mem_append_left _ (List.mem_append_right _ hMem))
  unfold normalizeForTTS
  simp only
  rw [replaceBigO_of_speakable (Nat.le_of_eq String.length_toList) hText,
    replaceRuns_of_none Nat.one_pos hSuper, replaceSymbols_of_speakable hText,
    stripLeftovers_of_speakable hText, replaceRuns_of_noPair hBlanks, String.ofList_toList]
  refine String.toList_injective ?_
  rw [toList_trimSpace, hEnds.trim_eq]

/-- What `normalizeForTTS` returns has no symbol that it knows, no two blanks in a row and no white
space at its ends; and it leaves such texts as they are, in either language, so that to normalize
again changes nothing. -/
theorem normalizeForTTS_clean (text language : String) :
    (∀ c ∈ (normalizeForTTS text language).toList, c ∉ unspeakable) ∧
    NoPair isBlank (normalizeForTTS text language).toList ∧
    Trimmed isSpace (normalizeForTTS text language).toList ∧
    (∀ language', normalizeForTTS (normalizeForTTS text language) language' =
      normalizeForTTS text language) ∧
    ((∀ c ∈ text.toList, c ∉ unspeakable) → NoPair isBlank text.toList →
      Trimmed isSpace text.toList → normalizeForTTS text language = text) := by
  obtain ⟨squeezed, hOut, hClean, hBlanks⟩ : ∃ squeezed, normalizeForTTS text language =
      trimSpace (String.ofList squeezed) ∧ (∀ c ∈ squeezed, c ∉ unspeakable) ∧
        NoPair isBlank squeezed :=
    ⟨_, rfl, fun _ => blanks_pass fun _ => leftovers_pass fun _ => symbols_pass fun _ =>
      superscripts_pass, replaceRuns_noPair _⟩
  have hList : (normalizeForTTS text language).toList = trim isSpace squeezed := by
    rw [hOut, toList_trimSpace, String.toList_ofList]
  have hSpeakable : ∀ c ∈ (normalizeForTTS text language).toList, c ∉ unspeakable := fun c hc =>
    hClean c ((infix_trim squeezed).subset (hList ▸ hc))
  have hPairs : NoPair isBlank (normalizeForTTS text language).toList :=
    hList ▸ hBlanks.infix (infix_trim squeezed)
  have hEnds : Trimmed isSpace (normalizeForTTS text language).toList :=
    hList ▸ trim_trimmed squeezed
  exact ⟨hSpeakable, hPairs, hEnds,
    fun language' => normalizeForTTS_of_clean language' hSpeakable hPairs hEnds,
    normalizeForTTS_of_clean language⟩

end Richter.Generation
