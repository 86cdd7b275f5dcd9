import Richter.Lessons.Generation

/-! The text of an answer of Gemini (`responseText` of `internal/svc/ai/genengine/engine.go`, and
`geminiResponseText` of `internal/svc/ai/ai.go`): some models put the JSON that they are asked for
into a code fence. -/

namespace Richter.Generation

open Lib
open Lessons (isSpace trimSpace toList_trimSpace)

/-- A `genai.Part`. -/
inductive Part
  | text (s : String)
  | other

def Part.text? : Part → Option String
  | .text s => some s
  | .other => none

/-- A `genai.Candidate`, with `FinishReason` as a number. -/
structure Candidate where
  finishReason : Int
  content : Option (List Part)

/-- `genai.FinishReasonStop`. -/
def finishReasonStop : Int := 1

def hasPrefix (s pre : String) : Bool := pre.toList.isPrefixOf s.toList

/-- `strings.CutPrefix`, where it finds the prefix. -/
def cutPrefix (s pre : String) : Option String :=
  if hasPrefix s pre then some (String.ofList (s.toList.drop pre.length)) else none

/-- Where the last occurrence of `sub` begins. -/
def lastIndexOf (sub : List Char) : List Char → Option ℕ
  | [] => none
  | c :: s =>
    match lastIndexOf sub s with
    | some i => some (i + 1)
    | none => if sub.isPrefixOf (c :: s) then some 0 else none

/-- `strings.LastIndex`, in characters. -/
def lastIndex (s sub : String) : Option ℕ := lastIndexOf sub.toList s.toList

/-- `s[:idx]`. -/
def upTo (s : String) (idx : ℕ) : String := String.ofList (s.toList.take idx)

section Copies

-- `%v` of a finish reason
variable (showReason : Int → String)

/-- `responseText`. -/
def responseText (candidates : List Candidate) : Except String String :=
  match candidates with
  | [] => .error "empty gemini response: no candidates"
  | cand :: _ =>
    if cand.finishReason ≠ 0 ∧ cand.finishReason ≠ finishReasonStop then
      .error ("gemini stopped unexpectedly (finish_reason=" ++ showReason cand.finishReason ++
        ") — try a shorter input or increase max_output_tokens")
    else
      match cand.content with
      | none | some [] => .error "empty gemini response: no content parts"
      | some parts =>
        let raw := trimSpace (String.join (parts.filterMap Part.text?))
        if raw = "" then .error "empty gemini response: no text content"
        else if hasPrefix raw "```" then
          let raw :=
            match cutPrefix raw "```json" with
            | some after => after
            | none => (cutPrefix raw "```").getD raw
          let raw :=
            match lastIndex raw "\n```" with
            | some idx => upTo raw idx
            | none =>
              match lastIndex raw "```" with
              | some idx => upTo raw idx
              | none => raw
          .ok (trimSpace raw)
        else .ok raw

/-- `geminiResponseText`. -/
def geminiResponseText (candidates : List Candidate) : Except String String :=
  match candidates with
  | [] => .error "empty gemini response: no candidates"
  | cand :: _ =>
    -- `MAX_TOKENS` means that the JSON was cut off.
    if cand.finishReason ≠ 0 ∧ cand.finishReason ≠ finishReasonStop then
      .error ("gemini stopped unexpectedly (finish_reason=" ++ showReason cand.finishReason ++
        ") — try a shorter input or increase max_output_tokens")
    else
      match cand.content with
      | none | some [] => .error "empty gemini response: no content parts"
      | some parts =>
        let raw := trimSpace (String.join (parts.filterMap Part.text?))
        if raw = "" then .error "empty gemini response: no text content"
        else if hasPrefix raw "```" then
          let raw :=
            match cutPrefix raw "```json" with
            | some after => after
            | none => (cutPrefix raw "```").getD raw
          -- A fence on a line of its own comes first: the JSON may have back-quotes in it.
          let raw :=
            match lastIndex raw "\n```" with
            | some idx => upTo raw idx
            | none =>
              match lastIndex raw "```" with
              | some idx => upTo raw idx
              | none => raw
          .ok (trimSpace raw)
        else .ok raw

end Copies

/-- A text that is an object or an array of JSON begins and ends with its brackets. -/
structure Bracketed (s : String) : Prop where
  head : ∃ c ∈ ['{', '['], s.toList.head? = some c
  last : ∃ c ∈ ['}', ']'], s.toList.getLast? = some c

def White (w : String) : Prop := ∀ c ∈ w.toList, isSpace c = true

/-- The text as a model writes it: alone, or between two fences.  White space may follow the opening
one, as its line break does, and the closing one stands on a line of its own. -/
inductive Written (s : String) : String → Prop
  | bare : Written s s
  | fenced {fence w w' : String} : fence ∈ ["```json", "```"] → White w → White w' →
      Written s (fence ++ w ++ s ++ w' ++ "\n```")

variable {s text w w' : String} {showReason : Int → String}

theorem Bracketed.trimmed (h : Bracketed s) : Trimmed isSpace s.toList where
  head a ha := by
    obtain ⟨c, hc, hHead⟩ := h.head
    rw [hHead, Option.mem_some_iff] at ha
    subst ha
    rcases List.mem_pair.mp hc with rfl | rfl <;> decide
  last a ha := by
    obtain ⟨c, hc, hLast⟩ := h.last
    rw [hLast, Option.mem_some_iff] at ha
    subst ha
    rcases List.mem_pair.mp hc with rfl | rfl <;> decide

theorem Bracketed.head?_ne (h : Bracketed s) {a : Char} (ha : a ∉ ['{', '[']) :
    s.toList.head? ≠ some a := by
  obtain ⟨c, hc, hHead⟩ := h.head
  rw [hHead]
  intro hEq
  exact ha (Option.some.inj hEq ▸ hc)

theorem Bracketed.ne_nil (h : Bracketed s) : s.toList ≠ [] := by
  obtain ⟨c, -, hHead⟩ := h.head
  intro hNil
  rw [hNil] at hHead
  cases hHead

theorem trimSpace_around (hw : White w) (hw' : White w') (h : Trimmed isSpace s.toList)
    (hSome : s.toList ≠ []) : trimSpace (w ++ s ++ w') = s := by
  rw [← String.toList_inj, toList_trimSpace, String.toList_append, String.toList_append]
  exact h.trim_append hSome hw hw'

theorem lastIndexOf_of_short {sub l : List Char} (h : l.length < sub.length) :
    lastIndexOf sub l = none := by
  induction l with
  | nil => rfl
  | cons c l ih =>
    have hNot : sub.isPrefixOf (c :: l) = false := by
      rw [Bool.eq_false_iff, Ne, List.isPrefixOf_iff_prefix]
      exact fun hPrefix => absurd hPrefix.length_le (by omega)
    rw [List.length_cons] at h
    rw [lastIndexOf, ih (by omega), hNot]
    rfl

/-- What a text ends in, occurs last at its end. -/
theorem lastIndexOf_append {sub : List Char} (hSub : sub ≠ []) (l : List Char) :
    lastIndexOf sub (l ++ sub) = some l.length := by
  induction l with
  | nil =>
    obtain ⟨c, rest, rfl⟩ := List.exists_cons_of_ne_nil hSub
    rw [List.nil_append, lastIndexOf, lastIndexOf_of_short (by simp),
      List.isPrefixOf_iff_prefix.mpr (List.prefix_refl _)]
    rfl
  | cons c l ih => rw [List.cons_append, lastIndexOf, ih, List.length_cons]

theorem upTo_lastIndex (s sub : String) (hSub : sub.toList ≠ []) :
    (lastIndex (s ++ sub) sub).map (upTo (s ++ sub)) = some s := by
  rw [lastIndex, String.toList_append, lastIndexOf_append hSub, Option.map_some, upTo,
    String.toList_append, List.take_left', String.ofList_toList]
  rfl

theorem hasPrefix_append (pre s : String) : hasPrefix (pre ++ s) pre = true := by
  rw [hasPrefix, String.toList_append, List.isPrefixOf_iff_prefix]
  exact List.prefix_append _ _

theorem hasPrefix_append_append (a s pre : String) :
    hasPrefix (a ++ s) (a ++ pre) = hasPrefix s pre := by
  rw [Bool.eq_iff_iff, hasPrefix, hasPrefix, List.isPrefixOf_iff_prefix,
    List.isPrefixOf_iff_prefix, String.toList_append, String.toList_append,
    List.prefix_append_right_inj]

theorem cutPrefix_append (pre s : String) : cutPrefix (pre ++ s) pre = some s := by
  rw [cutPrefix, if_pos (hasPrefix_append pre s), String.toList_append, ← String.length_toList,
    List.drop_left, String.ofList_toList]

/-- What both copies make of the text of an answer. -/
def unfenced (raw : String) : String :=
  if hasPrefix raw "```" then
    let raw := (cutPrefix raw "```json").getD ((cutPrefix raw "```").getD raw)
    trimSpace (((lastIndex raw "\n```").or (lastIndex raw "```")).elim raw (upTo raw))
  else raw

theorem responseText_eq {cand : Candidate} {parts : List Part} (rest : List Candidate)
    (hFinish : cand.finishReason = 0 ∨ cand.finishReason = finishReasonStop)
    (hContent : cand.content = some parts) {raw : String}
    (hRaw : trimSpace (String.join (parts.filterMap Part.text?)) = raw) (hSome : raw ≠ "") :
    responseText showReason (cand :: rest) = .ok (unfenced raw) := by
  have hReason : ¬ (cand.finishReason ≠ 0 ∧ cand.finishReason ≠ finishReasonStop) := by tauto
  cases parts with
  | nil => simp [← hRaw] at hSome
  | cons part parts =>
    simp only [responseText, if_neg hReason, hContent, hRaw, if_neg hSome, unfenced]
    split
    · have hCut : (match cutPrefix raw "```json" with
          | some after => after
          | none => (cutPrefix raw "```").getD raw) =
          (cutPrefix raw "```json").getD ((cutPrefix raw "```").getD raw) := by
        cases cutPrefix raw "```json" <;> rfl
      rw [hCut]
      cases lastIndex ((cutPrefix raw "```json").getD ((cutPrefix raw "```").getD raw)) "\n```" with
      | some idx => rfl
      | none =>
        cases lastIndex ((cutPrefix raw "```json").getD ((cutPrefix raw "```").getD raw)) "```" <;>
          rfl
    · rfl

/-- A text that begins with another character than a fence does. -/
theorem hasPrefix_eq_false {pre : String} {a : Char} {rest : List Char}
    (hPre : pre.toList = a :: rest) (h : s.toList.head? ≠ some a) : hasPrefix s pre = false := by
  rw [Bool.eq_false_iff, Ne, hasPrefix, List.isPrefixOf_iff_prefix, hPre]
  rintro ⟨l, hl⟩
  exact h (by rw [← hl]; rfl)

/-- A JSON text that stands alone has no fence. -/
theorem unfenced_bare (h : Bracketed s) : unfenced s = s := by
  rw [unfenced, hasPrefix_eq_false rfl (h.head?_ne (by decide))]
  rfl

/-- After a plain fence comes a line break or a bracket. -/
theorem head?_white_append (hw : White w) (h : Bracketed s) (post : String) :
    ((w ++ s) ++ post).toList.head? ≠ some 'j' := by
  rw [String.toList_append, String.toList_append]
  cases hSpace : w.toList with
  | nil =>
    rw [List.nil_append, List.head?_append_of_ne_nil _ h.ne_nil]
    exact h.head?_ne (by decide)
  | cons a l =>
    intro hj
    obtain rfl : a = 'j' := by simpa using hj
    exact absurd (hw 'j' (by simp [hSpace])) (by decide)

/-- The text within the fences is what is left. -/
theorem unfenced_fenced {fence : String} (hFence : fence ∈ ["```json", "```"]) (hw : White w)
    (hw' : White w') (h : Bracketed s) :
    unfenced (fence ++ w ++ s ++ w' ++ "\n```") = s := by
  set tail := w ++ s ++ w' ++ "\n```" with hTail
  have hParts : fence ++ w ++ s ++ w' ++ "\n```" = fence ++ tail := by
    simp [hTail, String.append_assoc]
  have hCut : (cutPrefix (fence ++ tail) "```json").getD
      ((cutPrefix (fence ++ tail) "```").getD (fence ++ tail)) = tail := by
    rcases List.mem_pair.mp hFence with rfl | rfl
    · rw [cutPrefix_append, Option.getD_some]
    · have hPlain : cutPrefix ("```" ++ tail) "```json" = none := by
        have hNot : hasPrefix tail "json" = false :=
          hasPrefix_eq_false rfl (by
            rw [hTail, String.append_assoc]
            exact head?_white_append hw h _)
        rw [cutPrefix, if_neg]
        rw [show "```json" = "```" ++ "json" from rfl, hasPrefix_append_append, hNot]
        exact Bool.false_ne_true
      rw [hPlain, cutPrefix_append, Option.getD_none, Option.getD_some]
  have hPrefix : hasPrefix (fence ++ tail) "```" = true := by
    rcases List.mem_pair.mp hFence with rfl | rfl
    · have hJson : "```json" ++ tail = "```" ++ ("json" ++ tail) := by
        rw [← String.append_assoc]
        rfl
      rw [hJson, hasPrefix_append]
    · exact hasPrefix_append _ _
  have hIndex := upTo_lastIndex (w ++ s ++ w') "\n```" (by decide)
  rw [← hTail] at hIndex
  obtain ⟨idx, hLast, hUpTo⟩ := Option.map_eq_some_iff.mp hIndex
  rw [hParts, unfenced, if_pos hPrefix, hCut]
  dsimp only
  rw [hLast, Option.some_or, Option.elim_some, hUpTo, trimSpace_around hw hw' h.trimmed h.ne_nil]

theorem Written.trimmed (hWritten : Written s text) (h : Bracketed s) :
    text.toList ≠ [] ∧ Trimmed isSpace text.toList := by
  cases hWritten with
  | bare => exact ⟨h.ne_nil, h.trimmed⟩
  | @fenced fence w w' hFence hw hw' =>
    have hTicks : Trimmed isSpace "```".toList := ⟨by simp; decide, by simp; decide⟩
    have hFront : Trimmed isSpace fence.toList ∧ fence.toList ≠ [] := by
      rcases List.mem_pair.mp hFence with rfl | rfl
      · exact ⟨⟨by simp; decide, by simp; decide⟩, by simp⟩
      · exact ⟨hTicks, by simp⟩
    have hParts : (fence ++ w ++ s ++ w' ++ "\n```").toList =
        fence.toList ++ (w ++ s ++ w' ++ "\n").toList ++ "```".toList := by
      simp [String.toList_append]
    rw [hParts]
    exact ⟨by simp, hFront.1.append hTicks hFront.2 (by simp)⟩

/-- Both copies return the JSON text of a finished candidate as it is, whether it stands alone or in
a code fence, and over however many parts it is split. -/
theorem responseText_written (showReason : Int → String) :
    (∀ candidates, responseText showReason candidates =
      geminiResponseText showReason candidates) ∧
    ∀ (cand : Candidate) (rest : List Candidate) (parts : List Part) (s text w w' : String),
      cand.finishReason = 0 ∨ cand.finishReason = finishReasonStop →
      cand.content = some parts → Bracketed s → Written s text → White w → White w' →
      String.join (parts.filterMap Part.text?) = w ++ text ++ w' →
        responseText showReason (cand :: rest) = .ok s := by
  refine ⟨fun _ => rfl, ?_⟩
  intro cand rest parts s text w w' hFinish hContent h hWritten hw hw' hJoin
  obtain ⟨hSome, hTrimmed⟩ := hWritten.trimmed h
  have hRaw : trimSpace (String.join (parts.filterMap Part.text?)) = text := by
    rw [hJoin, trimSpace_around hw hw' hTrimmed hSome]
  have hText : text ≠ "" := fun hEmpty => hSome (by simp [hEmpty])
  rw [responseText_eq rest hFinish hContent hRaw hText]
  cases hWritten with
  | bare => rw [unfenced_bare h]
  | fenced hFence hIn hIn' => rw [unfenced_fenced hFence hIn hIn' h]

/-- A fenced array in two parts, with back-quotes in its string. -/
theorem responseText_sample : responseText toString
    [⟨1, some [.text " ```json\n[\"a", .other, .text " ``` b\"]\n```\n"]⟩] =
      .ok "[\"a ``` b\"]" := by
  have hArray : Bracketed "[\"a ``` b\"]" :=
    ⟨⟨'[', by simp, by simp⟩, ⟨']', by simp, by simp⟩⟩
  have hWritten : Written "[\"a ``` b\"]" ("```json" ++ "\n" ++ "[\"a ``` b\"]" ++ "" ++ "\n```") :=
    .fenced (by simp) (by simp [White, isSpace]) (by simp [White])
  exact (responseText_written toString).2 _ [] _ _ _ " " "\n" (.inr rfl) rfl hArray hWritten
    (by simp [White, isSpace]) (by simp [White, isSpace]) rfl

end Richter.Generation
