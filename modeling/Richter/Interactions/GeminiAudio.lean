import Richter.Interactions.Graders

/-! The grading of a recording (`internal/svc/ai/gemini_audio.go`): what is heard becomes a text,
and an AI model grades the text by a prompt. -/

namespace Richter.Interactions

open Lessons (trimSpace fields)

/-- The texts of `isSTTHallucination`, without punctuation. -/
def hallucinations : List String :=
  ["thank you", "thank you thank you", "thank you so much", "thank you very much", "thanks",
    "thanks for watching", "thank you for watching", "you", "go", "bye", "bye bye", "oh", "yeah",
    "yes", "no", "uh", "um", "shh", "hãy đăng ký kênh", "cảm ơn các bạn đã xem", "cảm ơn",
    "cảm ơn bạn", "cám ơn", "谢谢", "谢谢大家", "谢谢大家观看", "谢谢观看"]

def isPunctuation (c : Char) : Bool :=
  c ∈ ['.', ',', '!', '?', '"', '\'', '-', ';', ':', '_', '(', ')']

/-- A Chinese, Japanese or Korean character. -/
def isCjk (c : Char) : Bool :=
  [(0x4e00, 0x9fff), (0x3040, 0x30ff), (0x31f0, 0x31ff), (0x1100, 0x11ff), (0xac00, 0xd7af)].any
    fun (low, high) => low ≤ c.toNat && c.toNat ≤ high

/-- `unicode.ToLower`, which leaves what has no case alone. -/
structure LowerCase where
  toLower : Char → Char
  toLower_digit : ∀ c : Char, c.isDigit → toLower c = c

/-- A speech recogniser that has heard nothing makes up such a text. -/
def isSTTHallucination (lower : LowerCase) (transcript language : String) : Bool :=
  let t := (trimSpace transcript).toList.map lower.toLower
  let words := fields (String.ofList (t.filter fun c => !isPunctuation c))
  let cleaned := String.ofList ([' '].intercalate words)
  hallucinations.contains cleaned || (language = "en" || language = "vi") && t.any isCjk

/-- The texts of the prompt in a language, around what is asked. -/
structure PromptTexts where
  context : String
  question : String
  reference : String
  answer : String
  answerRubric : String
  passage : String
  reading : String
  readingRubric : String

def englishTexts : PromptTexts where
  context := "You are a professional language assessor. Grade this student's spoken response " ++
    "based on the transcription of their audio recording.\n\n" ++
    "Context passage:\n"
  question := "\n\nQuestion asked: "
  reference := "\n\nReference answer (not the only correct phrasing): "
  answer := "\n\nStudent's transcribed answer: "
  answerRubric := "\n\nScoring rubric:\n" ++
    "pronunciation_score [0.0–1.0]: Assess delivery clarity and fluency from the " ++
    "transcription quality. 1.0 = coherent, natural-sounding transcript that matches " ++
    "expected English; 0.5 = partially intelligible with noticeable gaps; 0.0 = transcript " ++
    "is incoherent or completely off-topic.\n" ++
    "content_score [0.0–1.0]: Assess whether the student's answer addresses the question " ++
    "correctly based on MEANING, not exact words. 1.0 = captures the core concept correctly, " ++
    "possibly with different phrasing or synonyms; 0.5–0.8 = partially correct or missing " ++
    "one key point; 0.0 = wrong or irrelevant. If no reference answer is provided, grade " ++
    "against the passage content.\n" ++
    "feedback: 1–2 sentences in English. Be specific and encouraging: confirm what was " ++
    "right, or name exactly what concept was missed (do not just say 'wrong').\n"
  passage := "You are a professional language assessor. Grade this student's read-aloud " ++
    "exercise based on the transcription of their audio recording.\n\n" ++
    "Target passage the student was asked to read:\n"
  reading := "\n\nStudent's transcribed reading: "
  readingRubric := "\n\nScoring rubric:\n" ++
    "pronunciation_score [0.0–1.0]: Compare the transcription against the target passage " ++
    "word-by-word. 1.0 = transcript closely matches the passage (minor articles/conjunctions " ++
    "may differ); deduct proportionally for missing content words, substituted key terms, or " ++
    "completely skipped sentences. 0.0 = transcript bears no resemblance to the passage.\n" ++
    "content_score: set to 0 (not applicable for read-aloud).\n" ++
    "feedback: 1–2 sentences in English. Highlight specific words or phrases that were read " ++
    "well or that differed from the passage; be encouraging.\n"

def vietnameseTexts : PromptTexts where
  context := "Bạn là giám khảo ngôn ngữ chuyên nghiệp. Chấm điểm câu trả lời nói của học sinh " ++
    "dựa trên bản ghi phiên âm từ giọng nói.\n\n" ++
    "Đoạn văn ngữ cảnh:\n"
  question := "\n\nCâu hỏi: "
  reference := "\n\nĐáp án tham chiếu (không phải cách diễn đạt duy nhất đúng): "
  answer := "\n\nBản ghi phiên âm câu trả lời của học sinh: "
  answerRubric := "\n\nRubric chấm điểm:\n" ++
    "pronunciation_score [0.0–1.0]: Đánh giá độ rõ ràng và mạch lạc của phần nói dựa trên " ++
    "chất lượng phiên âm. 1.0 = phiên âm mạch lạc, tự nhiên, phù hợp tiếng Việt chuẩn; 0.5 = " ++
    "hiểu được nhưng có khoảng trống hoặc câu chưa hoàn chỉnh; 0.0 = phiên âm không rõ " ++
    "nghĩa.\n" ++
    "content_score [0.0–1.0]: Đánh giá mức độ trả lời ĐÚNG VỀ NGỮ NGHĨA — không yêu cầu " ++
    "trùng từng chữ với đáp án tham chiếu. 1.0 = nắm đúng khái niệm cốt lõi, dù diễn đạt " ++
    "khác; 0.5–0.8 = đúng một phần hoặc thiếu một điểm quan trọng; 0.0 = sai hoàn toàn hoặc " ++
    "không liên quan. Nếu không có đáp án tham chiếu, chấm dựa trên nội dung đoạn văn.\n" ++
    "feedback: 1–2 câu tiếng Việt, KHUYẾN KHÍCH và CỤ THỂ: xác nhận điểm đúng hoặc chỉ rõ " ++
    "khái niệm nào còn thiếu/sai (không chỉ nói 'chưa đúng').\n"
  passage := "Bạn là giám khảo ngôn ngữ chuyên nghiệp. Chấm điểm bài đọc thành tiếng của học " ++
    "sinh dựa trên bản ghi phiên âm từ giọng nói.\n\n" ++
    "Đoạn văn học sinh được yêu cầu đọc thành tiếng:\n"
  reading := "\n\nBản ghi phiên âm bài đọc của học sinh: "
  readingRubric := "\n\nRubric chấm điểm:\n" ++
    "pronunciation_score [0.0–1.0]: So sánh phiên âm với đoạn văn gốc theo từng từ nội dung. " ++
    "1.0 = phiên âm khớp chặt với đoạn văn (có thể bỏ sót mạo từ/liên từ nhỏ); trừ điểm tỷ " ++
    "lệ cho từ nội dung bị thiếu, bị đọc sai, hoặc câu bị bỏ qua hoàn toàn. 0.0 = phiên âm " ++
    "không giống đoạn văn.\n" ++
    "content_score: đặt = 0 (không áp dụng cho bài đọc thành tiếng).\n" ++
    "feedback: 1–2 câu tiếng Việt, KHUYẾN KHÍCH. Nêu cụ thể từ/câu được đọc tốt hoặc cần cải " ++
    "thiện; không chỉ nhận xét chung chung.\n"

/-- `buildTextGradingPrompt`: a question makes it an open answer, and an expected answer only counts
beside a question. -/
def buildTextGradingPrompt (language passageMarkdown question expectedAnswer transcript : String) :
    String :=
  let texts := if language = "en" then englishTexts else vietnameseTexts
  if trimSpace question ≠ "" then
    texts.context ++ passageMarkdown ++ texts.question ++ question ++
      (if trimSpace expectedAnswer ≠ "" then texts.reference ++ expectedAnswer else "") ++
      (texts.answer ++ transcript ++ texts.answerRubric)
  else texts.passage ++ passageMarkdown ++ texts.reading ++ transcript ++ texts.readingRubric

/-- The models behind the grading service: what the speech recogniser hears, what Gemini answers to
the prompt of a recording, and the rest of the engines.  A call that panics comes to `none`. -/
structure GradingModels where
  sttTranscribe : List UInt8 → Except String String
  generateContent : String → Option (Except String AudioGradingResult)
  text : Nat → String → String → String → String → Option (Except String (ℚ × String))
  downloadAudio : String → Option (Except String (List UInt8))

section Grade

variable (lower : LowerCase)

/-- `GradeAudio` of the grading service, without the clamps that `buildGradingDeps` has. -/
def GradingModels.gradeAudio (models : GradingModels) (language : String) (audioMP3 : List UInt8)
    (passageMarkdown question expectedAnswer : String) :
    Option (Except String AudioGradingResult) :=
  match models.sttTranscribe audioMP3 with
  | .error e => some (.error ("gemini audio grade: whisper transcription: " ++ e))
  | .ok transcript =>
    if trimSpace transcript = "" || isSTTHallucination lower transcript language then
      some (.ok ⟨"", 0, 0,
        "Không phát hiện thấy tiếng nói hoặc âm thanh không rõ ràng. Vui lòng ghi âm lại."⟩)
    else
      (models.generateContent (buildTextGradingPrompt language passageMarkdown question
        expectedAnswer transcript)).map fun
        | .error e => .error ("gemini audio grade: " ++ e)
        | .ok result => .ok { result with transcript := transcript }

def GradingModels.engine (models : GradingModels) : GradingEngine where
  audio := models.gradeAudio lower
  text := models.text
  downloadAudio := models.downloadAudio

end Grade

section Prompt

variable {language passageMarkdown question expectedAnswer transcript : String}

/-- Without a question, or when it is blank, the expected answer is not asked about. -/
theorem buildTextGradingPrompt_withoutAnswer
    (h : trimSpace question = "" ∨ trimSpace expectedAnswer = "") :
    buildTextGradingPrompt language passageMarkdown question expectedAnswer transcript =
      buildTextGradingPrompt language passageMarkdown question "" transcript := by
  unfold buildTextGradingPrompt
  rcases h with hQuestion | hExpected
  · simp only [hQuestion, ne_eq, not_true_eq_false, if_false]
  · simp only [hExpected, Lessons.trimSpace_empty, ne_eq, not_true_eq_false, if_false]

/-- Otherwise the model reads it. -/
theorem buildTextGradingPrompt_withAnswer (hQuestion : trimSpace question ≠ "")
    (hExpected : trimSpace expectedAnswer ≠ "") :
    buildTextGradingPrompt language passageMarkdown question expectedAnswer transcript ≠
      buildTextGradingPrompt language passageMarkdown question "" transcript := by
  have hSome : expectedAnswer ≠ "" := by
    rintro rfl
    exact hExpected Lessons.trimSpace_empty
  simp only [buildTextGradingPrompt, hQuestion, hExpected, Lessons.trimSpace_empty, ne_eq,
    not_true_eq_false, not_false_eq_true, if_true, if_false, String.append_left_inj,
    String.append_right_inj]
  intro hEmpty
  exact hSome (String.append_eq_empty_iff.mp hEmpty).2

/-- A digit is no hallucination. -/
theorem not_isSTTHallucination_digit (lower : LowerCase) (language : String) :
    isSTTHallucination lower "1" language = false := by
  have hText : (trimSpace "1").toList = ['1'] := by decide +kernel
  have hLower : lower.toLower '1' = '1' := lower.toLower_digit '1' (by decide)
  simp only [isSTTHallucination, hText, List.map_cons, List.map_nil, hLower]
  have hWords : hallucinations.contains (String.ofList ([' '].intercalate
      (fields (String.ofList (['1'].filter fun c => !isPunctuation c))))) = false := by
    decide +kernel
  have hCjk : ['1'].any isCjk = false := by decide +kernel
  rw [hWords, hCjk, Bool.and_false, Bool.or_false]

end Prompt

end Richter.Interactions
