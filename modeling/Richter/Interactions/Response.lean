import Richter.Svc.Errors

/-! A student's responses (`AttemptResponseInput`), the JSON in which the handlers of the
interaction kinds store them, and the two texts of that JSON: the one that Go writes and the one
that Postgres returns from a `jsonb` column. -/

namespace Richter.Interactions

inductive InteractionKind
  | unspecified
  | singleChoice
  | multipleChoice
  | fillBlank
  | listening
  | reading
  | writing
  deriving DecidableEq, Repr

/-- `dbStringToKind`. -/
def dbStringToKind : String → InteractionKind
  | "mcq" => .singleChoice
  | "multiple_choice" => .multipleChoice
  | "fill_blank" => .fillBlank
  | "listening" => .listening
  | "reading" => .reading
  | "writing" => .writing
  | _ => .unspecified

/-- The `response` of an `AttemptResponseInput`. -/
inductive Answer
  | unset
  | mcqSelected (selected : Int)
  | fillBlank (answers : List String)
  | listening (comprehensionAnswers : List Int)
  | reading (audioObjectKey : String)
  | mcqMultiple (selectedIndexes : List Int)
  | writing (text : String)
  deriving DecidableEq, Repr

structure AttemptResponseInput where
  interactionId : UUID
  timeToAnswerMs : Int
  replayCount : Int
  response : Answer
  deriving DecidableEq, Repr

/-- The JSON of a response (`singleChoiceResponseJSON` and its siblings). -/
inductive ResponseJSON
  | singleChoice (selected : Int)
  | multipleChoice (selectedIndexes : List Int)
  | fillBlank (answers : List String)
  | listening (comprehensionAnswers : List Int)
  | reading (audioObjectKey : String)
  | writing (text : String)
  deriving DecidableEq, Repr

/-- The field `audio_object_key` of a response, which only one of a reading has. -/
def ResponseJSON.audioObjectKey : ResponseJSON → String
  | .reading audioObjectKey => audioObjectKey
  | _ => ""

/-- `ResponseProtoToJSON` of the kind's handler, which is missing for an unspecified kind (`Get`
returns `nil`). -/
def responseProtoToJSON : InteractionKind → Option (Answer → Except Error ResponseJSON)
  | .unspecified => none
  | .singleChoice => some fun
      | .mcqSelected selected => .ok (.singleChoice selected)
      | _ => .error (.connect .invalidArgument "single_choice: missing mcq_selected in response")
  | .multipleChoice => some fun
      | .mcqMultiple selectedIndexes => .ok (.multipleChoice selectedIndexes)
      | _ => .error (.connect .invalidArgument "multiple_choice: missing mcq_multiple in response")
  | .fillBlank => some fun
      | .fillBlank answers => .ok (.fillBlank answers)
      | _ => .error (.connect .invalidArgument "fill_blank: missing fill_blank response")
  | .listening => some fun
      | .listening comprehensionAnswers => .ok (.listening comprehensionAnswers)
      | _ => .error (.connect .invalidArgument "listening: missing listening response")
  | .reading => some fun
      | .reading audioObjectKey => .ok (.reading audioObjectKey)
      | _ => .error (.connect .invalidArgument "reading: missing reading response")
  | .writing => some fun
      | .writing text => .ok (.writing text)
      | _ => .error (.connect .invalidArgument "writing: missing writing response")

/-- What the texts of one JSON value differ in: the separators, and which characters besides the
control characters are written as `\uXXXX`. -/
structure Layout where
  comma : String
  colon : String
  escaped : Nat → Bool

/-- `json.Marshal`, which also escapes `<`, `>`, `&`, U+2028 and U+2029. -/
def goLayout : Layout := ⟨",", ":", fun c => c ∈ [0x3c, 0x3e, 0x26, 0x2028, 0x2029]⟩

/-- The output of `jsonb`. -/
def jsonbLayout : Layout := ⟨", ", ": ", fun _ => false⟩

namespace Layout

variable (l : Layout)

def char (c : Char) : String :=
  match c.toNat with
  | 0x22 => "\\\""
  | 0x5c => "\\\\"
  | 0x08 => "\\b"
  | 0x09 => "\\t"
  | 0x0a => "\\n"
  | 0x0c => "\\f"
  | 0x0d => "\\r"
  | n =>
      if n < 0x20 || l.escaped n then "\\u" ++ String.ofList (Nat.toDigits 16 (0x10000 + n)).tail
      else c.toString

def string (s : String) : String := "\"" ++ String.join (s.toList.map l.char) ++ "\""

def array (items : List String) : String := "[" ++ l.comma.intercalate items ++ "]"

def object (fields : List (String × String)) : String :=
  "\x7b" ++ l.comma.intercalate (fields.map fun (k, v) => l.string k ++ l.colon ++ v) ++ "\x7d"

/-- The text of a response's JSON.  A repeated field without elements is a nil slice, so
`fillBlank` writes `null` for it and `listening` omits it; `multipleChoice` copies it first. -/
def text : ResponseJSON → String
  | .singleChoice selected => l.object [("selected", toString selected)]
  | .multipleChoice selectedIndexes =>
      l.object [("selected_indexes", l.array (selectedIndexes.map toString))]
  | .fillBlank [] => l.object [("answers", "null")]
  | .fillBlank answers => l.object [("answers", l.array (answers.map l.string))]
  | .listening [] => l.object []
  | .listening comprehensionAnswers =>
      l.object [("comprehension_answers", l.array (comprehensionAnswers.map toString))]
  | .reading audioObjectKey => l.object [("audio_object_key", l.string audioObjectKey)]
  | .writing text => l.object [("text", l.string text)]

end Layout

/-- The handler of readings knows the recording that a stored response refers to
(`AudioObjectCleaner`). -/
def audioObjectKeyFromResponse (kind : InteractionKind) : ResponseJSON → Option String
  | .reading audioObjectKey =>
      if kind = .reading ∧ audioObjectKey ≠ "" then some audioObjectKey else none
  | _ => none

end Richter.Interactions
