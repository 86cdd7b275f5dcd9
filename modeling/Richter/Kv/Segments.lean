import Richter.Kv.KVSvc
import Richter.Lessons.Transcript
import Richter.Lib.JsonScan
import Richter.Lib.MapM
import Richter.Lib.Wire

/-! `internal/svc/ai/segment/store.go`: the transcripts of lessons and chunks and the segments of
lessons, as protobuf records under keys of the KV service. -/

namespace Richter.Kv

open Lib

/-- `Segment`; a `float32` is its bits, and a text any bytes. -/
structure Segment where
  startSeconds : UInt32
  endSeconds : UInt32
  text : Bytes
  deriving DecidableEq

/-- A string that is valid UTF-8. -/
def utf8 (b : Bytes) : Option String := String.fromUTF8? ⟨b.toArray⟩

def bytesOf (s : String) : Bytes := s.toUTF8.data.toList

/-- `FdbTranscriptSegment`: strings on the wire are valid UTF-8. -/
structure FdbTranscriptSegment where
  startSeconds : UInt32 := 0
  endSeconds : UInt32 := 0
  text : String := ""
  deriving DecidableEq

/-- `FdbTranscript`. -/
structure FdbTranscript where
  text : String := ""
  language : String := ""
  deriving DecidableEq

/-- A field that is left out when it has its default. -/
def float32 (num : Nat) (n : UInt32) : Bytes := if n = 0 then [] else Wire.fixed32Field num n

def string (num : Nat) (s : String) : Bytes :=
  if s = "" then [] else Wire.bytesField num (bytesOf s)

namespace FdbTranscriptSegment

def marshal (s : FdbTranscriptSegment) : Bytes :=
  float32 1 s.startSeconds ++ (float32 2 s.endSeconds ++ string 3 s.text)

/-- A later field replaces an earlier one; unknown fields are left alone. -/
def merge (s : FdbTranscriptSegment) (f : Wire.Field) : Option FdbTranscriptSegment :=
  match f.num, f.value with
  | 1, .fixed32 n => some { s with startSeconds := n }
  | 2, .fixed32 n => some { s with endSeconds := n }
  | 3, .bytes b => (utf8 b).map fun text => { s with text := text }
  | _, _ => some s

def unmarshal (b : Bytes) : Option FdbTranscriptSegment :=
  (Wire.parse b).bind fun fields => fields.foldlM merge {}

end FdbTranscriptSegment

namespace FdbTranscript

def marshal (t : FdbTranscript) : Bytes := string 1 t.text ++ string 2 t.language

def merge (t : FdbTranscript) (f : Wire.Field) : Option FdbTranscript :=
  match f.num, f.value with
  | 1, .bytes b => (utf8 b).map fun text => { t with text := text }
  | 2, .bytes b => (utf8 b).map fun language => { t with language := language }
  | _, _ => some t

def unmarshal (b : Bytes) : Option FdbTranscript :=
  (Wire.parse b).bind fun fields => fields.foldlM merge {}

end FdbTranscript

/-- `FdbSegmentsBlob`. -/
abbrev FdbSegmentsBlob := List FdbTranscriptSegment

namespace FdbSegmentsBlob

def marshal (blob : FdbSegmentsBlob) : Bytes :=
  blob.flatMap fun s => Wire.bytesField 1 s.marshal

def merge (blob : FdbSegmentsBlob) (f : Wire.Field) : Option FdbSegmentsBlob :=
  match f.num, f.value with
  | 1, .bytes b => (FdbTranscriptSegment.unmarshal b).map fun s => blob ++ [s]
  | _, _ => some blob

def unmarshal (b : Bytes) : Option FdbSegmentsBlob :=
  (Wire.parse b).bind fun fields => fields.foldlM merge []

end FdbSegmentsBlob

/-- `segmentsFromProto`. -/
def segmentsFromProto (blob : FdbSegmentsBlob) : List Segment :=
  blob.map fun s => ⟨s.startSeconds, s.endSeconds, bytesOf s.text⟩

/-- `segmentsToProto`, of segments that `proto.Marshal` accepts. -/
def segmentsToProto (segs : List Segment) : Option FdbSegmentsBlob :=
  segs.mapM fun s => (utf8 s.text).map fun text => ⟨s.startSeconds, s.endSeconds, text⟩

/-- How `encoding/json` writes segments and reads them. -/
structure SegmentsJson where
  marshal : List Segment → Option Bytes
  unmarshal : Bytes → List Segment

def nsLesson : String := "lesson"

def nsChunk : String := "chunk"

section Store

variable {E : Type} (layer : TupleLayer E) (json : SegmentsJson)

def recordKey (id name : String) : List E := [layer.string id, layer.string name]

/-- `loadTranscriptProto`: the record, or the bytes themselves if they are a text. -/
def loadTranscriptProto (ns id : String) (db : Db) : Option FdbTranscript := do
  let data := (← get layer ns (recordKey layer id "transcript") db).getD []
  if data = [] then return {}
  match FdbTranscript.unmarshal data with
  | some t => return t
  | none => return ⟨(utf8 data).getD "", ""⟩

/-- `saveTranscriptProto`: an error when the text is not valid UTF-8. -/
def saveTranscriptProto (ns id : String) (text : Bytes) (db : Db) : Option (Bool × Db) :=
  match utf8 text with
  | none => some (false, db)
  | some text =>
    (set layer ns (recordKey layer id "transcript") (FdbTranscript.marshal ⟨text, ""⟩) db).map
      fun db => (true, db)

def loadTranscript (lessonID : String) (db : Db) : Option String :=
  (loadTranscriptProto layer nsLesson lessonID db).map fun t => Lessons.trimSpace t.text

def saveTranscript (lessonID : String) (transcript : Bytes) : Db → Option (Bool × Db) :=
  saveTranscriptProto layer nsLesson lessonID transcript

def fetchChunkTranscript (chunkID : String) (db : Db) : Option String :=
  (loadTranscriptProto layer nsChunk chunkID db).map fun t => Lessons.trimSpace t.text

def saveChunkTranscript (chunkID : String) (text : Bytes) : Db → Option (Bool × Db) :=
  saveTranscriptProto layer nsChunk chunkID text

def deleteChunkTranscript (chunkID : String) : Db → Option Db :=
  delete layer nsChunk (recordKey layer chunkID "transcript")

def deleteLessonTranscripts (lessonID : String) (db : Db) : Option Db := do
  let db ← delete layer nsLesson (recordKey layer lessonID "transcript") db
  delete layer nsLesson (recordKey layer lessonID "segments") db

def loadSegments (lessonID : String) (db : Db) : Option (List Segment) := do
  let data := (← get layer nsLesson (recordKey layer lessonID "segments") db).getD []
  if data = [] then return []
  match FdbSegmentsBlob.unmarshal data with
  | some blob => return segmentsFromProto blob
  | none => return json.unmarshal data

def loadSegmentsPromptJSON (lessonID : String) (db : Db) : Option (Option Bytes) := do
  let data := (← get layer nsLesson (recordKey layer lessonID "segments") db).getD []
  if data = [] then return none
  if JsonScan.valid data && (utf8 data).isSome then return some data
  let segs ← loadSegments layer json lessonID db
  if segs = [] then return none
  return json.marshal segs

def saveSegments (lessonID : String) (segs : List Segment) (db : Db) : Option (Bool × Db) :=
  match segmentsToProto segs with
  | none => some (false, db)
  | some blob =>
    (set layer nsLesson (recordKey layer lessonID "segments") (FdbSegmentsBlob.marshal blob)
      db).map fun db => (true, db)

end Store

/-- A call of the package. -/
inductive StoreCall
  | loadTranscript (lessonID : String)
  | saveTranscript (lessonID : String) (transcript : Bytes)
  | fetchChunkTranscript (chunkID : String)
  | saveChunkTranscript (chunkID : String) (text : Bytes)
  | deleteChunkTranscript (chunkID : String)
  | deleteLessonTranscripts (lessonID : String)
  | loadSegments (lessonID : String)
  | loadSegmentsPromptJSON (lessonID : String)
  | saveSegments (lessonID : String) (segs : List Segment)

inductive Answer
  /-- Whether there was no error. -/
  | done (ok : Bool)
  | text (s : String)
  | segments (segs : List Segment)
  | json (data : Option Bytes)
  deriving DecidableEq

/-- The package on FoundationDB. -/
def segmentStore {E : Type} (layer : TupleLayer E) (json : SegmentsJson) :
    Service Db StoreCall Answer where
  call db
    | .loadTranscript id => (loadTranscript layer id db).map fun s => (.text s, db)
    | .saveTranscript id transcript =>
        (saveTranscript layer id transcript db).map fun (ok, db) => (.done ok, db)
    | .fetchChunkTranscript id => (fetchChunkTranscript layer id db).map fun s => (.text s, db)
    | .saveChunkTranscript id text =>
        (saveChunkTranscript layer id text db).map fun (ok, db) => (.done ok, db)
    | .deleteChunkTranscript id =>
        (deleteChunkTranscript layer id db).map fun db => (.done true, db)
    | .deleteLessonTranscripts id =>
        (deleteLessonTranscripts layer id db).map fun db => (.done true, db)
    | .loadSegments id => (loadSegments layer json id db).map fun segs => (.segments segs, db)
    | .loadSegmentsPromptJSON id =>
        (loadSegmentsPromptJSON layer json id db).map fun data => (.json data, db)
    | .saveSegments id segs =>
        (saveSegments layer id segs db).map fun (ok, db) => (.done ok, db)

/-- What the package is for: a text for each lesson and chunk, and segments for each lesson. -/
structure Texts where
  transcript : String × String → String
  segments : String → List Segment

def Texts.empty : Texts := ⟨fun _ => "", fun _ => []⟩

def Texts.setTranscript (ns id text : String) (t : Texts) : Texts :=
  { t with transcript := Function.update t.transcript (ns, id) text }

def Texts.setSegments (id : String) (segs : List Segment) (t : Texts) : Texts :=
  { t with segments := Function.update t.segments id segs }

/-- A text that is not valid UTF-8 is refused. -/
def Texts.save (ns id : String) (text : Bytes) (t : Texts) : Answer × Texts :=
  match utf8 text with
  | none => (.done false, t)
  | some text => (.done true, t.setTranscript ns id text)

def Texts.saveSegments (id : String) (segs : List Segment) (t : Texts) : Answer × Texts :=
  if segs.all fun s => (utf8 s.text).isSome then (.done true, t.setSegments id segs)
  else (.done false, t)

/-- The package on its texts. -/
def textStore (json : SegmentsJson) : Service Texts StoreCall Answer where
  call t
    | .loadTranscript id => some (.text (Lessons.trimSpace (t.transcript (nsLesson, id))), t)
    | .saveTranscript id text => some (t.save nsLesson id text)
    | .fetchChunkTranscript id => some (.text (Lessons.trimSpace (t.transcript (nsChunk, id))), t)
    | .saveChunkTranscript id text => some (t.save nsChunk id text)
    | .deleteChunkTranscript id => some (.done true, t.setTranscript nsChunk id "")
    | .deleteLessonTranscripts id =>
        some (.done true, (t.setTranscript nsLesson id "").setSegments id [])
    | .loadSegments id => some (.segments (t.segments id), t)
    | .loadSegmentsPromptJSON id =>
        some (.json (if t.segments id = [] then none else json.marshal (t.segments id)), t)
    | .saveSegments id segs => some (t.saveSegments id segs)

section RoundTrip

theorem utf8_bytesOf (s : String) : utf8 (bytesOf s) = some s := by
  have hValid : (ByteArray.mk (bytesOf s).toArray).IsValidUTF8 := s.isValidUTF8
  rw [utf8, String.fromUTF8?, dif_pos hValid]
  rfl

theorem bytesOf_of_utf8 {b : Bytes} {s : String} (h : utf8 b = some s) : bytesOf s = b := by
  rw [utf8, String.fromUTF8?, Option.dite_none_right_eq_some] at h
  obtain ⟨hValid, hEq⟩ := h
  cases hEq
  rfl

theorem bytesOf_eq_nil {s : String} : bytesOf s = [] ↔ s = "" := by
  constructor
  · intro h
    have hEq : utf8 (bytesOf s) = utf8 (bytesOf "") := by rw [h]; rfl
    rw [utf8_bytesOf, utf8_bytesOf] at hEq
    exact Option.some.inj hEq
  · rintro rfl
    rfl

variable {num : Nat} {rest : Bytes} {fields : List Wire.Field}

theorem parse_float32 (hNum : 1 ≤ num ∧ num ≤ Wire.maxValidNumber) (n : UInt32)
    (h : Wire.parse rest = some fields) :
    Wire.parse (float32 num n ++ rest) =
      some ((if n = 0 then [] else [⟨num, .fixed32 n⟩]) ++ fields) := by
  unfold float32
  split
  · exact h
  · exact Wire.parse_fixed32Field hNum n h

theorem parse_string (hNum : 1 ≤ num ∧ num ≤ Wire.maxValidNumber) {s : String}
    (hLength : (bytesOf s).length < 2 ^ 64) (h : Wire.parse rest = some fields) :
    Wire.parse (string num s ++ rest) =
      some ((if s = "" then [] else [⟨num, .bytes (bytesOf s)⟩]) ++ fields) := by
  unfold string
  split
  · exact h
  · exact Wire.parse_bytesField hNum hLength h

theorem length_le_length_string (num : Nat) (s : String) :
    (bytesOf s).length ≤ (string num s).length := by
  unfold string
  split
  · next h => simp [bytesOf_eq_nil.mpr h]
  · rw [Wire.bytesField, Wire.appendBytes, List.length_append, List.length_append]
    omega

theorem FdbTranscriptSegment.unmarshal_marshal {s : FdbTranscriptSegment}
    (h : s.marshal.length < 2 ^ 64) : unmarshal s.marshal = some s := by
  have hText : (bytesOf s.text).length < 2 ^ 64 := by
    have hLe := length_le_length_string 3 s.text
    rw [marshal, List.length_append, List.length_append] at h
    omega
  have hParse : Wire.parse (float32 1 s.startSeconds ++ (float32 2 s.endSeconds ++
      (string 3 s.text ++ []))) = _ :=
    parse_float32 (by decide) s.startSeconds (parse_float32 (by decide) s.endSeconds
      (parse_string (by decide) hText Wire.parse_nil))
  rw [List.append_nil] at hParse
  rw [unmarshal, marshal, hParse]
  obtain ⟨startSeconds, endSeconds, text⟩ := s
  by_cases hStart : startSeconds = 0 <;> by_cases hEnd : endSeconds = 0 <;>
    by_cases hEmpty : text = "" <;> simp [hStart, hEnd, hEmpty, merge, utf8_bytesOf]

theorem FdbTranscript.unmarshal_marshal {text : String}
    (h : (marshal ⟨text, ""⟩).length < 2 ^ 64) :
    unmarshal (marshal ⟨text, ""⟩) = some ⟨text, ""⟩ := by
  have hMarshal : marshal ⟨text, ""⟩ = string 1 text ++ [] := rfl
  have hText : (bytesOf text).length < 2 ^ 64 := by
    rw [hMarshal, List.append_nil] at h
    exact (length_le_length_string 1 text).trans_lt h
  rw [unmarshal, hMarshal, parse_string (by decide) hText Wire.parse_nil]
  by_cases hEmpty : text = "" <;> simp [hEmpty, merge, utf8_bytesOf]

theorem FdbTranscript.marshal_eq_nil {text : String} : marshal ⟨text, ""⟩ = [] ↔ text = "" := by
  have hNone : string 2 "" = [] := rfl
  rw [marshal, hNone, List.append_nil, string]
  split
  · next h => exact iff_of_true rfl h
  · next h =>
    exact iff_of_false (List.append_ne_nil_of_left_ne_nil (Wire.appendTag_ne_nil _ _) _) h

namespace FdbSegmentsBlob

theorem length_le_length_marshal {blob : FdbSegmentsBlob} {s : FdbTranscriptSegment}
    (h : s ∈ blob) : s.marshal.length ≤ (marshal blob).length := by
  have hSub : Wire.bytesField 1 s.marshal <:+: marshal blob := by
    obtain ⟨before, after, rfl⟩ := List.append_of_mem h
    rw [marshal, List.flatMap_append, List.flatMap_cons]
    exact ⟨_, _, List.append_assoc ..⟩
  have hLe := hSub.length_le
  rw [Wire.bytesField, Wire.appendBytes, List.length_append, List.length_append] at hLe
  omega

theorem parse_marshal {blob : FdbSegmentsBlob}
    (h : ∀ s ∈ blob, s.marshal.length < 2 ^ 64) :
    Wire.parse (marshal blob) = some (blob.map fun s => ⟨1, .bytes s.marshal⟩) := by
  induction blob with
  | nil => rfl
  | cons s blob ih =>
    rw [List.forall_mem_cons] at h
    exact Wire.parse_bytesField (by decide) h.1 (ih h.2)

theorem foldlM_merge {blob read : FdbSegmentsBlob}
    (h : ∀ s ∈ blob, s.marshal.length < 2 ^ 64) :
    (blob.map fun s => (⟨1, .bytes s.marshal⟩ : Wire.Field)).foldlM merge read =
      some (read ++ blob) := by
  induction blob generalizing read with
  | nil => simp
  | cons s blob ih =>
    rw [List.forall_mem_cons] at h
    have hMerge : merge read ⟨1, .bytes s.marshal⟩ = some (read ++ [s]) := by
      simp [merge, FdbTranscriptSegment.unmarshal_marshal h.1]
    rw [List.map_cons, List.foldlM_cons, hMerge, Option.bind_eq_bind, Option.bind_some, ih h.2,
      List.append_assoc]
    rfl

theorem unmarshal_marshal {blob : FdbSegmentsBlob} (h : (marshal blob).length < 2 ^ 64) :
    unmarshal (marshal blob) = some blob := by
  have hAll : ∀ s ∈ blob, s.marshal.length < 2 ^ 64 := fun s hs =>
    (length_le_length_marshal hs).trans_lt h
  rw [unmarshal, parse_marshal hAll, Option.bind_some, foldlM_merge hAll, List.nil_append]

theorem length_mem_bytesField {b : Bytes} (h : b.length < 128) (num : Nat) :
    UInt8.ofNat b.length ∈ Wire.bytesField num b := by
  have hVarint : Wire.appendVarint b.length = [UInt8.ofNat b.length] := if_pos h
  refine List.mem_append_right _ (List.mem_append_left _ ?_)
  rw [hVarint]
  exact List.mem_singleton_self _

/-- Each segment has a control character on the wire: the tag of its end or its text, or its
length when it has neither. -/
theorem exists_control {s : FdbTranscriptSegment} :
    ∃ c ∈ Wire.bytesField 1 s.marshal, JsonScan.IsControl c := by
  have hField : ∀ c ∈ s.marshal, c ∈ Wire.bytesField 1 s.marshal := fun c hc =>
    List.mem_append_right _ (List.mem_append_right _ hc)
  by_cases hText : s.text = ""
  · by_cases hEnd : s.endSeconds = 0
    · have hMarshal : s.marshal = float32 1 s.startSeconds := by
        simp [FdbTranscriptSegment.marshal, float32, string, hText, hEnd]
      have hLength : s.marshal.length = 0 ∨ s.marshal.length = 5 := by
        rw [hMarshal, float32]
        split
        · exact .inl rfl
        · exact .inr rfl
      refine ⟨_, length_mem_bytesField (by omega) 1, ?_⟩
      rcases hLength with hLength | hLength <;> rw [hLength] <;> decide
    · refine ⟨0x15, hField _ ?_, by decide⟩
      rw [FdbTranscriptSegment.marshal, float32, float32, if_neg hEnd]
      exact List.mem_append_right _ (List.mem_append_left _ (List.mem_cons_self ..))
  · refine ⟨0x1A, hField _ ?_, by decide⟩
    rw [FdbTranscriptSegment.marshal, string, if_neg hText]
    exact List.mem_append_right _ (List.mem_append_right _ (List.mem_cons_self ..))

/-- Segments on the wire are never taken for a JSON text. -/
theorem valid_marshal {blob : FdbSegmentsBlob} (h : blob ≠ []) :
    JsonScan.valid (marshal blob) = false := by
  obtain ⟨s, blob, rfl⟩ := List.exists_cons_of_ne_nil h
  obtain ⟨c, hMem, hControl⟩ := exists_control (s := s)
  exact JsonScan.valid_eq_false (List.mem_append_left _ hMem) hControl

theorem marshal_eq_nil {blob : FdbSegmentsBlob} : marshal blob = [] ↔ blob = [] := by
  refine ⟨fun h => by_contra fun hNe => ?_, fun h => h ▸ rfl⟩
  obtain ⟨s, blob, rfl⟩ := List.exists_cons_of_ne_nil hNe
  obtain ⟨c, hMem, -⟩ := exists_control (s := s)
  have hAll : c ∈ marshal (s :: blob) := List.mem_append_left _ hMem
  rw [h] at hAll
  cases hAll

end FdbSegmentsBlob

theorem segmentsToProto_eq_none {segs : List Segment}
    (h : (segs.all fun s => (utf8 s.text).isSome) = false) : segmentsToProto segs = none := by
  obtain ⟨s, hs, hNot⟩ := List.all_eq_false.mp h
  refine Lib.mapM_eq_none hs ?_
  rw [Bool.not_eq_true, Option.isSome_eq_false_iff, Option.isNone_iff_eq_none] at hNot
  rw [hNot]
  rfl

/-- Segments come back from their messages. -/
theorem segmentsFromProto_segmentsToProto {segs : List Segment}
    (h : (segs.all fun s => (utf8 s.text).isSome) = true) :
    ∃ blob, segmentsToProto segs = some blob ∧ segmentsFromProto blob = segs := by
  induction segs with
  | nil => exact ⟨[], rfl, rfl⟩
  | cons s segs ih =>
    rw [List.all_cons, Bool.and_eq_true] at h
    obtain ⟨text, hText⟩ := Option.isSome_iff_exists.mp h.1
    obtain ⟨blob, hBlob, hBack⟩ := ih h.2
    unfold segmentsToProto at hBlob ⊢
    refine ⟨⟨s.startSeconds, s.endSeconds, text⟩ :: blob, ?_, ?_⟩
    · rw [List.mapM_cons, hText, hBlob]
      rfl
    · unfold segmentsFromProto at hBack ⊢
      rw [List.map_cons, hBack, bytesOf_of_utf8 hText]

end RoundTrip

section Refinement

variable {E : Type} {layer : TupleLayer E} {json : SegmentsJson} {db : Db} {m : KvMap E}
  {t : Texts} {ns id : String}

/-- The records hold the texts. -/
structure Holds (layer : TupleLayer E) (m : KvMap E) (t : Texts) : Prop where
  transcript : ∀ ns id, (m (ns, recordKey layer id "transcript")).getD [] =
    FdbTranscript.marshal ⟨t.transcript (ns, id), ""⟩
  segments : ∀ id, ∃ blob, segmentsFromProto blob = t.segments id ∧
    (m (nsLesson, recordKey layer id "segments")).getD [] = FdbSegmentsBlob.marshal blob

theorem holds_empty : Holds layer (fun _ => none) .empty :=
  ⟨fun _ _ => rfl, fun _ => ⟨[], rfl, rfl⟩⟩

theorem recordKey_inj {id' name name' : String}
    (h : recordKey layer id name = recordKey layer id' name') : id = id' ∧ name = name' := by
  obtain ⟨hId, hRest⟩ := List.cons.inj h
  exact ⟨layer.string_injective hId, layer.string_injective (List.cons.inj hRest).1⟩

/-- What `Get` returns is the record, and no longer than a message can be. -/
theorem Represents.record (h : Represents layer db m) (ns : String) (key : List E) :
    (∃ data, Kv.get layer ns key db = some data ∧ data.getD [] = (m (ns, key)).getD []) ∧
      ((m (ns, key)).getD []).length < 2 ^ 64 := by
  refine ⟨⟨_, h.get, ?_⟩, ?_⟩
  · cases m (ns, key) with
    | none => rfl
    | some value => by_cases hEmpty : value = [] <;> simp [Option.filter, hEmpty]
  · cases hm : m (ns, key) with
    | none => simp
    | some value =>
      have hFits := h.fits ns key value hm
      unfold Fits maxValueBytes at hFits
      rw [Option.getD_some]
      omega

theorem loadTranscriptProto_eq (h : Represents layer db m) (hHolds : Holds layer m t) :
    loadTranscriptProto layer ns id db = some ⟨t.transcript (ns, id), ""⟩ := by
  obtain ⟨⟨data, hGet, hData⟩, hLength⟩ := h.record ns (recordKey layer id "transcript")
  rw [hHolds.transcript] at hData hLength
  simp only [loadTranscriptProto, hGet, Option.bind_eq_bind, Option.bind_some, hData,
    FdbTranscript.marshal_eq_nil, FdbTranscript.unmarshal_marshal hLength]
  split
  · next hEmpty =>
    rw [hEmpty]
    rfl
  · rfl

theorem loadSegments_eq (h : Represents layer db m) (hHolds : Holds layer m t) :
    loadSegments layer json id db = some (t.segments id) := by
  obtain ⟨⟨data, hGet, hData⟩, hLength⟩ := h.record nsLesson (recordKey layer id "segments")
  obtain ⟨blob, hBlob, hRecord⟩ := hHolds.segments id
  rw [hRecord] at hData hLength
  simp only [loadSegments, hGet, Option.bind_eq_bind, Option.bind_some, hData,
    FdbSegmentsBlob.marshal_eq_nil, FdbSegmentsBlob.unmarshal_marshal hLength]
  split
  · next hEmpty =>
    rw [← hBlob, hEmpty]
    rfl
  · rw [hBlob]
    rfl

theorem loadSegmentsPromptJSON_eq (h : Represents layer db m) (hHolds : Holds layer m t) :
    loadSegmentsPromptJSON layer json id db =
      some (if t.segments id = [] then none else json.marshal (t.segments id)) := by
  obtain ⟨⟨data, hGet, hData⟩, -⟩ := h.record nsLesson (recordKey layer id "segments")
  obtain ⟨blob, hBlob, hRecord⟩ := hHolds.segments id
  rw [hRecord] at hData
  simp only [loadSegmentsPromptJSON, hGet, Option.bind_eq_bind, Option.bind_some, hData,
    FdbSegmentsBlob.marshal_eq_nil, loadSegments_eq h hHolds]
  split
  · next hEmpty =>
    rw [← hBlob, hEmpty]
    rfl
  · next hSome =>
    rw [FdbSegmentsBlob.valid_marshal hSome, Bool.false_and, if_neg Bool.false_ne_true]
    split <;> rfl

section Changes

variable [DecidableEq E]

theorem Holds.setTranscript (h : Holds layer m t) {record : Option Bytes} {text : String}
    (hRecord : record.getD [] = FdbTranscript.marshal ⟨text, ""⟩) :
    Holds layer (Function.update m (ns, recordKey layer id "transcript") record)
      (t.setTranscript ns id text) := by
  constructor
  · intro ns' id'
    dsimp only [Texts.setTranscript]
    by_cases hSame : (ns', id') = (ns, id)
    · cases hSame
      rw [Function.update_self, hRecord, Function.update_self]
    · rw [Function.update_of_ne hSame, Function.update_of_ne, h.transcript]
      intro hKey
      obtain ⟨rfl, hRecord⟩ := Prod.mk.inj hKey
      exact hSame (by rw [(recordKey_inj hRecord).1])
  · intro id'
    rw [Function.update_of_ne]
    · exact h.segments id'
    · intro hKey
      exact absurd (recordKey_inj (Prod.mk.inj hKey).2).2 (by decide)

theorem Holds.setSegments (h : Holds layer m t) {record : Option Bytes} {blob : FdbSegmentsBlob}
    (hRecord : record.getD [] = FdbSegmentsBlob.marshal blob) :
    Holds layer (Function.update m (nsLesson, recordKey layer id "segments") record)
      (t.setSegments id (segmentsFromProto blob)) := by
  constructor
  · intro ns' id'
    rw [Function.update_of_ne]
    · exact h.transcript ns' id'
    · intro hKey
      exact absurd (recordKey_inj (Prod.mk.inj hKey).2).2 (by decide)
  · intro id'
    dsimp only [Texts.setSegments]
    by_cases hSame : id' = id
    · cases hSame
      exact ⟨blob, by rw [Function.update_self], by rw [Function.update_self, hRecord]⟩
    · obtain ⟨blob', hBlob', hRecord'⟩ := h.segments id'
      refine ⟨blob', by rw [Function.update_of_ne hSame, hBlob'], ?_⟩
      rw [Function.update_of_ne, hRecord']
      intro hKey
      exact hSame (recordKey_inj (Prod.mk.inj hKey).2).1

theorem saveTranscriptProto_eq (h : Represents layer db m) (hHolds : Holds layer m t) {text : Bytes}
    (hFits : ∀ s, utf8 text = some s → Kv.Fits (FdbTranscript.marshal ⟨s, ""⟩)) :
    ∃ ok db' m', saveTranscriptProto layer ns id text db = some (ok, db') ∧
      (.done ok : Answer) = (t.save ns id text).1 ∧ Represents layer db' m' ∧
      Holds layer m' (t.save ns id text).2 := by
  unfold saveTranscriptProto Texts.save
  cases hText : utf8 text with
  | none => exact ⟨false, db, m, rfl, rfl, h, hHolds⟩
  | some text =>
    obtain ⟨db', hSet, hRep⟩ := h.set ns (recordKey layer id "transcript") (hFits text hText)
    exact ⟨true, db', _, by simp only [hSet, Option.map_some], rfl, hRep,
      hHolds.setTranscript rfl⟩

theorem deleteTranscript_eq (h : Represents layer db m) (hHolds : Holds layer m t) :
    ∃ db' m', delete layer ns (recordKey layer id "transcript") db = some db' ∧
      Represents layer db' m' ∧ Holds layer m' (t.setTranscript ns id "") := by
  obtain ⟨db', hClear, hRep⟩ := h.clearAll ns (recordKey layer id "transcript")
  exact ⟨db', _, hClear, hRep, hHolds.setTranscript rfl⟩

theorem deleteSegments_eq (h : Represents layer db m) (hHolds : Holds layer m t) :
    ∃ db' m', delete layer nsLesson (recordKey layer id "segments") db = some db' ∧
      Represents layer db' m' ∧ Holds layer m' (t.setSegments id []) := by
  obtain ⟨db', hClear, hRep⟩ := h.clearAll nsLesson (recordKey layer id "segments")
  exact ⟨db', _, hClear, hRep, @Holds.setSegments _ _ _ _ id _ hHolds none [] rfl⟩

theorem saveSegments_eq (h : Represents layer db m) (hHolds : Holds layer m t)
    {segs : List Segment} (hFits : ∀ blob, segmentsToProto segs = some blob →
      Kv.Fits (FdbSegmentsBlob.marshal blob)) :
    ∃ ok db' m', saveSegments layer id segs db = some (ok, db') ∧
      (.done ok : Answer) = (t.saveSegments id segs).1 ∧ Represents layer db' m' ∧
      Holds layer m' (t.saveSegments id segs).2 := by
  unfold saveSegments Texts.saveSegments
  cases hAll : segs.all fun s => (utf8 s.text).isSome with
  | false =>
    rw [segmentsToProto_eq_none hAll]
    exact ⟨false, db, m, rfl, rfl, h, hHolds⟩
  | true =>
    obtain ⟨blob, hBlob, hBack⟩ := segmentsFromProto_segmentsToProto hAll
    obtain ⟨db', hSet, hRep⟩ :=
      h.set nsLesson (recordKey layer id "segments") (hFits blob hBlob)
    refine ⟨true, db', _, ?_, rfl, hRep, ?_⟩
    · rw [hBlob]
      simp only [hSet, Option.map_some]
    · rw [if_pos rfl, ← hBack]
      exact hHolds.setSegments rfl

/-- The records that a call stores fit. -/
def StoreCall.Fits : StoreCall → Prop
  | .saveTranscript _ text | .saveChunkTranscript _ text =>
      ∀ s, utf8 text = some s → Kv.Fits (FdbTranscript.marshal ⟨s, ""⟩)
  | .saveSegments _ segs =>
      ∀ blob, segmentsToProto segs = some blob → Kv.Fits (FdbSegmentsBlob.marshal blob)
  | _ => True

theorem segmentStore_simulates : (segmentStore layer json).Simulates StoreCall.Fits
    (fun db t => ∃ m, Represents layer db m ∧ Holds layer m t) (textStore json) := by
  rintro db t call answer t' hFits ⟨m, hRep, hHolds⟩ hCall
  cases call with
  | loadTranscript id =>
    cases hCall
    refine ⟨db, ?_, m, hRep, hHolds⟩
    simp only [segmentStore, loadTranscript, loadTranscriptProto_eq hRep hHolds, Option.map_some]
  | fetchChunkTranscript id =>
    cases hCall
    refine ⟨db, ?_, m, hRep, hHolds⟩
    simp only [segmentStore, fetchChunkTranscript, loadTranscriptProto_eq hRep hHolds,
      Option.map_some]
  | loadSegments id =>
    cases hCall
    refine ⟨db, ?_, m, hRep, hHolds⟩
    simp only [segmentStore, loadSegments_eq hRep hHolds, Option.map_some]
  | loadSegmentsPromptJSON id =>
    cases hCall
    refine ⟨db, ?_, m, hRep, hHolds⟩
    simp only [segmentStore, loadSegmentsPromptJSON_eq hRep hHolds, Option.map_some]
  | saveTranscript id text =>
    obtain ⟨rfl, rfl⟩ := Prod.ext_iff.mp (Option.some.inj hCall)
    obtain ⟨ok, db', m', hSave, hOk, hRep', hHolds'⟩ := saveTranscriptProto_eq hRep hHolds hFits
    refine ⟨db', ?_, m', hRep', hHolds'⟩
    simp only [segmentStore, saveTranscript, hSave, Option.map_some, hOk]
  | saveChunkTranscript id text =>
    obtain ⟨rfl, rfl⟩ := Prod.ext_iff.mp (Option.some.inj hCall)
    obtain ⟨ok, db', m', hSave, hOk, hRep', hHolds'⟩ := saveTranscriptProto_eq hRep hHolds hFits
    refine ⟨db', ?_, m', hRep', hHolds'⟩
    simp only [segmentStore, saveChunkTranscript, hSave, Option.map_some, hOk]
  | deleteChunkTranscript id =>
    cases hCall
    obtain ⟨db', m', hDelete, hRep', hHolds'⟩ := deleteTranscript_eq hRep hHolds
    refine ⟨db', ?_, m', hRep', hHolds'⟩
    simp only [segmentStore, deleteChunkTranscript, hDelete, Option.map_some]
  | deleteLessonTranscripts id =>
    cases hCall
    obtain ⟨db₁, m₁, hDelete, hRep₁, hHolds₁⟩ := deleteTranscript_eq hRep hHolds
    obtain ⟨db', m', hDelete', hRep', hHolds'⟩ := deleteSegments_eq hRep₁ hHolds₁
    refine ⟨db', ?_, m', hRep', hHolds'⟩
    simp only [segmentStore, deleteLessonTranscripts, hDelete, hDelete', Option.bind_eq_bind,
      Option.bind_some, Option.map_some]
  | saveSegments id segs =>
    obtain ⟨rfl, rfl⟩ := Prod.ext_iff.mp (Option.some.inj hCall)
    obtain ⟨ok, db', m', hSave, hOk, hRep', hHolds'⟩ := saveSegments_eq hRep hHolds hFits
    refine ⟨db', ?_, m', hRep', hHolds'⟩
    simp only [segmentStore, hSave, Option.map_some, hOk]

theorem textStore_total (t : Texts) (calls : List StoreCall) :
    ∃ answers t', (textStore json).serve t calls = some (answers, t') := by
  induction calls generalizing t with
  | nil => exact ⟨[], t, rfl⟩
  | cons c calls ih =>
    obtain ⟨o, t', hCall⟩ : ∃ o t', (textStore json).call t c = some (o, t') := by
      cases c <;> exact ⟨_, _, rfl⟩
    obtain ⟨answers, t'', hServe⟩ := ih t'
    exact ⟨o :: answers, t'', Service.serve_cons hCall hServe⟩

/-- From the empty database, whatever is saved and deleted in whatever order, what is loaded is what
was saved last: texts without the space around them, segments as they were, and for a prompt the
JSON of the segments, never the bytes that are stored. -/
theorem segmentStore_refines_texts {calls : List StoreCall} (hFits : ∀ c ∈ calls, c.Fits) :
    ∃ answers t db, (textStore json).serve .empty calls = some (answers, t) ∧
      (segmentStore layer json).serve .empty calls = some (answers, db) := by
  obtain ⟨answers, t, hTexts⟩ := @textStore_total json .empty calls
  have hStart : ∃ m, Represents layer .empty m ∧ Holds layer m .empty :=
    ⟨_, represents_empty, holds_empty⟩
  obtain ⟨db, hServe, -⟩ := segmentStore_simulates.serve hFits hStart hTexts
  exact ⟨answers, t, db, hTexts, hServe⟩

end Changes

end Refinement

/-- The seconds 0, 1.5 and 3 as JSON numbers. -/
def secondsText (n : UInt32) : String :=
  if n = 0x3FC00000 then "1.5" else if n = 0x40400000 then "3" else "0"

/-- JSON of segments at those seconds, with texts that need no escapes. -/
def plainJson : SegmentsJson where
  marshal segs := some (bytesOf ("[" ++ ",".intercalate (segs.map fun s =>
    "\x7b\"start_seconds\":" ++ secondsText s.startSeconds ++ ",\"end_seconds\":" ++
      secondsText s.endSeconds ++ ",\"text\":\"" ++ (utf8 s.text).getD "" ++ "\"\x7d") ++ "]"))
  unmarshal _ := []

def greeting : List Segment :=
  [⟨0, 0x3FC00000, bytesOf "Hi"⟩, ⟨0x3FC00000, 0x40400000, bytesOf "there"⟩]

/-- A lesson that is transcribed, with a text that is refused in between, and cleared. -/
def transcribing : List StoreCall :=
  [.saveSegments "7" greeting,
    .saveTranscript "7" (bytesOf " Hi there\n"),
    .saveTranscript "7" [0xFF],
    .loadTranscript "7",
    .loadSegments "7",
    .loadSegmentsPromptJSON "7",
    .fetchChunkTranscript "7",
    .deleteLessonTranscripts "7",
    .loadTranscript "7",
    .loadSegmentsPromptJSON "7"]

theorem transcribing_fits : ∀ c ∈ transcribing, c.Fits := by
  have hSegments : StoreCall.Fits (.saveSegments "7" greeting) := by
    intro blob hBlob
    obtain rfl := Option.some.inj (hBlob.symm.trans (by decide +kernel :
      segmentsToProto greeting = some [⟨0, 0x3FC00000, "Hi"⟩, ⟨0x3FC00000, 0x40400000, "there"⟩]))
    show _ ≤ _
    decide +kernel
  have hText : StoreCall.Fits (.saveTranscript "7" (bytesOf " Hi there\n")) := by
    intro s hs
    obtain rfl := Option.some.inj ((utf8_bytesOf _).symm.trans hs)
    show _ ≤ _
    decide +kernel
  have hRefused : StoreCall.Fits (.saveTranscript "7" [0xFF]) := by
    intro s hs
    cases hs.symm.trans (by decide +kernel : utf8 [0xFF] = none)
  unfold transcribing
  simp only [List.forall_mem_cons]
  exact ⟨hSegments, hText, hRefused, trivial, trivial, trivial, trivial, trivial, trivial, trivial,
    fun c hc => absurd hc List.not_mem_nil⟩

theorem segmentStore_refines_texts_transcribing :
    ∃ answers t db, (textStore plainJson).serve .empty transcribing = some (answers, t) ∧
      answers = [.done true, .done true, .done false, .text "Hi there", .segments greeting,
        .json (some (bytesOf ("[\x7b\"start_seconds\":0,\"end_seconds\":1.5,\"text\":\"Hi\"\x7d," ++
          "\x7b\"start_seconds\":1.5,\"end_seconds\":3,\"text\":\"there\"\x7d]"))),
        .text "", .done true, .text "", .json none] ∧
      (segmentStore fdbTuples plainJson).serve .empty transcribing = some (answers, db) := by
  obtain ⟨answers, t, db, hTexts, hServe⟩ :=
    @segmentStore_refines_texts Element fdbTuples plainJson _ transcribing transcribing_fits
  refine ⟨answers, t, db, hTexts, ?_, hServe⟩
  have hAnswers := congrArg (Option.map Prod.fst) hTexts
  rw [Option.map_some] at hAnswers
  exact Option.some.inj (hAnswers.symm.trans (by decide +kernel))

end Richter.Kv
