import Mathlib.Algebra.Order.Ring.Unbundled.Rat
import Richter.Chunkops.Db

/-! The requests that edit the chunks of a lesson (`internal/svc/ai/chunkops/chunkops.go`), and the
one that edits a segment of its transcript (`internal/svc/ai/transcript/segment.go`). -/

namespace Richter.Chunkops

open Lib
open Lessons (LessonTranscriptChunk Segment buildChunkTranscript)

abbrev Handler := ExceptT Error (Prog Op Op.Resp)

namespace Handler

/-- A read outside of a transaction, or an access to FoundationDB. -/
def base (o : Lessons.Op) : Handler o.Resp := ExceptT.lift (Prog.perform (Op.base o))

def ignore (o : Lessons.Op) : Handler Unit := do
  let _ ← base o
  return

def ignoreAll : List Lessons.Op → Handler Unit
  | [] => return
  | o :: os => do
    ignore o
    ignoreAll os

def checked (o : Lessons.Op) : Handler (Except String o.Resp) :=
  ExceptT.lift (Prog.perform (Op.checked o))

/-- A statement of a transaction. -/
def inTx (wrap : DbError → Error) (q : Query) : Handler q.Result := do
  match ← ExceptT.lift (Prog.perform (Op.tx q)) with
  | .ok a => return a
  | .error e => throw (wrap e)

def require : Except Error Unit → Handler Unit
  | .ok () => pure ()
  | .error e => throw e

end Handler

open Handler (base checked ignore ignoreAll inTx require)

/-- `db.WithCommitTx`. -/
def withCommitTx {α : Type} (f : Handler α) : Handler α :=
  Prog.withCommit (Prog.perform Op.begin) (Prog.perform Op.commit) (Prog.perform Op.rollback)
    Error.db f

/-- `fmt.Errorf` with `%w` around an error of the database. -/
def wrapped (text : String) (e : DbError) : Error := .db (.other (text ++ e.text))

def Error.text : Error → String
  | .connect code message => code.text ++ ": " ++ message
  | .db e => e.text

/-- An error of a transaction that is returned as an internal one. -/
def internal {α : Type} (text : String) (x : Handler α) : Handler α :=
  tryCatch x fun e => throw (.connect .internal (text ++ Error.text e))

/-- A chunk that a request names. -/
def getChunk (missing : Error) (chunkID : UUID) : Handler LessonTranscriptChunk := do
  match ← base (.pg (.getLessonTranscriptChunk chunkID)) with
  | .ok chunk => return chunk
  | .error .noRows => throw missing
  | .error e => throw (connectDBError e)

/-- The rows of `ReorderLessonChunks`, from the `k`-th on. -/
def setOrderIndexes (wrap : DbError → Error) : Nat → List UUID → Handler Unit
  | _, [] => return
  | k, id :: ids => do
    inTx wrap (.setOrderIndex id k)
    setOrderIndexes wrap (k + 1) ids

def reorderLessonChunks (wrap : DbError → Error) (lessonID : UUID) : Handler Unit := do
  let ids ← inTx wrap (.rankLessonChunks lessonID)
  setOrderIndexes wrap 0 ids

/-- The result of rounding to the nearest integer, to the even one of two. -/
def roundHalfEven (x : ℚ) : Int :=
  let n := x.floor
  if x - n < 1 / 2 then n
  else if 1 / 2 < x - n then n + 1
  else if n % 2 = 0 then n else n + 1

/-- `%.1f`. -/
def formatTenths (x : ℚ) : String :=
  let n := roundHalfEven (10 * if x < 0 then -x else x)
  (if x < 0 then "-" else "") ++ toString (n / 10) ++ "." ++ toString (n % 10)

def saveUnlessEmpty (chunkID : UUID) (text : String) : Handler Unit :=
  if text ≠ "" then ignore (.saveChunkTranscript chunkID text) else return

section Split

structure SplitResult where
  first : LessonTranscriptChunk
  second : LessonTranscriptChunk
  deriving DecidableEq

/-- The transaction of `Split`, on the chunk as it was read before. -/
def splitInTx (chunksLimit : Nat) (chunk : LessonTranscriptChunk) (splitAt : ℚ) :
    Handler SplitResult := do
  let updated ← inTx connectDBError
    (.updateChunkMetadata chunk.id chunk.startSeconds splitAt chunk.summary)
  let existingChunks ← inTx connectDBError (.listLessonTranscriptChunks chunk.lessonId chunksLimit)
  let maxOrder := existingChunks.val.foldl
    (fun n c => if n < c.orderIndex then c.orderIndex else n) 0
  let newChunk ← inTx connectDBError (.insertLessonTranscriptChunk
    { lessonId := chunk.lessonId
      orderIndex := maxOrder + 1
      startSeconds := splitAt
      endSeconds := chunk.endSeconds
      summary := chunk.summary
      questionCountConfig := chunk.questionCountConfig })
  reorderLessonChunks (wrapped "reorder chunks after split: ") chunk.lessonId
  let first ← inTx (wrapped "re-fetch first chunk after split: ")
    (.getLessonTranscriptChunk updated.id)
  let second ← inTx (wrapped "re-fetch second chunk after split: ")
    (.getLessonTranscriptChunk newChunk.id)
  return ⟨first, second⟩

def splitRange (splitAt : ℚ) (chunk : LessonTranscriptChunk) : Error :=
  .connect .invalidArgument ("split_at_seconds " ++ formatTenths splitAt ++ " must be within (" ++
    formatTenths chunk.startSeconds ++ ", " ++ formatTenths chunk.endSeconds ++ ")")

/-- `Service.Split`; `teacher` is what `requireTeacherRole` answers for a lesson. -/
def split (teacher : UUID → Except Error Unit) (chunksLimit : Nat) (chunkID : UUID)
    (splitAt : ℚ) : Handler SplitResult := do
  let chunk ← getChunk (.connect .notFound "chunk not found") chunkID
  require (teacher chunk.lessonId)
  if splitAt ≤ chunk.startSeconds || chunk.endSeconds ≤ splitAt then
    throw (splitRange splitAt chunk)
  else
    let allSegs ← base (.loadSegments chunk.lessonId)
    let result ← withCommitTx (splitInTx chunksLimit chunk splitAt)
    saveUnlessEmpty chunk.id (buildChunkTranscript allSegs chunk.startSeconds splitAt)
    saveUnlessEmpty result.second.id (buildChunkTranscript allSegs splitAt chunk.endSeconds)
    return result

end Split

section AdjustBoundary

structure BoundaryResult where
  prev : LessonTranscriptChunk
  next : LessonTranscriptChunk
  deriving DecidableEq

/-- The transaction of `AdjustBoundary`, which reads the chunks again. -/
def adjustInTx (prevID nextID : UUID) (newBoundary : ℚ) : Handler BoundaryResult := do
  let currentPrev ← inTx connectDBError (.getLessonTranscriptChunk prevID)
  let currentNext ← inTx connectDBError (.getLessonTranscriptChunk nextID)
  if currentPrev.orderIndex + 1 ≠ currentNext.orderIndex then
    throw (.connect .failedPrecondition
      "chunks are no longer adjacent — another edit may have changed their order")
  else
    let updPrev ← inTx connectDBError
      (.updateChunkMetadata prevID currentPrev.startSeconds newBoundary currentPrev.summary)
    let updNext ← inTx connectDBError
      (.updateChunkMetadata nextID newBoundary currentNext.endSeconds currentNext.summary)
    return ⟨updPrev, updNext⟩

def notAdjacent (prevChunk nextChunk : LessonTranscriptChunk) : Error :=
  .connect .invalidArgument ("chunks are not adjacent (order_index " ++
    toString prevChunk.orderIndex ++ " and " ++ toString nextChunk.orderIndex ++ ")")

def boundaryRange (newBoundary : ℚ) (prevChunk nextChunk : LessonTranscriptChunk) : Error :=
  .connect .invalidArgument ("new_boundary_seconds " ++ formatTenths newBoundary ++
    " must be within (" ++ formatTenths prevChunk.startSeconds ++ ", " ++
    formatTenths nextChunk.endSeconds ++ ")")

/-- `Service.AdjustBoundary`. -/
def adjustBoundary (teacher : UUID → Except Error Unit) (prevID nextID : UUID)
    (newBoundary : ℚ) : Handler BoundaryResult := do
  let prevChunk ← getChunk (.connect .notFound "prev chunk not found") prevID
  let nextChunk ← getChunk (.connect .notFound "next chunk not found") nextID
  if prevChunk.lessonId ≠ nextChunk.lessonId then
    throw (.connect .invalidArgument "chunks belong to different lessons")
  else if prevChunk.orderIndex + 1 ≠ nextChunk.orderIndex then
    throw (notAdjacent prevChunk nextChunk)
  else
    require (teacher prevChunk.lessonId)
    if newBoundary ≤ prevChunk.startSeconds || nextChunk.endSeconds ≤ newBoundary then
      throw (boundaryRange newBoundary prevChunk nextChunk)
    else
      let allSegs ← base (.loadSegments prevChunk.lessonId)
      let result ← withCommitTx (adjustInTx prevID nextID newBoundary)
      saveUnlessEmpty prevID (buildChunkTranscript allSegs prevChunk.startSeconds newBoundary)
      saveUnlessEmpty nextID (buildChunkTranscript allSegs newBoundary nextChunk.endSeconds)
      return result

end AdjustBoundary

section Merge

/-- The transaction of `Merge`. -/
def mergeInTx (keepChunk discardChunk : LessonTranscriptChunk) : Handler LessonTranscriptChunk := do
  inTx (wrapped "delete discard questions: ") (.deleteLessonInteractionsByChunk discardChunk.id)
  inTx (wrapped "delete discard chunk: ") (.deleteLessonTranscriptChunk discardChunk.id)
  let updated ← inTx (wrapped "update keep chunk boundaries: ")
    (.updateChunkMetadata keepChunk.id (min keepChunk.startSeconds discardChunk.startSeconds)
      (max keepChunk.endSeconds discardChunk.endSeconds) keepChunk.summary)
  reorderLessonChunks Error.db keepChunk.lessonId
  return updated

/-- `Service.Merge`. -/
def merge (teacher : UUID → Except Error Unit) (keepID discardID : UUID) :
    Handler LessonTranscriptChunk := do
  if keepID = discardID then
    throw (.connect .invalidArgument "keep and discard must be different chunks")
  else
    let keepChunk ← getChunk (connectDBError .noRows) keepID
    require (teacher keepChunk.lessonId)
    let discardChunk ← getChunk (connectDBError .noRows) discardID
    if keepChunk.lessonId ≠ discardChunk.lessonId then
      throw (.connect .invalidArgument "chunks must belong to the same lesson")
    else if keepChunk.orderIndex ≠ discardChunk.orderIndex + 1 &&
        discardChunk.orderIndex ≠ keepChunk.orderIndex + 1 then
      throw (.connect .invalidArgument "only adjacent chunks can be merged")
    else
      let keepTranscript ← base (.fetchChunkTranscript keepID)
      let discardTranscript ← base (.fetchChunkTranscript discardID)
      let mergedTranscript :=
        if keepChunk.orderIndex < discardChunk.orderIndex then
          keepTranscript ++ "\n" ++ discardTranscript
        else discardTranscript ++ "\n" ++ keepTranscript
      match ← checked (.saveChunkTranscript keepID mergedTranscript) with
      | .error text =>
        throw (.connect .internal ("write merged transcript to FDB: " ++ text))
      | .ok () =>
        let mergedChunk ← internal "merge chunks: "
          (withCommitTx (mergeInTx keepChunk discardChunk))
        ignore (.deleteChunkTranscript discardID)
        return mergedChunk

end Merge

section Delete

/-- The transaction of `Delete`. -/
def deleteInTx (chunk : LessonTranscriptChunk) : Handler Unit := do
  inTx (wrapped "delete questions: ") (.deleteLessonInteractionsByChunk chunk.id)
  inTx (wrapped "delete chunk: ") (.deleteLessonTranscriptChunk chunk.id)
  reorderLessonChunks Error.db chunk.lessonId

/-- `Service.Delete`. -/
def delete (teacher : UUID → Except Error Unit) (chunkID : UUID) : Handler Unit := do
  let chunk ← getChunk (connectDBError .noRows) chunkID
  require (teacher chunk.lessonId)
  internal "delete chunk: " (withCommitTx (deleteInTx chunk))
  ignore (.deleteChunkTranscript chunkID)

end Delete

section UpdateSegment

def segmentRange (segmentIndex : Int) (segs : List Segment) : Error :=
  .connect .invalidArgument ("segment_index " ++ toString segmentIndex ++ " out of range [0, " ++
    toString segs.length ++ ")")

/-- The flattened transcript. -/
def rebuilt (segs : List Segment) : String :=
  String.intercalate " " ((segs.map (·.text)).filter fun text => text ≠ "")

/-- The writes of the transcripts of the chunks, of which an empty one is left out. -/
def chunkTranscriptWrites (segs : List Segment) (chunks : List LessonTranscriptChunk) :
    List Lessons.Op :=
  (chunks.filter fun c => buildChunkTranscript segs c.startSeconds c.endSeconds ≠ "").map fun c =>
    .saveChunkTranscript c.id (buildChunkTranscript segs c.startSeconds c.endSeconds)

/-- `Service.UpdateSegment`. -/
def updateSegment (teacher : UUID → Except Error Unit) (lessonOpsLimit : Nat) (lessonID : UUID)
    (segmentIndex : Int) (text : String) : Handler Segment := do
  require (teacher lessonID)
  let loaded ← base (.loadSegments lessonID)
  if loaded = [] then
    throw (.connect .notFound "no segments found — run Step 2 first")
  else if segmentIndex < 0 || loaded.length ≤ segmentIndex then
    throw (segmentRange segmentIndex loaded)
  else
    let segs := loaded.modify segmentIndex.toNat fun seg => { seg with text := text }
    match ← checked (.saveSegments lessonID segs) with
    | .error e => throw (.connect .internal ("save segments: " ++ e))
    | .ok () =>
      ignore (.saveTranscript lessonID (rebuilt segs))
      match ← base (.pg (.listLessonTranscriptChunks lessonID lessonOpsLimit)) with
      | .error _ => pure ()
      | .ok chunks => ignoreAll (chunkTranscriptWrites segs chunks.val)
      return segs[segmentIndex.toNat]?.getD ⟨0, 0, ""⟩

end UpdateSegment

end Richter.Chunkops
