import Mathlib.Data.List.Dedup
import Mathlib.Data.Rat.Defs
import Richter.Lib.Rewrite

/-! Transcripts and their segments (`internal/svc/ai/segment`), and the test for a transcript that
is a repetition loop (`transcript.IsDegenerateTranscript`). -/

namespace Richter.Lessons

/-- A timestamped piece of a transcript. -/
structure Segment where
  startSeconds : ℚ
  endSeconds : ℚ
  text : String
  deriving DecidableEq

/-- `unicode.IsSpace`. -/
def isSpace (c : Char) : Bool :=
  c.toNat ∈ [0x09, 0x0a, 0x0b, 0x0c, 0x0d, 0x20, 0x85, 0xa0, 0x1680, 0x2028, 0x2029, 0x202f, 0x205f,
    0x3000] || (0x2000 ≤ c.toNat && c.toNat ≤ 0x200a)

/-- `strings.TrimSpace`. -/
@[irreducible] def trimSpace (s : String) : String :=
  String.ofList ((s.toList.dropWhile isSpace).reverse.dropWhile isSpace).reverse

@[simp] theorem trimSpace_empty : trimSpace "" = "" := by decide +kernel

theorem toList_trimSpace (s : String) : (trimSpace s).toList = Lib.trim isSpace s.toList := by
  rw [trimSpace, String.toList_ofList]
  rfl

@[simp] theorem trimSpace_trimSpace (s : String) : trimSpace (trimSpace s) = trimSpace s :=
  String.toList_inj.mp <| by
    rw [toList_trimSpace, toList_trimSpace, (Lib.trim_trimmed s.toList).trim_eq]

/-- `strings.Fields`, over characters. -/
def fields (s : String) : List (List Char) :=
  (s.toList.splitOnP isSpace).filter fun f => !f.isEmpty

/-- `BuildChunkTranscript`. -/
def buildChunkTranscript (segs : List Segment) (startSec endSec : ℚ) : String :=
  trimSpace (String.join ((segs.filter fun seg =>
    startSec ≤ seg.startSeconds && seg.startSeconds < endSec).map fun seg => seg.text ++ " "))

def degenerateMinTokens : Nat := 30

def degenerateWindow : Nat := 120

def degenerateWindowStride : Nat := 60

/-- `float64(distinct)/float64(total) < 0.15`. -/
def belowWindowRatio (distinct total : Nat) : Bool := 100 * distinct < 15 * total

/-- The windows of the scan for loops; `fuel` bounds their number. -/
def windows (low : List (List Char)) : Nat → List (List (List Char))
  | 0 => []
  | fuel + 1 =>
    if degenerateWindow ≤ low.length then
      low.take degenerateWindow :: windows (low.drop degenerateWindowStride) fuel
    else []

/-- `IsDegenerateTranscript`; `toLower` is `unicode.ToLower`. -/
def isDegenerateTranscript (toLower : Char → Char) (text : String) : Bool :=
  let low := (fields text).map fun f => f.map toLower
  let n := low.length
  if n < degenerateMinTokens then false
  -- One token makes up more than half of the text.
  else if low.any fun k => n < 2 * low.count k then true
  else if n < 2 * degenerateWindow then belowWindowRatio low.dedup.length n
  else
    let all := windows low n
    let looping := all.filter fun w => belowWindowRatio w.dedup.length degenerateWindow
    all.length ≤ 2 * looping.length

end Richter.Lessons
