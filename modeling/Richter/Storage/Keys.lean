import Richter.Interactions.ObjectKeys
import Richter.Lib.Path

/-! Keys of stored objects: which ones the storage service and the lessons service accept
(`internal/svc/storage/storage.go`, `internal/svc/lessons/lessons.go`), and which ones the program
makes up itself. -/

namespace Richter.Storage

open Lib
open Interactions (allowedStudentRecordingExts isStudentRecordingKey normalizeStorageKey pathExt
  splitN)
open Lessons (trimSpace)

/-- What Unicode and identifiers come to: `norm.NFC.String`, and `pgtype.UUID.String` and
`pgtype.UUID.Scan`. -/
structure Texts where
  nfc : String → String
  uuidText : UUID → String
  scanUUID : String → Option UUID
  nfc_ascii : ∀ s : String, (∀ c ∈ s.toList, c.toNat < 128) → nfc s = s
  text_ne : ∀ id, (uuidText id).toList ≠ []
  text_hex : ∀ id, ∀ c ∈ (uuidText id).toList, c.isAlphanum ∨ c = '-'
  scan_text : ∀ id, scanUUID (uuidText id) = some id

def allowedLessonAssetExts : List String :=
  [".mp4", ".m4v", ".webm", ".mov", ".wav", ".mp3", ".ogg", ".pdf", ".png", ".jpg", ".jpeg",
    ".webp"]

inductive KeyError
  | invalidComponents
  | absoluteOrDots
  | lessonFormat
  | seedFormat
  | extension (ext : String)
  deriving DecidableEq, Repr

def KeyError.text : KeyError → String
  | .invalidComponents => "key contains invalid path components"
  | .absoluteOrDots => "key must not be absolute or contain .."
  | .lessonFormat => "key must be in lessons/<id>/<filename> format"
  | .seedFormat => "seed key must be in seed/<org-slug>/<path> format"
  | .extension ext => "file extension " ++ ext.quote ++ " is not allowed for lesson assets"

def isAbsoluteOrDots (key : List Char) : Prop := key.head? = some '/' ∨ ['.', '.'] <:+: key

instance (key : List Char) : Decidable (isAbsoluteOrDots key) :=
  inferInstanceAs (Decidable (_ ∨ _))

/-- The second part of a key of three with the given first one. -/
def secondPart (root : String) (format : KeyError) (key : List Char) : Except KeyError String :=
  if Path.clean key ≠ key then .error .invalidComponents
  else if isAbsoluteOrDots key then .error .absoluteOrDots
  else match splitN 2 key with
    | [first, second, rest] =>
        if first ≠ root.toList ∨ second = [] ∨ rest = [] then .error format
        else .ok (String.ofList second)
    | _ => .error format

/-- `strings.ToLower(path.Ext(key))`.  No letter outside ASCII is in lower case one of the letters
of the extensions. -/
def lowerExt (key : List Char) : String := String.ofList ((pathExt key).map Char.toLower)

section Validators

variable (T : Texts)

def validateLessonKey (key : String) : Except KeyError String := do
  let key := (normalizeStorageKey T.nfc key).toList
  let lessonID ← secondPart "lessons" .lessonFormat key
  if lowerExt key ∈ allowedLessonAssetExts then return lessonID
  else throw (.extension (lowerExt key))

def validateSeedKey (key : String) : Except KeyError String :=
  secondPart "seed" .seedFormat (normalizeStorageKey T.nfc key).toList

inductive VideoKeyError
  | required
  | invalidComponents
  | absoluteOrDots
  | otherLesson
  | noFilename
  | notVideo
  deriving DecidableEq, Repr

def VideoKeyError.text : VideoKeyError → String
  | .required => "video storage key is required"
  | .invalidComponents => "video storage key contains invalid path components"
  | .absoluteOrDots => "video storage key must not be absolute or contain .."
  | .otherLesson => "video storage key must belong to the lesson"
  | .noFilename => "video storage key must include a filename"
  | .notVideo => "video storage key must be under the lesson video path"

/-- The folder of a lesson's objects. -/
def lessonFolder (lessonID : String) : List Char :=
  "lessons/".toList ++ lessonID.toList ++ ['/']

def validateLessonVideoKey (lessonID key : String) : Except VideoKeyError Unit :=
  let key' := key.toList
  let rest := key'.drop (lessonFolder lessonID).length
  if trimSpace key = "" then .error .required
  else if Path.clean key' ≠ key' then .error .invalidComponents
  else if isAbsoluteOrDots key' then .error .absoluteOrDots
  else if ¬ lessonFolder lessonID <+: key' then .error .otherLesson
  else if rest = [] then .error .noFilename
  else if rest = "video".toList ∨ "video/".toList <+: rest ∨ "video.".toList <+: rest then .ok ()
  else .error .notVideo

end Validators

/-- An element of a path that leads into a folder or to a file in it, and nowhere else. -/
def Safe (e : List Char) : Prop := Path.Named e ∧ '/' ∉ e ∧ ¬ ['.', '.'] <:+: e

section Shape

variable {key : List Char} {es : List (List Char)}

theorem Safe.ne_dots {e : List Char} (h : Safe e) : e ≠ ['.', '.'] := fun hEq =>
  h.2.2 (hEq ▸ List.infix_rfl)

/-- The checks on a whole key are about each of its elements. -/
theorem clean_and_relative_iff :
    (Path.clean key = key ∧ ¬ isAbsoluteOrDots key) ↔
      key = ['.'] ∨ ∀ e ∈ Path.elements key, Safe e := by
  constructor
  · rintro ⟨hClean, hNot⟩
    obtain ⟨hRel, hDots⟩ := not_or.mp hNot
    have hInside : ∀ e ∈ Path.elements key, ¬ ['.', '.'] <:+: e := fun e he hInfix =>
      hDots (Path.dots_infix_iff.mpr ⟨e, he, hInfix⟩)
    refine ((Path.clean_eq_self_iff hRel fun hMem => ?_).mp hClean).imp_right fun hNamed e he => ?_
    · exact hInside _ hMem List.infix_rfl
    · exact ⟨hNamed e he, Path.not_mem_of_mem_elements he, hInside e he⟩
  · rintro (rfl | hSafe)
    · decide
    · have hRel : key.head? ≠ some '/' := by
        intro hSlash
        obtain ⟨rest, rfl⟩ := List.head?_eq_some_iff.mp hSlash
        rw [Path.elements_slash] at hSafe
        exact (hSafe [] List.mem_cons_self).1.1 rfl
      refine ⟨(Path.clean_eq_self_iff hRel fun hMem => ?_).mpr (.inr fun e he => (hSafe e he).1),
        not_or.mpr ⟨hRel, fun hDots => ?_⟩⟩
      · exact (hSafe _ hMem).ne_dots rfl
      · obtain ⟨e, he, hInfix⟩ := Path.dots_infix_iff.mp hDots
        exact (hSafe e he).2.2 hInfix

theorem splitN_append {a rest : List Char} (h : '/' ∉ a) (n : Nat) :
    splitN (n + 1) (a ++ '/' :: rest) = a :: splitN n rest := by
  have hAll : ∀ c ∈ a, (c ≠ '/' : Bool) = true := fun c hc => by
    simpa using fun hEq : c = '/' => h (hEq ▸ hc)
  have hDrop : (a ++ '/' :: rest).dropWhile (fun c => c ≠ '/') = '/' :: rest := by
    rw [List.dropWhile_append_of_pos hAll]
    rfl
  have hTake : (a ++ '/' :: rest).takeWhile (fun c => c ≠ '/') = a := by
    rw [List.takeWhile_append_of_pos hAll]
    simp
  rw [splitN, hDrop, hTake]

theorem splitN_of_not_mem {a : List Char} (h : '/' ∉ a) (n : Nat) : splitN n a = [a] := by
  cases n with
  | zero => rfl
  | succ n =>
    have hDrop : a.dropWhile (fun c => c ≠ '/') = [] := by
      rw [List.dropWhile_eq_nil_iff]
      intro c hc
      simpa using fun hEq : c = '/' => h (hEq ▸ hc)
    rw [splitN, hDrop]

/-- `SplitN` goes by elements until it leaves the rest together. -/
theorem splitN_join {n : Nat} (h : ∀ e ∈ es, '/' ∉ e) (hNe : es ≠ []) :
    splitN n (Path.join es) =
      if es.length ≤ n then es else es.take n ++ [Path.join (es.drop n)] := by
  induction n generalizing es with
  | zero =>
    rw [if_neg (by simpa using hNe)]
    rfl
  | succ n ih =>
    obtain ⟨a, es, rfl⟩ := List.exists_cons_of_ne_nil hNe
    rw [List.forall_mem_cons] at h
    by_cases hLast : es = []
    · subst hLast
      have hOne : Path.join [a] = a := List.intercalate_singleton
      rw [hOne, splitN_of_not_mem h.1]
      simp
    · rw [Path.join_cons a hLast, splitN_append h.1, ih h.2 hLast, List.length_cons]
      by_cases hLe : es.length ≤ n
      · rw [if_pos hLe, if_pos (by omega)]
      · rw [if_neg hLe, if_neg (by omega)]
        rfl

theorem join_ne_nil (h : ∀ e ∈ es, Safe e) (hNe : es ≠ []) : Path.join es ≠ [] := by
  obtain ⟨e, es, rfl⟩ := List.exists_cons_of_ne_nil hNe
  have hFirst : e ≠ [] := (h e List.mem_cons_self).1.1
  by_cases hLast : es = []
  · subst hLast
    rwa [Path.join, List.intercalate_singleton]
  · rw [Path.join_cons e hLast]
    simp

/-- A key is accepted when it leads, without a way back, to a place in a folder of the root, and
what is read from it is the name of that folder. -/
theorem secondPart_ok_iff {root : String} (hRoot : Safe root.toList) {format : KeyError}
    {name : String} : secondPart root format key = .ok name ↔
      ∃ segs, segs ≠ [] ∧ key = Path.join (root.toList :: name.toList :: segs) ∧
        ∀ e ∈ name.toList :: segs, Safe e := by
  constructor
  · intro h
    unfold secondPart at h
    split at h
    · cases h
    · next hClean =>
      split at h
      · cases h
      · next hRel =>
        obtain rfl | hSafe := clean_and_relative_iff.mp ⟨not_not.mp hClean, hRel⟩
        · cases h
        · have hNe := Path.elements_ne_nil key
          have hSplit := @splitN_join _ 2 (fun e he => (hSafe e he).2.1) hNe
          have hKey := Path.join_elements key
          generalize Path.elements key = es at hSafe hNe hSplit hKey
          rw [hKey] at hSplit
          rw [hSplit] at h
          rcases es with _ | ⟨first, _ | ⟨second, _ | ⟨third, rest⟩⟩⟩
          · exact absurd rfl hNe
          · cases h
          · cases h
          · have hGood : ¬ (first ≠ root.toList ∨ second = [] ∨
                Path.join (third :: rest) = []) := fun hBad =>
              absurd (h.symm.trans (if_pos hBad)) (by simp)
            have hName : second = name.toList := by
              have hOk := h.symm.trans (if_neg hGood)
              rw [Except.ok.inj hOk, String.toList_ofList]
            have hFirst : first = root.toList := not_not.mp (not_or.mp hGood).1
            subst hName hFirst
            exact ⟨third :: rest, List.cons_ne_nil _ _, hKey.symm, (List.forall_mem_cons.mp hSafe).2⟩
  · rintro ⟨segs, hNe, rfl, hSafe⟩
    have hAll : ∀ e ∈ root.toList :: name.toList :: segs, Safe e :=
      List.forall_mem_cons.mpr ⟨hRoot, hSafe⟩
    have hElements := Path.elements_join (fun e he => (hAll e he).2.1) (List.cons_ne_nil _ _)
    obtain ⟨hClean, hRel⟩ := clean_and_relative_iff.mpr (.inr (hElements ▸ hAll))
    have hSplit := @splitN_join _ 2 (fun e he => (hAll e he).2.1) (List.cons_ne_nil _ _)
    have hLength := List.length_pos_iff.mpr hNe
    rw [if_neg (by simp only [List.length_cons]; omega)] at hSplit
    rw [secondPart, if_neg (not_not.mpr hClean), if_neg hRel, hSplit]
    have hRest : Path.join segs ≠ [] :=
      join_ne_nil (fun e he => hSafe e (List.mem_cons_of_mem _ he)) hNe
    have hName : name.toList ≠ [] := (hSafe _ List.mem_cons_self).1.1
    simp [hRest, hName]

end Shape

section Accepted

variable {T : Texts} {key : String} {name : String} {segs : List (List Char)}

/-- The key names a place in the folder of that name in the root. -/
def Within (root name : String) (segs : List (List Char)) (key : List Char) : Prop :=
  segs ≠ [] ∧ key = Path.join (root.toList :: name.toList :: segs) ∧
    ∀ e ∈ name.toList :: segs, Safe e

theorem safe_lessons : Safe "lessons".toList := by
  refine ⟨by decide, by decide, by decide⟩

theorem safe_seed : Safe "seed".toList := by
  refine ⟨by decide, by decide, by decide⟩

theorem validateSeedKey_ok_iff :
    validateSeedKey T key = .ok name ↔ ∃ segs, Within "seed" name segs (T.nfc key).toList :=
  secondPart_ok_iff safe_seed

/-- The keys of lessons that are accepted are the paths into the lesson's folder to a file with one
of the extensions: no empty element, no `.`, no two dots, and no other folder. -/
theorem validateLessonKey_ok_iff :
    validateLessonKey T key = .ok name ↔
      (∃ segs, Within "lessons" name segs (T.nfc key).toList) ∧
        lowerExt (T.nfc key).toList ∈ allowedLessonAssetExts := by
  unfold validateLessonKey normalizeStorageKey Within
  dsimp only
  rw [← @secondPart_ok_iff _ _ safe_lessons .lessonFormat]
  cases secondPart "lessons" .lessonFormat (T.nfc key).toList with
  | error e => simp [Except.bind, bind]
  | ok lessonID =>
    by_cases hExt : lowerExt (T.nfc key).toList ∈ allowedLessonAssetExts
    · simp [bind, Except.bind, hExt, pure, Except.pure]
    · simp [bind, Except.bind, hExt, throw, throwThe, MonadExceptOf.throw]

/-- Among these, the recordings are those in a folder of their own with an extension of sound. -/
theorem isStudentRecordingKey_iff (h : Within "lessons" name segs (T.nfc key).toList) :
    isStudentRecordingKey T.nfc key = true ↔ ∃ rest, rest ≠ [] ∧
      segs = "student-recordings".toList :: rest ∧
        lowerExt (Path.join rest) ∈ allowedStudentRecordingExts := by
  obtain ⟨hNe, hKey, hSafe⟩ := h
  have hAll : ∀ e ∈ "lessons".toList :: name.toList :: segs, '/' ∉ e := fun e he =>
    (List.forall_mem_cons.mpr ⟨safe_lessons, hSafe⟩ e he).2.1
  have hSplit := @splitN_join _ 3 hAll (List.cons_ne_nil _ _)
  obtain ⟨folder, rest, rfl⟩ := List.exists_cons_of_ne_nil hNe
  unfold isStudentRecordingKey normalizeStorageKey
  rw [hKey, hSplit]
  rcases rest with _ | ⟨e, rest⟩
  · simp
  · rw [if_neg (by simp)]
    show (decide ("lessons".toList = "lessons".toList) &&
      decide (folder = "student-recordings".toList) &&
        decide (lowerExt (Path.join (e :: rest)) ∈ allowedStudentRecordingExts)) = true ↔ _
    rw [decide_eq_true rfl, Bool.true_and, Bool.and_eq_true, decide_eq_true_iff,
      decide_eq_true_iff]
    constructor
    · rintro ⟨rfl, hExt⟩
      exact ⟨e :: rest, List.cons_ne_nil _ _, rfl, hExt⟩
    · rintro ⟨rest', -, hEq, hExt⟩
      obtain ⟨rfl, rfl⟩ := List.cons.inj hEq
      exact ⟨rfl, hExt⟩

theorem validateLessonVideoKey_ok_iff {lessonID key : String} :
    validateLessonVideoKey lessonID key = .ok () ↔
      trimSpace key ≠ "" ∧ (∀ e ∈ Path.elements key.toList, Safe e) ∧
        ∃ rest, rest ≠ [] ∧ key.toList = lessonFolder lessonID ++ rest ∧
          (rest = "video".toList ∨ "video/".toList <+: rest ∨ "video.".toList <+: rest) := by
  unfold validateLessonVideoKey
  dsimp only
  constructor
  · intro h
    split at h
    · cases h
    next hBlank =>
    split at h
    · cases h
    next hClean =>
    split at h
    · cases h
    next hRel =>
    split at h
    · cases h
    next hFolder =>
    obtain ⟨rest, hKey⟩ := not_not.mp hFolder
    rw [← hKey, List.drop_left] at h
    split at h
    · cases h
    next hNe =>
    split at h
    · next hVideo =>
      refine ⟨hBlank, ?_, rest, hNe, hKey.symm, hVideo⟩
      have hClean : Path.clean key.toList = key.toList := not_not.mp hClean
      obtain hDot | hSafe := clean_and_relative_iff.mp ⟨hClean, hRel⟩
      swap
      · exact hSafe
      have hSlash : '/' ∈ lessonFolder lessonID ++ rest :=
        List.mem_append_left _ (List.mem_append_right _ (List.mem_singleton_self _))
      rw [hKey.trans hDot] at hSlash
      exact absurd (List.mem_singleton.mp hSlash) (by decide)
    · cases h
  · rintro ⟨hBlank, hSafe, rest, hNe, hKey, hVideo⟩
    obtain ⟨hClean, hRel⟩ := clean_and_relative_iff.mpr (.inr hSafe)
    have hDrop : key.toList.drop (lessonFolder lessonID).length = rest := by
      rw [hKey, List.drop_left]
    have hFolder : lessonFolder lessonID <+: key.toList := ⟨rest, hKey.symm⟩
    rw [if_neg hBlank, if_neg (not_not.mpr hClean), if_neg hRel, if_neg (not_not.mpr hFolder),
      hDrop, if_neg hNe, if_pos hVideo]

end Accepted

section Made

/-- Letters, digits and dashes, as in a random identifier. -/
def Token (s : List Char) : Prop := s ≠ [] ∧ ∀ c ∈ s, c.isAlphanum = true ∨ c = '-'

theorem token_iff {s : List Char} :
    Token s ↔ s ≠ [] ∧ s.all (fun c => c.isAlphanum || c = '-') = true := by
  simp [Token]

instance (s : List Char) : Decidable (Token s) := decidable_of_iff _ token_iff.symm

inductive Folder
  | video
  | aiAudio
  | aiAudioPreview
  | studentRecordings
  deriving DecidableEq, Repr

def Folder.text : Folder → String
  | .video => "video"
  | .aiAudio => "ai-audio"
  | .aiAudioPreview => "ai-audio-preview"
  | .studentRecordings => "student-recordings"

/-- What an object is made from: the video file that is uploaded (`video-upload.tsx`,
`QuickCreateLessonDialog.tsx`), the speech of a listening (`synthesiseAndEmbed`) or of its preview
(`PreviewListeningAudio`), or a recording of the given type (`audio-recorder.tsx`). -/
inductive Origin
  | upload (fileName : String)
  | speech
  | preview
  | recording (blobType : String)
  deriving DecidableEq, Repr

def Origin.folder : Origin → Folder
  | .upload _ => .video
  | .speech => .aiAudio
  | .preview => .aiAudioPreview
  | .recording _ => .studentRecordings

/-- `name.split(".").pop() ?? "mp4"` of an uploaded file, and what the others are given. -/
def Origin.ext : Origin → String
  | .upload fileName =>
      ((fileName.toList.splitOn '.').getLast?.map String.ofList).getD "mp4"
  | .speech | .preview => "wav"
  | .recording blobType => if "ogg".toList <:+: blobType.toList then "ogg" else "webm"

/-- The extension, in lower case, is one that the storage service accepts for a lesson. -/
def Origin.Accepted (o : Origin) : Prop :=
  String.ofList ('.' :: o.ext.toList.map Char.toLower) ∈ allowedLessonAssetExts

instance (o : Origin) : Decidable o.Accepted := inferInstanceAs (Decidable (_ ∈ _))

/-- An object that the program makes up a key for, with a random name.  The extension of an uploaded
file is of letters, digits and dashes. -/
structure Made where
  origin : Origin
  name : String
  name_token : Token name.toList
  ext_token : Token origin.ext.toList

def Made.folder (o : Made) : Folder := o.origin.folder

def Made.ext (o : Made) : String := o.origin.ext

def Made.key (lessonID : String) (o : Made) : String :=
  "lessons/" ++ lessonID ++ "/" ++ o.folder.text ++ "/" ++ o.name ++ "." ++ o.ext

def Made.file (o : Made) : List Char := o.name.toList ++ '.' :: o.ext.toList

variable {T : Texts} {o : Made} {lessonID : String}

theorem Token.not_mem {s : List Char} (h : Token s) {c : Char} (hc : c.isAlphanum = false)
    (hDash : c ≠ '-') : c ∉ s := fun hMem => (h.2 c hMem).elim (by simp [hc]) hDash

theorem Token.safe {s : List Char} (h : Token s) : Safe s := by
  have hDot : '.' ∉ s := h.not_mem (by decide) (by decide)
  refine ⟨⟨h.1, ?_⟩, h.not_mem (by decide) (by decide), fun hInfix => ?_⟩
  · rintro rfl
    exact hDot List.mem_cons_self
  · exact hDot (hInfix.subset List.mem_cons_self)

theorem lt_of_isAlphanum {c : Char} (h : c.isAlphanum = true) : c.toNat < 128 := by
  have hRanges : (decide (65 ≤ c.val ∧ c.val ≤ 90) ||
      decide (97 ≤ c.val) && decide (c.val ≤ 122) ||
        decide (48 ≤ c.val) && decide (c.val ≤ 57)) = true := h
  simp only [Bool.or_eq_true, Bool.and_eq_true, decide_eq_true_eq, UInt32.le_iff_toNat_le]
    at hRanges
  rcases hRanges with (⟨-, h⟩ | ⟨-, h⟩) | ⟨-, h⟩ <;> exact lt_of_le_of_lt h (by decide)

theorem Token.lt {s : List Char} (h : Token s) : ∀ c ∈ s, c.toNat < 128 := fun c hc => by
  rcases h.2 c hc with hAlphanum | rfl
  · exact lt_of_isAlphanum hAlphanum
  · decide

theorem Made.file_safe (o : Made) : Safe o.file := by
  have hName : '.' ∉ o.name.toList := o.name_token.not_mem (by decide) (by decide)
  have hExt : '.' ∉ o.ext.toList := o.ext_token.not_mem (by decide) (by decide)
  refine ⟨⟨by simp [file], fun hEq => ?_⟩, fun hSlash => ?_, fun hDots => ?_⟩
  · have hLength := congrArg List.length hEq
    have hPos := List.length_pos_iff.mpr o.name_token.1
    simp only [file, List.length_append, List.length_cons, List.length_nil] at hLength
    omega
  · rcases List.mem_append.mp hSlash with hMem | hMem
    · exact o.name_token.not_mem (by decide) (by decide) hMem
    · rcases List.mem_cons.mp hMem with hEq | hMem
      · exact absurd hEq (by decide)
      · exact o.ext_token.not_mem (by decide) (by decide) hMem
  · have hCount := hDots.sublist.count_le '.'
    rw [file, List.count_append, List.count_eq_zero_of_not_mem hName] at hCount
    simp only [List.count_cons_self, List.count_nil, List.count_eq_zero_of_not_mem hExt] at hCount
    omega

theorem pathExt_append {s ext : List Char} (h : Token ext) :
    pathExt (s ++ '.' :: ext) = '.' :: ext := by
  have hAll : ∀ c ∈ ext.reverse, (c ≠ '.' && c ≠ '/' : Bool) = true := fun c hc => by
    have hMem := List.mem_reverse.mp hc
    have hDot : c ≠ '.' := fun hEq => h.not_mem (by decide) (by decide) (hEq ▸ hMem)
    have hSlash : c ≠ '/' := fun hEq => h.not_mem (by decide) (by decide) (hEq ▸ hMem)
    simp [hDot, hSlash]
  have hReverse : (s ++ '.' :: ext).reverse = ext.reverse ++ '.' :: s.reverse := by simp
  have hTake : (ext.reverse ++ '.' :: s.reverse).takeWhile (fun c => c ≠ '.' && c ≠ '/') =
      ext.reverse := by
    rw [List.takeWhile_append_of_pos hAll]
    simp
  simp only [pathExt, hReverse, hTake, List.drop_left, List.head?_cons, if_true,
    List.reverse_reverse]

theorem Folder.token (f : Folder) : Token f.text.toList := by
  cases f <;> decide

theorem Made.toList_key (lessonID : String) (o : Made) : (o.key lessonID).toList =
    Path.join ["lessons".toList, lessonID.toList, o.folder.text.toList, o.file] := by
  have hRoot : "lessons/".toList = "lessons".toList ++ ['/'] := by decide
  have hSlash : "/".toList = ['/'] := by decide
  have hDot : ".".toList = ['.'] := by decide
  have hFile : Path.join [o.file] = o.file := List.intercalate_singleton
  rw [Path.join_cons _ (List.cons_ne_nil _ _), Path.join_cons _ (List.cons_ne_nil _ _),
    Path.join_cons _ (List.cons_ne_nil _ _), hFile, key]
  simp only [String.toList_append, hRoot, hSlash, hDot, file, List.append_assoc, List.cons_append,
    List.nil_append]

theorem Made.within (hID : Token lessonID.toList) (o : Made) :
    Within "lessons" lessonID [o.folder.text.toList, o.file] (o.key lessonID).toList := by
  refine ⟨List.cons_ne_nil _ _, o.toList_key lessonID, ?_⟩
  simp only [List.forall_mem_cons]
  exact ⟨hID.safe, o.folder.token.safe, o.file_safe, fun e he => absurd he List.not_mem_nil⟩

theorem lowerExt_append {s ext : List Char} (h : Token ext) :
    lowerExt (s ++ '.' :: ext) = String.ofList ('.' :: ext.map Char.toLower) := by
  rw [lowerExt, pathExt_append h]
  rfl

theorem Made.nfc_key (hID : Token lessonID.toList) (o : Made) :
    T.nfc (o.key lessonID) = o.key lessonID := by
  refine T.nfc_ascii _ fun c hc => ?_
  have hLiteral : ∀ s ∈ ["lessons/", "/", "."],
      s.toList.all (fun c => decide (c.toNat < 128)) = true := by decide
  have hASCII : ∀ s ∈ ["lessons/", "/", "."], ∀ c ∈ s.toList, c.toNat < 128 := fun s hs c hc =>
    of_decide_eq_true (List.all_eq_true.mp (hLiteral s hs) c hc)
  simp only [List.forall_mem_cons] at hASCII
  obtain ⟨hRoot, hSlash, hDot, -⟩ := hASCII
  simp only [key, String.toList_append, List.mem_append] at hc
  rcases hc with ((((((hc | hc) | hc) | hc) | hc) | hc) | hc) | hc
  · exact hRoot c hc
  · exact hID.lt c hc
  · exact hSlash c hc
  · exact o.folder.token.lt c hc
  · exact hSlash c hc
  · exact o.name_token.lt c hc
  · exact hDot c hc
  · exact o.ext_token.lt c hc

theorem Made.lowerExt_key (lessonID : String) (o : Made) :
    lowerExt (o.key lessonID).toList = String.ofList ('.' :: o.ext.toList.map Char.toLower) := by
  have hDot : ".".toList = ['.'] := by decide
  rw [key, String.toList_append, String.toList_append, hDot, List.append_assoc]
  exact lowerExt_append o.ext_token

theorem Origin.ext_recording (blobType : String) :
    (Origin.recording blobType).ext = "ogg" ∨ (Origin.recording blobType).ext = "webm" := by
  by_cases hOgg : "ogg".toList <:+: blobType.toList
  · exact .inl (if_pos hOgg)
  · exact .inr (if_neg hOgg)

/-- What is not uploaded is always of an accepted extension. -/
theorem Origin.accepted_of_not_upload {o : Origin} (h : o.folder ≠ .video) : o.Accepted := by
  cases o with
  | upload fileName => exact absurd rfl h
  | speech | preview => decide
  | recording blobType =>
    unfold Accepted
    rcases Origin.ext_recording blobType with hExt | hExt <;> rw [hExt] <;> decide

theorem isStudentRecordingKey_made (hID : Token lessonID.toList) (o : Made) :
    isStudentRecordingKey T.nfc (o.key lessonID) = true ↔ o.folder = .studentRecordings := by
  have hWithin := o.within hID
  rw [← o.nfc_key (T := T) hID] at hWithin
  rw [isStudentRecordingKey_iff hWithin]
  constructor
  · rintro ⟨rest, -, hEq, -⟩
    have hFolder := (List.cons.inj hEq).1
    cases hCase : o.folder with
    | studentRecordings => rfl
    | video | aiAudio | aiAudioPreview =>
      rw [hCase] at hFolder
      exact absurd hFolder (by decide)
  · intro hFolder
    refine ⟨[o.file], List.cons_ne_nil _ _, by rw [hFolder]; rfl, ?_⟩
    have hFile : Path.join [o.file] = o.file := List.intercalate_singleton
    rw [hFile, Made.file, Made.ext, lowerExt_append o.ext_token]
    cases hOrigin : o.origin with
    | recording blobType =>
      rcases Origin.ext_recording blobType with hExt | hExt <;>
        rw [hExt] <;> decide
    | upload | speech | preview =>
      rw [Made.folder, hOrigin] at hFolder
      cases hFolder

theorem trimSpace_ne_empty {s : String} {c : Char} (hMem : c ∈ s.toList)
    (hSpace : Lessons.isSpace c = false) : trimSpace s ≠ "" := by
  intro hEmpty
  have hTrim := Lessons.toList_trimSpace s
  rw [hEmpty, Lib.trim] at hTrim
  have hFront := List.rdropWhile_eq_nil_iff.mp hTrim.symm
  have hNil : s.toList.dropWhile Lessons.isSpace = [] := by
    cases hRest : s.toList.dropWhile Lessons.isSpace with
    | nil => rfl
    | cons a rest =>
      have hFirst := List.head?_dropWhile_not Lessons.isSpace s.toList
      rw [hRest] at hFirst hFront
      have hNot : Lessons.isSpace a = false := hFirst
      rw [hFront a List.mem_cons_self] at hNot
      cases hNot
  have hAll := List.dropWhile_eq_nil_iff.mp hNil c hMem
  rw [hSpace] at hAll
  cases hAll

/-- A path into the folder of a lesson, element by element. -/
theorem lessonFolder_append (lessonID : String) (rest : List Char) :
    lessonFolder lessonID ++ rest = "lessons".toList ++ '/' :: (lessonID.toList ++ '/' :: rest) := by
  have hRoot : "lessons/".toList = "lessons".toList ++ ['/'] := by decide
  have hParts : ∀ r id : List Char, r ++ ['/'] ++ id ++ ['/'] ++ rest =
      r ++ '/' :: (id ++ '/' :: rest) := fun r id => by simp
  exact (congrArg (fun r => r ++ lessonID.toList ++ ['/'] ++ rest) hRoot).trans (hParts _ _)

theorem Made.toList_key_eq (lessonID : String) (o : Made) : (o.key lessonID).toList =
    lessonFolder lessonID ++ (o.folder.text.toList ++ '/' :: o.file) := by
  have hFile : Path.join [o.file] = o.file := List.intercalate_singleton
  rw [o.toList_key, Path.join_cons _ (List.cons_ne_nil _ _),
    Path.join_cons _ (List.cons_ne_nil _ _), Path.join_cons _ (List.cons_ne_nil _ _), hFile,
    lessonFolder_append]

/-- Only the videos are in the folder for them, or beside it under its name. -/
theorem Made.folder_of_video {file : List Char} {f : Folder}
    (h : f.text.toList ++ '/' :: file = "video".toList ∨
      "video/".toList <+: f.text.toList ++ '/' :: file ∨
        "video.".toList <+: f.text.toList ++ '/' :: file) : f = .video := by
  have hHead : (f.text.toList ++ '/' :: file).head? = some 'v' := by
    rcases h with h | h | h
    · rw [h]
      decide
    · obtain ⟨rest, hRest⟩ := h
      rw [← hRest, List.head?_append_of_ne_nil _ (by decide)]
      decide
    · obtain ⟨rest, hRest⟩ := h
      rw [← hRest, List.head?_append_of_ne_nil _ (by decide)]
      decide
  rw [List.head?_append_of_ne_nil _ f.token.1] at hHead
  cases f with
  | video => rfl
  | aiAudio | aiAudioPreview | studentRecordings => exact absurd hHead (by decide)

/-- Of the keys that the program makes up, those for videos are taken for videos of their lesson. -/
theorem validateLessonVideoKey_made (hID : Token lessonID.toList) {other : String}
    (hOther : Token other.toList) (o : Made) :
    validateLessonVideoKey other (o.key lessonID) = .ok () ↔
      other = lessonID ∧ o.folder = .video := by
  have hWithin := o.within hID
  have hSlash : '/' ∈ (o.key lessonID).toList := by
    rw [hWithin.2.1, Path.join_cons _ (List.cons_ne_nil _ _)]
    exact List.mem_append_right _ List.mem_cons_self
  have hSafe : ∀ e ∈ Path.elements (o.key lessonID).toList, Safe e := by
    have hAll := List.forall_mem_cons.mpr ⟨safe_lessons, hWithin.2.2⟩
    rwa [hWithin.2.1, Path.elements_join (fun e he => (hAll e he).2.1) (List.cons_ne_nil _ _)]
  rw [validateLessonVideoKey_ok_iff]
  constructor
  · rintro ⟨-, -, rest, -, hRest, hVideo⟩
    rw [o.toList_key_eq, lessonFolder_append, lessonFolder_append] at hRest
    obtain ⟨-, hRest⟩ := Path.append_slash_inj safe_lessons.2.1 safe_lessons.2.1 hRest
    obtain ⟨hSame, rfl⟩ := Path.append_slash_inj (hID.not_mem (by decide) (by decide))
      (hOther.not_mem (by decide) (by decide)) hRest
    exact ⟨String.toList_inj.mp hSame.symm, Made.folder_of_video hVideo⟩
  · rintro ⟨rfl, hFolder⟩
    refine ⟨trimSpace_ne_empty hSlash (by decide), hSafe, _, ?_, o.toList_key_eq other,
      .inr (.inl ?_)⟩
    · exact List.append_ne_nil_of_left_ne_nil o.folder.token.1 _
    · have hLeads : "video/".toList = "video".toList ++ ['/'] := by decide
      rw [hFolder, hLeads]
      exact ⟨o.file, by simp [Folder.text]⟩

theorem token_uuidText (T : Texts) (id : UUID) : Token (T.uuidText id).toList :=
  ⟨T.text_ne id, T.text_hex id⟩

theorem uuidText_inj {a b : UUID} : T.uuidText a = T.uuidText b ↔ a = b := by
  refine ⟨fun h => ?_, fun h => h ▸ rfl⟩
  have hScan := T.scan_text a
  rw [h, T.scan_text b] at hScan
  exact (Option.some.inj hScan).symm

/-- A key that the program makes up for an object of a lesson is accepted, for this lesson, just when
its extension is, and that of what is not an uploaded video always is.  The key is taken for a
recording of a student just when it is one, and for a video of the lesson and of no other one just
when it is one. -/
theorem made_key_accepted (T : Texts) (lesson : UUID) (o : Made) :
    ((validateLessonKey T (o.key (T.uuidText lesson))).toOption.bind T.scanUUID = some lesson ↔
      o.origin.Accepted) ∧
    (o.folder ≠ .video → o.origin.Accepted) ∧
    (isStudentRecordingKey T.nfc (o.key (T.uuidText lesson)) = true ↔
      o.folder = .studentRecordings) ∧
    ∀ other, validateLessonVideoKey (T.uuidText other) (o.key (T.uuidText lesson)) = .ok () ↔
      other = lesson ∧ o.folder = .video := by
  have hID := token_uuidText T lesson
  refine ⟨?_, Origin.accepted_of_not_upload, isStudentRecordingKey_made hID o, fun other => ?_⟩
  · have hExt : lowerExt (T.nfc (o.key (T.uuidText lesson))).toList =
        String.ofList ('.' :: o.ext.toList.map Char.toLower) := by
      rw [o.nfc_key hID, o.lowerExt_key]
    constructor
    · intro hScan
      cases hValid : validateLessonKey T (o.key (T.uuidText lesson)) with
      | error e =>
        rw [hValid] at hScan
        cases hScan
      | ok name =>
        have hIn := (validateLessonKey_ok_iff.mp hValid).2
        rwa [hExt] at hIn
    · intro hAccepted
      have hWithin := o.within hID
      rw [← o.nfc_key (T := T) hID] at hWithin
      rw [validateLessonKey_ok_iff.mpr ⟨⟨_, hWithin⟩, hExt ▸ hAccepted⟩]
      exact T.scan_text lesson
  · rw [validateLessonVideoKey_made hID (token_uuidText T other), uuidText_inj]

/-- Identifiers as rows of one letter. -/
def rowTexts : Texts where
  nfc := id
  uuidText id := String.ofList (List.replicate (id + 1) 'a')
  scanUUID s := if s = "" then none else some (s.toList.length - 1)
  nfc_ascii _ _ := rfl
  text_ne id := by simp
  text_hex id c hc := by
    rw [String.toList_ofList] at hc
    rw [List.eq_of_mem_replicate hc]
    decide
  scan_text id := by
    rw [if_neg]
    · simp
    · intro hEmpty
      have hLength := congrArg (fun s : String => s.toList.length) hEmpty
      simp at hLength

/-- The upload of a video file. -/
def videoUpload (fileName : String) (h : Token (Origin.upload fileName).ext.toList) : Made :=
  ⟨.upload fileName, "b", by decide, h⟩

theorem made_key_accepted_uploads :
    (validateLessonKey rowTexts ((videoUpload "week 1.MP4" (by decide)).key "aa")).toOption.bind
        rowTexts.scanUUID = some 1 ∧
      (validateLessonKey rowTexts ((videoUpload "week 1.mkv" (by decide)).key "aa")).toOption.bind
        rowTexts.scanUUID ≠ some 1 :=
  ⟨(made_key_accepted rowTexts 1 _).1.mpr (by decide),
    fun h => absurd ((made_key_accepted rowTexts 1 _).1.mp h) (by decide)⟩

end Made

end Richter.Storage
