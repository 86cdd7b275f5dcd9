import Richter.Dashboard.RecentAccess

/-! The recorder of visited pages (`recent-access-recorder.tsx`) in a browser: each visit reads the
cookie, puts its page in front and writes the cookie, as far as there is room. -/

namespace Richter.Dashboard

open Lib Utf16

/-- The cookies that a page can see, by name and value, in the order of `document.cookie`. -/
abbrev Jar := List (Utf16 × Utf16)

def cookiePart (cookie : Utf16 × Utf16) : Utf16 := cookie.1 ++ 0x3d :: cookie.2

/-- `document.cookie`. -/
def documentCookie (jar : Jar) : Utf16 := [0x3b, 0x20].intercalate (jar.map cookiePart)

/-- `.split("; ")`. -/
def splitParts : Utf16 → List Utf16
  | [] => [[]]
  | [u] => [[u]]
  | u :: v :: rest =>
    if u = 0x3b ∧ v = 0x20 then [] :: splitParts rest
    else (splitParts (v :: rest)).modifyHead (u :: ·)

def readCookie (text name : Utf16) : Option Utf16 :=
  ((splitParts text).find? fun part => (name ++ [0x3d]).isPrefixOf part).map
    fun part => part.drop (name.length + 1)

/-- `RECENT_ACCESS_COOKIE`. -/
def recentAccessCookie : Utf16 := units "dyadia_recent_access"

theorem recentAccessCookie_clean : 0x3b ∉ recentAccessCookie ∧ 0x3d ∉ recentAccessCookie := by
  decide

/-- The assignment of a cookie to `document.cookie`. -/
def setCookie (jar : Jar) (name value : Utf16) : Jar :=
  if name ∈ jar.map Prod.fst then jar.map fun c => if c.1 = name then (name, value) else c
  else jar ++ [(name, value)]

/-- What browsers let cookies consist of: neither has a semicolon, and the name has no equals
sign. -/
def CleanCookie (cookie : Utf16 × Utf16) : Prop :=
  0x3b ∉ cookie.1 ∧ 0x3d ∉ cookie.1 ∧ 0x3b ∉ cookie.2

instance (cookie : Utf16 × Utf16) : Decidable (CleanCookie cookie) :=
  inferInstanceAs (Decidable (_ ∧ _ ∧ _))

section Jars

variable {jar : Jar} {name value : Utf16}

theorem splitParts_append {part : Utf16} (h : 0x3b ∉ part) (rest : Utf16) :
    splitParts (part ++ 0x3b :: 0x20 :: rest) = part :: splitParts rest := by
  induction part with
  | nil => simp [splitParts]
  | cons u part ih =>
    rw [List.mem_cons, not_or] at h
    have hu : ¬ u = 0x3b := fun hEq => h.1 hEq.symm
    have hRest := ih h.2
    cases part with
    | nil => simp [splitParts, hu]
    | cons v part =>
      rw [List.cons_append] at hRest
      simp [splitParts, hu, hRest]

theorem splitParts_part {part : Utf16} (h : 0x3b ∉ part) : splitParts part = [part] := by
  induction part with
  | nil => rfl
  | cons u part ih =>
    rw [List.mem_cons, not_or] at h
    have hu : ¬ u = 0x3b := fun hEq => h.1 hEq.symm
    have hRest := ih h.2
    cases part with
    | nil => rfl
    | cons v part => simp [splitParts, hu, hRest]

theorem CleanCookie.part {cookie : Utf16 × Utf16} (h : CleanCookie cookie) :
    0x3b ∉ cookiePart cookie := by
  simp only [cookiePart, List.mem_append, List.mem_cons, not_or]
  exact ⟨h.1, by decide, h.2.2⟩

/-- The parts of `document.cookie` are the cookies. -/
theorem splitParts_documentCookie (h : ∀ c ∈ jar, CleanCookie c) (hSome : jar ≠ []) :
    splitParts (documentCookie jar) = jar.map cookiePart := by
  induction jar with
  | nil => exact absurd rfl hSome
  | cons c jar ih =>
    rw [List.forall_mem_cons] at h
    cases jar with
    | nil => simpa [documentCookie] using splitParts_part h.1.part
    | cons d jar =>
      have hRest := ih h.2 (by simp)
      have hText : documentCookie (c :: d :: jar) =
          cookiePart c ++ 0x3b :: 0x20 :: documentCookie (d :: jar) := by
        simp [documentCookie, List.intercalate]
      rw [hText, splitParts_append h.1.part, hRest, List.map_cons (l := d :: jar)]

theorem isPrefixOf_cookiePart {c : Utf16 × Utf16} (hName : 0x3d ∉ name) (hc : CleanCookie c) :
    (name ++ [0x3d]).isPrefixOf (cookiePart c) = decide (c.1 = name) := by
  rw [Bool.eq_iff_iff, List.isPrefixOf_iff_prefix, decide_eq_true_eq]
  constructor
  · rintro ⟨rest, hRest⟩
    have hEq : name ++ 0x3d :: rest = c.1 ++ 0x3d :: c.2 := by simpa [cookiePart] using hRest
    exact ((append_separator_inj hName hc.2.1).mp hEq).1.symm
  · rintro rfl
    exact ⟨c.2, by simp [cookiePart]⟩

theorem find?_cookiePart (h : ∀ c ∈ jar, CleanCookie c) (hName : 0x3d ∉ name) :
    jar.find? ((fun part => (name ++ [0x3d]).isPrefixOf part) ∘ cookiePart) =
      jar.find? fun c => c.1 = name := by
  induction jar with
  | nil => rfl
  | cons c jar ih =>
    rw [List.forall_mem_cons] at h
    rw [List.find?_cons, List.find?_cons, ih h.2, Function.comp_apply,
      isPrefixOf_cookiePart hName h.1]

/-- The cookie of the name is found among the others. -/
theorem readCookie_documentCookie (h : ∀ c ∈ jar, CleanCookie c) (hName : 0x3d ∉ name) :
    readCookie (documentCookie jar) name = (jar.find? fun c => c.1 = name).map Prod.snd := by
  by_cases hSome : jar = []
  · subst hSome
    have hNot : (name ++ [0x3d]).isPrefixOf ([] : Utf16) = false := by
      cases name <;> rfl
    simp [readCookie, documentCookie, splitParts, hNot]
  · rw [readCookie, splitParts_documentCookie h hSome, List.find?_map]
    rw [find?_cookiePart h hName]
    cases hc : jar.find? fun c => c.1 = name with
    | none => rfl
    | some c =>
      have hKey : c.1 = name := by simpa using List.find?_some hc
      simp [cookiePart, ← hKey]

theorem find_setCookie : (setCookie jar name value).find? (fun c => c.1 = name) =
    some (name, value) := by
  unfold setCookie
  split
  · next hIn =>
    induction jar with
    | nil => cases hIn
    | cons c jar ih =>
      by_cases hc : c.1 = name
      · simp [hc]
      · have hRest : name ∈ jar.map Prod.fst := by
          rw [List.map_cons, List.mem_cons] at hIn
          exact hIn.resolve_left fun hEq => hc hEq.symm
        simp [hc, ih hRest]
  · next hOut =>
    have hNone : jar.find? (fun c => c.1 = name) = none := by
      rw [List.find?_eq_none]
      intro c hc hKey
      exact hOut (List.mem_map.mpr ⟨c, hc, by simpa using hKey⟩)
    simp [List.find?_append, hNone]

theorem find_setCookie_ne {other : Utf16} (hne : other ≠ name) :
    (setCookie jar other value).find? (fun c => c.1 = name) = jar.find? fun c => c.1 = name := by
  unfold setCookie
  split
  · clear * - hne
    induction jar with
    | nil => rfl
    | cons c jar ih =>
      by_cases hc : c.1 = other
      · have hName : c.1 ≠ name := fun hEq => hne (hc.symm.trans hEq)
        simpa [hc, hne, hName] using ih
      · rw [List.map_cons, if_neg hc, List.find?_cons, List.find?_cons, ih]
  · simp [List.find?_append, hne]

theorem mem_setCookie {c : Utf16 × Utf16} (h : c ∈ setCookie jar name value) :
    c ∈ jar ∨ c = (name, value) := by
  unfold setCookie at h
  split at h
  · obtain ⟨d, hd, rfl⟩ := List.mem_map.mp h
    split
    · exact .inr rfl
    · exact .inl hd
  · simpa using h

/-- Nothing in an escaped text ends a cookie. -/
theorem semicolon_notMem_escapeChar (c : Char) : 0x3b ∉ escapeChar c := by
  have hDigit : ∀ n < 16, hexDigit 0x41 n ≠ 0x3b := by decide
  unfold escapeChar
  split
  · next hUnreserved =>
    have hOther : c.toNat < 0x80 ∧ c.toNat ≠ 0x3b := by
      simp only [isUnreserved, Bool.or_eq_true, Bool.and_eq_true, decide_eq_true_eq,
        List.contains_eq_mem, List.mem_cons, List.not_mem_nil, or_false] at hUnreserved
      omega
    have hUnits : charUnits c = [UInt16.ofNat c.toNat] := if_pos (by omega)
    rw [hUnits, List.mem_singleton]
    intro hEq
    have hNat := congrArg UInt16.toNat hEq
    rw [UInt16.toNat_ofNat'] at hNat
    change 59 = _ at hNat
    omega
  · intro hIn
    obtain ⟨b, -, hb⟩ := List.mem_flatMap.mp hIn
    have hBound := b.toNat_lt
    simp only [escapeByte, List.mem_cons, List.not_mem_nil, or_false] at hb
    obtain hb | hb | hb := hb
    · cases hb
    · exact hDigit _ (by omega) hb.symm
    · exact hDigit _ (by omega) hb.symm

theorem semicolon_notMem_encodeURIComponent {us text : Utf16}
    (h : encodeURIComponent us = some text) : 0x3b ∉ text := by
  obtain ⟨cs, -, rfl⟩ := Option.map_eq_some_iff.mp h
  intro hIn
  obtain ⟨c, -, hc⟩ := List.mem_flatMap.mp hIn
  exact semicolon_notMem_escapeChar c hc

end Jars

/-- The properties of a recorder, the path that it finds itself at, and the time. -/
structure Visit where
  userId : Utf16
  id : Utf16
  type : RecentAccessType
  area : Option RecentAccessArea
  orgSlug : Option Utf16
  title : Utf16
  subtitle : Option Utf16
  href : Utf16
  exactPath : Bool
  pathname : Utf16
  now : TimeValue

/-- The entry that a visit records. -/
def Visit.entry (visit : Visit) : RecentAccessEntry where
  userId := visit.userId
  id := visit.id
  type := visit.type
  area := visit.area.getD (defaultRecentAccessArea visit.type)
  orgSlug := visit.orgSlug
  title := visit.title
  href := visit.href
  accessedAt := (visit.now.val : ℚ)
  subtitle := visit.subtitle.bind orUndefined

/-- The visit is to another page than the recorder's. -/
def Visit.isElsewhere (visit : Visit) : Bool := visit.exactPath && visit.pathname != visit.href

/-- What happens to the cookies: a visit, a cookie of another name, and the end of a cookie. -/
inductive JarChange
  | visit (visit : Visit)
  | other (name value : Utf16)
  | expire (name : Utf16)

section Recorder

variable (numbers : Numbers)

/-- The entries that a page reads. -/
def entriesOf (jar : Jar) : List RecentAccessEntry :=
  parseRecentAccessCookie numbers (readCookie (documentCookie jar) recentAccessCookie)

/-- The effect of the recorder, and what others do to the cookies. -/
def recorder : Machine Jar JarChange where
  step jar
    | .visit visit =>
      if visit.isElsewhere then some jar
      else
        (serializeRecentAccess numbers
          (upsertRecentAccess numbers visit.now (entriesOf numbers jar) visit.entry)).map
          (setCookie jar recentAccessCookie)
    | .other name value => some (setCookie jar name value)
    | .expire name => some (jar.filter fun c => c.1 != name)

/-- Cleaning neither cuts the entry behind white space nor changes its id. -/
def Visit.Steady (visit : Visit) : Prop :=
  isAdmitted visit.entry.cleaned = true →
    visit.entry.EndsInText ∧ trimAndCut visit.id 160 = visit.id

instance (visit : Visit) : Decidable visit.Steady := inferInstanceAs (Decidable (_ → _ ∧ _))

/-- Visits are steady and the clock is not set back behind what the cookie holds; other cookies are
cookies. -/
def Regular (jar : Jar) : JarChange → Prop
  | .visit visit => visit.Steady ∧ ∀ x ∈ entriesOf numbers jar, x.accessedAt ≤ (visit.now.val : ℚ)
  | .other name value => name ≠ recentAccessCookie ∧ CleanCookie (name, value)
  | .expire _ => True

instance (jar : Jar) (a : JarChange) : Decidable (Regular numbers jar a) :=
  match a with
  | .visit _ => inferInstanceAs (Decidable (_ ∧ _))
  | .other .. => inferInstanceAs (Decidable (_ ∧ _))
  | .expire _ => inferInstanceAs (Decidable True)

end Recorder

/-- The page in front of the others, if it is accepted. -/
def withPage (pages : List RecentAccessEntry) (entry : RecentAccessEntry) :
    List RecentAccessEntry :=
  entry.normalized.toList ++ pages.filter fun page => recentAccessKey page != recentAccessKey entry

/-- The pages that have been visited, each once, the latest first. -/
def visitedPages (pages : List RecentAccessEntry) : JarChange → List RecentAccessEntry
  | .visit visit => if visit.isElsewhere then pages else withPage pages visit.entry
  | .other .. | .expire _ => pages

section Runs

variable {numbers : Numbers} {jar jar' : Jar} {pages : List RecentAccessEntry} {visit : Visit}

theorem withPage_mono {kept : List RecentAccessEntry} (h : kept <+: pages)
    (entry : RecentAccessEntry) : withPage kept entry <+: withPage pages entry :=
  (List.prefix_append_right_inj _).mpr (h.filter _)

/-- An upsert puts the page in front, when the clock has not been set back. -/
theorem upsert_eq_take {entries : List RecentAccessEntry} (h : Tidy entries)
    (hLate : ∀ x ∈ entries, x.accessedAt ≤ (visit.now.val : ℚ)) :
    upsertRecentAccess numbers visit.now entries visit.entry =
      (withPage entries visit.entry).take recentAccessLimit := by
  have hKept := h.of_sublist (List.filter_sublist (p := fun item =>
    recentAccessKey item != recentAccessKey visit.entry))
  have hEq := @upsertRecentAccess_eq numbers entries ⟨visit.now, visit.entry⟩
  rw [List.filterMap_cons, filterMap_normalized hKept.normal] at hEq
  have hOrdered : Ordered (withPage entries visit.entry) := by
    unfold withPage
    cases hNormal : visit.entry.normalized with
    | none => exact hKept.order
    | some page =>
      refine List.pairwise_cons.mpr ⟨fun x hx => ?_, hKept.order⟩
      rw [(normalized_eq_some hNormal).1]
      exact hLate x (List.mem_of_mem_filter hx)
  have hSorted : latest (withPage entries visit.entry) =
      (withPage entries visit.entry).take recentAccessLimit := by
    rw [latest, hOrdered.insertionSort_eq]
  refine hEq.trans (Eq.trans ?_ hSorted)
  have hStamped : Upsert.stamped ⟨visit.now, visit.entry⟩ = visit.entry := rfl
  rw [hStamped, withPage]
  cases visit.entry.normalized <;> rfl

/-- What is written into the cookie has been escaped. -/
theorem serializeFirst_escaped {items : List JsValue} {n : Nat} {text : Utf16}
    (h : serializeFirst numbers items n = some text) :
    ∃ us, encodeURIComponent us = some text := by
  induction n with
  | zero => exact ⟨_, h⟩
  | succ n ih =>
    obtain ⟨encoded, hEncoded, hRest⟩ := Option.bind_eq_some_iff.mp h
    split at hRest
    · cases hRest
      exact ⟨_, hEncoded⟩
    · exact ih hRest

variable (numbers) in
/-- What holds of the cookies, given the pages that have been visited. -/
structure Kept (jar : Jar) (pages : List RecentAccessEntry) : Prop where
  clean : ∀ c ∈ jar, CleanCookie c
  tidy : Tidy (entriesOf numbers jar)
  isPrefix : entriesOf numbers jar <+: pages
  size : ∀ c ∈ jar.find? fun c => c.1 = recentAccessCookie,
    c.2.length ≤ recentAccessCookieMaxBytes

theorem entriesOf_eq (h : ∀ c ∈ jar, CleanCookie c) : entriesOf numbers jar =
    parseRecentAccessCookie numbers
      ((jar.find? fun c => c.1 = recentAccessCookie).map Prod.snd) := by
  rw [entriesOf, readCookie_documentCookie h recentAccessCookie_clean.2]

/-- A visit writes as much of the list with its page as the cookie has room for. -/
theorem entriesOf_visit (h : Kept numbers jar pages) (hSteady : visit.Steady)
    (hLate : ∀ x ∈ entriesOf numbers jar, x.accessedAt ≤ (visit.now.val : ℚ))
    (hHere : visit.isElsewhere = false)
    (hStep : (recorder numbers).step jar (.visit visit) = some jar') :
    Kept numbers jar' (withPage pages visit.entry) ∧
      IsLongestFitting numbers (entriesOf numbers jar')
        ((withPage (entriesOf numbers jar) visit.entry).take recentAccessLimit) := by
  have hTaken : upsertRecentAccess numbers visit.now _ visit.entry = _ :=
    upsert_eq_take h.tidy hLate
  have hClear : Clear (entriesOf numbers jar) ⟨visit.now, visit.entry⟩ := by
    intro hAdmitted
    obtain ⟨hText, hId⟩ := hSteady hAdmitted
    exact ⟨hText, fun x _ _ _ hx => hx.trans hId⟩
  have hTidy : Tidy (upsertRecentAccess numbers _ _ _) := h.tidy.upsert hClear
  simp only [recorder, hHere, Bool.false_eq_true, if_false] at hStep
  obtain ⟨text, hText, rfl⟩ := Option.map_eq_some_iff.mp hStep
  obtain ⟨text', hText', hKept⟩ : ∃ text, serializeRecentAccess numbers _ = some text ∧ _ :=
    hTidy.readBack
  cases hText.symm.trans hText'
  obtain ⟨text', hText', hSize⟩ := hTidy.toBounded.size numbers
  cases hText.symm.trans hText'
  obtain ⟨us, hUs⟩ := serializeFirst_escaped hText
  have hClean : ∀ c ∈ setCookie jar recentAccessCookie text, CleanCookie c := by
    intro c hc
    obtain hOld | rfl := mem_setCookie hc
    · exact h.clean c hOld
    · exact ⟨recentAccessCookie_clean.1, recentAccessCookie_clean.2,
        semicolon_notMem_encodeURIComponent hUs⟩
  have hEntries : entriesOf numbers (setCookie jar recentAccessCookie text) =
      parseRecentAccessCookie numbers (some text) := by
    rw [entriesOf_eq hClean, find_setCookie]
    rfl
  rw [← hEntries, hTaken] at hKept
  refine ⟨⟨hClean, ?_, ?_, ?_⟩, hKept⟩
  · rw [hTaken] at hTidy
    exact hTidy.of_sublist hKept.isPrefix.sublist
  · exact hKept.isPrefix.trans ((List.take_prefix _ _).trans (withPage_mono h.isPrefix _))
  · rw [find_setCookie]
    rintro c hc
    cases hc
    exact hSize

theorem Kept.step {a : JarChange} (h : Kept numbers jar pages) (hG : Regular numbers jar a)
    (hStep : (recorder numbers).step jar a = some jar') :
    Kept numbers jar' (visitedPages pages a) := by
  cases a with
  | visit visit =>
    cases hHere : visit.isElsewhere with
    | true =>
      simp only [recorder, hHere, if_true, Option.some.injEq] at hStep
      rw [visitedPages, hHere]
      exact hStep ▸ h
    | false =>
      rw [visitedPages, hHere]
      exact (entriesOf_visit h hG.1 hG.2 hHere hStep).1
  | other name value =>
    cases hStep
    have hClean : ∀ c ∈ setCookie jar name value, CleanCookie c := by
      intro c hc
      obtain hOld | rfl := mem_setCookie hc
      · exact h.clean c hOld
      · exact hG.2
    have hSame : entriesOf numbers (setCookie jar name value) = entriesOf numbers jar := by
      rw [entriesOf_eq hClean, entriesOf_eq h.clean, find_setCookie_ne hG.1]
    refine ⟨hClean, hSame ▸ h.tidy, hSame ▸ h.isPrefix, ?_⟩
    rw [find_setCookie_ne hG.1]
    exact h.size
  | expire name =>
    cases hStep
    have hClean : ∀ c ∈ jar.filter fun c => c.1 != name, CleanCookie c :=
      fun c hc => h.clean c (List.mem_of_mem_filter hc)
    by_cases hName : name = recentAccessCookie
    · have hNone : (jar.filter fun c => c.1 != name).find? (fun c => c.1 = recentAccessCookie) =
          none := by
        rw [List.find?_eq_none]
        intro c hc hKey
        obtain ⟨-, hOther⟩ := List.mem_filter.mp hc
        simp_all
      have hEmpty : entriesOf numbers (jar.filter fun c => c.1 != name) = [] := by
        rw [entriesOf_eq hClean, hNone]
        rfl
      refine ⟨hClean, hEmpty ▸ tidy_nil, hEmpty ▸ List.nil_prefix, ?_⟩
      rw [hNone]
      exact fun c hc => absurd hc (Option.not_mem_none c)
    · have hFind : (jar.filter fun c => c.1 != name).find? (fun c => c.1 = recentAccessCookie) =
          jar.find? fun c => c.1 = recentAccessCookie := by
        rw [List.find?_filter]
        refine congrArg (jar.find? ·) (funext fun c => ?_)
        by_cases hc : c.1 = recentAccessCookie
        · simp [hc, Ne.symm hName]
        · simp [hc]
      have hSame : entriesOf numbers (jar.filter fun c => c.1 != name) = entriesOf numbers jar := by
        rw [entriesOf_eq hClean, entriesOf_eq h.clean, hFind]
      refine ⟨hClean, hSame ▸ h.tidy, hSame ▸ h.isPrefix, ?_⟩
      rw [hFind]
      exact h.size

theorem kept_run {as : List JarChange} (h : Kept numbers jar pages)
    (hRun : (recorder numbers).Runs (Regular numbers) jar as jar') :
    Kept numbers jar' (as.foldl visitedPages pages) := by
  induction hRun generalizing pages with
  | nil => exact h
  | cons hG hStep _ ih => exact ih (h.step hG hStep)

theorem kept_nil : Kept numbers [] [] := by
  have hNil : entriesOf numbers [] = [] := rfl
  refine ⟨fun c hc => absurd hc List.not_mem_nil, hNil ▸ tidy_nil, hNil ▸ List.prefix_refl _, ?_⟩
  exact fun c hc => absurd hc (Option.not_mem_none c)

/-- After any visits, whatever other cookies are set and whenever cookies end, the list that is read
from the cookie is a beginning of the list of all visited pages, each once and the latest first;
it and the cookie keep their limits; and it begins with the page of the last visit, if that page
alone has room in the cookie. -/
theorem cookie_keeps_latest_pages {as : List JarChange}
    (hRun : (recorder numbers).Runs (Regular numbers) [] as jar) :
    entriesOf numbers jar <+: as.foldl visitedPages [] ∧
      (entriesOf numbers jar).length ≤ recentAccessLimit ∧
      (∀ c ∈ jar.find? fun c => c.1 = recentAccessCookie,
        c.2.length ≤ recentAccessCookieMaxBytes) ∧
      ∀ before visit page, as = before ++ [.visit visit] → visit.isElsewhere = false →
        visit.entry.normalized = some page → Fits numbers [page] →
        (entriesOf numbers jar).head? = some page := by
  have hKept := kept_run kept_nil hRun
  refine ⟨hKept.isPrefix, hKept.tidy.limit, hKept.size, ?_⟩
  rintro before visit page rfl hHere hPage hFits
  obtain ⟨jar₁, hBefore, hLast⟩ := hRun.of_append
  cases hLast with
  | cons hG hStep hNil =>
    cases hNil
    obtain ⟨-, hPrefix, -, hLongest⟩ :=
      entriesOf_visit (kept_run kept_nil hBefore) hG.1 hG.2 hHere hStep
    have hFront : (withPage (entriesOf numbers jar₁) visit.entry).take recentAccessLimit =
        page :: ((entriesOf numbers jar₁).filter fun p =>
          recentAccessKey p != recentAccessKey visit.entry).take 19 := by
      rw [withPage, hPage]
      rfl
    rw [hFront] at hPrefix hLongest
    have hOne : [page].length ≤ (entriesOf numbers jar).length :=
      hLongest [page] (by simp) hFits
    cases hEntries : entriesOf numbers jar with
    | nil =>
      rw [hEntries] at hOne
      cases hOne
    | cons x xs =>
      rw [hEntries, List.cons_prefix_cons] at hPrefix
      rw [List.head?_cons, hPrefix.1]

theorem natAbs_mod_le (n : Nat) : ((n % 1000 : Nat) : Int).natAbs ≤ 8640000000000000 := by omega

/-- A visit to the page of a lesson, within the first second. -/
def lessonVisit (id : String) (now : Nat) : Visit where
  userId := units "u"
  id := units id
  type := .lesson
  area := none
  orgSlug := none
  title := units "Lesson"
  subtitle := none
  href := units "/dashboard/lesson"
  exactPath := true
  pathname := units "/dashboard/lesson"
  now := ⟨(now % 1000 : Nat), natAbs_mod_le now⟩

/-- Two lessons, the first of them twice, and a cookie of another script. -/
def lessonVisits : List JarChange :=
  [.visit (lessonVisit "a" 1), .other (units "theme") (units "dark"),
    .visit (lessonVisit "b" 2), .visit (lessonVisit "a" 3)]

/-- The cookies after the visits. -/
def lessonJar : Jar := ((recorder timesOnly).run [] lessonVisits).getD []

theorem cookie_keeps_latest_pages_lessons :
    entriesOf timesOnly lessonJar <+: lessonVisits.foldl visitedPages [] ∧
      (entriesOf timesOnly lessonJar).head? =
        some (lessonVisit "a" 3).entry.cleaned := by
  have hRun : (recorder timesOnly).Runs (Regular timesOnly) [] lessonVisits lessonJar :=
    Machine.Runs.of_restrict (by decide +kernel)
  have hKeeps := cookie_keeps_latest_pages hRun
  exact ⟨hKeeps.1, hKeeps.2.2.2 (lessonVisits.take 3) (lessonVisit "a" 3) _ rfl rfl
    (by decide +kernel) (by decide +kernel)⟩

end Runs

end Richter.Dashboard
