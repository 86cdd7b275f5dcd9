import Mathlib.Data.List.Sort
import Richter.Lib.JsonText
import Richter.Lib.Machine
import Richter.Lib.Rewrite
import Richter.Lib.Words

/-! The list of the pages that a user has last been at, which the browser keeps in a cookie
(`recent-access.ts`). -/

namespace Richter.Dashboard

open Lib Utf16

inductive RecentAccessArea
  | dashboard
  | admin
  deriving DecidableEq

inductive RecentAccessType
  | dashboardOrganizations
  | dashboardProfile
  | organization
  | organizationCourses
  | organizationMembers
  | course
  | lesson
  | adminUsers
  | adminUser
  | adminOrganizations
  | adminOrganization
  | adminOrganizationMembers
  | adminOrganizationCourses
  | adminCourse
  | adminModule
  deriving DecidableEq

def RecentAccessArea.name : RecentAccessArea → String
  | .dashboard => "dashboard"
  | .admin => "admin"

def RecentAccessType.name : RecentAccessType → String
  | .dashboardOrganizations => "dashboard-organizations"
  | .dashboardProfile => "dashboard-profile"
  | .organization => "organization"
  | .organizationCourses => "organization-courses"
  | .organizationMembers => "organization-members"
  | .course => "course"
  | .lesson => "lesson"
  | .adminUsers => "admin-users"
  | .adminUser => "admin-user"
  | .adminOrganizations => "admin-organizations"
  | .adminOrganization => "admin-organization"
  | .adminOrganizationMembers => "admin-organization-members"
  | .adminOrganizationCourses => "admin-organization-courses"
  | .adminCourse => "admin-course"
  | .adminModule => "admin-module"

/-- `accessedAt` is a finite number. -/
@[ext] structure RecentAccessEntry where
  userId : Utf16
  id : Utf16
  type : RecentAccessType
  area : RecentAccessArea
  orgSlug : Option Utf16
  title : Utf16
  href : Utf16
  accessedAt : ℚ
  subtitle : Option Utf16
  deriving DecidableEq

/-- `RECENT_ACCESS_LIMIT`. -/
def recentAccessLimit : Nat := 20

/-- `RECENT_ACCESS_COOKIE_MAX_BYTES`. -/
def recentAccessCookieMaxBytes : Nat := 3800

def recentAccessKey (entry : RecentAccessEntry) : Utf16 :=
  units entry.area.name ++ units ":" ++ units entry.type.name ++ units ":" ++ entry.id

/-- `isRecentAccessType`, which gives the value its type. -/
def asRecentAccessType : Option JsValue → Option RecentAccessType
  | some (.str s) =>
    [.organization, .dashboardOrganizations, .dashboardProfile, .organizationCourses,
      .organizationMembers, .course, .lesson, .adminUsers, .adminUser, .adminOrganizations,
      .adminOrganization, .adminOrganizationMembers, .adminOrganizationCourses, .adminCourse,
      .adminModule].find? fun t : RecentAccessType => s == units t.name
  | _ => none

def isAdminType (type : RecentAccessType) : Bool := (units "admin-").isPrefixOf (units type.name)

def defaultRecentAccessArea (type : RecentAccessType) : RecentAccessArea :=
  if isAdminType type then .admin else .dashboard

def cleanArea (value : Option JsValue) (type : RecentAccessType) : RecentAccessArea :=
  match value with
  | some (.str s) =>
    if s = units "admin" then .admin
    else if s = units "dashboard" then .dashboard
    else defaultRecentAccessArea type
  | _ => defaultRecentAccessArea type

def isSafeRelativeHref (href : Utf16) : Bool :=
  (units "/").isPrefixOf href && !(units "//").isPrefixOf href

/-- `WhiteSpace` and `LineTerminator` of JavaScript. -/
def isSpaceUnit (u : UInt16) : Bool :=
  u.toNat ∈ [0x09, 0x0a, 0x0b, 0x0c, 0x0d, 0x20, 0xa0, 0x1680, 0x2028, 0x2029, 0x202f, 0x205f,
    0x3000, 0xfeff] || (0x2000 ≤ u.toNat && u.toNat ≤ 0x200a)

/-- `value.trim().slice(0, maxLength)`. -/
def trimAndCut (s : Utf16) (maxLength : Nat) : Utf16 := (trim isSpaceUnit s).take maxLength

def cleanString (value : Option JsValue) (maxLength : Nat) : Utf16 :=
  match value with
  | some (.str s) => trimAndCut s maxLength
  | _ => []

/-- `s || undefined`. -/
def orUndefined (s : Utf16) : Option Utf16 := if s = [] then none else some s

/-- The checks of `normalizeEntry`, on strings that have been cleaned. -/
def isAdmitted (entry : RecentAccessEntry) : Bool :=
  if entry.userId = [] || entry.id = [] || entry.title = [] || !isSafeRelativeHref entry.href then
    false
  else if entry.area = .admin then (units "/admin").isPrefixOf entry.href
  else if !(units "/dashboard").isPrefixOf entry.href then false
  else
    match entry.orgSlug with
    | some slug => (units "/dashboard/organizations/" ++ slug).isPrefixOf entry.href
    | none => true

section Numbers

variable (numbers : Numbers)

def normalizeEntry (record : JsValue) : Option RecentAccessEntry :=
  if !record.isObject then none
  else
    (asRecentAccessType (nullish (record.get "type") (record.get "t"))).bind fun type =>
      let accessedAt := toNumber numbers (nullish (record.get "accessedAt") (record.get "at"))
      let entry : RecentAccessEntry :=
        { userId := cleanString (nullish (record.get "userId") (record.get "u")) 160
          id := cleanString (nullish (record.get "id") (record.get "i")) 160
          type
          area := cleanArea (nullish (record.get "area") (record.get "a")) type
          orgSlug := orUndefined (cleanString (nullish (record.get "orgSlug") (record.get "o")) 120)
          title := cleanString (nullish (record.get "title") (record.get "l")) 160
          href := cleanString (nullish (record.get "href") (record.get "h")) 320
          accessedAt := accessedAt.getD 0
          subtitle :=
            orUndefined (cleanString (nullish (record.get "subtitle") (record.get "s")) 220) }
      if isAdmitted entry then some entry else none

/-- `.sort((a, b) => b.accessedAt - a.accessedAt).slice(0, RECENT_ACCESS_LIMIT)`.  Both sorts are
stable. -/
def latest (entries : List RecentAccessEntry) : List RecentAccessEntry :=
  (entries.insertionSort fun a b => b.accessedAt ≤ a.accessedAt).take recentAccessLimit

def parseRecentAccessCookie : Option Utf16 → List RecentAccessEntry
  | none => []
  | some value =>
    if value = [] then []
    else
      match (decodeURIComponent value).bind (parseJson numbers) with
      | some (.arr items) => latest (items.filterMap (normalizeEntry numbers))
      -- what is thrown is caught
      | _ => []

/-- A field that is left out when it is missing or empty. -/
def unlessEmpty (name : String) (s : Option Utf16) : List (Utf16 × JsValue) :=
  match s with
  | none => []
  | some s => if s = [] then [] else [(units name, .str s)]

def compactEntry (entry : RecentAccessEntry) : JsValue :=
  .obj ([(units "i", .str entry.id), (units "u", .str entry.userId),
    (units "t", .str (units entry.type.name)), (units "a", .str (units entry.area.name))] ++
    unlessEmpty "o" entry.orgSlug ++
    [(units "l", .str entry.title), (units "h", .str entry.href),
      (units "at", .num (some entry.accessedAt))] ++
    unlessEmpty "s" entry.subtitle)

/-- The loop of `serializeRecentAccess`. -/
def serializeFirst (compactEntries : List JsValue) : Nat → Option Utf16
  | 0 => encodeURIComponent (units "[]")
  | count + 1 =>
    (encodeURIComponent (stringify numbers (.arr (compactEntries.take (count + 1))))).bind
      fun encoded =>
        if encoded.length ≤ recentAccessCookieMaxBytes then some encoded
        else serializeFirst compactEntries count

/-- `none` when it throws. -/
def serializeRecentAccess (entries : List RecentAccessEntry) : Option Utf16 :=
  let compactEntries := (entries.take recentAccessLimit).map compactEntry
  serializeFirst numbers compactEntries compactEntries.length

/-- The entry as the object that `normalizeEntry` is called with. -/
def entryRecord (entry : RecentAccessEntry) : JsValue :=
  .obj ([(units "userId", .str entry.userId), (units "id", .str entry.id),
    (units "type", .str (units entry.type.name)), (units "area", .str (units entry.area.name))] ++
    (entry.orgSlug.map fun s => (units "orgSlug", JsValue.str s)).toList ++
    [(units "title", .str entry.title), (units "href", .str entry.href),
      (units "accessedAt", .num (some entry.accessedAt))] ++
    (entry.subtitle.map fun s => (units "subtitle", JsValue.str s)).toList)

/-- What `Date.now()` gives: milliseconds, up to a hundred million days from the beginning of
1970. -/
abbrev TimeValue := {n : Int // n.natAbs ≤ 8640000000000000}

def upsertRecentAccess (now : TimeValue) (entries : List RecentAccessEntry)
    (entry : RecentAccessEntry) : List RecentAccessEntry :=
  let key := recentAccessKey entry
  let next := { entry with accessedAt := (now.val : ℚ) } ::
    entries.filter fun item => recentAccessKey item != key
  latest ((next.map entryRecord).filterMap (normalizeEntry numbers))

end Numbers

section Keys

theorem asRecentAccessType_name (t : RecentAccessType) :
    asRecentAccessType (some (.str (units t.name))) = some t := by
  cases t <;> simp [asRecentAccessType, RecentAccessType.name]

theorem cleanArea_name (area : RecentAccessArea) (type : RecentAccessType) :
    cleanArea (some (.str (units area.name))) type = area := by
  cases area <;> simp [cleanArea, RecentAccessArea.name]

theorem RecentAccessType.name_inj {t t' : RecentAccessType} (h : t.name = t'.name) : t = t' := by
  have hType := asRecentAccessType_name t
  rw [h, asRecentAccessType_name] at hType
  exact (Option.some_inj.mp hType).symm

theorem RecentAccessArea.name_inj {a a' : RecentAccessArea} (h : a.name = a'.name) : a = a' := by
  have hArea := cleanArea_name a .course
  rwa [h, cleanArea_name, eq_comm] at hArea

theorem RecentAccessType.colon_notMem (t : RecentAccessType) : 0x3a ∉ units t.name := by
  cases t <;> decide +kernel

theorem RecentAccessArea.colon_notMem (a : RecentAccessArea) : 0x3a ∉ units a.name := by
  cases a <;> decide +kernel

/-- No name of an area or of a type contains the separator. -/
theorem recentAccessKey_inj {x y : RecentAccessEntry} :
    recentAccessKey x = recentAccessKey y ↔ x.area = y.area ∧ x.type = y.type ∧ x.id = y.id := by
  have hColon : units ":" = [0x3a] := by decide
  simp only [recentAccessKey, hColon, List.append_assoc, List.cons_append, List.nil_append]
  rw [append_separator_inj x.area.colon_notMem y.area.colon_notMem,
    append_separator_inj x.type.colon_notMem y.type.colon_notMem]
  constructor
  · rintro ⟨hArea, hType, hId⟩
    exact ⟨RecentAccessArea.name_inj (units_inj.mp hArea),
      RecentAccessType.name_inj (units_inj.mp hType), hId⟩
  · rintro ⟨hArea, hType, hId⟩
    rw [hArea, hType, hId]
    exact ⟨rfl, rfl, rfl⟩

end Keys

section Cleaning

/-- If a trimmed text has an `n`th character, that character is not white space. -/
def EndsInText (n : Nat) (s : Utf16) : Prop :=
  ∀ u ∈ (trim isSpaceUnit s)[n - 1]?, isSpaceUnit u = false

instance (n : Nat) (s : Utf16) : Decidable (EndsInText n s) :=
  decidable_of_iff ((trim isSpaceUnit s)[n - 1]?.all fun u => !isSpaceUnit u)
    (by simp [EndsInText, Option.all_eq_true])

theorem trimAndCut_nil (n : Nat) : trimAndCut [] n = [] := List.take_nil

/-- A text that is cut behind white space is trimmed again. -/
theorem trimAndCut_twice {n : Nat} (hn : 0 < n) (s : Utf16) :
    trimAndCut (trimAndCut s n) n = trimAndCut s n ↔ EndsInText n s := by
  have hTrimmed : Trimmed isSpaceUnit (trim isSpaceUnit s) := trim_trimmed s
  unfold EndsInText trimAndCut
  generalize trim isSpaceUnit s = t at hTrimmed ⊢
  have hLast : (t.take n).getLast? = t[n - 1]?.or t.getLast? := by
    rw [List.getLast?_take, if_neg (by omega)]
  have hHead : (t.take n).head? = t.head? := by
    rw [List.head?_take, if_neg (by omega)]
  constructor
  · intro h u hu
    have hLength : (trim isSpaceUnit (t.take n)).length ≤ n :=
      (infix_trim (t.take n)).length_le.trans (List.length_take_le n t)
    rw [List.take_of_length_le hLength] at h
    have hAgain : Trimmed isSpaceUnit (t.take n) := h ▸ trim_trimmed (t.take n)
    apply hAgain.last u
    rw [hLast, Option.mem_def.mp hu]
    rfl
  · intro h
    have hAgain : Trimmed isSpaceUnit (t.take n) := by
      refine ⟨fun u hu => hTrimmed.head u (hHead ▸ hu), fun u hu => ?_⟩
      rw [hLast] at hu
      cases hCut : t[n - 1]? with
      | none => exact hTrimmed.last u (by rwa [hCut] at hu)
      | some v =>
        rw [hCut] at hu
        cases Option.mem_some_iff.mp hu
        exact h u hCut
    rw [hAgain.trim_eq, List.take_take, Nat.min_self]

/-- `cleanString(s, maxLength) || undefined`, for a string that may be missing. -/
def cleanOptional (s : Option Utf16) (maxLength : Nat) : Option Utf16 :=
  s.bind fun s => orUndefined (trimAndCut s maxLength)

theorem cleanOptional_twice {n : Nat} (hn : 0 < n) (o : Option Utf16) :
    cleanOptional (cleanOptional o n) n = cleanOptional o n ↔ ∀ s ∈ o, EndsInText n s := by
  cases o with
  | none => simp [cleanOptional]
  | some s =>
    have hTwice := trimAndCut_twice hn s
    by_cases hEmpty : trimAndCut s n = []
    · have hAgain : trimAndCut (trimAndCut s n) n = trimAndCut s n := by
        rw [hEmpty, trimAndCut_nil]
      simp [cleanOptional, orUndefined, hEmpty, hTwice.mp hAgain]
    · by_cases hAgain : trimAndCut (trimAndCut s n) n = []
      · have hNot : ¬ EndsInText n s := fun h => hEmpty ((hTwice.mpr h).symm.trans hAgain)
        simp [cleanOptional, orUndefined, hEmpty, hAgain, hNot]
      · simp [cleanOptional, orUndefined, hEmpty, hAgain, hTwice]

namespace RecentAccessEntry

/-- What `normalizeEntry` makes of the strings of an entry. -/
def cleaned (entry : RecentAccessEntry) : RecentAccessEntry where
  userId := trimAndCut entry.userId 160
  id := trimAndCut entry.id 160
  type := entry.type
  area := entry.area
  orgSlug := cleanOptional entry.orgSlug 120
  title := trimAndCut entry.title 160
  href := trimAndCut entry.href 320
  accessedAt := entry.accessedAt
  subtitle := cleanOptional entry.subtitle 220

def normalized (entry : RecentAccessEntry) : Option RecentAccessEntry :=
  if isAdmitted entry.cleaned then some entry.cleaned else none

/-- No string of an entry is cut behind white space. -/
structure EndsInText (entry : RecentAccessEntry) : Prop where
  userId : Dashboard.EndsInText 160 entry.userId
  id : Dashboard.EndsInText 160 entry.id
  orgSlug : ∀ s ∈ entry.orgSlug, Dashboard.EndsInText 120 s
  title : Dashboard.EndsInText 160 entry.title
  href : Dashboard.EndsInText 320 entry.href
  subtitle : ∀ s ∈ entry.subtitle, Dashboard.EndsInText 220 s

theorem cleaned_twice (entry : RecentAccessEntry) :
    entry.cleaned.cleaned = entry.cleaned ↔ entry.EndsInText := by
  constructor
  · intro h
    exact ⟨(trimAndCut_twice (by decide) _).mp (congrArg userId h),
      (trimAndCut_twice (by decide) _).mp (congrArg id h),
      (cleanOptional_twice (by decide) _).mp (congrArg orgSlug h),
      (trimAndCut_twice (by decide) _).mp (congrArg title h),
      (trimAndCut_twice (by decide) _).mp (congrArg href h),
      (cleanOptional_twice (by decide) _).mp (congrArg subtitle h)⟩
  · intro h
    refine RecentAccessEntry.ext ?_ ?_ rfl rfl ?_ ?_ ?_ rfl ?_
    · exact (trimAndCut_twice (by decide) _).mpr h.userId
    · exact (trimAndCut_twice (by decide) _).mpr h.id
    · exact (cleanOptional_twice (by decide) _).mpr h.orgSlug
    · exact (trimAndCut_twice (by decide) _).mpr h.title
    · exact (trimAndCut_twice (by decide) _).mpr h.href
    · exact (cleanOptional_twice (by decide) _).mpr h.subtitle

instance (entry : RecentAccessEntry) : Decidable entry.EndsInText :=
  decidable_of_iff (entry.cleaned.cleaned = entry.cleaned) (cleaned_twice entry)

end RecentAccessEntry

variable (numbers : Numbers)

theorem normalizeEntry_entryRecord (entry : RecentAccessEntry) :
    normalizeEntry numbers (entryRecord entry) = entry.normalized := by
  have hType := asRecentAccessType_name entry.type
  have hArea := cleanArea_name entry.area entry.type
  cases hSlug : entry.orgSlug <;> cases hSubtitle : entry.subtitle <;>
    simp [normalizeEntry, entryRecord, JsValue.isObject, JsValue.get, hSlug, hSubtitle, nullish,
      hType, hArea, cleanString, toNumber, RecentAccessEntry.normalized,
      RecentAccessEntry.cleaned, cleanOptional, orUndefined]

theorem unlessEmpty_cases (name : String) (o : Option Utf16) :
    (unlessEmpty name o = [] ∧ ∀ n, cleanOptional o n = none) ∨
      ∃ s, unlessEmpty name o = [(units name, .str s)] ∧
        ∀ n, cleanOptional o n = orUndefined (trimAndCut s n) := by
  cases o with
  | none => exact .inl ⟨rfl, fun _ => rfl⟩
  | some s =>
    by_cases hEmpty : s = []
    · subst hEmpty
      refine .inl ⟨rfl, fun n => ?_⟩
      rw [cleanOptional, Option.bind_some, trimAndCut_nil]
      rfl
    · exact .inr ⟨s, if_neg hEmpty, fun _ => rfl⟩

/-- The cookie leaves empty strings out, which cleaning makes missing ones. -/
theorem normalizeEntry_compactEntry (entry : RecentAccessEntry) :
    normalizeEntry numbers (compactEntry entry) = entry.normalized := by
  have hType := asRecentAccessType_name entry.type
  have hArea := cleanArea_name entry.area entry.type
  rcases unlessEmpty_cases "o" entry.orgSlug with
      ⟨hSlug, hSlugClean⟩ | ⟨slug, hSlug, hSlugClean⟩ <;>
    rcases unlessEmpty_cases "s" entry.subtitle with
      ⟨hSubtitle, hSubtitleClean⟩ | ⟨subtitle, hSubtitle, hSubtitleClean⟩ <;>
    simp [normalizeEntry, compactEntry, JsValue.isObject, JsValue.get, hSlug, hSlugClean, hSubtitle,
      hSubtitleClean, nullish, hType, hArea, cleanString, toNumber, RecentAccessEntry.normalized,
      RecentAccessEntry.cleaned, orUndefined]

end Cleaning

section Cookie

variable (numbers : Numbers)

/-- The text that a cookie would hold for these entries. -/
def cookieText (entries : List RecentAccessEntry) : Option Utf16 :=
  encodeURIComponent (stringify numbers (.arr (entries.map compactEntry)))

/-- A cookie has room for these entries. -/
def Fits (entries : List RecentAccessEntry) : Prop :=
  ∃ text, cookieText numbers entries = some text ∧ text.length ≤ recentAccessCookieMaxBytes

instance (entries : List RecentAccessEntry) : Decidable (Fits numbers entries) :=
  decidable_of_iff
    ((cookieText numbers entries).any fun t => t.length ≤ recentAccessCookieMaxBytes)
    (by simp [Fits, Option.any_eq_true])

/-- `kept` is the longest beginning of a list that a cookie has room for. -/
structure IsLongestFitting (kept entries : List RecentAccessEntry) : Prop where
  isPrefix : kept <+: entries
  fits : Fits numbers kept
  longest : ∀ other, other <+: entries → Fits numbers other → other.length ≤ kept.length

/-- `accessedAt` is a time that the clock has shown. -/
def IsTimed (entry : RecentAccessEntry) : Prop := ∃ t : TimeValue, entry.accessedAt = (t.val : ℚ)

variable {numbers} {entries : List RecentAccessEntry}

theorem compactEntry_safe {entry : RecentAccessEntry} (h : IsTimed entry) :
    (compactEntry entry).Safe := by
  obtain ⟨⟨t, hBound⟩, hTime⟩ := h
  have hSafe : t.natAbs ≤ 2 ^ 53 := hBound.trans (by decide)
  have hOptional (name : String) (o : Option Utf16) : ∀ m ∈ unlessEmpty name o, m.2.Safe := by
    intro m hm
    unfold unlessEmpty at hm
    split at hm
    · cases hm
    · split at hm
      · cases hm
      · cases List.mem_singleton.mp hm
        exact .str _
  refine .obj fun m hm => ?_
  simp only [List.mem_append, List.mem_cons, List.not_mem_nil, or_false] at hm
  rcases hm with ((((rfl | rfl | rfl | rfl) | hm) | (rfl | rfl | rfl)) | hm)
  · exact .str _
  · exact .str _
  · exact .str _
  · exact .str _
  · exact hOptional "o" entry.orgSlug m hm
  · exact .str _
  · exact .str _
  · rw [hTime]
    exact .num t hSafe
  · exact hOptional "s" entry.subtitle m hm

theorem arr_compactEntry_safe (h : ∀ x ∈ entries, IsTimed x) :
    (JsValue.arr (entries.map compactEntry)).Safe :=
  .arr (List.forall_mem_map.mpr fun x hx => compactEntry_safe (h x hx))

variable (numbers) in
/-- Whatever the strings are, they have a text, and the text gives the entries back. -/
theorem exists_cookieText (h : ∀ x ∈ entries, IsTimed x) :
    ∃ text, cookieText numbers entries = some text ∧
      (decodeURIComponent text).bind (parseJson numbers) =
        some (.arr (entries.map compactEntry)) := by
  have hSafe := arr_compactEntry_safe h
  obtain ⟨text, hText, hDecoded⟩ :=
    decode_encodeURIComponent (stringify_wellFormed hSafe)
  exact ⟨text, hText, by rw [hDecoded, Option.bind_some, parseJson_stringify hSafe]⟩

theorem cookieText_nil : cookieText numbers [] = encodeURIComponent (units "[]") := by
  have hText : stringify numbers (.arr []) = units "[]" := by
    rw [stringify, itemTexts]
    decide
  rw [cookieText, List.map_nil, hText]

theorem fits_nil : Fits numbers [] := by
  have hText : encodeURIComponent (units "[]") = some (units "%5B%5D") := by decide +kernel
  exact ⟨units "%5B%5D", cookieText_nil.trans hText, by decide +kernel⟩

variable (numbers) in
/-- The loop stops at the longest beginning for which there is room. -/
theorem serializeFirst_spec (h : ∀ x ∈ entries, IsTimed x) (count : Nat) :
    ∃ k ≤ count, Fits numbers (entries.take k) ∧
      serializeFirst numbers (entries.map compactEntry) count =
        cookieText numbers (entries.take k) ∧
      ∀ j ≤ count, Fits numbers (entries.take j) → j ≤ k := by
  induction count with
  | zero => exact ⟨0, Nat.le_refl 0, fits_nil, cookieText_nil.symm, fun j hj _ => hj⟩
  | succ count ih =>
    have hTaken : ∀ x ∈ entries.take (count + 1), IsTimed x :=
      fun x hx => h x (List.mem_of_mem_take hx)
    obtain ⟨text, hText, -⟩ := exists_cookieText numbers hTaken
    have hEncoded : encodeURIComponent
        (stringify numbers (.arr ((entries.map compactEntry).take (count + 1)))) = some text := by
      rwa [← List.map_take]
    rw [serializeFirst, hEncoded, Option.bind_some]
    by_cases hRoom : text.length ≤ recentAccessCookieMaxBytes
    · rw [if_pos hRoom]
      exact ⟨count + 1, Nat.le_refl _, ⟨text, hText, hRoom⟩, hText.symm, fun j hj _ => hj⟩
    · obtain ⟨k, hk, hFits, hSerialized, hLongest⟩ := ih
      rw [if_neg hRoom]
      refine ⟨k, Nat.le_succ_of_le hk, hFits, hSerialized, fun j hj hFitsToo => ?_⟩
      rcases Nat.le_succ_iff.mp hj with hj | rfl
      · exact hLongest j hj hFitsToo
      · obtain ⟨text', hText', hRoom'⟩ := hFitsToo
        cases hText.symm.trans hText'
        exact absurd hRoom' hRoom

variable (numbers) in
/-- What is written into the cookie, and what is read from it. -/
theorem serializeRecentAccess_spec (hTimed : ∀ x ∈ entries, IsTimed x)
    (hLimit : entries.length ≤ recentAccessLimit) :
    ∃ text kept, serializeRecentAccess numbers entries = some text ∧
      text.length ≤ recentAccessCookieMaxBytes ∧ IsLongestFitting numbers kept entries ∧
      parseRecentAccessCookie numbers (some text) =
        latest (kept.filterMap RecentAccessEntry.normalized) := by
  obtain ⟨k, -, ⟨text, hText, hRoom⟩, hSerialized, hLongest⟩ :=
    serializeFirst_spec numbers hTimed entries.length
  have hKept : ∀ x ∈ entries.take k, IsTimed x := fun x hx => hTimed x (List.mem_of_mem_take hx)
  obtain ⟨text', hText', hRead⟩ := exists_cookieText numbers hKept
  cases hText.symm.trans hText'
  have hSome : text ≠ [] := by
    rintro rfl
    cases hRead
  have hNormal : normalizeEntry numbers ∘ compactEntry = RecentAccessEntry.normalized :=
    funext fun x => normalizeEntry_compactEntry numbers x
  refine ⟨text, entries.take k, ?_, hRoom, ⟨List.take_prefix k entries, ⟨text, hText, hRoom⟩, ?_⟩,
    ?_⟩
  · rw [serializeRecentAccess, List.take_of_length_le hLimit]
    simp only [List.length_map]
    rw [hSerialized, hText]
  · intro other hOther hFits
    have hTake := List.prefix_iff_eq_take.mp hOther
    have hLength := hLongest other.length hOther.length_le (hTake ▸ hFits)
    rw [List.length_take]
    exact Nat.le_min.mpr ⟨hLength, hOther.length_le⟩
  · rw [parseRecentAccessCookie, if_neg hSome, hRead]
    simp only
    rw [List.filterMap_map, hNormal]

theorem IsLongestFitting.unique {kept kept' : List RecentAccessEntry}
    (h : IsLongestFitting numbers kept entries) (h' : IsLongestFitting numbers kept' entries) :
    kept = kept' := by
  have hLength : kept.length = kept'.length :=
    Nat.le_antisymm (h'.longest kept h.isPrefix h.fits) (h.longest kept' h'.isPrefix h'.fits)
  rw [List.prefix_iff_eq_take.mp h.isPrefix, List.prefix_iff_eq_take.mp h'.isPrefix, hLength]

end Cookie

section Lists

variable {entries : List RecentAccessEntry}

/-- The latest entries come first. -/
def Ordered (entries : List RecentAccessEntry) : Prop :=
  entries.Pairwise fun x y => y.accessedAt ≤ x.accessedAt

theorem latest_ordered (entries : List RecentAccessEntry) : Ordered (latest entries) := by
  have hTotal : Std.Total fun a b : RecentAccessEntry => b.accessedAt ≤ a.accessedAt :=
    ⟨fun a b => le_total b.accessedAt a.accessedAt⟩
  have hTrans : IsTrans RecentAccessEntry fun a b => b.accessedAt ≤ a.accessedAt :=
    ⟨fun _ _ _ hab hbc => le_trans hbc hab⟩
  exact (List.pairwise_insertionSort _ entries).sublist (List.take_sublist _ _)

theorem latest_length (entries : List RecentAccessEntry) :
    (latest entries).length ≤ recentAccessLimit :=
  List.length_take_le _ _

theorem latest_eq_self (hOrder : Ordered entries) (hLimit : entries.length ≤ recentAccessLimit) :
    latest entries = entries := by
  rw [latest, hOrder.insertionSort_eq, List.take_of_length_le hLimit]

theorem mem_of_mem_latest {x : RecentAccessEntry} (h : x ∈ latest entries) : x ∈ entries :=
  (List.perm_insertionSort _ entries).mem_iff.mp (List.mem_of_mem_take h)

/-- No two entries are of the same area, type and id. -/
def HaveDistinctKeys (entries : List RecentAccessEntry) : Prop :=
  (entries.map fun x => (x.area, x.type, x.id)).Nodup

theorem HaveDistinctKeys.latest (h : HaveDistinctKeys entries) :
    HaveDistinctKeys (latest entries) := by
  have hSorted := ((List.perm_insertionSort (fun a b => b.accessedAt ≤ a.accessedAt)
    entries).map fun x : RecentAccessEntry => (x.area, x.type, x.id)).nodup_iff.mpr h
  exact hSorted.sublist ((List.take_sublist _ _).map _)

/-- What holds of the list after any calls. -/
structure Bounded (entries : List RecentAccessEntry) : Prop where
  limit : entries.length ≤ recentAccessLimit
  order : Ordered entries
  timed : ∀ x ∈ entries, IsTimed x

/-- What holds of it when, besides, cleaning leaves its entries as they are. -/
structure Tidy (entries : List RecentAccessEntry) : Prop extends Bounded entries where
  keys : HaveDistinctKeys entries
  normal : ∀ x ∈ entries, x.normalized = some x

theorem bounded_nil : Bounded [] := ⟨Nat.zero_le _, .nil, fun _ hx => absurd hx List.not_mem_nil⟩

theorem tidy_nil : Tidy [] := ⟨bounded_nil, .nil, fun _ hx => absurd hx List.not_mem_nil⟩

theorem filterMap_normalized (h : ∀ x ∈ entries, x.normalized = some x) :
    entries.filterMap RecentAccessEntry.normalized = entries := by
  rw [List.filterMap_congr h, List.filterMap_some]

theorem Tidy.of_sublist {kept : List RecentAccessEntry} (h : Tidy entries)
    (hKept : kept.Sublist entries) : Tidy kept where
  limit := hKept.length_le.trans h.limit
  order := h.order.sublist hKept
  timed x hx := h.timed x (hKept.subset hx)
  keys := h.keys.sublist (hKept.map _)
  normal x hx := h.normal x (hKept.subset hx)

end Lists

section Runs

/-- One call of `upsertRecentAccess`, and the time it is made at. -/
structure Upsert where
  now : TimeValue
  entry : RecentAccessEntry

/-- The entry that the list gets, before it is cleaned. -/
def Upsert.stamped (call : Upsert) : RecentAccessEntry :=
  { call.entry with accessedAt := (call.now.val : ℚ) }

variable (numbers : Numbers)

/-- The list after one call after the other. -/
def upserts : Machine (List RecentAccessEntry) Upsert where
  step entries call := some (upsertRecentAccess numbers call.now entries call.entry)

variable {numbers} {entries : List RecentAccessEntry} {call : Upsert}

theorem upsertRecentAccess_eq :
    upsertRecentAccess numbers call.now entries call.entry =
      latest ((call.stamped :: entries.filter fun item =>
        recentAccessKey item != recentAccessKey call.entry).filterMap
          RecentAccessEntry.normalized) := by
  have hNormal : normalizeEntry numbers ∘ entryRecord = RecentAccessEntry.normalized :=
    funext fun x => normalizeEntry_entryRecord numbers x
  rw [upsertRecentAccess, List.filterMap_map, hNormal]
  rfl

theorem normalized_eq_some {x y : RecentAccessEntry} (h : x.normalized = some y) :
    y = x.cleaned ∧ isAdmitted x.cleaned = true := by
  unfold RecentAccessEntry.normalized at h
  split at h
  · next hAdmitted => exact ⟨(Option.some_inj.mp h).symm, hAdmitted⟩
  · cases h

variable (numbers) in
theorem Bounded.upsert (h : Bounded entries) (call : Upsert) :
    Bounded (upsertRecentAccess numbers call.now entries call.entry) := by
  rw [upsertRecentAccess_eq]
  refine ⟨latest_length _, latest_ordered _, fun y hy => ?_⟩
  obtain ⟨x, hx, hNormal⟩ := List.mem_filterMap.mp (mem_of_mem_latest hy)
  have hTime : IsTimed x := by
    rcases List.mem_cons.mp hx with rfl | hx
    · exact ⟨call.now, rfl⟩
    · exact h.timed x (List.mem_of_mem_filter hx)
  rw [(normalized_eq_some hNormal).1]
  exact hTime

/-- The call stores its entry as it will be read back, and drops the one of the same key: no string
is cut behind white space, and an entry of the list that has the key the new one gets by cleaning
has the key it came with. -/
def Clear (entries : List RecentAccessEntry) (call : Upsert) : Prop :=
  isAdmitted call.entry.cleaned = true →
    call.entry.EndsInText ∧
      ∀ x ∈ entries, x.area = call.entry.area → x.type = call.entry.type →
        x.id = trimAndCut call.entry.id 160 → x.id = call.entry.id

instance (entries : List RecentAccessEntry) (call : Upsert) : Decidable (Clear entries call) :=
  inferInstanceAs (Decidable (_ → _ ∧ _))

theorem stamped_endsInText : call.stamped.EndsInText ↔ call.entry.EndsInText :=
  ⟨fun h => ⟨h.userId, h.id, h.orgSlug, h.title, h.href, h.subtitle⟩,
    fun h => ⟨h.userId, h.id, h.orgSlug, h.title, h.href, h.subtitle⟩⟩

/-- An entry that the call keeps has another key than the one it stores. -/
theorem Clear.key_ne (h : Clear entries call) (hAdmitted : isAdmitted call.entry.cleaned = true)
    {x : RecentAccessEntry} (hx : x ∈ entries.filter fun item =>
      recentAccessKey item != recentAccessKey call.entry) :
    (x.area, x.type, x.id) ≠
      (call.entry.area, call.entry.type, trimAndCut call.entry.id 160) := by
  obtain ⟨hIn, hOther⟩ := List.mem_filter.mp hx
  intro hKey
  simp only [Prod.mk.injEq] at hKey
  obtain ⟨hArea, hType, hId⟩ := hKey
  have hSame := (h hAdmitted).2 x hIn hArea hType hId
  have hEqual := recentAccessKey_inj.mpr ⟨hArea, hType, hSame⟩
  simp [hEqual] at hOther

theorem Tidy.upsert (h : Tidy entries) (hClear : Clear entries call) :
    Tidy (upsertRecentAccess numbers call.now entries call.entry) := by
  have hBounded := h.toBounded.upsert numbers call
  rw [upsertRecentAccess_eq] at hBounded ⊢
  have hKept := h.of_sublist (List.filter_sublist (p := fun item =>
    recentAccessKey item != recentAccessKey call.entry))
  rw [List.filterMap_cons, filterMap_normalized hKept.normal] at hBounded ⊢
  cases hNormal : call.stamped.normalized with
  | none =>
    rw [hNormal] at hBounded
    exact ⟨hBounded, hKept.keys.latest, fun x hx => hKept.normal x (mem_of_mem_latest hx)⟩
  | some y =>
    rw [hNormal] at hBounded
    obtain ⟨rfl, hAdmitted⟩ := normalized_eq_some hNormal
    have hText : call.stamped.EndsInText := stamped_endsInText.mpr (hClear hAdmitted).1
    have hAgain : call.stamped.cleaned.normalized = some call.stamped.cleaned := by
      rw [RecentAccessEntry.normalized, (RecentAccessEntry.cleaned_twice _).mpr hText,
        if_pos hAdmitted]
    refine ⟨hBounded, HaveDistinctKeys.latest ?_, fun x hx => ?_⟩
    · refine List.nodup_cons.mpr ⟨fun hIn => ?_, hKept.keys⟩
      obtain ⟨x, hx, hKey⟩ := List.mem_map.mp hIn
      exact hClear.key_ne hAdmitted hx hKey
    · rcases List.mem_cons.mp (mem_of_mem_latest hx) with rfl | hx
      · exact hAgain
      · exact hKept.normal x hx

variable (numbers) in
/-- The cookie that is written for a list never is too large. -/
theorem Bounded.size (h : Bounded entries) :
    ∃ text, serializeRecentAccess numbers entries = some text ∧
      text.length ≤ recentAccessCookieMaxBytes := by
  obtain ⟨text, -, hText, hSize, -⟩ :=
    serializeRecentAccess_spec numbers h.timed h.limit
  exact ⟨text, hText, hSize⟩

theorem Tidy.readBack (h : Tidy entries) :
    ∃ text, serializeRecentAccess numbers entries = some text ∧
      IsLongestFitting numbers (parseRecentAccessCookie numbers (some text)) entries := by
  obtain ⟨text, kept, hText, -, hKept, hRead⟩ :=
    serializeRecentAccess_spec numbers h.timed h.limit
  have hTidy := h.of_sublist hKept.isPrefix.sublist
  rw [filterMap_normalized hTidy.normal, latest_eq_self hTidy.order hTidy.limit] at hRead
  exact ⟨text, hText, hRead ▸ hKept⟩

theorem bounded_of_run {calls : List Upsert} (h : (upserts numbers).run [] calls = some entries) :
    Bounded entries :=
  (Machine.Runs.of_run h).invariant
    (fun _ _ _ _ hStep hBefore => Option.some_inj.mp hStep ▸ hBefore.upsert numbers _) bounded_nil

theorem tidy_of_runs {calls : List Upsert}
    (h : (upserts numbers).Runs Clear [] calls entries) : Tidy entries :=
  h.invariant (fun _ _ _ hClear hStep hBefore => Option.some_inj.mp hStep ▸ hBefore.upsert hClear)
    tidy_nil

variable (numbers) in
/-- What the list and its cookie are meant to be. -/
structure Intact (entries : List RecentAccessEntry) : Prop where
  limit : entries.length ≤ recentAccessLimit
  keys : HaveDistinctKeys entries
  order : Ordered entries
  size : ∃ text, serializeRecentAccess numbers entries = some text ∧
    (text.length ≤ recentAccessCookieMaxBytes ∨ encodeURIComponent (units "[]") = some text)
  readBack : ∃ text, serializeRecentAccess numbers entries = some text ∧
    IsLongestFitting numbers (parseRecentAccessCookie numbers (some text)) entries

theorem Tidy.intact (h : Tidy entries) : Intact numbers entries := by
  obtain ⟨text, hText, hSize⟩ := h.size numbers
  exact ⟨h.limit, h.keys, h.order, ⟨text, hText, .inl hSize⟩, h.readBack⟩

/-- A list whose first entry cleaning changes is not what its cookie gives back. -/
theorem not_readBack_of_unclean {entry : RecentAccessEntry} {rest : List RecentAccessEntry}
    (hBounded : Bounded (entry :: rest)) (hNormal : ∀ x ∈ rest, x.normalized = some x)
    (hUnclean : entry.cleaned ≠ entry) (hFits : Fits numbers [entry]) {text : Utf16}
    (hText : serializeRecentAccess numbers (entry :: rest) = some text) :
    ¬ IsLongestFitting numbers (parseRecentAccessCookie numbers (some text)) (entry :: rest) := by
  intro hLongest
  obtain ⟨text', kept, hText', -, hKept, hRead⟩ :=
    serializeRecentAccess_spec numbers hBounded.timed hBounded.limit
  cases hText.symm.trans hText'
  rw [hLongest.unique hKept] at hRead
  -- the first entry has been written
  have hSome := hKept.longest [entry] (List.prefix_append [entry] rest) hFits
  obtain ⟨x, kept, rfl⟩ := List.exists_cons_of_length_pos hSome
  obtain ⟨rfl, hRest⟩ := List.cons_prefix_cons.mp hKept.isPrefix
  have hKeptNormal : ∀ y ∈ kept, y.normalized = some y := fun y hy => hNormal y (hRest.subset hy)
  have hOrder : Ordered (x :: kept) := hBounded.order.sublist hKept.isPrefix.sublist
  have hLimit : (x :: kept).length ≤ recentAccessLimit :=
    hKept.isPrefix.length_le.trans hBounded.limit
  rw [List.filterMap_cons, filterMap_normalized hKeptNormal] at hRead
  cases hAgain : x.normalized with
  | none =>
    have hLength := congrArg List.length hRead
    rw [hAgain, latest_eq_self (List.pairwise_cons.mp hOrder).2 (Nat.le_of_succ_le hLimit),
      List.length_cons] at hLength
    omega
  | some y =>
    obtain ⟨rfl, -⟩ := normalized_eq_some hAgain
    have hSame : latest (x.cleaned :: kept) = x.cleaned :: kept :=
      latest_eq_self (List.pairwise_cons.mpr (List.pairwise_cons.mp hOrder)) hLimit
    rw [hAgain] at hRead
    exact hUnclean (List.cons.inj (hRead.trans hSame)).1.symm

theorem not_intact_of_not_clear (h : Tidy entries) (hClear : ¬ Clear entries call)
    (hRoom : entries.length < recentAccessLimit)
    (hLate : ∀ x ∈ entries, x.accessedAt ≤ (call.now.val : ℚ))
    (hFits : Fits numbers [call.stamped.cleaned]) :
    ¬ Intact numbers (upsertRecentAccess numbers call.now entries call.entry) := by
  intro hIntact
  unfold Clear at hClear
  push Not at hClear
  obtain ⟨hAdmitted, hUnclear⟩ := hClear
  have hBounded := h.toBounded.upsert numbers call
  have hKept := h.of_sublist (List.filter_sublist (p := fun item =>
    recentAccessKey item != recentAccessKey call.entry))
  have hNormal : call.stamped.normalized = some call.stamped.cleaned := if_pos hAdmitted
  have hList : upsertRecentAccess numbers call.now entries call.entry =
      call.stamped.cleaned :: entries.filter fun item =>
        recentAccessKey item != recentAccessKey call.entry := by
    rw [upsertRecentAccess_eq, List.filterMap_cons, hNormal, filterMap_normalized hKept.normal]
    refine latest_eq_self (List.pairwise_cons.mpr ⟨fun x hx => ?_, hKept.order⟩) ?_
    · exact hLate x (List.mem_of_mem_filter hx)
    · have hLength := List.length_filter_le
        (fun item => recentAccessKey item != recentAccessKey call.entry) entries
      rw [List.length_cons]
      omega
  rw [hList] at hIntact hBounded
  by_cases hText : call.entry.EndsInText
  · obtain ⟨x, hx, hArea, hType, hId, hOther⟩ := hUnclear hText
    have hStays : x ∈ entries.filter fun item =>
        recentAccessKey item != recentAccessKey call.entry := by
      refine List.mem_filter.mpr ⟨hx, ?_⟩
      rw [bne_iff_ne]
      exact fun hKey => hOther (recentAccessKey_inj.mp hKey).2.2
    refine (List.nodup_cons.mp hIntact.keys).1 (List.mem_map.mpr ⟨x, hStays, ?_⟩)
    rw [hArea, hType, hId]
    rfl
  · obtain ⟨text, hWritten, hRead⟩ := hIntact.readBack
    have hUnclean : call.stamped.cleaned.cleaned ≠ call.stamped.cleaned := fun hSame =>
      hText (stamped_endsInText.mp ((RecentAccessEntry.cleaned_twice _).mp hSame))
    exact not_readBack_of_unclean hBounded hKept.normal hUnclean hFits hWritten hRead

/-- After any calls the list is short and ordered, and its cookie is small.  After calls that store
their entries as they will be read back, it also is without repeated keys, and the cookie gives it
back; the next call keeps it so only if it does the same, unless the list is full, the clock has
been set back or the cookie has no room for the entry. -/
theorem upserts_intact {calls : List Upsert}
    (hRun : (upserts numbers).run [] calls = some entries) :
    (entries.length ≤ recentAccessLimit ∧ Ordered entries ∧
      ∃ text, serializeRecentAccess numbers entries = some text ∧
        text.length ≤ recentAccessCookieMaxBytes) ∧
      ((upserts numbers).Runs Clear [] calls entries →
        Intact numbers entries ∧
          ∀ call : Upsert, entries.length < recentAccessLimit →
            (∀ x ∈ entries, x.accessedAt ≤ (call.now.val : ℚ)) →
            Fits numbers [call.stamped.cleaned] →
            (Intact numbers (upsertRecentAccess numbers call.now entries call.entry) ↔
              Clear entries call)) := by
  have hBounded := bounded_of_run hRun
  refine ⟨⟨hBounded.limit, hBounded.order, hBounded.size numbers⟩, fun hRuns => ?_⟩
  have hTidy := tidy_of_runs hRuns
  refine ⟨hTidy.intact, fun call hRoom hLate hFits => ⟨fun hIntact => ?_, fun hClear => ?_⟩⟩
  · by_contra hClear
    exact not_intact_of_not_clear hTidy hClear hRoom hLate hFits hIntact
  · exact (hTidy.upsert hClear).intact

/-- For lists whose only numbers are times. -/
def timesOnly : Numbers := ⟨some, fun _ => [], fun _ => none⟩

/-- The entry that the page of a lesson records. -/
def lessonEntry (id : String) : RecentAccessEntry where
  userId := units "u"
  id := units id
  type := .lesson
  area := .dashboard
  orgSlug := none
  title := units "Lesson"
  href := units "/dashboard/lesson"
  accessedAt := 0
  subtitle := none

def firstVisit : Upsert := ⟨⟨1, by decide⟩, lessonEntry "a"⟩

/-- The same page, with a space before its id. -/
def secondVisit : Upsert := ⟨⟨2, by decide⟩, lessonEntry " a"⟩

theorem upserts_intact_lesson :
    Intact timesOnly [firstVisit.stamped] ∧
      ¬ Intact timesOnly
        (upsertRecentAccess timesOnly secondVisit.now [firstVisit.stamped] secondVisit.entry) := by
  have hRuns : (upserts timesOnly).Runs Clear [] [firstVisit] [firstVisit.stamped] :=
    Machine.Runs.of_restrict (by decide +kernel)
  have hIntact := (upserts_intact hRuns.run).2 hRuns
  have hFits : Fits timesOnly [secondVisit.stamped.cleaned] := by decide +kernel
  have hNext := hIntact.2 secondVisit (by decide) (by decide +kernel) hFits
  exact ⟨hIntact.1, fun h => absurd (hNext.mp h) (by decide +kernel)⟩

/-- A page whose title is cut behind a space. -/
def longTitle : Upsert :=
  ⟨⟨1, by decide⟩, { lessonEntry "a" with title := List.replicate 159 0x78 ++ units " y" }⟩

/-- Two entries of one key, and an entry that is read back with another title. -/
theorem upserts_not_intact :
    (∃ entries, (upserts timesOnly).run [] [firstVisit, secondVisit] = some entries ∧
      ¬ HaveDistinctKeys entries) ∧
      ∃ entries text, (upserts timesOnly).run [] [longTitle] = some entries ∧
        serializeRecentAccess timesOnly entries = some text ∧
        ¬ IsLongestFitting timesOnly (parseRecentAccessCookie timesOnly (some text)) entries := by
  constructor
  · refine ⟨[secondVisit.stamped.cleaned, firstVisit.stamped], by decide +kernel, ?_⟩
    unfold HaveDistinctKeys
    decide +kernel
  · have hRun : (upserts timesOnly).run [] [longTitle] = some [longTitle.stamped.cleaned] := by
      decide +kernel
    have hBounded := bounded_of_run hRun
    obtain ⟨text, hText, -⟩ := hBounded.size timesOnly
    refine ⟨[longTitle.stamped.cleaned], text, hRun, hText, ?_⟩
    exact not_readBack_of_unclean hBounded (fun _ hx => absurd hx List.not_mem_nil)
      (by decide +kernel) (by decide +kernel) hText

end Runs

end Richter.Dashboard
