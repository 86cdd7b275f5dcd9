import Mathlib.Data.List.Count
import Mathlib.Logic.Function.Basic
import Richter.Interactions.ObjectKeys
import Richter.Lib.Machine

/-! The limit on how often a student asks for an upload (`internal/svc/storage/rate_limiter.go`).
Each user has a counter for each lesson, which the first call after its period sets back.  Times are
in nanoseconds, and `nfc` is the Unicode normalization of the keys. -/

namespace Richter.Storage

open Lib
open Interactions (normalizeStorageKey splitN)

structure UploadCounter where
  count : ℕ := 0
  resetAt : Int
  deriving DecidableEq

/-- An `inMemoryUploadRateLimiter`, without its buckets. -/
structure InMemoryUploadRateLimiter where
  max : ℕ
  window : Int
  window_pos : 0 < window

inductive UploadRateLimiter
  | unlimited
  | inMemory (limiter : InMemoryUploadRateLimiter)

/-- `time.Minute`. -/
def minute : Int := 60000000000

/-- `NewUploadRateLimiter`. -/
def newUploadRateLimiter (studentUploadsPerWindow studentUploadWindow : Int) : UploadRateLimiter :=
  if studentUploadsPerWindow ≤ 0 then .unlimited
  else if h : studentUploadWindow ≤ 0 then
    .inMemory ⟨studentUploadsPerWindow.toNat, minute, by decide⟩
  else .inMemory ⟨studentUploadsPerWindow.toNat, studentUploadWindow, by omega⟩

abbrev Buckets := String → Option UploadCounter

section Allow

variable (nfc : String → String)

/-- `uploadBucketKey`. -/
def uploadBucketKey (userID key : String) : String :=
  match (splitN 3 (normalizeStorageKey nfc key).toList)[1]? with
  | none | some [] => userID ++ "|malformed"
  | some part => userID ++ "|" ++ String.ofList part

/-- A call of `Allow`, and its `time.Now()`. -/
structure AllowCall where
  userID : String
  key : String
  now : Int
  deriving DecidableEq

namespace InMemoryUploadRateLimiter

variable (l : InMemoryUploadRateLimiter)

/-- The counter of a bucket at a call: a new one where there is none whose period goes on. -/
def counterAt (buckets : Buckets) (bucketKey : String) (now : Int) : UploadCounter :=
  match buckets bucketKey with
  | none => { resetAt := now + l.window }
  | some c => if c.resetAt < now then { resetAt := now + l.window } else c

/-- `inMemoryUploadRateLimiter.Allow`. -/
def allow (buckets : Buckets) (call : AllowCall) : Bool × Buckets :=
  if call.userID = "" then (true, buckets)
  else
    let bucketKey := uploadBucketKey nfc call.userID call.key
    let c := l.counterAt buckets bucketKey call.now
    if l.max ≤ c.count then (false, Function.update buckets bucketKey (some c))
    else (true, Function.update buckets bucketKey (some { c with count := c.count + 1 }))

end InMemoryUploadRateLimiter

/-- The bucket that a call counts in. -/
def AllowCall.onBucket (bucketKey : String) (call : AllowCall) : Bool :=
  call.userID ≠ "" && uploadBucketKey nfc call.userID call.key = bucketKey

/-- A call and what it returned. -/
structure Answer where
  call : AllowCall
  allowed : Bool
  deriving DecidableEq

/-- The call was let through on the bucket. -/
def Answer.granted (bucketKey : String) (a : Answer) : Bool :=
  a.allowed && a.call.onBucket nfc bucketKey

/-- A limiter in the course of its calls, the last one first. -/
structure Calls where
  buckets : Buckets := fun _ => none
  clock : Int
  log : List Answer := []

def Calls.call (l : InMemoryUploadRateLimiter) (s : Calls) (call : AllowCall) : Calls :=
  let (allowed, buckets) := l.allow nfc s.buckets call
  { buckets := buckets, clock := call.now, log := ⟨call, allowed⟩ :: s.log }

/-- Calls at times that do not decrease. -/
def limiterMachine (l : InMemoryUploadRateLimiter) : Machine Calls AllowCall where
  step s call := if s.clock ≤ call.now then some (s.call nfc l call) else none

/-- How many calls were let through on a bucket in the half-open window from `t` on. -/
def grantedIn (bucketKey : String) (t window : Int) (log : List Answer) : ℕ :=
  log.countP fun a => a.granted nfc bucketKey && (t ≤ a.call.now && a.call.now < t + window)

/-- The limit holds in every rolling window of every bucket. -/
def Calls.Rolling (l : InMemoryUploadRateLimiter) (s : Calls) : Prop :=
  ∀ bucketKey t, grantedIn nfc bucketKey t l.window s.log ≤ l.max

/-- A call that starts a new period comes at least a window after the calls that were let through
on its bucket. -/
def Quiet (l : InMemoryUploadRateLimiter) (s : Calls) (call : AllowCall) : Prop :=
  ∀ c, s.buckets (uploadBucketKey nfc call.userID call.key) = some c → c.resetAt < call.now →
    ∀ a ∈ s.log, a.granted nfc (uploadBucketKey nfc call.userID call.key) = true →
      a.call.now + l.window ≤ call.now

end Allow

variable {nfc : String → String} {l : InMemoryUploadRateLimiter} {s t : Calls} {call : AllowCall}

theorem onBucket_iff {bucketKey : String} : call.onBucket nfc bucketKey = true ↔
    call.userID ≠ "" ∧ uploadBucketKey nfc call.userID call.key = bucketKey := by
  simp [AllowCall.onBucket]

/-- What a call does: one without a user counts in no bucket, and any other one is let through and
counted as long as its counter is below the limit. -/
theorem call_cases (nfc : String → String) (l : InMemoryUploadRateLimiter) (s : Calls)
    (call : AllowCall) :
    (call.userID = "" ∧
      s.call nfc l call = { s with clock := call.now, log := ⟨call, true⟩ :: s.log }) ∨
    ∃ b c, b = uploadBucketKey nfc call.userID call.key ∧ call.onBucket nfc b = true ∧
      c = l.counterAt s.buckets b call.now ∧
      ((l.max ≤ c.count ∧ s.call nfc l call =
        ⟨Function.update s.buckets b (some c), call.now, ⟨call, false⟩ :: s.log⟩) ∨
      (c.count < l.max ∧ s.call nfc l call =
        ⟨Function.update s.buckets b (some { c with count := c.count + 1 }), call.now,
          ⟨call, true⟩ :: s.log⟩)) := by
  by_cases hUser : call.userID = ""
  · exact .inl ⟨hUser, by simp [Calls.call, InMemoryUploadRateLimiter.allow, hUser]⟩
  · refine .inr ⟨_, _, rfl, onBucket_iff.mpr ⟨hUser, rfl⟩, rfl, ?_⟩
    by_cases hMax : l.max ≤ (l.counterAt s.buckets
        (uploadBucketKey nfc call.userID call.key) call.now).count
    · exact .inl ⟨hMax, by simp [Calls.call, InMemoryUploadRateLimiter.allow, hUser, hMax]⟩
    · exact .inr ⟨by omega, by simp [Calls.call, InMemoryUploadRateLimiter.allow, hUser, hMax]⟩

theorem not_granted_of_ne {b b' : String} (hb : call.onBucket nfc b = true) (hne : b' ≠ b)
    (allowed : Bool) : (Answer.mk call allowed).granted nfc b' = false := by
  have hKey := (onBucket_iff.mp hb).2
  have hOther : call.onBucket nfc b' = false := by
    simp [AllowCall.onBucket, hKey, Ne.symm hne]
  simp [Answer.granted, hOther]

/-- The rule for what holds of each bucket: a call that lets nothing through on a bucket keeps it,
and it holds of the call's own bucket afterwards. -/
theorem forall_bucket_call {P : Int → String → Option UploadCounter → List Answer → Prop}
    (hOther : ∀ b a, a.granted nfc b = false → P call.now b (s.buckets b) (a :: s.log))
    (hDenied : ∀ b c, b = uploadBucketKey nfc call.userID call.key →
      c = l.counterAt s.buckets b call.now → l.max ≤ c.count →
        P call.now b (some c) (⟨call, false⟩ :: s.log))
    (hGranted : ∀ b c, b = uploadBucketKey nfc call.userID call.key →
      c = l.counterAt s.buckets b call.now → c.count < l.max →
        P call.now b (some { c with count := c.count + 1 }) (⟨call, true⟩ :: s.log)) (b : String) :
    P (s.call nfc l call).clock b ((s.call nfc l call).buckets b) (s.call nfc l call).log := by
  obtain ⟨hUser, hCall⟩ | ⟨b', c, hb, hOn, hc, ⟨hFull, hCall⟩ | ⟨hRoom, hCall⟩⟩ :=
    call_cases nfc l s call <;> rw [hCall] <;> dsimp only
  · exact hOther b _ (by simp [Answer.granted, AllowCall.onBucket, hUser])
  · by_cases hEq : b = b'
    · subst hEq
      rw [Function.update_self]
      exact hDenied b c hb hc hFull
    · rw [Function.update_of_ne hEq]
      exact hOther b _ rfl
  · by_cases hEq : b = b'
    · subst hEq
      rw [Function.update_self]
      exact hGranted b c hb hc hRoom
    · rw [Function.update_of_ne hEq]
      exact hOther b _ (not_granted_of_ne hOn hEq true)

theorem step_limiter (h : (limiterMachine nfc l).step s call = some t) :
    s.clock ≤ call.now ∧ t = s.call nfc l call := by
  by_cases hClock : s.clock ≤ call.now
  · simp only [limiterMachine, if_pos hClock, Option.some.injEq] at h
    exact ⟨hClock, h.symm⟩
  · simp [limiterMachine, hClock] at h

/-! ### A period and the windows that it touches -/

section Window

variable {b : String} {c : UploadCounter} {a : Answer} {log : List Answer} {now w : Int}

/-- How many calls were let through on a bucket after `since`. -/
def grantedAfter (nfc : String → String) (bucketKey : String) (since : Int) (log : List Answer) :
    ℕ :=
  log.countP fun a => a.granted nfc bucketKey && since < a.call.now

/-- A counter counts what was let through since a window before its period. -/
structure Covers (nfc : String → String) (l : InMemoryUploadRateLimiter) (log : List Answer)
    (bucketKey : String) (now : Int) (c : UploadCounter) : Prop where
  resetAt_le : c.resetAt ≤ now + l.window
  granted_le : grantedAfter nfc bucketKey (c.resetAt - 2 * l.window) log ≤ c.count

theorem Covers.cons_of_not (h : Covers nfc l log b now c) (hClock : now ≤ call.now)
    (hNot : a.granted nfc b = false) : Covers nfc l (a :: log) b call.now c where
  resetAt_le := by
    have := h.resetAt_le
    omega
  granted_le := by
    have hSame : grantedAfter nfc b (c.resetAt - 2 * l.window) (a :: log) =
        grantedAfter nfc b (c.resetAt - 2 * l.window) log := by simp [grantedAfter, hNot]
    exact hSame.trans_le h.granted_le

/-- A call that is let through is counted. -/
theorem Covers.cons (h : Covers nfc l log b now c) :
    Covers nfc l (a :: log) b now { c with count := c.count + 1 } where
  resetAt_le := h.resetAt_le
  granted_le := by
    have hCons : grantedAfter nfc b (c.resetAt - 2 * l.window) (a :: log) ≤
        grantedAfter nfc b (c.resetAt - 2 * l.window) log + 1 := by
      unfold grantedAfter
      rw [List.countP_cons]
      split <;> omega
    exact hCons.trans (Nat.add_le_add_right h.granted_le 1)

/-- An answer that lets nothing through on a bucket leaves what is counted of it. -/
theorem grantedIn_cons_of_not (h : a.granted nfc b = false) (w window : Int) :
    grantedIn nfc b w window (a :: log) = grantedIn nfc b w window log := by
  simp [grantedIn, h]

/-- Below the limit there is room in every window that the call is in. -/
theorem grantedIn_cons_le (hc : Covers nfc l log b a.call.now c) (hCount : c.count < l.max)
    (hLog : grantedIn nfc b w l.window log ≤ l.max) :
    grantedIn nfc b w l.window (a :: log) ≤ l.max := by
  by_cases hIn : w ≤ a.call.now ∧ a.call.now < w + l.window
  · have hRoom : grantedIn nfc b w l.window log < l.max := by
      refine lt_of_le_of_lt (List.countP_mono_left fun a' _ ha' => ?_)
        (lt_of_le_of_lt hc.granted_le hCount)
      simp only [Bool.and_eq_true, decide_eq_true_eq] at ha' ⊢
      have := hc.resetAt_le
      exact ⟨ha'.1, by omega⟩
    unfold grantedIn at hRoom ⊢
    rw [List.countP_cons]
    split <;> omega
  · have hOut : (decide (w ≤ a.call.now) && decide (a.call.now < w + l.window)) = false := by
      simpa using hIn
    rw [grantedIn, List.countP_cons, hOut, Bool.and_false]
    exact hLog

/-- The counter of a bucket covers it, and the limit holds in its windows. -/
structure Counted (nfc : String → String) (l : InMemoryUploadRateLimiter) (clock : Int)
    (bucketKey : String) (counter : Option UploadCounter) (log : List Answer) : Prop where
  unused : counter = none → ∀ a ∈ log, a.granted nfc bucketKey = false
  covers : ∀ c, counter = some c → Covers nfc l log bucketKey clock c
  rolling : ∀ w, grantedIn nfc bucketKey w l.window log ≤ l.max

/-- Before a quiet call, its counter covers its bucket, too. -/
theorem counterAt_covers (hs : Counted nfc l s.clock b (s.buckets b) s.log)
    (hClock : s.clock ≤ call.now) (hQuiet : Quiet nfc l s call)
    (hb : b = uploadBucketKey nfc call.userID call.key) :
    Covers nfc l s.log b call.now (l.counterAt s.buckets b call.now) := by
  have hNew : (∀ a ∈ s.log, a.granted nfc b = true → a.call.now + l.window ≤ call.now) →
      Covers nfc l s.log b call.now { resetAt := call.now + l.window } := by
    intro hOld
    refine ⟨le_refl _, le_of_eq (List.countP_eq_zero.mpr fun a ha => ?_)⟩
    simp only [Bool.and_eq_true, decide_eq_true_eq, not_and]
    intro hGranted
    have := hOld a ha hGranted
    omega
  unfold InMemoryUploadRateLimiter.counterAt
  cases hBucket : s.buckets b with
  | none =>
    refine hNew fun a ha hGranted => ?_
    rw [hs.unused hBucket a ha] at hGranted
    cases hGranted
  | some c =>
    dsimp only
    split
    · next hReset =>
      subst hb
      exact hNew (hQuiet c hBucket hReset)
    · obtain ⟨hReset, hCount⟩ := hs.covers c hBucket
      exact ⟨by omega, hCount⟩

/-- A quiet call keeps the limit in every window. -/
theorem counted_call (hs : ∀ b, Counted nfc l s.clock b (s.buckets b) s.log)
    (hClock : s.clock ≤ call.now) (hQuiet : Quiet nfc l s call) (b : String) :
    Counted nfc l (s.call nfc l call).clock b ((s.call nfc l call).buckets b)
      (s.call nfc l call).log := by
  refine forall_bucket_call (fun b a hNot => ?_) (fun b c hb hc _ => ?_)
    (fun b c hb hc hRoom => ?_) b
  · exact {
      unused := fun hNone => List.forall_mem_cons.mpr ⟨hNot, (hs b).unused hNone⟩
      covers := fun c hSome => ((hs b).covers c hSome).cons_of_not hClock hNot
      rolling := fun w => (grantedIn_cons_of_not hNot w l.window).trans_le ((hs b).rolling w) }
  · have hCovers := hc ▸ counterAt_covers (hs b) hClock hQuiet hb
    have hNot : (Answer.mk call false).granted nfc b = false := rfl
    exact {
      unused := fun hNone => by cases hNone
      covers := fun c' hSome => Option.some.inj hSome ▸ hCovers.cons_of_not (le_refl _) hNot
      rolling := fun w => (grantedIn_cons_of_not hNot w l.window).trans_le ((hs b).rolling w) }
  · have hCovers := hc ▸ counterAt_covers (hs b) hClock hQuiet hb
    exact {
      unused := fun hNone => by cases hNone
      covers := fun c' hSome => Option.some.inj hSome ▸ hCovers.cons
      rolling := fun w => grantedIn_cons_le hCovers hRoom ((hs b).rolling w) }

end Window

/-- In every run of quiet calls the limit holds in every window. -/
theorem rolling_of_quiet {clock : Int} {calls : List AllowCall}
    (h : (limiterMachine nfc l).Runs (Quiet nfc l) { clock := clock } calls s) :
    s.Rolling nfc l := by
  have hCounted : ∀ b, Counted nfc l s.clock b (s.buckets b) s.log := by
    refine Machine.Runs.invariant
      (I := fun s => ∀ b, Counted nfc l s.clock b (s.buckets b) s.log) ?_ h fun b => ?_
    · intro s call t hQuiet hStep hs
      obtain ⟨hClock, rfl⟩ := step_limiter hStep
      exact counted_call hs hClock hQuiet
    · exact {
        unused := fun _ _ ha => absurd ha List.not_mem_nil
        covers := fun _ hSome => by cases hSome
        rolling := fun _ => Nat.zero_le _ }
  exact fun b => (hCounted b).rolling

/-! ### Limits that always hold -/

/-- What was let through on a bucket is a window away from the end of its period: so it is where
only the call that starts a period is let through, and where a window is a single instant. -/
structure Apart (nfc : String → String) (l : InMemoryUploadRateLimiter) (bucketKey : String)
    (counter : Option UploadCounter) (log : List Answer) : Prop where
  unused : counter = none → ∀ a ∈ log, a.granted nfc bucketKey = false
  full : l.max ≤ 1 → ∀ c, counter = some c → l.max ≤ c.count
  apart : ∀ c, counter = some c → ∀ a ∈ log, a.granted nfc bucketKey = true →
    a.call.now + l.window ≤ c.resetAt + 1

theorem quiet_of_apart (hs : ∀ b, Apart nfc l b (s.buckets b) s.log) (call : AllowCall) :
    Quiet nfc l s call := by
  intro c hBucket hReset a ha hGranted
  have := (hs _).apart c hBucket a ha hGranted
  omega

/-- The counter of a call, too, is that far from what was let through before. -/
theorem counterAt_apart {b : String} (hs : Apart nfc l b (s.buckets b) s.log) (now : Int) :
    (∀ a ∈ s.log, a.granted nfc b = true →
      a.call.now + l.window ≤ (l.counterAt s.buckets b now).resetAt + 1) ∧
    ((l.counterAt s.buckets b now).resetAt = now + l.window ∨
      s.buckets b = some (l.counterAt s.buckets b now) ∧
        now ≤ (l.counterAt s.buckets b now).resetAt) := by
  have hPos := l.window_pos
  unfold InMemoryUploadRateLimiter.counterAt
  cases hBucket : s.buckets b with
  | none =>
    refine ⟨fun a ha hGranted => ?_, .inl rfl⟩
    rw [hs.unused hBucket a ha] at hGranted
    cases hGranted
  | some c =>
    dsimp only
    split
    · next hReset =>
      refine ⟨fun a ha hGranted => ?_, .inl rfl⟩
      have hOld := hs.apart c hBucket a ha hGranted
      dsimp only
      omega
    · next hGoes => exact ⟨hs.apart c hBucket, .inr ⟨rfl, by omega⟩⟩

theorem apart_call (hSmall : l.max ≤ 1 ∨ l.window ≤ 1)
    (hs : ∀ b, Apart nfc l b (s.buckets b) s.log) (b : String) :
    Apart nfc l b ((s.call nfc l call).buckets b) (s.call nfc l call).log := by
  refine forall_bucket_call (P := fun _ => Apart nfc l) (fun b a hNot => ?_)
    (fun b c hb hc hFull => ?_) (fun b c hb hc hRoom => ?_) b
  · exact {
      unused := fun hNone => List.forall_mem_cons.mpr ⟨hNot, (hs b).unused hNone⟩
      full := (hs b).full
      apart := fun c hSome => List.forall_mem_cons.mpr
        ⟨fun hGranted => by simp [hNot] at hGranted, (hs b).apart c hSome⟩ }
  · have hOld := hc ▸ (counterAt_apart (hs b) call.now).1
    exact {
      unused := fun hNone => by cases hNone
      full := fun _ c' hSome => Option.some.inj hSome ▸ hFull
      apart := fun c' hSome => Option.some.inj hSome ▸ List.forall_mem_cons.mpr
        ⟨fun hGranted => (by cases hGranted), hOld⟩ }
  · obtain ⟨hOld, hNew⟩ := hc ▸ counterAt_apart (hs b) call.now
    have hNow : call.now + l.window ≤ c.resetAt + 1 := by
      rcases hNew with hNew | ⟨hBucket, hGoes⟩
      · omega
      · rcases hSmall with hMax | hInstant
        · have := (hs b).full hMax c hBucket
          omega
        · omega
    exact {
      unused := fun hNone => by cases hNone
      full := fun hMax c' hSome => Option.some.inj hSome ▸ by dsimp only; omega
      apart := fun c' hSome => Option.some.inj hSome ▸ List.forall_mem_cons.mpr
        ⟨fun _ => hNow, hOld⟩ }

theorem rolling_of_small (hSmall : l.max ≤ 1 ∨ l.window ≤ 1) {clock : Int}
    {calls : List AllowCall}
    (h : (limiterMachine nfc l).run { clock := clock } calls = some s) : s.Rolling nfc l := by
  refine rolling_of_quiet (Machine.Runs.of_invariant
    (I := fun s => ∀ b, Apart nfc l b (s.buckets b) s.log) ?_ h fun b => ?_)
  · intro s call t hStep hs
    obtain ⟨-, rfl⟩ := step_limiter hStep
    exact ⟨quiet_of_apart hs call, apart_call hSmall hs⟩
  · exact {
      unused := fun _ _ ha => absurd ha List.not_mem_nil
      full := fun _ _ hSome => by cases hSome
      apart := fun _ hSome => by cases hSome }

/-! ### The other buckets -/

section Other

variable {b : String} {buckets buckets' : Buckets}

/-- A call reads no other bucket than its own. -/
theorem allow_congr (hOn : call.onBucket nfc b = true) (h : buckets b = buckets' b) :
    (l.allow nfc buckets call).1 = (l.allow nfc buckets' call).1 ∧
      (l.allow nfc buckets call).2 b = (l.allow nfc buckets' call).2 b := by
  obtain ⟨hUser, hKey⟩ := onBucket_iff.mp hOn
  have hCounter : l.counterAt buckets b call.now = l.counterAt buckets' b call.now := by
    unfold InMemoryUploadRateLimiter.counterAt
    rw [h]
  simp only [InMemoryUploadRateLimiter.allow, if_neg hUser, hKey, hCounter]
  split <;> simp

/-- A call changes no other bucket than its own. -/
theorem allow_other (hOn : call.onBucket nfc b = false) :
    (l.allow nfc buckets call).2 b = buckets b := by
  unfold InMemoryUploadRateLimiter.allow
  split
  · rfl
  · next hUser =>
    have hNe : b ≠ uploadBucketKey nfc call.userID call.key := by
      rintro rfl
      simp [AllowCall.onBucket, hUser] at hOn
    dsimp only
    split <;> exact Function.update_of_ne hNe _ _

/-- The answers on a bucket are those of a run that has only the calls on this bucket. -/
theorem run_onBucket (calls : List AllowCall) {u v : Calls} (hClock : v.clock ≤ u.clock)
    (hBucket : v.buckets b = u.buckets b)
    (hLog : v.log = u.log.filter fun a => a.call.onBucket nfc b)
    (h : (limiterMachine nfc l).run u calls = some s) :
    ∃ t, (limiterMachine nfc l).run v (calls.filter fun call => call.onBucket nfc b) = some t ∧
      t.log = s.log.filter fun a => a.call.onBucket nfc b := by
  induction calls generalizing u v with
  | nil =>
    obtain rfl : u = s := Option.some.inj h
    exact ⟨v, rfl, hLog⟩
  | cons call calls ih =>
    obtain ⟨u', hStep, hRun⟩ := Machine.run_cons.mp h
    obtain ⟨hNow, rfl⟩ := step_limiter hStep
    by_cases hOn : call.onBucket nfc b = true
    · obtain ⟨hAnswer, hNext⟩ := allow_congr (l := l) hOn hBucket
      obtain ⟨t, hRest, hLast⟩ := ih (u := u.call nfc l call) (v := v.call nfc l call)
        (le_refl _) hNext
        (by simp [Calls.call, hOn, hLog, hAnswer]) hRun
      refine ⟨t, ?_, hLast⟩
      rw [List.filter_cons_of_pos hOn]
      exact Machine.run_cons.mpr ⟨_, if_pos (hClock.trans hNow), hRest⟩
    · rw [Bool.not_eq_true] at hOn
      rw [List.filter_cons_of_neg (by simp [hOn])]
      refine ih (hClock.trans hNow) ?_ ?_ hRun
      · exact hBucket.trans (allow_other hOn).symm
      · simp [Calls.call, hOn, hLog]

end Other

/-! ### Two periods in one window -/

/-- A user's call at the time `now`. -/
def callAt (now : Int) : AllowCall := { userID := "u", key := "", now := now }

/-- The bucket of these calls. -/
def callBucket (nfc : String → String) : String := uploadBucketKey nfc "u" ""

theorem call_callAt {c : UploadCounter} {now : Int}
    (hCounter : l.counterAt s.buckets (callBucket nfc) now = c) (hRoom : c.count < l.max) :
    s.call nfc l (callAt now) =
      ⟨Function.update s.buckets (callBucket nfc) (some { c with count := c.count + 1 }), now,
        ⟨callAt now, true⟩ :: s.log⟩ := by
  obtain ⟨hUser, -⟩ | ⟨b, c', hb, -, hc, hCases⟩ := call_cases nfc l s (callAt now)
  · simp [callAt] at hUser
  · change b = callBucket nfc at hb
    change c' = l.counterAt s.buckets b now at hc
    rw [hb, hCounter] at hc
    subst hb hc
    rcases hCases with ⟨hFull, -⟩ | ⟨-, hCall⟩
    · omega
    · exact hCall

/-- As many calls as there is room for are let through in one period. -/
theorem run_callAt (nfc : String → String) (s : Calls) (c : UploadCounter) (now : Int) (n : ℕ)
    (hCounter : l.counterAt s.buckets (callBucket nfc) now = c) (hGoes : now ≤ c.resetAt)
    (hClock : s.clock ≤ now) (hRoom : c.count + n + 1 ≤ l.max) :
    ∃ t, (limiterMachine nfc l).run s (List.replicate (n + 1) (callAt now)) = some t ∧
      t.log = List.replicate (n + 1) ⟨callAt now, true⟩ ++ s.log ∧ t.clock = now ∧
      t.buckets (callBucket nfc) = some { c with count := c.count + n + 1 } := by
  have hCall := call_callAt hCounter (by omega)
  have hStep : (limiterMachine nfc l).step s (callAt now) = some (s.call nfc l (callAt now)) :=
    if_pos hClock
  induction n generalizing s c with
  | zero =>
    refine ⟨s.call nfc l (callAt now), ?_, ?_⟩
    · exact Machine.run_cons.mpr ⟨_, hStep, rfl⟩
    · rw [hCall]
      simp
  | succ n ih =>
    have hNext : l.counterAt (s.call nfc l (callAt now)).buckets (callBucket nfc) now =
        { c with count := c.count + 1 } := by
      rw [hCall]
      simp [InMemoryUploadRateLimiter.counterAt, Int.not_lt.mpr hGoes]
    have hClockNext : (s.call nfc l (callAt now)).clock ≤ now := by rw [hCall]
    obtain ⟨t, hRun, hLog, hNow, hBucket⟩ := ih _ _ hNext hGoes hClockNext (by dsimp only; omega)
      (call_callAt hNext (by dsimp only; omega)) (if_pos hClockNext)
    refine ⟨t, Machine.run_cons.mpr ⟨_, hStep, hRun⟩, ?_, hNow, ?_⟩
    · rw [hLog, hCall, List.replicate_succ' (n := n + 1), List.append_assoc]
      rfl
    · rw [hBucket]
      simp only [Option.some.injEq, UploadCounter.mk.injEq, and_true]
      omega

/-- The first call starts a period, the other ones that it has room for come at its end, and two
more come right after it. -/
def straddling (l : InMemoryUploadRateLimiter) : List AllowCall :=
  List.replicate 1 (callAt 0) ++ (List.replicate (l.max - 1) (callAt l.window) ++
    List.replicate 2 (callAt (l.window + 1)))

theorem grantedIn_replicate (n : ℕ) {now w window : Int} (h : w ≤ now ∧ now < w + window)
    (log : List Answer) : grantedIn nfc (callBucket nfc) w window
      (List.replicate n ⟨callAt now, true⟩ ++ log) =
        n + grantedIn nfc (callBucket nfc) w window log := by
  have hCounts : ((Answer.mk (callAt now) true).granted nfc (callBucket nfc) &&
      (decide (w ≤ (callAt now).now) && decide ((callAt now).now < w + window))) = true := by
    simp [Answer.granted, AllowCall.onBucket, callAt, callBucket, h]
  rw [grantedIn, List.countP_append, List.countP_replicate, if_pos hCounts]
  rfl

/-- Where more than one call is let through in a period of more than an instant, the limit does not
hold in the window that lies across the end of the first period. -/
theorem not_rolling_straddling (nfc : String → String) (l : InMemoryUploadRateLimiter)
    (hMax : 1 < l.max) (hWindow : 1 < l.window) :
    ∃ s, (limiterMachine nfc l).run { clock := 0 } (straddling l) = some s ∧ ¬ s.Rolling nfc l := by
  obtain ⟨n, hn⟩ : ∃ n, l.max = n + 2 := ⟨l.max - 2, by omega⟩
  have hPos := l.window_pos
  obtain ⟨s₁, hRun₁, hLog₁, hClock₁, hBucket₁⟩ := run_callAt (l := l) nfc
    { clock := 0 } { resetAt := 0 + l.window } 0 0 rfl
    (by dsimp only; omega) (le_refl _) (by dsimp only; omega)
  -- the period goes on for as long as it is not after its end
  obtain ⟨s₂, hRun₂, hLog₂, hClock₂, hBucket₂⟩ := run_callAt (l := l) nfc s₁
    { count := 1, resetAt := l.window } l.window n
    (by simp [InMemoryUploadRateLimiter.counterAt, hBucket₁]) (le_refl _) (by omega)
    (by dsimp only; omega)
  obtain ⟨s₃, hRun₃, hLog₃, -, -⟩ := run_callAt (l := l) nfc s₂
    { resetAt := l.window + 1 + l.window } (l.window + 1) 1
    (by simp [InMemoryUploadRateLimiter.counterAt, hBucket₂]) (by dsimp only; omega) (by omega)
    (by dsimp only; omega)
  refine ⟨s₃, ?_, fun hRolling => ?_⟩
  · have hLast : l.max - 1 = n + 1 := by omega
    rw [straddling, hLast]
    exact ((Machine.Runs.of_run hRun₁).append
      ((Machine.Runs.of_run hRun₂).append (Machine.Runs.of_run hRun₃))).run
  · have hMany := hRolling (callBucket nfc) l.window
    rw [hLog₃, grantedIn_replicate _ (by omega), hLog₂, grantedIn_replicate _ (by omega)] at hMany
    omega

/-- The limit holds in every rolling window of a run in which each call that starts a new period
comes a window after the calls that were let through on its bucket, and it holds in every run just
when there is at most one call in a period or a window is an instant.  The answers on a bucket are
in every run the ones that its calls have alone. -/
theorem allow_rolling (nfc : String → String) (l : InMemoryUploadRateLimiter) :
    (∀ clock calls s, (limiterMachine nfc l).Runs (Quiet nfc l) { clock := clock } calls s →
      s.Rolling nfc l) ∧
    ((∀ clock calls s, (limiterMachine nfc l).run { clock := clock } calls = some s →
      s.Rolling nfc l) ↔ l.max ≤ 1 ∨ l.window ≤ 1) ∧
    ∀ clock calls s, (limiterMachine nfc l).run { clock := clock } calls = some s → ∀ b,
      ∃ t, (limiterMachine nfc l).run { clock := clock }
          (calls.filter fun call => call.onBucket nfc b) = some t ∧
        t.log = s.log.filter fun a => a.call.onBucket nfc b := by
  refine ⟨fun clock calls s h => rolling_of_quiet h, ⟨fun h => ?_, fun h clock calls s hRun =>
    rolling_of_small h hRun⟩, fun clock calls s h b => run_onBucket calls (le_refl _) rfl rfl h⟩
  by_contra hLarge
  rw [not_or, not_le, not_le] at hLarge
  obtain ⟨s, hRun, hNot⟩ := not_rolling_straddling nfc l hLarge.1 hLarge.2
  exact hNot (h 0 _ s hRun)

/-- Two uploads in ten nanoseconds. -/
def twoInTen : InMemoryUploadRateLimiter := ⟨2, 10, by decide⟩

/-- The calls at 10, 11 and 11 are all let through. -/
theorem not_rolling_twoInTen : ∃ s, (limiterMachine id twoInTen).run { clock := 0 }
    [callAt 0, callAt 10, callAt 11, callAt 11] = some s ∧ ¬ s.Rolling id twoInTen :=
  not_rolling_straddling id twoInTen (by decide) (by decide)

end Richter.Storage
