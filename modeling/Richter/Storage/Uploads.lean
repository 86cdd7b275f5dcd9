import Richter.Storage.Urls

/-! How many uploads of recordings the storage service signs for a student and a lesson, however its
calls are interleaved. -/

namespace Richter.Storage

open Lib
open Interactions (isStudentRecordingKey)

section Periods

variable {nfc : String → String} {l : InMemoryUploadRateLimiter} {s : Calls} {call : AllowCall}
  {start now : Int} {b : String} {log : List Answer}

/-- How many calls have been let through on a bucket. -/
def grantedOn (nfc : String → String) (b : String) (log : List Answer) : ℕ :=
  log.countP (Answer.granted nfc b)

/-- How many windows have passed from `start` to the beginning of a counter's period. -/
def UploadCounter.passed (l : InMemoryUploadRateLimiter) (start : Int) (c : UploadCounter) : Int :=
  (c.resetAt - l.window - start) / l.window

/-- A counter that has begun by now, and what has been let through before: at most the limit for
each of the windows that have passed. -/
structure Metered (nfc : String → String) (l : InMemoryUploadRateLimiter) (start now : Int)
    (b : String) (c : UploadCounter) (log : List Answer) : Prop where
  count_le : c.count ≤ l.max
  begun : start ≤ c.resetAt - l.window ∧ c.resetAt - l.window ≤ now
  granted_le : (grantedOn nfc b log : Int) ≤ l.max * c.passed l start + c.count

/-- What is known of a bucket at all times. -/
structure MeteredBucket (nfc : String → String) (l : InMemoryUploadRateLimiter) (start now : Int)
    (b : String) (counter : Option UploadCounter) (log : List Answer) : Prop where
  started : start ≤ now
  unused : counter = none → grantedOn nfc b log = 0
  used : ∀ c, counter = some c → Metered nfc l start now b c log

theorem Metered.mono {c : UploadCounter} {now' : Int} (h : Metered nfc l start now b c log)
    (hNow : now ≤ now') : Metered nfc l start now' b c log :=
  { h with begun := ⟨h.begun.1, h.begun.2.trans hNow⟩ }

/-- What has been let through on a bucket is at most the limit for each window that has begun. -/
theorem MeteredBucket.granted_le {counter : Option UploadCounter}
    (h : MeteredBucket nfc l start now b counter log) :
    (grantedOn nfc b log : Int) ≤ l.max * ((now - start) / l.window + 1) := by
  have hPos := l.window_pos
  have hStarted := h.started
  have hWindows : 0 ≤ (now - start) / l.window := Int.ediv_nonneg (by omega) hPos.le
  cases counter with
  | none =>
    rw [h.unused rfl]
    exact mul_nonneg (Int.natCast_nonneg l.max) (by omega)
  | some c =>
    have hUsed := h.used c rfl
    have hPassed : c.passed l start ≤ (now - start) / l.window :=
      Int.ediv_le_ediv hPos (by have := hUsed.begun.2; omega)
    calc (grantedOn nfc b log : Int) ≤ l.max * c.passed l start + c.count := hUsed.granted_le
      _ ≤ l.max * c.passed l start + l.max := by have := hUsed.count_le; omega
      _ = l.max * (c.passed l start + 1) := by rw [mul_add, mul_one]
      _ ≤ _ := mul_le_mul_of_nonneg_left (by omega) (Int.natCast_nonneg l.max)

/-- A period of a counter goes on until the next one begins, which is when it is over. -/
def NextPeriod (l : InMemoryUploadRateLimiter) (before after : Option UploadCounter) : Prop :=
  ∀ c, before = some c → ∃ d, after = some d ∧
    (d.resetAt = c.resetAt ∨ c.resetAt < d.resetAt - l.window)

theorem NextPeriod.refl (counter : Option UploadCounter) : NextPeriod l counter counter :=
  fun c hSome => ⟨c, hSome, .inl rfl⟩

end Periods

section Run

variable {T : Texts} {cfg : S3Cfg} {l : InMemoryUploadRateLimiter} {call : Nat → UrlCall}
  {clock : Int} {as : List (Nat × Choice)} {p : UrlCalls} {i : Nat} {w : Choice} {x y : Site}
  {hist : Nat → History}

/-- The limiter's counters cover what it has let through, every call that it has told so is among
that, and no call has had two URLs. -/
structure Accounted (T : Texts) (l : InMemoryUploadRateLimiter) (start : Int) (x : Site)
    (hist : Nat → History) : Prop where
  started : x.start = start
  metered : ∀ b, MeteredBucket T.nfc l start x.calls.clock b (x.calls.buckets b) x.calls.log
  counted : ∀ b, x.granted.countP (fun g => g.2.onBucket T.nfc b) =
    grantedOn T.nfc b x.calls.log
  told : ∀ i userID key, ⟨.allow userID key, true⟩ ∈ hist i →
    ∃ now, (i, ⟨userID, key, now⟩) ∈ x.granted
  signed_once : (x.signed.map Signed.call).Nodup
  presigned : ∀ s ∈ x.signed, ∃ e ∈ hist s.call, e.op.isPresign = true

end Run

end Richter.Storage
