import Mathlib.Data.Option.Basic

/-! Leases that are checked by the owner's name.  A store records which owner holds a key and
accepts a write on the key from anyone who gives that owner's name.  A handle is one acquisition
of a key; an owner can acquire the same key again while a handle of an earlier acquisition is
still in use.  `Sound` says that the name check is as good as a check of the handle. -/

namespace Lib

universe u v w

/-- The store's record of the holders, the latest handle given out for each key, and the owner
and the key of every handle in use. -/
structure Lease (η : Type u) (κ : Type v) (ω : Type w) where
  holder : κ → Option ω
  latest : κ → Option η
  user : η → Option (ω × κ)

namespace Lease

variable {η : Type u} {κ : Type v} {ω : Type w} {l l' : Lease η κ ω}

/-- A handle in use whose owner holds the key is the latest handle on it. -/
def Sound (l : Lease η κ ω) : Prop :=
  ∀ h o k, l.user h = some (o, k) → l.holder k = some o → l.latest k = some h

/-- The owner uses no handle on the key. -/
def Fresh (l : Lease η κ ω) (o : ω) (k : κ) : Prop := ∀ h, l.user h ≠ some (o, k)

/-- Handles that go out of use and keys that are given back keep a lease sound. -/
theorem Sound.weaken (h : l.Sound) (hHolder : ∀ k o, l'.holder k = some o → l.holder k = some o)
    (hLatest : l'.latest = l.latest)
    (hUser : ∀ h x, l'.user h = some x → l.user h = some x) : l'.Sound := by
  intro n o k hn ho
  rw [hLatest]
  exact h n o k (hUser _ _ hn) (hHolder _ _ ho)

/-- An acquisition keeps a lease sound when the owner uses no other handle on the key. -/
theorem Sound.grant [DecidableEq η] [DecidableEq κ] {n : η} {o : ω} {k : κ} (h : l.Sound)
    (hFresh : l.Fresh o k)
    (hHolder : ∀ j, l'.holder j = if j = k then some o else l.holder j)
    (hLatest : ∀ j, l'.latest j = if j = k then some n else l.latest j)
    (hUser : ∀ m, l'.user m = if m = n then some (o, k) else l.user m) : l'.Sound := by
  intro m o' j hm ho'
  rw [hUser] at hm
  rw [hHolder] at ho'
  rw [hLatest]
  by_cases hj : j = k
  · subst hj
    rw [if_pos rfl] at ho' ⊢
    cases ho'
    by_cases hmn : m = n
    · rw [hmn]
    · rw [if_neg hmn] at hm
      exact absurd hm (hFresh m)
  · rw [if_neg hj] at ho' ⊢
    by_cases hmn : m = n
    · rw [if_pos hmn, Option.some.injEq, Prod.mk.injEq] at hm
      exact absurd hm.2.symm hj
    · rw [if_neg hmn] at hm
      exact h m o' j hm ho'

end Lease

end Lib
