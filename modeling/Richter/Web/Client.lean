import Richter.Auth.Browser

/-! The requests that the pages send to the backend (`lib/connect-webclient.ts`).  One that is
refused is sent again after the access token has been refreshed, and all that are refused in the
meantime wait for the same refresh. -/

namespace Richter.Web

open Lib
open Auth (usable)

/-- What a request can fail with: an error that may go away, `Unauthenticated`, or another one. -/
inductive Failure
  | transient
  | unauthenticated
  | other
  deriving DecidableEq, Repr

/-- How far a request is. -/
inductive Phase
  | unsent
  | sent
  /-- It waits a second before it is sent again. -/
  | delayed
  | resent
  /-- It waits for `refreshPromise`. -/
  | waiting
  | retried
  | done (result : Option Failure)
  deriving DecidableEq, Repr

/-- A request of a client, of which there is one for each use of the hook. -/
structure Call where
  client : Nat
  stream : Bool
  deriving DecidableEq, Repr

inductive Event
  | sent (i : Nat) (token : Option String)
  | failed (i : Nat)
  | refused (i : Nat)
  | refresh
  | refreshed (token : Option String)
  | toLogin (i : Nat)
  deriving DecidableEq, Repr

/-- The `tokenRef` of each client, the refresh that is under way and the requests that wait for it,
and for each request its header and how far it is.  The log has the last event at its end. -/
structure State where
  token : Nat → Option String
  refreshing : Bool := false
  waiters : List Nat := []
  header : Nat → Option String := fun _ => none
  phase : Nat → Phase := fun _ => .unsent
  log : List Event := []

inductive Action
  | setToken (client : Nat) (token : Option String)
  | send (i : Nat)
  | reply (i : Nat) (result : Option Failure)
  | timer (i : Nat)
  | refreshed (token : Option String)
  deriving DecidableEq, Repr

namespace State

def goOn (i : Nat) (phase : Phase) (log : List Event) (s : State) : State :=
  { s with
    phase := Function.update s.phase i phase
    log := s.log ++ log }

/-- The call of `next(req)`. -/
def send (i : Nat) (phase : Phase) (s : State) : State := s.goOn i phase [.sent i (s.header i)]

/-- `refreshAccessToken`, up to its `await`. -/
def awaitRefresh (i : Nat) (s : State) : State :=
  { s.goOn i .waiting (.refused i :: if s.refreshing then [] else [.refresh]) with
    refreshing := true
    waiters := s.waiters ++ [i] }

/-- The first answer to a request. -/
def firstReply (c : Call) (i : Nat) (s : State) : Option Failure → State
  | some .transient =>
      if c.stream then s.goOn i (.done (some .transient)) [] else s.goOn i .delayed [.failed i]
  | some .unauthenticated =>
      if c.stream ∨ s.token c.client = none then s.goOn i (.done (some .unauthenticated)) []
      else s.awaitRefresh i
  | result => s.goOn i (.done result) []

/-- The refresh is answered, and all who wait for it go on. -/
def wake (call : Nat → Call) (onLogin : Bool) (token : Option String) (s : State) : State :=
  match usable token with
  | some t =>
      { token := fun c => if s.waiters.any (fun i => (call i).client = c) then some t else s.token c
        refreshing := false
        waiters := []
        header := fun i => if i ∈ s.waiters then some t else s.header i
        phase := fun i => if i ∈ s.waiters then .retried else s.phase i
        log := s.log ++ .refreshed token :: s.waiters.map fun i => .sent i (some t) }
  | none =>
      { s with
        refreshing := false
        waiters := []
        phase := fun i => if i ∈ s.waiters then .done (some .unauthenticated) else s.phase i
        log := s.log ++ .refreshed token :: if onLogin then [] else s.waiters.map .toLogin }

/-- Whether the window is at the login page does not change here. -/
def step (call : Nat → Call) (onLogin : Bool) (s : State) : Action → Option State
  | .setToken c token => some { s with token := Function.update s.token c (usable token) }
  | .send i =>
      if s.phase i = .unsent then
        some (State.send i .sent
          { s with header := Function.update s.header i (s.token (call i).client) })
      else none
  | .reply i result =>
      match s.phase i with
      | .sent => some (s.firstReply (call i) i result)
      | .resent => some (s.goOn i (.done (result.map fun _ => .transient)) [])
      | .retried => some (s.goOn i (.done result) [])
      | _ => none
  | .timer i => if s.phase i = .delayed then some (s.send i .resent) else none
  | .refreshed token => if s.refreshing then some (s.wake call onLogin token) else none

end State

def client (call : Nat → Call) (onLogin : Bool) : Machine State Action where
  step := State.step call onLogin

/-- The pages as they are opened, with the tokens that the server has given them. -/
def opened (token : Nat → Option String) : State where
  token c := usable (token c)

/-! ### What happens to a request -/

/-- The tokens that a request has been sent with. -/
def tokensOf (i : Nat) (log : List Event) : List (Option String) :=
  log.filterMap fun
    | .sent j token => if j = i then some token else none
    | _ => none

/-- No refresh has been answered since the request was refused. -/
def Refused (i : Nat) (log : List Event) : Prop :=
  ∃ l₁ l₂, log = l₁ ++ .refused i :: l₂ ∧ ∀ token, .refreshed token ∉ l₂

/-- The first refresh that was answered after the request was refused gave this. -/
def RefreshedAfter (i : Nat) (token : Option String) (log : List Event) : Prop :=
  ∃ l₁ l₂ l₃, log = l₁ ++ .refused i :: (l₂ ++ .refreshed token :: l₃) ∧
    ∀ token', .refreshed token' ∉ l₂

/-- How a request can have been sent: not at all, once, once more with the same token after an error
that may go away, or once more with the token of the first refresh that was answered after it was
refused. -/
inductive Sent (c : Call) (i : Nat) (log : List Event) : Prop
  | never : tokensOf i log = [] → Sent c i log
  | once (token : Option String) : tokensOf i log = [token] → Sent c i log
  | again (token : Option String) : tokensOf i log = [token, token] → .failed i ∈ log →
      c.stream = false → Sent c i log
  | renewed (token : Option String) (t : String) : tokensOf i log = [token, some t] →
      RefreshedAfter i (some t) log → c.stream = false → Sent c i log

/-- A refresh is sent when none is under way, and answered when one is. -/
def follow : Bool → Event → Option Bool
  | false, .refresh => some true
  | true, .refresh => none
  | true, .refreshed _ => some false
  | false, .refreshed _ => none
  | underway, _ => some underway

/-- What a phase says of the log. -/
def Told (c : Call) (header : Option String) (i : Nat) (log : List Event) : Phase → Prop
  | .unsent => tokensOf i log = []
  | .sent => tokensOf i log = [header]
  | .delayed => tokensOf i log = [header] ∧ .failed i ∈ log ∧ c.stream = false
  | .waiting => (∃ token, tokensOf i log = [token]) ∧ Refused i log ∧ c.stream = false
  | .resent | .retried | .done _ => Sent c i log

/-- An event of one request. -/
def Event.ofRequest : Event → Bool
  | .sent .. | .failed _ | .refused _ => true
  | .refresh | .refreshed _ | .toLogin _ => false

structure Invariant (call : Nat → Call) (s : State) : Prop where
  told : ∀ i, Told (call i) (s.header i) i s.log (s.phase i)
  waiters : ∀ i, i ∈ s.waiters ↔ s.phase i = .waiting
  nodup : s.waiters.Nodup
  refreshing : s.waiters ≠ [] → s.refreshing = true
  underway : s.log.foldlM follow false = some s.refreshing
  toLogin : ∀ i, .toLogin i ∈ s.log → ∃ token, usable token = none ∧ RefreshedAfter i token s.log
  counted : s.log.count .refresh ≤ s.log.countP fun e => e matches .refused _

section Log

variable {c : Call} {header : Option String} {i j : Nat} {log es : List Event} {phase : Phase}

theorem tokensOf_append (l₁ l₂ : List Event) :
    tokensOf i (l₁ ++ l₂) = tokensOf i l₁ ++ tokensOf i l₂ := List.filterMap_append

theorem tokensOf_map_sent (token : Option String) (l : List Nat) :
    tokensOf i (l.map fun j => .sent j token) = List.replicate (l.count i) token := by
  induction l with
  | nil => rfl
  | cons j l ih =>
    by_cases hj : j = i
    · subst hj
      simpa [tokensOf, List.replicate_succ] using ih
    · simpa [tokensOf, hj, List.count_cons] using ih

theorem tokensOf_map_toLogin (l : List Nat) : tokensOf i (l.map Event.toLogin) = [] := by
  simp [tokensOf]

theorem Refused.append (h : Refused i log) (hEs : ∀ token, .refreshed token ∉ es) :
    Refused i (log ++ es) := by
  obtain ⟨l₁, l₂, rfl, hNone⟩ := h
  refine ⟨l₁, l₂ ++ es, by simp, fun token hMem => ?_⟩
  exact (List.mem_append.mp hMem).elim (hNone token) (hEs token)

theorem Refused.refreshed (h : Refused i log) (token : Option String) (es : List Event) :
    RefreshedAfter i token (log ++ .refreshed token :: es) := by
  obtain ⟨l₁, l₂, rfl, hNone⟩ := h
  exact ⟨l₁, l₂, es, by simp, hNone⟩

theorem RefreshedAfter.append {token : Option String} (h : RefreshedAfter i token log)
    (es : List Event) : RefreshedAfter i token (log ++ es) := by
  obtain ⟨l₁, l₂, l₃, rfl, hNone⟩ := h
  exact ⟨l₁, l₂, l₃ ++ es, by simp, hNone⟩

theorem Sent.append (h : Sent c i log) (hEs : tokensOf i es = []) : Sent c i (log ++ es) := by
  have hTokens : tokensOf i (log ++ es) = tokensOf i log := by
    rw [tokensOf_append, hEs, List.append_nil]
  cases h with
  | never hNone => exact .never (hTokens.trans hNone)
  | once token hOnce => exact .once token (hTokens.trans hOnce)
  | again token hAgain hFailed hUnary =>
    exact .again token (hTokens.trans hAgain) (List.mem_append_left _ hFailed) hUnary
  | renewed token t hRenewed hAfter hUnary =>
    exact .renewed token t (hTokens.trans hRenewed) (hAfter.append es) hUnary

/-- What a phase says stays true while other requests go on. -/
theorem Told.append (h : Told c header i log phase) (hEs : tokensOf i es = [])
    (hWaits : phase = .waiting → ∀ token, .refreshed token ∉ es) :
    Told c header i (log ++ es) phase := by
  have hTokens : tokensOf i (log ++ es) = tokensOf i log := by
    rw [tokensOf_append, hEs, List.append_nil]
  cases phase with
  | unsent => exact hTokens.trans h
  | sent => exact hTokens.trans h
  | delayed => exact ⟨hTokens.trans h.1, List.mem_append_left _ h.2.1, h.2.2⟩
  | waiting =>
    obtain ⟨⟨token, hOnce⟩, hRefused, hUnary⟩ := h
    exact ⟨⟨token, hTokens.trans hOnce⟩, hRefused.append (hWaits rfl), hUnary⟩
  | resent => exact Sent.append h hEs
  | retried => exact Sent.append h hEs
  | done result => exact Sent.append h hEs

theorem Told.sent (h : Told c header i log phase) : Sent c i log := by
  cases phase with
  | unsent => exact .never h
  | sent => exact .once header h
  | delayed => exact .once header h.1
  | waiting =>
    obtain ⟨token, hOnce⟩ := h.1
    exact .once token hOnce
  | resent => exact h
  | retried => exact h
  | done result => exact h

theorem foldlM_follow {underway : Bool} (hEs : ∀ e ∈ es, follow underway e = some underway) :
    es.foldlM follow underway = some underway := by
  induction es with
  | nil => rfl
  | cons e es ih =>
    rw [List.foldlM_cons, hEs e List.mem_cons_self]
    exact ih fun e he => hEs e (List.mem_cons_of_mem _ he)

theorem follow_ofRequest {underway : Bool} {e : Event} (hOf : e.ofRequest = true) :
    follow underway e = some underway := by
  cases e <;> cases underway <;> first | rfl | cases hOf

end Log

section Steps

variable {call : Nat → Call} {s t : State} {i : Nat} {es : List Event} {phase : Phase}

theorem Invariant.toLogin_append (h : Invariant call s) (hEs : ∀ i, Event.toLogin i ∉ es) :
    ∀ i, .toLogin i ∈ s.log ++ es →
      ∃ token, usable token = none ∧ RefreshedAfter i token (s.log ++ es) := by
  intro i hMem
  obtain ⟨token, hUsable, hAfter⟩ :=
    h.toLogin i ((List.mem_append.mp hMem).resolve_right (hEs i))
  exact ⟨token, hUsable, hAfter.append es⟩

theorem Invariant.counted_append (h : Invariant call s)
    (hEs : es.count .refresh ≤ es.countP fun e => e matches .refused _) :
    (s.log ++ es).count .refresh ≤ (s.log ++ es).countP fun e => e matches .refused _ := by
  rw [List.count_append, List.countP_append]
  exact Nat.add_le_add h.counted hEs

theorem count_refresh_le (hNone : Event.refresh ∉ es) :
    es.count .refresh ≤ es.countP fun e => e matches .refused _ := by
  rw [List.count_eq_zero.mpr hNone]
  exact Nat.zero_le _

/-- A request goes on, not to wait for a refresh. -/
theorem Invariant.goOn (h : Invariant call s) (hEs : ∀ e ∈ es, e.ofRequest = true)
    (hOthers : ∀ j ≠ i, tokensOf j es = []) (hOld : s.phase i ≠ .waiting) (hNew : phase ≠ .waiting)
    (hTold : Told (call i) (s.header i) i (s.log ++ es) phase) :
    Invariant call (s.goOn i phase es) where
  told j := by
    by_cases hj : j = i
    · subst hj
      simpa [State.goOn] using hTold
    · have hPhase : (s.goOn i phase es).phase j = s.phase j := Function.update_of_ne hj _ _
      rw [hPhase]
      refine (h.told j).append (hOthers j hj) fun _ token hMem => ?_
      cases hEs _ hMem
  waiters j := by
    by_cases hj : j = i
    · subst hj
      simp [State.goOn, h.waiters, hOld, hNew]
    · simp [State.goOn, h.waiters, hj]
  nodup := h.nodup
  refreshing := h.refreshing
  underway := by
    show (s.log ++ es).foldlM follow false = some s.refreshing
    rw [List.foldlM_append, h.underway]
    exact foldlM_follow fun e he => follow_ofRequest (hEs e he)
  toLogin := h.toLogin_append fun j hMem => by cases hEs _ hMem
  counted := h.counted_append (count_refresh_le fun hMem => by cases hEs _ hMem)

/-- A request is refused and waits for a refresh, its own or the one that is under way. -/
theorem Invariant.awaitRefresh (h : Invariant call s) (hSent : s.phase i = .sent)
    (hUnary : (call i).stream = false) : Invariant call (s.awaitRefresh i) := by
  have hNew : i ∉ s.waiters := by
    rw [h.waiters, hSent]
    exact Phase.noConfusion
  have hTokens : ∀ j, tokensOf j (.refused i :: if s.refreshing then [] else [.refresh]) = [] := by
    intro j
    split <;> rfl
  have hOnly : ∀ token, .refreshed token ∉ if s.refreshing then [] else [Event.refresh] := by
    intro token
    split <;> simp
  refine ⟨fun j => ?_, fun j => ?_, ?_, fun _ => rfl, ?_, h.toLogin_append fun j hMem => ?_,
    h.counted_append ?_⟩
  · by_cases hj : j = i
    · subst hj
      have hTold := h.told j
      rw [hSent] at hTold
      have hPhase : (s.awaitRefresh j).phase j = .waiting := Function.update_self ..
      rw [hPhase]
      refine ⟨⟨s.header j, ?_⟩, ⟨s.log, _, rfl, hOnly⟩, hUnary⟩
      show tokensOf j (s.log ++ _) = _
      rw [tokensOf_append, hTokens, List.append_nil]
      exact hTold
    · have hPhase : (s.awaitRefresh i).phase j = s.phase j := Function.update_of_ne hj _ _
      rw [hPhase]
      refine (h.told j).append (hTokens j) fun _ token hMem => ?_
      rcases List.mem_cons.mp hMem with hMem | hMem
      · cases hMem
      · exact hOnly token hMem
  · show j ∈ s.waiters ++ [i] ↔ Function.update s.phase i .waiting j = .waiting
    by_cases hj : j = i
    · subst hj
      simp
    · simp [hj, h.waiters]
  · show (s.waiters ++ [i]).Nodup
    exact List.nodup_append.mpr ⟨h.nodup, List.nodup_singleton i,
      fun a ha b hb hab => hNew (List.mem_singleton.mp hb ▸ hab ▸ ha)⟩
  · show (s.log ++ _).foldlM follow false = some true
    rw [List.foldlM_append, h.underway]
    cases hRefreshing : s.refreshing <;> rfl
  · cases hRefreshing : s.refreshing <;> simp [hRefreshing] at hMem
  · cases s.refreshing <;> simp

/-- The events that follow the answer of a refresh. -/
theorem Invariant.foldlM_refreshed (h : Invariant call s) (hRefreshing : s.refreshing = true)
    (token : Option String) (hEs : ∀ e ∈ es, follow false e = some false) :
    (s.log ++ .refreshed token :: es).foldlM follow false = some false := by
  rw [List.foldlM_append, h.underway, hRefreshing]
  exact foldlM_follow hEs

/-- Those who wait are refused, and have been since before the refresh was answered. -/
theorem Invariant.waiting (h : Invariant call s) (hWaits : i ∈ s.waiters) :
    (∃ token, tokensOf i s.log = [token]) ∧ Refused i s.log ∧ (call i).stream = false := by
  have hTold := h.told i
  rwa [(h.waiters i).mp hWaits] at hTold

theorem Invariant.wake_renewed (h : Invariant call s) (onLogin : Bool) {t : String}
    (hRefreshing : s.refreshing = true) (hUsable : usable (some t) = some t) :
    Invariant call (s.wake call onLogin (some t)) := by
  unfold State.wake
  rw [hUsable]
  refine ⟨fun j => ?_, fun j => ?_, List.nodup_nil, fun hNe => absurd rfl hNe, ?_,
    h.toLogin_append (by simp), h.counted_append (count_refresh_le (by simp))⟩
  · by_cases hWaits : j ∈ s.waiters
    · obtain ⟨⟨token, hOnce⟩, hRefused, hUnary⟩ := h.waiting hWaits
      simp only [if_pos hWaits]
      refine Sent.renewed token t ?_ (hRefused.refreshed _ _) hUnary
      rw [tokensOf_append, hOnce]
      show [token] ++ tokensOf j (s.waiters.map fun i => .sent i (some t)) = _
      rw [tokensOf_map_sent, List.count_eq_one_of_mem h.nodup hWaits]
      rfl
    · simp only [if_neg hWaits]
      refine (h.told j).append ?_ fun hPhase => absurd ((h.waiters j).mpr hPhase) hWaits
      show tokensOf j (s.waiters.map fun i => .sent i (some t)) = _
      rw [tokensOf_map_sent, List.count_eq_zero.mpr hWaits]
      rfl
  · by_cases hWaits : j ∈ s.waiters
    · simp [hWaits]
    · simpa [hWaits] using (h.waiters j).not.mp hWaits
  · refine h.foldlM_refreshed hRefreshing _ fun e he => ?_
    obtain ⟨j, -, rfl⟩ := List.mem_map.mp he
    rfl

theorem Invariant.wake_failed (h : Invariant call s) (onLogin : Bool) {token : Option String}
    (hRefreshing : s.refreshing = true) (hUsable : usable token = none) :
    Invariant call (s.wake call onLogin token) := by
  have hEvents : ∀ e ∈ (if onLogin then [] else s.waiters.map Event.toLogin),
      ∃ j ∈ s.waiters, e = .toLogin j := by
    intro e he
    split at he
    · cases he
    · obtain ⟨j, hj, rfl⟩ := List.mem_map.mp he
      exact ⟨j, hj, rfl⟩
  have hTokens : ∀ j, tokensOf j (if onLogin then [] else s.waiters.map Event.toLogin) = [] := by
    intro j
    split
    · rfl
    · exact tokensOf_map_toLogin _
  unfold State.wake
  rw [hUsable]
  refine ⟨fun j => ?_, fun j => ?_, List.nodup_nil, fun hNe => absurd rfl hNe, ?_,
    fun j hMem => ?_, ?_⟩
  · by_cases hWaits : j ∈ s.waiters
    · obtain ⟨⟨first, hOnce⟩, -, -⟩ := h.waiting hWaits
      simp only [if_pos hWaits]
      exact Sent.append (.once first hOnce) (hTokens j)
    · simp only [if_neg hWaits]
      exact (h.told j).append (hTokens j) fun hPhase => absurd ((h.waiters j).mpr hPhase) hWaits
  · by_cases hWaits : j ∈ s.waiters
    · simp [hWaits]
    · simpa [hWaits] using (h.waiters j).not.mp hWaits
  · refine h.foldlM_refreshed hRefreshing _ fun e he => ?_
    obtain ⟨j, -, rfl⟩ := hEvents e he
    rfl
  · rcases List.mem_append.mp hMem with hMem | hMem
    · obtain ⟨token, hUsable, hAfter⟩ := h.toLogin j hMem
      exact ⟨token, hUsable, hAfter.append _⟩
    · rcases List.mem_cons.mp hMem with hMem | hMem
      · cases hMem
      · obtain ⟨_, hWaits, hEq⟩ := hEvents _ hMem
        cases hEq
        exact ⟨token, hUsable, (h.waiting hWaits).2.1.refreshed token _⟩
  · refine h.counted_append (count_refresh_le fun hMem => ?_)
    rcases List.mem_cons.mp hMem with hMem | hMem
    · cases hMem
    · obtain ⟨_, -, hEq⟩ := hEvents _ hMem
      cases hEq

theorem Invariant.wake (h : Invariant call s) (onLogin : Bool) (token : Option String)
    (hRefreshing : s.refreshing = true) : Invariant call (s.wake call onLogin token) := by
  cases hUsable : usable token with
  | none => exact h.wake_failed onLogin hRefreshing hUsable
  | some t =>
    obtain rfl := (Option.filter_eq_some_iff.mp hUsable).1
    exact h.wake_renewed onLogin hRefreshing hUsable

theorem Invariant.send (h : Invariant call s) (hUnsent : s.phase i = .unsent)
    (token : Option String) :
    Invariant call (State.send i .sent { s with header := Function.update s.header i token }) := by
  have hNone : tokensOf i s.log = [] := by
    have hTold := h.told i
    rwa [hUnsent] at hTold
  have hHeader : Invariant call { s with header := Function.update s.header i token } :=
    { h with
      told := fun j => by
        by_cases hj : j = i
        · subst hj
          show Told (call j) _ j s.log (s.phase j)
          rw [hUnsent]
          exact hNone
        · show Told (call j) (Function.update s.header i token j) j s.log (s.phase j)
          rw [Function.update_of_ne hj]
          exact h.told j }
  have hPhase : s.phase i ≠ .waiting := hUnsent ▸ Phase.noConfusion
  refine hHeader.goOn (by simp [Event.ofRequest]) (fun j hj => ?_) hPhase Phase.noConfusion ?_
  · simp [tokensOf, hj.symm]
  · show tokensOf i (s.log ++ _) = _
    rw [tokensOf_append, hNone]
    simp [tokensOf]

theorem Invariant.resend (h : Invariant call s) (hDelayed : s.phase i = .delayed) :
    Invariant call (s.send i .resent) := by
  have hTold := h.told i
  rw [hDelayed] at hTold
  obtain ⟨hOnce, hFailed, hUnary⟩ := hTold
  have hPhase : s.phase i ≠ .waiting := hDelayed ▸ Phase.noConfusion
  refine h.goOn (by simp [Event.ofRequest]) (fun j hj => ?_) hPhase Phase.noConfusion
    (.again (s.header i) ?_ (List.mem_append_left _ hFailed) hUnary)
  · simp [tokensOf, hj.symm]
  · rw [tokensOf_append, hOnce]
    simp [tokensOf]

/-- A request that is not waiting ends. -/
theorem Invariant.finish (h : Invariant call s) (hOld : s.phase i ≠ .waiting)
    (result : Option Failure) : Invariant call (s.goOn i (.done result) []) :=
  h.goOn (fun _ he => absurd he List.not_mem_nil) (fun _ _ => rfl) hOld Phase.noConfusion
    ((h.told i).sent.append rfl)

theorem Invariant.firstReply (h : Invariant call s) (hSent : s.phase i = .sent)
    (result : Option Failure) : Invariant call (s.firstReply (call i) i result) := by
  have hTold := h.told i
  rw [hSent] at hTold
  have hOld : s.phase i ≠ .waiting := hSent ▸ Phase.noConfusion
  unfold State.firstReply
  split
  · split
    · exact h.finish hOld _
    · next hUnary =>
      refine h.goOn (by simp [Event.ofRequest]) (fun _ _ => rfl) hOld Phase.noConfusion
        ⟨?_, by simp, by simpa using hUnary⟩
      have hOnce : tokensOf i s.log = [s.header i] := hTold
      rw [tokensOf_append, hOnce]
      rfl
  · split
    · exact h.finish hOld _
    · next hNot =>
      exact h.awaitRefresh hSent (by simpa using (not_or.mp hNot).1)
  · exact h.finish hOld _

/-- What a step keeps. -/
theorem Invariant.step {onLogin : Bool} {a : Action} (h : Invariant call s)
    (hStep : (client call onLogin).step s a = some t) : Invariant call t := by
  cases a with
  | setToken c token =>
    cases hStep
    exact ⟨h.told, h.waiters, h.nodup, h.refreshing, h.underway, h.toLogin, h.counted⟩
  | send i =>
    obtain ⟨hUnsent, hEq⟩ := Option.ite_none_right_eq_some.mp hStep
    cases hEq
    exact h.send hUnsent _
  | reply i result =>
    simp only [client, State.step] at hStep
    split at hStep
    · next hSent =>
      cases hStep
      exact h.firstReply hSent result
    · next hResent =>
      cases hStep
      exact h.finish (hResent ▸ Phase.noConfusion) _
    · next hRetried =>
      cases hStep
      exact h.finish (hRetried ▸ Phase.noConfusion) _
    · cases hStep
  | timer i =>
    obtain ⟨hDelayed, hEq⟩ := Option.ite_none_right_eq_some.mp hStep
    cases hEq
    exact h.resend hDelayed
  | refreshed token =>
    obtain ⟨hRefreshing, hEq⟩ := Option.ite_none_right_eq_some.mp hStep
    cases hEq
    exact h.wake onLogin token hRefreshing

theorem opened_invariant (token : Nat → Option String) : Invariant call (opened token) where
  told _ := rfl
  waiters i := ⟨fun h => absurd h List.not_mem_nil, fun h => by cases h⟩
  nodup := List.nodup_nil
  refreshing h := absurd rfl h
  underway := rfl
  toLogin _ h := absurd h List.not_mem_nil
  counted := le_rfl

variable {onLogin : Bool} {token : Nat → Option String} {as : List Action}

theorem run_invariant (hRun : (client call onLogin).run (opened token) as = some s) :
    Invariant call s :=
  (Machine.Runs.of_run hRun).invariant (fun _ _ _ _ hStep h => h.step hStep)
    (opened_invariant token)

/-- In every run of any number of requests a request is sent twice at most: once more with the same
token after an error that may go away, or, when it was refused, with the token of the first refresh
that was answered after that.  The user is sent to log in only when that refresh gave none. -/
theorem sent_again_once (hRun : (client call onLogin).run (opened token) as = some s) (i : Nat) :
    Sent (call i) i s.log ∧ (.toLogin i ∈ s.log →
      ∃ token, usable token = none ∧ RefreshedAfter i token s.log) :=
  have hInv := run_invariant hRun
  ⟨(hInv.told i).sent, hInv.toLogin i⟩

/-- In every run of any number of requests the refreshes come one after the other, none without a
request that was refused for it, and no request waits when no refresh is under way. -/
theorem refreshes_shared (hRun : (client call onLogin).run (opened token) as = some s) :
    ∃ underway, s.log.foldlM follow false = some underway ∧
      s.log.count .refresh ≤ (s.log.countP fun e => e matches .refused _) ∧
        ∀ i, s.phase i = .waiting → underway = true := by
  have hInv := run_invariant hRun
  refine ⟨s.refreshing, hInv.underway, hInv.counted, fun i hWaits => ?_⟩
  refine hInv.refreshing fun hNone => ?_
  have hMem := (hInv.waiters i).mpr hWaits
  rw [hNone] at hMem
  cases hMem

end Steps

/-- Two requests of a page are refused, and go on with the token of one refresh. -/
def bothRefused : List Action :=
  [.send 0, .send 1, .reply 0 (some .unauthenticated), .reply 1 (some .unauthenticated),
    .refreshed (some "new"), .reply 0 none]

def onePage (_ : Nat) : Call := ⟨0, false⟩

theorem bothRefused_run : ∃ s,
    (client onePage false).run (opened fun _ => some "old") bothRefused = some s ∧
      s.log = [.sent 0 (some "old"), .sent 1 (some "old"), .refused 0, .refresh, .refused 1,
        .refreshed (some "new"), .sent 0 (some "new"), .sent 1 (some "new")] := by
  have hAny : ((client onePage false).run (opened fun _ => some "old") bothRefused).any (fun s =>
      decide (s.log = [.sent 0 (some "old"), .sent 1 (some "old"), .refused 0, .refresh, .refused 1,
        .refreshed (some "new"), .sent 0 (some "new"), .sent 1 (some "new")])) = true := by
    decide +kernel
  obtain ⟨s, hRun, hLog⟩ := (Option.any_eq_true _ _).mp hAny
  exact ⟨s, hRun, of_decide_eq_true hLog⟩

theorem sent_again_once_bothRefused : ∃ s,
    (client onePage false).run (opened fun _ => some "old") bothRefused = some s ∧
      Sent (onePage 1) 1 s.log := by
  obtain ⟨s, hRun, -⟩ := bothRefused_run
  exact ⟨s, hRun, (sent_again_once hRun 1).1⟩

theorem refreshes_shared_bothRefused : ∃ s,
    (client onePage false).run (opened fun _ => some "old") bothRefused = some s ∧
      s.log.count .refresh = 1 ∧ (s.log.foldlM follow false).isSome = true := by
  obtain ⟨s, hRun, hLog⟩ := bothRefused_run
  obtain ⟨underway, hFollow, -⟩ := refreshes_shared hRun
  exact ⟨s, hRun, by rw [hLog]; decide, by rw [hFollow]; rfl⟩

end Richter.Web
