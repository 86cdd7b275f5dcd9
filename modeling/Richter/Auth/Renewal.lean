import Richter.Auth.Sessions

/-! The renewal of a session: what `RefreshToken` answers to a token of an active account when
nothing fails. -/

namespace Richter.Auth

open Lib

variable (E : Env)

/-- The answer is not an error that comes from outside of the service. -/
def Choice.works (w : Choice) : (o : Op) → o.Resp → Bool
  | .now, _ => true
  | .conn _, _ | .generateFromPassword _, _ => w.failure.isNone
  | .sign _, signed => signed.toOption.isSome

/-- An operation that does not fail. -/
def execWorks (w : Choice) (o : Op) (s : Store) : Option (o.Resp × Store) :=
  (exec E w o s).filter fun p => w.works o p.1

def Works (o : Op) (s : Store) (r : o.Resp) (t : Store) : Prop :=
  ∃ w, execWorks E w o s = some (r, t)

/-- A token of the type for the user, issued at a time from `early` to `late`. -/
structure IssuedFor (u : UUID) (tokenType : TokenType) (early late : Int) (token : String)
    (claims : JWTClaims) : Prop where
  parse : E.parseWithClaims token = .ok claims
  sub : claims.sub = E.uuidText u
  iss : claims.iss = issuer
  aud : claims.aud = audience
  hasType : claims.tokenType = tokenType
  expAfter : early + E.duration tokenType < (claims.exp + 1) * second
  expBefore : claims.exp * second ≤ late + E.duration tokenType
  nbf : claims.nbf * second ≤ late

theorem IssuedFor.mono {E : Env} {u : UUID} {tokenType : TokenType} {early early' late : Int}
    {token : String} {claims : JWTClaims} (h : IssuedFor E u tokenType early late token claims)
    (hLe : early' ≤ early) : IssuedFor E u tokenType early' late token claims :=
  { h with expAfter := lt_of_le_of_lt (by omega) h.expAfter }

/-- What a part of a handler comes to if it ends in time and nothing fails. -/
abbrev InTime {α : Type} (deadline : Int) (x : Handler α) (ok : α → Store → Prop) (s : Store) :
    Prop :=
  Prog.Meets (Works E) (fun _ _ => True) x (fun a t => t.now ≤ deadline → ok a t)
    (fun t => deadline < t.now) s

section Parts

variable {E} {s : Store} {α β : Type} {deadline : Int}

theorem Works.exec {o : Op} {r : o.Resp} {t : Store} (h : Works E o s r t) :
    ∃ w : Choice, exec E w o s = some (r, t) ∧ w.works o r = true := by
  obtain ⟨w, hExec⟩ := h
  exact ⟨w, Option.filter_eq_some_iff.mp hExec⟩

theorem works_now_le {o : Op} {r : o.Resp} {t : Store} (h : Works E o s r t) : s.now ≤ t.now := by
  obtain ⟨w, hExec, -⟩ := h.exec
  exact (exec_cases hExec).1

/-- What begins too late ends too late. -/
theorem inTime_of_late {x : Handler α} {ok : α → Store → Prop} (h : deadline < s.now) :
    InTime E deadline x ok s := by
  have hLate : x.run.Ensures (Works E) (fun _ _ => True) (fun _ t => deadline < t.now) s := by
    refine Prog.Performs.ensures (A := fun _ => True) ?_ (fun _ _ _ _ => trivial)
      (fun o s r t _ hs hWorks => lt_of_lt_of_le hs (works_now_le hWorks)) h
    generalize x.run = p
    induction p with
    | ret a => trivial
    | op o k ih => exact ⟨trivial, ih⟩
  refine Prog.Ensures.mono hLate (fun _ _ => id) ?_
  rintro (e | a) t ht
  · exact ht
  · exact fun hEarly => absurd hEarly (not_le.mpr ht)

theorem InTime.bind {x : Handler α} {f : α → Handler β} {ok : α → Store → Prop}
    {ok' : β → Store → Prop} (h : InTime E deadline x ok s)
    (hf : ∀ a t, t.now ≤ deadline → ok a t → InTime E deadline (f a) ok' t) :
    InTime E deadline (x >>= f) ok' s := by
  refine Prog.Meets.bind h fun a t hOk => ?_
  by_cases hTime : t.now ≤ deadline
  · exact hf a t hTime (hOk hTime)
  · exact inTime_of_late (not_le.mp hTime)

/-- The first operation, when the rest is begun in time. -/
theorem inTime_perform_bind (o : Op) {f : o.Resp → Handler β} {ok : β → Store → Prop}
    (h : ∀ r t, Works E o s r t → t.now ≤ deadline → InTime E deadline (f r) ok t) :
    InTime E deadline (perform o >>= f) ok s := by
  refine (Prog.meets_perform_bind o).mpr ⟨trivial, fun r t hWorks => ?_⟩
  by_cases hTime : t.now ≤ deadline
  · exact h r t hWorks hTime
  · exact inTime_of_late (not_le.mp hTime)

theorem inTime_statement {q : Query} {a : q.Result}
    (h : ∀ fresh stamp, q.exec E.lower fresh stamp s.users = .ok (a, s.users)) :
    InTime E deadline (statement q) (fun b t => b = a ∧ s.now ≤ t.now ∧ t.users = s.users) s := by
  refine inTime_perform_bind (.conn q) fun r t hWorks hTime => ?_
  have hLe := works_now_le hWorks
  obtain ⟨w, hExec, hWell⟩ := hWorks.exec
  have hNone : w.failure = none := Option.isNone_iff_eq_none.mp hWell
  simp only [Auth.exec, hNone, h, Option.some.injEq, Prod.mk.injEq] at hExec
  obtain ⟨rfl, rfl⟩ := hExec
  exact fun _ => ⟨rfl, hLe, rfl⟩

theorem inTime_validateToken {token : String} {claims : JWTClaims}
    (hParse : E.parseWithClaims token = .ok claims)
    (hExp : deadline < claims.exp * second + E.leeway)
    (hNbf : claims.nbf * second - E.leeway ≤ s.now) :
    InTime E deadline (validateToken E token)
      (fun c t => c = claims ∧ s.now ≤ t.now ∧ t.users = s.users) s := by
  simp only [validateToken, hParse]
  refine inTime_perform_bind .now fun now t hNow hTime => ?_
  have hLe := works_now_le hNow
  obtain ⟨w, hExec, -⟩ := hNow.exec
  obtain ⟨rfl, hUsers, -⟩ := exec_now hExec
  have hValid : claims.validAt E t.now := by
    constructor <;> omega
  rw [if_pos hValid]
  exact fun _ => ⟨rfl, hLe, hUsers⟩

theorem inTime_generateToken {user : User} {tokenType : TokenType} :
    InTime E deadline (generateToken (userToProto E user) (E.duration tokenType) tokenType)
      (fun token t => s.now ≤ t.now ∧
        ∃ claims, IssuedFor E user.id tokenType s.now deadline token claims) s := by
  refine inTime_perform_bind .now fun now t hNow hTime => ?_
  have hLe := works_now_le hNow
  obtain ⟨w, hExec, -⟩ := hNow.exec
  obtain ⟨rfl, -, -⟩ := exec_now hExec
  refine inTime_perform_bind (.sign _) fun signed t' hSign hTime' => ?_
  have hLe' := works_now_le hSign
  obtain ⟨w', hExec', hSigned⟩ := hSign.exec
  simp only [Auth.exec] at hExec'
  split at hExec'
  · cases hExec'
    cases hSigned
  next token hToken =>
  cases hExec'
  refine fun _ => ⟨hLe.trans hLe', _, E.parse_signed _ _ hToken, rfl, rfl, rfl, rfl, ?_, ?_, ?_⟩
  · simp only [claimsFor, unix, second]
    omega
  · have hExp := unix_mul_le (t.now + E.duration tokenType)
    simp only [claimsFor] at hExp ⊢
    omega
  · have hNbf := unix_mul_le t.now
    simp only [claimsFor] at hNbf ⊢
    omega

end Parts

variable {E} {s : Store} {deadline : Int}

/-- A valid refresh token of an active account is exchanged for a new pair, if the exchange ends in
time. -/
theorem refreshToken_renews {u : UUID} {user : User} {token : String} {claims : JWTClaims}
    (hUser : s.users.find u = some user) (hActive : user.status = .active)
    (hParse : E.parseWithClaims token = .ok claims) (hType : claims.tokenType = .refresh)
    (hSub : claims.sub = E.uuidText u) (hExp : deadline < claims.exp * second + E.leeway)
    (hNbf : claims.nbf * second - E.leeway ≤ s.now) :
    InTime E deadline (refreshToken E token) (fun pair _ =>
      ∃ access refresh, IssuedFor E u .access s.now deadline pair.accessToken access ∧
        IssuedFor E u .refresh s.now deadline pair.refreshToken refresh) s := by
  have hId : user.id = u := Table.find_key hUser
  have hFind : ∀ fresh stamp, (Query.getUserByID u).exec E.lower fresh stamp s.users =
      .ok (user, s.users) := by
    intro fresh stamp
    simp [Query.exec, hUser, one, Except.map]
  have hClaims : InTime E deadline (refreshClaims E token)
      (fun c t => c = claims ∧ s.now ≤ t.now ∧ t.users = s.users) s := by
    refine (inTime_validateToken hParse hExp hNbf).bind ?_
    rintro _ t _ ⟨rfl, hLe, hUsers⟩
    rw [if_pos hType]
    exact fun _ => ⟨rfl, hLe, hUsers⟩
  refine hClaims.bind ?_
  rintro claims t₁ _ ⟨rfl, hLe₁, hUsers₁⟩
  have hScan : E.scanUUID claims.sub = .ok u := by rw [hSub, E.scan_text]
  have hParsed : InTime E deadline (parseUUID E claims.sub) (fun id t => id = u ∧ t = t₁) t₁ := by
    simp only [parseUUID, hScan]
    exact fun _ => ⟨rfl, rfl⟩
  refine hParsed.bind ?_
  rintro _ t₁ _ ⟨rfl, rfl⟩
  refine (inTime_statement (hUsers₁ ▸ hFind)).bind ?_
  rintro user t₂ _ ⟨rfl, hLe₂, -⟩
  rw [if_neg (by simp [hActive])]
  refine inTime_generateToken.bind ?_
  rintro access t₃ _ ⟨hLe₃, accessClaims, hAccess⟩
  refine inTime_generateToken.bind ?_
  rintro refresh t₄ _ ⟨hLe₄, refreshClaims, hRefresh⟩
  rw [hId] at hAccess hRefresh
  exact fun _ => ⟨accessClaims, refreshClaims, hAccess.mono (hLe₁.trans hLe₂),
    hRefresh.mono ((hLe₁.trans hLe₂).trans hLe₃)⟩

end Richter.Auth
