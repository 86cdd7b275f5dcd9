import Richter.Members.Access

/-! What a service knows of a caller who has passed `RequireOrgRole`, when the check is a part of a
larger handler whose statements are interleaved with those of others. -/

namespace Richter.Members

open Lib

section

variable {Op' : Type} {Resp' : Op' → Type} (f : Op → Op') (g : ∀ o, Resp' (f o) → o.Resp)

/-- The claims are of an active account, of a system admin or of one that the handler has been told
to be an active member with one of the roles. -/
structure Passed (ctx : Option Claims) (claims : Claims) (orgID : UUID)
    (roles : List OrganizationRole) (h : List (Prog.Event Op' Resp')) : Prop where
  claims_eq : ctx = some claims
  active : claims.status = .active
  member : claims.role = .admin ∨ ∃ m r,
    ⟨f (.conn (.getOrganizationMember orgID claims.sub)), r⟩ ∈ h ∧
      g (.conn (.getOrganizationMember orgID claims.sub)) r = .ok m ∧
        m.status = .active ∧ m.role ∈ roles

variable {f g} {ctx : Option Claims} {claims : Claims} {orgID : UUID}
  {roles : List OrganizationRole} {h h' : List (Prog.Event Op' Resp')}

theorem Passed.mono (hPassed : Passed f g ctx claims orgID roles h) (hSub : h ⊆ h') :
    Passed f g ctx claims orgID roles h' :=
  { hPassed with
    member := hPassed.member.imp_right fun ⟨m, r, hRead, hRole⟩ => ⟨m, r, hSub hRead, hRole⟩ }

/-- The check reads the membership at most. -/
theorem requireOrgRole_passes {P : List (Prog.Event Op' Resp') → Op' → Prop}
    (hP : ∀ q, P h (f (.conn q))) :
    Prog.Meets (fun o h r h' => h' = h ++ [⟨o, r⟩]) P
      (ExceptT.mk ((requireOrgRole ctx orgID roles).run.hoist f g))
      (fun claims h' => Passed f g ctx claims orgID roles h' ∧
        (h' = h ∨ ∃ q r, h' = h ++ [⟨f (.conn q), r⟩])) (fun _ => True) h := by
  refine Prog.ensures_hoist.mpr ?_
  refine (Prog.meets_bind _).mpr ((meets_requireAuthenticated _).mpr ⟨?_, fun _ => trivial⟩)
  intro claims hClaims hActive
  split
  · next hAdmin => exact ⟨⟨hClaims, hActive, .inl hAdmin⟩, .inl rfl⟩
  · refine (Prog.meets_bind _).mpr ((meets_withConnection _).mpr ⟨hP _, ?_⟩)
    rintro r _ ⟨r', rfl, rfl⟩
    split
    · trivial
    · trivial
    · next m hMember =>
      split
      · trivial
      · next hStatus =>
        split
        · next hRole =>
          exact ⟨⟨hClaims, hActive, .inr ⟨m, r', by simp, hMember, not_not.mp hStatus, hRole⟩⟩,
            .inr ⟨_, r', rfl⟩⟩
        · trivial

/-- Where the membership was read, the claims have a role. -/
theorem hasOrgRole_of_answer {db : Db} {failure : Option DbError} {m : OrganizationMember}
    (hActive : claims.status = .active)
    (hAnswer : answer db failure (.conn (.getOrganizationMember orgID claims.sub)) = .ok m)
    (hStatus : m.status = .active) (hRole : m.role ∈ roles) :
    hasOrgRole db claims orgID roles = true := by
  unfold answer at hAnswer
  dsimp only at hAnswer
  split at hAnswer
  · cases hAnswer
  · have hFind : db.organizationMembers.find (orgID, claims.sub) = some m := one_eq_ok.mp hAnswer
    simp [hasOrgRole, hActive, hFind, hStatus, hRole]

end

end Richter.Members
