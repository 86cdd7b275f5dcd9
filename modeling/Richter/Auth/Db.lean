import Mathlib.Data.List.Sort
import Richter.Lib.Table
import Richter.Svc.Errors

/-! The table of users and the statements on it (`sql/queries/users.sql`). -/

namespace Richter.Auth

open Lib

inductive UserRole
  | normal
  | admin
  deriving DecidableEq, Repr

inductive UserStatus
  | pending
  | active
  | disabled
  deriving DecidableEq, Repr

/-- A row of `users`. -/
structure User where
  id : UUID
  email : String
  passwordHash : String
  firstName : String
  middleName : Option String
  lastName : String
  role : UserRole
  status : UserStatus
  createdAt : Int
  updatedAt : Int
  deriving DecidableEq, Repr

abbrev Users := Table User User.id

/-- The parameters of `CreateUser`. -/
structure CreateUserParams where
  email : String
  passwordHash : String
  firstName : String
  middleName : Option String
  lastName : String
  deriving DecidableEq, Repr

inductive Query
  | createUser (p : CreateUserParams)
  | createUserWithRoleAndStatus (p : CreateUserParams) (role : UserRole) (status : UserStatus)
  | getUserByID (id : UUID)
  | getUserByEmail (email : String)
  | listUsers (limit offset : Nat)
  | updateUserProfile (id : UUID) (firstName : String) (middleName : Option String)
      (lastName : String)
  | updateUserPassword (id : UUID) (passwordHash : String)
  | updateUserRole (id : UUID) (role : UserRole)
  | updateUserStatus (id : UUID) (status : UserStatus)
  | deleteUser (id : UUID)
  deriving DecidableEq, Repr

abbrev Query.Result : Query → Type
  | .listUsers .. => List User
  | .deleteUser .. => Nat
  | _ => User

namespace User

def setProfile (firstName : String) (middleName : Option String) (lastName : String)
    (stamp : Int) (u : User) : User :=
  { u with
    firstName := firstName
    middleName := middleName
    lastName := lastName
    updatedAt := stamp }

def setPassword (passwordHash : String) (stamp : Int) (u : User) : User :=
  { u with passwordHash := passwordHash, updatedAt := stamp }

def setRole (role : UserRole) (stamp : Int) (u : User) : User :=
  { u with role := role, updatedAt := stamp }

def setStatus (status : UserStatus) (stamp : Int) (u : User) : User :=
  { u with status := status, updatedAt := stamp }

/-- `ORDER BY created_at DESC, id DESC`. -/
def listedBefore (a b : User) : Prop :=
  b.createdAt < a.createdAt ∨ (a.createdAt = b.createdAt ∧ b.id ≤ a.id)

instance : DecidableRel listedBefore := fun _ _ => inferInstanceAs (Decidable (_ ∨ _))

end User

/-- The row that an `INSERT` adds, whose identifier and times the database fills in. -/
def CreateUserParams.row (p : CreateUserParams) (role : UserRole) (status : UserStatus)
    (fresh : UUID) (stamp : Int) : User where
  id := fresh
  email := p.email
  passwordHash := p.passwordHash
  firstName := p.firstName
  middleName := p.middleName
  lastName := p.lastName
  role := role
  status := status
  createdAt := stamp
  updatedAt := stamp

section Statements

-- what `citext` compares of an email
variable (lower : String → String)

/-- `WHERE email = $1`. -/
def findEmail (users : Users) (email : String) : Option User :=
  users.rows.find? fun u => lower u.email = lower email

/-- `INSERT .. RETURNING *`, which a taken identifier or email stops. -/
def insertUser (users : Users) (u : User) : Except DbError (User × Users) :=
  match findEmail lower users u.email, users.insert u with
  | none, some users' => .ok (u, users')
  | _, _ => .error (.pg "23505")

/-- `UPDATE .. WHERE id = $1 RETURNING *`. -/
def updateUser (users : Users) (id : UUID) (f : User → User) (hf : ∀ u, (f u).id = u.id) :
    Except DbError (User × Users) :=
  match users.find id with
  | none => .error .noRows
  | some u => .ok (f u, users.update (fun u => u.id = id) f hf)

/-- What a statement answers and leaves, when the database would give a new row the identifier
`fresh` and the time is `stamp`. -/
def Query.exec (fresh : UUID) (stamp : Int) (users : Users) :
    (q : Query) → Except DbError (q.Result × Users)
  | .createUser p => insertUser lower users (p.row .normal .pending fresh stamp)
  | .createUserWithRoleAndStatus p role status =>
      insertUser lower users (p.row role status fresh stamp)
  | .getUserByID id => (one (users.find id)).map fun u => (u, users)
  | .getUserByEmail email => (one (findEmail lower users email)).map fun u => (u, users)
  | .listUsers limit offset =>
      .ok (page limit offset (users.rows.insertionSort User.listedBefore), users)
  | .updateUserProfile id firstName middleName lastName =>
      updateUser users id (.setProfile firstName middleName lastName stamp) fun _ => rfl
  | .updateUserPassword id passwordHash =>
      updateUser users id (.setPassword passwordHash stamp) fun _ => rfl
  | .updateUserRole id role => updateUser users id (.setRole role stamp) fun _ => rfl
  | .updateUserStatus id status => updateUser users id (.setStatus status stamp) fun _ => rfl
  | .deleteUser id =>
      .ok (users.rows.countP fun u => u.id = id, users.delete fun u => u.id = id)

end Statements

/-- The statement only reads. -/
def Query.isRead : Query → Bool
  | .getUserByID .. | .getUserByEmail .. | .listUsers .. => true
  | _ => false

/-- The role and the status of a user. -/
def standing (users : Users) (id : UUID) : Option (UserRole × UserStatus) :=
  (users.find id).map fun u => (u.role, u.status)

/-- The hash of a user's password. -/
def hashOf (users : Users) (id : UUID) : Option String := (users.find id).map User.passwordHash

/-- The statement may give a user another standing than the column defaults, or take a user away. -/
def Query.setsStanding : Query → Bool
  | .createUserWithRoleAndStatus .. | .updateUserRole .. | .updateUserStatus ..
  | .deleteUser .. => true
  | _ => false

section Spec

variable {lower : String → String} {fresh : UUID} {stamp : Int} {users users' : Users}

theorem insertUser_ok {u a : User} (h : insertUser lower users u = .ok (a, users')) :
    a = u ∧ users.find u.id = none ∧
      ∀ id, users'.find id = if id = u.id then some u else users.find id := by
  unfold insertUser at h
  split at h
  · next hInsert =>
    cases h
    exact ⟨rfl, Table.find_of_insert hInsert, Table.find_insert hInsert⟩
  · cases h

theorem updateUser_ok {id : UUID} {f : User → User} {hf : ∀ u, (f u).id = u.id} {a : User}
    (h : updateUser users id f hf = .ok (a, users')) :
    ∃ u, users.find id = some u ∧ a = f u ∧
      ∀ i, users'.find i = if i = id then some (f u) else users.find i := by
  unfold updateUser at h
  split at h
  · cases h
  · next u hu =>
    cases h
    refine ⟨u, hu, rfl, fun i => ?_⟩
    rw [Table.find_update]
    by_cases hi : i = id
    · subst hi
      simp [hu, show u.id = i from Table.find_key hu]
    · rw [if_neg hi]
      cases hFind : users.find i with
      | none => rfl
      | some v => simp [show v.id = i from Table.find_key hFind, hi]

variable {q : Query} {a : q.Result}

theorem exec_isRead (h : q.exec lower fresh stamp users = .ok (a, users')) (hq : q.isRead = true) :
    users' = users := by
  cases q with
  | getUserByID id =>
    cases hFind : users.find id <;> simp_all [Query.exec, one, Except.map]
  | getUserByEmail email =>
    cases hFind : findEmail lower users email <;> simp_all [Query.exec, one, Except.map]
  | listUsers limit offset =>
    cases h
    rfl
  | _ => cases hq

/-- A row that a statement answers about a user was that user's when the statement ran. -/
theorem exec_getUserByID {id : UUID} {u : User}
    (h : (Query.getUserByID id).exec lower fresh stamp users = .ok (u, users')) :
    users.find id = some u := by
  cases hFind : users.find id <;> simp_all [Query.exec, one, Except.map]

theorem exec_getUserByEmail {email : String} {u : User}
    (h : (Query.getUserByEmail email).exec lower fresh stamp users = .ok (u, users')) :
    users.find u.id = some u ∧ lower u.email = lower email := by
  cases hFind : findEmail lower users email with
  | none => simp_all [Query.exec, one, Except.map]
  | some v =>
    have hv : v = u := by simp_all [Query.exec, one, Except.map]
    subst hv
    have hMem : v ∈ users.rows := List.mem_of_find?_eq_some hFind
    exact ⟨Table.mem_rows_iff.mp hMem, by simpa using List.find?_some hFind⟩

/-- A user's standing comes from the statements that set it, or from the column defaults. -/
theorem exec_standing (h : q.exec lower fresh stamp users = .ok (a, users'))
    (hq : q.setsStanding = false) (id : UUID) :
    standing users' id = standing users id ∨
      (users.find id = none ∧ standing users' id = some (.normal, .pending)) := by
  have hUpdate : ∀ (i : UUID) (f : User → User) (hf : ∀ u, (f u).id = u.id) (a : User),
      updateUser users i f hf = .ok (a, users') →
      (∀ u, (f u).role = u.role ∧ (f u).status = u.status) →
      standing users' id = standing users id := by
    intro i f hf a hOk hSame
    obtain ⟨u, hu, -, hFind⟩ := updateUser_ok hOk
    rw [standing, hFind id]
    split
    · next hi => simp [standing, hi, hu, hSame u]
    · rfl
  cases q with
  | createUser p =>
    obtain ⟨-, hNone, hFind⟩ := insertUser_ok h
    rw [standing, hFind id]
    split
    · next hi => exact .inr ⟨hi ▸ hNone, rfl⟩
    · exact .inl rfl
  | updateUserProfile i firstName middleName lastName =>
    exact .inl (hUpdate i _ _ _ h fun _ => ⟨rfl, rfl⟩)
  | updateUserPassword i passwordHash => exact .inl (hUpdate i _ _ _ h fun _ => ⟨rfl, rfl⟩)
  | getUserByID | getUserByEmail | listUsers => exact .inl (by rw [exec_isRead h rfl])
  | _ => cases hq

/-- A user's password hash is set when the row is inserted and by `UpdateUserPassword`. -/
theorem exec_hashOf (h : q.exec lower fresh stamp users = .ok (a, users')) (id : UUID) :
    hashOf users' id = hashOf users id ∨ users.find id = none ∨ q = .deleteUser id ∨
      ∃ passwordHash, q = .updateUserPassword id passwordHash := by
  have hUpdate : ∀ (i : UUID) (f : User → User) (hf : ∀ u, (f u).id = u.id) (a : User),
      updateUser users i f hf = .ok (a, users') → i ≠ id ∨ (∀ u, (f u).passwordHash =
        u.passwordHash) → hashOf users' id = hashOf users id := by
    intro i f hf a hOk hSame
    obtain ⟨u, hu, -, hFind⟩ := updateUser_ok hOk
    rw [hashOf, hFind id]
    split
    · next hi =>
      obtain hne | hSame := hSame
      · exact absurd hi.symm hne
      · simp [hashOf, hi, hu, hSame u]
    · rfl
  have hInsert : ∀ (u a : User), insertUser lower users u = .ok (a, users') →
      hashOf users' id = hashOf users id ∨ users.find id = none := by
    intro u a hOk
    obtain ⟨-, hNone, hFind⟩ := insertUser_ok hOk
    by_cases hi : id = u.id
    · exact .inr (hi ▸ hNone)
    · exact .inl (by rw [hashOf, hFind id, if_neg hi, hashOf])
  cases q with
  | createUser p => exact (hInsert _ _ h).imp_right .inl
  | createUserWithRoleAndStatus p role status => exact (hInsert _ _ h).imp_right .inl
  | updateUserProfile i => exact .inl (hUpdate i _ _ _ h (.inr fun _ => rfl))
  | updateUserRole i => exact .inl (hUpdate i _ _ _ h (.inr fun _ => rfl))
  | updateUserStatus i => exact .inl (hUpdate i _ _ _ h (.inr fun _ => rfl))
  | updateUserPassword i passwordHash =>
    by_cases hi : i = id
    · exact .inr (.inr (.inr ⟨passwordHash, by rw [hi]⟩))
    · exact .inl (hUpdate i _ _ _ h (.inl hi))
  | deleteUser i =>
    cases h
    by_cases hi : i = id
    · exact .inr (.inr (.inl (by rw [hi])))
    · refine .inl ?_
      rw [hashOf, Table.find_delete, hashOf]
      cases hFind : users.find id with
      | none => rfl
      | some u => simp [show u.id = id from Table.find_key hFind, Ne.symm hi]
  | getUserByID | getUserByEmail | listUsers => exact .inl (by rw [exec_isRead h rfl])

theorem hashOf_deleted {id : UUID} {n : Nat}
    (h : (Query.deleteUser id).exec lower fresh stamp users = .ok (n, users')) :
    hashOf users' id = none := by
  cases h
  rw [hashOf, Table.find_delete]
  cases hFind : users.find id with
  | none => rfl
  | some u => simp [show u.id = id from Table.find_key hFind]

end Spec

end Richter.Auth
