/-! Identifiers, and the errors of statements and of request handlers
(`internal/svc/errors.go`). -/

namespace Richter

abbrev UUID := Nat

/-- The errors of a statement: no row for a `:one` query, an error of Postgres with its code, or
another failure. -/
inductive DbError
  | noRows
  | pg (code : String)
  | other (text : String)
  deriving DecidableEq, Repr

def DbError.text : DbError → String
  | .noRows => "no rows in result set"
  | .pg code => "SQLSTATE " ++ code
  | .other text => text

/-- The row of a `:one` query. -/
def one {α : Type} (row : Option α) : Except DbError α :=
  match row with
  | some a => .ok a
  | none => .error .noRows

@[simp] theorem one_eq_ok {α : Type} {row : Option α} {a : α} :
    one row = .ok a ↔ row = some a := by
  cases row <;> simp [one]

@[simp] theorem one_eq_error {α : Type} {row : Option α} {e : DbError} :
    one row = .error e ↔ row = none ∧ e = .noRows := by
  cases row <;> simp [one, eq_comm]

/-- The codes of the errors that handlers return. -/
inductive Code
  | notFound
  | alreadyExists
  | permissionDenied
  | failedPrecondition
  | internal
  | unauthenticated
  | invalidArgument
  | unimplemented
  | unavailable
  | deadlineExceeded
  | resourceExhausted
  deriving DecidableEq, Repr

/-- `connect.Code.String`. -/
def Code.text : Code → String
  | .notFound => "not_found"
  | .alreadyExists => "already_exists"
  | .permissionDenied => "permission_denied"
  | .failedPrecondition => "failed_precondition"
  | .internal => "internal"
  | .unauthenticated => "unauthenticated"
  | .invalidArgument => "invalid_argument"
  | .unimplemented => "unimplemented"
  | .unavailable => "unavailable"
  | .deadlineExceeded => "deadline_exceeded"
  | .resourceExhausted => "resource_exhausted"

/-- An error with a code, or one of the database that has none yet. -/
inductive Error
  | connect (code : Code) (message : String)
  | db (e : DbError)
  deriving DecidableEq, Repr

/-- `svc.ConnectDBError`. -/
def connectDBError : DbError → Error
  | .noRows => .connect .notFound "not found"
  | .pg "23505" => .connect .alreadyExists "already exists"
  | .pg "23503" => .connect .failedPrecondition "constraint violation"
  | .pg _ | .other _ => .connect .internal "internal error"

/-- An error without a code goes through `ConnectDBError`. -/
def Error.withCode : Error → Error
  | .connect code message => .connect code message
  | .db e => connectDBError e

end Richter
