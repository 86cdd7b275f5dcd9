import Mathlib.Logic.Function.Basic

/-! Transactions at READ COMMITTED.  A statement reads what has been committed and what its own
transaction has written; a row that one transaction has written is locked to the others until it
ends; a commit applies the transaction's writes to what is committed by then. -/

namespace Lib

/-- What is committed, the writes of each open transaction, and the locked rows.  `ι` names the
transactions, `κ` the rows and `Q` the statements. -/
structure TxnStore (ι κ Q σ : Type) where
  committed : σ
  pending : ι → Option (List Q)
  lock : κ → Option ι

namespace TxnStore

variable {ι κ Q σ : Type}

/-- A store without open transactions. -/
def quiet (s : σ) : TxnStore ι κ Q σ := ⟨s, fun _ => none, fun _ => none⟩

/-- The writes `qs` in their order. -/
def applyAll (apply : Q → σ → σ) (qs : List Q) (s : σ) : σ := qs.foldl (fun s q => apply q s) s

/-- What a statement of transaction `i` reads. -/
def view (apply : Q → σ → σ) (i : ι) (s : TxnStore ι κ Q σ) : σ :=
  applyAll apply ((s.pending i).getD []) s.committed

/-- A write outside of a transaction. -/
def autocommit (apply : Q → σ → σ) (q : Q) (s : TxnStore ι κ Q σ) : TxnStore ι κ Q σ :=
  { s with committed := apply q s.committed }

@[simp] theorem autocommit_committed (apply : Q → σ → σ) (q : Q) (s : TxnStore ι κ Q σ) :
    (s.autocommit apply q).committed = apply q s.committed := rfl

@[simp] theorem autocommit_pending (apply : Q → σ → σ) (q : Q) (s : TxnStore ι κ Q σ) :
    (s.autocommit apply q).pending = s.pending := rfl

variable [DecidableEq ι]

def begin (i : ι) (s : TxnStore ι κ Q σ) : TxnStore ι κ Q σ :=
  { s with pending := Function.update s.pending i (some []) }

/-- No other transaction holds a lock on the rows. -/
def free (i : ι) (keys : List κ) (s : TxnStore ι κ Q σ) : Bool :=
  keys.all fun k => s.lock k = none || s.lock k = some i

def release (i : ι) (lock : κ → Option ι) (k : κ) : Option ι :=
  if lock k = some i then none else lock k

def commit (apply : Q → σ → σ) (i : ι) (s : TxnStore ι κ Q σ) : TxnStore ι κ Q σ where
  committed := s.view apply i
  pending := Function.update s.pending i none
  lock := release i s.lock

def rollback (i : ι) (s : TxnStore ι κ Q σ) : TxnStore ι κ Q σ where
  committed := s.committed
  pending := Function.update s.pending i none
  lock := release i s.lock

/-- A write of transaction `i` to the rows `keys`. -/
def write [DecidableEq κ] (i : ι) (keys : List κ) (q : Q) (s : TxnStore ι κ Q σ) :
    TxnStore ι κ Q σ where
  committed := s.committed
  pending := Function.update s.pending i (some ((s.pending i).getD [] ++ [q]))
  lock k := if k ∈ keys then some i else s.lock k

section

variable (apply : Q → σ → σ) (i : ι) (q : Q) (s : TxnStore ι κ Q σ)

@[simp] theorem begin_committed : (s.begin i).committed = s.committed := rfl
@[simp] theorem begin_pending : (s.begin i).pending i = some [] := Function.update_self ..
@[simp] theorem commit_committed : (s.commit apply i).committed = s.view apply i := rfl
@[simp] theorem commit_pending : (s.commit apply i).pending i = none := Function.update_self ..
@[simp] theorem rollback_committed : (s.rollback i).committed = s.committed := rfl
@[simp] theorem rollback_pending : (s.rollback i).pending i = none := Function.update_self ..

@[simp] theorem write_committed [DecidableEq κ] (keys : List κ) :
    (s.write i keys q).committed = s.committed := rfl

@[simp] theorem write_pending [DecidableEq κ] (keys : List κ) :
    (s.write i keys q).pending i = some ((s.pending i).getD [] ++ [q]) := Function.update_self ..

end

end TxnStore

end Lib
