import Allotment.Session.Answer
set_option autoImplicit false

/-!
# Steps on accounts

Opening and sharing accounts, and reading their counters. A snapshot is a copy:
what is recorded later does not change it.
-/

namespace Allotment.Session

/-- A step with an account. -/
inductive AccountStep where
  | start (name : String)
  | share (account : AccountRef) (name : String)
  | same (a b : AccountRef)
  /-- Copies the counters, and keeps the copy under a name if one is given. -/
  | snapshot (account : AccountRef) (name : Option String)
  | compare (a b : String)
  | report (account : AccountRef)

/-- What a step with an account answers and leaves. -/
def AccountStep.run (s : Session) : AccountStep → Except Missing (Answer × Session)
  | start name => do
    let (id, system) := s.system.openAccount
    pure (.done, { s with system, accounts := s.accounts.insert name id })
  | share account name => do
    let id ← s.account account
    pure (.done, { s with accounts := s.accounts.insert name id })
  | same a b => do
    let a ← s.account a
    let b ← s.account b
    pure (.same (a = b), s)
  | snapshot account name => do
    let id ← s.account account
    let counters := s.system.counters id
    let snapshots := name.elim s.snapshots fun name => s.snapshots.insert name counters
    pure (.snapshot counters, { s with snapshots })
  | compare a b => do
    let a ← s.snapshot a
    let b ← s.snapshot b
    pure (.equal (a = b), s)
  | report account => do
    let id ← s.account account
    pure (.text (s.system.counters id).report, s)

end Allotment.Session
