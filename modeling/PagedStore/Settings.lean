/-!
Settings of a database.
-/
namespace PagedStore

inductive WaitPolicy where
  /-- After the time limit. -/
  | timeLimit
  /-- At once if the requester is on a cycle of waits, else after the time limit. -/
  | waitsFor
deriving DecidableEq

/-- Settings of a database. Times are in milliseconds. -/
structure Settings where
  pageSize : Nat := 4096
  cachePages : Nat := 50
  lockLimit : Nat := 500
  lockPoll : Nat := 5
  policy : WaitPolicy := .timeLimit
deriving DecidableEq

end PagedStore
