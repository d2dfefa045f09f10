import KeepAlive.Text.Quoted

/-!
# How the body of a job ends

A body is done, fails with a chain of reasons, or crashes.  Anything but the first is a fault, and a
fault is told in one sentence.
-/

namespace KeepAlive

/-- How the body of a job ended. -/
inductive Ending
  | done
  /-- The outermost reason comes first. -/
  | failed (reasons : List String)
  | crashed (message : String)
  deriving DecidableEq, Repr

/-- The sentence for an ending that is a fault.  The number of the task that crashed is not told. -/
def Ending.fault? : Ending → Option String
  | done => none
  | failed reasons => some (": ".intercalate reasons)
  | crashed message =>
    some ("job task failed: task N panicked with message " ++ Text.quoted message)

theorem Ending.fault?_eq_none_iff {ending : Ending} : ending.fault? = none ↔ ending = .done := by
  cases ending <;> simp [fault?]

end KeepAlive
