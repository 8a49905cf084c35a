import Permits.Statement.Basic

set_option autoImplicit false

namespace Permits

/-- The paths looked up for one non-empty run of leading segments: the run, the run without its
last segment, and the run with one segment emptied, from the second to last back to the first. -/
def pathsAround (segments : List String) : List String :=
  joinPath segments :: joinPath segments.dropLast ::
    (List.range (segments.length - 1)).reverse.map fun i => joinPath (segments.set i "")

/-- The paths looked up for the leading segments up to a length, longest run first. The empty run
is the app itself. -/
def candidatesUpTo (segments : List String) : Nat → List String
  | 0 => [joinPath []]
  | length + 1 => pathsAround (segments.take (length + 1)) ++ candidatesUpTo segments length

/-- The paths looked up for a request on the given segments. -/
def candidatePaths (segments : List String) : List String :=
  candidatesUpTo segments segments.length

@[simp] theorem candidatePaths_nil : candidatePaths [] = [""] := rfl

end Permits
