import Esqh.Qualification.CommandLine
import Esqh.Qualification.Harness

/-!
`verify_host` in `scripts/verify.sh`. It builds the test binary, runs it under
ctest, captures its output and its exit code, and runs the two tools on them. A
step that ends with another status than 0 ends the script.
-/

namespace Esqh.Qualification

open Batch Collections Outcome Utf8

variable (runtime : Runtime) (surroundings : Surroundings) (function : TestCase → Bool)

/-- What the script finds on the host: which commands there are, the exit status
of each tool, that of ctest by the one of its only test, and whether the built
binary is executable. -/
structure HostTools where
  hasCmake : Bool
  hasPython : Bool
  configure : Int
  build : Int
  ctest : Int → Int
  unittest : Int
  executable : Bool

/-- The statuses of the steps up to the capture. The test of `CMakeLists.txt` is
the binary without arguments, and `die` ends the script with 1. -/
def HostTools.statuses (tools : HostTools) (program : Str) : List Int :=
  [if tools.hasCmake then 0 else 1,
    if tools.hasPython then 0 else 1,
    tools.configure,
    tools.build,
    tools.ctest (testMain function program []).status,
    tools.unittest,
    if tools.executable then 0 else 1]

section Results

variable {runtime surroundings function}

end Results

section Script

variable {runtime surroundings function}

end Script

section Steps

variable {function}

end Steps

section Sample

def caseIds : List Str := testCases.map fun case => str case.id

end Sample

end Esqh.Qualification
