import Esqh.Qualification.JsonReader

/-!
The test binary, `tests/c/test_main.c`. What a test function returns is left
open; the table of the cases, the loop over it and everything that `main` prints
are the source's. Names and identifiers are printed as they are, without the
escapes of JSON.
-/

namespace Esqh.Qualification

open Reading

structure TestCase where
  id : String
  name : String
  deriving DecidableEq

/-- `TEST_CASES`, without the functions. -/
def testCases : List TestCase :=
  [⟨"TC-CFG-001", "default configuration baseline"⟩,
    ⟨"TC-CFG-002", "invalid configuration rejection"⟩,
    ⟨"TC-PLT-001", "portable fixed-width contract"⟩,
    ⟨"TC-BOOT-001", "controlled initialization"⟩,
    ⟨"TC-SCH-001", "cooperative scheduler periods"⟩,
    ⟨"TC-STA-001", "allowed operational transition"⟩,
    ⟨"TC-STA-002", "degraded and safe transitions"⟩,
    ⟨"TC-CMD-HB-001", "heartbeat sequence guard"⟩,
    ⟨"TC-WDG-001", "watchdog boundary"⟩,
    ⟨"TC-FLT-001", "fault latching"⟩,
    ⟨"TC-RCV-001", "controlled recovery"⟩,
    ⟨"TC-RES-001", "static memory budget"⟩,
    ⟨"TC-BND-001", "fixed queue boundaries"⟩,
    ⟨"TC-DET-001", "deterministic replay"⟩,
    ⟨"TC-TLM-001", "telemetry layout and checksum"⟩,
    ⟨"TC-IF-UART-001", "UART frame round trip"⟩,
    ⟨"TC-IF-UART-002", "UART rejection and atomicity boundaries"⟩,
    ⟨"TC-IF-SPI-001", "SPI frame and register model"⟩,
    ⟨"TC-IF-CAN-001", "classic CAN boundaries"⟩,
    ⟨"TC-IF-ETH-001", "Ethernet datagram boundaries"⟩]

/-- What a test binary leaves: its output streams and its exit code. -/
structure BinaryRun where
  stdout : Str
  stderr : Str
  status : Int

/-- The accumulators of the loop over the cases. -/
structure Tally where
  output : Str
  failures : Nat

section Printing

variable (function : TestCase → Bool)

def jsonHeader : Str :=
  str "\x7b\"schema_version\":1," ++
    str "\"project\":\"embedded-software-qualification-harness\"," ++
    str "\"version\":\"" ++ str "0.1.0" ++ str "\"," ++ str "\"baseline\":\"" ++
    str "ESQH-BL-0.1.0" ++ str "\"," ++ str "\"cases\":["

def caseOutput (jsonOutput : Bool) (index : Nat) (case : TestCase) : Str :=
  let passed := function case
  if jsonOutput then
    str (if index = 0 then "" else ",") ++ str "\x7b\"id\":\"" ++ str case.id ++
      str "\",\"name\":\"" ++ str case.name ++ str "\",\"status\":\"" ++
      str (if passed then "passed" else "failed") ++ str "\",\"message\":\"" ++
      str (if passed then "" else "assertion failed") ++ str "\"\x7d"
  else
    str (if passed then "PASS" else "FAIL") ++ str " " ++ str case.id ++ str " - " ++
      str case.name ++ str "\n"

def runCases (jsonOutput : Bool) : Nat → List TestCase → Tally → Tally
  | _, [], tally => tally
  | index, case :: cases, tally =>
    let tally :=
      { output := tally.output ++ caseOutput function jsonOutput index case
        failures := if function case then tally.failures else tally.failures + 1 }
    runCases jsonOutput (index + 1) cases tally

def summaryOutput (jsonOutput : Bool) (count failures : Nat) : Str :=
  if jsonOutput then
    str "],\"summary\":\x7b\"total\":" ++ intText count ++ str ",\"passed\":" ++
      intText ((count - failures : Nat) : Int) ++ str ",\"failed\":" ++ intText failures ++
      str "\x7d\x7d\n"
  else
    intText count ++ str " cases, " ++ intText ((count - failures : Nat) : Int) ++
      str " passed, " ++ intText failures ++ str " failed\n"

/-- `main`, with the arguments after the program's name. -/
def testMain (program : Str) (arguments : List Str) : BinaryRun :=
  let jsonOutput : Bool := arguments = [str "--json"]
  if arguments ≠ [] ∧ jsonOutput = false then
    { stdout := [], stderr := str "usage: " ++ program ++ str " [--json]\n", status := 64 }
  else
    let start : Tally := { output := if jsonOutput then jsonHeader else [], failures := 0 }
    let tally := runCases function jsonOutput 0 testCases start
    { stdout := tally.output ++ summaryOutput jsonOutput testCases.length tally.failures
      stderr := []
      status := if tally.failures = 0 then 0 else 1 }

end Printing

section Documents

variable (function : TestCase → Bool)

def object (lines : List (Str × Str)) : Str :=
  123 :: (([44] : Str).intercalate (lines.map Json.compactMember) ++ [125])

def failures : Nat := testCases.countP fun case => function case = false

end Documents

end Esqh.Qualification
