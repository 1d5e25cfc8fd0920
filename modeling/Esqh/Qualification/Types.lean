import Mathlib.Algebra.GroupWithZero.Nat
import Mathlib.Data.List.Lex
import Mathlib.Data.Prod.Lex
import Mathlib.Order.Fin.Basic

/-!
The records of `tools/qualification.py`. Text is a list of code points, lone
surrogates included, and compares as Python's strings do.
-/

namespace Esqh.Qualification

abbrev CodePoint := Fin 0x110000

@[instance] theorem CodePoint.neZero : NeZero (0x110000 : Nat) := ⟨by decide⟩

abbrev Str := List CodePoint

instance Str.lawfulBEq : LawfulBEq Str := inferInstance

/-- A string literal of the source. -/
def str (literal : String) : Str :=
  literal.toList.map fun character => Fin.ofNat 0x110000 character.toNat

/-- CPython's default limit on the digits of an integer that is converted. -/
@[irreducible] def maxStrDigits : Nat := 4300

/-- The integer is short enough to be converted to text. -/
def Formats (n : Int) : Prop := n.natAbs < 10 ^ maxStrDigits

instance Formats.decidable (n : Int) : Decidable (Formats n) := Nat.decLt _ _

/-- What formatting any other integer raises. -/
def valueError : Str :=
  str "ValueError: Exceeds the limit (4300 digits) for integer string conversion"

/-- The digits of an integer that formats. Only an exit code need not: counts,
positions and indices number what is in memory. -/
def intText (n : Int) : Str := str (toString n)

theorem formats_zero : Formats 0 := Nat.pow_pos (Nat.succ_pos 9)

structure Issue where
  code : Str
  message : Str
  subjectId : Str := []
  deriving DecidableEq

/-- What reports hold of an issue: an empty subject is left out. -/
structure IssueRecord where
  code : Str
  message : Str
  subjectId : Option Str
  deriving DecidableEq

def Issue.asDict (issue : Issue) : IssueRecord :=
  { code := issue.code
    message := issue.message
    subjectId := if issue.subjectId = [] then none else some issue.subjectId }

/-- The sort key of reported issues. -/
def Issue.orderKey (issue : Issue) : Str ×ₗ Str ×ₗ Str :=
  toLex (issue.code, toLex (issue.subjectId, issue.message))

structure Requirement where
  identifier : Str
  title : Str
  statement : Str
  verificationMethods : List Str
  deriving DecidableEq

structure Procedure where
  identifier : Str
  title : Str
  requirementIds : List Str
  caseIds : List Str
  verificationMethod : Str
  deriving DecidableEq

/-- The normalised statuses of cases, and of the rows derived from them. -/
inductive CaseStatus where
  | pass
  | fail
  | incomplete
  deriving DecidableEq

structure CCaseResult where
  identifier : Str
  name : Str
  status : CaseStatus
  message : Str
  deriving DecidableEq

structure QualificationMetadata where
  project : Str
  version : Str
  baseline : Str
  deriving DecidableEq

structure ProcedureRow where
  caseIds : List Str
  id : Str
  requirementIds : List Str
  status : CaseStatus
  title : Str
  verificationMethod : Str
  deriving DecidableEq

structure TraceabilityRow where
  caseIds : List Str
  procedureIds : List Str
  requirementId : Str
  status : CaseStatus
  title : Str
  deriving DecidableEq

structure CCaseRow where
  id : Str
  message : Str
  name : Str
  status : CaseStatus
  deriving DecidableEq

structure Summary where
  cCasesFailed : Nat
  cCasesIncomplete : Nat
  cCasesPassed : Nat
  cCasesTotal : Nat
  issues : Nat
  proceduresTotal : Nat
  requirementsTotal : Nat
  deriving DecidableEq

structure ArmInspection where
  note : Str
  requirementIds : List Str
  status : Str
  deriving DecidableEq

structure ExternalGates where
  armInspection : ArmInspection
  deriving DecidableEq

inductive ReportResult where
  | hostPass
  | fail
  deriving DecidableEq

/-- A report. The optional fields are missing when no input could be read. -/
structure Report where
  baseline : Option Str
  binaryExitCode : Option Int
  cCases : List CCaseRow
  evidenceScope : Str
  externalGates : ExternalGates
  issues : List IssueRecord
  project : Option Str
  procedures : List ProcedureRow
  result : ReportResult
  schemaVersion : Nat
  summary : Summary
  traceability : List TraceabilityRow
  version : Option Str
  deriving DecidableEq

end Esqh.Qualification
