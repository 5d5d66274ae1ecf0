import BuildPipeline.Verification.Basic

/-! A verification as JSON, and as lines for a reader. -/

namespace BuildPipeline.Verification

def report (verification : Verification) (timestamp : Text) : Report :=
  .ofParts [
    [("passed", .boolean verification.passed), ("issues", .list (verification.issues.map Issue.report))],
    Report.optionalMember "specCount" (verification.specCount.map fun count => .number (.ofNat count)),
    [("timestamp", .text timestamp)]]

def verdict (verification : Verification) : Text :=
  if verification.passed then "✅ PASSED" else "❌ FAILED"

/-- What is said when there is nothing to report. -/
def allClearLine (verification : Verification) : Text :=
  "  All checks passed (" ++ decimal (verification.specCount.getD 0) ++ " specs)."

def lines (verification : Verification) : List Text :=
  let details :=
    if verification.issues.isEmpty then [verification.allClearLine] else verification.issues.map Issue.line
  ("\nVerification: " ++ verification.verdict ++ "\n") :: (details ++ [[]])

end BuildPipeline.Verification
