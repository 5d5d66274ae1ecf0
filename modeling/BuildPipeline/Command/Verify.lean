import BuildPipeline.Command.Run
import BuildPipeline.Verification.Report

/-! Checking a manifest. The run succeeds even when the check does not pass. -/

namespace BuildPipeline

variable {m : Type → Type} [Monad m] [FileSystem m]

def verifyManifest (location : Path) : m Verification := do
  return (← readManifest location).verify

def runVerify (timestamp : Text) (json : Bool) (location : Path) : m (CommandRun Verification) := do
  let verification ← verifyManifest location
  if json then
    return { output := [(verification.report timestamp).render], outcome := .ok verification }
  else return { notes := verification.lines, outcome := .ok verification }

end BuildPipeline
