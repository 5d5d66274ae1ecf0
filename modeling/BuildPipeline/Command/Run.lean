import BuildPipeline.Failure

/-! What running a command comes to: printed lines and an outcome. -/

namespace BuildPipeline

structure CommandRun (α : Type) where
  /-- Lines on the standard output. -/
  output : List Text := []
  /-- Lines on the standard error. -/
  notes : List Text := []
  outcome : Except Failure α

namespace CommandRun

variable {α : Type}

def failed (notes : List Text) (failure : Failure) : CommandRun α :=
  { notes, outcome := .error failure }

/-- Puts notes in front. -/
def after (notes : List Text) (run : CommandRun α) : CommandRun α :=
  { run with notes := notes ++ run.notes }

end CommandRun

end BuildPipeline
