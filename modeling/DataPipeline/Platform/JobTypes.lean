import DataPipeline.Library.Calendar

/-! Job definitions of `libs/platform/job_types.py`. -/

set_option autoImplicit false

namespace DataPipeline.Platform

open Calendar

structure JobHealthMetrics where
  lastRunAt : Option DateTime := none
  lastRunDurationSeconds : ℚ := 0
  successCount : Nat := 0
  failureCount : Nat := 0
  lastError : Option String := none
  deriving DecidableEq

/-- `success_rate`, which is 1 before the first run. -/
def JobHealthMetrics.successRate (health : JobHealthMetrics) : ℚ :=
  let total := health.successCount + health.failureCount
  if total = 0 then 1 else health.successCount / total

/-- A job without a trigger is meant to be disabled. -/
structure Job (Trigger Handler : Type) where
  name : String
  handler : Handler
  trigger : Option Trigger
  maxRetries : Int := 3
  timeoutSeconds : Option Int := none
  tags : List String := []

end DataPipeline.Platform
