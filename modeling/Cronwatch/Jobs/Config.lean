/-
# Jobs.Config -- the job record

`JobConfig` as `config.py` declares it, with its defaults.
-/
import Cronwatch.Theory.Dict

namespace Cronwatch.Jobs

set_option autoImplicit false

open Cronwatch.Theory

structure JobConfig where
  name : String
  command : String
  schedule : String
  enabled : Bool := true
  /-- Seconds; `0` means no timeout. -/
  timeout : Int := 0
  tags : List String := []
  labels : Dict String String := .empty
  dependsOn : List String := []
deriving DecidableEq

end Cronwatch.Jobs
