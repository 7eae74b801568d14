/-
# Alerts.Message -- alerts that are a subject and a body

The alerter of the watching components is called with a subject and a body.  It is code
handed in, and what it answers may depend on the calls made before.
-/
import Cronwatch.Runtime.Python

namespace Cronwatch.Alerts

set_option autoImplicit false

open Cronwatch.Runtime

/-- The arguments of `send(subject=..., body=...)`. -/
structure Message where
  subject : String
  body : String
deriving DecidableEq

end Cronwatch.Alerts
