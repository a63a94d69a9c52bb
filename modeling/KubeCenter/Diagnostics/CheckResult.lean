import KubeCenter.Lib.Go

/-! The check contract incident evidence and change verification share. -/
namespace KubeCenter.Diagnostics
open Lib.Go

inductive CheckStatus where
  | pass
  | warn
  | fail
  | inconclusive
deriving DecidableEq

inductive Severity where
  | critical
  | warning
  | info
deriving DecidableEq

def reasonOK : String := "ok"
def reasonSourceUnavailable : String := "source_unavailable"

/-- The object a check observed; `uid` is empty when it was not read. -/
structure SourceRef where
  clusterID : String
  group : String := ""
  version : String := ""
  resource : String := ""
  kind : String := ""
  namespace_ : String := ""
  name : String := ""
  uid : String := ""
deriving DecidableEq

structure CheckResult where
  checkID : String
  status : CheckStatus
  severity : Severity
  reason : String
  message : String
  detail : String := ""
  remediation : String := ""
  source : SourceRef
  observedAt : Time
  evidence : List (String × String) := []
deriving DecidableEq

end KubeCenter.Diagnostics
