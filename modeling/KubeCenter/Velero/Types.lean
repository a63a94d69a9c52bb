import KubeCenter.Lib.Go

/-! # Velero objects

The fields of `types.go` that backup assurance reads, what a backup's phase
means, and the order of a schedule's runs of `last_backup.go`. -/
namespace KubeCenter.Velero

open Lib.Go

structure Backup where
  name : String
  namespace_ : String
  phase : String
  includedNamespaces : List String
  excludedNamespaces : List String
  startTime : Option Time
  completionTime : Option Time
  scheduleName : String
  created : Time
deriving DecidableEq

structure Schedule where
  name : String
  namespace_ : String
  uid : String
  schedule : String
  paused : Bool
  lastBackup : Option Time
  storageLocation : String
  created : Time
deriving DecidableEq

structure BackupStorageLocation where
  name : String
  namespace_ : String
  phase : String
  default_ : Bool
  message : String
deriving DecidableEq

def backupGVR : String := "backups"
def scheduleGVR : String := "schedules"
def backupStorageLocationGVR : String := "backupstoragelocations"

/-! ## Phases -/

def isProgressPhase (phase : String) : Bool :=
  phase ∈ ["InProgress", "New", "WaitingForPluginOperations", "Finalizing", "Queued",
    "ReadyToStart", "FinalizingPartiallyFailed", "WaitingForPluginOperationsPartiallyFailed"]

inductive BackupOutcome where
  | succeeded
  | failed
  | inProgress
  | unknown
deriving DecidableEq

def backupOutcomeOf (phase : String) : BackupOutcome :=
  if phase = "Completed" then .succeeded
  else if phase ∈ ["PartiallyFailed", "Failed", "FailedValidation"] then .failed
  else if phase = "" || isProgressPhase phase then .inProgress
  else .unknown

/-! ## Runs of a schedule -/

def maxLabelValue : Nat := 63
def labelHashLen : Nat := 6

/-- `sha256Hex` is the hash of a text in hexadecimal. -/
def scheduleLabelValue (sha256Hex : String → String) (name : String) : String :=
  if name.utf8ByteSize ≤ maxLabelValue then name
  else .ofList (takeBytes (maxLabelValue - labelHashLen) name.toList ++
    (sha256Hex name).toList.take labelHashLen)

def runTime (b : Backup) : Time := b.startTime.getD b.created

/-- `a` ran after `b`: by run time, then creation time, then name. -/
def newerRun (a b : Backup) : Bool :=
  if runTime a ≠ runTime b then runTime a > runTime b
  else if a.created ≠ b.created then a.created > b.created
  else a.name > b.name

end KubeCenter.Velero
