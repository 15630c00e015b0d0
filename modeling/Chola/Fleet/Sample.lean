import Chola.Fleet.System
import Chola.Controller.Sample

namespace Chola.Sample

open Base

def workerToken (workerId : String) (id : Uuid) : DbWorkerToken where
  id := id
  name := "worker-" ++ workerId
  tokenHash := "chola_wkr_" ++ workerId
  scope := "dedicated"
  expiresAt := none
  maxUses := 0
  uses := 0
  active := true
  workerId := some workerId

def tokenTables : TokenTables where
  tokens := (Keyed.empty.add (workerToken "w1" ⟨0x1f0e4c2a96d34b7e8a5c0d917b3e6f24⟩)).add
    (workerToken "w2" ⟨0x5c8d2e7b40af4169b3d60e1f8297ca53⟩)
  workers := (Keyed.empty.add (TokenTables.blankWorker "w1")).add (TokenTables.blankWorker "w2")

def access : TokenState where
  config := ⟨true, none⟩
  storage := some tokenTables
  hashes := ["chola_wkr_w1", "chola_wkr_w2"]

def retention : Retention where
  file := none
  logDir := false
  redis := false
  settings := .empty
  groups := .empty
  jobs := []
  archive := []
  jobsArchive := []
  purgeQueue := []
  removals := []

def fleet : FleetSystem where
  state := {
    core := (start []).state
    access := access
    logs := ⟨.empty, false⟩
    retention := retention }
  threads := []

def fleetClock (seconds : Int) : FleetAmbient where
  core := clock seconds
  tokens := ⟨seconds * nanosPerSec, fun _ => true, ""⟩
  sweep := ⟨seconds * nanosPerSec, fun _ => true, fun _ => true, fun _ => 0, fun _ => 0⟩
  limits := none

def fleetSteps (index count : Nat) (seconds : Int) : List (Label FleetAmbient FleetRequest) :=
  List.replicate count (.run index (fleetClock seconds))

def callBy (workerId : String) (call : Call) : Label FleetAmbient FleetRequest :=
  .spawn (.call ("Bearer chola_wkr_" ++ workerId) call)

def registration (workerId : String) : RegisterRequest where
  workerId := workerId
  hostname := "builder"
  totalCpu := 8
  totalMemoryMb := 16384
  totalDiskMb := 100000
  diskType := "nvme"
  supportedJobTypes := ["common"]
  dockerEnabled := false
  labels := []

def registerCall (workerId : String) : Call :=
  .register (registration workerId) ("chola_wkr_" ++ workerId) "" ""

def connects (workerId : String) (index : Nat) : List (Label FleetAmbient FleetRequest) :=
  [callBy workerId (registerCall workerId)] ++ fleetSteps index 3 0 ++
    [callBy workerId (.jobStream workerId)] ++
    fleetSteps (index + 1) 2 0

/-- A worker registers with a registration token. -/
def registrationCall (workerId token : String) : Call := .register (registration workerId) "" token "7c0e"

def heartbeatCall (workerId : String) : Call := .heartbeat [⟨workerId, 0, 0, 0, [], 0⟩]

end Chola.Sample
