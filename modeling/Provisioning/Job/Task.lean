import Provisioning.Json.Tree
import Provisioning.Source

/-!
# Jobs of a machine's management controller

A job is a list of tasks, each of which is meant to carry one action: to switch the
power of the machine, or to set the devices of its next boot.
-/

namespace Provisioning.Job

/-- What happens to the power. -/
inductive PowerAction where
  | on
  | off
deriving DecidableEq, Repr

/-- What a machine can boot from. -/
inductive BootDevice where
  /-- The network. -/
  | pxe
deriving DecidableEq, Repr

/-- The devices of the next boot. -/
structure BootAction where
  /-- The devices, in order. -/
  device : List BootDevice
  /-- Boot in the extensible firmware mode. -/
  efiBoot : Bool
deriving DecidableEq, Repr

/-- One step of a job. -/
structure Task where
  powerAction : Option PowerAction
  bootAction : Option BootAction
deriving DecidableEq, Repr

namespace PowerAction

/-- The word for an action. -/
def name : PowerAction → String
  | on => "on"
  | off => "off"

/-- All actions by their words. -/
def known : List (String × PowerAction) := [(on.name, on), (off.name, off)]

/-- Reads an action. -/
def read {m : Type → Type} [Source m] : m PowerAction := Source.choice known

/-- The JSON form of an action. -/
def toJson (action : PowerAction) : Json := .string action.name

end PowerAction

namespace BootDevice

/-- The word for a device. -/
def name : BootDevice → String
  | pxe => "pxe"

/-- All devices by their words. -/
def known : List (String × BootDevice) := [(pxe.name, pxe)]

/-- Reads a device. -/
def read {m : Type → Type} [Source m] : m BootDevice := Source.choice known

/-- The JSON form of a device. -/
def toJson (device : BootDevice) : Json := .string device.name

end BootDevice

namespace BootAction

/-- How the devices of the next boot are read. -/
def shape {m : Type → Type} [Source m] : Record m BootAction where
  name := "OneTimeBootDeviceAction"
  blank := ⟨[], false⟩
  fields := [
    .needed "device" (Source.list BootDevice.read) (fun device action => { action with device }),
    .spare "efiBoot" Source.flag (fun efiBoot action => { action with efiBoot })]

/-- Reads the devices of the next boot. -/
def read {m : Type → Type} [Source m] : m BootAction := Source.record shape

/-- The JSON form. -/
def toJson (action : BootAction) : Json :=
  .object [
    ("device", .array (action.device.map BootDevice.toJson)),
    ("efiBoot", .bool action.efiBoot)]

end BootAction

namespace Task

/-- A step that does nothing. -/
def blank : Task := ⟨none, none⟩

/-- A step that switches the power. -/
def power (action : PowerAction) : Task := ⟨some action, none⟩

/-- A step that sets the device of the next boot. -/
def oneTimeBoot (device : BootDevice) (efiBoot : Bool) : Task := ⟨none, some ⟨[device], efiBoot⟩⟩

/-- How a step is read. -/
def shape {m : Type → Type} [Source m] : Record m Task where
  name := "BmcTask"
  blank := blank
  fields := [
    .spare "powerAction" (Source.optional PowerAction.read)
      (fun powerAction task => { task with powerAction }),
    .spare "oneTimeBootDeviceAction" (Source.optional BootAction.read)
      (fun bootAction task => { task with bootAction })]

/-- Reads a step. -/
def read {m : Type → Type} [Source m] : m Task := Source.record shape

/-- The JSON form of a step. Absent actions are left out. -/
def toJson (task : Task) : Json :=
  .ofMembers [
    Json.member? "powerAction" (task.powerAction.map PowerAction.toJson),
    Json.member? "oneTimeBootDeviceAction" (task.bootAction.map BootAction.toJson)]

end Task

/-- Reads a job. -/
def read {m : Type → Type} [Source m] : m (List Task) := Source.list Task.read

/-- The JSON form of a job. -/
def toJson (tasks : List Task) : Json := .array (tasks.map Task.toJson)

end Provisioning.Job
