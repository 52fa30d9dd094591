import Provisioning.Fault
import Provisioning.Job.Task
import Provisioning.Template.Engine
import Provisioning.Yaml.Reader

/-!
# The job that brings a machine into provisioning

The boot device can be changed only while the machine is off, so the job switches the
power off, sets the machine to boot from the network once, and switches it on again.
-/

namespace Provisioning.Job

open Provisioning.Template (Engine.render)
open Provisioning.Template.Body (line lineWith)

/-- The one field of the job. -/
structure Template where
  /-- Boot in the extensible firmware mode. -/
  efiBoot : Bool
deriving DecidableEq, Repr

namespace Template

/-- The field when nothing is said of it. -/
def blank : Template := ⟨false⟩

/-- What a placeholder of the body stands for. -/
inductive Slot where
  | efiBoot
deriving DecidableEq, Repr

/-- The name of a placeholder. -/
def Slot.label : Slot → String
  | efiBoot => "efi_boot"

/-- The body of the job. -/
def body : Provisioning.Template.Body Slot := List.flatten [
    line "",
    line "- powerAction: \"off\"",
    line "- oneTimeBootDeviceAction:",
    line "    device:",
    line "    - pxe",
    lineWith "    efiBoot: " Slot.efiBoot "",
    line "- powerAction: \"on\""
  ]

/-- The text of the body with its placeholders. -/
def source : String := String.ofList (body.source Slot.label)

/-- What a placeholder stands for. -/
def value (template : Template) : Slot → String
  | .efiBoot => if template.efiBoot then "true" else "false"

/-- The value that the engine is given, with its name. It is a text, as the engine has a spelling
of its own for truth values. -/
def context (template : Template) : List (String × String) :=
  [("efi_boot", if template.efiBoot then "true" else "false")]

/-- What the engine makes of the body. -/
def rendering (template : Template) : Except Fault String := Engine.render source template.context

/-- The text of the job; the engine always gives one. -/
def render (template : Template) : String :=
  match template.rendering with
  | .ok text => text
  | .error _ => ""

/-- How the field is read; it may be absent. -/
def shape {m : Type → Type} [Source m] : Record m Template where
  name := "HardwareProvisionTasks"
  blank := blank
  fields := [.spare "efiBoot" Source.flag (fun efiBoot template => { template with efiBoot })]

/-- Reads the field. -/
def read {m : Type → Type} [Source m] : m Template := Source.record shape

/-- The JSON form of the field. -/
def toJson (template : Template) : Json := .object [("efiBoot", .bool template.efiBoot)]

end Template

/-- Reads the text of a job. -/
def readTasks (text : String) : Except Fault (List Task) := (Yaml.read read text).mapError .yaml

/-- The job, as read from its text. -/
def Template.renderTasks (template : Template) : Except Fault (List Task) := do
  readTasks (← template.rendering)

end Provisioning.Job
