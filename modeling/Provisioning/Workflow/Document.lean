import Provisioning.Environment
import Provisioning.Json.Tree
import Provisioning.Source

/-!
# Workflow documents

A workflow is a list of tasks, each bound to a worker, and a task is a list of actions
that run one after the other in containers. The questions asked of a document, which
actions it has and how long they take, look at all actions in order and not at how they
are grouped into tasks.
-/

namespace Provisioning.Workflow

/-- A step that runs in a container. -/
structure Action where
  name : String
  image : String
  /-- Seconds after which the action is given up. -/
  timeout : Option UInt64
  /-- The mode of the process namespace. -/
  pid : Option String
  environment : Environment

/-- Actions that run in order on one worker. -/
structure Task where
  name : String
  worker : String
  /-- Directories that every action sees. -/
  volumes : List String
  actions : List Action

/-- A workflow. -/
structure Document where
  version : Option String
  name : String
  /-- Seconds after which the whole workflow is given up. -/
  globalTimeout : Option UInt64
  tasks : List Task

/-- The total of some durations does not fit into 64 bits of seconds. -/
inductive DurationFault where
  | overflow
deriving DecidableEq, Repr

/-- The wording of the fault. -/
def DurationFault.message : DurationFault → String
  | overflow => "overflow in iter::sum over durations"

namespace Action

/-- An action before anything is known of it. -/
def blank : Action := ⟨"", "", none, none, .empty⟩

/-- How an action is read. -/
def shape {m : Type → Type} [Source m] : Record m Action where
  name := "Action"
  blank := blank
  fields := [
    .needed "name" Source.text (fun name action => { action with name }),
    .needed "image" Source.text (fun image action => { action with image }),
    .spare "timeout" (Source.optional Source.natural)
      (fun timeout action => { action with timeout }),
    .spare "pid" (Source.optional Source.text) (fun pid action => { action with pid }),
    .spare "environment" (Source.bindings Source.untyped)
      (fun bindings action => { action with environment := .ofList bindings })]

/-- Reads an action. -/
def read {m : Type → Type} [Source m] : m Action := Source.record shape

/-- The JSON form of an action. Absent fields and an empty environment are left out. -/
def toJson (action : Action) : Except NoJson Json := do
  let environment ← action.environment.entries.mapM fun (name, value) => do
    return (name, ← value.toJson)
  return .ofMembers [
    Json.member "name" (.string action.name),
    Json.member "image" (.string action.image),
    Json.member? "timeout" (action.timeout.map fun seconds => .int seconds.toNat),
    Json.member? "pid" (action.pid.map .string),
    Json.member? "environment" (if environment.isEmpty then none else some (.object environment))]

/-- Equality of actions. -/
def same (a b : Action) : Bool :=
  a.name == b.name && a.image == b.image && a.timeout == b.timeout && a.pid == b.pid &&
    a.environment.same b.environment

/-- The text of an environment value, for scalars other than null. -/
def envText? (action : Action) (name : String) : Option String := action.environment.text? name

end Action

namespace Task

/-- A task before anything is known of it. -/
def blank : Task := ⟨"", "", [], []⟩

/-- How a task is read. -/
def shape {m : Type → Type} [Source m] : Record m Task where
  name := "Task"
  blank := blank
  fields := [
    .needed "name" Source.text (fun name task => { task with name }),
    .needed "worker" Source.text (fun worker task => { task with worker }),
    .spare "volumes" (Source.list Source.text) (fun volumes task => { task with volumes }),
    .spare "actions" (Source.list Action.read) (fun actions task => { task with actions })]

/-- Reads a task. -/
def read {m : Type → Type} [Source m] : m Task := Source.record shape

/-- The JSON form of a task. Volumes are left out if there are none. -/
def toJson (task : Task) : Except NoJson Json := do
  let actions ← task.actions.mapM Action.toJson
  return .ofMembers [
    Json.member "name" (.string task.name),
    Json.member "worker" (.string task.worker),
    Json.member? "volumes"
      (if task.volumes.isEmpty then none else some (.array (task.volumes.map .string))),
    Json.member "actions" (.array actions)]

/-- Equality of tasks. -/
def same (a b : Task) : Bool :=
  a.name == b.name && a.worker == b.worker && a.volumes == b.volumes &&
    a.actions.length == b.actions.length && (a.actions.zip b.actions).all (fun (x, y) => x.same y)

end Task

namespace Document

/-- A document before anything is known of it. -/
def blank : Document := ⟨none, "", none, []⟩

/-- How a document is read. -/
def shape {m : Type → Type} [Source m] : Record m Document where
  name := "WorkflowDocument"
  blank := blank
  fields := [
    .spare "version" (Source.optional Source.text)
      (fun version document => { document with version }),
    .needed "name" Source.text (fun name document => { document with name }),
    .spare "global_timeout" (Source.optional Source.natural)
      (fun globalTimeout document => { document with globalTimeout }),
    .spare "tasks" (Source.list Task.read) (fun tasks document => { document with tasks })]

/-- Reads a document. -/
def read {m : Type → Type} [Source m] : m Document := Source.record shape

/-- The JSON form of a document. Absent fields are left out. -/
def toJson (document : Document) : Except NoJson Json := do
  let tasks ← document.tasks.mapM Task.toJson
  return .ofMembers [
    Json.member? "version" (document.version.map .string),
    Json.member "name" (.string document.name),
    Json.member? "global_timeout" (document.globalTimeout.map fun seconds => .int seconds.toNat),
    Json.member "tasks" (.array tasks)]

/-- Equality of documents. -/
def same (a b : Document) : Bool :=
  a.version == b.version && a.name == b.name && a.globalTimeout == b.globalTimeout &&
    a.tasks.length == b.tasks.length && (a.tasks.zip b.tasks).all (fun (x, y) => x.same y)

/-- All actions in order. -/
def actions (document : Document) : List Action := document.tasks.flatMap (·.actions)

/-- The names of all actions in order. -/
def actionNames (document : Document) : List String := document.actions.map (·.name)

/-- The first action of a name. -/
def action? (document : Document) (name : String) : Option Action :=
  document.actions.find? (fun action => action.name == name)

/-- One more duration on top of a total that must fit into 64 bits. -/
def addSeconds (total : UInt64) (seconds : UInt64) : Except DurationFault UInt64 :=
  if total.toNat + seconds.toNat < UInt64.size then .ok (total + seconds) else .error .overflow

/-- The total of all timeouts, in seconds. -/
def estimatedDuration (document : Document) : Except DurationFault UInt64 :=
  (document.actions.filterMap (·.timeout)).foldlM addSeconds 0

/-- The document with the tasks of another behind its own. -/
def append (document other : Document) : Document :=
  { document with tasks := document.tasks ++ other.tasks }

/-- The document with every action changed. -/
def mapActions (change : Action → Action) (document : Document) : Document :=
  { document with
    tasks := document.tasks.map fun task => { task with actions := task.actions.map change } }

/-- The document with another timeout for every action of a name. -/
def setTimeout (document : Document) (name : String) (timeout : Option UInt64) : Document :=
  document.mapActions fun action => if action.name == name then { action with timeout } else action

/-- The tasks with a binding added to the environment of the first action of a name. -/
def bindFirst (name key : String) (value : Value) : List Task → List Task
  | [] => []
  | task :: tasks =>
    match task.actions.findIdx? (fun action => action.name == name) with
    | none => task :: bindFirst name key value tasks
    | some index =>
      let actions := task.actions.modify index fun action =>
        { action with environment := action.environment.insert key value }
      { task with actions } :: tasks

/-- The document with a binding added to the environment of the first action of a name. -/
def setEnvironment (document : Document) (name key : String) (value : Value) : Document :=
  { document with tasks := bindFirst name key value document.tasks }

end Document

end Provisioning.Workflow
