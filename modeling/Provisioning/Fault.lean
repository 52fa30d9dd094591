import Provisioning.Yaml.ReadFault

/-!
# What can go wrong in provisioning

A template may lack a required field, its body may fail as a template, or its text may
not be the YAML that is asked for.
-/

namespace Provisioning

/-- The kinds of failure of a template engine. -/
inductive TemplateFault.Kind where
  | syntaxError
  | undefinedValue
  | templateNotFound
  | invalidOperation
  | badSerialization
  | writeFailure
deriving DecidableEq, Repr

/-- The wording of a kind of failure. -/
def TemplateFault.Kind.text : TemplateFault.Kind → String
  | syntaxError => "syntax error"
  | undefinedValue => "undefined value"
  | templateNotFound => "template not found"
  | invalidOperation => "invalid operation"
  | badSerialization => "could not serialize to value"
  | writeFailure => "failed to write output"

/-- A failure of a template engine, perhaps with a detail. -/
structure TemplateFault where
  kind : TemplateFault.Kind
  detail : Option String
deriving DecidableEq, Repr

/-- The wording of a failure. -/
def TemplateFault.message (fault : TemplateFault) : String :=
  match fault.detail with
  | none => fault.kind.text
  | some detail => fault.kind.text ++ ": " ++ detail

/-- A fault of provisioning. -/
inductive Fault where
  | missingName
  | missingImageUrl
  /-- A body is no template. -/
  | parse (fault : TemplateFault)
  /-- A body cannot be filled. -/
  | execute (fault : TemplateFault)
  /-- A text is not the YAML that is asked for. -/
  | yaml (fault : Yaml.ReadFault)
deriving Repr

namespace Fault

/-- The wording of the fault underneath. -/
def source? : Fault → Option String
  | missingName => none
  | missingImageUrl => none
  | parse fault => some fault.message
  | execute fault => some fault.message
  | yaml fault => some fault.message

/-- The wording of a fault. -/
def message : Fault → String
  | missingName => "name can't be empty"
  | missingImageUrl => "imageURL can't be empty"
  | parse fault => "unable to parse template: " ++ fault.message
  | execute fault => "unable to execute template: " ++ fault.message
  | yaml fault => "invalid rendered YAML: " ++ fault.message

/-- Is a required field missing? -/
def isValidation : Fault → Bool
  | missingName | missingImageUrl => true
  | _ => false

/-- Did the template engine fail? -/
def isTemplate : Fault → Bool
  | parse _ | execute _ => true
  | _ => false

end Fault

end Provisioning
