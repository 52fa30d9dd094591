import Provisioning.Job.Template
import Provisioning.Json.Reader
import Provisioning.Workflow.Template
import Provisioning.Proofs.Template.Engine
import Provisioning.Proofs.Workflow.Rendering
import Provisioning.Proofs.Json.Scalar
import Provisioning.Proofs.Json.Meaning
import Provisioning.Proofs.Source.Reading
import Provisioning.Proofs.Json.Reading
import Provisioning.Proofs.Json.Members
import Provisioning.Proofs.Json.Format
import Provisioning.Proofs.Value.Parts
import Provisioning.Proofs.Json.Values
import Provisioning.Proofs.Environment
import Provisioning.Proofs.Workflow.JsonForm
import Provisioning.Proofs.Json.Guarantee
import Provisioning.Proofs.Workflow.Values
import Provisioning.Proofs.Workflow.JsonRoundTrip
import Provisioning.Proofs.Yaml.Meaning
import Provisioning.Proofs.Yaml.Reading
import Provisioning.Proofs.Yaml.Building
import Provisioning.Proofs.Yaml.Token.Advance
import Provisioning.Proofs.Yaml.Token.Words
import Provisioning.Proofs.Yaml.WholeText
import Provisioning.Proofs.Yaml.JsonText
import Provisioning.Proofs.Workflow.JsonAsYaml
import Provisioning.Proofs.Yaml.Token.Lines
import Provisioning.Proofs.Yaml.Layout
import Provisioning.Proofs.Yaml.PlainWord
import Provisioning.Proofs.Template.Spelling
import Provisioning.Proofs.Workflow.BodyLayout
import Provisioning.Proofs.Workflow.ReadBack
import Provisioning.Proofs.Template.Recovery
import Provisioning.Proofs.Job.JsonForm
import Provisioning.Proofs.Workflow.TemplateForm
import Provisioning.Proofs.Job.ReadBack
import Provisioning.Proofs.Yaml.Token.Delivery
import Provisioning.Proofs.Yaml.Token.Inline
import Provisioning.Proofs.Yaml.Token.Extent
import Provisioning.Proofs.Yaml.Growth
import Provisioning.Proofs.Yaml.Acceptance
import Provisioning.Proofs.Yaml.Fields
import Provisioning.Proofs.Yaml.MappingStates
import Provisioning.Proofs.Yaml.ValueLine
import Provisioning.Proofs.Workflow.NameLine
import Provisioning.Proofs.Workflow.NameReadBack
import Provisioning.Proofs.Yaml.Guarantee
import Provisioning.Proofs.Workflow.Depth
import Provisioning.Proofs.Job.Presence
import Provisioning.Proofs.Yaml.PlainLine
import Provisioning.Proofs.Yaml.TypedLayout
import Provisioning.Proofs.Workflow.SafeRendering
import Provisioning.Proofs.Workflow.CloudConfig
import Provisioning.Proofs.Workflow.Duration
import Provisioning.Proofs.Json.Skipping
import Provisioning.Proofs.Json.Refusal
import Provisioning.Proofs.Workflow.Configuration
import Provisioning.Proofs.Yaml.Refusal
import Provisioning.Proofs.Workflow.Timeouts
import Provisioning.Proofs.Yaml.IntegerSpelling
import Provisioning.Proofs.Workflow.EnvironmentText
import Provisioning.Proofs.Text.ByteOrder
import Provisioning.Proofs.Workflow.Lookup
import Provisioning.Proofs.Workflow.RepeatedBindings
