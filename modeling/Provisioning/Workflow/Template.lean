import Provisioning.Fault
import Provisioning.Template.Engine
import Provisioning.Workflow.Document
import Provisioning.Yaml.Reader

/-!
# The workflow that provisions a machine

Six fields fill the body of one workflow: it writes an image to the disk, creates a
user, sets up the first start and the cloud configuration of the new system, and starts
it. The order of the actions is part of the contract with those who run them.

Values go into the body verbatim, by the template engine. Name and image must not be
empty; beyond that nothing is checked, so a value can spoil the text it goes into.
-/

namespace Provisioning.Workflow

open Provisioning.Template (Engine.render)
open Provisioning.Template.Body (line lineWith)

/-- The fields of the workflow. -/
structure Template where
  /-- The name of the workflow and of its task. -/
  name : String
  /-- Where the new system finds the service for its metadata. -/
  metadataUrl : String
  /-- Where the image is found. -/
  imageUrl : String
  /-- The disk that the image is written to. -/
  destDisk : String
  /-- The partition with the root of the new system. -/
  destPartition : String
  /-- The worker that the task is bound to; if empty, the workflow's own placeholder. -/
  deviceTemplateName : String
deriving DecidableEq, Repr

namespace Template

/-- A template without any field. -/
def blank : Template := ⟨"", "", "", "", "", ""⟩

/-- A template with the two fields it needs. -/
def new (name imageUrl : String) : Template := { blank with name, imageUrl }

/-- The placeholder for the worker that those who run the workflow fill in. -/
def defaultDevice : String := "\x7b\x7b.device_1\x7d\x7d"

/-- How many actions the workflow has. -/
def actionCount : Nat := 8

/-! ## The body -/

/-- What a placeholder of the body stands for. -/
inductive Slot where
  | name
  | metadataUrl
  | imageUrl
  | destDisk
  | destPartition
  | deviceTemplateName
deriving DecidableEq, Repr

/-- The name of a placeholder. -/
def Slot.label : Slot → String
  | name => "name"
  | metadataUrl => "metadata_url"
  | imageUrl => "image_url"
  | destDisk => "dest_disk"
  | destPartition => "dest_partition"
  | deviceTemplateName => "device_template_name"

/-- The body of the workflow. -/
def body : Provisioning.Template.Body Slot := List.flatten [
    line "",
    line "version: \"0.1\"",
    lineWith "name: " Slot.name "",
    line "global_timeout: 6000",
    line "tasks:",
    lineWith "  - name: \"" Slot.name "\"",
    lineWith "    worker: \"" Slot.deviceTemplateName "\"",
    line "    volumes:",
    line "      - /dev:/dev",
    line "      - /dev/console:/dev/console",
    line "      - /lib/firmware:/lib/firmware:ro",
    line "    actions:",
    line "      - name: \"stream-image\"",
    line "        image: quay.io/tinkerbell-actions/image2disk:v1.0.0",
    line "        timeout: 600",
    line "        environment:",
    lineWith "          IMG_URL: " Slot.imageUrl "",
    lineWith "          DEST_DISK: " Slot.destDisk "",
    line "          COMPRESSED: true",
    line "      - name: \"create-user\"",
    line "        image: quay.io/tinkerbell-actions/cexec:v1.0.0",
    line "        timeout: 90",
    line "        environment:",
    lineWith "          BLOCK_DEVICE: " Slot.destPartition "",
    line "          FS_TYPE: ext4",
    line "          CHROOT: y",
    line "          DEFAULT_INTERPRETER: \"/bin/sh -c\"",
    line ("          CMD_LINE: \"useradd -p $(openssl passwd -1 tink) -s /bin/bash " ++
      "-d /home/tink/ -m -G sudo tink\""),
    line "      - name: \"create-init-script\"",
    line "        image: quay.io/tinkerbell-actions/writefile:v1.0.0",
    line "        timeout: 90",
    line "        environment:",
    lineWith "            DEST_DISK: " Slot.destPartition "",
    line "            FS_TYPE: ext4",
    line "            DEST_PATH: /root/cluster-setup.sh",
    line "            UID: 0",
    line "            GID: 0",
    line "            MODE: 0700",
    line "            DIRMODE: 0700",
    line "            CONTENTS: |",
    line "              #!/bin/bash",
    line "              tdnf install -y apparmor-parser apparmor-utils",
    line "              iptables -I INPUT -p tcp --dport 6443 -j ACCEPT",
    line "              rm /root/cluster-setup.sh",
    line "      - name: \"create-init-script-service\"",
    line "        image: quay.io/tinkerbell-actions/writefile:v1.0.0",
    line "        timeout: 90",
    line "        environment:",
    lineWith "            DEST_DISK: " Slot.destPartition "",
    line "            FS_TYPE: ext4",
    line "            DEST_PATH: /usr/local/lib/systemd/system/cluster-setup.service",
    line "            UID: 0",
    line "            GID: 0",
    line "            MODE: 0600",
    line "            DIRMODE: 0600",
    line "            CONTENTS: |",
    line "              [Unit]",
    line "              Before=systemd-user-sessions.service",
    line "              Wants=network-online.target",
    line "              After=network-online.target",
    line "              ConditionPathExists=/root/cluster-setup.sh",
    line "              [Service]",
    line "              Type=oneshot",
    line "              ExecStart=/root/cluster-setup.sh",
    line "              RemainAfterExit=yes",
    line "              [Install]",
    line "              WantedBy=multi-user.target",
    line "      - name: \"enable-init-script\"",
    line "        image: quay.io/tinkerbell-actions/cexec:v1.0.0",
    line "        timeout: 90",
    line "        environment:",
    lineWith "            BLOCK_DEVICE: " Slot.destPartition "",
    line "            FS_TYPE: ext4",
    line "            CHROOT: y",
    line "            DEFAULT_INTERPRETER: \"/bin/sh -c\"",
    line "            CMD_LINE: \"systemctl enable cluster-setup.service\"",
    line "      - name: \"add-tink-cloud-init-config\"",
    line "        image: quay.io/tinkerbell-actions/writefile:v1.0.0",
    line "        timeout: 90",
    line "        environment:",
    lineWith "          DEST_DISK: " Slot.destPartition "",
    line "          FS_TYPE: ext4",
    line "          DEST_PATH: /etc/cloud/cloud.cfg.d/10_tinkerbell.cfg",
    line "          UID: 0",
    line "          GID: 0",
    line "          MODE: 0600",
    line "          DIRMODE: 0700",
    line "          CONTENTS: |",
    line "            datasource:",
    line "              Ec2:",
    lineWith "                metadata_urls: [\"" Slot.metadataUrl "\"]",
    line "                strict_id: false",
    line "            system_info:",
    line "              default_user:",
    line "                name: tink",
    line "                groups: [wheel, adm]",
    line "                sudo: [\"ALL=(ALL) NOPASSWD:ALL\"]",
    line "                shell: /bin/bash",
    line "            manage_etc_hosts: localhost",
    line "            warnings:",
    line "              dsid_missing_source: off",
    line "      - name: \"add-tink-cloud-init-ds-config\"",
    line "        image: quay.io/tinkerbell-actions/writefile:v1.0.0",
    line "        timeout: 90",
    line "        environment:",
    lineWith "          DEST_DISK: " Slot.destPartition "",
    line "          FS_TYPE: ext4",
    line "          DEST_PATH: /etc/cloud/ds-identify.cfg",
    line "          UID: 0",
    line "          GID: 0",
    line "          MODE: 0600",
    line "          DIRMODE: 0700",
    line "          CONTENTS: |",
    line "            datasource: Ec2",
    line "      - name: \"kexec-image\"",
    line "        image: quay.io/tinkerbell-actions/kexec:v1.0.0",
    line "        timeout: 90",
    line "        pid: host",
    line "        environment:",
    lineWith "          BLOCK_DEVICE: " Slot.destPartition "",
    line "          FS_TYPE: ext4",
    line "          KERNEL_PATH: /boot/vmlinuz-5.15.86.1-1.cm2",
    line "          INITRD_PATH: /boot/initrd.img-5.15.86.1-1.cm2",
    lineWith "          CMD_LINE: \"root=" Slot.destPartition " rw\""
  ]

/-- The text of the body with its placeholders. -/
def source : String := String.ofList (body.source Slot.label)

/-! ## Filling the body -/

/-- The worker that the task is bound to in the end. -/
def effectiveDevice (template : Template) : String :=
  if template.deviceTemplateName == "" then defaultDevice else template.deviceTemplateName

/-- What a placeholder stands for. -/
def value (template : Template) : Slot → String
  | .name => template.name
  | .metadataUrl => template.metadataUrl
  | .imageUrl => template.imageUrl
  | .destDisk => template.destDisk
  | .destPartition => template.destPartition
  | .deviceTemplateName => template.effectiveDevice

/-- Are the two needed fields there? The name is looked at first. -/
def validate (template : Template) : Except Fault Unit :=
  if template.name == "" then .error .missingName
  else if template.imageUrl == "" then .error .missingImageUrl
  else .ok ()

/-- The values that the engine is given, with their names. -/
def context (template : Template) : List (String × String) := [
  ("name", template.name),
  ("metadata_url", template.metadataUrl),
  ("image_url", template.imageUrl),
  ("dest_disk", template.destDisk),
  ("dest_partition", template.destPartition),
  ("device_template_name", template.effectiveDevice)]

/-- The text of the workflow. -/
def render (template : Template) : Except Fault String := do
  template.validate
  Engine.render source template.context

/-! ## Reading and writing -/

/-- Reads the text of a workflow. -/
def readDocument (text : String) : Except Fault Document :=
  (Yaml.read Document.read text).mapError .yaml

/-- The workflow, as read from its text. -/
def renderDocument (template : Template) : Except Fault Document := do
  readDocument (← template.render)

/-- How a template is read; any field may be absent. -/
def shape {m : Type → Type} [Source m] : Record m Template where
  name := "WorkflowTemplate"
  blank := blank
  fields := [
    .spare "name" Source.text (fun name template => { template with name }),
    .spare "metadataURL" Source.text (fun metadataUrl template => { template with metadataUrl }),
    .spare "imageURL" Source.text (fun imageUrl template => { template with imageUrl }),
    .spare "destDisk" Source.text (fun destDisk template => { template with destDisk }),
    .spare "destPartition" Source.text
      (fun destPartition template => { template with destPartition }),
    .spare "deviceTemplateName" Source.text
      (fun deviceTemplateName template => { template with deviceTemplateName })]

/-- Reads a template. -/
def read {m : Type → Type} [Source m] : m Template := Source.record shape

/-- The JSON form of a template, with all its fields. -/
def toJson (template : Template) : Json :=
  .object [
    ("name", .string template.name),
    ("metadataURL", .string template.metadataUrl),
    ("imageURL", .string template.imageUrl),
    ("destDisk", .string template.destDisk),
    ("destPartition", .string template.destPartition),
    ("deviceTemplateName", .string template.deviceTemplateName)]

end Template

end Provisioning.Workflow
