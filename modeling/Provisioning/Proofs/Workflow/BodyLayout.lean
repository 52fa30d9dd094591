import Provisioning.Proofs.Template.Spelling
import Provisioning.Proofs.Workflow.JsonForm
import Provisioning.Proofs.Yaml.PlainWord
import Provisioning.Workflow.Template

/-!
# The layout of the workflow

The body of the workflow, once it is filled, is the text of a layout: four members at the left
margin, of which the last has one task with eight actions. The actions share the lines with name,
image and timeout and differ in their environments, and some of these are alike again, so there
is a function for each form that occurs more than once.
-/

namespace Provisioning.Workflow

open Provisioning.Template Provisioning.Template.Body
open Yaml (Layout spaces textOfLines)
open Yaml.Layout (word wordOrNull)

/-! ## The actions -/

/-- An action and the column of its environment. -/
structure Step where
  name : String
  image : String
  seconds : UInt64
  pid : Option String
  column : Nat
  environment : List (String × Layout)

namespace Step

/-- The layout of an action. -/
def layout (step : Step) : Layout :=
  .mapping 8 (("name", .quoted step.name) :: ("image", word step.image) ::
    ("timeout", .plain (String.ofList (Number.decimal step.seconds.toNat))
      (.int step.seconds.toNat)) ::
    (step.pid.toList.map (fun pid => ("pid", word pid)) ++
      [("environment", .mapping step.column step.environment)]))

/-- What the action is read as. -/
def action (step : Step) : Action :=
  ⟨step.name, step.image, some step.seconds, step.pid,
    .ofList (step.environment.map fun binding => (binding.1, binding.2.json.toValue))⟩

/-- Writes an image to the disk. -/
def streamImage (image disk : String) : Step where
  name := "stream-image"
  image := "quay.io/tinkerbell-actions/image2disk:v1.0.0"
  seconds := 600
  pid := none
  column := 10
  environment := [("IMG_URL", word image), ("DEST_DISK", wordOrNull disk),
    ("COMPRESSED", .plain "true" (.bool true))]

/-- Runs a command in the new system. -/
def runCommand (name partition command : String) (column : Nat) : Step where
  name := name
  image := "quay.io/tinkerbell-actions/cexec:v1.0.0"
  seconds := 90
  pid := none
  column := column
  environment := [("BLOCK_DEVICE", wordOrNull partition), ("FS_TYPE", word "ext4"),
    ("CHROOT", word "y"), ("DEFAULT_INTERPRETER", .quoted "/bin/sh -c"),
    ("CMD_LINE", .quoted command)]

/-- Writes a file of the new system. -/
def writeFile (name partition path mode directoryMode : String) (column : Nat)
    (lines : List String) : Step where
  name := name
  image := "quay.io/tinkerbell-actions/writefile:v1.0.0"
  seconds := 90
  pid := none
  column := column
  environment := [("DEST_DISK", wordOrNull partition), ("FS_TYPE", word "ext4"),
    ("DEST_PATH", word path), ("UID", .plain "0" (.int 0)), ("GID", .plain "0" (.int 0)),
    ("MODE", .plain mode (.string mode)),
    ("DIRMODE", .plain directoryMode (.string directoryMode)),
    ("CONTENTS", .literal (column + 2) lines)]

/-- Starts the new system. -/
def startImage (partition : String) : Step where
  name := "kexec-image"
  image := "quay.io/tinkerbell-actions/kexec:v1.0.0"
  seconds := 90
  pid := some "host"
  column := 10
  environment := [("BLOCK_DEVICE", wordOrNull partition), ("FS_TYPE", word "ext4"),
    ("KERNEL_PATH", word "/boot/vmlinuz-5.15.86.1-1.cm2"),
    ("INITRD_PATH", word "/boot/initrd.img-5.15.86.1-1.cm2"),
    ("CMD_LINE", .quoted ("root=" ++ partition ++ " rw"))]

end Step

namespace Template

/-- The lines of the script that sets up the cluster at the first start. -/
def setupScript : List String := [
  "#!/bin/bash",
  "tdnf install -y apparmor-parser apparmor-utils",
  "iptables -I INPUT -p tcp --dport 6443 -j ACCEPT",
  "rm /root/cluster-setup.sh"]

/-- The lines of the service that runs the script. -/
def setupService : List String := [
  "[Unit]",
  "Before=systemd-user-sessions.service",
  "Wants=network-online.target",
  "After=network-online.target",
  "ConditionPathExists=/root/cluster-setup.sh",
  "[Service]",
  "Type=oneshot",
  "ExecStart=/root/cluster-setup.sh",
  "RemainAfterExit=yes",
  "[Install]",
  "WantedBy=multi-user.target"]

/-- The lines of the configuration of the cloud service. -/
def cloudConfig (metadataUrl : String) : List String := [
  "datasource:",
  "  Ec2:",
  "    metadata_urls: [\"" ++ metadataUrl ++ "\"]",
  "    strict_id: false",
  "system_info:",
  "  default_user:",
  "    name: tink",
  "    groups: [wheel, adm]",
  "    sudo: [\"ALL=(ALL) NOPASSWD:ALL\"]",
  "    shell: /bin/bash",
  "manage_etc_hosts: localhost",
  "warnings:",
  "  dsid_missing_source: off"]

/-- The eight actions. -/
def steps (template : Template) : List Step := [
  .streamImage template.imageUrl template.destDisk,
  .runCommand "create-user" template.destPartition
    "useradd -p $(openssl passwd -1 tink) -s /bin/bash -d /home/tink/ -m -G sudo tink" 10,
  .writeFile "create-init-script" template.destPartition "/root/cluster-setup.sh" "0700" "0700"
    12 setupScript,
  .writeFile "create-init-script-service" template.destPartition
    "/usr/local/lib/systemd/system/cluster-setup.service" "0600" "0600" 12 setupService,
  .runCommand "enable-init-script" template.destPartition "systemctl enable cluster-setup.service"
    12,
  .writeFile "add-tink-cloud-init-config" template.destPartition
    "/etc/cloud/cloud.cfg.d/10_tinkerbell.cfg" "0600" "0700" 10 (cloudConfig template.metadataUrl),
  .writeFile "add-tink-cloud-init-ds-config" template.destPartition "/etc/cloud/ds-identify.cfg"
    "0600" "0700" 10 ["datasource: Ec2"],
  .startImage template.destPartition]

/-- The directories that every action sees. -/
def volumes : List String :=
  ["/dev:/dev", "/dev/console:/dev/console", "/lib/firmware:/lib/firmware:ro"]

/-- The layout of the task. -/
def taskLayout (template : Template) : Layout :=
  .mapping 4 [
    ("name", .quoted template.name),
    ("worker", .quoted template.effectiveDevice),
    ("volumes", .sequence 6 (volumes.map word)),
    ("actions", .sequence 6 (template.steps.map Step.layout))]

/-- The members at the left margin. What the name of the workflow means by itself is open. -/
def layoutMembers (template : Template) : List (String × Layout) := [
  ("version", .quoted "0.1"),
  ("name", word template.name),
  ("global_timeout", .plain (String.ofList (Number.decimal 6000)) (.int 6000)),
  ("tasks", .sequence 2 [template.taskLayout])]

/-! ## The text -/

open Provisioning.Yaml.Layout (itemsText membersText text_wordOrNull)

section

/-- A line with a name at a column, its colon and what is behind it. -/
def keyLine (column : Nat) (name : String) (tail : List Char) : String :=
  String.ofList (spaces column ++ (name.toList ++ ':' :: tail))

/-- A line with a dash in front of the name of an action. -/
def dashLine (name : List Char) : String :=
  String.ofList (spaces 6 ++ ['-', ' '] ++ ("name".toList ++ ':' :: ' ' :: '"' :: (name ++ ['"'])))

variable {template : Template} {lines : List (Body Slot)} {rest : List Char} {items : List Layout}
  {nameChars imageChars secondsChars pathChars modeChars directoryModeChars
    commandChars : List Char}
  {name path mode directoryMode command : String}

/-- The lines that all actions begin with. -/
theorem spells_step {step : Step} {seconds : UInt64} {begin : String}
    (hname : step.name = String.ofList nameChars) (hbegin : begin = dashLine nameChars)
    (himage : step.image = String.ofList imageChars)
    (hdecimal : Number.decimal seconds.toNat = secondsChars) (hseconds : step.seconds = seconds)
    (h : Spells template.value lines (membersText (spaces 8) 8
      (step.pid.toList.map (fun pid => ("pid", word pid)) ++
        [("environment", .mapping step.column step.environment)])
      ++ (itemsText (spaces 6) 6 items ++ rest))) :
    Spells template.value
      (line begin ::
        line (keyLine 8 "image" (' ' :: imageChars)) ::
        line (keyLine 8 "timeout" (' ' :: secondsChars)) :: lines)
      (itemsText (spaces 6) 6 (step.layout :: items) ++ rest) := by
  have htimeout : String.ofList (Number.decimal step.seconds.toNat)
      = String.ofList secondsChars := by
    rw [hseconds, hdecimal]
  unfold Step.layout
  refine spells_item ?_
  refine spells_member rfl hbegin (text_quoted hname) ?_
  refine spells_member rfl rfl (text_plain himage) ?_
  refine spells_member rfl rfl (text_plain htimeout) ?_
  exact h

theorem spells_streamImage
    (h : Spells template.value lines (itemsText (spaces 6) 6 items ++ rest)) :
    Spells template.value
      (line "      - name: \"stream-image\"" ::
        line "        image: quay.io/tinkerbell-actions/image2disk:v1.0.0" ::
        line "        timeout: 600" ::
        line "        environment:" ::
        lineWith "          IMG_URL: " Slot.imageUrl "" ::
        lineWith "          DEST_DISK: " Slot.destDisk "" ::
        line "          COMPRESSED: true" :: lines)
      (itemsText (spaces 6) 6
        ((Step.streamImage template.imageUrl template.destDisk).layout :: items) ++ rest) := by
  have hseconds : Number.decimal (600 : UInt64).toNat = ['6', '0', '0'] := by decide
  refine spells_step rfl rfl rfl hseconds rfl ?_
  refine spells_member rfl rfl (text_mapping _) ?_
  refine spells_memberWith rfl rfl rfl rfl ?_
  refine spells_memberWith rfl rfl rfl (text_wordOrNull _) ?_
  refine spells_member rfl rfl (text_plain rfl) ?_
  exact h

/-- The lines of an action that writes a file, up to those of the file. -/
theorem spells_writeFile (column : Nat) {first begin : String} {others : List String}
    (hname : name = String.ofList nameChars) (hbegin : begin = dashLine nameChars)
    (hpath : path = String.ofList pathChars)
    (hmode : mode = String.ofList modeChars)
    (hdirectoryMode : directoryMode = String.ofList directoryModeChars)
    (h : Spells template.value lines (Yaml.indented (column + 2)
      ((first :: others).map String.toList)
      ++ (itemsText (spaces 6) 6 items ++ rest))) :
    Spells template.value
      (line begin ::
        line "        image: quay.io/tinkerbell-actions/writefile:v1.0.0" ::
        line "        timeout: 90" ::
        line "        environment:" ::
        lineWith (keyLine column "DEST_DISK" [' ']) Slot.destPartition "" ::
        line (keyLine column "FS_TYPE" [' ', 'e', 'x', 't', '4']) ::
        line (keyLine column "DEST_PATH" (' ' :: pathChars)) ::
        line (keyLine column "UID" [' ', '0']) ::
        line (keyLine column "GID" [' ', '0']) ::
        line (keyLine column "MODE" (' ' :: modeChars)) ::
        line (keyLine column "DIRMODE" (' ' :: directoryModeChars)) ::
        line (keyLine column "CONTENTS" [' ', '|']) :: lines)
      (itemsText (spaces 6) 6
        ((Step.writeFile name template.destPartition path mode directoryMode column
        (first :: others)).layout :: items) ++ rest) := by
  have hseconds : Number.decimal (90 : UInt64).toNat = ['9', '0'] := by decide
  refine spells_step hname hbegin rfl hseconds rfl ?_
  refine spells_member rfl rfl (text_mapping _) ?_
  refine spells_memberWith rfl rfl rfl (text_wordOrNull _) ?_
  refine spells_member rfl rfl (text_plain rfl) ?_
  refine spells_member rfl rfl (text_plain hpath) ?_
  refine spells_member rfl rfl (text_plain rfl) ?_
  refine spells_member rfl rfl (text_plain rfl) ?_
  refine spells_member rfl rfl (text_plain hmode) ?_
  refine spells_member rfl rfl (text_plain hdirectoryMode) ?_
  refine spells_member rfl rfl (text_literal _) ?_
  exact h

/-- The lines of an action that runs a command. -/
theorem spells_runCommand (column : Nat) {begin last : String}
    (hname : name = String.ofList nameChars) (hbegin : begin = dashLine nameChars)
    (hcommand : command = String.ofList commandChars)
    (hlast : last = keyLine column "CMD_LINE" (' ' :: '"' :: (commandChars ++ ['"'])))
    (h : Spells template.value lines (itemsText (spaces 6) 6 items ++ rest)) :
    Spells template.value
      (line begin ::
        line "        image: quay.io/tinkerbell-actions/cexec:v1.0.0" ::
        line "        timeout: 90" ::
        line "        environment:" ::
        lineWith (keyLine column "BLOCK_DEVICE" [' ']) Slot.destPartition "" ::
        line (keyLine column "FS_TYPE" [' ', 'e', 'x', 't', '4']) ::
        line (keyLine column "CHROOT" [' ', 'y']) ::
        line (keyLine column "DEFAULT_INTERPRETER"
          [' ', '"', '/', 'b', 'i', 'n', '/', 's', 'h', ' ', '-', 'c', '"']) ::
        line last :: lines)
      (itemsText (spaces 6) 6
        ((Step.runCommand name template.destPartition command column).layout :: items)
        ++ rest) := by
  have hseconds : Number.decimal (90 : UInt64).toNat = ['9', '0'] := by decide
  refine spells_step hname hbegin rfl hseconds rfl ?_
  refine spells_member rfl rfl (text_mapping _) ?_
  refine spells_memberWith rfl rfl rfl (text_wordOrNull _) ?_
  refine spells_member rfl rfl (text_plain rfl) ?_
  refine spells_member rfl rfl (text_plain rfl) ?_
  refine spells_member rfl rfl (text_quoted rfl) ?_
  refine spells_member rfl hlast (text_quoted hcommand) ?_
  exact h

/-- The lines of the last action, which has a member of its own. -/
theorem spells_startImage (h : Spells template.value lines (itemsText (spaces 6) 6 items ++ rest)) :
    Spells template.value
      (line "      - name: \"kexec-image\"" ::
        line "        image: quay.io/tinkerbell-actions/kexec:v1.0.0" ::
        line "        timeout: 90" ::
        line "        pid: host" ::
        line "        environment:" ::
        lineWith "          BLOCK_DEVICE: " Slot.destPartition "" ::
        line "          FS_TYPE: ext4" ::
        line "          KERNEL_PATH: /boot/vmlinuz-5.15.86.1-1.cm2" ::
        line "          INITRD_PATH: /boot/initrd.img-5.15.86.1-1.cm2" ::
        lineWith "          CMD_LINE: \"root=" Slot.destPartition " rw\"" :: lines)
      (itemsText (spaces 6) 6 ((Step.startImage template.destPartition).layout :: items)
        ++ rest) := by
  have hcommand : (Layout.quoted ("root=" ++ template.destPartition ++ " rw")).text false
      = (' ' :: '"' :: ['r', 'o', 'o', 't', '=']) ++ ((template.value .destPartition).toList ++
          ([' ', 'r', 'w', '"'] ++ '\n' :: [])) := by
    have hroot : "root=".toList = ['r', 'o', 'o', 't', '='] := rfl
    have hwrite : " rw".toList = [' ', 'r', 'w'] := rfl
    rw [Layout.text, String.toList_append, String.toList_append, hroot, hwrite]
    simp [Template.value]
  have hseconds : Number.decimal (90 : UInt64).toNat = ['9', '0'] := by decide
  refine spells_step rfl rfl rfl hseconds rfl ?_
  refine spells_member rfl rfl (text_plain rfl) ?_
  refine spells_member rfl rfl (text_mapping _) ?_
  refine spells_memberWith rfl rfl rfl (text_wordOrNull _) ?_
  refine spells_member rfl rfl (text_plain rfl) ?_
  refine spells_member rfl rfl (text_plain rfl) ?_
  refine spells_member rfl rfl (text_plain rfl) ?_
  refine spells_memberWith rfl rfl rfl hcommand ?_
  exact h

end

/-- **The body, once it is filled, is the text of the layout** behind an empty line. -/
theorem fill_body (template : Template) :
    body.fill template.value = membersText ['\n'] 0 template.layoutMembers := by
  have hseconds : String.ofList (Number.decimal 6000) = String.ofList ['6', '0', '0', '0'] := by
    decide
  rw [← List.append_nil (membersText _ _ _)]
  unfold body
  show Spells template.value _ ([] ++ '\n' :: (membersText [] 0 template.layoutMembers ++ []))
  -- One step for each line of the body, or for the lines of an action that go together. The column
  -- of a file and of its environment is not the same in all actions.
  refine spells_line rfl ?_
  refine spells_member rfl rfl (text_quoted rfl) ?_
  refine spells_memberWith rfl rfl rfl rfl ?_
  refine spells_member rfl rfl (text_plain hseconds) ?_
  refine spells_member rfl rfl (text_sequence _) ?_
  refine spells_item ?_
  refine spells_memberWith rfl rfl rfl rfl ?_
  refine spells_memberWith rfl rfl rfl rfl ?_
  refine spells_member rfl rfl (text_sequence _) ?_
  refine spells_wordItem rfl rfl ?_
  refine spells_wordItem rfl rfl ?_
  refine spells_wordItem rfl rfl ?_
  refine spells_member rfl rfl (text_sequence _) ?_
  refine spells_streamImage ?_
  refine spells_runCommand 10 rfl rfl rfl rfl ?_
  refine spells_writeFile 12 rfl rfl rfl rfl rfl ?_
  iterate 4 refine spells_indented rfl rfl ?_
  refine spells_writeFile 12 rfl rfl rfl rfl rfl ?_
  iterate 11 refine spells_indented rfl rfl ?_
  refine spells_runCommand 12 rfl rfl rfl rfl ?_
  refine spells_writeFile 10 rfl rfl rfl rfl rfl ?_
  iterate 2 refine spells_indented rfl rfl ?_
  refine spells_indentedWith rfl rfl rfl rfl ?_
  iterate 10 refine spells_indented rfl rfl ?_
  refine spells_writeFile 10 rfl rfl rfl rfl rfl ?_
  refine spells_indented rfl rfl ?_
  refine spells_startImage ?_
  exact spells_nil

end Template

end Provisioning.Workflow
