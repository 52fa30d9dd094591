import Provisioning.Proofs.Workflow.BodyLayout
import Provisioning.Proofs.Workflow.Rendering

/-!
# Rendering a workflow and reading it back

A value goes into the body verbatim, so it comes back only if nothing in it means anything in
YAML where it stands: in a word, in double quotes, or on a line of a literal text. For a template
whose values are safe in this sense, `Template.PlainSafe`, the text is read as exactly the
document that was meant, `Template.document`.
-/

namespace Provisioning.Workflow

open Yaml (Layout Node NodeHead Reader isPlainSafe isPrintable isReserved reservedWords textOfLines)
open Yaml.Layout (word wordOrNull isBare)

/-! ## What is meant -/

/-- What a word stands for that may be left out. -/
def textOrNull (text : String) : Value := if text == "" then .null else .text text

/-- An action in outline: its environment is given by bindings, in the order of the body. -/
structure Outline where
  name : String
  image : String
  timeout : UInt64
  pid : Option String
  bindings : List (String × Value)

namespace Outline

/-- The action that writes the image to the disk. -/
def streamsImage (image disk : String) : Outline :=
  ⟨"stream-image", "quay.io/tinkerbell-actions/image2disk:v1.0.0", 600, none, [
    ("IMG_URL", .text image),
    ("DEST_DISK", textOrNull disk),
    ("COMPRESSED", .bool true)]⟩

/-- An action that runs a command in the new system. -/
def runsCommand (name partition command : String) : Outline :=
  ⟨name, "quay.io/tinkerbell-actions/cexec:v1.0.0", 90, none, [
    ("BLOCK_DEVICE", textOrNull partition),
    ("FS_TYPE", .text "ext4"),
    ("CHROOT", .text "y"),
    ("DEFAULT_INTERPRETER", .text "/bin/sh -c"),
    ("CMD_LINE", .text command)]⟩

/-- An action that writes a file of the new system. -/
def writesFile (name partition path mode directoryMode : String) (lines : List String) : Outline :=
  ⟨name, "quay.io/tinkerbell-actions/writefile:v1.0.0", 90, none, [
    ("DEST_DISK", textOrNull partition),
    ("FS_TYPE", .text "ext4"),
    ("DEST_PATH", .text path),
    ("UID", .int 0),
    ("GID", .int 0),
    ("MODE", .text mode),
    ("DIRMODE", .text directoryMode),
    ("CONTENTS", .text (textOfLines lines))]⟩

/-- The action that starts the new system. -/
def startsImage (partition : String) : Outline :=
  ⟨"kexec-image", "quay.io/tinkerbell-actions/kexec:v1.0.0", 90, some "host", [
    ("BLOCK_DEVICE", textOrNull partition),
    ("FS_TYPE", .text "ext4"),
    ("KERNEL_PATH", .text "/boot/vmlinuz-5.15.86.1-1.cm2"),
    ("INITRD_PATH", .text "/boot/initrd.img-5.15.86.1-1.cm2"),
    ("CMD_LINE", .text ("root=" ++ partition ++ " rw"))]⟩

/-- The action of an outline. -/
def action (outline : Outline) : Action :=
  ⟨outline.name, outline.image, some outline.timeout, outline.pid, .ofList outline.bindings⟩

end Outline

namespace Template

/-- The eight actions of the workflow in outline, in order. -/
def outlines (template : Template) : List Outline := [
  .streamsImage template.imageUrl template.destDisk,
  .runsCommand "create-user" template.destPartition
    "useradd -p $(openssl passwd -1 tink) -s /bin/bash -d /home/tink/ -m -G sudo tink",
  .writesFile "create-init-script" template.destPartition "/root/cluster-setup.sh" "0700" "0700"
    setupScript,
  .writesFile "create-init-script-service" template.destPartition
    "/usr/local/lib/systemd/system/cluster-setup.service" "0600" "0600" setupService,
  .runsCommand "enable-init-script" template.destPartition "systemctl enable cluster-setup.service",
  .writesFile "add-tink-cloud-init-config" template.destPartition
    "/etc/cloud/cloud.cfg.d/10_tinkerbell.cfg" "0600" "0700" (cloudConfig template.metadataUrl),
  .writesFile "add-tink-cloud-init-ds-config" template.destPartition "/etc/cloud/ds-identify.cfg"
    "0600" "0700" ["datasource: Ec2"],
  .startsImage template.destPartition]

/-- The eight actions of the workflow, in order. -/
def actions (template : Template) : List Action := template.outlines.map Outline.action

/-- No action binds a name twice. -/
theorem nodup_bindings (template : Template) :
    ∀ outline ∈ template.outlines, (outline.bindings.map Prod.fst).Nodup := by
  have himage : ["IMG_URL", "DEST_DISK", "COMPRESSED"].Nodup := by decide
  have hcommand :
      ["BLOCK_DEVICE", "FS_TYPE", "CHROOT", "DEFAULT_INTERPRETER", "CMD_LINE"].Nodup := by
    decide
  have hfile :
      ["DEST_DISK", "FS_TYPE", "DEST_PATH", "UID", "GID", "MODE", "DIRMODE", "CONTENTS"].Nodup := by
    decide
  have hstart : ["BLOCK_DEVICE", "FS_TYPE", "KERNEL_PATH", "INITRD_PATH", "CMD_LINE"].Nodup := by
    decide
  unfold outlines
  simp only [List.forall_mem_cons]
  exact ⟨himage, hcommand, hfile, hfile, hcommand, hfile, hfile, hstart, nofun⟩

/-- **The document that a template describes.** -/
def document (template : Template) : Document where
  version := some "0.1"
  name := template.name
  globalTimeout := some 6000
  tasks := [⟨template.name, template.effectiveDevice, volumes, template.actions⟩]

/-- **A template whose values mean nothing in YAML**, each where it stands in the body. -/
structure PlainSafe (template : Template) : Prop where
  name : isPlainSafe template.name.toList = true
  imageUrl : isPlainSafe template.imageUrl.toList = true
  destDisk : template.destDisk = "" ∨ isPlainSafe template.destDisk.toList = true
  destPartition : template.destPartition = "" ∨ isPlainSafe template.destPartition.toList = true
  unreserved : ∀ text ∈ [template.imageUrl, template.destDisk, template.destPartition],
    text ∉ reservedWords
  metadataUrl : ∀ c ∈ template.metadataUrl.toList, isPrintable c = true
  deviceTemplateName : ∀ c ∈ template.deviceTemplateName.toList, isBare c = true

end Template

/-! ## Reading the layout -/

open Yaml.Layout (IsName Proper gives_of_proper gives_word isName_literal proper_word
  proper_wordOrNull proper_literal proper_literalWord proper_literalQuoted proper_natural)

/-- A binding of an environment that can be read at a column. -/
structure Step.Binding (column : Nat) (binding : String × Layout) : Prop where
  name : IsName binding.1
  layout : Proper false column binding.2
  fits : ∀ levels, binding.2.json.Fits levels

/-- An action whose layout can be read but for the bindings of its environment. -/
structure Step.Framed (step : Step) : Prop where
  name : Proper false 8 (.quoted step.name)
  image : Proper false 8 (word step.image)
  seconds : Yaml.isPlainWord (Number.decimal step.seconds.toNat) = true
  pid : ∀ pid ∈ step.pid, Proper false 8 (word pid)
  column : 8 < step.column
  environment : step.environment ≠ []

/-- An action whose layout can be read. -/
structure Step.Readable (step : Step) : Prop extends Step.Framed step where
  bindings : ∀ binding ∈ step.environment, Step.Binding step.column binding

namespace Step

variable {step : Step}

theorem Readable.proper (h : step.Readable) : Proper true 6 step.layout := by
  obtain ⟨first, others, henvironment⟩ := List.exists_cons_of_ne_nil h.environment
  have hbindings := h.bindings
  have hlast : Proper false 8 (.mapping step.column step.environment) := by
    rw [henvironment] at hbindings ⊢
    exact .mapping h.column (by simp) (fun binding hmem => (hbindings binding hmem).name)
      fun binding hmem => (hbindings binding hmem).layout
  have hseconds : step.seconds.toNat < UInt64.size := step.seconds.toNat_lt_size
  have hmembers : ∀ member ∈ ("name", Layout.quoted step.name) :: ("image", word step.image) ::
      ("timeout", .plain (String.ofList (Number.decimal step.seconds.toNat))
        (.int step.seconds.toNat)) ::
      (step.pid.toList.map (fun pid => ("pid", word pid)) ++
        [("environment", .mapping step.column step.environment)]),
      IsName member.1 ∧ Proper false 8 member.2 := by
    refine List.forall_mem_cons.mpr ⟨⟨isName_literal rfl rfl, h.name⟩, ?_⟩
    refine List.forall_mem_cons.mpr ⟨⟨isName_literal rfl rfl, h.image⟩, ?_⟩
    refine List.forall_mem_cons.mpr ⟨⟨isName_literal rfl rfl, proper_natural h.seconds hseconds⟩,
      ?_⟩
    refine List.forall_mem_append.mpr ⟨fun member hmem => ?_, ?_⟩
    · obtain ⟨pid, hpid, rfl⟩ := List.mem_map.mp hmem
      exact ⟨isName_literal rfl rfl, h.pid pid (Option.mem_toList.mp hpid)⟩
    · exact List.forall_mem_singleton.mpr ⟨isName_literal rfl rfl, hlast⟩
  exact .mapping (by decide) (fun _ => rfl) (fun member hmem => (hmembers member hmem).1)
    fun member hmem => (hmembers member hmem).2

/-- **The layout of an action is read as the action.** -/
theorem Readable.reads {m : Type → Type} [Source m] (format : JsonReading m) {levels : Nat}
    (h : step.Readable) : format.Reads (levels + 2) Action.read step.layout.json step.action := by
  have hbindings : List.Forall₂ (fun (member : String × Json) (binding : String × Value) =>
      member.1 = binding.1 ∧ member.2.toValue = binding.2 ∧ member.2.Fits levels)
      (Layout.membersJson step.environment)
      (step.environment.map fun binding => (binding.1, binding.2.json.toValue)) := by
    rw [Layout.membersJson_eq_map, List.forall₂_map_left_iff, List.forall₂_map_right_iff,
      List.forall₂_same]
    exact fun binding hmem => ⟨rfl, rfl, (h.bindings binding hmem).fits levels⟩
  have hjson : step.layout.json
      = .ofMembers (Action.members step.name step.image (some step.seconds) step.pid
      (Layout.membersJson step.environment)) := by
    -- An environment without bindings would have been left out.
    obtain ⟨first, others, henvironment⟩ := List.exists_cons_of_ne_nil h.environment
    obtain ⟨name, image, seconds, pid, column, environment⟩ := step
    cases henvironment
    cases pid <;> rfl
  rw [hjson]
  exact Action.reads_members format hbindings

/-! ### Bindings -/

variable {column : Nat} {name text : String} {layout : Layout}

/-- Words and texts in quotes or on lines of their own. -/
theorem binding_text (hname : IsName name) (hlayout : Proper false column layout)
    (hjson : layout.json = .string text) : Binding column (name, layout) := by
  refine ⟨hname, hlayout, fun levels => ?_⟩
  show layout.json.Fits levels
  rw [hjson]
  exact .string

theorem binding_wordOrNull (hname : IsName name) (htext : Proper false column (wordOrNull text)) :
    Binding column (name, wordOrNull text) := by
  refine ⟨hname, htext, fun levels => ?_⟩
  show (wordOrNull text).json.Fits levels
  unfold wordOrNull
  by_cases hempty : text = ""
  · rw [if_pos (by simp [hempty])]
    exact .null
  · rw [if_neg (by simp [hempty])]
    exact .string

theorem binding_zero (hname : IsName name) : Binding column (name, .plain "0" (.int 0)) := by
  have hzero : Number.signedDecimal 0 = ['0'] := by decide
  have hmeans : Yaml.Layout.WordMeans ['0'] (.int 0) := by
    intro head htag
    rw [← hzero]
    exact Node.means_integer (by decide) (by decide) htag
  exact ⟨hname, proper_literal rfl rfl hmeans, fun _ => .int (by decide) (by decide)⟩

/-- The mode of a file is a text, because a number has no zeros in front. -/
theorem binding_mode (hname : IsName name) (hmode : text = "0700" ∨ text = "0600") :
    Binding column (name, .plain text (.string text)) := by
  have hlayout : Proper false column (.plain text (.string text)) := by
    rcases hmode with rfl | rfl
    · have hstring : Yaml.Meaning.ofPlain ['0', '7', '0', '0'] = .string := by decide
      exact proper_literal rfl rfl fun head htag => .string htag fun _ => hstring
    · have hstring : Yaml.Meaning.ofPlain ['0', '6', '0', '0'] = .string := by decide
      exact proper_literal rfl rfl fun head htag => .string htag fun _ => hstring
  exact binding_text hname hlayout rfl

/-! ### The actions -/

variable {partition command path mode directoryMode first : String} {firstChars : List Char}
  {c : Char} {others : List String}

theorem framed_streamImage (image disk : String) : (streamImage image disk).Framed where
  name := proper_literalQuoted rfl rfl
  image := proper_literalWord rfl rfl
  seconds := by
    have hdigits : Yaml.isPlainWord (Number.decimal (600 : UInt64).toNat) = true := by decide
    exact hdigits
  pid := by simp [streamImage]
  column := by show 8 < 10; omega
  environment := List.cons_ne_nil _ _

theorem binding_true (hname : IsName name) : Binding column (name, .plain "true" (.bool true)) :=
  ⟨hname, proper_literal rfl rfl fun _ htag => .bool htag Yaml.Meaning.ofPlain_true, fun _ => .bool⟩

theorem readable_streamImage {image disk : String} (himage : Proper false 10 (word image))
    (hdisk : Proper false 10 (wordOrNull disk)) : (streamImage image disk).Readable where
  toFramed := framed_streamImage image disk
  bindings := by
    refine List.forall_mem_cons.mpr ⟨binding_text (isName_literal rfl rfl) himage rfl, ?_⟩
    refine List.forall_mem_cons.mpr ⟨binding_wordOrNull (isName_literal rfl rfl) hdisk, ?_⟩
    exact List.forall_mem_singleton.mpr (binding_true (isName_literal rfl rfl))

/-- The digits of the time that the other actions have. -/
theorem isPlainWord_ninety : Yaml.isPlainWord (Number.decimal (90 : UInt64).toNat) = true := by
  decide

theorem framed_runCommand (hcolumn : 8 < column) (hname : Proper false 8 (.quoted name)) :
    (runCommand name partition command column).Framed where
  name := hname
  image := proper_literalWord rfl rfl
  seconds := isPlainWord_ninety
  pid := by simp [runCommand]
  column := hcolumn
  environment := List.cons_ne_nil _ _

/-- Behind the partition the bindings of a command can always be read. -/
theorem fixed_runCommand (name partition : String)
    (hcommand : Proper false column (.quoted command)) :
    ∀ binding ∈ (runCommand name partition command column).environment.tail,
      Binding column binding := by
  refine List.forall_mem_cons.mpr ⟨binding_text (isName_literal rfl rfl)
    (proper_literalWord rfl rfl) rfl, ?_⟩
  refine List.forall_mem_cons.mpr ⟨binding_text (isName_literal rfl rfl)
    (proper_literalWord rfl rfl) rfl, ?_⟩
  refine List.forall_mem_cons.mpr ⟨binding_text (isName_literal rfl rfl)
    (proper_literalQuoted rfl rfl) rfl, ?_⟩
  exact List.forall_mem_singleton.mpr (binding_text (isName_literal rfl rfl) hcommand rfl)

theorem readable_runCommand (hcolumn : 8 < column) (hname : Proper false 8 (.quoted name))
    (hpartition : Proper false column (wordOrNull partition))
    (hcommand : Proper false column (.quoted command)) :
    (runCommand name partition command column).Readable where
  toFramed := framed_runCommand hcolumn hname
  bindings := List.forall_mem_cons.mpr
    ⟨binding_wordOrNull (isName_literal rfl rfl) hpartition,
      fixed_runCommand name partition hcommand⟩

theorem framed_writeFile (lines : List String) (hcolumn : 8 < column)
    (hname : Proper false 8 (.quoted name)) :
    (writeFile name partition path mode directoryMode column lines).Framed where
  name := hname
  image := proper_literalWord rfl rfl
  seconds := isPlainWord_ninety
  pid := by simp [writeFile]
  column := hcolumn
  environment := List.cons_ne_nil _ _

/-- Behind the partition the bindings of a file can be read if its lines can. -/
theorem fixed_writeFile (name partition : String) (hpath : Proper false column (word path))
    (hmode : mode = "0700" ∨ mode = "0600")
    (hdirectoryMode : directoryMode = "0700" ∨ directoryMode = "0600")
    (hfirst : first = String.ofList (c :: firstChars)) (hblank : Yaml.isBlank c = false)
    (hlines : ∀ line ∈ first :: others, Yaml.Layout.IsTextLine line) :
    ∀ binding ∈ (writeFile name partition path mode directoryMode column
      (first :: others)).environment.tail, Binding column binding := by
  have hhead : ∀ d, first.toList.head? = some d → Yaml.isBlank d = false := by
    rw [hfirst, String.toList_ofList]
    intro d hd
    cases hd
    exact hblank
  have hcontents : Proper false column (.literal (column + 2) (first :: others)) :=
    .literal (by omega) hhead hlines
  refine List.forall_mem_cons.mpr ⟨binding_text (isName_literal rfl rfl)
    (proper_literalWord rfl rfl) rfl, ?_⟩
  refine List.forall_mem_cons.mpr ⟨binding_text (isName_literal rfl rfl) hpath rfl, ?_⟩
  refine List.forall_mem_cons.mpr ⟨binding_zero (isName_literal rfl rfl), ?_⟩
  refine List.forall_mem_cons.mpr ⟨binding_zero (isName_literal rfl rfl), ?_⟩
  refine List.forall_mem_cons.mpr ⟨binding_mode (isName_literal rfl rfl) hmode, ?_⟩
  refine List.forall_mem_cons.mpr ⟨binding_mode (isName_literal rfl rfl) hdirectoryMode, ?_⟩
  exact List.forall_mem_singleton.mpr (binding_text (isName_literal rfl rfl) hcontents rfl)

theorem readable_writeFile (hcolumn : 8 < column) (hname : Proper false 8 (.quoted name))
    (hpartition : Proper false column (wordOrNull partition))
    (hpath : Proper false column (word path))
    (hmode : mode = "0700" ∨ mode = "0600")
    (hdirectoryMode : directoryMode = "0700" ∨ directoryMode = "0600")
    (hfirst : first = String.ofList (c :: firstChars)) (hblank : Yaml.isBlank c = false)
    (hlines : ∀ line ∈ first :: others, Yaml.Layout.IsTextLine line) :
    (writeFile name partition path mode directoryMode column (first :: others)).Readable where
  toFramed := framed_writeFile _ hcolumn hname
  bindings := List.forall_mem_cons.mpr ⟨binding_wordOrNull (isName_literal rfl rfl) hpartition,
    fixed_writeFile name partition hpath hmode hdirectoryMode hfirst hblank hlines⟩

theorem framed_startImage (partition : String) : (startImage partition).Framed where
  name := proper_literalQuoted rfl rfl
  image := proper_literalWord rfl rfl
  seconds := isPlainWord_ninety
  pid := by
    intro pid hpid
    cases Option.mem_some.mp hpid
    exact proper_literalWord rfl rfl
  column := by show 8 < 10; omega
  environment := List.cons_ne_nil _ _

/-- Between the partition and the command there are only words. -/
theorem fixed_startImage (partition : String) :
    ∀ binding ∈ (startImage partition).environment.tail.dropLast, Binding 10 binding := by
  refine List.forall_mem_cons.mpr ⟨binding_text (isName_literal rfl rfl)
    (proper_literalWord rfl rfl) rfl, ?_⟩
  refine List.forall_mem_cons.mpr ⟨binding_text (isName_literal rfl rfl)
    (proper_literalWord rfl rfl) rfl, ?_⟩
  exact List.forall_mem_singleton.mpr (binding_text (isName_literal rfl rfl)
    (proper_literalWord rfl rfl) rfl)

/-- What is said of the partition, of the command and of what is between them is said of all
bindings. -/
theorem forall_startImage {holds : String × Layout → Prop}
    (hpartition : holds ("BLOCK_DEVICE", wordOrNull partition))
    (hfixed : ∀ binding ∈ (startImage partition).environment.tail.dropLast, holds binding)
    (hcommand : holds ("CMD_LINE", .quoted ("root=" ++ partition ++ " rw"))) :
    ∀ binding ∈ (startImage partition).environment, holds binding := by
  have hsplit : (startImage partition).environment = ("BLOCK_DEVICE", wordOrNull partition) ::
      ((startImage partition).environment.tail.dropLast ++
        [("CMD_LINE", Layout.quoted ("root=" ++ partition ++ " rw"))]) := rfl
  rw [hsplit]
  exact List.forall_mem_cons.mpr
    ⟨hpartition, List.forall_mem_append.mpr ⟨hfixed, List.forall_mem_singleton.mpr hcommand⟩⟩

/-- What holds of the characters of a partition holds of those of the command with it. -/
theorem forall_command {holds : Char → Prop} (hroot : ∀ c ∈ ['r', 'o', 'o', 't', '='], holds c)
    (hpartition : ∀ c ∈ partition.toList, holds c) (hwrite : ∀ c ∈ [' ', 'r', 'w'], holds c) :
    ∀ c ∈ ("root=" ++ partition ++ " rw").toList, holds c := by
  rw [String.toList_append, String.toList_append]
  exact List.forall_mem_append.mpr ⟨List.forall_mem_append.mpr ⟨hroot, hpartition⟩, hwrite⟩

theorem readable_startImage (hpartition : Proper false 10 (wordOrNull partition))
    (hbare : ∀ c ∈ partition.toList, isBare c = true) : (startImage partition).Readable where
  toFramed := framed_startImage partition
  bindings := by
    have hcommand : ∀ c ∈ ("root=" ++ partition ++ " rw").toList, isBare c = true :=
      forall_command (List.all_eq_true.mp rfl) hbare (List.all_eq_true.mp rfl)
    exact forall_startImage (binding_wordOrNull (isName_literal rfl rfl) hpartition)
      (fixed_startImage partition) (binding_text (isName_literal rfl rfl) (.quoted hcommand) rfl)

end Step

namespace Template

variable {template : Template}

open Yaml.Layout (IsTextLine isTextLine_literal isTextLine_of_printable)

/-! ### The lines of the files -/

theorem isTextLine_setupScript : ∀ line ∈ setupScript, IsTextLine line := by
  unfold setupScript
  iterate 3 refine List.forall_mem_cons.mpr ⟨isTextLine_literal rfl rfl, ?_⟩
  exact List.forall_mem_singleton.mpr (isTextLine_literal rfl rfl)

theorem isTextLine_setupService : ∀ line ∈ setupService, IsTextLine line := by
  unfold setupService
  iterate 10 refine List.forall_mem_cons.mpr ⟨isTextLine_literal rfl rfl, ?_⟩
  exact List.forall_mem_singleton.mpr (isTextLine_literal rfl rfl)

theorem isTextLine_cloudConfig {metadataUrl : String}
    (h : ∀ c ∈ metadataUrl.toList, Yaml.isBreak c = false ∧ Yaml.isClean c = true) :
    ∀ line ∈ cloudConfig metadataUrl, IsTextLine line := by
  have hprinted : ∀ {text : List Char}, text.all isPrintable = true →
      ∀ c ∈ text, Yaml.isBreak c = false ∧ Yaml.isClean c = true := by
    intro text htext c hc
    have hc := List.all_eq_true.mp htext c hc
    exact ⟨Yaml.not_isBreak_of_isPrintable hc, Yaml.isClean_of_isPrintable hc⟩
  have hopen : "    metadata_urls: [\"".toList.all isPrintable = true := by decide
  have hclose : "\"]".toList.all isPrintable = true := by decide
  have hline : IsTextLine ("    metadata_urls: [\"" ++ metadataUrl ++ "\"]") := by
    have hall : ∀ c ∈ ("    metadata_urls: [\"" ++ metadataUrl ++ "\"]").toList,
        Yaml.isBreak c = false ∧ Yaml.isClean c = true := by
      rw [String.toList_append, String.toList_append]
      exact List.forall_mem_append.mpr ⟨List.forall_mem_append.mpr ⟨hprinted hopen, h⟩,
        hprinted hclose⟩
    exact ⟨⟨by simp, fun c hc => (hall c hc).1⟩, fun c hc => (hall c hc).2⟩
  unfold cloudConfig
  iterate 2 refine List.forall_mem_cons.mpr ⟨isTextLine_literal rfl rfl, ?_⟩
  refine List.forall_mem_cons.mpr ⟨hline, ?_⟩
  iterate 9 refine List.forall_mem_cons.mpr ⟨isTextLine_literal rfl rfl, ?_⟩
  exact List.forall_mem_singleton.mpr (isTextLine_literal rfl rfl)

/-- **All actions of a safe template can be read.** -/
theorem PlainSafe.readable (h : template.PlainSafe) : ∀ step ∈ template.steps, step.Readable := by
  obtain ⟨himageReserved, hdiskReserved, hreserved⟩ : isReserved template.imageUrl.toList = false ∧
      isReserved template.destDisk.toList = false ∧
        isReserved template.destPartition.toList = false := by
    have hunreserved := h.unreserved
    simp only [List.forall_mem_cons] at hunreserved
    exact ⟨Yaml.not_isReserved hunreserved.1, Yaml.not_isReserved hunreserved.2.1,
      Yaml.not_isReserved hunreserved.2.2.1⟩
  have himage : Proper false 10 (word template.imageUrl) := proper_word h.imageUrl himageReserved
  have hdisk : Proper false 10 (wordOrNull template.destDisk) :=
    proper_wordOrNull h.destDisk hdiskReserved
  have hpartition : ∀ column, Proper false column (wordOrNull template.destPartition) :=
    fun _ => proper_wordOrNull h.destPartition hreserved
  -- The last action has the partition inside of a text as well, where it needs less.
  have hbare : ∀ c ∈ template.destPartition.toList, isBare c = true := by
    rcases h.destPartition with hempty | hsafe
    · intro c hc
      rw [hempty] at hc
      exact absurd hc (by simp)
    · exact Yaml.isBare_of_safe hsafe
  have hidentify : ∀ line ∈ ["datasource: Ec2"], IsTextLine line :=
    List.forall_mem_singleton.mpr (isTextLine_literal rfl rfl)
  refine List.forall_mem_cons.mpr ⟨Step.readable_streamImage himage hdisk, ?_⟩
  refine List.forall_mem_cons.mpr ⟨Step.readable_runCommand (by omega)
    (proper_literalQuoted rfl rfl) (hpartition 10) (proper_literalQuoted rfl rfl), ?_⟩
  refine List.forall_mem_cons.mpr ⟨Step.readable_writeFile (by omega) (proper_literalQuoted rfl rfl)
    (hpartition 12) (proper_literalWord rfl rfl) (.inl rfl)
      (.inl rfl) rfl rfl isTextLine_setupScript, ?_⟩
  refine List.forall_mem_cons.mpr ⟨Step.readable_writeFile (by omega) (proper_literalQuoted rfl rfl)
    (hpartition 12) (proper_literalWord rfl rfl) (.inr rfl)
      (.inr rfl) rfl rfl isTextLine_setupService, ?_⟩
  refine List.forall_mem_cons.mpr ⟨Step.readable_runCommand (by omega)
    (proper_literalQuoted rfl rfl) (hpartition 12) (proper_literalQuoted rfl rfl), ?_⟩
  refine List.forall_mem_cons.mpr ⟨Step.readable_writeFile (by omega) (proper_literalQuoted rfl rfl)
    (hpartition 10) (proper_literalWord rfl rfl) (.inr rfl) (.inl rfl) rfl rfl
    (isTextLine_cloudConfig fun c hc => ⟨Yaml.not_isBreak_of_isPrintable (h.metadataUrl c hc),
      Yaml.isClean_of_isPrintable (h.metadataUrl c hc)⟩), ?_⟩
  refine List.forall_mem_cons.mpr ⟨Step.readable_writeFile (by omega) (proper_literalQuoted rfl rfl)
    (hpartition 10) (proper_literalWord rfl rfl) (.inr rfl) (.inl rfl) rfl rfl hidentify, ?_⟩
  exact List.forall_mem_singleton.mpr (Step.readable_startImage (hpartition 10) hbare)

/-- What the actions are read as is what they mean. -/
theorem actions_eq (template : Template) : template.steps.map Step.action = template.actions := by
  have hmeans : ∀ text : String, (wordOrNull text).json.toValue = textOrNull text := by
    intro text
    unfold wordOrNull textOrNull
    by_cases hempty : text = ""
    · rw [if_pos (by simp [hempty]), if_pos (by simp [hempty])]
      rfl
    · rw [if_neg (by simp [hempty]), if_neg (by simp [hempty])]
      rfl
  unfold actions outlines Outline.streamsImage Outline.runsCommand Outline.writesFile
    Outline.startsImage
  rw [← hmeans, ← hmeans]
  rfl

/-! ## The task -/

/-- What holds of the characters of a device and of those of the placeholder holds of the device
in the end. -/
theorem forall_effectiveDevice {holds : Char → Prop}
    (hdefault : ∀ c ∈ defaultDevice.toList, holds c)
    (h : ∀ c ∈ template.deviceTemplateName.toList, holds c) :
    ∀ c ∈ template.effectiveDevice.toList, holds c := by
  unfold effectiveDevice
  by_cases hempty : template.deviceTemplateName = ""
  · rw [if_pos (by simp [hempty])]
    exact hdefault
  · rw [if_neg (by simp [hempty])]
    exact h

theorem isBare_effectiveDevice (h : ∀ c ∈ template.deviceTemplateName.toList, isBare c = true) :
    ∀ c ∈ template.effectiveDevice.toList, isBare c = true :=
  forall_effectiveDevice (List.all_eq_true.mp (by decide)) h

theorem PlainSafe.device (h : template.PlainSafe) :
    ∀ c ∈ template.effectiveDevice.toList, isBare c = true :=
  isBare_effectiveDevice h.deviceTemplateName

theorem proper_volumes : ∀ volume ∈ volumes, Proper true 6 (word volume) := by
  refine List.forall_mem_cons.mpr ⟨proper_literalWord rfl rfl, ?_⟩
  refine List.forall_mem_cons.mpr ⟨proper_literalWord rfl rfl, ?_⟩
  exact List.forall_mem_singleton.mpr (proper_literalWord rfl rfl)

/-- A task whose texts in quotes are bare and whose actions can be read. -/
theorem proper_task (hname : ∀ c ∈ template.name.toList, isBare c = true)
    (hdevice : ∀ c ∈ template.effectiveDevice.toList, isBare c = true)
    (hsteps : ∀ step ∈ template.steps, step.Readable) : Proper true 2 template.taskLayout := by
  have hvolumes : Proper false 4 (.sequence 6 (volumes.map word)) :=
    .sequence (by omega) (List.forall_mem_map.mpr proper_volumes)
  have hlayouts : ∀ layout ∈ template.steps.map Step.layout, Proper true 6 layout := by
    intro layout hmem
    obtain ⟨step, hstep, rfl⟩ := List.mem_map.mp hmem
    exact (hsteps step hstep).proper
  have hactions : Proper false 4 (.sequence 6 (template.steps.map Step.layout)) :=
    .sequence (by omega) hlayouts
  have hmembers : ∀ member ∈ [("name", Layout.quoted template.name),
      ("worker", .quoted template.effectiveDevice), ("volumes", .sequence 6 (volumes.map word)),
      ("actions", .sequence 6 (template.steps.map Step.layout))],
      IsName member.1 ∧ Proper false 4 member.2 := by
    refine List.forall_mem_cons.mpr ⟨⟨isName_literal rfl rfl, .quoted hname⟩, ?_⟩
    refine List.forall_mem_cons.mpr ⟨⟨isName_literal rfl rfl, .quoted hdevice⟩, ?_⟩
    refine List.forall_mem_cons.mpr ⟨⟨isName_literal rfl rfl, hvolumes⟩, ?_⟩
    exact List.forall_mem_singleton.mpr ⟨isName_literal rfl rfl, hactions⟩
  exact .mapping (by omega) (fun _ => rfl) (fun member hmem => (hmembers member hmem).1)
    fun member hmem => (hmembers member hmem).2

theorem PlainSafe.properTask (h : template.PlainSafe) : Proper true 2 template.taskLayout :=
  proper_task (Yaml.isBare_of_safe h.name) h.device h.readable

theorem reads_task {m : Type → Type} [Source m] (format : JsonReading m) {levels : Nat}
    (hsteps : ∀ step ∈ template.steps, step.Readable) :
      format.Reads (levels + 4) Task.read template.taskLayout.json
      ⟨template.name, template.effectiveDevice, volumes, template.actions⟩ := by
  have hforms : List.Forall₂ (format.Reads (levels + 2) Action.read)
      (template.steps.map fun step => step.layout.json) template.actions := by
    rw [← actions_eq, List.forall₂_map_left_iff, List.forall₂_map_right_iff, List.forall₂_same]
    exact fun step hstep => (hsteps step hstep).reads format
  have hjson : template.taskLayout.json
      = .ofMembers (Task.members template.name template.effectiveDevice volumes
      (template.steps.map fun step => step.layout.json)) := by
    show Json.object [("name", .string template.name), ("worker", .string template.effectiveDevice),
      ("volumes", .array (Layout.itemsJson (volumes.map word))),
      ("actions", .array (Layout.itemsJson (template.steps.map Step.layout)))] = _
    rw [Layout.itemsJson_eq_map, Layout.itemsJson_eq_map, List.map_map, List.map_map]
    rfl
  rw [hjson]
  exact Task.reads_members format hforms

/-! ## The document -/

/-- The members of the document, with a layout for the name. -/
def membersNamed (layout task : Layout) : List (String × Layout) := [
  ("version", .quoted "0.1"),
  ("name", layout),
  ("global_timeout", .plain (String.ofList (Number.decimal 6000)) (.int 6000)),
  ("tasks", .sequence 2 [task])]

/-- What is known of the node of a member: that it means what it is laid out as, except for the
name, which is read as a text even if it means something else by itself. -/
def IsMember (name : String) (member : String × Layout) (node : Node) : Prop :=
  if member.1 = "name" then Reader.Takes 127 Source.text node name else node.Means member.2.json

/-- A word is read as a text, whatever it means by itself. -/
theorem gives_text {chars : List Char} {layout : Layout}
    (h : layout.Gives 0 fun node => ∃ head : NodeHead, head.tag = none ∧
      node = .scalar head chars .plain) :
    layout.Gives 0 fun node => Reader.Takes 127 Source.text node (String.ofList chars) := by
  refine h.imp ?_
  rintro _ ⟨head, -, rfl⟩
  exact Reader.takes_textAs _ _ _ _ _

/-- The members give their nodes if the name and the task do. -/
theorem gives_members {name : String} {layout task : Layout}
    (hlayout : layout.Gives 0 fun node => Reader.Takes 127 Source.text node name)
    (htask : Proper true 2 task) :
    ∀ member ∈ membersNamed layout task, member.2.Gives 0 (IsMember name member) := by
  have hproper : ∀ member : String × Layout, member.1 ≠ "name" → Proper false 0 member.2 →
      member.2.Gives 0 (IsMember name member) := by
    intro member hname hlayout
    refine (gives_of_proper hlayout).imp fun node hmeans => ?_
    unfold IsMember
    rw [if_neg hname]
    exact hmeans
  have hother : "tasks" ≠ "name" := by decide
  have htimeout : Yaml.isPlainWord (Number.decimal 6000) = true := by decide
  have htasks : Proper false 0 (.sequence 2 [task]) :=
    .sequence (by omega) (List.forall_mem_singleton.mpr htask)
  refine List.forall_mem_cons.mpr ⟨hproper _ (by decide) (proper_literalQuoted rfl rfl), ?_⟩
  refine List.forall_mem_cons.mpr ⟨hlayout, ?_⟩
  refine List.forall_mem_cons.mpr ⟨hproper _ (by decide) (proper_natural htimeout (by decide)), ?_⟩
  exact List.forall_mem_singleton.mpr (hproper _ hother htasks)

theorem PlainSafe.gives (h : template.PlainSafe) :
    ∀ member ∈ template.layoutMembers, member.2.Gives 0 (IsMember template.name member) := by
  have hword := Yaml.isWord_of_plain (Yaml.isPlainWord_of_safe h.name)
  have htakes : (word template.name).Gives 0 fun node =>
      Reader.Takes 127 Source.text node (String.ofList template.name.toList) :=
        gives_text (gives_word hword.lineWord hword.clean)
  rw [String.ofList_toList] at htakes
  exact gives_members htakes h.properTask

/-- **A document is read from the nodes of its members**, if its task is read. -/
theorem takes_members {name : String} {layout taskLayout : Layout} {task : Task} {head : NodeHead}
    {parts : List Node} {named : List (String × Node)}
    (htask : Reader.yamlReading.Reads 126 Task.read taskLayout.json task)
    (hlabels : Node.Labels parts named)
    (hnamed : List.Forall₂ (fun member named => member.1 = named.1 ∧ IsMember name member named.2)
      (membersNamed layout taskLayout) named) :
    Reader.Takes Yaml.depthLimit Document.read (.mapping head parts true)
      ⟨some "0.1", name, some 6000, [task]⟩ := by
  obtain ⟨⟨_, version⟩, _, ⟨rfl, hversion⟩, hbehind, rfl⟩ := List.forall₂_cons_left_iff.mp hnamed
  obtain ⟨⟨_, value⟩, _, ⟨rfl, hname⟩, hlater, rfl⟩ := List.forall₂_cons_left_iff.mp hbehind
  obtain ⟨⟨_, timeout⟩, _, ⟨rfl, htimeout⟩, hlast, rfl⟩ := List.forall₂_cons_left_iff.mp hlater
  obtain ⟨⟨_, tasks⟩, _, ⟨rfl, htasks⟩, hend, rfl⟩ := List.forall₂_cons_left_iff.mp hlast
  cases List.forall₂_nil_left_iff.mp hend
  -- All members but the name mean documents, and what is read from these is known for any format.
  let format := Reader.yamlReading
  have hreadVersion : format.Reads 127 (Source.optional Source.text) (.string "0.1") (some "0.1") :=
    format.optional rfl (format.text _)
  have hreadTimeout : format.Reads 127 (Source.optional Source.natural) (.int 6000) (some 6000) :=
    format.optional rfl (format.natural 6000)
  have hreadTasks : format.Reads 127 (Source.list Task.read) (.array [taskLayout.json]) [task] :=
    format.list (.cons htask .nil)
  have hfills : Document.shape.Fills (Reader.Takes 127) Document.blank
      [("version", version), ("name", value), ("global_timeout", timeout), ("tasks", tasks)]
      ⟨some "0.1", name, some 6000, [task]⟩ := by
    refine .cons rfl (Reader.takes_map _ (hreadVersion version hversion)) ?_
    refine .cons rfl (Reader.takes_map _ hname) ?_
    refine .cons rfl (Reader.takes_map _ (hreadTimeout timeout htimeout)) ?_
    refine .cons rfl (Reader.takes_map _ (hreadTasks tasks htasks)) ?_
    exact .nil
  have hnodup : ["version", "name", "global_timeout", "tasks"].Nodup := by decide
  refine Reader.takes_record hlabels hfills hnodup fun field hfield hrequired => ?_
  simp [Document.shape, Field.needed, Field.spare] at hfield
  rcases hfield with rfl | rfl | rfl | rfl
  · exact absurd hrequired Bool.false_ne_true
  · exact List.mem_cons_of_mem _ List.mem_cons_self
  all_goals exact absurd hrequired Bool.false_ne_true

theorem PlainSafe.takes (h : template.PlainSafe) {head : NodeHead} {parts : List Node}
    {named : List (String × Node)} (hlabels : Node.Labels parts named)
    (hnamed : List.Forall₂ (fun member named => member.1 = named.1 ∧
      IsMember template.name member named.2) template.layoutMembers named) :
    Reader.Takes Yaml.depthLimit Document.read (.mapping head parts true) template.document :=
  takes_members (reads_task Reader.yamlReading h.readable) hlabels hnamed

/-- The environments of the document hold, by name, what the outlines say. -/
theorem holds_bindings (template : Template) :
    List.Forall₂ (fun outline action => action.environment.Holds outline.bindings)
      template.outlines template.document.actions := by
  have hactions : template.document.actions = template.outlines.map Outline.action :=
    List.append_nil _
  rw [hactions, List.forall₂_map_right_iff, List.forall₂_same]
  exact fun outline hmem => Environment.holds_ofList (nodup_bindings template outline hmem)

theorem PlainSafe.validate_eq (h : template.PlainSafe) : template.validate = .ok () :=
  validate_eq_ok_iff.mpr ⟨Yaml.ne_empty_of_safe h.name, Yaml.ne_empty_of_safe h.imageUrl⟩

theorem PlainSafe.renderDocument_eq (h : template.PlainSafe) :
    template.renderDocument = .ok template.document := by
  have hnames : ∀ member ∈ template.layoutMembers, IsName member.1 := by
    iterate 3 refine List.forall_mem_cons.mpr ⟨isName_literal rfl rfl, ?_⟩
    exact List.forall_mem_singleton.mpr (isName_literal rfl rfl)
  have htext : (String.ofList (body.fill template.value)).toList
      = Layout.membersText ['\n'] 0 template.layoutMembers := by
    rw [String.toList_ofList, fill_body]
  have hread : Yaml.read Document.read (String.ofList (body.fill template.value))
      = .ok template.document :=
    Layout.read_members (.inr rfl) htext hnames h.gives fun head parts named hlabels hnamed =>
      h.takes hlabels hnamed
  exact renderDocument_of_read h.validate_eq hread

/-- **A safe template is rendered and read back as the document that it describes**, where each
environment binds just the names of the body, each to its value. -/
theorem renderDocument_of_plainSafe (h : template.PlainSafe) :
    template.renderDocument = .ok template.document ∧
      List.Forall₂ (fun outline action => action.environment.Holds outline.bindings)
        template.outlines template.document.actions :=
  ⟨h.renderDocument_eq, holds_bindings template⟩

/-- A template that is named like null, has no disk and no device of its own, and whose metadata are
found at an address that YAML would take for more than a text. -/
def oddlyNamed : Template := ⟨"null", "\"]: #\\", "/images/a:1", "", "/dev/sda3", ""⟩

theorem renderDocument_of_plainSafe_oddlyNamed :
    oddlyNamed.PlainSafe ∧ oddlyNamed.renderDocument = .ok oddlyNamed.document ∧
      List.Forall₂ (fun outline action => action.environment.Holds outline.bindings)
        oddlyNamed.outlines oddlyNamed.document.actions := by
  have hsafe : oddlyNamed.PlainSafe := by
    refine ⟨by decide, by decide, .inl rfl, .inr (by decide), by decide, ?_, ?_⟩
    · exact List.all_eq_true.mp (by decide)
    · exact List.all_eq_true.mp (by decide)
  exact ⟨hsafe, renderDocument_of_plainSafe hsafe⟩

end Template

end Provisioning.Workflow
