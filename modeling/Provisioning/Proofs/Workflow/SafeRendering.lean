import Provisioning.Proofs.Workflow.NameReadBack
import Provisioning.Proofs.Yaml.TypedLayout

/-!
# Templates that can be read once they are rendered

The fields of a template go into the body verbatim, so one that YAML does not take for a scalar
spoils the text: a name that begins with an at sign is refused (`not_rendered_of_reserved`). It
is up to those who fill the template to keep its fields safe, each where it stands. A name, an
image, a disk and a partition stand in words; the name, the partition and the device stand in
double quotes; and the address of the metadata stands on a line of a literal text. If all are
safe there, `Template.YamlSafe`, then the text is read, and what is read is
`Template.documentRead`: it has the name and the device as they were given, and the image, the
disk and the partition as what they spell.
-/

namespace Provisioning.Workflow

open Yaml (IsPlainLine Layout Node Reader isBreak isClean isWide plainValue)
open Yaml.Layout (Entry IsName Proper gives_of_proper gives_text_line gives_text_quoted
  gives_value_line gives_value_lineOrNull gives_value_of_proper gives_value_quoted isName_literal
  isQuotable_of_isBare isTextLine_literal proper_literalQuoted proper_literalWord proper_natural
  stands_bindings stands_list stands_of_proper value_wordOrNull word wordOrNull)
open Yaml.QuotedScalar (isQuotable)

/-! ## Actions -/

namespace Step

variable {step : Step} {column levels : Nat}

/-- What the action is read as, whatever its words spell. -/
def actionRead (step : Step) : Action :=
  ⟨step.name, step.image, some step.seconds, step.pid,
    .ofList (step.environment.map fun binding => (binding.1, binding.2.value))⟩

/-- A binding that is read as some value. -/
structure Binds (column : Nat) (binding : String × Layout) : Prop where
  isName : IsName binding.1
  gives : ∀ levels, binding.2.Gives column fun node =>
    Reader.Takes levels Reader.value node binding.2.value

theorem Binding.binds {binding : String × Layout} (h : Binding column binding) :
    Binds column binding :=
  ⟨h.name, fun levels => gives_value_of_proper h.layout (h.fits levels)⟩

theorem binds_lineOrNull {name text : String} (hname : IsName name)
    (h : text = "" ∨ IsPlainLine text.toList)
    (hclean : ∀ c ∈ text.toList, isClean c = true) (hwide : isWide text.toList = false) :
    Binds column (name, wordOrNull text) := by
  refine ⟨hname, fun levels => ?_⟩
  show (wordOrNull text).Gives column fun node =>
    Reader.Takes levels Reader.value node (wordOrNull text).value
  rw [value_wordOrNull]
  exact gives_value_lineOrNull h hclean hwide

/-- An action whose bindings are read as some values. -/
structure Sound (step : Step) : Prop extends Step.Framed step where
  bindings : ∀ binding ∈ step.environment, Binds step.column binding

/-- The members of an action and what is read of them. -/
def entries (step : Step) : List (Entry Action) :=
  .storing "name" (.quoted step.name) (fun name action => { action with name }) step.name ::
  .storing "image" (word step.image) (fun image action => { action with image }) step.image ::
  .storing "timeout" (.plain (String.ofList (Number.decimal step.seconds.toNat))
    (.int step.seconds.toNat))
    (fun timeout action => { action with timeout }) (some step.seconds) ::
  (step.pid.toList.map
      (fun pid => .storing "pid" (word pid) (fun pid action => { action with pid }) (some pid)) ++
    [.storing "environment" (.mapping step.column step.environment)
      (fun bindings action => { action with environment := .ofList bindings })
      (step.environment.map fun binding => (binding.1, binding.2.value))])

theorem layout_eq_entries (step : Step) :
    step.layout = .mapping 8 (step.entries.map Entry.member) := by
  obtain ⟨name, image, seconds, pid, column, environment⟩ := step
  cases pid <;> rfl

theorem fill_entries (step : Step) : Entry.fill step.entries Action.blank = step.actionRead := by
  obtain ⟨name, image, seconds, pid, column, environment⟩ := step
  cases pid <;> rfl

theorem Sound.environment_stands (h : step.Sound) :
    (Layout.mapping step.column step.environment).Stands false 8 fun node =>
      Reader.Takes (levels + 1) (Source.bindings Source.untyped) node
        (step.environment.map fun binding => (binding.1, binding.2.value)) := by
  have hbindings := h.bindings
  obtain ⟨first, others, henvironment⟩ := List.exists_cons_of_ne_nil h.environment
  rw [henvironment] at hbindings ⊢
  have hlayout : Layout.mapping step.column (first :: others)
      = Layout.mapping step.column ((first :: others).map id) := by rw [List.map_id]
  rw [hlayout]
  exact stands_bindings h.column nofun (fun binding hmem => (hbindings binding hmem).isName)
    fun binding hmem => (hbindings binding hmem).gives levels

theorem Sound.entries_read (h : step.Sound) :
    ∀ entry ∈ step.entries, entry.Reads (Action.shape : Record Reader Action) (levels + 1) 8 := by
  let format := Reader.yamlReading
  have hseconds : step.seconds.toNat < UInt64.size := step.seconds.toNat_lt_size
  refine List.forall_mem_cons.mpr ⟨Entry.reads (isName_literal rfl rfl) rfl
    ((gives_of_proper h.name).imp (format.text step.name)), ?_⟩
  refine List.forall_mem_cons.mpr ⟨Entry.reads (isName_literal rfl rfl) rfl
    ((gives_of_proper h.image).imp (format.text step.image)), ?_⟩
  refine List.forall_mem_cons.mpr ⟨Entry.reads (isName_literal rfl rfl) rfl
    ((gives_of_proper (proper_natural h.seconds hseconds)).imp
      (format.optional rfl (format.natural step.seconds))), ?_⟩
  refine List.forall_mem_append.mpr ⟨fun entry hentry => ?_, ?_⟩
  · obtain ⟨pid, hpid, rfl⟩ := List.mem_map.mp hentry
    exact Entry.reads (isName_literal rfl rfl) rfl
      ((gives_of_proper (h.pid pid (Option.mem_toList.mp hpid))).imp
        (format.optional rfl (format.text pid)))
  · exact List.forall_mem_singleton.mpr
      (Entry.reads (isName_literal rfl rfl) rfl h.environment_stands.gives)

/-- **The layout of an action is read as the action.** -/
theorem Sound.stands (h : step.Sound) : step.layout.Stands true 6 fun node =>
    Reader.Takes (levels + 2) Action.read node step.actionRead := by
  obtain ⟨names, hnames, hnodup, hneeded⟩ : ∃ names,
      step.entries.map Entry.name = names ∧ names.Nodup ∧
        ∀ field ∈ (Action.shape : Record Reader Action).fields,
          field.required = true → field.name ∈ names := by
    obtain ⟨name, image, seconds, pid, column, environment⟩ := step
    cases pid with
    | none => exact ⟨["name", "image", "timeout", "environment"], rfl, by decide, by decide⟩
    | some pid =>
      exact ⟨["name", "image", "timeout", "pid", "environment"], rfl, by decide, by decide⟩
  rw [← hnames] at hnodup hneeded
  rw [layout_eq_entries, ← fill_entries]
  exact Entry.stands_record (by decide) (fun _ => rfl) h.entries_read hnodup hneeded

theorem sound_streamImage {image disk : String} (himage : Binds 10 ("IMG_URL", word image))
    (hdisk : Binds 10 ("DEST_DISK", wordOrNull disk)) : (streamImage image disk).Sound where
  toFramed := framed_streamImage image disk
  bindings := by
    refine List.forall_mem_cons.mpr ⟨himage, List.forall_mem_cons.mpr ⟨hdisk, ?_⟩⟩
    exact List.forall_mem_singleton.mpr (binding_true (isName_literal rfl rfl)).binds

theorem sound_runCommand {name partition command : String} (hcolumn : 8 < column)
    (hname : Proper false 8 (.quoted name))
    (hpartition : Binds column ("BLOCK_DEVICE", wordOrNull partition))
    (hcommand : Proper false column (.quoted command)) :
      (runCommand name partition command column).Sound where
  toFramed := framed_runCommand hcolumn hname
  bindings := List.forall_mem_cons.mpr
    ⟨hpartition, fun binding hmem => (fixed_runCommand name partition hcommand binding hmem).binds⟩

theorem sound_writeFile {name partition path mode directoryMode first : String}
    {firstChars : List Char} {c : Char}
    {others : List String} (hcolumn : 8 < column) (hname : Proper false 8 (.quoted name))
    (hpartition : Binds column ("DEST_DISK", wordOrNull partition))
    (hpath : Proper false column (word path))
    (hmode : mode = "0700" ∨ mode = "0600")
    (hdirectoryMode : directoryMode = "0700" ∨ directoryMode = "0600")
    (hfirst : first = String.ofList (c :: firstChars)) (hblank : Yaml.isBlank c = false)
    (hlines : ∀ line ∈ first :: others, Yaml.Layout.IsTextLine line) :
    (writeFile name partition path mode directoryMode column (first :: others)).Sound where
  toFramed := framed_writeFile _ hcolumn hname
  bindings := List.forall_mem_cons.mpr ⟨hpartition, fun binding hmem =>
    (fixed_writeFile name partition hpath hmode hdirectoryMode hfirst hblank hlines
      binding hmem).binds⟩

theorem sound_startImage {partition : String}
    (hpartition : Binds 10 ("BLOCK_DEVICE", wordOrNull partition))
    (hquotable : ∀ c ∈ partition.toList, isQuotable c = true)
    (hclean : ∀ c ∈ partition.toList, isClean c = true) :
    (startImage partition).Sound where
  toFramed := framed_startImage partition
  bindings := by
    have hcommand : ∀ c ∈ ("root=" ++ partition ++ " rw").toList, isQuotable c = true :=
      forall_command (List.all_eq_true.mp rfl) hquotable (List.all_eq_true.mp rfl)
    have hcommandClean : ∀ c ∈ ("root=" ++ partition ++ " rw").toList, isClean c = true :=
      forall_command (List.all_eq_true.mp rfl) hclean (List.all_eq_true.mp rfl)
    refine forall_startImage hpartition (fun binding hmem =>
      (fixed_startImage partition binding hmem).binds) ?_
    exact ⟨isName_literal rfl rfl, fun levels => gives_value_quoted hcommand hcommandClean⟩

end Step

/-! ## Safe templates -/

namespace Template

variable {template : Template} {levels : Nat}

/-- **A template whose fields are safe in YAML**, each where it stands. What stands in a word is one
plain scalar, what stands in double quotes has no quotes, backslashes and line breaks, and what
stands on a line has no line breaks. No word spells an integer that no value can hold. -/
structure YamlSafe (template : Template) : Prop where
  words : ∀ text ∈ [template.name, template.imageUrl, template.destDisk, template.destPartition],
    text = "" ∨ IsPlainLine text.toList
  quoted : ∀ text ∈ [template.name, template.destPartition, template.deviceTemplateName],
    ∀ c ∈ text.toList, isQuotable c = true
  line : ∀ c ∈ template.metadataUrl.toList, isBreak c = false
  narrow : ∀ text ∈ [template.imageUrl, template.destDisk, template.destPartition],
    isWide text.toList = false
  clean : ∀ text ∈ [template.name, template.metadataUrl, template.imageUrl, template.destDisk,
    template.destPartition, template.deviceTemplateName], ∀ c ∈ text.toList, isClean c = true

/-- **All actions of a safe template are read.** -/
theorem YamlSafe.sound (h : template.YamlSafe) (himage : template.imageUrl ≠ "") :
    ∀ step ∈ template.steps, step.Sound := by
  have hbinds : ∀ {column : Nat} {name text : String}, IsName name →
      text ∈ [template.imageUrl, template.destDisk, template.destPartition] →
      Step.Binds column (name, wordOrNull text) := by
    intro column name text hname htext
    have hword :
        text ∈ [template.name, template.imageUrl, template.destDisk, template.destPartition] :=
      List.mem_cons_of_mem _ htext
    have hfield : text ∈ [template.name, template.metadataUrl, template.imageUrl, template.destDisk,
        template.destPartition, template.deviceTemplateName] :=
      List.mem_cons_of_mem _ (List.mem_cons_of_mem _ (List.mem_append_left [_] htext))
    exact Step.binds_lineOrNull hname (h.words text hword) (h.clean text hfield)
      (h.narrow text htext)
  have hpartition : ∀ {column : Nat} {name : String}, IsName name →
      Step.Binds column (name, wordOrNull template.destPartition) :=
        fun hname => hbinds hname (by simp)
  have himageBinds : Step.Binds 10 ("IMG_URL", word template.imageUrl) := by
    have hword : wordOrNull template.imageUrl = word template.imageUrl :=
      if_neg (by simpa using himage)
    rw [← hword]
    exact hbinds (isName_literal rfl rfl) (by simp)
  have hmetadata : ∀ line ∈ cloudConfig template.metadataUrl, Yaml.Layout.IsTextLine line :=
    isTextLine_cloudConfig fun c hc => ⟨h.line c hc, h.clean _ (by simp) c hc⟩
  have hidentify : ∀ line ∈ ["datasource: Ec2"], Yaml.Layout.IsTextLine line :=
    List.forall_mem_singleton.mpr (isTextLine_literal rfl rfl)
  refine List.forall_mem_cons.mpr
    ⟨Step.sound_streamImage himageBinds (hbinds (isName_literal rfl rfl) (by simp)), ?_⟩
  refine List.forall_mem_cons.mpr ⟨Step.sound_runCommand (by omega) (proper_literalQuoted rfl rfl)
    (hpartition (isName_literal rfl rfl)) (proper_literalQuoted rfl rfl), ?_⟩
  refine List.forall_mem_cons.mpr ⟨Step.sound_writeFile (by omega) (proper_literalQuoted rfl rfl)
    (hpartition (isName_literal rfl rfl)) (proper_literalWord rfl rfl) (.inl rfl) (.inl rfl) rfl rfl
    isTextLine_setupScript, ?_⟩
  refine List.forall_mem_cons.mpr ⟨Step.sound_writeFile (by omega) (proper_literalQuoted rfl rfl)
    (hpartition (isName_literal rfl rfl)) (proper_literalWord rfl rfl) (.inr rfl) (.inr rfl) rfl rfl
    isTextLine_setupService, ?_⟩
  refine List.forall_mem_cons.mpr ⟨Step.sound_runCommand (by omega) (proper_literalQuoted rfl rfl)
    (hpartition (isName_literal rfl rfl)) (proper_literalQuoted rfl rfl), ?_⟩
  refine List.forall_mem_cons.mpr ⟨Step.sound_writeFile (by omega) (proper_literalQuoted rfl rfl)
    (hpartition (isName_literal rfl rfl)) (proper_literalWord rfl rfl) (.inr rfl)
      (.inl rfl) rfl rfl hmetadata, ?_⟩
  refine List.forall_mem_cons.mpr ⟨Step.sound_writeFile (by omega) (proper_literalQuoted rfl rfl)
    (hpartition (isName_literal rfl rfl)) (proper_literalWord rfl rfl) (.inr rfl)
      (.inl rfl) rfl rfl hidentify, ?_⟩
  exact List.forall_mem_singleton.mpr (Step.sound_startImage (hpartition (isName_literal rfl rfl))
    (h.quoted _ (by simp)) (h.clean _ (by simp)))

/-! ## The task -/

/-- The task as it is read. -/
def taskRead (template : Template) : Task :=
  ⟨template.name, template.effectiveDevice, volumes, template.steps.map Step.actionRead⟩

/-- The members of the task and what is read of them. -/
def taskEntries (template : Template) : List (Entry Task) := [
  .storing "name" (.quoted template.name) (fun name task => { task with name }) template.name,
  .storing "worker" (.quoted template.effectiveDevice) (fun worker task => { task with worker })
    template.effectiveDevice,
  .storing "volumes" (.sequence 6 (volumes.map word))
    (fun volumes task => { task with volumes }) volumes,
  .storing "actions" (.sequence 6 (template.steps.map Step.layout))
    (fun actions task => { task with actions }) (template.steps.map Step.actionRead)]

theorem volumes_stand : (Layout.sequence 6 (volumes.map word)).Stands false 4 fun node =>
    Reader.Takes (levels + 1) (Source.list Source.text) node volumes := by
  have hstands : (Layout.sequence 6 (volumes.map word)).Stands false 4 fun node =>
      Reader.Takes (levels + 1) (Source.list Source.text) node (volumes.map id) :=
    stands_list (by omega) fun volume hmem =>
      (stands_of_proper (proper_volumes volume hmem)).imp (Reader.yamlReading.text volume)
  rwa [List.map_id] at hstands

theorem YamlSafe.device (h : template.YamlSafe) : ∀ c ∈ template.effectiveDevice.toList,
    isQuotable c = true ∧ isClean c = true := by
  refine forall_effectiveDevice ?_ fun c hc => ⟨h.quoted _ (by simp) c hc, h.clean _ (by simp) c hc⟩
  have hbare : ∀ c ∈ defaultDevice.toList, Yaml.Layout.isBare c = true :=
    List.all_eq_true.mp (by decide)
  exact fun c hc => ⟨isQuotable_of_isBare (hbare c hc), Yaml.Layout.isClean_of_isBare (hbare c hc)⟩

/-- **The layout of the task is read as the task.** -/
theorem YamlSafe.task_stands (h : template.YamlSafe) (himage : template.imageUrl ≠ "") :
    template.taskLayout.Stands true 2 fun node =>
      Reader.Takes (levels + 4) Task.read node template.taskRead := by
  have hactions : (Layout.sequence 6 (template.steps.map Step.layout)).Stands false 4 fun node =>
      Reader.Takes (levels + 3)
        (Source.list Action.read) node (template.steps.map Step.actionRead) :=
    stands_list (by omega) fun step hmem => (h.sound himage step hmem).stands
  have hentries : ∀ entry ∈ template.taskEntries, entry.Reads (Task.shape : Record Reader Task)
      (levels + 3) 4 := by
    refine List.forall_mem_cons.mpr ⟨Entry.reads (isName_literal rfl rfl) rfl
      (gives_text_quoted (h.quoted _ (by simp)) (h.clean _ (by simp))), ?_⟩
    refine List.forall_mem_cons.mpr ⟨Entry.reads (isName_literal rfl rfl) rfl
      (gives_text_quoted (fun c hc => (h.device c hc).1) fun c hc => (h.device c hc).2), ?_⟩
    refine List.forall_mem_cons.mpr ⟨Entry.reads (isName_literal rfl rfl) rfl volumes_stand.gives,
      ?_⟩
    exact List.forall_mem_singleton.mpr (Entry.reads (isName_literal rfl rfl) rfl hactions.gives)
  have hnodup : ["name", "worker", "volumes", "actions"].Nodup := by decide
  have hneeded : ∀ field ∈ (Task.shape : Record Reader Task).fields, field.required = true →
      field.name ∈ ["name", "worker", "volumes", "actions"] := by decide
  exact Entry.stands_record (by omega) (fun _ => rfl) hentries hnodup hneeded

/-! ## The document -/

/-- **The document that is read of a rendered template**, whatever its words spell. -/
def documentRead (template : Template) : Document :=
  ⟨some "0.1", template.name, some 6000, [template.taskRead]⟩

/-- The members of the document and what is read of them. -/
def documentEntries (template : Template) : List (Entry Document) := [
  .storing "version" (.quoted "0.1") (fun version document => { document with version })
    (some "0.1"),
  .storing "name" (word template.name) (fun name document => { document with name }) template.name,
  .storing "global_timeout" (.plain (String.ofList (Number.decimal 6000)) (.int 6000))
    (fun globalTimeout document => { document with globalTimeout }) (some 6000),
  .storing "tasks" (.sequence 2 [template.taskLayout])
    (fun tasks document => { document with tasks }) [template.taskRead]]

theorem YamlSafe.read (h : template.YamlSafe) (hvalid : template.validate = .ok ()) :
    Yaml.read Document.read (String.ofList (body.fill template.value))
      = .ok template.documentRead := by
  obtain ⟨hname, himage⟩ := validate_eq_ok_iff.mp hvalid
  let format := Reader.yamlReading
  have htimeout : Yaml.isPlainWord (Number.decimal 6000) = true := by decide
  have htasks : (Layout.sequence 2 [template.taskLayout]).Stands false 0 fun node =>
      Reader.Takes 127 (Source.list Task.read) node [template.taskRead] :=
    stands_list (by omega) (List.forall_mem_singleton.mpr (h.task_stands himage))
  have hentries : ∀ entry ∈ template.documentEntries,
      entry.Reads (Document.shape : Record Reader Document) 127 0 := by
    refine List.forall_mem_cons.mpr ⟨Entry.reads (isName_literal rfl rfl) rfl
      ((gives_of_proper (proper_literalQuoted rfl rfl)).imp
        (format.optional rfl (format.text "0.1"))), ?_⟩
    refine List.forall_mem_cons.mpr ⟨Entry.reads (isName_literal rfl rfl) rfl
      (gives_text_line ((h.words _ (by simp)).resolve_left hname) (h.clean _ (by simp))), ?_⟩
    refine List.forall_mem_cons.mpr ⟨Entry.reads (isName_literal rfl rfl) rfl
      ((gives_of_proper (proper_natural htimeout (by decide))).imp
        (format.optional rfl (format.natural 6000))), ?_⟩
    exact List.forall_mem_singleton.mpr (Entry.reads (isName_literal rfl rfl) rfl htasks.gives)
  have htext : (String.ofList (body.fill template.value)).toList
      = Layout.membersText ['\n'] 0 (template.documentEntries.map Entry.member) := by
    rw [String.toList_ofList, fill_body]
    rfl
  have hnodup : ["version", "name", "global_timeout", "tasks"].Nodup := by decide
  have hneeded : ∀ field ∈ (Document.shape : Record Reader Document).fields, field.required = true →
      field.name ∈ ["version", "name", "global_timeout", "tasks"] := by decide
  exact Entry.read_record (.inr rfl) htext rfl hentries hnodup hneeded

/-- **A valid template whose fields are safe is rendered to a text that can be read.** -/
theorem renderDocument_of_yamlSafe (hvalid : template.validate = .ok ())
    (hsafe : template.YamlSafe) : template.renderDocument = .ok template.documentRead :=
  renderDocument_of_read hvalid (hsafe.read hvalid)

/-- A template with spaces and letters of all kinds in its fields, whose image is spelled like a
number and whose disk is spelled like nothing at all. -/
def liberal : Template :=
  ⟨"größte m#1 - a:1?", "\"]: #\\", "-0.5", "~", "C:/der Anfang", "a: [b # c"⟩

theorem forall_texts {texts : List String} {holds : Char → Bool}
    (h : texts.all (fun text => text.toList.all holds) = true) :
    ∀ text ∈ texts, ∀ c ∈ text.toList, holds c = true :=
  fun text htext => List.all_eq_true.mp (List.all_eq_true.mp h text htext)

theorem liberal_yamlSafe : liberal.YamlSafe where
  words := by
    refine List.forall_mem_cons.mpr
      ⟨.inr (by decide), List.forall_mem_cons.mpr ⟨.inr (by decide), ?_⟩⟩
    exact List.forall_mem_cons.mpr
      ⟨.inr (by decide), List.forall_mem_singleton.mpr (.inr (by decide))⟩
  quoted := forall_texts (by decide)
  line := by
    have hline : liberal.metadataUrl.toList.all (fun c => !isBreak c) = true := by decide
    exact fun c hc => (Bool.not_eq_true' _).mp (List.all_eq_true.mp hline c hc)
  narrow := by
    refine List.forall_mem_cons.mpr ⟨by decide, List.forall_mem_cons.mpr ⟨by decide, ?_⟩⟩
    exact List.forall_mem_singleton.mpr (by decide)
  clean := forall_texts (by decide)

theorem renderDocument_of_yamlSafe_liberal : liberal.validate = .ok () ∧ liberal.YamlSafe ∧
    liberal.renderDocument = .ok liberal.documentRead :=
  ⟨rfl, liberal_yamlSafe, renderDocument_of_yamlSafe rfl liberal_yamlSafe⟩

/-! ## Templates that cannot be read -/

/-- **A name that begins with a reserved character spoils the text**, whatever the other
fields are. -/
theorem not_rendered_of_reserved {c : Char} {rest : List Char} {document : Document}
    (h : template.AllBare) (hname : template.name.toList = c :: rest) (hc : c = '@' ∨ c = '\x60') :
    template.renderDocument ≠ .ok document := by
  intro hread
  obtain ⟨-, haccepted⟩ := h.accepted hread
  obtain ⟨lexer, ⟨mark, -, hat⟩, hlexer⟩ := haccepted.reaches (reaches_name template)
  rw [hname] at hat
  have hbegins : Yaml.Lexer.BeginsToken c := by
    rcases hc with rfl | rfl
    all_goals exact ⟨rfl, rfl, by decide, by decide⟩
  have hline : Yaml.spaces 1 ++ c :: (rest ++ '\n' :: template.belowName)
      = ' ' :: (c :: rest) ++ '\n' :: template.belowName := rfl
  rw [← hline] at hat
  exact hlexer.not_reserved hc hat (hat.meets_token hbegins) attains_name

/-- Not every valid template is rendered to a text that can be read. -/
theorem validate_is_not_enough :
    ¬∀ template : Template, template.validate = .ok () →
      ∃ document, template.renderDocument = .ok document := by
  intro h
  obtain ⟨document, hread⟩ := h (new "@m1" "i") rfl
  have hbare : (new "@m1" "i").AllBare :=
    ⟨List.all_eq_true.mp (by decide), nofun, List.all_eq_true.mp (by decide), nofun, nofun, nofun⟩
  exact not_rendered_of_reserved hbare rfl (.inl rfl) hread

end Template

end Provisioning.Workflow
