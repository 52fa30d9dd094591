import Provisioning.Proofs.Workflow.SafeRendering

/-!
# The configuration file within the workflow

One action of the workflow writes a file that is itself a YAML text, and the address of the metadata
stands in it in double quotes, inside of brackets. So it has to survive two readings: as a part of
the literal text that the workflow binds to `CONTENTS`, and as a scalar of the file. It does so
whatever printable characters it has, but for quotes and backslashes (`cloudConfig_readBack`).
-/

namespace Provisioning.Workflow

open Yaml (FlowText IsPlainLine Layout Reader isBreak isClean isPlainSafe isWide textOfLines)
open Yaml.Layout (IsName Proper isBare isClean_of_isBare isName_literal isQuotable_of_isBare
  proper_literal proper_literalWord word)

/-! ## The contents of a file -/

/-- **What an action writes to a file is found in its environment.** -/
theorem Step.contents_writeFile (name partition path mode directoryMode : String) (column : Nat)
    (lines : List String) :
    (writeFile name partition path mode directoryMode column lines).actionRead.envText? "CONTENTS"
      = some (textOfLines lines) := by
  unfold Action.envText? Environment.text? Step.actionRead
  rw [Environment.get?_ofList]
  rfl

namespace Template

variable {template : Template} {metadataUrl : String}

theorem action?_cloudConfig (template : Template) :
    template.documentRead.action? "add-tink-cloud-init-config" = some (Step.actionRead
      (.writeFile "add-tink-cloud-init-config" template.destPartition
        "/etc/cloud/cloud.cfg.d/10_tinkerbell.cfg"
        "0600" "0700" 10 (cloudConfig template.metadataUrl))) := by
  rfl

/-! ## The file -/

/-- The members of the file. -/
def cloudMembers (metadataUrl : String) : List (String × Layout) := [
  ("datasource", .mapping 2 [
    ("Ec2", .mapping 4 [
      ("metadata_urls", .flow (.quoted metadataUrl) []),
      ("strict_id", .plain "false" (.bool false))])]),
  ("system_info", .mapping 2 [
    ("default_user", .mapping 4 [
      ("name", word "tink"),
      ("groups", .flow (.word "wheel") [.word "adm"]),
      ("sudo", .flow (.quoted "ALL=(ALL) NOPASSWD:ALL") []),
      ("shell", word "/bin/bash")])]),
  ("manage_etc_hosts", word "localhost"),
  ("warnings", .mapping 2 [
    ("dsid_missing_source", word "off")])]

/-- **The value of the file**, which depends on the address of the metadata only. -/
def cloudValue (metadataUrl : String) : Value := .mapping [
  (.text "datasource", .mapping [
    (.text "Ec2", .mapping [
      (.text "metadata_urls", .sequence [.text metadataUrl]),
      (.text "strict_id", .bool false)])]),
  (.text "system_info", .mapping [
    (.text "default_user", .mapping [
      (.text "name", .text "tink"),
      (.text "groups", .sequence [.text "wheel", .text "adm"]),
      (.text "sudo", .sequence [.text "ALL=(ALL) NOPASSWD:ALL"]),
      (.text "shell", .text "/bin/bash")])]),
  (.text "manage_etc_hosts", .text "localhost"),
  (.text "warnings", .mapping [
    (.text "dsid_missing_source", .text "off")])]

theorem toValue_cloudMembers (metadataUrl : String) :
    (Json.object (Layout.membersJson (cloudMembers metadataUrl))).toValue
      = cloudValue metadataUrl := rfl

/-- The lines of the file are the text of its members. -/
theorem text_cloudConfig (metadataUrl : String) :
    (textOfLines (cloudConfig metadataUrl)).toList
      = Layout.membersText [] 0 (cloudMembers metadataUrl) := by
  unfold textOfLines cloudConfig cloudMembers
  rw [String.toList_ofList]
  simp [Yaml.unlines, Layout.membersText, Layout.text, Yaml.spaces, FlowText.chars,
    FlowText.following, word]

/-- Members that can be read make up a mapping that can be read. -/
theorem proper_members {block column : Nat} {member : String × Layout}
    {members : List (String × Layout)}
    (hcolumn : block < column)
    (h : ∀ other ∈ member :: members, IsName other.1 ∧ Proper false column other.2) :
    Proper false block (.mapping column (member :: members)) :=
  .mapping hcolumn nofun (fun other hother => (h other hother).1) fun other hother =>
    (h other hother).2

/-- Brackets around one text in double quotes can be read, if the text needs no escapes. -/
theorem proper_oneQuoted {block : Nat} {text : String} (h : ∀ c ∈ text.toList, isBare c = true) :
    Proper false block (.flow (.quoted text) []) :=
  .flow (List.forall_mem_singleton.mpr (.quoted fun c hc =>
    ⟨isQuotable_of_isBare (h c hc), isClean_of_isBare (h c hc)⟩))

theorem proper_cloudMembers (h : ∀ c ∈ metadataUrl.toList, isBare c = true) :
    ∀ member ∈ cloudMembers metadataUrl, IsName member.1 ∧ Proper false 0 member.2 := by
  have hstrict : Proper false 4 (.plain "false" (.bool false)) :=
    proper_literal rfl rfl fun _ htag => .bool htag Yaml.Meaning.ofPlain_false
  have hec2 : Proper false 2 (.mapping 4 [("metadata_urls", .flow (.quoted metadataUrl) []),
      ("strict_id", .plain "false" (.bool false))]) := by
    refine proper_members (by omega)
      (List.forall_mem_cons.mpr ⟨⟨isName_literal rfl rfl, proper_oneQuoted h⟩, ?_⟩)
    exact List.forall_mem_singleton.mpr ⟨isName_literal rfl rfl, hstrict⟩
  have hgroups : Proper false 4 (.flow (.word "wheel") [.word "adm"]) := by
    refine .flow (List.forall_mem_cons.mpr ⟨.word (by decide) (by decide) (by decide), ?_⟩)
    exact List.forall_mem_singleton.mpr (.word (by decide) (by decide) (by decide))
  have hsudo : ∀ c ∈ "ALL=(ALL) NOPASSWD:ALL".toList, isBare c = true :=
    List.all_eq_true.mp (by decide)
  have huser : Proper false 2
      (.mapping 4 [("name", word "tink"), ("groups", .flow (.word "wheel") [.word "adm"]),
        ("sudo", .flow (.quoted "ALL=(ALL) NOPASSWD:ALL") []), ("shell", word "/bin/bash")]) := by
    refine proper_members (by omega) (List.forall_mem_cons.mpr
      ⟨⟨isName_literal rfl rfl, proper_literalWord rfl rfl⟩, ?_⟩)
    refine List.forall_mem_cons.mpr ⟨⟨isName_literal rfl rfl, hgroups⟩, ?_⟩
    refine List.forall_mem_cons.mpr ⟨⟨isName_literal rfl rfl, proper_oneQuoted hsudo⟩, ?_⟩
    exact List.forall_mem_singleton.mpr ⟨isName_literal rfl rfl, proper_literalWord rfl rfl⟩
  refine List.forall_mem_cons.mpr ⟨⟨isName_literal rfl rfl, proper_members (by omega)
    (List.forall_mem_singleton.mpr ⟨isName_literal rfl rfl, hec2⟩)⟩, ?_⟩
  refine List.forall_mem_cons.mpr ⟨⟨isName_literal rfl rfl, proper_members (by omega)
    (List.forall_mem_singleton.mpr ⟨isName_literal rfl rfl, huser⟩)⟩, ?_⟩
  refine List.forall_mem_cons.mpr ⟨⟨isName_literal rfl rfl, proper_literalWord rfl rfl⟩, ?_⟩
  exact List.forall_mem_singleton.mpr ⟨isName_literal rfl rfl, proper_members (by omega)
    (List.forall_mem_singleton.mpr ⟨isName_literal rfl rfl, proper_literalWord rfl rfl⟩)⟩

/-- Four levels are enough for the file. -/
theorem fits_cloudMembers (levels : Nat) :
    (Json.object (Layout.membersJson (cloudMembers metadataUrl))).Fits (levels + 4) := by
  have hsingle : ∀ {levels : Nat} {name : String} {json : Json}, json.Fits levels →
      (Json.object [(name, json)]).Fits (levels + 1) :=
    fun hjson => .object (List.pairwise_singleton _ _) (List.forall_mem_singleton.mpr hjson)
  have hlist : ∀ items : List String, (Json.array (items.map Json.string)).Fits (levels + 1) :=
    fun items => .array (List.forall_mem_map.mpr fun _ _ => .string)
  have hec2 :
      (Json.object [("metadata_urls", .array [.string metadataUrl]),
      ("strict_id", .bool false)]).Fits (levels + 2) := by
    have hnames : ["metadata_urls", "strict_id"].Nodup := by decide
    exact .object hnames
      (List.forall_mem_cons.mpr ⟨hlist [metadataUrl], List.forall_mem_singleton.mpr .bool⟩)
  have huser : (Json.object [("name", .string "tink"),
      ("groups", .array [.string "wheel", .string "adm"]),
      ("sudo", .array [.string "ALL=(ALL) NOPASSWD:ALL"]), ("shell", .string "/bin/bash")]).Fits
      (levels + 2) := by
    have hnames : ["name", "groups", "sudo", "shell"].Nodup := by decide
    refine .object hnames (List.forall_mem_cons.mpr ⟨.string, ?_⟩)
    refine List.forall_mem_cons.mpr ⟨hlist ["wheel", "adm"], ?_⟩
    exact List.forall_mem_cons.mpr ⟨hlist ["ALL=(ALL) NOPASSWD:ALL"],
      List.forall_mem_singleton.mpr .string⟩
  have hnames : ["datasource", "system_info", "manage_etc_hosts", "warnings"].Nodup := by decide
  refine .object hnames (List.forall_mem_cons.mpr ⟨hsingle hec2, ?_⟩)
  refine List.forall_mem_cons.mpr ⟨hsingle huser, ?_⟩
  exact List.forall_mem_cons.mpr ⟨.string, List.forall_mem_singleton.mpr (hsingle .string)⟩

/-- **The file is read as its value.** -/
theorem read_cloudConfig (h : ∀ c ∈ metadataUrl.toList, isBare c = true) :
    Yaml.read Source.untyped (textOfLines (cloudConfig metadataUrl))
      = .ok (cloudValue metadataUrl) := by
  rw [← toValue_cloudMembers]
  exact Yaml.Layout.read_value (text_cloudConfig metadataUrl)
    (fun member hmem => (proper_cloudMembers h member hmem).1)
    (fun member hmem => (proper_cloudMembers h member hmem).2) (fits_cloudMembers 124)

/-! ## The file, read back -/

/-- **A template of safe words**, some of which may mean null or a truth value, and of texts that
need no escapes in double quotes. -/
structure WordSafe (template : Template) : Prop where
  name : isPlainSafe template.name.toList = true
  imageUrl : isPlainSafe template.imageUrl.toList = true
  destDisk : template.destDisk = "" ∨ isPlainSafe template.destDisk.toList = true
  destPartition : template.destPartition = "" ∨ isPlainSafe template.destPartition.toList = true
  metadataUrl : ∀ c ∈ template.metadataUrl.toList, isBare c = true
  deviceTemplateName : ∀ c ∈ template.deviceTemplateName.toList, isBare c = true

theorem WordSafe.validate_eq (h : template.WordSafe) : template.validate = .ok () :=
  validate_eq_ok_iff.mpr ⟨Yaml.ne_empty_of_safe h.name, Yaml.ne_empty_of_safe h.imageUrl⟩

/-- Safe words need no escapes either. -/
theorem WordSafe.allBare (h : template.WordSafe) : template.AllBare := by
  have hoptional : ∀ {text : String}, text = "" ∨ isPlainSafe text.toList = true →
      ∀ c ∈ text.toList, isBare c = true := by
    rintro text (rfl | hsafe)
    · exact nofun
    · exact Yaml.isBare_of_safe hsafe
  exact ⟨Yaml.isBare_of_safe h.name, h.metadataUrl, Yaml.isBare_of_safe h.imageUrl,
    hoptional h.destDisk, hoptional h.destPartition, h.deviceTemplateName⟩

theorem AllBare.fields (h : template.AllBare) :
    ∀ text ∈ [template.name, template.metadataUrl, template.imageUrl, template.destDisk,
      template.destPartition, template.deviceTemplateName], ∀ c ∈ text.toList, isBare c = true := by
  refine List.forall_mem_cons.mpr ⟨h.name, List.forall_mem_cons.mpr ⟨h.metadataUrl, ?_⟩⟩
  refine List.forall_mem_cons.mpr ⟨h.imageUrl, List.forall_mem_cons.mpr ⟨h.destDisk, ?_⟩⟩
  exact List.forall_mem_cons.mpr
    ⟨h.destPartition, List.forall_mem_singleton.mpr h.deviceTemplateName⟩

theorem WordSafe.yamlSafe (h : template.WordSafe) : template.YamlSafe where
  words := by
    have hline : ∀ {text : String}, isPlainSafe text.toList = true → text = "" ∨
        IsPlainLine text.toList :=
      fun hsafe => .inr (Yaml.isPlainLine_of_plainWord (Yaml.isPlainWord_of_safe hsafe))
    refine List.forall_mem_cons.mpr ⟨hline h.name, List.forall_mem_cons.mpr ⟨hline h.imageUrl, ?_⟩⟩
    exact List.forall_mem_cons.mpr
      ⟨h.destDisk.elim .inl hline, List.forall_mem_singleton.mpr (h.destPartition.elim .inl hline)⟩
  quoted := by
    refine List.forall_mem_cons.mpr ⟨fun c hc => isQuotable_of_isBare (h.allBare.name c hc), ?_⟩
    refine List.forall_mem_cons.mpr
      ⟨fun c hc => isQuotable_of_isBare (h.allBare.destPartition c hc), ?_⟩
    exact List.forall_mem_singleton.mpr fun c hc => isQuotable_of_isBare (h.deviceTemplateName c hc)
  line c hc := (isInline_of_isBare (h.metadataUrl c hc)).1.1
  narrow := by
    have hoptional : ∀ {text : String}, text = "" ∨ isPlainSafe text.toList = true →
        isWide text.toList = false := by
      rintro text (rfl | hsafe)
      · decide
      · exact Yaml.not_isWide_of_safe hsafe
    refine List.forall_mem_cons.mpr ⟨Yaml.not_isWide_of_safe h.imageUrl, ?_⟩
    exact List.forall_mem_cons.mpr
      ⟨hoptional h.destDisk, List.forall_mem_singleton.mpr (hoptional h.destPartition)⟩
  clean text htext c hc := isClean_of_isBare (h.allBare.fields text htext c hc)

/-- **The configuration file in a rendered workflow is a YAML text of its own**, whose value has the
address of the metadata as it was given and has nothing else of the template. -/
theorem cloudConfig_readBack (h : template.WordSafe) : ∃ document contents,
    template.renderDocument = .ok document ∧
    (document.action? "add-tink-cloud-init-config").bind (·.envText? "CONTENTS") = some contents ∧
    Yaml.read Source.untyped contents = .ok (cloudValue template.metadataUrl) := by
  have hrender : template.renderDocument = .ok template.documentRead :=
    renderDocument_of_read h.validate_eq (h.yamlSafe.read h.validate_eq)
  refine ⟨template.documentRead, textOfLines (cloudConfig template.metadataUrl), hrender, ?_,
    read_cloudConfig h.metadataUrl⟩
  rw [action?_cloudConfig, Option.bind_some, Step.contents_writeFile]

/-- A template whose words mean null and truth values, and whose address looks like the rest of the
brackets, a comment and a member. -/
def misleading : Template := ⟨"null", " a], b: [c # d ", "true", "", "FALSE", "]: \x7b"⟩

theorem misleading_wordSafe : misleading.WordSafe :=
  ⟨by decide, by decide, .inl rfl, .inr (by decide), List.all_eq_true.mp (by decide),
    List.all_eq_true.mp (by decide)⟩

theorem cloudConfig_readBack_misleading : misleading.WordSafe ∧ ∃ document contents,
    misleading.renderDocument = .ok document ∧
    (document.action? "add-tink-cloud-init-config").bind (·.envText? "CONTENTS") = some contents ∧
    Yaml.read Source.untyped contents = .ok (cloudValue " a], b: [c # d ") :=
  ⟨misleading_wordSafe, cloudConfig_readBack misleading_wordSafe⟩

end Template

end Provisioning.Workflow
