import Provisioning.Proofs.Template.Replacement
import Provisioning.Proofs.Workflow.NameLine
import Provisioning.Proofs.Workflow.ReadBack
import Provisioning.Proofs.Workflow.Rendering

/-!
# The name of a workflow, read back

The name is written twice, once plainly and once in quotes. If all fields are printable and need no
escapes, and the text is read at all, then the name in quotes, which the task gets, is the name, and
so is the worker: nothing that stands in another field can change that (`readBack_name`). The plain
name, which the workflow gets, is the name just if it is a plain scalar as a whole. Otherwise YAML
makes less of it, such as the word in front of a comment (`renderDocument_commented`).
-/

namespace Provisioning.Workflow.Template

open Provisioning.Outcome (bind_eq_ok)
open Provisioning.Template (Body)
open Provisioning.Template.Body
open Yaml (Layout Lexer isClean)
open Yaml.Layout (isBare isName_literal)

variable {template : Template} {document : Document}

/-! ## The characters of the text -/

section

variable {φ : Type} {value : φ → String}

/-- Are the fixed parts of a body clean? -/
def hasCleanParts : Body φ → Bool
  | [] => true
  | .literal text :: rest => text.toList.all isClean && hasCleanParts rest
  | .field _ :: rest => hasCleanParts rest

theorem all_isClean_of_eq {text : String} {chars : List Char} (h : text = String.ofList chars)
    (hchars : chars.all isClean = true) : text.toList.all isClean = true := by
  rw [h, String.toList_ofList, hchars]

theorem all_isClean_append {first second : String} (hfirst : first.toList.all isClean = true)
    (hsecond : second.toList.all isClean = true) : (first ++ second).toList.all isClean = true := by
  rw [String.toList_append, List.all_append, hfirst, hsecond]
  rfl

-- By definition these equations hold as well, but then the kernel would compare the texts of
-- whole bodies.
theorem hasCleanParts_line (text : String) (lines : List (Body φ)) :
    hasCleanParts (line text :: lines).flatten
      = (text.toList.all isClean && hasCleanParts lines.flatten) := by
  have hend : "\n".toList.all isClean = true := by decide
  rw [List.flatten_cons, line, List.cons_append, List.cons_append, List.nil_append, hasCleanParts,
    hasCleanParts, hend, Bool.true_and]

theorem hasCleanParts_lineWith (before after : String) (field : φ) (lines : List (Body φ)) :
    hasCleanParts (lineWith before field after :: lines).flatten
      = (before.toList.all isClean
        && (after.toList.all isClean && hasCleanParts lines.flatten)) := by
  have hend : "\n".toList.all isClean = true := by decide
  rw [List.flatten_cons, lineWith]
  simp only [List.cons_append, List.nil_append, hasCleanParts, hend, Bool.true_and]

theorem hasCleanParts_flatten_nil : hasCleanParts ([] : List (Body φ)).flatten = true := rfl

theorem clean_fill (hvalue : ∀ field, ∀ c ∈ (value field).toList, isClean c = true) :
    ∀ parts : Body φ, hasCleanParts parts = true → ∀ c ∈ parts.fill value, isClean c = true := by
  intro parts
  induction parts with
  | nil => intro _ c hc; exact absurd hc (by simp [fill])
  | cons piece rest ih =>
    intro h
    cases piece with
    | literal text =>
      rw [hasCleanParts, Bool.and_eq_true] at h
      rw [fill_literal]
      exact Yaml.clean_append (List.all_eq_true.mp h.1) (ih h.2)
    | field field =>
      rw [fill_field]
      exact Yaml.clean_append (hvalue field) (ih h)

end

theorem body_hasCleanParts : hasCleanParts body = true := by
  unfold body
  simp only [hasCleanParts_line, hasCleanParts_lineWith, hasCleanParts_flatten_nil,
    Bool.and_eq_true, Bool.and_true]
  repeat' apply And.intro
  all_goals
    first
    | exact all_isClean_of_eq rfl (by decide)
    | exact all_isClean_append (all_isClean_of_eq rfl (by decide))
        (all_isClean_of_eq rfl (by decide))

/-- **A template whose fields are printable** and need no escapes in double quotes. -/
structure AllBare (template : Template) : Prop where
  name : ∀ c ∈ template.name.toList, isBare c = true
  metadataUrl : ∀ c ∈ template.metadataUrl.toList, isBare c = true
  imageUrl : ∀ c ∈ template.imageUrl.toList, isBare c = true
  destDisk : ∀ c ∈ template.destDisk.toList, isBare c = true
  destPartition : ∀ c ∈ template.destPartition.toList, isBare c = true
  deviceTemplateName : ∀ c ∈ template.deviceTemplateName.toList, isBare c = true

theorem AllBare.effectiveDevice (h : template.AllBare) :
    ∀ c ∈ template.effectiveDevice.toList, isBare c = true :=
  isBare_effectiveDevice h.deviceTemplateName

theorem AllBare.value (h : template.AllBare) (slot : Slot) :
    ∀ c ∈ (template.value slot).toList, isBare c = true := by
  cases slot with
  | name => exact h.name
  | metadataUrl => exact h.metadataUrl
  | imageUrl => exact h.imageUrl
  | destDisk => exact h.destDisk
  | destPartition => exact h.destPartition
  | deviceTemplateName => exact h.effectiveDevice

theorem AllBare.clean (h : template.AllBare) : ∀ c ∈ body.fill template.value, isClean c = true :=
  clean_fill (fun slot c hc => Yaml.Layout.isClean_of_isBare (h.value slot c hc)) body
    body_hasCleanParts

/-- What is read of a rendered template is read of the characters of its text. -/
theorem AllBare.accepted (h : template.AllBare) (hread : template.renderDocument = .ok document) :
    template.name ≠ "" ∧
      (Lexer.ofText (body.fill template.value)).Accepted Document.read document := by
  obtain ⟨text, hrender, hdocument⟩ := bind_eq_ok.mp hread
  obtain ⟨_, hvalid, -⟩ := bind_eq_ok.mp hrender
  rw [render_of_validate hvalid] at hrender
  cases hrender
  refine ⟨(validate_eq_ok_iff.mp hvalid).1, ?_⟩
  have htext : (String.ofList (body.fill template.value)).toList = body.fill template.value :=
    String.toList_ofList
  unfold readDocument Yaml.read Yaml.Stream.ofText at hdocument
  rw [htext, Yaml.forbiddenOffset?_clean _ _ h.clean] at hdocument
  dsimp only at hdocument
  rw [Yaml.unifyBreaks_clean _ h.clean] at hdocument
  unfold Lexer.Accepted
  generalize hstream : Yaml.Stream.read Document.read _ = result at hdocument
  cases result with
  | error fault => cases hdocument
  | ok found =>
    cases hdocument
    exact hstream

theorem isInline_of_isBare {c : Char} (h : isBare c = true) : Yaml.IsInline c ∧ c ≠ '"' := by
  simp only [isBare, Bool.and_eq_true, decide_eq_true_eq, bne_iff_ne, ne_eq] at h
  obtain ⟨⟨⟨hlow, hhigh⟩, hquote⟩, -⟩ := h
  have houtside : ∀ d : Char, d.toNat < 0x20 ∨ 0x7E < d.toNat → c ≠ d := by
    rintro d hd rfl
    omega
  refine ⟨⟨?_, houtside _ (.inl (by decide)), houtside _ (.inr (by decide))⟩, hquote⟩
  unfold Yaml.isBreak
  simp [houtside '\n' (.inl (by decide)), houtside '\u2028' (.inr (by decide)),
    houtside '\u2029' (.inr (by decide))]

/-! ## A name with a comment -/

/-- **Of a name with a comment the workflow keeps the word only**, and its task keeps everything. -/
theorem renderDocument_commented {word comment : String}
    (h : ({ template with name := word } : Template).PlainSafe)
    (hname : template.name = word ++ " #" ++ comment)
    (hcomment : ∀ c ∈ comment.toList, isBare c = true) :
    template.renderDocument = .ok { template.document with name := word } := by
  have hchars : template.name.toList = word.toList ++ ' ' :: '#' :: comment.toList := by
    rw [hname, String.toList_append, String.toList_append, List.append_assoc]
    rfl
  have hbare : ∀ c ∈ template.name.toList, isBare c = true := by
    rw [hchars]
    exact List.forall_mem_append.mpr ⟨Yaml.isBare_of_safe h.name,
      List.forall_mem_cons.mpr ⟨by decide, List.forall_mem_cons.mpr ⟨by decide, hcomment⟩⟩⟩
  have hvalid : template.validate = .ok () := by
    refine validate_eq_ok_iff.mpr ⟨fun hempty => ?_, fun hempty => ?_⟩
    · rw [hempty] at hchars
      exact absurd hchars (by simp)
    · have himage := h.imageUrl
      rw [hempty] at himage
      exact absurd himage (by decide)
  have hword : Yaml.Layout.IsWord word.toList :=
    Yaml.isWord_of_plain (Yaml.isPlainWord_of_safe h.name)
  have hlayout : (Layout.commented word comment (.string word)).Gives 0 fun node =>
      Yaml.Reader.Takes 127 Source.text node (String.ofList word.toList) :=
    gives_text (Yaml.Layout.gives_commented hword fun c hc =>
      ⟨(isInline_of_isBare (hcomment c hc)).1.1, Yaml.Layout.isClean_of_isBare (hcomment c hc)⟩)
  rw [String.ofList_toList] at hlayout
  have htask : Yaml.Layout.Proper true 2 template.taskLayout :=
    proper_task hbare h.device h.readable
  -- The text does not say whether a layout with a word or with a comment was meant.
  have htext : (String.ofList (body.fill template.value)).toList = Layout.membersText ['\n'] 0
      (membersNamed (.commented word comment (.string word)) template.taskLayout) := by
    have hline : (Layout.word template.name).text false
        = (Layout.commented word comment (.string word)).text false := by
      unfold Layout.word
      rw [Layout.text, Layout.text, hchars]
      simp
    rw [String.toList_ofList, fill_body]
    unfold layoutMembers membersNamed
    simp only [Layout.membersText, hline]
  have hnames :
      ∀ member ∈ membersNamed (.commented word comment (.string word)) template.taskLayout,
      Yaml.Layout.IsName member.1 := by
    iterate 3 refine List.forall_mem_cons.mpr ⟨isName_literal rfl rfl, ?_⟩
    exact List.forall_mem_singleton.mpr (isName_literal rfl rfl)
  have hread : Yaml.read Document.read (String.ofList (body.fill template.value))
      = .ok { template.document with name := word } :=
    Layout.read_members (.inr rfl) htext hnames (gives_members hlayout htask)
      fun head parts named hlabels hnamed =>
      takes_members (reads_task Yaml.Reader.yamlReading h.readable) hlabels hnamed
  exact renderDocument_of_read hvalid hread

/-- A template whose name has a comment. -/
def commented : Template := new "m1 # x" "i"

theorem commented_allBare : commented.AllBare :=
  ⟨List.all_eq_true.mp (by decide), nofun, List.all_eq_true.mp (by decide), nofun, nofun, nofun⟩

theorem renderDocument_of_commented :
    commented.renderDocument = .ok { commented.document with name := "m1" } := by
  have hsafe : ({ commented with name := "m1" } : Template).PlainSafe :=
    ⟨by decide, by decide, .inl rfl, .inl rfl, by decide, nofun, nofun⟩
  exact renderDocument_commented hsafe rfl
    (List.all_eq_true.mp (by decide : " x".toList.all isBare = true))

/-! ## The name and the worker -/

/--
**What is read back of the name and the worker.**

Whenever a text of printable fields is read, its first task has the name and the worker. The
workflow itself has the name just if that is a plain scalar as a whole.
-/
theorem readBack_name (h : template.AllBare) (hread : template.renderDocument = .ok document) :
    (∃ task others, document.tasks = task :: others ∧ task.name = template.name ∧
        task.worker = template.effectiveDevice) ∧
      (document.name = template.name ↔ Yaml.IsScalarLine template.name.toList) := by
  obtain ⟨hne, haccepted⟩ := h.accepted hread
  obtain ⟨lexer, ⟨mark, hmark, hat⟩, hlexer⟩ := haccepted.reaches (reaches_name template)
  have hremains : Lexer.Remains template.name.toList (' ' :: template.name.toList) :=
    ⟨[], rfl, nofun⟩
  have hvalue := hlexer.value (fun c hc => isInline_of_isBare (h.name c hc))
    (startsLine_belowName template)
    (repeats_name template) hat (Nat.pos_iff_ne_zero.mp hmark) hremains attains_name
  cases hvalue with
  | collection hlast hdelivers hattains =>
    obtain ⟨builder, root, scope, followed, hopen, hbegins, hroot⟩ :=
      hlast.attained hdelivers hattains
    exact absurd hroot (not_read_of_open hopen hbegins)
  | @scalar _ _ text rest n hlast hfaces hattains hline hhead htells =>
    obtain ⟨next, hdelivers, hnext⟩ := hlast.reaches (reaches_task h.name h.effectiveDevice hfaces)
    obtain ⟨builder, root, scope, followed, ⟨node, hcut, hbegun⟩, hbegins, hroot⟩ :=
      hnext.attained hdelivers (attains_task hattains)
    rw [hcut] at hbegins
    obtain ⟨hname, htask⟩ := hbegun.reads hbegins hroot
    refine ⟨htask, ?_⟩
    -- One of the spaces in front of the value is that of the line, and the others are those
    -- of the name.
    obtain ⟨k, rfl, hsplit⟩ : ∃ k, n = k + 1 ∧ template.name.toList = Yaml.spaces k ++ rest := by
      cases n with
      | zero => exact absurd (congrArg List.head? hline).symm hhead
      | succ k => exact ⟨k, rfl, (List.cons.inj hline).2⟩
    have hnonempty : Yaml.spaces k ++ rest ≠ [] :=
      fun hnil => hne (String.toList_eq_nil_iff.mp (hsplit.trans hnil))
    have hiff := (htells.indented k).exactly hnonempty
    rw [← hsplit] at hiff
    rw [← hiff, hname, ← String.toList_inj, String.toList_ofList]

/-- The name of a workflow is not always read back: here the comment is missing. -/
theorem name_of_commented_is_not_readBack :
    ¬∀ (template : Template) (document : Document), template.AllBare →
      template.renderDocument = .ok document →
      ∃ task others, document.tasks = task :: others ∧ document.name = template.name ∧
        task.name = template.name ∧ task.worker = template.effectiveDevice := by
  intro h
  obtain ⟨_, _, _, hname, _, _⟩ := h commented _ commented_allBare renderDocument_of_commented
  exact absurd hname (by decide)

theorem readBack_name_commented :
    commented.AllBare ∧ commented.renderDocument = .ok { commented.document with name := "m1" } ∧
      (∃ task others, commented.document.tasks = task :: others ∧ task.name = commented.name ∧
        task.worker = commented.effectiveDevice) ∧
      ("m1" = commented.name ↔ Yaml.IsScalarLine commented.name.toList) :=
  ⟨commented_allBare, renderDocument_of_commented,
    readBack_name commented_allBare renderDocument_of_commented⟩

end Provisioning.Workflow.Template
