import Provisioning.Proofs.Workflow.BodyLayout
import Provisioning.Proofs.Yaml.Fields
import Provisioning.Proofs.Yaml.ValueLine

/-!
# The lines that hold the name of a workflow

Of the text of a workflow only the lines up to the worker of the task are followed here. Those in
front of the name lead to its value (`reaches_name`), whatever it is, and those behind it lead from
the key below it to the worker (`reaches_task`). The tokens of these lines build the first parts of
the document (`attains_name`, `attains_task`), and whatever else the document has, the name of the
workflow and the name and the worker of its first task are read of these parts (`Begun.reads`).
-/

namespace Provisioning.Workflow.Template

open Yaml (Builder Layout Lexer Mark Node NodeHead Reader ScalarStyle StartsLine Token lead spaces)
open Yaml.Layout (Leads faces_behindDash faces_name faces_start isBare isName_literal leads_member
  leads_of_proper isQuotable_of_isBare leads_quoted membersText opened_deeper opened_level
  proper_natural startsLine_dash)
open Yaml.Lexer (Faces Repeats)
open Yaml.Pending (Settled)
open Yaml.Builder (Attains Feeds NextKey ValueDue ValueOpen)
open Yaml.Node (Begins)

variable {template : Template} {text : List Char} {kinds : List Token.Kind} {builder : Builder}

/-! ## The nodes -/

/-- The parts of the document up to the key of the name, the latest first. -/
inductive NameKey : List Node → Prop where
  | key {version number name : NodeHead} : NameKey [.scalar name "name".toList .plain,
      .scalar number "0.1".toList .doubleQuoted, .scalar version "version".toList .plain]

/-- The kinds of the tokens up to the value of the name. -/
def nameKinds : List Token.Kind := [.blockMappingStart,
  .key, .scalar "version".toList .plain, .value, .scalar "0.1".toList .doubleQuoted,
  .key, .scalar "name".toList .plain, .value]

theorem attains_name : Attains nameKinds (ValueDue NameKey) := by
  refine Feeds.attains ?_
  unfold nameKinds
  iterate 8 refine fun _ _ => ⟨_, rfl, ?_⟩
  exact ⟨⟨rfl, rfl, nofun⟩, .due .key rfl rfl rfl rfl fun _ => ⟨rfl, rfl⟩⟩

/-- **The first parts of the document**, where the name of the workflow is read as some text. -/
inductive Begun (template : Template) (text : List Char) : Node → Prop where
  | begun {head version number name value timeout seconds tasks list task taskName nameValue worker
      device : NodeHead} {style : ScalarStyle} :
      Begun template text (.mapping head [.scalar version "version".toList .plain,
        .scalar number "0.1".toList .doubleQuoted, .scalar name "name".toList .plain,
        .scalar value text style, .scalar timeout "global_timeout".toList .plain,
        .scalar seconds (String.ofList (Number.decimal 6000)).toList .plain,
        .scalar tasks "tasks".toList .plain,
        .sequence list [.mapping task [.scalar taskName "name".toList .plain,
          .scalar nameValue template.name.toList .doubleQuoted,
          .scalar worker "worker".toList .plain,
          .scalar device template.effectiveDevice.toList .doubleQuoted] false] false] false)

/-- The kinds of the tokens from the next key on up to the worker of the task. -/
def taskKinds (template : Template) : List Token.Kind := [
  .scalar "global_timeout".toList .plain, .value,
  .scalar (String.ofList (Number.decimal 6000)).toList .plain,
  .key, .scalar "tasks".toList .plain, .value, .blockSequenceStart, .blockEntry, .blockMappingStart,
  .key, .scalar "name".toList .plain, .value, .scalar template.name.toList .doubleQuoted,
  .key, .scalar "worker".toList .plain, .value,
  .scalar template.effectiveDevice.toList .doubleQuoted]

theorem attains_task (h : Attains kinds (NextKey NameKey text)) :
    Attains (kinds ++ template.taskKinds)
    fun builder => ∃ node, Builder.cut none builder.stack = some node ∧
      Begun template text node := by
  refine h.feeds fun builder hnext => ?_
  obtain ⟨stage, awaited, stack, root, anchors, handles, steps⟩ := builder
  obtain ⟨⟨⟩, hstage, hstack, hawaited⟩ := hnext
  cases hstage
  cases hstack
  cases hawaited
  unfold taskKinds
  iterate 17 refine fun _ _ => ⟨_, rfl, ?_⟩
  exact ⟨nofun, _, rfl, .begun⟩

/-! ## The text -/

/-- The text below the line with the name of the workflow. -/
def belowName (template : Template) : List Char := membersText [] 0 [
  ("global_timeout", .plain (String.ofList (Number.decimal 6000)) (.int 6000)),
  ("tasks", .sequence 2 [template.taskLayout])]

theorem startsLine_belowName (template : Template) : StartsLine template.belowName :=
  (isName_literal rfl rfl : Yaml.Layout.IsName "global_timeout").startsLine _

theorem fill_name (template : Template) :
    body.fill template.value
      = lead 1 0 ++ ("version".toList ++ ':' :: ((Layout.quoted "0.1").text false ++
          (lead 0 0 ++ ("name".toList ++ ':' :: (' ' :: template.name.toList ++ '\n' ::
            template.belowName))))) := by
  rw [fill_body]
  unfold layoutMembers belowName
  simp [membersText, Layout.text, lead, spaces, Layout.word]

/-- **From the beginning of the text to the name.** -/
theorem reaches_name (template : Template) :
    (Lexer.ofText (body.fill template.value)).Reaches fun next => ∃ mark : Mark, 0 < mark.column ∧
      next.At (' ' :: template.name.toList ++ '\n' :: template.belowName) mark [0] false
        (Settled nameKinds) [] := by
  have hversion : Yaml.Layout.IsName "version" := isName_literal rfl rfl
  have hname : Yaml.Layout.IsName "name" := isName_literal rfl rfl
  have hquoted : Leads false 0 (.quoted "0.1") := leads_quoted (List.all_eq_true.mp (by decide))
  have hmargin : Lexer.marginOf [] ≤ 0 := Nat.le_refl 0
  rw [fill_name]
  refine (leads_member hversion hquoted (hname.startsLine _) (Nat.le_refl 0) (by simp)
    (opened_deeper _ hmargin) (faces_start (hversion.startsLine _) 1)).trans fun lexer hfaces => ?_
  refine (faces_name hname rfl (by simp) hfaces).trans fun next hkey => ?_
  rw [opened_level] at hkey
  exact .refl hkey

/-- **The name stands a second time further below**, in double quotes. -/
theorem repeats_name (template : Template) : Repeats template.name.toList template.belowName := by
  have hseconds : Number.decimal 6000 = ['6', '0', '0', '0'] := by decide
  have hbefore : '\'' ∉ "global_timeout: 6000\ntasks:\n  - name: \"".toList := by decide
  have hworker : Yaml.Layout.IsName "worker" := isName_literal rfl rfl
  obtain ⟨c, word, hplain, hword⟩ := hworker.word.plain
  have hshort := hworker.short
  rw [hplain] at hshort
  have htext : template.belowName = "global_timeout: 6000\ntasks:\n  - name: \"".toList
      ++ (template.name.toList ++
      '"' :: '\n' :: (lead 0 4
        ++ (c :: word ++ ':' :: ((Layout.quoted template.effectiveDevice).text false ++
        (membersText (spaces 4) 4 [("volumes", .sequence 6 (volumes.map Layout.word)),
          ("actions", .sequence 6 (template.steps.map Step.layout))]))))) := by
    unfold belowName taskLayout
    rw [← hplain]
    simp [membersText, Layout.itemsText, Layout.text, hseconds, lead, spaces]
  rw [htext]
  exact .again (fun d hd => ne_of_mem_of_not_mem hd hbefore) (by decide) hword hshort rfl

/-- **From the line below the name up to the worker of the task.** -/
theorem reaches_task {lexer : Lexer} (hname : ∀ c ∈ template.name.toList, isBare c = true)
    (hdevice : ∀ c ∈ template.effectiveDevice.toList, isBare c = true)
    (h : lexer.Faces template.belowName 0 [0] kinds) :
    lexer.Reaches fun next => next.Delivers (kinds ++ [.key] ++ template.taskKinds) := by
  have htimeoutName : Yaml.Layout.IsName "global_timeout" := isName_literal rfl rfl
  have htasksName : Yaml.Layout.IsName "tasks" := isName_literal rfl rfl
  have hnameName : Yaml.Layout.IsName "name" := isName_literal rfl rfl
  have hworkerName : Yaml.Layout.IsName "worker" := isName_literal rfl rfl
  have hvolumesName : Yaml.Layout.IsName "volumes" := isName_literal rfl rfl
  have hdigits : Yaml.isPlainWord (Number.decimal 6000) = true := by decide
  have htimeout : Leads false 0 (.plain (String.ofList (Number.decimal 6000)) (.int 6000)) :=
    leads_of_proper (proper_natural hdigits (by decide))
  have htext : template.belowName = "global_timeout".toList ++ ':' ::
      ((Layout.plain (String.ofList (Number.decimal 6000)) (.int 6000)).text false ++
        (lead 0 0 ++ ("tasks".toList ++ ':' :: '\n' ::
          (lead 0 2 ++ '-' :: ' ' :: ("name".toList ++ ':' ::
            ((Layout.quoted template.name).text false ++
              (lead 0 4 ++ ("worker".toList ++ ':' ::
                ((Layout.quoted template.effectiveDevice).text false ++
                  (lead 0 4 ++ ("volumes".toList ++ ':' ::
                    ((Layout.sequence 6 (volumes.map Layout.word)).text false ++
                      membersText (spaces 4) 4 [("actions",
                        .sequence 6 (template.steps.map Step.layout))])))))))))))) := by
    unfold belowName taskLayout
    simp [membersText, Layout.itemsText, Layout.text, lead, spaces]
  rw [htext] at h
  refine (leads_member htimeoutName htimeout (htasksName.startsLine _) (Nat.le_refl 0) (by simp)
    (opened_level _) h).trans fun lexer h => ?_
  refine (faces_name htasksName rfl (by simp) h).trans ?_
  rintro lexer ⟨mark, -, h⟩
  rw [opened_level] at h
  have hfaces := (h.imp fun _ => Settled.loose).faces_line (startsLine_dash _)
  refine (hfaces.dash rfl (by simp)).trans ?_
  rintro lexer ⟨mark, hmark, h⟩
  rw [opened_deeper _ (by simp [Lexer.marginOf])] at h
  have hfaces := faces_behindDash h (hnameName.startsLine _) (congrArg (· + 1) hmark)
  refine (leads_member hnameName (leads_quoted fun c hc => isQuotable_of_isBare (hname c hc))
    (hworkerName.startsLine _) (Nat.le_refl 4) (by simp)
    (opened_deeper _ (by simp [Lexer.marginOf])) hfaces).trans fun lexer h => ?_
  refine (leads_member hworkerName (leads_quoted fun c hc => isQuotable_of_isBare (hdevice c hc))
    (hvolumesName.startsLine _) (Nat.le_refl 4) (by simp)
    (opened_level _) h).trans fun lexer h => ?_
  refine (faces_name hvolumesName rfl (by simp) h).trans ?_
  rintro lexer ⟨mark, -, h⟩
  have hdelivers := h.delivers.front.front.front.front
  refine .refl ?_
  simpa [taskKinds, Layout.kinds] using hdelivers

/-! ## What is read of the nodes -/

section

variable {scope : Yaml.Scope} {further : List Node} {head key : NodeHead} {style : ScalarStyle}
  {value : Node} {closed : Bool} {followed followed' : Nat} {document : Document} {task : Task}

/-- The name of a document was read from the value of the key of that name. -/
theorem readDocument_name (front : List Node) (heven : front.length % 2 = 0)
    (h : (Document.read : Reader Document) scope
      (.mapping head (front ++ .scalar key "name".toList style :: value :: further) closed) followed
        = .ok (document, followed')) :
    ∃ inner m n, (Source.text : Reader String) inner value m = .ok (document.name, n) := by
  refine Reader.record_field rfl (fun _ _ => rfl) (fun field hfield hname => ?_) heven h
  simp only [Document.shape, List.mem_cons, List.not_mem_nil, or_false] at hfield
  rcases hfield with rfl | rfl | rfl | rfl
  · exact Reader.spares_of fun _ _ => rfl
  · exact absurd rfl hname
  all_goals exact Reader.spares_of fun _ _ => rfl

/-- And so were its tasks. -/
theorem readDocument_tasks (front : List Node) (heven : front.length % 2 = 0)
    (h : (Document.read : Reader Document) scope
      (.mapping head (front ++ .scalar key "tasks".toList style :: value :: further) closed)
        followed = .ok (document, followed')) :
    ∃ inner m n, (Source.list Task.read : Reader (List Task)) inner value m
      = .ok (document.tasks, n) := by
  refine Reader.record_field rfl (fun _ _ => rfl) (fun field hfield hname => ?_) heven h
  simp only [Document.shape, List.mem_cons, List.not_mem_nil, or_false] at hfield
  rcases hfield with rfl | rfl | rfl | rfl
  iterate 3 exact Reader.spares_of fun _ _ => rfl
  exact absurd rfl hname

theorem readTask_name (front : List Node) (heven : front.length % 2 = 0)
    (h : (Task.read : Reader Task) scope
      (.mapping head (front ++ .scalar key "name".toList style :: value :: further) closed) followed
        = .ok (task, followed')) :
    ∃ inner m n, (Source.text : Reader String) inner value m = .ok (task.name, n) := by
  refine Reader.record_field rfl (fun _ _ => rfl) (fun field hfield hname => ?_) heven h
  simp only [Task.shape, List.mem_cons, List.not_mem_nil, or_false] at hfield
  rcases hfield with rfl | rfl | rfl | rfl
  · exact absurd rfl hname
  all_goals exact Reader.spares_of fun _ _ => rfl

theorem readTask_worker (front : List Node) (heven : front.length % 2 = 0)
    (h : (Task.read : Reader Task) scope
      (.mapping head (front ++ .scalar key "worker".toList style :: value :: further) closed)
        followed = .ok (task, followed')) :
    ∃ inner m n, (Source.text : Reader String) inner value m = .ok (task.worker, n) := by
  refine Reader.record_field rfl (fun _ _ => rfl) (fun field hfield hname => ?_) heven h
  simp only [Task.shape, List.mem_cons, List.not_mem_nil, or_false] at hfield
  rcases hfield with rfl | rfl | rfl | rfl
  · exact Reader.spares_of fun _ _ => rfl
  · exact absurd rfl hname
  all_goals exact Reader.spares_of fun _ _ => rfl

theorem text_of_scalar {name : String} {chars : List Char}
    (h : (Source.text : Reader String) scope (.scalar head chars style) followed
      = .ok (name, followed')) :
    name = String.ofList chars :=
  (Reader.textAs_ok h).1

/-- **What is read of a document that begins like that.** -/
theorem Begun.reads {node root : Node} (h : Begun template text node)
    (hbegins : Begins [node] [root])
    (hread : (Document.read : Reader Document) scope root followed = .ok (document, followed')) :
    document.name = String.ofList text ∧ ∃ task others, document.tasks = task :: others ∧
      task.name = template.name ∧ task.worker = template.effectiveDevice := by
  obtain ⟨⟩ := h
  -- What grew is the list of tasks and the task in it, behind the parts that are known.
  obtain ⟨parts, _, _, hroot, hparts⟩ := hbegins.ofMapping
  cases hroot
  obtain ⟨_, rfl, hlist⟩ := @Begins.behind _ [] _ [_, _, _, _, _, _, _] hparts
  obtain ⟨items, _, _, rfl, hitems⟩ := hlist.ofSequence
  obtain ⟨taskParts, _, _, rfl, htask⟩ := hitems.ofMapping
  obtain ⟨_, rfl, hdevice⟩ := @Begins.behind _ [] _ [_, _, _] htask
  obtain ⟨_, rfl⟩ := hdevice.ofScalar
  obtain ⟨_, _, _, hname⟩ := readDocument_name [_, _] (by simp) hread
  obtain ⟨_, _, _, htasks⟩ := readDocument_tasks [_, _, _, _, _, _] (by simp) hread
  obtain ⟨task, others, _, _, _, hfirst, hreadTask⟩ := Reader.list_ok htasks
  obtain ⟨_, _, _, htaskName⟩ := readTask_name [] (by simp) hreadTask
  obtain ⟨_, _, _, hworker⟩ := readTask_worker [_, _] (by simp) hreadTask
  refine ⟨text_of_scalar hname, task, others, hfirst, ?_, ?_⟩
  · rw [text_of_scalar htaskName, String.ofList_toList]
  · rw [text_of_scalar hworker, String.ofList_toList]

/-- **A collection is read as no name.** -/
theorem not_read_of_open (h : ValueOpen NameKey builder) {root : Node}
    (hbegins : Begins (Builder.cut none builder.stack).toList [root]) :
    (Document.read : Reader Document) scope root followed ≠ .ok (document, followed') := by
  intro hread
  obtain ⟨⟨⟩, hstack⟩ := h
  rename_i collection _ _ _ _ _
  rw [hstack] at hbegins
  obtain ⟨parts, _, _, hroot, hparts⟩ := hbegins.ofMapping
  cases hroot
  obtain ⟨others, rfl, hvalue⟩ := @Begins.behind (collection.toNode false) [] _ [_, _, _] hparts
  unfold Yaml.OpenNode.toNode at hvalue
  split at hvalue
  · obtain ⟨_, _, _, rfl, -⟩ := hvalue.ofMapping
    obtain ⟨_, _, _, hname⟩ := readDocument_name [_, _] (by simp) hread
    exact Reader.textAs_collection.2 hname
  · obtain ⟨_, _, _, rfl, -⟩ := hvalue.ofSequence
    obtain ⟨_, _, _, hname⟩ := readDocument_name [_, _] (by simp) hread
    exact Reader.textAs_collection.1 hname

end

end Provisioning.Workflow.Template
