import Provisioning.Proofs.Workflow.JsonForm
import Provisioning.Proofs.Yaml.Acceptance
import Provisioning.Proofs.Yaml.JsonText
import Provisioning.Workflow.Template

/-!
# JSON texts of workflow documents, read as YAML

The compact JSON text of a document is also a YAML text, and says the same. Besides what JSON
cannot hold there are limits that only YAML has: some characters may not stand in a text as they
are, a key is found only if its colon is near, and one more collection may lie within another.
How near is counted in bytes, so a bound on the characters of keys would not do.
That the quotes of a text are never lost on the way is what keeps it from becoming a number, a
truth value or null.
-/

namespace Provisioning

open Json (IsShort ShortName writeString)
open Yaml (isDirect)
open Partners

/-- How many collections may lie within one another in a value of an environment that is read
from YAML: 128 in all, less the six around it. -/
def Workflow.yamlLevels : Nat := 122

/-- A value whose JSON text YAML reads as the value: no tags and no floating-point numbers, only
texts as keys, which are short in some sense, only direct characters, and the depth is not too
great. -/
structure Value.YamlSafe (short : String → Prop) (value : Value) : Prop where
  untagged : ∀ tag inner, ¬ Value.Part (.tagged tag inner) value
  noFloat : ∀ x, ¬ Value.Part (.float x) value
  texts : ∀ text, Value.Part (.text text) value → ∀ c ∈ text.toList, isDirect c = true
  keys : ∀ entries, Value.Part (.mapping entries) value → ∀ entry ∈ entries,
    ∃ name, entry.1 = .text name ∧ short name
  depth : value.depth ≤ Workflow.yamlLevels

namespace Json

/-- The members that are not left out make an object. -/
theorem portable_ofMembers {members : List (Option (String × Json))}
    (h : ∀ member ∈ members, ∀ written, member = some written →
      ShortName written.1 ∧ written.2.Portable) : (ofMembers members).Portable := by
  have hwritten : ∀ written ∈ members.filterMap id, ShortName written.1 ∧ written.2.Portable := by
    intro written hwritten
    obtain ⟨member, hmember, heq⟩ := List.mem_filterMap.mp hwritten
    exact h member hmember written heq
  exact .object (fun written hmem => (hwritten written hmem).1) fun written hmem =>
    (hwritten written hmem).2

theorem portable_seconds (seconds : UInt64) : (Json.int seconds.toNat).Portable := by
  have hlt := seconds.toNat_lt
  exact .int (by omega) (by omega)

end Json

namespace Value

variable {levels : Nat} {value : Value}

/-- **The JSON form of a plain value is portable** if its texts are direct and its keys short. -/
theorem Plain.toJson_portable (h : Plain NoFloat levels value) (hlawful : value.Lawful)
    (htexts : ∀ text, Part (.text text) value → ∀ c ∈ text.toList, isDirect c = true)
    (hkeys : ∀ entries, Part (.mapping entries) value → ∀ entry ∈ entries,
      ∃ name, entry.1 = .text name ∧ IsShort name) :
    ∀ json, value.toJson = .ok json → json.Portable := by
  induction h with
  | null => intro json hjson; cases hjson; exact .null
  | bool value => intro json hjson; cases hjson; exact .bool
  | int value =>
    intro json hjson
    cases hjson
    obtain ⟨hlow, hhigh⟩ := hlawful.ints value (.self _)
    exact .int hlow hhigh
  | float h => exact h.elim
  | text value => intro json hjson; cases hjson; exact .string (htexts value (.self _))
  | @sequence levels items _ ih =>
    intro json hjson
    rw [toJson] at hjson
    obtain ⟨jsons, hjsons, hjson⟩ := Outcome.bind_eq_ok.mp hjson
    cases hjson
    refine .array fun json hmem => ?_
    obtain ⟨item, hitem, hform⟩ := exists_partner (itemsToJson_iff.mp hjsons).flip json hmem
    exact ih item hitem (hlawful.item hitem) (fun text hpart => htexts text (.item hitem hpart))
      (fun entries hpart => hkeys entries (.item hitem hpart)) json hform
  | @mapping levels entries _ _ ih =>
    intro json hjson
    rw [toJson] at hjson
    obtain ⟨members, hmembers, hjson⟩ := Outcome.bind_eq_ok.mp hjson
    cases hjson
    have hforms := (entriesToJson_iff.mp hmembers).flip
    refine .object (fun member hmem => ?_) (fun member hmem => ?_)
    · obtain ⟨entry, hentry, hname, -⟩ := exists_partner hforms member hmem
      obtain ⟨name, hkey, hshort⟩ := hkeys entries (.self _) entry hentry
      rw [hkey] at hname
      cases hname
      -- The key is a part of the value as well, so its characters are direct.
      exact ⟨htexts _ (.key hentry (hkey ▸ .self _)), hshort⟩
    · obtain ⟨entry, hentry, -, hform⟩ := exists_partner hforms member hmem
      exact ih entry hentry (hlawful.value hentry)
        (fun text hpart => htexts text (.value hentry hpart))
        (fun entries hpart => hkeys entries (.value hentry hpart)) member.2 hform

end Value

namespace Workflow

/-- The texts of an action outside of its environment. -/
def Action.texts (action : Action) : List String :=
  action.name :: action.image :: action.pid.toList

/-- The texts of a task outside of the environments. -/
def Task.texts (task : Task) : List String :=
  task.name :: task.worker :: (task.volumes ++ task.actions.flatMap Action.texts)

namespace Document

/-- The texts of a document outside of the environments. -/
def texts (document : Document) : List String :=
  document.version.toList ++ document.name :: document.tasks.flatMap Task.texts

/-- **A document whose JSON text YAML reads as the document**: its texts are direct, the names
and values of its environments are safe. -/
structure YamlSafe (short : String → Prop) (document : Document) : Prop where
  texts : ∀ text ∈ document.texts, ∀ c ∈ text.toList, isDirect c = true
  names : ∀ action ∈ document.actions, ∀ entry ∈ action.environment.entries,
    (∀ c ∈ entry.1.toList, isDirect c = true) ∧ short entry.1
  values : ∀ value ∈ document.values, value.YamlSafe short

end Document

/-- The names of fields are short. -/
theorem shortName_field : ∀ name ∈ ["version", "name", "global_timeout", "tasks",
    "worker", "volumes", "actions", "image", "timeout", "pid", "environment"], ShortName name := by
  simp only [List.forall_mem_cons]
  refine ⟨?_, ?_, ?_, ?_, ?_, ?_, ?_, ?_, ?_, ?_, ?_, by simp⟩ <;>
    exact ⟨List.all_eq_true.mp (by decide), by decide⟩

theorem portable_member {name : String} {json : Json} (hname : ShortName name) (h : json.Portable) :
    ∀ written, Json.member name json = some written → ShortName written.1 ∧ written.2.Portable := by
  intro written heq
  cases heq
  exact ⟨hname, h⟩

theorem portable_member? {name : String} {json : Option Json} (hname : ShortName name)
    (h : ∀ form, json = some form → form.Portable) :
    ∀ written, Json.member? name json = some written → ShortName written.1 ∧
      written.2.Portable := by
  intro written heq
  obtain ⟨form, hform, rfl⟩ := Option.map_eq_some_iff.mp heq
  exact ⟨hname, h form hform⟩

theorem portable_seconds? {seconds : Option UInt64} :
    ∀ form, seconds.map (fun seconds => Json.int seconds.toNat) = some form → form.Portable := by
  intro form hform
  obtain ⟨seconds, -, rfl⟩ := Option.map_eq_some_iff.mp hform
  exact Json.portable_seconds seconds

theorem portable_text? {text : Option String}
    (h : ∀ value ∈ text.toList, ∀ c ∈ value.toList, isDirect c = true) :
    ∀ form, text.map Json.string = some form → form.Portable := by
  intro form hform
  obtain ⟨value, rfl, rfl⟩ := Option.map_eq_some_iff.mp hform
  exact .string (h value (by simp))

theorem Action.toJson_portable {action : Action} {json : Json} (h : action.toJson = .ok json)
    (htexts : ∀ text ∈ action.texts, ∀ c ∈ text.toList, isDirect c = true)
    (hnames : ∀ entry ∈ action.environment.entries, ShortName entry.1)
    (hvalues : ∀ entry ∈ action.environment.entries, ∀ form,
      entry.2.toJson = .ok form → form.Portable) : json.Portable := by
  obtain ⟨members, hmembers, h⟩ := Outcome.bind_eq_ok.mp h
  cases h
  obtain ⟨hname, htexts⟩ := List.forall_mem_cons.mp htexts
  obtain ⟨himage, hpid⟩ := List.forall_mem_cons.mp htexts
  have henvironment : (Json.object members).Portable := by
    refine .object (fun member hmem => ?_) (fun member hmem => ?_)
    · obtain ⟨entry, hentry, hmember⟩ := exists_partner (mapM_eq_ok.mp hmembers).flip member hmem
      obtain ⟨form, -, heq⟩ := Outcome.bind_eq_ok.mp hmember
      cases heq
      exact hnames entry hentry
    · obtain ⟨entry, hentry, hmember⟩ := exists_partner (mapM_eq_ok.mp hmembers).flip member hmem
      obtain ⟨form, hform, heq⟩ := Outcome.bind_eq_ok.mp hmember
      cases heq
      exact hvalues entry hentry form hform
  refine Json.portable_ofMembers ?_
  simp only [List.forall_mem_cons]
  refine ⟨portable_member (shortName_field _ (by simp)) (.string hname),
    portable_member (shortName_field _ (by simp)) (.string himage),
    portable_member? (shortName_field _ (by simp)) portable_seconds?,
    portable_member? (shortName_field _ (by simp)) (portable_text? hpid),
    portable_member? (shortName_field _ (by simp)) ?_, by simp⟩
  intro form hform
  split at hform
  · exact absurd hform (by simp)
  · cases hform
    exact henvironment

theorem Task.toJson_portable {task : Task} {json : Json} (h : task.toJson = .ok json)
    (htexts : ∀ text ∈ task.texts, ∀ c ∈ text.toList, isDirect c = true)
    (hactions : ∀ action ∈ task.actions, ∀ form, action.toJson = .ok form → form.Portable) :
    json.Portable := by
  obtain ⟨forms, hforms, h⟩ := Outcome.bind_eq_ok.mp h
  cases h
  obtain ⟨hname, htexts⟩ := List.forall_mem_cons.mp htexts
  obtain ⟨hworker, htexts⟩ := List.forall_mem_cons.mp htexts
  have hvolumes : (Json.array (task.volumes.map .string)).Portable := by
    refine .array fun json hmem => ?_
    obtain ⟨volume, hvolume, rfl⟩ := List.mem_map.mp hmem
    exact .string (htexts volume (List.mem_append_left _ hvolume))
  refine Json.portable_ofMembers ?_
  simp only [List.forall_mem_cons]
  refine ⟨portable_member (shortName_field _ (by simp)) (.string hname),
    portable_member (shortName_field _ (by simp)) (.string hworker),
    portable_member? (shortName_field _ (by simp)) ?_,
    portable_member (shortName_field _ (by simp)) (.array fun form hmem => ?_), by simp⟩
  · intro form hform
    split at hform
    · exact absurd hform (by simp)
    · cases hform
      exact hvolumes
  · obtain ⟨action, haction, hform⟩ := exists_partner (mapM_eq_ok.mp hforms).flip form hmem
    exact hactions action haction form hform

namespace Document

variable {document : Document}

theorem plain_of_yamlSafe {short : String → Prop} (h : document.YamlSafe short) :
    ∀ value ∈ document.values, value.Plain Value.NoFloat yamlLevels := by
  intro value hvalue
  have hsafe := h.values value hvalue
  refine Value.plain_of_parts value yamlLevels hsafe.untagged (fun x hx => hsafe.noFloat x hx) ?_
    hsafe.depth
  intro entries hpart entry hentry
  obtain ⟨name, hname, -⟩ := hsafe.keys entries hpart entry hentry
  exact ⟨name, hname⟩

/-- **The JSON form of a safe document is a portable object.** -/
theorem toJson_portable (hlawful : ∀ value ∈ document.values, value.Lawful)
    (h : document.YamlSafe IsShort) {json : Json} (hjson : document.toJson = .ok json) :
    ∃ members, json = .object members ∧ (Json.object members).Portable := by
  obtain ⟨forms, hforms, hjson⟩ := Outcome.bind_eq_ok.mp hjson
  cases hjson
  have hversion : ∀ text ∈ document.version.toList, ∀ c ∈ text.toList, isDirect c = true :=
    fun text htext => h.texts text (List.mem_append_left _ htext)
  have hname : ∀ c ∈ document.name.toList, isDirect c = true :=
    h.texts document.name (List.mem_append_right _ List.mem_cons_self)
  refine ⟨_, rfl, Json.portable_ofMembers ?_⟩
  simp only [List.forall_mem_cons]
  refine ⟨portable_member? (shortName_field _ (by simp)) (portable_text? hversion),
    portable_member (shortName_field _ (by simp)) (.string hname),
    portable_member? (shortName_field _ (by simp)) portable_seconds?,
    portable_member (shortName_field _ (by simp)) (.array fun form hmem => ?_), by simp⟩
  obtain ⟨task, htask, hform⟩ := exists_partner (mapM_eq_ok.mp hforms).flip form hmem
  refine Task.toJson_portable hform (fun text htext => ?_) fun action haction form hform => ?_
  · exact h.texts text (List.mem_append_right _ (List.mem_cons_of_mem _
      (List.mem_flatMap.mpr ⟨task, htask, htext⟩)))
  have hmember : action ∈ document.actions := List.mem_flatMap.mpr ⟨task, htask, haction⟩
  refine Action.toJson_portable hform (fun text htext => ?_) (h.names action hmember)
    fun entry hentry form hform => ?_
  · refine h.texts text (List.mem_append_right _ (List.mem_cons_of_mem _
      (List.mem_flatMap.mpr ⟨task, htask, ?_⟩)))
    exact List.mem_cons_of_mem _ (List.mem_cons_of_mem _ (List.mem_append_right _
      (List.mem_flatMap.mpr ⟨action, haction, htext⟩)))
  · have hvalue : entry.2 ∈ document.values :=
      mem_values_iff.mpr ⟨task, htask, action, haction, entry, hentry, rfl⟩
    have hsafe := h.values entry.2 hvalue
    exact (plain_of_yamlSafe h entry.2 hvalue).toJson_portable (hlawful entry.2 hvalue) hsafe.texts
      hsafe.keys form hform

/-- **YAML reads a safe document from its JSON text.** -/
theorem readDocument_toJson (document : Document)
    (hlawful : ∀ value ∈ document.values, value.Lawful) (h : document.YamlSafe IsShort) :
    ∃ json, document.toJson = .ok json ∧ Template.readDocument json.text = .ok document := by
  have hplain := plain_of_yamlSafe h
  have hforms : ∀ value ∈ document.values, ∃ json, value.toJson = .ok json ∧
      json.Fits yamlLevels := by
    intro value hvalue
    obtain ⟨json, hjson, hfits, -⟩ :=
      ((hplain value hvalue).kind fun _ _ => False.elim).toJson_fits (hlawful value hvalue)
    exact ⟨json, hjson, hfits⟩
  obtain ⟨json, hjson⟩ := Document.exists_toJson fun value hvalue =>
    (hforms value hvalue).imp fun _ => And.left
  obtain ⟨members, rfl, hportable⟩ := toJson_portable hlawful h hjson
  refine ⟨.object members, hjson, ?_⟩
  have hreads := Document.reads Yaml.Reader.yamlReading hjson fun value hvalue form hform => by
    obtain ⟨form', hform', hfits⟩ := hforms value hvalue
    rw [hform] at hform'
    cases hform'
    exact hfits
  rw [mapActions_eq_self fun value hvalue => (hplain value hvalue).throughJson_eq] at hreads
  unfold Template.readDocument
  rw [Yaml.read_text hportable hreads]
  rfl

/-- A document whose texts would be a number, a truth value and null without their quotes. -/
def quoted : Document :=
  let value :=
    Value.mapping [(.text "a: b", .sequence [.text "true", .int (-7), .null, .text "\n#\x00"])]
  ⟨some "0.1", "null", none,
    [⟨"~", "", [], [⟨"- x", "", some 0, none, ⟨[("010", value)], by simp⟩⟩]⟩]⟩

/-- The list in it. -/
def quotedItems : List Value := [.text "true", .int (-7), .null, .text "\n#\x00"]

theorem values_quoted : quoted.values = [.mapping [(.text "a: b", .sequence quotedItems)]] := rfl

theorem lawful_quoted : ∀ value ∈ quoted.values, value.Lawful := by
  rw [values_quoted, List.forall_mem_singleton]
  refine Value.lawful_mapping (List.pairwise_singleton _ _) ?_
  rw [List.forall_mem_singleton]
  refine ⟨Value.lawful_text _, Value.lawful_sequence ?_⟩
  simp only [quotedItems, List.forall_mem_cons]
  exact ⟨Value.lawful_text _, Value.lawful_int (by decide) (by decide), Value.lawful_null,
    Value.lawful_text _, by simp⟩

/-- All that lies within its value: the mapping, its key, the list and what the list has. -/
theorem part_quoted {part : Value}
    (h : Value.Part part (.mapping [(.text "a: b", .sequence quotedItems)])) :
    part ∈ .mapping [(.text "a: b", .sequence quotedItems)] :: .text "a: b" ::
      .sequence quotedItems :: quotedItems := by
  have hself : ∀ item ∈ quotedItems, Value.Part part item → part = item := by
    simp only [quotedItems, List.forall_mem_cons]
    refine ⟨?_, ?_, ?_, ?_, by simp⟩ <;>
      · intro hpart
        cases hpart
        rfl
  cases h with
  | self => exact List.mem_cons_self
  | key hmem hpart =>
    rw [List.mem_singleton.mp hmem] at hpart
    cases hpart
    simp
  | value hmem hpart =>
    rw [List.mem_singleton.mp hmem] at hpart
    cases hpart with
    | self => simp
    | item hmem hpart =>
      rw [hself _ hmem hpart]
      exact List.mem_cons_of_mem _ (List.mem_cons_of_mem _ (List.mem_cons_of_mem _ hmem))

theorem yamlSafe_quotedValue :
    (Value.mapping [(.text "a: b", .sequence quotedItems)]).YamlSafe IsShort where
  untagged tag inner hpart := by
    have hmem := part_quoted hpart
    simp [quotedItems] at hmem
  noFloat x hpart := by
    have hmem := part_quoted hpart
    simp [quotedItems] at hmem
  texts text hpart := by
    have hmem := part_quoted hpart
    simp only [quotedItems, List.mem_cons, reduceCtorEq, Value.text.injEq, List.not_mem_nil,
      or_false, false_or] at hmem
    rcases hmem with rfl | rfl | rfl
    · exact List.all_eq_true.mp (by decide)
    · exact List.all_eq_true.mp (by decide)
    · exact List.all_eq_true.mp (by decide)
  keys entries hpart := by
    have hmem := part_quoted hpart
    simp only [quotedItems, List.mem_cons, reduceCtorEq, Value.mapping.injEq, List.not_mem_nil,
      or_false] at hmem
    rw [hmem, List.forall_mem_singleton]
    exact ⟨_, rfl, by decide⟩
  depth := by decide

theorem yamlSafe_quoted : quoted.YamlSafe IsShort where
  texts := by
    have htexts : quoted.texts.all (fun text => text.toList.all isDirect) = true := by decide
    exact fun text htext => List.all_eq_true.mp (List.all_eq_true.mp htexts text htext)
  names := by
    intro action haction entry hentry
    cases List.mem_singleton.mp haction
    cases List.mem_singleton.mp hentry
    exact ⟨List.all_eq_true.mp (by decide), by decide⟩
  values := by
    rw [values_quoted, List.forall_mem_singleton]
    exact yamlSafe_quotedValue

theorem readDocument_toJson_quoted :
    (∀ value ∈ quoted.values, value.Lawful) ∧ quoted.YamlSafe IsShort ∧
    ∃ json, quoted.toJson = .ok json ∧ Template.readDocument json.text = .ok quoted :=
  ⟨lawful_quoted, yamlSafe_quoted, readDocument_toJson quoted lawful_quoted yamlSafe_quoted⟩

/-! ## Why bytes are counted -/

/-- A document with one name in its environments. -/
def naming (name : String) : Document :=
  ⟨none, "", none, [⟨"", "", [], [⟨"", "", none, none, ⟨[(name, .null)], by simp⟩⟩]⟩]⟩

theorem values_naming (name : String) : (naming name).values = [.null] := rfl

theorem yamlSafe_naming {short : String → Prop} {name : String}
    (hdirect : ∀ c ∈ name.toList, isDirect c = true) (hshort : short name) :
    (naming name).YamlSafe short := by
  refine ⟨fun text htext => ?_, fun action haction entry hentry => ?_, ?_⟩
  · have htexts : (naming name).texts = ["", "", "", "", ""] := rfl
    rw [htexts] at htext
    rw [List.eq_of_mem_replicate (n := 5) htext]
    exact List.forall_mem_nil _
  · cases List.mem_singleton.mp haction
    cases List.mem_singleton.mp hentry
    exact ⟨hdirect, hshort⟩
  · rw [values_naming, List.forall_mem_singleton]
    exact ⟨nofun, nofun, nofun, nofun, by decide⟩

/-- The text of such a document, given how the name is written. -/
def namingText (written : List Char) : List Char :=
  ("\x7b\"name\":\"\",\"tasks\":[\x7b\"name\":\"\",\"worker\":\"\",\"actions\":[" ++
    "\x7b\"name\":\"\",\"image\":\"\",\"environment\":\x7b").toList ++
    (written ++ ":null\x7d\x7d]\x7d]\x7d".toList)

theorem write_naming {name : String} {json : Json} (hjson : (naming name).toJson = .ok json) :
    json.write = namingText (writeString name) := by
  have hform : json = .object [("name", .string ""), ("tasks", .array [.object [
      ("name", .string ""), ("worker", .string ""), ("actions", .array [.object [
        ("name", .string ""), ("image", .string ""),
        ("environment", .object [(name, .null)])]])]])] := (Except.ok.inj hjson).symm
  rw [hform]
  simp only [Json.write, Json.writeMembers, Json.writeItems, List.append_assoc, List.cons_append]
  rfl

/-- A name of one character again and again, three bytes each time. -/
def wideName (count : Nat) : String := String.ofList (List.replicate count '中')

theorem toList_wideName (count : Nat) : (wideName count).toList = List.replicate count '中' :=
  String.toList_ofList

theorem writeString_wideName (count : Nat) :
    writeString (wideName count) = '"' :: (List.replicate count '中' ++ ['"']) := by
  have hescape : ∀ c ∈ List.replicate count '中', Json.escapeChar c = [c] := by
    intro c hc
    rw [List.eq_of_mem_replicate hc]
    rfl
  rw [writeString, toList_wideName, List.flatMap_congr hescape, List.flatMap_singleton']

/-- **As YAML the text breaks off** in front of the colon of the name, which is too far from where
the name begins. -/
theorem not_read_naming {name : String} {json : Json} (hjson : (naming name).toJson = .ok json)
    (hclean : (namingText (writeString name)).all Yaml.isClean = true)
    (hcut : (Yaml.Stream.ofChars (namingText (writeString name))).fault.isSome = true)
    (document : Document) : Template.readDocument json.text ≠ .ok document := by
  intro hread
  obtain ⟨hfault, -⟩ := Yaml.Stream.read_eq_ok (Outcome.mapError_eq_ok.mp hread)
  have hlist : json.text.toList = namingText (writeString name) :=
    String.toList_ofList.trans (write_naming hjson)
  rw [Yaml.ofText_clean (hlist ▸ List.all_eq_true.mp hclean), hlist] at hfault
  rw [Yaml.Stream.ofChars, hfault] at hcut
  cases hcut

/-- **A bound on the characters of a key is not enough**: 402 of them may be 1202 bytes. -/
theorem characters_not_enough :
    ¬ ∀ document : Document, (∀ value ∈ document.values, value.Lawful) →
      document.YamlSafe (fun name => (writeString name).length < 1000) →
      ∃ json, document.toJson = .ok json ∧ Template.readDocument json.text = .ok document := by
  intro h
  have hlawful : ∀ value ∈ (naming (wideName 400)).values, value.Lawful := by
    rw [values_naming, List.forall_mem_singleton]
    exact Value.lawful_null
  have hdirect : ∀ c ∈ (wideName 400).toList, isDirect c = true := by
    intro c hc
    rw [toList_wideName] at hc
    rw [List.eq_of_mem_replicate hc]
    decide
  have hfew : (writeString (wideName 400)).length < 1000 := by
    rw [writeString_wideName, List.length_cons, List.length_append, List.length_replicate]
    decide
  obtain ⟨json, hjson, hread⟩ := h (naming (wideName 400)) hlawful (yamlSafe_naming hdirect hfew)
  refine not_read_naming hjson ?_ ?_ _ hread
  · rw [writeString_wideName]
    decide +kernel
  · rw [writeString_wideName]
    decide +kernel

end Document

end Workflow

end Provisioning
