import ElementWrapper.Project.Basic
import ElementWrapper.Text.LowerCase
import ElementWrapper.Yaml.Value

/-!
The description of a project as a value of a data file. Each key has a reading of its own: where a
value has the wrong kind, the standard stays, except in what `ProjectError` names.
-/

namespace ElementWrapper.Project

open Yaml (Value)

/-! ## Readings of single values -/

/-- The text of a value that is a text or a number. -/
def text? : Value → Option Text
  | .text text => some text
  | .int value => some (Text.ofInt value)
  | .float value => some value.text
  | _ => none

/-- The text of a value that is a text that is not empty, or a number. -/
def someText? (value : Value) : Option Text := (text? value).filter (!·.isEmpty)

/-- The words that stand for a truth value. -/
def word? (word : Text) : Option Bool :=
  let lower := (Text.trim word).map fun c => (CodePoint.ofNat? (Text.lowerNumber c.toNat)).getD c
  if lower = "true" ∨ lower = "yes" ∨ lower = "1" then some true
  else if lower = "false" ∨ lower = "no" ∨ lower = "0" then some false
  else none

/-- The truth value of a value that is one or names one. -/
def flag? : Value → Option Bool
  | .bool value => some value
  | .text word => word? word
  | _ => none

/-- The text of an item of a list. -/
def item? : Value → Option Text
  | .bool true => some "True"
  | .bool false => some "False"
  | value => text? value

/-- The texts of a value: of a list of texts, or of a single one. -/
def texts : Value → List Text
  | .text text => [text]
  | .bytes bytes => bytes.map fun byte => Text.ofNat byte.toNat
  | .sequence items => items.filterMap item?
  | _ => []

/-! ## Readings of lists -/

/-- The keys of a setting. -/
def settingKeys : List Text := ["local", "source", "binding", "field"]

/-- The setting at an index. -/
def setting (index : Nat) (value : Value) : Except ProjectError SettingImport :=
  let part? (key : Text) : Option Text := (value.get? key).bind someText?
  match part? "local", part? "source", part? "binding", part? "field" with
  | some name, some source, some binding, some field => .ok { name, source, binding, field }
  | _, _, _, _ =>
    .error (.incompleteSetting index (settingKeys.filter fun key => (part? key).isNone))

/-- What a pattern that is none comes to, unless that is reported. -/
def patternStop? : Regex.Fault → Option ProjectError
  | .malformed => none
  | .tooLarge => some .tooLarge
  | .tooLong => some .badValue
  | .mixedAlphabets => some .mixedAlphabets

/-- The rewriting rule at an index. -/
def substitutionRule (index : Nat) (value : Value) : Except ProjectError Substitution := do
  let part? (key : Text) : Option Text := (value.get? key).bind text?
  let some pattern := part? "pattern" | throw (.incompleteRewrite index)
  let some replacement := part? "replacement" | throw (.incompleteRewrite index)
  match Regex.read pattern with
  | .ok _ => return { pattern, replacement }
  | .error fault => throw ((patternStop? fault).getD (.badPattern index))

/-- The items of a list, each of them read at its index; nothing is a list without items. -/
def list {α : Type} (item : Nat → Value → Except ProjectError α) (notList : ProjectError) :
    Value → Except ProjectError (List α)
  | .null => .ok []
  | .sequence items => items.zipIdx.mapM fun (value, index) => item index value
  | _ => .error notList

/-! ## The description -/

section

variable (data : Value)

/-- The value of a key; without the key it is nothing. -/
def valueOf (key : Text) : Value := (data.get? key).getD .null

/-- The mode of templates. -/
def templateMode : Except ProjectError TemplateMode :=
  match text? (valueOf data "template_literals") with
  | none => .ok ({} : WrapperConfig).templates
  | some mode =>
    if mode = "concat" then .ok .concat
    else if mode = "preserve" then .ok .preserve
    else .error (.unknownTemplateMode mode)

/-- The extension of wrappers. -/
def outputExtension : Except ProjectError Text :=
  let extension :=
    (text? (valueOf data "output_extension")).getD ({} : WrapperConfig).outputExtension
  if extension.head? = some (.scalar '.') then .ok extension else .error (.badExtension extension)

/-- What a description says of wrappers. -/
def wrapperOf (start root : Route) : Except ProjectError WrapperConfig := do
  let standard : WrapperConfig := {}
  let name (key standard : Text) : Text := (someText? (valueOf data key)).getD standard
  let components := (text? (valueOf data "components_root")).getD standard.componentsRoot
  let templates ← templateMode data
  let extension ← outputExtension data
  let sources := texts (valueOf data "property_decorator_sources")
  let settings ← match data.get? "settings" with
    | some value => list setting .settingsNotList value
    | none => pure standard.settings
  let rewrites ← match data.get? "parent_source_rewrites" with
    | some value => list substitutionRule .rewritesNotList value
    | none => pure standard.parentSubstitutions
  return {
    start := start.text
    componentsRoot := (root ++ Route.ofText components).text
    upgradable := (flag? (valueOf data "upgradable")).getD standard.upgradable
    templates := templates
    outputExtension := extension
    propertySources := if sources.isEmpty then standard.propertySources else sources
    elementDecorator := name "custom_element_decorator" standard.elementDecorator
    wrapperModule := name "wrapper_module" standard.wrapperModule
    propTypesModule := name "prop_types_module" standard.propTypesModule
    elementPath := name "custom_element_prefix" standard.elementPath
    settings := settings
    parentSubstitutions := rewrites }

/-- The project that a description tells of. -/
def ofDescription (start root : Route) : Except ProjectError Project := do
  let .mapping _ := data | throw .notMapping
  let wrapper ← wrapperOf data start root
  let standard : Project := { root, wrapper }
  let build := valueOf data "build"
  let included := texts (valueOf build "include")
  return { standard with
    outDirectory := (someText? (valueOf build "out_dir")).map fun path => root ++ Route.ofText path
    included := if included.isEmpty then standard.included else included
    excluded := (build.get? "exclude").elim standard.excluded texts
    failFast := (flag? (valueOf build "fail_fast")).getD standard.failFast }

end

end ElementWrapper.Project
