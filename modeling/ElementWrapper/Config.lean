import ElementWrapper.Pattern.Replacement

/-!
The configuration of wrappers: the names that a component module uses for what is harvested, and the
modules and paths that a wrapper refers to.
-/

namespace ElementWrapper

/-- A module of settings that wrappers import for the sake of one field. -/
structure SettingImport where
  /-- The name that the module is imported under. -/
  name : Text
  source : Text
  /-- The variable that takes the value of the field. -/
  binding : Text
  field : Text
  deriving DecidableEq

/-- What becomes of template literals in a wrapper. -/
inductive TemplateMode where
  /-- They become calls of `concat`. -/
  | concat
  /-- They stay. -/
  | preserve
  deriving DecidableEq

/-- How wrappers are made. -/
structure WrapperConfig where
  /-- The directory that paths start from unless they are absolute. -/
  start : Text := "/"
  /-- The directory of the components. -/
  componentsRoot : Text := "src/components"
  /-- Whether a wrapper exports the element itself, too. -/
  upgradable : Bool := true
  templates : TemplateMode := .concat
  /-- The extension of the modules that wrappers refer to. -/
  outputExtension : Text := ".js"
  /-- The modules whose `property` decorator declares a property. -/
  propertySources : List Text := ["lit-element"]
  /-- The name of the decorator that names an element. -/
  elementDecorator : Text := "customElement"
  /-- The module of the wrapper factory and of the serializers. -/
  wrapperModule : Text :=
    "carbon-web-components/es/globals/wrappers/createReactCustomElementType.js"
  /-- The module of the checks of properties. -/
  propTypesModule : Text := "prop-types"
  /-- The way from a wrapper to the directory of the components. -/
  elementPath : Text := "../../components/"
  settings : List SettingImport := [
    { name := "settings", source := "carbon-components/es/globals/js/settings.js",
      binding := "prefix", field := "prefix" },
    { name := "ddsSettings",
      source := "@carbon/ibmdotcom-utilities/es/utilities/settings/settings.js",
      binding := "ddsPrefix", field := "stablePrefix" }]
  /-- What is done to the specifier of the module of a parent class. -/
  parentSubstitutions : List Substitution := [
    { pattern := "^carbon-web-components[\\\\/]es[\\\\/]components[\\\\/]",
      replacement := "carbon-web-components/es/components-react/" }]
  deriving DecidableEq

end ElementWrapper
