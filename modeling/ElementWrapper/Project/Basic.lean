import ElementWrapper.Config
import ElementWrapper.Files.Access

/-!
Projects. A `Project` says where component modules are, which of them have wrappers, and where
wrappers go; `ProjectError` is what can be wrong with the file that describes it.
-/

namespace ElementWrapper

/-- The name of the file that describes a project. -/
def projectFile : Text := ".wrapgen.yml"

/-- A directory of component modules with what is to be done with them. -/
structure Project where
  /-- The directory of the file that describes the project. -/
  root : Route
  wrapper : WrapperConfig
  /-- The directory of the wrappers; without one a wrapper stands beside its module. -/
  outDirectory : Option Route := none
  /-- The globs of the names of modules. -/
  included : List Text := ["*.ts"]
  /-- The globs of names that have no wrapper nevertheless. -/
  excluded : List Text := ["*.d.ts", "*.test.ts", "*.stories.ts"]
  /-- Whether the first module without a wrapper ends a build. -/
  failFast : Bool := false
  deriving DecidableEq

/-- What can be wrong with the description of a project. -/
inductive ProjectError where
  | unreadable (fault : ReadFault)
  /-- The file is not a data file. -/
  | malformed (file : Text)
  /-- A number or a date is spelled in a way that no value has. -/
  | badValue
  /-- A number exceeds every bound. -/
  | tooLarge
  | notMapping
  | unknownTemplateMode (mode : Text)
  | badExtension (extension : Text)
  | settingsNotList
  | incompleteSetting (index : Nat) (missing : List Text)
  | rewritesNotList
  | incompleteRewrite (index : Nat)
  | badPattern (index : Nat)
  /-- A pattern asks for the classes of two alphabets. -/
  | mixedAlphabets
  deriving DecidableEq

namespace ProjectError

/-- What is reported about a wrong description, unless the file cannot be read at all, a number in
it stands for nothing, or a pattern contradicts itself. Of a file that is no data file, and of a
pattern that breaks the rules of spelling, it is said that this is so; the reason, which would stand
behind a colon, is left out. -/
def complaint? : ProjectError → Option Text
  | unreadable _ | badValue | tooLarge | mixedAlphabets => none
  | malformed file => some ("Failed to parse " ++ file)
  | notMapping => some (projectFile ++ " must contain a mapping at the root")
  | unknownTemplateMode mode =>
    some ("template_literals must be one of concat, preserve, got " ++ Text.quotation mode)
  | badExtension extension =>
    some ("output_extension must start with '.', got " ++ Text.quotation extension)
  | settingsNotList => some "settings must be a list of mappings"
  | incompleteSetting index missing =>
    some ("settings[" ++ Text.ofNat index ++ "] is missing " ++ Text.join ", " missing)
  | rewritesNotList => some "parent_source_rewrites must be a list of mappings"
  | incompleteRewrite index =>
    some ("parent_source_rewrites[" ++ Text.ofNat index ++ "] needs pattern and replacement")
  | badPattern index =>
    some ("parent_source_rewrites[" ++ Text.ofNat index ++ "] has an invalid pattern")

end ProjectError

end ElementWrapper
