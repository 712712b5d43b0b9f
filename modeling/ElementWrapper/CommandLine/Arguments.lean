import ElementWrapper.Text.Digits

/-!
The arguments of the command line. `CommandLine.read` tells options from other arguments and reads
both: an option is named in full or by any beginning that only one name has, its value follows it or
an equals sign, options of one letter may share a hyphen, and after `--` everything is an argument.

The arguments of a command are taken once, as many as stand together; those that no command takes
make the whole line unusable, but only after everything else has been read.
-/

namespace ElementWrapper.CommandLine

/-- What the command line asks for, the command apart. -/
structure Settings where
  verbose : Bool := false
  /-- The file that takes the records of the run; none if it is empty. -/
  logFile : Text := []
  /-- Where the project is. -/
  config : Text := "."
  /-- The directory of the wrappers; that of the project if it is empty. -/
  outDirectory : Text := []
  nonUpgradable : Bool := false
  failFast : Bool := false
  dryRun : Bool := false
  deriving DecidableEq

/-- What is to be done. -/
inductive Command where
  /-- Make wrappers of the modules that paths lead to; without paths, of all components. -/
  | build (paths : List Text)
  /-- Show the metadata of a module. -/
  | inspect (path : Text)
  deriving DecidableEq

/-- Why there is nothing to be done. -/
inductive Refusal where
  /-- Help was asked for. -/
  | help
  /-- The arguments make no sense. -/
  | usage
  deriving DecidableEq

/-! ## Options -/

/-- What an option does. -/
inductive Switch where
  | help
  | flag (set : Settings → Settings)
  | value (set : Text → Settings → Settings)

/-- Options by their names. -/
abbrev Switches := List (Text × Switch)

/-- The options that may stand before the command and after it. -/
def sharedSwitches : Switches :=
  let verbose : Switch := .flag fun settings => { settings with verbose := true }
  [("-h", .help), ("--help", .help), ("-v", verbose), ("--verbose", verbose),
    ("--log-file", .value fun path settings => { settings with logFile := path })]

/-- The options of an inspection. -/
def inspectSwitches : Switches :=
  let own : Switches :=
    [("--config", .value fun path settings => { settings with config := path })]
  sharedSwitches ++ own

/-- The options of a build. -/
def buildSwitches : Switches :=
  let own : Switches := [
    ("--out-dir", .value fun path settings => { settings with outDirectory := path }),
    ("--non-upgradable", .flag fun settings => { settings with nonUpgradable := true }),
    ("--fail-fast", .flag fun settings => { settings with failFast := true }),
    ("--dry-run", .flag fun settings => { settings with dryRun := true })]
  inspectSwitches ++ own

/-! ## Roles of arguments -/

/-- What is attached to the name of an option. -/
inductive Attachment where
  | none
  /-- A value after an equals sign. -/
  | value (text : Text)
  /-- What follows the letter of an option without a sign between them. -/
  | rest (text : Text)

/-- An argument that may be an option: what it does, if it is known, and what is attached to it. -/
structure Occurrence where
  name : Text
  switch? : Option Switch
  attached : Attachment

/-- The role of an argument. -/
inductive Role where
  /-- The mark that no options follow. -/
  | separator
  | argument
  | option (occurrence : Occurrence)

/-- An argument with its role. -/
structure Token where
  text : Text
  role : Role

/-- Whether an argument is an option. -/
def Token.isOption (token : Token) : Bool := match token.role with
  | .option _ => true
  | _ => false

/-- The hyphen before the name of an option. -/
def hyphen : CodePoint := '-'

/-- The mark that no options follow. -/
def endOfOptions : Text := "--"

/-- A text before the first equals sign, and the value after it. -/
def splitValue (text : Text) : Text × Attachment :=
  let name := text.takeWhile (· ≠ .scalar '=')
  (name, if name.length = text.length then .none else .value (text.drop (name.length + 1)))

/-- The options that an argument may be short for. -/
def candidates (switches : Switches) (text : Text) : List Occurrence :=
  if endOfOptions.isPrefixOf text then
    let (start, attached) := splitValue text
    switches.filterMap fun (name, switch) =>
      if start.isPrefixOf name then some ⟨name, some switch, attached⟩ else none
  else switches.filterMap fun (name, switch) =>
    if name = text.take 2 then some ⟨name, some switch, .rest (text.drop 2)⟩
    else if text.isPrefixOf name then some ⟨name, some switch, .none⟩
    else none

/-- Whether a text is made of decimal digits. -/
def isDigits (text : Text) : Bool := text.all fun c => (Text.decimalDigit? c).isSome

/-- Whether an argument is a negative number. -/
def isNegativeNumber (text : Text) : Bool :=
  let body := text.tail
  let body := if body.getLast? = some (.scalar '\n') then body.dropLast else body
  match Text.splitOn '.' body with
  | [whole] => isDigits whole && !whole.isEmpty
  | [whole, fraction] => isDigits whole && isDigits fraction && !fraction.isEmpty
  | _ => false

/-- The role of an argument that no separator stands before. -/
def roleOf (switches : Switches) (text : Text) : Except Refusal Role :=
  let known (name : Text) (attached : Attachment) : Option Role :=
    (switches.lookup name).map fun switch => .option ⟨name, some switch, attached⟩
  let (start, attached) := splitValue text
  if text.head? ≠ some hyphen then .ok .argument
  else if let some role := known text .none then .ok role
  else if text.length = 1 then .ok .argument
  else if let some role := known start attached then .ok role
  else match candidates switches text with
    | [occurrence] => .ok (.option occurrence)
    | [] =>
      if isNegativeNumber text ∨ text.contains (.scalar ' ') then .ok .argument
      else .ok (.option ⟨text, none, .none⟩)
    | _ => .error .usage

/-- The arguments with their roles. -/
def tokens (switches : Switches) : List Text → Except Refusal (List Token)
  | [] => .ok []
  | text :: rest =>
    if text = endOfOptions then
      .ok (⟨text, .separator⟩ :: rest.map fun text => ⟨text, .argument⟩)
    else do
      let role ← roleOf switches text
      return ⟨text, role⟩ :: (← tokens switches rest)

/-! ## Reading -/

/-- What has been read so far. -/
structure Progress where
  settings : Settings := {}
  command : Option Command := none
  /-- Whether there are arguments that nothing takes. -/
  hasExtra : Bool := false

/-- What an option does to what has been read. -/
def apply (value : Text) (progress : Progress) : Switch → Except Refusal Progress
  | .help => .error .help
  | .flag set => .ok { progress with settings := set progress.settings }
  | .value set => .ok { progress with settings := set value progress.settings }

/-- What an argument asks for: options with their values, and whether there is more in it that
nothing takes. -/
structure Effects where
  switches : List (Switch × Text)
  hasExtra : Bool := false

/-- The options of one letter each that share a hyphen, where the first is followed by more letters.
Those after a letter that names no option are taken by nothing. -/
def shared (switches : Switches) (first : Switch) : Text → Except Refusal Effects
  | [] => .ok ⟨[(first, [])], false⟩
  | letter :: rest =>
    match first with
    | .value _ => .ok ⟨[(first, letter :: rest)], false⟩
    | _ =>
      if letter = hyphen then .error .usage
      else match switches.lookup [hyphen, letter], rest with
        | none, _ => .ok ⟨[(first, [])], true⟩
        | some (.value set), .scalar '=' :: value => .ok ⟨[(first, []), (.value set, value)], false⟩
        | some _, .scalar '=' :: _ => .error .usage
        | some next, _ => do
          let more ← shared switches next rest
          return { more with switches := (first, []) :: more.switches }

/-- What an option with something attached to it asks for. -/
def attachedEffects (switches : Switches) (switch : Switch) : Attachment → Except Refusal Effects
  | .none => .ok ⟨[(switch, [])], false⟩
  | .value text => match switch with
    | .value set => .ok ⟨[(.value set, text)], false⟩
    | _ => .error .usage
  | .rest text => shared switches switch text

/-- How a command takes the arguments that are no options. -/
structure Positional where
  /-- How many tokens are taken at the beginning of some. -/
  count? : List Token → Option Nat
  take : List Text → Progress → Except Refusal Progress

/-- What has been read after the effects of an argument. -/
def Progress.run (progress : Progress) (effects : Effects) : Except Refusal Progress := do
  let hasExtra := progress.hasExtra || effects.hasExtra
  effects.switches.foldlM (fun progress (switch, value) => apply value progress switch)
    { progress with hasExtra }

/-- Reads tokens one after the other. Arguments that are no options are taken once. -/
def scan (switches : Switches) (positional : Option Positional) (progress : Progress)
    (line : List Token) : Except Refusal (Option Positional × Progress) :=
  match line with
  | [] => .ok (positional, progress)
  | token :: rest =>
    match token.role with
    | .option ⟨_, none, _⟩ => scan switches positional { progress with hasExtra := true } rest
    | .option ⟨_, some (.value set), .none⟩ =>
      match rest with
      | ⟨value, .argument⟩ :: rest => do
        scan switches positional (← progress.run ⟨[(.value set, value)], false⟩) rest
      | _ => .error .usage
    | .option ⟨_, some switch, attached⟩ => do
      let effects ← attachedEffects switches switch attached
      scan switches positional (← progress.run effects) rest
    | _ =>
      match positional.bind fun p => (p.count? line).map fun count => (p, count) with
      | some (p, count + 1) => do
        let taken := (line.take (count + 1)).map (·.text)
        scan switches none (← p.take taken progress) (rest.drop count)
      | _ => scan switches positional { progress with hasExtra := true } rest
termination_by line.length

/-- Reads the arguments of a program or of a command. -/
def readWith (switches : Switches) (positional : Positional) (progress : Progress)
    (line : List Text) : Except Refusal Progress := do
  let (left, progress) ← scan switches (some positional) progress (← tokens switches line)
  match left with
  | none => return progress
  | some positional =>
    if positional.count? [] = some 0 then positional.take [] progress else .error .usage

/-- Whether an argument is the mark that no options follow. -/
def Token.isSeparator (token : Token) : Bool := match token.role with
  | .separator => true
  | _ => false

/-- The paths of a build: all arguments up to the next option. -/
def buildPaths : Positional where
  count? line := some (line.takeWhile (!·.isOption)).length
  take paths progress := .ok { progress with command := some (.build (paths.erase endOfOptions)) }

/-- The path of an inspection: one argument with separators around it. -/
def inspectPath : Positional where
  count? line :=
    let before := (line.takeWhile (·.isSeparator)).length
    match line.drop before with
    | ⟨_, .argument⟩ :: rest => some (before + 1 + (rest.takeWhile (·.isSeparator)).length)
    | _ => none
  take paths progress :=
    .ok { progress with command := (paths.erase endOfOptions).head?.map .inspect }

/-- The command with all that follows it. -/
def commandLine : Positional where
  count? line :=
    match line.dropWhile (·.isSeparator) with
    | ⟨_, .argument⟩ :: _ => some line.length
    | _ => none
  take line progress := match line with
    | name :: rest =>
      if name = "build" then readWith buildSwitches buildPaths progress rest
      else if name = "inspect" then readWith inspectSwitches inspectPath progress rest
      else .error .usage
    | [] => .error .usage

/-- What the arguments of the program ask for. -/
def read (line : List Text) : Except Refusal (Settings × Command) := do
  let progress ← readWith sharedSwitches commandLine {} line
  match progress.command with
  | some command => if progress.hasExtra then .error .usage else return (progress.settings, command)
  | none => .error .usage

end ElementWrapper.CommandLine
