import Governance.Settings.Basic

/-!
# Command lines

A command line names a command, with options before and after its name. An option with a value takes
it from the next word or after an equals sign; a word that begins with a dash is no value unless it
is the dash alone. Options that may not be repeated are given once, and after two dashes every word
stands for itself.
-/

set_option autoImplicit false

namespace Governance.Command

/-- What is done with a hierarchy once it is built. -/
inductive Task where
  | summarize (json : Bool)
  | view (id : String)
  | grants (tolerant json : Bool)
  | files (out : String)

/-- What a command line asks for. -/
inductive Request where
  | version
  | help
  | run (flags : SettingsFlags) (task : Task)

/-- What is wrong with a command line. -/
inductive UsageError where
  | noCommand
  | unknownCommand (word : String)
  | unknownOption (word : String)
  | unexpectedWord (word : String)
  | unexpectedValue (name : String)
  | missingValue (name : String)
  | repeated (name : String)
  | missing (name : String)

/-- The message of an error. -/
def UsageError.message : UsageError → String
  | .noCommand => "a command is required"
  | .unknownCommand word => s!"unrecognized command `{word}`"
  | .unknownOption word => s!"unexpected option `{word}`"
  | .unexpectedWord word => s!"unexpected argument `{word}`"
  | .unexpectedValue name => s!"--{name} takes no value"
  | .missingValue name => s!"--{name} requires a value"
  | .repeated name => s!"--{name} cannot be used multiple times"
  | .missing name => s!"{name} is required"

/-- How often an option may be given, and whether it has a value. -/
inductive OptionKind where
  | switch
  | value
  | values
  deriving DecidableEq

/-- The options that a command knows, by name. -/
abbrev OptionTable := List (String × OptionKind)

/-- The option that every command knows. -/
def sharedOptions : OptionTable := [("log-level", .value)]

/-- The options for settings. -/
def settingsOptions : OptionTable :=
  [("config", .value), ("library", .values), ("architecture", .value), ("parent-id", .value),
   ("location", .value), ("default", .values), ("unique-role-definitions", .switch)]

/-! ### Words -/

/-- What a word is on a command line. -/
inductive Word where
  /-- Two dashes: from here on every word stands for itself. -/
  | escape
  /-- An option, perhaps with a value after an equals sign. -/
  | long (name : String) (value : Option String)
  /-- A dash with letters. -/
  | short (letter : Char)
  | plain

/-- What a word is. -/
def Word.ofString (s : String) : Word :=
  match s.toList with
  | ['-', '-'] => .escape
  | '-' :: '-' :: rest =>
    let name := String.ofList (rest.takeWhile (· != '='))
    match rest.dropWhile (· != '=') with
    | [] => .long name none
    | _ :: value => .long name (some (String.ofList value))
  | '-' :: letter :: _ => .short letter
  | _ => .plain

/-- Whether a word can be the value of the option before it. -/
def isValue (s : String) : Bool :=
  match Word.ofString s with
  | .plain => true
  | _ => false

/-! ### Options -/

/-- What was found on a command line. -/
structure Found where
  /-- Options with their values, the first ones first; a switch has an empty one. -/
  options : List (String × String)
  words : List String

namespace Found

/-- Notes an option, unless it may not be repeated and is there. -/
def note (f : Found) (name : String) (kind : OptionKind) (value : String) :
    Except UsageError Found :=
  if kind ≠ .values ∧ (f.options.lookup name).isSome then .error (.repeated name)
  else .ok { f with options := f.options ++ [(name, value)] }

/-- The value of an option. -/
def value? (f : Found) (name : String) : Option String := f.options.lookup name

/-- The values of an option. -/
def values (f : Found) (name : String) : List String :=
  (f.options.filter fun o => o.1 == name).map Prod.snd

/-- Whether a switch was given. -/
def has (f : Found) (name : String) : Bool := (f.value? name).isSome

end Found

/-- A step through a command line. -/
inductive Advance where
  /-- An option was found, which took the word after it or did not. -/
  | found (f : Found) (tookNext : Bool)
  /-- The word asks for something at once. -/
  | ask (r : Request)
  /-- The word is no option. -/
  | plain
  /-- The words that follow are no options. -/
  | escape

/-- Takes the option that a word is, with the next word if that is its value. -/
def takeOption (table : OptionTable) (versioned : Bool) (f : Found) (word : String)
    (next : Option String) : Except UsageError Advance :=
  match Word.ofString word with
  | .plain => .ok .plain
  | .escape => .ok .escape
  | .short letter =>
    if letter = 'h' then .ok (.ask .help)
    else if letter = 'V' ∧ versioned then .ok (.ask .version)
    else .error (.unknownOption word)
  | .long "help" none => .ok (.ask .help)
  | .long name value =>
    if name = "version" ∧ versioned ∧ value.isNone then .ok (.ask .version)
    else match table.lookup name, value, next.filter isValue with
      | none, _, _ => .error (.unknownOption word)
      | some .switch, none, _ => return .found (← f.note name .switch "") false
      | some .switch, some _, _ => .error (.unexpectedValue name)
      | some kind, some v, _ => return .found (← f.note name kind v) false
      | some kind, none, some v => return .found (← f.note name kind v) true
      | some _, none, none => .error (.missingValue name)

/-- The words after one that took the next one or did not. -/
def after (tookNext : Bool) (rest : List String) : List String :=
  if tookNext then rest.tail else rest

/-- The words that are left are no more than those that were there. That is why reading a command
line, from word to word, comes to an end. -/
theorem after_length_le (tookNext : Bool) (rest : List String) :
    (after tookNext rest).length ≤ rest.length := by
  cases tookNext <;> simp [after]

/-- Reads the options of a command and its words, of which there are at most so many. -/
def readWords (table : OptionTable) (most : Nat) (f : Found) (args : List String) :
    Except UsageError (Found ⊕ Request) :=
  match args with
  | [] => .ok (.inl f)
  | word :: rest =>
    match takeOption table false f word rest.head? with
    | .error e => .error e
    | .ok (.ask r) => .ok (.inr r)
    | .ok (.found f tookNext) => readWords table most f (after tookNext rest)
    | .ok .plain =>
      if f.words.length < most then
        readWords table most { f with words := f.words ++ [word] } rest
      else .error (.unexpectedWord word)
    | .ok .escape =>
      match rest[most - f.words.length]? with
      | some word => .error (.unexpectedWord word)
      | none => .ok (.inl { f with words := f.words ++ rest })
termination_by args.length
decreasing_by
  · have hleft := after_length_le tookNext rest
    simp only [List.length_cons]
    omega
  · simp

/-! ### Commands -/

/-- What flags say about settings. -/
def Found.settings (f : Found) : SettingsFlags where
  config := f.value? "config"
  libraries := f.values "library"
  architecture := f.value? "architecture"
  parentId := f.value? "parent-id"
  location := f.value? "location"
  defaults := f.values "default"
  uniqueRoles := f.has "unique-role-definitions"

/-- A command: its options beyond those for settings, how many words it takes at most, and what it
does. -/
structure Subcommand where
  options : OptionTable
  words : Nat
  task : Found → Except UsageError Task

/-- The commands by name. -/
def commands : List (String × Subcommand) :=
  [("build", ⟨[("json", .switch)], 0, fun f => .ok (.summarize (f.has "json"))⟩),
   ("show", ⟨[], 1, fun f =>
      match f.words with
      | id :: _ => .ok (.view id)
      | [] => .error (.missing "<ID>")⟩),
   ("role-assignments", ⟨[("warn-on-derivation-errors", .switch), ("json", .switch)], 0, fun f =>
      .ok (.grants (f.has "warn-on-derivation-errors") (f.has "json"))⟩),
   ("export", ⟨[("out", .value)], 0, fun f =>
      match f.value? "out" with
      | some out => .ok (.files out)
      | none => .error (.missing "--out")⟩)]

/-- Reads what follows the name of a command. -/
def Subcommand.read (c : Subcommand) (args : List String) : Except UsageError Request := do
  match ← readWords (sharedOptions ++ settingsOptions ++ c.options) c.words ⟨[], []⟩ args with
  | .inr r => return r
  | .inl f => return .run f.settings (← c.task f)

/-- Reads what follows the word for help. -/
def readHelp : List String → Except UsageError Request
  | [] => .ok .help
  | word :: rest =>
    if (commands.lookup word).isNone ∧ word ≠ "help" then .error (.unknownCommand word)
    else match rest with
      | [] => .ok .help
      | word :: _ => .error (.unknownCommand word)

/-- Reads a command and what follows its name. -/
def readCommand (name : String) (args : List String) : Except UsageError Request :=
  match commands.lookup name with
  | some c => c.read args
  | none => if name = "help" then readHelp args else .error (.unknownCommand name)

/-- Reads a command line from its start, where options that every command knows may stand. -/
def readFrom (f : Found) (args : List String) : Except UsageError Request :=
  match args with
  | [] => .error .noCommand
  | word :: rest =>
    match takeOption sharedOptions true f word rest.head? with
    | .error e => .error e
    | .ok (.ask r) => .ok r
    | .ok (.found f tookNext) => readFrom f (after tookNext rest)
    | .ok .plain => readCommand word rest
    | .ok .escape => .error .noCommand
termination_by args.length
decreasing_by
  have hleft := after_length_le tookNext rest
  simp only [List.length_cons]
  omega

/-- Reads a command line. -/
def read (args : List String) : Except UsageError Request := readFrom ⟨[], []⟩ args

end Governance.Command
