import DictionaryDdl.CommandLine.Settings

/-!
The arguments of the program: options for settings, the name of a command, and its own options.
The options for settings may stand before or after the name of the command; of one given in both
places the second counts. In one place an option stands at most once, except the one for
databases. Arguments are examined in their order, and the first one that is wrong or asks for
nothing but information ends the reading.
-/

namespace DictionaryDdl

/-- What the program can be asked to do. -/
inductive Command where
  | sdi
  | sql
  | charsets (output : Option Path)
  | ast (file : Path)
  | compile (file : Path)
  deriving DecidableEq, Repr

/-- What arguments ask for. -/
inductive Request where
  | version
  | help
  | run (flags : Flags) (command : Command)
  /-- The arguments are wrong. -/
  | refused
  deriving DecidableEq, Repr

namespace Arguments

/-- The options that take a value. -/
inductive Setting where
  | envFile | mysqlUrl | charsets | extractor | backupDir | outputDir | database | jobs
  | output | file
  deriving DecidableEq, Repr

/-- The options for settings, which stand in either place. -/
def Setting.shared : List Setting :=
  [envFile, mysqlUrl, charsets, extractor, backupDir, outputDir, database, jobs]

/-- An option as it is written. -/
def Setting.flag : Setting → String
  | envFile => "--env-file"
  | mysqlUrl => SettingName.mysqlUrl.flag
  | charsets => SettingName.charsets.flag
  | extractor => SettingName.extractor.flag
  | backupDir => SettingName.backupDir.flag
  | outputDir => SettingName.outputDir.flag
  | database => SettingName.databases.flag
  | jobs => SettingName.jobs.flag
  | output => "--output"
  | file => "--file"

/-- Whether an option takes a value: names and addresses may be empty, paths may not, and a
number of jobs is a number. -/
def Setting.accepts (setting : Setting) (value : String) : Bool :=
  match setting with
  | mysqlUrl | database => true
  | jobs => (Text.readUInt64? value).isSome
  | envFile | charsets | extractor | backupDir | outputDir | output | file => !value.isEmpty

/-- Options with their values, in the order of the arguments. -/
abbrev Given := List (Setting × String)

/-- The value of an option. -/
def Given.value? (given : Given) (setting : Setting) : Option String :=
  given.lookup setting

/-- Adds an option. It is refused where it takes no such value or stands there already. -/
def Given.add (given : Given) (setting : Setting) (value : String) : Except Request Given :=
  if !setting.accepts value then .error .refused
  else if setting ≠ .database ∧ (given.value? setting).isSome then .error .refused
  else .ok (given ++ [(setting, value)])

/-- What an argument is, apart from what stands before it. -/
inductive Word where
  /-- An option with the value that is attached to it by an equals sign. -/
  | option (setting : Setting) (attached : Option String)
  | help
  | version
  /-- A flag that is none of these. -/
  | unknown
  /-- Two dashes, which end the options. -/
  | close
  | plain (text : String)
  deriving DecidableEq, Repr

/-- The word of an argument that starts with two dashes. -/
def Word.ofLong (known : List Setting) (text : String) : Word :=
  let (flag, attached) := match Text.cutAt '=' text.toList with
    | some (flag, value) => (String.ofList flag, some (String.ofList value))
    | none => (text, none)
  match known.find? (·.flag == flag) with
  | some setting => .option setting attached
  | none =>
      if attached.isSome then .unknown
      else if flag = "--help" then .help
      else if flag = "--version" then .version
      else .unknown

/-- The word of an argument. A dash alone is a plain word. -/
def Word.ofText (known : List Setting) (text : String) : Word :=
  match text.toList with
  | ['-'] => .plain text
  | ['-', '-'] => .close
  | '-' :: '-' :: _ => .ofLong known text
  | '-' :: 'h' :: _ => .help
  | '-' :: 'V' :: _ => .version
  | '-' :: _ => .unknown
  | _ => .plain text

/-- Whether an argument can be the value of the option before it. -/
def isValue (text : String) : Bool :=
  text == "-" || text.toList.head? != some '-'

/-- One of the two places where options stand: the options known there, and whether the version
may be asked for. -/
structure Level where
  known : List Setting
  hasVersion : Bool

/-- Reads options up to the first plain word or the end of the options, and gives them back with
what is left. -/
def Level.readOptions (level : Level) (given : Given) :
    List String → Except Request (Given × List String)
  | [] => .ok (given, [])
  | text :: rest =>
      match Word.ofText level.known text, rest with
      | .plain _, _ => .ok (given, text :: rest)
      | .close, _ => .ok (given, text :: rest)
      | .help, _ => .error .help
      | .version, _ => .error (if level.hasVersion then .version else .refused)
      | .unknown, _ => .error .refused
      | .option setting (some value), rest => do
          level.readOptions (← given.add setting value) rest
      | .option _ none, [] => .error .refused
      | .option setting none, value :: rest =>
          if isValue value then do
            level.readOptions (← given.add setting value) rest
          else .error .refused

/-- The names of the commands, and the options that each has of its own. -/
def commands : List (String × List Setting) :=
  [("sdi", []), ("sql", []), ("charsets", [.output]), ("ast", [.file]), ("compile", [.file])]

/-- The values of an option that may stand several times: those of the second place, if there are
any. -/
def databasesOf (before after : Given) : List String :=
  let valuesIn (given : Given) := (given.filter (·.1 == .database)).map (·.2)
  if (valuesIn after).isEmpty then valuesIn before else valuesIn after

/-- The flags of both places. -/
def flagsOf (before after : Given) : Flags :=
  let value? (setting : Setting) := (after.value? setting).or (before.value? setting)
  { envFile := (value? .envFile).map Path.mk
    mysqlUrl := value? .mysqlUrl
    charsets := (value? .charsets).map Path.mk
    extractor := (value? .extractor).map Path.mk
    backupDir := (value? .backupDir).map Path.mk
    outputDir := (value? .outputDir).map Path.mk
    databases := databasesOf before after
    jobs := ((value? .jobs).bind Text.readUInt64?).map (·.toNat) }

/-- The command of a name with its options. -/
def commandOf? (name : String) (given : Given) : Option Command :=
  let path? (setting : Setting) := (given.value? setting).map Path.mk
  match name with
  | "sdi" => some .sdi
  | "sql" => some .sql
  | "charsets" => some (.charsets (path? .output))
  | "ast" => (path? .file).map .ast
  | "compile" => (path? .file).map .compile
  | _ => none

/-- Reads what follows the name of a command. -/
def readCommand (before : Given) (name : String) (own : List Setting) (arguments : List String) :
    Except Request Request := do
  let level : Level := ⟨Setting.shared ++ own, false⟩
  let (after, rest) ← level.readOptions [] arguments
  if rest = [] ∨ rest = ["--"] then
    match commandOf? name after with
    | some command => .ok (.run (flagsOf before after) command)
    | none => .error .refused
  else .error .refused

/-- Reads the names of commands that help is asked for. -/
def readHelp : List String → Request
  | [] => .help
  | [name] => if name = "help" ∨ (commands.lookup name).isSome then .help else .refused
  | _ => .refused

/-- Reads all arguments. -/
def readAll (arguments : List String) : Except Request Request := do
  let level : Level := ⟨Setting.shared, true⟩
  let (before, rest) ← level.readOptions [] arguments
  match rest with
  | [] => .error .refused
  | "help" :: names => .ok (readHelp names)
  | name :: more =>
      match commands.lookup name with
      | some own => readCommand before name own more
      | none => .error .refused

end Arguments

/-- What the arguments of the program ask for. -/
def Request.ofArguments (arguments : List String) : Request :=
  match Arguments.readAll arguments with
  | .ok request => request
  | .error request => request

end DictionaryDdl
