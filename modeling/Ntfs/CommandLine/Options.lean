import Ntfs.CommandLine.Value

/-!
# Options

Words of the command line are read from left to right.  An option has a long name and may have a
letter; switches stand alone, settings take a value: after `=`, right after the letter, or as the
next word, which then does not start with a dash.  Letters of switches may share a dash.  No option
is given twice.  Reading halts at the first fault, or at a request for help or the version.
-/

namespace Ntfs.CommandLine

/-- An option that takes a value. -/
inductive Setting where
  | body
  | format
  | offset
  | size
  | tableFile
  | file
  | name
  | extension
  | range
  | logLevel
  deriving DecidableEq, Repr

/-- An option that stands alone. -/
inductive Switch where
  | bootSector
  | paths
  | dump
  | json
  deriving DecidableEq, Repr

/-- What is told about the program itself. -/
inductive Notice where
  | help
  | version
  deriving DecidableEq, Repr

/-- What the name of an option stands for. -/
inductive Choice where
  | setting (s : Setting)
  | switch (s : Switch)
  | notice (n : Notice)
  deriving DecidableEq, Repr

namespace Choice

/-- How an option is written, and what it is for. -/
structure Entry where
  choice : Choice
  letter : Option Char
  name : String
  purpose : String

def entries : List Entry :=
  [⟨.setting .body, some 'b', "body", "file that holds the disk"⟩,
   ⟨.setting .format, some 'f', "format", "format of that file: raw or auto"⟩,
   ⟨.setting .offset, some 'o', "offset", "first byte of the volume on the disk"⟩,
   ⟨.setting .size, some 's', "size", "sectors of the volume"⟩,
   ⟨.setting .tableFile, none, "mft", "file that holds an extracted file table"⟩,
   ⟨.switch .bootSector, none, "pbs", "show the boot sector of the volume"⟩,
   ⟨.setting .file, none, "file", "show the record of this number"⟩,
   ⟨.switch .paths, some 'p', "path", "list all records with their paths"⟩,
   ⟨.setting .name, some 'n', "name", "list the records of this name"⟩,
   ⟨.setting .extension, some 'e', "ext", "list the records of this extension"⟩,
   ⟨.setting .range, some 'r', "range", "parse the records start:end only"⟩,
   ⟨.switch .dump, none, "dump", "write the content of the file to disk"⟩,
   ⟨.switch .json, some 'j', "json", "show results as JSON"⟩,
   ⟨.setting .logLevel, some 'l', "log-level", "error, warn, info, debug or trace"⟩,
   ⟨.notice .help, some 'h', "help", "show this help"⟩,
   ⟨.notice .version, some 'V', "version", "show the version"⟩]

def ofName? (name : String) : Option Choice := (entries.find? (·.name == name)).map Entry.choice

def ofLetter? (c : Char) : Option Choice := (entries.find? (·.letter == some c)).map Entry.choice

def name (choice : Choice) : String :=
  "--" ++ ((entries.find? (·.choice == choice)).map Entry.name).getD ""

end Choice

/-- What is wrong with a command line. -/
inductive Fault where
  | unknownOption (word : String)
  | strayWord (word : String)
  | missingValue (s : Setting)
  | unwantedValue (choice : Choice)
  | invalidValue (s : Setting) (value : String)
  | repeated (choice : Choice)
  | required (choice : Choice)
  | conflict (a b : Choice)
  deriving DecidableEq, Repr

def Fault.message : Fault → String
  | unknownOption word => "unknown option '" ++ word ++ "'"
  | strayWord word => "unexpected word '" ++ word ++ "'"
  | missingValue s => (Choice.setting s).name ++ " needs a value"
  | unwantedValue choice => choice.name ++ " takes no value"
  | invalidValue s value => "'" ++ value ++ "' is no value of " ++ (Choice.setting s).name
  | repeated choice => choice.name ++ " is given twice"
  | required choice => choice.name ++ " is missing"
  | conflict a b => a.name ++ " and " ++ b.name ++ " exclude each other"

/-- Why there is nothing to run. -/
inductive Halt where
  | fault (f : Fault)
  | notice (n : Notice)
  deriving DecidableEq, Repr

/-- The options of a command line. -/
structure Options where
  body : Option String := none
  format : Option String := none
  offset : Option UInt64 := none
  size : Option UInt64 := none
  tableFile : Option String := none
  file : Option UInt64 := none
  name : Option String := none
  extension : Option String := none
  range : Option (UInt64 × UInt64) := none
  logLevel : Option Level := none
  bootSector : Bool := false
  paths : Bool := false
  dump : Bool := false
  json : Bool := false
  deriving DecidableEq, Repr

namespace Options

/-- Fill a field that is still empty with the value of a text. -/
def fill {α : Type} (s : Setting) (field : Option α) (read : String → Option α) (text : String) :
    Except Halt (Option α) :=
  if field.isSome then .error (.fault (.repeated (.setting s)))
  else
    match read text with
    | some value => .ok (some value)
    | none => .error (.fault (.invalidValue s text))

def assign (o : Options) (s : Setting) (text : String) : Except Halt Options :=
  match s with
  | .body => return { o with body := ← fill s o.body some text }
  | .format => return { o with format := ← fill s o.format some text }
  | .offset => return { o with offset := ← fill s o.offset word? text }
  | .size => return { o with size := ← fill s o.size word? text }
  | .tableFile => return { o with tableFile := ← fill s o.tableFile some text }
  | .file => return { o with file := ← fill s o.file word? text }
  | .name => return { o with name := ← fill s o.name some text }
  | .extension => return { o with extension := ← fill s o.extension some text }
  | .range => return { o with range := ← fill s o.range range? text }
  | .logLevel => return { o with logLevel := ← fill s o.logLevel Level.ofName? text }

def isOn (o : Options) : Switch → Bool
  | .bootSector => o.bootSector
  | .paths => o.paths
  | .dump => o.dump
  | .json => o.json

def turnOn (o : Options) (s : Switch) : Except Halt Options :=
  if o.isOn s then .error (.fault (.repeated (.switch s)))
  else
    match s with
    | .bootSector => .ok { o with bootSector := true }
    | .paths => .ok { o with paths := true }
    | .dump => .ok { o with dump := true }
    | .json => .ok { o with json := true }

/-- Read an option by its long name, with the value attached to it.  Returns also the setting that
awaits its value. -/
def readName (o : Options) (name : String) (value : Option String) :
    Except Halt (Options × Option Setting) :=
  match Choice.ofName? name with
  | none => .error (.fault (.unknownOption ("--" ++ name)))
  | some (.setting s) =>
    match value with
    | some text => return (← o.assign s text, none)
    | none => .ok (o, some s)
  | some (.switch s) =>
    if value.isSome then .error (.fault (.unwantedValue (.switch s)))
    else return (← o.turnOn s, none)
  | some (.notice n) =>
    if value.isSome then .error (.fault (.unwantedValue (.notice n)))
    else .error (.notice n)

/-- Read the letters behind one dash.  Returns also the setting that awaits its value. -/
def readLetters (o : Options) : List Char → Except Halt (Options × Option Setting)
  | [] => .ok (o, none)
  | c :: rest =>
    match Choice.ofLetter? c with
    | none => .error (.fault (.unknownOption ("-" ++ String.singleton c)))
    | some (.notice n) => .error (.notice n)
    | some (.switch s) => do (← o.turnOn s).readLetters rest
    | some (.setting s) =>
      match rest with
      | [] => .ok (o, some s)
      | '=' :: value => return (← o.assign s (String.ofList value), none)
      | value => return (← o.assign s (String.ofList value), none)

/-- Whether a word starts like an option.  A single dash does not. -/
def isOption (word : String) : Bool :=
  match word.toList with
  | '-' :: _ :: _ => true
  | _ => false

/-- Read one word that no setting awaits.  Returns also the setting that awaits its value. -/
def readWord (o : Options) (word : String) : Except Halt (Options × Option Setting) :=
  match word.toList with
  | '-' :: '-' :: long =>
    let long := String.ofList long
    match splitAt? '=' long with
    | some (name, value) => o.readName name (some value)
    | none => o.readName long none
  | '-' :: c :: letters => o.readLetters (c :: letters)
  | _ => .error (.fault (.strayWord word))

/-- Read words, the first of which may be the value of a setting.  A word of two dashes ends the
options, and nothing may come after it. -/
def readFrom (o : Options) : (awaiting : Option Setting) → List String → Except Halt Options
  | none, [] => .ok o
  | some s, [] => .error (.fault (.missingValue s))
  | some s, word :: rest =>
    if isOption word then .error (.fault (.missingValue s))
    else do (← o.assign s word).readFrom none rest
  | none, word :: rest =>
    if word = "--" then
      match rest with
      | [] => .ok o
      | stray :: _ => .error (.fault (.strayWord stray))
    else do
      let (o, awaiting) ← o.readWord word
      o.readFrom awaiting rest

def read (words : List String) : Except Halt Options := ({} : Options).readFrom none words

end Options

end Ntfs.CommandLine
