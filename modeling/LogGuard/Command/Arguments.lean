import LogGuard.Command.Task

/-!
# Command lines

`Command.read` reads the words of a command line: options of the program, the name of a task, and
its options. The result is an `Invocation`, or a `Reply` that is given in place of a run. Words are
read from left to right, and the first one that calls for a reply decides.
-/

namespace LogGuard.Command

/-- What help is about. -/
inductive Topic where
  | program
  | task (mode : RunMode)
  /-- The command `help` itself. -/
  | help
  deriving DecidableEq, Repr

/-- Why a command line is refused. -/
inductive UsageError where
  /-- There are no words at all. -/
  | noWords
  /-- There are options but no command. -/
  | noCommand
  | unknownCommand (word : Text)
  | unknownArgument (word : Text)
  | missingValue
  /-- An option that may be given once is given twice. -/
  | repeatedOption (name : Text)
  /-- An option that takes no value is given one. -/
  | unwantedValue (name : Text)
  deriving DecidableEq, Repr

/-- What is answered in place of a run. -/
inductive Reply where
  | help (topic : Topic)
  | version
  | refusal (e : UsageError)
  deriving DecidableEq, Repr

/-- A task with the detail in which it is told about. -/
structure Invocation where
  /-- How often more detail was asked for. -/
  verbosity : Nat
  task : Task
  deriving DecidableEq, Repr

/-! ## Words -/

/-- A word by its form. -/
inductive Word where
  /-- Two dashes, after which no word is an option. -/
  | escape
  /-- A name after two dashes, with the value after an equals sign if there is one. -/
  | long (name : Text) (value : Option Text)
  /-- Letters after a dash. -/
  | short (letters : Text)
  | plain (word : Text)
  deriving DecidableEq, Repr

/-- The form of a word. A single dash is a plain word. -/
def Word.ofText : Text → Word
  | ['-', '-'] => .escape
  | '-' :: '-' :: rest => .long (rest.takeWhile (· != '=')) (rest.dropWhile (· != '=')).tail?
  | '-' :: c :: rest => .short (c :: rest)
  | word => .plain word

/-- The topic that the name of a command stands for. -/
def topic? (word : Text) : Option Topic :=
  if word == "fix".toList then some (.task .fix)
  else if word == "check".toList then some (.task .check)
  else if word == "help".toList then some .help
  else none

/-! ## Options of a task -/

/-- The options of a task that have a name. -/
inductive NamedOption where
  | config
  | strict
  | json
  | help
  deriving DecidableEq, Repr

namespace NamedOption

/-- All named options. -/
def all : List NamedOption :=
  [.config, .strict, .json, .help]

/-- The name after two dashes. -/
def name : NamedOption → Text
  | .config => "config".toList
  | .strict => "strict".toList
  | .json => "json".toList
  | .help => "help".toList

/-- The option with a name. -/
def named? (t : Text) : Option NamedOption :=
  all.find? fun s => s.name == t

/-- The refusal of an option that is given twice. -/
def repeated (s : NamedOption) : Reply :=
  .refusal (.repeatedOption s.name)

end NamedOption

/-- A `--config` whose value is a word of its own. It is entered once the next option is recognised
or the words end, so that an unknown word after it is noticed first. -/
inductive Pending where
  | nothing
  /-- The value comes next. -/
  | awaited
  | value (t : Text)
  deriving DecidableEq, Repr

/-- The options of a task as far as they are read. -/
structure Options where
  verbosity : Nat := 0
  config : Option Text := none
  pending : Pending := .nothing
  strict : Bool := false
  json : Bool := false
  deriving DecidableEq, Repr

namespace Options

/-- Enters the file of the settings. -/
def enter (o : Options) (file : Text) : Except Reply Options :=
  if o.config.isSome then .error NamedOption.config.repeated
  else .ok { o with config := some file, pending := .nothing }

/-- Enters what is pending. -/
def settle (o : Options) : Except Reply Options :=
  match o.pending with
  | .nothing => .ok o
  | .awaited => .error (.refusal .missingValue)
  | .value file => o.enter file

/-- Reads a named option without a value. -/
def take (mode : RunMode) (o : Options) : NamedOption → Except Reply Options
  | .config => .ok { o with pending := .awaited }
  | .strict =>
    if o.strict then .error NamedOption.strict.repeated else .ok { o with strict := true }
  | .json => if o.json then .error NamedOption.json.repeated else .ok { o with json := true }
  | .help => .error (.help (.task mode))

/-- Reads a named option with what stands after an equals sign. Only `--config` takes a value. -/
def takeLong (mode : RunMode) (o : Options) (name : Text) (value : Option Text) :
    Except Reply Options :=
  match NamedOption.named? name, value with
  | none, _ => .error (.refusal (.unknownArgument name))
  | some .config, some file => do (← o.settle).enter file
  | some _, some _ => .error (.refusal (.unwantedValue name))
  | some s, none => do (← o.settle).take mode s

/-- Reads options of one letter. -/
def takeLetters (mode : RunMode) (o : Options) : Text → Except Reply Options
  | [] => .ok o
  | c :: rest =>
    if c == 'v' then do
      let o ← o.settle
      takeLetters mode { o with verbosity := o.verbosity + 1 } rest
    else if c == 'h' then do
      let _ ← o.settle
      throw (.help (.task mode))
    else .error (.refusal (.unknownArgument [c]))

/-- Reads a plain word, which can only be a value. -/
def takePlain (o : Options) (word : Text) : Except Reply Options :=
  match o.pending with
  | .awaited => .ok { o with pending := .value word }
  | _ => .error (.refusal (.unknownArgument word))

/-- Reads the words after the name of a task. -/
def read (mode : RunMode) (o : Options) : List Text → Except Reply Options
  | [] => o.settle
  | word :: rest =>
    match Word.ofText word with
    | .escape =>
      match rest with
      | [] => o.settle
      | next :: _ => .error (.refusal (.unknownArgument next))
    | .long name value => do read mode (← o.takeLong mode name value) rest
    | .short letters => do read mode (← o.takeLetters mode letters) rest
    | .plain word => do read mode (← o.takePlain word) rest

/-- The task that the options describe. Detail that is asked for after the name of the task counts
instead of what is asked for before it. -/
def invocation (mode : RunMode) (outer : Nat) (o : Options) : Invocation :=
  ⟨if o.verbosity = 0 then outer else o.verbosity,
    { mode, config := o.config.map fun file => .ofString (String.ofList file),
      strict := o.strict, json := o.json }⟩

end Options

/-! ## Options of the program -/

/-- The reply to `help` with the words after it, which may name one command. -/
def helpReply : List Text → Reply
  | [] => .help .program
  | word :: rest =>
    match topic? word, rest with
    | none, _ => .refusal (.unknownCommand word)
    | some topic, [] => .help topic
    | some _, next :: _ => .refusal (.unknownCommand next)

/-- The reply to a named option of the program. -/
def longReply (name : Text) (value : Option Text) : Reply :=
  let reply? :=
    if name == "help".toList then some (Reply.help .program)
    else if name == "version".toList then some Reply.version
    else none
  match reply?, value with
  | none, _ => .refusal (.unknownArgument name)
  | some _, some _ => .refusal (.unwantedValue name)
  | some reply, none => reply

/-- Reads options of one letter that stand before the command and counts what they ask of detail. -/
def takeLetters (verbosity : Nat) : Text → Except Reply Nat
  | [] => .ok verbosity
  | c :: rest =>
    if c == 'v' then takeLetters (verbosity + 1) rest
    else if c == 'h' then .error (.help .program)
    else if c == 'V' then .error .version
    else .error (.refusal (.unknownArgument [c]))

/-- What is wrong with a command line that ends before a command. -/
def unfinished (verbosity : Nat) : UsageError :=
  if verbosity = 0 then .noWords else .noCommand

/-- What is wrong with the words after two dashes, where a command is not recognised. -/
def escaped (verbosity : Nat) : List Text → UsageError
  | [] => unfinished verbosity
  | word :: _ => if (topic? word).isSome then .unknownArgument word else .unknownCommand word

/-- Reads the words from where a command may come. -/
def readFrom (verbosity : Nat) : List Text → Except Reply Invocation
  | [] => .error (.refusal (unfinished verbosity))
  | word :: rest =>
    match topic? word with
    | some (.task mode) => (Options.read mode {} rest).map (Options.invocation mode verbosity)
    | some _ => .error (helpReply rest)
    | none =>
      match Word.ofText word with
      | .escape => .error (.refusal (escaped verbosity rest))
      | .long name value => .error (longReply name value)
      | .short letters => do readFrom (← takeLetters verbosity letters) rest
      | .plain word => .error (.refusal (.unknownCommand word))

/-- Reads the words of a command line after the name of the program. -/
def read (words : List String) : Except Reply Invocation :=
  readFrom 0 (words.map String.toList)

end LogGuard.Command
