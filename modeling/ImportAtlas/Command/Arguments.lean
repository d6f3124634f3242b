import ImportAtlas.Path

/-!
# Command/Arguments — what the words of a command line ask for

Words are read from the left to the right, first those before the name of the command and then those
behind it.  Some flags may stand on either side.  An option keeps its value pending until the next
argument is taken, so that of two faults the one that is noticed first counts.
-/

namespace ImportAtlas

/-- What is done. -/
inductive Command
  | tree
  | graph
deriving DecidableEq, Repr, Inhabited

/-- The word that names a command. -/
def Command.word : Command → String
  | tree => "tree"
  | graph => "graph"

/-- The command with a name. -/
def Command.ofWord? (word : String) : Option Command :=
  [Command.tree, Command.graph].find? fun c => c.word == word

/-- What a command line asks for. -/
structure Invocation where
  verbose : Bool
  quiet : Bool
  noColor : Bool
  config : Option Path
  command : Command
  /-- The directory or the entry module. -/
  path : Path
  compact : Bool
  output : Option Path
deriving DecidableEq, Repr, Inhabited

/-- Why a command line is not carried out. -/
inductive UsageError
  | argumentConflict
  | displayHelp
  | displayHelpOnMissing
  | displayVersion
  | invalidSubcommand
  | invalidValue
  | missingRequiredArgument
  | missingSubcommand
  | tooManyValues
  | unknownArgument
deriving DecidableEq, Repr, Inhabited

/-- The exit code of the program.  To be asked for help or for the version is no failure. -/
def UsageError.exitCode : UsageError → Nat
  | displayHelp | displayVersion => 0
  | _ => 2

namespace Arguments

/-- The name and version of the program, as it tells them. -/
def versionText : String := "modtree 0.1.0\n"

/-- An argument without a value. -/
inductive Flag
  | verbose
  | quiet
  | noColor
  | compact
  | help
  | version
deriving DecidableEq, Repr

/-- An argument with a value. -/
inductive Slot
  | config
  | output
  | path
deriving DecidableEq, Repr

/-- Where an argument stands: before the name of the command or behind it. -/
inductive Level
  | top
  | command
deriving DecidableEq, Repr

/-- What a long name or a letter stands for. -/
inductive Argument
  | flag (f : Flag)
  | option (s : Slot)

namespace Level

/-- The argument with a long name. -/
def ofName? (level : Level) (name : List Char) : Option Argument :=
  match String.ofList name, level with
  | "verbose", _ => some (.flag .verbose)
  | "quiet", _ => some (.flag .quiet)
  | "no-color", _ => some (.flag .noColor)
  | "config", _ => some (.option .config)
  | "help", _ => some (.flag .help)
  | "version", .top => some (.flag .version)
  | "compact", .command => some (.flag .compact)
  | "output", .command => some (.option .output)
  | _, _ => none

/-- The argument with a letter. -/
def ofLetter? (level : Level) (letter : Char) : Option Argument :=
  match letter, level with
  | 'v', _ => some (.flag .verbose)
  | 'q', _ => some (.flag .quiet)
  | 'c', _ => some (.option .config)
  | 'h', _ => some (.flag .help)
  | 'V', .top => some (.flag .version)
  | 'o', .command => some (.option .output)
  | _, _ => none

end Level

/-- The arguments of one level. -/
structure Given where
  flags : List Flag := []
  values : List (Slot × String) := []
  /-- An argument whose value is not checked yet, or has not come yet. -/
  pending : Option (Slot × Option String) := none

namespace Given

/-- Whether an option waits for its value. -/
def isWaiting (g : Given) : Bool := g.pending.any fun p => p.2.isNone

/-- Whether nothing is given. -/
def isEmpty (g : Given) : Bool := g.flags.isEmpty && g.values.isEmpty

/-- The value of an argument. -/
def value? (g : Given) (s : Slot) : Option String := g.values.lookup s

/-- Whether a flag is given. -/
def has (g : Given) (f : Flag) : Bool := g.flags.contains f

/-- Checks the pending argument: it must have a value that is not empty, and be the only one of its
kind on the level. -/
def settle (g : Given) : Except UsageError Given :=
  match g.pending with
  | none => .ok g
  | some (_, none) => .error .invalidValue
  | some (slot, some text) =>
    if (g.value? slot).isSome then .error .argumentConflict
    else if text == "" then .error .invalidValue
    else .ok { g with values := (slot, text) :: g.values, pending := none }

/-- Takes a flag. -/
def takeFlag (g : Given) (f : Flag) : Except UsageError Given := do
  let g ← g.settle
  match f with
  | .help => throw .displayHelp
  | .version => throw .displayVersion
  | f => if g.has f then throw .argumentConflict else return { g with flags := f :: g.flags }

/-- Takes an option whose value is the next word. -/
def takeOption (g : Given) (s : Slot) : Except UsageError Given := do
  return { ← g.settle with pending := some (s, none) }

/-- Takes an option with its value. -/
def takeAttached (g : Given) (s : Slot) (text : List Char) : Except UsageError Given := do
  settle { ← g.settle with pending := some (s, some (String.ofList text)) }

/-- Takes the word that an option waits for. -/
def takeValue (g : Given) (text : String) : Given :=
  { g with pending := g.pending.map fun p => (p.1, some text) }

/-- Takes a word that is no option.  A second one is too many, whatever is pending. -/
def takePath (g : Given) (text : String) : Except UsageError Given := do
  if (g.value? .path).isSome || g.pending.any (·.1 == .path) then throw .unknownArgument
  return { ← g.settle with pending := some (.path, some text) }

/-- Takes letters behind a dash. -/
def takeLetters (level : Level) : List Char → Given → Except UsageError Given
  | [], g => .ok g
  | letter :: rest, g =>
    match level.ofLetter? letter, rest with
    | some (.flag f), rest => do takeLetters level rest (← g.takeFlag f)
    | some (.option s), [] => g.takeOption s
    | some (.option s), '=' :: text => g.takeAttached s text
    | some (.option s), text => g.takeAttached s text
    | none, _ => .error .unknownArgument

/-- Takes what stands behind two dashes: a name, and perhaps a value behind an equals sign. -/
def takeLong (level : Level) (text : List Char) (g : Given) : Except UsageError Given :=
  let name := text.takeWhile (· != '=')
  match level.ofName? name, text.drop name.length with
  | some (.flag f), [] => g.takeFlag f
  | some (.flag _), _ => .error .tooManyValues
  | some (.option s), [] => g.takeOption s
  | some (.option s), _ :: value => g.takeAttached s value
  | none, _ => .error .unknownArgument

/-- Takes a word that starts with a dash and is more than that; nothing inside if it is not such a
word. -/
def takeDashed? (level : Level) (word : String) (g : Given) : Option (Except UsageError Given) :=
  match word.toList with
  | '-' :: '-' :: c :: rest => some (takeLong level (c :: rest) g)
  | ['-', '-'] => none
  | '-' :: c :: rest => some (takeLetters level (c :: rest) g)
  | _ => none

/-- The check at the end of a level: the flags for more and for less output exclude each other. -/
def finish (g : Given) : Except UsageError Given := do
  let g ← g.settle
  if g.has .verbose && g.has .quiet then throw .argumentConflict else return g

end Given

/-- Whether the word names a command, or asks for help on one. -/
def isCommandWord (word : String) : Bool := word == "help" || (Command.ofWord? word).isSome

/-- The answer to the command that asks for help. -/
def helpOn : List String → UsageError
  | [] => .displayHelp
  | [word] => if isCommandWord word then .displayHelp else .invalidSubcommand
  | _ => .invalidSubcommand

/-- The arguments behind the name of the command; `plain` says that no more options come. -/
def behindCommand (plain : Bool) (g : Given) : List String → Except UsageError Given
  | [] => do
    let g ← g.finish
    if (g.value? .path).isNone then throw .missingRequiredArgument else return g
  | word :: rest =>
    if plain then do behindCommand plain (← g.takePath word) rest
    else if word == "--" then behindCommand true g rest
    else match g.takeDashed? .command word with
      | some r => do behindCommand plain (← r) rest
      | none =>
        if g.isWaiting then behindCommand plain (g.takeValue word) rest
        else do behindCommand plain (← g.takePath word) rest

/-- The arguments before the name of the command, the command, and the arguments behind it. -/
def beforeCommand (plain : Bool) (g : Given) :
    List String → Except UsageError (Given × Command × Given)
  | [] => do
    let g ← g.settle
    throw (if g.isEmpty then .displayHelpOnMissing else .missingSubcommand)
  | word :: rest =>
    if plain then .error (if isCommandWord word then .unknownArgument else .invalidSubcommand)
    else match g.isWaiting, Command.ofWord? word with
      | false, some command => do
        let inner ← behindCommand false {} rest
        return (← g.finish, command, inner)
      | waiting, _ =>
        if !waiting && word == "help" then .error (helpOn rest)
        else if word == "--" then beforeCommand true g rest
        else match g.takeDashed? .top word with
          | some r => do beforeCommand plain (← r) rest
          | none =>
            if waiting then beforeCommand plain (g.takeValue word) rest
            else .error .invalidSubcommand

end Arguments

open Arguments

/-- **What the words of a command line ask for.**  Of an option that is given on both sides of the
command, the later one counts. -/
def Invocation.parse (words : List String) : Except UsageError Invocation := do
  let (outer, command, inner) ← beforeCommand false {} words
  let has (f : Flag) : Bool := outer.has f || inner.has f
  return {
    verbose := has .verbose
    quiet := has .quiet
    noColor := has .noColor
    config := ((inner.value? .config).or (outer.value? .config)).map Path.mk
    command := command
    path := ⟨(inner.value? .path).getD ""⟩
    compact := inner.has .compact
    output := (inner.value? .output).map Path.mk }

end ImportAtlas
