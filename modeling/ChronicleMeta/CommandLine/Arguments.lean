import ChronicleMeta.Command
import ChronicleMeta.Number.Reading

/-!
Arguments of the command line. Options come before the command and each at most once; an option has
its value in the next argument or, after an equals sign, in the same one.
-/

namespace ChronicleMeta.CommandLine

open Number (isDigit digitsValue)

/-- What is to be done: a command, or the state of the cache after all chronicles of the catalog have
been looked up. -/
inductive Action where
  | command (c : Command)
  | catalogStats

structure Options where
  config : Option String := none
  catalog : Option String := none
  /-- The level of the log, instead of that in the settings. -/
  logLevel : Option String := none
  /-- The capacity of the cache, instead of that in the settings. -/
  cacheCapacity : Option Nat := none
  json : Bool := false

structure Arguments where
  options : Options
  action : Action

inductive Setting where
  | config
  | catalog
  | logLevel
  | cacheCapacity
deriving DecidableEq, Repr

def Setting.ofName? : String → Option Setting
  | "config" => some .config
  | "catalog" => some .catalog
  | "log-level" => some .logLevel
  | "cache-capacity" => some .cacheCapacity
  | _ => none

def readSize? (cs : List Char) : Option Nat :=
  let ds := match cs with
    | '+' :: ds => ds
    | ds => ds
  if ds ≠ [] ∧ ds.all isDigit ∧ digitsValue ds < UInt64.size then some (digitsValue ds) else none

def setOnce {α : Type} (old : Option α) (new : α) : Option (Option α) :=
  if old.isNone then some (some new) else none

def Options.set (o : Options) (value : String) : Setting → Option Options
  | .config => do
    if value.isEmpty then none
    return { o with config := ← setOnce o.config value }
  | .catalog => do
    if value.isEmpty then none
    return { o with catalog := ← setOnce o.catalog value }
  | .logLevel => do return { o with logLevel := ← setOnce o.logLevel value }
  | .cacheCapacity => do
    return { o with cacheCapacity := ← setOnce o.cacheCapacity (← readSize? value.toList) }

/-- Whether the argument looks like an option; a hyphen alone does not. -/
def looksLikeOption (arg : String) : Bool :=
  match arg.toList with
  | '-' :: _ :: _ => true
  | _ => false

inductive Part where
  | json
  | assignment (s : Setting) (value : String)
  | setting (s : Setting)
  | word

def splitAssignment (cs : List Char) : String × Option String :=
  let name := cs.takeWhile (· ≠ '=')
  (String.ofList name, match cs.drop name.length with
    | _ :: value => some (String.ofList value)
    | [] => none)

def Part.ofArgument? (arg : String) : Option Part :=
  match arg.toList with
  | '-' :: '-' :: cs =>
    match splitAssignment cs with
    | ("json", none) => some .json
    | (name, none) => (Setting.ofName? name).map .setting
    | (name, some value) => (Setting.ofName? name).map fun s => .assignment s value
  | ['-', 'c'] => some (.setting .config)
  | '-' :: 'c' :: '=' :: value => some (.assignment .config (String.ofList value))
  | '-' :: 'c' :: value => some (.assignment .config (String.ofList value))
  | '-' :: _ :: _ => none
  | _ => some .word

def readOptions (o : Options) : List String → Option (Options × List String)
  | [] => some (o, [])
  | arg :: args =>
    match Part.ofArgument? arg with
    | none => none
    | some .json => if o.json then none else readOptions { o with json := true } args
    | some (.assignment s value) => (o.set value s).bind fun o => readOptions o args
    | some (.setting s) =>
      match args with
      | value :: args =>
        if looksLikeOption value then none else (o.set value s).bind fun o => readOptions o args
      | [] => none
    | some .word => some (o, arg :: args)

/-- The operands of a command, in which one `--` is passed over: after it an operand may start with
a hyphen. -/
def operands? : List String → Option (List String)
  | [] => some []
  | "--" :: args => some args
  | arg :: args => if looksLikeOption arg then none else (operands? args).map (arg :: ·)

def patternOf? : List String → Option String
  | [] => some "*"
  | [pattern] => some pattern
  | _ => none

def nameOf? : List String → Option String
  | [name] => some name
  | _ => none

def Action.ofWords? : List String → Option Action
  | "schema" :: "list" :: args => do return .command (.listSchemas (← patternOf? (← operands? args)))
  | "schema" :: "show" :: args => do return .command (.showSchema (← nameOf? (← operands? args)))
  | "schema" :: "check" :: args => do return .command (.checkSchema (← nameOf? (← operands? args)))
  | "schema" :: "dependencies" :: args => do
    return .command (.dependencies (← nameOf? (← operands? args)))
  | "chronicle" :: "show" :: args => do
    return .command (.showChronicle (← nameOf? (← operands? args)))
  | "chronicle" :: "stats" :: args => do
    if (← operands? args).isEmpty then return .catalogStats else none
  | "property" :: "list" :: args => do
    return .command (.listProperties (← patternOf? (← operands? args)))
  | _ => none

def Arguments.ofWords? (words : List String) : Option Arguments := do
  let (options, words) ← readOptions {} words
  return { options, action := ← Action.ofWords? words }

end ChronicleMeta.CommandLine
