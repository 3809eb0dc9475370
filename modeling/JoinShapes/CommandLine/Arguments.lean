import JoinShapes.Settings.Overrides

/-!
# Arguments of the command line

Arguments are read from left to right. The first one that asks for help or for the version decides, unless an argument
before it is refused; what comes after it is not looked at.
-/

namespace JoinShapes
namespace CommandLine

/-- The options that take a value. -/
inductive ValueOption
  | source
  | destination
  | package
  | joinNum
deriving DecidableEq, Repr

/-- Why arguments are refused. -/
inductive Refusal
  /-- An argument that nothing is known about. -/
  | unexpected (argument : String)
  | missingValue (o : ValueOption)
  | invalidValue (o : ValueOption) (value reason : String)
  /-- A value for an option that takes none. -/
  | unwantedValue (name value : String)
  | repeated (name : String)
deriving DecidableEq, Repr

/-- What arguments ask for. -/
inductive Request
  | help
  | version
  | generate (o : Overrides)
deriving DecidableEq, Repr

namespace ValueOption

/-- The name of an option, without dashes. -/
def name : ValueOption → String
  | source => "src"
  | destination => "dst"
  | package => "package"
  | joinNum => "join-num"

/-- The option of a name. -/
def ofName? (text : String) : Option ValueOption :=
  [source, destination, package, joinNum].find? (·.name == text)

/-- Refuses an option that already has a value. -/
def once {α : Type} (o : ValueOption) (given : Option α) : Except Refusal Unit :=
  if given.isSome then .error (.repeated o.name) else .ok ()

/-- A path has to be something. -/
def path (o : ValueOption) (value : String) : Except Refusal String :=
  if value.isEmpty then .error (.invalidValue o value "a value is required") else .ok value

/-- The number that a value spells. -/
def number (o : ValueOption) (value : String) : Except Refusal Nat :=
  (Numeral.ofText value).mapError fun e => .invalidValue o value e.message

/-- The overrides with the value of an option. -/
def set (o : ValueOption) (value : String) (given : Overrides) : Except Refusal Overrides := do
  match o with
  | source => o.once given.source; return { given with source := ← o.path value }
  | destination => o.once given.destination; return { given with destination := ← o.path value }
  | package => o.once given.package; return { given with package := value }
  | joinNum => o.once given.joinNum; return { given with joinNum := ← o.number value }

end ValueOption

/-! ## The form of arguments -/

/-- An argument by its form. -/
inductive Argument
  /-- Two dashes alone: no options after this. -/
  | stop
  /-- A name after two dashes, and the text behind an equals sign. -/
  | long (name : String) (value : Option String)
  /-- A dash and letters, the first of which decides. -/
  | short (letter : Char)
  | plain (text : String)
deriving DecidableEq, Repr

/-- The form of an argument. -/
def Argument.ofText (text : String) : Argument :=
  match text.toList with
  | ['-', '-'] => .stop
  | '-' :: '-' :: cs =>
    let name := cs.takeWhile (· != '=')
    .long (.ofList name) (if name.length = cs.length then none else some (.ofList (cs.drop (name.length + 1))))
  | '-' :: c :: _ => .short c
  | _ => .plain text

/-- Whether an argument can be the value of the option before it: a dash alone can. -/
def Argument.isValue : Argument → Bool
  | plain _ => true
  | _ => false

/-! ## Reading -/

/-- What arguments ask for, after those that have set the given overrides. -/
def read (given : Overrides) : List String → Except Refusal Request
  | [] => .ok (.generate given)
  | arg :: args =>
    match Argument.ofText arg with
    | .plain text => .error (.unexpected text)
    | .stop =>
      match args with
      | [] => .ok (.generate given)
      | next :: _ => .error (.unexpected next)
    | .short 'h' | .long "help" none => .ok .help
    | .short 'V' | .long "version" none => .ok .version
    | .short _ => .error (.unexpected arg)
    | .long "compact" none =>
      if given.compact then .error (.repeated "compact") else read { given with compact := true } args
    | .long name (some value) =>
      match ValueOption.ofName? name with
      | some o =>
        match o.set value given with
        | .ok given => read given args
        | .error r => .error r
      | none =>
        if name ∈ ["help", "version", "compact"] then .error (.unwantedValue name value)
        else .error (.unexpected arg)
    | .long name none =>
      match ValueOption.ofName? name, args with
      | some o, value :: args =>
        if (Argument.ofText value).isValue then
          match o.set value given with
          | .ok given => read given args
          | .error r => .error r
        else .error (.missingValue o)
      | some o, [] => .error (.missingValue o)
      | none, _ => .error (.unexpected arg)

/-- What arguments ask for. -/
def request (args : List String) : Except Refusal Request := read .empty args

/-- The refusal in words. -/
def Refusal.message : Refusal → String
  | unexpected argument => s!"unexpected argument {argument}"
  | missingValue o => s!"--{o.name} needs a value"
  | invalidValue o value reason => s!"invalid value {Text.quoted value} for --{o.name}: {reason}"
  | unwantedValue name value => s!"--{name} takes no value, but {Text.quoted value} was given"
  | repeated name => s!"--{name} cannot be used multiple times"

end CommandLine
end JoinShapes
