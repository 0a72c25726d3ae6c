import CodeAtlas.Text.Basic

/-!
# Arguments

A command takes options and at most one other argument. `Usage.read` sorts arguments by what the
command takes; what it does not take, or what is given twice, is misuse.
-/

namespace CodeAtlas.CommandLine

open Text

/-- An option of a command. -/
structure Flag where
  /-- Its name behind two hyphens. -/
  long : String
  /-- Its letter behind one hyphen. -/
  short : Option Char := none
  /-- What its value is called, if it has one. -/
  value : Option String := none
  /-- The value that it has if it is not given. -/
  default : Option String := none
  /-- Whether it may be given several times. -/
  isRepeatable : Bool := false
  /-- Whether its value may be empty. -/
  allowsEmpty : Bool := false
  help : String
  deriving DecidableEq, Repr

/-- What a command takes. -/
structure Usage where
  name : String
  about : String
  flags : List Flag
  /-- What the other argument is called and what it is. It has to be given, and is not empty. -/
  argument : Option (String × String) := none
  /-- Whether the command tells its version. -/
  hasVersion : Bool := false
  deriving DecidableEq, Repr

/-- Why arguments are not read to the end. -/
inductive Interruption where
  /-- Help is asked for. -/
  | help
  /-- The version is asked for. -/
  | version
  | misuse
  deriving DecidableEq, Repr

/-- What is given to a command: options by name, in order, and the other argument. -/
structure Given where
  options : List (String × String) := []
  argument : Option String := none
  deriving DecidableEq, Repr

namespace Given

/-- The value of an option. -/
def value? (g : Given) (name : String) : Option String := g.options.lookup name

/-- All values of an option. -/
def values (g : Given) (name : String) : List String :=
  (g.options.filter fun o => o.1 == name).map (·.2)

/-- Whether an option is given. -/
def has (g : Given) (name : String) : Bool := (g.value? name).isSome

/-- Adds an option. -/
def add (g : Given) (f : Flag) (value : String) : Except Interruption Given :=
  if (g.has f.long && !f.isRepeatable) || (f.value.isSome && value.isEmpty && !f.allowsEmpty) then
    .error .misuse
  else .ok { g with options := g.options ++ [(f.long, value)] }

end Given

namespace Usage

/-- What a long option asks for, or the flag. -/
def longFlag (u : Usage) (name : List Char) : Except Interruption Flag :=
  match u.flags.find? fun f => f.long.toList == name with
  | some f => .ok f
  | none =>
      if name == "help".toList then .error .help
      else if u.hasVersion && name == "version".toList then .error .version
      else .error .misuse

/-- What a letter asks for, or the flag. -/
def shortFlag (u : Usage) (letter : Char) : Except Interruption Flag :=
  match u.flags.find? fun f => f.short == some letter with
  | some f => .ok f
  | none =>
      if letter == 'h' then .error .help
      else if u.hasVersion && letter == 'V' then .error .version
      else .error .misuse

/-- Reads a long option behind its hyphens: what is given with it, and the flag if its value is the
next argument. -/
def readLong (u : Usage) (g : Given) (text : List Char) :
    Except Interruption (Given × Option Flag) := do
  let (name, value?) := match cut? ['='] text with
    | some (name, value) => (name, some (String.ofList value))
    | none => (text, none)
  if value?.isSome && (name == "help".toList || name == "version".toList) then throw .misuse
  let f ← u.longFlag name
  match f.value, value? with
  | none, none => return (← g.add f "", none)
  | none, some _ => throw .misuse
  | some _, some value => return (← g.add f value, none)
  | some _, none => return (g, some f)

/-- Reads letters behind a hyphen. The value of an option may stand right behind its letter. -/
def readShort (u : Usage) (g : Given) : List Char → Except Interruption (Given × Option Flag)
  | [] => .ok (g, none)
  | letter :: rest => do
    let f ← u.shortFlag letter
    match f.value, rest with
    | none, _ => readShort u (← g.add f "") rest
    | some _, [] => return (g, some f)
    | some _, '=' :: value => return (← g.add f (String.ofList value), none)
    | some _, value => return (← g.add f (String.ofList value), none)

/-- Whether an argument looks like an option. -/
def isOption (arg : String) : Bool := startsWith arg.toList ['-'] && arg != "-"

/-- Adds the other argument. -/
def addArgument (u : Usage) (g : Given) (arg : String) : Except Interruption Given :=
  if u.argument.isNone || g.argument.isSome || arg.isEmpty then .error .misuse
  else .ok { g with argument := some arg }

/-- How far reading has come: what is given, whether options may still follow, and the option whose
value is the next argument. -/
structure Progress where
  given : Given := {}
  isOpen : Bool := true
  pending? : Option Flag := none
  deriving DecidableEq, Repr

/-- Reads one argument. Behind two hyphens alone there are no more options. -/
def step (u : Usage) (p : Progress) (arg : String) : Except Interruption Progress :=
  match p.pending? with
  | some f =>
      if isOption arg then .error .misuse
      else (p.given.add f arg).map fun g => { p with given := g, pending? := none }
  | none =>
      if !p.isOpen || !isOption arg then
        (u.addArgument p.given arg).map fun g => { p with given := g }
      else if arg == "--" then .ok { p with isOpen := false }
      else
        let read := match after? ['-', '-'] arg.toList with
          | some text => u.readLong p.given text
          | none => u.readShort p.given (arg.toList.drop 1)
        read.map fun (g, pending?) => { p with given := g, pending? := pending? }

/-- Reads the arguments of a command. -/
def read (u : Usage) (args : List String) : Except Interruption Given := do
  let p ← args.foldlM u.step {}
  if p.pending?.isSome || (u.argument.isSome && p.given.argument.isNone) then throw .misuse
  return p.given

/-! ## Help -/

/-- How an option is written in a list. -/
def flagText (f : Flag) : String :=
  let short := match f.short with
    | some letter => String.ofList ['-', letter, ',', ' ']
    | none => "    "
  let value := match f.value with
    | some name => " <" ++ name ++ ">"
    | none => ""
  short ++ "--" ++ f.long ++ value

/-- What is said about an option. -/
def flagHelp (f : Flag) : String :=
  match f.default with
  | some value => f.help ++ " [default: " ++ value ++ "]"
  | none => f.help

/-- The options of a command with those that every command has. -/
def allFlags (u : Usage) : List Flag :=
  let version : List Flag :=
    if u.hasVersion then [{ long := "version", short := some 'V', help := "Print version" }] else []
  u.flags ++ [{ long := "help", short := some 'h', help := "Print help" }] ++ version

/-- A list with two columns. -/
def columns (rows : List (String × String)) : String :=
  let width := rows.foldl (fun n (left, _) => max n left.length) 0
  String.join (rows.map fun (left, right) =>
    "  " ++ left ++ String.ofList (List.replicate (width - left.length) ' ') ++ "  "
      ++ right ++ "\n")

/-- The help of a command that is called by a name. -/
def helpText (u : Usage) (called : String) : String :=
  let argument := match u.argument with
    | some (name, _) => " <" ++ name ++ ">"
    | none => ""
  let arguments := match u.argument with
    | some (name, help) => "Arguments:\n" ++ columns [("<" ++ name ++ ">", help)] ++ "\n"
    | none => ""
  u.about ++ "\n\nUsage: " ++ called ++ " [OPTIONS]" ++ argument ++ "\n\n" ++ arguments ++
    "Options:\n" ++ columns (u.allFlags.map fun f => (flagText f, flagHelp f))

end Usage

end CodeAtlas.CommandLine
