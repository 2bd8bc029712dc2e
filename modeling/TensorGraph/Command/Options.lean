/-!
# Options of a command line

Arguments are options, which start with a dash, or words. An option with a value takes it from the
rest of its own argument or from the next one.
-/

namespace TensorGraph.Command

/-- An option that may be given. -/
structure Flag where
  long : String
  short? : Option Char := none
  /-- Which values it takes; one without a test takes no value. -/
  accepts? : Option (String → Bool) := none
  repeatable : Bool := false

/-- The options and words that a command takes. -/
structure Grammar where
  flags : List Flag
  /-- Whether words are arguments; otherwise the first word ends the options. -/
  words : Bool
  version : Bool := false

/-- Why there is no command to be run. -/
inductive Stop where
  | misuse
  | help
  | version
deriving DecidableEq, Repr

/-- The arguments given: options by name with their values, words in order. -/
structure Given where
  values : List (String × String) := []
  words : List String := []
deriving DecidableEq, Repr, Inhabited

namespace Given

def value? (g : Given) (name : String) : Option String := g.values.lookup name

def has (g : Given) (name : String) : Bool := (g.value? name).isSome

/-- Adds an option. Only some may be given twice, and a value must be one that the option takes. -/
def add (g : Given) (f : Flag) (value : String) : Except Stop Given :=
  if !f.repeatable && g.has f.long then .error .misuse
  else if f.accepts?.any fun accepts => !accepts value then .error .misuse
  else .ok { g with values := g.values ++ [(f.long, value)] }

end Given

def isOption (arg : String) : Bool :=
  match arg.toList with
  | '-' :: _ :: _ => true
  | _ => false

/-- Takes an option with a value from the next argument. -/
def addNext (g : Given) (f : Flag) : List String → Except Stop (Given × List String)
  | value :: rest =>
    if isOption value then .error .misuse else (g.add f value).map fun g => (g, rest)
  | [] => .error .misuse

/-- Takes an option that is written by name, without its dashes. -/
def addLong (grammar : Grammar) (g : Given) (body : List Char) (rest : List String) :
    Except Stop (Given × List String) :=
  let name := String.ofList (body.takeWhile (· ≠ '='))
  let value? := match body.dropWhile (· ≠ '=') with
    | [] => none
    | _ :: value => some (String.ofList value)
  match grammar.flags.find? fun f => f.long = name with
  | some f =>
    match f.accepts?, value? with
    | none, none => (g.add f "").map fun g => (g, rest)
    | none, some _ => .error .misuse
    | some _, some value => (g.add f value).map fun g => (g, rest)
    | some _, none => addNext g f rest
  | none =>
    if value?.isSome then .error .misuse
    else if name = "help" then .error .help
    else if name = "version" && grammar.version then .error .version
    else .error .misuse

/-- Takes options that are written by letters behind one dash. -/
def addShort (grammar : Grammar) : Given → List Char → List String →
    Except Stop (Given × List String)
  | g, [], rest => .ok (g, rest)
  | g, c :: cs, rest =>
    match grammar.flags.find? fun f => f.short? = some c with
    | some f =>
      if f.accepts?.isNone then do
        let g ← g.add f ""
        addShort grammar g cs rest
      else
        match cs with
        | [] => addNext g f rest
        | '=' :: value => (g.add f (String.ofList value)).map fun g => (g, rest)
        | value => (g.add f (String.ofList value)).map fun g => (g, rest)
    | none =>
      if c = 'h' then .error .help
      else if c = 'V' && grammar.version then .error .version
      else .error .misuse

/-- Reads arguments, in at most `fuel` steps: those given, and what follows the word that ends the
options, this word included. -/
def scan (grammar : Grammar) : (fuel : Nat) → Given → List String →
    Except Stop (Given × List String)
  | 0, g, args => .ok (g, args)
  | _, g, [] => .ok (g, [])
  | fuel + 1, g, arg :: rest =>
    match arg.toList with
    | '-' :: '-' :: [] =>
      if grammar.words then .ok ({ g with words := g.words ++ rest }, [])
      else if rest.isEmpty then .ok (g, [])
      else .error .misuse
    | '-' :: '-' :: body => do
      let (g, rest) ← addLong grammar g body rest
      scan grammar fuel g rest
    | '-' :: c :: cs => do
      let (g, rest) ← addShort grammar g (c :: cs) rest
      scan grammar fuel g rest
    | _ =>
      if grammar.words then scan grammar fuel { g with words := g.words ++ [arg] } rest
      else .ok (g, arg :: rest)

def Grammar.read (grammar : Grammar) (args : List String) : Except Stop (Given × List String) :=
  scan grammar args.length {} args

end TensorGraph.Command
