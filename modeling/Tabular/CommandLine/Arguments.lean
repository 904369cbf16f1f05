/-!
The arguments of the command line, read from the first to the last. An argument that asks for help
or the version counts as soon as it is met, so what comes before it has to be right.
-/
namespace Tabular.CommandLine

/-- A setting that takes a value. -/
inductive Setting where
  | schema | type | location | name | owner | tablePrefix | port | user | password | config
  | script | logFormat | verbosity
  deriving DecidableEq, Repr

inductive Flag where
  | existing | force | trustCertificate | outputJson | help | version
  deriving DecidableEq, Repr

/-- What an argument is the name of. -/
inductive Item where
  | setting (s : Setting)
  | flag (f : Flag)
  deriving DecidableEq, Repr

namespace Item

/-- Every item with its long name, and its letter if it has one. -/
def all : List (Item × String × Option Char) :=
  [(.setting .schema, "schema", some 's'), (.setting .type, "type", some 't'),
    (.setting .location, "location", some 'l'), (.setting .name, "name", some 'n'),
    (.setting .owner, "dbowner", some 'o'), (.setting .tablePrefix, "tableprefix", some 'p'),
    (.flag .existing, "existing", some 'e'), (.flag .force, "force", some 'f'),
    (.setting .port, "port", none), (.setting .user, "user", none),
    (.setting .password, "password", none),
    (.flag .trustCertificate, "trust-server-cert", none), (.setting .config, "config", some 'c'),
    (.setting .script, "script", none), (.flag .outputJson, "output-json", none),
    (.setting .logFormat, "log-format", none), (.setting .verbosity, "verbosity", none),
    (.flag .help, "help", some 'h'), (.flag .version, "version", some 'V')]

def ofName? (name : List Char) : Option Item :=
  (all.find? fun i => i.2.1.toList == name).map (·.1)

def ofLetter? (c : Char) : Option Item := (all.find? fun i => i.2.2 == some c).map (·.1)

end Item

/-- Why reading stops before the end. -/
inductive Stop where
  | help | version
  /-- An argument that cannot be read. -/
  | malformed
  deriving DecidableEq, Repr

/-- The settings and flags given, each at most once. -/
structure Arguments where
  settings : List (Setting × String) := []
  flags : List Flag := []
  deriving DecidableEq, Repr

namespace Arguments

def get? (a : Arguments) (s : Setting) : Option String :=
  (a.settings.find? (·.1 == s)).map (·.2)

def has (a : Arguments) (f : Flag) : Bool := a.flags.contains f

/-- A number with a sign or without one. -/
def integer? : List Char → Option Int
  | '-' :: cs => (natural? cs).map fun n => -(n : Int)
  | '+' :: cs => (natural? cs).map fun n => (n : Int)
  | cs => (natural? cs).map fun n => (n : Int)
where
  natural? (cs : List Char) : Option Nat :=
    if !cs.isEmpty && cs.all Char.isDigit then
      some (cs.foldl (fun n c => 10 * n + (c.toNat - '0'.toNat)) 0)
    else none

/-- The number of a port. -/
def portNumber? (text : String) : Option UInt16 := do
  let n ← integer? text.toList
  if 0 ≤ n && n < 0x10000 then some (UInt16.ofNat n.toNat) else none

/-- A file has a name, and a port is a number. -/
def accepts (s : Setting) (value : String) : Bool :=
  match s with
  | .schema | .config => !value.isEmpty
  | .port => (portNumber? value).isSome
  | _ => true

def set (a : Arguments) (s : Setting) (value : String) : Except Stop Arguments :=
  if (a.get? s).isSome || !accepts s value then .error .malformed
  else .ok { a with settings := a.settings ++ [(s, value)] }

def raise (a : Arguments) (f : Flag) : Except Stop Arguments :=
  match f with
  | .help => .error .help
  | .version => .error .version
  | f => if a.has f then .error .malformed else .ok { a with flags := a.flags ++ [f] }

/-- The arguments so far, and the setting that the next one is the value of. -/
abbrev Progress := Arguments × Option Setting

/-- Reads the letters behind a hyphen. A setting takes what is behind its letter as its value. -/
def letters (a : Arguments) : List Char → Except Stop Progress
  | [] => .ok (a, none)
  | c :: cs =>
    match Item.ofLetter? c with
    | none => .error .malformed
    | some (.flag f) => do
      let a ← a.raise f
      a.letters cs
    | some (.setting s) =>
      match cs with
      | [] => .ok (a, some s)
      | '=' :: value => do return (← a.set s (String.ofList value), none)
      | value => do return (← a.set s (String.ofList value), none)

/-- Reads what is behind two hyphens: a name, perhaps with a value behind an equals sign. -/
def long (a : Arguments) (cs : List Char) : Except Stop Progress :=
  let value := match cs.dropWhile (· != '=') with
    | [] => none
    | _ :: value => some (String.ofList value)
  match Item.ofName? (cs.takeWhile (· != '=')), value with
  | some (.flag f), none => do return (← a.raise f, none)
  | some (.setting s), none => .ok (a, some s)
  | some (.setting s), some v => do return (← a.set s v, none)
  | some (.flag _), some _ | none, _ => .error .malformed

/-- Reads one argument. -/
def step (p : Progress) (argument : String) : Except Stop Progress :=
  match argument.toList, p with
  | '-' :: '-' :: cs, (a, none) => a.long cs
  | '-' :: c :: cs, (a, none) => a.letters (c :: cs)
  | '-' :: _ :: _, (_, some _) => .error .malformed
  | _, (a, some s) => do return (← a.set s argument, none)
  | _, (_, none) => .error .malformed

/-- Reads arguments. Nothing may stand behind two hyphens on their own. -/
def readFrom (p : Progress) : List String → Except Stop Arguments
  | [] => if p.2.isSome then .error .malformed else .ok p.1
  | "--" :: rest => if p.2.isSome || !rest.isEmpty then .error .malformed else .ok p.1
  | argument :: rest =>
    match step p argument with
    | .ok p => readFrom p rest
    | .error e => .error e

def read (arguments : List String) : Except Stop Arguments := readFrom ({}, none) arguments

end Arguments

end Tabular.CommandLine
