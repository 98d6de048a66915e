import BenchLedger.CommandLine.Command

/-! # Arguments

Switches come first: they set the level of the notes. Then comes a verb, and after it the verb's own
values. A verb takes a fixed number of values. Before a value, two hyphens make all that follows
values; without them no value may start with a hyphen, except a single hyphen, and except a sample,
which may be negative. The same switch is never given twice.

* `Word.ofString`: what an argument looks like.
* `Form.read`: the values of a verb.
* `Invocation.read`: what all arguments ask for. -/

namespace BenchLedger.CommandLine

/-- Why arguments name no command. -/
inductive Halt where
  /-- They ask for help. -/
  | help
  /-- They are misused. -/
  | misuse
  deriving DecidableEq, Repr

/-- What an argument looks like. -/
inductive Word where
  /-- Two hyphens alone. -/
  | separator
  /-- Two hyphens and a name. -/
  | long (name : String)
  /-- A hyphen and letters. -/
  | short (letters : List Char)
  /-- No switch. -/
  | value
  deriving DecidableEq, Repr

/-- What an argument looks like. -/
def Word.ofString (argument : String) : Word :=
  match argument.toList with
  | ['-', '-'] => .separator
  | '-' :: '-' :: name => .long (String.ofList name)
  | '-' :: letter :: letters => .short (letter :: letters)
  | _ => .value

/-! ### Switches -/

/-- How often each switch was given. -/
structure Switches where
  verbose : Nat := 0
  debug : Nat := 0
  quiet : Nat := 0
  deriving DecidableEq, Repr

namespace Switches

/-- The switches after one more, known by its letter. -/
def letter (switches : Switches) : Char → Except Halt Switches
  | 'v' => .ok { switches with verbose := switches.verbose + 1 }
  | 'd' => .ok { switches with debug := switches.debug + 1 }
  | 'q' => .ok { switches with quiet := switches.quiet + 1 }
  | 'h' => .error .help
  | _ => .error .misuse

/-- The letter of a switch with a long name. -/
def letterOf? : String → Option Char
  | "verbose" => some 'v'
  | "debug" => some 'd'
  | "quiet" => some 'q'
  | "help" => some 'h'
  | _ => none

/-- The switches after one more, known by its long name. -/
def name (switches : Switches) (name : String) : Except Halt Switches :=
  match letterOf? name with
  | some letter => switches.letter letter
  | none => .error .misuse

/-- No switch was given twice. -/
def isSimple (switches : Switches) : Bool :=
  switches.verbose ≤ 1 && switches.debug ≤ 1 && switches.quiet ≤ 1

/-- The level that the switches choose. -/
def level (switches : Switches) : Except Level.Conflict Level :=
  Level.ofFlags (switches.verbose ≠ 0) (switches.debug ≠ 0) (switches.quiet ≠ 0)

end Switches

/-! ### Verbs -/

/-- The names of commands. -/
inductive Verb where
  | version
  | heap
  | statsTable
  | binarySearch
  | parties
  | append
  deriving DecidableEq, Repr

namespace Verb

/-- The verb of a name. -/
def ofName? : String → Option Verb
  | "version" => some version
  | "heap" => some heap
  | "stats-table" => some statsTable
  | "binary-search" => some binarySearch
  | "parties" => some parties
  | "append" => some append
  | _ => none

/-- The number of values. -/
def arity : Verb → Nat
  | version => 0
  | heap | statsTable | binarySearch | parties => 1
  | append => 6

/-- The table can be had plain. -/
def hasPlain : Verb → Bool
  | statsTable => true
  | _ => false

/-- The last value may start with one hyphen. -/
def endsSigned : Verb → Bool
  | append => true
  | _ => false

/-- The command of a verb with its values. -/
def command? (verb : Verb) (plain : Bool) (values : List String) : Option Command :=
  match verb, values with
  | version, [] => some .version
  | heap, [log] => some (.ask .heap ⟨log⟩)
  | statsTable, [log] => some (.ask (.statsTable plain) ⟨log⟩)
  | binarySearch, [log] => some (.ask .binarySearch ⟨log⟩)
  | parties, [log] => some (.ask .parties ⟨log⟩)
  | append, [ledger, dataset, operation, isOptimized, heapsize, sample] =>
    (Binary64.read? sample.toList).map fun sample =>
      .append ⟨ledger⟩ ⟨dataset, operation, isOptimized, heapsize⟩ sample
  | _, _ => none

end Verb

/-- What was read after a verb. -/
structure Values where
  values : List String := []
  /-- How often the plain form was asked for. -/
  plain : Nat := 0
  deriving DecidableEq, Repr

namespace Values

/-- What was read, and some more values; there may be too many. -/
def extend (verb : Verb) (seen : Values) (more : List String) : Except Halt Values :=
  if seen.values.length + more.length ≤ verb.arity then
    .ok { seen with values := seen.values ++ more }
  else .error .misuse

/-- The next value is the last, and may start with a hyphen. -/
def awaitsSigned (verb : Verb) (seen : Values) : Bool :=
  verb.endsSigned && seen.values.length + 1 = verb.arity

/-- What was read, and one more argument that is not the separator. -/
def step (verb : Verb) (seen : Values) (argument : String) : Word → Except Halt Values
  | .long "help" => .error .help
  | .long "tsv" =>
    if verb.hasPlain then .ok { seen with plain := seen.plain + 1 } else .error .misuse
  | .long _ => .error .misuse
  | .short letters =>
    if seen.awaitsSigned verb then seen.extend verb [argument]
    else if letters.head? = some 'h' then .error .help
    else .error .misuse
  | _ => seen.extend verb [argument]

/-- What was read at the end of the arguments. -/
def read (verb : Verb) (seen : Values) : List String → Except Halt Values
  | [] => .ok seen
  | argument :: arguments =>
    match Word.ofString argument with
    | .separator => seen.extend verb arguments
    | word =>
      match seen.step verb argument word with
      | .error halt => .error halt
      | .ok seen => read verb seen arguments

end Values

/-! ### All arguments -/

/-- What arguments ask for. -/
structure Invocation where
  switches : Switches
  command : Command
  deriving DecidableEq, Repr

namespace Invocation

/-- The invocation of a verb after some switches. -/
def ofVerb (switches : Switches) (verb : Verb) (arguments : List String) :
    Except Halt Invocation :=
  match Values.read verb {} arguments with
  | .error halt => .error halt
  | .ok seen =>
    match verb.command? (seen.plain ≠ 0) seen.values with
    | some command =>
      if seen.plain ≤ 1 && switches.isSimple then .ok ⟨switches, command⟩ else .error .misuse
    | none => .error .misuse

/-- Help can be had on everything, or on one verb, or on help. -/
def helpOn : List String → Halt
  | [] => .help
  | [name] => if name = "help" || (Verb.ofName? name).isSome then .help else .misuse
  | _ => .misuse

/-- What arguments ask for after some switches. -/
def readAfter (switches : Switches) : List String → Except Halt Invocation
  | [] => .error .misuse
  | argument :: arguments =>
    match Word.ofString argument with
    | .separator => .error .misuse
    | .long name =>
      match switches.name name with
      | .error halt => .error halt
      | .ok switches => readAfter switches arguments
    | .short letters =>
      match letters.foldlM Switches.letter switches with
      | .error halt => .error halt
      | .ok switches => readAfter switches arguments
    | .value =>
      if argument = "help" then .error (helpOn arguments)
      else match Verb.ofName? argument with
        | some verb => ofVerb switches verb arguments
        | none => .error .misuse

/-- What arguments ask for. -/
def read (arguments : List String) : Except Halt Invocation := readAfter {} arguments

end Invocation

end BenchLedger.CommandLine
