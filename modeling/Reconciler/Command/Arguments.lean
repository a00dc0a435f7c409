import Reconciler.Command.Declaration

/-! The arguments of a command line. Options may stand before or after the command and also come
from the environment. The words are read in order, and one that asks for the help or the version ends
the reading. -/
namespace Reconciler.Command

inductive Format where
  | human
  | json
deriving DecidableEq

inductive Action where
  | inspect
  | run
deriving DecidableEq

/-- What a command line asks for. Without a file the standard input is read. -/
structure Request where
  action : Action
  file : Option String
  format : Format
  flags : Flags
deriving DecidableEq

/-- Why a command line makes no request: it asks for the help or the version, or it is misused. -/
inductive Usage where
  | asked
  | misused
deriving DecidableEq

def Usage.exitCode : Usage → Nat
  | .asked => 0
  | .misused => 2

inductive OptionName where
  | output
  | governed
  | owned
  | watched
deriving DecidableEq

/-- The options given before the command, or those given after it. A file only follows a command. -/
structure Given where
  format : Option Format
  governed : Option String
  owned : List String
  watched : List String
  file : Option String
deriving Inhabited

def Action.ofName? : String → Option Action
  | "inspect" => some .inspect
  | "run" => some .run
  | _ => none

def Format.ofName? : String → Option Format
  | "human" => some .human
  | "json" => some .json
  | _ => none

def splitValues (text : String) : List String := (Text.cutEvery ',' text.toList).map String.ofList

def OptionName.ofLong? : String → Option OptionName
  | "output" => some .output
  | "for" => some .governed
  | "owns" => some .owned
  | "watch" => some .watched
  | _ => none

/-- What a word says that looks like an option. The value of an option may stand in the same word. -/
inductive OptionWord where
  | option (name : OptionName) (value : Option String)
  | help
  | version

namespace OptionWord

def ofLong? (name : String) (value : Option String) : Option OptionWord :=
  match name, value with
  | "help", none => some .help
  | "version", none => some .version
  | name, value => (OptionName.ofLong? name).map (.option · value)

/-- Letters after the first dash stand for options until one takes the rest as its value. -/
def ofChars? (word : List Char) : Option OptionWord :=
  match word with
  | '-' :: '-' :: long =>
    match Text.cutFirst '=' long with
    | some (name, value) => ofLong? (String.ofList name) (some (String.ofList value))
    | none => ofLong? (String.ofList long) none
  | '-' :: 'h' :: _ => some .help
  | '-' :: 'V' :: _ => some .version
  | ['-', 'o'] => some (.option .output none)
  | '-' :: 'o' :: '=' :: value => some (.option .output (some (String.ofList value)))
  | '-' :: 'o' :: value => some (.option .output (some (String.ofList value)))
  | _ => none

end OptionWord

def looksLikeOption (word : String) : Bool := word.startsWith "-" && word != "-"

namespace Given

/-- Lists add up; a single value may be given once. -/
def put (g : Given) (name : OptionName) (value : String) : Except Usage Given :=
  match name with
  | .output =>
    match g.format, Format.ofName? value with
    | none, some format => .ok { g with format := some format }
    | _, _ => .error .misused
  | .governed =>
    if g.governed.isSome then .error .misused else .ok { g with governed := some value }
  | .owned => .ok { g with owned := g.owned ++ splitValues value }
  | .watched => .ok { g with watched := g.watched ++ splitValues value }

def close (g : Given) (last : Option (OptionName × String)) : Except Usage Given :=
  match last with
  | some (name, value) => g.put name value
  | none => .ok g

def putFile (g : Given) (file : String) : Except Usage Given :=
  if g.file.isSome || file.isEmpty then .error .misused else .ok { g with file := some file }

end Given

/-- Options as they were read: those taken in, and the last one while it is open, which it is when its
value stood in a word of its own. -/
abbrev Open := Given × Option (OptionName × String)

/-- Reads options up to a word that is none, and gives back the words from there on. The next
option, or a word that asks for the help, takes in the open one. -/
def readOptions (hasVersion : Bool) (g : Given) (last : Option (OptionName × String)) :
    List String → Except Usage (Open × List String)
  | [] => .ok ((g, last), [])
  | word :: rest =>
    if looksLikeOption word && word != "--" then
      match OptionWord.ofChars? word.toList, rest with
      | some .help, _ => do
        let _ ← g.close last
        throw .asked
      | some .version, _ => do
        let _ ← g.close last
        throw (if hasVersion then .asked else .misused)
      | some (.option name (some value)), rest => do
        readOptions hasVersion (← (← g.close last).put name value) none rest
      | some (.option name none), value :: rest => do
        let g ← g.close last
        if looksLikeOption value then throw .misused
        else readOptions hasVersion g (some (name, value)) rest
      | _, _ => .error .misused
    else .ok ((g, last), word :: rest)

/-- Reads what follows a command: options and at most one file. After two dashes there are no more
options. -/
def readOperands : (fuel : Nat) → Given → List String → Except Usage Given
  | 0, _, _ => .error .misused
  | fuel + 1, g, words => do
    let ((g, last), rest) ← readOptions false g none words
    let g ← g.close last
    match rest with
    | [] => return g
    | "--" :: files => files.foldlM Given.putFile g
    | file :: rest => readOperands fuel (← g.putFile file) rest

def helpUsage : List String → Usage
  | [] => .asked
  | [topic] => if topic = "help" || (Action.ofName? topic).isSome then .asked else .misused
  | _ => .misused

/-- The list after the command, else the one before it, else the one of the environment. -/
def firstList (after before : List String) (fallback : Option String) : List String :=
  if !after.isEmpty then after
  else if !before.isEmpty then before
  else (fallback.map splitValues).getD []

def Request.ofGiven (environment : String → Option String) (action : Action) (before after : Given) :
    Request where
  action
  file := after.file
  format := (after.format <|> before.format).getD .human
  flags := {
    governed := after.governed <|> before.governed <|> environment "FNRT_FOR"
    owned := firstList after.owned before.owned (environment "FNRT_OWNS")
    watched := firstList after.watched before.watched (environment "FNRT_WATCH") }

/-- The request of a command line. An option before the command that is open there is only taken in
after the words behind the command. -/
def Request.parse (environment : String → Option String) (words : List String) :
    Except Usage Request := do
  let ((before, last), rest) ← readOptions true default none words
  match rest with
  | "help" :: topics => throw (helpUsage topics)
  | name :: operands =>
    let some action := Action.ofName? name | throw .misused
    let after ← readOperands (operands.length + 1) default operands
    return .ofGiven environment action (← before.close last) after
  | [] => throw .misused

end Reconciler.Command
