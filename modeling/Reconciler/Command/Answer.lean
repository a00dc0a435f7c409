import Reconciler.Command.Arguments
import Reconciler.Inventory.Listing
import Reconciler.Inventory.Readiness
import Reconciler.Json.Writer
import Reconciler.Run.Stages
import Reconciler.Yaml.Reader
import Reconciler.Yaml.Writer

/-! What a command prints: the inventory of a batch, or the batch after a run. -/
namespace Reconciler.Command

/-- The text to print, and the failure with which the command ends. -/
structure Answer where
  text : String
  failure : Option Failure
deriving DecidableEq

def padRight (width : Nat) (text : String) : String :=
  text ++ String.ofList (List.replicate (width - text.length) ' ')

def tableLine (cells : List String) : String :=
  let widths := [8, 48, 40, 22, 9, 8, 0]
  " ".intercalate ((widths.zip cells).map fun e => padRight e.1 e.2) ++ "\n"

def tableHead : List String := ["ROLE", "TARGET", "OWNER", "KIND", "CONDITION", "EXISTS", "DESIRED"]

def rowCells (row : Inventory.Row) : List String :=
  [row.role.text, row.target, row.owner.getD "-", row.exchange.getD "-", row.condition.getD "-",
    toString row.existing, toString row.desired]

def inventoryTable (inv : Inventory) : String :=
  String.join ((tableHead :: inv.rows.map rowCells).map tableLine)
    ++ s!"ready: {inv.isReady}  unmatched: {inv.unmatched}\n"

def inventoryDocument (inv : Inventory) : Document :=
  .object [("entries", .array (inv.rows.map Inventory.Row.toDocument)),
    ("ready", .bool inv.isReady), ("unmatched", .number (.int inv.unmatched))]

def inventoryText (inv : Inventory) : Format → String
  | .human => inventoryTable inv
  | .json => Json.pretty (inventoryDocument inv) ++ "\n"

def batchText (b : Batch) : Format → String
  | .human => b.toYaml
  | .json => Json.pretty b.toDocument ++ "\n"

def inspect (format : Format) (d : Declaration) (b : Batch) : Answer :=
  match Run.start d.controller b with
  | .ok s => ⟨inventoryText s.populateInventory.inventory format, none⟩
  | .error fault => ⟨"", some (.ofFault fault)⟩

def ownedRefused : Failure :=
  ⟨"run drives condition-terminal functions only; drop --owns", []⟩

/-- The failure of an aborted run names the first notice of the batch. -/
def aborted (b : Batch) : Failure :=
  ⟨"run aborted: " ++ (b.notices.head?.map Notice.message).getD "unknown error", []⟩

/-- Runs a function that owns nothing and shows the batch, also when the run was aborted. -/
def run (format : Format) (d : Declaration) (b : Batch) : Answer :=
  if !d.owned.isEmpty then ⟨"", some ownedRefused⟩
  else
    let outcome := d.conditionController.run b
    ⟨batchText outcome.batch format,
      if outcome.report.isAborted then some (aborted outcome.batch) else none⟩

/-- Why a file cannot be read. -/
inductive FileFault where
  | missing
  | denied
  | directory
  | longName
  | noDirectory
  | nulInName
  | noText
deriving DecidableEq

def FileFault.text : FileFault → String
  | .missing => "No such file or directory (os error 2)"
  | .denied => "Permission denied (os error 13)"
  | .directory => "Is a directory (os error 21)"
  | .longName => "File name too long (os error 36)"
  | .noDirectory => "Not a directory (os error 20)"
  | .nulInName => "file name contained an unexpected NUL byte"
  | .noText => "stream did not contain valid UTF-8"

def unreadable (path : String) (fault : FileFault) : Failure := ⟨s!"reading {path}", [fault.text]⟩

/-- The answer to a request. The input is the text of its file, or the failure to read it; it is
looked at before the declaration. -/
def Request.answer (r : Request) (input : Except Failure String) : Answer :=
  let result : Except Failure Answer := do
    let b ← (Batch.ofYaml (← input)).mapError fun fault =>
      (Failure.ofFault fault).within "parsing ResourceList"
    let d ← Declaration.ofFlags r.flags b.functionConfig
    return match r.action with
      | .inspect => inspect r.format d b
      | .run => run r.format d b
  match result with
  | .ok answer => answer
  | .error failure => ⟨"", some failure⟩

end Reconciler.Command
