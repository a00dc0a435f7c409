import Reconciler.Run.Basic

/-! One-line descriptions of controllers and runs, for debugging. -/
namespace Reconciler

def recordText (name : String) (fields : List (String × String)) : String :=
  name ++ " \x7b " ++ ", ".intercalate (fields.map fun f => f.1 ++ ": " ++ f.2) ++ " \x7d"

def Exchange.debugText : Exchange → String
  | .conditionOnly => "ConditionOnly"
  | .conditionAndResource => "ConditionAndResource"
  | .localOnly => "LocalOnly"

def Coordinate.debugText (c : Coordinate) : String :=
  recordText "ObjectRef" [("api_version", Text.quote c.apiVersion), ("kind", Text.quote c.kind),
    ("name", Text.quote ""), ("namespace", "None")]

/-- Callbacks are shown by their presence only. -/
def Controller.debugText (c : Controller) : String :=
  let owned := c.owned.entries.map fun e => e.1.debugText ++ ": " ++ e.2.debugText
  recordText "Config" [("for_gvk", c.governed.debugText),
    ("owns", "\x7b" ++ ", ".intercalate owned ++ "\x7d"),
    ("watch", "[" ++ ", ".intercalate (c.watched.keys.map Coordinate.debugText) ++ "]"),
    ("populate_children", toString c.populate.isSome),
    ("generate_resource", toString c.generate.isSome)]

def Stage.debugText : Stage → String
  | .init => "Init"
  | .manifestLoaded => "ManifestLoaded"
  | .inventoryPopulated => "InventoryPopulated"
  | .globalWatchesCalled => "GlobalWatchesCalled"
  | .childrenPopulated => "ChildrenPopulated"
  | .childrenCommitted => "ChildrenCommitted"
  | .generated => "Generated"
  | .manifestWritten => "ManifestWritten"
  | .aborted => "Aborted"

def Report.debugText (r : Report) : String :=
  recordText "RunReport" [("stage", r.stage.debugText), ("unmatched", toString r.unmatched),
    ("objects_written", toString r.objectsWritten),
    ("conditions_written", toString r.conditionsWritten),
    ("conditions_deleted", toString r.conditionsDeleted),
    ("instance_failures", toString r.instanceFailures), ("generated", toString r.generated),
    ("ready", match r.ready with
      | none => "None"
      | some ready => s!"Some({ready})")]

def Run.debugText (s : Run) : String :=
  recordText "Sdk" [("cfg", s.controller.debugText),
    ("entries", toString s.inventory.entries.size), ("report", s.report.debugText)]

end Reconciler
