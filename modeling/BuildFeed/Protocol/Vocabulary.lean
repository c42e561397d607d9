-- The fixed words and numbers of the protocol in one table.
import BuildFeed.Protocol.Notice
import BuildFeed.Trace.Switches

namespace BuildFeed

/-- Every fixed word and number by its group and its name. -/
def vocabulary : Json :=
  .object
    [("StatusCode", numbers
      [("Ok", Status.ok.number), ("Error", Status.error.number),
        ("Cancelled", Status.cancelled.number)]),
    ("TaskDataKind", words [("CompileTask", taskKind), ("CompileReport", reportKind)]),
    ("DiagnosticSeverity", numbers
      [("Error", Severity.error.number), ("Warning", Severity.warning.number),
        ("Information", Severity.info.number), ("Hint", hintNumber)]),
    ("MessageType", numbers
      [("Error", MessageType.error.number), ("Warning", MessageType.warning.number),
        ("Info", MessageType.info.number), ("Log", MessageType.log.number),
        ("Debug", MessageType.debug.number)]),
    ("methods", words
      [("publishDiagnostics", publishMethod), ("taskStart", taskStartMethod),
        ("taskFinish", taskFinishMethod), ("logMessage", logMethod)]),
    ("source", .string sourceName),
    ("debugEnv", .string Trace.settingName)]
where
  /-- A group of numbers. -/
  numbers (group : List (String × Nat)) : Json :=
    .object (group.map fun (name, n) => (name, .nat n))
  /-- A group of words. -/
  words (group : List (String × String)) : Json :=
    .object (group.map fun (name, word) => (name, .string word))
  /-- The number of the mildest severity, which no problem has. -/
  hintNumber : Nat := 4

end BuildFeed
