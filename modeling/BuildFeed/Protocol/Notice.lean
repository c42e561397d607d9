-- The notifications of the protocol: diagnostics for a document, the start and the finish of
-- a task, and messages for the log. Each has its method and its parameters.
import BuildFeed.Diagnostic
import BuildFeed.Protocol.Task

namespace BuildFeed

/-! ## What a build client is told -/

/-- All diagnostics of a document. With `reset` they take the place of what was published for
it before. -/
structure Publish (δ : Type) where
  document : Document
  target : Target
  diagnostics : List δ
  reset : Bool := true
  originId : Option String := none
  deriving DecidableEq, Inhabited

/-- A notification about diagnostics or a task. -/
inductive Notice (δ : Type) where
  | publish (p : Publish δ)
  | taskStart (p : TaskStart)
  | taskFinish (p : TaskFinish)
  deriving DecidableEq, Inhabited

/-- The method of published diagnostics. -/
def publishMethod : String := "build/publishDiagnostics"

/-- The method of the report that a task starts. -/
def taskStartMethod : String := "build/taskStart"

/-- The method of the report that a task is finished. -/
def taskFinishMethod : String := "build/taskFinish"

/-- The method of a notification. -/
def Notice.method {δ : Type} : Notice δ → String
  | .publish _ => publishMethod
  | .taskStart _ => taskStartMethod
  | .taskFinish _ => taskFinishMethod

/-! ## What a log is told -/

/-- The kinds of log messages. -/
inductive MessageType where
  | error
  | warning
  | info
  | log
  | debug
  deriving DecidableEq, Inhabited

/-- The number of a kind of log message in the protocol. -/
def MessageType.number : MessageType → Nat
  | .error => 1
  | .warning => 2
  | .info => 3
  | .log => 4
  | .debug => 5

/-- The method of a log message. -/
def logMethod : String := "build/logMessage"

/-- The levels at which a logger is spoken to. -/
inductive Level where
  | error
  | warn
  | info
  | log
  deriving DecidableEq, Inhabited

/-- The kind of message that a level sends. -/
def Level.messageType : Level → MessageType
  | .error => .error
  | .warn => .warning
  | .info => .info
  | .log => .log

/-! ## Everything that goes over a connection -/

/-- A notification on its way: about the build, or a message for the log. -/
inductive Outgoing (δ : Type) where
  | notice (n : Notice δ)
  | logMessage (type : MessageType) (message : String)
  deriving DecidableEq, Inhabited

/-- The method of what is sent. -/
def Outgoing.method {δ : Type} : Outgoing δ → String
  | .notice n => n.method
  | .logMessage _ _ => logMethod

/-! ## JSON -/

section

variable {δ : Type} (encode : δ → Json)

/-- Published diagnostics as JSON. -/
def Publish.toJson (p : Publish δ) : Json :=
  .object ([("textDocument", p.document.toJson), ("buildTarget", p.target.toJson),
    ("diagnostics", .array (p.diagnostics.map encode)), ("reset", .bool p.reset)] ++
    Json.optional "originId" .string p.originId)

/-- The parameters of a notification as JSON. -/
def Notice.toJson : Notice δ → Json
  | .publish p => p.toJson encode
  | .taskStart p => p.toJson
  | .taskFinish p => p.toJson

/-- The parameters of what is sent as JSON. -/
def Outgoing.toJson : Outgoing δ → Json
  | .notice n => n.toJson encode
  | .logMessage type message =>
    .object [("type", .nat type.number), ("message", .string message)]

end

end BuildFeed
