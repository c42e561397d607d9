-- Everything that can stop a call, by its cause. A cause has its words where words are shown.

namespace BuildFeed

/-- Why a call ended with an error. -/
inductive Fault where
  /-- A build target without a URI. -/
  | emptyTarget
  /-- A task without an id. -/
  | emptyTask
  /-- A path that would begin with two slashes with no host before them. -/
  | slashes
  /-- A collaborator gave up with this message. -/
  | raised (message : String)
  /-- The wall clock stands beyond the calendar's reach. -/
  | clockOutOfReach
  /-- A value that cannot be written in the form asked for. -/
  | unwritable
  /-- A key that a record cannot be given, because its parents keep it to themselves. -/
  | keptKey
  /-- A text that would be longer than texts can be. -/
  | tooLong
  deriving DecidableEq, Inhabited

/-- What an error says, where it says anything. -/
def Fault.message? : Fault → Option String
  | .emptyTarget => some "Build target URI must not be empty"
  | .emptyTask => some "Task id must not be empty"
  | .slashes => some ("[UriError]: If a URI does not contain an authority component, " ++
      "then the path cannot begin with two slash characters (\"//\")")
  | .raised message => some message
  | .clockOutOfReach => none
  | .unwritable => none
  | .keptKey => none
  | .tooLong => none

end BuildFeed
