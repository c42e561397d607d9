-- Which trace channels are on. A setting is a list of channel names with commas between; the
-- star stands for all of them, and so do the words for yes.
import BuildFeed.Text.Blank
import BuildFeed.Text.LowerCase

namespace BuildFeed.Trace

/-- The environment variable that holds the setting. -/
def settingName : String := "COMPILE_REPORTER_DEBUG"

/-- What the variable holds once a value is set: the value up to its first NUL. -/
def held (value : String) : String :=
  String.ofList (value.toList.takeWhile (fun c => c ≠ '\x00'))

/-- The channels on which the library itself writes. -/
inductive Channel where
  | reporter
  | store
  | client
  deriving DecidableEq, Inhabited

/-- The name of a channel. -/
def Channel.name : Channel → String
  | .reporter => "reporter"
  | .store => "store"
  | .client => "client"

/-- All channels. -/
def Channel.all : List Channel := [.reporter, .store, .client]

/-- The names that are switched on, in lower case. -/
structure Switches where
  names : List String := []
  deriving DecidableEq, Inhabited

namespace Switches

/-- The pieces of a text between its commas. -/
def pieces : List Char → List (List Char)
  | [] => [[]]
  | c :: cs =>
    if c = ',' then [] :: pieces cs
    else
      match pieces cs with
      | [] => [[c]]
      | first :: rest => (c :: first) :: rest

/-- The name for every channel. -/
def all : String := "*"

/-- A name as it is compared. -/
def plain (cs : List Char) : String := String.ofList (Text.lower (Text.trim cs))

/-- The switches that a setting turns on; no setting turns on nothing. -/
def ofSetting (setting : Option String) : Switches :=
  let setting := setting.getD ""
  if setting ∈ ["", "0", "false"] then ⟨[]⟩
  else if setting ∈ ["*", "1", "true"] then ⟨[all]⟩
  else ⟨(pieces setting.toList).map plain⟩

/-- Whether the channel of this name is on. -/
def isOn (s : Switches) (channel : String) : Bool :=
  s.names.contains all || s.names.contains (String.ofList (Text.lower channel.toList))

/-- Whether a channel is on, or, with none named, whether any name is switched on. An empty
name names none. -/
def answers (s : Switches) (channel : Option String) : Bool :=
  match channel with
  | none => !s.names.isEmpty
  | some "" => !s.names.isEmpty
  | some channel => s.isOn channel

end Switches

end BuildFeed.Trace
