-- Everything that decides what a trace call writes: the switches, the style and the wall
-- clock. A call on a channel that is off does nothing and cannot fail.
import BuildFeed.Trace.Line
import BuildFeed.Trace.Switches

namespace BuildFeed.Trace

/-- A line that was written, and where it went. -/
structure Written where
  sink : Sink
  text : String
  deriving DecidableEq, Inhabited

/-- The state of the world that trace calls see. -/
structure Setup where
  switches : Switches := {}
  style : Style := {}
  clock : Number := 0
  deriving DecidableEq, Inhabited

/-- The calendar reaches the wall clock whenever times are shown. -/
def Setup.Timely (s : Setup) : Prop :=
  s.style.timestamps = true → (Instant.ofClock? s.clock).isSome = true

instance (s : Setup) : Decidable s.Timely := inferInstanceAs (Decidable (_ → _))

/-- What a trace call on a channel writes. -/
def Setup.note (s : Setup) (channel : Channel) (point : String) (data : Option Record) :
    Except Fault (List Written) :=
  if s.switches.isOn channel.name then
    (line s.style s.clock channel.name point data).map (fun text => [⟨s.style.sink, text⟩])
  else .ok []

end BuildFeed.Trace
