-- Tracing under control: the setting can change at any time but counts only from the next
-- refresh, while the style counts from the moment it is given. A refresh reads the setting and makes
-- every channel anew, one that writes or one that does nothing; until the next one a channel stays
-- what it was made.
import BuildFeed.Trace.Setup

namespace BuildFeed.Trace

/-- The setting as it stands, the setup in force, and the channels that were made to write. -/
structure Panel where
  setting : Option String := none
  setup : Setup := {}
  writing : List Channel := []
  deriving Inhabited

/-- What can be asked of a panel. -/
inductive Command where
  | setSetting (value : Option String)
  | refresh
  | restyle (format : Option Format) (timestamps : Option Bool) (sink : Option Sink)
  | setClock (clock : Number)
  | format (channel point : String) (data : Option Record)
  | emit (channel : Channel) (point : String) (data : Option Record)
  | isOn (channel : Option String)
  /-- A command that came to nothing, because its data could not be put together. -/
  | spoilt (fault : Fault)
  deriving Inhabited

/-- The command that goes with data, or what remains of it if there is no way to have the data. -/
def Command.withData (data : Except Fault (Option Record)) (command : Option Record → Command) :
    Command :=
  match data with
  | .ok data => command data
  | .error e => .spoilt e

/-- What a command gives back. -/
inductive Reply where
  | done
  | line (text : String)
  | answer (b : Bool)
  deriving DecidableEq, Inhabited

/-- A style with those parts replaced that are given. -/
def Style.changed (style : Style) (format : Option Format) (timestamps : Option Bool)
    (sink : Option Sink) : Style :=
  { format := format.getD style.format
    timestamps := timestamps.getD style.timestamps
    sink := sink.getD style.sink }

namespace Panel

/-- Read the setting again, and make the channels anew. -/
def refreshed (c : Panel) : Panel :=
  let switches := Switches.ofSetting c.setting
  { c with
    setup := { c.setup with switches }
    writing := Channel.all.filter (fun channel => switches.isOn channel.name) }

/-- The panel after a command. -/
def after (c : Panel) : Command → Panel
  | .setSetting value => { c with setting := value.map held }
  | .refresh => c.refreshed
  | .restyle format timestamps sink =>
    { c with setup := { c.setup with style := c.setup.style.changed format timestamps sink } }
  | .setClock clock => { c with setup := { c.setup with clock } }
  | .format _ _ _ => c
  | .emit _ _ _ => c
  | .isOn _ => c
  | .spoilt _ => c

/-- The lines that a command writes, and what it gives back. -/
def outcome (c : Panel) : Command → Except Fault (List Written × Reply)
  | .format channel point data =>
    (line c.setup.style c.setup.clock channel point data).map (fun text => ([], .line text))
  | .emit channel point data =>
    if channel ∈ c.writing then
      (line c.setup.style c.setup.clock channel.name point data).map
        (fun text => ([⟨c.setup.style.sink, text⟩], .done))
    else .ok ([], .done)
  | .isOn channel => .ok ([], .answer (c.setup.switches.answers channel))
  | .spoilt e => .error e
  | _ => .ok ([], .done)

/-- The setup under a wall clock once a style and then a setting have been given and read. -/
def opened (clock : Number) (setting : Option String) (format : Option Format)
    (timestamps : Option Bool) (sink : Option Sink) : Setup :=
  let fresh : Panel := { setup := { clock } }
  (((fresh.after (.restyle format timestamps sink)).after (.setSetting setting)).after
    .refresh).setup

/-- What each of a list of commands comes to. -/
def run (c : Panel) : List Command → List (Except Fault (List Written × Reply))
  | [] => []
  | command :: rest => c.outcome command :: run (c.after command) rest

end Panel

end BuildFeed.Trace
