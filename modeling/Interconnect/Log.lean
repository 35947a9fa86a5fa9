/-!
# Logs

A command says in events what it is doing.  The surroundings of a run decide how an event is written,
and which events are; where they leave the choice open, the command makes it.
-/

namespace Interconnect.Log

inductive Level
  | warn
  | info
  | debug
  deriving DecidableEq, Repr

/-- Weightier levels rank lower. -/
def Level.rank : Level → Nat
  | warn => 0
  | info => 1
  | debug => 2

/-- Names with texts. -/
abbrev Fields := List (String × String)

/-- A piece of work, in the course of which events happen. -/
structure Span where
  name : String
  fields : Fields
  deriving Repr

structure Event where
  level : Level
  message : String
  fields : Fields
  span? : Option Span
  deriving Repr

def Event.within (span : Span) (event : Event) : Event :=
  { event with span? := some span }

/-- Says which events are written. -/
abbrev Filter := Event → Bool

namespace Filter

/-- Lets pass the events of a level, and all weightier ones. -/
def upTo (level : Level) : Filter :=
  fun event => event.level.rank ≤ level.rank

end Filter

/-- What is decided outside of a command about its log. -/
structure Surroundings where
  /-- The events that are asked for, unless the choice is left open. -/
  filter? : Option Filter
  /-- The text of an event.  It may differ from one position in the log to the next, as a time does. -/
  render : Nat → Event → String

/-- What becomes of the events of a run. -/
def Surroundings.entries (surroundings : Surroundings) (default : Filter) (events : List Event) :
    List String :=
  (events.filter (surroundings.filter?.getD default)).mapIdx surroundings.render

end Interconnect.Log
