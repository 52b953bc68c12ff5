import EventDelivery.Failure
import EventDelivery.Environment

/-! Setting up the root logger from the variable `LOG_LEVEL`. -/

namespace EventDelivery
set_option autoImplicit false

/-- The root logger: its level, and the format of each of its handlers. -/
structure RootLogger where
  level : Int
  formats : List (Option String)
deriving DecidableEq

namespace RootLogger

def untouched : RootLogger := ⟨30, []⟩

def levelNumber? (name : String) : Option Int :=
  match name with
  | "CRITICAL" => some 50
  | "FATAL" => some 50
  | "ERROR" => some 40
  | "WARNING" => some 30
  | "WARN" => some 30
  | "INFO" => some 20
  | "DEBUG" => some 10
  | "NOTSET" => some 0
  | _ => none

def format : String := "%(asctime)s %(levelname)s %(name)s %(message)s"

/-- The level that an upper-case name stands for. Two names stand for something that is no level: a
format, which is refused as an unknown level, and a table. All names that stand for nothing mean
the level INFO. -/
def levelOf (name : String) : Except Failure Int :=
  match levelNumber? name with
  | some level => .ok level
  | none =>
    if name = "BASIC_FORMAT" then .error (.refused (.logLevel "%(levelname)s:%(name)s:%(message)s"))
    else if name = "_STYLES" then .error (.misfit .noLevel)
    else .ok 20

/-- Gives a root logger without handlers a handler and a level; one that has a handler stays. Where the level is
refused, the failure stands for the whole call: that the handler is there by then does not show in it. -/
def configure (environment : Environment) (root : RootLogger) : Except Failure RootLogger :=
  if root.formats.isEmpty then
    (levelOf (upperCased ((environment.get? "LOG_LEVEL").getD "INFO"))).map fun level =>
      ⟨level, [some format]⟩
  else .ok root

end RootLogger

end EventDelivery
