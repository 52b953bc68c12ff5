import EventDelivery.Text.Case

/-! Environments: variables with their values. A name that is given again keeps its place and takes
the new value. Settings look names up without regard to case; of several spellings the one in the
last place counts. Names and values are text that has an encoding: a variable whose bytes encode no text, and which a
host hands over with lone halves of surrogate pairs in it, is left out. -/

namespace EventDelivery
set_option autoImplicit false

abbrev Environment := List (String × String)

namespace Environment

def put : Environment → String → String → Environment
  | [], name, value => [(name, value)]
  | (name', value') :: bindings, name, value =>
    if name' = name then (name, value) :: bindings else (name', value') :: put bindings name value

def ofList (assignments : List (String × String)) : Environment :=
  assignments.foldl (fun bindings (name, value) => put bindings name value) []

def get? (environment : Environment) (name : String) : Option String :=
  (environment.find? fun (n, _) => n = name).map (·.2)

def folded? (environment : Environment) (name : String) : Option String :=
  (environment.reverse.find? fun (n, _) => foldedName n = foldedName name).map (·.2)

end Environment

end EventDelivery
