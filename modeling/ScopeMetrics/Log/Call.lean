import ScopeMetrics.Log.Journal

/-!
# Calls

A log call that is given as data: the name of its method, the event, and fields under names.  A
field may not have the name of a parameter that the call has filled already, and a call may ask for
a rank that no level has.
-/

namespace ScopeMetrics.Log

/-- What a log can be asked to do. -/
inductive Method where
  | at (level : Level)
  /-- An error that tells of an exception. -/
  | exception
  /-- The rank of the level comes with the call, in the place of the event. -/
  | ranked
  deriving DecidableEq

namespace Method

/-- The method with a name; three levels have a second name. -/
def ofName? : String → Option Method
  | "exception" => some .exception
  | "log" => some .ranked
  | "warn" => some (.at .warning)
  | "fatal" => some (.at .critical)
  | "msg" => some (.at .info)
  | s => (Level.ofWord? s).map .at

end Method

/-- Why a call is refused. -/
inductive CallFault where
  /-- A log that writes from a rank on has no such method. -/
  | unknownMethod (threshold : Nat) (name : String)
  /-- A field has the name of a parameter that is filled already. -/
  | filledTwice (callee parameter : String)
  /-- There is a rank and no event. -/
  | eventMissing
  /-- What stands in the place of a rank is no number. -/
  | notRank (v : Value)
  /-- No level has this rank. -/
  | unknownRank (v : Value)

namespace CallFault

/-- The part of a call that takes the event of a level. -/
def levelCallee : String := "_make_filtering_bound_logger.<locals>.make_method.<locals>.meth"

/-- The part of a call that takes a rank. -/
def rankCallee : String := "_make_filtering_bound_logger.<locals>.log"

/-- The word for what kind of value something is. -/
def kind : Value → String
  | .null => "NoneType"
  | .bool _ => "bool"
  | .int _ => "int"
  | .real _ => "float"
  | .text _ => "str"
  | .list _ => "list"
  | .map _ => "dict"

/-- The word for the rank from which on a log writes. -/
def thresholdWord (n : Nat) : String :=
  match (Level.ofNumber? n).map Level.word with
  | some w => w.capitalize
  | none => "Notset"

def message : CallFault → String
  | .unknownMethod threshold name =>
    "'BoundLoggerFilteringAt" ++ thresholdWord threshold ++ "' object has no attribute '" ++ name ++
      "'"
  | .filledTwice callee parameter =>
    callee ++ "() got multiple values for argument " ++ Text.quoted parameter
  | .eventMissing => rankCallee ++ "() missing 1 required positional argument: 'event'"
  | .notRank v => "'<' not supported between instances of '" ++ kind v ++ "' and 'int'"
  | .unknownRank v => v.inner

end CallFault

namespace Journal

/-- Refuses fields with the names of parameters that are filled already. -/
def checkNames (callee : String) (parameters : List String) (fields : Entries) :
    Except CallFault Unit :=
  match fields.find? fun e => parameters.contains e.1 with
  | some (name, _) => .error (.filledTwice callee name)
  | none => .ok ()

/-- Logs an event at a level, unless a field has the name of a parameter. -/
def callAt (j : Journal) (logger : Value) (level : Level) (event : Value) (fields : Entries) :
    Except CallFault Journal := do
  if level.number < j.writer.threshold then return j
  checkNames "BoundLoggerBase._proxy_to_logger" ["method_name"] fields
  return j.log logger level event fields

/-- The level with a rank, nothing if the log does not write it. -/
def levelOf (j : Journal) (rank : Value) : Except CallFault (Option Level) :=
  let found (n : Int) : Except CallFault (Option Level) :=
    if n < Int.ofNat j.writer.threshold then .ok none
    else
      match Level.ofNumber? n.toNat with
      | some l => .ok (some l)
      | none => .error (.unknownRank rank)
  match rank with
  | .int n => found n
  | .bool b => found (if b then 1 else 0)
  | .real x =>
    match Decimal.toInt? x with
    | some n => found n
    | none =>
      if x < Float.ofNat j.writer.threshold then .ok none else .error (.unknownRank rank)
  | v => .error (.notRank v)

/-- Carries out a call. -/
def call (j : Journal) (logger : Value) (method : String) (event : Value) (fields : Entries) :
    Except CallFault Journal := do
  match Method.ofName? method with
  | none => throw (.unknownMethod j.writer.threshold method)
  | some (.at level) =>
    let callee := if level.number < j.writer.threshold then "_nop" else CallFault.levelCallee
    checkNames callee ["self", "event"] fields
    j.callAt logger level event fields
  | some .exception =>
    checkNames "exception" ["self", "event"] fields
    let announced := if (Entries.get? fields "exc_info").isSome then fields
      else fields ++ [("exc_info", .bool true)]
    j.callAt logger .error event announced
  | some .ranked =>
    checkNames CallFault.rankCallee ["self", "level"] fields
    match Entries.get? fields "event" with
    | none => throw .eventMissing
    | some told =>
      match ← j.levelOf event with
      | none => return j
      | some level => j.callAt logger level told (Entries.erase fields "event")

end Journal

end ScopeMetrics.Log
