import SimBus.Value.Transport
/-!
An in-process bus: who lives at which path, who owns which name, and the
signals that were emitted and not fetched yet.
-/

namespace SimBus

structure Emission where
  path : String
  interface : String
  member : String
  payload : Value

namespace Emission

def body (e : Emission) : Json := e.payload.toJson

def signature (e : Emission) : String := e.payload.ty.signature

end Emission

inductive RegistrationError where
  | pathInUse (path : String)
  | nameRefused (name : String)
  | nameTaken (name owner : String)
  | alreadyRegistered (path : String)
  deriving DecidableEq, Repr

def RegistrationError.message : RegistrationError → String
  | pathInUse path => "object path '" ++ path ++ "' is already registered"
  | nameRefused name =>
      "well-known name '" ++ name ++ "' is unavailable: refused by bus policy"
  | nameTaken name owner =>
      "well-known name '" ++ name ++ "' is unavailable: already owned by " ++ owner
  | alreadyRegistered path => "object '" ++ path ++ "' is already registered"

structure Bus where
  objects : List (String × List String)
  names : List (String × String)
  /-- Names that nobody may own. -/
  refused : List String
  signals : List Emission

namespace Bus

def empty : Bus := ⟨[], [], [], []⟩

def remove {α : Type} (key : String) (table : List (String × α)) : List (String × α) :=
  table.filter (·.1 != key)

def refuseName (bus : Bus) (name : String) : Bus := { bus with refused := name :: bus.refused }

def interfacesAt? (bus : Bus) (path : String) : Option (List String) := bus.objects.lookup path

def owner? (bus : Bus) (name : String) : Option String := bus.names.lookup name

def paths (bus : Bus) : List String :=
  (bus.objects.map Prod.fst).mergeSort fun a b => !decide (b < a)

def registerObject (bus : Bus) (path : String) (interfaces : List String) :
    Except RegistrationError Bus :=
  match bus.interfacesAt? path with
  | some _ => .error (.pathInUse path)
  | none => .ok { bus with objects := (path, interfaces) :: bus.objects }

def unregisterObject (bus : Bus) (path : String) : Bus :=
  { bus with objects := remove path bus.objects }

/-- Claims a name for the object at `owner`, which may own it already. -/
def requestName (bus : Bus) (name owner : String) : Except RegistrationError Bus :=
  if name ∈ bus.refused then .error (.nameRefused name)
  else match bus.owner? name with
    | none => .ok { bus with names := (name, owner) :: bus.names }
    | some current => if current = owner then .ok bus else .error (.nameTaken name current)

/-- Releases a name, whoever owns it. -/
def releaseName (bus : Bus) (name : String) : Bus := { bus with names := remove name bus.names }

def releaseNames (bus : Bus) (names : List String) : Bus := names.foldl releaseName bus

def emit (bus : Bus) (emission : Emission) : Bus :=
  { bus with signals := bus.signals ++ [emission] }

def takeSignals (bus : Bus) : List Emission × Bus := (bus.signals, { bus with signals := [] })

end Bus

end SimBus
