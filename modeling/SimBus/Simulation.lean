import SimBus.Object
import SimBus.Program
/-!
A simulation: objects that share a bus. Whatever is left to chance is drawn by
the computations that load programs and run objects, so a simulation itself is
plain data.
-/

namespace SimBus

structure Simulation where
  known : InterfaceSet
  builtins : BuiltinTable
  seed : UInt64
  bus : Bus
  objects : List Object

namespace Simulation

def empty (known : InterfaceSet) (builtins : BuiltinTable) (seed : UInt64) : Simulation :=
  ⟨known, builtins, seed, Bus.empty, []⟩

/-- Creates an object and registers it. An object without initial data, or with
a path or a name that it cannot have, is left out. -/
def addObject (s : Simulation) (definition : Definition) : Draws Simulation := do
  match ← (Object.create definition s.known s.builtins).run with
  | .error _ => pure s
  | .ok object =>
      match object.register s.bus with
      | (.error _, bus) => pure { s with bus := bus }
      | (.ok object, bus) => pure { s with bus := bus, objects := s.objects ++ [object] }

def addObjects : List Definition → Simulation → Draws Simulation
  | [], s => pure s
  | definition :: rest, s => do addObjects rest (← s.addObject definition)

def load (s : Simulation) (text : String) : ExceptT ParseError Draws Simulation :=
  match Program.parse s.builtins s.known text with
  | .error e => throw e
  | .ok program => ExceptT.lift (addObjects program.definitions s)

def object? (s : Simulation) (path : String) : Option Object :=
  s.objects.find? (·.path == path)

/-- Puts an object in the place of the first with its path. -/
def replace (object : Object) : List Object → List Object
  | [] => []
  | other :: rest =>
      if other.path = object.path then object :: rest else other :: replace object rest

def call (s : Simulation) (path : String) (call : Call) :
    Draws (Except BusError Output × Simulation) :=
  match s.object? path with
  | none => pure (.error (.unknownObject path), s)
  | some object => do
      let (result, object, bus) ← object.dispatch s.bus call
      pure (result, { s with objects := replace object s.objects, bus := bus })

abbrev Ticked := String × Except BusError Output

def tickAll : List Object → Bus → Draws (List Ticked × List Object × Bus)
  | [], bus => pure ([], [], bus)
  | object :: rest, bus => do
      let (result, object, bus) ← object.tick bus
      let (ticked, objects, bus) ← tickAll rest bus
      match result with
      | none => pure (ticked, object :: objects, bus)
      | some result => pure ((object.path, result) :: ticked, object :: objects, bus)

def tick (s : Simulation) : Draws (List Ticked × Simulation) := do
  let (ticked, objects, bus) ← tickAll s.objects s.bus
  pure (ticked, { s with objects := objects, bus := bus })

def reset (s : Simulation) : Simulation := { s with objects := s.objects.map Object.reset }

def activity (s : Simulation) : Nat :=
  s.objects.foldl (fun total object => total + object.activity) 0

def shutdown (s : Simulation) : Simulation :=
  { s with
    objects := []
    bus := s.objects.foldl (fun bus object => (object.unregister bus).2) s.bus }

def takeSignals (s : Simulation) : List Emission × Simulation :=
  let (signals, bus) := s.bus.takeSignals
  (signals, { s with bus := bus })

end Simulation

end SimBus
