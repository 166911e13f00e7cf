import SimBus.Builtin.Standard
import SimBus.Definition.OfSurface
import SimBus.Definition.Warning
import SimBus.Surface.Reader
/-!
Programs: texts that define simulated objects. A program is read, resolved and
typed as a whole; the first thing that is wrong with it is the answer.
-/

namespace SimBus

structure Program where
  definitions : List Definition
  warnings : List Warning

namespace Resolution

open Typing (Result fail)

/-- The transitions of an object, no two of which say the same, and warnings
about the ones that can never fire. -/
def transitions (ctx : Context) (path : String) :
    List Surface.Transition → (sofar : List Transition) → (warnings : List Warning) →
      Result (List Transition × List Warning)
  | [], sofar, warnings => .ok (sofar, warnings)
  | raw :: rest, sofar, warnings => do
      let (t, neverFires) ← transition ctx raw
      match sofar.find? (·.sameRule t) with
      | some earlier => fail t.position (.duplicateTransition earlier.position.line)
      | none =>
          let warnings := if neverFires then
              warnings ++ [⟨path, raw.triggerPosition, .neverFires (memberName t.trigger)⟩]
            else warnings
          transitions ctx path rest (sofar ++ [t]) warnings

def object (table : BuiltinTable) (known : InterfaceSet) (raw : Surface.Object) :
    Result (Definition × List Warning) :=
  if !ObjectPath.valid raw.path then fail raw.position (.invalidObjectPath raw.path)
  else do
    let interfaces ← implemented known raw.interfaces []
    if raw.states.isEmpty then fail raw.position .noStates
    else
      let states ← states raw.states []
      let data ← dataVariables table raw.data []
      let ctx : Context := ⟨table, interfaces, data.map fun d => (d.name, d.ty), states⟩
      let (transitions, warnings) ← transitions ctx raw.path raw.transitions [] []
      let definition : Definition :=
        { path := raw.path
          names := raw.names
          interfaces := interfaces.map Interface.name
          data := data
          states := states
          transitions := transitions
          position := raw.position }
      pure (definition, warnings ++ definition.unusedData interfaces
        ++ definition.unhandledMethods interfaces)

def objects (table : BuiltinTable) (known : InterfaceSet) :
    List Surface.Object → Result Program
  | [] => .ok ⟨[], []⟩
  | raw :: rest => do
      let (definition, warnings) ← object table known raw
      let others ← objects table known rest
      pure ⟨definition :: others.definitions, warnings ++ others.warnings⟩

end Resolution

/-- Reads a program against the given interfaces and built-in functions. -/
def Program.parse (table : BuiltinTable) (known : InterfaceSet) (text : String) :
    Except ParseError Program :=
  match Surface.parse text with
  | .error e => .error (.grammar e)
  | .ok raw => Resolution.objects table known raw

end SimBus
