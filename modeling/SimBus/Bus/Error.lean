import SimBus.Machine
import SimBus.Interface
/-!
Why a call is answered with an error. On the bus an error is a name and a text.
-/

namespace SimBus

inductive BusError where
  | unknownObject (path : String)
  | notImplemented (path interface : String)
  | unknownInterface (interface : String)
  | unknownMethod (interface member : String)
  | unknownProperty (interface property : String)
  | withoutData (property : String)
  | writeOnly (interface property : String)
  | readOnly (interface property : String)
  | argumentTypes (expected found : Ty)
  | argumentCount (expected found : Nat)
  /-- A property write with more or fewer arguments than the three it takes. -/
  | writeCount (found : Nat)
  /-- A property write whose interface and property are not named by texts. -/
  | writeNames
  | unreadableArgument (error : ValueError)
  | propertyType (property : String) (expected found : Ty)
  /-- The variable behind a property does not take the value. -/
  | notAssignable (error : EvalError)
  | machine (error : MachineError)
  | raised (name message : String)

namespace BusError

def standardName (short : String) : String := "org.freedesktop.DBus.Error." ++ short

def name : BusError → String
  | unknownObject _ => standardName "UnknownObject"
  | notImplemented .. | unknownInterface _ => standardName "UnknownInterface"
  | unknownMethod .. | machine (.noTransition ..) => standardName "UnknownMethod"
  | unknownProperty .. | withoutData _ => standardName "UnknownProperty"
  | writeOnly .. => standardName "AccessDenied"
  | readOnly .. => standardName "PropertyReadOnly"
  | argumentTypes .. | argumentCount .. | writeCount _ | writeNames | unreadableArgument _
  | propertyType .. | notAssignable _ => standardName "InvalidArgs"
  | machine (.preconditionFailed error _ _) => error
  | machine (.eval _) => standardName "Failed"
  | raised name _ => name

def message : BusError → String
  | unknownObject path => "no object at " ++ path
  | notImplemented path interface => path ++ " does not implement " ++ interface
  | unknownInterface interface => "unknown interface " ++ interface
  | unknownMethod interface member => "no method " ++ member ++ " on " ++ interface
  | unknownProperty interface property => "no property " ++ property ++ " on " ++ interface
  | withoutData property => "property " ++ property ++ " has no backing data variable"
  | writeOnly interface property => "property " ++ interface ++ "." ++ property ++ " is write-only"
  | readOnly interface property => "property " ++ interface ++ "." ++ property ++ " is read-only"
  | argumentTypes expected found =>
      "expected arguments '" ++ expected.signature ++ "', got '" ++ found.signature ++ "'"
  | argumentCount expected found =>
      "expected " ++ toString expected ++ " arguments, got " ++ toString found
  | writeCount found => "Set expects 3 arguments, got " ++ toString found
  | writeNames => "Set expects interface and property names"
  | unreadableArgument error => error.message
  | propertyType property expected found =>
      "property " ++ property ++ " has type '" ++ expected.signature ++ "', got '" ++
        found.signature ++ "'"
  | notAssignable error => error.message
  | machine (.preconditionFailed _ line state) => MachineError.preconditionText line state
  | machine (.eval error) => error.message
  | machine (.noTransition state trigger) => (MachineError.noTransition state trigger).message
  | raised _ message => message

end BusError

structure Call where
  interface : String
  member : String
  arguments : List Value

end SimBus
