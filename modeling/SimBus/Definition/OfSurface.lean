import SimBus.Typing
import SimBus.Interface
/-!
From objects as written to their definitions: names are resolved against the
states, the data and the implemented interfaces, and every expression is typed.
-/

namespace SimBus

def splitLastDot? (name : String) : Option (String × String) :=
  let cs := name.toList.reverse
  match cs.dropWhile (· != '.') with
  | _ :: before =>
      some (String.ofList before.reverse, String.ofList (cs.takeWhile (· != '.')).reverse)
  | [] => none

namespace Resolution

open Typing (Result fail check)

structure Context where
  table : BuiltinTable
  interfaces : List Interface
  data : List (String × Ty)
  states : List String

/-- Finds a member by its name, plain or behind the name of its interface. A
plain name must occur in one implemented interface only. -/
def member {α : Type} (interfaces : List Interface) (kind : MemberKind)
    (find : Interface → String → Option α) (position : Position) (name : String) :
    Result (String × α) :=
  match splitLastDot? name with
  | some (qualifier, plain) =>
      match interfaces.find? (·.name == qualifier) with
      | none => fail position (.unknownMember kind name)
      | some i =>
          match find i plain with
          | some found => .ok (i.name, found)
          | none => fail position (.unknownMember kind name)
  | none =>
      match interfaces.filterMap fun i => (find i name).map fun found => (i.name, found) with
      | [] => fail position (.unknownMember kind name)
      | [found] => .ok found
      | candidates => fail position (.ambiguousMember kind name (candidates.map Prod.fst))

def implemented (known : InterfaceSet) :
    List Surface.Name → (sofar : List Interface) → Result (List Interface)
  | [], sofar => .ok sofar
  | name :: rest, sofar =>
      match known.find? name.text with
      | none => fail name.position (.unknownInterface name.text)
      | some i =>
          implemented known rest (if sofar.any (·.name == i.name) then sofar else sofar ++ [i])

def states : List Surface.Name → (sofar : List String) → Result (List String)
  | [], sofar => .ok sofar
  | name :: rest, sofar =>
      if name.text ∈ sofar then fail name.position (.duplicateState name.text)
      else states rest (sofar ++ [name.text])

def dataVariables (table : BuiltinTable) :
    List Surface.DataVariable → (sofar : List DataVariable) → Result (List DataVariable)
  | [], sofar => .ok sofar
  | declared :: rest, sofar =>
      if sofar.any (·.name == declared.name) then
        fail declared.position (.duplicateVariable declared.name)
      else do
        let initializer ← check table ⟨none, []⟩ ("initializer of '" ++ declared.name ++ "'")
          declared.ty declared.initializer
        dataVariables table rest
          (sofar ++ [⟨declared.name, declared.ty, initializer, declared.position⟩])

def state (ctx : Context) (name : Surface.Name) : Result Nat :=
  match ctx.states.findIdx? (· == name.text) with
  | some id => .ok id
  | none => fail name.position (.unknownState name.text)

/-- The parameters of a method; an argument without a name is called after its
place. -/
def parameters : List Argument → (place : Nat) → List (String × Ty)
  | [], _ => []
  | a :: rest, place => (a.name.getD ("arg" ++ toString place), a.ty) :: parameters rest (place + 1)

/-- A resolved trigger: the parameters it brings, and the types of the reply
that it calls for, if any. -/
structure TriggerInfo where
  trigger : Trigger
  parameters : List (String × Ty)
  reply : Option (List Ty)
  neverFires : Bool

def trigger (ctx : Context) (position : Position) : Surface.Trigger → Result TriggerInfo
  | .method name => do
      let (interface, method) ← member ctx.interfaces .method Interface.method? position name
      pure ⟨.method interface method.name, parameters method.inputs 0,
        some (Argument.types method.outputs), false⟩
  | .property name => do
      let (interface, property) ← member ctx.interfaces .property Interface.property? position name
      pure ⟨.property interface property.name, [("value", property.ty)], none,
        !property.access.writable⟩
  | .arbitrary => .ok ⟨.arbitrary, [], none, false⟩

def checkAll (table : BuiltinTable) (scope : Scope) (context : String) :
    List Surface.Expr → List Ty → Result (List Expr)
  | argument :: rest, ty :: types => do
      let expr ← check table scope context ty argument
      let exprs ← checkAll table scope context rest types
      pure (expr :: exprs)
  | _, _ => .ok []

def inferAll (table : BuiltinTable) (scope : Scope) : List Surface.Expr → Result (List Ty)
  | [] => .ok []
  | argument :: rest => do
      let (_, ty) ← Typing.infer table scope none argument
      let types ← inferAll table scope rest
      pure (ty :: types)

def arguments (table : BuiltinTable) (scope : Scope) (context : String) (position : Position)
    (types : List Ty) (arguments : List Surface.Expr) : Result Expr :=
  if arguments.length = types.length then do
    let items ← checkAll table scope context arguments types
    pure (.tuple items)
  else do
    let found ← inferAll table scope arguments
    fail position (.typeMismatch context (.tuple types) (.tuple found))

def statement (ctx : Context) (scope : Scope) (reply : Option (List Ty)) :
    Surface.Statement → Result Statement
  | .assign pos name value =>
      if scope.locals.any (·.1 == name) then fail pos (.readOnlyVariable name)
      else match ctx.data.find? (·.1 == name) with
        | none => fail pos (.undeclaredVariable name)
        | some entry => do
            let value ← check ctx.table scope ("assignment to '" ++ name ++ "'") entry.2 value
            pure (.assign name value)
  | .reply pos values =>
      match reply with
      | none => fail pos .replyOutsideMethod
      | some types => do
          let payload ← arguments ctx.table scope "reply" pos types values
          pure (.reply payload)
  | .emit pos name values => do
      let (interface, signal) ← member ctx.interfaces .signal Interface.signal? pos name
      let payload ← arguments ctx.table scope ("signal '" ++ signal.name ++ "'") pos
        (Argument.types signal.arguments) values
      pure (.emit interface signal.name payload)
  | .throw _ error none => .ok (.throw error none)
  | .throw _ error (some message) => do
      let message ← check ctx.table scope "error message" .string message
      pure (.throw error (some message))

def body (ctx : Context) (scope : Scope) (reply : Option (List Ty)) :
    List Surface.Statement → Result (List Statement)
  | [] => .ok []
  | first :: rest => do
      let first ← statement ctx scope reply first
      let others ← body ctx scope reply rest
      pure (first :: others)

def defaultError : String := "org.freedesktop.DBus.Error.Failed"

def preconditions (ctx : Context) (scope : Scope) :
    List Surface.Precondition → Result (List Precondition)
  | [] => .ok []
  | first :: rest => do
      let condition ← check ctx.table scope "precondition" .bool first.condition
      let others ← preconditions ctx scope rest
      pure (⟨first.error.getD defaultError, condition⟩ :: others)

def isMethod : Trigger → Bool
  | .method .. => true
  | _ => false

def memberName : Trigger → String
  | .method _ name | .property _ name => name
  | .arbitrary => ""

/-- A transition on a method has to answer the call. -/
def transition (ctx : Context) (raw : Surface.Transition) : Result (Transition × Bool) := do
  let source ← state ctx raw.source
  let target ← state ctx raw.target
  let info ← trigger ctx raw.triggerPosition raw.trigger
  let scope : Scope := ⟨some ctx.data, info.parameters⟩
  let preconditions ← preconditions ctx scope raw.preconditions
  let body ← body ctx scope info.reply raw.body
  if isMethod info.trigger && !raw.body.any Surface.Statement.answers then
    fail raw.position (.missingReply (memberName info.trigger))
  else
    pure (⟨source, target, info.trigger, info.parameters, preconditions, body, raw.position⟩,
      info.neverFires)

end Resolution

end SimBus
