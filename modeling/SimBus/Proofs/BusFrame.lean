import SimBus.Proofs.Drawless
import SimBus.Proofs.TransactionalCalls
/-!
What an object has to do with the bus. It does not look at the bus to answer a call
or to tick, and all that it does there is to put signals behind those that wait. The
signals are those of its answer, as far as they came before an error.
-/

namespace SimBus

open Draws (Branch branch_bind_iff)

namespace Object

def stationed (o : Object) (registered : Bool) (held : List String) : Object :=
  { o with registered := registered, held := held }

/-- What an object does about a call, wherever it is stationed. -/
abbrev Conduct := Bool → List String → Bus → Draws (Except BusError Output × Object × Bus)

section Operations

variable (o : Object) (made : Conduct → Prop)
  (silent : ∀ result, made fun r h bus => pure (result, o.stationed r h, bus))
  (fired : ∀ trigger arguments, made fun r h bus => (o.stationed r h).fire bus trigger arguments)
  (assigned : ∀ p value, made fun r h bus => pure ((o.stationed r h).assignProperty bus p value))
  (acknowledged : ∀ conduct, made conduct → made fun r h bus => conduct r h bus >>= fun reply =>
    pure (reply.1.map acknowledge, reply.2.1, reply.2.2))

theorem stationed_implemented? (r : Bool) (h : List String) (interface : String) :
    (o.stationed r h).implemented? interface = o.implemented? interface := rfl

theorem stationed_property (r : Bool) (h : List String) (interface name : String) :
    (o.stationed r h).property interface name = o.property interface name := rfl

theorem stationed_accepts (r : Bool) (h : List String) (trigger : Trigger) :
    (o.stationed r h).machine.accepts trigger = o.machine.accepts trigger := rfl

include silent fired in
theorem callMethod_made (call : Call) :
    made fun r h bus => (o.stationed r h).callMethod bus call := by
  simp only [callMethod, stationed_implemented?]
  split
  · exact silent (.error (.notImplemented o.path call.interface))
  · split
    · exact silent _
    · split
      · exact silent _
      · exact fired _ _

include silent fired assigned acknowledged

theorem setProperty_made (interface name : String) (value : Value) :
    made fun r h bus => (o.stationed r h).setProperty bus interface name value := by
  simp only [setProperty, stationed_property, stationed_accepts]
  split
  · exact silent _
  · split
    · exact silent _
    · split
      · exact silent _
      · next i p _ _ _ =>
          by_cases accepts : o.machine.accepts (.property i.name p.name) = true
          · simp only [accepts, ↓reduceIte]
            exact acknowledged _ (fired _ _)
          · simp only [accepts]
            exact acknowledged _ (assigned _ _)

/-- What holds of refusals and readings, of firings and of assignments, and is kept by
an acknowledgement, holds of every answer to a call. -/
theorem dispatch_made (call : Call) : made fun r h bus => (o.stationed r h).dispatch bus call := by
  unfold dispatch
  split
  · unfold callProperties
    dsimp only
    split
    · split
      · exact silent _
      · next interface name _ _ =>
          exact silent (o.getProperty (interface.text?.getD "") (name.text?.getD ""))
      · exact silent _
    · split
      · exact silent _
      · next interface _ _ => exact silent (o.getAllProperties (interface.text?.getD ""))
      · exact silent _
    · split
      · exact silent _
      · exact setProperty_made o made silent fired assigned acknowledged _ _ _
      · exact silent _
    · exact silent _
  · exact callMethod_made o made silent fired call

end Operations

section Frames

variable {α β : Type} {operation : Bus → Draws (α × Object × Bus)}

/-- On every bus the operation comes to the same as on the empty one, with its signals
put behind those that wait. -/
def Framed (operation : Bus → Draws (α × Object × Bus)) : Prop :=
  ∀ bus, operation bus =
    (fun reply => (reply.1, reply.2.1, bus.queue reply.2.2.signals)) <$> operation Bus.empty

theorem framed_silent (answer : α) (after : Object) :
    Framed fun bus => pure (answer, after, bus) := by
  intro bus
  rw [map_pure]
  exact congrArg (fun bus => pure (answer, after, bus)) bus.queue_nil.symm

theorem framed_queue (answer : α) (after : Object) (sent : List Emission) :
    Framed fun bus => pure (answer, after, bus.queue sent) :=
  fun _ => rfl

theorem framed_bind (first : Draws β) (rest : β → Bus → Draws (α × Object × Bus))
    (framed : ∀ b, Framed (rest b)) : Framed fun bus => first >>= fun b => rest b bus := by
  intro bus
  rw [map_bind]
  exact congrArg (first >>= ·) (funext fun b => framed b bus)

theorem framed_map (f : α → β) (framed : Framed operation) :
    Framed fun bus => operation bus >>= fun reply => pure (f reply.1, reply.2.1, reply.2.2) := by
  intro bus
  simp only [framed bus, bind_map_left, map_bind, map_pure]

theorem framed_drawless (framed : Framed operation) (drawless : (operation Bus.empty).Drawless) :
    ∃ answer after sent, ∀ bus, operation bus = pure (answer, after, bus.queue sent) := by
  obtain ⟨⟨answer, after, fresh⟩, alone⟩ := (Draws.drawless_iff _).mp drawless
  refine ⟨answer, after, fresh.signals, fun bus => ?_⟩
  rw [framed bus, alone, map_pure]

end Frames

variable (o : Object)

theorem fire_framed (trigger : Trigger) (arguments : List Value) :
    Framed fun bus => o.fire bus trigger arguments := by
  apply framed_bind
  rintro ⟨result, machine, env⟩
  cases result with
  | error e => exact framed_silent _ _
  | ok firing =>
      simp only [publish_queue]
      exact framed_queue _ _ _

theorem assignProperty_framed (p : Property) (value : Value) :
    Framed fun bus => pure (o.assignProperty bus p value) := by
  unfold assignProperty
  split
  · exact framed_silent _ _
  · split
    · exact framed_silent _ _
    · simp only [publish_queue]
      exact framed_queue _ _ _

theorem dispatch_framed (call : Call) : Framed fun bus => o.dispatch bus call :=
  dispatch_made o (fun conduct => Framed (conduct o.registered o.held))
    (fun result => framed_silent result o) (fire_framed o) (assignProperty_framed o)
    (fun _ framed => framed_map (Except.map acknowledge) framed) call

def emitted : Except BusError Output → List Emission
  | .ok output => o.sent output
  | .error _ => []

theorem handles_emits {bus : Bus} {trigger : Trigger} {arguments : List Value}
    {result : Except BusError Output} {after : Object} {busAfter : Bus}
    (handles : Handles o bus trigger arguments result after busAfter) :
    busAfter = bus.queue (o.emitted result) := by
  cases handles with
  | refused e => exact bus.queue_nil.symm
  | raised => rw [emitted, sent_raised]
  | completed => rfl

theorem dispatch_emits (bus : Bus) (call : Call) (result : Except BusError Output) (after : Object)
    (busAfter : Bus) (branch : Branch (o.dispatch bus call) (result, after, busAfter)) :
    busAfter = bus.queue (o.emitted result) := by
  cases dispatch_answers o bus call result after busAfter branch with
  | refused e => exact bus.queue_nil.symm
  | read payload =>
      have silent : o.sent [.reply payload] = [] := by simp [sent, Output.signals]
      rw [emitted, silent, Bus.queue_nil]
  | called _ _ handles => exact handles_emits o handles
  | @written _ _ inner _ _ _ _ _ handles =>
      rw [handles_emits o handles]
      cases inner with
      | error e => rfl
      | ok output => exact congrArg bus.queue (acknowledge_sent o output).symm
  | @assigned _ _ _ _ output => exact congrArg bus.queue (acknowledge_sent o output).symm

theorem tick_emits (bus : Bus) (result : Option (Except BusError Output)) (after : Object)
    (busAfter : Bus) (branch : Branch (o.tick bus) (result, after, busAfter)) :
    busAfter = bus.queue (result.elim [] o.emitted) := by
  rcases tick_cases o bus result after busAfter branch with ⟨rfl, -, rfl⟩ | ⟨answer, rfl, handles⟩
  · exact busAfter.queue_nil.symm
  · exact handles_emits o handles

end Object

end SimBus
