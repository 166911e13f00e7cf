import SimBus.Proofs.CallDelivery
import SimBus.Proofs.EvaluatedTypes
import SimBus.Proofs.ResolvedMembers
import SimBus.Proofs.TransactionalCalls
/-!
The effects of operations and their types. A call of a method that succeeds is
answered, with a reply or with an error at the end; replies have the type of the
method and signals that of the interface. None of this takes well-formed
arguments, honest functions or typed data: what types do not ensure beforehand
is checked when expressions are evaluated.
-/

namespace SimBus

open Draws (Branch)
open Statement (Executes Raises)

namespace Output

def replies : Output → List Value
  | [] => []
  | .reply payload :: rest => payload :: replies rest
  | _ :: rest => replies rest

theorem replies_append (first second : Output) :
    replies (first ++ second) = replies first ++ replies second := by
  induction first with
  | nil => rfl
  | cons effect rest ih => cases effect <;> simp [replies, ih]

theorem mem_replies_iff (output : Output) (payload : Value) :
    payload ∈ replies output ↔ .reply payload ∈ output := by
  induction output with
  | nil => simp [replies]
  | cons effect rest ih => cases effect <;> simp [replies, ih]

theorem mem_signals_iff (output : Output) (s : String × String × Value) :
    s ∈ signals output ↔ .signal s.1 s.2.1 s.2.2 ∈ output := by
  obtain ⟨interface, name, payload⟩ := s
  induction output with
  | nil => simp [signals]
  | cons effect rest ih => cases effect <;> simp [signals, ih]

/-- An error stands at the end, and nowhere else. -/
def Fails (output : Output) : Prop :=
  ∃ before name text, output = before ++ [.error name text] ∧ error? before = none

/-- There is an answer: a reply and no error, or an error at the end. -/
def Concludes (output : Output) : Prop :=
  error? output = none ∧ replies output ≠ [] ∨ Fails output

def Acknowledges (output : Output) : Prop :=
  error? output = none ∧ replies output = [Value.unit] ∨ Fails output

end Output

/-- The effect has the type that the interfaces of the object declare for it. -/
def Effect.Declared (d : Definition) (known : InterfaceSet) (trigger : Trigger) : Effect → Prop
  | .reply payload => ∃ interface name i m, trigger = .method interface name ∧
      d.interface? known interface = some i ∧ i.method? name = some m ∧ payload.ty = m.outputType
  | .signal interface name payload => ∃ i s, d.interface? known interface = some i ∧
      i.signal? name = some s ∧ payload.ty = s.payloadType
  | .error _ _ => True

namespace Definition

variable {table : BuiltinTable} {known : InterfaceSet} {d : Definition} {t : Transition}

theorem evaluated_ty (typed : d.Typed table known) (member : t ∈ d.transitions) (s : Statement)
    (inBody : s ∈ t.body) (expr : Expr) (holds : s.expression? = some expr) (env : Environment)
    (locals : List (String × Value)) (v : Value)
    (evaluated : Branch (expr.eval ⟨table, env, locals⟩).run (.ok v)) :
    s.staticType? d known t.trigger = some v.ty := by
  obtain ⟨ty, static, exprTyped⟩ := typed.statements t member s inBody expr holds
  have evaluation : (expr.eval ⟨table, env, locals⟩).TypedAs ty :=
    Expr.eval_typedAs expr ty exprTyped
  rw [static, evaluation.returned v evaluated]

theorem reply_declared (linked : d.Linked known) (member : t ∈ d.transitions) (payload : Expr)
    (v : Value) (static : (Statement.reply payload).staticType? d known t.trigger = some v.ty) :
    (Effect.reply v).Declared d known t.trigger := by
  have listens := linked.listens t member
  rw [Listens] at listens
  cases on : t.trigger with
  | method interface name =>
      simp only [on] at listens
      obtain ⟨i, m, implemented, found, -⟩ := listens
      have described := ((d.interface?_eq_some_iff known interface i).mp implemented).2
      simp only [Statement.staticType?, on, described, Option.bind_some, found, Option.map_some,
        Option.some.injEq] at static
      exact ⟨interface, name, i, m, rfl, implemented, found, static.symm⟩
  | property | arbitrary => simp [Statement.staticType?, on] at static

theorem signal_declared (linked : d.Linked known) (member : t ∈ d.transitions)
    (interface name : String) (payload : Expr) (v : Value)
    (inBody : .emit interface name payload ∈ t.body)
    (static : (Statement.emit interface name payload).staticType? d known t.trigger = some v.ty) :
    (Effect.signal interface name v).Declared d known t.trigger := by
  have listed := linked.emits t member interface name payload inBody
  obtain ⟨s, found, same⟩ := Option.map_eq_some_iff.mp static
  obtain ⟨i, described, found⟩ := Option.bind_eq_some_iff.mp found
  exact ⟨i, s, (d.interface?_eq_some_iff known interface i).mpr ⟨listed, described⟩, found,
    same.symm⟩

theorem executes_declared (typed : d.Typed table known) (linked : d.Linked known)
    (member : t ∈ d.transitions) (locals : List (String × Value)) (body : List Statement)
    (env after : Environment) (effects : Output)
    (executes : Executes table locals body env effects after) (inBody : ∀ s ∈ body, s ∈ t.body) :
    ∀ effect ∈ effects, effect.Declared d known t.trigger := by
  induction executes with
  | done env => simp
  | assign _ _ _ ih => exact ih fun s later => inBody s (List.mem_cons_of_mem _ later)
  | @reply payload v _ env _ _ evaluated _ ih =>
      have static := evaluated_ty typed member (.reply payload) (inBody _ List.mem_cons_self)
        payload rfl env locals v evaluated
      exact List.forall_mem_cons.mpr ⟨reply_declared linked member payload v static,
        ih fun s later => inBody s (List.mem_cons_of_mem _ later)⟩
  | @emit interface name payload v _ env _ _ evaluated _ ih =>
      have here := inBody _ List.mem_cons_self
      have static := evaluated_ty typed member (.emit interface name payload) here payload rfl env
        locals v evaluated
      exact List.forall_mem_cons.mpr ⟨signal_declared linked member interface name payload v here
        static, ih fun s later => inBody s (List.mem_cons_of_mem _ later)⟩

theorem executes_replies (locals : List (String × Value)) (body : List Statement)
    (env after : Environment) (effects : Output)
    (executes : Executes table locals body env effects after)
    (answers : body.any Statement.answers = true) : effects.replies ≠ [] := by
  induction executes with
  | done env => cases answers
  | assign _ _ _ ih => exact ih (by simpa [Statement.answers] using answers)
  | reply _ _ _ => simp [Output.replies]
  | emit _ _ ih => exact ih (by simpa [Statement.answers] using answers)

end Definition

namespace Object

def Declares (o : Object) (s : String × String × Value) : Prop :=
  ∃ i signal, o.implemented? s.1 = some i ∧ i.signal? s.2.1 = some signal ∧
    s.2.2.ty = signal.payloadType

/-- The signals of an output are declared ones, but for the announcements of
what changed, which may stand behind them. -/
def EmitsDeclared (o after : Object) (output : Output) : Prop :=
  ∃ own appended, output.signals = own ++ appended ∧ (∀ s ∈ own, o.Declares s) ∧
    (appended = [] ∨ appended = Output.signals (announcements o after))

theorem announcements_replies (before after : Object) :
    Output.replies (announcements before after) = [] := by
  unfold announcements
  induction changes before.exposedValues after.exposedValues [] with
  | nil => rfl
  | cons change rest ih => exact ih

/-- What firing a trigger puts out: the effects of a body, and behind them an
error or announcements. -/
inductive PutsOut (o : Object) (trigger : Trigger) (after : Object) : Output → Prop where
  | failed {effects : Output} (name text : String) :
      (∀ effect ∈ effects, effect.Declared o.definition o.known trigger) →
      Output.error? effects = none → PutsOut o trigger after (effects ++ [.error name text])
  | completed {effects : Output} :
      (∀ effect ∈ effects, effect.Declared o.definition o.known trigger) →
      Output.error? effects = none →
      (Resolution.isMethod trigger = true → effects.replies ≠ []) →
      PutsOut o trigger after (effects ++ announcements o after)

variable {o after : Object}

theorem handles_putsOut (typed : o.definition.Typed o.builtins o.known)
    (linked : o.definition.Linked o.known) (bus busAfter : Bus) (trigger : Trigger)
    (arguments : List Value) (output : Output)
    (handles : Handles o bus trigger arguments (.ok output) after busAfter) :
    o.PutsOut trigger after output := by
  cases handles with
  | @raised _ t locals before rest s effects middle name text reacts _ split executes _ =>
      have declared := Definition.executes_declared typed linked reacts.member locals before o.env
        middle effects executes fun s inFront => by simp [split, inFront]
      exact .failed name text (reacts.trigger ▸ declared) (Statement.executes_error? executes)
  | @completed _ t locals effects env reacts _ executes =>
      have declared := Definition.executes_declared typed linked reacts.member locals t.body o.env
        env effects executes fun _ inBody => inBody
      refine .completed (reacts.trigger ▸ declared) (Statement.executes_error? executes) ?_
      intro onMethod
      exact Definition.executes_replies locals t.body o.env env effects executes
        (linked.answers t reacts.member (reacts.trigger ▸ onMethod))

theorem declared_signals (trigger : Trigger) (effects : Output)
    (declared : ∀ effect ∈ effects, effect.Declared o.definition o.known trigger) :
    ∀ s ∈ effects.signals, o.Declares s := fun s member =>
  declared _ ((Output.mem_signals_iff effects s).mp member)

theorem putsOut_emits (trigger : Trigger) (output : Output)
    (puts : o.PutsOut trigger after output) :
    o.EmitsDeclared after output := by
  cases puts with
  | @failed effects name text declared _ =>
      exact ⟨effects.signals, [], by rw [Output.signals_ended, List.append_nil],
        declared_signals trigger effects declared, .inl rfl⟩
  | @completed effects declared _ _ =>
      exact ⟨effects.signals, _, Output.signals_append _ _,
        declared_signals trigger effects declared, .inr rfl⟩

theorem putsOut_concludes (trigger : Trigger) (output : Output)
    (onMethod : Resolution.isMethod trigger = true) (puts : o.PutsOut trigger after output) :
    output.Concludes := by
  cases puts with
  | @failed effects name text _ clean => exact .inr ⟨effects, name, text, rfl, clean⟩
  | @completed effects _ clean replied =>
      refine .inl ⟨error?_announced effects o after clean, ?_⟩
      simp [Output.replies_append, replied onMethod]

theorem putsOut_replies (trigger : Trigger) (output : Output)
    (puts : o.PutsOut trigger after output) :
    ∀ payload ∈ output.replies, (Effect.reply payload).Declared o.definition o.known trigger := by
  have own (effects : Output)
      (declared : ∀ effect ∈ effects, effect.Declared o.definition o.known trigger) :
      ∀ payload ∈ effects.replies, (Effect.reply payload).Declared o.definition o.known trigger :=
    fun payload member => declared _ ((Output.mem_replies_iff effects payload).mp member)
  cases puts with
  | @failed effects name text declared _ =>
      simpa [Output.replies_append, Output.replies] using own effects declared
  | @completed effects declared _ _ =>
      simpa [Output.replies_append, announcements_replies] using own effects declared

theorem putsOut_acknowledges (trigger : Trigger) (output : Output)
    (quiet : Resolution.isMethod trigger = false) (puts : o.PutsOut trigger after output) :
    Output.Acknowledges (acknowledge output) := by
  -- Replies belong to methods, and the trigger is none.
  have silent : output.replies = [] := by
    refine List.eq_nil_iff_forall_not_mem.mpr fun payload member => ?_
    obtain ⟨interface, name, i, m, rfl, -⟩ := putsOut_replies trigger output puts payload member
    cases quiet
  cases puts with
  | @failed effects name text _ clean =>
      have ends := Output.error?_ended effects name text clean
      exact .inr ⟨effects, name, text, by simp [acknowledge, ends], clean⟩
  | @completed effects _ clean _ =>
      have succeeds := error?_announced effects o after clean
      refine .inl ⟨by rw [acknowledge_error?, succeeds], ?_⟩
      rw [acknowledge, succeeds, if_neg (by simp), Output.replies_append, silent]
      rfl

theorem assigned_acknowledges (before after : Object) :
    Output.Acknowledges (acknowledge (announcements before after)) := by
  refine .inl ⟨by rw [acknowledge_error?, announcements_error?], ?_⟩
  simp [acknowledge, announcements_error?, Output.replies_append, announcements_replies,
    Output.replies]

theorem emitsDeclared_acknowledged (output : Output) (emits : o.EmitsDeclared after output) :
    o.EmitsDeclared after (acknowledge output) := by
  obtain ⟨own, appended, split, rest⟩ := emits
  exact ⟨own, appended, (acknowledge_signals output).trans split, rest⟩

theorem calls_answered (typed : o.definition.Typed o.builtins o.known)
    (linked : o.definition.Linked o.known) (bus busAfter : Bus) (call : Call) (output : Output)
    (ordinary : call.interface ≠ Interface.propertiesName)
    (branch : Branch (o.dispatch bus call) (.ok output, after, busAfter)) :
    ∃ i m, o.CallsMethod call i m ∧ output.Concludes ∧
      (∀ payload ∈ output.replies, payload.ty = m.outputType) ∧ o.EmitsDeclared after output := by
  cases dispatch_succeeds o bus call output after busAfter branch with
  | read payload reads => simp [Call.reads, ordinary] at reads
  | @called i m _ _ _ calls handles =>
      have puts := handles_putsOut typed linked bus busAfter _ _ output handles
      refine ⟨i, m, calls, putsOut_concludes _ output rfl puts, ?_, putsOut_emits _ output puts⟩
      intro payload member
      obtain ⟨interface, name, j, m', same, implemented, found, ty⟩ :=
        putsOut_replies _ output puts payload member
      obtain ⟨rfl, rfl⟩ := Trigger.method.inj same
      obtain rfl := Option.some.inj (calls.implemented.symm.trans implemented)
      obtain rfl := Option.some.inj (calls.found.symm.trans found)
      exact ty
  | written writes _ => exact absurd writes.properties ordinary
  | assigned writes _ _ _ => exact absurd writes.properties ordinary

theorem writes_acknowledged (typed : o.definition.Typed o.builtins o.known)
    (linked : o.definition.Linked o.known) (bus busAfter : Bus) (call : Call) (output : Output)
    (properties : call.interface = Interface.propertiesName) (set : call.member = "Set")
    (branch : Branch (o.dispatch bus call) (.ok output, after, busAfter)) :
    output.Acknowledges ∧ o.EmitsDeclared after output := by
  cases dispatch_succeeds o bus call output after busAfter branch with
  | read payload reads => simp [Call.reads, set] at reads
  | called calls _ => exact absurd properties calls.ordinary
  | @written i p value inner _ _ writes handles =>
      have puts := handles_putsOut typed linked bus busAfter _ _ inner handles
      exact ⟨putsOut_acknowledges _ inner rfl puts,
        emitsDeclared_acknowledged inner (putsOut_emits _ inner puts)⟩
  | @assigned i p value env inner writes _ _ same =>
      subst same
      exact ⟨assigned_acknowledges o _, emitsDeclared_acknowledged _
        ⟨[], _, rfl, by simp, .inr rfl⟩⟩

theorem ticks_declared (typed : o.definition.Typed o.builtins o.known)
    (linked : o.definition.Linked o.known) (bus busAfter : Bus) (output : Output)
    (branch : Branch (o.tick bus) (some (.ok output), after, busAfter)) :
    output.replies = [] ∧ o.EmitsDeclared after output := by
  rcases tick_cases o bus _ after busAfter branch with ⟨nothing, -, -⟩ | ⟨answer, same, handles⟩
  · cases nothing
  · obtain rfl := Option.some.inj same
    have puts := handles_putsOut typed linked bus busAfter _ _ output handles
    refine ⟨?_, putsOut_emits _ output puts⟩
    refine List.eq_nil_iff_forall_not_mem.mpr fun payload member => ?_
    obtain ⟨interface, name, i, m, arbitrary, -⟩ := putsOut_replies _ output puts payload member
    cases arbitrary

/-- In every run of an accepted program, with any built-in functions and any
arguments: a method call that succeeds is answered by its method's type, a
write that succeeds is acknowledged once, and signals are as declared. -/
theorem reached_answered (table : BuiltinTable) (known : InterfaceSet) (text : String)
    (program : Program) (d : Definition) (o : Object)
    (accepted : Program.parse table known text = .ok program) (member : d ∈ program.definitions)
    (reached : Reached d known table (fun _ => True) o) :
    (∀ bus call output after busAfter, call.interface ≠ Interface.propertiesName →
      Branch (o.dispatch bus call) (.ok output, after, busAfter) →
        ∃ i m, o.CallsMethod call i m ∧ output.Concludes ∧
          (∀ payload ∈ output.replies, payload.ty = m.outputType) ∧
          o.EmitsDeclared after output) ∧
    (∀ bus call output after busAfter, call.interface = Interface.propertiesName →
      call.member = "Set" → Branch (o.dispatch bus call) (.ok output, after, busAfter) →
        output.Acknowledges ∧ o.EmitsDeclared after output) ∧
    ∀ bus output after busAfter, Branch (o.tick bus) (some (.ok output), after, busAfter) →
      output.replies = [] ∧ o.EmitsDeclared after output := by
  obtain ⟨raw, ctx, resolved⟩ :=
    Resolution.parse_resolved table known text program d accepted member
  have typed := Resolution.resolved_typed table known raw d ctx resolved
  have linked := Resolution.resolved_linked resolved
  obtain ⟨rfl, rfl⟩ := reached_constant d known table _ o reached
  obtain ⟨rfl, -⟩ := reached_invariant o.definition o.known table (fun _ => True)
    (fun _ _ => trivial) (fun _ _ => True) (fun _ _ => trivial) (fun _ _ _ _ _ _ => trivial) o
    reached
  exact ⟨fun bus call output after busAfter => calls_answered typed linked bus busAfter call output,
    fun bus call output after busAfter => writes_acknowledged typed linked bus busAfter call output,
    fun bus output after busAfter => ticks_declared typed linked bus busAfter output⟩

theorem lamp_light_answered :
    ∃ i m, (lampGlowing 0 0 (by decide) 0).CallsMethod lampCall i m ∧
      Output.Concludes [.reply .unit] ∧
        ∀ payload ∈ Output.replies [.reply .unit], payload.ty = m.outputType := by
  have branch : Branch ((lampGlowing 0 0 (by decide) 0).dispatch Bus.empty lampCall)
      (.ok [.reply .unit], lampGlowing 1 5 (by decide) 1, Bus.empty) :=
    Draws.run_branch Draws.listedAnswers _ []
  obtain ⟨i, m, calls, concludes, typed, -⟩ :=
    (reached_answered Builtin.standard lampKnown lampText ⟨[lamp], []⟩ lamp _ lamp_parsed
      (List.mem_singleton_self lamp) (lamp_created _)).1 _ _ _ _ _ (by decide) branch
  exact ⟨i, m, calls, concludes, typed⟩

end Object

end SimBus
