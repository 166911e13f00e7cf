import Mathlib.Data.List.Perm.Basic
import SimBus.Proofs.BusTables
import SimBus.Proofs.RefusedRegistrations
/-!
Who claims what on the bus. Whatever is done to objects that share a bus, its
tables hold the paths and names of the registered ones, and nothing else.
-/

namespace SimBus

open Draws (Branch)

namespace Object

/-- Not both are registered, or they have different paths and no name in common. -/
def Apart (a b : Object) : Prop :=
  a.registered = true → b.registered = true →
    a.path ≠ b.path ∧ a.definition.names.Disjoint b.definition.names

theorem apart_symm {a b : Object} (apart : Apart a b) : Apart b a := by
  intro second first
  obtain ⟨paths, names⟩ := apart first second
  exact ⟨paths.symm, fun name theirs mine => names mine theirs⟩

inductive Acts (o : Object) (bus : Bus) : Object → Bus → Prop where
  | called {call : Call} {result : Except BusError Output} {after : Object} {busAfter : Bus} :
      Branch (o.dispatch bus call) (result, after, busAfter) → Acts o bus after busAfter
  | ticked {result : Option (Except BusError Output)} {after : Object} {busAfter : Bus} :
      Branch (o.tick bus) (result, after, busAfter) → Acts o bus after busAfter
  | reset : Acts o bus o.reset bus
  | registered {after : Object} {busAfter : Bus} :
      o.register bus = (.ok after, busAfter) → Acts o bus after busAfter
  | refused {e : RegistrationError} {busAfter : Bus} :
      o.register bus = (.error e, busAfter) → Acts o bus o busAfter
  | unregistered : Acts o bus (o.unregister bus).1 (o.unregister bus).2

end Object

structure World where
  objects : List Object
  bus : Bus

namespace World

/-- What can happen to objects and their bus. Objects that are new are not
registered, and those that are dropped are unregistered first. -/
inductive Step (w : World) : World → Prop where
  | created {o : Object} : o.registered = false → o.held = [] → Step w ⟨w.objects ++ [o], w.bus⟩
  | acted {before rest : List Object} {o after : Object} {busAfter : Bus} :
      w.objects = before ++ o :: rest → o.Acts w.bus after busAfter →
      Step w ⟨before ++ after :: rest, busAfter⟩
  | dropped {before rest : List Object} {o : Object} : w.objects = before ++ o :: rest →
      Step w ⟨before ++ rest, (o.unregister w.bus).2⟩
  | nameRefused (name : String) : Step w ⟨w.objects, w.bus.refuseName name⟩
  | signalsTaken : Step w ⟨w.objects, w.bus.takeSignals.2⟩

inductive Reached : World → Prop where
  | empty : Reached ⟨[], Bus.empty⟩
  | stepped {w after : World} : Reached w → Step w after → Reached after

/-- The tables of the bus hold what the registered objects claim, and nothing else. -/
structure Exact (w : World) : Prop where
  apart : w.objects.Pairwise Object.Apart
  held : ∀ o ∈ w.objects, o.held = if o.registered then o.definition.names else []
  exported : ∀ path interfaces, w.bus.interfacesAt? path = some interfaces ↔
    ∃ o ∈ w.objects, o.registered = true ∧ o.path = path ∧ o.exported = interfaces
  owned : ∀ name owner, w.bus.owner? name = some owner ↔
    ∃ o ∈ w.objects, o.registered = true ∧ name ∈ o.definition.names ∧ o.path = owner

theorem exact_empty : Exact ⟨[], Bus.empty⟩ where
  apart := .nil
  held := by simp
  exported := by simp [Bus.empty, Bus.interfacesAt?]
  owned := by simp [Bus.empty, Bus.owner?]

variable {bus busAfter : Bus} {o after : Object} {objects others rest : List Object}

theorem exact_perm (exact : Exact ⟨objects, bus⟩) (same : objects.Perm others) :
    Exact ⟨others, bus⟩ where
  apart := (same.pairwise_iff Object.apart_symm).mp exact.apart
  held o member := exact.held o (same.mem_iff.mpr member)
  exported path interfaces := by simpa only [same.mem_iff] using exact.exported path interfaces
  owned name owner := by simpa only [same.mem_iff] using exact.owned name owner

theorem exact_tables (exact : Exact ⟨objects, bus⟩) (same : Bus.SameTables bus busAfter) :
    Exact ⟨objects, busAfter⟩ where
  apart := exact.apart
  held := exact.held
  exported path interfaces := same.interfaces path ▸ exact.exported path interfaces
  owned name owner := same.owners name ▸ exact.owned name owner

theorem exact_unowned (exact : Exact ⟨objects, bus⟩) (path : String)
    (unused : bus.interfacesAt? path = none) (name : String) : bus.owner? name ≠ some path := by
  intro owned
  obtain ⟨o, member, registered, -, here⟩ := (exact.owned name path).mp owned
  have used := (exact.exported path o.exported).mpr ⟨o, member, registered, here, rfl⟩
  rw [unused] at used
  cases used

theorem exact_cons_idle (idle : o.registered = false) :
    Exact ⟨o :: rest, bus⟩ ↔ o.held = [] ∧ Exact ⟨rest, bus⟩ := by
  constructor
  · rintro ⟨apart, held, exported, owned⟩
    refine ⟨by simpa [idle] using held o List.mem_cons_self, (List.pairwise_cons.mp apart).2,
      fun x member => held x (List.mem_cons_of_mem o member), ?_, ?_⟩
    · simpa [idle] using exported
    · simpa [idle] using owned
  · rintro ⟨none, apart, held, exported, owned⟩
    refine ⟨List.pairwise_cons.mpr ⟨?_, apart⟩, ?_, ?_, ?_⟩
    · intro x _ registered
      rw [idle] at registered
      cases registered
    · exact List.forall_mem_cons.mpr ⟨by simp [idle, none], held⟩
    · simpa [idle] using exported
    · simpa [idle] using owned

theorem exact_sameClaims (exact : Exact ⟨o :: rest, bus⟩) (same : o.SameClaims after) :
    Exact ⟨after :: rest, bus⟩ := by
  obtain ⟨definition, registered, held⟩ := same
  have path : after.path = o.path := congrArg Definition.path definition
  have exported : after.exported = o.exported :=
    congrArg (fun d : Definition => d.interfaces ++ [Interface.propertiesName]) definition
  obtain ⟨apart, others⟩ := List.pairwise_cons.mp exact.apart
  refine ⟨List.pairwise_cons.mpr ⟨?_, others⟩, ?_, ?_, ?_⟩
  · intro x member
    simpa only [Object.Apart, definition, registered, path] using apart x member
  · simpa only [List.forall_mem_cons, definition, registered, held] using exact.held
  · simpa only [List.mem_cons, exists_eq_or_imp, registered, path, exported] using exact.exported
  · simpa only [List.mem_cons, exists_eq_or_imp, registered, path, definition] using exact.owned

theorem exact_hosted (exact : Exact ⟨rest, bus⟩) (registered : o.registered = true)
    (held : o.held = o.definition.names)
    (hosted : Bus.Hosted bus o.path o.exported o.definition.names busAfter) :
    Exact ⟨o :: rest, busAfter⟩ := by
  have free : ∀ name ∈ o.definition.names, bus.owner? name = none := by
    intro name member
    exact (hosted.free name member).resolve_right (exact_unowned exact o.path hosted.unused name)
  refine ⟨List.pairwise_cons.mpr ⟨?_, exact.apart⟩, ?_, ?_, ?_⟩
  · intro x member _ onBus
    -- An object in its way would have an entry for the path or for the name.
    constructor
    · intro same
      have used := (exact.exported o.path x.exported).mpr ⟨x, member, onBus, same.symm, rfl⟩
      rw [hosted.unused] at used
      cases used
    · intro name mine theirs
      have owned := (exact.owned name x.path).mpr ⟨x, member, onBus, theirs, rfl⟩
      rw [free name mine] at owned
      cases owned
  · exact List.forall_mem_cons.mpr ⟨by simp [registered, held], exact.held⟩
  · intro path interfaces
    rw [hosted.interfaces]
    by_cases here : path = o.path
    · have none := exact.exported path interfaces
      rw [here, hosted.unused] at none
      simp [here, registered, ← none]
    · simpa [here, Ne.symm here] using exact.exported path interfaces
  · intro name owner
    rw [hosted.owners]
    by_cases mine : name ∈ o.definition.names
    · have none := exact.owned name owner
      rw [free name mine] at none
      simp [mine, registered, ← none]
    · simpa [mine] using exact.owned name owner

theorem exact_freed (exact : Exact ⟨o :: rest, bus⟩) (registered : o.registered = true)
    (freed : Bus.Freed bus o.path o.definition.names busAfter) : Exact ⟨rest, busAfter⟩ := by
  obtain ⟨apart, others⟩ := List.pairwise_cons.mp exact.apart
  refine ⟨others, fun x member => exact.held x (List.mem_cons_of_mem o member), ?_, ?_⟩
  · intro path interfaces
    rw [freed.interfaces]
    by_cases here : path = o.path
    · simp only [here, ↓reduceIte, reduceCtorEq, false_iff]
      rintro ⟨x, member, onBus, same, -⟩
      exact (apart x member registered onBus).1 same.symm
    · simpa [here, Ne.symm here] using exact.exported path interfaces
  · intro name owner
    rw [freed.owners]
    by_cases mine : name ∈ o.definition.names
    · simp only [mine, ↓reduceIte, reduceCtorEq, false_iff]
      rintro ⟨x, member, onBus, theirs, -⟩
      exact (apart x member registered onBus).2 mine theirs
    · simpa [mine] using exact.owned name owner

theorem exact_unregister (exact : Exact ⟨o :: rest, bus⟩) :
    Exact ⟨rest, (o.unregister bus).2⟩ ∧ (o.unregister bus).1.registered = false ∧
      (o.unregister bus).1.held = [] := by
  have held := exact.held o List.mem_cons_self
  unfold Object.unregister
  by_cases registered : o.registered = true
  · rw [if_pos registered] at held ⊢
    exact ⟨exact_freed exact registered (held ▸ bus.releaseNames_freed o.held o.path), rfl, rfl⟩
  · have idle : o.registered = false := by simpa using registered
    obtain ⟨none, others⟩ := (exact_cons_idle idle).mp exact
    rw [if_neg registered]
    exact ⟨others, idle, none⟩

theorem exact_acts (exact : Exact ⟨o :: rest, bus⟩) (acts : o.Acts bus after busAfter) :
    Exact ⟨after :: rest, busAfter⟩ := by
  cases acts with
  | called branch =>
      obtain ⟨claims, tables⟩ := Object.dispatch_sameClaims o bus _ _ after busAfter branch
      exact exact_tables (exact_sameClaims exact claims) tables
  | ticked branch =>
      obtain ⟨claims, tables⟩ := Object.tick_sameClaims o bus _ after busAfter branch
      exact exact_tables (exact_sameClaims exact claims) tables
  | reset => exact exact_sameClaims exact ⟨rfl, rfl, rfl⟩
  | registered registers =>
      obtain ⟨idle, rfl, hosted⟩ := Object.register_ok o after bus busAfter registers
      exact exact_hosted ((exact_cons_idle idle).mp exact).2 rfl rfl hosted
  | refused registers =>
      rw [Object.register_refused o bus busAfter _ (exact_unowned exact o.path) registers]
      exact exact
  | unregistered =>
      obtain ⟨others, idle, none⟩ := exact_unregister exact
      exact (exact_cons_idle idle).mpr ⟨none, others⟩

theorem exact_step (w next : World) (exact : Exact w) (step : Step w next) : Exact next := by
  obtain ⟨objects, bus⟩ := w
  cases step with
  | @created o idle none =>
      exact exact_perm ((exact_cons_idle idle).mpr ⟨none, exact⟩)
        (List.perm_append_singleton o _).symm
  | @acted before rest o after busAfter here acts =>
      obtain rfl : objects = before ++ o :: rest := here
      -- The object that acts comes to the front, where `exact_acts` speaks of it.
      have first := exact_perm exact List.perm_middle
      exact exact_perm (exact_acts first acts) List.perm_middle.symm
  | @dropped before rest o here =>
      obtain rfl : objects = before ++ o :: rest := here
      exact (exact_unregister (exact_perm exact List.perm_middle)).1
  | nameRefused name => exact exact_tables exact ⟨fun _ => rfl, fun _ => rfl⟩
  | signalsTaken => exact exact_tables exact ⟨fun _ => rfl, fun _ => rfl⟩

theorem reached_exact (w : World) (reached : Reached w) : Exact w := by
  induction reached with
  | empty => exact exact_empty
  | stepped _ step ih => exact exact_step _ _ ih step

theorem exact_nobody (exact : Exact ⟨[], bus⟩) : bus.objects = [] ∧ bus.names = [] := by
  obtain ⟨-, -, exported, owned⟩ := exact
  constructor
  · cases table : bus.objects with
    | nil => rfl
    | cons entry rest =>
        have found : bus.interfacesAt? entry.1 = some entry.2 := by
          rw [Bus.interfacesAt?, table, Bus.lookup_put]
          exact if_pos rfl
        obtain ⟨o, member, -⟩ := (exported _ _).mp found
        cases member
  · cases table : bus.names with
    | nil => rfl
    | cons entry rest =>
        have found : bus.owner? entry.1 = some entry.2 := by
          rw [Bus.owner?, table, Bus.lookup_put]
          exact if_pos rfl
        obtain ⟨o, member, -⟩ := (owned _ _).mp found
        cases member

end World

end SimBus
