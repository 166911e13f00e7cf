import SimBus.Files
import SimBus.Simulation
/-!
The settings of a run, which a file gives as a record in JSON. Every one of
them may be left out.
-/

namespace SimBus

structure Settings where
  /-- The seed of the random numbers, if the run is to be repeatable. -/
  seed : Option UInt64
  interval : Nat
  /-- How many seconds without activity end the run. -/
  idleLimit : Option Nat
  programs : List String
  descriptions : List String

namespace Settings

def default : Settings := ⟨none, 500, none, [], []⟩

open JsonText in
def ofRecord? (json : JsonText) : Option Settings := do
  match ← fields? ["seed", "arbitrary_interval_ms", "idle_timeout_secs", "programs",
      "introspection"] json with
  | [seed, interval, idleLimit, programs, descriptions] =>
      some
        { seed := (← optional? natural? seed).map UInt64.ofNat
          interval := ← orElse? natural? default.interval interval
          idleLimit := ← optional? natural? idleLimit
          programs := ← orElse? (items? string?) [] programs
          descriptions := ← orElse? (items? string?) [] descriptions }
  | _ => none

def ofJson? (text : String) : Option Settings := (JsonText.parse? text).bind ofRecord?

def load (files : Files) (file : String) : Except LoadError Settings := do
  match ofJson? (← files.read file) with
  | some settings => .ok settings
  | none => .error (.settings file)

end Settings

namespace Simulation

def loadFiles (files : Files) : List String → Simulation → ExceptT LoadError Draws Simulation
  | [], s => pure s
  | file :: rest, s => do
      match files.read file with
      | .error e => throw e
      | .ok text =>
          match ← (s.load text).run with
          | .error e => throw (.program file e)
          | .ok s => loadFiles files rest s

def ofSettings (files : Files) (table : BuiltinTable) (settings : Settings) (seed : UInt64) :
    ExceptT LoadError Draws Simulation :=
  match files.interfaces settings.descriptions with
  | .error e => throw e
  | .ok known => loadFiles files settings.programs (empty known table seed)

end Simulation

end SimBus
