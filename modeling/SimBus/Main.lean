import SimBus.Json.Writer
import SimBus.Random.Stream
import SimBus.Service
import SimBus.Settings
/-!
The command line. `check` reports what is wrong with programs, and which states
nothing leads to. `serve` runs a control session on the standard streams.
-/

namespace SimBus.CommandLine

def usage : String :=
  "usage: simbus check [-i DESCRIPTION]... PROGRAM...\n" ++
  "       simbus serve [-c SETTINGS] [-i DESCRIPTION]... [--seed N] [--interval-ms N]\n" ++
  "                    [--idle-timeout N] [PROGRAM]..."

/-- What the arguments ask for, on top of the settings in a file. -/
structure Options where
  file : Option String
  seed : Option Nat
  interval : Option Nat
  idleLimit : Option Nat
  descriptions : List String
  programs : List String

def Options.none : Options := ⟨.none, .none, .none, .none, [], []⟩

def Options.parse? : List String → Options → Option Options
  | [], o => some o
  | "-i" :: file :: rest, o | "--introspection" :: file :: rest, o =>
      parse? rest { o with descriptions := o.descriptions ++ [file] }
  | "-c" :: file :: rest, o | "--config" :: file :: rest, o =>
      parse? rest { o with file := some file }
  | "--seed" :: n :: rest, o => do parse? rest { o with seed := some (← n.toNat?) }
  | "--interval-ms" :: n :: rest, o => do parse? rest { o with interval := some (← n.toNat?) }
  | "--idle-timeout" :: n :: rest, o => do parse? rest { o with idleLimit := some (← n.toNat?) }
  | argument :: rest, o =>
      if argument.startsWith "-" then .none
      else parse? rest { o with programs := o.programs ++ [argument] }

def Options.apply (o : Options) (s : Settings) : Settings :=
  { seed := (o.seed.map UInt64.ofNat).or s.seed
    interval := o.interval.getD s.interval
    idleLimit := o.idleLimit.or s.idleLimit
    programs := s.programs ++ o.programs
    descriptions := s.descriptions ++ o.descriptions }

def readFiles (names : List String) : IO Files := do
  let mut contents : List (String × String) := []
  for name in names do
    match ← (IO.FS.readFile name).toBaseIO with
    | .ok text => contents := (name, text) :: contents
    | .error _ => pure ()
  return fun name => contents.lookup name

def fail (e : LoadError) : IO UInt32 := do
  IO.eprintln e.message
  return e.status.code.toUInt32

def report (r : CheckReport) : IO Unit := do
  match r.errorMessage? with
  | some message => IO.println message
  | .none =>
      for warning in r.warnings do IO.eprintln (r.file ++ ":" ++ warning.text)
      for message in r.unreachableMessages do IO.println message
      for message in r.possiblyReachableMessages do IO.eprintln message

def check (o : Options) : IO UInt32 := do
  let files ← readFiles (o.descriptions ++ o.programs)
  match files.interfaces o.descriptions with
  | .error e => fail e
  | .ok known =>
      match files.check Builtin.standard known o.programs with
      | .error e => fail e
      | .ok reports =>
          for r in reports do report r
          return (CheckReport.overallStatus reports).code.toUInt32

def randomWord : IO UInt64 := do
  let bytes ← IO.getRandomBytes 8
  return (bytes.toList.foldl (fun (n : Nat) (byte : UInt8) => 256 * n + byte.toNat) 0).toUInt64

structure Session where
  service : Service
  stream : Random.Stream
  /-- The activity at the last poll, and when it had changed last. -/
  activity : Nat
  lastChange : Nat

def Session.write (lines : List ServiceLine) : IO Unit := do
  let output ← IO.getStdout
  for line in lines do
    output.putStrLn (line.toJson (toString (← IO.monoMsNow))).write
  output.flush

def Session.handle (session : Session) (line : String) : IO Session := do
  let ((lines, service), stream) :=
    (session.service.handle line).run Random.Stream.generator.toSource session.stream
  Session.write lines
  return { session with service := service, stream := stream }

def Session.poll (session : Session) (now : Nat) : IO Session := do
  let ((_, lines, service), stream) :=
    session.service.poll.run Random.Stream.generator.toSource session.stream
  Session.write lines
  let activity := service.simulation.activity
  return ⟨service, stream, activity,
    if activity = session.activity then session.lastChange else now⟩

partial def Session.run (session : Session) (settings : Settings)
    (line : Task (Except IO.Error String)) (nextPoll : Nat) : IO Unit := do
  if ← IO.hasFinished line then
    match line.get with
    | .error e => throw e
    | .ok text =>
        if text.isEmpty then return
        let session ← session.handle text
        session.run settings (← IO.asTask (← IO.getStdin).getLine) nextPoll
  else
    let now ← IO.monoMsNow
    if now < nextPoll then
      IO.sleep (min 10 (nextPoll - now)).toUInt32
      session.run settings line nextPoll
    else
      let session ← session.poll now
      match settings.idleLimit with
      | some seconds => if seconds * 1000 ≤ now - session.lastChange then return
      | .none => pure ()
      session.run settings line (now + max 1 settings.interval)

def start (files : Files) (settings : Settings) : IO UInt32 := do
  let seed ← match settings.seed with
    | some seed => pure seed
    | .none => randomWord
  let loading := (Simulation.ofSettings files Builtin.standard settings seed).run
  match loading.run Random.Stream.generator.toSource (Random.Stream.ofSeed seed) with
  | (.error e, _) => fail e
  | (.ok simulation, stream) =>
      let service := Service.start simulation (toString (← randomWord))
      let now ← IO.monoMsNow
      Session.run ⟨service, stream, simulation.activity, now⟩ settings
        (← IO.asTask (← IO.getStdin).getLine) now
      return 0

def serve (o : Options) : IO UInt32 := do
  let loaded ← match o.file with
    | .none => pure (.ok Settings.default)
    | some file => (Settings.load · file) <$> readFiles [file]
  match loaded with
  | .error e => fail e
  | .ok settings =>
      let settings := o.apply settings
      if settings.programs.isEmpty then
        IO.eprintln "no program files given"
        return 1
      start (← readFiles (settings.descriptions ++ settings.programs)) settings

def refuse : IO UInt32 := do
  IO.eprintln usage
  return CheckStatus.badOptions.code.toUInt32

end SimBus.CommandLine

open SimBus.CommandLine in
def main (arguments : List String) : IO UInt32 :=
  match arguments with
  | "check" :: rest =>
      match Options.parse? rest Options.none with
      | some o => if o.programs.isEmpty then refuse else check o
      | none => refuse
  | "serve" :: rest =>
      match Options.parse? rest Options.none with
      | some o => serve o
      | none => refuse
  | _ => refuse
