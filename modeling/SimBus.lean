import SimBus.Main
import SimBus.Proofs.BusEntrance
import SimBus.Proofs.CertainSteps
import SimBus.Proofs.JsonRoundTrip
import SimBus.Proofs.PropertyMirror
import SimBus.Proofs.SignatureRoundTrip
import SimBus.Proofs.StateCoverage
import SimBus.Proofs.TransactionalCalls
import SimBus.Proofs.TypeSoundness
import SimBus.Proofs.TypedEffects
import SimBus.Proofs.ValueEquality
import SimBus.Proofs.MachineRuns
import SimBus.Proofs.BusClaims
import SimBus.Proofs.SimulationRuns
import SimBus.Proofs.ExposedTypes
import SimBus.Proofs.PropertyWrites
import SimBus.Proofs.RefusedRegistrations
import SimBus.Proofs.DrawlessRuns
import SimBus.Proofs.Independence
import SimBus.Proofs.Sessions
import SimBus.Proofs.SignatureReading
import SimBus.Proofs.DecidedChoices
import SimBus.Proofs.ResetObjects
import SimBus.Proofs.ProgramReading
import SimBus.Proofs.TransitionSelection
import SimBus.Proofs.StateClasses
import SimBus.Proofs.DecodedCalls
import SimBus.Proofs.ValueEquivalence
import SimBus.Proofs.SwappedComparisons
import SimBus.Proofs.FiniteMaps
import SimBus.Proofs.ArraySequences
import SimBus.Proofs.IntegerArithmetic
import SimBus.Proofs.PropertyStore
import SimBus.Proofs.LiteralInitializers
import SimBus.Proofs.EnvironmentHistories
import SimBus.Proofs.WrittenReads
import SimBus.Proofs.ExactWarnings
import SimBus.Proofs.TruthfulWarnings
import SimBus.Proofs.FollowedGrammar
import SimBus.Proofs.TotalParsing
