import BinaryTape.Main
import BinaryTape.Files.Tree
import BinaryTape.Proofs.CompiledTables
import BinaryTape.Proofs.Completeness
import BinaryTape.Proofs.NormalForm
import BinaryTape.Proofs.Passes
import BinaryTape.Proofs.SourceRuns
import BinaryTape.Proofs.TwoWayTape
import BinaryTape.Proofs.ImplicitStates
import BinaryTape.Proofs.Origins
import BinaryTape.Proofs.Determinism
import BinaryTape.Proofs.Targets
import BinaryTape.Proofs.CalledModules
import BinaryTape.Proofs.TableFormat
import BinaryTape.Proofs.ChainFaults
import BinaryTape.Proofs.EliminatedRuns
import BinaryTape.Proofs.ReachableStates
import BinaryTape.Proofs.StraightTables
import BinaryTape.Proofs.StraightSources
import BinaryTape.Proofs.StepLimits
import BinaryTape.Proofs.CallCounts
import BinaryTape.Proofs.BindingForms
import BinaryTape.Proofs.Lexing
import BinaryTape.Proofs.ExitCounts
import BinaryTape.Proofs.RuleLookups
import BinaryTape.Proofs.HiddenMarks
