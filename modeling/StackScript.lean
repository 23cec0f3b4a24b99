import StackScript.Main
import StackScript.Proofs.CanonicalText
import StackScript.Proofs.CheckedCode
import StackScript.Proofs.ChunksAndBranches
import StackScript.Proofs.CompilerCorrectness
import StackScript.Proofs.DiscardedValues
import StackScript.Proofs.FiniteFloats
import StackScript.Proofs.ForwardJumps
import StackScript.Proofs.ImageRoundTrip
import StackScript.Proofs.IntegerOperations
import StackScript.Proofs.Interning
import StackScript.Proofs.Numerals
import StackScript.Proofs.ParserCompleteness
import StackScript.Proofs.References
import StackScript.Proofs.RoundingOrder
import StackScript.Proofs.SafeCode
import StackScript.Proofs.SessionState
import StackScript.Proofs.SlotMachine
import StackScript.Proofs.SplitPrograms
import StackScript.Proofs.TextDivision
import StackScript.Proofs.UntouchedNames
import StackScript.Proofs.Comparisons
import StackScript.Proofs.ParserTermination
import StackScript.Proofs.ParserReports
import StackScript.Proofs.SpacedWords
import StackScript.Proofs.InstructionStreams
import StackScript.Proofs.DamagedCode
