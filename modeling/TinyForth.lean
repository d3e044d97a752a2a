import TinyForth.Bulletin
import TinyForth.Command.Execute
import TinyForth.Evaluation
import TinyForth.Main
import TinyForth.Session
import TinyForth.Wat.Machine
import TinyForth.Proofs.Alphabet
import TinyForth.Proofs.Grammar
import TinyForth.Proofs.Utf8
import TinyForth.Proofs.Acceptance
import TinyForth.Proofs.Declarations
import TinyForth.Proofs.Literal
import TinyForth.Proofs.Simulation
import TinyForth.Proofs.ReadBack
import TinyForth.Proofs.StackDiscipline
import TinyForth.Proofs.Tokens
import TinyForth.Proofs.FileTree
import TinyForth.Proofs.FileEffect
import TinyForth.Proofs.SuccessiveRuns
import TinyForth.Proofs.Comments
import TinyForth.Proofs.Lines
import TinyForth.Proofs.Console
import TinyForth.Proofs.PrintedNumbers
import TinyForth.Proofs.Locality
import TinyForth.Proofs.Words
import TinyForth.Proofs.DeclarationOrder
import TinyForth.Proofs.StagedCompilation
import TinyForth.Proofs.WrittenText
import TinyForth.Proofs.GeneratedLines
import TinyForth.Proofs.CommentGrammar
import TinyForth.Proofs.Spacing
import TinyForth.Proofs.Utf8Faults
import TinyForth.Proofs.OutputNames
import TinyForth.Proofs.TestOrder
import TinyForth.Proofs.NumeralGrammar
import TinyForth.Proofs.Chronology
