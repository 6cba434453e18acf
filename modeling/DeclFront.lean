import DeclFront.Dump.Json
import DeclFront.Dump.Listing
import DeclFront.Dump.Outline
import DeclFront.Main
import DeclFront.Parse.Declaration
import DeclFront.Parse.Error
import DeclFront.Parse.Machine
import DeclFront.Parse.Reader
import DeclFront.Parse.Scope
import DeclFront.Proofs.Parse.Acceptance
import DeclFront.Proofs.Parse.Demand
import DeclFront.Proofs.Parse.Descent
import DeclFront.Proofs.Parse.Fold
import DeclFront.Proofs.Parse.Grammar
import DeclFront.Proofs.Parse.Move
import DeclFront.Scan.Basic
import DeclFront.Scan.Delimited
import DeclFront.Scan.Number
import DeclFront.Scan.Run
import DeclFront.Scan.Word
import DeclFront.Shell.Arguments
import DeclFront.Shell.Execute
import DeclFront.Shell.Files
import DeclFront.Shell.Similarity
import DeclFront.Span
import DeclFront.Text.Bytes
import DeclFront.Text.Cursor
import DeclFront.Text.Letter
import DeclFront.Text.Quoted
import DeclFront.Text.Ranges
import DeclFront.Text.Visible
import DeclFront.Token
import DeclFront.Token.Emitter
import DeclFront.Tree
import DeclFront.Vocabulary
import DeclFront.Proofs.Parse.FirstFailure
import DeclFront.Proofs.Print.Lexeme
import DeclFront.Proofs.Print.RoundTrip
import DeclFront.Proofs.Stream.Rendezvous
import DeclFront.Proofs.Scan.Locality
import DeclFront.Proofs.Scan.Position
import DeclFront.Proofs.Scan.Guarded
import DeclFront.Proofs.Scan.Lossless
import DeclFront.Proofs.Scan.Context
import DeclFront.Proofs.Scan.Concatenation
import DeclFront.Proofs.Parse.Concatenation
import DeclFront.Proofs.Scan.Trivia
import DeclFront.Proofs.Scan.Ending
import DeclFront.Proofs.Scan.Balance
import DeclFront.Proofs.Scan.Course
import DeclFront.Proofs.Scan.Form
import DeclFront.Proofs.Scan.Rescan
import DeclFront.Proofs.Parse.Coverage
import DeclFront.Proofs.Parse.Nesting
import DeclFront.Proofs.Parse.Diagnosis
import DeclFront.Proofs.Scan.Brackets
import DeclFront.Proofs.Dump.Layout
import DeclFront.Proofs.Dump.Determined
import DeclFront.Proofs.Stream.Sink
import DeclFront.Proofs.Text.Munch
import DeclFront.Proofs.Scan.Numeral
import DeclFront.Proofs.Scan.Content
import DeclFront.Proofs.Scan.Word
import DeclFront.Proofs.Parse.Stack
import DeclFront.Proofs.Parse.Frame
import DeclFront.Proofs.Parse.CutOff
import DeclFront.Proofs.Scan.Digitless
import DeclFront.Proofs.Text.Session
import DeclFront.Proofs.Parse.Usage
