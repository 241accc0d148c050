import Styling.Annotation
import Styling.Clone
import Styling.Command
import Styling.Decimal.Layout
import Styling.Error
import Styling.Hint
import Styling.Literal.Reading
import Styling.Literal.Token
import Styling.Main
import Styling.Proofs.Apply
import Styling.Proofs.Tables
import Styling.Proofs.Store
import Styling.Session
import Styling.Slot
import Styling.Statement
import Styling.Table
import Styling.Target
import Styling.Text.Blank
import Styling.Text.Digit
import Styling.Text.Lowercase
import Styling.Text.Quoted
import Styling.Text.Split
import Styling.Value
import Styling.Value.Format
import Styling.Proofs.Styler
import Styling.Proofs.Registry
import Styling.Proofs.Routing
import Styling.Proofs.Chain
import Styling.Proofs.Unwinding
import Styling.Proofs.Reordering
import Styling.Proofs.Separation
import Styling.Proofs.Statements
import Styling.Proofs.Doubles
import Styling.Proofs.Numerals
import Styling.Proofs.Lexing
import Styling.Proofs.Structured
import Styling.Proofs.Families
import Styling.Proofs.Fonts
import Styling.Proofs.FontTexts
import Styling.Proofs.Values
import Styling.Proofs.RoundTrip
import Styling.Proofs.Calls
import Styling.Proofs.Concatenation
import Styling.Proofs.Interruption
import Styling.Proofs.Conforming
import Styling.Proofs.Sharing
import Styling.Proofs.Spelling
import Styling.Proofs.References
import Styling.Proofs.Declarations
import Styling.Proofs.CommandLine
import Styling.Proofs.Threading
import Styling.Proofs.Quotation
import Styling.Proofs.FontSurvival
import Styling.Proofs.FontTokens
import Styling.Proofs.FontGrammar
import Styling.Proofs.FirstOwner
import Styling.Proofs.Hierarchies
import Styling.Proofs.Freezing
import Styling.Proofs.WritingBack
import Styling.Proofs.TokenRows
import Styling.Proofs.Geometry
import Styling.Proofs.Colors
import Styling.Proofs.Inference
import Styling.Proofs.Reports
import Styling.Proofs.Registration
import Styling.Proofs.ValueTexts
import Styling.Proofs.Unions
import Styling.Proofs.NotedTypes
import Styling.Proofs.FinalAnnotations
