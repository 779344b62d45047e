import ModuleHierarchy.Hierarchy.Lemmas
import ModuleHierarchy.Main
import ModuleHierarchy.Proofs.Scan.Children
import ModuleHierarchy.Token.Prefix
import ModuleHierarchy.Proofs.Comment.Closed
import ModuleHierarchy.Proofs.Extraction.Keys
import ModuleHierarchy.Proofs.Extraction.Assembly
import ModuleHierarchy.Proofs.Token.Spelling
import ModuleHierarchy.Proofs.Extraction.Location
import ModuleHierarchy.Proofs.Extraction.Comment
import ModuleHierarchy.Proofs.Extraction.Join
import ModuleHierarchy.Proofs.Extraction.Dot
import ModuleHierarchy.Proofs.Graph.Copy
import ModuleHierarchy.Proofs.Extraction.Order
import ModuleHierarchy.Proofs.Token.RoundTrip
import ModuleHierarchy.Proofs.Comment.Piece
import ModuleHierarchy.Proofs.Extraction.Append
import ModuleHierarchy.Proofs.Token.Class
import ModuleHierarchy.Proofs.Token.Separator
import ModuleHierarchy.Proofs.Token.Alike
import ModuleHierarchy.Proofs.Token.Gap
import ModuleHierarchy.Proofs.Token.Language
import ModuleHierarchy.Proofs.Token.Line
import ModuleHierarchy.Proofs.Extraction.Inert
import ModuleHierarchy.Proofs.Extraction.LineEnding
import ModuleHierarchy.Proofs.Tool.Outcome
import ModuleHierarchy.Proofs.Extraction.WholeWord
import ModuleHierarchy.Proofs.Extraction.Silence
import ModuleHierarchy.Proofs.Comment.Division
import ModuleHierarchy.Proofs.Comment.Glue
import ModuleHierarchy.Proofs.Extraction.Again
import ModuleHierarchy.Proofs.Hierarchy.Update
import ModuleHierarchy.Proofs.Extraction.Wording
import ModuleHierarchy.Proofs.Token.Cursor
import ModuleHierarchy.Proofs.Text.Longest
import ModuleHierarchy.Proofs.Token.Reserved
import ModuleHierarchy.Proofs.Token.Literal
import ModuleHierarchy.Proofs.Source.Line
