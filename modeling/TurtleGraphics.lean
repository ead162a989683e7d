import TurtleGraphics.Drawing.Display
import TurtleGraphics.Error.Custom
import TurtleGraphics.Matcher.Choice
import TurtleGraphics.Mismatch
import TurtleGraphics.Session
import TurtleGraphics.Tree.Conversion
import TurtleGraphics.Tree.Eval
import TurtleGraphics.Tree.Bundle
import TurtleGraphics.Proofs.JumpStack
import TurtleGraphics.Proofs.RoutineRun
import TurtleGraphics.Proofs.RoundTrip
import TurtleGraphics.Proofs.StructuralFaults
import TurtleGraphics.Proofs.InPlace
import TurtleGraphics.Proofs.StepLimit
import TurtleGraphics.Proofs.Taxonomy
import TurtleGraphics.Proofs.OrderedChoice
import TurtleGraphics.Proofs.StrictKeywords
import TurtleGraphics.Proofs.Concatenation
import TurtleGraphics.Proofs.RulesByChoice
import TurtleGraphics.Proofs.Reading
import TurtleGraphics.Proofs.PenIndependence
import TurtleGraphics.Proofs.EventTrace
import TurtleGraphics.Proofs.SessionHistory
import TurtleGraphics.Proofs.BlankLines
import TurtleGraphics.Proofs.Nesting
import TurtleGraphics.Proofs.Evaluation
import TurtleGraphics.Proofs.Forward
import TurtleGraphics.Proofs.LineLayout
import TurtleGraphics.Proofs.LineForms
import TurtleGraphics.Proofs.JoinedScripts
import TurtleGraphics.Proofs.ExecutedOnly
import TurtleGraphics.Proofs.AssignmentHistory
import TurtleGraphics.Proofs.KeywordPlaces
import TurtleGraphics.Proofs.RunLog
import TurtleGraphics.Proofs.ScriptLog
import TurtleGraphics.Proofs.TextOperations
