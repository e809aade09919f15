import Converge.Main
import Converge.Pass.Memory
import Converge.Proofs.Fact.Response
import Converge.Proofs.Failing
import Converge.Proofs.Pass.Play
import Converge.Proofs.Plan.Justified
import Converge.Proofs.Plan.Guards
import Converge.Proofs.Pass.Course
import Converge.Proofs.Docker.Deed
import Converge.Proofs.Pass.Run
import Converge.Proofs.Pass.Succession
import Converge.Proofs.Pass.Warrant
import Converge.Proofs.Shell.Reader
import Converge.Proofs.Shell.RoundTrip
import Converge.Proofs.Docker.Convergence
import Converge.Proofs.Pass.Forecast
import Converge.Proofs.Docker.Creation
import Converge.Proofs.Json.Grammar
import Converge.Proofs.Json.Reading
import Converge.Proofs.Manifest.Elements
import Converge.Proofs.Manifest.Rewording
import Converge.Proofs.Manifest.Acceptance
import Converge.Proofs.Manifest.RoundTrip
import Converge.Proofs.Docker.Operands
import Converge.Proofs.Docker.Absence
import Converge.Proofs.Plan.Shape
import Converge.Proofs.Fact.Paths
import Converge.Proofs.Pass.Survey
import Converge.Proofs.Console.Listing
import Converge.Proofs.Fact.Lines
import Converge.Proofs.Pass.Belief
import Converge.Proofs.Pass.Barred
import Converge.Proofs.Pass.Unwanted
import Converge.Proofs.Plan.Refusal
import Converge.Proofs.Text.ByteOrder
import Converge.Proofs.Fact.Collisions
import Converge.Proofs.Text.LowerCase
import Converge.Proofs.Fact.Names
import Converge.Proofs.Fact.RunState
import Converge.Proofs.Fact.FieldNames
import Converge.Proofs.Fact.FixedNames
import Converge.Proofs.Docker.Chaining
