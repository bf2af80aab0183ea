import Workflow.Definition.Loose
import Workflow.Interface
import Workflow.Machine
import Workflow.Resource.Script
import Workflow.Json.Parse
import Workflow.Proofs.Trail
import Workflow.Proofs.Execution
import Workflow.Proofs.State
import Workflow.Proofs.Visit
import Workflow.Proofs.Run
import Workflow.Proofs.Patience
import Workflow.Proofs.Limit
import Workflow.Proofs.Course
import Workflow.Proofs.Trace
import Workflow.Proofs.Reach
import Workflow.Proofs.Load
import Workflow.Proofs.Outcome
import Workflow.Proofs.Refusal
import Workflow.Proofs.Document
import Workflow.Proofs.Frame
import Workflow.Proofs.Number.Literal
import Workflow.Proofs.Json.Render
import Workflow.Proofs.Result
import Workflow.Proofs.Segment
import Workflow.Proofs.Json.Like
import Workflow.Proofs.Writing
import Workflow.Proofs.Json.Equal
import Workflow.Proofs.InStep
import Workflow.Proofs.Equality
import Workflow.Proofs.Redirect
import Workflow.Proofs.Splice
import Workflow.Proofs.Path
import Workflow.Proofs.Task
import Workflow.Proofs.Echo
import Workflow.Proofs.Path.Position
import Workflow.Proofs.Obstacle
import Workflow.Proofs.State.Decided
