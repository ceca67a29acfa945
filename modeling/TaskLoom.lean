import TaskLoom.Main
import TaskLoom.Simulation.Basic
import TaskLoom.Proofs.Simulation.Run
import TaskLoom.Proofs.Hdl.Wiring
import TaskLoom.Proofs.Composite.Growth
import TaskLoom.Proofs.Composite.Layout
import TaskLoom.Proofs.Simulation.Delay
import TaskLoom.Proofs.Controller.Drain
import TaskLoom.Proofs.Controller.Handshake
import TaskLoom.Proofs.Controller.Phases
import TaskLoom.Proofs.Controller.Lockstep
import TaskLoom.Proofs.Controller.Completion
import TaskLoom.Proofs.Simulation.Acyclic
import TaskLoom.Proofs.Graph.Instances
import TaskLoom.Proofs.Composite.Regeneration
import TaskLoom.Proofs.Description.Decoding
import TaskLoom.Proofs.Description.KeyOrder
import TaskLoom.Proofs.Description.WrittenOrder
import TaskLoom.Proofs.Description.Independence
import TaskLoom.Proofs.Graph.Acceptance
import TaskLoom.Proofs.Graph.StreamSides
import TaskLoom.Proofs.Composite.Accepted
import TaskLoom.Proofs.Hdl.Blanking
import TaskLoom.Proofs.Hdl.Cutting
import TaskLoom.Proofs.Hdl.Inert
import TaskLoom.Proofs.Hdl.Phrases
import TaskLoom.Proofs.Hdl.Rendered
import TaskLoom.Proofs.Hdl.Reading
import TaskLoom.Proofs.Hdl.RoundTrip
import TaskLoom.Proofs.Composite.Offsets
import TaskLoom.Proofs.Composite.Lookup
import TaskLoom.Proofs.Hdl.Scope
import TaskLoom.Proofs.Composite.Closed
import TaskLoom.Proofs.Graph.Reachable
import TaskLoom.Proofs.Files.Growth
import TaskLoom.Proofs.Simulation.FixedPoint
import TaskLoom.Proofs.Composite.Generated
import TaskLoom.Proofs.Composite.Assembly
import TaskLoom.Proofs.Composite.Bindings
import TaskLoom.Proofs.Composite.ChannelNames
import TaskLoom.Proofs.Composite.Channels
import TaskLoom.Proofs.Hdl.Locality
import TaskLoom.Proofs.Hdl.Scanning
import TaskLoom.Proofs.Hdl.Splicing
import TaskLoom.Proofs.Hdl.Stable
import TaskLoom.Proofs.Hdl.Spans
import TaskLoom.Proofs.Hdl.Origin
import TaskLoom.Proofs.Hdl.Misreading
import TaskLoom.Proofs.Composite.KeptInterface
import TaskLoom.Proofs.Output.Collected
import TaskLoom.Proofs.Output.Sources
import TaskLoom.Proofs.Output.Definitions
import TaskLoom.Proofs.Composite.Settling
import TaskLoom.Proofs.Failures
import TaskLoom.Proofs.Hdl.Additions
import TaskLoom.Proofs.Simulation.DelayLine
import TaskLoom.Proofs.Composite.ParentPorts
import TaskLoom.Proofs.Hdl.ReadBack
import TaskLoom.Proofs.Description.Faithful
import TaskLoom.Proofs.Graph.Hierarchy
import TaskLoom.Proofs.Hdl.HeaderParams
import TaskLoom.Proofs.Hdl.HeaderPorts
import TaskLoom.Proofs.Hdl.HeaderStyles
import TaskLoom.Proofs.Hdl.Literals
import TaskLoom.Proofs.Composite.ConstantArgs
import TaskLoom.Proofs.Composite.InstanceNames
import TaskLoom.Proofs.Files.Paths
import TaskLoom.Proofs.Output.AllOrNothing
import TaskLoom.Proofs.Output.Overwriting
import TaskLoom.Proofs.Hdl.Ranges
import TaskLoom.Proofs.Composite.GivenWidths
import TaskLoom.Proofs.Simulation.Widths
import TaskLoom.Proofs.Hdl.Positions
import TaskLoom.Proofs.Controller.LeastWidths
