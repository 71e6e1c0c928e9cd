import ShaderGraph.Main
import ShaderGraph.Proofs.Generation
import ShaderGraph.Proofs.Replay
import ShaderGraph.Proofs.Splitting
import ShaderGraph.Proofs.Aggregate
import ShaderGraph.Proofs.Bindings
import ShaderGraph.Proofs.Cached
import ShaderGraph.Proofs.Preorder
import ShaderGraph.Proofs.WellTyped
import ShaderGraph.Proofs.Persistence
import ShaderGraph.Proofs.Handles
import ShaderGraph.Proofs.Textures
import ShaderGraph.Proofs.Termination
import ShaderGraph.Proofs.Inlining
import ShaderGraph.Proofs.Usage
import ShaderGraph.Proofs.Naming
import ShaderGraph.Proofs.Interface
import ShaderGraph.Proofs.Locality
import ShaderGraph.Proofs.Annotating
import ShaderGraph.Proofs.Wiring
import ShaderGraph.Proofs.Outputs
import ShaderGraph.Proofs.Rebinding
import ShaderGraph.Proofs.Warnings
import ShaderGraph.Proofs.Destinations
import ShaderGraph.Proofs.Searching
import ShaderGraph.Proofs.Recording
import ShaderGraph.Proofs.Positions
import ShaderGraph.Proofs.Addressing
import ShaderGraph.Proofs.Sources
import ShaderGraph.Proofs.Numbering
import ShaderGraph.Proofs.Identifiers
import ShaderGraph.Proofs.Images
import ShaderGraph.Proofs.Merging
import ShaderGraph.Proofs.Patterns
import ShaderGraph.Proofs.Limits
import ShaderGraph.Proofs.Allocation
import ShaderGraph.Proofs.TypeNames
