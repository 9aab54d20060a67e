import HeaderBinding.Files.Survey
import HeaderBinding.Main
import HeaderBinding.Settings.Rules
import HeaderBinding.Proofs.Token.Elision
import HeaderBinding.Proofs.Token.LineEnds
import HeaderBinding.Proofs.Cursor.Callables
import HeaderBinding.Proofs.Header.Spans
import HeaderBinding.Proofs.Header.Total
import HeaderBinding.Proofs.Header.Dropped
import HeaderBinding.Proofs.Header.RoundTrip
import HeaderBinding.Proofs.Header.Markers
import HeaderBinding.Proofs.Header.Prototypes
import HeaderBinding.Proofs.Header.Fields
import HeaderBinding.Proofs.Mapping.Chains
import HeaderBinding.Proofs.Mapping.Elements
import HeaderBinding.Proofs.Mapping.Returns
import HeaderBinding.Proofs.Binding.Unsafe
import HeaderBinding.Proofs.Binding.Modifiers
import HeaderBinding.Proofs.Binding.References
import HeaderBinding.Proofs.Binding.BlockParameters
import HeaderBinding.Proofs.Binding.Exports
import HeaderBinding.Proofs.Binding.Remerged
import HeaderBinding.Proofs.Binding.Permuted
import HeaderBinding.Proofs.Command.Directory
import HeaderBinding.Proofs.Command.Contract
import HeaderBinding.Proofs.Binding.Usings
import HeaderBinding.Proofs.Binding.Renames
import HeaderBinding.Proofs.Selector.Legal
import HeaderBinding.Proofs.Files.Discovery
import HeaderBinding.Proofs.Command.Failure
import HeaderBinding.Proofs.Binding.Signatures
import HeaderBinding.Proofs.Command.Settings
import HeaderBinding.Proofs.Selector.Context
import HeaderBinding.Proofs.Selector.Tiling
