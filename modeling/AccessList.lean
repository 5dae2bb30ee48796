import AccessList.Main
import AccessList.Policy.Build
import AccessList.Proofs.Net.Membership
import AccessList.Proofs.Net.Subtraction
import AccessList.Proofs.Net.Canonical
import AccessList.Proofs.Net.Notation
import AccessList.Proofs.Net.AddressClause
import AccessList.Proofs.Text.Words
import AccessList.Proofs.PortRange
import AccessList.Proofs.Rule.ExtendedMeaning
import AccessList.Proofs.Rule.StandardMeaning
import AccessList.Proofs.Compile.Run
import AccessList.Proofs.Rule.GroupLookup
import AccessList.Proofs.Compile.Expiry
import AccessList.Proofs.Rule.GroupMeaning
import AccessList.Proofs.Rule.GroupNames
import AccessList.Proofs.Compile.Mixed
import AccessList.Proofs.Compile.Silence
import AccessList.Proofs.Compile.Numbers
import AccessList.Proofs.Compile.StandardFields
import AccessList.Proofs.Compile.Refusals
import AccessList.Proofs.Rule.ProtocolForm
import AccessList.Proofs.Compile.ProtocolNumbers
import AccessList.Proofs.Files.Tree
import AccessList.Proofs.Files.Names
import AccessList.Proofs.Files.Outputs
import AccessList.Proofs.Files.AllOrNothing
import AccessList.Proofs.Text.Lines
import AccessList.Proofs.Compile.TrailingBlanks
import AccessList.Proofs.Rule.Omission
import AccessList.Proofs.Rule.LineReading
import AccessList.Proofs.Rule.Expansion
import AccessList.Proofs.Policy.Reload
import AccessList.Proofs.HighPorts
import AccessList.Proofs.Rule.ConnectionState
import AccessList.Proofs.Text.Wrapping
import AccessList.Proofs.Net.BlockText
import AccessList.Proofs.Compile.LineBreaks
import AccessList.Proofs.PortPairs
import AccessList.Proofs.Net.Masks
import AccessList.Proofs.Net.WordArithmetic
import AccessList.Proofs.Net.FewestBlocks
import AccessList.Proofs.Compile.ReportingWindow
import AccessList.Proofs.Text.Collapsing
