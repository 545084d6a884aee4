import Gatehouse.Main
import Gatehouse.Proofs.Chain.Pairing
import Gatehouse.Proofs.Chain.Rebuild
import Gatehouse.Proofs.Chain.Spelling
import Gatehouse.Proofs.Documents.Notification
import Gatehouse.Proofs.Documents.Repair
import Gatehouse.Proofs.Session.Header
import Gatehouse.Proofs.Session.Ledger
import Gatehouse.Proofs.Chain.Effects
import Gatehouse.Proofs.Session.Resume
import Gatehouse.Proofs.Node.Rollout
import Gatehouse.Proofs.Settings.Values
import Gatehouse.Proofs.Forwarding.Passage
import Gatehouse.Proofs.Node.Clients
import Gatehouse.Proofs.Node.Refusals
import Gatehouse.Proofs.Forwarding.Rewriting
import Gatehouse.Proofs.Forwarding.Proxies
import Gatehouse.Proofs.Bearer.Binding
import Gatehouse.Proofs.Bearer.Audience
import Gatehouse.Proofs.Documents.Bulk
import Gatehouse.Proofs.Settings.Precedence
import Gatehouse.Proofs.Access.Users
import Gatehouse.Proofs.Access.Separation
import Gatehouse.Proofs.Access.Existence
import Gatehouse.Proofs.Access.Grammar
import Gatehouse.Proofs.Forwarding.Alternatives
import Gatehouse.Proofs.Forwarding.WholeAddresses
import Gatehouse.Proofs.Forwarding.Appended
import Gatehouse.Proofs.Password.Keys
import Gatehouse.Proofs.Documents.Directories
import Gatehouse.Proofs.Settings.Divisions
import Gatehouse.Proofs.Text.Expansion
import Gatehouse.Proofs.Bearer.Names
import Gatehouse.Proofs.Settings.Partition
import Gatehouse.Proofs.Session.Forms
