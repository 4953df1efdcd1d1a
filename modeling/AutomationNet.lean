import AutomationNet.Main
import AutomationNet.Proofs.Net.Firing
import AutomationNet.Proofs.Net.Structure
import AutomationNet.Proofs.Net.Timer
import AutomationNet.Proofs.Net.Validity
import AutomationNet.Proofs.Simulation.Account
import AutomationNet.Proofs.Simulation.Clock
import AutomationNet.Proofs.Simulation.Snapshot
import AutomationNet.Proofs.Simulation.Solo
import AutomationNet.Proofs.StructuredText.Effect
import AutomationNet.Simulation.Script
import AutomationNet.Proofs.Simulation.Restart
import AutomationNet.Proofs.Simulation.Enabling
import AutomationNet.Proofs.Guard.Composition
import AutomationNet.Proofs.Simulation.History
import AutomationNet.Proofs.StructuredText.Expression
import AutomationNet.Proofs.StructuredText.Declaration
import AutomationNet.Proofs.StructuredText.Stability
import AutomationNet.Proofs.Description.Editor
import AutomationNet.Proofs.Guard.Names
import AutomationNet.Proofs.Simulation.Selection
import AutomationNet.Proofs.Simulation.Arbitration
import AutomationNet.Proofs.Simulation.Concurrency
import AutomationNet.Proofs.Net.Refiring
import AutomationNet.Proofs.Simulation.Token
import AutomationNet.Proofs.Net.Priority
import AutomationNet.Proofs.StructuredText.Trigger
import AutomationNet.Proofs.Guard.Checking
import AutomationNet.Proofs.Guard.Entity
import AutomationNet.Proofs.Guard.Remainder
import AutomationNet.Proofs.Guard.Column
import AutomationNet.Proofs.StructuredText.TimeLiteral
import AutomationNet.Proofs.Simulation.Gap
import AutomationNet.Proofs.Simulation.InputFile
import AutomationNet.Proofs.Net.Numbers
