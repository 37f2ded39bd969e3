import SettingsRelay.Embedder.Run
import SettingsRelay.Embedder.Snapshot
import SettingsRelay.Embedder.Description
import SettingsRelay.Engine.Agent
import SettingsRelay.Preferences.Fields
import SettingsRelay.Proofs.Operation
import SettingsRelay.Proofs.Share
import SettingsRelay.Proofs.Lifecycle
import SettingsRelay.Proofs.Application
import SettingsRelay.Proofs.Registry
import SettingsRelay.Proofs.Lookup
import SettingsRelay.Proofs.Inert
import SettingsRelay.Proofs.Edit
import SettingsRelay.Proofs.Push
import SettingsRelay.Proofs.Languages
import SettingsRelay.Proofs.Image
import SettingsRelay.Proofs.Scene
import SettingsRelay.Proofs.Mirror
import SettingsRelay.Proofs.Calls
import SettingsRelay.Proofs.Population
import SettingsRelay.Proofs.Ending
import SettingsRelay.Proofs.Slot
import SettingsRelay.Proofs.Farewell
import SettingsRelay.Proofs.Plan
import SettingsRelay.Proofs.Nested
import SettingsRelay.Proofs.Validity
import SettingsRelay.Proofs.Numeral
import SettingsRelay.Proofs.Quotation
import SettingsRelay.Proofs.Restoration
import SettingsRelay.Proofs.Reloading
import SettingsRelay.Proofs.Behaviour
import SettingsRelay.Proofs.Sequence
import SettingsRelay.Proofs.LastWrite
import SettingsRelay.Proofs.Refill
import SettingsRelay.Proofs.PopupState
import SettingsRelay.Proofs.Overlay
import SettingsRelay.Proofs.Leases
import SettingsRelay.Proofs.Reachability
import SettingsRelay.Proofs.EmptyAgent
import SettingsRelay.Proofs.Isolation
import SettingsRelay.Proofs.Acceptance
import SettingsRelay.Proofs.PageScale
import SettingsRelay.Proofs.Effect
import SettingsRelay.Proofs.CommandLine
import SettingsRelay.Proofs.Change
