import MixerRouting.Json.Compact
import MixerRouting.Persist.Sends
import MixerRouting.Persist.Wires
import MixerRouting.Port.Clip
import MixerRouting.Settings.File
import MixerRouting.Studio.Basic
import MixerRouting.Studio.BlockTime
import MixerRouting.Toml.Plain
import MixerRouting.Proofs.Keyed
import MixerRouting.Proofs.Rows
import MixerRouting.Proofs.Port.Queues
import MixerRouting.Proofs.Port.Windows
import MixerRouting.Proofs.Routing.Resolution
import MixerRouting.Proofs.Routing.Publication
import MixerRouting.Proofs.Wiring.Positions
import MixerRouting.Proofs.Wiring.Change
import MixerRouting.Proofs.Wiring.Edits
import MixerRouting.Proofs.Wiring.WireTable
import MixerRouting.Proofs.Wiring.Refinement
import MixerRouting.Proofs.Wiring.Lookup
import MixerRouting.Proofs.Send.Rewiring
import MixerRouting.Proofs.Send.Fresh
import MixerRouting.Proofs.Send.Runs
import MixerRouting.Proofs.Send.Views
import MixerRouting.Proofs.Routing.Recalculation
import MixerRouting.Proofs.Send.Refusal
import MixerRouting.Proofs.Send.Connection
import MixerRouting.Proofs.Studio.Contents
import MixerRouting.Proofs.Studio.Making
import MixerRouting.Proofs.Studio.Work
import MixerRouting.Proofs.Studio.Operation
import MixerRouting.Proofs.Studio.Journal
import MixerRouting.Proofs.Channel.Made
import MixerRouting.Proofs.Send.Rendering
import MixerRouting.Proofs.Channel.Rendering
import MixerRouting.Proofs.Studio.Channels
import MixerRouting.Proofs.Routing.Resolvable
import MixerRouting.Proofs.Studio.Upkeep
import MixerRouting.Proofs.Wiring.Reordering
import MixerRouting.Proofs.Send.Twins
import MixerRouting.Proofs.Channel.Restoring
import MixerRouting.Proofs.Wiring.Records
import MixerRouting.Proofs.Wiring.Exchange
import MixerRouting.Proofs.Studio.RenderThread
import MixerRouting.Proofs.Number.Digits
import MixerRouting.Proofs.Json.Texts
import MixerRouting.Proofs.Number.Rounding
import MixerRouting.Proofs.Number.Written
import MixerRouting.Proofs.Json.Numbers
import MixerRouting.Proofs.Json.Laws
import MixerRouting.Proofs.Json.Compact
import MixerRouting.Proofs.Persist.RoundTrip
import MixerRouting.Proofs.Wiring.Clearing
import MixerRouting.Proofs.Send.Disconnection
import MixerRouting.Proofs.Send.Commuting
import MixerRouting.Proofs.Send.Answers
import MixerRouting.Proofs.Port.Accounting
import MixerRouting.Proofs.Routing.Scopes
import MixerRouting.Proofs.Channel.Identities
import MixerRouting.Proofs.Channel.Registration
import MixerRouting.Proofs.Channel.Tapping
import MixerRouting.Proofs.Number.Quotients
import MixerRouting.Proofs.Number.Nearest
import MixerRouting.Proofs.Number.ReadBack
import MixerRouting.Proofs.Number.Singles
import MixerRouting.Proofs.Toml.Numbers
import MixerRouting.Proofs.Toml.Lines
import MixerRouting.Proofs.Toml.Integers
import MixerRouting.Proofs.Toml.Laws
import MixerRouting.Proofs.Toml.Plain
import MixerRouting.Proofs.Settings.RoundTrip
import MixerRouting.Proofs.Port.Clipping
import MixerRouting.Proofs.Send.Memory
