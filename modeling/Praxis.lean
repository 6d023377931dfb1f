import Praxis.Agent.Mailbox
import Praxis.AgentOs.Assignment
import Praxis.AgentOs.DirtyFiles
import Praxis.AgentOs.Fencing
import Praxis.AgentOs.Finish
import Praxis.AgentOs.Lifecycle
import Praxis.Compact.Task
import Praxis.Context.Normalize
import Praxis.Context.Resume
import Praxis.Context.Rollback
import Praxis.Gateway.Publication
import Praxis.Journal.Atomic
import Praxis.Journal.PowerLoss
import Praxis.Live.Fold
import Praxis.Live.Open
import Praxis.Loop.Neutral
import Praxis.Loop.Prompts
import Praxis.Network.Blocked
import Praxis.Network.HostPolicy
import Praxis.Output.HeadTail
import Praxis.Reverse.Ledger
import Praxis.State.ControlQueue
import Praxis.State.Goals
import Praxis.StreamParser.Utf8Stream
import Praxis.ThreadHistory.ItemIds
import Praxis.Wire.ToolFragments
import Praxis.Workspace.Changes
