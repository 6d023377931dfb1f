import Mathlib.Data.String.Basic
import Praxis.Foundation.OrderedMap
import Praxis.Foundation.Rust

/-!
# The tables of the agent runtime

Threads that work on tasks, the commands that coordinators send to them, and the commands they
execute with their tickets and resource leases.  All tables are kept in one state behind one lock;
a call changes it in one or more critical sections.

Identifiers carry a fresh random part and are never used twice.  Times are those of the wall
clock.
-/

namespace Praxis.AgentOs

open Foundation

abbrev ThreadId := String

/-- Microseconds of `DateTime<Utc>`. -/
abbrev Time := Int

abbrev PathBuf := String

inductive PraxisErr where
  | unsupportedOperation (message : String)
  deriving DecidableEq

/-- The configured periods of `AgentOsPolicy`. -/
structure AgentOsPolicy where
  ticketTtl : Time
  leaseTtl : Time
  ticketTtl_pos : 0 < ticketTtl
  leaseTtl_pos : 0 < leaseTtl

/-! ## Threads and tasks -/

inductive ThreadRuntimeState where
  | idle
  | assigned
  | running
  | waitingForLease
  | waitingForCoordinator
  | stopping
  | stopped
  | failed
  | completed
  deriving DecidableEq

structure ThreadRegistryEntry where
  threadId : ThreadId
  coordinationScope : String
  rank : UInt8
  currentTaskId : Option String
  currentCommandId : Option String
  state : ThreadRuntimeState
  heartbeatAt : Time
  priority : Int
  createdAt : Time
  deriving DecidableEq

inductive TaskStatus where
  | pending
  | assigned
  | running
  | completed
  | failed
  | cancelled
  deriving DecidableEq

structure TaskRecord where
  taskId : String
  status : TaskStatus
  priority : Int
  assignedThreadId : Option ThreadId
  createdBy : ThreadId
  createdAt : Time
  updatedAt : Time
  deriving DecidableEq

/-! ## Runtime commands -/

inductive RuntimeCommandType where
  | assignTask
  | pause
  | resume
  | yieldLease
  | cancelCommand
  | terminate
  | statusQuery
  | setPriority
  | grantTemporaryCapability
  | revokeTemporaryCapability
  | requestArtifact
  | requestSummary
  deriving DecidableEq

inductive RuntimeCommandStatus where
  | pending
  | acked
  | executing
  | completed
  | failed
  | expired
  | rejected
  deriving DecidableEq

structure RuntimeCommandRecord where
  commandId : String
  fromThreadId : ThreadId
  toThreadId : ThreadId
  taskId : Option String
  coordinatorEpoch : UInt64
  fencingToken : UInt64
  commandType : RuntimeCommandType
  status : RuntimeCommandStatus
  createdAt : Time
  updatedAt : Time
  expiresAt : Time
  deriving DecidableEq

structure ActiveCoordinatorLease where
  coordinationScope : String
  ownerThreadId : ThreadId
  epoch : UInt64
  fencingToken : UInt64
  expiresAt : Time
  deriving DecidableEq

/-! ## Tickets, leases and commands -/

inductive ActionIntentKind where
  | readOnly
  | fileWrite
  | harness
  | test
  | compile
  | runApp
  | longProcess
  | network
  | gpu
  | gitMutation
  | unknownRisky
  deriving DecidableEq

inductive LeaseMode where
  | exclusive
  | shared
  | capacity
  | advisory
  deriving DecidableEq

structure ResourceLease where
  leaseId : String
  resourceType : String
  scope : String
  mode : LeaseMode
  ownerThreadId : ThreadId
  taskId : String
  priority : Int
  fencingToken : UInt64
  createdAt : Time
  expiresAt : Option Time
  commandId : Option String
  processId : Option Int
  runtimeOwnerId : Option String
  deriving DecidableEq

structure ExecutionTicket where
  ticketId : String
  taskId : String
  threadId : ThreadId
  coordinationScope : String
  allowedIntent : ActionIntentKind
  intentPlanId : Option String
  commandFingerprint : String
  cwd : PathBuf
  leaseIds : List String
  expiresAt : Time
  fencingToken : UInt64
  coordinatorEpoch : UInt64
  createdAt : Time
  deriving DecidableEq

inductive CommandIntentPlanStatus where
  | pending
  | consumed
  | expired
  | rejected
  deriving DecidableEq

structure CommandIntentPlan where
  planId : String
  taskId : String
  threadId : ThreadId
  intent : ActionIntentKind
  commandFingerprint : String
  cwd : PathBuf
  status : CommandIntentPlanStatus
  consumedByTicketId : Option String
  createdAt : Time
  expiresAt : Time
  deriving DecidableEq

structure CommandRecord where
  commandId : String
  ticketId : String
  taskId : String
  threadId : ThreadId
  intent : ActionIntentKind
  intentPlanId : Option String
  commandFingerprint : String
  cwd : PathBuf
  processId : Option Int
  runtimeKind : Option String
  runtimeOwnerId : Option String
  startedAt : Time
  endedAt : Option Time
  exitCode : Option Int
  leaseIds : List String
  artifacts : List String
  dirtyFiles : List PathBuf
  deriving DecidableEq

inductive ManagedProcessStatus where
  | running
  | cleaning
  | finished
  deriving DecidableEq

structure ManagedProcessRecord where
  processId : Int
  commandId : String
  taskId : String
  threadId : ThreadId
  cwd : PathBuf
  runtimeKind : String
  runtimeOwnerId : Option String
  startedAt : Time
  lastHeartbeat : Time
  endedAt : Option Time
  status : ManagedProcessStatus
  deriving DecidableEq

/-! ## The state -/

structure AgentOsState where
  threads : OrderedMap ThreadId ThreadRegistryEntry
  tasks : OrderedMap String TaskRecord
  leases : OrderedMap String ResourceLease
  tickets : OrderedMap String ExecutionTicket
  intentPlans : OrderedMap String CommandIntentPlan
  pendingIntentPlanIds : OrderedSet String
  commands : OrderedMap String CommandRecord
  liveCommandIds : OrderedSet String
  processes : OrderedMap String ManagedProcessRecord
  runtimeCommands : OrderedMap String RuntimeCommandRecord
  liveRuntimeCommandIds : OrderedSet String
  activeCoordinators : OrderedMap String ActiveCoordinatorLease
  fencingCounter : UInt64
  coordinatorEpoch : UInt64

/-- `AgentOsState::default`. -/
def AgentOsState.default : AgentOsState where
  threads := .empty
  tasks := .empty
  leases := .empty
  tickets := .empty
  intentPlans := .empty
  pendingIntentPlanIds := .empty
  commands := .empty
  liveCommandIds := .empty
  processes := .empty
  runtimeCommands := .empty
  liveRuntimeCommandIds := .empty
  activeCoordinators := .empty
  fencingCounter := 0
  coordinatorEpoch := 0

end Praxis.AgentOs
