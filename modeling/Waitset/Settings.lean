/-
# Waitset.Settings -- what can be tuned, and which values are refused

The settings of groups, task queues and logging, their defaults and three presets.  `Settings.check`
names the first fault in a fixed order: the threshold, the ring size, the name of the worker, its
stack.
-/
import Waitset.Binary64.Shortest
import Waitset.Bytes
import Waitset.Error
import Waitset.Log.Level
import Waitset.Text.Quoted

namespace Waitset

/-- The settings of a group. -/
structure GroupSettings where
  /-- The slot array is squeezed when `pending / slots` drops below this value. -/
  threshold : Binary64 := ⟨0x3fd3333333333333⟩
  /-- Slots that are reserved up front. -/
  capacity : Nat := 8
  /-- Entries of the submission ring, for a backend that has one. -/
  ringEntries : Nat := 64
  deriving DecidableEq, Repr

/-- The settings of a task queue. -/
structure QueueSettings where
  /-- The name of the worker thread. -/
  workerName : String := "iomux-task-queue"
  /-- The stack of the worker in bytes, or what the platform gives it. -/
  stackSize : Option Nat := none
  deriving DecidableEq, Repr

/-- The settings of logging. -/
structure LogSettings where
  enabled : Bool := false
  level : Log.Level := .info
  /-- A file to write besides standard error. -/
  file : Option String := none
  /-- Whether records are written as JSON. -/
  json : Bool := false
  deriving DecidableEq, Repr

/-- All settings. -/
structure Settings where
  group : GroupSettings := {}
  queue : QueueSettings := {}
  log : LogSettings := {}
  deriving DecidableEq, Repr

/-- Why settings are refused. -/
inductive SettingsFault where
  | threshold (value : Binary64)
  | ringEntries (value : Nat)
  | workerNameWithNul
  | emptyStack
  /-- A task queue was started with these settings. -/
  | queue (settings : QueueSettings)
  deriving DecidableEq, Repr

/-- The description of the settings of a task queue. -/
def QueueSettings.describe (s : QueueSettings) : String :=
  Text.record "TaskQueueConfig"
    [("thread_name", Text.quote s.workerName), ("stack_size", Text.optional toString s.stackSize)]

namespace SettingsFault

/-- What a person reads. -/
def message : SettingsFault → String
  | threshold value => "compaction threshold must be in (0, 1], got " ++ value.text
  | ringEntries value =>
    "uring entries must be a non-zero power of two, got " ++ toString value
  | workerNameWithNul => "task queue thread name must not contain NUL"
  | emptyStack => "task queue stack size must be greater than 0"
  | queue settings => "invalid task queue settings: " ++ settings.describe

/-- The error that a call returns for this fault. -/
def toError (fault : SettingsFault) : Error := .invalidConfig fault.message

end SettingsFault

/-- Whether a number is a power of two. -/
def isPowerOfTwo (n : Nat) : Bool := n != 0 && Nat.pow 2 (Nat.log2 n) == n

namespace GroupSettings

/-- The first fault of the settings, if they have one. -/
def fault? (s : GroupSettings) : Option SettingsFault :=
  if !(s.threshold.isPositive && s.threshold.atMostOne) then some (.threshold s.threshold)
  else if !isPowerOfTwo s.ringEntries then some (.ringEntries s.ringEntries)
  else none

/-- Whether the slots that are to be reserved, eight bytes each, fit a block of memory. -/
def fitsMemory (s : GroupSettings) : Bool := decide (s.capacity * 8 < Bytes.blockLimit)

end GroupSettings

namespace QueueSettings

/-- Whether the worker's name holds the character that ends names in the system's interface. -/
def hasNul (s : QueueSettings) : Bool := s.workerName.toList.contains '\x00'

/-- The first fault of the settings, if they have one. -/
def fault? (s : QueueSettings) : Option SettingsFault :=
  if s.hasNul then some .workerNameWithNul
  else if s.stackSize = some 0 then some .emptyStack
  else none

/-- Bytes of memory that the operating system promises to one thread. -/
def promisedMemory : Nat := Nat.pow 2 40

/-- Bytes that guard the end of a stack. -/
def guardSize : Nat := 4096

/-- Why the operating system starts no thread with the stack that is asked for: with its guard the
stack is no 64-bit number of bytes, or it is more memory than is promised. -/
def stackRefusal? (s : QueueSettings) : Option IoError :=
  match s.stackSize with
  | none => none
  | some size =>
    if Nat.pow 2 64 ≤ size + guardSize then some (.os 22)
    else if promisedMemory ≤ size + guardSize then some (.os 11)
    else none

end QueueSettings

namespace Settings

/-- The first fault of the settings: the group comes before the task queue. -/
def fault? (s : Settings) : Option SettingsFault := s.group.fault?.orElse fun _ => s.queue.fault?

/-- The settings themselves, or the error that names their first fault. -/
def check (s : Settings) : Except Error Settings :=
  match s.fault? with
  | none => .ok s
  | some fault => .error fault.toError

/-! ## Presets -/

/-- Small groups that are squeezed eagerly, and no logging. -/
def lowLatency : Settings where
  group := ⟨⟨0x3fe0000000000000⟩, 4, 32⟩
  log := { level := .error }

/-- Verbose logging for development. -/
def development : Settings where
  queue := { workerName := "iomux-dev-queue" }
  log := ⟨true, .debug, some "iomux.log", false⟩

/-- Large groups, warnings only, JSON records. -/
def production : Settings where
  group := { capacity := 64, ringEntries := 256 }
  log := ⟨true, .warn, none, true⟩

/-- The preset of a name. -/
def preset? : String → Option Settings
  | "default" => some {}
  | "low_latency" => some lowLatency
  | "development" => some development
  | "production" => some production
  | _ => none

/-! ## Building settings step by step -/

/-- One call on a builder of settings. -/
inductive Setter where
  | group (s : GroupSettings)
  | threshold (value : Binary64)
  | queue (s : QueueSettings)
  | log (s : LogSettings)

/-- The settings after a call. -/
def set (s : Settings) : Setter → Settings
  | .group group => { s with group }
  | .threshold value => { s with group := { s.group with threshold := value } }
  | .queue queue => { s with queue }
  | .log log => { s with log }

/-- Starts from the defaults, applies the calls in order and checks the result. -/
def build (setters : List Setter) : Except Error Settings :=
  (setters.foldl set {}).check

end Settings

end Waitset
