import ProjectTrans.Lib.Template

/-!
# The asynchronous logger, towards its file (`logger/async_logger`)

`log_msg` looks at the flag without a lock, and then either puts its message into the
queue under the queue's lock or writes it under the file's lock; the file handler takes a
message out under the one lock and writes it under the other. What a thread does under a
lock is one step; where it waits for a condition it is parked until it is notified. The
console has a queue, a lock and a thread of its own.
-/

namespace ProjectTrans

/-- `LogLevel`. -/
inductive LogLevel
  | trace
  | debug
  | info
  | warn
  | error
  | fatal
  | unknown
  | none
  deriving DecidableEq, Repr

/-- The value of the enumerator. -/
def LogLevel.toNat : LogLevel → ℕ
  | .trace => 0
  | .debug => 1
  | .info => 2
  | .warn => 3
  | .error => 4
  | .fatal => 5
  | .unknown => 6
  | .none => 7

/-- `LoggerConfig`, what it says about the file. -/
structure LoggerConfig where
  fileLevel : LogLevel
  enableFile : Bool
  enableAsync : Bool
  deriving DecidableEq

/-- A message of this level goes to the file. -/
def LoggerConfig.writesFile (config : LoggerConfig) (level : LogLevel) : Bool :=
  config.enableFile && config.fileLevel.toNat ≤ level.toNat

/-- What a call of `log_msg` puts into the queue or the file: its text, with the number of
the call. -/
structure Message where
  call : ℕ
  logStr : Text
  deriving DecidableEq

/-- Where a call of `log_msg` is. It has found the flag set when it is about to push, and
not set when it is about to write. -/
inductive LogPhase
  | called
  | pushing
  | writing
  | returned
  deriving DecidableEq

/-- A call of `log_msg`. -/
structure LogMsg where
  level : LogLevel
  logStr : Text
  phase : LogPhase
  deriving DecidableEq

/-- Where the file handler is; `absent` when it was never started. -/
inductive FileHandler
  | absent
  | awake
  | parked
  | writing (message : Message)
  | exited
  deriving DecidableEq

/-- Where the call of `stop_async_log` is: at the console, waiting for the file queue to be
empty, or for the file handler to exit. -/
inductive StopPhase
  | idle
  | called
  | waiting
  | parked
  | joining
  | returned
  deriving DecidableEq

/-- `AsyncLogger` and the threads that use it. The calls of `log_msg` are numbered as they
begin; `pushed` is all that went into the queue. -/
structure AsyncLogger where
  asyncFileLogFlag : Bool
  fileLogQueue : List Message
  logFileIsOpen : Bool
  logFile : List Message
  handler : FileHandler
  stop : StopPhase
  calls : List LogMsg
  pushed : List Message
  deriving DecidableEq

/-- A thread takes its next step, or one that waits wakes up by itself. `opens` says
whether the log file could be opened, where it is not open yet. -/
inductive LogAction
  | begin (level : LogLevel) (logStr : Text)
  | log (id : ℕ) (opens : Bool)
  | handler (opens : Bool)
  | stop
  | wake
  deriving DecidableEq

/-- The handler is notified. -/
def FileHandler.wake : FileHandler → FileHandler
  | .parked => .awake
  | handler => handler

/-- The thread that stops is notified. -/
def StopPhase.wake : StopPhase → StopPhase
  | .parked => .waiting
  | phase => phase

namespace AsyncLogger

/-- The constructor, which calls `start_async_log` when the configuration says so. -/
def init (config : LoggerConfig) : AsyncLogger where
  asyncFileLogFlag := config.enableAsync
  fileLogQueue := []
  logFileIsOpen := false
  logFile := []
  handler := if config.enableAsync then .awake else .absent
  stop := .idle
  calls := []
  pushed := []

/-- `notify_all` on the condition of the file queue. -/
def notifyAll (s : AsyncLogger) : AsyncLogger := { s with handler := s.handler.wake, stop := s.stop.wake }

/-- `notify_one`; that no two threads ever wait is proved. -/
def notifyOne (s : AsyncLogger) : AsyncLogger :=
  { s with handler := s.handler.wake, stop := if s.handler = .parked then s.stop else s.stop.wake }

/-- The locked write: `open_log_file`, and the line if that succeeded. -/
def write (s : AsyncLogger) (message : Message) (opens : Bool) : AsyncLogger :=
  if s.logFileIsOpen || opens then { s with logFileIsOpen := true, logFile := s.logFile ++ [message] } else s

/-- The call is now there. -/
def setPhase (s : AsyncLogger) (id : ℕ) (call : LogMsg) (phase : LogPhase) : AsyncLogger :=
  { s with calls := s.calls.set id { call with phase := phase } }

/-- The next step of `log_msg`: test the flag, and push or write. -/
def logMsg (config : LoggerConfig) (s : AsyncLogger) (id : ℕ) (opens : Bool) : AsyncLogger :=
  match s.calls[id]? with
  | none => s
  | some call =>
    match call.phase with
    | .called =>
      if config.writesFile call.level then
        if s.asyncFileLogFlag then s.setPhase id call .pushing else s.setPhase id call .writing
      else s.setPhase id call .returned
    | .pushing =>
      let s := s.setPhase id call .returned
      notifyOne
        { s with
          fileLogQueue := s.fileLogQueue ++ [⟨id, call.logStr⟩]
          pushed := s.pushed ++ [⟨id, call.logStr⟩] }
    | .writing => (s.setPhase id call .returned).write ⟨id, call.logStr⟩ opens
    | .returned => s

/-- The next step of `async_file_log_handler`: wait for a message or the end, take a
message out, and write it. -/
def asyncFileLogHandler (s : AsyncLogger) (opens : Bool) : AsyncLogger :=
  match s.handler with
  | .awake =>
    match s.fileLogQueue with
    | [] => if s.asyncFileLogFlag then { s with handler := .parked } else notifyAll { s with handler := .exited }
    | message :: rest => notifyAll { s with fileLogQueue := rest, handler := .writing message }
  | .writing message => write { s with handler := .awake } message opens
  | _ => s

/-- Wait until the file queue is empty. -/
def waitUntilEmpty (s : AsyncLogger) : AsyncLogger :=
  if s.fileLogQueue = [] then notifyAll { s with stop := .joining } else { s with stop := .parked }

/-- The next step of `stop_async_log`: the console, the flag and the file queue, the
handler. -/
def stopAsyncLog (s : AsyncLogger) : AsyncLogger :=
  match s.stop with
  | .idle => { s with stop := .called }
  | .called => (notifyAll { s with asyncFileLogFlag := false }).waitUntilEmpty
  | .waiting => s.waitUntilEmpty
  | .joining => if s.handler = .exited ∨ s.handler = .absent then { s with stop := .returned } else s
  | _ => s

/-- One step. -/
def step (config : LoggerConfig) (s : AsyncLogger) : LogAction → AsyncLogger
  | .begin level logStr => { s with calls := s.calls ++ [⟨level, logStr, .called⟩] }
  | .log id opens => s.logMsg config id opens
  | .handler opens => s.asyncFileLogHandler opens
  | .stop => s.stopAsyncLog
  | .wake => s.notifyAll

end AsyncLogger

end ProjectTrans
