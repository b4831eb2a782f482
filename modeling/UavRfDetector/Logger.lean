import UavRfDetector.Exception

/-! The lazily constructed logger behind `LOG_CAT(log_cat, "main")`. Every static
of the source is a field that is empty until its initializer has returned. -/

namespace UavRfDetector

inductive Sink where
  | rotatingFile (filename : String) (maxSize maxFiles : Nat) (rotateOnOpen : Bool)
  | stdoutColor
deriving DecidableEq, Repr

structure ThreadPool where
  queueItems : Nat
  threads : Nat
deriving DecidableEq, Repr

inductive OverflowPolicy where
  | block
deriving DecidableEq, Repr

structure AsyncLogger where
  name : String
  sinks : List Sink
  threadPool : Option ThreadPool
  overflowPolicy : OverflowPolicy
deriving DecidableEq, Repr

structure Logger where
  init : Bool := false
  /-- the pool `spdlog::thread_pool()` returns -/
  registryPool : Option ThreadPool := none
  sinks : Option (List Sink) := none
  threadPool : Option (Option ThreadPool) := none
  logger : Option AsyncLogger := none
  queued : List String := []
deriving DecidableEq, Repr

abbrev LogM := ExceptT Exception (StateM Logger)

/-- How the library calls behind `log_cat()` come out if this call is the one that has to
make them: starting the threads of the pool, and opening the log file. -/
structure LogSetup where
  startThreads : Except Exception Unit := .ok ()
  openFile : Except Exception Unit := .ok ()

/-- After a throw the next call tries again; so it does in `sinksVector`. -/
def initThreadPool (setup : LogSetup) : LogM Unit := do
  unless (← get).init do
    MonadExcept.ofExcept setup.startThreads
    modify fun statics => { statics with registryPool := some ⟨8192, 1⟩, init := true }

def sinksVector (setup : LogSetup) : LogM (List Sink) := do
  match (← get).sinks with
  | some sinks => return sinks
  | none =>
    MonadExcept.ofExcept setup.openFile
    let sinks := [.rotatingFile "log_filename" (1024 * 1024) 5 false, .stdoutColor]
    modify fun statics => { statics with sinks := some sinks }
    return sinks

def logCat (setup : LogSetup) : LogM AsyncLogger := do
  initThreadPool setup
  let sinks ← sinksVector setup
  let threadPool ←
    match (← get).threadPool with
    | some threadPool => pure threadPool
    | none =>
      let threadPool := (← get).registryPool
      modify fun statics => { statics with threadPool := some threadPool }
      pure threadPool
  match (← get).logger with
  | some logger => return logger
  | none =>
    let logger : AsyncLogger := ⟨"main", sinks, threadPool, .block⟩
    modify fun statics => { statics with logger := some logger }
    return logger

def logInfo (setup : LogSetup) (text : String) : LogM Unit := do
  let _ ← logCat setup
  modify fun statics => { statics with queued := statics.queued ++ [text] }

/-- What the library calls that are still to be made throw, in their order. -/
def Logger.setupResult (statics : Logger) (setup : LogSetup) : Except Exception Unit := do
  unless statics.init do setup.startThreads
  unless statics.sinks.isSome do setup.openFile

theorem logInfo_result (setup : LogSetup) (text : String) (statics : Logger) :
    ((logInfo setup text).run.run statics).1 = statics.setupResult setup := by
  obtain ⟨startThreads, openFile⟩ := setup
  obtain ⟨init, registryPool, sinks, threadPool, logger, queued⟩ := statics
  cases init <;> cases startThreads <;> cases sinks <;> cases openFile <;> cases threadPool <;> cases logger <;> rfl

end UavRfDetector
