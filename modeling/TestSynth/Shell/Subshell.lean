import TestSynth.Shell.State
/-!
Parts of a script that run in a copy of the shell, and how a shell comes to its end.
-/
namespace TestSynth.Shell

open Process

/-- What carrying out a part of a script takes from the whole: running a command in the shell, which
may be told that a failure of it is tested, and starting a program. -/
structure Engine where
  run : Bool → Command → ShellM Unit
  launch : Launcher

/-- Rounds of a loop and lines of a script that are run at most. -/
def roundLimit : Nat := 10000000

/-- Repeats a step until it gives a result; the first argument bounds the rounds. -/
def repeatUntil {α : Type} (step : ShellM (Option α)) : Nat → ShellM α
  | 0 => throw .endless
  | n + 1 => do
    match ← step with
    | some a => return a
    | none => repeatUntil step n

/-- Reads a script line by line and runs each line before the next is read. Syntax errors are told
with their line. -/
def runText (e : Engine) (text : String) (isTested : Bool := false) : ShellM Unit := do
  let step (position : List Char × Nat) : ShellM (Option (List Char × Nat)) := do
    let s ← get
    let reader : Reader := { text := position.1, line := position.2, aliases := s.aliases }
    let (result, reader) := readLine.run reader
    match result with
    | .error problem =>
      modify fun s => { s with line := problem.line }
      fail ("Syntax error: " ++ problem.message)
    | .ok none => return none
    | .ok (some command) =>
      if !s.options.contains 'n' then e.run isTested command
      return some (reader.text, reader.line)
  loop step roundLimit (text.toList, 1)
where
  loop (step : List Char × Nat → ShellM (Option (List Char × Nat))) :
      Nat → List Char × Nat → ShellM Unit
    | 0, _ => throw .endless
    | n + 1, position => do
      match ← step position with
      | some next => loop step n next
      | none => return ()

/-- Runs the action of a trap; the status stays as it was. -/
def runTrap (e : Engine) (action : String) : ShellM Unit := do
  let status := (← get).status
  runText e action
  setStatus status

/-- What a signal does to the shell. -/
def receive (signal : Signal) : ShellM Unit := do
  match (← get).traps.lookup signal with
  | some action => if !action.isEmpty then modify fun s => { s with caught := s.caught ++ [signal] }
  | none => if !isHarmless signal then throw (.killed signal)

/-- Takes in the signals that others have sent. -/
def receiveSent : ShellM Unit := do
  let s ← get
  if s.session.system.sent.isEmpty then return ()
  let own := s.session.processId
  let (mine, others) := s.session.system.sent.partition (·.1 == own)
  modify fun s => { s with session.system.sent := others }
  mine.forM fun (_, signal) => receive signal

/-- Runs the traps of the signals that arrived. -/
def runTraps (e : Engine) : ShellM Unit := do
  receiveSent
  let caught := (← get).caught
  if !caught.isEmpty then
    modify fun s => { s with caught := [] }
    caught.forM fun signal => do
      match (← get).traps.lookup signal with
      | some action => runTrap e action
      | none => return ()

/-- Runs something in a copy of the shell. The system keeps what happened in it. -/
def inCopy (body : State → Ending × State) (core : Core) : StateM State Ending := fun s =>
  let system := s.session.system
  let copy : State :=
    { core with
      session := { core.session with
        system := { system with nextProcess := system.nextProcess + 1 }
        processId := system.nextProcess }
      traps := s.traps.filter (·.2.isEmpty) }
  let (ending, after) := body copy
  (ending, { s with session.system := after.session.system })

mutual

/-- Carries out the jobs that still wait; the first argument bounds their nesting. -/
def finishJobs (e : Engine) : Nat → StateM State Unit
  | 0 => return ()
  | n + 1 => do
    for job in (← get).jobs do
      finishJob e n job

/-- Carries out a job. -/
def finishJob (e : Engine) : Nat → Job → StateM State Unit
  | 0, _ => return ()
  | n + 1, job => do
    match job.waiting with
    | none => return ()
    | some (core, command) =>
      modify fun s => { s with jobs := s.jobs.map fun j =>
        if j.processId == job.processId then { j with waiting := none } else j }
      let before := (← get).session.system.nextProcess
      modify fun s => { s with session.system.nextProcess := job.processId }
      let ending ← inCopy (fun s => runToEnd e n (e.run false command) s) core
      modify fun s => { s with
        session.system.nextProcess := max before s.session.system.nextProcess
        jobs := s.jobs.map fun j =>
          if j.processId == job.processId then { j with ending } else j }

/-- Runs a shell to its end: the body, the trap for the end, and what still waits. -/
def runToEnd (e : Engine) : Nat → ShellM Unit → StateM State Ending
  | 0, _ => return .endless
  | n + 1, body => do
    let body : ShellM Unit := do
      body
      runTraps e
    match ← body.run with
    | .error (.killed signal) =>
      finishJobs e n
      return .killed signal
    | .error .endless => return .endless
    | _ =>
      let s ← get
      match s.traps.lookup 0 with
      | none =>
        finishJobs e n
        return .exited s.status
      | some action =>
        set { s with traps := s.traps.filter (·.1 != 0), loopDepth := 0 }
        let result ← (runText e action).run
        let after ← get
        finishJobs e n
        return match result with
          | .error (.killed signal) => .killed signal
          | .error .endless => .endless
          | .error .exit | .error .failure => .exited after.status
          | _ => .exited s.status

end

/-- The nesting of jobs that start jobs. -/
def jobLimit : Nat := 64

/-- Runs something in a copy of the shell up to its end. -/
def subshell (e : Engine) (body : ShellM Unit) : ShellM Ending := do
  let core := (← get).toCore
  let ending ← (inCopy (fun s => runToEnd e jobLimit body s) core : StateM State Ending)
  if ending == .endless then throw .endless
  receiveSent
  return ending

/-- A job of the shell by its process, carried out if it still waits. -/
def awaitJob (e : Engine) (processId : Nat) : ShellM (Option Ending) := do
  let s ← get
  match s.jobs.find? (·.processId == processId) with
  | none => return none
  | some job =>
    (finishJob e jobLimit job : StateM State Unit)
    return ((← get).jobs.find? (·.processId == processId)).map (·.ending)

/-- What is said of a command that a signal ended. -/
def announce (ending : Ending) : ShellM Unit := do
  match ending with
  | .killed signal =>
    if signal != interrupt && signal != brokenPipe then
      inSession (Session.say (deathText signal ++ "\n"))
  | _ => return ()

/-- Takes over how a command that was waited for ended. -/
def takeEnding (ending : Ending) : ShellM Unit := do
  announce ending
  if ending == .endless then throw .endless
  setStatus ending.status

/-- What a part of a script prints in a copy of the shell. -/
def captured (e : Engine) (body : ShellM Unit) : ShellM String := do
  let (index, system) := (← get).session.system.addPipe
  modify fun s => { s with session.system := system }
  let ending ← subshell e do
    modify fun s => { s with session := s.session.setDescriptor standardOutput index }
    body
  modify fun s => { s with substituted := ending.status }
  let (result, system) := (← get).session.system.take index fun cs => (cs, [])
  modify fun s => { s with session.system := system }
  let cs := match result with
    | .ok cs => cs
    | .error _ => []
  return String.ofList (Text.dropEndWhile (· == '\n') (cs.filter (· != Char.ofNat 0)))

end TestSynth.Shell
