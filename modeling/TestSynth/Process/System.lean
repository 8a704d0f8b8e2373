import TestSynth.Files.Tree
import TestSynth.Text.Utf8
/-!
What processes share: signals by number and name with what they do to a process that does not catch
them, the files, the files that are open, and the pipes between processes. Text that is read or
written has one character for each byte.
-/
namespace TestSynth.Process

abbrev Signal := Nat

/-- Signals by number; the first stands for the end of a shell. -/
def signalNames : List String :=
  ["EXIT", "HUP", "INT", "QUIT", "ILL", "TRAP", "ABRT", "BUS", "FPE", "KILL", "USR1", "SEGV", "USR2",
    "PIPE", "ALRM", "TERM", "STKFLT", "CHLD", "CONT", "STOP", "TSTP", "TTIN", "TTOU", "URG", "XCPU",
    "XFSZ", "VTALRM", "PROF", "WINCH", "IO", "PWR", "SYS"]

def signalLimit : Nat := 64

/-- The first of the signals without a meaning of their own, and the last. -/
def firstRealTime : Nat := 34

def lastRealTime : Nat := 64

def signalName? (n : Signal) : Option String :=
  match signalNames[n]? with
  | some name => some name
  | none =>
    if n < firstRealTime || lastRealTime < n then none
    else if n = firstRealTime then some "RTMIN"
    else if n = lastRealTime then some "RTMAX"
    else if n ≤ 49 then some ("RTMIN+" ++ toString (n - firstRealTime))
    else some ("RTMAX-" ++ toString (lastRealTime - n))

/-- The signal of a name in any case. -/
def signalNamed? (name : String) : Option Signal :=
  let wanted := name.map Char.toUpper
  (List.range (signalLimit + 1)).find? fun n => signalName? n == some wanted

def hangup : Signal := 1
def interrupt : Signal := 2
def kill : Signal := 9
def brokenPipe : Signal := 13
def alarm : Signal := 14
def terminate : Signal := 15
def stop : Signal := 19

/-- What is said of a process that a signal ended. -/
def deathTexts : List (Signal × String) :=
  [(1, "Hangup"), (2, "Interrupt"), (3, "Quit"), (4, "Illegal instruction"),
    (5, "Trace/breakpoint trap"), (6, "Aborted"), (7, "Bus error"), (8, "Floating point exception"),
    (9, "Killed"), (10, "User defined signal 1"), (11, "Segmentation fault"),
    (12, "User defined signal 2"), (13, "Broken pipe"), (14, "Alarm clock"), (15, "Terminated"),
    (16, "Stack fault"), (24, "CPU time limit exceeded"), (25, "File size limit exceeded"),
    (26, "Virtual timer expired"), (27, "Profiling timer expired"), (29, "I/O possible"),
    (30, "Power failure"), (31, "Bad system call")]

/-- Whether a process goes on when the signal reaches it uncaught. -/
def isHarmless (n : Signal) : Bool := [0, 17, 18, 23, 28].contains n

def deathText (n : Signal) : String :=
  (deathTexts.lookup n).getD
    (if firstRealTime ≤ n then "Real-time signal " ++ toString (n - firstRealTime)
      else "Unknown signal " ++ toString n)

/-- What an open file leads to. -/
inductive Channel where
  /-- Swallows what is written and holds nothing. -/
  | nowhere
  | zeros
  /-- Has no room for anything. -/
  | full
  | pipe (index : Nat)
  | file (place : Location)
  | directory
deriving DecidableEq, Repr, Inhabited

/-- A file as it was opened. Copies of a descriptor share its offset. -/
structure OpenFile where
  channel : Channel
  offset : Nat := 0
  isRead : Bool := true
  isWritten : Bool := true
  appends : Bool := false
deriving DecidableEq, Repr, Inhabited

/-- What was written to a pipe, the newest first, and what of it can be read next. -/
structure Pipe where
  written : List (List Char) := []
  unread : List Char := []
deriving Repr, Inhabited

def Pipe.content (p : Pipe) : List Char :=
  if p.written.isEmpty then p.unread else p.unread ++ p.written.reverse.flatten

/-- How a process ended. One that would never end was broken off. -/
inductive Ending where
  | exited (status : Nat)
  | killed (signal : Signal)
  | endless
deriving DecidableEq, Repr, Inhabited

/-- The status that a shell sees. -/
def Ending.status : Ending → Nat
  | .exited status => status % 256
  | .killed signal => 128 + signal
  | .endless => 128 + kill

structure System where
  root : FileNode := .emptyDirectory
  opened : Array OpenFile := #[]
  pipes : Array Pipe := #[]
  nextProcess : Nat := 2
  /-- Signals that were sent and not seen yet, with the process they are for. -/
  sent : List (Nat × Signal) := []
deriving Inhabited

namespace System

def open_ (s : System) (f : OpenFile) : Nat × System :=
  (s.opened.size, { s with opened := s.opened.push f })

/-- A new pipe, open for both sides. -/
def addPipe (s : System) : Nat × System :=
  { s with pipes := s.pipes.push {} }.open_ { channel := .pipe s.pipes.size }

/-- Zeros that are read at once at most. -/
def zeroCount : Nat := 1 <<< 20

/-- What can be read from an open file. -/
def available (s : System) (f : OpenFile) : Except FileError (List Char) :=
  if !f.isRead then .error .badDescriptor
  else match f.channel with
    | .nowhere => .ok []
    | .zeros | .full => .ok (List.replicate zeroCount (Char.ofNat 0))
    | .pipe index => .ok ((s.pipes[index]?).getD {}).content
    | .file place => match s.root.get? place with
      | some (.file content _) => .ok (Text.ofBytes (content.drop f.offset))
      | _ => .ok []
    | .directory => .error .isDirectory

/-- Takes as much as a choice of what can be read says: the choice gives what is taken and what
stays. -/
def take (s : System) (index : Nat) (choose : List Char → List Char × List Char) :
    Except FileError (List Char) × System :=
  match s.opened[index]? with
  | none => (.error .badDescriptor, s)
  | some f => match s.available f with
    | .error e => (.error e, s)
    | .ok cs =>
      let (taken, rest) := choose cs
      match f.channel with
      | .pipe pipe => (.ok taken, { s with pipes := s.pipes.set! pipe { unread := rest } })
      | .file _ =>
        (.ok taken, { s with opened := s.opened.set! index { f with offset := f.offset + taken.length } })
      | _ => (.ok taken, s)

/-- The content after writing at an offset; a gap is filled with zeros. -/
def overwrite (content : Text.Bytes) (offset : Nat) (bytes : Text.Bytes) : Text.Bytes :=
  if content.length = offset then content ++ bytes
  else
    content.take offset ++ List.replicate (offset - content.length) 0 ++ bytes ++
      content.drop (offset + bytes.length)

def write (s : System) (index : Nat) (cs : List Char) : Except FileError Unit × System :=
  match s.opened[index]? with
  | none => (.error .badDescriptor, s)
  | some f =>
    if !f.isWritten then (.error .badDescriptor, s)
    else match f.channel with
      | .nowhere | .zeros => (.ok (), s)
      | .full => (if cs.isEmpty then .ok () else .error .noSpace, s)
      | .directory => (.error .badDescriptor, s)
      | .pipe pipe =>
        (.ok (), { s with pipes := s.pipes.modify pipe fun p => { p with written := cs :: p.written } })
      | .file place => match s.root.get? place with
        | some (.file content executable) =>
          let offset := if f.appends then content.length else f.offset
          let bytes := Text.toBytes cs
          (.ok (), { s with
            root := s.root.put place (.file (overwrite content offset bytes) executable)
            opened := s.opened.set! index { f with offset := offset + bytes.length } })
        | _ => (.ok (), s)

end System

end TestSynth.Process
