import TestSynth.Process.System
/-!
One process: its working directory, its descriptors and its environment, over the system that it
shares with others. Names of files are given with one character for each byte.
-/
namespace TestSynth.Process

abbrev Descriptor := Nat

def standardInput : Descriptor := 0
def standardOutput : Descriptor := 1
def standardError : Descriptor := 2

structure Session where
  system : System
  directory : Location := []
  /-- Open files by descriptor. -/
  descriptors : List (Descriptor × Nat) := []
  environment : List (String × String) := []
  processId : Nat := 1
deriving Inhabited

abbrev SessionM := StateM Session

/-- How a file is opened. -/
structure OpenMode where
  isRead : Bool := false
  isWritten : Bool := false
  creates : Bool := false
  truncates : Bool := false
  appends : Bool := false
  /-- Refuses a file that is there. -/
  isExclusive : Bool := false

namespace OpenMode

def read : OpenMode := { isRead := true }
def write : OpenMode := { isWritten := true, creates := true, truncates := true }
def append : OpenMode := { isWritten := true, creates := true, appends := true }
def readWrite : OpenMode := { isRead := true, isWritten := true, creates := true }

end OpenMode

namespace Session

/-- The files as the process sees them. -/
def tree (s : Session) : FileTree := ⟨s.system.root, s.directory⟩

def setTree (s : Session) (t : FileTree) : Session :=
  { s with system := { s.system with root := t.root } }

/-- The path of a name. -/
def pathOf (name : String) : Path := ⟨Text.gather name⟩

/-- Changes the files, if that is not refused. -/
def change (f : FileTree → Except FileError FileTree) : SessionM (Except FileError Unit) := fun s =>
  match f s.tree with
  | .ok t => (.ok (), s.setTree t)
  | .error e => (.error e, s)

def fileOf? (s : Session) (d : Descriptor) : Option Nat := s.descriptors.lookup d

def setDescriptor (s : Session) (d : Descriptor) (file : Nat) : Session :=
  { s with descriptors := (d, file) :: s.descriptors.filter (·.1 != d) }

def closeDescriptor (s : Session) (d : Descriptor) : Session :=
  { s with descriptors := s.descriptors.filter (·.1 != d) }

/-- The descriptor that a device stands for. -/
def deviceDescriptor? (name : String) : Option Descriptor :=
  match name with
  | "/dev/stdin" => some standardInput
  | "/dev/stdout" => some standardOutput
  | "/dev/stderr" => some standardError
  | _ =>
    let cs := name.toList
    let front := "/dev/fd/".toList
    let digits := cs.drop front.length
    if front.isPrefixOf cs && !digits.isEmpty && digits.all Char.isDigit then
      some (digits.foldl (fun n c => 10 * n + (c.toNat - 48)) 0)
    else none

def device? (name : String) : Option Channel :=
  match name with
  | "/dev/null" => some .nowhere
  | "/dev/zero" => some .zeros
  | "/dev/full" => some .full
  | _ => none

/-- The file at a path, opened. -/
def openAt (s : Session) (name : String) (mode : OpenMode) : Except FileError (OpenFile × FileTree) := do
  let opened (channel : Channel) : OpenFile :=
    { channel, isRead := mode.isRead, isWritten := mode.isWritten, appends := mode.appends }
  let t := s.tree
  match deviceDescriptor? name, device? name with
  | some d, _ => match (s.fileOf? d).bind fun index => s.system.opened[index]? with
    | some f => return ({ f with offset := 0, isRead := mode.isRead, isWritten := mode.isWritten }, t)
    | none => .error .notFound
  | none, some channel => return (opened channel, t)
  | none, none =>
    let path := pathOf name
    if mode.creates then
      match ← t.locate path with
      | (_, some (.directory _)) => .error (if mode.isExclusive then .exists else .isDirectory)
      | (place, some (.file _ executable)) =>
        if mode.isExclusive then throw .exists
        return (opened (.file place), if mode.truncates then t.put place (.file [] executable) else t)
      | (place, _) => return (opened (.file place), t.put place (.file [] false))
    else match ← t.find path with
      | (place, .file ..) => return (opened (.file place), t)
      | _ => if mode.isWritten then .error .isDirectory else return (opened .directory, t)

/-- Opens a file as a descriptor. -/
def openAs (d : Descriptor) (name : String) (mode : OpenMode) : SessionM (Except FileError Unit) :=
  fun s => match s.openAt name mode with
    | .error e => (.error e, s)
    | .ok (f, t) =>
      let s := s.setTree t
      let (index, system) := s.system.open_ f
      (.ok (), { s with system }.setDescriptor d index)

/-- Makes one descriptor a copy of another. -/
def duplicate (target source : Descriptor) : SessionM (Except FileError Unit) := fun s =>
  match s.fileOf? source with
  | some index => (.ok (), s.setDescriptor target index)
  | none => (.error .badDescriptor, s)

def write (d : Descriptor) (cs : List Char) : SessionM (Except FileError Unit) := fun s =>
  match s.fileOf? d with
  | none => (.error .badDescriptor, s)
  | some index =>
    let (result, system) := s.system.write index cs
    (result, { s with system })

def writeText (d : Descriptor) (text : String) : SessionM (Except FileError Unit) :=
  write d text.toList

/-- Says something on the stream for messages. -/
def say (text : String) : SessionM Unit := do
  let _ ← writeText standardError text

def take (d : Descriptor) (choose : List Char → List Char × List Char) :
    SessionM (Except FileError (List Char)) := fun s =>
  match s.fileOf? d with
  | none => (.error .badDescriptor, s)
  | some index =>
    let (result, system) := s.system.take index choose
    (result, { s with system })

/-- All that is left to read. -/
def readAll (d : Descriptor) : SessionM (Except FileError (List Char)) := take d fun cs => (cs, [])

/-- The next line with its end; nothing at the end of all lines. -/
def readLine (d : Descriptor) : SessionM (Except FileError (List Char)) := take d fun cs =>
  let line := cs.takeWhile (· != '\n')
  match cs.drop line.length with
  | end_ :: rest => (line ++ [end_], rest)
  | [] => (line, [])

/-- The content of a file by name. -/
def readFile (name : String) : SessionM (Except FileError (List Char)) := fun s =>
  match s.openAt name .read with
  | .error e => (.error e, s)
  | .ok (f, _) => match f.channel with
    | .pipe _ =>
      let (index, system) := s.system.open_ f
      let (result, system) := system.take index fun cs => (cs, [])
      (result, { s with system })
    | _ => (s.system.available f, s)

def valueOf? (s : Session) (name : String) : Option String := s.environment.lookup name

def setVariable (s : Session) (name value : String) : Session :=
  { s with environment := s.environment.filter (·.1 != name) ++ [(name, value)] }

def unsetVariable (s : Session) (name : String) : Session :=
  { s with environment := s.environment.filter (·.1 != name) }

/-- Runs something as a process of its own, which shares the system alone. -/
def inChild {α : Type} (body : SessionM α) : SessionM α := fun s =>
  let system := { s.system with nextProcess := s.system.nextProcess + 1 }
  let (a, after) := body { s with system, processId := s.system.nextProcess }
  (a, { s with system := after.system })

end Session

/-- Starts the program that words name as a process of its own, with the descriptors and the
environment of the session, and waits for its end. -/
abbrev Launcher := List String → SessionM (Except FileError Ending)

end TestSynth.Process
