import TestSynth.Json.Decode
import TestSynth.Json.Parser
import TestSynth.Text.Utf8
/-!
Reading a reply that comes in pieces. Each line holds a fragment of the text or tells that the text
is done; the pieces may be cut anywhere.
-/
namespace TestSynth

open Text (Bytes)

/-- A line of a reply. -/
structure Fragment where
  text : String := ""
  isLast : Bool := false
deriving DecidableEq, Repr, Inhabited

def Fragment.ofJson? (j : Json) : Option Fragment := do
  let fs ← j.fields? ["response", "done"]
  return { text := ← fs.withDefault "response" "" Json.asText?
           isLast := ← fs.withDefault "done" false Json.asBool? }

/-- The fragment in a line, if there is one. -/
def Fragment.ofLine? (line : Bytes) : Option Fragment :=
  (Json.parseText? (Text.trimString (Text.decode line))).bind ofJson?

/-- The bytes of a line not yet ended, the text so far, and whether the last fragment was seen. -/
structure StreamDecoder where
  pending : Bytes := []
  text : String := ""
  done : Bool := false
deriving DecidableEq, Repr, Inhabited

namespace StreamDecoder

/-- Takes a line. The last fragment ends the text and adds nothing to it. -/
def takeLine (d : StreamDecoder) (line : Bytes) : StreamDecoder :=
  match Fragment.ofLine? line with
  | none => d
  | some f => if f.isLast then { d with done := true } else { d with text := d.text ++ f.text }

/-- The ended lines of a byte sequence, without their ends, and what follows the last end. -/
def splitLines : Bytes → List Bytes × Bytes
  | [] => ([], [])
  | b :: rest => match splitLines rest with
    | (lines, last) =>
      if b == 10 then ([] :: lines, last)
      else match lines with
        | [] => ([], b :: last)
        | line :: lines => ((b :: line) :: lines, last)

/-- Takes lines up to the last fragment. -/
def takeLines (d : StreamDecoder) (lines : List Bytes) : StreamDecoder :=
  lines.foldl (fun d line => if d.done then d else d.takeLine line) d

/-- Takes a piece of the reply. After the last fragment nothing changes. -/
def feed (d : StreamDecoder) (piece : Bytes) : StreamDecoder :=
  if d.done then d
  else
    let (lines, rest) := splitLines (d.pending ++ piece)
    let d := d.takeLines lines
    { d with pending := if d.done then [] else rest }

/-- The text, with what an unended line adds to it. -/
def finish (d : StreamDecoder) : String :=
  if d.done || d.pending.isEmpty then d.text else (d.takeLine d.pending).text

end StreamDecoder

end TestSynth
