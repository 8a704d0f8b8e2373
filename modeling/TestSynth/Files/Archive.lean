import TestSynth.Files.Tree
import TestSynth.Json.Basic
import TestSynth.Number.Decimal
/-!
Trees of files as structured data: a record of paths and contents. A content is a text, a record of
bytes in hexadecimal, a record of a script that can be run, a record of where a link leads, or null
for a directory.
-/
namespace TestSynth

open Text (Bytes)

/-- The bytes that pairs of hexadecimal digits write. -/
def hexBytes? : List Char → Option Bytes
  | [] => some []
  | a :: b :: cs => do
    return (16 * (← Number.hexValue? a) + (← Number.hexValue? b)).toUInt8 :: (← hexBytes? cs)
  | [_] => none

def hexText (bytes : Bytes) : String :=
  String.ofList (bytes.flatMap fun b => Number.hexDigits 2 b.toNat)

namespace FileNode

def ofJson? : Json → Option FileNode
  | .null => some .emptyDirectory
  | .text s => some (.file (Text.encode s) false)
  | j => match j.field? "exec", j.field? "hex" with
    | some (.text s), _ => some (.file (Text.encode s) true)
    | _, some (.text s) => (hexBytes? s.toList).map (.file · false)
    | _, _ => (j.field? "link").bind fun target => target.asText?.map .link

/-- What stands at one place; a link is written as the text of its target. -/
def toJson : FileNode → Json
  | .directory _ => .null
  | .link target => .record [("link", .text target)]
  | .file content true => .record [("exec", .text (Text.decode content))]
  | .file content false => match Text.decodeStrict? content with
    | some s => .text s
    | none => .record [("hex", .text (hexText content))]

end FileNode

namespace FileTree

/-- The tree whose files stand below a location, which is its working directory. -/
def unpack? (place : Location) (archive : List (String × Json)) : Option FileTree :=
  archive.foldlM (fun t (path, content) => do
      return t.put (place ++ path.splitOn "/") (← FileNode.ofJson? content))
    { ({} : FileTree).put place .emptyDirectory with workingDirectory := place }

/-- The files below a location. -/
def pack (t : FileTree) (place : Location) : List (String × Json) :=
  (((t.node? place).map FileNode.descendants).getD []).map fun (key, node) =>
    (String.intercalate "/" key, node.toJson)

end FileTree

end TestSynth
