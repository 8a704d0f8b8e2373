import TestSynth.Programs.Columns
import TestSynth.Programs.Comparing
import TestSynth.Programs.Counting
import TestSynth.Programs.Echoing
import TestSynth.Programs.Editor
import TestSynth.Programs.Encoding
import TestSynth.Programs.Expressions
import TestSynth.Programs.Filing
import TestSynth.Programs.Finding
import TestSynth.Programs.Launching
import TestSynth.Programs.Listing
import TestSynth.Programs.Options
import TestSynth.Programs.Records.Rules
import TestSynth.Programs.Searching
import TestSynth.Programs.Sorting
/-!
The programs that tell about the machine and its user, those that only succeed or fail, and all the
standard programs by name.
-/
namespace TestSynth.Programs

open Process Tool

def succeed : Program := fun _ _ => return ()

def failAlways : Program := fun _ _ => setStatus 1

/-- The user for whom all programs run. -/
def userName : String := "root"

def whoami : Program := fun _ arguments => do
  match arguments with
  | [] => printLine userName
  | extra :: _ => abortWithHint ("extra operand " ++ quote extra)

def id : Program := fun _ arguments => do
  let o ← ({ letters := "ugGnrz"
             names := [("user", "u", .never), ("group", "g", .never), ("groups", "G", .never),
               ("name", "n", .never), ("real", "r", .never)] } : OptionTable).read arguments
  if let some other := o.operands.find? (fun name => name != userName && name != "0") then
    abort (quote other ++ ": no such user")
  if o.has "u" || o.has "g" || o.has "G" then printLine (if o.has "n" then userName else "0")
  else if o.has "n" then abort "cannot print only names or real IDs in default format"
  else printLine "uid=0(root) gid=0(root) groups=0(root)"

def uname : Program := fun _ arguments => do
  let o ← ({ letters := "asnrvmpio"
             names := [("all", "a", .never), ("kernel-name", "s", .never), ("nodename", "n", .never),
               ("kernel-release", "r", .never), ("kernel-version", "v", .never),
               ("machine", "m", .never), ("processor", "p", .never),
               ("hardware-platform", "i", .never), ("operating-system", "o", .never)] }
    : OptionTable).read arguments
  if let some extra := o.operands.head? then abortWithHint ("extra operand " ++ quote extra)
  let parts := [("s", "Linux"), ("n", "localhost"), ("r", "6.1.0"), ("v", "#1 SMP"), ("m", "x86_64"),
    ("p", "x86_64"), ("i", "x86_64"), ("o", "GNU/Linux")]
  let shown := parts.filter fun (key, _) => o.has "a" || o.has key || (o.given.isEmpty && key == "s")
  printLine (String.intercalate " " (shown.map (·.2)))

def arch : Program := fun _ _ => printLine "x86_64"

def hostname : Program := fun _ _ => printLine "localhost"

def nproc : Program := fun _ _ => printLine "1"

def tty : Program := fun _ arguments => do
  if !arguments.contains "-s" then printLine "not a tty"
  setStatus 1

/-- The programs that need not know of the others. -/
def plainPrograms : List (String × Program) :=
  [("[", test), ("arch", arch), ("awk", Records.awk), ("base64", base64), ("basename", basename), ("cat", cat),
    ("chmod", chmod), ("cksum", cksum), ("cmp", cmp), ("comm", comm), ("cp", cp), ("cut", cut),
    ("diff", diff), ("dirname", dirname), ("echo", echo), ("egrep", egrep), ("env", env),
    ("expand", expand), ("expr", expr), ("factor", factor), ("false", failAlways), ("fgrep", fgrep),
    ("find", find), ("fold", fold), ("grep", grep), ("head", head), ("hostname", hostname), ("id", id),
    ("join", join), ("ln", ln), ("ls", ls), ("mawk", Records.awk), ("md5sum", md5sum), ("mkdir", mkdir), ("mktemp", mktemp),
    ("mv", mv), ("nice", nice), ("nl", nl), ("nohup", nohup), ("nproc", nproc), ("od", od),
    ("paste", paste), ("printenv", printEnvironment), ("printf", printf), ("pwd", pwd),
    ("readlink", readlink), ("realpath", realpath), ("rev", rev), ("rm", rm), ("rmdir", rmdir),
    ("sed", sed), ("seq", seq), ("setsid", setsid), ("sha1sum", sha1sum), ("sha256sum", sha256sum),
    ("sleep", sleep), ("sort", sort), ("stat", stat), ("stdbuf", stdbuf), ("sync", succeed),
    ("tac", tac), ("tail", tail), ("tee", tee), ("test", test), ("timeout", timeout),
    ("touch", touch), ("tr", tr), ("true", succeed), ("truncate", truncate), ("tty", tty),
    ("uname", uname), ("unexpand", unexpand), ("uniq", uniq), ("unlink", unlink), ("wc", wc),
    ("whoami", whoami), ("xargs", xargs), ("yes", yes)]

/-- The standard programs by name. -/
def standardPrograms : List (String × Program) :=
  let names := "which" :: "sh" :: plainPrograms.map (·.1)
  ("which", which names.contains) :: plainPrograms

end TestSynth.Programs
