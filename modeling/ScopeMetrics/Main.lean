import ScopeMetrics.Command.Run
import ScopeMetrics.Tree.Written
import Std.Time

/-!
# The command line

Reads the files that the arguments name, runs the command and writes what it printed.  The syntax
tree of a source is read from the file beside it whose name has `.tree.json` added, and a settings
document is read as JSON.
-/

open ScopeMetrics

namespace ScopeMetrics.Shell

/-- The text of a file, if it can be read. -/
def textOf? (name : String) : IO (Option String) := do
  try return some (← IO.FS.readFile name) catch _ => return none

/-- What a text says as a settings document. -/
def documentOf (text : String) : Except String Value :=
  if (Text.strip text).isEmpty then .ok .null
  else
    match Json.parse? text with
    | some v => .ok v
    | none => .error "not JSON"

/-- A file as the analysis sees it. -/
def fileOf (name : String) : IO File := do
  let bytes ← IO.FS.readBinFile name
  let tree := ((← textOf? (name ++ ".tree.json")).bind Json.parse?).bind Node.ofValue?
  return {
    source := ⟨bytes.toList⟩
    tree := tree.getD .blank
    document := documentOf ((String.fromUTF8? bytes).getD "") }

/-- Adds everything at a path to what is known of the disk. -/
partial def load (d : Disk) (name : String) : IO Disk := do
  let path := Path.ofString name
  try
    let entries ← ((← IO.currentDir) / name).readDir
    entries.foldlM (fun d e => load d (path.join (.ofString e.fileName)).text) (d.makeFolder path)
  catch _ =>
    try return d.write path (← fileOf name) catch _ => return d

/-- The variables that settings are read from. -/
def environment : IO (List (String × String)) := do
  let found ← Settings.variableNames.mapM fun name => do
    return (← IO.getEnv name).map fun value => (name, value)
  return found.filterMap id

/-- The home directories of users, as the list of accounts has them. -/
def homes : IO Homes := do
  let accounts := ((← textOf? "/etc/passwd").getD "").splitOn "\n"
  return {
    own := (← IO.getEnv "HOME").getD "/"
    others := accounts.filterMap fun account =>
      match account.splitOn ":" with
      | user :: _ :: _ :: _ :: _ :: home :: _ => some (user, home)
      | _ => none }

/-- A name for a request that no other request has. -/
def freshId : IO String := do
  return String.join ((← IO.getRandomBytes 6).toList.map fun b => Text.hex 2 b.toNat)

/-- Writes a line where it belongs. -/
def write (time : String) (d : Log.Destination) (line : Log.Line) : IO Unit :=
  match d with
  | .stderr => IO.eprintln (line.text time)
  | .stdout => IO.println (line.text time)
  | .file p => do
    IO.FS.createDirAll p.parent.text
    let h ← IO.FS.Handle.mk p.text .append
    h.putStrLn (line.text time)

end ScopeMetrics.Shell

open ScopeMetrics.Shell

def main (arguments : List String) : IO UInt32 := do
  let here := Path.ofString (← IO.currentDir).toString
  let start := Disk.makeFolder { workingFolder := here } (.ofString ".")
  let d ← (Settings.documentNames ++ arguments).foldlM load start
  let (ending, run) := Command.run (← environment) (← homes) (← freshId) arguments { disk := d }
  let time := (← Std.Time.PlainDateTime.now).format "uuuu-MM-dd HH:mm:ss"
  for (destination, line) in run.session.journal.lines do write time destination line
  for p in run.printed do p.lines.forM IO.println
  if let some complaint := ending.complaint? then IO.eprintln complaint
  return ending.code.toNat.toUInt32
