import Inspection.Identifier
import Inspection.Run
import Std.Time.DateTime.Timestamp

/-!
# Main

The program.  It follows its arguments on a tree that holds the file of the topology, prints what
is printed, and then writes the files that have come about.  Its world knows the environment and
the time; requests are refused in it, and no programs are found.
-/

namespace Inspection.Main

/-- The world of the program. -/
def surroundings : IO World := do
  let environment := Variable.ofBlock (← IO.FS.readBinFile "/proc/self/environ").toList
  let time ← Std.Time.Timestamp.now
  let instant? := Instant.ofParts? time.val.second.val time.val.nano.val.toNat
  return {
    request _ _ := .refused
    execute tree _ _ := (.notStarted, tree)
    environment
    now := instant?.getD .earliest }

/-- A tree with the working directory and, if it can be read, the file of a path. -/
def treeWith (path : String) : IO FileTree := do
  let tree := FileTree.workingIn (Path.components (← IO.currentDir).toString)
  try
    let content ← IO.FS.readBinFile path
    return (tree.write path content.toList).1
  catch _ => return tree

/-- Writes the files of a tree that another does not have. -/
def writeOut (before after : FileTree) : IO Unit := do
  for (loc, node) in after.nodes do
    match node with
    | .file content =>
      if before.node? loc ≠ some node then
        IO.FS.createDirAll ("/" ++ String.intercalate "/" loc.dropLast)
        IO.FS.writeBinFile ("/" ++ String.intercalate "/" loc) (ByteArray.mk content.toArray)
    | _ => pure ()

/-- The file of the topology that a command loads. -/
def topologyPath : CommandLine.Command → String
  | .inspect a | .plan a => a.topology
  | .info => ""

/-- Follows a command. -/
def follow (w : World) (command : CommandLine.Command) : IO UInt32 := do
  let tree ← treeWith (topologyPath command)
  let fresh := Identifier.render (← IO.getRandomBytes 16).toList
  let result := Run.follow w tree false fresh command
  for warning in result.warnings do
    IO.eprintln ("WARN " ++ warning.message)
  writeOut tree result.tree
  IO.print result.printed
  match result.outcome with
  | .ok () => return 0
  | .error e =>
    IO.eprintln ("Error: " ++ e.step ++ "\n\nCaused by:\n    " ++ e.cause)
    return 1

end Inspection.Main

/-- Reads the arguments and follows them. -/
def main (args : List String) : IO UInt32 := do
  let w ← Inspection.Main.surroundings
  match Inspection.CommandLine.read w args with
  | .ok line => Inspection.Main.follow w line.command
  | .error .help =>
    IO.print Inspection.CommandLine.usage
    return 0
  | .error .version =>
    IO.print Inspection.CommandLine.versionLine
    return 0
  | .error fault =>
    IO.eprint ("error: " ++ fault.message ++ "\n\n" ++ Inspection.CommandLine.usage)
    return 2
