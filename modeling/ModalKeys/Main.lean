import ModalKeys.Program

/-!
# Command line

Reads what a run can look at into a file tree, runs the program on it, writes what changed back to
the disk and prints the rest.
-/

namespace ModalKeys.Main

def diskPath (place : Place) : String :=
  "/" ++ "/".intercalate place.reverse

/-- The entry at a place of the disk, if there is one that can be read. -/
def observe (place : Place) : IO (Option Entry) := do
  try
    let path ← IO.FS.realPath (diskPath place)
    if ← path.isDir then return some .directory
    return some (.file (.ofBytes (← IO.FS.readBinFile path)))
  catch _ => return none

/-- Adds to a tree what the disk has at each place along a path. -/
def addPath (files : FileTree) (path : String) : IO FileTree := do
  let mut files := files
  let mut place := files.start path
  for step in Path.steps path do
    if step = ".." then place := place.tail
    else if step != "." then
      place := step :: place
      if (files.entry? place).isNone then
        if let some entry ← observe place then files := files.set place entry
  return files

/-- Writes what a run put into the tree. -/
def writeBack (before after : FileTree) : IO Unit := do
  for (place, entry) in after.entries.reverse do
    if before.entry? place != some entry then
      let path := diskPath place
      match entry with
      | .directory => IO.FS.createDirAll path
      | .file (.text s) => IO.FS.writeFile path s
      | .file (.binary bytes) => IO.FS.writeBinFile path ⟨bytes.toArray⟩

/-- The paths that a job looks at when the files are these. -/
def jobPaths (files : FileTree) (env : Environment) (job : Job) : List String :=
  (job.settingsFile? env).toList ++
    [Path.join job.root (job.settings files env).1.directivePath]

/-- The disk as far as a run looks at it. -/
def snapshot (env : Environment) (words : List String) : IO FileTree := do
  let here := Path.steps (← IO.currentDir).toString
  let mut files : FileTree := ⟨[], here.reverse⟩
  for path in [diskPath here.reverse] ++ env.logsDir?.toList ++ env.configFile?.toList do
    files ← addPath files path
  if let .ok arguments := Arguments.ofWords words then
    for path in arguments.options.root.toList ++ arguments.options.settingsFile.toList do
      files ← addPath files path
    if let .ok job := arguments.toJob files then
      for path in jobPaths files env job do
        files ← addPath files path
  return files

def environment : IO Environment := do
  return ⟨← IO.getEnv "XDG_CONFIG_HOME", ← IO.getEnv "HOME", none⟩

end ModalKeys.Main

open ModalKeys in
def main (words : List String) : IO UInt32 := do
  let env ← Main.environment
  let files ← Main.snapshot env words
  let finished := Program.run files env (← IO.getEnv "RUST_LOG") words
  Main.writeBack files finished.files
  for event in finished.shown do
    IO.eprintln s!"{event.level.name} {event.target}: {event.consoleText}"
  for note in finished.notes do
    IO.eprintln note
  IO.print finished.stdout
  return finished.exitCode.toUInt32
