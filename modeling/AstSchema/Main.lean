import AstSchema.Conclusion
import AstSchema.Run

/-!
# The program

The program answers the requests of a run by the system's own files and streams. Everything else
is decided elsewhere; here, errors of the system get their names, and what is reported is shown.
-/

namespace AstSchema

/-- The error of the files that has a number. Some functions of the system give the number with
the opposite sign. -/
def FileError.ofCode (code : UInt32) (text : String) : FileError :=
  match min code (0 - code) with
  | 2 => missing
  | 17 => occupied
  | 20 => notDirectory
  | 21 => isDirectory
  | 36 => tooLong
  | code => other (text ++ " (os error " ++ toString code ++ ")")

/-- The error of the files that an error of the system stands for. -/
def FileError.ofSystem (error : IO.Error) : FileError :=
  match error with
  | .alreadyExists _ code text => ofCode code text
  | .noFileOrDirectory _ code text => ofCode code text
  | .inappropriateType _ code text => ofCode code text
  | .invalidArgument _ code text => ofCode code text
  | .permissionDenied _ code text => ofCode code text
  | .resourceExhausted _ code text => ofCode code text
  | .noSuchThing _ code text => ofCode code text
  | .otherError code text => ofCode code text
  | error => other (toString error)

/-- Makes a result of an exception. -/
def attempt {α : Type} (p : Path) (action : IO α) : IO (Except FileError α) := do
  if p.text.toList.contains '\x00' then return .error .badPath
  try
    return .ok (← action)
  catch error => return .error (.ofSystem error)

/-- A path in the form that the system's functions take. -/
def Path.entry (p : Path) : IO.FS.DirEntry := ⟨p.text, ""⟩

instance : Host (ReaderT LogLevel IO) where
  readFile p := fun _ ↦ attempt p (IO.FS.readBinFile p.entry.root)
  writeFile p content := fun _ ↦ attempt p (IO.FS.writeBinFile p.entry.root content)
  makeDirectory p := fun _ ↦ attempt p (IO.FS.createDir p.entry.root)
  names p := fun _ ↦ attempt p do return (← p.entry.root.readDir).toList.map (·.fileName)
  isDirectory p := fun _ ↦ p.entry.root.isDir
  isPresent p := fun _ ↦ p.entry.root.pathExists
  report event := fun level ↦ do
    IO.print (event.standardOutput level)
    IO.eprint event.standardError

end AstSchema

open AstSchema in
/-- Does what the command line asks for and ends as that turned out. -/
def main (args : List String) : IO UInt32 := do
  let conclusion ←
    match CommandLine.read args with
    | .error error => pure error.conclusion
    | .ok invocation => do
      let coloured := wantsColours (← IO.getEnv "CLICOLOR_FORCE") (← IO.getEnv "NO_COLOR")
        (← IO.getEnv "CLICOLOR") (← (← IO.getStdout).isTty)
      let result ← (invocation.run : ReaderT LogLevel IO _).run invocation.log
      pure (Conclusion.ofRun coloured result)
  IO.print conclusion.output
  IO.eprint conclusion.complaint
  return conclusion.exitCode
