import KeyValueServer.Startup

/-!
# The program

The outer layer: it reads arguments and files, prints texts, and gives the exit code. Listening
is up to the system; where it offers no sockets, the start ends as it does for any address that
cannot be listened on.
-/

namespace KeyValueServer.Program

/-- The exit code of a program that ends in a fault. -/
def faultCode : UInt32 := 101

/-- What the system reports when it does not read a file. -/
def systemError : IO.Error → SystemError
  | .noFileOrDirectory _ code _ => ⟨code.toNat⟩
  | .permissionDenied _ code _ => ⟨code.toNat⟩
  | .invalidArgument _ code _ => ⟨code.toNat⟩
  | .inappropriateType _ code _ => ⟨code.toNat⟩
  | .noSuchThing _ code _ => ⟨code.toNat⟩
  | .resourceExhausted _ code _ => ⟨code.toNat⟩
  | .resourceBusy code _ => ⟨code.toNat⟩
  | .hardwareFault code _ => ⟨code.toNat⟩
  | .unsupportedOperation code _ => ⟨code.toNat⟩
  | .otherError code _ => ⟨code.toNat⟩
  | _ => .noSuchFile

/-- The bytes of a file. -/
def readFile (path : String) : IO (Except SystemError Bytes) := do
  try
    let bytes ← IO.FS.readBinFile path
    return .ok bytes.toList
  catch e =>
    return .error (systemError e)

/-- Prints a report of a failed start. -/
def report (failure : StartFailure) : IO Unit := do
  let error ← IO.getStderr
  error.putStrLn ("Error: " ++ failure.headline)
  error.putStrLn ""
  error.putStrLn "Caused by:"
  for line in failure.causeLines do
    error.putStrLn ("    " ++ line)

/-- Starts the server with options. -/
def start (options : Options) : IO UInt32 := do
  let file ← match options.config? with
    | some path => readFile path
    | none => pure (.error .noSuchFile)
  let system : System := ⟨fun _ => file, fun _ => .error .notSupported⟩
  match Startup.prepare system options with
  | .error _ => return faultCode
  | .ok (.error failure) => do
    report failure
    return 1
  | .ok (.ok _) => return 0

end KeyValueServer.Program

open KeyValueServer in
/-- Runs the program. -/
def main (args : List String) : IO UInt32 := do
  match CommandLine.parse args with
  | .error e => do
    (← IO.getStderr).putStrLn ("error: " ++ e.message)
    return 2
  | .ok .help => do
    (← IO.getStdout).putStr CommandLine.help
    return 0
  | .ok .version => do
    (← IO.getStdout).putStr CommandLine.version
    return 0
  | .ok (.run options) => Program.start options
