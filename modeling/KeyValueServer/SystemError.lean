import KeyValueServer.Numeral

/-!
# Failures that the system reports

The system says why it does not read a file or does not listen on an address by a number. Each
number has a wording of its own, and reports give both.

## Main definitions

* `SystemError` — a failure, and names for those that a start meets;
* `SystemError.reason`, `SystemError.message` — the wordings.
-/

namespace KeyValueServer

/-- A failure that the system reports by its number. -/
structure SystemError where
  /-- The number. -/
  code : Nat
  deriving DecidableEq

namespace SystemError

/-- Nothing has that name. -/
def noSuchFile : SystemError := ⟨2⟩

/-- There is no device of that number. -/
def noSuchDevice : SystemError := ⟨19⟩

/-- A name goes on after something that is no directory. -/
def notDirectory : SystemError := ⟨20⟩

/-- A directory has no bytes. -/
def isDirectory : SystemError := ⟨21⟩

/-- The request makes no sense to the system. -/
def invalidArgument : SystemError := ⟨22⟩

/-- A name is longer than any name of a file. -/
def nameTooLong : SystemError := ⟨36⟩

/-- The system has nothing that could do what is asked. -/
def notSupported : SystemError := ⟨95⟩

/-- No interface has that address. -/
def addressNotAvailable : SystemError := ⟨99⟩

/-- The wordings of the failures that files and addresses meet, by number. -/
def reasons : List (Nat × String) :=
  [(1, "Operation not permitted"), (2, "No such file or directory"), (5, "Input/output error"),
   (6, "No such device or address"), (12, "Cannot allocate memory"), (13, "Permission denied"),
   (16, "Device or resource busy"), (19, "No such device"), (20, "Not a directory"),
   (21, "Is a directory"), (22, "Invalid argument"), (23, "Too many open files in system"),
   (24, "Too many open files"), (36, "File name too long"),
   (40, "Too many levels of symbolic links"), (95, "Operation not supported"),
   (97, "Address family not supported by protocol"), (98, "Address already in use"),
   (99, "Cannot assign requested address")]

/-- The wording of a failure. -/
def reason (e : SystemError) : String :=
  (reasons.lookup e.code).getD ("Unknown error " ++ Numeral.decimal e.code)

/-- The wording of a failure with its number. -/
def message (e : SystemError) : String :=
  e.reason ++ " (os error " ++ Numeral.decimal e.code ++ ")"

end SystemError

end KeyValueServer
