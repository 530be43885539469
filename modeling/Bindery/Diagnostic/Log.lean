import Bindery.Diagnostic

set_option autoImplicit false

/-! The reports of one compilation and the files that they are about. A file has a number, which
never changes; a file of a name that is there already gets the number it has, and its first text
stays. -/

namespace Bindery

structure SourceFile where
  name : String
  text : String
  deriving DecidableEq, Repr

/-- A report and the file it was raised against. -/
structure LogEntry where
  file : Nat
  diagnostic : Diagnostic
  deriving DecidableEq, Repr

structure DiagnosticLog where
  /-- The files in the order of their numbers. -/
  files : List SourceFile
  /-- The names of files with their numbers. What was put in last comes first. -/
  numbers : List (String × Nat)
  entries : List LogEntry
  deriving DecidableEq, Repr

namespace DiagnosticLog

def empty : DiagnosticLog := ⟨[], [], []⟩

/-- The number of the file of a name. -/
def fileId? (log : DiagnosticLog) (name : String) : Option Nat := log.numbers.lookup name

/-- Makes sure that there is a file of that name, and gives its number. -/
def addFile (log : DiagnosticLog) (name text : String) : Nat × DiagnosticLog :=
  match log.fileId? name with
  | some file => (file, log)
  | none =>
      let file := log.files.length
      (file, { log with
        files := log.files ++ [⟨name, text⟩]
        numbers := (name, file) :: log.numbers })

def add (log : DiagnosticLog) (file : Nat) (diagnostic : Diagnostic) : DiagnosticLog :=
  { log with entries := log.entries ++ [⟨file, diagnostic⟩] }

/-- Adds what is reported once the number of the file is known. -/
def raise (log : DiagnosticLog) (report : Nat → Diagnostic) (file : Nat) : DiagnosticLog :=
  log.add file (report file)

def clear (log : DiagnosticLog) : DiagnosticLog := { log with entries := [] }

def diagnostics (log : DiagnosticLog) : List Diagnostic := log.entries.map LogEntry.diagnostic

def messages (log : DiagnosticLog) : List String := log.diagnostics.map Diagnostic.message

def size (log : DiagnosticLog) : Nat := log.entries.length

/-- The number of errors; warnings and milder reports do not count. -/
def errorCount (log : DiagnosticLog) : Nat :=
  (log.entries.filter fun entry => entry.diagnostic.isError).length

def hasErrors (log : DiagnosticLog) : Bool :=
  log.entries.any fun entry => entry.diagnostic.isError

def hasErrorsIn (log : DiagnosticLog) (file : Nat) : Bool :=
  log.entries.any fun entry => entry.file = file && entry.diagnostic.isError

end DiagnosticLog

end Bindery
