/-
The files that a command makes.

* `ArtifactStatus`: how a file and its new text compare, and what is done
  about it;
* `writeArtifact`: a file is brought up to date, or only compared;
* `refuseArtifact`: what is done about a file whose text has no octets.
-/
import HeaderBinding.Command.Arguments
import HeaderBinding.Command.Console
import HeaderBinding.Diff.Unified

namespace HeaderBinding

/-- How a file and its new text compare. -/
inductive ArtifactStatus
  | unchanged
  /-- They differ, and the file is only to be checked. -/
  | drift
  /-- They differ, and the file would be written. -/
  | wouldWrite
  | updated
deriving DecidableEq, Repr

/-- The status as it is shown. -/
def ArtifactStatus.label : ArtifactStatus → String
  | unchanged => "unchanged"
  | drift => "drift"
  | wouldWrite => "would_write"
  | updated => "updated"

/-- The status of a file whose text is not up to date. -/
def Arguments.staleStatus (a : Arguments) : ArtifactStatus :=
  if a.check then .drift
  else if a.dryRun then .wouldWrite
  else .updated

/-- The status of a file with an old and a new text. -/
def artifactStatus (a : Arguments) (old new : String) : ArtifactStatus :=
  if old = new then .unchanged else a.staleStatus

/-- The text of a file that may be missing. -/
def existingText (p : Path) : Action String := do
  if (← lookUp p).isSome then
    return String.ofList (← loadText p .unreadableOutput)
  else return ""

/-- The difference of the old and the new text of a file. -/
def artifactDiff (p : Path) (old new : String) : String :=
  unifiedDiff ("a/" ++ p.shown) ("b/" ++ p.shown) old new

/-- The line that tells the status of a file. -/
def statusLine (label : String) (p : Path) (status : ArtifactStatus) :
    String :=
  "[" ++ label ++ "] " ++ p.shown ++ ": status=" ++ status.label

/-- The lines about a file.  The difference is shown if nothing is
written. -/
def artifactReport (label : String) (a : Arguments) (p : Path)
    (old new : String) : List String :=
  let diff := artifactDiff p old new
  statusLine label p (artifactStatus a old new)
    :: if (a.check || a.dryRun) && diff ≠ "" then [diff] else []

/-- A file gets its text, or is only compared with it.  The answer is
whether it had to be up to date and is not. -/
def writeArtifact (label : String) (a : Arguments) (p : Path)
    (new : String) : Action Bool := do
  let old ← existingText p
  let status := artifactStatus a old new
  if status = .updated then storeText p new
  (artifactReport label a p old new).forM (say .out)
  return status = .drift

/-- A file is to get a text without octets, which is no text that it can
have already.  The file is emptied before the command stops; where it is
only compared, its status can still be told. -/
def refuseArtifact (label : String) (a : Arguments) (p : Path) :
    Action Bool := do
  discard (existingText p)
  if a.staleStatus = .updated then storeText p ""
  else say .out (statusLine label p a.staleStatus)
  throw .unencodable

/-- A file gets its text, if that has octets. -/
def writeArtifact? (label : String) (a : Arguments) (p : Path) :
    Option String → Action Bool
  | some new => writeArtifact label a p new
  | none => refuseArtifact label a p

end HeaderBinding
