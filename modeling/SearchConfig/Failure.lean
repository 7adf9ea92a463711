import SearchConfig.Value.Display
import SearchConfig.Files.Walk

/-!
# Failures

A failure has a kind, a message for people, and details by name; the kinds form a hierarchy. Some
failures are caused by an error of the operating system or of a writer, which is kept beside the
details. Shown, a failure is its message with the details in parentheses.
-/

namespace SearchConfig

inductive FailureKind where
  | general
  | configuration
  | configRead
  | configDecode
  | pathResolution
  | configEncode
  deriving DecidableEq

namespace FailureKind

/-- The kind with all more general ones, from special to general. -/
def lineage : FailureKind → List FailureKind
  | general => [general]
  | configuration => [configuration, general]
  | kind => [kind, configuration, general]

def name : FailureKind → Text
  | general => "HoundError"
  | configuration => "ConfigurationError"
  | configRead => "ConfigReadError"
  | configDecode => "ConfigDecodeError"
  | pathResolution => "PathResolutionError"
  | configEncode => "ConfigEncodeError"

end FailureKind

/-- What a failure may be caused by. -/
inductive Cause where
  | system (error : SystemError)
  /-- Symbolic links that lead to themselves. -/
  | endlessLinks
  /-- Symbolic links in symbolic links, deeper than a process can follow them. -/
  | deepLinks
  | unwritable
  deriving DecidableEq

structure Failure where
  kind : FailureKind
  message : Text
  details : List (Text × Value)
  cause : Option Cause

namespace Failure

/-- A detail as it is shown. -/
def showDetail : Text × Value → Text
  | (name, value) => name ++ "=" ++ value.shown

/-- The message, and the details in parentheses if there are any. -/
def shown (f : Failure) : Text :=
  if f.details.isEmpty then f.message
  else f.message ++ " (" ++ Text.join ", " (f.details.map showDetail) ++ ")"

/-- Can every detail be shown? -/
def isShowable (f : Failure) : Bool := f.details.all (·.2.isDisplayable)

end Failure

end SearchConfig
