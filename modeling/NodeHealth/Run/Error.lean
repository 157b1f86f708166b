import NodeHealth.Config.Basic
import NodeHealth.Machine.Basic

/-!
# Why a run fails

The causes for which a run gives no verdict of its own, and the message of each: the outermost cause
first, the causes below it after colons.
-/

namespace NodeHealth

/-- Why a run gives no verdict of its own. -/
inductive RunError where
  | config (cause : ConfigError)
  | invertedThresholds (thresholds : Thresholds)
  /-- A file of captured output could not be read. -/
  | input (path : String) (cause : ReadError)
  | standardInput (cause : ReadError)
  | notStarted (program : String) (cause : StartError)
  | timedOut (program : String) (limit : Duration)
  | failed (program : String) (status : ExitStatus) (reason : String)
  deriving DecidableEq, Repr

namespace RunError

/-- A program name in quotes. -/
def quote (program : String) : String := "'" ++ program ++ "'"

def message : RunError → String
  | config (.read path cause) => (ConfigError.read path cause).message ++ ": " ++ cause.message
  | config cause => cause.message
  | invertedThresholds t => t.invertedMessage
  | input path cause => "failed to read " ++ path ++ ": " ++ cause.message
  | standardInput cause => "failed to read captured output from stdin: " ++ cause.message
  | notStarted program cause => "failed to execute " ++ quote program ++ ": " ++ cause.message
  | timedOut program limit => quote program ++ " timed out after " ++ limit.text
  | failed program status reason =>
    quote program ++ " exited with " ++ status.text ++ ": " ++ reason

end RunError

end NodeHealth
