import NodeHealth.CommandLine.Flag
import NodeHealth.Text.Terminal

/-!
# Usage errors in words

A usage error is reported by the first line of its message, so that a line break in an argument cuts
the report short.
-/

namespace NodeHealth.UsageError

/-- An argument between apostrophes. -/
def quote (arg : String) : String := "'" ++ Terminal.shown arg ++ "'"

/-- A flag between apostrophes. -/
def quoteFlag (flag : Flag) : String := "'" ++ flag.shown ++ "'"

def message : UsageError → String
  | missingSubcommand => "missing subcommand"
  | unknownSubcommand word => "unrecognized subcommand " ++ quote word
  | unexpectedArgument arg => "unexpected argument " ++ quote arg ++ " found"
  | valueRequired flag => "a value is required for " ++ quoteFlag flag ++ " but none was supplied"
  | unneededValue flag value =>
    "unexpected value " ++ quote value ++ " for " ++ quoteFlag flag ++
      " found; no more were expected"
  | repeated flag => "the argument " ++ quoteFlag flag ++ " cannot be used multiple times"
  | invalidFormat value => "invalid value " ++ quote value ++ " for " ++ quoteFlag .format
  | invalidCount flag value fault =>
    "invalid value " ++ quote value ++ " for " ++ quoteFlag flag ++ ": " ++ fault.message

/-- The first line of the message. -/
def summary (e : UsageError) : String := (Text.lines e.message).headD ""

end NodeHealth.UsageError
